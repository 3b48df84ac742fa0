import WasmDecode.Event
import WasmDecode.Notice

/-!
# Readers

A reader consumes decode events one at a time. It is a state with a function that handles one
event; what handling leaves behind is a `Reply`: the new state, notices, and an outcome.

* `Reader.dispatch`: hands one event to a reader. Of malformed input the reader hears through its
  own entry, where it says whether to go on.
* `Reader.silent`: the reader that ignores every event.
-/

namespace WasmDecode

/-- The place where an event is told: the whole input, and the byte offset in it. -/
structure Cursor where
  data : ByteArray
  offset : Nat
  deriving DecidableEq, Inhabited

/-- The size of the whole input. -/
def Cursor.size (c : Cursor) : Nat := c.data.size

/-! ## Replies -/

/-- What an action leaves behind. The state is meaningful after a failure as well. -/
structure Reply (σ α : Type) where
  state : σ
  notices : List Notice := []
  outcome : Except Failure α

namespace Reply

variable {σ τ α β : Type}

/-- Nothing happens but that `a` is returned. -/
def done (s : σ) (a : α) : Reply σ α := { state := s, outcome := .ok a }

/-- Goes on with `next` unless the action failed. -/
def andThen (r : Reply σ α) (next : σ → α → Reply σ β) : Reply σ β :=
  match r.outcome with
  | .ok a =>
    let r' := next r.state a
    { r' with notices := r.notices ++ r'.notices }
  | .error e => ⟨r.state, r.notices, .error e⟩

/-- The reply of an action on a part of a state. -/
def mapState (f : σ → τ) (r : Reply σ α) : Reply τ α := ⟨f r.state, r.notices, r.outcome⟩

/-- Adds notices in front. -/
def after (notices : List Notice) (r : Reply σ α) : Reply σ α :=
  { r with notices := notices ++ r.notices }

/-- Adds, if the action ended in an error, notices about it behind. -/
def onError (r : Reply σ α) (say : Error → List Notice) : Reply σ α :=
  match r.outcome with
  | .error (.error e) => { r with notices := r.notices ++ say e }
  | _ => r

end Reply

/-- What someone who hears of an error decides: whether to go on. -/
structure Verdict (σ : Type) where
  state : σ
  notices : List Notice := []
  goOn : Bool

/-- A consumer of decode events with states in `σ`. -/
structure Reader (σ : Type) where
  /-- Handles an event that is not a complaint of the scanner. -/
  handle : σ → Cursor → Event → Reply σ Unit
  /-- Hears a complaint of the scanner. -/
  onMalformed : σ → Cursor → String → Verdict σ

namespace Reader

variable {σ : Type}

/-- Hands an event to a reader. A complaint of the scanner that the reader does not pass over is an
error at the offset of the event. -/
def dispatch (r : Reader σ) (s : σ) (c : Cursor) : Event → Reply σ Unit
  | .malformed message =>
    let v := r.onMalformed s c message
    ⟨v.state, v.notices,
      if v.goOn then .ok () else .error (.error ((Error.malformedInput message).atOffset c.offset))⟩
  | e => r.handle s c e

/-- The reader that ignores every event, and goes on past no complaint of the scanner. -/
def silent : Reader Unit where
  handle s _ _ := .done s ()
  onMalformed s _ _ := { state := s, goOn := false }

end Reader

end WasmDecode
