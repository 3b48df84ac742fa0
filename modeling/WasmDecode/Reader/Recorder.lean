import WasmDecode.Reader

/-!
# Recorded streams

A stream is an ordered list of decode events, each with the byte offset at which it was told. It can
be handed to any reader, and there is a reader that records one.

* `Stream.push`: adds an event at the offset that is its own position in the stream.
* `Stream.pushAt`: adds an event at a given offset.
* `Reader.replay`: hands the events of a stream to a reader, in order, up to the first failure.
* `Reader.recorder`: the reader whose state is the stream of all events it was handed.
-/

namespace WasmDecode

/-- An event and its byte offset. -/
structure Entry where
  offset : Nat
  event : Event
  deriving DecidableEq, Inhabited

/-- A recorded sequence of events. -/
structure Stream where
  entries : Array Entry := #[]
  deriving DecidableEq, Inhabited

namespace Stream

/-- The number of events. -/
def size (s : Stream) : Nat := s.entries.size

/-- Whether there is no event. -/
def isEmpty (s : Stream) : Bool := s.entries.isEmpty

/-- Adds an event at a given offset. Offsets need not grow. -/
def pushAt (s : Stream) (offset : Nat) (e : Event) : Stream := ⟨s.entries.push ⟨offset, e⟩⟩

/-- Adds an event at the offset that is its position in the stream. -/
def push (s : Stream) (e : Event) : Stream := s.pushAt s.size e

/-- Adds events one by one, each at its position in the stream. -/
def extend (s : Stream) (events : List Event) : Stream := events.foldl push s

/-- The stream of some events, each at its position. -/
def ofList (events : List Event) : Stream := extend {} events

end Stream

namespace Reader

variable {σ : Type}

/-- Hands events to a reader, in order, up to the first failure. -/
def replayEntries (r : Reader σ) (data : ByteArray) : List Entry → σ → Reply σ Unit
  | [], s => .done s ()
  | entry :: rest, s =>
    ((r.dispatch s ⟨data, entry.offset⟩ entry.event).onError fun e =>
      [.replayStopped entry.offset e]).andThen fun s () => r.replayEntries data rest s

/-- Hands the events of a stream to a reader, in order, up to the first failure. The events of the
names section are left out unless `debugNames`. -/
def replay (r : Reader σ) (data : ByteArray) (debugNames : Bool) (stream : Stream) (s : σ) :
    Reply σ Unit :=
  r.replayEntries data
    (stream.entries.toList.filter fun entry => debugNames || !entry.event.isDebugName) s

/-- Records every event, complaints of the scanner like any other, at the offset where it is told.
It goes on past such complaints only if `goOn`. -/
def recorder (goOn : Bool) : Reader Stream where
  handle s c e := .done (s.pushAt c.offset e) ()
  onMalformed s c message := { state := s.pushAt c.offset (.malformed message), goOn }

end Reader

end WasmDecode
