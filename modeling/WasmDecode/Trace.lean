import WasmDecode.Reader.Recorder
import WasmDecode.Trace.Line

/-!
# Reading and tracing

The entry point for readers of any kind: a stream is replayed into a reader, with or without a
trace. For a trace a logger stands between the source of events and the reader: it writes a line for
each event and passes the event on as it is. Modules and sections are indented. Loggers can be
stacked.

* `Logger.observe`: what one logger does about one event.
* `Reader.traced`: a reader behind a stack of loggers.
* `ReadOptions`: whether to trace, and whether to tell of the names section.
* `Reader.read`: reads a stream.
-/

namespace WasmDecode

/-! ## Tracing -/

/-- What an event does to the indentation of the lines around it. -/
inductive Nesting where
  /-- The lines that follow are indented further. -/
  | opens
  /-- This line and those that follow are indented less. -/
  | closes
  | level
  deriving DecidableEq, Repr, Inhabited

/-- Modules and sections nest, and nothing else does. -/
def Event.nesting : Event → Nesting
  | .beginModule _ | .beginCustom .. | .beginSection .. => .opens
  | .endModule | .endCustom | .endSection _ => .closes
  | _ => .level

/-- A writer of trace lines. -/
structure Logger where
  /-- By how many spaces a level is indented. -/
  step : Nat := 2
  /-- By how many spaces the next line is indented. -/
  indent : Nat := 0
  deriving DecidableEq, Repr, Inhabited

namespace Logger

/-- The line for an event, if it has one, at the indentation of the logger. -/
def line? (l : Logger) (e : Event) : Option String :=
  e.line?.map fun text => String.ofList (List.replicate l.indent ' ') ++ text

/-- The logger after an event, and the line that it writes. There is no answer for an event that
would make the indentation negative. -/
def observe (l : Logger) (e : Event) : Option (Logger × Option String) :=
  match e.nesting with
  | .opens => some ({ l with indent := l.indent + l.step }, l.line? e)
  | .level => some (l, l.line? e)
  | .closes =>
    if l.step ≤ l.indent then
      let l := { l with indent := l.indent - l.step }
      some (l, l.line? e)
    else
      none

end Logger

namespace Reader

variable {σ : Type}

/-- Shows an event to the loggers of a stack, the outermost first, and then to the reader. A logger
that cannot show it stops it there. -/
def handleTraced (r : Reader σ) (c : Cursor) (e : Event) :
    List Logger → σ → Reply (List Logger × σ) Unit
  | [], s => (r.handle s c e).mapState fun s => ([], s)
  | l :: inner, s =>
    match l.observe e with
    | some (l, line) =>
      ((handleTraced r c e inner s).mapState fun (inner, s) => (l :: inner, s)).after
        (line.toList.map .traceLine)
    | none => ⟨(l :: inner, s), [], .error (.fault .negativeIndent)⟩

/-- The reader behind a stack of loggers, which are listed from the outermost to the innermost. The
loggers do not show the complaints of the scanner. -/
def traced (r : Reader σ) : Reader (List Logger × σ) where
  handle := fun (loggers, s) c e => r.handleTraced c e loggers s
  onMalformed := fun (loggers, s) c message =>
    let v := r.onMalformed s c message
    ⟨(loggers, v.state), v.notices, v.goOn⟩

end Reader

/-! ## Reading -/

/-- How to read. -/
structure ReadOptions where
  /-- Whether a line is written for each event. -/
  traced : Bool := false
  /-- Whether the events of the names section are read. -/
  debugNames : Bool := false
  deriving DecidableEq, Repr, Inhabited

/-- The text of the options. -/
def ReadOptions.text (o : ReadOptions) : String :=
  "ReadBinaryOptions \x7b log_sink: " ++ toString o.traced ++ ", read_debug_names: " ++
    toString o.debugNames ++ " \x7d"

/-- Hands the events of a stream to a reader, up to the first failure. -/
def Reader.read {σ : Type} (r : Reader σ) (options : ReadOptions) (data : ByteArray)
    (stream : Stream) (s : σ) : Reply σ Unit :=
  Reply.after [.readBegun data.size options.traced options.debugNames] <|
    if options.traced then
      (r.traced.replay data options.debugNames stream ([{}], s)).mapState Prod.snd
    else
      r.replay data options.debugNames stream s

end WasmDecode
