import WasmDecode.Error
import WasmDecode.Expr

/-!
# Notices

What the library has to say while it works, besides its results: lines of a trace and records for a
log. Notices are values; whoever called decides what becomes of them.

* `Notice.level`, `Notice.message`: how important a notice is, and its text.
* `Notice.traceLines`: the lines of the trace.
* `Notice.logLines`: the log up to a level.
-/

namespace WasmDecode

/-- How important a record of a log is. -/
inductive Level where
  | error
  | warn
  | info
  | debug
  | trace
  deriving DecidableEq, Repr, Inhabited

namespace Level

/-- All levels, the most important first. -/
def all : List Level := [error, warn, info, debug, trace]

/-- The position of a level: the more detailed, the higher. -/
def rank : Level → Nat
  | error => 0
  | warn => 1
  | info => 2
  | debug => 3
  | trace => 4

/-- The name of a level in a log. -/
def name : Level → String
  | error => "ERROR"
  | warn => "WARN"
  | info => "INFO"
  | debug => "DEBUG"
  | trace => "TRACE"

end Level

/-- Something worth saying. -/
inductive Notice where
  /-- A line of the trace. -/
  | traceLine (line : String)
  /-- Reading of so many bytes begins. -/
  | readBegun (bytes : Nat) (traced debugNames : Bool)
  /-- An event of a replayed stream failed. -/
  | replayStopped (offset : Nat) (error : Error)
  /-- So many opcodes were counted. -/
  | opcodesCounted (total : Nat)
  /-- A module was built from beginning to end. -/
  | moduleBuilt (fields funcs maxDepth : Nat)
  /-- The body of a function begins. -/
  | bodyBegun (index : Nat)
  /-- A label was pushed; `depth` labels are open now. -/
  | labelPushed (kind : LabelKind) (depth : Nat)
  /-- A label was popped; `depth` labels are left. -/
  | labelPopped (kind : LabelKind) (depth : Nat)
  /-- An announced number of items is too large to make room for. -/
  | cannotReserve (count : Nat)
  /-- A function would have `total` locals, more than `limit`. -/
  | tooManyLocals (funcIndex total limit : Nat)
  /-- An event was refused. -/
  | decodeError (offset : Option Nat) (message : String)
  /-- The scanner reported malformed input. -/
  | scannerError (offset : Nat) (message : String)
  /-- An error handler put an error on record. -/
  | errorLogged (offset : Option Nat) (message : String)
  deriving DecidableEq, Repr, Inhabited

namespace Notice

/-- The importance of a notice. -/
def level : Notice → Level
  | traceLine _ | readBegun .. | replayStopped .. | opcodesCounted _ | moduleBuilt ..
  | bodyBegun _ => .debug
  | labelPushed .. | labelPopped .. => .trace
  | cannotReserve _ | tooManyLocals .. | decodeError .. | scannerError .. => .warn
  | errorLogged .. => .error

/-- The text of a notice. -/
def message : Notice → String
  | traceLine line => line
  | readBegun bytes traced debugNames =>
    s!"read_binary: {bytes} bytes, trace: {traced}, debug names: {debugNames}"
  | replayStopped offset error => s!"replay stopped at 0x{Text.hex offset}: {error.text}"
  | opcodesCounted total => s!"read_binary_opcnt: {total} opcodes counted"
  | moduleBuilt fields funcs maxDepth =>
    s!"built module: {fields} fields, {funcs} funcs, max label depth {maxDepth}"
  | bodyBegun index => s!"function body {index}"
  | labelPushed kind depth => s!"push {kind.word} label, depth {depth}"
  | labelPopped kind depth => s!"pop {kind.word} label, depth {depth}"
  | cannotReserve count =>
    s!"cannot reserve {count} items: memory allocation failed because the memory allocator " ++
      "returned an error"
  | tooManyLocals funcIndex total limit =>
    s!"function {funcIndex} declares {total} locals, limit is {limit}"
  | decodeError (some offset) message => s!"decode error at 0x{Text.hex offset}: {message}"
  | decodeError none message => s!"decode error: {message}"
  | scannerError offset message => s!"scanner error at 0x{Text.hex offset}: {message}"
  | errorLogged (some offset) message => s!"@0x{Text.hexPadded 8 offset}: {message}"
  | errorLogged none message => s!"@unknown: {message}"

/-- The line of the trace that a notice is, if it is one. -/
def traceLine? : Notice → Option String
  | traceLine line => some line
  | _ => none

/-- The lines of the trace. -/
def traceLines (notices : List Notice) : List String := notices.filterMap traceLine?

/-- The lines of the trace as one text. -/
def traceText (notices : List Notice) : String :=
  (traceLines notices).foldl (fun text line => text ++ line ++ "\n") ""

/-- The part of the library in whose name a notice is logged, if it is named. -/
def target : Notice → String
  | traceLine _ => "[wbr::trace]"
  | _ => ""

/-- A notice as a line of a log. -/
def logLine (n : Notice) : String := s!"{n.level.name}{n.target} {n.message}"

/-- The log: the notices up to the level `max`. The trace is part of it only if `withTrace`. -/
def logLines (max : Level) (withTrace : Bool) (notices : List Notice) : List String :=
  (notices.filter fun n => n.level.rank ≤ max.rank && (withTrace || n.traceLine?.isNone)).map
    logLine

end Notice

end WasmDecode
