import WasmDecode.Numeral

/-!
# Errors

An error has a category, a numeric code, a message and, once it is known, the byte offset of the
event that raised it.

* `Category`: the broad classes of errors. Codes of a class share their thousands.
* `ErrorCode`: the codes in use.
* `Error.text`: the one-line text of an error.
* `Fault`, `Failure`: a fault is a broken internal promise, not an error of the input; a failure is
  either.
* `Cause`: the ways in which a sequence of decode events can fail to describe a module. A cause
  knows its category, its code and its message; `Cause.toError` joins the three into an error.
-/

namespace WasmDecode

/-- The broad class of an error. -/
inductive Category where
  /-- The events are nested or ordered in a way that no module is. -/
  | structural
  /-- A count or an index disagrees with what was declared. -/
  | consistency
  /-- Something is too large to be represented or provided for. -/
  | resource
  /-- The input itself is malformed. -/
  | parse
  /-- Output could not be written. -/
  | system
  | unknown
  deriving DecidableEq, Repr, Inhabited

namespace Category

/-- All categories. -/
def all : List Category := [structural, consistency, resource, parse, system, unknown]

/-- The word for a category in the text of an error. -/
def name : Category → String
  | structural => "Structure"
  | consistency => "Consistency"
  | resource => "Resource"
  | parse => "Parse"
  | system => "System"
  | unknown => "Unknown"

/-- The word for a category in running text. -/
def word : Category → String
  | structural => "structure"
  | consistency => "consistency"
  | resource => "resource"
  | parse => "parse"
  | system => "system"
  | unknown => "unknown"

/-- The number of a category. -/
def number : Category → Nat
  | structural => 1
  | consistency => 2
  | resource => 3
  | parse => 4
  | system => 5
  | unknown => 9

/-- The category with a given name, if there is one. -/
def ofName? (s : String) : Option Category := all.find? (·.name == s)

end Category

/-! ## Codes -/

namespace ErrorCode

/-- An `else` has no `if` to belong to. -/
def elseWithoutIf : UInt16 := 1000
/-- A scope is closed while none is open. -/
def labelStackUnderflow : UInt16 := 1001
/-- A label is sought below the bottom of the label stack. -/
def labelDepthOutOfRange : UInt16 := 1002
/-- A part of an init expression stands outside of one. -/
def initExprOutsideScope : UInt16 := 1003
/-- An event arrives at a place where it has no meaning. -/
def unexpectedEvent : UInt16 := 1004
/-- Scopes are open where none may be. -/
def unclosedScope : UInt16 := 1005
/-- More names are announced than there are items to name. -/
def nameCountExceedsItems : UInt16 := 2000
/-- The number of bodies is not the number of defined functions. -/
def bodyCountMismatch : UInt16 := 2001
/-- An index names no item. -/
def indexOutOfRange : UInt16 := 2002
/-- The detail of an import belongs to another import than the latest. -/
def importIndexMismatch : UInt16 := 2003
/-- An alignment does not fit into 32 bits. -/
def alignmentOverflow : UInt16 := 3000
/-- Something could not be added. -/
def appendFailed : UInt16 := 3001
/-- The scanner found malformed input. -/
def malformedInput : UInt16 := 4000
/-- Text could not be written. -/
def unwritable : UInt16 := 5000

end ErrorCode

/-! ## Errors and failures -/

/-- An error, as it is handed to the caller. -/
structure Error where
  category : Category
  code : UInt16
  message : String
  /-- The byte offset of the event that raised the error, if it is known. -/
  offset : Option Nat := none
  deriving DecidableEq, Repr, Inhabited

namespace Error

/-- The error raised by the event at byte `offset`. -/
def atOffset (e : Error) (offset : Nat) : Error := { e with offset := some offset }

/-- The scanner's complaint, as an error. -/
def malformedInput (message : String) : Error := ⟨.parse, ErrorCode.malformedInput, message, none⟩

/-- The error of text that could not be written. -/
def unwritable : Error := ⟨.system, ErrorCode.unwritable, "Formatting error", none⟩

/-- The text of an error: category, code in hexadecimal, message, and the offset if it is known. -/
def text (e : Error) : String :=
  s!"[{e.category.name}][E{Text.hexUpper 4 e.code.toNat}] {e.message}" ++
    match e.offset with
    | some offset => s!" @ 0x{Text.hex offset}"
    | none => ""

end Error

/-- A promise that the library makes to itself, found broken. -/
inductive Fault where
  /-- A trace line would be indented by less than nothing. -/
  | negativeIndent
  /-- The function whose body is open is not in the module. -/
  | missingFunction
  /-- More items of a kind are imported than there are items of the kind. -/
  | importsExceedItems
  /-- The `if` of an `else` is not the last instruction of the scope around it. -/
  | detachedIf
  /-- There is no item at a position where one is looked up. -/
  | missingItem
  /-- A position in front of the first one is asked for. -/
  | negativePosition
  deriving DecidableEq, Repr, Inhabited

/-- The text of a fault. -/
def Fault.message : Fault → String
  | .negativeIndent => "trace indentation would become negative"
  | .missingFunction => "the open function is not in the module"
  | .importsExceedItems => "more imports than items of the kind"
  | .detachedIf => "the if of an else is not the last instruction of its scope"
  | .missingItem => "no item at the position"
  | .negativePosition => "position in front of the first one"

/-- Why handling an event stopped. -/
inductive Failure where
  | error (e : Error)
  | fault (f : Fault)
  deriving DecidableEq, Repr, Inhabited

/-! ## Causes -/

/-- Why an event is refused. -/
inductive Cause where
  | elseWithoutIf
  | labelStackUnderflow
  /-- A label is sought `depth` levels below the top of a stack of `max` labels. -/
  | labelDepthOutOfRange (depth max : Nat)
  | initExprOutsideScope (event : String)
  | unexpectedEvent (event reason : String)
  /-- At the place `place`, `depth` scopes are open. -/
  | unclosedScope (place : String) (depth : Nat)
  /-- Names are announced, `count` of them, for only `items` items of the kind `what`. -/
  | nameCountExceedsItems (what : String) (count items : Nat)
  /-- Bodies are announced, `bodies` of them, for `declared` defined functions. -/
  | bodyCountMismatch (declared bodies : Nat)
  /-- There are `count` items of the kind `what`, and `index` is none of them. -/
  | indexOutOfRange (what : String) (index count : Nat)
  /-- The detail of import `index` arrives while `expected` is the latest import. -/
  | importIndexMismatch (index : Nat) (expected : Option Nat)
  | alignmentOverflow (alignLog2 : Nat)
  | appendFailed
  deriving DecidableEq, Repr, Inhabited

namespace Cause

/-- The category of a cause. -/
def category : Cause → Category
  | elseWithoutIf | labelStackUnderflow | labelDepthOutOfRange .. | initExprOutsideScope ..
  | unexpectedEvent .. | unclosedScope .. => .structural
  | nameCountExceedsItems .. | bodyCountMismatch .. | indexOutOfRange ..
  | importIndexMismatch .. => .consistency
  | alignmentOverflow .. | appendFailed => .resource

/-- The code of a cause. -/
def code : Cause → UInt16
  | elseWithoutIf => ErrorCode.elseWithoutIf
  | labelStackUnderflow => ErrorCode.labelStackUnderflow
  | labelDepthOutOfRange .. => ErrorCode.labelDepthOutOfRange
  | initExprOutsideScope .. => ErrorCode.initExprOutsideScope
  | unexpectedEvent .. => ErrorCode.unexpectedEvent
  | unclosedScope .. => ErrorCode.unclosedScope
  | nameCountExceedsItems .. => ErrorCode.nameCountExceedsItems
  | bodyCountMismatch .. => ErrorCode.bodyCountMismatch
  | indexOutOfRange .. => ErrorCode.indexOutOfRange
  | importIndexMismatch .. => ErrorCode.importIndexMismatch
  | alignmentOverflow .. => ErrorCode.alignmentOverflow
  | appendFailed => ErrorCode.appendFailed

/-- The message of a cause. -/
def message : Cause → String
  | elseWithoutIf => "else expression without matching if"
  | labelStackUnderflow => "popping empty label stack"
  | labelDepthOutOfRange depth max => s!"accessing stack depth: {depth} >= max: {max}"
  | initExprOutsideScope event => s!"{event} outside of an init expression"
  | unexpectedEvent event reason => s!"unexpected {event}: {reason}"
  | unclosedScope place depth => s!"{place} with {depth} unclosed label(s)"
  | nameCountExceedsItems what count items =>
    s!"expected {what} name count ({count}) <= {what} count ({items})"
  | bodyCountMismatch declared bodies =>
    s!"function body count ({bodies}) != function count ({declared})"
  | indexOutOfRange what index count => s!"invalid {what} index: {index} (count: {count})"
  | importIndexMismatch index (some expected) =>
    s!"import detail for index {index} but last import is {expected}"
  | importIndexMismatch index none => s!"import detail for index {index} before any import"
  | alignmentOverflow alignLog2 => s!"alignment 2^{alignLog2} overflows"
  | appendFailed => "failed to append expression"

/-- The error that a cause gives rise to, at an offset not yet known. -/
def toError (c : Cause) : Error := ⟨c.category, c.code, c.message, none⟩

end Cause

end WasmDecode
