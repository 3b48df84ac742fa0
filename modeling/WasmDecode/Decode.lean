import WasmDecode.Builder.Step
import WasmDecode.Trace

/-!
# Decoding

A stream of events is read into a module. Whoever decodes supplies a handler that hears of every
error: of those the builder raises, after which reading always stops, and of the complaints of the
scanner, where the handler decides whether to go on.

* `Builder.acceptedNotices`, `Builder.refusedNotices`: what is said of an event: labels that are
  pushed and popped, bodies that begin, and limits that are exceeded.
* `ErrorHandler`: hears of errors.
* `ErrorHandler.decoder`: the reader that builds a module.
* `ErrorHandler.decode`: the module of a stream.
-/

namespace WasmDecode

/-! ## Notices -/

namespace Builder

/-- What is said of an event that led to the builder `b`, where `innermost` was the label of the
innermost scope before the event. -/
def acceptedNotices (b : Builder) (e : Event) (innermost : Option Label) : List Notice :=
  match e with
  | .beginBody index => [.bodyBegun index.toNat, .labelPushed .func b.depth]
  | .beginScope kind _ => [.labelPushed (.ofScope kind) b.depth]
  | .endScope | .endBody _ => innermost.toList.map fun label => .labelPopped label.kind b.depth
  | _ => []

/-- What is said of an event that was refused because there is no room. -/
def noRoomNotices (b : Builder) : Event → List Notice
  | .itemCount _ count | .elemCount _ count => [.cannotReserve count.toNat]
  | .localDecl _ count _ => b.currentFunc.toList.map fun func =>
    let size := (b.module.funcs.items[func]?.map (·.locals.size)).getD 0
    .tooManyLocals func (size + count.toNat) maxFunctionLocals
  | _ => []

/-- What is said of an event that was refused. -/
def refusedNotices (b : Builder) (e : Event) (cause : Cause) : List Notice :=
  if cause = .appendFailed then b.noRoomNotices e else []

end Builder

/-! ## Decoders -/

/-- Someone who hears of errors, with states in `η`. The offset is absent for an error that shows
only at the end of the input. -/
structure ErrorHandler (η : Type) where
  onError : η → Option Nat → String → Verdict η

/-- A builder, and the state of the error handler. -/
structure Decoder (η : Type) where
  builder : Builder := {}
  handler : η

namespace ErrorHandler

variable {η : Type}

/-- Puts every error on record, and never goes on. -/
def logging : ErrorHandler Unit where
  onError _ offset message :=
    { state := (), notices := [.errorLogged offset message], goOn := false }

/-- Collects all errors, and goes on only if `goOn`. -/
def collecting (goOn : Bool) : ErrorHandler (List (Option Nat × String)) where
  onError calls offset message := { state := calls ++ [(offset, message)], goOn }

/-- Tells the handler of a cause for which the decoder stops. What the handler answers makes no
difference. -/
def report {α : Type} (h : ErrorHandler η) (d : Decoder η) (offset : Option Nat) (cause : Cause) :
    Reply (Decoder η) α :=
  let v := h.onError d.handler offset cause.message
  { state := { d with handler := v.state }
    notices := .decodeError offset cause.message :: v.notices
    outcome := .error (.error { cause.toError with offset }) }

/-- The reader that builds a module and tells `h` of errors. -/
def decoder (h : ErrorHandler η) : Reader (Decoder η) where
  handle d c e :=
    let innermost := d.builder.labels.head?
    match d.builder.handle e with
    | .ok () after =>
      { state := { d with builder := after }
        notices := after.acceptedNotices e innermost
        outcome := .ok () }
    | .error (.refused cause) after =>
      (h.report { d with builder := after } (some c.offset) cause).after
        (after.refusedNotices e cause)
    | .error (.fault f) after =>
      { state := { d with builder := after }, outcome := .error (.fault f) }
  onMalformed d c message :=
    let v := h.onError d.handler (some c.offset) message
    { state := { d with handler := v.state }
      notices := .scannerError c.offset message :: v.notices
      goOn := v.goOn }

/-- The module that a decoder has built. -/
def finish (h : ErrorHandler η) (d : Decoder η) : Reply (Decoder η) Module :=
  match d.builder.finish with
  | .ok m =>
    { state := d
      notices := [.moduleBuilt m.fields.size m.funcs.size d.builder.maxDepth]
      outcome := .ok m }
  | .error cause => h.report d none cause

/-- The module of a stream. -/
def decode (h : ErrorHandler η) (options : ReadOptions) (data : ByteArray) (stream : Stream)
    (s : η) : Reply (Decoder η) Module :=
  (h.decoder.read options data stream { handler := s }).andThen fun d () => h.finish d

end ErrorHandler

end WasmDecode
