import WasmDecode.Module

/-!
# Building a module

Decode events are flat; a builder turns them into a module with nested bodies. It keeps one label
for each open scope, so that adding an instruction takes constant time.

* `Builder`: the module so far, and what is open.
* `Stop`: why an action stops, for a cause that lies in the event or for a fault.
* `Build`: actions on a builder. An action that stops keeps the changes it has made until then.
* `Build.require`, `Build.expect`: the two ways to stop, and what it is to run them.

The actions themselves are in the modules below this one, and `WasmDecode.Builder.Step` tells which
of them an event takes.
-/

namespace WasmDecode

/-- A definition whose init expression is open. -/
structure InitTarget where
  site : InitSite
  position : Nat
  deriving DecidableEq, Repr, Inhabited

/-- A module that is being built. -/
structure Builder where
  module : Module := {}
  /-- The function whose body is open. -/
  currentFunc : Option Nat := none
  /-- The open scopes of that body, the innermost first. -/
  labels : List Label := []
  /-- The largest number of scopes that were open at a time. -/
  maxDepth : Nat := 0
  /-- The definition whose init expression is open. -/
  initTarget : Option InitTarget := none
  /-- The number of bodies that were begun. -/
  bodiesRead : Nat := 0

/-- The number of open scopes. -/
def Builder.depth (b : Builder) : Nat := b.labels.length

/-- Why an action on a builder stops. -/
inductive Stop where
  /-- The event cannot be accepted. -/
  | refused (cause : Cause)
  | fault (f : Fault)
  deriving DecidableEq, Repr, Inhabited

/-- Actions on a builder. -/
abbrev Build := EStateM Stop Builder

/-- The largest number of locals that a function may have. -/
def maxFunctionLocals : Nat := 50000

/-- The announced number of items from which on no room can be made for them. -/
def reserveLimit : Nat := 1 <<< 30

namespace Build

variable {α : Type}

/-- Stops, for a cause that lies in the event. -/
def refuse (cause : Cause) : Build α := throw (.refused cause)

/-- Goes on only if `p` holds. -/
def require (p : Prop) [Decidable p] (cause : Cause) : Build Unit :=
  if p then pure () else refuse cause

/-- Goes on with the value of an answer that must not be a fault. -/
def expect (answer : Except Fault α) : Build α :=
  match answer with
  | .ok a => pure a
  | .error f => throw (.fault f)

/-- Changes the module. -/
def modifyModule (f : Module → Module) : Build Unit :=
  modify fun b => { b with module := f b.module }

/-- Changes the function at position `i`. -/
def modifyFunc (i : Nat) (f : Func → Func) : Build Unit :=
  modifyModule fun m => { m with funcs := m.funcs.modify i f }

@[simp]
theorem run_refuse (cause : Cause) (b : Builder) :
    (refuse cause : Build α).run b = .error (.refused cause) b := rfl

/-- An unmet requirement stops without a change. -/
@[simp]
theorem run_require (p : Prop) [Decidable p] (cause : Cause) (b : Builder) :
    (require p cause).run b = if p then .ok () b else .error (.refused cause) b := by
  unfold require
  split <;> rfl

@[simp]
theorem run_expect_ok (a : α) (b : Builder) : (expect (.ok a)).run b = .ok a b := rfl

@[simp]
theorem run_expect_error (f : Fault) (b : Builder) :
    (expect (.error f) : Build α).run b = .error (.fault f) b := rfl

@[simp]
theorem run_modifyModule (f : Module → Module) (b : Builder) :
    (modifyModule f).run b = .ok () { b with module := f b.module } := rfl

/-! ## Indices -/

/-- The type at an index. -/
def signature (index : UInt32) : Build FuncType := do
  let types := (← get).module.types
  match types[index.toNat]? with
  | some type => return type
  | none => refuse (.indexOutOfRange "signature" index.toNat types.size)

/-- The position of the function at an index. -/
def funcPosition (what : String) (index : UInt32) : Build Nat := do
  let size := (← get).module.funcs.size
  require (index.toNat < size) (.indexOutOfRange what index.toNat size)
  return index.toNat

/-- The position of an item that must be the latest of `size` items. -/
def lastPosition (what : String) (index : UInt32) (size : Nat) : Build Nat := do
  require (index.toNat + 1 = size) (.indexOutOfRange what index.toNat size)
  return index.toNat

/-- The item at a position where there must be one. -/
def item (items : Array α) (position : Nat) : Build α :=
  match items[position]? with
  | some a => return a
  | none => throw (.fault .missingItem)

/-- Makes room for an announced number of items. -/
def reserve (count : UInt32) : Build Unit :=
  require (count.toNat < reserveLimit) .appendFailed

end Build

end WasmDecode
