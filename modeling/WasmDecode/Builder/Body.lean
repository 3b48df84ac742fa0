import WasmDecode.Builder

/-!
# Function bodies

Each function that the module defines has one body, and the bodies arrive in the order of the
functions. A body is a scope with scopes in it, and an instruction is added to the innermost one
that is open.

* `Build.pushLabel`, `Build.popLabel`: one label for each open scope.
* `Build.append`: adds an instruction to the innermost open scope.
* `Build.openScope`, `Build.elseArm`, `Build.endScope`: structured instructions.
* `Build.checkBodyCount`: the announced number of bodies.
* `Build.beginBody`, `Build.endBody`: open and close a body, whose scope is the outermost one.
* `Build.addLocals`, `Build.addInstr`: what is in the body that is open.
-/

namespace WasmDecode.Build

/-! ## Scopes -/

/-- Opens a scope. -/
def pushLabel (kind : LabelKind) (slot : Slot) : Build Unit :=
  modify fun b =>
    let labels := { kind, slot } :: b.labels
    { b with labels, maxDepth := max b.maxDepth labels.length }

/-- Closes the innermost scope. -/
def popLabel : Build Unit := do
  match (← get).labels with
  | _ :: rest => modify fun b => { b with labels := rest }
  | [] => refuse .labelStackUnderflow

/-- The label of the innermost scope. -/
def innermost : Build Label := do
  match (← get).labels with
  | label :: _ => return label
  | [] => refuse (.labelDepthOutOfRange 0 0)

/-- Changes the label of the innermost scope. -/
def modifyInnermost (f : Label → Label) : Build Unit :=
  modify fun b => { b with labels := b.labels.modifyHead f }

/-- The function whose body is open. -/
def openFunc (event : String) : Build Nat := do
  match (← get).currentFunc with
  | some f => return f
  | none => refuse (.unexpectedEvent event "outside of a function body")

/-- Adds a node for an instruction to a function, and answers where it is. -/
def allocNode (func : Nat) (e : Expr) : Build ExprId := do
  match ((← get).module.funcs.items[func]?).map (·.arena.size) with
  | some id =>
    require (id < Arena.capacity) .appendFailed
    modifyFunc func fun f => { f with arena := f.arena.alloc e }
    return id
  | none => refuse .appendFailed

/-- Links a node of a function as the next one of the innermost scope. -/
def linkNode (func : Nat) (label : Label) (id : ExprId) : Build Unit := do
  require (((← get).module.funcs.items[func]?).any (·.canLink label)) .appendFailed
  modifyFunc func (·.link label id)
  modifyInnermost fun l => { l with last := some id }

/-- Adds an instruction to the innermost open scope, and answers where it is. -/
def append (e : Expr) : Build ExprId := do
  let label ← innermost
  let func ← openFunc "instruction"
  let id ← allocNode func e
  linkNode func label id
  return id

/-- Adds a scope instruction and opens its scope. -/
def openScope (kind : ScopeKind) (sig : List ValueType) : Build Unit := do
  let id ← append (.scope kind sig)
  pushLabel (.ofScope kind) (.blockFirst id)

/-- Leaves the first list of the innermost scope, which must be an `if`, for the second. -/
def elseArm : Build Unit := do
  let label ← innermost
  match label.kind, label.slot with
  | .ifThen, .blockFirst owner =>
    if ((← get).labels.tail.head?.bind Label.last) = some owner then
      modifyInnermost fun _ => { kind := .elseArm, slot := .elseFirst owner }
    else
      throw (.fault .detachedIf)
  | _, _ => refuse .elseWithoutIf

/-- Closes the innermost scope, which must not be the body itself. -/
def endScope : Build Unit := do
  let label ← innermost
  require (label.kind ≠ .func)
    (.unexpectedEvent "end" "no open block, loop or if in the function body")
  popLabel

/-! ## Bodies -/

/-- Checks the announced number of bodies: one for each function that the module defines. -/
def checkBodyCount (count : UInt32) : Build Unit := do
  let declared ← expect (← get).module.funcs.definedCount
  require (declared = count.toNat) (.bodyCountMismatch declared count.toNat)

/-- Opens the body of a function: of the next one among those that the module defines. -/
def beginBody (index : UInt32) : Build Unit := do
  let b ← get
  require (b.labels = []) (.unclosedScope "start of function body" b.depth)
  let position ← funcPosition "function body" index
  require (b.module.funcs.imported ≤ position)
    (.unexpectedEvent "BeginFunctionBody" "imported functions have no body")
  require (position = b.module.funcs.imported + b.bodiesRead)
    (.unexpectedEvent "BeginFunctionBody"
      "function bodies must arrive once each, in index order")
  modify fun b => { b with bodiesRead := b.bodiesRead + 1, currentFunc := some position }
  pushLabel .func .funcBody

/-- Adds locals to the function whose body is open. -/
def addLocals (count : UInt32) (type : ValueType) : Build Unit := do
  let func ← openFunc "local declaration"
  match ((← get).module.funcs.items[func]?).map (·.locals.size) with
  | some size =>
    require (size + count.toNat ≤ maxFunctionLocals) .appendFailed
    modifyFunc func fun f => { f with locals := f.locals ++ Array.replicate count.toNat type }
  | none => throw (.fault .missingFunction)

/-- Adds a plain instruction. An indirect call must name a type that exists, and the alignment of a
memory access must be one. -/
def addInstr (i : Instr) : Build Unit := do
  match i with
  | .callIndirect sigIndex => discard <| signature sigIndex
  | .load _ arg | .store _ arg =>
    match arg.alignment with
    | .ok _ => pure ()
    | .error cause => refuse cause
  | _ => pure ()
  discard <| append (.instr i)

/-- Closes the body that is open. -/
def endBody (index : UInt32) : Build Unit := do
  let b ← get
  require (b.currentFunc = some index.toNat)
    (.unexpectedEvent "EndFunctionBody" "index does not match the open function body")
  let label ← innermost
  require (label.kind = .func) (.unclosedScope "end of function body" (b.depth - 1))
  popLabel
  modify fun b => { b with currentFunc := none }

/-- Accepts the end of the module if no scope is open. -/
def endModule : Build Unit := do
  let b ← get
  require (b.labels = []) (.unclosedScope "end of module" b.depth)

end WasmDecode.Build
