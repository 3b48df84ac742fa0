import WasmDecode.Builder

/-!
# Definitions

What the sections of a module define, apart from function bodies.

* `Build.addFuncType`: types.
* `Build.addImport`, `Build.importItem`, `Build.define`: items of the four kinds, imported ones
  before the others.
* `Build.addExport`, `Build.setStart`: uses of items that exist.
* `Build.beginElemSegment`, `Build.beginDataSegment`: segments. What follows them goes to the latest
  one of its kind.
* `Build.beginInit`, `Build.endInit`, `Build.setInit`: the init expressions of globals and segments,
  each of which is a single value.
* `Build.readName`: the names that functions and their parameters and locals have, by which they can
  be found.

The record of definitions has an entry for each type, import, item, export, start function and
segment, in the order of their events.
-/

namespace WasmDecode.Build

/-- Puts an entry on the record of definitions. -/
def recordField (kind : FieldKind) (index : Nat) : Build Unit :=
  modifyModule fun m => { m with fields := m.fields.push ⟨kind, index⟩ }

/-- Adds a type. -/
def addFuncType (type : FuncType) : Build Unit := do
  recordField .funcType (← get).module.types.size
  modifyModule fun m => { m with types := m.types.push type }

/-- Adds an import, of which it is yet to be told what it imports. -/
def addImport (moduleName fieldName : String) : Build Unit := do
  recordField .importEntry (← get).module.imports.size
  modifyModule fun m => { m with imports := m.imports.push { moduleName, fieldName } }

/-- Tells what the latest import imports: the next item of a kind, of which nothing may be defined
yet. -/
def completeImport (importIndex : UInt32) (kind : ExternalKind) : Build Unit := do
  let m := (← get).module
  let expected := if m.imports.isEmpty then none else some (m.imports.size - 1)
  require (expected = some importIndex.toNat) (.importIndexMismatch importIndex.toNat expected)
  require (m.importedCount kind = m.itemCount kind)
    (.unexpectedEvent "import" "imports must precede definitions of the same kind")
  let latest ← item m.imports importIndex.toNat
  require latest.item.isNone (.unexpectedEvent "import" "import kind already set")
  let imported : ImportedItem := ⟨kind, m.itemCount kind⟩
  modifyModule fun m =>
    { m with
      imports := m.imports.modify importIndex.toNat fun i => { i with item := some imported } }

/-- Adds the item that the latest import imports. -/
def importItem (importIndex : UInt32) : ItemDecl → Build Unit
  | .func sigIndex => do
    let type ← signature sigIndex
    completeImport importIndex .func
    modifyModule fun m => { m with funcs := m.funcs.addImported { typeIndex := sigIndex, type } }
  | .table elemType limits => do
    completeImport importIndex .table
    modifyModule fun m => { m with tables := m.tables.addImported ⟨elemType, limits⟩ }
  | .memory limits => do
    completeImport importIndex .memory
    modifyModule fun m => { m with memories := m.memories.addImported ⟨limits⟩ }
  | .global type isMutable => do
    completeImport importIndex .global
    modifyModule fun m => { m with globals := m.globals.addImported { type, isMutable } }

/-- Adds an item that the module defines itself. -/
def define : ItemDecl → Build Unit
  | .func sigIndex => do
    let type ← signature sigIndex
    recordField (.item .func) (← get).module.funcs.size
    modifyModule fun m => { m with funcs := m.funcs.addDefined { typeIndex := sigIndex, type } }
  | .table elemType limits => do
    recordField (.item .table) (← get).module.tables.size
    modifyModule fun m => { m with tables := m.tables.addDefined ⟨elemType, limits⟩ }
  | .memory limits => do
    recordField (.item .memory) (← get).module.memories.size
    modifyModule fun m => { m with memories := m.memories.addDefined ⟨limits⟩ }
  | .global type isMutable => do
    recordField (.item .global) (← get).module.globals.size
    modifyModule fun m => { m with globals := m.globals.addDefined { type, isMutable } }

/-- Adds an export of an item that exists. -/
def addExport (kind : ExternalKind) (itemIndex : UInt32) (name : String) : Build Unit := do
  let count := (← get).module.itemCount kind
  require (itemIndex.toNat < count) (.indexOutOfRange kind.name itemIndex.toNat count)
  recordField .exportEntry (← get).module.exports.size
  modifyModule fun m => { m with exports := m.exports.push ⟨name, kind, itemIndex⟩ }

/-- Makes a function that exists the start function. A later start function replaces it. -/
def setStart (funcIndex : UInt32) : Build Unit := do
  let position ← funcPosition "start function" funcIndex
  recordField .startFunction position
  modifyModule fun m => { m with start := some funcIndex }

/-! ## Segments -/

/-- Begins an element segment. -/
def beginElemSegment (tableIndex : UInt32) : Build Unit := do
  recordField .elemSegment (← get).module.elemSegments.size
  modifyModule fun m => { m with elemSegments := m.elemSegments.push { tableIndex } }

/-- Makes room for an announced number of function indices in the latest element segment. -/
def reserveElems (index count : UInt32) : Build Unit := do
  let segments := (← get).module.elemSegments
  let position ← lastPosition "elem segment" index segments.size
  let _ ← item segments position
  reserve count

/-- Adds a function index to the latest element segment. -/
def addElem (index funcIndex : UInt32) : Build Unit := do
  let segments := (← get).module.elemSegments
  let position ← lastPosition "elem segment" index segments.size
  let _ ← item segments position
  modifyModule fun m =>
    { m with
      elemSegments := m.elemSegments.modify position fun s =>
        { s with funcIndices := s.funcIndices.push funcIndex } }

/-- Begins a data segment. -/
def beginDataSegment (memoryIndex : UInt32) : Build Unit := do
  recordField .dataSegment (← get).module.dataSegments.size
  modifyModule fun m => { m with dataSegments := m.dataSegments.push { memoryIndex } }

/-- Gives the latest data segment its bytes, in place of any that it has. -/
def setData (index : UInt32) (bytes : ByteArray) : Build Unit := do
  let segments := (← get).module.dataSegments
  let position ← lastPosition "data segment" index segments.size
  let _ ← item segments position
  modifyModule fun m =>
    { m with dataSegments := m.dataSegments.modify position fun s => { s with bytes } }

/-! ## Init expressions

At most one is open at a time, and it is that of the latest definition of its kind.
-/

/-- The number of definitions of the kind that holds init expressions at a site. -/
def initCount (m : Module) : InitSite → Nat
  | .global => m.globals.size
  | .elemSegment => m.elemSegments.size
  | .dataSegment => m.dataSegments.size

/-- Opens the init expression of the latest definition of a kind. An imported global has none. -/
def beginInit (site : InitSite) (index : UInt32) : Build Unit := do
  let b ← get
  let event := s!"Begin{site.word}InitExpr"
  let position ← lastPosition site.what index (initCount b.module site)
  require (site ≠ .global ∨ b.module.globals.imported ≤ position)
    (.unexpectedEvent event "imported globals have no init expression")
  require (b.initTarget = none) (.unexpectedEvent event "another init expression is open")
  modify fun b => { b with initTarget := some ⟨site, position⟩ }

/-- Closes the init expression that is open. -/
def endInit (site : InitSite) (index : UInt32) : Build Unit := do
  require ((← get).initTarget = some ⟨site, index.toNat⟩)
    (.initExprOutsideScope s!"End{site.word}InitExpr")
  modify fun b => { b with initTarget := none }

/-- The init expression of a definition, if there is such a definition; it is absent as long as it
has no value. -/
def initOf? (m : Module) (target : InitTarget) : Option (Option Expr) :=
  match target.site with
  | .global => m.globals.items[target.position]?.map Global.init
  | .elemSegment => m.elemSegments[target.position]?.map ElemSegment.init
  | .dataSegment => m.dataSegments[target.position]?.map DataSegment.init

/-- Gives a value to the init expression of a definition. -/
def putInit (target : InitTarget) (e : Expr) (m : Module) : Module :=
  match target.site with
  | .global =>
    { m with globals := m.globals.modify target.position fun g => { g with init := some e } }
  | .elemSegment =>
    { m with
      elemSegments := m.elemSegments.modify target.position fun s => { s with init := some e } }
  | .dataSegment =>
    { m with
      dataSegments := m.dataSegments.modify target.position fun s => { s with init := some e } }

/-- Gives the open init expression its value. It gets one only once. -/
def setInit (value : InitValue) : Build Unit := do
  let b ← get
  let event := value.opcode.name
  match b.initTarget.bind fun target => (initOf? b.module target).map (target, ·) with
  | none => refuse (.initExprOutsideScope event)
  | some (_, some _) => refuse (.unexpectedEvent event "init expression already has a value")
  | some (target, none) => modifyModule (putInit target (.instr value.instr))

/-! ## Names -/

/-- Names a function. The name is bound to it from now on; the name that it had, if it was bound to
this function, is bound to nothing. -/
def nameFunc (index : UInt32) (name : String) : Build Unit := do
  let position ← funcPosition "function" index
  let func ← item (← get).module.funcs.items position
  modifyModule fun m =>
    let names := match func.name with
      | some old => if m.funcNames[old]? = some index then m.funcNames.erase old else m.funcNames
      | none => m.funcNames
    { m with
      funcs := m.funcs.modify position fun f => { f with name := some name }
      funcNames := names.insert name index }

/-- The position among the locals of the one at an index, which also counts the parameters. -/
def localPosition (index : UInt32) (numParams : Nat) : Except Fault UInt32 :=
  if numParams.toUInt32 ≤ index then .ok (index - numParams.toUInt32)
  else .error .negativePosition

/-- Binds a name to a parameter or local of the function `func`, which is at a position. -/
def bindLocal (position : Nat) (func : Func) (localIndex : UInt32) (name : String) :
    Build Unit := do
  if localIndex.toNat < func.numParams then
    modifyFunc position fun f => { f with paramNames := f.paramNames.insert name localIndex }
  else
    let index ← expect (localPosition localIndex func.numParams)
    modifyFunc position fun f => { f with localNames := f.localNames.insert name index }

/-- Names a parameter or local of a function. -/
def nameLocal (funcIndex localIndex : UInt32) (name : String) : Build Unit := do
  let position ← funcPosition "function" funcIndex
  let func ← item (← get).module.funcs.items position
  let count := func.numParamsAndLocals
  require (localIndex.toNat < count) (.indexOutOfRange "local" localIndex.toNat count)
  bindLocal position func localIndex name

/-- Checks what the names section tells, and takes over the names. An empty name names nothing. -/
def readName : NameEvent → Build Unit
  | .functionCount count => do
    let items := (← get).module.funcs.size
    require (count.toNat ≤ items) (.nameCountExceedsItems "function" count.toNat items)
  | .function funcIndex name => if name.isEmpty then pure () else nameFunc funcIndex name
  | .localCount funcIndex count => do
    let position ← funcPosition "function" funcIndex
    let func ← item (← get).module.funcs.items position
    let items := func.numParamsAndLocals
    require (count.toNat ≤ items) (.nameCountExceedsItems "local" count.toNat items)
  | .localName funcIndex localIndex name =>
    if name.isEmpty then pure () else nameLocal funcIndex localIndex name
  | .subsection .. | .localFunctionCount _ => pure ()

end WasmDecode.Build
