import Std.Data.TreeMap
import WasmDecode.Error
import WasmDecode.Event
import WasmDecode.Expr

/-!
# Modules

A decoded module: one collection for each kind of definition, and the order in which the
definitions came.

* `IndexSpace`: the items of one external kind; the imported ones come first.
* `Func`: a function with its body; `Func.link` extends a list of the body.
* `Module`: the module; `Module.counts` tells imported and defined items apart.
-/

namespace WasmDecode

/-- The version of the binary format that modules are expected to have. -/
def formatVersion : UInt32 := 1

/-- Which item each name is bound to. -/
abbrev NameMap := Std.TreeMap String UInt32

/-! ## Index spaces -/

/-- The items of one external kind, imported ones first. -/
structure IndexSpace (α : Type) where
  items : Array α := #[]
  /-- The number of imported items. -/
  imported : Nat := 0
  deriving Repr, Inhabited

namespace IndexSpace

variable {α : Type}

/-- The number of items. -/
def size (s : IndexSpace α) : Nat := s.items.size

/-- Adds an imported item. -/
def addImported (s : IndexSpace α) (a : α) : IndexSpace α := ⟨s.items.push a, s.imported + 1⟩

/-- Adds an item that the module defines itself. -/
def addDefined (s : IndexSpace α) (a : α) : IndexSpace α := { s with items := s.items.push a }

/-- Changes the item at position `i`. -/
def modify (s : IndexSpace α) (i : Nat) (f : α → α) : IndexSpace α :=
  { s with items := s.items.modify i f }

/-- The number of items that the module defines itself. -/
def definedCount (s : IndexSpace α) : Except Fault Nat :=
  if s.imported ≤ s.size then .ok (s.size - s.imported) else .error .importsExceedItems

/-- The items that the module defines itself. -/
def defined (s : IndexSpace α) : Except Fault (Array α) :=
  if s.imported ≤ s.size then .ok (s.items.drop s.imported) else .error .importsExceedItems

end IndexSpace

/-! ## Definitions -/

/-- The type of a function. -/
structure FuncType where
  params : List ValueType
  results : List ValueType
  deriving DecidableEq, Repr, Inhabited

/-- A function, imported or defined. -/
structure Func where
  typeIndex : UInt32
  type : FuncType
  /-- The types of the locals, parameters apart. -/
  locals : Array ValueType := #[]
  /-- The first instruction of the body, if there is one. -/
  first : Option ExprId := none
  arena : Arena := {}
  name : Option String := none
  /-- Names of parameters. -/
  paramNames : NameMap := ∅
  /-- Names of locals, which are counted from the first one behind the parameters. -/
  localNames : NameMap := ∅

namespace Func

/-- The number of parameters. -/
def numParams (f : Func) : Nat := f.type.params.length

/-- The number of parameters and locals together. -/
def numParamsAndLocals (f : Func) : Nat := f.numParams + f.locals.size

/-- The top-level instructions of the body. -/
def body (f : Func) : List ExprId := f.arena.list f.first

/-- Whether the place exists where the next instruction of the scope `label` has to be linked. -/
def canLink (f : Func) (label : Label) : Bool :=
  match label.last, label.slot with
  | some last, _ => last < f.arena.size
  | none, .funcBody => true
  | none, .blockFirst owner => (f.arena.expr? owner).any Expr.isStructured
  | none, .elseFirst owner => (f.arena.expr? owner).any Expr.isIf

/-- Links the instruction `id` as the next one of the scope `label`: behind the last one, or as
the head of the list if there is none. -/
def link (f : Func) (label : Label) (id : ExprId) : Func :=
  match label.last, label.slot with
  | some last, _ => { f with arena := f.arena.setNext last id }
  | none, .funcBody => { f with first := some id }
  | none, .blockFirst owner => { f with arena := f.arena.setFirst owner id }
  | none, .elseFirst owner => { f with arena := f.arena.setElseFirst owner id }

end Func

/-- The item that an import imports: its kind, and its position among the items of the kind. -/
structure ImportedItem where
  kind : ExternalKind
  index : Nat
  deriving DecidableEq, Repr, Inhabited

/-- An import. What it imports is told after the import itself. -/
structure Import where
  moduleName : String
  fieldName : String
  item : Option ImportedItem := none
  deriving DecidableEq, Repr, Inhabited

/-- A table. -/
structure Table where
  elemType : ValueType
  limits : Limits
  deriving DecidableEq, Repr, Inhabited

/-- A memory, its limits counted in pages. -/
structure Memory where
  limits : Limits
  deriving DecidableEq, Repr, Inhabited

/-- A global. An imported one has no init expression. -/
structure Global where
  type : ValueType
  isMutable : Bool
  init : Option Expr := none
  deriving DecidableEq, Repr, Inhabited

/-- An export. -/
structure Export where
  name : String
  kind : ExternalKind
  itemIndex : UInt32
  deriving DecidableEq, Repr, Inhabited

/-- Function indices that are copied into a table, from the place that `init` computes. -/
structure ElemSegment where
  tableIndex : UInt32
  init : Option Expr := none
  funcIndices : Array UInt32 := #[]
  deriving DecidableEq, Repr, Inhabited

/-- Bytes that are copied into a memory, from the place that `init` computes. -/
structure DataSegment where
  memoryIndex : UInt32
  init : Option Expr := none
  bytes : ByteArray := .empty
  deriving DecidableEq, Inhabited

/-! ## The module -/

/-- The kinds of entries in the record of definitions. -/
inductive FieldKind where
  | funcType
  | importEntry
  | item (kind : ExternalKind)
  | exportEntry
  | startFunction
  | elemSegment
  | dataSegment
  deriving DecidableEq, Repr, Inhabited

/-- An entry in the record of definitions: the kind, and the position of the new item in the
collection of its kind. The start function is given by its index. -/
structure Field where
  kind : FieldKind
  index : Nat
  deriving DecidableEq, Repr, Inhabited

/-- A decoded module. -/
structure Module where
  version : UInt32 := 0
  /-- The definitions in the order in which they were decoded. -/
  fields : Array Field := #[]
  types : Array FuncType := #[]
  imports : Array Import := #[]
  funcs : IndexSpace Func := {}
  tables : IndexSpace Table := {}
  memories : IndexSpace Memory := {}
  globals : IndexSpace Global := {}
  exports : Array Export := #[]
  elemSegments : Array ElemSegment := #[]
  dataSegments : Array DataSegment := #[]
  start : Option UInt32 := none
  /-- Which function each name is bound to. -/
  funcNames : NameMap := ∅

/-- How many definitions of each kind there are. -/
structure ModuleCounts where
  types : Nat
  imports : Nat
  funcImports : Nat
  tableImports : Nat
  memoryImports : Nat
  globalImports : Nat
  funcs : Nat
  tables : Nat
  memories : Nat
  globals : Nat
  exports : Nat
  elemSegments : Nat
  dataSegments : Nat
  deriving DecidableEq, Repr, Inhabited

namespace Module

/-- The number of items of a kind, imported and defined. -/
def itemCount (m : Module) : ExternalKind → Nat
  | .func => m.funcs.size
  | .table => m.tables.size
  | .memory => m.memories.size
  | .global => m.globals.size

/-- The number of imported items of a kind. -/
def importedCount (m : Module) : ExternalKind → Nat
  | .func => m.funcs.imported
  | .table => m.tables.imported
  | .memory => m.memories.imported
  | .global => m.globals.imported

/-- How many definitions of each kind there are; items of the four external kinds are counted
apart from the imported ones. -/
def counts (m : Module) : Except Fault ModuleCounts := do
  return {
    types := m.types.size
    imports := m.imports.size
    funcImports := m.funcs.imported
    tableImports := m.tables.imported
    memoryImports := m.memories.imported
    globalImports := m.globals.imported
    funcs := ← m.funcs.definedCount
    tables := ← m.tables.definedCount
    memories := ← m.memories.definedCount
    globals := ← m.globals.definedCount
    exports := m.exports.size
    elemSegments := m.elemSegments.size
    dataSegments := m.dataSegments.size }

/-- The functions that the module defines itself. -/
def definedFuncs (m : Module) : Except Fault (Array Func) := m.funcs.defined

/-- The position of the function that a name is bound to. -/
def funcIndexByName? (m : Module) (name : String) : Option Nat := do
  let index ← m.funcNames[name]?
  if index.toNat < m.funcs.size then some index.toNat else none

/-- The function that a name is bound to. -/
def funcByName? (m : Module) (name : String) : Option Func := do
  m.funcs.items[← m.funcIndexByName? name]?

end Module

end WasmDecode
