import WasmDecode.Instr
import WasmDecode.Wire.Types
import WasmDecode.Wire.Section

/-!
# Decode events

A decoder that walks over a module tells what it finds as a flat sequence of events. Sections,
definitions, bodies and scopes are told by a begin and an end; nothing but their order says what
lies inside what.

* `Event`: everything that a decoder can tell.
* `Event.isDebugName`: the events of the names section, which a reader may ask not to hear.
-/

namespace WasmDecode

/-- What an import or a definition says about an item of one of the four external kinds. -/
inductive ItemDecl where
  /-- A function with the type at index `sigIndex`. -/
  | func (sigIndex : UInt32)
  | table (elemType : ValueType) (limits : Limits)
  | memory (limits : Limits)
  | global (type : ValueType) (isMutable : Bool)
  deriving DecidableEq, Repr, Inhabited

/-- The kind of a declared item. -/
def ItemDecl.kind : ItemDecl → ExternalKind
  | func _ => .func
  | table .. => .table
  | memory _ => .memory
  | global .. => .global

/-- The lists of a module whose length is announced before their items. -/
inductive CountedKind where
  | types
  | imports
  | functions
  | tables
  | memories
  | globals
  | exports
  | elemSegments
  | dataSegments
  deriving DecidableEq, Repr, Inhabited

namespace CountedKind

/-- All lists with an announced length. -/
def all : List CountedKind :=
  [types, imports, functions, tables, memories, globals, exports, elemSegments, dataSegments]

/-- The word for a list in the name of an event. -/
def word : CountedKind → String
  | types => "Type"
  | imports => "Import"
  | functions => "Function"
  | tables => "Table"
  | memories => "Memory"
  | globals => "Global"
  | exports => "Export"
  | elemSegments => "ElemSegment"
  | dataSegments => "DataSegment"

end CountedKind

/-- The definitions that hold an init expression: the value of a global, and the place in a table
or memory where a segment goes. -/
inductive InitSite where
  | global
  | elemSegment
  | dataSegment
  deriving DecidableEq, Repr, Inhabited

namespace InitSite

/-- All places of init expressions. -/
def all : List InitSite := [global, elemSegment, dataSegment]

/-- The word for the definition in the name of an event. -/
def word : InitSite → String
  | global => "Global"
  | elemSegment => "ElemSegment"
  | dataSegment => "DataSegment"

/-- The word for the definition in running text. -/
def what : InitSite → String
  | global => "global"
  | elemSegment => "elem segment"
  | dataSegment => "data segment"

end InitSite

/-- The value of an init expression: a constant or that of another global. -/
inductive InitValue where
  | const (value : Const)
  | getGlobal (index : UInt32)
  deriving DecidableEq, Repr, Inhabited

namespace InitValue

/-- The instruction that computes the value. -/
def instr : InitValue → Instr
  | const value => .const value
  | getGlobal index => .getGlobal index

/-- The opcode of that instruction. -/
def opcode : InitValue → Opcode
  | const value => value.opcode
  | getGlobal _ => .getGlobal

end InitValue

/-- The operands of an instruction as they are encoded, before they are given a meaning. -/
inductive Immediates where
  | bare
  | u32 (value : UInt32)
  | u32u32 (first second : UInt32)
  | u64 (value : UInt64)
  | f32 (bits : UInt32)
  | f64 (bits : UInt64)
  | blockSig (sig : List ValueType)
  deriving DecidableEq, Repr, Inhabited

/-- What a decoder tells from within the names section. -/
inductive NameEvent where
  | subsection (kind : NameSubsection) (index nameType size : UInt32)
  /-- So many functions are named. -/
  | functionCount (count : UInt32)
  | function (funcIndex : UInt32) (name : String)
  /-- So many functions have named locals. -/
  | localFunctionCount (count : UInt32)
  /-- So many locals of a function are named. -/
  | localCount (funcIndex count : UInt32)
  | localName (funcIndex localIndex : UInt32) (name : String)
  deriving DecidableEq, Repr, Inhabited

/-- Bytes are compared in one way, whatever else is imported. -/
instance (priority := high) decEqBytes : DecidableEq ByteArray := ByteArray.instDecidableEq

/-- What a decoder tells while it walks over a module. -/
inductive Event where
  /-- The input is malformed; the scanner says how. -/
  | malformed (message : String)
  | beginModule (version : UInt32)
  | endModule
  /-- The header of a section of any kind. -/
  | sectionHeader (id : SectionId) (size : UInt32)
  | beginCustom (size : UInt32) (name : String)
  | endCustom
  | beginSection (kind : SectionKind) (size : UInt32)
  | endSection (kind : SectionKind)
  /-- The length of a list that follows. -/
  | itemCount (kind : CountedKind) (count : UInt32)
  | funcType (index : UInt32) (params results : List ValueType)
  /-- An import, before it is known what it imports. -/
  | importEntry (index : UInt32) (moduleName fieldName : String)
  /-- What an import imports: an item, which gets the index `itemIndex` of its kind. -/
  | importItem (importIndex : UInt32) (moduleName fieldName : String) (itemIndex : UInt32)
      (item : ItemDecl)
  /-- A definition. That of a global goes on until its `endGlobal`. -/
  | define (index : UInt32) (item : ItemDecl)
  | endGlobal (index : UInt32)
  | exportEntry (index : UInt32) (kind : ExternalKind) (itemIndex : UInt32) (name : String)
  | startFunction (funcIndex : UInt32)
  /-- The number of function bodies that follow. -/
  | bodyCount (count : UInt32)
  | beginBody (index : UInt32)
  /-- The number of local declarations that follow. -/
  | localDeclCount (count : UInt32)
  /-- So many locals of one type. -/
  | localDecl (declIndex count : UInt32) (type : ValueType)
  /-- An opcode has been read. -/
  | opcode (op : Opcode)
  /-- The operands of an opcode have been read. -/
  | immediates (value : Immediates)
  | instr (i : Instr)
  | beginScope (kind : ScopeKind) (sig : List ValueType)
  | elseArm
  | endScope
  /-- The `end` that closes a body. -/
  | endFunc
  | endBody (index : UInt32)
  | beginElemSegment (index tableIndex : UInt32)
  /-- The number of function indices that follow. -/
  | elemCount (index count : UInt32)
  | elem (index funcIndex : UInt32)
  | endElemSegment (index : UInt32)
  | beginDataSegment (index memoryIndex : UInt32)
  | segmentData (index : UInt32) (bytes : ByteArray)
  | endDataSegment (index : UInt32)
  | beginInit (site : InitSite) (index : UInt32)
  | initValue (index : UInt32) (value : InitValue)
  | endInit (site : InitSite) (index : UInt32)
  | names (n : NameEvent)
  | relocCount (count : UInt32) (id : SectionId) (sectionName : String)
  | reloc (type : RelocType) (offset index : UInt32) (addend : Int32)
  deriving DecidableEq, Inhabited

/-- Whether an event belongs to the names section. -/
def Event.isDebugName : Event → Bool
  | .beginSection .names _ | .endSection .names | .names _ => true
  | _ => false

end WasmDecode
