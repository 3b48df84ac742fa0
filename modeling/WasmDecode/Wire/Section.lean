/-!
# Sections and relocations

A module is a sequence of sections. `SectionId` holds the identifiers that section headers carry.
`SectionKind` holds the sections whose content a decoder understands and brackets with a begin and
an end: every identified section but the custom one, and the two custom sections with a meaning of
their own, names and relocations. `NameSubsection` tells the two parts of the names section apart,
and `RelocType` holds the ways in which a linker patches a place of an object file.
-/

namespace WasmDecode

/-- The identifier in a section header. -/
inductive SectionId where
  | custom
  | types
  | imports
  | functions
  | tables
  | memories
  | globals
  | exports
  | start
  | elements
  | code
  | data
  deriving DecidableEq, Repr, Inhabited

namespace SectionId

/-- All identifiers, in the order of their numbers. -/
def all : List SectionId :=
  [custom, types, imports, functions, tables, memories, globals, exports, start, elements, code,
    data]

/-- The byte that stands for an identifier. -/
def number : SectionId → UInt8
  | custom => 0
  | types => 1
  | imports => 2
  | functions => 3
  | tables => 4
  | memories => 5
  | globals => 6
  | exports => 7
  | start => 8
  | elements => 9
  | code => 10
  | data => 11

/-- The identifier with a given byte, if there is one. -/
def ofNumber? (byte : UInt8) : Option SectionId := all.find? (·.number == byte)

/-- The text name. -/
def name : SectionId → String
  | custom => "CUSTOM"
  | types => "TYPE"
  | imports => "IMPORT"
  | functions => "FUNCTION"
  | tables => "TABLE"
  | memories => "MEMORY"
  | globals => "GLOBAL"
  | exports => "EXPORT"
  | start => "START"
  | elements => "ELEM"
  | code => "CODE"
  | data => "DATA"

/-- The identifier with a given text name, if there is one. -/
def ofName? (s : String) : Option SectionId := all.find? (·.name == s)

instance : ToString SectionId := ⟨name⟩

/-- Reading a byte finds exactly the identifier that is written with it. -/
theorem ofNumber?_number (s : SectionId) : ofNumber? s.number = some s := by cases s <;> rfl

end SectionId

/-- A section whose content is decoded. -/
inductive SectionKind where
  | types
  | imports
  | functions
  | tables
  | memories
  | globals
  | exports
  | start
  | code
  | elements
  | data
  | names
  | relocations
  deriving DecidableEq, Repr, Inhabited

namespace SectionKind

/-- All decoded sections. -/
def all : List SectionKind :=
  [types, imports, functions, tables, memories, globals, exports, start, code, elements, data,
    names, relocations]

/-- The word for a section in the name of an event. -/
def word : SectionKind → String
  | types => "Type"
  | imports => "Import"
  | functions => "Function"
  | tables => "Table"
  | memories => "Memory"
  | globals => "Global"
  | exports => "Export"
  | start => "Start"
  | code => "Code"
  | elements => "Elem"
  | data => "Data"
  | names => "Names"
  | relocations => "Reloc"

end SectionKind

/-- The two parts of the names section. -/
inductive NameSubsection where
  | functions
  | locals
  deriving DecidableEq, Repr, Inhabited

namespace NameSubsection

/-- The number of a subsection. -/
def number : NameSubsection → UInt32
  | functions => 1
  | locals => 2

/-- The subsection with a given number, if there is one. -/
def ofNumber? (n : UInt32) : Option NameSubsection :=
  [functions, locals].find? (·.number == n)

/-- The word for a subsection in the name of an event. -/
def word : NameSubsection → String
  | functions => "Function"
  | locals => "Local"

/-- Reading a number finds exactly the subsection that is written with it. -/
theorem ofNumber?_number (s : NameSubsection) : ofNumber? s.number = some s := by cases s <;> rfl

end NameSubsection

/-! ## Relocations -/

/-- What is written at a relocated place, and in which encoding. -/
inductive RelocType where
  | funcIndexLeb
  | tableIndexSleb
  | tableIndexI32
  | globalAddrLeb
  | globalAddrSleb
  | globalAddrI32
  | typeIndexLeb
  | globalIndexLeb
  deriving DecidableEq, Repr, Inhabited

namespace RelocType

/-- All relocation types, in the order of their codes. -/
def all : List RelocType :=
  [funcIndexLeb, tableIndexSleb, tableIndexI32, globalAddrLeb, globalAddrSleb, globalAddrI32,
    typeIndexLeb, globalIndexLeb]

/-- The byte that stands for a relocation type. -/
def code : RelocType → UInt8
  | funcIndexLeb => 0
  | tableIndexSleb => 1
  | tableIndexI32 => 2
  | globalAddrLeb => 3
  | globalAddrSleb => 4
  | globalAddrI32 => 5
  | typeIndexLeb => 6
  | globalIndexLeb => 7

/-- The relocation type with a given byte, if there is one. -/
def ofCode? (byte : UInt8) : Option RelocType := all.find? (·.code == byte)

/-- The text name. -/
def name : RelocType → String
  | funcIndexLeb => "R_FUNC_INDEX_LEB"
  | tableIndexSleb => "R_TABLE_INDEX_SLEB"
  | tableIndexI32 => "R_TABLE_INDEX_I32"
  | globalAddrLeb => "R_GLOBAL_ADDR_LEB"
  | globalAddrSleb => "R_GLOBAL_ADDR_SLEB"
  | globalAddrI32 => "R_GLOBAL_ADDR_I32"
  | typeIndexLeb => "R_TYPE_INDEX_LEB"
  | globalIndexLeb => "R_GLOBAL_INDEX_LEB"

/-- The relocation type with a given text name, if there is one. -/
def ofName? (s : String) : Option RelocType := all.find? (·.name == s)

instance : ToString RelocType := ⟨name⟩

/-- Reading a byte finds exactly the relocation type that is written with it. -/
theorem ofCode?_code (r : RelocType) : ofCode? r.code = some r := by cases r <;> rfl

end RelocType

end WasmDecode
