/-!
# Types and limits

What a WebAssembly module writes down about values, tables and memories, and the kinds of items that
cross its border. Types and kinds have a one-byte code and a text name.

* `ValueType.code`/`ValueType.ofCode?`: the byte of a value type, and back.
* `ValueType.name`/`ValueType.ofName?`: the text name of a value type, and back.
* `Limits`: the size of a table (in elements) or of a memory (in pages).
* `ExternalKind`: functions, tables, memories and globals, which can be imported and exported. Each
  kind has an index space of its own.
-/

namespace WasmDecode

/-! ## Value types -/

/-- A value type, function type marker or block type marker. -/
inductive ValueType where
  | i32
  | i64
  | f32
  | f64
  /-- A reference to any function, the element type of tables. -/
  | anyfunc
  /-- The marker that opens a function type. -/
  | func
  /-- The marker of a block without result. -/
  | void
  deriving DecidableEq, Repr, Inhabited

namespace ValueType

/-- All value types, in the order of their codes from the highest down. -/
def all : List ValueType := [i32, i64, f32, f64, anyfunc, func, void]

/-- The byte that stands for a type: codes count down from `0x7F`. -/
def code : ValueType → UInt8
  | i32 => 0x7F
  | i64 => 0x7E
  | f32 => 0x7D
  | f64 => 0x7C
  | anyfunc => 0x70
  | func => 0x60
  | void => 0x40

/-- The type with a given byte, if there is one. -/
def ofCode? (byte : UInt8) : Option ValueType := all.find? (·.code == byte)

/-- The text name. -/
def name : ValueType → String
  | i32 => "i32"
  | i64 => "i64"
  | f32 => "f32"
  | f64 => "f64"
  | anyfunc => "anyfunc"
  | func => "func"
  | void => "void"

/-- The type with a given text name, if there is one. -/
def ofName? (s : String) : Option ValueType := all.find? (·.name == s)

instance : ToString ValueType := ⟨name⟩

/-- Reading a byte finds exactly the type that is written with it. -/
theorem ofCode?_code (t : ValueType) : ofCode? t.code = some t := by cases t <;> rfl

/-- The names of a list of types, in brackets. -/
def listText (types : List ValueType) : String :=
  "[" ++ ", ".intercalate (types.map name) ++ "]"

end ValueType

/-! ## Limits -/

/-- An initial size and, if one is declared, the size beyond which growth stops. -/
structure Limits where
  initial : UInt64
  max : Option UInt64 := none
  deriving DecidableEq, Repr, Inhabited

/-- The text of limits; a bound that is not declared is left out. -/
def Limits.text (l : Limits) : String :=
  match l.max with
  | some max => s!"initial: {l.initial}, max: {max}"
  | none => s!"initial: {l.initial}"

instance : ToString Limits := ⟨Limits.text⟩

/-! ## Kinds of items -/

/-- The kind of an imported or exported item. -/
inductive ExternalKind where
  | func
  | table
  | memory
  | global
  deriving DecidableEq, Repr, Inhabited

namespace ExternalKind

/-- All kinds, in the order of their codes. -/
def all : List ExternalKind := [func, table, memory, global]

/-- The byte that stands for a kind. -/
def code : ExternalKind → UInt8
  | func => 0
  | table => 1
  | memory => 2
  | global => 3

/-- The kind with a given byte, if there is one. -/
def ofCode? (byte : UInt8) : Option ExternalKind := all.find? (·.code == byte)

/-- The text name. -/
def name : ExternalKind → String
  | func => "func"
  | table => "table"
  | memory => "memory"
  | global => "global"

/-- The kind with a given text name, if there is one. -/
def ofName? (s : String) : Option ExternalKind := all.find? (·.name == s)

instance : ToString ExternalKind := ⟨name⟩

/-- Reading a byte finds exactly the kind that is written with it. -/
theorem ofCode?_code (k : ExternalKind) : ofCode? k.code = some k := by cases k <;> rfl

end ExternalKind

end WasmDecode
