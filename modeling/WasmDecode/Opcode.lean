/-!
# The opcode table

The instructions of the first WebAssembly version, each with its numeric code and its text name.

* `Opcode.all`: the table, in code order.
* `Opcode.ofCode?_code`: looking up a code finds the one opcode that has it, so no two opcodes share
  a code.
-/

namespace WasmDecode

/-- An instruction opcode, in the order of the codes. -/
inductive Opcode where
  -- Control flow
  | unreachable | nop | block | loop | ifThen | elseArm | endScope | br | brIf | brTable | ret
  | call | callIndirect
  -- Parametric
  | drop | select
  -- Variables
  | getLocal | setLocal | teeLocal | getGlobal | setGlobal
  -- Loads
  | i32Load | i64Load | f32Load | f64Load | i32Load8S | i32Load8U | i32Load16S | i32Load16U
  | i64Load8S | i64Load8U | i64Load16S | i64Load16U | i64Load32S | i64Load32U
  -- Stores
  | i32Store | i64Store | f32Store | f64Store | i32Store8 | i32Store16 | i64Store8 | i64Store16
  | i64Store32
  -- Memory size
  | currentMemory | growMemory
  -- Constants
  | i32Const | i64Const | f32Const | f64Const
  -- Comparisons
  | i32Eqz | i32Eq | i32Ne | i32LtS | i32LtU | i32GtS | i32GtU | i32LeS | i32LeU | i32GeS | i32GeU
  | i64Eqz | i64Eq | i64Ne | i64LtS | i64LtU | i64GtS | i64GtU | i64LeS | i64LeU | i64GeS | i64GeU
  | f32Eq | f32Ne | f32Lt | f32Gt | f32Le | f32Ge | f64Eq | f64Ne | f64Lt | f64Gt | f64Le | f64Ge
  -- Arithmetic
  | i32Clz | i32Ctz | i32Popcnt | i32Add | i32Sub | i32Mul | i32DivS | i32DivU | i32RemS | i32RemU
  | i32And | i32Or | i32Xor | i32Shl | i32ShrS | i32ShrU | i32Rotl | i32Rotr | i64Clz | i64Ctz
  | i64Popcnt | i64Add | i64Sub | i64Mul | i64DivS | i64DivU | i64RemS | i64RemU | i64And | i64Or
  | i64Xor | i64Shl | i64ShrS | i64ShrU | i64Rotl | i64Rotr | f32Abs | f32Neg | f32Ceil | f32Floor
  | f32Trunc | f32Nearest | f32Sqrt | f32Add | f32Sub | f32Mul | f32Div | f32Min | f32Max
  | f32Copysign | f64Abs | f64Neg | f64Ceil | f64Floor | f64Trunc | f64Nearest | f64Sqrt | f64Add
  | f64Sub | f64Mul | f64Div | f64Min | f64Max | f64Copysign
  -- Conversions
  | i32WrapI64 | i32TruncSF32 | i32TruncUF32 | i32TruncSF64 | i32TruncUF64 | i64ExtendSI32
  | i64ExtendUI32 | i64TruncSF32 | i64TruncUF32 | i64TruncSF64 | i64TruncUF64 | f32ConvertSI32
  | f32ConvertUI32 | f32ConvertSI64 | f32ConvertUI64 | f32DemoteF64 | f64ConvertSI32
  | f64ConvertUI32 | f64ConvertSI64 | f64ConvertUI64 | f64PromoteF32 | i32ReinterpretF32
  | i64ReinterpretF64 | f32ReinterpretI32 | f64ReinterpretI64
  deriving DecidableEq, Repr, Inhabited

namespace Opcode

/-- Every opcode, in code order. -/
def all : List Opcode :=
  [unreachable, nop, block, loop, ifThen, elseArm, endScope, br, brIf, brTable, ret, call,
    callIndirect, drop, select, getLocal, setLocal, teeLocal, getGlobal, setGlobal, i32Load,
    i64Load, f32Load, f64Load, i32Load8S, i32Load8U, i32Load16S, i32Load16U, i64Load8S, i64Load8U,
    i64Load16S, i64Load16U, i64Load32S, i64Load32U, i32Store, i64Store, f32Store, f64Store,
    i32Store8, i32Store16, i64Store8, i64Store16, i64Store32, currentMemory, growMemory, i32Const,
    i64Const, f32Const, f64Const, i32Eqz, i32Eq, i32Ne, i32LtS, i32LtU, i32GtS, i32GtU, i32LeS,
    i32LeU, i32GeS, i32GeU, i64Eqz, i64Eq, i64Ne, i64LtS, i64LtU, i64GtS, i64GtU, i64LeS, i64LeU,
    i64GeS, i64GeU, f32Eq, f32Ne, f32Lt, f32Gt, f32Le, f32Ge, f64Eq, f64Ne, f64Lt, f64Gt, f64Le,
    f64Ge, i32Clz, i32Ctz, i32Popcnt, i32Add, i32Sub, i32Mul, i32DivS, i32DivU, i32RemS, i32RemU,
    i32And, i32Or, i32Xor, i32Shl, i32ShrS, i32ShrU, i32Rotl, i32Rotr, i64Clz, i64Ctz, i64Popcnt,
    i64Add, i64Sub, i64Mul, i64DivS, i64DivU, i64RemS, i64RemU, i64And, i64Or, i64Xor, i64Shl,
    i64ShrS, i64ShrU, i64Rotl, i64Rotr, f32Abs, f32Neg, f32Ceil, f32Floor, f32Trunc, f32Nearest,
    f32Sqrt, f32Add, f32Sub, f32Mul, f32Div, f32Min, f32Max, f32Copysign, f64Abs, f64Neg, f64Ceil,
    f64Floor, f64Trunc, f64Nearest, f64Sqrt, f64Add, f64Sub, f64Mul, f64Div, f64Min, f64Max,
    f64Copysign, i32WrapI64, i32TruncSF32, i32TruncUF32, i32TruncSF64, i32TruncUF64, i64ExtendSI32,
    i64ExtendUI32, i64TruncSF32, i64TruncUF32, i64TruncSF64, i64TruncUF64, f32ConvertSI32,
    f32ConvertUI32, f32ConvertSI64, f32ConvertUI64, f32DemoteF64, f64ConvertSI32, f64ConvertUI32,
    f64ConvertSI64, f64ConvertUI64, f64PromoteF32, i32ReinterpretF32, i64ReinterpretF64,
    f32ReinterpretI32, f64ReinterpretI64]

/-- The numeric code. -/
def code : Opcode → Nat
  | unreachable => 0x00
  | nop => 0x01
  | block => 0x02
  | loop => 0x03
  | ifThen => 0x04
  | elseArm => 0x05
  | endScope => 0x0b
  | br => 0x0c
  | brIf => 0x0d
  | brTable => 0x0e
  | ret => 0x0f
  | call => 0x10
  | callIndirect => 0x11
  | drop => 0x1a
  | select => 0x1b
  | getLocal => 0x20
  | setLocal => 0x21
  | teeLocal => 0x22
  | getGlobal => 0x23
  | setGlobal => 0x24
  | i32Load => 0x28
  | i64Load => 0x29
  | f32Load => 0x2a
  | f64Load => 0x2b
  | i32Load8S => 0x2c
  | i32Load8U => 0x2d
  | i32Load16S => 0x2e
  | i32Load16U => 0x2f
  | i64Load8S => 0x30
  | i64Load8U => 0x31
  | i64Load16S => 0x32
  | i64Load16U => 0x33
  | i64Load32S => 0x34
  | i64Load32U => 0x35
  | i32Store => 0x36
  | i64Store => 0x37
  | f32Store => 0x38
  | f64Store => 0x39
  | i32Store8 => 0x3a
  | i32Store16 => 0x3b
  | i64Store8 => 0x3c
  | i64Store16 => 0x3d
  | i64Store32 => 0x3e
  | currentMemory => 0x3f
  | growMemory => 0x40
  | i32Const => 0x41
  | i64Const => 0x42
  | f32Const => 0x43
  | f64Const => 0x44
  | i32Eqz => 0x45
  | i32Eq => 0x46
  | i32Ne => 0x47
  | i32LtS => 0x48
  | i32LtU => 0x49
  | i32GtS => 0x4a
  | i32GtU => 0x4b
  | i32LeS => 0x4c
  | i32LeU => 0x4d
  | i32GeS => 0x4e
  | i32GeU => 0x4f
  | i64Eqz => 0x50
  | i64Eq => 0x51
  | i64Ne => 0x52
  | i64LtS => 0x53
  | i64LtU => 0x54
  | i64GtS => 0x55
  | i64GtU => 0x56
  | i64LeS => 0x57
  | i64LeU => 0x58
  | i64GeS => 0x59
  | i64GeU => 0x5a
  | f32Eq => 0x5b
  | f32Ne => 0x5c
  | f32Lt => 0x5d
  | f32Gt => 0x5e
  | f32Le => 0x5f
  | f32Ge => 0x60
  | f64Eq => 0x61
  | f64Ne => 0x62
  | f64Lt => 0x63
  | f64Gt => 0x64
  | f64Le => 0x65
  | f64Ge => 0x66
  | i32Clz => 0x67
  | i32Ctz => 0x68
  | i32Popcnt => 0x69
  | i32Add => 0x6a
  | i32Sub => 0x6b
  | i32Mul => 0x6c
  | i32DivS => 0x6d
  | i32DivU => 0x6e
  | i32RemS => 0x6f
  | i32RemU => 0x70
  | i32And => 0x71
  | i32Or => 0x72
  | i32Xor => 0x73
  | i32Shl => 0x74
  | i32ShrS => 0x75
  | i32ShrU => 0x76
  | i32Rotl => 0x77
  | i32Rotr => 0x78
  | i64Clz => 0x79
  | i64Ctz => 0x7a
  | i64Popcnt => 0x7b
  | i64Add => 0x7c
  | i64Sub => 0x7d
  | i64Mul => 0x7e
  | i64DivS => 0x7f
  | i64DivU => 0x80
  | i64RemS => 0x81
  | i64RemU => 0x82
  | i64And => 0x83
  | i64Or => 0x84
  | i64Xor => 0x85
  | i64Shl => 0x86
  | i64ShrS => 0x87
  | i64ShrU => 0x88
  | i64Rotl => 0x89
  | i64Rotr => 0x8a
  | f32Abs => 0x8b
  | f32Neg => 0x8c
  | f32Ceil => 0x8d
  | f32Floor => 0x8e
  | f32Trunc => 0x8f
  | f32Nearest => 0x90
  | f32Sqrt => 0x91
  | f32Add => 0x92
  | f32Sub => 0x93
  | f32Mul => 0x94
  | f32Div => 0x95
  | f32Min => 0x96
  | f32Max => 0x97
  | f32Copysign => 0x98
  | f64Abs => 0x99
  | f64Neg => 0x9a
  | f64Ceil => 0x9b
  | f64Floor => 0x9c
  | f64Trunc => 0x9d
  | f64Nearest => 0x9e
  | f64Sqrt => 0x9f
  | f64Add => 0xa0
  | f64Sub => 0xa1
  | f64Mul => 0xa2
  | f64Div => 0xa3
  | f64Min => 0xa4
  | f64Max => 0xa5
  | f64Copysign => 0xa6
  | i32WrapI64 => 0xa7
  | i32TruncSF32 => 0xa8
  | i32TruncUF32 => 0xa9
  | i32TruncSF64 => 0xaa
  | i32TruncUF64 => 0xab
  | i64ExtendSI32 => 0xac
  | i64ExtendUI32 => 0xad
  | i64TruncSF32 => 0xae
  | i64TruncUF32 => 0xaf
  | i64TruncSF64 => 0xb0
  | i64TruncUF64 => 0xb1
  | f32ConvertSI32 => 0xb2
  | f32ConvertUI32 => 0xb3
  | f32ConvertSI64 => 0xb4
  | f32ConvertUI64 => 0xb5
  | f32DemoteF64 => 0xb6
  | f64ConvertSI32 => 0xb7
  | f64ConvertUI32 => 0xb8
  | f64ConvertSI64 => 0xb9
  | f64ConvertUI64 => 0xba
  | f64PromoteF32 => 0xbb
  | i32ReinterpretF32 => 0xbc
  | i64ReinterpretF64 => 0xbd
  | f32ReinterpretI32 => 0xbe
  | f64ReinterpretI64 => 0xbf

/-- The text name. -/
def name : Opcode → String
  | unreachable => "unreachable"
  | nop => "nop"
  | block => "block"
  | loop => "loop"
  | ifThen => "if"
  | elseArm => "else"
  | endScope => "end"
  | br => "br"
  | brIf => "br_if"
  | brTable => "br_table"
  | ret => "return"
  | call => "call"
  | callIndirect => "call_indirect"
  | drop => "drop"
  | select => "select"
  | getLocal => "get_local"
  | setLocal => "set_local"
  | teeLocal => "tee_local"
  | getGlobal => "get_global"
  | setGlobal => "set_global"
  | i32Load => "i32.load"
  | i64Load => "i64.load"
  | f32Load => "f32.load"
  | f64Load => "f64.load"
  | i32Load8S => "i32.load8_s"
  | i32Load8U => "i32.load8_u"
  | i32Load16S => "i32.load16_s"
  | i32Load16U => "i32.load16_u"
  | i64Load8S => "i64.load8_s"
  | i64Load8U => "i64.load8_u"
  | i64Load16S => "i64.load16_s"
  | i64Load16U => "i64.load16_u"
  | i64Load32S => "i64.load32_s"
  | i64Load32U => "i64.load32_u"
  | i32Store => "i32.store"
  | i64Store => "i64.store"
  | f32Store => "f32.store"
  | f64Store => "f64.store"
  | i32Store8 => "i32.store8"
  | i32Store16 => "i32.store16"
  | i64Store8 => "i64.store8"
  | i64Store16 => "i64.store16"
  | i64Store32 => "i64.store32"
  | currentMemory => "current_memory"
  | growMemory => "grow_memory"
  | i32Const => "i32.const"
  | i64Const => "i64.const"
  | f32Const => "f32.const"
  | f64Const => "f64.const"
  | i32Eqz => "i32.eqz"
  | i32Eq => "i32.eq"
  | i32Ne => "i32.ne"
  | i32LtS => "i32.lt_s"
  | i32LtU => "i32.lt_u"
  | i32GtS => "i32.gt_s"
  | i32GtU => "i32.gt_u"
  | i32LeS => "i32.le_s"
  | i32LeU => "i32.le_u"
  | i32GeS => "i32.ge_s"
  | i32GeU => "i32.ge_u"
  | i64Eqz => "i64.eqz"
  | i64Eq => "i64.eq"
  | i64Ne => "i64.ne"
  | i64LtS => "i64.lt_s"
  | i64LtU => "i64.lt_u"
  | i64GtS => "i64.gt_s"
  | i64GtU => "i64.gt_u"
  | i64LeS => "i64.le_s"
  | i64LeU => "i64.le_u"
  | i64GeS => "i64.ge_s"
  | i64GeU => "i64.ge_u"
  | f32Eq => "f32.eq"
  | f32Ne => "f32.ne"
  | f32Lt => "f32.lt"
  | f32Gt => "f32.gt"
  | f32Le => "f32.le"
  | f32Ge => "f32.ge"
  | f64Eq => "f64.eq"
  | f64Ne => "f64.ne"
  | f64Lt => "f64.lt"
  | f64Gt => "f64.gt"
  | f64Le => "f64.le"
  | f64Ge => "f64.ge"
  | i32Clz => "i32.clz"
  | i32Ctz => "i32.ctz"
  | i32Popcnt => "i32.popcnt"
  | i32Add => "i32.add"
  | i32Sub => "i32.sub"
  | i32Mul => "i32.mul"
  | i32DivS => "i32.div_s"
  | i32DivU => "i32.div_u"
  | i32RemS => "i32.rem_s"
  | i32RemU => "i32.rem_u"
  | i32And => "i32.and"
  | i32Or => "i32.or"
  | i32Xor => "i32.xor"
  | i32Shl => "i32.shl"
  | i32ShrS => "i32.shr_s"
  | i32ShrU => "i32.shr_u"
  | i32Rotl => "i32.rotl"
  | i32Rotr => "i32.rotr"
  | i64Clz => "i64.clz"
  | i64Ctz => "i64.ctz"
  | i64Popcnt => "i64.popcnt"
  | i64Add => "i64.add"
  | i64Sub => "i64.sub"
  | i64Mul => "i64.mul"
  | i64DivS => "i64.div_s"
  | i64DivU => "i64.div_u"
  | i64RemS => "i64.rem_s"
  | i64RemU => "i64.rem_u"
  | i64And => "i64.and"
  | i64Or => "i64.or"
  | i64Xor => "i64.xor"
  | i64Shl => "i64.shl"
  | i64ShrS => "i64.shr_s"
  | i64ShrU => "i64.shr_u"
  | i64Rotl => "i64.rotl"
  | i64Rotr => "i64.rotr"
  | f32Abs => "f32.abs"
  | f32Neg => "f32.neg"
  | f32Ceil => "f32.ceil"
  | f32Floor => "f32.floor"
  | f32Trunc => "f32.trunc"
  | f32Nearest => "f32.nearest"
  | f32Sqrt => "f32.sqrt"
  | f32Add => "f32.add"
  | f32Sub => "f32.sub"
  | f32Mul => "f32.mul"
  | f32Div => "f32.div"
  | f32Min => "f32.min"
  | f32Max => "f32.max"
  | f32Copysign => "f32.copysign"
  | f64Abs => "f64.abs"
  | f64Neg => "f64.neg"
  | f64Ceil => "f64.ceil"
  | f64Floor => "f64.floor"
  | f64Trunc => "f64.trunc"
  | f64Nearest => "f64.nearest"
  | f64Sqrt => "f64.sqrt"
  | f64Add => "f64.add"
  | f64Sub => "f64.sub"
  | f64Mul => "f64.mul"
  | f64Div => "f64.div"
  | f64Min => "f64.min"
  | f64Max => "f64.max"
  | f64Copysign => "f64.copysign"
  | i32WrapI64 => "i32.wrap/i64"
  | i32TruncSF32 => "i32.trunc_s/f32"
  | i32TruncUF32 => "i32.trunc_u/f32"
  | i32TruncSF64 => "i32.trunc_s/f64"
  | i32TruncUF64 => "i32.trunc_u/f64"
  | i64ExtendSI32 => "i64.extend_s/i32"
  | i64ExtendUI32 => "i64.extend_u/i32"
  | i64TruncSF32 => "i64.trunc_s/f32"
  | i64TruncUF32 => "i64.trunc_u/f32"
  | i64TruncSF64 => "i64.trunc_s/f64"
  | i64TruncUF64 => "i64.trunc_u/f64"
  | f32ConvertSI32 => "f32.convert_s/i32"
  | f32ConvertUI32 => "f32.convert_u/i32"
  | f32ConvertSI64 => "f32.convert_s/i64"
  | f32ConvertUI64 => "f32.convert_u/i64"
  | f32DemoteF64 => "f32.demote/f64"
  | f64ConvertSI32 => "f64.convert_s/i32"
  | f64ConvertUI32 => "f64.convert_u/i32"
  | f64ConvertSI64 => "f64.convert_s/i64"
  | f64ConvertUI64 => "f64.convert_u/i64"
  | f64PromoteF32 => "f64.promote/f32"
  | i32ReinterpretF32 => "i32.reinterpret/f32"
  | i64ReinterpretF64 => "i64.reinterpret/f64"
  | f32ReinterpretI32 => "f32.reinterpret/i32"
  | f64ReinterpretI64 => "f64.reinterpret/i64"

/-- The opcode with a given code, if there is one. -/
def ofCode? (code : Nat) : Option Opcode := all.find? (·.code == code)

/-- The opcode with a given text name, if there is one. -/
def ofName? (name : String) : Option Opcode := all.find? (·.name == name)

instance : ToString Opcode := ⟨name⟩

/-- The table misses no opcode. -/
theorem mem_all (o : Opcode) : o ∈ all := by cases o <;> decide +kernel

/-- Looking up a code finds the opcode that has it. -/
theorem ofCode?_code (o : Opcode) : ofCode? o.code = some o :=
  (by decide +kernel : ∀ o ∈ all, ofCode? o.code = some o) o (mem_all o)

end Opcode

end WasmDecode
