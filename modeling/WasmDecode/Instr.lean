import WasmDecode.Opcode
import WasmDecode.Wire.Types
import WasmDecode.Error

/-!
# Plain instructions

The instructions that open no scope, with their operands. The scopes are `ScopeKind`s: they nest
other instructions, which a list of instructions alone does not show.

* `Const`: a numeric constant, as its bits.
* `MemArg.alignment`: the alignment of a memory access in bytes.
* `Instr`: a plain instruction.
-/

namespace WasmDecode

/-- A numeric constant of one of the four number types. Floats are given by their bits. -/
inductive Const where
  | i32 (bits : UInt32)
  | i64 (bits : UInt64)
  | f32 (bits : UInt32)
  | f64 (bits : UInt64)
  deriving DecidableEq, Repr, Inhabited

namespace Const

/-- The type of a constant. -/
def type : Const → ValueType
  | i32 _ => .i32
  | i64 _ => .i64
  | f32 _ => .f32
  | f64 _ => .f64

/-- The bits of a constant, as a number. -/
def bits : Const → Nat
  | i32 bits | f32 bits => bits.toNat
  | i64 bits | f64 bits => bits.toNat

/-- The opcode that pushes a constant. -/
def opcode : Const → Opcode
  | i32 _ => .i32Const
  | i64 _ => .i64Const
  | f32 _ => .f32Const
  | f64 _ => .f64Const

end Const

/-- The operands of a memory access: the binary logarithm of its alignment, and its offset. -/
structure MemArg where
  alignLog2 : UInt32
  offset : UInt32
  deriving DecidableEq, Repr, Inhabited

/-- The alignment with a given binary logarithm, which must be less than 32 for the alignment to
fit into 32 bits. -/
def alignment (alignLog2 : UInt32) : Except Cause UInt32 :=
  if alignLog2 < 32 then .ok (1 <<< alignLog2) else .error (.alignmentOverflow alignLog2.toNat)

/-- The alignment of a memory access, in bytes. -/
def MemArg.alignment (arg : MemArg) : Except Cause UInt32 := WasmDecode.alignment arg.alignLog2

/-- An instruction that opens no scope. -/
inductive Instr where
  | binary (op : Opcode)
  | unary (op : Opcode)
  | compare (op : Opcode)
  | convert (op : Opcode)
  | br (depth : UInt32)
  | brIf (depth : UInt32)
  | brTable (targets : List UInt32) (fallback : UInt32)
  | call (funcIndex : UInt32)
  | callIndirect (sigIndex : UInt32)
  | const (value : Const)
  | load (op : Opcode) (arg : MemArg)
  | store (op : Opcode) (arg : MemArg)
  | getGlobal (index : UInt32)
  | setGlobal (index : UInt32)
  | getLocal (index : UInt32)
  | setLocal (index : UInt32)
  | teeLocal (index : UInt32)
  | currentMemory
  | growMemory
  | drop
  | nop
  | ret
  | select
  | unreachable
  deriving DecidableEq, Repr, Inhabited

/-- Whether an instruction may stand in an init expression: constants and `get_global` may. -/
def Instr.isConstant : Instr → Bool
  | .const _ | .getGlobal _ => true
  | _ => false

/-- The instructions that open a scope. -/
inductive ScopeKind where
  | block
  | loop
  | ifThen
  deriving DecidableEq, Repr, Inhabited

end WasmDecode
