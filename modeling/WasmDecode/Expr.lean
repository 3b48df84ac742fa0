import WasmDecode.Instr

/-!
# Instruction nodes

A function body is a tree: a scope instruction owns a list of instructions. The nodes of a body
live in one array, its arena, and refer to each other by position: a scope to the first instruction
of its list, every instruction to the next one of its own list.

While a body is read, one label stands for each scope that is open, the innermost on top.

* `Expr`: an instruction with the heads of the lists it owns.
* `Arena.alloc`: adds a node that is not linked yet.
* `Arena.list`: the instructions of the list that starts at a given node.
* `Label`: an open scope, with the place where its next instruction has to be linked.
-/

namespace WasmDecode

/-- The position of a node in its arena. -/
abbrev ExprId := Nat

/-- An instruction. A scope knows the first instruction of the list it owns, if the list is not
empty; an `if` owns two lists, the second behind its `else`. -/
inductive Expr where
  | instr (i : Instr)
  | block (sig : List ValueType) (first : Option ExprId)
  | loop (sig : List ValueType) (first : Option ExprId)
  | ifThen (sig : List ValueType) (first elseFirst : Option ExprId)
  deriving DecidableEq, Repr, Inhabited

namespace Expr

/-- The scope instruction of a kind, with nothing in it. -/
def scope (kind : ScopeKind) (sig : List ValueType) : Expr :=
  match kind with
  | .block => .block sig none
  | .loop => .loop sig none
  | .ifThen => .ifThen sig none none

/-- Whether an instruction opens a scope. -/
def isStructured : Expr → Bool
  | instr _ => false
  | block .. | loop .. | ifThen .. => true

/-- Whether an instruction is an `if`. -/
def isIf : Expr → Bool
  | ifThen .. => true
  | _ => false

/-- Whether an instruction may stand in an init expression. -/
def isConstant : Expr → Bool
  | instr i => i.isConstant
  | _ => false

/-- The first instruction of the list that a scope opens with, if there is one. -/
def first? : Expr → Option ExprId
  | instr _ => none
  | block _ first | loop _ first | ifThen _ first _ => first

/-- The first instruction behind the `else` of an `if`, if there is one. -/
def elseFirst? : Expr → Option ExprId
  | ifThen _ _ elseFirst => elseFirst
  | _ => none

/-- Makes `id` the first instruction of the list that a scope opens with. -/
def setFirst (id : ExprId) : Expr → Expr
  | block sig _ => block sig (some id)
  | loop sig _ => loop sig (some id)
  | ifThen sig _ elseFirst => ifThen sig (some id) elseFirst
  | e => e

/-- Makes `id` the first instruction behind the `else` of an `if`. -/
def setElseFirst (id : ExprId) : Expr → Expr
  | ifThen sig first _ => ifThen sig first (some id)
  | e => e

end Expr

/-- An instruction in an arena, with the next instruction of its list. -/
structure Node where
  expr : Expr
  next : Option ExprId := none
  deriving DecidableEq, Repr, Inhabited

/-- The instructions of one function body, in the order in which they were added. -/
structure Arena where
  nodes : Array Node := #[]
  deriving DecidableEq, Repr, Inhabited

namespace Arena

/-- How many nodes an arena can hold: positions have 32 bits. -/
def capacity : Nat := UInt32.size

/-- The number of nodes. -/
def size (a : Arena) : Nat := a.nodes.size

/-- The node at a position, if there is one. -/
def node? (a : Arena) (id : ExprId) : Option Node := a.nodes[id]?

/-- The instruction at a position, if there is one. -/
def expr? (a : Arena) (id : ExprId) : Option Expr := (a.node? id).map Node.expr

/-- Adds a node for `e`, at the position `a.size`. No other node refers to it yet. -/
def alloc (a : Arena) (e : Expr) : Arena := ⟨a.nodes.push { expr := e }⟩

/-- Makes `next` the instruction behind the one at `id`. -/
def setNext (a : Arena) (id next : ExprId) : Arena :=
  ⟨a.nodes.modify id fun n => { n with next := some next }⟩

/-- Makes `first` the first instruction in the scope at `id`. -/
def setFirst (a : Arena) (id first : ExprId) : Arena :=
  ⟨a.nodes.modify id fun n => { n with expr := n.expr.setFirst first }⟩

/-- Makes `first` the first instruction behind the `else` of the `if` at `id`. -/
def setElseFirst (a : Arena) (id first : ExprId) : Arena :=
  ⟨a.nodes.modify id fun n => { n with expr := n.expr.setElseFirst first }⟩

/-- The first `n` instructions of the list that starts at `first`. -/
def take (a : Arena) : Nat → Option ExprId → List ExprId
  | 0, _ | _, none => []
  | n + 1, some id =>
    match a.node? id with
    | some node => id :: a.take n node.next
    | none => []

/-- The instructions of the list that starts at `first`. A list without a cycle is no longer than
the arena. -/
def list (a : Arena) (first : Option ExprId) : List ExprId := a.take a.size first

end Arena

/-! ## Labels -/

/-- What opened the scope of a label. -/
inductive LabelKind where
  /-- The body itself. -/
  | func
  | block
  | loop
  | ifThen
  | elseArm
  deriving DecidableEq, Repr, Inhabited

namespace LabelKind

/-- The word for a kind of label in running text. -/
def word : LabelKind → String
  | func => "Func"
  | block => "Block"
  | loop => "Loop"
  | ifThen => "If"
  | elseArm => "Else"

/-- The kind of label that a scope instruction opens. -/
def ofScope : ScopeKind → LabelKind
  | .block => .block
  | .loop => .loop
  | .ifThen => .ifThen

end LabelKind

/-- Where the head of a scope's list of instructions is stored. -/
inductive Slot where
  /-- In the function. -/
  | funcBody
  /-- In the scope instruction `owner`. -/
  | blockFirst (owner : ExprId)
  /-- In the `if` instruction `owner`, for the list behind its `else`. -/
  | elseFirst (owner : ExprId)
  deriving DecidableEq, Repr, Inhabited

/-- An open scope. -/
structure Label where
  kind : LabelKind
  slot : Slot
  /-- The last instruction of the scope so far, if there is one. -/
  last : Option ExprId := none
  deriving DecidableEq, Repr, Inhabited

end WasmDecode
