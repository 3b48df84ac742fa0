import WasmDecode.Proofs.Forest
import WasmDecode.Expr

/-!
# Forests in arenas

How a forest lies in an arena: its nodes stand in the order of their events, a scope before what it
holds, and each knows the next node of its list.

* `Forest.layout`: the nodes of a forest.
* `Arena.Has`: an arena has given nodes from a given position on.
* `Arena.forest`: reads a forest back along the links; `forest_eq` says that it finds what was laid
  out.
* `Arena.preorder`: the nodes along the links, a scope before what it holds.
-/

namespace WasmDecode

/-- A scope instruction that holds the list which starts at `first`. -/
def Expr.holding (kind : ScopeKind) (sig : List ValueType) (first : Option Nat) : Expr :=
  match kind with
  | .block => .block sig first
  | .loop => .loop sig first
  | .ifThen => .ifThen sig first none

/-- Changes the item behind `pre`. -/
theorem modify_length {α : Type} (pre : List α) (a : α) (tail : List α) (f : α → α) :
    (pre ++ a :: tail).modify pre.length f = pre ++ f a :: tail := by
  induction pre with
  | nil => rfl
  | cons b pre ih => simp [ih]

namespace Forest

/-- The first node of a list that is laid out from `start` on, in front of the node `next`. -/
def head (start : Nat) (next : Option Nat) : Forest → Option Nat
  | nil => next
  | _ => some start

/-- The nodes of a list that is laid out from `start` on, in front of the node `next`. -/
def layout (start : Nat) (next : Option Nat) : Forest → List Node
  | nil => []
  | plain i rest => ⟨.instr i, rest.head (start + 1) next⟩ :: rest.layout (start + 1) next
  | scope kind sig body rest =>
    let behind := start + 1 + body.size
    ⟨.holding kind sig (body.head (start + 1) none), rest.head behind next⟩ ::
      (body.layout (start + 1) none ++ rest.layout behind next)
  | ifElse sig thenArm elseArm rest =>
    let middle := start + 1 + thenArm.size
    let behind := middle + elseArm.size
    ⟨.ifThen sig (thenArm.head (start + 1) none) (elseArm.head middle none),
        rest.head behind next⟩ ::
      (thenArm.layout (start + 1) none ++ elseArm.layout middle none ++ rest.layout behind next)

/-- The last node of a list that is laid out from `start` on. -/
def last? (start : Nat) : Forest → Option Nat
  | nil => none
  | plain _ rest => (rest.last? (start + 1)).or (some start)
  | scope _ _ body rest => (rest.last? (start + 1 + body.size)).or (some start)
  | ifElse _ thenArm elseArm rest =>
    (rest.last? (start + 1 + thenArm.size + elseArm.size)).or (some start)

variable {start : Nat} {next : Option Nat}

@[simp]
theorem head_nil : nil.head start next = next := rfl

@[simp]
theorem head_plain (i : Instr) (rest : Forest) :
    (plain i rest).head start next = some start := rfl

@[simp]
theorem head_scope (kind : ScopeKind) (sig : List ValueType) (body rest : Forest) :
    (scope kind sig body rest).head start next = some start := rfl

@[simp]
theorem head_ifElse (sig : List ValueType) (thenArm elseArm rest : Forest) :
    (ifElse sig thenArm elseArm rest).head start next = some start := rfl

@[simp]
theorem length_layout (f : Forest) : (f.layout start next).length = f.size := by
  induction f generalizing start next with
  | nil => rfl
  | plain i rest ih => simp [layout, size, ih]
  | scope kind sig body rest ihb ihr => simp [layout, size, ihb, ihr]
  | ifElse sig thenArm elseArm rest iht ihe ihr => simp [layout, size, iht, ihe, ihr, Nat.add_assoc]

theorem head_append (f g : Forest) :
    (f.append g).head start next = f.head start (g.head (start + f.size) next) := by
  cases f <;> simp [append, head, size]

/-- Behind a list, another one begins where the nodes of the first end. -/
theorem layout_append (f g : Forest) :
    (f.append g).layout start next =
      f.layout start (g.head (start + f.size) next) ++ g.layout (start + f.size) next := by
  induction f generalizing start with
  | nil => simp [append, layout, size]
  | plain i rest ih =>
    simp [append, layout, size, ih, head_append, Nat.add_assoc, Nat.add_comm 1]
  | scope kind sig body rest _ ih =>
    simp [append, layout, size, ih, head_append, Nat.add_assoc, Nat.add_comm 1]
  | ifElse sig thenArm elseArm rest _ _ ih =>
    simp [append, layout, size, ih, head_append, Nat.add_assoc, Nat.add_comm 1]

theorem last?_append (f g : Forest) :
    (f.append g).last? start = (g.last? (start + f.size)).or (f.last? start) := by
  induction f generalizing start with
  | nil => simp [append, last?, size]
  | plain _ rest ih | scope _ _ _ rest _ ih | ifElse _ _ _ rest _ _ ih =>
    simp only [append, last?, ih, Option.or_assoc, size]
    congr 2
    omega

theorem last?_eq_none {f : Forest} : f.last? start = none ↔ f = nil := by
  cases f <;> simp [last?]

theorem last?_lt {f : Forest} {l : Nat} (h : f.last? start = some l) :
    start ≤ l ∧ l < start + f.size := by
  induction f generalizing start with
  | nil => simp [last?] at h
  | plain _ rest ih | scope _ _ _ rest _ ih | ifElse _ _ _ rest _ _ ih =>
    simp only [last?, Option.or_eq_some_iff, Option.some.injEq] at h
    rcases h with h | ⟨-, h⟩
    · have := ih h
      simp only [size]
      omega
    · simp only [size]
      omega

theorem head_of_last? {f : Forest} {l : Nat} (h : f.last? start = some l) (k : Nat) :
    f.head k next = some k := by
  cases f with
  | nil => simp [last?] at h
  | _ => rfl

/-- Of the nodes of a list, `next` decides only the link of the last one. -/
private def OnlyLast (start l : Nat) (nodes : Option Nat → List Node) : Prop :=
  ∃ before e inner, start + before.length = l ∧ ∀ next, nodes next = before ++ ⟨e, next⟩ :: inner

/-- The last node of a list is its first one if nothing follows, and the last one of the rest
otherwise. -/
private theorem onlyLast_cons {rest : Forest} {e : Expr} (inner : List Node) {l behind : Nat}
    (hb : behind = start + 1 + inner.length)
    (ih : ∀ {l}, rest.last? behind = some l → OnlyLast behind l (rest.layout behind ·))
    (h : (rest.last? behind).or (some start) = some l) :
    OnlyLast start l fun next =>
      ⟨e, rest.head behind next⟩ :: (inner ++ rest.layout behind next) := by
  cases hr : rest.last? behind with
  | none =>
    obtain rfl := last?_eq_none.mp hr
    exact ⟨[], e, inner, by simpa [last?] using h, fun next => by simp [layout]⟩
  | some l' =>
    obtain rfl : l' = l := by simpa [hr] using h
    obtain ⟨before, e', inner', hl, hn⟩ := ih hr
    refine ⟨⟨e, some behind⟩ :: (inner ++ before), e', inner', ?_, fun next => ?_⟩
    · simp only [List.length_cons, List.length_append]
      omega
    · simp only [head_of_last? hr, hn, List.cons_append, List.append_assoc]

private theorem onlyLast_layout {f : Forest} {l : Nat} (h : f.last? start = some l) :
    OnlyLast start l (f.layout start ·) := by
  induction f generalizing start l with
  | nil => simp [last?] at h
  | plain i rest ih =>
    exact onlyLast_cons [] rfl ih h
  | scope kind sig body rest _ ih =>
    exact onlyLast_cons (body.layout (start + 1) none) (by simp) ih h
  | ifElse sig thenArm elseArm rest _ _ ih =>
    exact onlyLast_cons (thenArm.layout (start + 1) none ++
      elseArm.layout (start + 1 + thenArm.size) none) (by simp; omega) ih h

/-- To link a node behind the last one of a list changes the list only there. -/
theorem modify_layout {f : Forest} (pre tail : List Node) {l : Nat} (id : Nat)
    (h : f.last? pre.length = some l) :
    (pre ++ (f.layout pre.length none ++ tail)).modify l (fun n => { n with next := some id }) =
      pre ++ (f.layout pre.length (some id) ++ tail) := by
  obtain ⟨before, e, inner, rfl, hn⟩ := onlyLast_layout h
  have := modify_length (pre ++ before) ⟨e, none⟩ (inner ++ tail)
    fun n => { n with next := some id }
  simpa [hn] using this

end Forest

/-! ## Reading an arena -/

/-- The nodes that a node links to: the next one of its list, and the first ones of the lists that
it holds. -/
def Node.links (node : Node) : List Nat :=
  node.next.toList ++ node.expr.first?.toList ++ node.expr.elseFirst?.toList

namespace Arena

variable {a : Arena} {start : Nat}

/-- From the position `start` on, an arena has the given nodes. -/
def Has (a : Arena) (start : Nat) : List Node → Prop
  | [] => True
  | node :: nodes => a.node? start = some node ∧ a.Has (start + 1) nodes

theorem has_append {l m : List Node} :
    a.Has start (l ++ m) ↔ a.Has start l ∧ a.Has (start + l.length) m := by
  induction l generalizing start with
  | nil => simp [Has]
  | cons node l ih => simp [Has, ih, and_assoc, Nat.add_assoc, Nat.add_comm 1]

theorem has_of_getElem? {l : List Node} (h : ∀ k, k < l.length → a.node? (start + k) = l[k]?) :
    a.Has start l := by
  induction l generalizing start with
  | nil => trivial
  | cons node l ih =>
    refine ⟨by simpa using h 0 (by simp), ih fun k hk => ?_⟩
    have := h (k + 1) (by simpa using hk)
    simpa [Nat.add_assoc, Nat.add_comm 1] using this

theorem has_toList (a : Arena) : a.Has 0 a.nodes.toList :=
  has_of_getElem? fun k _ => by simp [node?]

/-- The forest that the links from `first` on spell out, where at most `n` links are followed in a
row. -/
def forest (a : Arena) : Nat → Option Nat → Forest
  | 0, _ | _, none => .nil
  | n + 1, some id =>
    match a.node? id with
    | none => .nil
    | some ⟨.instr i, next⟩ => .plain i (a.forest n next)
    | some ⟨.block sig first, next⟩ => .scope .block sig (a.forest n first) (a.forest n next)
    | some ⟨.loop sig first, next⟩ => .scope .loop sig (a.forest n first) (a.forest n next)
    | some ⟨.ifThen sig first elseFirst, next⟩ =>
      .consIf sig (a.forest n first) (a.forest n elseFirst) (a.forest n next)

/-- The nodes that the links from `first` on lead to, a scope before what it holds, where at most
`n` links are followed in a row. -/
def preorder (a : Arena) : Nat → Option Nat → List Nat
  | 0, _ | _, none => []
  | n + 1, some id =>
    match a.node? id with
    | none => []
    | some node =>
      id :: (a.preorder n node.expr.first? ++ a.preorder n node.expr.elseFirst? ++
        a.preorder n node.next)

@[simp]
theorem forest_none (n : Nat) : a.forest n none = .nil := by
  cases n <;> rfl

@[simp]
theorem preorder_none (n : Nat) : a.preorder n none = [] := by
  cases n <;> rfl

@[simp]
theorem take_none (n : Nat) : a.take n none = [] := by
  cases n <;> rfl

/-- The last node of a list is that of the rest, or the first one if nothing follows it. -/
theorem getLast?_take_cons {m n id : Nat} {node : Node} {last : Option Nat} (hn : m < n)
    (hnode : a.node? id = some node)
    (hrest : ∀ k, m ≤ k → (a.take k node.next).getLast? = last) :
    (a.take n (some id)).getLast? = last.or (some id) := by
  obtain ⟨k, rfl⟩ := Nat.exists_eq_add_one.mpr (Nat.lt_of_le_of_lt (Nat.zero_le m) hn)
  simp only [take, hnode, List.getLast?_cons, hrest k (Nat.le_of_lt_succ hn)]
  cases last <;> rfl

end Arena

namespace Forest

variable {a : Arena} {start n : Nat} {next : Option Nat}

theorem has_layout_plain {i : Instr} {rest : Forest} :
    a.Has start ((plain i rest).layout start next) ↔
      a.node? start = some ⟨.instr i, rest.head (start + 1) next⟩ ∧
      a.Has (start + 1) (rest.layout (start + 1) next) := Iff.rfl

theorem has_layout_scope {kind : ScopeKind} {sig : List ValueType} {body rest : Forest} :
    a.Has start ((scope kind sig body rest).layout start next) ↔
      a.node? start = some ⟨.holding kind sig (body.head (start + 1) none),
        rest.head (start + 1 + body.size) next⟩ ∧
      a.Has (start + 1) (body.layout (start + 1) none) ∧
      a.Has (start + 1 + body.size) (rest.layout (start + 1 + body.size) next) := by
  simp only [layout, Arena.Has, Arena.has_append, length_layout]

theorem has_layout_ifElse {sig : List ValueType} {thenArm elseArm rest : Forest} :
    a.Has start ((ifElse sig thenArm elseArm rest).layout start next) ↔
      a.node? start = some ⟨.ifThen sig (thenArm.head (start + 1) none)
        (elseArm.head (start + 1 + thenArm.size) none),
        rest.head (start + 1 + thenArm.size + elseArm.size) next⟩ ∧
      a.Has (start + 1) (thenArm.layout (start + 1) none) ∧
      a.Has (start + 1 + thenArm.size) (elseArm.layout (start + 1 + thenArm.size) none) ∧
      a.Has (start + 1 + thenArm.size + elseArm.size)
        (rest.layout (start + 1 + thenArm.size + elseArm.size) next) := by
  simp only [layout, Arena.Has, Arena.has_append, length_layout, List.length_append, and_assoc,
    ← Nat.add_assoc]

/-- **Reading back.** The links of a forest in an arena spell out the forest, apart from empty
`else`s. -/
theorem forest_eq {f : Forest} (h : a.Has start (f.layout start none)) (hn : f.size ≤ n) :
    a.forest n (f.head start none) = f.dropEmptyElse := by
  induction f generalizing start n with
  | nil => simp [dropEmptyElse]
  | plain i rest ih =>
    obtain ⟨hi, hr⟩ := has_layout_plain.mp h
    obtain ⟨n, rfl⟩ := Nat.exists_eq_add_one.mpr (Nat.lt_of_lt_of_le (Nat.succ_pos _) hn)
    simp only [size] at hn
    have hr := ih hr (n := n) (by omega)
    simp only [head_plain, Arena.forest, hi, dropEmptyElse, hr]
  | scope kind sig body rest ihb ihr =>
    obtain ⟨hi, hb, hr⟩ := has_layout_scope.mp h
    obtain ⟨n, rfl⟩ := Nat.exists_eq_add_one.mpr (Nat.lt_of_lt_of_le (Nat.succ_pos _) hn)
    simp only [size] at hn
    have hb := ihb hb (n := n) (by omega)
    have hr := ihr hr (n := n) (by omega)
    cases kind <;>
      simp only [head_scope, Arena.forest, hi, Expr.holding, dropEmptyElse, hb, hr,
        Arena.forest_none, consIf]
  | ifElse sig thenArm elseArm rest iht ihe ihr =>
    obtain ⟨hi, ht, he, hr⟩ := has_layout_ifElse.mp h
    obtain ⟨n, rfl⟩ := Nat.exists_eq_add_one.mpr (Nat.lt_of_lt_of_le (Nat.succ_pos _) hn)
    simp only [size] at hn
    have ht := iht ht (n := n) (by omega)
    have he := ihe he (n := n) (by omega)
    have hr := ihr hr (n := n) (by omega)
    simp only [head_ifElse, Arena.forest, hi, dropEmptyElse, ht, he, hr]

/-- Behind the last node of a list is what the list was laid out in front of. -/
theorem node?_last {f : Forest} {l : Nat} (h : a.Has start (f.layout start next))
    (hl : f.last? start = some l) : ∃ e, a.node? l = some ⟨e, next⟩ := by
  obtain ⟨before, e, inner, rfl, hnodes⟩ := onlyLast_layout hl
  replace h : a.Has start (before ++ ⟨e, next⟩ :: inner) := hnodes next ▸ h
  exact ⟨e, (Arena.has_append.mp h).2.1⟩

/-- The links of a list lead to its last node at last. -/
theorem getLast?_take {f : Forest} (h : a.Has start (f.layout start none)) (hn : f.size ≤ n) :
    (a.take n (f.head start none)).getLast? = f.last? start := by
  induction f generalizing start n with
  | nil => simp [last?]
  | plain i rest ih =>
    obtain ⟨hi, hr⟩ := has_layout_plain.mp h
    exact Arena.getLast?_take_cons hn hi fun k hk => ih hr hk
  | scope kind sig body rest _ ih =>
    obtain ⟨hi, -, hr⟩ := has_layout_scope.mp h
    exact Arena.getLast?_take_cons hn hi fun k hk =>
      ih hr (Nat.le_trans (Nat.le_add_left _ _) hk)
  | ifElse sig thenArm elseArm rest _ _ ih =>
    obtain ⟨hi, -, -, hr⟩ := has_layout_ifElse.mp h
    exact Arena.getLast?_take_cons hn hi fun k hk =>
      ih hr (Nat.le_trans (Nat.le_add_left _ _) hk)

/-- The links of a forest in an arena lead to its nodes in the order in which they stand. -/
theorem preorder_eq {f : Forest} (h : a.Has start (f.layout start none)) (hn : f.size ≤ n) :
    a.preorder n (f.head start none) = List.range' start f.size := by
  induction f generalizing start n with
  | nil => simp [size]
  | plain i rest ih =>
    obtain ⟨hi, hr⟩ := has_layout_plain.mp h
    obtain ⟨n, rfl⟩ := Nat.exists_eq_add_one.mpr (Nat.lt_of_lt_of_le (Nat.succ_pos _) hn)
    simp only [size] at hn
    have hr := ih hr (n := n) (by omega)
    simp [Arena.preorder, hi, Expr.first?, Expr.elseFirst?, hr, size, List.range'_succ]
  | scope kind sig body rest ihb ihr =>
    obtain ⟨hi, hb, hr⟩ := has_layout_scope.mp h
    obtain ⟨n, rfl⟩ := Nat.exists_eq_add_one.mpr (Nat.lt_of_lt_of_le (Nat.succ_pos _) hn)
    simp only [size] at hn
    have hb := ihb hb (n := n) (by omega)
    have hr := ihr hr (n := n) (by omega)
    have hf : (Expr.holding kind sig (body.head (start + 1) none)).first? =
        body.head (start + 1) none := by cases kind <;> rfl
    have he : (Expr.holding kind sig (body.head (start + 1) none)).elseFirst? = none := by
      cases kind <;> rfl
    simp [Arena.preorder, hi, hf, he, hb, hr, size, List.range'_succ, List.range'_append_1]
  | ifElse sig thenArm elseArm rest iht ihe ihr =>
    obtain ⟨hi, ht, he, hr⟩ := has_layout_ifElse.mp h
    obtain ⟨n, rfl⟩ := Nat.exists_eq_add_one.mpr (Nat.lt_of_lt_of_le (Nat.succ_pos _) hn)
    simp only [size] at hn
    have ht := iht ht (n := n) (by omega)
    have he := ihe he (n := n) (by omega)
    have hr := ihr hr (n := n) (by omega)
    simp only [head_ifElse, Arena.preorder, hi, Expr.first?, Expr.elseFirst?, ht, he, hr, size,
      List.range'_succ, List.range'_append_1]
    rw [Nat.add_assoc (start + 1), List.range'_append_1]

theorem mem_head {f : Forest} {id : Nat} (h : id ∈ (f.head start none).toList) :
    id = start ∧ 0 < f.size := by
  cases f with
  | nil => simp at h
  | _ => exact ⟨List.mem_singleton.mp h, Nat.succ_pos _⟩

/-- Every link leads forward, to a node of the same forest. -/
theorem links_layout {f : Forest} {node : Node} {id : Nat}
    (h : (node, id) ∈ (f.layout start none).zipIdx start) :
    ∀ target ∈ node.links, id < target ∧ target < start + f.size := by
  induction f generalizing start with
  | nil => simp [layout] at h
  | plain i rest ih =>
    simp only [layout, List.zipIdx_cons, List.mem_cons, Prod.mk.injEq] at h
    simp only [size]
    rcases h with ⟨rfl, rfl⟩ | h <;> intro target ht
    · simp only [Node.links, Expr.first?, Expr.elseFirst?, Option.toList_none,
        List.append_nil] at ht
      have := mem_head ht
      omega
    · have := ih h target ht
      omega
  | scope kind sig body rest ihb ihr =>
    simp only [layout, List.zipIdx_cons, List.zipIdx_append, length_layout, List.mem_cons,
      List.mem_append, Prod.mk.injEq] at h
    simp only [size]
    rcases h with ⟨rfl, rfl⟩ | h | h <;> intro target ht
    · have hb : (Expr.holding kind sig (body.head (id + 1) none)).first?.toList ++
          (Expr.holding kind sig (body.head (id + 1) none)).elseFirst?.toList =
            (body.head (id + 1) none).toList := by
        cases kind <;> simp [Expr.holding, Expr.first?, Expr.elseFirst?]
      rw [Node.links, List.append_assoc, hb, List.mem_append] at ht
      rcases ht with ht | ht <;> have := mem_head ht <;> omega
    · have := ihb h target ht
      omega
    · have := ihr h target ht
      omega
  | ifElse sig thenArm elseArm rest iht ihe ihr =>
    simp only [layout, List.zipIdx_cons, List.zipIdx_append, List.length_append, length_layout,
      List.mem_cons, List.mem_append, Prod.mk.injEq, ← Nat.add_assoc] at h
    simp only [size]
    rcases h with ⟨rfl, rfl⟩ | (h | h) | h <;> intro target ht
    · simp only [Node.links, Expr.first?, Expr.elseFirst?, List.mem_append] at ht
      rcases ht with (ht | ht) | ht <;> have := mem_head ht <;> omega
    · have := iht h target ht
      omega
    · have := ihe h target ht
      omega
    · have := ihr h target ht
      omega

end Forest

end WasmDecode
