import WasmDecode.Proofs.Preorder

/-!
# Labels and what they stand for

While a body is open there is one label for each open scope. The labels lead through the arena: each
stands for the last instruction of the scope around it, and knows where its own list begins and
ends.

* `Func.head?`: the first instruction of the list that a slot stands for.
* `Label.Marks`: the label of a scope that an instruction opens.
* `Func.Ends`: a label knows the last instruction of its list.
* `Func.Labelled`: the labels of a body that is open. `Code.Spells.labelled` says that what has been
  read of a body has such labels.
* `Builder.Labelled`: the labels of a builder; for every run it is `Builder.labels_run`.
-/

namespace WasmDecode

/-- The first instruction of the list whose head a slot holds, if there is one. -/
def Func.head? (f : Func) : Slot → Option ExprId
  | .funcBody => f.first
  | .blockFirst owner => (f.arena.expr? owner).bind Expr.first?
  | .elseFirst owner => (f.arena.expr? owner).bind Expr.elseFirst?

/-- A label marks a scope of the instruction `e` at the position `id`. As long as it marks the first
list of an `if`, the second one is empty. -/
inductive Label.Marks (id : ExprId) : Label → Expr → Prop
  | block {sig : List ValueType} {first last : Option ExprId} :
    Marks id ⟨.block, .blockFirst id, last⟩ (.block sig first)
  | loop {sig : List ValueType} {first last : Option ExprId} :
    Marks id ⟨.loop, .blockFirst id, last⟩ (.loop sig first)
  | ifThen {sig : List ValueType} {first last : Option ExprId} :
    Marks id ⟨.ifThen, .blockFirst id, last⟩ (.ifThen sig first none)
  | elseArm {sig : List ValueType} {first elseFirst last : Option ExprId} :
    Marks id ⟨.elseArm, .elseFirst id, last⟩ (.ifThen sig first elseFirst)

/-- Only the body itself has a label of its kind. -/
theorem Label.Marks.kind_ne {id : ExprId} {label : Label} {e : Expr} (h : label.Marks id e) :
    label.kind ≠ .func := by
  cases h <;> nofun

/-- A label knows the last instruction of its list, which has none behind it. -/
structure Func.Ends (f : Func) (label : Label) : Prop where
  last_eq_none : label.last = none ↔ f.head? label.slot = none
  getLast?_list : ∀ id, label.last = some id →
    (f.arena.list (f.head? label.slot)).getLast? = some id
  next_eq_none : ∀ id, label.last = some id →
    ∃ node, f.arena.node? id = some node ∧ node.next = none

/-- The labels of a body that is open, the innermost first. -/
structure Func.Labelled (f : Func) (labels : List Label) : Prop where
  /-- The outermost label is that of the body, and no other one is. -/
  outermost : ∃ inner last, labels = inner ++ [⟨.func, .funcBody, last⟩] ∧
    ∀ label ∈ inner, label.kind ≠ .func
  /-- Every other label marks a scope of the last instruction of the scope around it. -/
  marks : ∀ (k : Nat) label outer, labels[k]? = some label → labels[k + 1]? = some outer →
    ∃ id e, outer.last = some id ∧ f.arena.expr? id = some e ∧ label.Marks id e
  ends : ∀ label ∈ labels, f.Ends label

namespace Func

variable {f : Func} {label outer : Label} {rest : List Label} {id : ExprId} {e : Expr}

/-- A body in which no scope is open. -/
theorem Labelled.body {last : Option ExprId} (h : f.Ends ⟨.func, .funcBody, last⟩) :
    f.Labelled [⟨.func, .funcBody, last⟩] where
  outermost := ⟨[], last, rfl, by simp⟩
  marks k label outer _ houter := by simp at houter
  ends := by simpa using h

/-- One more scope, inside of the innermost one. -/
theorem Labelled.scope (h : f.Labelled (outer :: rest)) (hlast : outer.last = some id)
    (he : f.arena.expr? id = some e) (hmarks : label.Marks id e) (hends : f.Ends label) :
    f.Labelled (label :: outer :: rest) where
  outermost := by
    obtain ⟨inner, last, hlabels, hinner⟩ := h.outermost
    refine ⟨label :: inner, last, congrArg (label :: ·) hlabels, ?_⟩
    exact List.forall_mem_cons.mpr ⟨hmarks.kind_ne, hinner⟩
  marks k label' outer' hlabel houter := by
    cases k with
    | zero =>
      cases hlabel
      cases houter
      exact ⟨id, e, hlast, he, hmarks⟩
    | succ k => exact h.marks k label' outer' hlabel houter
  ends := List.forall_mem_cons.mpr ⟨hends, h.ends⟩

end Func

/-! ## What has been read of a body -/

namespace Forest

/-- The label of a list that is laid out in the arena of a function. -/
theorem ends {done : Forest} {f : Func} {label : Label} {start : Nat}
    (hhead : f.head? label.slot = done.head start none) (hlast : label.last = done.last? start)
    (hhas : f.arena.Has start (done.layout start none)) (hsize : done.size ≤ f.arena.size) :
    f.Ends label where
  last_eq_none := by
    rw [hhead, hlast, last?_eq_none]
    cases done <;> simp
  getLast?_list id hid := by
    rw [hhead, Arena.list, getLast?_take hhas hsize, ← hlast, hid]
  next_eq_none id hid := by
    obtain ⟨e, he⟩ := node?_last hhas (hlast.symm.trans hid)
    exact ⟨⟨e, none⟩, he, rfl⟩

end Forest

namespace Code.Spells

variable {c : Code} {f : Func} {o o' outer : OpenBody} {kind : ScopeKind} {sig : List ValueType}
  {thenArm done : Forest}

/-- The end of a scope leaves the arena as it is. -/
theorem of_endScope (h : c.Spells o) (hs : o.step? .endScope = some o') : c.Spells o' :=
  ⟨h.nodes.trans (OpenBody.nodes_end hs).symm, h.first.trans (OpenBody.head_end hs).symm⟩

theorem has_nodes (h : c.Spells o) : c.arena.Has 0 (o.nodes none) := by
  rw [← h.nodes]
  exact Arena.has_toList c.arena

/-- The instruction that has opened a scope, and what is in the scope. -/
theorem has_scope (h : c.Spells (.scope outer kind sig done)) :
    c.arena.expr? outer.size = some (.holding kind sig (done.head (outer.size + 1) none)) ∧
      c.arena.Has (outer.size + 1) (done.layout (outer.size + 1) none) := by
  obtain ⟨hnode, hdone⟩ := (Arena.has_append.mp h.has_nodes).2
  rw [OpenBody.length_nodes, Nat.zero_add] at hnode hdone
  exact ⟨congrArg (Option.map Node.expr) hnode, hdone⟩

/-- The `if` that has opened a scope, and what is behind its `else`. -/
theorem has_elseArm (h : c.Spells (.elseArm outer sig thenArm done)) :
    c.arena.expr? outer.size = some (.ifThen sig (thenArm.head (outer.size + 1) none)
        (done.head (outer.size + 1 + thenArm.size) none)) ∧
      c.arena.Has (outer.size + 1 + thenArm.size)
        (done.layout (outer.size + 1 + thenArm.size) none) := by
  obtain ⟨hnode, hlists⟩ := (Arena.has_append.mp h.has_nodes).2
  have hdone := (Arena.has_append.mp hlists).2
  rw [OpenBody.length_nodes, Nat.zero_add] at hnode hdone
  rw [Forest.length_layout] at hdone
  exact ⟨congrArg (Option.map Node.expr) hnode, hdone⟩

/-- The label of the innermost scope knows where its list ends. -/
theorem ends_label (h : f.code.Spells o) : f.Ends o.label := by
  have hsize : f.arena.size = o.size := h.size_eq
  cases o with
  | body done => exact done.ends h.first rfl h.has_nodes (Nat.le_of_eq hsize.symm)
  | scope outer kind sig done =>
    obtain ⟨hexpr, hdone⟩ := h.has_scope
    refine done.ends ((congrArg (Option.bind · Expr.first?) hexpr).trans ?_) rfl hdone
      (hsize ▸ Nat.le_add_left _ _)
    cases kind <;> rfl
  | elseArm outer sig thenArm done =>
    obtain ⟨hexpr, hdone⟩ := h.has_elseArm
    exact done.ends (congrArg (Option.bind · Expr.elseFirst?) hexpr) rfl hdone
      (hsize ▸ Nat.le_add_left _ _)

/-- **The labels of an open body.** -/
theorem labelled (h : f.code.Spells o) : f.Labelled o.labels := by
  -- A scope is the last instruction of the one around it. So the labels around a scope are those
  -- that are left when it ends, and the induction has to allow for one more instruction.
  have hadd (g : Forest) (hg : f.code.Spells (o.add g)) : f.Labelled (o.add g).labels := by
    clear h
    induction o generalizing g with
    | body done => exact .body hg.ends_label
    | scope outer kind sig done ih =>
      have houter := ih (.scope kind sig (done.append g) .nil) (hg.of_endScope rfl)
      rw [← OpenBody.labels_end (o := .scope outer kind sig (done.append g)) rfl] at houter
      refine houter.scope rfl hg.has_scope.1 ?_ hg.ends_label
      cases kind
      · exact .block
      · exact .loop
      · exact .ifThen
    | elseArm outer sig thenArm done ih =>
      have houter := ih (.ifElse sig thenArm (done.append g) .nil) (hg.of_endScope rfl)
      rw [← OpenBody.labels_end (o := .elseArm outer sig thenArm (done.append g)) rfl] at houter
      exact houter.scope rfl hg.has_elseArm.1 .elseArm hg.ends_label
  rw [← o.add_nil] at h ⊢
  exact hadd .nil h

end Code.Spells

/-! ## The labels of a builder -/

namespace Builder

/-- The labels of a builder, and the function whose body is open. -/
structure Labelled (b : Builder) : Prop where
  /-- There are no labels if and only if no body is open. -/
  labels_eq_nil : b.labels = [] ↔ b.currentFunc = none
  labelled : ∀ p, b.currentFunc = some p →
    ∃ f, b.module.funcs.items[p]? = some f ∧ f.Labelled b.labels

theorem Sound.labelled {b : Builder} (hb : b.Sound) : b.Labelled where
  labels_eq_nil := ⟨hb.currentFunc_eq_none, hb.idle⟩
  labelled p hp := by
    obtain ⟨o, hr⟩ := hb.reading p hp
    obtain ⟨f, hf, hspells⟩ := hr.exists_func
    exact ⟨f, hf, hr.labels ▸ hspells.labelled⟩

/-- **Labels.** After any events, also in the middle of a body and after events that were refused,
there is a label if and only if a body is open. The outermost one is that of the body, each other
one marks a scope of the last instruction of the scope around it, and all know where their lists
end. -/
theorem labels_run (events : List Event) : (({} : Builder).run events).Labelled :=
  (sound_run events).labelled

end Builder
end WasmDecode
