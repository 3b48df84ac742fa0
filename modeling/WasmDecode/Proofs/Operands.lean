import WasmDecode.Proofs.Outline

/-!
# Operands

The plain instructions of a body stand in its arena with the operands that they came with, in the
order of their events. What was checked of the operands when an instruction was added holds of the
node from then on, since there are never fewer types than there were.

* `Forest.instrs_layout`, `OpenBody.instrs_nodes`: the plain instructions in an arena are those that
  have been read.
* `Code.Checked`: the operands in an arena pass the checks.
* `Builder.Steps.checked`: they always do.
-/

namespace WasmDecode

/-- The plain instruction that a node holds, if it holds one. -/
def Node.instr? (n : Node) : Option Instr :=
  match n.expr with
  | .instr i => some i
  | _ => none

/-- The plain instruction that an event tells, if it tells one. -/
def Event.instr? : Event → Option Instr
  | .instr i => some i
  | _ => none

theorem Node.instr?_holding (kind : ScopeKind) (sig : List ValueType) (first next : Option Nat) :
    Node.instr? ⟨.holding kind sig first, next⟩ = none := by
  cases kind <;> rfl

theorem Event.instr?_eq_some {e : Event} {i : Instr} : e.instr? = some i ↔ e = .instr i := by
  cases e <;> simp [Event.instr?]

/-! ## The instructions in an arena -/

theorem Forest.instrs_layout (f : Forest) {start : Nat} {next : Option Nat} :
    (f.layout start next).filterMap Node.instr? = f.events.filterMap Event.instr? := by
  induction f generalizing start next with
  | nil => rfl
  | plain i rest ih => simp [layout, events, Node.instr?, Event.instr?, ih]
  | scope kind sig body rest ihb ihr =>
    simp [layout, events, List.filterMap_cons, Node.instr?_holding, Event.instr?, ihb, ihr]
  | ifElse sig thenArm elseArm rest iht ihe ihr =>
    simp [layout, events, List.filterMap_cons, Node.instr?, Event.instr?, iht, ihe, ihr]

theorem OpenBody.instrs_nodes (o : OpenBody) {next : Option Nat} :
    (o.nodes next).filterMap Node.instr? = o.events.filterMap Event.instr? := by
  induction o generalizing next with
  | body done => exact done.instrs_layout
  | scope outer kind sig done ih =>
    simp [nodes, events, List.filterMap_cons, Node.instr?_holding, Event.instr?,
      Forest.instrs_layout, ih]
  | elseArm outer sig thenArm done ih =>
    simp [nodes, events, List.filterMap_cons, Node.instr?, Event.instr?, Forest.instrs_layout, ih]

/-! ## Operands that pass the checks -/

theorem Instr.Checks.mono {i : Instr} {types types' : Nat} (h : i.Checks types)
    (ht : types ≤ types') : i.Checks types' := by
  cases i with
  | callIndirect sigIndex => exact Nat.lt_of_lt_of_le h ht
  | _ => exact h

namespace Code

variable {c c' : Code} {o o' : OpenBody} {e : Event} {types types' size : Nat}

/-- The operands in an arena pass the checks for a module of `types` types. -/
def Checked (c : Code) (types : Nat) : Prop :=
  ∀ i ∈ c.arena.nodes.toList.filterMap Node.instr?, i.Checks types

theorem Checked.mono (h : c.Checked types) (ht : types ≤ types') : c.Checked types' :=
  fun i hi => (h i hi).mono ht

theorem Spells.checked_iff (h : c.Spells o) :
    c.Checked types ↔ ∀ i ∈ o.events.filterMap Event.instr?, i.Checks types := by
  rw [Checked, h.nodes, OpenBody.instrs_nodes]

/-- What has been read since then is one event that fits. -/
theorem Checked.step (h : c.Checked types) (hc : c.Spells o) (hc' : c'.Spells o')
    (hs : o.step? e = some o') (he : e.Fits types size) : c'.Checked types := by
  rw [hc'.checked_iff, OpenBody.events_of_step? hs, List.filterMap_append]
  intro i hi
  rcases List.mem_append.mp hi with hi | hi
  · exact hc.checked_iff.mp h i hi
  · obtain ⟨e', he', hinstr⟩ := List.mem_filterMap.mp hi
    obtain rfl := List.mem_singleton.mp he'
    obtain rfl := Event.instr?_eq_some.mp hinstr
    exact he.1

theorem Checked.of_mem (h : c.Checked types) {id : ExprId} {node : Node} {i : Instr}
    (hn : c.arena.node? id = some node) (hi : node.expr = .instr i) : i.Checks types := by
  refine h i (List.mem_filterMap.mpr ⟨node, ?_, by simp [Node.instr?, hi]⟩)
  exact Array.mem_toList_iff.mpr (Array.mem_of_getElem? hn)

end Code

/-- The alignment of a memory access that passes the checks is a number of bytes. -/
theorem MemArg.alignment_eq {arg : MemArg} (h : arg.alignLog2 < 32) :
    arg.alignment = .ok (1 <<< arg.alignLog2) := if_pos h

/-! ## Builders -/

namespace Builder

variable {b b' c : Builder} {p : Nat} {o : OpenBody} {e : Event} {events : List Event}

/-- An event of a body that is accepted fits. -/
theorem Reading.fits (h : b.Reading p o) (he : e.isCode = true) (hb : b.handle e = .ok () b') :
    e.Fits b.module.types.size o.size := by
  refine Classical.byContradiction fun hf => ?_
  obtain ⟨stop, h₁⟩ := h.handle_error he fun ⟨_, _, hfits⟩ => hf hfits
  cases hb.symm.trans h₁

theorem Takes.types_le (h : b.Takes e b') : b.module.types.size ≤ b'.module.types.size := by
  have hlength := (h.outline.prefix_listed .funcType).length_le
  simpa [Module.outline, Module.listed] using hlength

/-- The operands of all instructions pass the checks. -/
def Checked (b : Builder) : Prop := ∀ p, (b.codeAt p).Checked b.module.types.size

theorem Checked.step (hb : b.Sound) (h : b.handle e = .ok () b') (hc : b.Checked) :
    b'.Checked := by
  intro q
  cases hb.accepts h with
  | beginBody hm => exact hc q
  | @code p o o' _ _ hr he hs ha =>
    rw [ha.types]
    by_cases hq : q = p
    · subst hq
      exact (hc q).step hr.spells ha.reading.spells hs (hr.fits he h)
    · rw [ha.other q hq]
      exact hc q
  | endBody hr => exact hc q
  | other he hk =>
    rw [hk.code q]
    exact (hc q).mono (takes_of_handle h).types_le

theorem checked_empty : ({} : Builder).Checked := by
  intro p i hi
  cases hi

theorem Steps.checked (h : b.Steps events c) (hb : b.Sound) (hc : b.Checked) : c.Checked := by
  induction h with
  | nil => exact hc
  | cons he _ ih => exact ih (hb.of_accepts (hb.accepts he)) (hc.step hb he)

end Builder
end WasmDecode
