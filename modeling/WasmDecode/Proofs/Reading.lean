import WasmDecode.Proofs.KeepsBodies

/-!
# Reading a body

While a body is open, its events are accepted as long as they fit into what has been read of it, and
a builder stays in step with an open body. What does not fit is refused and changes nothing.

* `Builder.Reading`: the function at a position is open, and this has been read of its body.
* `Build.run_append`: a new instruction finds its place.
* `Event.Fits`: room for an event, and operands that pass the checks.
* `Builder.Reading.handle_ok`, `Builder.Reading.handle_error`: which events of a body are accepted,
  and what they lead to.
-/

namespace WasmDecode

@[simp]
theorem Func.code_arena (f : Func) : f.code.arena = f.arena := rfl

@[simp]
theorem Func.code_first (f : Func) : f.code.first = f.first := rfl

theorem IndexSpace.getElem?_modify {α : Type} (s : IndexSpace α) (i j : Nat) (f : α → α) :
    (s.modify i f).items[j]? = if i = j then s.items[j]?.map f else s.items[j]? :=
  Array.getElem?_modify

theorem IndexSpace.modify_modify {α : Type} (s : IndexSpace α) (i : Nat) (f g : α → α) :
    (s.modify i f).modify i g = s.modify i (g ∘ f) := by
  simp only [IndexSpace.modify, IndexSpace.mk.injEq, and_true]
  apply Array.ext'
  simp [List.modify_modify_eq]

/-- A change of an item depends only on what becomes of the item. -/
theorem IndexSpace.modify_congr {α : Type} {s : IndexSpace α} {i : Nat} {a : α} {f g : α → α}
    (h : s.items[i]? = some a) (hfg : f a = g a) : s.modify i f = s.modify i g := by
  simp only [IndexSpace.modify, IndexSpace.mk.injEq, and_true]
  apply Array.ext_getElem?
  intro j
  rw [Array.getElem?_modify, Array.getElem?_modify]
  split
  · next hij =>
    subst hij
    simp [h, hfg]
  · rfl

/-- The operand checks of the builder: an indirect call names a type, and the alignment of a memory
access fits into 32 bits. There are `types` types. -/
def Instr.Checks (types : Nat) : Instr → Prop
  | .callIndirect sigIndex => sigIndex.toNat < types
  | .load _ arg | .store _ arg => arg.alignLog2 < 32
  | _ => True

theorem Code.Spells.size_eq {c : Code} {o : OpenBody} (h : c.Spells o) : c.arena.size = o.size := by
  rw [Arena.size, ← Array.length_toList, h.nodes, OpenBody.length_nodes]

namespace Builder

/-- Adds an instruction to the innermost scope of the function at position `p`, of whose body `o`
has been read. -/
def added (b : Builder) (p : Nat) (o : OpenBody) (e : Expr) : Builder :=
  { b with
    module.funcs := b.module.funcs.modify p fun f =>
      { f with arena := f.arena.alloc e }.link o.label o.size
    labels := { o.label with last := some o.size } :: o.outerLabels }

/-- The function at position `p` is open, and `o` has been read of its body. -/
structure Reading (b : Builder) (p : Nat) (o : OpenBody) : Prop where
  current : b.currentFunc = some p
  labels : b.labels = o.labels
  exists_func : ∃ f, b.module.funcs.items[p]? = some f ∧ f.code.Spells o

end Builder

namespace Build

open Builder

variable {α : Type} {b : Builder} {p : Nat} {o : OpenBody}

theorem run_discard (x : Build α) :
    (discard x).run b = match x.run b with
      | .ok _ b' => .ok () b'
      | .error stop b' => .error stop b' := by
  simp only [discard, Functor.discard, map_const, Function.comp_apply, ← bind_pure_comp]
  rw [EStateM.run_bind]
  cases x.run b <;> rfl

theorem run_innermost {l : Label} {rest : List Label} (h : b.labels = l :: rest) :
    innermost.run b = .ok l b := by
  simp [innermost, h]

theorem run_innermost_nil (h : b.labels = []) :
    innermost.run b = .error (.refused (.labelDepthOutOfRange 0 0)) b := by
  simp [innermost, h]

theorem run_openFunc {event : String} (h : b.currentFunc = some p) :
    (openFunc event).run b = .ok p b := by
  simp [openFunc, h]

/-- **Adding an instruction.** While a body is open and the arena has room, every instruction is
added: as the next node of the arena, linked behind the last one of the innermost scope. -/
theorem run_append (h : b.Reading p o) (hs : o.size < Arena.capacity) (e : Expr) :
    (append e).run b = .ok o.size (b.added p o e) := by
  obtain ⟨f, hf, ho⟩ := h.exists_func
  have hsize : f.arena.size = o.size := ho.size_eq
  have hnodes : (f.arena.alloc e).nodes.toList = o.nodes none ++ [⟨e, none⟩] := by
    simpa [Arena.alloc] using ho.nodes
  -- The label says where to link the node, and the place is in the arena.
  have hlink := Func.canLink_label (f := { f with arena := f.arena.alloc e }) hnodes
  simp only [append, EStateM.run_bind, run_innermost h.labels, run_openFunc h.current, allocNode,
    EStateM.run_get, hf, Option.map_some, run_require, hsize, hs, if_true, modifyFunc,
    run_modifyModule, EStateM.run_pure, linkNode, IndexSpace.getElem?_modify, Option.any_some,
    hlink, IndexSpace.modify_modify, modifyInnermost, EStateM.run_modify, h.labels]
  rfl

/-- An instruction for which the arena has no room is not added. -/
theorem run_append_full (h : b.Reading p o) (hs : ¬ o.size < Arena.capacity) (e : Expr) :
    (append e).run b = .error (.refused .appendFailed) b := by
  obtain ⟨f, hf, ho⟩ := h.exists_func
  have hsize : f.arena.size = o.size := ho.size_eq
  simp only [append, EStateM.run_bind, run_innermost h.labels, run_openFunc h.current, allocNode,
    EStateM.run_get, hf, Option.map_some, run_require, hsize, hs, if_false]

/-- Outside of bodies no instruction is added. -/
theorem run_append_closed (h : b.labels = []) (e : Expr) :
    (append e).run b = .error (.refused (.labelDepthOutOfRange 0 0)) b := by
  simp only [append, EStateM.run_bind, run_innermost_nil h]

theorem run_addInstr {i : Instr} (hi : i.Checks b.module.types.size) :
    (addInstr i).run b = (discard (append (.instr i))).run b := by
  cases i with
  | callIndirect sigIndex =>
    simp only [addInstr, EStateM.run_bind, run_discard, run_signature hi]
  | load op arg | store op arg =>
    have ha : arg.alignment = .ok (1 <<< arg.alignLog2) := if_pos hi
    simp only [addInstr, ha]
  | _ => rfl

theorem run_addInstr_error {i : Instr} (hi : ¬ i.Checks b.module.types.size) :
    ∃ stop, (addInstr i).run b = .error stop b := by
  cases i with
  | callIndirect sigIndex =>
    have hs : b.module.types[sigIndex.toNat]? = none :=
      Array.getElem?_eq_none (Nat.le_of_not_lt hi)
    refine ⟨.refused (.indexOutOfRange "signature" sigIndex.toNat b.module.types.size), ?_⟩
    simp only [addInstr, EStateM.run_bind, run_discard, signature, EStateM.run_get, hs, run_refuse]
  | load op arg | store op arg =>
    have ha : arg.alignment = .error (.alignmentOverflow arg.alignLog2.toNat) := if_neg hi
    refine ⟨.refused (.alignmentOverflow arg.alignLog2.toNat), ?_⟩
    simp only [addInstr, EStateM.run_bind, ha, run_refuse]
  | _ => exact absurd trivial hi

end Build

/-! ## The events of a body -/

/-- Whether there is room for an event in a body of `size` instructions, and its operands pass the
checks for a module of `types` types. -/
def Event.Fits (types size : Nat) : Event → Prop
  | .instr i => i.Checks types ∧ size < Arena.capacity
  | .beginScope .. => size < Arena.capacity
  | _ => True

namespace Builder

variable {b b' : Builder} {p : Nat} {o o' : OpenBody} {e : Event}

/-- From `b` to `b'` nothing happens but that `o'` has been read of the body at position `p`. -/
structure Advances (b : Builder) (p : Nat) (o' : OpenBody) (b' : Builder) : Prop where
  reading : b'.Reading p o'
  other : ∀ q, q ≠ p → b'.codeAt q = b.codeAt q
  bodiesRead : b'.bodiesRead = b.bodiesRead
  imported : b'.module.funcs.imported = b.module.funcs.imported
  size : b'.module.funcs.size = b.module.funcs.size
  types : b'.module.types = b.module.types

/-- A function that was changed at most in its instructions, and labels to go with them. -/
theorem Reading.advances (h : b.Reading p o) {f : Func → Func} {b' : Builder}
    (hm : b'.module = { b.module with funcs := b.module.funcs.modify p f })
    (hc : b'.currentFunc = b.currentFunc) (hr : b'.bodiesRead = b.bodiesRead)
    (hl : b'.labels = o'.labels)
    (hf : ∀ func, func.code.Spells o → (f func).code.Spells o') : b.Advances p o' b' := by
  obtain ⟨func, hfunc, ho⟩ := h.exists_func
  refine ⟨⟨hc.trans h.current, hl, f func, ?_, hf func ho⟩, fun q hq => ?_, hr, ?_, ?_, ?_⟩
  · simp [hm, IndexSpace.getElem?_modify, hfunc]
  · simp [codeAt, hm, IndexSpace.getElem?_modify, hq.symm]
  · simp [hm, IndexSpace.modify]
  · simp [hm, IndexSpace.size, IndexSpace.modify]
  · simp [hm]

/-- The function to which an instruction was added. -/
theorem spells_added {f : Func} (h : f.code.Spells o) {e : Expr}
    (hn : o'.nodes none = o.nodes (some o.size) ++ [⟨e, none⟩])
    (hh : o'.head none = o.head (some o.size)) :
    ({ f with arena := f.arena.alloc e }.link o.label o.size).code.Spells o' := by
  have hnodes : (f.arena.alloc e).nodes.toList = o.nodes none ++ [⟨e, none⟩] := by
    simpa [Arena.alloc] using h.nodes
  have hl := Func.link_label (f := { f with arena := f.arena.alloc e }) o.size hnodes h.first
  exact ⟨hl.1.trans hn.symm, hl.2.trans hh.symm⟩

theorem Reading.handle_instr (h : b.Reading p o) {i : Instr} (hi : i.Checks b.module.types.size)
    (hs : o.size < Arena.capacity) :
    ∃ b', b.handle (.instr i) = .ok () b' ∧ b.Advances p (o.add (.plain i .nil)) b' := by
  refine ⟨b.added p o (.instr i), ?_, ?_⟩
  · show (Build.addInstr i).run b = _
    rw [Build.run_addInstr hi, Build.run_discard, Build.run_append h hs]
  · refine h.advances rfl rfl rfl (OpenBody.labels_add_plain i).symm fun f hf => ?_
    exact spells_added hf (OpenBody.nodes_add _ _) (OpenBody.head_add _ _)

theorem Reading.handle_beginScope (h : b.Reading p o) (hs : o.size < Arena.capacity)
    (kind : ScopeKind) (sig : List ValueType) :
    ∃ b', b.handle (.beginScope kind sig) = .ok () b' ∧
      b.Advances p (.scope o kind sig .nil) b' := by
  let b₁ := b.added p o (.scope kind sig)
  refine ⟨{ b₁ with
    labels := ⟨.ofScope kind, .blockFirst o.size, none⟩ :: b₁.labels
    maxDepth := max b₁.maxDepth (b₁.labels.length + 1) }, ?_, ?_⟩
  · show (Build.openScope kind sig).run b = _
    simp only [Build.openScope, EStateM.run_bind, Build.run_append h hs, Build.pushLabel,
      EStateM.run_modify]
    rfl
  · refine h.advances rfl rfl rfl rfl fun f hf => spells_added hf ?_ rfl
    cases kind <;> rfl

/-- Labels alone change. -/
theorem Reading.relabel (h : b.Reading p o) {l : List Label} (hl : l = o'.labels)
    (hn : o'.nodes none = o.nodes none) (hh : o'.head none = o.head none) :
    b.Advances p o' { b with labels := l } := by
  obtain ⟨func, hfunc, ho⟩ := h.exists_func
  exact ⟨⟨h.current, hl, func, hfunc, ho.nodes.trans hn.symm, ho.first.trans hh.symm⟩,
    fun _ _ => rfl, rfl, rfl, rfl, rfl⟩

theorem Reading.handle_elseArm (h : b.Reading p o) (hs : o.step? .elseArm = some o') :
    ∃ b', b.handle .elseArm = .ok () b' ∧ b.Advances p o' b' := by
  refine ⟨_, ?_, h.relabel rfl (OpenBody.nodes_else hs) (OpenBody.head_else hs)⟩
  cases o with
  | body done => cases hs
  | elseArm outer sig thenArm done => cases hs
  | scope outer kind sig done =>
    cases kind with
    | block => cases hs
    | loop => cases hs
    | ifThen =>
      cases hs
      have hl : b.labels = ⟨.ifThen, .blockFirst outer.size, done.last? (outer.size + 1)⟩ ::
        { outer.label with last := some outer.size } :: outer.outerLabels := h.labels
      show Build.elseArm.run b = _
      simp only [Build.elseArm, EStateM.run_bind, Build.run_innermost hl, EStateM.run_get, hl]
      simp [Build.modifyInnermost, hl, OpenBody.labels, OpenBody.outerLabels, OpenBody.label,
        Forest.last?]

theorem Reading.handle_endScope (h : b.Reading p o) (hs : o.step? .endScope = some o') :
    ∃ b', b.handle .endScope = .ok () b' ∧ b.Advances p o' b' := by
  refine ⟨{ b with labels := o.outerLabels }, ?_,
    h.relabel (OpenBody.labels_end hs) (OpenBody.nodes_end hs) (OpenBody.head_end hs)⟩
  have hk : o.label.kind ≠ .func := by
    rw [ne_eq, OpenBody.kind_label]
    rintro ⟨f, rfl⟩
    cases hs
  show Build.endScope.run b = _
  simp only [Build.endScope, EStateM.run_bind, Build.run_innermost h.labels, Build.run_require, hk,
    if_true, Build.popLabel, EStateM.run_get, h.labels, OpenBody.labels, EStateM.run_modify, ne_eq,
    not_false_eq_true]

/-- **The events of an open body.** An event that fits into what has been read of the body is
accepted, and read. -/
theorem Reading.handle_ok (h : b.Reading p o) (hs : o.step? e = some o')
    (hf : e.Fits b.module.types.size o.size) :
    ∃ b', b.handle e = .ok () b' ∧ b.Advances p o' b' := by
  cases e with
  | instr i =>
    cases o <;> cases hs <;> exact h.handle_instr hf.1 hf.2
  | beginScope kind sig =>
    cases o <;> cases hs <;> exact h.handle_beginScope hf kind sig
  | elseArm => exact h.handle_elseArm hs
  | endScope => exact h.handle_endScope hs
  | _ => cases o <;> cases hs

/-- An event of a body that does not fit is refused, and changes nothing. -/
theorem Reading.handle_error (h : b.Reading p o) (he : e.isCode = true)
    (hs : ¬ ∃ o', o.step? e = some o' ∧ e.Fits b.module.types.size o.size) :
    ∃ stop, b.handle e = .error stop b := by
  cases e with
  | instr i =>
    by_cases hi : i.Checks b.module.types.size
    · have hc : ¬ o.size < Arena.capacity := fun hc => hs ⟨_, OpenBody.step?_instr o i, hi, hc⟩
      refine ⟨.refused .appendFailed, ?_⟩
      show (Build.addInstr i).run b = _
      rw [Build.run_addInstr hi, Build.run_discard, Build.run_append_full h hc]
    · exact Build.run_addInstr_error hi
  | beginScope kind sig =>
    have hc : ¬ o.size < Arena.capacity :=
      fun hc => hs ⟨_, OpenBody.step?_beginScope o kind sig, hc⟩
    refine ⟨.refused .appendFailed, ?_⟩
    show (Build.openScope kind sig).run b = _
    simp only [Build.openScope, EStateM.run_bind, Build.run_append_full h hc]
  | elseArm =>
    have hl : b.labels = o.label :: o.outerLabels := h.labels
    refine ⟨.refused .elseWithoutIf, ?_⟩
    show Build.elseArm.run b = _
    simp only [Build.elseArm, EStateM.run_bind, Build.run_innermost hl]
    cases o with
    | body done => rfl
    | elseArm outer sig thenArm done => rfl
    | scope outer kind sig done =>
      cases kind with
      | block => rfl
      | loop => rfl
      | ifThen => exact absurd ⟨_, rfl, trivial⟩ hs
  | endScope =>
    refine ⟨.refused (.unexpectedEvent "end" "no open block, loop or if in the function body"), ?_⟩
    cases o with
    | scope outer kind sig done => exact absurd ⟨_, rfl, trivial⟩ hs
    | elseArm outer sig thenArm done => exact absurd ⟨_, rfl, trivial⟩ hs
    | body done =>
      show Build.endScope.run b = _
      simp only [Build.endScope, EStateM.run_bind, Build.run_innermost h.labels, Build.run_require]
      rfl
  | _ => cases he

/-- An event of a body that is accepted has been read. -/
theorem Reading.of_code (h : b.Reading p o) (he : e.isCode = true) (hb : b.handle e = .ok () b') :
    ∃ o', o.step? e = some o' ∧ b.Advances p o' b' := by
  by_cases hs : ∃ o', o.step? e = some o' ∧ e.Fits b.module.types.size o.size
  · obtain ⟨o', hs, hf⟩ := hs
    obtain ⟨b₁, h₁, ha⟩ := h.handle_ok hs hf
    cases hb.symm.trans h₁
    exact ⟨o', hs, ha⟩
  · obtain ⟨stop, h₁⟩ := h.handle_error he hs
    cases hb.symm.trans h₁

/-- While no body is open, the events of bodies are refused, and change nothing. -/
theorem handle_error_of_closed (h : b.labels = []) (he : e.isCode = true) :
    ∃ stop, b.handle e = .error stop b := by
  cases e with
  | instr i =>
    by_cases hi : i.Checks b.module.types.size
    · refine ⟨.refused (.labelDepthOutOfRange 0 0), ?_⟩
      show (Build.addInstr i).run b = _
      rw [Build.run_addInstr hi, Build.run_discard, Build.run_append_closed h]
    · exact Build.run_addInstr_error hi
  | beginScope kind sig =>
    refine ⟨.refused (.labelDepthOutOfRange 0 0), ?_⟩
    show (Build.openScope kind sig).run b = _
    simp only [Build.openScope, EStateM.run_bind, Build.run_append_closed h]
  | elseArm =>
    refine ⟨.refused (.labelDepthOutOfRange 0 0), ?_⟩
    show Build.elseArm.run b = _
    simp only [Build.elseArm, EStateM.run_bind, Build.run_innermost_nil h]
  | endScope =>
    refine ⟨.refused (.labelDepthOutOfRange 0 0), ?_⟩
    show Build.endScope.run b = _
    simp only [Build.endScope, EStateM.run_bind, Build.run_innermost_nil h]
  | _ => cases he

end Builder
end WasmDecode
