import WasmDecode.Proofs.Effect
import WasmDecode.Proofs.Flatten
import WasmDecode.Proofs.Program

/-!
# Telling a body

The events of a function body, with its declarations of locals, are accepted where the body may
begin, and give the function its locals and its instructions.

* `Func.addLocals`, `FuncPlan.fill`: what the declarations and the whole body make of a function.
* `Builder.steps_locals`: the events of the declarations.
* `Builder.steps_body`: the events of the whole body.
-/

namespace WasmDecode

theorem Func.eq_of_bare {f g : Func} (hb : f.bare = g.bare) (hc : f.code = g.code) : f = g := by
  obtain ⟨typeIndex, type, locals, first, arena, name, paramNames, localNames⟩ := f
  obtain ⟨typeIndex', type', locals', first', arena', name', paramNames', localNames'⟩ := g
  simp only [bare, Func.mk.injEq, true_and] at hb
  simp only [code, Code.mk.injEq] at hc
  simp [hb, hc]

theorem IndexSpace.modify_id {α : Type} (s : IndexSpace α) (i : Nat) : s.modify i id = s := by
  obtain ⟨items, imported⟩ := s
  rw [modify, IndexSpace.mk.injEq]
  refine ⟨Array.ext_getElem? fun j => ?_, rfl⟩
  rw [Array.getElem?_modify, Option.map_id_fun, id_eq, ite_self]

/-- Adds locals to a function. -/
def Func.addLocals (types : List ValueType) (f : Func) : Func :=
  { f with locals := f.locals ++ types.toArray }

theorem Func.addLocals_nil : addLocals [] = id := by
  funext f
  simp [addLocals]

theorem Func.addLocals_append (types types' : List ValueType) :
    addLocals (types ++ types') = addLocals types' ∘ addLocals types := by
  funext f
  simp [addLocals]

/-- What a body makes of a function of which only the type was known. -/
def FuncPlan.fill (x : FuncPlan) (f : Func) : Func :=
  { f.addLocals x.localTypes with
    first := x.body.head 0 none
    arena := ⟨(x.body.layout 0 none).toArray⟩ }

theorem FuncPlan.fill_declared (x : FuncPlan) (types : List FuncType) :
    x.fill (x.declared.func types) = x.func types := by
  simp [fill, func, declared, Func.addLocals, localTypes, expand]

/-- The code of a body that has been read. -/
theorem Code.Spells.eq {c : Code} {f : Forest} (h : c.Spells (.body f)) :
    c = ⟨⟨(f.layout 0 none).toArray⟩, f.head 0 none⟩ := by
  obtain ⟨⟨nodes⟩, first⟩ := c
  obtain ⟨hnodes, hfirst⟩ := h
  simp only [OpenBody.nodes, OpenBody.head] at hnodes hfirst
  simp [← hnodes, hfirst]

namespace Builder

variable {b c : Builder} {p : Nat} {i : UInt32} {events : List Event}

theorem Steps.editsCode (h : b.Steps events c) (he : ∀ e ∈ events, e.isCode = true) :
    b.EditsCode c := by
  induction h with
  | nil => exact Std.Refl.refl _
  | cons hb _ ih =>
    obtain ⟨h₁, h₂⟩ := List.forall_mem_cons.mp he
    exact Trans.trans (Build.keeps_handle h₁ _ _ _ hb) (ih h₂)

/-- A function is known by its code and by what it is apart from it. -/
theorem getElem?_eq_of_bare (hb : b.module.funcs.items[p]?.map Func.bare =
      c.module.funcs.items[p]?.map Func.bare) (hc : b.codeAt p = c.codeAt p) :
    b.module.funcs.items[p]? = c.module.funcs.items[p]? := by
  unfold codeAt at hc
  cases hf : b.module.funcs.items[p]? with
  | none =>
    rw [hf] at hb
    exact (Option.map_eq_none_iff.mp hb.symm).symm
  | some f =>
    rw [hf, Option.map_some] at hb
    obtain ⟨g, hg, hbare⟩ := Option.map_eq_some_iff.mp hb.symm
    rw [hf, hg] at hc
    rw [hg, Func.eq_of_bare hbare.symm hc]

/-- The declarations of locals in a function that has room for them. -/
theorem steps_locals (hp : b.currentFunc = some p) {f : Func}
    (hf : b.module.funcs.items[p]? = some f) (locals : List (UInt32 × ValueType)) (start : Nat)
    (h : f.locals.size + (FuncPlan.expand locals).length ≤ maxFunctionLocals) :
    b.Steps (FuncPlan.localEvents start locals) { b with
      module.funcs := b.module.funcs.modify p (Func.addLocals (FuncPlan.expand locals)) } := by
  induction locals generalizing b f start with
  | nil =>
    show b.Steps [] { b with module.funcs := b.module.funcs.modify p (Func.addLocals []) }
    rw [Func.addLocals_nil, IndexSpace.modify_id]
    exact .nil
  | cons run locals ih =>
    obtain ⟨count, type⟩ := run
    have hexpand : FuncPlan.expand ((count, type) :: locals) =
        List.replicate count.toNat type ++ FuncPlan.expand locals := List.flatMap_cons
    rw [hexpand, List.length_append, List.length_replicate] at h
    let b₁ : Builder := { b with
      module.funcs := b.module.funcs.modify p (Func.addLocals (List.replicate count.toNat type)) }
    have hlocal : b.handle (.localDecl (.ofNat start) count type) = .ok () b₁ :=
      Build.run_addLocals.mpr ⟨p, f, hp, hf, by omega, rfl⟩
    have hf₁ : b₁.module.funcs.items[p]? =
        some (f.addLocals (List.replicate count.toNat type)) := by
      simp [b₁, IndexSpace.getElem?_modify, hf]
    have hrest := ih (b := b₁) hp hf₁ (start + 1) (by simp [Func.addLocals]; omega)
    rw [hexpand, Func.addLocals_append, ← IndexSpace.modify_modify]
    exact .cons hlocal hrest

/-- A function from which a body has been read, apart from the others. -/
theorem Advances.funcs_eq {f : Forest} (ha : b.Advances p (.body f) c) (he : b.EditsCode c) :
    c.module.funcs = b.module.funcs.modify p fun func =>
      { func with first := f.head 0 none, arena := ⟨(f.layout 0 none).toArray⟩ } := by
  generalize hg : (fun func : Func => { func with
    first := f.head 0 none, arena := ⟨(f.layout 0 none).toArray⟩ }) = g
  have hbare (func : Func) : (g func).bare = func.bare := hg ▸ rfl
  have hcode (func : Func) : (g func).code = ⟨⟨(f.layout 0 none).toArray⟩, f.head 0 none⟩ :=
    hg ▸ rfl
  let t : Builder := { b with module.funcs := b.module.funcs.modify p g }
  have hitems : c.module.funcs.items = t.module.funcs.items := by
    refine Array.ext_getElem? fun q => getElem?_eq_of_bare ?_ ?_
    · rw [he.bare, (EditsCode.of_modify p hbare).bare]
    · by_cases hq : q = p
      · subst hq
        obtain ⟨func, hfunc, -⟩ := getElem?_of_lt (b := b) (ha.size ▸ ha.reading.lt_size)
        rw [ha.reading.spells.eq]
        simp [codeAt, t, IndexSpace.getElem?_modify, hfunc, hcode]
      · rw [ha.other q hq]
        simp [codeAt, t, IndexSpace.getElem?_modify, Ne.symm hq]
  show (⟨c.module.funcs.items, c.module.funcs.imported⟩ : IndexSpace Func) = _
  rw [hitems, he.imported]
  rfl

/-- **The events of a function body**, with its locals, where the body may begin. -/
theorem steps_body (hb : b.Sound) (hm : b.MayBegin i) {f : Func}
    (hf : b.module.funcs.items[i.toNat]? = some f) (x : FuncPlan)
    (hl : f.locals.size + x.localTypes.length ≤ maxFunctionLocals)
    (hc : x.body.All (Instr.Checks b.module.types.size)) (hs : x.body.size ≤ Arena.capacity) :
    ∃ c, b.Steps (x.bodyEvents i) c ∧
      c.module = { b.module with funcs := b.module.funcs.modify i.toNat x.fill } ∧
      c.labels = [] ∧ c.initTarget = b.initTarget ∧ c.bodiesRead = b.bodiesRead + 1 := by
  have hread := hm.reading hb
  let b₁ : Builder := { b.openBody i with
    module.funcs := b.module.funcs.modify i.toNat (Func.addLocals x.localTypes) }
  have hlocals : (b.openBody i).Steps (FuncPlan.localEvents 0 x.locals) b₁ :=
    steps_locals (b := b.openBody i) rfl hf x.locals 0 hl
  have hread₁ : b₁.Reading i.toNat (.body .nil) := by
    obtain ⟨f', hf', hspells⟩ := hread.exists_func
    cases hf.symm.trans hf'
    exact ⟨rfl, rfl, f.addLocals x.localTypes, by simp [b₁, IndexSpace.getElem?_modify, hf],
      hspells⟩
  obtain ⟨b₂, hbody, hadvances⟩ := hread₁.steps_forest x.body hc
    (by simpa [OpenBody.size, Forest.size])
  have hedits := hbody.editsCode fun e he => Forest.isCode_of_mem_events he
  have hend : b₂.handle (.endBody i) = .ok () b₂.closeBody := handle_endBody hadvances.reading
  refine ⟨b₂.closeBody, .cons (handle_beginBody hm) (.cons rfl (hlocals.append (hbody.append
    (.cons rfl (.cons hend .nil))))), ?_, rfl, hedits.initTarget, hedits.bodiesRead⟩
  have hfuncs := hadvances.funcs_eq hedits
  show b₂.module = _
  rw [hedits.module, hfuncs]
  simp only [b₁, IndexSpace.modify_modify]
  rfl

end Builder
end WasmDecode
