import WasmDecode.Proofs.Preorder

/-!
# Flattening undoes decoding

The tree of a function says which events were accepted while its body was open, and in which order.
Bodies begin in the order of the functions, so that a body is open at most once, and what other
events do leaves the bodies alone. Conversely, the events of a tree are read as this tree.

* `Builder.Steps.of_reading`: while a body stays open, it takes up the events that are accepted.
* `Builder.Steps.begun_le`: which bodies have begun and ended so far.
* `Builder.Steps.codeAt_eq`: a body that has ended stays as it is.
* `Builder.Reading.steps_forest`: the events of a forest are accepted in an open body.
* `Builder.events_forest_eq`: a body in a run, from its begin to its end.
-/

namespace WasmDecode.Builder

variable {b b' c : Builder} {p : Nat} {o o' o'' : OpenBody} {e : Event} {i : UInt32}
  {events : List Event}

/-! ## While a body is open -/

theorem Reading.of_endBody (hb : b.Sound) (hr : b.Reading p o)
    (h : b.handle (.endBody i) = .ok () b') :
    i.toNat = p ∧ b' = b.closeBody ∧ ∃ f, o = .body f := by
  cases hb.accepts h with
  | endBody h' =>
    refine ⟨by simpa [h'.current] using hr.current, rfl, OpenBody.kind_label.mp ?_⟩
    have hl := h'.labels.symm.trans hr.labels
    simp only [OpenBody.labels, List.cons.injEq] at hl
    rw [← hl.1]
    rfl
  | code _ he => cases he
  | other he => cases he

/-- An event that is accepted while a body is open is read if it belongs to the instructions, and
otherwise leaves the body open, unless it ends it. -/
theorem Reading.next (hb : b.Sound) (hr : b.Reading p o) (h : b.handle e = .ok () b')
    (hn : ∀ i : UInt32, i.toNat = p → e ≠ .endBody i) :
    (∀ i, e ≠ .beginBody i) ∧
      ∃ o', b'.Reading p o' ∧ o'.events = o.events ++ [e].filter Event.isCode := by
  cases hc : e.isCode with
  | true =>
    obtain ⟨o', hs, ha⟩ := hr.of_code hc h
    refine ⟨fun i => ?_, o', ha.reading, ?_⟩
    · rintro rfl
      cases hc
    · simp [OpenBody.events_of_step? hs, hc]
  | false =>
    cases hb.accepts h with
    | beginBody hm => cases hm.labels.symm.trans hr.labels
    | code _ he => cases hc.symm.trans he
    | endBody hr' =>
      obtain ⟨hi, -⟩ := hr.of_endBody hb h
      exact absurd rfl (hn _ hi)
    | other he hk =>
      refine ⟨fun i => ?_, o, hk.reading hr, by simp [hc]⟩
      rintro rfl
      cases he

/-- **An open body** takes up the events that are accepted and belong to its instructions. No other
body begins meanwhile. -/
theorem Steps.of_reading (h : b.Steps events c) (hb : b.Sound) (hr : b.Reading p o)
    (hn : ∀ i : UInt32, i.toNat = p → .endBody i ∉ events) :
    (∀ i, .beginBody i ∉ events) ∧
      ∃ o', c.Reading p o' ∧ o'.events = o.events ++ events.filter Event.isCode := by
  induction h generalizing o with
  | nil => exact ⟨by simp, o, hr, by simp⟩
  | cons he hs ih =>
    simp only [List.mem_cons, not_or] at hn
    obtain ⟨hne, o', hr', ho'⟩ := hr.next hb he fun i hi => Ne.symm (hn i hi).1
    obtain ⟨hne', o'', hr'', ho''⟩ := ih (hb.of_accepts (hb.accepts he)) hr' fun i hi => (hn i hi).2
    refine ⟨fun i => ?_, o'', hr'', ?_⟩
    · simp [(hne i).symm, hne' i]
    · rw [ho'', ho', List.append_assoc, ← List.filter_append]
      rfl

/-! ## The events of a forest -/

theorem Reading.refl (h : b.Reading p o) : b.Advances p o b :=
  ⟨h, fun _ _ => rfl, rfl, rfl, rfl, rfl⟩

theorem Advances.trans (h : b.Advances p o' b') (h' : b'.Advances p o'' c) : b.Advances p o'' c :=
  ⟨h'.reading, fun q hq => (h'.other q hq).trans (h.other q hq), h'.bodiesRead.trans h.bodiesRead,
    h'.imported.trans h.imported, h'.size.trans h.size, h'.types.trans h.types⟩

/-- **The events of a forest** are accepted in an open body that has room for it, and read. -/
theorem Reading.steps_forest (f : Forest) (h : b.Reading p o)
    (hf : f.All (Instr.Checks b.module.types.size)) (hs : o.size + f.size ≤ Arena.capacity) :
    ∃ c, b.Steps f.events c ∧ b.Advances p (o.add f) c := by
  induction f generalizing b o with
  | nil => exact ⟨b, .nil, o.add_nil.symm ▸ h.refl⟩
  | plain i rest ih =>
    obtain ⟨hi, hrest⟩ := hf
    simp only [Forest.size] at hs
    obtain ⟨b₁, h₁, a₁⟩ := h.handle_instr hi (by omega)
    obtain ⟨c, h₂, a₂⟩ := ih a₁.reading (a₁.types ▸ hrest) (by simp [Forest.size]; omega)
    rw [OpenBody.add_add] at a₂
    exact ⟨c, .cons h₁ h₂, a₁.trans a₂⟩
  | scope kind sig body rest ihb ihr =>
    obtain ⟨hbody, hrest⟩ := hf
    simp only [Forest.size] at hs
    obtain ⟨b₁, h₁, a₁⟩ := h.handle_beginScope (by omega) kind sig
    obtain ⟨b₂, h₂, a₂⟩ := ihb a₁.reading (a₁.types ▸ hbody)
      (by simp [OpenBody.size, Forest.size]; omega)
    have a₂ := a₁.trans a₂
    obtain ⟨b₃, h₃, a₃⟩ := a₂.reading.handle_endScope rfl
    have a₃ := a₂.trans a₃
    obtain ⟨c, h₄, a₄⟩ := ihr a₃.reading (a₃.types ▸ hrest)
      (by simp [Forest.append, Forest.size]; omega)
    rw [OpenBody.add_add] at a₄
    exact ⟨c, .cons h₁ (h₂.append (.cons h₃ h₄)), a₃.trans a₄⟩
  | ifElse sig thenArm elseArm rest iht ihe ihr =>
    obtain ⟨hthen, helse, hrest⟩ := hf
    simp only [Forest.size] at hs
    obtain ⟨b₁, h₁, a₁⟩ := h.handle_beginScope (by omega) .ifThen sig
    obtain ⟨b₂, h₂, a₂⟩ := iht a₁.reading (a₁.types ▸ hthen)
      (by simp [OpenBody.size, Forest.size]; omega)
    have a₂ := a₁.trans a₂
    obtain ⟨b₃, h₃, a₃⟩ := a₂.reading.handle_elseArm rfl
    have a₃ := a₂.trans a₃
    obtain ⟨b₄, h₄, a₄⟩ := ihe a₃.reading (a₃.types ▸ helse)
      (by simp [OpenBody.size, Forest.append, Forest.size]; omega)
    have a₄ := a₃.trans a₄
    obtain ⟨b₅, h₅, a₅⟩ := a₄.reading.handle_endScope rfl
    have a₅ := a₄.trans a₅
    obtain ⟨c, h₆, a₆⟩ := ihr a₅.reading (a₅.types ▸ hrest)
      (by simp [Forest.append, Forest.size]; omega)
    rw [OpenBody.add_add] at a₆
    exact ⟨c, .cons h₁ (h₂.append (.cons h₃ (h₄.append (.cons h₅ h₆)))), a₅.trans a₆⟩

/-! ## Before and after -/

theorem Accepts.of_beginBody (h : b.Accepts (.beginBody i) b') : b.MayBegin i ∧ b' = b.openBody i := by
  cases h with
  | beginBody h => exact ⟨h, rfl⟩
  | code _ he => cases he
  | other he => cases he

theorem Accepts.begun_le (h : b.Accepts e b') (hb : b.Sound) :
    b.begun ≤ b'.begun ∧ ∀ i, e.body? = some i → i.toNat < b'.begun := by
  cases h with
  | beginBody hm =>
    refine ⟨Nat.le_succ _, fun i hi => ?_⟩
    cases hi
    rw [hm.eq_begun]
    exact Nat.lt_succ_self _
  | code _ he _ ha => simp [ha.begun_eq, Event.body?_of_isCode he]
  | endBody hr =>
    refine ⟨Nat.le_refl _, fun i hi => ?_⟩
    cases hi
    exact hb.lt_begun _ hr.current
  | other he hk => simp [hk.begun_le, Event.body?_of_not_isBody he]

/-- The bodies that begin or end in a run come before the next one. -/
theorem Steps.begun_le (h : b.Steps events c) (hb : b.Sound) :
    b.begun ≤ c.begun ∧ ∀ e ∈ events, ∀ i, e.body? = some i → i.toNat < c.begun := by
  induction h with
  | nil => simp
  | cons he hs ih =>
    have ha := hb.accepts he
    obtain ⟨hle, hlt⟩ := ha.begun_le hb
    obtain ⟨hle', hlt'⟩ := ih (hb.of_accepts ha)
    refine ⟨Nat.le_trans hle hle', List.forall_mem_cons.mpr ⟨fun i hi => ?_, hlt'⟩⟩
    exact Nat.lt_of_lt_of_le (hlt i hi) hle'

/-- The body of the function at position `p` is not open and does not begin any more. -/
structure Settled (b : Builder) (p : Nat) : Prop where
  lt_size : p < b.module.funcs.size
  lt_begun : p < b.begun
  current : b.currentFunc ≠ some p

theorem Accepts.settled (h : b.Accepts e b') (hs : b.Settled p) :
    b'.Settled p ∧ b'.codeAt p = b.codeAt p ∧ ∀ i, e.body? = some i → i.toNat ≠ p := by
  cases h with
  | @beginBody j hm =>
    have hj : j.toNat ≠ p := by
      rw [hm.eq_begun]
      exact Nat.ne_of_gt hs.lt_begun
    refine ⟨⟨hs.lt_size, Nat.lt_succ_of_lt hs.lt_begun, ?_⟩, rfl, fun i hi => ?_⟩
    · simpa [openBody] using hj
    · cases hi
      exact hj
  | @code q _ _ _ _ hr he _ ha =>
    have hq : p ≠ q := by
      rintro rfl
      exact hs.current hr.current
    refine ⟨⟨ha.size ▸ hs.lt_size, ha.begun_eq ▸ hs.lt_begun, ?_⟩, ha.other p hq, ?_⟩
    · simpa [ha.reading.current] using hq.symm
    · simp [Event.body?_of_isCode he]
  | endBody hr =>
    refine ⟨⟨hs.lt_size, hs.lt_begun, by simp [closeBody]⟩, rfl, fun i hi => ?_⟩
    cases hi
    rintro rfl
    exact hs.current hr.current
  | other he hk =>
    refine ⟨⟨?_, ?_, ?_⟩, hk.code p, ?_⟩
    · exact Nat.lt_of_lt_of_le hs.lt_size hk.size
    · exact Nat.lt_of_lt_of_le hs.lt_begun hk.begun_le
    · rw [hk.currentFunc]
      exact hs.current
    · simp [Event.body?_of_not_isBody he]

/-- **A body that has ended** stays as it is, and neither begins nor ends again. -/
theorem Steps.settled (h : b.Steps events c) (hb : b.Sound) (hs : b.Settled p) :
    c.Settled p ∧ c.codeAt p = b.codeAt p ∧
      ∀ e ∈ events, ∀ i, e.body? = some i → i.toNat ≠ p := by
  induction h with
  | nil => simp [hs]
  | cons he _ ih =>
    have ha := hb.accepts he
    obtain ⟨hs₁, hcode₁, hne₁⟩ := ha.settled hs
    obtain ⟨hs₂, hcode₂, hne₂⟩ := ih (hb.of_accepts ha) hs₁
    exact ⟨hs₂, hcode₂.trans hcode₁, List.forall_mem_cons.mpr ⟨hne₁, hne₂⟩⟩

/-! ## A body in a run -/

/-- From the begin of a body to its end and on: what was accepted before the end is the body. -/
theorem Steps.body {inside after : List Event} (hb : b.Sound)
    (h : b.Steps (.beginBody i :: (inside ++ .endBody i :: after)) c)
    (hend : .endBody i ∉ inside) :
    c.Settled i.toNat ∧ (∀ e ∈ inside ++ after, e.body? ≠ some i) ∧
      ∃ f : Forest, (c.codeAt i.toNat).Spells (.body f) ∧
        f.events = inside.filter Event.isCode := by
  obtain _ | ⟨h₁, h⟩ := h
  obtain ⟨b₂, hinside, h⟩ := h.exists_of_append
  obtain _ | ⟨h₂, hafter⟩ := h
  have hb₁ := hb.of_accepts (hb.accepts h₁)
  have hb₂ := hinside.sound hb₁
  obtain ⟨hm, rfl⟩ := (hb.accepts h₁).of_beginBody
  obtain ⟨hbegin, o, hr₂, ho⟩ := hinside.of_reading hb₁ (hm.reading hb) fun j hj => by
    rwa [UInt32.toNat_inj.mp hj]
  obtain ⟨-, rfl, f, rfl⟩ := hr₂.of_endBody hb₂ h₂
  have hs : b₂.closeBody.Settled i.toNat :=
    ⟨hr₂.lt_size, hb₂.lt_begun _ hr₂.current, by simp [closeBody]⟩
  obtain ⟨hc, hcode, hne⟩ := hafter.settled (hb₂.of_closeBody hr₂) hs
  refine ⟨hc, fun e he hi => ?_, f, ?_, ho⟩
  · rcases List.mem_append.mp he with he | he
    · rcases Event.body?_eq_some.mp hi with rfl | rfl
      · exact hbegin i he
      · exact hend he
    · exact hne e he i hi rfl
  · rw [hcode]
    exact hr₂.spells

/-- **Flattening undoes decoding.** After any events, take a body that was begun and ended. It was
begun once and ended once, later; and the events of its tree, in pre-order, are the events of
instructions that were accepted in between, apart from each `else` that held none. -/
theorem events_forest_eq (events : List Event) (i : UInt32)
    (hbegin : .beginBody i ∈ ({} : Builder).accepted events)
    (hend : .endBody i ∈ ({} : Builder).accepted events) :
    ∃ f before inside after,
      (({} : Builder).run events).module.funcs.items[i.toNat]? = some f ∧
      ({} : Builder).accepted events =
        before ++ .beginBody i :: (inside ++ .endBody i :: after) ∧
      (∀ e ∈ before ++ inside ++ after, e.body? ≠ some i) ∧
      ∀ n, f.arena.size ≤ n →
        (f.arena.forest n f.first).events = Event.dropEmptyElse (inside.filter Event.isCode) := by
  have hsteps := sound_empty.steps_accepted events
  obtain ⟨before, rest, hacc, -⟩ := List.eq_append_cons_of_mem hbegin
  rw [hacc] at hsteps hend ⊢
  obtain ⟨b, hbefore, hrest⟩ := hsteps.exists_of_append
  have hb := hbefore.sound sound_empty
  -- No event before has to do with this body, since it is the next one to begin.
  have hne : ∀ e ∈ before, e.body? ≠ some i := by
    intro e he hi
    have hlt := (hbefore.begun_le sound_empty).2 e he i hi
    obtain _ | ⟨h, -⟩ := hrest
    rw [(hb.accepts h).of_beginBody.1.eq_begun] at hlt
    exact Nat.lt_irrefl _ hlt
  have hend : .endBody i ∈ rest := by
    rcases List.mem_append.mp hend with h | h
    · exact absurd rfl (hne _ h)
    · simpa using h
  obtain ⟨inside, after, rfl, hinside⟩ := List.eq_append_cons_of_mem hend
  obtain ⟨hs, hne', f, hf, hevents⟩ := hrest.body hb hinside
  obtain ⟨func, hfunc, hcode⟩ := getElem?_of_lt hs.lt_size
  rw [← hcode] at hf
  refine ⟨func, before, inside, after, hfunc, rfl, fun e he => ?_, fun n hn => ?_⟩
  · rw [List.append_assoc] at he
    rcases List.mem_append.mp he with he | he
    · exact hne e he
    · exact hne' e he
  · have := hf.forest_eq hn
    rw [Func.code_arena, Func.code_first] at this
    rw [this, Forest.events_dropEmptyElse, ← hevents]
    simp [OpenBody.close]

/-- A body with an `if` in the `else` of another, whose own `else` is empty. Between its events
stand some that are refused. -/
theorem events_forest_eq_nested_else :
    let events : List Event := [.funcType 0 [] [], .define 0 (.func 0), .elseArm, .beginBody 0,
      .beginScope .ifThen [], .instr .nop, .elseArm, .elseArm, .beginScope .ifThen [], .elseArm,
      .endScope, .endBody 0, .beginBody 0, .endScope, .endBody 0, .instr .drop]
    .beginBody 0 ∈ ({} : Builder).accepted events ∧ .endBody 0 ∈ ({} : Builder).accepted events ∧
      ∃ f before inside after,
        (({} : Builder).run events).module.funcs.items[0]? = some f ∧
        ({} : Builder).accepted events =
          before ++ .beginBody 0 :: (inside ++ .endBody 0 :: after) ∧
        (f.arena.forest 3 f.first).events = Event.dropEmptyElse (inside.filter Event.isCode) := by
  intro events
  have hacc : ({} : Builder).accepted events = [.funcType 0 [] [], .define 0 (.func 0),
    .beginBody 0, .beginScope .ifThen [], .instr .nop, .elseArm, .beginScope .ifThen [], .elseArm,
    .endScope, .endScope, .endBody 0] := rfl
  have hbegin : .beginBody 0 ∈ ({} : Builder).accepted events := by simp [hacc]
  have hend : .endBody 0 ∈ ({} : Builder).accepted events := by simp [hacc]
  obtain ⟨f, before, inside, after, hf, hsplit, -, hevents⟩ := events_forest_eq events 0 hbegin hend
  have hsize : f.arena.size = 3 := by
    cases hf
    rfl
  exact ⟨hbegin, hend, f, before, inside, after, hf, hsplit, hevents 3 (by omega)⟩

end WasmDecode.Builder
