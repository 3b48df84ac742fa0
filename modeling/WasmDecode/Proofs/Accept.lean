import WasmDecode.Proofs.Reading

/-!
# Accepting events

What an event can do to a builder, said once for all that is proved about runs, and runs over many
events.

* `Builder.Sound`: in every function the instructions of a body are spelled, and what is open of
  one agrees with the labels.
* `Builder.Accepts`: what an event that is accepted does to the bodies.
* `Builder.Sound.handle_cases`: on a sound builder an event is accepted or changes nothing.
* `Builder.Sound.of_accepts`: and leads to a sound builder.
* `Builder.Steps`: runs in which every event is accepted.
* `Builder.accepted`: the events of a list that are accepted. To pass over the others is to leave
  them out (`Builder.Sound.steps_accepted`).
* `Builder.sound_run`: what a run leads to is sound.
-/

namespace WasmDecode.Builder

variable {b b' c : Builder} {p : Nat} {o : OpenBody} {e : Event} {i : UInt32}

/-- Bodies begin in the order of the functions. This is the position of the next one. -/
def begun (b : Builder) : Nat := b.module.funcs.imported + b.bodiesRead

/-- The body of the function at an index may begin. -/
structure MayBegin (b : Builder) (i : UInt32) : Prop where
  labels : b.labels = []
  lt_size : i.toNat < b.module.funcs.size
  eq_begun : i.toNat = b.begun

/-- Begins the body of the function at an index. -/
def openBody (b : Builder) (i : UInt32) : Builder :=
  { b with
    bodiesRead := b.bodiesRead + 1
    currentFunc := some i.toNat
    labels := (OpenBody.body .nil).labels
    maxDepth := max b.maxDepth 1 }

/-- Ends the body that is open. -/
def closeBody (b : Builder) : Builder := { b with labels := [], currentFunc := none }

/-- What holds of every builder. -/
structure Sound (b : Builder) : Prop where
  idle : b.currentFunc = none → b.labels = []
  lt_begun : ∀ p, b.currentFunc = some p → p < b.begun
  reading : ∀ p, b.currentFunc = some p → ∃ o, b.Reading p o
  spells : ∀ p, b.currentFunc ≠ some p → ∃ f, (b.codeAt p).Spells (.body f)
  unread : ∀ p, b.begun ≤ p → b.codeAt p = {}

/-! ## The ends of a body -/

theorem handle_beginBody (h : b.MayBegin i) : b.handle (.beginBody i) = .ok () (b.openBody i) := by
  have hi : b.module.funcs.imported ≤ i.toNat := by
    rw [h.eq_begun]
    exact Nat.le_add_right _ _
  have hn : i.toNat = b.module.funcs.imported + b.bodiesRead := h.eq_begun
  show (Build.beginBody i).run b = _
  simp only [Build.beginBody, EStateM.run_bind, EStateM.run_get, Build.run_require, h.labels,
    if_true, Build.funcPosition, h.lt_size, EStateM.run_pure, hi, ← hn, EStateM.run_modify,
    Build.pushLabel]
  rfl

theorem handle_beginBody_error (h : ¬ b.MayBegin i) :
    ∃ stop, b.handle (.beginBody i) = .error stop b := by
  show ∃ stop, (Build.beginBody i).run b = _
  by_cases hl : b.labels = []
  · by_cases hs : i.toNat < b.module.funcs.size
    · by_cases hi : b.module.funcs.imported ≤ i.toNat
      · have hn : i.toNat ≠ b.module.funcs.imported + b.bodiesRead := fun hn => h ⟨hl, hs, hn⟩
        simp [Build.beginBody, Build.funcPosition, hl, hs, hi, hn]
      · simp [Build.beginBody, Build.funcPosition, hl, hs, hi]
    · simp [Build.beginBody, Build.funcPosition, hl, hs]
  · simp [Build.beginBody, hl]

theorem handle_endBody {f : Forest} (h : b.Reading i.toNat (.body f)) :
    b.handle (.endBody i) = .ok () b.closeBody := by
  show (Build.endBody i).run b = _
  simp only [Build.endBody, EStateM.run_bind, EStateM.run_get, h.current, Build.run_require,
    if_true, Build.run_innermost h.labels, OpenBody.label, Build.popLabel, h.labels,
    OpenBody.labels, EStateM.run_modify]
  rfl

theorem handle_endBody_error (hb : b.Sound) (h : ∀ f, ¬ b.Reading i.toNat (.body f)) :
    ∃ stop, b.handle (.endBody i) = .error stop b := by
  show ∃ stop, (Build.endBody i).run b = _
  by_cases hc : b.currentFunc = some i.toNat
  · obtain ⟨o, ho⟩ := hb.reading _ hc
    have hk : o.label.kind ≠ .func := by
      rw [ne_eq, OpenBody.kind_label]
      rintro ⟨f, rfl⟩
      exact h f ho
    simp [Build.endBody, hc, Build.run_innermost ho.labels, hk]
  · simp [Build.endBody, hc]

/-! ## The events that are accepted -/

/-- What an event that is accepted does to the bodies of the functions. -/
inductive Accepts (b : Builder) : Event → Builder → Prop
  | beginBody {i : UInt32} (h : b.MayBegin i) : Accepts b (.beginBody i) (b.openBody i)
  | code {p : Nat} {o o' : OpenBody} {e : Event} {b' : Builder} (h : b.Reading p o)
    (he : e.isCode = true) (hs : o.step? e = some o') (h' : b.Advances p o' b') : Accepts b e b'
  | endBody {i : UInt32} {f : Forest} (h : b.Reading i.toNat (.body f)) :
    Accepts b (.endBody i) b.closeBody
  | other {e : Event} {b' : Builder} (he : e.isBody = false) (h : b.KeepsBodies b') : Accepts b e b'

/-- **Every event is accepted or changes nothing.** -/
theorem Sound.handle_cases (hb : b.Sound) (e : Event) :
    (∃ b', b.handle e = .ok () b' ∧ b.Accepts e b') ∨ ∃ stop, b.handle e = .error stop b := by
  cases he : e.isBody with
  | false =>
    rcases Build.guarded_handle he b with ⟨_, b', h, hk⟩ | h
    · exact .inl ⟨b', h, .other he hk⟩
    · exact .inr h
  | true =>
    by_cases hc : e.isCode = true
    · -- What belongs to instructions goes to the open body, if there is one.
      cases hf : b.currentFunc with
      | none => exact .inr (handle_error_of_closed (hb.idle hf) hc)
      | some p =>
        obtain ⟨o, ho⟩ := hb.reading p hf
        by_cases hs : ∃ o', o.step? e = some o' ∧ e.Fits b.module.types.size o.size
        · obtain ⟨o', hs, hfits⟩ := hs
          obtain ⟨b', h, ha⟩ := ho.handle_ok hs hfits
          exact .inl ⟨b', h, .code ho hc hs ha⟩
        · exact .inr (ho.handle_error hc hs)
    · cases e with
      | beginBody i =>
        by_cases hm : b.MayBegin i
        · exact .inl ⟨_, handle_beginBody hm, .beginBody hm⟩
        · exact .inr (handle_beginBody_error hm)
      | endBody i =>
        by_cases hr : ∃ f, b.Reading i.toNat (.body f)
        · obtain ⟨f, hr⟩ := hr
          exact .inl ⟨_, handle_endBody hr, .endBody hr⟩
        · exact .inr (handle_endBody_error hb (not_exists.mp hr))
      | instr | beginScope | elseArm | endScope => exact absurd rfl hc
      | _ => cases he

theorem Sound.accepts (hb : b.Sound) (h : b.handle e = .ok () b') : b.Accepts e b' := by
  rcases hb.handle_cases e with ⟨b₁, h₁, ha⟩ | ⟨stop, h₁⟩
  · cases h.symm.trans h₁
    exact ha
  · cases h.symm.trans h₁

/-! ## What every builder keeps -/

theorem codeAt_of_getElem? {f : Func} (h : b.module.funcs.items[p]? = some f) :
    b.codeAt p = f.code := by
  simp [codeAt, h]

theorem getElem?_of_lt (h : p < b.module.funcs.size) :
    ∃ f, b.module.funcs.items[p]? = some f ∧ f.code = b.codeAt p := by
  refine ⟨_, Array.getElem?_eq_getElem h, ?_⟩
  rw [codeAt_of_getElem? (Array.getElem?_eq_getElem h)]

theorem Reading.lt_size (h : b.Reading p o) : p < b.module.funcs.size := by
  obtain ⟨f, hf, -⟩ := h.exists_func
  obtain ⟨hp, -⟩ := Array.getElem?_eq_some_iff.mp hf
  exact hp

theorem Reading.spells (h : b.Reading p o) : (b.codeAt p).Spells o := by
  obtain ⟨f, hf, ho⟩ := h.exists_func
  rwa [codeAt_of_getElem? hf]

theorem Reading.of_spells (hc : b.currentFunc = some p) (hl : b.labels = o.labels)
    (hp : p < b.module.funcs.size) (h : (b.codeAt p).Spells o) : b.Reading p o := by
  obtain ⟨f, hf, hcode⟩ := getElem?_of_lt hp
  exact ⟨hc, hl, f, hf, by rwa [hcode]⟩

theorem KeepsBodies.reading (h : b.KeepsBodies b') (hr : b.Reading p o) : b'.Reading p o :=
  .of_spells (h.currentFunc.trans hr.current) (h.labels.trans hr.labels)
    (Nat.lt_of_lt_of_le hr.lt_size h.size) (by
      rw [h.code]
      exact hr.spells)

theorem KeepsBodies.begun_le (h : b.KeepsBodies b') : b.begun ≤ b'.begun := by
  unfold begun
  rw [h.bodiesRead]
  exact Nat.add_le_add_right h.imported _

theorem Advances.begun_eq {o' : OpenBody} (h : b.Advances p o' b') : b'.begun = b.begun := by
  unfold begun
  rw [h.imported, h.bodiesRead]

theorem spells_nil : (({} : Code)).Spells (.body .nil) := ⟨rfl, rfl⟩

theorem Sound.of_keepsBodies (hb : b.Sound) (h : b.KeepsBodies b') : b'.Sound := by
  refine ⟨fun hc => ?_, fun p hc => ?_, fun p hc => ?_, fun p hc => ?_, fun p hp => ?_⟩
  · rw [h.labels]
    exact hb.idle (h.currentFunc.symm.trans hc)
  · exact Nat.lt_of_lt_of_le (hb.lt_begun p (h.currentFunc.symm.trans hc)) h.begun_le
  · obtain ⟨o, ho⟩ := hb.reading p (h.currentFunc.symm.trans hc)
    exact ⟨o, h.reading ho⟩
  · rw [h.code]
    exact hb.spells p fun hc' => hc (h.currentFunc.trans hc')
  · rw [h.code]
    exact hb.unread p (Nat.le_trans h.begun_le hp)

theorem MayBegin.reading (h : b.MayBegin i) (hb : b.Sound) :
    (b.openBody i).Reading i.toNat (.body .nil) := by
  have hcode : b.codeAt i.toNat = {} := hb.unread _ (Nat.le_of_eq h.eq_begun.symm)
  exact .of_spells rfl rfl h.lt_size (hcode ▸ spells_nil)

theorem Sound.currentFunc_eq_none (hb : b.Sound) (h : b.labels = []) : b.currentFunc = none := by
  cases hc : b.currentFunc with
  | none => rfl
  | some p =>
    obtain ⟨o, ho⟩ := hb.reading p hc
    cases h.symm.trans ho.labels

theorem Sound.of_openBody (hb : b.Sound) (h : b.MayBegin i) : (b.openBody i).Sound := by
  refine ⟨fun hc => ?_, fun p hc => ?_, fun p hc => ?_, fun p hc => ?_, fun p hp => ?_⟩
  · cases hc
  · cases hc
    rw [h.eq_begun]
    exact Nat.lt_succ_self _
  · cases hc
    exact ⟨.body .nil, h.reading hb⟩
  · exact hb.spells p (by simp [hb.currentFunc_eq_none h.labels])
  · exact hb.unread p (Nat.le_of_succ_le hp)

theorem Sound.of_advances (hb : b.Sound) {o' : OpenBody} (hr : b.Reading p o)
    (h : b.Advances p o' b') : b'.Sound := by
  have hbegun := h.begun_eq
  refine ⟨fun hc => ?_, fun q hq => ?_, fun q hq => ?_, fun q hq => ?_, fun q hq => ?_⟩
  · cases h.reading.current.symm.trans hc
  · cases h.reading.current.symm.trans hq
    exact Nat.lt_of_lt_of_eq (hb.lt_begun p hr.current) hbegun.symm
  · cases h.reading.current.symm.trans hq
    exact ⟨o', h.reading⟩
  · have hqp : q ≠ p := fun hqp => hq (hqp ▸ h.reading.current)
    rw [h.other q hqp]
    exact hb.spells q (by simpa [hr.current] using hqp.symm)
  · -- The body that is open has begun, so it is not among those that are still to come.
    have hqp : q ≠ p := by
      rintro rfl
      exact Nat.lt_irrefl _ (Nat.lt_of_lt_of_le (hb.lt_begun q hr.current) (hbegun ▸ hq))
    rw [h.other q hqp]
    exact hb.unread q (hbegun ▸ hq)

theorem Sound.of_closeBody (hb : b.Sound) {f : Forest} (h : b.Reading p (.body f)) :
    b.closeBody.Sound := by
  refine ⟨fun _ => rfl, fun q hq => ?_, fun q hq => ?_, fun q _ => ?_, fun q hq => hb.unread q hq⟩
  · cases hq
  · cases hq
  · by_cases hqp : q = p
    · subst hqp
      exact ⟨f, h.spells⟩
    · exact hb.spells q (by simpa [h.current] using Ne.symm hqp)

theorem sound_empty : ({} : Builder).Sound where
  idle _ := rfl
  lt_begun _ h := by cases h
  reading _ h := by cases h
  spells _ _ := ⟨.nil, spells_nil⟩
  unread _ _ := rfl

theorem Sound.of_accepts (hb : b.Sound) (h : b.Accepts e b') : b'.Sound := by
  cases h with
  | beginBody h => exact hb.of_openBody h
  | code h _ _ h' => exact hb.of_advances h h'
  | endBody h => exact hb.of_closeBody h
  | other _ h => exact hb.of_keepsBodies h

theorem Sound.step (hb : b.Sound) (e : Event) : (b.step e).Sound := by
  rcases hb.handle_cases e with ⟨b', he, ha⟩ | ⟨stop, he⟩
  · simpa [Builder.step, he] using hb.of_accepts ha
  · simpa [Builder.step, he] using hb

/-! ## Runs -/

variable {events events' : List Event}

/-- Runs in which every event is accepted. -/
inductive Steps : Builder → List Event → Builder → Prop
  | nil {b : Builder} : Steps b [] b
  | cons {b b' c : Builder} {e : Event} {events : List Event} (h : b.handle e = .ok () b')
    (hs : Steps b' events c) : Steps b (e :: events) c

/-- The events of a list that are accepted, where the others are passed over. -/
def accepted (b : Builder) : List Event → List Event
  | [] => []
  | e :: events =>
    match b.handle e with
    | .ok () b' => e :: b'.accepted events
    | .error _ b' => b'.accepted events

theorem Steps.append (h : b.Steps events b') (h' : b'.Steps events' c) :
    b.Steps (events ++ events') c := by
  induction h with
  | nil => exact h'
  | cons he _ ih => exact .cons he (ih h')

theorem Steps.exists_of_append (h : b.Steps (events ++ events') c) :
    ∃ b', b.Steps events b' ∧ b'.Steps events' c := by
  induction events generalizing b with
  | nil => exact ⟨b, .nil, h⟩
  | cons e events ih =>
    cases h with
    | cons he hs =>
      obtain ⟨b', h₁, h₂⟩ := ih hs
      exact ⟨b', .cons he h₁, h₂⟩

theorem Steps.run_eq (h : b.Steps events c) : b.run events = c := by
  induction h with
  | nil => rfl
  | cons he _ ih => simpa [run, step, he] using ih

theorem Steps.sound (hb : b.Sound) (h : b.Steps events c) : c.Sound := by
  induction h with
  | nil => exact hb
  | cons he _ ih => exact ih (hb.of_accepts (hb.accepts he))

/-- **Passing over is leaving out.** A run over any events goes through the same builders as the run
over those that are accepted. -/
theorem Sound.steps_accepted (hb : b.Sound) (events : List Event) :
    b.Steps (b.accepted events) (b.run events) := by
  induction events generalizing b with
  | nil => exact .nil
  | cons e events ih =>
    rcases hb.handle_cases e with ⟨b', he, ha⟩ | ⟨stop, he⟩
    · simpa [accepted, run, Builder.step, he] using Steps.cons he (ih (hb.of_accepts ha))
    · simpa [accepted, run, Builder.step, he] using ih hb

theorem sound_run (events : List Event) : (({} : Builder).run events).Sound :=
  (sound_empty.steps_accepted events).sound sound_empty

end WasmDecode.Builder
