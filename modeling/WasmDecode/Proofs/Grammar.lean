import WasmDecode.Proofs.Flatten

/-!
# Bodies as words

The events of a body are the words of a grammar. A builder refuses an event of a body as soon as
what has been told of the body can no longer be completed to a word, and not before.

* `Grammar.Body`: the words of the grammar; `Grammar.body_iff` says that each is told by a forest.
* `OpenBody.reads?`: what has been read of a body after some more events. It is there as long as the
  events are a prefix of a word (`OpenBody.isPrefix_iff`).
* `Builder.accepts_iff_isPrefix`: the events that a builder accepts while a body is open.
-/

namespace WasmDecode

/-! ## The grammar -/

namespace Grammar

mutual

/-- A single instruction with all that lies in it. -/
inductive Item : List Event → Prop
  | plain (i : Instr) : Item [.instr i]
  | scope (kind : ScopeKind) (sig : List ValueType) {body : List Event} (h : Body body) :
    Item (.beginScope kind sig :: (body ++ [.endScope]))
  | ifElse (sig : List ValueType) {thenArm elseArm : List Event} (ht : Body thenArm)
    (he : Body elseArm) :
    Item (.beginScope .ifThen sig :: (thenArm ++ .elseArm :: (elseArm ++ [.endScope])))

/-- Any number of instructions in a row. -/
inductive Body : List Event → Prop
  | nil : Body []
  | cons {item rest : List Event} (hi : Item item) (hr : Body rest) : Body (item ++ rest)

end

mutual

theorem Item.exists_forest {w : List Event} (h : Item w) : ∃ f : Forest, f.events = w :=
  match h with
  | .plain i => ⟨.plain i .nil, rfl⟩
  | .scope kind sig h => by
    obtain ⟨f, rfl⟩ := h.exists_forest
    exact ⟨.scope kind sig f .nil, rfl⟩
  | .ifElse sig ht he => by
    obtain ⟨f, rfl⟩ := ht.exists_forest
    obtain ⟨g, rfl⟩ := he.exists_forest
    exact ⟨.ifElse sig f g .nil, rfl⟩

theorem Body.exists_forest {w : List Event} (h : Body w) : ∃ f : Forest, f.events = w :=
  match h with
  | .nil => ⟨.nil, rfl⟩
  | .cons hi hr => by
    obtain ⟨f, rfl⟩ := hi.exists_forest
    obtain ⟨g, rfl⟩ := hr.exists_forest
    exact ⟨f.append g, Forest.events_append f g⟩

end

theorem body_events (f : Forest) : Body f.events := by
  induction f with
  | nil => exact .nil
  | plain i rest ih => exact .cons (.plain i) ih
  | scope kind sig body rest ihb ihr =>
    simpa [Forest.events] using Body.cons (.scope kind sig ihb) ihr
  | ifElse sig thenArm elseArm rest iht ihe ihr =>
    simpa [Forest.events] using Body.cons (.ifElse sig iht ihe) ihr

/-- The words of the grammar are what forests tell. -/
theorem body_iff {w : List Event} : Body w ↔ ∃ f : Forest, f.events = w := by
  refine ⟨Body.exists_forest, ?_⟩
  rintro ⟨f, rfl⟩
  exact body_events f

end Grammar

/-! ## Reading a prefix -/

namespace OpenBody

variable {o o' : OpenBody} {e : Event} {w : List Event}

/-- What has been read after some more events of a body, if all of them fit. -/
def reads? (o : OpenBody) (events : List Event) : Option OpenBody := events.foldlM step? o

theorem reads?_append (w v : List Event) :
    o.reads? (w ++ v) = (o.reads? w).bind fun o' => o'.reads? v :=
  List.foldlM_append

theorem reads?_cons (v : List Event) :
    o.reads? (e :: v) = (o.step? e).bind fun o' => o'.reads? v :=
  List.foldlM_cons

/-- The events of a forest fit everywhere. -/
theorem reads?_forest (f : Forest) : o.reads? f.events = some (o.add f) := by
  induction f generalizing o with
  | nil => exact congrArg some o.add_nil.symm
  | plain i rest ih =>
    rw [Forest.events, reads?_cons, step?_instr, Option.bind_some, ih, add_add]
    rfl
  | scope kind sig body rest ihb ihr =>
    have hbody : (scope o kind sig .nil).add body = scope o kind sig body := rfl
    rw [Forest.events, reads?_cons, step?_beginScope, Option.bind_some, reads?_append, ihb, hbody,
      Option.bind_some, reads?_cons, step?, Option.bind_some, ihr, add_add]
    rfl
  | ifElse sig thenArm elseArm rest iht ihe ihr =>
    have hthen : (scope o .ifThen sig .nil).add thenArm = scope o .ifThen sig thenArm := rfl
    have helse : (OpenBody.elseArm o sig thenArm .nil).add elseArm =
        .elseArm o sig thenArm elseArm := rfl
    rw [Forest.events, reads?_cons, step?_beginScope, Option.bind_some, reads?_append, iht, hthen,
      Option.bind_some, reads?_cons, step?, Option.bind_some, reads?_append, ihe, helse,
      Option.bind_some, reads?_cons, step?, Option.bind_some, ihr, add_add]
    rfl

/-- Reading is deterministic: the events that were read lead to what has been read, and to nothing
else. -/
theorem reads?_events (o : OpenBody) : (body .nil).reads? o.events = some o := by
  induction o with
  | body done => exact reads?_forest done
  | scope outer kind sig done ih =>
    rw [events, reads?_append, ih, Option.bind_some, reads?_cons, step?_beginScope,
      Option.bind_some, reads?_forest]
    rfl
  | elseArm outer sig thenArm done ih =>
    have hthen : (scope outer .ifThen sig .nil).add thenArm = scope outer .ifThen sig thenArm := rfl
    rw [events, reads?_append, ih, Option.bind_some, reads?_cons, step?_beginScope,
      Option.bind_some, reads?_append, reads?_forest, hthen, Option.bind_some, reads?_cons, step?,
      Option.bind_some, reads?_forest]
    rfl

/-- What has been read can be completed: all open scopes may end. -/
theorem events_isPrefix_close (o : OpenBody) (g : Forest) :
    o.events ++ g.events <+: (o.close g).events := by
  induction o generalizing g with
  | body done => simp [close, events]
  | scope outer kind sig done ih =>
    refine List.IsPrefix.trans ?_ (ih _)
    simp [events, Forest.events]
  | elseArm outer sig thenArm done ih =>
    refine List.IsPrefix.trans ?_ (ih _)
    simp [events, Forest.events]

/-- **Prefixes.** One more event fits if and only if it leads to a prefix of a word. -/
theorem isPrefix_iff :
    (∃ word, Grammar.Body word ∧ o.events ++ [e] <+: word) ↔ ∃ o', o.step? e = some o' := by
  constructor
  · rintro ⟨word, hword, v, rfl⟩
    obtain ⟨f, hf⟩ := hword.exists_forest
    -- A word is read to its end, and so is every prefix of it.
    have hread := reads?_forest (o := body .nil) f
    rw [hf, reads?_append, reads?_append, reads?_events, Option.bind_some, reads?_cons] at hread
    cases hs : o.step? e with
    | none => simp [hs] at hread
    | some o' => exact ⟨o', rfl⟩
  · rintro ⟨o', hs⟩
    refine ⟨(o'.close .nil).events, Grammar.body_events _, ?_⟩
    simpa [Forest.events, events_of_step? hs] using o'.events_isPrefix_close .nil

/-- **Words.** What has been read is a word if and only if no scope is open in the body. -/
theorem body_iff : Grammar.Body o.events ↔ ∃ f, o = body f := by
  constructor
  · intro h
    obtain ⟨f, hf⟩ := h.exists_forest
    have hread := reads?_forest (o := body .nil) f
    rw [hf, reads?_events] at hread
    exact ⟨f, Option.some.inj hread⟩
  · rintro ⟨f, rfl⟩
    exact Grammar.body_events f

end OpenBody

/-! ## What a builder accepts -/

namespace Builder

variable {b b' c : Builder} {p : Nat} {o : OpenBody} {e : Event} {i : UInt32} {events : List Event}

theorem stop?_eq_none : b.stop? e = none ↔ ∃ b', b.handle e = .ok () b' := by
  unfold stop?
  cases b.handle e <;> simp

theorem Reading.stop?_eq_none_iff (h : b.Reading p o) (he : e.isCode = true)
    (hf : e.Fits b.module.types.size o.size) : b.stop? e = none ↔ ∃ o', o.step? e = some o' := by
  rw [stop?_eq_none]
  constructor
  · rintro ⟨b', hb'⟩
    obtain ⟨o', hs, -⟩ := h.of_code he hb'
    exact ⟨o', hs⟩
  · rintro ⟨o', hs⟩
    obtain ⟨b', hb', -⟩ := h.handle_ok hs hf
    exact ⟨b', hb'⟩

theorem Reading.stop?_endBody_iff (h : b.Reading p o) (hb : b.Sound) (hi : i.toNat = p) :
    b.stop? (.endBody i) = none ↔ ∃ f, o = .body f := by
  subst hi
  rw [stop?_eq_none]
  constructor
  · rintro ⟨b', hb'⟩
    exact (h.of_endBody hb hb').2.2
  · rintro ⟨f, rfl⟩
    exact ⟨_, handle_endBody h⟩

/-- A body that is open has begun, and nothing has begun or ended since. -/
theorem Steps.exists_beginBody (h : b.Steps events c) (hb : b.Sound) (hc : c.currentFunc = some p) :
    (b.currentFunc = some p ∧ ∀ e ∈ events, e.body? = none) ∨
      ∃ before i inside, events = before ++ .beginBody i :: inside ∧ i.toNat = p ∧
        ∀ e ∈ inside, e.body? = none := by
  induction h with
  | nil => exact .inl ⟨hc, by simp⟩
  | @cons b b' c e events he hs ih =>
    have ha := hb.accepts he
    rcases ih (hb.of_accepts ha) hc with ⟨hcur, hnone⟩ | ⟨before, i, inside, rfl, hi, hnone⟩
    · cases ha with
      | beginBody hm => exact .inr ⟨[], _, events, rfl, Option.some.inj hcur, hnone⟩
      | code hr hcode _ hadv =>
        cases hadv.reading.current.symm.trans hcur
        exact .inl ⟨hr.current, by simpa [Event.body?_of_isCode hcode] using hnone⟩
      | endBody hr => cases hcur
      | other hbody hk =>
        rw [hk.currentFunc] at hcur
        exact .inl ⟨hcur, by simpa [Event.body?_of_not_isBody hbody] using hnone⟩
    · exact .inr ⟨e :: before, i, inside, rfl, hi, hnone⟩

/-- What has been read of the body that is open after a run: the events of instructions that were
accepted since it began. -/
theorem exists_reading_of_run (events : List Event)
    (hp : (({} : Builder).run events).currentFunc = some p) :
    ∃ i before inside o, i.toNat = p ∧
      ({} : Builder).accepted events = before ++ .beginBody i :: inside ∧
      (∀ e ∈ inside, e.body? = none) ∧ (({} : Builder).run events).Reading p o ∧
      o.events = inside.filter Event.isCode := by
  have hsteps := sound_empty.steps_accepted events
  rcases hsteps.exists_beginBody sound_empty hp with ⟨h, -⟩ | ⟨before, i, inside, hacc, rfl, hnone⟩
  · cases h
  rw [hacc] at hsteps
  obtain ⟨b, hbefore, hrest⟩ := hsteps.exists_of_append
  have hb := hbefore.sound sound_empty
  obtain _ | ⟨hbegin, hinside⟩ := hrest
  obtain ⟨hm, rfl⟩ := (hb.accepts hbegin).of_beginBody
  obtain ⟨-, o, hr, ho⟩ := hinside.of_reading (hb.of_openBody hm) (hm.reading hb) fun j _ hj => by
    cases hnone _ hj
  exact ⟨i, before, inside, o, rfl, hacc, hnone, hr, ho⟩

/-- **Earliest refusal.** After any events, take the body that is open, and the word of those events
of instructions that were accepted since it began. An event with proper operands and room in the
arena is accepted if and only if it leads to a prefix of a word of the grammar, and the end of the
body if and only if the word belongs to the grammar. -/
theorem accepts_iff_isPrefix (events : List Event) {p : Nat} {f : Func}
    (hp : (({} : Builder).run events).currentFunc = some p)
    (hf : (({} : Builder).run events).module.funcs.items[p]? = some f) :
    let b := ({} : Builder).run events
    ∃ i before inside, i.toNat = p ∧
      ({} : Builder).accepted events = before ++ .beginBody i :: inside ∧
      (∀ e ∈ inside, e.body? = none) ∧
      let word := inside.filter Event.isCode
      (∀ e, e.isCode = true → e.Fits b.module.types.size f.arena.size →
        (b.stop? e = none ↔ ∃ longer, Grammar.Body longer ∧ word ++ [e] <+: longer)) ∧
      (b.stop? (.endBody i) = none ↔ Grammar.Body word) := by
  intro b
  obtain ⟨i, before, inside, o, hi, hacc, hnone, hr, ho⟩ := exists_reading_of_run events hp
  have hsize : f.arena.size = o.size := by
    obtain ⟨f', hf', hspells⟩ := hr.exists_func
    cases hf.symm.trans hf'
    exact hspells.size_eq
  refine ⟨i, before, inside, hi, hacc, hnone, fun e he hfits => ?_, ?_⟩
  · rw [hsize] at hfits
    rw [← ho, OpenBody.isPrefix_iff]
    exact hr.stop?_eq_none_iff he hfits
  · rw [← ho, OpenBody.body_iff]
    exact hr.stop?_endBody_iff (sound_run events) hi

/-- In a loop behind the `else` of an `if`, a second `else` has been refused and would be again. The
`end` of the loop would be accepted, the end of the body not yet. -/
theorem accepts_iff_isPrefix_in_else :
    let events : List Event := [.funcType 0 [] [], .define 0 (.func 0), .beginBody 0,
      .beginScope .ifThen [], .elseArm, .elseArm, .instr .nop, .beginScope .loop []]
    let b := ({} : Builder).run events
    b.currentFunc = some 0 ∧ (∃ f, b.module.funcs.items[0]? = some f ∧ f.arena.size = 3) ∧
      ∃ i before inside, i.toNat = 0 ∧
        ({} : Builder).accepted events = before ++ .beginBody i :: inside ∧
        let word := inside.filter Event.isCode
        (¬ ∃ longer, Grammar.Body longer ∧ word ++ [.elseArm] <+: longer) ∧
        (∃ longer, Grammar.Body longer ∧ word ++ [.endScope] <+: longer) ∧ ¬ Grammar.Body word := by
  intro events b
  obtain ⟨f, hf, hsize⟩ : ∃ f, b.module.funcs.items[0]? = some f ∧ f.arena.size = 3 := ⟨_, rfl, rfl⟩
  obtain ⟨i, before, inside, hi, hacc, -, hcode, hend⟩ := accepts_iff_isPrefix events (p := 0) rfl hf
  have helse : b.stop? .elseArm ≠ none := by
    rw [show b.stop? .elseArm = some (.refused .elseWithoutIf) from rfl]
    nofun
  have hbody : b.stop? (.endBody i) ≠ none := by
    obtain rfl : i = 0 := UInt32.toNat_inj.mp hi
    rw [show b.stop? (.endBody 0) = some (.refused (.unclosedScope "end of function body" 2)) from rfl]
    nofun
  refine ⟨rfl, ⟨f, hf, hsize⟩, i, before, inside, hi, hacc, ?_, ?_, mt hend.mpr hbody⟩
  · exact mt (hcode .elseArm rfl trivial).mpr helse
  · exact (hcode .endScope rfl trivial).mp rfl

end Builder
end WasmDecode
