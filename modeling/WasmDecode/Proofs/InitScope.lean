import WasmDecode.Proofs.Grammar
import WasmDecode.Proofs.Growth
import WasmDecode.Proofs.References

/-!
# Init expressions

The init expression of a global or of a segment is open from the event that begins it to the one
that ends it. Meanwhile it may get a value. It can be opened again, and a definition can be left
without a value, but no definition gets a second one.

* `Event.openInit`: the definition whose init expression is open after the events of a list;
  `Event.openInit_eq_some` says when there is one.
* `Event.valuesIn`: the values that are told while the init expression of a definition is open.
* `Event.Bracketed`: init expressions are not nested, and the one that ends is the one that is open.
* `Module.inits`: the init expressions of a module.
* `Builder.Takes.init?_eq`, `Builder.Steps.init?_eq`: what an event and a run add to the value of a
  definition.
* `Builder.ImportsBlank`: imported globals have no value.
* `Builder.Initialized`: what is said above, of a builder and the events that it has accepted;
  `Builder.inits_run` says so of every run.
-/

namespace WasmDecode

/-! ## Events of init expressions -/

namespace Event

/-- The value that an event gives to the init expression that is open. -/
def initValue? : Event → Option InitValue
  | .initValue _ value => some value
  | _ => none

/-- Whether an event begins or ends an init expression. -/
def isInitScope : Event → Bool
  | .beginInit .. | .endInit .. => true
  | _ => false

/-- The definition whose init expression is open after an event, if that of `scope` was open before
it. -/
def scopeAfter (scope : Option InitTarget) : Event → Option InitTarget
  | .beginInit site i => some ⟨site, i.toNat⟩
  | .endInit .. => none
  | _ => scope

/-- The definition whose init expression is open after the events of a list: the one that was begun
last, if it was not ended since. -/
def openInit (log : List Event) : Option InitTarget := log.foldl scopeAfter none

/-- The values that are told while the init expression of `t` is open. In the beginning that of
`scope` is open. -/
def valuesIn (t : InitTarget) (scope : Option InitTarget) : List Event → List InitValue
  | [] => []
  | e :: log =>
    (if scope = some t then e.initValue?.toList else []) ++ valuesIn t (e.scopeAfter scope) log

/-- An init expression that is opened again gets its value then, and not from another one. -/
example : valuesIn ⟨.global, 0⟩ none [.beginInit .global 0, .endInit .global 0,
    .beginInit .dataSegment 0, .initValue 0 (.getGlobal 3), .endInit .dataSegment 0,
    .beginInit .global 0, .initValue 0 (.getGlobal 4)] = [.getGlobal 4] := by decide

variable {scope : Option InitTarget} {t : InitTarget} {e : Event} {log inside before : List Event}

theorem initValue?_of_isCode (he : e.isCode = true) : e.initValue? = none := by
  cases e <;> first | rfl | cases he

theorem initValue?_of_isIdle (he : e.isIdle = true) : e.initValue? = none := by
  cases e <;> first | rfl | cases he

theorem scopeAfter_of_not_isInitScope (he : e.isInitScope = false) : e.scopeAfter scope = scope := by
  cases e <;> first | rfl | cases he

theorem isInitScope_of_isCode (he : e.isCode = true) : e.isInitScope = false := by
  cases e <;> first | rfl | cases he

theorem isInitScope_of_isIdle (he : e.isIdle = true) : e.isInitScope = false := by
  cases e <;> first | rfl | cases he

/-- Nothing is opened or closed by events that do not say so. -/
theorem foldl_scopeAfter (h : ∀ e ∈ log, e.isInitScope = false) :
    log.foldl scopeAfter scope = scope := by
  induction log with
  | nil => rfl
  | cons e log ih =>
    rw [List.foldl_cons, scopeAfter_of_not_isInitScope (h e List.mem_cons_self)]
    exact ih fun e he => h e (List.mem_cons_of_mem _ he)

theorem openInit_concat (e : Event) :
    openInit (before ++ e :: inside) = inside.foldl scopeAfter (e.scopeAfter (openInit before)) := by
  rw [openInit, List.foldl_append, List.foldl_cons]
  rfl

/-- What is open is open since the beginning, or since it has been begun. -/
theorem cases_of_foldl (h : log.foldl scopeAfter scope = some t) :
    (scope = some t ∧ ∀ e ∈ log, e.isInitScope = false) ∨ ∃ before i inside,
      log = before ++ .beginInit t.site i :: inside ∧ i.toNat = t.position ∧
        ∀ e ∈ inside, e.isInitScope = false := by
  induction log generalizing scope with
  | nil => exact .inl ⟨h, fun _ he => absurd he List.not_mem_nil⟩
  | cons e log ih =>
    rcases ih h with ⟨hscope, hlog⟩ | ⟨before, i, inside, rfl, hi, hinside⟩
    · cases he : e.isInitScope with
      | false =>
        rw [scopeAfter_of_not_isInitScope he] at hscope
        exact .inl ⟨hscope, List.forall_mem_cons.mpr ⟨he, hlog⟩⟩
      | true =>
        cases e with
        | beginInit site i =>
          cases hscope
          exact .inr ⟨[], i, log, rfl, rfl, hlog⟩
        | endInit site i => cases hscope
        | _ => cases he
    · exact .inr ⟨e :: before, i, inside, rfl, hi, hinside⟩

/-- An init expression is open if it has been begun, and since then none has been begun or ended. -/
theorem openInit_eq_some : openInit log = some t ↔ ∃ before i inside,
    log = before ++ .beginInit t.site i :: inside ∧ i.toNat = t.position ∧
      ∀ e ∈ inside, e.isInitScope = false := by
  constructor
  · intro h
    rcases cases_of_foldl h with ⟨hscope, -⟩ | h
    · cases hscope
    · exact h
  · rintro ⟨before, i, inside, rfl, hi, hinside⟩
    rw [openInit_concat, foldl_scopeAfter hinside]
    exact congrArg (fun p => some (InitTarget.mk t.site p)) hi

/-- Init expressions are not nested, and the one that ends is the one that is open. -/
structure Bracketed (log : List Event) : Prop where
  begins : ∀ before site i after, log = before ++ .beginInit site i :: after →
    openInit before = none
  ends : ∀ before site i after, log = before ++ .endInit site i :: after →
    openInit before = some ⟨site, i.toNat⟩

end Event

/-! ## Values of definitions -/

/-- The init expressions of the definitions that hold one at a site, in their order. That of a
definition is absent as long as it has no value. -/
def Module.inits (m : Module) : InitSite → List (Option Expr)
  | .global => m.globals.items.toList.map Global.init
  | .elemSegment => m.elemSegments.toList.map ElemSegment.init
  | .dataSegment => m.dataSegments.toList.map DataSegment.init

/-- The value of the init expression of a definition, if there is such a definition and it has
one. -/
def Module.init? (m : Module) (t : InitTarget) : Option Expr :=
  match t.site with
  | .global => m.globals.items[t.position]?.bind Global.init
  | .elemSegment => m.elemSegments[t.position]?.bind ElemSegment.init
  | .dataSegment => m.dataSegments[t.position]?.bind DataSegment.init

namespace Module

variable {m m' : Module} {t t' : InitTarget} {e : Expr} {init : Option Expr}

/-- A builder looks for an init expression at the position of its definition. -/
theorem initOf?_eq (m : Module) (t : InitTarget) :
    Build.initOf? m t = (m.inits t.site)[t.position]? := by
  obtain ⟨site, p⟩ := t
  cases site <;> simp [Build.initOf?, inits]

theorem init?_of_initOf? (h : Build.initOf? m t = some init) : m.init? t = init := by
  obtain ⟨site, p⟩ := t
  cases site <;>
  · obtain ⟨a, ha, rfl⟩ := Option.map_eq_some_iff.mp h
    exact congrArg (Option.bind · _) ha

theorem lt_of_initOf? (h : Build.initOf? m t = some init) :
    t.position < Build.initCount m t.site := by
  obtain ⟨site, p⟩ := t
  cases site <;>
  · obtain ⟨a, ha, -⟩ := Option.map_eq_some_iff.mp h
    exact (Array.getElem?_eq_some_iff.mp ha).1

/-- A definition is given a value, and no other one is. -/
theorem init?_putInit (ht : t.position < Build.initCount m t.site) :
    (Build.putInit t e m).init? t' = if t = t' then some e else m.init? t' := by
  obtain ⟨site, q⟩ := t
  obtain ⟨site', p⟩ := t'
  by_cases hsite : site = site'
  · subst hsite
    simp only [InitTarget.mk.injEq, true_and]
    cases site <;> exact bind_getElem?_modify_some (fun _ => rfl) ht
  · rw [if_neg fun h => hsite (InitTarget.mk.inj h).1]
    cases site <;> cases site' <;> first | rfl | exact absurd rfl hsite

/-- What is new has no value. -/
theorem init?_addImported (item : ItemDecl) : (m.addImported item).init? t = m.init? t := by
  obtain ⟨site, p⟩ := t
  cases item <;> cases site <;> first | rfl | exact bind_getElem?_push rfl

theorem init?_addDefined (item : ItemDecl) : (m.addDefined item).init? t = m.init? t := by
  obtain ⟨site, p⟩ := t
  cases item <;> cases site <;> first | rfl | exact bind_getElem?_push rfl

theorem init?_congr (hglobals : m'.globals = m.globals)
    (helems : m'.elemSegments = m.elemSegments) (hdatas : m'.dataSegments = m.dataSegments) :
    m'.init? t = m.init? t := by
  rw [init?, hglobals, helems, hdatas]
  rfl

theorem initOf?_putInit (h : Build.initOf? m t = some init) :
    Build.initOf? (Build.putInit t e m) t = some (some e) := by
  obtain ⟨site, p⟩ := t
  cases site <;> exact map_getElem?_modify_self (fun _ => rfl) h

end Module

/-! ## What events do -/

namespace Builder

open Event

variable {b b' c : Builder} {e : Event} {t : InitTarget} {log : List Event}

/-- **Which init expression is open** after an event. -/
theorem Takes.initTarget_eq (h : b.Takes e b') : b'.initTarget = e.scopeAfter b.initTarget := by
  cases h with
  | code he hedits =>
    rw [scopeAfter_of_not_isInitScope (isInitScope_of_isCode he), hedits.initTarget]
  | idle he => rw [scopeAfter_of_not_isInitScope (isInitScope_of_isIdle he)]
  | _ => rfl

/-- **The value of a definition** after an event: only the open one gets any, when one is told. -/
theorem Takes.init?_eq (h : b.Takes e b') (t : InitTarget) :
    (b'.module.init? t).toList = (b.module.init? t).toList ++
      (valuesIn t b.initTarget [e]).map InitValue.expr := by
  have hnone (he : e.initValue? = none) (hinit : b'.module.init? t = b.module.init? t) :
      (b'.module.init? t).toList = (b.module.init? t).toList ++
        (valuesIn t b.initTarget [e]).map InitValue.expr := by
    simp [valuesIn, he, hinit]
  cases h with
  | importItem => exact hnone rfl (Module.init?_addImported _)
  | define => exact hnone rfl (Module.init?_addDefined _)
  | code he hedits =>
    refine hnone (initValue?_of_isCode he) ?_
    rw [hedits.module]
    exact Module.init?_congr rfl rfl rfl
  | beginElemSegment | beginDataSegment =>
    refine hnone rfl ?_
    obtain ⟨site, p⟩ := t
    cases site <;> first | rfl | exact bind_getElem?_push rfl
  | elem | segmentData =>
    refine hnone rfl ?_
    obtain ⟨site, p⟩ := t
    cases site <;> first | rfl | exact bind_getElem?_modify fun _ => rfl
  | @initValue i value target ht hi =>
    -- The definition that is open had no value so far.
    show ((Build.putInit target _ b.module).init? t).toList = _
    rw [Module.init?_putInit (Module.lt_of_initOf? hi), ht]
    by_cases htarget : target = t
    · subst htarget
      simp [valuesIn, initValue?, Module.init?_of_initOf? hi]
    · simp [valuesIn, htarget]
  | idle he => exact hnone (initValue?_of_isIdle he) rfl
  | _ => exact hnone rfl (Module.init?_congr rfl rfl rfl)

theorem Steps.initTarget_eq (h : b.Steps log c) :
    c.initTarget = log.foldl scopeAfter b.initTarget := by
  induction h with
  | nil => rfl
  | cons he _ ih => rw [ih, (takes_of_handle he).initTarget_eq, List.foldl_cons]

/-- **The value of a definition after a run**: what was told while its init expression was open. -/
theorem Steps.init?_eq (h : b.Steps log c) (t : InitTarget) :
    (c.module.init? t).toList = (b.module.init? t).toList ++
      (valuesIn t b.initTarget log).map InitValue.expr := by
  induction h with
  | nil => simp [valuesIn]
  | cons he _ ih =>
    have hstep := takes_of_handle he
    rw [ih, hstep.init?_eq t, hstep.initTarget_eq]
    simp [valuesIn]

/-! ## Imported globals -/

/-- Imported globals have no value, and the init expression that is open is not that of one. -/
structure ImportsBlank (b : Builder) : Prop where
  blank : ∀ p < b.module.globals.imported, b.module.init? ⟨.global, p⟩ = none
  target : ∀ p, b.initTarget = some ⟨.global, p⟩ →
    b.module.globals.imported ≤ p ∧ p < b.module.globals.size

theorem importsBlank_empty : ({} : Builder).ImportsBlank where
  blank p hp := absurd hp (Nat.not_lt_zero p)
  target p hp := by cases hp

/-- An item is only imported as long as all items of the kind are. -/
theorem Takes.importedCount_cases (h : b.Takes e b') (kind : ExternalKind) :
    b'.module.importedCount kind = b.module.importedCount kind ∨
      b.module.importedCount kind = b.module.itemCount kind ∧
        b'.module.importedCount kind = b.module.importedCount kind + 1 := by
  have hstep := h.outline
  rw [← Module.length_listed_item]
  show b'.module.outline.imported kind = b.module.outline.imported kind ∨
    b.module.outline.imported kind = (b.module.outline.listed (.item kind)).length ∧
      b'.module.outline.imported kind = b.module.outline.imported kind + 1
  generalize b'.module.outline = o' at hstep ⊢
  cases hstep with
  | define hd => exact .inl (congrFun (Outline.imported_define _) kind)
  | @complete i decl hc hm =>
    by_cases hk : decl.kind = kind
    · subst hk
      exact .inr ⟨hm.first, if_pos rfl⟩
    · exact .inl (if_neg hk)
  | keep => exact .inl rfl

theorem Takes.importsBlank (h : b.Takes e b') (hb : b.ImportsBlank) : b'.ImportsBlank := by
  have hsize : b.module.globals.size ≤ b'.module.globals.size :=
    Module.initCount_le h.outline.count_le .global
  have himported : b'.module.globals.imported = b.module.globals.imported ∨
      b.module.globals.imported = b.module.globals.size ∧
        b'.module.globals.imported = b.module.globals.imported + 1 :=
    h.importedCount_cases .global
  constructor
  · intro p hp
    have hold : b.module.init? ⟨.global, p⟩ = none := by
      by_cases hlt : p < b.module.globals.imported
      · exact hb.blank p hlt
      · exact congrArg (Option.bind · Global.init) (Array.getElem?_eq_none (by
          show b.module.globals.size ≤ p
          omega))
    have hscope : b.initTarget ≠ some ⟨.global, p⟩ := by
      intro ht
      have := hb.target p ht
      omega
    have hinit := h.init?_eq ⟨.global, p⟩
    rw [hold] at hinit
    simpa [valuesIn, hscope] using hinit
  · intro p hp
    cases h with
    | beginInit h hi =>
      cases hp
      exact ⟨hi.resolve_left (· rfl), Nat.lt_of_lt_of_eq (Nat.lt_succ_self _) h⟩
    | endInit => cases hp
    | code he hedits =>
      rw [hedits.initTarget] at hp
      have := hb.target p hp
      omega
    | _ =>
      have := hb.target p hp
      omega

/-! ## Init expressions after a run -/

/-- Init expressions are not nested. -/
theorem Steps.bracketed (h : ({} : Builder).Steps log c) : Bracketed log where
  begins before site i after hlog := by
    subst hlog
    obtain ⟨b₁, h₁, _ | ⟨he, -⟩⟩ := h.exists_of_append
    obtain ⟨-, -, hnone, -⟩ := Build.run_beginInit.mp he
    exact h₁.initTarget_eq.symm.trans hnone
  ends before site i after hlog := by
    subst hlog
    obtain ⟨b₁, h₁, _ | ⟨he, -⟩⟩ := h.exists_of_append
    obtain ⟨hsome, -⟩ := Build.run_endInit.mp he
    exact h₁.initTarget_eq.symm.trans hsome

end Builder

/-- What an item of a collection holds lasts if the items do. -/
theorem Extends.map_eq_some {α : Type} {R : α → α → Prop} {f : α → Option Expr} {xs ys : Array α}
    {p : Nat} {e : Expr} (h : Extends (fun _ => R) xs.toList ys.toList)
    (hR : ∀ a a', R a a' → Fills (f a) (f a')) (hp : xs[p]?.map f = some (some e)) :
    ys[p]?.map f = some (some e) := by
  obtain ⟨a, ha, hf⟩ := Option.map_eq_some_iff.mp hp
  obtain ⟨a', ha', hr⟩ := h p a (by rwa [Array.getElem?_toList])
  rw [Array.getElem?_toList] at ha'
  rw [ha', Option.map_some, hR a a' hr e hf]

/-- The value of a definition lasts. -/
theorem Module.Lasts.initOf?_eq {m m' : Module} (h : m.Lasts m') {t : InitTarget} {e : Expr}
    (ht : Build.initOf? m t = some (some e)) : Build.initOf? m' t = some (some e) := by
  obtain ⟨site, p⟩ := t
  cases site with
  | global => exact h.globals.map_eq_some (fun _ _ hg => hg.init) ht
  | elemSegment => exact h.elemSegments.map_eq_some (fun _ _ hs => hs.init) ht
  | dataSegment => exact h.dataSegments.map_eq_some (fun _ _ hs => hs.init) ht

namespace Builder

open Event

/-- What holds of the init expressions of a builder that has accepted the events `log`, from the
first one on. At most one of them is open at a time. -/
structure Initialized (b : Builder) (log : List Event) : Prop extends Bracketed log where
  initTarget_eq : b.initTarget = openInit log
  /-- What a definition has is what was told while its own was open: nothing, or one value. -/
  value : ∀ t init, (b.module.inits t.site)[t.position]? = some init →
    init.toList = (valuesIn t none log).map InitValue.expr
  /-- What was told is the value of the definition that was open, which had none before. -/
  told : ∀ before i value after, log = before ++ .initValue i value :: after →
    ∃ t, openInit before = some t ∧
      ((({} : Builder).run before).module.inits t.site)[t.position]? = some none ∧
      (b.module.inits t.site)[t.position]? = some (some value.expr)
  constant : ∀ site e, some e ∈ b.module.inits site → e.isConstant = true
  /-- No event changes a value. -/
  kept : ∀ site (p : Nat) e, (b.module.inits site)[p]? = some (some e) →
    ∀ more, ((b.run more).module.inits site)[p]? = some (some e)
  /-- Imported globals have none. -/
  imported : ∀ p g, p < b.module.globals.imported → b.module.globals.items[p]? = some g →
    g.init = none
  /-- A value is accepted while one is open that has none. -/
  accepts : ∀ i value, b.stop? (.initValue i value) = none ↔
    ∃ t, openInit log = some t ∧ (b.module.inits t.site)[t.position]? = some none

/-- **Init expressions are scoped, and written once**: this holds after any events, where those that
are refused are passed over. -/
theorem inits_run (events : List Event) :
    (({} : Builder).run events).Initialized (({} : Builder).accepted events) := by
  have h := sound_empty.steps_accepted events
  generalize ({} : Builder).run events = b at h ⊢
  generalize ({} : Builder).accepted events = log at h ⊢
  have hopen : b.initTarget = openInit log := h.initTarget_eq
  have hvalue (t : InitTarget) (init : Option Expr)
      (ht : (b.module.inits t.site)[t.position]? = some init) :
      init.toList = (valuesIn t none log).map InitValue.expr := by
    rw [← Module.initOf?_eq] at ht
    have hinit := h.init?_eq t
    rw [Module.init?_of_initOf? ht] at hinit
    have hempty : (({} : Builder).module.init? t).toList = [] := by
      obtain ⟨site, p⟩ := t
      cases site <;> rfl
    rw [hinit, hempty, List.nil_append]
  have hsound := h.sound sound_empty
  refine { h.bracketed with
    initTarget_eq := hopen, value := hvalue, told := ?_, constant := ?_, kept := ?_,
    imported := ?_, accepts := ?_ }
  · rintro before i value after rfl
    obtain ⟨b₁, h₁, h₂⟩ := h.exists_of_append
    obtain _ | ⟨he, h₂⟩ := h₂
    have hsound₂ := (h₁.sound sound_empty).of_accepts ((h₁.sound sound_empty).accepts he)
    obtain ⟨t, ht, hnone, rfl⟩ := Build.run_setInit.mp he
    refine ⟨t, h₁.initTarget_eq.symm.trans ht, ?_, ?_⟩
    · rw [h₁.run_eq, ← Module.initOf?_eq]
      exact hnone
    · rw [← h₂.run_eq, ← Module.initOf?_eq]
      exact (hsound₂.lasts after).initOf?_eq (Module.initOf?_putInit hnone)
  · intro site e he
    obtain ⟨p, hp⟩ := List.mem_iff_getElem?.mp he
    have hlist : [e] = (valuesIn ⟨site, p⟩ none log).map InitValue.expr := hvalue ⟨site, p⟩ _ hp
    obtain ⟨value, -, hexpr⟩ := List.mem_map.mp (hlist ▸ List.mem_singleton_self e)
    exact Expr.isConstant_iff.mpr ⟨value, hexpr⟩
  · intro site p e hp more
    have hlasts (ht : Build.initOf? b.module ⟨site, p⟩ = some (some e)) :=
      (hsound.lasts more).initOf?_eq ht
    simp only [Module.initOf?_eq] at hlasts
    exact hlasts hp
  · intro p g hp hg
    have hblank := (h.keeps (fun _ _ _ hstep => hstep.importsBlank) importsBlank_empty).blank p hp
    exact (congrArg (Option.bind · Global.init) hg).symm.trans hblank
  · intro i value
    rw [stop?_eq_none, ← hopen]
    simp only [← Module.initOf?_eq]
    constructor
    · rintro ⟨b', hb'⟩
      obtain ⟨t, ht, hnone, -⟩ := Build.run_setInit.mp hb'
      exact ⟨t, ht, hnone⟩
    · rintro ⟨t, ht, hnone⟩
      exact ⟨_, Build.run_setInit.mpr ⟨t, ht, hnone, rfl⟩⟩

end Builder
end WasmDecode
