import WasmDecode.Proofs.Effect
import WasmDecode.Proofs.Grammar

/-!
# One body for each function

Bodies begin one at a time, once for each function that the module defines and in the order of these
functions. What a function has got from its body is decided by the events inside of the body, and
does not change any more when the body has ended.

* `Event.inside`: the events of a list between the begin and the end of a body.
* `Code.ofEvents`, `Event.locals`: the instructions and the locals that events lead to.
* `Builder.Steps.untouched`, `Builder.Steps.locals_of_reading`: a function whose body is closed, and
  one whose body is open, during a run.
* `Builder.Steps.filterMap_begun`: which bodies begin. No function is imported any more after the
  first one has.
* `Builder.Isolated`: what is said above, of a builder and the events that it has accepted;
  `Builder.isolated_run` says so of every run.
-/

namespace WasmDecode

/-! ## Events of bodies -/

namespace Event

/-- The position of the function whose body an event begins. -/
def begun? : Event → Option Nat
  | .beginBody i => some i.toNat
  | _ => none

/-- The position of the function whose body an event ends. -/
def ended? : Event → Option Nat
  | .endBody i => some i.toNat
  | _ => none

/-- The types of the locals that an event declares. -/
def locals : Event → List ValueType
  | .localDecl _ count type => List.replicate count.toNat type
  | _ => []

/-- The events between the begin of the body of the function at position `p` and its end, or the end
of the list. -/
def inside (p : Nat) (log : List Event) : List Event :=
  (log.dropWhile fun e => e.begun? ≠ some p).tail.takeWhile fun e => e.ended? ≠ some p

variable {p : Nat} {i : UInt32} {e : Event} {before rest log : List Event}

theorem begun?_eq_some : e.begun? = some p ↔ ∃ i : UInt32, e = .beginBody i ∧ i.toNat = p := by
  cases e <;> simp [begun?]

theorem ended?_eq_some : e.ended? = some p ↔ ∃ i : UInt32, e = .endBody i ∧ i.toNat = p := by
  cases e <;> simp [ended?]

theorem locals_of_isCode (h : e.isCode = true) : e.locals = [] := by
  cases e <;> first | rfl | cases h

theorem locals_of_isIdle (h : e.isIdle = true) : e.locals = [] := by
  cases e <;> first | rfl | cases h

/-- A list is split at the first event that begins a body, or ends one. -/
theorem exists_first {f : Event → Option Nat} {mk : UInt32 → Event}
    (hf : ∀ e, f e = some p ↔ ∃ i, e = mk i ∧ i.toNat = p) (h : ¬ ∀ e ∈ log, f e ≠ some p) :
    ∃ before i rest, log = before ++ mk i :: rest ∧ i.toNat = p ∧ ∀ e ∈ before, f e ≠ some p := by
  obtain ⟨e, he, hep⟩ : ∃ e ∈ log, f e = some p := by simpa using h
  obtain ⟨i, rfl, hi⟩ := (hf e).mp hep
  obtain ⟨before, rest, hlog, hfirst⟩ := List.eq_append_cons_of_mem he
  refine ⟨before, i, rest, hlog, hi, fun e he hep => ?_⟩
  obtain ⟨j, rfl, hj⟩ := (hf e).mp hep
  exact hfirst (UInt32.toNat_inj.mp (hj.trans hi.symm) ▸ he)

/-- Nothing is inside of a body that has not begun. -/
theorem inside_of_not_begun (h : ∀ e ∈ log, e.begun? ≠ some p) : inside p log = [] := by
  have hdrop : (log ++ []).dropWhile (fun e : Event => e.begun? ≠ some p) = [] :=
    List.dropWhile_append_of_pos fun e he => decide_eq_true (h e he)
  rw [List.append_nil] at hdrop
  unfold inside
  rw [hdrop]
  rfl

theorem inside_of_begun (h : ∀ e ∈ before, e.begun? ≠ some p) (hi : i.toNat = p) :
    inside p (before ++ .beginBody i :: rest) = rest.takeWhile fun e => e.ended? ≠ some p := by
  unfold inside
  rw [List.dropWhile_append_of_pos fun e he => decide_eq_true (h e he),
    List.dropWhile_cons_of_neg (by simp [begun?, hi]), List.tail_cons]

/-- **Inside of a body** that has not begun is nothing. If it has begun, all that follows is inside
of it, or all that follows until it ends. -/
theorem inside_cases (p : Nat) (log : List Event) :
    (∀ e ∈ log, e.begun? ≠ some p) ∧ inside p log = [] ∨
    ∃ before i, i.toNat = p ∧ (∀ e ∈ before, e.begun? ≠ some p) ∧
      (∀ e ∈ inside p log, e.ended? ≠ some p) ∧
      (log = before ++ .beginBody i :: inside p log ∨
        ∃ after, log = before ++ .beginBody i :: (inside p log ++ .endBody i :: after)) := by
  by_cases hbegun : ∀ e ∈ log, e.begun? ≠ some p
  · exact .inl ⟨hbegun, inside_of_not_begun hbegun⟩
  · right
    obtain ⟨before, i, rest, rfl, hi, hbefore⟩ := exists_first (fun _ => begun?_eq_some) hbegun
    refine ⟨before, i, hi, hbefore, ?_⟩
    rw [inside_of_begun hbefore hi]
    by_cases hended : ∀ e ∈ rest, e.ended? ≠ some p
    · have htake : (rest ++ []).takeWhile (fun e => e.ended? ≠ some p) = rest ++ [] :=
        List.takeWhile_append_of_pos fun e he => decide_eq_true (hended e he)
      rw [List.append_nil] at htake
      rw [htake]
      exact ⟨hended, .inl rfl⟩
    · obtain ⟨body, j, after, rfl, hj, hbody⟩ := exists_first (fun _ => ended?_eq_some) hended
      obtain rfl := UInt32.toNat_inj.mp (hj.trans hi.symm)
      have htake : (body ++ .endBody j :: after).takeWhile (fun e => e.ended? ≠ some p) = body := by
        rw [List.takeWhile_append_of_pos fun e he => decide_eq_true (hbody e he),
          List.takeWhile_cons_of_neg (by simp [ended?, hj]), List.append_nil]
      rw [htake]
      exact ⟨hbody, .inr ⟨after, rfl⟩⟩

/-- The second body, with a type that is defined inside of it. -/
example : inside 1 [.beginBody 0, .endBody 0, .beginBody 1, .instr .nop, .funcType 0 [] [],
    .endBody 1, .endModule] = [.instr .nop, .funcType 0 [] []] := rfl

end Event

/-- The instructions that have been read of a body, as they are stored. -/
def OpenBody.code (o : OpenBody) : Code := ⟨⟨(o.nodes none).toArray⟩, o.head none⟩

/-- The instructions that the events of a body lead to. -/
def Code.ofEvents (events : List Event) : Code :=
  (((OpenBody.body .nil).reads? events).map OpenBody.code).getD {}

/-- The instructions of a body are decided by the events that were read of it. -/
theorem Code.Spells.eq_ofEvents {c : Code} {o : OpenBody} (h : c.Spells o) :
    c = Code.ofEvents o.events := by
  obtain ⟨⟨nodes⟩, first⟩ := c
  obtain ⟨hnodes, hfirst⟩ := h
  unfold Code.ofEvents
  rw [OpenBody.reads?_events, Option.map_some, Option.getD_some, OpenBody.code, ← hnodes, ← hfirst,
    Array.toArray_toList]

namespace Builder

variable {b b' c : Builder} {p : Nat} {o : OpenBody} {e : Event} {i : UInt32}
  {log before after : List Event}

/-! ## Locals -/

/-- The types of the locals of the function at position `p`. There are none if there is no
function. -/
def localsAt (b : Builder) (p : Nat) : List ValueType :=
  ((b.module.funcs.items[p]?).map fun f => f.locals.toList).getD []

theorem localsAt_of_getElem? {f : Func} (h : b.module.funcs.items[p]? = some f) :
    b.localsAt p = f.locals.toList := by
  unfold localsAt
  rw [h]
  rfl

theorem localsAt_of_map_eq (h : b'.module.funcs.items[p]?.map Func.locals =
    b.module.funcs.items[p]?.map Func.locals) : b'.localsAt p = b.localsAt p := by
  have hmap := congrArg (Option.map Array.toList) h
  rw [Option.map_map, Option.map_map] at hmap
  exact congrArg (·.getD []) hmap

theorem localsAt_of_modify {q : Nat} {g : Func → Func}
    (hm : b'.module.funcs = b.module.funcs.modify q g) (hg : ∀ f, (g f).locals = f.locals) :
    b'.localsAt p = b.localsAt p := by
  apply localsAt_of_map_eq
  rw [hm]
  exact map_getElem?_modify hg

/-- A function that is new has no locals. -/
theorem localsAt_of_push {f : Func} (hm : b'.module.funcs.items = b.module.funcs.items.push f)
    (hf : f.locals = #[]) : b'.localsAt p = b.localsAt p := by
  unfold localsAt
  rw [hm, Array.getElem?_push]
  split
  · next hp =>
    rw [hp, Array.getElem?_eq_none (Nat.le_refl _), Option.map_some, hf]
    rfl
  · rfl

/-- The function whose body is open gets the locals that an event declares, and no other function
gets any. -/
theorem Takes.localsAt (h : b.Takes e b') (p : Nat) :
    b'.localsAt p = b.localsAt p ++ if b.currentFunc = some p then e.locals else [] := by
  have hnone (he : e.locals = []) (hl : b'.localsAt p = b.localsAt p) :
      b'.localsAt p = b.localsAt p ++ if b.currentFunc = some p then e.locals else [] := by
    rw [he, ite_self, List.append_nil, hl]
  cases h with
  | @localDecl i count type q f hq hf =>
    rw [hq]
    by_cases hqp : q = p
    · subst hqp
      rw [if_pos rfl, localsAt_of_getElem? hf, localsAt_of_getElem? (by
        rw [IndexSpace.getElem?_modify, if_pos rfl, hf]
        rfl), Array.toList_append, Array.toList_replicate]
      rfl
    · have hne : some q ≠ some p := fun h => hqp (Option.some.inj h)
      rw [if_neg hne, List.append_nil]
      apply localsAt_of_map_eq
      rw [IndexSpace.getElem?_modify, if_neg hqp]
  | @importItem _ _ _ _ item =>
    refine hnone rfl ?_
    cases item with
    | func sigIndex => exact localsAt_of_push rfl rfl
    | _ => rfl
  | @define _ item =>
    refine hnone rfl ?_
    cases item with
    | func sigIndex => exact localsAt_of_push rfl rfl
    | _ => rfl
  | code he hedits =>
    refine hnone (Event.locals_of_isCode he) (localsAt_of_map_eq ?_)
    have hbare := congrArg (Option.map Func.locals) (hedits.bare p)
    rwa [Option.map_map, Option.map_map] at hbare
  | function => exact hnone rfl (localsAt_of_modify rfl fun _ => rfl)
  | localName =>
    refine hnone rfl (localsAt_of_modify rfl fun f => ?_)
    unfold Func.nameLocal
    split <;> rfl
  | @initValue _ _ target =>
    refine hnone rfl ?_
    unfold Build.putInit Builder.localsAt
    cases target.site <;> rfl
  | idle he => exact hnone (Event.locals_of_isIdle he) rfl
  | _ => exact hnone rfl rfl

/-! ## Bodies that are closed -/

theorem Accepts.codeAt_eq (h : b.Accepts e b') (hp : b.currentFunc ≠ some p) :
    b'.codeAt p = b.codeAt p := by
  cases h with
  | beginBody | endBody => rfl
  | code hr _ _ hadv =>
    refine hadv.other p ?_
    rintro rfl
    exact hp hr.current
  | other _ hk => exact hk.code p

/-- A body is closed until it begins. -/
theorem Accepts.currentFunc_ne (h : b.Accepts e b') (hp : b.currentFunc ≠ some p)
    (he : e.begun? ≠ some p) : b'.currentFunc ≠ some p := by
  cases h with
  | beginBody => exact he
  | code hr _ _ hadv =>
    rw [hadv.reading.current, ← hr.current]
    exact hp
  | endBody => nofun
  | other _ hk =>
    rw [hk.currentFunc]
    exact hp

/-- **A function whose body is closed** gets neither instructions nor locals as long as its body
does not begin. -/
theorem Steps.untouched (h : b.Steps log c) (hb : b.Sound) (hp : b.currentFunc ≠ some p)
    (hn : ∀ e ∈ log, e.begun? ≠ some p) :
    c.codeAt p = b.codeAt p ∧ c.localsAt p = b.localsAt p := by
  induction h with
  | nil => exact ⟨rfl, rfl⟩
  | cons he hs ih =>
    obtain ⟨hne, hn⟩ := List.forall_mem_cons.mp hn
    have ha := hb.accepts he
    obtain ⟨hcode, hlocals⟩ := ih (hb.of_accepts ha) (ha.currentFunc_ne hp hne) hn
    have hstep := (takes_of_handle he).localsAt p
    rw [if_neg hp, List.append_nil] at hstep
    exact ⟨hcode.trans (ha.codeAt_eq hp), hlocals.trans hstep⟩

/-- When a body ends it is the one that is open, and it stays as it is from then on. -/
theorem Steps.of_endBody (h : b.Steps (.endBody i :: after) c) (hb : b.Sound) :
    b.currentFunc = some i.toNat ∧ i.toNat < b.module.funcs.size ∧
      i.toNat < c.module.funcs.size ∧ c.codeAt i.toNat = b.codeAt i.toNat ∧
      c.localsAt i.toNat = b.localsAt i.toNat := by
  obtain _ | ⟨he, hafter⟩ := h
  cases hb.accepts he with
  | endBody hr =>
    have hclosed : b.closeBody.currentFunc ≠ some i.toNat := nofun
    have hb' := hb.of_closeBody hr
    obtain ⟨hc, -, hne⟩ := hafter.settled hb' ⟨hr.lt_size, hb.lt_begun _ hr.current, hclosed⟩
    have hn : ∀ e ∈ after, e.begun? ≠ some i.toNat := by
      intro e he hbegun
      obtain ⟨j, rfl, hj⟩ := Event.begun?_eq_some.mp hbegun
      exact hne _ he j rfl hj
    obtain ⟨hcode, hlocals⟩ := hafter.untouched hb' hclosed hn
    exact ⟨hr.current, hr.lt_size, hc.lt_size, hcode, hlocals⟩
  | code _ he => cases he
  | other he => cases he

/-! ## Bodies that are open -/

/-- **A function whose body is open** gets the locals that are declared, as long as its body does
not end. -/
theorem Steps.locals_of_reading (h : b.Steps log c) (hb : b.Sound) (hr : b.Reading p o)
    (hn : ∀ e ∈ log, e.ended? ≠ some p) :
    c.localsAt p = b.localsAt p ++ log.flatMap Event.locals := by
  induction h generalizing o with
  | nil => rw [List.flatMap_nil, List.append_nil]
  | @cons b b' c e log he hs ih =>
    obtain ⟨hne, hn⟩ := List.forall_mem_cons.mp hn
    obtain ⟨-, o', hr', -⟩ := hr.next hb he fun i hi h =>
      hne (Event.ended?_eq_some.mpr ⟨i, h, hi⟩)
    rw [ih (hb.of_accepts (hb.accepts he)) hr' hn, (takes_of_handle he).localsAt p,
      if_pos hr.current, List.append_assoc, List.flatMap_cons]

/-- What a body that has begun gets until it ends. -/
theorem Steps.of_beginBody (h : b.Steps (.beginBody i :: log) c) (hb : b.Sound)
    (hlocals : b.localsAt i.toNat = []) (hn : ∀ e ∈ log, e.ended? ≠ some i.toNat) :
    c.codeAt i.toNat = Code.ofEvents (log.filter Event.isCode) ∧
      c.localsAt i.toNat = log.flatMap Event.locals := by
  obtain _ | ⟨he, hlog⟩ := h
  obtain ⟨hm, rfl⟩ := (hb.accepts he).of_beginBody
  have hb' := hb.of_openBody hm
  have hr := hm.reading hb
  obtain ⟨-, o, hr', ho⟩ := hlog.of_reading hb' hr fun j hj hmem =>
    hn _ hmem (Event.ended?_eq_some.mpr ⟨j, rfl, hj⟩)
  have hstart : (b.openBody i).localsAt i.toNat = [] := hlocals
  refine ⟨?_, ?_⟩
  · rw [hr'.spells.eq_ofEvents, ho]
    rfl
  · rw [hlog.locals_of_reading hb' hr hn, hstart, List.nil_append]

/-- **What a function has got from its body** is decided by the events inside of the body. -/
theorem Steps.written (h : ({} : Builder).Steps log c) (p : Nat) :
    c.codeAt p = Code.ofEvents ((Event.inside p log).filter Event.isCode) ∧
      c.localsAt p = (Event.inside p log).flatMap Event.locals := by
  have hclosed : ({} : Builder).currentFunc ≠ some p := nofun
  rcases Event.inside_cases p log with ⟨hn, hinside⟩ | ⟨before, i, rfl, hbefore, hinside, hlog⟩
  · rw [hinside]
    exact h.untouched sound_empty hclosed hn
  · rcases hlog with hlog | ⟨after, hlog⟩
    · rw [hlog] at h
      obtain ⟨b₁, h₁, h₂⟩ := h.exists_of_append
      have hblank := (h₁.untouched sound_empty hclosed hbefore).2
      exact h₂.of_beginBody (h₁.sound sound_empty) hblank hinside
    · rw [hlog] at h
      obtain ⟨b₁, h₁, h₂⟩ := h.exists_of_append
      have hblank := (h₁.untouched sound_empty hclosed hbefore).2
      have hb₁ := h₁.sound sound_empty
      rw [← List.cons_append] at h₂
      obtain ⟨b₂, hbody, hend⟩ := h₂.exists_of_append
      obtain ⟨hcode₂, hlocals₂⟩ := hbody.of_beginBody hb₁ hblank hinside
      obtain ⟨-, -, -, hcode, hlocals⟩ := hend.of_endBody (hbody.sound hb₁)
      exact ⟨hcode.trans hcode₂, hlocals.trans hlocals₂⟩

/-! ## The order of bodies -/

/-- No function is imported any more if there is one that is not. -/
theorem Sound.imported_eq (hb : b.Sound) (h : b.handle e = .ok () b')
    (hlt : b.module.funcs.imported < b.module.funcs.size) :
    b'.module.funcs.imported = b.module.funcs.imported ∧
      b'.module.funcs.imported < b'.module.funcs.size := by
  have hsize : b.module.funcs.size ≤ b'.module.funcs.size := by
    cases hb.accepts h with
    | beginBody | endBody => exact Nat.le_refl _
    | code _ _ _ hadv => exact Nat.le_of_eq hadv.size.symm
    | other _ hk => exact hk.size
  have himported : b'.module.funcs.imported = b.module.funcs.imported := by
    cases takes_of_handle h with
    | @importItem _ _ _ _ item hm =>
      cases item with
      | func sigIndex => exact absurd hm.first (Nat.ne_of_lt hlt)
      | _ => rfl
    | @define _ item => cases item <;> rfl
    | code _ hedits => exact hedits.imported
    | @initValue _ _ target =>
      unfold Build.putInit
      cases target.site <;> rfl
    | _ => rfl
  refine ⟨himported, ?_⟩
  rw [himported]
  exact Nat.lt_of_lt_of_le hlt hsize

theorem Steps.imported_eq (h : b.Steps log c) (hb : b.Sound)
    (hlt : b.module.funcs.imported < b.module.funcs.size) :
    c.module.funcs.imported = b.module.funcs.imported := by
  induction h with
  | nil => rfl
  | cons he hs ih =>
    obtain ⟨heq, hlt'⟩ := hb.imported_eq he hlt
    exact (ih (hb.of_accepts (hb.accepts he)) hlt').trans heq

/-- **Which bodies begin**: those of the functions that the module defines, from the first one
on. -/
theorem Steps.filterMap_begun (h : b.Steps log c) (hb : b.Sound) :
    ∃ n, c.bodiesRead = b.bodiesRead + n ∧ log.filterMap Event.begun? =
      List.range' (c.module.funcs.imported + b.bodiesRead) n := by
  induction h with
  | nil => exact ⟨0, rfl, rfl⟩
  | @cons b b' c e log he hs ih =>
    have ha := hb.accepts he
    obtain ⟨n, hn, hlog⟩ := ih (hb.of_accepts ha)
    have hother (hbegun : e.begun? = none) (hread : b'.bodiesRead = b.bodiesRead) :
        ∃ n, c.bodiesRead = b.bodiesRead + n ∧ (e :: log).filterMap Event.begun? =
          List.range' (c.module.funcs.imported + b.bodiesRead) n := by
      refine ⟨n, hread ▸ hn, ?_⟩
      rw [List.filterMap_cons_none hbegun, hlog, hread]
    cases ha with
    | @beginBody i hm =>
      -- The function is there and is not imported, so that no other will be imported.
      have hlt : b.module.funcs.imported < b.module.funcs.size := by
        have hi := hm.eq_begun
        have hsize := hm.lt_size
        unfold begun at hi
        omega
      have himported : c.module.funcs.imported = b.module.funcs.imported :=
        hs.imported_eq (hb.of_openBody hm) hlt
      have hfirst : i.toNat = c.module.funcs.imported + b.bodiesRead := by
        rw [himported]
        exact hm.eq_begun
      have hbegun : (Event.beginBody i).begun? = some i.toNat := rfl
      refine ⟨n + 1, ?_, ?_⟩
      · rw [hn]
        show b.bodiesRead + 1 + n = _
        omega
      · rw [List.filterMap_cons_some hbegun, hlog, List.range'_succ, ← hfirst]
        show i.toNat :: List.range' (c.module.funcs.imported + (b.bodiesRead + 1)) n = _
        rw [← Nat.add_assoc, ← hfirst]
    | code _ hc _ hadv => exact hother (by cases e <;> first | rfl | cases hc) hadv.bodiesRead
    | endBody => exact hother rfl rfl
    | other ho hk => exact hother (by cases e <;> first | rfl | cases ho) hk.bodiesRead

/-- The body of an imported function never begins. -/
theorem Steps.begun?_ne_of_imported (h : ({} : Builder).Steps log c)
    (hp : p < c.module.funcs.imported) : ∀ e ∈ log, e.begun? ≠ some p := by
  intro e he hep
  obtain ⟨n, -, hlog⟩ := h.filterMap_begun sound_empty
  have hmem : p ∈ log.filterMap Event.begun? := List.mem_filterMap.mpr ⟨e, he, hep⟩
  rw [hlog] at hmem
  exact Nat.not_le_of_lt hp (List.mem_range'_1.mp hmem).1

/-! ## Isolation -/

/-- Where a run is split, a run over the first events leads to the builder in between. -/
theorem Steps.split (h : ({} : Builder).Steps (before ++ after) c) :
    (({} : Builder).run before).Steps after c ∧ (({} : Builder).run before).Sound := by
  obtain ⟨b, hbefore, hafter⟩ := h.exists_of_append
  rw [hbefore.run_eq]
  exact ⟨hafter, hbefore.sound sound_empty⟩

/-- What holds of a builder that has accepted the events `log`, from the first one on. -/
structure Isolated (b : Builder) (log : List Event) : Prop where
  /-- The bodies begin in the order of the functions that are not imported. -/
  begun : log.filterMap Event.begun? = List.range' b.module.funcs.imported b.bodiesRead
  /-- A body begins while none is open. -/
  begins : ∀ before i after, log = before ++ .beginBody i :: after →
    (({} : Builder).run before).currentFunc = none
  /-- A body ends while it is open. -/
  ends : ∀ before i after, log = before ++ .endBody i :: after →
    (({} : Builder).run before).currentFunc = some i.toNat
  /-- The instructions and the locals of a function come from inside of its body. -/
  written : ∀ p f, b.module.funcs.items[p]? = some f →
    f.code = Code.ofEvents ((Event.inside p log).filter Event.isCode) ∧
      f.locals.toList = (Event.inside p log).flatMap Event.locals
  /-- They stay as they were when the body ended. -/
  kept : ∀ before i after, log = before ++ .endBody i :: after → ∃ f f',
    (({} : Builder).run before).module.funcs.items[i.toNat]? = some f ∧
      b.module.funcs.items[i.toNat]? = some f' ∧ f'.code = f.code ∧ f'.locals = f.locals
  /-- There are none if the function is imported, or its body has not begun. -/
  unwritten : ∀ p f, b.module.funcs.items[p]? = some f →
    p < b.module.funcs.imported ∨ (∀ e ∈ log, e.begun? ≠ some p) →
    f.arena = {} ∧ f.first = none ∧ f.locals = #[]

/-- **One body for each function, isolated from the others**: this holds after any events, where
those that are refused are passed over. -/
theorem isolated_run (events : List Event) :
    (({} : Builder).run events).Isolated (({} : Builder).accepted events) := by
  have h := sound_empty.steps_accepted events
  refine ⟨?_, fun before i after hlog => ?_, fun before i after hlog => ?_, fun p f hf => ?_,
    fun before i after hlog => ?_, fun p f hf hp => ?_⟩
  · obtain ⟨n, hn, hlog⟩ := h.filterMap_begun sound_empty
    rw [hlog, hn]
    show List.range' (_ + 0) n = List.range' _ (0 + n)
    rw [Nat.add_zero, Nat.zero_add]
  · obtain ⟨_ | ⟨he, -⟩, hb⟩ := (hlog ▸ h).split
    exact hb.currentFunc_eq_none (hb.accepts he).of_beginBody.1.labels
  · obtain ⟨hsteps, hb⟩ := (hlog ▸ h).split
    exact (hsteps.of_endBody hb).1
  · rw [← codeAt_of_getElem? hf, ← localsAt_of_getElem? hf]
    exact h.written p
  · obtain ⟨hsteps, hb⟩ := (hlog ▸ h).split
    obtain ⟨-, hlt, hlt', hcode, hlocals⟩ := hsteps.of_endBody hb
    have hf := Array.getElem?_eq_getElem hlt
    have hf' := Array.getElem?_eq_getElem hlt'
    rw [codeAt_of_getElem? hf, codeAt_of_getElem? hf'] at hcode
    rw [localsAt_of_getElem? hf, localsAt_of_getElem? hf'] at hlocals
    exact ⟨_, _, hf, hf', hcode, Array.toList_inj.mp hlocals⟩
  · have hnot : ∀ e ∈ ({} : Builder).accepted events, e.begun? ≠ some p :=
      hp.elim h.begun?_ne_of_imported id
    obtain ⟨hcode, hlocals⟩ := h.untouched sound_empty (by nofun) hnot
    rw [codeAt_of_getElem? hf] at hcode
    rw [localsAt_of_getElem? hf] at hlocals
    exact ⟨congrArg Code.arena hcode, congrArg Code.first hcode, Array.toList_inj.mp hlocals⟩

end Builder
end WasmDecode
