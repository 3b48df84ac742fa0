import WasmDecode.Proofs.Isolation
import WasmDecode.Proofs.Preorder

/-!
# How deep scopes are nested

A builder keeps one label for each open scope, and remembers how many there have been at most. The
first is a matter of counting events, the second one of the trees that the bodies are.

* `Forest.depth`, `Code.nesting`: how deep scopes are nested in a list of instructions, and in those
  of a function.
* `OpenBody.balanced`: the open scopes are those that have begun and not ended.
* `OpenBody.depth_of_step?`: with one more event of a body, its depth grows as far as the number of
  open scopes does.
* `Builder.Sound.maxDepth_step`: the largest depth takes in the depth after each event.
* `Builder.Deepest`: the largest depth is that of the deepest function.
* `Builder.Levels`: what is said above, of a run; `Builder.levels_run` says so of every run.
-/

namespace WasmDecode

/-! ## Forests -/

namespace Forest

/-- How deep scopes are nested. -/
def depth : Forest → Nat
  | nil => 0
  | plain _ rest => rest.depth
  | scope _ _ body rest => max (body.depth + 1) rest.depth
  | ifElse _ thenArm elseArm rest => max (max thenArm.depth elseArm.depth + 1) rest.depth

/-- An `if` in an `else`, and a loop behind that. -/
example : (ifElse [] (plain .nop nil) (scope .ifThen [] nil nil) (scope .loop [] nil nil)).depth =
    2 := rfl

theorem depth_append (f g : Forest) : (f.append g).depth = max f.depth g.depth := by
  induction f with
  | nil => simp [append, depth]
  | _ => simp_all [append, depth, Nat.max_assoc]

theorem depth_consIf {sig : List ValueType} {thenArm elseArm rest : Forest} :
    (consIf sig thenArm elseArm rest).depth =
      max (max thenArm.depth elseArm.depth + 1) rest.depth := by
  cases elseArm with
  | nil => rw [consIf, depth, depth, Nat.max_zero]
  | _ => rfl

/-- An `else` that holds nothing does not count. -/
theorem depth_dropEmptyElse (f : Forest) : f.dropEmptyElse.depth = f.depth := by
  induction f with
  | nil => rfl
  | plain i rest ih => exact ih
  | scope kind sig body rest ihb ihr => rw [dropEmptyElse, depth, ihb, ihr, depth]
  | ifElse sig thenArm elseArm rest iht ihe ihr =>
    rw [dropEmptyElse, depth_consIf, iht, ihe, ihr, depth]

end Forest

/-- How deep scopes are nested in the tree that the links of a function spell out. -/
def Code.nesting (c : Code) : Nat := (c.arena.forest c.arena.size c.first).depth

/-! ## Open bodies -/

namespace Event

/-- Whether an event begins a block, a loop or an `if`. -/
def opensScope : Event → Bool
  | .beginScope .. => true
  | _ => false

/-- Whether an event ends one. -/
def closesScope : Event → Bool
  | .endScope => true
  | _ => false

end Event

/-- What begins in a list of instructions ends there. -/
theorem Forest.balanced (f : Forest) :
    f.events.countP Event.opensScope = f.events.countP Event.closesScope := by
  induction f <;> simp_all [events, List.countP_cons, Event.opensScope, Event.closesScope] <;> omega

namespace OpenBody

variable {o o' : OpenBody} {e : Event}

/-- **The open scopes** of a body are those that have begun and not ended. -/
theorem balanced (o : OpenBody) : o.outerLabels.length + o.events.countP Event.closesScope =
    o.events.countP Event.opensScope := by
  induction o with
  | body done => simp [outerLabels, events, done.balanced]
  | scope outer kind sig done ih =>
    have hdone := done.balanced
    simp only [outerLabels, events, List.countP_append, List.countP_cons, List.length_cons,
      Event.opensScope, Event.closesScope, if_true, if_false, Bool.false_eq_true]
    omega
  | elseArm outer sig thenArm done ih =>
    have hthen := thenArm.balanced
    have hdone := done.balanced
    simp only [outerLabels, events, List.countP_append, List.countP_cons, List.length_cons,
      Event.opensScope, Event.closesScope, if_true, if_false, Bool.false_eq_true]
    omega

theorem close_add (o : OpenBody) (g : Forest) : (o.add g).close .nil = o.close g := by
  cases o <;> simp [add, close]

/-- What is added to the innermost scope is as deep as the open scopes around it are, and more. -/
theorem depth_close (o : OpenBody) (g : Forest) :
    (o.close g).depth = max (o.close .nil).depth (o.outerLabels.length + g.depth) := by
  induction o generalizing g with
  | body done => simp [close, outerLabels, Forest.depth_append]
  | scope outer kind sig done ih =>
    rw [close, close, ih, ih (.scope kind sig _ _)]
    simp only [outerLabels, List.length_cons, Forest.depth, Forest.depth_append, Nat.max_zero]
    rw [← Nat.add_max_add_right, ← Nat.add_max_add_left, ← Nat.max_assoc, Nat.add_assoc _ 1,
      Nat.add_comm 1]
  | elseArm outer sig thenArm done ih =>
    rw [close, close, ih, ih (.ifElse sig thenArm _ _)]
    simp only [outerLabels, List.length_cons, Forest.depth, Forest.depth_append, Nat.max_zero]
    rw [← Nat.max_assoc, ← Nat.add_max_add_right, ← Nat.add_max_add_left, ← Nat.max_assoc,
      Nat.add_assoc _ 1, Nat.add_comm 1]

/-- Around what has been read, all open scopes are nested. -/
theorem length_outerLabels_le (o : OpenBody) : o.outerLabels.length ≤ (o.close .nil).depth := by
  have h := o.depth_close .nil
  simp only [Forest.depth] at h
  omega

/-- A scope that ends has been closed where it ends. -/
theorem close_end (h : o.step? .endScope = some o') : o'.close .nil = o.close .nil := by
  unfold step? at h
  split at h <;> cases h <;> simp_all [close_add, close]

/-- Behind its `else`, an `if` is as deep as before. -/
theorem depth_else (h : o.step? .elseArm = some o') :
    (o'.close .nil).depth = (o.close .nil).depth := by
  unfold step? at h
  split at h <;> cases h <;> simp_all
  next outer sig done =>
    rw [close, close, depth_close, depth_close outer (.scope ..)]
    simp [Forest.depth, Forest.append]

/-- **One more event of a body** makes it deeper only if more scopes are open then than have been
nested before. -/
theorem depth_of_step? (h : o.step? e = some o') : (o'.close .nil).depth + 1 =
    max ((o.close .nil).depth + 1) o'.labels.length := by
  have hle := o.length_outerLabels_le
  have hle' := o'.length_outerLabels_le
  rw [labels, List.length_cons]
  cases e with
  | instr i =>
    rw [step?_instr] at h
    cases h
    rw [close_add, depth_close, outerLabels_add]
    simp only [Forest.depth]
    omega
  | beginScope kind sig =>
    rw [step?_beginScope] at h
    cases h
    rw [close, depth_close]
    simp only [outerLabels, List.length_cons, Forest.depth, Forest.append]
    omega
  | elseArm =>
    rw [← depth_else h]
    omega
  | endScope =>
    rw [← close_end h]
    omega
  | _ => cases o <;> cases h

/-- Only the begin of a scope adds to the open ones. -/
theorem length_labels_le (h : o.step? e = some o') (he : e.opensScope = false) :
    o'.labels.length ≤ o.labels.length := by
  unfold step? at h
  split at h <;> cases h <;> simp_all [labels, outerLabels, outerLabels_add, Event.opensScope]

end OpenBody

theorem Code.Spells.nesting_eq {c : Code} {o : OpenBody} (h : c.Spells o) :
    c.nesting = (o.close .nil).depth := by
  rw [nesting, h.forest_eq (Nat.le_refl _), Forest.depth_dropEmptyElse]

/-! ## The largest depth -/

/-- The largest depth so far stays. -/
def Builder.SameMaxDepth (b b' : Builder) : Prop := b'.maxDepth = b.maxDepth

namespace Builder

variable {b b' c : Builder} {p : Nat} {o o' : OpenBody} {e : Event} {log : List Event}

instance : Std.Refl SameMaxDepth where
  refl _ := rfl

instance : Trans SameMaxDepth SameMaxDepth SameMaxDepth where
  trans h h' := h'.trans h

/-- Among the instructions, only the begin of a scope adds to the largest depth. -/
theorem maxDepth_of_code (h : b.handle e = .ok () b') (he : e.isCode = true) :
    b'.maxDepth = if e.opensScope = true then max b.maxDepth b'.depth else b.maxDepth := by
  have hfunc (p : Nat) (g : Func → Func) (_ : ∀ f, (g f).bare = f.bare) :
      Build.Changes SameMaxDepth (Build.modifyFunc p g) := .modifyModule fun _ => rfl
  have hlabels (f : Builder → List Label) :
      Build.Changes SameMaxDepth (modify fun b => { b with labels := f b }) := .modify fun _ => rfl
  cases e with
  | instr i => exact Build.Keeps.addInstr hfunc hlabels i _ _ _ h
  | beginScope kind sig =>
    obtain ⟨id, b₁, happend, hpush⟩ := Build.run_bind_ok.mp h
    have hsame : b₁.maxDepth = b.maxDepth := Build.Keeps.append hfunc hlabels _ _ _ _ happend
    obtain rfl := Build.run_modify_ok.mp hpush
    exact congrArg (max · _) hsame
  | elseArm => exact Build.Keeps.elseArm hlabels _ _ _ h
  | endScope => exact Build.Keeps.endScope hlabels _ _ _ h
  | _ => cases he

/-- Apart from the begin of a body, other events do not add to it. -/
theorem Takes.maxDepth_eq (h : b.Takes e b') (he : e.isCode = false) (hle : b.depth ≤ b.maxDepth) :
    b'.maxDepth = max b.maxDepth b'.depth := by
  cases h with
  | beginBody => rfl
  | code hcode => cases he.symm.trans hcode
  | endBody hp hl hk =>
    rw [depth, hl, List.length_cons] at hle
    exact (Nat.max_eq_left (Nat.le_of_succ_le hle)).symm
  | _ => exact (Nat.max_eq_left hle).symm

/-- **The largest depth** after an event, accepted or not. -/
theorem Sound.maxDepth_step (hb : b.Sound) (e : Event) (hle : b.depth ≤ b.maxDepth) :
    (b.step e).maxDepth = max b.maxDepth (b.step e).depth := by
  unfold Builder.step
  rcases hb.handle_cases e with ⟨b', h, ha⟩ | ⟨stop, h⟩
  · rw [h]
    show b'.maxDepth = max b.maxDepth b'.depth
    have hplain (he : e.isCode = false) : b'.maxDepth = max b.maxDepth b'.depth :=
      (takes_of_handle h).maxDepth_eq he hle
    cases ha with
    | beginBody | endBody => exact hplain rfl
    | other he => exact hplain (by cases e <;> first | rfl | cases he)
    | code hr he hs hadv =>
      rw [maxDepth_of_code h he]
      split
      · rfl
      · next hopens =>
        have hlabels := OpenBody.length_labels_le hs (Bool.eq_false_iff.mpr hopens)
        rw [depth, hr.labels] at hle
        rw [depth, hadv.reading.labels, Nat.max_eq_left (Nat.le_trans hlabels hle)]
  · rw [h]
    exact (Nat.max_eq_left hle).symm

/-- The largest depth is that after some of the events, unless it was reached before. -/
theorem Sound.maxDepth_run (hb : b.Sound) (hle : b.depth ≤ b.maxDepth) (events : List Event) :
    b.maxDepth ≤ (b.run events).maxDepth ∧
      (∀ before, before <+: events → (b.run before).depth ≤ (b.run events).maxDepth) ∧
      ((b.run events).maxDepth = b.maxDepth ∨
        ∃ before, before <+: events ∧ (b.run before).depth = (b.run events).maxDepth) := by
  induction events generalizing b with
  | nil =>
    refine ⟨Nat.le_refl _, fun before h => ?_, .inl rfl⟩
    rw [List.prefix_nil.mp h]
    exact hle
  | cons e events ih =>
    have hmax := hb.maxDepth_step e hle
    have hle' : (b.step e).depth ≤ (b.step e).maxDepth := hmax ▸ Nat.le_max_right _ _
    have hgrows : b.maxDepth ≤ (b.step e).maxDepth := hmax ▸ Nat.le_max_left _ _
    obtain ⟨hlast, hall, hsome⟩ := ih (hb.step e) hle'
    show b.maxDepth ≤ ((b.step e).run events).maxDepth ∧ _ ∧
      (((b.step e).run events).maxDepth = _ ∨ _)
    refine ⟨Nat.le_trans hgrows hlast, fun before h => ?_, ?_⟩
    · rcases List.prefix_cons_iff.mp h with rfl | ⟨rest, rfl, hrest⟩
      · exact Nat.le_trans hle (Nat.le_trans hgrows hlast)
      · exact hall rest hrest
    · rcases hsome with heq | ⟨before, h, heq⟩
      · -- The depth after the first event is the largest one, or has not changed it.
        rcases Nat.le_total b.maxDepth (b.step e).depth with hd | hd
        · refine .inr ⟨[e], List.prefix_cons_iff.mpr (.inr ⟨[], rfl, List.nil_prefix⟩), ?_⟩
          exact (Nat.max_eq_right hd).symm.trans (hmax.symm.trans heq.symm)
        · exact .inl (heq.trans (hmax.trans (Nat.max_eq_left hd)))
      · exact .inr ⟨e :: before, List.prefix_cons_iff.mpr (.inr ⟨before, rfl, h⟩), heq⟩

/-! ## The deepest function -/

/-- The largest depth is that of the deepest function with its body. It is 0 as long as no body has
begun. -/
structure Deepest (b : Builder) : Prop where
  le : ∀ p, (b.codeAt p).nesting + 1 ≤ max 1 b.maxDepth
  exists_eq : 0 < b.maxDepth → ∃ p < b.module.funcs.size, (b.codeAt p).nesting + 1 = b.maxDepth
  begun : 0 < b.bodiesRead → 0 < b.maxDepth

theorem deepest_empty : ({} : Builder).Deepest where
  le _ := Nat.le_refl 1
  exists_eq h := absurd h (Nat.lt_irrefl 0)
  begun h := absurd h (Nat.lt_irrefl 0)

/-- Neither the instructions nor the largest depth change. -/
theorem Deepest.congr (hb : b.Deepest) (hcode : ∀ p, b'.codeAt p = b.codeAt p)
    (hsize : b.module.funcs.size ≤ b'.module.funcs.size) (hmax : b'.maxDepth = b.maxDepth)
    (hread : b'.bodiesRead = b.bodiesRead) : b'.Deepest where
  le p := by
    rw [hcode, hmax]
    exact hb.le p
  exists_eq h := by
    rw [hmax] at h ⊢
    obtain ⟨p, hp, heq⟩ := hb.exists_eq h
    exact ⟨p, Nat.lt_of_lt_of_le hp hsize, by rwa [hcode]⟩
  begun h := by
    rw [hmax]
    exact hb.begun (hread ▸ h)

/-- **One event** makes the deepest function deeper as far as it does so with the largest depth. -/
theorem Deepest.accepts (hb : b.Deepest) (ha : b.Accepts e b') (hle : b.depth ≤ b.maxDepth)
    (hmax : b'.maxDepth = max b.maxDepth b'.depth) : b'.Deepest := by
  cases ha with
  | @beginBody i hm =>
    replace hmax : (b.openBody i).maxDepth = max b.maxDepth 1 := rfl
    refine ⟨fun p => ?_, fun _ => ?_, fun _ => by omega⟩
    · have hp : ((b.openBody i).codeAt p).nesting + 1 ≤ max 1 b.maxDepth := hb.le p
      omega
    · by_cases hm₀ : 0 < b.maxDepth
      · obtain ⟨p, hp, heq⟩ := hb.exists_eq hm₀
        refine ⟨p, hp, ?_⟩
        show (b.codeAt p).nesting + 1 = _
        omega
      · -- It is the first body, and nothing is in it yet.
        have hi := hb.le i.toNat
        refine ⟨i.toNat, hm.lt_size, ?_⟩
        show (b.codeAt i.toNat).nesting + 1 = _
        omega
  | @code q o o' _ _ hr he hs hadv =>
    have hnesting := hr.spells.nesting_eq
    have hnesting' := hadv.reading.spells.nesting_eq
    have hstep := OpenBody.depth_of_step? hs
    have hdepth' : b'.depth = o'.labels.length := congrArg List.length hadv.reading.labels
    have hpos : 0 < b.maxDepth := by
      rw [depth, hr.labels] at hle
      exact Nat.lt_of_lt_of_le (Nat.succ_pos _) hle
    refine ⟨fun p => ?_, fun _ => ?_, fun _ => by omega⟩
    · by_cases hp : p = q
      · subst hp
        have := hb.le p
        omega
      · rw [hadv.other p hp]
        have := hb.le p
        omega
    · obtain ⟨p, hp, heq⟩ := hb.exists_eq hpos
      by_cases hgrows : b'.depth ≤ b.maxDepth
      · refine ⟨p, hadv.size ▸ hp, ?_⟩
        by_cases hpq : p = q
        · subst hpq
          omega
        · rw [hadv.other p hpq]
          omega
      · -- More scopes are open than ever before, so this body is the deepest one.
        have := hb.le q
        exact ⟨q, hadv.size ▸ hr.lt_size, by omega⟩
  | endBody hr => exact hb.congr (fun _ => rfl) (Nat.le_refl _) rfl rfl
  | other he hk =>
    refine hb.congr hk.code hk.size ?_ hk.bodiesRead
    rw [hmax, depth, hk.labels]
    exact Nat.max_eq_left hle

theorem Sound.deepest_run (hs : b.Sound) (hle : b.depth ≤ b.maxDepth) (hb : b.Deepest)
    (events : List Event) : (b.run events).Deepest := by
  induction events generalizing b with
  | nil => exact hb
  | cons e events ih =>
    have hmax := hs.maxDepth_step e hle
    refine ih (hs.step e) (hmax ▸ Nat.le_max_right _ _) ?_
    unfold Builder.step at hmax ⊢
    rcases hs.handle_cases e with ⟨b', h, ha⟩ | ⟨stop, h⟩
    · rw [h] at hmax ⊢
      exact hb.accepts ha hle hmax
    · rw [h]
      exact hb

/-! ## Counting -/

/-- As many bodies have begun as have ended, up to the one that is open. -/
theorem Steps.length_begun (h : b.Steps log c) (hb : b.Sound) :
    (log.filterMap Event.begun?).length + b.currentFunc.toList.length =
      (log.filterMap Event.ended?).length + c.currentFunc.toList.length := by
  induction h with
  | nil => rfl
  | @cons b b' c e log he _ ih =>
    have ha := hb.accepts he
    have hlog := ih (hb.of_accepts ha)
    have hother (hbegun : e.begun? = none) (hended : e.ended? = none)
        (hcurrent : b'.currentFunc = b.currentFunc) :
        ((e :: log).filterMap Event.begun?).length + b.currentFunc.toList.length =
          ((e :: log).filterMap Event.ended?).length + c.currentFunc.toList.length := by
      rw [List.filterMap_cons_none hbegun, List.filterMap_cons_none hended, ← hcurrent, hlog]
    cases ha with
    | @beginBody i hm =>
      have hbegun : (Event.beginBody i).begun? = some i.toNat := rfl
      have hended : (Event.beginBody i).ended? = none := rfl
      have hopen : (b.openBody i).currentFunc.toList.length = 1 := rfl
      rw [List.filterMap_cons_some hbegun, List.filterMap_cons_none hended,
        hb.currentFunc_eq_none hm.labels, List.length_cons, Option.toList_none, List.length_nil]
      omega
    | @endBody i f hr =>
      have hbegun : (Event.endBody i).begun? = none := rfl
      have hended : (Event.endBody i).ended? = some i.toNat := rfl
      have hclosed : b.closeBody.currentFunc.toList.length = 0 := rfl
      rw [List.filterMap_cons_none hbegun, List.filterMap_cons_some hended, hr.current,
        List.length_cons, Option.toList_some, List.length_singleton]
      omega
    | code hr he _ hadv =>
      refine hother ?_ ?_ (hadv.reading.current.trans hr.current.symm) <;>
        cases e <;> first | rfl | cases he
    | other he hk =>
      refine hother ?_ ?_ hk.currentFunc <;> cases e <;> first | rfl | cases he

theorem depth_eq_zero : b.depth = 0 ↔ b.labels = [] := List.length_eq_zero_iff

/-- The module may end while no scope is open. -/
theorem stop?_endModule : b.stop? .endModule = none ↔ b.depth = 0 := by
  rw [stop?_eq_none, depth_eq_zero]
  constructor
  · rintro ⟨b', hb'⟩
    exact (Build.run_endModule.mp hb').1
  · intro hl
    exact ⟨b, Build.run_endModule.mpr ⟨hl, rfl⟩⟩

theorem finish_eq_ok : (∃ m, b.finish = .ok m) ↔ b.depth = 0 := by
  rw [depth_eq_zero, finish]
  split <;> simp_all

/-! ## Levels -/

/-- How deep scopes are nested in a builder that has accepted the events `log`, from the first one
on. -/
structure Levels (b : Builder) (log : List Event) : Prop where
  /-- Nothing is open if as many bodies have ended as have begun. -/
  closed : (log.filterMap Event.begun?).length = (log.filterMap Event.ended?).length → b.depth = 0
  /-- Otherwise the body that has begun last is open, and in it the scopes that have begun and not
  ended. -/
  opened : (log.filterMap Event.begun?).length ≠ (log.filterMap Event.ended?).length →
    ∃ before i inside, log = before ++ .beginBody i :: inside ∧ (∀ e ∈ inside, e.body? = none) ∧
      b.depth + inside.countP Event.closesScope = 1 + inside.countP Event.opensScope
  /-- The largest depth is the maximum of the depths after the first events. -/
  depth_le : ∀ before, before <+: log → (({} : Builder).run before).depth ≤ b.maxDepth
  exists_depth : ∃ before, before <+: log ∧ (({} : Builder).run before).depth = b.maxDepth
  endModule : b.stop? .endModule = none ↔ b.depth = 0
  finish : (∃ m, b.finish = .ok m) ↔ b.depth = 0
  /-- If a body has begun, the largest depth is one more than that of the deepest function. -/
  nesting_lt : log.filterMap Event.begun? ≠ [] →
    ∀ f ∈ b.module.funcs.items, f.code.nesting + 1 ≤ b.maxDepth
  exists_nesting : log.filterMap Event.begun? ≠ [] →
    ∃ f ∈ b.module.funcs.items, f.code.nesting + 1 = b.maxDepth

/-- What is open of a body that is open in the end. -/
theorem exists_inside_of_run (events : List Event)
    (hp : (({} : Builder).run events).currentFunc = some p) :
    ∃ before i inside, ({} : Builder).accepted events = before ++ .beginBody i :: inside ∧
      (∀ e ∈ inside, e.body? = none) ∧
      (({} : Builder).run events).depth + inside.countP Event.closesScope =
        1 + inside.countP Event.opensScope := by
  obtain ⟨i, before, inside, o, -, hlog, hnone, hr, ho⟩ := exists_reading_of_run events hp
  have hbalanced := o.balanced
  have hdepth : (({} : Builder).run events).depth = o.outerLabels.length + 1 :=
    congrArg List.length hr.labels
  have hcount {q : Event → Bool} (hq : ∀ e, q e = true → e.isCode = true) :
      (inside.filter Event.isCode).countP q = inside.countP q := by
    rw [List.countP_filter]
    refine List.countP_congr fun e _ => ?_
    simpa using hq e
  have hopens : (inside.filter Event.isCode).countP Event.opensScope = _ :=
    hcount fun e he => by cases e <;> first | rfl | cases he
  have hcloses : (inside.filter Event.isCode).countP Event.closesScope = _ :=
    hcount fun e he => by cases e <;> first | rfl | cases he
  rw [ho, hopens, hcloses] at hbalanced
  exact ⟨before, i, inside, hlog, hnone, by omega⟩

/-- **Levels.** After any events, where those that are refused are passed over, the depth is what
has begun and not ended, and the largest depth is that of the deepest function. -/
theorem levels_run (events : List Event) :
    (({} : Builder).run events).Levels (({} : Builder).accepted events) := by
  have h := sound_empty.steps_accepted events
  have hsound := sound_run events
  have hinside := fun (p : Nat) => exists_inside_of_run events (p := p)
  have hdeepest := sound_empty.deepest_run (Nat.le_refl 0) deepest_empty events
  generalize ({} : Builder).run events = b at h hsound hinside hdeepest ⊢
  generalize ({} : Builder).accepted events = log at h hinside ⊢
  have hcounts : (log.filterMap Event.begun?).length + 0 =
      (log.filterMap Event.ended?).length + b.currentFunc.toList.length :=
    h.length_begun sound_empty
  obtain ⟨-, hall, hsome⟩ := sound_empty.maxDepth_run (Nat.le_refl 0) log
  rw [h.run_eq] at hall hsome
  have hpos (hlog : log.filterMap Event.begun? ≠ []) : 0 < b.maxDepth := by
    obtain ⟨n, hn, hbegun⟩ := h.filterMap_begun sound_empty
    replace hn : b.bodiesRead = 0 + n := hn
    refine hdeepest.begun (Nat.pos_of_ne_zero fun hzero => hlog ?_)
    obtain rfl : n = 0 := by omega
    exact hbegun
  refine ⟨fun heq => ?_, fun hne => ?_, hall, ?_, stop?_endModule, finish_eq_ok, fun hlog f hf => ?_,
    fun hlog => ?_⟩
  · cases hc : b.currentFunc with
    | none => exact depth_eq_zero.mpr (hsound.idle hc)
    | some p =>
      rw [hc, Option.toList_some, List.length_singleton] at hcounts
      omega
  · cases hc : b.currentFunc with
    | none =>
      rw [hc, Option.toList_none, List.length_nil] at hcounts
      omega
    | some p => exact hinside p hc
  · rcases hsome with hzero | hsome
    · exact ⟨[], List.nil_prefix, hzero.symm⟩
    · exact hsome
  · obtain ⟨p, hp⟩ := Array.mem_iff_getElem?.mp hf
    have hle := hdeepest.le p
    have hmax := hpos hlog
    rw [codeAt_of_getElem? hp] at hle
    omega
  · obtain ⟨p, hp, heq⟩ := hdeepest.exists_eq (hpos hlog)
    obtain ⟨f, hf, hcode⟩ := getElem?_of_lt hp
    exact ⟨f, Array.mem_of_getElem? hf, hcode ▸ heq⟩

end Builder
end WasmDecode
