import WasmDecode.Proofs.Effect
import WasmDecode.Proofs.Accept

/-!
# Names of functions

A function can be renamed, and several functions can be given one name. What a function is called,
and which function is found by a name, is decided by the names that have been given, in order.

* `find?_reverse_eq_some`: the last one of a kind in a list.
* `Naming`: a function is given a name; `Naming.lastName?` is the name that a function was given
  last, and `Naming.lastOwner?` the function that was given a name last.
* `Module.name_nameFunc`, `Module.funcNames_nameFunc`: what naming a function changes.
* `Builder.Named`: functions are called what they were called last, and a name is bound to the
  function that was given it last, as long as that one is not renamed; `Builder.Steps.named` says so
  of every run.
* `Builder.LastWins`: the same in terms of what has been given before and after; for every run it is
  `Builder.names_run`.
* `Builder.funcByName?_run`: which function is found by a name.
-/

namespace WasmDecode

/-! ## The last one of a kind -/

section Last

variable {α : Type} {given : List α} {g : α} {q : α → Bool}

theorem find?_reverse_concat :
    (given ++ [g]).reverse.find? q = if q g = true then some g else given.reverse.find? q := by
  rw [List.reverse_concat, List.find?_cons]
  cases q g <;> rfl

/-- The last one of a kind has none of that kind behind it. -/
theorem find?_reverse_eq_some : given.reverse.find? q = some g ↔
    q g ∧ ∃ before after, given = before ++ g :: after ∧ ∀ g' ∈ after, q g' = false := by
  rw [List.find?_eq_some_iff_append]
  refine and_congr_right fun _ => ⟨?_, ?_⟩
  · rintro ⟨later, earlier, hgiven, hlater⟩
    refine ⟨earlier.reverse, later.reverse, ?_, fun g' hg' => ?_⟩
    · simpa using congrArg List.reverse hgiven
    · simpa using hlater g' (List.mem_reverse.mp hg')
  · rintro ⟨before, after, rfl, hafter⟩
    exact ⟨after.reverse, before.reverse, by simp, fun g' hg' => by
      simpa using hafter g' (List.mem_reverse.mp hg')⟩

end Last

/-! ## Names that are given -/

/-- A function is given a name. -/
structure Naming where
  index : UInt32
  name : String
  deriving DecidableEq, Repr, Inhabited

/-- The name that an event gives to a function. An empty name names nothing. -/
def Event.naming? : Event → Option Naming
  | .names (.function index name) => if name = "" then none else some ⟨index, name⟩
  | _ => none

theorem Event.naming?_of_isCode {e : Event} (he : e.isCode = true) : e.naming? = none := by
  cases e <;> first | rfl | cases he

theorem Event.naming?_of_isIdle {e : Event} (he : e.isIdle = true) : e.naming? = none := by
  cases e with
  | names n =>
    cases n with
    | function i name => exact if_pos (String.isEmpty_iff.mp he)
    | _ => rfl
  | _ => rfl

namespace Naming

/-- The name that the function at position `p` was given last. -/
def lastName? (p : Nat) (given : List Naming) : Option String :=
  (given.reverse.find? fun g => g.index.toNat = p).map Naming.name

/-- The index of the function that was given a name last. -/
def lastOwner? (name : String) (given : List Naming) : Option UInt32 :=
  (given.reverse.find? fun g => g.name = name).map Naming.index

variable {p : Nat} {i : UInt32} {name : String} {g : Naming} {given : List Naming}

theorem lastName?_append : lastName? p (given ++ [g]) =
    if g.index.toNat = p then some g.name else lastName? p given := by
  rw [lastName?, find?_reverse_concat, apply_ite (Option.map Naming.name)]
  simp only [decide_eq_true_eq, Option.map_some, lastName?]

theorem lastOwner?_append : lastOwner? name (given ++ [g]) =
    if g.name = name then some g.index else lastOwner? name given := by
  rw [lastOwner?, find?_reverse_concat, apply_ite (Option.map Naming.index)]
  simp only [decide_eq_true_eq, Option.map_some, lastOwner?]

theorem isSome_lastName? : (lastName? p given).isSome ↔ ∃ g ∈ given, g.index.toNat = p := by
  simp [lastName?]

theorem isSome_lastOwner? : (lastOwner? name given).isSome ↔ ∃ g ∈ given, g.name = name := by
  simp [lastOwner?]

/-- What is called by a name has been given it. -/
theorem exists_of_lastName? (h : lastName? p given = some name) : ∃ g ∈ given, g.name = name := by
  obtain ⟨g, hg, hname⟩ := Option.map_eq_some_iff.mp h
  exact ⟨g, List.mem_reverse.mp (List.mem_of_find?_eq_some hg), hname⟩

/-- What owns a name has been named. -/
theorem exists_of_lastOwner? (h : lastOwner? name given = some i) :
    ∃ g ∈ given, g.index.toNat = i.toNat := by
  obtain ⟨g, hg, hindex⟩ := Option.map_eq_some_iff.mp h
  exact ⟨g, List.mem_reverse.mp (List.mem_of_find?_eq_some hg), congrArg UInt32.toNat hindex⟩

theorem lastName?_eq_some : lastName? p given = some name ↔
    ∃ before i after, given = before ++ ⟨i, name⟩ :: after ∧ i.toNat = p ∧
      ∀ g ∈ after, g.index.toNat ≠ p := by
  simp only [lastName?, Option.map_eq_some_iff, find?_reverse_eq_some, decide_eq_true_eq,
    decide_eq_false_iff_not]
  constructor
  · rintro ⟨⟨i, _⟩, ⟨hi, before, after, hgiven, hafter⟩, rfl⟩
    exact ⟨before, i, after, hgiven, hi, hafter⟩
  · rintro ⟨before, i, after, hgiven, hi, hafter⟩
    exact ⟨⟨i, name⟩, ⟨hi, before, after, hgiven, hafter⟩, rfl⟩

theorem lastName?_eq_none : lastName? p given = none ↔ ∀ g ∈ given, g.index.toNat ≠ p := by
  simp [lastName?]

theorem lastOwner?_eq_some : lastOwner? name given = some i ↔
    ∃ before after, given = before ++ ⟨i, name⟩ :: after ∧ ∀ g ∈ after, g.name ≠ name := by
  simp only [lastOwner?, Option.map_eq_some_iff, find?_reverse_eq_some, decide_eq_true_eq,
    decide_eq_false_iff_not]
  constructor
  · rintro ⟨⟨_, _⟩, ⟨rfl, before, after, hgiven, hafter⟩, rfl⟩
    exact ⟨before, after, hgiven, hafter⟩
  · rintro ⟨before, after, hgiven, hafter⟩
    exact ⟨⟨i, name⟩, ⟨rfl, before, after, hgiven, hafter⟩, rfl⟩

/-- Once a function has been named again, what it was called before does not matter. -/
theorem lastName?_append_of_mem {before after : List Naming} (h : ∃ g ∈ after, g.index.toNat = p) :
    lastName? p (before ++ after) = lastName? p after := by
  obtain ⟨g, hg⟩ := Option.isSome_iff_exists.mp (isSome_lastName?.mpr h)
  obtain ⟨found, hfound, -⟩ := Option.map_eq_some_iff.mp hg
  rw [lastName?, lastName?, List.reverse_append, List.find?_append, hfound, Option.some_or]

/-- A function is the last one that was given a name, and is still called by it: it has not been
named since. -/
theorem lastOwner?_and_lastName? :
    lastOwner? name given = some i ∧ lastName? i.toNat given = some name ↔
      ∃ before after, given = before ++ ⟨i, name⟩ :: after ∧
        ∀ g ∈ after, g.name ≠ name ∧ g.index ≠ i := by
  constructor
  · rintro ⟨howner, hname⟩
    obtain ⟨before, after, rfl, hafter⟩ := lastOwner?_eq_some.mp howner
    refine ⟨before, after, rfl, fun g hg => ⟨hafter g hg, ?_⟩⟩
    -- If it had been named since then it would have got this name once more.
    rintro rfl
    rw [List.append_cons, lastName?_append_of_mem ⟨g, hg, rfl⟩] at hname
    obtain ⟨g', hg', rfl⟩ := exists_of_lastName? hname
    exact hafter g' hg' rfl
  · rintro ⟨before, after, rfl, hafter⟩
    exact ⟨lastOwner?_eq_some.mpr ⟨before, after, rfl, fun g hg => (hafter g hg).1⟩,
      lastName?_eq_some.mpr ⟨before, i, after, rfl, rfl, fun g hg =>
        mt UInt32.toNat_inj.mp (hafter g hg).2⟩⟩

end Naming

/-! ## Naming one function -/

namespace Module

variable {m : Module} {i : UInt32} {p : Nat} {name name' : String}

theorem name_nameFunc (hi : i.toNat < m.funcs.size) :
    (m.nameFunc i name).funcs.items[p]?.bind Func.name =
      if i.toNat = p then some name else m.funcs.items[p]?.bind Func.name := by
  exact bind_getElem?_modify_some (fun _ => rfl) hi

/-- A name is bound to the function that gets it. Only the name that this function had is unbound,
if it was bound to it. -/
theorem funcNames_nameFunc : (m.nameFunc i name).funcNames[name']? =
    if name = name' then some i
    else if m.funcs.items[i.toNat]?.bind Func.name = some name' ∧ m.funcNames[name']? = some i then
      none
    else m.funcNames[name']? := by
  unfold nameFunc
  simp only [Std.TreeMap.getElem?_insert, Std.LawfulEqCmp.compare_eq_iff_eq]
  by_cases hname : name = name'
  · rw [if_pos hname, if_pos hname]
  · rw [if_neg hname, if_neg hname]
    cases m.funcs.items[i.toNat]?.bind Func.name with
    | none => simp
    | some old =>
      by_cases hold : old = name'
      · subst hold
        by_cases hi : m.funcNames[old]? = some i <;> simp [hi]
      · by_cases hi : m.funcNames[old]? = some i <;>
          simp [hi, hold, Std.TreeMap.getElem?_erase]

/-- Looking up a name finds the function that it is bound to. -/
theorem funcByName?_eq (m : Module) (name : String) :
    m.funcByName? name = m.funcNames[name]?.bind fun i => m.funcs.items[i.toNat]? := by
  unfold funcByName? funcIndexByName?
  cases m.funcNames[name]? with
  | none => rfl
  | some i =>
    by_cases hi : i.toNat < m.funcs.size
    · simp [hi]
    · have hnone : m.funcs.items[i.toNat]? = none :=
        Array.getElem?_eq_none (Nat.le_of_not_lt hi)
      simp [hi, hnone]

end Module

/-! ## Names after a run -/

namespace Builder

open Naming

variable {b b' c : Builder} {e : Event} {events : List Event} {given : List Naming}

/-- **Names** after some functions have been given names. -/
structure Named (b : Builder) (given : List Naming) : Prop where
  /-- A function is called what it was called last. -/
  name : ∀ p : Nat, b.module.funcs.items[p]?.bind Func.name = lastName? p given
  /-- A name is bound to the function that was given it last, if this is what it is called. -/
  bound : ∀ name : String, b.module.funcNames[name]? =
    (lastOwner? name given).filter fun i => lastName? i.toNat given = some name

theorem named_empty : ({} : Builder).Named [] where
  name _ := rfl
  bound _ := Std.TreeMap.getElem?_emptyc

/-- Neither the functions' names nor what they are bound to change. -/
theorem Named.congr (hb : b.Named given)
    (hname : ∀ p : Nat, b'.module.funcs.items[p]?.bind Func.name =
      b.module.funcs.items[p]?.bind Func.name)
    (hbound : b'.module.funcNames = b.module.funcNames) : b'.Named given where
  name p := (hname p).trans (hb.name p)
  bound name := hbound ▸ hb.bound name

/-- **A function is given a name.** -/
theorem Named.nameFunc (hb : b.Named given) {i : UInt32} (hi : i.toNat < b.module.funcs.size)
    (name : String) :
    { b with module := b.module.nameFunc i name }.Named (given ++ [Naming.mk i name]) where
  name p := by
    rw [lastName?_append]
    exact (Module.name_nameFunc hi).trans (by rw [hb.name])
  bound name' := by
    rw [lastOwner?_append]
    refine Module.funcNames_nameFunc.trans ?_
    by_cases hname : name = name'
    · rw [if_pos hname, if_pos hname, Option.filter_some]
      simp [lastName?_append, hname]
    · rw [if_neg hname, if_neg hname, hb.name, hb.bound]
      -- Only a function that is called by a name is bound to it, so the one that is renamed counts.
      cases lastOwner? name' given with
      | none => simp
      | some j =>
        simp only [Option.filter_some, lastName?_append]
        by_cases hij : i = j
        · subst hij
          by_cases hold : lastName? i.toNat given = some name' <;> simp [hold, hname]
        · have hne : ¬ i.toNat = j.toNat := mt UInt32.toNat_inj.mp hij
          by_cases hold : lastName? j.toNat given = some name' <;> simp [hold, hne, Ne.symm hij]

theorem Named.modify (hb : b.Named given) {q : Nat} {g : Func → Func}
    (hg : ∀ f, (g f).name = f.name) :
    { b with module.funcs := b.module.funcs.modify q g }.Named given :=
  hb.congr (fun _ => bind_getElem?_modify hg) rfl

/-- A function that is new has no name. -/
theorem Named.push (hb : b.Named given) {f : Func} (hf : f.name = none)
    (hitems : b'.module.funcs.items = b.module.funcs.items.push f)
    (hbound : b'.module.funcNames = b.module.funcNames) : b'.Named given := by
  refine hb.congr (fun p => ?_) hbound
  rw [hitems]
  exact bind_getElem?_push hf

/-- **One event** names what it names. -/
theorem Takes.named (h : b.Takes e b') (hb : b.Named given) :
    b'.Named (given ++ e.naming?.toList) := by
  have hnone (he : e.naming? = none) (hb' : b'.Named given) :
      b'.Named (given ++ e.naming?.toList) := by
    rwa [he, Option.toList_none, List.append_nil]
  cases h with
  | @importItem _ _ _ _ item =>
    refine hnone rfl ?_
    cases item with
    | func sigIndex => exact hb.push rfl rfl rfl
    | _ => exact hb.congr (fun _ => rfl) rfl
  | @define _ item =>
    refine hnone rfl ?_
    cases item with
    | func sigIndex => exact hb.push rfl rfl rfl
    | _ => exact hb.congr (fun _ => rfl) rfl
  | localDecl => exact hnone rfl (hb.modify fun _ => rfl)
  | code he hedits =>
    refine hnone (Event.naming?_of_isCode he) (hb.congr (fun p => ?_) ?_)
    · have hbare := congrArg (Option.bind · Func.name) (hedits.bare p)
      rwa [Option.bind_map, Option.bind_map] at hbare
    · rw [hedits.module]
  | @initValue _ _ target =>
    refine hnone rfl ?_
    obtain ⟨site, position⟩ := target
    cases site <;> exact hb.congr (fun _ => rfl) rfl
  | @function i name hn hi =>
    have hnaming : (Event.names (.function i name)).naming? = some ⟨i, name⟩ := if_neg hn
    rw [hnaming]
    exact hb.nameFunc hi name
  | localName =>
    refine hnone rfl (hb.modify fun f => ?_)
    unfold Func.nameLocal
    split <;> rfl
  | idle he => exact hnone (Event.naming?_of_isIdle he) hb
  | _ => exact hnone rfl (hb.congr (fun _ => rfl) rfl)

/-- **Names after a run** are those that its events have given. -/
theorem Steps.named (h : b.Steps events c) (hb : b.Named given) :
    c.Named (given ++ events.filterMap Event.naming?) := by
  induction h generalizing given with
  | nil => rwa [List.filterMap_nil, List.append_nil]
  | @cons b b' c e events he _ ih =>
    have hc := ih ((takes_of_handle he).named hb)
    rw [List.append_assoc] at hc
    have hcons : (e :: events).filterMap Event.naming? =
        e.naming?.toList ++ events.filterMap Event.naming? := by
      cases hg : e.naming? <;> simp [hg]
    rwa [hcons]

theorem named_run (events : List Event) : (({} : Builder).run events).Named
    ((({} : Builder).accepted events).filterMap Event.naming?) :=
  (sound_empty.steps_accepted events).named named_empty

/-! ## The last name wins -/

/-- **The last name wins**, after functions have been given names in the order of a list. -/
structure LastWins (b : Builder) (given : List Naming) : Prop where
  /-- A function is called what it was called last. -/
  name : ∀ (p : Nat) f n, b.module.funcs.items[p]? = some f → (f.name = some n ↔
    ∃ before i after, given = before ++ ⟨i, n⟩ :: after ∧ i.toNat = p ∧
      ∀ g ∈ after, g.index.toNat ≠ p)
  /-- It has no name if it was never given one. -/
  unnamed : ∀ (p : Nat) f, b.module.funcs.items[p]? = some f →
    (f.name = none ↔ ∀ g ∈ given, g.index.toNat ≠ p)
  /-- A name is bound to the function that was given it last, if this one was not named again. -/
  bound : ∀ (n : String) (i : UInt32), b.module.funcNames[n]? = some i ↔
    ∃ before after, given = before ++ ⟨i, n⟩ :: after ∧ ∀ g ∈ after, g.name ≠ n ∧ g.index ≠ i
  /-- What a name is bound to is called by it. -/
  name_of_bound : ∀ (n : String) (i : UInt32), b.module.funcNames[n]? = some i →
    ∃ f, b.module.funcs.items[i.toNat]? = some f ∧ f.name = some n

theorem Named.funcNames_eq_some (hb : b.Named given) {n : String} {i : UInt32} :
    b.module.funcNames[n]? = some i ↔
      lastOwner? n given = some i ∧ lastName? i.toNat given = some n := by
  rw [hb.bound, Option.filter_eq_some_iff, decide_eq_true_eq]

theorem Named.name_eq (hb : b.Named given) {p : Nat} {f : Func}
    (hf : b.module.funcs.items[p]? = some f) : f.name = lastName? p given := by
  have hname := hb.name p
  rwa [hf, Option.bind_some] at hname

theorem Named.lastWins (hb : b.Named given) : b.LastWins given where
  name p f n hf := by rw [hb.name_eq hf, lastName?_eq_some]
  unnamed p f hf := by rw [hb.name_eq hf, lastName?_eq_none]
  bound n i := hb.funcNames_eq_some.trans lastOwner?_and_lastName?
  name_of_bound n i hi := by
    obtain ⟨-, hlast⟩ := hb.funcNames_eq_some.mp hi
    exact Option.bind_eq_some_iff.mp ((hb.name i.toNat).trans hlast)

/-- **Names and what they are bound to** follow, in every run, from the names that functions have
been given by the events that were accepted. -/
theorem names_run (events : List Event) : (({} : Builder).run events).LastWins
    ((({} : Builder).accepted events).filterMap Event.naming?) :=
  (named_run events).lastWins

/-! ## Looking up a name -/

/-- **Looking up a name.** What is found by a name is called by it. If some function is called by a
name then there is one that was given it last, and this one is found as long as it is not renamed;
after that, nothing is found. -/
theorem funcByName?_run (events : List Event) (name : String) :
    let given := (({} : Builder).accepted events).filterMap Event.naming?
    let m := (({} : Builder).run events).module
    (∀ f, m.funcByName? name = some f → f.name = some name) ∧
    ((∃ f ∈ m.funcs.items, f.name = some name) →
      ∃ i f, lastOwner? name given = some i ∧ m.funcs.items[i.toNat]? = some f ∧
        m.funcByName? name = if f.name = some name then some f else none) := by
  intro given m
  have hm : (({} : Builder).run events).Named given := named_run events
  refine ⟨fun f hf => ?_, fun ⟨f, hmem, hf⟩ => ?_⟩
  · rw [Module.funcByName?_eq, hm.bound] at hf
    obtain ⟨i, hi, hf⟩ := Option.bind_eq_some_iff.mp hf
    have hname := hm.name i.toNat
    rw [hf, Option.bind_some] at hname
    exact hname.trans (of_decide_eq_true (Option.filter_eq_some_iff.mp hi).2)
  · obtain ⟨p, hp⟩ := Array.mem_iff_getElem?.mp hmem
    have hname := hm.name p
    rw [hp, Option.bind_some, hf] at hname
    -- The name has been given, so some function was given it last, and that one has a name.
    obtain ⟨i, hi⟩ := Option.isSome_iff_exists.mp
      (isSome_lastOwner?.mpr (exists_of_lastName? hname.symm))
    obtain ⟨last, hlast⟩ := Option.isSome_iff_exists.mp
      (isSome_lastName?.mpr (exists_of_lastOwner? hi))
    obtain ⟨f', hf', hname'⟩ := Option.bind_eq_some_iff.mp ((hm.name i.toNat).trans hlast)
    refine ⟨i, f', hi, hf', ?_⟩
    rw [Module.funcByName?_eq, hm.bound, hi, Option.filter_some, hlast, hname']
    by_cases heq : some last = some name
    · simpa [heq] using hf'
    · simp [heq]

/-- Not every function is found by its name: of two functions with one name, the one that was given
it last is renamed. -/
theorem exists_not_found : ¬ ∀ (events : List Event) (name : String), name ≠ "" →
    (∃ f ∈ (({} : Builder).run events).module.funcs.items, f.name = some name) →
    ∃ f, (({} : Builder).run events).module.funcByName? name = some f ∧ f.name = some name := by
  intro h
  let events : List Event := [.funcType 0 [] [], .define 0 (.func 0), .define 1 (.func 0),
    .names (.function 0 "a"), .names (.function 1 "a"), .names (.function 1 "b")]
  have hcalled : ∃ f ∈ (({} : Builder).run events).module.funcs.items, f.name = some "a" := by
    decide
  have hfound : (({} : Builder).run events).module.funcByName? "a" = none := rfl
  obtain ⟨f, hf, -⟩ := h events "a" (by decide) hcalled
  rw [hfound] at hf
  cases hf

end Builder
end WasmDecode
