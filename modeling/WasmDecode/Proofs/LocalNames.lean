import WasmDecode.Proofs.FuncNames
import WasmDecode.Proofs.Isolation
import WasmDecode.Proofs.References

/-!
# Locals and their names

A function gets its locals while its body is open, up to a limit. Its parameters and locals share
one range of indices, the parameters in front, and can be named and renamed at any time. The names
of parameters and those of locals are kept apart, and in each of the two the last name wins.

* `LocalNaming`: a parameter or local is given a name; `LocalNaming.lastIndex?` is the index that
  was given a name last, among the indices of one kind.
* `Func.paramNames_nameLocal`, `Func.localNames_nameLocal`: what naming one of them changes.
* `Builder.LocalNamed`: a name stands for what was given it last; `Builder.Takes.localNamed` says
  what one event does to that.
* `Builder.WithinLimit`: no function has more locals than it may have.
* `Builder.HasLocals`: the locals and their names in terms of the events that were accepted, and
  which events are; for every run it is `Builder.locals_run`.
-/

namespace WasmDecode

/-- A parameter or local of a function is given a name. -/
structure LocalNaming where
  func : UInt32
  index : UInt32
  name : String
  deriving DecidableEq, Repr, Inhabited

/-- The name that an event gives to a parameter or local. An empty name names nothing. -/
def Event.localNaming? : Event → Option LocalNaming
  | .names (.localName func index name) => if name = "" then none else some ⟨func, index, name⟩
  | _ => none

theorem Event.localNaming?_of_isCode {e : Event} (he : e.isCode = true) :
    e.localNaming? = none := by
  cases e <;> first | rfl | cases he

theorem Event.localNaming?_of_isIdle {e : Event} (he : e.isIdle = true) :
    e.localNaming? = none := by
  cases e with
  | names n =>
    cases n with
    | localName i l name => exact if_pos (String.isEmpty_iff.mp he)
    | _ => rfl
  | _ => rfl

namespace LocalNaming

/-- The index that was given a name last in the function at position `p`, among the indices for
which `q` holds. -/
def lastIndex? (p : Nat) (name : String) (q : Nat → Prop) [DecidablePred q]
    (given : List LocalNaming) : Option UInt32 :=
  (given.reverse.find? fun g => g.func.toNat = p ∧ g.name = name ∧ q g.index.toNat).map
    LocalNaming.index

variable {p : Nat} {name : String} {q : Nat → Prop} [DecidablePred q] {i : UInt32}
  {g : LocalNaming} {given : List LocalNaming}

theorem lastIndex?_concat : lastIndex? p name q (given ++ [g]) =
    if g.func.toNat = p ∧ g.name = name ∧ q g.index.toNat then some g.index
    else lastIndex? p name q given := by
  rw [lastIndex?, find?_reverse_concat, apply_ite (Option.map LocalNaming.index)]
  simp only [decide_eq_true_eq, Option.map_some, lastIndex?]

-- The last index below 2 that was given the name.
example : lastIndex? 0 "a" (· < 2) [⟨0, 0, "a"⟩, ⟨0, 1, "a"⟩, ⟨0, 2, "a"⟩, ⟨1, 0, "a"⟩] =
    some 1 := by decide

/-- In a function of which nothing was named, no index was given a name. -/
theorem lastIndex?_eq_none (h : ∀ g ∈ given, g.func.toNat ≠ p) :
    lastIndex? p name q given = none := by
  rw [lastIndex?, Option.map_eq_none_iff, List.find?_eq_none]
  intro g hg
  simp [h g (List.mem_reverse.mp hg)]

end LocalNaming

/-! ## Naming one parameter or local -/

namespace Func

open LocalNaming

variable {f f' : Func} {p : Nat} {i : UInt32} {name name' : String} {given : List LocalNaming}

theorem paramNames_nameLocal : (f.nameLocal i name).paramNames[name']? =
    if name = name' ∧ i.toNat < f.numParams then some i else f.paramNames[name']? := by
  unfold nameLocal
  by_cases hi : i.toNat < f.numParams
  · simp [hi, Std.TreeMap.getElem?_insert]
  · simp [hi]

/-- Locals are counted from the first one behind the parameters. -/
theorem localNames_nameLocal : (f.nameLocal i name).localNames[name']? =
    if name = name' ∧ f.numParams ≤ i.toNat then some (i - f.numParams.toUInt32)
    else f.localNames[name']? := by
  unfold nameLocal
  by_cases hi : i.toNat < f.numParams
  · simp [hi, Nat.not_le_of_lt hi]
  · simp [hi, Nat.le_of_not_lt hi, Std.TreeMap.getElem?_insert]

theorem type_nameLocal : (f.nameLocal i name).type = f.type := by
  unfold nameLocal
  split <;> rfl

/-- The names of parameters and locals, with the type, which decides which index is that of a
parameter. -/
def nameTables (f : Func) : FuncType × NameMap × NameMap := (f.type, f.paramNames, f.localNames)

/-- **The names of one function**, at position `p`, after some parameters and locals have been given
names. -/
structure NamedLocals (f : Func) (p : Nat) (given : List LocalNaming) : Prop where
  /-- A name of a parameter stands for the parameter that was given it last. -/
  paramNames : ∀ name, f.paramNames[name]? = lastIndex? p name (· < f.numParams) given
  /-- So does a name of a local. -/
  localNames : ∀ name, f.localNames[name]? =
    (lastIndex? p name (f.numParams ≤ ·) given).map (· - f.numParams.toUInt32)

theorem NamedLocals.congr (hf : f.NamedLocals p given) (h : f'.nameTables = f.nameTables) :
    f'.NamedLocals p given := by
  obtain ⟨htype, hparams, hlocals⟩ : f'.type = f.type ∧ f'.paramNames = f.paramNames ∧
      f'.localNames = f.localNames := by simpa [nameTables] using h
  have hnum : f'.numParams = f.numParams := by rw [numParams, numParams, htype]
  refine ⟨fun name => ?_, fun name => ?_⟩
  · rw [hparams, hnum]
    exact hf.paramNames name
  · rw [hlocals, hnum]
    exact hf.localNames name

/-- A function that is new has no names, and has been given none. -/
theorem NamedLocals.of_new (hparams : f.paramNames = ∅) (hlocals : f.localNames = ∅)
    (h : ∀ g ∈ given, g.func.toNat ≠ p) : f.NamedLocals p given where
  paramNames name := by
    rw [hparams, lastIndex?_eq_none h]
    exact Std.TreeMap.getElem?_emptyc
  localNames name := by
    rw [hlocals, lastIndex?_eq_none h]
    exact Std.TreeMap.getElem?_emptyc

/-- What is named in another function does not matter. -/
theorem NamedLocals.append_of_ne (hf : f.NamedLocals p given) {g : LocalNaming}
    (hg : g.func.toNat ≠ p) : f.NamedLocals p (given ++ [g]) where
  paramNames name := by
    rw [lastIndex?_concat, if_neg fun h => hg h.1]
    exact hf.paramNames name
  localNames name := by
    rw [lastIndex?_concat, if_neg fun h => hg h.1]
    exact hf.localNames name

/-- **A parameter or local is given a name.** -/
theorem NamedLocals.nameLocal {func : UInt32} (hf : f.NamedLocals func.toNat given) (i : UInt32)
    (name : String) :
    (f.nameLocal i name).NamedLocals func.toNat (given ++ [⟨func, i, name⟩]) := by
  have hnum : (f.nameLocal i name).numParams = f.numParams := by
    rw [numParams, numParams, type_nameLocal]
  refine ⟨fun name' => ?_, fun name' => ?_⟩
  · rw [paramNames_nameLocal, hnum, lastIndex?_concat, hf.paramNames]
    simp only [true_and]
  · rw [localNames_nameLocal, hnum, lastIndex?_concat, hf.localNames, apply_ite (Option.map _)]
    simp only [true_and, Option.map_some]

end Func

/-! ## Names after a run -/

namespace Builder

open LocalNaming

variable {b b' c : Builder} {e : Event} {events log : List Event} {given : List LocalNaming}

/-- **Names of parameters and locals** after some of them have been given names. -/
structure LocalNamed (b : Builder) (given : List LocalNaming) : Prop where
  /-- Nothing has been named in a function that does not exist. -/
  lt_size : ∀ g ∈ given, g.func.toNat < b.module.funcs.size
  funcs : ∀ (p : Nat) f, b.module.funcs.items[p]? = some f → f.NamedLocals p given

/-- Neither names nor types of functions change. -/
theorem LocalNamed.congr (hb : b.LocalNamed given)
    (h : ∀ p : Nat, b'.module.funcs.items[p]?.map Func.nameTables =
      b.module.funcs.items[p]?.map Func.nameTables) : b'.LocalNamed given where
  lt_size g hg := by
    have hp := h g.func.toNat
    rw [Array.getElem?_eq_getElem (hb.lt_size g hg), Option.map_some] at hp
    obtain ⟨f', hf', -⟩ := Option.map_eq_some_iff.mp hp
    exact (Array.getElem?_eq_some_iff.mp hf').1
  funcs p f' hf' := by
    have hp := h p
    rw [hf', Option.map_some] at hp
    obtain ⟨f, hf, htables⟩ := Option.map_eq_some_iff.mp hp.symm
    exact (hb.funcs p f hf).congr htables.symm

theorem LocalNamed.modify (hb : b.LocalNamed given) {q : Nat} {g : Func → Func}
    (hm : b'.module.funcs = b.module.funcs.modify q g)
    (hg : ∀ f, (g f).nameTables = f.nameTables) : b'.LocalNamed given := by
  refine hb.congr fun p => ?_
  rw [hm]
  exact map_getElem?_modify hg

theorem LocalNamed.push (hb : b.LocalNamed given) {f : Func} (hparams : f.paramNames = ∅)
    (hlocals : f.localNames = ∅)
    (hitems : b'.module.funcs.items = b.module.funcs.items.push f) : b'.LocalNamed given where
  lt_size g hg := by
    have hlt := hb.lt_size g hg
    rw [IndexSpace.size, hitems, Array.size_push]
    exact Nat.lt_succ_of_lt hlt
  funcs p f' hf' := by
    rw [hitems, Array.getElem?_push] at hf'
    split at hf'
    · next hp =>
      cases hf'
      exact .of_new hparams hlocals fun g hg => hp ▸ Nat.ne_of_lt (hb.lt_size g hg)
    · exact hb.funcs p f' hf'

/-- **A parameter or local of a function that exists is given a name.** -/
theorem LocalNamed.nameLocal (hb : b.LocalNamed given) {func : UInt32}
    (hfunc : func.toNat < b.module.funcs.size) (i : UInt32) (name : String) :
    { b with module.funcs :=
        b.module.funcs.modify func.toNat (·.nameLocal i name) }.LocalNamed
      (given ++ [LocalNaming.mk func i name]) where
  lt_size g hg := by
    rw [IndexSpace.size, IndexSpace.modify, Array.size_modify]
    rcases List.mem_append.mp hg with hg | hg
    · exact hb.lt_size g hg
    · obtain rfl := List.mem_singleton.mp hg
      exact hfunc
  funcs p f' hf' := by
    rw [IndexSpace.getElem?_modify] at hf'
    split at hf'
    · next hp =>
      subst hp
      obtain ⟨f, hf, rfl⟩ := Option.map_eq_some_iff.mp hf'
      exact (hb.funcs _ f hf).nameLocal i name
    · next hp => exact (hb.funcs p f' hf').append_of_ne hp

/-- **One event** names what it names. -/
theorem Takes.localNamed (h : b.Takes e b') (hb : b.LocalNamed given) :
    b'.LocalNamed (given ++ e.localNaming?.toList) := by
  have hnone (he : e.localNaming? = none) (hb' : b'.LocalNamed given) :
      b'.LocalNamed (given ++ e.localNaming?.toList) := by
    rwa [he, Option.toList_none, List.append_nil]
  cases h with
  | @importItem _ _ _ _ item =>
    refine hnone rfl ?_
    cases item with
    | func sigIndex => exact hb.push rfl rfl rfl
    | _ => exact hb.congr fun _ => rfl
  | @define _ item =>
    refine hnone rfl ?_
    cases item with
    | func sigIndex => exact hb.push rfl rfl rfl
    | _ => exact hb.congr fun _ => rfl
  | localDecl => exact hnone rfl (hb.modify rfl fun _ => rfl)
  | code he hedits =>
    refine hnone (Event.localNaming?_of_isCode he) (hb.congr fun p => ?_)
    have hbare := congrArg (Option.map Func.nameTables) (hedits.bare p)
    rwa [Option.map_map, Option.map_map] at hbare
  | @initValue _ _ target =>
    refine hnone rfl ?_
    obtain ⟨site, position⟩ := target
    cases site <;> exact hb.congr fun _ => rfl
  | function => exact hnone rfl (hb.modify rfl fun _ => rfl)
  | @localName func i name f hn hf =>
    have hnaming : (Event.names (.localName func i name)).localNaming? = some ⟨func, i, name⟩ :=
      if_neg hn
    rw [hnaming]
    exact hb.nameLocal (Array.getElem?_eq_some_iff.mp hf).1 i name
  | idle he => exact hnone (Event.localNaming?_of_isIdle he) hb
  | _ => exact hnone rfl (hb.congr fun _ => rfl)

/-- **Names after a run** are those that its events have given. -/
theorem Steps.localNamed (h : b.Steps events c) (hb : b.LocalNamed given) :
    c.LocalNamed (given ++ events.filterMap Event.localNaming?) := by
  induction h generalizing given with
  | nil => rwa [List.filterMap_nil, List.append_nil]
  | @cons b b' c e events he _ ih =>
    have hc := ih ((takes_of_handle he).localNamed hb)
    rw [List.append_assoc] at hc
    have hcons : (e :: events).filterMap Event.localNaming? =
        e.localNaming?.toList ++ events.filterMap Event.localNaming? := by
      cases hg : e.localNaming? <;> simp [hg]
    rwa [hcons]

/-! ## The number of locals -/

end Builder
end WasmDecode
