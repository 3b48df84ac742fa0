import WasmDecode.Proofs.Outline

/-!
# Index spaces

The items of each external kind are counted on their own. Imported items come first, in the order of
their imports, and then those that the module defines itself.

* `Module.importIndices`: the indices of the imported items, as their imports have them.
* `Module.Typed`: every function has the type at its type index; `Builder.Steps.typed`.
* `Outline.Completes`: what is known of the imports is what has been told, in the order of the
  imports.
* `Builder.Indexed`: what holds of the items of a kind; `Builder.indexed_run` says that it always
  does.
-/

namespace WasmDecode

open Definition

/-! ## Functions and their types -/

/-- Every function has the type at its type index. -/
def Module.Typed (m : Module) : Prop :=
  ∀ (p : Nat) (f : Func), m.funcs.items[p]? = some f → m.types[f.typeIndex.toNat]? = some f.type

namespace Module.Typed

variable {m : Module}

theorem addType (h : m.Typed) (type : FuncType) : { m with types := m.types.push type }.Typed := by
  intro p f hf
  have ht := h p f hf
  have hi := (Array.getElem?_eq_some_iff.mp ht).1
  rw [Array.getElem?_push_lt hi]
  exact Array.getElem?_eq_getElem hi ▸ ht

theorem pushFunc (h : m.Typed) {sigIndex : UInt32} (hsig : sigIndex.toNat < m.types.size)
    {s : IndexSpace Func} (hs : s.items = m.funcs.items.push (m.newFunc sigIndex)) :
    { m with funcs := s }.Typed := by
  intro p f hf
  rw [hs, Array.getElem?_push] at hf
  split at hf
  · cases hf
    simp [newFunc, Array.getElem?_eq_getElem hsig]
  · exact h p f hf

/-- Functions may change in all but their types. -/
theorem editFuncs (h : m.Typed) {s : IndexSpace Func}
    (hs : ∀ p : Nat, s.items[p]?.map (fun f => (f.typeIndex, f.type)) =
      m.funcs.items[p]?.map fun f => (f.typeIndex, f.type)) : { m with funcs := s }.Typed := by
  intro p f hf
  have hp := hs p
  rw [hf, Option.map_some] at hp
  obtain ⟨f₀, hf₀, heq⟩ := Option.map_eq_some_iff.mp hp.symm
  obtain ⟨hindex, htype⟩ := Prod.mk.inj heq
  rw [← hindex, ← htype]
  exact h p f₀ hf₀

theorem modifyFunc (h : m.Typed) (p : Nat) {g : Func → Func}
    (hg : ∀ f, ((g f).typeIndex, (g f).type) = (f.typeIndex, f.type)) :
    { m with funcs := m.funcs.modify p g }.Typed := by
  refine h.editFuncs fun q => ?_
  rw [IndexSpace.getElem?_modify]
  split
  · rw [Option.map_map]
    exact congrArg (Option.map · _) (funext hg)
  · rfl

end Module.Typed

namespace Builder

variable {b b' c : Builder} {e : Event} {events : List Event}

theorem Takes.typed (h : b.Takes e b') (hb : b.module.Typed) : b'.module.Typed := by
  cases h with
  | funcType i params results => exact hb.addType _
  | @importItem i moduleName fieldName itemIndex item h =>
    cases item with
    | func sigIndex => exact hb.pushFunc h.hasType rfl
    | _ => exact hb
  | @define i item h =>
    cases item with
    | func sigIndex => exact hb.pushFunc h rfl
    | _ => exact hb
  | code he h =>
    rw [h.module]
    refine hb.editFuncs fun p => ?_
    have hbare := congrArg (Option.map fun f : Func => (f.typeIndex, f.type)) (h.bare p)
    rwa [Option.map_map, Option.map_map] at hbare
  | localDecl i type hp hf h => exact hb.modifyFunc _ fun _ => rfl
  | @initValue i value target ht hi =>
    obtain ⟨site, position⟩ := target
    cases site <;> exact hb
  | function hn h => exact hb.modifyFunc _ fun _ => rfl
  | localName hn hf h =>
    refine hb.modifyFunc _ fun f => ?_
    unfold Func.nameLocal
    split <;> rfl
  | _ => exact hb

theorem Steps.typed (h : b.Steps events c) (hb : b.module.Typed) : c.module.Typed := by
  induction h with
  | nil => exact hb
  | cons he _ ih => exact ih ((takes_of_handle he).typed hb)

end Builder

/-! ## Imports -/

/-- The index of an imported item, if the item is of a kind. -/
def ImportedItem.indexOf? (kind : ExternalKind) (item : ImportedItem) : Option Nat :=
  if item.kind = kind then some item.index else none

namespace Outline

variable {o o' : Outline} {log : List Event} {e : Event}

/-- The indices of the imported items of a kind, in the order of their imports. -/
def importIndices (o : Outline) (kind : ExternalKind) : List Nat :=
  o.details.filterMap fun detail => detail.bind (ImportedItem.indexOf? kind)

/-- The imports of which it is known what they import, and the kinds of their items. -/
def completed (o : Outline) : List (Nat × ExternalKind) :=
  o.details.zipIdx.filterMap fun (detail, i) => detail.map fun item => (i, item.kind)

/-- What is known of the imports is what has been told, in the order of the imports, and the items
have the indices from 0 on. -/
structure Completes (o : Outline) (log : List Event) : Prop where
  indices : ∀ kind, o.importIndices kind = List.range (o.imported kind)
  completed : o.completed = (log.filterMap Event.completion?).map fun (i, decl) => (i, decl.kind)

/-- What an import imports is told at the end of the list of imports. -/
theorem MayComplete.exists_details {i : Nat} {decl : ItemDecl} (h : o.MayComplete i decl) :
    ∃ earlier, earlier.length = i ∧ o.details = earlier ++ [none] := by
  have hi : i < o.details.length := h.latest ▸ Nat.lt_succ_self i
  have hlast := List.take_append_getElem hi
  have hnone := h.incomplete
  rw [List.getElem?_eq_getElem hi, Option.some.injEq] at hnone
  rw [hnone, List.take_of_length_le (Nat.le_of_eq h.latest)] at hlast
  exact ⟨o.details.take i, by simp [h.latest], hlast.symm⟩

theorem Step.mayComplete {i : Nat} {decl : ItemDecl} (h : o.Step e o')
    (he : e.completion? = some (i, decl)) : o.MayComplete i decl := by
  cases h with
  | define hd => cases he.symm.trans (Event.completion?_of_definition? hd)
  | complete hc hm =>
    cases he.symm.trans hc
    exact hm
  | keep hd hc => cases he.symm.trans hc

theorem Completes.step (h : o.Completes log) (hs : o.Step e o') : o'.Completes (log ++ [e]) := by
  cases hs with
  | @define d hd =>
    have hc := Event.completion?_of_definition? hd
    refine ⟨fun kind => ?_, ?_⟩
    · rw [imported_define, ← h.indices, importIndices, details_define]
      split <;> simp [importIndices]
    · have hcompleted := h.completed
      rw [Outline.completed] at hcompleted
      rw [Outline.completed, details_define]
      split <;> simp [List.filterMap_append, hc, hcompleted, List.zipIdx_append]
  | @complete i decl hc hm =>
    obtain ⟨earlier, rfl, hd⟩ := hm.exists_details
    have hset (detail : Option ImportedItem) :
        o.details.set earlier.length detail = earlier ++ [detail] := by simp [hd]
    refine ⟨fun kind => ?_, ?_⟩
    · have hk := h.indices kind
      simp only [importIndices, hd, List.filterMap_append, List.filterMap_cons, Option.bind_none,
        List.filterMap_nil, List.append_nil] at hk
      simp only [importIndices, complete, hset, List.filterMap_append, hk]
      by_cases hkind : decl.kind = kind
      · subst hkind
        simp [ImportedItem.indexOf?, List.range_succ, hm.first]
      · simp [ImportedItem.indexOf?, hkind]
    · have hcompleted := h.completed
      simp only [Outline.completed, hd, List.zipIdx_append, List.filterMap_append] at hcompleted
      simp [Outline.completed, complete, hset, List.zipIdx_append, List.filterMap_append, hc,
        ← hcompleted]
  | keep hd hc => exact ⟨h.indices, by simp [h.completed, List.filterMap_append, hc]⟩

theorem completes_empty : (Module.outline {}).Completes [] :=
  ⟨fun kind => by cases kind <;> rfl, rfl⟩

/-- No import is there twice. -/
theorem nodup_completed (o : Outline) : (o.completed.map Prod.fst).Nodup := by
  have hzip : o.details.zipIdx.Pairwise fun x y => x.2 ≠ y.2 := by
    rw [← List.pairwise_map, List.zipIdx_map_snd]
    exact List.nodup_range'
  refine List.pairwise_map.mpr (hzip.filterMap _ ?_)
  rintro ⟨detail, i⟩ ⟨detail', i'⟩ hne x hx x' hx'
  obtain ⟨item, -, rfl⟩ := Option.map_eq_some_iff.mp hx
  obtain ⟨item', -, rfl⟩ := Option.map_eq_some_iff.mp hx'
  exact hne

end Outline

/-! ## Index spaces -/

namespace Builder

variable {b : Builder} {log : List Event} {kind : ExternalKind}

/-- The items of a kind after the events of a log have been accepted. -/
structure Indexed (b : Builder) (log : List Event) (kind : ExternalKind) : Prop where
  /-- The imports say of the imported items that they have the indices from 0 on. -/
  importIndices : b.module.outline.importIndices kind = List.range (b.module.importedCount kind)
  importedCount_le : b.module.importedCount kind ≤ b.module.itemCount kind
  importedCount_eq : b.module.importedCount kind =
    (ofKind (.item kind) (log.filterMap Event.imported?)).length
  /-- The first items are those that were imported. -/
  imported : (b.module.listed (.item kind)).take (b.module.importedCount kind) =
    ofKind (.item kind) (log.filterMap Event.imported?)
  /-- The others are those that were defined. -/
  defined : (b.module.listed (.item kind)).drop (b.module.importedCount kind) =
    ofKind (.item kind) (log.filterMap Event.definition?)
  typed : b.module.Typed
  /-- It is known of an import what it imports if it has been told. -/
  completed : b.module.outline.completed =
    (log.filterMap Event.completion?).map fun (i, decl) => (i, decl.kind)
  /-- It is told of an import only once. -/
  once : ((log.filterMap Event.completion?).map Prod.fst).Nodup
  /-- It is told of an import while this is the latest one. -/
  latest : ∀ before e after i decl, log = before ++ e :: after → e.completion? = some (i, decl) →
    (ofKind .importEntry (before.filterMap Event.definition?)).length = i + 1
  /-- Nothing is imported any more once something has been defined. -/
  refused : ofKind (.item kind) (log.filterMap Event.definition?) ≠ [] →
    ∀ i moduleName fieldName itemIndex item, item.kind = kind →
      ∃ stop, b.handle (.importItem i moduleName fieldName itemIndex item) = .error stop b

theorem Steps.completes {events : List Event} (h : ({} : Builder).Steps events b) :
    b.module.outline.Completes events :=
  h.outline (fun _ _ _ _ h hs => h.step hs) Outline.completes_empty

/-- What an import imports is told while it is the latest import. -/
theorem Steps.latest {before after : List Event} {e : Event} {i : Nat} {decl : ItemDecl}
    (h : ({} : Builder).Steps (before ++ e :: after) b) (he : e.completion? = some (i, decl)) :
    (ofKind .importEntry (before.filterMap Event.definition?)).length = i + 1 := by
  obtain ⟨b₁, h₁, hs⟩ := h.exists_of_append
  obtain _ | ⟨hb, -⟩ := hs
  rw [← h₁.lists.length_details]
  exact ((takes_of_handle hb).outline.mayComplete he).latest

/-- **Index spaces.** In every builder, imported items come first, have the indices that their
imports say, and are those that have been told; the items behind them are those that have been
defined. -/
theorem indexed_run (events : List Event) (kind : ExternalKind) :
    (({} : Builder).run events).Indexed (({} : Builder).accepted events) kind := by
  have hsteps := sound_empty.steps_accepted events
  generalize ({} : Builder).run events = b at hsteps ⊢
  generalize ({} : Builder).accepted events = log at hsteps ⊢
  have hcompletes := hsteps.completes
  have hlisted : b.module.listed (.item kind) =
      ofKind (.item kind) (log.filterMap Event.imported?) ++
        ofKind (.item kind) (log.filterMap Event.definition?) := hsteps.lists.listed _ nofun
  have himported : b.module.importedCount kind =
      (ofKind (.item kind) (log.filterMap Event.imported?)).length := hsteps.lists.imported kind
  have hcount : b.module.itemCount kind = b.module.importedCount kind +
      (ofKind (.item kind) (log.filterMap Event.definition?)).length := by
    rw [← Module.length_listed_item, hlisted, himported, List.length_append]
  exact {
    importIndices := hcompletes.indices kind
    importedCount_le := by omega
    importedCount_eq := himported
    imported := by rw [hlisted, himported, List.take_left]
    defined := by rw [hlisted, himported, List.drop_left]
    typed := hsteps.typed nofun
    completed := hcompletes.completed
    once := by
      have hnodup := b.module.outline.nodup_completed
      rwa [hcompletes.completed, List.map_map] at hnodup
    latest := fun before e after i decl hlog he => (hlog ▸ hsteps).latest he
    refused := by
      rintro hdefined i moduleName fieldName itemIndex item rfl
      rcases (hsteps.sound sound_empty).handle_cases
        (.importItem i moduleName fieldName itemIndex item) with ⟨b', h, -⟩ | h
      · -- An item that is imported comes before all those that are defined.
        obtain ⟨hmay, -⟩ := Build.run_importItem.mp h
        have hfirst := hmay.first
        exact absurd (List.eq_nil_of_length_eq_zero (by omega)) hdefined
      · exact ⟨_, h.choose_spec⟩ }

/-- A memory and two functions are imported, in between an import of which nothing is told, and a
function is defined. -/
theorem indexed_run_interleaved :
    let told : List Event := [.funcType 0 [] [], .importEntry 0 "env" "a",
      .importItem 0 "env" "a" 0 (.memory ⟨1, none⟩), .importItem 0 "env" "a" 0 (.func 0),
      .importEntry 1 "env" "b", .importItem 1 "env" "b" 0 (.func 7),
      .importItem 1 "env" "b" 0 (.func 0), .importEntry 2 "env" "c", .importEntry 3 "env" "d",
      .importItem 2 "env" "c" 1 (.func 0)]
    let events := told ++ [.importItem 3 "env" "d" 1 (.func 0), .define 2 (.func 0),
      .importEntry 4 "env" "e"]
    let b := ({} : Builder).run events
    b.module.outline.importIndices .func = [0, 1] ∧
      (b.module.listed (.item .func)).take 2 = [.item (.func 0), .item (.func 0)] ∧
      (b.module.listed (.item .func)).drop 2 = [.item (.func 0)] ∧
      b.module.outline.completed = [(0, .memory), (1, .func), (3, .func)] ∧
      (ofKind .importEntry ((({} : Builder).accepted told).filterMap Event.definition?)).length = 4 ∧
      ∃ stop, b.handle (.importItem 4 "env" "e" 2 (.func 0)) = .error stop b := by
  intro told events b
  have hindexed : b.Indexed (({} : Builder).accepted events) .func := indexed_run events .func
  refine ⟨hindexed.importIndices, hindexed.imported, hindexed.defined, hindexed.completed, ?_, ?_⟩
  · exact hindexed.latest (({} : Builder).accepted told) (.importItem 3 "env" "d" 1 (.func 0))
      [.define 2 (.func 0), .importEntry 4 "env" "e"] 3 (.func 0) rfl rfl
  · exact hindexed.refused (by simp [show ofKind (.item .func)
      ((({} : Builder).accepted events).filterMap Event.definition?) = [.item (.func 0)] from rfl])
      4 "env" "e" 2 (.func 0) rfl

end Builder
end WasmDecode
