import WasmDecode.Proofs.Outline

/-!
# The record of definitions

A module keeps on record what it defines, in the order in which it was decoded. The entries say
where the definitions are in collections that are filled one by one; they stay right because nothing
is imported in front of what has been defined.

* `Definition.fields`: the record that a list of definitions has.
* `Outline.definition?`: what an entry of the record stands for.
* `Outline.Records`: the record and the start function are those of the definitions so far.
* `Builder.record_run`: the record, the start function and the counts after any run.
-/

namespace WasmDecode

open Definition

namespace Definition

variable {imported imported' : ExternalKind → Nat} {defs : List Definition} {d : Definition}

/-- The number of items that come before those that the module defines itself. -/
def offset (imported : ExternalKind → Nat) : FieldKind → Nat
  | .item kind => imported kind
  | _ => 0

/-- The position of a definition in the collection of its kind, behind the earlier definitions. A
start function has its own index. -/
def position (imported : ExternalKind → Nat) (earlier : List Definition) : Definition → Nat
  | .startFunction i => i.toNat
  | d => offset imported d.kind + (ofKind d.kind earlier).length

/-- The record of definitions that come one after another, behind so many imported items. -/
def fields (imported : ExternalKind → Nat) (defs : List Definition) : List Field :=
  defs.mapIdx fun n d => ⟨d.kind, position imported (defs.take n) d⟩

/-- The function that a definition makes the start function. -/
def start? : Definition → Option UInt32
  | .startFunction i => some i
  | _ => none

/-- How many definitions of each kind there are, with so many imported items. -/
def counts (imports defs : List Definition) : ModuleCounts where
  types := (ofKind .funcType defs).length
  imports := (ofKind .importEntry defs).length
  funcImports := (ofKind (.item .func) imports).length
  tableImports := (ofKind (.item .table) imports).length
  memoryImports := (ofKind (.item .memory) imports).length
  globalImports := (ofKind (.item .global) imports).length
  funcs := (ofKind (.item .func) defs).length
  tables := (ofKind (.item .table) defs).length
  memories := (ofKind (.item .memory) defs).length
  globals := (ofKind (.item .global) defs).length
  exports := (ofKind .exportEntry defs).length
  elemSegments := (ofKind .elemSegment defs).length
  dataSegments := (ofKind .dataSegment defs).length

theorem position_of_ne {earlier : List Definition} (h : d.kind ≠ .startFunction) :
    position imported earlier d = offset imported d.kind + (ofKind d.kind earlier).length := by
  cases d <;> first | rfl | exact absurd rfl h

theorem getElem?_fields (n : Nat) : (fields imported defs)[n]? =
    defs[n]?.map fun d => ⟨d.kind, position imported (defs.take n) d⟩ :=
  List.getElem?_mapIdx

theorem fields_append_singleton : fields imported (defs ++ [d]) =
    fields imported defs ++ [⟨d.kind, position imported defs d⟩] := by
  rw [fields, List.mapIdx_concat, List.take_left, fields]
  refine congrArg (· ++ _) (List.mapIdx_eq_mapIdx_iff.mpr fun n hn => ?_)
  rw [List.take_append_of_le_length (Nat.le_of_lt hn)]

theorem ofKind_cons_self : ofKind d.kind (d :: defs) = d :: ofKind d.kind defs :=
  List.filter_cons_of_pos (by simp)

/-- Among the definitions of its kind, a definition comes behind the earlier ones. -/
theorem getElem?_ofKind {n : Nat} (h : defs[n]? = some d) :
    (ofKind d.kind defs)[(ofKind d.kind (defs.take n)).length]? = some d := by
  obtain ⟨hn, rfl⟩ := List.getElem?_eq_some_iff.mp h
  have hsplit : defs = defs.take n ++ defs[n] :: defs.drop (n + 1) := by simp
  have hof := congrArg (ofKind defs[n].kind) hsplit
  rw [ofKind_append, ofKind_cons_self] at hof
  rw [hof, List.getElem?_append_right (Nat.le_refl _), Nat.sub_self, List.getElem?_cons_zero]

/-- The record depends only on the imported items of the kinds that are defined. -/
theorem fields_congr (h : ∀ d ∈ defs, offset imported d.kind = offset imported' d.kind) :
    fields imported defs = fields imported' defs := by
  refine List.mapIdx_eq_mapIdx_iff.mpr fun n hn => ?_
  have hoffset := h _ (List.getElem_mem hn)
  generalize defs[n] = d at hoffset ⊢
  cases d with
  | startFunction i => rfl
  | _ => simp only [position, hoffset]

end Definition

/-! ## Outlines -/

namespace Outline

variable {o o' : Outline} {log : List Event} {e : Event}

/-- What an entry of the record of definitions stands for. -/
def definition? (o : Outline) (f : Field) : Option Definition :=
  match f.kind with
  | .startFunction => some (.startFunction (.ofNat f.index))
  | kind => (o.listed kind)[f.index]?

theorem definition?_of_ne {kind : FieldKind} {i : Nat} (h : kind ≠ .startFunction) :
    o.definition? ⟨kind, i⟩ = (o.listed kind)[i]? := by
  cases kind <;> first | rfl | exact absurd rfl h

/-- The record and the start function are those of the definitions that a log has. -/
structure Records (o : Outline) (log : List Event) : Prop where
  lists : o.Lists log
  fields : o.fields = Definition.fields o.imported (log.filterMap Event.definition?)
  start : o.start = ((log.filterMap Event.definition?).filterMap Definition.start?).getLast?

/-- All that is imported are items. -/
theorem ofKind_imported_length (h : o.Lists log) {kind : FieldKind} :
    (ofKind kind (log.filterMap Event.imported?)).length = offset o.imported kind := by
  cases kind with
  | item kind => exact (h.imported kind).symm
  | _ =>
    refine List.length_eq_zero_iff.mpr (List.filter_eq_nil_iff.mpr fun d hd => ?_)
    obtain ⟨e, -, he⟩ := List.mem_filterMap.mp hd
    obtain ⟨c, -, rfl⟩ := Option.map_eq_some_iff.mp he
    simp [Definition.kind]

theorem Lists.length_listed (h : o.Lists log) {kind : FieldKind} (hk : kind ≠ .startFunction) :
    (o.listed kind).length =
      offset o.imported kind + (ofKind kind (log.filterMap Event.definition?)).length := by
  rw [h.listed kind hk, List.length_append, ofKind_imported_length h]

theorem fields_define (d : Definition) (h : o.Lists log) : (o.define d).fields = o.fields ++
    [⟨d.kind, position o.imported (log.filterMap Event.definition?) d⟩] := by
  by_cases hd : d.kind = .startFunction
  · cases d <;> first | rfl | cases hd
  · rw [position_of_ne hd, ← h.length_listed hd]
    cases d <;> first | rfl | exact absurd rfl hd

theorem start_define (d : Definition) : (o.define d).start = (start? d).or o.start := by
  cases d <;> rfl

theorem offset_complete {i : Nat} {decl : ItemDecl} {kind : FieldKind}
    (h : kind ≠ .item decl.kind) :
    offset (o.complete i decl).imported kind = offset o.imported kind := by
  cases kind with
  | item kind => simp [offset, imported_complete, ofKind_singleton, Definition.kind, h.symm]
  | _ => rfl

theorem Records.step (h : o.Records log) (hs : o.Step e o') : o'.Records (log ++ [e]) := by
  have hlists := h.lists.step hs
  cases hs with
  | @define d hd =>
    refine ⟨hlists, ?_, ?_⟩
    · rw [fields_define d h.lists, imported_define, List.filterMap_append, h.fields]
      simp only [List.filterMap_cons, hd, List.filterMap_nil, fields_append_singleton]
    · rw [start_define, List.filterMap_append, List.filterMap_append, h.start]
      cases hstart : start? d <;> simp [hd, hstart]
  | @complete i decl hc hm =>
    have hdef : (log ++ [e]).filterMap Event.definition? = log.filterMap Event.definition? := by
      simp [List.filterMap_append, Event.definition?_of_completion? hc]
    refine ⟨hlists, ?_, by rw [hdef]; exact h.start⟩
    rw [hdef]
    refine h.fields.trans (fields_congr fun d hd => ?_)
    -- Nothing of the kind that is imported has been defined.
    have hnil := h.lists.ofKind_eq_nil hm.first
    have hne : d.kind ≠ .item decl.kind := by
      intro hkind
      exact List.filter_eq_nil_iff.mp hnil d hd (by simp [hkind])
    exact (offset_complete hne).symm
  | keep hd hc =>
    have hdef : (log ++ [e]).filterMap Event.definition? = log.filterMap Event.definition? := by
      simp [List.filterMap_append, hd]
    exact ⟨hlists, by rw [hdef]; exact h.fields, by rw [hdef]; exact h.start⟩

theorem records_empty : (Module.outline {}).Records [] := ⟨lists_empty, rfl, rfl⟩

/-- What the entries of the record stand for is what has been defined. -/
theorem Records.map_definition? (h : o.Records log) :
    o.fields.map o.definition? = (log.filterMap Event.definition?).map some := by
  rw [h.fields]
  generalize hdefs : log.filterMap Event.definition? = defs
  apply List.ext_getElem?
  intro n
  rw [List.getElem?_map, getElem?_fields, List.getElem?_map, Option.map_map]
  refine Option.map_congr fun d hd => ?_
  by_cases hk : d.kind = .startFunction
  · cases d with
    | startFunction i => exact congrArg (some ∘ startFunction) UInt32.ofNat_toNat
    | _ => cases hk
  · have hget : (ofKind d.kind defs)[(ofKind d.kind (defs.take n)).length]? = some d :=
      getElem?_ofKind hd
    simp only [Function.comp_apply, definition?_of_ne hk, position_of_ne hk, h.lists.listed _ hk,
      ← ofKind_imported_length h.lists, hdefs, List.getElem?_append_right (Nat.le_add_right _ _),
      Nat.add_sub_cancel_left, hget]

end Outline

/-! ## Runs -/

namespace Builder

variable {b : Builder} {events : List Event}

theorem Steps.records (h : ({} : Builder).Steps events b) : b.module.outline.Records events :=
  h.outline (fun _ _ _ _ h hs => h.step hs) Outline.records_empty

end Builder

theorem IndexSpace.definedCount_eq {α : Type} {s : IndexSpace α} {n : Nat}
    (h : s.size = s.imported + n) : s.definedCount = .ok n := by
  rw [definedCount, if_pos (by omega), h, Nat.add_sub_cancel_left]

/-- The collections are as long as the log says. -/
theorem Outline.Lists.counts {m : Module} {log : List Event} (h : m.outline.Lists log) :
    m.counts = .ok (Definition.counts (log.filterMap Event.imported?)
      (log.filterMap Event.definition?)) := by
  generalize hitems : log.filterMap Event.imported? = items
  generalize hdefs : log.filterMap Event.definition? = defs
  have hcount (kind : ExternalKind) : m.itemCount kind =
      m.importedCount kind + (ofKind (.item kind) defs).length := by
    rw [← Module.length_listed_item]
    exact hdefs ▸ h.length_listed (by simp)
  have hfuncs := IndexSpace.definedCount_eq (hcount .func)
  have htables := IndexSpace.definedCount_eq (hcount .table)
  have hmemories := IndexSpace.definedCount_eq (hcount .memory)
  have hglobals := IndexSpace.definedCount_eq (hcount .global)
  have hlength (kind : FieldKind) (hk : kind ≠ .startFunction) :
      (m.listed kind).length = offset m.importedCount kind + (ofKind kind defs).length :=
    hdefs ▸ h.length_listed hk
  have htypes : m.types.size = (ofKind .funcType defs).length := by
    simpa [offset, Module.listed] using hlength .funcType (by simp)
  have himports : m.imports.size = (ofKind .importEntry defs).length := by
    simpa [offset, Module.listed] using hlength .importEntry (by simp)
  have hexports : m.exports.size = (ofKind .exportEntry defs).length := by
    simpa [offset, Module.listed] using hlength .exportEntry (by simp)
  have helems : m.elemSegments.size = (ofKind .elemSegment defs).length := by
    simpa [offset, Module.listed] using hlength .elemSegment (by simp)
  have hdatas : m.dataSegments.size = (ofKind .dataSegment defs).length := by
    simpa [offset, Module.listed] using hlength .dataSegment (by simp)
  have himported (kind : ExternalKind) : (ofKind (.item kind) items).length =
      m.importedCount kind := hitems ▸ (h.imported kind).symm
  rw [Module.counts, hfuncs, htables, hmemories, hglobals, htypes, himports, hexports, helems,
    hdatas]
  simp only [Definition.counts, himported]
  rfl

namespace Builder

/-- **The record of definitions** has an entry for each event that defines something, in the order
of the events, and the entries say where the definitions are. The last start function that has been
told is the start function, and the counts are those of the events. -/
theorem record_run (events : List Event) :
    let m := (({} : Builder).run events).module
    let log := ({} : Builder).accepted events
    let defs := log.filterMap Event.definition?
    m.fields.toList = Definition.fields m.importedCount defs ∧
      m.fields.toList.map m.outline.definition? = defs.map some ∧
      m.start = (defs.filterMap start?).getLast? ∧
      m.counts = .ok (counts (log.filterMap Event.imported?) defs) := by
  intro m log defs
  have h := (sound_empty.steps_accepted events).records
  exact ⟨h.fields, h.map_definition?, h.start, h.lists.counts⟩

/-- A global is defined before a function is imported, and the function that is defined after it
comes behind. -/
example :
    (({} : Builder).run [.funcType 0 [] [], .define 0 (.global .i32 true), .importEntry 0 "env" "f",
      .importItem 0 "env" "f" 0 (.func 0), .startFunction 1, .define 1 (.func 0),
      .startFunction 1, .define 2 (.func 7)]).module.fields.toList =
    [⟨.funcType, 0⟩, ⟨.item .global, 0⟩, ⟨.importEntry, 0⟩, ⟨.item .func, 1⟩,
      ⟨.startFunction, 1⟩] := rfl

end Builder
end WasmDecode
