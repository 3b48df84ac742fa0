import WasmDecode.Proofs.Effect
import WasmDecode.Proofs.Accept

/-!
# Outlines

What the collections of a module say, apart from what is told about an item after its definition.
An event changes the outline of a module in one of three ways, whatever the kind of the items is.

* `Definition`: what an entry in the record of definitions stands for; `Event.definition?` are the
  events that have an entry, and `Event.imported?` the imported items.
* `Module.listed`: the collection of a kind, as definitions; `Module.outline` is all that is listed.
* `Module.enter`: a module with one more definition, whatever its kind is.
* `Outline.Step`: what an event does to an outline; `Builder.Takes.outline` says that it does so.
* `Outline.Lists`: each collection holds what was imported and then what was defined.
* `Builder.Steps.outline`: what every step keeps of an outline holds after a run.
-/

namespace WasmDecode

/-! ## Definitions -/

/-- What an entry in the record of definitions stands for. -/
inductive Definition where
  | funcType (type : FuncType)
  | importEntry (moduleName fieldName : String)
  | item (decl : ItemDecl)
  | exportEntry (value : Export)
  | startFunction (index : UInt32)
  | elemSegment (tableIndex : UInt32)
  | dataSegment (memoryIndex : UInt32)
  deriving DecidableEq, Repr, Inhabited

namespace Definition

/-- The kind of the entry. -/
def kind : Definition → FieldKind
  | funcType _ => .funcType
  | importEntry .. => .importEntry
  | item decl => .item decl.kind
  | exportEntry _ => .exportEntry
  | startFunction _ => .startFunction
  | elemSegment _ => .elemSegment
  | dataSegment _ => .dataSegment

/-- The definitions of one kind. -/
def ofKind (kind : FieldKind) (defs : List Definition) : List Definition :=
  defs.filter (·.kind = kind)

variable {kind : FieldKind}

@[simp]
theorem ofKind_nil : ofKind kind [] = [] := rfl

@[simp]
theorem ofKind_append (defs defs' : List Definition) :
    ofKind kind (defs ++ defs') = ofKind kind defs ++ ofKind kind defs' :=
  List.filter_append ..

theorem ofKind_singleton (d : Definition) :
    ofKind kind [d] = if d.kind = kind then [d] else [] := by
  simp [ofKind, List.filter_cons]

end Definition

namespace Event

/-- What an event puts on the record of definitions. -/
def definition? : Event → Option Definition
  | .funcType _ params results => some (.funcType ⟨params, results⟩)
  | .importEntry _ moduleName fieldName => some (.importEntry moduleName fieldName)
  | .define _ item => some (.item item)
  | .exportEntry _ kind itemIndex name => some (.exportEntry ⟨name, kind, itemIndex⟩)
  | .startFunction i => some (.startFunction i)
  | .beginElemSegment _ tableIndex => some (.elemSegment tableIndex)
  | .beginDataSegment _ memoryIndex => some (.dataSegment memoryIndex)
  | _ => none

/-- The import that an event completes, and the item that is imported. -/
def completion? : Event → Option (Nat × ItemDecl)
  | .importItem i _ _ _ item => some (i.toNat, item)
  | _ => none

/-- The item that an event imports. -/
def imported? (e : Event) : Option Definition := e.completion?.map fun c => .item c.2

theorem completion?_of_definition? {e : Event} {d : Definition} (h : e.definition? = some d) :
    e.completion? = none := by
  cases e <;> first | rfl | cases h

theorem definition?_of_completion? {e : Event} {c : Nat × ItemDecl} (h : e.completion? = some c) :
    e.definition? = none := by
  cases e <;> first | rfl | cases h

end Event

/-! ## Outlines -/

/-- The collection of a kind, as definitions. There is none for start functions. -/
def Module.listed (m : Module) : FieldKind → List Definition
  | .funcType => m.types.toList.map .funcType
  | .importEntry => m.imports.toList.map fun i => .importEntry i.moduleName i.fieldName
  | .item .func => m.funcs.items.toList.map fun f => .item (.func f.typeIndex)
  | .item .table => m.tables.items.toList.map fun t => .item (.table t.elemType t.limits)
  | .item .memory => m.memories.items.toList.map fun x => .item (.memory x.limits)
  | .item .global => m.globals.items.toList.map fun g => .item (.global g.type g.isMutable)
  | .exportEntry => m.exports.toList.map .exportEntry
  | .startFunction => []
  | .elemSegment => m.elemSegments.toList.map fun s => .elemSegment s.tableIndex
  | .dataSegment => m.dataSegments.toList.map fun s => .dataSegment s.memoryIndex

/-- What the collections of a module say. -/
structure Outline where
  fields : List Field
  listed : FieldKind → List Definition
  imported : ExternalKind → Nat
  /-- What each import imports. -/
  details : List (Option ImportedItem)
  start : Option UInt32

def Module.outline (m : Module) : Outline where
  fields := m.fields.toList
  listed := m.listed
  imported := m.importedCount
  details := m.imports.toList.map Import.item
  start := m.start

theorem Module.length_listed_item (m : Module) (kind : ExternalKind) :
    (m.listed (.item kind)).length = m.itemCount kind := by
  cases kind <;> simp [listed, itemCount, IndexSpace.size]

namespace Outline

/-- Adds a definition to the collection of its kind. -/
def list (o : Outline) (d : Definition) : Outline :=
  { o with listed := fun kind => if d.kind = kind then o.listed kind ++ [d] else o.listed kind }

/-- Puts a definition on record. -/
def define (o : Outline) : Definition → Outline
  | .startFunction i =>
    { o with fields := o.fields ++ [⟨.startFunction, i.toNat⟩], start := some i }
  | d =>
    { o.list d with
      fields := o.fields ++ [⟨d.kind, (o.listed d.kind).length⟩]
      details := if d.kind = .importEntry then o.details ++ [none] else o.details }

/-- Tells what an import imports. -/
def complete (o : Outline) (i : Nat) (decl : ItemDecl) : Outline :=
  { o.list (.item decl) with
    imported := fun kind => if decl.kind = kind then o.imported kind + 1 else o.imported kind
    details := o.details.set i (some ⟨decl.kind, (o.listed (.item decl.kind)).length⟩) }

/-- An import may be completed: it is the latest one, of which it is not known what it imports, and
there are only imported items of the kind. -/
structure MayComplete (o : Outline) (i : Nat) (decl : ItemDecl) : Prop where
  latest : o.details.length = i + 1
  incomplete : o.details[i]? = some none
  first : o.imported decl.kind = (o.listed (.item decl.kind)).length

/-- What an event does to an outline. -/
inductive Step (o : Outline) (e : Event) : Outline → Prop
  | define {d : Definition} (h : e.definition? = some d) : Step o e (o.define d)
  | complete {i : Nat} {decl : ItemDecl} (h : e.completion? = some (i, decl))
    (hm : o.MayComplete i decl) : Step o e (o.complete i decl)
  | keep (h : e.definition? = none) (h' : e.completion? = none) : Step o e o

variable {o : Outline}

theorem listed_define (d : Definition) {kind : FieldKind} (hk : kind ≠ .startFunction) :
    (o.define d).listed kind = o.listed kind ++ Definition.ofKind kind [d] := by
  rw [Definition.ofKind_singleton]
  cases d with
  | startFunction i => simp [define, Definition.kind, hk.symm]
  | _ => simp only [define, list]; split <;> simp

theorem imported_define (d : Definition) : (o.define d).imported = o.imported := by
  cases d <;> rfl

theorem details_define (d : Definition) : (o.define d).details =
    if d.kind = .importEntry then o.details ++ [none] else o.details := by
  cases d <;> rfl

theorem prefix_list (d : Definition) (kind : FieldKind) :
    o.listed kind <+: (o.list d).listed kind := by
  simp only [list]
  split
  · exact List.prefix_append _ _
  · exact List.prefix_rfl

/-- Collections only grow, and only at their ends. -/
theorem Step.prefix_listed {e : Event} {o' : Outline} (h : o.Step e o') (kind : FieldKind) :
    o.listed kind <+: o'.listed kind := by
  cases h with
  | @define d _ =>
    cases d with
    | startFunction i => exact List.prefix_rfl
    | _ => exact prefix_list _ kind
  | complete => exact prefix_list _ kind
  | keep => exact List.prefix_rfl

end Outline

/-! ## Changes that an outline does not show -/

theorem map_toList_modify {α β : Type} {f : α → α} {g : α → β} (h : ∀ a, g (f a) = g a)
    (xs : Array α) (i : Nat) : (xs.modify i f).toList.map g = xs.toList.map g := by
  apply List.ext_getElem?
  intro j
  rw [List.getElem?_map, List.getElem?_map, Array.getElem?_toList, Array.getElem?_toList,
    Array.getElem?_modify]
  split
  · rw [Option.map_map]
    exact congrArg (Option.map · _) (funext h)
  · rfl

theorem map_toList_modify_const {α β : Type} {f : α → α} {g : α → β} {c : β}
    (h : ∀ a, g (f a) = c) (xs : Array α) (i : Nat) :
    (xs.modify i f).toList.map g = (xs.toList.map g).set i c := by
  apply List.ext_getElem?
  intro j
  rw [List.getElem?_map, List.getElem?_set, List.getElem?_map, Array.getElem?_toList,
    Array.getElem?_toList, Array.getElem?_modify, List.length_map, Array.length_toList]
  split
  · next hij =>
    subst hij
    by_cases hi : i < xs.size <;> simp [hi, h]
  · rfl

namespace Module

variable {m : Module}

/-- Functions may change in all but their types. -/
theorem outline_funcs {s : IndexSpace Func} (hi : s.imported = m.funcs.imported)
    (ht : s.items.toList.map Func.typeIndex = m.funcs.items.toList.map Func.typeIndex) :
    { m with funcs := s }.outline = m.outline := by
  simp only [outline, Outline.mk.injEq, true_and, and_true]
  refine ⟨funext fun kind => ?_, funext fun kind => ?_⟩
  · match kind with
    | .item .func =>
      have := congrArg (List.map fun i => Definition.item (.func i)) ht
      rwa [List.map_map, List.map_map] at this
    | .item .table | .item .memory | .item .global => rfl
    | .funcType | .importEntry | .exportEntry | .startFunction | .elemSegment | .dataSegment => rfl
  · cases kind <;> first | rfl | exact hi

theorem outline_modifyFunc {g : Func → Func} (p : Nat) (hg : ∀ f, (g f).typeIndex = f.typeIndex) :
    { m with funcs := m.funcs.modify p g }.outline = m.outline :=
  outline_funcs rfl (map_toList_modify hg _ _)

theorem outline_globals {g : Global → Global} (p : Nat)
    (hg : ∀ x, (g x).type = x.type ∧ (g x).isMutable = x.isMutable) :
    { m with globals := m.globals.modify p g }.outline = m.outline := by
  simp only [outline, Outline.mk.injEq, true_and, and_true]
  refine ⟨funext fun kind => ?_, funext fun kind => ?_⟩
  · match kind with
    | .item .global => exact map_toList_modify (fun x => by rw [(hg x).1, (hg x).2]) _ _
    | .item .func | .item .table | .item .memory => rfl
    | .funcType | .importEntry | .exportEntry | .startFunction | .elemSegment | .dataSegment => rfl
  · cases kind <;> rfl

theorem outline_elemSegments {g : ElemSegment → ElemSegment} (p : Nat)
    (hg : ∀ s, (g s).tableIndex = s.tableIndex) :
    { m with elemSegments := m.elemSegments.modify p g }.outline = m.outline := by
  simp only [outline, Outline.mk.injEq, true_and, and_true]
  refine ⟨funext fun kind => ?_, rfl⟩
  match kind with
  | .elemSegment => exact map_toList_modify (fun s => by rw [hg s]) _ _
  | .item kind => cases kind <;> rfl
  | .funcType | .importEntry | .exportEntry | .startFunction | .dataSegment => rfl

theorem outline_dataSegments {g : DataSegment → DataSegment} (p : Nat)
    (hg : ∀ s, (g s).memoryIndex = s.memoryIndex) :
    { m with dataSegments := m.dataSegments.modify p g }.outline = m.outline := by
  simp only [outline, Outline.mk.injEq, true_and, and_true]
  refine ⟨funext fun kind => ?_, rfl⟩
  match kind with
  | .dataSegment => exact map_toList_modify (fun s => by rw [hg s]) _ _
  | .item kind => cases kind <;> rfl
  | .funcType | .importEntry | .exportEntry | .startFunction | .elemSegment => rfl

theorem outline_putInit (target : InitTarget) (e : Expr) :
    (Build.putInit target e m).outline = m.outline := by
  obtain ⟨site, position⟩ := target
  cases site with
  | global => exact outline_globals position fun _ => ⟨rfl, rfl⟩
  | elemSegment => exact outline_elemSegments position fun _ => rfl
  | dataSegment => exact outline_dataSegments position fun _ => rfl

end Module

theorem Builder.EditsCode.outline {b b' : Builder} (h : b.EditsCode b') :
    b'.module.outline = b.module.outline := by
  rw [h.module]
  refine Module.outline_funcs h.imported (List.ext_getElem? fun p => ?_)
  have hbare := congrArg (Option.map Func.typeIndex) (h.bare p)
  rw [Option.map_map, Option.map_map] at hbare
  rw [List.getElem?_map, List.getElem?_map, Array.getElem?_toList, Array.getElem?_toList]
  exact hbare

/-! ## Changes that an outline shows -/

namespace Module

variable {m : Module}

/-- A module with one more definition, of which nothing else has been told. -/
def enter (m : Module) : Definition → Module
  | .funcType type => { m.record .funcType m.types.size with types := m.types.push type }
  | .importEntry moduleName fieldName =>
    { m.record .importEntry m.imports.size with
      imports := m.imports.push { moduleName, fieldName } }
  | .item decl => (m.record (.item decl.kind) (m.itemCount decl.kind)).addDefined decl
  | .exportEntry value =>
    { m.record .exportEntry m.exports.size with exports := m.exports.push value }
  | .startFunction i => { m.record .startFunction i.toNat with start := some i }
  | .elemSegment tableIndex =>
    { m.record .elemSegment m.elemSegments.size with
      elemSegments := m.elemSegments.push { tableIndex } }
  | .dataSegment memoryIndex =>
    { m.record .dataSegment m.dataSegments.size with
      dataSegments := m.dataSegments.push { memoryIndex } }

theorem listed_enter (d : Definition) {kind : FieldKind} (hk : kind ≠ .startFunction) :
    (m.enter d).listed kind = m.listed kind ++ Definition.ofKind kind [d] := by
  rw [Definition.ofKind_singleton]
  cases d with
  | item decl =>
    cases decl <;> rcases kind with _ | _ | kind | _ | _ | _ | _ <;> try cases kind
    all_goals simp [enter, record, addDefined, listed, Definition.kind, ItemDecl.kind, newFunc,
      IndexSpace.addDefined]
  | _ =>
    rcases kind with _ | _ | kind | _ | _ | _ | _ <;> try cases kind
    all_goals first | exact absurd rfl hk | simp [enter, record, listed, Definition.kind]

theorem outline_enter (d : Definition) : (m.enter d).outline = m.outline.define d := by
  have hl : (m.enter d).listed = (m.outline.define d).listed := by
    funext kind
    by_cases hk : kind = .startFunction
    · subst hk
      cases d <;> rfl
    · rw [listed_enter d hk, Outline.listed_define d hk]
      rfl
  have hf : (m.enter d).fields.toList = (m.outline.define d).fields := by
    cases d with
    | item decl =>
      cases decl <;> simp [enter, record, addDefined, outline, Outline.define, Definition.kind,
        length_listed_item]
    | _ => simp [enter, record, outline, Outline.define, Definition.kind, listed]
  have hi : (m.enter d).importedCount = (m.outline.define d).imported := by
    rw [Outline.imported_define]
    funext kind
    cases d with
    | item decl => cases decl <;> cases kind <;> rfl
    | _ => cases kind <;> rfl
  have hd : (m.enter d).imports.toList.map Import.item = (m.outline.define d).details := by
    rw [Outline.details_define]
    cases d with
    | importEntry => simp [enter, outline, Definition.kind]
    | item decl => cases decl <;> rfl
    | _ => rfl
  have hs : (m.enter d).start = (m.outline.define d).start := by
    cases d with
    | item decl => cases decl <;> rfl
    | _ => rfl
  rw [outline, hl, hf, hi, hd, hs]

theorem outline_complete (i : UInt32) (kind : ExternalKind) :
    (m.complete i kind).outline = { m.outline with
      details := m.outline.details.set i.toNat (some ⟨kind, m.itemCount kind⟩) } := by
  simp only [outline, complete, Outline.mk.injEq, true_and]
  refine ⟨funext fun kind => ?_, funext fun kind => ?_, map_toList_modify_const ?_ _ _, trivial⟩
  · cases kind with
    | importEntry =>
      refine map_toList_modify
        (g := fun i : Import => Definition.importEntry i.moduleName i.fieldName) ?_ _ _
      exact fun _ => rfl
    | item kind => cases kind <;> rfl
    | _ => rfl
  · cases kind <;> rfl
  · exact fun _ => rfl

theorem outline_addImported (item : ItemDecl) :
    (m.addImported item).outline = { m.outline.list (.item item) with
      imported := fun kind =>
        if item.kind = kind then m.importedCount kind + 1 else m.importedCount kind } := by
  simp only [outline, Outline.list, Outline.mk.injEq]
  refine ⟨?_, funext fun kind => ?_, funext fun kind => ?_, ?_, ?_⟩
  · cases item <;> rfl
  · cases item <;> rcases kind with _ | _ | kind | _ | _ | _ | _ <;> try cases kind
    all_goals simp [addImported, listed, Definition.kind, ItemDecl.kind, newFunc,
      IndexSpace.addImported]
  · cases item <;> cases kind <;> rfl
  · cases item <;> rfl
  · cases item <;> rfl

theorem outline_importItem (i : UInt32) (item : ItemDecl) :
    ((m.complete i item.kind).addImported item).outline = m.outline.complete i.toNat item := by
  rw [outline_addImported, outline_complete]
  simp only [Outline.list, Outline.complete, Outline.mk.injEq, outline, length_listed_item,
    true_and, and_true]
  exact funext fun kind => by cases kind <;> rfl

theorem MayImport.mayComplete {i : UInt32} {item : ItemDecl} (h : m.MayImport i item) :
    m.outline.MayComplete i.toNat item where
  latest := by simpa [outline] using h.latest
  incomplete := by
    have hi : i.toNat < m.imports.size := h.latest ▸ Nat.lt_succ_self _
    have hnone := h.incomplete
    rw [Array.getElem?_eq_getElem hi] at hnone
    simpa [outline, Array.getElem?_eq_getElem hi] using hnone
  first := by
    rw [outline, length_listed_item]
    exact h.first

end Module

/-! ## What events do -/

namespace Event

variable {e : Event}

theorem definition?_of_isCode (h : e.isCode = true) : e.definition? = none := by
  cases e <;> first | rfl | cases h

theorem completion?_of_isCode (h : e.isCode = true) : e.completion? = none := by
  cases e <;> first | rfl | cases h

theorem definition?_of_isIdle (h : e.isIdle = true) : e.definition? = none := by
  cases e <;> first | rfl | cases h

theorem completion?_of_isIdle (h : e.isIdle = true) : e.completion? = none := by
  cases e <;> first | rfl | cases h

end Event

namespace Builder

variable {b b' : Builder} {e : Event}

/-- **What an event does to an outline.** -/
theorem Takes.outline (h : b.Takes e b') : b.module.outline.Step e b'.module.outline := by
  have hdefine {d : Definition} (hd : e.definition? = some d) (hm : b'.module = b.module.enter d) :
      b.module.outline.Step e b'.module.outline := by
    rw [hm, Module.outline_enter]
    exact .define hd
  have hkeep (hd : e.definition? = none) (hc : e.completion? = none)
      (ho : b'.module.outline = b.module.outline) :
      b.module.outline.Step e b'.module.outline := ho ▸ .keep hd hc
  cases h with
  | funcType | importEntry | define | exportEntry | startFunction | beginElemSegment
  | beginDataSegment => exact hdefine rfl rfl
  | importItem moduleName fieldName itemIndex h =>
    rw [Module.outline_importItem]
    exact .complete rfl h.mayComplete
  | code he h =>
    exact hkeep (Event.definition?_of_isCode he) (Event.completion?_of_isCode he) h.outline
  | idle h => exact hkeep (Event.definition?_of_isIdle h) (Event.completion?_of_isIdle h) rfl
  | localDecl i type hp hf h => exact hkeep rfl rfl (Module.outline_modifyFunc _ fun _ => rfl)
  | elem funcIndex h => exact hkeep rfl rfl (Module.outline_elemSegments _ fun _ => rfl)
  | segmentData bytes h => exact hkeep rfl rfl (Module.outline_dataSegments _ fun _ => rfl)
  | initValue i value ht hi => exact hkeep rfl rfl (Module.outline_putInit _ _)
  | function hn h => exact hkeep rfl rfl (Module.outline_modifyFunc _ fun _ => rfl)
  | localName hn hf h =>
    refine hkeep rfl rfl (Module.outline_modifyFunc _ fun f => ?_)
    unfold Func.nameLocal
    split <;> rfl
  | _ => exact hkeep rfl rfl rfl

end Builder

/-! ## Runs -/

namespace Outline

open Definition

variable {o o' : Outline} {log : List Event} {e : Event}

/-- What the collections hold after the events of a log: first what has been imported, then what has
been defined. -/
structure Lists (o : Outline) (log : List Event) : Prop where
  listed : ∀ kind, kind ≠ .startFunction → o.listed kind =
    ofKind kind (log.filterMap Event.imported?) ++ ofKind kind (log.filterMap Event.definition?)
  imported : ∀ kind, o.imported kind =
    (ofKind (.item kind) (log.filterMap Event.imported?)).length
  length_details : o.details.length =
    (ofKind .importEntry (log.filterMap Event.definition?)).length

theorem listed_complete (i : Nat) (decl : ItemDecl) (kind : FieldKind) :
    (o.complete i decl).listed kind = o.listed kind ++ ofKind kind [.item decl] := by
  rw [ofKind_singleton]
  simp only [complete, list]
  split <;> simp

theorem imported_complete (i : Nat) (decl : ItemDecl) (kind : ExternalKind) :
    (o.complete i decl).imported kind =
      o.imported kind + (ofKind (.item kind) [.item decl]).length := by
  rw [ofKind_singleton]
  simp only [complete, Definition.kind, FieldKind.item.injEq]
  split <;> rfl

/-- If there are only imported items of a kind, nothing of the kind has been defined. -/
theorem Lists.ofKind_eq_nil (h : o.Lists log) {kind : ExternalKind}
    (hk : o.imported kind = (o.listed (.item kind)).length) :
    ofKind (.item kind) (log.filterMap Event.definition?) = [] := by
  rw [h.listed (.item kind) nofun, h.imported, List.length_append] at hk
  exact List.eq_nil_of_length_eq_zero (by omega)

theorem Lists.step (h : o.Lists log) (hs : o.Step e o') : o'.Lists (log ++ [e]) := by
  cases hs with
  | @define d hd =>
    have hi : e.imported? = none := by
      rw [Event.imported?, Event.completion?_of_definition? hd, Option.map_none]
    refine ⟨fun kind hk => ?_, fun kind => ?_, ?_⟩
    · simp [listed_define d hk, h.listed kind hk, List.filterMap_append, hd, hi]
    · simp [imported_define, h.imported, List.filterMap_append, hi]
    · rw [details_define]
      simp only [List.filterMap_append, List.filterMap_cons, hd, List.filterMap_nil, ofKind_append,
        ofKind_singleton, List.length_append]
      split <;> simp [h.length_details]
  | @complete i decl hc hm =>
    have hd := Event.definition?_of_completion? hc
    have hi : e.imported? = some (.item decl) := by rw [Event.imported?, hc, Option.map_some]
    have hnil := h.ofKind_eq_nil hm.first
    refine ⟨fun kind hk => ?_, fun kind => ?_, ?_⟩
    · -- Nothing of the kind is defined yet, so what is imported last still comes first.
      simp only [listed_complete, h.listed kind hk, List.filterMap_append, List.filterMap_cons, hd,
        hi, List.filterMap_nil, ofKind_append, List.append_nil, List.append_assoc]
      by_cases hkind : kind = .item decl.kind
      · simp [hkind, hnil]
      · simp [ofKind_singleton, Definition.kind, Ne.symm hkind]
    · simp [imported_complete, h.imported, List.filterMap_append, hi]
    · simp [complete, h.length_details, List.filterMap_append, hd]
  | keep hd hc =>
    have hi : e.imported? = none := by rw [Event.imported?, hc, Option.map_none]
    refine ⟨fun kind hk => ?_, fun kind => ?_, ?_⟩
    · simp [h.listed kind hk, List.filterMap_append, hd, hi]
    · simp [h.imported, List.filterMap_append, hi]
    · simp [h.length_details, List.filterMap_append, hd]

theorem lists_empty : (Module.outline {}).Lists [] := by
  refine ⟨fun kind _ => ?_, fun kind => ?_, rfl⟩
  · cases kind with
    | item kind => cases kind <;> rfl
    | _ => rfl
  · cases kind <;> rfl

end Outline

namespace Builder

variable {P : Outline → List Event → Prop} {b c : Builder} {log events : List Event}

/-- What every step keeps of an outline and the events so far holds after a run. -/
theorem Steps.outline_append
    (hstep : ∀ o log e o', P o log → Outline.Step o e o' → P o' (log ++ [e]))
    (h : b.Steps events c) (hb : P b.module.outline log) : P c.module.outline (log ++ events) := by
  induction h generalizing log with
  | nil => rwa [List.append_nil]
  | cons he _ ih =>
    rw [List.append_cons]
    exact ih (hstep _ _ _ _ hb (takes_of_handle he).outline)

theorem Steps.outline (hstep : ∀ o log e o', P o log → Outline.Step o e o' → P o' (log ++ [e]))
    (hempty : P (Module.outline {}) []) (h : ({} : Builder).Steps events c) :
    P c.module.outline events := by
  show P c.module.outline ([] ++ events)
  exact h.outline_append hstep hempty

theorem Steps.lists (h : ({} : Builder).Steps events c) : c.module.outline.Lists events :=
  h.outline (fun _ _ _ _ h hs => h.step hs) Outline.lists_empty

end Builder

end WasmDecode
