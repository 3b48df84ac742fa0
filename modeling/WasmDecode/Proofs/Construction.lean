import WasmDecode.Proofs.Blueprint
import WasmDecode.Proofs.Body

/-!
# Building from a blueprint

A module grows with its blueprint: where a builder holds what a blueprint says, the events of one
more part are accepted and lead to a builder that holds the blueprint with this part behind it.

* `Builder.Steps.filter`, `Builder.Steps.of_filter`: asides may be left out and put in. So
  `ErrorHandler.LeadsTo.of_filter` says what a stream with asides leads to.
* `Builder.steps_list`: a list of items, each told by events of its own.
* `Module.unrecorded`: a module apart from its record of definitions.
* `Builder.Holds`: a builder holds what a blueprint says, with the bodies of so many functions.
* `Builder.Holds.addType`, `Builder.Holds.addImport`, ...: one lemma for each kind of part.
-/

namespace WasmDecode

/-! ## Asides and lists -/

namespace Builder

variable {b c : Builder} {e : Event} {events : List Event}

theorem handle_aside (b : Builder) (h : e.isAside = true) : b.handle e = .ok () b := by
  cases e with
  | itemCount kind count =>
    have hcount : count.toNat < reserveLimit := of_decide_eq_true h
    show (Build.reserve count).run b = _
    rw [Build.reserve, Build.run_require, if_pos hcount]
  | _ => first | rfl | cases h

/-- Asides may be put in. -/
theorem Steps.of_filter (h : b.Steps (events.filter fun e => !e.isAside) c) :
    b.Steps events c := by
  induction events generalizing b with
  | nil => exact h
  | cons e events ih =>
    by_cases he : e.isAside = true
    · rw [List.filter_cons_of_neg (by simp [he])] at h
      exact .cons (handle_aside b he) (ih h)
    · rw [List.filter_cons_of_pos (by simp [he])] at h
      obtain _ | ⟨h₁, h₂⟩ := h
      exact .cons h₁ (ih h₂)

/-- Asides may be left out. -/
theorem Steps.filter (h : b.Steps events c) : b.Steps (events.filter fun e => !e.isAside) c := by
  induction h with
  | nil => exact .nil
  | @cons b b' c e events he _ ih =>
    by_cases ha : e.isAside = true
    · cases he.symm.trans (handle_aside b ha)
      rwa [List.filter_cons_of_neg (by simp [ha])]
    · rw [List.filter_cons_of_pos (by simp [ha])]
      exact .cons he ih

/-- A list of items, each told by events of its own, from the position `start` on. `P` holds of the
builder and the number of items told so far. -/
theorem steps_zipIdx {α : Type} {f : α × Nat → List Event} {xs : List α} (start : Nat)
    {P : Builder → Nat → Prop}
    (hstep : ∀ b n x, xs[n]? = some x → P b n → ∃ c, b.Steps (f (x, start + n)) c ∧ P c (n + 1))
    (h : P b 0) : ∃ c, b.Steps ((xs.zipIdx start).flatMap f) c ∧ P c xs.length := by
  induction xs generalizing b start P with
  | nil => exact ⟨b, .nil, h⟩
  | cons x xs ih =>
    obtain ⟨b₁, h₁, hP⟩ := hstep b 0 x rfl h
    -- Where the tail has told `n` items, the whole list has told `n + 1`.
    obtain ⟨c, h₂, hc⟩ := ih (start + 1) (P := fun b n => P b (n + 1))
      (fun b n y hy hP => by
        obtain ⟨c, hs, hc⟩ := hstep b (n + 1) y hy hP
        rw [Nat.add_comm n 1, ← Nat.add_assoc] at hs
        exact ⟨c, hs, Nat.add_comm n 1 ▸ hc⟩) hP
    exact ⟨c, h₁.append h₂, hc⟩

/-- A list of items, each told by events of its own, from the position `start` on. `P` holds of the
builder and the items told so far. -/
theorem steps_list {α : Type} {f : α × Nat → List Event} {xs : List α} (start : Nat)
    {P : Builder → List α → Prop}
    (hstep : ∀ b told x, x ∈ xs → told.length < xs.length → P b told →
      ∃ c, b.Steps (f (x, start + told.length)) c ∧ P c (told ++ [x]))
    (h : P b []) : ∃ c, b.Steps ((xs.zipIdx start).flatMap f) c ∧ P c xs := by
  have hsteps := steps_zipIdx (f := f) start (P := fun b n => P b (xs.take n))
    (fun b n x (hx : xs[n]? = some x) hb => by
      obtain ⟨hn, rfl⟩ := List.getElem?_eq_some_iff.mp hx
      have hlength : (xs.take n).length = n := List.length_take_of_le (Nat.le_of_lt hn)
      have hnext := hstep b (xs.take n) xs[n] (List.getElem_mem hn) (hlength.symm ▸ hn) hb
      rwa [hlength, List.take_append_getElem hn] at hnext) h
  rwa [List.take_length] at hsteps

end Builder

/-- Events that differ from accepted ones only in asides lead to the same builder. -/
theorem ErrorHandler.LeadsTo.of_filter {η : Type} {s : η} {b : Builder}
    {told events : List Event}
    (hs : ({} : Builder).Steps events b) (hw : ∀ message, .malformed message ∉ events)
    (h : (told.filter fun e => !e.isAside) = events.filter fun e => !e.isAside) :
    LeadsTo b ({ handler := s } : Decoder η) told := by
  refine ⟨(h ▸ hs.filter).of_filter, ?_⟩
  rintro e he message rfl
  have hmem : Event.malformed message ∈ events.filter fun e => !e.isAside :=
    h ▸ List.mem_filter.mpr ⟨he, rfl⟩
  exact hw message (List.mem_filter.mp hmem).1

/-! ## Modules without a record -/

/-- A module apart from its record of definitions. -/
def Module.unrecorded (m : Module) : Module := { m with fields := #[] }

theorem modify_push_size {α : Type} (xs : Array α) (a : α) (f : α → α) :
    (xs.push a).modify xs.size f = xs.push (f a) := by
  apply Array.ext'
  rw [Array.toList_modify, Array.toList_push, Array.toList_push, ← Array.length_toList]
  exact modify_length xs.toList a [] f

theorem toNat_ofNat_lt {n k : Nat} (h : n < k) : (UInt32.ofNat n).toNat < k := by
  rw [UInt32.toNat_ofNat']
  exact Nat.lt_of_le_of_lt (Nat.mod_le _ _) h

namespace Module

variable {m : Module} {i : Nat}

/-- A module in which the init expression of a definition may have got a value. -/
def withInit (m : Module) (target : InitTarget) : Option Expr → Module
  | some e => Build.putInit target e m
  | none => m

theorem withInit_global {globals : Array Global} {type : ValueType} {isMutable : Bool}
    (h : m.globals.items = globals.push { type, isMutable }) (hi : i = globals.size)
    (init : Option Expr) : m.withInit ⟨.global, i⟩ init =
      { m with globals := { m.globals with items := globals.push { type, isMutable, init } } } := by
  cases init with
  | none => rw [← h]; rfl
  | some e => simp only [withInit, Build.putInit, IndexSpace.modify, h, hi, modify_push_size]

theorem withInit_elemSegment {segments : Array ElemSegment} {tableIndex : UInt32}
    (h : m.elemSegments = segments.push { tableIndex }) (hi : i = segments.size)
    (init : Option Expr) : m.withInit ⟨.elemSegment, i⟩ init =
      { m with elemSegments := segments.push { tableIndex, init } } := by
  cases init with
  | none => rw [← h]; rfl
  | some e => simp only [withInit, Build.putInit, h, hi, modify_push_size]

theorem withInit_dataSegment {segments : Array DataSegment} {memoryIndex : UInt32}
    (h : m.dataSegments = segments.push { memoryIndex }) (hi : i = segments.size)
    (init : Option Expr) : m.withInit ⟨.dataSegment, i⟩ init =
      { m with dataSegments := segments.push { memoryIndex, init } } := by
  cases init with
  | none => rw [← h]; rfl
  | some e => simp only [withInit, Build.putInit, h, hi, modify_push_size]

end Module

/-! ## The items of a blueprint -/

namespace ImportPlan

variable {imports : List ImportPlan} {kind : ExternalKind}

theorem count_append_singleton (d : ImportPlan) : count kind (imports ++ [d]) =
    count kind imports + if d.item.kind = kind then 1 else 0 := by
  simp [count, List.countP_append, List.countP_cons]

theorem built_append_singleton (d : ImportPlan) : built (imports ++ [d]) = built imports ++
    [⟨d.moduleName, d.fieldName, some ⟨d.item.kind, count d.item.kind imports⟩⟩] := by
  rw [built, List.mapIdx_concat, List.take_left, built]
  refine congrArg (· ++ _) (List.mapIdx_eq_mapIdx_iff.mpr fun i hi => ?_)
  rw [List.take_append_of_le_length (Nat.le_of_lt hi)]

/-- There are as many items of a kind as there are imports of them. -/
theorem length_filterMap {α : Type} {f : ItemDecl → Option α}
    (h : ∀ item, (f item).isSome = decide (item.kind = kind)) (imports : List ImportPlan) :
    (imports.filterMap fun d => f d.item).length = count kind imports := by
  rw [List.length_filterMap_eq_countP, count]
  exact congrArg (List.countP · imports) (funext fun d => h d.item)

end ImportPlan

namespace Blueprint

variable {p : Blueprint}

theorem length_funcs :
    (p.imports.filterMap (·.item.func? p.types)).length = p.importedCount .func :=
  ImportPlan.length_filterMap (fun item => by cases item <;> rfl) _

theorem itemCount_module (kind : ExternalKind) : p.module.itemCount kind = p.itemCount kind := by
  have htables : (p.imports.filterMap (·.item.table?)).length = p.importedCount .table :=
    ImportPlan.length_filterMap (fun item => by cases item <;> rfl) _
  have hmemories : (p.imports.filterMap (·.item.memory?)).length = p.importedCount .memory :=
    ImportPlan.length_filterMap (fun item => by cases item <;> rfl) _
  have hglobals : (p.imports.filterMap (·.item.global?)).length = p.importedCount .global :=
    ImportPlan.length_filterMap (fun item => by cases item <;> rfl) _
  cases kind <;>
    simp [Module.itemCount, itemCount, definedCount, module, IndexSpace.size, length_funcs, htables,
      hmemories, hglobals]

theorem importedCount_module (kind : ExternalKind) :
    p.module.importedCount kind = p.importedCount kind := by
  cases kind <;> rfl

/-- A module with one more import, which imports the next item of its kind. -/
theorem unrecorded_addImport {d : ImportPlan} (h : p.definedCount d.item.kind = 0) {i : UInt32}
    (hi : i.toNat = p.imports.length) :
    ((({ p.module.unrecorded with
        imports := p.module.imports.push { moduleName := d.moduleName, fieldName := d.fieldName }
        } : Module).complete i d.item.kind).addImported d.item) =
      { p with imports := p.imports ++ [d] }.module.unrecorded := by
  have hcount : Module.itemCount { p.module.unrecorded with
      imports := p.module.imports.push { moduleName := d.moduleName, fieldName := d.fieldName }
      } d.item.kind = p.importedCount d.item.kind := by
    have := p.itemCount_module d.item.kind
    rw [itemCount, h, Nat.add_zero] at this
    rw [← this]
    cases d.item <;> rfl
  have hsize : i.toNat = p.module.imports.size := by simp [hi, module, ImportPlan.built]
  simp only [Module.complete, hcount, hsize, modify_push_size]
  obtain ⟨moduleName, fieldName, item⟩ := d
  cases item with
  | func | table | memory | global =>
    -- What is imported last comes first, as nothing of its kind is defined yet.
    have hnil := List.length_eq_zero_iff.mp h
    simp [Module.addImported, module, Module.unrecorded, IndexSpace.addImported,
      Program.importedCount, ImportPlan.count_append_singleton, ImportPlan.built_append_singleton,
      hnil, Module.newFunc, ItemDecl.kind, ItemDecl.func?, ItemDecl.table?, ItemDecl.memory?,
      ItemDecl.global?]

end Blueprint

namespace Builder

variable {b c : Builder} {p p' : Blueprint} {n : Nat} {events : List Event}

/-- A builder holds what a blueprint says, and the bodies of `n` functions have been read. -/
structure Holds (b : Builder) (p : Blueprint) (n : Nat) : Prop where
  sound : b.Sound
  module : b.module.unrecorded = p.module.unrecorded
  labels : b.labels = []
  initTarget : b.initTarget = none
  bodiesRead : b.bodiesRead = n

namespace Holds

theorem types (h : b.Holds p n) : b.module.types = p.types.toArray :=
  congrArg Module.types h.module

theorem imports (h : b.Holds p n) : b.module.imports = p.module.imports :=
  show b.module.unrecorded.imports = _ from h.module ▸ rfl

theorem funcs (h : b.Holds p n) : b.module.funcs = p.module.funcs :=
  show b.module.unrecorded.funcs = _ from h.module ▸ rfl

theorem elemSegments (h : b.Holds p n) : b.module.elemSegments = p.module.elemSegments :=
  show b.module.unrecorded.elemSegments = _ from h.module ▸ rfl

theorem dataSegments (h : b.Holds p n) : b.module.dataSegments = p.module.dataSegments :=
  show b.module.unrecorded.dataSegments = _ from h.module ▸ rfl

theorem importedCount (h : b.Holds p n) (kind : ExternalKind) :
    b.module.importedCount kind = p.importedCount kind := by
  rw [← Blueprint.importedCount_module]
  have := congrArg (Module.importedCount · kind) h.module
  cases kind <;> exact this

theorem itemCount (h : b.Holds p n) (kind : ExternalKind) :
    b.module.itemCount kind = p.itemCount kind := by
  rw [← Blueprint.itemCount_module]
  have := congrArg (Module.itemCount · kind) h.module
  cases kind <;> exact this

/-- What is told next leads to the next blueprint. -/
theorem next (h : b.Holds p n) (hs : b.Steps events c)
    (hm : c.module.unrecorded = p'.module.unrecorded) (hl : c.labels = b.labels)
    (ht : c.initTarget = b.initTarget) (hr : c.bodiesRead = b.bodiesRead) : c.Holds p' n :=
  ⟨hs.sound h.sound, hm, hl.trans h.labels, ht.trans h.initTarget, hr.trans h.bodiesRead⟩

/-! ## Types, imports and declarations -/

/-- Types come first. -/
theorem addType (h : b.Holds p n) (hi : p.imports = []) (hf : p.funcs = []) (i : UInt32)
    (t : FuncType) : ∃ c, b.Steps [.funcType i t.params t.results] c ∧
      c.Holds { p with types := p.types ++ [t] } n := by
  have hs : b.Steps [.funcType i t.params t.results] _ := .cons rfl .nil
  refine ⟨_, hs, h.next hs ?_ rfl rfl rfl⟩
  show { b.module.unrecorded with types := b.module.types.push t } = _
  rw [h.types, h.module]
  simp [Blueprint.module, Module.unrecorded, hi, hf, Program.importedCount]

theorem addImport (h : b.Holds p n) {d : ImportPlan} {i : UInt32} (itemIndex : UInt32)
    (hi : i.toNat = p.imports.length) (hd : p.definedCount d.item.kind = 0)
    (ht : ∀ sigIndex, d.item = .func sigIndex → sigIndex.toNat < p.types.length) :
    ∃ c, b.Steps [.importEntry i d.moduleName d.fieldName,
        .importItem i d.moduleName d.fieldName itemIndex d.item] c ∧
      c.Holds { p with imports := p.imports ++ [d] } n := by
  have himports := h.imports
  have hsize : b.module.imports.size = i.toNat := by
    rw [himports, hi]
    simp [Blueprint.module, ImportPlan.built]
  let b₁ : Builder := { b with module := b.module.enter (.importEntry d.moduleName d.fieldName) }
  have hmay : b₁.module.MayImport i d.item := by
    refine ⟨?_, ?_, ?_, ?_⟩
    · cases hitem : d.item with
      | func sigIndex =>
        simpa [Module.HasType, b₁, Module.enter, Module.record, h.types] using ht sigIndex hitem
      | _ => trivial
    · simp [b₁, Module.enter, hsize]
    · have himported := h.importedCount d.item.kind
      have hcount := h.itemCount d.item.kind
      rw [Blueprint.itemCount, hd, Nat.add_zero, ← himported] at hcount
      cases hk : d.item.kind <;> exact (hk ▸ hcount).symm
    · simp [b₁, Module.enter, ← hsize]
  have hs : b.Steps [.importEntry i d.moduleName d.fieldName,
      .importItem i d.moduleName d.fieldName itemIndex d.item] _ :=
    .cons (show b.handle _ = .ok () b₁ from rfl)
      (.cons (Build.run_importItem.mpr ⟨hmay, rfl⟩) .nil)
  refine ⟨_, hs, h.next hs ?_ rfl rfl rfl⟩
  rw [← Blueprint.unrecorded_addImport hd hi, ← himports, ← h.module]
  cases d.item <;> rfl

/-- An item that the module defines itself. -/
theorem define (h : b.Holds p n) (i : UInt32) {item : ItemDecl} (ht : b.module.HasType item)
    (hp : p.module.unrecorded.addDefined item = p'.module.unrecorded) :
    ∃ c, b.Steps [.define i item] c ∧ c.Holds p' n := by
  have hs : b.Steps [.define i item] _ := .cons (Build.run_define.mpr ⟨ht, rfl⟩) .nil
  refine ⟨_, hs, h.next hs ?_ rfl rfl rfl⟩
  rw [← hp, ← h.module]
  cases item <;> rfl

theorem addFunc (h : b.Holds p n) (i : UInt32) {f : FuncPlan}
    (hf : f.sigIndex.toNat < p.types.length) : ∃ c, b.Steps [.define i (.func f.sigIndex)] c ∧
      c.Holds { p with funcs := p.funcs ++ [f.declared] } n := by
  refine h.define i (by simpa [Module.HasType, h.types] using hf) ?_
  simp [Blueprint.module, Module.unrecorded, Module.addDefined, IndexSpace.addDefined,
    Program.importedCount, Module.newFunc, FuncPlan.func, FuncPlan.declared, FuncPlan.localTypes,
    FuncPlan.expand, Forest.layout]

theorem addTable (h : b.Holds p n) (i : UInt32) (t : Table) :
    ∃ c, b.Steps [.define i (.table t.elemType t.limits)] c ∧
      c.Holds { p with tables := p.tables ++ [t] } n := by
  refine h.define i trivial ?_
  simp [Blueprint.module, Module.unrecorded, Module.addDefined, IndexSpace.addDefined,
    Program.importedCount]

theorem addMemory (h : b.Holds p n) (i : UInt32) (m : Memory) :
    ∃ c, b.Steps [.define i (.memory m.limits)] c ∧
      c.Holds { p with memories := p.memories ++ [m] } n := by
  refine h.define i trivial ?_
  simp [Blueprint.module, Module.unrecorded, Module.addDefined, IndexSpace.addDefined,
    Program.importedCount]

theorem addExport (h : b.Holds p n) (i : UInt32) {e : Export}
    (he : e.itemIndex.toNat < p.itemCount e.kind) :
    ∃ c, b.Steps [.exportEntry i e.kind e.itemIndex e.name] c ∧
      c.Holds { p with exports := p.exports ++ [e] } n := by
  rw [← h.itemCount] at he
  have hs : b.Steps [.exportEntry i e.kind e.itemIndex e.name] _ :=
    .cons (Build.run_addExport.mpr ⟨he, rfl⟩) .nil
  refine ⟨_, hs, h.next hs ?_ rfl rfl rfl⟩
  show { b.module.unrecorded with exports := b.module.unrecorded.exports.push e } = _
  rw [h.module]
  simp [Blueprint.module, Module.unrecorded, Program.importedCount]

theorem setStart (h : b.Holds p n) {i : UInt32} (hi : i.toNat < p.itemCount .func) :
    ∃ c, b.Steps [.startFunction i] c ∧ c.Holds { p with start := some i } n := by
  rw [← h.itemCount] at hi
  have hs : b.Steps [.startFunction i] _ := .cons (Build.run_setStart.mpr ⟨hi, rfl⟩) .nil
  refine ⟨_, hs, h.next hs ?_ rfl rfl rfl⟩
  show { b.module.unrecorded with start := some i } = _
  rw [h.module]
  rfl

end Holds

/-! ## Init expressions -/

/-- The events of an init expression, where one may begin. -/
theorem steps_init {site : InitSite} {i : UInt32} (init : InitPlan)
    (hl : i.toNat + 1 = Build.initCount b.module site)
    (hg : site ≠ .global ∨ b.module.globals.imported ≤ i.toNat) (ht : b.initTarget = none)
    (hn : Build.initOf? b.module ⟨site, i.toNat⟩ = some none) :
    b.Steps (InitPlan.events site i init)
      { b with module := b.module.withInit ⟨site, i.toNat⟩ init.expr?, initTarget := none } := by
  let b₁ : Builder := { b with initTarget := some ⟨site, i.toNat⟩ }
  have hbegin : b.handle (.beginInit site i) = .ok () b₁ :=
    Build.run_beginInit.mpr ⟨hl, hg, ht, rfl⟩
  rcases init with _ | _ | value
  · obtain ⟨module, currentFunc, labels, maxDepth, initTarget, bodiesRead⟩ := b
    cases ht
    exact .nil
  · exact .cons hbegin (.cons (Build.run_endInit.mpr ⟨rfl, rfl⟩) .nil)
  · exact .cons hbegin (.cons (Build.run_setInit.mpr ⟨_, rfl, hn, rfl⟩)
      (.cons (Build.run_endInit.mpr ⟨rfl, rfl⟩) .nil))

namespace Holds

theorem addGlobal (h : b.Holds p n) {i : UInt32} (hi : i.toNat = p.itemCount .global)
    (g : GlobalPlan) : ∃ c, b.Steps (g.events i) c ∧
      c.Holds { p with globals := p.globals ++ [g] } n := by
  have hsize : b.module.globals.items.size = i.toNat := (h.itemCount .global).trans hi.symm
  have himported : b.module.globals.imported ≤ i.toNat := by
    have := h.importedCount .global
    simp only [Module.importedCount, Blueprint.itemCount] at this hi
    omega
  let b₁ : Builder := { b with module := b.module.enter (.item (.global g.type g.isMutable)) }
  have htype : b.module.HasType (.global g.type g.isMutable) := trivial
  have hdefine : b.handle (.define i (.global g.type g.isMutable)) = .ok () b₁ :=
    Build.run_define.mpr ⟨htype, rfl⟩
  have hpush : b₁.module.globals.items =
      b.module.globals.items.push { type := g.type, isMutable := g.isMutable } := rfl
  have hinit : b₁.Steps (InitPlan.events .global i g.init) _ :=
    steps_init g.init (by simp [Build.initCount, IndexSpace.size, hpush, hsize])
      (.inr himported) h.initTarget (by simp [Build.initOf?, hpush, ← hsize])
  rw [Module.withInit_global hpush hsize.symm] at hinit
  have hs : b.Steps (g.events i) _ := .cons hdefine (hinit.append (.cons rfl .nil))
  refine ⟨_, hs, h.next hs ?_ rfl h.initTarget.symm rfl⟩
  show { b.module.unrecorded with globals := b.module.unrecorded.globals.addDefined g.global } = _
  rw [h.module]
  simp [Blueprint.module, Module.unrecorded, Program.importedCount, IndexSpace.addDefined]

/-- Function indices go to the latest element segment. -/
theorem steps_elems {i : UInt32} {segments : Array ElemSegment} {s : ElemSegment}
    (hs : b.module.elemSegments = segments.push s) (hi : i.toNat = segments.size)
    (indices : List UInt32) : b.Steps (indices.map (Event.elem i)) { b with
      module.elemSegments := segments.push
        { s with funcIndices := s.funcIndices ++ indices.toArray } } := by
  induction indices generalizing b s with
  | nil =>
    rw [List.map_nil, Array.append_empty, ← hs]
    exact .nil
  | cons index indices ih =>
    have hlast : i.toNat + 1 = b.module.elemSegments.size := by simp [hs, hi]
    let b₁ : Builder := { b with
      module.elemSegments := segments.push { s with funcIndices := s.funcIndices.push index } }
    have helem : b.handle (.elem i index) = .ok () b₁ :=
      Build.run_addElem.mpr ⟨hlast, by rw [hs, hi, modify_push_size]⟩
    have happend : s.funcIndices ++ (index :: indices).toArray =
        s.funcIndices.push index ++ indices.toArray := by simp
    rw [happend]
    exact .cons helem (ih (b := b₁) rfl)

theorem addElem (h : b.Holds p n) {i : UInt32} (hi : i.toNat = p.elemSegments.length)
    {s : ElemPlan} (hc : s.funcIndices.length < reserveLimit) :
    ∃ c, b.Steps (s.events i) c ∧ c.Holds { p with elemSegments := p.elemSegments ++ [s] } n := by
  have hsize : b.module.elemSegments.size = i.toNat := by
    rw [h.elemSegments, hi]
    simp [Blueprint.module]
  let b₁ : Builder := { b with module := b.module.enter (.elemSegment s.tableIndex) }
  have hinit : b₁.Steps (InitPlan.events .elemSegment i s.init) _ :=
    steps_init s.init (by simp [Build.initCount, b₁, Module.enter, hsize]) (.inl nofun) h.initTarget
      (by simp [Build.initOf?, b₁, Module.enter, ← hsize])
  rw [Module.withInit_elemSegment (m := b₁.module) rfl hsize.symm] at hinit
  have hcount : (UInt32.ofNat s.funcIndices.length).toNat < reserveLimit :=
    toNat_ofNat_lt hc
  have hs : b.Steps (s.events i) _ := .cons rfl (hinit.append
    (.cons (Build.run_reserveElems.mpr ⟨by simp [hsize], hcount, rfl⟩)
      ((steps_elems rfl hsize.symm s.funcIndices).append (.cons rfl .nil))))
  refine ⟨_, hs, h.next hs ?_ rfl h.initTarget.symm rfl⟩
  rw [Array.empty_append]
  show { b.module.unrecorded with
    elemSegments := b.module.unrecorded.elemSegments.push s.segment } = _
  rw [h.module]
  simp [Blueprint.module, Module.unrecorded, Program.importedCount]

theorem addData (h : b.Holds p n) {i : UInt32} (hi : i.toNat = p.dataSegments.length)
    (s : DataPlan) : ∃ c, b.Steps (s.events i) c ∧
      c.Holds { p with dataSegments := p.dataSegments ++ [s] } n := by
  have hsize : b.module.dataSegments.size = i.toNat := by
    rw [h.dataSegments, hi]
    simp [Blueprint.module]
  let b₁ : Builder := { b with module := b.module.enter (.dataSegment s.memoryIndex) }
  have hinit : b₁.Steps (InitPlan.events .dataSegment i s.init) _ :=
    steps_init s.init (by simp [Build.initCount, b₁, Module.enter, hsize]) (.inl nofun) h.initTarget
      (by simp [Build.initOf?, b₁, Module.enter, ← hsize])
  rw [Module.withInit_dataSegment (m := b₁.module) rfl hsize.symm] at hinit
  have hs : b.Steps (s.events i) _ := .cons rfl (hinit.append
    (.cons (Build.run_setData.mpr ⟨by simp [hsize], rfl⟩) (.cons rfl .nil)))
  refine ⟨_, hs, h.next hs ?_ rfl h.initTarget.symm rfl⟩
  simp only [← hsize, modify_push_size]
  show { b.module.unrecorded with
    dataSegments := b.module.unrecorded.dataSegments.push s.segment } = _
  rw [h.module]
  simp [Blueprint.module, Module.unrecorded, Program.importedCount]

end Holds
end Builder
end WasmDecode
