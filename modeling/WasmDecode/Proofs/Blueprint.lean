import WasmDecode.Proofs.Layout
import WasmDecode.Proofs.Program
import WasmDecode.Proofs.Record

/-!
# Blueprints

What a whole module is made of, the events that tell it section by section, and the module that they
lead to. The part that concerns functions is a program.

* `Blueprint`: the parts of a module.
* `Blueprint.events`: the events that tell it, with counts, init expressions and, where a section
  has a size, the begin and the end of the section.
* `Blueprint.module`: the module.
* `Blueprint.Valid`: what a builder asks of it.
* `Blueprint.inner_sections`, `Blueprint.filterMap_definition?`: what lies within the sections, and
  what the events define.
-/

namespace WasmDecode

/-! ## Parts of a module -/

/-- An init expression, as it is told: it may be left out, and it may be without a value. -/
abbrev InitPlan := Option (Option InitValue)

/-- A global of the module itself. -/
structure GlobalPlan where
  type : ValueType
  isMutable : Bool
  init : InitPlan := none
  deriving DecidableEq, Repr, Inhabited

/-- An element segment: a table, where in it the segment goes, and the functions. -/
structure ElemPlan where
  tableIndex : UInt32
  init : InitPlan := none
  funcIndices : List UInt32 := []
  deriving DecidableEq, Repr, Inhabited

/-- A data segment: a memory, where in it the segment goes, and the bytes. -/
structure DataPlan where
  memoryIndex : UInt32
  init : InitPlan := none
  bytes : ByteArray := .empty
  deriving DecidableEq, Inhabited

/-- The parts of a module. -/
structure Blueprint extends Frame, Program where
  tables : List Table := []
  memories : List Memory := []
  globals : List GlobalPlan := []
  exports : List Export := []
  start : Option UInt32 := none
  elemSegments : List ElemPlan := []
  dataSegments : List DataPlan := []

namespace ItemDecl

/-- The table of an imported item, if the item is one. -/
def table? : ItemDecl → Option Table
  | table elemType limits => some ⟨elemType, limits⟩
  | _ => none

/-- The memory of an imported item, if the item is one. -/
def memory? : ItemDecl → Option Memory
  | memory limits => some ⟨limits⟩
  | _ => none

/-- The global of an imported item, if the item is one. -/
def global? : ItemDecl → Option Global
  | global type isMutable => some { type, isMutable }
  | _ => none

/-- The function of an imported item, if the item is one. -/
def func? (types : List FuncType) : ItemDecl → Option Func
  | func sigIndex => some { typeIndex := sigIndex, type := types[sigIndex.toNat]?.getD default }
  | _ => none

end ItemDecl

/-- The expression that a definition gets, if a value is told. -/
def InitPlan.expr? (init : InitPlan) : Option Expr := init.join.map InitValue.expr

/-- The imports as they are built. An imported item has its index behind the earlier ones of its
kind. -/
def ImportPlan.built (imports : List ImportPlan) : List Import :=
  imports.mapIdx fun i d =>
    { moduleName := d.moduleName
      fieldName := d.fieldName
      item := some ⟨d.item.kind, count d.item.kind (imports.take i)⟩ }

/-- The events of an init expression. -/
def InitPlan.events (site : InitSite) (i : UInt32) : InitPlan → List Event
  | none => []
  | some value =>
    .beginInit site i :: (value.toList.map (Event.initValue i) ++ [.endInit site i])

/-- The events of a global. -/
def GlobalPlan.events (i : UInt32) (g : GlobalPlan) : List Event :=
  .define i (.global g.type g.isMutable) :: (InitPlan.events .global i g.init ++ [.endGlobal i])

/-- The events of an element segment. -/
def ElemPlan.events (i : UInt32) (s : ElemPlan) : List Event :=
  .beginElemSegment i s.tableIndex :: (InitPlan.events .elemSegment i s.init ++
    .elemCount i (.ofNat s.funcIndices.length) ::
      (s.funcIndices.map (Event.elem i) ++ [.endElemSegment i]))

/-- The events of a data segment. -/
def DataPlan.events (i : UInt32) (s : DataPlan) : List Event :=
  .beginDataSegment i s.memoryIndex ::
    (InitPlan.events .dataSegment i s.init ++ [.segmentData i s.bytes, .endDataSegment i])

/-- The global as it is built. -/
def GlobalPlan.global (g : GlobalPlan) : Global :=
  { type := g.type, isMutable := g.isMutable, init := g.init.expr? }

/-- The element segment as it is built. -/
def ElemPlan.segment (s : ElemPlan) : ElemSegment :=
  { tableIndex := s.tableIndex, init := s.init.expr?, funcIndices := s.funcIndices.toArray }

/-- The data segment as it is built. -/
def DataPlan.segment (s : DataPlan) : DataSegment :=
  { memoryIndex := s.memoryIndex, init := s.init.expr?, bytes := s.bytes }

namespace Blueprint

variable (p : Blueprint)

/-- The number of items of a kind that the module defines itself. -/
def definedCount : ExternalKind → Nat
  | .func => p.funcs.length
  | .table => p.tables.length
  | .memory => p.memories.length
  | .global => p.globals.length

/-- The number of items of a kind. -/
def itemCount (kind : ExternalKind) : Nat := p.importedCount kind + p.definedCount kind

/-- The length of a list that is told before its items. -/
def count : CountedKind → Nat
  | .types => p.types.length
  | .imports => p.imports.length
  | .functions => p.funcs.length
  | .tables => p.tables.length
  | .memories => p.memories.length
  | .globals => p.globals.length
  | .exports => p.exports.length
  | .elemSegments => p.elemSegments.length
  | .dataSegments => p.dataSegments.length

/-! ## Events -/

/-- The events that define the tables. -/
def tableEvents : List Event :=
  (p.tables.zipIdx (p.importedCount .table)).flatMap fun (t, i) =>
    [.define (.ofNat i) (.table t.elemType t.limits)]

/-- The events that define the memories. -/
def memoryEvents : List Event :=
  (p.memories.zipIdx (p.importedCount .memory)).flatMap fun (m, i) =>
    [.define (.ofNat i) (.memory m.limits)]

/-- The events that define the globals. -/
def globalEvents : List Event :=
  (p.globals.zipIdx (p.importedCount .global)).flatMap fun (g, i) => g.events (.ofNat i)

/-- The events that tell the exports. -/
def exportEvents : List Event :=
  p.exports.zipIdx.flatMap fun (e, i) => [.exportEntry (.ofNat i) e.kind e.itemIndex e.name]

/-- The events that define the element segments. -/
def elemEvents : List Event :=
  p.elemSegments.zipIdx.flatMap fun (s, i) => s.events (.ofNat i)

/-- The events that define the data segments. -/
def dataEvents : List Event :=
  p.dataSegments.zipIdx.flatMap fun (s, i) => s.events (.ofNat i)

/-- The events of a list behind its length. -/
def counted (kind : CountedKind) (events : List Event) : List Event :=
  .itemCount kind (.ofNat (p.count kind)) :: events

/-- What is told in each section. -/
def sections : List (SectionKind × List Event) :=
  [(.types, p.counted .types p.typeEvents),
    (.imports, p.counted .imports p.importEvents),
    (.functions, p.counted .functions p.funcEvents),
    (.tables, p.counted .tables p.tableEvents),
    (.memories, p.counted .memories p.memoryEvents),
    (.globals, p.counted .globals p.globalEvents),
    (.exports, p.counted .exports p.exportEvents),
    (.start, p.start.toList.map .startFunction),
    (.elements, p.counted .elemSegments p.elemEvents),
    (.code, .bodyCount (.ofNat p.funcs.length) :: p.codeEvents),
    (.data, p.counted .dataSegments p.dataEvents)]

/-- The events that tell a module. -/
def events : List Event := p.toFrame.events p.sections

/-! ## The module -/

/-- What a module defines, in the order of its sections. -/
def definitions : List Definition :=
  p.types.map .funcType ++ (p.imports.map (fun d => .importEntry d.moduleName d.fieldName) ++
    (p.funcs.map (fun f => .item (.func f.sigIndex)) ++
      (p.tables.map (fun t => .item (.table t.elemType t.limits)) ++
        (p.memories.map (fun m => .item (.memory m.limits)) ++
          (p.globals.map (fun g => .item (.global g.type g.isMutable)) ++
            (p.exports.map .exportEntry ++ (p.start.toList.map .startFunction ++
              (p.elemSegments.map (fun s => .elemSegment s.tableIndex) ++
                p.dataSegments.map (fun s => .dataSegment s.memoryIndex)))))))))

/-- The module: imported items come before those that the module defines itself. -/
def module : Module where
  version := p.version
  fields := (Definition.fields p.importedCount p.definitions).toArray
  types := p.types.toArray
  imports := (ImportPlan.built p.imports).toArray
  funcs := {
    items := (p.imports.filterMap (·.item.func? p.types) ++ p.funcs.map (·.func p.types)).toArray
    imported := p.importedCount .func }
  tables := {
    items := (p.imports.filterMap (·.item.table?) ++ p.tables).toArray
    imported := p.importedCount .table }
  memories := {
    items := (p.imports.filterMap (·.item.memory?) ++ p.memories).toArray
    imported := p.importedCount .memory }
  globals := {
    items := (p.imports.filterMap (·.item.global?) ++ p.globals.map GlobalPlan.global).toArray
    imported := p.importedCount .global }
  exports := p.exports.toArray
  elemSegments := (p.elemSegments.map ElemPlan.segment).toArray
  dataSegments := (p.dataSegments.map DataPlan.segment).toArray
  start := p.start

/-- What a builder asks of a module: its program is admissible, what is named exists, and there is
room for all that is counted. -/
structure Valid : Prop extends p.toProgram.Admissible where
  exports : ∀ e ∈ p.exports, e.itemIndex.toNat < p.itemCount e.kind
  start : ∀ i, p.start = some i → i.toNat < p.itemCount .func
  counted : ∀ kind, p.count kind < reserveLimit
  elems : ∀ s ∈ p.elemSegments, s.funcIndices.length < reserveLimit

/-! ## How the events nest -/

variable {p}

theorem inner_initEvents (site : InitSite) (i : UInt32) (init : InitPlan) :
    ∀ e ∈ InitPlan.events site i init, e.Inner := by
  rcases init with _ | _ | value <;>
    simp only [InitPlan.events, Option.toList_none, Option.toList_some, List.map_nil, List.map_cons,
      List.nil_append, List.cons_append, List.forall_mem_cons]
  · exact List.forall_mem_nil _
  · exact ⟨⟨rfl, nofun⟩, ⟨rfl, nofun⟩, List.forall_mem_nil _⟩
  · exact ⟨⟨rfl, nofun⟩, ⟨rfl, nofun⟩, ⟨rfl, nofun⟩, List.forall_mem_nil _⟩

theorem inner_globalEvents : ∀ e ∈ p.globalEvents, e.Inner := by
  refine Event.inner_flatMap fun (g, i) => ?_
  simp only [GlobalPlan.events, List.forall_mem_cons, List.forall_mem_append]
  exact ⟨⟨rfl, nofun⟩, inner_initEvents _ _ _, ⟨rfl, nofun⟩, List.forall_mem_nil _⟩

theorem inner_elemEvents : ∀ e ∈ p.elemEvents, e.Inner := by
  refine Event.inner_flatMap fun (s, i) => ?_
  simp only [ElemPlan.events, List.forall_mem_cons, List.forall_mem_append, List.forall_mem_map]
  exact ⟨⟨rfl, nofun⟩, inner_initEvents _ _ _, ⟨rfl, nofun⟩, fun _ _ => ⟨rfl, nofun⟩, ⟨rfl, nofun⟩,
    List.forall_mem_nil _⟩

theorem inner_dataEvents : ∀ e ∈ p.dataEvents, e.Inner := by
  refine Event.inner_flatMap fun (s, i) => ?_
  simp only [DataPlan.events, List.forall_mem_cons, List.forall_mem_append]
  exact ⟨⟨rfl, nofun⟩, inner_initEvents _ _ _, ⟨rfl, nofun⟩, ⟨rfl, nofun⟩, List.forall_mem_nil _⟩

theorem inner_counted (kind : CountedKind) {events : List Event} (h : ∀ e ∈ events, e.Inner) :
    ∀ e ∈ p.counted kind events, e.Inner :=
  List.forall_mem_cons.mpr ⟨⟨rfl, nofun⟩, h⟩

theorem inner_sections : ∀ s ∈ p.sections, ∀ e ∈ s.2, e.Inner := by
  have hone {α : Type} {xs : List α} {f : α → Event} (h : ∀ x, (f x).Inner) :
      ∀ e ∈ xs.flatMap fun x => [f x], e.Inner :=
    Event.inner_flatMap fun x => List.forall_mem_singleton.mpr (h x)
  simp only [sections, List.forall_mem_cons (a := (_, _))]
  refine ⟨inner_counted _ Program.inner_typeEvents, inner_counted _ Program.inner_importEvents,
    inner_counted _ Program.inner_funcEvents, inner_counted _ (hone fun _ => ⟨rfl, nofun⟩),
    inner_counted _ (hone fun _ => ⟨rfl, nofun⟩), inner_counted _ inner_globalEvents,
    inner_counted _ (hone fun _ => ⟨rfl, nofun⟩), ?_, inner_counted _ inner_elemEvents,
    Program.inner_code, inner_counted _ inner_dataEvents, List.forall_mem_nil _⟩
  rw [List.forall_mem_map]
  exact fun _ _ => ⟨rfl, nofun⟩

/-! ## What the events define -/

theorem filterMap_zipIdx {α : Type} {f : α × Nat → List Event} {g : α → Definition}
    (h : ∀ x i, (f (x, i)).filterMap Event.definition? = [g x]) (xs : List α) (start : Nat) :
    ((xs.zipIdx start).flatMap f).filterMap Event.definition? = xs.map g := by
  induction xs generalizing start with
  | nil => rfl
  | cons x xs ih => simp [List.zipIdx_cons, List.filterMap_append, h, ih]

theorem filterMap_initEvents (site : InitSite) (i : UInt32) (init : InitPlan) :
    (InitPlan.events site i init).filterMap Event.definition? = [] := by
  rcases init with _ | _ | value <;> rfl

theorem filterMap_globalEvents : p.globalEvents.filterMap Event.definition? =
    p.globals.map fun g => .item (.global g.type g.isMutable) := by
  refine filterMap_zipIdx (fun g i => ?_) _ _
  simp [GlobalPlan.events, filterMap_initEvents, Event.definition?]

theorem filterMap_elemEvents : p.elemEvents.filterMap Event.definition? =
    p.elemSegments.map fun s => .elemSegment s.tableIndex := by
  refine filterMap_zipIdx (fun s i => ?_) _ _
  have hindices : (s.funcIndices.map (Event.elem (.ofNat i))).filterMap Event.definition? = [] := by
    rw [List.filterMap_map]
    exact List.filterMap_eq_nil_iff.mpr fun _ _ => rfl
  simp only [ElemPlan.events, List.filterMap_cons, List.filterMap_append, List.filterMap_nil,
    filterMap_initEvents, hindices, Event.definition?, List.append_nil]

theorem filterMap_dataEvents : p.dataEvents.filterMap Event.definition? =
    p.dataSegments.map fun s => .dataSegment s.memoryIndex := by
  refine filterMap_zipIdx (fun s i => ?_) _ _
  simp [DataPlan.events, filterMap_initEvents, Event.definition?]

theorem filterMap_codeEvents : p.codeEvents.filterMap Event.definition? = [] := by
  refine List.filterMap_eq_nil_iff.mpr fun e he => ?_
  obtain ⟨⟨f, i⟩, -, he⟩ := List.mem_flatMap.mp he
  simp only [FuncPlan.bodyEvents, List.mem_cons, List.mem_append, List.not_mem_nil, or_false] at he
  rcases he with rfl | rfl | he | he | rfl | rfl
  · rfl
  · rfl
  · obtain ⟨_, -, he⟩ := List.mem_flatMap.mp he
    obtain rfl := List.mem_singleton.mp he
    rfl
  · exact Event.definition?_of_isCode (Forest.isCode_of_mem_events he)
  · rfl
  · rfl

theorem filterMap_sectionEvents (kind : SectionKind) (events : List Event) :
    (p.sectionEvents kind events).filterMap Event.definition? =
      events.filterMap Event.definition? := by
  unfold Frame.sectionEvents
  split
  · next size _ =>
    show (events ++ [Event.endSection kind]).filterMap Event.definition? = _
    rw [List.filterMap_append]
    exact List.append_nil _
  · rfl

/-- What the events of a module define is what the module defines. -/
theorem filterMap_definition? (p : Blueprint) :
    p.events.filterMap Event.definition? = p.definitions := by
  have hends : p.events.filterMap Event.definition? =
      p.sections.flatMap fun s => s.2.filterMap Event.definition? := by
    show (p.tell p.sections ++ [Event.endModule]).filterMap Event.definition? = _
    rw [List.filterMap_append, Frame.tell, List.filterMap_flatMap]
    refine (List.append_nil _).trans (congrArg (List.flatMap · _) (funext fun s => ?_))
    exact filterMap_sectionEvents s.1 s.2
  have hcounted (kind : CountedKind) (events : List Event) :
      (p.counted kind events).filterMap Event.definition? =
        events.filterMap Event.definition? := rfl
  have hcode : (.bodyCount (.ofNat p.funcs.length) :: p.codeEvents).filterMap Event.definition? =
      [] := filterMap_codeEvents
  have hstart : (p.start.toList.map Event.startFunction).filterMap Event.definition? =
      p.start.toList.map .startFunction := by
    cases p.start <;> rfl
  rw [hends]
  simp only [sections, List.flatMap_cons, List.flatMap_nil, hcounted, hstart, hcode,
    filterMap_globalEvents, filterMap_elemEvents, filterMap_dataEvents, List.append_nil,
    List.nil_append]
  rw [Program.typeEvents, filterMap_zipIdx (fun _ _ => rfl), Program.importEvents,
    filterMap_zipIdx (fun _ _ => rfl), Program.funcEvents, filterMap_zipIdx (fun _ _ => rfl),
    tableEvents, filterMap_zipIdx (fun _ _ => rfl), memoryEvents, filterMap_zipIdx (fun _ _ => rfl),
    exportEvents, filterMap_zipIdx (fun _ _ => rfl)]
  rfl

end Blueprint
end WasmDecode
