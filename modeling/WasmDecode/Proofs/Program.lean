import WasmDecode.Proofs.Replay

/-!
# Programs

What a stream tells of the functions of a module, and the events that tell it.

* `ImportPlan`, `FuncPlan`: an import, and a function of the module itself.
* `Program`: types, imports and functions, with the events that tell each of these lists.
* `Frame`: a module with its sections, as it stands around what is told; `Frame.nests_events` says
  how its events nest.
* `Program.events`: the events that tell a program, with or without a frame.
* `Program.Admissible`, `Program.Valid`: what a builder asks of it.
* `Event.isAside`: the events that may stand anywhere between the others.
-/

namespace WasmDecode

/-! ## Imports and functions -/

/-- An import, with the item that is imported. -/
structure ImportPlan where
  moduleName : String
  fieldName : String
  item : ItemDecl
  deriving DecidableEq, Repr, Inhabited

/-- A function of the module itself. Locals are told in runs of one type. -/
structure FuncPlan where
  sigIndex : UInt32
  locals : List (UInt32 × ValueType) := []
  body : Forest := .nil
  deriving DecidableEq, Repr, Inhabited

/-- The number of imported items of a kind. -/
def ImportPlan.count (kind : ExternalKind) (imports : List ImportPlan) : Nat :=
  imports.countP fun d => d.item.kind = kind

namespace FuncPlan

/-- The types of locals that are told in runs, one by one. -/
def expand (locals : List (UInt32 × ValueType)) : List ValueType :=
  locals.flatMap fun (count, type) => List.replicate count.toNat type

/-- The types of the locals. -/
def localTypes (f : FuncPlan) : List ValueType := expand f.locals

/-- The same function, of which only the type has been told. -/
def declared (f : FuncPlan) : FuncPlan := { sigIndex := f.sigIndex }

/-- The function as it is built. Its body is laid out in an arena of its own. -/
def func (types : List FuncType) (f : FuncPlan) : Func where
  typeIndex := f.sigIndex
  type := types[f.sigIndex.toNat]?.getD default
  locals := f.localTypes.toArray
  first := f.body.head 0 none
  arena := ⟨(f.body.layout 0 none).toArray⟩

/-- The events of the declarations of locals, from a position on. -/
def localEvents (start : Nat) (locals : List (UInt32 × ValueType)) : List Event :=
  (locals.zipIdx start).flatMap fun ((count, type), j) => [.localDecl (.ofNat j) count type]

/-- The events of a function body, which begins with the declarations of locals. -/
def bodyEvents (i : UInt32) (f : FuncPlan) : List Event :=
  .beginBody i :: .localDeclCount (.ofNat f.locals.length) ::
    (localEvents 0 f.locals ++ (f.body.events ++ [.endFunc, .endBody i]))

end FuncPlan

/-! ## Programs -/

/-- What a stream tells of the functions of a module. -/
structure Program where
  types : List FuncType := []
  imports : List ImportPlan := []
  funcs : List FuncPlan := []
  deriving DecidableEq, Repr, Inhabited

/-- Events with the begin and the end of a section around them. -/
def Event.inSection (kind : SectionKind) (size : UInt32) (events : List Event) : List Event :=
  .beginSection kind size :: (events ++ [.endSection kind])

/-- A module with its sections, as it stands around what is told. -/
structure Frame where
  version : UInt32
  /-- A section without a size is told without its begin and its end. -/
  sectionSize : SectionKind → Option UInt32 := fun _ => none

namespace Frame

variable (f : Frame)

/-- The events of a section. -/
def sectionEvents (kind : SectionKind) (events : List Event) : List Event :=
  match f.sectionSize kind with
  | some size => Event.inSection kind size events
  | none => events

/-- The events of sections. -/
def tell (sections : List (SectionKind × List Event)) : List Event :=
  sections.flatMap fun (kind, events) => f.sectionEvents kind events

/-- The events of a module with these sections. -/
def events (sections : List (SectionKind × List Event)) : List Event :=
  .beginModule f.version :: (f.tell sections ++ [.endModule])

end Frame

namespace Program

variable (p : Program)

/-- The number of imported items of a kind. -/
def importedCount (kind : ExternalKind) : Nat := ImportPlan.count kind p.imports

/-- The events that tell the types. -/
def typeEvents : List Event :=
  p.types.zipIdx.flatMap fun (type, i) => [.funcType (.ofNat i) type.params type.results]

/-- The events that tell the imports. An imported item has its index behind the earlier ones of its
kind. -/
def importEvents : List Event :=
  p.imports.zipIdx.flatMap fun (d, i) =>
    let itemIndex := ImportPlan.count d.item.kind (p.imports.take i)
    [.importEntry (.ofNat i) d.moduleName d.fieldName,
      .importItem (.ofNat i) d.moduleName d.fieldName (.ofNat itemIndex) d.item]

/-- The events that declare the functions, which have their indices behind the imported ones. -/
def funcEvents : List Event :=
  (p.funcs.zipIdx (p.importedCount .func)).flatMap fun (f, i) =>
    [.define (.ofNat i) (.func f.sigIndex)]

/-- The events that tell the bodies of the functions. -/
def codeEvents : List Event :=
  (p.funcs.zipIdx (p.importedCount .func)).flatMap fun (f, i) => f.bodyEvents (.ofNat i)

/-- The sections of a program. The number of bodies is told in front of the bodies. -/
def sections : List (SectionKind × List Event) :=
  [(.types, p.typeEvents), (.imports, p.importEvents), (.functions, p.funcEvents),
    (.code, .bodyCount (.ofNat p.funcs.length) :: p.codeEvents)]

/-- The events that tell a program. Without a frame, nothing tells of the module and its sections,
nor of the number of bodies. -/
def events : Option Frame → List Event
  | none => p.typeEvents ++ (p.importEvents ++ (p.funcEvents ++ p.codeEvents))
  | some f => f.events p.sections

/-- The functions have types, there are not too many locals, and the bodies pass the checks and have
room in an arena. -/
structure Admissible : Prop where
  imports : ∀ d ∈ p.imports, ∀ sigIndex, d.item = .func sigIndex → sigIndex.toNat < p.types.length
  funcs : ∀ f ∈ p.funcs, f.sigIndex.toNat < p.types.length
  locals : ∀ f ∈ p.funcs, f.localTypes.length ≤ maxFunctionLocals
  checks : ∀ f ∈ p.funcs, f.body.All (Instr.Checks p.types.length)
  fits : ∀ f ∈ p.funcs, f.body.size ≤ Arena.capacity

/-- What a builder asks of a program that is told within a frame or without one: there also is an
index for each import and for each function, and the number of bodies can be told if it has to
be. -/
structure Valid (frame : Option Frame) : Prop extends p.Admissible where
  importIndices : p.imports.length ≤ UInt32.size
  funcIndices : p.importedCount .func + p.funcs.length ≤ UInt32.size
  bodyCount : frame.isSome = true → p.funcs.length < UInt32.size

end Program

/-- The events that are passed over wherever they stand. -/
def Event.isAside : Event → Bool
  | .sectionHeader .. | .endGlobal _ | .localDeclCount _ | .opcode _ | .immediates _ | .endFunc
  | .endElemSegment _ | .endDataSegment _ | .relocCount .. | .reloc .. => true
  | .itemCount _ count => count.toNat < reserveLimit
  | _ => false

/-! ## How the events nest -/

/-- An event that lies within a section, and is no complaint of the scanner. -/
structure Event.Inner (e : Event) : Prop where
  level : e.nesting = .level
  wellFormed : ∀ message, e ≠ .malformed message

theorem Event.inner_of_isCode {e : Event} (h : e.isCode = true) : e.Inner := by
  refine ⟨?_, ?_⟩
  · cases e <;> first | rfl | cases h
  · rintro message rfl
    cases h

theorem Event.inner_of_isAside {e : Event} (h : e.isAside = true) : e.Inner := by
  refine ⟨?_, ?_⟩
  · cases e <;> first | rfl | cases h
  · rintro message rfl
    cases h

theorem Forest.isCode_of_mem_events {f : Forest} {e : Event} (h : e ∈ f.events) :
    e.isCode = true := by
  induction f with
  | nil => cases h
  | plain i rest ih =>
    rcases List.mem_cons.mp h with rfl | h
    · rfl
    · exact ih h
  | scope kind sig body rest ihb ihr =>
    simp only [events, List.mem_cons, List.mem_append] at h
    rcases h with rfl | h | rfl | h
    · rfl
    · exact ihb h
    · rfl
    · exact ihr h
  | ifElse sig thenArm elseArm rest iht ihe ihr =>
    simp only [events, List.mem_cons, List.mem_append] at h
    rcases h with rfl | h | rfl | h | rfl | h
    · rfl
    · exact iht h
    · rfl
    · exact ihe h
    · rfl
    · exact ihr h

namespace Event

variable {depth : Nat} {events rest : List Event}

theorem inner_flatMap {α : Type} {xs : List α} {f : α → List Event}
    (h : ∀ x, ∀ e ∈ f x, e.Inner) : ∀ e ∈ xs.flatMap f, e.Inner := by
  intro e he
  obtain ⟨x, -, hx⟩ := List.mem_flatMap.mp he
  exact h x e hx

theorem nests_append (h : ∀ e ∈ events, e.Inner) :
    nests depth (events ++ rest) = nests depth rest := by
  induction events with
  | nil => rfl
  | cons e events ih =>
    obtain ⟨he, h⟩ := List.forall_mem_cons.mp h
    simpa [nests, he.level] using ih h

theorem nests_inSection (kind : SectionKind) (size : UInt32) (h : ∀ e ∈ events, e.Inner) :
    nests depth (inSection kind size events ++ rest) = nests depth rest := by
  show nests (depth + 1) ((events ++ [.endSection kind]) ++ rest) = _
  rw [List.append_assoc, nests_append h]
  rfl

/-- Asides make no difference to how sections nest. -/
theorem nests_filter (events : List Event) :
    nests depth (events.filter fun e => !e.isAside) = nests depth events := by
  induction events generalizing depth with
  | nil => rfl
  | cons e events ih =>
    by_cases he : e.isAside = true
    · rw [List.filter_cons_of_neg (by simp [he]), ih]
      simp [nests, (inner_of_isAside he).level]
    · rw [List.filter_cons_of_pos (by simp [he])]
      unfold nests
      split <;> simp [ih]

theorem nests_congr {told : List Event}
    (h : (told.filter fun e => !e.isAside) = events.filter fun e => !e.isAside) :
    nests depth told = nests depth events := by
  rw [← nests_filter told, h, nests_filter]

end Event

namespace Frame

variable {f : Frame} {sections : List (SectionKind × List Event)} {depth : Nat} {rest : List Event}

theorem nests_tell (h : ∀ s ∈ sections, ∀ e ∈ s.2, e.Inner) :
    Event.nests depth (f.tell sections ++ rest) = Event.nests depth rest := by
  induction sections with
  | nil => rfl
  | cons s sections ih =>
    obtain ⟨hs, h⟩ := List.forall_mem_cons.mp h
    show Event.nests depth ((f.sectionEvents s.1 s.2 ++ f.tell sections) ++ rest) = _
    rw [List.append_assoc]
    unfold sectionEvents
    split
    · rw [Event.nests_inSection _ _ hs]
      exact ih h
    · rw [Event.nests_append hs]
      exact ih h

/-- **Sections nest** in a module if nothing else in them does. -/
theorem nests_events (h : ∀ s ∈ sections, ∀ e ∈ s.2, e.Inner) :
    Event.nests 0 (f.events sections) = true := by
  show Event.nests 1 _ = true
  rw [nests_tell h]
  rfl

theorem malformed_not_mem_events (h : ∀ s ∈ sections, ∀ e ∈ s.2, e.Inner) (message : String) :
    .malformed message ∉ f.events sections := by
  simp only [events, tell, List.mem_cons, List.mem_append, List.not_mem_nil, List.mem_flatMap,
    or_false, reduceCtorEq, false_or, not_exists, not_and]
  intro s hs he
  unfold sectionEvents at he
  split at he
  · simp only [Event.inSection, List.mem_cons, List.mem_append, List.not_mem_nil, or_false,
      reduceCtorEq, false_or] at he
    exact (h s hs _ he).wellFormed message rfl
  · exact (h s hs _ he).wellFormed message rfl

end Frame

namespace Program

variable {p : Program}

theorem inner_typeEvents : ∀ e ∈ p.typeEvents, e.Inner := by
  refine Event.inner_flatMap fun (type, i) => ?_
  rw [List.forall_mem_singleton]
  exact ⟨rfl, nofun⟩

theorem inner_importEvents : ∀ e ∈ p.importEvents, e.Inner := by
  refine Event.inner_flatMap fun (d, i) => ?_
  simp only [List.forall_mem_cons]
  exact ⟨⟨rfl, nofun⟩, ⟨rfl, nofun⟩, List.forall_mem_nil _⟩

theorem inner_funcEvents : ∀ e ∈ p.funcEvents, e.Inner := by
  refine Event.inner_flatMap fun (f, i) => ?_
  rw [List.forall_mem_singleton]
  exact ⟨rfl, nofun⟩

theorem inner_codeEvents : ∀ e ∈ p.codeEvents, e.Inner := by
  refine Event.inner_flatMap fun (f, i) => ?_
  simp only [FuncPlan.bodyEvents, List.forall_mem_cons, List.forall_mem_append]
  refine ⟨⟨rfl, nofun⟩, ⟨rfl, nofun⟩, Event.inner_flatMap fun ((count, type), j) => ?_,
    fun e he => Event.inner_of_isCode (Forest.isCode_of_mem_events he), ⟨rfl, nofun⟩, ⟨rfl, nofun⟩,
    List.forall_mem_nil _⟩
  rw [List.forall_mem_singleton]
  exact ⟨rfl, nofun⟩

/-- The number of bodies is told in the section of the bodies. -/
theorem inner_code : ∀ e ∈ .bodyCount (.ofNat p.funcs.length) :: p.codeEvents, e.Inner :=
  List.forall_mem_cons.mpr ⟨⟨rfl, nofun⟩, inner_codeEvents⟩

theorem inner_sections : ∀ s ∈ p.sections, ∀ e ∈ s.2, e.Inner := by
  simp only [sections, List.forall_mem_cons (a := (_, _))]
  exact ⟨inner_typeEvents, inner_importEvents, inner_funcEvents, inner_code, List.forall_mem_nil _⟩

theorem nests_events (p : Program) (frame : Option Frame) :
    Event.nests 0 (p.events frame) = true := by
  cases frame with
  | none =>
    rw [events, Event.nests_append inner_typeEvents, Event.nests_append inner_importEvents,
      Event.nests_append inner_funcEvents, ← List.append_nil p.codeEvents,
      Event.nests_append inner_codeEvents]
    rfl
  | some f => exact f.nests_events inner_sections

theorem malformed_not_mem_events (p : Program) (frame : Option Frame) (message : String) :
    .malformed message ∉ p.events frame := by
  cases frame with
  | none =>
    have hne {events : List Event} (h : ∀ e ∈ events, e.Inner) : .malformed message ∉ events :=
      fun hm => (h _ hm).wellFormed message rfl
    simp [events, hne inner_typeEvents, hne inner_importEvents, hne inner_funcEvents,
      hne inner_codeEvents]
  | some f => exact f.malformed_not_mem_events inner_sections message

end Program

end WasmDecode
