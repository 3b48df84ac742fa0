import WasmDecode.Proofs.IndexSpace
import WasmDecode.Proofs.Operands

/-!
# References

What a module refers to is there. Each reference is checked once, when it is made, and stays right
because collections only grow, and only at their ends.

* `Definition.Refers`: what a definition refers to is there; `Builder.Takes.refers` says so of every
  definition at the time when it is made.
* `Outline.Closed`: the types of functions, the imports, the record of definitions, the exports and
  the start function refer to what is there.
* `Func.Closed`: the names of parameters and locals stand for parameters and locals.
* `Builder.Closed`: all references of a builder; `Builder.closed_run` says that none ever dangles.
-/

namespace WasmDecode

/-! ## References of definitions -/

/-- What a definition refers to is there, where there are so many definitions of each kind. -/
def Definition.Refers (count : FieldKind → Nat) : Definition → Prop
  | .item (.func sigIndex) => sigIndex.toNat < count .funcType
  | .exportEntry value => value.itemIndex.toNat < count (.item value.kind)
  | .startFunction i => i.toNat < count (.item .func)
  | _ => True

theorem Definition.Refers.mono {count count' : FieldKind → Nat} {d : Definition}
    (h : d.Refers count) (hc : ∀ kind, count kind ≤ count' kind) : d.Refers count' := by
  cases d with
  | item decl =>
    cases decl with
    | func sigIndex => exact Nat.lt_of_lt_of_le h (hc _)
    | _ => exact h
  | exportEntry | startFunction => exact Nat.lt_of_lt_of_le h (hc _)
  | _ => exact h

/-- The kind of what the entries of a kind in the record of definitions point to. -/
def FieldKind.target : FieldKind → FieldKind
  | .startFunction => .item .func
  | kind => kind

theorem FieldKind.target_of_ne {kind : FieldKind} (h : kind ≠ .startFunction) :
    kind.target = kind := by
  cases kind <;> first | rfl | exact absurd rfl h

/-! ## References of outlines -/

namespace Outline

variable {o o' : Outline} {d : Definition} {e : Event}

/-- The number of definitions of a kind. -/
def count (o : Outline) (kind : FieldKind) : Nat := (o.listed kind).length

/-- Nothing in an outline refers to what is not there. -/
structure Closed (o : Outline) : Prop where
  listed : ∀ kind, ∀ d ∈ o.listed kind, d.Refers o.count
  fields : ∀ f ∈ o.fields, f.index < o.count f.kind.target
  details : ∀ item, some item ∈ o.details → item.index < o.count (.item item.kind)
  start : ∀ i, o.start = some i → i.toNat < o.count (.item .func)

theorem Step.count_le (h : o.Step e o') (kind : FieldKind) : o.count kind ≤ o'.count kind :=
  (h.prefix_listed kind).length_le

theorem count_list_self : (o.list d).count d.kind = o.count d.kind + 1 := by
  simp [count, list]

theorem mem_list {d' : Definition} {kind : FieldKind} (h : d' ∈ (o.list d).listed kind) :
    d' ∈ o.listed kind ∨ d' = d := by
  simp only [list] at h
  split at h
  · simpa using h
  · exact .inl h

theorem define_of_ne (h : d.kind ≠ .startFunction) : o.define d =
    { o.list d with
      fields := o.fields ++ [⟨d.kind, o.count d.kind⟩]
      details := if d.kind = .importEntry then o.details ++ [none] else o.details } := by
  cases d <;> first | rfl | exact absurd rfl h

/-- More of a kind does no harm to the references that are there. -/
theorem Closed.list (h : o.Closed) (hd : d.Refers o.count) : (o.list d).Closed := by
  have hle (kind : FieldKind) : o.count kind ≤ (o.list d).count kind :=
    (prefix_list d kind).length_le
  refine ⟨fun kind d' hd' => ?_, fun f hf => Nat.lt_of_lt_of_le (h.fields f hf) (hle _),
    fun item hi => Nat.lt_of_lt_of_le (h.details item hi) (hle _),
    fun i hi => Nat.lt_of_lt_of_le (h.start i hi) (hle _)⟩
  rcases mem_list hd' with hd' | rfl
  · exact (h.listed kind d' hd').mono hle
  · exact hd.mono hle

theorem Closed.define (h : o.Closed) (hd : d.Refers o.count) : (o.define d).Closed := by
  by_cases hk : d.kind = .startFunction
  · cases d with
    | startFunction i =>
      refine ⟨h.listed, fun f hf => ?_, h.details, fun j hj => ?_⟩
      · rcases List.mem_append.mp hf with hf | hf
        · exact h.fields f hf
        · obtain rfl := List.mem_singleton.mp hf
          exact hd
      · cases hj
        exact hd
    | _ => cases hk
  · have hlist := h.list hd
    rw [define_of_ne hk]
    refine ⟨hlist.listed, fun f hf => ?_, fun item hi => hlist.details item ?_, hlist.start⟩
    · rcases List.mem_append.mp hf with hf | hf
      · exact hlist.fields f hf
      · obtain rfl := List.mem_singleton.mp hf
        show o.count d.kind < (o.list d).count d.kind.target
        rw [FieldKind.target_of_ne hk, count_list_self]
        exact Nat.lt_succ_self _
    · dsimp only at hi
      split at hi
      · obtain hi | hi := List.mem_append.mp hi
        · exact hi
        · cases List.mem_singleton.mp hi
      · exact hi

theorem Closed.complete {decl : ItemDecl} (h : o.Closed)
    (hd : (Definition.item decl).Refers o.count) (i : Nat) : (o.complete i decl).Closed := by
  have hlist := h.list hd
  refine ⟨hlist.listed, hlist.fields, fun item hi => ?_, hlist.start⟩
  rcases List.mem_or_eq_of_mem_set hi with hi | hi
  · exact hlist.details item hi
  · cases hi
    show o.count (.item decl.kind) < (o.list (.item decl)).count (Definition.item decl).kind
    rw [count_list_self]
    exact Nat.lt_succ_self _

/-- **No reference of an outline dangles** as long as those of new definitions do not. -/
theorem Closed.step (h : o.Closed) (hs : o.Step e o')
    (hd : ∀ d, e.definition? = some d ∨ e.imported? = some d → d.Refers o.count) : o'.Closed := by
  cases hs with
  | define he => exact h.define (hd _ (.inl he))
  | complete he => exact h.complete (hd _ (.inr (by simp [Event.imported?, he]))) _
  | keep => exact h

theorem closed_empty : (Module.outline {}).Closed := by
  refine ⟨fun kind d hd => ?_, fun f hf => ?_, fun item hi => ?_, fun i hi => ?_⟩
  · rcases kind with _ | _ | kind | _ | _ | _ | _ <;> try cases kind
    all_goals cases hd
  · cases hf
  · cases hi
  · cases hi

end Outline

/-! ## Collections and their outlines -/

namespace Module

variable {m m' : Module}

/-- The number of definitions to which the entries of a kind in the record of definitions may
point. -/
def fieldCount (m : Module) : FieldKind → Nat
  | .funcType => m.types.size
  | .importEntry => m.imports.size
  | .item kind => m.itemCount kind
  | .exportEntry => m.exports.size
  | .startFunction => m.funcs.size
  | .elemSegment => m.elemSegments.size
  | .dataSegment => m.dataSegments.size

theorem count_item (m : Module) (kind : ExternalKind) :
    m.outline.count (.item kind) = m.itemCount kind := m.length_listed_item kind

theorem count_target (m : Module) (kind : FieldKind) :
    m.outline.count kind.target = m.fieldCount kind := by
  cases kind with
  | item kind => exact m.count_item kind
  | startFunction => exact m.count_item .func
  | _ => simp [Outline.count, outline, listed, FieldKind.target, fieldCount]

theorem initCount_le (h : ∀ kind, m.outline.count kind ≤ m'.outline.count kind)
    (site : InitSite) : Build.initCount m site ≤ Build.initCount m' site := by
  have hcount (kind : FieldKind) : m.fieldCount kind ≤ m'.fieldCount kind := by
    rw [← count_target, ← count_target]
    exact h _
  cases site with
  | global => exact hcount (.item .global)
  | elemSegment => exact hcount .elemSegment
  | dataSegment => exact hcount .dataSegment

theorem HasType.refers {item : ItemDecl} (h : m.HasType item) :
    (Definition.item item).Refers m.outline.count := by
  cases item with
  | func sigIndex => exact Nat.lt_of_lt_of_eq h (m.count_target .funcType).symm
  | _ => trivial

end Module

namespace Builder

variable {b b' c : Builder} {e : Event} {d : Definition} {events : List Event}

/-- What a definition refers to is there when it is made. -/
theorem Takes.refers (h : b.Takes e b') (hd : e.definition? = some d ∨ e.imported? = some d) :
    d.Refers b.module.outline.count := by
  cases h with
  | importItem moduleName fieldName itemIndex h =>
    rcases hd with hd | hd <;> cases hd
    exact h.hasType.refers
  | define i h =>
    rcases hd with hd | hd <;> cases hd
    exact h.refers
  | exportEntry i name h =>
    rcases hd with hd | hd <;> cases hd
    exact Nat.lt_of_lt_of_eq h (b.module.count_item _).symm
  | startFunction h =>
    rcases hd with hd | hd <;> cases hd
    exact Nat.lt_of_lt_of_eq h (b.module.count_item .func).symm
  | code he h =>
    rcases hd with hd | hd
    · cases (Event.definition?_of_isCode he).symm.trans hd
    · simp [Event.imported?, Event.completion?_of_isCode he] at hd
  | idle h =>
    rcases hd with hd | hd
    · cases (Event.definition?_of_isIdle h).symm.trans hd
    · simp [Event.imported?, Event.completion?_of_isIdle h] at hd
  | _ => rcases hd with hd | hd <;> cases hd <;> trivial

theorem Steps.closed_outline (h : b.Steps events c) (hb : b.module.outline.Closed) :
    c.module.outline.Closed := by
  induction h with
  | nil => exact hb
  | cons he _ ih =>
    have ht := takes_of_handle he
    exact ih (hb.step ht.outline fun _ hd => ht.refers hd)

end Builder

/-! ## Names -/

theorem toNat_sub_toUInt32 {i : UInt32} {n : Nat} (h : n ≤ i.toNat) :
    (i - n.toUInt32).toNat = i.toNat - n := by
  have hn : n.toUInt32.toNat = n := UInt32.toNat_ofNat_of_lt' (Nat.lt_of_le_of_lt h i.toNat_lt)
  rw [UInt32.toNat_sub_of_le _ _ (UInt32.le_iff_toNat_le.mpr (hn.symm ▸ h)), hn]

/-- The names of parameters and locals of a function stand for parameters and locals. -/
structure Func.Closed (f : Func) : Prop where
  paramNames : ∀ (name : String) (i : UInt32), f.paramNames[name]? = some i → i.toNat < f.numParams
  localNames : ∀ (name : String) (i : UInt32), f.localNames[name]? = some i →
    i.toNat < f.locals.size

namespace Func.Closed

variable {f : Func}

theorem of_no_names (hp : f.paramNames = ∅) (hl : f.localNames = ∅) : f.Closed := by
  refine ⟨fun name i hi => ?_, fun name i hi => ?_⟩
  · rw [hp, Std.TreeMap.getElem?_emptyc] at hi
    cases hi
  · rw [hl, Std.TreeMap.getElem?_emptyc] at hi
    cases hi

theorem bare_iff : f.bare.Closed ↔ f.Closed := ⟨fun h => ⟨h.1, h.2⟩, fun h => ⟨h.1, h.2⟩⟩

theorem addLocals (h : f.Closed) (types : Array ValueType) :
    { f with locals := f.locals ++ types }.Closed := by
  refine ⟨h.paramNames, fun name i hi => Nat.lt_of_lt_of_le (h.localNames name i hi) ?_⟩
  rw [Array.size_append]
  exact Nat.le_add_right _ _

/-- A name that is added stands for a parameter, or for a local behind the parameters. -/
theorem nameLocal (h : f.Closed) {localIndex : UInt32} (hl : localIndex.toNat < f.numParamsAndLocals)
    (name : String) : (f.nameLocal localIndex name).Closed := by
  unfold Func.nameLocal
  split
  · next hp =>
    refine ⟨fun name' i hi => ?_, h.localNames⟩
    rw [Std.TreeMap.getElem?_insert] at hi
    split at hi
    · cases hi
      exact hp
    · exact h.paramNames name' i hi
  · next hp =>
    refine ⟨h.paramNames, fun name' i hi => ?_⟩
    rw [Std.TreeMap.getElem?_insert] at hi
    split at hi
    · cases hi
      rw [toNat_sub_toUInt32 (Nat.le_of_not_lt hp)]
      show localIndex.toNat - f.numParams < f.locals.size
      unfold numParamsAndLocals at hl
      omega
    · exact h.localNames name' i hi

end Func.Closed

namespace Module

variable {m : Module}

/-- The names of parameters and locals of all functions stand for parameters and locals. -/
def FuncsClosed (m : Module) : Prop :=
  ∀ (p : Nat) (f : Func), m.funcs.items[p]? = some f → f.Closed

namespace FuncsClosed

theorem pushFunc (h : m.FuncsClosed) {sigIndex : UInt32} {s : IndexSpace Func}
    (hs : s.items = m.funcs.items.push (m.newFunc sigIndex)) : { m with funcs := s }.FuncsClosed := by
  intro p f hf
  rw [hs, Array.getElem?_push] at hf
  split at hf
  · cases hf
    exact .of_no_names rfl rfl
  · exact h p f hf

theorem modifyFunc (h : m.FuncsClosed) {p : Nat} {g : Func → Func}
    (hg : ∀ f, m.funcs.items[p]? = some f → f.Closed → (g f).Closed) :
    { m with funcs := m.funcs.modify p g }.FuncsClosed := by
  intro q f hf
  rw [IndexSpace.getElem?_modify] at hf
  split at hf
  · next hpq =>
    subst hpq
    obtain ⟨f₀, hf₀, rfl⟩ := Option.map_eq_some_iff.mp hf
    exact hg f₀ hf₀ (h p f₀ hf₀)
  · exact h q f hf

/-- Instructions do not matter. -/
theorem editCode (h : m.FuncsClosed) {s : IndexSpace Func}
    (hs : ∀ p : Nat, s.items[p]?.map Func.bare = m.funcs.items[p]?.map Func.bare) :
    { m with funcs := s }.FuncsClosed := by
  intro p f hf
  have hp := hs p
  rw [hf, Option.map_some] at hp
  obtain ⟨f₀, hf₀, hbare⟩ := Option.map_eq_some_iff.mp hp.symm
  exact Func.Closed.bare_iff.mp (hbare ▸ Func.Closed.bare_iff.mpr (h p f₀ hf₀))

end FuncsClosed

/-- The names of functions stand for functions. -/
def NamesClosed (m : Module) : Prop :=
  ∀ (name : String) (i : UInt32), m.funcNames[name]? = some i → i.toNat < m.funcs.size

theorem NamesClosed.nameFunc (h : m.NamesClosed) {i : UInt32} (hi : i.toNat < m.funcs.size)
    (name : String) : (m.nameFunc i name).NamesClosed := by
  -- Naming a function may unbind the name that it had.
  have hnames {names : NameMap} (h : ∀ (name' : String) (j : UInt32), names[name']? = some j →
      j.toNat < m.funcs.size) (name' : String) (j : UInt32)
      (hj : (names.insert name i)[name']? = some j) : j.toNat < m.funcs.size := by
    rw [Std.TreeMap.getElem?_insert] at hj
    split at hj
    · cases hj
      exact hi
    · exact h name' j hj
  have herase (old name' : String) (j : UInt32) (hj : (m.funcNames.erase old)[name']? = some j) :
      j.toNat < m.funcs.size := by
    rw [Std.TreeMap.getElem?_erase] at hj
    split at hj
    · cases hj
    · exact h name' j hj
  intro name' j hj
  show j.toNat < (m.funcs.items.modify _ _).size
  rw [Array.size_modify]
  refine hnames ?_ name' j hj
  split
  · split
    · exact herase _
    · exact h
  · exact h

theorem typed_empty : ({} : Module).Typed := by
  intro p f hf
  cases hf

theorem funcsClosed_empty : ({} : Module).FuncsClosed := by
  intro p f hf
  cases hf

theorem namesClosed_empty : ({} : Module).NamesClosed := by
  intro name i hi
  rw [Std.TreeMap.getElem?_emptyc] at hi
  cases hi

end Module

/-! ## Builders -/

namespace Builder

variable {b b' c : Builder} {e : Event} {events : List Event}

theorem Takes.funcsClosed (h : b.Takes e b') (hb : b.module.FuncsClosed) :
    b'.module.FuncsClosed := by
  cases h with
  | @importItem i moduleName fieldName itemIndex item h =>
    cases item with
    | func sigIndex => exact hb.pushFunc rfl
    | _ => exact hb
  | @define i item h =>
    cases item with
    | func sigIndex => exact hb.pushFunc rfl
    | _ => exact hb
  | code he h =>
    rw [h.module]
    exact hb.editCode h.bare
  | localDecl i type hp hf h => exact hb.modifyFunc fun f _ hf => hf.addLocals _
  | @initValue i value target ht hi =>
    obtain ⟨site, position⟩ := target
    cases site <;> exact hb
  | function hn h => exact hb.modifyFunc fun f _ hf => ⟨hf.1, hf.2⟩
  | localName hn hf h =>
    refine hb.modifyFunc fun f hf' hclosed => hclosed.nameLocal ?_ _
    cases hf.symm.trans hf'
    exact h
  | _ => exact hb

theorem Takes.namesClosed (h : b.Takes e b') (hb : b.module.NamesClosed) :
    b'.module.NamesClosed := by
  have hcount := h.outline.count_le (.item .func)
  rw [Module.count_item, Module.count_item] at hcount
  have hb' (name : String) (i : UInt32) (hi : b.module.funcNames[name]? = some i) :
      i.toNat < b'.module.funcs.size := Nat.lt_of_lt_of_le (hb name i hi) hcount
  cases h with
  | @importItem i moduleName fieldName itemIndex item h => cases item <;> exact hb'
  | @define i item h => cases item <;> exact hb'
  | code he h =>
    intro name i hi
    rw [h.module] at hi
    exact hb' name i hi
  | @initValue i value target ht hi =>
    obtain ⟨site, position⟩ := target
    cases site <;> exact hb'
  | function hn h => exact hb.nameFunc h _
  | _ => exact hb'

/-- The definition exists whose init expression is open. -/
def TargetExists (b : Builder) : Prop :=
  ∀ target, b.initTarget = some target → target.position < Build.initCount b.module target.site

theorem Takes.targetExists (h : b.Takes e b') (hb : b.TargetExists) : b'.TargetExists := by
  have hb' (target : InitTarget) (ht : b.initTarget = some target) :
      target.position < Build.initCount b'.module target.site :=
    Nat.lt_of_lt_of_le (hb target ht) (Module.initCount_le h.outline.count_le _)
  cases h with
  | code he h =>
    intro target ht
    rw [h.initTarget] at ht
    exact hb' target ht
  | beginInit h =>
    intro target ht
    cases ht
    exact h ▸ Nat.lt_succ_self _
  | endInit h =>
    intro target ht
    cases ht
  | _ => exact hb'

theorem targetExists_empty : ({} : Builder).TargetExists := by
  intro target ht
  cases ht

/-- Nothing in a builder refers to what is not there. -/
structure Closed (b : Builder) : Prop where
  /-- Every function has the type at its type index. -/
  types : ∀ (p : Nat) (f : Func), b.module.funcs.items[p]? = some f →
    f.typeIndex.toNat < b.module.types.size ∧
      b.module.types[f.typeIndex.toNat]? = some f.type
  imports : ∀ (i : Nat) (entry : Import) (item : ImportedItem), b.module.imports[i]? = some entry →
    entry.item = some item → item.index < b.module.itemCount item.kind
  fields : ∀ (i : Nat) (field : Field), b.module.fields[i]? = some field →
    field.index < b.module.fieldCount field.kind
  exports : ∀ (i : Nat) (entry : Export), b.module.exports[i]? = some entry →
    entry.itemIndex.toNat < b.module.itemCount entry.kind
  start : ∀ i, b.module.start = some i → i.toNat < b.module.funcs.size
  /-- Every indirect call names a type. -/
  calls : ∀ (p : Nat) (f : Func) (id : ExprId) (node : Node) (sigIndex : UInt32),
    b.module.funcs.items[p]? = some f → f.arena.node? id = some node →
      node.expr = .instr (.callIndirect sigIndex) → sigIndex.toNat < b.module.types.size
  /-- Every memory access has an alignment. -/
  accesses : ∀ (p : Nat) (f : Func) (id : ExprId) (node : Node) (op : Opcode) (arg : MemArg),
    b.module.funcs.items[p]? = some f → f.arena.node? id = some node →
      node.expr = .instr (.load op arg) ∨ node.expr = .instr (.store op arg) →
        arg.alignLog2 < 32 ∧ arg.alignment = .ok (1 <<< arg.alignLog2)
  funcNames : ∀ (name : String) (i : UInt32), b.module.funcNames[name]? = some i →
    i.toNat < b.module.funcs.size
  paramNames : ∀ (p : Nat) (f : Func) (name : String) (i : UInt32),
    b.module.funcs.items[p]? = some f → f.paramNames[name]? = some i → i.toNat < f.numParams
  localNames : ∀ (p : Nat) (f : Func) (name : String) (i : UInt32),
    b.module.funcs.items[p]? = some f → f.localNames[name]? = some i → i.toNat < f.locals.size
  currentFunc : ∀ p, b.currentFunc = some p → p < b.module.funcs.size
  initTarget : ∀ target, b.initTarget = some target →
    target.position < Build.initCount b.module target.site

/-- What every event that is taken keeps holds after a run. -/
theorem Steps.keeps {P : Builder → Prop} (hstep : ∀ b e b', Takes b e b' → P b → P b')
    (h : b.Steps events c) (hb : P b) : P c := by
  induction h with
  | nil => exact hb
  | cons he _ ih => exact ih (hstep _ _ _ (takes_of_handle he) hb)

/-- **No reference dangles.** After any events, what the module and the builder refer to is there:
types of functions and of indirect calls, imported items, recorded definitions, exported items, the
start function, what names stand for, the open function and the definition whose init expression is
open. Every memory access has an alignment. -/
theorem closed_run (events : List Event) : (({} : Builder).run events).Closed := by
  have hsteps := sound_empty.steps_accepted events
  generalize ({} : Builder).run events = b at hsteps ⊢
  have hsound := hsteps.sound sound_empty
  have htyped := hsteps.typed Module.typed_empty
  have houtline := hsteps.closed_outline Outline.closed_empty
  have hchecked := hsteps.checked sound_empty checked_empty
  have hfuncs : b.module.FuncsClosed :=
    hsteps.keeps (P := (·.module.FuncsClosed)) (fun _ _ _ ht => ht.funcsClosed)
      Module.funcsClosed_empty
  have hchecks {p : Nat} {f : Func} {id : ExprId} {node : Node} {i : Instr}
      (hf : b.module.funcs.items[p]? = some f) (hn : f.arena.node? id = some node)
      (hi : node.expr = .instr i) : i.Checks b.module.types.size := by
    have hcode := hchecked p
    rw [codeAt_of_getElem? hf] at hcode
    exact hcode.of_mem hn hi
  exact {
    types := fun p f hf => by
      have htype := htyped p f hf
      exact ⟨(Array.getElem?_eq_some_iff.mp htype).1, htype⟩
    imports := fun i entry item hi hitem => by
      have hdetail := houtline.details item
        (List.mem_map.mpr ⟨entry, Array.mem_toList_iff.mpr (Array.mem_of_getElem? hi), hitem⟩)
      rwa [Module.count_item] at hdetail
    fields := fun i field hi => by
      have hfield := houtline.fields field (Array.mem_toList_iff.mpr (Array.mem_of_getElem? hi))
      rwa [Module.count_target] at hfield
    exports := fun i entry hi => by
      have hexport := houtline.listed .exportEntry (.exportEntry entry)
        (List.mem_map.mpr ⟨entry, Array.mem_toList_iff.mpr (Array.mem_of_getElem? hi), rfl⟩)
      exact Nat.lt_of_lt_of_eq hexport (b.module.count_item _)
    start := fun i hi => Nat.lt_of_lt_of_eq (houtline.start i hi) (b.module.count_item .func)
    calls := fun p f id node sigIndex hf hn hi => hchecks hf hn hi
    accesses := fun p f id node op arg hf hn hi => by
      have hlt : arg.alignLog2 < 32 := hi.elim (hchecks hf hn) (hchecks hf hn)
      exact ⟨hlt, MemArg.alignment_eq hlt⟩
    funcNames := hsteps.keeps (P := (·.module.NamesClosed)) (fun _ _ _ ht => ht.namesClosed)
      Module.namesClosed_empty
    paramNames := fun p f name i hf => (hfuncs p f hf).paramNames name i
    localNames := fun p f name i hf => (hfuncs p f hf).localNames name i
    currentFunc := fun p hp => by
      obtain ⟨o, ho⟩ := hsound.reading p hp
      exact ho.lt_size
    initTarget := hsteps.keeps (fun _ _ _ ht => ht.targetExists) targetExists_empty }

end Builder
end WasmDecode
