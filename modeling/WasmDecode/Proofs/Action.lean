import WasmDecode.Proofs.Accept

/-!
# What actions do

When an action does not stop, and what it leads to. There is one equivalence for each action, in
terms of the changes that it makes to a module.

* `bind_getElem?_push`, `bind_getElem?_modify`, `map_getElem?_modify`, ...: what is said of the
  items of a collection after it has changed.
* `Module.record`, `Module.complete`, `Module.addImported`, `Module.addDefined`, `Module.nameFunc`,
  `Func.nameLocal`: changes of a module.
* `Module.MayImport`, `Module.HasType`: what an item must meet.
* `InitValue.expr`: the expression that computes a value; `Expr.isConstant_iff` says which these are.
* `Build.run_define`, `Build.run_importItem`, `Build.run_setInit`, ...: the actions.
-/

namespace WasmDecode

/-! ## Changes of a collection -/

section Collection

variable {α β : Type} {xs : Array α} {f : α → Option β} {g : α → α} {a : α} {p q : Nat} {c : β}

theorem bind_getElem?_push (ha : f a = none) : (xs.push a)[p]?.bind f = xs[p]?.bind f := by
  rw [Array.getElem?_push]
  split
  · next hp =>
    rw [hp, Array.getElem?_eq_none (Nat.le_refl _)]
    exact ha
  · rfl

theorem bind_getElem?_modify (hg : ∀ a, f (g a) = f a) :
    (xs.modify q g)[p]?.bind f = xs[p]?.bind f := by
  rw [Array.getElem?_modify]
  split
  · rw [Option.bind_map]
    exact congrArg (Option.bind _) (funext hg)
  · rfl

theorem map_getElem?_modify {f : α → β} (hg : ∀ a, f (g a) = f a) :
    (xs.modify q g)[p]?.map f = xs[p]?.map f := by
  rw [Array.getElem?_modify]
  split
  · rw [Option.map_map]
    exact congrArg (Option.map · _) (funext hg)
  · rfl

theorem map_getElem?_modify_self {f : α → β} {d : β} (hg : ∀ a, f (g a) = d)
    (h : xs[p]?.map f = some c) : (xs.modify p g)[p]?.map f = some d := by
  obtain ⟨a, ha, -⟩ := Option.map_eq_some_iff.mp h
  rw [Array.getElem?_modify, if_pos rfl, ha, Option.map_some, Option.map_some, hg]

theorem bind_getElem?_modify_some (hg : ∀ a, f (g a) = some c) (hq : q < xs.size) :
    (xs.modify q g)[p]?.bind f = if q = p then some c else xs[p]?.bind f := by
  rw [Array.getElem?_modify]
  split
  · next hp =>
    rw [← hp, Array.getElem?_eq_getElem hq]
    exact hg _
  · rfl

end Collection

/-! ## Changes of a module -/

namespace Module

/-- Puts an entry on the record of definitions. -/
def record (m : Module) (kind : FieldKind) (index : Nat) : Module :=
  { m with fields := m.fields.push ⟨kind, index⟩ }

/-- Whether the type exists that an item names. Only functions name one. -/
def HasType (m : Module) : ItemDecl → Prop
  | .func sigIndex => sigIndex.toNat < m.types.size
  | _ => True

/-- A function with the type at an index, and no body yet. -/
def newFunc (m : Module) (sigIndex : UInt32) : Func :=
  { typeIndex := sigIndex, type := (m.types[sigIndex.toNat]?).getD default }

/-- Adds an imported item. -/
def addImported (m : Module) : ItemDecl → Module
  | .func sigIndex => { m with funcs := m.funcs.addImported (m.newFunc sigIndex) }
  | .table elemType limits => { m with tables := m.tables.addImported ⟨elemType, limits⟩ }
  | .memory limits => { m with memories := m.memories.addImported ⟨limits⟩ }
  | .global type isMutable => { m with globals := m.globals.addImported { type, isMutable } }

/-- Adds an item that the module defines itself. -/
def addDefined (m : Module) : ItemDecl → Module
  | .func sigIndex => { m with funcs := m.funcs.addDefined (m.newFunc sigIndex) }
  | .table elemType limits => { m with tables := m.tables.addDefined ⟨elemType, limits⟩ }
  | .memory limits => { m with memories := m.memories.addDefined ⟨limits⟩ }
  | .global type isMutable => { m with globals := m.globals.addDefined { type, isMutable } }

/-- Tells what an import imports: the next item of a kind. -/
def complete (m : Module) (importIndex : UInt32) (kind : ExternalKind) : Module :=
  { m with
    imports := m.imports.modify importIndex.toNat fun i =>
      { i with item := some ⟨kind, m.itemCount kind⟩ } }

/-- It may be told of an import that it imports an item: it is the latest one, of which this is not
known yet, and nothing of the kind of the item has been defined. -/
structure MayImport (m : Module) (importIndex : UInt32) (item : ItemDecl) : Prop where
  hasType : m.HasType item
  latest : m.imports.size = importIndex.toNat + 1
  first : m.importedCount item.kind = m.itemCount item.kind
  incomplete : m.imports[importIndex.toNat]?.bind Import.item = none

/-- Names a function, and unbinds the name that it had. -/
def nameFunc (m : Module) (index : UInt32) (name : String) : Module :=
  let old := m.funcs.items[index.toNat]?.bind Func.name
  let names := match old with
    | some old => if m.funcNames[old]? = some index then m.funcNames.erase old else m.funcNames
    | none => m.funcNames
  { m with
    funcs := m.funcs.modify index.toNat fun f => { f with name := some name }
    funcNames := names.insert name index }

end Module

/-- Names a parameter or local of a function. -/
def Func.nameLocal (f : Func) (localIndex : UInt32) (name : String) : Func :=
  if localIndex.toNat < f.numParams then
    { f with paramNames := f.paramNames.insert name localIndex }
  else
    { f with localNames := f.localNames.insert name (localIndex - f.numParams.toUInt32) }

/-- The expression that computes a value: a constant, or the value of another global. -/
def InitValue.expr : InitValue → Expr
  | .const value => .instr (.const value)
  | .getGlobal index => .instr (.getGlobal index)

/-- The expressions that count as constant are those that compute a value. -/
theorem Expr.isConstant_iff {e : Expr} :
    e.isConstant = true ↔ ∃ value : InitValue, value.expr = e := by
  constructor
  · intro h
    unfold isConstant at h
    split at h
    · next i =>
      unfold Instr.isConstant at h
      split at h
      · next value => exact ⟨.const value, rfl⟩
      · next index => exact ⟨.getGlobal index, rfl⟩
      · cases h
    · cases h
  · rintro ⟨value, rfl⟩
    cases value <;> rfl

/-! ## Actions that do not stop -/

namespace Build

variable {α β : Type} {b b' : Builder} {a : α} {u : Unit}

theorem run_get_bind (f : Builder → Build α) : (get >>= f).run b = (f b).run b := rfl

theorem run_modifyModule_bind (g : Module → Module) (f : Unit → Build α) :
    (modifyModule g >>= f).run b = (f ()).run { b with module := g b.module } := rfl

theorem run_modify_ok {g : Builder → Builder} :
    (modify g : Build Unit).run b = .ok u b' ↔ b' = g b := by
  rw [EStateM.run_modify]
  simp [eq_comm]

theorem run_modifyModule_ok {g : Module → Module} :
    (modifyModule g).run b = .ok u b' ↔ b' = { b with module := g b.module } := run_modify_ok

theorem run_require_bind {p : Prop} [Decidable p] {cause : Cause} {f : Unit → Build α} :
    (require p cause >>= f).run b = .ok a b' ↔ p ∧ (f ()).run b = .ok a b' := by
  by_cases hp : p <;> simp [hp]

theorem run_refuse_ok {cause : Cause} : (refuse cause : Build α).run b = .ok a b' ↔ False := by
  simp

theorem run_expect_bind {answer : Except Fault β} {f : β → Build α} :
    (expect answer >>= f).run b = .ok a b' ↔ ∃ c, answer = .ok c ∧ (f c).run b = .ok a b' := by
  cases answer <;> simp

theorem run_expect_ok_bind {c : β} {f : β → Build α} :
    (expect (.ok c) >>= f).run b = (f c).run b := rfl

theorem run_signature_bind {i : UInt32} {f : FuncType → Build α} :
    (signature i >>= f).run b = .ok a b' ↔ i.toNat < b.module.types.size ∧
      (f ((b.module.types[i.toNat]?).getD default)).run b = .ok a b' := by
  by_cases h : i.toNat < b.module.types.size
  · simp [EStateM.run_bind, run_signature h, h]
  · simp [EStateM.run_bind, signature, h]

theorem run_funcPosition_bind {what : String} {i : UInt32} {f : Nat → Build α} :
    (funcPosition what i >>= f).run b = .ok a b' ↔
      i.toNat < b.module.funcs.size ∧ (f i.toNat).run b = .ok a b' := by
  simp only [funcPosition, bind_assoc, run_get_bind, run_require_bind, pure_bind]

theorem run_lastPosition_bind {what : String} {i : UInt32} {size : Nat} {f : Nat → Build α} :
    (lastPosition what i size >>= f).run b = .ok a b' ↔
      i.toNat + 1 = size ∧ (f i.toNat).run b = .ok a b' := by
  simp only [lastPosition, bind_assoc, run_require_bind, pure_bind]

theorem run_item_bind {items : Array β} {i : Nat} {c : β} {f : β → Build α}
    (h : items[i]? = some c) : (item items i >>= f).run b = (f c).run b := by
  rw [EStateM.run_bind, run_item h]

/-- What is looked up at the last position is there. -/
theorem run_lastItem_bind {what : String} {i : UInt32} {items : Array β} {f : Nat → Build α} :
    (lastPosition what i items.size >>= fun p => item items p >>= fun _ => f p).run b = .ok a b' ↔
      i.toNat + 1 = items.size ∧ (f i.toNat).run b = .ok a b' := by
  rw [run_lastPosition_bind]
  refine and_congr_right fun hi => ?_
  rw [run_item_bind (Array.getElem?_eq_getElem (hi ▸ Nat.lt_succ_self _))]

theorem run_openFunc_bind {event : String} {f : Nat → Build α} :
    (openFunc event >>= f).run b = .ok a b' ↔
      ∃ p, b.currentFunc = some p ∧ (f p).run b = .ok a b' := by
  cases h : b.currentFunc with
  | none => simp [openFunc, h]
  | some p => simp [openFunc, h]

theorem run_innermost_bind {f : Label → Build α} :
    (innermost >>= f).run b = .ok a b' ↔
      ∃ label rest, b.labels = label :: rest ∧ (f label).run b = .ok a b' := by
  cases h : b.labels with
  | nil => simp [innermost, h]
  | cons label rest => simp [innermost, h]

theorem run_popLabel_bind {f : Unit → Build α} {label : Label} {rest : List Label}
    (h : b.labels = label :: rest) :
    (popLabel >>= f).run b = (f ()).run { b with labels := rest } := by
  simp only [popLabel, EStateM.run_bind, EStateM.run_get, h, EStateM.run_modify]

/-! ### Definitions -/

theorem run_reserve {count : UInt32} :
    (reserve count).run b = .ok u b' ↔ count.toNat < reserveLimit ∧ b' = b := by
  rw [reserve, run_require_ok]
  exact and_congr_right fun _ => eq_comm

theorem run_completeImport_bind {i : UInt32} {kind : ExternalKind} {f : Unit → Build α} :
    (completeImport i kind >>= f).run b = .ok a b' ↔
      b.module.imports.size = i.toNat + 1 ∧
        b.module.importedCount kind = b.module.itemCount kind ∧
        b.module.imports[i.toNat]?.bind Import.item = none ∧
        (f ()).run { b with module := b.module.complete i kind } = .ok a b' := by
  have hlast : (if b.module.imports.isEmpty then none else some (b.module.imports.size - 1)) =
      some i.toNat ↔ b.module.imports.size = i.toNat + 1 := by
    have hempty : b.module.imports.isEmpty = decide (b.module.imports.size = 0) := rfl
    simp only [hempty, decide_eq_true_eq]
    split <;> simp <;> omega
  simp only [completeImport, bind_assoc, run_get_bind, run_require_bind, hlast]
  refine and_congr_right fun hi => and_congr_right fun _ => ?_
  have hget : b.module.imports[i.toNat]? = some b.module.imports[i.toNat] :=
    Array.getElem?_eq_getElem (hi ▸ Nat.lt_succ_self _)
  rw [run_item_bind hget, run_require_bind, run_modifyModule_bind, hget, Option.bind_some,
    Option.isNone_iff_eq_none]
  rfl

/-- An item is imported if it may be. -/
theorem run_importItem {i : UInt32} {item : ItemDecl} :
    (importItem i item).run b = .ok u b' ↔ b.module.MayImport i item ∧
      b' = { b with module := (b.module.complete i item.kind).addImported item } := by
  cases item with
  | func sigIndex =>
    simp only [importItem, run_signature_bind, run_completeImport_bind, run_modifyModule_ok]
    constructor
    · rintro ⟨h₁, h₂, h₃, h₄, rfl⟩
      exact ⟨⟨h₁, h₂, h₃, h₄⟩, rfl⟩
    · rintro ⟨⟨h₁, h₂, h₃, h₄⟩, rfl⟩
      exact ⟨h₁, h₂, h₃, h₄, rfl⟩
  | table | memory | global =>
    simp only [importItem, run_completeImport_bind, run_modifyModule_ok]
    constructor
    · rintro ⟨h₂, h₃, h₄, rfl⟩
      exact ⟨⟨trivial, h₂, h₃, h₄⟩, rfl⟩
    · rintro ⟨⟨-, h₂, h₃, h₄⟩, rfl⟩
      exact ⟨h₂, h₃, h₄, rfl⟩

/-- An item is defined if its type exists. -/
theorem run_define {item : ItemDecl} :
    (define item).run b = .ok u b' ↔ b.module.HasType item ∧
      b' = { b with module := (b.module.record (.item item.kind)
        (b.module.itemCount item.kind)).addDefined item } := by
  cases item with
  | func sigIndex =>
    simp only [define, run_signature_bind, run_get_bind, recordField, run_modifyModule_bind,
      run_modifyModule_ok]
    rfl
  | table | memory | global =>
    simp only [define, run_get_bind, recordField, run_modifyModule_bind, run_modifyModule_ok,
      Module.HasType, true_and]
    rfl

theorem run_addExport {kind : ExternalKind} {i : UInt32} {name : String} :
    (addExport kind i name).run b = .ok u b' ↔ i.toNat < b.module.itemCount kind ∧
      b' = { b with module := { b.module.record .exportEntry b.module.exports.size with
        exports := b.module.exports.push ⟨name, kind, i⟩ } } := by
  simp only [addExport, run_get_bind, run_require_bind, recordField, run_modifyModule_bind,
    run_modifyModule_ok]
  rfl

theorem run_setStart {i : UInt32} :
    (setStart i).run b = .ok u b' ↔ i.toNat < b.module.funcs.size ∧
      b' = { b with module := { b.module.record .startFunction i.toNat with start := some i } } := by
  simp only [setStart, run_funcPosition_bind, recordField, run_modifyModule_bind,
    run_modifyModule_ok]
  rfl

theorem run_reserveElems {i count : UInt32} :
    (reserveElems i count).run b = .ok u b' ↔ i.toNat + 1 = b.module.elemSegments.size ∧
      count.toNat < reserveLimit ∧ b' = b := by
  simp only [reserveElems, run_get_bind, run_lastItem_bind, run_reserve]

theorem run_addElem {i funcIndex : UInt32} :
    (addElem i funcIndex).run b = .ok u b' ↔ i.toNat + 1 = b.module.elemSegments.size ∧
      b' = { b with module.elemSegments := b.module.elemSegments.modify i.toNat fun s =>
        { s with funcIndices := s.funcIndices.push funcIndex } } := by
  simp only [addElem, run_get_bind, run_lastItem_bind, run_modifyModule_ok]

theorem run_setData {i : UInt32} {bytes : ByteArray} :
    (setData i bytes).run b = .ok u b' ↔ i.toNat + 1 = b.module.dataSegments.size ∧
      b' = { b with module.dataSegments := b.module.dataSegments.modify i.toNat fun s =>
        { s with bytes } } := by
  simp only [setData, run_get_bind, run_lastItem_bind, run_modifyModule_ok]

/-! ### Init expressions -/

/-- A builder makes this expression of a value. -/
theorem instr_eq_expr (value : InitValue) : .instr value.instr = value.expr := by
  cases value <;> rfl

theorem run_beginInit {site : InitSite} {i : UInt32} :
    (beginInit site i).run b = .ok u b' ↔ i.toNat + 1 = initCount b.module site ∧
      (site ≠ .global ∨ b.module.globals.imported ≤ i.toNat) ∧ b.initTarget = none ∧
      b' = { b with initTarget := some ⟨site, i.toNat⟩ } := by
  simp only [beginInit, run_get_bind, run_lastPosition_bind, run_require_bind, run_modify_ok]

theorem run_setInit {value : InitValue} :
    (setInit value).run b = .ok u b' ↔ ∃ target, b.initTarget = some target ∧
      initOf? b.module target = some none ∧
      b' = { b with module := putInit target value.expr b.module } := by
  simp only [setInit, run_get_bind, instr_eq_expr]
  split
  · next h =>
    rw [run_refuse_ok, false_iff]
    rintro ⟨target, ht, hi, -⟩
    simp [ht, hi] at h
  · next h =>
    rw [run_refuse_ok, false_iff]
    rintro ⟨target, ht, hi, -⟩
    simp [ht, hi] at h
  · next target h =>
    obtain ⟨target', ht, init, hi, h⟩ : ∃ target', b.initTarget = some target' ∧
        ∃ init, initOf? b.module target' = some init ∧ (target', init) = (target, none) := by
      simpa only [Option.bind_eq_some_iff, Option.map_eq_some_iff] using h
    cases h
    rw [run_modifyModule_ok]
    constructor
    · exact fun h => ⟨target, ht, hi, h⟩
    · rintro ⟨target', ht', -, h⟩
      cases ht.symm.trans ht'
      exact h

theorem run_endInit {site : InitSite} {i : UInt32} :
    (endInit site i).run b = .ok u b' ↔ b.initTarget = some ⟨site, i.toNat⟩ ∧
      b' = { b with initTarget := none } := by
  simp only [endInit, run_get_bind, run_require_bind, run_modify_ok]

/-! ### Bodies and names -/

theorem run_checkBodyCount {count : UInt32} :
    (checkBodyCount count).run b = .ok u b' ↔
      b.module.funcs.definedCount = .ok count.toNat ∧ b' = b := by
  simp only [checkBodyCount, run_get_bind, run_expect_bind, run_require_ok]
  constructor
  · rintro ⟨n, hn, rfl, rfl⟩
    exact ⟨hn, rfl⟩
  · rintro ⟨hn, rfl⟩
    exact ⟨_, hn, rfl, rfl⟩

theorem run_endModule : endModule.run b = .ok u b' ↔ b.labels = [] ∧ b' = b := by
  simp only [endModule, run_get_bind, run_require_ok]
  exact and_congr_right fun _ => eq_comm

theorem run_addLocals {count : UInt32} {type : ValueType} :
    (addLocals count type).run b = .ok u b' ↔ ∃ p f, b.currentFunc = some p ∧
      b.module.funcs.items[p]? = some f ∧ f.locals.size + count.toNat ≤ maxFunctionLocals ∧
      b' = { b with module.funcs := b.module.funcs.modify p fun f =>
        { f with locals := f.locals ++ Array.replicate count.toNat type } } := by
  simp only [addLocals, run_openFunc_bind, run_get_bind]
  refine exists_congr fun p => ?_
  cases hf : b.module.funcs.items[p]? with
  | none =>
    refine iff_of_false (fun h => ?_) (by simp)
    cases h.2
  | some f =>
    simp only [Option.map_some, run_require_bind, modifyFunc, run_modifyModule_ok,
      Option.some.injEq]
    constructor
    · rintro ⟨hp, h, rfl⟩
      exact ⟨f, hp, rfl, h, rfl⟩
    · rintro ⟨f, hp, rfl, h, rfl⟩
      exact ⟨hp, h, rfl⟩

theorem run_endBody {i : UInt32} :
    (endBody i).run b = .ok u b' ↔ ∃ label rest, b.currentFunc = some i.toNat ∧
      b.labels = label :: rest ∧ label.kind = .func ∧
      b' = { b with labels := rest, currentFunc := none } := by
  simp only [endBody, run_get_bind, run_require_bind, run_innermost_bind]
  constructor
  · rintro ⟨hp, label, rest, hl, hk, h⟩
    rw [run_popLabel_bind hl, run_modify_ok] at h
    exact ⟨label, rest, hp, hl, hk, h⟩
  · rintro ⟨label, rest, hp, hl, hk, h⟩
    refine ⟨hp, label, rest, hl, hk, ?_⟩
    rwa [run_popLabel_bind hl, run_modify_ok]

theorem run_nameFunc {i : UInt32} {name : String} :
    (nameFunc i name).run b = .ok u b' ↔ i.toNat < b.module.funcs.size ∧
      b' = { b with module := b.module.nameFunc i name } := by
  simp only [nameFunc, run_funcPosition_bind, run_get_bind]
  refine and_congr_right fun hi => ?_
  have hget : b.module.funcs.items[i.toNat]? = some b.module.funcs.items[i.toNat] :=
    Array.getElem?_eq_getElem hi
  rw [run_item_bind hget, run_modifyModule_ok, Module.nameFunc, hget]
  rfl

/-- An index behind the parameters has a position among the locals. -/
theorem localPosition_eq {i : UInt32} {n : Nat} (h : n ≤ i.toNat) :
    localPosition i n = .ok (i - n.toUInt32) := by
  have hn : n.toUInt32.toNat = n :=
    UInt32.toNat_ofNat_of_lt' (Nat.lt_of_le_of_lt h i.toNat_lt)
  exact if_pos (UInt32.le_iff_toNat_le.mpr (hn.symm ▸ h))

theorem run_bindLocal {p : Nat} {f : Func} (hf : b.module.funcs.items[p]? = some f)
    {localIndex : UInt32} {name : String} :
    (bindLocal p f localIndex name).run b = .ok u b' ↔
      b' = { b with module.funcs := b.module.funcs.modify p (·.nameLocal localIndex name) } := by
  unfold bindLocal
  by_cases hp : localIndex.toNat < f.numParams
  · rw [if_pos hp, IndexSpace.modify_congr hf (f := (·.nameLocal localIndex name)) (if_pos hp)
      (g := fun f => { f with paramNames := f.paramNames.insert name localIndex })]
    exact run_modifyModule_ok
  · let index := localIndex - f.numParams.toUInt32
    rw [if_neg hp, localPosition_eq (Nat.le_of_not_lt hp), run_expect_ok_bind,
      IndexSpace.modify_congr hf (f := (·.nameLocal localIndex name)) (if_neg hp)
        (g := fun f => { f with localNames := f.localNames.insert name index })]
    exact run_modifyModule_ok

theorem run_nameLocal {i localIndex : UInt32} {name : String} :
    (nameLocal i localIndex name).run b = .ok u b' ↔ ∃ f,
      b.module.funcs.items[i.toNat]? = some f ∧ localIndex.toNat < f.numParamsAndLocals ∧
      b' = { b with module.funcs := b.module.funcs.modify i.toNat (·.nameLocal localIndex name) } := by
  simp only [nameLocal, run_funcPosition_bind, run_get_bind]
  constructor
  · rintro ⟨hi, h⟩
    have hf := Array.getElem?_eq_getElem hi
    rw [run_item_bind hf, run_require_bind, run_bindLocal hf] at h
    exact ⟨_, hf, h⟩
  · rintro ⟨f, hf, h⟩
    refine ⟨(Array.getElem?_eq_some_iff.mp hf).1, ?_⟩
    rwa [run_item_bind hf, run_require_bind, run_bindLocal hf]

end Build
end WasmDecode
