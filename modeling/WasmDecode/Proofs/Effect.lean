import WasmDecode.Proofs.Action

/-!
# What events do

What it takes for an event to be accepted, and the builder that it leads to, said once for each kind
of event. What is proved about runs goes through this relation instead of the actions.

* `Event.isIdle`: the events that do nothing.
* `Builder.EditsCode`: a change of the instructions of functions, and of what is open of a body.
* `Builder.Takes`: a builder takes an event, and is another one afterwards.
* `Build.Keeps`: what an action keeps unless it stops. What changes of functions and of labels keep
  is kept by `Build.Keeps.append` and the like; `Build.keeps_handle` says so of the events of
  instructions.
* `Builder.takes_of_handle`: an event that is accepted is taken.
-/

namespace WasmDecode

/-- Whether an event does nothing, whatever it is that it is told to. An empty name names
nothing. -/
def Event.isIdle : Event → Bool
  | .malformed _ | .sectionHeader .. | .beginCustom .. | .endCustom | .beginSection ..
  | .endSection _ | .endGlobal _ | .localDeclCount _ | .opcode _ | .immediates _ | .endFunc
  | .endElemSegment _ | .endDataSegment _ | .relocCount .. | .reloc ..
  | .names (.subsection ..) | .names (.localFunctionCount _) => true
  | .names (.function _ name) | .names (.localName _ _ name) => name.isEmpty
  | _ => false

/-- A function apart from its instructions. -/
def Func.bare (f : Func) : Func := { f with first := none, arena := {} }

namespace Builder

/-- From `b` to `b'`, nothing changes but the instructions of functions and the open scopes. -/
structure EditsCode (b b' : Builder) : Prop where
  currentFunc : b'.currentFunc = b.currentFunc
  initTarget : b'.initTarget = b.initTarget
  bodiesRead : b'.bodiesRead = b.bodiesRead
  module : b'.module = { b.module with funcs := b'.module.funcs }
  imported : b'.module.funcs.imported = b.module.funcs.imported
  bare : ∀ p : Nat, b'.module.funcs.items[p]?.map Func.bare = b.module.funcs.items[p]?.map Func.bare

/-- A builder takes an event, and is another one afterwards. What the event does to the instructions
of a body is the matter of `Accepts`. -/
inductive Takes (b : Builder) : Event → Builder → Prop
  | beginModule (version : UInt32) :
    Takes b (.beginModule version) { b with module.version := version }
  | endModule (h : b.labels = []) : Takes b .endModule b
  | itemCount (kind : CountedKind) {count : UInt32} (h : count.toNat < reserveLimit) :
    Takes b (.itemCount kind count) b
  | funcType (i : UInt32) (params results : List ValueType) :
    Takes b (.funcType i params results)
      { b with module := { b.module.record .funcType b.module.types.size with
          types := b.module.types.push ⟨params, results⟩ } }
  | importEntry (i : UInt32) (moduleName fieldName : String) :
    Takes b (.importEntry i moduleName fieldName)
      { b with module := { b.module.record .importEntry b.module.imports.size with
          imports := b.module.imports.push { moduleName, fieldName } } }
  | importItem {i : UInt32} (moduleName fieldName : String) (itemIndex : UInt32) {item : ItemDecl}
    (h : b.module.MayImport i item) :
    Takes b (.importItem i moduleName fieldName itemIndex item)
      { b with module := (b.module.complete i item.kind).addImported item }
  | define (i : UInt32) {item : ItemDecl} (h : b.module.HasType item) :
    Takes b (.define i item)
      { b with module := (b.module.record (.item item.kind)
          (b.module.itemCount item.kind)).addDefined item }
  | exportEntry (i : UInt32) {kind : ExternalKind} {itemIndex : UInt32} (name : String)
    (h : itemIndex.toNat < b.module.itemCount kind) :
    Takes b (.exportEntry i kind itemIndex name)
      { b with module := { b.module.record .exportEntry b.module.exports.size with
          exports := b.module.exports.push ⟨name, kind, itemIndex⟩ } }
  | startFunction {i : UInt32} (h : i.toNat < b.module.funcs.size) :
    Takes b (.startFunction i)
      { b with module := { b.module.record .startFunction i.toNat with start := some i } }
  | bodyCount {count : UInt32} (h : b.module.funcs.definedCount = .ok count.toNat) :
    Takes b (.bodyCount count) b
  | beginBody {i : UInt32} (h : b.MayBegin i) : Takes b (.beginBody i) (b.openBody i)
  | localDecl (i : UInt32) {count : UInt32} (type : ValueType) {p : Nat} {f : Func}
    (hp : b.currentFunc = some p) (hf : b.module.funcs.items[p]? = some f)
    (h : f.locals.size + count.toNat ≤ maxFunctionLocals) :
    Takes b (.localDecl i count type)
      { b with module.funcs := b.module.funcs.modify p fun f =>
          { f with locals := f.locals ++ Array.replicate count.toNat type } }
  | code {e : Event} {b' : Builder} (he : e.isCode = true) (h : b.EditsCode b') : Takes b e b'
  | endBody {i : UInt32} {label : Label} {rest : List Label} (hp : b.currentFunc = some i.toNat)
    (hl : b.labels = label :: rest) (hk : label.kind = .func) :
    Takes b (.endBody i) { b with labels := rest, currentFunc := none }
  | beginElemSegment (i tableIndex : UInt32) :
    Takes b (.beginElemSegment i tableIndex)
      { b with module := { b.module.record .elemSegment b.module.elemSegments.size with
          elemSegments := b.module.elemSegments.push { tableIndex } } }
  | elemCount {i count : UInt32} (h : i.toNat + 1 = b.module.elemSegments.size)
    (hc : count.toNat < reserveLimit) : Takes b (.elemCount i count) b
  | elem {i : UInt32} (funcIndex : UInt32) (h : i.toNat + 1 = b.module.elemSegments.size) :
    Takes b (.elem i funcIndex)
      { b with module.elemSegments := b.module.elemSegments.modify i.toNat fun s =>
          { s with funcIndices := s.funcIndices.push funcIndex } }
  | beginDataSegment (i memoryIndex : UInt32) :
    Takes b (.beginDataSegment i memoryIndex)
      { b with module := { b.module.record .dataSegment b.module.dataSegments.size with
          dataSegments := b.module.dataSegments.push { memoryIndex } } }
  | segmentData {i : UInt32} (bytes : ByteArray) (h : i.toNat + 1 = b.module.dataSegments.size) :
    Takes b (.segmentData i bytes)
      { b with module.dataSegments := b.module.dataSegments.modify i.toNat fun s =>
          { s with bytes } }
  | beginInit {site : InitSite} {i : UInt32} (h : i.toNat + 1 = Build.initCount b.module site)
    (hi : site ≠ .global ∨ b.module.globals.imported ≤ i.toNat) (ht : b.initTarget = none) :
    Takes b (.beginInit site i) { b with initTarget := some ⟨site, i.toNat⟩ }
  | initValue (i : UInt32) (value : InitValue) {target : InitTarget}
    (ht : b.initTarget = some target) (hi : Build.initOf? b.module target = some none) :
    Takes b (.initValue i value)
      { b with module := Build.putInit target value.expr b.module }
  | endInit {site : InitSite} {i : UInt32} (h : b.initTarget = some ⟨site, i.toNat⟩) :
    Takes b (.endInit site i) { b with initTarget := none }
  | functionCount {count : UInt32} (h : count.toNat ≤ b.module.funcs.size) :
    Takes b (.names (.functionCount count)) b
  | function {i : UInt32} {name : String} (hn : name ≠ "") (h : i.toNat < b.module.funcs.size) :
    Takes b (.names (.function i name)) { b with module := b.module.nameFunc i name }
  | localCount {i count : UInt32} {f : Func} (hf : b.module.funcs.items[i.toNat]? = some f)
    (h : count.toNat ≤ f.numParamsAndLocals) : Takes b (.names (.localCount i count)) b
  | localName {i localIndex : UInt32} {name : String} {f : Func} (hn : name ≠ "")
    (hf : b.module.funcs.items[i.toNat]? = some f)
    (h : localIndex.toNat < f.numParamsAndLocals) :
    Takes b (.names (.localName i localIndex name))
      { b with module.funcs := b.module.funcs.modify i.toNat (·.nameLocal localIndex name) }
  | idle {e : Event} (h : e.isIdle = true) : Takes b e b

end Builder

namespace Build

variable {α β : Type} {R : Builder → Builder → Prop}

/-! ## Instructions -/

/-- An action that leads to a builder that `R` relates to the first one, unless it stops. What it
has changed until it stops does not matter. -/
def Keeps (R : Builder → Builder → Prop) (x : Build α) : Prop :=
  ∀ b a b', x.run b = .ok a b' → R b b'

theorem Looks.keeps [Std.Refl R] {x : Build α} (h : Looks x) : Keeps R x := by
  intro b a b' hb
  rcases h b with ⟨c, hc⟩ | ⟨stop, hc⟩
  · cases hc.symm.trans hb
    exact Std.Refl.refl b
  · cases hc.symm.trans hb

theorem Changes.keeps {x : Build α} (h : Changes R x) : Keeps R x := by
  intro b a b' hb
  obtain ⟨c, b₁, hc, hr⟩ := h b
  cases hc.symm.trans hb
  exact hr

theorem Keeps.bind [Trans R R R] {x : Build α} {f : α → Build β} (hx : Keeps R x)
    (hf : ∀ a, Keeps R (f a)) : Keeps R (x >>= f) := by
  intro b c b' hb
  obtain ⟨a, b₁, h₁, h₂⟩ := run_bind_ok.mp hb
  exact Trans.trans (hx b a b₁ h₁) (hf a b₁ c b' h₂)

theorem Looks.innermost : Looks Build.innermost := by
  refine .bind .get fun b => ?_
  split
  · exact .pure _
  · exact .refuse _

theorem Looks.openFunc (event : String) : Looks (Build.openFunc event) := by
  refine .bind .get fun b => ?_
  split
  · exact .pure _
  · exact .refuse _

end Build

namespace Builder

variable {b b' : Builder}

instance : Std.Refl EditsCode where
  refl _ := ⟨rfl, rfl, rfl, rfl, rfl, fun _ => rfl⟩

instance : Trans EditsCode EditsCode EditsCode where
  trans h h' := ⟨h'.currentFunc.trans h.currentFunc, h'.initTarget.trans h.initTarget,
    h'.bodiesRead.trans h.bodiesRead, by rw [h'.module, h.module], h'.imported.trans h.imported,
    fun p => (h'.bare p).trans (h.bare p)⟩

theorem EditsCode.of_modify (p : Nat) {g : Func → Func} (hg : ∀ f, (g f).bare = f.bare) :
    b.EditsCode { b with module.funcs := b.module.funcs.modify p g } :=
  ⟨rfl, rfl, rfl, rfl, rfl, fun _ => map_getElem?_modify hg⟩

end Builder

namespace Build

open Builder

theorem changes_modifyFunc (p : Nat) {g : Func → Func} (hg : ∀ f, (g f).bare = f.bare) :
    Changes EditsCode (modifyFunc p g) := .modifyModule fun _ => .of_modify p hg

theorem changes_labels (f : Builder → List Label) :
    Changes EditsCode (modify fun b => { b with labels := f b }) :=
  .modify fun _ => ⟨rfl, rfl, rfl, rfl, rfl, fun _ => rfl⟩

section Code

variable [Std.Refl R] [Trans R R R]
  (hfunc : ∀ (p : Nat) (g : Func → Func), (∀ f, (g f).bare = f.bare) → Changes R (modifyFunc p g))
  (hlabels : ∀ f : Builder → List Label, Changes R (modify fun b => { b with labels := f b }))

include hlabels in
theorem Keeps.elseArm : Keeps R elseArm := by
  refine .bind Looks.innermost.keeps fun label => ?_
  split
  · refine .bind Looks.get.keeps fun b => ?_
    split
    · exact (hlabels _).keeps
    · exact (Looks.throw _).keeps
  · exact (Looks.refuse _).keeps

include hlabels in
theorem Keeps.endScope : Keeps R endScope := by
  refine .bind Looks.innermost.keeps fun label => .bind (Looks.require _ _).keeps fun _ =>
    .bind Looks.get.keeps fun b => ?_
  split
  · exact (hlabels _).keeps
  · exact (Looks.refuse _).keeps

include hfunc hlabels in
/-- What is kept when a function changes in its instructions, and when the open scopes change, is
kept when an instruction is added. -/
theorem Keeps.append (e : Expr) : Keeps R (append e) := by
  have halloc (p : Nat) : Keeps R (allocNode p e) := by
    refine .bind Looks.get.keeps fun b => ?_
    split
    · refine .bind (Looks.require _ _).keeps fun _ =>
        .bind (Changes.keeps (hfunc p _ ?_)) fun _ => (Looks.pure _).keeps
      exact fun _ => rfl
    · exact (Looks.refuse _).keeps
  have hlink (p : Nat) (label : Label) (id : ExprId) : Keeps R (linkNode p label id) := by
    refine .bind Looks.get.keeps fun b => .bind (Looks.require _ _).keeps fun _ =>
      .bind (hfunc p _ fun f => ?_).keeps fun _ => (hlabels _).keeps
    unfold Func.link
    split <;> rfl
  exact .bind Looks.innermost.keeps fun label => .bind (Looks.openFunc _).keeps fun p =>
    .bind (halloc p) fun id => .bind (hlink p label id) fun _ => (Looks.pure _).keeps

include hfunc hlabels in
theorem Keeps.addInstr (i : Instr) : Keeps R (addInstr i) := by
  have hdiscard {α : Type} {x : Build α} (h : Keeps R x) : Keeps R (discard x) :=
    .bind h fun _ => (Looks.pure _).keeps
  have happend := hdiscard (Keeps.append hfunc hlabels (.instr i))
  cases i with
  | callIndirect sigIndex => exact .bind (hdiscard (Looks.signature _).keeps) fun _ => happend
  | load op arg | store op arg =>
    simp only [Build.addInstr]
    split
    · exact happend
    · exact .bind (Looks.refuse _).keeps fun _ => happend
  | _ => exact happend

end Code

/-- An event of instructions changes nothing but instructions and open scopes. -/
theorem keeps_handle {e : Event} (he : e.isCode = true) : Keeps EditsCode (handle e) := by
  have hfunc (p : Nat) (g : Func → Func) (hg : ∀ f, (g f).bare = f.bare) :
      Changes EditsCode (modifyFunc p g) := changes_modifyFunc p hg
  cases e with
  | instr i => exact .addInstr hfunc changes_labels i
  | beginScope kind sig =>
    refine .bind (.append hfunc changes_labels _) fun _ => (Changes.modify fun _ => ?_).keeps
    exact ⟨rfl, rfl, rfl, rfl, rfl, fun _ => rfl⟩
  | elseArm => exact .elseArm changes_labels
  | endScope => exact .endScope changes_labels
  | _ => cases he

end Build

/-! ## Events that are accepted -/

namespace Builder

variable {b b' : Builder} {e : Event}

theorem MayBegin.of_handle {i : UInt32} (h : b.handle (.beginBody i) = .ok () b') :
    b.MayBegin i ∧ b' = b.openBody i := by
  by_cases hm : b.MayBegin i
  · cases h.symm.trans (handle_beginBody hm)
    exact ⟨hm, rfl⟩
  · obtain ⟨stop, hs⟩ := handle_beginBody_error hm
    cases hs.symm.trans h

private theorem takes_of_readName {n : NameEvent} (h : (Build.readName n).run b = .ok () b') :
    b.Takes (.names n) b' := by
  cases n with
  | functionCount count =>
    simp only [Build.readName, Build.run_get_bind, Build.run_require_ok] at h
    obtain ⟨hc, rfl⟩ := h
    exact .functionCount hc
  | function i name =>
    by_cases hn : name = ""
    · subst hn
      cases h
      exact .idle rfl
    · simp only [Build.readName, String.isEmpty_iff, hn, if_false] at h
      obtain ⟨hi, rfl⟩ := Build.run_nameFunc.mp h
      exact .function hn hi
  | localCount i count =>
    simp only [Build.readName, Build.run_funcPosition_bind, Build.run_get_bind] at h
    obtain ⟨hi, h⟩ := h
    have hf := Array.getElem?_eq_getElem hi
    rw [Build.run_item_bind hf, Build.run_require_ok] at h
    obtain ⟨hc, rfl⟩ := h
    exact .localCount hf hc
  | localName i localIndex name =>
    by_cases hn : name = ""
    · subst hn
      cases h
      exact .idle rfl
    · simp only [Build.readName, String.isEmpty_iff, hn, if_false] at h
      obtain ⟨f, hf, hl, rfl⟩ := Build.run_nameLocal.mp h
      exact .localName hn hf hl
  | subsection | localFunctionCount =>
    cases h
    exact .idle rfl

/-- **An event that is accepted is taken.** -/
theorem takes_of_handle (h : b.handle e = .ok () b') : b.Takes e b' := by
  cases e with
  | beginModule version =>
    cases h
    exact .beginModule version
  | endModule =>
    obtain ⟨hl, rfl⟩ := Build.run_endModule.mp h
    exact .endModule hl
  | itemCount kind count =>
    obtain ⟨hc, rfl⟩ := Build.run_reserve.mp h
    exact .itemCount kind hc
  | funcType i params results =>
    cases h
    exact .funcType i params results
  | importEntry i moduleName fieldName =>
    cases h
    exact .importEntry i moduleName fieldName
  | importItem i moduleName fieldName itemIndex item =>
    obtain ⟨hm, rfl⟩ := Build.run_importItem.mp h
    exact .importItem moduleName fieldName itemIndex hm
  | define i item =>
    obtain ⟨ht, rfl⟩ := Build.run_define.mp h
    exact .define i ht
  | exportEntry i kind itemIndex name =>
    obtain ⟨hi, rfl⟩ := Build.run_addExport.mp h
    exact .exportEntry i name hi
  | startFunction i =>
    obtain ⟨hi, rfl⟩ := Build.run_setStart.mp h
    exact .startFunction hi
  | bodyCount count =>
    obtain ⟨hc, rfl⟩ := Build.run_checkBodyCount.mp h
    exact .bodyCount hc
  | beginBody i =>
    obtain ⟨hm, rfl⟩ := MayBegin.of_handle h
    exact .beginBody hm
  | localDecl i count type =>
    obtain ⟨p, f, hp, hf, hl, rfl⟩ := Build.run_addLocals.mp h
    exact .localDecl i type hp hf hl
  | instr | beginScope | elseArm | endScope => exact .code rfl (Build.keeps_handle rfl _ _ _ h)
  | endBody i =>
    obtain ⟨label, rest, hp, hl, hk, rfl⟩ := Build.run_endBody.mp h
    exact .endBody hp hl hk
  | beginElemSegment i tableIndex =>
    cases h
    exact .beginElemSegment i tableIndex
  | elemCount i count =>
    obtain ⟨hi, hc, rfl⟩ := Build.run_reserveElems.mp h
    exact .elemCount hi hc
  | elem i funcIndex =>
    obtain ⟨hi, rfl⟩ := Build.run_addElem.mp h
    exact .elem funcIndex hi
  | beginDataSegment i memoryIndex =>
    cases h
    exact .beginDataSegment i memoryIndex
  | segmentData i bytes =>
    obtain ⟨hi, rfl⟩ := Build.run_setData.mp h
    exact .segmentData bytes hi
  | beginInit site i =>
    obtain ⟨hi, hg, ht, rfl⟩ := Build.run_beginInit.mp h
    exact .beginInit hi hg ht
  | initValue i value =>
    obtain ⟨target, ht, hi, rfl⟩ := Build.run_setInit.mp h
    exact .initValue i value ht hi
  | endInit site i =>
    obtain ⟨ht, rfl⟩ := Build.run_endInit.mp h
    exact .endInit ht
  | names n => exact takes_of_readName h
  | _ =>
    cases h
    exact .idle rfl

end Builder
end WasmDecode
