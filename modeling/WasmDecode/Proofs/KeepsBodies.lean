import WasmDecode.Builder.Step
import WasmDecode.Proofs.Build
import WasmDecode.Proofs.OpenBody

/-!
# Events and bodies

Which events touch the bodies of functions. All others check first and change then, and what they
change lies elsewhere.

* `Event.isCode`, `Event.body?`, `Event.isBody`: the events that belong to the instructions of a
  body, those that begin or end one, and both.
* `Builder.codeAt`: the instructions of a function.
* `Builder.KeepsBodies`: what a builder keeps over the events that are not of this kind;
  `Build.guarded_handle` says so.
-/

namespace WasmDecode

/-- Whether an event belongs to the instructions of a body. -/
def Event.isCode : Event → Bool
  | .instr _ | .beginScope .. | .elseArm | .endScope => true
  | _ => false

/-- Whether an event begins or ends a body, or belongs to its instructions. -/
def Event.isBody : Event → Bool
  | .beginBody _ | .endBody _ => true
  | e => e.isCode

/-- The index of the body that an event begins or ends. -/
def Event.body? : Event → Option UInt32
  | .beginBody i | .endBody i => some i
  | _ => none

theorem Event.body?_eq_some {e : Event} {i : UInt32} :
    e.body? = some i ↔ e = .beginBody i ∨ e = .endBody i := by
  cases e <;> simp [Event.body?]

theorem Event.body?_of_isCode {e : Event} (h : e.isCode = true) : e.body? = none := by
  cases e <;> first | rfl | cases h

theorem Event.body?_of_not_isBody {e : Event} (h : e.isBody = false) : e.body? = none := by
  cases e <;> first | rfl | cases h

namespace Builder

/-- The instructions of the function at position `p`. There are none if there is no function. -/
def codeAt (b : Builder) (p : Nat) : Code := ((b.module.funcs.items[p]?).map Func.code).getD {}

/-- From `b` to `b'`, no body is touched, and no function is lost. -/
structure KeepsBodies (b b' : Builder) : Prop where
  labels : b'.labels = b.labels
  currentFunc : b'.currentFunc = b.currentFunc
  bodiesRead : b'.bodiesRead = b.bodiesRead
  imported : b.module.funcs.imported ≤ b'.module.funcs.imported
  size : b.module.funcs.size ≤ b'.module.funcs.size
  code : ∀ p, b'.codeAt p = b.codeAt p

instance : Std.Refl KeepsBodies where
  refl _ := ⟨rfl, rfl, rfl, Nat.le_refl _, Nat.le_refl _, fun _ => rfl⟩

instance : Trans KeepsBodies KeepsBodies KeepsBodies where
  trans h h' := ⟨h'.labels.trans h.labels, h'.currentFunc.trans h.currentFunc,
    h'.bodiesRead.trans h.bodiesRead, Nat.le_trans h.imported h'.imported,
    Nat.le_trans h.size h'.size, fun p => (h'.code p).trans (h.code p)⟩

variable {b b' : Builder}

/-- A change that leaves the functions and what is open of a body alone. -/
theorem KeepsBodies.of_eq (hf : b'.module.funcs = b.module.funcs) (hl : b'.labels = b.labels)
    (hc : b'.currentFunc = b.currentFunc) (hr : b'.bodiesRead = b.bodiesRead) :
    KeepsBodies b b' := by
  refine ⟨hl, hc, hr, ?_, ?_, fun p => ?_⟩ <;> simp [hf, codeAt]

/-- A change of a function apart from its instructions. -/
theorem KeepsBodies.of_modify {p : Nat} {g : Func → Func}
    (hf : b'.module.funcs = b.module.funcs.modify p g) (hg : ∀ f, (g f).code = f.code)
    (hl : b'.labels = b.labels) (hc : b'.currentFunc = b.currentFunc)
    (hr : b'.bodiesRead = b.bodiesRead) : KeepsBodies b b' := by
  refine ⟨hl, hc, hr, ?_, ?_, fun q => ?_⟩
  · simp [hf, IndexSpace.modify]
  · simp [hf, IndexSpace.size, IndexSpace.modify]
  · simp only [codeAt, hf, IndexSpace.modify, Array.getElem?_modify]
    split
    · simp [Function.comp_def, hg]
    · rfl

/-- A new function without instructions. -/
theorem KeepsBodies.of_push {f : Func} (hs : b'.module.funcs.items = b.module.funcs.items.push f)
    (hf : f.code = {}) (hi : b.module.funcs.imported ≤ b'.module.funcs.imported)
    (hl : b'.labels = b.labels) (hc : b'.currentFunc = b.currentFunc)
    (hr : b'.bodiesRead = b.bodiesRead) : KeepsBodies b b' := by
  refine ⟨hl, hc, hr, hi, ?_, fun p => ?_⟩
  · simp [IndexSpace.size, hs]
  · simp only [codeAt, hs, Array.getElem?_push]
    split
    · next h => simp [hf, h]
    · rfl

end Builder

namespace Build

open Builder

theorem changes_modifyModule {f : Module → Module} (h : ∀ m, (f m).funcs = m.funcs) :
    Changes KeepsBodies (modifyModule f) :=
  .modifyModule fun b => .of_eq (h b.module) rfl rfl rfl

theorem changes_recordField (kind : FieldKind) (index : Nat) :
    Changes KeepsBodies (recordField kind index) :=
  changes_modifyModule fun _ => by rfl

theorem guarded_completeImport (importIndex : UInt32) (kind : ExternalKind) :
    Guarded KeepsBodies (completeImport importIndex kind) :=
  Looks.get.andThen fun _ => (Looks.require _ _).andThen fun _ =>
    (Looks.require _ _).andThen fun _ => (Looks.item _ _).andThen fun _ =>
      (Looks.require _ _).andThen fun _ => (changes_modifyModule fun _ => by rfl).guarded

theorem guarded_importItem (importIndex : UInt32) (item : ItemDecl) :
    Guarded KeepsBodies (importItem importIndex item) := by
  cases item with
  | func sigIndex =>
    refine (Looks.signature _).andThen fun type => (guarded_completeImport _ _).andThen fun _ => ?_
    exact .modifyModule fun b => .of_push rfl rfl (Nat.le_succ _) rfl rfl rfl
  | table | memory | global =>
    exact (guarded_completeImport _ _).andThen fun _ => changes_modifyModule fun _ => by rfl

theorem guarded_define (item : ItemDecl) : Guarded KeepsBodies (define item) := by
  cases item with
  | func sigIndex =>
    refine (Looks.signature _).andThen fun type => Looks.get.andThen fun _ => Changes.guarded ?_
    exact (changes_recordField _ _).bind fun _ => .modifyModule fun b =>
      .of_push rfl rfl (Nat.le_refl _) rfl rfl rfl
  | table | memory | global =>
    exact Looks.get.andThen fun _ => Changes.guarded <|
      (changes_recordField _ _).bind fun _ => changes_modifyModule fun _ => by rfl

theorem guarded_addLocals (count : UInt32) (type : ValueType) :
    Guarded KeepsBodies (addLocals count type) := by
  have hopen : Looks (openFunc "local declaration") := by
    refine .bind .get fun b => ?_
    split
    · exact .pure _
    · exact .refuse _
  refine hopen.andThen fun func => Looks.get.andThen fun b => ?_
  split
  · exact (Looks.require _ _).andThen fun _ =>
      (Changes.modifyModule fun _ => .of_modify rfl (fun _ => rfl) rfl rfl rfl).guarded
  · exact (Looks.throw _).guarded

theorem guarded_beginInit (site : InitSite) (index : UInt32) :
    Guarded KeepsBodies (beginInit site index) :=
  Looks.get.andThen fun _ => (Looks.lastPosition _ _ _).andThen fun _ =>
    (Looks.require _ _).andThen fun _ => (Looks.require _ _).andThen fun _ =>
      (Changes.modify fun _ => .of_eq rfl rfl rfl rfl).guarded

theorem guarded_endInit (site : InitSite) (index : UInt32) :
    Guarded KeepsBodies (endInit site index) :=
  Looks.get.andThen fun _ => (Looks.require _ _).andThen fun _ =>
    (Changes.modify fun _ => .of_eq rfl rfl rfl rfl).guarded

theorem guarded_setInit (value : InitValue) : Guarded KeepsBodies (setInit value) := by
  refine Looks.get.andThen fun b => ?_
  split
  · exact (Looks.refuse _).guarded
  · exact (Looks.refuse _).guarded
  · next target _ =>
    refine (changes_modifyModule fun m => ?_).guarded
    unfold putInit
    split <;> rfl

theorem guarded_nameFunc (index : UInt32) (name : String) :
    Guarded KeepsBodies (nameFunc index name) := by
  refine (Looks.funcPosition _ _).andThen fun p => Looks.get.andThen fun _ =>
    (Looks.item _ _).andThen fun _ => Changes.guarded (.modifyModule fun b => ?_)
  exact .of_modify rfl (fun _ => rfl) rfl rfl rfl

theorem guarded_bindLocal (p : Nat) (func : Func) (localIndex : UInt32) (name : String) :
    Guarded KeepsBodies (bindLocal p func localIndex name) := by
  unfold bindLocal
  split
  · exact (Changes.modifyModule fun _ => .of_modify rfl (fun _ => rfl) rfl rfl rfl).guarded
  · exact (Looks.expect _).andThen fun _ =>
      (Changes.modifyModule fun _ => .of_modify rfl (fun _ => rfl) rfl rfl rfl).guarded

theorem guarded_nameLocal (funcIndex localIndex : UInt32) (name : String) :
    Guarded KeepsBodies (nameLocal funcIndex localIndex name) :=
  (Looks.funcPosition _ _).andThen fun _ => Looks.get.andThen fun _ =>
    (Looks.item _ _).andThen fun _ => (Looks.require _ _).andThen fun _ =>
      guarded_bindLocal _ _ _ _

theorem guarded_readName (n : NameEvent) : Guarded KeepsBodies (readName n) := by
  cases n with
  | functionCount => exact (Looks.bind .get fun _ => .require _ _).guarded
  | localCount =>
    exact (Looks.bind (.funcPosition _ _) fun _ => .bind .get fun _ => .bind (.item _ _) fun _ =>
      .require _ _).guarded
  | function =>
    simp only [readName]
    split
    · exact (Looks.pure _).guarded
    · exact guarded_nameFunc _ _
  | localName =>
    simp only [readName]
    split
    · exact (Looks.pure _).guarded
    · exact guarded_nameLocal _ _ _
  | subsection | localFunctionCount => exact (Looks.pure _).guarded

/-- Every event that does not belong to a body is checked before it changes something, and leaves
the bodies alone. -/
theorem guarded_handle {e : Event} (h : e.isBody = false) : Guarded KeepsBodies (handle e) := by
  cases e with
  | instr | beginScope | elseArm | endScope | beginBody | endBody => cases h
  | beginModule version =>
    simp only [handle]
    exact (changes_modifyModule fun _ => by rfl).guarded
  | endModule => exact (Looks.bind .get fun _ => .require _ _).guarded
  | itemCount => exact (Looks.reserve _).guarded
  | funcType | importEntry | beginElemSegment | beginDataSegment =>
    exact Looks.get.andThen fun _ => Changes.guarded <|
      (changes_recordField _ _).bind fun _ => changes_modifyModule fun _ => by rfl
  | importItem => exact guarded_importItem _ _
  | define => exact guarded_define _
  | exportEntry =>
    exact Looks.get.andThen fun _ => (Looks.require _ _).andThen fun _ =>
      Looks.get.andThen fun _ => Changes.guarded <|
        (changes_recordField _ _).bind fun _ => changes_modifyModule fun _ => by rfl
  | startFunction =>
    exact (Looks.funcPosition _ _).andThen fun _ => Changes.guarded <|
      (changes_recordField _ _).bind fun _ => changes_modifyModule fun _ => by rfl
  | bodyCount =>
    exact (Looks.bind .get fun _ => .bind (.expect _) fun _ => .require _ _).guarded
  | localDecl => exact guarded_addLocals _ _
  | elemCount =>
    exact (Looks.bind .get fun _ => .bind (.lastPosition _ _ _) fun _ => .bind (.item _ _) fun _ =>
      .reserve _).guarded
  | elem | segmentData =>
    exact Looks.get.andThen fun _ => (Looks.lastPosition _ _ _).andThen fun _ =>
      (Looks.item _ _).andThen fun _ => Changes.guarded (changes_modifyModule fun _ => by rfl)
  | beginInit => exact guarded_beginInit _ _
  | initValue => exact guarded_setInit _
  | endInit => exact guarded_endInit _ _
  | names => exact guarded_readName _
  | _ => exact (Looks.pure _).guarded

end Build
end WasmDecode
