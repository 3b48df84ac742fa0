import WasmDecode.Proofs.Dispatch
import WasmDecode.Proofs.Record

/-!
# No faults

A builder never breaks the promises that it makes to itself: what it looks up is there, no count and
no position becomes negative, and the `if` of an `else` is where it should be. Some of this has been
checked just before, and the rest holds of every builder that events lead to.

* `Build.Faultless`: an action does not fault on a builder. It is closed under sequencing, where
  what comes later may rely on the checks before it.
* `Builder.Sound.faultless_handle`: no event faults.
* `Builder.Sound.append_ok`: an instruction is added whenever a body is open and its arena has room.
* `ErrorHandler.dispatch_faultless`: the same of the events that are dispatched one by one.
-/

namespace WasmDecode

namespace Build

variable {α β : Type} {b b' : Builder}

/-- An action that does not fault on a builder. It may well stop for a cause that lies in the
event. -/
def Faultless (x : Build α) (b : Builder) : Prop :=
  ∀ fault b', x.run b ≠ .error (.fault fault) b'

theorem Faultless.of_ok {x : Build α} {a : α} (h : x.run b = .ok a b') : Faultless x b := by
  intro fault c hc
  cases h.symm.trans hc

theorem Faultless.pure (a : α) : Faultless (Pure.pure a : Build α) b := .of_ok rfl

theorem Faultless.of_modify (f : Builder → Builder) : Faultless (modify f : Build Unit) b := .of_ok rfl

theorem Faultless.of_modifyModule (f : Module → Module) : Faultless (modifyModule f) b := .of_ok rfl

theorem Faultless.refuse (cause : Cause) : Faultless (refuse cause : Build α) b := by
  intro fault b' h
  cases h

theorem Faultless.require (p : Prop) [Decidable p] (cause : Cause) :
    Faultless (require p cause) b := by
  intro fault b' h
  rw [run_require] at h
  split at h <;> cases h

theorem Faultless.signature (i : UInt32) : Faultless (signature i) b := by
  unfold Build.signature
  intro fault b'
  rw [run_get_bind]
  dsimp only
  split
  · exact Faultless.pure _ fault b'
  · exact Faultless.refuse _ fault b'

theorem Faultless.bind {x : Build α} {f : α → Build β} (hx : Faultless x b)
    (hf : ∀ a b', x.run b = .ok a b' → Faultless (f a) b') : Faultless (x >>= f) b := by
  intro fault b' h
  rw [EStateM.run_bind] at h
  cases hrun : x.run b with
  | ok a b₁ =>
    rw [hrun] at h
    exact hf a b₁ hrun fault b' h
  | error stop b₁ =>
    rw [hrun] at h
    cases h
    exact hx fault b' hrun

theorem Faultless.discard {x : Build α} (hx : Faultless x b) : Faultless (discard x) b :=
  .bind hx fun _ _ _ => .pure _

/-! ## After a check -/

theorem Faultless.get_bind {f : Builder → Build α} (h : Faultless (f b) b) :
    Faultless (get >>= f) b := h

theorem Faultless.modify_bind {g : Builder → Builder} {f : Unit → Build α}
    (h : Faultless (f ()) (g b)) : Faultless ((modify g : Build Unit) >>= f) b := h

theorem Faultless.require_bind {p : Prop} [Decidable p] {cause : Cause} {f : Unit → Build α}
    (h : p → Faultless (f ()) b) : Faultless (Build.require p cause >>= f) b := by
  refine .bind (.require p cause) fun _ b' hb => ?_
  obtain ⟨hp, rfl⟩ := run_require_ok.mp hb
  exact h hp

/-- What is looked up at a position is there. -/
theorem Faultless.item_bind {items : Array β} {i : Nat} {f : β → Build α} (hi : i < items.size)
    (h : ∀ a, items[i]? = some a → Faultless (f a) b) : Faultless (item items i >>= f) b := by
  have hget : items[i]? = some items[i] := Array.getElem?_eq_getElem hi
  intro fault b'
  rw [run_item_bind hget]
  exact h _ hget fault b'

theorem Faultless.funcPosition_bind {what : String} {i : UInt32} {f : Nat → Build α}
    (h : i.toNat < b.module.funcs.size → Faultless (f i.toNat) b) :
    Faultless (funcPosition what i >>= f) b := by
  unfold funcPosition
  simp only [bind_assoc, pure_bind]
  exact .get_bind (.require_bind h)

theorem Faultless.lastPosition_bind {what : String} {i : UInt32} {size : Nat} {f : Nat → Build α}
    (h : i.toNat + 1 = size → Faultless (f i.toNat) b) :
    Faultless (lastPosition what i size >>= f) b := by
  unfold lastPosition
  simp only [bind_assoc, pure_bind]
  exact .require_bind h

/-- The last item of a collection is looked up. -/
theorem Faultless.lastItem_bind {what : String} {i : UInt32} {items : Array β} {f : Nat → Build α}
    (h : Faultless (f i.toNat) b) :
    Faultless (lastPosition what i items.size >>= fun p => item items p >>= fun _ => f p) b :=
  .lastPosition_bind fun hi => .item_bind (hi ▸ Nat.lt_succ_self _) fun _ _ => h

theorem Faultless.openFunc_bind {event : String} {f : Nat → Build α}
    (h : ∀ p, b.currentFunc = some p → Faultless (f p) b) : Faultless (openFunc event >>= f) b := by
  intro fault b' hrun
  cases hp : b.currentFunc with
  | none => simp [openFunc, hp] at hrun
  | some p =>
    rw [EStateM.run_bind, run_openFunc hp] at hrun
    exact h p hp fault b' hrun

theorem Faultless.innermost_bind {f : Label → Build α}
    (h : ∀ label rest, b.labels = label :: rest → Faultless (f label) b) :
    Faultless (innermost >>= f) b := by
  intro fault b' hrun
  cases hl : b.labels with
  | nil => simp [innermost, hl] at hrun
  | cons label rest =>
    rw [EStateM.run_bind, run_innermost hl] at hrun
    exact h label rest hl fault b' hrun

/-! ## Definitions -/

theorem faultless_completeImport (i : UInt32) (kind : ExternalKind) :
    Faultless (completeImport i kind) b := by
  refine .get_bind (.require_bind fun hlast => .require_bind fun _ => .item_bind ?_ fun _ _ =>
    .require_bind fun _ => .of_modifyModule _)
  -- There is an import, and it is the latest one.
  split at hlast
  · cases hlast
  · next hempty =>
    have hpos : 0 < b.module.imports.size := by
      rw [Nat.pos_iff_ne_zero, ne_eq, Array.size_eq_zero_iff, ← Array.isEmpty_iff]
      exact hempty
    have hi : b.module.imports.size - 1 = i.toNat := Option.some.inj hlast
    omega

theorem faultless_importItem (i : UInt32) (item : ItemDecl) : Faultless (importItem i item) b := by
  cases item with
  | func sigIndex =>
    exact .bind (.signature _) fun _ _ _ =>
      .bind (faultless_completeImport _ _) fun _ _ _ => .of_modifyModule _
  | table | memory | global =>
    exact .bind (faultless_completeImport _ _) fun _ _ _ => .of_modifyModule _

theorem faultless_define (item : ItemDecl) : Faultless (define item) b := by
  cases item with
  | func sigIndex => exact .bind (.signature _) fun _ _ _ => .of_ok rfl
  | table | memory | global => exact .of_ok rfl

theorem faultless_setInit (value : InitValue) : Faultless (setInit value) b := by
  refine .get_bind ?_
  dsimp only
  split
  · exact .refuse _
  · exact .refuse _
  · exact .of_modifyModule _

/-! ## Names -/

theorem faultless_nameFunc (i : UInt32) (name : String) : Faultless (nameFunc i name) b :=
  .funcPosition_bind fun hi => .get_bind (.item_bind hi fun _ _ => .of_modifyModule _)

/-- What is not a parameter has a position among the locals. -/
theorem faultless_bindLocal (p : Nat) (f : Func) (localIndex : UInt32) (name : String) :
    Faultless (bindLocal p f localIndex name) b := by
  unfold bindLocal
  split
  · exact .of_modifyModule _
  · next hp =>
    rw [localPosition_eq (Nat.le_of_not_lt hp)]
    exact .bind (.of_ok (run_expect_ok _ _)) fun _ _ _ => .of_modifyModule _

theorem faultless_readName (n : NameEvent) : Faultless (readName n) b := by
  cases n with
  | functionCount => exact .get_bind (.require _ _)
  | localCount =>
    exact .funcPosition_bind fun hi => .get_bind (.item_bind hi fun _ _ => .require _ _)
  | function =>
    simp only [readName]
    split
    · exact .pure _
    · exact faultless_nameFunc _ _
  | localName =>
    simp only [readName]
    split
    · exact .pure _
    · exact .funcPosition_bind fun hi => .get_bind (.item_bind hi fun _ _ =>
        .require_bind fun _ => faultless_bindLocal _ _ _ _)
  | subsection | localFunctionCount => exact .pure _

/-! ## Instructions -/

theorem faultless_append (e : Expr) : Faultless (append e) b := by
  have halloc (p : Nat) (c : Builder) : Faultless (allocNode p e) c := by
    refine .get_bind ?_
    split
    · exact .require_bind fun _ => .modify_bind (.pure _)
    · exact .refuse _
  have hlink (p : Nat) (label : Label) (id : ExprId) (c : Builder) :
      Faultless (linkNode p label id) c :=
    .get_bind (.require_bind fun _ => .modify_bind (.of_modify _))
  exact .innermost_bind fun label _ _ => .openFunc_bind fun p _ =>
    .bind (halloc p _) fun id _ _ => .bind (hlink p label id _) fun _ _ _ => .pure _

theorem faultless_addInstr (i : Instr) : Faultless (addInstr i) b := by
  have happend (c : Builder) : Faultless (discard (append (.instr i))) c :=
    .discard (faultless_append _)
  cases i with
  | callIndirect sigIndex => exact .bind (.discard (.signature _)) fun _ _ _ => happend _
  | load op arg | store op arg =>
    simp only [addInstr]
    split
    · exact happend _
    · exact .bind (.refuse _) fun _ _ _ => happend _
  | _ => exact happend _

theorem faultless_popLabel : Faultless popLabel b := by
  refine .get_bind ?_
  split
  · exact .of_modify _
  · exact .refuse _

theorem faultless_endScope : Faultless endScope b :=
  .innermost_bind fun _ _ _ => .require_bind fun _ => faultless_popLabel

theorem faultless_beginBody (i : UInt32) : Faultless (beginBody i) b :=
  .get_bind (.require_bind fun _ => .funcPosition_bind fun _ => .require_bind fun _ =>
    .require_bind fun _ => .modify_bind (.of_modify _))

theorem faultless_endBody (i : UInt32) : Faultless (endBody i) b :=
  .get_bind (.require_bind fun _ => .innermost_bind fun _ _ _ => .require_bind fun _ =>
    .bind faultless_popLabel fun _ _ _ => .of_modify _)

end Build

/-! ## What only sound builders promise -/

/-- The `if` of an `else` is the last instruction of the scope around it. -/
theorem OpenBody.last_outer {o : OpenBody} {owner : ExprId} (hk : o.label.kind = .ifThen)
    (hs : o.label.slot = .blockFirst owner) : o.outerLabels.head?.bind Label.last = some owner := by
  cases o with
  | body done => cases hk
  | scope outer kind sig done =>
    cases hs
    rfl
  | elseArm outer sig thenArm done => cases hk

namespace Builder

open Build

variable {b c : Builder} {p : Nat} {events : List Event}

theorem Sound.exists_reading (hb : b.Sound) (hl : b.labels ≠ []) : ∃ p o, b.Reading p o := by
  cases hp : b.currentFunc with
  | none => exact absurd (hb.idle hp) hl
  | some p => exact ⟨p, hb.reading p hp⟩

theorem Sound.faultless_elseArm (hb : b.Sound) : Faultless elseArm b := by
  refine .innermost_bind fun label rest hl => ?_
  split
  · next owner hk hs =>
    obtain ⟨p, o, ho⟩ := hb.exists_reading (by simp [hl])
    obtain ⟨rfl, rfl⟩ : label = o.label ∧ rest = o.outerLabels :=
      List.cons.inj (hl.symm.trans ho.labels)
    refine .get_bind ?_
    rw [hl, List.tail_cons, if_pos (OpenBody.last_outer hk hs)]
    exact .of_modify _
  · exact .refuse _

theorem Sound.faultless_addLocals (hb : b.Sound) (count : UInt32) (type : ValueType) :
    Faultless (addLocals count type) b := by
  refine .openFunc_bind fun p hp => .get_bind ?_
  obtain ⟨o, ho⟩ := hb.reading p hp
  obtain ⟨f, hf, -⟩ := ho.exists_func
  rw [hf, Option.map_some]
  exact .require_bind fun _ => .of_modifyModule _

theorem faultless_checkBodyCount (h : b.module.funcs.imported ≤ b.module.funcs.size)
    (count : UInt32) : Faultless (checkBodyCount count) b := by
  refine .get_bind ?_
  rw [IndexSpace.definedCount, if_pos h]
  exact .bind (.of_ok (run_expect_ok _ _)) fun _ _ _ => .require _ _

/-- **No event faults** on a sound builder that does not import more functions than it has. -/
theorem Sound.faultless_handle (hb : b.Sound) (h : b.module.funcs.imported ≤ b.module.funcs.size)
    (e : Event) : Faultless (Build.handle e) b := by
  cases e with
  | endModule => exact .get_bind (.require _ _)
  | itemCount => exact .require _ _
  | importItem => exact faultless_importItem _ _
  | define => exact faultless_define _
  | exportEntry => exact .get_bind (.require_bind fun _ => .of_ok rfl)
  | startFunction => exact .funcPosition_bind fun _ => .of_ok rfl
  | bodyCount => exact faultless_checkBodyCount h _
  | beginBody => exact faultless_beginBody _
  | localDecl => exact hb.faultless_addLocals _ _
  | instr => exact faultless_addInstr _
  | beginScope => exact .bind (faultless_append _) fun _ _ _ => .of_modify _
  | elseArm => exact hb.faultless_elseArm
  | endScope => exact faultless_endScope
  | endBody => exact faultless_endBody _
  | elemCount => exact .get_bind (.lastItem_bind (.require _ _))
  | elem | segmentData => exact .get_bind (.lastItem_bind (.of_modifyModule _))
  | beginInit =>
    exact .get_bind (.lastPosition_bind fun _ => .require_bind fun _ => .require_bind fun _ =>
      .of_modify _)
  | initValue => exact faultless_setInit _
  | endInit => exact .get_bind (.require_bind fun _ => .of_modify _)
  | names => exact faultless_readName _
  | beginModule | funcType | importEntry | beginElemSegment | beginDataSegment =>
    exact .of_ok rfl
  | _ => exact .pure _

/-- **Adding an instruction.** If a body is open and its arena has room, every instruction is
added. -/
theorem Sound.append_ok (hb : b.Sound) (hl : b.labels ≠ [])
    (hroom : ∀ p f, b.currentFunc = some p → b.module.funcs.items[p]? = some f →
      f.arena.size < Arena.capacity) (e : Expr) : ∃ id b', (append e).run b = .ok id b' := by
  obtain ⟨p, o, ho⟩ := hb.exists_reading hl
  obtain ⟨f, hf, hspells⟩ := ho.exists_func
  have hsize : f.arena.size = o.size := hspells.size_eq
  exact ⟨_, _, run_append ho (hsize ▸ hroom p f ho.current hf) e⟩

/-- The items of a kind are those that have been imported and those that have been defined. -/
theorem Steps.itemCount_eq (h : ({} : Builder).Steps events c) (kind : ExternalKind) :
    c.module.itemCount kind = c.module.importedCount kind +
      (Definition.ofKind (.item kind) (events.filterMap Event.definition?)).length := by
  rw [← Module.length_listed_item]
  exact h.lists.length_listed (by simp)

theorem Steps.imported_le (h : ({} : Builder).Steps events c) (kind : ExternalKind) :
    c.module.importedCount kind ≤ c.module.itemCount kind :=
  h.itemCount_eq kind ▸ Nat.le_add_right _ _

theorem definedFuncs_ok {m : Module} (h : m.funcs.imported ≤ m.funcs.size) :
    ∃ funcs, m.definedFuncs = .ok funcs := ⟨_, if_pos h⟩

end Builder

/-! ## Events on their way to a builder -/

namespace ErrorHandler

variable {η : Type} {h : ErrorHandler η} {d : Decoder η} {c : Cursor} {e : Event} {fault : Fault}

theorem dispatch_ne_fault (hd : Build.Faultless (Build.handle e) d.builder) :
    (h.decoder.dispatch d c e).outcome ≠ .error (.fault fault) := by
  have hh : (h.decoder.handle d c e).outcome ≠ .error (.fault fault) := by
    simp only [decoder]
    split
    · rintro ⟨⟩
    · rintro ⟨⟩
    · next f after hf => exact absurd hf (hd f after)
  cases e with
  | malformed message =>
    simp only [Reader.dispatch]
    split <;> rintro ⟨⟩
  | _ => exact hh

/-- **No faults.** After any events, no event faults, the definitions can be counted, and the
functions that the module defines can be told from the imported ones. As long as the arena has room,
adding an instruction fails if and only if no scope is open, and says so. -/
theorem dispatch_faultless (h : ErrorHandler η) (s : η) (data : ByteArray) (entries : List Entry) :
    let d := h.dispatchAll data { handler := s } entries
    let b := d.builder
    (∀ c e fault, (h.decoder.dispatch d c e).outcome ≠ .error (.fault fault)) ∧
      (∃ counts, b.module.counts = .ok counts) ∧
      (∃ funcs, b.module.definedFuncs = .ok funcs) ∧
      ((∀ p f, b.currentFunc = some p → b.module.funcs.items[p]? = some f →
          f.arena.size < Arena.capacity) →
        ∀ expr,
          (b.labels ≠ [] → ∃ id b', (Build.append expr).run b = .ok id b') ∧
          (b.labels = [] →
            (Build.append expr).run b = .error (.refused (.labelDepthOutOfRange 0 0)) b)) := by
  intro d b
  have hrun : b = ({} : Builder).run (entries.map Entry.event) := dispatchAll_builder
  have hsteps := Builder.sound_empty.steps_accepted (entries.map Entry.event)
  rw [← hrun] at hsteps
  have hb := hsteps.sound Builder.sound_empty
  have himported := hsteps.imported_le .func
  refine ⟨fun c e fault => dispatch_ne_fault (hb.faultless_handle himported e),
    ⟨_, hsteps.lists.counts⟩, Builder.definedFuncs_ok himported, fun hroom expr => ⟨?_, ?_⟩⟩
  · exact fun hl => hb.append_ok hl hroom expr
  · exact fun hl => Build.run_append_closed hl expr

/-- A `loop` is open in the `else` of an `if`, after events that were refused. -/
theorem dispatch_faultless_open_else :
    let entries : List Entry := [⟨0, .importEntry 0 "env" "f"⟩, ⟨1, .bodyCount 1⟩,
      ⟨2, .funcType 0 [] []⟩, ⟨3, .define 0 (.func 0)⟩, ⟨4, .beginBody 0⟩,
      ⟨5, .beginScope .ifThen []⟩, ⟨6, .elseArm⟩, ⟨7, .elseArm⟩, ⟨8, .beginScope .loop []⟩]
    let b := (logging.dispatchAll .empty { handler := () } entries).builder
    (∀ p f, b.currentFunc = some p → b.module.funcs.items[p]? = some f →
        f.arena.size < Arena.capacity) ∧
      b.labels.length = 3 ∧ ∃ id b', (Build.append (.instr .nop)).run b = .ok id b' := by
  intro entries b
  have hroom : ∀ p f, b.currentFunc = some p → b.module.funcs.items[p]? = some f →
      f.arena.size < Arena.capacity := by
    intro p f hp hf
    cases hp
    cases hf
    decide
  obtain ⟨-, -, -, happend⟩ := dispatch_faultless logging () .empty entries
  exact ⟨hroom, rfl, (happend hroom (.instr .nop)).1 (List.cons_ne_nil _ _)⟩

end ErrorHandler
end WasmDecode
