import WasmDecode.Proofs.Construction

/-!
# Decoding is undone by reading back

A program is told as a stream of events, decoded, and read back along the links.

* `Builder.Holds.steps_types`, `Builder.Holds.steps_imports`, `Builder.Holds.steps_funcs`,
  `Builder.Holds.steps_bodies`: the events of a program are accepted, list by list.
* `Builder.steps_program`: the events of a program are accepted, with a frame or without one.
* `Func.forest`: the body of a function, read back along the links.
* `ErrorHandler.decode_program`: the stream is decoded, and the bodies are read back.
-/

namespace WasmDecode

namespace Program

variable {p : Program} {frame : Option Frame} {n : Nat}

/-- The same program, of which no body has been told. -/
def declared (p : Program) : Program := { p with funcs := p.funcs.map FuncPlan.declared }

theorem Valid.toNat_import (h : p.Valid frame) (hn : n < p.imports.length) :
    (UInt32.ofNat n).toNat = n :=
  UInt32.toNat_ofNat_of_lt' (Nat.lt_of_lt_of_le hn h.importIndices)

theorem Valid.toNat_func (h : p.Valid frame) (hn : n < p.funcs.length) :
    (UInt32.ofNat (p.importedCount .func + n)).toNat = p.importedCount .func + n :=
  UInt32.toNat_ofNat_of_lt' (Nat.lt_of_lt_of_le (Nat.add_lt_add_left hn _) h.funcIndices)

end Program

namespace Builder

variable {b c d : Builder} {i : UInt32} {events : List Event} {f : Frame} {frame : Option Frame}
  {p : Program} {q : Blueprint} {n : Nat}

/-! ## Types, imports and declarations -/

theorem holds_empty : ({} : Builder).Holds { version := 0 } 0 :=
  ⟨sound_empty, rfl, rfl, rfl, rfl⟩

theorem steps_beginModule (f : Frame) :
    ∃ c, ({} : Builder).Steps [.beginModule f.version] c ∧ c.Holds { toFrame := f } 0 := by
  have hs : ({} : Builder).Steps [.beginModule f.version] { module.version := f.version } :=
    .cons rfl .nil
  exact ⟨_, hs, hs.sound sound_empty, rfl, rfl, rfl, rfl⟩

namespace Holds

theorem steps_types (h : b.Holds { toFrame := f } 0) (p : Program) :
    ∃ c, b.Steps p.typeEvents c ∧ c.Holds { toFrame := f, types := p.types } 0 :=
  steps_list 0 (P := fun b told => b.Holds { toFrame := f, types := told } 0)
    (fun _ _ t _ _ hb => hb.addType rfl rfl _ t) h

theorem steps_imports (h : b.Holds { toFrame := f, types := p.types } 0) (hp : p.Valid frame) :
    ∃ c, b.Steps p.importEvents c ∧
      c.Holds { toFrame := f, types := p.types, imports := p.imports } 0 := by
  refine steps_list 0
    (P := fun b told => b.Holds { toFrame := f, types := p.types, imports := told } 0)
    (fun b told d hd hlt hb => ?_) h
  have hi : (UInt32.ofNat (0 + told.length)).toNat = told.length := by
    rw [Nat.zero_add]
    exact hp.toNat_import hlt
  exact hb.addImport _ hi (by cases d.item <;> rfl) (hp.imports d hd)

theorem steps_funcs (h : b.Holds { toFrame := f, types := p.types, imports := p.imports } 0)
    (hp : p.Valid frame) :
    ∃ c, b.Steps p.funcEvents c ∧ c.Holds { toFrame := f, toProgram := p.declared } 0 := by
  let q (told : List FuncPlan) : Blueprint :=
    { toFrame := f, toProgram := { p with funcs := told.map FuncPlan.declared } }
  refine steps_list _ (P := fun b told => b.Holds (q told) 0) (fun b told x hx _ hb => ?_) h
  dsimp only [q] at hb ⊢
  rw [List.map_append]
  exact hb.addFunc _ (hp.funcs x hx)

/-! ## Bodies -/

/-- The body of the next function. -/
theorem addBody {before after : List FuncPlan} {x : FuncPlan}
    (h : b.Holds { q with funcs := before ++ x.declared :: after } n) (hn : before.length = n)
    (hi : i.toNat = q.importedCount .func + n)
    (hl : x.localTypes.length ≤ maxFunctionLocals)
    (hc : x.body.All (Instr.Checks q.types.length)) (hs : x.body.size ≤ Arena.capacity) :
    ∃ c, b.Steps (x.bodyEvents i) c ∧
      c.Holds { q with funcs := before ++ x :: after } (n + 1) := by
  subst hn
  -- The function comes behind the imported ones and those that have a body.
  generalize hearlier : q.imports.filterMap (·.item.func? q.types) ++ before.map (·.func q.types) =
    earlier
  have hlength : i.toNat = earlier.length := by
    rw [← hearlier, List.length_append, Blueprint.length_funcs, List.length_map, hi]
  have hitems : b.module.funcs.items =
      (earlier ++ x.declared.func q.types :: after.map (·.func q.types)).toArray := by
    show b.module.unrecorded.funcs.items = _
    rw [h.module, ← hearlier]
    simp [Module.unrecorded, Blueprint.module]
  have hf : b.module.funcs.items[i.toNat]? = some (x.declared.func q.types) := by
    rw [hitems, hlength]
    simp
  have hm : b.MayBegin i := by
    refine ⟨h.labels, (Array.getElem?_eq_some_iff.mp hf).1, ?_⟩
    rw [begun, h.bodiesRead, hi]
    exact congrArg (· + _) (h.importedCount .func).symm
  obtain ⟨c, hsteps, hmodule, hlabels, hinit, hread⟩ := steps_body h.sound hm hf x
    (Nat.le_trans (Nat.le_of_eq (Nat.zero_add _)) hl) (by simpa [h.types] using hc) hs
  refine ⟨c, hsteps, hsteps.sound h.sound, ?_, hlabels, hinit.trans h.initTarget, by
    rw [hread, h.bodiesRead]⟩
  have hfill : b.module.funcs.items.modify i.toNat x.fill =
      (earlier ++ x.func q.types :: after.map (·.func q.types)).toArray := by
    rw [hitems, List.modify_toArray, hlength, modify_length, FuncPlan.fill_declared]
  rw [hmodule]
  show { b.module.unrecorded with funcs := ⟨b.module.funcs.items.modify i.toNat x.fill,
    b.module.unrecorded.funcs.imported⟩ } = _
  rw [hfill, h.module, ← hearlier]
  simp [Module.unrecorded, Blueprint.module, Program.importedCount]

/-- The bodies of functions that have been declared. -/
theorem steps_bodies (h : b.Holds { q with funcs := q.funcs.map FuncPlan.declared } 0)
    (hq : q.toProgram.Valid frame) :
    ∃ c, b.Steps q.codeEvents c ∧ c.Holds q q.funcs.length := by
  -- `n` of the functions have their bodies, and the others are as they were declared.
  let bodied (n : Nat) : Blueprint :=
    { q with funcs := q.funcs.take n ++ (q.funcs.drop n).map FuncPlan.declared }
  have hbodies : ∃ c, b.Steps q.codeEvents c ∧ c.Holds (bodied q.funcs.length) q.funcs.length := by
    refine steps_zipIdx _ (P := fun b n => b.Holds (bodied n) n) (fun b n x hx hb => ?_) h
    obtain ⟨hn, rfl⟩ := List.getElem?_eq_some_iff.mp hx
    dsimp only [bodied] at hb ⊢
    rw [List.drop_eq_getElem_cons hn, List.map_cons] at hb
    rw [← List.take_append_getElem hn, List.append_assoc]
    have hmem := List.getElem_mem hn
    exact hb.addBody (List.length_take_of_le (Nat.le_of_lt hn)) (hq.toNat_func hn)
      (hq.locals _ hmem) (hq.checks _ hmem) (hq.fits _ hmem)
  dsimp only [bodied] at hbodies
  rwa [List.take_length, List.drop_length, List.map_nil, List.append_nil] at hbodies

/-- The number of bodies is that of the functions that the module defines itself. -/
theorem handle_bodyCount (h : b.Holds q n) {count : Nat} (hq : q.funcs.length = count)
    (hc : count < UInt32.size) : b.handle (.bodyCount (.ofNat count)) = .ok () b := by
  refine Build.run_checkBodyCount.mpr ⟨?_, rfl⟩
  rw [UInt32.toNat_ofNat_of_lt' hc, ← hq]
  refine IndexSpace.definedCount_eq ((h.itemCount .func).trans ?_)
  rw [show b.module.funcs.imported = _ from h.importedCount .func]
  rfl

end Holds

/-! ## Programs -/

/-- A section around events makes no difference. -/
theorem Steps.inSection (h : b.Steps events c) (kind : SectionKind) (size : UInt32) :
    b.Steps (Event.inSection kind size events) c :=
  .cons rfl (h.append (.cons rfl .nil))

theorem Steps.tell_cons {kind : SectionKind} {rest : List (SectionKind × List Event)}
    (h : b.Steps events c) (h' : c.Steps (f.tell rest) d) :
    b.Steps (f.tell ((kind, events) :: rest)) d := by
  refine Steps.append ?_ h'
  dsimp only
  unfold Frame.sectionEvents
  split
  · exact h.inSection _ _
  · exact h

theorem handle_endModule (h : b.labels = []) : b.handle .endModule = .ok () b := by
  show Build.endModule.run b = _
  simp only [Build.endModule, EStateM.run_bind, EStateM.run_get, Build.run_require, h, if_true]

/-- **The events of a program** are accepted, and the builder holds what they tell. -/
theorem steps_program (hp : p.Valid frame) : ∃ f c, ({} : Builder).Steps (p.events frame) c ∧
    c.Holds { toFrame := f, toProgram := p } p.funcs.length := by
  cases frame with
  | none =>
    obtain ⟨b₁, s₁, h₁⟩ := holds_empty.steps_types p
    obtain ⟨b₂, s₂, h₂⟩ := h₁.steps_imports hp
    obtain ⟨b₃, s₃, h₃⟩ := h₂.steps_funcs hp
    obtain ⟨c, s₄, hc⟩ := h₃.steps_bodies (q := { version := 0, toProgram := p }) hp
    exact ⟨_, c, s₁.append (s₂.append (s₃.append s₄)), hc⟩
  | some f =>
    obtain ⟨b₀, s₀, h₀⟩ := steps_beginModule f
    obtain ⟨b₁, s₁, h₁⟩ := h₀.steps_types p
    obtain ⟨b₂, s₂, h₂⟩ := h₁.steps_imports hp
    obtain ⟨b₃, s₃, h₃⟩ := h₂.steps_funcs hp
    obtain ⟨c, s₄, hc⟩ := h₃.steps_bodies (q := { toFrame := f, toProgram := p }) hp
    have hcount := h₃.handle_bodyCount (List.length_map _) (hp.bodyCount rfl)
    have hsections : b₀.Steps (f.tell p.sections) c := s₁.tell_cons (s₂.tell_cons
      (s₃.tell_cons ((Steps.cons hcount s₄).tell_cons .nil)))
    exact ⟨f, c, s₀.append (hsections.append (.cons (handle_endModule hc.labels) .nil)), hc⟩

end Builder

/-! ## Reading back -/

/-- The body of a function, read back along the links. -/
def Func.forest (f : Func) : Forest := f.arena.forest f.arena.size f.first

/-- The body of a function that has been built is read back as it was told. -/
theorem FuncPlan.forest_func (x : FuncPlan) (types : List FuncType) :
    (x.func types).forest = x.body.dropEmptyElse := by
  have hspells : (x.func types).code.Spells (.body x.body) := ⟨rfl, rfl⟩
  have hforest : (x.func types).forest = (OpenBody.close .nil (.body x.body)).dropEmptyElse :=
    hspells.forest_eq (Nat.le_refl _)
  rw [hforest]
  simp [OpenBody.close]

/-- The functions that a module defines itself come behind the imported ones. -/
theorem Blueprint.defined_funcs (q : Blueprint) :
    q.module.funcs.defined = .ok (q.funcs.map (·.func q.types)).toArray := by
  have hlength := q.length_funcs
  rw [IndexSpace.defined, if_pos]
  · have htake : (q.funcs.map (·.func q.types)).take q.funcs.length =
        q.funcs.map (·.func q.types) := List.take_of_length_le (Nat.le_of_eq (List.length_map _))
    refine congrArg Except.ok (Array.ext' ?_)
    simp [module, ← hlength, htake]
  · simp [IndexSpace.size, module, ← hlength]

/-- **Decoding is undone by reading back.** A stream that tells of a program, with asides anywhere,
is decoded, and the bodies of the functions that the module defines are read back as they were,
apart from empty `else`s. -/
theorem ErrorHandler.decode_program {η : Type} (h : ErrorHandler η) (options : ReadOptions)
    (data : ByteArray) (stream : Stream) (s : η) (p : Program) (frame : Option Frame)
    (hp : p.Valid frame)
    (hstream : ((stream.told options.debugNames).map Entry.event).filter (fun e => !e.isAside) =
      (p.events frame).filter fun e => !e.isAside) :
    ∃ m funcs, (h.decode options data stream s).outcome = .ok m ∧ m.funcs.defined = .ok funcs ∧
      funcs.toList.map Func.forest = p.funcs.map fun f => f.body.dropEmptyElse := by
  obtain ⟨f, b, hsteps, hholds⟩ := Builder.steps_program hp
  have hleads : LeadsTo b ({ handler := s } : Decoder η)
      ((stream.told options.debugNames).map Entry.event) :=
    .of_filter hsteps (p.malformed_not_mem_events frame) hstream
  have hnests : Event.nests 0 ((stream.told options.debugNames).map Entry.event) = true :=
    (Event.nests_congr hstream).trans (p.nests_events frame)
  refine ⟨b.module, _, decode_ok hleads (fun _ => hnests) hholds.labels,
    hholds.funcs ▸ Blueprint.defined_funcs _, ?_⟩
  rw [List.map_map]
  exact List.map_congr_left fun x _ => x.forest_func _

/-- Two bodies behind an imported function, told with sections and opcodes under a trace. -/
theorem ErrorHandler.decode_program_traced :
    let p : Program :=
      { types := [⟨[], []⟩]
        imports := [⟨"env", "f", .func 0⟩]
        funcs := [⟨0, [], .ifElse [] (.plain .nop .nil) .nil (.plain .drop .nil)⟩,
          ⟨0, [], .scope .loop [] (.plain (.callIndirect 0) .nil) .nil⟩] }
    let frame : Frame := ⟨1, fun _ => some 9⟩
    let stream := Stream.ofList [.beginModule 1, .beginSection .types 9, .itemCount .types 1,
      .funcType 0 [] [], .endSection .types, .beginSection .imports 9, .importEntry 0 "env" "f",
      .importItem 0 "env" "f" 0 (.func 0), .endSection .imports, .beginSection .functions 9,
      .define 1 (.func 0), .define 2 (.func 0), .endSection .functions, .sectionHeader .code 9,
      .beginSection .code 9, .bodyCount 2, .beginBody 1, .localDeclCount 0,
      .beginScope .ifThen [], .instr .nop, .elseArm, .endScope, .opcode .drop, .instr .drop,
      .endFunc, .endBody 1, .beginBody 2, .beginScope .loop [], .immediates (.u32u32 0 0),
      .instr (.callIndirect 0), .endScope, .endBody 2, .endSection .code, .endModule]
    p.Valid frame ∧
      ((stream.told false).map Entry.event).filter (fun e => !e.isAside) =
        (p.events frame).filter (fun e => !e.isAside) ∧
      ∃ m funcs, (logging.decode { traced := true } .empty stream ()).outcome = .ok m ∧
        m.funcs.defined = .ok funcs ∧
        funcs.toList.map Func.forest =
          [.scope .ifThen [] (.plain .nop .nil) (.plain .drop .nil),
            .scope .loop [] (.plain (.callIndirect 0) .nil) .nil] := by
  intro p frame stream
  have hp : p.Valid frame := by
    refine ⟨⟨?_, by decide, by decide, ?_, by decide⟩, by decide, by decide, fun _ => by decide⟩
    · simp [p]
    · simp [p, Forest.All, Instr.Checks]
  exact ⟨hp, rfl, decode_program logging { traced := true } .empty stream () p frame hp rfl⟩

end WasmDecode
