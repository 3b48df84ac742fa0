import WasmDecode.Proofs.RoundTrip

/-!
# Whole modules

The events of a whole module are accepted one section after another, and lead to the module of its
blueprint.

* `Builder.steps_blueprint`: the events of a module are accepted.
* `ErrorHandler.decode_blueprint`: the stream of a module is decoded, and nobody hears of an error.
-/

namespace WasmDecode

theorem Module.eq_of_unrecorded {m m' : Module} (h : m.unrecorded = m'.unrecorded)
    (hf : m.fields = m'.fields) : m = m' := by
  cases m
  cases m'
  simp only [unrecorded, Module.mk.injEq] at h hf ⊢
  simp [h, hf]

namespace Builder

variable {b c : Builder} {events : List Event}

/-- A list behind its length. -/
theorem Steps.counted {q : Blueprint} (h : b.Steps events c) (kind : CountedKind)
    (hk : q.count kind < reserveLimit) : b.Steps (q.counted kind events) c :=
  .cons (handle_aside b (decide_eq_true (toNat_ofNat_lt hk))) h

end Builder

namespace Blueprint

variable {q : Blueprint}

/-- There is an index for every import and for every item. -/
theorem Valid.toNat_ofNat (h : q.Valid) (kind : CountedKind) {n : Nat}
    (hn : n < q.imports.length + q.count kind) : (UInt32.ofNat n).toNat = n := by
  have himports : q.imports.length < reserveLimit := h.counted .imports
  have hkind := h.counted kind
  exact UInt32.toNat_ofNat_of_lt' (Nat.lt_trans (m := 2 * reserveLimit) (by omega) (by decide))

/-- The program of a module can be told within its frame. -/
theorem Valid.program (h : q.Valid) : q.toProgram.Valid (some q.toFrame) := by
  have himports : q.imports.length < reserveLimit := h.counted .imports
  have hfuncs : q.funcs.length < reserveLimit := h.counted .functions
  have hle : q.importedCount .func ≤ q.imports.length := List.countP_le_length
  have hroom : 2 * reserveLimit < UInt32.size := by decide
  exact { h.toAdmissible with
    importIndices := by omega, funcIndices := by omega, bodyCount := fun _ => by omega }

/-- What is left of a module after its definitions: no body has been told, and no use of an item. -/
def definedPart (q : Blueprint) : Blueprint :=
  { q with
    toProgram := q.toProgram.declared, exports := [], start := none, elemSegments := []
    dataSegments := [] }

theorem itemCount_definedPart (kind : ExternalKind) :
    q.definedPart.itemCount kind = q.itemCount kind := by
  cases kind <;>
    simp [itemCount, definedCount, definedPart, Program.declared, Program.importedCount]

end Blueprint

namespace Builder

variable {b : Builder} {q : Blueprint}

/-- The sections up to the one of the globals. -/
theorem steps_definitions (hq : q.Valid) : ∃ c, ({} : Builder).Steps
    (.beginModule q.version :: q.tell (q.sections.take 6)) c ∧ c.Holds q.definedPart 0 := by
  obtain ⟨b₀, s₀, h₀⟩ := steps_beginModule q.toFrame
  obtain ⟨b₁, s₁, h₁⟩ := h₀.steps_types q.toProgram
  obtain ⟨b₂, s₂, h₂⟩ := h₁.steps_imports hq.program
  obtain ⟨b₃, s₃, h₃⟩ := h₂.steps_funcs hq.program
  let q₃ : Blueprint := { toFrame := q.toFrame, toProgram := q.toProgram.declared }
  let q₄ : Blueprint := { q₃ with tables := q.tables }
  obtain ⟨b₄, s₄, h₄⟩ : ∃ c, b₃.Steps q.tableEvents c ∧ c.Holds q₄ 0 :=
    steps_list _ (P := fun b told => b.Holds { q₃ with tables := told } 0)
      (fun _ _ t _ _ hb => hb.addTable _ t) h₃
  let q₅ : Blueprint := { q₄ with memories := q.memories }
  obtain ⟨b₅, s₅, h₅⟩ : ∃ c, b₄.Steps q.memoryEvents c ∧ c.Holds q₅ 0 :=
    steps_list _ (P := fun b told => b.Holds { q₄ with memories := told } 0)
      (fun _ _ m _ _ hb => hb.addMemory _ m) h₄
  obtain ⟨c, s₆, hc⟩ : ∃ c, b₅.Steps q.globalEvents c ∧ c.Holds q.definedPart 0 := by
    refine steps_list _ (P := fun b told => b.Holds { q₅ with globals := told } 0)
      (fun b told g _ hlt hb => hb.addGlobal ?_ g) h₅
    exact hq.toNat_ofNat .globals (Nat.add_lt_add_of_le_of_lt List.countP_le_length hlt)
  exact ⟨c, s₀.append ((s₁.counted _ (hq.counted _)).tell_cons
    ((s₂.counted _ (hq.counted _)).tell_cons ((s₃.counted _ (hq.counted _)).tell_cons
      ((s₄.counted _ (hq.counted _)).tell_cons ((s₅.counted _ (hq.counted _)).tell_cons
        ((s₆.counted _ (hq.counted _)).tell_cons .nil)))))), hc⟩

/-- The sections of the uses of items. -/
theorem steps_uses (hq : q.Valid) (h : b.Holds q.definedPart 0) :
    ∃ c, b.Steps (q.tell ((q.sections.drop 6).take 3)) c ∧ c.Holds { q.definedPart with
      exports := q.exports, start := q.start, elemSegments := q.elemSegments } 0 := by
  let q₁ : Blueprint := { q.definedPart with exports := q.exports }
  obtain ⟨b₁, s₁, h₁⟩ : ∃ c, b.Steps q.exportEvents c ∧ c.Holds q₁ 0 := by
    refine steps_list _ (P := fun b told => b.Holds { q.definedPart with exports := told } 0)
      (fun b told e he _ hb => hb.addExport _ ?_) h
    show e.itemIndex.toNat < q.definedPart.itemCount e.kind
    rw [Blueprint.itemCount_definedPart]
    exact hq.exports e he
  let q₂ : Blueprint := { q₁ with start := q.start }
  obtain ⟨b₂, s₂, h₂⟩ : ∃ c, b₁.Steps (q.start.toList.map .startFunction) c ∧ c.Holds q₂ 0 := by
    show ∃ c : Builder, _ ∧ c.Holds { q₁ with start := q.start } 0
    cases hstart : q.start with
    | none => exact ⟨b₁, .nil, h₁⟩
    | some i =>
      refine h₁.setStart ?_
      show i.toNat < q.definedPart.itemCount .func
      rw [Blueprint.itemCount_definedPart]
      exact hq.start i hstart
  obtain ⟨c, s₃, hc⟩ : ∃ c, b₂.Steps q.elemEvents c ∧
      c.Holds { q₂ with elemSegments := q.elemSegments } 0 := by
    refine steps_list _ (P := fun b told => b.Holds { q₂ with elemSegments := told } 0)
      (fun b told s hs hlt hb => hb.addElem ?_ (hq.elems s hs)) h₂
    rw [Nat.zero_add]
    exact hq.toNat_ofNat .elemSegments (Nat.lt_add_left _ hlt)
  exact ⟨c, (s₁.counted _ (hq.counted _)).tell_cons (s₂.tell_cons
    ((s₃.counted _ (hq.counted _)).tell_cons .nil)), hc⟩

/-- The sections of the function bodies and of the data. -/
theorem steps_contents (hq : q.Valid) (h : b.Holds { q.definedPart with
      exports := q.exports, start := q.start, elemSegments := q.elemSegments } 0) :
    ∃ c, b.Steps (q.tell (q.sections.drop 9)) c ∧ c.Holds q q.funcs.length := by
  let q₁ : Blueprint := { q with dataSegments := [] }
  have hcount := h.handle_bodyCount (List.length_map _) (hq.program.bodyCount rfl)
  obtain ⟨b₁, s₁, h₁⟩ : ∃ c, b.Steps q.codeEvents c ∧ c.Holds q₁ q.funcs.length :=
    Holds.steps_bodies (q := q₁) h hq.program
  obtain ⟨c, s₂, hc⟩ : ∃ c, b₁.Steps q.dataEvents c ∧ c.Holds q q.funcs.length := by
    refine steps_list _ (P := fun b told => b.Holds { q₁ with dataSegments := told } q.funcs.length)
      (fun b told s _ hlt hb => hb.addData ?_ s) h₁
    rw [Nat.zero_add]
    exact hq.toNat_ofNat .dataSegments (Nat.lt_add_left _ hlt)
  exact ⟨c, (Steps.cons hcount s₁).tell_cons ((s₂.counted _ (hq.counted _)).tell_cons .nil), hc⟩

/-- **The events of a module** are accepted, one section after another. -/
theorem steps_blueprint (hq : q.Valid) :
    ∃ c, ({} : Builder).Steps q.events c ∧ c.Holds q q.funcs.length := by
  obtain ⟨b₁, s₁, h₁⟩ := steps_definitions hq
  obtain ⟨b₂, s₂, h₂⟩ := steps_uses hq h₁
  obtain ⟨c, s₃, hc⟩ := steps_contents hq h₂
  have hsections : q.tell q.sections = q.tell (q.sections.take 6) ++
      (q.tell ((q.sections.drop 6).take 3) ++ q.tell (q.sections.drop 9)) := by
    simp only [Frame.tell, ← List.flatMap_append]
    rfl
  refine ⟨c, ?_, hc⟩
  rw [Blueprint.events, Frame.events, hsections, List.append_assoc, List.append_assoc]
  exact s₁.append (s₂.append (s₃.append (.cons (handle_endModule hc.labels) .nil)))

theorem Holds.module_eq {n : Nat} (h : b.Holds q n) (hs : ({} : Builder).Steps q.events b) :
    b.module = q.module := by
  have hfields := hs.records.fields
  have himported : b.module.importedCount = q.importedCount := funext h.importedCount
  rw [q.filterMap_definition?] at hfields
  change b.module.fields.toList = Definition.fields b.module.importedCount q.definitions at hfields
  refine Module.eq_of_unrecorded h.module (Array.ext' ?_)
  rw [hfields, himported]
  rfl

end Builder

/-! ## Decoding -/

/-- **Decoding a module.** A stream that tells a module, with asides anywhere, is decoded to exactly
this module, and the error handler is as it was. -/
theorem ErrorHandler.decode_blueprint {η : Type} (h : ErrorHandler η) (options : ReadOptions)
    (data : ByteArray) (stream : Stream) (s : η) (q : Blueprint) (hq : q.Valid)
    (hstream : ((stream.told options.debugNames).map Entry.event).filter (fun e => !e.isAside) =
      q.events.filter fun e => !e.isAside) :
    (h.decode options data stream s).outcome = .ok q.module ∧
      (h.decode options data stream s).state.handler = s := by
  obtain ⟨b, hsteps, hholds⟩ := Builder.steps_blueprint hq
  have hmodule := hholds.module_eq hsteps
  have hleads : LeadsTo b ({ handler := s } : Decoder η)
      ((stream.told options.debugNames).map Entry.event) :=
    .of_filter hsteps (q.toFrame.malformed_not_mem_events Blueprint.inner_sections) hstream
  have hnests : Event.nests 0 ((stream.told options.debugNames).map Entry.event) = true :=
    (Event.nests_congr hstream).trans (q.toFrame.nests_events Blueprint.inner_sections)
  rw [← hmodule]
  exact decode_quiet hleads (fun _ => hnests) hholds.labels

/-- Imports of all kinds, with a memory between two functions; a function with locals and a body,
one without; globals and segments with and without a value; and opcodes in between. -/
theorem ErrorHandler.decode_blueprint_collecting :
    let q : Blueprint :=
      { version := 1
        sectionSize := fun kind => if kind = .types ∨ kind = .code then some 9 else none
        types := [⟨[.i32], []⟩, ⟨[], []⟩]
        imports := [⟨"env", "f", .func 1⟩, ⟨"env", "m", .memory ⟨1, none⟩⟩, ⟨"env", "g", .func 0⟩,
          ⟨"env", "b", .global .i32 false⟩, ⟨"env", "t", .table .anyfunc ⟨4, none⟩⟩]
        funcs := [⟨0, [(2, .i64), (1, .f32)], .ifElse [] (.plain .nop .nil) .nil .nil⟩,
          ⟨1, [], .nil⟩]
        tables := [⟨.anyfunc, ⟨2, some 8⟩⟩]
        globals := [⟨.i32, true, some (some (.getGlobal 0))⟩, ⟨.i64, true, some none⟩,
          ⟨.f32, false, none⟩]
        exports := [⟨"run", .func, 3⟩, ⟨"mem", .memory, 0⟩]
        start := some 3
        elemSegments := [⟨1, some (some (.const (.i32 0))), [2, 3, 9]⟩]
        dataSegments := [⟨0, some (some (.getGlobal 0)), "hi".toUTF8⟩, ⟨0, none, .empty⟩] }
    let stream := Stream.ofList [.beginModule 1, .beginSection .types 9, .itemCount .types 2,
      .funcType 0 [.i32] [], .funcType 1 [] [], .endSection .types, .itemCount .imports 5,
      .importEntry 0 "env" "f", .importItem 0 "env" "f" 0 (.func 1), .importEntry 1 "env" "m",
      .importItem 1 "env" "m" 0 (.memory ⟨1, none⟩), .importEntry 2 "env" "g",
      .importItem 2 "env" "g" 1 (.func 0), .importEntry 3 "env" "b",
      .importItem 3 "env" "b" 0 (.global .i32 false), .importEntry 4 "env" "t",
      .importItem 4 "env" "t" 0 (.table .anyfunc ⟨4, none⟩), .define 2 (.func 0),
      .define 3 (.func 1), .define 1 (.table .anyfunc ⟨2, some 8⟩), .itemCount .globals 3,
      .define 1 (.global .i32 true), .beginInit .global 1, .opcode .getGlobal,
      .initValue 1 (.getGlobal 0), .endInit .global 1, .endGlobal 1,
      .define 2 (.global .i64 true), .beginInit .global 2, .endInit .global 2, .endGlobal 2,
      .define 3 (.global .f32 false), .endGlobal 3, .exportEntry 0 .func 3 "run",
      .exportEntry 1 .memory 0 "mem", .startFunction 3, .beginElemSegment 0 1,
      .beginInit .elemSegment 0, .initValue 0 (.const (.i32 0)), .endInit .elemSegment 0,
      .elemCount 0 3, .elem 0 2, .elem 0 3, .elem 0 9, .endElemSegment 0, .sectionHeader .code 9,
      .beginSection .code 9, .bodyCount 2, .beginBody 2, .localDeclCount 2, .localDecl 0 2 .i64,
      .localDecl 1 1 .f32, .beginScope .ifThen [], .opcode .nop, .instr .nop, .elseArm, .endScope,
      .endFunc, .endBody 2, .beginBody 3, .endBody 3, .endSection .code, .beginDataSegment 0 0,
      .beginInit .dataSegment 0, .initValue 0 (.getGlobal 0), .endInit .dataSegment 0,
      .segmentData 0 "hi".toUTF8, .endDataSegment 0, .beginDataSegment 1 0, .segmentData 1 .empty,
      .endModule]
    q.Valid ∧
      ((stream.told false).map Entry.event).filter (fun e => !e.isAside) =
        (q.events.filter fun e => !e.isAside) ∧
      ((collecting true).decode { traced := true } .empty stream []).outcome = .ok q.module ∧
      ((collecting true).decode { traced := true } .empty stream []).state.handler = [] := by
  intro q stream
  have hq : q.Valid := by
    refine ⟨⟨?_, by decide, by decide, ?_, by decide⟩, by decide, ?_, ?_, by decide⟩
    · simp [q]
    · simp [q, Forest.All, Instr.Checks]
    · rintro i hi
      cases hi
      decide
    · intro kind
      cases kind <;> decide
  have hstream : ((stream.told false).map Entry.event).filter (fun e => !e.isAside) =
      q.events.filter fun e => !e.isAside := rfl
  exact ⟨hq, hstream, decode_blueprint _ { traced := true } .empty stream [] q hq hstream⟩

end WasmDecode
