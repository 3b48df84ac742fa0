import WasmDecode.Proofs.Faultless
import WasmDecode.Proofs.Isolation
import WasmDecode.Proofs.Replay

/-!
# The bodies of a decoded module

How many bodies follow is announced, and compared with the functions that have been defined. Whether
they do follow is not: a module is decoded whose last functions have no body.

* `Event.OneBody`: a body begins once, and ends once after that.
* `Builder.Steps.oneBody`, `Builder.Steps.begun_of_ended`: bodies in a run that leaves none open.
* `Builder.Steps.bodyCount_eq`: the announced number.
* `ErrorHandler.decode_bodies`: the bodies of a stream that is decoded.
-/

namespace WasmDecode

namespace Event

variable {i : UInt32} {p : Nat} {log : List Event}

/-- The body of the function at an index begins exactly once, and later ends exactly once. -/
def OneBody (i : UInt32) (log : List Event) : Prop :=
  log.filter (fun e => e.body? = some i) = [.beginBody i, .endBody i]

instance : Decidable (OneBody i log) := inferInstanceAs (Decidable (_ = _))

/-- What else is told makes no difference. -/
example : OneBody 1 [.beginBody 0, .endBody 0, .beginBody 1, .instr .nop, .endBody 1] := by decide

theorem OneBody.begun (h : OneBody i log) : .beginBody i ∈ log :=
  (List.mem_filter.mp (h ▸ List.mem_cons_self)).1

theorem mem_begun : p ∈ log.filterMap begun? ↔ ∃ i : UInt32, i.toNat = p ∧ .beginBody i ∈ log := by
  rw [List.mem_filterMap]
  constructor
  · rintro ⟨e, he, hep⟩
    obtain ⟨i, rfl, hi⟩ := begun?_eq_some.mp hep
    exact ⟨i, hi, he⟩
  · rintro ⟨i, hi, he⟩
    exact ⟨_, he, begun?_eq_some.mpr ⟨i, rfl, hi⟩⟩

/-! ## Events of the names section -/

/-- Nothing that is read off other events is lost with the names section. -/
theorem filterMap_told {α : Type} {f : Event → Option α}
    (hf : ∀ e, e.isDebugName = true → f e = none) (debugNames : Bool) (log : List Event) :
    (log.filter fun e => debugNames || !e.isDebugName).filterMap f = log.filterMap f := by
  rw [List.filterMap_filter]
  refine congrArg (List.filterMap · log) (funext fun e => ?_)
  split
  · rfl
  · next hplain => exact (hf e (by simp_all)).symm

theorem begun?_of_isDebugName {e : Event} (he : e.isDebugName = true) : e.begun? = none := by
  cases e <;> first | rfl | cases he

theorem body?_of_isDebugName {e : Event} (he : e.isDebugName = true) : e.body? = none := by
  cases e <;> first | rfl | cases he

theorem definition?_of_isDebugName {e : Event} (he : e.isDebugName = true) :
    e.definition? = none := by
  cases e <;> first | rfl | cases he

theorem filter_body_told (i : UInt32) (debugNames : Bool) (log : List Event) :
    (log.filter fun e => debugNames || !e.isDebugName).filter (fun e => e.body? = some i) =
      log.filter fun e => e.body? = some i := by
  rw [List.filter_filter]
  refine List.filter_congr fun e _ => ?_
  cases he : e.isDebugName with
  | true => simp [body?_of_isDebugName he]
  | false => simp

end Event

namespace Builder

variable {b c : Builder} {i : UInt32} {log before after : List Event}

/-- A body that begins ends, unless it is open in the end. -/
theorem Steps.ended_of_begun (h : b.Steps (.beginBody i :: after) c) (hb : b.Sound)
    (hc : c.currentFunc = none) : .endBody i ∈ after := by
  obtain _ | ⟨he, hafter⟩ := h
  obtain ⟨hm, rfl⟩ := (hb.accepts he).of_beginBody
  refine Decidable.byContradiction fun hend => ?_
  obtain ⟨-, o, hr, -⟩ := hafter.of_reading (hb.of_openBody hm) (hm.reading hb) fun j hj => by
    rwa [UInt32.toNat_inj.mp hj]
  cases hc.symm.trans hr.current

/-- **A body that begins** does so once, and it ends once if it is not open in the end. -/
theorem Steps.oneBody (h : ({} : Builder).Steps log c) (hc : c.currentFunc = none)
    (hi : .beginBody i ∈ log) : c.Settled i.toNat ∧ Event.OneBody i log := by
  obtain ⟨before, rest, rfl, -⟩ := List.eq_append_cons_of_mem hi
  obtain ⟨b, hbefore, hrest⟩ := h.exists_of_append
  have hb := hbefore.sound sound_empty
  obtain ⟨inside, after, rfl, hinside⟩ :=
    List.eq_append_cons_of_mem (hrest.ended_of_begun hb hc)
  obtain ⟨hsettled, hne, -⟩ := hrest.body hb hinside
  have hnone {events : List Event} (h : ∀ e ∈ events, e.body? ≠ some i) :
      events.filter (fun e => e.body? = some i) = [] :=
    List.filter_eq_nil_iff.mpr fun e he => by simpa using h e he
  -- What has begun before is not the next one to begin.
  have hbefore' : ∀ e ∈ before, e.body? ≠ some i := by
    intro e he hei
    have hlt := (hbefore.begun_le sound_empty).2 e he i hei
    obtain _ | ⟨hbegin, -⟩ := hrest
    rw [(hb.accepts hbegin).of_beginBody.1.eq_begun] at hlt
    exact Nat.lt_irrefl _ hlt
  obtain ⟨hinside', hafter'⟩ := List.forall_mem_append.mp hne
  refine ⟨hsettled, ?_⟩
  rw [Event.OneBody, List.filter_append, hnone hbefore', List.nil_append,
    List.filter_cons_of_pos (by simp [Event.body?]), List.filter_append, hnone hinside',
    List.nil_append, List.filter_cons_of_pos (by simp [Event.body?]), hnone hafter']

/-- A body that ends has begun. -/
theorem Steps.begun_of_ended (h : ({} : Builder).Steps log c) (hi : .endBody i ∈ log) :
    .beginBody i ∈ log := by
  obtain ⟨before, rest, rfl, -⟩ := List.eq_append_cons_of_mem hi
  obtain ⟨b, hbefore, hrest⟩ := h.exists_of_append
  have hcurrent := (hrest.of_endBody (hbefore.sound sound_empty)).1
  rcases hbefore.exists_beginBody sound_empty hcurrent with ⟨h, -⟩ | ⟨first, j, inside, rfl, hj, -⟩
  · cases h
  · rw [UInt32.toNat_inj.mp hj]
    simp

/-- **The bodies of a run** are those of the first functions that are defined, in order. -/
theorem Steps.bodies (h : ({} : Builder).Steps log c) (hc : c.currentFunc = none) :
    ∃ n, log.filterMap Event.begun? = List.range' c.module.funcs.imported n ∧
      c.module.funcs.imported + n ≤ c.module.funcs.size := by
  obtain ⟨n, -, hlog⟩ := h.filterMap_begun sound_empty
  refine ⟨n, hlog, ?_⟩
  cases n with
  | zero => exact h.imported_le .func
  | succ n =>
    have hlast : c.module.funcs.imported + n ∈ log.filterMap Event.begun? := by
      rw [hlog]
      exact List.mem_range'_1.mpr ⟨Nat.le_add_right _ _, Nat.lt_succ_self _⟩
    obtain ⟨i, hi, hbegun⟩ := Event.mem_begun.mp hlast
    have hlt := (h.oneBody hc hbegun).1.lt_size
    omega

/-- **The announced number of bodies** is that of the functions that have been defined so far. -/
theorem Steps.bodyCount_eq {count : UInt32}
    (h : ({} : Builder).Steps (before ++ .bodyCount count :: after) c) : count.toNat =
      (Definition.ofKind (.item .func) (before.filterMap Event.definition?)).length := by
  obtain ⟨b, hbefore, hrest⟩ := h.exists_of_append
  obtain _ | ⟨he, -⟩ := hrest
  have hcount : b.module.funcs.definedCount = .ok count.toNat := (Build.run_checkBodyCount.mp he).1
  have hsize : b.module.funcs.size = b.module.funcs.imported +
      (Definition.ofKind (.item .func) (before.filterMap Event.definition?)).length :=
    hbefore.itemCount_eq .func
  have hdefined : b.module.funcs.size - b.module.funcs.imported = count.toNat :=
    Except.ok.inj ((if_pos (hbefore.imported_le .func)).symm.trans hcount)
  omega

end Builder

namespace ErrorHandler

variable {η : Type}

/-- **The bodies of a decoded module.** A number of bodies that is announced is that of the
functions defined so far. The bodies that begin are those of the first functions that the module
defines, each of them once, and each ends once; no other body begins or ends. So each defined
function has its body if and only if there are as many bodies as defined functions. -/
theorem decode_bodies (h : ErrorHandler η) (options : ReadOptions) (data : ByteArray)
    (stream : Stream) (s : η) {m : Module}
    (hm : (h.decode options data stream s).outcome = .ok m) :
    let events := stream.entries.toList.map Entry.event
    let bodies := events.filterMap Event.begun?
    (∀ before count after, events = before ++ .bodyCount count :: after → count.toNat =
      (Definition.ofKind (.item .func) (before.filterMap Event.definition?)).length) ∧
    bodies = List.range' m.funcs.imported bodies.length ∧
    m.funcs.imported + bodies.length ≤ m.funcs.size ∧
    (∀ i : UInt32, if i.toNat ∈ bodies then Event.OneBody i events
      else ∀ e ∈ events, e.body? ≠ some i) ∧
    ((∀ p, m.funcs.imported ≤ p → p < m.funcs.size →
        ∃ i : UInt32, i.toNat = p ∧ Event.OneBody i events) ↔
      m.funcs.imported + bodies.length = m.funcs.size) := by
  intro events bodies
  obtain ⟨b, hsteps, hlabels, rfl⟩ := decode_steps hm
  have hclosed := (hsteps.sound Builder.sound_empty).currentFunc_eq_none hlabels
  rw [Stream.map_told] at hsteps
  -- The events of the names section, of which the builder may not be told, play no part.
  have hone {i : UInt32} (hi : .beginBody i ∈ events) : Event.OneBody i events := by
    have htold := (hsteps.oneBody hclosed (List.mem_filter.mpr ⟨hi, Bool.or_true _⟩)).2
    rwa [Event.OneBody, Event.filter_body_told] at htold
  obtain ⟨n, hbodies, hle⟩ := hsteps.bodies hclosed
  rw [Event.filterMap_told fun _ => Event.begun?_of_isDebugName] at hbodies
  have hlength : bodies.length = n := by
    show (List.filterMap _ _).length = n
    rw [hbodies, List.length_range']
  have hmem (p : Nat) : p ∈ bodies ↔ b.module.funcs.imported ≤ p ∧
      p < b.module.funcs.imported + n := by
    show p ∈ List.filterMap _ _ ↔ _
    rw [hbodies, List.mem_range'_1]
  rw [hlength]
  refine ⟨fun before count after hevents => ?_, hbodies, hle, fun i => ?_, fun hall => ?_,
    fun heq p hp hlt => ?_⟩
  · have hkept : (options.debugNames || !(Event.bodyCount count).isDebugName) = true :=
      Bool.or_true _
    rw [show stream.entries.toList.map Entry.event = _ from hevents, List.filter_append,
      List.filter_cons, if_pos hkept] at hsteps
    rw [hsteps.bodyCount_eq, Event.filterMap_told fun _ => Event.definition?_of_isDebugName]
  · split
    · next hi =>
      obtain ⟨j, hj, hbegun⟩ := Event.mem_begun.mp hi
      obtain rfl := UInt32.toNat_inj.mp hj
      exact hone hbegun
    · next hi =>
      intro e he hei
      refine hi (Event.mem_begun.mpr ⟨i, rfl, ?_⟩)
      rcases Event.body?_eq_some.mp hei with rfl | rfl
      · exact he
      · have htold := hsteps.begun_of_ended (List.mem_filter.mpr ⟨he, Bool.or_true _⟩)
        exact (List.mem_filter.mp htold).1
  · -- Otherwise the body of the next function would have begun.
    refine Nat.le_antisymm hle (Nat.le_of_not_lt fun hlt => ?_)
    obtain ⟨i, hi, hone⟩ := hall _ (Nat.le_add_right _ _) hlt
    have hnext := (hmem _).mp (Event.mem_begun.mpr ⟨i, hi, hone.begun⟩)
    exact Nat.lt_irrefl _ hnext.2
  · obtain ⟨i, hi, hbegun⟩ := Event.mem_begun.mp ((hmem p).mpr ⟨hp, heq ▸ hlt⟩)
    exact ⟨i, hi, hone hbegun⟩

/-- One function is imported and two are defined, and only the first of these two has a body. -/
theorem decode_bodies_missing_last :
    let events : List Event := [.funcType 0 [] [], .importEntry 0 "env" "f",
      .importItem 0 "env" "f" 0 (.func 0), .define 1 (.func 0), .define 2 (.func 0), .bodyCount 2,
      .beginBody 1, .instr .nop, .endBody 1, .endModule]
    ∃ m, (logging.decode {} .empty (.ofList events) ()).outcome = .ok m ∧
      m.funcs.imported = 1 ∧ m.funcs.size = 3 ∧ Event.OneBody 1 events ∧
      (∀ e ∈ events, e.body? ≠ some 2) ∧
      ¬ ∀ p, 1 ≤ p → p < 3 → ∃ i : UInt32, i.toNat = p ∧ Event.OneBody i events := by
  intro events
  obtain ⟨m, hm, himported, hsize⟩ : ∃ m,
      (logging.decode {} .empty (.ofList events) ()).outcome = .ok m ∧
        m.funcs.imported = 1 ∧ m.funcs.size = 3 := ⟨_, rfl, rfl, rfl⟩
  obtain ⟨-, -, -, hbody, hall⟩ := decode_bodies logging {} .empty (.ofList events) () hm
  rw [himported, hsize] at hall
  have hfirst := hbody 1
  have hlast := hbody 2
  rw [if_pos (by decide)] at hfirst
  rw [if_neg (by decide)] at hlast
  exact ⟨m, hm, himported, hsize, hfirst, hlast, mt hall.mp (by decide)⟩

/-- Not every function of a decoded module has a body, although the number of bodies has been
announced: one function is defined, one body is announced, and there the stream ends. -/
theorem exists_decoded_without_body : ¬ ∀ (η : Type) (h : ErrorHandler η) (options : ReadOptions)
    (data : ByteArray) (stream : Stream) (s : η) (m : Module),
    (∃ count, .bodyCount count ∈ stream.entries.toList.map Entry.event) →
    (h.decode options data stream s).outcome = .ok m →
    ∀ p, m.funcs.imported ≤ p → p < m.funcs.size →
      ∃ i : UInt32, i.toNat = p ∧ Event.OneBody i (stream.entries.toList.map Entry.event) := by
  intro hall
  let events : List Event := [.funcType 0 [] [], .define 0 (.func 0), .bodyCount 1, .endModule]
  obtain ⟨i, -, hone⟩ := hall Unit logging {} .empty (.ofList events) () _ ⟨1, by decide⟩ rfl 0
    (Nat.le_refl _) (by decide)
  have hbegun : .beginBody i ∈ events := hone.begun
  simp [events] at hbegun

end ErrorHandler
end WasmDecode
