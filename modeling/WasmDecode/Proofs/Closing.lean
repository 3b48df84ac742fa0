import WasmDecode.Proofs.InitScope
import WasmDecode.Proofs.Replay

/-!
# What a decoded module leaves open

A module is only decoded if no body and no instruction is open at the end. That no init expression
is open is not checked: all of them have been ended, apart from the last one.

* `Event.Bracketed.next_scope`: what follows the begin of an init expression is its end.
* `Event.Bracketed.openInit_eq_none`: none is open if each that has been begun has been ended.
* `ErrorHandler.decode_scopes`: what a stream that is decoded leaves open.
-/

namespace WasmDecode

namespace Event.Bracketed

variable {site : InitSite} {i : UInt32} {log before after : List Event}

/-- The next event that begins or ends an init expression ends the one that has been begun, if there
is such an event. -/
theorem next_scope (h : Bracketed (before ++ .beginInit site i :: after)) :
    after.find? isInitScope = some (.endInit site i) ∨
      openInit (before ++ .beginInit site i :: after) = some ⟨site, i.toNat⟩ ∧
        after.find? isInitScope = none := by
  cases hnext : after.find? isInitScope with
  | none =>
    have hnone : ∀ e ∈ after, e.isInitScope = false := by simpa using hnext
    exact .inr ⟨openInit_eq_some.mpr ⟨before, i, after, rfl, rfl, hnone⟩, rfl⟩
  | some e =>
    obtain ⟨he, inside, rest, rfl, hinside⟩ := List.find?_eq_some_iff_append.mp hnext
    have hopen : openInit (before ++ .beginInit site i :: inside) = some ⟨site, i.toNat⟩ :=
      openInit_eq_some.mpr ⟨before, i, inside, rfl, rfl, by simpa using hinside⟩
    have hsplit (x : Event) : before ++ .beginInit site i :: (inside ++ x :: rest) =
        before ++ .beginInit site i :: inside ++ x :: rest := by simp
    cases e with
    | beginInit site' j =>
      have hnone := h.begins _ site' j rest (hsplit _)
      cases hopen.symm.trans hnone
    | endInit site' j =>
      have hended := h.ends _ site' j rest (hsplit _)
      obtain ⟨rfl, hj⟩ := InitTarget.mk.inj (Option.some.inj (hopen.symm.trans hended))
      rw [UInt32.toNat_inj.mp hj]
      exact .inl rfl
    | _ => cases he

/-- No init expression is open if each that has been begun has been ended. -/
theorem openInit_eq_none (h : Bracketed log) : openInit log = none ↔
    ∀ before site i after, log = before ++ .beginInit site i :: after →
      after.find? isInitScope = some (.endInit site i) := by
  constructor
  · rintro hnone before site i after rfl
    rcases h.next_scope with hend | ⟨hopen, -⟩
    · exact hend
    · cases hnone.symm.trans hopen
  · intro hall
    cases hopen : openInit log with
    | none => rfl
    | some t =>
      obtain ⟨before, i, inside, hlog, -, hinside⟩ := openInit_eq_some.mp hopen
      have hend := hall before t.site i inside hlog
      cases (hinside _ (List.mem_of_find?_eq_some hend)).symm.trans rfl

end Event.Bracketed

namespace ErrorHandler

variable {η : Type}

/-- **What a stream that is decoded leaves open.** No body is open, and in it no block, loop, `if`
or `else`. After the begin of an init expression, the next event that begins or ends one is its end,
unless there is no such event any more; then this one is open. So none is open if and only if each
init expression that has been begun has been ended. -/
theorem decode_scopes (h : ErrorHandler η) (options : ReadOptions) (data : ByteArray)
    (stream : Stream) (s : η) {m : Module}
    (hm : (h.decode options data stream s).outcome = .ok m) :
    let events := (stream.told options.debugNames).map Entry.event
    let b := (h.decode options data stream s).state.builder
    b.module = m ∧ b.labels = [] ∧ b.currentFunc = none ∧
    (∀ before site i after, events = before ++ .beginInit site i :: after →
      after.find? Event.isInitScope = some (.endInit site i) ∨
        b.initTarget = some ⟨site, i.toNat⟩ ∧ after.find? Event.isInitScope = none) ∧
    (b.initTarget = none ↔ ∀ before site i after, events = before ++ .beginInit site i :: after →
      after.find? Event.isInitScope = some (.endInit site i)) := by
  intro events b
  obtain ⟨hsteps, hlabels, hmodule⟩ := decode_builder hm
  have hopen : b.initTarget = Event.openInit events := hsteps.initTarget_eq
  refine ⟨hmodule, hlabels, (hsteps.sound Builder.sound_empty).currentFunc_eq_none hlabels, ?_, ?_⟩
  · intro before site i after hevents
    rw [hopen, hevents]
    have hbracketed : Event.Bracketed events := hsteps.bracketed
    exact (hevents ▸ hbracketed).next_scope
  · rw [hopen]
    exact hsteps.bracketed.openInit_eq_none

/-- The init expression of a global is begun and ended twice, and has got a value. -/
theorem decode_scopes_reopened :
    let events : List Event := [.define 0 (.global .i32 false), .beginInit .global 0,
      .endInit .global 0, .beginInit .global 0, .initValue 0 (.getGlobal 7), .endInit .global 0,
      .endModule]
    let reply := logging.decode {} .empty (.ofList events) ()
    (∃ m, reply.outcome = .ok m) ∧ reply.state.builder.labels = [] ∧
      reply.state.builder.initTarget = none ∧
      ∀ before site i after, events = before ++ .beginInit site i :: after →
        after.find? Event.isInitScope = some (.endInit site i) := by
  intro events reply
  obtain ⟨m, hm⟩ : ∃ m, reply.outcome = .ok m := ⟨_, rfl⟩
  obtain ⟨-, hlabels, -, -, hiff⟩ := decode_scopes logging {} .empty (.ofList events) () hm
  have hnone : reply.state.builder.initTarget = none := rfl
  exact ⟨⟨m, hm⟩, hlabels, hnone, hiff.mp hnone⟩

/-- Not every init expression that has been begun is ended: a global is defined, its init expression
is begun, and there the module ends. -/
theorem exists_decoded_with_open_init : ¬ ∀ (η : Type) (h : ErrorHandler η) (options : ReadOptions)
    (data : ByteArray) (stream : Stream) (s : η) (m : Module),
    (h.decode options data stream s).outcome = .ok m →
    let b := (h.decode options data stream s).state.builder
    b.currentFunc = none ∧ b.labels = [] ∧ b.initTarget = none ∧
    ∀ before site i after, (stream.told options.debugNames).map Entry.event =
      before ++ .beginInit site i :: after → .endInit site i ∈ after := by
  intro hall
  let events : List Event :=
    [.define 0 (.global .i32 false), .beginInit .global 0, .endModule]
  obtain ⟨-, -, -, hended⟩ := hall Unit logging {} .empty (.ofList events) () _ rfl
  have hmem := hended [.define 0 (.global .i32 false)] .global 0 [.endModule] rfl
  simp at hmem

end ErrorHandler
end WasmDecode
