import WasmDecode.Decode
import WasmDecode.Proofs.Accept

/-!
# Events on their way to a builder

Between the source of events and a builder stands a decoder, which tells an error handler of what
fails. The handler has no part in what is built.

* `ErrorHandler.dispatch_builder`: what dispatching an event leads to is what the builder makes
  of it.
* `ErrorHandler.dispatchAll`: going on past failures.
* `ErrorHandler.failures_leave_no_trace`: an event that fails changes nothing that is built, so that
  all that failed can be left out.
-/

namespace WasmDecode.ErrorHandler

variable {η : Type} {h : ErrorHandler η} {d d' : Decoder η} {c : Cursor} {e : Event}
  {failure : Failure}

/-- Whoever hears of an error, the builder is where the event has led it. -/
theorem dispatch_builder : (h.decoder.dispatch d c e).state.builder = d.builder.step e := by
  have hh : ((h.decoder).handle d c e).state.builder = d.builder.step e := by
    simp only [decoder, Builder.step]
    split <;> simp_all [Reply.after, report]
  cases e with
  | malformed message => rfl
  | _ => exact hh

/-- An event that the builder accepts succeeds. -/
theorem dispatch_ok {b : Builder} (hb : d.builder.handle e = .ok () b)
    (he : ∀ message, e ≠ .malformed message) : (h.decoder.dispatch d c e).outcome = .ok () := by
  have hh : ((h.decoder).handle d c e).outcome = .ok () := by simp [decoder, hb]
  cases e with
  | malformed message => exact absurd rfl (he message)
  | _ => exact hh

/-- An event that fails was not accepted by the builder, or does not concern it. -/
theorem builder_of_failure (hb : d.builder.Sound)
    (hf : (h.decoder.dispatch d c e).outcome = .error failure) :
    (h.decoder.dispatch d c e).state.builder = d.builder := by
  rw [dispatch_builder]
  rcases hb.handle_cases e with ⟨b, he, -⟩ | ⟨stop, he⟩
  · have hm : ∃ message, e = .malformed message := by
      by_cases hm : ∃ message, e = .malformed message
      · exact hm
      · cases hf.symm.trans (dispatch_ok he (not_exists.mp hm))
    obtain ⟨message, rfl⟩ := hm
    rfl
  · simp [Builder.step, he]

/-- A decoder after a list of entries, where failures are passed over. -/
def dispatchAll (h : ErrorHandler η) (data : ByteArray) (d : Decoder η) (entries : List Entry) :
    Decoder η :=
  entries.foldl (fun d entry => (h.decoder.dispatch d ⟨data, entry.offset⟩ entry.event).state) d

/-- The entries of a list that succeed, where failures are passed over. -/
def succeeded (h : ErrorHandler η) (data : ByteArray) : Decoder η → List Entry → List Entry
  | _, [] => []
  | d, entry :: entries =>
    let reply := h.decoder.dispatch d ⟨data, entry.offset⟩ entry.event
    match reply.outcome with
    | .ok () => entry :: h.succeeded data reply.state entries
    | .error _ => h.succeeded data reply.state entries

variable {data : ByteArray} {entries : List Entry}

theorem dispatchAll_builder :
    (h.dispatchAll data d entries).builder = d.builder.run (entries.map Entry.event) := by
  induction entries generalizing d with
  | nil => rfl
  | cons entry entries ih =>
    have := ih (d := (h.decoder.dispatch d ⟨data, entry.offset⟩ entry.event).state)
    rwa [dispatch_builder] at this

/-- What was built by a decoder decides what it builds next, whatever its handler has heard. -/
theorem dispatchAll_succeeded (hb : d.builder.Sound) (hd : d'.builder = d.builder) :
    (h.dispatchAll data d' (h.succeeded data d entries)).builder =
      (h.dispatchAll data d entries).builder := by
  induction entries generalizing d d' with
  | nil => exact hd
  | cons entry entries ih =>
    have hs : (h.decoder.dispatch d ⟨data, entry.offset⟩ entry.event).state.builder.Sound := by
      rw [dispatch_builder]
      exact hb.step entry.event
    simp only [succeeded]
    split
    · refine ih hs ?_
      rw [dispatch_builder, dispatch_builder, hd]
    · next hf =>
      refine ih hs ?_
      rw [builder_of_failure hb hf, hd]

theorem finish_outcome (hd : d'.builder = d.builder) :
    (h.finish d').outcome = (h.finish d).outcome := by
  simp only [finish, hd]
  split <;> rfl

/-- **Failures leave no trace.** After any events, an event that fails leaves all that is built as
it was. So what going on past failures leads to, the module included, is what comes of the events
that succeeded. -/
theorem failures_leave_no_trace (h : ErrorHandler η) (s : η) (data : ByteArray)
    (entries : List Entry) :
    let start : Decoder η := { handler := s }
    let d := h.dispatchAll data start entries
    (∀ c e failure, (h.decoder.dispatch d c e).outcome = .error failure →
        (h.decoder.dispatch d c e).state.builder = d.builder) ∧
      let d' := h.dispatchAll data start (h.succeeded data start entries)
      d'.builder = d.builder ∧ (h.finish d').outcome = (h.finish d).outcome := by
  intro start d
  have hd : d.builder.Sound := by
    rw [dispatchAll_builder]
    exact Builder.sound_run _
  have hd' : (h.dispatchAll data start (h.succeeded data start entries)).builder = d.builder :=
    dispatchAll_succeeded Builder.sound_empty rfl
  exact ⟨fun c e failure hf => builder_of_failure hd hf, hd', finish_outcome hd'⟩

/-- The end of a body in which an `if` is open, after an `else` outside of all bodies. -/
theorem unclosed_body_leaves_no_trace :
    let entries : List Entry := [⟨0, .funcType 0 [] []⟩, ⟨1, .define 0 (.func 0)⟩, ⟨2, .elseArm⟩,
      ⟨3, .beginBody 0⟩, ⟨4, .beginScope .ifThen []⟩]
    let d := logging.dispatchAll .empty { handler := () } entries
    let reply := logging.decoder.dispatch d ⟨.empty, 5⟩ (.endBody 0)
    let succeeded := logging.succeeded .empty { handler := () } entries
    (∃ failure, reply.outcome = .error failure) ∧ reply.state.builder = d.builder ∧
      succeeded = entries.eraseIdx 2 ∧
      (logging.dispatchAll .empty { handler := () } succeeded).builder = d.builder := by
  intro entries d reply succeeded
  obtain ⟨hf, hd, -⟩ := failures_leave_no_trace logging () .empty entries
  exact ⟨⟨_, rfl⟩, hf ⟨.empty, 5⟩ (.endBody 0) _ rfl, rfl, hd⟩

end WasmDecode.ErrorHandler
