import WasmDecode.Proofs.Dispatch
import WasmDecode.Proofs.Transparency

/-!
# Replaying into a decoder

A stream that a builder accepts event by event is decoded, whoever hears of errors and whether or
not there is a trace. A trace needs that no section or module ends which has not begun.

* `ErrorHandler.LeadsTo`: events that lead a builder to another one; `LeadsTo.passes` says that a
  decoder takes them.
* `ErrorHandler.decode_quiet`: what becomes of a stream whose events are all accepted, and that
  nobody hears of an error; `decode_ok` is the first half.
* `ErrorHandler.decode_builder`, `ErrorHandler.decode_steps`: conversely, what has been decoded was
  accepted event by event.
-/

namespace WasmDecode.ErrorHandler

variable {η : Type} {h : ErrorHandler η} {data : ByteArray} {b b' : Builder} {d d' : Decoder η}
  {entry : Entry} {entries : List Entry} {s : η}

/-- The events lead the builder to `b`, and none is a complaint of the scanner. -/
structure LeadsTo (b : Builder) (d : Decoder η) (events : List Event) : Prop where
  steps : d.builder.Steps events b
  wellFormed : ∀ e ∈ events, ∀ message, e ≠ .malformed message

/-- Nobody hears of an event that the builder accepts. -/
theorem receive_ok (hb : d.builder.handle entry.event = .ok () b')
    (he : ∀ message, entry.event ≠ .malformed message) :
    (h.decoder.receive data d entry).result = (.ok (), { d with builder := b' }) := by
  rw [Reader.receive, Reader.dispatch_eq_handle he]
  simp only [decoder, hb]
  rfl

theorem LeadsTo.passes (h : ErrorHandler η) (data : ByteArray)
    (hl : LeadsTo b d (entries.map Entry.event)) :
    h.decoder.Passes data d entries { d with builder := b } := by
  obtain ⟨hs, hw⟩ := hl
  induction entries generalizing d with
  | nil =>
    cases hs
    exact .nil
  | cons entry entries ih =>
    obtain ⟨he, hw⟩ := List.forall_mem_cons.mp hw
    obtain _ | ⟨hb, hs⟩ := hs
    exact .cons (receive_ok hb he) (ih hs hw)

/-- **Decoding.** A stream whose events are all accepted and leave no scope open is decoded, and
nobody hears of an error. -/
theorem decode_quiet {options : ReadOptions} {stream : Stream}
    (hl : LeadsTo b ({ handler := s } : Decoder η)
      ((stream.told options.debugNames).map Entry.event))
    (hn : options.traced = true →
      Event.nests 0 ((stream.told options.debugNames).map Entry.event) = true)
    (hb : b.labels = []) :
    (h.decode options data stream s).outcome = .ok b.module ∧
      (h.decode options data stream s).state.handler = s := by
  have hd := Reader.Delivers.all (hl.passes h data)
  have hread : (h.decoder.read options data stream { handler := s }).result =
      (.ok (), { builder := b, handler := s }) := by
    obtain ⟨traced, debugNames⟩ := options
    cases traced with
    | false => exact hd.replay
    | true => exact hd.read_traced (hn rfl)
  have hfinish : (h.finish { builder := b, handler := s }).result =
      (.ok b.module, { builder := b, handler := s }) := by
    simp only [finish, Builder.finish, hb, if_true]
    rfl
  have hdecode : (h.decode options data stream s).result =
      (.ok b.module, { builder := b, handler := s }) :=
    (Reply.result_andThen_ok hread).trans hfinish
  obtain ⟨ho, hs⟩ := Prod.mk.inj hdecode
  exact ⟨ho, congrArg Decoder.handler hs⟩

theorem decode_ok {options : ReadOptions} {stream : Stream}
    (hl : LeadsTo b ({ handler := s } : Decoder η)
      ((stream.told options.debugNames).map Entry.event))
    (hn : options.traced = true →
      Event.nests 0 ((stream.told options.debugNames).map Entry.event) = true)
    (hb : b.labels = []) : (h.decode options data stream s).outcome = .ok b.module :=
  (decode_quiet hl hn hb).1

/-! ## Streams that are decoded -/

theorem handle_of_receive (hr : (h.decoder.receive data d entry).result = (.ok (), d')) :
    d.builder.handle entry.event = .ok () d'.builder := by
  by_cases he : ∃ message, entry.event = .malformed message
  · obtain ⟨message, he⟩ := he
    rw [Reader.receive, he] at hr
    obtain ⟨-, rfl⟩ := Prod.mk.inj hr
    rw [he]
    rfl
  · rw [Reader.receive, Reader.dispatch_eq_handle (not_exists.mp he)] at hr
    simp only [decoder] at hr
    split at hr
    · next hb =>
      cases hr
      exact hb
    · cases hr
    · cases hr

/-- The builder accepts the events of entries that succeed. -/
theorem steps_of_passes (hp : h.decoder.Passes data d entries d') :
    d.builder.Steps (entries.map Entry.event) d'.builder := by
  induction hp with
  | nil => exact .nil
  | cons hr _ ih => exact .cons (handle_of_receive hr) ih

/-- The builder of a decoder that has decoded a stream has accepted its events, with or without a
trace. -/
theorem decode_builder {options : ReadOptions} {stream : Stream} {m : Module}
    (hm : (h.decode options data stream s).outcome = .ok m) :
    let b := (h.decode options data stream s).state.builder
    ({} : Builder).Steps ((stream.told options.debugNames).map Entry.event) b ∧
      b.labels = [] ∧ b.module = m := by
  obtain ⟨d, ⟨⟩, hread, hfinish⟩ := Reply.outcome_andThen_eq_ok.mp hm
  have hp : h.decoder.Passes data { handler := s } (stream.told options.debugNames) d := by
    obtain ⟨traced, debugNames⟩ := options
    cases traced with
    | false => exact Reader.passes_iff.mpr hread
    | true =>
      obtain ⟨ho, rfl⟩ := Prod.mk.inj hread
      have hp : h.decoder.traced.Passes data ([{}], { handler := s }) (stream.told debugNames) _ :=
        Reader.passes_iff.mpr (Prod.ext ho rfl)
      exact hp.of_traced
  have hstate : (h.decode options data stream s).state = (h.finish d).state :=
    congrArg Prod.snd (Reply.result_andThen_ok hread)
  rw [hstate]
  simp only [finish, Builder.finish] at hfinish ⊢
  by_cases hl : d.builder.labels = []
  · rw [if_pos hl] at hfinish ⊢
    exact ⟨steps_of_passes hp, hl, Except.ok.inj hfinish⟩
  · rw [if_neg hl] at hfinish
    cases hfinish

/-- **What has been decoded** was accepted event by event, and no scope was open at the end. -/
theorem decode_steps {options : ReadOptions} {stream : Stream} {m : Module}
    (hm : (h.decode options data stream s).outcome = .ok m) :
    ∃ b, ({} : Builder).Steps ((stream.told options.debugNames).map Entry.event) b ∧
      b.labels = [] ∧ b.module = m :=
  ⟨_, decode_builder hm⟩

end WasmDecode.ErrorHandler
