import WasmDecode.Proofs.Replay
import WasmDecode.Proofs.Faultless

/-!
# Reports of failures

Whoever decodes hears of every error once: of the complaints of the scanner that are passed over,
and at last of the error that decoding ends with. What a handler hears is found out by recording its
calls, which makes no difference to what is decoded.

* `ErrorHandler.recording`: a handler that keeps its calls and its answers.
* `Entry.call?`: the call of a handler that passes over a complaint of the scanner.
* `ErrorHandler.Reported`: how decoding may end, what has been delivered then, and what the handler
  has heard; `ErrorHandler.decode_reported` says that there is no other way.
-/

namespace WasmDecode

/-- What an error handler heard, and whether it wanted to go on. -/
structure Call where
  offset : Option Nat
  message : String
  goOn : Bool
  deriving DecidableEq, Repr, Inhabited

/-- The call of a handler that passes over the complaint of the scanner that an entry is. -/
def Entry.call? (entry : Entry) : Option Call :=
  match entry.event with
  | .malformed message => some ⟨some entry.offset, message, true⟩
  | _ => none

/-- A decoder whose handler does not keep its calls. -/
def Decoder.unrecorded {η : Type} (d : Decoder (η × List Call)) : Decoder η :=
  ⟨d.builder, d.handler.1⟩

namespace ErrorHandler

variable {η : Type} {h : ErrorHandler η} {data : ByteArray} {entry : Entry} {entries : List Entry}

/-- A handler that keeps its calls. -/
def recording (h : ErrorHandler η) : ErrorHandler (η × List Call) where
  onError := fun (s, calls) offset message =>
    let v := h.onError s offset message
    ⟨(v.state, calls ++ [⟨offset, message, v.goOn⟩]), v.notices, v.goOn⟩

/-! ## Recording makes no difference -/

theorem recording_refines (h : ErrorHandler η) :
    h.recording.decoder.Refines h.decoder Decoder.unrecorded := by
  rintro data ⟨b, s, calls⟩ ⟨offset, e⟩
  have hh : ((h.recording.decoder.handle ⟨b, s, calls⟩ ⟨data, offset⟩ e).mapState
      Decoder.unrecorded).result = (h.decoder.handle ⟨b, s⟩ ⟨data, offset⟩ e).result := by
    simp only [decoder]
    split <;> rfl
  cases e with
  | malformed message => rfl
  | _ => exact hh

theorem finish_recording (h : ErrorHandler η) (d : Decoder (η × List Call)) :
    ((h.recording.finish d).mapState Decoder.unrecorded).result =
      (h.finish d.unrecorded).result := by
  unfold finish
  simp only [Decoder.unrecorded]
  split <;> rfl

theorem decode_recording (h : ErrorHandler η) (s : η) (debugNames : Bool) (data : ByteArray)
    (stream : Stream) :
    ((h.recording.decode { debugNames } data stream (s, [])).mapState Decoder.unrecorded).result =
      (h.decode { debugNames } data stream s).result :=
  Reply.result_andThen_congr ((recording_refines h).replay data _ (stream.told debugNames))
    fun d _ => finish_recording h d

/-! ## The calls of a handler -/

variable {d d' : Decoder (η × List Call)}

/-- An event that succeeds is heard of only if it is a complaint that is passed over. -/
theorem calls_of_ok (hr : (h.recording.decoder.receive data d entry).result = (.ok (), d')) :
    d'.handler.2 = d.handler.2 ++ entry.call?.toList := by
  obtain ⟨offset, e⟩ := entry
  have hh (hr : (h.recording.decoder.handle d ⟨data, offset⟩ e).result = (.ok (), d')) :
      d'.handler.2 = d.handler.2 ++ [] := by
    rw [List.append_nil]
    simp only [decoder] at hr
    split at hr <;> cases hr
    rfl
  cases e with
  | malformed message =>
    obtain ⟨ho, rfl⟩ := Prod.mk.inj hr
    have hgoOn : (h.onError d.handler.1 (some offset) message).goOn = true := by
      by_cases hg : (h.onError d.handler.1 (some offset) message).goOn = true
      · exact hg
      · cases ho.symm.trans (if_neg hg)
    show d.handler.2 ++ [⟨some offset, message, _⟩] = d.handler.2 ++ [⟨some offset, message, true⟩]
    rw [hgoOn]
  | _ => exact hh hr

/-- An event that fails is heard of, at its offset and with the message of its error. -/
theorem calls_of_error {e : Error}
    (hr : (h.recording.decoder.receive data d entry).result = (.error (.error e), d')) :
    e.offset = some entry.offset ∧ ∃ goOn,
      d'.handler.2 = d.handler.2 ++ [⟨some entry.offset, e.message, goOn⟩] ∧
        ∀ message, entry.event = .malformed message → e.message = message ∧ goOn = false := by
  obtain ⟨offset, ev⟩ := entry
  have hh (hr : (h.recording.decoder.handle d ⟨data, offset⟩ ev).result = (.error (.error e), d')) :
      e.offset = some offset ∧ ∃ goOn,
        d'.handler.2 = d.handler.2 ++ [⟨some offset, e.message, goOn⟩] := by
    simp only [decoder] at hr
    split at hr <;> cases hr
    exact ⟨rfl, _, rfl⟩
  cases ev with
  | malformed message =>
    obtain ⟨ho, rfl⟩ := Prod.mk.inj hr
    by_cases hg : (h.onError d.handler.1 (some offset) message).goOn = true
    · cases ho.symm.trans (if_pos hg)
    · cases ho.symm.trans (if_neg hg)
      refine ⟨rfl, _, rfl, ?_⟩
      rintro _ ⟨⟩
      exact ⟨rfl, Bool.not_eq_true _ ▸ hg⟩
  | _ =>
    obtain ⟨he, goOn, hcalls⟩ := hh hr
    refine ⟨he, goOn, hcalls, ?_⟩
    rintro _ ⟨⟩

theorem calls_of_passes (hp : h.recording.decoder.Passes data d entries d') :
    d'.handler.2 = d.handler.2 ++ entries.filterMap Entry.call? := by
  induction hp with
  | nil => simp
  | @cons _ _ _ entry _ hr _ ih =>
    rw [ih, calls_of_ok hr, List.append_assoc, List.filterMap_cons]
    cases entry.call? <;> rfl

/-- A body that is open at the end is heard of, and at no offset. -/
theorem calls_of_finish (h : ErrorHandler η) (d : Decoder (η × List Call)) :
    (∃ m, (h.recording.finish d).result = (.ok m, d)) ∨
      ∃ e goOn d', (h.recording.finish d).result = (.error (.error e), d') ∧ e.offset = none ∧
        d'.handler.2 = d.handler.2 ++ [⟨e.offset, e.message, goOn⟩] := by
  unfold finish
  split
  · exact .inl ⟨_, rfl⟩
  · exact .inr ⟨_, _, _, rfl, rfl, rfl⟩

/-! ## Decoders do not fault -/

theorem receive_ne_fault {d : Decoder η} {s : η} {f : Fault}
    (hp : h.decoder.Passes data { handler := s } entries d) :
    (h.decoder.receive data d entry).outcome ≠ .error (.fault f) := by
  have hsteps := steps_of_passes hp
  exact dispatch_ne_fault
    ((hsteps.sound Builder.sound_empty).faultless_handle (hsteps.imported_le .func) _)

/-! ## Reports -/

/-- How decoding without a trace may end, if all this is told: what has been delivered and what the
handler has heard, what reading ended with, and what decoding did. -/
inductive Reported (h : ErrorHandler η) (data : ByteArray) (start : Decoder η) :
    List Entry → List Entry → List Call → Except Failure Unit → Except Failure Module → Prop
  /-- Everything succeeds. Every complaint was passed over. -/
  | built {told : List Entry} {d : Decoder η} {m : Module} (hp : h.decoder.Passes data start told d)
    (hf : (h.finish d).outcome = .ok m) :
    Reported h data start told told (told.filterMap Entry.call?) (.ok ()) (.ok m)
  /-- Everything is delivered, but a body is open at the end. -/
  | unfinished {told : List Entry} {d : Decoder η} {e : Error} {goOn : Bool}
    (hp : h.decoder.Passes data start told d)
    (hf : (h.finish d).outcome = .error (.error e)) (he : e.offset = none) :
    Reported h data start told told (told.filterMap Entry.call? ++ [⟨e.offset, e.message, goOn⟩])
      (.ok ()) (.error (.error e))
  /-- The last event that is delivered is the first one that fails. If it is a complaint, it was not
  passed over. -/
  | stopped {passed rest : List Entry} {last : Entry} {d : Decoder η} {e : Error} {goOn : Bool}
    (hp : h.decoder.Passes data start passed d)
    (hf : (h.decoder.receive data d last).outcome = .error (.error e))
    (he : e.offset = some last.offset)
    (hm : ∀ message, last.event = .malformed message → e.message = message ∧ goOn = false) :
    Reported h data start (passed ++ last :: rest) (passed ++ [last])
      (passed.filterMap Entry.call? ++ [⟨e.offset, e.message, goOn⟩])
      (.error (.error e)) (.error (.error e))

/-- What a recording decoder does with entries is reported. -/
theorem reported_of_delivers {s : η} {told delivered : List Entry} {outcome : Except Failure Unit}
    (hd : h.recording.decoder.Delivers data { handler := (s, []) } told delivered (outcome, d)) :
    let reply := Reply.andThen ⟨d, [], outcome⟩ fun d () => h.recording.finish d
    h.Reported data { handler := s } told delivered reply.state.handler.2 outcome reply.outcome := by
  have hforget := recording_refines h
  intro reply
  cases hd with
  | all hp =>
    have hcalls := calls_of_passes hp
    have hreply : reply.result = (h.recording.finish d).result := Reply.result_andThen_ok rfl
    have hfinish := finish_recording h d
    rcases calls_of_finish h d with ⟨m, hm⟩ | ⟨e, goOn, d', hr, he, hlast⟩
    · obtain ⟨ho, hs⟩ := Prod.mk.inj (hreply.trans hm)
      rw [ho, hs, hcalls]
      rw [Reply.result_mapState _ hm] at hfinish
      exact .built (hforget.passes hp) (Prod.mk.inj hfinish).1.symm
    · obtain ⟨ho, hs⟩ := Prod.mk.inj (hreply.trans hr)
      rw [ho, hs, hlast, hcalls]
      rw [Reply.result_mapState _ hr] at hfinish
      exact .unfinished (hforget.passes hp) (Prod.mk.inj hfinish).1.symm he
  | @stopped passed rest last d₀ _ failure hp hf =>
    cases failure with
    | fault fault => exact absurd (Prod.mk.inj hf).1 (receive_ne_fault hp)
    | error e =>
      obtain ⟨he, goOn, hlast, hm⟩ := calls_of_error hf
      show h.Reported _ _ _ _ d.handler.2 _ (.error (.error e))
      rw [hlast, calls_of_passes hp, ← he]
      exact .stopped (hforget.passes hp) (Prod.mk.inj (hforget.receive hf)).1 he hm

/-- **Every failure is reported once.** Decoding without a trace ends in one of the three ways of
`Reported`, whoever hears of errors. Neither watching what is delivered nor recording the calls
makes a difference. -/
theorem decode_reported (h : ErrorHandler η) (s : η) (debugNames : Bool) (data : ByteArray)
    (stream : Stream) :
    let start : Decoder η := { handler := s }
    let read := h.decoder.read { debugNames } data stream start
    let decoded := h.decode { debugNames } data stream s
    let watched := h.decoder.watched.read { debugNames } data stream (start, [])
    let recorded := h.recording.decode { debugNames } data stream (s, [])
    watched.outcome = read.outcome ∧ watched.state.1 = read.state ∧
      recorded.outcome = decoded.outcome ∧ recorded.state.unrecorded = decoded.state ∧
      h.Reported data start (stream.told debugNames) watched.state.2 recorded.state.handler.2
        read.outcome decoded.outcome := by
  intro start read decoded watched recorded
  obtain ⟨delivered, ⟨outcome, d⟩, hd⟩ :=
    h.recording.decoder.exists_delivers data { handler := (s, []) } (stream.told debugNames)
  have hbase := (recording_refines h).delivers hd
  obtain ⟨hread, hread'⟩ : read.outcome = outcome ∧ read.state = d.unrecorded :=
    Prod.mk.inj hbase.replay
  obtain ⟨hwatched, hwatched'⟩ : watched.outcome = outcome ∧
    watched.state = (d.unrecorded, delivered) := Prod.mk.inj hbase.replay_watched
  obtain ⟨hdecoded, hdecoded'⟩ := Prod.mk.inj (decode_recording h s debugNames data stream)
  have hrecorded : recorded.result =
      (Reply.andThen ⟨d, [], outcome⟩ fun d () => h.recording.finish d).result :=
    Reply.result_andThen_congr (f := id) hd.replay fun _ _ => rfl
  obtain ⟨hrecorded, hrecorded'⟩ := Prod.mk.inj hrecorded
  refine ⟨hwatched.trans hread.symm, ?_, hdecoded, hdecoded', ?_⟩
  · rw [hwatched', hread']
  · rw [hwatched', hread, ← hdecoded]
    show h.Reported _ _ _ _ recorded.state.handler.2 _ recorded.outcome
    rw [hrecorded, hrecorded']
    exact reported_of_delivers hd

/-- A complaint is passed over, and then a scope ends that has not begun. -/
example :
    ((collecting true).recording.decode {} .empty
      ⟨#[⟨3, .malformed "unexpected end"⟩, ⟨5, .endScope⟩, ⟨7, .endModule⟩]⟩
      ([], [])).state.handler.2 =
    [⟨some 3, "unexpected end", true⟩,
      ⟨some 5, Cause.message (.labelDepthOutOfRange 0 0), true⟩] := rfl

end ErrorHandler
end WasmDecode
