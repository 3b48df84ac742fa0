import WasmDecode.Proofs.Received
import WasmDecode.Proofs.Recording
import WasmDecode.Proofs.Replay

/-!
# Complaints that are passed over

A complaint of the scanner that the error handler passes over leaves no mark but on the handler:
what is decoded and what is traced is what comes of the stream without its complaints. At the first
complaint that is not passed over decoding ends.

* `Stream.withoutComplaints`: a stream without its complaints.
* `ErrorHandler.PassesOver`: a handler passes over each of the complaints that it is told.
* `Reply.Alike`: replies that differ at most in what complaints change.
* `ErrorHandler.replay_alike`: complaints that are passed over may be left out, and
  `ErrorHandler.passes_of_steps`: they may be put in.
* `ErrorHandler.decode_alike`: a stream whose complaints are passed over.
* `ErrorHandler.decode_cut`, `ErrorHandler.decode_complaint`: a stream with a complaint that is not.
* `ErrorHandler.decode_withoutComplaints`: what becomes of streams with complaints.
-/

namespace WasmDecode

/-- Whether an entry is a complaint of the scanner. -/
def Entry.isComplaint (entry : Entry) : Bool := entry.complaint?.isSome

/-- The stream without its complaints. The offsets of the others stay as they are. -/
def Stream.withoutComplaints (s : Stream) : Stream :=
  ⟨s.entries.filter fun entry => !entry.isComplaint⟩

namespace Entry

variable {entry : Entry}

theorem isComplaint_iff :
    entry.isComplaint = true ↔ ∃ message, entry.event = .malformed message := by
  obtain ⟨offset, e⟩ := entry
  cases e <;> simp [isComplaint, complaint?]

theorem isComplaint_eq_false :
    entry.isComplaint = false ↔ ∀ message, entry.event ≠ .malformed message := by
  rw [← Bool.not_eq_true, isComplaint_iff, not_exists]

/-- Complaints are told, with or without the names section. -/
theorem isDebugName_of_isComplaint (h : entry.isComplaint = true) :
    entry.event.isDebugName = false := by
  obtain ⟨message, he⟩ := isComplaint_iff.mp h
  rw [he]
  rfl

end Entry

theorem Stream.told_of_entries_eq {s cut : Stream} {after : Array Entry}
    (hs : s.entries = cut.entries ++ after) (debugNames : Bool) :
    s.told debugNames = cut.told debugNames ++ (⟨after⟩ : Stream).told debugNames := by
  simp only [told, hs, Array.toList_append, List.filter_append]

theorem Stream.told_pushAt_malformed (s : Stream) (offset : Nat) (message : String)
    (debugNames : Bool) : (s.pushAt offset (.malformed message)).told debugNames =
      s.told debugNames ++ [⟨offset, .malformed message⟩] := by
  have hs : (s.pushAt offset (.malformed message)).entries =
      s.entries ++ #[⟨offset, .malformed message⟩] := Array.push_eq_append
  rw [told_of_entries_eq hs]
  cases debugNames <;> rfl

theorem Stream.told_withoutComplaints (s : Stream) (debugNames : Bool) :
    s.withoutComplaints.told debugNames =
      (s.told debugNames).filter fun entry => !entry.isComplaint := by
  simp only [told, withoutComplaints, Array.toList_filter, List.filter_filter, Bool.and_comm]

namespace ErrorHandler

variable {η : Type} {h : ErrorHandler η} {s : η} {entry : Entry} {entries : List Entry}

/-- The handler passes over each complaint among some entries, which it is told in their order. -/
def PassesOver (h : ErrorHandler η) : η → List Entry → Prop
  | _, [] => True
  | s, entry :: entries =>
    match entry.event with
    | .malformed message =>
      let v := h.onError s (some entry.offset) message
      v.goOn = true ∧ h.PassesOver v.state entries
    | _ => h.PassesOver s entries

/-- The handler after the complaints among some entries. -/
def heard (h : ErrorHandler η) (s : η) (entries : List Entry) : η :=
  entries.foldl (fun s entry =>
    match entry.event with
    | .malformed message => (h.onError s (some entry.offset) message).state
    | _ => s) s

/-- What the handler says of errors is not part of the trace. -/
def KeepsOffTrace (h : ErrorHandler η) : Prop :=
  ∀ s offset message, Notice.traceLines (h.onError s offset message).notices = []

theorem passesOver_cons_complaint {message : String} (he : entry.event = .malformed message) :
    h.PassesOver s (entry :: entries) ↔ (h.onError s (some entry.offset) message).goOn = true ∧
      h.PassesOver (h.onError s (some entry.offset) message).state entries := by
  rw [PassesOver, he]

theorem passesOver_cons_plain (he : entry.isComplaint = false) :
    h.PassesOver s (entry :: entries) ↔ h.PassesOver s entries := by
  obtain ⟨offset, e⟩ := entry
  cases e with
  | malformed message => cases he
  | _ => rfl

theorem heard_cons_complaint {message : String} (he : entry.event = .malformed message) :
    h.heard s (entry :: entries) =
      h.heard (h.onError s (some entry.offset) message).state entries := by
  rw [heard, List.foldl_cons, he]
  rfl

theorem heard_cons_plain (he : entry.isComplaint = false) :
    h.heard s (entry :: entries) = h.heard s entries := by
  obtain ⟨offset, e⟩ := entry
  cases e with
  | malformed message => cases he
  | _ => rfl

theorem passesOver_append {entries' : List Entry} : h.PassesOver s (entries ++ entries') ↔
    h.PassesOver s entries ∧ h.PassesOver (h.heard s entries) entries' := by
  induction entries generalizing s with
  | nil => exact (and_iff_right trivial).symm
  | cons entry entries ih =>
    rw [List.cons_append]
    cases he : entry.isComplaint with
    | true =>
      obtain ⟨message, he⟩ := Entry.isComplaint_iff.mp he
      rw [passesOver_cons_complaint he, passesOver_cons_complaint he, heard_cons_complaint he, ih,
        and_assoc]
    | false => rw [passesOver_cons_plain he, passesOver_cons_plain he, heard_cons_plain he, ih]

/-- To leave out other entries makes no difference to a handler. -/
theorem passesOver_filter {keep : Entry → Bool} (hkeep : ∀ entry, entry.isComplaint → keep entry) :
    h.PassesOver s (entries.filter keep) ↔ h.PassesOver s entries := by
  induction entries generalizing s with
  | nil => exact Iff.rfl
  | cons entry entries ih =>
    cases he : entry.isComplaint with
    | true =>
      obtain ⟨message, he'⟩ := Entry.isComplaint_iff.mp he
      rw [List.filter_cons_of_pos (hkeep entry he), passesOver_cons_complaint he',
        passesOver_cons_complaint he', ih]
    | false =>
      rw [passesOver_cons_plain he, ← ih, List.filter_cons]
      split
      · rw [passesOver_cons_plain he]
      · rfl

theorem passesOver_told {stream : Stream} {debugNames : Bool} :
    h.PassesOver s (stream.told debugNames) ↔ h.PassesOver s stream.entries.toList :=
  passesOver_filter fun entry he => by
    rw [Entry.isDebugName_of_isComplaint he, Bool.not_false, Bool.or_true]

end ErrorHandler

/-! ## Replies that are alike -/

theorem Notice.traceLines_append (notices notices' : List Notice) :
    traceLines (notices ++ notices') = traceLines notices ++ traceLines notices' :=
  List.filterMap_append

namespace Reply

variable {σ τ ρ α β : Type} {f : σ → ρ} {quiet : Prop} {reply reply' : Reply σ α}

/-- Replies with the same outcome and the same view of the state, and if it is `quiet`, with the
same lines of a trace. -/
structure Alike (f : σ → ρ) (quiet : Prop) (reply reply' : Reply σ α) : Prop where
  outcome : reply.outcome = reply'.outcome
  state : f reply.state = f reply'.state
  trace : quiet → Notice.traceLines reply.notices = Notice.traceLines reply'.notices

namespace Alike

theorem after (h : Alike f quiet reply reply') (notices : List Notice) :
    Alike f quiet (reply.after notices) (reply'.after notices) where
  outcome := h.outcome
  state := h.state
  trace hq := by
    show Notice.traceLines (notices ++ _) = Notice.traceLines (notices ++ _)
    rw [Notice.traceLines_append, Notice.traceLines_append, h.trace hq]

/-- What is said beside the trace makes no difference. -/
theorem after_left (h : Alike f quiet reply reply') {notices : List Notice}
    (hn : quiet → Notice.traceLines notices = []) : Alike f quiet (reply.after notices) reply' where
  outcome := h.outcome
  state := h.state
  trace hq := by
    show Notice.traceLines (notices ++ _) = _
    rw [Notice.traceLines_append, hn hq, h.trace hq, List.nil_append]

/-- To see less is to see no difference. -/
theorem view (h : Alike f quiet reply reply') (g : ρ → τ) :
    Alike (fun s => g (f s)) quiet reply reply' :=
  ⟨h.outcome, congrArg g h.state, h.trace⟩

theorem mapState {g : σ → τ} {f' : τ → ρ} (h : Alike (fun s => f' (g s)) quiet reply reply') :
    Alike f' quiet (reply.mapState g) (reply'.mapState g) :=
  ⟨h.outcome, h.state, h.trace⟩

theorem onError (h : Alike f quiet reply reply') (say : Error → List Notice) :
    Alike f quiet (reply.onError say) (reply'.onError say) := by
  obtain ⟨s, notices, outcome⟩ := reply
  obtain ⟨s', notices', outcome'⟩ := reply'
  obtain ⟨rfl, hs, ht⟩ := h
  cases outcome with
  | ok a => exact ⟨rfl, hs, ht⟩
  | error failure =>
    cases failure with
    | fault fault => exact ⟨rfl, hs, ht⟩
    | error e =>
      refine ⟨rfl, hs, fun hq => ?_⟩
      show Notice.traceLines (notices ++ say e) = Notice.traceLines (notices' ++ say e)
      rw [Notice.traceLines_append, Notice.traceLines_append, ht hq]

theorem andThen {next next' : σ → α → Reply σ β} (h : Alike f quiet reply reply')
    (hnext : ∀ a, reply.outcome = .ok a →
      Alike f quiet (next reply.state a) (next' reply'.state a)) :
    Alike f quiet (reply.andThen next) (reply'.andThen next') := by
  obtain ⟨s, notices, outcome⟩ := reply
  obtain ⟨s', notices', outcome'⟩ := reply'
  obtain ⟨rfl, hs, ht⟩ := h
  cases outcome with
  | error failure => exact ⟨rfl, hs, ht⟩
  | ok a =>
    obtain ⟨ho, hs, ht'⟩ := hnext a rfl
    refine ⟨ho, hs, fun hq => ?_⟩
    show Notice.traceLines (notices ++ _) = Notice.traceLines (notices' ++ _)
    rw [Notice.traceLines_append, Notice.traceLines_append, ht hq, ht' hq]

end Alike
end Reply

/-! ## Decoders behind loggers -/

namespace ErrorHandler

variable {η : Type} {h : ErrorHandler η} {data : ByteArray} {d d' : Decoder η} {s : η}
  {entry : Entry} {entries : List Entry} {loggers : List Logger}

theorem report_alike {α : Type} (offset : Option Nat) (cause : Cause)
    (hb : d'.builder = d.builder) :
    Reply.Alike Decoder.builder h.KeepsOffTrace (h.report (α := α) d offset cause)
      (h.report d' offset cause) where
  outcome := rfl
  state := hb.symm
  trace hq := (hq d.handler offset cause.message).trans (hq d'.handler offset cause.message).symm

/-- What a decoder makes of an event that is no complaint is up to its builder. -/
theorem receive_alike (hb : d'.builder = d.builder) (he : entry.isComplaint = false) :
    Reply.Alike Decoder.builder h.KeepsOffTrace (h.decoder.receive data d entry)
      (h.decoder.receive data d' entry) := by
  obtain ⟨b, s⟩ := d
  obtain ⟨_, s'⟩ := d'
  obtain rfl := hb
  rw [Reader.receive, Reader.receive, Reader.dispatch_eq_handle (Entry.isComplaint_eq_false.mp he),
    Reader.dispatch_eq_handle (Entry.isComplaint_eq_false.mp he)]
  simp only [decoder]
  split
  · exact ⟨rfl, rfl, fun _ => rfl⟩
  · refine Reply.Alike.after (report_alike _ _ ?_) _
    rfl
  · exact ⟨rfl, rfl, fun _ => rfl⟩

/-- Of a complaint only the handler hears. -/
theorem receive_complaint {message : String} (he : entry.event = .malformed message) :
    h.decoder.receive data d entry =
      ⟨{ d with handler := (h.onError d.handler (some entry.offset) message).state },
        .scannerError entry.offset message ::
          (h.onError d.handler (some entry.offset) message).notices,
        if (h.onError d.handler (some entry.offset) message).goOn then .ok ()
        else .error (.error ((Error.malformedInput message).atOffset entry.offset))⟩ := by
  rw [Reader.receive, he]
  rfl

theorem goOn_of_ok {message : String} (he : entry.event = .malformed message)
    (ho : (h.decoder.receive data d entry).outcome = .ok ()) :
    (h.onError d.handler (some entry.offset) message).goOn = true := by
  by_cases hgo : (h.onError d.handler (some entry.offset) message).goOn = true
  · exact hgo
  · rw [receive_complaint he] at ho
    cases ho.symm.trans (if_neg hgo)

/-- A complaint that is passed over is no more than told. -/
theorem receive_passedOver {message : String} (he : entry.event = .malformed message)
    (hgo : (h.onError d.handler (some entry.offset) message).goOn = true) :
    h.decoder.receive data d entry =
      ⟨{ d with handler := (h.onError d.handler (some entry.offset) message).state },
        .scannerError entry.offset message ::
          (h.onError d.handler (some entry.offset) message).notices, .ok ()⟩ := by
  rw [receive_complaint he, if_pos hgo]

/-- An event that succeeds was passed over if it is a complaint, and otherwise not heard of. -/
theorem heard_of_ok (hr : (h.decoder.receive data d entry).result = (.ok (), d')) :
    h.PassesOver d.handler [entry] ∧ d'.handler = h.heard d.handler [entry] := by
  cases he : entry.isComplaint with
  | true =>
    obtain ⟨message, he⟩ := Entry.isComplaint_iff.mp he
    obtain ⟨ho, rfl⟩ := Prod.mk.inj hr
    rw [passesOver_cons_complaint he, heard_cons_complaint he, receive_complaint he]
    exact ⟨⟨goOn_of_ok he ho, trivial⟩, rfl⟩
  | false =>
    rw [passesOver_cons_plain he, heard_cons_plain he]
    refine ⟨trivial, ?_⟩
    rw [Reader.receive, Reader.dispatch_eq_handle (Entry.isComplaint_eq_false.mp he)] at hr
    simp only [decoder] at hr
    split at hr <;> cases hr
    rfl

theorem heard_of_passes (hp : h.decoder.Passes data d entries d') :
    h.PassesOver d.handler entries ∧ d'.handler = h.heard d.handler entries := by
  induction hp with
  | nil => exact ⟨trivial, rfl⟩
  | @cons _ _ _ entry entries hr _ ih =>
    obtain ⟨hfirst, hheard⟩ := heard_of_ok hr
    obtain ⟨hrest, hheard'⟩ := ih
    rw [← List.singleton_append, passesOver_append, ← hheard]
    exact ⟨⟨hfirst, hrest⟩, hheard'.trans (by rw [hheard]; rfl)⟩

/-- What loggers and builder there are. -/
def view (ts : List Logger × Decoder η) : List Logger × Builder := (ts.1, ts.2.builder)

theorem receive_traced_alike (h : ErrorHandler η) (data : ByteArray) (loggers : List Logger)
    (hb : d'.builder = d.builder) (he : entry.isComplaint = false) :
    Reply.Alike view h.KeepsOffTrace (h.decoder.traced.receive data (loggers, d) entry)
      (h.decoder.traced.receive data (loggers, d') entry) := by
  rw [Reader.receive_traced_eq, Reader.receive_traced_eq]
  refine Reply.Alike.after ?_ _
  split
  · exact ((receive_alike hb he).view fun b => (_, b)).mapState
  · exact ⟨rfl, Prod.ext rfl hb.symm, fun _ => rfl⟩

/-- **Complaints may be left out** if none of them is what a decoder stops at. -/
theorem replay_alike {ts ts' : List Logger × Decoder η} (hv : view ts' = view ts)
    (hgo : ∀ passed last rest ts₁, entries = passed ++ last :: rest →
      h.decoder.traced.Passes data ts passed ts₁ → last.isComplaint = true →
        (h.decoder.receive data ts₁.2 last).outcome = .ok ()) :
    Reply.Alike view h.KeepsOffTrace (h.decoder.traced.replayEntries data entries ts)
      (h.decoder.traced.replayEntries data (entries.filter fun entry => !entry.isComplaint)
        ts') := by
  induction entries generalizing ts ts' with
  | nil => exact ⟨rfl, hv.symm, fun _ => rfl⟩
  | cons entry entries ih =>
    obtain ⟨loggers, d⟩ := ts
    obtain ⟨loggers', d'⟩ := ts'
    have hl : loggers = loggers' := (congrArg Prod.fst hv).symm
    have hb : d'.builder = d.builder := congrArg Prod.snd hv
    subst hl
    -- Behind an entry that succeeds the same holds.
    have hrest {ts₁}
        (hr : (h.decoder.traced.receive data (loggers, d) entry).result = (.ok (), ts₁))
        (passed last rest ts₂) (hsplit : entries = passed ++ last :: rest)
        (hp : h.decoder.traced.Passes data ts₁ passed ts₂) (hl : last.isComplaint = true) :
        (h.decoder.receive data ts₂.2 last).outcome = .ok () :=
      hgo (entry :: passed) last rest ts₂ (congrArg (entry :: ·) hsplit) (.cons hr hp) hl
    cases he : entry.isComplaint with
    | true =>
      -- The complaint says nothing in the trace, and leaves the builder and the loggers.
      obtain ⟨message, he'⟩ := Entry.isComplaint_iff.mp he
      have hok := hgo [] entry entries (loggers, d) rfl .nil he
      have hreceive := Reader.receive_traced_complaint h.decoder data d loggers he'
      rw [receive_passedOver he' (goOn_of_ok he' hok)] at hreceive
      rw [List.filter_cons_of_neg (by simp [he]), Reader.replayEntries_cons, hreceive]
      refine Reply.Alike.after_left (ih ?_ (hrest ?_)) fun hq => ?_
      · exact congrArg (loggers, ·) hb
      · rw [hreceive]
        rfl
      · exact hq d.handler (some entry.offset) message
    | false =>
      rw [List.filter_cons_of_pos (by simp [he]), Reader.replayEntries_cons,
        Reader.replayEntries_cons]
      have hreceive := receive_traced_alike h data loggers hb he
      refine (hreceive.onError _).andThen fun () ho => ih (hreceive.onError _).state.symm (hrest ?_)
      rw [← Reply.result_onError fun e => [.replayStopped entry.offset e]]
      exact Prod.ext ho rfl

theorem finish_alike (hb : d'.builder = d.builder) :
    Reply.Alike Decoder.builder h.KeepsOffTrace (h.finish d) (h.finish d') := by
  unfold finish
  rw [hb]
  split
  · exact ⟨rfl, hb.symm, fun _ => rfl⟩
  · exact report_alike none _ hb

/-- No complaint stops a decoder whose handler has passed over all that it has heard. -/
theorem outcome_of_passesOver {ts ts' : List Logger × Decoder η} {passed rest : List Entry}
    {last : Entry} (hp : h.decoder.traced.Passes data ts passed ts')
    (hl : last.isComplaint = true)
    (hreceived : h.PassesOver ts.2.handler (h.decoder.watched.traced.replayEntries data
      (passed ++ last :: rest) (ts.1, ts.2, [])).state.2.2) :
    (h.decoder.receive data ts'.2 last).outcome = .ok () := by
  cases ho : (h.decoder.receive data ts'.2 last).outcome with
  | ok => rfl
  | error failure =>
    obtain ⟨message, he⟩ := Entry.isComplaint_iff.mp hl
    have hf : (h.decoder.traced.receive data ts' last).outcome = .error failure := by
      rw [← ho]
      exact congrArg Reply.outcome (Reader.receive_traced_complaint h.decoder data ts'.2 ts'.1 he)
    -- The complaint was heard, and it was the last one.
    rw [hp.received_eq hf, he, Logger.showAll_malformed, if_pos rfl, passesOver_append,
      ← (heard_of_passes hp.of_traced).2, passesOver_cons_complaint he] at hreceived
    rw [receive_passedOver he hreceived.2.1] at ho
    cases ho

/-- **Complaints may be left out** of a stream if the handler passes over them. -/
theorem decode_alike {options : ReadOptions} {stream : Stream}
    (hp : h.PassesOver s (h.decoder.received options data stream { handler := s })) :
    Reply.Alike Decoder.builder h.KeepsOffTrace (h.decode options data stream s)
      (h.decode options data stream.withoutComplaints s) := by
  have hread : Reply.Alike Decoder.builder h.KeepsOffTrace
      (h.decoder.read options data stream { handler := s })
      (h.decoder.read options data stream.withoutComplaints { handler := s }) := by
    rw [Reader.read_eq, Reader.read_eq, Stream.told_withoutComplaints]
    rw [Reader.received_eq] at hp
    have hreplay : Reply.Alike view h.KeepsOffTrace
        (h.decoder.traced.replayEntries data (stream.told options.debugNames)
          (options.loggers, { handler := s }))
        (h.decoder.traced.replayEntries data
          ((stream.told options.debugNames).filter fun entry => !entry.isComplaint)
          (options.loggers, { handler := s })) := by
      refine replay_alike rfl fun passed last rest ts₁ hsplit hpassed hl => ?_
      rw [hsplit] at hp
      exact outcome_of_passesOver hpassed hl hp
    refine Reply.Alike.after (Reply.Alike.mapState ?_) _
    exact hreplay.view Prod.snd
  exact hread.andThen fun () _ => finish_alike hread.state.symm

/-! ## Complaints that are not passed over -/

/-- **Complaints may be put in** where the handler passes over them. -/
theorem passes_of_steps {b : Builder}
    (hs : d.builder.Steps ((entries.filter fun entry => !entry.isComplaint).map Entry.event) b)
    (hp : h.PassesOver d.handler entries) :
    ∃ s, h.decoder.Passes data d entries { builder := b, handler := s } := by
  induction entries generalizing d with
  | nil =>
    cases hs
    exact ⟨_, .nil⟩
  | cons entry entries ih =>
    cases he : entry.isComplaint with
    | true =>
      obtain ⟨message, he'⟩ := Entry.isComplaint_iff.mp he
      rw [List.filter_cons_of_neg (by simp [he])] at hs
      obtain ⟨hgo, hp⟩ := (passesOver_cons_complaint he').mp hp
      have hr : (h.decoder.receive data d entry).result = (.ok (), { d with
          handler := (h.onError d.handler (some entry.offset) message).state }) := by
        rw [receive_passedOver he' hgo]
        rfl
      obtain ⟨s, hpasses⟩ := ih (d := { d with
        handler := (h.onError d.handler (some entry.offset) message).state }) hs hp
      exact ⟨s, .cons hr hpasses⟩
    | false =>
      rw [List.filter_cons_of_pos (by simp [he])] at hs
      obtain _ | ⟨hb, hs⟩ := hs
      obtain ⟨s, hpasses⟩ := ih (d := { d with builder := _ }) hs
        ((passesOver_cons_plain he).mp hp)
      exact ⟨s, .cons (receive_ok hb (Entry.isComplaint_eq_false.mp he)) hpasses⟩

theorem decode_outcome_of_error {options : ReadOptions} {stream : Stream} {failure : Failure}
    (hf : (h.decoder.traced.replayEntries data (stream.told options.debugNames)
      (options.loggers, { handler := s })).outcome = .error failure) :
    (h.decode options data stream s).outcome = .error failure := by
  have hread : (h.decoder.read options data stream { handler := s }).outcome = .error failure := by
    rw [Reader.read_eq]
    exact hf
  simp only [decode, Reply.andThen, hread]

/-- What comes behind a complaint that is not passed over is not read. -/
theorem decode_cut {options : ReadOptions} {stream cut : Stream} {after : Array Entry}
    (hstream : stream.entries = cut.entries ++ after)
    (hn : ¬ h.PassesOver s cut.entries.toList) :
    h.decode options data stream s = h.decode options data cut s ∧
      h.decoder.received options data stream { handler := s } =
        h.decoder.received options data cut { handler := s } := by
  have htold := Stream.told_of_entries_eq hstream options.debugNames
  have hstop (d : Decoder η) :
      ¬ h.decoder.Passes data { handler := s } (cut.told options.debugNames) d :=
    fun hp => hn (passesOver_told.mp (heard_of_passes hp).1)
  have hstop' (t : Decoder η × List Entry) :
      ¬ h.decoder.watched.Passes data ({ handler := s }, []) (cut.told options.debugNames) t :=
    fun hp => hstop t.1 ((Reader.refines_watched h.decoder).passes hp)
  constructor
  · rw [decode, Reader.read_of_not_passes htold hstop, decode]
  · rw [Reader.received, Reader.read_of_not_passes htold hstop', Reader.received]

/-- The first complaint that is not passed over is what decoding ends with, if the builder accepts
all in front of it that is no complaint. -/
theorem decode_complaint {options : ReadOptions} {before : Stream} {offset : Nat} {message : String}
    (hp : h.PassesOver s before.entries.toList)
    (hn : ¬ h.PassesOver s (before.pushAt offset (.malformed message)).entries.toList)
    (hs : ∃ b, ({} : Builder).Steps
      ((before.withoutComplaints.told options.debugNames).map Entry.event) b)
    (hf : options.traced = true → ∀ fault,
      (h.decode options data (before.pushAt offset (.malformed message)) s).outcome ≠
        .error (.fault fault)) :
    (h.decode options data (before.pushAt offset (.malformed message)) s).outcome =
        .error (.error ⟨.parse, 4000, message, some offset⟩) ∧
      h.decoder.received options data (before.pushAt offset (.malformed message))
        { handler := s } = (before.pushAt offset (.malformed message)).told options.debugNames := by
  obtain ⟨b, hs⟩ := hs
  have htold := before.told_pushAt_malformed offset message options.debugNames
  rw [Stream.told_withoutComplaints] at hs
  obtain ⟨s', hpasses⟩ := passes_of_steps (d := { handler := s }) hs (passesOver_told.mpr hp)
  -- The handler has been told of all complaints in front when it decides on this one.
  have hgo : ¬ (h.onError s' (some offset) message).goOn = true := fun hgo => by
    refine hn (passesOver_told.mp (htold ▸ passesOver_append.mpr ⟨passesOver_told.mpr hp, ?_⟩))
    rw [← (heard_of_passes hpasses).2]
    exact (passesOver_cons_complaint rfl).mpr ⟨hgo, trivial⟩
  rcases hpasses.traced_or_fault options.loggers with ⟨loggers, htraced⟩ | ⟨hne, fault, hfault⟩
  · have hlast : (h.decoder.traced.receive data (loggers, ⟨b, s'⟩)
        ⟨offset, .malformed message⟩).result =
          (.error (.error ⟨.parse, 4000, message, some offset⟩),
            (loggers, ⟨b, (h.onError s' (some offset) message).state⟩)) := by
      rw [Reader.receive_traced_complaint h.decoder data _ loggers rfl, receive_complaint rfl,
        if_neg hgo]
      rfl
    refine ⟨decode_outcome_of_error ?_, ?_⟩
    · rw [htold]
      exact congrArg Prod.fst ((htraced.replay_append _).trans
        (Reader.replayEntries_cons_error hlast))
    · rw [Reader.received_eq, htold, htraced.received_eq (congrArg Prod.fst hlast),
        Logger.showAll_malformed, if_pos rfl]
  · have htrace : options.traced = true := by
      by_cases htrace : options.traced = true
      · exact htrace
      · exact absurd (if_neg htrace) hne
    refine absurd (decode_outcome_of_error ?_) (hf htrace fault)
    rw [htold, Reader.replayEntries_append_of_error hfault]
    exact hfault

/-- **Complaints of the scanner.** If the handler passes over each complaint that it hears of, then
what is decoded, the builder that is left and the trace are those of the stream without complaints,
where the other events have the offsets that they had. Behind the first complaint that is not passed
over nothing is delivered, and all is as if the stream ended there. If the builder accepts what is
no complaint in front of it, and the trace can be shown, then decoding ends with the complaint. -/
theorem decode_withoutComplaints (h : ErrorHandler η) (options : ReadOptions) (data : ByteArray)
    (stream : Stream) (s : η) :
    let decoded := h.decode options data stream s
    let received := h.decoder.received options data stream { handler := s }
    (h.PassesOver s received →
      let plain := h.decode options data stream.withoutComplaints s
      decoded.outcome = plain.outcome ∧ decoded.state.builder = plain.state.builder ∧
        (h.KeepsOffTrace →
          Notice.traceLines decoded.notices = Notice.traceLines plain.notices)) ∧
    ∀ (before : Stream) (offset : Nat) (message : String) (after : Array Entry),
      let cut := before.pushAt offset (.malformed message)
      stream.entries = cut.entries ++ after → h.PassesOver s before.entries.toList →
      ¬ h.PassesOver s cut.entries.toList →
        decoded = h.decode options data cut s ∧ received <+: cut.told options.debugNames ∧
        ((∃ b, ({} : Builder).Steps
            ((before.withoutComplaints.told options.debugNames).map Entry.event) b) →
          (options.traced = true → ∀ fault, decoded.outcome ≠ .error (.fault fault)) →
          decoded.outcome = .error (.error ⟨.parse, 4000, message, some offset⟩) ∧
            received = cut.told options.debugNames) := by
  intro decoded received
  refine ⟨fun hp => ?_, ?_⟩
  · obtain ⟨houtcome, hstate, htrace⟩ := decode_alike hp
    exact ⟨houtcome, hstate, htrace⟩
  · intro before offset message after cut hstream hp hn
    obtain ⟨hdecode, hreceived⟩ : decoded = h.decode options data cut s ∧
      received = h.decoder.received options data cut { handler := s } := decode_cut hstream hn
    rw [hdecode, hreceived]
    exact ⟨rfl, Reader.received_isPrefix h.decoder options data cut { handler := s },
      decode_complaint hp hn⟩

/-- A handler that passes over so many complaints, and two complaints. -/
theorem decode_withoutComplaints_twice :
    let h : ErrorHandler Nat := ⟨fun n _ _ => { state := n - 1, goOn := 0 < n }⟩
    let options : ReadOptions := { traced := true }
    let before : Stream := ⟨#[⟨0, .beginModule 1⟩, ⟨8, .malformed "odd size"⟩,
      ⟨8, .beginSection .types 1⟩]⟩
    let stream : Stream := ⟨#[⟨0, .beginModule 1⟩, ⟨8, .malformed "odd size"⟩,
      ⟨8, .beginSection .types 1⟩, ⟨10, .malformed "no types"⟩, ⟨11, .endSection .types⟩,
      ⟨12, .endModule⟩]⟩
    (h.decode options .empty stream 2).outcome =
        (h.decode options .empty stream.withoutComplaints 2).outcome ∧
      Notice.traceLines (h.decode options .empty stream 2).notices =
        Notice.traceLines (h.decode options .empty stream.withoutComplaints 2).notices ∧
      (h.decode options .empty stream 1).outcome =
        .error (.error ⟨.parse, 4000, "no types", some 10⟩) ∧
      h.decoder.received options .empty stream { handler := 1 } =
        before.entries.toList ++ [⟨10, .malformed "no types"⟩] := by
  intro h options before stream
  have hreceived : h.decoder.received options .empty stream { handler := 2 } =
      stream.entries.toList := rfl
  obtain ⟨houtcome, -, htrace⟩ := (decode_withoutComplaints h options .empty stream 2).1
    (hreceived ▸ ⟨rfl, rfl, trivial⟩)
  obtain ⟨-, -, hstop⟩ := (decode_withoutComplaints h options .empty stream 1).2 before 10
    "no types" #[⟨11, .endSection .types⟩, ⟨12, .endModule⟩] rfl ⟨rfl, trivial⟩
    fun hp => nomatch hp.2.1
  obtain ⟨herror, htold⟩ := hstop ⟨_, .cons rfl (.cons rfl .nil)⟩ fun _ fault => by rintro ⟨⟩
  exact ⟨houtcome, htrace fun _ _ _ => rfl, herror, htold⟩

end ErrorHandler
end WasmDecode
