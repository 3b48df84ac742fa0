import WasmDecode.Proofs.Indentation
import WasmDecode.Proofs.Transparency

/-!
# What a reading delivers

To read a stream is to replay it into a reader behind loggers, of which there may be none. Loggers
do not stop what the reader behind them takes, unless they cannot show it, which is a fault.

* `ReadOptions.loggers`: the loggers in front of a reader. `Reader.read_eq` says that there is
  nothing else to reading.
* `Reader.read_of_not_passes`: what comes behind entries that a reader does not take makes no
  difference.
* `Reader.Passes.traced_or_fault`: what becomes of entries that a reader takes.
* `Reader.received`: what a reader has received when reading ends. `Reader.received_isPrefix` says
  that this is the first part of what is told.
-/

namespace WasmDecode

/-- The loggers in front of a reader. -/
def ReadOptions.loggers (o : ReadOptions) : List Logger := if o.traced then [{}] else []

namespace Reader

variable {σ : Type} {r : Reader σ} {data : ByteArray} {s : σ} {loggers : List Logger}
  {entry last : Entry} {entries passed rest : List Entry} {ts ts' : List Logger × σ}

theorem replayEntries_cons (r : Reader σ) (data : ByteArray) (entry : Entry) (entries : List Entry)
    (s : σ) : r.replayEntries data (entry :: entries) s =
      ((r.receive data s entry).onError fun e => [.replayStopped entry.offset e]).andThen
        fun s () => r.replayEntries data entries s :=
  rfl

/-- What stops a reader stops it whatever would come next. -/
theorem replayEntries_append_of_error {failure : Failure}
    (hf : (r.replayEntries data entries s).outcome = .error failure) (rest : List Entry) :
    r.replayEntries data (entries ++ rest) s = r.replayEntries data entries s := by
  induction entries generalizing s with
  | nil => cases hf
  | cons entry entries ih =>
    rw [replayEntries_cons] at hf
    rw [List.cons_append, replayEntries_cons, replayEntries_cons]
    generalize (r.receive data s entry).onError _ = reply at hf ⊢
    obtain ⟨t, notices, outcome⟩ := reply
    cases outcome with
    | error failure' => rfl
    | ok a =>
      have hrest : (r.replayEntries data entries t).outcome = .error failure := hf
      simp only [Reply.andThen, ih hrest]

theorem receive_unlogged (r : Reader σ) (data : ByteArray) (s : σ) (entry : Entry) :
    r.traced.receive data ([], s) entry = (r.receive data s entry).mapState fun s => ([], s) := by
  rw [receive_traced_eq]
  rfl

/-- Loggers pass complaints on. -/
theorem receive_traced_complaint (r : Reader σ) (data : ByteArray) (s : σ) (loggers : List Logger)
    {message : String} (he : entry.event = .malformed message) :
    r.traced.receive data (loggers, s) entry =
      (r.receive data s entry).mapState fun s => (loggers, s) := by
  rw [receive_traced_eq, he, Logger.showAll_malformed]
  rfl

theorem replay_unlogged (r : Reader σ) (data : ByteArray) (entries : List Entry) (s : σ) :
    (r.traced.replayEntries data entries ([], s)).mapState Prod.snd =
      r.replayEntries data entries s := by
  induction entries generalizing s with
  | nil => rfl
  | cons entry entries ih =>
    rw [replayEntries_cons, replayEntries_cons, receive_unlogged]
    obtain ⟨t, notices, outcome⟩ := r.receive data s entry
    cases outcome with
    | error failure => cases failure <;> rfl
    | ok a =>
      show Reply.after notices ((r.traced.replayEntries data entries ([], t)).mapState Prod.snd) =
        Reply.after notices (r.replayEntries data entries t)
      rw [ih]

/-- Reading is replaying into a reader behind loggers, of which there may be none. -/
theorem read_eq (r : Reader σ) (options : ReadOptions) (data : ByteArray) (stream : Stream)
    (s : σ) : r.read options data stream s =
      ((r.traced.replayEntries data (stream.told options.debugNames)
        (options.loggers, s)).mapState Prod.snd).after
          [.readBegun data.size options.traced options.debugNames] := by
  obtain ⟨traced, debugNames⟩ := options
  cases traced with
  | true => rfl
  | false => exact congrArg (Reply.after _) (replay_unlogged r data (stream.told debugNames) s).symm

theorem refines_watched (r : Reader σ) : r.watched.Refines r Prod.fst := by
  intro data t entry
  rw [receive_watched]
  rfl

/-- A reader that does not get through some entries does not hear of what comes behind them, with or
without a trace. -/
theorem read_of_not_passes {options : ReadOptions} {stream cut : Stream}
    (htold : stream.told options.debugNames = cut.told options.debugNames ++ rest)
    (hn : ∀ t, ¬ r.Passes data s (cut.told options.debugNames) t) :
    r.read options data stream s = r.read options data cut s := by
  rw [read_eq, read_eq, htold]
  cases ho : (r.traced.replayEntries data (cut.told options.debugNames)
    (options.loggers, s)).outcome with
  | ok => exact absurd (passes_iff.mpr (Prod.ext ho rfl)).of_traced (hn _)
  | error failure => rw [replayEntries_append_of_error ho]

/-- Loggers let entries through at which the reader behind them succeeds, or there is a fault. -/
theorem Passes.traced_or_fault {t : σ} (hp : r.Passes data s entries t) (loggers : List Logger) :
    (∃ loggers', r.traced.Passes data (loggers, s) entries (loggers', t)) ∨
      loggers ≠ [] ∧ ∃ fault,
        (r.traced.replayEntries data entries (loggers, s)).outcome = .error (.fault fault) := by
  induction hp generalizing loggers with
  | nil => exact .inl ⟨loggers, .nil⟩
  | @cons s s' _ entry entries hr _ ih =>
    have hreceive := receive_traced_eq r data s loggers entry
    unfold behind at hreceive
    split at hreceive
    · have hok : (r.traced.receive data (loggers, s) entry).result =
          (.ok (), ((Logger.showAll entry.event loggers).loggers, s')) := by
        rw [hreceive]
        exact Reply.result_mapState (fun s => (_, s)) hr
      rcases ih (Logger.showAll entry.event loggers).loggers with ⟨loggers', hp⟩ | ⟨hne, fault, hf⟩
      · exact .inl ⟨loggers', .cons hok hp⟩
      · refine .inr ⟨?_, fault, (congrArg Prod.fst (replayEntries_cons_ok hok)).trans hf⟩
        rintro rfl
        exact hne rfl
    · next hthrough =>
      refine .inr ⟨?_, .negativeIndent, ?_⟩
      · rintro rfl
        exact hthrough rfl
      · have hfault : (r.traced.receive data (loggers, s) entry).result =
            (.error (.fault .negativeIndent),
              ((Logger.showAll entry.event loggers).loggers, s)) := by
          rw [hreceive]
          rfl
        exact congrArg Prod.fst (replayEntries_cons_error hfault)

/-! ## What is received -/

/-- What a reader has received when reading ends. -/
def received (r : Reader σ) (options : ReadOptions) (data : ByteArray) (stream : Stream)
    (s : σ) : List Entry :=
  (r.watched.read options data stream (s, [])).state.2

/-- A reader receives what loggers let through. -/
theorem receive_watched_traced (r : Reader σ) (data : ByteArray) (s : σ) (loggers : List Logger)
    (received : List Entry) (entry : Entry) :
    r.watched.traced.receive data (loggers, s, received) entry =
      (r.traced.receive data (loggers, s) entry).mapState fun ts => (ts.1, ts.2, received ++
        if (Logger.showAll entry.event loggers).through then [entry] else []) := by
  rw [receive_traced_eq, receive_traced_eq]
  unfold behind
  split
  · rw [receive_watched]
    rfl
  · rw [List.append_nil]
    rfl

theorem through_of_ok (hr : (r.traced.receive data (loggers, s) entry).outcome = .ok ()) :
    (Logger.showAll entry.event loggers).through = true := by
  rw [receive_traced_eq] at hr
  unfold behind at hr
  split at hr
  · assumption
  · cases hr

/-- What gets past loggers is received. -/
theorem Passes.watched_traced (hp : r.traced.Passes data ts entries ts') (received : List Entry) :
    r.watched.traced.Passes data (ts.1, ts.2, received) entries
      (ts'.1, ts'.2, received ++ entries) := by
  induction hp generalizing received with
  | nil =>
    rw [List.append_nil]
    exact .nil
  | @cons ts _ _ entry _ hr _ ih =>
    have hreceive := receive_watched_traced r data ts.2 ts.1 received entry
    rw [through_of_ok (congrArg Prod.fst hr), if_pos rfl] at hreceive
    rw [List.append_cons]
    refine .cons ?_ (ih _)
    rw [hreceive]
    exact Reply.result_mapState _ hr

/-- What a reader behind loggers has received when something has failed: what was let through. -/
theorem Passes.received_eq {failure : Failure} (hp : r.traced.Passes data ts passed ts')
    (hf : (r.traced.receive data ts' last).outcome = .error failure) (rest : List Entry) :
    (r.watched.traced.replayEntries data (passed ++ last :: rest) (ts.1, ts.2, [])).state.2.2 =
      passed ++ if (Logger.showAll last.event ts'.1).through then [last] else [] := by
  have hlast := receive_watched_traced r data ts'.2 ts'.1 passed last
  have hreplay := (hp.watched_traced []).replay_append (last :: rest)
  rw [List.nil_append,
    replayEntries_cons_error (Prod.ext ((congrArg Reply.outcome hlast).trans hf) rfl)] at hreplay
  exact (congrArg (·.2.2.2) hreplay).trans (congrArg (·.state.2.2) hlast)

theorem received_eq (r : Reader σ) (options : ReadOptions) (data : ByteArray) (stream : Stream)
    (s : σ) : r.received options data stream s =
      (r.watched.traced.replayEntries data (stream.told options.debugNames)
        (options.loggers, s, [])).state.2.2 := by
  rw [received, read_eq]
  rfl

/-- Nothing is received but what is told, in the order of the entries. -/
theorem received_isPrefix (r : Reader σ) (options : ReadOptions) (data : ByteArray)
    (stream : Stream) (s : σ) :
    r.received options data stream s <+: stream.told options.debugNames := by
  obtain ⟨delivered, ⟨outcome, ts⟩, hd⟩ := r.traced.exists_delivers data (options.loggers, s)
    (stream.told options.debugNames)
  rw [received_eq]
  generalize stream.told options.debugNames = told at hd ⊢
  cases hd with
  | all hp =>
    have hreceived : (r.watched.traced.replayEntries data delivered
        (options.loggers, s, [])).state.2.2 = delivered :=
      congrArg (·.2.2.2) (passes_iff.mp (hp.watched_traced []))
    exact ⟨[], (List.append_nil _).trans hreceived⟩
  | stopped hp hf =>
    rw [hp.received_eq (congrArg Prod.fst hf)]
    refine (List.prefix_append_right_inj _).mpr ?_
    split
    · exact (List.prefix_cons_inj _).mpr List.nil_prefix
    · exact List.nil_prefix

end Reader

end WasmDecode
