import WasmDecode.Trace

/-!
# What a reader receives

Entries are handed to a reader one by one, up to the first that fails. What a reader receives is
found out by watching it, which makes no difference to the reader.

* `Reader.Passes`: all entries of a list succeed.
* `Reader.Delivers`: which entries are delivered, and how it ends; `Reader.exists_delivers` says
  that every replay is of this kind.
* `Reader.Refines`: one reader is another one that keeps more in its states.
* `Reader.watched`: a reader that keeps all that it receives; `Reader.Delivers.replay_watched` says
  that this is what is delivered.
-/

namespace WasmDecode

/-- The entries of a stream that a reader is told. -/
def Stream.told (s : Stream) (debugNames : Bool) : List Entry :=
  s.entries.toList.filter fun entry => debugNames || !entry.event.isDebugName

theorem Stream.map_told (s : Stream) (debugNames : Bool) :
    (s.told debugNames).map Entry.event = (s.entries.toList.map Entry.event).filter fun e =>
      debugNames || !e.isDebugName := by
  rw [told, List.filter_map]
  rfl

theorem Stream.told_true (s : Stream) : s.told true = s.entries.toList :=
  List.filter_eq_self.mpr fun _ _ => rfl

namespace Reply

variable {σ τ α β : Type} {reply : Reply σ α} {next : σ → α → Reply σ β}

/-- A reply without its notices. -/
def result (reply : Reply σ α) : Except Failure α × σ := (reply.outcome, reply.state)

theorem result_mapState (f : σ → τ) {outcome : Except Failure α} {s : σ}
    (h : reply.result = (outcome, s)) : (reply.mapState f).result = (outcome, f s) := by
  obtain ⟨rfl, rfl⟩ := Prod.mk.inj h
  rfl

theorem result_onError (say : Error → List Notice) : (reply.onError say).result = reply.result := by
  unfold onError
  split <;> rfl

theorem result_andThen_ok {a : α} {s : σ} (h : reply.result = (.ok a, s)) :
    (reply.andThen next).result = (next s a).result := by
  obtain ⟨hok, rfl⟩ := Prod.mk.inj h
  simp only [andThen, hok]
  rfl

theorem result_andThen_error {failure : Failure} {s : σ} (h : reply.result = (.error failure, s)) :
    (reply.andThen next).result = (.error failure, s) := by
  obtain ⟨herror, rfl⟩ := Prod.mk.inj h
  simp only [andThen, herror]
  rfl

/-- What goes on succeeds if both of its parts do. -/
theorem outcome_andThen_eq_ok {b : β} : (reply.andThen next).outcome = .ok b ↔
    ∃ s a, reply.result = (.ok a, s) ∧ (next s a).outcome = .ok b := by
  obtain ⟨s, notices, outcome⟩ := reply
  cases outcome with
  | ok a =>
    refine ⟨fun h => ⟨s, a, rfl, h⟩, ?_⟩
    rintro ⟨_, _, hr, h⟩
    cases hr
    exact h
  | error failure =>
    refine ⟨fun h => (nomatch h), ?_⟩
    rintro ⟨_, _, hr, _⟩
    cases hr

/-- Actions that agree on what they keep, and go on with actions that do. -/
theorem result_andThen_congr {f : σ → τ} {reply' : Reply τ α} {next' : τ → α → Reply τ β}
    (h : (reply.mapState f).result = reply'.result)
    (hnext : ∀ s a, ((next s a).mapState f).result = (next' (f s) a).result) :
    ((reply.andThen next).mapState f).result = (reply'.andThen next').result := by
  obtain ⟨s, notices, outcome⟩ := reply
  cases outcome with
  | ok a =>
    rw [result_andThen_ok h.symm]
    exact hnext s a
  | error failure =>
    rw [result_andThen_error h.symm]
    rfl

end Reply

namespace Reader

variable {σ τ : Type} {r : Reader σ} {r' : Reader τ} {f : τ → σ} {data : ByteArray} {s t : σ}
  {entry : Entry} {entries told delivered : List Entry} {failure : Failure}
  {result : Except Failure Unit × σ}

theorem dispatch_eq_handle {c : Cursor} {e : Event}
    (he : ∀ message, e ≠ .malformed message) : r.dispatch s c e = r.handle s c e := by
  cases e with
  | malformed message => exact absurd rfl (he message)
  | _ => rfl

/-- Hands an entry to a reader. -/
def receive (r : Reader σ) (data : ByteArray) (s : σ) (entry : Entry) : Reply σ Unit :=
  r.dispatch s ⟨data, entry.offset⟩ entry.event

/-- Hands entries to a reader, in order, whether or not they fail. -/
def receiveAll (r : Reader σ) (data : ByteArray) (s : σ) (entries : List Entry) : σ :=
  entries.foldl (fun s entry => (r.receive data s entry).state) s

/-- All entries of a list succeed, and lead from one state of a reader to another. -/
inductive Passes (r : Reader σ) (data : ByteArray) : σ → List Entry → σ → Prop
  | nil {s : σ} : Passes r data s [] s
  | cons {s s' t : σ} {entry : Entry} {entries : List Entry}
    (h : (r.receive data s entry).result = (.ok (), s')) (hs : Passes r data s' entries t) :
    Passes r data s (entry :: entries) t

/-- Of what is told to a reader, this is delivered: all if all succeeds, and otherwise all up to the
first entry that fails. -/
inductive Delivers (r : Reader σ) (data : ByteArray) (s : σ) :
    List Entry → List Entry → Except Failure Unit × σ → Prop
  | all {told : List Entry} {t : σ} (h : r.Passes data s told t) :
    Delivers r data s told told (.ok (), t)
  | stopped {passed rest : List Entry} {last : Entry} {t t' : σ} {failure : Failure}
    (h : r.Passes data s passed t)
    (hf : (r.receive data t last).result = (.error failure, t')) :
    Delivers r data s (passed ++ last :: rest) (passed ++ [last]) (.error failure, t')

/-! ## Replays -/

theorem replayEntries_cons_ok (h : (r.receive data s entry).result = (.ok (), t)) :
    (r.replayEntries data (entry :: entries) s).result =
      (r.replayEntries data entries t).result :=
  Reply.result_andThen_ok ((Reply.result_onError _).trans h)

theorem replayEntries_cons_error (h : (r.receive data s entry).result = (.error failure, t)) :
    (r.replayEntries data (entry :: entries) s).result = (.error failure, t) :=
  Reply.result_andThen_error ((Reply.result_onError _).trans h)

/-- What succeeds makes way for the rest. -/
theorem Passes.replay_append (h : r.Passes data s entries t) (rest : List Entry) :
    (r.replayEntries data (entries ++ rest) s).result = (r.replayEntries data rest t).result := by
  induction h with
  | nil => rfl
  | cons h _ ih => exact (replayEntries_cons_ok h).trans ih

theorem Delivers.replay (h : r.Delivers data s told delivered result) :
    (r.replayEntries data told s).result = result := by
  cases h with
  | all h =>
    have hreplay := h.replay_append []
    rwa [List.append_nil] at hreplay
  | stopped h hf => exact (h.replay_append _).trans (replayEntries_cons_error hf)

/-- Every replay delivers some of what is told. -/
theorem exists_delivers (r : Reader σ) (data : ByteArray) (s : σ) (told : List Entry) :
    ∃ delivered result, r.Delivers data s told delivered result := by
  induction told generalizing s with
  | nil => exact ⟨_, _, .all .nil⟩
  | cons entry told ih =>
    cases h : (r.receive data s entry).result with
    | mk outcome s' =>
      cases outcome with
      | error failure => exact ⟨_, _, .stopped .nil h⟩
      | ok u =>
        obtain ⟨delivered, result, hd⟩ := ih s'
        cases hd with
        | all hp => exact ⟨_, _, .all (.cons h hp)⟩
        | stopped hp hf => exact ⟨_, _, .stopped (.cons h hp) hf⟩

/-- All entries succeed if their replay does. -/
theorem passes_iff :
    r.Passes data s entries t ↔ (r.replayEntries data entries s).result = (.ok (), t) := by
  refine ⟨fun h => (Delivers.all h).replay, fun h => ?_⟩
  obtain ⟨delivered, result, hd⟩ := r.exists_delivers data s entries
  obtain rfl := hd.replay.symm.trans h
  cases hd with
  | all hp => exact hp

/-! ## Readers that keep more -/

/-- One reader does what another one does, and keeps more in its states. -/
def Refines (r' : Reader τ) (r : Reader σ) (f : τ → σ) : Prop :=
  ∀ data t entry, ((r'.receive data t entry).mapState f).result = (r.receive data (f t) entry).result

namespace Refines

theorem receive (h : r'.Refines r f) {t t' : τ} {outcome : Except Failure Unit}
    (hr : (r'.receive data t entry).result = (outcome, t')) :
    (r.receive data (f t) entry).result = (outcome, f t') :=
  (h data t entry).symm.trans (Reply.result_mapState f hr)

theorem passes (h : r'.Refines r f) {t t' : τ} (hp : r'.Passes data t entries t') :
    r.Passes data (f t) entries (f t') := by
  induction hp with
  | nil => exact .nil
  | cons hr _ ih => exact .cons (h.receive hr) ih

theorem delivers (h : r'.Refines r f) {t t' : τ} {outcome : Except Failure Unit}
    (hd : r'.Delivers data t told delivered (outcome, t')) :
    r.Delivers data (f t) told delivered (outcome, f t') := by
  cases hd with
  | all hp => exact .all (h.passes hp)
  | stopped hp hf => exact .stopped (h.passes hp) (h.receive hf)

theorem replay (h : r'.Refines r f) (data : ByteArray) (t : τ) (told : List Entry) :
    ((r'.replayEntries data told t).mapState f).result =
      (r.replayEntries data told (f t)).result := by
  obtain ⟨delivered, ⟨outcome, t'⟩, hd⟩ := r'.exists_delivers data t told
  rw [(h.delivers hd).replay]
  exact Reply.result_mapState f hd.replay

end Refines

/-! ## Watching -/

/-- A reader that keeps all that it receives. -/
def watched (r : Reader σ) : Reader (σ × List Entry) where
  handle := fun (s, received) c e =>
    (r.handle s c e).mapState fun s => (s, received ++ [⟨c.offset, e⟩])
  onMalformed := fun (s, received) c message =>
    let v := r.onMalformed s c message
    ⟨(v.state, received ++ [⟨c.offset, .malformed message⟩]), v.notices, v.goOn⟩

theorem receive_watched {received : List Entry} : r.watched.receive data (s, received) entry =
    (r.receive data s entry).mapState fun s => (s, received ++ [entry]) := by
  obtain ⟨offset, e⟩ := entry
  cases e <;> rfl

theorem result_watched {received : List Entry} {outcome : Except Failure Unit}
    (h : (r.receive data s entry).result = (outcome, t)) :
    (r.watched.receive data (s, received) entry).result = (outcome, (t, received ++ [entry])) := by
  rw [receive_watched]
  exact Reply.result_mapState _ h

theorem Passes.watched (h : r.Passes data s entries t) (received : List Entry) :
    r.watched.Passes data (s, received) entries (t, received ++ entries) := by
  induction h generalizing received with
  | nil =>
    rw [List.append_nil]
    exact .nil
  | cons h _ ih =>
    rw [List.append_cons]
    exact .cons (result_watched h) (ih _)

theorem Delivers.watched {outcome : Except Failure Unit}
    (h : r.Delivers data s told delivered (outcome, t)) :
    r.watched.Delivers data (s, []) told delivered (outcome, (t, delivered)) := by
  cases h with
  | all hp => exact .all (hp.watched [])
  | stopped hp hf => exact .stopped (hp.watched []) (result_watched hf)

/-- **What is delivered is received**, in the order of the entries, and nothing else is. -/
theorem Delivers.replay_watched {outcome : Except Failure Unit}
    (h : r.Delivers data s told delivered (outcome, t)) :
    (r.watched.replayEntries data told (s, [])).result = (outcome, (t, delivered)) :=
  h.watched.replay

end Reader
end WasmDecode
