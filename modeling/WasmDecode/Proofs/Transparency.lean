import WasmDecode.Proofs.Delivery
import WasmDecode.Reader.Recorder

/-!
# Traces make no difference

A logger in front of a reader passes on every event as it is, so that the reader does the same as
without it. It only has to be able to show the event, and it is unless more modules and sections
have ended than have begun.

* `Event.begins`, `Event.ends`: the events that begin and end modules and sections.
* `Event.nests`: whether the events of modules and sections are balanced so far.
* `Event.Nested`: the same as a statement about every prefix; `Event.nested_iff`.
* `Logger.observe_of_nests`: a logger can show such events.
* `Reader.Passes.of_traced`: what succeeds behind loggers succeeds without them.
* `Reader.Delivers.traced`: a reader behind a logger is delivered the same, and ends in the same
  way.
* `Reader.read_transparent`: reading with a trace does what reading without one does.
-/

namespace WasmDecode

namespace Event

/-- Whether an event begins a module or a section. -/
def begins : Event → Bool
  | beginModule _ | beginCustom .. | beginSection .. => true
  | _ => false

/-- Whether an event ends a module or a section. -/
def ends : Event → Bool
  | endModule | endCustom | endSection _ => true
  | _ => false

/-- A logger indents further behind just the events that begin something. -/
theorem begins_eq (e : Event) : e.begins = decide (e.nesting = .opens) := by
  cases e <;> rfl

/-- A logger indents less from just the events on that end something. -/
theorem ends_eq (e : Event) : e.ends = decide (e.nesting = .closes) := by
  cases e <;> rfl

end Event

/-- Whether nothing ends that has not begun, if `depth` modules and sections are open. -/
def Event.nests (depth : Nat) : List Event → Bool
  | [] => true
  | e :: events =>
    match e.nesting, depth with
    | .opens, _ => nests (depth + 1) events
    | .level, _ => nests depth events
    | .closes, depth + 1 => nests depth events
    | .closes, 0 => false

namespace Event

/-- At no point have more modules and sections ended than have begun. -/
def Nested (events : List Event) : Prop :=
  ∀ before, before <+: events → before.countP ends ≤ before.countP begins

/-- Nothing ends that has not begun, where `depth` modules and sections are open, if and only if at
most `depth` more end than begin, at every point. -/
theorem nests_iff {depth : Nat} {events : List Event} : nests depth events = true ↔
    ∀ before, before <+: events → before.countP ends ≤ depth + before.countP begins := by
  induction events generalizing depth with
  | nil => simp [nests]
  | cons e events ih =>
    -- A prefix is empty, or it is the event and a prefix of the others.
    have hcons : (∀ before, before <+: e :: events →
        before.countP ends ≤ depth + before.countP begins) ↔ ∀ before, before <+: events →
          (e :: before).countP ends ≤ depth + (e :: before).countP begins := by
      refine ⟨fun h before hb => h _ (List.prefix_cons_inj e |>.mpr hb), fun h before hb => ?_⟩
      rcases List.prefix_cons_iff.mp hb with rfl | ⟨before', rfl, hb'⟩
      · exact Nat.zero_le _
      · exact h before' hb'
    rw [hcons]
    cases he : e.nesting with
    | opens =>
      have hn : nests depth (e :: events) = nests (depth + 1) events := by simp [nests, he]
      rw [hn, ih]
      refine forall_congr' fun before => imp_congr_right fun _ => ?_
      simp [begins_eq, ends_eq, he]
      omega
    | level =>
      have hn : nests depth (e :: events) = nests depth events := by simp [nests, he]
      rw [hn, ih]
      refine forall_congr' fun before => imp_congr_right fun _ => ?_
      simp [begins_eq, ends_eq, he]
    | closes =>
      cases depth with
      | zero =>
        have hn : nests 0 (e :: events) = false := by simp [nests, he]
        rw [hn]
        refine iff_of_false Bool.false_ne_true fun h => ?_
        have hnil := h [] List.nil_prefix
        simp [begins_eq, ends_eq, he] at hnil
      | succ depth =>
        have hn : nests (depth + 1) (e :: events) = nests depth events := by simp [nests, he]
        rw [hn, ih]
        refine forall_congr' fun before => imp_congr_right fun _ => ?_
        simp [begins_eq, ends_eq, he]
        omega

theorem nested_iff {events : List Event} : Nested events ↔ nests 0 events = true := by
  simp only [nests_iff, Nat.zero_add, Nested]

end Event

/-- A logger shows every event at a place where the event may stand. -/
theorem Logger.observe_of_nests {l : Logger} {depth : Nat} {e : Event} {events : List Event}
    (hl : l.indent = depth * l.step) (hn : Event.nests depth (e :: events) = true) :
    ∃ (l' : Logger) (line : Option String) (depth' : Nat), l.observe e = some (l', line) ∧
      l'.indent = depth' * l'.step ∧ Event.nests depth' events = true := by
  unfold observe
  unfold Event.nests at hn
  cases he : e.nesting with
  | opens =>
    rw [he] at hn
    refine ⟨_, _, depth + 1, rfl, ?_, hn⟩
    rw [hl, Nat.succ_mul]
  | level =>
    rw [he] at hn
    exact ⟨_, _, depth, rfl, hl, hn⟩
  | closes =>
    rw [he] at hn
    cases depth with
    | zero => cases hn
    | succ depth =>
      rw [Nat.succ_mul] at hl
      refine ⟨_, _, depth, if_pos (by omega), ?_, hn⟩
      show l.indent - l.step = depth * l.step
      omega

namespace Reader

variable {σ : Type} {r : Reader σ} {data : ByteArray} {s t : σ} {l : Logger} {depth : Nat}
  {entry : Entry} {entries told delivered : List Entry} {events : List Event}
  {outcome : Except Failure Unit}

/-- A logger shows an event at a place where the event may stand, and passes it on. -/
theorem receive_traced (r : Reader σ) (data : ByteArray) (s : σ) (hl : l.indent = depth * l.step)
    (hn : Event.nests depth (entry.event :: events) = true) :
    ∃ (l' : Logger) (depth' : Nat), (r.traced.receive data ([l], s) entry).result =
        ((r.receive data s entry).mapState fun s => ([l'], s)).result ∧
      l'.indent = depth' * l'.step ∧ Event.nests depth' events = true := by
  by_cases he : ∃ message, entry.event = .malformed message
  · -- Complaints of the scanner are not shown.
    obtain ⟨message, he⟩ := he
    rw [he] at hn
    refine ⟨l, depth, ?_, hl, hn⟩
    simp only [receive, he]
    rfl
  · have he' : ∀ message, entry.event ≠ .malformed message := not_exists.mp he
    obtain ⟨l', line, depth', hobserve, hl', hn'⟩ := Logger.observe_of_nests hl hn
    refine ⟨l', depth', ?_, hl', hn'⟩
    simp only [receive, dispatch_eq_handle he', traced, handleTraced, hobserve]
    rfl

theorem Passes.traced (hp : r.Passes data s entries t) (hl : l.indent = depth * l.step)
    (hn : Event.nests depth (entries.map Entry.event ++ events) = true) :
    ∃ (l' : Logger) (depth' : Nat), r.traced.Passes data ([l], s) entries ([l'], t) ∧
      l'.indent = depth' * l'.step ∧ Event.nests depth' events = true := by
  induction hp generalizing l depth with
  | nil => exact ⟨l, depth, .nil, hl, hn⟩
  | cons hr _ ih =>
    obtain ⟨l₁, depth₁, hr₁, hl₁, hn₁⟩ := receive_traced r data _ hl hn
    obtain ⟨l', depth', hp', hl', hn'⟩ := ih hl₁ hn₁
    exact ⟨l', depth', .cons (hr₁.trans (Reply.result_mapState _ hr)) hp', hl', hn'⟩

theorem handle_of_handleTraced {c : Cursor} {e : Event} {loggers loggers' : List Logger}
    (h : (r.handleTraced c e loggers s).result = (.ok (), (loggers', t))) :
    (r.handle s c e).result = (.ok (), t) := by
  induction loggers generalizing loggers' with
  | nil =>
    obtain ⟨ho, hs⟩ := Prod.mk.inj h
    exact Prod.ext ho (Prod.mk.inj hs).2
  | cons l loggers ih =>
    unfold handleTraced at h
    split at h
    · obtain ⟨ho, hs⟩ := Prod.mk.inj h
      exact ih (Prod.ext ho (Prod.ext rfl (Prod.mk.inj hs).2))
    · cases h

/-- What succeeds behind loggers succeeds without them. -/
theorem receive_of_traced {ts ts' : List Logger × σ}
    (h : (r.traced.receive data ts entry).result = (.ok (), ts')) :
    (r.receive data ts.2 entry).result = (.ok (), ts'.2) := by
  obtain ⟨offset, e⟩ := entry
  cases e with
  | malformed message =>
    obtain ⟨ho, rfl⟩ := Prod.mk.inj h
    exact Prod.ext ho rfl
  | _ => exact handle_of_handleTraced h

theorem Passes.of_traced {ts ts' : List Logger × σ} (hp : r.traced.Passes data ts entries ts') :
    r.Passes data ts.2 entries ts'.2 := by
  induction hp with
  | nil => exact .nil
  | cons hr _ ih => exact .cons (receive_of_traced hr) ih

/-- **Behind a logger** a reader is delivered the same, and ends in the same way. -/
theorem Delivers.traced (hd : r.Delivers data s told delivered (outcome, t))
    (hn : Event.nests 0 (delivered.map Entry.event) = true) :
    ∃ l, r.traced.Delivers data ([{}], s) told delivered (outcome, ([l], t)) := by
  have hstart : ({} : Logger).indent = 0 * ({} : Logger).step := rfl
  cases hd with
  | all hp =>
    rw [← List.append_nil (told.map Entry.event)] at hn
    obtain ⟨l, -, hp', -⟩ := hp.traced hstart hn
    exact ⟨l, .all hp'⟩
  | stopped hp hf =>
    rw [List.map_append] at hn
    obtain ⟨l, depth, hp', hl, hn'⟩ := hp.traced hstart hn
    obtain ⟨l', -, hf', -⟩ := receive_traced r data _ hl hn'
    exact ⟨l', .stopped hp' (hf'.trans (Reply.result_mapState _ hf))⟩

/-- A reader that never faults does not fault on what it is told. -/
theorem Delivers.ne_fault (hd : r.Delivers data s told delivered (outcome, t))
    (hr : ∀ s c e fault, (r.handle s c e).outcome ≠ .error (.fault fault)) (fault : Fault) :
    outcome ≠ .error (.fault fault) := by
  cases hd with
  | all => rintro ⟨⟩
  | @stopped _ _ last t' _ failure hp hf =>
    rintro ⟨⟩
    have ho := (Prod.mk.inj hf).1
    by_cases he : ∃ message, last.event = .malformed message
    · obtain ⟨message, he⟩ := he
      simp only [receive, he, dispatch] at ho
      split at ho <;> cases ho
    · rw [receive, dispatch_eq_handle (not_exists.mp he)] at ho
      exact hr _ _ _ _ ho

/-- Reading with a trace, as far as the outcome and the reader are concerned. -/
theorem Delivers.read_traced {debugNames : Bool} {stream : Stream}
    (hd : r.Delivers data s (stream.told debugNames) delivered (outcome, t))
    (hn : Event.nests 0 (delivered.map Entry.event) = true) :
    (r.read { traced := true, debugNames } data stream s).result = (outcome, t) := by
  obtain ⟨l, hd'⟩ := hd.traced hn
  exact Reply.result_mapState Prod.snd hd'.replay

/-- **A trace makes no difference.** If at no point of what is delivered without a trace more
modules and sections have ended than have begun, then reading with a trace has the same outcome and
leaves the reader in the same state, and the reader has received the same. If no event makes the
reader fault, reading with a trace does not fault either. -/
theorem read_transparent (r : Reader σ) (debugNames : Bool) (data : ByteArray) (stream : Stream)
    (s : σ) (hn : Event.Nested
      ((r.watched.read { debugNames } data stream (s, [])).state.2.map Entry.event)) :
    let plain := r.read { debugNames } data stream s
    let traced := r.read { traced := true, debugNames } data stream s
    let watched := r.watched.read { debugNames } data stream (s, [])
    let watchedTraced := r.watched.read { traced := true, debugNames } data stream (s, [])
    traced.outcome = plain.outcome ∧ traced.state = plain.state ∧
      watchedTraced.outcome = watched.outcome ∧ watchedTraced.state = watched.state ∧
      ((∀ s c e fault, (r.handle s c e).outcome ≠ .error (.fault fault)) →
        ∀ fault, traced.outcome ≠ .error (.fault fault)) := by
  intro plain traced watched watchedTraced
  obtain ⟨delivered, ⟨outcome, t⟩, hd⟩ := r.exists_delivers data s (stream.told debugNames)
  have hreceived : watched.result = (outcome, (t, delivered)) := hd.replay_watched
  have hnests : Event.nests 0 (delivered.map Entry.event) = true := by
    rw [← Event.nested_iff]
    have hstate : watched.state.2 = delivered := congrArg (·.2.2) hreceived
    exact hstate ▸ hn
  have hplain : plain.result = (outcome, t) := hd.replay
  have htraced : traced.result = (outcome, t) := hd.read_traced hnests
  have hwatched : watchedTraced.result = (outcome, (t, delivered)) :=
    hd.watched.read_traced hnests
  obtain ⟨hplain, hplain'⟩ := Prod.mk.inj hplain
  obtain ⟨htraced, htraced'⟩ := Prod.mk.inj htraced
  refine ⟨htraced.trans hplain.symm, htraced'.trans hplain'.symm, ?_, ?_, fun hr fault => ?_⟩
  · exact (Prod.mk.inj hwatched).1.trans (Prod.mk.inj hreceived).1.symm
  · exact (Prod.mk.inj hwatched).2.trans (Prod.mk.inj hreceived).2.symm
  · exact htraced ▸ hd.ne_fault hr fault

/-- A recorder stops at a complaint of the scanner, behind which modules end that have not begun.
The section of names is left out. -/
theorem read_transparent_recorder :
    let stream : Stream := ⟨#[⟨0, .beginModule 1⟩, ⟨8, .beginSection .names 3⟩,
      ⟨9, .names (.functionCount 0)⟩, ⟨10, .beginSection .types 2⟩, ⟨11, .endSection .types⟩,
      ⟨12, .malformed "unexpected end"⟩, ⟨13, .endModule⟩, ⟨14, .endModule⟩]⟩
    let plain := (recorder false).read {} .empty stream {}
    let traced := (recorder false).read { traced := true } .empty stream {}
    (∃ e, plain.outcome = .error (.error e)) ∧ plain.state.size = 4 ∧
      traced.outcome = plain.outcome ∧ traced.state = plain.state ∧
      ∀ fault, traced.outcome ≠ .error (.fault fault) := by
  intro stream plain traced
  obtain ⟨ho, hs, -, -, hf⟩ := read_transparent (recorder false) false .empty stream {}
    (Event.nested_iff.mpr rfl)
  have hr (s : Stream) (c : Cursor) (e : Event) (fault : Fault) :
      ((recorder false).handle s c e).outcome ≠ .error (.fault fault) := by
    rintro ⟨⟩
  exact ⟨⟨_, rfl⟩, rfl, ho, hs, hf hr⟩

end Reader
end WasmDecode
