import WasmDecode.Proofs.Delivery
import WasmDecode.Reader.Recorder

/-!
# A recording is what was told

A recorder keeps the entries that it is told, at their offsets and in their order. If it passes over
complaints of the scanner it keeps all of them, and otherwise those up to the first complaint, which
is how it ends then.

* `Entry.complaint?`: the error that a complaint of the scanner is.
* `Stream.upToComplaint`, `Stream.ending`: where a reader stops that passes over no complaint.
* `Reader.replayEntries_recorder`: what a recorder keeps, and how it ends.
* `Reader.recorder_replay`: recording is the identity.
-/

namespace WasmDecode

/-- A complaint of the scanner, as the error that it is for a reader that does not pass over it. -/
def Entry.complaint? (entry : Entry) : Option Error :=
  match entry.event with
  | .malformed message => some ⟨.parse, 4000, message, some entry.offset⟩
  | _ => none

namespace Stream

variable {stream : Stream} {entry : Entry} {entries : List Entry} {debugNames : Bool}

/-- The entries up to the first complaint of the scanner, and with it. -/
def upToComplaint (entries : List Entry) : List Entry :=
  entries.take (entries.findIdx (·.complaint?.isSome) + 1)

/-- The first complaint of the scanner, or success if there is none. -/
def ending (entries : List Entry) : Except Failure Unit :=
  match entries.findSome? Entry.complaint? with
  | none => .ok ()
  | some e => .error (.error e)

theorem upToComplaint_cons_none (h : entry.complaint? = none) :
    upToComplaint (entry :: entries) = entry :: upToComplaint entries := by
  unfold upToComplaint
  rw [List.findIdx_cons, h, Option.isSome_none, cond_false, List.take_succ_cons]

theorem upToComplaint_cons_some {e : Error} (h : entry.complaint? = some e) :
    upToComplaint (entry :: entries) = [entry] := by
  unfold upToComplaint
  rw [List.findIdx_cons, h, Option.isSome_some, cond_true, Nat.zero_add, List.take_succ_cons,
    List.take_zero]

theorem ending_cons_none (h : entry.complaint? = none) :
    ending (entry :: entries) = ending entries := by
  unfold ending
  rw [List.findSome?_cons, h]

theorem ending_cons_some {e : Error} (h : entry.complaint? = some e) :
    ending (entry :: entries) = .error (.error e) := by
  unfold ending
  rw [List.findSome?_cons, h]

/-- There is nothing behind the first complaint that could be cut off once more. -/
theorem upToComplaint_idem (entries : List Entry) :
    upToComplaint (upToComplaint entries) = upToComplaint entries := by
  induction entries with
  | nil => rfl
  | cons entry entries ih =>
    cases h : entry.complaint? with
    | none => rw [upToComplaint_cons_none h, upToComplaint_cons_none h, ih]
    | some e => rw [upToComplaint_cons_some h, upToComplaint_cons_some h]

/-- Nothing that comes after the first complaint changes how it ends. -/
theorem ending_upToComplaint (entries : List Entry) :
    ending (upToComplaint entries) = ending entries := by
  induction entries with
  | nil => rfl
  | cons entry entries ih =>
    cases h : entry.complaint? with
    | none => rw [upToComplaint_cons_none h, ending_cons_none h, ending_cons_none h, ih]
    | some e => rw [upToComplaint_cons_some h, ending_cons_some h, ending_cons_some h]

theorem pushAt_append (s : Stream) (entry : Entry) (entries : List Entry) :
    (s.pushAt entry.offset entry.event).entries ++ entries.toArray =
      s.entries ++ (entry :: entries).toArray := by
  unfold pushAt
  rw [Array.push_eq_append, Array.append_assoc]
  exact congrArg (s.entries ++ ·) (List.toArray_cons entry entries).symm

/-! ## What is told once more -/

theorem told_false (stream : Stream) :
    stream.told false = (stream.entries.filter fun entry => !entry.event.isDebugName).toList := by
  rw [Array.toList_filter]
  rfl

/-- A stream of some of what was told is told as it is, if no more is left out. -/
theorem told_of_sublist (h : entries.Sublist (stream.told debugNames)) (again : Bool) :
    (⟨entries.toArray⟩ : Stream).told (debugNames || again) = entries := by
  refine List.filter_eq_self.mpr fun entry hentry => ?_
  have htold : entry ∈ stream.told debugNames := h.subset hentry
  have hkept := (List.mem_filter.mp htold).2
  rw [Bool.or_right_comm, hkept, Bool.true_or]

end Stream

namespace Reader

variable {entry : Entry} {entries : List Entry} {debugNames : Bool}

/-! ## Recorders -/

/-- What a recorder keeps of what it is told. -/
def recorded (goOn : Bool) (told : List Entry) : List Entry :=
  if goOn then told else Stream.upToComplaint told

/-- How a recorder ends. -/
def recorderEnding (goOn : Bool) (told : List Entry) : Except Failure Unit :=
  if goOn then .ok () else Stream.ending told

/-- A recorder takes in every event but a complaint of the scanner. -/
theorem receive_recorder_none (goOn : Bool) (data : ByteArray) (s : Stream)
    (h : entry.complaint? = none) :
    ((recorder goOn).receive data s entry).result =
      (.ok (), s.pushAt entry.offset entry.event) := by
  obtain ⟨offset, e⟩ := entry
  cases e with
  | malformed message => cases h
  | _ => rfl

/-- A recorder takes in a complaint of the scanner as well, and ends there if it does not go on. -/
theorem receive_recorder_some (goOn : Bool) (data : ByteArray) (s : Stream) {e : Error}
    (h : entry.complaint? = some e) :
    ((recorder goOn).receive data s entry).result =
      (if goOn then .ok () else .error (.error e), s.pushAt entry.offset entry.event) := by
  obtain ⟨offset, e'⟩ := entry
  cases e' with
  | malformed message =>
    obtain rfl := Option.some.inj h
    rfl
  | _ => cases h

theorem recorded_cons_none (goOn : Bool) (h : entry.complaint? = none) :
    recorded goOn (entry :: entries) = entry :: recorded goOn entries := by
  unfold recorded
  rw [Stream.upToComplaint_cons_none h]
  split <;> rfl

theorem recorderEnding_cons_none (goOn : Bool) (h : entry.complaint? = none) :
    recorderEnding goOn (entry :: entries) = recorderEnding goOn entries := by
  unfold recorderEnding
  rw [Stream.ending_cons_none h]

/-- What a recorder keeps goes behind what it has kept before. -/
theorem replayEntries_recorder (goOn : Bool) (data : ByteArray) (told : List Entry) (s : Stream) :
    ((recorder goOn).replayEntries data told s).result =
      (recorderEnding goOn told, ⟨s.entries ++ (recorded goOn told).toArray⟩) := by
  induction told generalizing s with
  | nil =>
    have hkept : recorded goOn [] = [] := by cases goOn <;> rfl
    have hending : recorderEnding goOn [] = .ok () := by cases goOn <;> rfl
    rw [hkept, hending, Array.append_empty]
    rfl
  | cons entry told ih =>
    cases h : entry.complaint? with
    | none =>
      -- Nothing ends here, so that the entry is the first of those that are kept.
      rw [replayEntries_cons_ok (receive_recorder_none goOn data s h), ih, Stream.pushAt_append,
        recorded_cons_none goOn h, recorderEnding_cons_none goOn h]
    | some e =>
      have hreceive := receive_recorder_some goOn data s h
      cases goOn with
      | true =>
        rw [replayEntries_cons_ok hreceive, ih, Stream.pushAt_append]
        rfl
      | false =>
        have hkept : recorded false (entry :: told) = [entry] := Stream.upToComplaint_cons_some h
        have hending : recorderEnding false (entry :: told) = .error (.error e) :=
          Stream.ending_cons_some h
        rw [replayEntries_cons_error hreceive, hkept, hending, ← Stream.pushAt_append,
          Array.append_empty]

/-- What a recorder that is new makes of a stream. -/
theorem replay_recorder (goOn debugNames : Bool) (data : ByteArray) (stream : Stream) :
    ((recorder goOn).replay data debugNames stream {}).result =
      (recorderEnding goOn (stream.told debugNames),
        ⟨(recorded goOn (stream.told debugNames)).toArray⟩) := by
  have h := replayEntries_recorder goOn data (stream.told debugNames) {}
  rwa [Array.empty_append] at h

theorem state_replay_recorder (goOn debugNames : Bool) (data : ByteArray) (stream : Stream) :
    ((recorder goOn).replay data debugNames stream {}).state =
      ⟨(recorded goOn (stream.told debugNames)).toArray⟩ :=
  congrArg Prod.snd (replay_recorder goOn debugNames data stream)

theorem recorded_sublist (goOn : Bool) (told : List Entry) : (recorded goOn told).Sublist told := by
  unfold recorded Stream.upToComplaint
  split
  · exact .refl _
  · exact List.take_sublist _ _

/-- What was recorded is recorded again as it is, and it ends in the same way. -/
theorem recorded_again (goOn : Bool) (told : List Entry) :
    recorded goOn (recorded goOn told) = recorded goOn told ∧
      recorderEnding goOn (recorded goOn told) = recorderEnding goOn told := by
  cases goOn with
  | true => exact ⟨rfl, rfl⟩
  | false => exact ⟨Stream.upToComplaint_idem told, Stream.ending_upToComplaint told⟩

/-- **Recording is the identity.** A recorder that goes on past complaints of the scanner keeps the
stream that it is told, or all of it but the events of the names section. One that does not go on
keeps as much up to the first complaint, and ends with it. So recording what was recorded changes
nothing, and no reader tells a stream from what a recorder that goes on has kept of it. -/
theorem recorder_replay (data : ByteArray) (stream : Stream) :
    ((recorder true).replay data true stream {}).result = (.ok (), stream) ∧
    ((recorder true).replay data false stream {}).result =
      (.ok (), ⟨stream.entries.filter fun entry => !entry.event.isDebugName⟩) ∧
    (∀ debugNames, ((recorder false).replay data debugNames stream {}).result =
      (Stream.ending (stream.told debugNames),
        ⟨(Stream.upToComplaint (stream.told debugNames)).toArray⟩)) ∧
    (∀ goOn debugNames again data',
      ((recorder goOn).replay data' (debugNames || again)
          ((recorder goOn).replay data debugNames stream {}).state {}).result =
        ((recorder goOn).replay data debugNames stream {}).result) ∧
    ∀ debugNames (σ : Type) (r : Reader σ) (data' : ByteArray) (s : σ),
      r.replay data' debugNames ((recorder true).replay data debugNames stream {}).state s =
        r.replay data' debugNames stream s := by
  refine ⟨?_, ?_, ?_, ?_, ?_⟩
  · rw [replay_recorder, Stream.told_true]
    rfl
  · rw [replay_recorder, Stream.told_false]
    rfl
  · intro debugNames
    rw [replay_recorder]
    rfl
  · intro goOn debugNames again data'
    obtain ⟨hkept, hending⟩ := recorded_again goOn (stream.told debugNames)
    rw [replay_recorder, state_replay_recorder, Stream.told_of_sublist (recorded_sublist goOn _),
      hkept, hending, replay_recorder]
  · intro debugNames σ r data' s
    have htold : (⟨(recorded true (stream.told debugNames)).toArray⟩ : Stream).told debugNames =
        stream.told debugNames := by
      have h := Stream.told_of_sublist (recorded_sublist true (stream.told debugNames)) false
      rwa [Bool.or_false] at h
    rw [state_replay_recorder]
    show r.replayEntries data' (Stream.told _ debugNames) s =
      r.replayEntries data' (stream.told debugNames) s
    rw [htold]

end Reader
end WasmDecode
