import WasmDecode.Proofs.Transparency

/-!
# Indentation

A logger indents a line by its step for every module and section that is open, whatever the reader
behind it makes of the events. Loggers that stand behind one another agree on how many are open. An
event that ends a module or section while none is open does not get past a logger with a step: that
logger does not show it, and nobody behind it hears of it.

* `Event.hasLine`: the events that are shown.
* `Event.openCount`: how many modules and sections are open after some events. `Event.depthAfter` is
  the same for one more event, and `Event.lineDepth` is the depth at which its line stands.
* `Logger.showAll`: what loggers do about an event. `Reader.receive_traced_eq` says that the reader
  behind them has no part in it.
* `Logger.showAll_of_blocked`, `Logger.showAll_of_not_blocked`: the two things that loggers may do
  which are indented for one depth.
* `Reader.InStep`: loggers are indented for what has got past them. `InStep.receive` is one more
  event, and `InStep.receiveAll` any events.
* `Reader.traced_indented`: the trace of a single logger.
* `Reader.traced_inStep`: the trace of a stack of loggers.
-/

namespace WasmDecode

/-! ## Depths -/

namespace Event

/-- Whether there is a line for an event. There is none for the complaints of the scanner, the
headers of sections, the encoded form of instructions, and the `end` of a body. -/
def hasLine : Event → Bool
  | malformed _ | sectionHeader .. | opcode _ | immediates _ | endFunc => false
  | _ => true

/-- How many of the modules and sections that have begun have not ended. -/
def openCount (events : List Event) : Nat := events.countP begins - events.countP ends

/-- How many modules and sections are open after an event, if `depth` are before it. -/
def depthAfter (e : Event) (depth : Nat) : Nat :=
  if e.begins then depth + 1 else if e.ends then depth - 1 else depth

/-- How many of the modules and sections that are open contain an event, if `depth` are open before
it. What an event begins or ends does not contain it. -/
def lineDepth (e : Event) (depth : Nat) : Nat := min depth (e.depthAfter depth)

/-- The line of an event behind so many spaces. -/
def indented (e : Event) (spaces : Nat) : String :=
  String.ofList (List.replicate spaces ' ') ++ (e.eventName ++ e.details)

variable {e : Event} {events : List Event}

/-- A logger writes a line for just these events. -/
theorem isSilent_eq (e : Event) : e.isSilent = !e.hasLine := by
  cases e <;> rfl

/-- What ends something does not begin anything. -/
theorem begins_of_ends (he : e.ends = true) : e.begins = false := by
  cases e <;> first | rfl | cases he

/-- What ends something is shown. -/
theorem hasLine_of_ends (he : e.ends = true) : e.hasLine = true := by
  cases e <;> first | rfl | cases he

/-- The depth after one more event, if it does not end what has not begun. -/
theorem openCount_concat (hle : events.countP ends ≤ events.countP begins)
    (he : ¬ (e.ends ∧ openCount events = 0)) :
    (events ++ [e]).countP ends ≤ (events ++ [e]).countP begins ∧
      openCount (events ++ [e]) = e.depthAfter (openCount events) := by
  simp only [openCount, depthAfter, List.countP_append, List.countP_singleton] at he ⊢
  by_cases hends : e.ends
  · have hpos : events.countP begins - events.countP ends ≠ 0 := fun h => he ⟨hends, h⟩
    simp only [hends, begins_of_ends hends, if_true, Bool.false_eq_true, if_false]
    omega
  · simp only [hends, Bool.false_eq_true, if_false]
    split <;> omega

end Event

/-! ## Loggers without the reader behind them -/

namespace Logger

/-- What comes of showing an event to loggers. -/
structure Showing where
  loggers : List Logger
  /-- What they have written. -/
  lines : List String
  /-- Whether the event got past all of them. -/
  through : Bool

/-- Shows an event to loggers, the outermost first. -/
def showAll (e : Event) : List Logger → Showing
  | [] => ⟨[], [], true⟩
  | l :: inner =>
    match l.observe e with
    | some (l, line) =>
      let shown := showAll e inner
      ⟨l :: shown.loggers, line.toList ++ shown.lines, shown.through⟩
    | none => ⟨l :: inner, [], false⟩

/-- Loggers with these steps at one depth. -/
def stack (steps : List Nat) (depth : Nat) : List Logger :=
  steps.map fun step => { step, indent := step * depth }

variable {e : Event} {steps : List Nat} {step depth : Nat}

/-- Complaints of the scanner are not shown. -/
theorem showAll_malformed (message : String) (loggers : List Logger) :
    showAll (.malformed message) loggers = ⟨loggers, [], true⟩ := by
  induction loggers with
  | nil => rfl
  | cons l loggers ih =>
    have hobserve : l.observe (.malformed message) = some (l, none) := rfl
    simp only [showAll, hobserve, ih]
    rfl

theorem line?_eq (l : Logger) (e : Event) :
    l.line? e = if e.hasLine then some (e.indented l.indent) else none := by
  unfold line? Event.line?
  rw [Event.isSilent_eq]
  cases e.hasLine <;> rfl

/-- One logger shows an event, unless it has a step and the event ends what has not begun. -/
theorem observe_eq (step depth : Nat) (e : Event) :
    observe ⟨step, step * depth⟩ e =
      if 0 < step ∧ e.ends ∧ depth = 0 then none
      else some (⟨step, step * e.depthAfter depth⟩,
        line? ⟨step, step * e.lineDepth depth⟩ e) := by
  unfold observe Event.lineDepth Event.depthAfter
  rw [Event.begins_eq, Event.ends_eq]
  cases e.nesting with
  | opens =>
    simp [Nat.mul_succ]
  | level =>
    simp
  | closes =>
    simp only [reduceCtorEq, decide_false, decide_true, Bool.false_eq_true, if_false, if_true,
      true_and, Nat.min_eq_right (Nat.sub_le depth 1)]
    cases depth with
    | zero =>
      -- A logger without a step has nothing to take back.
      cases step with
      | zero => rfl
      | succ step => simp
    | succ depth =>
      have hle : step ≤ step * (depth + 1) := Nat.le_mul_of_pos_right step (Nat.succ_pos depth)
      rw [if_pos hle, if_neg (by simp), Nat.mul_succ, Nat.add_sub_cancel, Nat.add_sub_cancel]

theorem stack_cons (step : Nat) (steps : List Nat) (depth : Nat) :
    stack (step :: steps) depth = ⟨step, step * depth⟩ :: stack steps depth :=
  rfl

/-- Without a step, loggers do not tell depths apart. -/
theorem stack_congr (hz : ¬ ∃ step ∈ steps, 0 < step) (depth depth' : Nat) :
    stack steps depth = stack steps depth' := by
  refine List.map_congr_left fun step hstep => ?_
  have hzero : step = 0 := Nat.eq_zero_of_not_pos fun hpos => hz ⟨step, hstep, hpos⟩
  rw [hzero, Nat.zero_mul, Nat.zero_mul]

/-- An event that ends what has not begun, and loggers of which some have a step. -/
def Blocked (steps : List Nat) (depth : Nat) (e : Event) : Prop :=
  e.ends ∧ depth = 0 ∧ ∃ step ∈ steps, 0 < step

/-- **Loggers in step stay in step**, and write a line each, if an event is not blocked. -/
theorem showAll_of_not_blocked (h : ¬ Blocked steps depth e) :
    showAll e (stack steps depth) = ⟨stack steps (e.depthAfter depth),
      if e.hasLine then steps.map fun step => e.indented (step * e.lineDepth depth) else [],
      true⟩ := by
  induction steps with
  | nil => cases hs : e.hasLine <;> simp [showAll, stack]
  | cons step steps ih =>
    have hinner : ¬ Blocked steps depth e := fun ⟨hc, hd, inner, hmem, hpos⟩ =>
      h ⟨hc, hd, inner, List.mem_cons_of_mem step hmem, hpos⟩
    have hself : ¬ (0 < step ∧ e.ends ∧ depth = 0) := fun ⟨hpos, hc, hd⟩ =>
      h ⟨hc, hd, step, List.mem_cons_self, hpos⟩
    rw [stack_cons, showAll, observe_eq, if_neg hself]
    simp only [ih hinner, line?_eq, stack_cons]
    cases hs : e.hasLine <;> simp

/-- **A blocked event** is shown by the loggers without a step that stand in front of the first
logger with one. No logger changes. -/
theorem showAll_of_blocked (h : Blocked steps depth e) :
    showAll e (stack steps depth) = ⟨stack steps depth,
      (steps.takeWhile (· = 0)).map fun _ => e.indented 0, false⟩ := by
  obtain ⟨hc, rfl, hex⟩ := h
  induction steps with
  | nil =>
    obtain ⟨step, hmem, -⟩ := hex
    cases hmem
  | cons step steps ih =>
    rw [stack_cons, showAll, observe_eq]
    by_cases hpos : 0 < step
    · rw [if_pos ⟨hpos, hc, rfl⟩, List.takeWhile_cons_of_neg (by simpa using Nat.ne_of_gt hpos)]
      rfl
    · obtain rfl : step = 0 := Nat.eq_zero_of_not_pos hpos
      have hex' : ∃ step ∈ steps, 0 < step := by
        obtain ⟨inner, hmem, hinner⟩ := hex
        rcases List.mem_cons.mp hmem with rfl | hmem
        · exact absurd hinner hpos
        · exact ⟨inner, hmem, hinner⟩
      rw [if_neg fun hself => hpos hself.1, List.takeWhile_cons_of_pos (by rfl)]
      simp only [ih hex', line?_eq, Event.hasLine_of_ends hc, Nat.zero_mul]
      rfl

end Logger

/-! ## Readers behind loggers -/

namespace Reply

variable {σ τ α : Type}

/-- Whether an action ended in a fault. -/
def isFault (reply : Reply σ α) : Bool :=
  match reply.outcome with
  | .error (.fault _) => true
  | _ => false

@[simp] theorem isFault_after (notices : List Notice) (reply : Reply σ α) :
    (reply.after notices).isFault = reply.isFault := rfl

@[simp] theorem isFault_mapState (f : σ → τ) (reply : Reply σ α) :
    (reply.mapState f).isFault = reply.isFault := rfl

theorem after_after (notices notices' : List Notice) (reply : Reply σ α) :
    (reply.after notices').after notices = reply.after (notices ++ notices') := by
  simp only [after, List.append_assoc]

end Reply

namespace Reader

variable {σ : Type} {r : Reader σ} {data : ByteArray} {s : σ} {entry : Entry} {steps : List Nat}
  {loggers : List Logger} {events : List Event} {ts : List Logger × σ × List Entry}

/-- What a reader makes of an entry behind loggers that do this about it. -/
def behind (r : Reader σ) (data : ByteArray) (s : σ) (entry : Entry) (shown : Logger.Showing) :
    Reply (List Logger × σ) Unit :=
  Reply.after (shown.lines.map .traceLine) <|
    if shown.through then (r.receive data s entry).mapState fun s => (shown.loggers, s)
    else ⟨(shown.loggers, s), [], .error (.fault .negativeIndent)⟩

theorem handleTraced_eq (r : Reader σ) (s : σ) (loggers : List Logger)
    (he : ∀ message, entry.event ≠ .malformed message) :
    r.handleTraced ⟨data, entry.offset⟩ entry.event loggers s =
      r.behind data s entry (Logger.showAll entry.event loggers) := by
  induction loggers with
  | nil =>
    rw [behind, receive, dispatch_eq_handle he]
    rfl
  | cons l loggers ih =>
    unfold handleTraced Logger.showAll
    cases l.observe entry.event with
    | none => rfl
    | some shown =>
      obtain ⟨l, line⟩ := shown
      dsimp only
      rw [ih]
      simp only [behind, List.map_append, ← Reply.after_after]
      split <;> rfl

/-- **Loggers do not ask the reader** behind them, which receives an event as it is if they all let
it through. -/
theorem receive_traced_eq (r : Reader σ) (data : ByteArray) (s : σ) (loggers : List Logger)
    (entry : Entry) : r.traced.receive data (loggers, s) entry =
      r.behind data s entry (Logger.showAll entry.event loggers) := by
  by_cases he : ∃ message, entry.event = .malformed message
  · obtain ⟨message, he⟩ := he
    rw [he, Logger.showAll_malformed]
    simp only [behind, receive, he]
    rfl
  · have he' : ∀ message, entry.event ≠ .malformed message := not_exists.mp he
    rw [receive, dispatch_eq_handle he']
    exact handleTraced_eq r s loggers he'

theorem isFault_watched (hr : ∀ s entry, (r.receive data s entry).isFault = false)
    (s : σ × List Entry) (entry : Entry) : (r.watched.receive data s entry).isFault = false := by
  rw [receive_watched]
  exact hr s.1 entry

theorem isFault_recorder (goOn : Bool) (data : ByteArray) (s : Stream) (entry : Entry) :
    ((recorder goOn).receive data s entry).isFault = false := by
  obtain ⟨offset, e⟩ := entry
  cases e with
  | malformed message => cases goOn <;> rfl
  | _ => rfl

/-- The entries of a list at which a reader does not fault, where failures and faults are passed
over. -/
def unfaulted (r : Reader σ) (data : ByteArray) : σ → List Entry → List Entry
  | _, [] => []
  | s, entry :: entries =>
    let reply := r.receive data s entry
    if reply.isFault then r.unfaulted data reply.state entries
    else entry :: r.unfaulted data reply.state entries

/-! ## Loggers in step -/

/-- Loggers with these steps are indented for the events that have got past them. If one of them has
a step, nothing has ended that had not begun. -/
structure InStep (steps : List Nat) (loggers : List Logger) (events : List Event) : Prop where
  loggers_eq : loggers = Logger.stack steps (Event.openCount events)
  closed_le : (∃ step ∈ steps, 0 < step) →
    events.countP Event.ends ≤ events.countP Event.begins

theorem inStep_start (steps : List Nat) : InStep steps (steps.map fun step => { step }) [] where
  loggers_eq := rfl
  closed_le _ := Nat.le_refl 0

namespace InStep

theorem receive_of_blocked (h : InStep steps loggers events)
    (hb : Logger.Blocked steps (Event.openCount events) entry.event) :
    r.traced.receive data (loggers, s) entry =
      ⟨(loggers, s), (steps.takeWhile (· = 0)).map fun _ => .traceLine (entry.event.indented 0),
        .error (.fault .negativeIndent)⟩ := by
  rw [h.loggers_eq, receive_traced_eq, Logger.showAll_of_blocked hb]
  simp only [behind, Bool.false_eq_true, if_false, Reply.after, List.map_map, List.append_nil]
  rfl

theorem receive_of_not_blocked (h : InStep steps loggers events)
    (hb : ¬ Logger.Blocked steps (Event.openCount events) entry.event) :
    r.traced.receive data (loggers, s) entry =
      ((r.receive data s entry).mapState fun s =>
        (Logger.stack steps (entry.event.depthAfter (Event.openCount events)), s)).after
          (if entry.event.hasLine then steps.map fun step => .traceLine
            (entry.event.indented (step * entry.event.lineDepth (Event.openCount events)))
          else []) := by
  rw [h.loggers_eq, receive_traced_eq, Logger.showAll_of_not_blocked hb]
  simp only [behind, if_true]
  split
  · rw [List.map_map]
    rfl
  · rfl

/-- In front of a reader that does not fault, just the blocked events fault. -/
theorem isFault_iff (h : InStep steps loggers events)
    (hr : (r.receive data s entry).isFault = false) :
    (r.traced.receive data (loggers, s) entry).isFault = true ↔
      Logger.Blocked steps (Event.openCount events) entry.event := by
  by_cases hb : Logger.Blocked steps (Event.openCount events) entry.event
  · rw [h.receive_of_blocked hb]
    exact iff_of_true rfl hb
  · rw [h.receive_of_not_blocked hb, Reply.isFault_after, Reply.isFault_mapState, hr]
    exact iff_of_false Bool.false_ne_true hb

/-- **One more event** that gets past the loggers leaves them in step. -/
theorem concat (h : InStep steps loggers events) {e : Event}
    (hb : ¬ Logger.Blocked steps (Event.openCount events) e) :
    InStep steps (Logger.stack steps (e.depthAfter (Event.openCount events))) (events ++ [e]) := by
  have hnext (hex : ∃ step ∈ steps, 0 < step) :=
    Event.openCount_concat (h.closed_le hex) fun ⟨hc, hd⟩ => hb ⟨hc, hd, hex⟩
  refine ⟨?_, fun hex => (hnext hex).1⟩
  by_cases hex : ∃ step ∈ steps, 0 < step
  · rw [(hnext hex).2]
  · exact Logger.stack_congr hex _ _

theorem receive (h : InStep steps ts.1 (ts.2.2.map Entry.event)) (r : Reader σ) (data : ByteArray)
    (entry : Entry) :
    let ts' := (r.watched.traced.receive data ts entry).state
    InStep steps ts'.1 (ts'.2.2.map Entry.event) := by
  obtain ⟨loggers, t, received⟩ := ts
  by_cases hb : Logger.Blocked steps (Event.openCount (received.map Entry.event)) entry.event
  · rw [h.receive_of_blocked hb]
    exact h
  · have hnext := h.concat hb
    rw [← List.map_singleton, ← List.map_append] at hnext
    rw [h.receive_of_not_blocked hb, receive_watched]
    exact hnext

/-- **Any events**, whether they fail, fault or succeed, leave the loggers in step. -/
theorem receiveAll (h : InStep steps ts.1 (ts.2.2.map Entry.event)) (r : Reader σ)
    (data : ByteArray) (entries : List Entry) :
    let ts' := r.watched.traced.receiveAll data ts entries
    InStep steps ts'.1 (ts'.2.2.map Entry.event) := by
  induction entries generalizing ts with
  | nil => exact h
  | cons entry entries ih => exact ih (h.receive r data entry)

/-- A reader that does not fault has received all that has not faulted. -/
theorem received_eq (h : InStep steps ts.1 (ts.2.2.map Entry.event))
    (hr : ∀ s entry, (r.receive data s entry).isFault = false) (entries : List Entry) :
    (r.watched.traced.receiveAll data ts entries).2.2 =
      ts.2.2 ++ r.watched.traced.unfaulted data ts entries := by
  induction entries generalizing ts with
  | nil => exact (List.append_nil _).symm
  | cons entry entries ih =>
    have hrest := ih (h.receive r data entry)
    rw [unfaulted]
    refine Eq.trans hrest ?_
    obtain ⟨loggers, t, received⟩ := ts
    by_cases hb : Logger.Blocked steps (Event.openCount (received.map Entry.event)) entry.event
    · rw [h.receive_of_blocked hb]
      rfl
    · rw [h.receive_of_not_blocked hb, receive_watched, Reply.isFault_after, Reply.isFault_mapState,
        Reply.isFault_mapState, hr t entry, if_neg Bool.false_ne_true]
      exact List.append_assoc received [entry] _

end InStep

/-- **The trace of a logger.** Behind a logger stands a reader of any kind, and what fails or faults
is passed over. At all times the logger is indented by its step for each module and section that is
open. If it has a step, then an event faults that ends what has not begun, and it does nothing else.
Any other event is passed on to the reader, and if it has a line this has been written once before
that, at the depth at which it stands. -/
theorem traced_indented (r : Reader σ) (data : ByteArray) (step : Nat) (s : σ)
    (entries : List Entry) (entry : Entry) :
    let start : List Logger × σ × List Entry := ([{ step }], s, [])
    let run := r.watched.traced.receiveAll data start entries
    let reply := r.watched.traced.receive data run entry
    let received := run.2.2.map Entry.event
    let depth := Event.openCount received
    let faults := 0 < step ∧ entry.event.ends ∧ depth = 0
    let line := entry.event.indented (step * entry.event.lineDepth depth)
    run.1 = [{ step, indent := step * depth }] ∧
      (0 < step → received.countP Event.ends ≤ received.countP Event.begins) ∧
      (faults → reply = ⟨run, [], .error (.fault .negativeIndent)⟩) ∧
      (¬ faults → reply =
        ((r.watched.receive data run.2 entry).mapState fun s =>
          ([{ step, indent := step * entry.event.depthAfter depth }], s)).after
            (if entry.event.hasLine then [.traceLine line] else [])) ∧
      ((∀ s entry, (r.receive data s entry).isFault = false) →
        run.2.2 = r.watched.traced.unfaulted data start entries ∧
          (reply.isFault = true ↔ faults)) := by
  intro start run reply received depth faults line
  have h : InStep [step] run.1 received := InStep.receiveAll (inStep_start [step]) r data entries
  have hb : Logger.Blocked [step] depth entry.event ↔ faults := by
    simp only [Logger.Blocked, List.mem_singleton, exists_eq_left]
    exact ⟨fun ⟨hc, hd, hpos⟩ => ⟨hpos, hc, hd⟩, fun ⟨hpos, hc, hd⟩ => ⟨hc, hd, hpos⟩⟩
  refine ⟨h.loggers_eq, fun hpos => h.closed_le ⟨step, List.mem_singleton_self step, hpos⟩,
    fun hf => ?_, fun hf => h.receive_of_not_blocked (mt hb.mp hf), fun hr => ⟨?_, ?_⟩⟩
  · -- The only logger has a step, and so no logger has shown the event.
    have hnone : [step].takeWhile (· = 0) = [] :=
      List.takeWhile_cons_of_neg (by simpa using Nat.ne_of_gt hf.1)
    have hreply : reply = _ := h.receive_of_blocked (hb.mpr hf)
    rwa [hnone] at hreply
  · exact InStep.received_eq (inStep_start [step]) hr entries
  · rw [← hb]
    exact h.isFault_iff (isFault_watched hr run.2 entry)

/-- Within a module, behind a module end that comes too early and a complaint that is a failure. -/
theorem traced_indented_recorder :
    let entries : List Entry := [⟨0, .endModule⟩, ⟨1, .beginModule 1⟩, ⟨2, .malformed "odd"⟩]
    let start : List Logger × Stream × List Entry := ([{ step := 4 }], {}, [])
    let run := (recorder false).watched.traced.receiveAll .empty start entries
    let reply := (recorder false).watched.traced.receive .empty run ⟨3, .beginSection .types 2⟩
    run.1 = [⟨4, 4⟩] ∧ run.2.2 = entries.tail ∧ reply.isFault = false ∧
      reply.notices = [.traceLine "    BeginTypeSection(2)"] ∧ reply.state.1 = [⟨4, 8⟩] := by
  intro entries start run reply
  obtain ⟨hrun, -, -, hreply, hreceived⟩ := traced_indented (recorder false) .empty 4 {} entries
    ⟨3, .beginSection .types 2⟩
  have hreply := hreply fun hf => nomatch hf.2.1
  obtain ⟨hreceived, hfault⟩ := hreceived fun s entry => isFault_recorder false .empty s entry
  exact ⟨hrun, hreceived, Bool.eq_false_iff.mpr (mt hfault.mp fun hf => nomatch hf.2.1),
    congrArg Reply.notices hreply, congrArg (·.state.1) hreply⟩

/-- **Stacked loggers stay in step.** In front of a reader of any kind stand loggers with these
steps, from the outermost to the innermost, and what fails or faults is passed over. At all times
there is one number of modules and sections that are open for all of them. If a logger has a step,
then an event faults that ends what has not begun: the loggers without a step in front of the first
one with a step have shown it, and nothing else happens. Any other event gets to the reader, and if
there is a line for it, each logger has written the same text before that. -/
theorem traced_inStep (r : Reader σ) (data : ByteArray) (steps : List Nat) (s : σ)
    (entries : List Entry) (entry : Entry) :
    let start : List Logger × σ × List Entry := (steps.map fun step => { step }, s, [])
    let run := r.watched.traced.receiveAll data start entries
    let reply := r.watched.traced.receive data run entry
    let received := run.2.2.map Entry.event
    let depth := Event.openCount received
    let faults := entry.event.ends ∧ depth = 0 ∧ ∃ step ∈ steps, 0 < step
    (run.1 = steps.map fun step => { step, indent := step * depth }) ∧
      (faults → reply =
        ⟨run, (steps.takeWhile (· = 0)).map fun _ => .traceLine (entry.event.indented 0),
          .error (.fault .negativeIndent)⟩) ∧
      (¬ faults → reply =
        ((r.watched.receive data run.2 entry).mapState fun s =>
          (steps.map fun step => { step, indent := step * entry.event.depthAfter depth }, s)).after
            (if entry.event.hasLine then steps.map fun step =>
                .traceLine (entry.event.indented (step * entry.event.lineDepth depth))
              else [])) ∧
      ((∀ s entry, (r.receive data s entry).isFault = false) →
        run.2.2 = r.watched.traced.unfaulted data start entries ∧
          (reply.isFault = true ↔ faults)) := by
  intro start run reply received depth faults
  have h : InStep steps run.1 received := InStep.receiveAll (inStep_start steps) r data entries
  exact ⟨h.loggers_eq, fun hf => h.receive_of_blocked hf, fun hf => h.receive_of_not_blocked hf,
    fun hr => ⟨InStep.received_eq (inStep_start steps) hr entries,
      h.isFault_iff (isFault_watched hr run.2 entry)⟩⟩

/-- A module ends twice behind three loggers, of which the outermost has no step. -/
theorem traced_inStep_recorder :
    let entries : List Entry := [⟨0, .beginModule 1⟩, ⟨8, .endModule⟩]
    let start : List Logger × Stream × List Entry := ([0, 2, 3].map fun step => { step }, {}, [])
    let run := (recorder true).watched.traced.receiveAll .empty start entries
    let reply := (recorder true).watched.traced.receive .empty run ⟨9, .endModule⟩
    run.1 = [⟨0, 0⟩, ⟨2, 0⟩, ⟨3, 0⟩] ∧ run.2.2 = entries ∧ reply.isFault = true ∧
      reply.notices = [.traceLine "EndModule"] ∧ reply.state = run := by
  intro entries start run reply
  obtain ⟨hrun, hreply, -, hreceived⟩ := traced_inStep (recorder true) .empty [0, 2, 3] {} entries
    ⟨9, .endModule⟩
  have hfaults : Event.endModule.ends ∧ 0 = 0 ∧ ∃ step ∈ [0, 2, 3], 0 < step :=
    ⟨rfl, rfl, 2, by decide, by decide⟩
  have hreply : reply = _ := hreply hfaults
  have hstate : reply.state = run := by rw [hreply]
  obtain ⟨hreceived, hfault⟩ := hreceived fun s entry => isFault_recorder true .empty s entry
  exact ⟨hrun, hreceived, hfault.mpr hfaults, congrArg Reply.notices hreply, hstate⟩

end Reader
end WasmDecode
