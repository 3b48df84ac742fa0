import WasmDecode.Event

/-!
# Instruction forests

A body as a tree: a list of instructions, where a scope holds further lists. Decode events tell it
flatly, and an arena stores it in linked nodes; both are compared with the forest.

* `Forest`: a list of instructions, with what its scopes hold.
* `Forest.events`: the events that tell it.
* `Forest.dropEmptyElse`: the same instructions without the `else`s that hold none.
* `Event.dropEmptyElse`: the same on events; `events_dropEmptyElse` says that the two agree.
-/

namespace WasmDecode

/-- A list of instructions: none, or a first one with the lists that it holds, and the rest. -/
inductive Forest where
  | nil
  | plain (i : Instr) (rest : Forest)
  /-- A scope that holds one list. An `if` without an `else` is one. -/
  | scope (kind : ScopeKind) (sig : List ValueType) (body rest : Forest)
  | ifElse (sig : List ValueType) (thenArm elseArm rest : Forest)
  deriving DecidableEq, Repr, Inhabited

namespace Forest

/-- The number of instructions, those in scopes included. -/
def size : Forest → Nat
  | nil => 0
  | plain _ rest => rest.size + 1
  | scope _ _ body rest => body.size + rest.size + 1
  | ifElse _ thenArm elseArm rest => thenArm.size + elseArm.size + rest.size + 1

/-- One list behind another. -/
def append : Forest → Forest → Forest
  | nil, g => g
  | plain i rest, g => plain i (rest.append g)
  | scope kind sig body rest, g => scope kind sig body (rest.append g)
  | ifElse sig thenArm elseArm rest, g => ifElse sig thenArm elseArm (rest.append g)

/-- The events that tell a list of instructions. -/
def events : Forest → List Event
  | nil => []
  | plain i rest => .instr i :: rest.events
  | scope kind sig body rest =>
    .beginScope kind sig :: (body.events ++ .endScope :: rest.events)
  | ifElse sig thenArm elseArm rest =>
    .beginScope .ifThen sig ::
      (thenArm.events ++ .elseArm :: (elseArm.events ++ .endScope :: rest.events))

/-- An `if` in front of a list, with an `else` only if there is something behind it. -/
def consIf (sig : List ValueType) (thenArm elseArm rest : Forest) : Forest :=
  match elseArm with
  | nil => scope .ifThen sig thenArm rest
  | elseArm => ifElse sig thenArm elseArm rest

/-- The same instructions, without the `else`s that hold none. -/
def dropEmptyElse : Forest → Forest
  | nil => nil
  | plain i rest => plain i rest.dropEmptyElse
  | scope kind sig body rest => scope kind sig body.dropEmptyElse rest.dropEmptyElse
  | ifElse sig thenArm elseArm rest =>
    consIf sig thenArm.dropEmptyElse elseArm.dropEmptyElse rest.dropEmptyElse

/-- Whether `p` holds of all plain instructions, those in scopes included. -/
def All (p : Instr → Prop) : Forest → Prop
  | nil => True
  | plain i rest => p i ∧ rest.All p
  | scope _ _ body rest => body.All p ∧ rest.All p
  | ifElse _ thenArm elseArm rest => thenArm.All p ∧ elseArm.All p ∧ rest.All p

@[simp]
theorem append_nil (f : Forest) : f.append nil = f := by
  induction f <;> simp_all [append]

theorem append_assoc (f g k : Forest) : (f.append g).append k = f.append (g.append k) := by
  induction f <;> simp_all [append]

@[simp]
theorem size_append (f g : Forest) : (f.append g).size = f.size + g.size := by
  induction f <;> simp_all [append, size] <;> omega

@[simp]
theorem events_append (f g : Forest) : (f.append g).events = f.events ++ g.events := by
  induction f <;> simp_all [append, events]

end Forest

/-! ## Empty `else`s -/

/-- Drops each `else` that the `end` of its scope follows at once. -/
def Event.dropEmptyElse : List Event → List Event
  | .elseArm :: .endScope :: rest => .endScope :: dropEmptyElse rest
  | e :: rest => e :: dropEmptyElse rest
  | [] => []

/-- Only an `else` is ever dropped. -/
theorem Event.dropEmptyElse_cons {e : Event} (h : e ≠ .elseArm) (rest : List Event) :
    Event.dropEmptyElse (e :: rest) = e :: Event.dropEmptyElse rest := by
  rw [Event.dropEmptyElse]
  rintro rest' rfl -
  exact h rfl

namespace Forest

theorem dropEmptyElse_eq_nil {f : Forest} : f.dropEmptyElse = nil ↔ f = nil := by
  cases f with
  | ifElse _ _ elseArm _ => cases h : elseArm.dropEmptyElse <;> simp [dropEmptyElse, consIf, h]
  | _ => simp [dropEmptyElse]

/-- The events of an `else` arm that is not empty do not begin with an `end`. -/
private theorem dropEmptyElse_elseArm {f : Forest} (hf : f ≠ nil) (rest : List Event) :
    Event.dropEmptyElse (.elseArm :: (f.events ++ rest)) =
      .elseArm :: Event.dropEmptyElse (f.events ++ rest) := by
  cases f with
  | nil => exact absurd rfl hf
  | _ => simp [events, Event.dropEmptyElse]

/-- The events of a forest, whatever follows them, lose the empty `else`s of the forest. -/
theorem dropEmptyElse_events_append (f : Forest) (rest : List Event) :
    Event.dropEmptyElse (f.events ++ rest) =
      f.dropEmptyElse.events ++ Event.dropEmptyElse rest := by
  induction f generalizing rest with
  | nil => rfl
  | plain i next ih => simp [events, dropEmptyElse, Event.dropEmptyElse_cons, ih]
  | scope kind sig body next ihb ihn =>
    simp [events, dropEmptyElse, Event.dropEmptyElse_cons, List.append_assoc, ihb, ihn]
  | ifElse sig thenArm elseArm next iht ihe ihn =>
    by_cases he : elseArm = nil
    · subst he
      simp [events, dropEmptyElse, consIf, Event.dropEmptyElse_cons, Event.dropEmptyElse,
        List.append_assoc, iht, ihn]
    · have hc : consIf sig thenArm.dropEmptyElse elseArm.dropEmptyElse next.dropEmptyElse =
          ifElse sig thenArm.dropEmptyElse elseArm.dropEmptyElse next.dropEmptyElse := by
        have := mt dropEmptyElse_eq_nil.mp he
        unfold consIf
        split <;> simp_all
      simp only [events, dropEmptyElse, hc, List.cons_append, List.append_assoc]
      rw [Event.dropEmptyElse_cons (by simp), iht, dropEmptyElse_elseArm he, ihe,
        Event.dropEmptyElse_cons (by simp), ihn]

/-- The two ways to drop empty `else`s agree. -/
theorem events_dropEmptyElse (f : Forest) :
    f.dropEmptyElse.events = Event.dropEmptyElse f.events := by
  simpa [Event.dropEmptyElse] using (dropEmptyElse_events_append f []).symm

end Forest

end WasmDecode
