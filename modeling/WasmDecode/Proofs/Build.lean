import WasmDecode.Builder

/-!
# Checks and changes

Handling an event is a series of checks, each of which may stop it, and then of changes, none of
which does. The predicates below say so of an action and are closed under sequencing, so that what
is said of an event follows the text of its action.

* `Build.Looks`: an action that changes nothing, whether or not it stops.
* `Build.Changes`: an action that never stops, with a bound on what it changes.
* `Build.Guarded`: an action that changes something only if it does not stop.
* `Build.run_bind_ok`, `Build.run_require_ok`: what a run that does not stop went through.
-/

namespace WasmDecode.Build

variable {α β : Type} {R : Builder → Builder → Prop} {b b' : Builder}

/-- An action that changes nothing, whether or not it stops. -/
def Looks (x : Build α) : Prop :=
  ∀ b, (∃ a, x.run b = .ok a b) ∨ ∃ stop, x.run b = .error stop b

/-- An action that never stops, and leads from a builder to one that `R` relates to it. -/
def Changes (R : Builder → Builder → Prop) (x : Build α) : Prop :=
  ∀ b, ∃ a b', x.run b = .ok a b' ∧ R b b'

/-- An action that leaves everything as it was if it stops, and leads to a builder that `R` relates
to the first one if it does not. -/
def Guarded (R : Builder → Builder → Prop) (x : Build α) : Prop :=
  ∀ b, (∃ a b', x.run b = .ok a b' ∧ R b b') ∨ ∃ stop, x.run b = .error stop b

/-! ## Runs that do not stop -/

theorem run_bind_ok {x : Build α} {f : α → Build β} {c : β} :
    (x >>= f).run b = .ok c b' ↔ ∃ a b₁, x.run b = .ok a b₁ ∧ (f a).run b₁ = .ok c b' := by
  rw [EStateM.run_bind]
  cases x.run b with
  | ok a b₁ => exact ⟨fun h => ⟨a, b₁, rfl, h⟩, fun ⟨_, _, h₁, h₂⟩ => by cases h₁; exact h₂⟩
  | error stop b₁ => simp

theorem run_require_ok {p : Prop} [Decidable p] {cause : Cause} {u : Unit} :
    (require p cause).run b = .ok u b' ↔ p ∧ b = b' := by
  rw [run_require]
  split <;> simp_all

theorem run_signature {index : UInt32} (h : index.toNat < b.module.types.size) :
    (signature index).run b = .ok b.module.types[index.toNat] b := by
  simp [signature, Array.getElem?_eq_getElem h]

theorem run_item {items : Array α} {i : Nat} {a : α} (h : items[i]? = some a) :
    (item items i).run b = .ok a b := by
  simp [item, h]

/-! ## Looking -/

theorem Looks.pure (a : α) : Looks (Pure.pure a : Build α) := fun _ => .inl ⟨a, rfl⟩

theorem Looks.get : Looks (MonadState.get : Build Builder) := fun b => .inl ⟨b, rfl⟩

theorem Looks.refuse (cause : Cause) : Looks (Build.refuse cause : Build α) :=
  fun _ => .inr ⟨_, rfl⟩

theorem Looks.throw (stop : Stop) : Looks (MonadExcept.throw stop : Build α) :=
  fun _ => .inr ⟨stop, rfl⟩

theorem Looks.bind {x : Build α} {f : α → Build β} (hx : Looks x) (hf : ∀ a, Looks (f a)) :
    Looks (x >>= f) := by
  intro b
  rw [EStateM.run_bind]
  rcases hx b with ⟨a, h⟩ | ⟨stop, h⟩
  · rw [h]
    exact hf a b
  · rw [h]
    exact .inr ⟨stop, rfl⟩

theorem Looks.require (p : Prop) [Decidable p] (cause : Cause) : Looks (Build.require p cause) := by
  intro b
  rw [run_require]
  split
  · exact .inl ⟨(), rfl⟩
  · exact .inr ⟨_, rfl⟩

theorem Looks.expect (answer : Except Fault α) : Looks (Build.expect answer) := by
  cases answer with
  | ok a => exact .pure a
  | error f => exact .throw _

theorem Looks.signature (index : UInt32) : Looks (Build.signature index) := by
  refine .bind .get fun b => ?_
  dsimp only
  split
  · exact .pure _
  · exact .refuse _

theorem Looks.funcPosition (what : String) (index : UInt32) :
    Looks (Build.funcPosition what index) :=
  .bind .get fun _ => .bind (.require _ _) fun _ => .pure _

theorem Looks.lastPosition (what : String) (index : UInt32) (size : Nat) :
    Looks (Build.lastPosition what index size) :=
  .bind (.require _ _) fun _ => .pure _

theorem Looks.item (items : Array α) (i : Nat) : Looks (Build.item items i) := by
  unfold Build.item
  split
  · exact .pure _
  · exact .throw _

theorem Looks.reserve (count : UInt32) : Looks (Build.reserve count) := .require _ _

/-! ## Changing -/

theorem Changes.modify {f : Builder → Builder} (h : ∀ b, R b (f b)) :
    Changes R (modify f : Build Unit) := fun b => ⟨(), f b, rfl, h b⟩

theorem Changes.modifyModule {f : Module → Module} (h : ∀ b, R b { b with module := f b.module }) :
    Changes R (Build.modifyModule f) := .modify h

theorem Changes.bind [Trans R R R] {x : Build α} {f : α → Build β} (hx : Changes R x)
    (hf : ∀ a, Changes R (f a)) : Changes R (x >>= f) := by
  intro b
  obtain ⟨a, b₁, h₁, r₁⟩ := hx b
  obtain ⟨c, b₂, h₂, r₂⟩ := hf a b₁
  exact ⟨c, b₂, run_bind_ok.mpr ⟨a, b₁, h₁, h₂⟩, Trans.trans r₁ r₂⟩

/-! ## Checking before changing -/

theorem Looks.guarded [Std.Refl R] {x : Build α} (h : Looks x) : Guarded R x := by
  intro b
  rcases h b with ⟨a, h⟩ | h
  · exact .inl ⟨a, b, h, Std.Refl.refl b⟩
  · exact .inr h

theorem Changes.guarded {x : Build α} (h : Changes R x) : Guarded R x := fun b => .inl (h b)

theorem Looks.andThen {x : Build α} {f : α → Build β} (hx : Looks x)
    (hf : ∀ a, Guarded R (f a)) : Guarded R (x >>= f) := by
  intro b
  rw [EStateM.run_bind]
  rcases hx b with ⟨a, h⟩ | ⟨stop, h⟩
  · rw [h]
    exact hf a b
  · rw [h]
    exact .inr ⟨stop, rfl⟩

theorem Guarded.andThen [Trans R R R] {x : Build α} {f : α → Build β} (hx : Guarded R x)
    (hf : ∀ a, Changes R (f a)) : Guarded R (x >>= f) := by
  intro b
  rcases hx b with ⟨a, b₁, h₁, r₁⟩ | ⟨stop, h⟩
  · obtain ⟨c, b₂, h₂, r₂⟩ := hf a b₁
    exact .inl ⟨c, b₂, run_bind_ok.mpr ⟨a, b₁, h₁, h₂⟩, Trans.trans r₁ r₂⟩
  · rw [EStateM.run_bind, h]
    exact .inr ⟨stop, rfl⟩

end WasmDecode.Build
