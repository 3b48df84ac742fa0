import WasmDecode.Proofs.Accept

/-!
# The order of the nodes

The nodes of a body stand in its arena in the order in which the links lead to them, so that every
link leads forward. This holds of every builder, also in the middle of a body, since what has been
read of a body would lie in the same place if its open scopes ended here.

* `Code.Spells.forest_eq`, `Code.Spells.preorder_eq`, `Code.Spells.links`: the links of a body of
  which something has been read.
* `Arena.length_take_le`: where links lead forward, every list ends.
* `Builder.preorder_eq_range`: the arenas of a builder.
-/

namespace WasmDecode

namespace Code.Spells

variable {c : Code} {o : OpenBody}

/-- What has been read would lie in the same place if the open scopes ended here. -/
theorem layout_close (h : c.Spells o) : (o.close .nil).layout 0 none = c.arena.nodes.toList := by
  rw [OpenBody.layout_close, h.nodes]
  simp [Forest.layout]

theorem has_layout (h : c.Spells o) : c.arena.Has 0 ((o.close .nil).layout 0 none) := by
  rw [h.layout_close]
  exact Arena.has_toList c.arena

theorem head_close (h : c.Spells o) : (o.close .nil).head 0 none = c.first := by
  rw [OpenBody.head_close, h.first, Forest.head_nil]

theorem size_close (h : c.Spells o) : (o.close .nil).size = c.arena.size := by
  have hl := congrArg List.length h.layout_close
  rwa [Forest.length_layout] at hl

/-- The links spell out the forest. -/
theorem forest_eq (h : c.Spells o) {n : Nat} (hn : c.arena.size ≤ n) :
    c.arena.forest n c.first = (o.close .nil).dropEmptyElse := by
  rw [← h.head_close]
  exact Forest.forest_eq h.has_layout (h.size_close ▸ hn)

/-- The links lead to the nodes in the order in which they stand, and to each of them once. -/
theorem preorder_eq (h : c.Spells o) {n : Nat} (hn : c.arena.size ≤ n) :
    c.arena.preorder n c.first = List.range c.arena.size := by
  rw [← h.head_close, Forest.preorder_eq h.has_layout (h.size_close ▸ hn), h.size_close,
    List.range_eq_range']

/-- Every link leads forward, to a node that exists. -/
theorem links (h : c.Spells o) {id : Nat} {node : Node} (hn : c.arena.node? id = some node) :
    ∀ target ∈ node.links, id < target ∧ target < c.arena.size := by
  have hmem : (node, id) ∈ ((o.close .nil).layout 0 none).zipIdx := by
    rw [h.layout_close, List.mk_mem_zipIdx_iff_getElem?, Array.getElem?_toList]
    exact hn
  have := Forest.links_layout hmem
  rwa [Nat.zero_add, h.size_close] at this

end Code.Spells

/-- Where links lead forward, a list is no longer than what remains of the arena. -/
theorem Arena.length_take_le {a : Arena}
    (h : ∀ (id : Nat) node, a.node? id = some node → ∀ target ∈ node.links, id < target) (n : Nat)
    (id : Nat) : (a.take n (some id)).length ≤ a.size - id := by
  induction n generalizing id with
  | zero => exact Nat.zero_le _
  | succ n ih =>
    cases hn : a.node? id with
    | none => simp [take, hn]
    | some node =>
      have hid : id < a.size := (Array.getElem?_eq_some_iff.mp hn).1
      simp only [take, hn, List.length_cons]
      cases hnext : node.next with
      | none =>
        have : (a.take n none).length = 0 := by rw [take_none, List.length_nil]
        omega
      | some next =>
        have hlt : id < next := h id node hn next (by simp [Node.links, hnext])
        have := ih next
        omega

namespace Builder

variable {b : Builder} {p : Nat}

/-- In every function of a sound builder something has been read of the body. -/
theorem Sound.exists_spells (hb : b.Sound) (p : Nat) : ∃ o, (b.codeAt p).Spells o := by
  by_cases hc : b.currentFunc = some p
  · obtain ⟨o, ho⟩ := hb.reading p hc
    exact ⟨o, ho.spells⟩
  · obtain ⟨f, hf⟩ := hb.spells p hc
    exact ⟨.body f, hf⟩

/-- **The arenas of a builder.** After any events, in every function, every link leads forward to a
node that exists, the links lead to the nodes in the order in which they stand, and every list
ends. -/
theorem preorder_eq_range (events : List Event) {p : Nat} {f : Func}
    (hf : (({} : Builder).run events).module.funcs.items[p]? = some f) :
    (∀ (id : Nat) node, f.arena.node? id = some node →
        ∀ target ∈ node.links, id < target ∧ target < f.arena.size) ∧
      (∀ n, f.arena.size ≤ n → f.arena.preorder n f.first = List.range f.arena.size) ∧
      ∀ (id n : Nat), (f.arena.take n (some id)).length ≤ f.arena.size - id := by
  obtain ⟨o, ho⟩ := (sound_run events).exists_spells p
  rw [codeAt_of_getElem? hf] at ho
  have hlinks := fun (id : Nat) node (hn : f.arena.node? id = some node) => ho.links hn
  refine ⟨hlinks, fun n hn => ho.preorder_eq hn, fun id n => Arena.length_take_le ?_ n id⟩
  exact fun id node hn target ht => (hlinks id node hn target ht).1

/-- A body that is still open, after a second `else` that was refused. -/
theorem preorder_of_open_else :
    ∃ f, (({} : Builder).run [.funcType 0 [] [], .define 0 (.func 0), .beginBody 0,
        .beginScope .ifThen [], .instr .nop, .elseArm, .elseArm, .beginScope .loop [],
        .instr .drop]).module.funcs.items[0]? = some f ∧
      f.arena.size = 4 ∧ f.arena.preorder 4 f.first = List.range 4 ∧
      (f.arena.take 9 (some 2)).length ≤ 4 - 2 := by
  obtain ⟨-, hp, ht⟩ := preorder_eq_range [.funcType 0 [] [], .define 0 (.func 0), .beginBody 0,
    .beginScope .ifThen [], .instr .nop, .elseArm, .elseArm, .beginScope .loop [], .instr .drop]
    (p := 0) rfl
  exact ⟨_, rfl, rfl, hp 4 (by decide), ht 2 9⟩

end Builder

end WasmDecode
