import WasmDecode.Module
import WasmDecode.Proofs.Layout

/-!
# Bodies that are still open

While a body is read it is a forest with a path of open scopes, each of which is the last
instruction of the one around it. The path decides all that a builder keeps about the body: the
labels, the nodes, and the place where the next instruction goes.

* `OpenBody`: what has been read of a body.
* `OpenBody.events`, `OpenBody.step?`: the events that lead to it, and what one more leads to.
* `OpenBody.labels`, `OpenBody.nodes`, `OpenBody.head`: the labels, the nodes of the arena, and the
  first one of them.
* `OpenBody.close`: the forest if all scopes ended here; `layout_close` says that it is what the
  arena holds.
* `Code.Spells`: a function holds what has been read of its body. `Func.link_label` is the step from
  one instruction to the next.
-/

namespace WasmDecode

/-- What has been read of a body. In each open scope, `done` are the instructions in front of the
scope that is open inside of it. -/
inductive OpenBody where
  | body (done : Forest)
  | scope (outer : OpenBody) (kind : ScopeKind) (sig : List ValueType) (done : Forest)
  | elseArm (outer : OpenBody) (sig : List ValueType) (thenArm done : Forest)
  deriving DecidableEq, Repr, Inhabited

namespace OpenBody

/-- The number of instructions read. -/
def size : OpenBody → Nat
  | body done => done.size
  | scope outer _ _ done => outer.size + 1 + done.size
  | elseArm outer _ thenArm done => outer.size + 1 + thenArm.size + done.size

/-- The events that were read. -/
def events : OpenBody → List Event
  | body done => done.events
  | scope outer kind sig done => outer.events ++ .beginScope kind sig :: done.events
  | elseArm outer sig thenArm done =>
    outer.events ++ .beginScope .ifThen sig :: (thenArm.events ++ .elseArm :: done.events)

/-- Adds instructions to the innermost scope. -/
def add (g : Forest) : OpenBody → OpenBody
  | body done => body (done.append g)
  | scope outer kind sig done => scope outer kind sig (done.append g)
  | elseArm outer sig thenArm done => elseArm outer sig thenArm (done.append g)

/-- What has been read after one more event of a body, if the event fits. -/
def step? : OpenBody → Event → Option OpenBody
  | o, .instr i => some (o.add (.plain i .nil))
  | o, .beginScope kind sig => some (.scope o kind sig .nil)
  | .scope outer .ifThen sig done, .elseArm => some (.elseArm outer sig done .nil)
  | .scope outer kind sig done, .endScope => some (outer.add (.scope kind sig done .nil))
  | .elseArm outer sig thenArm done, .endScope =>
    some (outer.add (.ifElse sig thenArm done .nil))
  | _, _ => none

/-- The forest, if all open scopes ended behind `g`. -/
def close (g : Forest) : OpenBody → Forest
  | body done => done.append g
  | scope outer kind sig done => outer.close (.scope kind sig (done.append g) .nil)
  | elseArm outer sig thenArm done => outer.close (.ifElse sig thenArm (done.append g) .nil)

/-! ## What a builder keeps -/

/-- The label of the innermost scope. -/
def label : OpenBody → Label
  | body done => ⟨.func, .funcBody, done.last? 0⟩
  | scope outer kind _ done => ⟨.ofScope kind, .blockFirst outer.size, done.last? (outer.size + 1)⟩
  | elseArm outer _ thenArm done =>
    ⟨.elseArm, .elseFirst outer.size, done.last? (outer.size + 1 + thenArm.size)⟩

/-- The labels of the scopes around the innermost one. The last instruction of each is the scope
inside of it. -/
def outerLabels : OpenBody → List Label
  | body _ => []
  | scope outer _ _ _ | elseArm outer _ _ _ =>
    { outer.label with last := some outer.size } :: outer.outerLabels

/-- The labels of the open scopes, the innermost first. -/
def labels (o : OpenBody) : List Label := o.label :: o.outerLabels

/-- The nodes, where `next` is linked as the next one of the innermost scope. -/
def nodes (next : Option Nat) : OpenBody → List Node
  | body done => done.layout 0 next
  | scope outer kind sig done =>
    let inside := outer.size + 1
    outer.nodes (some outer.size) ++
      ⟨.holding kind sig (done.head inside next), none⟩ :: done.layout inside next
  | elseArm outer sig thenArm done =>
    let inside := outer.size + 1
    let middle := inside + thenArm.size
    outer.nodes (some outer.size) ++
      ⟨.ifThen sig (thenArm.head inside none) (done.head middle next), none⟩ ::
        (thenArm.layout inside none ++ done.layout middle next)

/-- The first node, where `next` is linked as the next one of the innermost scope. -/
def head (next : Option Nat) : OpenBody → Option Nat
  | body done => done.head 0 next
  | scope outer _ _ _ | elseArm outer _ _ _ => outer.head (some outer.size)

variable {o o' : OpenBody} {next : Option Nat}

/-- The innermost scope is the body itself only if no other is open. -/
theorem kind_label : o.label.kind = .func ↔ ∃ f, o = .body f := by
  cases o with
  | body f => simp [label]
  | scope outer kind sig done => cases kind <;> simp [label, LabelKind.ofScope]
  | elseArm outer sig thenArm done => simp [label]

@[simp]
theorem length_nodes (o : OpenBody) : (o.nodes next).length = o.size := by
  induction o generalizing next <;> simp_all [nodes, size] <;> omega

theorem add_nil (o : OpenBody) : o.add .nil = o := by
  cases o <;> simp [add]

theorem add_add (o : OpenBody) (f g : Forest) : (o.add f).add g = o.add (f.append g) := by
  cases o <;> simp [add, Forest.append_assoc]

@[simp]
theorem size_add (o : OpenBody) (g : Forest) : (o.add g).size = o.size + g.size := by
  cases o <;> simp [add, size, Nat.add_assoc]

@[simp]
theorem events_add (o : OpenBody) (g : Forest) : (o.add g).events = o.events ++ g.events := by
  cases o <;> simp [add, events]

theorem outerLabels_add (o : OpenBody) (g : Forest) : (o.add g).outerLabels = o.outerLabels := by
  cases o <;> rfl

theorem label_add (o : OpenBody) (g : Forest) :
    (o.add g).label = { o.label with last := (g.last? o.size).or o.label.last } := by
  cases o <;> simp [add, label, size, Forest.last?_append, Nat.add_assoc]

theorem nodes_add (o : OpenBody) (g : Forest) :
    (o.add g).nodes next = o.nodes (g.head o.size next) ++ g.layout o.size next := by
  cases o <;> simp [add, nodes, size, Forest.layout_append, Forest.head_append]

theorem head_add (o : OpenBody) (g : Forest) :
    (o.add g).head next = o.head (g.head o.size next) := by
  cases o <;> simp [add, head, size, Forest.head_append]

/-! ## One more event -/

theorem step?_instr (o : OpenBody) (i : Instr) :
    o.step? (.instr i) = some (o.add (.plain i .nil)) := by
  cases o <;> rfl

theorem step?_beginScope (o : OpenBody) (kind : ScopeKind) (sig : List ValueType) :
    o.step? (.beginScope kind sig) = some (.scope o kind sig .nil) := by
  cases o <;> rfl

theorem events_of_step? {e : Event} (h : o.step? e = some o') : o'.events = o.events ++ [e] := by
  unfold step? at h
  split at h <;> cases h <;> simp [events, Forest.events]

/-- A plain instruction is added to the innermost scope. -/
theorem labels_add_plain (i : Instr) :
    (o.add (.plain i .nil)).labels = { o.label with last := some o.size } :: o.outerLabels := by
  simp [labels, label_add, outerLabels_add, Forest.last?]

/-- A scope that ends was the last instruction of the one around it. -/
theorem labels_end (h : o.step? .endScope = some o') : o.outerLabels = o'.labels := by
  unfold step? at h
  split at h <;> cases h <;>
    simp_all [labels, outerLabels, label_add, outerLabels_add, Forest.last?]

theorem nodes_end (h : o.step? .endScope = some o') : o'.nodes none = o.nodes none := by
  unfold step? at h
  split at h <;> cases h <;> simp_all [nodes_add, nodes, Forest.layout]

theorem head_end (h : o.step? .endScope = some o') : o'.head none = o.head none := by
  unfold step? at h
  split at h <;> cases h <;> simp_all [head_add, head]

theorem nodes_else (h : o.step? .elseArm = some o') : o'.nodes none = o.nodes none := by
  unfold step? at h
  split at h <;> cases h <;> simp_all [nodes, Forest.layout, Expr.holding]

theorem head_else (h : o.step? .elseArm = some o') : o'.head none = o.head none := by
  unfold step? at h
  split at h <;> cases h <;> simp_all [head]

/-! ## The place of the next instruction -/

theorem label_last_lt {l : Nat} (h : o.label.last = some l) : l < o.size := by
  cases o <;> exact Nat.lt_of_lt_of_le (Forest.last?_lt h).2 (by simp [size])

/-- Behind the last instruction of the innermost scope, the next one is linked in its node. -/
theorem modify_nodes {l : Nat} (h : o.label.last = some l) (id : Nat) (tail : List Node) :
    (o.nodes none ++ tail).modify l (fun n => { n with next := some id }) =
      o.nodes (some id) ++ tail := by
  cases o with
  | body done => simpa [nodes] using Forest.modify_layout [] tail id h
  | scope outer kind sig done =>
    replace h : done.last? (outer.size + 1) = some l := h
    let pre := outer.nodes (some outer.size) ++ [⟨.holding kind sig (some (outer.size + 1)), none⟩]
    have hp : pre.length = outer.size + 1 := by simp [pre]
    have := Forest.modify_layout pre tail id (f := done) (l := l) (by rw [hp]; exact h)
    rw [hp] at this
    simpa [pre, nodes, Forest.head_of_last? h] using this
  | elseArm outer sig thenArm done =>
    replace h : done.last? (outer.size + 1 + thenArm.size) = some l := h
    let pre := outer.nodes (some outer.size) ++
      ⟨.ifThen sig (thenArm.head (outer.size + 1) none) (some (outer.size + 1 + thenArm.size)),
        none⟩ :: thenArm.layout (outer.size + 1) none
    have hp : pre.length = outer.size + 1 + thenArm.size := by
      simp [pre]
      omega
    have := Forest.modify_layout pre tail id (f := done) (l := l) (by rw [hp]; exact h)
    rw [hp] at this
    simpa [pre, nodes, Forest.head_of_last? h] using this

theorem head_of_last {l : Nat} (h : o.label.last = some l) (id : Nat) :
    o.head (some id) = o.head none := by
  cases o with
  | body done => simp only [head, Forest.head_of_last? h]
  | _ => rfl

/-- Closing all scopes leaves the nodes as they are. -/
theorem layout_close (o : OpenBody) (g : Forest) :
    (o.close g).layout 0 none = o.nodes (g.head o.size none) ++ g.layout o.size none := by
  induction o generalizing g with
  | body done => simp [close, nodes, size, Forest.layout_append]
  | scope outer kind sig done ih =>
    simp [close, ih, nodes, size, Forest.layout, Forest.layout_append, Forest.head_append]
  | elseArm outer sig thenArm done ih =>
    simp [close, ih, nodes, size, Forest.layout, Forest.layout_append, Forest.head_append]

theorem head_close (o : OpenBody) (g : Forest) :
    (o.close g).head 0 none = o.head (g.head o.size none) := by
  induction o generalizing g with
  | body done => simp [close, head, size, Forest.head_append]
  | scope outer kind sig done ih => simp [close, ih, head]
  | elseArm outer sig thenArm done ih => simp [close, ih, head]

end OpenBody

/-- The instructions of a function: its arena, and the first instruction of its body. -/
structure Code where
  arena : Arena := {}
  first : Option Nat := none
  deriving DecidableEq, Repr, Inhabited

/-- The arena holds what has been read of a body. -/
structure Code.Spells (c : Code) (o : OpenBody) : Prop where
  nodes : c.arena.nodes.toList = o.nodes none
  first : c.first = o.head none

namespace Func

/-- The instructions of a function. -/
def code (f : Func) : Code := ⟨f.arena, f.first⟩

variable {f : Func} {o : OpenBody} {tail : List Node}

/-- The place exists where the next instruction of the innermost scope has to be linked. -/
theorem canLink_label (h : f.arena.nodes.toList = o.nodes none ++ tail) :
    f.canLink o.label = true := by
  have hsize : o.size ≤ f.arena.size := by
    simp [Arena.size, ← Array.length_toList, h]
  have hown : ∀ {pre node rest}, o.nodes none = pre ++ node :: rest →
      f.arena.expr? pre.length = some node.expr := by
    intro pre node rest ho
    simp [Arena.expr?, Arena.node?, ← Array.getElem?_toList, h, ho]
  cases hl : o.label.last with
  | some l =>
    simp only [canLink, hl, decide_eq_true_eq]
    exact Nat.lt_of_lt_of_le (OpenBody.label_last_lt hl) hsize
  | none =>
    simp only [canLink, hl]
    cases o with
    | body done => rfl
    | scope outer kind sig done =>
      have := hown rfl
      rw [OpenBody.length_nodes] at this
      cases kind <;> simp [OpenBody.label, this, Expr.holding, Expr.isStructured]
    | elseArm outer sig thenArm done =>
      have := hown rfl
      rw [OpenBody.length_nodes] at this
      simp [OpenBody.label, this, Expr.isIf]

/-- Links a node behind the last instruction of the innermost scope. -/
theorem link_label (id : Nat) (h : f.arena.nodes.toList = o.nodes none ++ tail)
    (hf : f.first = o.head none) :
    (f.link o.label id).arena.nodes.toList = o.nodes (some id) ++ tail ∧
      (f.link o.label id).first = o.head (some id) := by
  cases hl : o.label.last with
  | some l =>
    simp only [link, hl, Arena.setNext, Array.toList_modify, h]
    exact ⟨OpenBody.modify_nodes hl id tail, by rw [hf, OpenBody.head_of_last hl]⟩
  | none =>
    simp only [link, hl]
    cases o with
    | body done =>
      obtain rfl := Forest.last?_eq_none.mp hl
      exact ⟨h, rfl⟩
    | scope outer kind sig done =>
      obtain rfl := Forest.last?_eq_none.mp hl
      have := modify_length (outer.nodes (some outer.size)) ⟨.holding kind sig none, none⟩ tail
        fun n => { n with expr := n.expr.setFirst id }
      have hs : (Expr.holding kind sig none).setFirst id = .holding kind sig (some id) := by
        cases kind <;> rfl
      refine ⟨?_, hf⟩
      simpa [OpenBody.label, OpenBody.nodes, Forest.layout, Arena.setFirst, h, hs] using this
    | elseArm outer sig thenArm done =>
      obtain rfl := Forest.last?_eq_none.mp hl
      have := modify_length (outer.nodes (some outer.size))
        ⟨.ifThen sig (thenArm.head (outer.size + 1) none) none, none⟩
        (thenArm.layout (outer.size + 1) none ++ tail)
        fun n => { n with expr := n.expr.setElseFirst id }
      refine ⟨?_, hf⟩
      simpa [OpenBody.label, OpenBody.nodes, Forest.layout, Arena.setElseFirst, Expr.setElseFirst,
        h] using this

end Func

end WasmDecode
