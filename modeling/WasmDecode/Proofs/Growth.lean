import WasmDecode.Proofs.Effect
import WasmDecode.Proofs.Accept

/-!
# Modules only grow

Decoding never takes anything back. Collections grow at their ends, and what is in them stays as it
is, apart from what has been left open: the links of instructions, what an import imports, and the
init expressions. Each of these is written once.

* `Fills`: what is present stays; `Extends`: what is in a list stays at its place.
* `Node.Grows`, `Code.Grows`: instructions stay, and their links are written once. One more event of
  a body does no more than that (`Code.Spells.grows`).
* `Func.Grows`, `Import.Grows`, `Global.Grows`, `ElemSegment.Grows`, `DataSegment.Grows`: what may
  become of the items of a module.
* `Module.Grows`: what an event may do to a module; `Builder.step_grows` says that no event ever
  does more.
* `Module.Lasts`: what stays while decoding goes on; `Builder.Sound.lasts` says so of runs.
-/

namespace WasmDecode

variable {α : Type}

/-- What is present stays as it is. What is absent may become present. -/
def Fills (before after : Option α) : Prop := ∀ a, before = some a → after = some a

/-- What is in a list stays at its place, and changes at most as far as `R` says. -/
def Extends (R : Nat → α → α → Prop) (l l' : List α) : Prop :=
  ∀ (i : Nat) (a : α), l[i]? = some a → ∃ a', l'[i]? = some a' ∧ R i a a'

theorem Fills.refl (a : Option α) : Fills a a := fun _ h => h

theorem Fills.of_none {before after : Option α} (h : before = none) : Fills before after := by
  intro a ha
  cases h.symm.trans ha

theorem Fills.trans {a b c : Option α} (h : Fills a b) (h' : Fills b c) : Fills a c :=
  fun x hx => h' x (h x hx)

namespace Extends

variable {R : Nat → α → α → Prop} {S : α → α → Prop} {l l' l'' tail tail' : List α} {a a' : α}

theorem refl (hR : ∀ i a, R i a a) (l : List α) : Extends R l l := fun i a ha => ⟨a, ha, hR i a⟩

theorem mono {R' : Nat → α → α → Prop} (h : Extends R l l') (hR : ∀ i a a', R i a a' → R' i a a') :
    Extends R' l l' := by
  intro i a ha
  obtain ⟨a', ha', hr⟩ := h i a ha
  exact ⟨a', ha', hR i a a' hr⟩

theorem trans (hR : ∀ {a b c}, S a b → S b c → S a c) (h : Extends (fun _ => S) l l')
    (h' : Extends (fun _ => S) l' l'') : Extends (fun _ => S) l l'' := by
  intro i a ha
  obtain ⟨a', ha', hr⟩ := h i a ha
  obtain ⟨a'', ha'', hr'⟩ := h' i a' ha'
  exact ⟨a'', ha'', hR hr hr'⟩

theorem append_right (h : Extends R l l') (tail : List α) : Extends R l (l' ++ tail) := by
  intro i a ha
  obtain ⟨a', ha', hr⟩ := h i a ha
  obtain ⟨hi, -⟩ := List.getElem?_eq_some_iff.mp ha'
  exact ⟨a', by rwa [List.getElem?_append_left hi], hr⟩

theorem push (hR : ∀ i a, R i a a) (xs : Array α) (a : α) :
    Extends R xs.toList (xs.push a).toList := by
  rw [Array.toList_push]
  exact (refl hR _).append_right _

theorem modify (hR : ∀ i a, R i a a) {xs : Array α} {p : Nat} {g : α → α}
    (hg : ∀ a, xs[p]? = some a → R p a (g a)) : Extends R xs.toList (xs.modify p g).toList := by
  intro i a ha
  rw [Array.getElem?_toList] at ha
  rw [Array.getElem?_toList, Array.getElem?_modify]
  by_cases hi : p = i
  · subst hi
    rw [if_pos rfl, ha]
    exact ⟨g a, rfl, hg a ha⟩
  · rw [if_neg hi]
    exact ⟨a, ha, hR i a⟩

theorem cons (h : S a a') (hl : Extends (fun _ => S) l l') :
    Extends (fun _ => S) (a :: l) (a' :: l') := by
  intro i x hx
  cases i with
  | zero =>
    cases hx
    exact ⟨a', rfl, h⟩
  | succ i => exact hl i x hx

theorem append (h : Extends (fun _ => S) l l') (hlen : l.length = l'.length)
    (ht : Extends (fun _ => S) tail tail') : Extends (fun _ => S) (l ++ tail) (l' ++ tail') := by
  intro i a ha
  by_cases hi : i < l.length
  · rw [List.getElem?_append_left hi] at ha
    rw [List.getElem?_append_left (hlen ▸ hi)]
    exact h i a ha
  · have hi := Nat.le_of_not_lt hi
    rw [List.getElem?_append_right hi] at ha
    rw [List.getElem?_append_right (hlen ▸ hi), ← hlen]
    exact ht _ a ha

end Extends

theorem prefix_push (xs : Array α) (a : α) : xs.toList <+: (xs.push a).toList := by
  rw [Array.toList_push]
  exact List.prefix_append _ _

/-! ## Instructions -/

/-- An instruction apart from its links: what it is, with its operands. -/
def Expr.unlinked : Expr → Expr
  | .instr i => .instr i
  | .block sig _ => .block sig none
  | .loop sig _ => .loop sig none
  | .ifThen sig _ _ => .ifThen sig none none

/-- An instruction stays what it is, and its links are written once. -/
structure Node.Grows (n n' : Node) : Prop where
  expr : n'.expr.unlinked = n.expr.unlinked
  first : Fills n.expr.first? n'.expr.first?
  elseFirst : Fills n.expr.elseFirst? n'.expr.elseFirst?
  next : Fills n.next n'.next

/-- The instructions of a function stay what they are, and all links are written once. -/
structure Code.Grows (c c' : Code) : Prop where
  nodes : Extends (fun _ => Node.Grows) c.arena.nodes.toList c'.arena.nodes.toList
  first : Fills c.first c'.first

theorem Node.Grows.refl (n : Node) : n.Grows n := ⟨rfl, .refl _, .refl _, .refl _⟩

theorem Code.Grows.refl (c : Code) : c.Grows c :=
  ⟨.refl (fun _ => Node.Grows.refl) _, .refl _⟩

theorem Node.Grows.trans {a b c : Node} (h : a.Grows b) (h' : b.Grows c) : a.Grows c :=
  ⟨h'.expr.trans h.expr, h.first.trans h'.first, h.elseFirst.trans h'.elseFirst,
    h.next.trans h'.next⟩

theorem Code.Grows.trans {a b c : Code} (h : a.Grows b) (h' : b.Grows c) : a.Grows c :=
  ⟨h.nodes.trans Node.Grows.trans h'.nodes, h.first.trans h'.first⟩

namespace Forest

variable {start : Nat} {next : Option Nat}

/-- A list that is not empty has its head whatever follows. -/
theorem fills_head (f : Forest) : Fills (f.head start none) (f.head start next) := by
  cases f with
  | nil => exact .of_none rfl
  | _ => exact .refl _

/-- What follows a list is linked in nodes that had no link so far. -/
theorem layout_grows (f : Forest) :
    Extends (fun _ => Node.Grows) (f.layout start none) (f.layout start next) := by
  have hrefl := fun (_ : Nat) => Node.Grows.refl
  induction f generalizing start with
  | nil => exact .refl hrefl _
  | plain i rest ih => exact ih.cons ⟨rfl, .refl _, .refl _, rest.fills_head⟩
  | scope kind sig body rest _ ih =>
    exact ((Extends.refl hrefl _).append rfl ih).cons ⟨rfl, .refl _, .refl _, rest.fills_head⟩
  | ifElse sig thenArm elseArm rest _ _ ih =>
    exact ((Extends.refl hrefl _).append rfl ih).cons ⟨rfl, .refl _, .refl _, rest.fills_head⟩

end Forest

namespace OpenBody

variable {o o' : OpenBody} {e : Event} {next : Option Nat}

theorem fills_head (o : OpenBody) : Fills (o.head none) (o.head next) := by
  cases o with
  | body done => exact done.fills_head
  | _ => exact .refl _

/-- The next instruction of the innermost scope is linked in a node that had no such link so far. -/
theorem nodes_grow (o : OpenBody) :
    Extends (fun _ => Node.Grows) (o.nodes none) (o.nodes next) := by
  have hrefl := fun (_ : Nat) => Node.Grows.refl
  cases o with
  | body done => exact done.layout_grows
  | scope outer kind sig done =>
    refine (Extends.refl hrefl _).append rfl (done.layout_grows.cons ⟨?_, ?_, ?_, .refl _⟩)
    · cases kind <;> rfl
    · cases kind <;> exact done.fills_head
    · cases kind <;> exact .refl _
  | elseArm outer sig thenArm done =>
    exact (Extends.refl hrefl _).append rfl
      (((Extends.refl hrefl _).append rfl done.layout_grows).cons
        ⟨rfl, .refl _, done.fills_head, .refl _⟩)

/-- One more event adds at most one node, and links it behind what is there. -/
theorem exists_nodes_of_step? (h : o.step? e = some o') :
    ∃ next tail, o'.nodes none = o.nodes next ++ tail ∧ o'.head none = o.head next := by
  cases e with
  | instr i =>
    rw [step?_instr] at h
    cases h
    exact ⟨_, _, nodes_add _ _, head_add _ _⟩
  | beginScope kind sig =>
    rw [step?_beginScope] at h
    cases h
    exact ⟨some o.size, _, rfl, rfl⟩
  | elseArm => exact ⟨none, [], by rw [nodes_else h, List.append_nil], head_else h⟩
  | endScope => exact ⟨none, [], by rw [nodes_end h, List.append_nil], head_end h⟩
  | _ => cases o <;> cases h

end OpenBody

/-- **One more event of a body** leaves the instructions as they are, and writes only links that
were absent. -/
theorem Code.Spells.grows {c c' : Code} {o o' : OpenBody} {e : Event} (h : c.Spells o)
    (hs : o.step? e = some o') (h' : c'.Spells o') : c.Grows c' := by
  obtain ⟨next, tail, hnodes, hhead⟩ := OpenBody.exists_nodes_of_step? hs
  constructor
  · rw [h.nodes, h'.nodes, hnodes]
    exact o.nodes_grow.append_right tail
  · rw [h.first, h'.first, hhead]
    exact o.fills_head

/-! ## Items of a module -/

/-- An event gives the function at position `p` a name. -/
def Event.NamesFunc (e : Event) (p : Nat) : Prop :=
  ∃ (i : UInt32) (name : String), e = .names (.function i name) ∧ i.toNat = p ∧ name ≠ ""

/-- An event gives a parameter or local of the function at position `p` a name. -/
def Event.NamesLocal (e : Event) (p : Nat) : Prop :=
  ∃ (i localIndex : UInt32) (name : String),
    e = .names (.localName i localIndex name) ∧ i.toNat = p ∧ name ≠ ""

/-- The declaration of a function stays. Only if its body is open it gets locals or instructions,
and only if an event names it its names change. -/
structure Func.Grows (isOpen named localNamed : Prop) (f f' : Func) : Prop where
  typeIndex : f'.typeIndex = f.typeIndex
  type : f'.type = f.type
  locals : f.locals.toList <+: f'.locals.toList
  code : f.code.Grows f'.code
  of_closed : isOpen ∨ f'.locals = f.locals ∧ f'.code = f.code
  name : named ∨ f'.name = f.name
  localNames : localNamed ∨ f'.paramNames = f.paramNames ∧ f'.localNames = f.localNames

/-- Of an import it may become known what it imports, if it is the latest one. -/
structure Import.Grows (isLatest : Prop) (i i' : Import) : Prop where
  moduleName : i'.moduleName = i.moduleName
  fieldName : i'.fieldName = i.fieldName
  item : Fills i.item i'.item
  of_earlier : isLatest ∨ i' = i

/-- A global may get its value. -/
structure Global.Grows (g g' : Global) : Prop where
  type : g'.type = g.type
  isMutable : g'.isMutable = g.isMutable
  init : Fills g.init g'.init

/-- An element segment may get its place, and if it is the latest one more function indices. -/
structure ElemSegment.Grows (isLatest : Prop) (s s' : ElemSegment) : Prop where
  tableIndex : s'.tableIndex = s.tableIndex
  init : Fills s.init s'.init
  funcIndices : s.funcIndices.toList <+: s'.funcIndices.toList
  of_earlier : isLatest ∨ s'.funcIndices = s.funcIndices

/-- A data segment may get its place, and if it is the latest one other bytes. -/
structure DataSegment.Grows (isLatest : Prop) (s s' : DataSegment) : Prop where
  memoryIndex : s'.memoryIndex = s.memoryIndex
  init : Fills s.init s'.init
  of_earlier : isLatest ∨ s'.bytes = s.bytes

section Refl

variable {isOpen named localNamed isLatest : Prop}

theorem Func.Grows.refl (f : Func) : f.Grows isOpen named localNamed f :=
  ⟨rfl, rfl, List.prefix_refl _, .refl _, .inr ⟨rfl, rfl⟩, .inr rfl, .inr ⟨rfl, rfl⟩⟩

/-- A function of which nothing changes but the instructions. -/
theorem Func.Grows.of_bare {f f' : Func} (h : f'.bare = f.bare) (hcode : f.code.Grows f'.code)
    (hopen : isOpen ∨ f'.code = f.code) : f.Grows isOpen named localNamed f' := by
  simp only [Func.bare, Func.mk.injEq] at h
  obtain ⟨htypeIndex, htype, hlocals, -, -, hname, hparams, hlocalNames⟩ := h
  exact ⟨htypeIndex, htype, hlocals ▸ List.prefix_refl _, hcode,
    hopen.imp_right fun hcode => ⟨hlocals, hcode⟩, .inr hname, .inr ⟨hparams, hlocalNames⟩⟩

theorem Import.Grows.refl (i : Import) : i.Grows isLatest i := ⟨rfl, rfl, .refl _, .inr rfl⟩

theorem Global.Grows.refl (g : Global) : g.Grows g := ⟨rfl, rfl, .refl _⟩

theorem ElemSegment.Grows.refl (s : ElemSegment) : s.Grows isLatest s :=
  ⟨rfl, .refl _, List.prefix_refl _, .inr rfl⟩

theorem DataSegment.Grows.refl (s : DataSegment) : s.Grows isLatest s := ⟨rfl, .refl _, .inr rfl⟩

end Refl

/-! ## Modules -/

/-- What the event `e` may make of a module while the body of the function at position `current` is
open. -/
structure Module.Grows (m : Module) (current : Option Nat) (e : Event) (m' : Module) : Prop where
  types : m.types.toList <+: m'.types.toList
  tables : m.tables.items.toList <+: m'.tables.items.toList
  memories : m.memories.items.toList <+: m'.memories.items.toList
  exports : m.exports.toList <+: m'.exports.toList
  fields : m.fields.toList <+: m'.fields.toList
  imports : Extends (fun i => Import.Grows (i + 1 = m.imports.size)) m.imports.toList
    m'.imports.toList
  funcs : Extends (fun p => Func.Grows (current = some p) (e.NamesFunc p) (e.NamesLocal p))
    m.funcs.items.toList m'.funcs.items.toList
  globals : Extends (fun _ => Global.Grows) m.globals.items.toList m'.globals.items.toList
  elemSegments : Extends (fun i => ElemSegment.Grows (i + 1 = m.elemSegments.size))
    m.elemSegments.toList m'.elemSegments.toList
  dataSegments : Extends (fun i => DataSegment.Grows (i + 1 = m.dataSegments.size))
    m.dataSegments.toList m'.dataSegments.toList
  funcNames : (∃ p, e.NamesFunc p) ∨ m'.funcNames = m.funcNames

namespace Module.Grows

variable {m : Module} {current : Option Nat} {e : Event}

theorem refl (m : Module) (current : Option Nat) (e : Event) : m.Grows current e m where
  types := List.prefix_refl _
  tables := List.prefix_refl _
  memories := List.prefix_refl _
  exports := List.prefix_refl _
  fields := List.prefix_refl _
  imports := .refl (fun _ => Import.Grows.refl) _
  funcs := .refl (fun _ => Func.Grows.refl) _
  globals := .refl (fun _ => Global.Grows.refl) _
  elemSegments := .refl (fun _ => ElemSegment.Grows.refl) _
  dataSegments := .refl (fun _ => DataSegment.Grows.refl) _
  funcNames := .inr rfl

/-- An item that the module defines itself comes behind those that are there. -/
theorem define (m : Module) (current : Option Nat) (e : Event) (item : ItemDecl) (index : Nat) :
    m.Grows current e ((m.record (.item item.kind) index).addDefined item) := by
  cases item with
  | func sigIndex =>
    exact { refl m current e with
      fields := prefix_push _ _
      funcs := .push (fun _ => Func.Grows.refl) _ _ }
  | table elemType limits =>
    exact { refl m current e with
      fields := prefix_push _ _
      tables := prefix_push _ _ }
  | memory limits =>
    exact { refl m current e with
      fields := prefix_push _ _
      memories := prefix_push _ _ }
  | global type isMutable =>
    exact { refl m current e with
      fields := prefix_push _ _
      globals := .push (fun _ => Global.Grows.refl) _ _ }

/-- The latest import is told what it imports, and that comes behind what is there. -/
theorem importItem {i : UInt32} {item : ItemDecl} (hm : m.MayImport i item) :
    m.Grows current e ((m.complete i item.kind).addImported item) := by
  have himports : Extends (fun j => Import.Grows (j + 1 = m.imports.size)) m.imports.toList
      (m.complete i item.kind).imports.toList := by
    refine .modify (fun _ => Import.Grows.refl) fun entry hentry => ?_
    have hnone : entry.item = none := by
      have h := hm.incomplete
      rwa [hentry] at h
    exact ⟨rfl, rfl, .of_none hnone, .inl hm.latest.symm⟩
  cases item with
  | func sigIndex =>
    exact { refl m current e with
      imports := himports
      funcs := .push (fun _ => Func.Grows.refl) _ _ }
  | table elemType limits =>
    exact { refl m current e with
      imports := himports
      tables := prefix_push _ _ }
  | memory limits =>
    exact { refl m current e with
      imports := himports
      memories := prefix_push _ _ }
  | global type isMutable =>
    exact { refl m current e with
      imports := himports
      globals := .push (fun _ => Global.Grows.refl) _ _ }

/-- An init expression that is absent gets a value. -/
theorem putInit {target : InitTarget} (value : Expr)
    (h : Build.initOf? m target = some none) :
    m.Grows current e (Build.putInit target value m) := by
  obtain ⟨site, position⟩ := target
  have habsent {α : Type} {items : Array α} {a : α} (init : α → Option Expr)
      (h : items[position]?.map init = some none) (ha : items[position]? = some a) :
      init a = none := by
    rw [ha] at h
    exact Option.some.inj h
  cases site with
  | global =>
    exact { refl m current e with
      globals := .modify (fun _ => Global.Grows.refl) fun g hg =>
        ⟨rfl, rfl, .of_none (habsent Global.init h hg)⟩ }
  | elemSegment =>
    exact { refl m current e with
      elemSegments := .modify (fun _ => ElemSegment.Grows.refl) fun s hs =>
        ⟨rfl, .of_none (habsent ElemSegment.init h hs), List.prefix_refl _, .inr rfl⟩ }
  | dataSegment =>
    exact { refl m current e with
      dataSegments := .modify (fun _ => DataSegment.Grows.refl) fun s hs =>
        ⟨rfl, .of_none (habsent DataSegment.init h hs), .inr rfl⟩ }

end Module.Grows

/-! ## Events -/

namespace Builder

variable {b b' : Builder} {e : Event}

/-- An event that is not one of instructions. -/
theorem Takes.grows (h : b.Takes e b') (he : e.isCode = false) :
    b.module.Grows b.currentFunc e b'.module := by
  have hrefl := Module.Grows.refl b.module b.currentFunc e
  cases h with
  | beginModule => exact { hrefl with }
  | endModule | itemCount | bodyCount | beginBody | endBody | elemCount | beginInit | endInit
  | functionCount | localCount | idle => exact hrefl
  | funcType => exact { hrefl with fields := prefix_push _ _, types := prefix_push _ _ }
  | importEntry =>
    exact { hrefl with
      fields := prefix_push _ _
      imports := .push (fun _ => Import.Grows.refl) _ _ }
  | importItem _ _ _ hm => exact .importItem hm
  | define => exact .define _ _ _ _ _
  | exportEntry => exact { hrefl with fields := prefix_push _ _, exports := prefix_push _ _ }
  | startFunction => exact { hrefl with fields := prefix_push _ _ }
  | localDecl _ _ hp =>
    exact { hrefl with
      funcs := .modify (fun _ => Func.Grows.refl) fun f _ =>
        ⟨rfl, rfl, by rw [Array.toList_append]; exact List.prefix_append _ _, .refl _, .inl hp,
          .inr rfl, .inr ⟨rfl, rfl⟩⟩ }
  | code hc => cases he.symm.trans hc
  | beginElemSegment =>
    exact { hrefl with
      fields := prefix_push _ _
      elemSegments := .push (fun _ => ElemSegment.Grows.refl) _ _ }
  | elem _ hi =>
    exact { hrefl with
      elemSegments := .modify (fun _ => ElemSegment.Grows.refl) fun s _ =>
        ⟨rfl, .refl _, prefix_push _ _, .inl hi⟩ }
  | beginDataSegment =>
    exact { hrefl with
      fields := prefix_push _ _
      dataSegments := .push (fun _ => DataSegment.Grows.refl) _ _ }
  | segmentData _ hi =>
    exact { hrefl with
      dataSegments := .modify (fun _ => DataSegment.Grows.refl) fun s _ =>
        ⟨rfl, .refl _, .inl hi⟩ }
  | initValue _ _ _ hi => exact .putInit _ hi
  | @function i name hn =>
    exact { hrefl with
      funcs := .modify (fun _ => Func.Grows.refl) fun f _ =>
        ⟨rfl, rfl, List.prefix_refl _, .refl _, .inr ⟨rfl, rfl⟩, .inl ⟨i, name, rfl, rfl, hn⟩,
          .inr ⟨rfl, rfl⟩⟩
      funcNames := .inl ⟨i.toNat, i, name, rfl, rfl, hn⟩ }
  | @localName i localIndex name _ hn =>
    have hnames (f : Func) : f.Grows (b.currentFunc = some i.toNat)
        (Event.NamesFunc (.names (.localName i localIndex name)) i.toNat)
        (Event.NamesLocal (.names (.localName i localIndex name)) i.toNat)
        (f.nameLocal localIndex name) := by
      have hlocal : Event.NamesLocal (.names (.localName i localIndex name)) i.toNat :=
        ⟨i, localIndex, name, rfl, rfl, hn⟩
      unfold Func.nameLocal
      split
      · exact ⟨rfl, rfl, List.prefix_refl _, .refl _, .inr ⟨rfl, rfl⟩, .inr rfl, .inl hlocal⟩
      · exact ⟨rfl, rfl, List.prefix_refl _, .refl _, .inr ⟨rfl, rfl⟩, .inr rfl, .inl hlocal⟩
    exact { hrefl with funcs := .modify (fun _ => Func.Grows.refl) fun f _ => hnames f }

/-- An event of instructions that is accepted goes to the function whose body is open. -/
theorem Sound.grows_code (hb : b.Sound) (he : e.isCode = true) (h : b.handle e = .ok () b') :
    b.module.Grows b.currentFunc e b'.module := by
  have hedits : b.EditsCode b' := Build.keeps_handle he _ _ _ h
  obtain ⟨p, o, o', hr, hs, hadv⟩ : ∃ p o o', b.Reading p o ∧ o.step? e = some o' ∧
      b.Advances p o' b' := by
    cases hc : b.currentFunc with
    | none =>
      obtain ⟨stop, hstop⟩ := handle_error_of_closed (hb.idle hc) he
      cases h.symm.trans hstop
    | some p =>
      obtain ⟨o, hr⟩ := hb.reading p hc
      obtain ⟨o', hs, hadv⟩ := hr.of_code he h
      exact ⟨p, o, o', hr, hs, hadv⟩
  have hfuncs : Extends
      (fun q => Func.Grows (b.currentFunc = some q) (e.NamesFunc q) (e.NamesLocal q))
      b.module.funcs.items.toList b'.module.funcs.items.toList := by
    intro q f hf
    rw [Array.getElem?_toList] at hf
    have hbare := hedits.bare q
    rw [hf, Option.map_some] at hbare
    obtain ⟨f', hf', hbare⟩ := Option.map_eq_some_iff.mp hbare
    have hcode : f.code.Grows f'.code ∧ (b.currentFunc = some q ∨ f'.code = f.code) := by
      by_cases hq : q = p
      · subst hq
        have hspells := hr.spells
        have hspells' := hadv.reading.spells
        rw [codeAt_of_getElem? hf] at hspells
        rw [codeAt_of_getElem? hf'] at hspells'
        exact ⟨hspells.grows hs hspells', .inl hr.current⟩
      · have hother := hadv.other q hq
        rw [codeAt_of_getElem? hf, codeAt_of_getElem? hf'] at hother
        rw [hother]
        exact ⟨.refl _, .inr rfl⟩
    exact ⟨f', by rwa [Array.getElem?_toList], .of_bare hbare hcode.1 hcode.2⟩
  rw [hedits.module]
  exact { Module.Grows.refl b.module b.currentFunc e with funcs := hfuncs }

theorem Sound.grows (hb : b.Sound) (e : Event) :
    b.module.Grows b.currentFunc e (b.step e).module := by
  unfold Builder.step
  rcases hb.handle_cases e with ⟨b', h, -⟩ | ⟨stop, h⟩
  · rw [h]
    cases he : e.isCode with
    | true => exact hb.grows_code he h
    | false => exact (takes_of_handle h).grows he
  · rw [h]
    exact .refl _ _ _

/-- **Modules only grow**, and what is left open is written once: this holds of every event after
any events, whether or not it is accepted. -/
theorem step_grows (events : List Event) (e : Event) :
    let b := ({} : Builder).run events
    b.module.Grows b.currentFunc e (b.step e).module :=
  (sound_run events).grows e

end Builder

/-! ## Runs -/

/-- What lasts of a module while decoding goes on: all that is in it, apart from names, the bytes of
data segments, and what is yet to be written. -/
structure Module.Lasts (m m' : Module) : Prop where
  types : m.types.toList <+: m'.types.toList
  tables : m.tables.items.toList <+: m'.tables.items.toList
  memories : m.memories.items.toList <+: m'.memories.items.toList
  exports : m.exports.toList <+: m'.exports.toList
  fields : m.fields.toList <+: m'.fields.toList
  imports : Extends (fun _ => Import.Grows True) m.imports.toList m'.imports.toList
  funcs : Extends (fun _ => Func.Grows True True True) m.funcs.items.toList m'.funcs.items.toList
  globals : Extends (fun _ => Global.Grows) m.globals.items.toList m'.globals.items.toList
  elemSegments : Extends (fun _ => ElemSegment.Grows True) m.elemSegments.toList
    m'.elemSegments.toList
  dataSegments : Extends (fun _ => DataSegment.Grows True) m.dataSegments.toList
    m'.dataSegments.toList

theorem Module.Grows.lasts {m m' : Module} {current : Option Nat} {e : Event}
    (h : m.Grows current e m') : m.Lasts m' where
  types := h.types
  tables := h.tables
  memories := h.memories
  exports := h.exports
  fields := h.fields
  imports := h.imports.mono fun _ _ _ g => { g with of_earlier := .inl trivial }
  funcs := h.funcs.mono fun _ _ _ g =>
    { g with of_closed := .inl trivial, name := .inl trivial, localNames := .inl trivial }
  globals := h.globals
  elemSegments := h.elemSegments.mono fun _ _ _ g => { g with of_earlier := .inl trivial }
  dataSegments := h.dataSegments.mono fun _ _ _ g => { g with of_earlier := .inl trivial }

theorem Module.Lasts.trans {a b c : Module} (h : a.Lasts b) (h' : b.Lasts c) : a.Lasts c where
  types := h.types.trans h'.types
  tables := h.tables.trans h'.tables
  memories := h.memories.trans h'.memories
  exports := h.exports.trans h'.exports
  fields := h.fields.trans h'.fields
  imports := h.imports.trans (fun g g' => ⟨g'.moduleName.trans g.moduleName,
    g'.fieldName.trans g.fieldName, g.item.trans g'.item, .inl trivial⟩) h'.imports
  funcs := h.funcs.trans (fun g g' => ⟨g'.typeIndex.trans g.typeIndex, g'.type.trans g.type,
    g.locals.trans g'.locals, g.code.trans g'.code, .inl trivial, .inl trivial, .inl trivial⟩)
    h'.funcs
  globals := h.globals.trans (fun g g' => ⟨g'.type.trans g.type, g'.isMutable.trans g.isMutable,
    g.init.trans g'.init⟩) h'.globals
  elemSegments := h.elemSegments.trans (fun g g' => ⟨g'.tableIndex.trans g.tableIndex,
    g.init.trans g'.init, g.funcIndices.trans g'.funcIndices, .inl trivial⟩) h'.elemSegments
  dataSegments := h.dataSegments.trans (fun g g' => ⟨g'.memoryIndex.trans g.memoryIndex,
    g.init.trans g'.init, .inl trivial⟩) h'.dataSegments

namespace Builder

/-- **What is in a module lasts**, whatever events follow. -/
theorem Sound.lasts {b : Builder} (hb : b.Sound) (events : List Event) :
    b.module.Lasts (b.run events).module := by
  induction events generalizing b with
  | nil => exact (Module.Grows.refl b.module none .endModule).lasts
  | cons e events ih => exact (hb.grows e).lasts.trans (ih (hb.step e))

end Builder
end WasmDecode
