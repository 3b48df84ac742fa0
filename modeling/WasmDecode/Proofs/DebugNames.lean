import WasmDecode.Proofs.Reports

/-!
# Debug names change nothing but names

What a module is apart from its names does not depend on whether the names section is read. No
action looks at a name but those that name something, and these change nothing else.

* `Func.unnamed`, `Module.unnamed`, `Builder.unnamed`: what is left without names.
* `Build.Blind`: an action that does the same with and without names; `Build.blind_handle` says so
  of all events but those of the names section.
* `Builder.unnamed_of_names`: what the names section tells changes nothing but names.
* `ErrorHandler.passes_unnamed`: a decoder that is not told the names section.
* `ErrorHandler.decode_debugNames`: decoding with and without names.
-/

namespace WasmDecode

/-! ## Without names -/

/-- A function without its name and those of its parameters and locals. -/
def Func.unnamed (f : Func) : Func := { f with name := none, paramNames := ∅, localNames := ∅ }

/-- A module in which no function has a name, and no name is bound. -/
def Module.unnamed (m : Module) : Module :=
  { m with
    funcs := { m.funcs with items := m.funcs.items.map Func.unnamed }
    funcNames := ∅ }

/-- A builder of a module without names. -/
def Builder.unnamed (b : Builder) : Builder := { b with module := b.module.unnamed }

/-- A decoder of a module without names. -/
def Decoder.unnamed {η : Type} (d : Decoder η) : Decoder η :=
  { d with builder := d.builder.unnamed }

namespace Builder

theorem size_unnamed (b : Builder) : b.unnamed.module.funcs.size = b.module.funcs.size :=
  Array.size_map

theorem getElem?_unnamed (b : Builder) (p : Nat) :
    b.unnamed.module.funcs.items[p]? = b.module.funcs.items[p]?.map Func.unnamed :=
  Array.getElem?_map

theorem itemCount_unnamed (b : Builder) (kind : ExternalKind) :
    b.unnamed.module.itemCount kind = b.module.itemCount kind := by
  cases kind with
  | func => exact b.size_unnamed
  | _ => rfl

theorem importedCount_unnamed (b : Builder) (kind : ExternalKind) :
    b.unnamed.module.importedCount kind = b.module.importedCount kind := by
  cases kind <;> rfl

end Builder

namespace Module

/-- To change a function and then to drop its name is to change a function without its name. -/
theorem map_unnamed_modify (items : Array Func) (p : Nat) {g g' : Func → Func}
    (hg : ∀ f, (g f).unnamed = g' f.unnamed) :
    (items.modify p g).map Func.unnamed = (items.map Func.unnamed).modify p g' := by
  apply Array.ext_getElem?
  intro q
  rw [Array.getElem?_map, Array.getElem?_modify, Array.getElem?_modify, Array.getElem?_map]
  split
  · rw [Option.map_map, Option.map_map]
    exact congrArg (Option.map · _) (funext hg)
  · rfl

/-- A change of the names of a function, and of what names are bound to, is not seen without
them. -/
theorem unnamed_rename (m : Module) (p : Nat) {g : Func → Func}
    (hg : ∀ f, (g f).unnamed = f.unnamed) (names : NameMap) :
    { m with funcs := m.funcs.modify p g, funcNames := names }.unnamed = m.unnamed := by
  have hmodify : (m.funcs.items.modify p g).map Func.unnamed =
      (m.funcs.items.map Func.unnamed).modify p id := map_unnamed_modify _ p hg
  have hid : (m.funcs.items.map Func.unnamed).modify p id = m.funcs.items.map Func.unnamed := by
    apply Array.ext'
    rw [Array.toList_modify, List.modify_id]
  unfold unnamed IndexSpace.modify
  rw [hmodify, hid]

theorem unnamed_empty : ({} : Module).unnamed = {} := by
  unfold unnamed
  rw [Array.map_empty]

theorem unnamed_push (m : Module) (f : Func) (imported : Nat) :
    { m with funcs := ⟨m.funcs.items.push f, imported⟩ }.unnamed =
      { m.unnamed with funcs := ⟨m.unnamed.funcs.items.push f.unnamed, imported⟩ } := by
  unfold unnamed
  rw [Array.map_push]

end Module

/-! ## Actions that do not look at names -/

namespace Build

variable {α β : Type}

/-- What an action leads to, without names. -/
def Outcome.unnamed : EStateM.Result Stop Builder α → EStateM.Result Stop Builder α
  | .ok a b => .ok a b.unnamed
  | .error stop b => .error stop b.unnamed

/-- An action that does the same with and without names. -/
def Blind (x : Build α) : Prop := ∀ b : Builder, x.run b.unnamed = Outcome.unnamed (x.run b)

namespace Blind

-- The closure lemmas follow the text of an action. Where it looks at the builder, `get_bind` asks
-- that what follows is the same without names, which is true by definition unless functions are
-- counted or looked up.

theorem pure (a : α) : Blind (Pure.pure a : Build α) := fun _ => rfl

theorem throw (stop : Stop) : Blind (MonadExcept.throw stop : Build α) := fun _ => rfl

theorem refuse (cause : Cause) : Blind (Build.refuse cause : Build α) := .throw _

theorem require (p : Prop) [Decidable p] (cause : Cause) : Blind (Build.require p cause) := by
  unfold Build.require
  split
  · exact .pure ()
  · exact .refuse cause

theorem expect (answer : Except Fault α) : Blind (Build.expect answer) := by
  cases answer with
  | ok a => exact .pure a
  | error f => exact .throw _

theorem bind {x : Build α} {f : α → Build β} (hx : Blind x) (hf : ∀ a, Blind (f a)) :
    Blind (x >>= f) := by
  intro b
  rw [EStateM.run_bind, EStateM.run_bind, hx b]
  cases x.run b with
  | ok a b₁ => exact hf a b₁
  | error stop b₁ => rfl

/-- To look at a builder does not matter if what follows is the same without names. -/
theorem get_bind {f : Builder → Build α} (heq : ∀ b, f b.unnamed = f b) (hf : ∀ b, Blind (f b)) :
    Blind (MonadState.get >>= f) := by
  intro b
  rw [run_get_bind, run_get_bind, heq]
  exact hf b b

theorem modify {f : Builder → Builder} (hf : ∀ b, f b.unnamed = (f b).unnamed) :
    Blind (modify f : Build Unit) := by
  intro b
  rw [EStateM.run_modify, EStateM.run_modify, hf]
  rfl

theorem modifyModule {f : Module → Module} (hf : ∀ m, f m.unnamed = (f m).unnamed) :
    Blind (Build.modifyModule f) :=
  .modify fun b => congrArg (fun m => { b with module := m }) (hf b.module)

theorem modifyFunc (p : Nat) {g : Func → Func} (hg : ∀ f, g f.unnamed = (g f).unnamed) :
    Blind (Build.modifyFunc p g) :=
  .modifyModule fun m => by
    unfold Module.unnamed IndexSpace.modify
    rw [Module.map_unnamed_modify _ p fun f => (hg f).symm]

theorem discard {x : Build α} (hx : Blind x) : Blind (Functor.discard x) :=
  .bind hx fun _ => .pure ()

theorem item (items : Array α) (i : Nat) : Blind (Build.item items i) := by
  unfold Build.item
  split
  · exact .pure _
  · exact .throw _

theorem signature (index : UInt32) : Blind (Build.signature index) := by
  refine .get_bind (fun _ => rfl) fun b => ?_
  dsimp only
  split
  · exact .pure _
  · exact .refuse _

theorem funcPosition (what : String) (index : UInt32) : Blind (Build.funcPosition what index) := by
  refine .get_bind (fun b => ?_) fun b => .bind (.require _ _) fun _ => .pure _
  rw [b.size_unnamed]

theorem lastPosition (what : String) (index : UInt32) (size : Nat) :
    Blind (Build.lastPosition what index size) := .bind (.require _ _) fun _ => .pure _

theorem reserve (count : UInt32) : Blind (Build.reserve count) := .require _ _

theorem recordField (kind : FieldKind) (index : Nat) : Blind (Build.recordField kind index) :=
  .modifyModule fun _ => rfl

end Blind

/-! ### Definitions -/

theorem blind_completeImport (importIndex : UInt32) (kind : ExternalKind) :
    Blind (completeImport importIndex kind) := by
  refine .get_bind (fun b => ?_) fun b => .bind (.require _ _) fun _ =>
    .bind (.require _ _) fun _ => .bind (.item _ _) fun _ => .bind (.require _ _) fun _ =>
      .modifyModule fun _ => rfl
  dsimp only
  rw [b.itemCount_unnamed, b.importedCount_unnamed]
  rfl

theorem blind_importItem (importIndex : UInt32) (item : ItemDecl) :
    Blind (importItem importIndex item) := by
  cases item with
  | func sigIndex =>
    exact .bind (.signature _) fun type => .bind (blind_completeImport _ _) fun _ =>
      .modifyModule fun m =>
        (m.unnamed_push { typeIndex := sigIndex, type } (m.funcs.imported + 1)).symm
  | _ => exact .bind (blind_completeImport _ _) fun _ => .modifyModule fun _ => rfl

theorem blind_define (item : ItemDecl) : Blind (define item) := by
  cases item with
  | func sigIndex =>
    refine .bind (.signature _) fun type => .get_bind (fun b => ?_) fun b =>
      .bind (.recordField _ _) fun _ => .modifyModule fun m =>
        (m.unnamed_push { typeIndex := sigIndex, type } m.funcs.imported).symm
    rw [b.size_unnamed]
  | _ => exact .get_bind (fun _ => rfl) fun _ => .bind (.recordField _ _) fun _ =>
      .modifyModule fun _ => rfl

theorem blind_addExport (kind : ExternalKind) (itemIndex : UInt32) (name : String) :
    Blind (addExport kind itemIndex name) := by
  refine .get_bind (fun b => ?_) fun b => .bind (.require _ _) fun _ =>
    .get_bind (fun _ => rfl) fun _ => .bind (.recordField _ _) fun _ => .modifyModule fun _ => rfl
  rw [b.itemCount_unnamed]

theorem blind_setInit (value : InitValue) : Blind (setInit value) := by
  refine .get_bind (fun _ => rfl) fun b => ?_
  dsimp only
  split
  · exact .refuse _
  · exact .refuse _
  · next target _ =>
    refine .modifyModule fun m => ?_
    unfold putInit
    cases target.site <;> rfl

/-! ### Bodies -/

theorem blind_innermost : Blind innermost := by
  refine .get_bind (fun _ => rfl) fun b => ?_
  split
  · exact .pure _
  · exact .refuse _

theorem blind_openFunc (event : String) : Blind (openFunc event) := by
  refine .get_bind (fun _ => rfl) fun b => ?_
  split
  · exact .pure _
  · exact .refuse _

theorem blind_popLabel : Blind popLabel := by
  refine .get_bind (fun _ => rfl) fun b => ?_
  split
  · exact .modify fun _ => rfl
  · exact .refuse _

theorem blind_allocNode (func : Nat) (e : Expr) : Blind (allocNode func e) := by
  refine .get_bind (fun b => ?_) fun b => ?_
  · rw [b.getElem?_unnamed, Option.map_map]
    rfl
  · split
    · exact .bind (.require _ _) fun _ => .bind (.modifyFunc _ fun _ => rfl) fun _ => .pure _
    · exact .refuse _

theorem blind_linkNode (func : Nat) (label : Label) (id : ExprId) :
    Blind (linkNode func label id) := by
  have hlink (f : Func) : f.unnamed.link label id = (f.link label id).unnamed := by
    unfold Func.link
    split <;> rfl
  refine .get_bind (fun b => ?_) fun b => .bind (.require _ _) fun _ =>
    .bind (.modifyFunc _ hlink) fun _ => .modify fun _ => rfl
  rw [b.getElem?_unnamed, Option.any_map]
  rfl

theorem blind_append (e : Expr) : Blind (append e) :=
  .bind blind_innermost fun _ => .bind (blind_openFunc _) fun _ => .bind (blind_allocNode _ _)
    fun _ => .bind (blind_linkNode _ _ _) fun _ => .pure _

theorem blind_addInstr (i : Instr) : Blind (addInstr i) := by
  have happend := (blind_append (.instr i)).discard
  cases i with
  | callIndirect sigIndex => exact .bind (Blind.signature _).discard fun _ => happend
  | load op arg | store op arg =>
    simp only [addInstr]
    split
    · exact happend
    · exact .bind (.refuse _) fun _ => happend
  | _ => exact happend

theorem blind_elseArm : Blind elseArm := by
  refine .bind blind_innermost fun label => ?_
  split
  · refine .get_bind (fun _ => rfl) fun b => ?_
    split
    · exact .modify fun _ => rfl
    · exact .throw _
  · exact .refuse _

theorem blind_addLocals (count : UInt32) (type : ValueType) : Blind (addLocals count type) := by
  refine .bind (blind_openFunc _) fun func => .get_bind (fun b => ?_) fun b => ?_
  · rw [b.getElem?_unnamed, Option.map_map]
    rfl
  · split
    · exact .bind (.require _ _) fun _ => .modifyFunc _ fun _ => rfl
    · exact .throw _

theorem blind_beginBody (index : UInt32) : Blind (beginBody index) :=
  .get_bind (fun _ => rfl) fun _ => .bind (.require _ _) fun _ => .bind (.funcPosition _ _) fun _ =>
    .bind (.require _ _) fun _ => .bind (.require _ _) fun _ =>
      .bind (.modify fun _ => rfl) fun _ => .modify fun _ => rfl

theorem blind_checkBodyCount (count : UInt32) : Blind (checkBodyCount count) := by
  refine .get_bind (fun b => ?_) fun b => .bind (.expect _) fun _ => .require _ _
  unfold IndexSpace.definedCount
  rw [b.size_unnamed]
  rfl

/-- **No event but those of the names section looks at names**, nor at what they are bound to. -/
theorem blind_handle {e : Event} (he : e.isDebugName = false) : Blind (handle e) := by
  cases e with
  | names n => cases he
  | beginModule version =>
    show Blind (Build.modifyModule fun m => { m with version })
    exact .modifyModule fun _ => rfl
  | endModule => exact .get_bind (fun _ => rfl) fun _ => .require _ _
  | itemCount kind count => exact .reserve _
  | funcType i params results =>
    exact .get_bind (fun _ => rfl) fun _ => .bind (.recordField _ _) fun _ =>
      .modifyModule fun _ => rfl
  | importEntry i moduleName fieldName =>
    exact .get_bind (fun _ => rfl) fun _ => .bind (.recordField _ _) fun _ =>
      .modifyModule fun _ => rfl
  | importItem i moduleName fieldName itemIndex item => exact blind_importItem i item
  | define i item => exact blind_define item
  | exportEntry i kind itemIndex name => exact blind_addExport kind itemIndex name
  | startFunction i =>
    exact .bind (.funcPosition _ _) fun _ => .bind (.recordField _ _) fun _ =>
      .modifyModule fun _ => rfl
  | bodyCount count => exact blind_checkBodyCount count
  | beginBody i => exact blind_beginBody i
  | localDecl i count type => exact blind_addLocals count type
  | instr i => exact blind_addInstr i
  | beginScope kind sig => exact .bind (blind_append _) fun _ => .modify fun _ => rfl
  | elseArm => exact blind_elseArm
  | endScope => exact .bind blind_innermost fun _ => .bind (.require _ _) fun _ => blind_popLabel
  | endBody i =>
    exact .get_bind (fun _ => rfl) fun _ => .bind (.require _ _) fun _ => .bind blind_innermost
      fun _ => .bind (.require _ _) fun _ => .bind blind_popLabel fun _ => .modify fun _ => rfl
  | beginElemSegment i tableIndex =>
    exact .get_bind (fun _ => rfl) fun _ => .bind (.recordField _ _) fun _ =>
      .modifyModule fun _ => rfl
  | elemCount i count =>
    exact .get_bind (fun _ => rfl) fun _ => .bind (.lastPosition _ _ _) fun _ =>
      .bind (.item _ _) fun _ => .reserve _
  | elem i funcIndex =>
    exact .get_bind (fun _ => rfl) fun _ => .bind (.lastPosition _ _ _) fun _ =>
      .bind (.item _ _) fun _ => .modifyModule fun _ => rfl
  | beginDataSegment i memoryIndex =>
    exact .get_bind (fun _ => rfl) fun _ => .bind (.recordField _ _) fun _ =>
      .modifyModule fun _ => rfl
  | segmentData i bytes =>
    exact .get_bind (fun _ => rfl) fun _ => .bind (.lastPosition _ _ _) fun _ =>
      .bind (.item _ _) fun _ => .modifyModule fun _ => rfl
  | beginInit site i =>
    exact .get_bind (fun b => by cases site <;> rfl) fun _ => .bind (.lastPosition _ _ _) fun _ =>
      .bind (.require _ _) fun _ => .bind (.require _ _) fun _ => .modify fun _ => rfl
  | initValue i value => exact blind_setInit value
  | endInit site i =>
    exact .get_bind (fun _ => rfl) fun _ => .bind (.require _ _) fun _ => .modify fun _ => rfl
  | _ => exact .pure ()

end Build

/-! ## The names section -/

/-- **The names section changes nothing but names**, if it is accepted. -/
theorem Builder.unnamed_of_names {b b' : Builder} {e : Event} (he : e.isDebugName = true)
    (h : b.handle e = .ok () b') : b'.unnamed = b.unnamed := by
  cases takes_of_handle h with
  | functionCount | localCount | idle => rfl
  | @function i name =>
    have hg (f : Func) : { f with name := some name }.unnamed = f.unnamed := rfl
    exact congrArg (fun m => { b with module := m }) (b.module.unnamed_rename i.toNat hg _)
  | @localName i localIndex name =>
    have hg (f : Func) : (f.nameLocal localIndex name).unnamed = f.unnamed := by
      unfold Func.nameLocal
      split <;> rfl
    exact congrArg (fun m => { b with module := m })
      (b.module.unnamed_rename i.toNat hg b.module.funcNames)
  | code hc =>
    cases e with
    | instr | beginScope | elseArm | endScope => cases he
    | _ => cases hc
  | _ => cases he

namespace ErrorHandler

variable {η : Type} {h : ErrorHandler η} {data : ByteArray} {entry : Entry}
  {entries told delivered : List Entry} {d d' : Decoder η} {outcome : Except Failure Unit}

/-! ## Decoders that are not told the names section -/

/-- Entries without those of the names section. -/
def plainEntries (entries : List Entry) : List Entry :=
  entries.filter fun entry => !entry.event.isDebugName

theorem plainEntries_append (entries rest : List Entry) :
    plainEntries (entries ++ rest) = plainEntries entries ++ plainEntries rest :=
  List.filter_append _ _

theorem plainEntries_cons_names (he : entry.event.isDebugName = true) :
    plainEntries (entry :: entries) = plainEntries entries :=
  List.filter_cons_of_neg (by rw [he]; exact Bool.false_ne_true)

theorem plainEntries_cons_plain (he : entry.event.isDebugName = false) :
    plainEntries (entry :: entries) = entry :: plainEntries entries :=
  List.filter_cons_of_pos (by rw [he]; rfl)

/-- The names section holds no complaint of the scanner. -/
theorem ne_malformed (he : entry.event.isDebugName = true) (message : String) :
    entry.event ≠ .malformed message := by
  intro h
  rw [h] at he
  cases he

/-- A decoder does the same with and without names, whatever it is told but names. -/
theorem receive_unnamed (he : entry.event.isDebugName = false) (d : Decoder η) :
    (h.decoder.receive data d.unnamed entry).result =
      ((h.decoder.receive data d entry).mapState Decoder.unnamed).result := by
  obtain ⟨offset, e⟩ := entry
  have hh : (h.decoder.handle d.unnamed ⟨data, offset⟩ e).result =
      ((h.decoder.handle d ⟨data, offset⟩ e).mapState Decoder.unnamed).result := by
    have hblind : d.unnamed.builder.handle e = Build.Outcome.unnamed (d.builder.handle e) :=
      Build.blind_handle he d.builder
    simp only [decoder, hblind]
    cases d.builder.handle e with
    | ok _ b => rfl
    | error stop b => cases stop <;> rfl
  cases e with
  | malformed message => rfl
  | _ => exact hh

/-- What the names section tells a decoder changes nothing but names, unless it fails. -/
theorem unnamed_of_receive (he : entry.event.isDebugName = true)
    (hr : (h.decoder.receive data d entry).result = (.ok (), d')) : d'.unnamed = d.unnamed := by
  rw [Reader.receive, Reader.dispatch_eq_handle (ne_malformed he)] at hr
  simp only [decoder] at hr
  split at hr
  · next after hafter =>
    cases hr
    exact congrArg (fun b => { d with builder := b }) (Builder.unnamed_of_names he hafter)
  · cases hr
  · cases hr

theorem passes_unnamed (hp : h.decoder.Passes data d entries d') :
    h.decoder.Passes data d.unnamed (plainEntries entries) d'.unnamed := by
  induction hp with
  | nil => exact .nil
  | @cons d d₁ _ entry _ hr _ ih =>
    cases he : entry.event.isDebugName with
    | true =>
      rw [plainEntries_cons_names he, ← unnamed_of_receive he hr]
      exact ih
    | false =>
      rw [plainEntries_cons_plain he]
      exact .cons ((receive_unnamed he d).trans (Reply.result_mapState _ hr)) ih

/-- An error of the names section bears the offset of its event. -/
theorem offset_of_error {e : Error} (he : entry.event.isDebugName = true)
    (hr : (h.decoder.receive data d entry).result = (.error (.error e), d')) :
    e.offset = some entry.offset := by
  rw [Reader.receive, Reader.dispatch_eq_handle (ne_malformed he)] at hr
  simp only [decoder] at hr
  split at hr <;> cases hr
  rfl

/-- Decoding with names fails at an entry of the names section. That is earlier than without names,
as a decoder that is not told the names section gets past all that comes before this entry. -/
inductive FailsAtNames (h : ErrorHandler η) (data : ByteArray) (start : Decoder η) :
    List Entry → Error → Prop
  | intro {passed rest : List Entry} {last : Entry} {d d' : Decoder η} {e : Error}
    (he : last.event.isDebugName = true) (hp : h.decoder.Passes data start passed d)
    (hplain : h.decoder.Passes data start (plainEntries passed) d.unnamed)
    (hf : (h.decoder.receive data d last).result = (.error (.error e), d'))
    (ho : e.offset = some last.offset) : FailsAtNames h data start (passed ++ last :: rest) e

/-- What is delivered with names is, but for names, delivered without them, unless the names section
fails. -/
theorem delivers_unnamed {s : η}
    (hd : h.decoder.Delivers data { handler := s } told delivered (outcome, d)) :
    h.decoder.Delivers data { handler := s } (plainEntries told) (plainEntries delivered)
        (outcome, d.unnamed) ∨
      ∃ e, outcome = .error (.error e) ∧ h.FailsAtNames data { handler := s } told e := by
  have hstart : ({ handler := s } : Decoder η).unnamed = { handler := s } :=
    congrArg (fun m => (⟨{ module := m }, s⟩ : Decoder η)) Module.unnamed_empty
  cases hd with
  | all hp => exact .inl (.all (hstart ▸ passes_unnamed hp))
  | @stopped passed rest last d₀ _ failure hp hf =>
    have hplain := hstart ▸ passes_unnamed hp
    cases he : last.event.isDebugName with
    | true =>
      cases failure with
      | fault fault => exact absurd (Prod.mk.inj hf).1 (receive_ne_fault hp)
      | error e => exact .inr ⟨e, rfl, .intro he hp hplain hf (offset_of_error he hf)⟩
    | false =>
      -- The failing entry is told in either case, so that both decoders stop there.
      left
      rw [plainEntries_append, plainEntries_append, plainEntries_cons_plain he,
        plainEntries_cons_plain he]
      exact .stopped hplain ((receive_unnamed he d₀).trans (Reply.result_mapState _ hf))

/-! ## Decoding with and without names -/

/-- The module of a decoder, without names. -/
theorem finish_unnamed (h : ErrorHandler η) (d : Decoder η) :
    (h.finish d.unnamed).result =
      ((h.finish d).outcome.map Module.unnamed, (h.finish d).state.unnamed) := by
  have hfinish : d.unnamed.builder.finish = d.builder.finish.map Module.unnamed := by
    unfold Builder.finish
    show (if d.builder.labels = [] then _ else _) = _
    split <;> rfl
  unfold finish
  rw [hfinish]
  cases d.builder.finish <;> rfl

/-- Decoding ends where what is delivered ends. -/
theorem decode_of_delivers {s : η} {debugNames : Bool} {stream : Stream}
    (hd : h.decoder.Delivers data { handler := s } (stream.told debugNames) delivered
      (outcome, d)) :
    (h.decode { debugNames } data stream s).result =
      (Reply.andThen ⟨d, [], outcome⟩ fun d () => h.finish d).result :=
  Reply.result_andThen_congr (f := id) hd.replay fun _ _ => rfl

/-- Decoding without names leads to what decoding with names leads to, without names, or decoding
with names fails at the names section. -/
theorem decode_unnamed (h : ErrorHandler η) (s : η) (data : ByteArray) (stream : Stream) :
    let named := h.decode { debugNames := true } data stream s
    (h.decode { debugNames := false } data stream s).result =
        (named.outcome.map Module.unnamed, named.state.unnamed) ∨
      ∃ e, named.outcome = .error (.error e) ∧
        h.FailsAtNames data { handler := s } stream.entries.toList e := by
  intro named
  obtain ⟨delivered, ⟨outcome, d⟩, hd⟩ :=
    h.decoder.exists_delivers data { handler := s } (stream.told true)
  obtain ⟨hnamed, hnamed'⟩ := Prod.mk.inj (decode_of_delivers hd)
  rw [Stream.told_true] at hd
  rcases delivers_unnamed hd with hplain | ⟨e, rfl, he⟩
  · left
    have htold : stream.told false = plainEntries stream.entries.toList := rfl
    rw [decode_of_delivers (htold ▸ hplain), hnamed, hnamed']
    cases outcome with
    | error failure => rfl
    | ok u => exact finish_unnamed h d
  · exact .inr ⟨e, hnamed, he⟩

/-- **Debug names change nothing but names.** If decoding with names leads to a module, decoding
without them leads to the same module without names, and the handler has heard the same. If decoding
without names fails, decoding with names fails as well: with the same error, or at an entry of the
names section that comes before. -/
theorem decode_debugNames (h : ErrorHandler η) (s : η) (data : ByteArray) (stream : Stream) :
    let named := h.decode { debugNames := true } data stream s
    let plain := h.decode { debugNames := false } data stream s
    let calls debugNames := (h.recording.decode { debugNames } data stream (s, [])).state.handler.2
    (∀ m, named.outcome = .ok m → plain.outcome = .ok m.unnamed ∧
      plain.state.handler = named.state.handler ∧ calls false = calls true) ∧
    ∀ e, plain.outcome = .error (.error e) → ∃ e', named.outcome = .error (.error e') ∧
      (e' = e ∨ h.FailsAtNames data { handler := s } stream.entries.toList e') := by
  intro named plain calls
  refine ⟨fun m hm => ?_, fun e he => ?_⟩
  · have hcalls : calls false = calls true := by
      have hrecorded := (Prod.mk.inj (decode_recording h s true data stream)).1.trans hm
      rcases decode_unnamed h.recording (s, []) data stream with hplain | ⟨e, he, -⟩
      · exact congrArg (·.2.handler.2) hplain
      · cases hrecorded.symm.trans he
    rcases decode_unnamed h s data stream with hplain | ⟨e, he, -⟩
    · obtain ⟨ho, hs⟩ := Prod.mk.inj hplain
      exact ⟨ho.trans (congrArg (Except.map Module.unnamed) hm), hs ▸ rfl, hcalls⟩
    · cases hm.symm.trans he
  · rcases decode_unnamed h s data stream with hplain | ⟨e', he', hfails⟩
    · have ho : named.outcome.map Module.unnamed = .error (.error e) :=
        (Prod.mk.inj hplain).1.symm.trans he
      cases hnamed : named.outcome with
      | ok m =>
        rw [hnamed] at ho
        cases ho
      | error failure =>
        rw [hnamed] at ho
        cases ho
        exact ⟨e, rfl, .inl rfl⟩
    · exact ⟨e', he', .inr hfails⟩

/-- A function is named while its body is open. A function that does not exist is named before an
`end` that ends nothing. -/
theorem decode_debugNames_early :
    let stream := Stream.ofList [.funcType 0 [] [], .define 0 (.func 0), .beginBody 0,
      .names (.function 0 "main"), .endBody 0]
    let faulty := Stream.ofList [.names (.function 0 "main"), .endScope]
    let decode debugNames stream := logging.decode { debugNames } .empty stream ()
    (∃ m, (decode true stream).outcome = .ok m ∧
      m.funcs.items[0]?.bind Func.name = some "main" ∧
      (decode false stream).outcome = .ok m.unnamed) ∧
    ∃ e e', (decode false faulty).outcome = .error (.error e) ∧
      (decode true faulty).outcome = .error (.error e') ∧
      logging.FailsAtNames .empty { handler := () } faulty.entries.toList e' := by
  intro stream faulty decode
  obtain ⟨hbuilt, -⟩ := decode_debugNames logging () .empty stream
  obtain ⟨-, hfailed⟩ := decode_debugNames logging () .empty faulty
  obtain ⟨e', he', hcases⟩ := hfailed _ rfl
  -- One error is at offset 0, the other one at offset 1.
  have hoffset : e'.offset = some 0 := by
    cases he'
    rfl
  refine ⟨⟨_, rfl, rfl, (hbuilt _ rfl).1⟩, _, e', rfl, he', ?_⟩
  rcases hcases with rfl | hfails
  · cases hoffset
  · exact hfails

end ErrorHandler
end WasmDecode
