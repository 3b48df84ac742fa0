import WasmDecode.Builder.Body
import WasmDecode.Builder.Definition

/-!
# Events and builders

What each event does to a builder.

* `Build.handle`: the action of an event.
* `Builder.step`: the builder after an event, accepted or not.
* `Builder.run`: the builder after a list of events, where the refused ones are passed over.
* `Builder.finish`: the module, if no scope is open.
-/

namespace WasmDecode

/-- The action of an event on a builder. Events that only announce or repeat what others tell do
nothing. -/
def Build.handle : Event → Build Unit
  | .beginModule version => modifyModule fun m => { m with version }
  | .endModule => endModule
  | .itemCount _ count => reserve count
  | .funcType _ params results => addFuncType ⟨params, results⟩
  | .importEntry _ moduleName fieldName => addImport moduleName fieldName
  | .importItem importIndex _ _ _ item => importItem importIndex item
  | .define _ item => define item
  | .exportEntry _ kind itemIndex name => addExport kind itemIndex name
  | .startFunction funcIndex => setStart funcIndex
  | .bodyCount count => checkBodyCount count
  | .beginBody index => beginBody index
  | .localDecl _ count type => addLocals count type
  | .instr i => addInstr i
  | .beginScope kind sig => openScope kind sig
  | .elseArm => elseArm
  | .endScope => endScope
  | .endBody index => endBody index
  | .beginElemSegment _ tableIndex => beginElemSegment tableIndex
  | .elemCount index count => reserveElems index count
  | .elem index funcIndex => addElem index funcIndex
  | .beginDataSegment _ memoryIndex => beginDataSegment memoryIndex
  | .segmentData index bytes => setData index bytes
  | .beginInit site index => beginInit site index
  | .initValue _ value => setInit value
  | .endInit site index => endInit site index
  | .names n => readName n
  | .malformed _ | .sectionHeader .. | .beginCustom .. | .endCustom | .beginSection ..
  | .endSection _ | .endGlobal _ | .localDeclCount _ | .opcode _ | .immediates _ | .endFunc
  | .endElemSegment _ | .endDataSegment _ | .relocCount .. | .reloc .. => pure ()

namespace Builder

/-- What handling an event leads to. -/
def handle (b : Builder) (e : Event) : EStateM.Result Stop Builder Unit := (Build.handle e).run b

/-- The builder after an event, accepted or not. -/
def step (b : Builder) (e : Event) : Builder :=
  match b.handle e with
  | .ok () b' | .error _ b' => b'

/-- Why a builder does not accept an event, if it does not. -/
def stop? (b : Builder) (e : Event) : Option Stop :=
  match b.handle e with
  | .ok () _ => none
  | .error stop _ => some stop

/-- The builder after a list of events, each of which is handled whether or not those before it were
accepted. -/
def run (b : Builder) (events : List Event) : Builder := events.foldl step b

/-- The module, if no scope is open. -/
def finish (b : Builder) : Except Cause Module :=
  if b.labels = [] then .ok b.module else .error (.unclosedScope "end of input" b.depth)

end Builder

end WasmDecode
