import WasmDecode.Numeral
import WasmDecode.Event.Name

/-!
# Trace lines

The text of an event in a trace, without its indentation: the name of the event, and its details in
parentheses. Some events have no line of their own, since others tell the same.

* `Event.isSilent`: the events without a line.
* `Event.line?`: the text of any other event.
-/

namespace WasmDecode

open Text (hex hexPadded)

/-- A 32-bit float with its bits behind it. -/
private def singleText (bits : UInt32) : String :=
  s!"{BinaryFormat.single.text bits.toNat} (0x{hexPadded 8 bits.toNat})"

/-- A 64-bit float with its bits behind it. -/
private def doubleText (bits : UInt64) : String :=
  s!"{BinaryFormat.double.text bits.toNat} (0x{hexPadded 16 bits.toNat})"

/-- An opcode with its code behind it. -/
private def opcodeText (op : Opcode) : String := s!"\"{op.name}\" ({op.code})"

/-- The details of a plain instruction. -/
def Instr.details : Instr → String
  | .binary op | .unary op | .compare op | .convert op => s!"({opcodeText op})"
  | .br depth | .brIf depth => s!"(depth: {depth})"
  | .brTable targets fallback =>
    let depths := ", ".intercalate (targets.map toString)
    s!"(num_targets: {targets.length}, depths: [{depths}], default: {fallback})"
  | .call funcIndex => s!"(func_index: {funcIndex})"
  | .callIndirect sigIndex => s!"(sig_index: {sigIndex})"
  | .const (.i32 bits) => s!"({bits} (0x{hex bits.toNat}))"
  | .const (.i64 bits) => s!"({bits} (0x{hex bits.toNat}))"
  | .const (.f32 bits) => s!"({singleText bits})"
  | .const (.f64 bits) => s!"({doubleText bits})"
  | .load op arg | .store op arg =>
    s!"(opcode: {opcodeText op}, align log2: {arg.alignLog2}, offset: {arg.offset})"
  | .getGlobal index | .setGlobal index | .getLocal index | .setLocal index | .teeLocal index =>
    s!"(index: {index})"
  | .currentMemory | .growMemory | .drop | .nop | .ret | .select | .unreachable => ""

/-- The details of an imported or defined item, its indices apart. -/
def ItemDecl.details : ItemDecl → String
  | .func sigIndex => s!"sig_index: {sigIndex}"
  | .table elemType limits => s!"elem_type: {elemType}, {limits}"
  | .memory limits => limits.text
  | .global type isMutable => s!"type: {type}, mutable: {isMutable}"

/-- The value of an init expression. -/
def InitValue.details : InitValue → String
  | .const (.i32 bits) => s!"value: {bits}"
  | .const (.i64 bits) => s!"value: {bits}"
  | .const (.f32 bits) => s!"value: {singleText bits}"
  | .const (.f64 bits) => s!"value: {doubleText bits}"
  | .getGlobal globalIndex => s!"global_index: {globalIndex}"

/-- The details of an event of the names section. -/
def NameEvent.details : NameEvent → String
  | .subsection _ index nameType size => s!"(index:{index}, nametype:{nameType}, size:{size})"
  | .functionCount count | .localFunctionCount count => s!"({count})"
  | .function funcIndex name => s!"(index: {funcIndex}, name: \"{name}\")"
  | .localCount funcIndex count => s!"(index: {funcIndex}, count: {count})"
  | .localName funcIndex localIndex name =>
    s!"(func_index: {funcIndex}, local_index: {localIndex}, name: \"{name}\")"

/-- Whether an event has no line of its own: the complaints of the scanner, section headers, the
encoded form of instructions, and the `end` of a body. -/
def Event.isSilent : Event → Bool
  | .malformed _ | .sectionHeader .. | .opcode _ | .immediates _ | .endFunc => true
  | _ => false

/-- The details of an event that is not silent. -/
def Event.details : Event → String
  | .beginModule version => s!"(version: {version})"
  | .beginCustom size name => s!"('{name}', size: {size})"
  | .beginSection _ size => s!"({size})"
  | .itemCount _ count | .bodyCount count | .localDeclCount count => s!"({count})"
  | .funcType index params results =>
    s!"(index: {index}, params: {ValueType.listText params}, " ++
      s!"results: {ValueType.listText results})"
  | .importEntry index moduleName fieldName =>
    s!"(index: {index}, module: \"{moduleName}\", field: \"{fieldName}\")"
  | .importItem importIndex _ _ itemIndex item =>
    s!"(import_index: {importIndex}, {item.kind}_index: {itemIndex}, {item.details})"
  | .define index item => s!"(index: {index}, {item.details})"
  | .exportEntry index kind itemIndex name =>
    s!"(index: {index}, kind: {kind}, item_index: {itemIndex}, name: \"{name}\")"
  | .startFunction index | .endGlobal index | .beginBody index | .endBody index
  | .endElemSegment index | .endDataSegment index | .beginInit _ index | .endInit _ index =>
    s!"({index})"
  | .localDecl declIndex count type => s!"(index: {declIndex}, count: {count}, type: {type})"
  | .instr i => i.details
  | .beginScope _ sig => s!"(sig: {ValueType.listText sig})"
  | .beginElemSegment index tableIndex => s!"(index: {index}, table_index: {tableIndex})"
  | .elemCount index count => s!"(index: {index}, count: {count})"
  | .elem index funcIndex => s!"(index: {index}, func_index: {funcIndex})"
  | .beginDataSegment index memoryIndex => s!"(index: {index}, memory_index: {memoryIndex})"
  | .segmentData index bytes => s!"(index:{index}, size:{bytes.size})"
  | .initValue index value => s!"(index: {index}, {value.details})"
  | .names n => n.details
  | .relocCount count id sectionName =>
    s!"(count: {count}, section: {id}, section_name: {sectionName})"
  | .reloc type offset index addend =>
    s!"(type: {type}, offset: {offset}, index: {index}, addend: {addend.toInt})"
  | .malformed _ | .endModule | .sectionHeader .. | .endCustom | .endSection _ | .opcode _
  | .immediates _ | .elseArm | .endScope | .endFunc => ""

/-- The text of an event in a trace, if it has one. -/
def Event.line? (e : Event) : Option String :=
  if e.isSilent then none else some (e.eventName ++ e.details)

end WasmDecode
