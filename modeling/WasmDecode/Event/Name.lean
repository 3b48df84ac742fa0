import WasmDecode.Event

/-!
# Names of events

The name under which an event appears in a trace or a record.

* `Event.eventName`: the name of an event. Its operands make no difference, save that constants of
  different types and items of different kinds have names of their own.
-/

namespace WasmDecode

/-- The name of the event that pushes a constant, or gives an init expression that value, without
the word for the occasion in front. -/
def Const.eventName : Const → String
  | .i32 _ => "I32ConstExpr"
  | .i64 _ => "I64ConstExpr"
  | .f32 _ => "F32ConstExpr"
  | .f64 _ => "F64ConstExpr"

/-- The name of the event that tells an instruction. -/
def Instr.eventName : Instr → String
  | .binary _ => "OnBinaryExpr"
  | .unary _ => "OnUnaryExpr"
  | .compare _ => "OnCompareExpr"
  | .convert _ => "OnConvertExpr"
  | .br _ => "OnBrExpr"
  | .brIf _ => "OnBrIfExpr"
  | .brTable .. => "OnBrTableExpr"
  | .call _ => "OnCallExpr"
  | .callIndirect _ => "OnCallIndirectExpr"
  | .const value => "On" ++ value.eventName
  | .load .. => "OnLoadExpr"
  | .store .. => "OnStoreExpr"
  | .getGlobal _ => "OnGetGlobalExpr"
  | .setGlobal _ => "OnSetGlobalExpr"
  | .getLocal _ => "OnGetLocalExpr"
  | .setLocal _ => "OnSetLocalExpr"
  | .teeLocal _ => "OnTeeLocalExpr"
  | .currentMemory => "OnCurrentMemoryExpr"
  | .growMemory => "OnGrowMemoryExpr"
  | .drop => "OnDropExpr"
  | .nop => "OnNopExpr"
  | .ret => "OnReturnExpr"
  | .select => "OnSelectExpr"
  | .unreachable => "OnUnreachableExpr"

/-- The name of the event that tells a scope instruction. -/
def ScopeKind.eventName : ScopeKind → String
  | .block => "OnBlockExpr"
  | .loop => "OnLoopExpr"
  | .ifThen => "OnIfExpr"

/-- The name of the event that tells what an import imports. -/
def ItemDecl.importName : ItemDecl → String
  | .func _ => "OnImportFunc"
  | .table .. => "OnImportTable"
  | .memory _ => "OnImportMemory"
  | .global .. => "OnImportGlobal"

/-- The name of the event that tells a definition. -/
def ItemDecl.definitionName : ItemDecl → String
  | .func _ => "OnFunction"
  | .table .. => "OnTable"
  | .memory _ => "OnMemory"
  | .global .. => "BeginGlobal"

/-- The name of the event that gives an init expression its value. -/
def InitValue.eventName : InitValue → String
  | .const value => "OnInitExpr" ++ value.eventName
  | .getGlobal _ => "OnInitExprGetGlobalExpr"

/-- The name of the event that tells the operands of an opcode. -/
def Immediates.eventName : Immediates → String
  | .bare => "OnOpcodeBare"
  | .u32 _ => "OnOpcodeU32"
  | .u32u32 .. => "OnOpcodeU32U32"
  | .u64 _ => "OnOpcodeU64"
  | .f32 _ => "OnOpcodeF32"
  | .f64 _ => "OnOpcodeF64"
  | .blockSig _ => "OnOpcodeBlockSig"

/-- The name of an event of the names section. -/
def NameEvent.eventName : NameEvent → String
  | .subsection kind .. => s!"On{kind.word}NameSubsection"
  | .functionCount _ => "OnFunctionNamesCount"
  | .function .. => "OnFunctionName"
  | .localFunctionCount _ => "OnLocalNameFunctionCount"
  | .localCount .. => "OnLocalNameLocalCount"
  | .localName .. => "OnLocalName"

/-- The name of an event. -/
def Event.eventName : Event → String
  | .malformed _ => "Error"
  | .beginModule _ => "BeginModule"
  | .endModule => "EndModule"
  | .sectionHeader .. => "BeginSection"
  | .beginCustom .. => "BeginCustomSection"
  | .endCustom => "EndCustomSection"
  | .beginSection kind _ => s!"Begin{kind.word}Section"
  | .endSection kind => s!"End{kind.word}Section"
  | .itemCount kind _ => s!"On{kind.word}Count"
  | .funcType .. => "OnType"
  | .importEntry .. => "OnImport"
  | .importItem _ _ _ _ item => item.importName
  | .define _ item => item.definitionName
  | .endGlobal _ => "EndGlobal"
  | .exportEntry .. => "OnExport"
  | .startFunction _ => "OnStartFunction"
  | .bodyCount _ => "OnFunctionBodyCount"
  | .beginBody _ => "BeginFunctionBody"
  | .localDeclCount _ => "OnLocalDeclCount"
  | .localDecl .. => "OnLocalDecl"
  | .opcode _ => "OnOpcode"
  | .immediates value => value.eventName
  | .instr i => i.eventName
  | .beginScope kind _ => kind.eventName
  | .elseArm => "OnElseExpr"
  | .endScope => "OnEndExpr"
  | .endFunc => "OnEndFunc"
  | .endBody _ => "EndFunctionBody"
  | .beginElemSegment .. => "BeginElemSegment"
  | .elemCount .. => "OnElemSegmentFunctionIndexCount"
  | .elem .. => "OnElemSegmentFunctionIndex"
  | .endElemSegment _ => "EndElemSegment"
  | .beginDataSegment .. => "BeginDataSegment"
  | .segmentData .. => "OnDataSegmentData"
  | .endDataSegment _ => "EndDataSegment"
  | .beginInit site _ => s!"Begin{site.word}InitExpr"
  | .initValue _ value => value.eventName
  | .endInit site _ => s!"End{site.word}InitExpr"
  | .names n => n.eventName
  | .relocCount .. => "OnRelocCount"
  | .reloc .. => "OnReloc"

end WasmDecode
