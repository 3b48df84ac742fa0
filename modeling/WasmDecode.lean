import WasmDecode.Wire.Types
import WasmDecode.Wire.Section
import WasmDecode.Opcode
import WasmDecode.Numeral
import WasmDecode.Error
import WasmDecode.Instr
import WasmDecode.Event
import WasmDecode.Event.Name
import WasmDecode.Expr
import WasmDecode.Module
import WasmDecode.Notice
import WasmDecode.Reader
import WasmDecode.Reader.Recorder
import WasmDecode.Trace.Line
import WasmDecode.Trace
import WasmDecode.Histogram
import WasmDecode.Histogram.Report
import WasmDecode.Builder
import WasmDecode.Builder.Body
import WasmDecode.Builder.Definition
import WasmDecode.Builder.Step
import WasmDecode.Decode
import WasmDecode.Proofs.Forest
import WasmDecode.Proofs.Layout
import WasmDecode.Proofs.OpenBody
import WasmDecode.Proofs.Build
import WasmDecode.Proofs.KeepsBodies
import WasmDecode.Proofs.Reading
import WasmDecode.Proofs.Accept
import WasmDecode.Proofs.Preorder
import WasmDecode.Proofs.Flatten
import WasmDecode.Proofs.Dispatch
import WasmDecode.Proofs.Replay
import WasmDecode.Proofs.Body
import WasmDecode.Proofs.Grammar
import WasmDecode.Proofs.Action
import WasmDecode.Proofs.Effect
import WasmDecode.Proofs.Program
import WasmDecode.Proofs.RoundTrip
import WasmDecode.Proofs.Outline
import WasmDecode.Proofs.IndexSpace
import WasmDecode.Proofs.Record
import WasmDecode.Proofs.Blueprint
import WasmDecode.Proofs.Construction
import WasmDecode.Proofs.Assembly
import WasmDecode.Proofs.Faultless
import WasmDecode.Proofs.Operands
import WasmDecode.Proofs.References
import WasmDecode.Proofs.Delivery
import WasmDecode.Proofs.Reports
import WasmDecode.Proofs.Transparency
import WasmDecode.Proofs.Recording
import WasmDecode.Proofs.DebugNames
import WasmDecode.Proofs.Growth
import WasmDecode.Proofs.Isolation
import WasmDecode.Proofs.Indentation
import WasmDecode.Proofs.Received
import WasmDecode.Proofs.Complaints
import WasmDecode.Proofs.Counting
import WasmDecode.Proofs.FuncNames
import WasmDecode.Proofs.Listing
import WasmDecode.Proofs.Ranking
import WasmDecode.Proofs.CodeSection
import WasmDecode.Proofs.InitScope
import WasmDecode.Proofs.Closing
import WasmDecode.Proofs.Depth
import WasmDecode.Proofs.LocalNames
import WasmDecode.Proofs.Labels
