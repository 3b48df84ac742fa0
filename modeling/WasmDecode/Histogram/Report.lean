import WasmDecode.Histogram

/-!
# Reports on histograms

The text of a histogram: a heading for each table, and under it a line for each entry that reaches
the cutoff, the most frequent first.

* `Tally.ranking`: the entries of a table that reach a cutoff, in the order of their lines.
* `Histogram.reportLines`: the lines.
* `Histogram.report`: the text.
* `Histogram.writeReport`: the text, where only so many bytes can be written.
-/

namespace WasmDecode

open Text (hex)

/-- Pairs in the order of their first components, and where these are equal, of their second. -/
def pairLe (a b : Int × Int) : Bool := a.1 < b.1 || a.1 == b.1 && a.2 ≤ b.2

namespace Tally

variable {κ : Type}

/-- Whether an entry ranks no lower than another: it counts more, or as much with a key that is no
larger in the order `le`. -/
def ranksBefore (le : κ → κ → Bool) (a b : κ × Nat) : Bool :=
  b.2 < a.2 || a.2 == b.2 && le a.1 b.1

/-- The entries that count something and no less than `cutoff`, by falling count; entries with equal
counts by rising key. -/
def ranking (le : κ → κ → Bool) (cutoff : Nat) (t : Tally κ) : Tally κ :=
  (t.filter fun entry => 0 < entry.2 && cutoff ≤ entry.2).mergeSort (ranksBefore le)

end Tally

namespace Histogram

/-- The name of the opcode with a given code. A number that is no code is written in hexadecimal, as
the 64-bit word that stands for it. -/
def opcodeName (code : Int) : String :=
  match if 0 ≤ code then Opcode.ofCode? code.toNat else none with
  | some op => op.name
  | none => s!"<0x{hex (code % UInt64.size).toNat}>"

/-- The lines of the opcodes. -/
def opcodeLines (cutoff : Nat) (t : Tally Int) : List String :=
  (t.ranking (· ≤ ·) cutoff).map fun (code, count) => s!"{opcodeName code}: {count}"

/-- The heading and the lines of a table of numbers. -/
def numberLines (name : String) (cutoff : Nat) (t : Tally Int) : List String :=
  ["", s!"{name}:"] ++
    (t.ranking (· ≤ ·) cutoff).map fun (value, count) => s!"{name} {value}: {count}"

/-- The heading and the lines of a table of memory accesses. -/
def accessLines (name : String) (cutoff : Nat) (t : Tally (Int × Int)) : List String :=
  ["", s!"{name}:"] ++
    (t.ranking pairLe cutoff).map fun ((align, offset), count) =>
      s!"{name} align={align} offset={offset}: {count}"

/-- The lines of a report. -/
def reportLines (cutoff : Nat) (h : Histogram) : List String :=
  "Opcode counts:" :: opcodeLines cutoff h.opcodes ++
    numberLines "i32.const" cutoff h.i32Const ++
    numberLines "get_local" cutoff h.getLocal ++
    numberLines "set_local" cutoff h.setLocal ++
    numberLines "tee_local" cutoff h.teeLocal ++
    accessLines "i32.load" cutoff h.i32Load ++
    accessLines "i32.store" cutoff h.i32Store

/-- The text of a report. -/
def report (cutoff : Nat) (h : Histogram) : String :=
  (h.reportLines cutoff).foldl (fun text line => text ++ line ++ "\n") ""

/-- The text of a report where no more than `limit` bytes can be written. -/
def writeReport (limit : Option Nat) (cutoff : Nat) (h : Histogram) : Except Error String :=
  let text := h.report cutoff
  match limit with
  | none => .ok text
  | some limit => if text.utf8ByteSize ≤ limit then .ok text else .error .unwritable

end Histogram

end WasmDecode
