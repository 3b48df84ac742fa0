import WasmDecode.Trace

/-!
# Opcode histograms

How often each opcode occurs, and how often the hottest instructions occur with which operands. Both
are counted in tallies, which have one entry for each key, in the order in which the keys were first
seen.

* `Tally.add`: one more of a key.
* `Tally.addDense`: one more of a key in a table that has an entry for every smaller key as well.
* `Histogram.count`: the histogram after one more event.
* `Reader.counter`: the reader that counts.
* `Histogram.read`: the histogram of a stream.
-/

namespace WasmDecode

/-! ## Tallies -/

/-- A list of keys with their counts. -/
abbrev Tally (κ : Type) := List (κ × Nat)

namespace Tally

variable {κ : Type}

/-- One more of `key`: its count goes up, or it gets an entry at the end. -/
def add [DecidableEq κ] (key : κ) : Tally κ → Tally κ
  | [] => [(key, 1)]
  | (k, n) :: rest => if k = key then (k, n + 1) :: rest else (k, n) :: add key rest

/-- The sum of all counts. -/
def total (t : Tally κ) : Nat := t.foldr (fun entry sum => entry.2 + sum) 0

/-- Entries with count zero for the keys from the length of the table up to `n - 1`. -/
def grow (n : Nat) (t : Tally Int) : Tally Int :=
  t ++ (List.range' t.length (n - t.length)).map fun (k : Nat) => ((k : Int), 0)

/-- One more of the key `k`, which is the position of its entry as well. -/
def addDense (k : Nat) (t : Tally Int) : Tally Int :=
  (t.grow (k + 1)).modify k fun (key, n) => (key, n + 1)

end Tally

/-! ## Histograms -/

/-- Counts of opcodes and operands. Keys are numbers: codes, values of constants, indices of locals.
Memory accesses have pairs of the alignment's logarithm and the offset. -/
structure Histogram where
  /-- One entry for each code up to the largest that occurs; the position of an entry is its key. -/
  opcodes : Tally Int := []
  /-- By value, as a signed number. -/
  i32Const : Tally Int := []
  getLocal : Tally Int := []
  setLocal : Tally Int := []
  teeLocal : Tally Int := []
  i32Load : Tally (Int × Int) := []
  i32Store : Tally (Int × Int) := []
  deriving DecidableEq, Repr, Inhabited

namespace Histogram

/-- The numbers in the operands of a memory access. -/
def memKey (arg : MemArg) : Int × Int := (arg.alignLog2.toNat, arg.offset.toNat)

/-- Counts an instruction, if its operands are of interest. -/
def countInstr (h : Histogram) : Instr → Histogram
  | .const (.i32 bits) => { h with i32Const := h.i32Const.add bits.toInt32.toInt }
  | .getLocal index => { h with getLocal := h.getLocal.add (index.toNat : Int) }
  | .setLocal index => { h with setLocal := h.setLocal.add (index.toNat : Int) }
  | .teeLocal index => { h with teeLocal := h.teeLocal.add (index.toNat : Int) }
  | .load .i32Load arg => { h with i32Load := h.i32Load.add (memKey arg) }
  | .store .i32Store arg => { h with i32Store := h.i32Store.add (memKey arg) }
  | _ => h

/-- Counts an event. -/
def count (h : Histogram) : Event → Histogram
  | .opcode op => { h with opcodes := h.opcodes.addDense op.code }
  | .instr i => h.countInstr i
  | _ => h

/-- How often an opcode was counted: the count at the position of its code. -/
def opcodeCount (h : Histogram) (op : Opcode) : Nat := (h.opcodes[op.code]?.map Prod.snd).getD 0

/-- How many opcodes were counted. -/
def total (h : Histogram) : Nat := h.opcodes.total

end Histogram

/-- Counts every event. It goes on past no complaint of the scanner. -/
def Reader.counter : Reader Histogram where
  handle h _ e := .done (h.count e) ()
  onMalformed h _ _ := { state := h, goOn := false }

/-- The histogram of a stream. -/
def Histogram.read (options : ReadOptions) (data : ByteArray) (stream : Stream) :
    Reply Histogram Histogram :=
  (Reader.counter.read options data stream {}).andThen fun h () =>
    { state := h, notices := [.opcodesCounted h.total], outcome := .ok h }

end WasmDecode
