import WasmDecode.Histogram.Report

/-!
# What a report lists

A report has a list for each table of a histogram: the entries that reach the cutoff, the most
frequent first. The order in which a table keeps its entries has no part in it, and a larger cutoff
ends the lists earlier.

* `Tally.Linear`: orders of keys. With such an order, `Tally.ranking_perm` says that a ranking is
  determined by which entries there are, and `Tally.ranking_isPrefix` that a larger cutoff cuts it
  off.
* `Tally.Lists`: what it is to list the entries that reach a cutoff; `Tally.lists_ranking`.
* `Histogram.Each`: something holds of each of the tables.
* `Histogram.listed`: the tables that a report lists, and `Histogram.printed`: the text of tables as
  they stand, where `Histogram.printedOpcode` stands for an opcode. `Histogram.report_eq` says that
  a report is the text of the tables that it lists.
* `Histogram.writeReport_lists`: what a report is.
-/

namespace WasmDecode

namespace Tally

variable {κ : Type} {le : κ → κ → Bool} {t t' : Tally κ} {cutoff : Nat}

/-! ## Orders of entries -/

/-- An order in which any two things are comparable, and no two take the same place. -/
structure Linear {α : Type} (le : α → α → Bool) : Prop where
  trans : ∀ a b c, le a b → le b c → le a c
  total : ∀ a b, le a b || le b a
  antisymm : ∀ a b, le a b → le b a → a = b

theorem linear_int : Linear fun a b : Int => decide (a ≤ b) where
  trans a b c := by
    simp only [decide_eq_true_eq]
    exact Int.le_trans
  total a b := by
    simp only [Bool.or_eq_true, decide_eq_true_eq]
    exact Int.le_total a b
  antisymm a b := by
    simp only [decide_eq_true_eq]
    exact Int.le_antisymm

theorem pairLe_iff {a b : Int × Int} :
    pairLe a b = true ↔ a.1 < b.1 ∨ a.1 = b.1 ∧ a.2 ≤ b.2 := by
  simp [pairLe]

theorem linear_pair : Linear pairLe where
  trans a b c := by
    simp only [pairLe_iff]
    omega
  total a b := by
    simp only [Bool.or_eq_true, pairLe_iff]
    omega
  antisymm a b := by
    simp only [pairLe_iff, Prod.ext_iff]
    omega

theorem ranksBefore_iff {a b : κ × Nat} :
    ranksBefore le a b = true ↔ b.2 < a.2 ∨ a.2 = b.2 ∧ le a.1 b.1 := by
  simp [ranksBefore]

/-- Entries are ordered by their counts first, and so any order of keys is as good for them. -/
theorem Linear.ranksBefore (h : Linear le) : Linear (ranksBefore le) where
  trans a b c hab hbc := by
    simp only [ranksBefore_iff] at hab hbc ⊢
    rcases hab with hab | ⟨hab, hkey⟩ <;> rcases hbc with hbc | ⟨hbc, hkey'⟩
    · exact .inl (by omega)
    · exact .inl (by omega)
    · exact .inl (by omega)
    · exact .inr ⟨hab.trans hbc, h.trans _ _ _ hkey hkey'⟩
  total a b := by
    simp only [Bool.or_eq_true, ranksBefore_iff]
    rcases Nat.lt_trichotomy a.2 b.2 with hlt | heq | hgt
    · exact .inr (.inl hlt)
    · exact (Bool.or_eq_true _ _ ▸ h.total a.1 b.1).imp (fun hkey => .inr ⟨heq, hkey⟩)
        fun hkey => .inr ⟨heq.symm, hkey⟩
    · exact .inl (.inl hgt)
  antisymm a b hab hba := by
    simp only [ranksBefore_iff] at hab hba
    rcases hab with hab | ⟨hcount, hkey⟩
    · omega
    · rcases hba with hba | ⟨_, hkey'⟩
      · omega
      · exact Prod.ext (h.antisymm _ _ hkey hkey') hcount

/-- A ranking is in order. -/
theorem pairwise_ranking (h : Linear le) (t : Tally κ) (cutoff : Nat) :
    (t.ranking le cutoff).Pairwise fun a b => ranksBefore le a b :=
  List.pairwise_mergeSort h.ranksBefore.trans h.ranksBefore.total _

/-- **A ranking is determined** by which entries there are, in whatever order. -/
theorem ranking_perm (h : Linear le) (hp : t.Perm t') (cutoff : Nat) :
    t.ranking le cutoff = t'.ranking le cutoff := by
  have hperm : (t.ranking le cutoff).Perm (t'.ranking le cutoff) :=
    calc (t.ranking le cutoff).Perm _ := List.mergeSort_perm _ _
      _ |>.Perm _ := hp.filter _
      _ |>.Perm _ := (List.mergeSort_perm _ _).symm
  exact hperm.eq_of_pairwise (fun a b _ _ => h.ranksBefore.antisymm a b)
    (pairwise_ranking h t cutoff) (pairwise_ranking h t' cutoff)

/-- What is kept of a list in order, if with a thing all that stands in front of it is kept, is its
beginning. -/
theorem filter_isPrefix {α : Type} {R : α → α → Prop} {keep : α → Bool} {l : List α}
    (hkeep : ∀ a b, R a b → keep b → keep a) (hl : l.Pairwise R) : l.filter keep <+: l := by
  induction l with
  | nil => exact List.nil_prefix
  | cons a l ih =>
    obtain ⟨ha, hl⟩ := List.pairwise_cons.mp hl
    by_cases hk : keep a
    · rw [List.filter_cons_of_pos hk]
      exact (List.prefix_cons_inj a).mpr (ih hl)
    · -- Nothing behind what is not kept is kept.
      have hnone : l.filter keep = [] :=
        List.filter_eq_nil_iff.mpr fun b hb hkb => hk (hkeep a b (ha b hb) hkb)
      rw [List.filter_cons_of_neg hk, hnone]
      exact List.nil_prefix

/-- **A larger cutoff** ends a ranking earlier. -/
theorem ranking_isPrefix (h : Linear le) {cutoff' : Nat} (hle : cutoff ≤ cutoff') (t : Tally κ) :
    t.ranking le cutoff' <+: t.ranking le cutoff := by
  have hreached : t.ranking le cutoff' =
      (t.ranking le cutoff).filter fun entry => cutoff' ≤ entry.2 := by
    refine List.Perm.eq_of_pairwise (fun a b _ _ => h.ranksBefore.antisymm a b)
      (pairwise_ranking h t cutoff') ((pairwise_ranking h t cutoff).filter _) ?_
    calc (t.ranking le cutoff').Perm (t.filter fun entry => 0 < entry.2 && cutoff' ≤ entry.2) :=
          List.mergeSort_perm _ _
      _ = (t.filter fun entry => 0 < entry.2 && cutoff ≤ entry.2).filter
            fun entry => cutoff' ≤ entry.2 := by
          rw [List.filter_filter]
          refine List.filter_congr fun entry _ => ?_
          simp only [← Bool.decide_and, decide_eq_decide]
          omega
      _ |>.Perm ((t.ranking le cutoff).filter fun entry => cutoff' ≤ entry.2) :=
          (List.mergeSort_perm _ _).symm.filter _
  rw [hreached]
  refine filter_isPrefix (fun a b hab hb => ?_) (pairwise_ranking h t cutoff)
  rw [ranksBefore_iff] at hab
  simp only [decide_eq_true_eq] at hb ⊢
  omega

/-! ## Lists of entries -/

/-- The order of pairs by their first components, and where these are equal, by their second. -/
def PairLe (a b : Int × Int) : Prop := a.1 < b.1 ∨ a.1 = b.1 ∧ a.2 ≤ b.2

/-- A list of the entries of a table that reach a cutoff, each as often as it stands in the table.
It falls by count, and rises by key where counts are equal. An entry that counts nothing reaches no
cutoff. -/
structure Lists (keyLe : κ → κ → Prop) (cutoff : Nat) (t listed : Tally κ) : Prop where
  perm : listed.Perm (t.filter fun entry => max cutoff 1 ≤ entry.2)
  ordered : listed.Pairwise fun a b => b.2 < a.2 ∨ a.2 = b.2 ∧ keyLe a.1 b.1

/-- A ranking lists the entries that reach its cutoff. -/
theorem lists_ranking (h : Linear le) {keyLe : κ → κ → Prop}
    (hkey : ∀ a b, le a b = true ↔ keyLe a b) (cutoff : Nat) (t : Tally κ) :
    Lists keyLe cutoff t (t.ranking le cutoff) where
  perm := by
    have hreached : (t.filter fun entry => 0 < entry.2 && cutoff ≤ entry.2) =
        t.filter fun entry => max cutoff 1 ≤ entry.2 := by
      refine List.filter_congr fun entry _ => ?_
      simp only [← Bool.decide_and, decide_eq_decide]
      omega
    rw [← hreached]
    exact List.mergeSort_perm _ _
  ordered := (pairwise_ranking h t cutoff).imp fun hab => by
    rwa [ranksBefore_iff, hkey] at hab

end Tally

/-! ## Reports -/

namespace Histogram

variable {h h' : Histogram} {cutoff cutoff' : Nat}

/-- Something holds between each table of a histogram and the same table of another one. It may
depend on the order of the keys. -/
structure Each (R : ∀ κ : Type, (κ → κ → Prop) → Tally κ → Tally κ → Prop) (h h' : Histogram) :
    Prop where
  opcodes : R Int (· ≤ ·) h.opcodes h'.opcodes
  i32Const : R Int (· ≤ ·) h.i32Const h'.i32Const
  getLocal : R Int (· ≤ ·) h.getLocal h'.getLocal
  setLocal : R Int (· ≤ ·) h.setLocal h'.setLocal
  teeLocal : R Int (· ≤ ·) h.teeLocal h'.teeLocal
  i32Load : R (Int × Int) Tally.PairLe h.i32Load h'.i32Load
  i32Store : R (Int × Int) Tally.PairLe h.i32Store h'.i32Store

/-- The tables that a report lists. -/
def listed (cutoff : Nat) (h : Histogram) : Histogram where
  opcodes := h.opcodes.ranking (· ≤ ·) cutoff
  i32Const := h.i32Const.ranking (· ≤ ·) cutoff
  getLocal := h.getLocal.ranking (· ≤ ·) cutoff
  setLocal := h.setLocal.ranking (· ≤ ·) cutoff
  teeLocal := h.teeLocal.ranking (· ≤ ·) cutoff
  i32Load := h.i32Load.ranking pairLe cutoff
  i32Store := h.i32Store.ranking pairLe cutoff

/-- The text of a number that stands for an opcode: the name of the opcode with this code, or if no
opcode has it, the number in hexadecimal, as an unsigned one of 64 bits. -/
def printedOpcode (code : Int) : String :=
  match Opcode.all.find? fun op => (op.code : Int) = code with
  | some op => op.name
  | none => "<0x" ++ String.ofList (Nat.toDigits 16 (code % 18446744073709551616).toNat) ++ ">"

/-- The part of a text for a table of numbers, with all entries as they stand. -/
def printedNumbers (name : String) (t : Tally Int) : List String :=
  "" :: s!"{name}:" :: t.map fun entry => s!"{name} {entry.1}: {entry.2}"

/-- The part of a text for a table of memory accesses, with all entries as they stand. -/
def printedAccesses (name : String) (t : Tally (Int × Int)) : List String :=
  "" :: s!"{name}:" :: t.map fun entry =>
    s!"{name} align={entry.1.1} offset={entry.1.2}: {entry.2}"

/-- The text of the tables of a histogram, one after the other, with all entries as they stand. -/
def printed (h : Histogram) : String :=
  let lines :=
    ("Opcode counts:" :: h.opcodes.map fun entry => s!"{printedOpcode entry.1}: {entry.2}") ++
      printedNumbers "i32.const" h.i32Const ++ printedNumbers "get_local" h.getLocal ++
      printedNumbers "set_local" h.setLocal ++ printedNumbers "tee_local" h.teeLocal ++
      printedAccesses "i32.load" h.i32Load ++ printedAccesses "i32.store" h.i32Store
  String.join (lines.map fun line => line ++ "\n")

/-- A report names opcodes like this. A number below zero is the code of none. -/
theorem opcodeName_eq (code : Int) : opcodeName code = printedOpcode code := by
  have hfind : (if 0 ≤ code then Opcode.ofCode? code.toNat else none) =
      Opcode.all.find? fun op => (op.code : Int) = code := by
    by_cases hcode : 0 ≤ code
    · rw [if_pos hcode, Opcode.ofCode?]
      congr 1
      funext op
      rw [Bool.eq_iff_iff, beq_iff_eq, decide_eq_true_eq]
      omega
    · rw [if_neg hcode]
      refine (List.find?_eq_none.mpr fun op _ => ?_).symm
      rw [decide_eq_true_eq]
      omega
  rw [opcodeName, hfind, printedOpcode]
  rfl

/-- A report is the text of the tables that it lists. -/
theorem report_eq (cutoff : Nat) (h : Histogram) : h.report cutoff = (h.listed cutoff).printed := by
  have hjoin (lines : List String) (text : String) :
      lines.foldl (fun text line => text ++ line ++ "\n") text =
        (lines.map fun line => line ++ "\n").foldl (· ++ ·) text := by
    rw [List.foldl_map]
    simp only [String.append_assoc]
  rw [printed, ← funext opcodeName_eq]
  exact hjoin (h.reportLines cutoff) ""

/-- The tables that a report lists are determined by which entries there are, in whatever order. -/
theorem listed_perm (hp : Each (fun _ _ t t' => t.Perm t') h h') (cutoff : Nat) :
    h.listed cutoff = h'.listed cutoff := by
  unfold listed
  rw [Tally.ranking_perm Tally.linear_int hp.opcodes,
    Tally.ranking_perm Tally.linear_int hp.i32Const,
    Tally.ranking_perm Tally.linear_int hp.getLocal,
    Tally.ranking_perm Tally.linear_int hp.setLocal,
    Tally.ranking_perm Tally.linear_int hp.teeLocal,
    Tally.ranking_perm Tally.linear_pair hp.i32Load,
    Tally.ranking_perm Tally.linear_pair hp.i32Store]

/-- Reports with the same entries are the same, however much can be written. -/
theorem writeReport_perm (hp : Each (fun _ _ t t' => t.Perm t') h h') (limit : Option Nat)
    (cutoff : Nat) : h.writeReport limit cutoff = h'.writeReport limit cutoff := by
  unfold writeReport
  rw [report_eq, report_eq, listed_perm hp]

theorem lists_listed (h : Histogram) (cutoff : Nat) :
    Each (fun _ keyLe t listed => t.Lists keyLe cutoff listed) h (h.listed cutoff) := by
  have hnumbers := Tally.lists_ranking Tally.linear_int (fun _ _ => decide_eq_true_iff) cutoff
  have haccesses := Tally.lists_ranking Tally.linear_pair (fun _ _ => Tally.pairLe_iff) cutoff
  exact ⟨hnumbers _, hnumbers _, hnumbers _, hnumbers _, hnumbers _, haccesses _, haccesses _⟩

theorem listed_isPrefix (hle : cutoff ≤ cutoff') (h : Histogram) :
    Each (fun _ _ listed' listed => listed' <+: listed) (h.listed cutoff') (h.listed cutoff) := by
  have hnumbers := Tally.ranking_isPrefix Tally.linear_int hle
  have haccesses := Tally.ranking_isPrefix Tally.linear_pair hle
  exact ⟨hnumbers _, hnumbers _, hnumbers _, hnumbers _, hnumbers _, haccesses _, haccesses _⟩

/-- **What a report is.** It is the text of lists, one for each table, of the entries that reach the
cutoff: by falling count and then by rising key, each entry as often as the table has it. Entries
that stand in another order make no difference, and a larger cutoff leaves the beginning of each
list. -/
theorem writeReport_lists (h : Histogram) (cutoff : Nat) :
    h.writeReport none cutoff = .ok (h.listed cutoff).printed ∧
      Each (fun _ keyLe t listed => t.Lists keyLe cutoff listed) h (h.listed cutoff) ∧
      (∀ h', Each (fun _ _ t t' => t.Perm t') h h' →
        h'.writeReport none cutoff = h.writeReport none cutoff) ∧
      ∀ cutoff', cutoff ≤ cutoff' →
        Each (fun _ _ listed' listed => listed' <+: listed) (h.listed cutoff') (h.listed cutoff) :=
  ⟨congrArg Except.ok (report_eq cutoff h), lists_listed h cutoff,
    fun _ hp => (writeReport_perm hp none cutoff).symm, fun _ hle => listed_isPrefix hle h⟩

end Histogram

end WasmDecode
