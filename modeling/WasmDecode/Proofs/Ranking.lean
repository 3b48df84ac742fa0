import WasmDecode.Proofs.Counting
import WasmDecode.Proofs.Listing

/-!
# Rankings do not depend on the order of events

The tables of a histogram list their keys in the order in which they were first seen. A report ranks
them, and what a ranking shows depends only on which entries there are.

* `Tally.Counts.perm`, `Tally.CountsDense.perm`: what tallies of the same keys have in common.
* `Histogram.Alike`: histograms that differ at most in the order of entries; `Alike.writeReport`
  says that their reports are the same.
* `Histogram.read_perm`: streams that tell the same events in different orders.
-/

namespace WasmDecode

namespace Tally

variable {κ : Type} {t t' : Tally κ}

/-! ## Tallies of the same keys -/

/-- Tallies of the same keys have the same entries. -/
theorem Counts.perm [DecidableEq κ] {seen seen' : List κ} (h : t.Counts seen)
    (h' : t'.Counts seen') (hp : seen.Perm seen') : t.Perm t' := by
  have hnodup {t : Tally κ} (hd : (t.map Prod.fst).Nodup) : t.Nodup :=
    (List.pairwise_map.mp hd).imp fun hne heq => hne (congrArg Prod.fst heq)
  refine (List.perm_ext_iff_of_nodup (hnodup h.distinct) (hnodup h'.distinct)).mpr fun ⟨k, n⟩ => ?_
  rw [h.mem_iff, h'.mem_iff, hp.mem_iff, hp.count_eq]

theorem CountsDense.length_le {t t' : Tally Int} {codes codes' : List Nat}
    (h : t.CountsDense codes) (h' : t'.CountsDense codes') (hsub : codes ⊆ codes') :
    t.length ≤ t'.length := by
  rcases h.exists_code with rfl | ⟨c, hc, hlen⟩
  · exact Nat.zero_le _
  · rw [hlen]
    exact h'.lt_length (hsub hc)

/-- Tallies of the same numbers are the same. -/
theorem CountsDense.perm {t t' : Tally Int} {codes codes' : List Nat} (h : t.CountsDense codes)
    (h' : t'.CountsDense codes') (hp : codes.Perm codes') : t = t' := by
  have hlen : t.length = t'.length :=
    Nat.le_antisymm (h.length_le h' hp.subset) (h'.length_le h hp.symm.subset)
  refine List.ext_getElem? fun i => ?_
  by_cases hi : i < t.length
  · rw [h.getElem? i hi, h'.getElem? i (hlen ▸ hi), hp.count_eq]
  · rw [List.getElem?_eq_none (Nat.le_of_not_lt hi),
      List.getElem?_eq_none (hlen ▸ Nat.le_of_not_lt hi)]

end Tally

/-! ## Reports -/

namespace Histogram

variable {h h' : Histogram} {events events' : List Event}

/-- Histograms that differ at most in the order of the entries for operands. -/
structure Alike (h h' : Histogram) : Prop where
  opcodes : h.opcodes = h'.opcodes
  i32Const : h.i32Const.Perm h'.i32Const
  getLocal : h.getLocal.Perm h'.getLocal
  setLocal : h.setLocal.Perm h'.setLocal
  teeLocal : h.teeLocal.Perm h'.teeLocal
  i32Load : h.i32Load.Perm h'.i32Load
  i32Store : h.i32Store.Perm h'.i32Store

/-- The reports on histograms that are alike are the same. -/
theorem Alike.writeReport (ha : h.Alike h') (limit : Option Nat) (cutoff : Nat) :
    h.writeReport limit cutoff = h'.writeReport limit cutoff :=
  writeReport_perm ⟨.of_eq ha.opcodes, ha.i32Const, ha.getLocal, ha.setLocal, ha.teeLocal,
    ha.i32Load, ha.i32Store⟩ limit cutoff

/-- Histograms of the same events are alike. -/
theorem Counts.alike (hc : h.Counts events) (hc' : h'.Counts events') (hp : events.Perm events') :
    h.Alike h' where
  opcodes := hc.opcodes.perm hc'.opcodes (hp.filterMap _)
  i32Const := hc.i32Const.perm hc'.i32Const (hp.filterMap _)
  getLocal := hc.getLocal.perm hc'.getLocal (hp.filterMap _)
  setLocal := hc.setLocal.perm hc'.setLocal (hp.filterMap _)
  teeLocal := hc.teeLocal.perm hc'.teeLocal (hp.filterMap _)
  i32Load := hc.i32Load.perm hc'.i32Load (hp.filterMap _)
  i32Store := hc.i32Store.perm hc'.i32Store (hp.filterMap _)

/-- **The order of events is irrelevant.** Streams that tell the same events, none of them a
complaint of the scanner, have histograms with the same opcode table and the same entries in each
table of operands, and with every cutoff the same report. -/
theorem read_perm (data data' : ByteArray) (debugNames debugNames' : Bool)
    (stream stream' : Stream)
    (hp : (stream.entries.toList.map Entry.event).Perm (stream'.entries.toList.map Entry.event))
    (hw : ∀ message, .malformed message ∉ stream.entries.toList.map Entry.event) :
    ∃ h h', (read { debugNames } data stream).outcome = .ok h ∧
      (read { debugNames := debugNames' } data' stream').outcome = .ok h' ∧
      h.Alike h' ∧
      ∀ limit cutoff, h.writeReport limit cutoff = h'.writeReport limit cutoff := by
  have hw' : ∀ message, .malformed message ∉ stream'.entries.toList.map Entry.event :=
    fun message => mt hp.mem_iff.mpr (hw message)
  have ha := (counts_empty.foldl_count (stream.entries.toList.map Entry.event)).alike
    (counts_empty.foldl_count (stream'.entries.toList.map Entry.event)) hp
  exact ⟨_, _, read_eq_ok_iff.mpr ⟨hw, rfl⟩, read_eq_ok_iff.mpr ⟨hw', rfl⟩, ha, ha.writeReport⟩

/-- Two constants and a load, and the same in the opposite order: the tables differ. -/
theorem read_perm_reversed : ∃ h h',
    (read { debugNames := false } .empty (.ofList [.instr (.const (.i32 7)),
      .instr (.const (.i32 0xffffffff)), .opcode .drop, .instr (.load .i32Load ⟨2, 8⟩)])).outcome =
      .ok h ∧
    (read { debugNames := true } .empty (.ofList [.instr (.load .i32Load ⟨2, 8⟩), .opcode .drop,
      .instr (.const (.i32 0xffffffff)), .instr (.const (.i32 7))])).outcome = .ok h' ∧
    h.Alike h' ∧ ∀ limit cutoff, h.writeReport limit cutoff = h'.writeReport limit cutoff :=
  read_perm .empty .empty false true (.ofList _) (.ofList _) (List.reverse_perm _).symm
    (by simp [Stream.ofList, Stream.extend, Stream.push, Stream.pushAt])

end Histogram

end WasmDecode
