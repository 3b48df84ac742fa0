import WasmDecode.Histogram
import WasmDecode.Proofs.Delivery

/-!
# What a histogram counts

A histogram counts what it is told, neither more nor less. Each of its tables is a tally of the keys
that the events have for it.

* `Tally.Counts`: a tally says of each key that was seen how often it was; `Tally.Counts.add` is one
  more key.
* `Tally.CountsDense`: a tally of numbers that has an entry for each number up to the largest one
  that was seen; `Tally.CountsDense.add`.
* `Event.code?`, `Event.i32Const?` and the like: the key that an event has for a table, and
  `Histogram.count_eq`: counting an event adds its key to each table that it has one for.
* `Histogram.Counts`: what the tables of a histogram say; `Histogram.Counts.count` is one more
  event.
* `Histogram.passes_counter_iff`: a counter fails at the first complaint of the scanner.
* `Histogram.read_counts`: the histogram of a stream.
-/

namespace WasmDecode

namespace Tally

/-! ## Tallies of keys -/

section Keys

variable {κ : Type} [DecidableEq κ] {t : Tally κ} {seen : List κ} {k key : κ} {n : Nat}

/-- A tally says of each key that was seen how often it was. -/
structure Counts (t : Tally κ) (seen : List κ) : Prop where
  /-- No key has two entries. -/
  distinct : (t.map Prod.fst).Nodup
  /-- The keys stand in the order in which they were first seen. -/
  inOrder : (t.map Prod.fst).Pairwise fun k k' => seen.idxOf k < seen.idxOf k'
  /-- The keys that have been seen have an entry each, with their number. -/
  mem_iff : ∀ k n, (k, n) ∈ t ↔ k ∈ seen ∧ n = seen.count k

theorem keys_add (key : κ) (t : Tally κ) : (t.add key).map Prod.fst =
    if key ∈ t.map Prod.fst then t.map Prod.fst else t.map Prod.fst ++ [key] := by
  induction t with
  | nil => rfl
  | cons entry t ih =>
    obtain ⟨k, n⟩ := entry
    by_cases hk : k = key
    · subst hk
      simp [add]
    · simp only [add, if_neg hk, List.map_cons, ih, List.mem_cons, Ne.symm hk, false_or]
      split <;> rfl

/-- The entries of other keys stay as they are. -/
theorem mem_add_of_ne (hk : k ≠ key) : (k, n) ∈ t.add key ↔ (k, n) ∈ t := by
  induction t with
  | nil => simp [add, hk]
  | cons entry t ih =>
    obtain ⟨k₁, n₁⟩ := entry
    by_cases hk₁ : k₁ = key
    · simp [add, hk₁, hk]
    · simp [add, hk₁, ih]

/-- The key that is added counts one more than before. -/
theorem mem_add_self (hd : (t.map Prod.fst).Nodup) : (key, n) ∈ t.add key ↔
    (∃ m, (key, m) ∈ t ∧ n = m + 1) ∨ key ∉ t.map Prod.fst ∧ n = 1 := by
  induction t with
  | nil => simp [add]
  | cons entry t ih =>
    obtain ⟨k₁, n₁⟩ := entry
    obtain ⟨hnot, hd⟩ := List.nodup_cons.mp hd
    by_cases hk₁ : k₁ = key
    · subst hk₁
      have hnot' : ∀ m, (k₁, m) ∉ t := fun m hm => hnot (List.mem_map.mpr ⟨_, hm, rfl⟩)
      simp [add, hnot']
    · simp [add, hk₁, ih hd, Ne.symm hk₁]

theorem counts_empty : Counts ([] : Tally κ) [] where
  distinct := .nil
  inOrder := .nil
  mem_iff := by simp

namespace Counts

theorem mem_keys (h : t.Counts seen) : k ∈ t.map Prod.fst ↔ k ∈ seen := by
  simp [h.mem_iff]

/-- **One more key** has been seen. -/
theorem add (h : t.Counts seen) (key : κ) : (t.add key).Counts (seen ++ [key]) := by
  have hidx {k : κ} (hk : k ∈ t.map Prod.fst) : (seen ++ [key]).idxOf k = seen.idxOf k := by
    rw [List.idxOf_append, if_pos (h.mem_keys.mp hk)]
  have hinOrder : (t.map Prod.fst).Pairwise fun k k' =>
      (seen ++ [key]).idxOf k < (seen ++ [key]).idxOf k' :=
    h.inOrder.imp_of_mem fun hk hk' hlt => by rwa [hidx hk, hidx hk']
  refine ⟨?_, ?_, fun k n => ?_⟩
  · rw [keys_add]
    split
    · exact h.distinct
    · next hnew =>
      refine List.nodup_append.mpr ⟨h.distinct, List.pairwise_singleton _ _, fun k hk k' hk' => ?_⟩
      obtain rfl := List.mem_singleton.mp hk'
      exact fun heq => hnew (heq ▸ hk)
  · rw [keys_add]
    split
    · exact hinOrder
    · next hnew =>
      -- A key that is new is first seen behind all those that have been seen before.
      refine List.pairwise_append.mpr ⟨hinOrder, List.pairwise_singleton _ _, fun k hk k' hk' => ?_⟩
      obtain rfl := List.mem_singleton.mp hk'
      have hlt : seen.idxOf k < seen.length := List.idxOf_lt_length_of_mem (h.mem_keys.mp hk)
      rw [hidx hk, List.idxOf_append, if_neg (mt h.mem_keys.mpr hnew)]
      omega
  · by_cases hk : k = key
    · subst hk
      rw [mem_add_self h.distinct, h.mem_keys, List.count_append, List.count_singleton_self]
      by_cases hseen : k ∈ seen
      · simp [h.mem_iff, hseen]
      · simp [h.mem_iff, hseen, List.count_eq_zero_of_not_mem]
    · rw [mem_add_of_ne hk, h.mem_iff]
      simp [hk, Ne.symm hk]

/-- An event may have no key for a table. -/
theorem addAny (h : t.Counts seen) (key? : Option κ) :
    Counts (key?.elim t fun key => t.add key) (seen ++ key?.toList) := by
  cases key? with
  | none => simpa using h
  | some key => exact h.add key

end Counts

end Keys

/-! ## Tallies of small numbers -/

section Numbers

variable {t : Tally Int} {codes : List Nat} {c i : Nat}

/-- A tally of numbers says how often each number up to the largest one was seen. -/
structure CountsDense (t : Tally Int) (codes : List Nat) : Prop where
  eq_nil : codes = [] → t = []
  length_eq : ∀ c, codes.max? = some c → t.length = c + 1
  getElem? : ∀ i < t.length, t[i]? = some ((i : Int), codes.count i)

theorem length_grow (n : Nat) (t : Tally Int) : (t.grow n).length = max t.length n := by
  simp only [grow, List.length_append, List.length_map, List.length_range']
  omega

/-- What is new in a table that has grown counts nothing. -/
theorem getElem?_grow {n : Nat} (hi : i < max t.length n) :
    (t.grow n)[i]? = if i < t.length then t[i]? else some ((i : Int), 0) := by
  unfold grow
  split
  · next hlt => exact List.getElem?_append_left hlt
  · next hge =>
    rw [List.getElem?_append_right (Nat.le_of_not_lt hge), List.getElem?_map,
      List.getElem?_range' (by omega), Option.map_some]
    congr 2
    omega

theorem length_addDense (c : Nat) (t : Tally Int) :
    (t.addDense c).length = max t.length (c + 1) := by
  rw [addDense, List.length_modify, length_grow]

theorem total_append (t t' : Tally Int) : total (t ++ t') = t.total + t'.total := by
  induction t with
  | nil => simp [total]
  | cons entry t ih =>
    simp only [total, List.cons_append, List.foldr_cons] at ih ⊢
    omega

theorem total_grow (n : Nat) (t : Tally Int) : (t.grow n).total = t.total := by
  have hzero (codes : List Nat) : total (codes.map fun (k : Nat) => ((k : Int), 0)) = 0 := by
    induction codes with
    | nil => rfl
    | cons c codes ih => simpa [total] using ih
  rw [grow, total_append, hzero, Nat.add_zero]

theorem total_modify (t : Tally Int) (hc : c < t.length) :
    total (t.modify c fun (key, n) => (key, n + 1)) = t.total + 1 := by
  induction t generalizing c with
  | nil => cases hc
  | cons entry t ih =>
    cases c with
    | zero =>
      show entry.2 + 1 + total t = entry.2 + total t + 1
      omega
    | succ c =>
      show entry.2 + total (t.modify c _) = entry.2 + total t + 1
      rw [ih (Nat.lt_of_succ_lt_succ hc)]
      omega

theorem total_addDense (c : Nat) (t : Tally Int) : (t.addDense c).total = t.total + 1 := by
  rw [addDense, total_modify, total_grow]
  rw [length_grow]
  omega

theorem countsDense_empty : CountsDense [] [] where
  eq_nil _ := rfl
  length_eq _ h := by cases h
  getElem? _ h := by cases h

namespace CountsDense

theorem lt_length (h : t.CountsDense codes) (hc : c ∈ codes) : c < t.length := by
  have hne : codes.max? ≠ none := mt List.max?_eq_none_iff.mp (List.ne_nil_of_mem hc)
  obtain ⟨m, hm⟩ := Option.ne_none_iff_exists'.mp hne
  rw [h.length_eq m hm]
  exact Nat.lt_succ_of_le ((List.max?_eq_some_iff.mp hm).2 c hc)

/-- The table is as long as its largest code requires. -/
theorem exists_code (h : t.CountsDense codes) : t = [] ∨ ∃ c ∈ codes, t.length = c + 1 := by
  cases hm : codes.max? with
  | none => exact .inl (h.eq_nil (List.max?_eq_none_iff.mp hm))
  | some m => exact .inr ⟨m, (List.max?_eq_some_iff.mp hm).1, h.length_eq m hm⟩

/-- **One more number** has been seen. -/
theorem add (h : t.CountsDense codes) (c : Nat) : (t.addDense c).CountsDense (codes ++ [c]) := by
  refine ⟨fun hnil => by simp at hnil, fun m hm => ?_, fun i hi => ?_⟩
  · obtain ⟨hmem, hle⟩ := List.max?_eq_some_iff.mp hm
    have hc : c ≤ m := hle c (by simp)
    rw [length_addDense]
    rcases h.exists_code with rfl | ⟨last, hlast, hlen⟩
    · have hnone : ∀ x ∈ codes, False := fun x hx => by simpa using h.lt_length hx
      rcases List.mem_append.mp hmem with hx | hx
      · exact absurd (hnone m hx) id
      · simp_all
    · have hlast' : last ≤ m := hle last (List.mem_append_left _ hlast)
      rcases List.mem_append.mp hmem with hx | hx
      · have := h.lt_length hx
        omega
      · have := List.mem_singleton.mp hx
        omega
  · rw [length_addDense] at hi
    rw [addDense, List.getElem?_modify, getElem?_grow hi, List.count_append, List.count_singleton]
    have hcount : (if i < t.length then t[i]? else some ((i : Int), 0)) =
        some ((i : Int), codes.count i) := by
      split
      · next hlt => exact h.getElem? i hlt
      · next hge =>
        rw [List.count_eq_zero_of_not_mem fun hmem => hge (h.lt_length hmem)]
    rw [hcount]
    by_cases hci : c = i <;> simp [hci]

/-- An event may have no number for a table. -/
theorem addAny (h : t.CountsDense codes) (c? : Option Nat) :
    CountsDense (c?.elim t fun c => t.addDense c) (codes ++ c?.toList) := by
  cases c? with
  | none => simpa using h
  | some c => exact h.add c

end CountsDense

end Numbers

end Tally

/-! ## Keys of events -/

namespace Event

/-- The code of an opcode that has been read. -/
def code? : Event → Option Nat
  | .opcode op => some op.code
  | _ => none

/-- The value of an `i32.const`, as a signed number. -/
def i32Const? : Event → Option Int
  | .instr (.const (.i32 bits)) => some bits.toInt32.toInt
  | _ => none

/-- The index of a `get_local`. -/
def getLocal? : Event → Option Int
  | .instr (.getLocal index) => some index.toNat
  | _ => none

/-- The index of a `set_local`. -/
def setLocal? : Event → Option Int
  | .instr (.setLocal index) => some index.toNat
  | _ => none

/-- The index of a `tee_local`. -/
def teeLocal? : Event → Option Int
  | .instr (.teeLocal index) => some index.toNat
  | _ => none

/-- The binary logarithm of the alignment of an `i32.load`, and its offset. -/
def i32Load? : Event → Option (Int × Int)
  | .instr (.load .i32Load arg) => some (arg.alignLog2.toNat, arg.offset.toNat)
  | _ => none

/-- The binary logarithm of the alignment of an `i32.store`, and its offset. -/
def i32Store? : Event → Option (Int × Int)
  | .instr (.store .i32Store arg) => some (arg.alignLog2.toNat, arg.offset.toNat)
  | _ => none

/-- No two opcodes have one code. -/
theorem code?_eq_some {e : Event} {op : Opcode} : e.code? = some op.code ↔ e = .opcode op := by
  refine ⟨fun h => ?_, fun h => h ▸ rfl⟩
  cases e with
  | opcode op' =>
    have hcode : op'.code = op.code := Option.some.inj h
    have hop := Opcode.ofCode?_code op'
    rw [hcode, Opcode.ofCode?_code] at hop
    rw [Option.some.inj hop]
  | _ => cases h

/-- Constants of different bits are different as signed numbers. -/
theorem i32Const?_eq_some {e : Event} {bits : UInt32} :
    e.i32Const? = some bits.toInt32.toInt ↔ e = .instr (.const (.i32 bits)) := by
  refine ⟨fun h => ?_, fun h => h ▸ rfl⟩
  unfold i32Const? at h
  split at h
  · next bits' =>
    have hint : bits'.toInt32 = bits.toInt32 := Int32.toInt_inj.mp (Option.some.inj h)
    rw [show bits' = bits from congrArg Int32.toUInt32 hint]
  · cases h

/-- A key that one event alone has is seen as often as that event. -/
theorem count_key {κ : Type} [DecidableEq κ] {key? : Event → Option κ} {key : κ} {e : Event}
    (he : ∀ {e'}, key? e' = some key ↔ e' = e) (events : List Event) :
    (events.filterMap key?).count key = events.count e := by
  rw [List.count_filterMap, List.count]
  exact List.countP_congr fun e' _ => by rw [beq_iff_eq, beq_iff_eq, he]

end Event

/-! ## Histograms -/

namespace Histogram

/-- The tables of a histogram say what has been seen. -/
structure Counts (h : Histogram) (events : List Event) : Prop where
  opcodes : h.opcodes.CountsDense (events.filterMap Event.code?)
  total : h.total = (events.filterMap Event.code?).length
  i32Const : h.i32Const.Counts (events.filterMap Event.i32Const?)
  getLocal : h.getLocal.Counts (events.filterMap Event.getLocal?)
  setLocal : h.setLocal.Counts (events.filterMap Event.setLocal?)
  teeLocal : h.teeLocal.Counts (events.filterMap Event.teeLocal?)
  i32Load : h.i32Load.Counts (events.filterMap Event.i32Load?)
  i32Store : h.i32Store.Counts (events.filterMap Event.i32Store?)

variable {h : Histogram} {events : List Event}

/-- Counting an event adds its key to each table that it has one for. -/
theorem count_eq (h : Histogram) (e : Event) : h.count e =
    { opcodes := e.code?.elim h.opcodes fun code => h.opcodes.addDense code
      i32Const := e.i32Const?.elim h.i32Const fun key => h.i32Const.add key
      getLocal := e.getLocal?.elim h.getLocal fun key => h.getLocal.add key
      setLocal := e.setLocal?.elim h.setLocal fun key => h.setLocal.add key
      teeLocal := e.teeLocal?.elim h.teeLocal fun key => h.teeLocal.add key
      i32Load := e.i32Load?.elim h.i32Load fun key => h.i32Load.add key
      i32Store := e.i32Store?.elim h.i32Store fun key => h.i32Store.add key } := by
  cases e with
  | instr i =>
    cases i with
    | const value => cases value <;> rfl
    | load op arg => cases op <;> rfl
    | store op arg => cases op <;> rfl
    | _ => rfl
  | _ => rfl

theorem counts_empty : Counts {} [] where
  opcodes := Tally.countsDense_empty
  total := rfl
  i32Const := Tally.counts_empty
  getLocal := Tally.counts_empty
  setLocal := Tally.counts_empty
  teeLocal := Tally.counts_empty
  i32Load := Tally.counts_empty
  i32Store := Tally.counts_empty

/-- **One more event** has been seen. -/
theorem Counts.count (hc : h.Counts events) (e : Event) : (h.count e).Counts (events ++ [e]) := by
  rw [count_eq]
  have hsplit {κ : Type} (key? : Event → Option κ) :
      (events ++ [e]).filterMap key? = events.filterMap key? ++ (key? e).toList := by
    rw [List.filterMap_append]
    cases he : key? e <;> simp [he]
  constructor <;> simp only [hsplit]
  · exact hc.opcodes.addAny _
  · rw [List.length_append, ← hc.total]
    cases e.code? with
    | none => rfl
    | some code => exact Tally.total_addDense code h.opcodes
  · exact hc.i32Const.addAny _
  · exact hc.getLocal.addAny _
  · exact hc.setLocal.addAny _
  · exact hc.teeLocal.addAny _
  · exact hc.i32Load.addAny _
  · exact hc.i32Store.addAny _

theorem Counts.foldl_count (hc : h.Counts events) (more : List Event) :
    (more.foldl Histogram.count h).Counts (events ++ more) := by
  induction more generalizing h events with
  | nil => simpa using hc
  | cons e more ih =>
    rw [List.append_cons]
    exact ih (hc.count e)

/-- An opcode was counted as often as it was told. -/
theorem Counts.opcodeCount (hc : h.Counts events) (op : Opcode) :
    h.opcodeCount op = events.count (.opcode op) := by
  rw [← Event.count_key Event.code?_eq_some, Histogram.opcodeCount]
  by_cases hlt : op.code < h.opcodes.length
  · rw [hc.opcodes.getElem? _ hlt]
    rfl
  · rw [List.getElem?_eq_none (Nat.le_of_not_lt hlt),
      List.count_eq_zero_of_not_mem (mt hc.opcodes.lt_length hlt)]
    rfl

/-- A constant was counted as often as it was told: the signed numbers keep all constants apart. -/
theorem Counts.mem_i32Const (hc : h.Counts events) (bits : UInt32) (n : Nat) :
    (bits.toInt32.toInt, n) ∈ h.i32Const ↔
      .instr (.const (.i32 bits)) ∈ events ∧ n = events.count (.instr (.const (.i32 bits))) := by
  rw [hc.i32Const.mem_iff, Event.count_key Event.i32Const?_eq_some, List.mem_filterMap]
  simp only [Event.i32Const?_eq_some, exists_eq_right]

end Histogram

/-! ## Readers that count -/

namespace Histogram

variable {h h' : Histogram} {data : ByteArray} {entries : List Entry} {e : Event}
  {stream : Stream} {debugNames : Bool}

/-- All entries are counted, also those behind a complaint, which fails and counts for nothing. -/
theorem receiveAll_counter (h : Histogram) (entries : List Entry) :
    Reader.counter.receiveAll data h entries = (entries.map Entry.event).foldl count h := by
  rw [Reader.receiveAll, List.foldl_map]
  congr
  funext h ⟨offset, e⟩
  cases e <;> rfl

/-- A counter succeeds unless the scanner complains. -/
theorem passes_counter_iff : Reader.counter.Passes data h entries h' ↔
    (∀ message, .malformed message ∉ entries.map Entry.event) ∧
      h' = (entries.map Entry.event).foldl count h := by
  induction entries generalizing h with
  | nil =>
    refine ⟨fun hp => ?_, fun ⟨_, heq⟩ => heq ▸ .nil⟩
    cases hp
    exact ⟨fun _ hm => (nomatch hm), rfl⟩
  | cons entry entries ih =>
    by_cases he : ∃ message, entry.event = .malformed message
    · obtain ⟨message, he⟩ := he
      refine ⟨fun hp => ?_, fun ⟨hwell, _⟩ => absurd (by simp [he]) (hwell message)⟩
      obtain _ | ⟨hr, _⟩ := hp
      rw [Reader.receive, he] at hr
      cases hr
    · have hr : (Reader.counter.receive data h entry).result = (.ok (), h.count entry.event) := by
        rw [Reader.receive, Reader.dispatch_eq_handle fun message hm => he ⟨message, hm⟩]
        rfl
      have hrest : (∀ message, .malformed message ∉ (entry :: entries).map Entry.event) ↔
          ∀ message, .malformed message ∉ entries.map Entry.event := by
        have hne : ∀ message, ¬ .malformed message = entry.event :=
          fun message hm => he ⟨message, hm.symm⟩
        simp [hne]
      rw [hrest, List.map_cons, List.foldl_cons, ← ih]
      refine ⟨fun hp => ?_, fun hp => .cons hr hp⟩
      obtain _ | ⟨hr', hp⟩ := hp
      rwa [(Prod.mk.inj (hr.symm.trans hr')).2]

/-- The events of the names section count for nothing. -/
theorem count_of_isDebugName (he : e.isDebugName = true) : h.count e = h := by
  cases e <;> first | rfl | cases he

theorem foldl_count_told (h : Histogram) (stream : Stream) (debugNames : Bool) :
    ((stream.told debugNames).map Entry.event).foldl count h =
      (stream.entries.toList.map Entry.event).foldl count h := by
  rw [Stream.map_told, List.foldl_filter]
  congr
  funext h e
  split
  · rfl
  · next hplain => exact (count_of_isDebugName (by simp_all)).symm

theorem malformed_mem_told {message : String} :
    .malformed message ∈ (stream.told debugNames).map Entry.event ↔
      .malformed message ∈ stream.entries.toList.map Entry.event := by
  rw [Stream.map_told, List.mem_filter]
  exact and_iff_left (Bool.or_true debugNames)

/-- The histogram of a stream that can be read is what its events count for. -/
theorem read_eq_ok_iff : (read { debugNames } data stream).outcome = .ok h ↔
    (∀ message, .malformed message ∉ stream.entries.toList.map Entry.event) ∧
      h = (stream.entries.toList.map Entry.event).foldl count {} := by
  have hpasses : Reader.counter.Passes data {} (stream.told debugNames) h ↔ _ :=
    passes_counter_iff
  simp only [malformed_mem_told, foldl_count_told] at hpasses
  rw [← hpasses, Reader.passes_iff, Histogram.read, Reply.outcome_andThen_eq_ok]
  exact ⟨fun ⟨_, _, hr, ht⟩ => Except.ok.inj ht ▸ hr, fun hr => ⟨h, (), hr, rfl⟩⟩

/-- **Exactness.** Events that are handed to a counter one by one leave a histogram whose tables say
what has been seen, and so how often each opcode and each constant was told. A stream can be read,
with or without its names section, just if the scanner does not complain, and this is its
histogram. -/
theorem read_counts (data : ByteArray) (stream : Stream) :
    let events := stream.entries.toList.map Entry.event
    let h := Reader.counter.receiveAll data {} stream.entries.toList
    h.Counts events ∧
      (∀ op, h.opcodeCount op = events.count (.opcode op)) ∧
      (∀ bits n, (bits.toInt32.toInt, n) ∈ h.i32Const ↔
        .instr (.const (.i32 bits)) ∈ events ∧ n = events.count (.instr (.const (.i32 bits)))) ∧
      ∀ data' debugNames h', (read { debugNames } data' stream).outcome = .ok h' ↔
        (∀ message, .malformed message ∉ events) ∧ h' = h := by
  intro events h
  have hh : h = events.foldl count {} := receiveAll_counter {} _
  have hc : h.Counts events := hh ▸ counts_empty.foldl_count events
  refine ⟨hc, hc.opcodeCount, hc.mem_i32Const, fun data' debugNames h' => ?_⟩
  rw [hh]
  exact read_eq_ok_iff

end Histogram

end WasmDecode
