/-
**Throughput from the counters of the machine's interfaces.**

`metrics/collect/windows_impl.rs`.  The octets of all interfaces that count are added up, and two
such readings are differenced into a rate.  A counter that goes back, because an adapter was reset,
makes the difference meaningless.  The code looks for that in the sums, where what one interface has
lost can be made up for by what the others have gained.

The division and the rounding are done in `f64`, and are a parameter.

Main definitions:

* `Osprey.IfTable` with `countedRows` and `netCounters`, `Osprey.rates`;
* `Osprey.Reset` — a counter of a single interface has gone back;
* `Osprey.lost`, `Osprey.gained` — what the interfaces have lost and gained together.

Main results:

* `Osprey.total_add_gained` — the sums differ by what was gained less what was lost;
* `Osprey.rates_eq_none_iff` — when the rates are unknown;
* `Osprey.reset_unknown_iff` — **a reset makes them unknown exactly where more was lost than
  gained**.
-/

import Mathlib.Data.List.Sort
import Mathlib.Tactic

set_option relaxedAutoImplicit false
set_option autoImplicit false

namespace Osprey

/-! ### The interfaces that count -/

/-- `NET_IF_ACCESS_TYPE`. -/
inductive AccessType
  | loopback
  | broadcast
  | pointToPoint
  | pointToMultiPoint
  deriving DecidableEq, Repr

/-- `IF_OPER_STATUS`. -/
inductive OperStatus
  | up
  | down
  | testing
  | unknown
  | dormant
  | notPresent
  | lowerLayerDown
  deriving DecidableEq, Repr

/-- What is read of a `MIB_IF_ROW2`. -/
structure IfRow where
  interfaceIndex : UInt32
  accessType : AccessType
  operStatus : OperStatus
  interfaceAndOperStatusFlags : UInt8
  inOctets : UInt64
  outOctets : UInt64
  deriving DecidableEq, Repr

/-- The interfaces of the machine.  An index is the index of one interface. -/
structure IfTable where
  rows : List IfRow
  distinct : (rows.map IfRow.interfaceIndex).Nodup

/-- The bit that filter drivers carry, whose rows repeat the octets of their adapter. -/
def FILTER_INTERFACE_FLAG : UInt8 := 0x02

/-- One interface that counts toward the machine's throughput. -/
structure CountedRow where
  index : UInt32
  inOctets : UInt64
  outOctets : UInt64
  deriving DecidableEq, Repr

/-- A row that counts is of an interface that is up, and neither a loopback nor a filter. -/
def IfRow.counted? (row : IfRow) : Option CountedRow :=
  if row.accessType = .loopback ∨ row.operStatus ≠ .up then none
  else if row.interfaceAndOperStatusFlags &&& FILTER_INTERFACE_FLAG ≠ 0 then none
  else some ⟨row.interfaceIndex, row.inOctets, row.outOctets⟩

/-- The rows that are summed. -/
def IfTable.countedRows (table : IfTable) : List CountedRow := table.rows.filterMap IfRow.counted?

/-! ### Readings and rates -/

/-- The totals of a reading, when it was taken, in nanoseconds, and over which interfaces. -/
structure NetCounters where
  rxBytes : UInt64
  txBytes : UInt64
  takenAt : ℕ
  interfaces : List UInt32
  deriving DecidableEq, Repr

/-- `u64::saturating_add`. -/
def saturatingAdd (a b : UInt64) : UInt64 := UInt64.ofNat (min (2 ^ 64 - 1) (a.toNat + b.toNat))

/-- The octets that `octets` reads of the rows, added up. -/
def total (octets : CountedRow → UInt64) (rows : List CountedRow) : UInt64 :=
  rows.foldl (fun sum row => saturatingAdd sum (octets row)) 0

/-- Total octets in and out across the machine's real, connected interfaces. -/
def IfTable.netCounters (table : IfTable) (now : ℕ) : NetCounters where
  rxBytes := total CountedRow.inOctets table.countedRows
  txBytes := total CountedRow.outOctets table.countedRows
  takenAt := now
  interfaces := (table.countedRows.map CountedRow.index).mergeSort (· ≤ ·)

/-- Bytes per second between two readings, unless the pair cannot be differenced.  `perSecond` is
what the floating-point division makes of some octets in so many nanoseconds. -/
def rates (perSecond : UInt64 → ℕ → UInt64) (previous current : NetCounters) :
    Option (UInt64 × UInt64) :=
  let elapsed := current.takenAt - previous.takenAt
  if elapsed = 0 then none
  else if previous.interfaces ≠ current.interfaces then none
  else if current.rxBytes < previous.rxBytes ∨ current.txBytes < previous.txBytes then none
  else
    some (perSecond (current.rxBytes - previous.rxBytes) elapsed,
      perSecond (current.txBytes - previous.txBytes) elapsed)

/-- When the rates are unknown. -/
theorem rates_eq_none_iff {perSecond : UInt64 → ℕ → UInt64} {previous current : NetCounters} :
    rates perSecond previous current = none ↔ current.takenAt ≤ previous.takenAt ∨
      previous.interfaces ≠ current.interfaces ∨ current.rxBytes < previous.rxBytes ∨
      current.txBytes < previous.txBytes := by
  unfold rates
  dsimp only
  split
  · rename_i helapsed
    exact iff_of_true rfl (.inl (Nat.sub_eq_zero_iff_le.mp helapsed))
  · rename_i helapsed
    rw [Nat.sub_eq_zero_iff_le] at helapsed
    split
    · rename_i hinterfaces
      exact iff_of_true rfl (.inr (.inl hinterfaces))
    · rename_i hinterfaces
      split
      · rename_i hback
        exact iff_of_true rfl (.inr (.inr hback))
      · rename_i hback
        refine iff_of_false (by simp) ?_
        rintro (h | h | h)
        · exact helapsed h
        · exact hinterfaces h
        · exact hback h

/-! ### What is lost and what is gained -/

/-- What two functions add up to over a list differs by what one has more than the other. -/
theorem sum_add_sum_sub {α : Type} (f g : α → ℕ) (list : List α) :
    (list.map f).sum + (list.map fun a => g a - f a).sum
      = (list.map g).sum + (list.map fun a => f a - g a).sum := by
  induction list with
  | nil => rfl
  | cons a list ih =>
      simp only [List.map_cons, List.sum_cons]
      omega

theorem toNat_saturatingAdd (a b : UInt64) :
    (saturatingAdd a b).toNat = min (2 ^ 64 - 1) (a.toNat + b.toNat) := by
  rw [saturatingAdd, UInt64.toNat_ofNat_of_lt' (lt_of_le_of_lt (min_le_left _ _) (by decide))]

/-- Adding up saturates once, at the end. -/
theorem toNat_total (octets : CountedRow → UInt64) (rows : List CountedRow) :
    (total octets rows).toNat
      = min (2 ^ 64 - 1) (rows.map fun row => (octets row).toNat).sum := by
  have hfold (sum : UInt64) : (rows.foldl (fun sum row => saturatingAdd sum (octets row)) sum).toNat
      = min (2 ^ 64 - 1) (sum.toNat + (rows.map fun row => (octets row).toNat).sum) := by
    induction rows generalizing sum with
    | nil =>
        have hsum := sum.toNat_lt
        rw [List.foldl_nil, List.map_nil, List.sum_nil]
        omega
    | cons row rows ih =>
        rw [List.foldl_cons, ih, toNat_saturatingAdd, List.map_cons, List.sum_cons]
        omega
  rw [total, hfold, UInt64.toNat_zero, Nat.zero_add]

/-- What the row of an interface reads, if there is one. -/
def octetsAt (octets : CountedRow → UInt64) (rows : List CountedRow) (index : UInt32) : ℕ :=
  (rows.find? fun row => row.index = index).elim 0 fun row => (octets row).toNat

/-- What the counters of single interfaces have gone back by, from one table to the next. -/
def lost (octets : CountedRow → UInt64) (previous current : List CountedRow) : ℕ :=
  (previous.map fun row => (octets row).toNat - octetsAt octets current row.index).sum

/-- What those of the others have gone on by. -/
def gained (octets : CountedRow → UInt64) (previous current : List CountedRow) : ℕ :=
  (previous.map fun row => octetsAt octets current row.index - (octets row).toNat).sum

/-- A counter of a single interface has gone back. -/
def Reset (previous current : List CountedRow) : Prop :=
  ∃ row ∈ previous, ∃ later ∈ current, later.index = row.index ∧
    (later.inOctets < row.inOctets ∨ later.outOctets < row.outOctets)

instance (previous current : List CountedRow) : Decidable (Reset previous current) :=
  inferInstanceAs (Decidable (∃ row ∈ previous, ∃ later ∈ current, later.index = row.index ∧
    (later.inOctets < row.inOctets ∨ later.outOctets < row.outOctets)))

/-- More was lost than gained, and the later sum does not saturate. -/
def Outweighs (octets : CountedRow → UInt64) (previous current : List CountedRow) : Prop :=
  gained octets previous current < lost octets previous current ∧
    (current.map fun row => (octets row).toNat).sum < 2 ^ 64 - 1

instance (octets : CountedRow → UInt64) (previous current : List CountedRow) :
    Decidable (Outweighs octets previous current) := inferInstanceAs (Decidable (_ ∧ _))

theorem IfRow.index_of_counted {row : IfRow} {counted : CountedRow}
    (h : row.counted? = some counted) : counted.index = row.interfaceIndex := by
  unfold IfRow.counted? at h
  split at h
  · cases h
  · split at h
    · cases h
    · cases h
      rfl

/-- The interfaces that count are different ones. -/
theorem IfTable.nodup_countedRows (table : IfTable) :
    (table.countedRows.map CountedRow.index).Nodup := by
  have hsublist (rows : List IfRow) :
      ((rows.filterMap IfRow.counted?).map CountedRow.index).Sublist
        (rows.map IfRow.interfaceIndex) := by
    induction rows with
    | nil => exact List.Sublist.refl _
    | cons row rows ih =>
        cases hcounted : row.counted? with
        | none =>
            rw [List.filterMap_cons_none hcounted]
            exact ih.trans (List.sublist_cons_self _ _)
        | some counted =>
            rw [List.filterMap_cons_some hcounted, List.map_cons, List.map_cons,
              IfRow.index_of_counted hcounted]
            exact ih.cons_cons _
  exact table.distinct.sublist (hsublist table.rows)

/-- Where no index is repeated, a row is the one that is found. -/
theorem octetsAt_of_mem {octets : CountedRow → UInt64} {rows : List CountedRow}
    (hnodup : (rows.map CountedRow.index).Nodup) {row : CountedRow} (hrow : row ∈ rows) :
    octetsAt octets rows row.index = (octets row).toNat := by
  induction rows with
  | nil => cases hrow
  | cons first rows ih =>
      obtain ⟨hfirst, hrest⟩ := List.nodup_cons.mp hnodup
      rcases List.mem_cons.mp hrow with rfl | hmem
      · simp [octetsAt]
      · have hne : first.index ≠ row.index := by
          intro heq
          exact hfirst (heq ▸ List.mem_map_of_mem hmem)
        rw [← ih hrest hmem, octetsAt, octetsAt, List.find?_cons_of_neg (by simpa using hne)]

/-- The interfaces of one table, looked up in another of the same interfaces, are all of that. -/
theorem sum_octetsAt {octets : CountedRow → UInt64} {previous current : List CountedRow}
    (hprevious : (previous.map CountedRow.index).Nodup)
    (hcurrent : (current.map CountedRow.index).Nodup)
    (hsame : ∀ index, index ∈ previous.map CountedRow.index ↔
      index ∈ current.map CountedRow.index) :
    (previous.map fun row => octetsAt octets current row.index).sum
      = (current.map fun row => (octets row).toNat).sum := by
  have hperm : (previous.map CountedRow.index).Perm (current.map CountedRow.index) :=
    (List.perm_ext_iff_of_nodup hprevious hcurrent).mpr hsame
  calc (previous.map fun row => octetsAt octets current row.index).sum
      = ((previous.map CountedRow.index).map (octetsAt octets current)).sum := by
        rw [List.map_map]
        rfl
    _ = ((current.map CountedRow.index).map (octetsAt octets current)).sum :=
        (hperm.map _).sum_eq
    _ = (current.map fun row => (octets row).toNat).sum := by
        rw [List.map_map]
        congr 1
        exact List.map_congr_left fun row hrow => octetsAt_of_mem hcurrent hrow

/-- **The sums differ by what was gained less what was lost.** -/
theorem total_add_gained (octets : CountedRow → UInt64) {previous current : List CountedRow}
    (hprevious : (previous.map CountedRow.index).Nodup)
    (hcurrent : (current.map CountedRow.index).Nodup)
    (hsame : ∀ index, index ∈ previous.map CountedRow.index ↔
      index ∈ current.map CountedRow.index) :
    (previous.map fun row => (octets row).toNat).sum + gained octets previous current
      = (current.map fun row => (octets row).toNat).sum + lost octets previous current := by
  rw [← sum_octetsAt hprevious hcurrent hsame]
  exact sum_add_sum_sub _ _ previous

/-- The total goes back exactly where more was lost than gained. -/
theorem total_lt_iff {octets : CountedRow → UInt64} {previous current : List CountedRow}
    (hprevious : (previous.map CountedRow.index).Nodup)
    (hcurrent : (current.map CountedRow.index).Nodup)
    (hsame : ∀ index, index ∈ previous.map CountedRow.index ↔
      index ∈ current.map CountedRow.index) :
    total octets current < total octets previous ↔ Outweighs octets previous current := by
  have hsum := total_add_gained octets hprevious hcurrent hsame
  rw [UInt64.lt_iff_toNat_lt, toNat_total, toNat_total, Outweighs]
  omega

/-- The interfaces of two tables are the same set exactly where their sorted lists are the same. -/
theorem interfaces_eq {previous current : IfTable}
    (hsame : ∀ index, index ∈ previous.countedRows.map CountedRow.index ↔
      index ∈ current.countedRows.map CountedRow.index) (before now : ℕ) :
    (previous.netCounters before).interfaces = (current.netCounters now).interfaces := by
  have hperm := (List.perm_ext_iff_of_nodup previous.nodup_countedRows
    current.nodup_countedRows).mpr hsame
  have hsorted (indices : List UInt32) : (indices.mergeSort (· ≤ ·)).Pairwise (· ≤ ·) := by
    have htrans (a b c : UInt32) (hab : decide (a ≤ b) = true) (hbc : decide (b ≤ c) = true) :
        decide (a ≤ c) = true :=
      decide_eq_true (UInt32.le_trans (of_decide_eq_true hab) (of_decide_eq_true hbc))
    have htotal (a b : UInt32) : (decide (a ≤ b) || decide (b ≤ a)) = true := by
      simp [UInt32.le_total]
    exact (List.pairwise_mergeSort htrans htotal indices).imp fun h => of_decide_eq_true h
  refine List.Perm.eq_of_pairwise (fun a b _ _ => UInt32.le_antisymm) (hsorted _) (hsorted _) ?_
  exact (List.mergeSort_perm _ _).trans (hperm.trans (List.mergeSort_perm _ _).symm)

/-- **When a reset is not reported as throughput.**  Of two tables of the same interfaces, in the
later of which some counter has gone back, the rates are unknown exactly if no time has passed, or
in one of the directions more octets were lost than gained (and the later ones do not add up to more
than a `u64` holds). -/
theorem reset_unknown_iff (perSecond : UInt64 → ℕ → UInt64) {previous current : IfTable}
    (hsame : ∀ index, index ∈ previous.countedRows.map CountedRow.index ↔
      index ∈ current.countedRows.map CountedRow.index) (before now : ℕ) :
    (Reset previous.countedRows current.countedRows →
      rates perSecond (previous.netCounters before) (current.netCounters now) = none) ↔
    (Reset previous.countedRows current.countedRows → now ≤ before ∨
      Outweighs CountedRow.inOctets previous.countedRows current.countedRows ∨
      Outweighs CountedRow.outOctets previous.countedRows current.countedRows) := by
  refine imp_congr_right fun _ => ?_
  have hprevious := previous.nodup_countedRows
  have hcurrent := current.nodup_countedRows
  rw [rates_eq_none_iff, ← total_lt_iff hprevious hcurrent hsame,
    ← total_lt_iff hprevious hcurrent hsame]
  constructor
  · rintro (h | h | h)
    · exact .inl h
    · exact absurd (interfaces_eq hsame before now) h
    · exact .inr h
  · rintro (h | h)
    · exact .inl h
    · exact .inr (.inr h)

/-! ### Two adapters -/

/-- Two adapters that have received so much. -/
def twoAdapters (first second : UInt64) : IfTable where
  rows := [⟨1, .broadcast, .up, 0x05, first, 0⟩, ⟨2, .broadcast, .up, 0x05, second, 0⟩]
  distinct := by simp

theorem countedRows_twoAdapters (first second : UInt64) :
    (twoAdapters first second).countedRows = [⟨1, first, 0⟩, ⟨2, second, 0⟩] := by
  have hcounted (index : UInt32) (octets : UInt64) :
      IfRow.counted? ⟨index, .broadcast, .up, 0x05, octets, 0⟩ = some ⟨index, octets, 0⟩ := by
    have hflag : (0x05 : UInt8) &&& FILTER_INTERFACE_FLAG = 0 := by decide
    simp [IfRow.counted?, hflag]
  rw [IfTable.countedRows, twoAdapters, List.filterMap_cons_some (hcounted 1 first),
    List.filterMap_cons_some (hcounted 2 second)]
  rfl

theorem twoAdapters_same (first second first' second' : UInt64) (index : UInt32) :
    index ∈ (twoAdapters first second).countedRows.map CountedRow.index ↔
      index ∈ (twoAdapters first' second').countedRows.map CountedRow.index := by
  rw [countedRows_twoAdapters, countedRows_twoAdapters]
  exact Iff.rfl

/-- One adapter is reset, and the other has received less than that has lost. -/
theorem reset_unknown_iff_noticed : rates (fun octets _ => octets)
    ((twoAdapters 1000 0).netCounters 0) ((twoAdapters 10 500).netCounters 1000000000) = none :=
  (reset_unknown_iff (fun octets _ => octets) (twoAdapters_same 1000 0 10 500) 0 1000000000).mpr
    (fun _ => .inr (.inl (by decide +kernel))) (by decide +kernel)

/-- One adapter is reset, and the other has received more than that has lost: 4010 octets are
reported. -/
theorem reset_masked : ¬∀ (previous current : IfTable) (before now : ℕ),
    (∀ index, index ∈ previous.countedRows.map CountedRow.index ↔
      index ∈ current.countedRows.map CountedRow.index) →
    Reset previous.countedRows current.countedRows →
    rates (fun octets _ => octets) (previous.netCounters before) (current.netCounters now)
      = none := by
  intro h
  have hsame := twoAdapters_same 1000 0 10 5000
  have hnone := h (twoAdapters 1000 0) (twoAdapters 10 5000) 0 1000000000 hsame (by decide +kernel)
  rcases rates_eq_none_iff.mp hnone with hback | hback | hback
  · exact absurd hback (by decide)
  · exact hback (interfaces_eq hsame 0 1000000000)
  · exact absurd hback (by decide +kernel)

end Osprey
