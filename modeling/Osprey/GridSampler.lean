/-
**Storing as sampling on a grid.**

What `deliver` of `metrics/engine.rs` pushes into the ring, over whole sequences of deliveries.  The
first sample with known rates lays a grid of cells of `RING_INTERVAL_MS`; the due time is the start
of the first cell that nothing has been stored of, and moving it past a sample over any number of
cells keeps it on the grid.  So while the clock does not run backwards, what is stored is the first
sample with known rates of each cell.

Main definitions:

* `Osprey.Storing` — the recorder, with the list of what it has stored;
* `Osprey.Recorder.Stores` — whether a sample is stored;
* `Osprey.cellFirsts` — **the first known sample of each cell**;
* `Osprey.Sampled` — the invariant.

Main results:

* `Osprey.store_of_stores`, `Osprey.store_of_not_stores` — what storing does;
* `Osprey.sampled_deliver` — the invariant is kept;
* `Osprey.grid_sampler` — **what is stored is a sampling of the grid**.
-/

import Osprey.MetricsGrid

set_option relaxedAutoImplicit false
set_option autoImplicit false

namespace Osprey

variable {F : Type}

/-! ### What is stored -/

/-- The sample goes into the ring: its rates are known, and it is not before the due time. -/
def Recorder.Stores (recorder : Recorder F) (sample : Sample F) : Prop :=
  sample.Known ∧ ∀ due ∈ recorder.nextRingDue, due ≤ sample.tsMs

instance (recorder : Recorder F) (sample : Sample F) : Decidable (recorder.Stores sample) :=
  inferInstanceAs (Decidable (_ ∧ _))

/-- The recorder, with every sample that it has pushed, the oldest first. -/
structure Storing (F : Type) where
  recorder : Recorder F
  stored : List (Sample F)

def Storing.new : Storing F := ⟨.new, []⟩

def Storing.deliver (s : Storing F) (sample : Sample F) : Option (Storing F) :=
  (s.recorder.store sample).map fun recorder =>
    ⟨recorder, if s.recorder.Stores sample then s.stored ++ [sample] else s.stored⟩

theorem not_known_iff {sample : Sample F} : ¬sample.Known ↔
    (sample.netRxBytesPerSec.isNone || sample.netTxBytesPerSec.isNone) = true := by
  unfold Sample.Known
  cases sample.netRxBytesPerSec with
  | none => simp
  | some rx =>
      cases sample.netTxBytesPerSec with
      | none => simp
      | some tx => simp

theorem store_of_not_stores {recorder : Recorder F} {sample : Sample F}
    (h : ¬recorder.Stores sample) : recorder.store sample = some recorder := by
  by_cases hknown : sample.Known
  · have hearly : ∃ due, recorder.nextRingDue = some due ∧ ¬due ≤ sample.tsMs := by
      by_contra hnone
      push Not at hnone
      exact h ⟨hknown, fun due hdue => hnone due hdue⟩
    obtain ⟨due, hdue, hlt⟩ := hearly
    have hrates := not_known_iff.not_right.mp hknown
    rw [Recorder.store, if_neg hrates, hdue]
    simp only
    rw [if_neg hlt]
  · rw [Recorder.store, if_pos (not_known_iff.mp hknown)]

/-- A stored sample is pushed, and the due time moves to the first point of the grid after it. -/
theorem store_of_stores {recorder : Recorder F} {sample : Sample F}
    (hts : sample.tsMs.toInt < 2 ^ 63 - 1) (h : recorder.Stores sample) :
    ∃ next, recorder.store sample = some ⟨recorder.ring.push sample, some next⟩ ∧
      (recorder.nextRingDue = none → next = Saturating.add sample.tsMs 30000) ∧
      ∀ due, recorder.nextRingDue = some due → ∃ m : ℕ,
        next = Int64.ofIntClamp (due.toInt + 30000 * m) ∧
          sample.tsMs.toInt < due.toInt + 30000 * m ∧
          due.toInt + 30000 * m ≤ sample.tsMs.toInt + 30000 := by
  have hrates := not_known_iff.not_right.mp h.1
  unfold Recorder.store
  rw [if_neg hrates]
  cases hdue : recorder.nextRingDue with
  | none => exact ⟨_, rfl, fun _ => rfl, nofun⟩
  | some due =>
      have hle := h.2 due hdue
      have hrounds : (sample.tsMs.toInt - due.toInt) / 30000 + 2 ≤ roundsFor due sample.tsMs := by
        unfold roundsFor
        omega
      obtain ⟨m, hsnap, hafter, hfirst⟩ := snapForward_eq_some hts hrounds (Nat.succ_pos _)
      rw [Int64.le_iff_toInt_le] at hle
      refine ⟨Int64.ofIntClamp (due.toInt + 30000 * m), ?_, nofun, ?_⟩
      · simp only
        rw [if_pos (Int64.le_iff_toInt_le.mpr hle), hsnap, Option.map_some]
      · rintro due' hsame
        cases hsame
        exact ⟨m, rfl, hafter, hfirst (by omega)⟩

/-- A delivery of a sample before the last timestamp there is always ends. -/
theorem store_total (recorder : Recorder F) (sample : Sample F)
    (hts : sample.tsMs.toInt < 2 ^ 63 - 1) :
    ∃ recorder', recorder.store sample = some recorder' := by
  by_cases h : recorder.Stores sample
  · obtain ⟨next, hstore, -, -⟩ := store_of_stores hts h
    exact ⟨_, hstore⟩
  · exact ⟨recorder, store_of_not_stores h⟩

/-- The list is a record of the ring: what has been pushed into it. -/
theorem ring_of_run {samples : List (Sample F)} {s : Storing F}
    (h : Transition.run Storing.deliver .new samples = some s) :
    Transition.run Recorder.store .new samples = some s.recorder ∧
      s.recorder.ring = s.stored.foldl RingBuffer.push .new := by
  induction samples using List.reverseRecOn generalizing s with
  | nil =>
      cases h
      exact ⟨rfl, rfl⟩
  | append_singleton samples sample ih =>
      obtain ⟨before, hbefore, hlast⟩ := Transition.run_append.mp h
      obtain ⟨after, hdeliver, hafter⟩ := Transition.run_cons_eq_some.mp hlast
      cases hafter
      obtain ⟨recorder, hstore, rfl⟩ := Option.map_eq_some_iff.mp hdeliver
      obtain ⟨hrun, hring⟩ := ih hbefore
      refine ⟨?_, ?_⟩
      · exact Transition.run_append.mpr
          ⟨_, hrun, Transition.run_cons_eq_some.mpr ⟨_, hstore, rfl⟩⟩
      · by_cases hstores : before.recorder.Stores sample
        · have hpush : recorder.ring = before.recorder.ring.push sample := by
            rcases store_cases hstores.1 hstore with ⟨-, rfl⟩ | ⟨due, hdue, hlt, -⟩ |
              ⟨due, m, -, -, -, -, -, rfl⟩
            · rfl
            · have hle := Int64.le_iff_toInt_le.mp (hstores.2 due hdue)
              omega
            · rfl
          simp only [if_pos hstores, List.foldl_append, List.foldl_cons, List.foldl_nil]
          rw [hpush, hring]
        · rw [store_of_not_stores hstores] at hstore
          cases hstore
          simp only [if_neg hstores]
          exact hring

/-! ### The cells of the grid -/

/-- The number of the cell that a sample is in, on the grid laid at `start`. -/
def cell (start : Int64) (sample : Sample F) : ℤ := (sample.tsMs.toInt - start.toInt) / 30000

theorem cell_eq_iff {start : Int64} {sample : Sample F} {k : ℤ} : cell start sample = k ↔
    start.toInt + 30000 * k ≤ sample.tsMs.toInt ∧
      sample.tsMs.toInt < start.toInt + 30000 * (k + 1) := by
  unfold cell
  omega

/-- The known samples that no known sample of the same cell comes before. -/
def cellFirsts (start : Int64) (samples : List (Sample F)) : List (Sample F) :=
  (samples.zipIdx.filter fun entry => decide (entry.1.Known ∧
    ∀ earlier ∈ samples.take entry.2, earlier.Known → cell start earlier ≠ cell start entry.1)).map
      Prod.fst

/-- Delivering one more sample adds it or nothing. -/
theorem cellFirsts_append (start : Int64) (samples : List (Sample F)) (sample : Sample F) :
    cellFirsts start (samples ++ [sample]) = cellFirsts start samples ++
      if sample.Known ∧ ∀ earlier ∈ samples, earlier.Known → cell start earlier ≠ cell start sample
      then [sample] else [] := by
  unfold cellFirsts
  rw [List.zipIdx_append, List.filter_append, List.map_append]
  congr 1
  · refine congrArg (List.map Prod.fst) (List.filter_congr ?_)
    rintro ⟨x, i⟩ hmem
    have hi : i < samples.length := by
      have hrange := List.snd_lt_of_mem_zipIdx hmem
      omega
    simp only
    rw [List.take_append_of_le_length hi.le]
  · simp only [List.zipIdx_singleton, List.filter_cons, List.filter_nil, Nat.zero_add]
    rw [List.take_left]
    by_cases hfirst : sample.Known ∧
        ∀ earlier ∈ samples, earlier.Known → cell start earlier ≠ cell start sample
    · rw [if_pos hfirst, if_pos (decide_eq_true hfirst)]
      rfl
    · rw [if_neg hfirst, if_neg (by simpa using hfirst)]
      rfl

/-! ### The invariant -/

/-- Where the storing is after samples whose first known one was at `start`: it has stored the first
sample of each cell, the due time is the start of the cell after the last stored sample's, and no
known sample has reached that. -/
structure Sampled (start : Int64) (samples : List (Sample F)) (s : Storing F) : Prop where
  stored : s.stored = cellFirsts start samples
  known : ∀ sample ∈ s.stored, sample.Known
  ordered : s.stored.Pairwise fun older newer =>
    older.tsMs.toInt < newer.tsMs.toInt ∧ cell start older < cell start newer
  last : ∃ last due, s.stored.getLast? = some last ∧ last ∈ samples ∧
    s.recorder.nextRingDue = some due ∧ due.toInt = start.toInt + 30000 * (cell start last + 1)
  within : ∀ due ∈ s.recorder.nextRingDue, ∀ sample ∈ samples, sample.Known →
    start.toInt ≤ sample.tsMs.toInt ∧ sample.tsMs.toInt < due.toInt

/-- Stored samples are in order, so one that is later than the last is later than all. -/
theorem pairwise_append_last {α : Type} {R : α → α → Prop} (htrans : ∀ a b c, R a b → R b c → R a c)
    {list : List α} {last next : α} (h : list.Pairwise R) (hlast : list.getLast? = some last)
    (hnext : R last next) : (list ++ [next]).Pairwise R := by
  obtain ⟨front, rfl⟩ := List.getLast?_eq_some_iff.mp hlast
  refine List.pairwise_append.mpr ⟨h, List.pairwise_singleton _ _, ?_⟩
  intro a ha b hb
  rw [List.mem_singleton.mp hb]
  rcases List.mem_append.mp ha with hfront | hend
  · exact htrans a last next ((List.pairwise_append.mp h).2.2 a hfront last (by simp)) hnext
  · rw [List.mem_singleton.mp hend]
    exact hnext

/-- **One more sample keeps the sampling.** -/
theorem sampled_deliver {start : Int64} {samples : List (Sample F)} {sample : Sample F}
    {s s' : Storing F} (h : Sampled start samples s)
    (hlatest : sample.tsMs.toInt ≤ 2 ^ 63 - 1 - 30000)
    (hsorted : ∀ earlier ∈ samples, earlier.tsMs.toInt ≤ sample.tsMs.toInt)
    (hdeliver : s.deliver sample = some s') : Sampled start (samples ++ [sample]) s' := by
  obtain ⟨last, due, hlast, hmem, hdue, hpoint⟩ := h.last
  have hlastKnown : last.Known := h.known last (List.mem_of_getLast? hlast)
  have hcell := (cell_eq_iff (k := cell start last)).mp rfl
  have hnotBefore := hsorted last hmem
  have hstart := (h.within due hdue last hmem hlastKnown).1
  obtain ⟨recorder, hstore, rfl⟩ := Option.map_eq_some_iff.mp hdeliver
  by_cases hstores : s.recorder.Stores sample
  · -- the sample is in a later cell than all before it
    obtain ⟨next, hpushed, -, hnext⟩ := store_of_stores (by omega) hstores
    cases hstore.symm.trans hpushed
    obtain ⟨m, hnextDue, hafter, hfirst⟩ := hnext due hdue
    have hle := Int64.le_iff_toInt_le.mp (hstores.2 due hdue)
    have hlow := due.le_toInt
    have hclamp : next.toInt = due.toInt + 30000 * m := by
      rw [hnextDue, Saturating.toInt_ofIntClamp]
      omega
    have hlater : cell start last < cell start sample := by
      unfold cell at hpoint ⊢
      omega
    have hfresh : ∀ earlier ∈ samples, earlier.Known →
        cell start earlier ≠ cell start sample := by
      intro earlier hearlier hknown
      have hbound := (h.within due hdue earlier hearlier hknown).2
      unfold cell at hpoint ⊢
      omega
    refine ⟨?_, ?_, ?_, ?_, ?_⟩
    · rw [if_pos hstores, cellFirsts_append, if_pos ⟨hstores.1, hfresh⟩, h.stored]
    · rw [if_pos hstores]
      intro x hx
      rcases List.mem_append.mp hx with hx | hx
      · exact h.known x hx
      · rw [List.mem_singleton.mp hx]
        exact hstores.1
    · rw [if_pos hstores]
      refine pairwise_append_last ?_ h.ordered hlast ⟨by omega, hlater⟩
      rintro a b c ⟨hab, hab'⟩ ⟨hbc, hbc'⟩
      exact ⟨hab.trans hbc, hab'.trans hbc'⟩
    · rw [if_pos hstores]
      refine ⟨sample, next, List.getLast?_concat,
        List.mem_append_right _ (List.mem_singleton_self _), rfl, ?_⟩
      rw [hclamp]
      unfold cell at hpoint ⊢
      omega
    · rintro due' hdue' x hx hknown
      cases hdue'
      rcases List.mem_append.mp hx with hx | hx
      · obtain ⟨hx, hx'⟩ := h.within due hdue x hx hknown
        exact ⟨hx, by omega⟩
      · rw [List.mem_singleton.mp hx]
        exact ⟨by omega, by omega⟩
  · -- the sample is unknown, or in the cell of the last stored one
    rw [store_of_not_stores hstores] at hstore
    cases hstore
    rw [if_neg hstores]
    have hearly : sample.Known → sample.tsMs.toInt < due.toInt := by
      intro hknown
      by_contra hreached
      refine hstores ⟨hknown, fun due' hdue' => ?_⟩
      cases hdue.symm.trans hdue'
      exact Int64.le_iff_toInt_le.mpr (not_lt.mp hreached)
    have hskipped : ¬(sample.Known ∧ ∀ earlier ∈ samples, earlier.Known →
        cell start earlier ≠ cell start sample) := by
      rintro ⟨hknown, hfresh⟩
      refine hfresh last hmem hlastKnown ?_
      have hbefore := hearly hknown
      unfold cell at hpoint ⊢
      omega
    refine ⟨?_, h.known, h.ordered, ?_, ?_⟩
    · rw [cellFirsts_append, if_neg hskipped, List.append_nil]
      exact h.stored
    · exact ⟨last, due, hlast, List.mem_append_left _ hmem, hdue, hpoint⟩
    · intro due' hdue' x hx hknown
      cases hdue.symm.trans hdue'
      rcases List.mem_append.mp hx with hx | hx
      · exact h.within due hdue x hx hknown
      · rw [List.mem_singleton.mp hx] at hknown ⊢
        exact ⟨by omega, hearly hknown⟩

/-- The first known sample lays the grid. -/
theorem sampled_first {samples : List (Sample F)} {sample : Sample F} {s s' : Storing F}
    (hdue : s.recorder.nextRingDue = none) (hnothing : s.stored = [])
    (hunknown : ∀ earlier ∈ samples, ¬earlier.Known) (hknown : sample.Known)
    (hlatest : sample.tsMs.toInt ≤ 2 ^ 63 - 1 - 30000)
    (hdeliver : s.deliver sample = some s') : Sampled sample.tsMs (samples ++ [sample]) s' := by
  obtain ⟨recorder, hstore, rfl⟩ := Option.map_eq_some_iff.mp hdeliver
  have hstores : s.recorder.Stores sample := by
    refine ⟨hknown, fun due hmem => ?_⟩
    cases hdue.symm.trans hmem
  obtain ⟨next, hpushed, hfirst, -⟩ := store_of_stores (by omega) hstores
  cases hstore.symm.trans hpushed
  have hnext : next.toInt = sample.tsMs.toInt + 30000 := by
    rw [hfirst hdue, toInt_add_interval]
    omega
  have hcell : cell sample.tsMs sample = 0 := by
    unfold cell
    omega
  have hnone : cellFirsts sample.tsMs samples = [] := by
    rw [cellFirsts, List.map_eq_nil_iff, List.filter_eq_nil_iff]
    rintro ⟨x, i⟩ hmem hfirst
    exact hunknown x (List.fst_mem_of_mem_zipIdx hmem) (of_decide_eq_true hfirst).1
  refine ⟨?_, ?_, ?_, ?_, ?_⟩
  · rw [if_pos hstores, hnothing, cellFirsts_append, hnone, if_pos]
    exact ⟨hknown, fun earlier hmem hbefore => absurd hbefore (hunknown earlier hmem)⟩
  · rw [if_pos hstores, hnothing]
    intro x hx
    rw [List.mem_singleton.mp hx]
    exact hknown
  · rw [if_pos hstores, hnothing]
    exact List.pairwise_singleton _ _
  · rw [if_pos hstores, hnothing]
    refine ⟨sample, next, rfl, List.mem_append_right _ (List.mem_singleton_self _), rfl, ?_⟩
    rw [hnext, hcell]
    omega
  · rintro due' hdue' x hx hbefore
    cases hdue'
    rcases List.mem_append.mp hx with hx | hx
    · exact absurd hbefore (hunknown x hx)
    · rw [List.mem_singleton.mp hx]
      exact ⟨le_rfl, by omega⟩

/-! ### Whole sequences -/

/-- What holds after a sequence of deliveries: nothing is stored while no rates are known, and from
then on the grid laid by the first known sample is sampled. -/
def SampledFrom (samples : List (Sample F)) (s : Storing F) : Prop :=
  match samples.find? fun sample => sample.Known with
  | none => s.stored = [] ∧ s.recorder.nextRingDue = none
  | some first => Sampled first.tsMs samples s

theorem sampledFrom_run {samples : List (Sample F)}
    (hsorted : samples.IsChain fun older newer => older.tsMs.toInt ≤ newer.tsMs.toInt)
    (hlatest : ∀ sample ∈ samples, sample.tsMs.toInt ≤ 2 ^ 63 - 1 - 30000) :
    ∃ s, Transition.run Storing.deliver .new samples = some s ∧ SampledFrom samples s := by
  induction samples using List.reverseRecOn with
  | nil => exact ⟨.new, rfl, rfl, rfl⟩
  | append_singleton samples sample ih =>
      obtain ⟨s, hrun, hs⟩ := ih hsorted.left_of_append
        fun earlier hmem => hlatest earlier (List.mem_append_left _ hmem)
      have hlast := hlatest sample (List.mem_append_right _ (List.mem_singleton_self _))
      have hbefore : ∀ earlier ∈ samples, earlier.tsMs.toInt ≤ sample.tsMs.toInt := by
        intro earlier hmem
        have hpairwise : (samples ++ [sample]).Pairwise fun older newer =>
            older.tsMs.toInt ≤ newer.tsMs.toInt :=
          (List.isChain_map (f := fun x : Sample F => x.tsMs.toInt) (R := (· ≤ ·))).mpr hsorted
            |>.pairwise |> List.pairwise_map.mp
        exact (List.pairwise_append.mp hpairwise).2.2 earlier hmem sample
          (List.mem_singleton_self _)
      obtain ⟨recorder, hstore⟩ := store_total s.recorder sample (by omega)
      have hdeliver : ∃ s', s.deliver sample = some s' :=
        ⟨_, Option.map_eq_some_iff.mpr ⟨recorder, hstore, rfl⟩⟩
      obtain ⟨s', hdeliver⟩ := hdeliver
      refine ⟨s', Transition.run_append.mpr
        ⟨s, hrun, Transition.run_cons_eq_some.mpr ⟨s', hdeliver, rfl⟩⟩, ?_⟩
      unfold SampledFrom at hs ⊢
      rw [List.find?_append]
      cases hfind : samples.find? fun sample => sample.Known with
      | some first =>
          rw [hfind] at hs
          exact sampled_deliver hs hlast hbefore hdeliver
      | none =>
          rw [hfind] at hs
          have hunknown : ∀ earlier ∈ samples, ¬earlier.Known := by
            intro earlier hmem hknown
            exact List.find?_eq_none.mp hfind earlier hmem (decide_eq_true hknown)
          by_cases hknown : sample.Known
          · simp only [Option.none_or, List.find?_cons, hknown, decide_true]
            exact sampled_first hs.2 hs.1 hunknown hknown hlast hdeliver
          · simp only [Option.none_or, List.find?_cons, hknown, decide_false, List.find?_nil]
            have hskipped : ¬s.recorder.Stores sample := fun hstores => hknown hstores.1
            rw [Storing.deliver, store_of_not_stores hskipped, Option.map_some, if_neg hskipped]
              at hdeliver
            cases hdeliver
            exact hs

/-- The due time is the first point of the grid after the last stored sample. -/
theorem Sampled.isLeast {start : Int64} {samples : List (Sample F)} {s : Storing F}
    (h : Sampled start samples s) : ∃ last due, s.stored.getLast? = some last ∧
      s.recorder.nextRingDue = some due ∧
      IsLeast {point : ℤ | ∃ k : ℕ, point = start.toInt + 30000 * k ∧ last.tsMs.toInt < point}
        due.toInt := by
  obtain ⟨last, due, hlast, hmem, hdue, hpoint⟩ := h.last
  have hknown := h.known last (List.mem_of_getLast? hlast)
  have hstart := (h.within due hdue last hmem hknown).1
  have hcell := (cell_eq_iff (k := cell start last)).mp rfl
  have hnonneg : 0 ≤ cell start last := by
    unfold cell
    omega
  refine ⟨last, due, hlast, hdue, ⟨(cell start last + 1).toNat, ?_, by omega⟩, ?_⟩
  · rw [hpoint, Int.toNat_of_nonneg (by omega)]
  · rintro point ⟨k, rfl, hafter⟩
    omega

/-- **`deliver` is a grid sampler.**  Over samples whose timestamps never go back, what is pushed
into the ring is the first known sample of each cell of the grid that the first known sample lays,
in order and never two of one cell, and the due time is always the next point of that grid. -/
theorem grid_sampler {samples : List (Sample F)}
    (hsorted : samples.IsChain fun older newer => older.tsMs.toInt ≤ newer.tsMs.toInt)
    (hlatest : ∀ sample ∈ samples, sample.tsMs.toInt ≤ 2 ^ 63 - 1 - 30000) :
    ∃ s, Transition.run Storing.deliver .new samples = some s ∧
      Transition.run Recorder.store .new samples = some s.recorder ∧
      s.recorder.ring = s.stored.foldl RingBuffer.push .new ∧
      (∀ sample ∈ s.stored, sample.Known) ∧
      match samples.find? fun sample => sample.Known with
      | none => s.stored = [] ∧ s.recorder.nextRingDue = none
      | some first =>
          s.stored = cellFirsts first.tsMs samples ∧
          (s.stored.Pairwise fun older newer => older.tsMs.toInt < newer.tsMs.toInt ∧
            cell first.tsMs older < cell first.tsMs newer) ∧
          ∃ last due, s.stored.getLast? = some last ∧ s.recorder.nextRingDue = some due ∧
            IsLeast {point : ℤ | ∃ k : ℕ, point = first.tsMs.toInt + 30000 * k ∧
              last.tsMs.toInt < point} due.toInt := by
  obtain ⟨s, hrun, hs⟩ := sampledFrom_run hsorted hlatest
  obtain ⟨hstore, hring⟩ := ring_of_run hrun
  unfold SampledFrom at hs
  refine ⟨s, hrun, hstore, hring, ?_⟩
  cases hfind : samples.find? fun sample => sample.Known with
  | none =>
      rw [hfind] at hs
      refine ⟨?_, hs⟩
      rw [hs.1]
      exact fun _ hmem => absurd hmem List.not_mem_nil
  | some first =>
      rw [hfind] at hs
      exact ⟨hs.known, hs.stored, hs.ordered, hs.isLeast⟩

/-- A sample with an unknown rate. -/
def unknownAt (tsMs : Int64) : Sample ℕ := { sampleAt tsMs with netTxBytesPerSec := none }

/-- Two samples of the first cell, the second of them unknown, and then two of the fourth. -/
def unevenSamples : List (Sample ℕ) :=
  [unknownAt 500, sampleAt 1000, unknownAt 20000, sampleAt 100000, sampleAt 120999]

theorem grid_sampler_uneven : ∃ s, Transition.run Storing.deliver .new unevenSamples = some s ∧
    s.stored = cellFirsts 1000 unevenSamples ∧
    cellFirsts 1000 unevenSamples = [1000, 100000].map sampleAt := by
  obtain ⟨s, hrun, -, -, -, hsampled⟩ :=
    @grid_sampler _ unevenSamples (by decide +kernel) (by decide +kernel)
  have hfirst : (unevenSamples.find? fun sample => sample.Known) = some (sampleAt 1000) := by
    decide +kernel
  rw [hfirst] at hsampled
  exact ⟨s, hrun, hsampled.1, by decide +kernel⟩

end Osprey
