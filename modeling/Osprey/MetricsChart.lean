/-
**The series that the phone charts.**

`MetricSample.swift`, and what `DeviceModel.swift` does with a `metrics.history` and the ticks that
follow it.  A history carries no timestamps, so its points are put where its start and its interval
say; the ticks carry their own.  Both are in order by themselves.  Whether the series is, hangs on
where they meet.

Main definitions:

* `Osprey.MetricsTickBody.sample`, `Osprey.MetricsHistoryBody.samples` — points of a chart;
* `Osprey.DeviceModel` with `startMetrics` and `append` — the series of one machine;
* `Osprey.MetricsHistoryBody.declaredEnd`, `Osprey.MetricsHistoryBody.EndsBefore` — the time that a
  history gives its last point, and that it is before the first tick;
* `Osprey.Chronological` — ids that increase.

Main results:

* `Osprey.chronological_ticks` — the ticks of a session carry increasing times;
* `Osprey.chronological_iff_endsBefore` — **the series is chronological in every state exactly if
  the history ends before its first tick**.
-/

import Osprey.MetricsSchedule

set_option relaxedAutoImplicit false
set_option autoImplicit false

namespace Osprey

variable {F : Type}

/-! ### Points -/

/-- One point on the charts of a dashboard; its id is its time in milliseconds. -/
structure MetricSample (F : Type) where
  id : Int64
  cpuPercent : F
  memUsedBytes : UInt64
  netRxBytesPerSec : Option UInt64
  netTxBytesPerSec : Option UInt64
  deriving DecidableEq, Repr

structure VolumeUsage where
  label : String
  usedBytes : UInt64
  totalBytes : UInt64
  deriving DecidableEq, Repr

namespace MetricsTickBody

def sample (tick : MetricsTickBody F) : MetricSample F :=
  ⟨tick.ts, tick.cpuPercent, tick.memUsedBytes, tick.netRxBytesPerSec, tick.netTxBytesPerSec⟩

/-- Per-volume usage, truncated to the shortest array. -/
def volumes (tick : MetricsTickBody F) : List VolumeUsage :=
  List.zipWith (fun label usage => ⟨label, usage.1, usage.2⟩) tick.diskLabels
    (tick.diskUsedBytes.zip tick.diskTotalBytes)

end MetricsTickBody

/-- Arithmetic on `Int64`; `none` where it traps. -/
def checked (i : ℤ) : Option Int64 :=
  if Int64.minValue.toInt ≤ i ∧ i ≤ Int64.maxValue.toInt then some (Int64.ofInt i) else none

namespace MetricsHistoryBody

/-- How many points the arrays hold. -/
def count (body : MetricsHistoryBody F) : ℕ := min body.cpuPercent.length body.memUsedBytes.length

/-- `startTs + Int64(index) * Int64(intervalMs)`. -/
def pointTime (body : MetricsHistoryBody F) (index : ℕ) : Option Int64 :=
  match checked (index * body.intervalMs.toNat) with
  | none => none
  | some offset => checked (body.startTs.toInt + offset.toInt)

/-- The point at an index; an array without an entry there has no rate to give. -/
def point (body : MetricsHistoryBody F) (index : ℕ) : Option (MetricSample F) :=
  match body.pointTime index, body.cpuPercent[index]?, body.memUsedBytes[index]? with
  | some id, some cpuPercent, some memUsedBytes =>
      some ⟨id, cpuPercent, memUsedBytes, body.netRxBytesPerSec[index]?,
        body.netTxBytesPerSec[index]?⟩
  | _, _, _ => none

/-- So many points, from an index on. -/
def pointsFrom (body : MetricsHistoryBody F) : ℕ → ℕ → Option (List (MetricSample F))
  | 0, _ => some []
  | n + 1, index =>
      match body.point index, body.pointsFrom n (index + 1) with
      | some point, some points => some (point :: points)
      | _, _ => none

/-- Expand the fixed-cadence arrays into timestamped samples; `none` where that traps. -/
def samples (body : MetricsHistoryBody F) : Option (List (MetricSample F)) :=
  if body.intervalMs = 0 then some [] else body.pointsFrom body.count 0

/-- The time that a history gives its last point. -/
def declaredEnd (body : MetricsHistoryBody F) : Option ℤ :=
  if body.intervalMs = 0 ∨ body.count = 0 then none
  else some (body.startTs.toInt + (body.count - 1 : ℕ) * body.intervalMs.toNat)

end MetricsHistoryBody

/-! ### The series of one machine -/

/-- What a dashboard holds of the metrics of its machine. -/
structure DeviceModel (F : Type) where
  subscriptionId : Option Uuid
  samples : List (MetricSample F)
  volumes : List VolumeUsage
  installedMemoryBytes : Option UInt64
  deriving DecidableEq, Repr

namespace DeviceModel

/-- A dashboard before its first connection. -/
def new : DeviceModel F := ⟨none, [], [], none⟩

/-- Cap on charted points. -/
def maxSamples : ℕ := 2000

/-- The answer to the subscribe `id` makes the series. -/
def startMetrics (model : DeviceModel F) (id : Uuid) (history : MetricsHistoryBody F) :
    Option (DeviceModel F) :=
  match history.samples with
  | none => none
  | some samples =>
      some { model with
        subscriptionId := some id
        samples
        installedMemoryBytes := history.memTotalBytes }

/-- A tick of the current subscription is charted, and any other is not. -/
def append (model : DeviceModel F) (tick : MetricsTickBody F) : DeviceModel F :=
  if model.subscriptionId = some tick.sub then
    let samples := model.samples ++ [tick.sample]
    { model with
      samples :=
        if maxSamples < samples.length then samples.drop (samples.length - maxSamples) else samples
      volumes := tick.volumes
      installedMemoryBytes := some tick.memTotalBytes }
  else model

end DeviceModel

/-- The time that a history gives its last point is before the first of the ticks of its
subscription. -/
def MetricsHistoryBody.EndsBefore (body : MetricsHistoryBody F) (id : Uuid)
    (arrived : List (MetricsTickBody F)) : Prop :=
  match body.declaredEnd, arrived.find? fun tick => tick.sub = id with
  | some ends, some first => ends < first.ts.toInt
  | _, _ => True

instance (body : MetricsHistoryBody F) (id : Uuid) (arrived : List (MetricsTickBody F)) :
    Decidable (body.EndsBefore id arrived) := by
  unfold MetricsHistoryBody.EndsBefore
  split <;> infer_instance

/-- Ids that increase, so that each is the id of one point. -/
def Chronological (samples : List (MetricSample F)) : Prop :=
  samples.IsChain fun earlier later => earlier.id.toInt < later.id.toInt

/-! ### The points of a history -/

theorem toInt_checked {i : ℤ} {value : Int64} (h : checked i = some value) : value.toInt = i := by
  simp only [checked, Option.ite_none_right_eq_some, Option.some.injEq] at h
  obtain ⟨⟨hlow, hhigh⟩, rfl⟩ := h
  have hmin : Int64.minValue.toInt = -2 ^ 63 := by decide
  have hmax : Int64.maxValue.toInt = 2 ^ 63 - 1 := by decide
  exact Int64.toInt_ofInt_of_le (by omega) (by omega)

/-- Where a point of a history is put. -/
theorem MetricsHistoryBody.point_id {body : MetricsHistoryBody F} {index : ℕ}
    {point : MetricSample F} (h : body.point index = some point) :
    point.id.toInt = body.startTs.toInt + index * body.intervalMs.toNat := by
  unfold MetricsHistoryBody.point at h
  split at h
  · rename_i id _ _ htime _ _
    rw [← Option.some.inj h]
    unfold pointTime at htime
    split at htime
    · cases htime
    · rename_i offset hoffset
      rw [toInt_checked htime, toInt_checked hoffset]
  · cases h

/-- The points of a history, from an index on, are an interval apart. -/
theorem MetricsHistoryBody.pointsFrom_ids {body : MetricsHistoryBody F} {n index : ℕ}
    {points : List (MetricSample F)} (h : body.pointsFrom n index = some points) :
    points.length = n ∧ ∀ i point, points[i]? = some point →
      point.id.toInt = body.startTs.toInt + (index + i : ℕ) * body.intervalMs.toNat := by
  induction n generalizing index points with
  | zero =>
      obtain rfl := Option.some.inj h
      refine ⟨rfl, ?_⟩
      intro i point hpoint
      simp at hpoint
  | succ n ih =>
      rw [pointsFrom] at h
      split at h
      · rename_i first rest hfirst hrest
        cases h
        obtain ⟨hlength, hids⟩ := ih hrest
        refine ⟨by rw [List.length_cons, hlength], ?_⟩
        intro i point hpoint
        cases i with
        | zero =>
            cases hpoint
            exact point_id hfirst
        | succ i =>
            have hid := hids i point hpoint
            rwa [Nat.add_assoc, Nat.add_comm 1 i] at hid
      · cases h

/-- The points of a history are in order, and the last is where the history says it ends. -/
theorem MetricsHistoryBody.chronological_samples {body : MetricsHistoryBody F}
    {points : List (MetricSample F)} (h : body.samples = some points) :
    Chronological points ∧
      points.getLast?.map (fun point => point.id.toInt) = body.declaredEnd := by
  unfold MetricsHistoryBody.samples at h
  unfold declaredEnd
  split at h
  · rename_i hzero
    cases h
    exact ⟨List.isChain_nil, by simp [hzero]⟩
  · rename_i hinterval
    obtain ⟨hlength, hids⟩ := pointsFrom_ids h
    have hpositive : 0 < body.intervalMs.toNat := by
      rw [Nat.pos_iff_ne_zero]
      exact fun hzero => hinterval (UInt32.toNat_inj.mp hzero)
    constructor
    · rw [Chronological, List.isChain_iff_getElem]
      intro i hi
      rw [hids i _ (List.getElem?_eq_getElem (by omega)),
        hids (i + 1) _ (List.getElem?_eq_getElem hi)]
      push_cast
      linarith
    · rcases List.eq_nil_or_concat points with rfl | ⟨init, last, rfl⟩
      · simp [← hlength]
      · have hlast := hids init.length last (by simp)
        rw [List.concat_eq_append, List.length_append, List.length_singleton] at hlength
        rw [List.concat_eq_append, List.getLast?_concat, Option.map_some, hlast,
          if_neg (not_or.mpr ⟨hinterval, by omega⟩), ← hlength, Nat.zero_add, Nat.add_sub_cancel]

/-! ### The ticks of a session -/

def StreamEvent.tick? : StreamEvent F → Option (MetricsTickBody F)
  | .tick _ body => some body
  | _ => none

/-- The ticks of a trace. -/
def tickBodies (trace : List (StreamEvent F)) : List (MetricsTickBody F) :=
  trace.filterMap StreamEvent.tick?

/-- Where the timestamps of the deliveries increase, so do those of the ticks of a session. -/
theorem chronological_ticks {delivered : List (Sample F)} {trace : List (StreamEvent F)}
    (hidentified : Identified delivered trace) (hsorted : (ticks trace).Pairwise (· < ·))
    (hincreasing : delivered.Pairwise fun earlier later => earlier.tsMs.toInt < later.tsMs.toInt) :
    (tickBodies trace).Pairwise fun earlier later => earlier.ts.toInt < later.ts.toInt := by
  rw [ticks, List.pairwise_filterMap] at hsorted
  rw [tickBodies, List.pairwise_filterMap]
  have hdelivered {n : ℕ} {body : MetricsTickBody F} (hevent : .tick n body ∈ trace) :
      ∃ sample, delivered[n]? = some sample ∧ body.ts = sample.tsMs := by
    obtain ⟨before, after, hsplit⟩ := List.append_of_mem hevent
    obtain ⟨since, sample, -, -, hget, hbody⟩ := hidentified before n body after hsplit
    exact ⟨sample, hget, congrArg MetricsTickBody.ts hbody⟩
  refine hsorted.imp_of_mem ?_
  intro earlier later hearlier hlater hnumbers first hfirst second hsecond
  cases earlier with
  | tick m body =>
      cases later with
      | tick n body' =>
          cases hfirst
          cases hsecond
          obtain ⟨sample, hget, hts⟩ := hdelivered hearlier
          obtain ⟨sample', hget', hts'⟩ := hdelivered hlater
          obtain ⟨hm, rfl⟩ := List.getElem?_eq_some_iff.mp hget
          obtain ⟨hn, rfl⟩ := List.getElem?_eq_some_iff.mp hget'
          rw [hts, hts']
          exact List.pairwise_iff_getElem.mp hincreasing m n hm hn (hnumbers m rfl n rfl)
      | _ => cases hsecond
  | _ => cases hfirst

/-! ### The series -/

namespace DeviceModel

/-- What is charted of some ticks that arrive. -/
def charted (id : Uuid) (arrived : List (MetricsTickBody F)) : List (MetricSample F) :=
  (arrived.filter fun tick => tick.sub = id).map MetricsTickBody.sample

/-- A tick of another subscription is not charted. -/
theorem append_of_ne {model : DeviceModel F} {id : Uuid} (hid : model.subscriptionId = some id)
    {tick : MetricsTickBody F} (hsub : tick.sub ≠ id) : model.append tick = model := by
  unfold append
  rw [if_neg]
  rw [hid, Option.some.injEq]
  exact hsub.symm

theorem foldl_append_of_ne {model : DeviceModel F} {id : Uuid}
    (hid : model.subscriptionId = some id) {arrived : List (MetricsTickBody F)}
    (hsub : ∀ tick ∈ arrived, tick.sub ≠ id) : arrived.foldl append model = model := by
  induction arrived with
  | nil => rfl
  | cons tick arrived ih =>
      rw [List.foldl_cons, append_of_ne hid (hsub tick List.mem_cons_self)]
      exact ih fun other hother => hsub other (List.mem_cons_of_mem _ hother)

/-- The series is made of the history and the ticks of its subscription, but for the oldest points
that are over the cap. -/
theorem foldl_append (model : DeviceModel F) {id : Uuid} (hid : model.subscriptionId = some id)
    (arrived : List (MetricsTickBody F)) :
    (arrived.foldl append model).subscriptionId = some id ∧
      (arrived.foldl append model).samples <:+ model.samples ++ charted id arrived := by
  induction arrived generalizing model with
  | nil =>
      refine ⟨hid, ?_⟩
      rw [charted, List.filter_nil, List.map_nil, List.append_nil]
      exact List.suffix_refl _
  | cons tick arrived ih =>
      rw [List.foldl_cons]
      by_cases hsub : tick.sub = id
      · have hcharted : charted id (tick :: arrived) = [tick.sample] ++ charted id arrived := by
          simp [charted, hsub]
        have hstep : (model.append tick).subscriptionId = some id ∧
            (model.append tick).samples <:+ model.samples ++ [tick.sample] := by
          unfold append
          rw [if_pos (by rw [hid, hsub])]
          refine ⟨hid, ?_⟩
          dsimp only
          split
          · exact List.drop_suffix _ _
          · exact List.suffix_refl _
        obtain ⟨hid', hsuffix⟩ := ih _ hstep.1
        refine ⟨hid', hsuffix.trans ?_⟩
        rw [hcharted, ← List.append_assoc]
        obtain ⟨older, holder⟩ := hstep.2
        exact ⟨older, by rw [← holder, List.append_assoc]⟩
      · have hcharted : charted id (tick :: arrived) = charted id arrived := by
          simp [charted, hsub]
        rw [append_of_ne hid hsub, hcharted]
        exact ih model hid

/-- The last point before a tick is charted stays. -/
theorem append_samples (model : DeviceModel F) (tick : MetricsTickBody F)
    (hid : model.subscriptionId = some tick.sub) {init : List (MetricSample F)}
    {last : MetricSample F} (hsamples : model.samples = init ++ [last]) :
    ∃ older, (model.append tick).samples = older ++ [last, tick.sample] := by
  unfold append
  rw [if_pos hid]
  have hall : model.samples ++ [tick.sample] = init ++ [last, tick.sample] := by
    rw [hsamples, List.append_assoc]
    rfl
  dsimp only
  rw [hall]
  split
  · refine ⟨init.drop ((init ++ [last, tick.sample]).length - maxSamples), ?_⟩
    rw [List.drop_append_of_le_length]
    rw [List.length_append, maxSamples]
    simp
  · exact ⟨init, rfl⟩

end DeviceModel

/-- A session answers the subscribe `id` with a history, and the phone makes a series of it and of
the ticks that arrive then.  Where the timestamps of the deliveries increase, the ids of the series
increase in every state exactly if the time that the history gives its last point is before the
first tick that is charted. -/
theorem chronological_iff_endsBefore {moves : List (SystemMove F)} {s : MetricsSystem F}
    (hrun : Transition.run MetricsSystem.step .start moves = some s)
    (hincreasing : s.engine.delivered.Pairwise fun earlier later =>
      earlier.tsMs.toInt < later.tsMs.toInt)
    {session : StreamSession F} (hsession : session ∈ s.sessions)
    {before after : List (StreamEvent F)} {id : Uuid} {stream : Bool} {body : MetricsHistoryBody F}
    (htrace : session.trace = before ++ .answered id stream body :: after)
    {model started : DeviceModel F} (hstart : model.startMetrics id body = some started)
    {arrived : List (MetricsTickBody F)} (harrived : arrived.Sublist (tickBodies after)) :
    (∀ done, done <+: arrived → Chronological (done.foldl DeviceModel.append started).samples) ↔
      body.EndsBefore id arrived := by
  obtain ⟨hidentified, hsorted, -, -, -⟩ :=
    (MetricsSystem.sound_of_run hrun).sessions session hsession
  -- the ticks that arrive are in order
  have hticks : arrived.Pairwise fun earlier later => earlier.ts.toInt < later.ts.toInt := by
    have hall := chronological_ticks hidentified (List.pairwise_append.mp hsorted).1 hincreasing
    refine hall.sublist (harrived.trans ?_)
    rw [htrace, tickBodies, tickBodies, List.filterMap_append]
    exact ((List.sublist_cons_self _ _).filterMap _).trans (List.sublist_append_right _ _)
  -- and so are the points of the history
  unfold DeviceModel.startMetrics at hstart
  split at hstart
  · cases hstart
  rename_i points hpoints
  obtain rfl := Option.some.inj hstart
  obtain ⟨hhistory, hends⟩ := MetricsHistoryBody.chronological_samples hpoints
  constructor
  · intro hall
    unfold MetricsHistoryBody.EndsBefore
    split
    case h_2 => trivial
    rename_i ends first hdeclared hfirst
    rw [hdeclared] at hends
    obtain ⟨last, hlast, hlastEnds⟩ := Option.map_eq_some_iff.mp hends
    obtain ⟨init, rfl⟩ := List.getLast?_eq_some_iff.mp hlast
    obtain ⟨hsub, others, later, rfl, hothers⟩ := List.find?_eq_some_iff_append.mp hfirst
    have hsub : first.sub = id := by simpa using hsub
    -- right after the first tick, it comes after the last point of the history
    have hstate := hall (others ++ [first]) ⟨later, by simp⟩
    rw [List.foldl_append, List.foldl_cons, List.foldl_nil,
      DeviceModel.foldl_append_of_ne rfl (fun tick htick => by simpa using hothers tick htick)]
      at hstate
    obtain ⟨older, hsamples⟩ := DeviceModel.append_samples
      { model with
        subscriptionId := some id
        samples := init ++ [last]
        installedMemoryBytes := body.memTotalBytes } first (by rw [hsub]) rfl
    rw [Chronological, hsamples] at hstate
    have hpair := hstate.right_of_append
    rw [List.isChain_pair] at hpair
    rw [← hlastEnds]
    exact hpair
  · intro hbefore done hdone
    obtain ⟨-, hsuffix⟩ := DeviceModel.foldl_append
      { model with
        subscriptionId := some id, samples := points, installedMemoryBytes := body.memTotalBytes }
      rfl done
    refine List.IsChain.suffix ?_ hsuffix
    rw [List.isChain_append]
    refine ⟨hhistory, ?_, ?_⟩
    · refine List.Pairwise.isChain ?_
      rw [DeviceModel.charted, List.pairwise_map]
      exact hticks.sublist (List.filter_sublist.trans hdone.sublist)
    · intro last hlast point hpoint
      rw [Option.mem_def] at hlast hpoint
      rw [DeviceModel.charted, List.head?_map, List.head?_filter] at hpoint
      obtain ⟨first, hfirst, rfl⟩ := Option.map_eq_some_iff.mp hpoint
      rw [hlast, Option.map_some] at hends
      obtain ⟨later, rfl⟩ := hdone
      have hfind : (done ++ later).find? (fun tick => tick.sub = id) = some first := by
        rw [List.find?_append, hfirst]
        rfl
      have hafter : last.id.toInt < first.ts.toInt := by
        simpa only [MetricsHistoryBody.EndsBefore, ← hends, hfind] using hbefore
      exact hafter

end Osprey
