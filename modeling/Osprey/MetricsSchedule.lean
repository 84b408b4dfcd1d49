/-
**What the schedule of the sampler does to the history.**

The ring is filled from a grid of 30 s, by whichever sample comes first after a point of it, and a
history ends where two stored samples are less than 15 s or more than 45 s apart.  As long as the
sampler wakes at the pace of the grid, a sample is stored at about the same place in every cell.  A
subscribe wakes the sampler at any time, and when the subscription is gone it goes on from there:
the place at which it meets the cells has moved, by as much as a whole cell.

Main definitions:

* `Osprey.WallClock`, `Osprey.Timely` — a clock that is never set, and a sampler that is never late;
* `Osprey.Unbroken` — the ring is one run;
* `Osprey.InPhase` — a sample is stored at the place in its cell where the last one was, but
  for 15 s;
* `Osprey.OnSchedule` — the invariant of timely runs.

Main results:

* `Osprey.onSchedule_step` — in a timely run no cell of the grid is passed over;
* `Osprey.unbroken_iff` — **the ring stays one run exactly if the samples are stored in phase**.
-/

import Osprey.MetricsStream

set_option relaxedAutoImplicit false
set_option autoImplicit false

namespace Osprey

variable {F : Type}

/-! ### A timely run -/

/-- A wall clock, read at an instant of the sampler's clock: it is never set back, and never runs
faster. -/
structure WallClock where
  nowMs : ℕ → Int64
  monotone : ∀ t d, (nowMs t).toInt ≤ (nowMs (t + d)).toInt
  steady : ∀ t ms : ℕ, (nowMs (t + ms * 1000000)).toInt ≤ (nowMs t).toInt + ms

/-- No time passes but in the waits of the sampler, which end in time, and in the sleep that spaces
its reads; every read succeeds, with both rates, and is stamped with the wall clock. -/
def Timely (clock : WallClock) (s : MetricsSystem F) : SystemMove F → Prop
  | .elapse d =>
      match s.engine.sampler with
      | .waiting interval since => s.engine.now + d ≤ since + interval
      | .spacing =>
          s.engine.lastSampledAt.any fun previous =>
            s.engine.now + d ≤ previous + MIN_SAMPLE_SPACING
      | _ => d = 0
  | .sampler (.sample result) =>
      match result with
      | none => False
      | some sample => sample.Known ∧ sample.tsMs = clock.nowMs s.engine.now
  | _ => True

/-- The ring is one run: all its samples are on cadence. -/
def Unbroken (ring : RingBuffer F) : Prop :=
  ring.samples.IsChain fun older newer => onCadence newer older

/-- The place of a sample in its cell of the grid that `due` is a point of. -/
def phase (due : Int64) (sample : Sample F) : ℤ := (sample.tsMs.toInt - due.toInt) % 30000

/-- If the sample is stored, then at the place in its cell where the newest in the ring was, but for
15 s. -/
def Recorder.InPhase (recorder : Recorder F) (sample : Sample F) : Prop :=
  match recorder.nextRingDue, recorder.ring.latest with
  | some due, some newest =>
      due ≤ sample.tsMs → |phase due sample - phase due newest| ≤ 15000
  | _, _ => True

/-- A step that stores a sample stores it in phase. -/
def InPhase (s : MetricsSystem F) : SystemMove F → Prop
  | .sampler .store =>
      match s.engine.sampler with
      | .storing sample => s.engine.recorder.InPhase sample
      | _ => True
  | _ => True

instance (clock : WallClock) (s : MetricsSystem F) (move : SystemMove F) :
    Decidable (Timely clock s move) := by
  unfold Timely
  split
  · split <;> infer_instance
  · split <;> infer_instance
  · infer_instance

instance (recorder : Recorder F) (sample : Sample F) : Decidable (recorder.InPhase sample) := by
  unfold Recorder.InPhase
  split <;> infer_instance

instance (s : MetricsSystem F) (move : SystemMove F) : Decidable (InPhase s move) := by
  unfold InPhase
  split
  · split <;> infer_instance
  · infer_instance

/-! ### No cell is passed over -/

/-- The sample that was read and is not yet stored. -/
def Engine.inHand (engine : Engine F) : Option (Sample F) :=
  match engine.sampler with
  | .sampled sample | .sending _ sample _ _ | .storing sample => some sample
  | _ => none

/-- The next point of the grid is `point`, unless that has saturated, and the newest stored sample
is in the cell before it.  A sample in hand is not after the cell of the point, and when none is,
the last was read before the point. -/
structure InCell (clock : WallClock) (engine : Engine F) (point : ℤ) : Prop where
  low : -2 ^ 63 ≤ point
  newest : ∃ newest, engine.recorder.ring.latest = some newest ∧
    point - 30000 ≤ newest.tsMs.toInt ∧ newest.tsMs.toInt < point
  inHand : ∀ sample, engine.inHand = some sample → sample.tsMs.toInt < point + 30000
  read : engine.inHand = none →
    ∃ t, engine.lastSampledAt = some t ∧ (clock.nowMs t).toInt < point

/-- The invariant of timely runs: never more than `IDLE_INTERVAL` passes from one read to the
next, and no cell of the grid is passed over. -/
structure OnSchedule (clock : WallClock) (engine : Engine F) : Prop where
  capacity : engine.recorder.ring.capacity = RING_CAPACITY
  elapsed : ∀ t, engine.lastSampledAt = some t → engine.now ≤ t + IDLE_INTERVAL
  top : engine.sampler = .top → ∀ t, engine.lastSampledAt = some t → engine.now = t
  waiting : ∀ interval since, engine.sampler = .waiting interval since →
    interval ≤ IDLE_INTERVAL ∧ ∀ t, engine.lastSampledAt = some t → since = t
  fresh : ∀ sample, engine.inHand = some sample → engine.lastSampledAt = some engine.now ∧
    sample.tsMs = clock.nowMs engine.now ∧ sample.Known
  grid : match engine.recorder.nextRingDue with
    | none => engine.recorder.ring.samples = []
    | some due => ∃ point, due = Int64.ofIntClamp point ∧ InCell clock engine point

section Steps

variable {clock : WallClock} {engine engine' : Engine F}

theorem WallClock.le_of_le (clock : WallClock) {t now : ℕ} (hlate : now ≤ t + IDLE_INTERVAL) :
    (clock.nowMs now).toInt ≤ (clock.nowMs t).toInt + 30000 := by
  obtain ⟨d, hd⟩ := Nat.exists_eq_add_of_le hlate
  have hmonotone := clock.monotone now d
  have hsteady := clock.steady t 30000
  have hidle : 30000 * 1000000 = IDLE_INTERVAL := rfl
  rw [← hd] at hmonotone
  rw [hidle] at hsteady
  exact hmonotone.trans (by exact_mod_cast hsteady)

/-- A step that neither reads nor stores, and takes no time. -/
theorem OnSchedule.keep (h : OnSchedule clock engine)
    (hrecorder : engine'.recorder = engine.recorder)
    (hlast : engine'.lastSampledAt = engine.lastSampledAt) (hnow : engine'.now = engine.now)
    (hinHand : engine'.inHand = engine.inHand)
    (htop : engine'.sampler = .top → ∀ t, engine.lastSampledAt = some t → engine.now = t)
    (hwaiting : ∀ interval since, engine'.sampler = .waiting interval since →
      interval ≤ IDLE_INTERVAL ∧ ∀ t, engine.lastSampledAt = some t → since = t) :
    OnSchedule clock engine' := by
  obtain ⟨hcapacity, helapsed, -, -, hfresh, hgrid⟩ := h
  refine ⟨?_, ?_, ?_, ?_, ?_, ?_⟩
  · rw [hrecorder]
    exact hcapacity
  · rw [hlast, hnow]
    exact helapsed
  · rw [hlast, hnow]
    exact htop
  · rw [hlast]
    exact hwaiting
  · rw [hinHand, hlast, hnow]
    exact hfresh
  · rw [hrecorder]
    split at hgrid
    · exact hgrid
    · obtain ⟨point, hdue, hlow, hnewest, hhand, hread⟩ := hgrid
      refine ⟨point, hdue, hlow, ?_, ?_, ?_⟩
      · rw [hrecorder]
        exact hnewest
      · rw [hinHand]
        exact hhand
      · rw [hinHand, hlast]
        exact hread

/-- A sample is read: no later than 30 s after the last one. -/
theorem OnSchedule.sample (h : OnSchedule clock engine) (hsampler : engine.sampler = .spacing)
    {sample : Sample F} (hknown : sample.Known) (hts : sample.tsMs = clock.nowMs engine.now) :
    OnSchedule clock { engine with
      sampler := .sampled sample, lastSampledAt := some engine.now } := by
  obtain ⟨hcapacity, helapsed, -, -, -, hgrid⟩ := h
  refine ⟨hcapacity, ?_, ?_, ?_, ?_, ?_⟩
  · intro t ht
    cases ht
    exact Nat.le_add_right _ _
  · intro htop
    cases htop
  · intro interval since hwaiting
    cases hwaiting
  · intro other hother
    cases hother
    exact ⟨rfl, hts, hknown⟩
  · dsimp only
    split at hgrid
    · exact hgrid
    · obtain ⟨point, hdue, hlow, hnewest, -, hread⟩ := hgrid
      refine ⟨point, hdue, hlow, hnewest, ?_, ?_⟩
      · intro other hother
        cases hother
        obtain ⟨t, ht, hbefore⟩ := hread (by simp [Engine.inHand, hsampler])
        have hclock := clock.le_of_le (helapsed t ht)
        rw [hts]
        omega
      · intro hnone
        cases hnone

/-- Where a stored sample lies: in the cell of the point it was due at. -/
theorem InCell.due_eq {point : ℤ} (h : InCell clock engine point) {sample : Sample F}
    (hdue : (Int64.ofIntClamp point).toInt ≤ sample.tsMs.toInt)
    (hts : sample.tsMs.toInt < 2 ^ 63 - 1) : (Int64.ofIntClamp point).toInt = point := by
  have hlow := h.low
  rw [Saturating.toInt_ofIntClamp] at hdue ⊢
  omega

/-- The sample in hand is stored, if it is due: then it is the newest, and the next point of the
grid is the first after it. -/
theorem OnSchedule.store (h : OnSchedule clock engine) {sample : Sample F}
    (hsampler : engine.sampler = .storing sample) {recorder : Recorder F}
    (hstore : engine.recorder.store sample = some recorder) :
    OnSchedule clock { engine with recorder, sampler := .top } := by
  obtain ⟨hcapacity, helapsed, -, -, hfresh, hgrid⟩ := h
  have hinHand : engine.inHand = some sample := by simp [Engine.inHand, hsampler]
  obtain ⟨hlast, hts, hknown⟩ := hfresh sample hinHand
  have hpush : (engine.recorder.ring.push sample).latest = some sample :=
    RingBuffer.getLast?_push _ _
  have hlow := sample.tsMs.le_toInt
  refine ⟨(store_capacity hstore).trans hcapacity, helapsed, ?_, ?_, ?_, ?_⟩
  · intro _ t ht
    exact Option.some.inj (hlast.symm.trans ht)
  · intro interval since hwaiting
    cases hwaiting
  · intro other hother
    cases hother
  · rcases store_cases hknown hstore with ⟨hdue, rfl⟩ | ⟨due, hdue, hlt, rfl⟩ |
      ⟨due, m, hdue, hle, hmax, hafter, hfirst, rfl⟩
    · -- the first sample makes the grid
      refine ⟨sample.tsMs.toInt + 30000, rfl, by omega, ⟨sample, hpush, by omega, by omega⟩, ?_, ?_⟩
      · intro other hother
        cases hother
      · rw [hts]
        exact fun _ => ⟨engine.now, hlast, by omega⟩
    · -- it comes too early
      simp only [hdue] at hgrid ⊢
      obtain ⟨point, hpoint, hcell⟩ := hgrid
      refine ⟨point, hpoint, hcell.low, hcell.newest, ?_, ?_⟩
      · intro other hother
        cases hother
      · rw [hpoint, Saturating.toInt_ofIntClamp, hts] at hlt
        have hlow := hcell.low
        exact fun _ => ⟨engine.now, hlast, by omega⟩
    · -- it is in the cell of its point, and the next point is the next of the grid
      simp only [hdue] at hgrid
      obtain ⟨point, rfl, hcell⟩ := hgrid
      have hpoint := hcell.due_eq hle hmax
      have hhand := hcell.inHand sample hinHand
      have hlowPoint := hcell.low
      rw [hpoint] at hle hafter hfirst ⊢
      have hm : m = 1 := by omega
      subst hm
      refine ⟨point + 30000, by simp, by omega, ⟨sample, hpush, by omega, by omega⟩, ?_, ?_⟩
      · intro other hother
        cases hother
      · rw [hts] at hhand
        exact fun _ => ⟨engine.now, hlast, hhand⟩

/-- What a session, or the end of the engine, does to the sampler: it may wake it. -/
structure Wakes (engine engine' : Engine F) : Prop where
  recorder : engine'.recorder = engine.recorder
  lastSampledAt : engine'.lastSampledAt = engine.lastSampledAt
  now : engine'.now = engine.now
  sampler : engine'.sampler = engine.sampler ∨
    (∃ interval since, engine.sampler = .waiting interval since) ∧ engine'.sampler = .woken

theorem wakes_notifyAll (engine : Engine F) : Wakes engine engine.notifyAll := by
  unfold Engine.notifyAll
  split
  · rename_i interval since hsampler
    exact ⟨rfl, rfl, rfl, .inr ⟨⟨interval, since, hsampler⟩, rfl⟩⟩
  · exact ⟨rfl, rfl, rfl, .inl rfl⟩

theorem wakes_stop (h : engine.stop = some engine') : Wakes engine engine' := by
  unfold Engine.stop at h
  split at h
  · cases h
  · cases h
    obtain ⟨hrecorder, hlast, hnow, hsampler⟩ := wakes_notifyAll { engine with running := false }
    exact ⟨hrecorder, hlast, hnow, hsampler⟩

theorem wakes_moves {session session' : StreamSession F} {move : StreamMove}
    (h : session.Moves engine move engine' session') : Wakes engine engine' := by
  have hsame : Wakes engine engine := ⟨rfl, rfl, rfl, .inl rfl⟩
  have hunsubscribe : Wakes engine (engine.unsubscribe session.stream) := by
    cases session.stream with
    | none => exact hsame
    | some active =>
        cases hfeed : engine.feeds[active.subscription]? with
        | none =>
            simp only [Engine.unsubscribe, Engine.hangUp, hfeed]
            exact hsame
        | some feed =>
            simp only [Engine.unsubscribe, Engine.hangUp, hfeed]
            exact ⟨rfl, rfl, rfl, .inl rfl⟩
  cases h with
  | recv hcontrol hrecv =>
      obtain ⟨feed, channel, -, -, rfl⟩ := Engine.tryRecv_eq_some hrecv
      exact ⟨rfl, rfl, rfl, .inl rfl⟩
  | subscribe hcontrol hsubscribe =>
      obtain ⟨-, -, rfl⟩ := Engine.subscribe_eq_some hsubscribe
      exact ⟨rfl, rfl, rfl, .inl rfl⟩
  | notify => exact wakes_notifyAll engine
  | leave | replace | close => exact hunsubscribe
  | _ => exact hsame

/-- Waking the sampler early is no delay. -/
theorem OnSchedule.wakes (h : OnSchedule clock engine) (hwakes : Wakes engine engine') :
    OnSchedule clock engine' := by
  obtain ⟨hrecorder, hlast, hnow, hsampler⟩ := hwakes
  rcases hsampler with hsame | ⟨⟨interval, since, hwaiting⟩, hwoken⟩
  · refine h.keep hrecorder hlast hnow ?_ ?_ ?_
    · rw [Engine.inHand, Engine.inHand, hsame]
    · rw [hsame]
      exact h.top
    · rw [hsame]
      exact h.waiting
  · refine h.keep hrecorder hlast hnow ?_ ?_ ?_
    · simp [Engine.inHand, hwaiting, hwoken]
    · intro htop
      cases hwoken.symm.trans htop
    · intro interval since hwaiting
      cases hwoken.symm.trans hwaiting

/-- Time passes as it may. -/
theorem OnSchedule.elapse (h : OnSchedule clock engine) {d : ℕ}
    (hlate : ∀ t, engine.lastSampledAt = some t → engine.now + d ≤ t + IDLE_INTERVAL)
    (hstill : engine.sampler = .top ∨ engine.inHand ≠ none → d = 0) :
    OnSchedule clock (engine.elapse d) := by
  obtain ⟨hcapacity, helapsed, htop, hwaiting, hfresh, hgrid⟩ := h
  refine ⟨hcapacity, hlate, ?_, hwaiting, ?_, ?_⟩
  · intro hsampler t ht
    rw [hstill (.inl hsampler)]
    exact htop hsampler t ht
  · intro sample hsample
    rw [hstill (.inr fun hnone => by cases hnone.symm.trans hsample)]
    exact hfresh sample hsample
  · dsimp only [Engine.elapse]
    split at hgrid
    · exact hgrid
    · obtain ⟨point, hdue, hlow, hnewest, hhand, hread⟩ := hgrid
      exact ⟨point, hdue, hlow, hnewest, hhand, hread⟩

/-- **In a timely run no cell of the grid is passed over.** -/
theorem OnSchedule.move (h : OnSchedule clock engine) {move : SamplerMove F}
    (htimely : ∀ result, move = .sample result →
      ∃ sample, result = some sample ∧ sample.Known ∧ sample.tsMs = clock.nowMs engine.now)
    (hmove : engine.move move = some engine') : OnSchedule clock engine' := by
  cases Engine.moves_of_move hmove with
  | wait hsampler =>
      refine h.keep rfl rfl rfl (by simp [Engine.inHand, hsampler]) ?_ ?_
      · intro htop
        cases htop
      · intro interval since hwaiting
        cases hwaiting
        refine ⟨?_, h.top hsampler⟩
        split
        · exact le_refl _
        · decide
  | quit hsampler | timeout hsampler | spurious hsampler | resume hsampler | leave hsampler =>
      refine h.keep rfl rfl rfl (by simp [Engine.inHand, hsampler]) ?_ ?_
      · intro htop
        cases htop
      · intro interval since hwaiting
        cases hwaiting
  | sample hsampler hspaced sample =>
      obtain ⟨_, hresult, hknown, hts⟩ := htimely _ rfl
      cases hresult
      exact h.sample hsampler hknown hts
  | fail =>
      obtain ⟨_, hresult, -⟩ := htimely _ rfl
      cases hresult
  | lock hsampler | trySend hsampler | retained hsampler =>
      refine h.keep rfl rfl rfl (by simp [Engine.inHand, hsampler]) ?_ ?_
      · intro htop
        cases htop
      · intro interval since hwaiting
        cases hwaiting
  | store hsampler hstore => exact h.store hsampler hstore

end Steps

/-- A timely step keeps the schedule. -/
theorem onSchedule_step {clock : WallClock} {s t : MetricsSystem F} {move : SystemMove F}
    (h : OnSchedule clock s.engine) (htimely : Timely clock s move) (hstep : s.step move = some t) :
    OnSchedule clock t.engine := by
  cases move with
  | sampler move =>
      obtain ⟨engine, hmove, rfl⟩ := Option.map_eq_some_iff.mp hstep
      refine h.move ?_ hmove
      rintro result rfl
      cases result with
      | none => exact absurd htimely id
      | some sample => exact ⟨sample, rfl, htimely⟩
  | elapse d =>
      cases hstep
      simp only [Timely] at htimely
      refine h.elapse ?_ ?_
      · intro t ht
        split at htimely
        · rename_i interval since hsampler
          obtain ⟨hinterval, hsince⟩ := h.waiting interval since hsampler
          rw [hsince t ht] at htimely
          omega
        · simp only [ht, Option.any_some, decide_eq_true_eq] at htimely
          have hspacing : MIN_SAMPLE_SPACING ≤ IDLE_INTERVAL := by decide
          omega
        · rw [htimely]
          exact h.elapsed t ht
      · intro hstill
        split at htimely
        · rename_i hsampler
          simp [Engine.inHand, hsampler] at hstill
        · rename_i hsampler
          simp [Engine.inHand, hsampler] at hstill
        · exact htimely
  | stop =>
      obtain ⟨engine, hstop, rfl⟩ := Option.map_eq_some_iff.mp hstep
      exact h.wakes (wakes_stop hstop)
  | accept =>
      cases hstep
      exact h
  | session i move =>
      simp only [MetricsSystem.step] at hstep
      split at hstep
      · cases hstep
      · obtain ⟨⟨engine, session'⟩, hmove, rfl⟩ := Option.map_eq_some_iff.mp hstep
        exact h.wakes (wakes_moves (StreamSession.moves_of_step hmove))

/-! ### The ring as one run -/

/-- The steps that are on cadence. -/
theorem onCadence_iff (newer older : Sample F) : onCadence newer older = true ↔
    15000 ≤ newer.tsMs.toInt - older.tsMs.toInt ∧ newer.tsMs.toInt - older.tsMs.toInt ≤ 45000 := by
  have hmin : MIN_STEP_MS.toInt = 15000 := by decide
  have hmax : MAX_STEP_MS.toInt = 45000 := by decide
  rw [onCadence, Bool.and_eq_true, decide_eq_true_eq, decide_eq_true_eq,
    Saturating.le_sub_iff (by decide), Saturating.sub_le_iff (by decide), hmin, hmax]

/-- A ring of one run stays one if the new sample is on cadence with the newest. -/
theorem unbroken_push_iff {ring : RingBuffer F} (hcapacity : 1 < ring.capacity)
    (hunbroken : Unbroken ring) {newest : Sample F} (hnewest : ring.latest = some newest)
    (sample : Sample F) : Unbroken (ring.push sample) ↔ onCadence sample newest = true := by
  have hkept : ∀ kept : List (Sample F), kept.IsChain (fun older newer => onCadence newer older) →
      kept.getLast? = some newest →
      ((kept ++ [sample]).IsChain (fun older newer => onCadence newer older) ↔
        onCadence sample newest = true) := by
    intro kept hchain hlast
    rw [List.isChain_append, hlast]
    simp [hchain]
  unfold Unbroken RingBuffer.push
  by_cases hfull : ring.samples.length = ring.capacity
  · simp only [if_pos hfull]
    refine hkept _ hunbroken.tail ?_
    rw [List.getLast?_tail, if_neg (by omega)]
    exact hnewest
  · simp only [if_neg hfull]
    exact hkept _ hunbroken hnewest

/-- **Storing a sample keeps the ring one run exactly if it is in phase.** -/
theorem unbroken_store_iff {clock : WallClock} {engine : Engine F} (h : OnSchedule clock engine)
    {sample : Sample F} (hsampler : engine.sampler = .storing sample) {recorder : Recorder F}
    (hstore : engine.recorder.store sample = some recorder)
    (hunbroken : Unbroken engine.recorder.ring) :
    Unbroken recorder.ring ↔ engine.recorder.InPhase sample := by
  have hinHand : engine.inHand = some sample := by simp [Engine.inHand, hsampler]
  obtain ⟨-, -, hknown⟩ := h.fresh sample hinHand
  have hgrid := h.grid
  have hcapacity : 1 < engine.recorder.ring.capacity := by
    rw [h.capacity]
    decide
  rcases store_cases hknown hstore with ⟨hdue, rfl⟩ | ⟨due, hdue, hlt, rfl⟩ |
    ⟨due, m, hdue, hle, hmax, -, -, rfl⟩
  · simp only [hdue] at hgrid
    refine iff_of_true ?_ ?_
    · simp [Unbroken, RingBuffer.push, hgrid, Nat.ne_of_lt (Nat.zero_lt_of_lt hcapacity)]
    · simp only [Recorder.InPhase, hdue]
  · simp only [hdue] at hgrid
    obtain ⟨point, -, hcell⟩ := hgrid
    obtain ⟨newest, hnewest, -, -⟩ := hcell.newest
    refine iff_of_true hunbroken ?_
    simp only [Recorder.InPhase, hdue, hnewest]
    intro hle
    rw [Int64.le_iff_toInt_le] at hle
    omega
  · simp only [hdue] at hgrid
    obtain ⟨point, rfl, hcell⟩ := hgrid
    have hpoint := hcell.due_eq hle hmax
    have hhand := hcell.inHand sample hinHand
    obtain ⟨newest, hnewest, hfrom, hto⟩ := hcell.newest
    rw [unbroken_push_iff hcapacity hunbroken hnewest, onCadence_iff]
    -- the sample is in the cell of the point, and the newest in the one before
    have hphase : phase (Int64.ofIntClamp point) sample = sample.tsMs.toInt - point := by
      rw [phase, hpoint]
      rw [hpoint] at hle
      omega
    have hphase' : phase (Int64.ofIntClamp point) newest = newest.tsMs.toInt - point + 30000 := by
      rw [phase, hpoint]
      omega
    simp only [Recorder.InPhase, hdue, hnewest, hphase, hphase', abs_le]
    constructor
    · rintro ⟨hlower, hupper⟩ -
      omega
    · intro hinPhase
      have hbound := hinPhase (Int64.le_iff_toInt_le.mpr hle)
      omega

theorem onSchedule_start (clock : WallClock) : OnSchedule clock (Engine.start : Engine F) := by
  refine ⟨rfl, ?_, ?_, ?_, ?_, rfl⟩
  · intro t ht
    cases ht
  · intro _ t ht
    cases ht
  · intro interval since hwaiting
    cases hwaiting
  · intro sample hsample
    cases hsample

/-- What a step that stores nothing leaves of the ring: all of it. -/
theorem ring_step {s t : MetricsSystem F} {move : SystemMove F} (hstep : s.step move = some t)
    (hmove : move ≠ .sampler .store) : t.engine.recorder.ring = s.engine.recorder.ring := by
  cases move with
  | sampler move =>
      obtain ⟨engine, hmoves, rfl⟩ := Option.map_eq_some_iff.mp hstep
      cases Engine.moves_of_move hmoves with
      | store => exact absurd rfl hmove
      | _ => rfl
  | elapse d =>
      cases hstep
      rfl
  | stop =>
      obtain ⟨engine, hstop, rfl⟩ := Option.map_eq_some_iff.mp hstep
      exact congrArg Recorder.ring (wakes_stop hstop).recorder
  | accept =>
      cases hstep
      rfl
  | session i move =>
      simp only [MetricsSystem.step] at hstep
      split at hstep
      · cases hstep
      · obtain ⟨⟨engine, session'⟩, hmoves, rfl⟩ := Option.map_eq_some_iff.mp hstep
        exact congrArg Recorder.ring (wakes_moves (StreamSession.moves_of_step hmoves)).recorder

/-- **When subscribing does not change the shape of history.**  In a timely run, the ring stays one
run in every state exactly if every sample is stored in phase. -/
theorem unbroken_iff (clock : WallClock) {moves : List (SystemMove F)} {s : MetricsSystem F}
    (hrun : Transition.run MetricsSystem.step .start moves = some s)
    (htimely : Transition.Meets MetricsSystem.step (Timely clock) .start moves) :
    (∀ done, done <+: moves → ∀ t, Transition.run MetricsSystem.step .start done = some t →
      Unbroken t.engine.recorder.ring) ↔
      Transition.Meets MetricsSystem.step InPhase .start moves := by
  have hstart : Unbroken (MetricsSystem.start : MetricsSystem F).engine.recorder.ring :=
    List.isChain_nil
  refine Transition.forall_states_iff_meets_under
    (A := fun s => OnSchedule clock s.engine)
    (I := fun s => Unbroken s.engine.recorder.ring)
    (fun s move t hs => onSchedule_step hs) ?_ (onSchedule_start clock) hstart htimely hrun
  intro s move t hs _ hunbroken hstep
  by_cases hmove : move = .sampler .store
  · subst hmove
    obtain ⟨engine, hmoves, rfl⟩ := Option.map_eq_some_iff.mp hstep
    cases Engine.moves_of_move hmoves with
    | store hsampler hstore =>
        simp only [InPhase, hsampler]
        exact unbroken_store_iff hs hsampler hstore hunbroken
  · have hring := ring_step hstep hmove
    refine iff_of_true (hring ▸ hunbroken) ?_
    unfold InPhase
    split
    · exact absurd rfl hmove
    · trivial

/-! ### A subscription that comes and goes -/

/-- A wall clock that starts with the sampler's and keeps up with it. -/
def idealClock : WallClock where
  nowMs t := Int64.ofIntClamp (t / 1000000 : ℕ)
  monotone t d := by
    have hle : t / 1000000 ≤ (t + d) / 1000000 := Nat.div_le_div_right (Nat.le_add_right t d)
    rw [Saturating.toInt_ofIntClamp, Saturating.toInt_ofIntClamp]
    omega
  steady t ms := by
    have hadd : (t + ms * 1000000) / 1000000 = t / 1000000 + ms :=
      Nat.add_mul_div_right t ms (by decide)
    rw [Saturating.toInt_ofIntClamp, Saturating.toInt_ofIntClamp, hadd]
    omega

/-- The sampler waits for as long as it may, and delivers a sample to so many senders. -/
def timedOut (interval : ℕ) (tsMs : Int64) (senders : ℕ) : List (SystemMove Unit) :=
  [.sampler .wait, .elapse interval, .sampler .timeout] ++ delivery tsMs senders

/-- A session opens a stream 28.9 s after a sample was stored, and is gone a second later. -/
def passing : List (SystemMove Unit) :=
  [.accept, .session 0 .drain] ++ timedOut IDLE_INTERVAL 30000 0 ++
    [.sampler .wait, .elapse 28900000000] ++ opening 0 (toyUuid 1) 58900 ++ delivery 58900 1 ++
    [.drain, .recv, .drained, .push, .push, .leave].map (.session 0) ++
    timedOut LIVE_INTERVAL 59900 1 ++ timedOut IDLE_INTERVAL 89900 0

/-- The sampler is never late and every sample has known rates, and yet the two samples in the ring
are 59.9 s apart, and a history of the last hour is one sample long. -/
theorem history_broken_by_subscribe : ∃ s : MetricsSystem Unit,
    Transition.run MetricsSystem.step .start passing = some s ∧
      Transition.Meets MetricsSystem.step (Timely idealClock) .start passing ∧
      s.engine.recorder.ring.samples.map Sample.tsMs = [30000, 89900] ∧
      ¬Unbroken s.engine.recorder.ring ∧
      (s.engine.recorder.ring.history 3600 89900).map (fun history => history.samples.length)
        = some 1 := by
  have hrun : ((Transition.run MetricsSystem.step .start passing).any fun s =>
      decide (s.engine.recorder.ring.samples.map Sample.tsMs = [30000, 89900] ∧
        ¬s.engine.recorder.ring.samples.IsChain (fun older newer => onCadence newer older) ∧
        (s.engine.recorder.ring.history 3600 89900).map (fun history => history.samples.length)
          = some 1)) = true := by
    decide +kernel
  obtain ⟨s, hs, hall⟩ := (Option.any_eq_true _ _).mp hrun
  obtain ⟨hstored, hbroken, hhistory⟩ := of_decide_eq_true hall
  exact ⟨s, hs, by decide +kernel, hstored, hbroken, hhistory⟩

/-- With nobody watching, the ring is one run. -/
theorem unbroken_iff_idle : ∃ s : MetricsSystem Unit,
    Transition.run MetricsSystem.step .start
      (timedOut IDLE_INTERVAL 30000 0 ++ timedOut IDLE_INTERVAL 60000 0) = some s ∧
      s.engine.recorder.ring.samples.map Sample.tsMs = [30000, 60000] ∧
      Unbroken s.engine.recorder.ring := by
  have hrun : ((Transition.run MetricsSystem.step .start
      (timedOut IDLE_INTERVAL 30000 0 ++ timedOut IDLE_INTERVAL 60000 0)).any fun s =>
      decide (s.engine.recorder.ring.samples.map Sample.tsMs = [30000, 60000])) = true := by
    decide +kernel
  obtain ⟨s, hs, hstored⟩ := (Option.any_eq_true _ _).mp hrun
  have hunbroken := (unbroken_iff idealClock hs (by decide +kernel)).mpr (by decide +kernel)
  exact ⟨s, hs, of_decide_eq_true hstored, hunbroken _ (List.prefix_refl _) s hs⟩

end Osprey
