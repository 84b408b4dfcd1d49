/-
**Whether a chart goes back.**

The points of a history are put thirty seconds apart, and the samples that they stand for may have
been stored at any steps from 15 s to 45 s.  Where the steps are shorter, the points run ahead of
the samples, and the phone may be sent a tick from before the last of them.  How far they run ahead
is fixed when the subscribe reads the ring: it is what the steps between the stored samples fall
short of thirty seconds, all together.

Main definitions:

* `Osprey.Reads` — the ring that a subscribe of a session reads, and when;
* `Osprey.spanned` — the stored samples from the first to the last that a history sends;
* `Osprey.shortfall` — what the steps between samples fall short of thirty seconds;
* `Osprey.KeepsAhead` — the first tick comes later than that after the last stored sample sent.

Main results:

* `Osprey.answered_of_run` — **every answer is the history of the ring that its subscribe has
  read**;
* `Osprey.endsBefore_iff` — where that history is declared to end, by the stored samples;
* `Osprey.chronological_iff` — **the series is chronological in every state exactly if the first
  tick keeps ahead of the history**.
-/

import Osprey.HistoryTransport

set_option relaxedAutoImplicit false
set_option autoImplicit false

namespace Osprey

variable {F : Type}

/-! ### What a subscribe reads -/

/-- With `before` behind it, the `i`-th session has been asked for a history by the subscribe `id`,
and it reads the ring at the time `nowMs`. -/
def Reads (moves : List (SystemMove F)) (i : ℕ) (before : List (StreamEvent F)) (id : Uuid)
    (request : MetricsSubscribeBody) (nowMs : Int64) (ring : RingBuffer F) : Prop :=
  ∃ early late s session, moves = early ++ .session i (.backfill nowMs) :: late ∧
    Transition.run MetricsSystem.step .start early = some s ∧ s.sessions[i]? = some session ∧
    session.control = .asked id request ∧ session.trace = before ∧ s.engine.recorder.ring = ring

/-- A history is one that a subscribe has read. -/
def IsRead (moves : List (SystemMove F)) (i : ℕ) (before : List (StreamEvent F)) (id : Uuid)
    (history : Option (History F)) : Prop :=
  ∃ request nowMs ring, Reads moves i before id request nowMs ring ∧
    history = ring.history request.backfillSeconds nowMs

theorem IsRead.append {moves : List (SystemMove F)} {i : ℕ} {before : List (StreamEvent F)}
    {id : Uuid} {history : Option (History F)} (h : IsRead moves i before id history)
    (later : List (SystemMove F)) : IsRead (moves ++ later) i before id history := by
  obtain ⟨request, nowMs, ring, ⟨early, late, s, session, rfl, hread⟩, hhistory⟩ := h
  refine ⟨request, nowMs, ring, ⟨early, late ++ later, s, session, ?_, hread⟩, hhistory⟩
  rw [List.append_assoc, List.cons_append]

/-- The body of an answer is that of a history which its subscribe has read. -/
def Answers (moves : List (SystemMove F)) (i : ℕ) (before : List (StreamEvent F)) (id : Uuid)
    (body : MetricsHistoryBody F) : Prop :=
  ∃ history installed, body = .historyBody id history installed ∧
    IsRead moves i before id history

/-- A session has answered, and is about to answer, with what it has read. -/
structure StreamSession.AnswersReads (session : StreamSession F) (moves : List (SystemMove F))
    (i : ℕ) : Prop where
  pending : match session.control with
    | .backfilled id _ history => IsRead moves i session.trace id history
    | .answering id _ body => Answers moves i session.trace id body
    | _ => True
  trace : ∀ before id stream body after,
    session.trace = before ++ .answered id stream body :: after → Answers moves i before id body

namespace StreamSession

variable {moves : List (SystemMove F)} {i : ℕ} {session session' : StreamSession F}

theorem answersReads_opened : (opened : StreamSession F).AnswersReads moves i := by
  refine ⟨trivial, ?_⟩
  intro before id stream body after hsplit
  simp [opened] at hsplit

theorem AnswersReads.append (h : session.AnswersReads moves i) (later : List (SystemMove F)) :
    session.AnswersReads (moves ++ later) i := by
  obtain ⟨hpending, htrace⟩ := h
  refine ⟨?_, ?_⟩
  · split at hpending
    · exact hpending.append later
    · obtain ⟨history, installed, hbody, hread⟩ := hpending
      exact ⟨history, installed, hbody, hread.append later⟩
    · trivial
  · intro before id stream body after hsplit
    obtain ⟨history, installed, hbody, hread⟩ := htrace before id stream body after hsplit
    exact ⟨history, installed, hbody, hread.append later⟩

/-- A session that notes something else than an answer, or nothing. -/
theorem AnswersReads.other (h : session.AnswersReads moves i)
    (hpending : match session'.control with
      | .backfilled id _ history => IsRead moves i session'.trace id history
      | .answering id _ body => Answers moves i session'.trace id body
      | _ => True)
    {noted : List (StreamEvent F)} (htrace : session'.trace = session.trace ++ noted)
    (hnoted : ∀ id stream body, .answered id stream body ∉ noted) :
    session'.AnswersReads moves i := by
  refine ⟨hpending, ?_⟩
  intro before id stream body after hsplit
  rw [htrace] at hsplit
  rcases List.append_eq_append_iff.mp hsplit with ⟨between, -, hrest⟩ | ⟨between, hold, hrest⟩
  · exact absurd (hrest ▸ List.mem_append_right _ List.mem_cons_self) (hnoted id stream body)
  · cases between with
    | nil =>
        rw [List.nil_append] at hrest
        exact absurd (hrest ▸ List.mem_cons_self) (hnoted id stream body)
    | cons event between =>
        obtain ⟨rfl, -⟩ := List.cons_eq_cons.mp hrest
        exact h.trace before id stream body between hold

/-- A session that notes the answer it was about to give. -/
theorem AnswersReads.answer (h : session.AnswersReads moves i) {id : Uuid} {stream : Bool}
    {body : MetricsHistoryBody F} (hcontrol : session.control = .answering id stream body)
    {control : StreamControl F}
    (hnext : ∀ id stream history, control ≠ .backfilled id stream history)
    (hnext' : ∀ id stream body, control ≠ .answering id stream body) :
    (session.note (.answered id stream body) control).AnswersReads moves i := by
  obtain ⟨hpending, htrace⟩ := h
  simp only [hcontrol] at hpending
  refine ⟨?_, ?_⟩
  · split
    · rename_i hbackfilled
      exact absurd hbackfilled (hnext _ _ _)
    · rename_i hanswering
      exact absurd hanswering (hnext' _ _ _)
    · trivial
  · intro before id' stream' body' after hsplit
    rw [note] at hsplit
    rcases List.eq_nil_or_concat after with rfl | ⟨after, last, rfl⟩
    · obtain ⟨rfl, hlast⟩ := List.append_inj' hsplit rfl
      cases hlast
      exact hpending
    · rw [List.concat_eq_append, ← List.cons_append, ← List.append_assoc] at hsplit
      obtain ⟨hold, -⟩ := List.append_inj' hsplit rfl
      exact htrace before id' stream' body' after hold

/-- **A session keeps answering with what it reads.** -/
theorem AnswersReads.step {s : MetricsSystem F} {move : StreamMove} {engine' : Engine F}
    (h : session.AnswersReads (moves ++ [.session i move]) i)
    (hrun : Transition.run MetricsSystem.step .start moves = some s)
    (hi : s.sessions[i]? = some session) (hmoves : Moves s.engine session move engine' session') :
    session'.AnswersReads (moves ++ [.session i move]) i := by
  have hquiet (control : StreamControl F) (hcontrol : match control with
      | .backfilled id _ history =>
          IsRead (moves ++ [.session i move]) i session.trace id history
      | .answering id _ body => Answers (moves ++ [.session i move]) i session.trace id body
      | _ => True) (stream : Option ActiveStream) :
      AnswersReads { session with control, stream } (moves ++ [.session i move]) i :=
    ⟨hcontrol, h.trace⟩
  have hnote {event : StreamEvent F} (hevent : ∀ id stream body, event ≠ .answered id stream body)
      (control : StreamControl F) (hcontrol : match control with
        | .backfilled _ _ _ | .answering _ _ _ => False
        | _ => True) :
      (session.note event control).AnswersReads (moves ++ [.session i move]) i := by
    have htrace : (session.note event control).trace = session.trace ++ [event] := rfl
    refine h.other ?_ htrace ?_
    · cases control <;> first | exact hcontrol.elim | trivial
    · intro id stream body hmem
      exact hevent id stream body (List.mem_singleton.mp hmem).symm
  cases hmoves with
  | quiet | drain | recv | empty | drained | pushed | next | leave | notify | replace | close =>
      exact hquiet _ trivial _
  | push | request | subscribe => exact hnote (by intros; simp) _ trivial
  | @backfill id body hcontrol nowMs history hhistory =>
      have hread : IsRead (moves ++ [.session i (.backfill nowMs)]) i session.trace id history := by
        refine ⟨body, nowMs, s.engine.recorder.ring, ?_, ?_⟩
        · exact ⟨moves, [], s, session, rfl, hrun, hi, hcontrol, rfl, rfl⟩
        · unfold Engine.history at hhistory
          split at hhistory
          · cases hhistory
          · exact (Option.some.inj hhistory).symm
      exact hquiet (.backfilled id body.stream history) hread session.stream
  | @measure id stream history hcontrol installed hinstalled =>
      have hpending := h.pending
      simp only [hcontrol] at hpending
      exact hquiet (.answering id stream (.historyBody id history installed))
        ⟨history, installed, rfl, hpending⟩ session.stream
  | stream hcontrol | once hcontrol => exact h.answer hcontrol (by simp) (by simp)

end StreamSession

/-- What a session of a run answers is what it has read. -/
theorem answersReads_of_run {moves : List (SystemMove F)} {s : MetricsSystem F}
    (hrun : Transition.run MetricsSystem.step .start moves = some s) {i : ℕ}
    {session : StreamSession F} (hsession : s.sessions[i]? = some session) :
    session.AnswersReads moves i := by
  induction moves using List.reverseRecOn generalizing s i session with
  | nil =>
      cases hrun
      cases hsession
  | append_singleton moves move ih =>
      obtain ⟨early, hearly, hlast⟩ := Transition.run_append.mp hrun
      obtain ⟨t, hstep, hlast⟩ := Transition.run_cons_eq_some.mp hlast
      cases hlast
      -- a session that was there and has not moved
      have hkept {i : ℕ} {session : StreamSession F}
          (hsession : early.sessions[i]? = some session) :
          session.AnswersReads (moves ++ [move]) i := (ih hearly hsession).append [move]
      cases move with
      | sampler move =>
          obtain ⟨engine, -, rfl⟩ := Option.map_eq_some_iff.mp hstep
          exact hkept hsession
      | elapse d =>
          cases hstep
          exact hkept hsession
      | stop =>
          obtain ⟨engine, -, rfl⟩ := Option.map_eq_some_iff.mp hstep
          exact hkept hsession
      | accept =>
          cases hstep
          by_cases hi : i < early.sessions.length
          · rw [List.getElem?_append_left hi] at hsession
            exact hkept hsession
          · rw [List.getElem?_append_right (Nat.le_of_not_lt hi)] at hsession
            rw [List.mem_singleton.mp (List.mem_of_getElem? hsession)]
            exact StreamSession.answersReads_opened
      | session j move =>
          simp only [MetricsSystem.step] at hstep
          split at hstep
          · cases hstep
          rename_i asking hj
          obtain ⟨⟨engine, moved⟩, hmove, rfl⟩ := Option.map_eq_some_iff.mp hstep
          by_cases hij : j = i
          · subst hij
            obtain rfl : moved = session := by
              rw [List.getElem?_set_self (List.getElem?_eq_some_iff.mp hj).1] at hsession
              exact Option.some.inj hsession
            exact (hkept hj).step hearly hj (StreamSession.moves_of_step hmove)
          · rw [List.getElem?_set_ne hij] at hsession
            exact hkept hsession

/-- **Every answer is the history of the ring that its subscribe has read.** -/
theorem answered_of_run {moves : List (SystemMove F)} {s : MetricsSystem F}
    (hrun : Transition.run MetricsSystem.step .start moves = some s) {i : ℕ}
    {session : StreamSession F} (hsession : s.sessions[i]? = some session)
    {before after : List (StreamEvent F)} {id : Uuid} {stream : Bool} {body : MetricsHistoryBody F}
    (htrace : session.trace = before ++ .answered id stream body :: after) :
    ∃ request nowMs ring installed, Reads moves i before id request nowMs ring ∧
      body = .historyBody id (ring.history request.backfillSeconds nowMs) installed := by
  obtain ⟨history, installed, hbody, request, nowMs, ring, hreads, rfl⟩ :=
    (answersReads_of_run hrun hsession).trace before id stream body after htrace
  exact ⟨request, nowMs, ring, installed, hreads, hbody⟩

/-! ### What the ring holds -/

/-- The ring of an engine: as large as it is made, and filled with samples whose rates are known. -/
structure RingBuffer.Stocked (ring : RingBuffer F) : Prop where
  capacity : ring.capacity = RING_CAPACITY
  known : ∀ sample ∈ ring.samples, sample.Known

theorem stocked_of_run {moves : List (SystemMove F)} {s : MetricsSystem F}
    (hrun : Transition.run MetricsSystem.step .start moves = some s) :
    s.engine.recorder.ring.Stocked := by
  have hstart : (RingBuffer.new : RingBuffer F).Stocked :=
    ⟨rfl, fun sample hsample => absurd hsample List.not_mem_nil⟩
  refine Transition.run_keeps (I := fun s : MetricsSystem F => s.engine.recorder.ring.Stocked)
    ?_ hstart hrun
  intro s move t hs hstep
  by_cases hmove : move = .sampler .store
  · subst hmove
    obtain ⟨engine, hmoves, rfl⟩ := Option.map_eq_some_iff.mp hstep
    cases Engine.moves_of_move hmoves with
    | store hsampler hstore =>
        refine ⟨(store_capacity hstore).trans hs.capacity, ?_⟩
        intro stored hstored
        rcases mem_store hstore hstored with hold | ⟨rfl, hknown⟩
        · exact hs.known stored hold
        · exact hknown
  · rw [ring_step hstep hmove]
    exact hs

/-! ### Where a history is declared to end -/

/-- The stored samples of a run from the first to the last that a history of it sends. -/
def spanned (run : List (Sample F)) : List (Sample F) :=
  run.take ((run.length - 1) / RingBuffer.factor run * RingBuffer.factor run + 1)

/-- What the steps between samples fall short of thirty seconds, all together. -/
def shortfall : List (Sample F) → ℤ
  | older :: newer :: rest =>
      30000 - (newer.tsMs.toInt - older.tsMs.toInt) + shortfall (newer :: rest)
  | _ => 0

/-- The first of the ticks of a subscription comes later after the newest stored sample that its
history sends than the steps up to that one fall short of thirty seconds. -/
def KeepsAhead (ring : RingBuffer F) (backfillSeconds : UInt32) (nowMs : Int64) (id : Uuid)
    (arrived : List (MetricsTickBody F)) : Prop :=
  backfillSeconds ≠ 0 → ∀ newest ∈ (spanned (ring.run backfillSeconds nowMs)).getLast?,
    ∀ first ∈ arrived.find? (fun tick => tick.sub = id),
      shortfall (spanned (ring.run backfillSeconds nowMs))
        < first.ts.toInt - newest.tsMs.toInt

/-- The steps add up to the time from the first sample to the last. -/
theorem shortfall_eq {samples : List (Sample F)} {oldest newest : Sample F}
    (holdest : samples.head? = some oldest) (hnewest : samples.getLast? = some newest) :
    shortfall samples
      = (samples.length - 1 : ℕ) * 30000 - (newest.tsMs.toInt - oldest.tsMs.toInt) := by
  induction samples generalizing oldest with
  | nil => cases holdest
  | cons first rest ih =>
      cases holdest
      cases rest with
      | nil =>
          cases hnewest
          simp [shortfall]
      | cons second rest =>
          rw [List.getLast?_cons_cons] at hnewest
          rw [shortfall, ih rfl hnewest]
          simp only [List.length_cons, Nat.add_sub_cancel]
          push_cast
          ring

/-- How many samples thinning out keeps. -/
theorem length_stepBy {α : Type} {n : ℕ} (hn : 0 < n) {list : List α} (hlist : list ≠ []) :
    (stepBy n list).length = (list.length - 1) / n + 1 := by
  have hpositive : 0 < list.length := List.length_pos_iff.mpr hlist
  have hmul := Nat.div_mul_le_self (list.length - 1) n
  refine le_antisymm ?_ ?_
  · rw [← List.getElem?_eq_none_iff, getElem?_stepBy hn, List.getElem?_eq_none_iff]
    have hlt := Nat.lt_div_mul_add hn (a := list.length - 1)
    rw [Nat.succ_mul]
    omega
  · refine Nat.lt_of_not_le fun hle => ?_
    rw [← List.getElem?_eq_none_iff, getElem?_stepBy hn, List.getElem?_eq_none_iff] at hle
    omega

theorem head?_spanned (run : List (Sample F)) : (spanned run).head? = run.head? := by
  cases run <;> rfl

/-- As many steps of the run as the history has, each of them `factor` long. -/
theorem length_spanned {run : List (Sample F)} (hrun : run ≠ []) :
    (spanned run).length
      = (run.length - 1) / RingBuffer.factor run * RingBuffer.factor run + 1 := by
  have hpositive : 0 < run.length := List.length_pos_iff.mpr hrun
  have hmul := Nat.div_mul_le_self (run.length - 1) (RingBuffer.factor run)
  rw [spanned, List.length_take]
  omega

/-- The factor of a run of the ring is at most six, so that no interval saturates. -/
theorem factor_le {ring : RingBuffer F} (hcapacity : ring.capacity = RING_CAPACITY)
    (backfillSeconds : UInt32) (nowMs : Int64) :
    RingBuffer.factor (ring.run backfillSeconds nowMs) ≤ 6 := by
  have hlength : (ring.run backfillSeconds nowMs).length ≤ RING_CAPACITY := by
    rw [← hcapacity]
    exact (ring.run_isSuffix backfillSeconds nowMs).length_le.trans ring.bounded
  simp only [RingBuffer.factor, divCeil, MAX_HISTORY_SAMPLES, RING_CAPACITY] at hlength ⊢
  omega

/-- The time that a history of a ring gives its last point: so many intervals of thirty seconds
after the oldest sample as there are steps up to the newest that it sends. -/
theorem declaredEnd_historyBody {ring : RingBuffer F} (hring : ring.Stocked)
    {backfillSeconds : UInt32} {nowMs : Int64} {history : History F}
    (hhistory : ring.history backfillSeconds nowMs = some history) (id : Uuid)
    (installed : Option UInt64) :
    ∃ oldest, (ring.run backfillSeconds nowMs).head? = some oldest ∧
      (MetricsHistoryBody.historyBody id (some history) installed).declaredEnd
        = some (oldest.tsMs.toInt +
          ((spanned (ring.run backfillSeconds nowMs)).length - 1 : ℕ) * 30000) := by
  obtain ⟨oldest, rest, hrun, hstart, hinterval, hsamples⟩ := RingBuffer.history_eq_some hhistory
  have hsix := factor_le hring.capacity backfillSeconds nowMs
  rw [hrun] at hsix
  have hnonempty : oldest :: rest ≠ [] := List.cons_ne_nil oldest rest
  have hknown : usable history.samples = history.samples := by
    refine usable_of_known fun sample hsample => hring.known sample ?_
    exact (history_bounds hring.capacity hhistory).2.2.1 sample hsample
  have hcarries := carries_historyBody id history installed
  rw [hknown] at hcarries
  obtain ⟨hcpu, hmem, -, -⟩ := hcarries.lengths
  have hcount : (MetricsHistoryBody.historyBody id (some history) installed).count
      = ((oldest :: rest).length - 1) / RingBuffer.factor (oldest :: rest) + 1 := by
    rw [MetricsHistoryBody.count, hcpu, hmem, Nat.min_self, hsamples,
      length_stepBy (RingBuffer.factor_pos _) hnonempty]
  have hbodyInterval : (MetricsHistoryBody.historyBody id (some history) installed).intervalMs
      = saturatingMul RING_INTERVAL_MS (RingBuffer.factor (oldest :: rest)) := hinterval
  have hnonzero := saturatingMul_ne_zero (RingBuffer.factor_pos (oldest :: rest))
  have hbodyStart : (MetricsHistoryBody.historyBody id (some history) installed).startTs
      = oldest.tsMs := hstart
  rw [hrun]
  refine ⟨oldest, rfl, ?_⟩
  rw [MetricsHistoryBody.declaredEnd, hcount, hbodyInterval, hbodyStart,
    if_neg (not_or.mpr ⟨hnonzero, Nat.succ_ne_zero _⟩), RingBuffer.toNat_saturatingMul (by omega),
    length_spanned hnonempty, Nat.add_sub_cancel, Nat.add_sub_cancel]
  push_cast
  congr 2
  ring

/-- **Where a history is declared to end**, by the samples that are stored: its last point is before
the first tick exactly if that tick keeps ahead. -/
theorem endsBefore_iff {ring : RingBuffer F} (hring : ring.Stocked) (backfillSeconds : UInt32)
    (nowMs : Int64) (id : Uuid) (installed : Option UInt64) (arrived : List (MetricsTickBody F)) :
    (MetricsHistoryBody.historyBody id (ring.history backfillSeconds nowMs) installed).EndsBefore id
        arrived ↔ KeepsAhead ring backfillSeconds nowMs id arrived := by
  cases hhistory : ring.history backfillSeconds nowMs with
  | none =>
      -- nothing is sent, and nothing is stored that could have been
      refine iff_of_true ?_ ?_
      · rw [MetricsHistoryBody.EndsBefore]
        trivial
      · intro hbackfill newest hnewest
        have hempty : ring.run backfillSeconds nowMs = [] := by
          by_contra hrun
          obtain ⟨oldest, rest, hrun⟩ := List.exists_cons_of_ne_nil hrun
          simp [RingBuffer.history, hbackfill, hrun, head?_stepBy] at hhistory
        rw [hempty] at hnewest
        cases hnewest
  | some history =>
      have hbackfill : backfillSeconds ≠ 0 := by
        rintro rfl
        cases hhistory
      obtain ⟨oldest, holdest, hends⟩ := declaredEnd_historyBody hring hhistory id installed
      have hspanned : (spanned (ring.run backfillSeconds nowMs)).head? = some oldest := by
        rw [head?_spanned, holdest]
      obtain ⟨newest, hnewest⟩ : ∃ newest,
          (spanned (ring.run backfillSeconds nowMs)).getLast? = some newest := by
        have hnonempty : spanned (ring.run backfillSeconds nowMs) ≠ [] := by
          intro hnil
          rw [hnil] at hspanned
          cases hspanned
        exact ⟨_, List.getLast?_eq_some_getLast hnonempty⟩
      unfold MetricsHistoryBody.EndsBefore KeepsAhead
      rw [hends, hnewest, shortfall_eq hspanned hnewest]
      cases arrived.find? fun tick => tick.sub = id with
      | none => simp
      | some first =>
          simp only [Option.mem_def, Option.some.injEq, forall_eq', hbackfill, ne_eq,
            not_false_eq_true, true_implies]
          constructor
          · intro h
            linarith
          · intro h
            linarith

/-- **When the series is chronological.**  In a run of the sampler and any number of sessions, a
session answers the subscribe `id`, and the phone makes a series of the history and of the ticks
that arrive then.  The history is that of the ring which the subscribe has read before.  Where the
timestamps of the deliveries increase, the ids of the series increase in every state exactly if the
first tick comes later after the newest stored sample of the history than the steps between the
stored samples up to that one fall short of thirty seconds. -/
theorem chronological_iff {moves : List (SystemMove F)} {s : MetricsSystem F}
    (hrun : Transition.run MetricsSystem.step .start moves = some s)
    (hincreasing : s.engine.delivered.Pairwise fun earlier later =>
      earlier.tsMs.toInt < later.tsMs.toInt)
    {i : ℕ} {session : StreamSession F} (hsession : s.sessions[i]? = some session)
    {before after : List (StreamEvent F)} {id : Uuid} {stream : Bool} {body : MetricsHistoryBody F}
    (htrace : session.trace = before ++ .answered id stream body :: after)
    {model started : DeviceModel F} (hstart : model.startMetrics id body = some started)
    {arrived : List (MetricsTickBody F)} (harrived : arrived.Sublist (tickBodies after)) :
    ∃ request nowMs ring, Reads moves i before id request nowMs ring ∧
      ((∀ done, done <+: arrived →
          Chronological (done.foldl DeviceModel.append started).samples) ↔
        KeepsAhead ring request.backfillSeconds nowMs id arrived) := by
  obtain ⟨request, nowMs, ring, installed, hreads, hbody⟩ :=
    answered_of_run hrun hsession htrace
  refine ⟨request, nowMs, ring, hreads, ?_⟩
  have hring : ring.Stocked := by
    obtain ⟨early, late, u, asking, -, hearly, -, -, -, rfl⟩ := hreads
    exact stocked_of_run hearly
  have hiff := chronological_iff_endsBefore hrun hincreasing (List.mem_of_getElem? hsession) htrace
    hstart harrived
  rw [hbody, endsBefore_iff hring] at hiff
  exact hiff

/-! ### A series that goes back -/

/-- The first answer of a trace, and what comes after it. -/
def firstAnswer : List (StreamEvent F) →
    Option (Uuid × Bool × MetricsHistoryBody F × List (StreamEvent F))
  | [] => none
  | .answered id stream body :: after => some (id, stream, body, after)
  | _ :: after => firstAnswer after

theorem firstAnswer_eq_some {trace after : List (StreamEvent F)} {id : Uuid} {stream : Bool}
    {body : MetricsHistoryBody F} (h : firstAnswer trace = some (id, stream, body, after)) :
    ∃ before, trace = before ++ .answered id stream body :: after := by
  induction trace with
  | nil => cases h
  | cons event trace ih =>
      cases event with
      | answered id' stream' body' =>
          cases h
          exact ⟨[], rfl⟩
      | requested | registered | tick =>
          obtain ⟨before, rfl⟩ := ih h
          exact ⟨_ :: before, rfl⟩

/-- A phone connects right after a sample was delivered, and is sent the next. -/
def connecting (i : ℕ) (id : Uuid) (nowMs tsMs : Int64) (senders : ℕ) : List (SystemMove Unit) :=
  [.accept, .session i .drain, .sampler .wait] ++ opening i id nowMs ++
    [.sampler .resume, .elapse MIN_SAMPLE_SPACING] ++ (delivery tsMs senders).tail ++
    [.drain, .recv, .drained, .push].map (.session i)

/-- Another subscription comes 15.1 s after a sample that was stored at the end of its cell, so that
the next is stored in the middle of its own; then a phone connects. -/
def overtaken : List (SystemMove Unit) :=
  passing ++ [.accept, .session 1 .drain, .sampler .wait, .elapse 15100000000] ++
    opening 1 (toyUuid 2) 105000 ++ delivery 105000 1 ++ connecting 2 (toyUuid 3) 105000 105250 2

/-- What the phone charts in the `i`-th session of a run, and whether its history ends before. -/
def chart (s : MetricsSystem Unit) (i : ℕ) : Option (List Int64 × Bool) :=
  match (s.sessions[i]?).bind fun session => firstAnswer session.trace with
  | none => none
  | some (id, _, body, after) =>
      (DeviceModel.new.startMetrics id body).map fun started =>
        (((tickBodies after).foldl DeviceModel.append started).samples.map MetricSample.id,
          decide (body.EndsBefore id (tickBodies after)))

theorem chart_eq_some {s : MetricsSystem Unit} {i : ℕ} {ids : List Int64} {ends : Bool}
    (h : chart s i = some (ids, ends)) : ∃ session, s.sessions[i]? = some session ∧
      ∃ before id stream body after, session.trace = before ++ .answered id stream body :: after ∧
        ∃ started, DeviceModel.new.startMetrics id body = some started ∧
          ((tickBodies after).foldl DeviceModel.append started).samples.map MetricSample.id = ids ∧
          decide (body.EndsBefore id (tickBodies after)) = ends := by
  unfold chart at h
  split at h
  · cases h
  · rename_i id stream body after hanswer
    obtain ⟨session, hsession, hfirst⟩ := Option.bind_eq_some_iff.mp hanswer
    obtain ⟨before, htrace⟩ := firstAnswer_eq_some hfirst
    obtain ⟨started, hstarted, hids⟩ := Option.map_eq_some_iff.mp h
    obtain ⟨rfl, rfl⟩ := Prod.mk.inj hids
    exact ⟨session, hsession, before, id, stream, body, after, htrace, started, hstarted, rfl, rfl⟩

/-- The sampler is never late and the timestamps of its deliveries increase, and the first tick is
charted 14.65 s before the last point of the history. -/
theorem chart_goes_back : ∃ s : MetricsSystem Unit,
    Transition.run MetricsSystem.step .start overtaken = some s ∧
      Transition.Meets MetricsSystem.step (Timely idealClock) .start overtaken ∧
      (s.engine.delivered.Pairwise fun earlier later => earlier.tsMs.toInt < later.tsMs.toInt) ∧
      ∃ session ∈ s.sessions, ∃ before id stream body after,
        session.trace = before ++ .answered id stream body :: after ∧
          ∃ started, DeviceModel.new.startMetrics id body = some started ∧
            ((tickBodies after).foldl DeviceModel.append started).samples.map MetricSample.id
              = [89900, 119900, 105250] ∧
            ¬Chronological ((tickBodies after).foldl DeviceModel.append started).samples := by
  have hrun : ((Transition.run MetricsSystem.step .start overtaken).any fun s =>
      decide ((s.engine.delivered.Pairwise fun earlier later =>
        earlier.tsMs.toInt < later.tsMs.toInt) ∧
        chart s 2 = some ([89900, 119900, 105250], false))) = true := by
    decide +kernel
  obtain ⟨s, hs, hall⟩ := (Option.any_eq_true _ _).mp hrun
  obtain ⟨hincreasing, hchart⟩ := of_decide_eq_true hall
  obtain ⟨session, hsession, before, id, stream, body, after, htrace, started, hstarted, hids, -⟩ :=
    chart_eq_some hchart
  refine ⟨s, hs, by decide +kernel, hincreasing, session, List.mem_of_getElem? hsession, before, id,
    stream, body, after, htrace, started, hstarted, hids, ?_⟩
  intro hchronological
  have hchain : ([89900, 119900, 105250] : List Int64).IsChain
      fun earlier later => earlier.toInt < later.toInt := by
    rw [← hids, List.isChain_map]
    exact hchronological
  revert hchain
  decide

/-- A phone that connects to a machine nobody has watched. -/
def idling : List (SystemMove Unit) :=
  timedOut IDLE_INTERVAL 30000 0 ++ timedOut IDLE_INTERVAL 60000 0 ++
    connecting 0 (toyUuid 1) 60000 60250 1

/-- Its series is chronological with each tick, and the first keeps ahead of the ring that was
read. -/
theorem chronological_iff_idling : ∃ s : MetricsSystem Unit,
    Transition.run MetricsSystem.step .start idling = some s ∧
      ∃ session, s.sessions[0]? = some session ∧ ∃ before id stream body after,
        session.trace = before ++ .answered id stream body :: after ∧
          ∃ started, DeviceModel.new.startMetrics id body = some started ∧
            Chronological ((tickBodies after).foldl DeviceModel.append started).samples ∧
            ∃ request nowMs ring, Reads idling 0 before id request nowMs ring ∧
              KeepsAhead ring request.backfillSeconds nowMs id (tickBodies after) := by
  have hrun : ((Transition.run MetricsSystem.step .start idling).any fun s =>
      decide ((s.engine.delivered.Pairwise fun earlier later =>
        earlier.tsMs.toInt < later.tsMs.toInt) ∧
          chart s 0 = some ([30000, 60000, 60250], true))) = true := by
    decide +kernel
  obtain ⟨s, hs, hall⟩ := (Option.any_eq_true _ _).mp hrun
  obtain ⟨hincreasing, hchart⟩ := of_decide_eq_true hall
  obtain ⟨session, hsession, before, id, stream, body, after, htrace, started, hstarted, -,
    hends⟩ :=
    chart_eq_some hchart
  have hordered := (chronological_iff_endsBefore hs hincreasing (List.mem_of_getElem? hsession)
    htrace hstarted (List.Sublist.refl _)).mpr (of_decide_eq_true hends)
  obtain ⟨request, nowMs, ring, hreads, hiff⟩ :=
    chronological_iff hs hincreasing hsession htrace hstarted (List.Sublist.refl _)
  exact ⟨s, hs, session, hsession, before, id, stream, body, after, htrace, started, hstarted,
    hordered _ (List.prefix_refl _), request, nowMs, ring, hreads, hiff.mp hordered⟩

end Osprey
