/-
**A revocation is used once.**

`apply` reads the clock and verifies before it takes the lock; the list of used nonces is pruned
under the lock, with the reading of the thread that holds it.  A thread that timed a revocation
inside the window, and then waited, can therefore find the nonce already pruned.  Short of that, and
of a command that saves a snapshot without the nonce, the argument of the source goes through: an
entry is dropped only when no call can pass the freshness check with it any more.

Main definitions:

* `Osprey.Writers.timesApplied` — how often a given revocation has been answered with success;
* `Osprey.Writers.Spent` — the file need not hold a nonce any longer;
* `Osprey.Writers.KeepsNeeded` — no save takes a nonce off the file that a call in progress still
  relies on;
* `Osprey.Writers.OnceInv` — the invariant.

Main results:

* `Osprey.Writers.onceInv_step` — what one step keeps;
* `Osprey.Writers.applied_at_most_once` — **single use**, in every run whose saves keep what is
  needed;
* `Osprey.Writers.applied_twice` — two threads, and a third one that prunes between them.
-/

import Osprey.PinWriters

set_option relaxedAutoImplicit false
set_option autoImplicit false

namespace Osprey

open Transition

namespace ThreadPhase

/-- The thread has timed this revocation inside the clock window and has yet to load the file: it
relies on finding the nonce there if it was used before. -/
def Needs (phase : ThreadPhase) (nonce : Bytes) (issuedAt : Int64) : Prop :=
  match phase with
  | clocked call now | verified call _ now | locked call _ now =>
      call.Names nonce issuedAt ∧ now.toInt - issuedAt.toInt ≤ REVOKE_CLOCK_WINDOW.toInt
  | _ => False

/-- The thread has recorded this revocation and has yet to remove the pin. -/
def Consumed (phase : ThreadPhase) (nonce : Bytes) (issuedAt : Int64) : Prop :=
  match phase with
  | consumed call _ _ _ _ => call.Names nonce issuedAt
  | _ => False

theorem critical_of_consumed {phase : ThreadPhase} {nonce : Bytes} {issuedAt : Int64}
    (h : phase.Consumed nonce issuedAt) : phase.critical := by
  cases phase <;> simp [Consumed, critical] at h ⊢

end ThreadPhase

namespace Writers

variable (crypto : Crypto) (hostDeviceId : Uuid)

/-! ### The condition and the invariant -/

/-- How often `apply` has been answered with success for a given revocation. -/
def timesApplied (s : Writers) (nonce : Bytes) (issuedAt : Int64) : ℕ :=
  s.history.countP fun event =>
    match event with
    | .applied call => call.Names nonce issuedAt
    | _ => false

/-- The file no longer has to hold this nonce: by the host clock its window has passed, and no call
that timed it before that has yet to load the file. -/
def Spent (s : Writers) (nonce : Bytes) (issuedAt : Int64) : Prop :=
  REVOKE_CLOCK_WINDOW.toInt < s.clock.toInt - issuedAt.toInt ∧
    ∀ i, ¬(s.threads i).Needs nonce issuedAt

/-- The condition for single use.  A thread that records a nonce prunes none that a call in progress
relies on; and a command saves a snapshot that has every nonce on file, but for those that are
spent. -/
def KeepsNeeded (s : Writers) : WriterAction → Prop
  | .consume i none =>
      ∀ call n now state stamp, s.threads i = .loaded call n now state stamp →
        state.hasNonce n = false → ∀ nonce issuedAt,
          ⟨hexEncode nonce, issuedAt⟩ ∈ state.consumedRevocations →
          REVOKE_CLOCK_WINDOW.toInt < now.toInt - issuedAt.toInt →
          ∀ j, ¬(s.threads j).Needs nonce issuedAt
  | .create p | .setRelay p _ | .addPeer p _ | .removePeers p _ =>
      ∀ state, (s.processes p).snapshot = some state → ∀ nonce issuedAt,
        ⟨hexEncode nonce, issuedAt⟩ ∈ s.entries →
        ⟨hexEncode nonce, issuedAt⟩ ∈ state.consumedRevocations ∨ s.Spent nonce issuedAt
  | _ => True

/-- The revocation has been recorded by a thread that has answered, or is about to answer, with
success. -/
def Used (s : Writers) (nonce : Bytes) (issuedAt : Int64) : Prop :=
  0 < s.timesApplied nonce issuedAt ∨ ∃ i, (s.threads i).Consumed nonce issuedAt

/-- What the argument needs to know of one thread. -/
structure ThreadOk (s : Writers) (nonce : Bytes) (issuedAt : Int64) (i : ℕ) (phase : ThreadPhase) :
    Prop where
  mutex : phase.critical → s.lock = some i
  fresh : ∀ call n now, phase.verdict = some (call, n, now) → n.val = call.body.nonce ∧
    now.toInt - call.body.issuedAt.toInt ≤ REVOKE_CLOCK_WINDOW.toInt
  snapshot : s.Used nonce issuedAt → ∀ state, phase.snapshot = some state →
    ⟨hexEncode nonce, issuedAt⟩ ∈ state.consumedRevocations ∨ s.Spent nonce issuedAt
  loaded : s.Used nonce issuedAt → ∀ call n now state stamp,
    phase = .loaded call n now state stamp → call.Names nonce issuedAt →
    ⟨hexEncode nonce, issuedAt⟩ ∈ state.consumedRevocations
  first : phase.Consumed nonce issuedAt → s.timesApplied nonce issuedAt = 0

/-- **The invariant for single use.**  A used revocation is on file, or spent; and it has been
applied at most once. -/
structure OnceInv (nonce : Bytes) (issuedAt : Int64) (s : Writers) : Prop where
  once : s.timesApplied nonce issuedAt ≤ 1
  onFile : s.Used nonce issuedAt →
    ⟨hexEncode nonce, issuedAt⟩ ∈ s.entries ∨ s.Spent nonce issuedAt
  threads : ∀ i, s.ThreadOk nonce issuedAt i (s.threads i)

section Once

variable {crypto hostDeviceId} {nonce : Bytes} {issuedAt : Int64} {s s' : Writers}

/-- A thread that does not hold the lock has nothing at stake. -/
theorem ThreadOk.of_not_critical {j : ℕ} {phase : ThreadPhase}
    (h : s.ThreadOk nonce issuedAt j phase) (hfree : ¬phase.critical) :
    s'.ThreadOk nonce issuedAt j phase where
  mutex hcritical := absurd hcritical hfree
  fresh := h.fresh
  snapshot _ _ hstate := absurd (ThreadPhase.critical_of_snapshot hstate) hfree
  loaded _ _ _ _ _ _ hphase _ := absurd (by rw [hphase]; trivial) hfree
  first hconsumed := absurd (ThreadPhase.critical_of_consumed hconsumed) hfree

theorem ThreadOk.idle (j : ℕ) : s.ThreadOk nonce issuedAt j .idle where
  mutex h := h.elim
  fresh _ _ _ h := by cases h
  snapshot _ _ h := by cases h
  loaded _ _ _ _ _ _ h _ := by cases h
  first h := h.elim

/-- While one thread holds the lock, no other one is in the critical section. -/
theorem OnceInv.free_of_ne (h : OnceInv nonce issuedAt s) {i j : ℕ}
    (hcritical : (s.threads i).critical) (hne : j ≠ i) : ¬(s.threads j).critical := by
  intro hj
  have hi := (h.threads i).mutex hcritical
  have hj := (h.threads j).mutex hj
  rw [hi] at hj
  exact hne (Option.some.inj hj).symm

/-- **Moves that leave the file alone.**  One thread changes its phase, and what is spent stays
spent. -/
theorem OnceInv.move (h : OnceInv nonce issuedAt s) (i : ℕ) (phase : ThreadPhase)
    (hthreads : s'.threads = fun j => if j = i then phase else s.threads j)
    (hfile : s'.file = s.file) (hclock : s.clock.toInt ≤ s'.clock.toInt)
    (hcount : s'.timesApplied nonce issuedAt = s.timesApplied nonce issuedAt)
    (hlock : ∀ j, j ≠ i → s.lock = some j → s'.lock = some j)
    (hneeds : phase.Needs nonce issuedAt → (s.threads i).Needs nonce issuedAt ∨
      s.clock.toInt - issuedAt.toInt ≤ REVOKE_CLOCK_WINDOW.toInt)
    (hconsumed : phase.Consumed nonce issuedAt → (s.threads i).Consumed nonce issuedAt)
    (hok : (s'.Used nonce issuedAt → s.Used nonce issuedAt) →
      (s.Spent nonce issuedAt → s'.Spent nonce issuedAt) → s'.ThreadOk nonce issuedAt i phase) :
    OnceInv nonce issuedAt s' := by
  -- nobody has come to use the revocation, and it is as spent as it was
  have hused : s'.Used nonce issuedAt → s.Used nonce issuedAt := by
    rintro (hpos | ⟨j, hj⟩)
    · exact .inl (hcount ▸ hpos)
    · rw [hthreads] at hj
      dsimp only at hj
      split at hj
      · exact .inr ⟨i, hconsumed hj⟩
      · exact .inr ⟨j, hj⟩
  have hspent : s.Spent nonce issuedAt → s'.Spent nonce issuedAt := by
    rintro ⟨hpast, hnone⟩
    refine ⟨by omega, ?_⟩
    intro j hj
    rw [hthreads] at hj
    dsimp only at hj
    split at hj
    · rcases hneeds hj with hi | hi
      · exact hnone i hi
      · omega
    · exact hnone j hj
  refine ⟨hcount ▸ h.once, ?_, ?_⟩
  · intro hu
    rw [entries, hfile]
    exact (h.onFile (hused hu)).imp id hspent
  · intro j
    rw [hthreads]
    dsimp only
    split
    · rename_i hj
      exact hj ▸ hok hused hspent
    · rename_i hj
      have hold := h.threads j
      exact {
        mutex := fun hcritical => hlock j hj (hold.mutex hcritical)
        fresh := hold.fresh
        snapshot := fun hu state hstate => (hold.snapshot (hused hu) state hstate).imp id hspent
        loaded := fun hu => hold.loaded (hused hu)
        first := fun hc => hcount ▸ hold.first hc }

/-- **Saves by a command.**  The threads do not move, and every nonce on file is in the snapshot or
spent. -/
theorem OnceInv.save (h : OnceInv nonce issuedAt s) (hthreads : s'.threads = s.threads)
    (hclock : s'.clock = s.clock) (hlock : s'.lock = s.lock)
    (hcount : s'.timesApplied nonce issuedAt = s.timesApplied nonce issuedAt)
    (hentries : ⟨hexEncode nonce, issuedAt⟩ ∈ s.entries →
      ⟨hexEncode nonce, issuedAt⟩ ∈ s'.entries ∨ s.Spent nonce issuedAt) :
    OnceInv nonce issuedAt s' := by
  have hused : s'.Used nonce issuedAt → s.Used nonce issuedAt := by
    intro hu
    rw [Used, hcount, hthreads] at hu
    exact hu
  have hspent : s.Spent nonce issuedAt → s'.Spent nonce issuedAt := by
    intro hs
    rw [Spent, hclock, hthreads]
    exact hs
  refine ⟨hcount ▸ h.once, ?_, ?_⟩
  · intro hu
    rcases h.onFile (hused hu) with hmem | hs
    · exact (hentries hmem).imp id hspent
    · exact .inr (hspent hs)
  · intro j
    have hold := h.threads j
    rw [hthreads]
    exact {
      mutex := fun hcritical => hlock ▸ hold.mutex hcritical
      fresh := hold.fresh
      snapshot := fun hu state hstate => (hold.snapshot (hused hu) state hstate).imp id hspent
      loaded := fun hu => hold.loaded (hused hu)
      first := fun hc => hcount ▸ hold.first hc }

/-- **Recording a nonce.**  The thread's own nonce goes on file; the others in its snapshot stay,
unless their window has passed. -/
theorem OnceInv.consume (h : OnceInv nonce issuedAt s) (htimed : s.Timed) {i : ℕ}
    {call : RevokeCall} {n : Key32} {now : Int64} {state : StateFile} {stamp : ℕ}
    (hphase : s.threads i = .loaded call n now state stamp) (hnew : state.hasNonce n = false)
    (hcond : s.KeepsNeeded (.consume i none))
    (hcount : s'.timesApplied nonce issuedAt = s.timesApplied nonce issuedAt)
    (hthreads : s'.threads = fun j => if j = i then
      .consumed call n now (state.recordNonce n call.body.issuedAt now REVOKE_CLOCK_WINDOW)
        (s.stamp + 1) else s.threads j)
    (hclock : s'.clock = s.clock) (hlock : s'.lock = s.lock)
    (hentries : s'.entries =
      (state.recordNonce n call.body.issuedAt now REVOKE_CLOCK_WINDOW).consumedRevocations) :
    OnceInv nonce issuedAt s' := by
  have hi := h.threads i
  have hcritical : (s.threads i).critical := by rw [hphase]; trivial
  have hnow := htimed i now (by rw [hphase]; rfl)
  rw [hphase] at hi
  obtain ⟨hn, hfresh⟩ := hi.fresh call n now rfl
  -- a revocation used after the step is the thread's own, or was used before and is kept
  have hkept : s'.Used nonce issuedAt →
      ⟨hexEncode nonce, issuedAt⟩ ∈
        (state.recordNonce n call.body.issuedAt now REVOKE_CLOCK_WINDOW).consumedRevocations ∨
      s'.Spent nonce issuedAt := by
    intro hu
    rw [StateFile.mem_recordNonce (by decide)]
    by_cases hnames : call.Names nonce issuedAt
    · exact .inl (.inr (by rw [hn, hnames.1, hnames.2]))
    · have hused : s.Used nonce issuedAt := by
        rcases hu with hpos | ⟨j, hj⟩
        · exact .inl (hcount ▸ hpos)
        · rw [hthreads] at hj
          dsimp only at hj
          split at hj
          · exact absurd hj hnames
          · exact .inr ⟨j, hj⟩
      have hneeds : ∀ j, (s'.threads j).Needs nonce issuedAt →
          (s.threads j).Needs nonce issuedAt := by
        intro j hj
        rw [hthreads] at hj
        dsimp only at hj
        split at hj
        · exact hj.elim
        · exact hj
      rcases hi.snapshot hused state rfl with hmem | ⟨hpast, hnone⟩
      · by_cases hwindow : now.toInt - issuedAt.toInt ≤ REVOKE_CLOCK_WINDOW.toInt
        · exact .inl (.inl ⟨hmem, hwindow⟩)
        · right
          refine ⟨by rw [hclock]; omega, fun j hj => ?_⟩
          exact hcond call n now state stamp hphase hnew nonce issuedAt hmem (by omega) j
            (hneeds j hj)
      · exact .inr ⟨by rw [hclock]; exact hpast, fun j hj => hnone j (hneeds j hj)⟩
  refine ⟨hcount ▸ h.once, ?_, ?_⟩
  · intro hu
    rw [hentries]
    exact hkept hu
  · intro j
    rw [hthreads]
    dsimp only
    split
    · rename_i hj
      subst hj
      exact {
        mutex := fun _ => hlock ▸ hi.mutex trivial
        fresh := fun call' n' now' hv => by cases hv; exact ⟨hn, hfresh⟩
        snapshot := fun hu state' hstate' => by cases hstate'; exact hkept hu
        loaded := fun _ _ _ _ _ _ hphase' _ => by cases hphase'
        first := fun hnames => by
          rw [hcount]
          by_contra hpos
          -- it would have been on file when the thread loaded it
          have hmem := hi.loaded (.inl (Nat.pos_of_ne_zero hpos)) call n now state stamp rfl hnames
          rw [← hnames.1, ← hn] at hmem
          rw [StateFile.hasNonce_of_mem hmem] at hnew
          cases hnew }
    · rename_i hj
      exact (h.threads j).of_not_critical (h.free_of_ne hcritical hj)

/-- **Removing the pin.**  The thread's revocation is applied, for the first time; the file keeps
the nonces of the thread's snapshot. -/
theorem OnceInv.remove (h : OnceInv nonce issuedAt s) {i : ℕ} {call : RevokeCall} {n : Key32}
    {now : Int64} {state : StateFile} {stamp : ℕ}
    (hphase : s.threads i = .consumed call n now state stamp)
    (hcount : s'.timesApplied nonce issuedAt =
      s.timesApplied nonce issuedAt + if call.Names nonce issuedAt then 1 else 0)
    (hthreads : s'.threads = fun j => if j = i then .idle else s.threads j)
    (hclock : s'.clock = s.clock) (hentries : s'.entries = state.consumedRevocations) :
    OnceInv nonce issuedAt s' := by
  have hi := h.threads i
  have hcritical : (s.threads i).critical := by rw [hphase]; trivial
  rw [hphase] at hi
  -- what is applied now had been recorded by this thread
  have hused : s'.Used nonce issuedAt → s.Used nonce issuedAt := by
    rintro (hpos | ⟨j, hj⟩)
    · by_cases hnames : call.Names nonce issuedAt
      · exact .inr ⟨i, by rw [hphase]; exact hnames⟩
      · rw [hcount, if_neg hnames] at hpos
        exact .inl hpos
    · rw [hthreads] at hj
      dsimp only at hj
      split at hj
      · exact hj.elim
      · exact .inr ⟨j, hj⟩
  have hspent : s.Spent nonce issuedAt → s'.Spent nonce issuedAt := by
    rintro ⟨hpast, hnone⟩
    refine ⟨by rw [hclock]; exact hpast, fun j hj => ?_⟩
    rw [hthreads] at hj
    dsimp only at hj
    split at hj
    · exact hj.elim
    · exact hnone j hj
  refine ⟨?_, ?_, ?_⟩
  · rw [hcount]
    split
    · rename_i hnames
      rw [hi.first hnames]
    · exact h.once
  · intro hu
    rw [hentries]
    exact (hi.snapshot (hused hu) state rfl).imp id hspent
  · intro j
    rw [hthreads]
    dsimp only
    split
    · exact ThreadOk.idle j
    · rename_i hj
      exact (h.threads j).of_not_critical (h.free_of_ne hcritical hj)

/-- A thread that holds the lock and answers with a refusal. -/
theorem OnceInv.refuse (h : OnceInv nonce issuedAt s) {i : ℕ} (hcritical : (s.threads i).critical)
    (call : RevokeCall) (refusal : RevocationRefusal) :
    OnceInv nonce issuedAt (s.refuse i call refusal) := by
  have hlock := (h.threads i).mutex hcritical
  refine h.move i .idle rfl rfl le_rfl ?_ ?_ (fun hn => hn.elim) (fun hc => hc.elim)
    (fun _ _ => ThreadOk.idle i)
  · simp [timesApplied, Writers.refuse]
  · intro j hj hlock'
    rw [hlock] at hlock'
    exact absurd (Option.some.inj hlock').symm hj

/-- A process that moves without saving. -/
theorem OnceInv.setProcess (h : OnceInv nonce issuedAt s) (p : ℕ) (phase : ProcessPhase) :
    OnceInv nonce issuedAt (s.setProcess p phase) :=
  h.save rfl rfl rfl rfl fun hmem => .inl hmem

/-- **What one step keeps**, under the condition. -/
theorem onceInv_step (h : OnceInv nonce issuedAt s) (htimed : s.Timed) {a : WriterAction}
    (hcond : s.KeepsNeeded a) (hstep : step crypto hostDeviceId s a = some s') :
    OnceInv nonce issuedAt s' := by
  cases step_cases crypto hostDeviceId hstep with
  | tick hle =>
      rw [Int64.le_iff_toInt_le] at hle
      refine h.move 0 (s.threads 0) ?_ rfl hle rfl (fun _ _ hl => hl) .inl id ?_
      · funext j
        split
        · rename_i hj
          rw [hj]
        · rfl
      · intro hused hspent
        have hold := h.threads 0
        exact {
          mutex := hold.mutex
          fresh := hold.fresh
          snapshot := fun hu state hst => (hold.snapshot (hused hu) state hst).imp id hspent
          loaded := fun hu => hold.loaded (hused hu)
          first := hold.first }
  | @clocked i call now hphase hle =>
      rw [Int64.le_iff_toInt_le] at hle
      refine h.move i (.clocked call now) rfl rfl hle rfl (fun _ _ hl => hl) ?_
        (fun hc => hc.elim) ?_
      · rintro ⟨-, hwindow⟩
        exact .inr (by omega)
      · intro _ _
        exact {
          mutex := fun hc => hc.elim
          fresh := fun _ _ _ hv => by cases hv
          snapshot := fun _ _ hst => by cases hst
          loaded := fun _ _ _ _ _ _ hph _ => by cases hph
          first := fun hc => hc.elim }
  | @rejected i call now reason hphase =>
      exact h.move i .idle rfl rfl le_rfl (by simp [timesApplied]) (fun _ _ hl => hl)
        (fun hn => hn.elim) (fun hc => hc.elim) (fun _ _ => ThreadOk.idle i)
  | @verified i call n now hphase hverify =>
      obtain ⟨hn, hwindow⟩ := verifyRevocation_eq_ok hverify
      refine h.move i (.verified call n now) rfl rfl le_rfl rfl (fun _ _ hl => hl) ?_
        (fun hc => hc.elim) ?_
      · intro hneeds
        rw [hphase]
        exact .inl hneeds
      · intro _ _
        exact {
          mutex := fun hc => hc.elim
          fresh := fun _ _ _ hv => by cases hv; exact ⟨hn.symm, le_of_abs_le hwindow⟩
          snapshot := fun _ _ hst => by cases hst
          loaded := fun _ _ _ _ _ _ hph _ => by cases hph
          first := fun hc => hc.elim }
  | @acquired i call n now hphase hlock =>
      have hold := h.threads i
      rw [hphase] at hold
      refine h.move i (.locked call n now) rfl rfl le_rfl rfl ?_ ?_ (fun hc => hc.elim) ?_
      · intro j _ hl
        rw [hlock] at hl
        cases hl
      · intro hneeds
        rw [hphase]
        exact .inl hneeds
      · intro _ _
        exact {
          mutex := fun _ => rfl
          fresh := hold.fresh
          snapshot := fun _ _ hst => by cases hst
          loaded := fun _ _ _ _ _ _ hph _ => by cases hph
          first := fun hc => hc.elim }
  | refused hwriter hcritical => exact h.refuse hcritical _ _
  | @loaded i call n now state hphase hfile =>
      have hold := h.threads i
      rw [hphase] at hold
      have hentries : s.entries = state.consumedRevocations := by rw [entries, hfile]
      refine h.move i (.loaded call n now state s.stamp) rfl rfl le_rfl rfl (fun _ _ hl => hl)
        (fun hn => hn.elim) (fun hc => hc.elim) ?_
      intro hused hspent
      exact {
        mutex := hold.mutex
        fresh := hold.fresh
        snapshot := fun hu state' hst => by
          cases hst
          rw [← hentries]
          exact (h.onFile (hused hu)).imp id hspent
        loaded := fun hu call' _ _ _ _ hph hnames => by
          cases hph
          rcases h.onFile (hused hu) with hmem | ⟨-, hnone⟩
          · rwa [← hentries]
          · -- the thread itself still needed the nonce on file
            have hfresh := (hold.fresh call n now rfl).2
            rw [hnames.2] at hfresh
            exact absurd (by rw [hphase]; exact ⟨hnames, hfresh⟩) (hnone i)
        first := fun hc => hc.elim }
  | recorded hphase hnew =>
      exact h.consume htimed hphase hnew hcond (by simp [timesApplied]) rfl rfl rfl rfl
  | applied hphase =>
      exact h.remove hphase (by simp [timesApplied, List.countP_cons]) rfl rfl rfl
  | opened | missing | exited => exact h.setProcess _ _
  | @created p command state stamp hphase =>
      exact h.save rfl rfl rfl rfl (hcond state (by rw [hphase]; rfl) nonce issuedAt)
  | @relaySet p relay state stamp hphase =>
      exact h.save rfl rfl rfl rfl (hcond state (by rw [hphase]; rfl) nonce issuedAt)
  | @paired p peer state stamp hphase =>
      exact h.save rfl rfl rfl (by simp [timesApplied])
        (hcond state (by rw [hphase]; rfl) nonce issuedAt)
  | @unpaired p selector state stamp hphase =>
      exact h.save rfl rfl rfl (by simp [timesApplied])
        (hcond state (by rw [hphase]; rfl) nonce issuedAt)
  | restarted =>
      refine ⟨h.once, ?_, fun i => ThreadOk.idle i⟩
      rintro (hpos | ⟨i, hi⟩)
      · refine (h.onFile (.inl hpos)).imp id ?_
        rintro ⟨hpast, -⟩
        exact ⟨hpast, fun i hi => hi.elim⟩
      · exact hi.elim

theorem onceInv_init (file : Option StateFile) (clock : Int64) :
    OnceInv nonce issuedAt (init file clock) := by
  refine ⟨Nat.zero_le 1, ?_, fun i => ThreadOk.idle i⟩
  rintro (hpos | ⟨i, hi⟩)
  · cases hpos
  · exact hi.elim

end Once

/-- **A revocation is single use, in every run whose saves keep what is needed.**  Session threads,
restarts and commands interleave in any way and every load and save may fail; the host clock never
goes back.  Then `apply` is answered with success at most once for a given nonce and time of
issue. -/
theorem applied_at_most_once (crypto : Crypto) (hostDeviceId : Uuid) (file : Option StateFile)
    (clock : Int64) (actions : List WriterAction) (s : Writers)
    (hmeets : Meets (step crypto hostDeviceId) KeepsNeeded (init file clock) actions)
    (hrun : run (step crypto hostDeviceId) (init file clock) actions = some s) (nonce : Bytes)
    (issuedAt : Int64) : s.timesApplied nonce issuedAt ≤ 1 := by
  have hinv : s.Timed ∧ OnceInv nonce issuedAt s := by
    refine run_invariant (I := fun s => s.Timed ∧ OnceInv nonce issuedAt s) ?_
      ⟨timed_init file clock, onceInv_init file clock⟩ hmeets hrun
    rintro s a t ⟨htimed, h⟩ hcond hstep
    exact ⟨(timed_step htimed hstep).2, onceInv_step h htimed hcond hstep⟩
  exact hinv.2.once

/-- The whole of `apply` by one thread, undisturbed. -/
def applyActions (i : ℕ) (call : RevokeCall) (now : Int64) : List WriterAction :=
  [.readClock i call now, .verify i, .acquire i, .load i none, .consume i none, .remove i none]

/-- One thread applies a revocation. -/
theorem applied_at_most_once_single :
    ∃ s, run (step toyCrypto (toyUuid 9)) (init (some toyFile) 0)
        (applyActions 0 (toyCall 1 1000) 1000) = some s ∧
      s.timesApplied (toyNonce 1) 1000 ≤ 1 := by
  have hmeets : Meets (step toyCrypto (toyUuid 9)) KeepsNeeded (init (some toyFile) 0)
      (applyActions 0 (toyCall 1 1000) 1000) := by
    refine meets_cons trivial rfl (meets_cons trivial rfl (meets_cons trivial rfl
      (meets_cons trivial rfl (meets_cons ?_ rfl (meets_cons trivial rfl trivial)))))
    intro call n now state stamp hphase _ nonce issuedAt hmem
    cases hphase
    cases hmem
  exact ⟨_, rfl, applied_at_most_once _ _ _ _ _ _ hmeets rfl _ _⟩

/-- **A revocation applied twice.**  Thread 0 reads the clock on the last millisecond of the window
and waits for the lock; thread 1 applies the same revocation; a millisecond later thread 2 applies
another peer's and prunes the nonce; then thread 0 takes the lock and finds it gone. -/
theorem applied_twice :
    ∃ s, run (step toyCrypto (toyUuid 9)) (init (some toyFile) 0)
        (([.readClock 0 (toyCall 1 1000) 301000, .verify 0] : List WriterAction) ++
          applyActions 1 (toyCall 1 1000) 301000 ++ applyActions 2 (toyCall 2 301001) 301001 ++
          ([.acquire 0, .load 0 none, .consume 0 none, .remove 0 none] : List WriterAction)) =
          some s ∧
      s.timesApplied (toyNonce 1) 1000 = 2 := by
  refine ⟨_, rfl, ?_⟩
  decide

end Writers

end Osprey
