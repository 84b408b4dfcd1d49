/-
**What the relay's rate limiter answers.**

`relay/src/http/rateLimit.ts` over any sequence of `consume` and `check` on any keys.  What becomes
of one key is a `FixedWindow` counter whose requests are the `consume`s of that key alone: neither
the other keys nor the checks nor the eviction of windows that have expired can be told from the
answers.

Main definitions:

* `Osprey.Relay.LimiterCall`, `Osprey.Relay.answerAfter` — a call, and its answer after others;
* `Osprey.Relay.RateLimiter.consumeUnevicted` — `consume` without the eviction, to compare with;
* `Osprey.Relay.RateLimiter.successes` — the times of the `consume`s of a key that succeed.

Main results:

* `Osprey.Relay.RateLimiter.Follows.consume` — `consume` takes from the counter of its key;
* `Osprey.Relay.RateLimiter.Follows.successes` — what succeeds is what the counter grants;
* `Osprey.Relay.limiter_laws` — **the laws of the limiter**.
-/

import Osprey.FixedWindow
import Osprey.RateLimit

set_option relaxedAutoImplicit false
set_option autoImplicit false

namespace Osprey.Relay

/-! ### Calls -/

inductive LimiterCall
  | consume (key : Text) (now : Date)
  | check (key : Text) (now : Date)
  deriving DecidableEq

namespace LimiterCall

def key : LimiterCall → Text
  | consume key _ => key
  | check key _ => key

def time : LimiterCall → Date
  | consume _ now => now
  | check _ now => now

/-- When the call consumes one unit of the key. -/
def consumes (key : Text) : LimiterCall → Option Date
  | consume key' now => if key' = key then some now else none
  | check .. => none

end LimiterCall

/-- The times at which the key was consumed. -/
def consumed (key : Text) (calls : List LimiterCall) : List Date :=
  calls.filterMap (LimiterCall.consumes key)

/-- The clock does not go back. -/
def Ordered (calls : List LimiterCall) : Prop := calls.Pairwise fun c d => c.time ≤ d.time

/-- A way to do `consume`. -/
abbrev Consuming := RateLimiter → Text → Date → Bool × RateLimiter

def LimiterCall.answer (consume : Consuming) (limiter : RateLimiter) :
    LimiterCall → Bool × RateLimiter
  | .consume key now => consume limiter key now
  | .check key now => (limiter.check key now, limiter)

def afterCalls (consume : Consuming) (limiter : RateLimiter) (calls : List LimiterCall) :
    RateLimiter :=
  calls.foldl (fun limiter call => (call.answer consume limiter).2) limiter

/-- What a call returns after other calls. -/
def answerAfter (consume : Consuming) (limiter : RateLimiter) (done : List LimiterCall)
    (call : LimiterCall) : Bool :=
  (call.answer consume (afterCalls consume limiter done)).1

namespace RateLimiter

/-- `consume` as it would be if it did not call `evictExpired`. -/
def consumeUnevicted (limiter : RateLimiter) (key : Text) (now : Date) : Bool × RateLimiter :=
  let opened := (decide (limiter.limit ≥ 1),
    { limiter with windows := limiter.windows.insert key ⟨1, now + limiter.windowMs⟩ })
  match limiter.windows.lookup key with
  | none => opened
  | some existing =>
      if existing.expiresAt ≤ now then opened
      else
        (decide (existing.count + 1 ≤ limiter.limit),
          { limiter with
            windows := limiter.windows.insert key { existing with count := existing.count + 1 } })

/-- The times of the calls of `consume` on the key that succeed. -/
def successes (key : Text) : RateLimiter → List LimiterCall → List Date
  | _, [] => []
  | limiter, .check .. :: calls => limiter.successes key calls
  | limiter, .consume key' now :: calls =>
      let (granted, next) := limiter.consume key' now
      if key' = key ∧ granted then now :: next.successes key calls else next.successes key calls

/-! ### The counter of a key -/

end RateLimiter

def Window.counter (window : Window) : FixedWindow.Counter := ⟨window.count, window.expiresAt⟩

namespace RateLimiter

variable {limiter next : RateLimiter} {key : Text} {now later : Date}
  {counter : Option FixedWindow.Counter}

/-- From `now` on, the window of the key that is under way is that of the counter. -/
def Follows (limiter : RateLimiter) (key : Text) (now : Date)
    (counter : Option FixedWindow.Counter) : Prop :=
  ∀ later, now ≤ later → (limiter.current key later).map Window.counter
    = counter.filter fun window => later < window.ends

/-- From `now` on, the limiter is another one with the window of one key charged. -/
structure Charges (limiter : RateLimiter) (key : Text) (now : Date) (next : RateLimiter) :
    Prop where
  limit : next.limit = limiter.limit
  windowMs : next.windowMs = limiter.windowMs
  current : ∀ k later, now ≤ later → next.current k later
    = if k = key then (some (limiter.charged key now)).filter fun window => later < window.expiresAt
      else limiter.current k later

/-- What `consume` does without the eviction. -/
theorem consumeUnevicted_eq (limiter : RateLimiter) (key : Text) (now : Date) :
    limiter.consumeUnevicted key now
      = (decide ((limiter.charged key now).count ≤ limiter.limit),
        { limiter with windows := limiter.windows.insert key (limiter.charged key now) }) := by
  cases hlookup : limiter.windows.lookup key with
  | none =>
      have hcharged : limiter.charged key now = ⟨1, now + limiter.windowMs⟩ := by
        simp [charged, RateLimiter.current, hlookup]
      rw [hcharged]
      simp only [consumeUnevicted, hlookup]
  | some existing =>
      by_cases hlive : now < existing.expiresAt
      · have hcharged : limiter.charged key now = ⟨existing.count + 1, existing.expiresAt⟩ := by
          simp [charged, RateLimiter.current, hlookup, Option.filter_some, hlive]
        rw [hcharged]
        simp only [consumeUnevicted, hlookup, if_neg (not_le.mpr hlive)]
      · have hcharged : limiter.charged key now = ⟨1, now + limiter.windowMs⟩ := by
          simp [charged, RateLimiter.current, hlookup, Option.filter_some, hlive]
        rw [hcharged]
        simp only [consumeUnevicted, hlookup, if_pos (not_lt.mp hlive)]

theorem charges_consumeUnevicted (limiter : RateLimiter) (key : Text) (now : Date) :
    limiter.Charges key now (limiter.consumeUnevicted key now).2 := by
  rw [consumeUnevicted_eq]
  refine ⟨rfl, rfl, ?_⟩
  intro k later hlater
  rw [RateLimiter.current]
  split
  · rename_i hkey
    rw [hkey, AList.lookup_insert]
  · rename_i hkey
    rw [AList.lookup_insert_ne hkey]
    rfl

/-- The limiter without the windows that have expired. -/
def evicted (limiter : RateLimiter) (now : Date) : RateLimiter :=
  { limiter with windows := limiter.evictExpired now }

theorem consume_eq (limiter : RateLimiter) (key : Text) (now : Date) :
    limiter.consume key now = (limiter.evicted now).consumeUnevicted key now := rfl

/-- No window that is under way is evicted. -/
theorem current_evicted (limiter : RateLimiter) (key : Text) (hlater : now ≤ later) :
    (limiter.evicted now).current key later = limiter.current key later := by
  simp only [RateLimiter.current, evicted, lookup_evictExpired, Option.filter_filter]
  congr 1
  funext window
  rw [Bool.and_eq_right_iff_imp]
  simp only [decide_eq_true_eq]
  exact fun h => lt_of_le_of_lt hlater h

theorem charged_evicted (limiter : RateLimiter) (key : Text) (now : Date) :
    (limiter.evicted now).charged key now = limiter.charged key now := by
  rw [charged, charged, current_evicted limiter key le_rfl]
  rfl

theorem charges_consume (limiter : RateLimiter) (key : Text) (now : Date) :
    limiter.Charges key now (limiter.consume key now).2 := by
  obtain ⟨hlimit, hwindow, hcurrent⟩ := charges_consumeUnevicted (limiter.evicted now) key now
  refine ⟨hlimit, hwindow, ?_⟩
  intro k later hlater
  rw [consume_eq, hcurrent k later hlater, charged_evicted, current_evicted limiter k hlater]

/-- What `consume` answers. -/
theorem consume_fst (limiter : RateLimiter) (key : Text) (now : Date) :
    (limiter.consume key now).1 = decide ((limiter.charged key now).count ≤ limiter.limit) := by
  rw [consume_eq, consumeUnevicted_eq, charged_evicted]
  rfl

/-- A counter has taken what its window has been charged. -/
theorem Follows.counter_charged (h : limiter.Follows key now counter) :
    (limiter.charged key now).counter = FixedWindow.take limiter.windowMs counter now := by
  rw [← FixedWindow.take_filter, ← h now le_rfl, charged]
  cases hcurrent : limiter.current key now with
  | none => rfl
  | some window =>
      have hlive := (current_eq_some.mp hcurrent).2
      rw [Option.map_some, FixedWindow.take_of_lt hlive]
      rfl

theorem Follows.mono (h : limiter.Follows key now counter) (hlater : now ≤ later) :
    limiter.Follows key later counter := fun latest hlatest => h latest (hlater.trans hlatest)

/-- Charging the window takes from the counter of its key. -/
theorem Follows.of_charges (h : limiter.Follows key now counter)
    (hcharges : limiter.Charges key now next) :
    next.Follows key now (some (FixedWindow.take limiter.windowMs counter now)) := by
  intro later hlater
  rw [hcharges.current key later hlater, if_pos rfl, ← h.counter_charged]
  by_cases hlive : later < (limiter.charged key now).expiresAt
  · simp [Option.filter_some, Window.counter, hlive]
  · simp [Option.filter_some, Window.counter, hlive]

/-- Charging the window of another key does not. -/
theorem Follows.of_charges_ne {k : Text} (h : limiter.Follows key now counter)
    (hcharges : limiter.Charges k now next) (hne : key ≠ k) : next.Follows key now counter := by
  intro later hlater
  rw [hcharges.current key later hlater, if_neg hne]
  exact h later hlater

/-! ### One call -/

/-- The way to do `consume` answers as the window says, and charges it. -/
structure Counting (consume : Consuming) : Prop where
  fst : ∀ limiter key now, (consume limiter key now).1
    = decide ((RateLimiter.charged limiter key now).count ≤ limiter.limit)
  charges : ∀ limiter key now, Charges limiter key now (consume limiter key now).2

theorem counting_consume : Counting RateLimiter.consume := ⟨consume_fst, charges_consume⟩

theorem counting_consumeUnevicted : Counting RateLimiter.consumeUnevicted where
  fst limiter key now := by rw [consumeUnevicted_eq]
  charges := charges_consumeUnevicted

/-- A `check` answers what a `consume` would. -/
theorem check_eq (limiter : RateLimiter) (hwindow : 0 < limiter.windowMs) (key : Text)
    (now : Date) :
    limiter.check key now = decide ((limiter.charged key now).count ≤ limiter.limit) := by
  rw [Bool.eq_iff_iff, check_eq_true, decide_eq_true_eq, (charged_count limiter hwindow key now).1]
  omega

variable {consume : Consuming}

/-- A call takes from the counter of a key what it consumes of the key. -/
theorem Follows.answer (hcounting : Counting consume) {call : LimiterCall}
    (h : limiter.Follows key call.time counter) :
    (call.answer consume limiter).2.Follows key call.time
      (FixedWindow.after limiter.windowMs counter (call.consumes key).toList) := by
  cases call with
  | consume k now =>
      have hcharges := hcounting.charges limiter k now
      by_cases hkey : k = key
      · subst hkey
        simp only [LimiterCall.consumes, if_pos, Option.toList_some]
        exact h.of_charges hcharges
      · simp only [LimiterCall.consumes, if_neg hkey, Option.toList_none]
        exact h.of_charges_ne hcharges (Ne.symm hkey)
  | check k now => exact h

theorem answer_limit (hcounting : Counting consume) (limiter : RateLimiter) (call : LimiterCall) :
    (call.answer consume limiter).2.limit = limiter.limit ∧
      (call.answer consume limiter).2.windowMs = limiter.windowMs := by
  cases call with
  | consume key now =>
      have hcharges := hcounting.charges limiter key now
      exact ⟨hcharges.limit, hcharges.windowMs⟩
  | check key now => exact ⟨rfl, rfl⟩

/-! ### Runs -/

theorem afterCalls_concat (consume : Consuming) (limiter : RateLimiter) (done : List LimiterCall)
    (call : LimiterCall) : afterCalls consume limiter (done ++ [call])
      = (call.answer consume (afterCalls consume limiter done)).2 := by
  simp [afterCalls]

theorem afterCalls_limit (hcounting : Counting consume) (limit windowMs : ℤ)
    (done : List LimiterCall) :
    (afterCalls consume (createFixedWindowLimiter limit windowMs) done).limit = limit ∧
      (afterCalls consume (createFixedWindowLimiter limit windowMs) done).windowMs = windowMs := by
  induction done using List.reverseRecOn with
  | nil => exact ⟨rfl, rfl⟩
  | append_singleton done call ih =>
      have hcall := answer_limit hcounting
        (afterCalls consume (createFixedWindowLimiter limit windowMs) done) call
      rw [afterCalls_concat]
      exact ⟨hcall.1.trans ih.1, hcall.2.trans ih.2⟩

theorem ordered_concat {done : List LimiterCall} {call : LimiterCall} :
    Ordered (done ++ [call]) ↔ Ordered done ∧ ∀ earlier ∈ done, earlier.time ≤ call.time := by
  simp [Ordered, List.pairwise_append]

theorem consumed_concat (key : Text) (done : List LimiterCall) (call : LimiterCall) :
    consumed key (done ++ [call]) = consumed key done ++ (call.consumes key).toList := by
  simp only [consumed, List.filterMap_append, List.filterMap_cons, List.filterMap_nil]
  cases call.consumes key <;> rfl

theorem ordered_consumed {calls : List LimiterCall} (hcalls : Ordered calls) (key : Text) :
    (consumed key calls).Pairwise (· ≤ ·) := by
  have htime (call : LimiterCall) (t : Date) (h : call.consumes key = some t) : t = call.time := by
    cases call with
    | consume k now =>
        simp only [LimiterCall.consumes] at h
        split at h
        · cases h
          rfl
        · cases h
    | check k now => cases h
  refine List.Pairwise.filterMap _ ?_ hcalls
  intro earlier call hle t ht t' ht'
  rw [htime earlier t ht, htime call t' ht']
  exact hle

theorem consumed_filter (key : Text) (done : List LimiterCall) :
    consumed key (done.filter fun call => call.key = key) = consumed key done := by
  rw [consumed, consumed, List.filterMap_filter]
  congr 1
  funext call
  cases call with
  | consume k now =>
      by_cases hkey : k = key
      · simp [LimiterCall.key, hkey]
      · simp [LimiterCall.key, LimiterCall.consumes, hkey]
  | check k now => simp [LimiterCall.consumes]

/-- After any calls, a key is what its own calls of `consume` have made of it. -/
theorem follows_afterCalls (hcounting : Counting consume) (limit windowMs : ℤ) (key : Text)
    {done : List LimiterCall} (hdone : Ordered done) {now : Date}
    (hnow : ∀ call ∈ done, call.time ≤ now) :
    (afterCalls consume (createFixedWindowLimiter limit windowMs) done).Follows key now
      (FixedWindow.after windowMs none (consumed key done)) := by
  induction done using List.reverseRecOn generalizing now with
  | nil =>
      intro later _
      simp [afterCalls, createFixedWindowLimiter, RateLimiter.current, consumed, FixedWindow.after]
  | append_singleton done call ih =>
      obtain ⟨hdone, hearlier⟩ := ordered_concat.mp hdone
      have hwindow := (afterCalls_limit hcounting limit windowMs done).2
      have hcall := (ih hdone hearlier).answer hcounting
      rw [afterCalls_concat, consumed_concat, FixedWindow.after_append]
      rw [hwindow] at hcall
      exact hcall.mono (hnow call (by simp))

/-- **What a call returns after any others.** -/
theorem answerAfter_eq (hcounting : Counting consume) (limit : ℤ) {windowMs : ℤ}
    (hwindow : 0 < windowMs) {done : List LimiterCall} {call : LimiterCall}
    (hcalls : Ordered (done ++ [call])) :
    answerAfter consume (createFixedWindowLimiter limit windowMs) done call
      = decide ((FixedWindow.take windowMs
          (FixedWindow.after windowMs none (consumed call.key done)) call.time).count ≤ limit) := by
  obtain ⟨hdone, hearlier⟩ := ordered_concat.mp hcalls
  obtain ⟨hlimit, hwindowMs⟩ := afterCalls_limit hcounting limit windowMs done
  have hcharged :=
    (follows_afterCalls hcounting limit windowMs call.key hdone hearlier).counter_charged
  rw [hwindowMs] at hcharged
  rw [← hcharged]
  cases call with
  | consume key now =>
      refine (hcounting.fst _ key now).trans ?_
      rw [hlimit]
      rfl
  | check key now =>
      refine (check_eq _ (by rw [hwindowMs]; exact hwindow) key now).trans ?_
      rw [hlimit]
      rfl

theorem successes_consume (limiter : RateLimiter) (key k : Text) (now : Date)
    (calls : List LimiterCall) :
    limiter.successes key (.consume k now :: calls)
      = if k = key ∧ (limiter.consume k now).1 = true then
          now :: (limiter.consume k now).2.successes key calls
        else (limiter.consume k now).2.successes key calls := rfl

/-- **What succeeds is what the counter of the key grants.** -/
theorem Follows.successes_eq (h : limiter.Follows key now counter) {calls : List LimiterCall}
    (hcalls : Ordered calls) (hnow : ∀ call ∈ calls, now ≤ call.time) :
    limiter.successes key calls
      = FixedWindow.granted limiter.limit limiter.windowMs counter (consumed key calls) := by
  induction calls generalizing limiter counter now with
  | nil => rfl
  | cons call calls ih =>
      obtain ⟨hlater, hcalls⟩ := List.pairwise_cons.mp hcalls
      have h := h.mono (hnow call List.mem_cons_self)
      have hnext := ih (h.answer counting_consume) hcalls hlater
      obtain ⟨hlimit, hwindowMs⟩ := answer_limit counting_consume limiter call
      rw [hlimit, hwindowMs] at hnext
      cases call with
      | consume k time =>
          rw [successes_consume]
          by_cases hkey : k = key
          · subst hkey
            have hgranted : (limiter.consume k time).1 = true ↔
                (FixedWindow.take limiter.windowMs counter time).count ≤ limiter.limit := by
              rw [consume_fst, decide_eq_true_eq]
              exact iff_of_eq (congrArg (fun window => window.count ≤ limiter.limit)
                h.counter_charged)
            have hnext : (limiter.consume k time).2.successes k calls
                = FixedWindow.granted limiter.limit limiter.windowMs
                  (some (FixedWindow.take limiter.windowMs counter time)) (consumed k calls) := by
              simpa [LimiterCall.answer, LimiterCall.consumes, FixedWindow.after] using hnext
            have hconsumed : consumed k (.consume k time :: calls) = time :: consumed k calls := by
              simp [consumed, LimiterCall.consumes]
            rw [hnext, hconsumed, FixedWindow.granted]
            by_cases hroom : (FixedWindow.take limiter.windowMs counter time).count ≤ limiter.limit
            · rw [if_pos ⟨rfl, hgranted.mpr hroom⟩, if_pos hroom]
            · rw [if_neg (fun h => hroom (hgranted.mp h.2)), if_neg hroom]
          · have hconsumed : consumed key (.consume k time :: calls) = consumed key calls := by
              simp [consumed, LimiterCall.consumes, hkey]
            rw [if_neg (fun h => hkey h.1), hconsumed]
            simpa [LimiterCall.answer, LimiterCall.consumes, hkey, FixedWindow.after] using hnext
      | check k time => exact hnext

/-! ### The laws -/

/-- What succeeds in a window, from the `consume` that opens it on. -/
theorem Follows.successes_opened (h : limiter.Follows key now counter)
    (hwindow : 0 < limiter.windowMs) {since : List LimiterCall}
    (hcalls : Ordered (.consume key now :: since)) (hopens : limiter.current key now = none) :
    (((limiter.successes key (.consume key now :: since)).filter
        fun t => t < now + limiter.windowMs).length : ℤ) ≤ max limiter.limit 0 := by
  have hended : (counter.filter fun window => now < window.ends) = none := by
    rw [← h now le_rfl, hopens, Option.map_none]
  have hconsumed : consumed key (.consume key now :: since) = now :: consumed key since := by
    simp [consumed, LimiterCall.consumes]
  obtain ⟨hlater, hsince⟩ := List.pairwise_cons.mp hcalls
  rw [h.successes_eq hcalls (List.forall_mem_cons.mpr ⟨le_rfl, hlater⟩), hconsumed]
  exact FixedWindow.granted_opened_le (ordered_consumed hsince key) hwindow hended

end RateLimiter

open RateLimiter in
/-- **The laws of the limiter.**  A check answers what a `consume` would, and no later answer
depends on it; what a call on a key answers depends on the calls on that key alone, and would be the
same if nothing were evicted; and of the `consume`s of a key no more succeed in a window than the
limit says, and in any interval as long as a window no more than twice that. -/
theorem limiter_laws (limit : ℤ) {windowMs : ℤ} (hwindow : 0 < windowMs) :
    (∀ done key now,
      answerAfter consume (createFixedWindowLimiter limit windowMs) done (.check key now)
        = answerAfter consume (createFixedWindowLimiter limit windowMs) done (.consume key now)) ∧
    (∀ done key now since call,
      answerAfter consume (createFixedWindowLimiter limit windowMs)
          (done ++ .check key now :: since) call
        = answerAfter consume (createFixedWindowLimiter limit windowMs) (done ++ since) call) ∧
    (∀ done call, Ordered (done ++ [call]) →
      answerAfter consume (createFixedWindowLimiter limit windowMs) done call
          = answerAfter consume (createFixedWindowLimiter limit windowMs)
            (done.filter fun other => other.key = call.key) call ∧
        answerAfter consume (createFixedWindowLimiter limit windowMs) done call
          = answerAfter consumeUnevicted (createFixedWindowLimiter limit windowMs) done call) ∧
    (∀ done key now since, Ordered (done ++ .consume key now :: since) →
      (afterCalls consume (createFixedWindowLimiter limit windowMs) done).current key now = none →
      ((((afterCalls consume (createFixedWindowLimiter limit windowMs) done).successes key
        (.consume key now :: since)).filter fun t => t < now + windowMs).length : ℤ)
          ≤ max limit 0) ∧
    ∀ calls key start, Ordered calls →
      ((((createFixedWindowLimiter limit windowMs).successes key calls).filter
        fun t => start ≤ t ∧ t ≤ start + windowMs).length : ℤ) ≤ 2 * max limit 0 := by
  refine ⟨?_, ?_, ?_, ?_, ?_⟩
  · intro done key now
    have hpositive :
        0 < (afterCalls consume (createFixedWindowLimiter limit windowMs) done).windowMs := by
      rw [(afterCalls_limit counting_consume limit windowMs done).2]
      exact hwindow
    exact (check_eq _ hpositive key now).trans (consume_fst _ key now).symm
  · intro done key now since call
    simp [answerAfter, afterCalls, LimiterCall.answer]
  · intro done call hcalls
    have hown : Ordered ((done.filter fun other => other.key = call.key) ++ [call]) :=
      hcalls.sublist (List.filter_sublist.append_right _)
    constructor
    · rw [answerAfter_eq counting_consume limit hwindow hcalls,
        answerAfter_eq counting_consume limit hwindow hown, consumed_filter]
    · rw [answerAfter_eq counting_consume limit hwindow hcalls,
        answerAfter_eq counting_consumeUnevicted limit hwindow hcalls]
  · intro done key now since hcalls hopens
    obtain ⟨hdone, hsince, hbefore⟩ := List.pairwise_append.mp hcalls
    obtain ⟨hlimit, hwindowMs⟩ := afterCalls_limit counting_consume limit windowMs done
    have hfollows := follows_afterCalls counting_consume limit windowMs key hdone
      (fun call hcall => hbefore call hcall _ List.mem_cons_self)
    have hle := hfollows.successes_opened (by rw [hwindowMs]; exact hwindow) hsince hopens
    rw [hlimit, hwindowMs] at hle
    exact hle
  · intro calls key start hcalls
    have hstart (now : Date) (hnow : ∀ call ∈ calls, now ≤ call.time) :
        (createFixedWindowLimiter limit windowMs).successes key calls
          = FixedWindow.granted limit windowMs none (consumed key calls) :=
      (follows_afterCalls counting_consume limit windowMs key List.Pairwise.nil
        (by simp)).successes_eq hcalls hnow
    cases calls with
    | nil => simp [successes]
    | cons call calls =>
        have hlater := (List.pairwise_cons.mp hcalls).1
        rw [hstart call.time (List.forall_mem_cons.mpr ⟨le_rfl, hlater⟩)]
        exact FixedWindow.granted_interval_le limit start hwindow (ordered_consumed hcalls key)

/-- One attempt in a second, two within a second of each other. -/
theorem limiter_laws_seconds :
    ((((createFixedWindowLimiter 1 1000).successes "a".toList [.consume "a".toList 0,
      .consume "a".toList 999, .consume "a".toList 1000]).filter
        fun t => 0 ≤ t ∧ t ≤ 0 + 1000).length : ℤ) ≤ 2 * max 1 0 :=
  (limiter_laws 1 (by decide : (0 : ℤ) < 1000)).2.2.2.2 [.consume "a".toList 0,
      .consume "a".toList 999, .consume "a".toList 1000] "a".toList 0 (by
    simp [Ordered, LimiterCall.time])

/-- Where the limit is below zero, nothing succeeds in a window, and that is more than the limit. -/
theorem limiter_negative :
    ¬∀ (limit windowMs : ℤ) (done : List LimiterCall) (key : Text) (now : Date)
      (since : List LimiterCall), 0 < windowMs → Ordered (done ++ .consume key now :: since) →
      (afterCalls RateLimiter.consume (createFixedWindowLimiter limit windowMs) done).current
        key now = none →
      ((((afterCalls RateLimiter.consume (createFixedWindowLimiter limit windowMs) done).successes
        key (.consume key now :: since)).filter fun t => t < now + windowMs).length : ℤ)
          ≤ limit := by
  intro h
  have hle := h (-1) 1 [] "a".toList 0 [] (by decide) (by simp [Ordered]) rfl
  omega

end Osprey.Relay
