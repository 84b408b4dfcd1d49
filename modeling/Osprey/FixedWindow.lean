/-
**Fixed-window counters.**

What is asked for is counted in windows of one length: the first request after a window has ended
opens the next one, every request in a window counts, and the requests whose count is within a limit
are granted.  A counter is looked at one request at a time; the requests of a run are the times at
which they were made.

Two windows of a counter do not meet, so an interval that is as long as a window meets two of them
at most.  `FixedWindow.room` says how much can still be granted in the interval, and every request
uses up what it is granted.

Main definitions:

* `FixedWindow.Counter`, `FixedWindow.take` — the window under way, and one request;
* `FixedWindow.granted` — the requests that are granted.

Main results:

* `FixedWindow.granted_lt_le` — what is granted before the window under way ends;
* `FixedWindow.granted_interval_le` — **an interval as long as a window holds at most twice the
  limit**.
-/

import Mathlib.Data.List.Basic
import Mathlib.Tactic

set_option relaxedAutoImplicit false
set_option autoImplicit false

namespace FixedWindow

/-- A window: how often it was asked for something, and when it ends. -/
structure Counter where
  count : ℤ
  ends : ℤ
  deriving DecidableEq

/-- A request. -/
def take (length : ℤ) (counter : Option Counter) (now : ℤ) : Counter :=
  match counter with
  | none => ⟨1, now + length⟩
  | some window =>
      if window.ends ≤ now then ⟨1, now + length⟩ else ⟨window.count + 1, window.ends⟩

/-- After requests at these times. -/
def after (length : ℤ) (counter : Option Counter) (times : List ℤ) : Option Counter :=
  times.foldl (fun counter now => some (take length counter now)) counter

/-- The times of the requests that are granted. -/
def granted (limit length : ℤ) : Option Counter → List ℤ → List ℤ
  | _, [] => []
  | counter, now :: times =>
      let window := take length counter now
      let rest := granted limit length (some window) times
      if window.count ≤ limit then now :: rest else rest

variable {limit length : ℤ} {counter : Option Counter} {window : Counter} {now : ℤ}
  {times : List ℤ}

theorem after_append (length : ℤ) (counter : Option Counter) (times later : List ℤ) :
    after length counter (times ++ later) = after length (after length counter times) later :=
  List.foldl_append

theorem take_of_lt (h : now < window.ends) :
    take length (some window) now = ⟨window.count + 1, window.ends⟩ := by
  rw [take, if_neg (not_le.mpr h)]

theorem take_of_le (h : window.ends ≤ now) :
    take length (some window) now = ⟨1, now + length⟩ := by
  rw [take, if_pos h]

/-- A window that has ended is as good as none. -/
theorem take_filter (length : ℤ) (counter : Option Counter) (now : ℤ) :
    take length (counter.filter fun window => now < window.ends) now = take length counter now := by
  cases counter with
  | none => rfl
  | some window =>
      by_cases h : now < window.ends
      · rw [Option.filter_some, if_pos (decide_eq_true h)]
      · rw [Option.filter_some, if_neg (by simpa using h), take_of_le (not_lt.mp h)]
        rfl

/-- Only what was asked for is granted. -/
theorem granted_sublist (limit length : ℤ) (counter : Option Counter) (times : List ℤ) :
    (granted limit length counter times).Sublist times := by
  induction times generalizing counter with
  | nil => exact List.Sublist.slnil
  | cons now times ih =>
      simp only [granted]
      split
      · exact (ih _).cons_cons now
      · exact (ih _).cons now

theorem filter_granted_eq_nil {p : ℤ → Bool} (h : ∀ t ∈ times, p t = false) :
    (granted limit length counter times).filter p = [] := by
  rw [List.filter_eq_nil_iff]
  intro t ht
  simp [h t ((granted_sublist limit length counter times).subset ht)]

/-! ### In one window -/

/-- What is granted before the window under way ends. -/
theorem granted_lt_le (htimes : times.Pairwise (· ≤ ·)) :
    (((granted limit length (some window) times).filter fun t => t < window.ends).length : ℤ)
      ≤ max (limit - window.count) 0 := by
  induction times generalizing window with
  | nil => simp [granted]
  | cons now times ih =>
      obtain ⟨hfirst, htimes⟩ := List.pairwise_cons.mp htimes
      by_cases hnow : now < window.ends
      · have hrest := @ih ⟨window.count + 1, window.ends⟩ htimes
        dsimp only at hrest
        simp only [granted, take_of_lt hnow]
        split
        · rw [List.filter_cons_of_pos (by simpa using hnow), List.length_cons]
          push_cast
          omega
        · omega
      · rw [filter_granted_eq_nil]
        · simp
        · intro t ht
          have hle : now ≤ t := List.forall_mem_cons.mpr ⟨le_rfl, hfirst⟩ t ht
          simp only [decide_eq_false_iff_not]
          omega

/-- What is granted in a window, from the request that opens it on. -/
theorem granted_opened_le (htimes : times.Pairwise (· ≤ ·)) (hlength : 0 < length)
    (hopens : (counter.filter fun window => now < window.ends) = none) :
    (((granted limit length counter (now :: times)).filter fun t => t < now + length).length : ℤ)
      ≤ max limit 0 := by
  have htake : take length counter now = ⟨1, now + length⟩ := by
    rw [← take_filter, hopens, take]
  have hrest := @granted_lt_le limit length ⟨1, now + length⟩ times htimes
  dsimp only at hrest
  simp only [granted, htake]
  split
  · rw [List.filter_cons_of_pos (by simpa using hlength), List.length_cons]
    push_cast
    omega
  · omega

/-! ### In an interval -/

/-- What can still be granted in the interval that begins at `start` and is as long as a window. -/
def room (limit length start : ℤ) : Option Counter → ℤ
  | none => 2 * max limit 0
  | some window =>
      if window.ends ≤ start then 2 * max limit 0
      else if window.ends ≤ start + length then max (limit - window.count) 0 + max limit 0
      else max (limit - window.count) 0

variable {start : ℤ}

theorem room_nonneg (limit length start : ℤ) (counter : Option Counter) :
    0 ≤ room limit length start counter := by
  cases counter with
  | none => simp only [room]; omega
  | some window => simp only [room]; split_ifs <;> omega

/-- The room a window leaves that was opened before the interval was over. -/
theorem room_opened (limit : ℤ) (hlength : 0 < length) (hnow : now ≤ start + length) :
    (if start ≤ now ∧ 1 ≤ limit then 1 else 0)
        + room limit length start (some ⟨1, now + length⟩)
      ≤ if now ≤ start then 2 * max limit 0 else max limit 0 := by
  simp only [room]
  split_ifs <;> omega

/-- A request uses up what it is granted. -/
theorem room_take (limit : ℤ) (hlength : 0 < length) (hnow : now ≤ start + length)
    (counter : Option Counter) :
    (if start ≤ now ∧ (take length counter now).count ≤ limit then 1 else 0)
        + room limit length start (some (take length counter now))
      ≤ room limit length start counter := by
  have hopened := room_opened limit hlength hnow
  cases counter with
  | none =>
      refine hopened.trans ?_
      simp only [room]
      split_ifs <;> omega
  | some window =>
      by_cases hends : window.ends ≤ now
      · rw [take_of_le hends]
        refine hopened.trans ?_
        simp only [room]
        split_ifs <;> omega
      · rw [take_of_lt (not_le.mp hends)]
        simp only [room]
        split_ifs <;> omega

theorem granted_interval_le_room (hlength : 0 < length) (htimes : times.Pairwise (· ≤ ·)) :
    (((granted limit length counter times).filter
        fun t => start ≤ t ∧ t ≤ start + length).length : ℤ)
      ≤ room limit length start counter := by
  induction times generalizing counter with
  | nil => simpa [granted] using room_nonneg limit length start counter
  | cons now times ih =>
      obtain ⟨hfirst, htimes⟩ := List.pairwise_cons.mp htimes
      by_cases hnow : now ≤ start + length
      · have hrest := @ih (some (take length counter now)) htimes
        have htake := room_take limit hlength hnow counter
        simp only [granted]
        split
        · rename_i hgranted
          by_cases hstart : start ≤ now
          · rw [List.filter_cons_of_pos (by simp [hstart, hnow]), List.length_cons]
            rw [if_pos ⟨hstart, hgranted⟩] at htake
            push_cast
            omega
          · rw [List.filter_cons_of_neg (by simp [hstart])]
            rw [if_neg (fun h => hstart h.1)] at htake
            omega
        · rename_i hgranted
          rw [if_neg (fun h => hgranted h.2)] at htake
          omega
      · rw [filter_granted_eq_nil]
        · simpa using room_nonneg limit length start counter
        · intro t ht
          have hle : now ≤ t := List.forall_mem_cons.mpr ⟨le_rfl, hfirst⟩ t ht
          simp only [decide_eq_false_iff_not, not_and]
          omega

/-- **An interval as long as a window holds at most twice the limit.** -/
theorem granted_interval_le (limit start : ℤ) (hlength : 0 < length)
    (htimes : times.Pairwise (· ≤ ·)) :
    (((granted limit length none times).filter
        fun t => start ≤ t ∧ t ≤ start + length).length : ℤ) ≤ 2 * max limit 0 :=
  granted_interval_le_room hlength htimes

end FixedWindow
