/-
**The relay's fixed-window rate limiter.**

`relay/src/http/rateLimit.ts`.  A limiter is a map from strings to windows; a window has a count and
the time at which it expires.  A reading of the clock is an argument of the call that makes it.

Main definitions:

* `Osprey.Relay.RateLimiter` with `consume` and `check`;
* `Osprey.Relay.RateLimiter.current`, `Osprey.Relay.RateLimiter.live` — the window of a key that is
  under way, and what has been consumed in it.

Main results:

* `Osprey.Relay.RateLimiter.lookup_consume` — what `consume` leaves in the map;
* `Osprey.Relay.RateLimiter.charged_count` — consuming adds one to the window under way;
* `Osprey.Relay.RateLimiter.check_eq_true` — what `check` tells.
-/

import Mathlib.Data.List.AList
import Osprey.RelayDb

set_option relaxedAutoImplicit false
set_option autoImplicit false

namespace Osprey.Relay

/-- `{ count, expiresAt }`. -/
structure Window where
  count : ℤ
  expiresAt : Date
  deriving DecidableEq

/-- What `createFixedWindowLimiter` closes over. -/
structure RateLimiter where
  limit : ℤ
  windowMs : ℤ
  windows : AList fun _ : Text => Window

def createFixedWindowLimiter (limit windowMs : ℤ) : RateLimiter := ⟨limit, windowMs, ∅⟩

namespace RateLimiter

def evictExpired (limiter : RateLimiter) (now : Date) : AList fun _ : Text => Window where
  entries := limiter.windows.entries.filter fun entry => now < entry.2.expiresAt
  nodupKeys := limiter.windows.nodupKeys.sublist List.filter_sublist

/-- Whether the key is within its budget, and the limiter with one unit of it consumed. -/
def consume (limiter : RateLimiter) (key : Text) (now : Date) : Bool × RateLimiter :=
  let windows := limiter.evictExpired now
  let opened := (decide (limiter.limit ≥ 1),
    { limiter with windows := windows.insert key ⟨1, now + limiter.windowMs⟩ })
  match windows.lookup key with
  | none => opened
  | some existing =>
      if existing.expiresAt ≤ now then opened
      else
        (decide (existing.count + 1 ≤ limiter.limit),
          { limiter with
            windows := windows.insert key { existing with count := existing.count + 1 } })

def check (limiter : RateLimiter) (key : Text) (now : Date) : Bool :=
  match limiter.windows.lookup key with
  | none => decide (limiter.limit ≥ 1)
  | some existing =>
      if existing.expiresAt ≤ now then decide (limiter.limit ≥ 1)
      else decide (existing.count < limiter.limit)

/-! ### What the calls do -/

/-- The window of the key that is under way at `now`. -/
def current (limiter : RateLimiter) (key : Text) (now : Date) : Option Window :=
  (limiter.windows.lookup key).filter fun window => now < window.expiresAt

/-- What has been consumed in it. -/
def live (limiter : RateLimiter) (key : Text) (now : Date) : ℤ :=
  ((limiter.current key now).map Window.count).getD 0

/-- The window of the key after one unit more has been consumed. -/
def charged (limiter : RateLimiter) (key : Text) (now : Date) : Window :=
  match limiter.current key now with
  | none => ⟨1, now + limiter.windowMs⟩
  | some window => { window with count := window.count + 1 }

theorem current_eq_some {limiter : RateLimiter} {key : Text} {now : Date} {window : Window} :
    limiter.current key now = some window ↔
      limiter.windows.lookup key = some window ∧ now < window.expiresAt := by
  simp [current, Option.filter_eq_some_iff]

theorem lookup_evictExpired (limiter : RateLimiter) (now : Date) (key : Text) :
    (limiter.evictExpired now).lookup key = limiter.current key now := by
  refine Option.ext fun window => ?_
  rw [← Option.mem_def, AList.mem_lookup_iff, evictExpired, List.mem_filter, ← AList.mem_lookup_iff,
    Option.mem_def, current_eq_some, decide_eq_true_eq]

@[simp] theorem consume_limit (limiter : RateLimiter) (key : Text) (now : Date) :
    (limiter.consume key now).2.limit = limiter.limit := by
  simp only [consume]
  split
  · rfl
  · split <;> rfl

@[simp] theorem consume_windowMs (limiter : RateLimiter) (key : Text) (now : Date) :
    (limiter.consume key now).2.windowMs = limiter.windowMs := by
  simp only [consume]
  split
  · rfl
  · split <;> rfl

/-- **What `consume` leaves in the map**: the window of the key charged, the other windows if they
have not expired. -/
theorem lookup_consume (limiter : RateLimiter) (key : Text) (now : Date) (k : Text) :
    (limiter.consume key now).2.windows.lookup k
      = if k = key then some (limiter.charged key now) else limiter.current k now := by
  have hinsert (window : Window) : ((limiter.evictExpired now).insert key window).lookup k
      = if k = key then some window else limiter.current k now := by
    split
    · rename_i heq
      rw [heq, AList.lookup_insert]
    · rename_i hne
      rw [AList.lookup_insert_ne hne, lookup_evictExpired]
  simp only [consume, charged]
  rw [lookup_evictExpired]
  split
  · exact hinsert _
  · rename_i window hsome
    rw [if_neg (not_le.mpr (current_eq_some.mp hsome).2)]
    exact hinsert _

/-- A window that has been charged holds one unit more than was consumed in it before, and is under
way. -/
theorem charged_count (limiter : RateLimiter) (hwindow : 0 < limiter.windowMs) (key : Text)
    (now : Date) : (limiter.charged key now).count = limiter.live key now + 1 ∧
      now < (limiter.charged key now).expiresAt := by
  simp only [charged, live]
  cases hcurrent : limiter.current key now with
  | none => exact ⟨rfl, by simpa using hwindow⟩
  | some window => exact ⟨rfl, (current_eq_some.mp hcurrent).2⟩

theorem current_consume (limiter : RateLimiter) (hwindow : 0 < limiter.windowMs) (key : Text)
    (now : Date) (k : Text) : (limiter.consume key now).2.current k now
      = if k = key then some (limiter.charged key now) else limiter.current k now := by
  refine Option.ext fun window => ?_
  rw [current_eq_some, lookup_consume]
  split
  · refine ⟨And.left, fun h => ⟨h, ?_⟩⟩
    rw [← Option.some.inj h]
    exact (charged_count limiter hwindow key now).2
  · exact ⟨And.left, fun h => ⟨h, (current_eq_some.mp h).2⟩⟩

/-- **What `check` tells**: there is room in the window under way. -/
theorem check_eq_true {limiter : RateLimiter} {key : Text} {now : Date} :
    limiter.check key now = true ↔ limiter.live key now < limiter.limit := by
  have hone : (1 : ℤ) ≤ limiter.limit ↔ 0 < limiter.limit := by omega
  simp only [check, live, current]
  cases limiter.windows.lookup key with
  | none => simpa using hone
  | some window =>
      by_cases hlive : now < window.expiresAt
      · simp [Option.filter_some, hlive, not_le.mpr hlive]
      · simpa [Option.filter_some, hlive, not_lt.mp hlive] using hone

end RateLimiter

end Osprey.Relay
