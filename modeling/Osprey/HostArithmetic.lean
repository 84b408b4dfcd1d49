/-
**Arithmetic on numbers that the host chose.**

Two computations of the phone take `Int64` operands from a message: the time of a point of a
history, and the round trip of a ping.  Swift traps where they overflow.  The points of a history go
up from its start, so all of them fit if the last does; a pong traps the subtraction if the time it
echoes is too far from the clock, and it does so before `max(0, _)` can correct the difference.

Main definitions:

* `Osprey.SessionClient.ping`, `Osprey.SessionClient.subscribeToMetrics` — what the client makes of
  a reply;
* `Osprey.MetricsHistoryBody.EndsInRange`, `Osprey.PongBody.EchoesNear` — the numbers that do no
  harm.

Main results:

* `Osprey.MetricsHistoryBody.isSome_samples_iff`, `Osprey.isSome_roundTrip_iff` — when either is
  computed;
* `Osprey.host_arithmetic_iff` — **exactly which replies do not trap**.
-/

import Osprey.HistoryTransport
import Osprey.SessionMux

set_option relaxedAutoImplicit false
set_option autoImplicit false

namespace Osprey

variable {F : Type}

/-! ### The client of a session -/

namespace SessionClient

inductive SessionError
  | unexpectedReply (expected found : MessageType)
  | pongSequenceMismatch (sent received : UInt64)
  | hostRefused (code : ErrorCode) (message : String) (retryable : Bool)
  | hostIsNotThePinnedOne
  deriving DecidableEq, Repr

structure PingRoundTrip where
  sequence : UInt64
  roundTripMilliseconds : Int64
  deriving DecidableEq, Repr

/-- The end of `exchange`: an error of the host is thrown. -/
def exchange (reply : DecodedEnvelope F) : Except SessionError (DecodedEnvelope F) :=
  match reply.body with
  | .error failure => .error (.hostRefused failure.code failure.message failure.retryable)
  | _ => .ok reply

/-- `max(0, nowMilliseconds - echoTs)`; `none` where the subtraction traps. -/
def roundTrip (nowMilliseconds : Int64) (pong : PongBody) : Option Int64 :=
  (checked (nowMilliseconds.toInt - pong.echoTs.toInt)).map (max 0)

/-- What a reply makes of a `ping`; `none` where it traps. -/
def ping (sequence : UInt64) (nowMilliseconds : Int64) (reply : DecodedEnvelope F) :
    Option (Except SessionError PingRoundTrip) :=
  match exchange reply with
  | .error error => some (.error error)
  | .ok reply =>
      match reply.body with
      | .pong pong =>
          if pong.seq = sequence then
            (roundTrip nowMilliseconds pong).map fun elapsed => .ok ⟨sequence, elapsed⟩
          else some (.error (.pongSequenceMismatch sequence pong.seq))
      | _ => some (.error (.unexpectedReply .pong reply.t))

/-- The history that a reply to a subscribe brings. -/
def subscribeToMetrics (reply : DecodedEnvelope F) : Except SessionError (MetricsHistoryBody F) :=
  match exchange reply with
  | .error error => .error error
  | .ok reply =>
      match reply.body with
      | .metricsHistory history => .ok history
      | _ => .error (.unexpectedReply .metricsHistory reply.t)

end SessionClient

/-- What a reply to the subscribe `id` makes of a dashboard; an error leaves its series.  `none`
where it traps. -/
def DeviceModel.subscribed (model : DeviceModel F) (id : Uuid) (reply : DecodedEnvelope F) :
    Option (DeviceModel F) :=
  match SessionClient.subscribeToMetrics reply with
  | .error _ => some model
  | .ok history => model.startMetrics id history

/-! ### What does not overflow -/

theorem isSome_checked_iff {i : ℤ} : (checked i).isSome ↔ -2 ^ 63 ≤ i ∧ i ≤ 2 ^ 63 - 1 := by
  constructor
  · intro h
    obtain ⟨value, hvalue⟩ := Option.isSome_iff_exists.mp h
    rw [← toInt_checked hvalue]
    exact ⟨value.le_toInt, Int.le_sub_one_of_lt value.toInt_lt⟩
  · rintro ⟨hlow, hhigh⟩
    obtain ⟨value, hvalue, -⟩ := checked_eq_some hlow hhigh
    rw [hvalue]
    rfl

namespace MetricsHistoryBody

/-- The last point of the history, if it has one, is a time, and so is its distance from the
first. -/
def EndsInRange (body : MetricsHistoryBody F) : Prop :=
  ∀ ends ∈ body.declaredEnd, ends ≤ 2 ^ 63 - 1 ∧ ends - body.startTs.toInt ≤ 2 ^ 63 - 1

/-- When one point has a time. -/
theorem isSome_pointTime_iff {body : MetricsHistoryBody F} {index : ℕ} :
    (body.pointTime index).isSome ↔
      body.startTs.toInt + index * body.intervalMs.toNat ≤ 2 ^ 63 - 1 ∧
        index * body.intervalMs.toNat ≤ 2 ^ 63 - 1 := by
  constructor
  · intro h
    unfold pointTime at h
    split at h
    · cases h
    · rename_i offset hoffset
      have hvalue := toInt_checked hoffset
      have hproduct := isSome_checked_iff.mp (Option.isSome_iff_exists.mpr ⟨offset, hoffset⟩)
      rw [hvalue] at h
      exact ⟨(isSome_checked_iff.mp h).2, by omega⟩
  · rintro ⟨hfits, hoffset⟩
    obtain ⟨id, hid, -⟩ := pointTime_eq_some hfits hoffset
    rw [hid]
    rfl

/-- A point that the arrays hold is there if it has a time. -/
theorem isSome_point_iff {body : MetricsHistoryBody F} {index : ℕ} (hindex : index < body.count) :
    (body.point index).isSome ↔ (body.pointTime index).isSome := by
  have hcpu := List.getElem?_eq_getElem (lt_of_lt_of_le hindex (Nat.min_le_left _ _))
  have hmem := List.getElem?_eq_getElem (lt_of_lt_of_le hindex (Nat.min_le_right _ _))
  unfold point
  rw [hcpu, hmem]
  cases body.pointTime index with
  | none => rfl
  | some id => rfl

theorem isSome_pointsFrom_iff {body : MetricsHistoryBody F} {n index : ℕ} :
    (body.pointsFrom n index).isSome ↔ ∀ i, i < n → (body.point (index + i)).isSome := by
  induction n generalizing index with
  | zero => exact iff_of_true rfl fun i hi => absurd hi (Nat.not_lt_zero i)
  | succ n ih =>
      have hrest : (body.pointsFrom (n + 1) index).isSome ↔
          (body.point index).isSome ∧ (body.pointsFrom n (index + 1)).isSome := by
        rw [pointsFrom]
        cases body.point index with
        | none => simp
        | some first =>
            cases body.pointsFrom n (index + 1) with
            | none => simp
            | some rest => simp
      rw [hrest, ih]
      constructor
      · rintro ⟨hfirst, hall⟩ i hi
        cases i with
        | zero => exact hfirst
        | succ i =>
            rw [Nat.add_comm i, ← Nat.add_assoc]
            exact hall i (Nat.lt_of_succ_lt_succ hi)
      · intro hall
        refine ⟨hall 0 (Nat.succ_pos n), fun i hi => ?_⟩
        rw [Nat.add_assoc, Nat.add_comm 1]
        exact hall (i + 1) (Nat.succ_lt_succ hi)

/-- **When the points of a history can be computed.** -/
theorem isSome_samples_iff {body : MetricsHistoryBody F} :
    body.samples.isSome ↔ body.EndsInRange := by
  unfold samples EndsInRange declaredEnd
  by_cases hinterval : body.intervalMs = 0
  · rw [if_pos hinterval, if_pos (.inl hinterval)]
    exact iff_of_true rfl fun ends hends => nomatch hends
  · rw [if_neg hinterval, isSome_pointsFrom_iff]
    cases hcount : body.count with
    | zero =>
        rw [if_pos (.inr rfl)]
        refine iff_of_true (fun i hi => absurd hi (Nat.not_lt_zero i)) fun ends hends => ?_
        cases hends
    | succ last =>
        rw [if_neg (by simp [hinterval])]
        have htimes : (∀ i, i < last + 1 → (body.point (0 + i)).isSome) ↔
            ∀ i, i < last + 1 → (body.pointTime i).isSome := by
          refine forall_congr' fun i => forall_congr' fun hi => ?_
          rw [Nat.zero_add, isSome_point_iff (hcount ▸ hi)]
        rw [htimes]
        constructor
        · intro hall ends hends
          obtain rfl := Option.mem_some.mp hends
          obtain ⟨hfits, hoffset⟩ := isSome_pointTime_iff.mp (hall last (Nat.lt_succ_self last))
          rw [Nat.add_sub_cancel]
          exact ⟨hfits, by omega⟩
        · -- an earlier point is before the last
          intro hends i hi
          obtain ⟨hfits, hoffset⟩ := hends _ rfl
          rw [Nat.add_sub_cancel] at hfits hoffset
          have hle : (i : ℤ) * body.intervalMs.toNat ≤ last * body.intervalMs.toNat :=
            mul_le_mul_of_nonneg_right (by omega) (by omega)
          exact isSome_pointTime_iff.mpr ⟨by omega, by omega⟩

end MetricsHistoryBody

/-- The time that the pong echoes is less than 2^63 ms before the clock, and not more after it. -/
def PongBody.EchoesNear (pong : PongBody) (nowMilliseconds : Int64) : Prop :=
  nowMilliseconds.toInt - 2 ^ 63 < pong.echoTs.toInt ∧
    pong.echoTs.toInt ≤ nowMilliseconds.toInt + 2 ^ 63

/-- **When the round trip can be computed.** -/
theorem isSome_roundTrip_iff {nowMilliseconds : Int64} {pong : PongBody} :
    (SessionClient.roundTrip nowMilliseconds pong).isSome ↔ pong.EchoesNear nowMilliseconds := by
  rw [SessionClient.roundTrip, Option.isSome_map, isSome_checked_iff, PongBody.EchoesNear]
  omega

/-! ### Replies -/

theorem isSome_startMetrics {model : DeviceModel F} {id : Uuid} {history : MetricsHistoryBody F} :
    (model.startMetrics id history).isSome ↔ history.EndsInRange := by
  rw [← MetricsHistoryBody.isSome_samples_iff, DeviceModel.startMetrics]
  cases history.samples with
  | none => rfl
  | some samples => rfl

/-- A reply that is no history is an error to whoever subscribed. -/
theorem subscribeToMetrics_of_ne {reply : DecodedEnvelope F}
    (h : ∀ history, reply.body ≠ .metricsHistory history) :
    ∃ error, SessionClient.subscribeToMetrics reply = .error error := by
  obtain ⟨v, id, t, ts, body⟩ := reply
  cases body with
  | metricsHistory history => exact absurd rfl (h history)
  | error failure => exact ⟨_, rfl⟩
  | _ => exact ⟨.unexpectedReply .metricsHistory t, rfl⟩

/-- A reply that is no pong is an error to whoever pinged. -/
theorem ping_of_ne {sequence : UInt64} {nowMilliseconds : Int64} {reply : DecodedEnvelope F}
    (h : ∀ pong, reply.body ≠ .pong pong) :
    ∃ error, SessionClient.ping sequence nowMilliseconds reply = some (.error error) := by
  obtain ⟨v, id, t, ts, body⟩ := reply
  cases body with
  | pong pong => exact absurd rfl (h pong)
  | error failure => exact ⟨_, rfl⟩
  | _ => exact ⟨.unexpectedReply .pong t, rfl⟩

/-- **Which replies do not trap.**  The answer to a subscribe does not if it is no history, or one
that ends in range; the answer to a ping does not if it is not the pong that is awaited, or echoes a
time near the clock. -/
theorem host_arithmetic_iff (model : DeviceModel F) (id : Uuid) (sequence : UInt64)
    (nowMilliseconds : Int64) (reply : DecodedEnvelope F) :
    ((model.subscribed id reply).isSome ↔
      ∀ history, reply.body = .metricsHistory history → history.EndsInRange) ∧
    ((SessionClient.ping sequence nowMilliseconds reply).isSome ↔
      ∀ pong, reply.body = .pong pong → pong.seq = sequence → pong.EchoesNear nowMilliseconds) := by
  constructor
  · by_cases hhistory : ∃ history, reply.body = .metricsHistory history
    · obtain ⟨history, hbody⟩ := hhistory
      have hreply : model.subscribed id reply = model.startMetrics id history := by
        simp only [DeviceModel.subscribed, SessionClient.subscribeToMetrics,
          SessionClient.exchange, hbody]
      rw [hreply, isSome_startMetrics, hbody]
      constructor
      · rintro hends history' heq
        cases heq
        exact hends
      · exact fun hall => hall history rfl
    · obtain ⟨error, herror⟩ := subscribeToMetrics_of_ne (not_exists.mp hhistory)
      refine iff_of_true ?_ fun history hbody => absurd ⟨history, hbody⟩ hhistory
      rw [DeviceModel.subscribed, herror]
      rfl
  · by_cases hpong : ∃ pong, reply.body = .pong pong
    · obtain ⟨pong, hbody⟩ := hpong
      have hreply : (SessionClient.ping sequence nowMilliseconds reply).isSome ↔
          (pong.seq = sequence → pong.EchoesNear nowMilliseconds) := by
        simp only [SessionClient.ping, SessionClient.exchange, hbody]
        by_cases hseq : pong.seq = sequence
        · rw [if_pos hseq, Option.isSome_map, isSome_roundTrip_iff]
          exact ⟨fun hnear _ => hnear, fun hnear => hnear hseq⟩
        · rw [if_neg hseq]
          exact iff_of_true rfl fun heq => absurd heq hseq
      rw [hreply, hbody]
      constructor
      · rintro hnear pong' heq
        cases heq
        exact hnear
      · exact fun hall => hall pong rfl
    · obtain ⟨error, herror⟩ := ping_of_ne (not_exists.mp hpong)
      rw [herror]
      exact iff_of_true rfl fun pong hbody => absurd ⟨pong, hbody⟩ hpong

/-- A history of two points, a millisecond apart, that starts with the last time there is; and a
pong that echoes the first. -/
theorem host_arithmetic_traps :
    DeviceModel.new.subscribed (toyUuid 1)
        ⟨1, toyUuid 1, .metricsHistory, 0, .metricsHistory ⟨toyUuid 1, Int64.maxValue, 1, [(), ()],
          [0, 0], none, [], []⟩⟩ = none ∧
      SessionClient.ping 1 0 (F := Unit) ⟨1, toyUuid 1, .pong, 0, .pong ⟨1, Int64.minValue⟩⟩
        = none := by
  decide

end Osprey
