/-
**A bounded channel that never blocks.**

`std::sync::mpsc::sync_channel` as it is used with `try_send` and `try_recv`: a sender that finds
the queue full, or the receiver gone, is told so and keeps its message.

Main definitions:

* `SyncChannel` with `trySend`, `tryRecv`, `drain` and `hangUp`.

Main results:

* `SyncChannel.mem_trySend`, `SyncChannel.pairwise_trySend` — **a queue stays in the order in which
  it was filled**;
* `SyncChannel.queue_trySend_of_receiving` — a full queue keeps what it has;
* `SyncChannel.drain_eq` — draining takes all that is queued.
-/

import Mathlib.Data.List.Basic
import Mathlib.Tactic

set_option relaxedAutoImplicit false
set_option autoImplicit false

/-- A channel: what is queued, oldest first, and whether the receiver is still there. -/
structure SyncChannel (α : Type) where
  bound : ℕ
  queue : List α
  receiving : Bool
  bounded : queue.length ≤ bound

namespace SyncChannel

variable {α : Type}

inductive TrySendError
  | full
  | disconnected
  deriving DecidableEq, Repr

def new (bound : ℕ) : SyncChannel α := ⟨bound, [], true, Nat.zero_le _⟩

/-- Queue a message if the receiver is there and has room. -/
def trySend (channel : SyncChannel α) (message : α) :
    Except TrySendError Unit × SyncChannel α :=
  if channel.receiving then
    if h : channel.queue.length < channel.bound then
      (.ok (), { channel with
        queue := channel.queue ++ [message]
        bounded := by simpa using h })
    else (.error .full, channel)
  else (.error .disconnected, channel)

/-- The oldest message, if there is one. -/
def tryRecv (channel : SyncChannel α) : Option (α × SyncChannel α) :=
  match h : channel.queue with
  | [] => none
  | message :: queue =>
      some (message, { channel with
        queue
        bounded := by
          have hbounded := channel.bounded
          rw [h, List.length_cons] at hbounded
          omega })

/-- Receive until nothing is queued, in at most so many rounds. -/
def tryIter : ℕ → SyncChannel α → List α × SyncChannel α
  | 0, channel => ([], channel)
  | rounds + 1, channel =>
      match channel.tryRecv with
      | none => ([], channel)
      | some (message, channel) =>
          let (messages, channel) := tryIter rounds channel
          (message :: messages, channel)

/-- `try_iter().collect()`: one round for each message, and one that finds none. -/
def drain (channel : SyncChannel α) : List α × SyncChannel α :=
  tryIter (channel.queue.length + 1) channel

/-- Dropping the receiver discards what is queued. -/
def hangUp (channel : SyncChannel α) : SyncChannel α :=
  ⟨channel.bound, [], false, Nat.zero_le _⟩

/-- What sending can do to the queue. -/
theorem queue_trySend (channel : SyncChannel α) (message : α) :
    (channel.trySend message).2.queue = channel.queue ∨
      (channel.trySend message).2.queue = channel.queue ++ [message] := by
  unfold trySend
  split
  · split
    · exact .inr rfl
    · exact .inl rfl
  · exact .inl rfl

theorem mem_trySend {channel : SyncChannel α} {message other : α}
    (h : other ∈ (channel.trySend message).2.queue) : other ∈ channel.queue ∨ other = message := by
  rcases channel.queue_trySend message with hqueue | hqueue
  · rw [hqueue] at h
    exact .inl h
  · rw [hqueue] at h
    simpa using h

/-- **A queue stays in the order in which it was filled.** -/
theorem pairwise_trySend {R : α → α → Prop} {channel : SyncChannel α} {message : α}
    (h : channel.queue.Pairwise R) (hmessage : ∀ other ∈ channel.queue, R other message) :
    (channel.trySend message).2.queue.Pairwise R := by
  rcases channel.queue_trySend message with hqueue | hqueue
  · rw [hqueue]
    exact h
  · rw [hqueue, List.pairwise_append]
    refine ⟨h, List.pairwise_singleton _ _, ?_⟩
    intro other hother last hlast
    rw [List.mem_singleton.mp hlast]
    exact hmessage other hother

theorem tryRecv_eq_some {channel channel' : SyncChannel α} {message : α}
    (h : channel.tryRecv = some (message, channel')) :
    channel.queue = message :: channel'.queue := by
  unfold tryRecv at h
  split at h
  · cases h
  · rename_i hqueue
    cases h
    exact hqueue

/-- Where there is a receiver, a message is queued if there is room, and else lost. -/
theorem queue_trySend_of_receiving {channel : SyncChannel α} (h : channel.receiving = true)
    (message : α) :
    (channel.trySend message).2.queue = (channel.queue ++ [message]).take channel.bound := by
  have hbounded := channel.bounded
  unfold trySend
  rw [if_pos h]
  split
  · rename_i hroom
    rw [List.take_of_length_le]
    simpa using hroom
  · rename_i hfull
    rw [List.take_append_of_le_length (by omega), List.take_of_length_le (by omega)]

theorem trySend_error_disconnected_iff (channel : SyncChannel α) (message : α) :
    (channel.trySend message).1 = .error .disconnected ↔ channel.receiving = false := by
  unfold trySend
  split
  · rename_i hreceiving
    split
    · simp [hreceiving]
    · simp [hreceiving]
  · rename_i hreceiving
    simp [hreceiving]

/-- Sending leaves the bound and the receiver as they are. -/
theorem trySend_same (channel : SyncChannel α) (message : α) :
    (channel.trySend message).2.bound = channel.bound ∧
      (channel.trySend message).2.receiving = channel.receiving := by
  unfold trySend
  split
  · split
    · exact ⟨rfl, rfl⟩
    · exact ⟨rfl, rfl⟩
  · exact ⟨rfl, rfl⟩

theorem tryRecv_same {channel channel' : SyncChannel α} {message : α}
    (h : channel.tryRecv = some (message, channel')) :
    channel'.bound = channel.bound ∧ channel'.receiving = channel.receiving := by
  unfold tryRecv at h
  split at h
  · cases h
  · cases h
    exact ⟨rfl, rfl⟩

theorem tryIter_eq {rounds : ℕ} {channel : SyncChannel α} (h : channel.queue.length < rounds) :
    (tryIter rounds channel).1 = channel.queue ∧ (tryIter rounds channel).2.queue = [] ∧
      (tryIter rounds channel).2.bound = channel.bound ∧
      (tryIter rounds channel).2.receiving = channel.receiving := by
  induction rounds generalizing channel with
  | zero => exact absurd h (Nat.not_lt_zero _)
  | succ rounds ih =>
      rw [tryIter]
      split
      · rename_i hnone
        have hqueue : channel.queue = [] := by
          unfold tryRecv at hnone
          split at hnone
          · assumption
          · cases hnone
        exact ⟨hqueue.symm, hqueue, rfl, rfl⟩
      · rename_i message channel' hrecv
        have hqueue := tryRecv_eq_some hrecv
        rw [hqueue, List.length_cons] at h
        obtain ⟨hmessages, hempty, hbound, hreceiving⟩ := ih (Nat.lt_of_succ_lt_succ h)
        obtain ⟨hbound', hreceiving'⟩ := tryRecv_same hrecv
        refine ⟨?_, hempty, hbound.trans hbound', hreceiving.trans hreceiving'⟩
        rw [hqueue, ← hmessages]

/-- **Draining takes all that is queued**, in its order, and nothing else. -/
theorem drain_eq (channel : SyncChannel α) :
    channel.drain.1 = channel.queue ∧ channel.drain.2.queue = [] ∧
      channel.drain.2.bound = channel.bound ∧ channel.drain.2.receiving = channel.receiving :=
  tryIter_eq (Nat.lt_succ_self _)

end SyncChannel
