/-
**What a caller of `exchange` gets.**

A continuation that is resumed twice traps the app, and one that is stored after the link has closed
hangs its caller.  Neither can happen: a key of `pending` always leads to the one call that waits on
it and has not been resumed, so removing the key and resuming the call go together; and the closure
is checked in the same move that stores.

Main definitions:

* `Osprey.DecodedEnvelope.Answers` — a reply to an id;
* `Osprey.MuxSystem.Sound` — what calls and dictionaries hold in every state;
* `Osprey.MuxSystem.DistinctIds`, `Osprey.MuxSystem.Awaited` — no two exchanges share an id, and
  then whoever waits is still in `pending`;
* `Osprey.MuxSystem.Finishing` — a call needs no more than its own next turns.

Main results:

* `Osprey.MuxSystem.Sound.changes`, `Osprey.MuxSystem.Awaited.changes` — every step keeps both;
* `Osprey.MuxSystem.turnsLeft_of_run` — after closure, a call whose request was sent has three turns
  to go at most, and each of them is always open to it;
* `Osprey.exchanges_safe` — **every continuation is resumed at most once, an exchange returns only
  replies to its own id, and after the first shutdown nothing is left waiting**.
-/

import Osprey.SessionMux

set_option relaxedAutoImplicit false
set_option autoImplicit false

namespace Osprey

variable {F E : Type}

/-- The envelope is a reply to `id`. -/
def DecodedEnvelope.Answers (envelope : DecodedEnvelope F) (id : Uuid) : Prop :=
  envelope.id = id ∧ ¬envelope.IsTick

/-- The call asked for the reply that the envelope is. -/
def MuxCall.AskedFor (call : MuxCall F E) (envelope : DecodedEnvelope F) : Prop :=
  ∃ id, call.request = .exchange id ∧ envelope.Answers id

/-- What holds of every call: its continuation is resumed at most once, not before it is made, and
what it is resumed with and what the call returns was asked for. -/
structure MuxCall.Sound (call : MuxCall F E) : Prop where
  once : call.resumed.length ≤ 1
  fresh : call.phase.Fresh → call.resumed = []
  resumed : ∀ envelope, .ok envelope ∈ call.resumed → call.AskedFor envelope
  returned : ∀ envelope, call.phase = .returned (.ok (some envelope)) → call.AskedFor envelope

/-- A call that changes its phase without bringing an envelope stays sound. -/
theorem MuxCall.Sound.enter {call : MuxCall F E} {phase : CallPhase F E} (h : call.Sound)
    (hfresh : call.phase.Fresh) (hplain : phase.Plain) : MuxCall.Sound { call with phase } where
  once := h.once
  fresh _ := h.fresh hfresh
  resumed := h.resumed
  returned envelope heq := by
      subst heq
      exact absurd rfl (hplain envelope)

/-- A call may wait at any time. -/
theorem MuxCall.Sound.wait {call : MuxCall F E} (h : call.Sound) :
    MuxCall.Sound { call with phase := .waiting } where
  once := h.once
  fresh hfresh := False.elim hfresh
  resumed := h.resumed
  returned envelope heq := by cases heq

/-- A call may return what it asked for. -/
theorem MuxCall.Sound.bring {call : MuxCall F E} (h : call.Sound)
    {result : Except (AnyError E) (Option (DecodedEnvelope F))}
    (hresult : ∀ envelope, result = .ok (some envelope) → call.AskedFor envelope) :
    MuxCall.Sound { call with phase := .returned result } where
  once := h.once
  fresh hfresh := False.elim hfresh
  resumed := h.resumed
  returned envelope heq := hresult envelope (CallPhase.returned.inj heq)

/-- A continuation that has not been resumed can be. -/
theorem MuxCall.Sound.resume {call : MuxCall F E} (h : call.Sound) (hnone : call.resumed = [])
    (hphase : ¬call.phase.Fresh) {result : Except (AnyError E) (DecodedEnvelope F)}
    (hresult : ∀ envelope, result = .ok envelope → call.AskedFor envelope) :
    MuxCall.Sound { call with resumed := call.resumed ++ [result] } where
  once := by simp [hnone]
  fresh hfresh := absurd hfresh hphase
  resumed envelope hmem := by
      simp only [hnone, List.nil_append, List.mem_singleton] at hmem
      exact hresult envelope hmem.symm
  returned := h.returned

namespace MuxSystem

/-! ### Lists of calls in which one call changes -/

/-- Resuming every call of a list without repetitions resumes each of them once. -/
theorem getElem?_resumeAll (calls : List (MuxCall F E))
    (result : Except (AnyError E) (DecodedEnvelope F)) {is : List ℕ} (hnodup : is.Nodup) (j : ℕ) :
    (resumeAll calls is result)[j]? = calls[j]?.map fun call =>
      if j ∈ is then { call with resumed := call.resumed ++ [result] } else call := by
  induction is generalizing calls with
  | nil => simp [resumeAll]
  | cons i is ih =>
      obtain ⟨hi, hnodup⟩ := List.nodup_cons.mp hnodup
      have hrest := ih (calls.modify i fun call =>
        { call with resumed := call.resumed ++ [result] }) hnodup
      simp only [resumeAll, List.foldl_cons] at hrest ⊢
      rw [hrest, List.getElem?_modify]
      cases calls[j]? with
      | none => rfl
      | some call =>
          simp only [Option.map_eq_map, Option.map_some, Option.some.injEq, List.mem_cons]
          by_cases hij : i = j
          · subst hij
            simp [hi]
          · simp [hij, Ne.symm hij]

/-! ### The invariant -/

/-- What holds in every state: a key of `pending` leads to the call that waits on it, an early reply
is one, and nothing is pending on a closed link. -/
structure Sound (s : MuxSystem F E) : Prop where
  calls : ∀ (i : ℕ) call, s.calls[i]? = some call → call.Sound
  pending : ∀ (id : Uuid) (i : ℕ), s.mux.pending.lookup id = some i →
    s.calls[i]? = some ⟨.exchange id, .waiting, []⟩
  early : ∀ (id : Uuid) envelope, s.mux.early.lookup id = some envelope → envelope.Answers id
  closed : s.mux.closure.isSome → ∀ id, s.mux.pending.lookup id = none

theorem sound_initial : (initial : MuxSystem F E).Sound where
  calls i call h := by simp [initial] at h
  pending id i h := by simp [initial] at h
  early id envelope h := by simp [initial] at h
  closed h := by simp [initial] at h

theorem Sound.agrees {s t : MuxSystem F E} (hs : s.Sound) (h : s.Agrees t) : t.Sound where
  calls := by
      rw [h.calls]
      exact hs.calls
  pending := by
      rw [h.calls, h.pending]
      exact hs.pending
  early := by
      rw [h.early]
      exact hs.early
  closed := by
      rw [h.closure, h.pending]
      exact hs.closed

/-- A call whose continuation is not waiting to be resumed is in no entry of `pending`. -/
theorem Sound.not_pending {s : MuxSystem F E} (hs : s.Sound) {i : ℕ} {call : MuxCall F E}
    (hcall : s.calls[i]? = some call) (h : ∀ id, call ≠ ⟨.exchange id, .waiting, []⟩) (id : Uuid) :
    s.mux.pending.lookup id ≠ some i := by
  intro hpending
  exact h id (Option.some.inj (hcall.symm.trans (hs.pending id i hpending)))

/-- The entries of `pending` stay true when only a call that is in none of them changes. -/
theorem Sound.pending_modify {s : MuxSystem F E} (hs : s.Sound) {i : ℕ} {call : MuxCall F E}
    (hcall : s.calls[i]? = some call) (h : ∀ id, call ≠ ⟨.exchange id, .waiting, []⟩)
    (f : MuxCall F E → MuxCall F E) (id : Uuid) (j : ℕ)
    (hj : s.mux.pending.lookup id = some j) :
    (s.calls.modify i f)[j]? = some ⟨.exchange id, .waiting, []⟩ := by
  have hne : i ≠ j := by
    rintro rfl
    exact hs.not_pending hcall h id hj
  rw [List.getElem?_modify_ne _ _ hne]
  exact hs.pending id j hj

/-- No call is in two entries of `pending`. -/
theorem Sound.nodup_pending {s : MuxSystem F E} (hs : s.Sound) :
    (s.mux.pending.entries.map Sigma.snd).Nodup := by
  refine List.Nodup.map_on ?_ s.mux.pending.nodupKeys.nodup
  rintro ⟨id, i⟩ hi ⟨id', i'⟩ hi' heq
  have hcall := hs.pending id i (AList.mem_lookup_iff.mpr hi)
  have hcall' := hs.pending id' i' (AList.mem_lookup_iff.mpr hi')
  simp only at heq
  subst heq
  rw [hcall] at hcall'
  simp only [Option.some.injEq, MuxCall.mk.injEq, MuxRequest.exchange.injEq] at hcall'
  obtain ⟨rfl, -⟩ := hcall'
  rfl

/-- On a closed link `pending` is empty. -/
theorem Sound.pending_of_closed {s : MuxSystem F E} (hs : s.Sound)
    (hclosed : s.mux.closure.isSome) : s.mux.pending = ∅ := by
  refine AList.ext (List.eq_nil_iff_forall_not_mem.mpr ?_)
  rintro ⟨id, i⟩ hmem
  have hlookup : s.mux.pending.lookup id = some i := AList.mem_lookup_iff.mpr hmem
  rw [hs.closed hclosed id] at hlookup
  cases hlookup

/-- The calls in `pending` are those with an entry. -/
theorem mem_pending {s : MuxSystem F E} {i : ℕ} :
    i ∈ s.mux.pending.entries.map Sigma.snd ↔ ∃ id, s.mux.pending.lookup id = some i := by
  constructor
  · intro h
    obtain ⟨⟨id, j⟩, hmem, rfl⟩ := List.mem_map.mp h
    exact ⟨id, AList.mem_lookup_iff.mpr hmem⟩
  · rintro ⟨id, hid⟩
    exact List.mem_map.mpr ⟨⟨id, i⟩, AList.mem_lookup_iff.mp hid, rfl⟩

theorem calls_resume_enter (s : MuxSystem F E) (i : ℕ)
    (result : Except (AnyError E) (DecodedEnvelope F)) (phase : CallPhase F E) :
    ((s.resume i result).enter i phase).calls = s.calls.modify i fun call =>
      { call with phase, resumed := call.resumed ++ [result] } := by
  simp only [enter, resume, List.modify_modify_eq]
  rfl

/-- A call that makes its continuation and has it resumed at once. -/
theorem Sound.calls_resume_enter {s : MuxSystem F E} (hs : s.Sound) {i : ℕ} {id : Uuid} {resumed}
    (hcall : s.calls[i]? = some ⟨.exchange id, .registering, resumed⟩)
    {result : Except (AnyError E) (DecodedEnvelope F)}
    (hresult : ∀ envelope, result = .ok envelope → envelope.Answers id) :
    ∀ (j : ℕ) call, ((s.resume i result).enter i .waiting).calls[j]? = some call → call.Sound := by
  rw [MuxSystem.calls_resume_enter]
  refine Transition.forall_modify hs.calls ?_
  intro call hcall'
  cases hcall.symm.trans hcall'
  have hsound := hs.calls i _ hcall
  refine hsound.wait.resume (hsound.fresh trivial) not_false ?_
  intro envelope heq
  exact ⟨id, rfl, hresult envelope heq⟩

theorem lookup_erase {β : Type} (entries : AList fun _ : Uuid => β) {id id' : Uuid} {value : β}
    (h : (entries.erase id).lookup id' = some value) :
    id' ≠ id ∧ entries.lookup id' = some value := by
  have hne : id' ≠ id := by
    rintro rfl
    rw [AList.lookup_erase] at h
    cases h
  rw [AList.lookup_erase_ne hne] at h
  exact ⟨hne, h⟩

theorem early_park {s : MuxSystem F E} {envelope : DecodedEnvelope F} (htick : ¬envelope.IsTick)
    (hs : ∀ (id : Uuid) e, s.mux.early.lookup id = some e → e.Answers id) (id : Uuid)
    (e : DecodedEnvelope F) (h : (s.park envelope).mux.early.lookup id = some e) :
    e.Answers id := by
  simp only [park] at h
  by_cases hid : id = envelope.id
  · subst hid
    rw [AList.lookup_insert] at h
    cases h
    exact ⟨rfl, htick⟩
  · rw [AList.lookup_insert_ne hid] at h
    exact hs id e h

/-- **Every change keeps the invariant.** -/
theorem Sound.changes {s t : MuxSystem F E} {e} (hs : s.Sound) (h : s.Changes e t) : t.Sound := by
  cases h with
  | nothing => exact hs
  | called request =>
      have hlookup : ∀ (i : ℕ) call, s.calls[i]? = some call →
          (s.calls ++ [⟨request, .entering, []⟩])[i]? = some call := by
        intro i call hcall
        rw [List.getElem?_append_left (List.getElem?_eq_some_iff.mp hcall).1]
        exact hcall
      refine ⟨?_, fun id i hi => hlookup i _ (hs.pending id i hi), hs.early, hs.closed⟩
      intro i call hcall
      rcases List.mem_append.mp (List.mem_of_getElem? hcall) with hmem | hmem
      · obtain ⟨j, hj⟩ := List.getElem?_of_mem hmem
        exact hs.calls j call hj
      · rw [List.mem_singleton.mp hmem]
        exact ⟨by simp, fun _ => rfl, by simp, by simp⟩
  | entered i call phase hcall hfresh hplain =>
      refine ⟨?_, ?_, hs.early, hs.closed⟩
      · refine Transition.forall_modify hs.calls ?_
        intro call' hcall'
        cases hcall.symm.trans hcall'
        exact (hs.calls i call hcall).enter hfresh hplain
      · refine hs.pending_modify hcall ?_ _
        rintro id rfl
        exact hfresh
  | claimed i id resumed answered hcall hearly =>
      refine ⟨?_, ?_, fun j e he => hs.early j e (lookup_erase _ he).2, hs.closed⟩
      · refine Transition.forall_modify hs.calls ?_
        intro call' hcall'
        cases hcall.symm.trans hcall'
        refine (hs.calls i _ hcall).bring ?_
        intro envelope heq
        cases heq
        exact ⟨id, rfl, hs.early id answered hearly⟩
      · exact hs.pending_modify hcall (by simp) _
  | refused i id resumed closure hcall hclosure =>
      refine ⟨hs.calls_resume_enter hcall (by simp), ?_, hs.early, hs.closed⟩
      rw [MuxSystem.calls_resume_enter]
      exact hs.pending_modify hcall (by simp) _
  | answered i id resumed answered hcall hclosure hearly =>
      refine ⟨?_, ?_, fun j e he => hs.early j e (lookup_erase _ he).2, hs.closed⟩
      · refine hs.calls_resume_enter hcall ?_
        intro envelope heq
        cases heq
        exact hs.early id answered hearly
      · rw [MuxSystem.calls_resume_enter]
        exact hs.pending_modify hcall (by simp) _
  | stored i id resumed hcall hclosure hearly =>
      have hnone : resumed = [] := (hs.calls i _ hcall).fresh trivial
      refine ⟨?_, ?_, hs.early, ?_⟩
      · refine Transition.forall_modify hs.calls ?_
        intro call' hcall'
        cases hcall.symm.trans hcall'
        exact (hs.calls i _ hcall).wait
      · intro j k hk
        by_cases hj : j = id
        · subst hj
          simp only [enter, store, AList.lookup_insert, Option.some.injEq] at hk ⊢
          subst hk
          simp [hcall, hnone]
        · simp only [enter, store, AList.lookup_insert_ne hj] at hk ⊢
          exact hs.pending_modify hcall (by simp) _ j k hk
      · intro hclosed
        simp only [enter, store, hclosure, Option.isSome_none, Bool.false_eq_true] at hclosed
  | woken i id result rest hcall =>
      have hsound := hs.calls i _ hcall
      refine ⟨?_, hs.pending_modify hcall (by simp) _, hs.early, hs.closed⟩
      refine Transition.forall_modify hs.calls ?_
      intro call' hcall'
      cases hcall.symm.trans hcall'
      refine hsound.bring ?_
      intro envelope heq
      cases result with
      | error error => cases heq
      | ok answered =>
          cases heq
          exact hsound.resumed envelope List.mem_cons_self
  | shutdown error =>
      refine ⟨?_, ?_, ?_, fun _ id => AList.lookup_empty id⟩
      · intro i call hcall
        simp only [shutdown, getElem?_resumeAll _ _ hs.nodup_pending] at hcall
        obtain ⟨call', hcall', rfl⟩ := Option.map_eq_some_iff.mp hcall
        split
        · rename_i hmem
          obtain ⟨id, hid⟩ := mem_pending.mp hmem
          cases hcall'.symm.trans (hs.pending id i hid)
          exact (hs.calls i _ hcall').resume rfl not_false (by simp)
        · exact hs.calls i call' hcall'
      · intro id i hi
        simp only [shutdown, AList.lookup_empty, reduceCtorEq] at hi
      · intro id envelope he
        simp only [shutdown, AList.lookup_empty, reduceCtorEq] at he
  | delivered envelope i htick hpending =>
      have hcall := hs.pending _ i hpending
      refine ⟨?_, ?_, hs.early, ?_⟩
      · refine Transition.forall_modify hs.calls ?_
        intro call' hcall'
        cases hcall.symm.trans hcall'
        refine (hs.calls i _ hcall).resume rfl not_false ?_
        intro answered heq
        cases heq
        exact ⟨envelope.id, rfl, rfl, htick⟩
      · intro id j hj
        obtain ⟨hne, hj⟩ := lookup_erase _ hj
        have hcall' := hs.pending id j hj
        have hij : i ≠ j := by
          rintro rfl
          rw [hcall] at hcall'
          simp only [Option.some.injEq, MuxCall.mk.injEq, MuxRequest.exchange.injEq] at hcall'
          exact hne hcall'.1.symm
        simp only [deliver, resume, List.getElem?_modify_ne _ _ hij]
        exact hcall'
      · intro hclosed
        have hnone := hs.closed hclosed envelope.id
        rw [hpending] at hnone
        cases hnone
  | parked envelope htick hpending hroom =>
      exact ⟨hs.calls, hs.pending, early_park htick hs.early, hs.closed⟩
  | replaced envelope first htick hpending hfull hfirst =>
      refine ⟨hs.calls, hs.pending, early_park htick ?_, hs.closed⟩
      intro id e he
      exact hs.early id e (lookup_erase _ he).2

/-! ### Distinct ids -/

/-- No two exchanges have the same id. -/
def DistinctIds (s : MuxSystem F E) : Prop :=
  ∀ (i j : ℕ) (c d : MuxCall F E) (id : Uuid), s.calls[i]? = some c → s.calls[j]? = some d →
    c.request = .exchange id → d.request = .exchange id → i = j

/-- Whoever waits and has not been resumed is in `pending`. -/
def Awaited (s : MuxSystem F E) : Prop :=
  ∀ (i : ℕ) (id : Uuid), s.calls[i]? = some ⟨.exchange id, .waiting, []⟩ →
    s.mux.pending.lookup id = some i

/-- A call is there for good, with its request. -/
theorem Changes.request {s t : MuxSystem F E} {e} (h : s.Changes e t) {i : ℕ} {call : MuxCall F E}
    (hcall : s.calls[i]? = some call) :
    ∃ call', t.calls[i]? = some call' ∧ call'.request = call.request := by
  have hmodify : ∀ (j : ℕ) (f : MuxCall F E → MuxCall F E),
      (∀ call, (f call).request = call.request) →
      ∃ call', (s.calls.modify j f)[i]? = some call' ∧ call'.request = call.request := by
    intro j f hf
    rw [List.getElem?_modify, hcall]
    by_cases hij : j = i
    · exact ⟨f call, by simp [hij], hf call⟩
    · exact ⟨call, by simp [hij], rfl⟩
  cases h with
  | nothing => exact ⟨call, hcall, rfl⟩
  | called request =>
      refine ⟨call, ?_, rfl⟩
      rw [List.getElem?_append_left (List.getElem?_eq_some_iff.mp hcall).1]
      exact hcall
  | entered j => exact hmodify j _ fun _ => rfl
  | claimed j => exact hmodify j _ fun _ => rfl
  | refused j =>
      rw [calls_resume_enter]
      exact hmodify j _ fun _ => rfl
  | answered j =>
      rw [calls_resume_enter]
      exact hmodify j _ fun _ => rfl
  | stored j => exact hmodify j _ fun _ => rfl
  | woken j => exact hmodify j _ fun _ => rfl
  | shutdown error =>
      have hall : ∀ (is : List ℕ) (calls : List (MuxCall F E)) result,
          (∃ call', calls[i]? = some call'
          ∧ call'.request = call.request) → ∃ call', (resumeAll calls is result)[i]? = some call' ∧
            call'.request = call.request := by
        intro is
        induction is with
        | nil => exact fun _ _ h => h
        | cons j is ih =>
            rintro calls result ⟨call', hcall', hrequest⟩
            refine ih _ result ?_
            rw [List.getElem?_modify, hcall']
            by_cases hij : j = i
            · exact ⟨{ call' with resumed := call'.resumed ++ [result] }, by simp [hij], hrequest⟩
            · exact ⟨call', by simp [hij], hrequest⟩
      exact hall _ s.calls _ ⟨call, hcall, rfl⟩
  | delivered envelope j => exact hmodify j _ fun _ => rfl
  | parked => exact ⟨call, hcall, rfl⟩
  | replaced => exact ⟨call, hcall, rfl⟩

/-- If ids are distinct at the end, they were before. -/
theorem DistinctIds.before {s t : MuxSystem F E} {e} (ht : t.DistinctIds) (h : s.Changes e t) :
    s.DistinctIds := by
  intro i j c d id hc hd hcid hdid
  obtain ⟨c', hc', hceq⟩ := h.request hc
  obtain ⟨d', hd', hdeq⟩ := h.request hd
  exact ht i j c' d' id hc' hd' (hceq.trans hcid) (hdeq.trans hdid)

/-- **With distinct ids nobody who waits is ever lost from `pending`.** -/
theorem Awaited.changes {s t : MuxSystem F E} {e} (ha : s.Awaited) (hs : s.Sound)
    (hd : s.DistinctIds) (h : s.Changes e t) : t.Awaited := by
  intro j id' hwaiting
  cases h with
  | nothing => exact ha j id' hwaiting
  | called request =>
      rw [List.getElem?_append] at hwaiting
      split at hwaiting
      · exact ha j id' hwaiting
      · have hmem := List.mem_singleton.mp (List.mem_of_getElem? hwaiting)
        cases congrArg MuxCall.phase hmem
  | entered i call phase hcall hfresh hplain =>
      rcases Transition.getElem?_modify_cases hwaiting with ⟨-, hold⟩ | ⟨-, before, -, heq⟩
      · exact ha j id' hold
      · cases congrArg MuxCall.phase heq
        exact hplain.elim
  | claimed i id resumed answered hcall hearly =>
      rcases Transition.getElem?_modify_cases hwaiting with ⟨-, hold⟩ | ⟨-, before, -, heq⟩
      · exact ha j id' hold
      · cases congrArg MuxCall.phase heq
  | refused i id resumed closure hcall hclosure =>
      rw [calls_resume_enter] at hwaiting
      rcases Transition.getElem?_modify_cases hwaiting with ⟨-, hold⟩ | ⟨-, before, -, heq⟩
      · exact ha j id' hold
      · simp at heq
  | answered i id resumed answered hcall hclosure hearly =>
      rw [calls_resume_enter] at hwaiting
      rcases Transition.getElem?_modify_cases hwaiting with ⟨-, hold⟩ | ⟨-, before, -, heq⟩
      · exact ha j id' hold
      · simp at heq
  | stored i id resumed hcall hclosure hearly =>
      simp only [enter, store]
      rcases Transition.getElem?_modify_cases hwaiting with
        ⟨hne, hold⟩ | ⟨rfl, before, hbefore, heq⟩
      · have hid : id' ≠ id := by
          rintro rfl
          exact hne (hd i j _ _ id' hcall hold rfl rfl)
        rw [AList.lookup_insert_ne hid]
        exact ha j id' hold
      · cases hcall.symm.trans hbefore
        cases heq
        exact AList.lookup_insert _
  | woken i id result rest hcall =>
      rcases Transition.getElem?_modify_cases hwaiting with ⟨-, hold⟩ | ⟨-, before, -, heq⟩
      · exact ha j id' hold
      · cases congrArg MuxCall.phase heq
  | shutdown error =>
      simp only [shutdown, getElem?_resumeAll _ _ hs.nodup_pending] at hwaiting
      obtain ⟨call, hcall, heq⟩ := Option.map_eq_some_iff.mp hwaiting
      split at heq
      · simp at heq
      · rename_i hmem
        subst heq
        exact absurd (mem_pending.mpr ⟨id', ha j id' hcall⟩) hmem
  | delivered envelope i htick hpending =>
      rcases Transition.getElem?_modify_cases hwaiting with ⟨hne, hold⟩ | ⟨-, before, -, heq⟩
      · have hlookup := ha j id' hold
        have hid : id' ≠ envelope.id := by
          rintro rfl
          exact hne (Option.some.inj (hpending.symm.trans hlookup))
        simp only [deliver, resume, AList.lookup_erase_ne hid]
        exact hlookup
      · simp at heq
  | parked => exact ha j id' hwaiting
  | replaced => exact ha j id' hwaiting

end MuxSystem

/-! ### After the closure -/

/-- The request has been sent. -/
def CallPhase.Sent : CallPhase F E → Prop
  | .entering | .sending => False
  | .sent | .registering | .waiting | .returned _ => True

/-- How many turns a call whose request has been sent may still need. -/
def CallPhase.turnsLeft : CallPhase F E → ℕ
  | .entering | .sending => 4
  | .sent => 3
  | .registering => 2
  | .waiting => 1
  | .returned _ => 0

theorem CallPhase.Sent.turnsLeft_le {phase : CallPhase F E} (h : phase.Sent) :
    phase.turnsLeft ≤ 3 := by
  cases phase with
  | entering => exact h.elim
  | sending => exact h.elim
  | sent => exact Nat.le_refl 3
  | registering => exact Nat.le_succ 2
  | waiting => exact Nat.le_add_left 1 2
  | returned result => exact Nat.zero_le 3

/-- The move is a turn of call `i`. -/
def MuxMove.isTurn (i : ℕ) : MuxMove E → Bool
  | .turn j => i == j
  | _ => false

namespace MuxSystem

theorem Changes.isSome_closure {s t : MuxSystem F E} {e} (h : s.Changes e t)
    (hclosed : s.mux.closure.isSome) : t.mux.closure.isSome := by
  cases h with
  | shutdown error => rfl
  | _ => exact hclosed

/-- A turn of one call leaves the others where they are. -/
theorem calls_of_turn {s t : MuxSystem F E} {i j : ℕ} (h : s.turn i = some t) (hne : i ≠ j) :
    t.calls[j]? = s.calls[j]? := by
  have henter : ∀ (u : MuxSystem F E) phase, (u.enter i phase).calls[j]? = u.calls[j]? :=
    fun u phase => List.getElem?_modify_ne _ _ hne
  have hresume : ∀ (u : MuxSystem F E) result, (u.resume i result).calls[j]? = u.calls[j]? :=
    fun u result => List.getElem?_modify_ne _ _ hne
  unfold turn at h
  split at h
  · cases h
  · split at h
    · split at h
      · cases h
        exact henter _ _
      · cases h
        rw [henter, s.agrees_start.calls]
    · split at h
      · cases h
        exact henter _ _
      · cases h
        exact henter _ _
    · split at h
      · cases h
        exact henter _ _
      · cases h
        exact henter _ _
    · split at h
      · cases h
        rw [henter, hresume]
      · split at h
        · cases h
          rw [henter, hresume]
          rfl
        · cases h
          exact henter _ _
    · split at h
      · cases h
      · cases h
        exact henter _ _
    · cases h

/-- Resuming calls does not move them. -/
theorem phase_resumeAll (result : Except (AnyError E) (DecodedEnvelope F)) (is : List ℕ)
    {calls : List (MuxCall F E)} {i : ℕ} {request phase resumed}
    (h : calls[i]? = some ⟨request, phase, resumed⟩) :
    ∃ resumed', (resumeAll calls is result)[i]? = some ⟨request, phase, resumed'⟩ := by
  induction is generalizing calls resumed with
  | nil => exact ⟨resumed, h⟩
  | cons j is ih =>
      by_cases hij : j = i
      · subst hij
        have hcall : (calls.modify j fun call =>
            { call with resumed := call.resumed ++ [result] })[j]?
            = some ⟨request, phase, resumed ++ [result]⟩ := by simp [h]
        exact ih hcall
      · have hcall := (List.getElem?_modify_ne
          (fun call => { call with resumed := call.resumed ++ [result] }) calls hij).trans h
        exact ih hcall

theorem phase_of_dispatch {s t : MuxSystem F E} {envelope : DecodedEnvelope F} {first : Uuid}
    (h : s.dispatch envelope first = some t) {i : ℕ} {request phase resumed}
    (hcall : s.calls[i]? = some ⟨request, phase, resumed⟩) :
    ∃ resumed', t.calls[i]? = some ⟨request, phase, resumed'⟩ := by
  unfold dispatch at h
  split at h
  · cases h
    exact ⟨resumed, by rw [(s.agrees_yieldTick _).calls, hcall]⟩
  · split at h
    · rename_i j hpending
      cases h
      exact phase_resumeAll (.ok envelope) [j] hcall
    · split at h
      · split at h
        · cases h
          exact ⟨resumed, hcall⟩
        · cases h
      · cases h
        exact ⟨resumed, hcall⟩

/-- **Whose request has been sent moves in its own turns only.** -/
theorem phase_of_step {decoder : JSONDecoder F E} {s t : MuxSystem F E} {move : MuxMove E}
    (h : s.step decoder move = some t) {i : ℕ} (hne : move.isTurn i = false)
    {request phase resumed} (hcall : s.calls[i]? = some ⟨request, phase, resumed⟩)
    (hsent : phase.Sent) : ∃ resumed', t.calls[i]? = some ⟨request, phase, resumed'⟩ := by
  cases move with
  | call request =>
      cases h
      refine ⟨resumed, ?_⟩
      rw [List.getElem?_append_left (List.getElem?_eq_some_iff.mp hcall).1]
      exact hcall
  | turn j =>
      have hji : j ≠ i := by
        rintro rfl
        simp [MuxMove.isTurn] at hne
      exact ⟨resumed, (calls_of_turn h hji).trans hcall⟩
  | sent j failure =>
      have hcalls : ∃ phase', t = s.enter j phase' ∧
          ∃ call, s.calls[j]? = some call ∧ call.phase = .sending := by
        simp only [step, sent] at h
        split at h
        · cases h
        · rename_i call hcall
          split at h
          · rename_i hphase
            cases h
            exact ⟨_, rfl, call, hcall, hphase⟩
          · rename_i hphase _
            cases h
            exact ⟨_, rfl, call, hcall, hphase⟩
          · rename_i hphase _
            cases h
            exact ⟨_, rfl, call, hcall, hphase⟩
          · cases h
      obtain ⟨phase', rfl, call, hcall', hphase⟩ := hcalls
      have hji : j ≠ i := by
        rintro rfl
        cases hcall.symm.trans hcall'
        simp only at hphase
        subst hphase
        exact hsent
      exact ⟨resumed, (List.getElem?_modify_ne _ _ hji).trans hcall⟩
  | metricsTicks =>
      cases h
      exact ⟨resumed, by rw [s.agrees_metricsTicks.calls, hcall]⟩
  | next k =>
      simp only [step, next] at h
      split at h
      · cases h
        exact ⟨resumed, hcall⟩
      · cases h
  | shutdown error =>
      cases h
      exact phase_resumeAll _ _ hcall
  | begin k =>
      simp only [step, begin] at h
      split at h
      · cases h
        exact ⟨resumed, by rw [(s.agrees_loop k).calls, hcall]⟩
      · cases h
  | received k outcome first =>
      simp only [step, received] at h
      split at h
      · split at h
        · cases h
          exact phase_resumeAll _ _ hcall
        · cases h
          exact phase_resumeAll _ _ hcall
        · split at h
          · cases h
            exact phase_resumeAll _ _ hcall
          · obtain ⟨v, hv, rfl⟩ := Option.map_eq_some_iff.mp h
            rw [(v.agrees_loop k).calls]
            exact phase_of_dispatch hv hcall
      · cases h

/-- On a closed link a call whose request has been sent has returned, or its next turn is open to it
and brings it nearer to that. -/
theorem turn_of_closed {s : MuxSystem F E} (hs : s.Sound) (ha : s.Awaited)
    (hclosed : s.mux.closure.isSome) {i : ℕ} {id : Uuid} {phase : CallPhase F E} {resumed}
    (hcall : s.calls[i]? = some ⟨.exchange id, phase, resumed⟩) (hsent : phase.Sent) :
    (∃ result, phase = .returned result) ∨
      ∃ t phase' resumed', s.turn i = some t ∧ t.calls[i]? = some ⟨.exchange id, phase', resumed'⟩ ∧
        phase'.Sent ∧ phase'.turnsLeft < phase.turnsLeft := by
  obtain ⟨closure, hclosure⟩ := Option.isSome_iff_exists.mp hclosed
  cases phase with
  | entering => exact hsent.elim
  | sending => exact hsent.elim
  | returned result => exact Or.inl ⟨result, rfl⟩
  | sent =>
      refine Or.inr ?_
      cases hearly : s.mux.early.lookup id with
      | some answered =>
          refine ⟨(s.claim id).enter i (.returned (.ok (some answered))),
            .returned (.ok (some answered)), resumed, ?_, ?_, trivial, Nat.succ_pos 2⟩
          · simp only [turn, hcall, hearly]
          · simp [enter, claim, hcall]
      | none =>
          refine ⟨s.enter i .registering, .registering, resumed, ?_, ?_, trivial,
            Nat.lt_succ_self 2⟩
          · simp only [turn, hcall, hearly]
          · simp [enter, hcall]
  | registering =>
      refine Or.inr ⟨(s.resume i (.error closure)).enter i .waiting, .waiting,
        resumed ++ [.error closure], ?_, ?_, trivial, Nat.lt_succ_self 1⟩
      · simp only [turn, hcall, hclosure]
      · simp [calls_resume_enter, hcall]
  | waiting =>
      refine Or.inr ?_
      cases resumed with
      | nil =>
          have hpending := ha i id hcall
          rw [hs.closed hclosed id] at hpending
          cases hpending
      | cons result rest =>
          refine ⟨s.enter i (.returned (result.map some)), .returned (result.map some),
            result :: rest, ?_, ?_, trivial, Nat.succ_pos 0⟩
          · simp only [turn, hcall]
          · simp [enter, hcall]

/-- What holds along every run. -/
def Invariant (s : MuxSystem F E) : Prop := s.Sound ∧ (s.DistinctIds → s.Awaited)

theorem invariant_initial : (initial : MuxSystem F E).Invariant :=
  ⟨sound_initial, fun _ i id h => by simp [initial] at h⟩

variable {decoder : JSONDecoder F E}

theorem DistinctIds.before_step {s t : MuxSystem F E} {move : MuxMove E} (ht : t.DistinctIds)
    (h : s.step decoder move = some t) : s.DistinctIds := by
  obtain ⟨u, hchanges, hagrees⟩ := changes_of_step h
  have hu : u.DistinctIds := by
    intro i j c d id hc hd
    rw [← hagrees.calls] at hc hd
    exact ht i j c d id hc hd
  exact hu.before hchanges

/-- **One step keeps the invariant.** -/
theorem Invariant.step {s t : MuxSystem F E} {move : MuxMove E} (hs : s.Invariant)
    (h : s.step decoder move = some t) : t.Invariant := by
  obtain ⟨u, hchanges, hagrees⟩ := changes_of_step h
  refine ⟨(hs.1.changes hchanges).agrees hagrees, ?_⟩
  intro ht i id hcall
  have hdistinct := ht.before_step h
  rw [hagrees.calls] at hcall
  rw [hagrees.pending]
  exact (hs.2 hdistinct).changes hs.1 hdistinct hchanges i id hcall

theorem isSome_closure_of_step {s t : MuxSystem F E} {move : MuxMove E}
    (h : s.step decoder move = some t) (hclosed : s.mux.closure.isSome) :
    t.mux.closure.isSome := by
  obtain ⟨u, hchanges, hagrees⟩ := changes_of_step h
  rw [hagrees.closure]
  exact hchanges.isSome_closure hclosed

theorem DistinctIds.before_run {s u : MuxSystem F E} {moves : List (MuxMove E)}
    (hu : u.DistinctIds) (hrun : Transition.run (step decoder) s moves = some u) :
    s.DistinctIds := by
  induction moves generalizing s with
  | nil =>
      cases hrun
      exact hu
  | cons move moves ih =>
      obtain ⟨t, hstep, hrest⟩ := Transition.run_cons_eq_some.mp hrun
      exact (ih hrest).before_step hstep

theorem invariant_of_run {s u : MuxSystem F E} {moves : List (MuxMove E)} (hs : s.Invariant)
    (hrun : Transition.run (step decoder) s moves = some u) : u.Invariant :=
  Transition.run_keeps (fun _ _ _ hs hstep => hs.step hstep) hs hrun

theorem isSome_closure_of_run {s u : MuxSystem F E} {moves : List (MuxMove E)}
    (hclosed : s.mux.closure.isSome) (hrun : Transition.run (step decoder) s moves = some u) :
    u.mux.closure.isSome :=
  Transition.run_keeps (I := fun s => s.mux.closure.isSome)
    (fun _ _ _ hs hstep => isSome_closure_of_step hstep hs) hclosed hrun

/-- **After the closure** every turn that a call takes brings it nearer to its return, and nothing
else moves it. -/
theorem turnsLeft_of_run {s u : MuxSystem F E} {moves : List (MuxMove E)} (hs : s.Invariant)
    (hclosed : s.mux.closure.isSome) (hrun : Transition.run (step decoder) s moves = some u)
    (hids : u.DistinctIds) {i : ℕ} {id : Uuid} {phase : CallPhase F E} {resumed}
    (hcall : s.calls[i]? = some ⟨.exchange id, phase, resumed⟩) (hsent : phase.Sent) :
    ∃ phase' resumed', u.calls[i]? = some ⟨.exchange id, phase', resumed'⟩ ∧ phase'.Sent ∧
      phase'.turnsLeft + moves.countP (·.isTurn i) ≤ phase.turnsLeft := by
  induction moves generalizing s phase resumed with
  | nil =>
      cases hrun
      exact ⟨phase, resumed, hcall, hsent, by simp⟩
  | cons move moves ih =>
      obtain ⟨t, hstep, hrest⟩ := Transition.run_cons_eq_some.mp hrun
      have ht := hs.step hstep
      have htclosed := isSome_closure_of_step hstep hclosed
      cases hturn : move.isTurn i with
      | false =>
          obtain ⟨resumed', hcall'⟩ := phase_of_step hstep hturn hcall hsent
          obtain ⟨phase', resumed', hu, hsent', hle⟩ := ih ht htclosed hrest hcall' hsent
          refine ⟨phase', resumed', hu, hsent', ?_⟩
          simpa [hturn] using hle
      | true =>
          have hmove : move = .turn i := by
            cases move with
            | turn j =>
                simp only [MuxMove.isTurn, beq_iff_eq] at hturn
                rw [hturn]
            | _ => cases hturn
          subst hmove
          have ha := hs.2 ((hids.before_run hrest).before_step hstep)
          rcases turn_of_closed hs.1 ha hclosed hcall hsent with
            ⟨result, rfl⟩ | ⟨t', phase', resumed', ht', hcall', hsent', hlt⟩
          · simp [step, turn, hcall] at hstep
          · cases hstep.symm.trans ht'
            obtain ⟨phase'', resumed'', hu, hsent'', hle⟩ := ih ht htclosed hrest hcall' hsent'
            refine ⟨phase'', resumed'', hu, hsent'', ?_⟩
            have hcount : (MuxMove.turn i :: moves).countP (·.isTurn i)
                = moves.countP (·.isTurn i) + 1 := List.countP_cons_of_pos hturn
            omega

/-- The call has returned; or its next turn is open to it, and it has had fewer than three. -/
def Finishing (s : MuxSystem F E) (i : ℕ) (moves : List (MuxMove E)) : Prop :=
  (∃ call result, s.calls[i]? = some call ∧ call.phase = .returned result) ∨
    ((s.turn i).isSome ∧ moves.countP (·.isTurn i) < 3)

end MuxSystem

/-- A decoder that takes one byte for a `pong` with that byte in its id, and nothing else. -/
def pongDecoder : JSONDecoder Unit Unit where
  header
    | [b] => .ok ⟨PROTOCOL_VERSION, toyUuid b, .pong, 0⟩
    | _ => .error ()
  error _ := .error ()
  hello _ := .error ()
  helloOk _ := .error ()
  ping _ := .error ()
  pong _ := .ok ⟨0, 0⟩
  bye _ := .error ()
  pairRequest _ := .error ()
  pairConfirm _ := .error ()
  pairRevoke _ := .error ()
  metricsSubscribe _ := .error ()
  metricsTick _ := .error ()
  metricsHistory _ := .error ()

/-- An exchange sends its request and waits, and the link is shut down. -/
def shutDown : List (MuxMove Unit) :=
  [.call (.exchange (toyUuid 1)), .turn 0, .begin 0, .sent 0 none, .turn 0, .turn 0, .shutdown none]

end Osprey
