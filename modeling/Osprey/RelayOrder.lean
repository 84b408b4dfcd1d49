/-
**The order of relayed frames.**

`socket.on('message')` of `relay/src/routes/ws.ts` calls `handleFrame` for every message and does
not wait for it, and `handleFrame` waits for a transaction of its own before it sends the frame on.
So the frames a socket receives for one peer leave in the order in which their lookups come back,
and they are Noise ciphertexts, which the other end can read in the order of sending only.

Frames are told apart by the number of their message: two with the same payload are two frames.

Main definitions:

* `Osprey.Relay.receivedFor`, `Osprey.Relay.sentTo` — the frames a socket has received for a peer,
  and those of them that were sent to a socket;
* `Osprey.Relay.PeerThere` — the peer is paired and attached when a lookup for it has come back;
* `Osprey.Relay.returned` — the order in which the lookups have come back;
* `Osprey.Relay.InTurn` — each came back right after that of the frame received before.

Main results:

* `Osprey.Relay.sentTo_of_run` — to a peer that is there, the frames go out in the order in which
  their lookups come back;
* `Osprey.Relay.inSequence_iff_inTurn` — **the order is kept exactly if the lookups come back in the
  order of receipt**;
* `Osprey.Relay.frames_overtaken` — a run in which a frame overtakes another.
-/

import Osprey.RelayFrames

set_option relaxedAutoImplicit false
set_option autoImplicit false

namespace Osprey.Relay

open Server

/-! ### Segments of a list -/

/-- A segment of a list without repetitions is extended by the element that follows its last one. -/
theorem concat_infix_iff {α : Type} {segment whole : List α} (hwhole : whole.Nodup)
    (h : segment <:+: whole) {a : α} (ha : a ∈ whole) :
    segment ++ [a] <:+: whole ↔ ∀ last ∈ segment.getLast?, [last, a] <:+: whole := by
  rcases List.eq_nil_or_concat segment with rfl | ⟨front, last, rfl⟩
  · obtain ⟨before, after, rfl⟩ := List.append_of_mem ha
    constructor
    · intro _ last hlast
      cases hlast
    · intro _
      exact ⟨before, after, by simp⟩
  · constructor
    · rintro ⟨before, after, hsplit⟩ last' hlast'
      have hlast : last' = last := by simpa using hlast'.symm
      exact ⟨before ++ front, after, by rw [← hsplit, hlast]; simp⟩
    · intro hnext
      obtain ⟨before, after, hsplit⟩ := h
      obtain ⟨before', after', hsplit'⟩ := hnext last (by simp)
      -- the last element stands at one place only
      have hsame : (before ++ front) ++ last :: after = before' ++ last :: (a :: after') := by
        simpa using hsplit.trans hsplit'.symm
      have hnodup : ((before ++ front) ++ last :: after).Nodup := by simpa [← hsplit] using hwhole
      have hnotin := (List.nodup_cons.mp (List.nodup_middle.mp hnodup)).1
      have hbefore : last ∉ before ++ front := fun hmem => hnotin (List.mem_append_left _ hmem)
      have hafter : last ∉ after := fun hmem => hnotin (List.mem_append_right _ hmem)
      obtain ⟨-, -, rfl⟩ := (List.append_cons_inj_of_notMem hbefore hafter).mp hsame
      exact ⟨before, after', by rw [← hsplit]; simp⟩

/-- A list of elements of a list without repetitions is a segment of it exactly if each of them is
followed by the one that follows it there. -/
theorem infix_iff_isChain {α : Type} {segment whole : List α} (hwhole : whole.Nodup) :
    segment <:+: whole ↔
      segment ⊆ whole ∧ segment.IsChain fun a b => [a, b] <:+: whole := by
  constructor
  · intro h
    refine ⟨h.subset, List.isChain_iff_forall_rel_of_append_cons_cons.mpr ?_⟩
    rintro a b before after rfl
    exact List.IsInfix.trans ⟨before, after, by simp⟩ h
  · rintro ⟨hsubset, hchain⟩
    induction segment using List.reverseRecOn with
    | nil => exact List.nil_infix
    | append_singleton segment a ih =>
        obtain ⟨hfront, -, hlast⟩ := List.isChain_append.mp hchain
        have hsegment := ih (fun b hb => hsubset (List.mem_append_left _ hb)) hfront
        refine (concat_infix_iff hwhole hsegment (hsubset (by simp))).mpr fun last hmem => ?_
        exact hlast last hmem a (by simp)

/-- Where the first components tell the elements apart, segments are segments of these. -/
theorem infix_iff_map_fst {α β : Type} {f : α → α × β} {segment whole : List (α × β)}
    (hsegment : ∀ x ∈ segment, f x.1 = x) (hwhole : ∀ x ∈ whole, f x.1 = x) :
    segment <:+: whole ↔ segment.map Prod.fst <:+: whole.map Prod.fst := by
  constructor
  · exact fun h => h.map Prod.fst
  · intro h
    have hback {l : List (α × β)} (hl : ∀ x ∈ l, f x.1 = x) : (l.map Prod.fst).map f = l := by
      rw [List.map_map]
      exact (List.map_congr_left hl).trans l.map_id
    rw [← hback hsegment, ← hback hwhole]
    exact h.map f

/-! ### Received and sent -/

/-- The payload of a message that is a frame for the peer on socket `i`. -/
def frameFor (platform : Platform) (i : ℕ) (peerId : PgUuid) (message : ℕ × RawMessage) :
    Option Text :=
  match parseClientFrame platform message.2 with
  | .ok (.relay peer payload) => if message.1 = i ∧ peer.value = peerId then some payload else none
  | _ => none

/-- The frames for the peer among the messages on socket `i`, in the order they were received. -/
def receivedFor (platform : Platform) (messages : List (ℕ × RawMessage)) (i : ℕ)
    (peerId : PgUuid) : List (ℕ × Text) :=
  (List.range messages.length).filterMap fun k =>
    (messages[k]?.bind (frameFor platform i peerId)).map fun payload => (k, payload)

/-- The frames for the peer that socket `i` has received and that were sent to `socket`, in the
order they were sent. -/
def sentTo (platform : Platform) (s : Server) (i : ℕ) (peerId : PgUuid) (socket : ℕ) :
    List (ℕ × Text) :=
  s.sent.filterMap fun x =>
    match x.frame with
    | .relay _ payload =>
        if x.socket = socket ∧
            (s.messages[x.handler]?.bind (frameFor platform i peerId)).isSome then
          some (x.handler, payload)
        else none
    | _ => none

/-- The peer is there: when the call of `handleFrame` for a frame of socket `i` for it goes on, the
lookup has found the pairing, and the hub has an open `socket` for the peer, under the account id as
the token of the sender spells it. -/
def PeerThere (platform : Platform) (i : ℕ) (peerId : PgUuid) (socket : ℕ) (s : Server) :
    ServerEvent → Prop
  | .resume k _ =>
      ∀ handler ∈ s.handlers[k]?, ∀ lookup ∈ handler.handling.lookup,
        (frameFor platform i peerId (handler.socket, handler.raw)).isSome = true →
        s.outcome lookup = some (.ok (.peerIsPaired true)) ∧
        s.hub.get handler.device.accountId.chars peerId.chars = some socket ∧
        s.isOpen socket = true
  | _ => True

instance (platform : Platform) (i : ℕ) (peerId : PgUuid) (socket : ℕ) (s : Server) :
    (event : ServerEvent) → Decidable (PeerThere platform i peerId socket s event)
  | .resume k _ =>
      inferInstanceAs (Decidable (∀ handler ∈ s.handlers[k]?, ∀ lookup ∈ handler.handling.lookup,
        (frameFor platform i peerId (handler.socket, handler.raw)).isSome = true →
        s.outcome lookup = some (.ok (.peerIsPaired true)) ∧
        s.hub.get handler.device.accountId.chars peerId.chars = some socket ∧
        s.isOpen socket = true))
  | .db _ | .upgrade .. | .authenticated _ | .attach .. | .message .. | .closing _ | .close _
  | .delete .. | .resumeDelete .. => .isTrue trivial

/-- The message is a frame on socket `i` for the peer, under its id as the database prints it. -/
def names (platform : Platform) (i : ℕ) (peerId : PgUuid) (message : ℕ × RawMessage) : Bool :=
  match parseClientFrame platform message.2 with
  | .ok (.relay peer _) => message.1 = i ∧ peer.chars = peerId.chars
  | _ => false

/-- The numbers of such frames, in the order in which their lookups have come back. -/
def returned (platform : Platform) (messages : List (ℕ × RawMessage)) (i : ℕ) (peerId : PgUuid)
    (events : List ServerEvent) : List ℕ :=
  events.filterMap fun event =>
    match event with
    | .resume k _ => if messages[k]?.any (names platform i peerId) then some k else none
    | _ => none

/-- The lookups have come back in the order of receipt: each right after that of the frame for the
peer that was received right before. -/
def InTurn (platform : Platform) (i : ℕ) (peerId : PgUuid) (events : List ServerEvent) : Prop :=
  (returned platform (received events) i peerId events).IsChain fun k k' =>
    [k, k'] <:+: (receivedFor platform (received events) i peerId).map Prod.fst

instance (platform : Platform) (i : ℕ) (peerId : PgUuid) (events : List ServerEvent) :
    Decidable (InTurn platform i peerId events) :=
  inferInstanceAs (Decidable (List.IsChain _ _))

theorem receivedFor_nodup (platform : Platform) (messages : List (ℕ × RawMessage)) (i : ℕ)
    (peerId : PgUuid) : (receivedFor platform messages i peerId).Nodup := by
  refine List.nodup_range.filterMap ?_
  rintro k k' ⟨m, payload⟩ hk hk'
  obtain ⟨_, -, heq⟩ := Option.map_eq_some_iff.mp hk
  obtain ⟨_, -, heq'⟩ := Option.map_eq_some_iff.mp hk'
  exact (congrArg Prod.fst heq).trans (congrArg Prod.fst heq').symm

/-- A frame for the peer is among those received. -/
theorem mem_receivedFor {platform : Platform} {messages : List (ℕ × RawMessage)} {i : ℕ}
    {peerId : PgUuid} {k : ℕ} {payload : Text}
    (h : messages[k]?.bind (frameFor platform i peerId) = some payload) :
    (k, payload) ∈ receivedFor platform messages i peerId := by
  obtain ⟨message, hmessage, -⟩ := Option.bind_eq_some_iff.mp h
  refine List.mem_filterMap.mpr ⟨k, List.mem_range.mpr
    (List.getElem?_eq_some_iff.mp hmessage).1, ?_⟩
  rw [h]
  rfl

/-! ### One step -/

/-- What was sent to a socket is told apart by the messages that were there when it was sent. -/
theorem sentTo_of_replies {platform : Platform} {s s' : Server} (hs : Lawful platform s)
    {later : List (ℕ × RawMessage)} (hmessages : s'.messages = s.messages ++ later)
    (hreplies : Replies s s') (i : ℕ) (peerId : PgUuid) (socket : ℕ) :
    sentTo platform s' i peerId socket = sentTo platform s i peerId socket := by
  have hold : (s.sent.filterMap fun x =>
      match x.frame with
      | .relay _ payload =>
          if x.socket = socket ∧
              (s'.messages[x.handler]?.bind (frameFor platform i peerId)).isSome then
            some (x.handler, payload)
          else none
      | _ => none) = sentTo platform s i peerId socket := by
    refine List.filterMap_congr fun x hx => ?_
    cases hframe : x.frame with
    | error | pong => rfl
    | relay sender payload =>
        obtain ⟨handler, peer, lookup, receiver, hk, -⟩ := hs.sent x hx sender payload hframe
        have hlt : x.handler < s.messages.length := by
          rw [Server.messages, List.length_map]
          exact (List.getElem?_eq_some_iff.mp hk).1
        simp only [hmessages, List.getElem?_append_left hlt]
  rcases hreplies with hsame | ⟨x, hx, hnot⟩
  · rw [sentTo, hsame, hold]
  · rw [sentTo, hx, List.filterMap_append, hold]
    cases hframe : x.frame with
    | error | pong => simp [hframe]
    | relay sender payload =>
        rw [hframe] at hnot
        cases hnot

/-! ### Calls that go on -/

/-- A call that goes on has waited for its lookup, or for an audit; it waits for an audit next if
the lookup has found no pairing. -/
theorem handling_of_resume {platform : Platform} {s s' : Server} {k : ℕ} {audit : Draws}
    (h : s.resume platform k audit = some s') : ∃ handler handling,
      s.handlers[k]? = some handler ∧ s'.handlers = (s.setHandling k handling).handlers ∧
      ((∃ lookup, handler.handling = .looking lookup) ∨
        ∃ lookup t, handler.handling = .rejecting lookup t) ∧
      ∀ lookup t, handling = .rejecting lookup t →
        ∃ answer, s.outcome lookup = some (.ok answer) ∧ answer ≠ .peerIsPaired true := by
  unfold resume at h
  split at h
  · cases h
  · rename_i handler hk
    split at h
    · rename_i lookup peer payload hlooking hparse
      split at h
      · cases h
      · cases h
        exact ⟨handler, .finished (some lookup), hk, handlers_send _ _ _ _, .inl ⟨lookup, hlooking⟩,
          fun _ _ heq => (by cases heq)⟩
      · cases h
        refine ⟨handler, .finished (some lookup), hk, ?_, .inl ⟨lookup, hlooking⟩,
          fun _ _ heq => (by cases heq)⟩
        unfold deliver
        dsimp only
        split
        · exact handlers_send _ _ _ _
        · exact handlers_send _ _ _ _
      · rename_i answer hanswer houtcome
        cases h
        refine ⟨handler, .rejecting lookup s.nextTxn, hk, rfl, .inl ⟨lookup, hlooking⟩, ?_⟩
        rintro lookup' t heq
        cases heq
        exact ⟨answer, houtcome, hanswer⟩
    · rename_i lookup t hrejecting
      split at h
      · cases h
      · cases h
        exact ⟨handler, .finished (some lookup), hk, handlers_send _ _ _ _,
          .inr ⟨lookup, t, hrejecting⟩, fun _ _ heq => (by cases heq)⟩
      · cases h
        exact ⟨handler, .finished (some lookup), hk, handlers_send _ _ _ _,
          .inr ⟨lookup, t, hrejecting⟩, fun _ _ heq => (by cases heq)⟩
    · cases h

/-- A call that waits for an audit has found no pairing. -/
theorem rejecting_of_run {platform : Platform} {rows : List Row} {events : List ServerEvent}
    {s : Server} (h : Transition.run (Server.step platform) (.init rows) events = some s) :
    ∀ (k : ℕ) (handler : Handler) (lookup t : ℕ), s.handlers[k]? = some handler →
      handler.handling = .rejecting lookup t →
      ∃ answer, s.outcome lookup = some (.ok answer) ∧ answer ≠ .peerIsPaired true := by
  refine Transition.run_keeps (I := fun s => ∀ (k : ℕ) (handler : Handler) (lookup t : ℕ),
      s.handlers[k]? = some handler → handler.handling = .rejecting lookup t →
      ∃ answer, s.outcome lookup = some (.ok answer) ∧ answer ≠ .peerIsPaired true) ?_
    (fun k handler lookup t hk => by simp [Server.init] at hk) h
  intro u event v hu hstep k handler lookup t hk hrejecting
  have hmove := move_of_step hstep
  have hearlier (hk : u.handlers[k]? = some handler) :
      ∃ answer, v.outcome lookup = some (.ok answer) ∧ answer ≠ .peerIsPaired true := by
    obtain ⟨answer, houtcome, hanswer⟩ := hu k handler lookup t hk hrejecting
    exact ⟨answer, hmove.outcome houtcome, hanswer⟩
  -- the call whose turn it is, and the others
  have hresumed {k' : ℕ} {audit : Draws} (heq : event = .resume k' audit) :
      ∃ answer, v.outcome lookup = some (.ok answer) ∧ answer ≠ .peerIsPaired true := by
    subst heq
    obtain ⟨old, handling, hold, hhandlers, -, hfound⟩ := handling_of_resume hstep
    rw [hhandlers] at hk
    rcases Transition.getElem?_modify_cases hk with ⟨-, hk⟩ | ⟨-, before, -, rfl⟩
    · exact hearlier hk
    · obtain ⟨answer, houtcome, hanswer⟩ := hfound lookup t hrejecting
      exact ⟨answer, hmove.outcome houtcome, hanswer⟩
  cases hmove.frames with
  | still _ _ hmessage hresume hhandlers hsent => exact hearlier (hhandlers ▸ hk)
  | reply i raw device _ hdevice hhandlers hsent =>
      rw [hhandlers] at hk
      rcases ReadCommitted.append_cases hk with rfl | hk
      · cases hrejecting
      · exact hearlier hk
  | look i raw device peer payload _ hdevice hparse hhandlers hstore hsent =>
      rw [hhandlers] at hk
      rcases ReadCommitted.append_cases hk with rfl | hk
      · cases hrejecting
      · exact hearlier hk
  | deliver k' audit old lookup' peer payload socket _ hk' hlooking hparse houtcome hpeer
      hdelivering hhandlers hsent => exact hresumed rfl
  | answer k' audit old lookup' handling _ hk' hold hnew hdelivering hhandlers hsent =>
      exact hresumed rfl

/-! ### The frames go out as the lookups come back -/

section Names

variable {platform : Platform} {i : ℕ} {peerId : PgUuid} {message : ℕ × RawMessage}

theorem names_eq_true : names platform i peerId message = true ↔ ∃ payload,
    parseClientFrame platform message.2 = .ok (.relay peerId.text payload) ∧ message.1 = i := by
  unfold names
  split
  · rename_i peer payload hparse
    rw [decide_eq_true_iff]
    constructor
    · rintro ⟨hi, hchars⟩
      obtain rfl : peer = peerId.text := by
        cases peer
        cases hchars
        rfl
      exact ⟨payload, hparse, hi⟩
    · rintro ⟨payload', hparse', hi⟩
      cases hparse.symm.trans hparse'
      exact ⟨hi, rfl⟩
  · rename_i hnone
    refine ⟨fun h => (by cases h), ?_⟩
    rintro ⟨payload, hparse, -⟩
    exact absurd hparse (hnone _ _)

/-- A frame under the id as the database prints it is a frame for the peer. -/
theorem frameFor_of_names (h : names platform i peerId message = true) :
    (frameFor platform i peerId message).isSome = true := by
  obtain ⟨payload, hparse, hi⟩ := names_eq_true.mp h
  simp [frameFor, hparse, hi]

/-- Where the peer is there, the frames that reach its socket are those under the id as the database
prints it. -/
theorem names_iff_target {s : Server} (hs : Lawful platform s) {handler : Handler} {peer : UuidText}
    {payload : Text} {target socket : ℕ}
    (hparse : parseClientFrame platform handler.raw = .ok (.relay peer payload))
    (hpeer : s.hub.get handler.device.accountId.chars peer.chars = some target)
    (hthere : (frameFor platform i peerId (handler.socket, handler.raw)).isSome = true →
      s.hub.get handler.device.accountId.chars peerId.chars = some socket) :
    names platform i peerId (handler.socket, handler.raw) = true ↔
      target = socket ∧
        (frameFor platform i peerId (handler.socket, handler.raw)).isSome = true := by
  constructor
  · intro h
    have hframe := frameFor_of_names h
    obtain ⟨payload', hparse', -⟩ := names_eq_true.mp h
    cases hparse.symm.trans hparse'
    exact ⟨Option.some.inj (hpeer.symm.trans (hthere hframe)), hframe⟩
  · rintro ⟨rfl, hframe⟩
    -- a socket is in the hub under one key only
    obtain ⟨device, hdevice, hkey⟩ := hs.hub _ _ hpeer
    obtain ⟨device', hdevice', hkey'⟩ := hs.hub _ _ (hthere hframe)
    cases hdevice.symm.trans hdevice'
    obtain ⟨-, hsame⟩ := SocketHub.key_injective
      (show SocketHub.key handler.device.accountId.chars peer.chars
        = SocketHub.key handler.device.accountId.chars peerId.text.chars from
          hkey.trans hkey'.symm)
    subst hsame
    simp only [frameFor, hparse] at hframe
    split at hframe
    · rename_i hi
      exact names_eq_true.mpr ⟨payload, hparse, hi.1⟩
    · cases hframe

end Names

section Runs

variable {platform : Platform} {rows : List Row} {events : List ServerEvent} {s : Server}

/-- What comes back is a call of `handleFrame` for a message that was received. -/
theorem received_of_resume
    (h : Transition.run (Server.step platform) (.init rows) events = some s) {k : ℕ} {audit : Draws}
    (hk : .resume k audit ∈ events) : k < (received events).length := by
  induction events using List.reverseRecOn generalizing s with
  | nil => cases hk
  | append_singleton events event ih =>
      obtain ⟨u, hu, hlast⟩ := Transition.run_append.mp h
      obtain ⟨s', hstep, -⟩ := Transition.run_cons_eq_some.mp hlast
      rw [received, List.filterMap_append, List.length_append]
      rcases List.mem_append.mp hk with hk | hk
      · exact Nat.lt_add_right _ (ih hu hk)
      · obtain rfl := List.mem_singleton.mp hk
        obtain ⟨handler, -, hhandler, -⟩ := handling_of_resume hstep
        refine Nat.lt_add_right _ ?_
        have hlength := congrArg List.length (received_of_run hu)
        rw [Server.messages, List.length_map, received] at hlength
        rw [← hlength]
        exact (List.getElem?_eq_some_iff.mp hhandler).1

/-- Later messages do not change what has come back. -/
theorem returned_append {messages : List (ℕ × RawMessage)}
    (hlt : ∀ k audit, .resume k audit ∈ events → k < messages.length)
    (later : List (ℕ × RawMessage)) (i : ℕ) (peerId : PgUuid) :
    returned platform (messages ++ later) i peerId events
      = returned platform messages i peerId events := by
  refine List.filterMap_congr fun event hevent => ?_
  cases event with
  | resume k audit =>
      dsimp only
      rw [List.getElem?_append_left (hlt k audit hevent)]
  | db | upgrade | authenticated | attach | message | closing | close | delete | resumeDelete => rfl

/-- **To a peer that is there, the frames go out in the order in which their lookups come back.** -/
theorem sentTo_of_run (h : Transition.run (Server.step platform) (.init rows) events = some s)
    {i : ℕ} {peerId : PgUuid} {socket : ℕ}
    (hthere : Transition.Meets (Server.step platform) (PeerThere platform i peerId socket)
      (.init rows) events) :
    (sentTo platform s i peerId socket).map Prod.fst
      = returned platform (received events) i peerId events := by
  induction events using List.reverseRecOn generalizing s with
  | nil =>
      cases h
      rfl
  | append_singleton events event ih =>
      obtain ⟨u, hu, hlast⟩ := Transition.run_append.mp h
      obtain ⟨s', hstep, hs'⟩ := Transition.run_cons_eq_some.mp hlast
      cases hs'
      obtain ⟨hbefore, hnow, -⟩ := Transition.meets_append hu hthere
      have hlawful := lawful_of_run hu
      have hmessages := (move_of_step hstep).frames.messages
      have hreceived : received (events ++ [event]) = received events ++ received [event] :=
        List.filterMap_append ..
      have hold : returned platform (received (events ++ [event])) i peerId events
          = (sentTo platform u i peerId socket).map Prod.fst := by
        rw [hreceived, returned_append fun k audit => received_of_resume hu, ih hu hbefore]
      have hsplit : returned platform (received (events ++ [event])) i peerId (events ++ [event])
          = (sentTo platform u i peerId socket).map Prod.fst
            ++ returned platform (received (events ++ [event])) i peerId [event] := by
        rw [← hold]
        exact List.filterMap_append ..
      rw [hsplit]
      have hquiet (hreplies : Replies u s)
          (hnone : returned platform (received (events ++ [event])) i peerId [event] = []) :
          (sentTo platform s i peerId socket).map Prod.fst
            = (sentTo platform u i peerId socket).map Prod.fst
              ++ returned platform (received (events ++ [event])) i peerId [event] := by
        rw [hnone, List.append_nil, sentTo_of_replies hlawful hmessages hreplies]
      -- the message of a call that goes on
      have hmessage {k : ℕ} {audit : Draws} {handler : Handler} (heq : event = .resume k audit)
          (hk : u.handlers[k]? = some handler) :
          (received (events ++ [event]))[k]? = some (handler.socket, handler.raw) := by
        subst heq
        rw [← received_of_run h, hmessages, List.getElem?_append_left, Server.messages,
          List.getElem?_map, hk]
        · rfl
        · rw [Server.messages, List.length_map]
          exact (List.getElem?_eq_some_iff.mp hk).1
      cases (move_of_step hstep).frames with
      | still _ _ hmessage hresume hhandlers hsent =>
          refine hquiet (.inl hsent) ?_
          cases event with
          | resume k audit => exact absurd rfl (hresume k audit)
          | db | upgrade | authenticated | attach | message | closing | close | delete
            | resumeDelete => rfl
      | reply i' raw device _ hdevice hhandlers hreplies => exact hquiet hreplies rfl
      | look i' raw device peer payload _ hdevice hparse hhandlers hstore hsent =>
          exact hquiet (.inl hsent) rfl
      | deliver k audit handler lookup peer payload target _ hk hlooking hparse houtcome hpeer
          hdelivering hhandlers hsent =>
          have htarget : names platform i peerId (handler.socket, handler.raw) = true ↔
              target = socket ∧
                (frameFor platform i peerId (handler.socket, handler.raw)).isSome = true :=
            names_iff_target hlawful hparse hpeer
              fun hframe => (hnow handler hk lookup (by rw [hlooking]; rfl) hframe).2.1
          have hsame : s.messages[k]? = some (handler.socket, handler.raw) := by
            rw [received_of_run h]
            exact hmessage rfl hk
          have hsent' : sentTo platform s i peerId socket = sentTo platform u i peerId socket ++
              if names platform i peerId (handler.socket, handler.raw) then [(k, payload)]
              else [] := by
            have holds : ∀ x ∈ u.sent, s.messages[x.handler]? = u.messages[x.handler]? := by
              rw [show s.messages = u.messages from by simpa [received] using hmessages]
              exact fun _ _ => rfl
            simp only [sentTo, hsent, List.filterMap_append]
            congr 1
            · refine List.filterMap_congr fun x hx => ?_
              rw [holds x hx]
            · simp only [List.filterMap_cons, List.filterMap_nil, hsame, Option.bind_some,
                ← htarget]
              split
              · simp_all
              · simp_all
          rw [hsent', List.map_append]
          congr 1
          simp only [returned, List.filterMap_cons, List.filterMap_nil, hmessage rfl hk,
            Option.any_some]
          split
          · rfl
          · rfl
      | answer k audit handler lookup handling _ hk hold' hnew hdelivering hhandlers hreplies =>
          refine hquiet hreplies ?_
          have hnot : names platform i peerId (handler.socket, handler.raw) = false := by
            by_contra hnames
            rw [Bool.not_eq_false] at hnames
            obtain ⟨hfound, hpeer, hopen⟩ := hnow handler hk lookup hold' (frameFor_of_names hnames)
            obtain ⟨payload, hparse, -⟩ := names_eq_true.mp hnames
            obtain ⟨handler', -, hk', -, hwaits, -⟩ := handling_of_resume hstep
            cases hk.symm.trans hk'
            rcases hwaits with ⟨lookup', hlooking⟩ | ⟨lookup', t, hrejecting⟩
            · -- the frame would have gone out
              rw [hlooking] at hold'
              cases hold'
              have hpeer' : u.hub.get handler.device.accountId.chars peerId.text.chars
                = some socket := hpeer
              simp [delivering, hk, hlooking, hparse, hfound, hpeer', hopen] at hdelivering
            · rw [hrejecting] at hold'
              cases hold'
              obtain ⟨answer, houtcome, hanswer⟩ :=
                rejecting_of_run hu k handler _ t hk hrejecting
              cases houtcome.symm.trans hfound
              exact hanswer rfl
          simp [returned, hmessage rfl hk, hnot]

/-- A frame that was sent was received. -/
theorem sentTo_subset (h : Transition.run (Server.step platform) (.init rows) events = some s)
    (i : ℕ) (peerId : PgUuid) (socket : ℕ) {x : ℕ × Text}
    (hx : x ∈ sentTo platform s i peerId socket) :
    (received events)[x.1]?.bind (frameFor platform i peerId) = some x.2 := by
  obtain ⟨sent, hsent, hmatch⟩ := List.mem_filterMap.mp hx
  cases hframe : sent.frame with
  | error | pong =>
      rw [hframe] at hmatch
      cases hmatch
  | relay sender payload =>
      rw [hframe] at hmatch
      dsimp only at hmatch
      split at hmatch
      · rename_i hours
        cases hmatch
        obtain ⟨handler, peer, lookup, receiver, hk, -, hparse, -⟩ :=
          (lawful_of_run h).sent sent hsent sender payload hframe
        have hmessage : s.messages[sent.handler]? = some (handler.socket, handler.raw) := by
          rw [Server.messages, List.getElem?_map, hk]
          rfl
        have hsome := hours.2
        rw [← received_of_run h, hmessage, Option.bind_some]
        rw [hmessage, Option.bind_some] at hsome
        simp only [frameFor, hparse] at hsome ⊢
        split at hsome
        · rename_i hi
          rw [if_pos hi]
        · cases hsome
      · cases hmatch

/-! ### Whole runs -/

/-- **The order is kept exactly if the lookups come back in the order of receipt.**  For every
socket and every peer that is paired and attached: what was sent to the peer's socket is a segment
of what was received for the peer. -/
theorem inSequence_iff_inTurn
    (h : Transition.run (Server.step platform) (.init rows) events = some s)
    (i : ℕ) (peerId : PgUuid) (socket : ℕ)
    (hthere : Transition.Meets (Server.step platform) (PeerThere platform i peerId socket)
      (.init rows) events) :
    sentTo platform s i peerId socket <:+: receivedFor platform (received events) i peerId ↔
      InTurn platform i peerId events := by
  let frame (k : ℕ) : ℕ × Text :=
    (k, ((received events)[k]?.bind (frameFor platform i peerId)).getD [])
  have hsent : ∀ x ∈ sentTo platform s i peerId socket, frame x.1 = x := by
    intro x hx
    simp only [frame, sentTo_subset h i peerId socket hx, Option.getD_some]
  have hreceived : ∀ x ∈ receivedFor platform (received events) i peerId, frame x.1 = x := by
    intro x hx
    obtain ⟨k, -, hk⟩ := List.mem_filterMap.mp hx
    obtain ⟨payload, hpayload, rfl⟩ := Option.map_eq_some_iff.mp hk
    simp only [frame, hpayload, Option.getD_some]
  have hnodup : ((receivedFor platform (received events) i peerId).map Prod.fst).Nodup := by
    refine (receivedFor_nodup platform (received events) i peerId).map_on ?_
    intro x hx y hy heq
    rw [← hreceived x hx, ← hreceived y hy, heq]
  rw [infix_iff_map_fst hsent hreceived, sentTo_of_run h hthere, infix_iff_isChain hnodup]
  refine and_iff_right ?_
  rw [← sentTo_of_run h hthere]
  refine List.map_subset _ fun x hx => ?_
  exact mem_receivedFor (sentTo_subset h i peerId socket hx)

end Runs

/-! ### Two frames in a row -/

/-- Agent and client are connected, and the agent has sent two frames. -/
def twoFrames : List ServerEvent :=
  connects .agent "a".toList 0 0 ++ connects .client "b".toList 1 3 ++
    [.message 0 (frameTo "x".toList), .message 0 (frameTo "y".toList)]

/-- The lookup of transaction `t` is made, and call `k` goes on. -/
def looksUp (k t : ℕ) : List ServerEvent :=
  [.db (.exec t), .db (.exec t), .resume k (drawsOf uuid4)]

/-- The second frame's lookup comes back first, and the client gets the second frame first. -/
theorem frames_overtaken : ∃ s,
    Transition.run (Server.step smallPlatform) (.init pairedRelay)
      (twoFrames ++ looksUp 1 7 ++ looksUp 0 6) = some s ∧
    ¬sentTo smallPlatform s 0 uuidA 1 <:+:
      receivedFor smallPlatform (received (twoFrames ++ looksUp 1 7 ++ looksUp 0 6)) 0 uuidA := by
  have hrun : ((Transition.run (Server.step smallPlatform) (.init pairedRelay)
      (twoFrames ++ looksUp 1 7 ++ looksUp 0 6)).any fun s =>
        ¬sentTo smallPlatform s 0 uuidA 1 <:+:
          receivedFor smallPlatform (received (twoFrames ++ looksUp 1 7 ++ looksUp 0 6)) 0 uuidA)
      = true := by decide +kernel
  obtain ⟨s, hs, hnot⟩ := (Option.any_eq_true _ _).mp hrun
  exact ⟨s, hs, of_decide_eq_true hnot⟩

/-- The lookups come back in order, and so do the frames. -/
theorem inSequence_iff_inTurn_small : ∃ s,
    Transition.run (Server.step smallPlatform) (.init pairedRelay)
      (twoFrames ++ looksUp 0 6 ++ looksUp 1 7) = some s ∧
    sentTo smallPlatform s 0 uuidA 1 = [(0, "x".toList), (1, "y".toList)] ∧
    sentTo smallPlatform s 0 uuidA 1 <:+:
      receivedFor smallPlatform (received (twoFrames ++ looksUp 0 6 ++ looksUp 1 7)) 0 uuidA := by
  have hrun : ((Transition.run (Server.step smallPlatform) (.init pairedRelay)
      (twoFrames ++ looksUp 0 6 ++ looksUp 1 7)).any fun s =>
        sentTo smallPlatform s 0 uuidA 1 = [(0, "x".toList), (1, "y".toList)]) = true := by
    decide +kernel
  have hthere : Transition.Meets (Server.step smallPlatform) (PeerThere smallPlatform 0 uuidA 1)
      (.init pairedRelay) (twoFrames ++ looksUp 0 6 ++ looksUp 1 7) := by decide +kernel
  obtain ⟨s, hs, hsent⟩ := (Option.any_eq_true _ _).mp hrun
  exact ⟨s, hs, of_decide_eq_true hsent,
    (inSequence_iff_inTurn hs 0 uuidA 1 hthere).mpr (by decide +kernel)⟩

end Osprey.Relay
