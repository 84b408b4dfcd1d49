/-
**The pin list is a set, and removals are exact.**

`HostState` of `osprey-svc/src/state.rs` as a process with the state in memory and its disk.  A
method changes the state in memory first and saves it afterwards, so an update whose save fails is
in effect until the state is read again, and a process that dies during the save has lost it.  What
is in memory, and what is on disk, is therefore the result of some of the updates so far and not
always of the same ones; both lists are kept beside the state, and no step reads them.

Main definitions:

* `Osprey.PinHost`, `Osprey.PinOp`, `Osprey.PinHost.act` — the process, and what each operation
  answers and leaves;
* `Osprey.Pinned` — added, and neither replaced nor removed since;
* `Osprey.latestAdded` — the record of the latest `add_peer` for an identity.

Main results:

* `Osprey.PinsOf.apply` — what one update does to the pins;
* `Osprey.PinHost.sound_of_run` — the pins in memory and on disk, in every run;
* `Osprey.PinHost.pins_are_set` — **all of it together**.
-/

import Osprey.Transition
import Osprey.Vouched

set_option relaxedAutoImplicit false
set_option autoImplicit false

namespace Osprey

open FileIO

/-! ### Updates of the pin list -/

/-- The identity of a peer: the algorithm and the key. -/
def PairedPeer.identity (peer : PairedPeer) : IdentityAlgorithm × Bytes :=
  (peer.pinned.identityAlgorithm, peer.pinned.identityPub)

namespace StateUpdate

/-- The update as one of the pin list, if it is one. -/
def onPins : StateUpdate → List StateUpdate
  | setRelay _ => []
  | addPeer peer => [.addPeer peer]
  | consumeRevocationNonce .. => []
  | removePeers selector => [.removePeers selector]

/-- The record that the update adds, if it is one of this identity. -/
def adds (identity : IdentityAlgorithm × Bytes) : StateUpdate → Option PairedPeer
  | addPeer peer => if peer.identity = identity then some peer else none
  | _ => none

/-- The update neither replaces nor removes the record. -/
def Spares (crypto : Crypto) (peer : PairedPeer) : StateUpdate → Prop
  | addPeer other => other.fingerprint crypto ≠ peer.fingerprint crypto
  | removePeers selector => selector.matches crypto peer = false
  | _ => True

end StateUpdate

/-- One of the updates has added the record, and all after it have spared it. -/
def Pinned (crypto : Crypto) (updates : List StateUpdate) (peer : PairedPeer) : Prop :=
  ∃ before after, updates = before ++ .addPeer peer :: after ∧
    ∀ u ∈ after, u.Spares crypto peer

/-- The record of the latest `add_peer` for an identity. -/
def latestAdded (updates : List StateUpdate) (identity : IdentityAlgorithm × Bytes) :
    Option PairedPeer :=
  updates.reverse.findSome? (StateUpdate.adds identity)

variable {crypto : Crypto}

/-- Equal identities have equal fingerprints, whatever the hash is. -/
theorem PairedPeer.fingerprint_congr (crypto : Crypto) {p q : PairedPeer}
    (h : p.identity = q.identity) : p.fingerprint crypto = q.fingerprint crypto := by
  obtain ⟨halgorithm, hkey⟩ := Prod.mk.injEq .. ▸ h
  unfold PairedPeer.fingerprint PinnedPeer.fingerprint
  rw [halgorithm, hkey]

@[simp] theorem not_pinned_nil (peer : PairedPeer) : ¬Pinned crypto [] peer := by
  rintro ⟨before, after, h, -⟩
  simp at h

theorem pinned_concat {updates : List StateUpdate} {u : StateUpdate} {peer : PairedPeer} :
    Pinned crypto (updates ++ [u]) peer ↔
      u = .addPeer peer ∨ Pinned crypto updates peer ∧ u.Spares crypto peer := by
  constructor
  · rintro ⟨before, after, h, hspares⟩
    rcases List.eq_nil_or_concat after with rfl | ⟨after, v, rfl⟩
    · exact .inl (List.append_inj_right' h rfl |> List.singleton_inj.mp)
    · rw [List.concat_eq_append] at h hspares
      rw [← List.cons_append, ← List.append_assoc] at h
      obtain ⟨hinit, hlast⟩ := List.append_inj' h rfl
      cases List.singleton_inj.mp hlast
      refine .inr ⟨⟨before, after, hinit, ?_⟩, hspares u (by simp)⟩
      exact fun v hv => hspares v (List.mem_append_left _ hv)
  · rintro (rfl | ⟨⟨before, after, rfl, hspares⟩, hu⟩)
    · exact ⟨updates, [], rfl, fun _ h => absurd h List.not_mem_nil⟩
    · refine ⟨before, after ++ [u], by simp, ?_⟩
      intro v hv
      rcases List.mem_append.mp hv with hv | hv
      · exact hspares v hv
      · rw [List.mem_singleton.mp hv]
        exact hu

/-- A pinned record is that of the latest `add_peer` for its identity: a later one would have
replaced it. -/
theorem latestAdded_of_pinned {updates : List StateUpdate} {peer : PairedPeer}
    (h : Pinned crypto updates peer) : latestAdded updates peer.identity = some peer := by
  obtain ⟨before, after, rfl, hspares⟩ := h
  have hnone : after.reverse.findSome? (StateUpdate.adds peer.identity) = none := by
    rw [List.findSome?_eq_none_iff]
    intro u hu
    have hu := hspares u (List.mem_reverse.mp hu)
    cases u with
    | addPeer other =>
        refine if_neg fun hsame => ?_
        exact hu (PairedPeer.fingerprint_congr crypto hsame)
    | setRelay relay => rfl
    | consumeRevocationNonce nonce issuedAtMs nowMs windowMs => rfl
    | removePeers selector => rfl
  simp [latestAdded, hnone, StateUpdate.adds]

/-! ### What one update does -/

/-- The state has pinned one record for each identity, and these are the records that the updates
have left. -/
structure PinsOf (crypto : Crypto) (updates : List StateUpdate) (file : StateFile) : Prop where
  nodup : (StateFile.fingerprints crypto file.peers).Nodup
  mem : ∀ peer, peer ∈ file.peers ↔ Pinned crypto updates peer

theorem mem_peers_apply {file : StateFile} {u : StateUpdate} {peer : PairedPeer} :
    peer ∈ (u.apply crypto file).peers ↔
      u = .addPeer peer ∨ peer ∈ file.peers ∧ u.Spares crypto peer := by
  cases u with
  | setRelay relay => simp [StateUpdate.apply, StateFile.withRelay, StateUpdate.Spares]
  | addPeer other =>
      simp only [StateUpdate.apply, StateFile.insertPeer, StateUpdate.Spares, List.mem_append,
        List.mem_filter, List.mem_singleton, decide_eq_true_eq, StateUpdate.addPeer.injEq]
      rw [or_comm, ne_comm, eq_comm (a := peer)]
  | consumeRevocationNonce nonce issuedAtMs nowMs windowMs =>
      simp only [StateUpdate.apply, StateUpdate.Spares]
      split
      · simp
      · simp [StateFile.recordNonce]
  | removePeers selector =>
      simp [StateUpdate.apply, StateFile.dropPeers, StateUpdate.Spares, List.mem_filter]

/-- Adding takes the place of the records with the same fingerprint, removing takes records out, and
the other updates leave the pins alone. -/
theorem PinsOf.apply {updates : List StateUpdate} {file : StateFile}
    (h : PinsOf crypto updates file) (u : StateUpdate) :
    PinsOf crypto (updates ++ u.onPins) (u.apply crypto file) := by
  have hmem : ∀ peer, peer ∈ (u.apply crypto file).peers ↔
      u = .addPeer peer ∨ Pinned crypto updates peer ∧ u.Spares crypto peer := by
    intro peer
    rw [mem_peers_apply, h.mem]
  cases u with
  | setRelay relay =>
      rw [StateUpdate.onPins, List.append_nil]
      exact ⟨h.nodup, h.mem⟩
  | addPeer other =>
      exact ⟨StateFile.nodup_insertPeer h.nodup other,
        fun peer => (hmem peer).trans pinned_concat.symm⟩
  | consumeRevocationNonce nonce issuedAtMs nowMs windowMs =>
      rw [StateUpdate.onPins, List.append_nil, StateUpdate.apply]
      split
      · exact h
      · exact ⟨h.nodup, h.mem⟩
  | removePeers selector =>
      exact ⟨StateFile.nodup_fingerprints_filter h.nodup _,
        fun peer => (hmem peer).trans pinned_concat.symm⟩

theorem pinsOf_fresh (crypto : Crypto) (deviceId : Uuid) (displayName : String) :
    PinsOf crypto [] (.fresh deviceId displayName) :=
  ⟨List.nodup_nil, fun peer => iff_of_false List.not_mem_nil (not_pinned_nil peer)⟩

/-! ### The process and its disk -/

/-- A process, with the state in memory if it has one, and its disk.  `log` and `saved` are the
updates of the pins that have led to the state in memory and to that on disk. -/
structure PinHost where
  memory : Option StateFile
  world : World
  log : List StateUpdate
  saved : List StateUpdate

inductive PinOp
  | loadOrCreate (deviceId : Uuid) (displayName : String)
  | load
  | update (u : StateUpdate)
  | save
  | exit
  deriving DecidableEq, Repr

/-- What the methods return, `Ok` or without a value. -/
inductive PinAnswer
  | done
  | isNew (new : Bool)
  | removed (peers : List PairedPeer)
  deriving DecidableEq, Repr

/-- The operation as an update of the pin list, if it is one. -/
def PinOp.onPins : PinOp → List StateUpdate
  | update u => u.onPins
  | loadOrCreate .. => []
  | load => []
  | save => []
  | exit => []

namespace PinHost

variable (codec : StateCodec) (crypto : Crypto)

/-- A host on which no process runs. -/
def off (w : World) : PinHost := ⟨none, w, [], []⟩

/-- A process that has read a state, or has failed to; `log` is what has led to the state. -/
def reads (host : PinHost) (log : List StateUpdate) :
    Out StateError StateFile × World → Out StateError PinAnswer × PinHost
  | (.ok file, w) => (.ok .done, ⟨some file, w, log, log⟩)
  | (.err e, w) => (.err e, { host with world := w })
  | (.died, w) => (.died, { host with memory := none, world := w })

/-- A process with `file` in memory, after the save. -/
def saves (host : PinHost) (file : StateFile) (log : List StateUpdate) (answer : PinAnswer) :
    Out StateError PinAnswer × PinHost :=
  match HostState.save codec file host.world with
  | (.ok (), w) => (.ok answer, ⟨some file, w, log, log⟩)
  | (.err e, w) => (.err e, ⟨some file, w, log, host.saved⟩)
  | (.died, w) => (.died, ⟨none, w, log, host.saved⟩)

/-- The methods that change the state. -/
def update (host : PinHost) (file : StateFile) (u : StateUpdate) :
    Out StateError PinAnswer × PinHost :=
  let log := host.log ++ u.onPins
  match u with
  | .setRelay relay => host.saves codec (file.withRelay relay) log .done
  | .addPeer peer => host.saves codec (file.insertPeer crypto peer) log .done
  | .consumeRevocationNonce nonce issuedAtMs nowMs windowMs =>
      if file.hasNonce nonce then (.ok (.isNew false), host)
      else host.saves codec (file.recordNonce nonce issuedAtMs nowMs windowMs) log (.isNew true)
  | .removePeers selector =>
      let (removed, kept) := file.peers.partition fun peer => selector.matches crypto peer
      host.saves codec { file with peers := kept } log (.removed removed)

/-- One operation; `none` for a method when there is no state in memory. -/
def act (host : PinHost) : PinOp → Option (Out StateError PinAnswer × PinHost)
  | .loadOrCreate deviceId displayName =>
      -- nothing has led to a state that was created
      let log := if (readTarget host.world).1 = .err .notFound then [] else host.saved
      some (host.reads log (HostState.loadOrCreate codec crypto deviceId displayName host.world))
  | .load => some (host.reads host.saved (HostState.load codec crypto host.world))
  | .update u => host.memory.map fun file => host.update codec crypto file u
  | .save => host.memory.map fun file => host.saves codec file host.log .done
  | .exit => some (.ok .done, { host with memory := none })

def step (host : PinHost) (op : PinOp) : Option PinHost :=
  (host.act codec crypto op).map Prod.snd

/-- The operation succeeds, and no read misses a file that there is. -/
def Succeeds (host : PinHost) (op : PinOp) : Prop :=
  (∃ answer after, host.act codec crypto op = some (.ok answer, after)) ∧
    ((readTarget host.world).1 = .err .notFound → host.world.disk.target = none)

end PinHost

namespace PinHost

/-! ### What every operation keeps -/

variable {codec : StateCodec}

/-- The state in memory, and the one on disk, are what the updates beside them have made. -/
structure Sound (codec : StateCodec) (crypto : Crypto) (host : PinHost) : Prop where
  memory : ∀ file, host.memory = some file → PinsOf crypto host.log file
  disk : ∀ bytes, host.world.disk.target = some bytes →
    ∃ file, codec.encode file = .ok bytes ∧ PinsOf crypto host.saved file

variable {host : PinHost}

theorem sound_off {w : World} (hw : w.disk.target = none) : Sound codec crypto (off w) :=
  ⟨by simp [off], by simp [off, hw]⟩

/-- A state is on disk after a save, or the one from before still is. -/
theorem saves_cases (codec : StateCodec) (host : PinHost) (file : StateFile)
    (log : List StateUpdate) (answer : PinAnswer) :
    (∃ w body, host.saves codec file log answer = (.ok answer, ⟨some file, w, log, log⟩) ∧
      codec.encode file = .ok body ∧ w.disk.target = some body) ∨
    (∃ e w, host.saves codec file log answer = (.err e, ⟨some file, w, log, host.saved⟩) ∧
      w.disk.target = host.world.disk.target) ∨
    ∃ w, host.saves codec file log answer = (.died, ⟨none, w, log, host.saved⟩) ∧
      w.disk.target = host.world.disk.target := by
  unfold saves
  rcases (HostState.attempt_save codec file host.world).cases with
    ⟨u, w, hrun, body, hencode, hreplaces⟩ | ⟨e, w, hrun, hkeeps⟩ | ⟨w, hrun, hkeeps⟩
  · rw [hrun]
    exact .inl ⟨w, body, rfl, hencode, hreplaces.target⟩
  · rw [hrun]
    exact .inr (.inl ⟨e, w, rfl, hkeeps.target⟩)
  · rw [hrun]
    exact .inr (.inr ⟨w, rfl, hkeeps.target⟩)

theorem Sound.saves (h : Sound codec crypto host) {file : StateFile} {log : List StateUpdate}
    (hfile : PinsOf crypto log file) (answer : PinAnswer) :
    Sound codec crypto (host.saves codec file log answer).2 := by
  rcases saves_cases codec host file log answer with ⟨w, body, heq, hencode, hbody⟩ |
    ⟨e, w, heq, hkept⟩ | ⟨w, heq, hkept⟩
  · rw [heq]
    refine ⟨fun _ hmem => Option.some.inj hmem ▸ hfile, ?_⟩
    intro bytes hbytes
    cases hbody.symm.trans hbytes
    exact ⟨file, hencode, hfile⟩
  · rw [heq]
    exact ⟨fun _ hmem => Option.some.inj hmem ▸ hfile,
      fun bytes hbytes => h.disk bytes (hkept.symm.trans hbytes)⟩
  · rw [heq]
    exact ⟨by simp, fun bytes hbytes => h.disk bytes (hkept.symm.trans hbytes)⟩

/-- The peers that match, and the others, each in the order they were in. -/
theorem partition_peers (crypto : Crypto) (file : StateFile) (selector : PeerSelector) :
    (file.peers.partition fun peer => selector.matches crypto peer) =
      (file.matching crypto selector, (file.dropPeers crypto selector).peers) := by
  rw [List.partition_eq_filter_filter, Prod.mk.injEq]
  refine ⟨rfl, List.filter_congr fun peer _ => ?_⟩
  simp

/-- A method that changes the state saves what its update has made of it. -/
theorem update_cases (codec : StateCodec) (crypto : Crypto) (host : PinHost) (file : StateFile)
    (u : StateUpdate) :
    (∃ answer, host.update codec crypto file u =
      host.saves codec (u.apply crypto file) (host.log ++ u.onPins) answer) ∨
    host.update codec crypto file u = (.ok (.isNew false), host) ∧ u.onPins = [] := by
  cases u with
  | setRelay relay => exact .inl ⟨_, rfl⟩
  | addPeer peer => exact .inl ⟨_, rfl⟩
  | consumeRevocationNonce nonce issuedAtMs nowMs windowMs =>
      simp only [update, StateUpdate.apply]
      split
      · exact .inr ⟨rfl, rfl⟩
      · exact .inl ⟨_, rfl⟩
  | removePeers selector =>
      refine .inl ⟨.removed (file.matching crypto selector), ?_⟩
      simp only [update, partition_peers]
      rfl

theorem Sound.update (h : Sound codec crypto host) {file : StateFile}
    (hfile : host.memory = some file) (u : StateUpdate) :
    Sound codec crypto (host.update codec crypto file u).2 := by
  rcases update_cases codec crypto host file u with ⟨answer, heq⟩ | ⟨heq, -⟩
  · rw [heq]
    exact h.saves ((h.memory file hfile).apply u) answer
  · rw [heq]
    exact h

/-- A process that has read a state goes on with it, one that has failed to with what it had. -/
theorem Sound.reads (h : Sound codec crypto host) {log : List StateUpdate}
    {m : FileM StateError StateFile}
    (hm : Attempt m host.world fun file w => PinsOf crypto log file ∧
      ∀ bytes, w.disk.target = some bytes →
        ∃ file, codec.encode file = .ok bytes ∧ PinsOf crypto log file) :
    Sound codec crypto (host.reads log (m host.world)).2 := by
  rcases hm.cases with ⟨file, w, hrun, hfile, hdisk⟩ | ⟨e, w, hrun, hkeeps⟩ | ⟨w, hrun, hkeeps⟩
  · rw [hrun]
    exact ⟨fun _ hmem => Option.some.inj hmem ▸ hfile, hdisk⟩
  · rw [hrun]
    exact ⟨h.memory, fun bytes hbytes => h.disk bytes (hkeeps.target.symm.trans hbytes)⟩
  · rw [hrun]
    exact ⟨by simp [PinHost.reads],
      fun bytes hbytes => h.disk bytes (hkeeps.target.symm.trans hbytes)⟩

/-- What is parsed from the disk is the state that was saved. -/
theorem Sound.of_parse (h : Sound codec crypto host) (hcodec : codec.Lawful) {bytes : Bytes}
    {file : StateFile} (hbytes : host.world.disk.target = some bytes)
    (hparse : parseState codec crypto bytes = .ok file) : PinsOf crypto host.saved file := by
  obtain ⟨saved, hencode, hsaved⟩ := h.disk bytes hbytes
  cases (hcodec.roundTrip saved bytes hencode).symm.trans (parseState_eq_ok.mp hparse).2.1
  exact hsaved

theorem Sound.act (h : Sound codec crypto host) (hcodec : codec.Lawful) {op : PinOp}
    {out : Out StateError PinAnswer} {after : PinHost}
    (hact : host.act codec crypto op = some (out, after)) : Sound codec crypto after := by
  cases op with
  | loadOrCreate deviceId displayName =>
      obtain ⟨-, rfl⟩ := Prod.mk.inj (Option.some.inj hact)
      refine h.reads (attempt_mono
        (HostState.attempt_loadOrCreate codec crypto deviceId displayName host.world) ?_)
      rintro file w
        (⟨hmissing, rfl, body, hencode, hbody⟩ | ⟨hfound, hkeeps, bytes, hbytes, hparse⟩)
      · rw [if_pos hmissing]
        have hfresh := pinsOf_fresh crypto deviceId displayName
        refine ⟨hfresh, fun bytes hbytes => ⟨_, ?_, hfresh⟩⟩
        rw [hencode, Option.some.inj (hbody.symm.trans hbytes)]
      · rw [if_neg hfound]
        exact ⟨h.of_parse hcodec hbytes hparse,
          fun bytes hbytes => h.disk bytes (hkeeps.target.symm.trans hbytes)⟩
  | load =>
      obtain ⟨-, rfl⟩ := Prod.mk.inj (Option.some.inj hact)
      refine h.reads (attempt_mono (HostState.attempt_load codec crypto host.world) ?_)
      rintro file w ⟨hkeeps, bytes, hbytes, hparse⟩
      exact ⟨h.of_parse hcodec hbytes hparse,
        fun bytes hbytes => h.disk bytes (hkeeps.target.symm.trans hbytes)⟩
  | update u =>
      obtain ⟨file, hfile, heq⟩ := Option.map_eq_some_iff.mp hact
      have hafter := h.update hfile u
      rw [heq] at hafter
      exact hafter
  | save =>
      obtain ⟨file, hfile, heq⟩ := Option.map_eq_some_iff.mp hact
      have hafter := h.saves (h.memory file hfile) .done
      rw [heq] at hafter
      exact hafter
  | exit =>
      obtain ⟨-, rfl⟩ := Prod.mk.inj (Option.some.inj hact)
      exact ⟨by simp, h.disk⟩

theorem act_of_step {op : PinOp} {after : PinHost} (h : host.step codec crypto op = some after) :
    ∃ out, host.act codec crypto op = some (out, after) := by
  obtain ⟨⟨out, after'⟩, hact, rfl⟩ := Option.map_eq_some_iff.mp h
  exact ⟨out, hact⟩

/-- Whatever the operations, and whatever fails. -/
theorem sound_of_run (hcodec : codec.Lawful) {w : World} (hw : w.disk.target = none)
    {ops : List PinOp} (hrun : Transition.run (step codec crypto) (off w) ops = some host) :
    Sound codec crypto host := by
  refine Transition.run_keeps ?_ (sound_off hw) hrun
  intro before op after hbefore hstep
  obtain ⟨out, hact⟩ := act_of_step hstep
  exact hbefore.act hcodec hact

/-! ### Runs in which everything succeeds -/

/-- All the updates so far have led to the state on disk, and to that in memory. -/
structure InStep (updates : List StateUpdate) (host : PinHost) : Prop where
  saved : host.saved = updates
  memory : ∀ file, host.memory = some file → host.log = updates
  missing : host.world.disk.target = none → updates = [] ∧ host.memory = none

/-- After a save that has succeeded. -/
theorem inStep_of_saves {file : StateFile} {log : List StateUpdate} {kept answer : PinAnswer}
    {after : PinHost} (h : host.saves codec file log kept = (.ok answer, after)) :
    InStep log after := by
  rcases saves_cases codec host file log kept with ⟨w, body, heq, -, hbody⟩ | ⟨e, w, heq, -⟩ |
    ⟨w, heq, -⟩
  · cases heq.symm.trans h
    exact ⟨rfl, fun _ _ => rfl, fun hnone => absurd (hbody.symm.trans hnone) (by simp)⟩
  · cases heq.symm.trans h
  · cases heq.symm.trans h

/-- After a read that has succeeded. -/
theorem inStep_of_reads {log : List StateUpdate} {m : FileM StateError StateFile}
    {answer : PinAnswer} {after : PinHost}
    (hm : Attempt m host.world fun _ w => w.disk.target ≠ none)
    (h : host.reads log (m host.world) = (.ok answer, after)) : InStep log after := by
  rcases hm.cases with ⟨file, w, hrun, htarget⟩ | ⟨e, w, hrun, -⟩ | ⟨w, hrun, -⟩
  · rw [hrun] at h
    cases h
    exact ⟨rfl, fun _ _ => rfl, fun hnone => absurd hnone htarget⟩
  · rw [hrun] at h
    cases h
  · rw [hrun] at h
    cases h

theorem InStep.act {updates : List StateUpdate} (h : InStep updates host) {op : PinOp}
    {after : PinHost} (hop : host.Succeeds codec crypto op)
    (hstep : host.step codec crypto op = some after) :
    InStep (updates ++ op.onPins) after := by
  obtain ⟨⟨answer, after', hact⟩, hpresent⟩ := hop
  have hafter : after' = after := by simpa [step, hact] using hstep
  subst hafter
  cases op with
  | loadOrCreate deviceId displayName =>
      rw [PinOp.onPins, List.append_nil]
      have hread := HostState.attempt_loadOrCreate codec crypto deviceId displayName host.world
      have hin := inStep_of_reads (attempt_mono hread ?_) (Option.some.inj hact)
      · by_cases hmissing : (readTarget host.world).1 = .err .notFound
        · rw [if_pos hmissing] at hin
          rwa [(h.missing (hpresent hmissing)).1]
        · rwa [if_neg hmissing, h.saved] at hin
      · rintro file w (⟨-, -, body, -, hbody⟩ | ⟨-, hkeeps, bytes, hbytes, -⟩)
        · simp [hbody]
        · simp [hkeeps.target, hbytes]
  | load =>
      rw [PinOp.onPins, List.append_nil]
      have hin := inStep_of_reads (attempt_mono (HostState.attempt_load codec crypto host.world) ?_)
        (Option.some.inj hact)
      · rwa [h.saved] at hin
      · rintro file w ⟨hkeeps, bytes, hbytes, -⟩
        simp [hkeeps.target, hbytes]
  | update u =>
      rw [PinOp.onPins]
      obtain ⟨file, hfile, heq⟩ := Option.map_eq_some_iff.mp hact
      rcases update_cases codec crypto host file u with ⟨kept, hsaves⟩ | ⟨hsame, hpins⟩
      · have hin := inStep_of_saves (hsaves.symm.trans heq)
        rwa [h.memory file hfile] at hin
      · cases hsame.symm.trans heq
        rwa [hpins, List.append_nil]
  | save =>
      rw [PinOp.onPins, List.append_nil]
      obtain ⟨file, hfile, heq⟩ := Option.map_eq_some_iff.mp hact
      have hin := inStep_of_saves heq
      rwa [h.memory file hfile] at hin
  | exit =>
      rw [PinOp.onPins, List.append_nil]
      obtain ⟨-, rfl⟩ := Prod.mk.inj (Option.some.inj hact)
      exact ⟨h.saved, by simp, fun hnone => ⟨(h.missing hnone).1, rfl⟩⟩

theorem inStep_of_run {updates : List StateUpdate} {ops : List PinOp} {start : PinHost}
    (h : InStep updates start)
    (hmeets : Transition.Meets (step codec crypto) (Succeeds codec crypto) start ops)
    (hrun : Transition.run (step codec crypto) start ops = some host) :
    InStep (updates ++ ops.flatMap PinOp.onPins) host := by
  induction ops generalizing start updates with
  | nil =>
      cases hrun
      simpa using h
  | cons op ops ih =>
      obtain ⟨next, hstep, hrun⟩ := Transition.run_cons_eq_some.mp hrun
      have hnext := ih (h.act hmeets.1 hstep) (hmeets.2 next hstep) hrun
      rwa [List.append_assoc, ← List.flatMap_cons] at hnext

/-! ### All of it together -/

/-- Removing takes out the peers that match and keeps the others, whether or not it could be
saved. -/
theorem act_removePeers (codec : StateCodec) (crypto : Crypto) {file : StateFile}
    (hfile : host.memory = some file) (selector : PeerSelector) :
    ∃ out after, host.act codec crypto (.update (.removePeers selector)) = some (out, after) ∧
      ((out = .ok (.removed (file.matching crypto selector)) ∧
          after.memory = some (file.dropPeers crypto selector) ∧
          ∃ body, codec.encode (file.dropPeers crypto selector) = .ok body ∧
            after.world.disk.target = some body) ∨
        ((∃ e, out = .err e) ∧ after.memory = some (file.dropPeers crypto selector) ∧
          after.world.disk.target = host.world.disk.target) ∨
        out = .died ∧ after.memory = none ∧
          after.world.disk.target = host.world.disk.target) := by
  have heq : host.act codec crypto (.update (.removePeers selector)) =
      some (host.saves codec (file.dropPeers crypto selector)
        (host.log ++ [.removePeers selector]) (.removed (file.matching crypto selector))) := by
    simp only [act, hfile, Option.map_some, update, partition_peers]
    rfl
  rcases saves_cases codec host (file.dropPeers crypto selector)
    (host.log ++ [.removePeers selector]) (.removed (file.matching crypto selector)) with
    ⟨w, body, hsaves, hencode, hbody⟩ | ⟨e, w, hsaves, hkept⟩ | ⟨w, hsaves, hkept⟩
  · exact ⟨_, _, heq.trans (congrArg some hsaves), .inl ⟨rfl, rfl, body, hencode, hbody⟩⟩
  · exact ⟨_, _, heq.trans (congrArg some hsaves), .inr (.inl ⟨⟨e, rfl⟩, rfl, hkept⟩)⟩
  · exact ⟨_, _, heq.trans (congrArg some hsaves), .inr (.inr ⟨rfl, rfl, hkept⟩)⟩

/-- **The pin list is a set, and removals are exact.**  In every run from a host without a state
file, whatever fails and whenever the process ends, no two records of the state in memory share an
identity; the records are those that were added and since then neither replaced nor removed, by the
updates that have led to the state; each is that of the latest `add_peer` for its identity among
them, and in a run in which everything succeeds they are all the updates of the run; and removing
returns the records that match and keeps the others, both in the order they were in, with the rest
of the state as it was. -/
theorem pins_are_set {codec : StateCodec} (hcodec : codec.Lawful) (crypto : Crypto) {w : World}
    (hw : w.disk.target = none) {ops : List PinOp} {host : PinHost}
    (hrun : Transition.run (step codec crypto) (off w) ops = some host) {file : StateFile}
    (hfile : host.memory = some file) :
    (file.peers.map PairedPeer.identity).Nodup ∧
    (∀ peer, peer ∈ file.peers ↔ Pinned crypto host.log peer) ∧
    (∀ peer ∈ file.peers, latestAdded host.log peer.identity = some peer) ∧
    (Transition.Meets (step codec crypto) (Succeeds codec crypto) (off w) ops →
      host.log = ops.flatMap PinOp.onPins) ∧
    ∀ selector : PeerSelector,
      let removed := file.peers.filter fun peer => selector.matches crypto peer
      let kept := { file with
        peers := file.peers.filter fun peer => ¬selector.matches crypto peer }
      ∃ out after, host.act codec crypto (.update (.removePeers selector)) = some (out, after) ∧
        ((out = .ok (.removed removed) ∧ after.memory = some kept ∧
            ∃ body, codec.encode kept = .ok body ∧ after.world.disk.target = some body) ∨
          ((∃ e, out = .err e) ∧ after.memory = some kept ∧
            after.world.disk.target = host.world.disk.target) ∨
          out = .died ∧ after.memory = none ∧
            after.world.disk.target = host.world.disk.target) := by
  have hpins := (sound_of_run hcodec hw hrun).memory file hfile
  refine ⟨?_, hpins.mem, ?_, ?_, ?_⟩
  · -- the fingerprint is a function of the identity
    have hnodup : ((file.peers.map PairedPeer.identity).map fun identity =>
        Fingerprint.ofIdentity crypto identity.1 identity.2).Nodup := by
      rw [List.map_map]
      exact hpins.nodup
    exact hnodup.of_map _
  · intro peer hpeer
    exact latestAdded_of_pinned ((hpins.mem peer).mp hpeer)
  · intro hmeets
    have hoff : InStep [] (off w) := ⟨rfl, fun _ _ => rfl, fun _ => ⟨rfl, rfl⟩⟩
    exact (inStep_of_run hoff hmeets hrun).memory file hfile
  · intro selector
    exact act_removePeers codec crypto hfile selector

/-- The peer `b` with a rotated static. -/
def rotatedPeer (b static : UInt8) : PairedPeer :=
  { toyPeer b with
    pinned := { (toyPeer b).pinned with noiseStaticPub := toyNonce static } }

/-- Two peers are added, the process ends and another one adds the first again with a rotated
static; the table has the states it goes through. -/
theorem pins_are_set_rotated :
    let fresh := StateFile.fresh (toyUuid 9) "host"
    let codec := tableCodec [fresh, { fresh with peers := [toyPeer 1] },
      { fresh with peers := [toyPeer 1, toyPeer 2] },
      { fresh with peers := [toyPeer 2, rotatedPeer 1 7] }]
    let ops : List PinOp := [.loadOrCreate (toyUuid 9) "host", .update (.addPeer (toyPeer 1)),
      .update (.addPeer (toyPeer 2)), .exit, .load, .update (.addPeer (rotatedPeer 1 7))]
    ∃ host file, Transition.run (step codec toyCrypto) (off (.start ⟨none, none⟩ [])) ops =
        some host ∧ host.memory = some file ∧
      file.peers = [toyPeer 2, rotatedPeer 1 7] ∧
      (file.peers.map PairedPeer.identity).Nodup ∧
      latestAdded host.log (toyPeer 1).identity = some (rotatedPeer 1 7) := by
  intro fresh codec ops
  have hrun : ∃ host, Transition.run (step codec toyCrypto) (off (.start ⟨none, none⟩ [])) ops =
      some host ∧ host.memory = some { fresh with peers := [toyPeer 2, rotatedPeer 1 7] } := by
    refine ⟨_, rfl, ?_⟩
    decide
  obtain ⟨host, hrun, hfile⟩ := hrun
  have hpins := pins_are_set (tableCodec_lawful _) toyCrypto (by rfl) hrun hfile
  exact ⟨host, _, hrun, hfile, rfl, hpins.1, hpins.2.2.1 (rotatedPeer 1 7) (by simp)⟩

end PinHost

end Osprey
