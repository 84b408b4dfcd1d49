/-
**Every peer that is let in was vouched for.**

The rest of `osprey-svc/src/state.rs` and of `PinnedPeer` in `osprey-core/src/identity.rs`, and
`accept` of `channel.rs`.  What decides who may open a session is a static key in a file.  That the
identity key beside it has signed it is checked when the pin is made, again whenever the file is
read, and by every rotation, so that it is a property of the keys and not of the file's permissions.

Nothing is assumed about the file or about the decoder.

Main definitions:

* `Osprey.PinnedPeer.acceptStatic` — a rotated static for a pinned peer;
* `Osprey.HostState.loadOrCreate`, `Osprey.HostState.readPeers`, `Osprey.StateUpdate` — the other
  ways to read the file, and the updates of the state in memory;
* `Osprey.Channel.accept` — a session with a pinned peer;
* `Osprey.PinnedPeer.Vouched` — **the static was signed, under an algorithm that the build knows and
  a key of its length**.

Main results:

* `Osprey.PinnedPeer.verify_iff_vouched` — what the checks establish;
* `Osprey.vouched_foldl_acceptStatic`, `Osprey.vouched_foldl_apply` — what rotations and updates
  keep;
* `Osprey.admitted_peers_vouched` — **all of it together**.
-/

import Osprey.PairingFlow
import Osprey.SignedBytes

set_option relaxedAutoImplicit false
set_option autoImplicit false

namespace Osprey

open ByteIO (ErrorKind)
open FileIO

/-! ### Rotation -/

/-- Accept a (possibly rotated) Noise static for this pinned peer, with the pin it leaves.  The key
and the algorithm are the pin's. -/
def PinnedPeer.acceptStatic (crypto : Crypto) (p : PinnedPeer) (bundle : PublicIdentity) :
    Except Error Unit × PinnedPeer :=
  if bundle.identityAlgorithm ≠ p.identityAlgorithm ∨ bundle.identityPub ≠ p.identityPub then
    (.error .unpinnedPeer, p)
  else
    match verifyCrossSignature crypto p.identityAlgorithm p.identityPub bundle.noiseStaticPub
        bundle.noiseStaticSig with
    | .error e => (.error e, p)
    | .ok () =>
        (.ok (), { p with
          noiseStaticPub := bundle.noiseStaticPub, noiseStaticSig := bundle.noiseStaticSig })

/-! ### Reading and updating the state -/

namespace HostState

variable (codec : StateCodec) (crypto : Crypto)

/-- Load the state file, creating one with a fresh device id on first run. -/
def loadOrCreate (deviceId : Uuid) (displayName : String) : FileM StateError StateFile := fun w =>
  match readTarget w with
  | (.ok bytes, w) => FileM.ofExcept (parseState codec crypto bytes) w
  | (.err .notFound, w) =>
      (do
        let file := StateFile.fresh deviceId displayName
        save codec file
        pure file) w
  | (.err kind, w) => (.err (.couldNotRead kind), w)
  | (.died, w) => (.died, w)

/-- Read only the pinned peers, without taking ownership of the state. -/
def readPeers : FileM StateError (List PairedPeer) := fun w =>
  match readTarget w with
  | (.ok bytes, w) =>
      FileM.ofExcept (match parseState codec crypto bytes with
        | .error e => .error e
        | .ok file => .ok file.peers) w
  | (.err .notFound, w) => (.ok [], w)
  | (.err kind, w) => (.err (.couldNotRead kind), w)
  | (.died, w) => (.died, w)

/-- The pin list in the form `Channel.accept` expects. -/
def pins (file : StateFile) : List PinnedPeer := file.peers.map PairedPeer.pinned

end HostState

/-- The methods that change the state. -/
inductive StateUpdate
  | setRelay (relay : RelayEnrolment)
  | addPeer (peer : PairedPeer)
  | consumeRevocationNonce (nonce : Key32) (issuedAtMs nowMs windowMs : Int64)
  | removePeers (selector : PeerSelector)
  deriving DecidableEq, Repr

/-- What is in memory after an update, whether or not it could be saved. -/
def StateUpdate.apply (crypto : Crypto) (file : StateFile) : StateUpdate → StateFile
  | setRelay relay => file.withRelay relay
  | addPeer peer => file.insertPeer crypto peer
  | consumeRevocationNonce nonce issuedAtMs nowMs windowMs =>
      if file.hasNonce nonce then file else file.recordNonce nonce issuedAtMs nowMs windowMs
  | removePeers selector => file.dropPeers crypto selector

/-! ### Accepting a session -/

/-- Host side: accept a session only from a currently pinned controller. -/
def Channel.accept {H T : Type} (snow : Snow H T) (stream : Stream) (identity : DeviceIdentity)
    (allowed : List PinnedPeer) (rng : ℕ) : Except Error (PinnedPeer × NoiseSession T) × Stream :=
  match Handshake.new snow ⟨.session, .responder, identity.noiseStaticSecret, none, none⟩ rng with
  | .error e => (.error e, stream)
  | .ok handshake =>
      match Handshake.runResponder snow handshake stream [] with
      | (.error e, stream) => (.error e, stream)
      | (.ok (session, _), stream) =>
          match allowed.find? fun p => p.matchesHandshakeStatic session.remoteStatic with
          | none => (.error .unpinnedPeer, stream)
          | some peer => (.ok (peer, session), stream)

/-! ### Vouched pins -/

/-- The pin's static was signed by its identity key, under an algorithm that the build knows and
with a key of exactly its length. -/
structure PinnedPeer.Vouched (crypto : Crypto) (p : PinnedPeer) : Prop where
  signed : verifyIdentitySignature crypto p.identityAlgorithm p.identityPub
    (crossSigMessage p.identityPub p.noiseStaticPub) p.noiseStaticSig = .ok ()
  length : expectedKeyLen p.identityAlgorithm = some p.identityPub.length

variable {codec : StateCodec} {crypto : Crypto}

/-- The check of a pin establishes all of it, the length included. -/
theorem PinnedPeer.verify_iff_vouched {p : PinnedPeer} :
    p.verify crypto = .ok () ↔ p.Vouched crypto := by
  rw [PinnedPeer.verify, verifyCrossSignature_iff]
  constructor
  · intro h
    exact ⟨h, (verifyIdentitySignature_ok h).1⟩
  · intro h
    exact h.signed

theorem PinnedPeer.vouched_of_pin {bundle : PublicIdentity} {p : PinnedPeer}
    (h : PinnedPeer.pin crypto bundle = .ok p) : p.Vouched crypto :=
  PinnedPeer.verify_iff_vouched.mp (PinnedPeer.pin_eq_ok.mp h).1

/-! ### What a rotation keeps -/

namespace PinnedPeer

/-- A rotation that is refused changes nothing; one that is accepted takes the bundle's static,
which the pinned key has signed. -/
theorem acceptStatic_cases (crypto : Crypto) (p : PinnedPeer) (bundle : PublicIdentity) :
    (∃ e, p.acceptStatic crypto bundle = (.error e, p)) ∨
      verifyCrossSignature crypto p.identityAlgorithm p.identityPub bundle.noiseStaticPub
          bundle.noiseStaticSig = .ok () ∧
        p.acceptStatic crypto bundle = (.ok (), { p with
          noiseStaticPub := bundle.noiseStaticPub, noiseStaticSig := bundle.noiseStaticSig }) := by
  unfold acceptStatic
  split
  · exact .inl ⟨_, rfl⟩
  · cases hverify : verifyCrossSignature crypto p.identityAlgorithm p.identityPub
        bundle.noiseStaticPub bundle.noiseStaticSig with
    | error e => exact .inl ⟨e, rfl⟩
    | ok u => exact .inr ⟨rfl, rfl⟩

theorem acceptStatic_identity (crypto : Crypto) (p : PinnedPeer) (bundle : PublicIdentity) :
    (p.acceptStatic crypto bundle).2.identityAlgorithm = p.identityAlgorithm ∧
      (p.acceptStatic crypto bundle).2.identityPub = p.identityPub := by
  rcases acceptStatic_cases crypto p bundle with ⟨e, h⟩ | ⟨-, h⟩
  · rw [h]
    exact ⟨rfl, rfl⟩
  · rw [h]
    exact ⟨rfl, rfl⟩

theorem acceptStatic_of_error {p : PinnedPeer} {bundle : PublicIdentity} {e : Error}
    (h : (p.acceptStatic crypto bundle).1 = .error e) : (p.acceptStatic crypto bundle).2 = p := by
  rcases acceptStatic_cases crypto p bundle with ⟨e', heq⟩ | ⟨-, heq⟩
  · rw [heq]
  · rw [heq] at h
    cases h

theorem Vouched.acceptStatic {p : PinnedPeer} (h : p.Vouched crypto) (bundle : PublicIdentity) :
    (p.acceptStatic crypto bundle).2.Vouched crypto := by
  rcases acceptStatic_cases crypto p bundle with ⟨e, heq⟩ | ⟨hverify, heq⟩
  · rw [heq]
    exact h
  · rw [heq]
    exact ⟨(verifyCrossSignature_iff crypto _ _ _ _).mp hverify, h.length⟩

end PinnedPeer

/-- Bundles offered one after the other, whatever they are. -/
def acceptStatics (crypto : Crypto) (p : PinnedPeer) (bundles : List PublicIdentity) : PinnedPeer :=
  bundles.foldl (fun p bundle => (p.acceptStatic crypto bundle).2) p

theorem vouched_foldl_acceptStatic {p : PinnedPeer} (h : p.Vouched crypto)
    (bundles : List PublicIdentity) :
    (acceptStatics crypto p bundles).Vouched crypto ∧
      (acceptStatics crypto p bundles).identityAlgorithm = p.identityAlgorithm ∧
      (acceptStatics crypto p bundles).identityPub = p.identityPub := by
  induction bundles generalizing p with
  | nil => exact ⟨h, rfl, rfl⟩
  | cons bundle bundles ih =>
      obtain ⟨hvouched, halgorithm, hkey⟩ := ih (h.acceptStatic bundle)
      obtain ⟨hsameAlgorithm, hsameKey⟩ := PinnedPeer.acceptStatic_identity crypto p bundle
      exact ⟨hvouched, halgorithm.trans hsameAlgorithm, hkey.trans hsameKey⟩

/-! ### What reading establishes -/

/-- Every pin of a state is vouched for. -/
def AllVouched (crypto : Crypto) (peers : List PairedPeer) : Prop :=
  ∀ peer ∈ peers, peer.pinned.Vouched crypto

/-- Whatever the bytes and whatever the decoder makes of them. -/
theorem allVouched_of_parseState {bytes : Bytes} {file : StateFile}
    (h : parseState codec crypto bytes = .ok file) : AllVouched crypto file.peers :=
  fun peer hmem => PinnedPeer.verify_iff_vouched.mp ((parseState_eq_ok.mp h).2.2 peer hmem)

namespace HostState

/-- Loading or creating either reads what is on disk and keeps it, or puts a fresh state there. -/
theorem attempt_loadOrCreate (codec : StateCodec) (crypto : Crypto) (deviceId : Uuid)
    (displayName : String) (w : World) :
    Attempt (loadOrCreate codec crypto deviceId displayName) w fun file w' =>
      ((readTarget w).1 = .err .notFound ∧ file = .fresh deviceId displayName ∧
        ∃ body, codec.encode file = .ok body ∧ w'.disk.target = some body) ∨
      ((readTarget w).1 ≠ .err .notFound ∧ Keeps w w' ∧
        ∃ bytes, w.disk.target = some bytes ∧ parseState codec crypto bytes = .ok file) := by
  have hread := attempt_readTarget w
  unfold Attempt loadOrCreate
  rcases hread.cases with ⟨bytes, w₁, hrun, hkeeps, hbytes⟩ | ⟨kind, w₁, hrun, hkeeps⟩ |
    ⟨w₁, hrun, hkeeps⟩
  · rw [hrun]
    dsimp only
    cases hparse : parseState codec crypto bytes with
    | error e => exact hkeeps
    | ok file => exact .inr ⟨by simp, hkeeps, bytes, hbytes, hparse⟩
  · rw [hrun]
    cases kind with
    | notFound =>
        have hsave := attempt_save codec (.fresh deviceId displayName) w₁
        dsimp only
        rcases hsave.cases with ⟨u, w₂, hsaved, body, hencode, hreplaces⟩ | ⟨e, w₂, hsaved, hkept⟩ |
          ⟨w₂, hsaved, hkept⟩
        · rw [FileM.bind_run, hsaved]
          exact .inl ⟨rfl, rfl, body, hencode, hreplaces.target⟩
        · rw [FileM.bind_run, hsaved]
          exact hkeeps.trans hkept
        · rw [FileM.bind_run, hsaved]
          exact hkeeps.trans hkept
    | _ => exact hkeeps
  · rw [hrun]
    exact hkeeps

theorem allVouched_of_load {w w' : World} {file : StateFile}
    (h : load codec crypto w = (.ok file, w')) : AllVouched crypto file.peers := by
  have hload := attempt_load codec crypto w
  rw [Attempt, h] at hload
  obtain ⟨-, bytes, -, hparse⟩ := hload
  exact allVouched_of_parseState hparse

theorem allVouched_of_loadOrCreate {deviceId : Uuid} {displayName : String} {w w' : World}
    {file : StateFile} (h : loadOrCreate codec crypto deviceId displayName w = (.ok file, w')) :
    AllVouched crypto file.peers := by
  have hload := attempt_loadOrCreate codec crypto deviceId displayName w
  rw [Attempt, h] at hload
  rcases hload with ⟨-, rfl, -⟩ | ⟨-, -, bytes, -, hparse⟩
  · -- a fresh state has no pins
    exact fun _ hmem => absurd hmem List.not_mem_nil
  · exact allVouched_of_parseState hparse

theorem allVouched_of_readPeers {w w' : World} {peers : List PairedPeer}
    (h : readPeers codec crypto w = (.ok peers, w')) : AllVouched crypto peers := by
  unfold readPeers at h
  split at h
  · have hread := FileM.ofExcept_ok h
    split at hread
    · cases hread
    · rename_i hparse
      cases hread
      exact allVouched_of_parseState hparse
  · cases h
    exact fun _ hmem => absurd hmem List.not_mem_nil
  · cases h
  · cases h

end HostState

/-! ### What the updates keep -/

theorem AllVouched.filter {peers : List PairedPeer} (h : AllVouched crypto peers)
    (keep : PairedPeer → Bool) : AllVouched crypto (peers.filter keep) :=
  fun peer hmem => h peer (List.mem_of_mem_filter hmem)

/-- An update keeps it when the peer it adds, if any, is vouched for. -/
theorem AllVouched.apply {file : StateFile} (h : AllVouched crypto file.peers)
    (update : StateUpdate) (hadd : ∀ peer, update = .addPeer peer → peer.pinned.Vouched crypto) :
    AllVouched crypto (update.apply crypto file).peers := by
  cases update with
  | setRelay relay => exact h
  | addPeer peer =>
      intro peer' hmem
      rcases List.mem_append.mp hmem with hkept | hnew
      · exact h.filter _ peer' hkept
      · rw [List.mem_singleton.mp hnew]
        exact hadd peer rfl
  | consumeRevocationNonce nonce issuedAtMs nowMs windowMs =>
      simp only [StateUpdate.apply]
      split
      · exact h
      · exact h
  | removePeers selector => exact h.filter _

theorem vouched_foldl_apply {file : StateFile} (h : AllVouched crypto file.peers)
    (updates : List StateUpdate)
    (hadd : ∀ peer, .addPeer peer ∈ updates → peer.pinned.Vouched crypto) :
    AllVouched crypto (updates.foldl (StateUpdate.apply crypto) file).peers := by
  induction updates generalizing file with
  | nil => exact h
  | cons update updates ih =>
      have hfirst : ∀ peer, update = .addPeer peer → peer.pinned.Vouched crypto := by
        rintro peer rfl
        exact hadd peer List.mem_cons_self
      exact ih (h.apply update hfirst) fun peer hmem => hadd peer (List.mem_cons_of_mem _ hmem)

/-! ### Who is let in -/

/-- An accepted session is with one of the allowed peers, and its static is the one that the
handshake has authenticated. -/
theorem Channel.accept_ok {H T : Type} {snow : Snow H T} {stream stream' : Stream}
    {identity : DeviceIdentity} {allowed : List PinnedPeer} {rng : ℕ} {peer : PinnedPeer}
    {session : NoiseSession T}
    (h : Channel.accept snow stream identity allowed rng = (.ok (peer, session), stream')) :
    peer ∈ allowed ∧ peer.noiseStaticPub = session.remoteStatic ∧
      ∃ handshake request transport,
        snow.build ⟨.session, .responder, identity.noiseStaticSecret, none, none⟩ rng
            = .ok handshake ∧
          Handshake.Answered snow handshake stream.reader request [] session.remoteStatic transport
            stream'.reader := by
  unfold Channel.accept at h
  split at h
  · cases h
  · rename_i handshake hnew
    split at h
    · cases h
    · rename_i session' request stream₁ hrun
      split at h
      · cases h
      · rename_i peer' hfind
        cases h
        have hmatches := List.find?_some hfind
        have hstatic : session.remoteStatic = peer.noiseStaticPub := of_decide_eq_true hmatches
        obtain ⟨transport, -, hanswered⟩ := Handshake.answered_of_runResponder hrun
        exact ⟨List.mem_of_find?_eq_some hfind, hstatic.symm, handshake, request, transport,
          Handshake.build_of_new hnew, hanswered⟩

/-- **Every admitted peer was vouched for.**  Whatever is on disk, the ways to read it return
vouched pins only; pinning establishes it, and every sequence of updates that add such peers, and of
bundles offered for rotation, keeps it; a rotation never changes the key or the algorithm, and
changes nothing when it is refused; so a session is accepted from such a peer only, with the static
that its handshake authenticated. -/
theorem admitted_peers_vouched (codec : StateCodec) (crypto : Crypto) :
    ((∀ w file w', HostState.load codec crypto w = (.ok file, w') → AllVouched crypto file.peers) ∧
      (∀ deviceId displayName w file w',
        HostState.loadOrCreate codec crypto deviceId displayName w = (.ok file, w') →
        AllVouched crypto file.peers) ∧
      ∀ w peers w', HostState.readPeers codec crypto w = (.ok peers, w') →
        AllVouched crypto peers) ∧
    (∀ bundle p, PinnedPeer.pin crypto bundle = .ok p → p.Vouched crypto) ∧
    (∀ (file : StateFile) (updates : List StateUpdate), AllVouched crypto file.peers →
      (∀ peer, .addPeer peer ∈ updates → peer.pinned.Vouched crypto) →
      AllVouched crypto (updates.foldl (StateUpdate.apply crypto) file).peers) ∧
    (∀ (p : PinnedPeer) (bundles : List PublicIdentity), p.Vouched crypto →
      (acceptStatics crypto p bundles).Vouched crypto) ∧
    (∀ (p : PinnedPeer) (bundle : PublicIdentity),
      (p.acceptStatic crypto bundle).2.identityAlgorithm = p.identityAlgorithm ∧
      (p.acceptStatic crypto bundle).2.identityPub = p.identityPub ∧
      ∀ e, (p.acceptStatic crypto bundle).1 = .error e → (p.acceptStatic crypto bundle).2 = p) ∧
    ∀ {H T : Type} (snow : Snow H T) stream identity (file : StateFile) rng peer session stream',
      AllVouched crypto file.peers →
      Channel.accept snow stream identity (HostState.pins file) rng =
        (.ok (peer, session), stream') →
      peer.Vouched crypto ∧ peer.noiseStaticPub = session.remoteStatic ∧
        ∃ handshake request transport,
          snow.build ⟨.session, .responder, identity.noiseStaticSecret, none, none⟩ rng
              = .ok handshake ∧
            Handshake.Answered snow handshake stream.reader request
              [] session.remoteStatic transport
              stream'.reader := by
  refine ⟨⟨?_, ?_, ?_⟩, ?_, ?_, ?_, ?_, ?_⟩
  · intro w file w' h
    exact HostState.allVouched_of_load h
  · intro deviceId displayName w file w' h
    exact HostState.allVouched_of_loadOrCreate h
  · intro w peers w' h
    exact HostState.allVouched_of_readPeers h
  · intro bundle p h
    exact PinnedPeer.vouched_of_pin h
  · intro file updates hfile hadd
    exact vouched_foldl_apply hfile updates hadd
  · intro p bundles h
    exact (vouched_foldl_acceptStatic h bundles).1
  · intro p bundle
    obtain ⟨halgorithm, hkey⟩ := PinnedPeer.acceptStatic_identity crypto p bundle
    exact ⟨halgorithm, hkey, fun e herror => PinnedPeer.acceptStatic_of_error herror⟩
  · intro H T snow stream identity file rng peer session stream' hfile h
    obtain ⟨hmem, hstatic, hhandshake⟩ := Channel.accept_ok h
    obtain ⟨paired, hpaired, rfl⟩ := List.mem_map.mp hmem
    exact ⟨hfile paired hpaired, hstatic, hhandshake⟩

end Osprey
