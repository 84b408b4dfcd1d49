/-
**The agent's relay credentials, across the commands that use them.**

What the agent needs to talk to a relay lies in two files: the enrolment in `state.json`, and the
bearer token in the keystore.  `pair` writes both when it enrols (`osprey-svc/src/commands/pair.rs`,
`ensure_enrolled`), the token first; `run`, `pair` and `unpair` read the enrolment with the state
they open and the token later (`commands/run.rs`, `commands/unpair.rs`, `host.rs`), and every save
of the state writes the enrolment back that was opened.  A bearer token is for one account of one
relay, and a relay is not trusted: a token that goes to another relay is given away.

A step of the system is one file operation or one request of one process, and an interleaving is a
list of steps.  A process may end before any of them.  What a relay answers is the step's, and so is
whether the token can be read.

Main definitions:

* `Osprey.PairOptions`, `Osprey.RelayClient.new`, `Osprey.ensureEnrolled` — what `pair` decides;
* `Osprey.CredTask`, `Osprey.CredPhase`, `Osprey.Credentials`, `Osprey.Credentials.step` — the
  processes and the two files;
* `Osprey.Credentials.Sound` — nothing goes, or could go, to a relay that did not issue it;
* `Osprey.Credentials.Undisturbed`, `Osprey.Credentials.Completed` — what must be seen to.

Main results:

* `Osprey.Credentials.step_cases` — what a step can do, branch by branch;
* `Osprey.Credentials.sound_step_iff` — when a step keeps the credentials sound;
* `Osprey.Credentials.sound_iff_completed` — **the credentials stay sound exactly if no `pair` is
  cut between its two writes** while another enrolment is on file.
-/

import Osprey.PinWriters
import Osprey.RelayLink

set_option relaxedAutoImplicit false
set_option autoImplicit false

namespace Osprey

/-! ### What `pair` decides -/

/-- The bearer token of a relay. -/
abbrev DeviceToken := String

/-- The options of `pair` that are about the relay. -/
structure PairOptions where
  relayUrl : Option String
  enrollmentSecret : Option String
  lanOnly : Bool
  deriving DecidableEq, Repr

/-- `starts_with("http://") || starts_with("https://")`. -/
def isHttp (url : List Char) : Bool :=
  "http://".toList.isPrefixOf url || "https://".toList.isPrefixOf url

/-- `RelayClient::new`, by the base url of the client; `none` is a url in another scheme. -/
def RelayClient.new (baseUrl : String) : Option String :=
  let trimmed := trimEndSlashes baseUrl.toList
  if isHttp trimmed then some (.ofList trimmed) else none

/-- The base url of a client is one that it would be built from. -/
theorem RelayClient.new_idem {baseUrl client : String} (h : RelayClient.new baseUrl = some client) :
    String.ofList (trimEndSlashes client.toList) = client ∧
      RelayClient.new client = some client := by
  simp only [RelayClient.new] at h
  split at h
  · rename_i hscheme
    cases h
    have htrim : trimEndSlashes (trimEndSlashes baseUrl.toList) = trimEndSlashes baseUrl.toList :=
      List.rdropWhile_idempotent _ _
    simp only [RelayClient.new, String.toList_ofList, htrim, hscheme, if_true, and_self]
  · cases h

/-- What `ensure_enrolled` comes to before it asks a relay for anything. -/
inductive EnsureEnrolled
  | lanOnly
  | reuse (token : DeviceToken)
  | enrol (baseUrl secret : String)
  | noRelayConfigured
  | unusableUrl
  | unreadableToken
  | noSecret
  deriving DecidableEq, Repr

/-- `ensure_enrolled`, up to `client.enrol`.  `environment` is `OSPREY_ENROLLMENT_SECRET`, and
`stored` the sealed token, which is read only when the enrolment on file is for the same relay. -/
def ensureEnrolled (options : PairOptions) (environment : Option String)
    (relay : Option RelayEnrolment) (stored : Except Unit (Option DeviceToken)) : EnsureEnrolled :=
  if options.lanOnly then .lanOnly
  else
    match options.relayUrl.or (relay.map RelayEnrolment.baseUrl) with
    | none => .noRelayConfigured
    | some url =>
        match RelayClient.new url with
        | none => .unusableUrl
        | some client =>
            let ask :=
              match options.enrollmentSecret.or environment with
              | none => .noSecret
              | some secret => .enrol client secret
            match relay.filter fun relay => relay.baseUrl = client with
            | none => ask
            | some _ =>
                match stored with
                | .error () => .unreadableToken
                | .ok (some token) => .reuse token
                | .ok none => ask

/-- A token is used again only for the relay of the enrolment on file. -/
theorem ensureEnrolled_eq_reuse {options : PairOptions} {environment : Option String}
    {relay : Option RelayEnrolment} {stored : Except Unit (Option DeviceToken)}
    {token : DeviceToken} (h : ensureEnrolled options environment relay stored = .reuse token) :
    stored = .ok (some token) := by
  simp only [ensureEnrolled] at h
  split at h
  · cases h
  · split at h
    · cases h
    · split at h
      · cases h
      · split at h
        · split at h
          · cases h
          · cases h
        · split at h
          · cases h
          · cases h
            rfl
          · split at h
            · cases h
            · cases h

/-- A relay is asked under the base url of a client. -/
theorem ensureEnrolled_eq_enrol {options : PairOptions} {environment : Option String}
    {relay : Option RelayEnrolment} {stored : Except Unit (Option DeviceToken)}
    {baseUrl secret : String}
    (h : ensureEnrolled options environment relay stored = .enrol baseUrl secret) :
    RelayClient.new baseUrl = some baseUrl := by
  simp only [ensureEnrolled] at h
  split at h
  · cases h
  · split at h
    · cases h
    · split at h
      · cases h
      · rename_i client hclient
        have hidem := (RelayClient.new_idem hclient).2
        split at h
        · split at h
          · cases h
          · cases h
            exact hidem
        · split at h
          · cases h
          · cases h
          · split at h
            · cases h
            · cases h
              exact hidem

/-! ### The processes and the two files -/

/-- An enrolment, with the bearer token that was issued for it. -/
structure Credential where
  relay : RelayEnrolment
  token : DeviceToken
  deriving DecidableEq, Repr

/-- What `POST /v1/agents/enroll` gives back. -/
structure Enrolment where
  accountId : Uuid
  deviceId : Uuid
  deviceToken : DeviceToken
  deriving DecidableEq, Repr

/-- What the state is opened for; `revoke` is a session thread of the service that applies a
`pair.revoke`. -/
inductive CredTask
  | pair (options : PairOptions)
  | run
  | unpair
  | revoke
  deriving DecidableEq, Repr

/-- Where a process is, with the state that it has opened. -/
inductive CredPhase
  | closed
  /-- No file was found, and none has been saved yet. -/
  | creating (task : CredTask) (state : StateFile)
  | opened (task : CredTask) (state : StateFile)
  /-- About to ask the relay for an enrolment. -/
  | enrolling (state : StateFile) (baseUrl secret : String)
  | enrolled (state : StateFile) (credential : Credential)
  /-- The token is sealed, and the enrolment not recorded yet. -/
  | stored (state : StateFile) (credential : Credential)
  | pairing (state : StateFile) (token : Option DeviceToken)
  | serving (target : Option Credential)
  /-- The pins are gone, and the relay has not been told. -/
  | unpaired (state : StateFile)
  | notifying (credential : Credential)
  deriving DecidableEq, Repr

namespace CredPhase

/-- The state that the process has opened. -/
def snapshot : CredPhase → Option StateFile
  | creating _ state | opened _ state | enrolling state _ _ | enrolled state _ | stored state _
  | pairing state _ | unpaired state => some state
  | closed | serving _ | notifying _ => none

/-- What the process presents to a relay. -/
def held : CredPhase → Option Credential
  | pairing state (some token) => state.relay.map fun relay => ⟨relay, token⟩
  | serving target => target
  | notifying credential => some credential
  | _ => none

/-- What the relay has issued to the process, until it is on file. -/
def granted : CredPhase → Option Credential
  | enrolled _ credential | stored _ credential => some credential
  | _ => none

/-- The process is between its two writes. -/
def between : CredPhase → Option Credential
  | stored _ credential => some credential
  | _ => none

/-- The relay that the process is about to ask. -/
def asks : CredPhase → Option String
  | enrolling _ baseUrl _ => some baseUrl
  | _ => none

/-- The url that a request goes to.  The supervisor of `run` takes WebSocket schemes too. -/
def contact (phase : CredPhase) (baseUrl : String) : Option String :=
  match phase with
  | serving _ =>
      (webSocketUrl (trimEndSlashes baseUrl.toList)).map fun _ =>
        .ofList (trimEndSlashes baseUrl.toList)
  | _ => RelayClient.new baseUrl

/-- A request goes where the base url says. -/
theorem contact_eq {phase : CredPhase} {baseUrl url : String}
    (h : phase.contact baseUrl = some url) (hbase : RelayClient.new baseUrl = some baseUrl) :
    url = baseUrl := by
  unfold contact at h
  split at h
  · obtain ⟨ws, -, rfl⟩ := Option.map_eq_some_iff.mp h
    exact (RelayClient.new_idem hbase).1
  · exact Option.some.inj (h.symm.trans hbase)

end CredPhase

/-- The state file, the sealed token, the processes, what relays have issued, and what has been
presented to them, with the url that it went to. -/
structure Credentials where
  file : Option StateFile
  token : Option DeviceToken
  processes : ℕ → CredPhase
  issued : List Credential
  presented : List Credential

/-- One step.  `unreadable` says that the keystore answers with an error, and `arrives` that the
relay's answer comes back. -/
inductive CredAction
  | openHost (p : ℕ) (task : CredTask) (deviceId : Uuid) (displayName : String)
  | create (p : ℕ)
  | ensureEnrolled (p : ℕ) (environment : Option String) (unreadable : Bool)
  | enrol (p : ℕ) (answer : Option Enrolment) (arrives : Bool)
  | storeToken (p : ℕ)
  | setRelay (p : ℕ)
  | relayTarget (p : ℕ) (unreadable : Bool)
  | present (p : ℕ)
  | addPeer (p : ℕ) (peer : PairedPeer)
  | saveNonce (p : ℕ) (nonce : Key32) (issuedAtMs nowMs : Int64)
  | removePeers (p : ℕ) (selector : PeerSelector)
  | notifyRelay (p : ℕ) (unreadable : Bool)
  | exit (p : ℕ)
  deriving DecidableEq, Repr

namespace Credentials

def setProcess (s : Credentials) (p : ℕ) (phase : CredPhase) : Credentials :=
  { s with processes := fun q => if q = p then phase else s.processes q }

/-- The enrolment on file. -/
def recorded (s : Credentials) : Option RelayEnrolment := s.file.bind StateFile.relay

/-- `Host::relay_token`. -/
def relayToken (s : Credentials) (unreadable : Bool) : Except Unit (Option DeviceToken) :=
  if unreadable then .error () else .ok s.token

/-- What `relay_target` and `notify_relay` go on with: the enrolment of the state that was opened,
with the sealed token, if both are there. -/
def target (s : Credentials) (state : StateFile) (unreadable : Bool) : Option Credential :=
  match state.relay, s.relayToken unreadable with
  | some relay, .ok (some token) => some ⟨relay, token⟩
  | _, _ => none

variable (crypto : Crypto)

/-- The transitions.  A command that fails ends, which is `exit`. -/
def step (s : Credentials) : CredAction → Option Credentials
  | .openHost p task deviceId displayName =>
      match s.processes p with
      | .closed =>
          match s.file with
          | some state => some (s.setProcess p (.opened task state))
          | none =>
              -- a session thread loads the file and does not create it
              if task = .revoke then none
              else some (s.setProcess p (.creating task (.fresh deviceId displayName)))
      | _ => none
  | .create p =>
      match s.processes p with
      | .creating task state => some { s.setProcess p (.opened task state) with file := some state }
      | _ => none
  | .ensureEnrolled p environment unreadable =>
      match s.processes p with
      | .opened (.pair options) state =>
          match Osprey.ensureEnrolled options environment state.relay (s.relayToken unreadable) with
          | .lanOnly => some (s.setProcess p (.pairing state none))
          | .reuse token => some (s.setProcess p (.pairing state (some token)))
          | .enrol baseUrl secret => some (s.setProcess p (.enrolling state baseUrl secret))
          | .noRelayConfigured | .unusableUrl | .unreadableToken | .noSecret =>
              some (s.setProcess p .closed)
      | _ => none
  | .enrol p answer arrives =>
      match s.processes p with
      | .enrolling state baseUrl _ =>
          match answer with
          | none => some (s.setProcess p .closed)
          | some enrolment =>
              let credential :=
                ⟨⟨baseUrl, enrolment.accountId, enrolment.deviceId⟩, enrolment.deviceToken⟩
              some { s.setProcess p (if arrives then .enrolled state credential else .closed) with
                issued := credential :: s.issued }
      | _ => none
  | .storeToken p =>
      match s.processes p with
      | .enrolled state credential =>
          some { s.setProcess p (.stored state credential) with token := some credential.token }
      | _ => none
  | .setRelay p =>
      match s.processes p with
      | .stored state credential =>
          some { s.setProcess p
              (.pairing (state.withRelay credential.relay) (some credential.token)) with
            file := some (state.withRelay credential.relay) }
      | _ => none
  | .relayTarget p unreadable =>
      match s.processes p with
      | .opened .run state => some (s.setProcess p (.serving (s.target state unreadable)))
      | _ => none
  | .present p =>
      match (s.processes p).held with
      | none => none
      | some credential =>
          match (s.processes p).contact credential.relay.baseUrl with
          | none => none
          | some url => some { s with
              presented := { credential with relay.baseUrl := url } :: s.presented }
  | .addPeer p peer =>
      match s.processes p with
      | .pairing state _ =>
          some { s.setProcess p .closed with file := some (state.insertPeer crypto peer) }
      | _ => none
  | .saveNonce p nonce issuedAtMs nowMs =>
      match s.processes p with
      | .opened .revoke state =>
          let state := state.recordNonce nonce issuedAtMs nowMs REVOKE_CLOCK_WINDOW
          some { s.setProcess p (.opened .revoke state) with file := some state }
      | _ => none
  | .removePeers p selector =>
      match s.processes p with
      | .opened .unpair state =>
          let kept := state.dropPeers crypto selector
          some { s.setProcess p
              (if (state.matching crypto selector).isEmpty then .closed else .unpaired kept) with
            file := some kept }
      | .opened .revoke state =>
          some { s.setProcess p .closed with file := some (state.dropPeers crypto selector) }
      | _ => none
  | .notifyRelay p unreadable =>
      match s.processes p with
      | .unpaired state =>
          match s.target state unreadable with
          | none => some (s.setProcess p .closed)
          | some credential => some (s.setProcess p (.notifying credential))
      | _ => none
  | .exit p => some (s.setProcess p .closed)

end Credentials

/-- The process that a step lets read the token, or write back the state that it has opened. -/
def CredAction.uses : CredAction → Option ℕ
  | ensureEnrolled p _ _ | relayTarget p _ | notifyRelay p _ | addPeer p _ | saveNonce p _ _ _
  | removePeers p _ => some p
  | _ => none

/-- The process has nothing to present, and nothing that is not on file. -/
structure CredPhase.Plain (phase : CredPhase) : Prop where
  held : phase.held = none
  granted : phase.granted = none
  between : phase.between = none
  asks : phase.asks = none

theorem CredPhase.plain_closed : closed.Plain := ⟨rfl, rfl, rfl, rfl⟩

theorem CredPhase.plain_opened (task : CredTask) (state : StateFile) : (opened task state).Plain :=
  ⟨rfl, rfl, rfl, rfl⟩

namespace Credentials

/-- What a step can do.  `moved` and `exited` write to no file and read no token. -/
inductive Step (s : Credentials) : CredAction → Credentials → Prop
  | moved {a : CredAction} {p : ℕ} {phase : CredPhase} (hexit : ∀ q, a ≠ .exit q)
      (hbetween : (s.processes p).between = none) (hplain : phase.Plain)
      (hfresh : ∀ task state, phase = .creating task state → state.relay = none) :
      Step s a (s.setProcess p phase)
  | created {p : ℕ} {task : CredTask} {state : StateFile}
      (hphase : s.processes p = .creating task state) :
      Step s (.create p) { s.setProcess p (.opened task state) with file := some state }
  | asking {a : CredAction} {p : ℕ} {state : StateFile} {baseUrl secret : String}
      (hexit : ∀ q, a ≠ .exit q) (hbetween : (s.processes p).between = none)
      (hclient : RelayClient.new baseUrl = some baseUrl) :
      Step s a (s.setProcess p (.enrolling state baseUrl secret))
  | read {a : CredAction} {p : ℕ} {state : StateFile} {phase : CredPhase} (huses : a.uses = some p)
      (hbetween : (s.processes p).between = none)
      (hsnapshot : (s.processes p).snapshot = some state)
      (hphase : (∃ token, s.token = some token ∧ phase = .pairing state (some token)) ∨
        ∃ c, (phase = .serving (some c) ∨ phase = .notifying c) ∧ state.relay = some c.relay ∧
          s.token = some c.token) :
      Step s a (s.setProcess p phase)
  | issued {p : ℕ} {state : StateFile} {baseUrl secret : String} {enrolment : Enrolment}
      {phase : CredPhase} (hphase : s.processes p = .enrolling state baseUrl secret)
      (hnext : phase = .closed ∨ phase = .enrolled state
        ⟨⟨baseUrl, enrolment.accountId, enrolment.deviceId⟩, enrolment.deviceToken⟩)
      {arrives : Bool} :
      Step s (.enrol p (some enrolment) arrives)
        { s.setProcess p phase with
          issued := ⟨⟨baseUrl, enrolment.accountId, enrolment.deviceId⟩, enrolment.deviceToken⟩ ::
            s.issued }
  | stored {p : ℕ} {state : StateFile} {c : Credential}
      (hphase : s.processes p = .enrolled state c) :
      Step s (.storeToken p) { s.setProcess p (.stored state c) with token := some c.token }
  | recorded {p : ℕ} {state : StateFile} {c : Credential}
      (hphase : s.processes p = .stored state c) :
      Step s (.setRelay p)
        { s.setProcess p (.pairing (state.withRelay c.relay) (some c.token)) with
          file := some (state.withRelay c.relay) }
  | presented {p : ℕ} {c : Credential} {url : String} (hheld : (s.processes p).held = some c)
      (hcontact : (s.processes p).contact c.relay.baseUrl = some url) :
      Step s (.present p) { s with presented := { c with relay.baseUrl := url } :: s.presented }
  | saved {a : CredAction} {p : ℕ} {state file : StateFile} {phase : CredPhase}
      (huses : a.uses = some p) (hbetween : (s.processes p).between = none)
      (hsnapshot : (s.processes p).snapshot = some state) (hrelay : file.relay = state.relay)
      (hplain : phase.Plain) (hfresh : ∀ task state, phase ≠ .creating task state) :
      Step s a { s.setProcess p phase with file := some file }
  | exited {p : ℕ} : Step s (.exit p) (s.setProcess p .closed)

/-- What is gone on with is the enrolment that was opened, and the token that lies there. -/
theorem target_eq_some {s : Credentials} {state : StateFile} {unreadable : Bool} {c : Credential}
    (h : s.target state unreadable = some c) :
    state.relay = some c.relay ∧ s.token = some c.token := by
  unfold target relayToken at h
  cases unreadable with
  | true => simp at h
  | false =>
      simp only [Bool.false_eq_true, if_false] at h
      split at h
      · rename_i relay token hrelay htoken
        cases h
        exact ⟨hrelay, Except.ok.inj htoken⟩
      · cases h

/-- **The step function does one of these things.** -/
theorem step_cases {crypto : Crypto} {s s' : Credentials} {a : CredAction}
    (hstep : step crypto s a = some s') : Step s a s' := by
  cases a with
  | openHost p task deviceId displayName =>
      simp only [step] at hstep
      split at hstep
      · rename_i hphase
        have hbetween : (s.processes p).between = none := by rw [hphase]; rfl
        split at hstep
        · cases hstep
          exact .moved (by simp) hbetween (CredPhase.plain_opened _ _) (fun _ _ h => by cases h)
        · split at hstep
          · cases hstep
          · cases hstep
            refine .moved (by simp) hbetween ⟨rfl, rfl, rfl, rfl⟩ ?_
            intro task' state h
            cases h
            rfl
      · cases hstep
  | create p =>
      simp only [step] at hstep
      split at hstep
      · rename_i task state hphase
        cases hstep
        exact .created hphase
      · cases hstep
  | ensureEnrolled p environment unreadable =>
      simp only [step] at hstep
      split at hstep
      · rename_i options state hphase
        have hbetween : (s.processes p).between = none := by rw [hphase]; rfl
        split at hstep
        · cases hstep
          exact .moved (by simp) hbetween ⟨rfl, rfl, rfl, rfl⟩ (fun _ _ h => by cases h)
        · rename_i token hreuse
          cases hstep
          have hsnapshot : (s.processes p).snapshot = some state := by rw [hphase]; rfl
          refine .read rfl hbetween hsnapshot (.inl ⟨token, ?_, rfl⟩)
          have hread := ensureEnrolled_eq_reuse hreuse
          unfold relayToken at hread
          split at hread
          · cases hread
          · exact Except.ok.inj hread
        · rename_i baseUrl secret henrol
          cases hstep
          exact .asking (by simp) hbetween (ensureEnrolled_eq_enrol henrol)
        all_goals
          cases hstep
          exact .moved (by simp) hbetween CredPhase.plain_closed (fun _ _ h => by cases h)
      · cases hstep
  | enrol p answer arrives =>
      simp only [step] at hstep
      split at hstep
      · rename_i state baseUrl secret hphase
        have hbetween : (s.processes p).between = none := by rw [hphase]; rfl
        cases answer with
        | none =>
            cases hstep
            exact .moved (by simp) hbetween CredPhase.plain_closed (fun _ _ h => by cases h)
        | some enrolment =>
            cases hstep
            refine .issued hphase ?_
            cases arrives with
            | true => exact .inr rfl
            | false => exact .inl rfl
      · cases hstep
  | storeToken p =>
      simp only [step] at hstep
      split at hstep
      · rename_i state c hphase
        cases hstep
        exact .stored hphase
      · cases hstep
  | setRelay p =>
      simp only [step] at hstep
      split at hstep
      · rename_i state c hphase
        cases hstep
        exact .recorded hphase
      · cases hstep
  | relayTarget p unreadable =>
      simp only [step] at hstep
      split at hstep
      · rename_i state hphase
        have hbetween : (s.processes p).between = none := by rw [hphase]; rfl
        cases hstep
        cases htarget : s.target state unreadable with
        | none => exact .moved (by simp) hbetween ⟨rfl, rfl, rfl, rfl⟩ (fun _ _ h => by cases h)
        | some c =>
            have hsnapshot : (s.processes p).snapshot = some state := by rw [hphase]; rfl
            exact .read rfl hbetween hsnapshot (.inr ⟨c, .inl rfl, target_eq_some htarget⟩)
      · cases hstep
  | present p =>
      simp only [step] at hstep
      split at hstep
      · cases hstep
      · rename_i c hheld
        split at hstep
        · cases hstep
        · rename_i url hcontact
          cases hstep
          exact .presented hheld hcontact
  | addPeer p peer =>
      simp only [step] at hstep
      split at hstep
      · rename_i state token hphase
        cases hstep
        have hsnapshot : (s.processes p).snapshot = some state := by rw [hphase]; rfl
        exact .saved rfl (by rw [hphase]; rfl) hsnapshot rfl
          CredPhase.plain_closed (fun _ _ h => by cases h)
      · cases hstep
  | saveNonce p nonce issuedAtMs nowMs =>
      simp only [step] at hstep
      split at hstep
      · rename_i state hphase
        cases hstep
        have hsnapshot : (s.processes p).snapshot = some state := by rw [hphase]; rfl
        exact .saved rfl (by rw [hphase]; rfl) hsnapshot rfl
          (CredPhase.plain_opened _ _) (fun _ _ h => by cases h)
      · cases hstep
  | removePeers p selector =>
      simp only [step] at hstep
      split at hstep
      · rename_i state hphase
        cases hstep
        have hsnapshot : (s.processes p).snapshot = some state := by rw [hphase]; rfl
        refine .saved rfl (by rw [hphase]; rfl) hsnapshot rfl ?_ ?_
        · split
          · exact CredPhase.plain_closed
          · exact ⟨rfl, rfl, rfl, rfl⟩
        · intro task state'
          split
          · exact fun h => by cases h
          · exact fun h => by cases h
      · rename_i state hphase
        cases hstep
        have hsnapshot : (s.processes p).snapshot = some state := by rw [hphase]; rfl
        exact .saved rfl (by rw [hphase]; rfl) hsnapshot rfl
          CredPhase.plain_closed (fun _ _ h => by cases h)
      · cases hstep
  | notifyRelay p unreadable =>
      simp only [step] at hstep
      split at hstep
      · rename_i state hphase
        have hbetween : (s.processes p).between = none := by rw [hphase]; rfl
        split at hstep
        · cases hstep
          exact .moved (by simp) hbetween CredPhase.plain_closed (fun _ _ h => by cases h)
        · rename_i c htarget
          cases hstep
          have hsnapshot : (s.processes p).snapshot = some state := by rw [hphase]; rfl
          exact .read rfl hbetween hsnapshot (.inr ⟨c, .inr rfl, target_eq_some htarget⟩)
      · cases hstep
  | exit p =>
      cases hstep
      exact .exited

/-! ### What was issued, and where it goes -/

/-- No process is between its two writes. -/
def Quiet (s : Credentials) : Prop := ∀ p, (s.processes p).between = none

/-- The state that the process has opened names the enrolment on file. -/
def Current (s : Credentials) (p : ℕ) : Prop :=
  ∀ state, (s.processes p).snapshot = some state → state.relay = s.recorded

/-- The sealed token was issued for the enrolment on file. -/
def Matched (s : Credentials) : Prop :=
  ∀ relay token, s.recorded = some relay → s.token = some token → ⟨relay, token⟩ ∈ s.issued

/-- Every credential that was presented to a relay, that a process holds for one, or that the next
process will find, was issued by that relay for that enrolment. -/
structure Sound (s : Credentials) : Prop where
  presented : ∀ c ∈ s.presented, c ∈ s.issued
  held : ∀ p c, (s.processes p).held = some c → c ∈ s.issued
  matched : s.Quiet → s.Matched

/-- What holds however commands are cut short: what has been granted was issued, and there is one
process at most between its two writes, whose token is the sealed one. -/
structure Ledger (s : Credentials) : Prop where
  client : ∀ c ∈ s.issued, RelayClient.new c.relay.baseUrl = some c.relay.baseUrl
  asks : ∀ p baseUrl, (s.processes p).asks = some baseUrl → RelayClient.new baseUrl = some baseUrl
  granted : ∀ p c, (s.processes p).granted = some c → c ∈ s.issued
  fresh : ∀ p task state, s.processes p = .creating task state → state.relay = none
  between : ∀ p c, (s.processes p).between = some c → s.token = some c.token
  one : ∀ p q c d, (s.processes p).between = some c → (s.processes q).between = some d → p = q

/-- While a process is between its two writes no other reads the token or saves the state, and none
does so from a state that is out of date. -/
def Undisturbed (s : Credentials) (a : CredAction) : Prop :=
  (∀ p, a.uses = some p → s.Quiet ∧ s.Current p) ∧ ∀ p, a = .storeToken p → s.Quiet

/-- A process that ends between its two writes leaves no enrolment on file that its token was not
issued for. -/
def Completed (s : Credentials) : CredAction → Prop
  | .exit p => ∀ c relay, (s.processes p).between = some c → s.recorded = some relay →
      ⟨relay, c.token⟩ ∈ s.issued
  | _ => True

section

variable {crypto : Crypto} {s t : Credentials} {a : CredAction} {p : ℕ} {phase : CredPhase}

/-- After process `p` has moved, a process is that one, or where it was. -/
theorem process_cases (hprocesses : t.processes = (s.setProcess p phase).processes) (q : ℕ) :
    (q = p ∧ t.processes q = phase) ∨ t.processes q = s.processes q := by
  rw [hprocesses]
  simp only [setProcess]
  split
  · rename_i hq
    exact .inl ⟨hq, rfl⟩
  · exact .inr rfl

/-- A process that is at rest leaves the others as they are. -/
theorem quiet_of_setProcess (hbetween : (s.processes p).between = none)
    (hprocesses : t.processes = (s.setProcess p phase).processes) (h : t.Quiet) : s.Quiet := by
  intro q
  by_cases hq : q = p
  · exact hq ▸ hbetween
  · have hquiet := h q
    rw [hprocesses] at hquiet
    simpa only [setProcess, if_neg hq] using hquiet

theorem completed_of_not_exit (hexit : ∀ q, a ≠ .exit q) : s.Completed a := by
  cases a with
  | exit p => exact absurd rfl (hexit p)
  | _ => trivial

theorem Matched.of_issued (h : s.Matched) (hrecorded : t.recorded = s.recorded)
    (htoken : t.token = s.token) (hissued : ∀ c ∈ s.issued, c ∈ t.issued) : t.Matched := by
  intro relay token hrelay hsealed
  rw [hrecorded] at hrelay
  rw [htoken] at hsealed
  exact hissued _ (h relay token hrelay hsealed)

/-- One process moves, and is not between its two writes afterwards. -/
theorem Ledger.of_move (h : s.Ledger) (hprocesses : t.processes = (s.setProcess p phase).processes)
    (hissued : t.issued = s.issued) (htoken : t.token = s.token)
    (hasks : ∀ baseUrl, phase.asks = some baseUrl → RelayClient.new baseUrl = some baseUrl)
    (hgranted : ∀ c, phase.granted = some c → c ∈ s.issued)
    (hfresh : ∀ task state, phase = .creating task state → state.relay = none)
    (hbetween : phase.between = none) : t.Ledger where
  client := by
    rw [hissued]
    exact h.client
  asks := by
    intro q baseUrl hq
    rcases process_cases hprocesses q with ⟨-, hphase⟩ | hsame
    · exact hasks baseUrl (hphase ▸ hq)
    · exact h.asks q baseUrl (hsame ▸ hq)
  granted := by
    intro q c hq
    rw [hissued]
    rcases process_cases hprocesses q with ⟨-, hphase⟩ | hsame
    · exact hgranted c (hphase ▸ hq)
    · exact h.granted q c (hsame ▸ hq)
  fresh := by
    intro q task state hq
    rcases process_cases hprocesses q with ⟨-, hphase⟩ | hsame
    · exact hfresh task state (hphase ▸ hq)
    · exact h.fresh q task state (hsame ▸ hq)
  between := by
    intro q c hq
    rw [htoken]
    rcases process_cases hprocesses q with ⟨-, hphase⟩ | hsame
    · rw [hphase, hbetween] at hq
      cases hq
    · exact h.between q c (hsame ▸ hq)
  one := by
    have hother : ∀ q c, (t.processes q).between = some c → (s.processes q).between = some c := by
      intro q c hq
      rcases process_cases hprocesses q with ⟨-, hphase⟩ | hsame
      · rw [hphase, hbetween] at hq
        cases hq
      · exact hsame ▸ hq
    exact fun q r c d hq hr => h.one q r c d (hother q c hq) (hother r d hr)

theorem Ledger.of_plain (h : s.Ledger) (hprocesses : t.processes = (s.setProcess p phase).processes)
    (hissued : t.issued = s.issued) (htoken : t.token = s.token) (hplain : phase.Plain)
    (hfresh : ∀ task state, phase = .creating task state → state.relay = none) : t.Ledger := by
  refine h.of_move hprocesses hissued htoken ?_ ?_ hfresh hplain.between
  · intro baseUrl hasks
    rw [hplain.asks] at hasks
    cases hasks
  · intro c hgranted
    rw [hplain.granted] at hgranted
    cases hgranted

/-- More is issued. -/
theorem Ledger.issue (h : s.Ledger) {c : Credential}
    (hclient : RelayClient.new c.relay.baseUrl = some c.relay.baseUrl) :
    ({ s with issued := c :: s.issued } : Credentials).Ledger where
  client := by
    intro d hd
    rcases List.mem_cons.mp hd with rfl | hd
    · exact hclient
    · exact h.client d hd
  asks := h.asks
  granted := fun q d hd => List.mem_cons_of_mem _ (h.granted q d hd)
  fresh := h.fresh
  between := h.between
  one := h.one

/-- A token is sealed while no process is between its two writes. -/
theorem Ledger.store (h : s.Ledger) {state : StateFile} {c : Credential}
    (hphase : s.processes p = .enrolled state c) (hquiet : s.Quiet) :
    ({ s.setProcess p (.stored state c) with token := some c.token } : Credentials).Ledger := by
  have honly : ∀ q d, ((s.setProcess p (.stored state c)).processes q).between = some d →
      q = p ∧ d = c := by
    intro q d hd
    rcases process_cases (t := s.setProcess p (.stored state c)) rfl q with ⟨hq, hphase⟩ | hsame
    · rw [hphase] at hd
      exact ⟨hq, (Option.some.inj hd).symm⟩
    · rw [hsame, hquiet q] at hd
      cases hd
  refine ⟨h.client, ?_, ?_, ?_, ?_, ?_⟩
  · intro q baseUrl hq
    rcases process_cases (t := s.setProcess p (.stored state c)) rfl q with ⟨-, hphase⟩ | hsame
    · exact h.asks q baseUrl (by rw [hphase] at hq; cases hq)
    · exact h.asks q baseUrl (hsame ▸ hq)
  · intro q d hq
    rcases process_cases (t := s.setProcess p (.stored state c)) rfl q with ⟨-, hphase'⟩ | hsame
    · rw [hphase'] at hq
      exact h.granted p d (by rw [hphase]; exact hq)
    · exact h.granted q d (hsame ▸ hq)
  · intro q task state' hq
    rcases process_cases (t := s.setProcess p (.stored state c)) rfl q with ⟨-, hphase⟩ | hsame
    · exact h.fresh q task state' (by rw [hphase] at hq; cases hq)
    · exact h.fresh q task state' (hsame ▸ hq)
  · intro q d hq
    rw [(honly q d hq).2]
  · exact fun q r d e hq hr => (honly q d hq).1.trans (honly r e hr).1.symm

theorem ledger_step (h : s.Ledger) (hundisturbed : s.Undisturbed a)
    (hstep : step crypto s a = some t) : t.Ledger := by
  cases step_cases hstep with
  | moved hexit hbetween hplain hfresh => exact h.of_plain rfl rfl rfl hplain hfresh
  | created hphase =>
      exact h.of_plain rfl rfl rfl (CredPhase.plain_opened _ _) (fun _ _ h => by cases h)
  | asking hexit hbetween hclient =>
      refine h.of_move rfl rfl rfl ?_ (fun c hc => by cases hc) (fun _ _ h => by cases h) rfl
      intro baseUrl hasks
      cases hasks
      exact hclient
  | read huses hbetween hsnapshot hphase =>
      rcases hphase with ⟨token, -, rfl⟩ | ⟨c, rfl | rfl, -⟩
      all_goals
        exact h.of_move rfl rfl rfl (fun b hb => by cases hb) (fun c hc => by cases hc)
          (fun _ _ h => by cases h) rfl
  | @issued p state baseUrl secret enrolment phase hphase hnext =>
      have hclient := h.asks p baseUrl (by rw [hphase]; rfl)
      have hissue := h.issue (c := ⟨⟨baseUrl, enrolment.accountId, enrolment.deviceId⟩,
        enrolment.deviceToken⟩) hclient
      rcases hnext with rfl | rfl
      · exact hissue.of_plain rfl rfl rfl CredPhase.plain_closed (fun _ _ h => by cases h)
      · refine hissue.of_move rfl rfl rfl (fun b hb => by cases hb) ?_ (fun _ _ h => by cases h) rfl
        intro c hc
        cases hc
        exact List.mem_cons_self
  | stored hphase => exact h.store hphase (hundisturbed.2 _ rfl)
  | recorded hphase =>
      exact h.of_move rfl rfl rfl (fun b hb => by cases hb) (fun c hc => by cases hc)
        (fun _ _ h => by cases h) rfl
  | presented hheld hcontact => exact ⟨h.client, h.asks, h.granted, h.fresh, h.between, h.one⟩
  | saved huses hbetween hsnapshot hrelay hplain hfresh =>
      exact h.of_plain rfl rfl rfl hplain (fun task state hd => absurd hd (hfresh task state))
  | exited => exact h.of_plain rfl rfl rfl CredPhase.plain_closed (fun _ _ h => by cases h)

theorem Sound.of_move (h : s.Sound) (hprocesses : t.processes = (s.setProcess p phase).processes)
    (hissued : ∀ c ∈ s.issued, c ∈ t.issued) (hpresented : t.presented = s.presented)
    (hheld : ∀ c, phase.held = some c → c ∈ t.issued) (hmatched : t.Quiet → t.Matched) :
    t.Sound where
  presented := by
    intro c hc
    rw [hpresented] at hc
    exact hissued c (h.presented c hc)
  held := by
    intro q c hq
    rcases process_cases hprocesses q with ⟨-, hphase⟩ | hsame
    · exact hheld c (hphase ▸ hq)
    · exact hissued c (h.held q c (hsame ▸ hq))
  matched := hmatched

/-- A process that has nothing to present moves, and the files stay as they are. -/
theorem Sound.of_plain (h : s.Sound) (hprocesses : t.processes = (s.setProcess p phase).processes)
    (hissued : ∀ c ∈ s.issued, c ∈ t.issued) (hpresented : t.presented = s.presented)
    (hheld : phase.held = none) (hbetween : (s.processes p).between = none)
    (hrecorded : t.recorded = s.recorded) (htoken : t.token = s.token) : t.Sound := by
  refine h.of_move hprocesses hissued hpresented ?_ ?_
  · intro c hc
    rw [hheld] at hc
    cases hc
  · intro hquiet
    exact (h.matched (quiet_of_setProcess hbetween hprocesses hquiet)).of_issued hrecorded htoken
      hissued

/-- What a process reads goes with the enrolment on file. -/
theorem Sound.read (h : s.Sound) {state : StateFile} (hquiet : s.Quiet) (hcurrent : s.Current p)
    (hsnapshot : (s.processes p).snapshot = some state) {c : Credential}
    (hrelay : state.relay = some c.relay) (htoken : s.token = some c.token) : c ∈ s.issued :=
  h.matched hquiet c.relay c.token ((hcurrent state hsnapshot).symm.trans hrelay) htoken

/-- A step keeps the credentials sound, unless a process ends. -/
theorem sound_step (hledger : s.Ledger) (hundisturbed : s.Undisturbed a) (h : s.Sound)
    (hstep : Step s a t) (hexit : ∀ q, a ≠ .exit q) : t.Sound := by
  cases hstep with
  | moved hexit hbetween hplain hfresh =>
      exact h.of_plain rfl (fun c hc => hc) rfl hplain.held hbetween rfl rfl
  | @created p task state hphase =>
      refine h.of_move rfl (fun c hc => hc) rfl (fun c hc => by cases hc) ?_
      intro hquiet relay token hrelay
      have hfresh := hledger.fresh p task state hphase
      simp [recorded, hfresh] at hrelay
  | asking hexit hbetween hclient =>
      exact h.of_plain rfl (fun c hc => hc) rfl rfl hbetween rfl rfl
  | @read _ p state phase huses hbetween hsnapshot hphase =>
      obtain ⟨hquiet, hcurrent⟩ := hundisturbed.1 p huses
      refine h.of_move rfl (fun c hc => hc) rfl ?_ ?_
      · intro c hc
        rcases hphase with ⟨token, htoken, rfl⟩ | ⟨d, hserving, hrelay, htoken⟩
        · obtain ⟨relay, hrelay, rfl⟩ := Option.map_eq_some_iff.mp hc
          exact h.read hquiet hcurrent hsnapshot hrelay htoken
        · have hcd : c = d := by
            rcases hserving with rfl | rfl
            · exact (Option.some.inj hc).symm
            · exact (Option.some.inj hc).symm
          rw [hcd]
          exact h.read hquiet hcurrent hsnapshot hrelay htoken
      · intro _
        exact (h.matched hquiet).of_issued rfl rfl fun c hc => hc
  | issued hphase hnext =>
      refine h.of_plain rfl (fun c hc => List.mem_cons_of_mem _ hc) rfl ?_ (by rw [hphase]; rfl)
        rfl rfl
      rcases hnext with rfl | rfl
      · rfl
      · rfl
  | @stored p state c hphase =>
      refine h.of_move rfl (fun c hc => hc) rfl (fun c hc => by cases hc) ?_
      -- the process is between its two writes now
      intro hquiet
      have hnone := hquiet p
      simp [setProcess, CredPhase.between] at hnone
  | @recorded p state c hphase =>
      have hissued : c ∈ s.issued := hledger.granted p c (by rw [hphase]; rfl)
      have htoken : s.token = some c.token := hledger.between p c (by rw [hphase]; rfl)
      refine h.of_move rfl (fun c hc => hc) rfl ?_ ?_
      · intro d hd
        cases hd
        exact hissued
      · intro _ relay token hrelay hsealed
        cases hrelay
        cases htoken.symm.trans hsealed
        exact hissued
  | presented hheld hcontact =>
      have hissued := h.held _ _ hheld
      have hurl := CredPhase.contact_eq hcontact (hledger.client _ hissued)
      refine ⟨?_, h.held, fun hquiet => (h.matched hquiet).of_issued rfl rfl fun c hc => hc⟩
      intro d hd
      rcases List.mem_cons.mp hd with rfl | hd
      · rw [hurl]
        exact hissued
      · exact h.presented d hd
  | @saved _ p state file phase huses hbetween hsnapshot hrelay hplain hfresh =>
      refine h.of_plain rfl (fun c hc => hc) rfl hplain.held hbetween ?_ rfl
      exact hrelay.trans ((hundisturbed.1 p huses).2 state hsnapshot)
  | exited => exact absurd rfl (hexit _)

/-- A process ends: the credentials stay sound exactly if it was not between its two writes, or the
enrolment on file goes with its token. -/
theorem sound_exit_iff (hledger : s.Ledger) (h : s.Sound) :
    (s.setProcess p .closed).Sound ↔ s.Completed (.exit p) := by
  constructor
  · intro hsound c relay hbetween hrelay
    refine hsound.matched ?_ relay c.token hrelay (hledger.between p c hbetween)
    intro q
    rcases process_cases (t := s.setProcess p .closed) rfl q with ⟨-, hphase⟩ | hsame
    · rw [hphase]
      rfl
    · rw [hsame]
      by_contra hne
      obtain ⟨d, hd⟩ := Option.ne_none_iff_exists'.mp hne
      have hq : q = p := hledger.one q p d c hd hbetween
      rw [hq] at hsame
      rw [← hsame] at hbetween
      simp [setProcess, CredPhase.between] at hbetween
  · intro hcompleted
    refine h.of_move rfl (fun c hc => hc) rfl (fun c hc => by cases hc) ?_
    intro hquiet relay token hrelay htoken
    cases hbetween : (s.processes p).between with
    | none =>
        have hprocesses : (s.setProcess p .closed).processes = (s.setProcess p .closed).processes :=
          rfl
        exact h.matched (quiet_of_setProcess hbetween hprocesses hquiet) relay token hrelay htoken
    | some c =>
        cases (hledger.between p c hbetween).symm.trans htoken
        exact hcompleted c relay hbetween hrelay

/-- **When a step keeps the credentials sound**: always, but for a process that ends between its two
writes. -/
theorem sound_step_iff (hledger : s.Ledger) (hundisturbed : s.Undisturbed a) (h : s.Sound)
    (hstep : step crypto s a = some t) : t.Sound ↔ s.Completed a := by
  by_cases hexit : ∀ q, a ≠ .exit q
  · exact iff_of_true (sound_step hledger hundisturbed h (step_cases hstep) hexit)
      (completed_of_not_exit hexit)
  · obtain ⟨p, rfl⟩ := not_forall_not.mp hexit
    cases hstep
    exact sound_exit_iff hledger h

end

/-! ### Runs -/

/-- What commands find that were started on this machine before, while none is running. -/
def init (file : Option StateFile) (token : Option DeviceToken) (issued : List Credential) :
    Credentials := ⟨file, token, fun _ => .closed, issued, []⟩

variable {file : Option StateFile} {token : Option DeviceToken} {issued : List Credential}

theorem ledger_init
    (hclient : ∀ c ∈ issued, RelayClient.new c.relay.baseUrl = some c.relay.baseUrl) :
    (init file token issued).Ledger where
  client := hclient
  asks := fun _ _ h => nomatch h
  granted := fun _ _ h => nomatch h
  fresh := fun _ _ _ h => nomatch h
  between := fun _ _ h => nomatch h
  one := fun _ _ _ _ h => nomatch h

theorem sound_init (hmatched : (init file token issued).Matched) :
    (init file token issued).Sound where
  presented := fun _ h => nomatch h
  held := fun _ _ h => nomatch h
  matched := fun _ => hmatched

variable {crypto : Crypto}

/-- **Credentials stay with their relay.**  While commands stay out of each other's way, the
credentials are sound at every moment exactly if no `pair` ends between sealing the token of one
relay and recording its enrolment, with the enrolment of another still on file. -/
theorem sound_iff_completed {as : List CredAction} {u : Credentials}
    (hclient : ∀ c ∈ issued, RelayClient.new c.relay.baseUrl = some c.relay.baseUrl)
    (hmatched : (init file token issued).Matched)
    (hundisturbed : Transition.Meets (step crypto) Undisturbed (init file token issued) as)
    (hrun : Transition.run (step crypto) (init file token issued) as = some u) :
    (∀ done, done <+: as → ∀ t,
      Transition.run (step crypto) (init file token issued) done = some t → t.Sound) ↔
        Transition.Meets (step crypto) Completed (init file token issued) as :=
  Transition.forall_states_iff_meets_under
    (fun _ _ _ hledger hcondition hstep => ledger_step hledger hcondition hstep)
    (fun _ _ _ hledger hcondition hsound hstep =>
      sound_step_iff hledger hcondition hsound hstep)
    (ledger_init hclient) (sound_init hmatched) hundisturbed hrun

/-- The enrolment of a toy account. -/
def toyEnrolment (url : String) (b : UInt8) : RelayEnrolment := ⟨url, toyUuid b, toyUuid b⟩

/-- An agent that is enrolled with a relay. -/
def toyEnrolled : Credentials :=
  init (some ((StateFile.fresh (toyUuid 0) "host").withRelay (toyEnrolment "https://a" 1)))
    (some "x") [⟨toyEnrolment "https://a" 1, "x"⟩]

/-- It is told to use another relay, and the process dies between the two writes. -/
def cutSwitch : List CredAction :=
  [.openHost 0 (.pair ⟨some "https://b/", some "s", false⟩) (toyUuid 0) "host",
    .ensureEnrolled 0 none false, .enrol 0 (some ⟨toyUuid 2, toyUuid 2, "y"⟩) true,
    .storeToken 0, .exit 0]

theorem undisturbed_cutSwitch :
    Transition.Meets (step toyCrypto) Undisturbed toyEnrolled cutSwitch := by
  refine Transition.meets_cons ⟨(fun _ h => nomatch h), fun _ h => nomatch h⟩ rfl ?_
  refine Transition.meets_cons ⟨?_, fun _ h => nomatch h⟩ rfl ?_
  · intro p hp
    cases hp
    refine ⟨fun q => ?_, fun state hstate => ?_⟩
    · cases q with
      | zero => rfl
      | succ q => rfl
    · cases hstate
      rfl
  refine Transition.meets_cons ⟨(fun _ h => nomatch h), fun _ h => nomatch h⟩ rfl ?_
  refine Transition.meets_cons ⟨(fun _ h => nomatch h), fun p hp q => ?_⟩ rfl ?_
  · cases q with
    | zero => rfl
    | succ q => rfl
  exact Transition.meets_cons ⟨(fun _ h => nomatch h), fun _ h => nomatch h⟩ rfl trivial

theorem not_sound_cutSwitch :
    ¬∀ done, done <+: cutSwitch → ∀ t,
      Transition.run (step toyCrypto) toyEnrolled done = some t → t.Sound := by
  have hiff : (∀ done, done <+: cutSwitch → ∀ t,
      Transition.run (step toyCrypto) toyEnrolled done = some t → t.Sound) ↔
        Transition.Meets (step toyCrypto) Completed toyEnrolled cutSwitch :=
    sound_iff_completed (by decide)
      (fun _ _ hrelay htoken => by cases hrelay; cases htoken; exact List.mem_cons_self)
      undisturbed_cutSwitch rfl
  rw [hiff]
  intro hmeets
  have hlast := (((((hmeets.2 _ rfl).2 _ rfl).2 _ rfl).2 _ rfl).1) _ _ rfl rfl
  revert hlast
  decide

-- the next `run` presents the token of the second relay to the first
example : ((Transition.run (step toyCrypto) toyEnrolled
    (cutSwitch ++ [.openHost 1 .run (toyUuid 0) "host", .relayTarget 1 false, .present 1])).map
      (·.presented)) = some [⟨toyEnrolment "https://a" 1, "y"⟩] := by
  decide

end Credentials

end Osprey
