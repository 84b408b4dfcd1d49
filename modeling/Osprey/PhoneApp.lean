/-
**The phone's list of machines.**

`App/AppModel.swift` over the models of `DeviceCalls`: the app loads its identity and the list once,
and from then on the operator pairs with machines and forgets them, and calls run on the models that
there are and on those that have been.  The list is made anew from the store whenever a machine has
been paired or forgotten, each entry with a new model.  A model that is no longer in the list still
gets what its calls wait for.

A model has a number, and `devices` lists the numbers of those that are shown.  `forget` is an
`unpair` of a model, after which the list is made; the app calls `unpair` nowhere else.
`refreshAfterForeground` of the app is that of one model after another.

Main definitions:

* `Osprey.ScannedPayload`, `Osprey.ScannedPayload.pin` — a QR code, and the pin that pairing makes
  of it;
* `Osprey.AppModel`, `Osprey.AppModel.reloadDevices`, `.load`, `.pair`, `.paired`, `.device` — the
  source's functions, cut where they suspend;
* `Osprey.AppMove`, `Osprey.AppModel.step` — the moves;
* `Osprey.PinDeed`, `Osprey.DeviceTasks.pinDeed` — what a move of a model does to the store.

Main results:

* `Osprey.DeviceTasks.posts_turn` — **every move of a model does its deed to the store**, and
  returns a text if an `unpair` returns;
* `Osprey.AppModel.device_cases`, `Osprey.AppModel.paired_cases` — what the moves of the app do.
-/

import Osprey.DeviceLink

set_option relaxedAutoImplicit false
set_option autoImplicit false

namespace Osprey

variable {F : Type}

/-! ### The app -/

inductive IdentityState
  | loading
  | unsupported (message : String)
  | failed (message : String)
  | ready
  deriving DecidableEq, Repr

inductive PairingState
  | idle
  | scanning
  | pairing
  | failed (message : String)
  deriving DecidableEq, Repr

/-- What pairing takes from a scanned QR code into the pin. -/
structure ScannedPayload where
  relayUrl : String
  accountId : String
  agentDeviceId : String
  agentIdentity : PublicIdentity
  lanHints : List LanEndpoint
  deriving DecidableEq, Repr

/-- The pin of the host of a QR code. -/
def ScannedPayload.pin (payload : ScannedPayload) (nowMilliseconds : Int64) : PairedHost where
  agentDeviceId := payload.agentDeviceId
  accountId := payload.accountId
  relayUrl := payload.relayUrl
  lanHints := payload.lanHints
  pinnedIdentity := payload.agentIdentity
  pairedAtMilliseconds := nowMilliseconds
  displayName := none

/-- `pinStore.save`, of a host that has just been paired. -/
def Pins.complete (pins : Pins) (answers : StoreAnswers) (host : PairedHost) :
    Except PinStoreError Unit × Pins :=
  match pins.keychain.save answers host with
  | (.error e, keychain) => (.error e, { pins with keychain })
  | (.ok (), keychain) => (.ok (), ⟨keychain, .paired host :: pins.history⟩)

/-- The app, with all models there have been, and the pairings that are under way. -/
structure AppModel (F : Type) where
  identityState : IdentityState
  pairingState : PairingState
  banner : Option String
  devices : List ℕ
  models : List (DeviceTasks F)
  pairings : List (Option ScannedPayload)
  pins : Pins

namespace AppModel

/-- The app as it starts. -/
def launch (pins : Pins) : AppModel F := ⟨.loading, .idle, none, [], [], [], pins⟩

/-- The list is made from the store. -/
def reloadDevices (s : AppModel F) (answers : StoreAnswers) : AppModel F :=
  match s.identityState with
  | .ready =>
      match s.pins.keychain.loadAll answers with
      | (.ok hosts, keychain) =>
          { s with
            devices := List.range' s.models.length hosts.length
            models := s.models ++ hosts.map DeviceTasks.new
            pins := { s.pins with keychain } }
      | (.error e, keychain) =>
          { s with banner := some e.localizedMessage, pins := { s.pins with keychain } }
  | _ => s

/-- Load or create the identity and read back the stored pins; `outcome` is what comes of the
identity. -/
def load (s : AppModel F) (outcome : IdentityState) (answers : StoreAnswers) : AppModel F :=
  match s.identityState, outcome with
  | .ready, _ => s
  | _, .ready => reloadDevices { s with identityState := .ready } answers
  | _, outcome => { s with identityState := outcome }

/-- Handle one decoded QR string, up to the exchange with the host. -/
def pair (s : AppModel F) (scanned : Except String ScannedPayload) : AppModel F :=
  match s.identityState, scanned with
  | .ready, .ok payload =>
      { s with pairingState := .pairing, pairings := s.pairings ++ [some payload] }
  | .ready, .error message => { s with pairingState := .failed message }
  | _, _ => s

/-- The exchange with the host comes back, at some time. -/
def paired (s : AppModel F) (i : ℕ) (outcome : Except String Int64)
    (saving reloading : StoreAnswers) : Option (AppModel F) :=
  match s.pairings[i]?, outcome with
  | some (some payload), .ok now =>
      let s := { s with pairings := s.pairings.set i none }
      match s.pins.complete saving (payload.pin now) with
      | (.error e, pins) => some { s with pins, pairingState := .failed e.localizedMessage }
      | (.ok (), pins) =>
          some { reloadDevices { s with pins } reloading with
            pairingState := .idle
            banner := some "Paired. Compare the fingerprint with the one the host printed." }
  | some (some _), .error message =>
      some { s with pairings := s.pairings.set i none, pairingState := .failed message }
  | _, _ => none

/-- A model moves; the list is made when an `unpair` has returned. -/
def device (s : AppModel F) (k : ℕ) (move : DeviceMove F) (reloading : StoreAnswers) :
    Option (AppModel F) :=
  match s.models[k]? with
  | none => none
  | some model =>
      match model.turn s.pins move with
      | none => none
      | some ⟨pins, tasks, none⟩ => some { s with models := s.models.set k tasks, pins }
      | some ⟨pins, tasks, some text⟩ =>
          some (reloadDevices { s with models := s.models.set k tasks, pins, banner := some text }
            reloading)

end AppModel

/-- What can happen next: the operator or the system acts on the app, an exchange comes back, or a
model moves. -/
inductive AppMove (F : Type)
  | load (outcome : IdentityState) (answers : StoreAnswers)
  | beginScanning
  | cancelScanning
  | pair (scanned : Except String ScannedPayload)
  | paired (i : ℕ) (outcome : Except String Int64) (saving reloading : StoreAnswers)
  | device (k : ℕ) (move : DeviceMove F) (reloading : StoreAnswers)

namespace AppModel

def step (s : AppModel F) : AppMove F → Option (AppModel F)
  | .load outcome answers => some (s.load outcome answers)
  | .beginScanning => some { s with banner := none, pairingState := .scanning }
  | .cancelScanning => some { s with pairingState := .idle }
  | .pair scanned => some (s.pair scanned)
  | .paired i outcome saving reloading => s.paired i outcome saving reloading
  | .device k move reloading => s.device k move reloading

end AppModel

/-! ### What a move of a model does to the store -/

inductive PinDeed
  | nothing
  /-- A host that has introduced itself is stored with its name. -/
  | adopt (answers : StoreAnswers) (host : PairedHost)
  | remove (answers : StoreAnswers) (agentDeviceId : String)
  deriving DecidableEq, Repr

def Pins.apply (pins : Pins) : PinDeed → Pins
  | .nothing => pins
  | .adopt answers host => pins.save answers host
  | .remove answers agentDeviceId => (pins.remove answers agentDeviceId).2

/-- What the keychain answers in a move. -/
def DeviceMove.answers : DeviceMove F → StoreAnswers
  | .dialled _ _ answers => answers
  | .ponged _ _ answers => answers
  | .revoked _ _ answers => answers
  | .closed _ answers => answers
  | _ => .allDone

/-- What a deed does to the store: a dial that opens a session may have a name to store, and the end
of an `unpair` removes the record. -/
def Deed.pinDeed (device : PhoneDevice F) (answers : StoreAnswers) : Deed → PinDeed
  | .accept opened =>
      match device.adopts opened.helloOk.displayName with
      | some name => .adopt answers { device.host with displayName := some name }
      | none => .nothing
  | .tearDown (.unpair _) => .remove answers device.host.agentDeviceId
  | _ => .nothing

/-- An `unpair` returns. -/
def Deed.unpairs : Deed → Bool
  | .tearDown (.unpair _) => true
  | _ => false

namespace DeviceTasks

def pinDeed (s : DeviceTasks F) (move : DeviceMove F) : PinDeed :=
  (s.deed move).pinDeed s.device move.answers

/-- A turn does what its deed does to the store, and returns a text if an `unpair` returns. -/
structure Posts (pins : Pins) (device : PhoneDevice F) (answers : StoreAnswers) (deed : Deed)
    (t : DeviceTurn F) : Prop where
  pins : t.pins = pins.apply (deed.pinDeed device answers)
  text : t.text.isSome = deed.unpairs

variable {pins : Pins} {device : PhoneDevice F} {answers : StoreAnswers}

theorem posts_afterTearDown {s : DeviceTasks F} {i : ℕ} {reason : TearDown}
    (hhost : s.device.host = device.host) :
    Posts pins device answers (.tearDown reason) (afterTearDown pins s i answers reason) := by
  cases reason with
  | disconnect => exact ⟨rfl, rfl⟩
  | failedPing refresh message => cases refresh <;> exact ⟨rfl, rfl⟩
  | refresh => exact ⟨rfl, rfl⟩
  | unpair hostOutcome =>
      have hhost : s.device.endTearDown.host = device.host := hhost
      simp only [afterTearDown, hhost]
      generalize hremoved : pins.remove answers device.host.agentDeviceId = removed
      obtain ⟨result, after⟩ := removed
      cases result with
      | ok _ => exact ⟨(congrArg Prod.snd hremoved).symm, rfl⟩
      | error e => exact ⟨(congrArg Prod.snd hremoved).symm, rfl⟩

theorem posts_tearDown {s : DeviceTasks F} {l : Linkage} {i : ℕ} {reason : TearDown}
    (hhost : s.device.host = device.host) (hsession : s.device.session = l.session) :
    Posts pins device answers (l.tearDownDeed reason) (tearDown pins s i answers reason) := by
  have hsession : s.device.beginTearDown.session = l.session := hsession
  simp only [tearDown, Linkage.tearDownDeed, hsession]
  cases l.session with
  | some session => exact ⟨rfl, rfl⟩
  | none => exact posts_afterTearDown hhost

theorem posts_wait {call : DeviceCall} {s : DeviceTasks F} :
    Posts pins device answers (.wait call) ⟨pins, s, none⟩ :=
  ⟨rfl, rfl⟩

theorem posts_ping {l : Linkage} {refresh : Bool} {s : DeviceTasks F} :
    Posts pins device answers (l.pingDeed refresh) ⟨pins, s, none⟩ := by
  unfold Linkage.pingDeed
  split
  · exact posts_wait
  · exact posts_wait

theorem posts_dialled {s : DeviceTasks F} {i : ℕ} {outcome : Except String HelloOkBody}
    {t : DeviceTurn F} (h : dialled pins s i outcome answers = some t) :
    Posts pins s.device answers (s.deed (.dialled i outcome answers)) t := by
  rcases dialled_cases h with ⟨helloOk, saved, device, hcall, rfl, hadopted, rfl⟩ |
    ⟨message, hcall, rfl, rfl⟩ | ⟨helloOk, hcall, rfl, rfl⟩ | ⟨message, hcall, rfl, rfl⟩
  · refine ⟨?_, by simp only [deed, hcall]; rfl⟩
    have hsame : (s.device.accept ⟨i, helloOk⟩).adopts helloOk.displayName =
        s.device.adopts helloOk.displayName := rfl
    have hsaved : saved = ((s.device.accept ⟨i, helloOk⟩).adoptDisplayName pins answers
        helloOk.displayName).1 := by rw [hadopted]
    simp only [deed, hcall, Deed.pinDeed, hsaved, PhoneDevice.adoptDisplayName, hsame]
    cases s.device.adopts helloOk.displayName with
    | none => rfl
    | some name => rfl
  · simp only [deed, hcall]
    exact ⟨rfl, rfl⟩
  · simp only [deed, hcall]
    exact ⟨rfl, rfl⟩
  · simp only [deed, hcall]
    exact posts_tearDown rfl rfl

/-- **Every move of a model does its deed to the store.** -/
theorem posts_turn {s : DeviceTasks F} {move : DeviceMove F} {t : DeviceTurn F}
    (h : turn pins s move = some t) :
    Posts pins s.device move.answers (s.deed move) t := by
  cases move with
  | connect =>
      cases h
      refine ⟨?_, ?_⟩
      · simp only [deed]
        split <;> rfl
      · simp only [deed]
        split <;> rfl
  | disconnect =>
      cases h
      exact posts_tearDown rfl rfl
  | refreshAfterForeground =>
      simp only [turn, refreshAfterForeground] at h
      simp only [deed]
      have hstay : s.arrive.device = s.device := rfl
      rw [hstay] at h
      split_ifs at h with hstay hconnected
      · obtain ⟨u, hu, rfl⟩ := Option.map_eq_some_iff.mp h
        rw [if_pos hstay, if_pos hconnected]
        exact posts_ping
      · cases h
        rw [if_pos hstay, if_neg hconnected]
        exact posts_tearDown rfl rfl
      · cases h
        rw [if_neg hstay]
        exact posts_wait
  | sendPing =>
      obtain ⟨u, hu, rfl⟩ := Option.map_eq_some_iff.mp h
      exact posts_ping
  | unpair =>
      cases h
      simp only [deed]
      split
      · exact posts_wait
      · exact posts_wait
  | dialled i outcome answers => exact posts_dialled h
  | subscribed i outcome =>
      obtain ⟨u, hu, rfl⟩ := Option.map_eq_some_iff.mp h
      exact posts_wait
  | ponged i outcome answers =>
      rcases ponged_cases h with ⟨_, _, _, _, hcall, rfl, rfl⟩ | ⟨_, _, _, _, hcall, rfl, rfl⟩
      · simp only [deed, hcall]
        exact ⟨rfl, rfl⟩
      · simp only [deed, hcall]
        exact posts_tearDown rfl rfl
  | revoked i outcome answers =>
      rcases revoked_cases h with ⟨live, reason, hcall, rfl, rfl⟩ |
        ⟨live, message, hcall, rfl, rfl⟩
      · simp only [deed, hcall]
        exact posts_wait
      · simp only [deed, hcall]
        exact posts_tearDown rfl rfl
  | closed i answers =>
      rcases closed_cases h with ⟨session, reason, hcall, rfl⟩ | ⟨live, hostOutcome, hcall, rfl⟩
      · simp only [deed, hcall]
        exact posts_afterTearDown rfl
      · simp only [deed, hcall]
        exact posts_tearDown rfl rfl
  | tick tick =>
      cases h
      exact posts_wait

end DeviceTasks

/-! ### Moves of the app -/

namespace AppModel

/-- A move of a model is a turn of it, after which the list may be made. -/
theorem device_cases {s t : AppModel F} {k : ℕ} {move : DeviceMove F} {reloading : StoreAnswers}
    (h : s.device k move reloading = some t) :
    ∃ model turned, s.models[k]? = some model ∧ model.turn s.pins move = some turned ∧
      ((model.deed move).unpairs = false ∧
          t = { s with models := s.models.set k turned.tasks, pins := turned.pins } ∨
        (model.deed move).unpairs = true ∧ ∃ text,
          t = reloadDevices
            { s with
              models := s.models.set k turned.tasks
              pins := turned.pins
              banner := some text } reloading) := by
  unfold device at h
  split at h
  · cases h
  · rename_i model hmodel
    split at h
    · cases h
    · rename_i pins tasks hturn
      cases h
      exact ⟨model, _, hmodel, hturn, Or.inl ⟨(DeviceTasks.posts_turn hturn).text.symm, rfl⟩⟩
    · rename_i pins tasks text hturn
      cases h
      exact ⟨model, _, hmodel, hturn, Or.inr ⟨(DeviceTasks.posts_turn hturn).text.symm, text, rfl⟩⟩

/-- A pairing that has been completed is stored, and the list is made. -/
theorem paired_cases {s t : AppModel F} {i : ℕ} {outcome : Except String Int64}
    {saving reloading : StoreAnswers} (h : s.paired i outcome saving reloading = some t) :
    ∃ payload, s.pairings[i]? = some (some payload) ∧
      ((∃ message, outcome = .error message ∧
          t = { s with pairings := s.pairings.set i none, pairingState := .failed message }) ∨
        ∃ now, outcome = .ok now ∧
          ((∃ e, (s.pins.complete saving (payload.pin now)).1 = .error e ∧
              t =
                { s with
                  pairings := s.pairings.set i none
                  pins := (s.pins.complete saving (payload.pin now)).2
                  pairingState := .failed e.localizedMessage }) ∨
            (s.pins.complete saving (payload.pin now)).1 = .ok () ∧ ∃ text,
              t =
                { reloadDevices
                    { s with
                      pairings := s.pairings.set i none
                      pins := (s.pins.complete saving (payload.pin now)).2 } reloading with
                  pairingState := .idle
                  banner := some text })) := by
  unfold paired at h
  split at h
  · rename_i payload now hpairing
    refine ⟨payload, hpairing, Or.inr ⟨now, rfl, ?_⟩⟩
    dsimp only at h
    generalize s.pins.complete saving (payload.pin now) = completed at h ⊢
    obtain ⟨result, pins⟩ := completed
    cases result with
    | error e =>
        cases h
        exact Or.inl ⟨e, rfl, rfl⟩
    | ok _ =>
        cases h
        exact Or.inr ⟨rfl, _, rfl⟩
  · rename_i payload message hpairing
    cases h
    exact ⟨payload, hpairing, Or.inl ⟨message, rfl, rfl⟩⟩
  · cases h

/-- Making the list changes nothing about the pins. -/
theorem pins_reloadDevices (s : AppModel F) (answers : StoreAnswers) :
    (s.reloadDevices answers).pins.history = s.pins.history ∧
      (s.reloadDevices answers).pins.keychain.records = s.pins.keychain.records := by
  have hkept := s.pins.keychain.records_loadAll answers
  unfold reloadDevices
  split
  · split
    · rename_i hosts keychain hloaded
      rw [hloaded] at hkept
      exact ⟨rfl, hkept⟩
    · rename_i e keychain hloaded
      rw [hloaded] at hkept
      exact ⟨rfl, hkept⟩
  · exact ⟨rfl, rfl⟩

end AppModel

end Osprey
