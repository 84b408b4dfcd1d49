/-
**One paired machine on the phone, and the calls that run on it.**

`App/DeviceModel.swift`: the model is confined to the main actor, and a call on it runs to its next
suspension without another in between.  It suspends where it waits for the network: in the dial, in
a ping, in the subscription to the metrics, in a revocation, and in the closing of a session, if
there is one to close.  So what a call does from one suspension to the next is one move, and a run
is any order of moves of any number of calls.

A session has the number of the call that dialled it.  `origin`, in the value that the connection
shows, is the number of the session whose hello produced it; `opened` says which sessions are open;
and `disconnected` is true from the return of a `disconnect` until the operator's next `connect` or
the next `refreshAfterForeground`.  No branch of the code reads any of these.  The set of pins is
shared with the other models, and `history` says which pairings have been completed and removed.

What the network and the keychain answer comes with the move.  A tick may arrive at any time, since
`append` decides by the subscription.

Main definitions:

* `Osprey.ConnectionState`, `Osprey.PhoneDevice` — the stored properties;
* `Osprey.DeviceCall`, `Osprey.DeviceTasks` — where a call is suspended, and a model with its calls;
* `Osprey.Pins`, `Osprey.Pins.latest` — the store, and the latest pairing with a machine;
* `Osprey.DeviceTasks.connect`, `.sendPing`, `.refreshAfterForeground`, `.disconnect`, `.unpair` and
  what follows each suspension — the source's functions, cut where they suspend;
* `Osprey.DeviceMove`, `Osprey.DeviceTasks.turn` — the moves.
-/

import Osprey.MetricsChart
import Osprey.PinStore
import Osprey.Transition

set_option relaxedAutoImplicit false
set_option autoImplicit false

namespace Osprey

variable {F : Type}

/-! ### The store, and what has happened to it -/

/-- A pairing that has been completed, or the removal of a machine's record. -/
inductive PinEvent
  | paired (host : PairedHost)
  | removed (agentDeviceId : String)
  deriving DecidableEq, Repr

/-- The store, and what has happened to its records, latest first. -/
structure Pins where
  keychain : Keychain
  history : List PinEvent
  deriving DecidableEq, Repr

/-- The identity of the latest pairing with a machine, if it has not been removed since. -/
def latestPairing (agentDeviceId : String) : List PinEvent → Option PublicIdentity
  | [] => none
  | .paired host :: earlier =>
      if host.agentDeviceId = agentDeviceId then some host.pinnedIdentity
      else latestPairing agentDeviceId earlier
  | .removed removed :: earlier =>
      if removed = agentDeviceId then none else latestPairing agentDeviceId earlier

namespace Pins

def latest (pins : Pins) (agentDeviceId : String) : Option PublicIdentity :=
  latestPairing agentDeviceId pins.history

/-- `pinStore.save`, of a host that is not newly paired. -/
def save (pins : Pins) (answers : StoreAnswers) (host : PairedHost) : Pins :=
  { pins with keychain := (pins.keychain.save answers host).2 }

/-- `pinStore.remove`. -/
def remove (pins : Pins) (answers : StoreAnswers) (agentDeviceId : String) :
    Except PinStoreError Unit × Pins :=
  match pins.keychain.remove answers agentDeviceId with
  | (.error e, keychain) => (.error e, { pins with keychain })
  | (.ok (), keychain) => (.ok (), ⟨keychain, .removed agentDeviceId :: pins.history⟩)

end Pins

/-! ### The model -/

/-- What the host reported about a live session. -/
structure ConnectedSession where
  sessionId : Uuid
  hostDeviceId : Uuid
  hostSoftwareVersion : String
  lastRoundTripMilliseconds : Option Int64
  pingsSent : UInt64
  origin : ℕ
  deriving DecidableEq, Repr

inductive ConnectionState
  | idle
  | connecting
  | connected (session : ConnectedSession)
  | failed (message : String)
  deriving DecidableEq, Repr

/-- A live session and the host's answer to `hello`. -/
structure OpenSession where
  number : ℕ
  helloOk : HelloOkBody
  deriving DecidableEq, Repr

/-- The stored properties of a model; `tickTask` is the session that it listens to. -/
structure PhoneDevice (F : Type) extends DeviceModel F where
  hostSnapshot : PairedHost
  host : PairedHost
  connection : ConnectionState
  hostServesMetrics : Bool
  banner : Option String
  session : Option OpenSession
  tickTask : Option ℕ
  pingSequence : UInt64
  shouldStayConnected : Bool
  deriving DecidableEq, Repr

namespace PhoneDevice

/-- A model of a host, as the list makes it. -/
def new (host : PairedHost) : PhoneDevice F :=
  ⟨⟨none, [], [], none⟩, host, host, .idle, false, none, none, none, 0, false⟩

def id (device : PhoneDevice F) : String := device.hostSnapshot.agentDeviceId

def isConnected (device : PhoneDevice F) : Bool :=
  match device.connection with
  | .connected _ => true
  | _ => false

/-- The guard of `adoptDisplayName`: a name that the model does not have yet. -/
def adopts (device : PhoneDevice F) (name : Option String) : Option String :=
  match name with
  | none => none
  | some name =>
      if name = "" ∨ some name = device.host.displayName then none else some name

/-- Record the machine's own name the first time it introduces itself. -/
def adoptDisplayName (device : PhoneDevice F) (pins : Pins) (answers : StoreAnswers)
    (name : Option String) : Pins × PhoneDevice F :=
  match device.adopts name with
  | none => (pins, device)
  | some name =>
      let host := { device.host with displayName := some name }
      -- A failure to store the name is logged.
      (pins.save answers host, { device with host })

/-- `tearDown`, before it closes the session. -/
def beginTearDown (device : PhoneDevice F) : PhoneDevice F :=
  { device with tickTask := none, subscriptionId := none }

/-- `tearDown`, after. -/
def endTearDown (device : PhoneDevice F) : PhoneDevice F :=
  { device with session := none, pingSequence := 0 }

/-- A dial has come back with a session. -/
def accept (device : PhoneDevice F) (opened : OpenSession) : PhoneDevice F :=
  { device with
    session := some opened
    pingSequence := 0
    connection := .connected
      { sessionId := opened.helloOk.sessionId
        hostDeviceId := opened.helloOk.deviceId
        hostSoftwareVersion := opened.helloOk.softwareVersion
        lastRoundTripMilliseconds := none
        pingsSent := 0
        origin := opened.number }
    hostServesMetrics := opened.helloOk.capabilities.contains .metrics }

end PhoneDevice

/-! ### Its calls -/

/-- What a call goes on with when the session that it tears down has closed. -/
inductive TearDown
  | disconnect
  /-- In `sendPing`, of a refresh or by itself. -/
  | failedPing (refresh : Bool) (message : String)
  | refresh
  /-- In the `disconnect` of an `unpair`. -/
  | unpair (hostOutcome : String)
  deriving DecidableEq, Repr

/-- Where a call is suspended. -/
inductive DeviceCall
  /-- It has just come. -/
  | arriving
  /-- A `connect` in its dial. -/
  | dialling
  | subscribing (opened : OpenSession)
  | pinging (refresh : Bool) (session : OpenSession) (connected : ConnectedSession)
  | closing (session : OpenSession) (tearDown : TearDown)
  /-- An `unpair` in a dial of its own. -/
  | unpairDialling
  | revoking (live : OpenSession)
  | closingLive (live : OpenSession) (hostOutcome : String)
  | returned
  deriving DecidableEq, Repr

/-- A model and all calls on it, the sessions that are open, and whether the operator's last word
was `disconnect`. -/
structure DeviceTasks (F : Type) where
  device : PhoneDevice F
  calls : List DeviceCall
  opened : List ℕ
  disconnected : Bool
  deriving DecidableEq, Repr

/-- What a move ends with: the store, the model, and what an `unpair` returned in it. -/
structure DeviceTurn (F : Type) where
  pins : Pins
  tasks : DeviceTasks F
  text : Option String
  deriving DecidableEq, Repr

namespace DeviceTasks

def new (host : PairedHost) : DeviceTasks F := ⟨.new host, [], [], false⟩

/-- The call is suspended elsewhere, or returns. -/
def enter (s : DeviceTasks F) (i : ℕ) (call : DeviceCall) : DeviceTasks F :=
  { s with calls := s.calls.set i call }

/-- A call comes. -/
def arrive (s : DeviceTasks F) : DeviceTasks F := { s with calls := s.calls ++ [.arriving] }

/-- `session.close` has come back. -/
def close (s : DeviceTasks F) (number : ℕ) : DeviceTasks F :=
  { s with opened := s.opened.filter (· ≠ number) }

/-- `connect`, up to its dial. -/
def connect (s : DeviceTasks F) (i : ℕ) : DeviceTasks F :=
  let device := { s.device with shouldStayConnected := true }
  match device.connection with
  | .connected _ => enter { s with device } i .returned
  | .connecting => enter { s with device } i .returned
  | _ => enter { s with device := { device with connection := .connecting } } i .dialling

/-- The end of `refreshAfterForeground`: `tearDown` is done. -/
def redial (s : DeviceTasks F) (i : ℕ) : DeviceTasks F :=
  connect { s with device := { s.device.endTearDown with connection := .connecting } } i

/-- What follows `tearDown` in the call. -/
def afterTearDown (pins : Pins) (s : DeviceTasks F) (i : ℕ) (answers : StoreAnswers) :
    TearDown → DeviceTurn F
  | .disconnect =>
      let device := { s.device.endTearDown with connection := .idle }
      ⟨pins, enter { s with device, disconnected := true } i .returned, none⟩
  | .failedPing refresh message =>
      let device := { s.device.endTearDown with connection := .failed message }
      -- A refresh tears down again, where there is nothing left to close.
      if refresh then ⟨pins, redial { s with device := device.beginTearDown } i, none⟩
      else ⟨pins, enter { s with device } i .returned, none⟩
  | .refresh => ⟨pins, s.redial i, none⟩
  | .unpair hostOutcome =>
      let device := { s.device.endTearDown with connection := .idle }
      let s := enter { s with device, disconnected := true } i .returned
      match pins.remove answers device.host.agentDeviceId with
      | (.ok (), pins) => ⟨pins, s, some ("Unpaired. " ++ hostOutcome)⟩
      | (.error e, pins) =>
          ⟨pins, s, some ("The stored pairing could not be removed: " ++ e.localizedMessage)⟩

/-- `tearDown` and what follows it, up to the closing of the session. -/
def tearDown (pins : Pins) (s : DeviceTasks F) (i : ℕ) (answers : StoreAnswers)
    (reason : TearDown) : DeviceTurn F :=
  let s := { s with device := s.device.beginTearDown }
  match s.device.session with
  | some session => ⟨pins, s.enter i (.closing session reason), none⟩
  | none => afterTearDown pins s i answers reason

/-- `disconnect`, by itself or in an `unpair`, up to the closing of the session. -/
def disconnect (pins : Pins) (s : DeviceTasks F) (i : ℕ) (answers : StoreAnswers)
    (reason : TearDown) : DeviceTurn F :=
  let device := { s.device with shouldStayConnected := false }
  tearDown pins { s with device } i answers reason

/-- An authenticated encrypted round trip, up to the ping; `none` where the sequence overflows. -/
def sendPing (s : DeviceTasks F) (i : ℕ) (refresh : Bool) : Option (DeviceTasks F) :=
  match s.device.session, s.device.connection with
  | some session, .connected connected =>
      if s.device.pingSequence.toNat + 1 < UInt64.size then
        let device := { s.device with pingSequence := s.device.pingSequence + 1 }
        some (enter { s with device } i (.pinging refresh session connected))
      else none
  | _, _ => some (s.enter i .returned)

/-- `refreshAfterForeground`, up to the ping or to the closing of the session. -/
def refreshAfterForeground (pins : Pins) (s : DeviceTasks F) (i : ℕ) (answers : StoreAnswers) :
    Option (DeviceTurn F) :=
  if s.device.shouldStayConnected then
    if s.device.isConnected then (s.sendPing i true).map fun s => ⟨pins, s, none⟩
    else some (tearDown pins s i answers .refresh)
  else some ⟨pins, s.enter i .returned, none⟩

/-- `unpair`, up to its dial or its revocation. -/
def unpair (s : DeviceTasks F) (i : ℕ) : DeviceTasks F :=
  match s.device.session with
  | some live => s.enter i (.revoking live)
  | none => s.enter i .unpairDialling

/-- What `tellHostToUnpair` says of a failure. -/
def notTold (message : String) : String :=
  "The host was not told (" ++ message ++ "). Remove the pairing there with `osprey-svc unpair`."

/-- The dial of a call comes back. -/
def dialled (pins : Pins) (s : DeviceTasks F) (i : ℕ) (outcome : Except String HelloOkBody)
    (answers : StoreAnswers) : Option (DeviceTurn F) :=
  match s.calls[i]?, outcome with
  | some .dialling, .ok helloOk =>
      let opened := ⟨i, helloOk⟩
      let (pins, device) :=
        (s.device.accept opened).adoptDisplayName pins answers helloOk.displayName
      let s := { s with device, opened := s.opened ++ [i] }
      some ⟨pins, s.enter i (if device.hostServesMetrics then .subscribing opened else .returned),
        none⟩
  | some .dialling, .error message =>
      let device := { s.device with connection := .failed message }
      some ⟨pins, enter { s with device } i .returned, none⟩
  | some .unpairDialling, .ok helloOk =>
      some ⟨pins, enter { s with opened := s.opened ++ [i] } i (.revoking ⟨i, helloOk⟩), none⟩
  | some .unpairDialling, .error message =>
      some (disconnect pins s i answers (.unpair (notTold message)))
  | _, _ => none

/-- The subscription of a `connect` comes back; `none` where the times of the history overflow. -/
def subscribed (s : DeviceTasks F) (i : ℕ) (outcome : Except String (Uuid × MetricsHistoryBody F)) :
    Option (DeviceTasks F) :=
  match s.calls[i]?, outcome with
  | some (.subscribing opened), .ok (id, history) =>
      (s.device.toDeviceModel.startMetrics id history).map fun chart =>
        let device := { s.device with toDeviceModel := chart, tickTask := some opened.number }
        enter { s with device } i .returned
  | some (.subscribing _), .error message =>
      let device := { s.device with banner := some ("Metrics are unavailable: " ++ message) }
      some (enter { s with device } i .returned)
  | _, _ => none

/-- A ping comes back, with its round trip. -/
def ponged (pins : Pins) (s : DeviceTasks F) (i : ℕ) (outcome : Except String Int64)
    (answers : StoreAnswers) : Option (DeviceTurn F) :=
  match s.calls[i]?, outcome with
  | some (.pinging _ _ connected), .ok roundTripMilliseconds =>
      let connected :=
        { connected with
          lastRoundTripMilliseconds := some roundTripMilliseconds
          pingsSent := s.device.pingSequence }
      -- In a refresh, `isConnected` now ends the call.
      let device := { s.device with connection := .connected connected }
      some ⟨pins, enter { s with device } i .returned, none⟩
  | some (.pinging refresh _ _), .error message =>
      some (tearDown pins s i answers (.failedPing refresh message))
  | _, _ => none

/-- A revocation comes back, with the reason that the host gave for its goodbye. -/
def revoked (pins : Pins) (s : DeviceTasks F) (i : ℕ) (outcome : Except String String)
    (answers : StoreAnswers) : Option (DeviceTurn F) :=
  match s.calls[i]?, outcome with
  | some (.revoking live), .ok reason =>
      some ⟨pins, s.enter i (.closingLive live ("The host confirmed it (" ++ reason ++ ").")), none⟩
  | some (.revoking _), .error message =>
      some (disconnect pins s i answers (.unpair (notTold message)))
  | _, _ => none

/-- The closing of a session comes back. -/
def closed (pins : Pins) (s : DeviceTasks F) (i : ℕ) (answers : StoreAnswers) :
    Option (DeviceTurn F) :=
  match s.calls[i]? with
  | some (.closing session reason) =>
      some (afterTearDown pins (s.close session.number) i answers reason)
  | some (.closingLive live hostOutcome) =>
      some (disconnect pins (s.close live.number) i answers (.unpair hostOutcome))
  | _ => none

end DeviceTasks

/-- What can happen next: the operator or the app calls, a call gets what it waits for, or a tick
arrives. -/
inductive DeviceMove (F : Type)
  | connect
  | disconnect
  | refreshAfterForeground
  | sendPing
  | unpair
  | dialled (i : ℕ) (outcome : Except String HelloOkBody) (answers : StoreAnswers)
  | subscribed (i : ℕ) (outcome : Except String (Uuid × MetricsHistoryBody F))
  | ponged (i : ℕ) (outcome : Except String Int64) (answers : StoreAnswers)
  | revoked (i : ℕ) (outcome : Except String String) (answers : StoreAnswers)
  | closed (i : ℕ) (answers : StoreAnswers)
  | tick (tick : MetricsTickBody F)

namespace DeviceTasks

/-- One move of a model; a call that comes gets the next number. -/
def turn (pins : Pins) (s : DeviceTasks F) : DeviceMove F → Option (DeviceTurn F)
  | .connect =>
      some ⟨pins, connect { s.arrive with disconnected := false } s.calls.length, none⟩
  | .disconnect => some (disconnect pins s.arrive s.calls.length .allDone .disconnect)
  | .refreshAfterForeground =>
      refreshAfterForeground pins { s.arrive with disconnected := false } s.calls.length .allDone
  | .sendPing => (s.arrive.sendPing s.calls.length false).map fun s => ⟨pins, s, none⟩
  | .unpair => some ⟨pins, s.arrive.unpair s.calls.length, none⟩
  | .dialled i outcome answers => dialled pins s i outcome answers
  | .subscribed i outcome => (s.subscribed i outcome).map fun s => ⟨pins, s, none⟩
  | .ponged i outcome answers => ponged pins s i outcome answers
  | .revoked i outcome answers => revoked pins s i outcome answers
  | .closed i answers => closed pins s i answers
  | .tick tick =>
      let device := { s.device with toDeviceModel := s.device.toDeviceModel.append tick }
      some ⟨pins, { s with device }, none⟩

end DeviceTasks

end Osprey
