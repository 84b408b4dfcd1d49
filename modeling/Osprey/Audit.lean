/-
**The append-only audit log.**

`osprey-core/src/audit.rs` and the part of `pairing/mod.rs` it records.  A record either lands or
answers with an error; which of the two the environment decides.  The log keeps what was handed to
it, whether or not it landed, so that "exactly one record is attempted" can be said.

* `Osprey.AuditEvent`, `Osprey.PairingFailureReason`, `Osprey.PairingContext`;
* `Osprey.AuditLog`, `Osprey.AuditLog.record`.
-/

import Osprey.Identity

set_option relaxedAutoImplicit false
set_option autoImplicit false

namespace Osprey

open ByteIO (ErrorKind)

/-- Why a pairing attempt was refused. -/
inductive PairingFailureReason
  | expired
  | replayed
  | handshakeRejected
  | pskMismatch
  | badSignature
  | staticMismatch
  | peerIdentityMismatch
  | malformedPayload
  | transport
  deriving DecidableEq, Repr

/-- Identifiers recorded alongside every pairing audit entry. -/
structure PairingContext where
  accountId : String
  deviceId : String
  deriving DecidableEq, Repr

/-- Which side asked for an unpair. -/
inductive UnpairInitiator
  | host
  | peer
  deriving DecidableEq, Repr

/-- `osprey_core::audit::AuditEvent`.  The detail of a failure is the flattened chain of the error,
which is a function of the error; the model keeps the error. -/
inductive AuditEvent
  | pairingSucceeded (accountId deviceId : String) (peerFingerprint : Fingerprint)
      (peerNoiseStatic : Key32)
  | pairingFailed (accountId deviceId : String) (reason : PairingFailureReason) (detail : Error)
  | unpaired (accountId deviceId : String) (peerFingerprint : Fingerprint)
      (initiatedBy : UnpairInitiator)
  deriving DecidableEq, Repr

/-- The log: the events handed to it so far, and what the file system answers to the next ones,
`none` for success.  Past the end of the script every record lands. -/
structure AuditLog where
  attempts : List AuditEvent
  script : List (Option ErrorKind)
  deriving DecidableEq, Repr

/-- Append one event. -/
def AuditLog.record (log : AuditLog) (event : AuditEvent) : Except Error Unit × AuditLog :=
  match log.script with
  | [] => (.ok (), ⟨log.attempts ++ [event], []⟩)
  | none :: script => (.ok (), ⟨log.attempts ++ [event], script⟩)
  | some kind :: script => (.error (.audit kind), ⟨log.attempts ++ [event], script⟩)

/-- However it ends, a record is one attempt. -/
@[simp] theorem AuditLog.record_attempts (log : AuditLog) (event : AuditEvent) :
    (log.record event).2.attempts = log.attempts ++ [event] := by
  unfold AuditLog.record
  split <;> rfl

/-- Record an unpair. -/
def recordUnpair (crypto : Crypto) (audit : AuditLog) (context : PairingContext) (peer : PinnedPeer)
    (initiatedBy : UnpairInitiator) : Except Error Unit × AuditLog :=
  audit.record (.unpaired context.accountId context.deviceId (peer.fingerprint crypto) initiatedBy)

end Osprey
