/-
**The errors of the core crate and of the FFI boundary.**

`osprey_core::Error` and `osprey_ffi::OspreyError`, with the map between them.  Errors of other
crates (`snow`, `serde_json`, `std::io`) are carried by their display text, respectively by their
kind.  The FFI error turns a core error into one line of text; the text is a function of the error,
so the model keeps the error (`Osprey.Detail.chain`) and leaves the formatting out.

* `Osprey.Error`, `Osprey.CrossSignatureFailure`, `Osprey.HandshakeStage` — the core errors;
* `Osprey.OspreyError`, `Osprey.OspreyError.ofCore` — the FFI errors and `From<CoreError>`.
-/

import Osprey.ByteStream

set_option relaxedAutoImplicit false
set_option autoImplicit false

namespace Osprey

open ByteIO (ErrorKind)

/-- Byte strings. -/
abbrev Bytes := List UInt8

/-- `snow::Error`, as its display text. -/
structure SnowError where
  text : String
  deriving DecidableEq, Repr

/-- `serde_json::Error`, as its display text. -/
structure JsonError where
  text : String
  deriving DecidableEq, Repr

/-- Which side of the Noise handshake produced an error. -/
inductive HandshakeStage
  | build
  | write
  | read
  | transport
  deriving DecidableEq, Repr

def HandshakeStage.display : HandshakeStage → String
  | build => "build"
  | write => "write"
  | read => "read"
  | transport => "transport"

/-- Why a peer's cross-signed Noise static was refused. -/
inductive CrossSignatureFailure
  | malformed
  | notSignedByIdentity
  | badIdentityKey
  | unsupportedAlgorithm (raw : String)
  deriving DecidableEq, Repr

/-- `osprey_core::Error`.  The keystore variant is left out: no modelled function opens a
keystore. -/
inductive Error
  | handshake (stage : HandshakeStage) (source : SnowError)
  | transportAuth (source : SnowError)
  | handshakeConfig (detail : String)
  | frameTooLarge (len max : ℕ)
  | messageTooLarge (max : ℕ)
  | badContinuationFlag (flag : UInt8)
  | emptyChunk
  | emptyContinuationChunk
  | tooManyChunks (max : ℕ)
  | truncatedFrame (got want : ℕ)
  | crossSignature (failure : CrossSignatureFailure)
  | unpinnedPeer
  | missingRemoteStatic
  | badKeyLength (label : String) (len : ℕ)
  | pairingEncode (source : JsonError)
  | pairingDecode (source : JsonError)
  | audit (kind : ErrorKind)
  | io (kind : ErrorKind)
  deriving DecidableEq, Repr

/-- The `detail` of an FFI error: the flattened chain of a core error, or a text of its own. -/
inductive Detail
  | chain (err : Error)
  | text (line : String)
  deriving DecidableEq, Repr

/-- `osprey_ffi::OspreyError`.  `sessionClosed` is the `SessionState` error of a transport that
failed earlier; the source formats the earlier error into its text. -/
inductive OspreyError
  | handshakeConfig (detail : Detail)
  | handshakeRejected (stage : String) (detail : Detail)
  | transportAuth (detail : Detail)
  | framing (detail : Detail)
  | messageTooLarge (limit : ℕ)
  | crossSignature (reason : CrossSignatureFailure) (detail : Detail)
  | unpinnedPeer
  | payloadDecode (detail : Detail)
  | payloadEncode (detail : Detail)
  | badKeyLength (label : String) (expected actual : ℕ)
  | sessionState (detail : String)
  | sessionClosed (earlier : OspreyError)
  | inboundOverflow (limit : ℕ)
  | unexpected (detail : Detail)
  deriving DecidableEq, Repr

/-- `From<CoreError> for OspreyError`. -/
def OspreyError.ofCore (err : Error) : OspreyError :=
  match err with
  | .handshake stage _ => handshakeRejected stage.display (.chain err)
  | .transportAuth _ => transportAuth (.chain err)
  | .handshakeConfig _ => handshakeConfig (.chain err)
  | .frameTooLarge .. | .badContinuationFlag _ | .emptyChunk | .emptyContinuationChunk
  | .tooManyChunks _ | .truncatedFrame .. => framing (.chain err)
  | .messageTooLarge max => messageTooLarge max
  | .crossSignature failure => crossSignature failure (.chain err)
  | .unpinnedPeer => unpinnedPeer
  | .missingRemoteStatic => handshakeRejected "transport" (.chain err)
  | .badKeyLength label len => badKeyLength label 32 len
  | .pairingEncode _ => payloadEncode (.chain err)
  | .pairingDecode _ => payloadDecode (.chain err)
  | .io _ => framing (.chain err)
  | .audit _ => unexpected (.chain err)

end Osprey
