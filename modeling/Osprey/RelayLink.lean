/-
**One attachment to the relay.**

`relay/link.rs`: the request of the upgrade, the frames of a link that is up, and the keepalive by
which the agent notices that it is not.  The relay has no heartbeat of its own, so a `pong` that
does not come is the only sign of a dead socket.

The parser of uris, `serde_json` and the socket are not modelled: whether a text is a uri is a
parameter, and a read carries what it finds.

Main definitions:

* `Osprey.agentRequest` — the request, unless the url is rejected;
* `Osprey.classifyClose` — what a close code says about coming back;
* `Osprey.RelayLink` with `tickKeepalive` and `poll` — a live attachment;
* `Osprey.LinkEnd`, `Osprey.RelayLink.endsWith` — what a link ends with, before it is classified.

Main results:

* `Osprey.classifyClose_terminal_iff` — the two codes after which there is no coming back;
* `Osprey.RelayLink.endsWith_of_poll_error` — **a link ends for good exactly by a close with one of
  them**.
-/

import Mathlib.Data.List.DropRight
import Osprey.Envelope

set_option relaxedAutoImplicit false
set_option autoImplicit false

namespace Osprey

/-! ### The request -/

/-- `str::split_once` at a pattern. -/
def splitOnce (pattern : List Char) : List Char → Option (List Char × List Char)
  | [] => none
  | c :: rest =>
      if pattern <+: c :: rest then some ([], (c :: rest).drop pattern.length)
      else (splitOnce pattern rest).map fun halves => (c :: halves.1, halves.2)

/-- `trim_end_matches('/')`. -/
def trimEndSlashes (text : List Char) : List Char := text.rdropWhile (· = '/')

/-- The upgrade, and the bearer token that it authenticates with. -/
structure ClientRequest where
  uri : List Char
  authorization : String
  deriving DecidableEq, Repr

/-- The endpoint of a relay url in the schemes of a WebSocket. -/
def webSocketUrl (trimmed : List Char) : Option (List Char) :=
  match splitOnce "://".toList trimmed with
  | none => none
  | some (scheme, rest) =>
      if scheme = "https".toList then some ("wss://".toList ++ rest)
      else if scheme = "http".toList then some ("ws://".toList ++ rest)
      else if scheme = "ws".toList ∨ scheme = "wss".toList then
        some (scheme ++ "://".toList ++ rest)
      else none

/-- Build the endpoint for the agent attach route from a relay base url; the error is the text that
the url is rejected with. -/
def agentRequest (parsesUri : List Char → Bool) (baseUrl token : String) :
    Except String ClientRequest :=
  match webSocketUrl (trimEndSlashes baseUrl.toList) with
  | none => .error
      ("relay url `" ++ baseUrl ++ "` must start with http://, https://, ws:// or wss://")
  | some ws =>
      let uri := ws ++ "/v1/agent".toList
      if parsesUri uri then .ok ⟨uri, "Bearer " ++ token⟩
      else .error ("relay url `" ++ baseUrl ++ "` is not a valid endpoint")

/-! ### Why a link ends -/

def CLOSE_SUPERSEDED : UInt16 := 4000

/-- The device was revoked. -/
def CLOSE_REVOKED : UInt16 := 4001

/-- This device kind may not use this endpoint. -/
def CLOSE_WRONG_ENDPOINT : UInt16 := 4003

/-- Why a link ended, and whether coming back makes sense. -/
inductive Disconnect
  | retryable (reason : String)
  | terminal (reason : String)
  deriving DecidableEq, Repr

def Disconnect.isTerminal : Disconnect → Bool
  | .terminal _ => true
  | .retryable _ => false

/-- Classify a close code the relay sent. -/
def classifyClose (code : UInt16) (reason : String) : Disconnect :=
  if code = CLOSE_REVOKED then
    .terminal ("this device was revoked at the relay (" ++ reason ++ "); it must be paired again")
  else if code = CLOSE_WRONG_ENDPOINT then
    .terminal ("the relay refused this endpoint for an agent device (" ++ reason ++ ")")
  else if code = CLOSE_SUPERSEDED then
    .retryable "a newer socket for this device replaced this one"
  else .retryable ("the relay closed the link with code " ++ toString code.toNat)

theorem classifyClose_terminal_iff (code : UInt16) (reason : String) :
    (classifyClose code reason).isTerminal = true ↔ code = 4001 ∨ code = 4003 := by
  unfold classifyClose
  split
  · rename_i hcode
    exact iff_of_true rfl (.inl hcode)
  · rename_i hrevoked
    split
    · rename_i hcode
      exact iff_of_true rfl (.inr hcode)
    · rename_i hendpoint
      have hneither : ¬(code = 4001 ∨ code = 4003) := not_or.mpr ⟨hrevoked, hendpoint⟩
      split
      · exact iff_of_false Bool.false_ne_true hneither
      · exact iff_of_false Bool.false_ne_true hneither

/-! ### A live link -/

/-- What the relay sends. -/
inductive RelayLink.Inbound
  | relay (sender : Uuid) (payload : String)
  | pong
  | error (code message : String)
  | unknown
  deriving DecidableEq, Repr

/-- What a read of the socket finds: a text, as `serde_json` reads it; a message of another kind; a
close frame; nothing in time; or an error. -/
inductive SocketRead
  | text (frame : Option RelayLink.Inbound)
  | other
  | close (frame : Option (UInt16 × String))
  | timedOut
  | failed (error : String)
  deriving DecidableEq, Repr

/-- A live attachment; times are in nanoseconds. -/
structure RelayLink where
  lastPing : ℕ
  awaitingPongSince : Option ℕ
  deriving DecidableEq, Repr

/-- How often the agent proves the link is alive: 30 s. -/
def KEEPALIVE_INTERVAL : ℕ := 30 * 10 ^ 9

/-- How long a `pong` may be outstanding: 20 s. -/
def KEEPALIVE_TIMEOUT : ℕ := 20 * 10 ^ 9

namespace RelayLink

def new (now : ℕ) : RelayLink := ⟨now, none⟩

/-- Send a keepalive when due, and fail the link when one goes unanswered; `failure` is what the
send fails with, if it does. -/
def tickKeepalive (link : RelayLink) (now : ℕ) (failure : Option String) :
    Except Disconnect RelayLink :=
  match link.awaitingPongSince with
  | some since =>
      if KEEPALIVE_TIMEOUT ≤ now - since then
        .error (.retryable "the relay did not answer a keepalive within 20 seconds")
      else .ok link
  | none =>
      if KEEPALIVE_INTERVAL ≤ now - link.lastPing then
        match failure with
        | some error => .error (.retryable ("could not send a keepalive: " ++ error))
        | none => .ok ⟨now, some now⟩
      else .ok link

/-- Read one frame if the relay sent one, and keep the keepalive running. -/
def poll (link : RelayLink) (now : ℕ) (failure : Option String) (read : SocketRead) :
    Except Disconnect (Option RelayLink.Inbound × RelayLink) :=
  match link.tickKeepalive now failure with
  | .error disconnect => .error disconnect
  | .ok link =>
      match read with
      | .text (some .pong) => .ok (some .pong, { link with awaitingPongSince := none })
      | .text frame => .ok (frame, link)
      | .other => .ok (none, link)
      | .close (some (code, reason)) => .error (classifyClose code reason)
      | .close none => .error (.retryable "the relay closed the link")
      | .timedOut => .ok (none, link)
      | .failed error => .error (.retryable ("relay link failed: " ++ error))

end RelayLink

/-- What a link ends with: a close frame of the relay, or a failure on this side. -/
inductive LinkEnd
  | closed (code : Option UInt16)
  | failed
  deriving DecidableEq, Repr

/-- The relay has said that the credential or the endpoint is refused. -/
def LinkEnd.Refused : LinkEnd → Prop
  | .closed code => code = some 4001 ∨ code = some 4003
  | .failed => False

/-- What the link ends with in a poll, if it does. -/
def RelayLink.endsWith (link : RelayLink) (now : ℕ) (failure : Option String) (read : SocketRead) :
    Option LinkEnd :=
  match link.tickKeepalive now failure with
  | .error _ => some .failed
  | .ok _ =>
      match read with
      | .close frame => some (.closed (frame.map Prod.fst))
      | .failed _ => some .failed
      | _ => none

/-- A keepalive never ends a link for good. -/
theorem RelayLink.isTerminal_of_tickKeepalive {link : RelayLink} {now : ℕ}
    {failure : Option String} {disconnect : Disconnect}
    (h : link.tickKeepalive now failure = .error disconnect) : disconnect.isTerminal = false := by
  unfold tickKeepalive at h
  split at h
  · split at h
    · cases h
      rfl
    · cases h
  · split at h
    · split at h
      · cases h
        rfl
      · cases h
    · cases h

/-- A poll that answers does not end the link. -/
theorem RelayLink.endsWith_of_poll_ok {link : RelayLink} {now : ℕ} {failure : Option String}
    {read : SocketRead} {answer : Option RelayLink.Inbound × RelayLink}
    (h : link.poll now failure read = .ok answer) : link.endsWith now failure read = none := by
  unfold poll at h
  unfold endsWith
  cases htick : link.tickKeepalive now failure with
  | error ended =>
      rw [htick] at h
      cases h
  | ok link =>
      rw [htick] at h
      cases read with
      | text frame => rfl
      | other => rfl
      | close frame =>
          cases frame with
          | none => cases h
          | some frame => cases h
      | timedOut => rfl
      | failed error => cases h

/-- **When a link ends for good.** -/
theorem RelayLink.endsWith_of_poll_error {link : RelayLink} {now : ℕ} {failure : Option String}
    {read : SocketRead} {disconnect : Disconnect}
    (h : link.poll now failure read = .error disconnect) :
    ∃ reason, link.endsWith now failure read = some reason ∧
      (disconnect.isTerminal = true ↔ reason.Refused) := by
  unfold poll at h
  unfold endsWith
  cases htick : link.tickKeepalive now failure with
  | error ended =>
      rw [htick] at h
      cases h
      refine ⟨.failed, rfl, ?_⟩
      rw [isTerminal_of_tickKeepalive htick]
      exact iff_of_false Bool.false_ne_true not_false
  | ok link =>
      rw [htick] at h
      cases read with
      | text frame =>
          cases frame with
          | none => cases h
          | some frame => cases frame <;> cases h
      | other => cases h
      | close frame =>
          cases frame with
          | none =>
              cases h
              exact ⟨.closed none, rfl, iff_of_false Bool.false_ne_true (by simp [LinkEnd.Refused])⟩
          | some frame =>
              cases h
              refine ⟨.closed (some frame.1), rfl, ?_⟩
              rw [classifyClose_terminal_iff, LinkEnd.Refused, Option.some.injEq, Option.some.injEq]
      | timedOut => cases h
      | failed error =>
          cases h
          exact ⟨.failed, rfl, iff_of_false Bool.false_ne_true not_false⟩

end Osprey
