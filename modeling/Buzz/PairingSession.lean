import Mathlib.Data.List.Basic
import Mathlib.Tactic

/-!
# Device pairing

One side of a pairing: the source holds a secret, the target scanned the QR code
of the source. Every operation checks the age, the state and the role of the
session, and every incoming event is verified, checked for repetition and
decrypted before its message is looked at. Key agreement, key derivation, NIP-44,
signatures and JSON are parameters.
-/

namespace Buzz

section Bytes

abbrev Bytes32 := { bytes : List UInt8 // bytes.length = 32 }

def hexDigit (n : ℕ) : Char :=
  if n < 10 then Char.ofNat (48 + n) else Char.ofNat (87 + n)

def hexEncode (bytes : List UInt8) : String :=
  String.ofList (bytes.flatMap fun b => [hexDigit (b.toNat / 16), hexDigit (b.toNat % 16)])

def hexValue (c : Char) : Option ℕ :=
  if '0' ≤ c ∧ c ≤ '9' then some (c.toNat - 48)
  else if 'a' ≤ c ∧ c ≤ 'f' then some (c.toNat - 87)
  else if 'A' ≤ c ∧ c ≤ 'F' then some (c.toNat - 55)
  else none

def hexPairs : List Char → Option (List UInt8)
  | [] => some []
  | [_] => none
  | high :: low :: rest =>
      match hexValue high, hexValue low, hexPairs rest with
      | some h, some l, some bytes => some (UInt8.ofNat (16 * h + l) :: bytes)
      | _, _, _ => none

def hexDecode (s : String) : Option (List UInt8) :=
  hexPairs s.toList

/-- The decoded text when it has exactly 32 bytes. -/
def hexDecode32 (s : String) : Option Bytes32 :=
  match hexDecode s with
  | some bytes => if h : bytes.length = 32 then some ⟨bytes, h⟩ else none
  | none => none

theorem hexValue_hexDigit : ∀ n < 16, hexValue (hexDigit n) = some n := by
  decide

theorem hexPairs_encode (bytes : List UInt8) :
    hexPairs (bytes.flatMap fun b => [hexDigit (b.toNat / 16), hexDigit (b.toNat % 16)]) =
      some bytes := by
  induction bytes with
  | nil => rfl
  | cons b rest ih =>
      have hb : b.toNat < 256 := b.toNat_lt
      have hhigh : b.toNat / 16 < 16 := by omega
      have hlow : b.toNat % 16 < 16 := by omega
      have hsum : 16 * (b.toNat / 16) + b.toNat % 16 = b.toNat := by omega
      simp [List.flatMap_cons, hexPairs, hexValue_hexDigit _ hhigh, hexValue_hexDigit _ hlow,
        ih, hsum]

theorem hexDecode32_hexEncode (bytes : Bytes32) : hexDecode32 (hexEncode bytes.1) = some bytes := by
  have hdecode : hexDecode (hexEncode bytes.1) = some bytes.1 := by
    rw [hexDecode, hexEncode, String.toList_ofList, hexPairs_encode]
  simp [hexDecode32, hdecode, bytes.2]

end Bytes

inductive PayloadType where
  | nsec
  | bunker
  | connect
  | custom
  deriving DecidableEq, Repr

inductive AbortReason where
  | sasMismatch
  | userDenied
  | timeout
  | protocolError
  | unknown
  deriving DecidableEq, Repr

inductive PairingMessage where
  | offer (sessionId : String) (version : ℕ)
  | sasConfirm (transcriptHash : String)
  | payload (payloadType : PayloadType) (payload : String)
  | complete (success : Bool)
  | abort (reason : AbortReason)
  deriving DecidableEq, Repr

inductive PairingError where
  | invalidQr (detail : String)
  | invalidSessionId
  | sasMismatch
  | transcriptMismatch
  | unexpectedMessage (expected got : String)
  | sessionExpired
  | nip44 (detail : String)
  | json (detail : String)
  | invalidPubkey (detail : String)
  | signingError (detail : String)
  deriving DecidableEq, Repr

/-- A signed relay event. -/
structure Event where
  id : Bytes32
  pubkey : Bytes32
  createdAt : ℕ
  kind : ℕ
  tags : List (List String)
  content : String
  sig : List UInt8
  deriving DecidableEq

structure QrPayload where
  version : ℕ
  sourcePubkey : Bytes32
  sessionSecret : Bytes32
  relays : List String
  deriving DecidableEq

/-- What the session takes from its libraries. -/
structure PairingCrypto where
  publicKey : Bytes32 → Bytes32
  generateSharedKey : (secretKey peer : Bytes32) → Except String Bytes32
  extract : (salt ikm : List UInt8) → Bytes32
  expand : (prk : Bytes32) → (info : String) → Bytes32
  encrypt : (secretKey peer : Bytes32) → (nonce : ℕ) → (plaintext : String) → Except String String
  decrypt : (secretKey peer : Bytes32) → (content : String) → Except String String
  toJson : PairingMessage → Except String String
  fromJson : String → Except String PairingMessage
  eventId : (pubkey : Bytes32) → (createdAt kind : ℕ) → (tags : List (List String)) →
    (content : String) → Bytes32
  sign : (secretKey id : Bytes32) → (nonce : ℕ) → Except String (List UInt8)
  verify : Event → Except String Unit

namespace PairingCrypto

variable (crypto : PairingCrypto)

def hkdf32 (salt ikm : List UInt8) (info : String) : Bytes32 :=
  crypto.expand (crypto.extract salt ikm) info

def deriveSessionId (sessionSecret : Bytes32) : Bytes32 :=
  crypto.hkdf32 [] sessionSecret.1 "nostr-pair-session-id"

/-- The short code and the bytes it is taken from. -/
def deriveSas (ecdhShared sessionSecret : Bytes32) : ℕ × Bytes32 :=
  let sasInput := crypto.hkdf32 sessionSecret.1 ecdhShared.1 "nostr-pair-sas-v1"
  ((sasInput.1.take 4).foldl (fun n b => 256 * n + b.toNat) 0 % 1000000, sasInput)

def deriveTranscriptHash (sessionId sourcePubkey targetPubkey sasInput sessionSecret : Bytes32) :
    Bytes32 :=
  crypto.hkdf32 sessionSecret.1 (sessionId.1 ++ sourcePubkey.1 ++ targetPubkey.1 ++ sasInput.1)
    "nostr-pair-transcript-v1"

end PairingCrypto

/-- Six digits. -/
def formatSas (code : ℕ) : String :=
  let digits := toString code
  String.ofList (List.replicate (6 - digits.length) '0') ++ digits

inductive Role where
  | source
  | target
  deriving DecidableEq, Repr

inductive SessionState where
  | waiting
  | confirming
  | awaitingConfirmation
  | transferring
  | payloadExchanged
  | completed
  | aborted
  deriving DecidableEq, Repr

def Role.debug : Role → String
  | source => "Source"
  | target => "Target"

namespace SessionState

def debug : SessionState → String
  | waiting => "Waiting"
  | confirming => "Confirming"
  | awaitingConfirmation => "AwaitingConfirmation"
  | transferring => "Transferring"
  | payloadExchanged => "PayloadExchanged"
  | completed => "Completed"
  | aborted => "Aborted"

def isTerminal (state : SessionState) : Bool :=
  state = completed || state = aborted

end SessionState

/-- What an operation reads from its surroundings: the time that passed and random numbers. -/
structure Surroundings where
  instant : ℕ
  timestamp : ℕ
  jitter : ℕ
  nonce : ℕ

structure PairingSession where
  role : Role
  state : SessionState
  keys : Bytes32
  sessionSecret : Bytes32
  relayUrls : List String
  peerPubkey : Option Bytes32
  sessionId : Bytes32
  sasCode : Option ℕ
  sasInput : Option Bytes32
  processedIds : List Bytes32
  createdAt : ℕ
  timeout : ℕ

/-- In milliseconds. -/
def defaultTimeout : ℕ := 120000

def pairingKind : ℕ := 24134

def unexpected (expected : String) (got : PairingMessage) : PairingError :=
  .unexpectedMessage expected <|
    match got with
    | .offer _ _ => "offer"
    | .sasConfirm _ => "sas-confirm"
    | .payload _ _ => "payload"
    | .complete _ => "complete"
    | .abort _ => "abort"

namespace PairingSession

variable (crypto : PairingCrypto) (session : PairingSession) (env : Surroundings)

def pubkey : Bytes32 :=
  crypto.publicKey session.keys

section Checks

def isExpired : Bool :=
  session.timeout < env.instant - session.createdAt

def checkExpired : Except PairingError Unit :=
  if session.isExpired env then .error .sessionExpired else .ok ()

def expectState (expected : SessionState) : Except PairingError Unit :=
  if session.state = expected then .ok ()
  else .error (.unexpectedMessage ("state " ++ expected.debug) ("state " ++ session.state.debug))

def expectRole (expected : Role) : Except PairingError Unit :=
  if session.role = expected then .ok ()
  else .error (.unexpectedMessage ("role " ++ expected.debug) ("role " ++ session.role.debug))

/-- The three checks that open every operation but the two aborts. -/
def expect (state : SessionState) (role : Role) : Except PairingError Unit := do
  session.checkExpired env
  session.expectState state
  session.expectRole role

def validateEventBasics (event : Event) : Except PairingError Unit :=
  match crypto.verify event with
  | .error e => .error (.invalidPubkey ("event verification failed: " ++ e))
  | .ok () =>
      if event.id ∈ session.processedIds then
        .error (.unexpectedMessage "new event" "duplicate event id")
      else if event.kind ≠ pairingKind then
        .error (.unexpectedMessage ("kind " ++ toString pairingKind)
          ("kind " ++ toString event.kind))
      else if event.tags.any (fun tag =>
          tag[0]? == some "p" && tag[1]? == some (hexEncode (session.pubkey crypto).1)) then
        .ok ()
      else .error (.invalidPubkey "event p-tag does not match our ephemeral pubkey")

def validateEventFromPeer (event : Event) : Except PairingError Unit := do
  session.validateEventBasics crypto event
  match session.peerPubkey with
  | none => .ok ()
  | some expected =>
      if event.pubkey = expected then .ok ()
      else .error (.invalidPubkey ("event from " ++ hexEncode event.pubkey.1 ++ " but expected " ++
        hexEncode expected.1))

def decryptMessage (event : Event) : Except PairingError PairingMessage :=
  let contentLen := event.content.utf8ByteSize
  if ¬(132 ≤ contentLen ∧ contentLen ≤ 87472) then
    .error (.unexpectedMessage "NIP-44 content (132–87472 chars)" (toString contentLen ++ " chars"))
  else
    match crypto.decrypt session.keys event.pubkey event.content with
    | .error e => .error (.nip44 e)
    | .ok decrypted =>
        if 65535 < decrypted.utf8ByteSize then
          .error (.unexpectedMessage "plaintext ≤ 65535 bytes"
            (toString decrypted.utf8ByteSize ++ " bytes"))
        else (crypto.fromJson decrypted).mapError .json

def recordEvent (event : Event) : PairingSession :=
  { session with processedIds := event.id :: session.processedIds }

end Checks

def buildEvent (message : PairingMessage) : Except PairingError Event :=
  match session.peerPubkey with
  | none => .error (.invalidPubkey "no peer pubkey set")
  | some peer => do
      let plaintext ← (crypto.toJson message).mapError .json
      let encrypted ← (crypto.encrypt session.keys peer env.nonce plaintext).mapError .nip44
      let tags := [["p", hexEncode peer.1]]
      let createdAt := env.timestamp - env.jitter % 31
      let id := crypto.eventId (session.pubkey crypto) createdAt pairingKind tags encrypted
      let sig ← (crypto.sign session.keys id env.nonce).mapError .signingError
      .ok ⟨id, session.pubkey crypto, createdAt, pairingKind, tags, encrypted, sig⟩

section Source

/-- `keys` and `sessionSecret` are random. -/
def newSource (keys sessionSecret : Bytes32) (relayUrl : String) : PairingSession × QrPayload :=
  ({ role := .source
     state := .waiting
     keys := keys
     sessionSecret := sessionSecret
     relayUrls := [relayUrl]
     peerPubkey := none
     sessionId := crypto.deriveSessionId sessionSecret
     sasCode := none
     sasInput := none
     processedIds := []
     createdAt := env.instant
     timeout := defaultTimeout },
   ⟨1, crypto.publicKey keys, sessionSecret, [relayUrl]⟩)

/-- What `handleOffer` checks before it locks to the peer. -/
def acceptOffer (event : Event) : Except PairingError Unit := do
  session.expect env .waiting .source
  session.validateEventBasics crypto event
  match ← session.decryptMessage crypto event with
  | .offer sessionId version =>
      if version ≠ 1 then
        .error (.unexpectedMessage "version 1" ("version " ++ toString version))
      else if hexDecode32 sessionId = some session.sessionId then .ok ()
      else .error .invalidSessionId
  | other => .error (unexpected "offer" other)

def handleOffer (event : Event) : PairingSession × Except PairingError String :=
  match session.acceptOffer crypto env event with
  | .error e => (session, .error e)
  | .ok () =>
      let locked := { session with peerPubkey := some event.pubkey }
      match crypto.generateSharedKey session.keys event.pubkey with
      | .error e => (locked, .error (.signingError e))
      | .ok ecdh =>
          let (code, sasInput) := crypto.deriveSas ecdh session.sessionSecret
          ({ locked with
              sasCode := some code
              sasInput := some sasInput
              state := .confirming }.recordEvent event,
            .ok (formatSas code))

/-- Runs the checks of an operation and moves on to the next state when they pass. -/
def advance {α : Type} (checked : Except PairingError α) (next : SessionState) :
    PairingSession × Except PairingError α :=
  match checked with
  | .error e => (session, .error e)
  | .ok result => ({ session with state := next }, .ok result)

/-- The transcript hash as the source computes it. -/
def sourceTranscript : Except PairingError Bytes32 :=
  match session.sasInput with
  | none => .error .sasMismatch
  | some sasInput =>
      match session.peerPubkey with
      | none => .error (.invalidPubkey "no peer")
      | some peer =>
          .ok (crypto.deriveTranscriptHash session.sessionId (session.pubkey crypto) peer sasInput
            session.sessionSecret)

def sasConfirmEvent : Except PairingError Event := do
  session.expect env .confirming .source
  let transcriptHash ← session.sourceTranscript crypto
  session.buildEvent crypto env (.sasConfirm (hexEncode transcriptHash.1))

def confirmSas : PairingSession × Except PairingError Event :=
  session.advance (session.sasConfirmEvent crypto env) .transferring

def payloadEvent (payloadType : PayloadType) (payload : String) : Except PairingError Event := do
  session.expect env .transferring .source
  session.buildEvent crypto env (.payload payloadType payload)

def sendPayload (payloadType : PayloadType) (payload : String) :
    PairingSession × Except PairingError Event :=
  session.advance (session.payloadEvent crypto env payloadType payload) .payloadExchanged

/-- The message of an event that the peer may send in this state. -/
def messageFromPeer (state : SessionState) (role : Role) (event : Event) :
    Except PairingError PairingMessage := do
  session.expect env state role
  session.validateEventFromPeer crypto event
  session.decryptMessage crypto event

def handleComplete (event : Event) : PairingSession × Except PairingError Unit :=
  match session.messageFromPeer crypto env .payloadExchanged .source event with
  | .error e => (session, .error e)
  | .ok (.complete true) => ({ session with state := .completed }.recordEvent event, .ok ())
  | .ok (.complete false) =>
      ({ session with state := .aborted },
        .error (.unexpectedMessage "complete(success=true)" "complete(success=false)"))
  | .ok other => (session, .error (unexpected "complete" other))

end Source

section Target

/-- `keys` are random. -/
def newTarget (keys : Bytes32) (qr : QrPayload) : Except PairingError (PairingSession × Event) := do
  let sessionId := crypto.deriveSessionId qr.sessionSecret
  let ecdh ← (crypto.generateSharedKey keys qr.sourcePubkey).mapError .signingError
  let (code, sasInput) := crypto.deriveSas ecdh qr.sessionSecret
  let session : PairingSession :=
    { role := .target
      state := .waiting
      keys := keys
      sessionSecret := qr.sessionSecret
      relayUrls := qr.relays
      peerPubkey := some qr.sourcePubkey
      sessionId := sessionId
      sasCode := some code
      sasInput := some sasInput
      processedIds := []
      createdAt := env.instant
      timeout := defaultTimeout }
  let event ← session.buildEvent crypto env (.offer (hexEncode sessionId.1) 1)
  .ok ({ session with state := .confirming }, event)

/-- The transcript hash as the target computes it, its peer being the source. -/
def targetTranscript : Except PairingError Bytes32 :=
  match session.sasInput with
  | none => .error .sasMismatch
  | some sasInput =>
      match session.peerPubkey with
      | none => .error (.invalidPubkey "no peer")
      | some peer =>
          .ok (crypto.deriveTranscriptHash session.sessionId peer (session.pubkey crypto) sasInput
            session.sessionSecret)

def handleSasConfirm (event : Event) : PairingSession × Except PairingError String :=
  match session.messageFromPeer crypto env .confirming .target event with
  | .error e => (session, .error e)
  | .ok (.sasConfirm receivedHash) =>
      match session.targetTranscript crypto with
      | .error e => (session, .error e)
      | .ok expectedHash =>
          if hexDecode32 receivedHash = some expectedHash then
            ({ session with state := .awaitingConfirmation }.recordEvent event,
              match session.sasCode with
              | none => .error .sasMismatch
              | some code => .ok (formatSas code))
          else ({ session with state := .aborted }, .error .transcriptMismatch)
  | .ok other => (session, .error (unexpected "sas-confirm" other))

def confirmTargetSas : PairingSession × Except PairingError Unit :=
  session.advance (session.expect env .awaitingConfirmation .target) .transferring

def handlePayload (event : Event) : PairingSession × Except PairingError (PayloadType × String) :=
  match session.messageFromPeer crypto env .transferring .target event with
  | .error e => (session, .error e)
  | .ok (.payload payloadType payload) =>
      ({ session with state := .payloadExchanged }.recordEvent event, .ok (payloadType, payload))
  | .ok other => (session, .error (unexpected "payload" other))

def completeEvent : Except PairingError Event := do
  session.expect env .payloadExchanged .target
  session.buildEvent crypto env (.complete true)

def sendComplete : PairingSession × Except PairingError Event :=
  session.advance (session.completeEvent crypto env) .completed

end Target

section Abort

def terminalError : PairingError :=
  .unexpectedMessage "non-terminal state" ("state " ++ session.state.debug)

def abort (reason : AbortReason) : PairingSession × Except PairingError (Option Event) :=
  if session.state.isTerminal then (session, .error session.terminalError)
  else if session.peerPubkey = none then ({ session with state := .aborted }, .ok none)
  else
    session.advance ((session.buildEvent crypto env (.abort reason)).map some) .aborted

/-- No check of the age: a late abort still counts. -/
def handleAbort (event : Event) : PairingSession × Except PairingError AbortReason :=
  if session.state.isTerminal then (session, .error session.terminalError)
  else if session.peerPubkey = none then
    (session, .error (.invalidPubkey "cannot accept abort before peer is known"))
  else
    match (do
      session.validateEventFromPeer crypto event
      session.decryptMessage crypto event) with
    | .error e => (session, .error e)
    | .ok (.abort reason) => ({ session with state := .aborted }.recordEvent event, .ok reason)
    | .ok other => (session, .error (unexpected "abort" other))

end Abort
end PairingSession
end Buzz
