import Buzz.SpaceHistory
import Buzz.ProcessPool

/-!
# Durable artefacts of directed execution

Three artefacts carry a directed message across crashes: the watermark of the
history scan, the pending handoff keyed by the message identifier and the
completed tombstone. The harness and the desktop change them through single
file operations, each atomic; an operation that reports an error may or may not
have taken effect. The world also keeps what the statements speak about: which
rows the gate examined, which ACP operations were entered and how they ended,
and which harness generation is alive.
-/

namespace Buzz

open EffectProgram

inductive PendingCausalState where
  | pending
  | claimed
  | executing
  deriving DecidableEq, Repr

structure PendingCausalMessage where
  version : ℕ
  startNonce : String
  groupId : String
  msgId : String
  state : PendingCausalState
  deriving DecidableEq, Repr

structure CompletedCausalMessage where
  version : ℕ
  groupId : String
  msgId : String
  deriving DecidableEq, Repr

/-- How an entry into the ACP operation has ended so far. -/
inductive EntryOutcome where
  | unfinished
  | silent
  | settled
  deriving DecidableEq, Repr

structure AcpEntry where
  msgId : String
  outcome : EntryOutcome
  deriving DecidableEq, Repr

structure CausalWorld where
  watermark : Option ℤ
  pending : String → Option PendingCausalMessage
  completed : String → Option CompletedCausalMessage
  rows : List HistoryRow
  entries : List AcpEntry
  verdicts : List (HistoryRow × Bool)
  alive : Option String
  nonces : List String

inductive FileRead (α : Type) where
  | missing
  | failed
  | found (value : α)

inductive FileCreate where
  | created
  | alreadyExists
  | failed
  deriving DecidableEq, Repr

structure AcpTurnOutcome where
  stopReason : String
  assistantText : String
  sawAnyToolCall : Bool
  ambiguousToolActivity : Bool
  completedToolCallIds : List String
  deriving DecidableEq, Repr

def AcpTurnOutcome.hasVisibleText (outcome : AcpTurnOutcome) : Bool :=
  outcome.assistantText ≠ ""

def AcpTurnOutcome.hasCompletedTool (outcome : AcpTurnOutcome) : Bool :=
  !outcome.completedToolCallIds.isEmpty

inductive X0xError where
  | artifact (reason : String)
  | transport (reason : String)
  | status (code : ℕ) (body : String)
  | decode (reason : String)
  | identityMismatch (expected actual : String)
  | unsupportedGroup
  | historyPageLimit
  deriving DecidableEq, Repr

structure HistoryResponse where
  records : List HistoryRow
  nextBeforeId : Option ℤ

inductive Lifecycle where
  | listening
  | waking
  | ready
  | failed
  deriving DecidableEq, Repr

/-- What ends one wait of the harness loop. -/
inductive WakeSignal where
  | tick
  | wake
  | wakeTaskStopped
  | interrupted
  | signalFailed
  deriving DecidableEq, Repr

/-- `recheck` marks the second look at the tombstone, after the desktop created
the handoff. -/
inductive CausalRequest where
  | readState
  | writeState (lastSeenId : ℤ)
  | listPending
  | readPending (stem : String)
  | pendingExists (stem : String)
  | writePending (stem : String) (message : PendingCausalMessage)
  | createPending (stem : String) (message : PendingCausalMessage)
  | removePending (stem : String)
  | readCompleted (msgId : String) (recheck : Bool)
  | writeCompleted (msgId : String) (message : CompletedCausalMessage)
  | ensureDir
  | clearLifecycle
  | history (scope : String) (limit : ℕ) (beforeId : Option ℤ)
  | sendGroupReply (body : ChannelEnvelope) (threadRoot threadParent : String)
  | verifyIdentity
  | resolveGroup
  | startAcp
  | prompt (text : String)
  | clock
  | publish (lifecycle : Lifecycle)
  | awaitWake
  | backoff (seconds : ℕ)
  | enterTurn (msgId : String)
  | leaveTurn (msgId : String) (outcome : EntryOutcome)
  | recordVerdict (row : HistoryRow) (held : Bool)
  | trackedRuntime
  | terminateUntracked
  | freshNonce
  | spawn (nonce : String)

/-- A Boolean reply tells success from an I/O error. -/
@[reducible]
def CausalRequest.Reply : CausalRequest → Type
  | .readState => FileRead ℤ
  | .listPending => Option (List String)
  | .readPending _ => FileRead PendingCausalMessage
  | .createPending _ _ => FileCreate
  | .readCompleted _ _ => FileRead CompletedCausalMessage
  | .history _ _ _ => Except X0xError HistoryResponse
  | .sendGroupReply _ _ _ => Except X0xError (Option String)
  | .verifyIdentity => Except X0xError Unit
  | .resolveGroup => Except X0xError String
  | .startAcp => Except String Unit
  | .prompt _ => Except String AcpTurnOutcome
  | .clock => ℕ × String
  | .awaitWake => WakeSignal
  | .backoff _ => WakeSignal
  | .enterTurn _ => Unit
  | .leaveTurn _ _ => Unit
  | .recordVerdict _ _ => Unit
  | .trackedRuntime => Option String
  | .freshNonce => String
  | _ => Bool

namespace CausalWorld

variable (w : CausalWorld)

def setWatermark (lastSeenId : ℤ) : CausalWorld :=
  { w with watermark := some lastSeenId }

def setPending (stem : String) (message : Option PendingCausalMessage) : CausalWorld :=
  { w with pending := Function.update w.pending stem message }

def setCompleted (msgId : String) (message : CompletedCausalMessage) : CausalWorld :=
  { w with completed := Function.update w.completed msgId (some message) }

def enterTurn (msgId : String) : CausalWorld :=
  { w with entries := w.entries ++ [⟨msgId, .unfinished⟩] }

/-- The running entry of `msgId` is its last one. -/
def leaveTurn (msgId : String) (outcome : EntryOutcome) : CausalWorld :=
  { w with entries := w.entries.map fun entry =>
      if entry.msgId = msgId ∧ entry.outcome = .unfinished then ⟨msgId, outcome⟩ else entry }

def recordVerdict (row : HistoryRow) (held : Bool) : CausalWorld :=
  { w with verdicts := w.verdicts ++ [(row, held)] }

def entriesOf (msgId : String) : List AcpEntry :=
  w.entries.filter (fun entry => entry.msgId = msgId)

end CausalWorld

/-- A page of the history listing: rows of the scope below the cursor, newest
first, with nothing left out above the next cursor. -/
structure IsHistoryPage (rows : List HistoryRow) (scope : String) (beforeId : Option ℤ)
    (response : HistoryResponse) : Prop where
  mem : ∀ row ∈ response.records, row ∈ rows ∧ row.scope = scope ∧ ∀ c ∈ beforeId, row.id < c
  complete : ∀ row ∈ rows, row.scope = scope → (∀ c ∈ beforeId, row.id < c) →
    (∀ c ∈ response.nextBeforeId, c ≤ row.id) → row ∈ response.records
  cursor_le : ∀ c ∈ response.nextBeforeId, ∀ row ∈ response.records, c ≤ row.id

/-- A write that reports success took effect; one that reports an error may have. -/
def Writes (w updated : CausalWorld) (ok : Bool) (u : CausalWorld) : Prop :=
  u = updated ∨ (ok = false ∧ u = w)

/-- A read answers with the file's content or with an I/O error. -/
def Reads {α : Type} (content : Option α) : FileRead α → Prop
  | .missing => content = none
  | .failed => True
  | .found value => content = some value

def CausalRequest.commits (w : CausalWorld) :
    (request : CausalRequest) → request.Reply → CausalWorld → Prop
  | .readState, answer, u => u = w ∧ Reads w.watermark answer
  | .writeState lastSeenId, ok, u => Writes w (w.setWatermark lastSeenId) ok u
  | .listPending, answer, u => u = w ∧ ∀ stems, answer = some stems → stems.Nodup ∧
      ∀ stem, stem ∈ stems ↔ w.pending stem ≠ none
  | .readPending stem, answer, u => u = w ∧ Reads (w.pending stem) answer
  | .pendingExists stem, answer, u => u = w ∧ (answer = true ↔ w.pending stem ≠ none)
  | .writePending stem message, ok, u => Writes w (w.setPending stem (some message)) ok u
  | .createPending stem message, answer, u =>
      match answer with
      | .alreadyExists => u = w ∧ w.pending stem ≠ none
      | .created => w.pending stem = none ∧ u = w.setPending stem (some message)
      | .failed => u = w ∨ (w.pending stem = none ∧ u = w.setPending stem (some message))
  | .removePending stem, ok, u => Writes w (w.setPending stem none) ok u
  | .readCompleted msgId _, answer, u => u = w ∧ Reads (w.completed msgId) answer
  | .writeCompleted msgId message, ok, u => Writes w (w.setCompleted msgId message) ok u
  | .history scope _ beforeId, answer, u => u = w ∧
      ∀ response, answer = .ok response → IsHistoryPage w.rows scope beforeId response
  | .enterTurn msgId, _, u => u = w.enterTurn msgId
  | .leaveTurn msgId outcome, _, u => u = w.leaveTurn msgId outcome
  | .recordVerdict row held, _, u => u = w.recordVerdict row held
  | .trackedRuntime, answer, u => u = w ∧ ∀ nonce, answer = some nonce → w.alive = some nonce
  | .terminateUntracked, ok, u => u = w ∧ (ok = true → w.alive = none)
  | .freshNonce, nonce, u => isHexText 32 nonce = true ∧ toAsciiLowercase nonce = nonce ∧
      nonce ∉ w.nonces ∧ u = { w with nonces := nonce :: w.nonces }
  | .spawn nonce, ok, u => u = if ok then { w with alive := some nonce } else w
  | _, _, u => u = w

/-- The requests that leave the world as it is. -/
def CausalRequest.isQuiet : CausalRequest → Bool
  | .writeState _ => false
  | .writePending _ _ => false
  | .createPending _ _ => false
  | .removePending _ => false
  | .writeCompleted _ _ => false
  | .enterTurn _ => false
  | .leaveTurn _ _ => false
  | .recordVerdict _ _ => false
  | .freshNonce => false
  | .spawn _ => false
  | _ => true

theorem CausalRequest.eq_of_isQuiet {request : CausalRequest} (h : request.isQuiet = true)
    {w u : CausalWorld} {answer : request.Reply} (hcommit : request.commits w answer u) :
    u = w := by
  cases request with
  | readState | listPending | readPending | pendingExists | readCompleted | history
  | trackedRuntime | terminateUntracked => exact hcommit.1
  | writeState | writePending | createPending | removePending | writeCompleted | enterTurn
  | leaveTurn | recordVerdict | freshNonce | spawn => cases h
  | ensureDir | clearLifecycle | sendGroupReply | verifyIdentity | resolveGroup | startAcp
  | prompt | clock | publish | awaitWake | backoff => exact hcommit

end Buzz
