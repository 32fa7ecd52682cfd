import Buzz.TriggerGate
import Buzz.CausalWorld

/-!
# The harness

The harness as the source runs it: the loader of pending handoffs, the staging
of a directed row, the durable claim around the ACP operation, the two scans of
`reconcile`, the recovery from silent turns and the main loop. Its memory is the
watermark and the rolling context.
-/

namespace Buzz

open EffectProgram

/-- Which file or text a rejected handoff names. -/
inductive InvalidSubject where
  | pendingFile (stem : String)
  | completedFile (msgId : String)
  | messageId (msgId : String)
  deriving DecidableEq, Repr

inductive HarnessError where
  | x0x (error : X0xError)
  | acp (reason : String)
  | stateIo
  | silentDirectedTurn (attempts : ℕ) (stopReason : String)
  | ambiguousDirectedToolTurn (stopReason : String)
  | incompleteDirectedTurn (stopReason : String)
  | pendingCausalInvalid (subject : InvalidSubject)
  | pendingCausalMissing (msgId : String)
  | pendingCausalRejected (msgId : String)
  deriving DecidableEq, Repr

def HarnessError.isSilent : HarnessError → Bool
  | .silentDirectedTurn _ _ => true
  | _ => false

structure HarnessMemory where
  lastSeenId : ℤ
  context : ConversationContext

abbrev HarnessTask (α : Type) : Type :=
  Task CausalRequest CausalRequest.Reply HarnessMemory HarnessError α

structure HarnessContext where
  config : Config
  decode : EnvelopeDecoder
  causalNonce : String
  stableGroupId : String

structure PendingCausalEntry where
  stem : String
  message : PendingCausalMessage
  deriving DecidableEq, Repr

def ask (request : CausalRequest) : HarnessTask request.Reply :=
  Task.perform request

/-- A request whose failure ends the task with `error`. -/
def orFail (request : CausalRequest) (error : HarnessError)
    (ok : request.Reply → Bool) : HarnessTask Unit := do
  let answer ← ask request
  if ok answer then pure () else Task.fail error

def historyPageSize : ℕ := 200

def maxHistoryPages : ℕ := 100

def maxSilentEndTurnRetries : ℕ := 1

def silentReconcileBackoffs : List ℕ := [5, 30, 120]

def explicitReplyPrefix : String := "X0X_REPLY:"

section Daemon

def historyPage (scope : String) (limit : ℕ) (beforeId : Option ℤ) :
    HarnessTask HistoryResponse := do
  match ← ask (.history scope limit beforeId) with
  | .ok response => pure response
  | .error error => Task.fail (.x0x error)

def historyAfterPages (scope : String) (watermark : ℤ) :
    ℕ → Option ℤ → List HistoryRow → HarnessTask (List HistoryRow)
  | 0, _, _ => Task.fail (.x0x .historyPageLimit)
  | pages + 1, beforeId, rows => do
      let page ← historyPage scope historyPageSize beforeId
      let rows := rows ++ page.records.filter (fun row => watermark < row.id)
      if page.records.any (fun row => row.id ≤ watermark) || page.nextBeforeId.isNone then
        pure (rows.insertionSort (fun left right => left.id ≤ right.id))
      else historyAfterPages scope watermark pages page.nextBeforeId rows

def historyAfter (stableGroupId : String) (watermark : ℤ) : HarnessTask (List HistoryRow) :=
  historyAfterPages ("group:" ++ stableGroupId) watermark maxHistoryPages none []

def historyGetPages (scope msgId : String) : ℕ → Option ℤ → HarnessTask (Option HistoryRow)
  | 0, _ => Task.fail (.x0x .historyPageLimit)
  | pages + 1, beforeId => do
      let page ← historyPage scope historyPageSize beforeId
      match page.records.find? (fun row => row.msgId == msgId) with
      | some row => pure (some row)
      | none =>
          match page.nextBeforeId with
          | some next => historyGetPages scope msgId pages (some next)
          | none => pure none

def historyGet (stableGroupId msgId : String) : HarnessTask (Option HistoryRow) :=
  historyGetPages ("group:" ++ stableGroupId) msgId maxHistoryPages none

def recentHistory (stableGroupId : String) : HarnessTask (List HistoryRow) := do
  let response ← historyPage ("group:" ++ stableGroupId) 100 none
  pure (response.records.insertionSort (fun left right => left.id ≤ right.id))

end Daemon

section DurableState

def loadState : HarnessTask (Option ℤ) := do
  match ← ask .readState with
  | .missing => pure none
  | .failed => Task.fail .stateIo
  | .found lastSeenId => pure (some lastSeenId)

def persistState : HarnessTask Unit := do
  let memory ← Task.getMemory
  orFail (.writeState memory.lastSeenId) .stateIo id

def setLastSeenId (lastSeenId : ℤ) : HarnessTask Unit := do
  let memory ← Task.getMemory
  Task.setMemory { memory with lastSeenId := lastSeenId }

def claimRow (rowId : ℤ) : HarnessTask Unit := do
  let memory ← Task.getMemory
  setLastSeenId (max memory.lastSeenId rowId)
  persistState

end DurableState

section Handoff

variable (harness : HarnessContext)

def completedCausalExists (msgId : String) : HarnessTask Bool := do
  match ← ask (.readCompleted msgId false) with
  | .missing => pure false
  | .failed => Task.fail .stateIo
  | .found completed =>
      if completed.version ≠ 1 || completed.groupId ≠ harness.config.groupId ||
          completed.msgId ≠ msgId then
        Task.fail (.pendingCausalInvalid (.completedFile msgId))
      else pure true

def persistCompletedCausal (msgId : String) : HarnessTask Unit := do
  orFail .ensureDir .stateIo id
  if ← completedCausalExists harness msgId then pure ()
  else
    orFail (.writeCompleted msgId ⟨1, harness.config.groupId, msgId⟩) .stateIo id

/-- The fields that tie a record to its file, its group and a known version. -/
def identityValid (stem : String) (message : PendingCausalMessage) : Bool :=
  (message.version == 1 || message.version == 2) && message.groupId == harness.config.groupId &&
    isHexText 64 (toAsciiLowercase message.msgId) && stem == toAsciiLowercase message.msgId

def stateValid (message : PendingCausalMessage) : Bool :=
  match message.version, message.state with
  | 1, .pending => true
  | 1, .claimed => true
  | 2, _ => true
  | _, _ => false

def upgradedEntry (stem : String) (message : PendingCausalMessage) : PendingCausalEntry where
  stem := stem
  message :=
    { message with
      version := if message.version = 1 ∧ message.state = .pending then 2 else message.version
      msgId := toAsciiLowercase message.msgId }

/-- A tombstone is looked up only for a record whose identity checks out. -/
def handoffCompleted (stem : String) (message : PendingCausalMessage) : HarnessTask Bool :=
  if identityValid harness stem message then
    completedCausalExists harness (toAsciiLowercase message.msgId)
  else pure false

/-- One file of the directory that `load_pending_causal` lists. -/
def loadPendingFile (stem : String) : HarnessTask (Option PendingCausalEntry) := do
  match ← ask (.readPending stem) with
  | .missing => Task.fail .stateIo
  | .failed => Task.fail .stateIo
  | .found message =>
      if ← handoffCompleted harness stem message then
        orFail (.removePending stem) .stateIo id
        pure none
      else if identityValid harness stem message && message.startNonce == harness.causalNonce &&
          stateValid message then
        pure (some (upgradedEntry stem message))
      -- a different nonce belongs to an earlier generation and is left alone
      else if message.startNonce ≠ harness.causalNonce then pure none
      else Task.fail (.pendingCausalInvalid (.pendingFile stem))

def loadPendingFiles : List String → HarnessTask (List PendingCausalEntry)
  | [] => pure []
  | stem :: stems => do
      let entry ← loadPendingFile harness stem
      let entries ← loadPendingFiles stems
      pure (entry.toList ++ entries)

def loadPendingCausal : HarnessTask (List PendingCausalEntry) := do
  match ← ask .listPending with
  | none => Task.fail .stateIo
  | some stems =>
      let entries ← loadPendingFiles harness stems
      pure (entries.insertionSort (fun left right => left.message.msgId ≤ right.message.msgId))

def stageCausalMessage (msgId : String) : HarnessTask (Option PendingCausalEntry) := do
  let canonicalMsgId := toAsciiLowercase msgId
  if !isHexText 64 canonicalMsgId || !isHexText 32 harness.causalNonce then
    Task.fail (.pendingCausalInvalid (.messageId msgId))
  else if ← completedCausalExists harness canonicalMsgId then pure none
  else
    orFail .ensureDir .stateIo id
    let message : PendingCausalMessage :=
      ⟨2, toAsciiLowercase harness.causalNonce, harness.config.groupId, canonicalMsgId, .pending⟩
    orFail (.createPending canonicalMsgId message) .stateIo (fun answer => answer != .failed)
    let entries ← loadPendingCausal harness
    match entries.find? (fun entry => entry.message.msgId == canonicalMsgId) with
    | some entry =>
        if entry.message.state = .pending ∨
            (entry.message.version = 2 ∧ entry.message.state = .claimed) then
          pure (some entry)
        else pure none
    | none =>
        if ← completedCausalExists harness canonicalMsgId then pure none
        else Task.fail (.pendingCausalInvalid (.pendingFile canonicalMsgId))

def persistPendingCausal (entry : PendingCausalEntry) : HarnessTask Unit :=
  orFail (.writePending entry.stem entry.message) .stateIo id

def PendingCausalEntry.withState (entry : PendingCausalEntry) (state : PendingCausalState) :
    PendingCausalEntry :=
  { entry with message := { entry.message with state := state } }

def entryOutcome : Except HarnessError Unit → EntryOutcome
  | .ok _ => .settled
  | .error error => if error.isSilent then .silent else .settled

/-- `enterTurn` and `leaveTurn` record the ACP operation for the statements. -/
def recordedOperation (msgId : String) (operation : HarnessTask Unit) :
    HarnessTask (Except HarnessError Unit) := do
  ask (.enterTurn msgId)
  let result ← Task.result operation
  ask (.leaveTurn msgId (entryOutcome result))
  pure result

def afterDurablePendingClaim (rowId : ℤ) (entry : PendingCausalEntry)
    (operation : HarnessTask Unit) : HarnessTask Unit := do
  let memory ← Task.getMemory
  let previousWatermark := memory.lastSeenId
  persistPendingCausal (entry.withState .claimed)
  claimRow rowId
  persistPendingCausal (entry.withState .executing)
  match ← recordedOperation entry.message.msgId operation with
  | .ok _ =>
      persistCompletedCausal harness entry.message.msgId
      orFail (.removePending entry.stem) .stateIo id
  | .error error =>
      -- a silent turn releases the handoff first and the watermark second
      if error.isSilent then
        persistPendingCausal (entry.withState .pending)
        setLastSeenId previousWatermark
        persistState
        Task.fail error
      else Task.fail error

def afterDurableOrdinaryClaim (rowId : ℤ) (msgId : String) (operation : HarnessTask Unit) :
    HarnessTask Unit := do
  match ← stageCausalMessage harness msgId with
  | none => claimRow rowId
  | some entry => afterDurablePendingClaim harness rowId entry operation

end Handoff

section DirectedTurn

variable (harness : HarnessContext)

def buildPrompt (row : HistoryRow) (envelope : ChannelEnvelope) (context : ConversationContext)
    (isOwner : Bool) : String :=
  let peerInstruction :=
    if isOwner then "Your final text will be posted as a threaded reply."
    else "To post a reply, begin your final text with exactly `X0X_REPLY:`. Without that " ++
      "prefix, no message will be sent."
  "[Native x0x directed space message]\n" ++
  "Space: " ++ harness.config.groupId ++ "\n" ++
  "Sender AgentId: " ++ row.authorAgent.getD "unknown" ++ "\n" ++
  "Message id: " ++ row.msgId ++ "\n" ++
  "Thread root: " ++ row.threadRoot.getD row.msgId ++ "\n" ++
  "Thread parent: " ++ row.threadParent.getD "none" ++ "\n" ++
  "Message: " ++ envelope.text ++ "\n\n" ++
  "Recent durable conversation (oldest to newest):\n" ++ context.renderRecent ++ "\n\n" ++
  "Native x0x MCP tools: `space_members` lists this space's roster and " ++
  "`space_send` sends a space message. Return final text for the reply to " ++
  "this sender. Use `space_send` only when the incoming request explicitly " ++
  "asks you to delegate to or notify another member, and never duplicate " ++
  "the sender reply through that tool; the harness preserves its verified " ++
  "thread root and parent. For a delegated send, keep this Thread root and " ++
  "set `thread_parent` to this Message id so the native tool can derive its " ++
  "bounded delegation generation.\n\n" ++ peerInstruction

def replyForAuthor (finalText : String) (isOwner : Bool) : Option String :=
  let trimmed := trim finalText
  if explicitReplyPrefix.toList.isPrefixOf trimmed.toList then
    let explicit := trim (String.ofList (trimmed.toList.drop explicitReplyPrefix.length))
    if explicit = "" then none else some explicit
  else if isOwner && trimmed ≠ "" then some trimmed
  else none

/-- The loop of `prompt_directed_message` with the retries that are left. -/
def promptAttempts (prompt : String) : ℕ → ℕ → HarnessTask AcpTurnOutcome
  | retries, attempts => do
      match ← ask (.prompt prompt) with
      | .error reason => Task.fail (.acp reason)
      | .ok outcome =>
          if outcome.ambiguousToolActivity then
            Task.fail (.ambiguousDirectedToolTurn outcome.stopReason)
          else if outcome.hasVisibleText || outcome.hasCompletedTool then pure outcome
          else if outcome.sawAnyToolCall then
            Task.fail (.ambiguousDirectedToolTurn outcome.stopReason)
          else if outcome.stopReason ≠ "end_turn" then
            Task.fail (.incompleteDirectedTurn outcome.stopReason)
          else
            match retries with
            | 0 => Task.fail (.silentDirectedTurn (attempts + 1) outcome.stopReason)
            | retries + 1 => promptAttempts prompt retries (attempts + 1)

def promptDirectedMessage (prompt : String) : HarnessTask AcpTurnOutcome :=
  promptAttempts prompt maxSilentEndTurnRetries 0

def postTurnReply (outcome : AcpTurnOutcome) (isOwner : Bool)
    (send : String → HarnessTask Unit) : HarnessTask Bool := do
  match replyForAuthor outcome.assistantText isOwner with
  | none => pure false
  | some reply =>
      send reply
      pure true

def sendReply (row : HistoryRow) (author reply : String) : HarnessTask Unit := do
  let (createdAt, clientId) ← ask .clock
  let response : ChannelEnvelope := ⟨reply, createdAt, clientId, [author], true, none, none⟩
  match ← ask (.sendGroupReply response (row.threadRoot.getD row.msgId) row.msgId) with
  | .ok _ => pure ()
  | .error error => Task.fail (.x0x error)

def handleDirectedMessage (row : HistoryRow) (envelope : ChannelEnvelope) : HarnessTask Unit := do
  let author := row.authorAgent.getD ""
  let isOwner := eqIgnoreAsciiCase author harness.config.ownerAgentId
  let memory ← Task.getMemory
  let outcome ← promptDirectedMessage (buildPrompt harness row envelope memory.context isOwner)
  let _sent ← postTurnReply outcome isOwner (sendReply row author)
  pure ()

/-- The operation that both claim paths run. -/
def directedTurn (row : HistoryRow) (envelope : ChannelEnvelope) : HarnessTask Unit := do
  orFail (.publish .waking) .stateIo id
  handleDirectedMessage harness row envelope
  orFail (.publish .ready) .stateIo id

end DirectedTurn

section Reconcile

variable (harness : HarnessContext)

def setContext (context : ConversationContext) : HarnessTask Unit := do
  let memory ← Task.getMemory
  Task.setMemory { memory with context := context }

def ensureDelegationRootInContext (envelope : ChannelEnvelope) : HarnessTask Unit := do
  match envelope.delegationRoot with
  | none => pure ()
  | some rootId =>
      let memory ← Task.getMemory
      if memory.context.hasMessage rootId then pure ()
      else
        let found ← historyGet harness.stableGroupId rootId
        setContext (ensureDelegationRoot harness.decode harness.stableGroupId
          harness.config.agentId envelope found memory.context)

/-- Puts the row and the root it claims into the context and asks the gate. -/
def examineRow (row : HistoryRow) (envelope : ChannelEnvelope) : HarnessTask Bool := do
  ensureDelegationRootInContext harness envelope
  let memory ← Task.getMemory
  let context := observeRow harness.decode harness.stableGroupId harness.config.agentId row
    memory.context
  setContext context
  let held := shouldTrigger harness.config harness.stableGroupId row envelope context
  ask (.recordVerdict row held)
  pure held

structure PendingRow where
  entry : PendingCausalEntry
  row : HistoryRow
  envelope : ChannelEnvelope

/-- A handoff in this state may have had side effects and is never picked up. -/
def PendingCausalMessage.isBlocked (message : PendingCausalMessage) : Bool :=
  message.state = .executing || (message.version == 1 && message.state = .claimed)

def findPendingRows : List PendingCausalEntry → HarnessTask (List PendingRow)
  | [] => pure []
  | entry :: entries => do
      if entry.message.isBlocked then findPendingRows entries
      else
        match ← historyGet harness.stableGroupId entry.message.msgId with
        | none => Task.fail (.pendingCausalMissing entry.message.msgId)
        | some row =>
            match row.envelope harness.decode with
            | none => Task.fail (.pendingCausalRejected entry.message.msgId)
            | some envelope =>
                let pendingRows ← findPendingRows entries
                pure (⟨entry, row, envelope⟩ :: pendingRows)

def reconcilePendingRow (pendingRow : PendingRow) : HarnessTask Unit := do
  let held ← examineRow harness pendingRow.row pendingRow.envelope
  if held then
    afterDurablePendingClaim harness pendingRow.row.id pendingRow.entry
      (directedTurn harness pendingRow.row pendingRow.envelope)
  else Task.fail (.pendingCausalRejected pendingRow.entry.message.msgId)

def reconcilePendingCausal : HarnessTask Unit := do
  let entries ← loadPendingCausal harness
  let pendingRows ← findPendingRows harness entries
  Task.forEach (reconcilePendingRow harness)
    (pendingRows.insertionSort (fun left right => left.row.id ≤ right.row.id))

def reconcileRow (row : HistoryRow) : HarnessTask Unit := do
  match row.envelope harness.decode with
  | none =>
      -- a row without an envelope cannot wake the agent
      ask (.recordVerdict row false)
      claimRow row.id
  | some envelope =>
      let held ← examineRow harness row envelope
      if held then
        afterDurableOrdinaryClaim harness row.id row.msgId (directedTurn harness row envelope)
      else claimRow row.id

def reconcile : HarnessTask Unit := do
  reconcilePendingCausal harness
  let memory ← Task.getMemory
  let rows ← historyAfter harness.stableGroupId memory.lastSeenId
  Task.forEach (reconcileRow harness) rows

end Reconcile

section Loop

variable (harness : HarnessContext)

inductive ReconcileRecoveryOutcome where
  | reconciled
  | shutdownRequested
  deriving DecidableEq, Repr

/-- The argument lists the backoffs that are left. -/
def reconcileWithSilentRecovery : List ℕ → HarnessTask ReconcileRecoveryOutcome
  | [] => do
      reconcile harness
      pure .reconciled
  | seconds :: backoffs => do
      match ← Task.result (reconcile harness) with
      | .ok _ => pure .reconciled
      | .error error =>
          if error.isSilent then
            match ← ask (.backoff seconds) with
            | .interrupted => pure .shutdownRequested
            | .signalFailed => Task.fail .stateIo
            | _ => reconcileWithSilentRecovery backoffs
          else Task.fail error

/-- The wake loop for at most `rounds` rounds. -/
def harnessLoop : ℕ → HarnessTask Unit
  | 0 => pure ()
  | rounds + 1 => do
      match ← ask .awaitWake with
      | .wakeTaskStopped => Task.fail (.x0x (.transport "WebSocket wake task stopped"))
      | .interrupted => pure ()
      | .signalFailed => Task.fail .stateIo
      | _ =>
          match ← reconcileWithSilentRecovery harness silentReconcileBackoffs with
          | .shutdownRequested => pure ()
          | .reconciled => harnessLoop rounds

def orX0xError {α : Type} (answer : Except X0xError α) : HarnessTask α :=
  match answer with
  | .ok value => pure value
  | .error error => Task.fail (.x0x error)

def initialWatermark (recent : List HistoryRow) : ℤ :=
  ((recent.map HistoryRow.id).max?).getD 0

def observeRecent (stableGroupId : String) (recent : List HistoryRow) : ConversationContext :=
  recent.foldl (fun context row =>
    observeRow harness.decode stableGroupId harness.config.agentId row context)
    ConversationContext.empty

/-- A first start takes the newest row as seen. -/
def restoreWatermark (loadedState : Option ℤ) (recent : List HistoryRow) : HarnessTask Unit :=
  match loadedState with
  | some lastSeenId => setLastSeenId lastSeenId
  | none => do
      setLastSeenId (initialWatermark recent)
      persistState

def runHarness (rounds : ℕ) : HarnessTask Unit := do
  orX0xError (← ask .verifyIdentity)
  let stableGroupId ← orX0xError (← ask .resolveGroup)
  let loadedState ← loadState
  let recent ← recentHistory stableGroupId
  setContext (observeRecent harness stableGroupId recent)
  restoreWatermark loadedState recent
  orFail (.publish .listening) .stateIo id
  match ← ask .startAcp with
  | .error reason => Task.fail (.acp reason)
  | .ok _ =>
      orFail (.publish .ready) .stateIo id
      harnessLoop { harness with stableGroupId := stableGroupId } rounds

/-- `async_main` publishes the failure and returns the harness result. -/
def asyncMain (rounds : ℕ) : HarnessTask Unit := do
  match ← Task.result (runHarness harness rounds) with
  | .ok _ => pure ()
  | .error error =>
      let _ ← ask (.publish .failed)
      Task.fail error

end Loop
end Buzz
