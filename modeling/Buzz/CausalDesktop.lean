import Buzz.CausalHarness

/-!
# The desktop and the system of both programs

The desktop persists a mention for one exact harness generation, rebinds
released handoffs to a fresh one and launches the harness. Its operations run
one at a time under its locks. A harness commits file operations only while it
is the one that is alive; it may die between any two of them, and so may the
desktop.
-/

namespace Buzz

open EffectProgram

abbrev DesktopTask (α : Type) : Type :=
  Task CausalRequest CausalRequest.Reply Unit String α

namespace Desktop

def ask (request : CausalRequest) : DesktopTask request.Reply :=
  Task.perform request

def orFail (request : CausalRequest) (error : String) (ok : request.Reply → Bool) :
    DesktopTask Unit := do
  let answer ← ask request
  if ok answer then pure () else Task.fail error

variable (groupId : String)

def nativeCompletedCausalExists (msgId : String) (recheck : Bool) : DesktopTask Bool := do
  match ← ask (.readCompleted msgId recheck) with
  | .missing => pure false
  | .failed => Task.fail "failed to read native completed causal message"
  | .found completed =>
      if completed.version ≠ 1 || completed.groupId ≠ groupId || completed.msgId ≠ msgId then
        Task.fail "existing native completed causal message is invalid"
      else pure true

def ensureNativeCausalMessageNotCompleted (msgId : String) (recheck : Bool) :
    DesktopTask Unit := do
  if ← nativeCompletedCausalExists groupId msgId recheck then
    Task.fail "managed mention causal message already completed"
  else pure ()

def validatePendingCausalMessage (message : PendingCausalMessage) (msgId : String) :
    Except String Unit :=
  let supportedState := message.version == 2 ||
    (message.version == 1 && (message.state = .pending || message.state = .claimed))
  if supportedState && message.groupId == groupId && message.msgId == msgId &&
      isHexText 32 message.startNonce then .ok ()
  else .error "existing native pending causal message is invalid"

def readPending (stem : String) : DesktopTask PendingCausalMessage := do
  match ← ask (.readPending stem) with
  | .found message => pure message
  | _ => Task.fail "failed to read native pending causal message"

def adoptExistingPendingCausalMessage (startNonce msgId : String) : DesktopTask Unit := do
  let existing ← readPending msgId
  Task.ofExcept (validatePendingCausalMessage groupId existing msgId)
  if existing.isBlocked then
    Task.fail
      "native pending causal message may have side effects from an earlier harness generation"
  else if existing.version == 2 && eqIgnoreAsciiCase existing.startNonce startNonce then pure ()
  else
    orFail (.writePending msgId
        { existing with
          version := 2
          startNonce := toAsciiLowercase startNonce
          state := .pending })
      "failed to replace native pending causal message" id

/-- The second look at the tombstone, once the handoff exists. -/
def confirmCreated (normalizedMsgId : String) : DesktopTask Unit := do
  match ← Task.result (ensureNativeCausalMessageNotCompleted groupId normalizedMsgId true) with
  | .ok _ => pure ()
  | .error error =>
      let _ ← ask (.removePending normalizedMsgId)
      Task.fail error

def persistNativePendingCausalMessage (startNonce msgId : String) : DesktopTask Unit := do
  if !isHexText 32 startNonce then
    Task.fail "native pending causal start nonce must be 32 hexadecimal characters"
  else if !isHexText 64 msgId then
    Task.fail "native pending causal msg id must be 64 hexadecimal characters"
  else
    orFail .ensureDir "failed to create native pending causal directory" id
    let normalizedMsgId := toAsciiLowercase msgId
    ensureNativeCausalMessageNotCompleted groupId normalizedMsgId false
    if ← ask (.pendingExists normalizedMsgId) then
      adoptExistingPendingCausalMessage groupId startNonce normalizedMsgId
    else
      let message : PendingCausalMessage :=
        ⟨2, toAsciiLowercase startNonce, groupId, normalizedMsgId, .pending⟩
      match ← ask (.createPending normalizedMsgId message) with
      | .alreadyExists => adoptExistingPendingCausalMessage groupId startNonce normalizedMsgId
      | .failed => Task.fail "failed to create native pending causal message"
      | .created => confirmCreated groupId normalizedMsgId

def rebindFile (startNonce stem : String) : DesktopTask Unit := do
  let message ← readPending stem
  Task.ofExcept (validatePendingCausalMessage groupId message message.msgId)
  if !isHexText 64 message.msgId then
    Task.fail "existing native pending causal message is invalid"
  else if ← nativeCompletedCausalExists groupId message.msgId false then
    orFail (.removePending stem) "failed to remove completed native pending causal message" id
  else if message.state = .pending || (message.version == 2 && message.state = .claimed) then
    orFail (.writePending stem
        { message with
          version := 2
          startNonce := toAsciiLowercase startNonce
          state := .pending })
      "failed to rebind native pending causal message" id
  else pure ()

def rebindReleasedPendingCausalMessages (startNonce : String) : DesktopTask Unit := do
  match ← ask .listPending with
  | none => Task.fail "failed to read native pending causal directory"
  | some stems => Task.forEach (rebindFile groupId startNonce) stems

/-- The handoff that a start is asked to leave for the harness, if any. -/
def persistRequested (startNonce : String) : Option String → DesktopTask Unit
  | some msgId => persistNativePendingCausalMessage groupId startNonce msgId
  | none => pure ()

/-- The part of `spawn_agent_child` that touches the handoffs. -/
def spawnAgentChild (pendingCausalMsgId : Option String) : DesktopTask Unit := do
  let startNonce ← ask .freshNonce
  orFail .clearLifecycle "failed to clear stale native harness lifecycle receipt" id
  rebindReleasedPendingCausalMessages groupId startNonce
  persistRequested groupId startNonce pendingCausalMsgId
  orFail (.spawn startNonce) "failed to spawn" id

/-- The branch of `start_pair` on whether the pair already runs. -/
def startPair (pendingCausalMsgId : Option String) : DesktopTask Unit := do
  match ← ask .trackedRuntime with
  | some startNonce => persistRequested groupId startNonce pendingCausalMsgId
  | none =>
      orFail .terminateUntracked "failed to terminate an untracked runtime" id
      spawnAgentChild groupId pendingCausalMsgId

end Desktop

/-- The two programs of one agent and group. -/
inductive CausalThread where
  | desktop
  | harness
  deriving DecidableEq, Repr

@[reducible]
def CausalThread.Result : CausalThread → Type
  | .desktop => Except String Unit × Unit
  | .harness => Except HarnessError Unit × HarnessMemory

abbrev CausalPool : Type :=
  Pool CausalThread CausalWorld CausalRequest CausalRequest.Reply CausalThread.Result

/-- Message identifiers of the history are unique up to case. -/
def UniqueRows (rows : List HistoryRow) : Prop :=
  ∀ row ∈ rows, ∀ other ∈ rows,
    toAsciiLowercase row.msgId = toAsciiLowercase other.msgId → row.id = other.id

/-- The daemon adds rows to the history. -/
def Arrives (w u : CausalWorld) : Prop :=
  ∃ rows, (∀ row ∈ w.rows, row ∈ rows) ∧ UniqueRows rows ∧ u = { w with rows := rows }

inductive CausalLaunches (config : Config) (decode : EnvelopeDecoder) :
    (thread : CausalThread) → CausalWorld →
      Program CausalRequest CausalRequest.Reply thread.Result → Prop where
  | desktop (w : CausalWorld) (pendingCausalMsgId : Option String) :
      CausalLaunches config decode .desktop w
        (Desktop.startPair config.groupId pendingCausalMsgId ())
  | harness (w : CausalWorld) (nonce : String) (rounds : ℕ) : w.alive = some nonce →
      CausalLaunches config decode .harness w
        (asyncMain ⟨config, decode, nonce, ""⟩ rounds ⟨0, ConversationContext.empty⟩)

/-- The desktop's second look at a tombstone does not end in an I/O error. -/
def RecheckReads : (request : CausalRequest) → request.Reply → Prop
  | .readCompleted _ true, .failed => False
  | _, _ => True

/-- The threads of one agent and group. A harness acts only while it is alive, and
one that returns or dies is no longer alive; the desktop leaves nothing behind but what it has
written. `admits` restricts the replies that occur. -/
def causalSystem (config : Config) (decode : EnvelopeDecoder)
    (admits : (request : CausalRequest) → request.Reply → Prop) :
    System CausalThread CausalWorld CausalRequest CausalRequest.Reply CausalThread.Result where
  commits := fun thread w request answer u => request.commits w answer u ∧
    admits request answer ∧ (thread = .harness → w.alive ≠ none)
  launches := CausalLaunches config decode
  stops := fun thread w u =>
    match thread with
    | .desktop => u = w
    | .harness => u = { w with alive := none }
  moves := Arrives

end Buzz
