import Buzz.EntryMap
import Buzz.WebText

/-!
# Active turns of agents

The frames of an agent are read in the order of their times. Each one that is newer
than all before it starts a turn, ends one or keeps one alive; the turns that are
open are what the badges of the channels show.
-/

namespace Buzz.AgentTurns

open WebText

section State

structure ObserverEvent where
  seq : ℕ
  timestamp : String
  kind : String
  channelId : Option String
  turnId : Option String
  startedAt : Option String
  deriving DecidableEq

structure ActiveTurn where
  turnId : String
  channelId : String
  startedAt : ℤ
  lastActivityAt : ℤ
  deriving DecidableEq

structure ActiveTurnSummary where
  channelId : String
  anchorAt : ℤ
  deriving DecidableEq

structure ActiveChannelTurnSummary where
  channelId : String
  anchorAt : ℤ
  agentCount : ℕ
  agentPubkeys : List String
  deriving DecidableEq

abbrev TurnMap := EntryMap String ActiveTurn

structure TurnsStoreSnapshot where
  turns : EntryMap String TurnMap
  offsets : EntryMap String ℤ
  watermarks : EntryMap String ObserverEvent
  terminals : EntryMap String (EntryMap String ℤ)

structure TurnsStore where
  activeTurnsByAgent : EntryMap String TurnMap
  clockOffsetByAgent : EntryMap String ℤ
  cachedTurnSummaries : EntryMap String (List ActiveTurnSummary)
  cachedChannelTurnSummaries : Option (List ActiveChannelTurnSummary)
  lastProcessed : EntryMap String ObserverEvent
  terminalAtByAgent : EntryMap String (EntryMap String ℤ)
  savedByCommunity : EntryMap String TurnsStoreSnapshot

/-- What the browser brings along. A time that cannot be parsed is missing; the collation orders all
texts. -/
structure Platform where
  dateParse : String → Option ℤ
  toLowerCase : String → String
  localeCompare : String → String → ℤ
  compare_total : ∀ a b, localeCompare a b ≤ 0 ∨ localeCompare b a ≤ 0
  compare_trans : ∀ a b c, localeCompare a b ≤ 0 → localeCompare b c ≤ 0 → localeCompare a c ≤ 0

def livenessIntervalMs : ℤ := 10000
def removeAfterMs : ℤ := 25000
def frameGapPauseMs : ℤ := livenessIntervalMs * 2
def prunePauseMaxMs : ℤ := 3 * 60000
def maxTurnsPerAgent : ℕ := 4
def maxTerminalTombstones : ℕ := maxTurnsPerAgent * 4

def emptyStore : TurnsStore :=
  ⟨EntryMap.empty, EntryMap.empty, EntryMap.empty, none, EntryMap.empty, EntryMap.empty,
    EntryMap.empty⟩

/-- A text that is there and not empty. -/
def truthy (text : Option String) : Option String := text.filter fun text => decide (text ≠ "")

end State

section Events

variable (platform : Platform)

def normalizePubkey (pubkey : String) : String := platform.toLowerCase (WebText.trim pubkey)

def compareObserverEvents (left right : ObserverEvent) : ℤ :=
  match platform.dateParse left.timestamp, platform.dateParse right.timestamp with
  | some leftTime, some rightTime =>
      if leftTime - rightTime ≠ 0 then leftTime - rightTime else (left.seq : ℤ) - right.seq
  | _, _ => (left.seq : ℤ) - right.seq

def invalidateCache (agentKey : String) (s : TurnsStore) : TurnsStore :=
  { s with
    cachedTurnSummaries := s.cachedTurnSummaries.erase agentKey
    cachedChannelTurnSummaries := none }

/-- `now` is the time of the call. -/
def sampleClockOffset (agentKey timestamp : String) (now : ℤ) (s : TurnsStore) : TurnsStore :=
  match platform.dateParse timestamp with
  | none => s
  | some parsed =>
      if (s.clockOffsetByAgent.get? agentKey).any fun prior => decide (now - parsed ≥ prior) then s
      else
        invalidateCache agentKey
          { s with clockOffsetByAgent := s.clockOffsetByAgent.set agentKey (now - parsed) }

def olderTurn (oldest : Option (String × ActiveTurn)) (entry : String × ActiveTurn) :
    Option (String × ActiveTurn) :=
  match oldest with
  | none => some entry
  | some held => if entry.2.startedAt < held.2.startedAt then some entry else oldest

def oldestTurn (turns : TurnMap) : Option (String × ActiveTurn) :=
  turns.entries.foldl olderTurn none

/-- At the cap the oldest turn goes, unless its key is the empty text. -/
def evictOldest (turns : TurnMap) (turnId : String) : TurnMap :=
  if maxTurnsPerAgent ≤ turns.entries.length ∧ (turns.get? turnId).isNone = true then
    match truthy ((oldestTurn turns).map Prod.fst) with
    | some oldestKey => turns.erase oldestKey
    | none => turns
  else turns

def startTurn (agentPubkey channelId turnId timestamp : String) (now : ℤ) (s : TurnsStore) :
    TurnsStore :=
  let key := normalizePubkey platform agentPubkey
  let agentTurns := (s.activeTurnsByAgent.get? key).getD EntryMap.empty
  let startedAt := (platform.dateParse timestamp).getD now
  invalidateCache key
    { s with
      activeTurnsByAgent := s.activeTurnsByAgent.set key
        ((evictOldest agentTurns turnId).set turnId ⟨turnId, channelId, startedAt, now⟩) }

/-- The turn that the frame belongs to, when it is open. -/
def recordActivity (agentPubkey : String) (turnId : Option String) (now : ℤ) (s : TurnsStore) :
    Option TurnsStore :=
  let key := normalizePubkey platform agentPubkey
  (truthy turnId).bind fun turnId =>
    (s.activeTurnsByAgent.get? key).bind fun agentTurns =>
      (agentTurns.get? turnId).map fun turn =>
        { s with
          activeTurnsByAgent := s.activeTurnsByAgent.set key
            (agentTurns.set turnId { turn with lastActivityAt := now }) }

def terminalAt (s : TurnsStore) (agentKey turnId : String) : Option ℤ :=
  (s.terminalAtByAgent.get? agentKey).bind fun terminals => terminals.get? turnId

/-- The turn ended at the time of the frame or after it. -/
def endedSince (terminal frameAt : Option ℤ) : Bool :=
  match terminal, frameAt with
  | none, _ => false
  | some _, none => true
  | some terminal, some frameAt => decide (frameAt ≤ terminal)

/-- The start that a frame names, when it can be one. -/
def safeStartedAt (event : ObserverEvent) : String :=
  let startedAt :=
    match event.startedAt with
    | some startedAt => if (platform.dateParse startedAt).isSome then startedAt else event.timestamp
    | none => event.timestamp
  match platform.dateParse event.timestamp, platform.dateParse startedAt with
  | some frameAt, some startedAtMs => if startedAtMs ≤ frameAt then startedAt else event.timestamp
  | _, _ => event.timestamp

def resurrectTurn (agentPubkey : String) (event : ObserverEvent) (now : ℤ) (s : TurnsStore) :
    TurnsStore :=
  match truthy event.turnId, truthy event.channelId with
  | some turnId, some channelId =>
      let key := normalizePubkey platform agentPubkey
      if endedSince (terminalAt s key turnId) (platform.dateParse event.timestamp) then s
      else startTurn platform agentPubkey channelId turnId (safeStartedAt platform event) now s
  | _, _ => s

/-- The tombstone that was set first goes when there are too many. -/
def dropOldest (terminals : EntryMap String ℤ) : EntryMap String ℤ :=
  if maxTerminalTombstones < terminals.entries.length then
    match terminals.entries.head? with
    | some oldest => terminals.erase oldest.1
    | none => terminals
  else terminals

def recordTerminal (agentKey turnId : String) (terminal : Option ℤ) (s : TurnsStore) : TurnsStore :=
  match terminal with
  | none => s
  | some terminal =>
      let terminals := (s.terminalAtByAgent.get? agentKey).getD EntryMap.empty
      { s with
        terminalAtByAgent :=
          s.terminalAtByAgent.set agentKey (dropOldest (terminals.set turnId terminal)) }

/-- The first turn in the channel. -/
def turnInChannel (turns : TurnMap) (channelId : String) : Option (String × ActiveTurn) :=
  turns.entries.find? fun entry => entry.2.channelId = channelId

def putTurns (agentKey : String) (turns : TurnMap) (s : TurnsStore) : TurnsStore :=
  { s with
    activeTurnsByAgent :=
      if turns.entries = [] then s.activeTurnsByAgent.erase agentKey
      else s.activeTurnsByAgent.set agentKey turns }

def endTurn (agentPubkey : String) (turnId channelId : Option String) (terminal : Option ℤ)
    (s : TurnsStore) : TurnsStore :=
  let key := normalizePubkey platform agentPubkey
  match truthy turnId with
  | some turnId =>
      let s := recordTerminal key turnId terminal s
      match s.activeTurnsByAgent.get? key with
      | none => s
      | some agentTurns => invalidateCache key (putTurns key (agentTurns.erase turnId) s)
  | none =>
      match s.activeTurnsByAgent.get? key with
      | none => s
      | some agentTurns =>
          match (truthy channelId).bind (turnInChannel agentTurns) with
          | some entry =>
              invalidateCache key (putTurns key (agentTurns.erase entry.1)
                (recordTerminal key entry.1 terminal s))
          | none => invalidateCache key (putTurns key agentTurns s)

def terminalKinds : List String := ["turn_completed", "turn_error", "agent_panic"]

def frameKinds : List String := ["acp_read", "acp_write", "turn_liveness"]

/-- The key of the turn that an event starts. -/
def startedTurnId (event : ObserverEvent) : String :=
  event.turnId.getD ("seq-" ++ toString event.seq)

/-- The event is newer than the last one of its agent. -/
def passesWatermark (agentKey : String) (event : ObserverEvent) (s : TurnsStore) : Bool :=
  (s.lastProcessed.get? agentKey).all fun last =>
    decide (0 < compareObserverEvents platform event last)

/-- What an event does after it has passed. -/
def applyEvent (agentPubkey : String) (event : ObserverEvent) (now : ℤ) (s : TurnsStore) :
    TurnsStore :=
  if event.kind = "turn_started" then
    match truthy event.channelId with
    | some channelId =>
        startTurn platform agentPubkey channelId (startedTurnId event) event.timestamp now s
    | none => s
  else if event.kind ∈ terminalKinds then
    endTurn platform agentPubkey event.turnId event.channelId (platform.dateParse event.timestamp) s
  else if event.kind ∈ frameKinds then
    match recordActivity platform agentPubkey event.turnId now s with
    | some refreshed => refreshed
    | none => resurrectTurn platform agentPubkey event now s
  else s

def processEvent (agentPubkey : String) (event : ObserverEvent) (now : ℤ) (s : TurnsStore) :
    TurnsStore :=
  let key := normalizePubkey platform agentPubkey
  if passesWatermark platform key event s then
    applyEvent platform agentPubkey event now
      (sampleClockOffset platform key event.timestamp now
        { s with lastProcessed := s.lastProcessed.set key event })
  else s

/-- Each event comes with the time at which it is processed. -/
def syncAgentTurnsFromEvents (agentPubkey : String) (events : List (ObserverEvent × ℤ))
    (s : TurnsStore) : TurnsStore :=
  events.foldl (fun s event => processEvent platform agentPubkey event.1 event.2 s) s

end Events

section Pruning

def shouldPausePrune (agentTurns : TurnMap) (now : ℤ) : Bool :=
  let maxActivity := agentTurns.entries.foldl (fun latest entry =>
    if latest < entry.2.lastActivityAt then entry.2.lastActivityAt else latest) 0
  decide (0 < maxActivity) && decide (frameGapPauseMs < now - maxActivity) &&
    decide (now - maxActivity < prunePauseMaxMs)

def unexpired (now : ℤ) (turns : TurnMap) : TurnMap :=
  turns.filter fun entry => !decide (removeAfterMs < now - entry.2.lastActivityAt)

def pruneAgent (now : ℤ) (s : TurnsStore) (agentKey : String) : TurnsStore :=
  match s.activeTurnsByAgent.get? agentKey with
  | none => s
  | some agentTurns =>
      if shouldPausePrune agentTurns now then s
      else
        let kept := unexpired now agentTurns
        putTurns agentKey kept
          (if kept.entries.length < agentTurns.entries.length then invalidateCache agentKey s
            else s)

def pruneExpired (now : ℤ) (s : TurnsStore) : TurnsStore :=
  (s.activeTurnsByAgent.entries.map Prod.fst).foldl (pruneAgent now) s

end Pruning

section Summaries

variable (platform : Platform)

/-- The earliest start in each channel. -/
def earliestByChannel (turns : TurnMap) : EntryMap String ℤ :=
  turns.entries.foldl (fun earliest entry =>
    if (earliest.get? entry.2.channelId).any fun prior => decide (prior ≤ entry.2.startedAt) then
      earliest
    else earliest.set entry.2.channelId entry.2.startedAt) EntryMap.empty

def turnSummaries (offset : ℤ) (turns : TurnMap) : List ActiveTurnSummary :=
  ((earliestByChannel turns).entries.map fun entry =>
    (⟨entry.1, entry.2 + offset⟩ : ActiveTurnSummary)).mergeSort
      fun a b => decide (platform.localeCompare a.channelId b.channelId ≤ 0)

def getActiveTurnsForAgent (agentPubkey : Option String) (s : TurnsStore) :
    List ActiveTurnSummary × TurnsStore :=
  match truthy agentPubkey with
  | none => ([], s)
  | some agentPubkey =>
      let key := normalizePubkey platform agentPubkey
      match s.activeTurnsByAgent.get? key with
      | none => ([], s)
      | some agentTurns =>
          if agentTurns.entries = [] then ([], s)
          else
            match s.cachedTurnSummaries.get? key with
            | some cached => (cached, s)
            | none =>
                let result :=
                  turnSummaries platform ((s.clockOffsetByAgent.get? key).getD 0) agentTurns
                (result, { s with cachedTurnSummaries := s.cachedTurnSummaries.set key result })

/-- The earliest anchor in a channel and the agents that work there. -/
abbrev ChannelTurns := EntryMap String (ℤ × List String)

def addTurn (agentKey : String) (offset : ℤ) (summaries : ChannelTurns)
    (entry : String × ActiveTurn) : ChannelTurns :=
  let anchorAt := entry.2.startedAt + offset
  match summaries.get? entry.2.channelId with
  | none => summaries.set entry.2.channelId (anchorAt, [agentKey])
  | some summary =>
      summaries.set entry.2.channelId
        (if anchorAt < summary.1 then anchorAt else summary.1,
          if agentKey ∈ summary.2 then summary.2 else summary.2 ++ [agentKey])

def channelTurns (s : TurnsStore) : ChannelTurns :=
  s.activeTurnsByAgent.entries.foldl (fun summaries agent =>
    agent.2.entries.foldl
      (addTurn agent.1 ((s.clockOffsetByAgent.get? agent.1).getD 0)) summaries) EntryMap.empty

def channelTurnSummaries (s : TurnsStore) : List ActiveChannelTurnSummary :=
  ((channelTurns s).entries.map fun entry =>
    (⟨entry.1, entry.2.1, entry.2.2.length, entry.2.2.mergeSort fun a b => !stringLt b a⟩ :
      ActiveChannelTurnSummary)).mergeSort
        fun a b => decide (platform.localeCompare a.channelId b.channelId ≤ 0)

def getActiveTurnsByChannel (s : TurnsStore) : List ActiveChannelTurnSummary × TurnsStore :=
  match s.cachedChannelTurnSummaries with
  | some cached => (cached, s)
  | none =>
      if s.activeTurnsByAgent.entries = [] then ([], s)
      else
        let result := channelTurnSummaries platform s
        (result, { s with cachedChannelTurnSummaries := some result })

end Summaries

section Communities

def resetActiveAgentTurnsStore (s : TurnsStore) : TurnsStore :=
  { emptyStore with savedByCommunity := s.savedByCommunity }

def saveActiveAgentTurnsForCommunity (communityId : String) (s : TurnsStore) : TurnsStore :=
  if s.activeTurnsByAgent.entries = [] ∧ s.terminalAtByAgent.entries = [] then
    { s with savedByCommunity := s.savedByCommunity.erase communityId }
  else
    { s with
      savedByCommunity := s.savedByCommunity.set communityId
        ⟨s.activeTurnsByAgent, s.clockOffsetByAgent, s.lastProcessed, s.terminalAtByAgent⟩ }

def restoreActiveAgentTurnsForCommunity (communityId : String) (now : ℤ) (s : TurnsStore) :
    TurnsStore :=
  match s.savedByCommunity.get? communityId with
  | none => s
  | some snap =>
      { activeTurnsByAgent := snap.turns.mapValues fun agentTurns =>
          agentTurns.mapValues fun turn => { turn with lastActivityAt := now }
        clockOffsetByAgent := snap.offsets
        cachedTurnSummaries := EntryMap.empty
        cachedChannelTurnSummaries := none
        lastProcessed := snap.watermarks
        terminalAtByAgent := snap.terminals
        savedByCommunity := s.savedByCommunity.erase communityId }

def clearSavedCommunitySnapshot (communityId : String) (s : TurnsStore) : TurnsStore :=
  { s with savedByCommunity := s.savedByCommunity.erase communityId }

end Communities

section Runs

variable (platform : Platform)

inductive TurnOp where
  | sync (agentPubkey : String) (events : List (ObserverEvent × ℤ))
  | prune (now : ℤ)
  | reset
  | save (communityId : String)
  | restore (communityId : String) (now : ℤ)
  | clearSaved (communityId : String)
  | readAgent (agentPubkey : Option String)
  | readChannels

def step (s : TurnsStore) : TurnOp → TurnsStore
  | .sync agentPubkey events => syncAgentTurnsFromEvents platform agentPubkey events s
  | .prune now => pruneExpired now s
  | .reset => resetActiveAgentTurnsStore s
  | .save communityId => saveActiveAgentTurnsForCommunity communityId s
  | .restore communityId now => restoreActiveAgentTurnsForCommunity communityId now s
  | .clearSaved communityId => clearSavedCommunitySnapshot communityId s
  | .readAgent agentPubkey => (getActiveTurnsForAgent platform agentPubkey s).2
  | .readChannels => (getActiveTurnsByChannel platform s).2

def run (ops : List TurnOp) : TurnsStore := ops.foldl (step platform) emptyStore

end Runs

end Buzz.AgentTurns
