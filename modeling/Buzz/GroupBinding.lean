import Buzz.AsciiText
import Buzz.JsonValue
import Buzz.ProgramTraces

/-!
# Binding a managed agent to its community

Before a harness starts, the child daemon of the agent is brought up, the owner
and the child exchange cards and the child is made a member of the owner's group.
All of it is a conversation with two daemons and the keeper of the children, whose
answers may be anything. A start at launch of the application may only use what
exists.
-/

namespace Buzz.ManagedAgents

open EffectProgram

section Types

inductive BackendKind where
  | local
  | provider
  deriving DecidableEq, Repr

inductive RespondTo where
  | ownerOnly
  | allowlist
  | anyone
  deriving DecidableEq, Repr

structure ManagedAgentRecord where
  pubkey : String
  name : String
  backend : BackendKind
  startOnAppLaunch : Bool
  respondTo : RespondTo
  respondToAllowlist : List String
  updatedAt : String
  runtimePid : Option ℕ
  lastStartedAt : Option String
  lastStoppedAt : Option String
  lastExitCode : Option ℤ
  lastError : Option String
  lastErrorCode : Option String
  deriving DecidableEq, Repr

structure ManagedAgentChild where
  agentId : String
  dataDir : String
  deriving DecidableEq, Repr

inductive GroupBindIntent where
  | ensureAttached
  | existingOnly (expectedChildAgentId : String)
  deriving DecidableEq, Repr

structure ManagedAgentLaunchContext where
  childAgentId : String
  ownerAgentId : String
  childDataDir : String
  groupId : String
  effectiveRespondToAllowlist : List String
  deriving DecidableEq, Repr

inductive X0xClientError where
  | daemonUnavailable (stage : String)
  | transport (message : String)
  | status (code : ℕ) (message : String)
  | decode (message : String)
  deriving DecidableEq, Repr

structure ChildHttpError where
  status : Option ℕ
  message : String
  deriving DecidableEq, Repr

inductive AgentChildError where
  | noDataDir
  | spawnFailed (sidecar reason : String)
  | timeoutHealth
  | timeoutAgentCard
  | invalidAgentCard (reason : String)
  deriving DecidableEq, Repr

/-- The requests of a launch. The keeper of the children is asked for the running child of an
instance, for the identity that its key file holds and for the directory of its configuration. -/
inductive LaunchRequest where
  | ownerGet (path : String) (query : List (String × String))
  | ownerPost (path : String) (body : Json)
  | ownerDelete (path : String)
  | childGet (dataDir path : String)
  | childPost (dataDir path : String) (body : Json)
  | deadlinePassed
  | loadManagedAgents
  | runningChild (instanceName : String)
  | persistedIdentity (instanceName : String)
  | resolveConfig (instanceName : String)
  | createDataDir (dataDir : String)
  | bringUp (instanceName : String)
  | keepChild (instanceName : String) (child : ManagedAgentChild)
  | buildHttpClient

def LaunchRequest.Reply : LaunchRequest → Type
  | ownerGet _ _ => Except X0xClientError Json
  | ownerPost _ _ => Except X0xClientError Json
  | ownerDelete _ => Except X0xClientError Json
  | childGet _ _ => Except ChildHttpError Json
  | childPost _ _ _ => Except ChildHttpError Json
  | deadlinePassed => Bool
  | loadManagedAgents => Except String (List ManagedAgentRecord)
  | runningChild _ => Option ManagedAgentChild
  | persistedIdentity _ => Except AgentChildError (Option ManagedAgentChild)
  | resolveConfig _ => Except AgentChildError String
  | createDataDir _ => Except String Unit
  | bringUp _ => Except AgentChildError ManagedAgentChild
  | keepChild _ _ => Unit
  | buildHttpClient => Except String Unit

abbrev Launch := Task LaunchRequest LaunchRequest.Reply Unit String

end Types

section Text

def X0xClientError.display : X0xClientError → String
  | daemonUnavailable stage => "x0xd unavailable (" ++ stage ++ ")"
  | transport message => "x0xd transport error: " ++ message
  | status code message =>
      if message.contains "/direct/send" || message.contains "\"error\"" then
        "x0xd returned HTTP " ++ toString code ++ ": " ++ message
      else message
  | decode message => "x0xd response decode error: " ++ message

def AgentChildError.display : AgentChildError → String
  | noDataDir => "could not resolve the managed-agent data directory"
  | spawnFailed sidecar reason => sidecar ++ " spawn failed: " ++ reason
  | timeoutHealth => "timed out waiting for agent-child health"
  | timeoutAgentCard => "timed out waiting for the agent-child AgentCard"
  | invalidAgentCard reason => "agent-child AgentCard was invalid: " ++ reason

/-- One byte of a path segment, percent-encoded unless it is unreserved. -/
def encodeByte (byte : UInt8) : List Char :=
  let c := Char.ofNat byte.toNat
  if byte.toNat < 128 && (c.isAlphanum || c == '-' || c == '.' || c == '_' || c == '~') then [c]
  else ['%', (Nat.digitChar (byte.toNat / 16)).toUpper, (Nat.digitChar (byte.toNat % 16)).toUpper]

def pathSegment (value : String) : Except String String :=
  if value = "" then .error "x0xd path identifier must not be empty"
  else .ok (String.ofList (value.toUTF8.toList.flatMap encodeByte))

def isCanonicalLowerHexId (candidate : String) : Bool :=
  isHexText 64 candidate && toAsciiLowercase candidate == candidate

/-- The debug form of a text: quoted, with the usual escapes. -/
def debugText (s : String) : String :=
  "\"" ++ String.ofList (s.toList.flatMap fun c =>
    if c = '"' then ['\\', '"'] else if c = '\\' then ['\\', '\\'] else if c = '\n' then ['\\', 'n']
    else if c = '\r' then ['\\', 'r'] else if c = '\t' then ['\\', 't'] else [c]) ++ "\""

end Text

section Groups

inductive GroupMemberState where
  | absent
  | active
  | banned
  | other (state : String)
  deriving DecidableEq, Repr

def rosterRevision (group : Json) : Except String UInt64 :=
  match group.getU64 "roster_revision" with
  | some revision => .ok revision
  | none => .error "x0xd community response is missing roster_revision"

def groupMemberState (group : Json) (agentId : String) : GroupMemberState :=
  let member := (group.getArray "members").bind fun members =>
    members.find? fun member => member.getStr "agent_id" == some agentId
  match member.bind (·.getStr "state") with
  | none => .absent
  | some "active" => .active
  | some "banned" => .banned
  | some other => .other other

def rejectBannedMember (state : GroupMemberState) (agentId location : String) :
    Except String Unit :=
  if state = .banned then
    .error ("managed-agent child " ++ agentId ++ " is banned in the " ++ location ++
      "; explicitly unban it before starting the runtime")
  else .ok ()

def requireActiveMember (group : Json) (agentId location : String) : Except String Unit := do
  let state := groupMemberState group agentId
  rejectBannedMember state agentId location
  if state ≠ .active then
    throw ("managed-agent child " ++ agentId ++ " is not active in the " ++ location ++
      "; manual roster repair is required")

def requireSignedPublicGroup (group : Json) (groupId : String) : Except String Unit :=
  if (group.get "policy").bind (·.getStr "confidentiality") = some "signed_public" then .ok ()
  else
    .error ("community " ++ groupId ++
      " is not signed_public; managed-agent direct attachment is unsupported")

/-- The state of the last entry of the child, once every entry has been read. -/
def existingMemberState (groupId childAgentId : String) (childState : Option String) :
    List Json → Except String (Option String)
  | [] => .ok childState
  | member :: rest =>
      match member.getStr "agent_id", member.getStr "state" with
      | none, _ => .error ("community " ++ groupId ++ " contains a malformed member AgentId")
      | _, none => .error ("community " ++ groupId ++ " contains a malformed member state")
      | some agentId, some state =>
          existingMemberState groupId childAgentId
            (if agentId = childAgentId then some state else childState) rest

def ownerGroupHasExistingActiveMember (group : Json) (groupId childAgentId : String) :
    Except String Bool := do
  requireSignedPublicGroup group groupId
  match group.getArray "members" with
  | none => throw ("community " ++ groupId ++ " response is missing a members array")
  | some members =>
      return (← existingMemberState groupId childAgentId none members) == some "active"

structure MembershipBinding where
  attachAgentId : String
  removeLegacyAgentId : Option String
  deriving DecidableEq, Repr

def membershipBinding (recordPubkey childAgentId ownerAgentId : String) : MembershipBinding where
  attachAgentId := childAgentId
  removeLegacyAgentId :=
    if !eqIgnoreAsciiCase recordPubkey childAgentId &&
      !eqIgnoreAsciiCase recordPubkey ownerAgentId then some recordPubkey else none

def groupMemberBody (agentId displayName : String) : Json :=
  .object [("agent_id", .string agentId), ("display_name", .string displayName)]

structure GroupStateProjection where
  groupId : String
  genesis : Json
  rosterRoot : String
  policyHash : String
  publicMetaHash : String
  securityBinding : Json
  withdrawn : Bool
  stateHash : String
  stateRevision : UInt64
  deriving DecidableEq, Repr

namespace GroupStateProjection

def requiredString (value : Json) (field : String) : Except String String :=
  match (value.getStr field).filter (· ≠ "") with
  | some text => .ok text
  | none => .error ("x0xd group state is missing " ++ field)

def required {α : Type} (value : Option α) (field : String) : Except String α :=
  match value with
  | some found => .ok found
  | none => .error ("x0xd group state is missing " ++ field)

def fromValue (value : Json) (expectedGroupId : String) : Except String GroupStateProjection := do
  let groupId ← requiredString value "group_id"
  if groupId ≠ expectedGroupId then throw "x0xd group state returned a different group_id"
  let genesis ← required ((value.get "genesis").filter Json.isObject) "genesis"
  if genesis.getStr "group_id" ≠ some expectedGroupId then
    throw "x0xd group state genesis returned a different group_id"
  let securityBinding ← required (value.get "security_binding") "security_binding"
  let withdrawn ← required (value.getBool "withdrawn") "withdrawn"
  let stateRevision ← required (value.getU64 "state_revision") "state_revision"
  return {
    groupId := groupId
    genesis := genesis
    rosterRoot := ← requiredString value "roster_root"
    policyHash := ← requiredString value "policy_hash"
    publicMetaHash := ← requiredString value "public_meta_hash"
    securityBinding := securityBinding
    withdrawn := withdrawn
    stateHash := ← requiredString value "state_hash"
    stateRevision := stateRevision }

def authoritativeProjectionEq (a b : GroupStateProjection) : Bool :=
  a.groupId == b.groupId && a.genesis == b.genesis && a.rosterRoot == b.rosterRoot &&
    a.policyHash == b.policyHash && a.publicMetaHash == b.publicMetaHash &&
    a.securityBinding == b.securityBinding && a.withdrawn == b.withdrawn

end GroupStateProjection

inductive ChildGroupObservation where
  | missing
  | strict
  | equivalent
  | presentStale
  deriving DecidableEq, Repr

def ChildGroupObservation.debug : ChildGroupObservation → String
  | missing => "Missing"
  | strict => "Strict"
  | equivalent => "Equivalent"
  | presentStale => "PresentStale"

inductive ActiveOwnerAction where
  | keep
  | repairMissing
  | rejectStale
  deriving DecidableEq, Repr

def activeOwnerAction : ChildGroupObservation → ActiveOwnerAction
  | .strict => .keep
  | .equivalent => .keep
  | .missing => .repairMissing
  | .presentStale => .rejectStale

structure ChildGroupExpectation where
  groupPath : String
  groupId : String
  ownerState : GroupStateProjection
  forbiddenAgentId : Option String

structure OwnerGroupExpectation where
  groupPath : String
  groupId : String
  rosterRevision : UInt64
  requiredAgentId : String
  requiredMemberState : GroupMemberState
  forbiddenAgentId : Option String

end Groups

section Conversation

def ask (request : LaunchRequest) : Launch request.Reply :=
  Task.perform request

/-- The answer to a fallible request, with `label` before the error. -/
def answerOf {ε α : Type} (label : String) (display : ε → String) : Except ε α → Launch α
  | .ok value => pure value
  | .error error => Task.fail (label ++ ": " ++ display error)

def ownerGetJson (path : String) (query : List (String × String)) (label : String) :
    Launch Json := do
  let answer ← ask (.ownerGet path query)
  answerOf label X0xClientError.display answer

def childGetJson (child : ManagedAgentChild) (path label : String) : Launch Json := do
  let answer ← ask (.childGet child.dataDir path)
  answerOf label ChildHttpError.message answer

def childPostJson (child : ManagedAgentChild) (path : String) (body : Json) (label : String) :
    Launch Json := do
  let answer ← ask (.childPost child.dataDir path body)
  answerOf label ChildHttpError.message answer

def validateOwnerGroupSnapshot (stateBefore : GroupStateProjection) (group : Json)
    (stateAfter : GroupStateProjection) (expectation : OwnerGroupExpectation) :
    Except String Unit := do
  requireSignedPublicGroup group expectation.groupId
  if (← rosterRevision group) ≠ expectation.rosterRevision then
    throw ("owner community roster changed while its state was being read (expected revision " ++
      toString expectation.rosterRevision ++ ")")
  if groupMemberState group expectation.requiredAgentId ≠ expectation.requiredMemberState then
    throw "owner community required membership changed while its state was being read"
  if expectation.forbiddenAgentId.any (groupMemberState group · = .active) then
    throw "owner community forbidden legacy membership remained active after migration"
  if !(stateBefore == stateAfter) then
    throw "owner community state changed while it was being read"

def readOwnerGroupState (expectation : OwnerGroupExpectation) : Launch GroupStateProjection := do
  let statePath := expectation.groupPath ++ "/state"
  let stateBefore ← ownerGetJson statePath [] "owner community state lookup failed"
  let projectionBefore ← .ofExcept (GroupStateProjection.fromValue stateBefore expectation.groupId)
  let group ← ownerGetJson expectation.groupPath [] "owner community snapshot lookup failed"
  let stateAfter ← ownerGetJson statePath [] "owner community state recheck failed"
  let projectionAfter ← .ofExcept (GroupStateProjection.fromValue stateAfter expectation.groupId)
  .ofExcept (validateOwnerGroupSnapshot projectionBefore group projectionAfter expectation)
  if projectionAfter.withdrawn then
    .fail ("owner community " ++ expectation.groupId ++
      " is withdrawn; managed-agent launch is unavailable")
  else pure projectionAfter

/-- Not found is an answer, any other error is not. -/
def readChildGroupState (child : ManagedAgentChild) (statePath groupId : String) :
    Launch (Option GroupStateProjection) := do
  let answer : Except ChildHttpError Json ← ask (.childGet child.dataDir statePath)
  match answer with
  | .ok state => .ofExcept ((GroupStateProjection.fromValue state groupId).map some)
  | .error ⟨some 404, _⟩ => pure none
  | .error error => .fail ("managed-agent community state lookup failed: " ++ error.message)

/-- What the child's own view of the group amounts to. -/
def classifyChildGroup (child : ManagedAgentChild) (expectation : ChildGroupExpectation)
    (stateBefore stateAfter : Option GroupStateProjection) (group : Json) :
    Except String ChildGroupObservation := do
  requireSignedPublicGroup group expectation.groupId
  let childState := groupMemberState group child.agentId
  rejectBannedMember childState child.agentId "managed-agent child community"
  let containsForbiddenActive :=
    expectation.forbiddenAgentId.any (groupMemberState group · = .active)
  if childState ≠ .active || containsForbiddenActive then return .presentStale
  match stateBefore, stateAfter with
  | some before, some after =>
      if !(before == after) || after.withdrawn then return .presentStale
      if after.stateRevision == expectation.ownerState.stateRevision &&
          after.stateHash == expectation.ownerState.stateHash then return .strict
      if after.authoritativeProjectionEq expectation.ownerState then return .equivalent
      return .presentStale
  | _, _ => return .presentStale

def lookupChildGroup (child : ManagedAgentChild) (groupPath : String) : Launch (Option Json) := do
  let answer : Except ChildHttpError Json ← ask (.childGet child.dataDir groupPath)
  match answer with
  | .ok group => pure (some group)
  | .error ⟨some 404, _⟩ => pure none
  | .error error => .fail ("managed-agent community lookup failed: " ++ error.message)

def observeChildGroup (child : ManagedAgentChild) (expectation : ChildGroupExpectation) :
    Launch ChildGroupObservation := do
  let statePath := expectation.groupPath ++ "/state"
  let stateBefore ← readChildGroupState child statePath expectation.groupId
  let group ← lookupChildGroup child expectation.groupPath
  let stateAfter ← readChildGroupState child statePath expectation.groupId
  match group with
  | none =>
      pure (if stateBefore.isNone && stateAfter.isNone then .missing else .presentStale)
  | some group => .ofExcept (classifyChildGroup child expectation stateBefore stateAfter group)

/-- Every poll but the last sleeps for the poll interval, so the deadline has passed after
`polls` of them. -/
def waitForChildGroupObservation (child : ManagedAgentChild) (expectation : ChildGroupExpectation)
    (sawPresent : Bool) : ℕ → Launch ChildGroupObservation
  | 0 => do
      let observation ← observeChildGroup child expectation
      pure (if observation = .strict ∨ observation = .equivalent then observation
        else if sawPresent || observation = .presentStale then .presentStale else .missing)
  | polls + 1 => do
      let observation ← observeChildGroup child expectation
      if observation = .strict ∨ observation = .equivalent then pure observation
      else
        let sawPresent := sawPresent || observation = .presentStale
        let passed : Bool ← ask .deadlinePassed
        if passed then pure (if sawPresent then .presentStale else .missing)
        else waitForChildGroupObservation child expectation sawPresent polls

/-- Milliseconds. -/
def groupConvergencePoll : ℕ := 250

def groupConvergenceTimeout : ℕ := 15000

def childGroupRestoreGrace : ℕ := 3000

def waitForChildGroup (child : ManagedAgentChild) (expectation : ChildGroupExpectation) :
    Launch Unit := do
  let observation ← waitForChildGroupObservation child expectation false
    (groupConvergenceTimeout / groupConvergencePoll)
  if observation = .strict ∨ observation = .equivalent then pure ()
  else
    .fail ("managed-agent community " ++ expectation.groupId ++ " did not converge on child " ++
      child.agentId ++ " at roster revision " ++ toString expectation.ownerState.stateRevision ++
      " within " ++ toString (groupConvergenceTimeout / 1000) ++ " seconds (" ++
      observation.debug ++ ")")

def removeOwnerMember (encodedGroup agentId : String) : Launch Unit := do
  let encodedAgent ← .ofExcept (pathSegment agentId)
  let answer ← ask
    (.ownerDelete ("/groups/" ++ encodedGroup ++ "/members/" ++ encodedAgent))
  let _ ← answerOf "community member migration failed" X0xClientError.display answer

end Conversation

section Catchup

def stateCommitsApplyMax : ℕ := 500

structure ChildCatchupHead where
  state : GroupStateProjection
  rosterRevision : UInt64

structure ValidatedOwnerCatchup where
  commits : List Json
  childRevision : UInt64

def catchupProjectionCompatible (child owner : GroupStateProjection) : Bool :=
  child.groupId == owner.groupId && child.genesis == owner.genesis &&
    child.policyHash == owner.policyHash && child.publicMetaHash == owner.publicMetaHash &&
    child.securityBinding == owner.securityBinding && child.withdrawn == owner.withdrawn

/-- The checks of the child's snapshot; the result is its roster revision. -/
def checkCatchupSnapshot (child : ManagedAgentChild) (expectation : ChildGroupExpectation)
    (ownerRosterRevision : UInt64) (group : Json) : Except String UInt64 := do
  requireSignedPublicGroup group expectation.groupId
  let childState := groupMemberState group child.agentId
  rejectBannedMember childState child.agentId "managed-agent child community"
  if childState ≠ .active then
    throw ("managed-agent child " ++ child.agentId ++
      " is not active in its local community snapshot")
  if expectation.forbiddenAgentId.any (groupMemberState group · = .active) then
    throw "managed-agent child retains forbidden active membership"
  let childRosterRevision ← rosterRevision group
  if ownerRosterRevision < childRosterRevision then
    throw "managed-agent child roster is ahead of the owner roster"
  return childRosterRevision

def requireSome {α : Type} (value : Option α) (error : String) : Launch α :=
  match value with
  | some found => pure found
  | none => .fail error

def readChildCatchupHead (child : ManagedAgentChild) (expectation : ChildGroupExpectation)
    (ownerRosterRevision : UInt64) : Launch ChildCatchupHead := do
  let statePath := expectation.groupPath ++ "/state"
  let before ← readChildGroupState child statePath expectation.groupId
  let before ← requireSome before "managed-agent community catch-up child state is missing"
  let group ← childGetJson child expectation.groupPath
    "managed-agent community catch-up lookup failed"
  let childRosterRevision ← .ofExcept
    (checkCatchupSnapshot child expectation ownerRosterRevision group)
  let after ← readChildGroupState child statePath expectation.groupId
  let after ← requireSome after "managed-agent community catch-up child state disappeared"
  if !(before == after) then
    .fail "managed-agent child community changed during catch-up inspection"
  else if after.withdrawn then .fail "managed-agent child community is withdrawn"
  else pure ⟨after, childRosterRevision⟩

/-- The commits form a chain from `predecessor` at `expectedRevision` on. -/
def checkCommits (owner : GroupStateProjection) (expectedRevision : ℕ) (predecessor : String) :
    List Json → Except String Unit
  | [] => .ok ()
  | entry :: rest =>
      match (entry.get "commit").filter Json.isObject with
      | none => .error "owner retained community history is missing a commit"
      | some commit =>
          if !((entry.get "roster").any Json.isObject) ||
              entry.getBool "roster_root_verified" ≠ some true ||
              commit.getStr "group_id" ≠ some owner.groupId ||
              (commit.getU64 "revision").map UInt64.toNat ≠ some expectedRevision ||
              commit.getStr "prev_state_hash" ≠ some predecessor ||
              commit.getBool "withdrawn" ≠ some false then
            .error "owner retained community history contains a gap, fork, or invalid projection"
          else
            match (commit.getStr "state_hash").filter (· ≠ "") with
            | none => .error "owner retained community commit is missing state_hash"
            | some hash =>
                if expectedRevision + 1 = 2 ^ 64 then
                  .error "managed-agent community catch-up revision overflowed"
                else checkCommits owner (expectedRevision + 1) hash rest

def validateOwnerCatchupHistory (history : Json) (child owner : GroupStateProjection) :
    Except String ValidatedOwnerCatchup := do
  if history.getStr "group_id" ≠ some owner.groupId ||
      history.getU64 "state_revision" ≠ some owner.stateRevision ||
      history.getBool "withdrawn" ≠ some false then
    throw "owner retained community history does not match its state head"
  let nextRevision := child.stateRevision.toNat + 1
  if nextRevision = 2 ^ 64 then
    throw "managed-agent community catch-up cannot advance an exhausted revision"
  if owner.stateRevision.toNat ≤ child.stateRevision.toNat then
    throw "child state is not behind the owner state"
  let expectedCount := owner.stateRevision.toNat - child.stateRevision.toNat
  if stateCommitsApplyMax < expectedCount then
    throw "owner retained community history exceeds one safe catch-up batch"
  match history.getU64 "first_available_revision" with
  | none => throw "owner retained community history has no lower bound"
  | some firstRetainedRevision =>
      if (history.getU64 "from_revision").map UInt64.toNat ≠ some nextRevision ||
          nextRevision < firstRetainedRevision.toNat ||
          history.getU64 "latest_retained_revision" ≠ some owner.stateRevision ||
          (history.getU64 "count").map UInt64.toNat ≠ some expectedCount ||
          history.getBool "has_more" ≠ some false then
        throw "owner retained community history is incomplete or non-contiguous"
  match (history.getArray "commits").filter (·.length == expectedCount) with
  | none => throw "owner retained community history has an unexpected batch size"
  | some commits =>
      checkCommits owner nextRevision child.stateHash commits
      match commits.getLast?.bind (·.get "commit") with
      | none => throw "owner retained community history is empty"
      | some last =>
          if last.getStr "state_hash" ≠ some owner.stateHash ||
              last.getStr "roster_root" ≠ some owner.rosterRoot ||
              last.getStr "policy_hash" ≠ some owner.policyHash ||
              last.getStr "public_meta_hash" ≠ some owner.publicMetaHash ||
              !(last.get "security_binding" == some owner.securityBinding) then
            throw "owner retained community history does not terminate at its state head"
          return ⟨commits, child.stateRevision⟩

def validateChildApplyResponse (response : Json) (expectation : ChildGroupExpectation)
    (targetRosterRevision : UInt64) (batch : ValidatedOwnerCatchup) : Except String Unit :=
  let owner := expectation.ownerState
  if response.getBool "ok" ≠ some true || response.getStr "group_id" ≠ some expectation.groupId ||
      (response.getU64 "applied").map UInt64.toNat ≠ some batch.commits.length ||
      response.getU64 "from_revision" ≠ some batch.childRevision ||
      response.getU64 "state_revision" ≠ some owner.stateRevision ||
      response.getU64 "roster_revision" ≠ some targetRosterRevision ||
      response.getStr "state_hash" ≠ some owner.stateHash ||
      response.getStr "roster_root" ≠ some owner.rosterRoot ||
      response.getBool "withdrawn" ≠ some false then
    .error "managed-agent retained community catch-up returned an inconsistent result"
  else .ok ()

def requireChildStrict (child : ManagedAgentChild) (expectation : ChildGroupExpectation)
    (targetRosterRevision : UInt64) : Launch Unit := do
  let observation ← waitForChildGroupObservation child expectation false
    (groupConvergenceTimeout / groupConvergencePoll)
  if observation ≠ .strict then
    .fail ("managed-agent retained community catch-up did not reach the exact owner head (" ++
      observation.debug ++ ")")
  else do
    let confirmed ← readChildCatchupHead child expectation targetRosterRevision
    if confirmed.rosterRevision ≠ targetRosterRevision ∨
        ¬(confirmed.state == expectation.ownerState) then
      .fail "managed-agent retained community catch-up did not preserve the exact owner frontier"
    else pure ()

def requireOwnerUnchanged (expectation : OwnerGroupExpectation) (expected : GroupStateProjection) :
    Launch Unit := do
  let current ← readOwnerGroupState expectation
  if !(current == expected) then
    .fail "owner community changed during child catch-up; retry without owner mutation"
  else pure ()

def applyValidatedChildCatchup (child : ManagedAgentChild) (expectation : ChildGroupExpectation)
    (targetRosterRevision : UInt64) (batch : ValidatedOwnerCatchup) : Launch Unit := do
  let response ← childPostJson child (expectation.groupPath ++ "/state/commits/apply")
    (.object [("commits", .array batch.commits),
      ("target_roster_revision", .number (.posInt targetRosterRevision))])
    "managed-agent retained community catch-up failed"
  .ofExcept (validateChildApplyResponse response expectation targetRosterRevision batch)
  requireChildStrict child expectation targetRosterRevision

def catchUpChildFromOwnerHistory (child : ManagedAgentChild)
    (ownerExpectation : OwnerGroupExpectation) (childExpectation : ChildGroupExpectation) :
    Launch Unit := do
  let childSnapshot ← readChildCatchupHead child childExpectation ownerExpectation.rosterRevision
  let childHead := childSnapshot.state
  let ownerHead := childExpectation.ownerState
  if !catchupProjectionCompatible childHead ownerHead then
    .fail ("managed-agent community " ++ childExpectation.groupId ++
      " has an incompatible child projection; retained catch-up is unsafe")
  else if childHead.stateRevision == ownerHead.stateRevision &&
      childHead.stateHash == ownerHead.stateHash then do
    requireChildStrict child childExpectation ownerExpectation.rosterRevision
    requireOwnerUnchanged ownerExpectation ownerHead
  else if ownerHead.stateRevision ≤ childHead.stateRevision then
    .fail ("managed-agent community " ++ childExpectation.groupId ++
      " child head is not an ancestor of the owner head")
  else do
    -- the child is behind the owner, so its revision has a successor
    let nextRevision := childHead.stateRevision.toNat + 1
    let history ← ownerGetJson (childExpectation.groupPath ++ "/state/commits")
      [("from_revision", toString nextRevision), ("limit", toString stateCommitsApplyMax)]
      "owner retained community history lookup failed"
    let batch ← .ofExcept (validateOwnerCatchupHistory history childHead ownerHead)
    requireOwnerUnchanged ownerExpectation ownerHead
    applyValidatedChildCatchup child childExpectation ownerExpectation.rosterRevision batch
    requireOwnerUnchanged ownerExpectation ownerHead

end Catchup

section Binding

def ownerRosterMutationAllowed (intent : GroupBindIntent) : Bool :=
  match intent with
  | .ensureAttached => true
  | .existingOnly _ => false

/-- The identifiers of one binding: the group with its encoded path, the child and the owner. -/
structure BindTarget where
  record : ManagedAgentRecord
  child : ManagedAgentChild
  ownerAgentId : String
  groupId : String
  encodedGroup : String

namespace BindTarget

variable (target : BindTarget)

def binding : MembershipBinding :=
  membershipBinding target.record.pubkey target.child.agentId target.ownerAgentId

def groupPath : String := "/groups/" ++ target.encodedGroup

def ownerExpectation (revision : UInt64) (state : GroupMemberState) (forbidden : Option String) :
    OwnerGroupExpectation :=
  ⟨target.groupPath, target.groupId, revision, target.binding.attachAgentId, state, forbidden⟩

def childExpectation (ownerState : GroupStateProjection) (forbidden : Option String) :
    ChildGroupExpectation :=
  ⟨target.groupPath, target.groupId, ownerState, forbidden⟩

/-- The group stayed absent on the child: the owner removes the member, to add it again. -/
def repairMissing (revision : UInt64) (ownerState : GroupStateProjection) : Launch Bool := do
  let refreshedState ← readOwnerGroupState (target.ownerExpectation revision .active none)
  if !(refreshedState == ownerState) then
    .fail ("managed-agent community " ++ target.groupId ++
      " changed while child bootstrap repair was waiting; retry without rewriting the owner roster")
  else do
    removeOwnerMember target.encodedGroup target.binding.attachAgentId
    pure true

/-- What the child has of the group, after a catch-up where it has something else. -/
def observeCaughtUp (revision : UInt64) (ownerState : GroupStateProjection) :
    Launch ChildGroupObservation := do
  let childExpectation := target.childExpectation ownerState none
  let observation ← waitForChildGroupObservation target.child childExpectation false
    (childGroupRestoreGrace / groupConvergencePoll)
  if observation = .equivalent ∨ observation = .presentStale then do
    catchUpChildFromOwnerHistory target.child (target.ownerExpectation revision .active none)
      childExpectation
    pure .strict
  else pure observation

/-- Whether the child has to be attached, for a child that is active on the owner's roster. -/
def activeNeedsAttach (intent : GroupBindIntent) (revision : UInt64)
    (ownerState : GroupStateProjection) : Launch Bool := do
  let observation ← target.observeCaughtUp revision ownerState
  match activeOwnerAction observation with
  | .keep => pure false
  | .rejectStale =>
      .fail ("managed-agent community " ++ target.groupId ++ " is present on child " ++
        target.child.agentId ++ " but is not equivalent to the owner state at revision " ++
        toString revision ++ "; refusing to rewrite an active owner roster")
  | .repairMissing =>
      if !ownerRosterMutationAllowed intent then
        .fail ("managed-agent community " ++ target.groupId ++ " is absent on child " ++
          target.child.agentId ++
          "; startup reconciliation will not rewrite the active owner roster")
      else target.repairMissing revision ownerState

def needsAttach (intent : GroupBindIntent) (revision : UInt64) (ownerState : GroupStateProjection)
    (state : GroupMemberState) : Launch Bool :=
  match state with
  | .active => target.activeNeedsAttach intent revision ownerState
  | .absent =>
      if !ownerRosterMutationAllowed intent then
        .fail ("managed-agent child " ++ target.binding.attachAgentId ++
          " is not active in owner community " ++ target.groupId ++
          "; startup reconciliation will not attach it")
      else pure true
  | .banned =>
      .fail ("managed-agent child " ++ target.binding.attachAgentId ++
        " is banned in the owner community roster; explicitly unban it before starting the runtime")
  | .other state =>
      .fail ("managed-agent child " ++ target.binding.attachAgentId ++
        " has non-active community state " ++ debugText state ++
        "; manual roster repair is required")

/-- The owner adds the child; the result is the owner's state after it. -/
def attach : Launch GroupStateProjection := do
  let added : Except X0xClientError Json ← ask (.ownerPost (target.groupPath ++ "/members")
    (groupMemberBody target.binding.attachAgentId target.record.name))
  match added with
  | .ok _ => pure ()
  | .error (.status 409 _) => pure ()
  | .error error => .fail ("managed-agent community attach failed: " ++ error.display)
  let ownerGroup ← ownerGetJson target.groupPath [] "community post-attach lookup failed"
  .ofExcept (requireActiveMember ownerGroup target.binding.attachAgentId
    "owner community roster after attach")
  let revision ← .ofExcept (rosterRevision ownerGroup)
  readOwnerGroupState (target.ownerExpectation revision .active none)

/-- Older versions put the key of the record on the roster; it goes once the child is there. -/
def removeLegacy (legacyAgentId : String) : Launch Unit := do
  let ownerGroup ← ownerGetJson target.groupPath [] "community migration lookup failed"
  if groupMemberState ownerGroup legacyAgentId = .active then do
    removeOwnerMember target.encodedGroup legacyAgentId
    let ownerGroup ← ownerGetJson target.groupPath [] "community post-migration lookup failed"
    .ofExcept (requireActiveMember ownerGroup target.binding.attachAgentId
      "owner community roster after migration")
    let revision ← .ofExcept (rosterRevision ownerGroup)
    let ownerState ← readOwnerGroupState
      (target.ownerExpectation revision .active (some legacyAgentId))
    waitForChildGroup target.child (target.childExpectation ownerState (some legacyAgentId))
  else pure ()

def requireEligible (intent : GroupBindIntent) (ownerGroup : Json) : Except String Unit :=
  if !ownerRosterMutationAllowed intent then do
    let active ← ownerGroupHasExistingActiveMember ownerGroup target.groupId
      target.binding.attachAgentId
    if !active then
      throw ("managed-agent child " ++ target.binding.attachAgentId ++
        " is no longer active in owner community " ++ target.groupId ++
        "; startup reconciliation will not attach it")
  else .ok ()

def attachIfNeeded (intent : GroupBindIntent) (needed : Bool) (ownerState : GroupStateProjection) :
    Launch GroupStateProjection :=
  if needed && !ownerRosterMutationAllowed intent then
    .fail ("managed-agent community " ++ target.groupId ++
      " requires an owner roster mutation that startup reconciliation forbids")
  else if needed then target.attach
  else pure ownerState

def bind (intent : GroupBindIntent) : Launch Unit := do
  let ownerGroup ← ownerGetJson target.groupPath [] "community lookup failed"
  .ofExcept (requireSignedPublicGroup ownerGroup target.groupId)
  .ofExcept (target.requireEligible intent ownerGroup)
  let state := groupMemberState ownerGroup target.binding.attachAgentId
  .ofExcept (rejectBannedMember state target.binding.attachAgentId "owner community roster")
  let revision ← .ofExcept (rosterRevision ownerGroup)
  let ownerState ← readOwnerGroupState (target.ownerExpectation revision state none)
  let needed ← target.needsAttach intent revision ownerState state
  let ownerState ← target.attachIfNeeded intent needed ownerState
  waitForChildGroup target.child (target.childExpectation ownerState none)
  if ownerRosterMutationAllowed intent then
    match target.binding.removeLegacyAgentId with
    | some legacyAgentId => target.removeLegacy legacyAgentId
    | none => pure ()
  else pure ()

end BindTarget

def bindChildToGroup (record : ManagedAgentRecord) (child : ManagedAgentChild)
    (ownerAgentId groupId : String) (intent : GroupBindIntent) : Launch Unit := do
  let encodedGroup ← .ofExcept (pathSegment groupId)
  BindTarget.bind ⟨record, child, ownerAgentId, groupId, encodedGroup⟩ intent

end Binding

section Children

def managedAgentInstance (pubkey : String) : String :=
  toAsciiLowercase (trim pubkey)

/-- The native identity is canonical and not the key of the record. -/
def properIdentity (instanceName : String) (child : ManagedAgentChild) : Bool :=
  child.agentId != instanceName && isCanonicalLowerHexId child.agentId

def recoverManagedAgentChildIdentity (instanceName : String)
    (persisted : Option ManagedAgentChild) : Option ManagedAgentChild :=
  if isCanonicalLowerHexId instanceName then persisted.filter (·.agentId ≠ instanceName) else none

def managedAgentChildIdentity (pubkey : String) : Launch (Option ManagedAgentChild) := do
  let instanceName := managedAgentInstance pubkey
  let running : Option ManagedAgentChild ← ask (.runningChild instanceName)
  match running with
  | some child => pure (if properIdentity instanceName child then some child else none)
  | none =>
      let persisted : Except AgentChildError (Option ManagedAgentChild) ←
        ask (.persistedIdentity instanceName)
      match persisted with
      | .ok identity => pure (recoverManagedAgentChildIdentity instanceName identity)
      | .error _ => pure none

def failChild {α : Type} (label : String) (error : AgentChildError) : Launch α :=
  .fail (label ++ ": " ++ error.display)

def improperIdentity : AgentChildError :=
  .invalidAgentCard "child native identity must be canonical and differ from its managed record key"

def provisionManagedAgentChild (pubkey label : String) : Launch ManagedAgentChild := do
  let instanceName := managedAgentInstance pubkey
  let running : Option ManagedAgentChild ← ask (.runningChild instanceName)
  match running with
  | some child =>
      if properIdentity instanceName child then pure child else failChild label improperIdentity
  | none =>
      let dataDir ← ask (.resolveConfig instanceName)
      let dataDir ← answerOf label AgentChildError.display dataDir
      let created : Except String Unit ← ask (.createDataDir dataDir)
      match created with
      | .error error =>
          failChild label
            (.spawnFailed "x0xd" ("failed to create isolated data directory: " ++ error))
      | .ok () =>
          let child ← ask (.bringUp instanceName)
          let child ← answerOf label AgentChildError.display child
          if properIdentity instanceName child then do
            let _ ← ask (.keepChild instanceName child)
            pure child
          else failChild label improperIdentity

def bringUpExistingManagedAgentChild (pubkey expectedAgentId label : String) :
    Launch ManagedAgentChild := do
  let instanceName := managedAgentInstance pubkey
  let running : Option ManagedAgentChild ← ask (.runningChild instanceName)
  match running with
  | some child =>
      if child.agentId ≠ expectedAgentId ∨ properIdentity instanceName child = false then
        failChild label (.invalidAgentCard
          "running child identity no longer matches the durable startup identity")
      else pure child
  | none =>
      let persisted ← ask (.persistedIdentity instanceName)
      let persisted ← answerOf label AgentChildError.display persisted
      match (recoverManagedAgentChildIdentity instanceName persisted).filter
          (·.agentId = expectedAgentId) with
      | none =>
          failChild label (.invalidAgentCard
            "durable managed-agent identity disappeared or changed before startup")
      | some recovered =>
          let dataDir ← ask (.resolveConfig instanceName)
          let dataDir ← answerOf label AgentChildError.display dataDir
          if dataDir ≠ recovered.dataDir then
            failChild label (.invalidAgentCard
              "durable managed-agent identity resolved to an unexpected data directory")
          else do
            let child ← ask (.bringUp instanceName)
            let child ← answerOf label AgentChildError.display child
            if child.agentId ≠ expectedAgentId ∨ properIdentity instanceName child = false then
              failChild label (.invalidAgentCard
                "started child identity does not match the durable startup identity")
            else do
              let _ ← ask (.keepChild instanceName child)
              pure child

def resolveLaunchChild (pubkey : String) (intent : GroupBindIntent) : Launch ManagedAgentChild :=
  match intent with
  | .ensureAttached => provisionManagedAgentChild pubkey "managed-agent child provisioning failed"
  | .existingOnly expectedChildAgentId => do
      let observed ← managedAgentChildIdentity pubkey
      match observed with
      | none =>
          .fail ("managed-agent " ++ pubkey ++
            " has no durable native identity; start it manually before enabling startup " ++
              "reconciliation")
      | some observed =>
          if observed.agentId ≠ expectedChildAgentId then
            .fail "managed-agent durable identity changed after roster eligibility was checked"
          else
            bringUpExistingManagedAgentChild pubkey expectedChildAgentId
              "managed-agent existing child startup failed"

end Children

section Allowlist

/-- `seen` holds the entries that were met before. -/
def validateAllowlist (seen : List String) : List String → Except String (List String)
  | [] => .ok []
  | entry :: rest =>
      let trimmed := trim entry
      if !isHexText 64 trimmed then
        .error ("invalid pubkey in respond-to allowlist: '" ++ trimmed ++
          "' (must be 64 hex chars)")
      else
        let lower := toAsciiLowercase trimmed
        if lower ∈ seen then validateAllowlist seen rest
        else (validateAllowlist (lower :: seen) rest).map (lower :: ·)

def validateRespondToAllowlist (input : List String) : Except String (List String) :=
  validateAllowlist [] input

/-- The entries with the managed ones replaced, without repetitions. -/
def translateManagedAllowlist (normalized : List String) (translated : List (String × String)) :
    Except String (List String) :=
  let values := normalized.map fun entry => toAsciiLowercase ((translated.lookup entry).getD entry)
  validateRespondToAllowlist (values.foldl
    (fun effective value => if value ∈ effective then effective else effective ++ [value]) [])

/-- The native identity of a teammate on the list. -/
def allowlistIdentity (teammatePubkey : String) (intent : GroupBindIntent) : Launch String :=
  match intent with
  | .ensureAttached => do
      let child ← provisionManagedAgentChild teammatePubkey
        "managed-agent allowlist identity provisioning failed"
      pure child.agentId
  | .existingOnly _ => do
      let child ← managedAgentChildIdentity teammatePubkey
      match child with
      | some child => pure child.agentId
      | none =>
          .fail ("managed-agent allowlist entry " ++ teammatePubkey ++
            " has no durable native identity")

def entryIdentity (record managedRecord : ManagedAgentRecord) (currentChild : ManagedAgentChild)
    (intent : GroupBindIntent) : Launch String :=
  if eqIgnoreAsciiCase managedRecord.pubkey record.pubkey then pure currentChild.agentId
  else allowlistIdentity managedRecord.pubkey intent

def translateEntries (records : List ManagedAgentRecord) (record : ManagedAgentRecord)
    (currentChild : ManagedAgentChild) (intent : GroupBindIntent) :
    List String → Launch (List (String × String))
  | [] => pure []
  | entry :: rest =>
      match records.find? fun candidate => eqIgnoreAsciiCase candidate.pubkey entry with
      | none => translateEntries records record currentChild intent rest
      | some managedRecord => do
          let childAgentId ← entryIdentity record managedRecord currentChild intent
          let translated ← translateEntries records record currentChild intent rest
          pure ((entry, childAgentId) :: translated)

def resolveEffectiveRespondToAllowlist (record : ManagedAgentRecord)
    (currentChild : ManagedAgentChild) (intent : GroupBindIntent) : Launch (List String) := do
  let normalized ← .ofExcept (validateRespondToAllowlist record.respondToAllowlist)
  if record.respondTo ≠ .allowlist then pure normalized
  else do
    let records ← ask .loadManagedAgents
    let records ← .ofExcept records
    let translated ← translateEntries records record currentChild intent normalized
    .ofExcept (translateManagedAllowlist normalized translated)

end Allowlist

section Preparation

def extractAgentId (value : Json) : Option String :=
  let candidate := (value.getStr "agent_id").or ((value.get "data").bind (·.getStr "agent_id"))
  (candidate.map trim).filter fun id => isCanonicalLowerHexId id

def cardLink (value : Json) (label : String) : Except String String :=
  match (value.getStr "link").filter (· ≠ "") with
  | some link => .ok link
  | none => .error (label ++ " AgentCard response did not contain a link")

def debugOption : Option String → String
  | some text => "Some(" ++ debugText text ++ ")"
  | none => "None"

def requireKnownContact (value : Json) (expectedAgentId label : String) : Except String Unit := do
  let trust := value.getStr "trust_level"
  if value.getStr "agent_id" ≠ some expectedAgentId then
    throw (label ++ " AgentCard import returned a different AgentId")
  if trust ≠ some "Known" ∧ trust ≠ some "Trusted" then
    throw (label ++ " contact consent is " ++ debugOption trust ++
      "; Known or Trusted is required")

def establishMutualConsent (child : ManagedAgentChild) (ownerAgentId : String) : Launch Unit := do
  let ownerCard ← ownerGetJson "/agent/card"
    [("display_name", "Community owner"), ("include_local_addresses", "true")]
    "owner AgentCard generation failed"
  let ownerLink ← .ofExcept (cardLink ownerCard "owner")
  let childCard ← childGetJson child "/agent/card?include_local_addresses=true"
    "managed-agent AgentCard generation failed"
  let childLink ← .ofExcept (cardLink childCard "managed agent")
  let childImport ← childPostJson child "/agent/card/import"
    (.object [("card", .string ownerLink), ("trust_level", .string "known")])
    "managed-agent owner consent failed"
  .ofExcept (requireKnownContact childImport ownerAgentId "managed agent")
  let ownerImport ← ask (.ownerPost "/agent/card/import"
    (.object [("card", .string childLink), ("trust_level", .string "known")]))
  let ownerImport ← answerOf "owner managed-agent consent failed" X0xClientError.display ownerImport
  .ofExcept (requireKnownContact ownerImport child.agentId "owner")
  -- a warm-up, whose answers are not looked at
  let _ ← ask (.childPost child.dataDir "/agents/connect"
    (.object [("agent_id", .string ownerAgentId)]))
  let _ ← ask (.ownerPost "/agents/connect" (.object [("agent_id", .string child.agentId)]))
  pure ()

def prepareManagedAgentLaunch (record : ManagedAgentRecord) (groupId : String)
    (intent : GroupBindIntent) : Launch ManagedAgentLaunchContext := do
  if trim groupId = "" then .fail "managed-agent launch requires a native community group id"
  else do
    let child ← resolveLaunchChild record.pubkey intent
    let effectiveRespondToAllowlist ← resolveEffectiveRespondToAllowlist record child intent
    let client ← ask .buildHttpClient
    answerOf "failed to build managed-agent loopback client" id client
    let owner ← ownerGetJson "/agent" [] "owner identity lookup failed"
    let ownerAgentId ← requireSome (extractAgentId owner)
      "owner /agent response did not contain a canonical AgentId"
    establishMutualConsent child ownerAgentId
    bindChildToGroup record child ownerAgentId groupId intent
    pure ⟨child.agentId, ownerAgentId, child.dataDir, groupId, effectiveRespondToAllowlist⟩

end Preparation
end Buzz.ManagedAgents
