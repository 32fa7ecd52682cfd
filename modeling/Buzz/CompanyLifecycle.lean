import Buzz.CompanyWorld

/-!
# The company commands as programs

The commands read and save the manifest of an instance through one sink. The
lifecycle provisions the steps of the plan, then goes through identities,
membership, the Symphony binding and the run issue; each phase is recorded in
the manifest. An early return of the source is an error of the task here, and
the errors it collects are the memory.
-/

namespace Buzz.Company

open EffectProgram ReplacedFile

section Results

structure CompanyInstantiationError where
  kind : String
  ref : String
  message : String
  deriving DecidableEq, Repr

structure CompanyInstantiatedGroup where
  id : String
  name : String
  kind : String
  deriving DecidableEq, Repr

structure CompanyInstantiatedAgent where
  agentId : String
  role : String
  groupId : String
  deriving DecidableEq, Repr

structure CompanyInstantiationResult where
  instanceId : String
  status : ManifestStatus
  groups : List CompanyInstantiatedGroup
  agents : List CompanyInstantiatedAgent
  workflowMd : Option String
  runId : Option String
  errors : List CompanyInstantiationError
  deriving DecidableEq, Repr

inductive CompanyExit where
  | returned (result : CompanyInstantiationResult)
  | failed (message : String)
  deriving DecidableEq, Repr

abbrev CompanyTask (α : Type) : Type :=
  Task CompanyRequest CompanyRequest.Reply (List CompanyInstantiationError) CompanyExit α

def ask (request : CompanyRequest) : CompanyTask request.Reply :=
  Task.perform request

def pushError (error : CompanyInstantiationError) : CompanyTask Unit := do
  let errors ← Task.getMemory
  Task.setMemory (errors ++ [error])

def orFailWith {ε α : Type} (message : ε → String) : Except ε α → CompanyTask α
  | .ok value => pure value
  | .error error => Task.fail (.failed (message error))

end Results

section Sink

def load (key : String) : CompanyTask (Except ManifestError InstanceManifest) :=
  ask (.loadManifest key none)

def renameOver (key : String) (manifest : InstanceManifest) :
    CompanyTask (Except ManifestError Unit) := do
  match ← ask (.renameTemporary key manifest) with
  | .error message => pure (.error (.io message))
  | .ok _ => pure (.ok ())

def writeOver (key : String) (manifest : InstanceManifest) (file : ℕ) :
    CompanyTask (Except ManifestError Unit) := do
  match ← ask (.writeTemporary key file manifest) with
  | .error message => pure (.error (.io message))
  | .ok _ => renameOver key manifest

/-- The temporary file is opened, written and renamed. -/
def replaceManifest (key : String) (manifest : InstanceManifest) :
    CompanyTask (Except ManifestError Unit) := do
  match ← ask (.openTemporary key) with
  | .error message => pure (.error (.io message))
  | .ok file => writeOver key manifest file

def save (key : String) (manifest : InstanceManifest) : CompanyTask (Except ManifestError Unit) :=
  if manifest.status = .cancelled then replaceManifest key manifest
  else do
    let existing ← ask (.loadManifest key (some manifest))
    if guardRefuses manifest existing then pure (.error .cancelled)
    else replaceManifest key manifest

/-- Whether a load shows a tombstone that landed after `observed`. -/
def showsCancel (instanceId : String) (observed : ℕ) :
    Except ManifestError InstanceManifest → Bool
  | .ok m => m.instanceId == instanceId && (m.status == .cancelled || m.cancelGeneration > observed)
  | .error _ => false

def reloadShowsCancel (key instanceId : String) (observed : ℕ) : CompanyTask Bool := do
  let loaded ← load key
  pure (showsCancel instanceId observed loaded)

end Sink

section Executor

structure StepOutcome where
  key : String
  kind : String
  localId : Option String
  resourceId : Option String
  created : Bool
  skipped : Bool
  error : Option String
  deriving DecidableEq, Repr

structure InstantiateOutcome where
  instanceId : String
  templateId : String
  status : ManifestStatus
  steps : List StepOutcome
  manifestError : Option String
  deriving DecidableEq, Repr

def InstantiateOutcome.errors (outcome : InstantiateOutcome) : List CompanyInstantiationError :=
  outcome.steps.filterMap fun step =>
    step.error.map fun message => ⟨step.kind, step.localId.getD "", message⟩

/-- The local variables of the executor. -/
structure ProvisionState where
  manifest : InstanceManifest
  steps : List StepOutcome
  failed : Bool
  cancelled : Bool
  checkpointFailure : Option String
  deriving DecidableEq, Repr

def cancellationRequested (key instanceId : String) (observed : ℕ) : CompanyTask Bool :=
  reloadShowsCancel key instanceId observed

def skippedOutcome (step : PlanStep) (done : CompletedStep) : StepOutcome where
  key := step.key
  kind := step.kindLabel
  localId := step.localTarget
  resourceId := some done.resourceId
  created := false
  skipped := true
  error := none

def failedOutcome (step : PlanStep) (localId : Option String) (message : String) : StepOutcome where
  key := step.key
  kind := step.kindLabel
  localId := localId
  resourceId := none
  created := false
  skipped := false
  error := some message

/-- A step whose resource exists by now, or that only writes an artefact. -/
def stepRecord (step : PlanStep) : Option EnsureResult → CompletedStep
  | some res => ⟨step.key, step.kindLabel, step.localTarget, res.id, res.created⟩
  | none => ⟨step.key, step.kindLabel, none, step.kindLabel, true⟩

theorem stepRecord_key (step : PlanStep) (res : Option EnsureResult) :
    (stepRecord step res).key = step.key := by
  cases res <;> rfl

def doneOutcome (step : PlanStep) : Option EnsureResult → StepOutcome
  | some res =>
      ⟨step.key, step.kindLabel, step.localTarget, some res.id, res.created, false, none⟩
  | none => ⟨step.key, step.kindLabel, none, none, true, false, none⟩

def attemptStep : PlanStep → CompanyTask (Except String (Option EnsureResult))
  | .createGroup key _ name visibility purpose => do
      let answer ← ask (.ensureGroup ⟨name, purpose.getD "", visibility, key⟩)
      pure (answer.map some)
  | .createStore _ _ name topic _ policy _ => do
      let answer ← ask (.ensureStore ⟨name, topic, policy⟩)
      pure (answer.map some)
  | .createTaskList _ _ name topic _ => do
      let answer ← ask (.ensureTaskList ⟨name, topic⟩)
      pure (answer.map some)
  | .writeSymphonyConfig _ | .writeWorkflowMd _ => pure (.ok none)

/-- The step is recorded and the manifest saved. The second value tells whether the walk goes on. -/
def checkpointStep (key : String) (st : ProvisionState) (step : PlanStep)
    (res : Option EnsureResult) : CompanyTask (ProvisionState × Bool) := do
  let record := stepRecord step res
  let manifest := st.manifest.push record
  match ← save key manifest with
  | .ok _ =>
      pure ({ st with manifest := manifest, steps := st.steps ++ [doneOutcome step res] }, true)
  | .error .cancelled => pure ({ st with manifest := manifest, cancelled := true }, false)
  | .error error =>
      let message := "manifest checkpoint failed: " ++ error.toText
      pure ({ st with
        manifest := { manifest with status := .resumable }
        steps := st.steps ++ [failedOutcome step record.localId message]
        failed := true
        checkpointFailure := some message }, false)

def recordFailedStep (key : String) (st : ProvisionState) (step : PlanStep) (message : String) :
    CompanyTask ProvisionState := do
  let manifest := { st.manifest with status := .resumable }
  match ← save key manifest with
  | .error .cancelled =>
      pure { st with
        manifest := manifest, cancelled := true, checkpointFailure := none, failed := false }
  | .ok _ =>
      pure { st with
        manifest := manifest
        steps := st.steps ++ [failedOutcome step step.localTarget message]
        failed := true }
  | .error error =>
      pure { st with
        manifest := manifest
        steps := st.steps ++ [failedOutcome step step.localTarget message]
        failed := true
        checkpointFailure := some
          ("manifest checkpoint failed while recording resumable state: " ++ error.toText) }

def provisionStep (key : String) (st : ProvisionState) (step : PlanStep) :
    CompanyTask (ProvisionState × Bool) := do
  match st.manifest.completedKey step.key with
  | some done => pure ({ st with steps := st.steps ++ [skippedOutcome step done] }, true)
  | none =>
      match ← attemptStep step with
      | .ok res => checkpointStep key st step res
      | .error message => do
          let st ← recordFailedStep key st step message
          pure (st, false)

def provisionSteps (key instanceId : String) (observed : ℕ) :
    List PlanStep → ProvisionState → CompanyTask ProvisionState
  | [], st => pure st
  | step :: steps, st => do
      let cancelled ← cancellationRequested key instanceId observed
      if cancelled then pure { st with cancelled := true }
      else do
        let next ← provisionStep key st step
        if next.2 then provisionSteps key instanceId observed steps next.1 else pure next.1

/-- A manifest of another instance or template is ignored, like one that cannot be read. -/
def InstantiationPlan.startingManifest (plan : InstantiationPlan) :
    Except ManifestError InstanceManifest → InstanceManifest
  | .ok m =>
      if m.instanceId = plan.instanceId ∧ m.templateId = plan.templateId then m
      else .fresh plan.instanceId plan.templateId
  | .error _ => .fresh plan.instanceId plan.templateId

def reopened (manifest : InstanceManifest) : InstanceManifest :=
  if manifest.status = .complete then { manifest with status := .inProgress } else manifest

/-- The status that the caller gets. The manifest itself is never marked complete here. -/
def resolveProvisioning (key : String) (st : ProvisionState) :
    CompanyTask (ManifestStatus × Option String) := do
  if st.cancelled then pure (.cancelled, st.checkpointFailure)
  else if st.failed then pure (st.manifest.status, st.checkpointFailure)
  else do
    match ← save key { st.manifest with status := .inProgress } with
    | .ok _ => pure (.complete, st.checkpointFailure)
    | .error .cancelled => pure (.cancelled, st.checkpointFailure)
    | .error error => pure (.resumable, some ("manifest checkpoint failed: " ++ error.toText))

def instantiateCompany (key : String) (plan : InstantiationPlan) :
    CompanyTask InstantiateOutcome := do
  let loaded ← load key
  let manifest := plan.startingManifest loaded
  if manifest.status = .cancelled then
    pure ⟨plan.instanceId, plan.templateId, .cancelled, [], none⟩
  else do
    let start : ProvisionState := ⟨reopened manifest, [], false, false, none⟩
    let st ← provisionSteps key plan.instanceId manifest.cancelGeneration plan.steps start
    let resolved ← resolveProvisioning key st
    pure ⟨plan.instanceId, plan.templateId, resolved.1, st.steps, resolved.2⟩

end Executor

section Symphony

/-- One character of a quoted scalar. -/
def escapeChar (c : Char) : List Char :=
  if c = '"' then ['\\', '"'] else if c = '\\' then ['\\', '\\'] else if c = '\n' then ['\\', 'n']
  else if c = '\r' then ['\\', 'r'] else if c = '\t' then ['\\', 't']
  else if c = '\x08' then ['\\', 'b'] else if c = '\x0c' then ['\\', 'f']
  else if c.toNat < 32 then
    ['\\', 'u', '0', '0', Nat.digitChar (c.toNat / 16), Nat.digitChar (c.toNat % 16)]
  else [c]

def yamlScalar (value : String) : String :=
  "\"" ++ String.ofList (value.toList.flatMap escapeChar) ++ "\""

def generateSymphonyConfigForX0xd (sha256Hex : String → String) (template : CompanyTemplate)
    (instanceId x0xdUrl : String) : String :=
  let fragment := instanceTopicFragment sha256Hex instanceId
  let taskListId := match template.taskLists.head? with
    | some taskList => taskListTopic fragment taskList.id
    | none => taskListTopic fragment "company-tasks"
  let workspaceRoot := "~/.x0x-company/" ++ fragment ++ "/workspaces"
  let preset := match template.roles.head? with
    | some role => runnerPreset role.harness
    | none => "pi"
  let description := match template.description with
    | some description => trim description ++ "\n\n"
    | none => ""
  "---\n" ++ "tracker:\n  kind: x0x_crdt\n" ++
    "  list_id: " ++ yamlScalar taskListId ++ "\n" ++
    "  active_states: [todo, in_progress]\n" ++
    "  terminal_states: [done, cancelled, duplicate]\n" ++
    "polling:\n  interval_ms: 2000\n" ++
    "workspace:\n  root: " ++ yamlScalar workspaceRoot ++ "\n" ++
    "hooks:\n  timeout_ms: 120000\n" ++
    "agent:\n  max_concurrent_agents: 4\n" ++
    "  max_concurrent_agents_by_state:\n    todo: 2\n    in_progress: 2\n" ++
    "  max_turns: 8\n  max_retry_backoff_ms: 300000\n" ++
    "security:\n  network_dispatch: approve\n  required_trust: trusted\n" ++
    "signing:\n  policy: required\n" ++
    "  x0xd_url: " ++ yamlScalar x0xdUrl ++ "\n" ++
    "workers:\n  publish_enabled: true\n  ttl_seconds: 60\n" ++
    "runner:\n  kind: shell\n" ++
    "  preset: " ++ yamlScalar preset ++ "\n" ++
    "  approval_policy: untrusted\n" ++
    "  turn_timeout_ms: 3600000\n  read_timeout_ms: 5000\n" ++
    "  stall_timeout_ms: 300000\n---\n" ++
    "# " ++ template.name ++ "\n\n" ++ description ++
    "You are working on `\x7b\x7b issue.identifier \x7d\x7d`: " ++
    "**\x7b\x7b issue.title \x7d\x7d**.\n\n" ++
    "\x7b\x7b issue.description \x7d\x7d\n\n" ++
    "Complete the task, record a handoff, and attach concise proof of the result.\n"

/-- A daemon that already runs the workflow is kept; any other one that the app owns is stopped
first. -/
def bringUpSymphony (key : String) (rebind : Bool) : CompanyTask Unit := do
  let current ← ask .handleConfig
  if current = some key then pure ()
  else do
    ask .shutdownSymphony
    match ← ask (.bringUp key) with
    | .error _ => pure ()
    | .ok owned => ask (.storeHandle ⟨key, owned⟩ rebind)

def cleanupCompanyRuntime (instanceId : String) : CompanyTask Unit := do
  ask (.shutdownIdentities instanceId)
  ask .shutdownSymphony

end Symphony

section Lifecycle

/-- What a run of the lifecycle is about. `observed` is the cancel generation at its start. -/
structure LifecycleContext where
  template : CompanyTemplate
  instanceId : String
  displayName : String
  observed : ℕ
  deriving DecidableEq, Repr

namespace LifecycleContext

variable (ctx : LifecycleContext)

def key : String := instanceKey ctx.instanceId

end LifecycleContext

def companyGroupKind (groupId : String) : String :=
  match groupId with
  | "engineering" => "engineering"
  | "sales" => "sales"
  | "all-hands" => "all_hands"
  | _ => "custom"

def groupIdMapFrom (steps : List StepOutcome) : List (String × String) :=
  steps.filterMap fun step =>
    if step.kind = "group" then
      match step.localId, step.resourceId with
      | some localId, some realized => some (localId, realized)
      | _, _ => none
    else none

/-- The entry that was inserted last is the one that counts. -/
def lookupGroup (groupIds : List (String × String)) (localId : String) : Option String :=
  (groupIds.reverse.find? (·.1 == localId)).map (·.2)

def realizedGroups (template : CompanyTemplate) (steps : List StepOutcome) :
    List CompanyInstantiatedGroup :=
  template.groups.filterMap fun group => do
    let realized ← steps.find? fun step => step.kind == "group" && step.localId == some group.id
    let id ← realized.resourceId
    return ⟨id, group.name, companyGroupKind group.id⟩

def companyRunCancelled (ctx : LifecycleContext) : CompanyTask Bool :=
  reloadShowsCancel ctx.key ctx.instanceId ctx.observed

/-- The manifest is marked resumable unless it cannot be read or is a tombstone. -/
def markCompanyResumable (key : String) : CompanyTask Unit := do
  match ← load key with
  | .error _ => pure ()
  | .ok manifest =>
      if manifest.status = .cancelled then pure ()
      else do
        match ← save key { manifest with status := .resumable } with
        | .ok _ => pure ()
        | .error .cancelled => pure ()
        | .error error =>
            pushError ⟨"provisioning", "manifest",
              "failed to persist resumable state: " ++ error.toText⟩

/-- `true` when the phase was recorded, `false` when a cancel landed. -/
def persistPostPhase (key instanceId kind resourceId : String) :
    CompanyTask (Except CompanyInstantiationError Bool) := do
  match ← load key with
  | .error error =>
      pure (.error ⟨"provisioning", "manifest", "failed to load manifest: " ++ error.toText⟩)
  | .ok manifest =>
      if manifest.status = .cancelled then pure (.ok false)
      else do
        match ← save key (manifest.record (postPhaseStep instanceId kind resourceId)) with
        | .ok _ => pure (.ok true)
        | .error .cancelled => pure (.ok false)
        | .error error =>
            pure (.error
              ⟨"provisioning", "manifest", "manifest checkpoint failed: " ++ error.toText⟩)

/-- What the early returns of the lifecycle have in common. -/
structure Progress where
  groups : List CompanyInstantiatedGroup
  agents : List CompanyInstantiatedAgent
  workflowMd : Option String
  deriving DecidableEq, Repr

def returnResult {α : Type} (ctx : LifecycleContext) (status : ManifestStatus)
    (progress : Progress) (runId : Option String) : CompanyTask α := do
  let errors ← Task.getMemory
  Task.fail (.returned ⟨ctx.instanceId, status, progress.groups, progress.agents,
    progress.workflowMd, runId, errors⟩)

def returnCancelled {α : Type} (ctx : LifecycleContext) (progress : Progress)
    (runId : Option String) : CompanyTask α := do
  cleanupCompanyRuntime ctx.instanceId
  returnResult ctx .cancelled progress runId

def returnResumable {α : Type} (ctx : LifecycleContext) (progress : Progress) : CompanyTask α := do
  markCompanyResumable ctx.key
  returnResult ctx .resumable progress none

/-- Like `returnResumable`, but a cancel that landed meanwhile is noticed. -/
def returnRechecked {α : Type} (ctx : LifecycleContext) (progress : Progress) :
    CompanyTask α := do
  markCompanyResumable ctx.key
  let cancelled ← companyRunCancelled ctx
  if cancelled then returnCancelled ctx progress none
  else returnResult ctx .resumable progress none

def returnIfCancelled (ctx : LifecycleContext) (progress : Progress) : CompanyTask Unit := do
  let cancelled ← companyRunCancelled ctx
  if cancelled then returnCancelled ctx progress none else pure ()

def checkpointPhase (ctx : LifecycleContext) (kind : String) (progress : Progress) :
    CompanyTask Unit := do
  match ← persistPostPhase ctx.key ctx.instanceId kind kind with
  | .ok true => pure ()
  | .ok false => returnCancelled ctx progress none
  | .error error => do
      pushError error
      returnResumable ctx progress

def pushErrors : List CompanyInstantiationError → CompanyTask Unit :=
  Task.forEach pushError

def provisioningPhase (sha256Hex : String → String) (ctx : LifecycleContext) :
    CompanyTask (List StepOutcome) := do
  let outcome ← instantiateCompany ctx.key
    (planInstantiation sha256Hex ctx.template ctx.instanceId)
  pushErrors outcome.errors
  pushErrors (outcome.manifestError.toList.map fun message => ⟨"provisioning", "manifest", message⟩)
  let groups := realizedGroups ctx.template outcome.steps
  if outcome.status = .cancelled then do
    cleanupCompanyRuntime ctx.instanceId
    let loaded ← load ctx.key
    returnResult ctx .cancelled ⟨groups, [], none⟩ (loaded.toOption.bind (·.runId))
  else if outcome.status ≠ .complete then
    returnResult ctx outcome.status ⟨groups, [], none⟩ none
  else pure outcome.steps

def identitiesPhase (ctx : LifecycleContext) (groups : List CompanyInstantiatedGroup) :
    CompanyTask (List CompanyAgentIdentity) := do
  returnIfCancelled ctx ⟨groups, [], none⟩
  match ← ask (.provisionIdentities ctx.instanceId ctx.template.roles) with
  | .error message => do
      pushError ⟨"agent", "managed-agent-identities", message⟩
      returnRechecked ctx ⟨groups, [], none⟩
  | .ok identities => do
      checkpointPhase ctx "identities" ⟨groups, [], none⟩
      pure identities

def realizedAgents (template : CompanyTemplate) (groupIds : List (String × String))
    (identities : List CompanyAgentIdentity) : List CompanyInstantiatedAgent :=
  identities.map fun identity =>
    ⟨identity.agentId, identity.role,
      (((template.role identity.role).bind (·.groups.head?)).bind (lookupGroup groupIds)).getD ""⟩

/-- Whether adding one agent to one group failed. Only public groups are staffed. -/
def staffGroup (template : CompanyTemplate) (groupIds : List (String × String))
    (identity : CompanyAgentIdentity) (role : RoleSpec) (localGroup : String) :
    CompanyTask Bool := do
  match lookupGroup groupIds localGroup with
  | none => pure false
  | some groupId =>
      if (template.group localGroup).map (·.visibility) ≠ some .publicOpen then pure false
      else do
        match ← ask (.ensureGroupMember ⟨groupId, identity.agentId, some role.name⟩) with
        | .ok _ => pure false
        | .error message => do
            pushError ⟨"membership", identity.role ++ "→" ++ localGroup, message⟩
            pure true

def staffGroups (template : CompanyTemplate) (groupIds : List (String × String)) :
    List (CompanyAgentIdentity × RoleSpec × String) → Bool → CompanyTask Bool
  | [], failed => pure failed
  | (identity, role, localGroup) :: rest, failed => do
      let now ← staffGroup template groupIds identity role localGroup
      staffGroups template groupIds rest (failed || now)

/-- Every agent with the groups of its role. -/
def staffing (template : CompanyTemplate) (identities : List CompanyAgentIdentity) :
    List (CompanyAgentIdentity × RoleSpec × String) :=
  identities.flatMap fun identity =>
    match template.role identity.role with
    | none => []
    | some role => role.groups.map fun localGroup => (identity, role, localGroup)

def membershipPhase (ctx : LifecycleContext) (steps : List StepOutcome)
    (identities : List CompanyAgentIdentity) (progress : Progress) : CompanyTask Unit := do
  let loaded ← load ctx.key
  let manifest ← orFailWith (fun e => "failed to load manifest: " ++ ManifestError.toText e) loaded
  if manifest.hasPostPhase ctx.instanceId "membership" then pure ()
  else do
    returnIfCancelled ctx progress
    let failed ← staffGroups ctx.template (groupIdMapFrom steps)
      (staffing ctx.template identities) false
    if failed then returnRechecked ctx progress
    else checkpointPhase ctx "membership" progress

/-- The workflow is written and the daemon bound in every run, whatever was recorded before. -/
def symphonyPhase (sha256Hex : String → String) (ctx : LifecycleContext) (progress : Progress) :
    CompanyTask String := do
  returnIfCancelled ctx progress
  let endpoint ← ask .ownerX0xdEndpoint
  let x0xdUrl ← orFailWith id endpoint
  let workflow := generateSymphonyConfigForX0xd sha256Hex ctx.template ctx.instanceId x0xdUrl
  let written ← ask (.writeWorkflow ctx.key workflow)
  orFailWith id written
  bringUpSymphony ctx.key false
  let ready ← ask .symphonyReady
  if ready then do
    checkpointPhase ctx "symphony_bind" progress
    pure workflow
  else do
    pushError ⟨"daemon", "start", "symphony daemon did not become ready"⟩
    returnRechecked ctx { progress with workflowMd := some workflow }

def runIssueDraft (ctx : LifecycleContext) : SymphonyIssueDraft where
  title := "Start " ++ ctx.displayName
  description := some ("Instantiate and operate Company template `" ++ ctx.template.id ++ "`.")
  priority := some 1
  labels := ["company", ctx.template.id]

/-- The identifier of the run issue, if the daemon created one and told it. -/
def requestRunIssue (ctx : LifecycleContext) : CompanyTask (Option String) := do
  match ← ask .buildClient with
  | .error message => do
      pushError ⟨"daemon", "client", message⟩
      pure none
  | .ok _ => do
      match ← ask (.createIssue ctx.instanceId (runIssueDraft ctx)) with
      | .ok value => pure (value.getStr "id")
      | .error message => do
          pushError ⟨"daemon", "run", message⟩
          pure none

def saveRunIssue (ctx : LifecycleContext) (manifest : InstanceManifest) (runId : String)
    (progress : Progress) : CompanyTask Unit := do
  let recorded := { manifest with runId := some runId }.record
    (postPhaseStep ctx.instanceId "run_issue" runId)
  match ← save ctx.key recorded with
  | .ok _ => pure ()
  | .error .cancelled => returnCancelled ctx progress none
  | .error error => do
      pushError ⟨"provisioning", "manifest", "failed to persist run id: " ++ error.toText⟩
      returnResumable ctx progress

def runIssuePhase (ctx : LifecycleContext) (progress : Progress) : CompanyTask Unit := do
  let loaded ← load ctx.key
  let manifest ← orFailWith (fun e => "failed to load manifest: " ++ ManifestError.toText e) loaded
  if manifest.runId.isSome then pure ()
  else do
    returnIfCancelled ctx progress
    match ← requestRunIssue ctx with
    | none => returnRechecked ctx progress
    | some runId => saveRunIssue ctx manifest runId progress

/-- The only place where a manifest is marked complete. -/
def completionPhase (ctx : LifecycleContext) (progress : Progress) :
    CompanyTask (Option String) := do
  returnIfCancelled ctx progress
  let loaded ← load ctx.key
  let manifest ← orFailWith
    (fun e => "failed to load manifest for completion: " ++ ManifestError.toText e) loaded
  if manifest.status = .cancelled then returnCancelled ctx progress none
  else do
    match ← save ctx.key { manifest with status := .complete } with
    | .ok _ => pure manifest.runId
    | .error .cancelled => returnCancelled ctx progress none
    | .error error => do
        pushError ⟨"provisioning", "manifest", "failed to persist completion: " ++ error.toText⟩
        returnResumable ctx progress

/-- The instance becomes the active one, unless a cancel is noticed right after. -/
def bindActive (ctx : LifecycleContext) (progress : Progress) (runId : Option String) :
    CompanyTask CompanyInstantiationResult := do
  ask (.setActive ctx.instanceId)
  let cancelled ← companyRunCancelled ctx
  if cancelled then do
    ask (.clearActive ctx.instanceId)
    returnCancelled ctx progress runId
  else returnResult ctx .complete progress runId

def lifecyclePhases (sha256Hex : String → String) (ctx : LifecycleContext) :
    CompanyTask CompanyInstantiationResult := do
  let steps ← provisioningPhase sha256Hex ctx
  let groups := realizedGroups ctx.template steps
  let identities ← identitiesPhase ctx groups
  let agents := realizedAgents ctx.template (groupIdMapFrom steps) identities
  membershipPhase ctx steps identities ⟨groups, agents, none⟩
  let workflow ← symphonyPhase sha256Hex ctx ⟨groups, agents, none⟩
  let progress : Progress := ⟨groups, agents, some workflow⟩
  runIssuePhase ctx progress
  let runId ← completionPhase ctx progress
  bindActive ctx progress runId

/-- An early return of the phases is what the lifecycle returns. -/
def settleExit : Except CompanyExit CompanyInstantiationResult →
    CompanyTask CompanyInstantiationResult
  | .ok result => pure result
  | .error (.returned result) => pure result
  | .error (.failed message) => Task.fail (.failed message)

def observedGeneration (instanceId : String) : Except ManifestError InstanceManifest → ℕ
  | .ok m => if m.instanceId = instanceId then m.cancelGeneration else 0
  | .error _ => 0

def runCompanyLifecycle (sha256Hex : String → String) (template : CompanyTemplate)
    (instanceId displayName : String) : CompanyTask CompanyInstantiationResult := do
  Task.setMemory []
  orFailWith ValidationIssue.invalidText (validateSupportedContract template)
  let loaded ← load (instanceKey instanceId)
  let out ← Task.result (lifecyclePhases sha256Hex
    ⟨template, instanceId, displayName, observedGeneration instanceId loaded⟩)
  settleExit out

end Lifecycle

end Buzz.Company
