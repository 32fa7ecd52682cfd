import Buzz.CompanyLifecycle

/-!
# Instantiate, resume, cancel and reconcile

Instantiation, resumption and boot reconciliation hold the run lock from start
to end; the reservation lock is only ever taken inside it and is left out.
Cancellation takes no lock. The system runs any number of commands in every run
of the app.
-/

namespace Buzz.Company

open EffectProgram ReplacedFile

section Scan

/-- Digits with an optional plus sign, below 2 ^ 128. -/
def parseU128 (text : List Char) : Option ℕ :=
  let digits := if text.head? = some '+' then text.tail else text
  let value := Nat.ofDigitChars 10 digits 0
  if digits ≠ [] ∧ digits.all Char.isDigit ∧ value < 2 ^ 128 then some value else none

/-- The number after the last separator of an identifier. -/
def instanceEpoch (instanceId : String) : Option ℕ :=
  if '-' ∈ instanceId.toList then
    parseU128 (instanceId.toList.reverse.takeWhile (· ≠ '-')).reverse
  else none

structure ScannedInstance where
  instanceId : String
  templateId : String
  status : ManifestStatus
  runId : Option String
  key : String
  epoch : Option ℕ
  deriving DecidableEq, Repr

def scanned (key : String) (manifest : InstanceManifest) : ScannedInstance where
  instanceId := manifest.instanceId
  templateId := manifest.templateId
  status := manifest.status
  runId := manifest.runId
  key := key
  epoch := instanceEpoch manifest.instanceId

/-- Manifests that cannot be read are skipped. -/
def scanKeys : List String → CompanyTask (List ScannedInstance)
  | [] => pure []
  | key :: keys => do
      match ← load key with
      | .error _ => scanKeys keys
      | .ok manifest => do
          let rest ← scanKeys keys
          pure (scanned key manifest :: rest)

def scanCompanyInstances : CompanyTask (List ScannedInstance) := do
  let keys ← ask .listInstances
  scanKeys keys

def epochLe : Option ℕ → Option ℕ → Bool
  | none, _ => true
  | some _, none => false
  | some a, some b => a ≤ b

/-- The order of the candidates: the newest first. -/
def newestFirst (a b : ScannedInstance) : Bool :=
  if a.epoch = b.epoch then decide (b.instanceId ≤ a.instanceId) else epochLe b.epoch a.epoch

def activeCandidate (scan : List ScannedInstance) : Option String :=
  (((scan.filter (·.status ≠ .cancelled)).mergeSort newestFirst).head?).map (·.instanceId)

def existingActiveInstance : CompanyTask (Option String) := do
  let scan ← scanCompanyInstances
  pure (activeCandidate scan)

end Scan

section Commands

variable (registry : List CompanyTemplate) (sha256Hex : String → String)

/-- The end of a command that holds the run lock, however it ends. -/
def releasing {α : Type} (command : CompanyTask α) : CompanyTask α := do
  ask .acquireRunLock
  let out ← Task.result command
  ask .releaseRunLock
  match out with
  | .ok value => pure value
  | .error exit => Task.fail exit

def unknownTemplate (templateId : String) : String :=
  "unknown Company template `" ++ templateId ++ "`"

/-- What the clock says of a time before 1970. -/
def clockError : String :=
  "system clock is before Unix epoch: second time provided was later than self"

def findTemplate (templateId : String) : CompanyTask CompanyTemplate :=
  match getCompanyTemplate registry templateId with
  | some template => pure template
  | none => Task.fail (.failed (unknownTemplate templateId))

/-- The slot is reserved when no instance is active. -/
def reserveInstance (template : CompanyTemplate) (displayName : String) : CompanyTask String := do
  match ← existingActiveInstance with
  | some existing =>
      Task.fail (.failed ("another Company instance `" ++ existing ++
        "` is already active; cancel it before starting a new company"))
  | none => do
      match ← ask .now with
      | none => Task.fail (.failed clockError)
      | some createdAt => do
          let instanceId := mintedId displayName createdAt
          let saved ← save (instanceKey instanceId)
            ((InstanceManifest.fresh instanceId template.id).withDisplayName displayName)
          orFailWith (fun e => "failed to reserve Company instance slot: " ++
            ManifestError.toText e)
            saved
          pure instanceId

def instantiateCompanyTemplate (templateId : String) (displayName : Option String) :
    CompanyTask CompanyInstantiationResult := do
  let template ← findTemplate registry templateId
  orFailWith ValidationIssue.invalidText (validateSupportedContract template)
  let name := (displayName.filter (trim · ≠ "")).getD template.name
  releasing do
    let instanceId ← reserveInstance template name
    runCompanyLifecycle sha256Hex template instanceId name

/-- The template and the display name of an instance that may be resumed. -/
def resumable (instanceId : String) : CompanyTask (String × String) := do
  let loaded ← load (instanceKey instanceId)
  let manifest ← orFailWith
    (fun e => "failed to load Company manifest for resume: " ++ ManifestError.toText e) loaded
  if manifest.instanceId ≠ instanceId then
    Task.fail (.failed ("instance id mismatch: requested `" ++ instanceId ++
      "` but manifest is `" ++ manifest.instanceId ++ "`"))
  else if manifest.status = .cancelled then
    Task.fail (.failed ("Company instance `" ++ instanceId ++
      "` is cancelled; cancelled runs are terminal"))
  else if lifecycleIsComplete manifest then
    Task.fail (.failed ("Company instance `" ++ instanceId ++
      "` is already complete; nothing to resume"))
  else pure (manifest.templateId, manifest.displayName.getD manifest.templateId)

def resumeCompanyInstance (instanceId : String) : CompanyTask CompanyInstantiationResult :=
  releasing do
    let found ← resumable instanceId
    let template ← findTemplate registry found.1
    runCompanyLifecycle sha256Hex template instanceId found.2

def tombstone (manifest : InstanceManifest) (now : ℕ) : InstanceManifest :=
  { manifest with
    status := .cancelled
    cancelGeneration := min (manifest.cancelGeneration + 1) (2 ^ 64 - 1)
    cancelledAt := some now }

def saveTombstone (key : String) (manifest : InstanceManifest) : CompanyTask Unit := do
  if manifest.status = .cancelled then pure ()
  else do
    match ← ask .now with
    | none => Task.fail (.failed clockError)
    | some now => do
        let saved ← save key (tombstone manifest now)
        orFailWith
          (fun e => "failed to persist Company cancel tombstone: " ++ ManifestError.toText e) saved

def cancelCompanyRun (instanceId : String) : CompanyTask Unit := do
  let loaded ← load (instanceKey instanceId)
  let manifest ← orFailWith
    (fun e => "failed to load Company manifest for cancel: " ++ ManifestError.toText e) loaded
  saveTombstone (instanceKey instanceId) manifest
  ask (.shutdownIdentities instanceId)
  ask .shutdownSymphony
  ask (.clearActive instanceId)

/-- One instance of the boot scan is advanced unless it is cancelled or complete. -/
def reconcileInstance (inst : ScannedInstance) : CompanyTask Unit := do
  if inst.status = .cancelled then pure ()
  else do
    let loaded ← load inst.key
    if loaded.toOption.any lifecycleIsComplete then pure ()
    else
      match getCompanyTemplate registry inst.templateId with
      | none => pure ()
      | some template => do
          match ← load inst.key with
          | .error _ => pure ()
          | .ok manifest => do
              let _ ← Task.result (runCompanyLifecycle sha256Hex template inst.instanceId
                (manifest.displayName.getD template.name))
              pure ()

def completeOf : List ScannedInstance → CompanyTask (List ScannedInstance)
  | [] => pure []
  | inst :: rest => do
      let loaded ← load inst.key
      let complete ← completeOf rest
      pure (if loaded.toOption.any lifecycleIsComplete then inst :: complete else complete)

/-- The active binding of a target that was cancelled meanwhile is undone. -/
def confirmRebind (target : ScannedInstance) : CompanyTask Unit := do
  ask (.setActive target.instanceId)
  let loaded ← load target.key
  if loaded.toOption.any (·.status == .cancelled) then ask (.clearActive target.instanceId)
  else pure ()

def rebindTarget (target : ScannedInstance) : CompanyTask Unit := do
  match ← ask .ownerX0xdEndpoint with
  | .error _ => pure ()
  | .ok x0xdUrl =>
      match getCompanyTemplate registry target.templateId with
      | none => pure ()
      | some template => do
          let workflow :=
            generateSymphonyConfigForX0xd sha256Hex template target.instanceId x0xdUrl
          match ← ask (.writeWorkflow (instanceKey target.instanceId) workflow) with
          | .error _ => pure ()
          | .ok _ => do
              bringUpSymphony (instanceKey target.instanceId) true
              let bound ← ask .symphonyReady
              if bound then confirmRebind target else pure ()

def reconcileCompanies : CompanyTask Unit :=
  releasing do
    let scan ← scanCompanyInstances
    Task.forEach (reconcileInstance registry sha256Hex) scan
    let again ← scanCompanyInstances
    let complete ← completeOf again
    match (complete.mergeSort newestFirst).head? with
    | none => pure ()
    | some target => rebindTarget registry sha256Hex target

end Commands

section System

inductive CompanyOperation where
  | instantiate (templateId : String) (displayName : Option String)
  | resume (instanceId : String)
  | cancel (instanceId : String)
  | reconcile
  deriving DecidableEq, Repr

inductive CompanyOutcome where
  | instantiated (result : CompanyInstantiationResult)
  | cancelled (instanceId : String)
  | reconciled
  deriving DecidableEq, Repr

def CompanyOperation.task (registry : List CompanyTemplate) (sha256Hex : String → String) :
    CompanyOperation → CompanyTask CompanyOutcome
  | instantiate templateId displayName => do
      let result ← instantiateCompanyTemplate registry sha256Hex templateId displayName
      pure (.instantiated result)
  | resume instanceId => do
      let result ← resumeCompanyInstance registry sha256Hex instanceId
      pure (.instantiated result)
  | cancel instanceId => do
      cancelCompanyRun instanceId
      pure (.cancelled instanceId)
  | reconcile => do
      reconcileCompanies registry sha256Hex
      pure .reconciled

abbrev CompanyReturn : Type :=
  Except CompanyExit CompanyOutcome × List CompanyInstantiationError

/-- Commands start at any time, in any number, and the app may crash at any time, as far as the
policy lets it. -/
def companySystem (registry : List CompanyTemplate) (sha256Hex : String → String)
    (policy : CompanyPolicy) :
    System CompanyThread CompanyWorld CompanyRequest CompanyRequest.Reply
      (fun _ => CompanyReturn) where
  commits i w request answer u := policy.step i w request answer ∧ w.Commits i request answer u
  launches i w p := i.app = w.app ∧
    ∃ operation : CompanyOperation, p = operation.task registry sha256Hex []
  stops _ _ _ := False
  moves w u := policy.crash w ∧ u = w.crash

abbrev CompanyPool : Type :=
  Pool CompanyThread CompanyWorld CompanyRequest CompanyRequest.Reply (fun _ => CompanyReturn)

/-- Nothing on disk and no command under way. -/
def CompanyPool.start : CompanyPool := ⟨.new, fun _ => none⟩

abbrev CompanyReach (registry : List CompanyTemplate) (sha256Hex : String → String)
    (policy : CompanyPolicy) (pool : CompanyPool) : Prop :=
  PoolReach (companySystem registry sha256Hex policy) CompanyPool.start pool

end System

end Buzz.Company
