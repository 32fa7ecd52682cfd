import Buzz.SpawnBadge

/-!
# The environment that readiness judges

Before a start the desktop resolves the environment that the agent would have and
looks for what is missing in it. The start lays the same three maps of variables
over one another in another order. A value that is dropped at the end of a merge
hides what is below it in that merge only.
-/

namespace Buzz.ManagedAgents

section Requirements

/-- The environment that is judged, and the harness that would receive it. -/
structure EffectiveAgentEnv where
  env : EnvVars
  effectiveCommand : String

inductive AcpAvailabilityStatus where
  | available
  | adapterMissing
  | adapterOutdated
  | cliMissing
  | notInstalled
  deriving DecidableEq

inductive Requirement where
  | normalizedField (field : String)
  | envKey (key : String)
  | cliLogin (probeArgs : List String) (setupCopy : String) (availability : AcpAvailabilityStatus)
  | cliConfigInvalid (probeArgs : List String) (setupCopy diagnostic : String)
  | gitBash
  deriving DecidableEq

inductive AgentReadiness where
  | ready
  | notReady (requirements : List Requirement)
  deriving DecidableEq

inductive ProbeOutcome where
  | loggedIn
  | loggedOut
  | configInvalid (stderrExcerpt : String)

structure RuntimeFileConfig where
  model : Option String
  provider : Option String
  extra : EnvVars

/-- What readiness asks of the machine. Off Windows a shell is always there. -/
structure ReadinessProbes where
  findCommand : String → Option String
  resolveCommand : String → Option String
  codexAdapterAvailability : String → AcpAvailabilityStatus
  loginProbe : String → List String → ProbeOutcome
  gooseFileConfig : Option RuntimeFileConfig
  gitBashAvailable : EnvVars → Bool

variable (probes : ReadinessProbes)

def classifyRuntime (adapterPath underlyingCli : Option String) (underlyingCliFound : Bool) :
    AcpAvailabilityStatus :=
  if adapterPath.isSome then
    if underlyingCli.isSome && !underlyingCliFound then .cliMissing else .available
  else if underlyingCli.isSome && underlyingCliFound then .adapterMissing
  else .notInstalled

def cliLoginRequirements (binary : String) (args : List String) (setupCopy : String)
    (runtime : KnownAcpRuntime) : List Requirement :=
  let adapterPath := runtime.commands.findSome? probes.findCommand
  let found := (runtime.underlyingCli.bind probes.findCommand).isSome
  let classified := classifyRuntime adapterPath runtime.underlyingCli found
  let availability :=
    if runtime.id = "codex" ∧ classified = .available then
      (adapterPath.map probes.codexAdapterAvailability).getD classified
    else classified
  match availability with
  | .available =>
      match probes.resolveCommand binary with
      | none => [.cliLogin (binary :: args) setupCopy .available]
      | some path =>
          match probes.loginProbe path (binary :: args) with
          | .loggedIn => []
          | .loggedOut => [.cliLogin (binary :: args) setupCopy .available]
          | .configInvalid excerpt => [.cliConfigInvalid (binary :: args) setupCopy excerpt]
  | other => [.cliLogin (binary :: args) setupCopy other]

/-- An empty text is as good as none. -/
def nonEmpty (text : Option String) : Option String := text.filter (· ≠ "")

local instance optionStringLawful : LawfulBEq (Option String) := inferInstance

/-- The credential that a provider cannot do without. -/
def credentialKey (provider : Option String) : Option String :=
  if provider = some "anthropic" then some "ANTHROPIC_API_KEY"
  else if provider = some "openai" then some "OPENAI_COMPAT_API_KEY"
  else if provider ∈ [some "databricks", some "databricks_v2", some "databricks-v2"] then
    some "DATABRICKS_HOST"
  else none

def providerModelKey (provider : Option String) : Option String :=
  if provider ∈ [some "databricks", some "databricks_v2", some "databricks-v2"] then
    some "DATABRICKS_MODEL"
  else if provider = some "anthropic" then some "ANTHROPIC_MODEL"
  else if provider ∈ [some "openai", some "openai-compat"] then some "OPENAI_COMPAT_MODEL"
  else none

def require (missing : Bool) (requirement : Requirement) : List Requirement :=
  if missing then [requirement] else []

def buzzAgentRequirements (env : EnvVars) : List Requirement :=
  let provider := nonEmpty env["BUZZ_AGENT_PROVIDER"]?
  let modelPresent := (nonEmpty env["BUZZ_AGENT_MODEL"]?).isSome ||
    (nonEmpty ((providerModelKey provider).bind fun key => env[key]?)).isSome
  require (!probes.gitBashAvailable env) .gitBash ++
    require provider.isNone (.normalizedField "provider") ++
    require (!modelPresent) (.normalizedField "model") ++
    match credentialKey provider with
    | some key => require (nonEmpty env[key]?).isNone (.envKey key)
    | none => []

/-- What stands in the configuration file of goose is not asked for. -/
def gooseRequirements (env : EnvVars) : List Requirement :=
  let fileCfg := probes.gooseFileConfig
  let provider := nonEmpty env["GOOSE_PROVIDER"]?
  let fileProvider := nonEmpty (fileCfg.bind RuntimeFileConfig.provider)
  let fileModel := nonEmpty (fileCfg.bind RuntimeFileConfig.model)
  let fileKey (key : String) := nonEmpty (fileCfg.bind fun cfg => cfg.extra[key]?)
  require (provider.isNone && fileProvider.isNone) (.normalizedField "provider") ++
    require ((nonEmpty env["GOOSE_MODEL"]?).isNone && fileModel.isNone)
      (.normalizedField "model") ++
    match credentialKey (provider.or fileProvider) with
    | some key => require ((nonEmpty env[key]?).isNone && (fileKey key).isNone) (.envKey key)
    | none => []

def collectMissingRequirements (env : EnvVars) (runtime : Option KnownAcpRuntime) :
    List Requirement :=
  match runtime with
  | none => []
  | some runtime =>
      if runtime.id = "buzz-agent" then buzzAgentRequirements probes env
      else if runtime.id = "goose" then gooseRequirements probes env
      else if runtime.id = "claude" then
        cliLoginRequirements probes "claude" ["auth", "status"]
          "complete Claude Code authentication by running the Claude CLI" runtime
      else if runtime.id = "codex" then
        cliLoginRequirements probes "codex" ["login", "status"] "run `codex login`" runtime
      else []

def agentReadiness (build : DesktopBuild) (effective : EffectiveAgentEnv) : AgentReadiness :=
  match collectMissingRequirements probes effective.env
      (knownAcpRuntime build.exeSuffix effective.effectiveCommand) with
  | [] => .ready
  | missing => .notReady missing

end Requirements

section Layers

variable (build : DesktopBuild) (inputs : SpawnInputs)

namespace SpawnInputs

/-- The variables of the build under those that carry the model and the provider. -/
def floorEnv : EnvVars :=
  build.bakedBuildEnv.insertMany (metadataEnv (inputs.runtimeMeta build) inputs.modelProvider)

/-- What a start writes of the build, the model and the user. -/
def spawnedEnv : EnvVars := inputs.floorEnv build ∪ inputs.userEnv

/-- What readiness looks at. -/
def effectiveEnv : EffectiveAgentEnv where
  env := resolveEffectiveAgentEnv build.bakedBuildEnv inputs.record inputs.personas
    (inputs.runtimeMeta build) inputs.global
  effectiveCommand := inputs.effectiveCommand

/-- The value that the agent gives a variable, or its persona. -/
def ownValue (key : String) : Option String :=
  inputs.record.envVars[key]?.or
    (livePersonaEnv inputs.personas inputs.record.personaId)[key]?

/-- The own value is dropped and the global one would not be: readiness sees the global one, the
start falls back to the floor. -/
def RevealsGlobal (key : String) : Prop :=
  ∃ own global, inputs.ownValue key = some own ∧ isUsableEnvVar key own = false ∧
    inputs.global.envVars[key]? = some global ∧ isUsableEnvVar key global = true ∧
      (inputs.floorEnv build)[key]? ≠ some global

end SpawnInputs

variable {build inputs}

theorem userEnv_getElem? (key : String) :
    inputs.userEnv[key]? =
      (inputs.ownValue key |>.or inputs.global.envVars[key]?).filter (isUsableEnvVar key) := by
  unfold SpawnInputs.userEnv SpawnInputs.ownValue
  rw [mergedUserEnv_getElem?, mergedUserEnv_getElem?]
  cases inputs.record.envVars[key]? with
  | some value => rfl
  | none => simp only [Option.none_or, Option.filter_filter, Bool.and_self]

theorem effectiveEnv_getElem? (key : String) :
    (inputs.effectiveEnv build).env[key]? =
      ((inputs.ownValue key).filter (isUsableEnvVar key)).or
        ((inputs.global.envVars[key]?.filter (isUsableEnvVar key)).or
          (inputs.floorEnv build)[key]?) := by
  unfold SpawnInputs.effectiveEnv SpawnInputs.floorEnv SpawnInputs.ownValue resolveEffectiveAgentEnv
    SpawnInputs.modelProvider
  simp only [Std.ExtTreeMap.getElem?_union, mergedUserEnv_getElem?, Std.ExtTreeMap.getElem?_empty,
    Option.or_none]

/-- One variable: the two environments part exactly where a global value shows in one of them. -/
theorem env_differs_iff (key : String) :
    (inputs.spawnedEnv build)[key]? ≠ (inputs.effectiveEnv build).env[key]? ↔
      inputs.RevealsGlobal build key := by
  unfold SpawnInputs.RevealsGlobal
  rw [effectiveEnv_getElem?, SpawnInputs.spawnedEnv, Std.ExtTreeMap.getElem?_union,
    userEnv_getElem?]
  cases hown : inputs.ownValue key with
  | none =>
    -- both take the global value or else the floor
    simp
  | some own =>
    by_cases hown : isUsableEnvVar key own = true
    · simp [Option.filter, hown]
    · cases hglobal : inputs.global.envVars[key]? with
      | none => simp [Option.filter, hown]
      | some global =>
        by_cases husable : isUsableEnvVar key global = true
        · simp [Option.filter, hown, husable]
        · simp [Option.filter, hown, husable]

/-- Readiness judges what is spawned unless a dropped value hides a global one. -/
theorem readiness_env_iff :
    inputs.spawnedEnv build = (inputs.effectiveEnv build).env ↔
      ∀ key, ¬inputs.RevealsGlobal build key := by
  constructor
  · intro h key hreveals
    exact (env_differs_iff key).mpr hreveals (by rw [h])
  · intro h
    apply Std.ExtTreeMap.ext_getElem?
    intro key
    by_contra hne
    exact h key ((env_differs_iff key).mp hne)

end Layers

section Sample

/-- An agent under the own harness of the desktop. -/
def helperInputs (own global : EnvVars) : SpawnInputs where
  record :=
    { standaloneReviewer with
      runtime := some "buzz-agent"
      model := some "claude-opus-4-5"
      provider := some "anthropic"
      envVars := own }
  personas := []
  teams := []
  groupId := "0f3a"
  global := ⟨global, none, none⟩

def spoiltKey : EnvVars := (∅ : EnvVars).insert "ANTHROPIC_API_KEY" "sk-own\x00"

def globalKey : EnvVars := (∅ : EnvVars).insert "ANTHROPIC_API_KEY" "sk-global"

/-- The judged environment has a key that the harness does not get. -/
theorem spoilt_key_reveals_global :
    ¬∀ (build : DesktopBuild) (inputs : SpawnInputs),
      inputs.spawnedEnv build = (inputs.effectiveEnv build).env := by
  intro h
  have hreveals : (helperInputs spoiltKey globalKey).RevealsGlobal plainBuild
      "ANTHROPIC_API_KEY" := by
    refine ⟨"sk-own\x00", "sk-global", ?_, ?_, ?_, ?_, ?_⟩
    · decide +kernel
    · decide +kernel
    · decide +kernel
    · decide +kernel
    · decide +kernel
  apply env_differs_iff "ANTHROPIC_API_KEY" |>.mpr hreveals
  rw [h plainBuild]

def quietProbes : ReadinessProbes where
  findCommand := fun _ => none
  resolveCommand := fun _ => none
  codexAdapterAvailability := fun _ => .available
  loginProbe := fun _ _ => .loggedIn
  gooseFileConfig := none
  gitBashAvailable := fun _ => true

-- judged ready, and started without its credential
example :
    let inputs := helperInputs spoiltKey globalKey
    agentReadiness quietProbes plainBuild (inputs.effectiveEnv plainBuild) = .ready ∧
      (inputs.spawnedEnv plainBuild)["ANTHROPIC_API_KEY"]? = none := by
  decide +kernel

end Sample

end Buzz.ManagedAgents
