import Buzz.AgentArgs
import Buzz.AgentRecords

/-!
# What an agent is started with

A start resolves the harness, the environment, the prompt and the model of a record from four
layers: the record, its persona, the global configuration and what is baked into the build. Right
before it, the persona is applied to the record. The digest behind the restart badge derives the
same values a second time, with the persona applied to a copy.
-/

namespace Buzz.ManagedAgents

section Catalog

structure KnownAcpRuntime where
  id : String
  commands : List String
  aliases : List String
  mcpCommand : Option String
  mcpHooks : Bool
  underlyingCli : Option String
  modelEnvVar : Option String
  providerEnvVar : Option String
  providerLocked : Bool
  defaultEnv : List (String × String)
  deriving DecidableEq

def gooseRuntime : KnownAcpRuntime where
  id := "goose"
  commands := ["goose"]
  aliases := []
  mcpCommand := none
  mcpHooks := false
  underlyingCli := some "goose"
  modelEnvVar := some "GOOSE_MODEL"
  providerEnvVar := some "GOOSE_PROVIDER"
  providerLocked := false
  defaultEnv := [("GOOSE_MODE", "auto")]

def claudeRuntime : KnownAcpRuntime where
  id := "claude"
  commands := ["claude-agent-acp", "claude-code-acp"]
  aliases := ["claude-code", "claudecode"]
  mcpCommand := none
  mcpHooks := false
  underlyingCli := some "claude"
  modelEnvVar := none
  providerEnvVar := none
  providerLocked := true
  defaultEnv := []

def codexRuntime : KnownAcpRuntime where
  id := "codex"
  commands := ["codex-acp"]
  aliases := []
  mcpCommand := some "buzz-dev-mcp"
  mcpHooks := false
  underlyingCli := some "codex"
  modelEnvVar := none
  providerEnvVar := none
  providerLocked := false
  defaultEnv := []

def buzzAgentRuntime : KnownAcpRuntime where
  id := "buzz-agent"
  commands := ["buzz-agent"]
  aliases := []
  mcpCommand := some "buzz-dev-mcp"
  mcpHooks := true
  underlyingCli := none
  modelEnvVar := some "BUZZ_AGENT_MODEL"
  providerEnvVar := some "BUZZ_AGENT_PROVIDER"
  providerLocked := false
  defaultEnv := []

def knownAcpRuntimes : List KnownAcpRuntime :=
  [gooseRuntime, claudeRuntime, codexRuntime, buzzAgentRuntime]

/-- The runtime that a command line starts, whatever its path and its case. -/
def knownAcpRuntime (exeSuffix command : String) : Option KnownAcpRuntime :=
  let normalized := normalizeCommandIdentity exeSuffix command
  knownAcpRuntimes.find? fun runtime =>
    normalized == runtime.id ||
      runtime.commands.any (fun command =>
        normalized == normalizeCommandIdentity exeSuffix command) ||
      runtime.aliases.any fun known => normalized == known

def knownAcpRuntimeExact (id : String) : Option KnownAcpRuntime :=
  knownAcpRuntimes.find? fun runtime => runtime.id == id

def KnownAcpRuntime.primaryCommand (runtime : KnownAcpRuntime) : Option String :=
  runtime.commands.head?

def defaultAgentCommand : String :=
  ((knownAcpRuntimeExact "buzz-agent").bind KnownAcpRuntime.primaryCommand).getD "buzz-agent"

end Catalog

section Layers

structure GlobalAgentConfig where
  envVars : EnvVars
  provider : Option String
  model : Option String

structure TeamRecord where
  id : String
  instructions : Option String

/-- The fields of a definition that its version is the digest of. -/
structure PersonaEventContent where
  displayName : String
  systemPrompt : Option String
  avatarUrl : Option String
  runtime : Option String
  model : Option String
  provider : Option String
  namePool : List String
  respondTo : Option String
  respondToAllowlist : List String
  parallelism : Option ℕ
  deriving DecidableEq

/-- What a build is made of: the suffix of programs on its platform, the variables baked into it,
and the digest of a definition, which is SHA-256 of its text. -/
structure DesktopBuild where
  exeSuffix : String
  bakedBuildEnv : EnvVars
  personaContentHash : PersonaEventContent → String

def findPersona (personas : List AgentDefinition) (personaId : Option String) :
    Option AgentDefinition :=
  personaId.bind fun id => personas.find? fun persona => persona.id == id

/-- The text without blanks around it, unless nothing is left. -/
def trimmedText (text : String) : Option String :=
  if trim text = "" then none else some (trim text)

def effectiveAgentCommand (personaId : Option String) (personas : List AgentDefinition)
    (agentCommandOverride : Option String) : String :=
  match agentCommandOverride.bind trimmedText with
  | some pin => pin
  | none =>
      ((((findPersona personas personaId).bind AgentDefinition.runtime).bind
        knownAcpRuntimeExact).bind KnownAcpRuntime.primaryCommand).getD defaultAgentCommand

def recordAgentCommand (record : StoredAgentRecord) (personas : List AgentDefinition) : String :=
  match record.agentCommandOverride.bind trimmedText with
  | some pin => pin
  | none =>
      match (record.runtime.bind knownAcpRuntimeExact).bind KnownAcpRuntime.primaryCommand with
      | some command => command
      | none => effectiveAgentCommand record.personaId personas none

def reservedEnvKeys : List String :=
  ["X0X_DATA_DIR", "X0X_OWNER_AGENT_ID", "X0X_AGENT_ID", "X0X_GROUP_ID", "BUZZ_API_TOKEN",
    "BUZZ_ACP_PRIVATE_KEY", "BUZZ_ACP_API_TOKEN", "BUZZ_ACP_AGENT_COMMAND", "BUZZ_ACP_AGENT_ARGS",
    "BUZZ_ACP_MCP_COMMAND", "BUZZ_ACP_RESPOND_TO", "BUZZ_ACP_RESPOND_TO_ALLOWLIST",
    "BUZZ_ACP_SETUP_PAYLOAD"]

def isReservedEnvKey (key : String) : Bool :=
  reservedEnvKeys.any fun reserved => eqIgnoreAsciiCase reserved key

def isAsciiAlphabetic (c : Char) : Bool :=
  ('a' ≤ c && c ≤ 'z') || ('A' ≤ c && c ≤ 'Z')

def isWellFormedEnvKey (key : String) : Bool :=
  match key.toList with
  | [] => false
  | first :: rest =>
      (first == '_' || isAsciiAlphabetic first) &&
        rest.all fun c => c == '_' || isAsciiAlphabetic c || ('0' ≤ c && c ≤ '9')

def maxEnvValueBytes : ℕ := 32 * 1024

/-- What is left of the variables of a user. -/
def isUsableEnvVar (key value : String) : Bool :=
  !isReservedEnvKey key && isWellFormedEnvKey key && !value.toList.contains '\x00' &&
    decide (value.utf8ByteSize ≤ maxEnvValueBytes)

def mergedUserEnv (personaEnv agentEnv : EnvVars) : EnvVars :=
  (personaEnv ∪ agentEnv).filter isUsableEnvVar

def livePersonaEnv (personas : List AgentDefinition) (personaId : Option String) : EnvVars :=
  ((findPersona personas personaId).map AgentDefinition.envVars).getD ∅

def effectiveModel (record : StoredAgentRecord) (personas : List AgentDefinition)
    (global : GlobalAgentConfig) : Option String :=
  (record.model.or ((findPersona personas record.personaId).bind AgentDefinition.model)).or
    global.model

def effectiveProvider (record : StoredAgentRecord) (personas : List AgentDefinition)
    (global : GlobalAgentConfig) : Option String :=
  (record.provider.or ((findPersona personas record.personaId).bind AgentDefinition.provider)).or
    global.provider

def resolveEffectiveModelProvider (record : StoredAgentRecord) (personas : List AgentDefinition)
    (global : GlobalAgentConfig) : Option String × Option String :=
  (effectiveModel record personas global, effectiveProvider record personas global)

/-- A variable, when both its name and its value are there. -/
def envVar (key value : Option String) : List (String × String) :=
  match key, value with
  | some key, some value => [(key, value)]
  | _, _ => []

def runtimeMetadataEnvVars (modelEnvVar providerEnvVar : Option String) (providerLocked : Bool)
    (model provider : Option String) : List (String × String) :=
  envVar modelEnvVar model ++ if providerLocked then [] else envVar providerEnvVar provider

def KnownAcpRuntime.metadataEnv (runtime : KnownAcpRuntime)
    (modelProvider : Option String × Option String) : List (String × String) :=
  runtimeMetadataEnvVars runtime.modelEnvVar runtime.providerEnvVar runtime.providerLocked
    modelProvider.1 modelProvider.2

/-- The variables that a runtime gets its model and its provider in. -/
def metadataEnv (runtime : Option KnownAcpRuntime) (modelProvider : Option String × Option String) :
    List (String × String) :=
  (runtime.map fun runtime => runtime.metadataEnv modelProvider).getD []

def resolveEffectiveAgentEnv (baked : EnvVars) (record : StoredAgentRecord)
    (personas : List AgentDefinition) (runtime : Option KnownAcpRuntime)
    (global : GlobalAgentConfig) : EnvVars :=
  let resolved := metadataEnv runtime (resolveEffectiveModelProvider record personas global)
  baked.insertMany resolved ∪ mergedUserEnv ∅ global.envVars ∪
    mergedUserEnv (livePersonaEnv personas record.personaId) record.envVars

end Layers

section Snapshot

def personaEventContent (persona : AgentDefinition) : PersonaEventContent where
  displayName := persona.displayName
  systemPrompt := some persona.systemPrompt
  avatarUrl := persona.avatarUrl
  runtime := persona.runtime
  model := persona.model
  provider := persona.provider
  namePool := persona.namePool
  respondTo := persona.respondTo
  respondToAllowlist := persona.respondToAllowlist
  parallelism := persona.parallelism

/-- A text that is more than blanks. -/
def nonBlank (text : Option String) : Option String :=
  text.filter fun text => trim text ≠ ""

def personaFieldWithRecordFallback (personaValue recordValue : Option String) : Option String :=
  (nonBlank personaValue).or (nonBlank recordValue)

variable (build : DesktopBuild)

/-- The pin names a known runtime other than the one that the definition names. -/
def dropsPin (runtime agentCommandOverride : Option String) : Bool :=
  match (runtime.bind trimmedText).bind knownAcpRuntimeExact,
      agentCommandOverride.bind (knownAcpRuntime build.exeSuffix) with
  | some defRuntime, some pinRuntime => pinRuntime ≠ defRuntime
  | _, _ => false

def applyPersonaSnapshot (record : StoredAgentRecord) (persona : AgentDefinition) :
    StoredAgentRecord :=
  { record with
    systemPrompt := some persona.systemPrompt
    model := personaFieldWithRecordFallback persona.model record.model
    provider := personaFieldWithRecordFallback persona.provider record.provider
    runtime := persona.runtime
    agentCommandOverride :=
      if dropsPin build persona.runtime record.agentCommandOverride then none
      else record.agentCommandOverride
    envVars := record.envVars.filter fun key value => persona.envVars[key]? != some value
    personaSourceVersion := some (build.personaContentHash (personaEventContent persona)) }

/-- The record as a start would have it. -/
def prospective (record : StoredAgentRecord) (personas : List AgentDefinition) :
    StoredAgentRecord :=
  match findPersona personas record.personaId with
  | some persona => applyPersonaSnapshot build record persona
  | none => record

end Snapshot

section Digest

def effectiveSpawnPrompt (record : StoredAgentRecord) : Option String :=
  record.systemPrompt.filter fun prompt => prompt ≠ ""

def effectiveTeamInstructions (record : StoredAgentRecord) (teams : List TeamRecord) :
    Option String :=
  ((teams.find? fun team => some team.id == record.teamId).bind TeamRecord.instructions).bind
    trimmedText

/-- The values in the order in which the hasher gets them; the allowlist only in its mode. -/
structure SpawnDigest where
  acpCommand : String
  agentCommand : String
  agentArgs : List String
  mcpCommand : String
  env : EnvVars
  groupId : String
  systemPrompt : Option String
  teamInstructions : Option String
  model : Option String
  provider : Option String
  respondTo : String
  respondToAllowlist : Option (List String)
  idleTimeoutSeconds : Option ℕ
  maxTurnDurationSeconds : Option ℕ
  parallelism : ℕ
  deriving DecidableEq

variable (build : DesktopBuild)

/-- The digest of a record that has its persona applied. -/
def digestOf (record : StoredAgentRecord) (personas : List AgentDefinition)
    (teams : List TeamRecord) (groupId : String) (global : GlobalAgentConfig) : SpawnDigest :=
  let effectiveCommand := recordAgentCommand record personas
  let runtimeMeta := knownAcpRuntime build.exeSuffix effectiveCommand
  { acpCommand := record.acpCommand
    agentCommand := effectiveCommand
    agentArgs := normalizeAgentArgs build.exeSuffix effectiveCommand record.agentArgs
    mcpCommand := (runtimeMeta.bind KnownAcpRuntime.mcpCommand).getD ""
    env := resolveEffectiveAgentEnv build.bakedBuildEnv record personas runtimeMeta global
    groupId := groupId
    systemPrompt := effectiveSpawnPrompt record
    teamInstructions := effectiveTeamInstructions record teams
    model := record.model
    provider := record.provider
    respondTo := record.respondTo.asStr
    respondToAllowlist :=
      if record.respondTo = .allowlist then
        some (match validateRespondToAllowlist record.respondToAllowlist with
          | .ok normalized => normalized
          | .error _ => record.respondToAllowlist)
      else none
    idleTimeoutSeconds := record.idleTimeoutSeconds
    maxTurnDurationSeconds := record.maxTurnDurationSeconds
    parallelism := record.parallelism }

def spawnConfigDigest (record : StoredAgentRecord) (personas : List AgentDefinition)
    (teams : List TeamRecord) (groupId : String) (global : GlobalAgentConfig) : SpawnDigest :=
  digestOf build (prospective build record personas) personas teams groupId global

end Digest

end Buzz.ManagedAgents
