import Buzz.GroupBinding

/-!
# Agent records and their definitions

The store keeps one kind of record. A record with a pubkey is an agent; one
without is a definition, which used to be a persona and is still shown as one.
The two conversions between the shapes are the ones that every definition takes
on its way to and from the store.
-/

namespace Buzz.ManagedAgents

abbrev EnvVars := Std.ExtTreeMap String String

def RespondTo.asStr : RespondTo → String
  | ownerOnly => "owner-only"
  | allowlist => "allowlist"
  | anyone => "anyone"

def defaultAcpCommand : String := "buzz-acp"

def defaultAgentTurnTimeoutSeconds : ℕ := 320

def defaultAgentParallelism : ℕ := 1

/-- The record as the store holds it. -/
structure StoredAgentRecord extends ManagedAgentRecord where
  personaId : Option String
  teamId : Option String
  avatarUrl : Option String
  acpCommand : String
  agentCommand : String
  agentCommandOverride : Option String
  agentArgs : List String
  mcpCommand : String
  turnTimeoutSeconds : ℕ
  idleTimeoutSeconds : Option ℕ
  maxTurnDurationSeconds : Option ℕ
  parallelism : ℕ
  systemPrompt : Option String
  model : Option String
  provider : Option String
  personaSourceVersion : Option String
  envVars : EnvVars
  autoRestartOnConfigChange : Bool
  backendAgentId : Option String
  providerBinaryPath : Option String
  personaTeamDir : Option String
  personaNameInTeam : Option String
  createdAt : String
  displayName : Option String
  slug : Option String
  runtime : Option String
  namePool : List String
  isBuiltin : Bool
  isActive : Bool
  sourceTeam : Option String
  sourceTeamPersonaSlug : Option String
  definitionRespondTo : Option String
  definitionRespondToAllowlist : List String
  definitionParallelism : Option ℕ
  deriving DecidableEq

structure AgentDefinition where
  id : String
  displayName : String
  avatarUrl : Option String
  systemPrompt : String
  runtime : Option String
  model : Option String
  provider : Option String
  namePool : List String
  isBuiltin : Bool
  isActive : Bool
  sourceTeam : Option String
  sourceTeamPersonaSlug : Option String
  envVars : EnvVars
  respondTo : Option String
  respondToAllowlist : List String
  parallelism : Option ℕ
  createdAt : String
  updatedAt : String
  deriving DecidableEq

/-- The definition as a record without keys. -/
def AgentDefinition.intoAgentRecord (definition : AgentDefinition) : StoredAgentRecord where
  pubkey := ""
  name := definition.displayName
  backend := .local
  startOnAppLaunch := false
  respondTo := .ownerOnly
  respondToAllowlist := []
  updatedAt := definition.updatedAt
  runtimePid := none
  lastStartedAt := none
  lastStoppedAt := none
  lastExitCode := none
  lastError := none
  lastErrorCode := none
  personaId := none
  teamId := none
  avatarUrl := definition.avatarUrl
  acpCommand := defaultAcpCommand
  agentCommand := ""
  agentCommandOverride := none
  agentArgs := []
  mcpCommand := ""
  turnTimeoutSeconds := defaultAgentTurnTimeoutSeconds
  idleTimeoutSeconds := none
  maxTurnDurationSeconds := none
  parallelism := defaultAgentParallelism
  systemPrompt := if definition.systemPrompt = "" then none else some definition.systemPrompt
  model := definition.model
  provider := definition.provider
  personaSourceVersion := none
  envVars := definition.envVars
  autoRestartOnConfigChange := true
  backendAgentId := none
  providerBinaryPath := none
  personaTeamDir := none
  personaNameInTeam := none
  createdAt := definition.createdAt
  displayName := some definition.displayName
  slug := some definition.id
  runtime := definition.runtime
  namePool := definition.namePool
  isBuiltin := definition.isBuiltin
  isActive := definition.isActive
  sourceTeam := definition.sourceTeam
  sourceTeamPersonaSlug := definition.sourceTeamPersonaSlug
  definitionRespondTo := definition.respondTo
  definitionRespondToAllowlist := definition.respondToAllowlist
  definitionParallelism := definition.parallelism

/-- The record in the shape of a definition; one without a slug has none. -/
def StoredAgentRecord.toDefinitionView (record : StoredAgentRecord) : Option AgentDefinition :=
  record.slug.map fun slug =>
    { id := slug
      displayName := record.displayName.getD record.name
      avatarUrl := record.avatarUrl
      systemPrompt := record.systemPrompt.getD ""
      runtime := record.runtime
      model := record.model
      provider := record.provider
      namePool := record.namePool
      isBuiltin := record.isBuiltin
      isActive := record.isActive
      sourceTeam := record.sourceTeam
      sourceTeamPersonaSlug := record.sourceTeamPersonaSlug
      envVars := record.envVars
      respondTo := record.definitionRespondTo
      respondToAllowlist := record.definitionRespondToAllowlist
      parallelism := record.definitionParallelism
      createdAt := record.createdAt
      updatedAt := record.updatedAt }

/-- A definition comes back from the store as it went in. -/
theorem toDefinitionView_intoAgentRecord (definition : AgentDefinition) :
    definition.intoAgentRecord.toDefinitionView = some definition := by
  have hprompt : (if definition.systemPrompt = "" then none
      else some definition.systemPrompt).getD "" = definition.systemPrompt := by
    split_ifs with h
    · exact h.symm
    · rfl
  simp only [StoredAgentRecord.toDefinitionView, AgentDefinition.intoAgentRecord, Option.map_some,
    hprompt, Option.getD_some]

end Buzz.ManagedAgents
