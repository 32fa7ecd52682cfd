import Buzz.AsciiText
import Buzz.ExceptRules
import Buzz.JsonValue
import Buzz.PairingQr
import Std.Data.ExtTreeMap

/-!
# Resolved persona packs

A pack that is loaded is resolved into typed fields for each persona and into the
variables of its process. The model of a persona is written `provider:model-id`;
the fields and the variables each split it on their own.
-/

namespace Buzz.PersonaPack

section Model

-- the temperature is a number that the code only prints
variable {F : Type}

structure TriggersData where
  mentions : Bool
  keywords : List String
  allMessages : Bool
  deriving DecidableEq

structure HooksData where
  onStart : Option String
  onStop : Option String
  onMessage : Option String
  deriving DecidableEq

/-- A persona with the defaults of its pack applied. -/
structure LoadedPersona (F : Type) where
  sourcePath : String
  name : String
  displayName : String
  description : String
  avatar : Option String
  model : Option String
  runtime : Option String
  temperature : Option F
  maxContextTokens : Option UInt64
  subscribe : List String
  triggers : Option TriggersData
  threadReplies : Bool
  broadcastReplies : Bool
  skills : List String
  mcpServers : List Json
  hooks : Option HooksData
  prompt : String

structure ResolvedMcpServer where
  name : String
  command : String
  args : List String
  env : List (String × String)
  deriving DecidableEq

structure ResolvedPersona (F : Type) where
  name : String
  displayName : String
  description : String
  avatar : Option String
  version : String
  systemPrompt : String
  packInstructions : Option String
  model : Option String
  llmProvider : Option String
  runtime : Option String
  temperature : Option F
  maxContextTokens : Option UInt64
  subscribe : List String
  triggers : TriggersData
  threadReplies : Bool
  broadcastReplies : Bool
  mcpServers : List ResolvedMcpServer
  hooks : Option HooksData
  skills : List String
  runtimeEnvVars : List (String × String)

/-- The text before the first colon, when there is one, and what follows it. -/
def splitModel (model : String) : Option String × String :=
  match splitOnce ':' model.toList with
  | some (provider, id) => (some (String.ofList provider), String.ofList id)
  | none => (none, model)

def resolveTriggers (triggers : Option TriggersData) : TriggersData :=
  triggers.getD { mentions := true, keywords := [], allMessages := false }

def resolveHooks (hooks : Option HooksData) : Option HooksData :=
  hooks.filter fun h => h.onStart.isSome || h.onStop.isSome || h.onMessage.isSome

def objectFields : Json → List (String × Json)
  | .object fields => fields
  | _ => []

def parseMcpServerConfig (name : String) (config : Json) : Option ResolvedMcpServer :=
  (config.getStr "command").map fun command =>
    { name := name
      command := command
      args := ((config.getArray "args").getD []).filterMap Json.asStr
      env := (((config.get "env").map objectFields).getD []).filterMap fun field =>
        field.2.asStr.map fun value => (field.1, value) }

/-- A server of the persona replaces one of the pack with the same name. -/
def mergeMcpServers (sharedMcp : Option Json) (personaServers : List Json) :
    List ResolvedMcpServer :=
  let shared := (((sharedMcp.bind (Json.get "mcpServers")).map objectFields).getD []).filterMap
    fun field => parseMcpServerConfig field.1 field.2
  let own := personaServers.filterMap fun server =>
    (server.getStr "name").bind fun name => parseMcpServerConfig name server
  let byName : Std.ExtTreeMap String ResolvedMcpServer :=
    (shared ++ own).foldl (fun servers server => servers.insert server.name server) ∅
  byName.toList.map Prod.snd

variable [ToString F]

def runtimeEnvVars (persona : LoadedPersona F) : List (String × String) :=
  let modelVars :=
    match persona.model with
    | none => []
    | some modelStr =>
        let (provider, modelId) := splitModel modelStr
        if persona.runtime = some "buzz-agent" then
          ("BUZZ_AGENT_MODEL", modelId) ::
            (provider.map fun p => ("BUZZ_AGENT_PROVIDER", p)).toList
        else
          (provider.map fun p => ("GOOSE_PROVIDER", p)).toList ++ [("GOOSE_MODEL", modelId)]
  modelVars ++
    (persona.temperature.map fun temp => ("GOOSE_TEMPERATURE", toString temp)).toList ++
    (persona.maxContextTokens.map fun ctx => ("GOOSE_CONTEXT_LIMIT", toString ctx)).toList

def resolveOnePersona (lp : LoadedPersona F) (packVersion : String)
    (packInstructions : Option String) (sharedMcp : Option Json) : ResolvedPersona F :=
  let (llmProvider, model) :=
    match lp.model with
    | some s =>
        if trim s ≠ "" then
          ((splitModel s).1.filter (· ≠ ""), some (splitModel s).2)
        else (none, none)
    | none => (none, none)
  { name := lp.name
    displayName := lp.displayName
    description := lp.description
    avatar := lp.avatar
    version := packVersion
    systemPrompt := lp.prompt
    packInstructions := (packInstructions.map trim).filter (· ≠ "")
    model := model
    llmProvider := llmProvider
    runtime := lp.runtime
    temperature := lp.temperature
    maxContextTokens := lp.maxContextTokens
    subscribe := lp.subscribe
    triggers := resolveTriggers lp.triggers
    threadReplies := lp.threadReplies
    broadcastReplies := lp.broadcastReplies
    mcpServers := mergeMcpServers sharedMcp lp.mcpServers
    hooks := resolveHooks lp.hooks
    skills := lp.skills
    runtimeEnvVars := runtimeEnvVars lp }

structure PackManifestData where
  id : String
  name : String
  version : String
  description : Option String

structure LoadedPack (F : Type) where
  manifest : PackManifestData
  personas : List (LoadedPersona F)
  packInstructions : Option String
  sharedMcpConfig : Option Json

structure ResolvedPack (F : Type) where
  id : String
  name : String
  version : String
  description : String
  personas : List (ResolvedPersona F)

inductive PackError where
  | manifestParse (reason : String)
  | fileParse (path reason : String)
  deriving DecidableEq

def checkPersonas (seenNames : List String) : List (LoadedPersona F) → Except PackError Unit
  | [] => .ok ()
  | p :: rest =>
      if p.name ∈ seenNames then
        .error (.fileParse p.sourcePath ("duplicate persona name \"" ++ p.name ++ "\""))
      else if ¬p.name.toList.all (fun c => c.isAlphanum || c == '_' || c == '-') then
        .error (.fileParse p.sourcePath ("persona name \"" ++ p.name ++
          "\" contains invalid characters (allowed: [a-zA-Z0-9_-])"))
      else if p.name.utf8ByteSize > 64 then
        .error (.fileParse p.sourcePath ("persona name \"" ++ p.name ++
          "\" exceeds 64 characters (got " ++ toString p.name.utf8ByteSize ++ ")"))
      else checkPersonas (p.name :: seenNames) rest

def resolveLoadedPack (loaded : LoadedPack F) : Except PackError (ResolvedPack F) :=
  if loaded.personas = [] then .error (.manifestParse "pack contains zero personas")
  else
    (checkPersonas [] loaded.personas).map fun _ =>
      { id := loaded.manifest.id
        name := loaded.manifest.name
        version := loaded.manifest.version
        description := loaded.manifest.description.getD ""
        personas := loaded.personas.map fun lp =>
          resolveOnePersona lp loaded.manifest.version loaded.packInstructions
            loaded.sharedMcpConfig }

end Model

section Agreement

variable {F : Type} [ToString F]

/-- The variables of the model and of its provider. -/
structure ModelVarNames where
  model : String
  provider : String

def buzzAgentNames : ModelVarNames := ⟨"BUZZ_AGENT_MODEL", "BUZZ_AGENT_PROVIDER"⟩

def gooseNames : ModelVarNames := ⟨"GOOSE_MODEL", "GOOSE_PROVIDER"⟩

def modelVarNames (runtime : Option String) : ModelVarNames :=
  if runtime = some "buzz-agent" then buzzAgentNames else gooseNames

def otherVarNames (runtime : Option String) : ModelVarNames :=
  if runtime = some "buzz-agent" then gooseNames else buzzAgentNames

/-- A variable stands in the environment exactly when its field has that value. -/
def VarAgrees (vars : List (String × String)) (name : String) (field : Option String) : Prop :=
  ∀ value, (name, value) ∈ vars ↔ field = some value

/-- The variables say what the fields say, under the names of the runtime only. -/
structure EnvAgrees (persona : ResolvedPersona F) : Prop where
  model : VarAgrees persona.runtimeEnvVars (modelVarNames persona.runtime).model persona.model
  provider :
    VarAgrees persona.runtimeEnvVars (modelVarNames persona.runtime).provider persona.llmProvider
  otherModel : VarAgrees persona.runtimeEnvVars (otherVarNames persona.runtime).model none
  otherProvider : VarAgrees persona.runtimeEnvVars (otherVarNames persona.runtime).provider none

theorem varAgrees_unique {vars : List (String × String)} {name : String} {a b : Option String}
    (h : VarAgrees vars name a) : VarAgrees vars name b ↔ a = b := by
  constructor
  · intro hb
    ext value
    rw [← h value, hb value]
  · rintro rfl
    exact h

variable (persona : LoadedPersona F)

theorem runtimeEnvVars_model :
    VarAgrees (runtimeEnvVars persona) (modelVarNames persona.runtime).model
      (persona.model.map fun m => (splitModel m).2) := by
  intro value
  unfold runtimeEnvVars modelVarNames
  cases persona.model with
  | none => split_ifs <;> simp [buzzAgentNames, gooseNames]
  | some m => split_ifs <;> simp [buzzAgentNames, gooseNames, eq_comm]

theorem runtimeEnvVars_provider :
    VarAgrees (runtimeEnvVars persona) (modelVarNames persona.runtime).provider
      (persona.model.bind fun m => (splitModel m).1) := by
  intro value
  unfold runtimeEnvVars modelVarNames
  cases persona.model with
  | none | some m => split_ifs <;> simp [buzzAgentNames, gooseNames]

theorem runtimeEnvVars_other :
    VarAgrees (runtimeEnvVars persona) (otherVarNames persona.runtime).model none ∧
      VarAgrees (runtimeEnvVars persona) (otherVarNames persona.runtime).provider none := by
  unfold runtimeEnvVars otherVarNames
  constructor <;> intro value
  all_goals
    cases persona.model with
    | none | some m => split_ifs <;> simp [buzzAgentNames, gooseNames]

theorem envAgrees_iff_fields (packVersion : String) (packInstructions : Option String)
    (sharedMcp : Option Json) :
    EnvAgrees (resolveOnePersona persona packVersion packInstructions sharedMcp) ↔
      (persona.model.map fun m => (splitModel m).2) =
          (resolveOnePersona persona packVersion packInstructions sharedMcp).model ∧
        (persona.model.bind fun m => (splitModel m).1) =
          (resolveOnePersona persona packVersion packInstructions sharedMcp).llmProvider := by
  rw [← varAgrees_unique (runtimeEnvVars_model persona),
    ← varAgrees_unique (runtimeEnvVars_provider persona)]
  constructor
  · exact fun h => ⟨h.model, h.provider⟩
  · rintro ⟨hmodel, hprovider⟩
    exact ⟨hmodel, hprovider, (runtimeEnvVars_other persona).1, (runtimeEnvVars_other persona).2⟩

theorem splitModel_provider_empty_iff (m : String) :
    (splitModel m).1 = some "" ↔ m.toList.head? = some ':' := by
  unfold splitModel
  constructor
  · intro h
    cases hsplit : splitOnce ':' m.toList with
    | none => simp [hsplit] at h
    | some parts =>
      obtain ⟨before, after⟩ := parts
      have hbefore : before = [] := by simpa [hsplit] using h
      rw [(splitOnce_eq_some hsplit).1, hbefore]
      rfl
  · intro h
    obtain ⟨rest, hrest⟩ := List.head?_eq_some_iff.mp h
    have hsplit : splitOnce ':' m.toList = some ([], rest) := by
      rw [hrest]
      exact splitOnce_append List.not_mem_nil rest
    simp [hsplit]

theorem fields_eq_iff (packVersion : String) (packInstructions : Option String)
    (sharedMcp : Option Json) :
    ((persona.model.map fun m => (splitModel m).2) =
          (resolveOnePersona persona packVersion packInstructions sharedMcp).model ∧
        (persona.model.bind fun m => (splitModel m).1) =
          (resolveOnePersona persona packVersion packInstructions sharedMcp).llmProvider) ↔
      ∀ m, persona.model = some m → trim m ≠ "" ∧ m.toList.head? ≠ some ':' := by
  cases hmodel : persona.model with
  | none => simp [resolveOnePersona, hmodel]
  | some m =>
    by_cases hblank : trim m = ""
    · simp [resolveOnePersona, hmodel, hblank]
    · have hempty := splitModel_provider_empty_iff m
      cases hsplit : (splitModel m).1 with
      | none =>
        rw [hsplit] at hempty
        simpa [resolveOnePersona, hmodel, hblank, hsplit] using hempty
      | some provider =>
        rw [hsplit, Option.some.injEq] at hempty
        by_cases hprovider : provider = ""
        · simp [resolveOnePersona, hmodel, hblank, hsplit, Option.filter, hprovider,
            hempty.mp hprovider]
        · have hhead := mt hempty.mpr hprovider
          simp [resolveOnePersona, hmodel, hblank, hsplit, Option.filter, hprovider, hhead]

/-- The fields drop a blank model and an empty provider, the variables keep both. -/
theorem env_agrees_iff (packVersion : String) (packInstructions : Option String)
    (sharedMcp : Option Json) :
    EnvAgrees (resolveOnePersona persona packVersion packInstructions sharedMcp) ↔
      ∀ m, persona.model = some m → trim m ≠ "" ∧ m.toList.head? ≠ some ':' :=
  (envAgrees_iff_fields persona _ _ _).trans (fields_eq_iff persona _ _ _)

def samplePersona (model runtime : Option String) : LoadedPersona String where
  sourcePath := "agents/pip.persona.md"
  name := "pip"
  displayName := "Pip"
  description := "Reviews code."
  avatar := none
  model := model
  runtime := runtime
  temperature := none
  maxContextTokens := none
  subscribe := []
  triggers := none
  threadReplies := true
  broadcastReplies := false
  skills := []
  mcpServers := []
  hooks := none
  prompt := "You are Pip."

theorem empty_provider_kept :
    ¬∀ (persona : LoadedPersona String) (packVersion : String) (packInstructions : Option String)
      (sharedMcp : Option Json),
      EnvAgrees (resolveOnePersona persona packVersion packInstructions sharedMcp) := by
  intro h
  have hprovider := (h (samplePersona (some ":gpt-4o") none) "0.1.0" none none).provider ""
  revert hprovider
  decide +kernel

theorem pack_agrees_iff {loaded : LoadedPack F} {resolved : ResolvedPack F}
    (h : resolveLoadedPack loaded = .ok resolved) :
    (∀ p ∈ resolved.personas, EnvAgrees p) ↔
      ∀ lp ∈ loaded.personas, ∀ m, lp.model = some m →
        trim m ≠ "" ∧ m.toList.head? ≠ some ':' := by
  unfold resolveLoadedPack at h
  split_ifs at h
  obtain ⟨-, -, rfl⟩ := except_map_ok h
  rw [List.forall_mem_map]
  constructor
  all_goals
    intro hall lp hmem
    have hagree := (envAgrees_iff_fields lp loaded.manifest.version loaded.packInstructions
      loaded.sharedMcpConfig).trans (fields_eq_iff lp _ _ _)
  · exact hagree.mp (hall lp hmem)
  · exact hagree.mpr (hall lp hmem)

end Agreement

end Buzz.PersonaPack
