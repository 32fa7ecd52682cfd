import Buzz.AgentBackfill

/-!
# The restart badge against the start

The badge compares two digests, the one taken when the agent was started and the one that the
configuration has now. A start writes the same configuration into the environment of the harness,
in layers: what the desktop decides, the defaults of the runtime, the variables of the build, those
that carry the model and the provider, and last the variables of the user. The digest knows the
model and the provider of the record, the start goes by those that it falls back to, and it hands
over the arguments as one text.
-/

namespace Buzz.ManagedAgents

section Start

/-- What a start and a digest are computed from. -/
structure SpawnInputs where
  record : StoredAgentRecord
  personas : List AgentDefinition
  teams : List TeamRecord
  groupId : String
  global : GlobalAgentConfig

/-- What is the same for all starts of one agent on one machine: its identity, the paths that are
found there, and the environment of the desktop itself. -/
structure Machine where
  isSet : String → Bool
  augmentedPath : Option String
  rustLog : String
  childDataDir : String
  ownerAgentId : String
  childAgentId : String
  lazyPool : Bool
  claudeCodeExecutable : Option String
  instanceId : String
  startNonce : String

/-- The variables that the desktop writes or removes by itself. -/
inductive DesktopVar where
  | path | rustLog | dataDir | ownerAgentId | agentId | groupId | lazyPool | agentCommand
  | agentArgs | mcpCommand | mcpHookServers | setupPayload | idleTimeout | maxTurnDuration | agents
  | multipleEventHandling | dedup | teamInstructions | systemPrompt | model | privateKey | apiToken
  | buzzApiToken | respondTo | respondToAllowlist | relayObserver | claudeCodeExecutable
  | managedAgent | startNonce
  deriving DecidableEq

def DesktopVar.name : DesktopVar → String
  | path => "PATH"
  | rustLog => "RUST_LOG"
  | dataDir => "X0X_DATA_DIR"
  | ownerAgentId => "X0X_OWNER_AGENT_ID"
  | agentId => "X0X_AGENT_ID"
  | groupId => "X0X_GROUP_ID"
  | lazyPool => "BUZZ_ACP_LAZY_POOL"
  | agentCommand => "BUZZ_ACP_AGENT_COMMAND"
  | agentArgs => "BUZZ_ACP_AGENT_ARGS"
  | mcpCommand => "BUZZ_ACP_MCP_COMMAND"
  | mcpHookServers => "MCP_HOOK_SERVERS"
  | setupPayload => "BUZZ_ACP_SETUP_PAYLOAD"
  | idleTimeout => "BUZZ_ACP_IDLE_TIMEOUT"
  | maxTurnDuration => "BUZZ_ACP_MAX_TURN_DURATION"
  | agents => "BUZZ_ACP_AGENTS"
  | multipleEventHandling => "BUZZ_ACP_MULTIPLE_EVENT_HANDLING"
  | dedup => "BUZZ_ACP_DEDUP"
  | teamInstructions => "BUZZ_ACP_TEAM_INSTRUCTIONS"
  | systemPrompt => "BUZZ_ACP_SYSTEM_PROMPT"
  | model => "BUZZ_ACP_MODEL"
  | privateKey => "BUZZ_ACP_PRIVATE_KEY"
  | apiToken => "BUZZ_ACP_API_TOKEN"
  | buzzApiToken => "BUZZ_API_TOKEN"
  | respondTo => "BUZZ_ACP_RESPOND_TO"
  | respondToAllowlist => "BUZZ_ACP_RESPOND_TO_ALLOWLIST"
  | relayObserver => "BUZZ_ACP_RELAY_OBSERVER"
  | claudeCodeExecutable => "CLAUDE_CODE_EXECUTABLE"
  | managedAgent => "BUZZ_MANAGED_AGENT"
  | startNonce => "BUZZ_MANAGED_AGENT_START_NONCE"

namespace DesktopVar

/-- Written before the variables of the build. -/
def early : List DesktopVar :=
  [path, rustLog, dataDir, ownerAgentId, agentId, groupId, lazyPool, agentCommand, agentArgs,
    mcpCommand, mcpHookServers, setupPayload, idleTimeout, maxTurnDuration, agents,
    multipleEventHandling, dedup, teamInstructions, systemPrompt, model]

/-- Written between those that carry the model and those of the user. -/
def late : List DesktopVar :=
  [privateKey, apiToken, buzzApiToken, respondTo, respondToAllowlist, relayObserver]

/-- Written over what the user has set. -/
def final : List DesktopVar :=
  [claudeCodeExecutable, managedAgent, startNonce]

def all : List DesktopVar := early ++ late ++ final

end DesktopVar

/-- What a command does to the environment that it inherits: it sets a variable or removes it. -/
abbrev CommandEnv := Std.ExtTreeMap String (Option String)

namespace SpawnInputs

variable (build : DesktopBuild) (machine : Machine) (inputs : SpawnInputs)

def effectiveCommand : String := recordAgentCommand inputs.record inputs.personas

def runtimeMeta : Option KnownAcpRuntime :=
  knownAcpRuntime build.exeSuffix inputs.effectiveCommand

def agentArgs : List String :=
  normalizeAgentArgs build.exeSuffix inputs.effectiveCommand inputs.record.agentArgs

def modelProvider : Option String × Option String :=
  resolveEffectiveModelProvider inputs.record inputs.personas inputs.global

/-- Global under persona under record. -/
def userEnv : EnvVars :=
  mergedUserEnv
    (mergedUserEnv inputs.global.envVars
      (livePersonaEnv inputs.personas inputs.record.personaId))
    inputs.record.envVars

/-- What the desktop does with a variable, if anything. Commands stand for the paths that they are
found under, and the payload of an agent that is not ready is left out. `gate` is the policy for
authors. -/
def written (gate : String × Option String) : DesktopVar → Option (Option String)
  | .path => machine.augmentedPath.map some
  | .rustLog => some (some machine.rustLog)
  | .dataDir => some (some machine.childDataDir)
  | .ownerAgentId => some (some machine.ownerAgentId)
  | .agentId => some (some machine.childAgentId)
  | .groupId => some (some inputs.groupId)
  | .lazyPool => some (some (if machine.lazyPool then "true" else "false"))
  | .agentCommand => some (some inputs.effectiveCommand)
  | .agentArgs => some (some (joinArgs (inputs.agentArgs build)))
  | .mcpCommand =>
      some (some (((inputs.runtimeMeta build).bind KnownAcpRuntime.mcpCommand).getD ""))
  | .mcpHookServers =>
      if (inputs.runtimeMeta build).any KnownAcpRuntime.mcpHooks then some (some "*") else none
  | .setupPayload => some none
  | .idleTimeout => inputs.record.idleTimeoutSeconds.map fun idle => some (toString idle)
  | .maxTurnDuration => inputs.record.maxTurnDurationSeconds.map fun limit => some (toString limit)
  | .agents => some (some (toString inputs.record.parallelism))
  | .multipleEventHandling => some (some "steer")
  | .dedup => some (some "queue")
  | .teamInstructions => some (effectiveTeamInstructions inputs.record inputs.teams)
  | .systemPrompt => some (effectiveSpawnPrompt inputs.record)
  | .model => some inputs.modelProvider.1
  | .privateKey => some none
  | .apiToken => some none
  | .buzzApiToken => some none
  | .respondTo => some (some gate.1)
  | .respondToAllowlist => some gate.2
  | .relayObserver => some (some "true")
  | .claudeCodeExecutable =>
      if (inputs.runtimeMeta build).any (fun runtime => runtime.id == "claude") then
        machine.claudeCodeExecutable.map some
      else none
  | .managedAgent => some (some machine.instanceId)
  | .startNonce => some (some machine.startNonce)

end SpawnInputs

/-- The writes to some of the variables. -/
def writeVars (written : DesktopVar → Option (Option String)) (vars : List DesktopVar) :
    CommandEnv :=
  .ofList (vars.filterMap fun var => (written var).map fun value => (var.name, value))

def setVars (vars : EnvVars) : CommandEnv :=
  vars.map fun _ value => some value

/-- The defaults of a runtime, for what the desktop does not have in its own environment. -/
def defaultEnvWrites (isSet : String → Bool) (runtime : Option KnownAcpRuntime) : CommandEnv :=
  .ofList ((((runtime.map KnownAcpRuntime.defaultEnv).getD []).filter
    fun entry => !isSet entry.1).map fun entry => (entry.1, some entry.2))

/-- What the harness is started with. -/
structure HarnessLaunch where
  command : String
  env : CommandEnv
  deriving DecidableEq

/-- The policy for authors: its mode, and the list in the mode that has one. The entries stand for
the native identities that they are translated to. -/
def buildRespondToEnv (record : StoredAgentRecord) : Except String (String × Option String) :=
  match validateRespondToAllowlist record.respondToAllowlist with
  | .error e => .error e
  | .ok normalized =>
      if record.respondTo = .allowlist ∧ normalized = [] then
        .error "respond-to mode 'allowlist' requires at least one pubkey in the allowlist"
      else
        .ok (record.respondTo.asStr,
          if record.respondTo = .allowlist then some (joinArgs normalized) else none)

section Child

variable (build : DesktopBuild) (machine : Machine) (inputs : SpawnInputs)

def childEnv (gate : String × Option String) : CommandEnv :=
  let written := inputs.written build machine gate
  let runtime := inputs.runtimeMeta build
  writeVars written DesktopVar.early ∪ defaultEnvWrites machine.isSet runtime ∪
    setVars (build.bakedBuildEnv.insertMany (metadataEnv runtime inputs.modelProvider)) ∪
      writeVars written DesktopVar.late ∪ setVars inputs.userEnv ∪
        writeVars written DesktopVar.final

/-- The start of a harness up to the call of the system. -/
def spawnAgentChild : Except String HarnessLaunch :=
  if inputs.record.parallelism ≠ 1 then
    .error ("native x0x ACP supports exactly one worker; set agent parallelism to 1 " ++
      "(stored value is " ++ toString inputs.record.parallelism ++ ")")
  else if isHexText 64 inputs.record.pubkey = false then
    .error "managed-agent pubkey must be 64 hexadecimal characters"
  else
    (buildRespondToEnv inputs.record).map fun gate =>
      { command := inputs.record.acpCommand
        env := childEnv build machine inputs gate }

/-- The inputs right before a start, with the persona applied. -/
def SpawnInputs.snapshot : SpawnInputs :=
  { inputs with record := prospective build inputs.record inputs.personas }

def SpawnInputs.digest : SpawnDigest :=
  spawnConfigDigest build inputs.record inputs.personas inputs.teams inputs.groupId inputs.global

end Child

end Start

section Views

variable (build : DesktopBuild) (machine : Machine)

/-- Both are started, and with the same. -/
def SameStart (left right : SpawnInputs) : Prop :=
  ∃ launch, spawnAgentChild build machine (left.snapshot build) = .ok launch ∧
    spawnAgentChild build machine (right.snapshot build) = .ok launch

/-- The badge stays off for exactly those changes that a restart would not show. -/
def BadgeExact (left right : SpawnInputs) : Prop :=
  left.digest build = right.digest build ↔ SameStart build machine left right

/-- The start is not refused. -/
structure Startable (record : StoredAgentRecord) : Prop where
  parallelism : record.parallelism = 1
  pubkey : isHexText 64 record.pubkey = true
  allowlist : ∃ normalized, validateRespondToAllowlist record.respondToAllowlist = .ok normalized ∧
    (record.respondTo = .allowlist → normalized ≠ [])

/-- The names that a default of some runtime is written under. -/
def defaultNames : List String :=
  knownAcpRuntimes.flatMap fun runtime => runtime.defaultEnv.map Prod.fst

/-- The names that the desktop or a default of some runtime may write. -/
def desktopNames : List String := DesktopVar.all.map DesktopVar.name ++ defaultNames

namespace SpawnInputs

variable (inputs : SpawnInputs)

/-- The value of a variable that neither the desktop nor a default writes: the user's, or else the
one of the build under what carries the model and the provider. -/
def setVar (key : String) : Option String :=
  inputs.userEnv[key]?.or (build.bakedBuildEnv.insertMany
    (metadataEnv (inputs.runtimeMeta build) inputs.modelProvider))[key]?

/-- The variables that the digest has. -/
def digestedEnv : EnvVars :=
  resolveEffectiveAgentEnv build.bakedBuildEnv inputs.record inputs.personas
    (inputs.runtimeMeta build) inputs.global

/-- The allowlist that the digest has: the valid one, or as it is. -/
def hashedAllowlist : List String :=
  match validateRespondToAllowlist inputs.record.respondToAllowlist with
  | .ok normalized => normalized
  | .error _ => inputs.record.respondToAllowlist

/-- A value of the record or its persona that is dropped as unusable hides a global one. -/
def Hides (key : String) : Prop :=
  ∃ value, (livePersonaEnv inputs.personas inputs.record.personaId ∪ inputs.record.envVars)[key]? =
      some value ∧
    isUsableEnvVar key value = false ∧ (mergedUserEnv ∅ inputs.global.envVars)[key]? ≠ none

/-- What the desktop does with a variable under the policy of the record. -/
def desktopValue (var : DesktopVar) : Option (Option String) :=
  inputs.written build machine ((buildRespondToEnv inputs.record).toOption.getD ("", none)) var

/-- What the user or the build sets over a variable of the desktop. -/
def override (var : DesktopVar) : Option String :=
  if var ∈ DesktopVar.late then inputs.userEnv[var.name]?
  else if var ∈ DesktopVar.final ∧ (inputs.desktopValue build machine var).isSome then none
  else inputs.setVar build var.name

/-- What the harness has of a variable of the desktop. -/
def shown (var : DesktopVar) : Option (Option String) :=
  ((inputs.override build machine var).map some).or (inputs.desktopValue build machine var)

/-- What the harness has of a variable with a default. -/
def shownDefault (key : String) : Option (Option String) :=
  ((inputs.setVar build key).map some).or
    (defaultEnvWrites machine.isSet (inputs.runtimeMeta build))[key]?

end SpawnInputs

/-- The variables whose values the digest and the start take from different places. -/
def DesktopVar.apart : List DesktopVar := [.agentArgs, .model]

/-- The inputs agree on what the start and the digest both see: the harness, the values of the
desktop that nothing overrides, and the other variables. -/
structure AgreeElsewhere (left right : SpawnInputs) : Prop where
  acpCommand : left.record.acpCommand = right.record.acpCommand
  vars : ∀ var ∉ DesktopVar.apart, left.override build machine var = none →
    right.override build machine var = none →
      left.desktopValue build machine var = right.desktopValue build machine var
  env : ∀ key ∉ desktopNames, ¬left.Hides key → ¬right.Hides key →
    (left.digestedEnv build)[key]? = (right.digestedEnv build)[key]?

/-- What the digest asks for beyond that: the arguments one by one, the record's own model and
provider, values of the desktop that are overridden, and what is set under a name of the desktop or
hidden. -/
structure SameDigested (left right : SpawnInputs) : Prop where
  agentArgs : left.agentArgs build = right.agentArgs build
  model : left.record.model = right.record.model
  provider : left.record.provider = right.record.provider
  vars : ∀ var ∉ DesktopVar.apart, ¬(left.override build machine var = none ∧
    right.override build machine var = none) →
      left.desktopValue build machine var = right.desktopValue build machine var
  env : ∀ key, key ∈ desktopNames ∨ left.Hides key ∨ right.Hides key →
    (left.digestedEnv build)[key]? = (right.digestedEnv build)[key]?

/-- What the start asks for beyond that: the joined arguments, the model that is fallen back to,
what overrides a value of the desktop, the defaults, and what is left under a hidden name. -/
structure SameShown (left right : SpawnInputs) : Prop where
  vars : ∀ var, var ∈ DesktopVar.apart ∨ ¬(left.override build machine var = none ∧
    right.override build machine var = none) →
      left.shown build machine var = right.shown build machine var
  defaults : ∀ key ∈ defaultNames,
    left.shownDefault build machine key = right.shownDefault build machine key
  env : ∀ key ∉ desktopNames, left.Hides key ∨ right.Hides key →
    left.setVar build key = right.setVar build key

/-- The inputs agree on everything that is digested. -/
structure SameHashed (left right : SpawnInputs) : Prop where
  acpCommand : left.record.acpCommand = right.record.acpCommand
  command : left.effectiveCommand = right.effectiveCommand
  agentArgs : left.agentArgs build = right.agentArgs build
  env : left.digestedEnv build = right.digestedEnv build
  groupId : left.groupId = right.groupId
  prompt : effectiveSpawnPrompt left.record = effectiveSpawnPrompt right.record
  team : effectiveTeamInstructions left.record left.teams =
    effectiveTeamInstructions right.record right.teams
  model : left.record.model = right.record.model
  provider : left.record.provider = right.record.provider
  respondTo : left.record.respondTo = right.record.respondTo
  allowlist : left.record.respondTo = .allowlist → left.hashedAllowlist = right.hashedAllowlist
  idleTimeout : left.record.idleTimeoutSeconds = right.record.idleTimeoutSeconds
  maxTurnDuration : left.record.maxTurnDurationSeconds = right.record.maxTurnDurationSeconds
  parallelism : left.record.parallelism = right.record.parallelism

end Views

section Lookup

theorem DesktopVar.mem_all (var : DesktopVar) : var ∈ DesktopVar.all := by
  cases var <;> decide

theorem DesktopVar.name_injective : Function.Injective DesktopVar.name := by
  have hnodup : (DesktopVar.all.map DesktopVar.name).Nodup := by decide +kernel
  intro left right h
  exact List.inj_on_of_nodup_map hnodup left.mem_all right.mem_all h

theorem DesktopVar.name_mem (var : DesktopVar) : var.name ∈ desktopNames :=
  List.mem_append_left _ (List.mem_map_of_mem var.mem_all)

variable {written : DesktopVar → Option (Option String)} {vars : List DesktopVar}

theorem writeVars_of_absent {key : String}
    (habsent : ∀ var ∈ vars, var.name = key → written var = none) :
    (writeVars written vars)[key]? = none := by
  apply Std.ExtTreeMap.getElem?_ofList_of_contains_eq_false
  rw [List.contains_eq_mem, decide_eq_false_iff_not]
  intro hmem
  obtain ⟨entry, hentry, hkey⟩ := List.mem_map.mp hmem
  obtain ⟨var, hvar, hwritten⟩ := List.mem_filterMap.mp hentry
  obtain ⟨value, hvalue, rfl⟩ := Option.map_eq_some_iff.mp hwritten
  exact Option.some_ne_none value (hvalue.symm.trans (habsent var hvar hkey))

theorem writeVars_of_mem (hnodup : vars.Nodup) {var : DesktopVar} (hmem : var ∈ vars) :
    (writeVars written vars)[var.name]? = written var := by
  cases hwritten : written var with
  | none =>
      apply writeVars_of_absent
      intro other _ hname
      rw [DesktopVar.name_injective hname]
      exact hwritten
  | some value =>
      refine Std.ExtTreeMap.getElem?_ofList_of_mem (k := var.name) (by simp) ?_ ?_
      · rw [List.pairwise_filterMap]
        apply hnodup.imp
        intro left right hne entry hentry entry' hentry'
        obtain ⟨_, _, rfl⟩ := Option.map_eq_some_iff.mp hentry
        obtain ⟨_, _, rfl⟩ := Option.map_eq_some_iff.mp hentry'
        simpa using fun hname => hne (DesktopVar.name_injective hname)
      · exact List.mem_filterMap.mpr ⟨var, hmem, by rw [hwritten, Option.map_some]⟩

theorem writeVars_name (hnodup : vars.Nodup) (var : DesktopVar) :
    (writeVars written vars)[var.name]? = if var ∈ vars then written var else none := by
  split_ifs with hmem
  · exact writeVars_of_mem hnodup hmem
  · apply writeVars_of_absent
    intro other hother hname
    exact absurd (DesktopVar.name_injective hname ▸ hother) hmem

theorem setVars_getElem? (vars : EnvVars) (key : String) :
    (setVars vars)[key]? = vars[key]?.map some :=
  Std.ExtTreeMap.getElem?_map

/-- The defaults are among the names of the desktop. -/
theorem defaultEnvWrites_of_not_name {isSet : String → Bool} {runtime : Option KnownAcpRuntime}
    {key : String} (hruntime : ∀ known, runtime = some known → known ∈ knownAcpRuntimes)
    (hkey : ∀ known ∈ knownAcpRuntimes, key ∉ known.defaultEnv.map Prod.fst) :
    (defaultEnvWrites isSet runtime)[key]? = none := by
  apply Std.ExtTreeMap.getElem?_ofList_of_contains_eq_false
  rw [List.contains_eq_mem, decide_eq_false_iff_not]
  intro hmem
  cases runtime with
  | none => simp at hmem
  | some known =>
      apply hkey known (hruntime known rfl)
      obtain ⟨entry, hentry, rfl⟩ := List.mem_map.mp hmem
      obtain ⟨default, hdefault, rfl⟩ := List.mem_map.mp hentry
      exact List.mem_map_of_mem (List.mem_of_mem_filter hdefault)

end Lookup

section Layers

variable {build : DesktopBuild} {machine : Machine} {inputs : SpawnInputs}

theorem runtimeMeta_mem (known : KnownAcpRuntime) (h : inputs.runtimeMeta build = some known) :
    known ∈ knownAcpRuntimes := by
  unfold SpawnInputs.runtimeMeta knownAcpRuntime at h
  exact List.mem_of_find?_eq_some h

theorem mergedUserEnv_getElem? (below above : EnvVars) (key : String) :
    (mergedUserEnv below above)[key]? =
      (above[key]?.or below[key]?).filter (isUsableEnvVar key) := by
  unfold mergedUserEnv
  rw [Std.ExtTreeMap.getElem?_filter', Std.ExtTreeMap.getElem?_union]

/-- Where no value is hidden, the digest has what the harness gets. -/
theorem digestedEnv_getElem? {key : String} (h : ¬inputs.Hides key) :
    (inputs.digestedEnv build)[key]? = inputs.setVar build key := by
  have hvisible : ∀ value,
      (livePersonaEnv inputs.personas inputs.record.personaId ∪ inputs.record.envVars)[key]? =
        some value → isUsableEnvVar key value = false →
          (mergedUserEnv ∅ inputs.global.envVars)[key]? = none :=
    fun value hvalue hunusable => not_not.mp fun hhidden => h ⟨value, hvalue, hunusable, hhidden⟩
  have huser : inputs.userEnv[key]? =
      (mergedUserEnv (livePersonaEnv inputs.personas inputs.record.personaId)
        inputs.record.envVars)[key]?.or (mergedUserEnv ∅ inputs.global.envVars)[key]? := by
    unfold SpawnInputs.userEnv
    simp only [Std.ExtTreeMap.getElem?_union, mergedUserEnv_getElem?, Std.ExtTreeMap.getElem?_empty,
      Option.or_none] at hvisible ⊢
    cases hown : inputs.record.envVars[key]? with
    | some value =>
        rw [hown] at hvisible
        by_cases husable : isUsableEnvVar key value = true
        · simp [Option.filter, husable]
        · have hhidden := hvisible value rfl (by simpa using husable)
          simp only [Option.some_or, Option.filter_some, if_neg husable, Option.none_or]
          exact hhidden.symm
    | none =>
        rw [hown] at hvisible
        cases hlive : (livePersonaEnv inputs.personas inputs.record.personaId)[key]? with
        | some value =>
            rw [hlive] at hvisible
            by_cases husable : isUsableEnvVar key value = true
            · simp [Option.filter, husable]
            · have hhidden := hvisible value rfl (by simpa using husable)
              simp only [Option.none_or, Option.some_or, Option.filter_some, if_neg husable,
                Option.filter_none]
              exact hhidden.symm
        | none =>
            cases inputs.global.envVars[key]? with
            | none => rfl
            | some value =>
                by_cases husable : isUsableEnvVar key value = true
                · simp [Option.filter, husable]
                · simp [Option.filter, husable]
  unfold SpawnInputs.setVar
  rw [huser]
  unfold SpawnInputs.digestedEnv resolveEffectiveAgentEnv SpawnInputs.modelProvider
  simp only [Std.ExtTreeMap.getElem?_union, Option.or_assoc]

variable {gate : String × Option String}

theorem childEnv_getElem? (key : String) :
    (childEnv build machine inputs gate)[key]? =
      (writeVars (inputs.written build machine gate) DesktopVar.final)[key]?.or
        ((inputs.userEnv[key]?.map some).or
          ((writeVars (inputs.written build machine gate) DesktopVar.late)[key]?.or
            (((build.bakedBuildEnv.insertMany
              (metadataEnv (inputs.runtimeMeta build) inputs.modelProvider))[key]?.map some).or
              ((defaultEnvWrites machine.isSet (inputs.runtimeMeta build))[key]?.or
                (writeVars (inputs.written build machine gate) DesktopVar.early)[key]?)))) := by
  unfold childEnv
  simp only [Std.ExtTreeMap.getElem?_union, setVars_getElem?]

theorem desktopValue_eq (hgate : buildRespondToEnv inputs.record = .ok gate) (var : DesktopVar) :
    inputs.desktopValue build machine var = inputs.written build machine gate var := by
  unfold SpawnInputs.desktopValue
  rw [hgate]
  rfl

/-- What is written between the variables of the build and those of the user always is. -/
theorem written_of_late {var : DesktopVar} (h : var ∈ DesktopVar.late) :
    ∃ value, inputs.written build machine gate var = some value := by
  fin_cases h
  all_goals exact ⟨_, rfl⟩

/-- The harness has the value of the desktop, or what is set over it. -/
theorem childEnv_of_var (hgate : buildRespondToEnv inputs.record = .ok gate) (var : DesktopVar) :
    (childEnv build machine inputs gate)[var.name]? = inputs.shown build machine var := by
  have hcatalog : ∀ known ∈ knownAcpRuntimes, ∀ var ∈ DesktopVar.all,
      var.name ∉ known.defaultEnv.map Prod.fst := by
    decide +kernel
  have hdefault : (defaultEnvWrites machine.isSet (inputs.runtimeMeta build))[var.name]? = none :=
    defaultEnvWrites_of_not_name runtimeMeta_mem fun known hknown =>
      hcatalog known hknown var var.mem_all
  -- every variable has its place in one of the three lists
  have hplace : (var ∈ DesktopVar.early ∧ var ∉ DesktopVar.late ∧ var ∉ DesktopVar.final) ∨
      (var ∉ DesktopVar.early ∧ var ∈ DesktopVar.late ∧ var ∉ DesktopVar.final) ∨
      (var ∉ DesktopVar.early ∧ var ∉ DesktopVar.late ∧ var ∈ DesktopVar.final) := by
    cases var <;> decide
  rw [childEnv_getElem?, hdefault, writeVars_name (by decide), writeVars_name (by decide),
    writeVars_name (by decide)]
  unfold SpawnInputs.shown SpawnInputs.override SpawnInputs.setVar
  rw [desktopValue_eq hgate]
  obtain ⟨hearly, hlate, hfinal⟩ | ⟨hearly, hlate, hfinal⟩ | ⟨hearly, hlate, hfinal⟩ := hplace
  · simp [hearly, hlate, hfinal, Option.map_or, Option.or_assoc]
  · obtain ⟨value, hvalue⟩ := @written_of_late build machine inputs gate var hlate
    simp [hearly, hlate, hfinal, hvalue]
  · cases hvalue : inputs.written build machine gate var with
    | some value => simp [hearly, hlate, hfinal]
    | none => simp [hearly, hlate, hfinal, Option.map_or]

theorem childEnv_of_default {key : String} (hvar : ∀ var : DesktopVar, var.name ≠ key) :
    (childEnv build machine inputs gate)[key]? = inputs.shownDefault build machine key := by
  have hvars : ∀ vars, (writeVars (inputs.written build machine gate) vars)[key]? = none :=
    fun vars => writeVars_of_absent fun var _ hname => absurd hname (hvar var)
  rw [childEnv_getElem?, hvars, hvars, hvars]
  unfold SpawnInputs.shownDefault SpawnInputs.setVar
  simp [Option.map_or, Option.or_assoc]

theorem childEnv_of_not_name {key : String} (hkey : key ∉ desktopNames) :
    (childEnv build machine inputs gate)[key]? = (inputs.setVar build key).map some := by
  have hvar : ∀ var : DesktopVar, var.name ≠ key := fun var hname => hkey (hname ▸ var.name_mem)
  have hdefault : (defaultEnvWrites machine.isSet (inputs.runtimeMeta build))[key]? = none := by
    apply defaultEnvWrites_of_not_name runtimeMeta_mem
    intro known hknown hname
    exact hkey (List.mem_append_right _ (List.mem_flatMap.mpr ⟨known, hknown, hname⟩))
  rw [childEnv_of_default hvar, SpawnInputs.shownDefault, hdefault, Option.or_none]

end Layers

section Compare

variable {build : DesktopBuild} {machine : Machine} {left right : SpawnInputs}

/-- Two starts hand over the same environment when the harness has the same of every variable. -/
theorem childEnv_eq_iff {gate gate' : String × Option String}
    (hleft : buildRespondToEnv left.record = .ok gate)
    (hright : buildRespondToEnv right.record = .ok gate') :
    childEnv build machine left gate = childEnv build machine right gate' ↔
      (∀ var, left.shown build machine var = right.shown build machine var) ∧
        (∀ key ∈ defaultNames,
          left.shownDefault build machine key = right.shownDefault build machine key) ∧
        ∀ key ∉ desktopNames, left.setVar build key = right.setVar build key := by
  have hdefault : ∀ key ∈ defaultNames, ∀ var : DesktopVar, var.name ≠ key := by
    have hcatalog : ∀ key ∈ defaultNames, ∀ var ∈ DesktopVar.all, var.name ≠ key := by
      decide +kernel
    exact fun key hkey var => hcatalog key hkey var var.mem_all
  constructor
  · intro h
    refine ⟨fun var => ?_, fun key hkey => ?_, fun key hkey => ?_⟩
    · rw [← childEnv_of_var hleft, h, childEnv_of_var hright]
    · rw [← childEnv_of_default (hdefault key hkey), h, childEnv_of_default (hdefault key hkey)]
    · have hsame := congrArg (fun env : CommandEnv => env[key]?) h
      simp only [childEnv_of_not_name hkey] at hsame
      exact Option.map_injective (Option.some_injective _) hsame
  · rintro ⟨hvars, hdefaults, henv⟩
    apply Std.ExtTreeMap.ext_getElem?
    intro key
    by_cases hkey : key ∈ desktopNames
    · rcases List.mem_append.mp hkey with hname | hname
      · obtain ⟨var, -, rfl⟩ := List.mem_map.mp hname
        rw [childEnv_of_var hleft, childEnv_of_var hright, hvars]
      · rw [childEnv_of_default (hdefault key hname), childEnv_of_default (hdefault key hname),
          hdefaults key hname]
    · rw [childEnv_of_not_name hkey, childEnv_of_not_name hkey, henv key hkey]

/-- A number of seconds is read off its text. -/
theorem map_toString_injective :
    Function.Injective fun seconds : Option ℕ => seconds.map fun n => some (toString n) := by
  have htext : Function.Injective fun n : ℕ => toString n := by
    intro m n h
    have hdigits : Nat.toDigits 10 m = Nat.toDigits 10 n := by
      simpa using congrArg String.toList h
    rw [← Nat.ofDigitChars_ten_toDigits (n := m), hdigits, Nat.ofDigitChars_ten_toDigits]
  exact Option.map_injective ((Option.some_injective _).comp htext)

/-- The values behind the variables of the desktop; the rest follows from the command. -/
theorem written_eq_iff (hparallelism : left.record.parallelism = right.record.parallelism)
    {gate gate' : String × Option String} :
    (∀ var ∉ DesktopVar.apart,
        left.written build machine gate var = right.written build machine gate' var) ↔
      left.effectiveCommand = right.effectiveCommand ∧ left.groupId = right.groupId ∧
        effectiveSpawnPrompt left.record = effectiveSpawnPrompt right.record ∧
        effectiveTeamInstructions left.record left.teams =
          effectiveTeamInstructions right.record right.teams ∧
        left.record.idleTimeoutSeconds = right.record.idleTimeoutSeconds ∧
        left.record.maxTurnDurationSeconds = right.record.maxTurnDurationSeconds ∧
        gate = gate' := by
  constructor
  · intro h
    have hset : ∀ {a b : String}, some (some a) = some (some b) → a = b :=
      fun h => Option.some_injective _ (Option.some_injective _ h)
    exact ⟨hset (h .agentCommand (by decide)), hset (h .groupId (by decide)),
      Option.some_injective _ (h .systemPrompt (by decide)),
      Option.some_injective _ (h .teamInstructions (by decide)),
      map_toString_injective (h .idleTimeout (by decide)),
      map_toString_injective (h .maxTurnDuration (by decide)),
      Prod.ext (hset (h .respondTo (by decide)))
        (Option.some_injective _ (h .respondToAllowlist (by decide)))⟩
  · rintro ⟨hcommand, hgroup, hprompt, hteam, hidle, hlimit, rfl⟩ var hvar
    have hruntime : left.runtimeMeta build = right.runtimeMeta build := by
      unfold SpawnInputs.runtimeMeta
      rw [hcommand]
    cases var with
    | agentArgs | model => exact absurd (by decide) hvar
    | _ =>
        simp only [SpawnInputs.written, hcommand, hgroup, hprompt, hteam, hidle, hlimit, hruntime,
          hparallelism]

theorem mem_validateAllowlist {input : List String} :
    ∀ {seen normalized : List String}, validateAllowlist seen input = .ok normalized →
      ∀ entry ∈ normalized, isHexText 64 entry = true := by
  induction input with
  | nil =>
      intro seen normalized h entry hentry
      cases h
      simp at hentry
  | cons first rest ih =>
      intro seen normalized h entry hentry
      unfold validateAllowlist at h
      by_cases hhex : isHexText 64 (trim first) = true
      · simp only [hhex, Bool.not_true, Bool.false_eq_true, if_false] at h
        split_ifs at h with hseen
        · exact ih h entry hentry
        · cases hrest : validateAllowlist (toAsciiLowercase (trim first) :: seen) rest with
          | error e =>
              rw [hrest] at h
              cases h
          | ok others =>
              rw [hrest] at h
              cases h
              obtain rfl | hother := List.mem_cons.mp hentry
              · rw [isHexText_toAsciiLowercase]
                exact hhex
              · exact ih hrest entry hother
      · simp [hhex] at h

theorem comma_not_mem_of_isHexText {entry : String} (h : isHexText 64 entry = true) :
    ',' ∉ entry.toList := by
  intro hmem
  simp only [isHexText, Bool.and_eq_true, List.all_eq_true] at h
  exact absurd (h.2 ',' hmem) (by decide)

/-- A text of joined parts says what they are, as long as none holds a comma. -/
theorem joinArgs_injective {xs ys : List String} (hxs : ∀ x ∈ xs, ',' ∉ x.toList)
    (hys : ∀ y ∈ ys, ',' ∉ y.toList) (hxsne : xs ≠ []) (hysne : ys ≠ [])
    (h : joinArgs xs = joinArgs ys) : xs = ys := by
  have hsplit : ∀ zs : List String, (∀ z ∈ zs, ',' ∉ z.toList) → zs ≠ [] →
      (joinArgs zs).toList.splitOn ',' = zs.map String.toList := by
    intro zs hzs hne
    rw [joinArgs, String.toList_intercalate]
    apply List.splitOn_intercalate
    · intro piece hpiece
      obtain ⟨z, hz, rfl⟩ := List.mem_map.mp hpiece
      exact hzs z hz
    · simpa using hne
  have hmap : xs.map String.toList = ys.map String.toList := by
    rw [← hsplit xs hxs hxsne, h, hsplit ys hys hysne]
  exact List.map_injective_iff.mpr (fun _ _ => String.toList_inj.mp) hmap

/-- The policy that a startable record gets. -/
theorem buildRespondToEnv_of_startable {record : StoredAgentRecord} {normalized : List String}
    (hvalid : validateRespondToAllowlist record.respondToAllowlist = .ok normalized)
    (hne : record.respondTo = .allowlist → normalized ≠ []) :
    buildRespondToEnv record =
      .ok (record.respondTo.asStr,
        if record.respondTo = .allowlist then some (joinArgs normalized) else none) := by
  unfold buildRespondToEnv
  rw [hvalid]
  exact if_neg fun h => hne h.1 h.2

theorem RespondTo.asStr_injective : Function.Injective RespondTo.asStr := by
  intro left right h
  cases left <;> cases right <;> first | rfl | exact absurd h (by decide)

variable {record record' : StoredAgentRecord} {normalized normalized' : List String}

/-- The policies agree when the modes do and, in the mode that has one, the lists. -/
theorem gate_eq_iff
    (hvalid : validateRespondToAllowlist record.respondToAllowlist = .ok normalized)
    (hvalid' : validateRespondToAllowlist record'.respondToAllowlist = .ok normalized')
    (hne : record.respondTo = .allowlist → normalized ≠ [])
    (hne' : record'.respondTo = .allowlist → normalized' ≠ []) :
    (record.respondTo.asStr,
        if record.respondTo = .allowlist then some (joinArgs normalized) else none) =
      (record'.respondTo.asStr,
        if record'.respondTo = .allowlist then some (joinArgs normalized') else none) ↔
      record.respondTo = record'.respondTo ∧
        (record.respondTo = .allowlist → normalized = normalized') := by
  rw [Prod.mk.injEq, RespondTo.asStr_injective.eq_iff]
  apply and_congr_right
  intro hmode
  by_cases hlist : record.respondTo = .allowlist
  · have hlist' : record'.respondTo = .allowlist := hmode.symm.trans hlist
    simp only [hlist, hlist', if_true, Option.some.injEq, forall_true_left]
    constructor
    · intro h
      exact joinArgs_injective
        (fun entry hentry => comma_not_mem_of_isHexText (mem_validateAllowlist hvalid entry hentry))
        (fun entry hentry => comma_not_mem_of_isHexText
          (mem_validateAllowlist hvalid' entry hentry))
        (hne hlist) (hne' hlist') h
    · rintro rfl
      rfl
  · have hlist' : record'.respondTo ≠ .allowlist := fun h => hlist (hmode.trans h)
    simp [hlist, hlist']

end Compare

section Exact

variable {build : DesktopBuild} {machine : Machine} {left right : SpawnInputs}

/-- A startable record has a policy. -/
theorem Startable.gate {record : StoredAgentRecord} (h : Startable record) :
    ∃ normalized, validateRespondToAllowlist record.respondToAllowlist = .ok normalized ∧
      (record.respondTo = .allowlist → normalized ≠ []) ∧ buildRespondToEnv record =
        .ok (record.respondTo.asStr,
          if record.respondTo = .allowlist then some (joinArgs normalized) else none) := by
  obtain ⟨normalized, hvalid, hne⟩ := h.allowlist
  exact ⟨normalized, hvalid, hne, buildRespondToEnv_of_startable hvalid hne⟩

theorem desktopValues_iff (hleft : Startable left.record) (hright : Startable right.record) :
    (∀ var ∉ DesktopVar.apart,
        left.desktopValue build machine var = right.desktopValue build machine var) ↔
      left.effectiveCommand = right.effectiveCommand ∧ left.groupId = right.groupId ∧
        effectiveSpawnPrompt left.record = effectiveSpawnPrompt right.record ∧
        effectiveTeamInstructions left.record left.teams =
          effectiveTeamInstructions right.record right.teams ∧
        left.record.idleTimeoutSeconds = right.record.idleTimeoutSeconds ∧
        left.record.maxTurnDurationSeconds = right.record.maxTurnDurationSeconds ∧
        left.record.respondTo = right.record.respondTo ∧
        (left.record.respondTo = .allowlist →
          validateRespondToAllowlist left.record.respondToAllowlist =
            validateRespondToAllowlist right.record.respondToAllowlist) := by
  obtain ⟨normalized, hvalid, hne, hgate⟩ := hleft.gate
  obtain ⟨normalized', hvalid', hne', hgate'⟩ := hright.gate
  simp only [desktopValue_eq hgate, desktopValue_eq hgate']
  rw [written_eq_iff (hleft.parallelism.trans hright.parallelism.symm),
    gate_eq_iff hvalid hvalid' hne hne', hvalid, hvalid', Except.ok.injEq]

theorem digestOf_eq_iff :
    digestOf build left.record left.personas left.teams left.groupId left.global =
        digestOf build right.record right.personas right.teams right.groupId right.global ↔
      SameHashed build left right := by
  unfold digestOf
  simp only [SpawnDigest.mk.injEq, RespondTo.asStr_injective.eq_iff]
  constructor
  · rintro ⟨hacp, hcommand, hargs, _, henv, hgroup, hprompt, hteam, hmodel, hprovider, hmode,
      hlist, hidle, hlimit, hparallelism⟩
    refine ⟨hacp, hcommand, hargs, henv, hgroup, hprompt, hteam, hmodel, hprovider, hmode, ?_,
      hidle, hlimit, hparallelism⟩
    intro hallow
    have hallow' : right.record.respondTo = .allowlist := hmode.symm.trans hallow
    rw [if_pos hallow, if_pos hallow'] at hlist
    exact Option.some.inj hlist
  · intro h
    have hrecord : recordAgentCommand left.record left.personas =
        recordAgentCommand right.record right.personas := h.command
    refine ⟨h.acpCommand, hrecord, h.agentArgs, by rw [hrecord], h.env, h.groupId, h.prompt, h.team,
      h.model, h.provider, h.respondTo, ?_, h.idleTimeout, h.maxTurnDuration, h.parallelism⟩
    by_cases hallow : left.record.respondTo = .allowlist
    · rw [if_pos hallow, if_pos (h.respondTo.symm.trans hallow)]
      exact congrArg some (h.allowlist hallow)
    · rw [if_neg hallow, if_neg fun hallow' => hallow (h.respondTo.trans hallow')]

/-- For inputs that can be started, the digest compares the values of the desktop, the variables and
what is the record's own. -/
theorem sameHashed_iff (hleft : Startable left.record) (hright : Startable right.record) :
    SameHashed build left right ↔
      AgreeElsewhere build machine left right ∧ SameDigested build machine left right := by
  have hvalues := @desktopValues_iff build machine left right hleft hright
  obtain ⟨normalized, hvalid, _⟩ := hleft.allowlist
  obtain ⟨normalized', hvalid', _⟩ := hright.allowlist
  have hlists : left.hashedAllowlist = right.hashedAllowlist ↔
      validateRespondToAllowlist left.record.respondToAllowlist =
        validateRespondToAllowlist right.record.respondToAllowlist := by
    unfold SpawnInputs.hashedAllowlist
    rw [hvalid, hvalid', Except.ok.injEq]
  constructor
  · intro h
    have hvars := hvalues.mpr ⟨h.command, h.groupId, h.prompt, h.team, h.idleTimeout,
      h.maxTurnDuration, h.respondTo, fun hallow => hlists.mp (h.allowlist hallow)⟩
    exact ⟨⟨h.acpCommand, fun var hvar _ _ => hvars var hvar, fun key _ _ _ => by rw [h.env]⟩,
      h.agentArgs, h.model, h.provider, fun var hvar _ => hvars var hvar,
        fun key _ => by rw [h.env]⟩
  · rintro ⟨hagree, hsame⟩
    have hvars : ∀ var ∉ DesktopVar.apart,
        left.desktopValue build machine var = right.desktopValue build machine var := by
      intro var hvar
      by_cases hplain : left.override build machine var = none ∧
        right.override build machine var = none
      · exact hagree.vars var hvar hplain.1 hplain.2
      · exact hsame.vars var hvar hplain
    obtain ⟨hcommand, hgroup, hprompt, hteam, hidle, hlimit, hmode, hlist⟩ := hvalues.mp hvars
    refine ⟨hagree.acpCommand, hcommand, hsame.agentArgs, Std.ExtTreeMap.ext_getElem? fun key => ?_,
      hgroup, hprompt, hteam, hsame.model, hsame.provider, hmode,
      fun hallow => hlists.mpr (hlist hallow), hidle, hlimit,
      hleft.parallelism.trans hright.parallelism.symm⟩
    by_cases hspecial : key ∈ desktopNames ∨ left.Hides key ∨ right.Hides key
    · exact hsame.env key hspecial
    · obtain ⟨hname, hhides⟩ := not_or.mp hspecial
      obtain ⟨hhides, hhides'⟩ := not_or.mp hhides
      exact hagree.env key hname hhides hhides'

theorem shown_of_plain {inputs : SpawnInputs} {var : DesktopVar}
    (h : inputs.override build machine var = none) :
    inputs.shown build machine var = inputs.desktopValue build machine var := by
  unfold SpawnInputs.shown
  rw [h]
  rfl

theorem spawn_iff (hleft : Startable left.record) (hright : Startable right.record) :
    (∃ launch, spawnAgentChild build machine left = .ok launch ∧
        spawnAgentChild build machine right = .ok launch) ↔
      AgreeElsewhere build machine left right ∧ SameShown build machine left right := by
  obtain ⟨normalized, _, _, hgate⟩ := hleft.gate
  obtain ⟨normalized', _, _, hgate'⟩ := hright.gate
  have hspawn : ∀ inputs : SpawnInputs, Startable inputs.record →
      spawnAgentChild build machine inputs =
        (buildRespondToEnv inputs.record).map fun gate =>
          ⟨inputs.record.acpCommand, childEnv build machine inputs gate⟩ := by
    intro inputs hinputs
    unfold spawnAgentChild
    rw [if_neg (by simp [hinputs.parallelism]), if_neg (by simp [hinputs.pubkey])]
  have hlaunch : ∀ a b : HarnessLaunch,
      (∃ launch, (Except.ok a : Except String HarnessLaunch) = .ok launch ∧
        (Except.ok b : Except String HarnessLaunch) = .ok launch) ↔ a = b := by
    intro a b
    constructor
    · rintro ⟨launch, ha, hb⟩
      cases ha
      cases hb
      rfl
    · rintro rfl
      exact ⟨a, rfl, rfl⟩
  rw [hspawn left hleft, hspawn right hright, hgate, hgate']
  simp only [Except.map, hlaunch, HarnessLaunch.mk.injEq]
  rw [childEnv_eq_iff hgate hgate']
  constructor
  · rintro ⟨hacp, hvars, hdefaults, henv⟩
    refine ⟨⟨hacp, fun var _ hplain hplain' => ?_, fun key hkey hhides hhides' => ?_⟩,
      fun var _ => hvars var, hdefaults, fun key hkey _ => henv key hkey⟩
    · rw [← shown_of_plain hplain, hvars, shown_of_plain hplain']
    · rw [digestedEnv_getElem? hhides, digestedEnv_getElem? hhides', henv key hkey]
  · rintro ⟨hagree, hsame⟩
    refine ⟨hagree.acpCommand, fun var => ?_, hsame.defaults, fun key hkey => ?_⟩
    · by_cases hspecial : var ∈ DesktopVar.apart ∨ ¬(left.override build machine var = none ∧
        right.override build machine var = none)
      · exact hsame.vars var hspecial
      · obtain ⟨hvar, hplain⟩ := not_or.mp hspecial
        obtain ⟨hplain, hplain'⟩ := not_not.mp hplain
        rw [shown_of_plain hplain, shown_of_plain hplain', hagree.vars var hvar hplain hplain']
    · by_cases hhides : left.Hides key ∨ right.Hides key
      · exact hsame.env key hkey hhides
      · obtain ⟨hhides, hhides'⟩ := not_or.mp hhides
        rw [← digestedEnv_getElem? hhides, ← digestedEnv_getElem? hhides',
          hagree.env key hkey hhides hhides']

/-- What is started can be. -/
theorem startable_of_ok {inputs : SpawnInputs} {launch : HarnessLaunch}
    (h : spawnAgentChild build machine inputs = .ok launch) : Startable inputs.record := by
  unfold spawnAgentChild at h
  split_ifs at h with hparallelism hpubkey
  · cases hgate : buildRespondToEnv inputs.record with
    | error e =>
        rw [hgate] at h
        cases h
    | ok gate =>
        unfold buildRespondToEnv at hgate
        cases hvalid : validateRespondToAllowlist inputs.record.respondToAllowlist with
        | error e =>
            rw [hvalid] at hgate
            cases hgate
        | ok normalized =>
            rw [hvalid] at hgate
            refine ⟨not_not.mp hparallelism, by simpa using hpubkey, normalized, hvalid, ?_⟩
            intro hallow hnil
            simp [hallow, hnil] at hgate

/-- The agent without a model of its own, under a global one. -/
def reviewerInputs (own global : Option String) : SpawnInputs where
  record := { standaloneReviewer with model := own }
  personas := []
  teams := []
  groupId := "0f3a"
  global := ⟨∅, none, global⟩

def reviewerMachine : Machine where
  isSet := fun _ => false
  augmentedPath := some "/usr/local/bin:/usr/bin:/bin"
  rustLog := "buzz_acp=info"
  childDataDir := "/home/user/.x0x/agents/reviewer"
  ownerAgentId := repeatText 'a' 64
  childAgentId := repeatText 'b' 64
  lazyPool := false
  claudeCodeExecutable := some "/usr/local/bin/claude"
  instanceId := "desktop-1"
  startNonce := repeatText '0' 32

theorem reviewerInputs_startable (own global : Option String) :
    Startable ((reviewerInputs own global).snapshot plainBuild).record := by
  have hpubkey : isHexText 64 standaloneReviewer.pubkey = true := by decide +kernel
  refine ⟨rfl, hpubkey, [], rfl, ?_⟩
  intro h
  cases h

/-- Claude gets neither the model nor the provider in a variable of its own. -/
theorem reviewerInputs_metadataEnv (own global : Option String)
    (modelProvider : Option String × Option String) :
    metadataEnv ((reviewerInputs own global).runtimeMeta plainBuild) modelProvider = [] := by
  have hvars : ((reviewerInputs none none).runtimeMeta plainBuild).map
      (fun runtime => (runtime.modelEnvVar, runtime.providerEnvVar)) = some (none, none) := by
    decide +kernel
  obtain ⟨runtime, hruntime, hnone⟩ := Option.map_eq_some_iff.mp hvars
  obtain ⟨hmodel, hprovider⟩ := Prod.mk.inj hnone
  rw [show (reviewerInputs own global).runtimeMeta plainBuild = some runtime from hruntime]
  simp [metadataEnv, KnownAcpRuntime.metadataEnv, runtimeMetadataEnvVars, hmodel, hprovider, envVar]

theorem snapshot_reviewerInputs (own global : Option String) :
    (reviewerInputs own global).snapshot plainBuild = reviewerInputs own global :=
  rfl

theorem reviewerInputs_setVar (own global : Option String) (key : String) :
    (reviewerInputs own global).setVar plainBuild key = none := by
  have hbaked : plainBuild.bakedBuildEnv = ∅ := rfl
  have hrecord : (reviewerInputs own global).record.envVars = ∅ := rfl
  have hlive : livePersonaEnv (reviewerInputs own global).personas
      (reviewerInputs own global).record.personaId = ∅ := rfl
  have hglobal : (reviewerInputs own global).global.envVars = ∅ := rfl
  unfold SpawnInputs.setVar SpawnInputs.userEnv
  rw [reviewerInputs_metadataEnv, hbaked, hrecord, hlive, hglobal, mergedUserEnv_getElem?,
    mergedUserEnv_getElem?]
  simp

/-- The harness has the model that is fallen back to. -/
theorem reviewerInputs_model (own global : Option String) :
    (reviewerInputs own global).shown plainBuild reviewerMachine .model = some (own.or global) := by
  have hearly : DesktopVar.model ∉ DesktopVar.late ∧ DesktopVar.model ∉ DesktopVar.final := by
    decide
  unfold SpawnInputs.shown SpawnInputs.override
  rw [if_neg hearly.1, if_neg fun h => hearly.2 h.1, reviewerInputs_setVar]
  have hvalue : (reviewerInputs own global).desktopValue plainBuild reviewerMachine .model =
      some (own.or global) := by
    cases own <;> rfl
  rw [hvalue]
  rfl

end Exact

end Buzz.ManagedAgents
