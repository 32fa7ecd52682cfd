import Buzz.Readiness

/-!
# Variables that the user cannot touch

The variables of the user are checked when they are saved and filtered again when
an agent is started. What a harness reads is the block that the system builds from
the changes of the command and the environment of the desktop; a reader goes by the
text before the first equals sign, so a name with one inside could pose as another.
-/

namespace Buzz.ManagedAgents

section Validation

def maxEnvTotalBytes : ℕ := 256 * 1024

def isControl (c : Char) : Bool := c.toNat < 0x20 || (0x7f ≤ c.toNat && c.toNat ≤ 0x9f)

/-- The key without what follows an equals sign, since that may be a secret. -/
def displayInvalidKey (key : String) : String :=
  let truncatedAtEq := String.ofList (key.toList.takeWhile (· ≠ '='))
  let sanitized := String.ofList (truncatedAtEq.toList.map fun c => if isControl c then '?' else c)
  if sanitized.length > 64 then String.ofList (sanitized.toList.take 64) ++ "…"
  else if sanitized.utf8ByteSize < truncatedAtEq.utf8ByteSize ∨
      truncatedAtEq.utf8ByteSize < key.utf8ByteSize then sanitized ++ "…"
  else sanitized

/-- The sum of the sizes; a sum past the range of a machine word is past the limit too. -/
def checkEnvValues (total : ℕ) : List (String × String) → Except String ℕ
  | [] => .ok total
  | (k, v) :: rest =>
      if v.toList.contains '\x00' then
        .error ("env var `" ++ k ++ "`: values cannot contain NUL bytes")
      else if v.utf8ByteSize > maxEnvValueBytes then
        .error ("env var `" ++ k ++ "`: value is " ++ toString v.utf8ByteSize ++
          " bytes; per-value limit is " ++ toString maxEnvValueBytes)
      else checkEnvValues (total + k.utf8ByteSize + v.utf8ByteSize) rest

def validateUserEnvKeys (envVars : EnvVars) : Except String Unit :=
  let malformed := envVars.keys.filter fun k => !isWellFormedEnvKey k
  let reserved := envVars.keys.filter isReservedEnvKey
  if malformed ≠ [] then
    .error ("env var keys must match [A-Za-z_][A-Za-z0-9_]*; invalid: " ++
      ", ".intercalate (malformed.map fun k =>
        if k = "" then "(empty)" else "\"" ++ displayInvalidKey k ++ "\""))
  else if reserved ≠ [] then
    .error ("the following env vars are reserved by tic-tac-toe and cannot be overridden: " ++
      ", ".intercalate reserved)
  else
    match checkEnvValues 0 envVars.toList with
    | .error e => .error e
    | .ok total =>
        if total > maxEnvTotalBytes then
          .error ("total env var payload is " ++ toString total ++ " bytes; limit is " ++
            toString maxEnvTotalBytes)
        else .ok ()

def totalEnvBytes (entries : List (String × String)) : ℕ :=
  (entries.map fun entry => entry.1.utf8ByteSize + entry.2.utf8ByteSize).sum

/-- A value that a command takes and that is not too long. -/
def IsFitValue (value : String) : Prop :=
  '\x00' ∉ value.toList ∧ value.utf8ByteSize ≤ maxEnvValueBytes

theorem isUsableEnvVar_iff {key value : String} :
    isUsableEnvVar key value = true ↔
      isReservedEnvKey key = false ∧ isWellFormedEnvKey key = true ∧ IsFitValue value := by
  simp [isUsableEnvVar, IsFitValue, and_assoc]

theorem checkEnvValues_ok_iff (entries : List (String × String)) : ∀ total result : ℕ,
    checkEnvValues total entries = .ok result ↔
      (∀ entry ∈ entries, IsFitValue entry.2) ∧ result = total + totalEnvBytes entries := by
  induction entries with
  | nil =>
    intro total result
    simp [checkEnvValues, totalEnvBytes, eq_comm]
  | cons entry entries ih =>
    intro total result
    obtain ⟨k, v⟩ := entry
    unfold checkEnvValues
    by_cases hnul : '\x00' ∈ v.toList
    · simp [hnul, IsFitValue]
    · by_cases hlong : v.utf8ByteSize > maxEnvValueBytes
      · have hnot : ¬v.utf8ByteSize ≤ maxEnvValueBytes := by omega
        simp [hnul, hlong, hnot, IsFitValue]
      · have hfit : IsFitValue v := ⟨hnul, by omega⟩
        simp only [List.contains_eq_mem, hnul, decide_false, Bool.false_eq_true, if_false,
          if_neg hlong, ih, List.forall_mem_cons, hfit, true_and, totalEnvBytes, List.map_cons,
          List.sum_cons]
        rw [← Nat.add_assoc, ← Nat.add_assoc]

theorem mergedUserEnv_keeps_iff (envVars : EnvVars) :
    mergedUserEnv ∅ envVars = envVars ↔
      ∀ entry ∈ envVars.toList, isUsableEnvVar entry.1 entry.2 = true := by
  constructor
  · intro h entry hmem
    have hvalue := Std.ExtTreeMap.mem_toList_iff_getElem?_eq_some.mp hmem
    rw [← h, mergedUserEnv_getElem?] at hvalue
    simp only [Std.ExtTreeMap.getElem?_empty, Option.or_none] at hvalue
    exact (Option.filter_eq_some_iff.mp hvalue).2
  · intro h
    apply Std.ExtTreeMap.ext_getElem?
    intro key
    rw [mergedUserEnv_getElem?, Std.ExtTreeMap.getElem?_empty, Option.or_none]
    cases hvalue : envVars[key]? with
    | none => rfl
    | some value =>
      have husable := h (key, value) (Std.ExtTreeMap.mem_toList_iff_getElem?_eq_some.mpr hvalue)
      exact Option.filter_eq_some_iff.mpr ⟨rfl, husable⟩

/-- What is saved is what a start keeps, up to the limit on the whole. -/
theorem validate_ok_iff (envVars : EnvVars) :
    validateUserEnvKeys envVars = .ok () ↔
      mergedUserEnv ∅ envVars = envVars ∧ totalEnvBytes envVars.toList ≤ maxEnvTotalBytes := by
  have hkeys : ∀ p : String → Bool, envVars.keys.filter p = [] ↔
      ∀ entry ∈ envVars.toList, p entry.1 = false := by
    intro p
    rw [← Std.ExtTreeMap.map_fst_toList_eq_keys, List.filter_eq_nil_iff, List.forall_mem_map]
    simp
  rw [mergedUserEnv_keeps_iff]
  unfold validateUserEnvKeys
  generalize envVars.toList = entries at *
  generalize envVars.keys = keys at *
  simp only [isUsableEnvVar_iff, forall_and]
  by_cases hmalformed : (keys.filter fun k => !isWellFormedEnvKey k) = []
  · have hshape := (hkeys _).mp hmalformed
    simp only [Bool.not_eq_false'] at hshape
    by_cases hreserved : keys.filter isReservedEnvKey = []
    · have hfree := (hkeys _).mp hreserved
      cases hvalues : checkEnvValues 0 entries with
      | error e =>
        have hnot : ¬∀ entry ∈ entries, IsFitValue entry.2 := by
          intro hfit
          have hok := (checkEnvValues_ok_iff entries 0 _).mpr ⟨hfit, rfl⟩
          rw [hvalues] at hok
          cases hok
        simp only [hmalformed, hreserved, ne_eq, not_true, if_false, reduceCtorEq, hnot, and_false,
          false_and]
      | ok total =>
        obtain ⟨hfit, htotal⟩ := (checkEnvValues_ok_iff entries 0 total).mp hvalues
        rw [Nat.zero_add] at htotal
        simp only [hmalformed, hreserved, ne_eq, not_true, if_false, ← htotal]
        by_cases hlimit : total > maxEnvTotalBytes
        · have hnot : ¬total ≤ maxEnvTotalBytes := by omega
          simp only [if_pos hlimit, reduceCtorEq, hnot, and_false]
        · have hle : total ≤ maxEnvTotalBytes := by omega
          simp only [if_neg hlimit, true_iff]
          exact ⟨⟨hfree, hshape, hfit⟩, hle⟩
    · have hnot := mt (hkeys isReservedEnvKey).mpr hreserved
      simp only [hmalformed, hreserved, ne_eq, not_true, not_false_eq_true, if_false, if_true,
        reduceCtorEq, hnot, false_and]
  · have hnot := mt (hkeys fun k => !isWellFormedEnvKey k).mpr hmalformed
    simp only [Bool.not_eq_false'] at hnot
    simp only [hmalformed, ne_eq, not_false_eq_true, if_true, reduceCtorEq, hnot, false_and,
      and_false]

end Validation

section Block

/-- The variables of a new process: those of the parent with the changes of the command. -/
def capture (ambient : EnvVars) (env : CommandEnv) : EnvVars :=
  (ambient.filter fun key _ => env[key]?.isNone) ∪ env.filterMap fun _ value => value

def envBlock (vars : EnvVars) : List String :=
  vars.toList.map fun entry => entry.1 ++ "=" ++ entry.2

/-- The value of the first entry that starts with the name and an equals sign. -/
def getenv (block : List String) (name : String) : Option String :=
  block.findSome? fun entry =>
    if (name.toList ++ ['=']).isPrefixOf entry.toList then
      some (String.ofList (entry.toList.drop (name.toList.length + 1)))
    else none

/-- The entry of the key is one that a reader of the name could be given. -/
def answers (name key : String) : Bool := (name.toList ++ ['=']).isPrefixOf (key.toList ++ ['='])

theorem capture_getElem? (ambient : EnvVars) (env : CommandEnv) (key : String) :
    (capture ambient env)[key]? =
      match env[key]? with
      | some value => value
      | none => ambient[key]? := by
  unfold capture
  rw [Std.ExtTreeMap.getElem?_union, Std.ExtTreeMap.getElem?_filterMap',
    Std.ExtTreeMap.getElem?_filter']
  cases hchange : env[key]? with
  | none => cases ambient[key]? <;> simp [Option.filter]
  | some value => cases value <;> simp

theorem answers_of_starts {name key value : List Char} (hname : '=' ∉ name)
    (h : name ++ ['='] <+: key ++ '=' :: value) : name ++ ['='] <+: key ++ ['='] := by
  obtain ⟨rest, hrest⟩ := h
  have hsplit : name ++ '=' :: rest = key ++ '=' :: value := by simpa using hrest
  obtain ⟨extra, hkey, htail⟩ | ⟨extra, hname', htail⟩ := List.append_eq_append_iff.mp hsplit
  · cases extra with
    | nil => simp [hkey]
    | cons c extra =>
      -- the key itself goes on with an equals sign
      obtain ⟨rfl, -⟩ := List.cons.inj htail
      exact ⟨extra ++ ['='], by simp [hkey]⟩
  · cases extra with
    | nil => simp [hname']
    | cons c extra =>
      obtain ⟨rfl, -⟩ := List.cons.inj htail
      exact absurd (by simp [hname']) hname

theorem findSome?_filter_of_none {α β : Type} {f : α → Option β} {p : α → Bool} {xs : List α}
    (h : ∀ x ∈ xs, p x = false → f x = none) : (xs.filter p).findSome? f = xs.findSome? f := by
  induction xs with
  | nil => rfl
  | cons x xs ih =>
    obtain ⟨hx, hxs⟩ := List.forall_mem_cons.mp h
    by_cases hp : p x = true
    · rw [List.filter_cons_of_pos hp, List.findSome?_cons, List.findSome?_cons, ih hxs]
    · rw [List.filter_cons_of_neg hp, List.findSome?_cons, hx (by simpa using hp), ih hxs]

/-- A reader of the name sees only the keys that answer to it. -/
theorem getenv_congr {left right : EnvVars} {name : String} (hname : '=' ∉ name.toList)
    (h : ∀ key, answers name key = true → left[key]? = right[key]?) :
    getenv (envBlock left) name = getenv (envBlock right) name := by
  have hfilter : left.filter (fun key _ => answers name key) =
      right.filter fun key _ => answers name key := by
    apply Std.ExtTreeMap.ext_getElem?
    intro key
    rw [Std.ExtTreeMap.getElem?_filter', Std.ExtTreeMap.getElem?_filter']
    by_cases hkey : answers name key = true
    · rw [h key hkey]
    · simp [hkey]
  have hread : ∀ vars : EnvVars, getenv (envBlock vars) name =
      getenv (envBlock (vars.filter fun key _ => answers name key)) name := by
    intro vars
    unfold getenv envBlock
    rw [Std.ExtTreeMap.toList_filter, List.findSome?_map, List.findSome?_map,
      findSome?_filter_of_none]
    intro entry _ hentry
    have hnot : ¬(name.toList ++ ['=']).isPrefixOf (entry.1 ++ "=" ++ entry.2).toList = true := by
      intro hprefix
      have hlist : (entry.1 ++ "=" ++ entry.2).toList =
          entry.1.toList ++ '=' :: entry.2.toList := by simp
      rw [hlist, List.isPrefixOf_iff_prefix] at hprefix
      have hanswers := List.isPrefixOf_iff_prefix.mpr (answers_of_starts hname hprefix)
      exact Bool.false_ne_true (hentry.symm.trans hanswers)
    simp only [Function.comp_apply, if_neg hnot]
  rw [hread left, hread right, hfilter]

end Block

section Payload

def AcpAvailabilityStatus.asStr : AcpAvailabilityStatus → String
  | available => "available"
  | adapterMissing => "adapter_missing"
  | adapterOutdated => "adapter_outdated"
  | cliMissing => "cli_missing"
  | notInstalled => "not_installed"

def Requirement.toJson : Requirement → Json
  | normalizedField field =>
      .object [("field", .string field), ("surface", .string "normalized_field")]
  | envKey key => .object [("key", .string key), ("surface", .string "env_key")]
  | cliLogin probeArgs setupCopy availability =>
      .object [("availability", .string availability.asStr),
        ("probe_args", .array (probeArgs.map .string)), ("setup_copy", .string setupCopy),
        ("surface", .string "cli_login")]
  | cliConfigInvalid probeArgs setupCopy diagnostic =>
      .object [("diagnostic", .string diagnostic),
        ("probe_args", .array (probeArgs.map .string)), ("setup_copy", .string setupCopy),
        ("surface", .string "cli_config_invalid")]
  | gitBash => .object [("surface", .string "git_bash")]

/-- What a start is made on: the build, the machine and the environment of the desktop. The text of
a JSON value is that of a library, which may refuse one. -/
structure StartSite where
  build : DesktopBuild
  machine : Machine
  probes : ReadinessProbes
  ambient : EnvVars
  jsonText : Json → Option String

variable (site : StartSite) (inputs : SpawnInputs)

namespace SpawnInputs

def readiness : AgentReadiness :=
  agentReadiness site.probes site.build (inputs.effectiveEnv site.build)

def setupPayloadOf (readiness : AgentReadiness) : Option String :=
  match readiness with
  | .ready => none
  | .notReady requirements =>
      site.jsonText (.object [("agent_name", .string inputs.record.name),
        ("agent_pubkey", .string inputs.record.pubkey),
        ("requirements", .array (requirements.map Requirement.toJson))])

/-- As `written`, with the payload of an agent that is not ready. -/
def writtenWithPayload (gate : String × Option String) : DesktopVar → Option (Option String) :=
  Function.update (inputs.written site.build site.machine gate) .setupPayload
    (some (inputs.setupPayloadOf site (inputs.readiness site)))

/-- All the changes of a start, in the order of `childEnv`. -/
def harnessEnv (gate : String × Option String) : CommandEnv :=
  let written := inputs.writtenWithPayload site gate
  writeVars written DesktopVar.early ∪
    defaultEnvWrites site.machine.isSet (inputs.runtimeMeta site.build) ∪
      setVars (inputs.floorEnv site.build) ∪ writeVars written DesktopVar.late ∪
        setVars inputs.userEnv ∪ writeVars written DesktopVar.final

/-- The block that the harness is started with. -/
def startedBlock : Except String (List String) :=
  match spawnAgentChild site.build site.machine inputs with
  | .error e => .error e
  | .ok _ =>
      (buildRespondToEnv inputs.record).map fun gate =>
        envBlock (capture site.ambient (inputs.harnessEnv site gate))

/-- The inputs with every variable of the user taken out. -/
def withoutUserEnv : SpawnInputs :=
  { inputs with
    record := { inputs.record with envVars := ∅ }
    personas := inputs.personas.map fun persona => { persona with envVars := ∅ }
    global := { inputs.global with envVars := ∅ } }

end SpawnInputs

variable {site inputs}

end Payload

section Erased

variable {inputs left right : SpawnInputs} {build : DesktopBuild} {machine : Machine}

theorem findPersona_erased (personas : List AgentDefinition) (personaId : Option String) :
    findPersona (personas.map fun persona => { persona with envVars := ∅ }) personaId =
      (findPersona personas personaId).map fun persona => { persona with envVars := ∅ } := by
  unfold findPersona
  cases personaId with
  | none => rfl
  | some id =>
    rw [Option.bind_some, Option.bind_some, List.find?_map]
    rfl

theorem effectiveCommand_erased :
    inputs.withoutUserEnv.effectiveCommand = inputs.effectiveCommand := by
  unfold SpawnInputs.effectiveCommand SpawnInputs.withoutUserEnv recordAgentCommand
    effectiveAgentCommand
  simp only [findPersona_erased]
  cases findPersona inputs.personas inputs.record.personaId with
  | none => rfl
  | some persona => rfl

theorem modelProvider_erased : inputs.withoutUserEnv.modelProvider = inputs.modelProvider := by
  unfold SpawnInputs.modelProvider SpawnInputs.withoutUserEnv resolveEffectiveModelProvider
    effectiveModel effectiveProvider
  simp only [findPersona_erased]
  cases findPersona inputs.personas inputs.record.personaId with
  | none => rfl
  | some persona => rfl

theorem runtimeMeta_erased :
    inputs.withoutUserEnv.runtimeMeta build = inputs.runtimeMeta build := by
  unfold SpawnInputs.runtimeMeta
  rw [effectiveCommand_erased]

theorem floorEnv_erased : inputs.withoutUserEnv.floorEnv build = inputs.floorEnv build := by
  unfold SpawnInputs.floorEnv
  rw [runtimeMeta_erased, modelProvider_erased]

theorem agentArgs_erased : inputs.withoutUserEnv.agentArgs build = inputs.agentArgs build := by
  unfold SpawnInputs.agentArgs
  rw [effectiveCommand_erased]
  rfl

theorem written_erased (gate : String × Option String) :
    inputs.withoutUserEnv.written build machine gate = inputs.written build machine gate := by
  funext var
  unfold SpawnInputs.written
  rw [effectiveCommand_erased, runtimeMeta_erased, agentArgs_erased, modelProvider_erased]
  cases var <;> rfl

end Erased

section TwoRuns

variable {inputs left right : SpawnInputs} {site : StartSite}

theorem writeVars_congr {written written' : DesktopVar → Option (Option String)}
    {vars : List DesktopVar} (hnodup : vars.Nodup) {key : String}
    (h : ∀ var : DesktopVar, var.name = key → written var = written' var) :
    (writeVars written vars)[key]? = (writeVars written' vars)[key]? := by
  by_cases hvar : ∃ var ∈ vars, var.name = key
  · obtain ⟨var, hmem, rfl⟩ := hvar
    rw [writeVars_of_mem hnodup hmem, writeVars_of_mem hnodup hmem, h var rfl]
  · have hnone : ∀ w : DesktopVar → Option (Option String), (writeVars w vars)[key]? = none :=
      fun w => writeVars_of_absent fun var hmem hname => absurd ⟨var, hmem, hname⟩ hvar
    rw [hnone, hnone]

/-- Whatever the user writes has a plain name that is not reserved, and a fit value. -/
theorem userEnv_sound {key value : String} (h : inputs.userEnv[key]? = some value) :
    isReservedEnvKey key = false ∧ isWellFormedEnvKey key = true ∧ IsFitValue value := by
  rw [userEnv_getElem?] at h
  exact isUsableEnvVar_iff.mp (Option.filter_eq_some_iff.mp h).2

theorem eq_not_mem_of_isReservedEnvKey {name : String} (h : isReservedEnvKey name = true) :
    '=' ∉ name.toList := by
  have hreserved : ∀ reserved ∈ reservedEnvKeys, '=' ∉ reserved.toList.map Char.toLower := by
    decide +kernel
  obtain ⟨reserved, hmem, hcase⟩ := List.any_eq_true.mp h
  intro hequals
  have hlower : reserved.toList.map Char.toLower = name.toList.map Char.toLower := by
    rw [← toList_toAsciiLowercase, ← toList_toAsciiLowercase]
    exact congrArg String.toList (eq_of_beq hcase)
  apply hreserved reserved hmem
  rw [hlower]
  exact List.mem_map.mpr ⟨'=', hequals, by decide⟩

theorem eq_not_mem_of_isWellFormedEnvKey {key : String} (h : isWellFormedEnvKey key = true) :
    '=' ∉ key.toList := by
  unfold isWellFormedEnvKey at h
  cases hkey : key.toList with
  | nil => simp
  | cons first rest =>
    rw [hkey] at h
    simp only [Bool.and_eq_true, List.all_eq_true] at h
    rw [List.mem_cons, not_or]
    constructor
    · rintro rfl
      exact absurd h.1 (by decide)
    · intro hmem
      exact absurd (h.2 '=' hmem) (by decide)

theorem answers_cases {name key : String} (h : answers name key = true) :
    key = name ∨ '=' ∈ key.toList := by
  obtain ⟨rest, hrest⟩ := List.isPrefixOf_iff_prefix.mp h
  rw [List.append_assoc] at hrest
  obtain ⟨extra, hkey, htail⟩ | ⟨extra, hname, htail⟩ := List.append_eq_append_iff.mp hrest
  · cases extra with
    | nil => exact .inl (String.toList_inj.mp (by simpa using hkey))
    | cons c extra =>
      obtain ⟨rfl, -⟩ := List.cons.inj htail
      exact .inr (by simp [hkey])
  · cases extra with
    | nil => exact .inl (String.toList_inj.mp (by simpa using hname.symm))
    | cons c extra => simp at htail

theorem userEnv_of_answers {name key : String} (hname : isReservedEnvKey name = true)
    (h : answers name key = true) : inputs.userEnv[key]? = none := by
  rw [Option.eq_none_iff_forall_ne_some]
  intro value hvalue
  obtain ⟨hfree, hshape, -⟩ := userEnv_sound hvalue
  rcases answers_cases h with rfl | hequals
  · exact Bool.false_ne_true (hfree.symm.trans hname)
  · exact eq_not_mem_of_isWellFormedEnvKey hshape hequals

theorem record_agree (hsame : left.withoutUserEnv = right.withoutUserEnv) {α : Type}
    (read : StoredAgentRecord → α)
    (hread : ∀ record, read { record with envVars := ∅ } = read record) :
    read left.record = read right.record := by
  rw [← hread left.record, ← hread right.record]
  exact congrArg (fun inputs : SpawnInputs => read inputs.record) hsame

theorem writtenWithPayload_agree (hsame : left.withoutUserEnv = right.withoutUserEnv)
    (gate : String × Option String) {var : DesktopVar}
    (hvar : var = .setupPayload → left.readiness site = right.readiness site) :
    left.writtenWithPayload site gate var = right.writtenWithPayload site gate var := by
  unfold SpawnInputs.writtenWithPayload
  by_cases hpayload : var = .setupPayload
  · subst hpayload
    have hname := record_agree hsame (fun record => record.name) fun _ => rfl
    have hpubkey := record_agree hsame (fun record => record.pubkey) fun _ => rfl
    rw [Function.update_self, Function.update_self, hvar rfl]
    unfold SpawnInputs.setupPayloadOf
    rw [hname, hpubkey]
  · rw [Function.update_of_ne hpayload, Function.update_of_ne hpayload, ← written_erased, hsame,
      written_erased]

/-- The changes of two starts agree wherever the user has no say. -/
theorem harnessEnv_agree (hsame : left.withoutUserEnv = right.withoutUserEnv)
    (gate : String × Option String) {key : String} (hleft : left.userEnv[key]? = none)
    (hright : right.userEnv[key]? = none)
    (hkey : key = DesktopVar.setupPayload.name → left.readiness site = right.readiness site) :
    (left.harnessEnv site gate)[key]? = (right.harnessEnv site gate)[key]? := by
  have hwritten : ∀ vars : List DesktopVar, vars.Nodup →
      (writeVars (left.writtenWithPayload site gate) vars)[key]? =
        (writeVars (right.writtenWithPayload site gate) vars)[key]? := by
    intro vars hnodup
    apply writeVars_congr hnodup
    rintro var rfl
    exact writtenWithPayload_agree hsame gate fun hvar => hkey (by rw [hvar])
  have hruntime : left.runtimeMeta site.build = right.runtimeMeta site.build := by
    rw [← runtimeMeta_erased, hsame, runtimeMeta_erased]
  have hfloor : left.floorEnv site.build = right.floorEnv site.build := by
    rw [← floorEnv_erased, hsame, floorEnv_erased]
  unfold SpawnInputs.harnessEnv
  simp only [Std.ExtTreeMap.getElem?_union, setVars_getElem?, hleft, hright, hruntime, hfloor,
    hwritten DesktopVar.early (by decide), hwritten DesktopVar.late (by decide),
    hwritten DesktopVar.final (by decide)]

theorem startedBlock_eq :
    inputs.startedBlock site =
      if inputs.record.parallelism ≠ 1 then
        .error ("native x0x ACP supports exactly one worker; set agent parallelism to 1 " ++
          "(stored value is " ++ toString inputs.record.parallelism ++ ")")
      else if isHexText 64 inputs.record.pubkey = false then
        .error "managed-agent pubkey must be 64 hexadecimal characters"
      else
        (buildRespondToEnv inputs.record).map fun gate =>
          envBlock (capture site.ambient (inputs.harnessEnv site gate)) := by
  unfold SpawnInputs.startedBlock spawnAgentChild
  by_cases hparallelism : inputs.record.parallelism ≠ 1
  · rw [if_pos hparallelism, if_pos hparallelism]
  · rw [if_neg hparallelism, if_neg hparallelism]
    by_cases hpubkey : isHexText 64 inputs.record.pubkey = false
    · rw [if_pos hpubkey, if_pos hpubkey]
    · rw [if_neg hpubkey, if_neg hpubkey]
      cases buildRespondToEnv inputs.record with
      | error e => rfl
      | ok gate => rfl

/-- What a reader of a reserved name is given does not depend on the variables of the user. -/
theorem getenv_reserved (hsame : left.withoutUserEnv = right.withoutUserEnv) {name : String}
    (hname : isReservedEnvKey name = true)
    (hpayload : name = DesktopVar.setupPayload.name →
      left.readiness site = right.readiness site) :
    (left.startedBlock site).map (getenv · name) =
      (right.startedBlock site).map (getenv · name) := by
  have hparallelism := record_agree hsame (fun record => record.parallelism) fun _ => rfl
  have hpubkey := record_agree hsame (fun record => record.pubkey) fun _ => rfl
  have hrespondTo := record_agree hsame buildRespondToEnv fun _ => rfl
  have hblock : ∀ gate : String × Option String,
      getenv (envBlock (capture site.ambient (left.harnessEnv site gate))) name =
        getenv (envBlock (capture site.ambient (right.harnessEnv site gate))) name := by
    intro gate
    apply getenv_congr (eq_not_mem_of_isReservedEnvKey hname)
    intro key hkey
    rw [capture_getElem?, capture_getElem?, harnessEnv_agree hsame gate
      (userEnv_of_answers hname hkey) (userEnv_of_answers hname hkey)]
    rintro rfl
    -- only the name itself answers to a name without an equals sign
    rcases answers_cases hkey with heq | hequals
    · exact hpayload heq.symm
    · exact absurd hequals (by decide)
  rw [startedBlock_eq, startedBlock_eq, hparallelism, hpubkey, hrespondTo]
  by_cases hworkers : right.record.parallelism ≠ 1
  · rw [if_pos hworkers, if_pos hworkers]
  · rw [if_neg hworkers, if_neg hworkers]
    by_cases hhex : isHexText 64 right.record.pubkey = false
    · rw [if_pos hhex, if_pos hhex]
    · rw [if_neg hhex, if_neg hhex]
      generalize buildRespondToEnv right.record = result
      cases result with
      | error e => simp only [Except.map]
      | ok gate => simp only [Except.map, hblock gate]

end TwoRuns

section Reserved

/-- Reserved names are out of reach, except that the payload follows the verdict of readiness. -/
theorem reserved_names_kept (site : StartSite) {left right : SpawnInputs}
    (hsame : left.withoutUserEnv = right.withoutUserEnv) :
    (∀ name, isReservedEnvKey name = true →
      (name = "BUZZ_ACP_SETUP_PAYLOAD" → left.readiness site = right.readiness site) →
        (left.startedBlock site).map (getenv · name) =
          (right.startedBlock site).map (getenv · name)) ∧
      (∀ key value, left.userEnv[key]? = some value →
        isWellFormedEnvKey key = true ∧ '\x00' ∉ value.toList) ∧
      ∀ envVars, validateUserEnvKeys envVars = .ok () ↔
        mergedUserEnv ∅ envVars = envVars ∧ totalEnvBytes envVars.toList ≤ maxEnvTotalBytes := by
  refine ⟨fun name => getenv_reserved hsame, ?_, validate_ok_iff⟩
  intro key value hvalue
  obtain ⟨-, hshape, hfit⟩ := userEnv_sound hvalue
  exact ⟨hshape, hfit.1⟩

def plainSite : StartSite where
  build := plainBuild
  machine := reviewerMachine
  probes := quietProbes
  ambient := ∅
  jsonText := fun _ => some "\x7b\x7d"

/-- A forged identity is not even looked at. -/
theorem reserved_names_kept_forged :
    let forged : EnvVars := (∅ : EnvVars).insert "x0x_agent_id" "forged"
    ∀ name, isReservedEnvKey name = true →
      (name = "BUZZ_ACP_SETUP_PAYLOAD" → (helperInputs forged ∅).readiness plainSite =
        (helperInputs ∅ ∅).readiness plainSite) →
        ((helperInputs forged ∅).startedBlock plainSite).map (getenv · name) =
          ((helperInputs ∅ ∅).startedBlock plainSite).map (getenv · name) := by
  intro forged
  have hsame : (helperInputs forged ∅).withoutUserEnv = (helperInputs ∅ ∅).withoutUserEnv := rfl
  exact (reserved_names_kept plainSite hsame).1

/-- With its credential the agent is ready, and the payload is gone. -/
theorem payload_follows_credential :
    ¬∀ (site : StartSite) (left right : SpawnInputs),
      left.withoutUserEnv = right.withoutUserEnv → ∀ name, isReservedEnvKey name = true →
        (left.startedBlock site).map (getenv · name) =
          (right.startedBlock site).map (getenv · name) := by
  intro h
  have hsame := h plainSite (helperInputs ∅ ∅) (helperInputs globalKey ∅) rfl
    "BUZZ_ACP_SETUP_PAYLOAD" (by decide +kernel)
  revert hsame
  decide +kernel

end Reserved

end Buzz.ManagedAgents
