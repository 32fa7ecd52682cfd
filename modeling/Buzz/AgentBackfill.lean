import Buzz.SpawnConfig
import Buzz.StoreHalves

/-!
# Definitions for the agents that have none

An agent without a persona gets a definition made from its own settings, under its own pubkey, and
is linked to it. The start then applies that definition to the very record it was made from. This
is to change nothing, but the snapshot normalises: a blank model or provider becomes none, and a pin
to another runtime is dropped.
-/

namespace Buzz.ManagedAgents

section Backfill

def needsBackfill (record : StoredAgentRecord) : Bool :=
  record.pubkey ≠ "" && record.personaId.isNone

def existingSlugs (records : List StoredAgentRecord) : List String :=
  records.filterMap StoredAgentRecord.slug

/-- The record with the fields that its definition is read off. -/
def viewSource (record : StoredAgentRecord) : StoredAgentRecord :=
  { record with
    slug := some record.pubkey
    definitionRespondTo := some record.respondTo.asStr
    definitionRespondToAllowlist := record.respondToAllowlist
    definitionParallelism := some record.parallelism }

/-- The definition of an agent, in the shape in which it is shown. -/
def ownDefinition (record : StoredAgentRecord) : AgentDefinition :=
  (viewSource record).toDefinitionView.get rfl

variable (build : DesktopBuild)

/-- The linked record and the definition made from it, unless there is nothing to do or the slug is
taken. -/
def backfillRecord (slugs : List String) (record : StoredAgentRecord) :
    Option (StoredAgentRecord × StoredAgentRecord) :=
  if needsBackfill record = false ∨ record.pubkey ∈ slugs then none
  else
    (viewSource record).toDefinitionView.map fun personaView =>
      ({ record with
          personaId := some record.pubkey
          personaSourceVersion := some (build.personaContentHash
            (personaEventContent personaView)) },
        personaView.intoAgentRecord)

def linkRecord (slugs : List String) (record : StoredAgentRecord) : StoredAgentRecord :=
  ((backfillRecord build slugs record).map Prod.fst).getD record

def manufactured (records : List StoredAgentRecord) : List StoredAgentRecord :=
  records.filterMap fun record =>
    (backfillRecord build (existingSlugs records) record).map Prod.snd

/-- The records as they are written back. -/
def backfilled (records : List StoredAgentRecord) : List StoredAgentRecord :=
  records.map (linkRecord build (existingSlugs records)) ++ manufactured build records

end Backfill

section Disk

/-- A copy of the store, whole or cut off. -/
inductive BackupContent where
  | whole (content : StoreContent)
  | cutOff (text : String)

structure BackfillDisk where
  store : Option StoreContent
  backup : Option BackupContent

/-- What becomes of the write of the copy, which is not atomic. -/
inductive BackupFate where
  | written
  | failed (left : Option BackupContent) (reason : String)
  | crashed (left : Option BackupContent)

/-- What becomes of the write of the store, which replaces it as a whole or not at all. One that
fails or is cut short may still have replaced it. -/
inductive StoreFate where
  | written
  | failed (replaced : Bool) (reason : String)
  | crashed (replaced : Bool)

structure BackfillReplies where
  read : Except String Unit
  parseError : String
  backup : BackupFate
  store : StoreFate

variable (build : DesktopBuild)

def BackfillDisk.replace (disk : BackfillDisk) (records : List StoredAgentRecord)
    (replaced : Bool) : BackfillDisk :=
  if replaced then { disk with store := some (.records (backfilled build records)) } else disk

/-- The store is written when there is something new. Without a result the process is gone. -/
def writeBackfilled (disk : BackfillDisk) (records : List StoredAgentRecord) (fate : StoreFate) :
    Option (Except String ℕ) × BackfillDisk :=
  let made := (manufactured build records).length
  if made = 0 then (some (.ok 0), disk)
  else
    match fate with
    | .written => (some (.ok made), disk.replace build records true)
    | .failed replaced reason => (some (.error reason), disk.replace build records replaced)
    | .crashed replaced => (none, disk.replace build records replaced)

def backfillStandaloneAgentsInDir (disk : BackfillDisk) (replies : BackfillReplies) :
    Option (Except String ℕ) × BackfillDisk :=
  match disk.store with
  | none => (some (.ok 0), disk)
  | some content =>
      match replies.read, content with
      | .error e, _ => (some (.error ("failed to read managed-agents.json: " ++ e)), disk)
      | .ok _, .malformed _ =>
          (some (.error ("failed to parse managed-agents.json: " ++ replies.parseError)), disk)
      | .ok _, .records records =>
          if records.any needsBackfill = false then (some (.ok 0), disk)
          else if disk.backup.isSome then writeBackfilled build disk records replies.store
          else
            match replies.backup with
            | .written =>
                writeBackfilled build { disk with backup := some (.whole content) } records
                  replies.store
            | .failed left reason =>
                (some (.error ("failed to write pre-backfill backup: " ++ reason)),
                  { disk with backup := left })
            | .crashed left => (none, { disk with backup := left })

/-- Runs one after another, with the results of those that end. -/
def backfillRuns (disk : BackfillDisk) :
    List BackfillReplies → List (Except String ℕ) × BackfillDisk
  | [] => ([], disk)
  | replies :: rest =>
      let run := backfillStandaloneAgentsInDir build disk replies
      let others := backfillRuns run.2 rest
      (run.1.toList ++ others.1, others.2)

end Disk

section Unchanged

def storedDefinitions (records : List StoredAgentRecord) : List AgentDefinition :=
  (records.filter isDefinition).filterMap StoredAgentRecord.toDefinitionView

variable (build : DesktopBuild)

/-- The record starts what it did before. -/
def KeepsDigest (records : List StoredAgentRecord) (record : StoredAgentRecord) : Prop :=
  ∀ teams groupId global,
    spawnConfigDigest build (linkRecord build (existingSlugs records) record)
        (storedDefinitions (backfilled build records)) teams groupId global =
      spawnConfigDigest build record (storedDefinitions records) teams groupId global

/-- The version of a linked record is that of the definition made for it, as it is read back. -/
def VersionMatches (records : List StoredAgentRecord) (record : StoredAgentRecord) : Prop :=
  record.pubkey ∉ existingSlugs records →
    ∃ definition ∈ backfilled build records, ∃ persona,
      isDefinition definition = true ∧ definition.slug = some record.pubkey ∧
        definition.toDefinitionView = some persona ∧
          (linkRecord build (existingSlugs records) record).personaSourceVersion =
            some (build.personaContentHash (personaEventContent persona))

/-- However often it has run and wherever it stopped, the store is the old one or the new one. On
the new one nothing more is made, and a copy that is there stays. -/
def RunsAgain (records : List StoredAgentRecord) : Prop :=
  ∀ backup earlier later,
    let before := (backfillRuns build ⟨some (.records records), backup⟩ earlier).2
    let after := backfillRuns build before later
    (before.store = some (.records records) ∨
        before.store = some (.records (backfilled build records))) ∧
      (before.store = some (.records (backfilled build records)) →
        after.2.store = before.store ∧ ∀ made, .ok made ∈ after.1 → made = 0) ∧
      (before.backup.isSome = true → after.2.backup = before.backup)

structure ChangesNothing (records : List StoredAgentRecord) : Prop where
  digest : ∀ record ∈ records, needsBackfill record = true → KeepsDigest build records record
  version : ∀ record ∈ records, needsBackfill record = true → VersionMatches build records record
  others : ∀ (i : ℕ) record, records[i]? = some record → needsBackfill record = false →
    (backfilled build records)[i]? = some record
  again : RunsAgain build records

/-- A pubkey names one agent. -/
def UniquePubkeys (records : List StoredAgentRecord) : Prop :=
  ∀ left ∈ records, ∀ right ∈ records, needsBackfill left = true → needsBackfill right = true →
    left.pubkey = right.pubkey → left = right

/-- The command of an agent without a pin and without a persona. -/
def unpinnedCommand (runtime : Option String) : String :=
  ((runtime.bind knownAcpRuntimeExact).bind KnownAcpRuntime.primaryCommand).getD
    defaultAgentCommand

/-- What the snapshot leaves alone: a model and a provider that are not blank, and a pin, unless it
says what the agent falls back to anyway. -/
structure Steady (record : StoredAgentRecord) : Prop where
  model : ∀ text, record.model = some text → trim text ≠ ""
  provider : ∀ text, record.provider = some text → trim text ≠ ""
  pin : dropsPin build record.runtime record.agentCommandOverride = true →
    ∀ pin, record.agentCommandOverride.bind trimmedText = some pin →
      pin = unpinnedCommand record.runtime

end Unchanged

section Link

variable (build : DesktopBuild)

/-- The record and its link. -/
def linked (record : StoredAgentRecord) : StoredAgentRecord :=
  { record with
    personaId := some record.pubkey
    personaSourceVersion :=
      some (build.personaContentHash (personaEventContent (ownDefinition record))) }

def isFresh (slugs : List String) (record : StoredAgentRecord) : Bool :=
  needsBackfill record && decide (record.pubkey ∉ slugs)

variable {build} {slugs : List String} {record : StoredAgentRecord}

theorem isFresh_iff :
    isFresh slugs record = true ↔ needsBackfill record = true ∧ record.pubkey ∉ slugs := by
  simp [isFresh]

theorem needsBackfill_iff :
    needsBackfill record = true ↔ record.pubkey ≠ "" ∧ record.personaId = none := by
  simp [needsBackfill]

theorem backfillRecord_eq :
    backfillRecord build slugs record =
      if isFresh slugs record then
        some (linked build record, (ownDefinition record).intoAgentRecord)
      else none := by
  unfold backfillRecord
  by_cases hfresh : isFresh slugs record = true
  · obtain ⟨hneeds, hslug⟩ := isFresh_iff.mp hfresh
    rw [if_neg (by simp [hneeds, hslug]), if_pos hfresh]
    rfl
  · rw [if_pos, if_neg hfresh]
    rw [isFresh_iff] at hfresh
    by_cases hneeds : needsBackfill record = true
    · exact Or.inr (by_contra fun hslug => hfresh ⟨hneeds, hslug⟩)
    · exact Or.inl (by simpa using hneeds)

theorem linkRecord_of_fresh (hfresh : isFresh slugs record = true) :
    linkRecord build slugs record = linked build record := by
  simp [linkRecord, backfillRecord_eq, hfresh]

theorem linkRecord_of_not_fresh (hfresh : isFresh slugs record = false) :
    linkRecord build slugs record = record := by
  simp [linkRecord, backfillRecord_eq, hfresh]

theorem linkRecord_pubkey : (linkRecord build slugs record).pubkey = record.pubkey := by
  by_cases hfresh : isFresh slugs record = true
  · rw [linkRecord_of_fresh hfresh]
    rfl
  · rw [linkRecord_of_not_fresh (by simpa using hfresh)]

theorem linkRecord_slug : (linkRecord build slugs record).slug = record.slug := by
  by_cases hfresh : isFresh slugs record = true
  · rw [linkRecord_of_fresh hfresh]
    rfl
  · rw [linkRecord_of_not_fresh (by simpa using hfresh)]

variable (build) in
theorem manufactured_eq (records : List StoredAgentRecord) :
    manufactured build records =
      (records.filter (isFresh (existingSlugs records))).map fun record =>
        (ownDefinition record).intoAgentRecord := by
  unfold manufactured
  rw [← List.filterMap_eq_map, List.filterMap_filter]
  apply List.filterMap_congr
  intro record _
  rw [backfillRecord_eq]
  split_ifs <;> rfl

/-- Links do not turn agents into definitions. -/
theorem filter_isDefinition_map_linkRecord (records : List StoredAgentRecord) :
    (records.map (linkRecord build slugs)).filter isDefinition = records.filter isDefinition := by
  induction records with
  | nil => rfl
  | cons record records ih =>
      have hkind : isDefinition (linkRecord build slugs record) = isDefinition record := by
        unfold isDefinition
        rw [linkRecord_pubkey]
      rw [List.map_cons, List.filter_cons, List.filter_cons, hkind, ih]
      split_ifs with hdef
      · have hfresh : isFresh slugs record = false := by
          have hpubkey : record.pubkey = "" := by simpa [isDefinition] using hdef
          simp [isFresh, needsBackfill, hpubkey]
        rw [linkRecord_of_not_fresh hfresh]
      · rfl

/-- A second look finds the old definitions and behind them the new ones. -/
theorem storedDefinitions_backfilled (records : List StoredAgentRecord) :
    storedDefinitions (backfilled build records) =
      storedDefinitions records ++
        (records.filter (isFresh (existingSlugs records))).map ownDefinition := by
  have hnew : ∀ fresh : List StoredAgentRecord,
      storedDefinitions (fresh.map fun record => (ownDefinition record).intoAgentRecord) =
        fresh.map ownDefinition := by
    intro fresh
    induction fresh with
    | nil => rfl
    | cons record fresh ih =>
        simp only [storedDefinitions, List.map_cons] at ih ⊢
        rw [List.filter_cons_of_pos rfl, List.filterMap_cons_some
          (toDefinitionView_intoAgentRecord (ownDefinition record)), ih]
  unfold backfilled
  rw [← hnew, ← manufactured_eq build]
  unfold storedDefinitions
  rw [List.filter_append, List.filterMap_append, filter_isDefinition_map_linkRecord]

theorem id_mem_existingSlugs {records : List StoredAgentRecord} {persona : AgentDefinition}
    (hmem : persona ∈ storedDefinitions records) : persona.id ∈ existingSlugs records := by
  obtain ⟨record, hrecord, hview⟩ := List.mem_filterMap.mp hmem
  obtain ⟨slug, hslug, rfl⟩ := Option.map_eq_some_iff.mp hview
  exact List.mem_filterMap.mpr ⟨record, List.mem_of_mem_filter hrecord, hslug⟩

/-- The link leads to the definition that was made from the record. -/
theorem findPersona_backfilled {records : List StoredAgentRecord} (hunique : UniquePubkeys records)
    (hmem : record ∈ records) (hfresh : isFresh (existingSlugs records) record = true) :
    findPersona (storedDefinitions (backfilled build records)) (some record.pubkey) =
      some (ownDefinition record) := by
  obtain ⟨hneeds, hslug⟩ := isFresh_iff.mp hfresh
  have hold : (storedDefinitions records).find? (fun persona => persona.id == record.pubkey) =
      none := by
    rw [List.find?_eq_none]
    intro persona hpersona heq
    have hid : persona.id = record.pubkey := by simpa using heq
    exact hslug (hid ▸ id_mem_existingSlugs hpersona)
  have hfound : ((records.filter (isFresh (existingSlugs records))).map ownDefinition).find?
      (fun persona => persona.id == record.pubkey) = some (ownDefinition record) := by
    cases hfind : ((records.filter (isFresh (existingSlugs records))).map ownDefinition).find?
        (fun persona => persona.id == record.pubkey) with
    | none =>
        rw [List.find?_eq_none] at hfind
        have hown := hfind (ownDefinition record)
          (List.mem_map_of_mem (List.mem_filter.mpr ⟨hmem, hfresh⟩))
        exact absurd (beq_self_eq_true record.pubkey) hown
    | some persona =>
        obtain ⟨other, hother, rfl⟩ := List.mem_map.mp (List.mem_of_find?_eq_some hfind)
        obtain ⟨hin, hfreshOther⟩ := List.mem_filter.mp hother
        have hpubkey : other.pubkey = record.pubkey := by
          have heq := List.find?_some hfind
          exact beq_iff_eq.mp heq
        rw [hunique other hin record hmem (isFresh_iff.mp hfreshOther).1 hneeds hpubkey]
  rw [storedDefinitions_backfilled]
  unfold findPersona
  rw [Option.bind_some, List.find?_append, hold, Option.none_or, hfound]

end Link

section Digest

theorem nonBlank_or_self (text : Option String) : (nonBlank text).or text = text := by
  cases text with
  | none => rfl
  | some text =>
      by_cases hblank : trim text = ""
      · simp [nonBlank, Option.filter, hblank]
      · simp [nonBlank, Option.filter, hblank]

theorem nonBlank_eq_self_iff {text : Option String} :
    nonBlank text = text ↔ ∀ value, text = some value → trim value ≠ "" := by
  cases text with
  | none => simp [nonBlank]
  | some text =>
      by_cases hblank : trim text = ""
      · simp [nonBlank, Option.filter, hblank]
      · simp [nonBlank, Option.filter, hblank]

theorem personaFieldWithRecordFallback_self (text : Option String) :
    personaFieldWithRecordFallback text text = nonBlank text := by
  unfold personaFieldWithRecordFallback
  cases nonBlank text <;> rfl

/-- The definition supplies all that the record loses to it. -/
theorem filter_own_env (env : EnvVars) :
    (env.filter fun key value => env[key]? != some value) = ∅ := by
  apply Std.ExtTreeMap.ext_getElem?
  intro key
  rw [Std.ExtTreeMap.getElem?_filter', Std.ExtTreeMap.getElem?_empty]
  cases env[key]? with
  | none => rfl
  | some value => simp [Option.filter]

theorem mergedUserEnv_own (env : EnvVars) : mergedUserEnv env ∅ = mergedUserEnv ∅ env := by
  apply Std.ExtTreeMap.ext_getElem?
  intro key
  simp only [mergedUserEnv, Std.ExtTreeMap.getElem?_filter', Std.ExtTreeMap.getElem?_union,
    Std.ExtTreeMap.getElem?_empty, Option.none_or, Option.or_none]

variable {build : DesktopBuild} {record : StoredAgentRecord}

/-- A pin, or what there is without one; the persona of an agent that names none says nothing. -/
theorem recordAgentCommand_standalone (hnone : record.personaId = none)
    (personas : List AgentDefinition) :
    recordAgentCommand record personas =
      (record.agentCommandOverride.bind trimmedText).getD (unpinnedCommand record.runtime) := by
  unfold recordAgentCommand effectiveAgentCommand unpinnedCommand findPersona
  rw [hnone]
  cases record.agentCommandOverride.bind trimmedText with
  | some pin => rfl
  | none =>
      cases (record.runtime.bind knownAcpRuntimeExact).bind KnownAcpRuntime.primaryCommand with
      | some command => rfl
      | none => rfl

variable {personas : List AgentDefinition}

/-- The snapshot of a record under its own definition. -/
def ownSnapshot (build : DesktopBuild) (record : StoredAgentRecord) : StoredAgentRecord :=
  applyPersonaSnapshot build (linked build record) (ownDefinition record)

theorem prospective_linked
    (hfind : findPersona personas (some record.pubkey) = some (ownDefinition record)) :
    prospective build (linked build record) personas = ownSnapshot build record := by
  unfold prospective ownSnapshot
  have hlink : (linked build record).personaId = some record.pubkey := rfl
  rw [hlink, hfind]

theorem ownSnapshot_model : (ownSnapshot build record).model = nonBlank record.model :=
  personaFieldWithRecordFallback_self record.model

theorem ownSnapshot_provider : (ownSnapshot build record).provider = nonBlank record.provider :=
  personaFieldWithRecordFallback_self record.provider

theorem ownSnapshot_envVars : (ownSnapshot build record).envVars = ∅ :=
  filter_own_env record.envVars

theorem ownSnapshot_override :
    (ownSnapshot build record).agentCommandOverride =
      if dropsPin build record.runtime record.agentCommandOverride then none
      else record.agentCommandOverride := rfl

/-- The persona names the runtime that the record has already been asked for. -/
theorem recordAgentCommand_ownSnapshot
    (hfind : findPersona personas (some record.pubkey) = some (ownDefinition record)) :
    recordAgentCommand (ownSnapshot build record) personas =
      ((ownSnapshot build record).agentCommandOverride.bind trimmedText).getD
        (unpinnedCommand record.runtime) := by
  have hlink : (ownSnapshot build record).personaId = some record.pubkey := rfl
  have hruntime : (ownSnapshot build record).runtime = record.runtime := rfl
  have hown : (ownDefinition record).runtime = record.runtime := rfl
  unfold recordAgentCommand effectiveAgentCommand unpinnedCommand
  rw [hlink, hruntime, hfind]
  cases (ownSnapshot build record).agentCommandOverride.bind trimmedText with
  | some pin => rfl
  | none =>
      simp only [Option.getD_none, Option.bind_none, Option.bind_some, hown]
      cases (record.runtime.bind knownAcpRuntimeExact).bind KnownAcpRuntime.primaryCommand with
      | some command => rfl
      | none => rfl

theorem command_kept_iff (hnone : record.personaId = none) (earlier : List AgentDefinition)
    (hfind : findPersona personas (some record.pubkey) = some (ownDefinition record)) :
    recordAgentCommand (ownSnapshot build record) personas = recordAgentCommand record earlier ↔
      (dropsPin build record.runtime record.agentCommandOverride = true →
        ∀ pin, record.agentCommandOverride.bind trimmedText = some pin →
          pin = unpinnedCommand record.runtime) := by
  rw [recordAgentCommand_ownSnapshot hfind, recordAgentCommand_standalone hnone,
    ownSnapshot_override]
  by_cases hdrop : dropsPin build record.runtime record.agentCommandOverride = true
  · rw [if_pos hdrop]
    cases record.agentCommandOverride.bind trimmedText with
    | none => simp
    | some pin => simp [hdrop, eq_comm]
  · simp [hdrop]

theorem env_kept (hnone : record.personaId = none) (earlier : List AgentDefinition)
    (hfind : findPersona personas (some record.pubkey) = some (ownDefinition record))
    (runtime : Option KnownAcpRuntime) (global : GlobalAgentConfig) :
    resolveEffectiveAgentEnv build.bakedBuildEnv (ownSnapshot build record) personas runtime
        global =
      resolveEffectiveAgentEnv build.bakedBuildEnv record earlier runtime global := by
  have hlink : (ownSnapshot build record).personaId = some record.pubkey := rfl
  have hmodel : effectiveModel (ownSnapshot build record) personas global =
      effectiveModel record earlier global := by
    unfold effectiveModel
    rw [hlink, hfind, hnone, ownSnapshot_model]
    exact congrArg (Option.or · global.model)
      ((nonBlank_or_self record.model).trans Option.or_none.symm)
  have hprovider : effectiveProvider (ownSnapshot build record) personas global =
      effectiveProvider record earlier global := by
    unfold effectiveProvider
    rw [hlink, hfind, hnone, ownSnapshot_provider]
    exact congrArg (Option.or · global.provider)
      ((nonBlank_or_self record.provider).trans Option.or_none.symm)
  have henv : mergedUserEnv (livePersonaEnv personas (ownSnapshot build record).personaId)
      (ownSnapshot build record).envVars =
        mergedUserEnv (livePersonaEnv earlier record.personaId) record.envVars := by
    unfold livePersonaEnv
    rw [hlink, hfind, hnone, ownSnapshot_envVars]
    exact mergedUserEnv_own record.envVars
  unfold resolveEffectiveAgentEnv resolveEffectiveModelProvider
  rw [hmodel, hprovider, henv]

theorem effectiveSpawnPrompt_ownSnapshot :
    effectiveSpawnPrompt (ownSnapshot build record) = effectiveSpawnPrompt record := by
  have hprompt : (ownSnapshot build record).systemPrompt = some (record.systemPrompt.getD "") := rfl
  unfold effectiveSpawnPrompt
  rw [hprompt]
  cases record.systemPrompt with
  | none => rfl
  | some prompt => rfl

/-- The digest survives the loop when the model, the provider and the command do. -/
theorem digest_kept_iff (hnone : record.personaId = none) (earlier : List AgentDefinition)
    (hfind : findPersona personas (some record.pubkey) = some (ownDefinition record)) :
    (∀ teams groupId global,
      spawnConfigDigest build (linked build record) personas teams groupId global =
        spawnConfigDigest build record earlier teams groupId global) ↔ Steady build record := by
  have hbefore : prospective build record earlier = record := by
    unfold prospective findPersona
    rw [hnone]
    rfl
  unfold spawnConfigDigest
  rw [prospective_linked hfind, hbefore]
  constructor
  · intro h
    have hsame := h [] "" ⟨∅, none, none⟩
    have hmodel : nonBlank record.model = record.model :=
      ownSnapshot_model.symm.trans (congrArg SpawnDigest.model hsame)
    have hprovider : nonBlank record.provider = record.provider :=
      ownSnapshot_provider.symm.trans (congrArg SpawnDigest.provider hsame)
    exact ⟨nonBlank_eq_self_iff.mp hmodel, nonBlank_eq_self_iff.mp hprovider,
      (command_kept_iff hnone earlier hfind).mp (congrArg SpawnDigest.agentCommand hsame)⟩
  · intro hsteady teams groupId global
    have hcommand := (command_kept_iff hnone earlier hfind).mpr hsteady.pin
    have hmodel : (ownSnapshot build record).model = record.model :=
      ownSnapshot_model.trans (nonBlank_eq_self_iff.mpr hsteady.model)
    have hprovider : (ownSnapshot build record).provider = record.provider :=
      ownSnapshot_provider.trans (nonBlank_eq_self_iff.mpr hsteady.provider)
    simp only [digestOf, hcommand, hmodel, hprovider, env_kept hnone earlier hfind,
      effectiveSpawnPrompt_ownSnapshot]
    rfl

end Digest

section Again

variable {build : DesktopBuild} {records : List StoredAgentRecord}

theorem existingSlugs_backfilled :
    existingSlugs (backfilled build records) =
      existingSlugs records ++
        (records.filter (isFresh (existingSlugs records))).map fun record => record.pubkey := by
  have hlinked : ∀ (slugs : List String) (records : List StoredAgentRecord),
      existingSlugs (records.map (linkRecord build slugs)) = existingSlugs records := by
    intro slugs records
    unfold existingSlugs
    rw [List.filterMap_map]
    apply List.filterMap_congr
    intro record _
    exact linkRecord_slug
  have hnew : ∀ fresh : List StoredAgentRecord,
      existingSlugs (fresh.map fun record => (ownDefinition record).intoAgentRecord) =
        fresh.map fun record => record.pubkey := by
    intro fresh
    unfold existingSlugs
    rw [List.filterMap_map, ← List.filterMap_eq_map]
    rfl
  rw [← hnew, ← manufactured_eq build]
  unfold backfilled
  rw [existingSlugs, List.filterMap_append]
  exact congrArg (· ++ existingSlugs (manufactured build records)) (hlinked _ records)

/-- An agent that is still without a persona met a taken slug, and meets it again. -/
theorem not_isFresh_backfilled {record : StoredAgentRecord}
    (hmem : record ∈ backfilled build records) :
    isFresh (existingSlugs (backfilled build records)) record = false := by
  rw [Bool.eq_false_iff]
  intro hfresh
  obtain ⟨hneeds, hslug⟩ := isFresh_iff.mp hfresh
  rw [existingSlugs_backfilled, List.mem_append, not_or] at hslug
  obtain hlink | hnew := List.mem_append.mp hmem
  · obtain ⟨old, hold, rfl⟩ := List.mem_map.mp hlink
    by_cases hfreshOld : isFresh (existingSlugs records) old = true
    · rw [linkRecord_of_fresh hfreshOld] at hneeds
      have hpersona := (needsBackfill_iff.mp hneeds).2
      exact absurd hpersona (Option.some_ne_none _)
    · rw [linkRecord_of_not_fresh (by simpa using hfreshOld)] at hneeds hslug
      exact hfreshOld (isFresh_iff.mpr ⟨hneeds, hslug.1⟩)
  · rw [manufactured_eq] at hnew
    obtain ⟨old, _, rfl⟩ := List.mem_map.mp hnew
    exact (needsBackfill_iff.mp hneeds).1 rfl

theorem manufactured_backfilled : manufactured build (backfilled build records) = [] := by
  rw [manufactured_eq, List.map_eq_nil_iff, List.filter_eq_nil_iff]
  intro record hmem
  rw [not_isFresh_backfilled hmem]
  exact Bool.false_ne_true

variable (build records) in
/-- One run leaves the store or replaces it, replaces it only when there is something new, and
leaves a copy that is there. -/
structure RunKeeps (disk : BackfillDisk) (run : Option (Except String ℕ) × BackfillDisk) :
    Prop where
  store : run.2.store = disk.store ∨ run.2.store = some (.records (backfilled build records))
  nothing : manufactured build records = [] →
    run.2.store = disk.store ∧ ∀ made, run.1 = some (.ok made) → made = 0
  backup : disk.backup.isSome = true → run.2.backup = disk.backup

variable {disk : BackfillDisk}

/-- A run that makes nothing and leaves the store. -/
theorem runKeeps_of_store_eq {run : Option (Except String ℕ) × BackfillDisk}
    (hstore : run.2.store = disk.store) (hmade : ∀ made, run.1 = some (.ok made) → made = 0)
    (hbackup : disk.backup.isSome = true → run.2.backup = disk.backup) :
    RunKeeps build records disk run :=
  ⟨Or.inl hstore, fun _ => ⟨hstore, hmade⟩, hbackup⟩

theorem replace_store (replaced : Bool) :
    (disk.replace build records replaced).store = disk.store ∨
      (disk.replace build records replaced).store = some (.records (backfilled build records)) := by
  cases replaced with
  | false => exact Or.inl rfl
  | true => exact Or.inr rfl

theorem replace_backup (replaced : Bool) :
    (disk.replace build records replaced).backup = disk.backup := by
  cases replaced <;> rfl

theorem runKeeps_write (fate : StoreFate) :
    RunKeeps build records disk (writeBackfilled build disk records fate) := by
  unfold writeBackfilled
  by_cases hmade : (manufactured build records).length = 0
  · rw [if_pos hmade]
    exact runKeeps_of_store_eq rfl (by simp) fun _ => rfl
  · have hnil : manufactured build records ≠ [] := fun hnil => hmade (by simp [hnil])
    rw [if_neg hmade]
    cases fate with
    | written => exact ⟨replace_store true, fun h => absurd h hnil, fun _ => replace_backup true⟩
    | failed replaced _ =>
        exact ⟨replace_store replaced, fun h => absurd h hnil, fun _ => replace_backup replaced⟩
    | crashed replaced =>
        exact ⟨replace_store replaced, fun h => absurd h hnil, fun _ => replace_backup replaced⟩

variable (build) in
theorem runKeeps (hstore : disk.store = some (.records records)) (replies : BackfillReplies) :
    RunKeeps build records disk (backfillStandaloneAgentsInDir build disk replies) := by
  obtain ⟨store, backup⟩ := disk
  subst hstore
  unfold backfillStandaloneAgentsInDir
  cases replies.read with
  | error e => exact runKeeps_of_store_eq rfl (by simp) fun _ => rfl
  | ok _ =>
      simp only
      by_cases hneeds : records.any needsBackfill = false
      · rw [if_pos hneeds]
        exact runKeeps_of_store_eq rfl (by simp) fun _ => rfl
      · rw [if_neg hneeds]
        cases backup with
        | some copy => exact runKeeps_write replies.store
        | none =>
            -- there is no copy to keep, whatever becomes of the new one
            have habsent : ¬ (none : Option BackupContent).isSome = true := Bool.false_ne_true
            cases replies.backup with
            | written =>
                have hwrite : RunKeeps build records
                    ⟨some (.records records), some (.whole (.records records))⟩ _ :=
                  runKeeps_write replies.store
                exact ⟨hwrite.store, hwrite.nothing, fun h => absurd h habsent⟩
            | failed left _ | crashed left =>
                exact runKeeps_of_store_eq rfl (by simp) fun h => absurd h habsent

theorem runs_backup (runs : List BackfillReplies) :
    ∀ {records : List StoredAgentRecord} {disk : BackfillDisk},
      disk.store = some (.records records) → disk.backup.isSome = true →
        (backfillRuns build disk runs).2.backup = disk.backup := by
  induction runs with
  | nil =>
      intro records disk _ _
      rfl
  | cons replies runs ih =>
      intro records disk hstore hbackup
      have hrun := runKeeps build hstore replies
      have hkept := hrun.backup hbackup
      have hnext : ((backfillStandaloneAgentsInDir build disk replies).2.backup).isSome = true := by
        rw [hkept]
        exact hbackup
      obtain hold | hnew := hrun.store
      · exact (ih (hold.trans hstore) hnext).trans hkept
      · exact (ih hnew hnext).trans hkept

/-- Where nothing is to be made, no run makes anything. -/
theorem runs_nothing (hnil : manufactured build records = []) (runs : List BackfillReplies) :
    ∀ {disk : BackfillDisk}, disk.store = some (.records records) →
      (backfillRuns build disk runs).2.store = disk.store ∧
        ∀ made, .ok made ∈ (backfillRuns build disk runs).1 → made = 0 := by
  induction runs with
  | nil =>
      intro disk _
      exact ⟨rfl, by simp [backfillRuns]⟩
  | cons replies runs ih =>
      intro disk hstore
      obtain ⟨hsame, hmade⟩ := (runKeeps build hstore replies).nothing hnil
      obtain ⟨hrest, hothers⟩ := ih (hsame.trans hstore)
      refine ⟨hrest.trans hsame, ?_⟩
      intro made hmem
      obtain hfirst | hlater := List.mem_append.mp hmem
      · exact hmade made (by simpa using hfirst)
      · exact hothers made hlater

theorem runs_store (runs : List BackfillReplies) :
    ∀ {disk : BackfillDisk}, disk.store = some (.records records) →
      (backfillRuns build disk runs).2.store = some (.records records) ∨
        (backfillRuns build disk runs).2.store = some (.records (backfilled build records)) := by
  induction runs with
  | nil =>
      intro disk hstore
      exact Or.inl hstore
  | cons replies runs ih =>
      intro disk hstore
      obtain hold | hnew := (runKeeps build hstore replies).store
      · exact ih (hold.trans hstore)
      · right
        exact ((runs_nothing manufactured_backfilled runs hnew).1).trans hnew

variable (build records) in
theorem runsAgain : RunsAgain build records := by
  intro backup earlier later
  have hstore : (backfillRuns build ⟨some (.records records), backup⟩ earlier).2.store =
      some (.records records) ∨
        (backfillRuns build ⟨some (.records records), backup⟩ earlier).2.store =
          some (.records (backfilled build records)) := runs_store earlier rfl
  refine ⟨hstore, fun hnew => runs_nothing manufactured_backfilled later hnew, ?_⟩
  intro hbackup
  obtain hold | hnew := hstore
  · exact runs_backup later hold hbackup
  · exact runs_backup later hnew hbackup

end Again

section Exact

variable {build : DesktopBuild} {records : List StoredAgentRecord} {record : StoredAgentRecord}

/-- The agents that are left alone are found where they were. -/
theorem others_unchanged {i : ℕ} (hrecord : records[i]? = some record)
    (hneeds : needsBackfill record = false) : (backfilled build records)[i]? = some record := by
  have hlt : i < records.length := (List.getElem?_eq_some_iff.mp hrecord).1
  have hfresh : isFresh (existingSlugs records) record = false := by simp [isFresh, hneeds]
  unfold backfilled
  rw [List.getElem?_append_left (by simpa using hlt), List.getElem?_map, hrecord, Option.map_some,
    linkRecord_of_not_fresh hfresh]

theorem versionMatches (hmem : record ∈ records) (hneeds : needsBackfill record = true) :
    VersionMatches build records record := by
  intro hslug
  have hfresh := isFresh_iff.mpr ⟨hneeds, hslug⟩
  refine ⟨(ownDefinition record).intoAgentRecord, ?_, ownDefinition record, rfl, rfl,
    toDefinitionView_intoAgentRecord _, ?_⟩
  · apply List.mem_append_right
    rw [manufactured_eq]
    exact List.mem_map_of_mem (f := fun record => (ownDefinition record).intoAgentRecord)
      (List.mem_filter.mpr ⟨hmem, hfresh⟩)
  · rw [linkRecord_of_fresh hfresh]
    rfl

/-- A record whose slug is taken keeps what it starts: no persona is asked for anything. -/
theorem keepsDigest_of_taken (hneeds : needsBackfill record = true)
    (htaken : record.pubkey ∈ existingSlugs records) : KeepsDigest build records record := by
  intro teams groupId global
  have hfresh : isFresh (existingSlugs records) record = false := by simp [isFresh, htaken]
  have hnone := (needsBackfill_iff.mp hneeds).2
  have hprospective : ∀ personas, prospective build record personas = record := by
    intro personas
    unfold prospective findPersona
    rw [hnone]
    rfl
  rw [linkRecord_of_not_fresh hfresh]
  unfold spawnConfigDigest
  rw [hprospective, hprospective]
  simp only [digestOf, recordAgentCommand_standalone hnone, resolveEffectiveAgentEnv,
    resolveEffectiveModelProvider, effectiveModel, effectiveProvider, livePersonaEnv, hnone,
    findPersona, Option.bind_none]

theorem keepsDigest_iff_of_fresh (hunique : UniquePubkeys records) (hmem : record ∈ records)
    (hfresh : isFresh (existingSlugs records) record = true) :
    KeepsDigest build records record ↔ Steady build record := by
  have hnone := (needsBackfill_iff.mp (isFresh_iff.mp hfresh).1).2
  unfold KeepsDigest
  rw [linkRecord_of_fresh hfresh]
  exact digest_kept_iff hnone _ (findPersona_backfilled hunique hmem hfresh)

/-- The backfill changes nothing exactly for stores whose agents, those with a taken slug apart,
have nothing for the snapshot to normalise. -/
theorem backfill_changes_nothing_iff (hunique : UniquePubkeys records) :
    ChangesNothing build records ↔
      ∀ record ∈ records, needsBackfill record = true → record.pubkey ∉ existingSlugs records →
        Steady build record := by
  constructor
  · intro h record hmem hneeds hslug
    have hfresh := isFresh_iff.mpr ⟨hneeds, hslug⟩
    exact (keepsDigest_iff_of_fresh hunique hmem hfresh).mp (h.digest record hmem hneeds)
  · intro hsteady
    refine ⟨?_, fun record hmem hneeds => versionMatches hmem hneeds,
      fun i record hrecord hneeds => others_unchanged hrecord hneeds, runsAgain build records⟩
    intro record hmem hneeds
    by_cases htaken : record.pubkey ∈ existingSlugs records
    · exact keepsDigest_of_taken hneeds htaken
    · have hfresh := isFresh_iff.mpr ⟨hneeds, htaken⟩
      exact (keepsDigest_iff_of_fresh hunique hmem hfresh).mpr (hsteady record hmem hneeds htaken)

theorem uniquePubkeys_singleton (record : StoredAgentRecord) : UniquePubkeys [record] := by
  intro left hleft right hright _ _ _
  rw [List.mem_singleton.mp hleft, List.mem_singleton.mp hright]

def standaloneReviewer : StoredAgentRecord :=
  { reviewer.intoAgentRecord with
    pubkey := "5b8a8f8f3c1f2d6e7a90b1c2d3e4f5061728394a5b6c7d8e9fa0b1c2d3e4f506"
    slug := none
    runtime := some "claude" }

/-- A build without variables of its own, on a platform without a suffix, that knows the version of
the one definition. -/
def plainBuild : DesktopBuild where
  exeSuffix := ""
  bakedBuildEnv := ∅
  personaContentHash := fun _ =>
    "7ddcf352c5d46c13f6076f921c731411b8eb9f670f1e03ab9e7382491d3a9103"

theorem backfill_changes_nothing_iff_reviewer :
    UniquePubkeys [standaloneReviewer] ∧ ChangesNothing plainBuild [standaloneReviewer] := by
  have hunique := uniquePubkeys_singleton standaloneReviewer
  refine ⟨hunique, (backfill_changes_nothing_iff hunique).mpr ?_⟩
  intro record hmem _ _
  obtain rfl := List.mem_singleton.mp hmem
  exact ⟨fun _ h => absurd h.symm (Option.some_ne_none _),
    fun _ h => absurd h.symm (Option.some_ne_none _),
    fun _ _ h => absurd h.symm (Option.some_ne_none _)⟩

/-- The agent is pinned to another harness than the runtime that its record still names. -/
def pinnedReviewer : StoredAgentRecord :=
  { standaloneReviewer with agentCommandOverride := some "codex-acp" }

/-- The pin is gone after the backfill: the agent starts the other harness. -/
theorem pin_lost_in_backfill :
    ¬∃ hash, ChangesNothing ⟨"", ∅, hash⟩ [pinnedReviewer] := by
  rintro ⟨hash, h⟩
  have hunique := uniquePubkeys_singleton pinnedReviewer
  have hsteady := (keepsDigest_iff_of_fresh hunique List.mem_cons_self rfl).mp
    (h.digest pinnedReviewer List.mem_cons_self rfl)
  have hpin := hsteady.pin rfl "codex-acp" (by decide +kernel)
  exact absurd hpin (by decide +kernel)

end Exact

end Buzz.ManagedAgents
