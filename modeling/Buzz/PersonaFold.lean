import Buzz.StoreHalves

/-!
# The fold of the personas into the agent store

The old file of personas is folded into the store once: every persona that is not
built in becomes a definition, unless its slug is in the store, the store is
rewritten, and the old file is renamed away. A run that stops between the write and
the rename is repeated at the next start.
-/

namespace Buzz.ManagedAgents

section Fold

inductive PersonaContent where
  | personas (personas : List AgentDefinition)
  | malformed (text : String)
  deriving DecidableEq

/-- The files that the fold touches: `personas.json`, `managed-agents.json` and
`personas.json.bak`. -/
structure FoldDir where
  personas : Option PersonaContent
  agents : Option StoreContent
  retired : Option PersonaContent
  deriving DecidableEq

/-- What the file system answers during one run. A crash before the write or before the rename
leaves the same files as a call that fails there. -/
structure FoldReplies where
  readPersonas : Except String Unit
  readAgents : Except String Unit
  parseError : String
  write : Except String Unit
  rename : Except String Unit

def loadPersonasFromPath (content : PersonaContent) (replies : FoldReplies) :
    Except String (List AgentDefinition) :=
  match replies.readPersonas with
  | .error e => .error ("failed to read persona store: " ++ e)
  | .ok _ =>
      match content with
      | .malformed _ => .error ("failed to parse persona store: " ++ replies.parseError)
      | .personas personas => .ok personas

def loadFoldTarget (agents : Option StoreContent) (replies : FoldReplies) :
    Except String (List StoredAgentRecord) :=
  match agents with
  | none => .ok []
  | some content =>
      match replies.readAgents with
      | .error e => .error ("failed to read managed-agents.json: " ++ e)
      | .ok _ =>
          match content with
          | .malformed _ => .error ("failed to parse managed-agents.json: " ++ replies.parseError)
          | .records records => .ok records

/-- The loop over the personas. `existing` is taken before it starts. -/
def foldLoop (existing : List String) (all : List StoredAgentRecord) (folded : ℕ) :
    List AgentDefinition → List StoredAgentRecord × ℕ
  | [] => (all, folded)
  | persona :: personas =>
      if persona.isBuiltin ∨ persona.id ∈ existing then foldLoop existing all folded personas
      else foldLoop existing (all ++ [persona.intoAgentRecord]) (folded + 1) personas

def foldPersonasInDir (replies : FoldReplies) (dir : FoldDir) :
    Except String (Option ℕ) × FoldDir :=
  match dir.personas with
  | none => (.ok none, dir)
  | some content =>
      match loadPersonasFromPath content replies with
      | .error e => (.error e, dir)
      | .ok personas =>
          match loadFoldTarget dir.agents replies with
          | .error e => (.error e, dir)
          | .ok all =>
              let existing := all.filterMap StoredAgentRecord.slug
              let (all, folded) := foldLoop existing all 0 personas
              match replies.write with
              | .error e => (.error e, dir)
              | .ok _ =>
                  let written := { dir with agents := some (.records all) }
                  match replies.rename with
                  | .error e => (.error ("failed to retire personas.json: " ++ e), written)
                  | .ok _ =>
                      (.ok (some folded),
                        { written with personas := none, retired := some content })

/-- Any number of runs, one after another. -/
def foldRuns (dir : FoldDir) (runs : List FoldReplies) : FoldDir :=
  runs.foldl (fun dir replies => (foldPersonasInDir replies dir).2) dir

end Fold

section Law

/-- The records that a reader of the store would find. -/
def FoldDir.records (dir : FoldDir) : List StoredAgentRecord :=
  match dir.agents with
  | some (.records records) => records
  | _ => []

/-- What there is to fold, when both files can be parsed. -/
def FoldDir.pending (dir : FoldDir) : Option (List StoredAgentRecord × List AgentDefinition) :=
  match dir.personas, dir.agents with
  | some (.personas personas), none => some ([], personas)
  | some (.personas personas), some (.records records) => some (records, personas)
  | _, _ => none

def defines (slug : String) (record : StoredAgentRecord) : Bool :=
  isDefinition record && decide (record.slug = some slug)

/-- The store after the fold against the one before it. -/
structure FoldedInto (before : List StoredAgentRecord) (personas : List AgentDefinition)
    (after : List StoredAgentRecord) : Prop where
  kept : before <+: after
  one : ∀ persona ∈ personas, persona.isBuiltin = false → ∃ record,
    after.filter (defines persona.id) = [record] ∧
      (before.filter (defines persona.id) = [record] ∨
        before.filter (defines persona.id) = [] ∧ record.toDefinitionView = some persona)
  only : ∀ record ∈ after, record ∈ before ∨ isDefinition record = true ∧
    ∃ persona ∈ personas, persona.isBuiltin = false ∧ record.toDefinitionView = some persona

/-- The files after some runs against those before: a fold is done as a whole or not at all, and
the old file is gone only when it is done. -/
structure FoldKeeps (dir after : FoldDir) : Prop where
  still : dir.pending = none → after = dir
  folded : ∀ before personas, dir.pending = some (before, personas) →
    (after = dir ∨ FoldedInto before personas after.records) ∧
      (after.personas = none → FoldedInto before personas after.records)

/-- The persona has its one definition in the store, or nothing there has its slug and no other
persona its id. -/
def FoldsOnce (before : List StoredAgentRecord) (personas : List AgentDefinition)
    (id : String) : Prop :=
  (before.filter (defines id)).length = 1 ∨
    (∀ record ∈ before, record.slug ≠ some id) ∧
      (personas.filter fun persona => !persona.isBuiltin && decide (persona.id = id)).length = 1

end Law

section Loop

variable {before after : List StoredAgentRecord} {personas : List AgentDefinition}

def isUnfolded (existing : List String) (persona : AgentDefinition) : Bool :=
  !persona.isBuiltin && decide (persona.id ∉ existing)

/-- What the loop appends. -/
def foldedRecords (before : List StoredAgentRecord) (personas : List AgentDefinition) :
    List StoredAgentRecord :=
  (personas.filter (isUnfolded (before.filterMap StoredAgentRecord.slug))).map
    AgentDefinition.intoAgentRecord

theorem foldLoop_eq (existing : List String) (personas : List AgentDefinition) :
    ∀ (all : List StoredAgentRecord) (folded : ℕ), (foldLoop existing all folded personas).1 =
      all ++ (personas.filter (isUnfolded existing)).map AgentDefinition.intoAgentRecord := by
  induction personas with
  | nil => simp [foldLoop]
  | cons persona personas ih =>
    intro all folded
    by_cases hskip : persona.isBuiltin = true ∨ persona.id ∈ existing
    · have hnot : ¬isUnfolded existing persona = true := by
        rcases hskip with h | h <;> simp [isUnfolded, h]
      rw [foldLoop, if_pos hskip, ih, List.filter_cons_of_neg hnot]
    · have hfresh : isUnfolded existing persona = true := by
        rw [not_or] at hskip
        simpa [isUnfolded] using hskip
      rw [foldLoop, if_neg hskip, ih, List.filter_cons_of_pos hfresh, List.map_cons,
        List.append_assoc, List.singleton_append]

theorem mem_slugs {slug : String} :
    slug ∈ before.filterMap StoredAgentRecord.slug ↔ ∃ record ∈ before, record.slug = some slug :=
  List.mem_filterMap

theorem mem_foldedRecords {record : StoredAgentRecord} :
    record ∈ foldedRecords before personas ↔ ∃ persona ∈ personas, persona.isBuiltin = false ∧
      persona.id ∉ before.filterMap StoredAgentRecord.slug ∧
        persona.intoAgentRecord = record := by
  unfold foldedRecords
  rw [List.mem_map]
  constructor
  · rintro ⟨persona, hpersona, rfl⟩
    rw [List.mem_filter] at hpersona
    obtain ⟨hmem, hfresh⟩ := hpersona
    simp only [isUnfolded, Bool.and_eq_true, Bool.not_eq_true', decide_eq_true_eq] at hfresh
    exact ⟨persona, hmem, hfresh.1, hfresh.2, rfl⟩
  · rintro ⟨persona, hmem, hbuiltin, hfresh, rfl⟩
    exact ⟨persona, List.mem_filter.mpr ⟨hmem, by simp [isUnfolded, hbuiltin, hfresh]⟩, rfl⟩

/-- A second fold finds every slug in the store. -/
theorem foldedRecords_again :
    foldedRecords (before ++ foldedRecords before personas) personas = [] := by
  rw [List.eq_nil_iff_forall_not_mem]
  intro record hrecord
  obtain ⟨persona, hmem, hbuiltin, hnew, rfl⟩ := mem_foldedRecords.mp hrecord
  apply hnew
  rw [mem_slugs]
  by_cases hold : persona.id ∈ before.filterMap StoredAgentRecord.slug
  · obtain ⟨old, hold, hslug⟩ := mem_slugs.mp hold
    exact ⟨old, List.mem_append_left _ hold, hslug⟩
  · have hfolded := mem_foldedRecords.mpr ⟨persona, hmem, hbuiltin, hold, rfl⟩
    exact ⟨_, List.mem_append_right _ hfolded, rfl⟩

end Loop

section Once

variable {before : List StoredAgentRecord} {personas : List AgentDefinition}

theorem defines_intoAgentRecord (id : String) (persona : AgentDefinition) :
    defines id persona.intoAgentRecord = decide (persona.id = id) := by
  simp [defines, isDefinition, AgentDefinition.intoAgentRecord]

/-- An id that the store has not is folded as often as the file has it. -/
theorem filter_foldedRecords_of_new {id : String} (h : ∀ record ∈ before, record.slug ≠ some id) :
    (foldedRecords before personas).filter (defines id) =
      (personas.filter fun persona => !persona.isBuiltin && decide (persona.id = id)).map
        AgentDefinition.intoAgentRecord := by
  have hnew : id ∉ before.filterMap StoredAgentRecord.slug := by
    rw [mem_slugs]
    rintro ⟨record, hmem, hslug⟩
    exact h record hmem hslug
  unfold foldedRecords
  rw [List.filter_map, List.filter_filter]
  congr 1
  apply List.filter_congr
  intro persona _
  simp only [Function.comp_apply, defines_intoAgentRecord, isUnfolded]
  by_cases hid : persona.id = id
  · simp [hid, hnew]
  · simp [hid]

theorem filter_foldedRecords_of_held {id : String} {record : StoredAgentRecord}
    (hmem : record ∈ before) (hslug : record.slug = some id) :
    (foldedRecords before personas).filter (defines id) = [] := by
  rw [List.filter_eq_nil_iff]
  intro folded hfolded hdefines
  obtain ⟨persona, -, -, hnew, rfl⟩ := mem_foldedRecords.mp hfolded
  rw [defines_intoAgentRecord, decide_eq_true_eq] at hdefines
  exact hnew (mem_slugs.mpr ⟨record, hmem, by rw [hslug, hdefines]⟩)

theorem slug_of_defines {id : String} {record : StoredAgentRecord}
    (h : defines id record = true) : record.slug = some id := by
  simp only [defines, Bool.and_eq_true, decide_eq_true_eq] at h
  exact h.2

/-- The fold is right for a store and a file exactly when it folds every id once. -/
theorem foldedInto_iff :
    FoldedInto before personas (before ++ foldedRecords before personas) ↔
      ∀ persona ∈ personas, persona.isBuiltin = false → FoldsOnce before personas persona.id := by
  constructor
  · intro h persona hmem hbuiltin
    obtain ⟨record, hone, -⟩ := h.one persona hmem hbuiltin
    rw [List.filter_append] at hone
    by_cases hheld : ∃ record ∈ before, record.slug = some persona.id
    · obtain ⟨held, hmem', hslug⟩ := hheld
      rw [filter_foldedRecords_of_held hmem' hslug, List.append_nil] at hone
      exact .inl (by rw [hone]; rfl)
    · have hnew : ∀ record ∈ before, record.slug ≠ some persona.id :=
        fun record hmem' hslug => hheld ⟨record, hmem', hslug⟩
      have hnone : before.filter (defines persona.id) = [] :=
        List.filter_eq_nil_iff.mpr fun record hmem' hdefines =>
          hnew record hmem' (slug_of_defines hdefines)
      rw [hnone, List.nil_append, filter_foldedRecords_of_new hnew] at hone
      have hlength := congrArg List.length hone
      rw [List.length_map] at hlength
      exact .inr ⟨hnew, hlength⟩
  · intro h
    refine ⟨List.prefix_append _ _, ?_, ?_⟩
    · intro persona hmem hbuiltin
      rcases h persona hmem hbuiltin with hheld | ⟨hnew, honce⟩
      · -- the store has its own copy, which also keeps the persona out
        obtain ⟨record, hrecord⟩ := List.length_eq_one_iff.mp hheld
        have hin : record ∈ before.filter (defines persona.id) := by simp [hrecord]
        obtain ⟨hin, hdefines⟩ := List.mem_filter.mp hin
        refine ⟨record, ?_, .inl hrecord⟩
        rw [List.filter_append, hrecord,
          filter_foldedRecords_of_held hin (slug_of_defines hdefines)]
        rfl
      · have hnone : before.filter (defines persona.id) = [] :=
          List.filter_eq_nil_iff.mpr fun record hmem' hdefines =>
            hnew record hmem' (slug_of_defines hdefines)
        obtain ⟨only, honly⟩ := List.length_eq_one_iff.mp honce
        -- the one persona with this id is the one that is looked at
        have hself : persona ∈ personas.filter
            fun other => !other.isBuiltin && decide (other.id = persona.id) :=
          List.mem_filter.mpr ⟨hmem, by simp [hbuiltin]⟩
        rw [honly, List.mem_singleton] at hself
        refine ⟨persona.intoAgentRecord, ?_, .inr ⟨hnone, toDefinitionView_intoAgentRecord _⟩⟩
        rw [List.filter_append, hnone, filter_foldedRecords_of_new hnew, honly, ← hself]
        rfl
    · intro record hrecord
      rcases List.mem_append.mp hrecord with hold | hfolded
      · exact .inl hold
      · obtain ⟨persona, hmem, hbuiltin, -, rfl⟩ := mem_foldedRecords.mp hfolded
        exact .inr ⟨rfl, persona, hmem, hbuiltin, toDefinitionView_intoAgentRecord _⟩

end Once

section Runs

variable {before : List StoredAgentRecord} {personas : List AgentDefinition}
  {dir after : FoldDir} {replies : FoldReplies}

def FoldDir.written (dir : FoldDir) (records : List StoredAgentRecord) : FoldDir :=
  { dir with agents := some (.records records) }

def FoldDir.retire (dir : FoldDir) : FoldDir :=
  { dir with personas := none, retired := dir.personas }

theorem pending_of_loaded {content : PersonaContent} {agents : Option StoreContent}
    {retired : Option PersonaContent} (hpersonas :
      loadPersonasFromPath content replies = .ok personas)
    (hall : loadFoldTarget agents replies = .ok before) :
    FoldDir.pending ⟨some content, agents, retired⟩ = some (before, personas) := by
  unfold loadPersonasFromPath at hpersonas
  split at hpersonas
  · cases hpersonas
  · cases content with
    | malformed text => cases hpersonas
    | personas found =>
      obtain rfl := Except.ok.inj hpersonas
      cases agents with
      | none =>
        obtain rfl := Except.ok.inj hall
        rfl
      | some stored =>
        unfold loadFoldTarget at hall
        simp only at hall
        split at hall
        · cases hall
        · cases stored with
          | malformed text => cases hall
          | records records =>
            obtain rfl := Except.ok.inj hall
            rfl

/-- What one run can do. -/
theorem foldPersonasInDir_cases (replies : FoldReplies) (dir : FoldDir) :
    (foldPersonasInDir replies dir).2 = dir ∨
      ∃ before personas, dir.pending = some (before, personas) ∧
        ((foldPersonasInDir replies dir).2 =
            dir.written (before ++ foldedRecords before personas) ∨
          (foldPersonasInDir replies dir).2 =
            (dir.written (before ++ foldedRecords before personas)).retire) := by
  obtain ⟨content, agents, retired⟩ := dir
  unfold foldPersonasInDir
  cases content with
  | none => exact .inl rfl
  | some content =>
    cases hpersonas : loadPersonasFromPath content replies with
    | error e => exact .inl (by simp only [hpersonas])
    | ok personas =>
      cases hall : loadFoldTarget agents replies with
      | error e => exact .inl (by simp only [hpersonas])
      | ok before =>
        have hloop := foldLoop_eq (before.filterMap StoredAgentRecord.slug) personas before 0
        cases hwrite : replies.write with
        | error e => exact .inl (by simp only [hpersonas])
        | ok _ =>
          refine .inr ⟨before, personas, pending_of_loaded hpersonas hall, ?_⟩
          cases hrename : replies.rename with
          | error e =>
            left
            simp only [hpersonas, hloop]
            rfl
          | ok _ =>
            right
            simp only [hpersonas, hloop]
            rfl

theorem pending_written {records : List StoredAgentRecord}
    (h : dir.pending = some (before, personas)) :
    (dir.written records).pending = some (records, personas) := by
  obtain ⟨content, agents, retired⟩ := dir
  cases content with
  | none => cases h
  | some content =>
    cases content with
    | malformed text => cases h
    | personas found =>
      have hfound : found = personas := by
        cases agents with
        | none => exact (Prod.mk.inj (Option.some.inj h)).2
        | some stored =>
          cases stored with
          | malformed text => cases h
          | records old => exact (Prod.mk.inj (Option.some.inj h)).2
      rw [hfound]
      rfl

theorem foldPersonasInDir_of_none (h : dir.pending = none) :
    (foldPersonasInDir replies dir).2 = dir := by
  rcases foldPersonasInDir_cases replies dir with hsame | ⟨before, personas, hpending, -⟩
  · exact hsame
  · rw [h] at hpending
    cases hpending

/-- The states of the files while a fold is repeated. -/
inductive FoldStage (dir : FoldDir) (folded : List StoredAgentRecord) : FoldDir → Prop
  | untouched : FoldStage dir folded dir
  | written : FoldStage dir folded (dir.written folded)
  | retired : FoldStage dir folded (dir.written folded).retire

theorem FoldStage.step (hpending : dir.pending = some (before, personas)) (replies : FoldReplies)
    (h : FoldStage dir (before ++ foldedRecords before personas) after) :
    FoldStage dir (before ++ foldedRecords before personas)
      (foldPersonasInDir replies after).2 := by
  cases h with
  | untouched =>
    rcases foldPersonasInDir_cases replies dir with hsame | ⟨_, _, hsame, hnext⟩
    · rw [hsame]
      exact .untouched
    · rw [hpending] at hsame
      obtain ⟨rfl, rfl⟩ := Prod.mk.inj (Option.some.inj hsame)
      rcases hnext with hnext | hnext
      · rw [hnext]
        exact .written
      · rw [hnext]
        exact .retired
  | written =>
    rcases foldPersonasInDir_cases replies
        (dir.written (before ++ foldedRecords before personas)) with hsame | ⟨_, _, hsame, hnext⟩
    · rw [hsame]
      exact .written
    · rw [pending_written hpending] at hsame
      obtain ⟨rfl, rfl⟩ := Prod.mk.inj (Option.some.inj hsame)
      rw [foldedRecords_again, List.append_nil] at hnext
      rcases hnext with hnext | hnext
      · rw [hnext]
        exact .written
      · rw [hnext]
        exact .retired
  | retired =>
    rw [foldPersonasInDir_of_none rfl]
    exact .retired

theorem foldRuns_stage (hpending : dir.pending = some (before, personas))
    (runs : List FoldReplies) : ∀ after,
      FoldStage dir (before ++ foldedRecords before personas) after →
        FoldStage dir (before ++ foldedRecords before personas) (foldRuns after runs) := by
  induction runs with
  | nil => exact fun after h => h
  | cons replies runs ih => exact fun after h => ih _ (h.step hpending replies)

theorem foldRuns_of_none (h : dir.pending = none) (runs : List FoldReplies) :
    foldRuns dir runs = dir := by
  induction runs with
  | nil => rfl
  | cons replies runs ih =>
    rw [foldRuns, List.foldl_cons, foldPersonasInDir_of_none h]
    exact ih

theorem personas_of_pending (h : dir.pending = some (before, personas)) : dir.personas ≠ none := by
  intro hnone
  unfold FoldDir.pending at h
  rw [hnone] at h
  cases h

/-- A run that nothing stops. -/
def foldSettled : FoldReplies := ⟨.ok (), .ok (), "", .ok (), .ok ()⟩

theorem foldPersonasInDir_settled (h : dir.pending = some (before, personas)) :
    (foldPersonasInDir foldSettled dir).2.personas = none := by
  obtain ⟨content, agents, retired⟩ := dir
  cases content with
  | none => cases h
  | some content =>
    cases content with
    | malformed text => cases h
    | personas found =>
      cases agents with
      | none => rfl
      | some stored =>
        cases stored with
        | malformed text => cases h
        | records old => rfl

/-- Whatever stops the runs, the fold keeps the records and folds every persona once, exactly when
no id would be folded twice, is defined twice in the store or is held there by an agent alone. -/
theorem fold_keeps_iff (dir : FoldDir) :
    (∀ runs, FoldKeeps dir (foldRuns dir runs)) ↔
      ∀ before personas, dir.pending = some (before, personas) →
        ∀ persona ∈ personas, persona.isBuiltin = false →
          FoldsOnce before personas persona.id := by
  constructor
  · intro h before personas hpending
    have hgone : (foldRuns dir [foldSettled]).personas = none := foldPersonasInDir_settled hpending
    have hfolded := ((h [foldSettled]).folded before personas hpending).2 hgone
    have hstage := foldRuns_stage hpending [foldSettled] dir .untouched
    rw [← foldedInto_iff]
    generalize foldRuns dir [foldSettled] = after at hstage hfolded hgone
    cases hstage with
    | untouched => exact absurd hgone (personas_of_pending hpending)
    | written | retired => exact hfolded
  · intro h runs
    refine ⟨fun hpending => foldRuns_of_none hpending runs, ?_⟩
    intro before personas hpending
    have hinto := foldedInto_iff.mpr (h before personas hpending)
    have hstage := foldRuns_stage hpending runs dir .untouched
    generalize foldRuns dir runs = after at hstage
    cases hstage with
    | untouched => exact ⟨.inl rfl, fun hgone => absurd hgone (personas_of_pending hpending)⟩
    | written | retired => exact ⟨.inr hinto, fun _ => hinto⟩

def twinDir : FoldDir where
  personas := some (.personas [reviewer, { reviewer with displayName := "Second reviewer" }])
  agents := none
  retired := none

/-- Both of two personas with one id are folded. -/
theorem twin_personas_fold_twice :
    ¬∀ (dir : FoldDir) (runs : List FoldReplies), FoldKeeps dir (foldRuns dir runs) := by
  intro h
  have hfolded := ((h twinDir [foldSettled]).folded [] _ rfl).2 rfl
  obtain ⟨record, hone, -⟩ := hfolded.one reviewer List.mem_cons_self rfl
  have htwo : ((foldRuns twinDir [foldSettled]).records.filter (defines reviewer.id)).length = 1 :=
    congrArg List.length hone
  revert htwo
  decide +kernel

end Runs

end Buzz.ManagedAgents
