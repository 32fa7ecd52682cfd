import Buzz.AgentRecords

/-!
# The two halves of the agent store

Agents and definitions share one file. Either save is given its own half, reads
the other one back from disk and rewrites the file as a whole. The file system
answers each call as it likes; a write that fails leaves the old file.
-/

namespace Buzz.ManagedAgents

section Store

inductive StoreContent where
  | records (records : List StoredAgentRecord)
  | malformed (text : String)
  deriving DecidableEq

/-- The file and the copy that is kept of a malformed one. -/
structure StoreDisk where
  file : Option StoreContent
  invalid : Option StoreContent
  deriving DecidableEq

/-- The records that a reader would find. -/
def StoreDisk.records (disk : StoreDisk) : List StoredAgentRecord :=
  match disk.file with
  | some (.records records) => records
  | _ => []

/-- What the file system answers during one save. `found` is the existence test, which also says no
when it fails. -/
structure StoreReplies where
  path : Except String Unit
  found : Bool
  read : Except String Unit
  parseError : String
  copied : Bool
  pathAgain : Except String Unit
  write : Except String Unit

def backupInvalidStore (disk : StoreDisk) (copied : Bool) : StoreDisk :=
  if copied then { disk with invalid := disk.file } else disk

def parseAgentStore (disk : StoreDisk) (replies : StoreReplies) :
    StoreContent → Except String (List StoredAgentRecord) × StoreDisk
  | .records records => (.ok records, disk)
  | .malformed _ =>
      (.error ("failed to parse agent store (preserved as .invalid): " ++ replies.parseError),
        backupInvalidStore disk replies.copied)

def loadAgentStore (disk : StoreDisk) (replies : StoreReplies) :
    Except String (List StoredAgentRecord) × StoreDisk :=
  match replies.path with
  | .error e => (.error e, disk)
  | .ok _ =>
      match disk.file with
      | none => (.ok [], disk)
      | some content =>
          if replies.found = false then (.ok [], disk)
          else
            match replies.read with
            | .error e => (.error ("failed to read agent store: " ++ e), disk)
            | .ok _ => parseAgentStore disk replies content

def isInstance (record : StoredAgentRecord) : Bool := record.pubkey ≠ ""

def isDefinition (record : StoredAgentRecord) : Bool := record.pubkey = ""

def loadAgentDefinitions (disk : StoreDisk) (replies : StoreReplies) :
    Except String (List StoredAgentRecord) × StoreDisk :=
  let loaded := loadAgentStore disk replies
  (loaded.1.map (List.filter isDefinition), loaded.2)

def slugLe (left right : StoredAgentRecord) : Bool :=
  match left.slug, right.slug with
  | none, _ => true
  | some _, none => false
  | some l, some r => decide (l ≤ r)

def writeAgentStore (disk : StoreDisk) (replies : StoreReplies)
    (definitions instances : List StoredAgentRecord) : Except String Unit × StoreDisk :=
  let all := definitions.mergeSort slugLe ++ instances
  match replies.pathAgain with
  | .error e => (.error e, disk)
  | .ok _ =>
      match replies.write with
      | .error e => (.error e, disk)
      | .ok _ => (.ok (), { disk with file := some (.records all) })

-- lower-casing follows the tables of Unicode; only the order of the records depends on it
variable (toLowercase : String → String)

def nameLe (left right : StoredAgentRecord) : Bool :=
  let l := toLowercase left.name
  let r := toLowercase right.name
  decide (l < r) || (decide (l = r) && decide (left.pubkey ≤ right.pubkey))

/-- The definitions count as none when they cannot be loaded. -/
def saveManagedAgents (disk : StoreDisk) (replies : StoreReplies)
    (records : List StoredAgentRecord) : Except String Unit × StoreDisk :=
  let loaded := loadAgentDefinitions disk replies
  let definitions := loaded.1.toOption.getD []
  let sorted := (records.filter isInstance).mergeSort (nameLe toLowercase)
  writeAgentStore loaded.2 replies definitions sorted

def saveAgentDefinitions (disk : StoreDisk) (replies : StoreReplies)
    (definitions : List StoredAgentRecord) : Except String Unit × StoreDisk :=
  let loaded := loadAgentStore disk replies
  match loaded.1 with
  | .error e => (.error e, loaded.2)
  | .ok records =>
      writeAgentStore loaded.2 replies (definitions.filter isDefinition) (records.filter isInstance)

end Store

section Saves

inductive Half where
  | instances
  | definitions
  deriving DecidableEq, Repr

/-- The half that a save of `half` has to keep. -/
def Half.isOther : Half → StoredAgentRecord → Bool
  | instances => isDefinition
  | definitions => isInstance

structure Save where
  half : Half
  records : List StoredAgentRecord
  replies : StoreReplies

variable (toLowercase : String → String)

def Save.perform (save : Save) (disk : StoreDisk) : Except String Unit × StoreDisk :=
  match save.half with
  | .instances => saveManagedAgents toLowercase disk save.replies save.records
  | .definitions => saveAgentDefinitions disk save.replies save.records

/-- The store can be read: the directory is there, and the file is missing or it is found, read and
parsed. -/
def Readable (disk : StoreDisk) (replies : StoreReplies) : Prop :=
  replies.path.isOk = true ∧
    ∀ content, disk.file = some content →
      replies.found = true ∧ replies.read.isOk = true ∧ ∃ records, content = .records records

/-- What is asked of one save. -/
structure KeepsOtherHalf (disk : StoreDisk) (save : Save) : Prop where
  kept : ∀ record ∈ disk.records, save.half.isOther record = true →
    record ∈ (save.perform toLowercase disk).2.records
  refused : ¬Readable disk save.replies →
    (save.perform toLowercase disk).1.isOk = false ∧
      (save.perform toLowercase disk).2.file = disk.file

def KeepsHalves (disk : StoreDisk) : List Save → Prop
  | [] => True
  | save :: rest =>
      KeepsOtherHalf toLowercase disk save ∧ KeepsHalves (save.perform toLowercase disk).2 rest

def StoreReplies.writes (replies : StoreReplies) : Bool :=
  replies.pathAgain.isOk && replies.write.isOk

/-- An existing file is taken for missing. -/
def Overlooked (disk : StoreDisk) (replies : StoreReplies) : Prop :=
  replies.path.isOk = true ∧ disk.file.isSome = true ∧ replies.found = false

/-- A save that goes on to write has read the store: that of the agents in every way, that of the
definitions without overlooking the file. -/
def ReadsFirst (disk : StoreDisk) (save : Save) : Prop :=
  save.replies.writes = true →
    match save.half with
    | .instances => Readable disk save.replies
    | .definitions => ¬Overlooked disk save.replies

def AllReadFirst (disk : StoreDisk) : List Save → Prop
  | [] => True
  | save :: rest => ReadsFirst disk save ∧ AllReadFirst (save.perform toLowercase disk).2 rest

end Saves

section Loading

variable {disk : StoreDisk} {replies : StoreReplies}

theorem StoreDisk.records_congr {a b : StoreDisk} (h : a.file = b.file) :
    a.records = b.records := by
  simp only [StoreDisk.records, h]

theorem loadAgentStore_readable (h : Readable disk replies) :
    loadAgentStore disk replies = (.ok disk.records, disk) := by
  obtain ⟨hpath, hfile⟩ := h
  unfold loadAgentStore
  cases hp : replies.path with
  | error e => simp [hp, Except.isOk, Except.toBool] at hpath
  | ok _ =>
      cases hf : disk.file with
      | none => simp [StoreDisk.records, hf]
      | some content =>
          obtain ⟨hfound, hread, records, rfl⟩ := hfile content hf
          cases hr : replies.read with
          | error e => simp [hr, Except.isOk, Except.toBool] at hread
          | ok _ => simp [hfound, parseAgentStore, StoreDisk.records, hf]

theorem loadAgentStore_overlooked (h : Overlooked disk replies) :
    loadAgentStore disk replies = (.ok [], disk) := by
  obtain ⟨hpath, hfile, hfound⟩ := h
  unfold loadAgentStore
  cases hp : replies.path with
  | error e => simp [hp, Except.isOk, Except.toBool] at hpath
  | ok _ =>
      cases hf : disk.file with
      | none => simp [hf] at hfile
      | some content => simp [hfound]

/-- Every other load fails, and leaves the file as it was. -/
theorem loadAgentStore_failed (hread : ¬Readable disk replies)
    (hover : ¬Overlooked disk replies) :
    ∃ e d, loadAgentStore disk replies = (.error e, d) ∧ d.file = disk.file := by
  unfold loadAgentStore
  cases hp : replies.path with
  | error e => exact ⟨e, disk, rfl, rfl⟩
  | ok _ =>
      have hpath : replies.path.isOk = true := by simp [hp, Except.isOk, Except.toBool]
      cases hf : disk.file with
      | none => exact absurd ⟨hpath, fun content h => by simp [hf] at h⟩ hread
      | some content =>
          cases hfound : replies.found with
          | false => exact absurd ⟨hpath, by simp [hf], hfound⟩ hover
          | true =>
              cases hr : replies.read with
              | error e => exact ⟨_, disk, rfl, hf⟩
              | ok _ =>
                  cases content with
                  | records records =>
                      refine absurd ⟨hpath, fun content h => ?_⟩ hread
                      obtain rfl := Option.some_inj.mp (hf.symm.trans h)
                      exact ⟨hfound, by simp [hr, Except.isOk, Except.toBool], records, rfl⟩
                  | malformed text =>
                      refine ⟨_, backupInvalidStore disk replies.copied, rfl, ?_⟩
                      unfold backupInvalidStore
                      split_ifs <;> exact hf

theorem not_readable_of_overlooked (h : Overlooked disk replies) : ¬Readable disk replies := by
  obtain ⟨_, hfile, hfound⟩ := h
  obtain ⟨content, hcontent⟩ := Option.isSome_iff_exists.mp hfile
  intro hread
  have := (hread.2 content hcontent).1
  simp [hfound] at this

end Loading

section Saving

variable {disk : StoreDisk} {replies : StoreReplies}
  {definitions instances : List StoredAgentRecord}

theorem writeAgentStore_writes (h : replies.writes = true) :
    writeAgentStore disk replies definitions instances =
      (.ok (),
        { disk with file := some (.records (definitions.mergeSort slugLe ++ instances)) }) := by
  simp only [StoreReplies.writes, Bool.and_eq_true] at h
  unfold writeAgentStore
  cases hp : replies.pathAgain with
  | error e => simp [hp, Except.isOk, Except.toBool] at h
  | ok _ =>
      cases hw : replies.write with
      | error e => simp [hw, Except.isOk, Except.toBool] at h
      | ok _ => rfl

theorem writeAgentStore_fails (h : replies.writes = false) :
    ∃ e, writeAgentStore disk replies definitions instances = (.error e, disk) := by
  unfold writeAgentStore
  cases hp : replies.pathAgain with
  | error e => exact ⟨e, rfl⟩
  | ok _ =>
      cases hw : replies.write with
      | error e => exact ⟨e, rfl⟩
      | ok _ => simp [StoreReplies.writes, hp, hw, Except.isOk, Except.toBool] at h

variable {toLowercase : String → String} {save : Save}

/-- A save that fails and leaves the file keeps everything. -/
theorem keepsOtherHalf_of_failed {e : String} {d : StoreDisk}
    (h : save.perform toLowercase disk = (.error e, d)) (hfile : d.file = disk.file) :
    KeepsOtherHalf toLowercase disk save := by
  constructor
  · intro record hrecord _
    rw [h, StoreDisk.records_congr hfile]
    exact hrecord
  · intro _
    rw [h]
    exact ⟨rfl, hfile⟩

/-- What is on disk after the load of the definitions. -/
theorem loadAgentDefinitions_file (disk : StoreDisk) (replies : StoreReplies) :
    (loadAgentDefinitions disk replies).2.file = disk.file := by
  unfold loadAgentDefinitions
  by_cases hread : Readable disk replies
  · rw [loadAgentStore_readable hread]
  · by_cases hover : Overlooked disk replies
    · rw [loadAgentStore_overlooked hover]
    · obtain ⟨e, d, hload, hfile⟩ := loadAgentStore_failed hread hover
      rw [hload]
      exact hfile

theorem saveManagedAgents_keeps_iff (hhalf : save.half = .instances) :
    KeepsOtherHalf toLowercase disk save ↔ ReadsFirst disk save := by
  have hperform : save.perform toLowercase disk =
      saveManagedAgents toLowercase disk save.replies save.records := by
    simp only [Save.perform, hhalf]
  unfold ReadsFirst
  simp only [hhalf]
  cases hwrites : save.replies.writes with
  | false =>
      refine ⟨fun _ h => (by cases h), fun _ => ?_⟩
      obtain ⟨e, hwrite⟩ := writeAgentStore_fails hwrites
      exact keepsOtherHalf_of_failed (hperform.trans hwrite) (loadAgentDefinitions_file disk _)
  | true =>
      have hwrite := hperform.trans (writeAgentStore_writes hwrites)
      constructor
      · -- the save succeeds, so that the store must have been readable
        intro hkeeps _
        by_contra hread
        have hfailed := (hkeeps.refused hread).1
        rw [hwrite] at hfailed
        simp [Except.isOk, Except.toBool] at hfailed
      · intro h
        have hread := h rfl
        refine ⟨fun record hrecord hother => ?_, fun hnot => absurd hread hnot⟩
        rw [hwrite]
        simp only [StoreDisk.records, loadAgentDefinitions, loadAgentStore_readable hread,
          Except.map, Except.toOption, Option.getD_some, List.mem_append, List.mem_mergeSort,
          List.mem_filter]
        rw [hhalf] at hother
        exact .inl ⟨hrecord, hother⟩

theorem saveAgentDefinitions_keeps_iff (hhalf : save.half = .definitions) :
    KeepsOtherHalf toLowercase disk save ↔ ReadsFirst disk save := by
  have hperform : save.perform toLowercase disk =
      saveAgentDefinitions disk save.replies save.records := by
    simp only [Save.perform, hhalf]
  unfold ReadsFirst
  simp only [hhalf]
  by_cases hread : Readable disk save.replies
  · have hnot : ¬Overlooked disk save.replies := fun h => not_readable_of_overlooked h hread
    refine iff_of_true ?_ fun _ => hnot
    unfold saveAgentDefinitions at hperform
    rw [loadAgentStore_readable hread] at hperform
    cases hwrites : save.replies.writes with
    | false =>
        obtain ⟨e, hwrite⟩ := writeAgentStore_fails hwrites
        exact keepsOtherHalf_of_failed (hperform.trans hwrite) rfl
    | true =>
        refine ⟨fun record hrecord hother => ?_, fun hnot => absurd hread hnot⟩
        rw [hperform.trans (writeAgentStore_writes hwrites)]
        simp only [StoreDisk.records, List.mem_append, List.mem_filter]
        rw [hhalf] at hother
        exact .inr ⟨hrecord, hother⟩
  · by_cases hover : Overlooked disk save.replies
    · unfold saveAgentDefinitions at hperform
      rw [loadAgentStore_overlooked hover] at hperform
      cases hwrites : save.replies.writes with
      | false =>
          obtain ⟨e, hwrite⟩ := writeAgentStore_fails hwrites
          exact ⟨fun _ h => (by cases h),
            fun _ => keepsOtherHalf_of_failed (hperform.trans hwrite) rfl⟩
      | true =>
          refine ⟨fun hkeeps => ?_, fun h => absurd hover (h rfl)⟩
          have hfailed := (hkeeps.refused hread).1
          rw [hperform.trans (writeAgentStore_writes hwrites)] at hfailed
          simp [Except.isOk, Except.toBool] at hfailed
    · obtain ⟨e, d, hload, hfile⟩ := loadAgentStore_failed hread hover
      unfold saveAgentDefinitions at hperform
      rw [hload] at hperform
      exact iff_of_true (keepsOtherHalf_of_failed hperform hfile) fun _ => hover

theorem keepsOtherHalf_iff : KeepsOtherHalf toLowercase disk save ↔ ReadsFirst disk save := by
  cases hhalf : save.half with
  | instances => exact saveManagedAgents_keeps_iff hhalf
  | definitions => exact saveAgentDefinitions_keeps_iff hhalf

end Saving

/-- Along any sequence of saves both halves are kept exactly when every save that writes has read
the store before. -/
theorem store_halves_kept_iff (toLowercase : String → String) (disk : StoreDisk)
    (saves : List Save) :
    KeepsHalves toLowercase disk saves ↔ AllReadFirst toLowercase disk saves := by
  induction saves generalizing disk with
  | nil => exact Iff.rfl
  | cons save rest ih => exact and_congr keepsOtherHalf_iff (ih _)

section Lost

def reviewer : AgentDefinition where
  id := "reviewer"
  displayName := "Reviewer"
  avatarUrl := none
  systemPrompt := "Review the change."
  runtime := none
  model := none
  provider := none
  namePool := []
  isBuiltin := false
  isActive := true
  sourceTeam := none
  sourceTeamPersonaSlug := none
  envVars := ∅
  respondTo := none
  respondToAllowlist := []
  parallelism := none
  createdAt := "2026-01-01T00:00:00Z"
  updatedAt := "2026-01-01T00:00:00Z"

def reviewerDisk : StoreDisk := ⟨some (.records [reviewer.intoAgentRecord]), none⟩

def allAnswered : StoreReplies := ⟨.ok (), true, .ok (), "", true, .ok (), .ok ()⟩

/-- One read error while the agents are saved, and the definition is gone. -/
theorem definitions_lost_on_read_error :
    ¬KeepsHalves toAsciiLowercase reviewerDisk
      [⟨.instances, [], { allAnswered with read := .error "Input/output error" }⟩] := by
  intro h
  have hkept := h.1.kept reviewer.intoAgentRecord List.mem_cons_self rfl
  simp [Save.perform, saveManagedAgents, loadAgentDefinitions, loadAgentStore, reviewerDisk,
    allAnswered, Except.map, Except.toOption, writeAgentStore, StoreDisk.records] at hkept

end Lost

end Buzz.ManagedAgents
