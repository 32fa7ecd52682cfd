import Buzz.JsonText
import Buzz.PairingQr
import Buzz.ToolResults
import Buzz.WebText
import Mathlib.Data.List.Sort

/-!
# The skills on disk

The agent looks for skills in a few directories and lists their names; a skill that is loaded by its
name lists its supporting files in turn. The names come from the files themselves, while a request
is cut at its first slash and its path is compared with the texts of the listed paths. A name with a
slash in it is listed and cannot be loaded, and of two paths with one text the first is loaded.
-/

namespace Buzz.Skills

open Utf8Offsets (size takeBytes)

/-- The bytes of a file name. -/
abbrev OsName := List UInt8

abbrev Path := List OsName

def osName (name : String) : OsName := Utf8Offsets.bytes name.toList

/-- `SKILL.md`. -/
def skillMd : OsName := osName "SKILL.md"

inductive FileKind where
  | dir
  | file
  | other
  deriving DecidableEq, Repr

/-- What the file system answers; `metadata` follows links. -/
structure Disk where
  readDir : Path → Option (List OsName)
  metadata : Path → Option FileKind
  readToString : Path → Except String String
  canonicalize : Path → Except String Path

/-- A disk with finitely many canonical paths. -/
structure FiniteDisk extends Disk where
  places : List Path
  mem_places : ∀ {path place : Path}, toDisk.canonicalize path = .ok place → place ∈ places

/-- YAML and the quoted texts of messages come from libraries: the text fields of a mapping, and the
`Debug` form of a text and of a path. -/
structure SkillLibraries where
  yamlFields : String → Option (String → Option String)
  debug : String → String
  debugPath : Path → String

structure SkillEntry where
  name : String
  description : String
  path : Path
  supportingFiles : List Path
  deriving DecidableEq, Repr

section Frontmatter

/-- The text before and after the first occurrence of a pattern. -/
def splitAtText (pattern : List Char) : List Char → Option (List Char × List Char)
  | [] => if pattern = [] then some ([], []) else none
  | c :: rest =>
      if pattern.isPrefixOf (c :: rest) then some ([], (c :: rest).drop pattern.length)
      else (splitAtText pattern rest).map fun (before, after) => (c :: before, after)

/-- The block between the two fences, and what follows it. -/
def splitFrontmatter (content : String) : Option (List Char × List Char) :=
  if "---\n".toList.isPrefixOf content.toList then
    splitAtText "\n---".toList (content.toList.drop 4)
  else none

def parseSkillFrontmatter (lib : SkillLibraries) (content : String) : Option (String × String) := do
  let (yamlBlock, _) ← splitFrontmatter content
  let fields ← lib.yamlFields (String.ofList yamlBlock)
  let name ← ((fields "name").map trim).filter (· ≠ "")
  some (name, ((fields "description").map trim).getD "")

def stripFrontmatter (content : String) : String :=
  match splitFrontmatter content with
  | none => content
  | some (_, '\n' :: body) => String.ofList body
  | some (_, body) => String.ofList body

end Frontmatter

section Discovery

def sortPaths (paths : List Path) : List Path := paths.insertionSort (· ≤ ·)

/-- The paths in a directory, none where it cannot be read. -/
def entriesOf (disk : Disk) (dir : Path) : List Path :=
  ((disk.readDir dir).getD []).map fun name => dir ++ [name]

/-- What a walk has found and the directories it has entered. -/
structure Walk (visited : List Path) where
  out : List Path
  visitedDirs : List Path
  grows : visited ⊆ visitedDirs

def unvisited (disk : FiniteDisk) (visited : List Path) : ℕ :=
  (disk.places.filter (· ∉ visited)).length

theorem unvisited_mono {disk : FiniteDisk} {visited visitedDirs : List Path}
    (h : visited ⊆ visitedDirs) : unvisited disk visitedDirs ≤ unvisited disk visited := by
  refine (List.monotone_filter_right _ fun place hplace => ?_).length_le
  rw [decide_eq_true_eq] at hplace ⊢
  exact fun hold => hplace (h hold)

theorem unvisited_cons {disk : FiniteDisk} {visited : List Path} {place : Path}
    (hplace : place ∈ disk.places) (hnew : place ∉ visited) :
    unvisited disk (place :: visited) < unvisited disk visited := by
  have hsub : (disk.places.filter (· ∉ place :: visited)).Sublist
      (disk.places.filter (· ∉ visited)) := by
    refine List.monotone_filter_right _ fun other hother => ?_
    rw [decide_eq_true_eq] at hother ⊢
    exact fun hold => hother (List.mem_cons_of_mem _ hold)
  refine lt_of_le_of_ne hsub.length_le fun heq => ?_
  have hmem : place ∈ disk.places.filter (· ∉ place :: visited) := by
    rw [hsub.eq_of_length heq]
    exact List.mem_filter.mpr ⟨hplace, decide_eq_true hnew⟩
  simp at hmem

mutual

def collectSupportingFilesImpl (disk : FiniteDisk) (current : Path) (visited : List Path) :
    Walk visited :=
  match _ : disk.canonicalize current with
  | .error _ => ⟨[], visited, List.Subset.refl _⟩
  | .ok canonicalCurrent =>
      if _ : canonicalCurrent ∈ visited then ⟨[], visited, List.Subset.refl _⟩
      else
        let walk := collectItems disk (sortPaths (entriesOf disk.toDisk current))
          (canonicalCurrent :: visited)
        ⟨walk.out, walk.visitedDirs, List.Subset.trans (List.subset_cons_self _ _) walk.grows⟩
termination_by (unvisited disk visited, 0)
decreasing_by
  exact Prod.Lex.left _ _ (unvisited_cons (disk.mem_places ‹_›) ‹_›)

/-- The loop over the entries of a directory. -/
def collectItems (disk : FiniteDisk) (items visited : List Path) : Walk visited :=
  match items with
  | [] => ⟨[], visited, List.Subset.refl _⟩
  | path :: rest =>
      match disk.metadata path with
      | some .dir =>
          if disk.metadata (path ++ [skillMd]) = some .file then collectItems disk rest visited
          else
            let inner := collectSupportingFilesImpl disk path visited
            let walk := collectItems disk rest inner.visitedDirs
            ⟨inner.out ++ walk.out, walk.visitedDirs, List.Subset.trans inner.grows walk.grows⟩
      | some .file =>
          let walk := collectItems disk rest visited
          if path.getLast? ≠ some skillMd then ⟨path :: walk.out, walk.visitedDirs, walk.grows⟩
          else walk
      | _ => collectItems disk rest visited
termination_by (unvisited disk visited, items.length)
decreasing_by
  all_goals simp_wf
  · exact Prod.Lex.right _ (Nat.lt_succ_self _)
  · exact Prod.Lex.right _ (Nat.succ_pos _)
  · rcases Nat.lt_or_eq_of_le (@unvisited_mono disk _ _ inner.grows) with hlt | heq
    · exact Prod.Lex.left _ _ hlt
    · rw [heq]
      exact Prod.Lex.right _ (Nat.lt_succ_self _)
  · exact Prod.Lex.right _ (Nat.lt_succ_self _)
  · exact Prod.Lex.right _ (Nat.lt_succ_self _)

end

def collectSupportingFiles (disk : FiniteDisk) (skillDir : Path) : List Path :=
  sortPaths (collectSupportingFilesImpl disk skillDir []).out

structure Scan where
  seen : List String
  skills : List SkillEntry

def scanSubdir (lib : SkillLibraries) (disk : FiniteDisk) (scan : Scan) (subdir : Path) : Scan :=
  match disk.readToString (subdir ++ [skillMd]) with
  | .error _ => scan
  | .ok content =>
      match parseSkillFrontmatter lib content with
      | none => scan
      | some (name, description) =>
          if name ∈ scan.seen then scan
          else
            { seen := name :: scan.seen
              skills := scan.skills ++ [{
                name := name
                description := description
                path := subdir ++ [skillMd]
                supportingFiles := collectSupportingFiles disk subdir }] }

def scanSkillDir (lib : SkillLibraries) (disk : FiniteDisk) (scan : Scan) (dir : Path) : Scan :=
  let subdirs := (entriesOf disk.toDisk dir).filter fun path => disk.metadata path = some .dir
  (sortPaths subdirs).foldl (scanSubdir lib disk) scan

/-- `SKILL_DIRS`. -/
def skillDirs : List Path :=
  [".agents", ".goose", ".claude"].map fun dir => [osName dir, osName "skills"]

def discoverSkillsImpl (lib : SkillLibraries) (disk : FiniteDisk) (cwd : Path)
    (home : Option Path) : List SkillEntry :=
  let scan := (skillDirs.map (cwd ++ ·)).foldl (scanSkillDir lib disk) ⟨[], []⟩
  match home with
  | none => scan.skills
  | some home => (scanSkillDir lib disk scan (home ++ [osName ".agents", osName "skills"])).skills

end Discovery

section Loading

/-- `MAX_SKILL_BODY_BYTES`. -/
def maxSkillBodyBytes : ℕ := 32 * 1024

def normalizeSlashes (s : String) : String :=
  String.ofList (s.toList.map fun c => if c = '\\' then '/' else c)

/-- `to_string_lossy`, with one slash between two names. -/
def toStringLossy (path : Path) : String :=
  String.ofList (WebText.decodeFrom .start ((List.intercalate [0x2f] path).map UInt8.toNat))

def stripPrefix (base path : Path) : Option Path :=
  if base.isPrefixOf path then some (path.drop base.length) else none

def parent (path : Path) : Option Path := if path = [] then none else some path.dropLast

/-- The text of a file in the listing of a skill. -/
def relText (skillDir file : Path) : Option String :=
  (stripPrefix skillDir file).map fun rel => normalizeSlashes (toStringLossy rel)

/-- A result, with the file that its text comes from. -/
structure LoadResult where
  text : String
  isError : Bool
  reached : Option Path
  deriving DecidableEq, Repr

def errorResult (message : String) : LoadResult := ⟨message, true, none⟩

def cappedText (output : String) : String :=
  if maxSkillBodyBytes < output.utf8ByteSize then truncateAtBoundary output maxSkillBodyBytes
  else output

variable (lib : SkillLibraries)

/-- The `Debug` form of a list of texts. -/
def debugList (texts : List String) : String :=
  "[" ++ ", ".intercalate (texts.map lib.debug) ++ "]"

def notFound (skillName : String) (skills : List SkillEntry) : LoadResult :=
  errorResult ("load_skill: skill " ++ lib.debug skillName ++ " not found. Available: " ++
    debugList lib (skills.map SkillEntry.name))

def findSkill (name : String) (skills : List SkillEntry) : Option SkillEntry :=
  skills.find? fun skill => skill.name == name

/-- One line of a listing, for a file in the directory of the skill. -/
def supportingLine (entry : SkillEntry) (file : Path) : String :=
  match relText ((parent entry.path).getD entry.path) file with
  | none => ""
  | some rel => "- " ++ rel ++ " (load_skill(name: \"" ++ entry.name ++ "/" ++ rel ++ "\"))\n"

def supportingLines (entry : SkillEntry) (files : List Path) : String :=
  files.foldl (fun output file => output ++ supportingLine entry file)
    "\n\n## Supporting Files\n\n"

/-- What loading a skill by its name returns. -/
def skillPage (entry : SkillEntry) (raw : String) : String :=
  cappedText (stripFrontmatter raw ++
    if entry.supportingFiles = [] then "" else supportingLines entry entry.supportingFiles)

def missingFile (entry : SkillEntry) (skillDir : Path) (skillName relPath : String) : LoadResult :=
  let available := entry.supportingFiles.filterMap (relText skillDir)
  if available = [] then
    errorResult ("load_skill: skill " ++ lib.debug skillName ++ " has no supporting files.")
  else
    errorResult ("load_skill: file " ++ lib.debug relPath ++ " not found in skill " ++
      lib.debug skillName ++ ". Available: " ++ debugList lib available)

/-- The file is read if it resolves to a place in the directory of the skill. -/
def readGuarded (disk : Disk) (skillDir file : Path) (skillName relPath : String) : LoadResult :=
  let label := lib.debug skillName ++ "/" ++ relPath
  match disk.canonicalize skillDir with
  | .error e =>
      errorResult ("load_skill: could not canonicalize skill directory for " ++
        lib.debug skillName ++ ": " ++ e)
  | .ok canonicalSkillDir =>
      match disk.canonicalize file with
      | .error e => errorResult ("load_skill: could not resolve " ++ label ++ ": " ++ e)
      | .ok canonicalFile =>
          if canonicalSkillDir.isPrefixOf canonicalFile then
            match disk.readToString file with
            | .error e => errorResult ("load_skill: could not read " ++ label ++ ": " ++ e)
            | .ok content =>
                ⟨cappedText ("# Loaded: " ++ skillName ++ "/" ++ relPath ++ "\n\n" ++ content ++
                  "\n\n---\nFile loaded into context."), false, some file⟩
          else
            errorResult ("load_skill: refusing to load " ++ label ++
              ": resolves outside the skill directory")

def loadSupportingFile (disk : Disk) (skillName relPath : String) (skills : List SkillEntry) :
    LoadResult :=
  let relPath := normalizeSlashes relPath
  match findSkill skillName skills with
  | none => notFound lib skillName skills
  | some entry =>
      match parent entry.path with
      | none =>
          errorResult ("load_skill: could not determine skill directory for " ++
            lib.debug skillName)
      | some skillDir =>
          match entry.supportingFiles.find? fun file => relText skillDir file = some relPath with
          | none => missingFile lib entry skillDir skillName relPath
          | some file => readGuarded lib disk skillDir file skillName relPath

def loadByName (disk : Disk) (name : String) (skills : List SkillEntry) : LoadResult :=
  match findSkill name skills with
  | none => notFound lib name skills
  | some entry =>
      match disk.readToString entry.path with
      | .error e =>
          errorResult ("load_skill: could not read " ++ lib.debugPath entry.path ++ ": " ++ e)
      | .ok raw => ⟨skillPage entry raw, false, some entry.path⟩

/-- The text argument of a call, if there is one. -/
def nameArgument : JsonText.Value → Option String
  | .object members =>
      match members.lookup "name" with
      | some (.string name) => some name
      | _ => none
  | _ => none

def callLoadSkill (disk : Disk) (arguments : JsonText.Value) (skills : List SkillEntry) :
    LoadResult :=
  match nameArgument arguments with
  | none => errorResult "load_skill: missing required argument \"name\""
  | some name =>
      match splitOnce '/' name.toList with
      | some (skillName, relPath) =>
          loadSupportingFile lib disk (String.ofList skillName) (String.ofList relPath) skills
      | none => loadByName lib disk name skills

end Loading

section Discovered

/-- The files of a skill lie in its directory, and none of them is a `SKILL.md`. -/
def Placed (entry : SkillEntry) (skillDir : Path) : Prop :=
  entry.path = skillDir ++ [skillMd] ∧
    ∀ file ∈ entry.supportingFiles, skillDir <+: file ∧ file.getLast? ≠ some skillMd

theorem mem_sortPaths {paths : List Path} {path : Path} : path ∈ sortPaths paths ↔ path ∈ paths :=
  List.mem_insertionSort _

theorem collected_under (disk : FiniteDisk) :
    (∀ current visited, ∀ file ∈ (collectSupportingFilesImpl disk current visited).out,
      current <+: file ∧ file.getLast? ≠ some skillMd) ∧
    ∀ items visited, ∀ file ∈ (collectItems disk items visited).out,
      (∃ path ∈ items, path <+: file) ∧ file.getLast? ≠ some skillMd := by
  -- the files of an item are known to be under one of the items that the loop still has
  have hlater {path : Path} {rest : List Path} {file : Path}
      (h : (∃ item ∈ rest, item <+: file) ∧ file.getLast? ≠ some skillMd) :
      (∃ item ∈ path :: rest, item <+: file) ∧ file.getLast? ≠ some skillMd :=
    ⟨h.1.imp fun item hitem => ⟨List.mem_cons_of_mem _ hitem.1, hitem.2⟩, h.2⟩
  apply collectSupportingFilesImpl.mutual_induct
  case case1 =>
    intro current visited message hcanonical file hfile
    rw [collectSupportingFilesImpl] at hfile
    split at hfile
    · cases hfile
    · next hok => rw [hcanonical] at hok; cases hok
  case case2 =>
    intro current visited place hcanonical hold file hfile
    rw [collectSupportingFilesImpl] at hfile
    split at hfile
    · cases hfile
    · next hok =>
        cases hcanonical.symm.trans hok
        rw [dif_pos hold] at hfile
        cases hfile
  case case3 =>
    intro current visited place hcanonical hnew ih file hfile
    rw [collectSupportingFilesImpl] at hfile
    split at hfile
    · cases hfile
    · next hok =>
        cases hcanonical.symm.trans hok
        rw [dif_neg hnew] at hfile
        obtain ⟨⟨path, hpath, hunder⟩, hlast⟩ := ih file hfile
        obtain ⟨name, -, rfl⟩ := List.mem_map.mp (mem_sortPaths.mp hpath)
        exact ⟨(List.prefix_append _ _).trans hunder, hlast⟩
  case case4 =>
    intro visited file hfile
    rw [collectItems] at hfile
    cases hfile
  case case5 =>
    intro visited path rest hdir hskill ih file hfile
    rw [collectItems, hdir] at hfile
    simp only [if_pos hskill] at hfile
    exact hlater (ih file hfile)
  case case6 =>
    intro visited path rest hdir hskill inner ihInner _ ihRest file hfile
    rw [collectItems, hdir] at hfile
    simp only [if_neg hskill] at hfile
    rcases List.mem_append.mp hfile with hfile | hfile
    · obtain ⟨hunder, hlast⟩ := ihInner file hfile
      exact ⟨⟨path, List.mem_cons_self, hunder⟩, hlast⟩
    · exact hlater (ihRest file hfile)
  case case7 =>
    intro visited path rest hkind hlast ih file hfile
    rw [collectItems, hkind] at hfile
    simp only [if_pos hlast] at hfile
    rcases List.mem_cons.mp hfile with rfl | hfile
    · exact ⟨⟨file, List.mem_cons_self, List.prefix_rfl⟩, hlast⟩
    · exact hlater (ih file hfile)
  case case8 =>
    intro visited path rest hkind hlast ih file hfile
    rw [collectItems, hkind] at hfile
    simp only [if_neg hlast] at hfile
    exact hlater (ih file hfile)
  case case9 =>
    intro visited path rest hdir hkind ih file hfile
    rw [collectItems] at hfile
    split at hfile
    · next h => exact absurd h hdir
    · next h => exact absurd h hkind
    · exact hlater (ih file hfile)

theorem collected_placed (disk : FiniteDisk) (skillDir : Path) :
    ∀ file ∈ collectSupportingFiles disk skillDir,
      skillDir <+: file ∧ file.getLast? ≠ some skillMd := by
  intro file hfile
  exact (collected_under disk).1 skillDir [] file (mem_sortPaths.mp hfile)

/-- What a scan keeps: one skill a name, each with its files in its directory. -/
structure Scan.Sound (scan : Scan) : Prop where
  nodup : (scan.skills.map SkillEntry.name).Nodup
  seen : ∀ entry ∈ scan.skills, entry.name ∈ scan.seen
  placed : ∀ entry ∈ scan.skills, ∃ skillDir, Placed entry skillDir

variable {lib : SkillLibraries} {disk : FiniteDisk} {scan : Scan}

theorem Scan.Sound.subdir (h : scan.Sound) (subdir : Path) :
    (scanSubdir lib disk scan subdir).Sound := by
  unfold scanSubdir
  split
  · exact h
  · split
    · exact h
    · next name description _ =>
        split
        · exact h
        · next hnew =>
            refine ⟨?_, ?_, ?_⟩
            · rw [List.map_append, List.map_singleton, List.nodup_append]
              refine ⟨h.nodup, List.nodup_singleton _, ?_⟩
              intro other hother name' hname
              obtain ⟨entry, hentry, rfl⟩ := List.mem_map.mp hother
              obtain rfl := List.mem_singleton.mp hname
              intro heq
              exact hnew (heq ▸ h.seen entry hentry)
            · intro entry hentry
              rcases List.mem_append.mp hentry with hold | hlast
              · exact List.mem_cons_of_mem _ (h.seen entry hold)
              · obtain rfl := List.mem_singleton.mp hlast
                exact List.mem_cons_self
            · intro entry hentry
              rcases List.mem_append.mp hentry with hold | hlast
              · exact h.placed entry hold
              · obtain rfl := List.mem_singleton.mp hlast
                exact ⟨subdir, rfl, collected_placed disk subdir⟩

theorem Scan.Sound.subdirs (h : scan.Sound) (subdirs : List Path) :
    (subdirs.foldl (scanSubdir lib disk) scan).Sound := by
  induction subdirs generalizing scan with
  | nil => exact h
  | cons subdir subdirs ih => exact ih (h.subdir subdir)

theorem Scan.Sound.dir (h : scan.Sound) (dir : Path) : (scanSkillDir lib disk scan dir).Sound :=
  h.subdirs _

theorem Scan.Sound.dirs (h : scan.Sound) (dirs : List Path) :
    (dirs.foldl (scanSkillDir lib disk) scan).Sound := by
  induction dirs generalizing scan with
  | nil => exact h
  | cons dir dirs ih => exact ih (h.dir dir)

theorem discovered_sound (lib : SkillLibraries) (disk : FiniteDisk) (cwd : Path)
    (home : Option Path) :
    ∃ scan : Scan, scan.Sound ∧ scan.skills = discoverSkillsImpl lib disk cwd home := by
  have hstart : Scan.Sound ⟨[], []⟩ := ⟨List.nodup_nil, by simp, by simp⟩
  have hdirs := @Scan.Sound.dirs lib disk _ hstart (skillDirs.map (cwd ++ ·))
  cases home with
  | none => exact ⟨_, hdirs, rfl⟩
  | some home => exact ⟨_, hdirs.dir (home ++ [osName ".agents", osName "skills"]), rfl⟩

end Discovered

section Requests

variable {lib : SkillLibraries} {disk : Disk} {skills : List SkillEntry} {entry : SkillEntry}
  {arguments : JsonText.Value} {name : String}

theorem find?_of_nodup (hnodup : (skills.map SkillEntry.name).Nodup) (hentry : entry ∈ skills) :
    findSkill entry.name skills = some entry := by
  unfold findSkill
  induction skills with
  | nil => cases hentry
  | cons first rest ih =>
      rw [List.map_cons, List.nodup_cons] at hnodup
      by_cases hfirst : first.name = entry.name
      · rcases List.mem_cons.mp hentry with rfl | hrest
        · simp
        · exact absurd (hfirst ▸ List.mem_map_of_mem hrest) hnodup.1
      · rw [List.find?_cons_of_neg (by simpa using hfirst)]
        rcases List.mem_cons.mp hentry with rfl | hrest
        · exact absurd rfl hfirst
        · exact ih hnodup.2 hrest

theorem splitOnce_eq_none {separator : Char} {text : List Char} :
    splitOnce separator text = none ↔ separator ∉ text := by
  induction text with
  | nil => simp [splitOnce]
  | cons c rest ih =>
      rw [splitOnce, List.mem_cons, not_or]
      by_cases hc : c = separator
      · simp [hc]
      · rw [if_neg hc, Option.map_eq_none_iff, ih]
        exact ⟨fun h => ⟨Ne.symm hc, h⟩, And.right⟩

theorem normalizeSlashes_idem (s : String) :
    normalizeSlashes (normalizeSlashes s) = normalizeSlashes s := by
  have hchar (c : Char) : (if (if c = '\\' then '/' else c) = '\\' then '/' else
      (if c = '\\' then '/' else c)) = if c = '\\' then '/' else c := by
    by_cases hc : c = '\\'
    · rw [if_pos hc, if_neg (by decide)]
    · rw [if_neg hc, if_neg hc]
  unfold normalizeSlashes
  rw [String.toList_ofList, List.map_map]
  exact congrArg String.ofList (List.map_congr_left fun c _ => hchar c)

theorem normalizeSlashes_relText {skillDir file : Path} {rel : String}
    (h : relText skillDir file = some rel) : normalizeSlashes rel = rel := by
  obtain ⟨path, -, rfl⟩ := Option.map_eq_some_iff.mp h
  exact normalizeSlashes_idem _

theorem reached_readGuarded {skillDir file other : Path} {skillName relPath : String}
    (h : (readGuarded lib disk skillDir file skillName relPath).reached = some other) :
    other = file := by
  unfold readGuarded at h
  split at h
  · cases h
  · split at h
    · cases h
    · split at h
      · split at h
        · cases h
        · exact (Option.some.inj h).symm
      · cases h

/-- Whatever a request with a slash in it reaches is a supporting file. -/
theorem reached_loadSupportingFile {skillName relPath : String} {other : Path}
    (h : (loadSupportingFile lib disk skillName relPath skills).reached = some other) :
    ∃ entry ∈ skills, other ∈ entry.supportingFiles := by
  simp only [loadSupportingFile] at h
  split at h
  · cases h
  · next entry hentry =>
      split at h
      · cases h
      · split at h
        · simp only [missingFile] at h
          split_ifs at h <;> cases h
        · next file hfile =>
            rw [reached_readGuarded h]
            exact ⟨entry, List.mem_of_find?_eq_some hentry, List.mem_of_find?_eq_some hfile⟩

theorem callLoadSkill_slash (hname : nameArgument arguments = some name)
    (hslash : '/' ∈ name.toList) : ∃ skillName relPath,
      callLoadSkill lib disk arguments skills =
        loadSupportingFile lib disk skillName relPath skills := by
  cases hsplit : splitOnce '/' name.toList with
  | none => exact absurd hslash (splitOnce_eq_none.mp hsplit)
  | some parts =>
      refine ⟨String.ofList parts.1, String.ofList parts.2, ?_⟩
      unfold callLoadSkill
      rw [hname]
      simp only [hsplit]

theorem callLoadSkill_plain (hname : nameArgument arguments = some name)
    (hslash : '/' ∉ name.toList) :
    callLoadSkill lib disk arguments skills = loadByName lib disk name skills := by
  unfold callLoadSkill
  rw [hname]
  simp only [splitOnce_eq_none.mpr hslash]

theorem callLoadSkill_file {rel : String} (hslash : '/' ∉ name.toList)
    (hname : nameArgument arguments = some (name ++ "/" ++ rel)) :
    callLoadSkill lib disk arguments skills = loadSupportingFile lib disk name rel skills := by
  have hsplit : splitOnce '/' (name ++ "/" ++ rel).toList = some (name.toList, rel.toList) := by
    rw [String.toList_append, String.toList_append, List.append_assoc]
    exact splitOnce_append hslash _
  unfold callLoadSkill
  rw [hname]
  simp only [hsplit, String.ofList_toList]

end Requests

section Listing

variable (lib : SkillLibraries) (skills : List SkillEntry)

/-- The file can be read and lies inside the directory of the skill. -/
def Usable (disk : Disk) (entry : SkillEntry) (file : Path) : Prop :=
  (∃ content, disk.readToString file = .ok content) ∧
    ∃ skillDir place target, parent entry.path = some skillDir ∧
      disk.canonicalize skillDir = .ok place ∧ disk.canonicalize file = .ok target ∧
      place <+: target

/-- On every disk the name loads the file of the skill, if it is usable, and never another one. -/
def Loads (entry : SkillEntry) (name : String) (file : Path) : Prop :=
  ∀ disk arguments, nameArgument arguments = some name →
    (Usable disk entry file → (callLoadSkill lib disk arguments skills).reached = some file) ∧
    ∀ other, (callLoadSkill lib disk arguments skills).reached = some other → other = file

/-- Loading the skill by its name has shown the line of the file, with this text for its path. -/
def Shown (entry : SkillEntry) (file : Path) (rel : String) : Prop :=
  ∃ disk arguments raw before after, nameArgument arguments = some entry.name ∧
    disk.readToString entry.path = .ok raw ∧
    entry.supportingFiles = before ++ file :: after ∧
    (parent entry.path).bind (relText · file) = some rel ∧
    (stripFrontmatter raw ++ supportingLines entry (before ++ [file])).toList <+:
      (callLoadSkill lib disk arguments skills).text.toList

/-- What is listed is loaded, a skill by its name and a file by the path in the listing. -/
def ListedLoads : Prop :=
  ∀ entry ∈ skills, Loads lib skills entry entry.name entry.path ∧
    ∀ file rel, Shown lib skills entry file rel →
      Loads lib skills entry (entry.name ++ "/" ++ rel) file

/-- No name has a slash, and no two of the files whose lines fit under the cap share a text. -/
structure NamedApart : Prop where
  noSlash : ∀ entry ∈ skills, '/' ∉ entry.name.toList
  texts : ∀ entry ∈ skills, ∀ before file after,
    entry.supportingFiles = before ++ file :: after →
    (supportingLines entry (before ++ [file])).utf8ByteSize ≤ maxSkillBodyBytes →
    ∀ earlier ∈ before, (parent entry.path).bind (relText · earlier) =
      (parent entry.path).bind (relText · file) → earlier = file

variable {lib skills} {entry : SkillEntry} {skillDir file : Path} {disk : Disk}

theorem parent_append (dir : Path) (name : OsName) : parent (dir ++ [name]) = some dir := by
  simp [parent]

theorem relText_of_prefix (h : skillDir <+: file) : ∃ rel, relText skillDir file = some rel := by
  simp [relText, stripPrefix, List.isPrefixOf_iff_prefix.mpr h]

theorem prefix_cappedText {before output : String} (h : before.toList <+: output.toList) :
    before.toList <+: (cappedText output).toList ↔ before.utf8ByteSize ≤ maxSkillBodyBytes := by
  have hcut : cappedText output = truncateAtBoundary output maxSkillBodyBytes := by
    unfold cappedText truncateAtBoundary
    by_cases hsize : maxSkillBodyBytes < output.utf8ByteSize
    · rw [if_pos hsize]
    · rw [if_neg hsize, if_pos (Nat.not_lt.mp hsize)]
  rw [hcut, truncateAtBoundary_eq, String.toList_ofList, Utf8Offsets.utf8ByteSize_eq]
  exact Utf8Offsets.prefix_takeBytes_iff h

theorem supportingLines_append (entry : SkillEntry) (files more : List Path) :
    (supportingLines entry files).toList <+: (supportingLines entry (files ++ more)).toList := by
  rw [supportingLines, supportingLines, List.foldl_append]
  generalize files.foldl _ _ = output
  induction more generalizing output with
  | nil => exact List.prefix_rfl
  | cons next more ih =>
      refine List.IsPrefix.trans ?_ (ih (output ++ supportingLine entry next))
      rw [String.toList_append]
      exact List.prefix_append _ _

/-- The lines up to a file are on the page if they fit under the cap after the body. -/
theorem prefix_skillPage_iff {before after : List Path}
    (h : entry.supportingFiles = before ++ file :: after) (raw : String) :
    (stripFrontmatter raw ++ supportingLines entry (before ++ [file])).toList <+:
        (skillPage entry raw).toList ↔
      (stripFrontmatter raw ++ supportingLines entry (before ++ [file])).utf8ByteSize ≤
        maxSkillBodyBytes := by
  have hfiles : entry.supportingFiles ≠ [] := by simp [h]
  have hlines := supportingLines_append entry (before ++ [file]) after
  rw [List.append_assoc, List.singleton_append, ← h] at hlines
  unfold skillPage
  rw [if_neg hfiles]
  apply prefix_cappedText
  rw [String.toList_append, String.toList_append]
  exact (List.prefix_append_right_inj _).mpr hlines

theorem loads_by_name (hnodup : (skills.map SkillEntry.name).Nodup) (hentry : entry ∈ skills)
    (hslash : '/' ∉ entry.name.toList) : Loads lib skills entry entry.name entry.path := by
  intro disk arguments hname
  have hcall : callLoadSkill lib disk arguments skills = loadByName lib disk entry.name skills :=
    callLoadSkill_plain hname hslash
  rw [hcall, loadByName, find?_of_nodup hnodup hentry]
  constructor
  · rintro ⟨⟨content, hread⟩, -⟩
    simp only [hread]
  · intro other hother
    dsimp only at hother
    split at hother
    · cases hother
    · exact (Option.some.inj hother).symm

/-- The first file with the text of a file that fits is that file. -/
theorem find?_supporting (hapart : NamedApart skills) (hentry : entry ∈ skills)
    {before after : List Path} {rel : String} (hparent : parent entry.path = some skillDir)
    (hfiles : entry.supportingFiles = before ++ file :: after)
    (hfits : (supportingLines entry (before ++ [file])).utf8ByteSize ≤ maxSkillBodyBytes)
    (hrel : relText skillDir file = some rel) :
    entry.supportingFiles.find? (fun other => relText skillDir other = some rel) = some file := by
  have hsome : (before ++ [file]).find? (fun other => relText skillDir other = some rel) =
      some file := by
    cases hfind : before.find? (fun other => relText skillDir other = some rel) with
    | none => simp [hfind, hrel]
    | some first =>
        have htext : relText skillDir first = some rel := by simpa using List.find?_some hfind
        have hsame : first = file := by
          apply hapart.texts entry hentry before file after hfiles hfits first
            (List.mem_of_find?_eq_some hfind)
          simp [hparent, htext, hrel]
        rw [List.find?_append, hfind, hsame]
        rfl
  rw [hfiles, List.append_cons, List.find?_append, hsome]
  rfl

theorem loads_file (hnodup : (skills.map SkillEntry.name).Nodup) (hapart : NamedApart skills)
    (hentry : entry ∈ skills) {rel : String} (hshown : Shown lib skills entry file rel) :
    Loads lib skills entry (entry.name ++ "/" ++ rel) file := by
  obtain ⟨shownOn, asked, raw, before, after, hasked, hraw, hfiles, hbind, hpage⟩ := hshown
  obtain ⟨skillDir, hparent, hrel⟩ := Option.bind_eq_some_iff.mp hbind
  have hslash := hapart.noSlash entry hentry
  have hshownPage : (callLoadSkill lib shownOn asked skills).text = skillPage entry raw := by
    rw [callLoadSkill_plain hasked hslash, loadByName, find?_of_nodup hnodup hentry]
    simp only [hraw]
  rw [hshownPage, prefix_skillPage_iff hfiles, String.utf8ByteSize_append] at hpage
  have hfind := find?_supporting hapart hentry hparent hfiles (by omega) hrel
  intro disk arguments hname
  have hcall : callLoadSkill lib disk arguments skills =
      readGuarded lib disk skillDir file entry.name rel := by
    rw [callLoadSkill_file hslash hname]
    simp only [loadSupportingFile, find?_of_nodup hnodup hentry, hparent,
      normalizeSlashes_relText hrel, hfind]
  rw [hcall]
  constructor
  · rintro ⟨⟨content, hread⟩, dir, place, target, hdir, hplace, htarget, hinside⟩
    cases hparent.symm.trans hdir
    simp only [readGuarded, hplace, htarget, List.isPrefixOf_iff_prefix.mpr hinside, hread, if_true]
  · intro other hother
    exact reached_readGuarded hother

/-- A disk where every file is empty and in its own place. -/
def plainDisk : Disk where
  readDir _ := none
  metadata _ := none
  readToString _ := .ok ""
  canonicalize path := .ok path

theorem usable_plainDisk (hparent : parent entry.path = some skillDir) (h : skillDir <+: file) :
    Usable plainDisk entry file :=
  ⟨⟨"", rfl⟩, skillDir, skillDir, file, hparent, rfl, rfl, h⟩

def nameRequest (name : String) : JsonText.Value := .object [("name", .string name)]

theorem noSlash_of_loads (hplaced : ∀ entry ∈ skills, ∃ skillDir, Placed entry skillDir)
    (hentry : entry ∈ skills) (h : Loads lib skills entry entry.name entry.path) :
    '/' ∉ entry.name.toList := by
  intro hslash
  obtain ⟨skillDir, hpath, -⟩ := hplaced entry hentry
  have husable : Usable plainDisk entry entry.path := by
    apply @usable_plainDisk entry skillDir
    · rw [hpath, parent_append]
    · exact hpath ▸ List.prefix_append _ _
  have hreached := (h plainDisk (nameRequest entry.name) rfl).1 husable
  obtain ⟨skillName, relPath, hcall⟩ := @callLoadSkill_slash lib plainDisk skills
    (nameRequest entry.name) entry.name rfl hslash
  rw [hcall] at hreached
  obtain ⟨owner, howner, hfile⟩ := reached_loadSupportingFile hreached
  obtain ⟨ownerDir, -, hfiles⟩ := hplaced owner howner
  refine (hfiles entry.path hfile).2 ?_
  rw [hpath, List.getLast?_concat]

/-- A file whose line fits is shown when the body of the skill is empty. -/
theorem shown_of_fits (hnodup : (skills.map SkillEntry.name).Nodup) (hentry : entry ∈ skills)
    (hslash : '/' ∉ entry.name.toList) {before after : List Path} {rel : String}
    (hfiles : entry.supportingFiles = before ++ file :: after)
    (hrel : (parent entry.path).bind (relText · file) = some rel)
    (hfits : (supportingLines entry (before ++ [file])).utf8ByteSize ≤ maxSkillBodyBytes) :
    Shown lib skills entry file rel := by
  refine ⟨plainDisk, nameRequest entry.name, "", before, after, rfl, rfl, hfiles, hrel, ?_⟩
  have hpage : (callLoadSkill lib plainDisk (nameRequest entry.name) skills).text =
      skillPage entry "" := by
    rw [callLoadSkill_plain rfl hslash, loadByName, find?_of_nodup hnodup hentry]
    rfl
  have hbody : stripFrontmatter "" = "" := by decide
  rw [hpage, prefix_skillPage_iff hfiles, hbody, String.empty_append]
  exact hfits

theorem texts_of_loads (hnodup : (skills.map SkillEntry.name).Nodup)
    (hplaced : ∀ entry ∈ skills, ∃ skillDir, Placed entry skillDir) (hentry : entry ∈ skills)
    (hslash : '/' ∉ entry.name.toList)
    (h : ∀ file rel, Shown lib skills entry file rel →
      Loads lib skills entry (entry.name ++ "/" ++ rel) file)
    {before after : List Path} (hfiles : entry.supportingFiles = before ++ file :: after)
    (hfits : (supportingLines entry (before ++ [file])).utf8ByteSize ≤ maxSkillBodyBytes)
    {earlier : Path} (hearlier : earlier ∈ before)
    (htext : (parent entry.path).bind (relText · earlier) =
      (parent entry.path).bind (relText · file)) : earlier = file := by
  obtain ⟨skillDir, hpath, hunder⟩ := hplaced entry hentry
  have hparent : parent entry.path = some skillDir := by rw [hpath, parent_append]
  obtain ⟨front, back, rfl⟩ := List.append_of_mem hearlier
  have hwithin {other : Path} (hother : other ∈ entry.supportingFiles) : skillDir <+: other :=
    (hunder other hother).1
  have hmemFile : file ∈ entry.supportingFiles := by simp [hfiles]
  have hmemEarlier : earlier ∈ entry.supportingFiles := by simp [hfiles]
  obtain ⟨rel, hrel⟩ := relText_of_prefix (hwithin hmemFile)
  have hrelFile : (parent entry.path).bind (relText · file) = some rel := by
    rw [hparent, Option.bind_some, hrel]
  have hfitsEarlier : (supportingLines entry (front ++ [earlier])).utf8ByteSize ≤
      maxSkillBodyBytes := by
    obtain ⟨more, hmore⟩ := supportingLines_append entry (front ++ [earlier]) (back ++ [file])
    have hsize := congrArg size hmore
    simp only [List.append_assoc, List.cons_append, List.nil_append] at hsize hfits ⊢
    rw [Utf8Offsets.size_append, ← Utf8Offsets.utf8ByteSize_eq, ← Utf8Offsets.utf8ByteSize_eq]
      at hsize
    omega
  have hshownFile := @shown_of_fits lib _ _ _ hnodup hentry hslash _ _ _ hfiles hrelFile hfits
  have hshownEarlier := @shown_of_fits lib _ _ earlier hnodup hentry hslash front
    (back ++ file :: after) rel (by simpa using hfiles) (htext.trans hrelFile) hfitsEarlier
  -- one request cannot load two files
  have hloadsFile := (h file rel hshownFile plainDisk (nameRequest _) rfl).1
    (usable_plainDisk hparent (hwithin hmemFile))
  have hloadsEarlier := (h earlier rel hshownEarlier plainDisk (nameRequest _) rfl).1
    (usable_plainDisk hparent (hwithin hmemEarlier))
  exact Option.some.inj (hloadsEarlier.symm.trans hloadsFile)

end Listing

theorem discovered_load_iff (lib : SkillLibraries) (disk : FiniteDisk) (cwd : Path)
    (home : Option Path) :
    ListedLoads lib (discoverSkillsImpl lib disk cwd home) ↔
      NamedApart (discoverSkillsImpl lib disk cwd home) := by
  obtain ⟨scan, hsound, hscan⟩ := discovered_sound lib disk cwd home
  rw [← hscan]
  constructor
  · intro h
    have hslash : ∀ entry ∈ scan.skills, '/' ∉ entry.name.toList := fun entry hentry =>
      noSlash_of_loads hsound.placed hentry (h entry hentry).1
    refine ⟨hslash, ?_⟩
    intro entry hentry before file after hfiles hfits earlier hearlier htext
    exact texts_of_loads hsound.nodup hsound.placed hentry (hslash entry hentry)
      (h entry hentry).2 hfiles hfits hearlier htext
  · intro h entry hentry
    refine ⟨loads_by_name hsound.nodup hentry (h.noSlash entry hentry), ?_⟩
    intro file rel hshown
    exact loads_file hsound.nodup h hentry hshown

/-- A disk with two skills: one is named `a`, the other `a/b`. -/
def slashDisk : FiniteDisk where
  readDir path :=
    if path = [osName ".agents", osName "skills"] then some [osName "one", osName "two"]
    else none
  metadata path := if path.length = 3 then some .dir else none
  readToString path :=
    if path.contains (osName "one") then .ok "---\nname: a\n---\n"
    else .ok "---\nname: a/b\n---\n"
  canonicalize _ := .error "no place"
  places := []
  mem_places := by simp

/-- Stands for the parser on a mapping with one plain field. -/
def lineFields (yaml : String) : Option (String → Option String) :=
  some fun key =>
    if (key ++ ": ").toList.isPrefixOf yaml.toList then
      some (String.ofList (yaml.toList.drop (key.length + 2)))
    else none

def lineLibraries : SkillLibraries where
  yamlFields := lineFields
  debug text := "\"" ++ text ++ "\""
  debugPath _ := "\"\""

theorem slashed_name_never_loads :
    ¬ ListedLoads lineLibraries (discoverSkillsImpl lineLibraries slashDisk [] none) := by
  obtain ⟨scan, hsound, hscan⟩ := discovered_sound lineLibraries slashDisk [] none
  have hnames : (discoverSkillsImpl lineLibraries slashDisk [] none).map SkillEntry.name =
      ["a", "a/b"] := by decide +kernel
  rw [← hscan] at hnames ⊢
  intro h
  have hmem : "a/b" ∈ scan.skills.map SkillEntry.name := by simp [hnames]
  obtain ⟨entry, hentry, hname⟩ := List.mem_map.mp hmem
  have hslash := noSlash_of_loads hsound.placed hentry (h entry hentry).1
  rw [hname] at hslash
  exact hslash (by decide)

end Buzz.Skills
