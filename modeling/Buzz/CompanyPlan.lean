import Mathlib
import Buzz.AsciiText

/-!
# Company templates and instantiation plans

A template declares groups, roles, stores and task lists. The plan of an
instance is a function of the template and the identifier of the instance, so
that a second run meets the step keys of the first one. The manifest records
the steps that are done; the directory of an instance is named by a key made
from its identifier.
-/

namespace Buzz.Company

section Template

inductive GroupVisibility where
  | privateSecure
  | publicOpen
  deriving DecidableEq, Repr

def GroupVisibility.asX0xdPreset : GroupVisibility → String
  | privateSecure => "private_secure"
  | publicOpen => "public_open"

inductive StoreKind where
  | backlog
  | claims
  | runs
  | handoffs
  | proofs
  | generic
  deriving DecidableEq, Repr

def StoreKind.asStr : StoreKind → String
  | backlog => "backlog"
  | claims => "claims"
  | runs => "runs"
  | handoffs => "handoffs"
  | proofs => "proofs"
  | generic => "generic"

inductive StorePolicy where
  | signed
  | appendOnly
  deriving DecidableEq, Repr

structure RoleSpec where
  id : String
  name : String
  harness : String
  groups : List String
  deriving DecidableEq, Repr

structure GroupSpec where
  id : String
  name : String
  visibility : GroupVisibility
  purpose : Option String
  members : List String
  deriving DecidableEq, Repr

structure StoreSpec where
  id : String
  name : String
  kind : StoreKind
  policy : StorePolicy
  group : Option String
  deriving DecidableEq, Repr

structure TaskListSpec where
  id : String
  name : String
  group : Option String
  deriving DecidableEq, Repr

structure CompanyTemplate where
  id : String
  name : String
  description : Option String
  groups : List GroupSpec
  roles : List RoleSpec
  stores : List StoreSpec
  taskLists : List TaskListSpec
  deriving DecidableEq, Repr

namespace CompanyTemplate

variable (template : CompanyTemplate)

def group (id : String) : Option GroupSpec := template.groups.find? (·.id == id)

def role (id : String) : Option RoleSpec := template.roles.find? (·.id == id)

end CompanyTemplate

def getCompanyTemplate (registry : List CompanyTemplate) (id : String) : Option CompanyTemplate :=
  registry.find? (·.id == id)

theorem id_of_getCompanyTemplate {registry : List CompanyTemplate} {id : String}
    {template : CompanyTemplate} (h : getCompanyTemplate registry id = some template) :
    template.id = id := by
  simpa using List.find?_some h

/-- The runner preset that a harness stands for. -/
def runnerPreset (harness : String) : String :=
  match toAsciiLowercase (trim harness) with
  | "claude" | "claude-code" | "claude_code" => "claude_code"
  | "codex" => "codex"
  | "kimi" => "kimi"
  | "glm" => "glm"
  | "minimax" => "minimax"
  | _ => "pi"

inductive ValidationIssue where
  | emptyTemplateId
  | emptyGroupName
  | duplicateGroupId (id : String)
  | duplicateRoleId (id : String)
  | duplicateStoreId (id : String)
  | duplicateTaskListId (id : String)
  | unknownGroupRef (field group : String)
  | unknownRoleRef (group role : String)
  | emptyHarness (role : String)
  | multipleHarnessesUnsupported (harnesses : List String)
  | primaryTaskListContract (count : ℕ)
  | primaryTaskListNotFirst
  | unsupportedGroupVisibility (group visibility : String)
  deriving DecidableEq, Repr

def ValidationIssue.toText : ValidationIssue → String
  | emptyTemplateId => "template id must be non-empty"
  | emptyGroupName => "group names must be non-empty"
  | duplicateGroupId id => "duplicate group id `" ++ id ++ "`"
  | duplicateRoleId id => "duplicate role id `" ++ id ++ "`"
  | duplicateStoreId id => "duplicate store id `" ++ id ++ "`"
  | duplicateTaskListId id => "duplicate task-list id `" ++ id ++ "`"
  | unknownGroupRef field group => field ++ " references unknown group `" ++ group ++ "`"
  | unknownRoleRef group role =>
      "group `" ++ group ++ "` references unknown role `" ++ role ++ "`"
  | emptyHarness role => "role `" ++ role ++ "` has an empty harness"
  | multipleHarnessesUnsupported harnesses =>
      "template declares multiple Symphony runner harnesses [" ++
        ", ".intercalate (harnesses.map fun harness => "\"" ++ harness ++ "\"") ++
        "]; exactly one uniform runner is supported"
  | primaryTaskListContract count =>
      "template must declare exactly one company-shared (primary) task list; found " ++
        toString count
  | primaryTaskListNotFirst =>
      "the company-shared (primary) task list must be declared first so Symphony binds it as " ++
        "the backlog"
  | unsupportedGroupVisibility group visibility =>
      "group `" ++ group ++ "` declares unsupported visibility `" ++ visibility ++
        "`; Company provisioning only supports `public_open` groups"

/-- The text of the parse error that carries the issue. -/
def ValidationIssue.invalidText (issue : ValidationIssue) : String :=
  "template invalid: " ++ issue.toText

/-- The checks of one declaration after the other; `seen` are the identifiers before it. -/
def checkEach {α : Type} (id : α → String) (duplicate : String → ValidationIssue)
    (check : α → Option ValidationIssue) :
    List String → List α → Except ValidationIssue Unit
  | _, [] => .ok ()
  | seen, x :: rest =>
      match check x with
      | some issue => .error issue
      | none =>
          if id x ∈ seen then .error (duplicate (id x))
          else checkEach id duplicate check (id x :: seen) rest

/-- The same, with the check after the test for a duplicate. -/
def checkEachAfter {α : Type} (id : α → String) (duplicate : String → ValidationIssue)
    (check : α → Option ValidationIssue) :
    List String → List α → Except ValidationIssue Unit
  | _, [] => .ok ()
  | seen, x :: rest =>
      if id x ∈ seen then .error (duplicate (id x))
      else
        match check x with
        | some issue => .error issue
        | none => checkEachAfter id duplicate check (id x :: seen) rest

def firstIssue : List ValidationIssue → Except ValidationIssue Unit
  | [] => .ok ()
  | issue :: _ => .error issue

def validate (template : CompanyTemplate) : Except ValidationIssue Unit := do
  let groupIds := template.groups.map (·.id)
  let roleIds := template.roles.map (·.id)
  let unknownGroup (field : String) (group : String) : Option ValidationIssue :=
    if group ∈ groupIds then none else some (.unknownGroupRef field group)
  firstIssue (if trim template.id = "" then [.emptyTemplateId] else [])
  checkEach (·.id) .duplicateGroupId
    (fun g : GroupSpec => if trim g.name = "" then some .emptyGroupName else none) []
    template.groups
  checkEach (·.id) .duplicateRoleId
    (fun r : RoleSpec => if trim r.harness = "" then some (.emptyHarness r.id) else none) []
    template.roles
  firstIssue (template.groups.flatMap fun g => g.members.filterMap fun role =>
    if role ∈ roleIds then none else some (.unknownRoleRef g.id role))
  firstIssue (template.roles.flatMap fun r =>
    r.groups.filterMap (unknownGroup ("role `" ++ r.id ++ "`.groups")))
  checkEachAfter (·.id) .duplicateStoreId
    (fun s : StoreSpec => s.group.bind (unknownGroup ("store `" ++ s.id ++ "`.group"))) []
    template.stores
  checkEachAfter (·.id) .duplicateTaskListId
    (fun t : TaskListSpec => t.group.bind (unknownGroup ("task-list `" ++ t.id ++ "`.group"))) []
    template.taskLists

def validateSupportedContract (template : CompanyTemplate) : Except ValidationIssue Unit :=
  let distinct := (template.roles.map (runnerPreset ·.harness)).dedup
  let primaryCount := (template.taskLists.filter (·.group.isNone)).length
  if distinct.length > 1 then
    .error (.multipleHarnessesUnsupported (distinct.mergeSort fun a b => decide (a ≤ b)))
  else if primaryCount ≠ 1 then .error (.primaryTaskListContract primaryCount)
  else if template.taskLists.head?.any (·.group.isSome) then .error .primaryTaskListNotFirst
  else
    match template.groups.find? (·.visibility ≠ .publicOpen) with
    | some group => .error (.unsupportedGroupVisibility group.id group.visibility.asX0xdPreset)
    | none => .ok ()

end Template

section Keys

def isKeyChar (c : Char) : Bool := c.isAlphanum || c == '_'

def trimDashes (cs : List Char) : List Char :=
  ((cs.dropWhile (· == '-')).reverse.dropWhile (· == '-')).reverse

def orDefault (cs : List Char) : String :=
  if cs.isEmpty then "default" else String.ofList cs

/-- `separated` tells that the last character was a separator. -/
def instanceSlugLoop (slug : List Char) (separated : Bool) : List Char → List Char
  | [] => slug
  | c :: cs =>
      let next :=
        if isKeyChar c then (slug ++ [c.toLower], false)
        else if !separated && !slug.isEmpty then (slug ++ ['-'], true)
        else (slug, separated)
      if next.1.length ≥ 48 then next.1 else instanceSlugLoop next.1 next.2 cs

def instanceSlug (instanceId : String) : String :=
  orDefault (trimDashes (instanceSlugLoop [] false instanceId.toList))

def instanceKeyLoop (key : List Char) : List Char → List Char
  | [] => key
  | c :: cs =>
      if isKeyChar c then instanceKeyLoop (key ++ [c.toLower]) cs
      else if key.getLast? == some '-' then instanceKeyLoop key cs
      else instanceKeyLoop (key ++ ['-']) cs

/-- The name of the directory of an instance. -/
def instanceKey (instanceId : String) : String :=
  orDefault (trimDashes (instanceKeyLoop [] instanceId.toList))

/-- The identifier that an instance gets when it is reserved. -/
def mintedId (displayName : String) (createdAt : ℕ) : String :=
  instanceSlug displayName ++ "-" ++ toString createdAt

end Keys

section Manifest

inductive ManifestStatus where
  | inProgress
  | complete
  | resumable
  | cancelled
  deriving DecidableEq, Repr

structure CompletedStep where
  key : String
  kind : String
  localId : Option String
  resourceId : String
  created : Bool
  deriving DecidableEq, Repr

structure InstanceManifest where
  instanceId : String
  templateId : String
  status : ManifestStatus
  completed : List CompletedStep
  runId : Option String
  cancelledAt : Option ℕ
  cancelGeneration : ℕ
  displayName : Option String
  deriving DecidableEq, Repr

def postPhaseKey (instanceId kind : String) : String := "post:" ++ kind ++ ":" ++ instanceId

def postPhaseStep (instanceId kind resourceId : String) : CompletedStep where
  key := postPhaseKey instanceId kind
  kind := kind
  localId := none
  resourceId := resourceId
  created := true

namespace InstanceManifest

variable (manifest : InstanceManifest)

def fresh (instanceId templateId : String) : InstanceManifest where
  instanceId := instanceId
  templateId := templateId
  status := .inProgress
  completed := []
  runId := none
  cancelledAt := none
  cancelGeneration := 0
  displayName := none

def withDisplayName (displayName : String) : InstanceManifest :=
  if trim displayName = "" then manifest else { manifest with displayName := some displayName }

def completedKey (key : String) : Option CompletedStep :=
  manifest.completed.find? (·.key == key)

def hasPostPhase (instanceId kind : String) : Bool :=
  (manifest.completedKey (postPhaseKey instanceId kind)).isSome

/-- The step is recorded unless it was before. -/
def record (step : CompletedStep) : InstanceManifest :=
  if (manifest.completedKey step.key).isNone then
    { manifest with completed := manifest.completed ++ [step] }
  else manifest

def push (step : CompletedStep) : InstanceManifest :=
  { manifest with completed := manifest.completed ++ [step] }

variable {manifest} {step : CompletedStep} {key : String}

theorem completedKey_push
    (h : (manifest.completedKey key).isSome = true ∨ step.key = key) :
    ((manifest.push step).completedKey key).isSome = true := by
  simp only [completedKey, push, List.find?_isSome, List.mem_append, List.mem_singleton] at h ⊢
  rcases h with ⟨done, hmem, hdone⟩ | rfl
  · exact ⟨done, .inl hmem, hdone⟩
  · exact ⟨step, .inr rfl, beq_self_eq_true _⟩

theorem completedKey_record
    (h : (manifest.completedKey key).isSome = true ∨ step.key = key) :
    ((manifest.record step).completedKey key).isSome = true := by
  unfold record
  split_ifs with hnone
  · exact completedKey_push h
  · rcases h with h | rfl
    · exact h
    · simpa [Option.isSome_iff_ne_none] using hnone

@[simp]
theorem record_instanceId : (manifest.record step).instanceId = manifest.instanceId := by
  unfold record
  split_ifs <;> rfl

@[simp]
theorem record_templateId : (manifest.record step).templateId = manifest.templateId := by
  unfold record
  split_ifs <;> rfl

@[simp]
theorem record_status : (manifest.record step).status = manifest.status := by
  unfold record
  split_ifs <;> rfl

@[simp]
theorem record_runId : (manifest.record step).runId = manifest.runId := by
  unfold record
  split_ifs <;> rfl

end InstanceManifest

def lifecycleIsComplete (manifest : InstanceManifest) : Bool :=
  manifest.status == .complete && manifest.runId.isSome &&
    manifest.hasPostPhase manifest.instanceId "identities" &&
    manifest.hasPostPhase manifest.instanceId "membership" &&
    manifest.hasPostPhase manifest.instanceId "symphony_bind"

end Manifest

section Plan

inductive PlanStep where
  | createGroup (key localId name : String) (visibility : GroupVisibility)
      (purpose : Option String)
  | createStore (key localId name topic : String) (kind : StoreKind) (policy : StorePolicy)
      (groupLocalId : Option String)
  | createTaskList (key localId name topic : String) (groupLocalId : Option String)
  | writeSymphonyConfig (key : String)
  | writeWorkflowMd (key : String)
  deriving DecidableEq, Repr

namespace PlanStep

def key : PlanStep → String
  | createGroup key _ _ _ _ => key
  | createStore key _ _ _ _ _ _ => key
  | createTaskList key _ _ _ _ => key
  | writeSymphonyConfig key => key
  | writeWorkflowMd key => key

def kindLabel : PlanStep → String
  | createGroup _ _ _ _ _ => "group"
  | createStore _ _ _ _ _ _ _ => "store"
  | createTaskList _ _ _ _ _ => "task_list"
  | writeSymphonyConfig _ => "symphony_config"
  | writeWorkflowMd _ => "workflow_md"

def localTarget : PlanStep → Option String
  | createGroup _ localId _ _ _ => some localId
  | createStore _ localId _ _ _ _ _ => some localId
  | createTaskList _ localId _ _ _ => some localId
  | writeSymphonyConfig _ => none
  | writeWorkflowMd _ => none

end PlanStep

structure InstantiationPlan where
  instanceId : String
  templateId : String
  steps : List PlanStep
  deriving DecidableEq, Repr

-- the digest is that of a library; it is kept as a function from text to hexadecimal text
variable (sha256Hex : String → String)

def stepKey (instanceId kind target : String) : String :=
  sha256Hex (instanceId ++ "|" ++ kind ++ "|" ++ target)

def instanceHashSuffix (instanceId : String) : String :=
  String.ofList ((sha256Hex instanceId).toList.take 8)

def instanceTopicFragment (instanceId : String) : String :=
  String.ofList ((instanceSlug instanceId).toList.take 39) ++ "-" ++
    instanceHashSuffix sha256Hex instanceId

def storeTopic (fragment : String) (kind : StoreKind) (localId : String) : String :=
  "ttt." ++ fragment ++ ".store." ++ kind.asStr ++ "." ++ localId

def taskListTopic (fragment localId : String) : String :=
  "ttt." ++ fragment ++ ".tasklist." ++ localId

def planInstantiation (template : CompanyTemplate) (instanceId : String) : InstantiationPlan :=
  let fragment := instanceTopicFragment sha256Hex instanceId
  let groups := template.groups.map fun g =>
    .createGroup (stepKey sha256Hex instanceId "group" g.id) g.id
      (g.name ++ " · " ++ instanceHashSuffix sha256Hex instanceId) g.visibility g.purpose
  let stores := template.stores.map fun s =>
    .createStore (stepKey sha256Hex instanceId "store" s.id) s.id s.name
      (storeTopic fragment s.kind s.id) s.kind s.policy s.group
  let taskLists := template.taskLists.map fun t =>
    .createTaskList (stepKey sha256Hex instanceId "task_list" t.id) t.id t.name
      (taskListTopic fragment t.id) t.group
  { instanceId := instanceId
    templateId := template.id
    steps := groups ++ stores ++ taskLists ++
      [.writeSymphonyConfig (stepKey sha256Hex instanceId "symphony_config" "config"),
        .writeWorkflowMd (stepKey sha256Hex instanceId "workflow_md" "workflow")] }

end Plan

section Keys

/-- Characters of a key in which no two separators meet. -/
structure Tidy (cs : List Char) : Prop where
  chars : ∀ c ∈ cs, c = '-' ∨ isKeyChar c = true ∧ c.toLower = c
  apart : cs.IsChain fun a b => ¬(a = '-' ∧ b = '-')

theorem isKeyChar_dash : isKeyChar '-' = false := by decide

theorem isKeyChar_toLower {c : Char} (h : isKeyChar c = true) : isKeyChar c.toLower = true := by
  by_cases hup : 'A'.val ≤ c.val ∧ c.val ≤ 'Z'.val
  · have hval : c.toLower.val = c.val + 32 := by
      simp only [Char.toLower]
      rw [dif_pos hup]
      rfl
    have hlower : c.toLower.isLower = true := by
      simp only [Char.isLower, Bool.and_eq_true, decide_eq_true_eq, hval]
      grind
    simp [isKeyChar, Char.isAlphanum, Char.isAlpha, hlower]
  · have hsame : c.toLower = c := by
      simp only [Char.toLower]
      rw [dif_neg hup]
    rwa [hsame]

theorem ne_dash_of_isKeyChar {c : Char} (h : isKeyChar c = true) : c ≠ '-' := by
  rintro rfl
  simp [isKeyChar_dash] at h

theorem Tidy.append {cs ds : List Char} (hc : Tidy cs) (hd : Tidy ds)
    (h : cs.getLast? ≠ some '-' ∨ ds.head? ≠ some '-') : Tidy (cs ++ ds) where
  chars := by
    intro c hmem
    rcases List.mem_append.mp hmem with hmem | hmem
    · exact hc.chars c hmem
    · exact hd.chars c hmem
  apart := by
    rw [List.isChain_append]
    refine ⟨hc.apart, hd.apart, ?_⟩
    rintro a ha b hb ⟨rfl, rfl⟩
    rcases h with h | h
    · exact h ha
    · exact h hb

theorem Tidy.left {cs ds : List Char} (h : Tidy (cs ++ ds)) : Tidy cs where
  chars c hmem := h.chars c (List.mem_append_left ds hmem)
  apart := h.apart.left_of_append

theorem Tidy.right {cs ds : List Char} (h : Tidy (cs ++ ds)) : Tidy ds where
  chars c hmem := h.chars c (List.mem_append_right cs hmem)
  apart := h.apart.right_of_append

theorem Tidy.dropWhile {cs : List Char} (h : Tidy cs) (p : Char → Bool) :
    Tidy (cs.dropWhile p) := by
  rw [← List.takeWhile_append_dropWhile (p := p) (l := cs)] at h
  exact h.right

theorem Tidy.reverse {cs : List Char} (h : Tidy cs) : Tidy cs.reverse where
  chars c hmem := h.chars c (List.mem_reverse.mp hmem)
  apart := by
    rw [List.isChain_reverse]
    exact h.apart.imp fun a b hab hba => hab ⟨hba.2, hba.1⟩

theorem Tidy.trimDashes {cs : List Char} (h : Tidy cs) : Tidy (trimDashes cs) :=
  ((h.dropWhile _).reverse.dropWhile _).reverse

theorem tidy_keyChar {c : Char} (h : isKeyChar c = true) (hlower : c.toLower = c) : Tidy [c] where
  chars := by
    intro d hd
    obtain rfl := List.mem_singleton.mp hd
    exact .inr ⟨h, hlower⟩
  apart := by simp

theorem tidy_dash : Tidy ['-'] where
  chars := by simp
  apart := by simp

/-- The text neither starts nor ends with a separator. -/
def Trimmed (cs : List Char) : Prop := cs.head? ≠ some '-' ∧ cs.getLast? ≠ some '-'

theorem head?_dropWhile_dash (cs : List Char) : (cs.dropWhile (· == '-')).head? ≠ some '-' := by
  intro h
  have hnot := List.head?_dropWhile_not (· == '-') cs
  rw [h] at hnot
  simp at hnot

theorem trimmed_trimDashes (cs : List Char) : Trimmed (trimDashes cs) := by
  constructor
  · -- what is cut at the end leaves the first character in place
    intro h
    have hne : trimDashes cs ≠ [] := by
      intro hnil
      rw [hnil] at h
      cases h
    have hcut : trimDashes cs <+: cs.dropWhile (· == '-') := by
      rw [← List.reverse_suffix, trimDashes, List.reverse_reverse]
      exact List.dropWhile_suffix _
    obtain ⟨rest, hrest⟩ := hcut
    apply head?_dropWhile_dash cs
    rw [← hrest, List.head?_append_of_ne_nil _ hne]
    exact h
  · rw [trimDashes, List.getLast?_reverse]
    exact head?_dropWhile_dash _

theorem trimDashes_of_trimmed {cs : List Char} (h : Trimmed cs) : trimDashes cs = cs := by
  have hstart : ∀ ds : List Char, ds.head? ≠ some '-' → ds.dropWhile (· == '-') = ds := by
    intro ds hd
    cases ds with
    | nil => rfl
    | cons d ds =>
      have hne : d ≠ '-' := fun he => hd (by rw [he]; rfl)
      simp [hne]
  have hend : cs.reverse.head? ≠ some '-' := by
    rw [List.head?_reverse]
    exact h.2
  rw [trimDashes, hstart cs h.1, hstart cs.reverse hend, List.reverse_reverse]

theorem tidy_instanceSlugLoop (cs : List Char) : ∀ (slug : List Char) (separated : Bool),
    Tidy slug → (slug.getLast? = some '-' → separated = true) →
    Tidy (instanceSlugLoop slug separated cs) := by
  induction cs with
  | nil => exact fun slug _ h _ => h
  | cons c cs ih =>
    intro slug separated h hsep
    unfold instanceSlugLoop
    by_cases hkey : isKeyChar c = true
    · have hlower := isKeyChar_toLower hkey
      have hone : Tidy [c.toLower] := tidy_keyChar hlower (toLower_toLower c)
      have hnext : Tidy (slug ++ [c.toLower]) :=
        h.append hone (.inr (by simpa using ne_dash_of_isKeyChar hlower))
      simp only [hkey, if_true]
      split_ifs
      · exact hnext
      · apply ih _ _ hnext
        intro hlast
        simp [ne_dash_of_isKeyChar hlower] at hlast
    · by_cases hpush : (!separated && !slug.isEmpty) = true
      · have hnext : Tidy (slug ++ ['-']) := by
          apply h.append tidy_dash (.inl fun hlast => ?_)
          simp [hsep hlast] at hpush
        simp only [hkey, Bool.false_eq_true, hpush, if_true, if_false]
        split_ifs
        · exact hnext
        · exact ih _ _ hnext fun _ => rfl
      · simp only [hkey, Bool.false_eq_true, hpush, if_false]
        split_ifs
        · exact h
        · exact ih _ _ h hsep

theorem instanceKeyLoop_of_tidy (cs : List Char) : ∀ key : List Char, Tidy (key ++ cs) →
    instanceKeyLoop key cs = key ++ cs := by
  induction cs with
  | nil => simp [instanceKeyLoop]
  | cons c cs ih =>
    intro key h
    have hsplit : key ++ c :: cs = key ++ [c] ++ cs := by simp
    have hc := h.chars c (by simp)
    rw [hsplit] at h ⊢
    unfold instanceKeyLoop
    by_cases hkey : isKeyChar c = true
    · have hlower : c.toLower = c := by
        rcases hc with rfl | hc
        · simp [isKeyChar_dash] at hkey
        · exact hc.2
      rw [if_pos hkey, hlower]
      exact ih _ h
    · have hdash : c = '-' := by
        rcases hc with hc | hc
        · exact hc
        · exact absurd hc.1 hkey
      subst hdash
      have hlast : key.getLast? ≠ some '-' := by
        intro hlast
        have hapart := h.left.apart
        rw [List.isChain_append] at hapart
        exact hapart.2.2 '-' hlast '-' (by simp) ⟨rfl, rfl⟩
      simp only [hkey, Bool.false_eq_true, if_false, beq_iff_eq, hlast]
      exact ih _ h

theorem toList_orDefault {cs : List Char} (h : Tidy cs) (htrim : Trimmed cs) :
    Tidy (orDefault cs).toList ∧ Trimmed (orDefault cs).toList ∧ (orDefault cs).toList ≠ [] := by
  unfold orDefault
  split_ifs with hempty
  · have hchars : ∀ c ∈ "default".toList, c = '-' ∨ isKeyChar c = true ∧ c.toLower = c := by
      rw [← List.forall_iff_forall_mem]
      decide
    exact ⟨⟨hchars, by decide⟩, ⟨by decide, by decide⟩, by decide⟩
  · rw [String.toList_ofList]
    exact ⟨h, htrim, by simpa using hempty⟩

theorem toList_instanceSlug (instanceId : String) :
    Tidy (instanceSlug instanceId).toList ∧ Trimmed (instanceSlug instanceId).toList ∧
      (instanceSlug instanceId).toList ≠ [] := by
  have hloop := tidy_instanceSlugLoop instanceId.toList [] false ⟨by simp, by simp⟩ (by simp)
  exact toList_orDefault hloop.trimDashes (trimmed_trimDashes _)

theorem isKeyChar_of_mem_digits {n : ℕ} {c : Char} (h : c ∈ Nat.toDigits 10 n) :
    isKeyChar c = true ∧ c.toLower = c := by
  have hdigit := Nat.isDigit_of_mem_toDigits (by decide) (by decide) h
  constructor
  · simp [isKeyChar, Char.isAlphanum, hdigit]
  · simp only [Char.isDigit, Bool.and_eq_true, decide_eq_true_eq] at hdigit
    simp only [Char.toLower]
    rw [dif_neg]
    grind

theorem tidy_digits (n : ℕ) : Tidy (Nat.toDigits 10 n) where
  chars _ hmem := .inr (isKeyChar_of_mem_digits hmem)
  apart := by
    rw [List.isChain_iff_getElem]
    rintro i hi ⟨hdash, -⟩
    have hmem : '-' ∈ Nat.toDigits 10 n := hdash ▸ List.getElem_mem _
    simpa [isKeyChar_dash] using (isKeyChar_of_mem_digits hmem).1

theorem instanceKey_of_tidy {instanceId : String} (h : Tidy instanceId.toList)
    (htrim : Trimmed instanceId.toList) (hne : instanceId.toList ≠ []) :
    instanceKey instanceId = instanceId := by
  have hloop := instanceKeyLoop_of_tidy instanceId.toList [] h
  rw [instanceKey, hloop, List.nil_append, trimDashes_of_trimmed htrim, orDefault,
    if_neg (by simpa using hne), String.ofList_toList]

theorem toList_mintedId (displayName : String) (createdAt : ℕ) :
    (mintedId displayName createdAt).toList =
      (instanceSlug displayName).toList ++ '-' :: Nat.toDigits 10 createdAt := by
  simp [mintedId, Nat.repr]

/-- An identifier that was minted names its own directory. -/
theorem instanceKey_mintedId (displayName : String) (createdAt : ℕ) :
    instanceKey (mintedId displayName createdAt) = mintedId displayName createdAt := by
  obtain ⟨hslug, htrim, hne⟩ := toList_instanceSlug displayName
  have hdigits : Nat.toDigits 10 createdAt ≠ [] := Nat.toDigits_ne_nil
  have hnodash : '-' ∉ Nat.toDigits 10 createdAt := by
    intro hmem
    simpa [isKeyChar_dash] using (isKeyChar_of_mem_digits hmem).1
  apply instanceKey_of_tidy
  · rw [toList_mintedId]
    have hdash : Tidy ('-' :: Nat.toDigits 10 createdAt) :=
      Tidy.append tidy_dash (tidy_digits createdAt)
        (.inr fun hhead => hnodash (List.mem_of_mem_head? hhead))
    exact hslug.append hdash (.inl htrim.2)
  · rw [toList_mintedId]
    constructor
    · rw [List.head?_append_of_ne_nil _ hne]
      exact htrim.1
    · intro hlast
      rw [List.getLast?_append_of_ne_nil _ (List.cons_ne_nil _ _),
        List.getLast?_cons_of_ne_nil hdigits] at hlast
      exact hnodash (List.mem_of_getLast? hlast)
  · rw [toList_mintedId]
    simp

end Keys

end Buzz.Company
