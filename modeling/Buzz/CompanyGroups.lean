import Buzz.CompanyReplay
import Buzz.ExceptRules

/-!
# The groups of a template at the daemon

The plan keeps the groups of a template apart by their identifiers, the
provisioner looks a group up by its name and adopts the first one it finds. What
an executor records for a group is therefore the first group of that name at the
daemon, and it stays that one.
-/

namespace Buzz.Company

open EffectProgram ReplacedFile

section Validation

theorem nodup_of_checkEach {α : Type} {id : α → String} {duplicate : String → ValidationIssue}
    {check : α → Option ValidationIssue} (xs : List α) :
    ∀ seen, checkEach id duplicate check seen xs = .ok () →
      (xs.map id).Nodup ∧ ∀ x ∈ xs, id x ∉ seen := by
  induction xs with
  | nil => exact fun _ _ => ⟨List.nodup_nil, fun _ h => nomatch h⟩
  | cons x rest ih =>
      intro seen h
      unfold checkEach at h
      split at h
      · cases h
      · split_ifs at h with hseen
        obtain ⟨hnodup, hfresh⟩ := ih _ h
        refine ⟨List.nodup_cons.mpr ⟨fun hmem => ?_, hnodup⟩, fun y hy => ?_⟩
        · obtain ⟨y, hy, hid⟩ := List.mem_map.mp hmem
          exact hfresh y hy (hid ▸ List.mem_cons_self)
        · rcases List.mem_cons.mp hy with rfl | hy
          · exact hseen
          · exact fun hold => hfresh y hy (List.mem_cons_of_mem _ hold)

theorem groupIds_nodup {template : CompanyTemplate} (h : validate template = .ok ()) :
    (template.groups.map (·.id)).Nodup := by
  obtain ⟨_, -, h⟩ := except_bind_ok h
  obtain ⟨_, hgroups, -⟩ := except_bind_ok h
  exact (nodup_of_checkEach template.groups [] hgroups).1

end Validation

section Daemon

structure DaemonGroup where
  groupId : String
  name : String
  deriving DecidableEq, Repr

/-- The answer to `GET /groups`: the groups in the order in which they were made. -/
def listing (groups : List DaemonGroup) : Json :=
  .object [("groups", .array (groups.map fun group =>
    .object [("group_id", .string group.groupId), ("name", .string group.name)]))]

/-- The first entry of the listing that has the name. -/
def findListed (listed : Json) (name : String) : Option Json :=
  (listed.getArray "groups").bind fun items => items.find? fun group =>
    group.getStr "name" == some name

def adoptListed (listed : Json) (name : String) : Option (Except String EnsureResult) :=
  (findListed listed name).map fun existing =>
    match existing.getStr "group_id" with
    | some id => .ok ⟨id, false⟩
    | none => .error "x0xd response decode error: GET /groups entry missing group_id"

/-- The listing may fail, and so may the creation, with or without a group left behind. -/
inductive EnsuresGroup (groups : List DaemonGroup) (request : EnsureGroupRequest) :
    Except String EnsureResult → List DaemonGroup → Prop where
  | unlisted (message : String) : EnsuresGroup groups request (.error message) groups
  | adopted (out : Except String EnsureResult) :
      adoptListed (listing groups) request.name = some out → EnsuresGroup groups request out groups
  | refused (message : String) : adoptListed (listing groups) request.name = none →
      EnsuresGroup groups request (.error message) groups
  | lost (message id : String) : adoptListed (listing groups) request.name = none →
      (∀ group ∈ groups, group.groupId ≠ id) →
      EnsuresGroup groups request (.error message) (groups ++ [⟨id, request.name⟩])
  | created (id : String) : adoptListed (listing groups) request.name = none →
      (∀ group ∈ groups, group.groupId ≠ id) →
      EnsuresGroup groups request (.ok ⟨id, true⟩) (groups ++ [⟨id, request.name⟩])

def daemonReplies (groups : List DaemonGroup) : (request : CompanyRequest) → request.Reply →
    List DaemonGroup → Prop
  | .ensureGroup request, answer, after => EnsuresGroup groups request answer after
  | _, _, after => after = groups

def groupNamed (groups : List DaemonGroup) (name : String) : Option DaemonGroup :=
  groups.find? fun group => group.name == name

theorem adoptListed_listing (groups : List DaemonGroup) (name : String) :
    adoptListed (listing groups) name =
      (groupNamed groups name).map fun group => .ok ⟨group.groupId, false⟩ := by
  have hfind : ∀ xs : List DaemonGroup,
      ((xs.map fun group => Json.object [("group_id", .string group.groupId),
        ("name", .string group.name)]).find? fun group => group.getStr "name" == some name) =
      (groupNamed xs name).map fun group =>
        .object [("group_id", .string group.groupId), ("name", .string group.name)] := by
    intro xs
    simp only [groupNamed, List.find?_map]
    congr 2
  have hlisted : findListed (listing groups) name = _ := hfind groups
  rw [adoptListed, hlisted, Option.map_map]
  rfl

theorem groupNamed_append {groups after : List DaemonGroup} {name : String} {group : DaemonGroup}
    (h : groupNamed groups name = some group) : groupNamed (groups ++ after) name = some group := by
  rw [groupNamed, List.find?_append]
  exact (congrArg (Option.or · _) h).trans rfl

end Daemon

section Plan

variable (sha256Hex : String → String) (template : CompanyTemplate) (instanceId : String)

def stepText (kind target : String) : String := instanceId ++ "|" ++ kind ++ "|" ++ target

/-- The texts whose digests are the keys of the plan. -/
def stepTexts : List String :=
  template.groups.map (fun g => stepText instanceId "group" g.id) ++
    template.stores.map (fun s => stepText instanceId "store" s.id) ++
    template.taskLists.map (fun t => stepText instanceId "task_list" t.id) ++
    [stepText instanceId "symphony_config" "config", stepText instanceId "workflow_md" "workflow"]

/-- The digest does not collide on the keys of the plan. -/
def DigestsApart : Prop :=
  ∀ a ∈ stepTexts template instanceId, ∀ b ∈ stepTexts template instanceId,
    sha256Hex a = sha256Hex b → a = b

/-- The name that a group gets at the daemon. -/
def daemonName (group : GroupSpec) : String :=
  group.name ++ " · " ++ instanceHashSuffix sha256Hex instanceId

def groupStep (group : GroupSpec) : PlanStep :=
  .createGroup (stepKey sha256Hex instanceId "group" group.id) group.id
    (daemonName sha256Hex instanceId group) group.visibility group.purpose

variable {sha256Hex template instanceId}

theorem stepText_group_inj {a b : String}
    (h : stepText instanceId "group" a = stepText instanceId "group" b) : a = b := by
  have hlist := congrArg String.toList h
  simp only [stepText, String.toList_append, List.append_assoc, List.append_cancel_left_eq] at hlist
  exact String.toList_inj.mp hlist

theorem stepText_group_ne {kind a b : String} (hkind : kind.toList.head? ≠ some 'g') :
    stepText instanceId kind b ≠ stepText instanceId "group" a := by
  intro h
  have hlist := congrArg String.toList h
  simp only [stepText, String.toList_append, List.append_assoc, List.append_cancel_left_eq] at hlist
  have hgroup : "group".toList = ['g', 'r', 'o', 'u', 'p'] := by decide
  have hbar : "|".toList = ['|'] := by decide
  rw [hgroup, hbar] at hlist
  cases hcases : kind.toList with
  | nil =>
      rw [hcases] at hlist
      simp at hlist
  | cons c cs =>
      rw [hcases] at hlist hkind
      exact hkind (congrArg some (List.cons.inj hlist).1)

theorem group_mem_stepTexts {group : GroupSpec} (h : group ∈ template.groups) :
    stepText instanceId "group" group.id ∈ stepTexts template instanceId := by
  simp only [stepTexts, List.mem_append, List.mem_map]
  exact .inl (.inl (.inl ⟨group, h, rfl⟩))

/-- A step of the plan is that of a group, or its key is not that of any group. -/
theorem plan_step_cases (happart : DigestsApart sha256Hex template instanceId) {step : PlanStep}
    (h : step ∈ (planInstantiation sha256Hex template instanceId).steps) :
    (∃ group ∈ template.groups, step = groupStep sha256Hex instanceId group) ∨
      (step.kindLabel ≠ "group" ∧ ∀ group ∈ template.groups,
        step.key ≠ stepKey sha256Hex instanceId "group" group.id) := by
  have hother : ∀ kind target : String, kind.toList.head? ≠ some 'g' →
      stepText instanceId kind target ∈ stepTexts template instanceId →
      ∀ group ∈ template.groups, sha256Hex (stepText instanceId kind target) ≠
        stepKey sha256Hex instanceId "group" group.id := by
    intro kind target hkind hmem group hgroup heq
    exact stepText_group_ne hkind (happart _ hmem _ (group_mem_stepTexts hgroup) heq)
  simp only [planInstantiation, List.mem_append, List.mem_map, List.mem_cons, List.not_mem_nil,
    or_false] at h
  rcases h with ((⟨group, hgroup, rfl⟩ | ⟨store, hstore, rfl⟩) | ⟨taskList, htaskList, rfl⟩)
    | rfl | rfl
  · exact .inl ⟨group, hgroup, rfl⟩
  · refine .inr ⟨by simp [PlanStep.kindLabel], hother "store" store.id (by decide) ?_⟩
    simp only [stepTexts, List.mem_append, List.mem_map]
    exact .inl (.inl (.inr ⟨store, hstore, rfl⟩))
  · refine .inr ⟨by simp [PlanStep.kindLabel], hother "task_list" taskList.id (by decide) ?_⟩
    simp only [stepTexts, List.mem_append, List.mem_map]
    exact .inl (.inr ⟨taskList, htaskList, rfl⟩)
  · refine .inr ⟨by simp [PlanStep.kindLabel], hother "symphony_config" "config" (by decide) ?_⟩
    simp [stepTexts]
  · refine .inr ⟨by simp [PlanStep.kindLabel], hother "workflow_md" "workflow" (by decide) ?_⟩
    simp [stepTexts]

theorem groupStep_mem {group : GroupSpec} (h : group ∈ template.groups) :
    groupStep sha256Hex instanceId group ∈ (planInstantiation sha256Hex template
      instanceId).steps := by
  simp only [planInstantiation, List.mem_append, List.mem_map]
  exact .inl (.inl (.inl ⟨group, h, rfl⟩))

theorem eq_of_groupKey (hnodup : (template.groups.map (·.id)).Nodup)
    (happart : DigestsApart sha256Hex template instanceId) {g g' : GroupSpec}
    (hg : g ∈ template.groups) (hg' : g' ∈ template.groups)
    (h : stepKey sha256Hex instanceId "group" g.id = stepKey sha256Hex instanceId "group" g'.id) :
    g = g' := by
  have htext := happart _ (group_mem_stepTexts hg) _ (group_mem_stepTexts hg') h
  exact List.inj_on_of_nodup_map hnodup hg hg' (stepText_group_inj htext)

end Plan

section Runs

variable (sha256Hex : String → String) (template : CompanyTemplate) (instanceId : String)

def groupSetting (key : String) : ReplaySetting (List DaemonGroup) where
  key := key
  plan := planInstantiation sha256Hex template instanceId
  replies := daemonReplies
  orderly := false

/-- A record of a group names the first group of its name at the daemon. -/
def NamesFirst (groups : List DaemonGroup) (step : CompletedStep) : Prop :=
  ∀ group ∈ template.groups, step.key = stepKey sha256Hex instanceId "group" group.id →
    (groupNamed groups (daemonName sha256Hex instanceId group)).map (·.groupId) =
      some step.resourceId

variable {sha256Hex template instanceId} {key : String}

/-- The daemon only gets more groups, at the end. -/
theorem daemonReplies_grows {groups after : List DaemonGroup} {request : CompanyRequest}
    {answer : request.Reply} (h : daemonReplies groups request answer after) :
    after = groups ∨ ∃ id name, (∀ group ∈ groups, group.groupId ≠ id) ∧
      after = groups ++ [⟨id, name⟩] := by
  cases request with
  | ensureGroup request =>
      cases h with
      | unlisted message | adopted out hout | refused message hnone => exact .inl rfl
      | lost message id hnone hfresh | created id hnone hfresh => exact .inr ⟨id, _, hfresh, rfl⟩
  | _ => exact .inl h

theorem namesFirst_kept {groups after : List DaemonGroup} {request : CompanyRequest}
    {answer : request.Reply} {step : CompletedStep} (h : daemonReplies groups request answer after)
    (hstep : NamesFirst sha256Hex template instanceId groups step) :
    NamesFirst sha256Hex template instanceId after step := by
  intro group hgroup hkey
  obtain ⟨found, hfound, hid⟩ := Option.map_eq_some_iff.mp (hstep group hgroup hkey)
  rcases daemonReplies_grows h with rfl | ⟨id, name, -, rfl⟩
  · rw [hfound, ← hid]
    rfl
  · rw [groupNamed_append hfound, ← hid]
    rfl

/-- A group that was ensured is the first one of its name. -/
theorem groupNamed_of_ensured {groups after : List DaemonGroup} {request : EnsureGroupRequest}
    {res : EnsureResult} (h : EnsuresGroup groups request (.ok res) after) :
    (groupNamed after request.name).map (·.groupId) = some res.id := by
  cases h with
  | adopted _ hout =>
      rw [adoptListed_listing] at hout
      obtain ⟨found, hfound, hres⟩ := Option.map_eq_some_iff.mp hout
      rw [hfound, ← Except.ok.inj hres]
      rfl
  | created id hnone hfresh =>
      rw [adoptListed_listing, Option.map_eq_none_iff] at hnone
      rw [groupNamed, List.find?_append, show groups.find? _ = none from hnone]
      simp

theorem namesFirst_fitting (hnodup : (template.groups.map (·.id)).Nodup)
    (happart : DigestsApart sha256Hex template instanceId) :
    Fitting (groupSetting sha256Hex template instanceId key)
      (NamesFirst sha256Hex template instanceId) where
  kept _ _ _ _ _ hreplies hstep := namesFirst_kept hreplies hstep
  made d request answer d' step res hreplies hstep hrequest hres := by
    intro group hgroup hkey
    rw [stepRecord_key] at hkey
    rcases plan_step_cases happart hstep with ⟨other, hother, rfl⟩ | ⟨-, hne⟩
    · obtain rfl := eq_of_groupKey hnodup happart hother hgroup hkey
      obtain rfl := Option.some_inj.mp hrequest
      rcases answer with error | found
      · cases hres
      · obtain rfl := Option.some_inj.mp hres
        exact groupNamed_of_ensured hreplies
    · exact absurd hkey (hne group hgroup)
  written d step hstep hrequest := by
    intro group hgroup hkey
    rw [stepRecord_key] at hkey
    rcases plan_step_cases happart hstep with ⟨other, hother, rfl⟩ | ⟨-, hne⟩
    · cases hrequest
    · exact absurd hkey (hne group hgroup)

/-- What the provisioner cannot break holds of the daemon throughout. -/
theorem daemon_of_reach {D : Type} {s : ReplaySetting D} {known : D → Prop}
    (hgrowing : Growing s known) {start pool : ReplayPool D}
    (hreach : PoolReach (replaySystem s) start pool) (h : known start.world.daemon) :
    known pool.world.daemon := by
  induction hreach with
  | refl => exact h
  | step _ hstep ih =>
      cases hstep with
      | commit hthread hcommit =>
          obtain ⟨-, -, hserves⟩ := hcommit
          rename_i i request _ answer u
          cases hprovisions : request.provisions with
          | true => exact hgrowing _ _ _ _ (hserves.call hprovisions).1 ih
          | false =>
              rw [(hserves.other hprovisions).1]
              exact ih
      | launch hthread hlaunch => exact ih
      | stop hthread hstop =>
          subst hstop
          exact ih
      | move hmove => exact hmove.elim

/-- No identifier is given to two groups. -/
def IdsOnce (groups : List DaemonGroup) : Prop := (groups.map (·.groupId)).Nodup

theorem growing_idsOnce : Growing (groupSetting sha256Hex template instanceId key) IdsOnce := by
  intro groups request answer after hreplies h
  rcases daemonReplies_grows hreplies with rfl | ⟨id, name, hfresh, rfl⟩
  · exact h
  · rw [IdsOnce, List.map_append, List.map_singleton]
    refine List.Nodup.append h (List.nodup_singleton _) (List.disjoint_singleton.mpr fun hmem => ?_)
    obtain ⟨group, hgroup, hid⟩ := List.mem_map.mp hmem
    exact hfresh group hgroup hid

theorem mem_groupIdMapFrom {steps : List StepOutcome} {localId realized : String} :
    (localId, realized) ∈ groupIdMapFrom steps ↔ ∃ step ∈ steps, step.kind = "group" ∧
      step.localId = some localId ∧ step.resourceId = some realized := by
  simp only [groupIdMapFrom, List.mem_filterMap]
  constructor
  · rintro ⟨step, hstep, h⟩
    split_ifs at h with hkind
    split at h
    · rename_i hlocal hrealized
      obtain ⟨rfl, rfl⟩ := Prod.mk.inj (Option.some_inj.mp h)
      exact ⟨step, hstep, hkind, hlocal, hrealized⟩
    · cases h
  · rintro ⟨step, hstep, hkind, hlocal, hrealized⟩
    exact ⟨step, hstep, by rw [if_pos hkind, hlocal, hrealized]⟩

theorem lookupGroup_of_mem {groupIds : List (String × String)} {localId realized : String}
    (h : (localId, realized) ∈ groupIds) :
    ∃ other, lookupGroup groupIds localId = some other ∧ (localId, other) ∈ groupIds := by
  have hsome : (groupIds.reverse.find? (·.1 == localId)).isSome = true := by
    rw [List.find?_isSome]
    exact ⟨_, List.mem_reverse.mpr h, by simp⟩
  obtain ⟨found, hfound⟩ := Option.isSome_iff_exists.mp hsome
  have hlocal : found.1 = localId := by simpa using List.find?_some hfound
  refine ⟨found.2, by rw [lookupGroup, hfound]; rfl, ?_⟩
  rw [← hlocal]
  exact List.mem_reverse.mp (List.mem_of_find?_eq_some hfound)

/-- A complete outcome maps a group to the first one of its name at the daemon. -/
theorem realized_group (hnodup : (template.groups.map (·.id)).Nodup)
    (happart : DigestsApart sha256Hex template instanceId) {steps : List StepOutcome}
    {groups : List DaemonGroup}
    (htold : GroupsTold (groupSetting sha256Hex template instanceId key)
      (NamesFirst sha256Hex template instanceId) steps
      (planInstantiation sha256Hex template instanceId).steps groups)
    {group : GroupSpec} (hgroup : group ∈ template.groups) :
    ∃ found, groupNamed groups (daemonName sha256Hex instanceId group) = some found ∧
      lookupGroup (groupIdMapFrom steps) group.id = some found.groupId := by
  obtain ⟨outcome, houtcome, hkind, hlocal, hsome⟩ := htold.total _ (groupStep_mem hgroup) rfl
  obtain ⟨realized, hrealized⟩ := Option.isSome_iff_exists.mp hsome
  obtain ⟨other, hlookup, hmem⟩ := lookupGroup_of_mem
    (mem_groupIdMapFrom.mpr ⟨outcome, houtcome, hkind, hlocal, hrealized⟩)
  -- whichever outcome is looked up, it belongs to a step of this group
  obtain ⟨used, hused, hkind', hlocal', hother⟩ := mem_groupIdMapFrom.mp hmem
  obtain ⟨step, hstep, hlabel, htarget, done, hkey, hid, hfits⟩ :=
    htold.sound used hused hkind' other hother
  rcases plan_step_cases happart hstep with ⟨owner, howner, rfl⟩ | ⟨hne, -⟩
  · have hsame : owner = group := by
      have hids : group.id = owner.id := Option.some_inj.mp (hlocal'.symm.trans htarget)
      exact List.inj_on_of_nodup_map hnodup howner hgroup hids.symm
    obtain ⟨found, hfound, hfoundId⟩ := Option.map_eq_some_iff.mp
      (hfits group hgroup (by rw [hkey, hsame]; rfl))
    exact ⟨found, hfound, by rw [hlookup, hfoundId, hid]⟩
  · exact absurd hlabel hne

/-- Two groups of a template become two groups of the daemon exactly if no two of its groups have
one name. -/
theorem groups_distinct_iff (hvalid : validate template = .ok ())
    (happart : DigestsApart sha256Hex template instanceId)
    {start pool : ReplayPool (List DaemonGroup)}
    (hready : (groupSetting sha256Hex template instanceId key).Ready start)
    (hfresh : start.world.company.manifest key = none)
    (honce : (start.world.daemon.map (·.groupId)).Nodup)
    (hreach : PoolReach (replaySystem (groupSetting sha256Hex template instanceId key)) start pool)
    {out : InstantiateReturn} {outcome : InstantiateOutcome}
    (hout : pool.threads .executor = some (.pure out)) (hok : out.1 = .ok outcome)
    (hcomplete : outcome.status = .complete) :
    (∀ g ∈ template.groups, ∀ g' ∈ template.groups, g.id ≠ g'.id →
      lookupGroup (groupIdMapFrom outcome.steps) g.id ≠
        lookupGroup (groupIdMapFrom outcome.steps) g'.id) ↔
      (template.groups.map (·.name)).Nodup := by
  have hnodup := groupIds_nodup hvalid
  have hfitting : Fitting (groupSetting sha256Hex template instanceId key)
      (NamesFirst sha256Hex template instanceId) := namesFirst_fitting hnodup happart
  have hholds := replay_holds hfitting hready
    (fun manifest hmanifest => nomatch hfresh.symm.trans hmanifest) hreach
  have hpost : ReplayPost (groupSetting sha256Hex template instanceId key)
      (NamesFirst sha256Hex template instanceId) .executor out pool.world := hholds.post hout
  obtain ⟨told, htoldOk, -, hgroups⟩ := hpost
  obtain rfl := Except.ok.inj (hok.symm.trans htoldOk)
  have hids : IdsOnce pool.world.daemon := daemon_of_reach growing_idsOnce hreach honce
  have hrealized := fun {g : GroupSpec} (hg : g ∈ template.groups) =>
    realized_group hnodup happart (hgroups hcomplete) hg
  constructor
  · intro hdistinct
    refine List.Nodup.map_on (fun g hg g' hg' hname => ?_) hnodup.of_map
    by_contra hne
    have hid : g.id ≠ g'.id := fun hid => hne (List.inj_on_of_nodup_map hnodup hg hg' hid)
    obtain ⟨found, hfound, hlookup⟩ := hrealized hg
    obtain ⟨found', hfound', hlookup'⟩ := hrealized hg'
    have hsame : found = found' := by
      rw [daemonName, ← hname] at hfound'
      exact Option.some_inj.mp (hfound.symm.trans hfound')
    exact hdistinct g hg g' hg' hid (by rw [hlookup, hlookup', hsame])
  · intro hnames g hg g' hg' hid hlookups
    obtain ⟨found, hfound, hlookup⟩ := hrealized hg
    obtain ⟨found', hfound', hlookup'⟩ := hrealized hg'
    have hfoundIds : found.groupId = found'.groupId :=
      Option.some_inj.mp (hlookup.symm.trans (hlookups.trans hlookup'))
    have hsame : found = found' := List.inj_on_of_nodup_map hids
      (List.mem_of_find?_eq_some hfound) (List.mem_of_find?_eq_some hfound') hfoundIds
    have hname : daemonName sha256Hex instanceId g = daemonName sha256Hex instanceId g' := by
      have h := List.find?_some hfound
      have h' := List.find?_some hfound'
      rw [beq_iff_eq] at h h'
      rw [← h, ← h', hsame]
    have hnameEq : g.name = g'.name := by
      simp only [daemonName, String.append_left_inj] at hname
      exact hname
    exact hid (congrArg GroupSpec.id (List.inj_on_of_nodup_map hnames hg hg' hnameEq))

end Runs

section Samples

/-- A daemon that never fails and counts its groups. -/
def serveGroups (groups : List DaemonGroup) :
    (request : CompanyRequest) → Option (request.Reply × List DaemonGroup)
  | .ensureGroup request =>
      match groupNamed groups request.name with
      | some found => some (.ok ⟨found.groupId, false⟩, groups)
      | none =>
          let id := "group-" ++ toString groups.length
          if ∀ group ∈ groups, group.groupId ≠ id then
            some (.ok ⟨id, true⟩, groups ++ [⟨id, request.name⟩])
          else none
  | _ => none

theorem serveGroups_sound (groups : List DaemonGroup) (request : CompanyRequest)
    (answer : request.Reply) (after : List DaemonGroup)
    (h : serveGroups groups request = some (answer, after)) :
    daemonReplies groups request answer after := by
  cases request with
  | ensureGroup request =>
      simp only [serveGroups] at h
      split at h
      · rename_i found hfound
        cases h
        exact .adopted _ (by rw [adoptListed_listing, hfound]; rfl)
      · rename_i hnone
        split_ifs at h with hfresh
        cases h
        exact .created _ (by rw [adoptListed_listing, hnone]; rfl) hfresh
  | _ => cases h

def sampleGroups (names : List (String × String)) : ReplaySetting (List DaemonGroup) :=
  groupSetting sampleDigest (sampleTemplate names) "acme-1" "acme-1"

def sampleGroupRun (names : List (String × String)) :
    Script (replaySystem (sampleGroups names)) Unit Unit :=
  replayScript (sampleGroups names) serveGroups serveGroups_sound "acme-1" instanceKey_sample

/-- The mapping of the groups in an outcome that is complete. -/
def completeMap (pool : ReplayPool (List DaemonGroup)) : Option (List (String × String)) :=
  match pool.returned .executor with
  | some (.ok outcome, _) =>
      if outcome.status = .complete then some (groupIdMapFrom outcome.steps) else none
  | _ => none

theorem outcome_of_completeMap {pool : ReplayPool (List DaemonGroup)}
    {groupIds : List (String × String)} (h : completeMap pool = some groupIds) :
    ∃ out outcome, pool.threads .executor = some (.pure out) ∧ out.1 = .ok outcome ∧
      outcome.status = .complete ∧ groupIdMapFrom outcome.steps = groupIds := by
  unfold completeMap at h
  split at h
  · rename_i outcome memory hreturned
    split_ifs at h with hcomplete
    exact ⟨_, outcome, Pool.threads_of_returned hreturned, rfl, hcomplete, Option.some_inj.mp h⟩
  · cases h

theorem groups_distinct_iff_two_names :
    ∃ groupIds : List (String × String),
      (∀ g ∈ (sampleTemplate [("all", "All"), ("crew", "Crew")]).groups,
        ∀ g' ∈ (sampleTemplate [("all", "All"), ("crew", "Crew")]).groups, g.id ≠ g'.id →
          lookupGroup groupIds g.id ≠ lookupGroup groupIds g'.id) ∧
      lookupGroup groupIds "all" = some "group-0" := by
  let acts : List (Act ReplayThread Unit Unit) := [.launch .executor (), .steps .executor () 40]
  have hplay : ((sampleGroupRun [("all", "All"), ("crew", "Crew")]).play acts
      (emptyReplay [])).bind completeMap = some [("all", "group-0"), ("crew", "group-1")] := by
    decide +kernel
  obtain ⟨pool, hpool, hmap⟩ := Option.bind_eq_some_iff.mp hplay
  obtain ⟨out, outcome, hout, hok, hcomplete, hids⟩ := outcome_of_completeMap hmap
  have happart : DigestsApart sampleDigest (sampleTemplate [("all", "All"), ("crew", "Crew")])
      "acme-1" := by
    unfold DigestsApart
    decide +kernel
  have hiff := groups_distinct_iff (by decide +kernel) happart (emptyReplay_ready _ []) rfl
    List.nodup_nil (Script.reach_play acts hpool) hout hok hcomplete
  rw [hids] at hiff
  exact ⟨_, hiff.mpr (by decide +kernel), by decide +kernel⟩

/-- Two groups of one name pass the validation and become one group of the daemon. -/
theorem groups_of_one_name_collapse :
    validate (sampleTemplate [("all", "Crew"), ("crew", "Crew")]) = .ok () ∧
    DigestsApart sampleDigest (sampleTemplate [("all", "Crew"), ("crew", "Crew")]) "acme-1" ∧
    ∃ (pool : ReplayPool (List DaemonGroup)) (out : InstantiateReturn)
      (outcome : InstantiateOutcome),
      PoolReach (replaySystem (sampleGroups [("all", "Crew"), ("crew", "Crew")])) (emptyReplay [])
        pool ∧ pool.threads .executor = some (.pure out) ∧ out.1 = .ok outcome ∧
      outcome.status = .complete ∧
      lookupGroup (groupIdMapFrom outcome.steps) "all" = some "group-0" ∧
      lookupGroup (groupIdMapFrom outcome.steps) "crew" = some "group-0" := by
  let acts : List (Act ReplayThread Unit Unit) := [.launch .executor (), .steps .executor () 40]
  have hplay : ((sampleGroupRun [("all", "Crew"), ("crew", "Crew")]).play acts
      (emptyReplay [])).bind completeMap = some [("all", "group-0"), ("crew", "group-0")] := by
    decide +kernel
  obtain ⟨pool, hpool, hmap⟩ := Option.bind_eq_some_iff.mp hplay
  obtain ⟨out, outcome, hout, hok, hcomplete, hids⟩ := outcome_of_completeMap hmap
  refine ⟨by decide +kernel, ?_, pool, out, outcome, Script.reach_play acts hpool, hout, hok,
    hcomplete, ?_, ?_⟩
  · unfold DigestsApart
    decide +kernel
  · rw [hids]
    decide +kernel
  · rw [hids]
    decide +kernel

end Samples

end Buzz.Company
