import Buzz.CompanyHolder

/-!
# The phases of the lifecycle

After provisioning, each phase is recorded in the manifest before the next one
starts. A cancel may land at any time; then nothing of the instance is live any
more, and what the holder knows about live manifests stays true. So the last
phase marks complete only a manifest in which every phase is recorded.
-/

namespace Buzz.Company

open EffectProgram ReplacedFile

variable {s : CompanySetting} {i : CompanyThread} {key templateId : String}
  {Q : InstanceManifest → Prop} {m : InstanceManifest}

section Manifests

variable {step : CompletedStep} {kind instanceId : String} {steps : List PlanStep}

theorem InstanceManifest.hasPostPhase_record (h : m.hasPostPhase instanceId kind = true) :
    (m.record step).hasPostPhase instanceId kind = true :=
  InstanceManifest.completedKey_record (.inl h)

theorem InstanceManifest.hasPostPhase_recorded {resourceId : String} :
    (m.record (postPhaseStep instanceId kind resourceId)).hasPostPhase instanceId kind = true :=
  InstanceManifest.completedKey_record (.inr rfl)

theorem CompleteManifest.record (h : CompleteManifest s m) :
    CompleteManifest s (m.record step) where
  steps := by
    obtain ⟨template, htemplate, hsteps⟩ := h.steps
    refine ⟨template, by simpa using htemplate, fun x hx => ?_⟩
    rw [InstanceManifest.record_instanceId] at hx
    exact InstanceManifest.completedKey_record (.inl (hsteps x hx))
  runId := by simpa using h.runId
  identities := by
    rw [InstanceManifest.record_instanceId]
    exact InstanceManifest.hasPostPhase_record h.identities
  membership := by
    rw [InstanceManifest.record_instanceId]
    exact InstanceManifest.hasPostPhase_record h.membership
  symphonyBind := by
    rw [InstanceManifest.record_instanceId]
    exact InstanceManifest.hasPostPhase_record h.symphonyBind

theorem FiledManifest.recorded (h : FiledManifest s key templateId m) :
    FiledManifest s key templateId (m.record step) where
  instanceId := by simpa using h.instanceId
  key_eq := h.key_eq
  complete hc := (h.complete (by simpa using hc)).record
  templateId := by simpa using h.templateId

theorem FiledManifest.withRunId (h : FiledManifest s key templateId m) (runId : String) :
    FiledManifest s key templateId { m with runId := some runId } where
  instanceId := h.instanceId
  key_eq := h.key_eq
  complete hc :=
    let c := h.complete hc
    ⟨c.steps, rfl, c.identities, c.membership, c.symphonyBind⟩
  templateId := h.templateId

/-- The plan is carried out and the phases are recorded. -/
structure Advanced (templateId instanceId : String) (steps : List PlanStep) (phases : List String)
    (m : InstanceManifest) : Prop extends Provisioned templateId steps m where
  phases : ∀ kind ∈ phases, m.hasPostPhase instanceId kind = true

variable {phases : List String}

theorem Advanced.record (h : Advanced templateId instanceId steps phases m) :
    Advanced templateId instanceId steps phases (m.record step) where
  template := by simpa using h.template
  steps x hx := InstanceManifest.completedKey_record (.inl (h.steps x hx))
  phases k hk := InstanceManifest.hasPostPhase_record (h.phases k hk)

theorem Advanced.cons (h : Advanced templateId instanceId steps phases m)
    (hkind : m.hasPostPhase instanceId kind = true) :
    Advanced templateId instanceId steps (kind :: phases) m where
  toProvisioned := h.toProvisioned
  phases k hk := by
    rcases List.mem_cons.mp hk with rfl | hk
    · exact hkind
    · exact h.phases k hk

end Manifests

section Checkpoints

variable {ctx : LifecycleContext} {progress : Progress} {kind resourceId instanceId : String}
  {E : CompanyExit → CompanyWorld → Prop}

theorem Carries.of_live {m' : InstanceManifest} {w : CompanyWorld} (h : Carries s key m w)
    (hlive : m'.Live → m.Live) (hrun : m'.runId = m.runId) : Carries s key m' w :=
  fun hrec hissued hlive' => by
    rw [hrun]
    exact h hrec hissued (hlive hlive')

theorem liveTriple_persistPostPhase :
    LiveTriple s i (Know s i key templateId Q) (persistPostPhase key instanceId kind resourceId)
      (fun out w => Resting s i key templateId w ∧ (out = .ok true →
        Know s i key templateId (fun v => ∃ m, Q m ∧
          v = m.record (postPhaseStep instanceId kind resourceId)) w)) E := by
  have hend : ∀ {out : Except CompanyInstantiationError Bool}, out ≠ .ok true →
      LiveTriple s i (Resting s i key templateId)
        (pure out : CompanyTask (Except CompanyInstantiationError Bool))
        (fun out w => Resting s i key templateId w ∧ (out = .ok true →
          Know s i key templateId (fun v => ∃ m, Q m ∧
            v = m.record (postPhaseStep instanceId kind resourceId)) w)) E :=
    fun hne => Task.triple_pure stable_resting fun _ _ h => ⟨h, fun htrue => absurd htrue hne⟩
  apply Task.triple_bind liveTriple_load_know
  intro answer
  cases answer with
  | error _ => exact (hend (by simp)).weaken fun _ _ h => h.1.toResting
  | ok m =>
    apply Task.triple_pull
    rintro ⟨hm, hQ⟩
    apply Task.triple_ite
    · exact fun _ => (hend (by simp)).weaken fun _ _ h => h.1.toResting
    · intro hlive
      have hsave : LiveTriple s i
          (fun w => Know s i key templateId (fun v => v = m) w ∧ Carries s key m w)
          (save key (m.record (postPhaseStep instanceId kind resourceId)))
          (Recorded s i key templateId
            (m.record (postPhaseStep instanceId kind resourceId))) E := by
        apply (liveTriple_saveResting hm.recorded).weaken
        exact fun _ _ h => ⟨h.1.toResting, h.2.of_live (fun _ => hlive) (by simp)⟩
      apply Task.triple_bind hsave
      intro out
      cases out with
      | ok _ =>
        apply Task.triple_pure stable_know
        intro w _ h
        exact ⟨h.toResting, fun _ => h.mono fun v _ hv => ⟨m, hQ hlive, hv⟩⟩
      | error error =>
        cases error with
        | cancelled | notFound | decode _ | io _ => exact hend (by simp)

theorem liveTriple_reportResumable {α : Type} {R : α → CompanyWorld → Prop}
    (error : CompanyInstantiationError) :
    LiveTriple s i (Resting s i ctx.key templateId)
      (pushError error >>= fun _ => (returnResumable ctx progress : CompanyTask α)) R (Exit s i) :=
  Task.triple_bind (liveTriple_pushError stable_resting) fun _ => liveTriple_returnResumable

theorem liveTriple_checkpointPhase {steps : List PlanStep} {phases : List String} :
    LiveTriple s i (Know s i ctx.key templateId (Advanced templateId ctx.instanceId steps phases))
      (checkpointPhase ctx kind progress)
      (fun _ => Know s i ctx.key templateId
        (Advanced templateId ctx.instanceId steps (kind :: phases))) (Exit s i) := by
  apply Task.triple_bind liveTriple_persistPostPhase
  intro out
  rcases out with error | (_ | _)
  · exact (liveTriple_reportResumable error).weaken fun _ _ h => h.1
  · apply (liveTriple_returnCancelled stable_resting fun _ h => h.toFree).weaken
    exact fun _ _ h => h.1
  · apply Task.triple_pure stable_resting_know
    intro w _ h
    apply (h.2 rfl).mono
    rintro v _ ⟨m, hm, rfl⟩
    exact hm.record.cons InstanceManifest.hasPostPhase_recorded

end Checkpoints

section Phases

variable {ctx : LifecycleContext} {progress : Progress} {steps : List PlanStep}
variable {P : CompanyWorld → Prop}

theorem liveTriple_orFailWith {ε α : Type} {message : ε → String}
    {out : Except ε α} (hP : LiveStable s i P) (hfree : ∀ w, P w → Free s i w) :
    LiveTriple s i P (orFailWith message out : CompanyTask α) (fun value w => P w ∧ out = .ok value)
      (Exit s i) := by
  cases out with
  | ok value => exact Task.triple_pure hP fun _ _ h => ⟨h, rfl⟩
  | error error => exact Task.triple_fail hP fun w _ h => hfree w h

theorem liveTriple_provisioningPhase (hid : instanceKey ctx.instanceId = ctx.instanceId) :
    LiveTriple s i (Resting s i ctx.key ctx.template.id) (provisioningPhase s.sha256Hex ctx)
      (fun _ => Know s i ctx.key ctx.template.id (Provisioned ctx.template.id
        (planInstantiation s.sha256Hex ctx.template ctx.instanceId).steps)) (Exit s i) := by
  have hkey : instanceKey ctx.key = ctx.key := by rw [LifecycleContext.key, hid, hid]
  apply Task.triple_bind (liveTriple_instantiateCompany
    (planInstantiation s.sha256Hex ctx.template ctx.instanceId) hid.symm hkey)
  intro outcome
  apply Task.triple_bind (liveTriple_pushErrors _ stable_resting_know)
  intro _
  apply Task.triple_bind (liveTriple_pushErrors _ stable_resting_know)
  intro _
  apply Task.triple_ite
  · intro _
    apply Task.triple_bind (liveTriple_cleanup stable_resting_know)
    intro _
    apply Task.triple_bind (liveTriple_quiet rfl stable_resting_know)
    exact fun _ => liveTriple_returnResult stable_resting_know fun _ h => h.1.toFree
  · intro _
    apply Task.triple_ite
    · exact fun _ => liveTriple_returnResult stable_resting_know fun _ h => h.1.toFree
    · intro hcomplete
      exact Task.triple_pure stable_resting_know fun _ _ h => h.2 (by simpa using hcomplete)

theorem liveTriple_identitiesPhase {groups : List CompanyInstantiatedGroup} :
    LiveTriple s i (Know s i ctx.key templateId (Provisioned templateId steps))
      (identitiesPhase ctx groups)
      (fun _ => Know s i ctx.key templateId
        (Advanced templateId ctx.instanceId steps ["identities"])) (Exit s i) := by
  apply Task.triple_bind (liveTriple_returnIfCancelled stable_know fun _ h => h.toFree)
  intro _
  apply Task.triple_bind (liveTriple_quiet rfl stable_know)
  intro answer
  cases answer with
  | error message =>
    apply Task.triple_bind (liveTriple_pushError stable_know)
    exact fun _ => liveTriple_returnRechecked.weaken fun _ _ h => h.toResting
  | ok identities =>
    have hcheckpoint : LiveTriple s i (Know s i ctx.key templateId (Provisioned templateId steps))
        (checkpointPhase ctx "identities" ⟨groups, [], none⟩)
        (fun _ => Know s i ctx.key templateId
          (Advanced templateId ctx.instanceId steps ["identities"])) (Exit s i) :=
      liveTriple_checkpointPhase.weaken fun _ _ h =>
        h.mono fun v _ hv => ⟨hv, fun kind hkind => nomatch hkind⟩
    apply Task.triple_bind hcheckpoint
    exact fun _ => Task.triple_pure stable_know fun _ _ h => h

theorem liveTriple_staffGroups {template : CompanyTemplate}
    {groupIds : List (String × String)} (hP : LiveStable s i P)
    (staff : List (CompanyAgentIdentity × RoleSpec × String)) :
    ∀ failed, LiveTriple s i P (staffGroups template groupIds staff failed) (fun _ => P)
      (Exit s i) := by
  have hgroup : ∀ identity role localGroup, LiveTriple s i P
      (staffGroup template groupIds identity role localGroup) (fun _ => P) (Exit s i) := by
    intro identity role localGroup
    unfold staffGroup
    cases lookupGroup groupIds localGroup with
    | none => exact Task.triple_pure hP fun _ _ h => h
    | some groupId =>
      apply Task.triple_ite
      · exact fun _ => Task.triple_pure hP fun _ _ h => h
      · intro _
        apply Task.triple_bind (liveTriple_quiet rfl hP)
        intro answer
        cases answer with
        | ok _ => exact Task.triple_pure hP fun _ _ h => h
        | error message =>
          apply Task.triple_bind (liveTriple_pushError hP)
          exact fun _ => Task.triple_pure hP fun _ _ h => h
  induction staff with
  | nil => exact fun _ => Task.triple_pure hP fun _ _ h => h
  | cons entry rest ih =>
    intro failed
    exact Task.triple_bind (hgroup entry.1 entry.2.1 entry.2.2) fun _ => ih _

/-- A phase that reads the manifest goes on with the one it has read. -/
theorem liveTriple_loaded {α : Type} {key : String} {Q : InstanceManifest → Prop}
    {f : ManifestError → String} {next : InstanceManifest → CompanyTask α}
    {R : α → CompanyWorld → Prop}
    (hnext : ∀ m, FiledManifest s key templateId m → (m.Live → Q m) →
      LiveTriple s i (fun w => Know s i key templateId (fun v => v = m) w ∧ Carries s key m w)
        (next m) R (Exit s i)) :
    LiveTriple s i (Know s i key templateId Q)
      (load key >>= fun loaded => orFailWith f loaded >>= next) R (Exit s i) := by
  apply Task.triple_bind liveTriple_load_know
  intro answer
  cases answer with
  | error _ =>
    exact Task.triple_fail_bind (stable_know.and (stable_const _)) fun _ _ h => h.1.toFree
  | ok m =>
    apply Task.triple_pull
    rintro ⟨hm, hQ⟩
    exact Task.triple_pure_bind (hnext m hm hQ)

theorem liveTriple_membershipPhase {outcomes : List StepOutcome}
    {identities : List CompanyAgentIdentity} {phases : List String} :
    LiveTriple s i (Know s i ctx.key templateId (Advanced templateId ctx.instanceId steps phases))
      (membershipPhase ctx outcomes identities progress)
      (fun _ => Know s i ctx.key templateId
        (Advanced templateId ctx.instanceId steps ("membership" :: phases))) (Exit s i) := by
  refine liveTriple_loaded fun m hm hQ => ?_
  have hknow : LiveStable s i fun w =>
      Know s i ctx.key templateId (fun v => v = m) w ∧ Carries s ctx.key m w :=
    stable_carries stable_know fun _ h => h.locked
  apply Task.triple_ite
  · intro hdone
    apply Task.triple_pure hknow
    intro w _ h
    apply h.1.mono
    rintro v hlive rfl
    exact (hQ hlive).cons hdone
  · intro _
    apply Task.triple_bind (liveTriple_returnIfCancelled hknow fun _ h => h.1.toFree)
    intro _
    apply Task.triple_bind (liveTriple_staffGroups hknow _ _)
    intro failed
    apply Task.triple_ite
    · exact fun _ => liveTriple_returnRechecked.weaken fun _ _ h => h.1.toResting
    · intro _
      apply liveTriple_checkpointPhase.weaken
      intro w _ h
      apply h.1.mono
      rintro v hlive rfl
      exact hQ hlive

theorem liveTriple_bringUpSymphony {rebind : Bool} (hP : LiveStable s i P) :
    LiveTriple s i P (bringUpSymphony key rebind) (fun _ => P) (Exit s i) := by
  apply Task.triple_bind (liveTriple_quiet rfl hP)
  intro current
  apply Task.triple_ite
  · exact fun _ => Task.triple_pure hP fun _ _ h => h
  · intro _
    apply Task.triple_bind (liveTriple_quiet rfl hP)
    intro _
    apply Task.triple_bind (liveTriple_quiet rfl hP)
    intro answer
    cases answer with
    | error _ => exact Task.triple_pure hP fun _ _ h => h
    | ok owned => exact liveTriple_quiet rfl hP

theorem liveTriple_symphonyPhase {phases : List String} :
    LiveTriple s i (Know s i ctx.key templateId (Advanced templateId ctx.instanceId steps phases))
      (symphonyPhase s.sha256Hex ctx progress)
      (fun _ => Know s i ctx.key templateId
        (Advanced templateId ctx.instanceId steps ("symphony_bind" :: phases))) (Exit s i) := by
  apply Task.triple_bind (liveTriple_returnIfCancelled stable_know fun _ h => h.toFree)
  intro _
  apply Task.triple_bind (liveTriple_quiet rfl stable_know)
  intro endpoint
  apply Task.triple_bind (liveTriple_orFailWith stable_know fun _ h => h.toFree)
  intro x0xdUrl
  apply Task.triple_pull
  intro _
  apply Task.triple_bind (liveTriple_quiet rfl stable_know)
  intro written
  apply Task.triple_bind (liveTriple_orFailWith stable_know fun _ h => h.toFree)
  intro _
  apply Task.triple_pull
  intro _
  apply Task.triple_bind (liveTriple_bringUpSymphony stable_know)
  intro _
  apply Task.triple_bind (liveTriple_quiet rfl stable_know)
  intro ready
  apply Task.triple_ite
  · intro _
    apply Task.triple_bind liveTriple_checkpointPhase
    exact fun _ => Task.triple_pure stable_know fun _ _ h => h
  · intro _
    apply Task.triple_bind (liveTriple_pushError stable_know)
    exact fun _ => liveTriple_returnRechecked.weaken fun _ _ h => h.toResting

/-- The holder has read `m`, which is still there or the instance is cancelled. -/
abbrev HasRead (s : CompanySetting) (i : CompanyThread) (key templateId : String)
    (m : InstanceManifest) (w : CompanyWorld) : Prop :=
  Know s i key templateId (fun v => v = m) w ∧ Carries s key m w

theorem stable_hasRead : LiveStable s i (HasRead s i key templateId m) :=
  stable_carries stable_know fun _ h => h.locked

/-- When the check for a cancel passes, the manifest that was read is no tombstone. -/
theorem liveTriple_notCancelled (hid : instanceKey ctx.instanceId = ctx.instanceId) :
    LiveTriple s i (HasRead s i ctx.key templateId m) (returnIfCancelled ctx progress)
      (fun _ w => HasRead s i ctx.key templateId m w ∧ (s.policy.Readable → m.Live))
      (Exit s i) := by
  have hload : LiveTriple s i (HasRead s i ctx.key templateId m) (load ctx.key)
      (fun answer w => HasRead s i ctx.key templateId m w ∧
        (showsCancel ctx.instanceId ctx.observed answer = false → s.policy.Readable → m.Live))
      (Exit s i) := by
    apply liveTriple_read rfl stable_hasRead fun _ => stable_hasRead.and (stable_const _)
    intro w answer u hw hpre hpolicy hanswer
    refine ⟨hpre, fun hshow hread => ?_⟩
    cases answer with
    | error _ => exact absurd (hread.reads i w _ _ hpolicy) hpre.1.placed.main
    | ok v =>
      have hmain : v ∈ (w.slots ctx.key).mainValue := hanswer.1
      have hsound := hw.sound ctx.key v (.inl hmain)
      have hlive : v.Live := by
        have hv : v.instanceId = ctx.instanceId := hsound.instanceId.trans hid
        intro hdead
        simp [showsCancel, hv, hdead] at hshow
      rwa [hpre.1.main v hmain hlive] at hlive
  have hcheck : LiveTriple s i (HasRead s i ctx.key templateId m) (companyRunCancelled ctx)
      (fun cancelled w => HasRead s i ctx.key templateId m w ∧
        (cancelled = false → s.policy.Readable → m.Live)) (Exit s i) := by
    apply Task.triple_bind hload
    exact fun answer => Task.triple_pure (stable_hasRead.and (stable_const _)) fun _ _ h => h
  apply Task.triple_bind hcheck
  intro cancelled
  apply Task.triple_ite
  · intro _
    exact liveTriple_returnCancelled (stable_hasRead.and (stable_const _)) fun _ h => h.1.1.toFree
  · intro hfalse
    apply Task.triple_pure (stable_hasRead.and (stable_const _))
    exact fun _ _ h => ⟨h.1, h.2 (by simpa using hfalse)⟩

/-- The identifier of the issue is in no manifest yet; what is saved next records it. -/
def Unrecorded (s : CompanySetting) (i : CompanyThread) (key templateId : String)
    (runId : Option String) (w : CompanyWorld) : Prop :=
  match runId with
  | some id => ∀ v, FiledManifest s key templateId v → v.runId = some id →
      Writable s i key v True w ∧ (s.policy.Readable → NoneWaiting key w)
  | none => Resting s i key templateId w

theorem stable_unrecorded {runId : Option String} :
    LiveStable s i (Unrecorded s i key templateId runId) := by
  cases runId with
  | none => exact stable_resting
  | some id =>
    exact fun w u hu hrely halive h v hv hrun =>
      stable_settled w u hu hrely halive (h v hv hrun)

/-- Creating an issue touches nothing but the count of the issues. -/
theorem HasRead.createIssue {w u : CompanyWorld} (hw : CompanyInvariant s w)
    (h : HasRead s i key templateId m w) (hlive : s.policy.Readable → m.Live)
    (hrun : m.runId = none)
    (hu : u = { w.createIssue key with saving := Function.update w.saving i none }) :
    CompanyInvariant s u ∧ CompanyGuar i w u := by
  have hlock : u.lock = some i := by
    rw [hu]
    exact h.1.locked.lock
  constructor
  · constructor
    · subst hu
      exact hw.sound
    · subst hu
      exact hw.template
    · subst hu
      exact hw.single
    · intro hrec other hne
      by_cases ho : other = key
      · subst ho hu
        exact h.1.placed.main
      · subst hu
        exact hw.issued hrec other (by simpa [CompanyWorld.createIssue, ho] using hne)
    · intro hrec other
      by_cases ho : other = key
      · have hzero : w.issued key = 0 := by
          by_contra hissued
          have hsome := h.2 hrec hissued (hlive hrec.toReadable)
          simp [hrun] at hsome
        subst ho hu
        simp [CompanyWorld.createIssue, hzero]
      · subst hu
        simpa [CompanyWorld.createIssue, ho] using hw.limit hrec other
    · intro hnone
      rw [hlock] at hnone
      cases hnone
  · subst hu
    refine ⟨rfl, fun _ hmain => hmain, fun _ _ => rfl, fun j hj hheld => ?_⟩
    exact absurd (Option.some.inj (hheld.symm.trans h.1.locked.lock)) hj

theorem HasRead.unrecorded {w : CompanyWorld} (h : HasRead s i key templateId m w)
    (runId : Option String) (hrec : s.policy.Recording → runId.isSome = true) :
    Unrecorded s i key templateId runId
      { w.createIssue key with saving := Function.update w.saving i none } := by
  have hlocked : Locked i { w.createIssue key with saving := Function.update w.saving i none } :=
    ⟨h.1.locked.app, h.1.locked.lock⟩
  cases runId with
  | none =>
    refine ⟨⟨hlocked, h.1.calm.settled, fun hrecording => ?_⟩, h.1.alone,
      ⟨h.1.placed.main, h.1.placed.template⟩⟩
    cases hrec hrecording
  | some id =>
    intro v hv hrun
    refine ⟨⟨hlocked, h.1.alone, fun _ => h.1.placed.main, fun hread => .inr ?_, ?_, ?_⟩,
      fun hread => h.1.calm.settled hread key⟩
    · rw [hv.templateId hread]
      exact h.1.placed.template hread
    · intro hrecording other ho hissued
      apply h.1.calm.recorded hrecording other
      simpa [CompanyWorld.createIssue, ho] using hissued
    · intro _ _ _
      rw [hrun]
      rfl

theorem liveTriple_createIssue {draft : SymphonyIssueDraft} (hrun : m.runId = none) :
    LiveTriple s i (fun w => HasRead s i key templateId m w ∧ (s.policy.Readable → m.Live))
      (ask (.createIssue key draft))
      (fun answer => Unrecorded s i key templateId
        (answer.toOption.bind fun value : Json => value.getStr "id")) (Exit s i) := by
  apply Task.triple_perform (stable_hasRead.and (stable_const _)) fun _ => stable_unrecorded
  rintro w answer u hw ⟨hpre, hlive⟩ ⟨hpolicy, -, v, hv, hu⟩
  have hv' : v = w.createIssue key := hv
  subst hv'
  have hu' : u = { w.createIssue key with saving := Function.update w.saving i none } := hu
  obtain ⟨hinv, hguar⟩ := hpre.createIssue hw hlive hrun hu'
  refine ⟨hinv, hguar, ?_⟩
  rw [hu']
  apply hpre.unrecorded
  intro hrec
  have hrecords := hrec.records i w _ _ hpolicy
  cases answer with
  | ok value => exact hrecords
  | error message => exact hrecords.elim

theorem liveTriple_requestRunIssue (hid : instanceKey ctx.instanceId = ctx.instanceId)
    (hrun : m.runId = none) :
    LiveTriple s i (fun w => HasRead s i ctx.key templateId m w ∧ (s.policy.Readable → m.Live))
      (requestRunIssue ctx) (fun runId => Unrecorded s i ctx.key templateId runId) (Exit s i) := by
  have hstable : LiveStable s i fun w =>
      HasRead s i ctx.key templateId m w ∧ (s.policy.Readable → m.Live) :=
    stable_hasRead.and (stable_const _)
  apply Task.triple_bind (liveTriple_quiet rfl hstable)
  intro answer
  cases answer with
  | error message =>
    apply Task.triple_bind (liveTriple_pushError hstable)
    exact fun _ => Task.triple_pure hstable fun _ _ h => h.1.1.toResting
  | ok _ =>
    have hcreate : LiveTriple s i
        (fun w => HasRead s i ctx.key templateId m w ∧ (s.policy.Readable → m.Live))
        (ask (.createIssue ctx.instanceId (runIssueDraft ctx)))
        (fun answer => Unrecorded s i ctx.key templateId
          (answer.toOption.bind fun value : Json => value.getStr "id")) (Exit s i) := by
      have hkey : ctx.key = ctx.instanceId := hid
      rw [hkey]
      exact liveTriple_createIssue hrun
    apply Task.triple_bind hcreate
    intro created
    cases created with
    | ok value => exact Task.triple_pure stable_unrecorded fun _ _ h => h
    | error message =>
      apply Task.triple_bind (liveTriple_pushError stable_unrecorded)
      exact fun _ => Task.triple_pure stable_unrecorded fun _ _ h => h

variable {phases : List String}

/-- Everything is recorded, the run issue included. -/
structure Finished (templateId instanceId : String) (steps : List PlanStep) (phases : List String)
    (m : InstanceManifest) : Prop extends Advanced templateId instanceId steps phases m where
  runId : m.runId.isSome = true

theorem liveTriple_saveRunIssue {runId : String} (hm : FiledManifest s ctx.key templateId m)
    (hQ : m.Live → Advanced templateId ctx.instanceId steps phases m) :
    LiveTriple s i (Unrecorded s i ctx.key templateId (some runId))
      (saveRunIssue ctx m runId progress)
      (fun _ => Know s i ctx.key templateId (Finished templateId ctx.instanceId steps phases))
      (Exit s i) := by
  have hfiled : FiledManifest s ctx.key templateId ({ m with runId := some runId }.record
      (postPhaseStep ctx.instanceId "run_issue" runId)) := (hm.withRunId runId).recorded
  have hsave : LiveTriple s i (Unrecorded s i ctx.key templateId (some runId))
      (save ctx.key ({ m with runId := some runId }.record
        (postPhaseStep ctx.instanceId "run_issue" runId)))
      (Recorded s i ctx.key templateId ({ m with runId := some runId }.record
        (postPhaseStep ctx.instanceId "run_issue" runId))) (Exit s i) :=
    (liveTriple_saveWritable hfiled).weaken fun _ _ h => h _ hfiled (by simp)
  apply Task.triple_bind hsave
  intro out
  cases out with
  | ok _ =>
    apply Task.triple_pure stable_know
    intro w _ h
    apply h.mono
    rintro v hlive rfl
    have hlive' : m.Live := by simpa [InstanceManifest.Live] using hlive
    have hm' : Advanced templateId ctx.instanceId steps phases { m with runId := some runId } :=
      ⟨⟨(hQ hlive').template, (hQ hlive').steps⟩, (hQ hlive').phases⟩
    exact ⟨hm'.record, by simp⟩
  | error error =>
    cases error with
    | cancelled => exact liveTriple_returnCancelled stable_resting fun _ h => h.toFree
    | notFound => exact liveTriple_reportResumable _
    | decode _ | io _ => exact liveTriple_reportResumable _

theorem liveTriple_runIssuePhase (hid : instanceKey ctx.instanceId = ctx.instanceId) :
    LiveTriple s i (Know s i ctx.key templateId (Advanced templateId ctx.instanceId steps phases))
      (runIssuePhase ctx progress)
      (fun _ => Know s i ctx.key templateId (Finished templateId ctx.instanceId steps phases))
      (Exit s i) := by
  refine liveTriple_loaded fun m hm hQ => ?_
  apply Task.triple_ite
  · intro hrun
    apply Task.triple_pure stable_hasRead
    intro w _ h
    apply h.1.mono
    rintro v hlive rfl
    exact ⟨hQ hlive, hrun⟩
  · intro hnone
    have hrun : m.runId = none := by simpa using hnone
    apply Task.triple_bind (liveTriple_notCancelled hid)
    intro _
    apply Task.triple_bind (liveTriple_requestRunIssue hid hrun)
    intro runId
    cases runId with
    | none => exact liveTriple_returnRechecked
    | some runId => exact liveTriple_saveRunIssue hm hQ

theorem CompleteManifest.of_finished (hm : FiledManifest s ctx.key ctx.template.id m)
    (hid : instanceKey ctx.instanceId = ctx.instanceId)
    (hregistry : getCompanyTemplate s.registry ctx.template.id = some ctx.template)
    (h : Finished ctx.template.id ctx.instanceId
      (planInstantiation s.sha256Hex ctx.template ctx.instanceId).steps
      ["symphony_bind", "membership", "identities"] m) :
    CompleteManifest s { m with status := .complete } := by
  have hinstance : m.instanceId = ctx.instanceId := hm.instanceId.trans hid
  refine ⟨⟨ctx.template, ?_, ?_⟩, h.runId, ?_, ?_, ?_⟩
  · simpa [h.template] using hregistry
  · simp only [hinstance]
    exact h.steps
  · simp only [hinstance]
    exact h.phases "identities" (by simp)
  · simp only [hinstance]
    exact h.phases "membership" (by simp)
  · simp only [hinstance]
    exact h.phases "symphony_bind" (by simp)

theorem liveTriple_completionPhase (hid : instanceKey ctx.instanceId = ctx.instanceId)
    (hregistry : getCompanyTemplate s.registry ctx.template.id = some ctx.template) :
    LiveTriple s i (Know s i ctx.key ctx.template.id (Finished ctx.template.id ctx.instanceId
        (planInstantiation s.sha256Hex ctx.template ctx.instanceId).steps
        ["symphony_bind", "membership", "identities"]))
      (completionPhase ctx progress) (fun _ => Resting s i ctx.key ctx.template.id) (Exit s i) := by
  apply Task.triple_bind (liveTriple_returnIfCancelled stable_know fun _ h => h.toFree)
  intro _
  refine liveTriple_loaded fun m hm hQ => ?_
  apply Task.triple_ite
  · exact fun _ => liveTriple_returnCancelled stable_hasRead fun _ h => h.1.toFree
  · intro hlive
    have hcomplete := CompleteManifest.of_finished hm hid hregistry (hQ hlive)
    have hfiled : FiledManifest s ctx.key ctx.template.id { m with status := .complete } :=
      ⟨⟨hm.instanceId, hm.key_eq, fun _ => hcomplete⟩, hm.templateId⟩
    have hsave : LiveTriple s i (HasRead s i ctx.key ctx.template.id m)
        (save ctx.key { m with status := .complete })
        (Recorded s i ctx.key ctx.template.id { m with status := .complete }) (Exit s i) :=
      (liveTriple_saveResting hfiled).weaken fun _ _ h =>
        ⟨h.1.toResting, h.2.of_live (fun _ => hlive) rfl⟩
    apply Task.triple_bind hsave
    intro out
    cases out with
    | ok _ => exact Task.triple_pure stable_know fun _ _ h => h.toResting
    | error error =>
      cases error with
      | cancelled => exact liveTriple_returnCancelled stable_resting fun _ h => h.toFree
      | notFound => exact liveTriple_reportResumable _
      | decode _ | io _ => exact liveTriple_reportResumable _

theorem liveTriple_bindActive {runId : Option String}
    {R : CompanyInstantiationResult → CompanyWorld → Prop}
    (hP : LiveStable s i P) (hfree : ∀ w, P w → Free s i w) :
    LiveTriple s i P (bindActive ctx progress runId) R (Exit s i) := by
  apply Task.triple_bind (liveTriple_quiet rfl hP)
  intro _
  apply Task.triple_bind (liveTriple_reload hP)
  intro cancelled
  apply Task.triple_ite
  · intro _
    apply Task.triple_bind (liveTriple_quiet rfl hP)
    exact fun _ => liveTriple_returnCancelled hP hfree
  · exact fun _ => liveTriple_returnResult hP hfree

theorem liveTriple_lifecyclePhases (ctx : LifecycleContext)
    (hid : instanceKey ctx.instanceId = ctx.instanceId)
    (hregistry : getCompanyTemplate s.registry ctx.template.id = some ctx.template) :
    LiveTriple s i (Resting s i ctx.key ctx.template.id) (lifecyclePhases s.sha256Hex ctx)
      (fun _ => Free s i) (Exit s i) := by
  apply Task.triple_bind (liveTriple_provisioningPhase hid)
  intro outcomes
  apply Task.triple_bind liveTriple_identitiesPhase
  intro identities
  apply Task.triple_bind liveTriple_membershipPhase
  intro _
  apply Task.triple_bind liveTriple_symphonyPhase
  intro workflow
  apply Task.triple_bind (liveTriple_runIssuePhase hid)
  intro _
  apply Task.triple_bind (liveTriple_completionPhase hid hregistry)
  exact fun _ => liveTriple_bindActive stable_resting fun _ h => h.toFree

theorem liveTriple_runCompanyLifecycle {template : CompanyTemplate}
    {instanceId displayName : String} (hid : instanceKey instanceId = instanceId)
    (hregistry : getCompanyTemplate s.registry template.id = some template) :
    LiveTriple s i (Resting s i (instanceKey instanceId) template.id)
      (runCompanyLifecycle s.sha256Hex template instanceId displayName) (fun _ => Free s i)
      (Exit s i) := by
  apply Task.triple_bind (Task.triple_setMemory stable_resting)
  intro _
  apply Task.triple_bind (liveTriple_orFailWith stable_resting fun _ h => h.toFree)
  intro _
  apply Task.triple_pull
  intro _
  apply Task.triple_bind (liveTriple_quiet rfl stable_resting)
  intro loaded
  have hphases : LiveTriple s i (Resting s i (instanceKey instanceId) template.id)
      (Task.result (lifecyclePhases s.sha256Hex
        ⟨template, instanceId, displayName, observedGeneration instanceId loaded⟩))
      (fun _ => Free s i) (Exit s i) :=
    Task.triple_result (liveTriple_lifecyclePhases
      ⟨template, instanceId, displayName, observedGeneration instanceId loaded⟩ hid hregistry)
  apply Task.triple_bind hphases
  intro out
  rcases out with (result | message) | result
  · exact Task.triple_pure stable_free fun _ _ h => h
  · exact Task.triple_fail stable_free fun _ _ h => h
  · exact Task.triple_pure stable_free fun _ _ h => h

end Phases

end Buzz.Company
