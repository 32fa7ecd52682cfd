import Buzz.CompanyLive

/-!
# What the lifecycle does to the manifest

The lifecycle runs under the run lock. At each of its exits the holder may let
the lock go, and what it has recorded so far is in the manifest or the instance
is cancelled. The manifest is marked complete only when everything is recorded.
-/

namespace Buzz.Company

open EffectProgram ReplacedFile

variable {s : CompanySetting} {i : CompanyThread} {key templateId : String}
  {Q : InstanceManifest → Prop} {m : InstanceManifest}

/-- Every exit of the lifecycle. -/
abbrev Exit (s : CompanySetting) (i : CompanyThread) : CompanyExit → CompanyWorld → Prop :=
  fun _ => Free s i

section Sink

variable {w : CompanyWorld} {E : CompanyExit → CompanyWorld → Prop}

theorem Resting.filed (h : Resting s i key templateId w) (hw : CompanyInvariant s w)
    (hm : (w.slots key).Holds m) : FiledManifest s key templateId m where
  toSoundManifest := hw.sound key m hm
  templateId hread := by
    obtain ⟨t, ht, hall⟩ := hw.template hread key h.placed.main
    rw [hall m hm]
    exact Option.some.inj (ht.symm.trans (h.placed.template hread))

theorem Resting.carries (h : Resting s i key templateId w) (hm : (w.slots key).Holds m) :
    Carries s key m w :=
  fun hrec hissued hlive => h.calm.recorded hrec key hissued m hm hlive

theorem Resting.writable (h : Resting s i key templateId w)
    (hm : FiledManifest s key templateId m) (hcarries : Carries s key m w) :
    Writable s i key m True w ∧ (s.policy.Readable → NoneWaiting key w) :=
  ⟨{ locked := h.locked
     alone := h.alone
     main := fun _ => h.placed.main
     place := fun hread => .inr (by rw [hm.templateId hread]; exact h.placed.template hread)
     others := fun hrec other _ hissued => h.calm.recorded hrec other hissued
     carries := hcarries }, fun hread => h.calm.settled hread key⟩

theorem Placed.retarget {t : String} (h : Placed s key t w)
    (ht : s.policy.Readable → t = templateId) : Placed s key templateId w :=
  ⟨h.main, fun hread => by rw [← ht hread]; exact h.template hread⟩

theorem Know.retarget {t : String} (h : Know s i key t Q w)
    (ht : s.policy.Readable → t = templateId) : Know s i key templateId Q w :=
  ⟨⟨h.toFree, h.alone, h.placed.retarget ht⟩, h.waiting, h.main⟩

theorem Know.mono {R : InstanceManifest → Prop} (h : Know s i key templateId Q w)
    (hQ : ∀ v, v.Live → Q v → R v) : Know s i key templateId R w :=
  ⟨h.toResting, h.waiting, fun v hv hlive => hQ v hlive (h.main v hv hlive)⟩

/-- The holder rests, and in one case it knows more. -/
theorem stable_resting_know {p : Prop} : LiveStable s i fun w =>
    Resting s i key templateId w ∧ (p → Know s i key templateId Q w) :=
  fun w u hu hrely halive h => ⟨stable_resting w u hu hrely halive h.1,
    fun hp => stable_know w u hu hrely halive (h.2 hp)⟩

/-- What a save in the lifecycle leaves. -/
def Recorded (s : CompanySetting) (i : CompanyThread) (key templateId : String)
    (m : InstanceManifest) (out : Except ManifestError Unit) (w : CompanyWorld) : Prop :=
  match out with
  | .ok _ => Know s i key templateId (fun v => v = m) w
  | .error _ => Resting s i key templateId w

/-- A save right after an issue was created, or any other one. -/
theorem liveTriple_saveWritable (hm : FiledManifest s key templateId m) :
    LiveTriple s i (fun w => Writable s i key m True w ∧ (s.policy.Readable → NoneWaiting key w))
      (save key m) (Recorded s i key templateId m) E := by
  apply (liveTriple_save hm.toSoundManifest).strengthen
  intro out w _ hout
  cases out with
  | ok _ => exact Know.retarget hout hm.templateId
  | error _ =>
    have hhalted : Halted s i key m.templateId True w := hout
    exact ⟨hhalted.toFree, hhalted.alone, (hhalted.placed True.intro).retarget hm.templateId⟩

theorem liveTriple_saveResting (hm : FiledManifest s key templateId m) :
    LiveTriple s i (fun w => Resting s i key templateId w ∧ Carries s key m w) (save key m)
      (Recorded s i key templateId m) E :=
  (liveTriple_saveWritable hm).weaken fun _ _ hpre => hpre.1.writable hm hpre.2

/-- What a load tells a holder that rests. -/
theorem liveTriple_load :
    LiveTriple s i (Resting s i key templateId) (load key)
      (fun answer w => match answer with
        | .ok m => (Resting s i key templateId w ∧ Carries s key m w) ∧
            FiledManifest s key templateId m
        | .error _ => Resting s i key templateId w ∧ ¬s.policy.Readable) E := by
  apply liveTriple_read rfl stable_resting
  · intro answer
    cases answer with
    | ok m => exact (stable_carries stable_resting fun _ h => h.locked).and (stable_const _)
    | error _ => exact stable_resting.and (stable_const _)
  · intro w answer u hw hpre hpolicy hanswer
    cases answer with
    | ok m =>
      have hm : (w.slots key).Holds m := .inl hanswer.1
      exact ⟨⟨hpre, hpre.carries hm⟩, hpre.filed hw hm⟩
    | error _ => exact ⟨hpre, fun hread => hpre.placed.main (hread.reads i w _ _ hpolicy)⟩

/-- What a load tells a holder that knows what it has saved. -/
theorem liveTriple_load_know :
    LiveTriple s i (Know s i key templateId Q) (load key)
      (fun answer w => match answer with
        | .ok m => (Know s i key templateId (fun v => v = m) w ∧ Carries s key m w) ∧
            FiledManifest s key templateId m ∧ (m.Live → Q m)
        | .error _ => Know s i key templateId Q w ∧ ¬s.policy.Readable) E := by
  apply liveTriple_read rfl stable_know
  · intro answer
    cases answer with
    | ok m => exact (stable_carries stable_know fun _ h => h.locked).and (stable_const _)
    | error _ => exact stable_know.and (stable_const _)
  · intro w answer u hw hpre hpolicy hanswer
    cases answer with
    | ok m =>
      have hmain : (w.slots key).mainValue = some m := hanswer.1
      have hm : (w.slots key).Holds m := .inl hmain
      refine ⟨⟨⟨hpre.toResting, hpre.waiting, fun v hv _ => ?_⟩, hpre.carries hm⟩,
        hpre.filed hw hm, hpre.main m hmain⟩
      exact Option.some.inj (hv.symm.trans hmain)
    | error _ => exact ⟨hpre, fun hread => hpre.placed.main (hread.reads i w _ _ hpolicy)⟩

end Sink

section Exits

variable {P : CompanyWorld → Prop} {α : Type} {ctx : LifecycleContext} {progress : Progress}
  {R : α → CompanyWorld → Prop}

theorem liveTriple_cleanup {E : CompanyExit → CompanyWorld → Prop} {instanceId : String}
    (hP : LiveStable s i P) :
    LiveTriple s i P (cleanupCompanyRuntime instanceId) (fun _ => P) E :=
  Task.triple_bind (liveTriple_quiet rfl hP) fun _ => liveTriple_quiet rfl hP

theorem liveTriple_pushErrors {E : CompanyExit → CompanyWorld → Prop}
    (errors : List CompanyInstantiationError) (hP : LiveStable s i P) :
    LiveTriple s i P (pushErrors errors) (fun _ => P) E :=
  Task.triple_forEach (I := fun _ => P) hP (fun _ _ => liveTriple_pushError hP) errors

theorem liveTriple_returnResult {status : ManifestStatus} {runId : Option String}
    (hP : LiveStable s i P) (hfree : ∀ w, P w → Free s i w) :
    LiveTriple s i P (returnResult ctx status progress runId : CompanyTask α) R (Exit s i) :=
  Task.triple_bind (Task.triple_getMemory hP) fun _ =>
    Task.triple_fail hP fun w _ h => hfree w h

theorem liveTriple_returnCancelled {runId : Option String}
    (hP : LiveStable s i P) (hfree : ∀ w, P w → Free s i w) :
    LiveTriple s i P (returnCancelled ctx progress runId : CompanyTask α) R (Exit s i) :=
  Task.triple_bind (liveTriple_cleanup hP) fun _ => liveTriple_returnResult hP hfree

theorem liveTriple_reload {E : CompanyExit → CompanyWorld → Prop} {instanceId : String}
    {observed : ℕ} (hP : LiveStable s i P) :
    LiveTriple s i P (reloadShowsCancel key instanceId observed) (fun _ => P) E :=
  Task.triple_bind (liveTriple_quiet rfl hP) fun _ => Task.triple_pure hP fun _ _ h => h

theorem FiledManifest.withStatus (h : FiledManifest s key templateId m) {status : ManifestStatus}
    (hne : status ≠ .complete) : FiledManifest s key templateId { m with status := status } where
  instanceId := h.instanceId
  key_eq := h.key_eq
  complete hc := absurd hc hne
  templateId := h.templateId

theorem liveTriple_markCompanyResumable :
    LiveTriple s i (Resting s i key templateId) (markCompanyResumable key)
      (fun _ => Resting s i key templateId) (Exit s i) := by
  apply Task.triple_bind liveTriple_load
  intro answer
  cases answer with
  | error _ => exact Task.triple_pure (stable_resting.and (stable_const _)) fun _ _ h => h.1
  | ok m =>
    apply Task.triple_pull
    intro hm
    apply Task.triple_ite
    · intro _
      exact Task.triple_pure (stable_carries stable_resting fun _ h => h.locked) fun _ _ h => h.1
    · intro hlive
      have hsave : LiveTriple s i (fun w => Resting s i key templateId w ∧ Carries s key m w)
          (save key { m with status := .resumable })
          (Recorded s i key templateId { m with status := .resumable }) (Exit s i) := by
        apply (liveTriple_saveResting (hm.withStatus (by decide))).weaken
        exact fun _ _ hpre => ⟨hpre.1, fun hrec hissued _ => hpre.2 hrec hissued hlive⟩
      apply Task.triple_bind hsave
      intro out
      cases out with
      | ok _ => exact Task.triple_pure stable_know fun _ _ h => h.toResting
      | error error =>
        have hpush : LiveTriple s i (Resting s i key templateId)
            (pushError ⟨"provisioning", "manifest",
              "failed to persist resumable state: " ++ error.toText⟩)
            (fun _ => Resting s i key templateId) (Exit s i) :=
          liveTriple_pushError stable_resting
        cases error with
        | cancelled => exact Task.triple_pure stable_resting fun _ _ h => h
        | _ => exact hpush

theorem liveTriple_returnResumable :
    LiveTriple s i (Resting s i ctx.key templateId) (returnResumable ctx progress : CompanyTask α) R
      (Exit s i) :=
  Task.triple_bind liveTriple_markCompanyResumable fun _ =>
    liveTriple_returnResult stable_resting fun _ h => h.toFree

theorem liveTriple_returnRechecked :
    LiveTriple s i (Resting s i ctx.key templateId) (returnRechecked ctx progress : CompanyTask α) R
      (Exit s i) := by
  apply Task.triple_bind liveTriple_markCompanyResumable
  intro _
  apply Task.triple_bind (liveTriple_reload stable_resting)
  intro cancelled
  apply Task.triple_ite
  · exact fun _ => liveTriple_returnCancelled stable_resting fun _ h => h.toFree
  · exact fun _ => liveTriple_returnResult stable_resting fun _ h => h.toFree

theorem liveTriple_returnIfCancelled (hP : LiveStable s i P) (hfree : ∀ w, P w → Free s i w) :
    LiveTriple s i P (returnIfCancelled ctx progress) (fun _ => P) (Exit s i) := by
  apply Task.triple_bind (liveTriple_reload hP)
  intro cancelled
  apply Task.triple_ite
  · exact fun _ => liveTriple_returnCancelled hP hfree
  · exact fun _ => Task.triple_pure hP fun _ _ h => h

end Exits

section Executor

variable {E : CompanyExit → CompanyWorld → Prop}

/-- The executor has gone through `steps` from the manifest `before`, unless it stopped. -/
structure Walked (s : CompanySetting) (key templateId : String) (before : InstanceManifest)
    (steps : List PlanStep) (st : ProvisionState) : Prop where
  filed : FiledManifest s key templateId st.manifest
  template : st.manifest.templateId = templateId
  live : st.manifest.Live
  incomplete : st.manifest.status ≠ .complete
  done : st.failed = false → st.cancelled = false → ∀ k,
    (before.completedKey k).isSome = true ∨ (∃ step ∈ steps, step.key = k) →
      (st.manifest.completedKey k).isSome = true

/-- A walk that stopped promises nothing about its steps. -/
theorem Walked.stopped {before : InstanceManifest} {steps : List PlanStep} {st : ProvisionState}
    (hfiled : FiledManifest s key templateId st.manifest)
    (htemplate : st.manifest.templateId = templateId) (hlive : st.manifest.Live)
    (hincomplete : st.manifest.status ≠ .complete)
    (hstopped : st.failed = true ∨ st.cancelled = true) :
    Walked s key templateId before steps st where
  filed := hfiled
  template := htemplate
  live := hlive
  incomplete := hincomplete
  done hfailed hcancelled := by simp [hfailed, hcancelled] at hstopped

/-- The executor rests between two steps. -/
abbrev Provisioning (s : CompanySetting) (i : CompanyThread) (key templateId : String)
    (m : InstanceManifest) (w : CompanyWorld) : Prop :=
  Resting s i key templateId w ∧ Carries s key m w

theorem stable_provisioning : LiveStable s i (Provisioning s i key templateId m) :=
  stable_carries stable_resting fun _ h => h.locked

theorem Carries.of_runId {m m' : InstanceManifest} {w : CompanyWorld} (h : Carries s key m w)
    (hlive : m.Live) (hrun : m'.runId = m.runId) : Carries s key m' w :=
  fun hrec hissued _ => by
    rw [hrun]
    exact h hrec hissued hlive

theorem FiledManifest.push (h : FiledManifest s key templateId m) (hne : m.status ≠ .complete)
    (step : CompletedStep) : FiledManifest s key templateId (m.push step) where
  instanceId := h.instanceId
  key_eq := h.key_eq
  complete hc := absurd hc hne
  templateId := h.templateId

/-- What one step of the plan leaves: the walk goes on only when the step is recorded. -/
def StepDone (s : CompanySetting) (i : CompanyThread) (key templateId : String)
    (before : InstanceManifest) (step : PlanStep) (out : ProvisionState × Bool)
    (w : CompanyWorld) : Prop :=
  Provisioning s i key templateId out.1.manifest w ∧
    Walked s key templateId before [step] out.1 ∧
      (out.2 = true ↔ out.1.failed = false ∧ out.1.cancelled = false)

theorem liveTriple_attemptStep {P : CompanyWorld → Prop} (hP : LiveStable s i P) (step : PlanStep) :
    LiveTriple s i P (attemptStep step) (fun _ => P) E := by
  cases step with
  | createGroup _ _ _ _ _ | createStore _ _ _ _ _ _ _ | createTaskList _ _ _ _ _ =>
    exact Task.triple_bind (liveTriple_quiet rfl hP) fun _ => Task.triple_pure hP fun _ _ h => h
  | writeSymphonyConfig _ | writeWorkflowMd _ => exact Task.triple_pure hP fun _ _ h => h

variable {st : ProvisionState} {before : InstanceManifest} {steps : List PlanStep}

/-- The requests of a save. -/
def CompanyRequest.isManifest : CompanyRequest → Bool
  | .loadManifest _ _ | .openTemporary _ | .writeTemporary _ _ _ | .renameTemporary _ _ => true
  | _ => false

theorem issues_ask {request : CompanyRequest} (h : request.isManifest = true) :
    Task.Issues (fun r : CompanyRequest => r.isManifest = true) (ask request) :=
  Task.issues_perform h

theorem issues_save (key : String) (m : InstanceManifest) :
    Task.Issues (fun request : CompanyRequest => request.isManifest = true) (save key m) := by
  have hrename : Task.Issues (fun request : CompanyRequest => request.isManifest = true)
      (renameOver key m) := by
    apply Task.issues_bind (issues_ask rfl)
    intro answer
    cases answer with
    | ok _ | error _ => exact Task.issues_pure _
  have hwrite : ∀ file, Task.Issues (fun request : CompanyRequest => request.isManifest = true)
      (writeOver key m file) := by
    intro file
    apply Task.issues_bind (issues_ask rfl)
    intro answer
    cases answer with
    | ok _ => exact hrename
    | error _ => exact Task.issues_pure _
  have hreplace : Task.Issues (fun request : CompanyRequest => request.isManifest = true)
      (replaceManifest key m) := by
    apply Task.issues_bind (issues_ask rfl)
    intro answer
    cases answer with
    | ok file => exact hwrite file
    | error _ => exact Task.issues_pure _
  apply Task.issues_ite
  · exact fun _ => hreplace
  · intro _
    apply Task.issues_bind (issues_ask rfl)
    intro answer
    apply Task.issues_ite
    · exact fun _ => Task.issues_pure _
    · exact fun _ => hreplace

theorem keeps_of_isManifest {w u : CompanyWorld} {request : CompanyRequest}
    {answer : request.Reply} (hmanifest : request.isManifest = true)
    (h : w.Commits i request answer u) :
    u.app = w.app ∧ u.lock = w.lock ∧ u.issued = w.issued := by
  obtain ⟨-, v, hv, rfl⟩ := h
  cases request with
  | loadManifest key guard =>
    obtain ⟨-, rfl⟩ := hv
    exact ⟨rfl, rfl, rfl⟩
  | openTemporary key =>
    cases answer with
    | ok file =>
      obtain ⟨-, rfl⟩ := hv
      exact ⟨rfl, rfl, rfl⟩
    | error _ =>
      obtain rfl := hv
      exact ⟨rfl, rfl, rfl⟩
  | writeTemporary key file m =>
    cases answer with
    | ok _ | error _ =>
      obtain ⟨body, -, rfl⟩ := hv
      exact ⟨rfl, rfl, rfl⟩
  | renameTemporary key m =>
    cases answer with
    | ok _ =>
      obtain ⟨file, -, rfl⟩ := hv
      exact ⟨rfl, rfl, rfl⟩
    | error _ =>
      obtain rfl := hv
      exact ⟨rfl, rfl, rfl⟩
  | _ => cases hmanifest

/-- A save of the executor keeps what it carries, whether it succeeds or not. -/
theorem liveTriple_checkpoint {m' : InstanceManifest} (hm : FiledManifest s key templateId m')
    (hlive : m.Live) (hrun : m'.runId = m.runId) :
    LiveTriple s i (Provisioning s i key templateId m) (save key m')
      (fun out w => Recorded s i key templateId m' out w ∧ Carries s key m w) (Exit s i) := by
  have hsave : LiveTriple s i (Provisioning s i key templateId m) (save key m')
      (Recorded s i key templateId m') (Exit s i) :=
    (liveTriple_saveResting hm).weaken fun _ _ hpre => ⟨hpre.1, hpre.2.of_runId hlive hrun⟩
  have hstable : LiveStable s i fun w => Locked i w ∧ Carries s key m w :=
    stable_carries (fun _ _ _ hrely halive h => (h.step hrely halive).1) fun _ h => h
  have hframe := hsave.frame hstable (fun request hmanifest w answer u hcommit h => by
    obtain ⟨happ, hlock, hissued⟩ := keeps_of_isManifest hmanifest hcommit.2
    exact ⟨⟨happ.trans h.1.app, hlock.trans h.1.lock⟩,
      fun hrec hne => h.2 hrec (hissued ▸ hne)⟩) (issues_save key m')
  apply hframe.conseq
  · exact fun _ _ hpre => ⟨hpre, hpre.1.locked, hpre.2⟩
  · exact fun _ _ _ h => ⟨h.1, h.2.2⟩
  · exact fun _ _ _ h => h.1

theorem liveTriple_checkpointStep {step : PlanStep} (res : Option EnsureResult)
    (hst : Walked s key templateId st.manifest [] st) (hfailed : st.failed = false)
    (hcancelled : st.cancelled = false) :
    LiveTriple s i (Provisioning s i key templateId st.manifest) (checkpointStep key st step res)
      (StepDone s i key templateId st.manifest step) (Exit s i) := by
  have hpushed : FiledManifest s key templateId (st.manifest.push (stepRecord step res)) :=
    hst.filed.push hst.incomplete _
  have hcarries : ∀ {w}, Carries s key st.manifest w →
      Carries s key (st.manifest.push (stepRecord step res)) w :=
    fun h => h.of_runId hst.live rfl
  apply Task.triple_bind (liveTriple_checkpoint hpushed hst.live rfl)
  intro out
  cases out with
  | ok _ =>
    apply Task.triple_pure (stable_carries stable_know fun _ h => h.locked)
    intro w _ h
    have hdone : ∀ k, (st.manifest.completedKey k).isSome = true ∨
        (∃ x ∈ [step], x.key = k) →
        ((st.manifest.push (stepRecord step res)).completedKey k).isSome = true := by
      intro k hk
      apply InstanceManifest.completedKey_push
      rcases hk with hk | ⟨x, hx, rfl⟩
      · exact .inl hk
      · rw [List.mem_singleton.mp hx]
        exact .inr (stepRecord_key step res)
    exact ⟨⟨h.1.toResting, hcarries h.2⟩,
      ⟨hpushed, hst.template, hst.live, hst.incomplete, fun _ _ =>
        hdone⟩, by simp [hfailed, hcancelled]⟩
  | error error =>
    have hrest : LiveStable s i fun w => Recorded s i key templateId
        (st.manifest.push (stepRecord step res)) (.error error) w ∧ Carries s key st.manifest w :=
      stable_carries stable_resting fun _ h => h.locked
    have hfail : ∀ message, LiveTriple s i
        (fun w => Recorded s i key templateId (st.manifest.push (stepRecord step res))
          (.error error) w ∧ Carries s key st.manifest w)
        (pure ({ st with
          manifest := { st.manifest.push (stepRecord step res) with status := .resumable }
          steps := st.steps ++ [failedOutcome step (stepRecord step res).localId message]
          failed := true
          checkpointFailure := some message }, false) : CompanyTask (ProvisionState × Bool))
        (StepDone s i key templateId st.manifest step) (Exit s i) := by
      intro message
      apply Task.triple_pure hrest
      intro w _ h
      exact ⟨⟨h.1, h.2.of_runId hst.live rfl⟩,
        .stopped (hpushed.withStatus (by decide)) hst.template (by simp [InstanceManifest.Live])
          (by simp) (.inl rfl), by simp⟩
    cases error with
    | cancelled =>
      apply Task.triple_pure hrest
      intro w _ h
      exact ⟨⟨h.1, hcarries h.2⟩,
        .stopped hpushed hst.template hst.live hst.incomplete (.inr rfl), by simp⟩
    | notFound => exact hfail _
    | decode _ | io _ => exact hfail _

theorem liveTriple_recordFailedStep {step : PlanStep} (message : String)
    (hst : Walked s key templateId before steps st) :
    LiveTriple s i (Provisioning s i key templateId st.manifest)
      (recordFailedStep key st step message)
      (fun out w => Provisioning s i key templateId out.manifest w ∧
        Walked s key templateId before steps out ∧ ¬(out.failed = false ∧ out.cancelled = false))
      (Exit s i) := by
  have hfiled : FiledManifest s key templateId { st.manifest with status := .resumable } :=
    hst.filed.withStatus (by decide)
  have hended : ∀ {out : ProvisionState} {w : CompanyWorld},
      out.manifest = { st.manifest with status := .resumable } →
      out.failed = true ∨ out.cancelled = true →
      Resting s i key templateId w ∧ Carries s key st.manifest w →
      Provisioning s i key templateId out.manifest w ∧ Walked s key templateId before steps out ∧
        ¬(out.failed = false ∧ out.cancelled = false) := by
    intro out w hout hend h
    refine ⟨⟨h.1, h.2.of_runId hst.live (by rw [hout])⟩, .stopped ?_ ?_ ?_ ?_ hend, ?_⟩
    · rw [hout]
      exact hfiled
    · rw [hout]
      exact hst.template
    · rw [hout]
      simp [InstanceManifest.Live]
    · rw [hout]
      simp
    · rcases hend with hend | hend <;> simp [hend]
  apply Task.triple_bind (liveTriple_checkpoint hfiled hst.live rfl)
  intro out
  cases out with
  | ok _ =>
    apply Task.triple_pure (stable_carries stable_know fun _ h => h.locked)
    exact fun w _ h => hended rfl (.inl rfl) ⟨h.1.toResting, h.2⟩
  | error error =>
    have hrest : LiveStable s i fun w => Recorded s i key templateId
        { st.manifest with status := .resumable } (.error error) w ∧
          Carries s key st.manifest w :=
      stable_carries stable_resting fun _ h => h.locked
    cases error with
    | cancelled => exact Task.triple_pure hrest fun w _ h => hended rfl (.inr rfl) h
    | notFound => exact Task.triple_pure hrest fun w _ h => hended rfl (.inl rfl) h
    | decode _ | io _ => exact Task.triple_pure hrest fun w _ h => hended rfl (.inl rfl) h

theorem liveTriple_provisionStep (step : PlanStep)
    (hst : Walked s key templateId st.manifest [] st) (hfailed : st.failed = false)
    (hcancelled : st.cancelled = false) :
    LiveTriple s i (Provisioning s i key templateId st.manifest) (provisionStep key st step)
      (StepDone s i key templateId st.manifest step) (Exit s i) := by
  unfold provisionStep
  cases hdone : st.manifest.completedKey step.key with
  | some done =>
    apply Task.triple_pure stable_provisioning
    intro w _ h
    refine ⟨h, ⟨hst.filed, hst.template, hst.live, hst.incomplete, fun _ _ k hk => ?_⟩,
      by simp [hfailed, hcancelled]⟩
    rcases hk with hk | ⟨x, hx, rfl⟩
    · exact hk
    · rw [List.mem_singleton.mp hx, hdone]
      rfl
  | none =>
    apply Task.triple_bind (liveTriple_attemptStep stable_provisioning step)
    intro answer
    cases answer with
    | ok res => exact liveTriple_checkpointStep res hst hfailed hcancelled
    | error message =>
      apply Task.triple_bind (liveTriple_recordFailedStep message hst)
      intro out
      apply Task.triple_pure (stable_provisioning.and (stable_const _))
      intro w _ h
      have hend : out.failed = true ∨ out.cancelled = true := by
        by_contra hnone
        exact h.2.2 (by simpa using hnone)
      refine ⟨h.1, .stopped h.2.1.filed h.2.1.template h.2.1.live h.2.1.incomplete hend, ?_⟩
      simpa using h.2.2

theorem Walked.step {done : List PlanStep} {step : PlanStep} {next : ProvisionState}
    (h : Walked s key templateId before done st) (hfailed : st.failed = false)
    (hcancelled : st.cancelled = false)
    (hnext : Walked s key templateId st.manifest [step] next) :
    Walked s key templateId before (done ++ [step]) next where
  filed := hnext.filed
  template := hnext.template
  live := hnext.live
  incomplete := hnext.incomplete
  done hf hc k hk := by
    apply hnext.done hf hc k
    rcases hk with hk | ⟨x, hx, rfl⟩
    · exact .inl (h.done hfailed hcancelled k (.inl hk))
    · rcases List.mem_append.mp hx with hx | hx
      · exact .inl (h.done hfailed hcancelled _ (.inr ⟨x, hx, rfl⟩))
      · exact .inr ⟨x, hx, rfl⟩

theorem liveTriple_provisionSteps {instanceId : String} {observed : ℕ} (rest : List PlanStep) :
    ∀ {done : List PlanStep} {st : ProvisionState}, Walked s key templateId before done st →
      st.failed = false → st.cancelled = false →
      LiveTriple s i (Provisioning s i key templateId st.manifest)
        (provisionSteps key instanceId observed rest st)
        (fun out w => Provisioning s i key templateId out.manifest w ∧
          Walked s key templateId before (done ++ rest) out) (Exit s i) := by
  induction rest with
  | nil =>
    intro done st hst _ _
    apply Task.triple_pure stable_provisioning
    intro w _ h
    rw [List.append_nil]
    exact ⟨h, hst⟩
  | cons step rest ih =>
    intro done st hst hfailed hcancelled
    apply Task.triple_bind (liveTriple_reload stable_provisioning)
    intro cancelled
    apply Task.triple_ite
    · intro _
      apply Task.triple_pure stable_provisioning
      exact fun w _ h =>
        ⟨h, .stopped hst.filed hst.template hst.live hst.incomplete (.inr rfl)⟩
    · intro _
      have hself : Walked s key templateId st.manifest [] st :=
        ⟨hst.filed, hst.template, hst.live, hst.incomplete, fun _ _ k hk => by simpa using hk⟩
      apply Task.triple_bind (liveTriple_provisionStep step hself hfailed hcancelled)
      intro next
      apply Task.triple_pull
      rintro ⟨hnext, hgoes⟩
      have hwalked := hst.step hfailed hcancelled hnext
      apply Task.triple_ite
      · intro hmore
        obtain ⟨hf, hc⟩ := hgoes.mp hmore
        rw [show done ++ step :: rest = done ++ [step] ++ rest by simp]
        exact ih hwalked hf hc
      · intro hend
        apply Task.triple_pure stable_provisioning
        intro w _ h
        refine ⟨h, .stopped hnext.filed hnext.template hnext.live hnext.incomplete ?_⟩
        by_contra hnone
        exact hend (hgoes.mpr (by simpa using hnone))

/-- The manifest belongs to the template and every step of the plan is recorded. -/
structure Provisioned (templateId : String) (steps : List PlanStep) (m : InstanceManifest) :
    Prop where
  template : m.templateId = templateId
  steps : ∀ step ∈ steps, (m.completedKey step.key).isSome = true

theorem liveTriple_resolveProvisioning (hst : Walked s key templateId before steps st) :
    LiveTriple s i (Provisioning s i key templateId st.manifest) (resolveProvisioning key st)
      (fun out w => Resting s i key templateId w ∧ (out.1 = .complete →
        Know s i key templateId (Provisioned templateId steps) w)) (Exit s i) := by
  have hend : ∀ {out : ManifestStatus × Option String}, out.1 ≠ .complete →
      LiveTriple s i (Resting s i key templateId)
        (pure out : CompanyTask (ManifestStatus × Option String))
        (fun out w => Resting s i key templateId w ∧ (out.1 = .complete →
          Know s i key templateId (Provisioned templateId steps) w)) (Exit s i) :=
    fun hne => Task.triple_pure stable_resting fun _ _ h => ⟨h, fun hc => absurd hc hne⟩
  apply Task.triple_ite
  · exact fun _ => (hend (by simp)).weaken fun _ _ h => h.1
  · intro hcancelled
    apply Task.triple_ite
    · exact fun _ => (hend hst.incomplete).weaken fun _ _ h => h.1
    · intro hfailed
      have hfiled : FiledManifest s key templateId { st.manifest with status := .inProgress } :=
        hst.filed.withStatus (by decide)
      apply Task.triple_bind (liveTriple_checkpoint hfiled hst.live rfl)
      intro out
      cases out with
      | ok _ =>
        apply Task.triple_pure (stable_carries stable_know fun _ h => h.locked)
        intro w _ h
        refine ⟨h.1.toResting, fun _ => h.1.mono ?_⟩
        rintro v _ rfl
        refine ⟨hst.template, fun step hstep => ?_⟩
        exact hst.done (by simpa using hfailed) (by simpa using hcancelled) step.key
          (.inr ⟨step, hstep, rfl⟩)
      | error error =>
        cases error with
        | cancelled => exact (hend (by simp)).weaken fun _ _ h => h.1
        | notFound => exact (hend (by simp)).weaken fun _ _ h => h.1
        | decode _ | io _ => exact (hend (by simp)).weaken fun _ _ h => h.1

theorem FiledManifest.starting {plan : InstantiationPlan}
    (hkey : plan.instanceId = key) (hfixed : instanceKey key = key)
    {answer : Except ManifestError InstanceManifest}
    (h : ∀ m, answer = .ok m → FiledManifest s key plan.templateId m) :
    FiledManifest s key plan.templateId (plan.startingManifest answer) := by
  have hfresh : FiledManifest s key plan.templateId
      (.fresh plan.instanceId plan.templateId) :=
    { instanceId := hkey
      key_eq := hfixed
      complete := fun hc => by cases hc
      templateId := fun _ => rfl }
  cases answer with
  | error _ => exact hfresh
  | ok m =>
    simp only [InstantiationPlan.startingManifest]
    split_ifs
    · exact h m rfl
    · exact hfresh

theorem startingManifest_templateId (plan : InstantiationPlan)
    (answer : Except ManifestError InstanceManifest) :
    (plan.startingManifest answer).templateId = plan.templateId := by
  cases answer with
  | error _ => rfl
  | ok m =>
    simp only [InstantiationPlan.startingManifest]
    split_ifs with hmatch
    · exact hmatch.2
    · rfl

theorem reopened_facts (m : InstanceManifest) :
    (reopened m).templateId = m.templateId ∧ (reopened m).runId = m.runId ∧
      (reopened m).status ≠ .complete ∧ (m.Live → (reopened m).Live) := by
  unfold reopened InstanceManifest.Live
  split_ifs with hc
  · simp
  · exact ⟨rfl, rfl, hc, id⟩

theorem FiledManifest.reopened (h : FiledManifest s key templateId m) :
    FiledManifest s key templateId (reopened m) := by
  unfold Company.reopened
  split_ifs with hc
  · exact h.withStatus (by decide)
  · exact h

theorem liveTriple_instantiateCompany (plan : InstantiationPlan) (hkey : plan.instanceId = key)
    (hfixed : instanceKey key = key) :
    LiveTriple s i (Resting s i key plan.templateId) (instantiateCompany key plan)
      (fun out w => Resting s i key plan.templateId w ∧ (out.status = .complete →
        Know s i key plan.templateId (Provisioned plan.templateId plan.steps) w)) (Exit s i) := by
  -- the fresh manifest is only used where nothing is promised about the issues
  have hload : LiveTriple s i (Resting s i key plan.templateId) (load key)
      (fun answer w => Provisioning s i key plan.templateId (plan.startingManifest answer) w ∧
        FiledManifest s key plan.templateId (plan.startingManifest answer)) (Exit s i) := by
    apply liveTriple_load.strengthen
    intro answer w _ h
    cases answer with
    | error _ =>
      exact ⟨⟨h.1, fun hrec => absurd hrec.toReadable h.2⟩,
        .starting hkey hfixed fun _ hm => by cases hm⟩
    | ok m =>
      refine ⟨⟨h.1.1, fun hrec => ?_⟩, .starting hkey hfixed fun _ hm => by cases hm; exact h.2⟩
      have hmatch : m.instanceId = plan.instanceId ∧ m.templateId = plan.templateId :=
        ⟨h.2.instanceId.trans hkey.symm, h.2.templateId hrec.toReadable⟩
      simp only [InstantiationPlan.startingManifest, if_pos hmatch]
      exact h.1.2 hrec
  apply Task.triple_bind hload
  intro answer
  apply Task.triple_pull
  intro hfiled
  apply Task.triple_ite
  · intro _
    apply Task.triple_pure stable_provisioning
    exact fun _ _ h => ⟨h.1, fun hc => by cases hc⟩
  · intro hlive
    obtain ⟨htemplate, hrun, hincomplete, hreopened⟩ :=
      reopened_facts (plan.startingManifest answer)
    have hwalked : Walked s key plan.templateId (reopened (plan.startingManifest answer)) []
        ⟨reopened (plan.startingManifest answer), [], false, false, none⟩ :=
      { filed := hfiled.reopened
        template := htemplate.trans (startingManifest_templateId plan answer)
        live := hreopened hlive
        incomplete := hincomplete
        done := fun _ _ k hk => by simpa using hk }
    apply Task.triple_bind ((liveTriple_provisionSteps plan.steps hwalked rfl rfl).weaken
      fun _ _ h => ⟨h.1, h.2.of_runId hlive hrun⟩)
    intro st
    apply Task.triple_pull
    intro hst
    apply Task.triple_bind (liveTriple_resolveProvisioning hst)
    intro resolved
    exact Task.triple_pure stable_resting_know fun _ _ h => h

end Executor

end Buzz.Company
