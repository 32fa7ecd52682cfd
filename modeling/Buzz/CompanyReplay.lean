import Mathlib.Control.Monad.Basic
import Buzz.CompanyCommands
import Buzz.ScriptedRuns
import Buzz.TaskLogic

/-!
# Replaying an instantiation

One executor at a time walks the plan of an instance, and any number of cancels of
the instance run beside it, without a lock and through the same temporary file. The
executor may fail at every call and every save, every thread may die anywhere, and
the executor may be started again as often as one likes. The world records every
call to the provisioner with the keys that the manifest held then, and the thread
that is in the middle of a save.
-/

namespace Buzz.Company

open EffectProgram ReplacedFile

section World

def CompanyRequest.provisions : CompanyRequest → Bool
  | .ensureGroup _ => true
  | .ensureStore _ => true
  | .ensureTaskList _ => true
  | _ => false

/-- The resource that a call has made or found. -/
def CompanyRequest.ensured : (request : CompanyRequest) → request.Reply → Option EnsureResult
  | .ensureGroup _, .ok res => some res
  | .ensureStore _, .ok res => some res
  | .ensureTaskList _, .ok res => some res
  | _, _ => none

/-- The call that a step makes, if it makes one. -/
def PlanStep.request : PlanStep → Option CompanyRequest
  | .createGroup key _ name visibility purpose =>
      some (.ensureGroup ⟨name, purpose.getD "", visibility, key⟩)
  | .createStore _ _ name topic _ policy _ => some (.ensureStore ⟨name, topic, policy⟩)
  | .createTaskList _ _ name topic _ => some (.ensureTaskList ⟨name, topic⟩)
  | .writeSymphonyConfig _ => none
  | .writeWorkflowMd _ => none

def InstanceManifest.keys (manifest : InstanceManifest) : List String :=
  manifest.completed.map (·.key)

/-- The keys that the manifest on disk has. -/
def CompanyWorld.recorded (w : CompanyWorld) (key : String) : List String :=
  match w.manifest key with
  | some manifest => manifest.keys
  | none => []

structure ProvisionCall where
  request : CompanyRequest
  recorded : List String

inductive ReplayThread where
  | executor
  | cancel (n : ℕ)
  deriving DecidableEq

def ReplayThread.company : ReplayThread → CompanyThread
  | executor => ⟨0, 0⟩
  | cancel n => ⟨0, n + 1⟩

/-- Whether the thread is in the middle of a save after the answer. What a cancel saves is what it
has loaded, so its save begins with the load. -/
def CompanyRequest.saves : ReplayThread → (request : CompanyRequest) → request.Reply → Bool
  | .cancel _, .loadManifest _ _, .ok manifest => manifest.status != .cancelled
  | .cancel _, .now, some _ => true
  | _, .openTemporary _, .ok _ => true
  | _, .writeTemporary _ _ _, .ok _ => true
  | _, _, _ => false

/-- `started` tells that the executor has taken its first step. `calls` and `saver`, the thread in
the middle of a save, are kept for the statements. -/
structure ReplayWorld (D : Type) where
  company : CompanyWorld
  daemon : D
  started : Bool
  calls : List ProvisionCall
  saver : Option ReplayThread

/-- `replies` is what the provisioner may answer and how that changes the daemon. `orderly` asks
that the first load of an executor fails only where there is no manifest, and that a cancel overlaps
no other save between its load and the end of its own. -/
structure ReplaySetting (D : Type) where
  key : String
  plan : InstantiationPlan
  replies : D → (request : CompanyRequest) → request.Reply → D → Prop
  orderly : Bool

namespace ReplayWorld

variable {D : Type} (w : ReplayWorld D)

def FindsManifest : (request : CompanyRequest) → request.Reply → Prop
  | .loadManifest key _, .error _ => w.company.manifest key = none
  | _, _ => True

structure Orders (i : ReplayThread) (request : CompanyRequest) (answer : request.Reply) : Prop where
  finds : i = .executor → w.started = false → w.FindsManifest request answer
  alone : request.saves i answer = true → w.saver = none ∨ w.saver = some i

/-- The thread has ended, in whatever way. -/
def ended (i : ReplayThread) : ReplayWorld D :=
  { w with
    started := w.started && i != .executor
    saver := if w.saver = some i then none else w.saver }

end ReplayWorld

abbrev InstantiateReturn : Type :=
  Except CompanyExit InstantiateOutcome × List CompanyInstantiationError

@[reducible]
def ReplayReturn : ReplayThread → Type
  | .executor => InstantiateReturn
  | .cancel _ => Except CompanyExit Unit × List CompanyInstantiationError

variable {D : Type}

/-- What becomes of the daemon and of the records. -/
structure ReplaySetting.Serves (s : ReplaySetting D) (i : ReplayThread) (w : ReplayWorld D)
    (request : CompanyRequest) (answer : request.Reply) (u : ReplayWorld D) : Prop where
  started : u.started = (w.started || i == .executor)
  saver : u.saver =
    if request.saves i answer then some i else if w.saver = some i then none else w.saver
  call : request.provisions = true → s.replies w.daemon request answer u.daemon ∧
    u.calls = ⟨request, w.company.recorded s.key⟩ :: w.calls
  other : request.provisions = false → u.daemon = w.daemon ∧ u.calls = w.calls

def ReplaySetting.Launches (s : ReplaySetting D) (w : ReplayWorld D) : (i : ReplayThread) →
    Program CompanyRequest CompanyRequest.Reply (ReplayReturn i) → Prop
  | .executor, p => w.started = false ∧ p = instantiateCompany s.key s.plan []
  | .cancel _, p =>
      ∃ instanceId, instanceKey instanceId = s.key ∧ p = cancelCompanyRun instanceId []

def replaySystem (s : ReplaySetting D) :
    System ReplayThread (ReplayWorld D) CompanyRequest CompanyRequest.Reply ReplayReturn where
  commits i w request answer u := (s.orderly = true → w.Orders i request answer) ∧
    w.company.Answers i.company request answer u.company ∧ s.Serves i w request answer u
  launches i w p := s.Launches w i p
  stops i w u := u = w.ended i
  moves _ _ := False

abbrev ReplayPool (D : Type) : Type :=
  Pool ReplayThread (ReplayWorld D) CompanyRequest CompanyRequest.Reply ReplayReturn

/-- A manifest of the instance that the plan is for. -/
structure InstantiationPlan.Owns (plan : InstantiationPlan) (manifest : InstanceManifest) :
    Prop where
  instanceId : manifest.instanceId = plan.instanceId
  templateId : manifest.templateId = plan.templateId
  nodup : manifest.keys.Nodup

/-- Nothing is under way, and the manifest, if there is one, is one of the plan. -/
structure ReplaySetting.Ready (s : ReplaySetting D) (pool : ReplayPool D) : Prop where
  idle : ∀ i, pool.threads i = none
  started : pool.world.started = false
  calls : pool.world.calls = []
  apart : (pool.world.company.slots s.key).Apart
  whole : (pool.world.company.slots s.key).main ≠ none → pool.world.company.manifest s.key ≠ none
  owns : ∀ manifest, pool.world.company.manifest s.key = some manifest → s.plan.Owns manifest

end World

section Invariant

variable {D : Type} (s : ReplaySetting D) (fits : D → CompletedStep → Prop)

/-- What every record is known to satisfy: `fits` is kept by the daemon and holds of what the
provisioner has just made. -/
structure Fitting : Prop where
  kept : ∀ d request answer d' step, s.replies d request answer d' → fits d step → fits d' step
  made : ∀ d request answer d' step res, s.replies d request answer d' → step ∈ s.plan.steps →
    step.request = some request → request.ensured answer = some res →
    fits d' (stepRecord step (some res))
  written : ∀ d step, step ∈ s.plan.steps → step.request = none → fits d (stepRecord step none)

/-- A call is made for a step that is not recorded. -/
def ProvisionCall.Due (plan : InstantiationPlan) (call : ProvisionCall) : Prop :=
  ∃ step ∈ plan.steps, step.request = some call.request ∧ step.key ∉ call.recorded

/-- A manifest of the plan whose records hold of the daemon. -/
structure Genuine (d : D) (manifest : InstanceManifest) : Prop where
  owns : s.plan.Owns manifest
  fits : ∀ step ∈ manifest.completed, fits d step

structure ReplayInvariant (w : ReplayWorld D) : Prop where
  genuine : ∀ manifest, w.company.manifest s.key = some manifest →
    Genuine s fits w.daemon manifest
  apart : s.orderly = true → (w.company.slots s.key).Apart
  whole : s.orderly = true → (w.company.slots s.key).main ≠ none → w.company.manifest s.key ≠ none
  calls : s.orderly = true → ∀ call ∈ w.calls, call.Due s.plan

/-- What a rename puts in place is genuine. -/
def Renameable (w : ReplayWorld D) : Prop :=
  ∀ manifest, (w.company.slots s.key).temporaryValue = some manifest →
    Genuine s fits w.daemon manifest

/-- What the others leave alone: the files while the thread is saving, and whatever the executor
knows of the daemon and of the keys on record. -/
structure ReplayRely (i : ReplayThread) (w u : ReplayWorld D) : Prop where
  grows : ∀ step, fits w.daemon step → fits u.daemon step
  renameable : Renameable s fits w → Renameable s fits u
  executor : i = .executor → u.daemon = w.daemon ∧ u.started = w.started ∧
    (s.orderly = true → u.company.recorded s.key = w.company.recorded s.key)
  saver : s.orderly = true → w.saver = some i →
    u.saver = some i ∧ u.company.slots s.key = w.company.slots s.key

def StepRecorded (w : ReplayWorld D) (step : PlanStep) : Prop :=
  step.key ∈ w.company.recorded s.key

def ReplayKeeps (w u : ReplayWorld D) : Prop :=
  s.orderly = true → ∀ key ∈ w.company.recorded s.key, key ∈ u.company.recorded s.key

structure ReplayGuar (i : ReplayThread) (w u : ReplayWorld D) : Prop where
  keeps : ReplayKeeps s w u
  others : ∀ j, j ≠ i → ReplayRely s fits j w u

/-- What the caller learns from the outcome. -/
structure OutcomeTold (outcome : InstantiateOutcome) (w : ReplayWorld D) : Prop where
  complete : s.orderly = true → outcome.status = .complete →
    ∀ step ∈ s.plan.steps, StepRecorded s w step
  recorded : s.orderly = true → (∀ step ∈ s.plan.steps, StepRecorded s w step) →
    outcome.status ≠ .cancelled → outcome.manifestError = none → outcome.status = .complete

/-- The groups of the outcome are those of recorded steps, and a complete outcome has them all. -/
structure GroupsTold (fits : D → CompletedStep → Prop) (outcomes : List StepOutcome)
    (walked : List PlanStep) (d : D) : Prop where
  sound : ∀ outcome ∈ outcomes, outcome.kind = "group" → ∀ realized,
    outcome.resourceId = some realized → ∃ step ∈ s.plan.steps, step.kindLabel = "group" ∧
      outcome.localId = step.localTarget ∧
      ∃ done, done.key = step.key ∧ done.resourceId = realized ∧ fits d done
  total : ∀ step ∈ walked, step.kindLabel = "group" → ∃ outcome ∈ outcomes,
    outcome.kind = "group" ∧ outcome.localId = step.localTarget ∧ outcome.resourceId.isSome = true

def ReplayPost : (i : ReplayThread) → ReplayReturn i → ReplayWorld D → Prop
  | .executor, result, w => ∃ outcome, result.1 = .ok outcome ∧ OutcomeTold s outcome w ∧
      (outcome.status = .complete → GroupsTold s fits outcome.steps s.plan.steps w.daemon)
  | .cancel _, _, _ => True

variable {s fits} {w u v : ReplayWorld D} {i : ReplayThread}

theorem recorded_eq_of_manifest {key : String} {a b : CompanyWorld}
    (h : b.manifest key = a.manifest key) : b.recorded key = a.recorded key := by
  unfold CompanyWorld.recorded
  rw [h]

theorem recorded_eq_of_slot {key : String} {a b : CompanyWorld} (h : b.slots key = a.slots key) :
    b.recorded key = a.recorded key :=
  recorded_eq_of_manifest (by rw [CompanyWorld.manifest, h]; rfl)

theorem recorded_of_manifest {key : String} {a : CompanyWorld} {manifest : InstanceManifest}
    (h : a.manifest key = some manifest) : a.recorded key = manifest.keys := by
  simp only [CompanyWorld.recorded, h]

theorem Genuine.grow {d d' : D} {manifest : InstanceManifest} (h : Genuine s fits d manifest)
    (hgrows : ∀ step, fits d step → fits d' step) : Genuine s fits d' manifest :=
  ⟨h.owns, fun step hstep => hgrows step (h.fits step hstep)⟩

theorem Renameable.same (h : Renameable s fits w) (hgrows : ∀ step, fits w.daemon step →
    fits u.daemon step) (hslot : u.company.slots s.key = w.company.slots s.key) :
    Renameable s fits u := by
  intro manifest hmanifest
  rw [hslot] at hmanifest
  exact (h manifest hmanifest).grow hgrows

theorem rely_trans (huv : ReplayRely s fits i u v) (hvw : ReplayRely s fits i v w) :
    ReplayRely s fits i u w where
  grows step h := hvw.grows step (huv.grows step h)
  renameable h := hvw.renameable (huv.renameable h)
  executor hi := by
    obtain ⟨hdaemon, hstarted, hrecorded⟩ := huv.executor hi
    obtain ⟨hdaemon', hstarted', hrecorded'⟩ := hvw.executor hi
    exact ⟨hdaemon'.trans hdaemon, hstarted'.trans hstarted, fun ho =>
      (hrecorded' ho).trans (hrecorded ho)⟩
  saver ho hsaver := by
    obtain ⟨hkept, hslot⟩ := huv.saver ho hsaver
    obtain ⟨hkept', hslot'⟩ := hvw.saver ho hkept
    exact ⟨hkept', hslot'.trans hslot⟩

theorem rely_ended {j : ReplayThread} (hij : i ≠ j) : ReplayRely s fits j w (w.ended i) where
  grows _ h := h
  renameable h := h.same (fun _ h => h) rfl
  executor hj := by
    refine ⟨rfl, ?_, fun _ => rfl⟩
    have hne : i ≠ .executor := fun hi => hij (hi.trans hj.symm)
    simp [ReplayWorld.ended, hne]
  saver _ hsaver := by
    refine ⟨?_, rfl⟩
    have hne : ¬w.saver = some i := fun hi => hij (Option.some_inj.mp (hi.symm.trans hsaver))
    rw [ReplayWorld.ended, if_neg hne]
    exact hsaver

variable (s fits)

def replayDiscipline : Discipline (replaySystem s) where
  valid := ReplayInvariant s fits
  rely := ReplayRely s fits
  guar := ReplayGuar s fits
  change := ReplayKeeps s
  post := ReplayPost s fits
  rely_refl _ _ := ⟨fun _ h => h, id, fun _ => ⟨rfl, rfl, fun _ => rfl⟩, fun _ h => ⟨h, rfl⟩⟩
  rely_trans _ _ _ _ := rely_trans
  guar_rely _ j _ _ hij _ _ h := h.others j hij.symm
  guar_change _ _ _ _ _ h := h.keeps
  change_refl _ _ _ h := h
  stops_valid i w u hw hstop := by
    subst hstop
    exact ⟨hw.genuine, hw.apart, hw.whole, hw.calls⟩
  stops_rely i j w u hij hw hstop := by
    subst hstop
    exact rely_ended hij
  stops_change _ w u hw hstop := by
    subst hstop
    exact fun _ _ h => h
  moves_valid _ _ _ hmove := hmove.elim
  moves_rely _ _ _ _ hmove := hmove.elim
  moves_change _ _ _ hmove := hmove.elim

end Invariant

section Rules

variable {D : Type} (s : ReplaySetting D) (fits : D → CompletedStep → Prop) {α : Type}
variable {request : CompanyRequest}

abbrev ThreadTriple (i : ReplayThread) (P : ReplayWorld D → Prop) (t : CompanyTask α)
    (Q : α → ReplayWorld D → Prop) (E : CompanyExit → ReplayWorld D → Prop) : Prop :=
  Task.Triple (Lifespan.forever ((replayDiscipline s fits).contract i)) P t Q E

abbrev ReplayTriple (P : ReplayWorld D → Prop) (t : CompanyTask α)
    (Q : α → ReplayWorld D → Prop) : Prop :=
  ThreadTriple s fits .executor P t Q fun _ _ => False

/-- What cancels and the requests that change nothing keep. -/
structure Steady (P : ReplayWorld D → Prop) : Prop where
  kept : ∀ w u, ReplayRely s fits .executor w u → P w → P u
  still : ∀ w u, u.company = w.company → u.daemon = w.daemon → u.started = true → P w → P u

/-- The manifest that the executor has in its hands. -/
structure InHand (manifest : InstanceManifest) (w : ReplayWorld D) : Prop where
  genuine : Genuine s fits w.daemon manifest
  covers : s.orderly = true → ∀ key ∈ w.company.recorded s.key, key ∈ manifest.keys
  started : w.started = true

/-- Besides, something about the daemon. -/
def Walking (manifest : InstanceManifest) (known : D → Prop) (w : ReplayWorld D) : Prop :=
  InHand s fits manifest w ∧ known w.daemon

variable {s fits} {P R : ReplayWorld D → Prop} {w u : ReplayWorld D}
  {manifest : InstanceManifest} {known : D → Prop} {i : ReplayThread}

theorem Steady.and (hP : Steady s fits P) (hR : Steady s fits R) :
    Steady s fits fun w => P w ∧ R w where
  kept w u hrely h := ⟨hP.kept w u hrely h.1, hR.kept w u hrely h.2⟩
  still w u hc hd hs h := ⟨hP.still w u hc hd hs h.1, hR.still w u hc hd hs h.2⟩

theorem steady_const (p : Prop) : Steady s fits fun _ => p :=
  ⟨fun _ _ _ h => h, fun _ _ _ _ _ h => h⟩

/-- What a step that leaves the records alone does to the executor's view. -/
theorem Walking.same (h : Walking s fits manifest known w) (hdaemon : u.daemon = w.daemon)
    (hstarted : u.started = true)
    (hrecorded : s.orderly = true → u.company.recorded s.key = w.company.recorded s.key) :
    Walking s fits manifest known u := by
  obtain ⟨hhand, hknown⟩ := h
  refine ⟨⟨hdaemon ▸ hhand.genuine, fun ho => ?_, hstarted⟩, hdaemon ▸ hknown⟩
  rw [hrecorded ho]
  exact hhand.covers ho

theorem steady_walking : Steady s fits (Walking s fits manifest known) where
  kept w u hrely h := by
    obtain ⟨hdaemon, hstarted, hrecorded⟩ := hrely.executor rfl
    exact h.same hdaemon (hstarted.trans h.1.started) hrecorded
  still w u hc hd hs h := h.same hd hs fun _ => by rw [hc]

theorem Steady.toStable (hP : Steady s fits P) :
    Stable (Lifespan.forever ((replayDiscipline s fits).contract .executor)) P :=
  fun w u _ hrely _ h => hP.kept w u hrely h

theorem triple_replayAsk {Q : request.Reply → ReplayWorld D → Prop}
    {E : CompanyExit → ReplayWorld D → Prop} (hP : ∀ w u, ReplayRely s fits i w u → P w → P u)
    (hQ : ∀ answer w u, ReplayRely s fits i w u → Q answer w → Q answer u)
    (h : ∀ w answer u, ReplayInvariant s fits w → P w →
      (s.orderly = true → w.Orders i request answer) →
      w.company.Answers i.company request answer u.company → s.Serves i w request answer u →
      ReplayInvariant s fits u ∧ ReplayGuar s fits i w u ∧ Q answer u) :
    ThreadTriple s fits i P (ask request) Q E := by
  apply Task.triple_perform (fun w u _ hrely _ => hP w u hrely) fun answer w u _ hrely _ =>
    hQ answer w u hrely
  rintro w answer u hw hpre ⟨horders, hanswers, hserves⟩
  exact h w answer u hw hpre horders hanswers hserves

/-- A step that leaves the daemon alone: what the files may become by it. -/
structure FileStep (s : ReplaySetting D) (fits : D → CompletedStep → Prop) (i : ReplayThread)
    (saves : Bool) (w u : ReplayWorld D) : Prop where
  manifest : ∀ manifest, u.company.manifest s.key = some manifest → Genuine s fits w.daemon manifest
  renameable : Renameable s fits w → Renameable s fits u
  apart : s.orderly = true → (u.company.slots s.key).Apart
  whole : s.orderly = true → (u.company.slots s.key).main ≠ none → u.company.manifest s.key ≠ none
  keeps : ReplayKeeps s w u
  cancel : s.orderly = true → i ≠ .executor →
    u.company.recorded s.key = w.company.recorded s.key
  alone : s.orderly = true → w.saver = some i ∨ saves = true ∨
    u.company.slots s.key = w.company.slots s.key

theorem step_of_files {answer : request.Reply}
    (hw : ReplayInvariant s fits w) (horders : s.orderly = true → w.Orders i request answer)
    (hserves : s.Serves i w request answer u) (hrequest : request.provisions = false)
    (h : FileStep s fits i (request.saves i answer) w u) :
    ReplayInvariant s fits u ∧ ReplayGuar s fits i w u := by
  obtain ⟨hdaemon, hcalls⟩ := hserves.other hrequest
  refine ⟨⟨?_, h.apart, h.whole, ?_⟩, h.keeps, fun j hj => ⟨?_, h.renameable, ?_, ?_⟩⟩
  · rw [hdaemon]
    exact h.manifest
  · rw [hcalls]
    exact hw.calls
  · rw [hdaemon]
    exact fun _ hstep => hstep
  · rintro rfl
    have hne : ¬i = .executor := fun hi => hj hi.symm
    refine ⟨hdaemon, ?_, fun ho => h.cancel ho hne⟩
    rw [hserves.started, beq_eq_false_iff_ne.mpr hne, Bool.or_false]
  · -- nobody else is in the middle of a save when the thread touches the files
    intro ho hsaver
    have hother : ¬w.saver = some i := fun hi => hj (Option.some_inj.mp (hsaver.symm.trans hi))
    have hidle : ¬request.saves i answer = true := by
      intro hsaves
      rcases (horders ho).alone hsaves with hnone | hown
      · rw [hnone] at hsaver
        cases hsaver
      · exact hother hown
    refine ⟨?_, (h.alone ho).resolve_left hother |>.resolve_left hidle⟩
    rw [hserves.saver, if_neg hidle, if_neg hother]
    exact hsaver

theorem FileStep.still {saves : Bool} (hw : ReplayInvariant s fits w)
    (hdaemon : u.daemon = w.daemon) (hslot : u.company.slots s.key = w.company.slots s.key) :
    FileStep s fits i saves w u := by
  have hmanifest : u.company.manifest s.key = w.company.manifest s.key := by
    rw [CompanyWorld.manifest, hslot]
    rfl
  have hrecorded := recorded_eq_of_slot hslot
  refine ⟨?_, fun h => h.same (fun _ hstep => hdaemon ▸ hstep) hslot, ?_, ?_, ?_, ?_, ?_⟩
  · rw [hmanifest]
    exact hw.genuine
  · rw [hslot]
    exact hw.apart
  · rw [hslot, hmanifest]
    exact hw.whole
  · rw [ReplayKeeps, hrecorded]
    exact fun _ _ h => h
  · exact fun _ _ => hrecorded
  · exact fun _ => .inr (.inr hslot)

/-- A request that leaves the files alone. -/
theorem triple_replayRead {Q : request.Reply → ReplayWorld D → Prop}
    {E : CompanyExit → ReplayWorld D → Prop} (hrequest : request.provisions = false)
    (hP : ∀ w u, ReplayRely s fits i w u → P w → P u)
    (hQ : ∀ answer w u, ReplayRely s fits i w u → Q answer w → Q answer u)
    (h : ∀ w answer u, ReplayInvariant s fits w → P w →
      (s.orderly = true → w.Orders i request answer) →
      w.company.Answers i.company request answer u.company → s.Serves i w request answer u →
      u.company.slots s.key = w.company.slots s.key ∧ Q answer u) :
    ThreadTriple s fits i P (ask request) Q E := by
  apply triple_replayAsk hP hQ
  intro w answer u hw hpre horders hanswers hserves
  obtain ⟨hslot, hpost⟩ := h w answer u hw hpre horders hanswers hserves
  obtain ⟨hvalid, hguar⟩ := step_of_files hw horders hserves hrequest
    (.still hw (hserves.other hrequest).1 hslot)
  exact ⟨hvalid, hguar, hpost⟩

theorem started_of_serves {answer : request.Reply}
    (h : s.Serves i w request answer u) (hi : i = .executor) : u.started = true := by
  rw [h.started, hi]
  exact Bool.or_true _

theorem triple_replayLoad {key : String} {guard : Option InstanceManifest}
    (hP : Steady s fits P) :
    ReplayTriple s fits P (ask (.loadManifest key guard)) (fun _ => P) := by
  apply triple_replayRead rfl hP.kept fun _ w u hrely h => hP.kept w u hrely h
  intro w answer u hw hpre _ hanswers hserves
  have hsame : u.company = w.company := hanswers.2
  have hrunning := started_of_serves hserves rfl
  exact ⟨by rw [hsame], hP.still w u hsame (hserves.other rfl).1 hrunning hpre⟩

end Rules

section Saving

variable {D : Type} {s : ReplaySetting D} {fits : D → CompletedStep → Prop}
  {manifest : InstanceManifest} {known : D → Prop} {file : ℕ} {i : ReplayThread}
  {w u : ReplayWorld D}

/-- The temporary file of the thread and what is in it. -/
structure Temporary (s : ReplaySetting D) (fits : D → CompletedStep → Prop) (i : ReplayThread)
    (file : ℕ) (body : Body InstanceManifest) (w : ReplayWorld D) : Prop where
  renameable : Renameable s fits w
  saver : s.orderly = true → w.saver = some i
  own : s.orderly = true → (w.company.slots s.key).temporary = some file ∧
    (w.company.slots s.key).body file = body

theorem temporary_kept {body : Body InstanceManifest} (hrely : ReplayRely s fits i w u)
    (h : Temporary s fits i file body w) : Temporary s fits i file body u where
  renameable := hrely.renameable h.renameable
  saver ho := (hrely.saver ho (h.saver ho)).1
  own ho := by
    rw [(hrely.saver ho (h.saver ho)).2]
    exact h.own ho

/-- The step of a thread behind which the keys on record are the same. -/
structure SameKeys (s : ReplaySetting D) (i : ReplayThread) (w u : ReplayWorld D) : Prop where
  daemon : u.daemon = w.daemon
  started : i = .executor → u.started = true
  recorded : s.orderly = true → u.company.recorded s.key = w.company.recorded s.key

/-- What a thread knows of the manifest that it saves, before the save and behind it. -/
structure Saving (s : ReplaySetting D) (fits : D → CompletedStep → Prop) (i : ReplayThread)
    (manifest : InstanceManifest) (P : ReplayWorld D → Prop)
    (R : Except ManifestError Unit → ReplayWorld D → Prop) : Prop where
  kept : ∀ w u, ReplayRely s fits i w u → P w → P u
  behind : ∀ out w u, ReplayRely s fits i w u → R out w → R out u
  genuine : ∀ w, P w → Genuine s fits w.daemon manifest
  covers : ∀ w, P w → s.orderly = true → ∀ key ∈ w.company.recorded s.key, key ∈ manifest.keys
  exact : i ≠ .executor → ∀ w, P w → s.orderly = true → w.company.recorded s.key = manifest.keys
  goes : ∀ w u, SameKeys s i w u → (s.orderly = true → u.saver = some i) → P w → P u
  fails : ∀ error w u, SameKeys s i w u → P w → R (.error error) u
  done : ∀ w u, u.daemon = w.daemon → (i = .executor → u.started = true) →
    (s.orderly = true → u.company.recorded s.key = manifest.keys) → P w → R (.ok ()) u

theorem sameKeys_of_serves {request : CompanyRequest} {answer : request.Reply}
    (hserves : s.Serves i w request answer u) (hrequest : request.provisions = false)
    (hmanifest : s.orderly = true → u.company.manifest s.key = w.company.manifest s.key) :
    SameKeys s i w u where
  daemon := (hserves.other hrequest).1
  started := started_of_serves hserves
  recorded ho := recorded_eq_of_manifest (hmanifest ho)

theorem saves_openTemporary {key : String} :
    (CompanyRequest.openTemporary key).saves i (.ok file) = true := by
  cases i <;> rfl

theorem saves_writeTemporary {key : String} :
    (CompanyRequest.writeTemporary key file manifest).saves i (.ok ()) = true := by
  cases i <;> rfl

theorem saver_of_saves {request : CompanyRequest} {answer : request.Reply}
    (hserves : s.Serves i w request answer u) (hsaves : request.saves i answer = true) :
    u.saver = some i := by
  rw [hserves.saver, if_pos hsaves]

variable {P : ReplayWorld D → Prop} {R : Except ManifestError Unit → ReplayWorld D → Prop}
  {E : CompanyExit → ReplayWorld D → Prop}

theorem triple_replayOpen (h : Saving s fits i manifest P R) :
    ThreadTriple s fits i P (ask (.openTemporary s.key))
      (fun answer w => (∀ message, answer = .error message → R (.error (.io message)) w) ∧
        ∀ file, answer = .ok file → P w ∧ Temporary s fits i file .empty w) E := by
  apply triple_replayAsk h.kept
  · rintro answer w u hrely ⟨hfails, hopens⟩
    refine ⟨fun message hm => h.behind _ w u hrely (hfails message hm), fun file hfile => ?_⟩
    exact ⟨h.kept w u hrely (hopens file hfile).1, temporary_kept hrely (hopens file hfile).2⟩
  rintro w (error | file) u hw hpre horders hanswers hserves
  · have hsame : u.company = w.company := hanswers
    obtain ⟨hvalid, hguar⟩ := step_of_files hw horders hserves rfl
      (.still hw (hserves.other rfl).1 (by rw [hsame]))
    refine ⟨hvalid, hguar, fun message _ => ?_, fun _ hfile => nomatch hfile⟩
    exact h.fails _ w u (sameKeys_of_serves hserves rfl fun _ => by rw [hsame]) hpre
  · obtain ⟨htemporary, hsame⟩ := hanswers
    obtain ⟨hdaemon, -⟩ := hserves.other rfl
    have hslot : u.company.slots s.key = (w.company.slots s.key).opened := by
      rw [hsame]
      exact Function.update_self ..
    have hmanifest : s.orderly = true →
        u.company.manifest s.key = w.company.manifest s.key := by
      intro ho
      rw [CompanyWorld.manifest, hslot]
      exact (hw.apart ho).opened.2
    have hempty : Renameable s fits u := by
      intro other hother
      rw [hslot, temporaryValue_opened] at hother
      cases hother
    obtain ⟨hvalid, hguar⟩ := step_of_files hw horders hserves rfl
      { manifest := fun other hother => hw.genuine other (mainValue_opened (by
          rwa [CompanyWorld.manifest, hslot] at hother))
        renameable := fun _ => hempty
        apart := fun ho => hslot ▸ (hw.apart ho).opened.1
        whole := fun ho => by
          rw [hmanifest ho, hslot, main_opened]
          exact hw.whole ho
        keeps := fun ho => by
          rw [recorded_eq_of_manifest (hmanifest ho)]
          exact fun _ hkey => hkey
        cancel := fun ho _ => recorded_eq_of_manifest (hmanifest ho)
        alone := fun _ => .inr (.inl saves_openTemporary) }
    have hsaver := saver_of_saves hserves saves_openTemporary
    refine ⟨hvalid, hguar, fun _ hm => (nomatch hm), fun other hother => ?_⟩
    obtain rfl := Except.ok.inj hother
    refine ⟨h.goes w u (sameKeys_of_serves hserves rfl hmanifest) (fun _ => hsaver) hpre,
      hempty, fun _ => hsaver, fun _ => ?_⟩
    rw [hslot]
    exact ⟨htemporary, body_opened htemporary⟩

theorem triple_replayWrite (h : Saving s fits i manifest P R) :
    ThreadTriple s fits i (fun w => P w ∧ Temporary s fits i file .empty w)
      (ask (.writeTemporary s.key file manifest))
      (fun answer w => (∀ message, answer = .error message → R (.error (.io message)) w) ∧
        (answer = .ok () → P w ∧ Temporary s fits i file (.whole manifest) w)) E := by
  apply triple_replayAsk
  · exact fun w u hrely hpre => ⟨h.kept w u hrely hpre.1, temporary_kept hrely hpre.2⟩
  · rintro answer w u hrely ⟨hfails, hwrites⟩
    refine ⟨fun message hm => h.behind _ w u hrely (hfails message hm), fun hok => ?_⟩
    exact ⟨h.kept w u hrely (hwrites hok).1, temporary_kept hrely (hwrites hok).2⟩
  rintro w answer u hw ⟨hpre, htemp⟩ horders hanswers hserves
  obtain ⟨hdaemon, -⟩ := hserves.other rfl
  have hgenuine := h.genuine w hpre
  -- whatever the write has left, what can be read was there or is the manifest
  have hwritten : ∃ body, u.company.slots s.key = (w.company.slots s.key).written file body ∧
      (s.orderly = true → answer = .ok () → body = .whole manifest) ∧
      (∀ m, ((w.company.slots s.key).written file body).mainValue = some m →
        m = manifest ∨ (w.company.slots s.key).mainValue = some m) ∧
      ∀ m, ((w.company.slots s.key).written file body).temporaryValue = some m →
        m = manifest ∨ (w.company.slots s.key).temporaryValue = some m := by
    rcases answer with error | _
    · obtain ⟨body, hbody, hsame⟩ := hanswers
      exact ⟨body, by rw [hsame]; exact Function.update_self .., fun _ hok => (nomatch hok),
        fun m hm => .inr (mainValue_failed hbody hm),
        fun m hm => .inr (temporaryValue_failed hbody hm)⟩
    · obtain ⟨body, hbody, hsame⟩ := hanswers
      refine ⟨body, by rw [hsame]; exact Function.update_self .., fun ho _ => ?_,
        fun m hm => mainValue_written hbody hm, fun m hm => temporaryValue_written hbody hm⟩
      exact hbody.resolve_right fun hover => hover.1 (htemp.own ho).2
  obtain ⟨body, hslot, hbody, hmain, htemporary⟩ := hwritten
  have hmanifest : s.orderly = true → u.company.manifest s.key = w.company.manifest s.key := by
    intro ho
    rw [CompanyWorld.manifest, hslot]
    exact ((hw.apart ho).written (htemp.own ho).1).2
  have hrenameable : Renameable s fits u := by
    intro m hm
    rw [hslot] at hm
    rw [hdaemon]
    rcases htemporary m hm with rfl | hold
    · exact hgenuine
    · exact htemp.renameable m hold
  obtain ⟨hvalid, hguar⟩ := step_of_files hw horders hserves rfl
    { manifest := fun m hm => by
        rw [CompanyWorld.manifest, hslot] at hm
        rcases hmain m hm with rfl | hold
        · exact hgenuine
        · exact hw.genuine m hold
      renameable := fun _ => hrenameable
      apart := fun ho => hslot ▸ ((hw.apart ho).written (htemp.own ho).1).1
      whole := fun ho => by
        rw [hmanifest ho, hslot]
        exact hw.whole ho
      keeps := fun ho => by
        rw [recorded_eq_of_manifest (hmanifest ho)]
        exact fun _ hkey => hkey
      cancel := fun ho _ => recorded_eq_of_manifest (hmanifest ho)
      alone := fun ho => .inl (htemp.saver ho) }
  have hsame := sameKeys_of_serves hserves rfl hmanifest
  refine ⟨hvalid, hguar, fun message _ => h.fails _ w u hsame hpre, fun hok => ?_⟩
  subst hok
  have hsaver := saver_of_saves hserves saves_writeTemporary
  refine ⟨h.goes w u hsame (fun _ => hsaver) hpre, hrenameable, fun _ => hsaver, fun ho => ?_⟩
  rw [hslot, ← hbody ho rfl]
  exact ⟨(htemp.own ho).1, Function.update_self ..⟩

theorem triple_replayRename (h : Saving s fits i manifest P R) :
    ThreadTriple s fits i (fun w => P w ∧ Temporary s fits i file (.whole manifest) w)
      (ask (.renameTemporary s.key manifest))
      (fun answer w => (∀ message, answer = .error message → R (.error (.io message)) w) ∧
        (answer = .ok () → R (.ok ()) w)) E := by
  apply triple_replayAsk
  · exact fun w u hrely hpre => ⟨h.kept w u hrely hpre.1, temporary_kept hrely hpre.2⟩
  · rintro answer w u hrely ⟨hfails, hdone⟩
    exact ⟨fun message hm => h.behind _ w u hrely (hfails message hm), fun hok =>
      h.behind _ w u hrely (hdone hok)⟩
  rintro w (error | _) u hw ⟨hpre, htemp⟩ horders hanswers hserves
  · have hsame : u.company = w.company := hanswers
    obtain ⟨hvalid, hguar⟩ := step_of_files hw horders hserves rfl
      (.still hw (hserves.other rfl).1 (by rw [hsame]))
    refine ⟨hvalid, hguar, fun message _ => ?_, fun hok => by cases hok⟩
    exact h.fails _ w u (sameKeys_of_serves hserves rfl fun _ => by rw [hsame]) hpre
  · obtain ⟨other, hother, hsame⟩ := hanswers
    obtain ⟨hdaemon, -⟩ := hserves.other rfl
    have hslot : u.company.slots s.key = (w.company.slots s.key).renamed other := by
      rw [hsame]
      exact Function.update_self ..
    have hvalue : u.company.manifest s.key = (w.company.slots s.key).temporaryValue := by
      rw [CompanyWorld.manifest, hslot]
      exact mainValue_renamed hother
    have hmanifest : s.orderly = true → u.company.manifest s.key = some manifest := by
      intro ho
      obtain ⟨hname, hbody⟩ := htemp.own ho
      rw [hvalue]
      simp [Slot.temporaryValue, Slot.held, hname, hbody, Body.value]
    have hrecorded : s.orderly = true → u.company.recorded s.key = manifest.keys :=
      fun ho => recorded_of_manifest (hmanifest ho)
    obtain ⟨hvalid, hguar⟩ := step_of_files hw horders hserves rfl
      { manifest := fun m hm => htemp.renameable m (hvalue.symm.trans hm)
        renameable := fun _ m hm => by
          rw [hslot] at hm
          cases hm
        apart := fun ho => hslot ▸ (hw.apart ho).renamed hother
        whole := fun ho _ => by simp [hmanifest ho]
        keeps := fun ho key hkey => hrecorded ho ▸ h.covers w hpre ho key hkey
        cancel := fun ho hi => (hrecorded ho).trans (h.exact hi w hpre ho).symm
        alone := fun ho => .inl (htemp.saver ho) }
    refine ⟨hvalid, hguar, fun _ hm => (by cases hm), fun _ => ?_⟩
    exact h.done w u hdaemon (started_of_serves hserves) hrecorded hpre

theorem triple_replayReplace (h : Saving s fits i manifest P R) :
    ThreadTriple s fits i P (replaceManifest s.key manifest) R E := by
  have hfailed : ∀ (message : String) (P' : ReplayWorld D → Prop),
      (∀ w, P' w → R (.error (.io message)) w) →
      Stable (Lifespan.forever ((replayDiscipline s fits).contract i)) P' →
      ThreadTriple s fits i P' (pure (.error (.io message))) R E :=
    fun message P' hR hP' => Task.triple_pure hP' fun w _ hpre => hR w hpre
  have hover : ∀ out, Stable (Lifespan.forever ((replayDiscipline s fits).contract i)) (R out) :=
    fun out w u _ hrely _ hR => h.behind out w u hrely hR
  unfold replaceManifest
  refine Task.triple_bind (triple_replayOpen h) ?_
  rintro (message | file)
  · exact (hfailed message _ (fun _ hR => hR) (hover _)).weaken fun w _ hpre => hpre.1 message rfl
  unfold writeOver
  refine Task.triple_bind ((triple_replayWrite h).weaken fun w _ hpre => hpre.2 file rfl) ?_
  rintro (message | _)
  · exact (hfailed message _ (fun _ hR => hR) (hover _)).weaken fun w _ hpre => hpre.1 message rfl
  unfold renameOver
  refine Task.triple_bind ((triple_replayRename h).weaken fun w _ hpre => hpre.2 rfl) ?_
  rintro (message | _)
  · exact (hfailed message _ (fun _ hR => hR) (hover _)).weaken fun w _ hpre => hpre.1 message rfl
  · exact Task.Triple.weaken (Task.triple_pure (hover _) fun w _ hR => hR)
      fun w _ hpre => hpre.2 rfl

/-- What is known when a save of the executor has returned. -/
def SavedAs (s : ReplaySetting D) (fits : D → CompletedStep → Prop) (manifest : InstanceManifest)
    (known : D → Prop) (out : Except ManifestError Unit) (w : ReplayWorld D) : Prop :=
  Walking s fits manifest known w ∧
    (out = .ok () → s.orderly = true → w.company.recorded s.key = manifest.keys)

theorem savedAs_kept {out : Except ManifestError Unit} (hrely : ReplayRely s fits .executor w u)
    (h : SavedAs s fits manifest known out w) : SavedAs s fits manifest known out u :=
  ⟨steady_walking.kept w u hrely h.1, fun hok ho =>
    ((hrely.executor rfl).2.2 ho).trans (h.2 hok ho)⟩

theorem saving_executor : Saving s fits .executor manifest (Walking s fits manifest known)
    (SavedAs s fits manifest known) where
  kept := steady_walking.kept
  behind _ _ _ := savedAs_kept
  genuine w h := h.1.genuine
  covers w h := h.1.covers
  exact hne := absurd rfl hne
  goes w u hsame _ h := h.same hsame.daemon (hsame.started rfl) hsame.recorded
  fails error w u hsame h :=
    ⟨h.same hsame.daemon (hsame.started rfl) hsame.recorded, fun hok => nomatch hok⟩
  done w u hdaemon hstarted hrecorded h := by
    obtain ⟨hhand, hknown⟩ := h
    refine ⟨⟨⟨hdaemon ▸ hhand.genuine, fun ho => ?_, hstarted rfl⟩, hdaemon ▸ hknown⟩,
      fun _ => hrecorded⟩
    rw [hrecorded ho]
    exact fun _ hkey => hkey

theorem triple_replaySave :
    ReplayTriple s fits (Walking s fits manifest known) (save s.key manifest)
      (SavedAs s fits manifest known) := by
  have hreplace : ReplayTriple s fits (Walking s fits manifest known)
      (replaceManifest s.key manifest) (SavedAs s fits manifest known) :=
    triple_replayReplace saving_executor
  unfold save
  refine Task.triple_ite (fun _ => hreplace) fun _ => ?_
  refine Task.triple_bind (triple_replayLoad steady_walking) fun existing => ?_
  refine Task.triple_ite (fun _ => ?_) fun _ => hreplace
  exact Task.triple_pure steady_walking.toStable fun w _ h => ⟨h, fun hok => nomatch hok⟩

end Saving

section Cancel

variable {D : Type} {s : ReplaySetting D} {fits : D → CompletedStep → Prop} {n : ℕ}
  {manifest : InstanceManifest} {w u : ReplayWorld D}

/-- The manifest that a cancel has loaded has the keys on record until its save is over. -/
structure Held (s : ReplaySetting D) (fits : D → CompletedStep → Prop) (n : ℕ)
    (manifest : InstanceManifest) (w : ReplayWorld D) : Prop where
  genuine : Genuine s fits w.daemon manifest
  saver : s.orderly = true → w.saver = some (.cancel n)
  recorded : s.orderly = true → w.company.recorded s.key = manifest.keys

theorem held_kept (hrely : ReplayRely s fits (.cancel n) w u) (h : Held s fits n manifest w) :
    Held s fits n manifest u where
  genuine := h.genuine.grow hrely.grows
  saver ho := (hrely.saver ho (h.saver ho)).1
  recorded ho := (recorded_eq_of_slot (hrely.saver ho (h.saver ho)).2).trans (h.recorded ho)

theorem Held.tombstone (h : Held s fits n manifest w) (now : ℕ) :
    Held s fits n (tombstone manifest now) w :=
  ⟨⟨⟨h.genuine.owns.instanceId, h.genuine.owns.templateId, h.genuine.owns.nodup⟩, h.genuine.fits⟩,
    h.saver, h.recorded⟩

theorem saving_cancel :
    Saving s fits (.cancel n) manifest (Held s fits n manifest) (fun _ _ => True) where
  kept _ _ := held_kept
  behind _ _ _ _ := id
  genuine _ h := h.genuine
  covers _ h ho _ hkey := h.recorded ho ▸ hkey
  exact _ _ h := h.recorded
  goes _ _ hsame hsaver h :=
    ⟨hsame.daemon ▸ h.genuine, hsaver, fun ho => (hsame.recorded ho).trans (h.recorded ho)⟩
  fails _ _ _ _ _ := trivial
  done _ _ _ _ _ _ := trivial

/-- A cancel may end anywhere, and nothing is asked of it then. -/
abbrev CancelTriple (s : ReplaySetting D) (fits : D → CompletedStep → Prop) (n : ℕ) {α : Type}
    (P : ReplayWorld D → Prop) (t : CompanyTask α) (Q : α → ReplayWorld D → Prop) : Prop :=
  ThreadTriple s fits (.cancel n) P t Q fun _ _ => True

theorem triple_cancelFail {α : Type} {P : ReplayWorld D → Prop} {exit : CompanyExit}
    {Q : α → ReplayWorld D → Prop} (hP : ∀ w u, ReplayRely s fits (.cancel n) w u → P w → P u) :
    CancelTriple s fits n P (Task.fail exit) Q :=
  Task.triple_fail (fun w u _ hrely _ h => hP w u hrely h) fun _ _ _ => trivial

theorem triple_cancelLoad :
    CancelTriple s fits n (fun _ => True) (load s.key)
      (fun loaded w => ∀ manifest, loaded = .ok manifest → manifest.status ≠ .cancelled →
        Held s fits n manifest w) := by
  apply triple_replayRead rfl (fun _ _ _ _ => trivial)
  · exact fun loaded w u hrely h manifest hok hne => held_kept hrely (h manifest hok hne)
  rintro w loaded u hw - - ⟨hloads, hsame⟩ hserves
  refine ⟨by rw [hsame], fun manifest hok hne => ?_⟩
  subst hok
  have hmanifest : w.company.manifest s.key = some manifest := hloads
  refine ⟨?_, fun _ => saver_of_saves hserves (bne_iff_ne.mpr hne), fun _ => ?_⟩
  · rw [(hserves.other rfl).1]
    exact hw.genuine manifest hmanifest
  · rw [hsame]
    exact recorded_of_manifest hmanifest

theorem triple_cancelNow :
    CancelTriple s fits n (Held s fits n manifest) (ask .now)
      (fun answer w => ∀ now, answer = some now → Held s fits n manifest w) := by
  apply triple_replayRead rfl (fun _ _ => held_kept)
  · exact fun answer w u hrely h now hnow => held_kept hrely (h now hnow)
  rintro w answer u - hheld - hanswers hserves
  have hsame : u.company = w.company := hanswers
  refine ⟨by rw [hsame], fun now hnow => ?_⟩
  subst hnow
  exact saving_cancel.goes w u (sameKeys_of_serves hserves rfl fun _ => by rw [hsame])
    (fun _ => saver_of_saves hserves rfl) hheld

/-- The rest of a cancel leaves the files alone. -/
theorem triple_cancelAsk {request : CompanyRequest} (hrequest : request.provisions = false)
    (h : ∀ (w : CompanyWorld) i answer u, w.Answers i request answer u → u.slots = w.slots) :
    CancelTriple s fits n (fun _ => True) (ask request) (fun _ _ => True) := by
  apply triple_replayRead hrequest (fun _ _ _ _ => trivial) fun _ _ _ _ _ => trivial
  intro w answer u _ _ _ hanswers _
  exact ⟨by rw [h _ _ _ _ hanswers], trivial⟩

theorem triple_saveTombstone :
    CancelTriple s fits n (fun w => manifest.status ≠ .cancelled → Held s fits n manifest w)
      (saveTombstone s.key manifest) (fun _ _ => True) := by
  have hkept : ∀ w u, ReplayRely s fits (.cancel n) w u →
      (manifest.status ≠ .cancelled → Held s fits n manifest w) →
      manifest.status ≠ .cancelled → Held s fits n manifest u :=
    fun w u hrely h hne => held_kept hrely (h hne)
  unfold saveTombstone
  refine Task.triple_ite (fun _ => ?_) fun hne => ?_
  · exact Task.triple_pure (fun w u _ hrely _ => hkept w u hrely) fun _ _ _ => trivial
  refine Task.triple_bind (triple_cancelNow.weaken fun w _ h => h hne) ?_
  rintro (_ | now)
  · exact triple_cancelFail fun _ _ _ _ _ hnow => nomatch hnow
  have hsave : CancelTriple s fits n (Held s fits n manifest)
      (save s.key (tombstone manifest now)) (fun _ _ => True) := by
    have hcancelled : (tombstone manifest now).status = .cancelled := rfl
    rw [save, if_pos hcancelled]
    exact Task.Triple.weaken (triple_replayReplace saving_cancel) fun w _ h => h.tombstone now
  refine Task.triple_bind (hsave.weaken fun w _ h => h now rfl) ?_
  rintro (error | _)
  · exact triple_cancelFail fun _ _ _ _ => trivial
  · exact Task.triple_pure (fun _ _ _ _ _ _ => trivial) fun _ _ _ => trivial

theorem triple_cancelCompanyRun {instanceId : String} (hkey : instanceKey instanceId = s.key) :
    CancelTriple s fits n (fun _ => True) (cancelCompanyRun instanceId) (fun _ _ => True) := by
  unfold cancelCompanyRun
  rw [hkey]
  refine Task.triple_bind triple_cancelLoad ?_
  rintro (error | manifest)
  · refine Task.triple_fail_bind (fun w u _ hrely _ h => ?_) fun _ _ _ => trivial
    exact fun _ hok => nomatch hok
  refine Task.triple_pure_bind ?_
  refine Task.triple_bind (triple_saveTombstone.weaken fun w _ h => h manifest rfl) fun _ => ?_
  refine Task.triple_bind (triple_cancelAsk rfl ?_) fun _ => ?_
  · rintro w i answer u rfl
    rfl
  refine Task.triple_bind (triple_cancelAsk rfl ?_) fun _ => triple_cancelAsk rfl ?_
  · rintro w i answer u rfl
    rfl
  · rintro w i answer u rfl
    rfl

end Cancel

section Steps

variable {D : Type} {s : ReplaySetting D} {fits : D → CompletedStep → Prop}
  {manifest : InstanceManifest} {known : D → Prop}
variable {step : PlanStep} {w : ReplayWorld D}

/-- What stays known whatever the provisioner does. -/
def Growing (s : ReplaySetting D) (known : D → Prop) : Prop :=
  ∀ d request answer d', s.replies d request answer d' → known d → known d'

theorem InstantiationPlan.Owns.push {plan : InstantiationPlan} {step : CompletedStep}
    (h : plan.Owns manifest) (hkey : step.key ∉ manifest.keys) :
    plan.Owns (manifest.push step) where
  instanceId := h.instanceId
  templateId := h.templateId
  nodup := by
    simp only [InstanceManifest.keys, InstanceManifest.push, List.map_append, List.map_singleton]
    refine List.Nodup.append h.nodup (List.nodup_singleton _) ?_
    exact List.disjoint_singleton.mpr hkey

theorem mem_keys_push {step : CompletedStep} {key : String} :
    key ∈ (manifest.push step).keys ↔ key ∈ manifest.keys ∨ key = step.key := by
  simp [InstanceManifest.keys, InstanceManifest.push, eq_comm]

theorem Walking.push {step : CompletedStep}
    (h : Walking s fits manifest known w) (hkey : step.key ∉ manifest.keys)
    (hfits : fits w.daemon step) : Walking s fits (manifest.push step) known w := by
  obtain ⟨hhand, hknown⟩ := h
  refine ⟨⟨⟨hhand.genuine.owns.push hkey, fun done hdone => ?_⟩, fun ho key hrecorded => ?_,
    hhand.started⟩, hknown⟩
  · rcases List.mem_append.mp hdone with hdone | hdone
    · exact hhand.genuine.fits done hdone
    · rw [List.mem_singleton.mp hdone]
      exact hfits
  · exact mem_keys_push.mpr (.inl (hhand.covers ho key hrecorded))

theorem Walking.status (h : Walking s fits manifest known w)
    (status : ManifestStatus) : Walking s fits { manifest with status := status } known w := by
  obtain ⟨⟨⟨howns, hfits⟩, hcovers, hstarted⟩, hknown⟩ := h
  exact ⟨⟨⟨⟨howns.instanceId, howns.templateId, howns.nodup⟩, hfits⟩, hcovers, hstarted⟩, hknown⟩

/-- A call of the executor is on behalf of a step that is not recorded. -/
theorem triple_replayCall {request : CompanyRequest}
    {Q : request.Reply → ReplayWorld D → Prop} (hfitting : Fitting s fits)
    (hknown : Growing s known) (hstep : step ∈ s.plan.steps)
    (hrequest : step.request = some request)
    (hprovisions : request.provisions = true) (hkey : step.key ∉ manifest.keys)
    (hanswers : ∀ (w : CompanyWorld) answer u, w.Answers ⟨0, 0⟩ request answer u → u = w)
    (hQ : ∀ answer w, Walking s fits manifest known w →
      (∀ res, request.ensured answer = some res → fits w.daemon (stepRecord step (some res))) →
      Q answer w)
    (hQstable : ∀ answer w u, ReplayRely s fits .executor w u → Q answer w → Q answer u) :
    ReplayTriple s fits (Walking s fits manifest known) (ask request) Q := by
  apply triple_replayAsk steady_walking.kept hQstable
  rintro w answer u hw ⟨hhand, hk⟩ _ hanswer hserves
  obtain ⟨hreplies, hcalls⟩ := hserves.call hprovisions
  have hsame : u.company = w.company := hanswers _ _ _ hanswer
  have hgrows : ∀ done, fits w.daemon done → fits u.daemon done :=
    fun done => hfitting.kept _ _ _ _ done hreplies
  refine ⟨⟨?_, hsame ▸ hw.apart, hsame ▸ hw.whole, fun ho => ?_⟩, ⟨?_, fun j hj => ⟨hgrows,
    fun h => h.same hgrows (by rw [hsame]), fun h => absurd h hj, fun _ hsaver => ?_⟩⟩,
    hQ answer u ⟨⟨hhand.genuine.grow hgrows, ?_, started_of_serves hserves rfl⟩,
      hknown _ _ _ _ hreplies hk⟩ fun res hres => ?_⟩
  · rw [hsame]
    exact fun m hm => (hw.genuine m hm).grow hgrows
  · rw [hcalls]
    intro call hcall
    rcases List.mem_cons.mp hcall with rfl | hcall
    · exact ⟨step, hstep, hrequest, fun h => hkey (hhand.covers ho _ h)⟩
    · exact hw.calls ho call hcall
  · rw [ReplayKeeps, hsame]
    exact fun _ _ h => h
  · -- the executor is not in the middle of a save when it calls the provisioner
    have hidle : ¬request.saves .executor answer = true := by
      cases request with
      | ensureGroup | ensureStore | ensureTaskList => exact Bool.false_ne_true
      | _ => cases hprovisions
    have hother : ¬w.saver = some .executor :=
      fun h => hj (Option.some_inj.mp (hsaver.symm.trans h))
    refine ⟨?_, by rw [hsame]⟩
    rw [hserves.saver, if_neg hidle, if_neg hother]
    exact hsaver
  · rw [hsame]
    exact hhand.covers
  · exact hfitting.made _ _ _ _ _ _ hreplies hstep hrequest hres

/-- What an attempt that succeeds has left. -/
structure Attempted (s : ReplaySetting D) (fits : D → CompletedStep → Prop)
    (manifest : InstanceManifest) (known : D → Prop) (step : PlanStep)
    (out : Except String (Option EnsureResult)) (w : ReplayWorld D) : Prop where
  walking : Walking s fits manifest known w
  fits : ∀ res, out = .ok res → fits w.daemon (stepRecord step res)
  ensured : out = .ok none → step.kindLabel ≠ "group"

theorem attempted_kept {out : Except String (Option EnsureResult)}
    {w u : ReplayWorld D} (hrely : ReplayRely s fits .executor w u)
    (h : Attempted s fits manifest known step out w) :
    Attempted s fits manifest known step out u where
  walking := steady_walking.kept w u hrely h.walking
  fits res hres := (hrely.executor rfl).1 ▸ h.fits res hres
  ensured := h.ensured

theorem attempted_map {answer : Except String EnsureResult} (h : Walking s fits manifest known w)
    (hfits : ∀ res, answer = .ok res → fits w.daemon (stepRecord step (some res))) :
    Attempted s fits manifest known step (answer.map some) w := by
  refine ⟨h, ?_, ?_⟩
  · rcases answer with error | res
    · exact fun _ hres => nomatch hres
    · intro other hother
      rw [← Except.ok.inj hother]
      exact hfits res rfl
  · rcases answer with error | res
    · exact fun hres => nomatch hres
    · exact fun hres => nomatch Except.ok.inj hres

theorem triple_attemptStep (hfitting : Fitting s fits) (hknown : Growing s known)
    (hstep : step ∈ s.plan.steps) (hkey : step.key ∉ manifest.keys) :
    ReplayTriple s fits (Walking s fits manifest known) (attemptStep step)
      (Attempted s fits manifest known step) := by
  have hpure : ∀ out : Except String (Option EnsureResult),
      ReplayTriple s fits (Attempted s fits manifest known step out) (pure out)
        (Attempted s fits manifest known step) :=
    fun out => Task.triple_pure (fun w u _ hrely _ h => attempted_kept hrely h) fun _ _ h => h
  have hwritten : step.request = none → step.kindLabel ≠ "group" →
      ReplayTriple s fits (Walking s fits manifest known) (pure (.ok none))
        (Attempted s fits manifest known step) := by
    intro hrequest hkind
    refine Task.triple_pure steady_walking.toStable fun w _ h =>
      ⟨h, fun res hres => ?_, fun _ => hkind⟩
    rw [← Except.ok.inj hres]
    exact hfitting.written _ step hstep hrequest
  cases step with
  | createGroup key localId name visibility purpose
  | createStore key localId name topic kind policy groupLocalId
  | createTaskList key localId name topic groupLocalId =>
      refine Task.triple_bind (triple_replayCall hfitting hknown hstep rfl rfl hkey
        (fun _ _ _ h => h) (Q := fun answer : Except String EnsureResult =>
          Attempted s fits manifest known _ (answer.map some))
        (fun answer w hwalk hmade => attempted_map hwalk fun res hres => hmade res ?_)
        fun _ _ _ hrely h => attempted_kept hrely h) fun answer => hpure _
      rw [hres]
      rfl
  | writeSymphonyConfig key | writeWorkflowMd key =>
      exact hwritten rfl (by simp [PlanStep.kindLabel])

end Steps

section Walk

variable {D : Type} {s : ReplaySetting D} {fits : D → CompletedStep → Prop}

/-- The walk has come past these steps without a failure. -/
structure Going (st : ProvisionState) (walked : List PlanStep) : Prop where
  failed : st.failed = false
  cancelled : st.cancelled = false
  checkpoint : st.checkpointFailure = none
  recorded : ∀ step ∈ walked, step.key ∈ st.manifest.keys

/-- The walk has stopped before its end. -/
structure Stopped (plan : InstantiationPlan) (st : ProvisionState) : Prop where
  why : st.cancelled = true ∨ st.failed = true
  status : st.cancelled = false → st.manifest.status = .resumable ∧
    (st.checkpointFailure ≠ none ∨ ∃ step ∈ plan.steps, step.key ∉ st.manifest.keys)

/-- The state of a walk that goes on. -/
def WalkAt (s : ReplaySetting D) (fits : D → CompletedStep → Prop) (st : ProvisionState)
    (walked : List PlanStep) (w : ReplayWorld D) : Prop :=
  Walking s fits st.manifest (GroupsTold s fits st.steps walked) w ∧ Going st walked

/-- The state of a walk that is over. -/
def WalkOver (s : ReplaySetting D) (fits : D → CompletedStep → Prop) (st : ProvisionState)
    (w : ReplayWorld D) : Prop :=
  Walking s fits st.manifest (fun _ => True) w ∧ Stopped s.plan st

theorem Walking.forget {manifest : InstanceManifest} {known : D → Prop} {w : ReplayWorld D}
    (h : Walking s fits manifest known w) : Walking s fits manifest (fun _ => True) w :=
  ⟨h.1, trivial⟩

theorem growing_groupsTold (hfitting : Fitting s fits) (outcomes : List StepOutcome)
    (walked : List PlanStep) : Growing s (GroupsTold s fits outcomes walked) := by
  intro d request answer d' hreplies h
  refine ⟨fun outcome houtcome hkind realized hrealized => ?_, h.total⟩
  obtain ⟨step, hstep, hlabel, hlocal, done, hkey, hid, hfits⟩ :=
    h.sound outcome houtcome hkind realized hrealized
  exact ⟨step, hstep, hlabel, hlocal, done, hkey, hid, hfitting.kept _ _ _ _ _ hreplies hfits⟩

/-- One more outcome, of a step whose record is at hand. -/
theorem GroupsTold.snoc {outcomes : List StepOutcome} {walked : List PlanStep} {d : D}
    (h : GroupsTold s fits outcomes walked d) {step : PlanStep} (hstep : step ∈ s.plan.steps)
    {outcome : StepOutcome} (hkind : outcome.kind = step.kindLabel)
    (hgroup : step.kindLabel = "group" → outcome.localId = step.localTarget ∧
      ∃ done, done.key = step.key ∧ outcome.resourceId = some done.resourceId ∧ fits d done) :
    GroupsTold s fits (outcomes ++ [outcome]) (walked ++ [step]) d where
  sound other hother hother' realized hrealized := by
    rcases List.mem_append.mp hother with hother | hother
    · exact h.sound other hother hother' realized hrealized
    · obtain rfl := List.mem_singleton.mp hother
      obtain ⟨hlocal, done, hkey, hid, hfits⟩ := hgroup (hkind.symm.trans hother')
      exact ⟨step, hstep, hkind.symm.trans hother', hlocal, done, hkey,
        Option.some_inj.mp (hid.symm.trans hrealized), hfits⟩
  total other hother hlabel := by
    rcases List.mem_append.mp hother with hother | hother
    · obtain ⟨found, hfound, hrest⟩ := h.total other hother hlabel
      exact ⟨found, List.mem_append_left _ hfound, hrest⟩
    · obtain rfl := List.mem_singleton.mp hother
      obtain ⟨hlocal, done, -, hid, -⟩ := hgroup hlabel
      exact ⟨outcome, List.mem_append_right _ (List.mem_singleton.mpr rfl), hkind.trans hlabel,
        hlocal, by rw [hid]; rfl⟩

theorem completedKey_mem {manifest : InstanceManifest} {key : String} {done : CompletedStep}
    (h : manifest.completedKey key = some done) : done ∈ manifest.completed ∧ done.key = key :=
  ⟨List.mem_of_find?_eq_some h, by simpa using List.find?_some h⟩

theorem completedKey_none {manifest : InstanceManifest} {key : String}
    (h : manifest.completedKey key = none) : key ∉ manifest.keys := by
  intro hkey
  obtain ⟨done, hdone, hsame⟩ := List.mem_map.mp hkey
  have hfound := List.find?_eq_none.mp h done hdone
  simp [hsame] at hfound

theorem stable_walkOver (st : ProvisionState) :
    Stable (Lifespan.forever ((replayDiscipline s fits).contract .executor)) (WalkOver s fits st) :=
  (steady_walking.and (steady_const _)).toStable

theorem stable_walkAt (st : ProvisionState) (walked : List PlanStep) :
    Stable (Lifespan.forever ((replayDiscipline s fits).contract .executor))
      (WalkAt s fits st walked) :=
  (steady_walking.and (steady_const _)).toStable

/-- A step is over: the walk goes on behind it or has stopped. -/
def StepOver (s : ReplaySetting D) (fits : D → CompletedStep → Prop) (walked : List PlanStep)
    (step : PlanStep) (next : ProvisionState × Bool) (w : ReplayWorld D) : Prop :=
  (next.2 = true ∧ WalkAt s fits next.1 (walked ++ [step]) w) ∨
    (next.2 = false ∧ WalkOver s fits next.1 w)

variable {st : ProvisionState} {walked : List PlanStep} {step : PlanStep}

theorem Going.snoc (h : Going st walked) {manifest : InstanceManifest} {steps : List StepOutcome}
    (hkeys : ∀ key ∈ st.manifest.keys, key ∈ manifest.keys) (hkey : step.key ∈ manifest.keys) :
    Going { st with manifest := manifest, steps := steps } (walked ++ [step]) where
  failed := h.failed
  cancelled := h.cancelled
  checkpoint := h.checkpoint
  recorded other hother := by
    rcases List.mem_append.mp hother with hother | hother
    · exact hkeys _ (h.recorded other hother)
    · rw [List.mem_singleton.mp hother]
      exact hkey

theorem triple_checkpointStep (hgoing : Going st walked) (hstep : step ∈ s.plan.steps)
    (hkey : step.key ∉ st.manifest.keys) (res : Option EnsureResult) :
    ReplayTriple s fits
      (Attempted s fits st.manifest (GroupsTold s fits st.steps walked) step (.ok res))
      (checkpointStep s.key st step res) (StepOver s fits walked step) := by
  have hpushed : step.key ∈ (st.manifest.push (stepRecord step res)).keys :=
    mem_keys_push.mpr (.inr (stepRecord_key step res).symm)
  have hsave : ReplayTriple s fits
      (Attempted s fits st.manifest (GroupsTold s fits st.steps walked) step (.ok res))
      (save s.key (st.manifest.push (stepRecord step res)))
      (fun _ => Walking s fits (st.manifest.push (stepRecord step res))
        (GroupsTold s fits (st.steps ++ [doneOutcome step res]) (walked ++ [step]))) := by
    refine triple_replaySave.conseq (fun w _ h => ?_) (fun _ _ _ h => h.1) fun _ _ _ h => h
    have hfits := h.fits res rfl
    have hwalk := h.walking.push (by rwa [stepRecord_key]) hfits
    refine ⟨hwalk.1, hwalk.2.snoc hstep (by cases res <;> rfl) fun hlabel => ?_⟩
    cases res with
    | none => exact absurd hlabel (h.ensured rfl)
    | some found => exact ⟨rfl, stepRecord step (some found), rfl, rfl, hfits⟩
  unfold checkpointStep
  refine Task.triple_bind hsave ?_
  rintro (error | _)
  · cases error with
    | cancelled =>
        refine Task.triple_pure steady_walking.toStable fun w _ h => .inr ⟨rfl, h.forget, ?_⟩
        exact ⟨.inl rfl, fun hnot => nomatch hnot⟩
    | notFound | decode message | io message =>
        refine Task.triple_pure steady_walking.toStable fun w _ h => .inr ⟨rfl, ?_⟩
        exact ⟨(h.status _).forget, .inr rfl, fun _ => ⟨rfl, .inl (Option.some_ne_none _)⟩⟩
  · refine Task.triple_pure steady_walking.toStable fun w _ h => .inl ⟨rfl, h, ?_⟩
    exact hgoing.snoc (fun key hk => mem_keys_push.mpr (.inl hk)) hpushed

theorem triple_recordFailedStep {known : D → Prop} (hstep : step ∈ s.plan.steps)
    (hkey : step.key ∉ st.manifest.keys) (message : String) :
    ReplayTriple s fits (Walking s fits st.manifest known)
      (recordFailedStep s.key st step message) (WalkOver s fits) := by
  have hsave : ReplayTriple s fits (Walking s fits st.manifest known)
      (save s.key { st.manifest with status := .resumable })
      (fun _ => Walking s fits { st.manifest with status := .resumable } (fun _ => True)) :=
    triple_replaySave.conseq (fun w _ h => (h.status _).forget) (fun _ _ _ h => h.1)
      fun _ _ _ h => h
  unfold recordFailedStep
  refine Task.triple_bind hsave ?_
  rintro (error | _)
  · cases error with
    | cancelled =>
        refine Task.triple_pure steady_walking.toStable fun w _ h => ⟨h, .inl rfl, ?_⟩
        exact fun hnot => nomatch hnot
    | notFound | decode message | io message =>
        refine Task.triple_pure steady_walking.toStable fun w _ h => ⟨h, .inr rfl, fun _ => ?_⟩
        exact ⟨rfl, .inr ⟨step, hstep, hkey⟩⟩
  · refine Task.triple_pure steady_walking.toStable fun w _ h => ⟨h, .inr rfl, fun _ => ?_⟩
    exact ⟨rfl, .inr ⟨step, hstep, hkey⟩⟩

theorem triple_provisionStep (hfitting : Fitting s fits) (hgoing : Going st walked)
    (hstep : step ∈ s.plan.steps) :
    ReplayTriple s fits (Walking s fits st.manifest (GroupsTold s fits st.steps walked))
      (provisionStep s.key st step) (StepOver s fits walked step) := by
  unfold provisionStep
  cases hfound : st.manifest.completedKey step.key with
  | some done =>
      obtain ⟨hdone, hkey⟩ := completedKey_mem hfound
      refine Task.triple_pure steady_walking.toStable fun w _ h => .inl ⟨rfl, ⟨h.1, ?_⟩, ?_⟩
      · exact h.2.snoc hstep rfl fun _ => ⟨rfl, done, hkey, rfl, h.1.genuine.fits done hdone⟩
      · exact hgoing.snoc (fun _ hk => hk) (hkey ▸ List.mem_map_of_mem hdone)
  | none =>
      have hkey := completedKey_none hfound
      refine Task.triple_bind (triple_attemptStep hfitting
        (growing_groupsTold hfitting st.steps walked) hstep hkey) ?_
      rintro (message | res)
      · refine Task.triple_bind ((triple_recordFailedStep hstep hkey message).weaken
          fun w _ h => h.walking) fun next => ?_
        exact Task.triple_pure (stable_walkOver next) fun w _ h => .inr ⟨rfl, h⟩
      · exact triple_checkpointStep hgoing hstep hkey res

/-- The walk ends behind the last step or has stopped before. -/
def WalkEnd (s : ReplaySetting D) (fits : D → CompletedStep → Prop) (steps : List PlanStep)
    (st : ProvisionState) (w : ReplayWorld D) : Prop :=
  WalkAt s fits st steps w ∨ WalkOver s fits st w

theorem triple_provisionSteps (hfitting : Fitting s fits) (observed : ℕ) (steps : List PlanStep) :
    ∀ (st : ProvisionState) (walked : List PlanStep), Going st walked →
      (∀ step ∈ steps, step ∈ s.plan.steps) →
      ReplayTriple s fits (Walking s fits st.manifest (GroupsTold s fits st.steps walked))
        (provisionSteps s.key s.plan.instanceId observed steps st)
        (WalkEnd s fits (walked ++ steps)) := by
  induction steps with
  | nil =>
      intro st walked hgoing _
      refine Task.triple_pure steady_walking.toStable fun w _ h => .inl ⟨?_, ?_⟩
      · rwa [List.append_nil]
      · rwa [List.append_nil]
  | cons step steps ih =>
      intro st walked hgoing hplan
      have hstep := hplan step List.mem_cons_self
      have hcheck : ReplayTriple s fits
          (Walking s fits st.manifest (GroupsTold s fits st.steps walked))
          (cancellationRequested s.key s.plan.instanceId observed)
          (fun _ => Walking s fits st.manifest (GroupsTold s fits st.steps walked)) :=
        Task.triple_bind (triple_replayLoad steady_walking) fun _ =>
          Task.triple_pure steady_walking.toStable fun _ _ h => h
      refine Task.triple_bind hcheck fun requested => Task.triple_ite (fun _ => ?_) fun _ => ?_
      · refine Task.triple_pure steady_walking.toStable fun w _ h => .inr ⟨h.forget, .inl rfl, ?_⟩
        exact fun hnot => nomatch hnot
      · refine Task.triple_bind (triple_provisionStep hfitting hgoing hstep) ?_
        rintro ⟨next, goes⟩
        cases goes with
        | true =>
            have hrest : ReplayTriple s fits (WalkAt s fits next (walked ++ [step]))
                (provisionSteps s.key s.plan.instanceId observed steps next)
                (WalkEnd s fits (walked ++ step :: steps)) := by
              refine Task.triple_pull fun hnext => ?_
              have htail := ih next (walked ++ [step]) hnext fun other hother =>
                hplan other (List.mem_cons_of_mem _ hother)
              rwa [List.append_assoc, List.singleton_append] at htail
            exact hrest.weaken fun w _ h => (h.resolve_right fun hstop => nomatch hstop.1).2
        | false =>
            have hstop : ReplayTriple s fits (WalkOver s fits next) (pure next)
                (WalkEnd s fits (walked ++ step :: steps)) :=
              Task.triple_pure (stable_walkOver next) fun _ _ h => .inr h
            exact hstop.weaken fun w _ h => (h.resolve_left fun hgoes => nomatch hgoes.1).2

end Walk

section Outcome

variable {D : Type} {s : ReplaySetting D} {fits : D → CompletedStep → Prop}

/-- What the status and the error of the outcome tell. -/
structure Resolved (s : ReplaySetting D) (fits : D → CompletedStep → Prop) (st : ProvisionState)
    (out : ManifestStatus × Option String) (w : ReplayWorld D) : Prop where
  complete : out.1 = .complete →
    (s.orderly = true → ∀ step ∈ s.plan.steps, StepRecorded s w step) ∧
      GroupsTold s fits st.steps s.plan.steps w.daemon
  recorded : s.orderly = true → (∀ step ∈ s.plan.steps, StepRecorded s w step) →
    out.1 ≠ .cancelled → out.2 = none → out.1 = .complete

theorem resolved_kept {st : ProvisionState} {out : ManifestStatus × Option String}
    {w u : ReplayWorld D} (hrely : ReplayRely s fits .executor w u) (h : Resolved s fits st out w) :
    Resolved s fits st out u := by
  obtain ⟨hdaemon, -, hsame⟩ := hrely.executor rfl
  have hrecorded : s.orderly = true → ∀ step, StepRecorded s u step ↔ StepRecorded s w step :=
    fun ho step => by rw [StepRecorded, StepRecorded, hsame ho]
  refine ⟨fun hcomplete => ?_, fun ho hall => ?_⟩
  · obtain ⟨hall, hgroups⟩ := h.complete hcomplete
    exact ⟨fun ho step hstep => (hrecorded ho step).mpr (hall ho step hstep), hdaemon ▸ hgroups⟩
  · exact h.recorded ho fun step hstep => (hrecorded ho step).mp (hall step hstep)

theorem Stopped.resolved {st : ProvisionState} {w : ReplayWorld D}
    (hwalk : Walking s fits st.manifest (fun _ => True) w) (h : Stopped s.plan st)
    (hcancelled : st.cancelled = false) :
    Resolved s fits st (st.manifest.status, st.checkpointFailure) w := by
  obtain ⟨hstatus, hwhy⟩ := h.status hcancelled
  refine ⟨fun hcomplete => ?_, fun ho hall _ hnone => ?_⟩
  · rw [hstatus] at hcomplete
    cases hcomplete
  · rcases hwhy with hfailure | ⟨step, hstep, hkey⟩
    · exact absurd hnone hfailure
    · exact absurd (hwalk.1.covers ho _ (hall step hstep)) hkey

theorem triple_resolveProvisioning (st : ProvisionState) :
    ReplayTriple s fits (WalkEnd s fits s.plan.steps st) (resolveProvisioning s.key st)
      (Resolved s fits st) := by
  have hstable : Stable (Lifespan.forever ((replayDiscipline s fits).contract .executor))
      (WalkEnd s fits s.plan.steps st) := by
    intro w u hu hrely halive h
    exact h.imp (stable_walkAt st _ w u hu hrely halive) (stable_walkOver st w u hu hrely halive)
  unfold resolveProvisioning
  refine Task.triple_ite (fun _ => ?_) fun hcancelled => Task.triple_ite (fun hfailed => ?_)
    fun hfailed => ?_
  · refine Task.triple_pure hstable fun w _ _ => ⟨fun h => (nomatch h), fun _ _ hne => ?_⟩
    exact absurd rfl hne
  · refine Task.triple_pure hstable fun w _ h => ?_
    rcases h with ⟨-, hgoing⟩ | ⟨hwalk, hstop⟩
    · rw [hgoing.failed] at hfailed
      cases hfailed
    · exact hstop.resolved hwalk (Bool.eq_false_of_not_eq_true hcancelled)
  · have hsave : ReplayTriple s fits (WalkAt s fits st s.plan.steps)
        (save s.key { st.manifest with status := .inProgress })
        (fun out w => SavedAs s fits { st.manifest with status := .inProgress }
          (GroupsTold s fits st.steps s.plan.steps) out w ∧ Going st s.plan.steps) := by
      refine Task.triple_pull fun hgoing => ?_
      exact triple_replaySave.conseq (fun w _ h => h.status _) (fun _ _ _ h => ⟨h, hgoing⟩)
        fun _ _ _ h => h
    refine Task.triple_bind (hsave.weaken fun w _ h => h.resolve_right ?_) ?_
    · rintro ⟨-, hstop⟩
      rcases hstop.why with h | h
      · exact hcancelled h
      · exact hfailed h
    · have hsaved : ∀ out, Stable (Lifespan.forever ((replayDiscipline s fits).contract .executor))
          fun w => SavedAs s fits { st.manifest with status := .inProgress }
            (GroupsTold s fits st.steps s.plan.steps) out w ∧ Going st s.plan.steps :=
        fun out w u _ hrely _ h => ⟨savedAs_kept hrely h.1, h.2⟩
      -- a save that fails is told in the error
      have hlost : ∀ (w : ReplayWorld D) (message : String),
          Resolved s fits st (.resumable, some message) w :=
        fun w message => ⟨fun h => (nomatch h), fun _ _ _ h => nomatch h⟩
      rintro (error | _)
      · cases error with
        | cancelled =>
            refine Task.triple_pure (hsaved _) fun w _ _ =>
              ⟨fun h => (nomatch h), fun _ _ hne => ?_⟩
            exact absurd rfl hne
        | notFound | decode message | io message =>
            exact Task.triple_pure (hsaved _) fun w _ _ => hlost w _
      · refine Task.triple_pure (hsaved _) fun w _ h =>
          ⟨fun _ => ⟨fun ho step hstep => ?_, h.1.1.2⟩, fun _ _ _ _ => rfl⟩
        rw [StepRecorded, h.1.2 rfl ho]
        exact h.2.recorded step hstep

/-- The first load gives the executor all that is recorded, if it gives anything. -/
theorem triple_startingLoad :
    ReplayTriple s fits (fun w => w.started = false) (load s.key)
      (fun loaded => Walking s fits (s.plan.startingManifest loaded) (fun _ => True)) := by
  refine triple_replayRead rfl (fun w u hrely h => (hrely.executor rfl).2.1.trans h)
    (fun _ w u hrely h => steady_walking.kept w u hrely h) ?_
  intro w loaded u hw hstarted horders hanswers hserves
  obtain ⟨hloads, hsame⟩ := hanswers
  obtain ⟨hdaemon, -⟩ := hserves.other rfl
  have hrunning := started_of_serves hserves rfl
  refine ⟨by rw [hsame], ?_, trivial⟩
  rcases loaded with error | manifest
  · refine ⟨⟨⟨rfl, rfl, List.nodup_nil⟩, fun done hdone => ?_⟩, fun ho key hkey => ?_, hrunning⟩
    · cases hdone
    · have hnone : w.company.manifest s.key = none := (horders ho).finds rfl hstarted
      rw [hsame, CompanyWorld.recorded, hnone] at hkey
      exact hkey
  · have hgenuine := hw.genuine manifest hloads
    have hstarting : s.plan.startingManifest (.ok manifest) = manifest :=
      if_pos ⟨hgenuine.owns.instanceId, hgenuine.owns.templateId⟩
    rw [hstarting]
    refine ⟨hdaemon ▸ hgenuine, fun _ key hkey => ?_, hrunning⟩
    rwa [hsame, recorded_of_manifest hloads] at hkey

theorem Walking.reopened {manifest : InstanceManifest} {known : D → Prop} {w : ReplayWorld D}
    (h : Walking s fits manifest known w) : Walking s fits (reopened manifest) known w := by
  unfold Company.reopened
  split_ifs
  · exact h.status _
  · exact h

theorem triple_instantiateCompany (hfitting : Fitting s fits) :
    ReplayTriple s fits (fun w => w.started = false) (instantiateCompany s.key s.plan)
      (fun outcome w => OutcomeTold s outcome w ∧
        (outcome.status = .complete → GroupsTold s fits outcome.steps s.plan.steps w.daemon)) := by
  unfold instantiateCompany
  refine Task.triple_bind triple_startingLoad fun loaded =>
    Task.triple_ite (fun _ => ?_) fun _ => ?_
  · refine Task.triple_pure steady_walking.toStable fun w _ _ => ⟨⟨?_, ?_⟩, fun h => nomatch h⟩
    · exact fun _ h => nomatch h
    · exact fun _ _ hne => absurd rfl hne
  · have hbegin : Going ⟨reopened (s.plan.startingManifest loaded), [], false, false, none⟩ [] :=
      ⟨rfl, rfl, rfl, fun _ h => nomatch h⟩
    have hwalk := triple_provisionSteps hfitting
      (s.plan.startingManifest loaded).cancelGeneration s.plan.steps _ [] hbegin fun _ h => h
    refine Task.triple_bind (hwalk.weaken fun w _ h => ⟨h.reopened.1, ?_⟩) fun st => ?_
    · exact ⟨fun _ h => (nomatch h), fun _ h => nomatch h⟩
    · refine Task.triple_bind (triple_resolveProvisioning st) fun resolved => ?_
      refine Task.triple_pure (fun w u _ hrely _ h => resolved_kept hrely h) fun w _ h => ?_
      exact ⟨⟨fun ho hcomplete => (h.complete hcomplete).1 ho, h.recorded⟩,
        fun hcomplete => (h.complete hcomplete).2⟩

theorem replay_launchesSafe (hfitting : Fitting s fits) :
    (replayDiscipline s fits).LaunchesSafe := by
  intro i w p hw hlaunch
  cases i with
  | executor =>
      obtain ⟨hstarted, rfl⟩ := hlaunch
      refine (triple_instantiateCompany hfitting).program ?_ ?_ [] hw fun _ => hstarted
      · exact fun outcome _ u h => ⟨outcome, rfl, (h trivial).1, (h trivial).2⟩
      · exact fun _ _ _ h => (h trivial).elim
  | cancel n =>
      obtain ⟨instanceId, hkey, rfl⟩ := hlaunch
      exact (triple_cancelCompanyRun hkey).program (fun _ _ _ _ => trivial)
        (fun _ _ _ _ => trivial) [] hw fun _ => trivial

theorem replay_holds (hfitting : Fitting s fits) {start pool : ReplayPool D}
    (hready : s.Ready start)
    (hfits : ∀ manifest, start.world.company.manifest s.key = some manifest →
      ∀ step ∈ manifest.completed, fits start.world.daemon step)
    (hreach : PoolReach (replaySystem s) start pool) : (replayDiscipline s fits).Holds pool := by
  refine Discipline.Holds.reach (replay_launchesSafe hfitting) ⟨⟨fun manifest hmanifest => ?_,
    fun _ => hready.apart, fun _ => hready.whole, fun _ call hcall => ?_⟩, fun i p hp => ?_⟩ hreach
  · exact ⟨hready.owns manifest hmanifest, hfits manifest hmanifest⟩
  · rw [hready.calls] at hcall
    cases hcall
  · rw [hready.idle i] at hp
    cases hp

end Outcome

section Runs

variable {D : Type} {s : ReplaySetting D}

/-- Whatever fails and whenever a cancel lands, over any number of runs: no key is recorded twice,
none is lost, and a call is made for a step only that is not recorded. The outcome is complete only
if every step is recorded, and it is then unless the run was cancelled or could not save. -/
theorem replay_exact (horderly : s.orderly = true) {start mid pool : ReplayPool D}
    (hready : s.Ready start) (hmid : PoolReach (replaySystem s) start mid)
    (hreach : PoolReach (replaySystem s) mid pool) :
    (∀ manifest, pool.world.company.manifest s.key = some manifest → manifest.keys.Nodup) ∧
    (∀ key ∈ mid.world.company.recorded s.key, key ∈ pool.world.company.recorded s.key) ∧
    (∀ call ∈ pool.world.calls, call.Due s.plan) ∧
    (∀ out, pool.threads .executor = some (.pure out) → ∃ outcome, out.1 = .ok outcome ∧
      (outcome.status = .complete → ∀ step ∈ s.plan.steps, StepRecorded s pool.world step) ∧
      ((∀ step ∈ s.plan.steps, StepRecorded s pool.world step) → outcome.status ≠ .cancelled →
        outcome.manifestError = none → outcome.status = .complete)) := by
  have hfitting : Fitting s fun _ _ => True := ⟨fun _ _ _ _ _ _ _ => trivial,
    fun _ _ _ _ _ _ _ _ _ _ => trivial, fun _ _ _ _ => trivial⟩
  have hstart := replay_holds hfitting hready (fun _ _ _ _ => trivial) hmid
  have hholds := hstart.reach (replay_launchesSafe hfitting) hreach
  have hkeeps := hstart.reach_change (replay_launchesSafe hfitting)
    (fun _ _ _ huv hvw ho key hkey => hvw ho key (huv ho key hkey)) hreach
  refine ⟨fun manifest hmanifest => (hholds.valid.genuine manifest hmanifest).owns.nodup,
    hkeeps horderly, hholds.valid.calls horderly, fun out hout => ?_⟩
  have hpost : ReplayPost s (fun _ _ => True) .executor out pool.world := hholds.post hout
  obtain ⟨outcome, hok, htold, -⟩ := hpost
  exact ⟨outcome, hok, htold.complete horderly, htold.recorded horderly⟩

end Runs

section Scripts

variable {D : Type} (s : ReplaySetting D)

/-- What becomes of the records. -/
def ReplayWorld.noted (w u : ReplayWorld D) (i : ReplayThread) (saves : Bool) : ReplayWorld D :=
  { u with
    started := w.started || i == .executor
    saver := if saves then some i else if w.saver = some i then none else w.saver }

/-- The files answer as they do when nothing fails, and the provisioner as `serve` says. -/
def replayAnswer (serve : D → (request : CompanyRequest) → Option (request.Reply × D))
    (w : ReplayWorld D) (i : ReplayThread) :
    (request : CompanyRequest) → Option (request.Reply × ReplayWorld D)
  | .loadManifest key _ =>
      let answer : Except ManifestError InstanceManifest :=
        match (w.company.slots key).main, w.company.manifest key with
        | none, _ => .error .notFound
        | some _, some manifest => .ok manifest
        | some _, none => .error (.decode "not a manifest")
      some (answer, w)
  | .now => some (some 0, w)
  | .openTemporary key =>
      (w.company.slots key).opened.temporary.map fun file => (.ok file, { w with
        company := w.company.setSlot key (w.company.slots key).opened })
  | .writeTemporary key file manifest => some (.ok (), { w with
      company := w.company.setSlot key ((w.company.slots key).written file (.whole manifest)) })
  | .renameTemporary key manifest =>
      (w.company.slots key).temporary.map fun file => (.ok (), { w with
        company := w.company.commitRename i.company key file manifest })
  | .ensureGroup request => (serve w.daemon (.ensureGroup request)).map fun out => (out.1, { w with
      daemon := out.2
      calls := ⟨.ensureGroup request, w.company.recorded s.key⟩ :: w.calls })
  | _ => none

/-- A thread that would break the order gets no answer. -/
def orderlyAnswer (serve : D → (request : CompanyRequest) → Option (request.Reply × D))
    (i : ReplayThread) (w : ReplayWorld D) (request : CompanyRequest) :
    Option (request.Reply × ReplayWorld D) :=
  (replayAnswer s serve w i request).bind fun out =>
    let saves := request.saves i out.1
    if s.orderly && saves && w.saver != none && w.saver != some i then none
    else some (out.1, w.noted out.2 i saves)

theorem serves_noted {w v : ReplayWorld D} {i : ReplayThread} {request : CompanyRequest}
    {answer : request.Reply} (hrequest : request.provisions = false) (hdaemon : v.daemon = w.daemon)
    (hcalls : v.calls = w.calls) :
    s.Serves i w request answer (w.noted v i (request.saves i answer)) where
  started := rfl
  saver := rfl
  call h := absurd h (by simp [hrequest])
  other _ := ⟨hdaemon, hcalls⟩

theorem replayAnswer_sound {serve : D → (request : CompanyRequest) → Option (request.Reply × D)}
    (hserve : ∀ d request answer d', serve d request = some (answer, d') →
      s.replies d request answer d') {w v : ReplayWorld D} {i : ReplayThread}
    (request : CompanyRequest) {answer : request.Reply}
    (h : replayAnswer s serve w i request = some (answer, v)) :
    w.FindsManifest request answer ∧ w.company.Answers i.company request answer v.company ∧
      s.Serves i w request answer (w.noted v i (request.saves i answer)) := by
  cases request with
  | loadManifest key guard =>
      simp only [replayAnswer] at h
      split at h
      · rename_i hmain
        cases h
        refine ⟨?_, ⟨hmain, rfl⟩, serves_noted s rfl rfl rfl⟩
        simp [ReplayWorld.FindsManifest, CompanyWorld.manifest, Slot.mainValue, Slot.held, hmain]
      · rename_i hmanifest
        cases h
        exact ⟨trivial, ⟨hmanifest, rfl⟩, serves_noted s rfl rfl rfl⟩
      · rename_i hmain hmanifest
        cases h
        refine ⟨hmanifest, ⟨⟨?_, hmanifest⟩, rfl⟩, serves_noted s rfl rfl rfl⟩
        rw [hmain]
        exact Option.some_ne_none _
  | now =>
      cases h
      exact ⟨trivial, rfl, serves_noted s rfl rfl rfl⟩
  | openTemporary key =>
      obtain ⟨file, hfile, heq⟩ := Option.map_eq_some_iff.mp h
      cases heq
      exact ⟨trivial, ⟨hfile, rfl⟩, serves_noted s rfl rfl rfl⟩
  | writeTemporary key file manifest =>
      cases h
      exact ⟨trivial, ⟨_, .inl rfl, rfl⟩, serves_noted s rfl rfl rfl⟩
  | renameTemporary key manifest =>
      obtain ⟨file, hfile, heq⟩ := Option.map_eq_some_iff.mp h
      cases heq
      exact ⟨trivial, ⟨file, hfile, rfl⟩, serves_noted s rfl rfl rfl⟩
  | ensureGroup request =>
      obtain ⟨⟨found, d⟩, hfound, heq⟩ := Option.map_eq_some_iff.mp h
      cases heq
      refine ⟨trivial, rfl, ⟨rfl, rfl, fun _ => ⟨hserve _ _ _ _ hfound, rfl⟩, ?_⟩⟩
      intro hother
      cases hother
  | _ => cases h

theorem orderlyAnswer_sound {serve : D → (request : CompanyRequest) → Option (request.Reply × D)}
    (hserve : ∀ d request answer d', serve d request = some (answer, d') →
      s.replies d request answer d') {w u : ReplayWorld D} {i : ReplayThread}
    (request : CompanyRequest) {answer : request.Reply}
    (h : orderlyAnswer s serve i w request = some (answer, u)) :
    (replaySystem s).commits i w request answer u := by
  obtain ⟨⟨given, v⟩, hgiven, hnoted⟩ := Option.bind_eq_some_iff.mp h
  dsimp only at hnoted
  split_ifs at hnoted with hbreaks
  cases hnoted
  obtain ⟨hfinds, hanswers, hserves⟩ := replayAnswer_sound s hserve request hgiven
  refine ⟨fun ho => ⟨fun _ _ => hfinds, fun hsaves => ?_⟩, hanswers, hserves⟩
  by_contra hother
  simp only [not_or] at hother
  exact hbreaks (by simp [ho, hsaves, hother.1, hother.2])

/-- Runs in which the files answer as they should; a cancel may be started at any time. -/
def replayScript (serve : D → (request : CompanyRequest) → Option (request.Reply × D))
    (hserve : ∀ d request answer d', serve d request = some (answer, d') →
      s.replies d request answer d') (instanceId : String) (hkey : instanceKey instanceId = s.key) :
    Script (replaySystem s) Unit Unit where
  answer _ := orderlyAnswer s serve
  program i _ :=
    match i with
    | .executor => instantiateCompany s.key s.plan []
    | .cancel _ => cancelCompanyRun instanceId []
  launchable i w _ := i != .executor || w.started == false
  stopped i w := some (w.ended i)
  moved _ _ := none
  answer_sound _ _ _ request _ _ h := orderlyAnswer_sound s hserve request h
  launch_sound i w _ h := by
    cases i with
    | executor => exact ⟨by simpa using h, rfl⟩
    | cancel n => exact ⟨instanceId, hkey, rfl⟩
  stop_sound _ _ _ h := (Option.some_inj.mp h).symm
  move_sound _ _ _ h := nomatch h

/-- No thread and no manifest. -/
def emptyReplay (d : D) : ReplayPool D :=
  ⟨⟨.new, d, false, [], none⟩, fun _ => none⟩

theorem emptyReplay_ready (d : D) : s.Ready (emptyReplay d) where
  idle _ := rfl
  started := rfl
  calls := rfl
  apart := ⟨fun _ h => (nomatch h), fun _ h => nomatch h⟩
  whole h := absurd rfl h
  owns _ h := by cases h

/-- The digests that the samples below meet. -/
def sampleDigest (text : String) : String :=
  if text = "acme-1" then "7974d1de1641df0234e124a5d0f4acfacfc40c99ea69f0295f943074816d1091"
  else if text = "acme-1|group|all" then
    "c70ec02e6a625e8cf77df9007cde4dba5a700dde8301c1e504958c6bc550a774"
  else if text = "acme-1|group|crew" then
    "037f4b6098417c8137908dfd52410072f382ead3efc0920afe4683756debb73c"
  else if text = "acme-1|symphony_config|config" then
    "58e7ff0feae00f6a4787c26407b7dd207bd6876a3878bd61a611ae1606d790e0"
  else if text = "acme-1|workflow_md|workflow" then
    "bdc59af640d3d8c1097efd00427bbb9dd602c840d9e76c7796a954785902d98c"
  else text

def sampleTemplate (names : List (String × String)) : CompanyTemplate where
  id := "crew"
  name := "Crew"
  description := none
  groups := names.map fun group => ⟨group.1, group.2, .publicOpen, none, []⟩
  roles := []
  stores := []
  taskLists := []

theorem instanceKey_sample : instanceKey "acme-1" = "acme-1" := by decide +kernel

/-- A provisioner that may answer anything. -/
def sampleSetting (orderly : Bool) : ReplaySetting Unit where
  key := "acme-1"
  plan := planInstantiation sampleDigest (sampleTemplate [("all", "All")]) "acme-1"
  replies _ _ _ _ := True
  orderly := orderly

def sampleReplay (orderly : Bool) : Script (replaySystem (sampleSetting orderly)) Unit Unit :=
  replayScript (sampleSetting orderly) (fun _ request =>
    match request with
    | .ensureGroup _ => some (.ok ⟨"g1", true⟩, ())
    | _ => none) (fun _ _ _ _ _ => trivial) "acme-1" instanceKey_sample

/-- What a pool shows: the calls so far, whether each step is recorded, and the status that the
executor has returned. -/
def sampleView (pool : ReplayPool Unit) : ℕ × List Bool × Option (Option ManifestStatus) :=
  (pool.world.calls.length,
    (sampleSetting true).plan.steps.map fun step =>
      decide (step.key ∈ pool.world.company.recorded "acme-1"),
    (pool.returned .executor).map fun out => out.1.toOption.map (·.status))

theorem sampleView_recorded {orderly : Bool} {pool : ReplayPool Unit} {calls : ℕ}
    {status : Option (Option ManifestStatus)}
    (h : sampleView pool = (calls, [true, true, true], status)) :
    ∀ step ∈ (sampleSetting orderly).plan.steps,
      StepRecorded (sampleSetting orderly) pool.world step := by
  simp only [sampleView, Prod.mk.injEq] at h
  intro step hstep
  have hmem : decide (step.key ∈ pool.world.company.recorded "acme-1") ∈ [true, true, true] := by
    rw [← h.2.1]
    exact List.mem_map_of_mem hstep
  have hrecorded : step.key ∈ pool.world.company.recorded "acme-1" := by simpa using hmem
  exact hrecorded

theorem sampleView_returned {pool : ReplayPool Unit} {calls : ℕ} {recorded : List Bool}
    {status : ManifestStatus} (h : sampleView pool = (calls, recorded, some (some status))) :
    ∃ out outcome, pool.threads .executor = some (.pure out) ∧ out.1 = .ok outcome ∧
      outcome.status = status := by
  simp only [sampleView, Prod.mk.injEq] at h
  obtain ⟨out, hout, hstatus⟩ := Option.map_eq_some_iff.mp h.2.2
  obtain ⟨outcome, hok, hsame⟩ := Option.map_eq_some_iff.mp hstatus
  refine ⟨out, outcome, Pool.threads_of_returned hout, ?_, hsame⟩
  cases hresult : out.1 with
  | error e => simp [hresult, Except.toOption] at hok
  | ok value =>
      have hvalue : value = outcome := by simpa [hresult, Except.toOption] using hok
      rw [hvalue]

/-- A second run makes no call and is complete again. -/
theorem replay_exact_second_run :
    ∃ pool : ReplayPool Unit,
      PoolReach (replaySystem (sampleSetting true)) (emptyReplay ()) pool ∧
      pool.world.calls.length = 1 ∧
      (∀ call ∈ pool.world.calls, call.Due (sampleSetting true).plan) ∧
      ∀ step ∈ (sampleSetting true).plan.steps,
        StepRecorded (sampleSetting true) pool.world step := by
  let acts : List (Act ReplayThread Unit Unit) :=
    [.launch .executor (), .steps .executor () 7, .stop .executor, .launch .executor (),
      .steps .executor () 30]
  have hplay : ((sampleReplay true).play acts (emptyReplay ())).map sampleView =
      some (1, [true, true, true], some (some .complete)) := by
    decide +kernel
  obtain ⟨pool, hpool, hview⟩ := Option.map_eq_some_iff.mp hplay
  have hreach := Script.reach_play acts hpool
  obtain ⟨-, -, hcalls, hout⟩ := replay_exact rfl (emptyReplay_ready (sampleSetting true) ())
    .refl hreach
  obtain ⟨out, outcome, hthread, hok, hstatus⟩ := sampleView_returned hview
  obtain ⟨other, hother, hcomplete, -⟩ := hout out hthread
  obtain rfl := Except.ok.inj (hok.symm.trans hother)
  exact ⟨pool, hreach, congrArg Prod.fst hview, hcalls, hcomplete hstatus⟩

/-- Every step is recorded when a cancel lands: the run that follows is cancelled, not complete. -/
theorem cancelled_when_recorded :
    ∃ pool : ReplayPool Unit,
      PoolReach (replaySystem (sampleSetting true)) (emptyReplay ()) pool ∧
      (∀ step ∈ (sampleSetting true).plan.steps,
        StepRecorded (sampleSetting true) pool.world step) ∧
      ∃ out outcome, pool.threads .executor = some (.pure out) ∧ out.1 = .ok outcome ∧
        outcome.status = .cancelled := by
  let acts : List (Act ReplayThread Unit Unit) :=
    [.launch .executor (), .steps .executor () 30, .stop .executor, .launch (.cancel 0) (),
      .steps (.cancel 0) () 5, .launch .executor (), .steps .executor () 1]
  have hplay : ((sampleReplay true).play acts (emptyReplay ())).map sampleView =
      some (1, [true, true, true], some (some .cancelled)) := by
    decide +kernel
  obtain ⟨pool, hpool, hview⟩ := Option.map_eq_some_iff.mp hplay
  exact ⟨pool, Script.reach_play acts hpool, sampleView_recorded hview, sampleView_returned hview⟩

/-- A cancel that has loaded before a checkpoint and saves behind it puts the shorter list back. -/
theorem overlapping_cancel_loses_key :
    ∃ mid pool : ReplayPool Unit,
      PoolReach (replaySystem (sampleSetting false)) (emptyReplay ()) mid ∧
      PoolReach (replaySystem (sampleSetting false)) mid pool ∧
      ∃ key ∈ mid.world.company.recorded "acme-1", key ∉ pool.world.company.recorded "acme-1" := by
  let before : List (Act ReplayThread Unit Unit) :=
    [.launch .executor (), .steps .executor () 7, .launch (.cancel 0) (), .steps (.cancel 0) () 1,
      .steps .executor () 5]
  let behind : List (Act ReplayThread Unit Unit) := [.steps (.cancel 0) () 4]
  let key : String := stepKey sampleDigest "acme-1" "symphony_config" "config"
  have hplay : (((sampleReplay false).play before (emptyReplay ())).bind fun mid =>
      ((sampleReplay false).play behind mid).map fun pool =>
        (decide (key ∈ mid.world.company.recorded "acme-1"),
          decide (key ∈ pool.world.company.recorded "acme-1"))) = some (true, false) := by
    decide +kernel
  obtain ⟨mid, hmid, hrest⟩ := Option.bind_eq_some_iff.mp hplay
  obtain ⟨pool, hpool, hkeys⟩ := Option.map_eq_some_iff.mp hrest
  obtain ⟨hheld, hlost⟩ := Prod.mk.inj hkeys
  exact ⟨mid, pool, Script.reach_play before hmid, Script.reach_play behind hpool, key,
    of_decide_eq_true hheld, of_decide_eq_false hlost⟩

/-- Complete runs end as cancelled, and a cancel may undo a checkpoint. -/
theorem replay_not_exact :
    validate (sampleTemplate [("all", "All")]) = .ok () ∧
    (∃ pool : ReplayPool Unit,
      PoolReach (replaySystem (sampleSetting true)) (emptyReplay ()) pool ∧
      (∀ step ∈ (sampleSetting true).plan.steps,
        StepRecorded (sampleSetting true) pool.world step) ∧
      ∃ out outcome, pool.threads .executor = some (.pure out) ∧ out.1 = .ok outcome ∧
        outcome.status = .cancelled) ∧
    ∃ mid pool : ReplayPool Unit,
      PoolReach (replaySystem (sampleSetting false)) (emptyReplay ()) mid ∧
      PoolReach (replaySystem (sampleSetting false)) mid pool ∧
      ∃ key ∈ mid.world.company.recorded "acme-1", key ∉ pool.world.company.recorded "acme-1" :=
  ⟨by decide +kernel, cancelled_when_recorded, overlapping_cancel_loses_key⟩

end Scripts

end Buzz.Company
