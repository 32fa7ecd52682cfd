import Buzz.CompanyCommands
import Buzz.TaskLogic

/-!
# Who can bring a manifest to life

Only the holder of the run lock writes a manifest that is not cancelled; a
cancel may interfere with its save but adds no such manifest. The invariant says
what every manifest on disk satisfies, and the assertions what the holder of the
lock knows about the directory it works on. Which conditions a run meets decides
how much of it holds.
-/

namespace Buzz.Company

open EffectProgram ReplacedFile

def InstanceManifest.Live (m : InstanceManifest) : Prop := m.status ≠ .cancelled

instance (m : InstanceManifest) : Decidable m.Live :=
  inferInstanceAs (Decidable (m.status ≠ .cancelled))

section Conditions

/-- A load fails only where there is no manifest, and a listing shows every instance. -/
def ReadsAll (w : CompanyWorld) : (request : CompanyRequest) → request.Reply → Prop
  | .loadManifest key _, .error _ => (w.slots key).main = none
  | .listInstances, keys => ∀ key, (w.slots key).main ≠ none → key ∈ keys
  | _, _ => True

/-- A rename does not fail and leave a manifest that is not cancelled under the temporary name. -/
def RenamesAll (w : CompanyWorld) : (request : CompanyRequest) → request.Reply → Prop
  | .renameTemporary key _, .error _ => ∀ m ∈ (w.slots key).temporaryValue, ¬m.Live
  | _, _ => True

/-- Every instance with a run issue has its identifier in the manifest, unless it is cancelled. -/
def IssuesRecorded (w : CompanyWorld) : Prop :=
  ∀ key, w.issued key ≠ 0 → ∀ m, (w.slots key).Holds m → m.Live → m.runId.isSome = true

/-- The daemon tells the identifier of the issue, and until it is recorded no access fails. -/
def RecordsIssues (w : CompanyWorld) : (request : CompanyRequest) → request.Reply → Prop
  | .createIssue _ _, .ok value => (value.getStr "id").isSome = true
  | .createIssue _ _, .error _ => False
  | .openTemporary _, .error _ => IssuesRecorded w
  | .writeTemporary _ _ _, .error _ => IssuesRecorded w
  | .renameTemporary _ _, .error _ => IssuesRecorded w
  | _, _ => True

structure CompanyPolicy.Readable (policy : CompanyPolicy) : Prop where
  reads : ∀ i w request answer, policy.step i w request answer → ReadsAll w request answer
  renames : ∀ i w request answer, policy.step i w request answer → RenamesAll w request answer

structure CompanyPolicy.Recording (policy : CompanyPolicy) : Prop extends policy.Readable where
  records : ∀ i w request answer, policy.step i w request answer → RecordsIssues w request answer
  crash : ∀ w, policy.crash w → IssuesRecorded w

end Conditions

/-- The templates, the digest and the conditions of a run. -/
structure CompanySetting where
  registry : List CompanyTemplate
  sha256Hex : String → String
  policy : CompanyPolicy

variable (s : CompanySetting)

section Invariant

/-- What it takes for a manifest to be complete. -/
structure CompleteManifest (m : InstanceManifest) : Prop where
  steps : ∃ template, getCompanyTemplate s.registry m.templateId = some template ∧
    ∀ step ∈ (planInstantiation s.sha256Hex template m.instanceId).steps,
      (m.completedKey step.key).isSome = true
  runId : m.runId.isSome = true
  identities : m.hasPostPhase m.instanceId "identities" = true
  membership : m.hasPostPhase m.instanceId "membership" = true
  symphonyBind : m.hasPostPhase m.instanceId "symphony_bind" = true

structure SoundManifest (key : String) (m : InstanceManifest) : Prop where
  instanceId : m.instanceId = key
  key_eq : instanceKey key = key
  complete : m.status = .complete → CompleteManifest s m

/-- What the run lock protects, while nobody holds it. -/
structure Calm (w : CompanyWorld) : Prop where
  settled : s.policy.Readable → ∀ key, ∀ m ∈ (w.slots key).temporaryValue, ¬m.Live
  recorded : s.policy.Recording → IssuesRecorded w

structure CompanyInvariant (w : CompanyWorld) : Prop where
  sound : ∀ key m, (w.slots key).Holds m → SoundManifest s key m
  template : s.policy.Readable → ∀ key, (w.slots key).main ≠ none →
    ∃ t, w.template key = some t ∧ ∀ m, (w.slots key).Holds m → m.templateId = t
  single : s.policy.Readable → ∀ key key' m m', (w.slots key).Holds m → m.Live →
    (w.slots key').Holds m' → m'.Live → key = key'
  issued : s.policy.Recording → ∀ key, w.issued key ≠ 0 → (w.slots key).main ≠ none
  limit : s.policy.Recording → ∀ key, w.issued key ≤ 1
  calm : w.lock = none → Calm s w

/-- No manifest comes to life, no issue is created and no template changes. -/
structure FilesShrink (w u : CompanyWorld) : Prop where
  slots : ∀ key, Shrinks InstanceManifest.Live (w.slots key) (u.slots key)
  template : u.template = w.template
  issued : u.issued = w.issued

structure CompanyRely (i : CompanyThread) (w u : CompanyWorld) : Prop where
  app : w.app ≤ u.app
  main : ∀ key, (w.slots key).main ≠ none → (u.slots key).main ≠ none
  template : ∀ key, (w.slots key).main ≠ none → u.template key = w.template key
  held : w.lock = some i → u.app = w.app → u.lock = some i ∧ FilesShrink w u

structure CompanyGuar (i : CompanyThread) (w u : CompanyWorld) : Prop where
  app : u.app = w.app
  main : ∀ key, (w.slots key).main ≠ none → (u.slots key).main ≠ none
  template : ∀ key, (w.slots key).main ≠ none → u.template key = w.template key
  held : ∀ j, j ≠ i → w.lock = some j → u.lock = some j ∧ FilesShrink w u

end Invariant

section Shrinking

variable {w u v : CompanyWorld} {i : CompanyThread}

theorem FilesShrink.trans (hwu : FilesShrink w u) (huv : FilesShrink u v) : FilesShrink w v where
  slots key := (hwu.slots key).trans (huv.slots key)
  template := huv.template.trans hwu.template
  issued := huv.issued.trans hwu.issued

theorem FilesShrink.of_eq (hslots : u.slots = w.slots) (htemplate : u.template = w.template)
    (hissued : u.issued = w.issued) : FilesShrink w u where
  slots key := by
    rw [hslots]
    exact Shrinks.refl _
  template := htemplate
  issued := hissued

/-- A change of one directory. -/
theorem FilesShrink.setSlot {key : String} {slot : Slot InstanceManifest}
    (h : Shrinks InstanceManifest.Live (w.slots key) slot) :
      FilesShrink w (w.setSlot key slot) where
  slots other := by
    by_cases ho : other = key
    · subst ho
      simpa [CompanyWorld.setSlot] using h
    · simpa [CompanyWorld.setSlot, Function.update_of_ne ho] using Shrinks.refl _
  template := rfl
  issued := rfl

theorem FilesShrink.main_ne (h : FilesShrink w u) {key : String}
    (hmain : (u.slots key).main ≠ none) : (w.slots key).main ≠ none := by
  intro hnone
  rw [(h.slots key).missing hnone] at hmain
  exact hmain hnone

theorem IssuesRecorded.mono (h : IssuesRecorded w) (hissued : u.issued = w.issued)
    (hslots : ∀ key m, (u.slots key).Holds m → m.Live → (w.slots key).Holds m) :
    IssuesRecorded u := by
  intro key hne m hm hlive
  rw [hissued] at hne
  exact h key hne m (hslots key m hm hlive) hlive

theorem FilesShrink.recorded (h : FilesShrink w u) (hw : IssuesRecorded w) : IssuesRecorded u :=
  hw.mono h.issued fun key _ hm hlive => (h.slots key).holds hm hlive

variable {s : CompanySetting}

theorem Calm.mono (h : Calm s w) (hfiles : FilesShrink w u) : Calm s u where
  settled hread key m hm hlive :=
    h.settled hread key m ((hfiles.slots key).temporary m hm hlive) hlive
  recorded hrec := hfiles.recorded (h.recorded hrec)

/-- A step that brings nothing to life. What it writes is sound. -/
theorem CompanyInvariant.shrink (h : CompanyInvariant s w)
    (hlock : u.lock = none → Calm s u) (hfiles : FilesShrink w u)
    (hsound : ∀ key m, (u.slots key).Holds m → SoundManifest s key m)
    (htemplate : s.policy.Readable → ∀ key t, w.template key = some t →
      ∀ m, (u.slots key).Holds m → (w.slots key).main ≠ none → m.templateId = t) :
    CompanyInvariant s u where
  sound := hsound
  template hread key hmain := by
    have hmain' := hfiles.main_ne hmain
    obtain ⟨t, ht, -⟩ := h.template hread key hmain'
    refine ⟨t, ?_, fun m hm => htemplate hread key t ht m hm hmain'⟩
    rw [hfiles.template, ht]
  single hread key key' m m' hm hlive hm' hlive' :=
    h.single hread key key' m m' ((hfiles.slots key).holds hm hlive) hlive
      ((hfiles.slots key').holds hm' hlive') hlive'
  issued hrec key hne := by
    rw [hfiles.issued] at hne
    exact (hfiles.slots key).kept (h.issued hrec key hne)
  limit hrec key := by
    rw [hfiles.issued]
    exact h.limit hrec key
  calm := hlock

/-- A step that leaves the manifests, the lock and the issues alone. -/
structure SameFiles (w u : CompanyWorld) : Prop where
  app : u.app = w.app
  lock : u.lock = w.lock
  slots : u.slots = w.slots
  template : u.template = w.template
  issued : u.issued = w.issued

theorem SameFiles.shrink (h : SameFiles w u) : FilesShrink w u :=
  .of_eq h.slots h.template h.issued

theorem SameFiles.invariant (h : SameFiles w u)
    (hw : CompanyInvariant s w) :
    CompanyInvariant s u := by
  apply hw.shrink _ h.shrink
  · intro key m hm
    rw [h.slots] at hm
    exact hw.sound key m hm
  · intro hread key t ht m hm hmain
    rw [h.slots] at hm
    obtain ⟨t', ht', hall⟩ := hw.template hread key hmain
    rw [hall m hm]
    exact Option.some.inj (ht'.symm.trans ht)
  · intro hlock
    rw [h.lock] at hlock
    exact (hw.calm hlock).mono h.shrink

theorem SameFiles.rely (h : SameFiles w u) : CompanyRely i w u where
  app := le_of_eq h.app.symm
  main key hmain := by rwa [h.slots]
  template key _ := by rw [h.template]
  held hlock _ := ⟨h.lock.trans hlock, h.shrink⟩

theorem SameFiles.guar (h : SameFiles w u) : CompanyGuar i w u where
  app := h.app
  main key hmain := by rwa [h.slots]
  template key _ := by rw [h.template]
  held _ _ hlock := ⟨h.lock.trans hlock, h.shrink⟩

end Shrinking

section Discipline

variable {w u v : CompanyWorld} {i : CompanyThread}

theorem CompanyRely.refl (i : CompanyThread) (w : CompanyWorld) : CompanyRely i w w :=
  SameFiles.rely ⟨rfl, rfl, rfl, rfl, rfl⟩

theorem CompanyRely.trans (hwu : CompanyRely i w u) (huv : CompanyRely i u v) :
    CompanyRely i w v where
  app := hwu.app.trans huv.app
  main key hmain := huv.main key (hwu.main key hmain)
  template key hmain := (huv.template key (hwu.main key hmain)).trans (hwu.template key hmain)
  held hlock happ := by
    have hu : u.app = w.app := le_antisymm (happ ▸ huv.app) hwu.app
    obtain ⟨hlock', hfiles⟩ := hwu.held hlock hu
    obtain ⟨hlock'', hfiles'⟩ := huv.held hlock' (happ.trans hu.symm)
    exact ⟨hlock'', hfiles.trans hfiles'⟩

variable {s : CompanySetting}

theorem CompanyInvariant.crash (h : CompanyInvariant s w)
    (hpolicy : s.policy.crash w) : CompanyInvariant s w.crash where
  sound key m hm := h.sound key m (.inl (holds_settled hm))
  template hread key hmain := by
    obtain ⟨t, ht, hall⟩ := h.template hread key hmain
    exact ⟨t, ht, fun m hm => hall m (.inl (holds_settled hm))⟩
  single hread key key' m m' hm hlive hm' hlive' :=
    h.single hread key key' m m' (.inl (holds_settled hm)) hlive (.inl (holds_settled hm')) hlive'
  issued hrec := h.issued hrec
  limit hrec := h.limit hrec
  calm _ :=
    { settled := fun _ _ _ hm => by cases hm
      recorded := fun hrec => (hrec.crash w hpolicy).mono rfl
        fun _ _ hm _ => .inl (holds_settled hm) }

theorem crash_rely : CompanyRely i w w.crash where
  app := Nat.le_succ w.app
  main _ hmain := hmain
  template _ _ := rfl
  held _ happ := absurd happ (Nat.succ_ne_self w.app)

variable (s)

def liveDiscipline : Discipline (companySystem s.registry s.sha256Hex s.policy) where
  valid := CompanyInvariant s
  rely := CompanyRely
  guar := CompanyGuar
  change _ _ := True
  post _ _ _ := True
  rely_refl := CompanyRely.refl
  rely_trans _ _ _ _ := CompanyRely.trans
  guar_rely _ j _ _ hij _ _ hguar :=
    { app := le_of_eq hguar.app.symm
      main := hguar.main
      template := hguar.template
      held := fun hlock _ => hguar.held j (Ne.symm hij) hlock }
  guar_change _ _ _ _ _ _ := True.intro
  change_refl _ := True.intro
  stops_valid _ _ _ _ hstop := hstop.elim
  stops_rely _ _ _ _ _ _ hstop := hstop.elim
  stops_change _ _ _ _ hstop := hstop.elim
  moves_valid _ _ hw hmove := hmove.2 ▸ hw.crash hmove.1
  moves_rely _ _ _ _ hmove := hmove.2 ▸ crash_rely
  moves_change _ _ _ _ := True.intro

def liveSpan (i : CompanyThread) :
    Lifespan ((liveDiscipline s).contract i) where
  alive w := w.app ≤ i.app
  alive_of_rely _ _ hrely halive := hrely.app.trans halive
  alive_of_commits _ _ _ _ hcommit := le_of_eq hcommit.2.1.symm

end Discipline

section Rules

variable {s : CompanySetting} {i : CompanyThread} {α : Type}

/-- A triple of the holder of the lock, or of a cancel. -/
abbrev LiveTriple (s : CompanySetting) (i : CompanyThread) (P : CompanyWorld → Prop)
    (t : CompanyTask α)
    (Q : α → CompanyWorld → Prop) (E : CompanyExit → CompanyWorld → Prop) : Prop :=
  Task.Triple (liveSpan s i) P t Q E

abbrev LiveStable (s : CompanySetting) (i : CompanyThread) (P : CompanyWorld → Prop) : Prop :=
  Stable (liveSpan s i) P

/-- Requests that touch neither the manifests nor the lock. -/
def CompanyRequest.isQuiet : CompanyRequest → Bool
  | .acquireRunLock | .releaseRunLock | .openTemporary _ | .writeTemporary _ _ _
  | .renameTemporary _ _ | .createIssue _ _ => false
  | _ => true

theorem sameFiles_of_quiet {w u : CompanyWorld} {request : CompanyRequest}
    {answer : request.Reply} (hquiet : request.isQuiet = true)
    (h : w.Commits i request answer u) : SameFiles w u := by
  obtain ⟨-, v, hv, rfl⟩ := h
  cases request <;> simp_all [CompanyRequest.isQuiet, CompanyWorld.Answers] <;>
    exact ⟨rfl, rfl, rfl, rfl, rfl⟩

variable {P : CompanyWorld → Prop} {E : CompanyExit → CompanyWorld → Prop}

/-- A quiet request gives an answer that may tell something about the world. -/
theorem liveTriple_read {request : CompanyRequest} {Q : request.Reply → CompanyWorld → Prop}
    (hquiet : request.isQuiet = true) (hP : LiveStable s i P)
    (hQ : ∀ answer, LiveStable s i (Q answer))
    (h : ∀ w answer u, CompanyInvariant s w → P w →
      s.policy.step i w request answer → w.Answers i request answer u → Q answer w) :
    LiveTriple s i P (ask request) Q E := by
  apply Task.triple_perform hP hQ
  intro w answer u hw hpre hcommit
  have hsame := sameFiles_of_quiet hquiet hcommit.2
  have halive : u.app ≤ i.app := le_of_eq (hsame.app.trans hcommit.2.1.symm)
  have hu : CompanyInvariant s u := hsame.invariant hw
  obtain ⟨v, hv, -⟩ := hcommit.2.2
  exact ⟨hu, hsame.guar, hQ answer w u hu hsame.rely halive (h w answer v hw hpre hcommit.1 hv)⟩

theorem liveTriple_quiet {request : CompanyRequest} (hquiet : request.isQuiet = true)
    (hP : LiveStable s i P) :
    LiveTriple s i P (ask request) (fun _ => P) E :=
  liveTriple_read hquiet hP (fun _ => hP) fun _ _ _ _ hpre _ _ => hpre

theorem liveTriple_pushError {error : CompanyInstantiationError}
    (hP : LiveStable s i P) :
    LiveTriple s i P (pushError error) (fun _ => P) E :=
  Task.triple_bind (Task.triple_getMemory hP) fun _ => Task.triple_setMemory hP

end Rules

section Assertions

structure Locked (i : CompanyThread) (w : CompanyWorld) : Prop where
  app : w.app = i.app
  lock : w.lock = some i

/-- No other directory has a manifest that is not cancelled. -/
def Alone (key : String) (w : CompanyWorld) : Prop :=
  s.policy.Readable → ∀ other, other ≠ key → ∀ m, (w.slots other).Holds m → ¬m.Live

/-- No manifest that is not cancelled stands under the temporary name. -/
def NoneWaiting (key : String) (w : CompanyWorld) : Prop :=
  ∀ m ∈ (w.slots key).temporaryValue, ¬m.Live

/-- The directory has a manifest, and it belongs to the template. -/
structure Placed (key templateId : String) (w : CompanyWorld) : Prop where
  main : (w.slots key).main ≠ none
  template : s.policy.Readable → w.template key = some templateId

/-- The holder of the lock may let it go. -/
structure Free (i : CompanyThread) (w : CompanyWorld) : Prop where
  locked : Locked i w
  calm : Calm s w

/-- The holder works on one instance and is not in the middle of a save. -/
structure Resting (i : CompanyThread) (key templateId : String) (w : CompanyWorld) : Prop
    extends Free s i w where
  alone : Alone s key w
  placed : Placed s key templateId w

/-- What the holder has saved or read is still there, or the instance is cancelled. -/
structure Know (i : CompanyThread) (key templateId : String) (Q : InstanceManifest → Prop)
    (w : CompanyWorld) : Prop extends Resting s i key templateId w where
  waiting : NoneWaiting key w
  main : ∀ m ∈ (w.slots key).mainValue, m.Live → Q m

/-- The manifest keeps the identifier of the run issue if there is one. -/
def Carries (key : String) (m : InstanceManifest) (w : CompanyWorld) : Prop :=
  s.policy.Recording → w.issued key ≠ 0 → m.Live → m.runId.isSome = true

/-- The manifest belongs to the directory and to the template. -/
structure FiledManifest (key templateId : String) (m : InstanceManifest) : Prop
    extends SoundManifest s key m where
  templateId : s.policy.Readable → m.templateId = templateId

/-- The holder is about to save `m`. The issue that `m` records may have been created since the
last save. `known` tells that the directory has a manifest. -/
structure Writable (i : CompanyThread) (key : String) (m : InstanceManifest) (known : Prop)
    (w : CompanyWorld) : Prop where
  locked : Locked i w
  alone : Alone s key w
  main : known → (w.slots key).main ≠ none
  place : s.policy.Readable → (w.slots key).main = none ∨ w.template key = some m.templateId
  others : s.policy.Recording → ∀ other, other ≠ key → w.issued other ≠ 0 →
    ∀ v, (w.slots other).Holds v → v.Live → v.runId.isSome = true
  carries : Carries s key m w

/-- What stands under the temporary name satisfies `Q`; a cancelled manifest need not, once the
directory has a manifest. -/
def Waiting (key : String) (Q : InstanceManifest → Prop) (w : CompanyWorld) : Prop :=
  ∀ v ∈ (w.slots key).temporaryValue, v.Live ∨ (w.slots key).main = none → Q v

/-- The save has failed or was refused. -/
structure Halted (i : CompanyThread) (key templateId : String) (known : Prop)
    (w : CompanyWorld) : Prop extends Free s i w where
  alone : Alone s key w
  placed : known → Placed s key templateId w

/-- The manifest is replaced, or it was not and the holder rests. -/
def Saved (i : CompanyThread) (key : String) (m : InstanceManifest) (known : Prop)
    (out : Except ManifestError Unit) (w : CompanyWorld) : Prop :=
  match out with
  | .ok _ => Know s i key m.templateId (fun v => v = m) w
  | .error _ => Halted s i key m.templateId known w

end Assertions

section Stability

variable {s} {i : CompanyThread} {key templateId : String} {w u : CompanyWorld}
variable {m : InstanceManifest} {known : Prop}

theorem Locked.step (h : Locked i w) (hrely : CompanyRely i w u) (halive : u.app ≤ i.app) :
    Locked i u ∧ FilesShrink w u := by
  have happ : u.app = w.app := le_antisymm (h.app ▸ halive) hrely.app
  obtain ⟨hlock, hfiles⟩ := hrely.held h.lock happ
  exact ⟨⟨happ.trans h.app, hlock⟩, hfiles⟩

theorem Alone.shrink (h : Alone s key w) (hfiles : FilesShrink w u) : Alone s key u :=
  fun hread other hne m hm hlive =>
    h hread other hne m ((hfiles.slots other).holds hm hlive) hlive

theorem NoneWaiting.shrink (h : NoneWaiting key w) (hfiles : FilesShrink w u) :
    NoneWaiting key u :=
  fun m hm hlive => h m ((hfiles.slots key).temporary m hm hlive) hlive

theorem Placed.shrink (h : Placed s key templateId w) (hfiles : FilesShrink w u) :
    Placed s key templateId u where
  main := (hfiles.slots key).kept h.main
  template hread := by
    rw [hfiles.template]
    exact h.template hread

theorem stable_free : LiveStable s i (Free s i) := by
  intro w u _ hrely halive h
  obtain ⟨hlocked, hfiles⟩ := h.locked.step hrely halive
  exact ⟨hlocked, h.calm.mono hfiles⟩

theorem Resting.step (h : Resting s i key templateId w) (hlocked : Locked i u)
    (hfiles : FilesShrink w u) : Resting s i key templateId u :=
  ⟨⟨hlocked, h.calm.mono hfiles⟩, h.alone.shrink hfiles, h.placed.shrink hfiles⟩

theorem stable_resting : LiveStable s i (Resting s i key templateId) := by
  intro w u _ hrely halive h
  obtain ⟨hlocked, hfiles⟩ := h.locked.step hrely halive
  exact h.step hlocked hfiles

theorem stable_know {Q : InstanceManifest → Prop} :
    LiveStable s i (Know s i key templateId Q) := by
  intro w u _ hrely halive h
  obtain ⟨hlocked, hfiles⟩ := h.locked.step hrely halive
  refine ⟨h.toResting.step hlocked hfiles, h.waiting.shrink hfiles, fun m hm hlive => ?_⟩
  obtain hm | hm := (hfiles.slots key).main m hm hlive
  · exact h.main m hm hlive
  · exact absurd hlive (h.waiting m hm)

/-- The number of issues stands still while the lock is held. -/
theorem stable_carries {P : CompanyWorld → Prop}
    (hP : LiveStable s i P) (hlocked : ∀ w, P w → Locked i w) :
    LiveStable s i fun w => P w ∧ Carries s key m w := by
  intro w u hu hrely halive h
  have hfiles := ((hlocked w h.1).step hrely halive).2
  exact ⟨hP w u hu hrely halive h.1, fun hrec hissued => h.2 hrec (hfiles.issued ▸ hissued)⟩

theorem others_shrink (hfiles : FilesShrink w u)
    (h : s.policy.Recording → ∀ other, other ≠ key → w.issued other ≠ 0 →
      ∀ v, (w.slots other).Holds v → v.Live → v.runId.isSome = true) :
    s.policy.Recording → ∀ other, other ≠ key → u.issued other ≠ 0 →
      ∀ v, (u.slots other).Holds v → v.Live → v.runId.isSome = true := by
  intro hrec other hne hissued v hv hlive
  rw [hfiles.issued] at hissued
  exact h hrec other hne hissued v ((hfiles.slots other).holds hv hlive) hlive

theorem place_shrink (hfiles : FilesShrink w u)
    (h : s.policy.Readable → (w.slots key).main = none ∨ w.template key = some templateId) :
    s.policy.Readable → (u.slots key).main = none ∨ u.template key = some templateId := by
  intro hread
  obtain hnone | htemplate := h hread
  · left
    rw [(hfiles.slots key).missing hnone]
    exact hnone
  · right
    rw [hfiles.template]
    exact htemplate

theorem Writable.step (h : Writable s i key m known w)
    (hlocked : Locked i u) (hfiles : FilesShrink w u) : Writable s i key m known u where
  locked := hlocked
  alone := h.alone.shrink hfiles
  main hknown := (hfiles.slots key).kept (h.main hknown)
  place := place_shrink hfiles h.place
  others := others_shrink hfiles h.others
  carries hrec hissued := h.carries hrec (hfiles.issued ▸ hissued)

theorem Waiting.shrink {Q : InstanceManifest → Prop} (h : Waiting key Q w)
    (hfiles : FilesShrink w u) : Waiting key Q u := by
  intro v hv hcase
  rcases hcase with hlive | hnone
  · exact h v ((hfiles.slots key).temporary v hv hlive) (.inl hlive)
  · have hnone' : (w.slots key).main = none := by
      by_contra hmain
      exact (hfiles.slots key).kept hmain hnone
    rw [(hfiles.slots key).missing hnone'] at hv
    exact h v hv (.inr hnone')

theorem stable_waiting {Q : InstanceManifest → Prop} :
    LiveStable s i fun w => Writable s i key m known w ∧ Waiting key Q w := by
  intro w u _ hrely halive h
  obtain ⟨hlocked, hfiles⟩ := h.1.locked.step hrely halive
  exact ⟨h.1.step hlocked hfiles, h.2.shrink hfiles⟩

theorem stable_settled : LiveStable s i fun w => Writable s i key m known w ∧
      (s.policy.Readable → NoneWaiting key w) := by
  intro w u _ hrely halive h
  obtain ⟨hlocked, hfiles⟩ := h.1.locked.step hrely halive
  exact ⟨h.1.step hlocked hfiles, fun hread => (h.2 hread).shrink hfiles⟩

theorem stable_halted : LiveStable s i (Halted s i key templateId known) := by
  intro w u hu hrely halive h
  obtain ⟨-, hfiles⟩ := h.locked.step hrely halive
  exact ⟨stable_free w u hu hrely halive h.toFree, h.alone.shrink hfiles,
    fun hknown => (h.placed hknown).shrink hfiles⟩

end Stability

section Saving

variable {s} {i : CompanyThread} {key : String} {m : InstanceManifest} {known : Prop}
  {w u : CompanyWorld}

/-- A step of the holder on one directory. -/
structure Touched (key : String) (w u : CompanyWorld) : Prop where
  app : u.app = w.app
  lock : u.lock = w.lock
  issued : u.issued = w.issued
  slots : ∀ other, other ≠ key → u.slots other = w.slots other
  main : (w.slots key).main ≠ none → (u.slots key).main ≠ none
  template : ∀ other, other ≠ key ∨ (w.slots key).main ≠ none → u.template other = w.template other

theorem Touched.guar (h : Touched key w u) (hlocked : Locked i w) : CompanyGuar i w u where
  app := h.app
  main other hmain := by
    by_cases ho : other = key
    · subst ho
      exact h.main hmain
    · rwa [h.slots other ho]
  template other hmain := by
    by_cases ho : other = key
    · subst ho
      exact h.template _ (.inr hmain)
    · exact h.template _ (.inl ho)
  held j hj hlock := absurd (Option.some.inj (hlock.symm.trans hlocked.lock)) hj

theorem Touched.locked (h : Touched key w u) (hlocked : Locked i w) : Locked i u :=
  ⟨h.app.trans hlocked.app, h.lock.trans hlocked.lock⟩

theorem Touched.alone (h : Touched key w u) (halone : Alone s key w) : Alone s key u := by
  intro hread other hne v hv
  rw [h.slots other hne] at hv
  exact halone hread other hne v hv

theorem Touched.invariant (h : Touched key w u) (hw : CompanyInvariant s w)
    (hlocked : Locked i w) (halone : Alone s key w)
    (hsound : ∀ v, (u.slots key).Holds v → SoundManifest s key v)
    (htemplate : s.policy.Readable → (u.slots key).main ≠ none →
      ∃ t, u.template key = some t ∧ ∀ v, (u.slots key).Holds v → v.templateId = t) :
    CompanyInvariant s u where
  sound other v hv := by
    by_cases ho : other = key
    · subst ho
      exact hsound v hv
    · rw [h.slots other ho] at hv
      exact hw.sound other v hv
  template hread other hmain := by
    by_cases ho : other = key
    · subst ho
      exact htemplate hread hmain
    · rw [h.slots other ho] at hmain ⊢
      rw [h.template other (.inl ho)]
      exact hw.template hread other hmain
  single hread other other' v v' hv hlive hv' hlive' := by
    have hkey := h.alone halone hread
    have heq : ∀ k x, (u.slots k).Holds x → x.Live → k = key := by
      intro k x hx hxlive
      by_contra hk
      exact hkey k hk x hx hxlive
    rw [heq other v hv hlive, heq other' v' hv' hlive']
  issued hrec other hne := by
    rw [h.issued] at hne
    have hmain := hw.issued hrec other hne
    by_cases ho : other = key
    · subst ho
      exact h.main hmain
    · rwa [h.slots other ho]
  limit hrec other := by
    rw [h.issued]
    exact hw.limit hrec other
  calm hlock := by
    rw [h.lock, hlocked.lock] at hlock
    cases hlock

theorem touched_setSlot {slot : Slot InstanceManifest} {saving : CompanyThread → Option String}
    (hmain : (w.slots key).main ≠ none → slot.main ≠ none) :
    Touched key w { w.setSlot key slot with saving := saving } where
  app := rfl
  lock := rfl
  issued := rfl
  slots other ho := Function.update_of_ne ho _ _
  main h := by
    simpa [CompanyWorld.setSlot] using hmain h
  template _ _ := rfl

/-- What is known about a save carries over a step on the directory that keeps its template. -/
theorem Writable.touch (h : Writable s i key m known w) (htouch : Touched key w u)
    (hmain : (u.slots key).main = none ↔ (w.slots key).main = none) :
    Writable s i key m known u where
  locked := htouch.locked h.locked
  alone := htouch.alone h.alone
  main hknown := htouch.main (h.main hknown)
  place hread := by
    by_cases hnone : (w.slots key).main = none
    · exact .inl (hmain.mpr hnone)
    · rw [htouch.template key (.inr hnone)]
      exact .inr ((h.place hread).resolve_left hnone)
  others hrec other hne hissued v hv := by
    rw [htouch.issued] at hissued
    rw [htouch.slots other hne] at hv
    exact h.others hrec other hne hissued v hv
  carries hrec hissued := by
    rw [htouch.issued] at hissued
    exact h.carries hrec hissued

theorem Writable.halted (h : Writable s i key m known w)
    (hsettled : s.policy.Readable → NoneWaiting key w)
    (hrecorded : s.policy.Recording → IssuesRecorded w) :
    Halted s i key m.templateId known w where
  locked := h.locked
  calm :=
    { settled := fun hread other v hv hlive => by
        by_cases ho : other = key
        · subst ho
          exact hsettled hread v hv hlive
        · exact h.alone hread other ho v (.inr hv) hlive
      recorded := hrecorded }
  alone := h.alone
  placed hknown :=
    ⟨h.main hknown, fun hread => (h.place hread).resolve_left (h.main hknown)⟩

variable {E : CompanyExit → CompanyWorld → Prop}

theorem liveTriple_open :
    LiveTriple s i (fun w => Writable s i key m known w ∧ (s.policy.Readable → NoneWaiting key w))
      (ask (.openTemporary key))
      (fun answer w => match answer with
        | .ok _ => Writable s i key m known w ∧ Waiting key (fun _ => False) w
        | .error _ => Halted s i key m.templateId known w) E := by
  apply Task.triple_perform stable_settled
  · intro answer
    cases answer with
    | ok file => exact stable_waiting
    | error message => exact stable_halted
  · rintro w answer u hw ⟨hpre, hsettled⟩ ⟨hpolicy, -, v, hv, rfl⟩
    cases answer with
    | ok file =>
      obtain ⟨-, rfl⟩ := hv
      have hslot : ((w.setSlot key (w.slots key).opened).slots key) = (w.slots key).opened :=
        Function.update_self ..
      have htouch : Touched key w { w.setSlot key (w.slots key).opened with
          saving := Function.update w.saving i (some key) } :=
        touched_setSlot (by rw [main_opened]; exact id)
      have hmain : (w.slots key).opened.main = (w.slots key).main := main_opened
      refine ⟨?_, htouch.guar hpre.locked, hpre.touch htouch ?_, ?_⟩
      · apply htouch.invariant hw hpre.locked hpre.alone
        · intro x hx
          rw [hslot] at hx
          exact hw.sound key x (.inl (holds_opened hx))
        · intro hread hne
          rw [hslot, hmain] at hne
          obtain ⟨t, ht, hall⟩ := hw.template hread key hne
          refine ⟨t, ht, fun x hx => ?_⟩
          rw [hslot] at hx
          exact hall x (.inl (holds_opened hx))
      · rw [hslot, hmain]
      · intro x hx _
        rw [hslot, temporaryValue_opened] at hx
        cases hx
    | error message =>
      obtain rfl := hv
      have hsame : SameFiles v { v with saving := Function.update v.saving i none } :=
        ⟨rfl, rfl, rfl, rfl, rfl⟩
      have hhalted := hpre.halted hsettled fun hrec => hrec.records i v _ _ hpolicy
      have hu := hsame.invariant hw
      exact ⟨hu, hsame.guar,
        stable_halted v _ hu hsame.rely (le_of_eq hpre.locked.app) hhalted⟩

theorem liveTriple_write {file : ℕ} (hsound : SoundManifest s key m) :
    LiveTriple s i (fun w => Writable s i key m known w ∧ Waiting key (fun _ => False) w)
      (ask (.writeTemporary key file m))
      (fun answer w => match answer with
        | .ok _ => Writable s i key m known w ∧ Waiting key (fun v => v = m) w
        | .error _ => Halted s i key m.templateId known w) E := by
  apply Task.triple_perform stable_waiting
  · intro answer
    cases answer with
    | ok _ => exact stable_waiting
    | error message => exact stable_halted
  · rintro w answer u hw ⟨hpre, hwaiting⟩ ⟨hpolicy, -, v, hv, rfl⟩
    cases answer with
    | ok done =>
      obtain ⟨body, hbody, rfl⟩ := hv
      have hslot : ((w.setSlot key ((w.slots key).written file body)).slots key) =
          (w.slots key).written file body := Function.update_self ..
      have htouch : Touched key w { w.setSlot key ((w.slots key).written file body) with
          saving := Function.update w.saving i (some key) } := touched_setSlot id
      refine ⟨?_, htouch.guar hpre.locked, hpre.touch htouch ?_, ?_⟩
      · apply htouch.invariant hw hpre.locked hpre.alone
        · intro x hx
          rw [hslot] at hx
          obtain rfl | hx := holds_written hbody hx
          · exact hsound
          · exact hw.sound key x hx
        · intro hread hne
          rw [hslot] at hne
          obtain ⟨t, ht, hall⟩ := hw.template hread key hne
          refine ⟨t, ht, fun x hx => ?_⟩
          rw [hslot] at hx
          obtain rfl | hx := holds_written hbody hx
          · exact Option.some.inj (((hpre.place hread).resolve_left hne).symm.trans ht)
          · exact hall x hx
      · rw [hslot]
        exact Iff.rfl
      · intro x hx hcase
        rw [hslot] at hx hcase
        obtain hx | hx := temporaryValue_written hbody hx
        · exact hx
        · exact (hwaiting x hx hcase).elim
    | error message =>
      obtain ⟨body, hbody, rfl⟩ := hv
      have hslot : ((w.setSlot key ((w.slots key).written file body)).slots key) =
          (w.slots key).written file body := Function.update_self ..
      have htouch : Touched key w { w.setSlot key ((w.slots key).written file body) with
          saving := Function.update w.saving i none } := touched_setSlot id
      refine ⟨?_, htouch.guar hpre.locked, (hpre.touch htouch ?_).halted ?_ ?_⟩
      · apply htouch.invariant hw hpre.locked hpre.alone
        · intro x hx
          rw [hslot] at hx
          exact hw.sound key x (holds_failed hbody hx)
        · intro hread hne
          rw [hslot] at hne
          obtain ⟨t, ht, hall⟩ := hw.template hread key hne
          refine ⟨t, ht, fun x hx => ?_⟩
          rw [hslot] at hx
          exact hall x (holds_failed hbody hx)
      · rw [hslot]
        exact Iff.rfl
      · intro _ x hx hlive
        rw [hslot] at hx
        exact hwaiting x (temporaryValue_failed hbody hx) (.inl hlive)
      · intro hrec
        have hrecorded : IssuesRecorded w := hrec.records i w _ _ hpolicy
        apply hrecorded.mono htouch.issued
        intro other x hx _
        by_cases ho : other = key
        · subst ho
          rw [hslot] at hx
          exact holds_failed hbody hx
        · rwa [htouch.slots other ho] at hx

theorem liveTriple_rename :
    LiveTriple s i (fun w => Writable s i key m known w ∧ Waiting key (fun v => v = m) w)
      (ask (.renameTemporary key m))
      (fun answer w => match answer with
        | .ok _ => Know s i key m.templateId (fun v => v = m) w
        | .error _ => Halted s i key m.templateId known w) E := by
  apply Task.triple_perform stable_waiting
  · intro answer
    cases answer with
    | ok _ => exact stable_know
    | error message => exact stable_halted
  · rintro w answer u hw ⟨hpre, hwaiting⟩ ⟨hpolicy, -, v, hv, rfl⟩
    cases answer with
    | ok done =>
      obtain ⟨file, hfile, rfl⟩ := hv
      have hslot : ((w.commitRename i key file m).slots key) = (w.slots key).renamed file :=
        Function.update_self ..
      have htouch : Touched key w { w.commitRename i key file m with
          saving := Function.update w.saving i none } :=
        { app := rfl
          lock := rfl
          issued := rfl
          slots := fun other ho => Function.update_of_ne ho _ _
          main := fun _ => by rw [hslot]; simp [Slot.renamed]
          template := fun other hcase => by
            by_cases hnone : (w.slots key).main.isNone = true
            · have ho : other ≠ key := hcase.resolve_right (by simpa using hnone)
              simp [CompanyWorld.commitRename, hnone, Function.update_of_ne ho]
            · simp [CompanyWorld.commitRename, hnone, CompanyWorld.setSlot] }
      have htemplate : s.policy.Readable →
          (w.commitRename i key file m).template key = some m.templateId := by
        intro hread
        by_cases hnone : (w.slots key).main.isNone = true
        · simp [CompanyWorld.commitRename, hnone]
        · have hplace := (hpre.place hread).resolve_left (by simpa using hnone)
          simpa [CompanyWorld.commitRename, hnone, CompanyWorld.setSlot] using hplace
      have hu : CompanyInvariant s { w.commitRename i key file m with
          saving := Function.update w.saving i none } := by
        apply htouch.invariant hw hpre.locked hpre.alone
        · intro x hx
          rw [hslot] at hx
          exact hw.sound key x (.inr (holds_renamed hfile hx))
        · intro hread _
          refine ⟨m.templateId, htemplate hread, fun x hx => ?_⟩
          rw [hslot] at hx
          have hx' := holds_renamed hfile hx
          by_cases hnone : (w.slots key).main = none
          · rw [hwaiting x hx' (.inr hnone)]
          · obtain ⟨t, ht, hall⟩ := hw.template hread key hnone
            rw [hall x (.inr hx')]
            have hplace := (hpre.place hread).resolve_left hnone
            exact Option.some.inj (ht.symm.trans hplace)
      have hlive : ∀ x, (((w.slots key).renamed file).Holds x) → x.Live → x = m :=
        fun x hx hxlive => hwaiting x (holds_renamed hfile hx) (.inl hxlive)
      refine ⟨hu, htouch.guar hpre.locked, ⟨⟨⟨htouch.locked hpre.locked, ?_⟩,
        htouch.alone hpre.alone, ?_, htemplate⟩, ?_, ?_⟩⟩
      · constructor
        · intro hread other x hx hxlive
          by_cases ho : other = key
          · subst ho
            rw [hslot] at hx
            cases hx
          · exact htouch.alone hpre.alone hread other ho x (.inr hx) hxlive
        · intro hrec other hissued x hx hxlive
          by_cases ho : other = key
          · subst ho
            rw [hslot] at hx
            obtain rfl := hlive x hx hxlive
            exact hpre.carries hrec hissued hxlive
          · rw [htouch.slots other ho] at hx
            exact hpre.others hrec other ho hissued x hx hxlive
      · rw [hslot]
        simp [Slot.renamed]
      · intro x hx
        rw [hslot] at hx
        cases hx
      · intro x hx hxlive
        rw [hslot] at hx
        exact hlive x (.inl hx) hxlive
    | error message =>
      obtain rfl := hv
      have hsame : SameFiles v { v with saving := Function.update v.saving i none } :=
        ⟨rfl, rfl, rfl, rfl, rfl⟩
      have hhalted := hpre.halted (fun hread => hread.renames i v _ _ hpolicy)
        fun hrec => hrec.records i v _ _ hpolicy
      have hu := hsame.invariant hw
      exact ⟨hu, hsame.guar,
        stable_halted v _ hu hsame.rely (le_of_eq hpre.locked.app) hhalted⟩

theorem liveTriple_replace (hsound : SoundManifest s key m) :
    LiveTriple s i (fun w => Writable s i key m known w ∧ (s.policy.Readable → NoneWaiting key w))
      (replaceManifest key m) (Saved s i key m known) E := by
  have hrename : LiveTriple s i
      (fun w => Writable s i key m known w ∧ Waiting key (fun v => v = m) w)
      (renameOver key m) (Saved s i key m known) E := by
    apply Task.triple_bind liveTriple_rename
    intro answer
    cases answer with
    | ok _ => exact Task.triple_pure stable_know fun _ _ h => h
    | error _ => exact Task.triple_pure stable_halted fun _ _ h => h
  have hwrite : ∀ file, LiveTriple s i
      (fun w => Writable s i key m known w ∧ Waiting key (fun _ => False) w)
      (writeOver key m file) (Saved s i key m known) E := by
    intro file
    apply Task.triple_bind (liveTriple_write hsound)
    intro answer
    cases answer with
    | ok _ => exact hrename
    | error _ => exact Task.triple_pure stable_halted fun _ _ h => h
  apply Task.triple_bind liveTriple_open
  intro answer
  cases answer with
  | ok file => exact hwrite file
  | error _ => exact Task.triple_pure stable_halted fun _ _ h => h

/-- A save that starts with its guard. -/
theorem liveTriple_guardedSave {P : CompanyWorld → Prop} (hlive : m.Live)
    (hsound : SoundManifest s key m) (hP : LiveStable s i P)
    (hpass : ∀ w answer, CompanyInvariant s w → P w →
      s.policy.step i w (.loadManifest key (some m)) answer → w.Loads key answer →
      guardRefuses m answer = false →
      Writable s i key m known w ∧ (s.policy.Readable → NoneWaiting key w))
    (hrefuse : ∀ w answer, CompanyInvariant s w → P w → w.Loads key answer →
      guardRefuses m answer = true → Halted s i key m.templateId known w) :
    LiveTriple s i P (save key m) (Saved s i key m known) E := by
  unfold save
  rw [if_neg hlive]
  have hguard : LiveTriple s i P (ask (.loadManifest key (some m)))
      (fun answer w =>
        if guardRefuses m answer = true then Halted s i key m.templateId known w
        else Writable s i key m known w ∧ (s.policy.Readable → NoneWaiting key w)) E := by
    apply liveTriple_read rfl hP
    · intro answer
      by_cases hr : guardRefuses m answer = true
      · simp only [hr, if_true]
        exact stable_halted
      · simp only [hr, if_false, Bool.false_eq_true]
        exact stable_settled
    · intro w answer u hw hpre hpolicy hanswer
      by_cases hr : guardRefuses m answer = true
      · rw [if_pos hr]
        exact hrefuse w answer hw hpre hanswer.1 hr
      · rw [if_neg hr]
        exact hpass w answer hw hpre hpolicy hanswer.1 (by simpa using hr)
  apply Task.triple_bind hguard
  intro answer
  by_cases hr : guardRefuses m answer = true
  · simp only [hr, if_true]
    exact Task.triple_pure stable_halted fun _ _ h => h
  · simp only [hr, if_false, Bool.false_eq_true]
    exact liveTriple_replace hsound

/-- The guard refuses a save only where the instance is cancelled, and then nothing of it is
live. -/
theorem Writable.refused (h : Writable s i key m known w)
    (hsettled : s.policy.Readable → NoneWaiting key w)
    {answer : Except ManifestError InstanceManifest} (hload : w.Loads key answer)
    (hr : guardRefuses m answer = true) : Halted s i key m.templateId known w := by
  cases answer with
  | error _ => cases hr
  | ok existing =>
    have hdead : existing.status = .cancelled := by
      simp only [guardRefuses, Bool.and_eq_true, beq_iff_eq] at hr
      exact hr.2
    apply h.halted hsettled
    intro hrec other hissued v hv hlive
    by_cases ho : other = key
    · subst ho
      rcases hv with hv | hv
      · obtain rfl := Option.some.inj (hload.symm.trans hv)
        exact absurd hdead hlive
      · exact absurd hlive (hsettled hrec.toReadable v hv)
    · exact h.others hrec other ho hissued v hv hlive

theorem liveTriple_save (hsound : SoundManifest s key m) :
    LiveTriple s i (fun w => Writable s i key m known w ∧ (s.policy.Readable → NoneWaiting key w))
      (save key m) (Saved s i key m known) E := by
  by_cases hlive : m.Live
  · apply liveTriple_guardedSave hlive hsound stable_settled
    · exact fun _ _ _ hpre _ _ _ => hpre
    · exact fun _ _ _ hpre hload hr => hpre.1.refused hpre.2 hload hr
  · have hdead : m.status = .cancelled := by
      simpa [InstanceManifest.Live] using hlive
    unfold save
    rw [if_pos hdead]
    exact liveTriple_replace hsound

end Saving

end Buzz.Company
