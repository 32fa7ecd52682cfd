import Buzz.CompanyPhases

/-!
# What every run of the commands keeps

Whoever holds the run lock scans the instances, reserves a slot or goes on with
an instance, and lets the lock go when all is calm; a cancel writes tombstones
only. From the contracts of the commands follows what holds of the manifests and
of the run issues in every run: a manifest that is complete has everything
recorded, and under the conditions of the run at most one instance is not
cancelled and has at most one run issue.
-/

namespace Buzz.Company

open EffectProgram ReplacedFile

variable {s : CompanySetting} {i : CompanyThread} {key templateId : String}
  {m : InstanceManifest} {w u : CompanyWorld}

section Cancel

variable {E : CompanyExit → CompanyWorld → Prop}

theorem stable_placed : LiveStable s i (Placed s key templateId) := by
  intro w u _ hrely _ h
  refine ⟨hrely.main key h.main, fun hread => ?_⟩
  rw [hrely.template key h.main]
  exact h.template hread

/-- A step that brings no manifest to life is allowed to everybody. -/
theorem FilesShrink.allowed (hfiles : FilesShrink w u) (hw : CompanyInvariant s w)
    (happ : u.app = w.app) (hlock : u.lock = w.lock)
    (hholds : ∀ other v, (u.slots other).Holds v → SoundManifest s other v ∧
      ((w.slots other).main ≠ none → s.policy.Readable → w.template other = some v.templateId)) :
    CompanyInvariant s u ∧ CompanyGuar i w u := by
  constructor
  · apply hw.shrink
    · intro hnone
      rw [hlock] at hnone
      exact (hw.calm hnone).mono hfiles
    · exact hfiles
    · exact fun other v hv => (hholds other v hv).1
    · intro hread other t ht v hv hmain
      exact Option.some.inj (((hholds other v hv).2 hmain hread).symm.trans ht)
  · refine ⟨happ, fun other hmain => (hfiles.slots other).kept hmain, fun other _ => ?_,
      fun j _ hheld => ⟨hlock.trans hheld, hfiles⟩⟩
    rw [hfiles.template]

/-- What holds of the manifests of a valid world. -/
theorem CompanyInvariant.filed (hw : CompanyInvariant s w) {other : String}
    {v : InstanceManifest} (hv : (w.slots other).Holds v) : SoundManifest s other v ∧
      ((w.slots other).main ≠ none → s.policy.Readable → w.template other = some v.templateId) := by
  refine ⟨hw.sound other v hv, fun hmain hread => ?_⟩
  obtain ⟨t, ht, hall⟩ := hw.template hread other hmain
  rw [hall v hv]
  exact ht

/-- A step on one directory, whose manifests stay sound. -/
theorem CompanyInvariant.filed_setSlot (hw : CompanyInvariant s w) {slot : Slot InstanceManifest}
    {value : InstanceManifest} (hvalue : SoundManifest s key value)
    (hplaced : Placed s key value.templateId w)
    (hslot : ∀ v, slot.Holds v → v = value ∨ (w.slots key).Holds v) {other : String}
    {v : InstanceManifest} (hv : ((w.setSlot key slot).slots other).Holds v) :
    SoundManifest s other v ∧
      ((w.slots other).main ≠ none → s.policy.Readable → w.template other = some v.templateId) := by
  by_cases ho : other = key
  · subst ho
    have hv' : slot.Holds v := by simpa [CompanyWorld.setSlot] using hv
    obtain rfl | hv' := hslot v hv'
    · exact ⟨hvalue, fun _ hread => hplaced.template hread⟩
    · exact hw.filed hv'
  · have hv' : (w.slots other).Holds v := by
      simpa [CompanyWorld.setSlot, Function.update_of_ne ho] using hv
    exact hw.filed hv'

/-- The requests of a save of `m`. -/
def CompanyRequest.Saves (key : String) (m : InstanceManifest) : CompanyRequest → Prop
  | .openTemporary other => other = key
  | .writeTemporary other _ v => other = key ∧ v = m
  | .renameTemporary other v => other = key ∧ v = m
  | _ => False

/-- A change of one directory in which nothing comes to life. -/
theorem allowed_setSlot (hw : CompanyInvariant s w) (hsound : SoundManifest s key m)
    (hplaced : Placed s key m.templateId w) {slot : Slot InstanceManifest}
    (hshrink : Shrinks InstanceManifest.Live (w.slots key) slot)
    (hslot : ∀ v, slot.Holds v → v = m ∨ (w.slots key).Holds v)
    (hu : u.app = w.app ∧ u.lock = w.lock ∧ u.slots = (w.setSlot key slot).slots ∧
      u.template = w.template ∧ u.issued = w.issued) :
    CompanyInvariant s u ∧ CompanyGuar i w u := by
  obtain ⟨happ, hlock, hslots, htemplate, hissued⟩ := hu
  have hfiles : FilesShrink w u := by
    refine ⟨fun other => ?_, htemplate, hissued⟩
    rw [hslots]
    exact (FilesShrink.setSlot hshrink).slots other
  apply hfiles.allowed hw happ hlock
  intro other v hv
  rw [hslots] at hv
  exact hw.filed_setSlot hsound hplaced hslot hv

/-- Nobody comes to life by a step of a save that writes a tombstone. -/
theorem allowed_of_saves (hsound : SoundManifest s key m) (hdead : ¬m.Live)
    (hw : CompanyInvariant s w) (hplaced : Placed s key m.templateId w) {request : CompanyRequest}
    (hrequest : request.Saves key m) {answer : request.Reply}
    (h : w.Commits i request answer u) : CompanyInvariant s u ∧ CompanyGuar i w u := by
  obtain ⟨-, v, hv, rfl⟩ := h
  cases request with
  | openTemporary other =>
    obtain rfl : other = key := hrequest
    cases answer with
    | ok file =>
      obtain ⟨-, rfl⟩ := hv
      apply allowed_setSlot hw hsound hplaced (Shrinks.opened hplaced.main)
      · exact fun x hx => .inr (.inl (holds_opened hx))
      · exact ⟨rfl, rfl, rfl, rfl, rfl⟩
    | error _ =>
      obtain rfl := hv
      have hsame : SameFiles v { v with saving := Function.update v.saving i none } :=
        ⟨rfl, rfl, rfl, rfl, rfl⟩
      exact ⟨hsame.invariant hw, hsame.guar⟩
  | writeTemporary other file x =>
    obtain ⟨rfl, rfl⟩ : other = key ∧ x = m := hrequest
    cases answer with
    | ok _ =>
      obtain ⟨body, hbody, rfl⟩ := hv
      apply allowed_setSlot hw hsound hplaced (Shrinks.written hplaced.main hbody hdead)
      · exact fun y hy => holds_written hbody hy
      · exact ⟨rfl, rfl, rfl, rfl, rfl⟩
    | error _ =>
      obtain ⟨body, hbody, rfl⟩ := hv
      apply allowed_setSlot hw hsound hplaced (Shrinks.failed hplaced.main hbody)
      · exact fun y hy => .inr (holds_failed hbody hy)
      · exact ⟨rfl, rfl, rfl, rfl, rfl⟩
  | renameTemporary other x =>
    obtain ⟨rfl, rfl⟩ : other = key ∧ x = m := hrequest
    cases answer with
    | ok _ =>
      obtain ⟨file, hfile, rfl⟩ := hv
      have hmain : (w.slots other).main.isNone = false := by
        rw [Option.isNone_eq_false_iff, Option.isSome_iff_ne_none]
        exact hplaced.main
      apply allowed_setSlot hw hsound hplaced (Shrinks.renamed hplaced.main hfile)
      · exact fun y hy => .inr (.inr (holds_renamed hfile hy))
      · refine ⟨rfl, rfl, rfl, ?_, rfl⟩
        simp [CompanyWorld.commitRename, hmain]
    | error _ =>
      obtain rfl := hv
      have hsame : SameFiles v { v with saving := Function.update v.saving i none } :=
        ⟨rfl, rfl, rfl, rfl, rfl⟩
      exact ⟨hsame.invariant hw, hsame.guar⟩
  | _ => exact hrequest.elim

theorem liveTriple_saves (hsound : SoundManifest s key m) (hdead : ¬m.Live)
    (request : CompanyRequest) (hrequest : request.Saves key m) :
    LiveTriple s i (Placed s key m.templateId) (ask request)
      (fun _ => Placed s key m.templateId) E := by
  apply Task.triple_perform stable_placed fun _ => stable_placed
  intro w answer u hw hplaced hcommit
  obtain ⟨hu, hguar⟩ := allowed_of_saves hsound hdead hw hplaced hrequest hcommit.2
  refine ⟨hu, hguar, hguar.main key hplaced.main, fun hread => ?_⟩
  rw [hguar.template key hplaced.main]
  exact hplaced.template hread

theorem liveTriple_replaceDead (hsound : SoundManifest s key m) (hdead : ¬m.Live) :
    LiveTriple s i (Placed s key m.templateId) (replaceManifest key m)
      (fun _ => Placed s key m.templateId) E := by
  have hdone : ∀ out : Except ManifestError Unit, LiveTriple s i (Placed s key m.templateId)
      (pure out : CompanyTask (Except ManifestError Unit)) (fun _ => Placed s key m.templateId) E :=
    fun _ => Task.triple_pure stable_placed fun _ _ h => h
  have hrename : LiveTriple s i (Placed s key m.templateId) (renameOver key m)
      (fun _ => Placed s key m.templateId) E := by
    apply Task.triple_bind (liveTriple_saves hsound hdead (.renameTemporary key m) ⟨rfl, rfl⟩)
    intro answer
    cases answer with
    | ok _ | error _ => exact hdone _
  have hwrite : ∀ file, LiveTriple s i (Placed s key m.templateId) (writeOver key m file)
      (fun _ => Placed s key m.templateId) E := by
    intro file
    apply Task.triple_bind (liveTriple_saves hsound hdead (.writeTemporary key file m) ⟨rfl, rfl⟩)
    intro answer
    cases answer with
    | ok _ => exact hrename
    | error _ => exact hdone _
  apply Task.triple_bind (liveTriple_saves hsound hdead (.openTemporary key) rfl)
  intro answer
  cases answer with
  | ok file => exact hwrite file
  | error _ => exact hdone _

theorem SoundManifest.tombstone (h : SoundManifest s key m) (now : ℕ) :
    SoundManifest s key (tombstone m now) where
  instanceId := h.instanceId
  key_eq := h.key_eq
  complete hc := by cases hc

/-- What a load of the manifest tells. -/
def AfterLoad (s : CompanySetting) (key : String) :
    Except ManifestError InstanceManifest → CompanyWorld → Prop
  | .ok m, w => Placed s key m.templateId w ∧ SoundManifest s key m
  | .error _, _ => True

theorem liveTriple_cancelCompanyRun (instanceId : String) :
    LiveTriple s i (fun _ => True) (cancelCompanyRun instanceId) (fun _ _ => True)
      (fun _ _ => True) := by
  have hload : LiveTriple s i (fun _ => True) (load (instanceKey instanceId))
      (AfterLoad s (instanceKey instanceId)) (fun _ _ => True) := by
    apply liveTriple_read rfl stable_true
    · intro answer
      cases answer with
      | ok m => exact stable_placed.and (stable_const _)
      | error _ => exact stable_true
    · intro w answer u hw _ _ hanswer
      cases answer with
      | ok m =>
        have hmain : (w.slots (instanceKey instanceId)).mainValue = some m := hanswer.1
        have hheld : (w.slots (instanceKey instanceId)).Holds m := .inl hmain
        have hne : (w.slots (instanceKey instanceId)).main ≠ none := by
          intro hnone
          simp [Slot.mainValue, Slot.held, hnone] at hmain
        obtain ⟨hsound, htemplate⟩ := hw.filed hheld
        exact ⟨⟨hne, htemplate hne⟩, hsound⟩
      | error _ => exact True.intro
  have hrest : LiveTriple s i (fun _ => True) (do
        ask (.shutdownIdentities instanceId)
        ask .shutdownSymphony
        ask (.clearActive instanceId)) (fun _ _ => True) (fun _ _ => True) := by
    apply Task.triple_bind (liveTriple_quiet rfl stable_true)
    intro _
    apply Task.triple_bind (liveTriple_quiet rfl stable_true)
    exact fun _ => liveTriple_quiet rfl stable_true
  apply Task.triple_bind hload
  intro answer
  cases answer with
  | error _ => exact Task.triple_fail_bind stable_true fun _ _ _ => True.intro
  | ok m =>
    apply Task.triple_pull
    intro hsound
    apply Task.triple_pure_bind
    have hsave : LiveTriple s i (Placed s (instanceKey instanceId) m.templateId)
        (saveTombstone (instanceKey instanceId) m) (fun _ _ => True) (fun _ _ => True) := by
      apply Task.triple_ite
      · exact fun _ => Task.triple_pure stable_placed fun _ _ _ => True.intro
      · intro _
        apply Task.triple_bind (liveTriple_quiet rfl stable_placed)
        intro now
        cases now with
        | none => exact Task.triple_fail stable_placed fun _ _ _ => True.intro
        | some now =>
          apply Task.triple_bind (liveTriple_replaceDead (hsound.tombstone now) (by
            simp [InstanceManifest.Live, tombstone]))
          intro out
          cases out with
          | ok _ => exact Task.triple_pure stable_placed fun _ _ _ => True.intro
          | error _ => exact Task.triple_fail stable_placed fun _ _ _ => True.intro
    exact Task.triple_bind hsave fun _ => hrest

end Cancel

section Scan

variable {claimed : Prop} {keys : List String} {scan : List ScannedInstance}

/-- Nothing in the directory is live. -/
def Dead (key : String) (w : CompanyWorld) : Prop := ∀ v, (w.slots key).Holds v → ¬v.Live

/-- What the holder of the lock knows about an instance it has scanned. -/
structure ScannedHere (s : CompanySetting) (inst : ScannedInstance) (w : CompanyWorld) : Prop where
  main : (w.slots inst.key).main ≠ none
  template : s.policy.Readable → w.template inst.key = some inst.templateId
  alone : inst.status ≠ .cancelled → Alone s inst.key w

/-- An instance is named after its directory. -/
structure WellNamed (inst : ScannedInstance) : Prop where
  key_eq : instanceKey inst.key = inst.key
  instanceId : inst.instanceId = inst.key

theorem Dead.shrink (h : Dead key w) (hfiles : FilesShrink w u) : Dead key u :=
  fun v hv hlive => h v ((hfiles.slots key).holds hv hlive) hlive

theorem ScannedHere.step {inst : ScannedInstance} (h : ScannedHere s inst w)
    (hfiles : FilesShrink w u) : ScannedHere s inst u where
  main := (hfiles.slots inst.key).kept h.main
  template hread := by
    rw [hfiles.template]
    exact h.template hread
  alone hlive := (h.alone hlive).shrink hfiles

/-- What a scan of some directories leaves: the instances found and those left to scan. -/
structure Scanning (s : CompanySetting) (i : CompanyThread) (claimed : Prop) (keys : List String)
    (w : CompanyWorld) : Prop extends Free s i w where
  main : ∀ key ∈ keys, (w.slots key).main ≠ none
  dead : s.policy.Readable → claimed → ∀ key ∈ keys, Dead key w

structure ScanResult (s : CompanySetting) (i : CompanyThread) (claimed : Prop) (keys : List String)
    (scan : List ScannedInstance) (w : CompanyWorld) : Prop extends Free s i w where
  here : ∀ inst ∈ scan, ScannedHere s inst w
  all : s.policy.Readable → ∀ key ∈ keys,
    (∃ inst ∈ scan, inst.key = key ∧ inst.status ≠ .cancelled) ∨ Dead key w
  named : ∀ inst ∈ scan, WellNamed inst
  unclaimed : s.policy.Readable → claimed → ∀ inst ∈ scan, inst.status = .cancelled
  single : s.policy.Readable →
    scan.Pairwise fun a b => a.status = .cancelled ∨ b.status = .cancelled

theorem stable_scanning : LiveStable s i (Scanning s i claimed keys) := by
  intro w u hu hrely halive h
  obtain ⟨hlocked, hfiles⟩ := h.locked.step hrely halive
  exact ⟨stable_free w u hu hrely halive h.toFree,
    fun key hkey => (hfiles.slots key).kept (h.main key hkey),
    fun hread hclaimed key hkey => (h.dead hread hclaimed key hkey).shrink hfiles⟩

theorem stable_scanResult : LiveStable s i (ScanResult s i claimed keys scan) := by
  intro w u hu hrely halive h
  obtain ⟨hlocked, hfiles⟩ := h.locked.step hrely halive
  exact ⟨stable_free w u hu hrely halive h.toFree, fun inst hinst =>
    (h.here inst hinst).step hfiles,
    fun hread key hkey => (h.all hread key hkey).imp_right fun hdead => hdead.shrink hfiles,
    h.named, h.unclaimed, h.single⟩

/-- What the holder knows of a directory whose manifest it has just read. -/
structure HeadScanned (s : CompanySetting) (i : CompanyThread) (key : String)
    (m : InstanceManifest) (w : CompanyWorld) : Prop where
  locked : Locked i w
  here : ScannedHere s (scanned key m) w
  dead : s.policy.Readable → m.status = .cancelled → Dead key w

theorem stable_headScanned : LiveStable s i (HeadScanned s i key m) := by
  intro w u hu hrely halive h
  obtain ⟨hlocked, hfiles⟩ := h.locked.step hrely halive
  exact ⟨hlocked, h.here.step hfiles, fun hread hdead => (h.dead hread hdead).shrink hfiles⟩

/-- A directory is read. -/
theorem liveTriple_scanHead {F : CompanyWorld → Prop}
    (hF : LiveStable s i F) (hnodup : (key :: keys).Nodup) :
    LiveTriple s i (fun w => Scanning s i claimed (key :: keys) w ∧ F w) (load key)
      (fun answer w => match answer with
        | .ok m => (Scanning s i (claimed ∨ m.Live) keys w ∧ F w ∧ HeadScanned s i key m w) ∧
            WellNamed (scanned key m) ∧ (s.policy.Readable → claimed → m.status = .cancelled)
        | .error _ => (Scanning s i claimed keys w ∧ F w) ∧ ¬s.policy.Readable) (Exit s i) := by
  have htail : ∀ {w}, Scanning s i claimed (key :: keys) w → Scanning s i claimed keys w :=
    fun h => ⟨h.toFree, fun k hk => h.main k (List.mem_cons_of_mem _ hk),
      fun hread hclaimed k hk => h.dead hread hclaimed k (List.mem_cons_of_mem _ hk)⟩
  apply liveTriple_read rfl (stable_scanning.and hF)
  · intro answer
    cases answer with
    | ok m => exact (stable_scanning.and (hF.and stable_headScanned)).and (stable_const _)
    | error _ => exact (stable_scanning.and hF).and (stable_const _)
  · rintro w answer u hw ⟨hpre, hf⟩ hpolicy hanswer
    have hmain := hpre.main key List.mem_cons_self
    cases answer with
    | error _ => exact ⟨⟨htail hpre, hf⟩, fun hread => hmain (hread.reads i w _ _ hpolicy)⟩
    | ok m =>
      have hvalue : (w.slots key).mainValue = some m := hanswer.1
      have hheld : (w.slots key).Holds m := .inl hvalue
      obtain ⟨hsound, htemplate⟩ := hw.filed hheld
      have halone : m.Live → Alone s key w := fun hlive hread other hne v hv hvlive =>
        hne (hw.single hread other key v m hv hvlive hheld hlive)
      have hdead : s.policy.Readable → m.status = .cancelled → Dead key w := by
        intro hread hcancelled v hv hlive
        rcases hv with hv | hv
        · rw [Option.some.inj (hvalue.symm.trans hv)] at hcancelled
          exact hlive hcancelled
        · exact hpre.calm.settled hread key v hv hlive
      refine ⟨⟨⟨hpre.toFree, (htail hpre).main, ?_⟩, hf, ⟨hpre.locked, ⟨hmain, htemplate hmain,
        halone⟩, hdead⟩⟩, ⟨hsound.key_eq, hsound.instanceId⟩, ?_⟩
      · rintro hread (hclaimed | hlive) k hk
        · exact (htail hpre).dead hread hclaimed k hk
        · have hne : k ≠ key := by
            rintro rfl
            exact (List.nodup_cons.mp hnodup).1 hk
          exact fun v hv => halone hlive hread k hne v hv
      · intro hread hclaimed
        by_contra hlive
        exact hpre.dead hread hclaimed key List.mem_cons_self m hheld hlive

/-- The found instance is put in front of those found later. -/
theorem ScanResult.cons
    (h : ScanResult s i (claimed ∨ m.Live) keys scan w) (hhead : HeadScanned s i key m w)
    (hnamed : WellNamed (scanned key m))
    (hclaimed : s.policy.Readable → claimed → m.status = .cancelled) :
    ScanResult s i claimed (key :: keys) (scanned key m :: scan) w where
  toFree := h.toFree
  here := List.forall_mem_cons.mpr ⟨hhead.here, h.here⟩
  all hread := by
    rw [List.forall_mem_cons]
    constructor
    · by_cases hm : m.status = .cancelled
      · exact .inr (hhead.dead hread hm)
      · exact .inl ⟨scanned key m, List.mem_cons_self, rfl, hm⟩
    · intro k hk
      exact (h.all hread k hk).imp_left fun ⟨inst, hinst, hfacts⟩ =>
        ⟨inst, List.mem_cons_of_mem _ hinst, hfacts⟩
  named := List.forall_mem_cons.mpr ⟨hnamed, h.named⟩
  unclaimed hread hc := List.forall_mem_cons.mpr
    ⟨hclaimed hread hc, h.unclaimed hread (.inl hc)⟩
  single hread := by
    refine List.pairwise_cons.mpr ⟨fun inst hinst => ?_, h.single hread⟩
    by_cases hm : m.status = .cancelled
    · exact .inl hm
    · exact .inr (h.unclaimed hread (.inr hm) inst hinst)

theorem liveTriple_scanKeys (keys : List String) :
    ∀ {claimed : Prop} {F : CompanyWorld → Prop}, keys.Nodup → LiveStable s i F →
      LiveTriple s i (fun w => Scanning s i claimed keys w ∧ F w) (scanKeys keys)
        (fun scan w => ScanResult s i claimed keys scan w ∧ F w) (Exit s i) := by
  induction keys with
  | nil =>
    intro claimed F _ hF
    apply Task.triple_pure (stable_scanning.and hF)
    intro w _ h
    exact ⟨⟨h.1.toFree, by simp, by simp, by simp, by simp, by simp⟩, h.2⟩
  | cons key keys ih =>
    intro claimed F hnodup hF
    have htail := (List.nodup_cons.mp hnodup).2
    apply Task.triple_bind (liveTriple_scanHead hF hnodup)
    intro answer
    cases answer with
    | error _ =>
      apply Task.triple_pull
      intro hread
      apply (ih htail hF).strengthen
      intro scan w _ h
      exact ⟨⟨h.1.toFree, h.1.here, fun hr => absurd hr hread, h.1.named, h.1.unclaimed,
        h.1.single⟩, h.2⟩
    | ok m =>
      apply Task.triple_pull
      rintro ⟨hnamed, hclaimed⟩
      apply Task.triple_bind (ih htail (hF.and stable_headScanned))
      intro scan
      apply Task.triple_pure (stable_scanResult.and (hF.and stable_headScanned))
      exact fun w _ h => ⟨h.1.cons h.2.2 hnamed hclaimed, h.2.1⟩

/-- What a scan of all instances leaves. -/
structure Surveyed (s : CompanySetting) (i : CompanyThread) (scan : List ScannedInstance)
    (w : CompanyWorld) : Prop extends Free s i w where
  here : ∀ inst ∈ scan, ScannedHere s inst w
  named : ∀ inst ∈ scan, WellNamed inst
  single : s.policy.Readable →
    scan.Pairwise fun a b => a.status = .cancelled ∨ b.status = .cancelled
  all : s.policy.Readable → (∀ inst ∈ scan, inst.status = .cancelled) → ∀ key, Dead key w

theorem stable_surveyed : LiveStable s i (Surveyed s i scan) := by
  intro w u hu hrely halive h
  obtain ⟨hlocked, hfiles⟩ := h.locked.step hrely halive
  exact ⟨stable_free w u hu hrely halive h.toFree, fun inst hinst =>
    (h.here inst hinst).step hfiles,
    h.named, h.single, fun hread hnone key => (h.all hread hnone key).shrink hfiles⟩

/-- Nothing is live outside of the listed directories. -/
structure ListedAll (s : CompanySetting) (i : CompanyThread) (keys : List String)
    (w : CompanyWorld) : Prop where
  locked : Locked i w
  dead : s.policy.Readable → ∀ key, key ∉ keys → Dead key w

theorem stable_listedAll : LiveStable s i (ListedAll s i keys) := by
  intro w u hu hrely halive h
  obtain ⟨hlocked, hfiles⟩ := h.locked.step hrely halive
  exact ⟨hlocked, fun hread key hkey => (h.dead hread key hkey).shrink hfiles⟩

theorem liveTriple_scanCompanyInstances :
    LiveTriple s i (Free s i) scanCompanyInstances (Surveyed s i) (Exit s i) := by
  have hlist : LiveTriple s i (Free s i) (ask .listInstances)
      (fun (keys : List String) w => (Scanning s i False keys w ∧ ListedAll s i keys w) ∧
        keys.Nodup)
      (Exit s i) := by
    apply liveTriple_read rfl stable_free fun _ =>
      (stable_scanning.and stable_listedAll).and (stable_const _)
    rintro w keys u hw hpre hpolicy ⟨⟨hnodup, hmain⟩, -⟩
    refine ⟨⟨⟨hpre, hmain, fun _ hfalse => hfalse.elim⟩, hpre.locked, ?_⟩, hnodup⟩
    intro hread key hkey v hv
    have hlisted : (w.slots key).main ≠ none → key ∈ keys := hread.reads i w _ keys hpolicy key
    rcases hv with hv | hv
    · have hnone : (w.slots key).main = none := by
        by_contra hne
        exact hkey (hlisted hne)
      simp [Slot.mainValue, Slot.held, hnone] at hv
    · exact hpre.calm.settled hread key v hv
  apply Task.triple_bind hlist
  intro keys
  apply Task.triple_pull
  intro hnodup
  apply (liveTriple_scanKeys keys hnodup stable_listedAll).strengthen
  rintro scan w _ ⟨h, hlisted⟩
  refine ⟨h.toFree, h.here, h.named, h.single, fun hread hnone key => ?_⟩
  by_cases hkey : key ∈ keys
  · obtain ⟨inst, hinst, -, hlive⟩ | hdead := h.all hread key hkey
    · exact absurd (hnone inst hinst) hlive
    · exact hdead
  · exact hlisted.dead hread key hkey

theorem activeCandidate_none (h : activeCandidate scan = none) :
    ∀ inst ∈ scan, inst.status = .cancelled := by
  intro inst hinst
  by_contra hlive
  have hmem : inst ∈ (scan.filter (·.status ≠ .cancelled)).mergeSort newestFirst := by
    rw [List.mem_mergeSort, List.mem_filter]
    exact ⟨hinst, by simpa using hlive⟩
  simp only [activeCandidate, Option.map_eq_none_iff, List.head?_eq_none_iff] at h
  rw [h] at hmem
  cases hmem

end Scan

section Commands

/-- No instance is active. -/
structure Vacant (s : CompanySetting) (i : CompanyThread) (w : CompanyWorld) : Prop
    extends Free s i w where
  dead : s.policy.Readable → ∀ key, Dead key w

theorem stable_vacant : LiveStable s i (Vacant s i) := by
  intro w u hu hrely halive h
  obtain ⟨hlocked, hfiles⟩ := h.locked.step hrely halive
  exact ⟨stable_free w u hu hrely halive h.toFree,
    fun hread key => (h.dead hread key).shrink hfiles⟩

theorem Vacant.alone (h : Vacant s i w) (key : String) : Alone s key w :=
  fun hread other _ => h.dead hread other

theorem liveTriple_existingActiveInstance :
    LiveTriple s i (Free s i) existingActiveInstance
      (fun existing w => Free s i w ∧ (existing = none → Vacant s i w)) (Exit s i) := by
  apply Task.triple_bind liveTriple_scanCompanyInstances
  intro scan
  apply Task.triple_pure stable_surveyed
  intro w _ h
  exact ⟨h.toFree, fun hnone => ⟨h.toFree, fun hread => h.all hread (activeCandidate_none hnone)⟩⟩

/-- The first manifest of an instance, with or without a name. -/
theorem withDisplayName_facts (m : InstanceManifest) (displayName : String) :
    (m.withDisplayName displayName).instanceId = m.instanceId ∧
      (m.withDisplayName displayName).templateId = m.templateId ∧
      (m.withDisplayName displayName).status = m.status := by
  unfold InstanceManifest.withDisplayName
  split_ifs
  · exact ⟨rfl, rfl, rfl⟩
  · exact ⟨rfl, rfl, rfl⟩

/-- A slot is reserved only where no manifest is, or the guard refuses it. -/
theorem Vacant.reserve (h : Vacant s i w) (hw : CompanyInvariant s w)
    (hsound : SoundManifest s key m) {answer : Except ManifestError InstanceManifest}
    (hpolicy : s.policy.step i w (.loadManifest key (some m)) answer) (hload : w.Loads key answer)
    (hpass : guardRefuses m answer = false) :
    Writable s i key m False w ∧ (s.policy.Readable → NoneWaiting key w) := by
  have hnone : s.policy.Readable → (w.slots key).main = none := by
    intro hread
    cases answer with
    | error _ => exact hread.reads i w _ _ hpolicy
    | ok existing =>
      have hheld : (w.slots key).Holds existing := .inl hload
      have hdead : existing.status = .cancelled := by
        by_contra hne
        exact h.dead hread key existing hheld hne
      have hsame : existing.instanceId = m.instanceId :=
        (hw.sound key existing hheld).instanceId.trans hsound.instanceId.symm
      simp [guardRefuses, hdead, hsame] at hpass
  refine ⟨⟨h.locked, h.alone key, fun hfalse => hfalse.elim, fun hread => .inl (hnone hread),
    fun hrec other _ => h.calm.recorded hrec other, fun hrec hissued => ?_⟩,
    fun hread => h.calm.settled hread key⟩
  exact absurd (hnone hrec.toReadable) (hw.issued hrec key hissued)

theorem liveTriple_reserveInstance {template : CompanyTemplate} {displayName : String} :
    LiveTriple s i (Free s i) (reserveInstance template displayName)
      (fun instanceId w => Resting s i (instanceKey instanceId) template.id w ∧
        instanceKey instanceId = instanceId) (Exit s i) := by
  have hstable : ∀ existing : Option String, LiveStable s i fun w =>
      Free s i w ∧ (existing = none → Vacant s i w) :=
    fun _ w u hu hrely halive h => ⟨stable_free w u hu hrely halive h.1,
      fun hnone => stable_vacant w u hu hrely halive (h.2 hnone)⟩
  apply Task.triple_bind liveTriple_existingActiveInstance
  intro existing
  cases existing with
  | some existing => exact Task.triple_fail (hstable _) fun _ _ h => h.1
  | none =>
    apply Task.triple_bind (liveTriple_quiet rfl (hstable none))
    intro now
    cases now with
    | none => exact Task.triple_fail (hstable none) fun _ _ h => h.1
    | some createdAt =>
      have hfixed := instanceKey_mintedId displayName createdAt
      obtain ⟨hinstance, htemplate, hstatus⟩ := withDisplayName_facts
        (.fresh (mintedId displayName createdAt) template.id) displayName
      have hsound : SoundManifest s (instanceKey (mintedId displayName createdAt))
          ((InstanceManifest.fresh (mintedId displayName createdAt) template.id).withDisplayName
            displayName) := by
        refine ⟨?_, ?_, fun hc => ?_⟩
        · rw [hinstance, hfixed]
          rfl
        · rw [hfixed, hfixed]
        · rw [hstatus] at hc
          cases hc
      have hlive : ((InstanceManifest.fresh (mintedId displayName createdAt)
          template.id).withDisplayName displayName).Live := by
        intro hc
        rw [hstatus] at hc
        cases hc
      have hsave : LiveTriple s i (Vacant s i) (save (instanceKey (mintedId displayName createdAt))
          ((InstanceManifest.fresh (mintedId displayName createdAt) template.id).withDisplayName
            displayName)) (Saved s i (instanceKey (mintedId displayName createdAt))
          ((InstanceManifest.fresh (mintedId displayName createdAt) template.id).withDisplayName
            displayName) False) (Exit s i) := by
        apply liveTriple_guardedSave hlive hsound stable_vacant
        · exact fun w answer hw hpre hpolicy hload hpass =>
            hpre.reserve hw hsound hpolicy hload hpass
        · exact fun w answer _ hpre _ _ =>
            ⟨hpre.toFree, hpre.alone _, fun hfalse => hfalse.elim⟩
      apply Task.triple_bind (hsave.weaken fun _ _ h => h.2 rfl)
      intro out
      cases out with
      | ok _ =>
        apply Task.triple_pure_bind
        apply Task.triple_pure stable_know
        intro w _ h
        rw [htemplate] at h
        exact ⟨h.toResting, hfixed⟩
      | error _ => exact Task.triple_fail_bind stable_halted fun _ _ h => h.toFree

theorem liveTriple_acquire {E : CompanyExit → CompanyWorld → Prop} :
    LiveTriple s i (fun _ => True) (ask .acquireRunLock) (fun _ => Free s i) E := by
  apply Task.triple_perform stable_true fun _ => stable_free
  rintro w answer u hw - ⟨-, happ, v, ⟨hnone, rfl⟩, rfl⟩
  have hcalm := hw.calm hnone
  refine ⟨⟨hw.sound, hw.template, hw.single, hw.issued, hw.limit, fun hlock => by cases hlock⟩,
    ⟨rfl, fun _ h => h, fun _ _ => rfl, fun j _ hheld => ?_⟩, ⟨happ.symm, rfl⟩,
    ⟨hcalm.settled, hcalm.recorded⟩⟩
  rw [hnone] at hheld
  cases hheld

theorem liveTriple_release {E : CompanyExit → CompanyWorld → Prop} :
    LiveTriple s i (Free s i) (ask .releaseRunLock) (fun _ _ => True) E := by
  apply Task.triple_perform stable_free fun _ => stable_true
  rintro w answer u hw hfree ⟨-, happ, v, hv, rfl⟩
  obtain rfl : v = { w with lock := none } := hv
  refine ⟨⟨hw.sound, hw.template, hw.single, hw.issued, hw.limit, fun _ =>
    ⟨hfree.calm.settled, hfree.calm.recorded⟩⟩, ⟨rfl, fun _ h => h, fun _ _ => rfl, ?_⟩, True.intro⟩
  exact fun j hj hheld => absurd (Option.some.inj (hheld.symm.trans hfree.locked.lock)) hj

theorem liveTriple_releasing {α : Type} {command : CompanyTask α}
    (h : LiveTriple s i (Free s i) command (fun _ => Free s i) (Exit s i)) :
    LiveTriple s i (fun _ => True) (releasing command) (fun _ _ => True) (fun _ _ => True) := by
  apply Task.triple_bind liveTriple_acquire
  intro _
  apply Task.triple_bind (Task.triple_result (R := fun _ => Free s i) h)
  intro out
  apply Task.triple_bind liveTriple_release
  intro _
  cases out with
  | ok value => exact Task.triple_pure stable_true fun _ _ h => h
  | error exit => exact Task.triple_fail stable_true fun _ _ h => h

theorem liveTriple_findTemplate {P : CompanyWorld → Prop} {E : CompanyExit → CompanyWorld → Prop}
    (hP : LiveStable s i P) (hE : ∀ message w, P w → E (.failed message) w) :
    LiveTriple s i P (findTemplate s.registry templateId) (fun template w => P w ∧
      template.id = templateId ∧ getCompanyTemplate s.registry template.id = some template) E := by
  unfold findTemplate
  cases hfound : getCompanyTemplate s.registry templateId with
  | none => exact Task.triple_fail hP fun w _ h => hE _ w h
  | some template =>
    apply Task.triple_pure hP
    intro w _ h
    have hid := id_of_getCompanyTemplate hfound
    exact ⟨h, hid, hid.symm ▸ hfound⟩

theorem liveTriple_instantiate (templateId : String) (displayName : Option String) :
    LiveTriple s i (fun _ => True)
      (instantiateCompanyTemplate s.registry s.sha256Hex templateId displayName) (fun _ _ => True)
      (fun _ _ => True) := by
  apply Task.triple_bind (liveTriple_findTemplate stable_true fun _ _ _ => True.intro)
  intro template
  apply Task.triple_pull
  rintro ⟨-, hregistry⟩
  have hcommand : ∀ name, LiveTriple s i (Free s i) (do
        let instanceId ← reserveInstance template name
        runCompanyLifecycle s.sha256Hex template instanceId name) (fun _ => Free s i)
        (Exit s i) := by
    intro name
    apply Task.triple_bind liveTriple_reserveInstance
    intro instanceId
    apply Task.triple_pull
    exact fun hid => liveTriple_runCompanyLifecycle hid hregistry
  cases validateSupportedContract template with
  | error issue => exact Task.triple_fail_bind stable_true fun _ _ _ => True.intro
  | ok _ =>
    apply Task.triple_pure_bind
    exact liveTriple_releasing (hcommand _)

/-- An instance that may be resumed is the only one that is live. -/
theorem liveTriple_resumable (instanceId : String) :
    LiveTriple s i (Free s i) (resumable instanceId)
      (fun found w => Resting s i (instanceKey instanceId) found.1 w ∧
        instanceKey instanceId = instanceId) (Exit s i) := by
  have hload : LiveTriple s i (Free s i) (load (instanceKey instanceId))
      (fun answer w => match answer with
        | .ok m => (Free s i w ∧ (m.Live →
            Resting s i (instanceKey instanceId) m.templateId w)) ∧
            m.instanceId = instanceKey instanceId
        | .error _ => Free s i w) (Exit s i) := by
    apply liveTriple_read rfl stable_free
    · intro answer
      cases answer with
      | error _ => exact stable_free
      | ok m =>
        exact fun w u hu hrely halive h => ⟨⟨stable_free w u hu hrely halive h.1.1,
          fun hlive => stable_resting w u hu hrely halive (h.1.2 hlive)⟩, h.2⟩
    · intro w answer u hw hpre _ hanswer
      cases answer with
      | error _ => exact hpre
      | ok m =>
        have hvalue : (w.slots (instanceKey instanceId)).mainValue = some m := hanswer.1
        have hheld : (w.slots (instanceKey instanceId)).Holds m := .inl hvalue
        have hmain : (w.slots (instanceKey instanceId)).main ≠ none := by
          intro hnone
          simp [Slot.mainValue, Slot.held, hnone] at hvalue
        obtain ⟨hsound, htemplate⟩ := hw.filed hheld
        refine ⟨⟨hpre, fun hlive => ⟨hpre, ?_, hmain, htemplate hmain⟩⟩, hsound.instanceId⟩
        exact fun hread other hne v hv hvlive =>
          hne (hw.single hread other _ v m hv hvlive hheld hlive)
  apply Task.triple_bind hload
  intro answer
  cases answer with
  | error _ => exact Task.triple_fail_bind stable_free fun _ _ h => h
  | ok m =>
    apply Task.triple_pull
    intro hinstance
    apply Task.triple_pure_bind
    have hstable : LiveStable s i fun w =>
        Free s i w ∧ (m.Live → Resting s i (instanceKey instanceId) m.templateId w) :=
      fun w u hu hrely halive h => ⟨stable_free w u hu hrely halive h.1,
        fun hlive => stable_resting w u hu hrely halive (h.2 hlive)⟩
    apply Task.triple_ite
    · exact fun _ => Task.triple_fail hstable fun _ _ h => h.1
    · intro hsame
      apply Task.triple_ite
      · exact fun _ => Task.triple_fail hstable fun _ _ h => h.1
      · intro hlive
        apply Task.triple_ite
        · exact fun _ => Task.triple_fail hstable fun _ _ h => h.1
        · intro _
          apply Task.triple_pure hstable
          intro w _ h
          exact ⟨h.2 hlive, hinstance.symm.trans (by simpa using hsame)⟩

theorem liveTriple_resume (instanceId : String) :
    LiveTriple s i (fun _ => True) (resumeCompanyInstance s.registry s.sha256Hex instanceId)
      (fun _ _ => True) (fun _ _ => True) := by
  apply liveTriple_releasing
  apply Task.triple_bind (liveTriple_resumable instanceId)
  intro found
  apply Task.triple_pull
  intro hid
  apply Task.triple_bind (liveTriple_findTemplate stable_resting fun _ _ h => h.toFree)
  intro template
  apply Task.triple_pull
  rintro ⟨htemplate, hregistry⟩
  rw [← htemplate]
  exact liveTriple_runCompanyLifecycle hid hregistry

/-- A manifest is replaced but never removed. -/
theorem main_of_commits {request : CompanyRequest} {answer : request.Reply}
    (h : w.Commits i request answer u) (hmain : (w.slots key).main ≠ none) :
    (u.slots key).main ≠ none := by
  have hset : ∀ {other : String} {slot : Slot InstanceManifest},
      ((w.slots other).main ≠ none → slot.main ≠ none) →
        ((w.setSlot other slot).slots key).main ≠ none := by
    intro other slot hslot
    by_cases ho : key = other
    · subst ho
      simpa [CompanyWorld.setSlot] using hslot hmain
    · simpa [CompanyWorld.setSlot, Function.update_of_ne ho] using hmain
  by_cases hquiet : request.isQuiet = true
  · rw [(sameFiles_of_quiet hquiet h).slots]
    exact hmain
  obtain ⟨-, v, hv, rfl⟩ := h
  cases request with
  | openTemporary other =>
    cases answer with
    | ok file =>
      obtain ⟨-, rfl⟩ := hv
      exact hset fun hother => by rwa [main_opened]
    | error _ =>
      obtain rfl := hv
      exact hmain
  | writeTemporary other file x =>
    cases answer with
    | ok _ | error _ =>
      obtain ⟨body, -, rfl⟩ := hv
      exact hset fun hother => hother
  | renameTemporary other x =>
    cases answer with
    | ok _ =>
      obtain ⟨file, -, rfl⟩ := hv
      exact hset fun _ => by simp [Slot.renamed]
    | error _ =>
      obtain rfl := hv
      exact hmain
  | acquireRunLock =>
    obtain ⟨-, rfl⟩ := hv
    exact hmain
  | releaseRunLock =>
    obtain rfl : v = { w with lock := none } := hv
    exact hmain
  | createIssue _ _ =>
    obtain rfl : v = w.createIssue _ := hv
    exact hmain
  | _ => exact absurd rfl hquiet

/-- The instances of the boot scan that are still to be advanced. -/
structure Remaining (s : CompanySetting) (i : CompanyThread) (rest : List ScannedInstance)
    (w : CompanyWorld) : Prop extends Free s i w where
  main : ∀ inst ∈ rest, (w.slots inst.key).main ≠ none
  here : s.policy.Readable → ∀ inst ∈ rest, inst.status ≠ .cancelled →
    Alone s inst.key w ∧ w.template inst.key = some inst.templateId
  named : ∀ inst ∈ rest, WellNamed inst
  single : s.policy.Readable →
    rest.Pairwise fun a b => a.status = .cancelled ∨ b.status = .cancelled

variable {inst : ScannedInstance} {rest : List ScannedInstance}

theorem stable_remaining : LiveStable s i (Remaining s i rest) := by
  intro w u hu hrely halive h
  obtain ⟨hlocked, hfiles⟩ := h.locked.step hrely halive
  refine ⟨stable_free w u hu hrely halive h.toFree,
    fun inst hinst => (hfiles.slots inst.key).kept (h.main inst hinst),
    fun hread inst hinst hlive => ?_, h.named, h.single⟩
  obtain ⟨halone, htemplate⟩ := h.here hread inst hinst hlive
  refine ⟨halone.shrink hfiles, ?_⟩
  rw [hfiles.template]
  exact htemplate

theorem Remaining.tail (h : Remaining s i (inst :: rest) w) : Remaining s i rest w where
  toFree := h.toFree
  main other hother := h.main other (List.mem_cons_of_mem _ hother)
  here hread other hother := h.here hread other (List.mem_cons_of_mem _ hother)
  named other hother := h.named other (List.mem_cons_of_mem _ hother)
  single hread := (List.pairwise_cons.mp (h.single hread)).2

theorem Remaining.resting (h : Remaining s i (inst :: rest) w) (hlive : inst.status ≠ .cancelled) :
    Resting s i inst.key inst.templateId w where
  toFree := h.toFree
  alone hread := (h.here hread inst List.mem_cons_self hlive).1 hread
  placed := ⟨h.main inst List.mem_cons_self,
    fun hread => (h.here hread inst List.mem_cons_self hlive).2⟩

/-- The lifecycle of one instance leaves those that follow in the scan as they were. -/
theorem liveTriple_advance {template : CompanyTemplate} {displayName : String}
    (hlive : inst.status ≠ .cancelled) (htemplate : template.id = inst.templateId)
    (hregistry : getCompanyTemplate s.registry template.id = some template) :
    LiveTriple s i (Remaining s i (inst :: rest))
      (Task.result (runCompanyLifecycle s.sha256Hex template inst.instanceId displayName))
      (fun _ => Remaining s i rest) (Exit s i) := by
  have hpull : LiveTriple s i (fun w => (Resting s i inst.key inst.templateId w ∧
        ∀ other ∈ rest, (w.slots other.key).main ≠ none) ∧ WellNamed inst ∧
        (∀ other ∈ rest, WellNamed other) ∧
        (s.policy.Readable → ∀ other ∈ rest, other.status = .cancelled))
      (Task.result (runCompanyLifecycle s.sha256Hex template inst.instanceId displayName))
      (fun _ => Remaining s i rest) (Exit s i) := by
    apply Task.triple_pull
    rintro ⟨hnamed, hothers, hdead⟩
    have hkey : instanceKey inst.instanceId = inst.key := by
      rw [hnamed.instanceId, hnamed.key_eq]
    have hrun : LiveTriple s i (Resting s i inst.key inst.templateId)
        (runCompanyLifecycle s.sha256Hex template inst.instanceId displayName)
        (fun _ => Free s i) (Exit s i) := by
      rw [← hkey, ← htemplate]
      exact liveTriple_runCompanyLifecycle (hkey.trans hnamed.instanceId.symm) hregistry
    have hstable : LiveStable s i fun w => ∀ other ∈ rest, (w.slots other.key).main ≠ none :=
      fun w u _ hrely _ h other hother => hrely.main other.key (h other hother)
    have hframe := hrun.frame hstable (fun request _ w answer u hcommit h other hother =>
      main_of_commits hcommit.2 (h other hother)) Task.issues_any
    have hkeep : ∀ w, Free s i w ∧ (∀ other ∈ rest, (w.slots other.key).main ≠ none) →
        Remaining s i rest w := fun w h =>
      ⟨h.1, h.2, fun hread other hother hne => absurd (hdead hread other hother) hne, hothers,
        fun hread => List.pairwise_of_forall_mem_list fun a ha _ _ => .inl (hdead hread a ha)⟩
    exact Task.triple_result (hframe.conseq (fun _ _ h => h) (fun _ w _ h => hkeep w h)
      fun _ w _ h => hkeep w h)
  apply hpull.weaken
  intro w _ h
  refine ⟨⟨h.resting hlive, h.tail.main⟩, h.named inst List.mem_cons_self, h.tail.named, ?_⟩
  intro hread other hother
  exact ((List.pairwise_cons.mp (h.single hread)).1 other hother).resolve_left hlive

theorem liveTriple_reconcileInstance :
    LiveTriple s i (Remaining s i (inst :: rest))
      (reconcileInstance s.registry s.sha256Hex inst) (fun _ => Remaining s i rest)
      (Exit s i) := by
  have hskip : LiveTriple s i (Remaining s i (inst :: rest)) (pure () : CompanyTask Unit)
      (fun _ => Remaining s i rest) (Exit s i) :=
    Task.triple_pure stable_remaining fun _ _ h => h.tail
  apply Task.triple_ite
  · exact fun _ => hskip
  · intro hlive
    apply Task.triple_bind (liveTriple_quiet rfl stable_remaining)
    intro loaded
    apply Task.triple_ite
    · exact fun _ => hskip
    · intro _
      cases hfound : getCompanyTemplate s.registry inst.templateId with
      | none => exact hskip
      | some template =>
        have hid := id_of_getCompanyTemplate hfound
        apply Task.triple_bind (liveTriple_quiet rfl stable_remaining)
        intro again
        cases again with
        | error _ => exact hskip
        | ok manifest =>
          apply Task.triple_bind (liveTriple_advance hlive hid (hid.symm ▸ hfound))
          exact fun _ => Task.triple_pure stable_remaining fun _ _ h => h

theorem liveTriple_completeOf {P : CompanyWorld → Prop} (hP : LiveStable s i P)
    (scan : List ScannedInstance) :
    LiveTriple s i P (completeOf scan) (fun _ => P) (Exit s i) := by
  induction scan with
  | nil => exact Task.triple_pure hP fun _ _ h => h
  | cons inst rest ih =>
    apply Task.triple_bind (liveTriple_quiet rfl hP)
    intro loaded
    apply Task.triple_bind ih
    exact fun _ => Task.triple_pure hP fun _ _ h => h

theorem liveTriple_rebindTarget {target : ScannedInstance} :
    LiveTriple s i (Free s i) (rebindTarget s.registry s.sha256Hex target) (fun _ => Free s i)
      (Exit s i) := by
  have hdone : LiveTriple s i (Free s i) (pure () : CompanyTask Unit) (fun _ => Free s i)
      (Exit s i) := Task.triple_pure stable_free fun _ _ h => h
  apply Task.triple_bind (liveTriple_quiet rfl stable_free)
  intro endpoint
  cases endpoint with
  | error _ => exact hdone
  | ok x0xdUrl =>
    cases getCompanyTemplate s.registry target.templateId with
    | none => exact hdone
    | some template =>
      apply Task.triple_bind (liveTriple_quiet rfl stable_free)
      intro written
      cases written with
      | error _ => exact hdone
      | ok _ =>
        apply Task.triple_bind (liveTriple_bringUpSymphony stable_free)
        intro _
        apply Task.triple_bind (liveTriple_quiet rfl stable_free)
        intro bound
        apply Task.triple_ite
        · intro _
          apply Task.triple_bind (liveTriple_quiet rfl stable_free)
          intro _
          apply Task.triple_bind (liveTriple_quiet rfl stable_free)
          intro loaded
          apply Task.triple_ite
          · exact fun _ => liveTriple_quiet rfl stable_free
          · exact fun _ => hdone
        · exact fun _ => hdone

theorem liveTriple_reconcile :
    LiveTriple s i (fun _ => True) (reconcileCompanies s.registry s.sha256Hex)
      (fun _ _ => True) (fun _ _ => True) := by
  apply liveTriple_releasing
  apply Task.triple_bind liveTriple_scanCompanyInstances
  intro scan
  have hloop : LiveTriple s i (Surveyed s i scan)
      (Task.forEach (reconcileInstance s.registry s.sha256Hex) scan)
      (fun _ => Remaining s i []) (Exit s i) :=
    (Task.triple_forEach stable_remaining (fun _ _ => liveTriple_reconcileInstance) scan).weaken
      fun _ _ h => ⟨h.toFree, fun inst hinst => (h.here inst hinst).main,
        fun hread inst hinst hlive =>
          ⟨(h.here inst hinst).alone hlive, (h.here inst hinst).template hread⟩, h.named, h.single⟩
  apply Task.triple_bind hloop
  intro _
  apply Task.triple_bind (liveTriple_scanCompanyInstances.weaken fun _ _ h => h.toFree)
  intro again
  apply Task.triple_bind (liveTriple_completeOf stable_surveyed again)
  intro complete
  cases (complete.mergeSort newestFirst).head? with
  | none => exact Task.triple_pure stable_surveyed fun _ _ h => h.toFree
  | some target => exact liveTriple_rebindTarget.weaken fun _ _ h => h.toFree

end Commands

section Runs

theorem liveTriple_task (operation : CompanyOperation) :
    LiveTriple s i (fun _ => True) (operation.task s.registry s.sha256Hex) (fun _ _ => True)
      (fun _ _ => True) := by
  cases operation with
  | instantiate templateId displayName =>
    apply Task.triple_bind (liveTriple_instantiate templateId displayName)
    exact fun _ => Task.triple_pure stable_true fun _ _ h => h
  | resume instanceId =>
    apply Task.triple_bind (liveTriple_resume instanceId)
    exact fun _ => Task.triple_pure stable_true fun _ _ h => h
  | cancel instanceId =>
    apply Task.triple_bind (liveTriple_cancelCompanyRun instanceId)
    exact fun _ => Task.triple_pure stable_true fun _ _ h => h
  | reconcile =>
    apply Task.triple_bind liveTriple_reconcile
    exact fun _ => Task.triple_pure stable_true fun _ _ h => h

theorem liveDiscipline_launchesSafe : (liveDiscipline s).LaunchesSafe := by
  rintro i w p hw ⟨-, operation, rfl⟩
  apply (liveTriple_task (i := i) operation).program _ _ [] hw fun _ => True.intro
  · exact fun _ _ _ _ => True.intro
  · exact fun _ _ _ _ => True.intro

theorem companyInvariant_new : CompanyInvariant s CompanyWorld.new where
  sound key m hm := by rcases hm with hm | hm <;> cases hm
  template _ key hmain := absurd rfl hmain
  single _ key key' m m' hm := by rcases hm with hm | hm <;> cases hm
  issued _ key hne := absurd rfl hne
  limit _ key := Nat.zero_le 1
  calm _ :=
    { settled := fun _ _ _ hm => by cases hm
      recorded := fun _ _ hne => absurd rfl hne }

theorem companyInvariant_of_reach {pool : CompanyPool}
    (h : CompanyReach s.registry s.sha256Hex s.policy pool) : CompanyInvariant s pool.world := by
  have hstart : (liveDiscipline s).Holds CompanyPool.start :=
    ⟨companyInvariant_new, fun i p hp => by cases hp⟩
  exact (hstart.reach liveDiscipline_launchesSafe h).valid

end Runs

end Buzz.Company
