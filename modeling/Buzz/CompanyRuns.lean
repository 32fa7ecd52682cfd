import Buzz.CompanyReplay
import Buzz.CompanySafety

/-!
# What holds of the companies in every run

Commands start and end in any order and the app may crash at any time. A run in
which nothing fails is computed: one company is instantiated until it is
complete.
-/

namespace Buzz.Company

open EffectProgram ReplacedFile

section Scripts

/-- The digests that the company of the run meets. -/
def crewDigest (text : String) : String :=
  if text = "acme-1|task_list|work" then
    "563dfd056302440879570d01122cd3ccbc93b39d68ec859c0af25172d8ab1968"
  else sampleDigest text

def crewTemplate : CompanyTemplate :=
  { sampleTemplate [("all", "All")] with taskLists := [⟨"work", "Work", none⟩] }

/-- Nothing fails on the way from the issue to its record, and loads and listings show what there
is. -/
def smoothPolicy : CompanyPolicy where
  step _ w request answer := ReadsAll w request answer ∧ RenamesAll w request answer ∧
    RecordsIssues w request answer
  crash := IssuesRecorded

theorem smooth_recording : smoothPolicy.Recording where
  reads _ _ _ _ h := h.1
  renames _ _ _ _ h := h.2.1
  records _ _ _ _ h := h.2.2
  crash _ h := h

/-- Every manifest is that of one company. -/
def OneCompany (w : CompanyWorld) : Prop :=
  ∀ key, key ≠ "acme-1" → (w.slots key).main = none

/-- How the request is answered when nothing fails. -/
def smoothAnswer (i : CompanyThread) (w : CompanyWorld) :
    (request : CompanyRequest) → Option (request.Reply × CompanyWorld)
  | .acquireRunLock => if w.lock = none then some ((), { w with lock := some i }) else none
  | .releaseRunLock => some ((), { w with lock := none })
  | .listInstances => some (if (w.slots "acme-1").main = none then [] else ["acme-1"], w)
  | .loadManifest key _ =>
      match (w.slots key).main, w.manifest key with
      | none, _ => some (.error .notFound, w)
      | some _, some manifest => some (.ok manifest, w)
      | some _, none => none
  | .openTemporary key =>
      if key = "acme-1" then
        (w.slots key).opened.temporary.map fun file =>
          (.ok file, w.setSlot key (w.slots key).opened)
      else none
  | .writeTemporary key file manifest =>
      if key = "acme-1" then
        some (.ok (), w.setSlot key ((w.slots key).written file (.whole manifest)))
      else none
  | .renameTemporary key manifest =>
      if key = "acme-1" then
        (w.slots key).temporary.map fun file => (.ok (), w.commitRename i key file manifest)
      else none
  | .now => some (some 1, w)
  | .ensureGroup _ => some (.ok ⟨"g1", true⟩, w)
  | .ensureStore _ => some (.ok ⟨"s1", true⟩, w)
  | .ensureTaskList _ => some (.ok ⟨"t1", true⟩, w)
  | .provisionIdentities _ _ => some (.ok [], w)
  | .ensureGroupMember _ => some (.ok (), w)
  | .ownerX0xdEndpoint => some (.ok "http://127.0.0.1:12600", w)
  | .writeWorkflow _ _ => some (.ok (), w)
  | .handleConfig => some (w.handle.map (·.config), w)
  | .bringUp _ => some (.ok true, w)
  | .storeHandle handle _ => some ((), w.storeHandle i handle)
  | .symphonyReady => some (w.handle.isSome, w)
  | .shutdownSymphony => some ((), w.shutdownSymphony i)
  | .shutdownIdentities _ => some ((), w)
  | .setActive instanceId => some ((), { w with active := some instanceId })
  | .clearActive instanceId =>
      some ((), { w with active := if w.active = some instanceId then none else w.active })
  | .buildClient => some (.ok (), w)
  | .createIssue instanceId _ =>
      some (.ok (.object [("id", .string "issue-1")]), w.createIssue instanceId)

/-- What an answer of the run is known to satisfy. -/
structure Smooth (i : CompanyThread) (w : CompanyWorld) (request : CompanyRequest)
    (answer : request.Reply) (v : CompanyWorld) : Prop where
  answers : w.Answers i request answer v
  reads : ReadsAll w request answer
  renames : RenamesAll w request answer
  records : RecordsIssues w request answer
  one : OneCompany v

variable {i : CompanyThread} {w v : CompanyWorld}

theorem oneCompany_setSlot {slot : Slot InstanceManifest} {key : String} (hone : OneCompany w)
    (hkey : key = "acme-1") : OneCompany (w.setSlot key slot) := by
  intro other hother
  rw [CompanyWorld.setSlot, hkey]
  dsimp only
  rw [Function.update_of_ne hother]
  exact hone other hother

theorem smoothAnswer_sound (hone : OneCompany w) (request : CompanyRequest)
    {answer : request.Reply} (h : smoothAnswer i w request = some (answer, v)) :
    Smooth i w request answer v := by
  cases request with
  | acquireRunLock =>
    rw [smoothAnswer] at h
    split_ifs at h with hlock
    cases h
    exact ⟨⟨hlock, rfl⟩, trivial, trivial, trivial, hone⟩
  | listInstances =>
    cases h
    have hlisted : ∀ key, (w.slots key).main ≠ none →
        key ∈ (if (w.slots "acme-1").main = none then [] else ["acme-1"]) := by
      intro key hkey
      by_cases hname : key = "acme-1"
      · rw [hname] at hkey ⊢
        rw [if_neg hkey]
        exact List.mem_singleton_self _
      · exact absurd (hone key hname) hkey
    refine ⟨⟨⟨?_, ?_⟩, rfl⟩, hlisted, trivial, trivial, hone⟩
    · split_ifs
      · exact List.nodup_nil
      · exact List.nodup_singleton _
    · intro key hkey
      split_ifs at hkey with hnone
      · cases hkey
      · rw [List.mem_singleton.mp hkey]
        exact hnone
  | loadManifest key guard =>
    rw [smoothAnswer] at h
    split at h
    · next hmain =>
      cases h
      exact ⟨⟨hmain, rfl⟩, hmain, trivial, trivial, hone⟩
    · next hmanifest =>
      cases h
      exact ⟨⟨hmanifest, rfl⟩, trivial, trivial, trivial, hone⟩
    · cases h
  | openTemporary key =>
    rw [smoothAnswer] at h
    split_ifs at h with hkey
    obtain ⟨file, hfile, heq⟩ := Option.map_eq_some_iff.mp h
    cases heq
    exact ⟨⟨hfile, rfl⟩, trivial, trivial, trivial, oneCompany_setSlot hone hkey⟩
  | writeTemporary key file manifest =>
    rw [smoothAnswer] at h
    split_ifs at h with hkey
    cases h
    exact ⟨⟨_, .inl rfl, rfl⟩, trivial, trivial, trivial, oneCompany_setSlot hone hkey⟩
  | renameTemporary key manifest =>
    rw [smoothAnswer] at h
    split_ifs at h with hkey
    obtain ⟨file, hfile, heq⟩ := Option.map_eq_some_iff.mp h
    cases heq
    exact ⟨⟨file, hfile, rfl⟩, trivial, trivial, trivial, oneCompany_setSlot hone hkey⟩
  | handleConfig | symphonyReady =>
    cases h
    exact ⟨⟨rfl, rfl⟩, trivial, trivial, trivial, hone⟩
  | createIssue instanceId draft =>
    cases h
    exact ⟨rfl, trivial, trivial, rfl, hone⟩
  | _ =>
    cases h
    exact ⟨rfl, trivial, trivial, trivial, hone⟩

/-- The steps of a run with one company. -/
def crewSystem : System CompanyThread CompanyWorld CompanyRequest CompanyRequest.Reply
    (fun _ => CompanyReturn) where
  commits i w request answer u := OneCompany w →
    (smoothPolicy.step i w request answer ∧ w.Commits i request answer u) ∧ OneCompany u
  launches := (companySystem [crewTemplate] crewDigest smoothPolicy).launches
  stops _ _ _ := False
  moves _ _ := False

theorem crewReach_of_reach {pool : CompanyPool}
    (h : PoolReach crewSystem CompanyPool.start pool) :
    CompanyReach [crewTemplate] crewDigest smoothPolicy pool := by
  have hstart : OneCompany CompanyPool.start.world := fun _ _ => rfl
  have hfiner : ∀ a b : CompanyPool, OneCompany a.world → PoolStep crewSystem a b →
      OneCompany b.world ∧
        PoolStep (companySystem [crewTemplate] crewDigest smoothPolicy) a b := by
    intro a b ha hstep
    cases hstep with
    | commit hthread hcommit => exact ⟨(hcommit ha).2, .commit hthread (hcommit ha).1⟩
    | launch hthread hlaunch => exact ⟨ha, .launch hthread hlaunch⟩
    | stop hthread hstop => exact hstop.elim
    | move hmove => exact hmove.elim
  exact (PoolReach.refine hstart hfiner h).2

def smoothStep (i : CompanyThread) (w : CompanyWorld) (request : CompanyRequest) :
    Option (request.Reply × CompanyWorld) :=
  if i.app = w.app then
    (smoothAnswer i w request).map fun out =>
      (out.1, { out.2 with
        saving := Function.update out.2.saving i (request.savingAfter out.1) })
  else none

theorem smoothStep_sound (request : CompanyRequest) {answer : request.Reply} {u : CompanyWorld}
    (h : smoothStep i w request = some (answer, u)) (hone : OneCompany w) :
    (smoothPolicy.step i w request answer ∧ w.Commits i request answer u) ∧ OneCompany u := by
  rw [smoothStep] at h
  split_ifs at h with happ
  obtain ⟨⟨found, v⟩, hfound, heq⟩ := Option.map_eq_some_iff.mp h
  cases heq
  have hs := smoothAnswer_sound hone request hfound
  exact ⟨⟨⟨hs.reads, hs.renames, hs.records⟩, happ, v, hs.answers, rfl⟩, hs.one⟩

def crewScript : Script crewSystem Unit CompanyOperation where
  answer _ i w request := smoothStep i w request
  program _ operation := operation.task [crewTemplate] crewDigest []
  launchable i w _ := i.app == w.app
  stopped _ _ := none
  moved _ _ := none
  answer_sound _ _ _ request _ _ h := smoothStep_sound request h
  launch_sound _ _ operation h := ⟨beq_iff_eq.mp h, operation, rfl⟩
  stop_sound _ _ _ h := nomatch h
  move_sound _ _ _ h := nomatch h

/-- The company is instantiated. -/
def crewRun : List (Act CompanyThread Unit CompanyOperation) :=
  [.launch ⟨0, 0⟩ (.instantiate "crew" (some "Acme")), .steps ⟨0, 0⟩ () 200]

/-- What a pool shows of the company: its manifest and the issues. -/
def crewView (pool : CompanyPool) : Option (ManifestStatus × Option String) × ℕ :=
  ((pool.world.manifest "acme-1").map fun m => (m.status, m.runId), pool.world.issued "acme-1")

theorem crew_completes : ∃ pool,
    CompanyReach [crewTemplate] crewDigest smoothPolicy pool ∧
      crewView pool = (some (.complete, some "issue-1"), 1) := by
  have hplay : (crewScript.play crewRun CompanyPool.start).map crewView =
      some (some (.complete, some "issue-1"), 1) := by
    decide +kernel
  obtain ⟨pool, hpool, hview⟩ := Option.map_eq_some_iff.mp hplay
  exact ⟨pool, crewReach_of_reach (Script.reach_play crewRun hpool), hview⟩

end Scripts

section Results

variable (registry : List CompanyTemplate) (sha256Hex : String → String) (policy : CompanyPolicy)

/-- Whatever fails and whenever the app crashes, a manifest on disk that says complete has the run,
every step of its plan and every later phase on record. -/
theorem complete_is_complete {pool : CompanyPool} (h : CompanyReach registry sha256Hex policy pool)
    (key : String) (m : InstanceManifest) (hm : (pool.world.slots key).Holds m)
    (hcomplete : m.status = .complete) :
    m.instanceId = key ∧ m.runId.isSome = true ∧
      (∃ template, getCompanyTemplate registry m.templateId = some template ∧
        ∀ step ∈ (planInstantiation sha256Hex template m.instanceId).steps,
          (m.completedKey step.key).isSome = true) ∧
      ∀ phase ∈ ["identities", "membership", "symphony_bind"],
        m.hasPostPhase m.instanceId phase = true := by
  have hsound := (companyInvariant_of_reach (s := ⟨registry, sha256Hex, policy⟩) h).sound key m hm
  have hdone := hsound.complete hcomplete
  refine ⟨hsound.instanceId, hdone.runId, hdone.steps, ?_⟩
  intro phase hphase
  simp only [List.mem_cons, List.not_mem_nil, or_false] at hphase
  rcases hphase with rfl | rfl | rfl
  · exact hdone.identities
  · exact hdone.membership
  · exact hdone.symphonyBind

theorem complete_is_complete_crew : ∃ pool m,
    CompanyReach [crewTemplate] crewDigest smoothPolicy pool ∧
      (pool.world.slots "acme-1").Holds m ∧ m.status = .complete ∧
      m.instanceId = "acme-1" ∧ m.runId.isSome = true ∧
      (∃ template, getCompanyTemplate [crewTemplate] m.templateId = some template ∧
        ∀ step ∈ (planInstantiation crewDigest template m.instanceId).steps,
          (m.completedKey step.key).isSome = true) ∧
      ∀ phase ∈ ["identities", "membership", "symphony_bind"],
        m.hasPostPhase m.instanceId phase = true := by
  obtain ⟨pool, hreach, hview⟩ := crew_completes
  obtain ⟨m, hm, hstatus⟩ := Option.map_eq_some_iff.mp (congrArg Prod.fst hview)
  have hcomplete : m.status = .complete := congrArg Prod.fst hstatus
  exact ⟨pool, m, hreach, .inl hm, hcomplete,
    complete_is_complete [crewTemplate] crewDigest smoothPolicy hreach "acme-1" m (.inl hm)
      hcomplete⟩

/-- While the manifests can be read, at most one company is not cancelled. -/
theorem one_live_company (hread : policy.Readable) {pool : CompanyPool}
    (h : CompanyReach registry sha256Hex policy pool) (key other : String)
    (m n : InstanceManifest) (hm : (pool.world.slots key).Holds m) (hlive : m.status ≠ .cancelled)
    (hn : (pool.world.slots other).Holds n) (hlive' : n.status ≠ .cancelled) : key = other :=
  (companyInvariant_of_reach (s := ⟨registry, sha256Hex, policy⟩) h).single hread key other m n hm
    hlive hn hlive'

theorem one_live_company_crew : ∃ pool m,
    CompanyReach [crewTemplate] crewDigest smoothPolicy pool ∧
      (pool.world.slots "acme-1").Holds m ∧ m.status ≠ .cancelled ∧ "acme-1" = "acme-1" := by
  obtain ⟨pool, hreach, hview⟩ := crew_completes
  obtain ⟨m, hm, hstatus⟩ := Option.map_eq_some_iff.mp (congrArg Prod.fst hview)
  have hlive : m.status ≠ .cancelled := by
    rw [show m.status = .complete from congrArg Prod.fst hstatus]
    decide
  exact ⟨pool, m, hreach, .inl hm, hlive,
    one_live_company [crewTemplate] crewDigest smoothPolicy smooth_recording.toReadable hreach
      "acme-1" "acme-1" m m (.inl hm) hlive (.inl hm) hlive⟩

/-- While nothing fails between a run issue and its record, there is at most one issue for each
company, and its manifest carries the identifier whenever no command holds the run lock. -/
theorem one_run_issue (hrec : policy.Recording) {pool : CompanyPool}
    (h : CompanyReach registry sha256Hex policy pool) (key : String) :
    pool.world.issued key ≤ 1 ∧
      (pool.world.lock = none → pool.world.issued key ≠ 0 → ∀ m, (pool.world.slots key).Holds m →
        m.status ≠ .cancelled → m.runId.isSome = true) := by
  have hinv := companyInvariant_of_reach (s := ⟨registry, sha256Hex, policy⟩) h
  exact ⟨hinv.limit hrec key, fun hlock => (hinv.calm hlock).recorded hrec key⟩

theorem one_run_issue_crew : ∃ pool,
    CompanyReach [crewTemplate] crewDigest smoothPolicy pool ∧
      pool.world.issued "acme-1" = 1 ∧ pool.world.issued "acme-1" ≤ 1 ∧
      (pool.world.lock = none → pool.world.issued "acme-1" ≠ 0 →
        ∀ m, (pool.world.slots "acme-1").Holds m → m.status ≠ .cancelled →
          m.runId.isSome = true) := by
  obtain ⟨pool, hreach, hview⟩ := crew_completes
  exact ⟨pool, hreach, congrArg Prod.snd hview,
    one_run_issue [crewTemplate] crewDigest smoothPolicy smooth_recording hreach "acme-1"⟩

end Results

end Buzz.Company
