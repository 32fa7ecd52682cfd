import Mathlib.Data.List.Basic
import Mathlib.Logic.Function.Basic
import Mathlib.Tactic
import Buzz.GroupBinding

/-!
# Reconciling the runtimes of managed agents

At startup the desktop starts a harness for every pair of an agent and a group.
The pairs are probed at once and started one after the other, each with the
version of the record that was read before the first start. No other command
touches the store meanwhile.
-/

namespace Buzz.ManagedAgents

section Types

/-- The keyed records of the store. An agent is identified by its pubkey, up to ASCII case. -/
structure AgentStore where
  records : List ManagedAgentRecord
  nodup : (records.map fun record => toAsciiLowercase record.pubkey).Nodup

structure ManagedAgentRuntimeKey where
  pubkey : String
  groupId : String
  deriving DecidableEq, Repr

inductive ManagedAgentRuntimeLifecycle where
  | starting
  | listening
  | waking
  | ready
  | failed
  | stopped
  deriving DecidableEq, Repr

structure ManagedAgentPairRuntime where
  lifecycle : ManagedAgentRuntimeLifecycle
  error : Option String
  deriving DecidableEq, Repr

structure ManagedAgentRuntimeStatus where
  pubkey : String
  groupId : String
  requestedGroupId : Option String
  lifecycle : ManagedAgentRuntimeLifecycle
  error : Option String
  deriving DecidableEq, Repr

structure RuntimeWorld where
  store : AgentStore
  runtimes : ManagedAgentRuntimeKey → Option ManagedAgentPairRuntime

/-- A harness that did not survive its first moments. -/
structure StartFailure where
  message : String
  exitCode : Option ℤ
  now : String
  deriving DecidableEq, Repr

/-- What the system answers while one pair starts. -/
structure StartReplies where
  load : Except String Unit
  prepare : Except String Unit
  shutdownStarted : Bool
  reload : Except String Unit
  exited : Bool
  terminateUntracked : Except String Unit
  spawn : Except String Unit
  now : String
  stabilize : Except StartFailure ManagedAgentRuntimeLifecycle
  writeReceipt : Except String Unit
  save : Except String Unit

end Types

namespace ManagedAgentRuntimeKey

def new (pubkey groupId : String) : Except String ManagedAgentRuntimeKey :=
  if isHexText 64 pubkey then .ok ⟨toAsciiLowercase pubkey, groupId⟩
  else .error "managed-agent pubkey must be 64 hexadecimal characters"

end ManagedAgentRuntimeKey

namespace ManagedAgentRecord

variable (record : ManagedAgentRecord)

def started (now : String) : ManagedAgentRecord :=
  { record with
    runtimePid := none
    updatedAt := now
    lastStartedAt := some now
    lastStoppedAt := none
    lastExitCode := none
    lastError := none
    lastErrorCode := none }

def markAgentStartFailure (failure : StartFailure) : ManagedAgentRecord :=
  { record with
    runtimePid := none
    updatedAt := failure.now
    lastStoppedAt := some failure.now
    lastExitCode := failure.exitCode
    lastError := some failure.message
    lastErrorCode := none }

end ManagedAgentRecord

namespace AgentStore

variable (store : AgentStore)

def findIgnoreCase (pubkey : String) : Option ManagedAgentRecord :=
  store.records.find? fun record => eqIgnoreAsciiCase record.pubkey pubkey

def findManagedAgent (pubkey : String) : Option ManagedAgentRecord :=
  store.records.find? fun record => record.pubkey == pubkey

/-- The store with `record` in the place of the record of its pubkey. -/
def put (record : ManagedAgentRecord) : AgentStore where
  records := store.records.map fun old => if old.pubkey = record.pubkey then record else old
  nodup := by
    rw [List.map_map]
    have hsame : ((fun record : ManagedAgentRecord => toAsciiLowercase record.pubkey) ∘
        fun old => if old.pubkey = record.pubkey then record else old) =
        fun record => toAsciiLowercase record.pubkey := by
      funext old
      simp only [Function.comp_apply]
      split_ifs with hpubkey
      · rw [hpubkey]
      · rfl
    rw [hsame]
    exact store.nodup

end AgentStore

section Start

def statusFor (key : ManagedAgentRuntimeKey) (runtime : Option ManagedAgentPairRuntime)
    (requestedGroupId : Option String) : ManagedAgentRuntimeStatus where
  pubkey := key.pubkey
  groupId := key.groupId
  requestedGroupId := requestedGroupId
  lifecycle := (runtime.map ManagedAgentPairRuntime.lifecycle).getD .stopped
  error := runtime.bind ManagedAgentPairRuntime.error

def changedInFlight : String :=
  "managed agent changed while runtime reconciliation was in flight"

/-- Everything that is checked before the pair's own runtime is looked at. -/
def startChecks (store : AgentStore) (pubkey groupId : String) (expectedUpdatedAt : Option String)
    (replies : StartReplies) : Except String (ManagedAgentRecord × ManagedAgentRuntimeKey) := do
  replies.load
  let snapshot ← match store.findIgnoreCase pubkey with
    | some record => pure record
    | none => throw ("agent " ++ pubkey ++ " not found")
  if snapshot.backend ≠ .local then throw "managed runtime pairs require a local agent"
  if expectedUpdatedAt.any (snapshot.updatedAt ≠ ·) then throw changedInFlight
  replies.prepare
  if replies.shutdownStarted then throw "desktop shutdown has started"
  replies.reload
  let record ← match store.findManagedAgent pubkey with
    | some record => pure record
    | none => throw ("agent " ++ pubkey ++ " not found")
  if record.backend ≠ .local then throw "managed runtime pairs require a local agent"
  if record.updatedAt ≠ snapshot.updatedAt ∨ expectedUpdatedAt.any (record.updatedAt ≠ ·) then
    throw changedInFlight
  let key ← ManagedAgentRuntimeKey.new pubkey groupId
  return (record, key)

/-- The pair has a runtime whose process has not exited. -/
def liveRuntime (w : RuntimeWorld) (key : ManagedAgentRuntimeKey) (replies : StartReplies) :
    Option ManagedAgentPairRuntime :=
  (w.runtimes key).filter fun _ => !replies.exited

/-- A new harness for the pair. The record is saved with a new version, also when the harness
does not survive. -/
def launchPair (w : RuntimeWorld) (record : ManagedAgentRecord) (key : ManagedAgentRuntimeKey)
    (replies : StartReplies) : RuntimeWorld × Except String ManagedAgentRuntimeStatus :=
  let removed := { w with runtimes := Function.update w.runtimes key none }
  match replies.terminateUntracked, replies.spawn with
  | .error error, _ => (removed, .error error)
  | _, .error error => (removed, .error error)
  | .ok (), .ok () =>
      let started := record.started replies.now
      match replies.stabilize with
      | .error failure =>
          match replies.save with
          | .error error => (removed, .error error)
          | .ok () =>
              ({ removed with store := w.store.put (started.markAgentStartFailure failure) },
                .error failure.message)
      | .ok lifecycle =>
          match replies.writeReceipt with
          | .error error => (removed, .error error)
          | .ok () =>
              let runtime : ManagedAgentPairRuntime := ⟨lifecycle, none⟩
              let inserted := { w with runtimes := Function.update w.runtimes key (some runtime) }
              match replies.save with
              | .error error => (inserted, .error error)
              | .ok () =>
                  ({ inserted with store := w.store.put started }, .ok (statusFor key runtime none))

def startPair (w : RuntimeWorld) (pubkey groupId : String) (expectedUpdatedAt : Option String)
    (replies : StartReplies) : RuntimeWorld × Except String ManagedAgentRuntimeStatus :=
  match startChecks w.store pubkey groupId expectedUpdatedAt replies with
  | .error error => (w, .error error)
  | .ok (record, key) =>
      match liveRuntime w key replies with
      | some runtime => (w, .ok (statusFor key runtime none))
      | none => launchPair w record key replies

end Start

section Reconcile

structure ReconcileJob where
  record : ManagedAgentRecord
  groupId : String
  childAgentId : String
  deriving DecidableEq, Repr

def reconcileJobs (records : List ManagedAgentRecord) (groupIds : List String)
    (childIdentity : String → Option String) : List ReconcileJob :=
  groupIds.flatMap fun groupId =>
    (records.filter fun record => record.startOnAppLaunch && record.backend == .local).filterMap
      fun record => (childIdentity record.pubkey).map fun childAgentId =>
        ⟨record, groupId, childAgentId⟩

/-- `seen` holds the identifiers that were met before. -/
def normalizeReconcileGroupIds (seen : List String) : List String → Except String (List String)
  | [] => .ok []
  | community :: rest =>
      let groupId := trim community
      if groupId = "" then .error "managed-agent reconciliation requires non-empty group ids"
      else if groupId ∈ seen then normalizeReconcileGroupIds seen rest
      else (normalizeReconcileGroupIds (groupId :: seen) rest).map (groupId :: ·)

/-- What the system answers to a reconciliation. The probes complete in any order. -/
structure ReconcileEnv where
  autoRestoreAllowed : Bool
  load : Except String Unit
  childIdentity : String → Option String
  probe : ReconcileJob → Except String Bool
  complete : List ReconcileJob → List ReconcileJob
  complete_perm : ∀ jobs, (complete jobs).Perm jobs
  replies : ReconcileJob → StartReplies

inductive PairOutcome where
  | probeFailed (error : String)
  | startFailed (error : String)
  | started (status : ManagedAgentRuntimeStatus)
  deriving DecidableEq, Repr

variable (env : ReconcileEnv) (w : RuntimeWorld)

/-- The pairs that are looked at, in the order in which their probes complete. -/
def reconcilePlan (communities : List String) : Except String (List ReconcileJob) :=
  if !env.autoRestoreAllowed then .ok []
  else do
    let groupIds ← normalizeReconcileGroupIds [] communities
    env.load
    return env.complete (reconcileJobs w.store.records groupIds env.childIdentity)

def startJob (job : ReconcileJob) : RuntimeWorld × Except String ManagedAgentRuntimeStatus :=
  startPair w job.record.pubkey job.groupId (some job.record.updatedAt) (env.replies job)

def startJobs (w : RuntimeWorld) :
    List ReconcileJob → RuntimeWorld × List (ReconcileJob × PairOutcome)
  | [] => (w, [])
  | job :: rest =>
      match env.probe job with
      | .ok true =>
          let (u, result) := startJob env w job
          let (v, outcomes) := startJobs u rest
          match result with
          | .ok status =>
              (v, (job, .started { status with requestedGroupId := some job.groupId }) :: outcomes)
          | .error error => (v, (job, .startFailed error) :: outcomes)
      | .ok false => startJobs w rest
      | .error error =>
          let (v, outcomes) := startJobs w rest
          (v, (job, .probeFailed error) :: outcomes)

def failedReconcileStatus (job : ReconcileJob) (error : String) : ManagedAgentRuntimeStatus :=
  let status := match ManagedAgentRuntimeKey.new job.record.pubkey job.groupId with
    | .ok key => statusFor key none (some job.groupId)
    | .error _ => ⟨job.record.pubkey, job.groupId, some job.groupId, .failed, none⟩
  { status with lifecycle := .failed, error := some error }

def runtimeRow : ReconcileJob × PairOutcome → ManagedAgentRuntimeStatus
  | (job, .probeFailed error) => failedReconcileStatus job error
  | (job, .startFailed error) => failedReconcileStatus job error
  | (_, .started status) => status

def reconcileManagedAgentRuntimes (communities : List String) :
    RuntimeWorld × Except String (List ManagedAgentRuntimeStatus) :=
  match reconcilePlan env w communities with
  | .error error => (w, .error error)
  | .ok jobs =>
      let (u, outcomes) := startJobs env w jobs
      (u, .ok (outcomes.map runtimeRow))

end Reconcile

section Store

variable {store : AgentStore} {record other : ManagedAgentRecord}

theorem AgentStore.eq_of_mem (hrecord : record ∈ store.records) (hother : other ∈ store.records)
    (hpubkey : toAsciiLowercase other.pubkey = toAsciiLowercase record.pubkey) : other = record :=
  List.inj_on_of_nodup_map store.nodup hother hrecord hpubkey

theorem find?_eq_some_of_unique {p : ManagedAgentRecord → Bool} {records : List ManagedAgentRecord}
    (hmem : record ∈ records) (hp : p record = true)
    (hunique : ∀ other ∈ records, p other = true → other = record) :
    records.find? p = some record := by
  obtain ⟨found, hfound⟩ : ∃ found, records.find? p = some found := by
    rw [← Option.isSome_iff_exists, List.find?_isSome]
    exact ⟨record, hmem, hp⟩
  have heq := hunique found (List.mem_of_find?_eq_some hfound) (List.find?_some hfound)
  rw [hfound, heq]

theorem AgentStore.findIgnoreCase_of_mem (hrecord : record ∈ store.records) :
    store.findIgnoreCase record.pubkey = some record := by
  refine find?_eq_some_of_unique hrecord (eqIgnoreAsciiCase_self _) ?_
  intro other hother heq
  exact store.eq_of_mem hrecord hother ((eqIgnoreAsciiCase_iff _ _).mp heq)

theorem AgentStore.findManagedAgent_of_mem (hrecord : record ∈ store.records) :
    store.findManagedAgent record.pubkey = some record := by
  refine find?_eq_some_of_unique hrecord (beq_self_eq_true _) ?_
  intro other hother heq
  exact store.eq_of_mem hrecord hother (congrArg _ (beq_iff_eq.mp heq))

theorem AgentStore.mem_put (new : ManagedAgentRecord) (hrecord : record ∈ store.records) :
    (if record.pubkey = new.pubkey then new else record) ∈ (store.put new).records :=
  List.mem_map_of_mem hrecord

end Store

section Conditions

variable (env : ReconcileEnv) (w : RuntimeWorld) (job : ReconcileJob)

def ReconcileJob.key (job : ReconcileJob) : ManagedAgentRuntimeKey :=
  ⟨toAsciiLowercase job.record.pubkey, job.groupId⟩

/-- The replies up to the point where the pair's own runtime is looked at. -/
def StartReplies.cleared (replies : StartReplies) : Bool :=
  replies.load.isOk && replies.prepare.isOk && !replies.shutdownStarted && replies.reload.isOk

/-- A new harness is spawned, survives and is recorded. -/
def StartReplies.launches (replies : StartReplies) : Bool :=
  replies.terminateUntracked.isOk && replies.spawn.isOk && replies.stabilize.isOk &&
    replies.writeReceipt.isOk && replies.save.isOk

/-- The version under which a launch saves the record. -/
def StartReplies.savedVersion (replies : StartReplies) : Option String :=
  if replies.terminateUntracked.isOk && replies.spawn.isOk && replies.save.isOk then
    match replies.stabilize with
    | .ok _ => if replies.writeReceipt.isOk then some replies.now else none
    | .error failure => some failure.now
  else none

/-- The pair is probed as an active member. -/
def eligible : Bool :=
  match env.probe job with
  | .ok active => active
  | .error _ => false

/-- The start goes through to the end: a harness of the pair runs already or is launched. -/
def startable : Bool :=
  let replies := env.replies job
  replies.cleared && isHexText 64 job.record.pubkey &&
    ((liveRuntime w job.key replies).isSome || replies.launches)

/-- The start launches a harness and saves the record under another version than it had. -/
def rewrites : Bool :=
  let replies := env.replies job
  replies.cleared && isHexText 64 job.record.pubkey && (liveRuntime w job.key replies).isNone &&
    replies.savedVersion.any (· != job.record.updatedAt)

end Conditions

section OneStart

variable {env : ReconcileEnv} {w : RuntimeWorld} {job other : ReconcileJob}
  {record : ManagedAgentRecord} {replies : StartReplies} {key : ManagedAgentRuntimeKey}

/-- The checks of a pair pass exactly when the system admits it under a valid pubkey and the
version of the record is the expected one. -/
theorem startChecks_eq_ok_iff {store : AgentStore} (groupId : String) {expected : String}
    {result : ManagedAgentRecord × ManagedAgentRuntimeKey} (hrecord : record ∈ store.records)
    (hlocal : record.backend = .local) :
    startChecks store record.pubkey groupId (some expected) replies = .ok result ↔
      (replies.cleared = true ∧ record.updatedAt = expected ∧ isHexText 64 record.pubkey = true) ∧
        result = (record, ⟨toAsciiLowercase record.pubkey, groupId⟩) := by
  unfold startChecks StartReplies.cleared
  simp only [AgentStore.findIgnoreCase_of_mem hrecord, AgentStore.findManagedAgent_of_mem hrecord,
    hlocal, ne_eq, not_true, if_false, pure_bind]
  by_cases hversion : record.updatedAt = expected
  · cases replies.load with
    | error e => simp [bind, Except.bind, Except.isOk, Except.toBool]
    | ok =>
        cases replies.prepare with
        | error e => simp [bind, Except.bind, Except.isOk, Except.toBool, hversion]
        | ok =>
            cases replies.reload with
            | error e =>
                cases replies.shutdownStarted <;>
                  simp [bind, Except.bind, Except.isOk, Except.toBool, hversion, throw, throwThe,
                    MonadExceptOf.throw]
            | ok =>
                by_cases hhex : isHexText 64 record.pubkey = true
                · cases replies.shutdownStarted <;>
                    simp [bind, Except.bind, pure, Except.pure, Except.isOk, Except.toBool,
                      hversion, throw, throwThe, MonadExceptOf.throw, ManagedAgentRuntimeKey.new,
                      hhex, eq_comm]
                · cases replies.shutdownStarted <;>
                    simp [bind, Except.bind, hversion, throw, throwThe, MonadExceptOf.throw,
                      ManagedAgentRuntimeKey.new, hhex]
  · cases replies.load with
    | error e => simp [bind, Except.bind, Except.isOk, Except.toBool]
    | ok => simp [bind, Except.bind, hversion, throw, throwThe, MonadExceptOf.throw]

theorem isOk_launchPair :
    (launchPair w record key replies).2.isOk = replies.launches := by
  unfold launchPair StartReplies.launches
  cases replies.terminateUntracked with
  | error e => rfl
  | ok =>
      cases replies.spawn with
      | error e => rfl
      | ok =>
          cases replies.stabilize with
          | error failure => cases replies.save <;> rfl
          | ok lifecycle => cases replies.writeReceipt <;> cases replies.save <;> rfl

/-- A launch touches no other pair, and the store only at its record. -/
theorem launchPair_spec (w : RuntimeWorld) (record : ManagedAgentRecord)
    (key : ManagedAgentRuntimeKey) (replies : StartReplies) :
    (∀ other, other ≠ key →
      (launchPair w record key replies).1.runtimes other = w.runtimes other) ∧
    match replies.savedVersion with
    | none => (launchPair w record key replies).1.store = w.store
    | some version => ∃ new : ManagedAgentRecord,
        (launchPair w record key replies).1.store = w.store.put new ∧
          new.pubkey = record.pubkey ∧ new.backend = record.backend ∧ new.updatedAt = version := by
  have hother (runtime : Option ManagedAgentPairRuntime) (other : ManagedAgentRuntimeKey)
      (hne : other ≠ key) : Function.update w.runtimes key runtime other = w.runtimes other :=
    Function.update_of_ne hne ..
  unfold launchPair StartReplies.savedVersion
  cases replies.terminateUntracked with
  | error e => exact ⟨hother none, rfl⟩
  | ok =>
      cases replies.spawn with
      | error e => exact ⟨hother none, rfl⟩
      | ok =>
          cases replies.stabilize with
          | error failure =>
              cases replies.save with
              | error e => exact ⟨hother none, rfl⟩
              | ok => exact ⟨hother none, _, rfl, rfl, rfl, rfl⟩
          | ok lifecycle =>
              cases replies.writeReceipt with
              | error e => cases replies.save <;> exact ⟨hother none, rfl⟩
              | ok =>
                  cases replies.save with
                  | error e => exact ⟨hother _, rfl⟩
                  | ok => exact ⟨hother _, _, rfl, rfl, rfl, rfl⟩

/-- The store has the record of the job. -/
def Stored (store : AgentStore) (job : ReconcileJob) : Prop :=
  ∃ record ∈ store.records, record.pubkey = job.record.pubkey ∧ record.backend = .local

/-- The record is at the version that the job was planned with. -/
def Fresh (store : AgentStore) (job : ReconcileJob) : Prop :=
  ∃ record ∈ store.records, record.pubkey = job.record.pubkey ∧
    record.updatedAt = job.record.updatedAt

theorem fresh_iff {store : AgentStore} (hrecord : record ∈ store.records)
    (hpubkey : record.pubkey = job.record.pubkey) :
    Fresh store job ↔ record.updatedAt = job.record.updatedAt := by
  constructor
  · rintro ⟨found, hfound, hsame, hversion⟩
    obtain rfl := store.eq_of_mem hrecord hfound (by rw [hsame, hpubkey])
    exact hversion
  · intro hversion
    exact ⟨record, hrecord, hpubkey, hversion⟩

theorem Stored.put {store : AgentStore} {new : ManagedAgentRecord} (h : Stored store job)
    (hlocal : new.backend = .local) : Stored (store.put new) job := by
  obtain ⟨record, hrecord, hpubkey, hbackend⟩ := h
  have hmem := store.mem_put new hrecord
  split_ifs at hmem with hsame
  · exact ⟨new, hmem, hsame.symm.trans hpubkey, hlocal⟩
  · exact ⟨record, hmem, hpubkey, hbackend⟩

theorem fresh_put_iff {store : AgentStore} {new : ManagedAgentRecord} (h : Stored store job) :
    Fresh (store.put new) job ↔
      if new.pubkey = job.record.pubkey then new.updatedAt = job.record.updatedAt
      else Fresh store job := by
  obtain ⟨record, hrecord, hpubkey, -⟩ := h
  have hmem := store.mem_put new hrecord
  rw [hpubkey] at hmem
  split_ifs with hsame
  · rw [if_pos hsame.symm] at hmem
    exact fresh_iff hmem hsame
  · rw [if_neg fun heq => hsame heq.symm] at hmem
    rw [fresh_iff hmem hpubkey, fresh_iff hrecord hpubkey]

/-- The checks of the start pass. -/
def Passes (env : ReconcileEnv) (w : RuntimeWorld) (job : ReconcileJob) : Prop :=
  Fresh w.store job ∧ (env.replies job).cleared = true ∧ isHexText 64 job.record.pubkey = true

/-- A start stops at the checks, finds a live harness or launches one. -/
inductive StartCase (env : ReconcileEnv) (w : RuntimeWorld) (job : ReconcileJob) : Prop where
  | stopped (error : String) : ¬Passes env w job → startJob env w job = (w, .error error) →
      StartCase env w job
  | live (runtime : ManagedAgentPairRuntime) : Passes env w job →
      liveRuntime w job.key (env.replies job) = some runtime →
      startJob env w job = (w, .ok (statusFor job.key runtime none)) → StartCase env w job
  | launched (record : ManagedAgentRecord) : Passes env w job →
      liveRuntime w job.key (env.replies job) = none → record ∈ w.store.records →
      record.pubkey = job.record.pubkey → record.backend = .local →
      startJob env w job = launchPair w record job.key (env.replies job) → StartCase env w job

theorem startJob_cases (env : ReconcileEnv) (hstored : Stored w.store job) :
    StartCase env w job := by
  obtain ⟨record, hrecord, hpubkey, hlocal⟩ := hstored
  have hfresh := fresh_iff hrecord hpubkey
  cases hchecks : startChecks w.store job.record.pubkey job.groupId (some job.record.updatedAt)
      (env.replies job) with
  | error error =>
      refine .stopped error ?_ (by simp only [startJob, startPair, hchecks])
      rintro ⟨hversion, hcleared, hhex⟩
      rw [← hpubkey] at hchecks hhex
      have hok := (startChecks_eq_ok_iff job.groupId hrecord hlocal).mpr
        ⟨⟨hcleared, hfresh.mp hversion, hhex⟩, rfl⟩
      rw [hchecks] at hok
      cases hok
  | ok result =>
      have hresult := hchecks
      rw [← hpubkey] at hresult
      obtain ⟨⟨hcleared, hversion, hhex⟩, rfl⟩ :=
        (startChecks_eq_ok_iff job.groupId hrecord hlocal).mp hresult
      rw [hpubkey] at hhex hchecks
      have hpasses : Passes env w job := ⟨hfresh.mpr hversion, hcleared, hhex⟩
      change startChecks _ _ _ _ _ = .ok (record, job.key) at hchecks
      cases hlive : liveRuntime w job.key (env.replies job) with
      | some runtime =>
          exact .live runtime hpasses hlive (by simp only [startJob, startPair, hchecks, hlive])
      | none =>
          refine .launched record hpasses hlive hrecord hpubkey hlocal ?_
          simp only [startJob, startPair, hchecks, hlive]

/-- A pair that is stored starts exactly when it is startable and its record is fresh. -/
theorem isOk_startJob (env : ReconcileEnv) (hstored : Stored w.store job) :
    (startJob env w job).2.isOk = true ↔ Fresh w.store job ∧ startable env w job = true := by
  unfold startable
  cases startJob_cases env hstored with
  | stopped error hnot hstart =>
      rw [hstart]
      simp only [Except.isOk, Except.toBool, Bool.false_eq_true, false_iff]
      rintro ⟨hfresh, hstartable⟩
      simp only [Bool.and_eq_true] at hstartable
      exact hnot ⟨hfresh, hstartable.1⟩
  | live runtime hpasses hlive hstart =>
      obtain ⟨hfresh, hcleared, hhex⟩ := hpasses
      rw [hstart]
      simp [Except.isOk, Except.toBool, hfresh, hcleared, hhex, hlive]
  | launched record hpasses hlive _ _ _ hstart =>
      obtain ⟨hfresh, hcleared, hhex⟩ := hpasses
      rw [hstart, isOk_launchPair]
      simp [hfresh, hcleared, hhex, hlive]

theorem runtimes_startJob (env : ReconcileEnv) (hstored : Stored w.store job)
    {key : ManagedAgentRuntimeKey} (hkey : key ≠ job.key) :
    (startJob env w job).1.runtimes key = w.runtimes key := by
  cases startJob_cases env hstored with
  | stopped error _ hstart => rw [hstart]
  | live runtime _ _ hstart => rw [hstart]
  | launched record _ _ _ _ _ hstart =>
      rw [hstart]
      exact (launchPair_spec w record job.key (env.replies job)).1 key hkey

theorem stored_startJob (env : ReconcileEnv) (hstored : Stored w.store job)
    (hother : Stored w.store other) : Stored (startJob env w job).1.store other := by
  cases startJob_cases env hstored with
  | stopped error _ hstart => rwa [hstart]
  | live runtime _ _ hstart => rwa [hstart]
  | launched record _ _ _ _ hlocal hstart =>
      rw [hstart]
      obtain ⟨-, hspec⟩ := launchPair_spec w record job.key (env.replies job)
      cases hversion : (env.replies job).savedVersion with
      | none =>
          rw [hversion] at hspec
          rwa [hspec]
      | some version =>
          rw [hversion] at hspec
          obtain ⟨new, hput, -, hbackend, -⟩ := hspec
          rw [hput]
          exact hother.put (hbackend.trans hlocal)

/-- What a start leaves of the version of a record: all but the rewritten one. -/
theorem fresh_startJob (env : ReconcileEnv) (hstored : Stored w.store job)
    (hother : Stored w.store other)
    (hversion : job.record.pubkey = other.record.pubkey →
      job.record.updatedAt = other.record.updatedAt) :
    Fresh (startJob env w job).1.store other ↔ Fresh w.store other ∧
      (job.record.pubkey = other.record.pubkey → rewrites env w job = false) := by
  have hsame (hpubkey : job.record.pubkey = other.record.pubkey) :
      Fresh w.store job ↔ Fresh w.store other := by
    unfold Fresh
    rw [hpubkey, hversion hpubkey]
  unfold rewrites
  cases startJob_cases env hstored with
  | stopped error hnot hstart =>
      rw [hstart]
      refine ⟨fun hfresh => ⟨hfresh, fun hpubkey => Bool.eq_false_iff.mpr fun hrewrites => ?_⟩,
        And.left⟩
      simp only [Bool.and_eq_true] at hrewrites
      exact hnot ⟨(hsame hpubkey).mpr hfresh, hrewrites.1.1⟩
  | live runtime hpasses hlive hstart =>
      rw [hstart]
      simp [hlive]
  | launched record hpasses hlive hrecord hpubkey hlocal hstart =>
      obtain ⟨hfresh, hcleared, hhex⟩ := hpasses
      obtain ⟨-, hspec⟩ := launchPair_spec w record job.key (env.replies job)
      rw [hstart]
      cases hsaved : (env.replies job).savedVersion with
      | none =>
          rw [hsaved] at hspec
          rw [hspec]
          simp [hsaved]
      | some version =>
          rw [hsaved] at hspec
          obtain ⟨new, hput, hnew, -, hnewVersion⟩ := hspec
          rw [hput, fresh_put_iff hother, hnew, hpubkey, hnewVersion]
          by_cases heq : job.record.pubkey = other.record.pubkey
          · have hbefore := (hsame heq).mp hfresh
            rw [heq] at hhex
            simp [heq, hbefore, hcleared, hhex, hlive, hversion heq, hsaved]
          · simp [heq]

end OneStart

section AllStarts

variable {env : ReconcileEnv} {w w₀ : RuntimeWorld} {jobs : List ReconcileJob}
variable {job : ReconcileJob} {rest : List ReconcileJob}

def attemptedJobs (outcomes : List (ReconcileJob × PairOutcome)) : List ReconcileJob :=
  outcomes.filterMap fun (job, outcome) =>
    match outcome with
    | .probeFailed _ => none
    | _ => some job

def startedJobs (outcomes : List (ReconcileJob × PairOutcome)) : List ReconcileJob :=
  outcomes.filterMap fun (job, outcome) =>
    match outcome with
    | .started _ => some job
    | _ => none

/-- The outcomes of the head and of the rest. -/
theorem startJobs_cons (env : ReconcileEnv) (w : RuntimeWorld) (job : ReconcileJob)
    (rest : List ReconcileJob) :
    (eligible env job = false ∧ ∃ outcomes, (startJobs env w (job :: rest)).2 =
        outcomes ++ (startJobs env w rest).2 ∧ attemptedJobs outcomes = [] ∧
        startedJobs outcomes = []) ∨
      (eligible env job = true ∧ ∃ outcome, (startJobs env w (job :: rest)).2 =
        (job, outcome) :: (startJobs env (startJob env w job).1 rest).2 ∧
        attemptedJobs [(job, outcome)] = [job] ∧
        startedJobs [(job, outcome)] = if (startJob env w job).2.isOk then [job] else []) := by
  unfold eligible
  cases hprobe : env.probe job with
  | error error =>
      refine Or.inl ⟨rfl, [(job, .probeFailed error)], ?_, rfl, rfl⟩
      simp only [startJobs, hprobe]
      rfl
  | ok active =>
      cases active with
      | false =>
          refine Or.inl ⟨rfl, [], ?_, rfl, rfl⟩
          simp only [startJobs, hprobe]
          rfl
      | true =>
          refine Or.inr ⟨rfl, ?_⟩
          simp only [startJobs, hprobe]
          cases hresult : (startJob env w job).2 with
          | error error | ok status => exact ⟨_, rfl, rfl, rfl⟩

theorem attemptedJobs_append (a b : List (ReconcileJob × PairOutcome)) :
    attemptedJobs (a ++ b) = attemptedJobs a ++ attemptedJobs b :=
  List.filterMap_append ..

theorem startedJobs_append (a b : List (ReconcileJob × PairOutcome)) :
    startedJobs (a ++ b) = startedJobs a ++ startedJobs b :=
  List.filterMap_append ..

theorem attemptedJobs_startJobs (w : RuntimeWorld) (jobs : List ReconcileJob) :
    attemptedJobs (startJobs env w jobs).2 = jobs.filter (eligible env) := by
  induction jobs generalizing w with
  | nil => rfl
  | cons job rest ih =>
      rcases startJobs_cons env w job rest with
        ⟨hnot, outcomes, hrest, hnone, -⟩ | ⟨heligible, outcome, hrest, hone, -⟩
      · rw [hrest, attemptedJobs_append, hnone, ih, List.filter_cons_of_neg (by simp [hnot])]
        rfl
      · rw [hrest, ← List.singleton_append, attemptedJobs_append, hone, ih,
          List.filter_cons_of_pos heligible]
        rfl

/-- The jobs can be told apart, and what `w` says of them is what `w₀` says of them, up to the
versions of the records. -/
structure Agrees (w₀ w : RuntimeWorld) (jobs : List ReconcileJob) : Prop where
  keys : jobs.Pairwise fun a b => a.key ≠ b.key
  versions : ∀ a ∈ jobs, ∀ b ∈ jobs, a.record.pubkey = b.record.pubkey →
    a.record.updatedAt = b.record.updatedAt
  stored : ∀ job ∈ jobs, Stored w.store job
  runtimes : ∀ job ∈ jobs, w.runtimes job.key = w₀.runtimes job.key

/-- A later pair of the same record must not be startable when an earlier one rewrites it. -/
def Blocks (env : ReconcileEnv) (w : RuntimeWorld) (a b : ReconcileJob) : Prop :=
  a.record.pubkey = b.record.pubkey ∧ eligible env a = true ∧ rewrites env w a = true ∧
    eligible env b = true ∧ startable env w b = true

theorem startable_congr (env : ReconcileEnv) (h : w.runtimes job.key = w₀.runtimes job.key) :
    startable env w job = startable env w₀ job := by
  simp only [startable, liveRuntime, h]

theorem rewrites_congr (env : ReconcileEnv) (h : w.runtimes job.key = w₀.runtimes job.key) :
    rewrites env w job = rewrites env w₀ job := by
  simp only [rewrites, liveRuntime, h]

theorem Agrees.tail (h : Agrees w₀ w (job :: rest)) : Agrees w₀ w rest where
  keys := h.keys.of_cons
  versions := fun a ha b hb => h.versions a (List.mem_cons_of_mem _ ha) b
    (List.mem_cons_of_mem _ hb)
  stored := fun b hb => h.stored b (List.mem_cons_of_mem _ hb)
  runtimes := fun b hb => h.runtimes b (List.mem_cons_of_mem _ hb)

theorem Agrees.next (h : Agrees w₀ w (job :: rest)) : Agrees w₀ (startJob env w job).1 rest := by
  have hjob := h.stored job List.mem_cons_self
  refine ⟨h.tail.keys, h.tail.versions, ?_, ?_⟩
  · intro b hb
    exact stored_startJob env hjob (h.tail.stored b hb)
  · intro b hb
    have hkey : b.key ≠ job.key := ((List.pairwise_cons.mp h.keys).1 b hb).symm
    rw [runtimes_startJob env hjob hkey]
    exact h.tail.runtimes b hb

theorem Agrees.not_mem (h : Agrees w₀ w (job :: rest)) : job ∉ rest :=
  fun hmem => (List.pairwise_cons.mp h.keys).1 job hmem rfl

theorem startedJobs_subset (w : RuntimeWorld) (jobs : List ReconcileJob) :
    startedJobs (startJobs env w jobs).2 ⊆ jobs := by
  induction jobs generalizing w with
  | nil => exact List.Subset.refl _
  | cons job rest ih =>
      rcases startJobs_cons env w job rest with
        ⟨-, outcomes, hrest, -, hnone⟩ | ⟨-, outcome, hrest, -, hone⟩
      · rw [hrest, startedJobs_append, hnone]
        exact List.subset_cons_of_subset job (ih w)
      · rw [hrest, ← List.singleton_append, startedJobs_append, hone, List.append_subset]
        refine ⟨?_, List.subset_cons_of_subset job (ih _)⟩
        split_ifs
        · exact List.cons_subset_cons job (List.nil_subset rest)
        · exact List.nil_subset _

theorem ite_append_eq_iff {α : Type} {a : α} {xs ys : List α} {p q : Prop} [Decidable p]
    [Decidable q] (hxs : a ∉ xs) (hys : a ∉ ys) :
    (if p then [a] else []) ++ xs = (if q then [a] else []) ++ ys ↔ (p ↔ q) ∧ xs = ys := by
  by_cases hp : p
  · by_cases hq : q
    · simp [hp, hq]
    · simp only [hp, hq, if_true, if_false, List.nil_append, iff_false, not_true, false_and]
      intro heq
      exact hys (heq ▸ List.mem_cons_self)
  · by_cases hq : q
    · simp only [hp, hq, if_true, if_false, List.nil_append, iff_true, false_and, iff_false]
      intro heq
      exact hxs (heq ▸ List.mem_cons_self)
    · simp [hp, hq]

/-- What the head does to the versions of the rest. -/
theorem Agrees.fresh_next {job b : ReconcileJob} (h : Agrees w₀ w (job :: rest)) (hb : b ∈ rest) :
    Fresh (startJob env w job).1.store b ↔ Fresh w.store b ∧
      (job.record.pubkey = b.record.pubkey → rewrites env w₀ job = false) := by
  rw [← rewrites_congr env (h.runtimes job List.mem_cons_self)]
  refine fresh_startJob env (h.stored job List.mem_cons_self) (h.tail.stored b hb) ?_
  exact h.versions job List.mem_cons_self b (List.mem_cons_of_mem _ hb)

/-- The right pairs start exactly when no rewritten record is met again. The induction carries the
versions of the records that the rest of the jobs needs. -/
theorem startedJobs_eq_iff (h : Agrees w₀ w jobs) :
    startedJobs (startJobs env w jobs).2 =
        jobs.filter (fun job => eligible env job && startable env w₀ job) ↔
      (∀ job ∈ jobs, eligible env job = true → startable env w₀ job = true → Fresh w.store job) ∧
        jobs.Pairwise fun a b => ¬Blocks env w₀ a b := by
  induction jobs generalizing w with
  | nil => simp [startJobs, startedJobs]
  | cons job rest ih =>
      rw [List.pairwise_cons, List.forall_mem_cons]
      rcases startJobs_cons env w job rest with
        ⟨hnot, outcomes, hrest, -, hnone⟩ | ⟨heligible, outcome, hrest, -, hone⟩
      · have hfree : ∀ b ∈ rest, ¬Blocks env w₀ job b := by
          rintro b - ⟨-, hcontra, -⟩
          rw [hnot] at hcontra
          cases hcontra
        rw [hrest, startedJobs_append, hnone, List.nil_append,
          List.filter_cons_of_neg (by simp [hnot]), ih h.tail]
        constructor
        · rintro ⟨hfresh, hpairs⟩
          exact ⟨⟨fun hcontra => absurd hcontra (by simp [hnot]), hfresh⟩, hfree, hpairs⟩
        · rintro ⟨⟨-, hfresh⟩, -, hpairs⟩
          exact ⟨hfresh, hpairs⟩
      · have hok := isOk_startJob env (h.stored job List.mem_cons_self)
        rw [startable_congr env (h.runtimes job List.mem_cons_self)] at hok
        have hfilter : (job :: rest).filter (fun job => eligible env job && startable env w₀ job) =
            (if startable env w₀ job = true then [job] else []) ++
              rest.filter fun job => eligible env job && startable env w₀ job := by
          rw [List.filter_cons, heligible, Bool.true_and]
          split_ifs
          · rfl
          · rfl
        have hstarted : job ∉ startedJobs (startJobs env (startJob env w job).1 rest).2 :=
          fun hmem => h.not_mem (startedJobs_subset _ _ hmem)
        have hfiltered : job ∉ rest.filter fun job => eligible env job && startable env w₀ job :=
          fun hmem => h.not_mem (List.mem_of_mem_filter hmem)
        rw [hrest, ← List.singleton_append, startedJobs_append, hone, hfilter,
          ite_append_eq_iff hstarted hfiltered, hok, ih h.next]
        constructor
        · rintro ⟨hhead, hfresh, hpairs⟩
          refine ⟨⟨fun _ hstartable => (hhead.mpr hstartable).1, ?_⟩, ?_, hpairs⟩
          · intro b hb heligible' hstartable
            exact (h.fresh_next hb).mp (hfresh b hb heligible' hstartable) |>.1
          · rintro b hb ⟨hpubkey, -, hrewrites, heligible', hstartable⟩
            have hkept := (h.fresh_next hb).mp (hfresh b hb heligible' hstartable) |>.2
            rw [hkept hpubkey] at hrewrites
            cases hrewrites
        · rintro ⟨⟨hhead, hfresh⟩, hblocks, hpairs⟩
          refine ⟨⟨And.right, fun hstartable => ⟨hhead heligible hstartable, hstartable⟩⟩, ?_,
            hpairs⟩
          intro b hb heligible' hstartable
          refine (h.fresh_next hb).mpr ⟨hfresh b hb heligible' hstartable, fun hpubkey => ?_⟩
          refine Bool.eq_false_iff.mpr fun hrewrites => ?_
          exact hblocks b hb ⟨hpubkey, heligible, hrewrites, heligible', hstartable⟩

end AllStarts

section Plan

variable {env : ReconcileEnv} {w : RuntimeWorld} {jobs : List ReconcileJob}
  {communities groupIds : List String}

theorem nodup_normalizeReconcileGroupIds {seen : List String}
    (h : normalizeReconcileGroupIds seen communities = .ok groupIds) :
    groupIds.Nodup ∧ ∀ groupId ∈ groupIds, groupId ∉ seen := by
  induction communities generalizing seen groupIds with
  | nil =>
      obtain rfl := Except.ok.inj h
      simp
  | cons community rest ih =>
      simp only [normalizeReconcileGroupIds] at h
      split_ifs at h with hempty hseen
      · exact ih h
      · cases hrest : normalizeReconcileGroupIds (trim community :: seen) rest with
        | error e =>
            rw [hrest] at h
            cases h
        | ok more =>
            rw [hrest] at h
            obtain rfl := Except.ok.inj h
            obtain ⟨hnodup, hfresh⟩ := ih hrest
            refine ⟨List.nodup_cons.mpr ⟨fun hmem => hfresh _ hmem List.mem_cons_self, hnodup⟩, ?_⟩
            intro groupId hmem
            rcases List.mem_cons.mp hmem with rfl | hmem
            · exact hseen
            · exact fun hcontra => hfresh groupId hmem (List.mem_cons_of_mem _ hcontra)

theorem mem_reconcileJobs {records : List ManagedAgentRecord}
    {childIdentity : String → Option String} {job : ReconcileJob}
    (h : job ∈ reconcileJobs records groupIds childIdentity) :
    job.record ∈ records ∧ job.record.backend = .local := by
  obtain ⟨groupId, -, hmem⟩ := List.mem_flatMap.mp h
  obtain ⟨record, hrecord, hjob⟩ := List.mem_filterMap.mp hmem
  obtain ⟨child, -, rfl⟩ := Option.map_eq_some_iff.mp hjob
  obtain ⟨hrecord, hlaunch⟩ := List.mem_filter.mp hrecord
  simp only [Bool.and_eq_true, beq_iff_eq] at hlaunch
  exact ⟨hrecord, hlaunch.2⟩

/-- No pair is planned twice. -/
theorem pairwise_reconcileJobs (store : AgentStore) (childIdentity : String → Option String)
    (hgroups : groupIds.Nodup) :
    (reconcileJobs store.records groupIds childIdentity).Pairwise fun a b => a.key ≠ b.key := by
  have hrecords : store.records.Pairwise fun a b =>
      toAsciiLowercase a.pubkey ≠ toAsciiLowercase b.pubkey := List.pairwise_map.mp store.nodup
  unfold reconcileJobs
  rw [List.pairwise_flatMap]
  constructor
  · intro groupId _
    rw [List.pairwise_filterMap]
    refine (hrecords.filter _).imp ?_
    intro a b hne job hjob job' hjob' heq
    obtain ⟨_, -, rfl⟩ := Option.map_eq_some_iff.mp hjob
    obtain ⟨_, -, rfl⟩ := Option.map_eq_some_iff.mp hjob'
    exact hne (congrArg ManagedAgentRuntimeKey.pubkey heq)
  · refine hgroups.imp ?_
    intro a b hne job hjob job' hjob' heq
    obtain ⟨_, -, hjob⟩ := List.mem_filterMap.mp hjob
    obtain ⟨_, -, hjob'⟩ := List.mem_filterMap.mp hjob'
    obtain ⟨_, -, rfl⟩ := Option.map_eq_some_iff.mp hjob
    obtain ⟨_, -, rfl⟩ := Option.map_eq_some_iff.mp hjob'
    exact hne (congrArg ManagedAgentRuntimeKey.groupId heq)

theorem reconcilePlan_cases (h : reconcilePlan env w communities = .ok jobs) :
    jobs = [] ∨ ∃ groupIds, normalizeReconcileGroupIds [] communities = .ok groupIds ∧
      jobs = env.complete (reconcileJobs w.store.records groupIds env.childIdentity) := by
  unfold reconcilePlan at h
  split_ifs at h
  · exact Or.inl (Except.ok.inj h).symm
  · cases hgroups : normalizeReconcileGroupIds [] communities with
    | error e =>
        rw [hgroups] at h
        cases h
    | ok groupIds =>
        rw [hgroups] at h
        cases hload : env.load with
        | error e =>
            rw [hload] at h
            cases h
        | ok =>
            rw [hload] at h
            exact Or.inr ⟨groupIds, rfl, (Except.ok.inj h).symm⟩

theorem fresh_of_mem {job : ReconcileJob} (h : job.record ∈ w.store.records) : Fresh w.store job :=
  ⟨job.record, h, rfl, rfl⟩

theorem agrees_of_plan (h : reconcilePlan env w communities = .ok jobs) :
    Agrees w w jobs ∧ ∀ job ∈ jobs, Fresh w.store job := by
  rcases reconcilePlan_cases h with rfl | ⟨groupIds, hgroups, rfl⟩
  · exact ⟨⟨.nil, by simp, by simp, by simp⟩, by simp⟩
  · have hperm := env.complete_perm (reconcileJobs w.store.records groupIds env.childIdentity)
    have hmem {job : ReconcileJob}
        (hjob : job ∈ env.complete (reconcileJobs w.store.records groupIds env.childIdentity)) :
        job.record ∈ w.store.records ∧ job.record.backend = .local :=
      mem_reconcileJobs (hperm.mem_iff.mp hjob)
    have hkeys := pairwise_reconcileJobs w.store env.childIdentity
      (nodup_normalizeReconcileGroupIds hgroups).1
    refine ⟨⟨?_, ?_, ?_, fun _ _ => rfl⟩, fun job hjob => fresh_of_mem (hmem hjob).1⟩
    · exact (hperm.pairwise_iff fun hne => hne.symm).mpr hkeys
    · intro a ha b hb hpubkey
      rw [w.store.eq_of_mem (hmem hb).1 (hmem ha).1 (congrArg _ hpubkey)]
    · intro job hjob
      exact ⟨job.record, (hmem hjob).1, rfl, (hmem hjob).2⟩

end Plan

section Independence

variable (env : ReconcileEnv) (w : RuntimeWorld) (communities : List String)

/-- Every eligible pair is attempted, and the pairs that start are those whose own start succeeds
when it is the only one. -/
def PairsIndependent : Prop :=
  ∀ jobs, reconcilePlan env w communities = .ok jobs →
    attemptedJobs (startJobs env w jobs).2 = jobs.filter (eligible env) ∧
    startedJobs (startJobs env w jobs).2 =
      jobs.filter fun job => eligible env job && (startJob env w job).2.isOk

variable {env w communities}

/-- The pairs that start among the planned ones are the right ones. -/
theorem startedJobs_plan_iff {jobs : List ReconcileJob}
    (hplan : reconcilePlan env w communities = .ok jobs) :
    startedJobs (startJobs env w jobs).2 =
        jobs.filter (fun job => eligible env job && (startJob env w job).2.isOk) ↔
      jobs.Pairwise fun a b => ¬Blocks env w a b := by
  obtain ⟨hagrees, hfresh⟩ := agrees_of_plan hplan
  have halone : jobs.filter (fun job => eligible env job && (startJob env w job).2.isOk) =
      jobs.filter fun job => eligible env job && startable env w job := by
    refine List.filter_congr fun job hjob => ?_
    have hok := isOk_startJob env (hagrees.stored job hjob)
    rw [and_iff_right (hfresh job hjob)] at hok
    rw [Bool.eq_iff_iff.mpr hok]
  rw [halone, startedJobs_eq_iff hagrees]
  exact and_iff_right fun job hjob _ _ => hfresh job hjob

variable (env w communities)

/-- The pairs are independent exactly when no pair that could start comes after one that launches a
harness and rewrites their common record. -/
theorem pairsIndependent_iff : PairsIndependent env w communities ↔
    ∀ jobs, reconcilePlan env w communities = .ok jobs → jobs.Pairwise fun a b =>
      ¬Blocks env w a b := by
  refine forall_congr' fun jobs => forall_congr' fun hplan => ?_
  rw [startedJobs_plan_iff hplan]
  exact and_iff_right (attemptedJobs_startJobs w jobs)

end Independence

section TwoGroups

/-- One agent that starts with the application. -/
def oneAgent : RuntimeWorld where
  store :=
    { records := [⟨repeatText 'a' 64, "agent-a", .local, true, .ownerOnly, [],
        "2026-01-01T00:00:00+00:00", none, none, none, none, none, none⟩]
      nodup := List.nodup_singleton _ }
  runtimes := fun _ => none

/-- The agent is an active member everywhere and every start goes well. -/
def allWell : ReconcileEnv where
  autoRestoreAllowed := true
  load := .ok ()
  childIdentity := fun _ => some "child"
  probe := fun _ => .ok true
  complete := id
  complete_perm := fun _ => .refl _
  replies := fun _ =>
    { load := .ok ()
      prepare := .ok ()
      shutdownStarted := false
      reload := .ok ()
      exited := false
      terminateUntracked := .ok ()
      spawn := .ok ()
      now := "2026-01-02T00:00:00+00:00"
      stabilize := .ok .listening
      writeReceipt := .ok ()
      save := .ok () }

/-- The agent starts in its first group and is refused in the second. -/
theorem pairs_dependent : ¬PairsIndependent allWell oneAgent ["g1", "g2"] := by
  intro hindependent
  have hplan : reconcilePlan allWell oneAgent ["g1", "g2"] = .ok _ := rfl
  have hpairs := (startedJobs_plan_iff hplan).mp (hindependent _ hplan).2
  have hhex : isHexText 64 (repeatText 'a' 64) = true := isHexText_repeatText 'a' 63
  refine (List.pairwise_cons.mp hpairs).1 _ List.mem_cons_self ⟨rfl, rfl, ?_, rfl, ?_⟩
  · simp [rewrites, allWell, StartReplies.cleared, hhex, liveRuntime, oneAgent,
      StartReplies.savedVersion, Except.isOk, Except.toBool]
  · simp [startable, allWell, StartReplies.cleared, hhex, StartReplies.launches, Except.isOk,
      Except.toBool]

end TwoGroups
end Buzz.ManagedAgents
