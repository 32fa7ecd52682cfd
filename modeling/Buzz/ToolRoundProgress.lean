import Buzz.ToolRoundEnds

/-!
# A round of tool calls finishes

A round that is not finished can go on without another cancel, and every event uses
up a part of what is left to do. So every call that was announced gets its terminal
update and its result.
-/

namespace Buzz

section Progress

variable {limit : ℕ} {calls : List ToolCall} {r s : ToolRound} {idx : ℕ} {call : ToolCall}

/-- A task that has not been joined goes on, or another one holds the permit it waits for. -/
theorem exists_taskStep (limit : ℕ) (hlt : ∀ i ∈ r.ex.runnable, i < r.ex.calls.length)
    (hpool : r.phase = .joining ∧ r.cancelled = false ∨ r.phase = .draining)
    (hmem : idx ∈ r.ex.runnable) (hidle : r.tasks idx ≠ .idle) (hjoined : r.tasks idx ≠ .joined)
    (hnone : ∀ outcome, r.tasks idx = .ended outcome → r.result idx = none) :
    ∃ event, event ≠ .cancel ∧ (r.step limit event).isSome = true := by
  have hcall {i : ℕ} (hi : i ∈ r.ex.runnable) : ∃ call, r.ex.calls[i]? = some call :=
    ⟨_, List.getElem?_eq_getElem (hlt i hi)⟩
  have hadmitted {i : ℕ} (hi : i ∈ r.ex.runnable) (htask : r.tasks i = .admitted) :
      ∃ event, event ≠ .cancel ∧ (r.step limit event).isSome = true := by
    obtain ⟨call, hcall⟩ := hcall hi
    refine ⟨.start i, RoundEvent.noConfusion, ?_⟩
    simp only [ToolRound.step, ToolRound.taskStep, htask, if_true, hcall, Option.map_some,
      Option.isSome_some]
  have hrunning {i : ℕ} (hi : i ∈ r.ex.runnable) (htask : r.tasks i = .running) :
      ∃ event, event ≠ .cancel ∧ (r.step limit event).isSome = true := by
    obtain ⟨call, hcall⟩ := hcall hi
    refine ⟨.finish i (.failed "cancelled"), RoundEvent.noConfusion, ?_⟩
    simp only [ToolRound.step, ToolRound.taskStep, htask, if_true, hcall, Option.map_some,
      Option.isSome_some]
  obtain ⟨call, hcall'⟩ := hcall hmem
  cases htask : r.tasks idx with
  | idle => exact absurd htask hidle
  | joined => exact absurd htask hjoined
  | admitted => exact hadmitted hmem htask
  | running => exact hrunning hmem htask
  | ended outcome =>
      refine ⟨.join idx, RoundEvent.noConfusion, ?_⟩
      simp only [ToolRound.step, ToolRound.join, if_pos hpool, hcall', Option.bind_some,
        ToolRound.storeJoined, htask, hnone outcome htask, Option.isSome_none, Bool.false_eq_true,
        and_false, if_false, Option.isSome_some]
  | crashed =>
      refine ⟨.join idx, RoundEvent.noConfusion, ?_⟩
      simp only [ToolRound.step, ToolRound.join, if_pos hpool, hcall', Option.bind_some,
        ToolRound.storeJoined, htask, Option.isSome_some]
  | queued =>
      cases hclosed : r.semaphoreClosed with
      | true =>
          refine ⟨.refuse idx, RoundEvent.noConfusion, ?_⟩
          simp only [ToolRound.step, hclosed, if_true, ToolRound.taskStep, htask, hcall',
            Option.map_some, Option.isSome_some]
      | false =>
          by_cases hpermit : r.inFlight < max limit 1
          · refine ⟨.permit idx, RoundEvent.noConfusion, ?_⟩
            simp only [ToolRound.step, hclosed, hpermit, and_self, if_true,
              ToolRound.taskStep, htask, hcall', Option.map_some, Option.isSome_some]
          · have hpos : 0 < r.inFlight := by omega
            obtain ⟨i, hi, hholds⟩ := List.countP_pos_iff.mp hpos
            rcases of_decide_eq_true hholds with htask' | htask'
            · exact hadmitted hi htask'
            · exact hrunning hi htask'

/-- While the set has a task that was not joined, some task goes on. -/
theorem exists_poolStep (h : RoundInv calls r) (limit : ℕ)
    (hpool : r.phase = .joining ∧ r.cancelled = false ∨ r.phase = .draining)
    (hnot : ¬r.allJoined = true) :
    ∃ event, event ≠ .cancel ∧ (r.step limit event).isSome = true := by
  have hlt (i : ℕ) (hi : i ∈ r.ex.runnable) : i < r.ex.calls.length := by
    rw [h.calls_eq]
    exact h.runnable_lt i hi
  obtain ⟨idx, hmem, hjoined⟩ : ∃ idx ∈ r.ex.runnable, r.tasks idx ≠ .joined := by
    simpa [ToolRound.allJoined] using hnot
  have hcall : r.ex.calls[idx]? = some _ := List.getElem?_eq_getElem (hlt idx hmem)
  obtain ⟨stage, hview, hallows⟩ := h.stage idx _ (h.lt_length hcall).1
  obtain ⟨hresult, htask, -, -⟩ := view_parts hview
  rcases pooled_of_joining (hpool.imp And.left id) hallows with ⟨-, hspawned⟩ | ⟨hout, -⟩
  · refine exists_taskStep limit hlt hpool hmem ?_ hjoined ?_
    · rw [htask]
      cases stage with
      | active task => exact hspawned.1
      | ended outcome => exact TaskState.noConfusion
      | settled outcome task =>
          obtain rfl : task = .joined := hspawned
          exact TaskState.noConfusion
      | unannounced | skipped => cases hspawned
    · intro outcome hended
      rw [htask] at hended
      rw [hresult]
      cases stage with
      | settled outcome task =>
          obtain rfl : task = .joined := hspawned
          cases hended
      | skipped => cases hspawned
      | _ => rfl
  · exact absurd hmem hout

/-- A round that is not finished goes on without a further cancel. -/
theorem exists_step (h : RoundInv calls r) (limit : ℕ) (hphase : r.phase ≠ .finished) :
    ∃ event, event ≠ .cancel ∧ (r.step limit event).isSome = true := by
  have hgo (hsome : r.go.isSome = true) :
      ∃ event, event ≠ .cancel ∧ (r.step limit event).isSome = true :=
    ⟨.go, RoundEvent.noConfusion, hsome⟩
  have hbounded := h.bounded
  have hlt {i : ℕ} (hi : i < calls.length) : ∃ call, r.ex.calls[i]? = some call := by
    rw [h.calls_eq]
    exact ⟨_, List.getElem?_eq_getElem hi⟩
  cases hp : r.phase with
  | finished => exact absurd hp hphase
  | preflight idx =>
      refine hgo ?_
      unfold ToolRound.go
      rw [hp]
      simp only
      split
      · rfl
      · split_ifs <;> rfl
  | announced idx =>
      rw [hp] at hbounded
      obtain ⟨call, hcall⟩ := hlt hbounded
      by_cases hskill : call.name = loadSkillTool
      · refine hgo ?_
        simp only [ToolRound.go, hp, hcall, Option.bind_some, if_pos hskill, Option.isSome_some]
      · refine ⟨.registry true, RoundEvent.noConfusion, ?_⟩
        simp only [ToolRound.step, ToolRound.registry, hp, hcall, Option.bind_some, if_neg hskill,
          if_true, Option.isSome_some]
  | loadingSkill idx =>
      rw [hp] at hbounded
      obtain ⟨call, hcall⟩ := hlt hbounded
      refine ⟨.skill [] false, RoundEvent.noConfusion, ?_⟩
      simp only [ToolRound.step, ToolRound.skill, hp, hcall, Option.map_some, Option.isSome_some]
  | abandoning idx filled =>
      refine hgo ?_
      unfold ToolRound.go
      rw [hp]
      simp only
      split <;> rfl
  | spawning remaining =>
      refine hgo ?_
      cases remaining with
      | nil =>
          simp only [ToolRound.go, hp]
          split_ifs <;> rfl
      | cons idx rest => simp only [ToolRound.go, hp, Option.isSome_some]
  | joining =>
      cases hcancelled : r.cancelled with
      | true =>
          refine hgo ?_
          simp only [ToolRound.go, hp, hcancelled, if_true, Option.isSome_some]
      | false =>
          by_cases hjoined : r.allJoined = true
          · refine hgo ?_
            simp only [ToolRound.go, hp, hcancelled, Bool.false_eq_true, if_false, hjoined, if_true,
              Option.isSome_some]
          · exact exists_poolStep h limit (Or.inl ⟨hp, hcancelled⟩) hjoined
  | draining =>
      by_cases hjoined : r.allJoined = true
      · refine hgo ?_
        simp only [ToolRound.go, hp, hjoined, if_true, Option.isSome_some]
      · exact exists_poolStep h limit (Or.inr hp) hjoined
  | filling remaining =>
      refine hgo ?_
      cases remaining with
      | nil => simp only [ToolRound.go, hp, Option.isSome_some]
      | cons idx rest =>
          rw [hp] at hbounded
          obtain ⟨call, hcall⟩ := hlt (h.runnable_lt idx (hbounded idx List.mem_cons_self))
          simp only [ToolRound.go, hp, hcall, Option.map_some, Option.isSome_some]

end Progress

section Work

variable {limit : ℕ} {calls : List ToolCall} {r s : ToolRound} {idx : ℕ} {call : ToolCall}

namespace TaskState

/-- The events that the task still has before it. -/
def work : TaskState → ℕ
  | idle => 5
  | queued => 4
  | admitted => 3
  | running => 2
  | ended _ => 1
  | crashed => 1
  | joined => 0

end TaskState

/-- The steps that the executing task still has before it, for so many calls and tasks. -/
def RoundPhase.work (count spawned : ℕ) : RoundPhase → ℕ
  | preflight idx => 10 * (count - idx) + 2 * spawned + count + 5
  | announced idx => 10 * (count - idx) + 2 * spawned + count + 4
  | loadingSkill idx => 10 * (count - idx) + 2 * spawned + count + 3
  | abandoning _ filled => count - filled + 1
  | spawning remaining => remaining.length + spawned + 4
  | joining => spawned + 3
  | draining => spawned + 2
  | filling remaining => remaining.length + 1
  | finished => 0

namespace ToolRound

def taskWork (r : ToolRound) : ℕ :=
  (r.ex.runnable.map fun i => (r.tasks i).work).sum

def work (r : ToolRound) : ℕ :=
  r.phase.work r.ex.calls.length r.ex.runnable.length + r.taskWork + if r.cancelled then 0 else 1

end ToolRound

/-- A step that only moves the executing task on. -/
theorem work_of_phase (hcalls : s.ex.calls = r.ex.calls) (hrunnable : s.ex.runnable = r.ex.runnable)
    (htasks : s.tasks = r.tasks) (hcancelled : s.cancelled = r.cancelled)
    (hphase : s.phase.work r.ex.calls.length r.ex.runnable.length <
      r.phase.work r.ex.calls.length r.ex.runnable.length) : s.work < r.work := by
  unfold ToolRound.work ToolRound.taskWork
  rw [hcalls, hrunnable, htasks, hcancelled]
  omega

/-- A step of one task, while the executing task does not move back. -/
theorem work_of_task {state : TaskState} (hcalls : s.ex.calls = r.ex.calls)
    (hrunnable : s.ex.runnable = r.ex.runnable)
    (htasks : s.tasks = Function.update r.tasks idx state)
    (hcancelled : s.cancelled = r.cancelled)
    (hphase : s.phase.work r.ex.calls.length r.ex.runnable.length ≤
      r.phase.work r.ex.calls.length r.ex.runnable.length)
    (hmem : idx ∈ r.ex.runnable) (hless : state.work < (r.tasks idx).work) : s.work < r.work := by
  have hsum : (r.ex.runnable.map fun i => (Function.update r.tasks idx state i).work).sum <
      (r.ex.runnable.map fun i => (r.tasks i).work).sum := by
    refine List.sum_lt_sum _ _ ?_ ⟨idx, hmem, ?_⟩
    · intro i _
      by_cases hi : i = idx
      · subst hi
        rw [Function.update_self]
        omega
      · rw [Function.update_of_ne hi]
    · rw [Function.update_self]
      exact hless
  unfold ToolRound.work ToolRound.taskWork
  rw [hcalls, hrunnable, htasks, hcancelled]
  omega

theorem work_go (h : RoundInv calls r) (hgo : r.go = some s) : s.work < r.work := by
  have hbounded := h.bounded
  unfold ToolRound.go at hgo
  split at hgo
  · rename_i idx hphase
    split at hgo
    · obtain rfl := Option.some_inj.mp hgo
      refine work_of_phase rfl rfl rfl rfl ?_
      rw [hphase]
      simp only [ToolRound.toPhase, RoundPhase.work]
      omega
    · rename_i call hcall
      obtain ⟨hlt, -⟩ := List.getElem?_eq_some_iff.mp hcall
      split_ifs at hgo
      · obtain rfl := Option.some_inj.mp hgo
        refine work_of_phase rfl rfl rfl rfl ?_
        rw [hphase]
        simp only [ToolRound.toPhase, RoundPhase.work]
        omega
      · obtain rfl := Option.some_inj.mp hgo
        refine work_of_phase rfl rfl rfl rfl ?_
        rw [hphase]
        simp only [ToolRound.toPhase, RoundPhase.work]
        omega
  · rename_i idx hphase
    obtain ⟨call, -, hskill⟩ := Option.bind_eq_some_iff.mp hgo
    split_ifs at hskill
    obtain rfl := Option.some_inj.mp hskill
    refine work_of_phase rfl rfl rfl rfl ?_
    rw [hphase]
    simp only [ToolRound.toPhase, RoundPhase.work]
    omega
  · cases hgo
  · rename_i idx filled hphase
    split at hgo
    · obtain rfl := Option.some_inj.mp hgo
      refine work_of_phase rfl rfl rfl rfl ?_
      rw [hphase]
      simp only [ToolRound.appendResults, RoundPhase.work]
      omega
    · rename_i call hcall
      obtain ⟨hlt, -⟩ := List.getElem?_eq_some_iff.mp hcall
      obtain rfl := Option.some_inj.mp hgo
      have hnext : (RoundPhase.abandoning idx (filled + 1)).work r.ex.calls.length
        r.ex.runnable.length <
          r.phase.work r.ex.calls.length r.ex.runnable.length := by
        rw [hphase]
        simp only [RoundPhase.work]
        omega
      unfold ToolRound.abandon
      simp only
      split_ifs
      · exact work_of_phase rfl rfl rfl rfl hnext
      · exact work_of_phase rfl rfl rfl rfl hnext
      · exact work_of_phase rfl rfl rfl rfl hnext
  · rename_i idx rest hphase
    obtain rfl := Option.some_inj.mp hgo
    rw [hphase] at hbounded
    have hmem := hbounded.2 idx List.mem_cons_self
    have hidle : r.tasks idx = .idle := by
      have hcall := List.getElem?_eq_getElem (h.runnable_lt idx hmem)
      obtain ⟨stage, hview, hallows⟩ := h.stage idx _ hcall
      rw [hphase] at hallows
      rcases hallows with ⟨-, rfl⟩ | ⟨hout, -⟩
      · exact (view_parts hview).2.1
      · exact absurd List.mem_cons_self hout
    refine work_of_task rfl rfl rfl rfl ?_ hmem ?_
    · rw [hphase]
      simp only [ToolRound.toPhase, RoundPhase.work, List.length_cons]
      omega
    · rw [hidle]
      decide
  · rename_i hphase
    split_ifs at hgo
    · obtain rfl := Option.some_inj.mp hgo
      refine work_of_phase rfl rfl rfl rfl ?_
      rw [hphase]
      simp only [RoundPhase.work, List.length_nil]
      omega
    · obtain rfl := Option.some_inj.mp hgo
      refine work_of_phase rfl rfl rfl rfl ?_
      rw [hphase]
      simp only [ToolRound.toPhase, RoundPhase.work, List.length_nil]
      omega
  · rename_i hphase
    split_ifs at hgo
    · obtain rfl := Option.some_inj.mp hgo
      refine work_of_phase rfl rfl rfl rfl ?_
      rw [hphase]
      simp only [RoundPhase.work]
      omega
    · obtain rfl := Option.some_inj.mp hgo
      refine work_of_phase rfl rfl rfl rfl ?_
      rw [hphase]
      simp only [ToolRound.toPhase, RoundPhase.work]
      omega
  · rename_i hphase
    split_ifs at hgo
    obtain rfl := Option.some_inj.mp hgo
    refine work_of_phase rfl rfl rfl rfl ?_
    rw [hphase]
    simp only [ToolRound.toPhase, RoundPhase.work]
    omega
  · rename_i idx rest hphase
    obtain ⟨call, -, rfl⟩ := Option.map_eq_some_iff.mp hgo
    have hnext : (RoundPhase.filling rest).work r.ex.calls.length r.ex.runnable.length <
        r.phase.work r.ex.calls.length r.ex.runnable.length := by
      rw [hphase]
      simp only [RoundPhase.work, List.length_cons]
      omega
    unfold ToolRound.fill
    split_ifs
    · exact work_of_phase rfl rfl rfl rfl hnext
    · exact work_of_phase rfl rfl rfl rfl hnext
  · rename_i hphase
    obtain rfl := Option.some_inj.mp hgo
    refine work_of_phase rfl rfl rfl rfl ?_
    rw [hphase]
    simp only [ToolRound.appendResults, RoundPhase.work]
    omega
  · cases hgo

theorem work_registry (h : RoundInv calls r) {known : Bool} (hstep : r.registry known = some s) :
    s.work < r.work := by
  unfold ToolRound.registry at hstep
  split at hstep
  · rename_i idx hphase
    obtain ⟨call, hcall, hknown⟩ := Option.bind_eq_some_iff.mp hstep
    obtain ⟨hlt, -⟩ := List.getElem?_eq_some_iff.mp hcall
    split_ifs at hknown
    · obtain rfl := Option.some_inj.mp hknown
      have hidle : r.tasks idx = .idle := by
        obtain ⟨stage, hview, hallows⟩ := h.stage idx call (h.lt_length hcall).1
        rw [hphase] at hallows
        rcases hallows with ⟨hlt', -⟩ | ⟨-, -, rfl⟩ | ⟨hlt', -⟩
        · omega
        · exact (view_parts hview).2.1
        · omega
      simp only [ToolRound.work, ToolRound.taskWork, RoundPhase.work, hphase, List.map_append,
        List.map_singleton, List.sum_append, List.sum_singleton, hidle, TaskState.work,
        List.length_append, List.length_singleton]
      omega
    · obtain rfl := Option.some_inj.mp hknown
      refine work_of_phase rfl rfl rfl rfl ?_
      rw [hphase]
      simp only [ToolRound.toPhase, RoundPhase.work]
      omega
  · cases hstep

theorem work_skill {content : List ToolResultContent} {isError : Bool}
    (hstep : r.skill content isError = some s) : s.work < r.work := by
  unfold ToolRound.skill at hstep
  split at hstep
  · rename_i idx hphase
    obtain ⟨call, hcall, rfl⟩ := Option.map_eq_some_iff.mp hstep
    obtain ⟨hlt, -⟩ := List.getElem?_eq_some_iff.mp hcall
    refine work_of_phase rfl rfl rfl rfl ?_
    rw [hphase]
    simp only [ToolRound.toPhase, RoundPhase.work]
    omega
  · cases hstep

theorem mem_runnable_of_task (h : RoundInv calls r) (hcall : r.ex.calls[idx]? = some call)
    (hidle : r.tasks idx ≠ .idle) (hjoined : r.tasks idx ≠ .joined) : idx ∈ r.ex.runnable := by
  obtain ⟨stage, hview, hallows⟩ := h.stage idx call (h.lt_length hcall).1
  have hbusy := busy_of_task hview hallows hidle hjoined
  have hended : (CallStage.ended (.failed "")).Spawned := trivial
  exact (allows_of_busy hallows hbusy hended).2.1

theorem work_taskStep (h : RoundInv calls r) {state next : TaskState} {after : ToolCall → ToolRound}
    (hstep : r.taskStep idx state after = some s) (hidle : state ≠ .idle)
    (hjoined : state ≠ .joined)
    (hafter : ∀ call, (after call).ex = r.ex ∧ (after call).phase = r.phase ∧
      (after call).tasks = Function.update r.tasks idx next ∧ (after call).cancelled = r.cancelled)
    (hless : next.work < state.work) : s.work < r.work := by
  obtain ⟨rfl, call, hcall, rfl⟩ := taskStep_cases hstep
  obtain ⟨hex, hphase, htasks, hcancelled⟩ := hafter call
  refine work_of_task (by rw [hex]) (by rw [hex]) htasks hcancelled (by rw [hphase]) ?_ hless
  exact mem_runnable_of_task h hcall hidle hjoined

theorem work_join (h : RoundInv calls r) (hstep : r.join idx = some s) : s.work < r.work := by
  unfold ToolRound.join at hstep
  split_ifs at hstep
  obtain ⟨call, hcall, hstore⟩ := Option.bind_eq_some_iff.mp hstep
  have hmem (hidle : r.tasks idx ≠ .idle) (hjoined : r.tasks idx ≠ .joined) : idx ∈ r.ex.runnable :=
    mem_runnable_of_task h hcall hidle hjoined
  unfold ToolRound.storeJoined at hstore
  split at hstore
  · rename_i outcome htask
    have hless : TaskState.joined.work < (r.tasks idx).work := by
      rw [htask]
      exact Nat.one_pos
    have hrunnable := hmem (by simp [htask]) (by simp [htask])
    split_ifs at hstore
    · obtain rfl := Option.some_inj.mp hstore
      exact work_of_task rfl rfl rfl rfl (Nat.le_refl _) hrunnable hless
    · obtain rfl := Option.some_inj.mp hstore
      exact work_of_task rfl rfl rfl rfl (Nat.le_refl _) hrunnable hless
  · rename_i htask
    obtain rfl := Option.some_inj.mp hstore
    have hless : TaskState.joined.work < (r.tasks idx).work := by
      rw [htask]
      exact Nat.one_pos
    exact work_of_task rfl rfl rfl rfl (Nat.le_refl _)
      (hmem (by simp [htask]) (by simp [htask])) hless
  · cases hstore

/-- Every event uses up some of the work. -/
theorem work_step {event : RoundEvent} (h : RoundInv calls r)
    (hstep : r.step limit event = some s) : s.work < r.work := by
  cases event with
  | cancel =>
      simp only [ToolRound.step] at hstep
      split_ifs at hstep with hcancelled
      obtain rfl := Option.some_inj.mp hstep
      simp only [ToolRound.work, ToolRound.taskWork, if_true, if_neg hcancelled]
      omega
  | go => exact work_go h hstep
  | registry known => exact work_registry h hstep
  | skill content isError => exact work_skill hstep
  | permit idx | refuse idx =>
      simp only [ToolRound.step] at hstep
      split_ifs at hstep
      exact work_taskStep h hstep TaskState.noConfusion TaskState.noConfusion
        (fun _ => ⟨rfl, rfl, rfl, rfl⟩) (by decide)
  | start idx =>
      exact work_taskStep h hstep TaskState.noConfusion TaskState.noConfusion
        (fun _ => ⟨rfl, rfl, rfl, rfl⟩) (by decide)
  | finish idx outcome =>
      exact work_taskStep h hstep TaskState.noConfusion TaskState.noConfusion
        (fun _ => ⟨rfl, rfl, rfl, rfl⟩) (Nat.lt_succ_self 1)
  | crash idx =>
      exact work_taskStep h hstep TaskState.noConfusion TaskState.noConfusion
        (fun _ => ⟨rfl, rfl, rfl, rfl⟩) (by decide)
  | join idx => exact work_join h hstep

/-- No run of events is longer than the work that it starts with. -/
theorem length_le_work {events : List RoundEvent} (h : RoundInv calls r)
    (hsteps : r.steps limit events = some s) : events.length ≤ r.work := by
  induction events generalizing r with
  | nil => exact Nat.zero_le _
  | cons event rest ih =>
      obtain ⟨mid, hmid, hrest⟩ := Option.bind_eq_some_iff.mp hsteps
      have hless := work_step h hmid
      have hle := ih (h.step hmid) hrest
      simp only [List.length_cons]
      omega

end Work

section Ends

variable {limit : ℕ} {calls : List ToolCall} {r s : ToolRound} {i : ℕ} {call : ToolCall}

theorem InRound.steps {events : List RoundEvent} (hround : InRound limit calls r)
    (h : r.steps limit events = some s) : InRound limit calls s := by
  induction events generalizing r with
  | nil =>
      obtain rfl := Option.some_inj.mp h
      exact hround
  | cons event rest ih =>
      obtain ⟨mid, hmid, hrest⟩ := Option.bind_eq_some_iff.mp h
      exact ih (hround.step hmid) hrest

/-- The announced call has had one terminal update, and the history gets what that update reported,
with the reflection prompt behind an error. -/
def ToolRound.EndedOnce (r : ToolRound) (i : ℕ) (call : ToolCall) : Prop :=
  ∃ outcome, r.ends i = [terminalStatus call outcome] ∧
    r.appended[i]? = some (.toolResult (appendedResult call (some (outcomeToResult call outcome))))

theorem endedOnce_of_finished (h : RoundInv calls r) (hfinished : r.phase = .finished)
    (hcall : calls[i]? = some call) (hannounced : r.announcedAt i = true) : r.EndedOnce i call := by
  obtain ⟨stage, hview, hallows⟩ := h.stage i call hcall
  obtain ⟨hresult, -, hannounced', hends⟩ := view_parts hview
  rw [hfinished] at hallows
  have hstored : ∃ outcome task, stage = .settled outcome task := by
    rcases hallows with (⟨outcome, hstage⟩ | ⟨outcome, hstage⟩) | rfl
    · exact ⟨outcome, _, hstage⟩
    · exact ⟨outcome, _, hstage⟩
    · rw [hannounced'] at hannounced
      cases hannounced
  obtain ⟨outcome, task, rfl⟩ := hstored
  refine ⟨outcome, hends, ?_⟩
  obtain ⟨hlt, -⟩ := List.getElem?_eq_some_iff.mp hcall
  rw [← h.length] at hlt
  have hslot : r.ex.results[i]? = some (some (outcomeToResult call outcome)) := by
    have hget := List.getElem?_eq_getElem hlt
    have hfound : (r.ex.results[i]?).getD none = some (outcomeToResult call outcome) := hresult
    rw [hget] at hfound ⊢
    exact congrArg some hfound
  rw [h.appended hfinished, Execution.appendResults, List.getElem?_map, List.getElem?_zipWith,
    h.calls_eq, hcall, hslot]
  rfl

/-- Every announced call ends once. A round that has not finished can go on without another cancel,
and no run of it is longer than the work before it, so that it does finish. -/
theorem announced_call_ends_once (hround : InRound limit calls r) :
    (r.phase = .finished → ∀ i call, calls[i]? = some call → r.announcedAt i = true →
      r.EndedOnce i call) ∧
    (r.phase ≠ .finished → ∃ event, event ≠ .cancel ∧ (r.step limit event).isSome = true) ∧
    (∀ events s, r.steps limit events = some s → events.length ≤ r.work) := by
  have hinv := hround.inv
  refine ⟨?_, exists_step hinv limit, fun events s => length_le_work hinv⟩
  intro hfinished i call hcall hannounced
  exact endedOnce_of_finished hinv hfinished hcall hannounced

/-- Two calls, one at a time: the first one runs when the cancel arrives, the second one waits. -/
def cancelledRound : List RoundEvent :=
  [.go, .registry true, .go, .registry true, .go, .go, .go, .go, .permit 0, .start 0, .cancel, .go,
    .refuse 1, .join 1, .finish 0 (.done [.text "ok"] false), .join 0, .go, .go, .go, .go]

theorem announced_call_ends_once_cancelled : ∃ r : ToolRound, r.phase = .finished ∧
    r.ends 0 = [.completed "ok" false] ∧ r.ends 1 = [.failed "cancelled"] ∧
    (∀ i call, [(⟨"a", "dev__shell", "\x7b\x7d"⟩ : ToolCall), ⟨"b", "dev__read", "\x7b\x7d"⟩][i]? =
      some call → r.announcedAt i = true → r.EndedOnce i call) := by
  have hplayed : ((ToolRound.begin [⟨"a", "dev__shell", "\x7b\x7d"⟩,
    ⟨"b", "dev__read", "\x7b\x7d"⟩]).steps 1
      cancelledRound).map (fun r => (r.phase, r.ends 0, r.ends 1)) =
        some (.finished, [.completed "ok" false], [.failed "cancelled"]) := by decide +kernel
  obtain ⟨r, hsteps, hstate⟩ := Option.map_eq_some_iff.mp hplayed
  obtain ⟨hphase, hfirst, hsecond⟩ : r.phase = _ ∧ r.ends 0 = _ ∧ r.ends 1 = _ := by
    simpa only [Prod.mk.injEq] using hstate
  exact ⟨r, hphase, hfirst, hsecond, (announced_call_ends_once (InRound.start.steps hsteps)).1
    hphase⟩

end Ends
end Buzz
