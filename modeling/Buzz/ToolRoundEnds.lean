import Buzz.ToolRound

/-!
# Every announced call ends once

At each point of a round, every call is at one stage of its life, and the stage says
what is stored for it and which updates it has had. A step moves one call on and
leaves the others where they are.
-/

namespace Buzz

section Stages

/-- The life of one call. An active call has had no terminal update, an ended one has not been
stored yet, and a skipped one was never announced. -/
inductive CallStage where
  | unannounced
  | active (task : TaskState)
  | ended (outcome : InvokeOutcome)
  | settled (outcome : InvokeOutcome) (task : TaskState)
  | skipped

namespace CallStage

def view (call : ToolCall) : CallStage → CallView
  | unannounced => ⟨none, .idle, false, []⟩
  | active task => ⟨none, task, true, []⟩
  | ended outcome => ⟨none, .ended outcome, true, [terminalStatus call outcome]⟩
  | settled outcome task =>
      ⟨some (outcomeToResult call outcome), task, true, [terminalStatus call outcome]⟩
  | skipped => ⟨some (syntheticToolResult call "cancelled"), .idle, false, []⟩

/-- The task of the call was spawned. -/
def Spawned : CallStage → Prop
  | active task => task ≠ .idle ∧ ∀ outcome, task ≠ .ended outcome
  | ended _ => True
  | settled _ task => task = .joined
  | _ => False

def Settled (stage : CallStage) (task : TaskState) : Prop :=
  ∃ outcome, stage = settled outcome task

/-- The result is stored, and no task of the call is left. -/
def Stored (stage : CallStage) : Prop :=
  stage.Settled .idle ∨ stage.Settled .joined

/-- The task of the call is in the set. -/
def Busy : CallStage → Prop
  | active task => task ≠ .idle ∧ task ≠ .joined
  | ended _ => True
  | _ => False

end CallStage

/-- The preflight has dealt with the call: it waits to run or has ended. -/
def Checked (runnable : List ℕ) (i : ℕ) (stage : CallStage) : Prop :=
  i ∈ runnable ∧ stage = .active .idle ∨ i ∉ runnable ∧ stage.Settled .idle

def Pooled (runnable : List ℕ) (i : ℕ) (stage : CallStage) : Prop :=
  i ∈ runnable ∧ stage.Spawned ∨ i ∉ runnable ∧ stage.Settled .idle

/-- The stages a call may be at while the executing task stands there. -/
def RoundPhase.Allows (runnable : List ℕ) (i : ℕ) (stage : CallStage) : RoundPhase → Prop
  | preflight idx =>
      i < idx ∧ Checked runnable i stage ∨ idx ≤ i ∧ i ∉ runnable ∧ stage = .unannounced
  | announced idx | loadingSkill idx =>
      i < idx ∧ Checked runnable i stage ∨ i = idx ∧ i ∉ runnable ∧ stage = .active .idle ∨
        idx < i ∧ i ∉ runnable ∧ stage = .unannounced
  | abandoning idx filled =>
      i < filled ∧ (stage.Settled .idle ∨ stage = .skipped) ∨
        filled ≤ i ∧ i < idx ∧ (stage.Settled .idle ∨ stage = .active .idle) ∨
          filled ≤ i ∧ idx ≤ i ∧ stage = .unannounced
  | spawning remaining =>
      i ∈ remaining ∧ stage = .active .idle ∨ i ∉ remaining ∧ Pooled runnable i stage
  | joining | draining => Pooled runnable i stage
  | filling remaining => stage.Stored ∨ i ∈ remaining ∧ stage = .active .joined
  | finished => stage.Stored ∨ stage = .skipped

def RoundPhase.Bounded (count : ℕ) (runnable : List ℕ) : RoundPhase → Prop
  | announced idx | loadingSkill idx => idx < count
  | spawning remaining => remaining.Nodup ∧ ∀ i ∈ remaining, i ∈ runnable
  | filling remaining => ∀ i ∈ remaining, i ∈ runnable
  | _ => True

structure RoundInv (calls : List ToolCall) (r : ToolRound) : Prop where
  calls_eq : r.ex.calls = calls
  length : r.ex.results.length = calls.length
  runnable_lt : ∀ i ∈ r.ex.runnable, i < calls.length
  nodup : r.ex.runnable.Nodup
  bounded : r.phase.Bounded calls.length r.ex.runnable
  stage : ∀ i call, calls[i]? = some call →
    ∃ stage, r.view i = stage.view call ∧ r.phase.Allows r.ex.runnable i stage
  appended : r.phase = .finished → r.appended = r.ex.appendResults

variable {limit : ℕ} {calls : List ToolCall} {r s : ToolRound} {idx : ℕ} {call : ToolCall}

theorem roundInv_begin (calls : List ToolCall) : RoundInv calls (.begin calls) where
  calls_eq := rfl
  length := List.length_replicate
  runnable_lt := by
    intro i hi
    cases hi
  nodup := List.nodup_nil
  bounded := trivial
  stage := by
    intro i call _
    refine ⟨.unannounced, ?_, Or.inr ⟨Nat.zero_le i, List.not_mem_nil, rfl⟩⟩
    have hresult : (ToolRound.begin calls).result i = none := by
      simp only [ToolRound.result, ToolRound.begin, Execution.start, List.getElem?_replicate]
      split_ifs <;> rfl
    unfold ToolRound.view
    rw [hresult]
    rfl
  appended := by
    intro hphase
    cases hphase

/-- A step that keeps what the round holds for every call but one. -/
theorem RoundInv.change (h : RoundInv calls r) (k : ℕ) (hcalls : s.ex.calls = r.ex.calls)
    (hlength : s.ex.results.length = r.ex.results.length)
    (hrunnable : s.ex.runnable = r.ex.runnable)
    (hbounded : s.phase.Bounded calls.length r.ex.runnable) (hfinished : s.phase ≠ .finished)
    (hframe : ∀ i, i ≠ k → s.view i = r.view i)
    (hothers : ∀ i stage, i ≠ k → r.phase.Allows r.ex.runnable i stage →
      s.phase.Allows r.ex.runnable i stage)
    (hself : ∀ call stage, calls[k]? = some call → r.view k = stage.view call →
      r.phase.Allows r.ex.runnable k stage →
      ∃ stage', s.view k = stage'.view call ∧ s.phase.Allows r.ex.runnable k stage') :
    RoundInv calls s where
  calls_eq := hcalls.trans h.calls_eq
  length := hlength.trans h.length
  runnable_lt := by
    rw [hrunnable]
    exact h.runnable_lt
  nodup := by
    rw [hrunnable]
    exact h.nodup
  bounded := by
    rw [hrunnable]
    exact hbounded
  stage := by
    intro i call hcall
    rw [hrunnable]
    obtain ⟨stage, hview, hallows⟩ := h.stage i call hcall
    by_cases hi : i = k
    · subst hi
      exact hself call stage hcall hview hallows
    · exact ⟨stage, (hframe i hi).trans hview, hothers i stage hi hallows⟩
  appended := fun hphase => absurd hphase hfinished

/-- A step that only moves the executing task. -/
theorem RoundInv.moved (h : RoundInv calls r) (hex : s.ex = r.ex) (htasks : s.tasks = r.tasks)
    (hupdates : s.updates = r.updates) (hbounded : s.phase.Bounded calls.length r.ex.runnable)
    (hfinished : s.phase ≠ .finished)
    (hallows : ∀ i call stage, i < calls.length → r.view i = stage.view call →
      r.phase.Allows r.ex.runnable i stage → s.phase.Allows r.ex.runnable i stage) :
    RoundInv calls s where
  calls_eq := by
    rw [hex]
    exact h.calls_eq
  length := by
    rw [hex]
    exact h.length
  runnable_lt := by
    rw [hex]
    exact h.runnable_lt
  nodup := by
    rw [hex]
    exact h.nodup
  bounded := by
    rw [hex]
    exact hbounded
  stage := by
    intro i call hcall
    obtain ⟨stage, hview, hstage⟩ := h.stage i call hcall
    have hsame : s.view i = r.view i := by
      unfold ToolRound.view ToolRound.result ToolRound.announcedAt ToolRound.ends
      rw [hex, htasks, hupdates]
    obtain ⟨hlt, -⟩ := List.getElem?_eq_some_iff.mp hcall
    rw [hex]
    exact ⟨stage, hsame.trans hview, hallows i call stage hlt hview hstage⟩
  appended := fun hphase => absurd hphase hfinished

theorem RoundInv.lt_length (h : RoundInv calls r) (hcall : r.ex.calls[idx]? = some call) :
    calls[idx]? = some call ∧ idx < r.ex.results.length := by
  rw [h.calls_eq] at hcall
  obtain ⟨hlt, -⟩ := List.getElem?_eq_some_iff.mp hcall
  rw [h.length]
  exact ⟨hcall, hlt⟩

/-- The parts of a view at a known stage. -/
theorem view_parts {i : ℕ} {stage : CallStage} (hview : r.view i = stage.view call) :
    r.result i = (stage.view call).result ∧ r.tasks i = (stage.view call).task ∧
      r.announcedAt i = (stage.view call).announced ∧ r.ends i = (stage.view call).ends := by
  rw [← hview]
  exact ⟨rfl, rfl, rfl, rfl⟩

end Stages

section Preflight

variable {calls : List ToolCall} {r s : ToolRound} {idx : ℕ} {call : ToolCall}

theorem roundInv_announce (h : RoundInv calls r) (hphase : r.phase = .preflight idx)
    (hcall : r.ex.calls[idx]? = some call) :
    RoundInv calls ((r.emit idx call (.pending call.name call.arguments)).toPhase
      (.announced idx)) := by
  obtain ⟨hcall', hlt⟩ := h.lt_length hcall
  rw [h.length] at hlt
  refine h.change idx rfl rfl rfl hlt RoundPhase.noConfusion
    (fun i hi => (view_toPhase i _).trans (view_emit_ne hi _ _)) ?_ ?_
  · intro i stage hi hallows
    rw [hphase] at hallows
    rcases hallows with hbefore | ⟨hle, hafter⟩
    · exact Or.inl hbefore
    · exact Or.inr (Or.inr ⟨by omega, hafter⟩)
  · intro call' stage _ hview hallows
    rw [hphase] at hallows
    rcases hallows with ⟨hlt', -⟩ | ⟨-, hnot, rfl⟩
    · omega
    · obtain ⟨hresult, htask, hannounced, hends⟩ := view_parts hview
      refine ⟨.active .idle, ?_, Or.inr (Or.inl ⟨rfl, hnot, rfl⟩)⟩
      rw [view_toPhase, view_emit_self]
      rw [hresult, htask, hannounced, hends]
      rfl

theorem roundInv_spawning (h : RoundInv calls r) (hphase : r.phase = .preflight idx)
    (hnone : r.ex.calls[idx]? = none) : RoundInv calls (r.toPhase (.spawning r.ex.runnable)) := by
  have hle : calls.length ≤ idx := by
    rw [← h.calls_eq]
    exact List.getElem?_eq_none_iff.mp hnone
  refine h.moved rfl rfl rfl ⟨h.nodup, fun i hi => hi⟩ RoundPhase.noConfusion ?_
  intro i call stage hlt _ hallows
  rw [hphase] at hallows
  rcases hallows with ⟨-, hchecked⟩ | ⟨hle', -⟩
  · rcases hchecked with hwaiting | hsettled
    · exact Or.inl hwaiting
    · exact Or.inr ⟨hsettled.1, Or.inr hsettled⟩
  · omega

theorem roundInv_abandoning (h : RoundInv calls r) (hphase : r.phase = .preflight idx) :
    RoundInv calls (r.toPhase (.abandoning idx 0)) := by
  refine h.moved rfl rfl rfl trivial RoundPhase.noConfusion ?_
  intro i call stage _ _ hallows
  rw [hphase] at hallows
  rcases hallows with ⟨hlt, hchecked⟩ | ⟨hle, -, hstage⟩
  · rcases hchecked with ⟨-, hwaiting⟩ | ⟨-, hsettled⟩
    · exact Or.inr (Or.inl ⟨Nat.zero_le i, hlt, Or.inr hwaiting⟩)
    · exact Or.inr (Or.inl ⟨Nat.zero_le i, hlt, Or.inl hsettled⟩)
  · exact Or.inr (Or.inr ⟨Nat.zero_le i, hle, hstage⟩)

theorem roundInv_loadSkill (h : RoundInv calls r) (hphase : r.phase = .announced idx)
    (call : ToolCall) :
    RoundInv calls ((r.emit idx call .inProgress).toPhase (.loadingSkill idx)) := by
  have hbounded := h.bounded
  rw [hphase] at hbounded
  have hview (i : ℕ) : ((r.emit idx call .inProgress).toPhase (.loadingSkill idx)).view i =
      r.view i :=
    (view_toPhase i _).trans (view_emit_inProgress idx i call)
  refine h.change idx rfl rfl rfl hbounded RoundPhase.noConfusion (fun i _ => hview i) ?_ ?_
  · intro i stage _ hallows
    rw [hphase] at hallows
    exact hallows
  · intro call' stage _ hstage hallows
    rw [hphase] at hallows
    exact ⟨stage, (hview idx).trans hstage, hallows⟩

theorem roundInv_runnable (h : RoundInv calls r) (hphase : r.phase = .announced idx) :
    RoundInv calls { r with
      ex := { r.ex with runnable := r.ex.runnable ++ [idx] }
      phase := .preflight (idx + 1) } := by
  have hbounded : idx < calls.length := by
    have hbounded := h.bounded
    rw [hphase] at hbounded
    exact hbounded
  have hnot : idx ∉ r.ex.runnable := by
    obtain ⟨stage, -, hallows⟩ := h.stage idx _ (List.getElem?_eq_getElem hbounded)
    rw [hphase] at hallows
    rcases hallows with ⟨hlt, -⟩ | ⟨-, hnot, -⟩ | ⟨hlt, -⟩
    · omega
    · exact hnot
    · omega
  constructor
  · exact h.calls_eq
  · exact h.length
  · intro i hi
    rcases List.mem_append.mp hi with hold | hnew
    · exact h.runnable_lt i hold
    · obtain rfl := List.mem_singleton.mp hnew
      exact hbounded
  · exact List.Nodup.append h.nodup (List.nodup_singleton idx) (List.disjoint_singleton.mpr hnot)
  · trivial
  · intro i call hcall
    obtain ⟨stage, hview, hallows⟩ := h.stage i call hcall
    refine ⟨stage, hview, ?_⟩
    rw [hphase] at hallows
    simp only [RoundPhase.Allows, Checked, List.mem_append, List.mem_singleton] at hallows ⊢
    rcases hallows with ⟨hlt, hchecked⟩ | ⟨rfl, -, hstage⟩ | ⟨hlt, hnot', hstage⟩
    · refine Or.inl ⟨by omega, ?_⟩
      rcases hchecked with ⟨hmem, hstage⟩ | ⟨hnot', hstage⟩
      · exact Or.inl ⟨Or.inl hmem, hstage⟩
      · refine Or.inr ⟨?_, hstage⟩
        rintro (hmem | rfl)
        · exact hnot' hmem
        · omega
    · exact Or.inl ⟨by omega, Or.inl ⟨Or.inr rfl, hstage⟩⟩
    · refine Or.inr ⟨by omega, ?_, hstage⟩
      rintro (hmem | rfl)
      · exact hnot' hmem
      · omega
  · intro hfinished
    cases hfinished

/-- The announced call ends in the preflight. -/
theorem roundInv_settle (h : RoundInv calls r)
    (hphase : r.phase = .announced idx ∨ r.phase = .loadingSkill idx)
    (hcall : r.ex.calls[idx]? = some call) (outcome : InvokeOutcome) :
    RoundInv calls ((r.settle idx call outcome).toPhase (.preflight (idx + 1))) := by
  obtain ⟨hcall', hlt⟩ := h.lt_length hcall
  have hstages {i : ℕ} {stage : CallStage} (hallows : r.phase.Allows r.ex.runnable i stage) :
      i < idx ∧ Checked r.ex.runnable i stage ∨ i = idx ∧ i ∉ r.ex.runnable ∧
        stage = .active .idle ∨ idx < i ∧ i ∉ r.ex.runnable ∧ stage = .unannounced := by
    rcases hphase with hphase | hphase
    · rw [hphase] at hallows
      exact hallows
    · rw [hphase] at hallows
      exact hallows
  refine h.change idx rfl (List.length_set ..) rfl trivial RoundPhase.noConfusion
    (fun i hi => (view_toPhase i _).trans (view_settle_ne hi _ _)) ?_ ?_
  · intro i stage hi hallows
    rcases hstages hallows with ⟨hlt', hchecked⟩ | ⟨rfl, -⟩ | ⟨hlt', hafter⟩
    · exact Or.inl ⟨by omega, hchecked⟩
    · exact absurd rfl hi
    · exact Or.inr ⟨hlt', hafter⟩
  · intro call' stage hcall'' hview hallows
    obtain rfl := Option.some.inj (hcall'.symm.trans hcall'')
    rcases hstages hallows with ⟨hlt', -⟩ | ⟨-, hnot, rfl⟩ | ⟨hlt', -⟩
    · omega
    · obtain ⟨-, htask, hannounced, hends⟩ := view_parts hview
      refine ⟨.settled outcome .idle, ?_, Or.inl ⟨by omega, Or.inr ⟨hnot, outcome, rfl⟩⟩⟩
      rw [view_toPhase, view_settle_self hlt]
      rw [htask, hannounced, hends]
      rfl
    · omega

theorem roundInv_abandon {filled : ℕ} (h : RoundInv calls r)
    (hphase : r.phase = .abandoning idx filled)
    (hcall : r.ex.calls[filled]? = some call) : RoundInv calls (r.abandon idx filled call) := by
  obtain ⟨hcall', hlt⟩ := h.lt_length hcall
  obtain ⟨stage, hview, hallows⟩ := h.stage filled call hcall'
  obtain ⟨hresult, htask, hannounced, hends⟩ := view_parts hview
  rw [hphase] at hallows
  have hothers (i : ℕ) (stage : CallStage) (hi : i ≠ filled)
      (h : r.phase.Allows r.ex.runnable i stage) :
      (RoundPhase.abandoning idx (filled + 1)).Allows r.ex.runnable i stage := by
    rw [hphase] at h
    rcases h with ⟨hlt', hstage⟩ | ⟨hle, hlt', hstage⟩ | ⟨hle, hle', hstage⟩
    · exact Or.inl ⟨by omega, hstage⟩
    · exact Or.inr (Or.inl ⟨by omega, hlt', hstage⟩)
    · exact Or.inr (Or.inr ⟨by omega, hle', hstage⟩)
  -- What is left to show is the stage of the filled call, which is before the next one to fill.
  have hdone {s : ToolRound} (hcalls : s.ex.calls = r.ex.calls)
      (hlength : s.ex.results.length = r.ex.results.length)
      (hrunnable : s.ex.runnable = r.ex.runnable)
      (hframe : ∀ i, i ≠ filled → s.view i = r.view i) {stage' : CallStage}
      (hself : s.view filled = stage'.view call)
        (hstage' : stage'.Settled .idle ∨ stage' = .skipped) :
      RoundInv calls (s.toPhase (.abandoning idx (filled + 1))) := by
    refine h.change filled hcalls hlength hrunnable trivial RoundPhase.noConfusion hframe hothers ?_
    intro call' stage'' hcall'' _ _
    obtain rfl := Option.some.inj (hcall'.symm.trans hcall'')
    exact ⟨stage', hself, Or.inl ⟨by omega, hstage'⟩⟩
  unfold ToolRound.abandon
  simp only
  rcases hallows with ⟨hlt', -⟩ | ⟨-, hlt', hsettled | rfl⟩ | ⟨-, hle, rfl⟩
  · omega
  · obtain ⟨outcome, rfl⟩ := hsettled
    have hsome : (r.result filled).isSome = true := by
      rw [hresult]
      rfl
    rw [if_pos hsome]
    exact hdone rfl rfl rfl (fun _ _ => rfl) hview (Or.inl ⟨outcome, rfl⟩)
  · have hnone : ¬(r.result filled).isSome = true := by
      rw [hresult]
      exact Bool.false_ne_true
    rw [if_neg hnone, if_pos hlt']
    refine hdone rfl (List.length_set ..) rfl (fun i hi => view_settle_ne hi _ _) ?_
      (Or.inl ⟨.failed "cancelled", rfl⟩)
    rw [view_settle_self hlt, htask, hannounced, hends]
    rfl
  · have hnone : ¬(r.result filled).isSome = true := by
      rw [hresult]
      exact Bool.false_ne_true
    rw [if_neg hnone, if_neg (Nat.not_lt.mpr hle)]
    refine hdone rfl (List.length_set ..) rfl (fun i hi => view_setResult_ne hi _) ?_ (Or.inr rfl)
    rw [view_setResult_self hlt, htask, hannounced, hends]
    rfl

end Preflight

section Pool

variable {calls : List ToolCall} {r s : ToolRound} {idx : ℕ} {call : ToolCall} {rest : List ℕ}

theorem roundInv_appendResults (h : RoundInv calls r)
    (hstages : ∀ i stage, i < calls.length → r.phase.Allows r.ex.runnable i stage →
      stage.Stored ∨ stage = .skipped) : RoundInv calls r.appendResults where
  calls_eq := h.calls_eq
  length := h.length
  runnable_lt := h.runnable_lt
  nodup := h.nodup
  bounded := trivial
  stage := by
    intro i call hcall
    obtain ⟨stage, hview, hallows⟩ := h.stage i call hcall
    obtain ⟨hlt, -⟩ := List.getElem?_eq_some_iff.mp hcall
    exact ⟨stage, hview, hstages i stage hlt hallows⟩
  appended := fun _ => rfl

theorem roundInv_spawn (h : RoundInv calls r) (hphase : r.phase = .spawning (idx :: rest)) :
    RoundInv calls ((r.setTask idx .queued).toPhase (.spawning rest)) := by
  have hbounded := h.bounded
  rw [hphase] at hbounded
  obtain ⟨hnodup, hsubset⟩ := hbounded
  obtain ⟨hnot, hnodup'⟩ := List.nodup_cons.mp hnodup
  refine h.change idx rfl rfl rfl ⟨hnodup', fun i hi => hsubset i (List.mem_cons_of_mem _ hi)⟩
    RoundPhase.noConfusion (fun i hi => (view_toPhase i _).trans (view_setTask_ne hi _)) ?_ ?_
  · intro i stage hi hallows
    rw [hphase] at hallows
    simp only [RoundPhase.Allows, List.mem_cons, hi, false_or] at hallows
    exact hallows
  · intro call stage _ hview hallows
    rw [hphase] at hallows
    rcases hallows with ⟨-, rfl⟩ | ⟨hout, -⟩
    · obtain ⟨hresult, -, hannounced, hends⟩ := view_parts hview
      have hrunnable := hsubset idx List.mem_cons_self
      refine ⟨.active .queued, ?_, Or.inr ⟨hnot, Or.inl ⟨hrunnable, TaskState.noConfusion, ?_⟩⟩⟩
      · rw [view_toPhase, view_setTask_self, hresult, hannounced, hends]
        rfl
      · intro outcome
        exact TaskState.noConfusion
    · exact absurd List.mem_cons_self hout

/-- Nothing more is spawned, or the cancel is noticed. -/
theorem roundInv_pooled (h : RoundInv calls r) {closed : Bool} {phase : RoundPhase}
    (hphase : r.phase = .spawning [] ∨ r.phase = .joining)
    (hnext : phase = .joining ∨ phase = .draining) :
    RoundInv calls { r with semaphoreClosed := closed, phase := phase } := by
  have hpooled {i : ℕ} {stage : CallStage} (hallows : r.phase.Allows r.ex.runnable i stage) :
      Pooled r.ex.runnable i stage := by
    rcases hphase with hphase | hphase
    · rw [hphase] at hallows
      rcases hallows with ⟨hmem, -⟩ | ⟨-, hpooled⟩
      · cases hmem
      · exact hpooled
    · rw [hphase] at hallows
      exact hallows
  rcases hnext with rfl | rfl
  · exact h.moved rfl rfl rfl trivial RoundPhase.noConfusion fun _ _ _ _ _ hallows =>
      hpooled hallows
  · exact h.moved rfl rfl rfl trivial RoundPhase.noConfusion fun _ _ _ _ _ hallows =>
      hpooled hallows

theorem roundInv_filling (h : RoundInv calls r) (hphase : r.phase = .joining ∨ r.phase = .draining)
    (hjoined : r.allJoined = true) : RoundInv calls (r.toPhase (.filling r.ex.runnable)) := by
  refine h.moved rfl rfl rfl (fun i hi => hi) RoundPhase.noConfusion ?_
  intro i call stage _ hview hallows
  have hpooled : Pooled r.ex.runnable i stage := by
    rcases hphase with hphase | hphase
    · rw [hphase] at hallows
      exact hallows
    · rw [hphase] at hallows
      exact hallows
  rcases hpooled with ⟨hmem, hspawned⟩ | ⟨-, hsettled⟩
  · have htask : (stage.view call).task = .joined := by
      rw [← (view_parts hview).2.1]
      simpa using List.all_eq_true.mp hjoined i hmem
    cases stage with
    | unannounced | skipped => cases hspawned
    | ended outcome => cases htask
    | active task =>
        obtain rfl : task = .joined := htask
        exact Or.inr ⟨hmem, rfl⟩
    | settled outcome task =>
        obtain rfl : task = .joined := htask
        exact Or.inl (Or.inr ⟨outcome, rfl⟩)
  · exact Or.inl (Or.inl hsettled)

theorem roundInv_fill (h : RoundInv calls r) (hphase : r.phase = .filling (idx :: rest))
    (hcall : r.ex.calls[idx]? = some call) : RoundInv calls (r.fill idx rest call) := by
  obtain ⟨hcall', hlt⟩ := h.lt_length hcall
  obtain ⟨stage, hview, hallows⟩ := h.stage idx call hcall'
  obtain ⟨hresult, htask, hannounced, hends⟩ := view_parts hview
  have hbounded := h.bounded
  rw [hphase] at hallows hbounded
  have hothers (i : ℕ) (stage : CallStage) (hi : i ≠ idx)
    (h : r.phase.Allows r.ex.runnable i stage) :
      (RoundPhase.filling rest).Allows r.ex.runnable i stage := by
    rw [hphase] at h
    simp only [RoundPhase.Allows, List.mem_cons, hi, false_or] at h
    exact h
  have hdone {s : ToolRound} (hcalls : s.ex.calls = r.ex.calls)
      (hlength : s.ex.results.length = r.ex.results.length)
      (hrunnable : s.ex.runnable = r.ex.runnable)
      (hframe : ∀ i, i ≠ idx → s.view i = r.view i) {stage' : CallStage}
      (hself : s.view idx = stage'.view call) (hstage' : stage'.Stored) :
      RoundInv calls (s.toPhase (.filling rest)) := by
    refine h.change idx hcalls hlength hrunnable
      (fun i hi => hbounded i (List.mem_cons_of_mem _ hi)) RoundPhase.noConfusion hframe hothers ?_
    intro call' stage'' hcall'' _ _
    obtain rfl := Option.some.inj (hcall'.symm.trans hcall'')
    exact ⟨stage', hself, Or.inl hstage'⟩
  unfold ToolRound.fill
  rcases hallows with hstored | ⟨-, rfl⟩
  · have hsome : (r.result idx).isSome = true := by
      rw [hresult]
      rcases hstored with ⟨outcome, rfl⟩ | ⟨outcome, rfl⟩
      · rfl
      · rfl
    rw [if_pos hsome]
    exact hdone rfl rfl rfl (fun _ _ => rfl) hview hstored
  · have hnone : ¬(r.result idx).isSome = true := by
      rw [hresult]
      exact Bool.false_ne_true
    rw [if_neg hnone]
    refine hdone rfl (List.length_set ..) rfl (fun i hi => view_settle_ne hi _ _) ?_
      (Or.inr ⟨.failed "cancelled", rfl⟩)
    rw [view_settle_self hlt, htask, hannounced, hends]
    rfl

end Pool

section Tasks

variable {limit : ℕ} {calls : List ToolCall} {r s : ToolRound} {idx : ℕ} {call : ToolCall}
variable {stage stage' : CallStage} {runnable : List ℕ} {phase : RoundPhase}

/-- Only a call whose task is in the set is busy, and then the executing task waits for the set or
is still spawning. -/
theorem allows_of_busy (h : phase.Allows runnable idx stage) (hbusy : stage.Busy)
    (hspawned : stage'.Spawned) :
    phase ≠ .finished ∧ idx ∈ runnable ∧ phase.Allows runnable idx stage' := by
  have hpooled (hpool : Pooled runnable idx stage) :
      idx ∈ runnable ∧ Pooled runnable idx stage' := by
    rcases hpool with ⟨hmem, -⟩ | ⟨-, outcome, rfl⟩
    · exact ⟨hmem, Or.inl ⟨hmem, hspawned⟩⟩
    · cases hbusy
  have hidle (hstage : stage = .active .idle) : False := by
    subst hstage
    exact hbusy.1 rfl
  have hsettled {task : TaskState} (hstage : stage.Settled task) : False := by
    obtain ⟨outcome, rfl⟩ := hstage
    cases hbusy
  have hunannounced (hstage : stage = .unannounced) : False := by
    subst hstage
    cases hbusy
  have hskipped (hstage : stage = .skipped) : False := by
    subst hstage
    cases hbusy
  have hchecked (hstage : Checked runnable idx stage) : False := by
    rcases hstage with ⟨-, hstage⟩ | ⟨-, hstage⟩
    · exact hidle hstage
    · exact hsettled hstage
  cases phase with
  | preflight next =>
      rcases h with ⟨-, hstage⟩ | ⟨-, -, hstage⟩
      · exact (hchecked hstage).elim
      · exact (hunannounced hstage).elim
  | announced next | loadingSkill next =>
      rcases h with ⟨-, hstage⟩ | ⟨-, -, hstage⟩ | ⟨-, -, hstage⟩
      · exact (hchecked hstage).elim
      · exact (hidle hstage).elim
      · exact (hunannounced hstage).elim
  | abandoning next filled =>
      rcases h with ⟨-, hstage | hstage⟩ | ⟨-, -, hstage | hstage⟩ | ⟨-, -, hstage⟩
      · exact (hsettled hstage).elim
      · exact (hskipped hstage).elim
      · exact (hsettled hstage).elim
      · exact (hidle hstage).elim
      · exact (hunannounced hstage).elim
  | spawning remaining =>
      rcases h with ⟨-, hstage⟩ | ⟨hout, hpool⟩
      · exact (hidle hstage).elim
      · exact ⟨RoundPhase.noConfusion, (hpooled hpool).1, Or.inr ⟨hout, (hpooled hpool).2⟩⟩
  | joining | draining => exact ⟨RoundPhase.noConfusion, hpooled h⟩
  | filling remaining =>
      rcases h with (hstage | hstage) | ⟨-, rfl⟩
      · exact (hsettled hstage).elim
      · exact (hsettled hstage).elim
      · exact (hbusy.2 rfl).elim
  | finished =>
      rcases h with (hstage | hstage) | hstage
      · exact (hsettled hstage).elim
      · exact (hsettled hstage).elim
      · exact (hskipped hstage).elim

theorem settled_of_allows {outcome : InvokeOutcome} {task : TaskState}
    (h : phase.Allows runnable idx (.settled outcome task)) : task = .idle ∨ task = .joined := by
  have hsettled {state : TaskState} (hstage : (CallStage.settled outcome task).Settled state) :
      task = state := by
    obtain ⟨outcome', hstage⟩ := hstage
    exact (CallStage.settled.inj hstage).2
  have hchecked (hstage : Checked runnable idx (.settled outcome task)) : task = .idle := by
    rcases hstage with ⟨-, hstage⟩ | ⟨-, hstage⟩
    · cases hstage
    · exact hsettled hstage
  have hpooled (hstage : Pooled runnable idx (.settled outcome task)) : task = .idle ∨
      task = .joined := by
    rcases hstage with ⟨-, hstage⟩ | ⟨-, hstage⟩
    · exact Or.inr hstage
    · exact Or.inl (hsettled hstage)
  have hstored (hstage : (CallStage.settled outcome task).Stored) : task = .idle ∨
      task = .joined := by
    rcases hstage with hstage | hstage
    · exact Or.inl (hsettled hstage)
    · exact Or.inr (hsettled hstage)
  cases phase with
  | preflight next =>
      rcases h with ⟨-, hstage⟩ | ⟨-, -, hstage⟩
      · exact Or.inl (hchecked hstage)
      · cases hstage
  | announced next | loadingSkill next =>
      rcases h with ⟨-, hstage⟩ | ⟨-, -, hstage⟩ | ⟨-, -, hstage⟩
      · exact Or.inl (hchecked hstage)
      · cases hstage
      · cases hstage
  | abandoning next filled =>
      rcases h with ⟨-, hstage | hstage⟩ | ⟨-, -, hstage | hstage⟩ | ⟨-, -, hstage⟩
      · exact Or.inl (hsettled hstage)
      · cases hstage
      · exact Or.inl (hsettled hstage)
      · cases hstage
      · cases hstage
  | spawning remaining =>
      rcases h with ⟨-, hstage⟩ | ⟨-, hpool⟩
      · cases hstage
      · exact hpooled hpool
  | joining | draining => exact hpooled h
  | filling remaining =>
      rcases h with hstage | ⟨-, hstage⟩
      · exact hstored hstage
      · cases hstage
  | finished =>
      rcases h with hstage | hstage
      · exact hstored hstage
      · cases hstage

/-- A task that neither waits to be spawned nor has been joined belongs to a busy call. -/
theorem busy_of_task (hview : r.view idx = stage.view call) (h : phase.Allows runnable idx stage)
    (hidle : r.tasks idx ≠ .idle) (hjoined : r.tasks idx ≠ .joined) : stage.Busy := by
  have htask := (view_parts hview).2.1
  rw [htask] at hidle hjoined
  cases stage with
  | unannounced | skipped => exact hidle rfl
  | ended outcome => trivial
  | active task => exact ⟨hidle, hjoined⟩
  | settled outcome task =>
      rcases settled_of_allows h with rfl | rfl
      · exact hidle rfl
      · exact hjoined rfl

/-- The step of a task changes what the round holds for its own call only. -/
theorem RoundInv.taskChange (h : RoundInv calls r) (hcall : r.ex.calls[idx]? = some call)
    (hex : s.ex.calls = r.ex.calls ∧ s.ex.results.length = r.ex.results.length ∧
      s.ex.runnable = r.ex.runnable) (hphase : s.phase = r.phase)
    (hframe : ∀ i, i ≠ idx → s.view i = r.view i) (hidle : r.tasks idx ≠ .idle)
    (hjoined : r.tasks idx ≠ .joined)
    (hself : ∀ stage, r.view idx = stage.view call → r.phase.Allows r.ex.runnable idx stage →
      ∃ stage' : CallStage, s.view idx = stage'.view call ∧ stage'.Spawned) : RoundInv calls s := by
  obtain ⟨hcall', -⟩ := h.lt_length hcall
  obtain ⟨stage, hview, hallows⟩ := h.stage idx call hcall'
  obtain ⟨stage', hview', hspawned⟩ := hself stage hview hallows
  have hbusy := busy_of_task hview hallows hidle hjoined
  obtain ⟨hfinished, -, hallows'⟩ := allows_of_busy hallows hbusy hspawned
  obtain ⟨hcalls, hlength, hrunnable⟩ := hex
  rw [← hphase] at hfinished hallows'
  refine h.change idx hcalls hlength hrunnable ?_ hfinished hframe ?_ ?_
  · rw [hphase]
    exact h.bounded
  · intro i stage _ hstage
    rw [hphase]
    exact hstage
  · intro call'' _ hcall'' _ _
    obtain rfl := Option.some.inj (hcall'.symm.trans hcall'')
    exact ⟨stage', hview', hallows'⟩

theorem view_of_active {state : TaskState} (hview : r.view idx = stage.view call)
    (h : phase.Allows runnable idx stage) (htask : r.tasks idx = state) (hidle : state ≠ .idle)
    (hjoined : state ≠ .joined) (hended : ∀ outcome, state ≠ .ended outcome) :
    r.result idx = none ∧ r.announcedAt idx = true ∧ r.ends idx = [] := by
  subst htask
  have hbusy := busy_of_task hview h hidle hjoined
  obtain ⟨hresult, htask, hannounced, hends⟩ := view_parts hview
  cases stage with
  | active task => exact ⟨hresult, hannounced, hends⟩
  | ended outcome => exact absurd htask (hended outcome)
  | unannounced | skipped | settled outcome task => cases hbusy

theorem taskStep_cases {state : TaskState} {next : ToolCall → ToolRound}
    (h : r.taskStep idx state next = some s) :
    r.tasks idx = state ∧ ∃ call, r.ex.calls[idx]? = some call ∧ s = next call := by
  unfold ToolRound.taskStep at h
  split_ifs at h with htask
  obtain ⟨call, hcall, rfl⟩ := Option.map_eq_some_iff.mp h
  exact ⟨htask, call, hcall, rfl⟩

/-- A task goes on without ending its call. -/
theorem roundInv_setTask (h : RoundInv calls r) (hcall : r.ex.calls[idx]? = some call)
    {state next : TaskState} (htask : r.tasks idx = state) (hidle : state ≠ .idle)
    (hjoined : state ≠ .joined) (hended : ∀ outcome, state ≠ .ended outcome)
    (hspawned : (CallStage.active next).Spawned) : RoundInv calls (r.setTask idx next) := by
  refine h.taskChange hcall ⟨rfl, rfl, rfl⟩ rfl (fun i hi => view_setTask_ne hi next)
    (by rw [htask]; exact hidle) (by rw [htask]; exact hjoined) ?_
  intro stage hview hallows
  obtain ⟨hresult, hannounced, hends⟩ := view_of_active hview hallows htask hidle hjoined hended
  refine ⟨.active next, ?_, hspawned⟩
  rw [view_setTask_self, hresult, hannounced, hends]
  rfl

theorem roundInv_startTask (h : RoundInv calls r) (hcall : r.ex.calls[idx]? = some call)
    (htask : r.tasks idx = .admitted) :
    RoundInv calls ((r.emit idx call .inProgress).setTask idx .running) := by
  have hview (i : ℕ) : ((r.emit idx call .inProgress).setTask idx .running).view i =
      (r.setTask idx .running).view i :=
    view_emit_inProgress (r := r.setTask idx .running) idx i call
  refine h.taskChange hcall ⟨rfl, rfl, rfl⟩ rfl
    (fun i hi => (hview i).trans (view_setTask_ne hi .running)) (by simp [htask])
    (by simp [htask]) ?_
  intro stage hstage hallows
  obtain ⟨hresult, hannounced, hends⟩ := view_of_active hstage hallows htask
    TaskState.noConfusion TaskState.noConfusion (fun outcome => TaskState.noConfusion)
  refine ⟨.active .running, ?_, TaskState.noConfusion, fun outcome => TaskState.noConfusion⟩
  rw [hview idx, view_setTask_self, hresult, hannounced, hends]
  rfl

/-- A task sends the terminal update of its call. -/
theorem roundInv_endTask (h : RoundInv calls r) (hcall : r.ex.calls[idx]? = some call)
    {state : TaskState} (htask : r.tasks idx = state) (hidle : state ≠ .idle)
    (hjoined : state ≠ .joined) (hended : ∀ outcome, state ≠ .ended outcome)
    (outcome : InvokeOutcome) :
    RoundInv calls ((r.emit idx call (terminalStatus call outcome)).setTask idx
      (.ended outcome)) := by
  refine h.taskChange hcall ⟨rfl, rfl, rfl⟩ rfl ?_ (by rw [htask]; exact hidle)
    (by rw [htask]; exact hjoined) ?_
  · intro i hi
    rw [view_setTask_ne hi, view_emit_ne hi]
  · intro stage hview hallows
    obtain ⟨hresult, hannounced, hends⟩ := view_of_active hview hallows htask hidle hjoined hended
    obtain ⟨hterminal, hpending⟩ := isTerminal_terminalStatus call outcome
    have hemit := view_emit_self (r := r) (i := idx) call (terminalStatus call outcome)
    rw [hterminal, hpending, hresult, hannounced, hends] at hemit
    obtain ⟨hresult', -, hannounced', hends'⟩ := CallView.mk.inj hemit
    refine ⟨.ended outcome, ?_, trivial⟩
    rw [view_setTask_self, hresult', hannounced', hends']
    rfl

theorem pooled_of_joining (hphase : r.phase = .joining ∨ r.phase = .draining)
    (hallows : r.phase.Allows r.ex.runnable idx stage) : Pooled r.ex.runnable idx stage := by
  rcases hphase with hphase | hphase
  · rw [hphase] at hallows
    exact hallows
  · rw [hphase] at hallows
    exact hallows

/-- A joined task leaves its result, if no crash took it. -/
theorem roundInv_storeJoined (h : RoundInv calls r)
    (hphase : r.phase = .joining ∨ r.phase = .draining)
    (hcall : r.ex.calls[idx]? = some call) (hstore : r.storeJoined idx call = some s) :
    RoundInv calls s := by
  obtain ⟨hcall', hlt⟩ := h.lt_length hcall
  unfold ToolRound.storeJoined at hstore
  split at hstore
  · rename_i outcome htask
    obtain ⟨stage, hview, hallows⟩ := h.stage idx call hcall'
    have hended {stage : CallStage} (hview : r.view idx = stage.view call)
        (hallows : r.phase.Allows r.ex.runnable idx stage) : stage = .ended outcome := by
      have hstate := (view_parts hview).2.1
      rw [htask] at hstate
      rcases pooled_of_joining hphase hallows with ⟨-, hspawned⟩ | ⟨-, other, rfl⟩
      · cases stage with
        | active task => exact absurd hstate.symm (hspawned.2 outcome)
        | ended other =>
            obtain rfl := TaskState.ended.inj hstate
            rfl
        | settled other task =>
            obtain rfl : task = .joined := hspawned
            cases hstate
        | unannounced | skipped => cases hspawned
      · cases hstate
    have hnone : r.result idx = none := by
      obtain rfl := hended hview hallows
      exact (view_parts hview).1
    rw [hnone, if_neg (fun hsome => Bool.false_ne_true hsome.2)] at hstore
    obtain rfl := Option.some_inj.mp hstore
    refine h.taskChange hcall ⟨rfl, List.length_set .., rfl⟩ rfl ?_ (by simp [htask])
      (by simp [htask]) ?_
    · intro i hi
      rw [view_setResult_ne hi, view_setTask_ne hi]
    · intro stage hview hallows
      obtain rfl := hended hview hallows
      obtain ⟨-, -, hannounced, hends⟩ := view_parts hview
      have hset := view_setTask_self (r := r) (i := idx) .joined
      rw [hannounced, hends] at hset
      obtain ⟨-, htask', hannounced', hends'⟩ := CallView.mk.inj hset
      refine ⟨.settled outcome .joined, ?_, rfl⟩
      rw [view_setResult_self (r := r.setTask idx .joined) hlt, htask', hannounced', hends']
      rfl
  · rename_i htask
    obtain rfl := Option.some_inj.mp hstore
    exact roundInv_setTask h hcall htask TaskState.noConfusion TaskState.noConfusion
      (fun outcome => TaskState.noConfusion) ⟨TaskState.noConfusion, fun outcome =>
        TaskState.noConfusion⟩
  · cases hstore

end Tasks

section Rounds

variable {limit : ℕ} {calls : List ToolCall} {r s : ToolRound} {idx : ℕ} {call : ToolCall}

theorem roundInv_go (h : RoundInv calls r) (hgo : r.go = some s) : RoundInv calls s := by
  unfold ToolRound.go at hgo
  split at hgo
  · rename_i idx hphase
    split at hgo
    · rename_i hnone
      obtain rfl := Option.some_inj.mp hgo
      exact roundInv_spawning h hphase hnone
    · rename_i call hcall
      split_ifs at hgo
      · obtain rfl := Option.some_inj.mp hgo
        exact roundInv_abandoning h hphase
      · obtain rfl := Option.some_inj.mp hgo
        exact roundInv_announce h hphase hcall
  · rename_i idx hphase
    obtain ⟨call, -, hskill⟩ := Option.bind_eq_some_iff.mp hgo
    split_ifs at hskill
    obtain rfl := Option.some_inj.mp hskill
    exact roundInv_loadSkill h hphase call
  · cases hgo
  · rename_i idx filled hphase
    split at hgo
    · rename_i hnone
      obtain rfl := Option.some_inj.mp hgo
      rw [h.calls_eq] at hnone
      have hle := List.getElem?_eq_none_iff.mp hnone
      refine roundInv_appendResults h ?_
      intro i stage hlt hallows
      rw [hphase] at hallows
      rcases hallows with ⟨-, hstage | hstage⟩ | ⟨hle', -⟩ | ⟨hle', -⟩
      · exact Or.inl (Or.inl hstage)
      · exact Or.inr hstage
      · omega
      · omega
    · rename_i call hcall
      obtain rfl := Option.some_inj.mp hgo
      exact roundInv_abandon h hphase hcall
  · rename_i idx rest hphase
    obtain rfl := Option.some_inj.mp hgo
    exact roundInv_spawn h hphase
  · rename_i hphase
    split_ifs at hgo
    · obtain rfl := Option.some_inj.mp hgo
      exact roundInv_pooled h (Or.inl hphase) (Or.inr rfl)
    · obtain rfl := Option.some_inj.mp hgo
      exact roundInv_pooled h (Or.inl hphase) (Or.inl rfl)
  · rename_i hphase
    split_ifs at hgo with hcancelled hjoined
    · obtain rfl := Option.some_inj.mp hgo
      exact roundInv_pooled h (Or.inr hphase) (Or.inr rfl)
    · obtain rfl := Option.some_inj.mp hgo
      exact roundInv_filling h (Or.inl hphase) hjoined
  · rename_i hphase
    split_ifs at hgo with hjoined
    obtain rfl := Option.some_inj.mp hgo
    exact roundInv_filling h (Or.inr hphase) hjoined
  · rename_i idx rest hphase
    obtain ⟨call, hcall, rfl⟩ := Option.map_eq_some_iff.mp hgo
    exact roundInv_fill h hphase hcall
  · rename_i hphase
    obtain rfl := Option.some_inj.mp hgo
    refine roundInv_appendResults h ?_
    intro i stage _ hallows
    rw [hphase] at hallows
    rcases hallows with hstored | ⟨hmem, -⟩
    · exact Or.inl hstored
    · cases hmem
  · cases hgo

theorem roundInv_registry (h : RoundInv calls r) {known : Bool}
    (hstep : r.registry known = some s) : RoundInv calls s := by
  unfold ToolRound.registry at hstep
  split at hstep
  · rename_i idx hphase
    obtain ⟨call, hcall, hknown⟩ := Option.bind_eq_some_iff.mp hstep
    split_ifs at hknown
    · obtain rfl := Option.some_inj.mp hknown
      exact roundInv_runnable h hphase
    · obtain rfl := Option.some_inj.mp hknown
      exact roundInv_settle h (Or.inl hphase) hcall _
  · cases hstep

theorem roundInv_skill (h : RoundInv calls r) {content : List ToolResultContent} {isError : Bool}
    (hstep : r.skill content isError = some s) : RoundInv calls s := by
  unfold ToolRound.skill at hstep
  split at hstep
  · rename_i idx hphase
    obtain ⟨call, hcall, rfl⟩ := Option.map_eq_some_iff.mp hstep
    exact roundInv_settle h (Or.inr hphase) hcall _
  · cases hstep

theorem roundInv_join (h : RoundInv calls r) (hstep : r.join idx = some s) : RoundInv calls s := by
  unfold ToolRound.join at hstep
  split_ifs at hstep with hphase
  obtain ⟨call, hcall, hstore⟩ := Option.bind_eq_some_iff.mp hstep
  exact roundInv_storeJoined h (hphase.imp And.left id) hcall hstore

theorem RoundInv.step {event : RoundEvent} (h : RoundInv calls r)
    (hstep : r.step limit event = some s) : RoundInv calls s := by
  cases event with
  | cancel =>
      simp only [ToolRound.step] at hstep
      split_ifs at hstep
      obtain rfl := Option.some_inj.mp hstep
      exact ⟨h.calls_eq, h.length, h.runnable_lt, h.nodup, h.bounded, h.stage, h.appended⟩
  | go => exact roundInv_go h hstep
  | registry known => exact roundInv_registry h hstep
  | skill content isError => exact roundInv_skill h hstep
  | permit idx =>
      simp only [ToolRound.step] at hstep
      split_ifs at hstep
      obtain ⟨htask, call, hcall, rfl⟩ := taskStep_cases hstep
      exact roundInv_setTask h hcall htask TaskState.noConfusion TaskState.noConfusion
        (fun outcome => TaskState.noConfusion)
        ⟨TaskState.noConfusion, fun outcome => TaskState.noConfusion⟩
  | refuse idx =>
      simp only [ToolRound.step] at hstep
      split_ifs at hstep
      obtain ⟨htask, call, hcall, rfl⟩ := taskStep_cases hstep
      exact roundInv_endTask h hcall htask TaskState.noConfusion TaskState.noConfusion
        (fun outcome => TaskState.noConfusion) (.failed "cancelled")
  | start idx =>
      obtain ⟨htask, call, hcall, rfl⟩ := taskStep_cases hstep
      exact roundInv_startTask h hcall htask
  | finish idx outcome =>
      obtain ⟨htask, call, hcall, rfl⟩ := taskStep_cases hstep
      exact roundInv_endTask h hcall htask TaskState.noConfusion TaskState.noConfusion
        (fun outcome => TaskState.noConfusion) outcome
  | crash idx =>
      obtain ⟨htask, call, hcall, rfl⟩ := taskStep_cases hstep
      exact roundInv_setTask h hcall htask TaskState.noConfusion TaskState.noConfusion
        (fun outcome => TaskState.noConfusion)
        ⟨TaskState.noConfusion, fun outcome => TaskState.noConfusion⟩
  | join idx => exact roundInv_join h hstep

theorem InRound.inv (h : InRound limit calls r) : RoundInv calls r := by
  induction h with
  | start => exact roundInv_begin calls
  | step _ hstep ih => exact ih.step hstep

end Rounds

end Buzz
