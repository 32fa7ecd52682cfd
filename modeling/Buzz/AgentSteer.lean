import Buzz.AgentSession

/-!
# Steers of a running prompt

A steer is accepted as long as the session has an active run, and it is picked up
at the next round boundary of that run. A run that ends first drops what is still
in its queue, although the steer was answered with success.
-/

namespace Buzz

variable {cfg : AgentConfig} {w u : AgentWorld} {task : ℕ} {run : RunState}

def HistoryItem.userText : HistoryItem → Option String
  | user text => some text
  | _ => none

def userTexts (history : List HistoryItem) : List String :=
  history.filterMap HistoryItem.userText

/-- Every accepted steer that renders is in the history already or still in the queue. -/
def RunState.SteersKept (run : RunState) : Prop :=
  run.accepted.filterMap steerText = run.pickedUp ++ run.steers.filterMap steerText

section Traces

/-- One event of a run. -/
structure Moment where
  before : AgentWorld
  event : AgentEvent
  after : AgentWorld

/-- A run of the session with its moments in order. -/
inductive AgentTrace (cfg : AgentConfig) : List Moment → AgentWorld → Prop where
  | new : AgentTrace cfg [] .new
  | step {trace : List Moment} {w u : AgentWorld} {event : AgentEvent} :
      AgentTrace cfg trace w → w.step cfg event = some u →
      AgentTrace cfg (trace ++ [⟨w, event, u⟩]) u

namespace Moment

variable (m : Moment) (task : ℕ)

/-- The text of the steer that is answered with success for the prompt, if it renders. -/
def accepted : List String :=
  match m.event with
  | .readSteer prompt expectedRunId =>
      match m.before.steerTarget prompt expectedRunId with
      | .ok target => if target = task then (steerText prompt).toList else []
      | .error _ => []
  | _ => []

/-- The user items that the history gains while the prompt has it. -/
def appended : List String :=
  match m.before.tasks task, m.after.tasks task with
  | .running run, .running next =>
      if run.history <+: next.history then userTexts (next.history.drop run.history.length) else []
  | _, _ => []

/-- The prompt found its queue empty at the top of a round and goes on with the round. -/
def boundary : Bool :=
  match m.before.tasks task, m.after.tasks task with
  | .running run, .running next => run.pc == .drain && next.pc == .gate
  | _, _ => false

end Moment

/-- Some steer that the prompt was given has no round boundary of the prompt behind it. -/
def Waits (task : ℕ) : List Moment → Prop
  | [] => False
  | m :: later =>
      (m.accepted task ≠ [] ∧ ∀ n ∈ later, n.boundary task = false) ∨ Waits task later

instance Waits.decidable (task : ℕ) : (trace : List Moment) → Decidable (Waits task trace)
  | [] => inferInstanceAs (Decidable False)
  | _ :: later => @instDecidableOr _ _ _ (Waits.decidable task later)

/-- From any moment on, the history gains a user item for each steer that is accepted, in their
order. -/
def SteersAppended (task : ℕ) (trace : List Moment) : Prop :=
  ∀ later ∈ trace.tails,
    (later.flatMap (·.accepted task)).Sublist (later.flatMap (·.appended task))

/-- The moments of the events with the state after them. -/
def AgentWorld.moments (cfg : AgentConfig) (w : AgentWorld) :
    List AgentEvent → Option (List Moment × AgentWorld)
  | [] => some ([], w)
  | event :: rest =>
      (w.step cfg event).bind fun u =>
        (u.moments cfg rest).map fun run => (⟨w, event, u⟩ :: run.1, run.2)

theorem AgentTrace.moments {trace later : List Moment} {events : List AgentEvent}
    (htrace : AgentTrace cfg trace w) (h : w.moments cfg events = some (later, u)) :
    AgentTrace cfg (trace ++ later) u := by
  induction events generalizing w trace later with
  | nil =>
      cases h
      rw [List.append_nil]
      exact htrace
  | cons event rest ih =>
      obtain ⟨v, hstep, hrest⟩ := Option.bind_eq_some_iff.mp h
      obtain ⟨⟨moments, last⟩, hmoments, heq⟩ := Option.map_eq_some_iff.mp hrest
      cases heq
      rw [List.append_cons]
      exact ih (.step htrace hstep) hmoments

end Traces

section Steps

variable {progress : Progress} {input : RunInput}

/-- The run of a step that leaves the queue alone. -/
structure SameSteers (run next : RunState) : Prop where
  accepted : next.accepted = run.accepted
  pickedUp : next.pickedUp = run.pickedUp
  steers : next.steers = run.steers

theorem SameSteers.kept {next : RunState} (h : SameSteers run next) (hkept : run.SteersKept) :
    next.SteersKept := by
  unfold RunState.SteersKept
  rw [h.accepted, h.pickedUp, h.steers]
  exact hkept

theorem sameSteers_unlessCancelled (h : SameSteers run progress.state) :
    SameSteers run (run.unlessCancelled progress).state := by
  unfold RunState.unlessCancelled
  split_ifs
  · exact ⟨rfl, rfl, rfl⟩
  · exact h

theorem sameSteers_handleResponse (response : LlmResponse) :
    SameSteers run (run.handleResponse cfg response).state := by
  unfold RunState.handleResponse
  simp only
  split_ifs
  · exact ⟨rfl, rfl, rfl⟩
  · exact ⟨rfl, rfl, rfl⟩
  · exact ⟨rfl, rfl, rfl⟩
  · exact ⟨rfl, rfl, rfl⟩

theorem sameSteers_completed (result : Except AgentError LlmResponse) :
    SameSteers run (run.completed result).state := by
  unfold RunState.completed
  split
  · exact ⟨rfl, rfl, rfl⟩
  · split
    · exact ⟨rfl, rfl, rfl⟩
    · exact ⟨rfl, rfl, rfl⟩

theorem sameSteers_summarized (result : Except AgentError String) :
    SameSteers run (run.summarized cfg result) := by
  unfold RunState.summarized
  split
  · split_ifs
    · exact ⟨rfl, rfl, rfl⟩
    · exact ⟨rfl, rfl, rfl⟩
  · exact ⟨rfl, rfl, rfl⟩

theorem sameSteers_preflight {idx : ℕ} {ex : Execution} {known skillError : Bool}
    {skillContent : List ToolResultContent}
    (h : run.preflight idx ex known skillContent skillError = some progress) :
    SameSteers run progress.state := by
  obtain ⟨call, -, rfl⟩ := Option.map_eq_some_iff.mp h
  split_ifs
  · exact ⟨rfl, rfl, rfl⟩
  · exact ⟨rfl, rfl, rfl⟩
  · exact ⟨rfl, rfl, rfl⟩
  · exact ⟨rfl, rfl, rfl⟩

theorem sameSteers_joined {pending : List ℕ} {draining : Bool} {ex : Execution} {idx : ℕ}
    {outcome : InvokeOutcome}
    (h : run.joined pending draining ex idx outcome = some progress) :
    SameSteers run progress.state := by
  unfold RunState.joined at h
  split at h
  · obtain ⟨call, -, rfl⟩ := Option.map_eq_some_iff.mp h
    split_ifs
    · exact ⟨rfl, rfl, rfl⟩
    · exact ⟨rfl, rfl, rfl⟩
    · exact ⟨rfl, rfl, rfl⟩
  · cases h

theorem steersKept_drainSteers (hkept : run.SteersKept) : run.drainSteers.SteersKept := by
  unfold RunState.SteersKept at hkept ⊢
  cases hsteers : run.steers with
  | nil =>
      rw [hsteers] at hkept
      simp only [RunState.drainSteers, hsteers]
      exact hkept
  | cons blocks rest =>
      rw [hsteers] at hkept
      simp only [RunState.drainSteers, hsteers]
      rw [hkept, List.filterMap_cons]
      cases steerText blocks with
      | none => simp
      | some text => simp

/-- Only the steps at the top of a round touch the queue. -/
theorem sameSteers_step (hpc : run.pc ≠ .drain)
    (hstep : run.step cfg input = some progress) : SameSteers run progress.state := by
  cases stepped_of_step hstep with
  | begun prompt =>
      unfold RunState.begin
      split
      · exact ⟨rfl, rfl, rfl⟩
      · split_ifs
        · exact ⟨rfl, rfl, rfl⟩
        · exact ⟨rfl, rfl, rfl⟩
  | drained hdrain => exact absurd hdrain hpc
  | gated =>
      unfold RunState.maybeHandoff
      split_ifs
      · exact sameSteers_unlessCancelled ⟨rfl, rfl, rfl⟩
      · exact ⟨rfl, rfl, rfl⟩
  | checked => exact sameSteers_unlessCancelled ⟨rfl, rfl, rfl⟩
  | summarized result => exact sameSteers_unlessCancelled (sameSteers_summarized result)
  | requested => exact sameSteers_unlessCancelled ⟨rfl, rfl, rfl⟩
  | completed result => exact sameSteers_unlessCancelled (sameSteers_completed result)
  | responded response => exact sameSteers_handleResponse response
  | objected outputs =>
      unfold RunState.handleObjections
      split_ifs
      · exact ⟨rfl, rfl, rfl⟩
      · exact ⟨rfl, rfl, rfl⟩
  | preflight _ hcall => exact sameSteers_preflight hcall
  | joined _ hjoined => exact sameSteers_joined hjoined
  | settled =>
      unfold RunState.finishCalls
      simp only
      split_ifs
      · exact ⟨rfl, rfl, rfl⟩
      · exact ⟨rfl, rfl, rfl⟩
  | _ => exact ⟨rfl, rfl, rfl⟩

/-- The next step of a run that looks at its queue. -/
theorem step_of_drain (hpc : run.pc = .drain)
    (hstep : run.step cfg input = some progress) : progress = .next run.drainSteers := by
  unfold RunState.step at hstep
  rw [hpc] at hstep
  cases input with
  | go => exact (Option.some_inj.mp hstep).symm
  | _ => cases hstep

theorem steersKept_step (hkept : run.SteersKept)
    (hstep : run.step cfg input = some progress) : progress.state.SteersKept := by
  by_cases hpc : run.pc = .drain
  · rw [step_of_drain hpc hstep]
    exact steersKept_drainSteers hkept
  · exact (sameSteers_step hpc hstep).kept hkept

theorem steersKept_accept (prompt : List ContentBlock) (hkept : run.SteersKept) :
    ({ run with steers := run.steers ++ [prompt], accepted := run.accepted ++ [prompt] } :
      RunState).SteersKept := by
  unfold RunState.SteersKept at hkept ⊢
  simp only [List.filterMap_append, hkept, List.append_assoc]

end Steps

section Following

variable {trace : List Moment} {m : Moment}

theorem waits_snoc : Waits task (trace ++ [m]) ↔
    m.accepted task ≠ [] ∨ Waits task trace ∧ m.boundary task = false := by
  induction trace with
  | nil => simp [Waits]
  | cons first rest ih =>
      simp only [List.cons_append, Waits, ih, List.mem_append, List.mem_singleton]
      constructor
      · rintro (⟨hfirst, hrest⟩ | hlast | ⟨hwaits, hlast⟩)
        · exact .inr ⟨.inl ⟨hfirst, fun n hn => hrest n (.inl hn)⟩, hrest m (.inr rfl)⟩
        · exact .inl hlast
        · exact .inr ⟨.inr hwaits, hlast⟩
      · rintro (hlast | ⟨⟨hfirst, hrest⟩ | hwaits, hlast⟩)
        · exact .inr (.inl hlast)
        · refine .inl ⟨hfirst, fun n hn => ?_⟩
          rcases hn with hn | rfl
          · exact hrest n hn
          · exact hlast
        · exact .inr (.inr ⟨hwaits, hlast⟩)

/-- What the queue of a prompt tells of the moments that led to it. -/
structure Followed (task : ℕ) (trace : List Moment) (queue : List String) : Prop where
  appended : ∀ later ∈ trace.tails, ∃ picked : List String,
    picked.Sublist (later.flatMap (·.appended task)) ∧
      later.flatMap (·.accepted task) <:+ picked ++ queue
  waits : queue ≠ [] → Waits task trace

def RunState.queue (run : RunState) : List String :=
  run.steers.filterMap steerText

def AgentTask.Followed (task : ℕ) (trace : List Moment) : AgentTask → Prop
  | running run => Buzz.Followed task trace run.queue
  | returning _ run => Buzz.Followed task trace run.queue
  | finished _ run => Buzz.Followed task trace run.queue
  | _ => trace.flatMap (·.accepted task) = []

theorem mem_tails_snoc {later : List Moment} (h : later ∈ (trace ++ [m]).tails) :
    later = [] ∨ ∃ rest ∈ trace.tails, later = rest ++ [m] := by
  rw [List.mem_tails] at h
  rcases List.eq_nil_or_concat later with rfl | ⟨rest, last, rfl⟩
  · exact .inl rfl
  · rw [List.concat_eq_append] at h ⊢
    obtain ⟨before, hbefore⟩ := h
    rw [← List.append_assoc] at hbefore
    obtain ⟨rfl, hlast⟩ := List.append_inj' hbefore rfl
    obtain rfl := List.singleton_injective hlast
    exact .inr ⟨rest, (List.mem_tails _ _).mpr (List.suffix_append _ _), rfl⟩

/-- What a moment picks up and leaves queued is what was queued and what it brings. -/
theorem Followed.appended_snoc {queue next taken : List String} (h : Followed task trace queue)
    (htaken : taken.Sublist (m.appended task)) (hqueue : queue ++ m.accepted task = taken ++ next) :
    ∀ later ∈ (trace ++ [m]).tails, ∃ picked : List String,
      picked.Sublist (later.flatMap (·.appended task)) ∧
        later.flatMap (·.accepted task) <:+ picked ++ next := by
  intro later hlater
  rcases mem_tails_snoc hlater with rfl | ⟨rest, hrest, rfl⟩
  · exact ⟨[], List.nil_sublist _, List.nil_suffix⟩
  · obtain ⟨picked, hpicked, hsuffix⟩ := h.appended rest hrest
    refine ⟨picked ++ taken, ?_, ?_⟩
    · rw [List.flatMap_append, List.flatMap_singleton]
      exact hpicked.append htaken
    · rw [List.flatMap_append, List.flatMap_singleton, List.append_assoc, ← hqueue,
        ← List.append_assoc]
      exact (List.suffix_append_inj_of_length_eq rfl).mpr ⟨hsuffix, rfl⟩

/-- A moment that gives the run no steer and is no boundary of it. -/
theorem Followed.snoc {queue : List String} (h : Followed task trace queue)
    (haccepted : m.accepted task = []) (hboundary : m.boundary task = false) :
    Followed task (trace ++ [m]) queue where
  appended := h.appended_snoc (List.nil_sublist _) (by rw [haccepted]; exact List.append_nil _)
  waits hqueue := waits_snoc.mpr (.inr ⟨h.waits hqueue, hboundary⟩)

theorem AgentTask.Followed.snoc {state : AgentTask} (h : state.Followed task trace)
    (haccepted : m.accepted task = []) (hboundary : m.boundary task = false) :
    state.Followed task (trace ++ [m]) := by
  have hnone (hbefore : trace.flatMap (·.accepted task) = []) :
      (trace ++ [m]).flatMap (·.accepted task) = [] := by
    rw [List.flatMap_append, List.flatMap_singleton, hbefore, haccepted, List.append_nil]
  cases state with
  | running run | returning result run | finished result run =>
      exact Buzz.Followed.snoc h haccepted hboundary
  | absent | waiting prompt | rejected => exact hnone h

/-- A prompt that was given no steer yet starts with an empty queue. -/
theorem followed_nil (h : trace.flatMap (·.accepted task) = []) : Followed task trace [] where
  appended later hlater := by
    refine ⟨[], List.nil_sublist _, ?_⟩
    obtain ⟨before, rfl⟩ := (List.mem_tails _ _).mp hlater
    rw [List.flatMap_append, List.append_eq_nil_iff] at h
    rw [h.2]
    exact List.nil_suffix
  waits hqueue := absurd rfl hqueue

theorem boundary_eq_true (h : m.boundary task = true) : ∃ run next,
    m.before.tasks task = .running run ∧ m.after.tasks task = .running next ∧
      run.pc = .drain ∧ next.pc = .gate := by
  unfold Moment.boundary at h
  split at h
  · rename_i run next hrun hnext
    rw [Bool.and_eq_true, beq_iff_eq, beq_iff_eq] at h
    exact ⟨run, next, hrun, hnext, h.1, h.2⟩
  · cases h

/-- A steer that renders leaves the queue as a user item. -/
theorem Followed.picked {queue : List String} {text : Option String}
    (h : Followed task trace (text.toList ++ queue)) (haccepted : m.accepted task = [])
    (happended : m.appended task = text.toList) (hboundary : m.boundary task = false) :
    Followed task (trace ++ [m]) queue where
  appended := by
    refine h.appended_snoc ?_ (by rw [haccepted, List.append_nil])
    rw [happended]
  waits hqueue :=
    waits_snoc.mpr (.inr ⟨h.waits (List.append_ne_nil_of_right_ne_nil _ hqueue), hboundary⟩)

/-- At a boundary nothing is queued. -/
theorem Followed.bounded (h : Followed task trace []) (haccepted : m.accepted task = []) :
    Followed task (trace ++ [m]) [] where
  appended := h.appended_snoc (List.nil_sublist _) (by rw [haccepted])
  waits hqueue := absurd rfl hqueue

/-- A steer that is accepted waits until the next boundary. -/
theorem Followed.steered {queue : List String} {text : Option String}
    (h : Followed task trace queue) (haccepted : m.accepted task = text.toList)
    (hboundary : m.boundary task = false) :
    Followed task (trace ++ [m]) (queue ++ text.toList) where
  appended := h.appended_snoc (List.nil_sublist _) (by rw [haccepted, List.nil_append])
  waits hqueue := by
    rw [waits_snoc, haccepted]
    cases text with
    | some text => exact .inl (List.cons_ne_nil _ _)
    | none => exact .inr ⟨h.waits (by simpa using hqueue), hboundary⟩

/-- The prompt looks at its queue. -/
theorem Followed.drained (h : Followed task trace run.queue) (hpc : run.pc = .drain)
    (hbefore : m.before.tasks task = .running run)
    (hafter : m.after.tasks task = .running run.drainSteers) (haccepted : m.accepted task = []) :
    Followed task (trace ++ [m]) run.drainSteers.queue := by
  cases hsteers : run.steers with
  | nil =>
      have hqueue : run.queue = [] := by rw [RunState.queue, hsteers]; rfl
      have hdrained : run.drainSteers.queue = [] := by
        simp only [RunState.queue, RunState.drainSteers, hsteers, List.filterMap_nil]
      rw [hdrained]
      rw [hqueue] at h
      exact h.bounded haccepted
  | cons blocks rest =>
      have hdrained : run.drainSteers = { run with
          steers := rest
          history := run.history ++ ((steerText blocks).map .user).toList
          pickedUp := run.pickedUp ++ (steerText blocks).toList } := by
        simp only [RunState.drainSteers, hsteers]
      have hboundary : m.boundary task = false := by
        simp only [Moment.boundary, hbefore, hafter, hdrained, hpc]
        rfl
      have happended : m.appended task = (steerText blocks).toList := by
        simp only [Moment.appended, hbefore, hafter, hdrained, List.prefix_append, if_true,
          List.drop_left]
        cases steerText blocks with
        | none => rfl
        | some text => rfl
      have hqueue : run.queue = (steerText blocks).toList ++ rest.filterMap steerText := by
        rw [RunState.queue, hsteers, List.filterMap_cons]
        cases steerText blocks with
        | none => rfl
        | some text => rfl
      rw [hqueue] at h
      rw [show run.drainSteers.queue = rest.filterMap steerText by rw [RunState.queue, hdrained]]
      exact h.picked haccepted happended hboundary

end Following

section Prompts

variable {trace : List Moment}

theorem tasks_setTask_self {state : AgentTask} : (w.setTask task state).tasks task = state :=
  Function.update_self ..

theorem tasks_setTask_of_ne {other : ℕ} {state : AgentTask} (h : other ≠ task) :
    (w.setTask task state).tasks other = w.tasks other :=
  Function.update_of_ne h ..

theorem not_boundary {m : Moment} (h : ∀ run next, m.before.tasks task = .running run →
    m.after.tasks task = .running next → next.pc = run.pc ∨ run.pc ≠ .drain) :
    m.boundary task = false := by
  rw [Bool.eq_false_iff]
  intro hboundary
  obtain ⟨run, next, hrun, hnext, hdrain, hgate⟩ := boundary_eq_true hboundary
  rcases h run next hrun hnext with hsame | hpc
  · rw [hsame, hdrain] at hgate
    cases hgate
  · exact hpc hdrain

/-- A step of the prompt that has the history. -/
theorem followed_advanced {input : RunInput} {progress : Progress}
    (h : (w.tasks task).Followed task trace) (hrunning : w.tasks task = .running run)
    (hstep : run.step cfg input = some progress) :
    ((w.progress task progress).tasks task).Followed task
      (trace ++ [⟨w, .advance task input, w.progress task progress⟩]) := by
  rw [hrunning] at h
  by_cases hpc : run.pc = .drain
  · obtain rfl := step_of_drain hpc hstep
    rw [show (w.progress task (.next run.drainSteers)).tasks task = .running run.drainSteers
      from tasks_setTask_self]
    exact Followed.drained h hpc hrunning tasks_setTask_self rfl
  · have hqueue : progress.state.queue = run.queue := by
      rw [RunState.queue, (sameSteers_step hpc hstep).steers, RunState.queue]
    have hsnoc : Followed task (trace ++ [⟨w, .advance task input, w.progress task progress⟩])
        progress.state.queue := by
      rw [hqueue]
      refine Followed.snoc h rfl (not_boundary fun before after hbefore _ => .inr ?_)
      rw [hrunning] at hbefore
      cases hbefore
      exact hpc
    cases progress with
    | next run =>
        rw [show (w.progress task (.next run)).tasks task = .running run from tasks_setTask_self]
        exact hsnoc
    | issue request run =>
        rw [show (w.progress task (.issue request run)).tasks task = .running run
          from tasks_setTask_self]
        exact hsnoc
    | done result run =>
        rw [show (w.progress task (.done result run)).tasks task = .returning result run
          from tasks_setTask_self]
        exact hsnoc

/-- A cancel and a steer change the run of a prompt, not where it stands. -/
theorem AgentTask.pc_modifyRun {state : AgentTask} {f : RunState → RunState} {next : RunState}
    (hrun : state = .running run) (hnext : state.modifyRun f = .running next)
    (hf : ∀ run, (f run).pc = run.pc) : next.pc = run.pc := by
  subst hrun
  cases hnext
  exact hf run

theorem AgentTask.Followed.modifyRun {state : AgentTask} {f : RunState → RunState}
    (h : state.Followed task trace) (hf : ∀ run, (f run).queue = run.queue) :
    (state.modifyRun f).Followed task trace := by
  cases state with
  | running run | returning result run => exact (congrArg (Buzz.Followed task trace) (hf run)).mpr h
  | _ => exact h

theorem followed_steered {prompt : List ContentBlock} {expectedRunId : String}
    (h : (w.tasks task).Followed task trace)
    (htarget : w.steerTarget prompt expectedRunId = .ok task) {u : AgentWorld}
    (hafter : u.tasks task = (w.tasks task).modifyRun fun run =>
      { run with steers := run.steers ++ [prompt], accepted := run.accepted ++ [prompt] }) :
    (u.tasks task).Followed task (trace ++ [⟨w, .readSteer prompt expectedRunId, u⟩]) := by
  obtain ⟨-, run, hholding⟩ := steerTarget_holding htarget
  have haccepted : Moment.accepted ⟨w, .readSteer prompt expectedRunId, u⟩ task =
      (steerText prompt).toList := by
    simp only [Moment.accepted, htarget, if_true]
  have hboundary : Moment.boundary ⟨w, .readSteer prompt expectedRunId, u⟩ task = false :=
    not_boundary fun before after hbefore hrun =>
      .inl (AgentTask.pc_modifyRun hbefore (hafter.symm.trans hrun) fun _ => rfl)
  have hqueue (run : RunState) : ({ run with
      steers := run.steers ++ [prompt], accepted := run.accepted ++ [prompt] } : RunState).queue =
      run.queue ++ (steerText prompt).toList := by
    unfold RunState.queue
    rw [List.filterMap_append]
    cases htext : steerText prompt <;> simp [htext]
  rw [hafter]
  cases hstate : w.tasks task with
  | running run | returning result run =>
      rw [hstate] at h
      have hsteered := Followed.steered h haccepted hboundary
      rw [← hqueue] at hsteered
      exact hsteered
  | _ =>
      rw [hstate] at hholding
      cases hholding

/-- Every state of every prompt is followed. -/
theorem followed_of_trace (htrace : AgentTrace cfg trace w) :
    ∀ task, (w.tasks task).Followed task trace := by
  induction htrace with
  | new => exact fun _ => rfl
  | @step trace w u event _ hstep ih =>
      intro t
      -- a prompt that the event leaves alone and gives no steer
      have hsame (htask : u.tasks t = w.tasks t)
          (haccepted : Moment.accepted ⟨w, event, u⟩ t = []) :
          (u.tasks t).Followed t (trace ++ [⟨w, event, u⟩]) := by
        rw [htask]
        refine (ih t).snoc haccepted (not_boundary fun before after hbefore hafter => .inl ?_)
        rw [show u.tasks t = w.tasks t from htask, hbefore] at hafter
        cases hafter
        rfl
      cases happened_of_step hstep with
      | @prompt target prompt habsent =>
          by_cases ht : t = target
          · subst ht
            have hbefore := ih t
            rw [habsent] at hbefore
            rw [tasks_setTask_self]
            have hwaits : (AgentTask.waiting prompt).Followed t trace := hbefore
            refine hwaits.snoc rfl (not_boundary fun before after hb _ => ?_)
            rw [habsent] at hb
            cases hb
          · exact hsame (tasks_setTask_of_ne ht) rfl
      | cancel =>
          rcases tasks_cancelSession w t with hkept | hmodified
          · exact hsame hkept rfl
          · rw [hmodified]
            refine AgentTask.Followed.snoc ((ih t).modifyRun fun _ => rfl) (m := ⟨w, _, _⟩) rfl
              (not_boundary fun before after hb ha => .inl ?_)
            exact AgentTask.pc_modifyRun hb (hmodified.symm.trans ha) fun _ => rfl
      | @steer target run prompt expectedRunId htarget hholding =>
          by_cases ht : t = target
          · subst ht
            exact followed_steered (ih t) htarget tasks_setTask_self
          · refine hsame (tasks_setTask_of_ne ht) ?_
            simp only [Moment.accepted, htarget, if_neg (Ne.symm ht)]
      | refused prompt expectedRunId herror =>
          refine hsame rfl ?_
          obtain ⟨e, he⟩ := herror
          simp only [Moment.accepted, he]
      | @rejected target prompt runId hwaiting =>
          by_cases ht : t = target
          · subst ht
            have hbefore := ih t
            rw [hwaiting] at hbefore
            rw [tasks_setTask_self]
            have hrejected : AgentTask.rejected.Followed t trace := hbefore
            refine hrejected.snoc rfl (not_boundary fun before after hb _ => ?_)
            rw [hwaiting] at hb
            cases hb
          · exact hsame (tasks_setTask_of_ne ht) rfl
      | @acquired target prompt runId hwaiting =>
          by_cases ht : t = target
          · subst ht
            have hbefore := ih t
            rw [hwaiting] at hbefore
            let m : Moment := ⟨w, .acquire t runId, w.takeSession t prompt runId⟩
            have hnone : (trace ++ [m]).flatMap (·.accepted t) = [] := by
              rw [List.flatMap_append, show trace.flatMap (·.accepted t) = [] from hbefore]
              rfl
            rw [show (w.takeSession t prompt runId).tasks t = .running (w.session.freshRun prompt)
              from Function.update_self ..]
            exact followed_nil hnone
          · exact hsame (Function.update_of_ne ht ..) rfl
      | @advanced target run input progress hrunning hprogress =>
          by_cases ht : t = target
          · subst ht
            exact followed_advanced (ih t) hrunning hprogress
          · have hother : (w.progress target progress).tasks t = w.tasks t := by
              cases progress <;> exact Function.update_of_ne ht ..
            exact hsame hother rfl
      | @released target run result hreturning =>
          by_cases ht : t = target
          · subst ht
            have hbefore := ih t
            rw [hreturning] at hbefore
            rw [show (w.releaseSession t result run).tasks t = .finished result run
              from Function.update_self ..]
            refine Buzz.Followed.snoc hbefore rfl (not_boundary fun before after hb _ => ?_)
            rw [hreturning] at hb
            cases hb
          · exact hsame (Function.update_of_ne ht ..) rfl

/-- In a run where a round boundary of the prompt follows each steer that it was given, every one of
them is in the history by the end of the prompt. -/
theorem steer_kept {result : Except AgentError StopReason} (htrace : AgentTrace cfg trace w)
    (hfinished : w.tasks task = .finished result run) (hboundary : ¬Waits task trace) :
    SteersAppended task trace := by
  have hfollowed := followed_of_trace htrace task
  rw [hfinished] at hfollowed
  have hqueue : run.queue = [] := by
    by_contra hleft
    exact hboundary (Followed.waits hfollowed hleft)
  intro later hlater
  obtain ⟨picked, hpicked, hsuffix⟩ := Followed.appended hfollowed later hlater
  rw [hqueue, List.append_nil] at hsuffix
  exact hsuffix.sublist.trans hpicked

/-- The steer arrives before the first round, so it is picked up there. -/
def steeredInTime : List AgentEvent :=
  [.readPrompt 0 [.text "hi"], .acquire 0 "run_1", .advance 0 .go,
    .readSteer [.text "be brief"] "run_1", .advance 0 .go, .advance 0 .go, .advance 0 .go,
    .advance 0 .go, .advance 0 .go, .advance 0 .go,
    .advance 0 (.completion (.ok ⟨"done", [], .endTurn, none⟩)), .advance 0 .go,
    .advance 0 (.hooks []), .release 0]

theorem steer_kept_inTime : ∃ trace w result run, AgentTrace .default trace w ∧
    w.tasks 0 = .finished result run ∧ trace.flatMap (·.accepted 0) = ["be brief"] ∧
    trace.flatMap (·.appended 0) = ["hi", "be brief"] ∧ SteersAppended 0 trace := by
  obtain ⟨⟨trace, w⟩, hmoments⟩ := Option.isSome_iff_exists.mp
    (rfl : (AgentWorld.new.moments .default steeredInTime).isSome = true)
  have htrace := AgentTrace.new.moments hmoments
  obtain ⟨result, run, hfinished⟩ : ∃ result run, w.tasks 0 = .finished result run := by
    cases hmoments
    exact ⟨_, _, rfl⟩
  have hboundary : ¬Waits 0 trace := by
    cases hmoments
    exact of_decide_eq_false rfl
  obtain ⟨haccepted, happended⟩ : trace.flatMap (·.accepted 0) = ["be brief"] ∧
      trace.flatMap (·.appended 0) = ["hi", "be brief"] := by
    cases hmoments
    exact ⟨rfl, by decide +kernel⟩
  exact ⟨trace, w, result, run, htrace, hfinished, haccepted, happended,
    steer_kept htrace hfinished hboundary⟩

/-- The steer arrives while the model writes its last answer. -/
def steeredLate : List AgentEvent :=
  [.readPrompt 0 [.text "hi"], .acquire 0 "run_1", .advance 0 .go, .advance 0 .go, .advance 0 .go,
    .advance 0 .go, .advance 0 .go, .advance 0 .go, .readSteer [.text "be brief"] "run_1",
    .advance 0 (.completion (.ok ⟨"done", [], .endTurn, none⟩)), .advance 0 .go,
    .advance 0 (.hooks []), .release 0]

theorem steer_lost : ∃ trace w result run, AgentTrace .default trace w ∧
    w.tasks 0 = .finished result run ∧ trace.flatMap (·.accepted 0) = ["be brief"] ∧
    trace.flatMap (·.appended 0) = ["hi"] ∧ ¬SteersAppended 0 trace := by
  obtain ⟨⟨trace, w⟩, hmoments⟩ := Option.isSome_iff_exists.mp
    (rfl : (AgentWorld.new.moments .default steeredLate).isSome = true)
  have htrace := AgentTrace.new.moments hmoments
  obtain ⟨result, run, hfinished⟩ : ∃ result run, w.tasks 0 = .finished result run := by
    cases hmoments
    exact ⟨_, _, rfl⟩
  obtain ⟨haccepted, happended⟩ : trace.flatMap (·.accepted 0) = ["be brief"] ∧
      trace.flatMap (·.appended 0) = ["hi"] := by
    cases hmoments
    exact ⟨rfl, by decide +kernel⟩
  refine ⟨trace, w, result, run, htrace, hfinished, haccepted, happended, fun hkept => ?_⟩
  have hall := hkept trace ((List.mem_tails _ _).mpr List.suffix_rfl)
  rw [haccepted, happended] at hall
  exact absurd hall (by decide)

end Prompts
end Buzz
