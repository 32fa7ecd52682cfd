import Buzz.AgentLoop

/-!
# Prompts, cancels and steers of one session

The read loop spawns a task for each prompt and handles cancels and steers itself.
The task takes the session under its lock, runs the prompt with the history it
took and puts the history back at the end.
-/

namespace Buzz

structure AgentSession where
  busy : Bool
  activeRunId : Option String
  steerTx : Option ℕ
  cancelTx : Option ℕ
  history : List HistoryItem
  originalTask : Option String
  handoffCount : ℕ
  lastRequestInputTokens : Option ℕ
  lastRequestHistoryBytes : Option ℕ

inductive AgentTask where
  | absent
  | waiting (prompt : List ContentBlock)
  | rejected
  | running (run : RunState)
  | returning (result : Except AgentError StopReason) (run : RunState)
  | finished (result : Except AgentError StopReason) (run : RunState)

namespace AgentTask

/-- The prompt was read and has not been answered. -/
def unfinished : AgentTask → Bool
  | waiting _ => true
  | running _ => true
  | returning _ _ => true
  | _ => false

/-- The state of a task that holds the session. -/
def holding : AgentTask → Option RunState
  | running run => some run
  | returning _ run => some run
  | _ => none

/-- Changes the state of a task that holds the session. -/
def modifyRun (f : RunState → RunState) : AgentTask → AgentTask
  | running run => running (f run)
  | returning result run => returning result (f run)
  | task => task

end AgentTask

/-- The session and its prompts. `requests` holds what was sent to the model; `cancelRead` and
`requestsAfter` record, for each prompt, a cancel read before its end and the requests after it. -/
structure AgentWorld where
  session : AgentSession
  tasks : ℕ → AgentTask
  requests : List (ℕ × LlmRequest)
  cancelRead : ℕ → Bool
  requestsAfter : ℕ → ℕ

inductive AgentEvent where
  | readPrompt (task : ℕ) (prompt : List ContentBlock)
  | readCancel
  | readSteer (prompt : List ContentBlock) (expectedRunId : String)
  | acquire (task : ℕ) (runId : String)
  | advance (task : ℕ) (input : RunInput)
  | release (task : ℕ)

def AgentSession.new : AgentSession where
  busy := false
  activeRunId := none
  steerTx := none
  cancelTx := none
  history := []
  originalTask := none
  handoffCount := 0
  lastRequestInputTokens := none
  lastRequestHistoryBytes := none

/-- A run that starts with what the session holds. -/
def AgentSession.freshRun (session : AgentSession) (prompt : List ContentBlock) : RunState where
  pc := .start prompt
  history := session.history
  originalTask := session.originalTask
  handoffCount := session.handoffCount
  lastRequestInputTokens := session.lastRequestInputTokens
  lastRequestHistoryBytes := session.lastRequestHistoryBytes
  round := 0
  stopRejections := 0
  cancelled := false
  steers := []
  accepted := []
  pickedUp := []

def AgentWorld.new : AgentWorld where
  session := .new
  tasks := fun _ => .absent
  requests := []
  cancelRead := fun _ => false
  requestsAfter := fun _ => 0

namespace AgentWorld

variable (cfg : AgentConfig) (w : AgentWorld)

def setTask (task : ℕ) (state : AgentTask) : AgentWorld :=
  { w with tasks := Function.update w.tasks task state }

/-- A fresh cancel channel and a fresh steer channel for the prompt that takes the session. -/
def takeSession (task : ℕ) (prompt : List ContentBlock) (runId : String) : AgentWorld :=
  { w with
    session := { w.session with
      busy := true
      activeRunId := some runId
      steerTx := some task
      cancelTx := some task
      history := []
      originalTask := none }
    tasks := Function.update w.tasks task (.running (w.session.freshRun prompt)) }

def acquireSession (task : ℕ) (prompt : List ContentBlock) (runId : String) : AgentWorld :=
  if w.session.busy then w.setTask task .rejected else w.takeSession task prompt runId

def cancelSession : AgentWorld :=
  { w with
    tasks := match w.session.cancelTx with
      | none => w.tasks
      | some task =>
          Function.update w.tasks task
            ((w.tasks task).modifyRun fun run => { run with cancelled := true })
    cancelRead := fun task => w.cancelRead task || (w.tasks task).unfinished }

/-- The prompt that takes the steer, or why it is rejected. -/
def steerTarget (prompt : List ContentBlock) (expectedRunId : String) : Except String ℕ :=
  if prompt.isEmpty then .error "steer: prompt must not be empty"
  else if expectedRunId = "" then .error "steer: expectedRunId must not be empty"
  else
    match w.session.activeRunId with
    | none => .error "steer: no active run to steer"
    | some active =>
        if active ≠ expectedRunId then
          .error ("steer: expected active run id `" ++ expectedRunId ++ "` but found `" ++ active ++
            "`")
        else
          match w.session.steerTx with
          | none => .error "steer: no active run to steer"
          | some task =>
              if ((w.tasks task).holding).isSome then .ok task
              else .error "steer: no active run to steer"

def steerSession (prompt : List ContentBlock) (expectedRunId : String) : AgentWorld :=
  match w.steerTarget prompt expectedRunId with
  | .error _ => w
  | .ok task =>
      w.setTask task ((w.tasks task).modifyRun fun run =>
        { run with steers := run.steers ++ [prompt], accepted := run.accepted ++ [prompt] })

def logRequest (task : ℕ) (request : LlmRequest) : AgentWorld :=
  { w with
    requests := w.requests ++ [(task, request)]
    requestsAfter := if w.cancelRead task then
        Function.update w.requestsAfter task (w.requestsAfter task + 1)
      else w.requestsAfter }

def progress (task : ℕ) : Progress → AgentWorld
  | .next run => w.setTask task (.running run)
  | .issue request run => (w.logRequest task request).setTask task (.running run)
  | .done result run => w.setTask task (.returning result run)

def releaseSession (task : ℕ) (result : Except AgentError StopReason) (run : RunState) :
    AgentWorld :=
  { w with
    session := { w.session with
      busy := false
      activeRunId := none
      steerTx := none
      history := run.history
      originalTask := run.originalTask
      handoffCount := run.handoffCount
      lastRequestInputTokens := run.lastRequestInputTokens
      lastRequestHistoryBytes := run.lastRequestHistoryBytes }
    tasks := Function.update w.tasks task (.finished result run) }

def step : AgentEvent → Option AgentWorld
  | .readPrompt task prompt =>
      match w.tasks task with
      | .absent => some (w.setTask task (.waiting prompt))
      | _ => none
  | .readCancel => some w.cancelSession
  | .readSteer prompt expectedRunId => some (w.steerSession prompt expectedRunId)
  | .acquire task runId =>
      match w.tasks task with
      | .waiting prompt => some (w.acquireSession task prompt runId)
      | _ => none
  | .advance task input =>
      match w.tasks task with
      | .running run => (run.step cfg input).map (w.progress task)
      | _ => none
  | .release task =>
      match w.tasks task with
      | .returning result run => some (w.releaseSession task result run)
      | _ => none

end AgentWorld

/-- A run of the session in which `allowed` holds before every event. -/
inductive AgentRun (cfg : AgentConfig) (allowed : AgentWorld → AgentEvent → Prop) :
    AgentWorld → Prop where
  | new : AgentRun cfg allowed .new
  | step {w u : AgentWorld} {event : AgentEvent} : AgentRun cfg allowed w → allowed w event →
      w.step cfg event = some u → AgentRun cfg allowed u

/-- All events in order. -/
def AgentWorld.steps (cfg : AgentConfig) (w : AgentWorld) : List AgentEvent → Option AgentWorld
  | [] => some w
  | event :: rest => (w.step cfg event).bind fun u => u.steps cfg rest

theorem AgentRun.steps {cfg : AgentConfig} {allowed : AgentWorld → AgentEvent → Prop}
    {events : List AgentEvent} {w u : AgentWorld} (hw : AgentRun cfg allowed w)
    (hallowed : ∀ event ∈ events, ∀ v, allowed v event) (h : w.steps cfg events = some u) :
    AgentRun cfg allowed u := by
  induction events generalizing w with
  | nil =>
      obtain rfl := Option.some_inj.mp h
      exact hw
  | cons event rest ih =>
      obtain ⟨v, hstep, hrest⟩ := Option.bind_eq_some_iff.mp h
      have hfirst := hallowed event List.mem_cons_self w
      exact ih (.step hw hfirst hstep) (fun e he => hallowed e (List.mem_cons_of_mem _ he)) hrest

/-- The values that apply when no environment variable is set. -/
def AgentConfig.default : AgentConfig where
  maxRounds := 0
  stopMaxRejections := 3
  maxHandoffs := 10
  maxHistoryBytes := 16 * 1024 * 1024
  maxContextTokens := 200000
  maxOutputTokens := 32768

section Holding

/-- What one event does: it changes no run, one run, or starts or ends one. -/
inductive Happened (cfg : AgentConfig) (w : AgentWorld) : AgentEvent → AgentWorld → Prop where
  | prompt {task : ℕ} (prompt : List ContentBlock) : w.tasks task = .absent →
      Happened cfg w (.readPrompt task prompt) (w.setTask task (.waiting prompt))
  | cancel : Happened cfg w .readCancel w.cancelSession
  | steer {task : ℕ} {run : RunState} (prompt : List ContentBlock) (expectedRunId : String) :
      w.steerTarget prompt expectedRunId = .ok task → (w.tasks task).holding = some run →
      Happened cfg w (.readSteer prompt expectedRunId) (w.setTask task
        ((w.tasks task).modifyRun fun run =>
          { run with steers := run.steers ++ [prompt], accepted := run.accepted ++ [prompt] }))
  | refused (prompt : List ContentBlock) (expectedRunId : String) :
      (∃ e, w.steerTarget prompt expectedRunId = .error e) →
      Happened cfg w (.readSteer prompt expectedRunId) w
  | rejected {task : ℕ} (prompt : List ContentBlock) (runId : String) :
      w.tasks task = .waiting prompt →
      w.session.busy = true → Happened cfg w (.acquire task runId) (w.setTask task .rejected)
  | acquired {task : ℕ} (prompt : List ContentBlock) (runId : String) :
      w.tasks task = .waiting prompt → w.session.busy = false →
      Happened cfg w (.acquire task runId) (w.takeSession task prompt runId)
  | advanced {task : ℕ} {run : RunState} (input : RunInput) (progress : Progress) :
      w.tasks task = .running run → run.step cfg input = some progress →
      Happened cfg w (.advance task input) (w.progress task progress)
  | released {task : ℕ} {run : RunState} (result : Except AgentError StopReason) :
      w.tasks task = .returning result run → Happened cfg w (.release task)
        (w.releaseSession task result run)

variable {cfg : AgentConfig} {w u : AgentWorld} {task other : ℕ} {run run' : RunState}

theorem steerTarget_holding {prompt : List ContentBlock} {expectedRunId : String}
    (h : w.steerTarget prompt expectedRunId = .ok task) :
    w.session.steerTx = some task ∧ ∃ run, (w.tasks task).holding = some run := by
  unfold AgentWorld.steerTarget at h
  split_ifs at h
  split at h
  · cases h
  · split_ifs at h
    split at h
    · cases h
    · rename_i t htx
      split_ifs at h with hsome
      obtain rfl := Except.ok.inj h
      exact ⟨htx, Option.isSome_iff_exists.mp hsome⟩

/-- What holds of the task that is set and of the others holds of every task. -/
theorem forall_setTask {P : ℕ → AgentTask → Prop} {state : AgentTask} (hstate : P task state)
    (hothers : ∀ t, t ≠ task → P t (w.tasks t)) (t : ℕ) :
    P t ((w.setTask task state).tasks t) := by
  by_cases ht : t = task
  · subst ht
    have hself : (w.setTask t state).tasks t = state := Function.update_self ..
    rw [hself]
    exact hstate
  · have hsame : (w.setTask task state).tasks t = w.tasks t := Function.update_of_ne ht ..
    rw [hsame]
    exact hothers t ht

/-- A cancel touches at most the task whose channel the session has. -/
theorem tasks_cancelSession (w : AgentWorld) (task : ℕ) :
    w.cancelSession.tasks task = w.tasks task ∨ w.cancelSession.tasks task =
      (w.tasks task).modifyRun fun run => { run with cancelled := true } := by
  unfold AgentWorld.cancelSession
  cases htx : w.session.cancelTx with
  | none => exact Or.inl rfl
  | some target =>
      by_cases ht : task = target
      · subst ht
        exact Or.inr (Function.update_self ..)
      · exact Or.inl (Function.update_of_ne ht ..)

theorem happened_of_step {event : AgentEvent} (h : w.step cfg event = some u) :
    Happened cfg w event u := by
  cases event with
  | readPrompt task prompt =>
      simp only [AgentWorld.step] at h
      split at h
      · rename_i habsent
        obtain rfl := Option.some_inj.mp h
        exact .prompt prompt habsent
      · cases h
  | readCancel =>
      obtain rfl := Option.some_inj.mp h
      exact .cancel
  | readSteer prompt expectedRunId =>
      obtain rfl := Option.some_inj.mp h
      unfold AgentWorld.steerSession
      split
      · exact .refused prompt expectedRunId ⟨_, ‹_›⟩
      · rename_i task htarget
        obtain ⟨-, run, hrun⟩ := steerTarget_holding htarget
        exact .steer prompt expectedRunId htarget hrun
  | acquire task runId =>
      simp only [AgentWorld.step] at h
      split at h
      · rename_i prompt hwaiting
        obtain rfl := Option.some_inj.mp h
        unfold AgentWorld.acquireSession
        split_ifs with hbusy
        · exact .rejected prompt runId hwaiting hbusy
        · exact .acquired prompt runId hwaiting (Bool.eq_false_iff.mpr hbusy)
      · cases h
  | advance task input =>
      simp only [AgentWorld.step] at h
      split at h
      · rename_i run hrunning
        obtain ⟨progress, hstep, rfl⟩ := Option.map_eq_some_iff.mp h
        exact .advanced input progress hrunning hstep
      · cases h
  | release task =>
      simp only [AgentWorld.step] at h
      split at h
      · rename_i result run hreturning
        obtain rfl := Option.some_inj.mp h
        exact .released result hreturning
      · cases h

/-- At most one task holds the session, and its channels are the ones in use. -/
structure SessionHeld (w : AgentWorld) : Prop where
  held : ∀ task run, (w.tasks task).holding = some run →
    w.session.busy = true ∧ w.session.cancelTx = some task ∧ w.session.steerTx = some task
  free : w.session.busy = false → w.session.steerTx = none

theorem SessionHeld.unique (h : SessionHeld w) (htask : (w.tasks task).holding = some run)
    (hother : (w.tasks other).holding = some run') : other = task := by
  have h₁ := (h.held task run htask).2.1
  have h₂ := (h.held other run' hother).2.1
  exact Option.some.inj (h₂.symm.trans h₁)

theorem holding_modifyRun (state : AgentTask) (f : RunState → RunState) :
    (state.modifyRun f).holding = state.holding.map f := by
  cases state <;> rfl

/-- A change of tasks that lets no other task hold the session. -/
theorem SessionHeld.of_holding (h : SessionHeld w) (hsession : u.session = w.session)
    (hholding : ∀ task run, (u.tasks task).holding = some run →
      ∃ run', (w.tasks task).holding = some run') : SessionHeld u where
  held := by
    intro task run hrun
    obtain ⟨run', hrun'⟩ := hholding task run hrun
    rw [hsession]
    exact h.held task run' hrun'
  free := by
    rw [hsession]
    exact h.free

theorem SessionHeld.setTask (h : SessionHeld w) {state : AgentTask}
    (hstate : state.holding = none ∨ ∃ run, (w.tasks task).holding = some run) :
    SessionHeld (w.setTask task state) := by
  refine h.of_holding rfl (forall_setTask
    (P := fun t s => ∀ run, s.holding = some run → ∃ run, (w.tasks t).holding = some run) ?_
    fun t _ run hrun => ⟨run, hrun⟩)
  intro run hrun
  rcases hstate with hnone | hsome
  · rw [hnone] at hrun
    cases hrun
  · exact hsome

theorem SessionHeld.step {event : AgentEvent} (h : SessionHeld w)
    (hstep : w.step cfg event = some u) : SessionHeld u := by
  cases happened_of_step hstep with
  | prompt => exact h.setTask (Or.inl rfl)
  | cancel =>
      refine h.of_holding rfl ?_
      intro t run hrun
      rcases tasks_cancelSession w t with hsame | hmodified
      · rw [hsame] at hrun
        exact ⟨run, hrun⟩
      · rw [hmodified, holding_modifyRun] at hrun
        obtain ⟨run', hrun', -⟩ := Option.map_eq_some_iff.mp hrun
        exact ⟨run', hrun'⟩
  | steer _ _ _ hholding => exact h.setTask (Or.inr ⟨_, hholding⟩)
  | refused => exact h
  | rejected => exact h.setTask (Or.inl rfl)
  | @acquired task prompt runId _ hbusy =>
      constructor
      · intro t run hrun
        by_cases ht : t = task
        · subst ht
          exact ⟨rfl, rfl, rfl⟩
        · have hsame : (w.takeSession task prompt runId).tasks t = w.tasks t :=
            Function.update_of_ne ht ..
          rw [hsame] at hrun
          have hcontra := (h.held t run hrun).1
          rw [hbusy] at hcontra
          cases hcontra
      · intro hcontra
        cases hcontra
  | @advanced task run input progress hrunning =>
      have hsome : ∃ run, (w.tasks task).holding = some run := ⟨run, by rw [hrunning]; rfl⟩
      cases progress with
      | next => exact h.setTask (Or.inr hsome)
      | issue request =>
          have hlog : SessionHeld (w.logRequest task request) :=
            h.of_holding rfl fun t run hrun => ⟨run, hrun⟩
          exact hlog.setTask (Or.inr hsome)
      | done => exact h.setTask (Or.inr hsome)
  | @released task run result hreturning =>
      have hholding : (w.tasks task).holding = some run := by rw [hreturning]; rfl
      constructor
      · intro t run' hrun'
        by_cases ht : t = task
        · subst ht
          have hself : (w.releaseSession t result run).tasks t = .finished result run :=
            Function.update_self ..
          rw [hself] at hrun'
          cases hrun'
        · have hsame : (w.releaseSession task result run).tasks t = w.tasks t :=
            Function.update_of_ne ht ..
          rw [hsame] at hrun'
          exact absurd (h.unique hholding hrun') ht
      · intro _
        rfl

theorem sessionHeld_of_run {allowed : AgentWorld → AgentEvent → Prop}
    (hrun : AgentRun cfg allowed w) : SessionHeld w := by
  induction hrun with
  | new =>
      refine ⟨?_, fun _ => rfl⟩
      intro task run hholding
      cases hholding
  | step _ _ hstep ih => exact ih.step hstep

end Holding
end Buzz
