import Buzz.HandoffPrompt

/-!
# One round of tool calls

The calls are announced one after the other, those of the registry run as tasks
behind a semaphore, and the results are joined, drained after a cancel, and filled
up. Each place that emits an update for a call is a step of its own, so that a
cancel or another task may come between any two.
-/

namespace Buzz

section Types

inductive CallStatus where
  | pending (title rawInput : String)
  | inProgress
  | completed (text : String) (isError : Bool)
  | failed (error : String)
  deriving DecidableEq, Repr

namespace CallStatus

def isPending : CallStatus → Bool
  | pending _ _ => true
  | _ => false

def isTerminal : CallStatus → Bool
  | completed _ _ => true
  | failed _ => true
  | _ => false

end CallStatus

/-- An update on the wire. `index` is the place of its call in the round. -/
structure ToolCallUpdate where
  index : ℕ
  toolCallId : String
  status : CallStatus
  deriving DecidableEq, Repr

inductive TaskState where
  | idle
  | queued
  | admitted
  | running
  | ended (outcome : InvokeOutcome)
  | crashed
  | joined
  deriving DecidableEq, Repr

/-- Where the task that executes the calls stands. -/
inductive RoundPhase where
  | preflight (idx : ℕ)
  | announced (idx : ℕ)
  | loadingSkill (idx : ℕ)
  | abandoning (idx filled : ℕ)
  | spawning (remaining : List ℕ)
  | joining
  | draining
  | filling (remaining : List ℕ)
  | finished
  deriving DecidableEq, Repr

structure ToolRound where
  ex : Execution
  phase : RoundPhase
  cancelled : Bool
  semaphoreClosed : Bool
  tasks : ℕ → TaskState
  updates : List ToolCallUpdate
  appended : List HistoryItem

inductive RoundEvent where
  | cancel
  | go
  | registry (known : Bool)
  | skill (content : List ToolResultContent) (isError : Bool)
  | permit (idx : ℕ)
  | refuse (idx : ℕ)
  | start (idx : ℕ)
  | finish (idx : ℕ) (outcome : InvokeOutcome)
  | crash (idx : ℕ)
  | join (idx : ℕ)

end Types

/-- The last update of a call that ends with this outcome. -/
def terminalStatus (call : ToolCall) : InvokeOutcome → CallStatus
  | .done content isError => .completed (ToolResult.text ⟨call.providerId, content, isError⟩)
      isError
  | .failed msg => .failed msg

namespace ToolRound

def begin (calls : List ToolCall) : ToolRound where
  ex := .start calls
  phase := .preflight 0
  cancelled := false
  semaphoreClosed := false
  tasks := fun _ => .idle
  updates := []
  appended := []

variable (limit : ℕ) (r : ToolRound)

def emit (idx : ℕ) (call : ToolCall) (status : CallStatus) : ToolRound :=
  { r with updates := r.updates ++ [⟨idx, call.providerId, status⟩] }

def setTask (idx : ℕ) (state : TaskState) : ToolRound :=
  { r with tasks := Function.update r.tasks idx state }

def setResult (idx : ℕ) (result : ToolResult) : ToolRound :=
  { r with ex := r.ex.setResult idx result }

def toPhase (phase : RoundPhase) : ToolRound :=
  { r with phase := phase }

def result (idx : ℕ) : Option ToolResult :=
  (r.ex.results[idx]?).getD none

/-- The call ends with the outcome, and its slot gets the result. -/
def settle (idx : ℕ) (call : ToolCall) (outcome : InvokeOutcome) : ToolRound :=
  (r.emit idx call (terminalStatus call outcome)).setResult idx (outcomeToResult call outcome)

def allJoined : Bool :=
  r.ex.runnable.all fun idx => r.tasks idx = .joined

/-- The tasks that hold a permit of the semaphore. -/
def inFlight : ℕ :=
  r.ex.runnable.countP fun idx => r.tasks idx = .admitted ∨ r.tasks idx = .running

/-- A cancelled preflight fills every empty slot, but only an announced call gets an update. -/
def abandon (idx filled : ℕ) (call : ToolCall) : ToolRound :=
  let next := .abandoning idx (filled + 1)
  if (r.result filled).isSome then r.toPhase next
  else if filled < idx then (r.settle filled call (.failed "cancelled")).toPhase next
  else (r.setResult filled (syntheticToolResult call "cancelled")).toPhase next

def fill (idx : ℕ) (rest : List ℕ) (call : ToolCall) : ToolRound :=
  if (r.result idx).isSome then r.toPhase (.filling rest)
  else (r.settle idx call (.failed "cancelled")).toPhase (.filling rest)

def appendResults : ToolRound :=
  { r with appended := r.ex.appendResults, phase := .finished }

/-- The executing task goes on. -/
def go : Option ToolRound :=
  match r.phase with
  | .preflight idx =>
      match r.ex.calls[idx]? with
      | none => some (r.toPhase (.spawning r.ex.runnable))
      | some call =>
          if r.cancelled then some (r.toPhase (.abandoning idx 0))
          else some ((r.emit idx call (.pending call.name call.arguments)).toPhase (.announced idx))
  | .announced idx =>
      r.ex.calls[idx]?.bind fun call =>
        if call.name = loadSkillTool then
          some ((r.emit idx call .inProgress).toPhase (.loadingSkill idx))
        else none
  | .loadingSkill _ => none
  | .abandoning idx filled =>
      match r.ex.calls[filled]? with
      | none => some r.appendResults
      | some call => some (r.abandon idx filled call)
  | .spawning (idx :: rest) => some ((r.setTask idx .queued).toPhase (.spawning rest))
  | .spawning [] =>
      if r.cancelled then some { r with semaphoreClosed := true, phase := .draining }
      else some (r.toPhase .joining)
  | .joining =>
      if r.cancelled then some { r with semaphoreClosed := true, phase := .draining }
      else if r.allJoined then some (r.toPhase (.filling r.ex.runnable))
      else none
  | .draining => if r.allJoined then some (r.toPhase (.filling r.ex.runnable)) else none
  | .filling (idx :: rest) => r.ex.calls[idx]?.map (r.fill idx rest)
  | .filling [] => some r.appendResults
  | .finished => none

/-- The registry knows the announced call, which then waits to run, or it does not. -/
def registry (known : Bool) : Option ToolRound :=
  match r.phase with
  | .announced idx =>
      r.ex.calls[idx]?.bind fun call =>
        if call.name = loadSkillTool then none
        else if known then
          some { r with ex := { r.ex with runnable := r.ex.runnable ++ [idx] }
                        phase := .preflight (idx + 1) }
        else
          some ((r.settle idx call (.failed ("unknown tool: " ++ call.name))).toPhase
            (.preflight (idx + 1)))
  | _ => none

def skill (content : List ToolResultContent) (isError : Bool) : Option ToolRound :=
  match r.phase with
  | .loadingSkill idx =>
      r.ex.calls[idx]?.map fun call =>
        (r.settle idx call (.done content isError)).toPhase (.preflight (idx + 1))
  | _ => none

/-- The joined task leaves the set. Before the drain its result is stored in any case. -/
def storeJoined (idx : ℕ) (call : ToolCall) : Option ToolRound :=
  match r.tasks idx with
  | .ended outcome =>
      if r.phase = .draining ∧ (r.result idx).isSome then some (r.setTask idx .joined)
      else some ((r.setTask idx .joined).setResult idx (outcomeToResult call outcome))
  | .crashed => some (r.setTask idx .joined)
  | _ => none

def join (idx : ℕ) : Option ToolRound :=
  if r.phase = .joining ∧ r.cancelled = false ∨ r.phase = .draining then
    r.ex.calls[idx]?.bind (r.storeJoined idx)
  else none

/-- What the task of a call does, if it stands there. -/
def taskStep (idx : ℕ) (state : TaskState) (next : ToolCall → ToolRound) : Option ToolRound :=
  if r.tasks idx = state then r.ex.calls[idx]?.map next else none

def step : RoundEvent → Option ToolRound
  | .cancel => if r.cancelled then none else some { r with cancelled := true }
  | .go => r.go
  | .registry known => r.registry known
  | .skill content isError => r.skill content isError
  | .permit idx =>
      if r.semaphoreClosed = false ∧ r.inFlight < max limit 1 then
        r.taskStep idx .queued fun _ => r.setTask idx .admitted
      else none
  | .refuse idx =>
      if r.semaphoreClosed then
        r.taskStep idx .queued fun call =>
          (r.emit idx call (.failed "cancelled")).setTask idx (.ended (.failed "cancelled"))
      else none
  | .start idx =>
      r.taskStep idx .admitted fun call => (r.emit idx call .inProgress).setTask idx .running
  | .finish idx outcome =>
      r.taskStep idx .running fun call =>
        (r.emit idx call (terminalStatus call outcome)).setTask idx (.ended outcome)
  | .crash idx => r.taskStep idx .running fun _ => r.setTask idx .crashed
  | .join idx => r.join idx

end ToolRound

def ToolRound.steps (limit : ℕ) (r : ToolRound) : List RoundEvent → Option ToolRound
  | [] => some r
  | event :: rest => (r.step limit event).bind fun next => next.steps limit rest

/-- The states of a round for these calls, whatever the order of its events. -/
inductive InRound (limit : ℕ) (calls : List ToolCall) : ToolRound → Prop where
  | start : InRound limit calls (.begin calls)
  | step {r s : ToolRound} {event : RoundEvent} : InRound limit calls r →
      r.step limit event = some s → InRound limit calls s

section Views

/-- What the round holds for one call. -/
structure CallView where
  result : Option ToolResult
  task : TaskState
  announced : Bool
  ends : List CallStatus

namespace ToolRound

variable (r : ToolRound) (i : ℕ)

/-- The terminal updates of the call. -/
def ends : List CallStatus :=
  (r.updates.filter fun u => u.index = i && u.status.isTerminal).map ToolCallUpdate.status

def announcedAt : Bool :=
  r.updates.any fun u => u.index = i && u.status.isPending

def view : CallView := ⟨r.result i, r.tasks i, r.announcedAt i, r.ends i⟩

end ToolRound

variable {r : ToolRound} {i idx : ℕ} {call : ToolCall} {status : CallStatus}
  {outcome : InvokeOutcome}

theorem view_toPhase (i : ℕ) (phase : RoundPhase) : (r.toPhase phase).view i = r.view i := rfl

theorem view_setTask_self (state : TaskState) :
    (r.setTask i state).view i = ⟨r.result i, state, r.announcedAt i, r.ends i⟩ := by
  simp [ToolRound.view, ToolRound.setTask, ToolRound.result, ToolRound.announcedAt, ToolRound.ends]

theorem view_setTask_ne (h : i ≠ idx) (state : TaskState) :
    (r.setTask idx state).view i = r.view i := by
  simp [ToolRound.view, ToolRound.setTask, ToolRound.result, ToolRound.announcedAt, ToolRound.ends,
    Function.update_of_ne h]

theorem view_emit_self (call : ToolCall) (status : CallStatus) :
    (r.emit i call status).view i = ⟨r.result i, r.tasks i, r.announcedAt i || status.isPending,
      r.ends i ++ if status.isTerminal then [status] else []⟩ := by
  cases hterminal : status.isTerminal <;>
    simp [ToolRound.view, ToolRound.emit, ToolRound.result, ToolRound.announcedAt, ToolRound.ends,
      hterminal]

theorem view_emit_ne (h : i ≠ idx) (call : ToolCall) (status : CallStatus) :
    (r.emit idx call status).view i = r.view i := by
  simp [ToolRound.view, ToolRound.emit, ToolRound.result, ToolRound.announcedAt, ToolRound.ends,
    h.symm]

/-- A progress update neither announces nor ends a call. -/
theorem view_emit_inProgress (idx i : ℕ) (call : ToolCall) :
    (r.emit idx call .inProgress).view i = r.view i := by
  by_cases hi : i = idx
  · subst hi
    rw [view_emit_self]
    simp [CallStatus.isPending, CallStatus.isTerminal, ToolRound.view]
  · exact view_emit_ne hi call .inProgress

theorem view_setResult_self (h : i < r.ex.results.length) (result : ToolResult) :
    (r.setResult i result).view i = ⟨some result, r.tasks i, r.announcedAt i, r.ends i⟩ := by
  simp [ToolRound.view, ToolRound.setResult, ToolRound.result, ToolRound.announcedAt,
    ToolRound.ends, Execution.setResult, h]

theorem view_setResult_ne (h : i ≠ idx) (result : ToolResult) :
    (r.setResult idx result).view i = r.view i := by
  simp [ToolRound.view, ToolRound.setResult, ToolRound.result, ToolRound.announcedAt,
    ToolRound.ends, Execution.setResult, List.getElem?_set_ne h.symm]

theorem isTerminal_terminalStatus (call : ToolCall) (outcome : InvokeOutcome) :
    (terminalStatus call outcome).isTerminal = true ∧
    (terminalStatus call outcome).isPending = false := by
  cases outcome <;> exact ⟨rfl, rfl⟩

theorem view_settle_self (h : i < r.ex.results.length) (call : ToolCall) (outcome : InvokeOutcome) :
    (r.settle i call outcome).view i = ⟨some (outcomeToResult call outcome), r.tasks i,
      r.announcedAt i, r.ends i ++ [terminalStatus call outcome]⟩ := by
  obtain ⟨hterminal, hpending⟩ := isTerminal_terminalStatus call outcome
  have hemit := view_emit_self (r := r) (i := i) call (terminalStatus call outcome)
  rw [hterminal, hpending, Bool.or_false] at hemit
  obtain ⟨-, -, hannounced, hends⟩ := CallView.mk.inj hemit
  unfold ToolRound.settle
  rw [view_setResult_self (r := r.emit i call (terminalStatus call outcome)) h, hannounced, hends]
  rfl

theorem view_settle_ne (h : i ≠ idx) (call : ToolCall) (outcome : InvokeOutcome) :
    (r.settle idx call outcome).view i = r.view i := by
  unfold ToolRound.settle
  rw [view_setResult_ne h, view_emit_ne h]

end Views

end Buzz
