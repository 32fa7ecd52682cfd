import Buzz.AgentSession
import Buzz.ProviderBodies

/-!
# Calls and results stay paired

The history of a prompt is paired at every point of its loop but between an
assistant turn and the results of its calls, and no request is made there. The
slots of the round are filled under the identifiers of their calls, whether a
tool answers, fails, is unknown or is cancelled.
-/

namespace Buzz

variable {cfg : AgentConfig} {w u : AgentWorld} {task : ℕ} {run : RunState}

theorem paired_turn (text : String) (calls : List ToolCall) (results : List ToolResult)
    (hids : results.map ToolResult.providerId = calls.map ToolCall.providerId) :
    Paired (.assistant text calls :: results.map .toolResult) := by
  have hturn := Paired.turn text hids .nil
  rw [List.append_nil] at hturn
  exact hturn

section Slots

variable {ex : Execution}

/-- There is a slot for each call, and a result in it is the result of that call. -/
structure Execution.Sound (ex : Execution) : Prop where
  length : ex.results.length = ex.calls.length
  ids : ∀ (i : ℕ) (call : ToolCall) (result : ToolResult), ex.calls[i]? = some call →
    ex.results[i]? = some (some result) → result.providerId = call.providerId

theorem sound_start (calls : List ToolCall) : (Execution.start calls).Sound where
  length := List.length_replicate
  ids := by
    intro i call result _ hresult
    have hmem := List.mem_of_getElem? hresult
    cases (List.mem_replicate.mp hmem).2

theorem Execution.Sound.setResult (h : ex.Sound) {idx : ℕ} {call : ToolCall} {result : ToolResult}
    (hcall : ex.calls[idx]? = some call) (hid : result.providerId = call.providerId) :
    (ex.setResult idx result).Sound where
  length := (List.length_set ..).trans h.length
  ids := by
    intro i call' result' hcall' hresult'
    change (ex.results.set idx (some result))[i]? = _ at hresult'
    by_cases hi : idx = i
    · subst hi
      obtain rfl := Option.some.inj (hcall.symm.trans hcall')
      obtain ⟨_, hsome⟩ := List.getElem?_eq_some_iff.mp hresult'
      rw [List.getElem_set_self] at hsome
      obtain rfl := Option.some.inj hsome
      exact hid
    · rw [List.getElem?_set_ne hi] at hresult'
      exact h.ids i call' result' hcall' hresult'

theorem Execution.Sound.fillCancelled (h : ex.Sound) (which : ℕ → Bool) :
    (ex.fillCancelled which).Sound where
  length := by
    simp only [Execution.fillCancelled, List.length_zipWith, List.length_zipIdx]
    have hlength := h.length
    omega
  ids := by
    intro i call result hcall hresult
    change ex.calls[i]? = _ at hcall
    simp only [Execution.fillCancelled, List.getElem?_zipWith, List.getElem?_zipIdx, hcall,
      Option.map_some] at hresult
    cases hslot : ex.results[i]? with
    | none =>
        rw [hslot] at hresult
        cases hresult
    | some slot =>
        rw [hslot] at hresult
        simp only [Option.some.injEq] at hresult
        split_ifs at hresult
        · obtain rfl := Option.some.inj hresult
          rfl
        · subst hresult
          exact h.ids i call result hcall hslot

theorem providerId_appendedResult {call : ToolCall} {slot : Option ToolResult}
    (h : ∀ result, slot = some result → result.providerId = call.providerId) :
    (appendedResult call slot).providerId = call.providerId := by
  unfold appendedResult
  cases slot with
  | none => rfl
  | some result =>
      have hid := h result rfl
      simp only [Option.getD_some]
      split_ifs
      · exact hid
      · exact hid

/-- The results that close a round answer its calls in order. -/
theorem Execution.Sound.paired (h : ex.Sound) (text : String) :
    Paired (.assistant text ex.calls :: ex.appendResults) := by
  have hids : (List.zipWith appendedResult ex.calls ex.results).map ToolResult.providerId =
      ex.calls.map ToolCall.providerId := by
    apply List.ext_getElem?
    intro i
    rw [List.getElem?_map, List.getElem?_map, List.getElem?_zipWith]
    cases hcall : ex.calls[i]? with
    | none => rfl
    | some call =>
        obtain ⟨hi, -⟩ := List.getElem?_eq_some_iff.mp hcall
        rw [← h.length] at hi
        have hslot := List.getElem?_eq_getElem hi
        rw [hslot]
        have hid := providerId_appendedResult fun result hresult =>
          h.ids i call result hcall (hslot.trans (congrArg some hresult))
        exact congrArg some hid
  exact paired_turn text _ _ hids

end Slots

section Loop

/-- A well paired history that has begun. -/
structure Opened (history : List HistoryItem) : Prop where
  wellPaired : WellPaired history
  ne_nil : history ≠ []

variable {history : List HistoryItem}

theorem WellPaired.opened_user (h : WellPaired history) (text : String) :
    Opened (history ++ [.user text]) :=
  ⟨h.append_user text, by simp⟩

theorem Opened.append (h : Opened history) {items : List HistoryItem} (hitems : Paired items) :
    Opened (history ++ items) :=
  ⟨h.wellPaired.append h.ne_nil hitems, by simp [h.ne_nil]⟩

theorem Opened.truncateHistory (h : Opened history) (maxBytes : ℕ) :
    Opened (truncateHistory maxBytes history) :=
  ⟨h.wellPaired.truncateHistory maxBytes, truncateHistory_ne_nil maxBytes h.ne_nil⟩

theorem paired_users (text : Option String) : Paired (text.map HistoryItem.user).toList := by
  cases text with
  | none => exact .nil
  | some text => exact .user text .nil

theorem paired_hookOutputs (hook : String) (outputs : List HookOutput) :
    Paired (outputs.flatMap (hookOutputItems hook)) := by
  induction outputs with
  | nil => exact .nil
  | cons output outputs ih =>
      have hpair : Paired (hookOutputItems hook output) := paired_turn "" [_] [_] rfl
      exact hpair.append ih

/-- The turn whose calls run is the last item. -/
def OpenTurn (history : List HistoryItem) (ex : Execution) : Prop :=
  ex.Sound ∧ ∃ before text, history = before ++ [.assistant text ex.calls] ∧ Opened before

theorem OpenTurn.close {ex filled : Execution} (h : OpenTurn history ex) (hfilled : filled.Sound)
    (hcalls : filled.calls = ex.calls) : Opened (history ++ filled.appendResults) := by
  obtain ⟨-, before, text, rfl, hbefore⟩ := h
  rw [List.append_assoc, List.singleton_append, ← hcalls]
  exact hbefore.append (hfilled.paired text)

/-- The history at each point of the loop. -/
def RunState.HistoryPaired (run : RunState) : Prop :=
  match run.pc with
  | .start _ => WellPaired run.history
  | .compacting _ _ => WellPaired run.history
  | .preflight _ ex => OpenTurn run.history ex
  | .joining _ _ ex => OpenTurn run.history ex
  | _ => Opened run.history

def Progress.HistoryPaired : Progress → Prop
  | next run => run.HistoryPaired
  | issue (.complete history) run => WellPaired history ∧ run.HistoryPaired
  | issue .summarize run => run.HistoryPaired
  | done _ run => WellPaired run.history

theorem historyPaired_unlessCancelled {progress : Progress} (h : WellPaired run.history)
    (hprogress : progress.HistoryPaired) : (run.unlessCancelled progress).HistoryPaired := by
  unfold RunState.unlessCancelled
  split_ifs
  · exact h
  · exact hprogress

theorem historyPaired_begin (h : WellPaired run.history) (prompt : List ContentBlock) :
    (run.begin prompt).HistoryPaired := by
  unfold RunState.begin
  split
  · exact h
  · split_ifs
    · exact h
    · exact h.opened_user _

theorem historyPaired_drainSteers (h : Opened run.history) (hpc : run.pc = .drain) :
    run.drainSteers.HistoryPaired := by
  unfold RunState.drainSteers
  split
  · exact h
  · simp only [RunState.HistoryPaired, hpc]
    exact h.append (paired_users _)

theorem historyPaired_summarized (h : Opened run.history) (result : Except AgentError String) :
    (run.summarized cfg result).HistoryPaired := by
  unfold RunState.summarized
  split
  · split_ifs
    · exact ⟨.nil, fun item hitem => by cases hitem⟩
    · exact h.truncateHistory _
  · exact h.truncateHistory _

theorem historyPaired_completed (h : Opened run.history) (result : Except AgentError LlmResponse) :
    (run.completed result).HistoryPaired := by
  unfold RunState.completed
  split
  · exact h.wellPaired
  · split
    · exact h
    · exact h

theorem historyPaired_handleResponse (h : Opened run.history) (response : LlmResponse) :
    (run.handleResponse cfg response).HistoryPaired := by
  have hpushed : Opened (run.history ++ [.assistant response.text []]) :=
    h.append (paired_turn response.text [] [] rfl)
  unfold RunState.handleResponse
  simp only
  split_ifs
  · exact h.wellPaired
  · exact hpushed
  · exact hpushed.wellPaired
  · exact ⟨sound_start _, run.history, response.text, rfl, h⟩

theorem historyPaired_handleObjections (h : Opened run.history) (objections : List HookOutput) :
    (run.handleObjections objections).HistoryPaired := by
  unfold RunState.handleObjections
  split_ifs
  · exact h.wellPaired
  · exact h.append (paired_hookOutputs _ _)

theorem historyPaired_preflight {idx : ℕ} {ex : Execution} {known skillError : Bool}
    {skillContent : List ToolResultContent} {progress : Progress} (h : OpenTurn run.history ex)
    (hprogress : run.preflight idx ex known skillContent skillError = some progress) :
    progress.HistoryPaired := by
  obtain ⟨call, hcall, rfl⟩ := Option.map_eq_some_iff.mp hprogress
  have hset {result : ToolResult} (hid : result.providerId = call.providerId) :
      OpenTurn run.history (ex.setResult idx result) := ⟨h.1.setResult hcall hid, h.2⟩
  split_ifs
  · exact (h.close (h.1.fillCancelled _) rfl).wellPaired
  · exact hset rfl
  · exact ⟨⟨h.1.length, h.1.ids⟩, h.2⟩
  · exact hset rfl

theorem providerId_outcomeToResult (call : ToolCall) (outcome : InvokeOutcome) :
    (outcomeToResult call outcome).providerId = call.providerId := by
  cases outcome <;> rfl

theorem historyPaired_joined {pending : List ℕ} {draining : Bool} {ex : Execution} {idx : ℕ}
    {outcome : InvokeOutcome} {progress : Progress} (h : OpenTurn run.history ex)
    (hprogress : run.joined pending draining ex idx outcome = some progress) :
    progress.HistoryPaired := by
  unfold RunState.joined at hprogress
  split at hprogress
  · obtain ⟨call, hcall, rfl⟩ := Option.map_eq_some_iff.mp hprogress
    split_ifs
    · exact h
    · exact h
    · exact ⟨h.1.setResult hcall (providerId_outcomeToResult call outcome), h.2⟩
  · cases hprogress

theorem historyPaired_finishCalls {ex : Execution} (h : OpenTurn run.history ex) :
    (run.finishCalls ex).HistoryPaired := by
  have hclosed := h.close (h.1.fillCancelled fun i => ex.runnable.contains i) rfl
  unfold RunState.finishCalls
  simp only
  split_ifs
  · exact hclosed.wellPaired
  · exact hclosed

theorem historyPaired_step {input : RunInput} {progress : Progress} (h : run.HistoryPaired)
    (hstep : run.step cfg input = some progress) : progress.HistoryPaired := by
  unfold RunState.HistoryPaired at h
  cases stepped_of_step hstep with
  | begun prompt hpc =>
      rw [hpc] at h
      exact historyPaired_begin h prompt
  | roundsUsed hpc =>
      rw [hpc] at h
      exact h.wellPaired
  | newRound hpc =>
      rw [hpc] at h
      exact h
  | checked hpc =>
      rw [hpc] at h
      exact historyPaired_unlessCancelled h.wellPaired h
  | drained hpc =>
      rw [hpc] at h
      exact historyPaired_drainSteers h hpc
  | gated hpc =>
      rw [hpc] at h
      unfold RunState.maybeHandoff
      split_ifs
      · exact historyPaired_unlessCancelled h.wellPaired h
      · exact h.truncateHistory _
  | interrupted hpc =>
      rcases hpc with hpc | hpc
      · rw [hpc] at h
        exact h.wellPaired
      · rw [hpc] at h
        exact h.wellPaired
  | summarized result hpc =>
      rw [hpc] at h
      exact historyPaired_unlessCancelled h.wellPaired (historyPaired_summarized h result)
  | compacted summary currentPrompt outputs hpc =>
      rw [hpc] at h
      exact (h.opened_user _).append (paired_users currentPrompt)
  | requested hpc =>
      rw [hpc] at h
      exact historyPaired_unlessCancelled h.wellPaired ⟨h.wellPaired, h⟩
  | completed result hpc =>
      rw [hpc] at h
      exact historyPaired_unlessCancelled h.wellPaired (historyPaired_completed h result)
  | responded response hpc =>
      rw [hpc] at h
      exact historyPaired_handleResponse h response
  | objected outputs hpc =>
      rw [hpc] at h
      exact historyPaired_handleObjections h outputs
  | preflight hpc hprogress =>
      rw [hpc] at h
      exact historyPaired_preflight h hprogress
  | spawned hpc =>
      rw [hpc] at h
      exact h
  | joined hpc hprogress =>
      rw [hpc] at h
      exact historyPaired_joined h hprogress
  | joinFailed hpc | noticed hpc =>
      rw [hpc] at h
      exact h
  | settled hpc =>
      rw [hpc] at h
      exact historyPaired_finishCalls h

end Loop

section Prompts

def AgentTask.HistoryPaired : AgentTask → Prop
  | running run => run.HistoryPaired
  | returning _ run => WellPaired run.history
  | _ => True

/-- The histories of the session, of its prompts and of the requests. -/
structure HistoryInvariant (w : AgentWorld) : Prop where
  session : WellPaired w.session.history
  tasks : ∀ task, (w.tasks task).HistoryPaired
  requests : ∀ task history, (task, .complete history) ∈ w.requests → WellPaired history

theorem wellPaired_nil : WellPaired [] :=
  ⟨.nil, fun item hitem => by cases hitem⟩

theorem HistoryInvariant.setTask (h : HistoryInvariant w) {state : AgentTask}
    (hstate : state.HistoryPaired) : HistoryInvariant (w.setTask task state) :=
  ⟨h.session, forall_setTask (P := fun _ s => s.HistoryPaired) hstate fun t _ => h.tasks t,
    h.requests⟩

theorem historyPaired_modifyRun {state : AgentTask} {f : RunState → RunState}
    (hpc : ∀ run, (f run).pc = run.pc) (hhistory : ∀ run, (f run).history = run.history)
    (h : state.HistoryPaired) : (state.modifyRun f).HistoryPaired := by
  cases state with
  | running run =>
      change (f run).HistoryPaired
      unfold RunState.HistoryPaired
      rw [hpc, hhistory]
      exact h
  | returning result run =>
      change WellPaired (f run).history
      rw [hhistory]
      exact h
  | finished result run | absent | waiting prompt | rejected => trivial

theorem HistoryInvariant.logRequest (h : HistoryInvariant w) {request : LlmRequest}
    (hrequest : ∀ history, request = .complete history → WellPaired history) :
    HistoryInvariant (w.logRequest task request) := by
  refine ⟨h.session, h.tasks, ?_⟩
  intro t history hmem
  rcases List.mem_append.mp hmem with hold | hnew
  · exact h.requests t history hold
  · obtain ⟨-, hreq⟩ := Prod.mk.inj (List.mem_singleton.mp hnew)
    exact hrequest history hreq.symm

theorem HistoryInvariant.progress (h : HistoryInvariant w) {progress : Progress}
    (hprogress : progress.HistoryPaired) : HistoryInvariant (w.progress task progress) := by
  cases progress with
  | next run | done result run => exact h.setTask hprogress
  | issue request run =>
      cases request with
      | complete history =>
          obtain ⟨hhistory, hrun⟩ := hprogress
          refine HistoryInvariant.setTask (h.logRequest ?_) hrun
          rintro _ ⟨⟩
          exact hhistory
      | summarize =>
          refine HistoryInvariant.setTask (h.logRequest ?_) hprogress
          rintro _ ⟨⟩

theorem HistoryInvariant.step {event : AgentEvent} (h : HistoryInvariant w)
    (hstep : w.step cfg event = some u) : HistoryInvariant u := by
  cases happened_of_step hstep with
  | prompt => exact h.setTask trivial
  | cancel =>
      refine ⟨h.session, ?_, h.requests⟩
      intro t
      rcases tasks_cancelSession w t with hsame | hmodified
      · rw [hsame]
        exact h.tasks t
      · rw [hmodified]
        exact historyPaired_modifyRun (fun _ => rfl) (fun _ => rfl) (h.tasks t)
  | @steer target =>
      exact h.setTask (historyPaired_modifyRun (fun _ => rfl) (fun _ => rfl) (h.tasks target))
  | refused => exact h
  | rejected => exact h.setTask trivial
  | @acquired target prompt runId =>
      have hfresh : (AgentTask.running (w.session.freshRun prompt)).HistoryPaired := h.session
      have hset : HistoryInvariant (w.setTask target _) := h.setTask hfresh
      exact ⟨wellPaired_nil, hset.tasks, hset.requests⟩
  | @advanced target run input progress hrunning hprogress =>
      have hbefore := h.tasks target
      rw [hrunning] at hbefore
      exact h.progress (historyPaired_step hbefore hprogress)
  | @released target run result hreturning =>
      have hbefore := h.tasks target
      rw [hreturning] at hbefore
      have hset : HistoryInvariant (w.setTask target (.finished result run)) := h.setTask trivial
      exact ⟨hbefore, hset.tasks, hset.requests⟩

theorem historyInvariant_of_run {allowed : AgentWorld → AgentEvent → Prop}
    (hrun : AgentRun cfg allowed w) : HistoryInvariant w := by
  induction hrun with
  | new =>
      refine ⟨wellPaired_nil, fun _ => trivial, ?_⟩
      intro task history hmem
      cases hmem
  | step _ _ hstep ih => exact ih.step hstep

/-- Every history that a run hands to the model is well paired, and so is what each provider gets
of it, which holds the calls of the history and no other. -/
theorem request_paired (hrun : AgentRun cfg (fun _ _ => True) w) {history : List HistoryItem}
    (hrequest : (task, .complete history) ∈ w.requests) :
    WellPaired history ∧
      (AnthropicAnswered (anthropicBody history) ∧
        (anthropicBody history).flatMap AnthropicMessage.toolUseIds = callIds history) ∧
      (∀ systemPrompt, OpenAiContiguous (openaiBody systemPrompt history) ∧
        (openaiBody systemPrompt history).flatMap OpenAiMessage.toolCallIds = callIds history) ∧
      ResponsesOrdered (responsesBody history) ∧
      (responsesBody history).filterMap ResponsesItem.callId? = callIds history := by
  have hpaired := (historyInvariant_of_run hrun).requests task history hrequest
  refine ⟨hpaired, ⟨hpaired.paired.anthropic, toolUseIds_anthropicMessages history rfl⟩, ?_,
    hpaired.paired.responses, callIds_responsesBody history⟩
  intro systemPrompt
  exact ⟨hpaired.paired.openai systemPrompt, toolCallIds_openaiMessages history []⟩

/-- The model calls two tools at once, one of which it made up. -/
def twoCalls : List AgentEvent :=
  [.readPrompt 0 [.text "hi"], .acquire 0 "run_1", .advance 0 .go, .advance 0 .go, .advance 0 .go,
    .advance 0 .go, .advance 0 .go, .advance 0 .go,
    .advance 0 (.completion (.ok ⟨"", [⟨"a", "dev__shell", "\x7b\x7d"⟩, ⟨"b", "nope", "\x7b\x7d"⟩],
      .toolUse, none⟩)),
    .advance 0 .go, .advance 0 (.tool true [] false), .advance 0 (.tool false [] false),
    .advance 0 .go, .advance 0 (.joined 0 (.done [.text "ok"] false)), .advance 0 .go,
    .advance 0 .go, .advance 0 .go, .advance 0 .go, .advance 0 .go, .advance 0 .go]

theorem request_paired_twoCalls : ∃ (w : AgentWorld) (history : List HistoryItem),
    (0, .complete history) ∈ w.requests ∧ callIds history = ["a", "b"] ∧ WellPaired history ∧
    (AnthropicAnswered (anthropicBody history) ∧
      (anthropicBody history).flatMap AnthropicMessage.toolUseIds = callIds history) ∧
    (∀ systemPrompt, OpenAiContiguous (openaiBody systemPrompt history) ∧
      (openaiBody systemPrompt history).flatMap OpenAiMessage.toolCallIds = callIds history) ∧
    ResponsesOrdered (responsesBody history) ∧
    (responsesBody history).filterMap ResponsesItem.callId? = callIds history := by
  let reflected (text : String) : List ToolResultContent :=
    [.text text, .text errorReflectionSuffix]
  let history : List HistoryItem :=
    [.user "hi", .assistant "" [⟨"a", "dev__shell", "\x7b\x7d"⟩, ⟨"b", "nope", "\x7b\x7d"⟩],
      .toolResult ⟨"a", [.text "ok"], false⟩,
      .toolResult ⟨"b", reflected "unknown tool: nope", true⟩]
  have hsecond : (AgentWorld.new.steps .default twoCalls).bind (fun w => w.requests[1]?) =
      some (0, .complete history) := by decide +kernel
  obtain ⟨w, hw, hget⟩ := Option.bind_eq_some_iff.mp hsecond
  have hrun := AgentRun.new.steps (fun _ _ _ => trivial) hw
  have hrequest := List.mem_of_getElem? hget
  exact ⟨w, history, hrequest, rfl, request_paired hrun hrequest⟩

end Prompts
end Buzz
