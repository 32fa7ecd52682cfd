import Buzz.AgentSession

/-!
# What the handoff gate knows of the next request

The gate adds the bytes by which the history grew since the last measured request
to the tokens that were measured. This covers the next request as long as the
history still begins with the one that was measured.
-/

namespace Buzz

/-- What the last measurement stands for: there was none, a handoff discarded it, or it is that of
the request with this history. -/
inductive Baseline where
  | unmeasured
  | discarded
  | measured (sent : List HistoryItem)
  deriving DecidableEq, Repr

namespace Baseline

def discard : Baseline → Baseline
  | unmeasured => unmeasured
  | _ => discarded

/-- Nothing was measured, or what was measured is still at the front of the history. -/
def Covers : Baseline → List HistoryItem → Prop
  | unmeasured, _ => True
  | discarded, _ => False
  | measured sent, history => sent <+: history

/-- A response with a token count measures the history it answers. -/
def after (baseline : Baseline) (run : RunState) (input : RunInput) : Baseline :=
  match run.pc, input with
  | .completing, .completion (.ok response) =>
      if run.cancelled = false ∧ response.inputTokens.isSome then measured run.history else baseline
  | .compacting _ _, .hooks _ => baseline.discard
  | _, _ => baseline

def observe (baseline : Baseline) (w : AgentWorld) : AgentEvent → Baseline
  | .advance task input =>
      match w.tasks task with
      | .running run => baseline.after run input
      | _ => baseline
  | _ => baseline

end Baseline

/-- A run of the session that keeps in mind which request was measured last. -/
inductive MeteredRun (cfg : AgentConfig) (allowed : Baseline → AgentWorld → AgentEvent → Prop) :
    Baseline → AgentWorld → Prop where
  | new : MeteredRun cfg allowed .unmeasured .new
  | step {baseline : Baseline} {w u : AgentWorld} {event : AgentEvent} :
      MeteredRun cfg allowed baseline w → allowed baseline w event → w.step cfg event = some u →
      MeteredRun cfg allowed (baseline.observe w event) u

section Costs

variable (overhead : ℕ) (tokens : HistoryItem → ℕ)

def requestTokens (history : List HistoryItem) : ℕ :=
  overhead + (history.map tokens).sum

/-- A provider that reports the tokens of a request reports its true number. -/
def ReportsUsage (w : AgentWorld) (event : AgentEvent) : Prop :=
  ∀ task run response used, event = .advance task (.completion (.ok response)) →
    w.tasks task = .running run → response.inputTokens = some used →
    used = requestTokens overhead tokens run.history

/-- What the session or a run has stored of the last measurement. -/
def Baseline.Stored (baseline : Baseline) (inputTokens historyBytes : Option ℕ) : Prop :=
  match baseline with
  | .measured sent =>
      inputTokens = some (requestTokens overhead tokens sent) ∧
        historyBytes = some (historyPressure sent)
  | _ => inputTokens = none ∧ historyBytes = none

end Costs

/-- A request whose history no longer begins with what was measured, because a truncation cut it or
a handoff replaced it, is made and comes back with a token count. -/
def MeasuredWhenCut (baseline : Baseline) (w : AgentWorld) (event : AgentEvent) : Prop :=
  ∀ task run input, event = .advance task input → w.tasks task = .running run →
    run.pc = .ready ∨ run.pc = .completing → ¬baseline.Covers run.history →
    run.cancelled = false ∧ ∀ result, input = .completion result →
      ∃ response used, result = .ok response ∧ response.inputTokens = some used

section Truncation

theorem dropTurn_suffix (history : List HistoryItem) : dropTurn history <:+ history :=
  (List.dropWhile_suffix _).trans (List.tail_suffix history)

theorem truncateHistory_suffix (maxBytes : ℕ) (history : List HistoryItem) :
    truncateHistory maxBytes history <:+ history := by
  fun_induction truncateHistory maxBytes history with
  | case1 history hsmall | case2 history hlarge hlast => exact List.suffix_refl _
  | case3 history hlarge hmore ih => exact ih.trans (dropTurn_suffix history)

variable {overhead : ℕ} {tokens : HistoryItem → ℕ}

theorem requestTokens_append (before after : List HistoryItem) :
    requestTokens overhead tokens (before ++ after) =
      requestTokens overhead tokens before + (after.map tokens).sum := by
  simp only [requestTokens, List.map_append, List.sum_append, Nat.add_assoc]

theorem requestTokens_truncateHistory_le (maxBytes : ℕ) (history : List HistoryItem) :
    requestTokens overhead tokens (truncateHistory maxBytes history) ≤
      requestTokens overhead tokens history := by
  obtain ⟨dropped, hdropped⟩ := truncateHistory_suffix maxBytes history
  have hsum : (history.map tokens).sum =
      (dropped.map tokens).sum + ((truncateHistory maxBytes history).map tokens).sum := by
    rw [← List.sum_append, ← List.map_append, hdropped]
  unfold requestTokens
  omega

theorem historyPressure_append (before after : List HistoryItem) :
    historyPressure (before ++ after) = historyPressure before + historyPressure after := by
  simp only [historyPressure, List.map_append, List.sum_append]

theorem sum_tokens_le_pressure (hpressure : ∀ item, tokens item ≤ item.contextPressureBytes)
    (items : List HistoryItem) : (items.map tokens).sum ≤ historyPressure items := by
  induction items with
  | nil => exact Nat.le_refl 0
  | cons item items ih =>
      have hitem := hpressure item
      unfold historyPressure at ih ⊢
      simp only [List.map_cons, List.sum_cons]
      omega

end Truncation

section Steps

variable {cfg : AgentConfig} {baseline : Baseline} {run : RunState} {history : List HistoryItem}
variable {overhead : ℕ} {tokens : HistoryItem → ℕ}
variable {progress : Progress} {input : RunInput} {ex : Execution}

theorem Baseline.Covers.append (h : baseline.Covers history) (items : List HistoryItem) :
    baseline.Covers (history ++ items) := by
  cases baseline with
  | unmeasured => trivial
  | discarded => cases h
  | measured sent => exact List.IsPrefix.trans h (List.prefix_append history items)

/-- The points between the gate and the measurement of the request it let through. -/
def Pc.refreshing : Pc → Bool
  | compacting _ _ => true
  | ready => true
  | completing => true
  | _ => false

variable (overhead tokens) in
def RunState.Metered (baseline : Baseline) (run : RunState) : Prop :=
  baseline.Stored overhead tokens run.lastRequestInputTokens run.lastRequestHistoryBytes ∧
    (run.pc.refreshing = false → baseline.Covers run.history)

variable (overhead tokens) in
def RunState.Ended (baseline : Baseline) (run : RunState) : Prop :=
  baseline.Stored overhead tokens run.lastRequestInputTokens run.lastRequestHistoryBytes ∧
    baseline.Covers run.history

variable (overhead tokens) in
def Progress.Metered (baseline : Baseline) : Progress → Prop
  | next run => run.Metered overhead tokens baseline
  | issue _ run => run.Metered overhead tokens baseline
  | done _ run => run.Ended overhead tokens baseline

theorem metered_unlessCancelled (h : run.cancelled = true →
      run.Ended overhead tokens baseline)
    (hprogress : run.cancelled = false → progress.Metered overhead tokens baseline) :
    (run.unlessCancelled progress).Metered overhead tokens baseline := by
  unfold RunState.unlessCancelled
  split_ifs with hcancelled
  · exact h hcancelled
  · exact hprogress (Bool.eq_false_iff.mpr hcancelled)

theorem metered_begin (h : run.Ended overhead tokens baseline) (prompt : List ContentBlock) :
    (run.begin prompt).Metered overhead tokens baseline := by
  unfold RunState.begin
  split
  · exact h
  · split_ifs
    · exact h
    · exact ⟨h.1, fun _ => h.2.append _⟩

theorem metered_drainSteers (h : run.Ended overhead tokens baseline) :
    run.drainSteers.Metered overhead tokens baseline := by
  unfold RunState.drainSteers
  split
  · exact ⟨h.1, fun _ => h.2⟩
  · exact ⟨h.1, fun _ => h.2.append _⟩

theorem metered_skipHandoff (h : run.Ended overhead tokens baseline) :
    (run.skipHandoff cfg).Metered overhead tokens baseline :=
  ⟨h.1, fun hpc => by cases hpc⟩

theorem metered_summarized (h : run.Ended overhead tokens baseline)
    (result : Except AgentError String) :
    (run.summarized cfg result).Metered overhead tokens baseline := by
  unfold RunState.summarized
  split
  · split_ifs
    · exact ⟨h.1, fun hpc => by cases hpc⟩
    · exact metered_skipHandoff h
  · exact metered_skipHandoff h

theorem metered_handleResponse (h : run.Ended overhead tokens baseline) (response : LlmResponse) :
    (run.handleResponse cfg response).Metered overhead tokens baseline := by
  unfold RunState.handleResponse
  simp only
  split_ifs
  · exact h
  · exact ⟨h.1, fun _ => h.2.append _⟩
  · exact ⟨h.1, h.2.append _⟩
  · exact ⟨h.1, fun _ => h.2.append _⟩

theorem metered_handleObjections (h : run.Ended overhead tokens baseline)
    (objections : List HookOutput) :
    (run.handleObjections objections).Metered overhead tokens baseline := by
  unfold RunState.handleObjections
  split_ifs
  · exact h
  · exact ⟨h.1, fun _ => h.2.append _⟩

theorem metered_preflight {idx : ℕ} {known skillError : Bool}
    {skillContent : List ToolResultContent}
    (h : run.Ended overhead tokens baseline)
    (hprogress : run.preflight idx ex known skillContent skillError = some progress) :
    progress.Metered overhead tokens baseline := by
  obtain ⟨call, -, rfl⟩ := Option.map_eq_some_iff.mp hprogress
  split_ifs
  · exact ⟨h.1, h.2.append _⟩
  · exact ⟨h.1, fun _ => h.2⟩
  · exact ⟨h.1, fun _ => h.2⟩
  · exact ⟨h.1, fun _ => h.2⟩

theorem metered_joined {pending : List ℕ} {draining : Bool} {idx : ℕ}
    {outcome : InvokeOutcome} (h : run.Ended overhead tokens baseline)
    (hprogress : run.joined pending draining ex idx outcome = some progress) :
    progress.Metered overhead tokens baseline := by
  unfold RunState.joined at hprogress
  split at hprogress
  · obtain ⟨call, -, rfl⟩ := Option.map_eq_some_iff.mp hprogress
    split_ifs
    · exact ⟨h.1, fun _ => h.2⟩
    · exact ⟨h.1, fun _ => h.2⟩
    · exact ⟨h.1, fun _ => h.2⟩
  · cases hprogress

theorem metered_finishCalls (h : run.Ended overhead tokens baseline) :
    (run.finishCalls ex).Metered overhead tokens baseline := by
  unfold RunState.finishCalls
  simp only
  split_ifs
  · exact ⟨h.1, h.2.append _⟩
  · exact ⟨h.1, fun _ => h.2.append _⟩

/-- What the request in flight can come back with. -/
theorem completing_cases (hpc : run.pc = .completing) (hstep : run.step cfg input = some progress) :
    (input = .go ∧ run.cancelled = true ∧ progress = run.stopCancelled) ∨
      ∃ result, input = .completion result ∧
        progress = run.unlessCancelled (run.completed result) := by
  unfold RunState.step at hstep
  rw [hpc] at hstep
  cases input with
  | go =>
      simp only at hstep
      split_ifs at hstep with hcancelled
      exact Or.inl ⟨rfl, hcancelled, (Option.some_inj.mp hstep).symm⟩
  | completion result => exact Or.inr ⟨result, rfl, (Option.some_inj.mp hstep).symm⟩
  | summary result | hooks outputs | tool known skillContent skillError | joined idx outcome
  | joinFailed idx | drainTimeout => cases hstep

theorem compacting_cases {summary : String}
    {currentPrompt : Option String} (hpc : run.pc = .compacting summary currentPrompt)
    (hstep : run.step cfg input = some progress) :
    ∃ outputs, input = .hooks outputs ∧
      progress = .next (run.performHandoff summary currentPrompt outputs) := by
  unfold RunState.step at hstep
  rw [hpc] at hstep
  cases input with
  | hooks outputs => exact ⟨outputs, rfl, (Option.some_inj.mp hstep).symm⟩
  | go | completion result | summary result | tool known skillContent skillError
  | joined idx outcome | joinFailed idx | drainTimeout => cases hstep

theorem Baseline.after_of_refreshing (hpc : run.pc.refreshing = false) :
    baseline.after run input = baseline := by
  unfold Baseline.after
  split
  · rename_i hcompleting
    rw [hcompleting] at hpc
    cases hpc
  · rename_i hcompacting
    rw [hcompacting] at hpc
    cases hpc
  · rfl

theorem Baseline.after_ready (hpc : run.pc = .ready) : baseline.after run input = baseline := by
  unfold Baseline.after
  rw [hpc]

theorem Baseline.stored_discard :
    baseline.discard.Stored overhead tokens none none := by
  cases baseline with
  | unmeasured | discarded | measured sent => exact ⟨rfl, rfl⟩

variable (overhead tokens) in
/-- What the run is told agrees with the provider, and a request after a cut is measured. -/
structure MeteredInput (baseline : Baseline) (run : RunState) (input : RunInput) : Prop where
  usage : ∀ response used, input = .completion (.ok response) → response.inputTokens = some used →
    used = requestTokens overhead tokens run.history
  measured : run.pc = .ready ∨ run.pc = .completing → ¬baseline.Covers run.history →
    run.cancelled = false ∧ ∀ result, input = .completion result →
      ∃ response used, result = .ok response ∧ response.inputTokens = some used

variable {input : RunInput} {progress : Progress}

/-- A request that is cancelled was not cut. -/
theorem MeteredInput.covers_of_cancelled (hinput : MeteredInput overhead tokens baseline run input)
    (hpc : run.pc = .ready ∨ run.pc = .completing) (hcancelled : run.cancelled = true) :
    baseline.Covers run.history := by
  by_contra hcut
  have hfalse := (hinput.measured hpc hcut).1
  rw [hcancelled] at hfalse
  cases hfalse

theorem metered_completed {result : Except AgentError LlmResponse}
    (h : run.Metered overhead tokens baseline) (hpc : run.pc = .completing)
    (hinput : MeteredInput overhead tokens baseline run (.completion result))
    (hcancelled : run.cancelled = false) :
    (run.completed result).Metered overhead tokens (baseline.after run (.completion result)) := by
  have hcovers (hno : ∀ response used, result = .ok response → response.inputTokens ≠ some used) :
      baseline.Covers run.history := by
    by_contra hcut
    obtain ⟨response, used, hresult, hused⟩ := (hinput.measured (Or.inr hpc) hcut).2 result rfl
    exact hno response used hresult hused
  cases result with
  | error e =>
      have hafter : baseline.after run (.completion (.error e)) = baseline := by
        unfold Baseline.after
        rw [hpc]
      rw [hafter]
      exact ⟨h.1, hcovers fun response used hresult => by cases hresult⟩
  | ok response =>
      cases hused : response.inputTokens with
      | none =>
          have hafter : baseline.after run (.completion (.ok response)) = baseline := by
            simp [Baseline.after, hpc, hused]
          have hsent : baseline.Covers run.history := by
            refine hcovers fun response' used hresult => ?_
            obtain rfl := Except.ok.inj hresult
            simp [hused]
          simp only [RunState.completed, hused, hafter]
          exact ⟨h.1, fun _ => hsent⟩
      | some used =>
          have hafter : baseline.after run (.completion (.ok response)) =
              .measured run.history := by
            simp [Baseline.after, hpc, hused, hcancelled]
          obtain rfl := hinput.usage response used rfl hused
          simp only [RunState.completed, hused, hafter]
          exact ⟨⟨rfl, rfl⟩, fun _ => List.prefix_refl _⟩

/-- The request that is waited for ends: it is cancelled or answered. -/
theorem metered_completing (h : run.Metered overhead tokens baseline) (hpc : run.pc = .completing)
    (hinput : MeteredInput overhead tokens baseline run input)
    (hstep : run.step cfg input = some progress) :
    progress.Metered overhead tokens (baseline.after run input) := by
  rcases completing_cases hpc hstep with ⟨rfl, hcancelled, rfl⟩ | ⟨result, rfl, rfl⟩
  · have hafter : baseline.after run .go = baseline := by
      unfold Baseline.after
      rw [hpc]
    rw [hafter]
    exact ⟨h.1, hinput.covers_of_cancelled (Or.inr hpc) hcancelled⟩
  · refine metered_unlessCancelled (fun hcancelled => ?_) (metered_completed h hpc hinput)
    have hafter : baseline.after run (.completion result) = baseline := by
      cases result with
      | error e => simp [Baseline.after, hpc]
      | ok response => simp [Baseline.after, hpc, hcancelled]
    rw [hafter]
    exact ⟨h.1, hinput.covers_of_cancelled (Or.inr hpc) hcancelled⟩

/-- Before the gate lets a request through, the history only grows. -/
theorem metered_before_gate (h : run.Ended overhead tokens baseline)
    (hrefreshing : run.pc.refreshing = false) (hstepped : Stepped cfg run progress) :
    progress.Metered overhead tokens baseline := by
  cases hstepped with
  | begun prompt => exact metered_begin h prompt
  | roundsUsed => exact h
  | newRound => exact ⟨h.1, fun _ => h.2⟩
  | checked => exact metered_unlessCancelled (fun _ => h) (fun _ => ⟨h.1, fun _ => h.2⟩)
  | drained => exact metered_drainSteers h
  | gated =>
      unfold RunState.maybeHandoff
      split_ifs
      · exact metered_unlessCancelled (fun _ => h) (fun _ => ⟨h.1, fun _ => h.2⟩)
      · exact metered_skipHandoff h
  | interrupted => exact h
  | summarized result =>
      exact metered_unlessCancelled (fun _ => h) (fun _ => metered_summarized h result)
  | compacted summary currentPrompt outputs hpc | requested hpc | completed result hpc =>
      rw [hpc] at hrefreshing
      cases hrefreshing
  | responded response => exact metered_handleResponse h response
  | objected outputs => exact metered_handleObjections h outputs
  | preflight _ hprogress => exact metered_preflight h hprogress
  | spawned => exact ⟨h.1, fun _ => h.2⟩
  | joined _ hprogress => exact metered_joined h hprogress
  | joinFailed | noticed => exact ⟨h.1, fun _ => h.2⟩
  | settled => exact metered_finishCalls h

theorem metered_step (h : run.Metered overhead tokens baseline)
    (hinput : MeteredInput overhead tokens baseline run input)
    (hstep : run.step cfg input = some progress) :
    progress.Metered overhead tokens (baseline.after run input) := by
  cases hpc : run.pc with
  | completing => exact metered_completing h hpc hinput hstep
  | compacting summary currentPrompt =>
      obtain ⟨outputs, rfl, rfl⟩ := compacting_cases hpc hstep
      have hafter : baseline.after run (.hooks outputs) = baseline.discard := by
        unfold Baseline.after
        rw [hpc]
      rw [hafter]
      exact ⟨Baseline.stored_discard, fun hready => by cases hready⟩
  | ready =>
      rw [Baseline.after_ready hpc]
      have hprogress : progress = run.unlessCancelled
          (.issue (.complete run.history)
            { run with round := run.round + 1, pc := .completing }) := by
        unfold RunState.step at hstep
        rw [hpc] at hstep
        cases input with
        | go => exact (Option.some_inj.mp hstep).symm
        | _ => cases hstep
      rw [hprogress]
      exact metered_unlessCancelled
        (fun hcancelled => ⟨h.1, hinput.covers_of_cancelled (Or.inl hpc) hcancelled⟩)
        (fun _ => ⟨h.1, fun hnot => by cases hnot⟩)
  | _ =>
      have hrefreshing : run.pc.refreshing = false := by
        rw [hpc]
        rfl
      rw [Baseline.after_of_refreshing hrefreshing]
      exact metered_before_gate ⟨h.1, h.2 hrefreshing⟩ hrefreshing (stepped_of_step hstep)

end Steps

section Sessions

variable {cfg : AgentConfig} {baseline : Baseline} {w u : AgentWorld} {task : ℕ} {run : RunState}
variable {overhead : ℕ} {tokens : HistoryItem → ℕ}

theorem MeteredRun.agentRun {allowed : Baseline → AgentWorld → AgentEvent → Prop}
    (hrun : MeteredRun cfg allowed baseline w) : AgentRun cfg (fun _ _ => True) w := by
  induction hrun with
  | new => exact .new
  | step _ _ hstep ih => exact .step ih trivial hstep

variable (overhead tokens) in
def AgentTask.Metered (baseline : Baseline) : AgentTask → Prop
  | running run => run.Metered overhead tokens baseline
  | returning _ run => run.Ended overhead tokens baseline
  | _ => True

theorem AgentTask.metered_of_not_holding {state : AgentTask} (h : state.holding = none) :
    state.Metered overhead tokens baseline := by
  cases state with
  | running run => cases h
  | returning result run => cases h
  | _ => trivial

theorem AgentTask.Metered.modifyRun {state : AgentTask} {f : RunState → RunState}
    (h : state.Metered overhead tokens baseline)
    (hf : ∀ run, (f run).pc = run.pc ∧ (f run).history = run.history ∧
      (f run).lastRequestInputTokens = run.lastRequestInputTokens ∧
      (f run).lastRequestHistoryBytes = run.lastRequestHistoryBytes) :
    (state.modifyRun f).Metered overhead tokens baseline := by
  cases state with
  | running run =>
      obtain ⟨hpc, hhistory, htokens, hbytes⟩ := hf run
      change (f run).Metered overhead tokens baseline
      unfold RunState.Metered
      rw [hpc, hhistory, htokens, hbytes]
      exact h
  | returning result run =>
      obtain ⟨-, hhistory, htokens, hbytes⟩ := hf run
      change (f run).Ended overhead tokens baseline
      unfold RunState.Ended
      rw [hhistory, htokens, hbytes]
      exact h
  | _ => trivial

variable (overhead tokens) in
/-- Whoever has the history knows the measurement that is in force. -/
structure MeterInvariant (baseline : Baseline) (w : AgentWorld) : Prop where
  free : w.session.busy = false →
    baseline.Stored overhead tokens w.session.lastRequestInputTokens
      w.session.lastRequestHistoryBytes ∧ baseline.Covers w.session.history
  tasks : ∀ task, (w.tasks task).Metered overhead tokens baseline

theorem MeterInvariant.setTask (h : MeterInvariant overhead tokens baseline w) {state : AgentTask}
    (hstate : state.Metered overhead tokens baseline) :
    MeterInvariant overhead tokens baseline (w.setTask task state) :=
  ⟨h.free, forall_setTask (P := fun _ s => s.Metered overhead tokens baseline) hstate
    fun t _ => h.tasks t⟩

/-- The task that holds the session learns of a new measurement; no other task has one. -/
theorem SessionHeld.meterInvariant_setTask (hheld : SessionHeld w)
    (hrunning : (w.tasks task).holding = some run) {state : AgentTask}
    (hstate : state.Metered overhead tokens baseline) :
    MeterInvariant overhead tokens baseline (w.setTask task state) := by
  constructor
  · intro hfree
    have hbusy := (hheld.held task run hrunning).1
    change w.session.busy = false at hfree
    rw [hbusy] at hfree
    cases hfree
  · refine forall_setTask (P := fun _ s => s.Metered overhead tokens baseline) hstate
      fun t ht => ?_
    apply AgentTask.metered_of_not_holding
    cases hother : (w.tasks t).holding with
    | none => rfl
    | some other => exact absurd (hheld.unique hrunning hother) ht

variable (overhead tokens) in
def MeteredEvent (baseline : Baseline) (w : AgentWorld) (event : AgentEvent) : Prop :=
  ReportsUsage overhead tokens w event ∧ MeasuredWhenCut baseline w event

theorem MeterInvariant.step {event : AgentEvent} (h : MeterInvariant overhead tokens baseline w)
    (hheld : SessionHeld w) (hallowed : MeteredEvent overhead tokens baseline w event)
    (hstep : w.step cfg event = some u) :
    MeterInvariant overhead tokens (baseline.observe w event) u := by
  cases happened_of_step hstep with
  | prompt => exact h.setTask trivial
  | cancel =>
      refine ⟨h.free, ?_⟩
      intro t
      rcases tasks_cancelSession w t with hsame | hmodified
      · rw [hsame]
        exact h.tasks t
      · rw [hmodified]
        exact (h.tasks t).modifyRun fun _ => ⟨rfl, rfl, rfl, rfl⟩
  | @steer target =>
      exact h.setTask ((h.tasks target).modifyRun fun _ => ⟨rfl, rfl, rfl, rfl⟩)
  | refused => exact h
  | rejected => exact h.setTask trivial
  | @acquired target prompt runId _ hbusy =>
      obtain ⟨hstored, hcovers⟩ := h.free hbusy
      have hfresh : (AgentTask.running (w.session.freshRun prompt)).Metered overhead tokens
          baseline := ⟨hstored, fun _ => hcovers⟩
      have hset : MeterInvariant overhead tokens baseline (w.setTask target _) := h.setTask hfresh
      exact ⟨(fun hfree => by cases hfree), hset.tasks⟩
  | @advanced target run input progress hrunning hprogress =>
      have hbefore := h.tasks target
      rw [hrunning] at hbefore
      have hobserve : baseline.observe w (.advance target input) = baseline.after run input := by
        simp only [Baseline.observe, hrunning]
      have hinput : MeteredInput overhead tokens baseline run input := by
        constructor
        · intro response used hresponse hused
          exact hallowed.1 target run response used (by rw [hresponse]) hrunning hused
        · intro hpc hcut
          exact hallowed.2 target run input rfl hrunning hpc hcut
      have hafter := metered_step hbefore hinput hprogress
      have hholding : (w.tasks target).holding = some run := by
        rw [hrunning]
        rfl
      rw [hobserve]
      cases progress with
      | next next | done result last => exact hheld.meterInvariant_setTask hholding hafter
      | issue request next =>
          have hset : MeterInvariant overhead tokens _ (w.setTask target (.running next)) :=
            hheld.meterInvariant_setTask hholding hafter
          exact ⟨hset.free, hset.tasks⟩
  | @released target run result hreturning =>
      have hbefore := h.tasks target
      rw [hreturning] at hbefore
      have hset : MeterInvariant overhead tokens baseline
          (w.setTask target (.finished result run)) :=
        h.setTask trivial
      exact ⟨fun _ => hbefore, hset.tasks⟩

theorem meterInvariant_of_run (hrun : MeteredRun cfg (MeteredEvent overhead tokens) baseline w) :
    MeterInvariant overhead tokens baseline w := by
  induction hrun with
  | new => exact ⟨fun _ => ⟨⟨rfl, rfl⟩, trivial⟩, fun _ => trivial⟩
  | step hw hallowed hstep ih => exact ih.step (sessionHeld_of_run hw.agentRun) hallowed hstep

variable (overhead tokens) in
/-- The projection at the gate is at least the tokens of the history it looks at, and of what a
truncation leaves of it. -/
def RunState.Projected (cfg : AgentConfig) (run : RunState) : Prop :=
  requestTokens overhead tokens run.history ≤ run.projectedHandoffInputTokens ∧
    requestTokens overhead tokens (truncateHistory cfg.maxHistoryBytes run.history) ≤
      run.projectedHandoffInputTokens

theorem projected_of_measured {sent : List HistoryItem}
    (hpressure : ∀ item, tokens item ≤ item.contextPressureBytes)
    (hstored : (Baseline.measured sent).Stored overhead tokens run.lastRequestInputTokens
      run.lastRequestHistoryBytes) (hcovers : (Baseline.measured sent).Covers run.history) :
    requestTokens overhead tokens run.history ≤ run.projectedHandoffInputTokens := by
  obtain ⟨htokens, hbytes⟩ := hstored
  obtain ⟨grown, hgrown⟩ := hcovers
  have hpressed := sum_tokens_le_pressure hpressure grown
  unfold RunState.projectedHandoffInputTokens
  rw [htokens, hbytes, ← hgrown, requestTokens_append, historyPressure_append]
  simp only [Option.getD_some]
  omega

/-- In a run where every request that was cut comes back with a token count, the gate never
undercounts once a response was measured. -/
theorem gate_covers_request (hpressure : ∀ item, tokens item ≤ item.contextPressureBytes)
    (hrun : MeteredRun cfg (MeteredEvent overhead tokens) baseline w)
    (hmeasured : baseline ≠ .unmeasured) (hrunning : w.tasks task = .running run)
    (hgate : run.pc = .gate) : run.Projected overhead tokens cfg := by
  have htask := (meterInvariant_of_run hrun).tasks task
  rw [hrunning] at htask
  obtain ⟨hstored, hcovers⟩ := htask
  have hcovered : baseline.Covers run.history := hcovers (by rw [hgate]; rfl)
  have hwhole : requestTokens overhead tokens run.history ≤ run.projectedHandoffInputTokens := by
    cases baseline with
    | unmeasured => exact absurd rfl hmeasured
    | discarded => cases hcovered
    | measured sent => exact projected_of_measured hpressure hstored hcovered
  exact ⟨hwhole, (requestTokens_truncateHistory_le _ _).trans hwhole⟩

end Sessions

def Progress.taskState : Progress → AgentTask
  | next run => .running run
  | issue _ run => .running run
  | done result run => .returning result run

section Prompts

variable {cfg : AgentConfig} {allowed : Baseline → AgentWorld → AgentEvent → Prop}
variable {baseline : Baseline} {w : AgentWorld} {task : ℕ} {run : RunState}

/-- The only events that may be forbidden are those of a request. -/
structure Permissive (allowed : Baseline → AgentWorld → AgentEvent → Prop) : Prop where
  session : ∀ baseline w event, (∀ task input, event ≠ .advance task input) →
    allowed baseline w event
  go : ∀ baseline w task run, w.tasks task = .running run → run.pc ≠ .ready → run.pc ≠ .completing →
    allowed baseline w (.advance task .go)

theorem reportsUsage_go (overhead : ℕ) (tokens : HistoryItem → ℕ) (w : AgentWorld) (task : ℕ) :
    ReportsUsage overhead tokens w (.advance task .go) := by
  intro t run response used hevent
  cases hevent

theorem permissive_reportsUsage (overhead : ℕ) (tokens : HistoryItem → ℕ) :
    Permissive fun _ w event => ReportsUsage overhead tokens w event where
  session := by
    intro _ w event hother t run response used hevent
    exact absurd hevent (hother t _)
  go := by
    intro _ w t run _ _ _
    exact reportsUsage_go overhead tokens w t

theorem permissive_meteredEvent (overhead : ℕ) (tokens : HistoryItem → ℕ) :
    Permissive (MeteredEvent overhead tokens) where
  session := by
    intro baseline w event hother
    refine ⟨(permissive_reportsUsage overhead tokens).session baseline w event hother, ?_⟩
    intro t run input hevent
    exact absurd hevent (hother t input)
  go := by
    intro baseline w task run hrunning hready hcompleting
    refine ⟨reportsUsage_go overhead tokens w task, ?_⟩
    intro t run' input hevent hrunning' hpc
    obtain ⟨rfl, -⟩ := AgentEvent.advance.inj hevent
    obtain rfl := AgentTask.running.inj (hrunning.symm.trans hrunning')
    exact (hpc.elim hready hcompleting).elim

variable (cfg allowed) in
/-- A task has come this far, and no later one has been read. -/
structure Playing (baseline : Baseline) (task : ℕ) (state : AgentTask) (w : AgentWorld) : Prop where
  run : MeteredRun cfg allowed baseline w
  current : w.tasks task = state
  later : ∀ t, task < t → w.tasks t = .absent

theorem Playing.advance (h : Playing cfg allowed baseline task (.running run) w) {input : RunInput}
    {progress : Progress} (hallowed : allowed baseline w (.advance task input))
    (hstep : run.step cfg input = some progress) :
    ∃ u, Playing cfg allowed (baseline.after run input) task progress.taskState u := by
  have hworld : w.step cfg (.advance task input) = some (w.progress task progress) := by
    simp only [AgentWorld.step, h.current, hstep, Option.map_some]
  have hobserve : baseline.observe w (.advance task input) = baseline.after run input := by
    simp only [Baseline.observe, h.current]
  have htasks : (w.progress task progress).tasks =
      Function.update w.tasks task progress.taskState := by
    cases progress <;> rfl
  have hrun := h.run.step hallowed hworld
  rw [hobserve] at hrun
  refine ⟨_, hrun, ?_, ?_⟩
  · rw [htasks, Function.update_self]
  · intro t ht
    rw [htasks, Function.update_of_ne (Nat.ne_of_gt ht)]
    exact h.later t ht

/-- Up to the gate nothing is measured. -/
theorem Playing.go (hallowed : Permissive allowed)
    (h : Playing cfg allowed baseline task (.running run) w) {progress : Progress}
    (hready : run.pc ≠ .ready) (hcompleting : run.pc ≠ .completing)
    (hstep : run.step cfg .go = some progress) :
    ∃ u, Playing cfg allowed baseline task progress.taskState u := by
  have hafter : baseline.after run .go = baseline := by
    unfold Baseline.after
    split <;> simp_all
  obtain ⟨u, hu⟩ := h.advance (hallowed.go _ _ _ _ h.current hready hcompleting) hstep
  rw [hafter] at hu
  exact ⟨u, hu⟩

/-- A prompt with one text block. -/
theorem Playing.toGate (hallowed : Permissive allowed) (hrounds : cfg.maxRounds = 0) {text : String}
    (h : Playing cfg allowed baseline task (.running run) w) (hstart : run.pc = .start [.text text])
    (hcancelled : run.cancelled = false) (hsteers : run.steers = [])
    (hsize : text.utf8ByteSize ≤ maxPromptBytes) :
    ∃ u, Playing cfg allowed baseline task (.running { run with
      pc := .gate
      history := run.history ++ [.user text]
      originalTask := some (run.originalTask.getD text) }) u := by
  have htext : promptToText [.text text] = .ok text := by
    simp [promptToText, promptParts, Except.map]
  have hbegin : run.step cfg .go = some (.next { run with
      originalTask := some (run.originalTask.getD text)
      history := run.history ++ [.user text]
      pc := .top }) := by
    simp only [RunState.step, hstart, RunState.begin, htext, Nat.not_lt.mpr hsize, if_false]
  obtain ⟨w₁, h₁⟩ := h.go hallowed (by simp [hstart]) (by simp [hstart]) hbegin
  let opened : RunState := { run with
    originalTask := some (run.originalTask.getD text)
    history := run.history ++ [.user text] }
  have htop : ({ opened with pc := .top } : RunState).step cfg .go =
      some (.next { opened with pc := .check }) := by
    simp [RunState.step, hrounds, opened]
  have hcheck : ({ opened with pc := .check } : RunState).step cfg .go =
      some (.next { opened with pc := .drain }) := by
    simp [RunState.step, RunState.unlessCancelled, hcancelled, opened]
  have hdrain : ({ opened with pc := .drain } : RunState).step cfg .go =
      some (.next { opened with pc := .gate }) := by
    simp [RunState.step, RunState.drainSteers, hsteers, opened]
  obtain ⟨w₂, h₂⟩ := Playing.go hallowed h₁ (by simp) (by simp) htop
  obtain ⟨w₃, h₃⟩ := Playing.go hallowed h₂ (by simp) (by simp) hcheck
  exact Playing.go hallowed h₃ (by simp) (by simp) hdrain

/-- Through the gate without a handoff, with the history cut. -/
theorem Playing.toRequest (hallowed : Permissive allowed)
    (h : Playing cfg allowed baseline task (.running run) w) (hgate : run.pc = .gate)
    (hcancelled : run.cancelled = false) (hsmall : run.shouldHandoff cfg = false)
    {kept : List HistoryItem} (hkept : truncateHistory cfg.maxHistoryBytes run.history = kept)
    (hrequest : ∀ u, u.tasks task = .running (run.skipHandoff cfg) →
      allowed baseline u (.advance task .go)) :
    ∃ u, Playing cfg allowed baseline task (.running { run with
      pc := .completing
      history := kept
      round := run.round + 1 }) u := by
  subst hkept
  have hskip : run.step cfg .go = some (.next (run.skipHandoff cfg)) := by
    simp [RunState.step, hgate, RunState.maybeHandoff, hsmall]
  obtain ⟨u, hu⟩ := h.go hallowed (by simp [hgate]) (by simp [hgate]) hskip
  have hissue : (run.skipHandoff cfg).step cfg .go =
      some (.issue (.complete (truncateHistory cfg.maxHistoryBytes run.history))
        { run with
          pc := .completing
          history := truncateHistory cfg.maxHistoryBytes run.history
          round := run.round + 1 }) := by
    simp [RunState.step, RunState.skipHandoff, RunState.unlessCancelled, hcancelled]
  obtain ⟨v, hv⟩ := hu.advance (hrequest u hu.current) hissue
  rw [Baseline.after_ready rfl] at hv
  exact ⟨v, hv⟩

/-- The session goes back and the next prompt takes it. -/
theorem Playing.nextPrompt (hallowed : Permissive allowed) {result : Except AgentError StopReason}
    (h : Playing cfg allowed baseline task (.returning result run) w) (prompt : List ContentBlock) :
    ∃ u, Playing cfg allowed baseline (task + 1) (.running { run with
      pc := .start prompt
      round := 0
      stopRejections := 0
      cancelled := false
      steers := []
      accepted := []
      pickedUp := [] }) u := by
  have hsession {w u : AgentWorld} {event : AgentEvent} (hw : MeteredRun cfg allowed baseline w)
      (hother : ∀ task input, event ≠ .advance task input) (hstep : w.step cfg event = some u) :
      MeteredRun cfg allowed baseline u := by
    have hobserve : baseline.observe w event = baseline := by
      cases event <;> simp_all [Baseline.observe]
    have hu := hw.step (hallowed.session _ _ _ hother) hstep
    rw [hobserve] at hu
    exact hu
  let released := w.releaseSession task result run
  have hreleased : w.step cfg (.release task) = some released := by
    simp only [AgentWorld.step, h.current, released]
  have habsent : released.tasks (task + 1) = .absent := by
    have hsame : released.tasks (task + 1) = w.tasks (task + 1) :=
      Function.update_of_ne (Nat.succ_ne_self task) ..
    rw [hsame]
    exact h.later _ (Nat.lt_succ_self task)
  let waiting := released.setTask (task + 1) (.waiting prompt)
  have hread : released.step cfg (.readPrompt (task + 1) prompt) = some waiting := by
    simp only [AgentWorld.step, habsent, waiting]
  have hwaiting : waiting.tasks (task + 1) = .waiting prompt := Function.update_self ..
  have hacquire : waiting.step cfg (.acquire (task + 1) "run") =
      some (waiting.takeSession (task + 1) prompt "run") := by
    simp only [AgentWorld.step, hwaiting, AgentWorld.acquireSession]
    rfl
  have hrun := hsession (hsession (hsession h.run (by simp) hreleased) (by simp) hread)
    (by simp) hacquire
  refine ⟨_, hrun, Function.update_self .., ?_⟩
  intro t ht
  have htaken : (waiting.takeSession (task + 1) prompt "run").tasks t = waiting.tasks t :=
    Function.update_of_ne (Nat.ne_of_gt ht) ..
  have hset : waiting.tasks t = released.tasks t := Function.update_of_ne (Nat.ne_of_gt ht) ..
  have hold : released.tasks t = w.tasks t := Function.update_of_ne (by omega) ..
  rw [htaken, hset, hold]
  exact h.later t (by omega)

variable (cfg) in
theorem Playing.firstPrompt (hallowed : Permissive allowed) (prompt : List ContentBlock) :
    ∃ u, Playing cfg allowed .unmeasured 0 (.running (AgentSession.new.freshRun prompt)) u := by
  have hread : AgentWorld.new.step cfg (.readPrompt 0 prompt) =
      some (AgentWorld.new.setTask 0 (.waiting prompt)) := rfl
  have hacquire : (AgentWorld.new.setTask 0 (.waiting prompt)).step cfg (.acquire 0 "run") =
      some ((AgentWorld.new.setTask 0 (.waiting prompt)).takeSession 0 prompt "run") := rfl
  have hfirst := MeteredRun.new.step (hallowed.session _ _ _ (by simp)) hread
  have hrun := hfirst.step (hallowed.session _ _ _ (by simp)) hacquire
  refine ⟨_, hrun, rfl, ?_⟩
  intro t ht
  have htaken : ((AgentWorld.new.setTask 0 (.waiting prompt)).takeSession 0 prompt "run").tasks t =
      (AgentWorld.new.setTask 0 (.waiting prompt)).tasks t := Function.update_of_ne (by omega) ..
  have hset : (AgentWorld.new.setTask 0 (.waiting prompt)).tasks t = AgentTask.absent :=
    Function.update_of_ne (by omega) ..
  rw [htaken, hset]

/-- The answer of the model with its token count ends the prompt. -/
theorem Playing.answer (hallowed : Permissive allowed)
    (h : Playing cfg allowed baseline task (.running run) w) (hpc : run.pc = .completing)
    (hcancelled : run.cancelled = false) (used : ℕ)
    (husage : allowed baseline w
      (.advance task (.completion (.ok ⟨"ok", [], .maxTokens, some used⟩)))) :
    ∃ u, Playing cfg allowed (.measured run.history) task (.returning (.ok .maxTokens) { run with
      lastRequestInputTokens := some used
      lastRequestHistoryBytes := some (historyPressure run.history)
      history := run.history ++ [.assistant "ok" []]
      pc := .responded ⟨"ok", [], .maxTokens, some used⟩ }) u := by
  let answered : RunState := { run with
    lastRequestInputTokens := some used
    lastRequestHistoryBytes := some (historyPressure run.history)
    pc := .responded ⟨"ok", [], .maxTokens, some used⟩ }
  have hcompleted : run.step cfg (.completion (.ok ⟨"ok", [], .maxTokens, some used⟩)) =
      some (.next answered) := by
    simp [RunState.step, hpc, RunState.unlessCancelled, hcancelled, RunState.completed, answered]
  obtain ⟨u, hu⟩ := h.advance husage hcompleted
  have hafter : baseline.after run (.completion (.ok ⟨"ok", [], .maxTokens, some used⟩)) =
      .measured run.history := by
    simp [Baseline.after, hpc, hcancelled]
  rw [hafter] at hu
  have hdone : answered.step cfg .go = some (.done (.ok .maxTokens)
      { answered with history := run.history ++ [.assistant "ok" []] }) := by
    simp [RunState.step, RunState.handleResponse, mapStop, answered]
  exact hu.go hallowed (by simp [answered]) (by simp [answered]) hdone

end Prompts

section Undercount

theorem meteredEvent_go {overhead : ℕ} {tokens : HistoryItem → ℕ} {baseline : Baseline}
    {w : AgentWorld} {task : ℕ} {run : RunState} (hrunning : w.tasks task = .running run)
    (hcovers : baseline.Covers run.history) :
    MeteredEvent overhead tokens baseline w (.advance task .go) := by
  refine ⟨reportsUsage_go overhead tokens w task, ?_⟩
  intro t run' input hevent hrunning' _ hcut
  obtain ⟨rfl, -⟩ := AgentEvent.advance.inj hevent
  obtain rfl := AgentTask.running.inj (hrunning.symm.trans hrunning')
  exact absurd hcovers hcut

theorem reportsUsage_answer {overhead : ℕ} {tokens : HistoryItem → ℕ} {w : AgentWorld} {task : ℕ}
    {run : RunState} {response : LlmResponse} (hrunning : w.tasks task = .running run)
    (husage : response.inputTokens = some (requestTokens overhead tokens run.history)) :
    ReportsUsage overhead tokens w (.advance task (.completion (.ok response))) := by
  intro t run' response' used hevent hrunning' hused
  obtain ⟨rfl, hinput⟩ := AgentEvent.advance.inj hevent
  obtain rfl := AgentTask.running.inj (hrunning.symm.trans hrunning')
  obtain rfl := Except.ok.inj (RunInput.completion.inj hinput)
  exact Option.some.inj (hused.symm.trans husage)

theorem reportsUsage_error {overhead : ℕ} {tokens : HistoryItem → ℕ} {w : AgentWorld} {task : ℕ}
    (e : AgentError) :
    ReportsUsage overhead tokens w (.advance task (.completion (.error e))) := by
  intro t run response used hevent
  cases hevent

/-- A token for every two bytes. -/
def halfTokens (item : HistoryItem) : ℕ := item.contextPressureBytes / 2

theorem gate_covers_request_second : ∃ (w : AgentWorld) (run : RunState), w.tasks 1 = .running run ∧
    run.history = [.user "hi", .assistant "ok" [], .user "more"] ∧
    run.projectedHandoffInputTokens = 107 ∧ run.Projected 100 halfTokens .default := by
  have hallowed := permissive_meteredEvent 100 halfTokens
  have hpressure (item : HistoryItem) : halfTokens item ≤ item.contextPressureBytes :=
    Nat.div_le_self _ 2
  obtain ⟨w₁, h₁⟩ := Playing.firstPrompt .default hallowed [.text "hi"]
  obtain ⟨w₂, h₂⟩ := h₁.toGate hallowed rfl rfl rfl rfl (by decide)
  obtain ⟨w₃, h₃⟩ := h₂.toRequest hallowed rfl rfl (by decide +kernel) rfl
    fun u hrunning => meteredEvent_go hrunning trivial
  obtain ⟨w₄, h₄⟩ := h₃.answer hallowed rfl rfl 101
    ⟨reportsUsage_answer h₃.current (by decide +kernel), fun _ _ _ _ _ _ hcut =>
      absurd trivial hcut⟩
  obtain ⟨w₅, h₅⟩ := h₄.nextPrompt hallowed [.text "more"]
  obtain ⟨w₆, h₆⟩ := h₅.toGate hallowed rfl rfl rfl rfl (by decide)
  exact ⟨w₆, _, h₆.current, by decide +kernel, by decide +kernel,
    gate_covers_request hpressure h₆.run Baseline.noConfusion h₆.current rfl⟩

def repeated (c : Char) (n : ℕ) : String :=
  String.ofList (List.replicate n c)

theorem utf8ByteSize_repeated (c : Char) (n : ℕ) :
    (repeated c n).utf8ByteSize = n * c.utf8Size := by
  induction n with
  | zero => simp [repeated]
  | succ n ih =>
      have hcons : repeated c (n + 1) = String.singleton c ++ repeated c n := by
        simp [repeated, List.replicate_succ, String.ofList_cons]
      rw [hcons, String.utf8ByteSize_append, String.utf8ByteSize_singleton, ih]
      ring

/-- A window of two million tokens and the smallest history limit that the program starts with. -/
def cutConfig : AgentConfig :=
  { AgentConfig.default with maxHistoryBytes := 1024 * 1024, maxContextTokens := 2000000 }

/-- The first prompt is cheap text: a token for every six bytes. -/
def sparseTokens (item : HistoryItem) : ℕ :=
  if item.contextPressureBytes = 600000 then 100000 else item.contextPressureBytes

theorem sparseTokens_le (item : HistoryItem) : sparseTokens item ≤ item.contextPressureBytes := by
  unfold sparseTokens
  split_ifs
  · omega
  · exact Nat.le_refl _

/-- The second request loses the measured prompt to the truncation and then fails. The gate of the
third prompt still counts from the first measurement. -/
theorem undercounts_of_sizes {sparse dense : String} (hsparse : sparse.utf8ByteSize = 600000)
    (hdense : dense.utf8ByteSize = 600001) :
    ∃ (sent : List HistoryItem) (w : AgentWorld) (run : RunState),
      MeteredRun cutConfig (fun _ w event => ReportsUsage 1000 sparseTokens w event)
        (.measured sent) w ∧
      w.tasks 2 = .running run ∧ run.pc = .gate ∧ run.projectedHandoffInputTokens = 101002 ∧
      requestTokens 1000 sparseTokens run.history = 601002 := by
  have hallowed := permissive_reportsUsage 1000 sparseTokens
  have hok : "ok".utf8ByteSize = 2 := rfl
  have hx : "x".utf8ByteSize = 1 := rfl
  have hkeep : truncateHistory 1048576 [.user sparse] = [.user sparse] := by
    unfold truncateHistory
    simp [historyBytes, HistoryItem.estimatedBytes, HistoryItem.sizeWith, hsparse]
  have hkept : truncateHistory 1048576 [.user dense] = [.user dense] := by
    unfold truncateHistory
    simp [historyBytes, HistoryItem.estimatedBytes, HistoryItem.sizeWith, hdense]
  have hcut : truncateHistory 1048576
      [.user sparse, .assistant "ok" [], .user dense] = [.user dense] := by
    have hdropped : dropTurn [.user sparse, .assistant "ok" [], .user dense] = [.user dense] := rfl
    unfold truncateHistory
    simp [hdropped, hkept, historyBytes, HistoryItem.estimatedBytes, HistoryItem.sizeWith, hsparse,
      hdense, hok]
  have hcheap : sparseTokens (.user sparse) = 100000 := by
    have hbytes : (HistoryItem.user sparse).contextPressureBytes = 600000 := hsparse
    unfold sparseTokens
    rw [if_pos hbytes]
  have husage : requestTokens 1000 sparseTokens [.user sparse] = 101000 := by
    simp [requestTokens, hcheap]
  have hdear : sparseTokens (.user dense) = 600001 := by
    have hbytes : (HistoryItem.user dense).contextPressureBytes = 600001 := hdense
    unfold sparseTokens
    rw [hbytes]
    exact if_neg (by decide)
  have hsmall : sparseTokens (.user "x") = 1 := by decide +kernel
  obtain ⟨w₁, h₁⟩ := Playing.firstPrompt cutConfig hallowed [.text sparse]
  obtain ⟨w₂, h₂⟩ := h₁.toGate hallowed rfl rfl rfl rfl (by rw [hsparse]; decide)
  obtain ⟨w₃, h₃⟩ := h₂.toRequest hallowed rfl rfl
    (by simp [RunState.shouldHandoff, AgentSession.freshRun, AgentSession.new, historyPressure,
      HistoryItem.contextPressureBytes, HistoryItem.sizeWith, hsparse,
        RunState.byteFallbackThreshold,
      RunState.tokenThreshold, cutConfig, AgentConfig.default])
    hkeep fun u _ => reportsUsage_go 1000 sparseTokens u 0
  obtain ⟨w₄, h₄⟩ := h₃.answer hallowed rfl rfl 101000
    (reportsUsage_answer h₃.current (congrArg some husage.symm))
  obtain ⟨w₅, h₅⟩ := h₄.nextPrompt hallowed [.text dense]
  obtain ⟨w₆, h₆⟩ := h₅.toGate hallowed rfl rfl rfl rfl (by rw [hdense]; decide)
  obtain ⟨w₇, h₇⟩ := h₆.toRequest hallowed rfl rfl
    (by simp [RunState.shouldHandoff, RunState.projectedHandoffInputTokens, historyPressure,
      HistoryItem.contextPressureBytes, HistoryItem.sizeWith, hsparse, hdense, hok,
      RunState.tokenThreshold, cutConfig, AgentConfig.default])
    hcut fun u _ => reportsUsage_go 1000 sparseTokens u 1
  obtain ⟨w₈, h₈⟩ := h₇.advance (reportsUsage_error (.llm "timeout")) rfl
  obtain ⟨w₉, h₉⟩ := h₈.nextPrompt hallowed [.text "x"]
  obtain ⟨w, h⟩ := h₉.toGate hallowed rfl rfl rfl rfl (by decide)
  refine ⟨_, w, _, h.run, h.current, rfl, ?_, ?_⟩
  · simp [RunState.projectedHandoffInputTokens, historyPressure, HistoryItem.contextPressureBytes,
      HistoryItem.sizeWith, hsparse, hdense, hx]
  · simp [requestTokens, hdear, hsmall]

/-- Some run of the program, in which the provider reports every count, reaches a gate that
undercounts. -/
theorem gate_undercounts_cut :
    (∀ item, sparseTokens item ≤ item.contextPressureBytes) ∧
    ∃ (baseline : Baseline) (w : AgentWorld) (task : ℕ) (run : RunState),
      MeteredRun cutConfig (fun _ w event => ReportsUsage 1000 sparseTokens w event) baseline w ∧
      baseline ≠ .unmeasured ∧ w.tasks task = .running run ∧ run.pc = .gate ∧
      ¬run.Projected 1000 sparseTokens cutConfig := by
  have hsparse : (repeated 'a' 600000).utf8ByteSize = 600000 := by
    have hsize : 'a'.utf8Size = 1 := rfl
    rw [utf8ByteSize_repeated, hsize, Nat.mul_one]
  have hdense : (repeated 'b' 600001).utf8ByteSize = 600001 := by
    have hsize : 'b'.utf8Size = 1 := rfl
    rw [utf8ByteSize_repeated, hsize, Nat.mul_one]
  obtain ⟨sent, w, run, hrun, hrunning, hgate, hprojected, htokens⟩ :=
    undercounts_of_sizes hsparse hdense
  refine ⟨sparseTokens_le, .measured sent, w, 2, run, hrun, Baseline.noConfusion, hrunning,
    hgate, ?_⟩
  intro hcovered
  have hle := hcovered.1
  rw [htokens, hprojected] at hle
  omega

end Undercount
end Buzz
