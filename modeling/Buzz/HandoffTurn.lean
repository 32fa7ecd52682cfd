import Buzz.AgentSteer
import Buzz.ProviderBodies

/-!
# What a handoff keeps of the current turn

A turn starts with its prompt, and a steer that is folded in is a user item as
well. The handoff keeps the last user item of the history only, so a turn that was
steered loses what came before its last steer.
-/

namespace Buzz

/-- What happens to a running prompt: its loop goes on, a cancel or a steer arrives. -/
inductive TurnEvent where
  | advance (input : RunInput)
  | cancel
  | steer (blocks : List ContentBlock)

/-- The run goes on unless its prompt is over. -/
def Progress.continuing : Progress → Option RunState
  | next run => some run
  | issue _ run => some run
  | done _ _ => none

def RunState.turn (cfg : AgentConfig) (run : RunState) : TurnEvent → Option RunState
  | .advance input => (run.step cfg input).bind Progress.continuing
  | .cancel => some { run with cancelled := true }
  | .steer blocks =>
      some { run with steers := run.steers ++ [blocks], accepted := run.accepted ++ [blocks] }

def RunState.turns (cfg : AgentConfig) (run : RunState) : List TurnEvent → Option RunState
  | [] => some run
  | event :: rest => (run.turn cfg event).bind fun next => next.turns cfg rest

/-- The states of a turn that a prompt starts on a session, whatever history the session has. -/
inductive InTurn (cfg : AgentConfig) (session : AgentSession) (prompt : List ContentBlock) :
    RunState → Prop where
  | start : InTurn cfg session prompt (session.freshRun prompt)
  | step {run next : RunState} {event : TurnEvent} : InTurn cfg session prompt run →
      run.turn cfg event = some next → InTurn cfg session prompt next

theorem InTurn.turns {cfg : AgentConfig} {session : AgentSession} {prompt : List ContentBlock}
    {run next : RunState} {events : List TurnEvent} (hturn : InTurn cfg session prompt run)
    (h : run.turns cfg events = some next) : InTurn cfg session prompt next := by
  induction events generalizing run with
  | nil =>
      obtain rfl := Option.some_inj.mp h
      exact hturn
  | cons event rest ih =>
      obtain ⟨mid, hmid, hrest⟩ := Option.bind_eq_some_iff.mp h
      exact ih (hturn.step hmid) hrest

/-- The prompt of the turn and the steers folded in since then are user items of the history, in
their order. -/
def KeepsTurn (text : String) (run : RunState) : Prop :=
  (text :: run.pickedUp).Sublist (userTexts run.history)

section LastUser

variable {history : List HistoryItem}

theorem lastUserText_eq (history : List HistoryItem) :
    lastUserText history = (userTexts history).getLast? := by
  have hfound : lastUserText history = history.reverse.findSome? HistoryItem.userText := by
    unfold lastUserText
    congr 1
  rw [hfound, userTexts, ← List.head?_reverse, ← List.filterMap_reverse, List.head?_filterMap]

theorem userTexts_append (before after : List HistoryItem) :
    userTexts (before ++ after) = userTexts before ++ userTexts after :=
  List.filterMap_append

theorem lastUserText_append_user (history : List HistoryItem) (text : String) :
    lastUserText (history ++ [.user text]) = some text := by
  rw [lastUserText_eq, userTexts_append]
  exact List.getLast?_concat

/-- Items that are not from the user do not change which user item is the last. -/
theorem lastUserText_append_quiet {items : List HistoryItem} (h : userTexts items = []) :
    lastUserText (history ++ items) = lastUserText history := by
  rw [lastUserText_eq, lastUserText_eq, userTexts_append, h, List.append_nil]

theorem userTexts_toolResults (results : List ToolResult) :
    userTexts (results.map .toolResult) = [] := by
  induction results with
  | nil => rfl
  | cons result results ih => exact ih

theorem userTexts_hookOutputs (hook : String) (outputs : List HookOutput) :
    userTexts (outputs.flatMap (hookOutputItems hook)) = [] := by
  induction outputs with
  | nil => rfl
  | cons output outputs ih => exact ih

/-- A truncation keeps the last user item, because it only drops turns that another one follows. -/
theorem lastUserText_truncateHistory (maxBytes : ℕ) (history : List HistoryItem) :
    lastUserText (truncateHistory maxBytes history) = lastUserText history := by
  fun_induction truncateHistory maxBytes history with
  | case1 history hsmall => rfl
  | case2 history hlarge hlast => rfl
  | case3 history hlarge hmore ih =>
      obtain ⟨item, rest, hrest⟩ := List.exists_cons_of_ne_nil hmore
      have huser : item.isUser = true := head_dropTurn (by rw [hrest]; rfl)
      obtain ⟨dropped, hdropped⟩ : dropTurn history <:+ history :=
        (List.dropWhile_suffix _).trans (List.tail_suffix history)
      have hsome : userTexts (dropTurn history) ≠ [] := by
        rw [hrest]
        cases item with
        | user text => exact List.cons_ne_nil _ _
        | assistant text calls | toolResult result => cases huser
      rw [ih, lastUserText_eq, lastUserText_eq]
      conv_rhs => rw [← hdropped, userTexts_append]
      exact (List.getLast?_append_of_ne_nil _ hsome).symm

end LastUser

section Steps

variable {cfg : AgentConfig} {session : AgentSession} {prompt : List ContentBlock} {text : String}
variable {run : RunState}
variable {progress : Progress} {summary : String} {currentPrompt : Option String}

/-- The newest message of the turn: its last steer, or else its prompt. -/
def RunState.newest (text : String) (run : RunState) : String :=
  run.pickedUp.getLast?.getD text

/-- The last user item of the history is the newest message of the turn. -/
def RunState.LastKept (prompt : List ContentBlock) (text : String) (run : RunState) : Prop :=
  match run.pc with
  | .start blocks => blocks = prompt ∧ run.pickedUp = []
  | .compacting _ currentPrompt => currentPrompt = some (run.newest text) ∧ run.history = []
  | _ => lastUserText run.history = some (run.newest text)

def Progress.LastKept (prompt : List ContentBlock) (text : String) : Progress → Prop
  | next run => run.LastKept prompt text
  | issue _ run => run.LastKept prompt text
  | done _ _ => True

theorem lastKept_unlessCancelled (h : progress.LastKept prompt text) :
    (run.unlessCancelled progress).LastKept prompt text := by
  unfold RunState.unlessCancelled
  split_ifs
  · trivial
  · exact h

theorem lastKept_begin (htext : promptToText prompt = .ok text) (hfresh : run.pickedUp = []) :
    (run.begin prompt).LastKept prompt text := by
  unfold RunState.begin
  rw [htext]
  simp only
  split_ifs
  · trivial
  · simp only [Progress.LastKept, RunState.LastKept, RunState.newest, hfresh]
    exact lastUserText_append_user run.history text

theorem lastKept_drainSteers (h : lastUserText run.history = some (run.newest text))
    (hpc : run.pc = .drain) : run.drainSteers.LastKept prompt text := by
  unfold RunState.drainSteers
  split
  · exact h
  · rename_i blocks rest hsteers
    simp only [RunState.LastKept, hpc, RunState.newest]
    cases hblocks : steerText blocks with
    | none =>
        simp only [Option.map_none, Option.toList_none, List.append_nil]
        exact h
    | some steer =>
        simp only [Option.map_some, Option.toList_some, List.getLast?_concat, Option.getD_some]
        exact lastUserText_append_user run.history steer

theorem lastKept_skipHandoff (h : lastUserText run.history = some (run.newest text)) :
    (run.skipHandoff cfg).LastKept prompt text :=
  (lastUserText_truncateHistory cfg.maxHistoryBytes run.history).trans h

theorem lastKept_summarized (h : lastUserText run.history = some (run.newest text))
    (result : Except AgentError String) : (run.summarized cfg result).LastKept prompt text := by
  unfold RunState.summarized
  split
  · split_ifs
    · exact ⟨h, rfl⟩
    · exact lastKept_skipHandoff h
  · exact lastKept_skipHandoff h

theorem lastKept_completed (h : lastUserText run.history = some (run.newest text))
    (result : Except AgentError LlmResponse) : (run.completed result).LastKept prompt text := by
  unfold RunState.completed
  split
  · trivial
  · split
    · exact h
    · exact h

theorem lastKept_handleResponse (h : lastUserText run.history = some (run.newest text))
    (response : LlmResponse) : (run.handleResponse cfg response).LastKept prompt text := by
  have hquiet (calls : List ToolCall) : lastUserText
    (run.history ++ [.assistant response.text calls]) =
      some (run.newest text) := by
    rw [lastUserText_append_quiet rfl]
    exact h
  unfold RunState.handleResponse
  simp only
  split_ifs
  · trivial
  · exact hquiet []
  · trivial
  · exact hquiet _

theorem lastKept_handleObjections (h : lastUserText run.history = some (run.newest text))
    (objections : List HookOutput) : (run.handleObjections objections).LastKept prompt text := by
  unfold RunState.handleObjections
  split_ifs
  · trivial
  · change lastUserText (run.history ++ _) = some (run.newest text)
    rw [lastUserText_append_quiet (userTexts_hookOutputs _ _)]
    exact h

theorem lastKept_preflight {idx : ℕ} {ex : Execution} {known skillError : Bool}
    {skillContent : List ToolResultContent}
    (h : lastUserText run.history = some (run.newest text))
    (hprogress : run.preflight idx ex known skillContent skillError = some progress) :
    progress.LastKept prompt text := by
  obtain ⟨call, -, rfl⟩ := Option.map_eq_some_iff.mp hprogress
  split_ifs
  · trivial
  · exact h
  · exact h
  · exact h

theorem lastKept_joined {pending : List ℕ} {draining : Bool} {ex : Execution} {idx : ℕ}
    {outcome : InvokeOutcome}
    (h : lastUserText run.history = some (run.newest text))
    (hprogress : run.joined pending draining ex idx outcome = some progress) :
    progress.LastKept prompt text := by
  unfold RunState.joined at hprogress
  split at hprogress
  · obtain ⟨call, -, rfl⟩ := Option.map_eq_some_iff.mp hprogress
    split_ifs
    · exact h
    · exact h
    · exact h
  · cases hprogress

theorem lastKept_finishCalls (h : lastUserText run.history = some (run.newest text))
    (ex : Execution) : (run.finishCalls ex).LastKept prompt text := by
  unfold RunState.finishCalls
  simp only
  split_ifs
  · trivial
  · change lastUserText (run.history ++ _) = some (run.newest text)
    unfold Execution.appendResults
    rw [lastUserText_append_quiet (userTexts_toolResults _)]
    exact h

theorem lastKept_step (htext : promptToText prompt = .ok text) {input : RunInput}
    (h : run.LastKept prompt text)
    (hstep : run.step cfg input = some progress) : progress.LastKept prompt text := by
  unfold RunState.LastKept at h
  cases stepped_of_step hstep with
  | begun blocks hpc =>
      rw [hpc] at h
      obtain ⟨rfl, hfresh⟩ := h
      exact lastKept_begin htext hfresh
  | roundsUsed => trivial
  | newRound hpc =>
      rw [hpc] at h
      exact h
  | checked hpc =>
      rw [hpc] at h
      exact lastKept_unlessCancelled h
  | drained hpc =>
      rw [hpc] at h
      exact lastKept_drainSteers h hpc
  | gated hpc =>
      rw [hpc] at h
      have hskip : (run.skipHandoff cfg).LastKept prompt text := lastKept_skipHandoff h
      unfold RunState.maybeHandoff
      split_ifs
      · exact lastKept_unlessCancelled h
      · exact hskip
  | interrupted => trivial
  | summarized result hpc =>
      rw [hpc] at h
      exact lastKept_unlessCancelled (lastKept_summarized h result)
  | compacted summary currentPrompt outputs hpc =>
      rw [hpc] at h
      obtain ⟨rfl, -⟩ := h
      exact lastUserText_append_user _ (run.newest text)
  | requested hpc =>
      rw [hpc] at h
      exact lastKept_unlessCancelled h
  | completed result hpc =>
      rw [hpc] at h
      exact lastKept_unlessCancelled (lastKept_completed h result)
  | responded response hpc =>
      rw [hpc] at h
      exact lastKept_handleResponse h response
  | objected outputs hpc =>
      rw [hpc] at h
      exact lastKept_handleObjections h outputs
  | preflight hpc hprogress =>
      rw [hpc] at h
      exact lastKept_preflight h hprogress
  | spawned hpc =>
      rw [hpc] at h
      exact h
  | joined hpc hprogress =>
      rw [hpc] at h
      exact lastKept_joined h hprogress
  | joinFailed hpc | noticed hpc =>
      rw [hpc] at h
      exact h
  | settled hpc =>
      rw [hpc] at h
      exact lastKept_finishCalls h _

theorem Progress.LastKept.continuing {next : RunState} (h : progress.LastKept prompt text)
    (hnext : progress.continuing = some next) : next.LastKept prompt text := by
  cases progress with
  | next run | issue request run =>
      obtain rfl := Option.some_inj.mp hnext
      exact h
  | done result run => cases hnext

theorem InTurn.lastKept (htext : promptToText prompt = .ok text)
    (hturn : InTurn cfg session prompt run) : run.LastKept prompt text := by
  induction hturn with
  | start => exact ⟨rfl, rfl⟩
  | @step run next event _ hevent ih =>
      cases event with
      | advance input =>
          obtain ⟨progress, hstep, hnext⟩ := Option.bind_eq_some_iff.mp hevent
          exact (lastKept_step htext ih hstep).continuing hnext
      | cancel | steer blocks =>
          obtain rfl := Option.some_inj.mp hevent
          exact ih

theorem InTurn.steersKept (hturn : InTurn cfg session prompt run) : run.SteersKept := by
  induction hturn with
  | start => rfl
  | @step run next event _ hevent ih =>
      cases event with
      | advance input =>
          obtain ⟨progress, hstep, hnext⟩ := Option.bind_eq_some_iff.mp hevent
          have hkept := steersKept_step ih hstep
          cases progress with
          | next mid | issue request mid =>
              obtain rfl := Option.some_inj.mp hnext
              exact hkept
          | done result last => cases hnext
      | cancel =>
          obtain rfl := Option.some_inj.mp hevent
          exact ih
      | steer blocks =>
          obtain rfl := Option.some_inj.mp hevent
          exact steersKept_accept blocks ih

/-- Of the messages of the turn, the fresh context has the newest one behind its own text. -/
theorem userTexts_performHandoff
    (h : run.LastKept prompt text) (hpc : run.pc = .compacting summary currentPrompt)
    (outputs : List HookOutput) :
    userTexts (run.performHandoff summary currentPrompt outputs).history =
      [handoffText summary outputs, run.newest text] := by
  unfold RunState.LastKept at h
  rw [hpc] at h
  obtain ⟨rfl, hempty⟩ := h
  simp only [RunState.performHandoff, hempty]
  rfl

theorem sublist_newest_iff (handoff text : String) (pickedUp : List String) :
    (text :: pickedUp).Sublist [handoff, pickedUp.getLast?.getD text] ↔
      pickedUp = [] ∨ (∃ steer, pickedUp = [steer]) ∧ text = handoff := by
  match pickedUp with
  | [] => exact iff_of_true (List.sublist_cons_self handoff [text]) (Or.inl rfl)
  | [steer] =>
      constructor
      · intro hsublist
        have heq := hsublist.eq_of_length rfl
        exact Or.inr ⟨⟨steer, rfl⟩, (List.cons.inj heq).1⟩
      · rintro (hnil | ⟨-, rfl⟩)
        · cases hnil
        · exact List.Sublist.refl _
  | first :: second :: rest =>
      constructor
      · intro hsublist
        have hlength := hsublist.length_le
        simp only [List.length_cons, List.length_nil] at hlength
        omega
      · rintro (hnil | ⟨⟨steer, hone⟩, -⟩)
        · cases hnil
        · cases hone

theorem turn_hooks (hpc : run.pc = .compacting summary currentPrompt) (outputs : List HookOutput) :
    run.turn cfg (.advance (.hooks outputs)) =
      some (run.performHandoff summary currentPrompt outputs) := by
  simp only [RunState.turn, RunState.step, hpc, Option.bind_some, Progress.continuing]

/-- A handoff keeps the turn if and only if no steer was folded in, or if there was one and the
prompt reads like the text of the handoff. The accepted steers that were not folded in are still
queued. -/
theorem handoff_keeps_turn_iff (hturn : InTurn cfg session prompt run)
    (htext : promptToText prompt = .ok text) {summary : String} {currentPrompt : Option String}
    (hpc : run.pc = .compacting summary currentPrompt) {outputs : List HookOutput} {next : RunState}
    (hstep : run.turn cfg (.advance (.hooks outputs)) = some next) :
    next.SteersKept ∧ (KeepsTurn text next ↔ run.pickedUp = [] ∨
      (∃ steer, run.pickedUp = [steer]) ∧ text = handoffText summary outputs) := by
  have hkept := (hturn.step hstep).steersKept
  rw [turn_hooks hpc outputs] at hstep
  obtain rfl := Option.some_inj.mp hstep
  refine ⟨hkept, ?_⟩
  unfold KeepsTurn
  rw [userTexts_performHandoff (hturn.lastKept htext) hpc outputs]
  exact sublist_newest_iff _ text run.pickedUp

/-- The first request fills the window, so that the second round hands over. -/
def fullWindow : List TurnEvent :=
  [.advance .go, .advance .go, .advance .go, .advance .go, .advance .go, .advance .go,
    .advance (.completion (.ok ⟨"", [⟨"a", "dev__shell", "\x7b\x7d"⟩], .toolUse, some 170000⟩)),
    .advance .go, .advance (.tool true [] false), .advance .go,
    .advance (.joined 0 (.done [.text "ok"] false)), .advance .go]

def handedOver : List TurnEvent :=
  [.advance .go, .advance .go, .advance .go, .advance .go, .advance (.summary (.ok "halfway"))]

theorem turn_played {events : List TurnEvent} {summary newest : String} {steers : List String}
    (h : ((AgentSession.new.freshRun [.text "fix the parser"]).turns .default events).map
        (fun run => (run.pc, run.history, run.pickedUp)) =
      some (.compacting summary (some newest), [], steers)) :
    ∃ run : RunState, InTurn .default .new [.text "fix the parser"] run ∧
      run.pc = .compacting summary (some newest) ∧ run.pickedUp = steers ∧
      (run.performHandoff summary (some newest) []).history =
        [.user (handoffText summary []), .user newest] := by
  obtain ⟨run, hrun, hstate⟩ := Option.map_eq_some_iff.mp h
  obtain ⟨hpc, hhistory, hpicked⟩ : run.pc = _ ∧ run.history = _ ∧ run.pickedUp = _ := by
    simpa only [Prod.mk.injEq] using hstate
  refine ⟨run, InTurn.start.turns hrun, hpc, hpicked, ?_⟩
  simp only [RunState.performHandoff, hhistory]
  rfl

/-- The steer is folded in before the handoff. -/
def steeredWindow : List TurnEvent :=
  fullWindow ++ [.steer [.text "use the new API"], .advance .go] ++ handedOver

theorem steered_played : ∃ run : RunState, InTurn .default .new [.text "fix the parser"] run ∧
    run.pc = .compacting "halfway" (some "use the new API") ∧
    run.pickedUp = ["use the new API"] ∧
    (run.performHandoff "halfway" (some "use the new API") []).history =
      [.user (handoffText "halfway" []), .user "use the new API"] :=
  turn_played (by decide +kernel :
    ((AgentSession.new.freshRun [.text "fix the parser"]).turns .default steeredWindow).map
        (fun run => (run.pc, run.history, run.pickedUp)) =
      some (.compacting "halfway" (some "use the new API"), [], ["use the new API"]))

theorem handoff_keeps_turn_iff_steered : (∃ run next : RunState, run.pickedUp = [] ∧
      next.history = [.user (handoffText "halfway" []), .user "fix the parser"] ∧
      next.SteersKept ∧ (KeepsTurn "fix the parser" next ↔ run.pickedUp = [] ∨
        (∃ steer, run.pickedUp = [steer]) ∧ "fix the parser" = handoffText "halfway" [])) ∧
    ∃ run next : RunState, run.pickedUp = ["use the new API"] ∧
      next.history = [.user (handoffText "halfway" []), .user "use the new API"] ∧
      next.SteersKept ∧ (KeepsTurn "fix the parser" next ↔ run.pickedUp = [] ∨
        (∃ steer, run.pickedUp = [steer]) ∧ "fix the parser" = handoffText "halfway" []) := by
  have htext : promptToText [.text "fix the parser"] = .ok "fix the parser" := by decide +kernel
  constructor
  · obtain ⟨run, hturn, hpc, hpicked, hhistory⟩ := turn_played (by decide +kernel :
      ((AgentSession.new.freshRun [.text "fix the parser"]).turns .default
          (fullWindow ++ handedOver)).map (fun run => (run.pc, run.history, run.pickedUp)) =
        some (.compacting "halfway" (some "fix the parser"), [], []))
    exact ⟨run, run.performHandoff "halfway" (some "fix the parser") [], hpicked, hhistory,
      handoff_keeps_turn_iff hturn htext hpc (turn_hooks hpc [])⟩
  · obtain ⟨run, hturn, hpc, hpicked, hhistory⟩ := steered_played
    exact ⟨run, run.performHandoff "halfway" (some "use the new API") [], hpicked, hhistory,
      handoff_keeps_turn_iff hturn htext hpc (turn_hooks hpc [])⟩

/-- The handoff of a turn that was steered loses its prompt. -/
theorem handoff_loses_prompt : ∃ run next : RunState,
    InTurn .default .new [.text "fix the parser"] run ∧ run.pickedUp = ["use the new API"] ∧
    run.turn .default (.advance (.hooks [])) = some next ∧
    next.history = [.user "[Context Handoff]\nhalfway", .user "use the new API"] ∧
    ¬KeepsTurn "fix the parser" next := by
  obtain ⟨run, hturn, hpc, hpicked, hhistory⟩ := steered_played
  let next := run.performHandoff "halfway" (some "use the new API") []
  have hnext : next.history = [.user "[Context Handoff]\nhalfway", .user "use the new API"] := by
    rw [hhistory]
    decide +kernel
  refine ⟨run, next, hturn, hpicked, turn_hooks hpc [], hnext, ?_⟩
  unfold KeepsTurn
  have hkept : next.pickedUp = ["use the new API"] := hpicked
  rw [hnext, hkept]
  decide +kernel

end Steps

section Prompts

variable {cfg : AgentConfig} {w u : AgentWorld} {task : ℕ} {run : RunState}

end Prompts
end Buzz
