import Buzz.AgentSession

/-!
# Cancels of a running prompt

A prompt that holds the session and has another look at its cancel channel ahead
stops as soon as a cancel arrives. A prompt that was read but has not taken the
session yet gets a fresh channel when it does, and a cancel that came before is
in the old one.
-/

namespace Buzz

section Looks

variable {cfg : AgentConfig} {run : RunState}

/-- The loop looks at the cancel channel again before it ends. -/
def RunState.looksAgain (cfg : AgentConfig) (run : RunState) : Prop :=
  match run.pc with
  | .start prompt => ∃ text, promptToText prompt = .ok text ∧ text.utf8ByteSize ≤ maxPromptBytes ∧
      ¬(0 < cfg.maxRounds ∧ cfg.maxRounds ≤ run.round)
  | .top => ¬(0 < cfg.maxRounds ∧ cfg.maxRounds ≤ run.round)
  | .responded response => response.toolCalls ≠ []
  | .stopHooks => False
  | _ => True

/-- Whatever it is told, the loop stops with `cancelled` and issues no request before. -/
inductive StopsCancelled (cfg : AgentConfig) : RunState → Prop where
  | intro {run : RunState} (enabled : ∃ input, (run.step cfg input).isSome = true)
      (quiet : ∀ input request next, run.step cfg input ≠ some (.issue request next))
      (done : ∀ input result last, run.step cfg input = some (.done result last) →
        result = .ok .cancelled)
      (next : ∀ input next, run.step cfg input = some (.next next) → StopsCancelled cfg next) :
      StopsCancelled cfg run

/-- A bound on the steps of a cancelled run. -/
def RunState.stepsLeft (run : RunState) : ℕ :=
  match run.pc with
  | .start _ => 3
  | .top => 2
  | .check => 1
  | .drain => run.steers.length + 3
  | .gate => 2
  | .summarizing => 1
  | .compacting _ _ => 2
  | .ready => 1
  | .completing => 1
  | .responded _ => 4
  | .stopHooks => 0
  | .preflight _ ex => ex.runnable.length + 3
  | .joining pending draining _ => pending.length + (if draining then 0 else 1) + 1

theorem exists_input_of_cancelled (hcancelled : run.cancelled = true) :
    ∃ input, (run.step cfg input).isSome = true := by
  cases hpc : run.pc with
  | start prompt => exact ⟨.go, by simp [RunState.step, hpc]⟩
  | top =>
      refine ⟨.go, ?_⟩
      simp only [RunState.step, hpc]
      split_ifs
      · rfl
      · rfl
  | check | drain | gate => exact ⟨.go, by simp [RunState.step, hpc]⟩
  | summarizing => exact ⟨.go, by simp [RunState.step, hpc, hcancelled]⟩
  | compacting => exact ⟨.hooks [], by simp [RunState.step, hpc]⟩
  | ready => exact ⟨.go, by simp [RunState.step, hpc]⟩
  | completing => exact ⟨.go, by simp [RunState.step, hpc, hcancelled]⟩
  | responded => exact ⟨.go, by simp [RunState.step, hpc]⟩
  | stopHooks => exact ⟨.hooks [], by simp [RunState.step, hpc]⟩
  | preflight idx ex =>
      by_cases hidx : ex.calls.length ≤ idx
      · exact ⟨.go, by simp [RunState.step, hpc, hidx]⟩
      · have hcall := List.getElem?_eq_getElem (not_le.mp hidx)
        exact ⟨.tool true [] false, by simp [RunState.step, hpc, RunState.preflight, hcall]⟩
  | joining pending draining ex =>
      cases draining with
      | true => exact ⟨.drainTimeout, by simp [RunState.step, hpc]⟩
      | false =>
          refine ⟨.go, ?_⟩
          simp only [RunState.step, hpc, hcancelled]
          split_ifs
          · rfl
          · rfl
          · simp_all

/-- Stopped by the cancel, or closer to the next look at it. -/
def Closer (cfg : AgentConfig) (run : RunState) (progress : Progress) : Prop :=
  (∃ last, progress = .done (.ok .cancelled) last) ∨
    ∃ next, progress = .next next ∧ next.cancelled = true ∧ next.looksAgain cfg ∧
      next.stepsLeft < run.stepsLeft

theorem closer_unlessCancelled (hcancelled : run.cancelled = true) (progress : Progress) :
    Closer cfg run (run.unlessCancelled progress) :=
  Or.inl ⟨run, if_pos hcancelled⟩

theorem closer_next {next : RunState} (hcancelled : next.cancelled = true)
    (hlooks : next.looksAgain cfg) (hlt : next.stepsLeft < run.stepsLeft) :
    Closer cfg run (.next next) :=
  Or.inr ⟨next, rfl, hcancelled, hlooks, hlt⟩

theorem closer_finishCalls (hcancelled : run.cancelled = true) (ex : Execution) :
    Closer cfg run (run.finishCalls ex) :=
  Or.inl ⟨_, if_pos hcancelled⟩

theorem closer_begin {prompt : List ContentBlock} (hpc : run.pc = .start prompt)
    (hcancelled : run.cancelled = true) (hlooks : run.looksAgain cfg) :
    Closer cfg run (run.begin prompt) := by
  simp only [RunState.looksAgain, hpc] at hlooks
  obtain ⟨text, htext, hsize, hround⟩ := hlooks
  simp only [RunState.begin, htext, if_neg (not_lt.mpr hsize)]
  exact closer_next hcancelled hround (by simp [RunState.stepsLeft, hpc])

theorem closer_drainSteers (hpc : run.pc = .drain) (hcancelled : run.cancelled = true) :
    Closer cfg run (.next run.drainSteers) := by
  cases hsteers : run.steers with
  | nil =>
      simp only [RunState.drainSteers, hsteers]
      exact closer_next hcancelled trivial (by simp [RunState.stepsLeft, hpc])
  | cons blocks rest =>
      simp only [RunState.drainSteers, hsteers]
      refine closer_next hcancelled ?_ ?_
      · simp only [RunState.looksAgain, hpc]
      · simp [RunState.stepsLeft, hpc, hsteers]

theorem closer_maybeHandoff (hpc : run.pc = .gate) (hcancelled : run.cancelled = true) :
    Closer cfg run (run.maybeHandoff cfg) := by
  unfold RunState.maybeHandoff
  split_ifs
  · exact closer_unlessCancelled hcancelled _
  · exact closer_next hcancelled trivial (by simp [RunState.stepsLeft, RunState.skipHandoff, hpc])

theorem closer_handleResponse {response : LlmResponse} (hpc : run.pc = .responded response)
    (hcancelled : run.cancelled = true) (hlooks : run.looksAgain cfg) :
    Closer cfg run (run.handleResponse cfg response) := by
  simp only [RunState.looksAgain, hpc] at hlooks
  have hcalls : response.toolCalls.isEmpty = false := by simpa using hlooks
  simp only [RunState.handleResponse, hcalls]
  exact closer_next hcancelled trivial (by simp [RunState.stepsLeft, hpc, Execution.start])

theorem closer_joined {pending : List ℕ} {draining : Bool} {ex : Execution} {idx : ℕ}
    {outcome : InvokeOutcome} {progress : Progress} (hpc : run.pc = .joining pending draining ex)
    (hcancelled : run.cancelled = true)
    (hstep : run.joined pending draining ex idx outcome = some progress) :
    Closer cfg run progress := by
  have hmem : idx ∈ pending := by
    by_contra hnot
    rw [RunState.joined, if_neg hnot] at hstep
    cases hstep
  rw [RunState.joined, if_pos hmem] at hstep
  obtain ⟨call, -, rfl⟩ := Option.map_eq_some_iff.mp hstep
  have hlength : (pending.erase idx).length = pending.length - 1 := List.length_erase_of_mem hmem
  have hpos : 0 < pending.length := List.length_pos_of_mem hmem
  split_ifs with hfirst hfilled
  · refine closer_next hcancelled trivial ?_
    have hdraining : draining = false := by simp_all
    simp [RunState.stepsLeft, hpc, hdraining]
  · refine closer_next hcancelled trivial ?_
    simp only [RunState.stepsLeft, hpc, hlength]
    omega
  · refine closer_next hcancelled trivial ?_
    simp only [RunState.stepsLeft, hpc, hlength]
    omega

theorem closer_preflight {idx : ℕ} {ex : Execution} {known skillError : Bool}
    {skillContent : List ToolResultContent} {progress : Progress}
    (hcancelled : run.cancelled = true)
    (hstep : run.preflight idx ex known skillContent skillError = some progress) :
    Closer cfg run progress := by
  obtain ⟨call, -, rfl⟩ := Option.map_eq_some_iff.mp hstep
  rw [if_pos hcancelled]
  exact Or.inl ⟨_, rfl⟩

/-- A cancelled run that looks again stops, or comes closer to its next look. -/
theorem step_of_cancelled {input : RunInput} {progress : Progress}
    (hcancelled : run.cancelled = true)
    (hlooks : run.looksAgain cfg) (hstep : run.step cfg input = some progress) :
    Closer cfg run progress := by
  cases stepped_of_step hstep with
  | begun prompt hpc => exact closer_begin hpc hcancelled hlooks
  | roundsUsed hpc hround =>
      simp only [RunState.looksAgain, hpc] at hlooks
      exact absurd hround hlooks
  | newRound hpc => exact closer_next hcancelled trivial (by simp [RunState.stepsLeft, hpc])
  | checked => exact closer_unlessCancelled hcancelled _
  | drained hpc => exact closer_drainSteers hpc hcancelled
  | gated hpc => exact closer_maybeHandoff hpc hcancelled
  | interrupted => exact Or.inl ⟨run, rfl⟩
  | summarized => exact closer_unlessCancelled hcancelled _
  | compacted _ _ _ hpc =>
      exact closer_next hcancelled trivial (by
        simp [RunState.stepsLeft, RunState.performHandoff, hpc])
  | requested | completed => exact closer_unlessCancelled hcancelled _
  | responded response hpc => exact closer_handleResponse hpc hcancelled hlooks
  | objected outputs hpc => simp only [RunState.looksAgain, hpc] at hlooks
  | preflight _ hcall => exact closer_preflight hcancelled hcall
  | spawned hpc =>
      exact closer_next hcancelled trivial (by simp [RunState.stepsLeft, hpc, hcancelled])
  | joined hpc hjoined => exact closer_joined hpc hcancelled hjoined
  | joinFailed hpc hmem =>
      have hpos := List.length_pos_of_mem hmem
      refine closer_next hcancelled trivial ?_
      simp only [RunState.stepsLeft, hpc, List.length_erase_of_mem hmem]
      omega
  | noticed hpc => exact closer_next hcancelled trivial (by simp [RunState.stepsLeft, hpc])
  | settled => exact closer_finishCalls hcancelled _

theorem stopsCancelled (hcancelled : run.cancelled = true) (hlooks : run.looksAgain cfg) :
    StopsCancelled cfg run := by
  induction hn : run.stepsLeft using Nat.strong_induction_on generalizing run with
  | _ n ih =>
      refine .intro (exists_input_of_cancelled hcancelled) ?_ ?_ ?_
      · intro input request next hstep
        rcases step_of_cancelled hcancelled hlooks hstep with ⟨last, hdone⟩ | ⟨_, hnext, -⟩
        · cases hdone
        · cases hnext
      · intro input result last hstep
        rcases step_of_cancelled hcancelled hlooks hstep with ⟨last, hdone⟩ | ⟨_, hnext, -⟩
        · exact (Progress.done.inj hdone).1
        · cases hnext
      · intro input next hstep
        rcases step_of_cancelled hcancelled hlooks hstep with ⟨last, hdone⟩
          | ⟨_, hnext, hc, hl, hlt⟩
        · cases hdone
        · obtain rfl := Progress.next.inj hnext
          exact ih _ (hn ▸ hlt) hc hl rfl

end Looks

section Prompts

variable {cfg : AgentConfig} {w u : AgentWorld} {task : ℕ}

/-- The cancel reached the prompt, which stops or has stopped because of it. -/
def AgentTask.ObservesCancel (cfg : AgentConfig) : AgentTask → Prop
  | running run => StopsCancelled cfg run
  | returning result _ => result = .ok .cancelled
  | finished result _ => result = .ok .cancelled
  | _ => False

/-- Every prompt that was unfinished when a cancel was read observes it and asks the model no
more. -/
def CancelObserved (cfg : AgentConfig) (w : AgentWorld) : Prop :=
  ∀ task, w.cancelRead task = true →
    w.requestsAfter task = 0 ∧ (w.tasks task).ObservesCancel cfg

/-- A cancel read now lands: no prompt waits for the session and the one that holds it looks at
its channel again. -/
def CancelLands (cfg : AgentConfig) (w : AgentWorld) : Prop :=
  ∀ task, match w.tasks task with
    | .waiting _ => False
    | .running run => run.looksAgain cfg
    | .returning result _ => result = .ok .cancelled
    | _ => True

def AgentTask.CancelHeld (cfg : AgentConfig) : AgentTask → Prop
  | running run => run.cancelled = true ∧ run.looksAgain cfg
  | returning result _ => result = .ok .cancelled
  | finished result _ => result = .ok .cancelled
  | _ => False

structure CancelInvariant (cfg : AgentConfig) (w : AgentWorld) : Prop where
  quiet : ∀ task, w.requestsAfter task = 0
  held : ∀ task, w.cancelRead task = true → (w.tasks task).CancelHeld cfg

theorem CancelInvariant.observed (h : CancelInvariant cfg w) : CancelObserved cfg w := by
  intro task hread
  refine ⟨h.quiet task, ?_⟩
  have hheld := h.held task hread
  cases hstate : w.tasks task with
  | running run =>
      rw [hstate] at hheld
      exact stopsCancelled hheld.1 hheld.2
  | returning result run | finished result run | absent | waiting prompt | rejected =>
      rw [hstate] at hheld
      exact hheld

theorem CancelInvariant.setTask (h : CancelInvariant cfg w) {state : AgentTask}
    (hstate : w.cancelRead task = true → state.CancelHeld cfg) :
    CancelInvariant cfg (w.setTask task state) where
  quiet := h.quiet
  held := forall_setTask (P := fun t s => w.cancelRead t = true → s.CancelHeld cfg) hstate
    fun t _ => h.held t

theorem cancelHeld_modifyRun {state : AgentTask} {f : RunState → RunState}
    (hcancelled : ∀ run, run.cancelled = true → (f run).cancelled = true)
    (hlooks : ∀ run, run.looksAgain cfg → (f run).looksAgain cfg) (h : state.CancelHeld cfg) :
    (state.modifyRun f).CancelHeld cfg := by
  cases state with
  | running run => exact ⟨hcancelled run h.1, hlooks run h.2⟩
  | returning result run | finished result run | absent | waiting prompt | rejected => exact h

/-- A prompt for which no cancel was read may do anything. -/
theorem CancelInvariant.not_read (h : CancelInvariant cfg w)
    (hstate : ¬(w.tasks task).CancelHeld cfg) : w.cancelRead task = false := by
  cases hread : w.cancelRead task with
  | false => rfl
  | true => exact absurd (h.held task hread) hstate

theorem CancelInvariant.cancel (h : CancelInvariant cfg w) (hsession : SessionHeld w)
    (hlands : CancelLands cfg w) : CancelInvariant cfg w.cancelSession where
  quiet := h.quiet
  held := by
    intro t hread
    have hlands := hlands t
    have hbefore : (w.tasks t).CancelHeld cfg ∨ (∃ run, w.tasks t = .running run) := by
      rcases Bool.or_eq_true_iff.mp hread with hold | hunfinished
      · exact Or.inl (h.held t hold)
      · cases hstate : w.tasks t with
        | running run => exact Or.inr ⟨run, rfl⟩
        | returning result run =>
            rw [hstate] at hlands
            exact Or.inl hlands
        | waiting prompt =>
            rw [hstate] at hlands
            exact hlands.elim
        | absent | rejected | finished result run =>
            rw [hstate] at hunfinished
            cases hunfinished
    rcases hbefore with hheld | ⟨run, hrunning⟩
    · rcases tasks_cancelSession w t with hsame | hmodified
      · rw [hsame]
        exact hheld
      · rw [hmodified]
        exact cancelHeld_modifyRun (fun _ _ => rfl) (fun _ hlooks => hlooks) hheld
    · have htx := (hsession.held t run (by rw [hrunning]; rfl)).2.1
      have hmodified : w.cancelSession.tasks t = .running { run with cancelled := true } := by
        simp only [AgentWorld.cancelSession, htx, Function.update_self, hrunning]
        rfl
      rw [hrunning] at hlands
      rw [hmodified]
      exact ⟨rfl, hlands⟩

theorem CancelInvariant.advance (h : CancelInvariant cfg w) {run : RunState} {input : RunInput}
    {progress : Progress} (hrunning : w.tasks task = .running run)
    (hstep : run.step cfg input = some progress) :
    CancelInvariant cfg (w.progress task progress) := by
  cases hread : w.cancelRead task with
  | true =>
      have hheld := h.held task hread
      rw [hrunning] at hheld
      rcases step_of_cancelled hheld.1 hheld.2 hstep with ⟨last, rfl⟩ | ⟨next, rfl, hc, hl, -⟩
      · exact h.setTask fun _ => rfl
      · exact h.setTask fun _ => ⟨hc, hl⟩
  | false =>
      have hfree {P : Prop} (hcontra : w.cancelRead task = true) : P := by
        rw [hread] at hcontra
        cases hcontra
      cases progress with
      | next run | done result run => exact h.setTask hfree
      | issue request run =>
          have hlog : CancelInvariant cfg (w.logRequest task request) := by
            refine ⟨?_, h.held⟩
            simp only [AgentWorld.logRequest, hread]
            exact h.quiet
          exact hlog.setTask hfree

theorem CancelInvariant.step {event : AgentEvent} (h : CancelInvariant cfg w)
    (hsession : SessionHeld w) (hallowed : event = .readCancel → CancelLands cfg w)
    (hstep : w.step cfg event = some u) : CancelInvariant cfg u := by
  have hfree {t : ℕ} {P : Prop} (hstate : ¬(w.tasks t).CancelHeld cfg)
      (hcontra : w.cancelRead t = true) : P := by
    rw [h.not_read hstate] at hcontra
    cases hcontra
  cases happened_of_step hstep with
  | prompt _ habsent => exact h.setTask (hfree (by rw [habsent]; exact id))
  | cancel => exact h.cancel hsession (hallowed rfl)
  | steer =>
      refine h.setTask fun hread => ?_
      exact cancelHeld_modifyRun (fun _ hc => hc) (fun _ hl => hl) (h.held _ hread)
  | refused => exact h
  | rejected _ _ hwaiting => exact h.setTask (hfree (by rw [hwaiting]; exact id))
  | @acquired task prompt _ hwaiting =>
      have hset : CancelInvariant cfg (w.setTask task (.running (w.session.freshRun prompt))) :=
        h.setTask (hfree (by rw [hwaiting]; exact id))
      exact ⟨hset.quiet, hset.held⟩
  | advanced _ _ hrunning hprogress => exact h.advance hrunning hprogress
  | @released task run result hreturning =>
      have hset : CancelInvariant cfg (w.setTask task (.finished result run)) := by
        refine h.setTask fun hread => ?_
        have hheld := h.held task hread
        rw [hreturning] at hheld
        exact hheld
      exact ⟨hset.quiet, hset.held⟩

theorem cancelInvariant_of_run
    (hrun : AgentRun cfg (fun w event => event = .readCancel → CancelLands cfg w) w) :
    CancelInvariant cfg w := by
  induction hrun with
  | new =>
      refine ⟨fun _ => rfl, ?_⟩
      intro task hread
      cases hread
  | step hbefore hallowed hstep ih => exact ih.step (sessionHeld_of_run hbefore) hallowed hstep

/-- In a run whose cancels all land, no cancel is lost. -/
theorem cancel_observed
    (hrun : AgentRun cfg (fun w event => event = .readCancel → CancelLands cfg w) w) :
    CancelObserved cfg w :=
  (cancelInvariant_of_run hrun).observed

/-- The prompt holds the session when the cancel is read. -/
theorem cancel_observed_running : ∃ w, w.cancelRead 0 = true ∧
    (∃ run, w.tasks 0 = .finished (.ok .cancelled) run) ∧ CancelObserved .default w := by
  let before : List AgentEvent := [.readPrompt 0 [.text "hi"], .acquire 0 "run_1"]
  let after : List AgentEvent := [.advance 0 .go, .advance 0 .go, .advance 0 .go, .release 0]
  let taken := (AgentWorld.new.setTask 0 (.waiting [.text "hi"])).takeSession 0 [.text "hi"] "run_1"
  have htaken : AgentRun .default (fun w event => event = .readCancel → CancelLands .default w)
      taken := by
    refine AgentRun.new.steps ?_ (rfl : AgentWorld.new.steps .default before = some taken)
    simp [before]
  have hlands : CancelLands .default taken := by
    intro task
    by_cases htask : task = 0
    · subst htask
      exact ⟨"hi", rfl, by decide, by decide⟩
    · have habsent : taken.tasks task = .absent := by
        simp [taken, AgentWorld.takeSession, AgentWorld.setTask, Function.update_of_ne htask]
        rfl
      rw [habsent]
      trivial
  have hcancelled := htaken.step (fun _ => hlands) (rfl : taken.step .default .readCancel = _)
  obtain ⟨w, hw⟩ := Option.isSome_iff_exists.mp
    (rfl : (taken.cancelSession.steps .default after).isSome = true)
  have hrun := hcancelled.steps (by simp [after]) hw
  obtain rfl := Option.some_inj.mp hw
  exact ⟨_, rfl, ⟨_, rfl⟩, cancel_observed hrun⟩

/-- The prompt takes the session after the cancel was read. -/
def lateAcquire : List AgentEvent :=
  [.readPrompt 0 [.text "hi"], .readCancel, .acquire 0 "run_1", .advance 0 .go, .advance 0 .go,
    .advance 0 .go, .advance 0 .go, .advance 0 .go, .advance 0 .go,
    .advance 0 (.completion (.ok ⟨"done", [], .endTurn, none⟩)), .advance 0 .go,
    .advance 0 (.hooks []), .release 0]

theorem cancel_lost : ∃ w, AgentRun .default (fun _ _ => True) w ∧ w.cancelRead 0 = true ∧
    w.requestsAfter 0 = 1 ∧ ¬CancelObserved .default w := by
  have hsome : (AgentWorld.new.steps .default lateAcquire).isSome = true := rfl
  obtain ⟨w, hw⟩ := Option.isSome_iff_exists.mp hsome
  have hread : (AgentWorld.new.steps .default lateAcquire).map (fun w => w.cancelRead 0) =
      some true := rfl
  have hcount : (AgentWorld.new.steps .default lateAcquire).map (fun w => w.requestsAfter 0) =
      some 1 := rfl
  rw [hw] at hread hcount
  have hread' : w.cancelRead 0 = true := Option.some_inj.mp hread
  have hcount' : w.requestsAfter 0 = 1 := Option.some_inj.mp hcount
  refine ⟨w, AgentRun.new.steps (fun _ _ _ => trivial) hw, hread', hcount', fun hobserved => ?_⟩
  have hzero := (hobserved 0 hread').1
  omega

end Prompts
end Buzz
