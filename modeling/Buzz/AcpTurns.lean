import Buzz.AcpFrames
import Buzz.AgentArgs
import Buzz.CausalHarness
import Buzz.ExceptRules
import Buzz.ProgramLog

/-!
# Silent turns

A directed turn that ended silently is run again, so it must not have done anything.
What an attempt has shown is read off its frames, and the loop over the attempts is
followed with the frames that each of them has read.
-/

namespace Buzz

open EffectProgram

section Client

/-- The client of a running agent with what its standard output will give. -/
structure AcpClient where
  nextId : UInt64
  incoming : List FrameRead

/-- The number is used up also where the line could not be written. -/
def AcpClient.sendRequest (client : AcpClient) (write : Except AcpError Unit) :
    Except AcpError UInt64 × AcpClient :=
  (write.map fun _ => client.nextId,
    { client with nextId := if client.nextId.toNat + 1 < 2 ^ 64 then client.nextId + 1
        else client.nextId })

def stopReasonOf (response : Json) : Except AcpError String :=
  match (response.getStr "stopReason").filter (· ≠ "") with
  | some stopReason => .ok stopReason
  | none => .error (.protocol "session/prompt response omitted stopReason")

/-- The result of a prompt and the client after it, if the given reads lead to a result. -/
def AcpClient.prompt (client : AcpClient) (write : Except AcpError Unit) :
    Option (Except AcpError AcpTurnOutcome × AcpClient) :=
  match client.sendRequest write with
  | (.error error, next) => some (.error error, next)
  | (.ok id, next) =>
      match readResponse id .fresh next.incoming with
      | .waiting _ => none
      | .ended (.error error) _ rest => some (.error error, { next with incoming := rest })
      | .ended (.ok response) progress rest =>
          some ((stopReasonOf response).map progress.finish, { next with incoming := rest })

end Client

section Frames

/-- A frame about a tool call. -/
def ToolFrame (frame : Json) : Prop :=
  ∃ update, sessionUpdate frame = some update ∧
    (update.getStr "sessionUpdate" = some "tool_call" ∨
      update.getStr "sessionUpdate" = some "tool_call_update")

/-- A frame that says that the tool call has come to a bad end. -/
def TerminalFailure (toolCallId : String) (frame : Json) : Prop :=
  ToolFrame frame ∧ ∃ update status, sessionUpdate frame = some update ∧
    update.getStr "toolCallId" = some toolCallId ∧ toolCallId ≠ "" ∧
    update.getStr "status" = some status ∧
    (status ∈ ["failed", "cancelled", "error"] ∨
      status = "completed" ∧ (update.get "rawOutput").bind (·.getBool "isError") = some true)

/-- The text that a frame adds to what the user would see. -/
def chunkText (frame : Json) : String :=
  match sessionUpdate frame with
  | none => ""
  | some update =>
      if update.getStr "sessionUpdate" = some "agent_message_chunk" then
        ((update.get "content").bind (·.getStr "text")).getD ""
      else ""

def visibleText (frames : List Json) : String :=
  frames.foldl (fun text frame => text ++ chunkText frame) ""

/-- Nothing but blanks was said and no tool was touched. -/
structure SilentFrames (frames : List Json) : Prop where
  blank : ∀ c ∈ (visibleText frames).toList, isWhitespace c = true
  noTool : ∀ frame ∈ frames, ¬ToolFrame frame

end Frames

section Collecting

variable {frame : Json} {progress : TurnProgress}
variable {toolCallId : String}

theorem toolFrame_iff {update : Json} (h : sessionUpdate frame = some update) :
    ToolFrame frame ↔ update.getStr "sessionUpdate" = some "tool_call" ∨
      update.getStr "sessionUpdate" = some "tool_call_update" := by
  simp [ToolFrame, h]

variable (frame progress) in
/-- What one frame does to the progress. -/
theorem collectTurnProgress_cases :
    (ToolFrame frame ∧ chunkText frame = "" ∧ ∃ update, sessionUpdate frame = some update ∧
      collectTurnProgress frame progress =
        collectToolStatus update { progress with sawAnyToolCall := true }) ∨
    (¬ToolFrame frame ∧ collectTurnProgress frame progress =
      { progress with assistantText := progress.assistantText ++ chunkText frame }) := by
  cases hupdate : sessionUpdate frame with
  | none =>
      right
      simp [ToolFrame, collectTurnProgress, chunkText, hupdate]
  | some update =>
      rw [toolFrame_iff hupdate]
      simp only [collectTurnProgress, chunkText, hupdate]
      by_cases hchunk : update.getStr "sessionUpdate" = some "agent_message_chunk"
      · right
        simp only [hchunk, if_true]
        refine ⟨by simp, ?_⟩
        cases (update.get "content").bind (·.getStr "text") with
        | none => simp
        | some text => rfl
      · simp only [if_neg hchunk]
        split
        · rename_i hkind
          exact absurd hkind hchunk
        · rename_i hkind
          exact .inl ⟨.inl hkind, trivial, update, rfl, rfl⟩
        · rename_i hkind
          exact .inl ⟨.inr hkind, trivial, update, rfl, rfl⟩
        · rename_i hcall hupdated
          exact .inr ⟨not_or.mpr ⟨hcall, hupdated⟩, by simp⟩

theorem openTool_keeps (progress : TurnProgress) (toolCallId : String) :
    (progress.openTool toolCallId).assistantText = progress.assistantText ∧
      (progress.openTool toolCallId).sawAnyToolCall = progress.sawAnyToolCall := by
  unfold TurnProgress.openTool
  split <;> exact ⟨rfl, rfl⟩

theorem setStatus_keeps (progress : TurnProgress) (toolCallId : String) (status : ToolCallStatus) :
    (progress.setStatus toolCallId status).assistantText = progress.assistantText ∧
      (progress.setStatus toolCallId status).sawAnyToolCall = progress.sawAnyToolCall := by
  unfold TurnProgress.setStatus
  split <;> exact ⟨rfl, rfl⟩

/-- The text and the flag are left alone. -/
theorem collectToolStatus_keeps (update : Json) (progress : TurnProgress) :
    (collectToolStatus update progress).assistantText = progress.assistantText ∧
      (collectToolStatus update progress).sawAnyToolCall = progress.sawAnyToolCall := by
  unfold collectToolStatus
  split
  · exact ⟨rfl, rfl⟩
  · rename_i toolCallId _
    obtain ⟨htext, hflag⟩ := openTool_keeps progress toolCallId
    split
    · exact ⟨htext, hflag⟩
    · rw [(setStatus_keeps ..).1, (setStatus_keeps ..).2]
      exact ⟨htext, hflag⟩

theorem collectFrames_text (frames : List Json) (progress : TurnProgress) :
    (collectFrames frames progress).assistantText =
      frames.foldl (fun text frame => text ++ chunkText frame) progress.assistantText := by
  induction frames generalizing progress with
  | nil => rfl
  | cons frame frames ih =>
      have hfirst : (collectTurnProgress frame progress).assistantText =
          progress.assistantText ++ chunkText frame := by
        rcases collectTurnProgress_cases frame progress with
          ⟨-, htext, update, -, heq⟩ | ⟨-, heq⟩
        · rw [heq, (collectToolStatus_keeps update _).1, htext, String.append_empty]
        · rw [heq]
      rw [List.foldl_cons, ← hfirst]
      exact ih _

theorem collectFrames_sawAnyToolCall (frames : List Json) (progress : TurnProgress) :
    (collectFrames frames progress).sawAnyToolCall = true ↔
      progress.sawAnyToolCall = true ∨ ∃ frame ∈ frames, ToolFrame frame := by
  induction frames generalizing progress with
  | nil => simp [collectFrames]
  | cons frame frames ih =>
      have hfirst : (collectTurnProgress frame progress).sawAnyToolCall = true ↔
          progress.sawAnyToolCall = true ∨ ToolFrame frame := by
        rcases collectTurnProgress_cases frame progress with
          ⟨htool, -, update, -, heq⟩ | ⟨htool, heq⟩
        · rw [heq, (collectToolStatus_keeps update _).2]
          simp [htool]
        · rw [heq]
          simp [htool]
      have hrest := ih (collectTurnProgress frame progress)
      simp only [List.mem_cons, exists_eq_or_imp]
      rw [← or_assoc, ← hfirst]
      exact hrest

theorem openTool_keeps_failure {toolCallId other : String}
    (h : progress.toolStatuses.get? toolCallId = some .terminalFailure) :
    (progress.openTool other).toolStatuses.get? toolCallId = some .terminalFailure := by
  unfold TurnProgress.openTool
  split
  · exact h
  · rename_i hnew
    have hne : toolCallId ≠ other := by
      rintro rfl
      simp [h] at hnew
    rw [EntryMap.get?_set, if_neg hne, h]

theorem setStatus_keeps_failure {toolCallId other : String} {status : ToolCallStatus}
    (h : progress.toolStatuses.get? toolCallId = some .terminalFailure) :
    (progress.setStatus other status).toolStatuses.get? toolCallId = some .terminalFailure := by
  unfold TurnProgress.setStatus
  split
  · exact h
  · rename_i hopen
    have hne : toolCallId ≠ other := by
      rintro rfl
      exact hopen h
    rw [EntryMap.get?_set, if_neg hne, h]

/-- A terminal failure is sticky. -/
theorem collectToolStatus_keeps_failure {update : Json}
    (h : progress.toolStatuses.get? toolCallId = some .terminalFailure) :
    (collectToolStatus update progress).toolStatuses.get? toolCallId = some .terminalFailure := by
  unfold collectToolStatus
  split
  · exact h
  · split
    · exact openTool_keeps_failure h
    · exact setStatus_keeps_failure (openTool_keeps_failure h)

/-- Setting a failure leaves one, also where there was one before. -/
theorem setStatus_failure (progress : TurnProgress) (toolCallId : String) :
    (progress.setStatus toolCallId .terminalFailure).toolStatuses.get? toolCallId =
      some .terminalFailure := by
  unfold TurnProgress.setStatus
  split
  · assumption
  · rw [EntryMap.get?_set, if_pos rfl]

theorem collectTurnProgress_keeps_failure
    (h : progress.toolStatuses.get? toolCallId = some .terminalFailure) :
    (collectTurnProgress frame progress).toolStatuses.get? toolCallId =
      some .terminalFailure := by
  rcases collectTurnProgress_cases frame progress with
    ⟨-, -, update, -, heq⟩ | ⟨-, heq⟩
  · rw [heq]
    exact collectToolStatus_keeps_failure h
  · rw [heq]
    exact h

theorem nextToolStatus_failure {status : String} {toolReportedError : Bool}
    (h : status ∈ ["failed", "cancelled", "error"] ∨
      status = "completed" ∧ toolReportedError = true) :
    nextToolStatus status toolReportedError = .terminalFailure := by
  rcases h with h | ⟨rfl, rfl⟩
  · simp only [List.mem_cons, List.not_mem_nil, or_false] at h
    rcases h with rfl | rfl | rfl
    all_goals simp [nextToolStatus]
  · rfl

theorem collectTurnProgress_failure (h : TerminalFailure toolCallId frame) :
    (collectTurnProgress frame progress).toolStatuses.get? toolCallId =
      some .terminalFailure := by
  obtain ⟨htool, update, status, hupdate, hid, hne, hstatus, hfailed⟩ := h
  rcases collectTurnProgress_cases frame progress with
    ⟨-, -, other, hother, heq⟩ | ⟨hno, -⟩
  · obtain rfl : update = other := Option.some.inj (hupdate.symm.trans hother)
    have hnext : nextToolStatus status
        ((update.get "rawOutput").bind (·.getBool "isError") == some true) = .terminalFailure := by
      apply nextToolStatus_failure
      simpa using hfailed
    have hfilter : (update.getStr "toolCallId").filter (· ≠ "") = some toolCallId := by
      simp [hid, hne]
    rw [heq]
    simp only [collectToolStatus, hfilter, hstatus, hnext]
    exact setStatus_failure _ toolCallId
  · exact absurd htool hno

variable (progress) in
theorem collectFrames_failure {frames : List Json} (hframe : frame ∈ frames)
    (h : TerminalFailure toolCallId frame) :
    (collectFrames frames progress).toolStatuses.get? toolCallId = some .terminalFailure := by
  have hkeep (frames : List Json) : ∀ progress : TurnProgress,
      progress.toolStatuses.get? toolCallId = some .terminalFailure →
      (collectFrames frames progress).toolStatuses.get? toolCallId = some .terminalFailure := by
    induction frames with
    | nil => exact fun progress h => h
    | cons first frames ih => exact fun progress h => ih _ (collectTurnProgress_keeps_failure h)
  induction frames generalizing progress with
  | nil => cases hframe
  | cons first frames ih =>
      rcases List.mem_cons.mp hframe with rfl | hmem
      · exact hkeep frames _ (collectTurnProgress_failure h)
      · exact ih _ hmem

theorem trim_eq_empty_iff (s : String) :
    trim s = "" ↔ ∀ c ∈ s.toList, isWhitespace c = true := by
  constructor
  · intro h c hc
    by_contra hblank
    rw [Bool.not_eq_true] at hblank
    have hmem := (mem_trim_iff hblank s).mpr hc
    rw [h] at hmem
    cases hmem
  · intro h
    have hdrop : s.toList.dropWhile isWhitespace = [] := List.dropWhile_eq_nil_iff.mpr h
    simp [trim, hdrop]

theorem finish_silent_iff (frames : List Json) (stopReason : String) :
    ((collectFrames frames .fresh).finish stopReason).hasVisibleText = false ∧
      ((collectFrames frames .fresh).finish stopReason).sawAnyToolCall = false ↔
      SilentFrames frames := by
  have htext : ((collectFrames frames .fresh).finish stopReason).hasVisibleText = false ↔
      ∀ c ∈ (visibleText frames).toList, isWhitespace c = true := by
    rw [← trim_eq_empty_iff]
    simp [AcpTurnOutcome.hasVisibleText, TurnProgress.finish, collectFrames_text, visibleText,
      TurnProgress.fresh]
  have htool : ((collectFrames frames .fresh).finish stopReason).sawAnyToolCall = false ↔
      ∀ frame ∈ frames, ¬ToolFrame frame := by
    have hsaw := collectFrames_sawAnyToolCall frames .fresh
    rw [← Bool.not_eq_true]
    simpa [TurnProgress.finish, TurnProgress.fresh] using not_congr hsaw
  rw [htext, htool]
  exact ⟨fun h => ⟨h.1, h.2⟩, fun h => ⟨h.blank, h.noTool⟩⟩

theorem finish_failure (stopReason : String)
    (h : progress.toolStatuses.get? toolCallId = some .terminalFailure) :
    (progress.finish stopReason).ambiguousToolActivity = true ∧
      toolCallId ∉ (progress.finish stopReason).completedToolCallIds := by
  have hmem := EntryMap.get?_eq_some_iff.mp h
  constructor
  · simp only [TurnProgress.finish, Bool.or_eq_true, List.any_eq_true]
    exact .inr ⟨_, hmem, rfl⟩
  · simp only [TurnProgress.finish, List.mem_mergeSort, List.mem_map, List.mem_filter,
      decide_eq_true_eq]
    rintro ⟨⟨other, status⟩, ⟨hentry, hcompleted⟩, hother⟩
    simp only at hcompleted hother
    subst hcompleted hother
    have hget := EntryMap.get?_eq_some_iff.mpr hentry
    rw [h] at hget
    cases hget

end Collecting

section Attempts

/-- One prompt: the frames that were read for it, and what the harness got of it. -/
structure Attempt where
  frames : List Json
  answer : Except String AcpTurnOutcome

def FrameRead.asFrame : FrameRead → Option Json
  | .frame value => some value
  | _ => none

/-- The frames among the reads that are gone. -/
def readFrames (before after : List FrameRead) : List Json :=
  (before.take (before.length - after.length)).filterMap FrameRead.asFrame

/-- The attempts are answered by the client, one after the other. -/
inductive Prompted : AcpClient → List Attempt → AcpClient → Prop where
  | nil (client : AcpClient) : Prompted client [] client
  | cons {client next last : AcpClient} {attempts : List Attempt} (write : Except AcpError Unit)
      {result : Except AcpError AcpTurnOutcome} : client.prompt write = some (result, next) →
      Prompted next attempts last →
      Prompted client (⟨readFrames client.incoming next.incoming,
        result.mapError AcpError.display⟩ :: attempts) last

theorem readResponse_ok {id : UInt64} {progress collected : TurnProgress}
    {reads rest : List FrameRead} {result : Json}
    (h : readResponse id progress reads = .ended (.ok result) collected rest) :
    ∃ frames, reads = frames.map .frame ++ rest ∧ collected = collectFrames frames progress := by
  induction reads generalizing progress with
  | nil => cases h
  | cons read reads ih =>
      cases read with
      | frame frame =>
          rw [readResponse] at h
          split at h
          · obtain ⟨frames, rfl, rfl⟩ := ih h
            exact ⟨frame :: frames, rfl, rfl⟩
          · obtain ⟨-, rfl, rfl⟩ := ReadOutcome.ended.inj h
            exact ⟨[frame], rfl, rfl⟩
      | timedOut duration | oversized | failed reason | exited | malformed reason => cases h

theorem readFrames_append (frames : List Json) (rest : List FrameRead) :
    readFrames (frames.map .frame ++ rest) rest = frames := by
  have hlength : (frames.map FrameRead.frame ++ rest).length - rest.length =
      (frames.map FrameRead.frame).length := by
    simp
  rw [readFrames, hlength, List.take_left, List.filterMap_map]
  have hframe : FrameRead.asFrame ∘ FrameRead.frame = some := rfl
  rw [hframe, List.filterMap_some]

/-- An outcome is what the frames of its attempt amount to. -/
theorem prompt_ok {client next : AcpClient} {write : Except AcpError Unit}
    {outcome : AcpTurnOutcome} (h : client.prompt write = some (.ok outcome, next)) :
    ∃ stopReason, outcome =
      (collectFrames (readFrames client.incoming next.incoming) .fresh).finish stopReason := by
  unfold AcpClient.prompt at h
  split at h
  · cases h
  · rename_i id sent hsent
    have hincoming : sent.incoming = client.incoming := by
      rw [← (Prod.mk.inj hsent).2]
    split at h
    · cases h
    · cases h
    · rename_i response progress rest hread
      obtain ⟨hresult, rfl⟩ := Prod.mk.inj (Option.some.inj h)
      obtain ⟨stopReason, -, rfl⟩ := except_map_ok hresult
      obtain ⟨frames, hframes, rfl⟩ := readResponse_ok hread
      refine ⟨stopReason, ?_⟩
      rw [← hincoming, hframes, readFrames_append]

theorem Prompted.outcome {client last : AcpClient} {attempts : List Attempt}
    (h : Prompted client attempts last) {attempt : Attempt} (hattempt : attempt ∈ attempts)
    {outcome : AcpTurnOutcome} (hanswer : attempt.answer = .ok outcome) :
    ∃ stopReason, outcome = (collectFrames attempt.frames .fresh).finish stopReason := by
  induction h with
  | nil client => cases hattempt
  | cons write hprompt _ ih =>
      rcases List.mem_cons.mp hattempt with rfl | hmem
      · exact prompt_ok (mapError_ok hanswer ▸ hprompt)
      · exact ih hmem

end Attempts

section Loop

abbrev TurnProgram : Type :=
  Program CausalRequest CausalRequest.Reply (Except HarnessError AcpTurnOutcome × HarnessMemory)

def promptExchange (prompt : String) (attempt : Attempt) :
    Exchange CausalRequest CausalRequest.Reply :=
  ⟨.prompt prompt, attempt.answer⟩

/-- An outcome that lets the loop go on. -/
structure SilentOutcome (outcome : AcpTurnOutcome) : Prop where
  unambiguous : outcome.ambiguousToolActivity = false
  noText : outcome.hasVisibleText = false
  noTool : outcome.sawAnyToolCall = false
  endTurn : outcome.stopReason = "end_turn"

/-- The checks of one answer; `silent` is what follows a silent turn. -/
def afterAnswer (memory : HarnessMemory) (silent : AcpTurnOutcome → TurnProgram) :
    Except String AcpTurnOutcome → TurnProgram
  | .error reason => .pure (.error (.acp reason), memory)
  | .ok outcome =>
      if outcome.ambiguousToolActivity then
        .pure (.error (.ambiguousDirectedToolTurn outcome.stopReason), memory)
      else if outcome.hasVisibleText || outcome.hasCompletedTool then .pure (.ok outcome, memory)
      else if outcome.sawAnyToolCall then
        .pure (.error (.ambiguousDirectedToolTurn outcome.stopReason), memory)
      else if outcome.stopReason ≠ "end_turn" then
        .pure (.error (.incompleteDirectedTurn outcome.stopReason), memory)
      else silent outcome

theorem promptAttempts_zero (prompt : String) (attempts : ℕ) (memory : HarnessMemory) :
    promptAttempts prompt 0 attempts memory =
      .call (.prompt prompt) (afterAnswer memory fun outcome =>
        .pure (.error (.silentDirectedTurn (attempts + 1) outcome.stopReason), memory)) := by
  unfold promptAttempts
  refine congrArg (Program.call (CausalRequest.prompt prompt)) (funext fun answer => ?_)
  cases answer with
  | error reason => rfl
  | ok outcome =>
      simp only [afterAnswer, Program.bind]
      split_ifs <;> rfl

theorem promptAttempts_succ (prompt : String) (retries attempts : ℕ) (memory : HarnessMemory) :
    promptAttempts prompt (retries + 1) attempts memory =
      .call (.prompt prompt) (afterAnswer memory fun _ =>
        promptAttempts prompt retries (attempts + 1) memory) := by
  conv_lhs => unfold promptAttempts
  refine congrArg (Program.call (CausalRequest.prompt prompt)) (funext fun answer => ?_)
  cases answer with
  | error reason => rfl
  | ok outcome =>
      simp only [afterAnswer, Program.bind]
      split_ifs <;> rfl

/-- The result of a turn that is over: not silent, and ambiguous where the last outcome is. -/
structure SettledBy (answer : Except String AcpTurnOutcome)
    (result : Except HarnessError AcpTurnOutcome) : Prop where
  notSilent : ∀ count stopReason, result ≠ .error (.silentDirectedTurn count stopReason)
  ambiguous : ∀ outcome, answer = .ok outcome → outcome.ambiguousToolActivity = true →
    result = .error (.ambiguousDirectedToolTurn outcome.stopReason)

theorem afterAnswer_cases (memory : HarnessMemory) (silent : AcpTurnOutcome → TurnProgram)
    (answer : Except String AcpTurnOutcome) :
    (∃ outcome, answer = .ok outcome ∧ SilentOutcome outcome ∧
      afterAnswer memory silent answer = silent outcome) ∨
    ∃ result, SettledBy answer result ∧ afterAnswer memory silent answer =
      .pure (result, memory) := by
  cases answer with
  | error reason => exact .inr ⟨_, ⟨by simp, by simp⟩, rfl⟩
  | ok outcome =>
      by_cases hambiguous : outcome.ambiguousToolActivity = true
      · exact .inr ⟨.error (.ambiguousDirectedToolTurn outcome.stopReason), ⟨by simp, by simp⟩,
          by simp [afterAnswer, hambiguous]⟩
      have hnot : ∀ other, (.ok outcome : Except String AcpTurnOutcome) = .ok other →
          other.ambiguousToolActivity = true →
          ∀ result : Except HarnessError AcpTurnOutcome,
            result = .error (.ambiguousDirectedToolTurn other.stopReason) := by
        intro other hother htrue
        rw [← Except.ok.inj hother] at htrue
        exact absurd htrue hambiguous
      by_cases hdone : (outcome.hasVisibleText || outcome.hasCompletedTool) = true
      · exact .inr ⟨.ok outcome, ⟨by simp, fun other h h' => hnot other h h' _⟩,
          by simp only [afterAnswer, if_neg hambiguous, if_pos hdone]⟩
      by_cases htool : outcome.sawAnyToolCall = true
      · exact .inr ⟨.error (.ambiguousDirectedToolTurn outcome.stopReason),
          ⟨by simp, fun other h h' => hnot other h h' _⟩,
          by simp only [afterAnswer, if_neg hambiguous, if_neg hdone, if_pos htool]⟩
      by_cases hstop : outcome.stopReason = "end_turn"
      · have hnoText : outcome.hasVisibleText = false := by
          simp only [Bool.or_eq_true, not_or, Bool.not_eq_true] at hdone
          exact hdone.1
        refine .inl ⟨outcome, rfl, ⟨by simpa using hambiguous, hnoText, by simpa using htool,
          hstop⟩, ?_⟩
        simp only [afterAnswer, if_neg hambiguous, if_neg hdone, if_neg htool,
          if_neg (not_not.mpr hstop)]
      · exact .inr ⟨.error (.incompleteDirectedTurn outcome.stopReason),
          ⟨by simp, fun other h h' => hnot other h h' _⟩,
          by simp only [afterAnswer, if_neg hambiguous, if_neg hdone, if_neg htool, if_pos hstop,
            ne_eq]⟩

def Attempt.Silent (attempt : Attempt) : Prop :=
  ∃ outcome, attempt.answer = .ok outcome ∧ SilentOutcome outcome

/-- Where the loop over the attempts can be: about to prompt again, out of retries, or done.
`started` counts the prompts before these attempts. -/
inductive LoopAt (prompt : String) (memory : HarnessMemory) (retries started : ℕ)
    (attempts : List Attempt) : TurnProgram → Prop where
  | prompting {next : Except String AcpTurnOutcome → TurnProgram} :
      (∀ attempt ∈ attempts, attempt.Silent) →
      LoopAt prompt memory retries started attempts (.call (.prompt prompt) next)
  | exhausted {stopReason : String} : attempts.length = retries + 1 →
      (∀ attempt ∈ attempts, attempt.Silent) →
      LoopAt prompt memory retries started attempts
        (.pure (.error (.silentDirectedTurn (started + attempts.length) stopReason), memory))
  | settled {earlier : List Attempt} {last : Attempt}
      {result : Except HarnessError AcpTurnOutcome} : attempts = earlier ++ [last] →
      (∀ attempt ∈ earlier, attempt.Silent) → SettledBy last.answer result →
      LoopAt prompt memory retries started attempts (.pure (result, memory))

variable {prompt : String} {memory : HarnessMemory} {retries started : ℕ} {q : TurnProgram}

theorem LoopAt.cons {attempts : List Attempt} {first : Attempt} (hfirst : first.Silent)
    (h : LoopAt prompt memory retries (started + 1) attempts q) :
    LoopAt prompt memory (retries + 1) started (first :: attempts) q := by
  cases h with
  | prompting hsilent => exact .prompting (List.forall_mem_cons.mpr ⟨hfirst, hsilent⟩)
  | exhausted hlength hsilent =>
      have hcount : started + 1 + attempts.length = started + (first :: attempts).length := by
        simp only [List.length_cons]
        omega
      rw [hcount]
      exact .exhausted (by simp [hlength]) (List.forall_mem_cons.mpr ⟨hfirst, hsilent⟩)
  | settled hattempts hsilent hsettled =>
      exact .settled (congrArg (first :: ·) hattempts)
        (List.forall_mem_cons.mpr ⟨hfirst, hsilent⟩) hsettled

theorem Reaches.of_pure {value : Except HarnessError AcpTurnOutcome × HarnessMemory}
    {log : List (Exchange CausalRequest CausalRequest.Reply)} (h : Reaches (.pure value) log q) :
    log = [] ∧ q = .pure value := by
  cases h with
  | start => exact ⟨rfl, rfl⟩

/-- The last attempt settled the turn, and the log ends there. -/
theorem loopAt_settled {attempts : List Attempt} {first : Attempt}
    {result : Except HarnessError AcpTurnOutcome} (hsettled : SettledBy first.answer result)
    (h : Reaches (.pure (result, memory)) (attempts.map (promptExchange prompt)) q) :
    LoopAt prompt memory retries started (first :: attempts) q := by
  obtain ⟨hnil, rfl⟩ := Reaches.of_pure h
  obtain rfl : attempts = [] := List.map_eq_nil_iff.mp hnil
  have hsplit : [first] = [] ++ [first] := rfl
  exact .settled hsplit (by simp) hsettled

theorem loopAt_of_reaches {attempts : List Attempt}
    (h : Reaches (promptAttempts prompt retries started memory)
      (attempts.map (promptExchange prompt)) q) :
    LoopAt prompt memory retries started attempts q := by
  induction retries generalizing started attempts with
  | zero =>
      rw [promptAttempts_zero] at h
      cases attempts with
      | nil =>
          cases h
          exact .prompting (by simp)
      | cons first attempts =>
          rw [List.map_cons, promptExchange] at h
          cases h with
          | call _ h =>
              rcases afterAnswer_cases memory _ first.answer with
                ⟨outcome, hanswer, hsilent, heq⟩ | ⟨result, hsettled, heq⟩
              · rw [heq] at h
                obtain ⟨hnil, rfl⟩ := Reaches.of_pure h
                obtain rfl : attempts = [] := List.map_eq_nil_iff.mp hnil
                have hfirst : first.Silent := ⟨outcome, hanswer, hsilent⟩
                have hlength : [first].length = 0 + 1 := rfl
                exact .exhausted hlength (by simpa using hfirst)
              · rw [heq] at h
                exact loopAt_settled hsettled h
  | succ retries ih =>
      rw [promptAttempts_succ] at h
      cases attempts with
      | nil =>
          cases h
          exact .prompting (by simp)
      | cons first attempts =>
          rw [List.map_cons, promptExchange] at h
          cases h with
          | call _ h =>
              rcases afterAnswer_cases memory _ first.answer with
                ⟨outcome, hanswer, hsilent, heq⟩ | ⟨result, hsettled, heq⟩
              · rw [heq] at h
                exact (ih h).cons ⟨outcome, hanswer, hsilent⟩
              · rw [heq] at h
                exact loopAt_settled hsettled h

end Loop

section Classification

variable {prompt : String} {memory : HarnessMemory} {client last : AcpClient}
  {attempts : List Attempt} {q : TurnProgram}

/-- What holds of the attempts of one directed turn, wherever the turn has got to. -/
structure SafelyClassified (attempts : List Attempt) (q : TurnProgram) : Prop where
  silent : ∀ count stopReason memory,
    q = .pure (.error (.silentDirectedTurn count stopReason), memory) →
      count = maxSilentEndTurnRetries + 1 ∧ attempts.length = count ∧
      ∀ attempt ∈ attempts, SilentFrames attempt.frames ∧
        ∃ outcome, attempt.answer = .ok outcome ∧ outcome.stopReason = "end_turn"
  prompting : ∀ request next, q = .call request next →
    ∀ attempt ∈ attempts, SilentFrames attempt.frames
  failed : ∀ attempt ∈ attempts, ∀ frame ∈ attempt.frames, ∀ toolCallId,
    TerminalFailure toolCallId frame → ∀ outcome, attempt.answer = .ok outcome →
      toolCallId ∉ outcome.completedToolCallIds ∧ outcome.ambiguousToolActivity = true ∧
      ∃ memory, q = .pure (.error (.ambiguousDirectedToolTurn outcome.stopReason), memory)

theorem Prompted.silentFrames (h : Prompted client attempts last) {attempt : Attempt}
    (hattempt : attempt ∈ attempts) (hsilent : attempt.Silent) : SilentFrames attempt.frames := by
  obtain ⟨outcome, hanswer, hquiet⟩ := hsilent
  obtain ⟨stopReason, rfl⟩ := h.outcome hattempt hanswer
  exact (finish_silent_iff attempt.frames stopReason).mp ⟨hquiet.noText, hquiet.noTool⟩

/-- An attempt with an ambiguous outcome is not silent, so it was the last one. -/
theorem LoopAt.ambiguous {retries started : ℕ}
    (h : LoopAt prompt memory retries started attempts q) {attempt : Attempt}
    (hattempt : attempt ∈ attempts) {outcome : AcpTurnOutcome}
    (hanswer : attempt.answer = .ok outcome) (hambiguous : outcome.ambiguousToolActivity = true) :
    q = .pure (.error (.ambiguousDirectedToolTurn outcome.stopReason), memory) := by
  have hnot : ¬attempt.Silent := by
    rintro ⟨other, hother, hsilent⟩
    obtain rfl : outcome = other := Except.ok.inj (hanswer.symm.trans hother)
    rw [hsilent.unambiguous] at hambiguous
    cases hambiguous
  cases h with
  | prompting hsilent | exhausted _ hsilent => exact absurd (hsilent attempt hattempt) hnot
  | settled hattempts hsilent hsettled =>
      subst hattempts
      rcases List.mem_append.mp hattempt with hmem | hmem
      · exact absurd (hsilent attempt hmem) hnot
      · obtain rfl := List.mem_singleton.mp hmem
        rw [hsettled.ambiguous outcome hanswer hambiguous]

theorem directed_turn_safely_classified (prompt : String) (memory : HarnessMemory)
    (client last : AcpClient) (attempts : List Attempt) (q : TurnProgram)
    (hprompted : Prompted client attempts last)
    (hrun : Reaches (promptDirectedMessage prompt memory) (attempts.map (promptExchange prompt))
      q) : SafelyClassified attempts q := by
  have hloop : LoopAt prompt memory maxSilentEndTurnRetries 0 attempts q := loopAt_of_reaches hrun
  refine ⟨?_, ?_, ?_⟩
  · intro count stopReason memory' hq
    cases hloop with
    | prompting => cases hq
    | exhausted hlength hsilent =>
        cases hq
        refine ⟨by rw [Nat.zero_add, hlength], by rw [Nat.zero_add], ?_⟩
        intro attempt hattempt
        obtain ⟨outcome, hanswer, hquiet⟩ := hsilent attempt hattempt
        exact ⟨hprompted.silentFrames hattempt (hsilent attempt hattempt), outcome, hanswer,
          hquiet.endTurn⟩
    | settled _ _ hsettled =>
        cases hq
        exact absurd rfl (hsettled.notSilent count stopReason)
  · intro request next hq attempt hattempt
    cases hloop with
    | prompting hsilent => exact hprompted.silentFrames hattempt (hsilent attempt hattempt)
    | exhausted => cases hq
    | settled => cases hq
  · intro attempt hattempt frame hframe toolCallId hfailure outcome hanswer
    obtain ⟨stopReason, hfinish⟩ := hprompted.outcome hattempt hanswer
    have hstatus := collectFrames_failure .fresh hframe hfailure
    obtain ⟨hambiguous, hmissing⟩ := finish_failure stopReason hstatus
    rw [← hfinish] at hambiguous hmissing
    exact ⟨hmissing, hambiguous, memory, hloop.ambiguous hattempt hanswer hambiguous⟩

/-- An agent that ends every turn at once. -/
def wordlessAgent : AcpClient := ⟨3, [.frame (endTurnResponse 3), .frame (endTurnResponse 4)]⟩

def wordlessOutcome : AcpTurnOutcome := ⟨"end_turn", "", false, false, []⟩

def wordlessAttempts : List Attempt :=
  [⟨[endTurnResponse 3], .ok wordlessOutcome⟩, ⟨[endTurnResponse 4], .ok wordlessOutcome⟩]

theorem finish_fresh : TurnProgress.fresh.finish "end_turn" = wordlessOutcome := by
  simp [TurnProgress.finish, TurnProgress.fresh, EntryMap.empty, wordlessOutcome, trim]

theorem wordless_prompted : Prompted wordlessAgent wordlessAttempts ⟨5, []⟩ := by
  have hprompt (id : UInt64) (rest : List FrameRead) (hid : id = 3 ∨ id = 4) :
      AcpClient.prompt ⟨id, .frame (endTurnResponse id) :: rest⟩ (.ok ()) =
        some (.ok wordlessOutcome, ⟨id + 1, rest⟩) := by
    rw [← finish_fresh]
    rcases hid with rfl | rfl
    all_goals rfl
  exact .cons (.ok ()) (hprompt 3 _ (.inl rfl)) (.cons (.ok ()) (hprompt 4 _ (.inr rfl)) (.nil _))

theorem wordless_reaches (prompt : String) (memory : HarnessMemory) :
    Reaches (promptDirectedMessage prompt memory) (wordlessAttempts.map (promptExchange prompt))
      (.pure (.error (.silentDirectedTurn 2 "end_turn"), memory)) := by
  have hsilent (silent : AcpTurnOutcome → TurnProgram) :
      afterAnswer memory silent (.ok wordlessOutcome) = silent wordlessOutcome := rfl
  unfold promptDirectedMessage maxSilentEndTurnRetries
  rw [promptAttempts_succ, promptAttempts_zero]
  simp only [wordlessAttempts, List.map_cons, promptExchange]
  refine .call _ ?_
  rw [hsilent]
  refine .call _ ?_
  rw [hsilent]
  exact .start _

theorem wordless_turn_safely_classified :
    SafelyClassified wordlessAttempts
      (.pure (.error (.silentDirectedTurn 2 "end_turn"), ⟨0, ConversationContext.empty⟩)) :=
  directed_turn_safely_classified "hello" ⟨0, ConversationContext.empty⟩ wordlessAgent ⟨5, []⟩
    wordlessAttempts _ wordless_prompted (wordless_reaches "hello" _)

end Classification
end Buzz
