import Buzz.AsciiText
import Buzz.CausalWorld
import Buzz.EntryMap
import Buzz.JsonValue

/-!
# The frames of an ACP agent

The agent answers a request over the lines of its standard output, between which it
sends notifications and may send requests of its own. Whatever comes before the
answer is collected as the progress of the turn.
-/

namespace Buzz

section Progress

inductive ToolCallStatus where
  | completed
  | pending
  | terminalFailure
  deriving DecidableEq, Repr

structure TurnProgress where
  assistantText : String
  sawAnyToolCall : Bool
  sawUnidentifiedToolCall : Bool
  toolStatuses : EntryMap String ToolCallStatus

def TurnProgress.fresh : TurnProgress := ⟨"", false, false, .empty⟩

def TurnProgress.finish (progress : TurnProgress) (stopReason : String) : AcpTurnOutcome where
  stopReason := stopReason
  assistantText := trim progress.assistantText
  sawAnyToolCall := progress.sawAnyToolCall
  ambiguousToolActivity := progress.sawUnidentifiedToolCall ||
    progress.toolStatuses.entries.any fun entry => entry.2 ≠ .completed
  completedToolCallIds :=
    ((progress.toolStatuses.entries.filter fun entry => entry.2 = .completed).map
      Prod.fst).mergeSort (· ≤ ·)

def nextToolStatus (status : String) (toolReportedError : Bool) : ToolCallStatus :=
  if status = "completed" ∧ toolReportedError = false then .completed
  else if status ∈ ["completed", "failed", "cancelled", "error"] then .terminalFailure
  else .pending

/-- A tool call that is new is pending. -/
def TurnProgress.openTool (progress : TurnProgress) (toolCallId : String) : TurnProgress :=
  if (progress.toolStatuses.get? toolCallId).isSome then progress
  else { progress with toolStatuses := progress.toolStatuses.set toolCallId .pending }

/-- A failure that ended a tool call stays. -/
def TurnProgress.setStatus (progress : TurnProgress) (toolCallId : String)
    (status : ToolCallStatus) : TurnProgress :=
  if progress.toolStatuses.get? toolCallId = some .terminalFailure then progress
  else { progress with toolStatuses := progress.toolStatuses.set toolCallId status }

def collectToolStatus (update : Json) (progress : TurnProgress) : TurnProgress :=
  match (update.getStr "toolCallId").filter (· ≠ "") with
  | none => { progress with sawUnidentifiedToolCall := true }
  | some toolCallId =>
      let progress := progress.openTool toolCallId
      match update.getStr "status" with
      | none => progress
      | some status =>
          let toolReportedError :=
            (update.get "rawOutput").bind (·.getBool "isError") == some true
          progress.setStatus toolCallId (nextToolStatus status toolReportedError)

def sessionUpdate (frame : Json) : Option Json :=
  (frame.get "params").bind (·.get "update")

def collectTurnProgress (frame : Json) (progress : TurnProgress) : TurnProgress :=
  match sessionUpdate frame with
  | none => progress
  | some update =>
      match update.getStr "sessionUpdate" with
      | some "agent_message_chunk" =>
          match (update.get "content").bind (·.getStr "text") with
          | some text => { progress with assistantText := progress.assistantText ++ text }
          | none => progress
      | some "tool_call" => collectToolStatus update { progress with sawAnyToolCall := true }
      | some "tool_call_update" => collectToolStatus update { progress with sawAnyToolCall := true }
      | _ => progress

end Progress

section Responses

/-- A timeout carries the debug form of its duration. -/
inductive AcpError where
  | io (reason : String)
  | oversizedFrame
  | json (reason : String)
  | agentExited
  | timeout (duration : String)
  | protocol (message : String)
  | agent (code : ℤ) (message : String)
  deriving DecidableEq, Repr

def AcpError.display : AcpError → String
  | io reason => "ACP I/O failed: " ++ reason
  | oversizedFrame => "ACP frame exceeded the maximum line size"
  | json reason => "ACP JSON decode failed: " ++ reason
  | agentExited => "ACP agent exited before responding"
  | timeout duration => "ACP request timed out after " ++ duration
  | protocol message => "ACP protocol error: " ++ message
  | agent code message => "ACP agent error " ++ toString code ++ ": " ++ message

/-- What waiting for a line gives. Time may run out for the line or for the whole turn. -/
inductive FrameRead where
  | timedOut (duration : String)
  | oversized
  | failed (reason : String)
  | exited
  | malformed (reason : String)
  | frame (value : Json)

def asI64 : Json → Option ℤ
  | .number (.posInt value) => if value.toNat < 2 ^ 63 then some value.toNat else none
  | .number (.negInt value) => some value.toInt
  | _ => none

/-- What a frame with the expected id is taken for. -/
def responseResult (frame : Json) : Except AcpError Json :=
  match frame.get "error" with
  | some error =>
      .error (.agent (((error.get "code").bind asI64).getD (-32000))
        ((error.getStr "message").getD "unknown ACP agent error"))
  | none =>
      match frame.get "result" with
      | some result => .ok result
      | none => .error (.protocol "response omitted result")

/-- `waiting` is where the given reads are used up and no answer has come. -/
inductive ReadOutcome where
  | waiting (progress : TurnProgress)
  | ended (result : Except AcpError Json) (progress : TurnProgress) (rest : List FrameRead)

def readResponse (expectedId : UInt64) (progress : TurnProgress) : List FrameRead → ReadOutcome
  | [] => .waiting progress
  | .timedOut duration :: rest => .ended (.error (.timeout duration)) progress rest
  | .oversized :: rest => .ended (.error .oversizedFrame) progress rest
  | .failed reason :: rest => .ended (.error (.io reason)) progress rest
  | .exited :: rest => .ended (.error .agentExited) progress rest
  | .malformed reason :: rest => .ended (.error (.json reason)) progress rest
  | .frame frame :: rest =>
      let progress := collectTurnProgress frame progress
      if frame.getU64 "id" ≠ some expectedId then readResponse expectedId progress rest
      else .ended (responseResult frame) progress rest

end Responses

section Interleaving

variable {expectedId : UInt64} {progress : TurnProgress}

def collectFrames (frames : List Json) (progress : TurnProgress) : TurnProgress :=
  frames.foldl (fun collected frame => collectTurnProgress frame collected) progress

theorem readResponse_skip {frames : List Json} {rest : List FrameRead}
    (h : ∀ frame ∈ frames, frame.getU64 "id" ≠ some expectedId) :
    readResponse expectedId progress (frames.map .frame ++ rest) =
      readResponse expectedId (collectFrames frames progress) rest := by
  induction frames generalizing progress with
  | nil => rfl
  | cons frame frames ih =>
      obtain ⟨hfirst, hothers⟩ := List.forall_mem_cons.mp h
      rw [List.map_cons, List.cons_append, readResponse, if_pos hfirst, ih hothers]
      rfl

/-- The read never gets past a frame with the expected id, whoever sent it. -/
theorem readResponse_stop {frames : List Json} (progress : TurnProgress) (rest : List FrameRead)
    {frame : Json} (hframe : frame ∈ frames) (hid : frame.getU64 "id" = some expectedId) :
    ∃ result collected left, left.length ≥ rest.length ∧
      readResponse expectedId progress (frames.map .frame ++ rest) =
        .ended result collected left := by
  induction frames generalizing progress with
  | nil => cases hframe
  | cons first frames ih =>
      by_cases hfirst : first.getU64 "id" = some expectedId
      · refine ⟨responseResult first, collectTurnProgress first progress,
          frames.map .frame ++ rest, by simp, ?_⟩
        rw [List.map_cons, List.cons_append, readResponse, if_neg (not_not.mpr hfirst)]
      · have hmem : frame ∈ frames := by
          rcases List.mem_cons.mp hframe with rfl | hmem
          · exact absurd hid hfirst
          · exact hmem
        rw [List.map_cons, List.cons_append, readResponse, if_pos hfirst]
        exact ih _ hmem

/-- A frame that the agent sends on its own account carries a method, its answers do not. -/
def FromAgent (frame : Json) : Prop := (frame.get "method").isSome

structure IsResponse (expectedId : UInt64) (frame : Json) : Prop where
  id : frame.getU64 "id" = some expectedId
  noMethod : frame.get "method" = none

theorem response_read_iff (expectedId : UInt64) (progress : TurnProgress) (earlier : List Json)
    (response : Json) (rest : List FrameRead) (hresponse : IsResponse expectedId response) :
    readResponse expectedId progress (earlier.map .frame ++ .frame response :: rest) =
        .ended (responseResult response) (collectFrames (earlier ++ [response]) progress) rest ↔
      ∀ frame ∈ earlier, frame.getU64 "id" ≠ some expectedId := by
  constructor
  · intro h frame hframe hid
    obtain ⟨result, collected, left, hlength, hread⟩ :=
      readResponse_stop progress (.frame response :: rest) hframe hid
    rw [hread] at h
    obtain ⟨-, -, rfl⟩ := ReadOutcome.ended.inj h
    simp at hlength
  · intro h
    rw [readResponse_skip h, readResponse, if_neg (not_not.mpr hresponse.id)]
    simp [collectFrames]

/-- A permission request of the agent that has come upon the number of the open request. -/
def permissionRequest : Json :=
  .object [("id", .number (.posInt 3)), ("method", .string "session/request_permission"),
    ("params", .object [])]

def endTurnResponse (id : UInt64) : Json :=
  .object [("id", .number (.posInt id)), ("result", .object [("stopReason", .string "end_turn")])]

def updateNotification : Json :=
  .object [("method", .string "session/update"), ("params", .object [])]

theorem response_read_after_notification :
    readResponse 3 .fresh [.frame updateNotification, .frame (endTurnResponse 3)] =
      .ended (.ok (.object [("stopReason", .string "end_turn")])) .fresh [] :=
  (response_read_iff 3 .fresh [updateNotification] (endTurnResponse 3) []
    ⟨by decide, by decide⟩).mpr
    (by simp [updateNotification, Json.getU64, Json.get])

theorem permission_request_ends_read :
    ¬∀ (expectedId : UInt64) (progress : TurnProgress) (earlier : List Json) (response : Json)
      (rest : List FrameRead), (∀ frame ∈ earlier, FromAgent frame) →
      IsResponse expectedId response →
      readResponse expectedId progress (earlier.map .frame ++ .frame response :: rest) =
        .ended (responseResult response) (collectFrames (earlier ++ [response]) progress) rest := by
  intro h
  have hread := h 3 .fresh [permissionRequest] (endTurnResponse 3) []
    (by simp [FromAgent, permissionRequest, Json.get]) ⟨by decide, by decide⟩
  have hended : readResponse 3 .fresh
      ([permissionRequest].map .frame ++ [.frame (endTurnResponse 3)]) =
      .ended (.error (.protocol "response omitted result"))
        (collectTurnProgress permissionRequest .fresh) [.frame (endTurnResponse 3)] := rfl
  rw [hended] at hread
  cases (ReadOutcome.ended.inj hread).1

end Interleaving
end Buzz
