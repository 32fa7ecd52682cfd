import Mathlib.Data.List.Forall2
import Mathlib.Data.List.Infix
import Buzz.AgentLoop

/-!
# The history as the providers get it

A history is paired when each tool call of an assistant turn is answered right
after the turn, in order and under its identifier, and nothing else answers a
call. Each provider wants the pairs in a form of its own, and each of the three
request bodies keeps them.
-/

namespace Buzz

/-- Every assistant turn is followed by the results of its calls and no other result occurs. -/
inductive Paired : List HistoryItem → Prop where
  | nil : Paired []
  | user (text : String) {rest : List HistoryItem} : Paired rest → Paired (.user text :: rest)
  | turn (text : String) {calls : List ToolCall} {results : List ToolResult}
      {rest : List HistoryItem} : results.map ToolResult.providerId =
        calls.map ToolCall.providerId →
      Paired rest → Paired (.assistant text calls :: (results.map .toolResult ++ rest))

/-- A paired history that starts with the user. -/
structure WellPaired (history : List HistoryItem) : Prop where
  paired : Paired history
  head : ∀ item, history.head? = some item → item.isUser = true

section Pairing

variable {history a b : List HistoryItem}

theorem Paired.append (ha : Paired a) (hb : Paired b) : Paired (a ++ b) := by
  induction ha with
  | nil => exact hb
  | user text _ ih => exact .user text ih
  | turn text hids _ ih =>
      rw [List.cons_append, List.append_assoc]
      exact .turn text hids ih

theorem dropWhile_results (results : List ToolResult) (rest : List HistoryItem) :
    (results.map HistoryItem.toolResult ++ rest).dropWhile (fun item => !item.isUser) =
      rest.dropWhile fun item => !item.isUser := by
  induction results with
  | nil => rfl
  | cons result results ih => exact ih

/-- A user item never stands between a call and its result. -/
theorem Paired.dropWhile (h : Paired history) :
    Paired (history.dropWhile fun item => !item.isUser) := by
  induction h with
  | nil => exact .nil
  | user text hrest _ => exact .user text hrest
  | turn text hids hrest ih =>
      change Paired (List.dropWhile _ (List.map _ _ ++ _))
      rw [dropWhile_results]
      exact ih

theorem Paired.dropTurn (h : Paired history) : Paired (dropTurn history) := by
  cases h with
  | nil => exact .nil
  | user text hrest => exact hrest.dropWhile
  | turn text hids hrest =>
      change Paired (List.dropWhile _ (List.map _ _ ++ _))
      rw [dropWhile_results]
      exact hrest.dropWhile

theorem head_dropTurn {item : HistoryItem} (h : (dropTurn history).head? = some item) :
    item.isUser = true := by
  have hnot := List.head?_dropWhile_not (fun item : HistoryItem => !item.isUser) history.tail
  unfold Buzz.dropTurn at h
  rw [h] at hnot
  simpa using hnot

theorem WellPaired.truncateHistory (maxBytes : ℕ) (h : WellPaired history) :
    WellPaired (truncateHistory maxBytes history) := by
  fun_induction Buzz.truncateHistory maxBytes history with
  | case1 history hfits => exact h
  | case2 history hlarge hlast => exact h
  | case3 history hlarge hmore ih => exact ih ⟨h.paired.dropTurn, fun item => head_dropTurn⟩

theorem truncateHistory_ne_nil (maxBytes : ℕ) (h : history ≠ []) :
    truncateHistory maxBytes history ≠ [] := by
  fun_induction Buzz.truncateHistory maxBytes history with
  | case1 history hfits => exact h
  | case2 history hlarge hlast => exact h
  | case3 history hlarge hmore ih => exact ih hmore

/-- Complete turns may follow a history that has begun. -/
theorem WellPaired.append (ha : WellPaired a) (hne : a ≠ []) (hb : Paired b) :
    WellPaired (a ++ b) := by
  refine ⟨ha.paired.append hb, ?_⟩
  intro item hitem
  rw [List.head?_append_of_ne_nil _ hne] at hitem
  exact ha.head item hitem

theorem WellPaired.append_user (ha : WellPaired a) (text : String) :
    WellPaired (a ++ [.user text]) := by
  refine ⟨ha.paired.append (.user text .nil), ?_⟩
  cases a with
  | nil =>
      intro item hitem
      obtain rfl := Option.some.inj hitem
      rfl
  | cons first rest => exact ha.head

end Pairing

/-- The identifiers of the calls of a history, in order. -/
def callIds (history : List HistoryItem) : List String :=
  history.flatMap fun item =>
    match item with
    | .assistant _ toolCalls => toolCalls.map ToolCall.providerId
    | _ => []

section Anthropic

inductive MessageRole where
  | user
  | assistant
  deriving DecidableEq, Repr

inductive AnthropicBlock where
  | text (text : String)
  | toolUse (id name input : String)
  | toolResult (toolUseId : String) (content : List ToolResultContent) (isError : Bool)
  deriving DecidableEq, Repr

structure AnthropicMessage where
  role : MessageRole
  content : List AnthropicBlock
  deriving DecidableEq, Repr

namespace AnthropicMessage

def toolUseIds (message : AnthropicMessage) : List String :=
  message.content.filterMap fun block =>
    match block with
    | .toolUse id _ _ => some id
    | _ => none

def toolResultIds (message : AnthropicMessage) : List String :=
  message.content.filterMap fun block =>
    match block with
    | .toolResult id _ _ => some id
    | _ => none

end AnthropicMessage

def flush (pending : List AnthropicBlock) : List AnthropicMessage :=
  if pending.isEmpty then [] else [⟨.user, pending⟩]

def assistantContent (text : String) (toolCalls : List ToolCall) : List AnthropicBlock :=
  (if text = "" then [] else [.text text]) ++
    toolCalls.map fun c => .toolUse c.providerId c.name c.arguments

def resultBlock (r : ToolResult) : AnthropicBlock :=
  .toolResult r.providerId r.content r.isError

/-- The `messages` of the body; `pending` collects results until the next turn. -/
def anthropicMessages (pending : List AnthropicBlock) : List HistoryItem → List AnthropicMessage
  | [] => flush pending
  | .user text :: rest => flush pending ++ ⟨.user, [.text text]⟩ :: anthropicMessages [] rest
  | .assistant text toolCalls :: rest =>
      let content := assistantContent text toolCalls
      flush pending ++
        if content.isEmpty then anthropicMessages [] rest
        else ⟨.assistant, content⟩ :: anthropicMessages [] rest
  | .toolResult r :: rest => anthropicMessages (pending ++ [resultBlock r]) rest

def anthropicBody (history : List HistoryItem) : List AnthropicMessage :=
  anthropicMessages [] history

/-- All tool uses of a message are answered in the next one, which is the user's. -/
def AnthropicAnswered : List AnthropicMessage → Prop
  | [] => True
  | message :: rest =>
      (message.toolUseIds ≠ [] → ∃ next more, rest = next :: more ∧ next.role = .user ∧
        next.toolResultIds = message.toolUseIds) ∧ AnthropicAnswered rest

theorem anthropicMessages_results (pending : List AnthropicBlock) (results : List ToolResult)
    (rest : List HistoryItem) :
    anthropicMessages pending (results.map .toolResult ++ rest) =
      anthropicMessages (pending ++ results.map resultBlock) rest := by
  induction results generalizing pending with
  | nil => simp
  | cons result results ih =>
      have hstep := ih (pending ++ [resultBlock result])
      rw [List.append_assoc, List.singleton_append] at hstep
      exact hstep

theorem Paired.anthropicMessages_flush {history : List HistoryItem} (h : Paired history)
    (pending : List AnthropicBlock) :
    anthropicMessages pending history = flush pending ++ anthropicMessages [] history := by
  cases h with
  | nil | user text _ | turn text _ _ => simp [anthropicMessages, flush]

theorem toolUseIds_assistantContent (text : String) (calls : List ToolCall) :
    AnthropicMessage.toolUseIds ⟨.assistant, assistantContent text calls⟩ =
      calls.map ToolCall.providerId := by
  unfold AnthropicMessage.toolUseIds assistantContent
  rw [List.filterMap_append, List.filterMap_map]
  split_ifs
  · simp
  · simp

theorem toolResultIds_results (role : MessageRole) (results : List ToolResult) :
    AnthropicMessage.toolResultIds ⟨role, results.map resultBlock⟩ =
      results.map ToolResult.providerId := by
  simp [AnthropicMessage.toolResultIds, resultBlock, List.filterMap_map, Function.comp_def]

theorem toolUseIds_results (role : MessageRole) (results : List ToolResult) :
    AnthropicMessage.toolUseIds ⟨role, results.map resultBlock⟩ = [] := by
  simp [AnthropicMessage.toolUseIds, resultBlock, List.filterMap_map, Function.comp_def]

theorem toolUseIds_flush {pending : List AnthropicBlock}
    (h : AnthropicMessage.toolUseIds ⟨.user, pending⟩ = []) :
    (flush pending).flatMap AnthropicMessage.toolUseIds = [] := by
  unfold flush
  split_ifs
  · rfl
  · simpa using h

/-- The tool uses of the body are the calls of the history. -/
theorem toolUseIds_anthropicMessages (history : List HistoryItem) {pending : List AnthropicBlock}
    (h : AnthropicMessage.toolUseIds ⟨.user, pending⟩ = []) :
    (anthropicMessages pending history).flatMap AnthropicMessage.toolUseIds = callIds history := by
  induction history generalizing pending with
  | nil => exact toolUseIds_flush h
  | cons item rest ih =>
      have hrest := ih (toolUseIds_results .user [])
      cases item with
      | user text =>
          rw [anthropicMessages, List.flatMap_append, toolUseIds_flush h]
          exact hrest
      | assistant text calls =>
          have hcontent := toolUseIds_assistantContent text calls
          have hids : callIds (.assistant text calls :: rest) =
              calls.map ToolCall.providerId ++ callIds rest := rfl
          rw [anthropicMessages, List.flatMap_append, toolUseIds_flush h, List.nil_append, hids,
            ← hcontent, ← hrest]
          split_ifs with hempty
          · rw [List.isEmpty_iff.mp hempty]
            rfl
          · rfl
      | toolResult result =>
          refine ih ?_
          unfold AnthropicMessage.toolUseIds at h ⊢
          rw [List.filterMap_append, h]
          rfl

theorem Paired.anthropic {history : List HistoryItem} (h : Paired history) :
    AnthropicAnswered (anthropicBody history) := by
  induction h with
  | nil => trivial
  | user text _ ih => exact ⟨fun hcontra => absurd rfl hcontra, ih⟩
  | @turn text calls results rest hids hrest ih =>
      have hbody : anthropicMessages [] (results.map .toolResult ++ rest) =
          flush (results.map resultBlock) ++ anthropicBody rest := by
        rw [anthropicMessages_results, List.nil_append, hrest.anthropicMessages_flush]
        rfl
      have hlength : results.length = calls.length := by simpa using congrArg List.length hids
      cases results with
      | nil =>
          obtain rfl : calls = [] := List.eq_nil_of_length_eq_zero hlength.symm
          change AnthropicAnswered (if (assistantContent text []).isEmpty then anthropicBody rest
            else ⟨.assistant, assistantContent text []⟩ :: anthropicBody rest)
          split_ifs
          · exact ih
          · refine ⟨fun hcontra => absurd ?_ hcontra, ih⟩
            exact toolUseIds_assistantContent text []
      | cons result more =>
          obtain ⟨call, others, rfl⟩ : ∃ call others, calls = call :: others :=
            List.exists_cons_of_length_pos (by simp at hlength; omega)
          have hcontent : (assistantContent text (call :: others)).isEmpty = false := by
            simp [assistantContent]
          have hturn : anthropicBody (.assistant text (call :: others) ::
              ((result :: more).map .toolResult ++ rest)) =
              ⟨.assistant, assistantContent text (call :: others)⟩ ::
                ⟨.user, (result :: more).map resultBlock⟩ :: anthropicBody rest := by
            unfold anthropicBody
            rw [anthropicMessages, hcontent, hbody]
            rfl
          rw [hturn]
          refine ⟨fun _ => ⟨_, _, rfl, rfl, ?_⟩, ?_, ih⟩
          · rw [toolResultIds_results, toolUseIds_assistantContent]
            exact hids
          · intro hcontra
            exact absurd (toolUseIds_results _ _) hcontra

end Anthropic

/-- The text of a tool result for the providers that take no image in it. -/
def openaiToolTextContent (content : List ToolResultContent) : String :=
  "\n".intercalate (content.map fun c =>
    match c with
    | .text text => text
    | .image data mimeType =>
        "This tool result included an image (" ++ mimeType ++ ", " ++ toString data.utf8ByteSize ++
          " base64 bytes) that is provided in the next user message.")

def imageUrls (content : List ToolResultContent) : List String :=
  content.filterMap fun c =>
    match c with
    | .image data mimeType => some ("data:" ++ mimeType ++ ";base64," ++ data)
    | .text _ => none

section OpenAi

inductive OpenAiMessage where
  | system (text : String)
  | user (text : String)
  | userImages (urls : List String)
  | assistant (text : String) (toolCalls : List ToolCall)
  | tool (toolCallId content : String)
  deriving DecidableEq, Repr

def flushImages (pending : List String) : List OpenAiMessage :=
  if pending.isEmpty then [] else [.userImages pending]

def toolMessage (r : ToolResult) : OpenAiMessage :=
  .tool r.providerId (openaiToolTextContent r.content)

/-- The `messages` after the system prompt; `pending` collects images until the next turn. -/
def openaiMessages (pending : List String) : List HistoryItem → List OpenAiMessage
  | [] => flushImages pending
  | .user text :: rest => flushImages pending ++ .user text :: openaiMessages [] rest
  | .assistant text toolCalls :: rest =>
      flushImages pending ++ .assistant text toolCalls :: openaiMessages [] rest
  | .toolResult r :: rest => toolMessage r :: openaiMessages (pending ++ imageUrls r.content) rest

def openaiBody (systemPrompt : String) (history : List HistoryItem) : List OpenAiMessage :=
  .system systemPrompt :: openaiMessages [] history

/-- The tool messages that open the list. -/
def leadingToolIds : List OpenAiMessage → List String
  | .tool toolCallId _ :: rest => toolCallId :: leadingToolIds rest
  | _ => []

/-- Behind each assistant message stand the tool messages of its calls, and nowhere else. -/
def OpenAiContiguous : List OpenAiMessage → Prop
  | [] => True
  | .assistant _ toolCalls :: rest =>
      leadingToolIds rest = toolCalls.map ToolCall.providerId ∧ OpenAiContiguous rest
  | .tool _ _ :: rest => OpenAiContiguous rest
  | _ :: rest => leadingToolIds rest = [] ∧ OpenAiContiguous rest

def OpenAiMessage.toolCallIds : OpenAiMessage → List String
  | assistant _ toolCalls => toolCalls.map ToolCall.providerId
  | _ => []

theorem toolCallIds_openaiMessages (history : List HistoryItem) (pending : List String) :
    (openaiMessages pending history).flatMap OpenAiMessage.toolCallIds = callIds history := by
  have hflush : ∀ urls, (flushImages urls).flatMap OpenAiMessage.toolCallIds = [] := by
    intro urls
    unfold flushImages
    split_ifs
    · rfl
    · rfl
  induction history generalizing pending with
  | nil => exact hflush pending
  | cons item rest ih =>
      cases item with
      | user text =>
          rw [openaiMessages, List.flatMap_append, hflush]
          exact ih []
      | assistant text calls =>
          rw [openaiMessages, List.flatMap_append, hflush]
          exact congrArg (calls.map ToolCall.providerId ++ ·) (ih [])
      | toolResult result => exact ih _

theorem openaiMessages_results (pending : List String) (results : List ToolResult)
    (rest : List HistoryItem) :
    openaiMessages pending (results.map .toolResult ++ rest) = results.map toolMessage ++
      openaiMessages (pending ++ results.flatMap fun r => imageUrls r.content) rest := by
  induction results generalizing pending with
  | nil => simp
  | cons result results ih =>
      have hstep := ih (pending ++ imageUrls result.content)
      rw [List.append_assoc] at hstep
      exact congrArg (toolMessage result :: ·) hstep

theorem Paired.openaiMessages_flush {history : List HistoryItem} (h : Paired history)
    (pending : List String) :
    openaiMessages pending history = flushImages pending ++ openaiMessages [] history := by
  cases h with
  | nil | user text _ | turn text _ _ => simp [openaiMessages, flushImages]

theorem Paired.leadingToolIds_eq_nil {history : List HistoryItem} (h : Paired history)
    (pending : List String) : leadingToolIds (openaiMessages pending history) = [] := by
  rw [h.openaiMessages_flush pending]
  unfold flushImages
  split_ifs
  · cases h <;> rfl
  · rfl

theorem leadingToolIds_results (results : List ToolResult) (rest : List OpenAiMessage) :
    leadingToolIds (results.map toolMessage ++ rest) =
      results.map ToolResult.providerId ++ leadingToolIds rest := by
  induction results with
  | nil => rfl
  | cons result results ih => exact congrArg (result.providerId :: ·) ih

theorem openAiContiguous_results (results : List ToolResult) {rest : List OpenAiMessage}
    (h : OpenAiContiguous rest) : OpenAiContiguous (results.map toolMessage ++ rest) := by
  induction results with
  | nil => exact h
  | cons result results ih => exact ih

theorem Paired.openAiContiguous_flush {history : List HistoryItem} (h : Paired history)
    (pending : List String) (hrest : OpenAiContiguous (openaiMessages [] history)) :
    OpenAiContiguous (openaiMessages pending history) := by
  rw [h.openaiMessages_flush pending]
  unfold flushImages
  split_ifs
  · exact hrest
  · exact ⟨h.leadingToolIds_eq_nil [], hrest⟩

theorem Paired.openaiMessages {history : List HistoryItem} (h : Paired history) :
    OpenAiContiguous (openaiMessages [] history) := by
  induction h with
  | nil => trivial
  | user text hrest ih => exact ⟨hrest.leadingToolIds_eq_nil [], ih⟩
  | @turn text calls results rest hids hrest ih =>
      change _ ∧ _
      rw [openaiMessages_results, List.nil_append]
      refine ⟨?_, openAiContiguous_results results (hrest.openAiContiguous_flush _ ih)⟩
      rw [leadingToolIds_results, hrest.leadingToolIds_eq_nil, List.append_nil]
      exact hids

theorem Paired.openai {history : List HistoryItem} (h : Paired history) (systemPrompt : String) :
    OpenAiContiguous (openaiBody systemPrompt history) :=
  ⟨h.leadingToolIds_eq_nil [], h.openaiMessages⟩

end OpenAi

section Responses

inductive ResponsesItem where
  | user (text : String)
  | userImages (urls : List String)
  | assistant (text : String)
  | functionCall (callId name arguments : String)
  | functionCallOutput (callId output : String)
  deriving DecidableEq, Repr

def responsesItems : HistoryItem → List ResponsesItem
  | .user text => [.user text]
  | .assistant text toolCalls =>
      (if text = "" then [] else [.assistant text]) ++
        toolCalls.map fun c => .functionCall c.providerId c.name c.arguments
  | .toolResult r =>
      let images := imageUrls r.content
      .functionCallOutput r.providerId (openaiToolTextContent r.content) ::
        if images.isEmpty then [] else [.userImages images]

/-- The `input` of the body. -/
def responsesBody (history : List HistoryItem) : List ResponsesItem :=
  history.flatMap responsesItems

def ResponsesItem.callId? : ResponsesItem → Option String
  | functionCall callId _ _ => some callId
  | _ => none

def ResponsesItem.outputId? : ResponsesItem → Option String
  | functionCallOutput callId _ => some callId
  | _ => none

/-- The outputs answer the calls one by one, and at no place is an output ahead of its call. -/
structure ResponsesOrdered (input : List ResponsesItem) : Prop where
  answered : input.filterMap ResponsesItem.outputId? = input.filterMap ResponsesItem.callId?
  ordered : ∀ before, before <+: input →
    before.filterMap ResponsesItem.outputId? <+: before.filterMap ResponsesItem.callId?

variable {a b input : List ResponsesItem}

/-- A prefix of two lists ends in the first or reaches into the second. -/
theorem isPrefix_append_cases {before : List ResponsesItem} (h : before <+: a ++ b) :
    before <+: a ∨ ∃ after, before = a ++ after ∧ after <+: b := by
  rcases List.prefix_or_prefix_of_prefix h (List.prefix_append a b) with hshort | hlong
  · exact Or.inl hshort
  · obtain ⟨after, rfl⟩ := hlong
    exact Or.inr ⟨after, rfl, (List.prefix_append_right_inj a).mp h⟩

theorem ResponsesOrdered.append (ha : ResponsesOrdered a) (hb : ResponsesOrdered b) :
    ResponsesOrdered (a ++ b) where
  answered := by rw [List.filterMap_append, List.filterMap_append, ha.answered, hb.answered]
  ordered := by
    intro before hbefore
    rcases isPrefix_append_cases hbefore with hshort | ⟨after, rfl, hafter⟩
    · exact ha.ordered before hshort
    · rw [List.filterMap_append, List.filterMap_append, ha.answered]
      exact (List.prefix_append_right_inj _).mpr (hb.ordered after hafter)

/-- Calls without outputs, then the outputs of these calls. -/
theorem responsesOrdered_of_calls_outputs (ha : a.filterMap ResponsesItem.outputId? = [])
    (hb : b.filterMap ResponsesItem.callId? = [])
    (hids : b.filterMap ResponsesItem.outputId? = a.filterMap ResponsesItem.callId?) :
    ResponsesOrdered (a ++ b) where
  answered := by
    rw [List.filterMap_append, List.filterMap_append, ha, hb, hids]
    simp
  ordered := by
    intro before hbefore
    rcases isPrefix_append_cases hbefore with hshort | ⟨after, rfl, hafter⟩
    · have hnone := hshort.filterMap ResponsesItem.outputId?
      rw [ha] at hnone
      rw [List.prefix_nil.mp hnone]
      exact List.nil_prefix
    · have houts := hafter.filterMap ResponsesItem.outputId?
      rw [hids] at houts
      rw [List.filterMap_append, List.filterMap_append, ha, List.nil_append]
      exact houts.trans (List.prefix_append _ _)

theorem filterMap_responsesItems_assistant (text : String) (calls : List ToolCall) :
    (responsesItems (.assistant text calls)).filterMap ResponsesItem.callId? =
        calls.map ToolCall.providerId ∧
      (responsesItems (.assistant text calls)).filterMap ResponsesItem.outputId? = [] := by
  simp only [responsesItems]
  split_ifs
  · simp [ResponsesItem.callId?, ResponsesItem.outputId?, Function.comp_def]
  · simp [ResponsesItem.callId?, ResponsesItem.outputId?, Function.comp_def, List.filterMap_cons]

theorem filterMap_responsesItems_result (r : ToolResult) :
    (responsesItems (.toolResult r)).filterMap ResponsesItem.callId? = [] ∧
      (responsesItems (.toolResult r)).filterMap ResponsesItem.outputId? = [r.providerId] := by
  simp only [responsesItems]
  split_ifs
  · exact ⟨rfl, rfl⟩
  · exact ⟨rfl, rfl⟩

theorem filterMap_responsesBody_results (results : List ToolResult) :
    (responsesBody (results.map .toolResult)).filterMap ResponsesItem.callId? = [] ∧
      (responsesBody (results.map .toolResult)).filterMap ResponsesItem.outputId? =
        results.map ToolResult.providerId := by
  induction results with
  | nil => exact ⟨rfl, rfl⟩
  | cons result results ih =>
      obtain ⟨hcall, hout⟩ := filterMap_responsesItems_result result
      have hcons : responsesBody ((result :: results).map .toolResult) =
          responsesItems (.toolResult result) ++ responsesBody (results.map .toolResult) := rfl
      rw [hcons, List.filterMap_append, List.filterMap_append, hcall, hout, ih.1, ih.2]
      exact ⟨rfl, rfl⟩

theorem callIds_responsesBody (history : List HistoryItem) :
    (responsesBody history).filterMap ResponsesItem.callId? = callIds history := by
  induction history with
  | nil => rfl
  | cons item rest ih =>
      have hcons : responsesBody (item :: rest) = responsesItems item ++ responsesBody rest := rfl
      rw [hcons, List.filterMap_append, ih]
      cases item with
      | user text => rfl
      | assistant text calls =>
          rw [(filterMap_responsesItems_assistant text calls).1]
          rfl
      | toolResult result =>
          rw [(filterMap_responsesItems_result result).1]
          rfl

theorem Paired.responses {history : List HistoryItem} (h : Paired history) :
    ResponsesOrdered (responsesBody history) := by
  induction h with
  | nil =>
      exact ⟨rfl, fun before hbefore => by rw [List.prefix_nil.mp hbefore]; exact List.nil_prefix⟩
  | user text _ ih =>
      have huser : ResponsesOrdered ([] ++ [.user text]) :=
        responsesOrdered_of_calls_outputs rfl rfl rfl
      exact huser.append ih
  | @turn text calls results rest hids hrest ih =>
      obtain ⟨hcalls, hnone⟩ := filterMap_responsesItems_assistant text calls
      obtain ⟨hnone', houts⟩ := filterMap_responsesBody_results results
      have hturn : ResponsesOrdered
          (responsesItems (.assistant text calls) ++ responsesBody (results.map .toolResult)) := by
        refine responsesOrdered_of_calls_outputs hnone hnone' ?_
        rw [hcalls, houts, hids]
      have hbody : responsesBody (.assistant text calls :: (results.map .toolResult ++ rest)) =
          (responsesItems (.assistant text calls) ++ responsesBody (results.map .toolResult)) ++
            responsesBody rest := by
        simp [responsesBody]
      rw [hbody]
      exact hturn.append ih

end Responses
end Buzz
