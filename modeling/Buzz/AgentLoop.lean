import Mathlib.Logic.Function.Basic
import Mathlib.Tactic
import Buzz.AsciiText

/-!
# The prompt loop of the agent

A prompt runs in rounds: look for a cancel, fold queued steers in, hand the
context over or cut it, ask the model, run its tool calls. Every place where the
loop waits is a program point, so that a cancel or a steer may arrive there.
-/

namespace Buzz

section Types

inductive ContentBlock where
  | text (text : String)
  | resourceLink (uri : String)
  | unsupported
  deriving DecidableEq, Repr

inductive ToolResultContent where
  | text (text : String)
  | image (data mimeType : String)
  deriving DecidableEq, Repr

/-- `arguments` is the JSON text of the value. -/
structure ToolCall where
  providerId : String
  name : String
  arguments : String
  deriving DecidableEq, Repr

structure ToolResult where
  providerId : String
  content : List ToolResultContent
  isError : Bool
  deriving DecidableEq, Repr

inductive HistoryItem where
  | user (text : String)
  | assistant (text : String) (toolCalls : List ToolCall)
  | toolResult (result : ToolResult)
  deriving DecidableEq, Repr

inductive ProviderStop where
  | endTurn
  | toolUse
  | maxTokens
  | refusal
  | other
  deriving DecidableEq, Repr

inductive StopReason where
  | endTurn
  | cancelled
  | maxTokens
  | maxTurnRequests
  | refusal
  deriving DecidableEq, Repr

structure LlmResponse where
  text : String
  toolCalls : List ToolCall
  stop : ProviderStop
  inputTokens : Option ℕ
  deriving DecidableEq, Repr

inductive AgentError where
  | invalidParams (detail : String)
  | llm (detail : String)
  | llmAuth (detail : String)
  | llmModelNotFound (detail : String)
  | mcp (detail : String)
  | cancelled
  deriving DecidableEq, Repr

inductive InvokeOutcome where
  | done (content : List ToolResultContent) (isError : Bool)
  | failed (detail : String)
  deriving DecidableEq, Repr

structure AgentConfig where
  maxRounds : ℕ
  stopMaxRejections : ℕ
  maxHandoffs : ℕ
  maxHistoryBytes : ℕ
  maxContextTokens : ℕ
  maxOutputTokens : ℕ

end Types

def maxPromptBytes : ℕ := 1024 * 1024

def maxToolCallsPerTurn : ℕ := 64

def loadSkillTool : String := "load_skill"

def errorReflectionSuffix : String :=
  "\n\n[Reflect] Before retrying, identify the cause and change your approach."

def mapStop : ProviderStop → StopReason
  | .endTurn => .endTurn
  | .toolUse => .endTurn
  | .other => .endTurn
  | .maxTokens => .maxTokens
  | .refusal => .refusal

def promptParts : List ContentBlock → Except AgentError (List String)
  | [] => .ok []
  | .text text :: rest => (promptParts rest).map (text :: ·)
  | .resourceLink uri :: rest => (promptParts rest).map (("[resource: " ++ uri ++ "]") :: ·)
  | .unsupported :: _ =>
      .error (.invalidParams
        "prompt: unsupported content block (only text and resource_link are advertised)")

def promptToText (prompt : List ContentBlock) : Except AgentError String :=
  (promptParts prompt).map ("\n".intercalate ·)

/-- What a queued steer adds to the history. -/
def steerText (blocks : List ContentBlock) : Option String :=
  match promptToText blocks with
  | .ok text => if trim text ≠ "" then some text else none
  | .error _ => none

section History

def imageContextTokenEquiv : ℕ := 16 * 1024

namespace ToolResultContent

def estimatedBytes : ToolResultContent → ℕ
  | text s => s.utf8ByteSize
  | image data mimeType => data.utf8ByteSize + mimeType.utf8ByteSize

def contextPressureBytes : ToolResultContent → ℕ
  | text s => s.utf8ByteSize
  | image _ mimeType => imageContextTokenEquiv + mimeType.utf8ByteSize

end ToolResultContent

namespace HistoryItem

def isUser : HistoryItem → Bool
  | user _ => true
  | _ => false

def sizeWith (contentSize : ToolResultContent → ℕ) : HistoryItem → ℕ
  | user s => s.utf8ByteSize
  | assistant text toolCalls =>
      text.utf8ByteSize + (toolCalls.map fun c =>
        c.providerId.utf8ByteSize + c.name.utf8ByteSize + c.arguments.utf8ByteSize).sum
  | toolResult r => r.providerId.utf8ByteSize + (r.content.map contentSize).sum

def estimatedBytes : HistoryItem → ℕ :=
  sizeWith ToolResultContent.estimatedBytes

def contextPressureBytes : HistoryItem → ℕ :=
  sizeWith ToolResultContent.contextPressureBytes

end HistoryItem

def historyBytes (history : List HistoryItem) : ℕ :=
  (history.map HistoryItem.estimatedBytes).sum

def historyPressure (history : List HistoryItem) : ℕ :=
  (history.map HistoryItem.contextPressureBytes).sum

/-- The history from its second user turn on. -/
def dropTurn (history : List HistoryItem) : List HistoryItem :=
  history.tail.dropWhile fun item => !item.isUser

theorem dropTurn_length_lt {history : List HistoryItem} (h : dropTurn history ≠ []) :
    (dropTurn history).length < history.length := by
  have hsuffix : dropTurn history <:+ history.tail := List.dropWhile_suffix _
  have hle := hsuffix.length_le
  have htail : history.tail.length = history.length - 1 := List.length_tail
  have hpos : 0 < (dropTurn history).length := List.length_pos_of_ne_nil h
  omega

/-- Drops the oldest turns until the rest fits, but never the last one. -/
def truncateHistory (maxBytes : ℕ) (history : List HistoryItem) : List HistoryItem :=
  if historyBytes history ≤ maxBytes then history
  else if _h : dropTurn history = [] then history
  else truncateHistory maxBytes (dropTurn history)
termination_by history.length
decreasing_by exact dropTurn_length_lt ‹_›

def lastUserText (history : List HistoryItem) : Option String :=
  history.reverse.findSome? fun item =>
    match item with
    | .user s => some s
    | _ => none

def jsonEscape (c : Char) : List Char :=
  if c = '"' then ['\\', '"']
  else if c = '\\' then ['\\', '\\']
  else if c = '\x08' then ['\\', 'b']
  else if c = '\t' then ['\\', 't']
  else if c = '\n' then ['\\', 'n']
  else if c = '\x0c' then ['\\', 'f']
  else if c = '\r' then ['\\', 'r']
  else if c.toNat < 32 then
    ['\\', 'u', '0', '0', if c.toNat < 16 then '0' else '1', Nat.digitChar (c.toNat % 16)]
  else [c]

def jsonString (s : String) : String :=
  "\"" ++ String.ofList (s.toList.flatMap jsonEscape) ++ "\""

def formatHookOutputBody (hook server text : String) : String :=
  "\x7b\"hook\":" ++ jsonString hook ++ ",\"server\":" ++ jsonString server ++ ",\"text\":" ++
    jsonString text ++ "\x7d"

/-- One output of a hook with the nonce of its identifier. -/
structure HookOutput where
  server : String
  text : String
  nonce : ℕ
  deriving DecidableEq, Repr

def syntheticHookId (hook server : String) (ordinal : ℕ) : String :=
  "buzz_hook_" ++ hook ++ "_" ++ server ++ "_" ++ toString ordinal

def hookOutputItems (hook : String) (output : HookOutput) : List HistoryItem :=
  let providerId := syntheticHookId hook output.server output.nonce
  [.assistant "" [⟨providerId, output.server ++ "__" ++ hook, "\x7b\x7d"⟩],
    .toolResult ⟨providerId, [.text (formatHookOutputBody hook output.server output.text)], false⟩]

def pushHookOutputsAsToolResults (history : List HistoryItem) (hook : String)
    (outputs : List HookOutput) : List HistoryItem :=
  history ++ outputs.flatMap (hookOutputItems hook)

def hookOutputsText (outputs : List HookOutput) : String :=
  "\n\n".intercalate (outputs.map fun output => "[" ++ output.server ++ "]\n" ++ output.text)

def handoffText (summary : String) (postCompact : List HookOutput) : String :=
  let text := "[Context Handoff]\n" ++ summary
  if postCompact.isEmpty then text
  else text ++ "\n\n[Post-compact hook output — untrusted]\n" ++ hookOutputsText postCompact

end History

section Execution

/-- The calls of one round with a slot for the result of each. -/
structure Execution where
  calls : List ToolCall
  results : List (Option ToolResult)
  runnable : List ℕ
  deriving DecidableEq, Repr

def syntheticToolResult (call : ToolCall) (msg : String) : ToolResult :=
  ⟨call.providerId, [.text msg], true⟩

def outcomeToResult (call : ToolCall) : InvokeOutcome → ToolResult
  | .done content isError => ⟨call.providerId, content, isError⟩
  | .failed msg => syntheticToolResult call msg

def appendedResult (call : ToolCall) (result : Option ToolResult) : ToolResult :=
  let result := result.getD ⟨call.providerId, [.text "internal error: missing result"], true⟩
  if result.isError then { result with content := result.content ++ [.text errorReflectionSuffix] }
  else result

namespace Execution

variable (ex : Execution)

def start (calls : List ToolCall) : Execution :=
  ⟨calls, List.replicate calls.length none, []⟩

def appendResults : List HistoryItem :=
  (List.zipWith appendedResult ex.calls ex.results).map .toolResult

/-- Fills every empty slot that `which` picks as cancelled. -/
def fillCancelled (which : ℕ → Bool) : Execution :=
  { ex with
    results := List.zipWith (fun (call, i) result =>
      if which i && result.isNone then some (syntheticToolResult call "cancelled") else result)
      ex.calls.zipIdx ex.results }

def setResult (idx : ℕ) (result : ToolResult) : Execution :=
  { ex with results := ex.results.set idx (some result) }

end Execution
end Execution

/-- Where the loop stands. -/
inductive Pc where
  | start (prompt : List ContentBlock)
  | top
  | check
  | drain
  | gate
  | summarizing
  | compacting (summary : String) (currentPrompt : Option String)
  | ready
  | completing
  | responded (response : LlmResponse)
  | stopHooks
  | preflight (idx : ℕ) (ex : Execution)
  | joining (pending : List ℕ) (draining : Bool) (ex : Execution)
  deriving DecidableEq, Repr

/-- The state of a running prompt. The last two fields record the steers that were accepted and
what became of them. -/
structure RunState where
  pc : Pc
  history : List HistoryItem
  originalTask : Option String
  handoffCount : ℕ
  lastRequestInputTokens : Option ℕ
  lastRequestHistoryBytes : Option ℕ
  round : ℕ
  stopRejections : ℕ
  cancelled : Bool
  steers : List (List ContentBlock)
  accepted : List (List ContentBlock)
  pickedUp : List String

/-- What the loop is told at the point where it waits. -/
inductive RunInput where
  | go
  | summary (result : Except AgentError String)
  | completion (result : Except AgentError LlmResponse)
  | hooks (outputs : List HookOutput)
  | tool (known : Bool) (skillContent : List ToolResultContent) (skillError : Bool)
  | joined (idx : ℕ) (outcome : InvokeOutcome)
  | joinFailed (idx : ℕ)
  | drainTimeout

inductive LlmRequest where
  | complete (history : List HistoryItem)
  | summarize
  deriving DecidableEq, Repr

inductive Progress where
  | next (run : RunState)
  | issue (request : LlmRequest) (run : RunState)
  | done (result : Except AgentError StopReason) (run : RunState)

def Progress.state : Progress → RunState
  | next run => run
  | issue _ run => run
  | done _ run => run

namespace RunState

variable (cfg : AgentConfig) (run : RunState)

section Handoff

def tokenThreshold : ℕ :=
  min (cfg.maxContextTokens / 10 * 9) (cfg.maxContextTokens - cfg.maxOutputTokens)

def byteFallbackThreshold : ℕ :=
  min (tokenThreshold cfg) (cfg.maxHistoryBytes / 10 * 9)

def projectedHandoffInputTokens : ℕ :=
  let currentBytes := historyPressure run.history
  match run.lastRequestInputTokens with
  | some measured => measured + (currentBytes - run.lastRequestHistoryBytes.getD 0)
  | none => currentBytes

def shouldHandoff : Bool :=
  match run.lastRequestInputTokens with
  | some _ => tokenThreshold cfg ≤ run.projectedHandoffInputTokens
  | none => byteFallbackThreshold cfg < historyPressure run.history

/-- No handoff: the history is cut instead. -/
def skipHandoff : RunState :=
  { run with history := truncateHistory cfg.maxHistoryBytes run.history, pc := .ready }

def performHandoff (summary : String) (currentPrompt : Option String)
    (postCompact : List HookOutput) : RunState :=
  { run with
    history := run.history ++ [.user (handoffText summary postCompact)] ++
      (currentPrompt.map .user).toList
    handoffCount := run.handoffCount + 1
    lastRequestInputTokens := none
    lastRequestHistoryBytes := none
    pc := .ready }

end Handoff

def stopCancelled : Progress :=
  .done (.ok .cancelled) run

/-- A `select` whose first branch is the cancel. -/
def unlessCancelled (progress : Progress) : Progress :=
  if run.cancelled then run.stopCancelled else progress

def begin (prompt : List ContentBlock) : Progress :=
  match promptToText prompt with
  | .error e => .done (.error e) run
  | .ok userText =>
      if maxPromptBytes < userText.utf8ByteSize then
        .done (.error (.invalidParams ("prompt: exceeds " ++ toString maxPromptBytes ++
          " bytes"))) run
      else
        .next { run with
          originalTask := some (run.originalTask.getD userText)
          history := run.history ++ [.user userText]
          pc := .top }

/-- One message of the queue, or on to the handoff when the queue is empty. -/
def drainSteers : RunState :=
  match run.steers with
  | [] => { run with pc := .gate }
  | blocks :: rest =>
      { run with
        steers := rest
        history := run.history ++ ((steerText blocks).map .user).toList
        pickedUp := run.pickedUp ++ (steerText blocks).toList }

def maybeHandoff : Progress :=
  if run.shouldHandoff cfg ∧ run.handoffCount < cfg.maxHandoffs then
    run.unlessCancelled (.issue .summarize { run with pc := .summarizing })
  else .next (run.skipHandoff cfg)

def summarized (result : Except AgentError String) : RunState :=
  match result with
  | .ok summary =>
      if trim summary ≠ "" then
        { run with history := [], pc := .compacting summary (lastUserText run.history) }
      else run.skipHandoff cfg
  | .error _ => run.skipHandoff cfg

def completed (result : Except AgentError LlmResponse) : Progress :=
  match result with
  | .error e => .done (.error e) run
  | .ok response =>
      match response.inputTokens with
      | some tokens =>
          .next { run with
            lastRequestInputTokens := some tokens
            lastRequestHistoryBytes := some (historyPressure run.history)
            pc := .responded response }
      | none => .next { run with pc := .responded response }

def handleResponse (response : LlmResponse) : Progress :=
  if response.toolCalls.isEmpty then
    if response.stop = .toolUse then
      .done (.error (.llm "provider: stop=tool_use but zero tool_calls")) run
    else
      let pushed := { run with history := run.history ++ [.assistant response.text []] }
      let stop := mapStop response.stop
      if stop = .endTurn ∧ run.stopRejections < cfg.stopMaxRejections then
        .next { pushed with pc := .stopHooks }
      else .done (.ok stop) pushed
  else
    let calls := response.toolCalls.take maxToolCallsPerTurn
    .next { run with
      history := run.history ++ [.assistant response.text calls]
      pc := .preflight 0 (.start calls) }

def handleObjections (objections : List HookOutput) : Progress :=
  if objections.isEmpty then .done (.ok .endTurn) run
  else
    .next { run with
      stopRejections := run.stopRejections + 1
      history := pushHookOutputsAsToolResults run.history "_Stop" objections
      pc := .top }

/-- The next call in order: built-in, unknown or runnable. -/
def preflight (idx : ℕ) (ex : Execution) (known : Bool) (skillContent : List ToolResultContent)
    (skillError : Bool) : Option Progress :=
  ex.calls[idx]?.map fun call =>
    if run.cancelled then
      let filled := ex.fillCancelled fun _ => true
      .done (.ok .cancelled) { run with history := run.history ++ filled.appendResults }
    else if call.name = loadSkillTool then
      .next { run with
        pc := .preflight (idx + 1) (ex.setResult idx ⟨call.providerId, skillContent, skillError⟩) }
    else if known then
      .next { run with pc := .preflight (idx + 1) { ex with runnable := ex.runnable ++ [idx] } }
    else
      .next { run with
        pc := .preflight (idx + 1)
          (ex.setResult idx (syntheticToolResult call ("unknown tool: " ++ call.name))) }

def finishCalls (ex : Execution) : Progress :=
  let filled := ex.fillCancelled fun i => ex.runnable.contains i
  let appended := { run with history := run.history ++ filled.appendResults }
  if run.cancelled then .done (.ok .cancelled) appended else .next { appended with pc := .top }

/-- A task of the join set ended. Before the drain a cancel wins over the task. -/
def joined (pending : List ℕ) (draining : Bool) (ex : Execution) (idx : ℕ)
    (outcome : InvokeOutcome) : Option Progress :=
  if idx ∈ pending then
    ex.calls[idx]?.map fun call =>
      if !draining && run.cancelled then .next { run with pc := .joining pending true ex }
      else if draining && ((ex.results[idx]?).getD none).isSome then
        .next { run with pc := .joining (pending.erase idx) draining ex }
      else
        .next { run with
          pc := .joining (pending.erase idx) draining
            (ex.setResult idx (outcomeToResult call outcome)) }
  else none

def step (input : RunInput) : Option Progress :=
  match run.pc, input with
  | .start prompt, .go => some (run.begin prompt)
  | .top, .go =>
      if 0 < cfg.maxRounds ∧ cfg.maxRounds ≤ run.round then some (.done (.ok .maxTurnRequests) run)
      else some (.next { run with pc := .check })
  | .check, .go => some (run.unlessCancelled (.next { run with pc := .drain }))
  | .drain, .go => some (.next run.drainSteers)
  | .gate, .go => some (run.maybeHandoff cfg)
  | .summarizing, .go => if run.cancelled then some run.stopCancelled else none
  | .summarizing, .summary result => some (run.unlessCancelled (.next (run.summarized cfg result)))
  | .compacting summary currentPrompt, .hooks outputs =>
      some (.next (run.performHandoff summary currentPrompt outputs))
  | .ready, .go =>
      some (run.unlessCancelled
        (.issue (.complete run.history) { run with round := run.round + 1, pc := .completing }))
  | .completing, .go => if run.cancelled then some run.stopCancelled else none
  | .completing, .completion result => some (run.unlessCancelled (run.completed result))
  | .responded response, .go => some (run.handleResponse cfg response)
  | .stopHooks, .hooks outputs => some (run.handleObjections outputs)
  | .preflight idx ex, .tool known skillContent skillError =>
      run.preflight idx ex known skillContent skillError
  | .preflight idx ex, .go =>
      if ex.calls.length ≤ idx then
        some (.next { run with pc := .joining ex.runnable run.cancelled ex })
      else none
  | .joining pending draining ex, .joined idx outcome => run.joined pending draining ex idx outcome
  | .joining pending draining ex, .joinFailed idx =>
      if idx ∈ pending then some (.next { run with pc := .joining (pending.erase idx) draining ex })
      else none
  | .joining _ draining ex, .drainTimeout => if draining then some (run.finishCalls ex) else none
  | .joining pending draining ex, .go =>
      if pending.isEmpty then some (run.finishCalls ex)
      else if !draining && run.cancelled then
        some (.next { run with pc := .joining pending true ex })
      else none
  | _, _ => none

end RunState

section Steps

/-- What one step of the loop can do. -/
inductive Stepped (cfg : AgentConfig) (run : RunState) : Progress → Prop where
  | begun (prompt : List ContentBlock) : run.pc = .start prompt → Stepped cfg run (run.begin prompt)
  | roundsUsed : run.pc = .top → 0 < cfg.maxRounds ∧ cfg.maxRounds ≤ run.round →
      Stepped cfg run (.done (.ok .maxTurnRequests) run)
  | newRound : run.pc = .top → ¬(0 < cfg.maxRounds ∧ cfg.maxRounds ≤ run.round) →
      Stepped cfg run (.next { run with pc := .check })
  | checked : run.pc = .check →
      Stepped cfg run (run.unlessCancelled (.next { run with pc := .drain }))
  | drained : run.pc = .drain → Stepped cfg run (.next run.drainSteers)
  | gated : run.pc = .gate → Stepped cfg run (run.maybeHandoff cfg)
  | interrupted : run.pc = .summarizing ∨ run.pc = .completing → run.cancelled = true →
      Stepped cfg run run.stopCancelled
  | summarized (result : Except AgentError String) : run.pc = .summarizing →
      Stepped cfg run (run.unlessCancelled (.next (run.summarized cfg result)))
  | compacted (summary : String) (currentPrompt : Option String) (outputs : List HookOutput) :
      run.pc = .compacting summary currentPrompt →
      Stepped cfg run (.next (run.performHandoff summary currentPrompt outputs))
  | requested : run.pc = .ready →
      Stepped cfg run (run.unlessCancelled
        (.issue (.complete run.history) { run with round := run.round + 1, pc := .completing }))
  | completed (result : Except AgentError LlmResponse) : run.pc = .completing →
      Stepped cfg run (run.unlessCancelled (run.completed result))
  | responded (response : LlmResponse) : run.pc = .responded response →
      Stepped cfg run (run.handleResponse cfg response)
  | objected (outputs : List HookOutput) : run.pc = .stopHooks →
      Stepped cfg run (run.handleObjections outputs)
  | preflight {idx : ℕ} {ex : Execution} {known skillError : Bool}
      {skillContent : List ToolResultContent} {progress : Progress} : run.pc = .preflight idx ex →
      run.preflight idx ex known skillContent skillError = some progress → Stepped cfg run progress
  | spawned {idx : ℕ} {ex : Execution} : run.pc = .preflight idx ex → ex.calls.length ≤ idx →
      Stepped cfg run (.next { run with pc := .joining ex.runnable run.cancelled ex })
  | joined {pending : List ℕ} {draining : Bool} {ex : Execution} {idx : ℕ}
      {outcome : InvokeOutcome} {progress : Progress} : run.pc = .joining pending draining ex →
      run.joined pending draining ex idx outcome = some progress → Stepped cfg run progress
  | joinFailed {pending : List ℕ} {draining : Bool} {ex : Execution} {idx : ℕ} :
      run.pc = .joining pending draining ex → idx ∈ pending →
      Stepped cfg run (.next { run with pc := .joining (pending.erase idx) draining ex })
  | noticed {pending : List ℕ} {ex : Execution} : run.pc = .joining pending false ex →
      run.cancelled = true → Stepped cfg run (.next { run with pc := .joining pending true ex })
  | settled {pending : List ℕ} {draining : Bool} {ex : Execution} :
      run.pc = .joining pending draining ex → Stepped cfg run (run.finishCalls ex)

theorem stepped_of_step {cfg : AgentConfig} {run : RunState} {input : RunInput}
    {progress : Progress} (h : run.step cfg input = some progress) : Stepped cfg run progress := by
  unfold RunState.step at h
  split at h
  · obtain rfl := Option.some_inj.mp h
    exact .begun _ ‹_›
  · split_ifs at h
    · obtain rfl := Option.some_inj.mp h
      exact .roundsUsed ‹_› ‹_›
    · obtain rfl := Option.some_inj.mp h
      exact .newRound ‹_› ‹_›
  · obtain rfl := Option.some_inj.mp h
    exact .checked ‹_›
  · obtain rfl := Option.some_inj.mp h
    exact .drained ‹_›
  · obtain rfl := Option.some_inj.mp h
    exact .gated ‹_›
  · split_ifs at h
    obtain rfl := Option.some_inj.mp h
    exact .interrupted (Or.inl ‹_›) ‹_›
  · obtain rfl := Option.some_inj.mp h
    exact .summarized _ ‹_›
  · obtain rfl := Option.some_inj.mp h
    exact .compacted _ _ _ ‹_›
  · obtain rfl := Option.some_inj.mp h
    exact .requested ‹_›
  · split_ifs at h
    obtain rfl := Option.some_inj.mp h
    exact .interrupted (Or.inr ‹_›) ‹_›
  · obtain rfl := Option.some_inj.mp h
    exact .completed _ ‹_›
  · obtain rfl := Option.some_inj.mp h
    exact .responded _ ‹_›
  · obtain rfl := Option.some_inj.mp h
    exact .objected _ ‹_›
  · exact .preflight ‹_› h
  · split_ifs at h
    obtain rfl := Option.some_inj.mp h
    exact .spawned ‹_› ‹_›
  · exact .joined ‹_› h
  · split_ifs at h
    obtain rfl := Option.some_inj.mp h
    exact .joinFailed ‹_› ‹_›
  · split_ifs at h
    obtain rfl := Option.some_inj.mp h
    exact .settled ‹_›
  · rename_i hpc
    split_ifs at h with hempty hfirst
    · obtain rfl := Option.some_inj.mp h
      exact .settled ‹_›
    · obtain rfl := Option.some_inj.mp h
      obtain ⟨hdraining, hcancelled⟩ := Bool.and_eq_true_iff.mp hfirst
      rw [(Bool.not_eq_eq_eq_not ..).mp hdraining] at hpc
      exact .noticed hpc hcancelled
  · cases h

end Steps
end Buzz
