import Buzz.AsciiText

/-!
# Durable space history as the harness reads it

Rows of the local history, the channel envelope carried by a row's payload, the
harness configuration that decides whose messages count, and the rolling
conversation context. The payload codec (base64 and JSON) is a parameter: a row
has an envelope exactly when its payload decodes to one.
-/

namespace Buzz

structure ChannelEnvelope where
  text : String
  createdAt : ℕ
  clientId : String
  mentions : List String
  agentGenerated : Bool
  agentGeneration : Option ℕ
  delegationRoot : Option String
  deriving DecidableEq, Repr

structure HistoryRow where
  id : ℤ
  msgId : String
  scope : String
  authorAgent : Option String
  direction : String
  payload : String
  provenance : String
  signed : Bool
  threadRoot : Option String
  threadParent : Option String
  deriving DecidableEq, Repr

abbrev EnvelopeDecoder := String → Option ChannelEnvelope

namespace HistoryRow

def envelope (decode : EnvelopeDecoder) (row : HistoryRow) : Option ChannelEnvelope :=
  decode row.payload

def isVerifiedInbound (row : HistoryRow) (stableGroupId : String) : Bool :=
  row.scope == "group:" ++ stableGroupId && row.direction == "Inbound" && row.signed &&
    row.provenance == "VerifiedEnvelope"

def isSafeContext (row : HistoryRow) (stableGroupId localAgentId : String) : Bool :=
  row.isVerifiedInbound stableGroupId ||
    (row.scope == "group:" ++ stableGroupId && row.direction == "Outbound" && row.signed &&
      row.provenance == "LocalSend" && row.authorAgent == some localAgentId)

/-- A row that is safe context and was not authored locally came in verified. -/
theorem isVerifiedInbound_of_isSafeContext {row : HistoryRow}
    {stableGroupId localAgentId author : String}
    (h : row.isSafeContext stableGroupId localAgentId = true)
    (hauthor : row.authorAgent = some author) (hne : author ≠ localAgentId) :
    row.isVerifiedInbound stableGroupId = true := by
  simp only [isSafeContext, Bool.or_eq_true, Bool.and_eq_true, beq_iff_eq] at h
  rcases h with h | h
  · exact h
  · rw [hauthor, Option.some.injEq] at h
    exact absurd h.2 hne

end HistoryRow

inductive RespondTo where
  | ownerOnly
  | allowlist
  | anyone
  | nobody
  deriving DecidableEq, Repr

/-- What `normalized_agent_id` lets through: 64 hexadecimal digits in lower case. -/
def IsAgentId (s : String) : Prop :=
  isHexText 64 s = true ∧ toAsciiLowercase s = s

instance (s : String) : Decidable (IsAgentId s) :=
  inferInstanceAs (Decidable (_ ∧ _))

theorem isAgentId_repeatText (c : Char) (hhex : isAsciiHexdigit c = true)
    (hlower : c.toLower = c) : IsAgentId (repeatText c 64) :=
  ⟨(isHexText_repeatText c 63).trans hhex, by rw [toAsciiLowercase_repeatText, hlower]⟩

/-- The part of the harness configuration that the durable and trigger logic
reads, with the identities already normalized as `Config::from_env` leaves them. -/
structure Config where
  agentId : String
  ownerAgentId : String
  groupId : String
  respondTo : RespondTo
  respondToAllowlist : List String
  isAgentId_agentId : IsAgentId agentId
  isAgentId_ownerAgentId : IsAgentId ownerAgentId

def Config.authorAllowed (config : Config) (author : String) : Bool :=
  match config.respondTo with
  | .ownerOnly => toAsciiLowercase author == config.ownerAgentId
  | .allowlist =>
      toAsciiLowercase author == config.ownerAgentId ||
        config.respondToAllowlist.contains (toAsciiLowercase author)
  | .anyone => true
  | .nobody => false

structure ContextMessage where
  author : String
  text : String
  msgId : String
  mentions : List String
  agentGenerated : Bool
  threadRoot : Option String
  threadParent : Option String
  deriving DecidableEq, Repr

def maxContextMessages : ℕ := 100

def promptContextMessages : ℕ := 20

def contextMessage (row : HistoryRow) (envelope : ChannelEnvelope) : ContextMessage where
  author := row.authorAgent.getD "unknown"
  text := envelope.text
  msgId := row.msgId
  mentions := envelope.mentions
  agentGenerated := envelope.agentGenerated
  threadRoot := row.threadRoot
  threadParent := row.threadParent

/-- Oldest message first. At most `maxContextMessages` are kept and no message
identifier occurs twice. -/
@[ext]
structure ConversationContext where
  messages : List ContextMessage
  length_le : messages.length ≤ maxContextMessages
  nodup : (messages.map ContextMessage.msgId).Nodup

namespace ConversationContext

variable {context : ConversationContext} {row : HistoryRow} {message : ContextMessage}
  {envelope : ChannelEnvelope}

def empty : ConversationContext where
  messages := []
  length_le := Nat.zero_le _
  nodup := List.nodup_nil

def hasMessage (context : ConversationContext) (msgId : String) : Bool :=
  context.messages.any (fun message => message.msgId == msgId)

theorem hasMessage_iff (context : ConversationContext) (msgId : String) :
    context.hasMessage msgId = true ↔ ∃ message ∈ context.messages, message.msgId = msgId := by
  simp [hasMessage]

def pushMessages (messages : List ContextMessage) (message : ContextMessage) :
    List ContextMessage :=
  (messages ++ [message]).drop (messages.length + 1 - maxContextMessages)

theorem pushMessages_eq (messages : List ContextMessage) (message : ContextMessage) :
    pushMessages messages message =
      messages.drop (messages.length + 1 - maxContextMessages) ++ [message] := by
  apply List.drop_append_of_le_length
  unfold maxContextMessages
  omega

theorem length_pushMessages_le (messages : List ContextMessage) (message : ContextMessage) :
    (pushMessages messages message).length ≤ maxContextMessages := by
  simp only [pushMessages, List.length_drop, List.length_append, List.length_singleton]
  omega

theorem nodup_pushMessages {messages : List ContextMessage}
    (hnodup : (messages.map ContextMessage.msgId).Nodup)
    (hnew : ∀ other ∈ messages, other.msgId ≠ message.msgId) :
    ((pushMessages messages message).map ContextMessage.msgId).Nodup := by
  rw [pushMessages, List.map_drop]
  apply List.Nodup.sublist (List.drop_sublist _ _)
  rw [List.map_append, List.map_singleton]
  refine List.Nodup.append hnodup (List.nodup_singleton _) ?_
  simpa [List.disjoint_singleton, eq_comm] using hnew

def push (context : ConversationContext) (row : HistoryRow) (envelope : ChannelEnvelope) :
    ConversationContext :=
  if hdup : context.hasMessage row.msgId = true then context
  else
    { messages := pushMessages context.messages (contextMessage row envelope)
      length_le := length_pushMessages_le _ _
      nodup := nodup_pushMessages context.nodup (by
        intro other hmem heq
        exact hdup ((context.hasMessage_iff row.msgId).mpr ⟨other, hmem, heq⟩)) }

def renderRecent (context : ConversationContext) : String :=
  "\n".intercalate
    ((context.messages.drop (context.messages.length - promptContextMessages)).map
      (fun message => "- " ++ message.author ++ " [" ++ message.msgId ++ "]: " ++ message.text))

theorem push_of_hasMessage (envelope : ChannelEnvelope) (h : context.hasMessage row.msgId = true) :
    context.push row envelope = context := by
  rw [push, dif_pos h]

theorem messages_push_of_new
    (envelope : ChannelEnvelope) (h : context.hasMessage row.msgId = false) :
    (context.push row envelope).messages =
      pushMessages context.messages (contextMessage row envelope) := by
  rw [push, dif_neg (by simp [h])]

/-- Every message kept by a push was there before or is the pushed row's. -/
theorem mem_push (h : message ∈ (context.push row envelope).messages) :
    message ∈ context.messages ∨ message = contextMessage row envelope := by
  cases hdup : context.hasMessage row.msgId with
  | true =>
      rw [push_of_hasMessage envelope hdup] at h
      exact Or.inl h
  | false =>
      rw [messages_push_of_new envelope hdup] at h
      simpa using List.mem_of_mem_drop h

theorem mem_push_self (h : context.hasMessage row.msgId = false) :
    contextMessage row envelope ∈ (context.push row envelope).messages := by
  rw [messages_push_of_new envelope h, pushMessages_eq]
  exact List.mem_append_right _ (List.mem_singleton_self _)

theorem hasMessage_of_head {msgId : String}
    (hhead : context.messages.head?.map ContextMessage.msgId = some msgId) :
    context.hasMessage msgId = true := by
  rw [Option.map_eq_some_iff] at hhead
  obtain ⟨oldest, holdest, hid⟩ := hhead
  rw [hasMessage_iff]
  exact ⟨oldest, List.mem_of_mem_head? holdest, hid⟩

/-- A new row that heads the context after its own push is alone in it. -/
theorem length_push_of_head (h : context.hasMessage row.msgId = false)
    (hhead : (context.push row envelope).messages.head?.map ContextMessage.msgId =
      some row.msgId) : (context.push row envelope).messages.length = 1 := by
  rw [messages_push_of_new envelope h, pushMessages_eq] at hhead ⊢
  rcases hkept : context.messages.drop (context.messages.length + 1 - maxContextMessages) with
    _ | ⟨oldest, rest⟩
  · rfl
  · rw [hkept] at hhead
    have holdest : oldest ∈ context.messages := by
      apply List.mem_of_mem_drop
      rw [hkept]
      exact List.mem_cons_self
    have hhas := (context.hasMessage_iff row.msgId).mpr
      ⟨oldest, holdest, Option.some_inj.mp hhead⟩
    rw [h] at hhas
    cases hhas

/-- Only the oldest message of a full context is lost to a push, and only when the
pushed row is new. -/
theorem mem_push_iff_of_mem (envelope : ChannelEnvelope) (hmem : message ∈ context.messages)
    (hne : message.msgId ≠ row.msgId) :
    message ∈ (context.push row envelope).messages ↔
      ¬(context.messages.length = maxContextMessages ∧
        context.messages.head?.map ContextMessage.msgId = some message.msgId ∧
        context.hasMessage row.msgId = false) := by
  cases hdup : context.hasMessage row.msgId with
  | true =>
      rw [push_of_hasMessage envelope hdup]
      simp [hmem]
  | false =>
      have hother : message ≠ contextMessage row envelope := by
        rintro rfl
        exact hne rfl
      rw [messages_push_of_new envelope hdup, pushMessages]
      rcases Nat.lt_or_ge context.messages.length maxContextMessages with hlt | hge
      · rw [Nat.sub_eq_zero_of_le hlt, List.drop_zero]
        simp [hmem, hlt.ne]
      · have hfull : context.messages.length = maxContextMessages :=
          le_antisymm context.length_le hge
        rw [hfull, Nat.add_sub_cancel_left, List.drop_one]
        rcases hmsgs : context.messages with _ | ⟨oldest, rest⟩
        · rw [hmsgs] at hmem
          cases hmem
        · have hnodup := context.nodup
          rw [hmsgs, List.map_cons, List.nodup_cons] at hnodup
          rw [hmsgs, List.mem_cons] at hmem
          simp only [List.cons_append, List.tail_cons, List.mem_append, List.mem_singleton, hother,
            or_false, List.head?_cons, Option.map_some, Option.some.injEq, true_and, and_true]
          constructor
          · intro hrest heq
            exact hnodup.1 (heq ▸ List.mem_map_of_mem hrest)
          · intro hkeep
            rcases hmem with rfl | hrest
            · exact absurd rfl hkeep
            · exact hrest

end ConversationContext
end Buzz
