import Buzz.TriggerGate

/-!
# The space tools of a managed agent

`space_send` posts an agent-generated message. When the message answers a parent
that mentions the sender, `deriveDelegation` attaches the hop number and the
owner root that the receiving harness checks again in
`intentionalAgentDelegation`.

The two sides decide the same notion, an eligible owner root. They agree on a
root stored without thread fields. On a root stored in the canonical
self-referential shape the sender derives nothing.
-/

namespace Buzz

def maxAgentGeneration : ℕ := 2

def maxMentions : ℕ := 50

/-- The configuration of the tool server; both identities passed `validate_hex_id`. -/
structure RuntimeConfig where
  agentId : String
  ownerAgentId : String
  groupId : String
  stableGroupId : String
  isAgentId_agentId : IsAgentId agentId
  isAgentId_ownerAgentId : IsAgentId ownerAgentId

structure ReceivedChannelEnvelope where
  mentions : List String
  agentGenerated : Bool
  agentGeneration : Option ℕ
  delegationRoot : Option String
  deriving DecidableEq, Repr

abbrev ReceivedDecoder := String → Option ReceivedChannelEnvelope

def ChannelEnvelope.received (envelope : ChannelEnvelope) : ReceivedChannelEnvelope where
  mentions := envelope.mentions
  agentGenerated := envelope.agentGenerated
  agentGeneration := envelope.agentGeneration
  delegationRoot := envelope.delegationRoot

structure ToolHistoryRow where
  msgId : String
  scope : String
  authorAgent : Option String
  direction : String
  provenance : String
  signed : Bool
  payload : String
  threadRoot : Option String
  threadParent : Option String
  deriving DecidableEq, Repr

/-- The tool server and the harness parse the same history records. -/
def HistoryRow.toolRow (row : HistoryRow) : ToolHistoryRow where
  msgId := row.msgId
  scope := row.scope
  authorAgent := row.authorAgent
  direction := row.direction
  provenance := row.provenance
  signed := row.signed
  payload := row.payload
  threadRoot := row.threadRoot
  threadParent := row.threadParent

namespace ToolHistoryRow

def envelope (decode : ReceivedDecoder) (row : ToolHistoryRow) : Option ReceivedChannelEnvelope :=
  decode row.payload

def isVerifiedInbound (row : ToolHistoryRow) (groupId : String) : Bool :=
  row.scope == "group:" ++ groupId && row.direction == "Inbound" &&
    row.provenance == "VerifiedEnvelope" && row.signed

end ToolHistoryRow

theorem isVerifiedInbound_toolRow (row : HistoryRow) (stableGroupId : String) :
    row.toolRow.isVerifiedInbound stableGroupId = row.isVerifiedInbound stableGroupId := by
  simp only [ToolHistoryRow.isVerifiedInbound, HistoryRow.isVerifiedInbound, HistoryRow.toolRow]
  ac_rfl

structure SpaceSend where
  text : String
  mentions : List String
  threadRoot : Option String
  threadParent : Option String
  deriving DecidableEq, Repr

structure AgentDelegation where
  generation : ℕ
  root : String
  deriving DecidableEq, Repr

structure AppError where
  message : String
  deriving DecidableEq, Repr

def validateHexId (label value : String) (expectedBytes : ℕ) : Except AppError Unit :=
  if value.toList.length == expectedBytes &&
      value.toList.all (fun c => isAsciiHexdigit c && !isAsciiUppercase c) then .ok ()
  else .error ⟨label ++ " must be exactly " ++ toString expectedBytes ++
    " lowercase hexadecimal characters"⟩

def validateOptionalMessageId (label : String) : Option String → Except AppError Unit
  | some value => validateHexId label value 64
  | none => .ok ()

/-- The checks of `parse_send_arguments` on the decoded arguments. -/
def parseSendArguments (request : SpaceSend) : Except AppError SpaceSend := do
  if (trim request.text).isEmpty then
    throw ⟨"text must not be empty"⟩
  if request.mentions.length > maxMentions then
    throw ⟨"mentions exceeds the maximum of " ++ toString maxMentions⟩
  request.mentions.forM (fun mention => validateHexId "mention" mention 64)
  validateOptionalMessageId "thread_root" request.threadRoot
  validateOptionalMessageId "thread_parent" request.threadParent
  if request.threadParent.isSome && request.threadRoot.isNone then
    throw ⟨"thread_parent requires thread_root to also be set"⟩
  return request

def deriveDelegation (decode : ReceivedDecoder) (config : RuntimeConfig) (request : SpaceSend)
    (parent : ToolHistoryRow) : Except AppError (Option AgentDelegation) :=
  match request.threadRoot, request.threadParent with
  | some threadRoot, some threadParent =>
      if threadParent != parent.msgId || !parent.isVerifiedInbound config.stableGroupId then
        .ok none
      else
        match parent.authorAgent, parent.envelope decode with
        | some author, some envelope =>
            if eqIgnoreAsciiCase author config.agentId then .ok none
            else if !envelope.mentions.any (eqIgnoreAsciiCase · config.agentId) then .ok none
            else if !envelope.agentGenerated then
              if eqIgnoreAsciiCase author config.ownerAgentId && threadRoot == parent.msgId &&
                  parent.threadRoot.isNone && parent.threadParent.isNone then
                .ok (some ⟨1, parent.msgId⟩)
              else .ok none
            else
              match envelope.agentGeneration, envelope.delegationRoot with
              | some generation, some root =>
                  if generation == 0 || threadRoot != root then .ok none
                  else if maxAgentGeneration ≤ generation then
                    .error ⟨"agent delegation exceeds the maximum generation of " ++
                      toString maxAgentGeneration⟩
                  else if generation != 1 || parent.threadRoot != some root ||
                      parent.threadParent != some root then .ok none
                  -- `checked_add` on a `u8` fails only at 255
                  else if generation + 1 < 256 then .ok (some ⟨generation + 1, root⟩)
                  else .error ⟨"agent delegation generation overflow"⟩
              | _, _ => .ok none
        | _, _ => .ok none
  | _, _ => .ok none

/-- Under a message of the owner that mentions the sender, the first hop is
attached exactly when the message is stored without thread fields. -/
theorem deriveDelegation_ownerMessage {decode : ReceivedDecoder} {config : RuntimeConfig}
    {request : SpaceSend} {parent : ToolHistoryRow} {envelope : ReceivedChannelEnvelope}
    {owner : String} (hroot : request.threadRoot = some parent.msgId)
    (hparent : request.threadParent = some parent.msgId)
    (hverified : parent.isVerifiedInbound config.stableGroupId = true)
    (hauthor : parent.authorAgent = some owner) (henv : parent.envelope decode = some envelope)
    (howner : eqIgnoreAsciiCase owner config.ownerAgentId = true)
    (hself : eqIgnoreAsciiCase owner config.agentId = false)
    (hmention : ∃ mention ∈ envelope.mentions, eqIgnoreAsciiCase mention config.agentId = true)
    (hplain : envelope.agentGenerated = false) :
    deriveDelegation decode config request parent =
      .ok (if parent.threadRoot = none ∧ parent.threadParent = none then some ⟨1, parent.msgId⟩
        else none) := by
  have hany : envelope.mentions.any (eqIgnoreAsciiCase · config.agentId) = true := by
    rw [List.any_eq_true]
    exact hmention
  rw [deriveDelegation, hroot, hparent]
  simp only [hverified, hauthor, henv, hself, hany, hplain, howner]
  rcases parent.threadRoot with _ | threadRoot <;>
    rcases parent.threadParent with _ | threadParent <;>
    simp

/-- A derived delegation is the first hop under an owner root or the second hop
under a first one. -/
theorem deriveDelegation_eq_some {decode : ReceivedDecoder} {config : RuntimeConfig}
    {request : SpaceSend} {parent : ToolHistoryRow} {delegation : AgentDelegation}
    (h : deriveDelegation decode config request parent = .ok (some delegation)) :
    ∃ author envelope, request.threadRoot = some delegation.root ∧
      request.threadParent = some parent.msgId ∧
      parent.isVerifiedInbound config.stableGroupId = true ∧
      parent.authorAgent = some author ∧ parent.envelope decode = some envelope ∧
      eqIgnoreAsciiCase author config.agentId = false ∧
      (∃ mention ∈ envelope.mentions, eqIgnoreAsciiCase mention config.agentId = true) ∧
      ((delegation = ⟨1, parent.msgId⟩ ∧ envelope.agentGenerated = false ∧
          eqIgnoreAsciiCase author config.ownerAgentId = true ∧
          parent.threadRoot = none ∧ parent.threadParent = none) ∨
        (delegation.generation = 2 ∧ envelope.agentGenerated = true ∧
          envelope.agentGeneration = some 1 ∧ envelope.delegationRoot = some delegation.root ∧
          parent.threadRoot = some delegation.root ∧
          parent.threadParent = some delegation.root)) := by
  unfold deriveDelegation at h
  split at h
  · rename_i threadRoot threadParent htr htp
    split at h
    · cases h
    rename_i hparent
    simp only [Bool.or_eq_true, bne_iff_ne, ne_eq, Bool.not_eq_true', not_or, not_not,
      Bool.not_eq_false] at hparent
    obtain ⟨rfl, hverified⟩ := hparent
    split at h
    · rename_i author envelope hauthor henv
      split_ifs at h with hself hmention hplain howner
      any_goals cases h
      -- the owner root: the hop is the first and the root is the parent
      · simp only [Bool.not_eq_true, Bool.not_eq_true', Bool.not_eq_false, List.any_eq_true,
          Bool.and_eq_true, beq_iff_eq, Option.isNone_iff_eq_none] at hself hmention hplain howner
        obtain ⟨⟨⟨howner, rfl⟩, hroot⟩, hthread⟩ := howner
        exact ⟨author, envelope, htr, htp, hverified, hauthor, henv, hself, hmention,
          Or.inl ⟨rfl, hplain, howner, hroot, hthread⟩⟩
      · simp only [Bool.not_eq_true, Bool.not_eq_true', List.any_eq_true,
          Bool.not_eq_false] at hself hmention hplain
        split at h
        · rename_i generation root hgeneration hroot
          split_ifs at h with hzero hmax hthread hover
          any_goals cases h
          simp only [Bool.or_eq_true, beq_iff_eq, bne_iff_ne, ne_eq, not_or,
            not_not] at hzero hthread
          obtain ⟨⟨rfl, hthreadRoot⟩, hthreadParent⟩ := hthread
          obtain ⟨-, rfl⟩ := hzero
          exact ⟨author, envelope, htr, htp, hverified, hauthor, henv, hself, hmention,
            Or.inr ⟨rfl, hplain, hgeneration, hroot, hthreadRoot, hthreadParent⟩⟩
        · cases h
    · cases h
  · cases h

/-- `delegation_metadata` with the answer of the history lookup for the parent. -/
def delegationMetadata (decode : ReceivedDecoder) (config : RuntimeConfig) (request : SpaceSend)
    (found : Option ToolHistoryRow) : Except AppError (Option AgentDelegation) :=
  match request.threadParent, found with
  | some _, some parent => deriveDelegation decode config request parent
  | _, _ => .ok none

def sendEnvelope (request : SpaceSend) (delegation : Option AgentDelegation) (createdAt : ℕ)
    (clientId : String) : ChannelEnvelope where
  text := request.text
  createdAt := createdAt
  clientId := clientId
  mentions := request.mentions
  agentGenerated := true
  agentGeneration := delegation.map AgentDelegation.generation
  delegationRoot := delegation.map AgentDelegation.root

/-- An owner message in either documented shape of a thread root, an answer that
agent A sends under it to its sibling B, and what B holds when the answer arrives.
The two histories agree on every field but the local row number. -/
structure DelegationScene where
  decode : EnvelopeDecoder
  receivedDecode : ReceivedDecoder
  sender : RuntimeConfig
  receiver : Config
  root : HistoryRow
  rootEnvelope : ChannelEnvelope
  owner : String
  request : SpaceSend
  createdAt : ℕ
  clientId : String
  sent : HistoryRow
  delegate : String
  history : List HistoryRow
  events : List ContextEvent
  received_of_decode : ∀ payload envelope, decode payload = some envelope →
    receivedDecode payload = some envelope.received
  same_owner : receiver.ownerAgentId = sender.ownerAgentId
  sender_ne_owner : sender.agentId ≠ sender.ownerAgentId
  sender_ne_receiver : sender.agentId ≠ receiver.agentId
  root_verified : root.isVerifiedInbound sender.stableGroupId = true
  root_envelope : root.envelope decode = some rootEnvelope
  root_author : root.authorAgent = some owner
  owner_eq : eqIgnoreAsciiCase owner sender.ownerAgentId = true
  root_not_generated : rootEnvelope.agentGenerated = false
  root_mentions : ∃ mention ∈ rootEnvelope.mentions,
    eqIgnoreAsciiCase mention sender.agentId = true
  root_shape : root.threadParent = none ∧
    (root.threadRoot = none ∨ root.threadRoot = some root.msgId)
  request_threadRoot : request.threadRoot = some root.msgId
  request_threadParent : request.threadParent = some root.msgId
  request_mentions : ∃ mention ∈ request.mentions,
    eqIgnoreAsciiCase mention receiver.agentId = true
  sent_verified : sent.isVerifiedInbound sender.stableGroupId = true
  sent_author : sent.authorAgent = some delegate
  delegate_eq : eqIgnoreAsciiCase delegate sender.agentId = true
  sent_threadRoot : sent.threadRoot = request.threadRoot
  sent_threadParent : sent.threadParent = request.threadParent
  sent_envelope : ∀ delegation,
    deriveDelegation receivedDecode sender request root.toolRow = .ok delegation →
    sent.envelope decode = some (sendEnvelope request delegation createdAt clientId)
  delegate_allowed : receiver.authorAllowed delegate = true
  root_mem : root ∈ history
  sent_mem : sent ∈ history
  history_nodup : (history.map HistoryRow.msgId).Nodup
  events_mem : ∀ event ∈ events, ∀ row ∈ event.rows, row ∈ history

namespace DelegationScene

variable (scene : DelegationScene)

/-- The rolling context of B just before it examines the answer. -/
def context : ConversationContext :=
  buildContext scene.decode scene.sender.stableGroupId scene.receiver.agentId scene.events

/-- The context in which B decides on the answer. -/
def decisionContext (envelope : ChannelEnvelope) : ConversationContext :=
  observeRow scene.decode scene.sender.stableGroupId scene.receiver.agentId scene.sent
    (ensureDelegationRoot scene.decode scene.sender.stableGroupId scene.receiver.agentId envelope
      (some scene.root) scene.context)

def answer : ChannelEnvelope :=
  sendEnvelope scene.request (some ⟨1, scene.root.msgId⟩) scene.createdAt scene.clientId

/-- The sender attaches the first hop and the receiver starts a turn. -/
def Agrees : Prop :=
  delegationMetadata scene.receivedDecode scene.sender scene.request (some scene.root.toolRow) =
      .ok (some ⟨1, scene.root.msgId⟩) ∧
    intentionalAgentDelegation scene.receiver scene.sent scene.answer
      (scene.decisionContext scene.answer) = true ∧
    shouldTrigger scene.receiver scene.sender.stableGroupId scene.sent scene.answer
      (scene.decisionContext scene.answer) = true

/-- The context is full, the root is its oldest message and the answer is new, so
that pushing the answer drops the root. -/
def EvictsRoot : Prop :=
  scene.context.messages.length = maxContextMessages ∧
    (scene.context.messages.head?.map ContextMessage.msgId) = some scene.root.msgId ∧
    scene.context.hasMessage scene.sent.msgId = false

theorem sender_lower : toAsciiLowercase scene.sender.agentId = scene.sender.agentId :=
  scene.sender.isAgentId_agentId.2

theorem owner_lower : toAsciiLowercase scene.owner = scene.sender.ownerAgentId := by
  have h := scene.owner_eq
  rw [eqIgnoreAsciiCase_iff, scene.sender.isAgentId_ownerAgentId.2] at h
  exact h

theorem delegate_lower : toAsciiLowercase scene.delegate = scene.sender.agentId := by
  have h := scene.delegate_eq
  rw [eqIgnoreAsciiCase_iff, scene.sender_lower] at h
  exact h

theorem deriveDelegation_root :
    deriveDelegation scene.receivedDecode scene.sender scene.request scene.root.toolRow =
      .ok (if scene.root.threadRoot = none then some ⟨1, scene.root.msgId⟩ else none) := by
  have hself : eqIgnoreAsciiCase scene.owner scene.sender.agentId = false := by
    rw [← Bool.not_eq_true, eqIgnoreAsciiCase_iff, scene.owner_lower, scene.sender_lower]
    exact scene.sender_ne_owner.symm
  have hverified := (isVerifiedInbound_toolRow scene.root scene.sender.stableGroupId).trans
    scene.root_verified
  have hparent : scene.root.toolRow.threadParent = none := scene.root_shape.1
  rw [deriveDelegation_ownerMessage scene.request_threadRoot scene.request_threadParent hverified
    scene.root_author (scene.received_of_decode _ _ scene.root_envelope) scene.owner_eq hself
    scene.root_mentions scene.root_not_generated]
  simp only [hparent, and_true]
  rfl

theorem answer_envelope (hroot : scene.root.threadRoot = none) :
    scene.sent.envelope scene.decode = some scene.answer := by
  apply scene.sent_envelope
  rw [scene.deriveDelegation_root, if_pos hroot]

theorem root_safe :
    scene.root.isSafeContext scene.sender.stableGroupId scene.receiver.agentId = true := by
  simp [HistoryRow.isSafeContext, scene.root_verified]

theorem sent_safe :
    scene.sent.isSafeContext scene.sender.stableGroupId scene.receiver.agentId = true := by
  simp [HistoryRow.isSafeContext, scene.sent_verified]

theorem eq_root_of_quotes {message : ContextMessage}
    (hquotes : QuotesRow scene.decode scene.sender.stableGroupId scene.receiver.agentId
      scene.history message) (hid : message.msgId = scene.root.msgId) :
    message = contextMessage scene.root scene.rootEnvelope := by
  obtain ⟨row, hrow, envelope, henv, -, rfl⟩ := hquotes
  have hsame : row = scene.root :=
    List.inj_on_of_nodup_map scene.history_nodup hrow scene.root_mem hid
  subst hsame
  rw [scene.root_envelope, Option.some.injEq] at henv
  rw [henv]

theorem context_quotes {message : ContextMessage} (hmem : message ∈ scene.context.messages) :
    QuotesRow scene.decode scene.sender.stableGroupId scene.receiver.agentId scene.history
      message :=
  buildContext_quotes _ _ _ scene.history scene.events scene.events_mem message hmem

theorem decisionContext_quotes {envelope : ChannelEnvelope} {message : ContextMessage}
    (hmem : message ∈ (scene.decisionContext envelope).messages) :
    QuotesRow scene.decode scene.sender.stableGroupId scene.receiver.agentId scene.history
      message := by
  rcases mem_observeRow scene.history scene.sent_mem hmem with hbefore | hquotes
  · have hrows : ∀ row ∈ (ContextEvent.ensureRoot envelope (some scene.root)).rows,
        row ∈ scene.history := by
      simp [ContextEvent.rows, scene.root_mem]
    rcases mem_apply scene.history hrows hbefore with hold | hquotes
    · exact scene.context_quotes hold
    · exact hquotes
  · exact hquotes

theorem sent_ne_root (hroot : scene.root.threadRoot = none) :
    scene.root.msgId ≠ scene.sent.msgId := by
  intro h
  have hsame : scene.root = scene.sent :=
    List.inj_on_of_nodup_map scene.history_nodup scene.root_mem scene.sent_mem h
  have hthread := scene.sent_threadRoot
  rw [← hsame, hroot, scene.request_threadRoot] at hthread
  cases hthread

theorem answer_delegationRoot : scene.answer.delegationRoot = some scene.root.msgId := rfl

/-- The root is quoted when B decides, unless pushing the answer has just dropped it. -/
theorem root_mem_decisionContext_iff (hroot : scene.root.threadRoot = none) :
    contextMessage scene.root scene.rootEnvelope ∈
      (scene.decisionContext scene.answer).messages ↔ ¬scene.EvictsRoot := by
  have hne : (contextMessage scene.root scene.rootEnvelope).msgId ≠ scene.sent.msgId :=
    scene.sent_ne_root hroot
  rw [decisionContext, observeRow_of_safe _ (scene.answer_envelope hroot) scene.sent_safe,
    ensureDelegationRoot, scene.answer_delegationRoot]
  cases hhas : scene.context.hasMessage scene.root.msgId with
  | true =>
      obtain ⟨message, hmem, hid⟩ := (scene.context.hasMessage_iff _).mp hhas
      rw [scene.eq_root_of_quotes (scene.context_quotes hmem) hid] at hmem
      simp only [hhas, if_true]
      rw [ConversationContext.mem_push_iff_of_mem _ hmem hne]
      rfl
  | false =>
      have hmem : contextMessage scene.root scene.rootEnvelope ∈
          (scene.context.push scene.root scene.rootEnvelope).messages :=
        ConversationContext.mem_push_self hhas
      have hkeep : ¬scene.EvictsRoot := by
        rintro ⟨-, hhead, -⟩
        rw [ConversationContext.hasMessage_of_head hhead] at hhas
        cases hhas
      simp only [hhas, Bool.false_eq_true, if_false]
      rw [observeRow_of_safe _ scene.root_envelope scene.root_safe,
        ConversationContext.mem_push_iff_of_mem _ hmem hne]
      refine iff_of_true ?_ hkeep
      rintro ⟨hlen, hhead, -⟩
      rw [ConversationContext.length_push_of_head hhas hhead] at hlen
      revert hlen
      decide

theorem intentionalAgentDelegation_answer_iff (hroot : scene.root.threadRoot = none) :
    intentionalAgentDelegation scene.receiver scene.sent scene.answer
      (scene.decisionContext scene.answer) = true ↔ ¬scene.EvictsRoot := by
  rw [← scene.root_mem_decisionContext_iff hroot, intentionalAgentDelegation_iff]
  constructor
  · rintro ⟨delegationRoot, delegate, -, hid, -, -, -, message, hmem, hauth⟩
    rw [authorizesDelegation_iff, ← Option.some_inj.mp hid] at hauth
    have hquote : message = contextMessage scene.root scene.rootEnvelope :=
      scene.eq_root_of_quotes (scene.decisionContext_quotes hmem) hauth.1
    rw [← hquote]
    exact hmem
  · intro hmem
    have hthreadRoot := scene.sent_threadRoot.trans scene.request_threadRoot
    have hthreadParent := scene.sent_threadParent.trans scene.request_threadParent
    refine ⟨scene.root.msgId, scene.delegate, rfl, rfl, hthreadRoot, hthreadParent,
      scene.sent_author, _, hmem, ?_⟩
    rw [authorizesDelegation_iff]
    refine ⟨rfl, ?_, scene.root_not_generated, hroot, scene.root_shape.1, ?_⟩
    · simp only [contextMessage, scene.root_author, Option.getD_some]
      rw [scene.same_owner]
      exact scene.owner_eq
    · obtain ⟨mention, hm, heq⟩ := scene.root_mentions
      refine ⟨mention, hm, ?_⟩
      rw [eqIgnoreAsciiCase_iff] at heq ⊢
      rw [heq, scene.sender_lower, scene.delegate_lower]

theorem shouldTrigger_answer_iff :
    shouldTrigger scene.receiver scene.sender.stableGroupId scene.sent scene.answer
        (scene.decisionContext scene.answer) = true ↔
      intentionalAgentDelegation scene.receiver scene.sent scene.answer
        (scene.decisionContext scene.answer) = true := by
  have hother : eqIgnoreAsciiCase scene.delegate scene.receiver.agentId = false := by
    rw [← Bool.not_eq_true, eqIgnoreAsciiCase_iff, scene.delegate_lower,
      scene.receiver.isAgentId_agentId.2]
    exact scene.sender_ne_receiver
  have hgen : scene.answer.agentGenerated = true := rfl
  rw [shouldTrigger_iff]
  constructor
  · rintro ⟨-, -, -, -, -, -, hplain | haccept⟩
    · rw [hgen] at hplain
      cases hplain
    · exact haccept
  · intro haccept
    exact ⟨scene.delegate, scene.sent_author, scene.sent_verified, hother,
      scene.delegate_allowed, scene.request_mentions, Or.inr haccept⟩

theorem delegationMetadata_root :
    delegationMetadata scene.receivedDecode scene.sender scene.request (some scene.root.toolRow) =
      .ok (if scene.root.threadRoot = none then some ⟨1, scene.root.msgId⟩ else none) := by
  simp only [delegationMetadata, scene.request_threadParent]
  exact scene.deriveDelegation_root

/-- The two predicates agree exactly on a root stored without thread fields that
the answer does not push out of a full context. -/
theorem agrees_iff :
    scene.Agrees ↔ scene.root.threadRoot = none ∧ ¬scene.EvictsRoot := by
  rw [Agrees, scene.delegationMetadata_root, scene.shouldTrigger_answer_iff, and_self_iff]
  by_cases hroot : scene.root.threadRoot = none
  · rw [scene.intentionalAgentDelegation_answer_iff hroot]
    simp [hroot]
  · simp [hroot]

end DelegationScene

section OwnerRootScene

/-- The tool server of the sibling `c…c`. -/
def siblingTool : RuntimeConfig where
  agentId := repeatText 'c' 64
  ownerAgentId := repeatText 'b' 64
  groupId := "group"
  stableGroupId := "stable"
  isAgentId_agentId := isAgentId_repeatText 'c' rfl rfl
  isAgentId_ownerAgentId := isAgentId_owner

def rootedRequest : SpaceSend where
  text := "please ship"
  mentions := [repeatText 'a' 64]
  threadRoot := some (repeatText '1' 64)
  threadParent := some (repeatText '1' 64)

def undelegatedRow : HistoryRow :=
  { delegatedRow with
    payload := "eyJ0ZXh0IjoicGxlYXNlIHNoaXAiLCJjcmVhdGVkQXQiOjIsImNsaWVudElkIjoiY2xpZW50LTIiLCJt" ++
      "ZW50aW9ucyI6WyJhYWFhYWFhYWFhYWFhYWFhYWFhYWFhYWFhYWFhYWFhYWFhYWFhYWFhYWFhYWFhYWFhYWFhYWFhY" ++
      "WFhYWFhYWFhIl0sImFnZW50R2VuZXJhdGVkIjp0cnVlfQ==" }

def selfRootedRow : HistoryRow :=
  { ownerRootRow with threadRoot := some (repeatText '1' 64) }

def selfRootedDecoder : EnvelopeDecoder := fun payload =>
  if payload = ownerRootRow.payload then some ownerRootEnvelope
  else if payload = undelegatedRow.payload then some (sendEnvelope rootedRequest none 2 "client-2")
  else none

theorem deriveDelegation_selfRootedRow :
    deriveDelegation (fun payload => (selfRootedDecoder payload).map ChannelEnvelope.received)
      siblingTool rootedRequest selfRootedRow.toolRow = .ok none := by
  have henv : selfRootedRow.toolRow.envelope
      (fun payload => (selfRootedDecoder payload).map ChannelEnvelope.received) =
      some ownerRootEnvelope.received := by
    simp [ToolHistoryRow.envelope, selfRootedDecoder, selfRootedRow, HistoryRow.toolRow]
  have hverified : selfRootedRow.toolRow.isVerifiedInbound siblingTool.stableGroupId = true :=
    (isVerifiedInbound_toolRow _ _).trans isVerifiedInbound_ownerRootRow
  have hself : eqIgnoreAsciiCase (repeatText 'b' 64) siblingTool.agentId = false := by
    simp [eqIgnoreAsciiCase, siblingTool]
  have hmention : ∃ mention ∈ ownerRootEnvelope.received.mentions,
      eqIgnoreAsciiCase mention siblingTool.agentId = true :=
    ⟨_, List.mem_singleton_self _, eqIgnoreAsciiCase_self _⟩
  rw [deriveDelegation_ownerMessage rfl rfl hverified rfl henv (eqIgnoreAsciiCase_self _) hself
    hmention rfl]
  rfl

/-- The owner's root is stored as its own thread root, as the daemon documents. -/
def selfRootedScene : DelegationScene where
  decode := selfRootedDecoder
  receivedDecode := fun payload => (selfRootedDecoder payload).map ChannelEnvelope.received
  sender := siblingTool
  receiver := guideConfig .allowlist
  root := selfRootedRow
  rootEnvelope := ownerRootEnvelope
  owner := repeatText 'b' 64
  request := rootedRequest
  createdAt := 2
  clientId := "client-2"
  sent := undelegatedRow
  delegate := repeatText 'c' 64
  history := [selfRootedRow, undelegatedRow]
  events := [.observe selfRootedRow]
  received_of_decode := by
    intro payload envelope h
    rw [h]
    rfl
  same_owner := rfl
  sender_ne_owner := by simp [siblingTool]
  sender_ne_receiver := by simp [siblingTool, guideConfig]
  root_verified := isVerifiedInbound_ownerRootRow
  root_envelope := by simp [HistoryRow.envelope, selfRootedDecoder, selfRootedRow]
  root_author := rfl
  owner_eq := eqIgnoreAsciiCase_self _
  root_not_generated := rfl
  root_mentions := ⟨_, List.mem_singleton_self _, eqIgnoreAsciiCase_self _⟩
  root_shape := ⟨rfl, Or.inr rfl⟩
  request_threadRoot := rfl
  request_threadParent := rfl
  request_mentions := ⟨_, List.mem_singleton_self _, eqIgnoreAsciiCase_self _⟩
  sent_verified := by decide
  sent_author := rfl
  delegate_eq := eqIgnoreAsciiCase_self _
  sent_threadRoot := rfl
  sent_threadParent := rfl
  sent_envelope := by
    intro delegation h
    rw [deriveDelegation_selfRootedRow, Except.ok.injEq] at h
    subst h
    simp [HistoryRow.envelope, selfRootedDecoder, undelegatedRow, ownerRootRow]
  delegate_allowed := by simp [Config.authorAllowed, guideConfig]
  root_mem := by simp
  sent_mem := by simp
  history_nodup := by simp [selfRootedRow, undelegatedRow, ownerRootRow, delegatedRow]
  events_mem := by simp [ContextEvent.rows]

/-- The sender derives nothing from a root in the canonical self-referential shape. -/
theorem selfRootedScene_not_agrees : ¬selfRootedScene.Agrees := by
  intro h
  have hmeta := h.1
  rw [selfRootedScene.delegationMetadata_root] at hmeta
  cases hmeta

end OwnerRootScene
end Buzz
