import Buzz.SpaceHistory

/-!
# Which history rows wake the agent

`shouldTrigger` decides whether a row starts a directed turn. A row that is not
marked agent-generated passes on its author and its mention alone. An
agent-generated row passes only as an intentional delegation, which needs the
owner's root message in the rolling context.

The context is built by observing history rows and by loading a delegation root
that scrolled out. Whatever the order of these changes, with rows evicted and
duplicates dropped on the way, every message in the context comes from a safe
history row, so an accepted delegation is backed by a row of the owner.
-/

namespace Buzz

def maxAgentWakeGeneration : ℕ := 1

/-- `message` is an owner root that lets `delegate` hand work on. -/
def authorizesDelegation (config : Config) (delegationRoot delegate : String)
    (message : ContextMessage) : Bool :=
  message.msgId == delegationRoot &&
    eqIgnoreAsciiCase message.author config.ownerAgentId &&
    !message.agentGenerated &&
    message.threadRoot.isNone &&
    message.threadParent.isNone &&
    message.mentions.any (fun mention => eqIgnoreAsciiCase mention delegate)

def intentionalAgentDelegation (config : Config) (row : HistoryRow) (envelope : ChannelEnvelope)
    (context : ConversationContext) : Bool :=
  match envelope.agentGeneration, envelope.delegationRoot with
  | some generation, some delegationRoot =>
      if generation == 0 || maxAgentWakeGeneration < generation then false
      else if row.threadRoot != some delegationRoot || row.threadParent != some delegationRoot then
        false
      else
        match row.authorAgent with
        | none => false
        | some delegate =>
            context.messages.any (authorizesDelegation config delegationRoot delegate)
  | _, _ => false

def shouldTrigger (config : Config) (stableGroupId : String) (row : HistoryRow)
    (envelope : ChannelEnvelope) (context : ConversationContext) : Bool :=
  match row.authorAgent with
  | none => false
  | some author =>
      if !(row.isVerifiedInbound stableGroupId &&
          !eqIgnoreAsciiCase author config.agentId &&
          config.authorAllowed author &&
          envelope.mentions.any (fun mention => eqIgnoreAsciiCase mention config.agentId)) then
        false
      else if !envelope.agentGenerated then true
      else intentionalAgentDelegation config row envelope context

theorem authorizesDelegation_iff (config : Config) (delegationRoot delegate : String)
    (message : ContextMessage) :
    authorizesDelegation config delegationRoot delegate message = true ↔
      message.msgId = delegationRoot ∧
      eqIgnoreAsciiCase message.author config.ownerAgentId = true ∧
      message.agentGenerated = false ∧ message.threadRoot = none ∧ message.threadParent = none ∧
      ∃ mention ∈ message.mentions, eqIgnoreAsciiCase mention delegate = true := by
  simp [authorizesDelegation, and_assoc]

theorem intentionalAgentDelegation_iff (config : Config) (row : HistoryRow)
    (envelope : ChannelEnvelope) (context : ConversationContext) :
    intentionalAgentDelegation config row envelope context = true ↔
      ∃ delegationRoot delegate, envelope.agentGeneration = some maxAgentWakeGeneration ∧
        envelope.delegationRoot = some delegationRoot ∧
        row.threadRoot = some delegationRoot ∧ row.threadParent = some delegationRoot ∧
        row.authorAgent = some delegate ∧
        ∃ message ∈ context.messages,
          authorizesDelegation config delegationRoot delegate message = true := by
  unfold intentionalAgentDelegation
  rcases hg : envelope.agentGeneration with _ | generation
  · simp
  rcases hr : envelope.delegationRoot with _ | delegationRoot
  · simp
  have hgen : (generation == 0 || decide (maxAgentWakeGeneration < generation)) = false ↔
      generation = maxAgentWakeGeneration := by
    unfold maxAgentWakeGeneration
    rw [Bool.or_eq_false_iff, beq_eq_false_iff_ne, decide_eq_false_iff_not]
    omega
  rcases ha : row.authorAgent with _ | delegate
  · simp
  · simp only [Option.some.injEq]
    split_ifs with h1 h2
    · have hne : generation ≠ maxAgentWakeGeneration := by
        intro he
        rw [hgen.mpr he] at h1
        cases h1
      simp [hne]
    · have hbad : ¬(row.threadRoot = some delegationRoot ∧
          row.threadParent = some delegationRoot) := by
        simp only [Bool.or_eq_true, bne_iff_ne] at h2
        tauto
      simp only [false_iff]
      rintro ⟨root, d, -, rfl, ht, hp, -, -⟩
      exact hbad ⟨ht, hp⟩
    · rw [Bool.not_eq_true, hgen] at h1
      simp only [Bool.or_eq_true, bne_iff_ne, not_or, not_not] at h2
      rw [List.any_eq_true]
      constructor
      · rintro hm
        exact ⟨delegationRoot, delegate, h1, rfl, h2.1, h2.2, rfl, hm⟩
      · rintro ⟨root, d, -, rfl, -, -, rfl, hm⟩
        exact hm

theorem shouldTrigger_iff (config : Config) (stableGroupId : String) (row : HistoryRow)
    (envelope : ChannelEnvelope) (context : ConversationContext) :
    shouldTrigger config stableGroupId row envelope context = true ↔
      ∃ author, row.authorAgent = some author ∧ row.isVerifiedInbound stableGroupId = true ∧
        eqIgnoreAsciiCase author config.agentId = false ∧ config.authorAllowed author = true ∧
        (∃ mention ∈ envelope.mentions, eqIgnoreAsciiCase mention config.agentId = true) ∧
        (envelope.agentGenerated = false ∨
          intentionalAgentDelegation config row envelope context = true) := by
  unfold shouldTrigger
  rcases row.authorAgent with _ | author
  · simp
  · simp only [Option.some.injEq, exists_eq_left']
    split_ifs with h1 h2
    · simp only [Bool.not_eq_true', Bool.and_eq_false_iff, Bool.not_eq_false',
        List.any_eq_false] at h1
      simp only [false_iff]
      rintro ⟨hv, hself, hallowed, ⟨mention, hm, hm'⟩, -⟩
      rcases h1 with ((h | h) | h) | h
      · simp [hv] at h
      · simp [hself] at h
      · simp [hallowed] at h
      · exact h mention hm hm'
    · simp only [Bool.not_eq_true', Bool.not_eq_false, Bool.and_eq_true, List.any_eq_true] at h1 h2
      simp only [true_iff]
      exact ⟨h1.1.1.1, by simpa using h1.1.1.2, h1.1.2, h1.2, Or.inl h2⟩
    · simp only [Bool.not_eq_true', Bool.not_eq_false, Bool.and_eq_true, List.any_eq_true] at h1 h2
      rw [h2]
      constructor
      · intro h
        exact ⟨h1.1.1.1, by simpa using h1.1.1.2, h1.1.2, h1.2, Or.inr h⟩
      · rintro ⟨-, -, -, -, h | h⟩
        · cases h
        · exact h

section Context

variable (decode : EnvelopeDecoder) (stableGroupId localAgentId : String)

/-- A row enters the context when it decodes and is safe to quote. -/
def observeRow (row : HistoryRow) (context : ConversationContext) : ConversationContext :=
  match (row.envelope decode).filter (fun _ => row.isSafeContext stableGroupId localAgentId) with
  | some envelope => context.push row envelope
  | none => context

/-- `ensure_delegation_root_in_context` with the answer `found` of the history
lookup, which is consulted only for a root that is not in the context. -/
def ensureDelegationRoot (envelope : ChannelEnvelope) (found : Option HistoryRow)
    (context : ConversationContext) : ConversationContext :=
  match envelope.delegationRoot with
  | none => context
  | some rootId =>
      if context.hasMessage rootId then context
      else
        match found with
        | some root => observeRow decode stableGroupId localAgentId root context
        | none => context

inductive ContextEvent where
  | observe (row : HistoryRow)
  | ensureRoot (envelope : ChannelEnvelope) (found : Option HistoryRow)

def ContextEvent.rows : ContextEvent → List HistoryRow
  | .observe row => [row]
  | .ensureRoot _ found => found.toList

def ContextEvent.apply (context : ConversationContext) : ContextEvent → ConversationContext
  | .observe row => observeRow decode stableGroupId localAgentId row context
  | .ensureRoot envelope found =>
      ensureDelegationRoot decode stableGroupId localAgentId envelope found context

def buildContext (events : List ContextEvent) : ConversationContext :=
  events.foldl (ContextEvent.apply decode stableGroupId localAgentId) ConversationContext.empty

variable {decode stableGroupId localAgentId}

/-- `message` quotes a safe row of `history`. -/
def QuotesRow (decode : EnvelopeDecoder) (stableGroupId localAgentId : String)
    (history : List HistoryRow) (message : ContextMessage) : Prop :=
  ∃ row ∈ history, ∃ envelope, row.envelope decode = some envelope ∧
    row.isSafeContext stableGroupId localAgentId = true ∧ message = contextMessage row envelope

theorem observeRow_of_safe {row : HistoryRow} {envelope : ChannelEnvelope}
    (context : ConversationContext) (henv : row.envelope decode = some envelope)
    (hsafe : row.isSafeContext stableGroupId localAgentId = true) :
    observeRow decode stableGroupId localAgentId row context = context.push row envelope := by
  simp [observeRow, henv, hsafe, Option.filter]

theorem mem_observeRow (history : List HistoryRow) {row : HistoryRow}
    {context : ConversationContext} {message : ContextMessage} (hrow : row ∈ history)
    (h : message ∈ (observeRow decode stableGroupId localAgentId row context).messages) :
    message ∈ context.messages ∨ QuotesRow decode stableGroupId localAgentId history message := by
  unfold observeRow at h
  split at h
  · rename_i envelope hf
    rw [Option.filter_eq_some_iff] at hf
    rcases ConversationContext.mem_push h with hold | hnew
    · exact Or.inl hold
    · exact Or.inr ⟨row, hrow, envelope, hf.1, hf.2, hnew⟩
  · exact Or.inl h

theorem mem_apply (history : List HistoryRow) {event : ContextEvent}
    {context : ConversationContext} {message : ContextMessage}
    (hrows : ∀ row ∈ event.rows, row ∈ history)
    (h : message ∈ (event.apply decode stableGroupId localAgentId context).messages) :
    message ∈ context.messages ∨ QuotesRow decode stableGroupId localAgentId history message := by
  cases event with
  | observe row =>
      exact mem_observeRow history (hrows row (by simp [ContextEvent.rows])) h
  | ensureRoot envelope found =>
      simp only [ContextEvent.apply, ensureDelegationRoot] at h
      split at h
      · exact Or.inl h
      · split_ifs at h
        · exact Or.inl h
        · split at h
          · rename_i root
            exact mem_observeRow history (hrows root (by simp [ContextEvent.rows])) h
          · exact Or.inl h

variable (decode stableGroupId localAgentId)

theorem messages_buildContext_observe {row : HistoryRow} {envelope : ChannelEnvelope}
    (henv : row.envelope decode = some envelope)
    (hsafe : row.isSafeContext stableGroupId localAgentId = true) :
    (buildContext decode stableGroupId localAgentId [.observe row]).messages =
      [contextMessage row envelope] := by
  have hnew : ConversationContext.empty.hasMessage row.msgId = false := by
    simp [ConversationContext.hasMessage, ConversationContext.empty]
  simp only [buildContext, List.foldl_cons, List.foldl_nil, ContextEvent.apply]
  rw [observeRow_of_safe _ henv hsafe, ConversationContext.messages_push_of_new _ hnew]
  simp [ConversationContext.pushMessages, ConversationContext.empty, maxContextMessages]

/-- No eviction and no dropped duplicate can leave a message in the context
that does not quote a safe history row. -/
theorem buildContext_quotes (history : List HistoryRow) (events : List ContextEvent)
    (hrows : ∀ event ∈ events, ∀ row ∈ event.rows, row ∈ history) :
    ∀ message ∈ (buildContext decode stableGroupId localAgentId events).messages,
      QuotesRow decode stableGroupId localAgentId history message := by
  induction events using List.reverseRecOn with
  | nil => simp [buildContext, ConversationContext.empty]
  | append_singleton events event ih =>
      intro message hm
      unfold buildContext at hm
      rw [List.foldl_append] at hm
      rcases mem_apply history (hrows event (by simp)) hm with hold | hnew
      · exact ih (fun e he => hrows e (by simp [he])) message hold
      · exact hnew

end Context

/-- A verified row of the owner in this group that hands the claimed root to
the author of `row`: not agent-generated, outside any thread and mentioning the
delegate. An own row counts as verified when the agent is itself the owner. -/
def OwnerBacked (decode : EnvelopeDecoder) (config : Config) (stableGroupId : String)
    (history : List HistoryRow) (row : HistoryRow) (envelope : ChannelEnvelope) : Prop :=
  ∃ root ∈ history, ∃ rootEnvelope owner delegate,
    root.envelope decode = some rootEnvelope ∧
    root.isSafeContext stableGroupId config.agentId = true ∧
    (owner ≠ config.agentId → root.isVerifiedInbound stableGroupId = true) ∧
    root.authorAgent = some owner ∧ eqIgnoreAsciiCase owner config.ownerAgentId = true ∧
    rootEnvelope.agentGenerated = false ∧ root.threadRoot = none ∧ root.threadParent = none ∧
    row.authorAgent = some delegate ∧
    (∃ mention ∈ rootEnvelope.mentions, eqIgnoreAsciiCase mention delegate = true) ∧
    envelope.delegationRoot = some root.msgId

theorem eqIgnoreAsciiCase_unknown (config : Config) :
    eqIgnoreAsciiCase "unknown" config.ownerAgentId = false := by
  rw [← Bool.not_eq_true, eqIgnoreAsciiCase_iff]
  intro h
  have hlen := congrArg (fun s => s.toList.length) h
  have hhex := config.isAgentId_ownerAgentId.1
  simp only [isHexText, Bool.and_eq_true, beq_iff_eq] at hhex
  simp only [toList_toAsciiLowercase, List.length_map, hhex.1] at hlen
  revert hlen
  decide

theorem ownerBacked_of_intentional {decode : EnvelopeDecoder} {config : Config}
    {stableGroupId : String} {history : List HistoryRow} {row : HistoryRow}
    {envelope : ChannelEnvelope} {context : ConversationContext}
    (hquotes : ∀ message ∈ context.messages,
      QuotesRow decode stableGroupId config.agentId history message)
    (h : intentionalAgentDelegation config row envelope context = true) :
    OwnerBacked decode config stableGroupId history row envelope := by
  rw [intentionalAgentDelegation_iff] at h
  obtain ⟨delegationRoot, delegate, -, hroot, -, -, hdelegate, message, hm, hauth⟩ := h
  rw [authorizesDelegation_iff] at hauth
  obtain ⟨hid, howner, hgen, htr, htp, hmention⟩ := hauth
  obtain ⟨root, hmem, rootEnvelope, henv, hsafe, rfl⟩ := hquotes message hm
  simp only [contextMessage] at hid howner hgen htr htp hmention
  rcases hauthor : root.authorAgent with _ | owner
  · rw [hauthor, Option.getD_none, eqIgnoreAsciiCase_unknown] at howner
    cases howner
  · rw [hauthor, Option.getD_some] at howner
    exact ⟨root, hmem, rootEnvelope, owner, delegate, henv, hsafe,
      HistoryRow.isVerifiedInbound_of_isSafeContext hsafe hauthor, hauthor, howner, hgen, htr, htp,
      hdelegate, hmention, by rw [hroot, hid]⟩

theorem not_authorAllowed_ownerOnly {config : Config} {author : String}
    (hpolicy : config.respondTo = .ownerOnly)
    (hother : eqIgnoreAsciiCase author config.ownerAgentId = false) :
    config.authorAllowed author = false := by
  rw [← Bool.not_eq_true, eqIgnoreAsciiCase_iff, config.isAgentId_ownerAgentId.2] at hother
  simp [Config.authorAllowed, hpolicy, hother]

/-- Whatever rows the context was built from, an accepted agent-generated row is
backed by a row of the owner. A sender other than the owner is heard only if
the response policy admits it, and then only with a row that is not marked
agent-generated or that is owner-backed. -/
theorem shouldTrigger_ownerBacked (decode : EnvelopeDecoder) (config : Config)
    (stableGroupId : String) (history : List HistoryRow) (events : List ContextEvent)
    (hrows : ∀ event ∈ events, ∀ row ∈ event.rows, row ∈ history)
    (row : HistoryRow) (envelope : ChannelEnvelope)
    (h : shouldTrigger config stableGroupId row envelope
      (buildContext decode stableGroupId config.agentId events) = true) :
    (envelope.agentGenerated = true →
      OwnerBacked decode config stableGroupId history row envelope) ∧
    ∀ author, row.authorAgent = some author →
      eqIgnoreAsciiCase author config.ownerAgentId = false →
      config.authorAllowed author = true ∧ config.respondTo ≠ .ownerOnly ∧
        (envelope.agentGenerated = false ∨
          OwnerBacked decode config stableGroupId history row envelope) := by
  rw [shouldTrigger_iff] at h
  obtain ⟨author, hauthor, -, -, hallowed, -, hgate⟩ := h
  have hquotes := buildContext_quotes decode stableGroupId config.agentId history events hrows
  have hbacked : envelope.agentGenerated = false ∨
      OwnerBacked decode config stableGroupId history row envelope :=
    hgate.imp_right (ownerBacked_of_intentional hquotes)
  refine ⟨fun hgen => ?_, fun other hother hne => ?_⟩
  · rcases hbacked with hplain | hback
    · rw [hgen] at hplain
      cases hplain
    · exact hback
  · rw [hauthor, Option.some.injEq] at hother
    subst other
    refine ⟨hallowed, fun hpolicy => ?_, hbacked⟩
    rw [not_authorAllowed_ownerOnly hpolicy hne] at hallowed
    cases hallowed

section Delegated

/-- The agent `a…a` of owner `b…b`, which also answers its sibling `c…c`. -/
def guideConfig (respondTo : RespondTo) : Config where
  agentId := repeatText 'a' 64
  ownerAgentId := repeatText 'b' 64
  groupId := "group"
  respondTo := respondTo
  respondToAllowlist := [repeatText 'c' 64]
  isAgentId_agentId := isAgentId_repeatText 'a' rfl rfl
  isAgentId_ownerAgentId := isAgentId_repeatText 'b' rfl rfl

theorem isAgentId_owner : IsAgentId (repeatText 'b' 64) := isAgentId_repeatText 'b' rfl rfl

def ownerRootEnvelope : ChannelEnvelope where
  text := "ship it"
  createdAt := 1
  clientId := "client-1"
  mentions := [repeatText 'c' 64]
  agentGenerated := false
  agentGeneration := none
  delegationRoot := none

def ownerRootRow : HistoryRow where
  id := 1
  msgId := repeatText '1' 64
  scope := "group:stable"
  authorAgent := some (repeatText 'b' 64)
  direction := "Inbound"
  payload := "eyJ0ZXh0Ijoic2hpcCBpdCIsImNyZWF0ZWRBdCI6MSwiY2xpZW50SWQiOiJjbGllbnQtMSIsIm1lbnRpb2" ++
    "5zIjpbImNjY2NjY2NjY2NjY2NjY2NjY2NjY2NjY2NjY2NjY2NjY2NjY2NjY2NjY2NjY2NjY2NjY2NjY2NjY2NjY2NjY" ++
    "2MiXX0="
  provenance := "VerifiedEnvelope"
  signed := true
  threadRoot := none
  threadParent := none

def delegatedEnvelope : ChannelEnvelope where
  text := "please ship"
  createdAt := 2
  clientId := "client-2"
  mentions := [repeatText 'a' 64]
  agentGenerated := true
  agentGeneration := some 1
  delegationRoot := some (repeatText '1' 64)

def delegatedRow : HistoryRow where
  id := 2
  msgId := repeatText '2' 64
  scope := "group:stable"
  authorAgent := some (repeatText 'c' 64)
  direction := "Inbound"
  payload := "eyJ0ZXh0IjoicGxlYXNlIHNoaXAiLCJjcmVhdGVkQXQiOjIsImNsaWVudElkIjoiY2xpZW50LTIiLCJtZW" ++
    "50aW9ucyI6WyJhYWFhYWFhYWFhYWFhYWFhYWFhYWFhYWFhYWFhYWFhYWFhYWFhYWFhYWFhYWFhYWFhYWFhYWFhYWFhY" ++
    "WFhYWFhIl0sImFnZW50R2VuZXJhdGVkIjp0cnVlLCJhZ2VudEdlbmVyYXRpb24iOjEsImRlbGVnYXRpb25Sb290Ijoi" ++
    "MTExMTExMTExMTExMTExMTExMTExMTExMTExMTExMTExMTExMTExMTExMTExMTExMTExMTExMTExMTExMTExMSJ9"
  provenance := "VerifiedEnvelope"
  signed := true
  threadRoot := some (repeatText '1' 64)
  threadParent := some (repeatText '1' 64)

def delegationDecoder : EnvelopeDecoder := fun payload =>
  if payload = ownerRootRow.payload then some ownerRootEnvelope
  else if payload = delegatedRow.payload then some delegatedEnvelope
  else none

theorem isVerifiedInbound_ownerRootRow : ownerRootRow.isVerifiedInbound "stable" = true := by
  decide

theorem isVerifiedInbound_delegatedRow : delegatedRow.isVerifiedInbound "stable" = true := by
  decide

theorem buildContext_ownerRoot :
    (buildContext delegationDecoder "stable" (repeatText 'a' 64)
      [.observe ownerRootRow]).messages = [contextMessage ownerRootRow ownerRootEnvelope] := by
  apply messages_buildContext_observe
  · simp [HistoryRow.envelope, delegationDecoder]
  · simp [HistoryRow.isSafeContext, isVerifiedInbound_ownerRootRow]

theorem intentionalAgentDelegation_delegated :
    intentionalAgentDelegation (guideConfig .allowlist) delegatedRow delegatedEnvelope
      (buildContext delegationDecoder "stable" (repeatText 'a' 64) [.observe ownerRootRow]) =
      true := by
  rw [intentionalAgentDelegation_iff]
  refine ⟨repeatText '1' 64, repeatText 'c' 64, rfl, rfl, rfl, rfl, rfl,
    contextMessage ownerRootRow ownerRootEnvelope, ?_, ?_⟩
  · rw [buildContext_ownerRoot]
    exact List.mem_singleton_self _
  · simp [authorizesDelegation_iff, eqIgnoreAsciiCase, guideConfig, contextMessage, ownerRootRow,
      ownerRootEnvelope]

theorem shouldTrigger_ownerBacked_delegated :
    OwnerBacked delegationDecoder (guideConfig .allowlist) "stable" [ownerRootRow, delegatedRow]
      delegatedRow delegatedEnvelope :=
  (shouldTrigger_ownerBacked delegationDecoder (guideConfig .allowlist) "stable"
    [ownerRootRow, delegatedRow] [.observe ownerRootRow] (by simp [ContextEvent.rows])
    delegatedRow delegatedEnvelope (by
      rw [shouldTrigger_iff]
      refine ⟨repeatText 'c' 64, rfl, isVerifiedInbound_delegatedRow, ?_, ?_, ?_,
        Or.inr intentionalAgentDelegation_delegated⟩ <;>
      simp [eqIgnoreAsciiCase, Config.authorAllowed, guideConfig, delegatedEnvelope])).1 rfl

def siblingEnvelope : ChannelEnvelope where
  text := "hello"
  createdAt := 3
  clientId := "client-3"
  mentions := [repeatText 'a' 64]
  agentGenerated := false
  agentGeneration := none
  delegationRoot := none

def siblingRow : HistoryRow where
  id := 3
  msgId := repeatText '3' 64
  scope := "group:stable"
  authorAgent := some (repeatText 'c' 64)
  direction := "Inbound"
  payload := "eyJ0ZXh0IjoiaGVsbG8iLCJjcmVhdGVkQXQiOjMsImNsaWVudElkIjoiY2xpZW50LTMiLCJtZW50aW9ucy" ++
    "I6WyJhYWFhYWFhYWFhYWFhYWFhYWFhYWFhYWFhYWFhYWFhYWFhYWFhYWFhYWFhYWFhYWFhYWFhYWFhYWFhYWFhYWFhIl19"
  provenance := "VerifiedEnvelope"
  signed := true
  threadRoot := none
  threadParent := none

/-- Under the `anyone` policy a plain mention by a sibling wakes the agent with
nothing of the owner in its history. -/
theorem shouldTrigger_sibling_mention :
    siblingRow.authorAgent = some (repeatText 'c' 64) ∧
      eqIgnoreAsciiCase (repeatText 'c' 64) (guideConfig .anyone).ownerAgentId = false ∧
      shouldTrigger (guideConfig .anyone) "stable" siblingRow siblingEnvelope
        ConversationContext.empty = true := by
  refine ⟨rfl, ?_, ?_⟩
  · simp [eqIgnoreAsciiCase, guideConfig]
  · rw [shouldTrigger_iff]
    refine ⟨repeatText 'c' 64, rfl, by decide, ?_⟩
    simp [eqIgnoreAsciiCase, Config.authorAllowed, guideConfig, siblingEnvelope]

end Delegated
end Buzz
