import Buzz.DelegationTool

/-!
# Agents waking agents

The managed agents of one owner in one group, each a harness and a tool server.
A message wakes an agent through `shouldTrigger`; the turn it starts posts
messages through `space_send` and as the harness reply. The contexts, the
delivered copies and the tool arguments are arbitrary.

The hop number that a message carries is derived from the thread reference the
sender chose. A turn that another agent started may name the owner's root again
and is then counted as a first hop once more. Without such sends no turn is more
than one hop away from a message of a person.
-/

namespace Buzz

/-- A managed agent: its harness and its tool server share one identity. -/
structure ManagedAgent where
  harness : Config
  tool : RuntimeConfig
  same_agent : tool.agentId = harness.agentId
  same_owner : tool.ownerAgentId = harness.ownerAgentId

/-- The agents of one owner in one group and the codecs their programs use. -/
structure Team (ι : Type) where
  agent : ι → ManagedAgent
  owner : String
  stableGroupId : String
  decode : EnvelopeDecoder
  receivedDecode : ReceivedDecoder
  owner_eq : ∀ i, (agent i).tool.ownerAgentId = owner
  group_eq : ∀ i, (agent i).tool.stableGroupId = stableGroupId
  received_of_decode : ∀ payload envelope, decode payload = some envelope →
    receivedDecode payload = some envelope.received

/-- `sender` is the turn that posted the message, absent for a person's message. -/
structure PostedMessage where
  msgId : String
  author : String
  envelope : ChannelEnvelope
  threadRoot : Option String
  threadParent : Option String
  sender : Option ℕ
  deriving DecidableEq, Repr

/-- `row` is a copy of the message in some member's history. -/
def PostedMessage.Delivered (decode : EnvelopeDecoder) (message : PostedMessage)
    (row : HistoryRow) : Prop :=
  row.msgId = message.msgId ∧ row.authorAgent = some message.author ∧
    row.threadRoot = message.threadRoot ∧ row.threadParent = message.threadParent ∧
    row.envelope decode = some message.envelope

structure Turn (ι : Type) where
  agent : ι
  trigger : PostedMessage

structure SpaceState (ι : Type) where
  messages : List PostedMessage
  turns : List (Turn ι)

namespace SpaceState

variable {ι : Type}

def empty : SpaceState ι where
  messages := []
  turns := []

def post (state : SpaceState ι) (message : PostedMessage) : SpaceState ι :=
  { state with messages := state.messages ++ [message] }

def start (state : SpaceState ι) (turn : Turn ι) : SpaceState ι :=
  { state with turns := state.turns ++ [turn] }

def Fresh (state : SpaceState ι) (msgId : String) : Prop :=
  ∀ message ∈ state.messages, message.msgId ≠ msgId

end SpaceState

/-- The response of `handle_directed_message` to the row that started the turn. -/
def replyEnvelope (reply author : String) (createdAt : ℕ) (clientId : String) :
    ChannelEnvelope where
  text := reply
  createdAt := createdAt
  clientId := clientId
  mentions := [author]
  agentGenerated := true
  agentGeneration := none
  delegationRoot := none

def spaceSendMessage (agent : ManagedAgent) (turn : ℕ) (request : SpaceSend)
    (delegation : Option AgentDelegation) (createdAt : ℕ) (clientId msgId : String) :
    PostedMessage where
  msgId := msgId
  author := agent.tool.agentId
  envelope := sendEnvelope request delegation createdAt clientId
  threadRoot := request.threadRoot
  threadParent := request.threadParent
  sender := some turn

def replyMessage (agent : ManagedAgent) (turn : ℕ) (trigger : PostedMessage) (reply : String)
    (createdAt : ℕ) (clientId msgId : String) : PostedMessage where
  msgId := msgId
  author := agent.harness.agentId
  envelope := replyEnvelope reply trigger.author createdAt clientId
  threadRoot := some (trigger.threadRoot.getD trigger.msgId)
  threadParent := some trigger.msgId
  sender := some turn

inductive SpaceAction (ι : Type) where
  | post (message : PostedMessage)
  | wake (agent : ι) (trigger : PostedMessage)
  | spaceSend (turn : ℕ) (request : SpaceSend)
  | reply (turn : ℕ)

section Steps

variable {ι : Type} (team : Team ι)

inductive SpaceStep : SpaceState ι → SpaceAction ι → SpaceState ι → Prop where
  | post {state : SpaceState ι} {message : PostedMessage} :
      message.sender = none → message.envelope.agentGenerated = false →
      state.Fresh message.msgId →
      SpaceStep state (.post message) (state.post message)
  | wake {state : SpaceState ι} {i : ι} {trigger : PostedMessage} {row : HistoryRow}
      {history : List HistoryRow} {events : List ContextEvent} :
      trigger ∈ state.messages → trigger.Delivered team.decode row →
      (∀ quoted ∈ history, ∃ message ∈ state.messages, message.Delivered team.decode quoted) →
      (∀ event ∈ events, ∀ quoted ∈ event.rows, quoted ∈ history) →
      shouldTrigger (team.agent i).harness team.stableGroupId row trigger.envelope
        (buildContext team.decode team.stableGroupId (team.agent i).harness.agentId events) =
          true →
      SpaceStep state (.wake i trigger) (state.start ⟨i, trigger⟩)
  | spaceSend {state : SpaceState ι} {t : ℕ} {turn : Turn ι} {request : SpaceSend}
      {found : Option HistoryRow} {delegation : Option AgentDelegation} {createdAt : ℕ}
      {clientId msgId : String} :
      state.turns[t]? = some turn → parseSendArguments request = .ok request →
      (∀ row ∈ found, ∃ message ∈ state.messages, message.Delivered team.decode row) →
      delegationMetadata team.receivedDecode (team.agent turn.agent).tool request
        (found.map HistoryRow.toolRow) = .ok delegation →
      state.Fresh msgId →
      SpaceStep state (.spaceSend t request)
        (state.post (spaceSendMessage (team.agent turn.agent) t request delegation createdAt
          clientId msgId))
  | reply {state : SpaceState ι} {t : ℕ} {turn : Turn ι} {reply : String} {createdAt : ℕ}
      {clientId msgId : String} :
      state.turns[t]? = some turn → state.Fresh msgId →
      SpaceStep state (.reply t)
        (state.post (replyMessage (team.agent turn.agent) t turn.trigger reply createdAt clientId
          msgId))

/-- A message under which the sender's tool derives a first hop: the owner's, not
agent-generated, outside any thread and mentioning the sender. -/
def OwnerRoot (i : ι) (message : PostedMessage) : Prop :=
  eqIgnoreAsciiCase message.author team.owner = true ∧
    message.envelope.agentGenerated = false ∧
    message.threadRoot = none ∧ message.threadParent = none ∧
    ∃ mention ∈ message.envelope.mentions,
      eqIgnoreAsciiCase mention (team.agent i).tool.agentId = true

/-- A `space_send` inside a turn that an agent-generated message started names an
owner root both as its thread root and as its parent. -/
def ReusesOwnerRoot (state : SpaceState ι) : SpaceAction ι → Prop
  | .spaceSend t request => ∃ turn, state.turns[t]? = some turn ∧
      turn.trigger.envelope.agentGenerated = true ∧
      ∃ root ∈ state.messages, OwnerRoot team turn.agent root ∧
        request.threadRoot = some root.msgId ∧ request.threadParent = some root.msgId
  | _ => False

/-- States reached from the empty space by admitted steps. -/
inductive SpaceReach (admits : SpaceState ι → SpaceAction ι → Prop) : SpaceState ι → Prop where
  | empty : SpaceReach admits SpaceState.empty
  | step {state next : SpaceState ι} {action : SpaceAction ι} : SpaceReach admits state →
      SpaceStep team state action next → admits state action → SpaceReach admits next

end Steps

/-- Turn `t` stands `hops` agent messages away from the message of a person. -/
inductive WakeDepth {ι : Type} (state : SpaceState ι) : ℕ → ℕ → Prop where
  | person {t : ℕ} {turn : Turn ι} : state.turns[t]? = some turn →
      turn.trigger.sender = none → WakeDepth state t 0
  | agent {t sender hops : ℕ} {turn : Turn ι} : state.turns[t]? = some turn →
      turn.trigger.sender = some sender → WakeDepth state sender hops →
      WakeDepth state t (hops + 1)

/-- No chain of wakes is longer than the wake generation allows, and nothing sent
by a turn that an agent-generated message started has started another turn. -/
def BoundedWakes {ι : Type} (state : SpaceState ι) : Prop :=
  (∀ t hops, WakeDepth state t hops → hops ≤ maxAgentWakeGeneration) ∧
    ∀ (t sender : ℕ) (turn origin : Turn ι), state.turns[t]? = some turn →
      turn.trigger.sender = some sender → state.turns[sender]? = some origin →
      origin.trigger.envelope.agentGenerated = false

section Invariant

variable {ι : Type} {team : Team ι} {state : SpaceState ι}

/-- What a space keeps as long as no owner root is reused: a message of a turn
that an agent started carries no first hop. -/
structure WakeInvariant (state : SpaceState ι) : Prop where
  generated : ∀ message ∈ state.messages, ∀ t, message.sender = some t →
    message.envelope.agentGenerated = true
  sender_lt : ∀ message ∈ state.messages, ∀ t, message.sender = some t → t < state.turns.length
  trigger_mem : ∀ turn ∈ state.turns, turn.trigger ∈ state.messages
  spent : ∀ message ∈ state.messages, ∀ t origin, message.sender = some t →
    state.turns[t]? = some origin → origin.trigger.envelope.agentGenerated = true →
    message.envelope.agentGeneration ≠ some maxAgentWakeGeneration
  woken : ∀ turn ∈ state.turns, ∀ t origin, turn.trigger.sender = some t →
    state.turns[t]? = some origin → origin.trigger.envelope.agentGenerated = false

theorem wakeInvariant_empty : WakeInvariant (SpaceState.empty : SpaceState ι) where
  generated := by simp [SpaceState.empty]
  sender_lt := by simp [SpaceState.empty]
  trigger_mem := by simp [SpaceState.empty]
  spent := by simp [SpaceState.empty]
  woken := by simp [SpaceState.empty]

/-- Posting keeps the invariant when the new message meets its clauses. -/
theorem WakeInvariant.post {message : PostedMessage} (h : WakeInvariant state)
    (hgenerated : ∀ t, message.sender = some t → message.envelope.agentGenerated = true)
    (hlt : ∀ t, message.sender = some t → t < state.turns.length)
    (hspent : ∀ t origin, message.sender = some t → state.turns[t]? = some origin →
      origin.trigger.envelope.agentGenerated = true →
      message.envelope.agentGeneration ≠ some maxAgentWakeGeneration) :
    WakeInvariant (state.post message) where
  generated := by
    intro other hmem
    rcases List.mem_append.mp hmem with hold | hnew
    · exact h.generated other hold
    · rw [List.mem_singleton.mp hnew]
      exact hgenerated
  sender_lt := by
    intro other hmem
    rcases List.mem_append.mp hmem with hold | hnew
    · exact h.sender_lt other hold
    · rw [List.mem_singleton.mp hnew]
      exact hlt
  trigger_mem := fun turn hturn => List.mem_append_left _ (h.trigger_mem turn hturn)
  spent := by
    intro other hmem
    rcases List.mem_append.mp hmem with hold | hnew
    · exact h.spent other hold
    · rw [List.mem_singleton.mp hnew]
      exact hspent
  woken := h.woken

/-- A turn that exists does not change when another one starts. -/
theorem getElem?_start_of_lt {turn origin : Turn ι} {t : ℕ} (hlt : t < state.turns.length)
    (h : (state.start turn).turns[t]? = some origin) : state.turns[t]? = some origin := by
  simp only [SpaceState.start] at h
  rw [List.getElem?_append_left hlt] at h
  exact h

theorem WakeInvariant.start {turn : Turn ι} (h : WakeInvariant state)
    (hmem : turn.trigger ∈ state.messages)
    (hwoken : ∀ t origin, turn.trigger.sender = some t → state.turns[t]? = some origin →
      origin.trigger.envelope.agentGenerated = false) : WakeInvariant (state.start turn) where
  generated := h.generated
  sender_lt := by
    intro message hm t ht
    simp only [SpaceState.start, List.length_append, List.length_singleton]
    exact (h.sender_lt message hm t ht).trans (Nat.lt_succ_self _)
  trigger_mem := by
    intro other hother
    rcases List.mem_append.mp hother with hold | hnew
    · exact h.trigger_mem other hold
    · rw [List.mem_singleton.mp hnew]
      exact hmem
  spent := by
    intro message hm t origin ht horigin
    exact h.spent message hm t origin ht
      (getElem?_start_of_lt (h.sender_lt message hm t ht) horigin)
  woken := by
    intro other hother t origin ht horigin
    rcases List.mem_append.mp hother with hold | hnew
    · have hlt := h.sender_lt _ (h.trigger_mem other hold) t ht
      exact h.woken other hold t origin ht (getElem?_start_of_lt hlt horigin)
    · rw [List.mem_singleton.mp hnew] at ht
      exact hwoken t origin ht (getElem?_start_of_lt (h.sender_lt _ hmem t ht) horigin)

/-- An agent-generated row that wakes an agent carries the first hop. -/
theorem agentGeneration_of_shouldTrigger {config : Config} {stableGroupId : String}
    {row : HistoryRow} {envelope : ChannelEnvelope} {context : ConversationContext}
    (h : shouldTrigger config stableGroupId row envelope context = true)
    (hgen : envelope.agentGenerated = true) :
    envelope.agentGeneration = some maxAgentWakeGeneration := by
  rw [shouldTrigger_iff] at h
  obtain ⟨-, -, -, -, -, -, hplain | haccept⟩ := h
  · rw [hgen] at hplain
    cases hplain
  · rw [intentionalAgentDelegation_iff] at haccept
    obtain ⟨-, -, hgeneration, -⟩ := haccept
    exact hgeneration

/-- A first hop is derived only under an owner root that the request names twice. -/
theorem ownerRoot_of_first_hop {i : ι} {request : SpaceSend} {found : Option HistoryRow}
    {delegation : AgentDelegation}
    (hfound : ∀ row ∈ found, ∃ message ∈ state.messages, message.Delivered team.decode row)
    (h : delegationMetadata team.receivedDecode (team.agent i).tool request
      (found.map HistoryRow.toolRow) = .ok (some delegation))
    (hfirst : delegation.generation = maxAgentWakeGeneration) :
    ∃ root ∈ state.messages, OwnerRoot team i root ∧
      request.threadRoot = some root.msgId ∧ request.threadParent = some root.msgId := by
  rcases hparent : request.threadParent with _ | parent
  · simp only [delegationMetadata, hparent] at h
    cases h
  rcases found with _ | row
  · simp only [delegationMetadata, hparent, Option.map_none] at h
    cases h
  simp only [delegationMetadata, hparent, Option.map_some] at h
  obtain ⟨message, hmem, hid, hauthor, htr, htp, henv⟩ := hfound row rfl
  obtain ⟨author, envelope, hroot, hnamed, -, hauthor', henv', -, hmention, hhop⟩ :=
    deriveDelegation_eq_some h
  have hreceived : envelope = message.envelope.received := by
    have hdecoded := team.received_of_decode _ _ henv
    exact Option.some_inj.mp (henv'.symm.trans hdecoded)
  have hsame : author = message.author := Option.some_inj.mp (hauthor'.symm.trans hauthor)
  subst hreceived hsame
  rcases hhop with ⟨rfl, hplain, howner, hnoRoot, hnoParent⟩ | ⟨htwo, -⟩
  · rw [team.owner_eq] at howner
    have hmsg : row.toolRow.msgId = message.msgId := hid
    refine ⟨message, hmem, ⟨howner, hplain, htr.symm.trans hnoRoot, htp.symm.trans hnoParent,
      hmention⟩, ?_, ?_⟩
    · rw [hroot, hmsg]
    · rw [← hmsg, ← hnamed, hparent]
  · rw [hfirst] at htwo
    cases htwo

theorem WakeInvariant.step {next : SpaceState ι} {action : SpaceAction ι}
    (h : WakeInvariant state) (hallowed : ¬ReusesOwnerRoot team state action)
    (hstep : SpaceStep team state action next) : WakeInvariant next := by
  cases hstep with
  | post hperson hplain hfresh =>
      apply h.post <;> simp [hperson]
  | wake hmem hdelivered hhistory hevents htrigger =>
      refine h.start hmem fun t origin hsender horigin => ?_
      rw [← Bool.not_eq_true]
      intro hagent
      exact h.spent _ hmem t origin hsender horigin hagent
        (agentGeneration_of_shouldTrigger htrigger (h.generated _ hmem t hsender))
  | @spaceSend t turn request found delegation createdAt clientId msgId hturn hparse hfound
      hmeta hfresh =>
      refine h.post (fun _ _ => rfl) ?_ ?_
      · intro u hu
        obtain rfl : t = u := Option.some_inj.mp hu
        exact (List.getElem?_eq_some_iff.mp hturn).1
      · intro u origin hu horigin hagent hfirst
        obtain rfl : t = u := Option.some_inj.mp hu
        rw [hturn, Option.some.injEq] at horigin
        subst horigin
        rcases delegation with _ | hop
        · cases hfirst
        · exact hallowed ⟨turn, hturn, hagent,
            ownerRoot_of_first_hop hfound hmeta (Option.some_inj.mp hfirst)⟩
  | @reply t turn reply createdAt clientId msgId hturn hfresh =>
      refine h.post (fun _ _ => rfl) ?_ ?_
      · intro u hu
        obtain rfl : t = u := Option.some_inj.mp hu
        exact (List.getElem?_eq_some_iff.mp hturn).1
      · intro u origin hu horigin hagent hfirst
        cases hfirst

theorem WakeInvariant.boundedWakes (h : WakeInvariant state) : BoundedWakes state := by
  have hwoken : ∀ (t sender : ℕ) (turn origin : Turn ι), state.turns[t]? = some turn →
      turn.trigger.sender = some sender → state.turns[sender]? = some origin →
      origin.trigger.envelope.agentGenerated = false := by
    intro t sender turn origin hturn hsender horigin
    exact h.woken turn (List.mem_of_getElem? hturn) sender origin hsender horigin
  refine ⟨fun t hops hdepth => ?_, hwoken⟩
  cases hdepth with
  | person hturn hperson => exact Nat.zero_le _
  | agent hturn hsender hdepth =>
      cases hdepth with
      | person horigin hperson => exact le_rfl
      | agent horigin hsender' hdepth =>
          have hplain := hwoken _ _ _ _ hturn hsender horigin
          rw [h.generated _ (h.trigger_mem _ (List.mem_of_getElem? horigin)) _ hsender'] at hplain
          cases hplain

/-- In every run in which no turn that an agent started reuses an owner root, no
turn is more than one hop away from a person and no second hop wakes anyone. -/
theorem boundedWakes_of_reach (team : Team ι) (state : SpaceState ι)
    (h : SpaceReach team (fun before action => ¬ReusesOwnerRoot team before action) state) :
    BoundedWakes state := by
  apply WakeInvariant.boundedWakes
  induction h with
  | empty => exact wakeInvariant_empty
  | step _ hstep hallowed ih => exact ih.step hallowed hstep

end Invariant
section PingPong

def pairAgentId : Bool → String
  | true => repeatText 'a' 64
  | false => repeatText 'c' 64

theorem isAgentId_pairAgentId : ∀ x, IsAgentId (pairAgentId x)
  | true => isAgentId_repeatText 'a' rfl rfl
  | false => isAgentId_repeatText 'c' rfl rfl

/-- Two agents of owner `b…b` that answer anyone. -/
def pairAgent (x : Bool) : ManagedAgent where
  harness :=
    { agentId := pairAgentId x
      ownerAgentId := repeatText 'b' 64
      groupId := "group"
      respondTo := .anyone
      respondToAllowlist := []
      isAgentId_agentId := isAgentId_pairAgentId x
      isAgentId_ownerAgentId := isAgentId_owner }
  tool :=
    { agentId := pairAgentId x
      ownerAgentId := repeatText 'b' 64
      groupId := "group"
      stableGroupId := "stable"
      isAgentId_agentId := isAgentId_pairAgentId x
      isAgentId_ownerAgentId := isAgentId_owner }
  same_agent := rfl
  same_owner := rfl

/-- The owner asks both agents to work together. -/
def pairRoot : PostedMessage where
  msgId := repeatText '1' 64
  author := repeatText 'b' 64
  envelope :=
    { text := "work on this together"
      createdAt := 1
      clientId := "client-1"
      mentions := [pairAgentId true, pairAgentId false]
      agentGenerated := false
      agentGeneration := none
      delegationRoot := none }
  threadRoot := none
  threadParent := none
  sender := none

/-- Agent `x` hands the owner's root on to the other one. -/
def pairRequest (x : Bool) : SpaceSend where
  text := "your turn"
  mentions := [pairAgentId (!x)]
  threadRoot := some (repeatText '1' 64)
  threadParent := some (repeatText '1' 64)

def handOn (x : Bool) (turn : ℕ) (msgId : String) : PostedMessage :=
  spaceSendMessage (pairAgent x) turn (pairRequest x) (some ⟨1, repeatText '1' 64⟩) 2 "client-2"
    msgId

def pairRootPayload : String :=
  "eyJ0ZXh0Ijoid29yayBvbiB0aGlzIHRvZ2V0aGVyIiwiY3JlYXRlZEF0IjoxLCJjbGllbnRJZCI6ImNsaWVudC0xIiwib" ++
    "WVudGlvbnMiOlsiYWFhYWFhYWFhYWFhYWFhYWFhYWFhYWFhYWFhYWFhYWFhYWFhYWFhYWFhYWFhYWFhYWFhYWFhYWFh" ++
    "YWFhYWFhYSIsImNjY2NjY2NjY2NjY2NjY2NjY2NjY2NjY2NjY2NjY2NjY2NjY2NjY2NjY2NjY2NjY2NjY2NjY2NjY2N" ++
    "jY2NjY2MiXX0="

def handOnPayload : Bool → String
  | true =>
      "eyJ0ZXh0IjoieW91ciB0dXJuIiwiY3JlYXRlZEF0IjoyLCJjbGllbnRJZCI6ImNsaWVudC0yIiwibWVudGlvbnMiO" ++
        "lsiY2NjY2NjY2NjY2NjY2NjY2NjY2NjY2NjY2NjY2NjY2NjY2NjY2NjY2NjY2NjY2NjY2NjY2NjY2NjY2NjY2Nj" ++
        "YyJdLCJhZ2VudEdlbmVyYXRlZCI6dHJ1ZSwiYWdlbnRHZW5lcmF0aW9uIjoxLCJkZWxlZ2F0aW9uUm9vdCI6IjE" ++
        "xMTExMTExMTExMTExMTExMTExMTExMTExMTExMTExMTExMTExMTExMTExMTExMTExMTExMTExMTExMTExMTEifQ=="
  | false =>
      "eyJ0ZXh0IjoieW91ciB0dXJuIiwiY3JlYXRlZEF0IjoyLCJjbGllbnRJZCI6ImNsaWVudC0yIiwibWVudGlvbnMiO" ++
        "lsiYWFhYWFhYWFhYWFhYWFhYWFhYWFhYWFhYWFhYWFhYWFhYWFhYWFhYWFhYWFhYWFhYWFhYWFhYWFhYWFhYWFh" ++
        "YSJdLCJhZ2VudEdlbmVyYXRlZCI6dHJ1ZSwiYWdlbnRHZW5lcmF0aW9uIjoxLCJkZWxlZ2F0aW9uUm9vdCI6IjE" ++
        "xMTExMTExMTExMTExMTExMTExMTExMTExMTExMTExMTExMTExMTExMTExMTExMTExMTExMTExMTExMTExMTEifQ=="

def pairDecoder : EnvelopeDecoder := fun payload =>
  if payload = pairRootPayload then some pairRoot.envelope
  else if payload = handOnPayload true then some (handOn true 0 "").envelope
  else if payload = handOnPayload false then some (handOn false 0 "").envelope
  else none

def pairTeam : Team Bool where
  agent := pairAgent
  owner := repeatText 'b' 64
  stableGroupId := "stable"
  decode := pairDecoder
  receivedDecode := fun payload => (pairDecoder payload).map ChannelEnvelope.received
  owner_eq := fun _ => rfl
  group_eq := fun _ => rfl
  received_of_decode := by
    intro payload envelope h
    rw [h]
    rfl

def deliveredRow (id : ℤ) (payload : String) (message : PostedMessage) : HistoryRow where
  id := id
  msgId := message.msgId
  scope := "group:stable"
  authorAgent := some message.author
  direction := "Inbound"
  payload := payload
  provenance := "VerifiedEnvelope"
  signed := true
  threadRoot := message.threadRoot
  threadParent := message.threadParent

theorem isVerifiedInbound_deliveredRow (id : ℤ) (payload : String) (message : PostedMessage) :
    (deliveredRow id payload message).isVerifiedInbound "stable" = true := by
  have hscope : "group:stable" = "group:" ++ "stable" := by decide
  simp [HistoryRow.isVerifiedInbound, deliveredRow, ← hscope]

theorem delivered_deliveredRow {decode : EnvelopeDecoder} (id : ℤ) {payload : String}
    {message : PostedMessage} (h : decode payload = some message.envelope) :
    message.Delivered decode (deliveredRow id payload message) :=
  ⟨rfl, rfl, rfl, rfl, h⟩

theorem pairDecoder_root : pairDecoder pairRootPayload = some pairRoot.envelope := by
  simp [pairDecoder]

theorem pairDecoder_handOn (x : Bool) (turn : ℕ) (msgId : String) :
    pairDecoder (handOnPayload x) = some (handOn x turn msgId).envelope := by
  have hroot : ∀ y, handOnPayload y ≠ pairRootPayload := by
    intro y
    cases y <;> decide +kernel
  have hapart : handOnPayload false ≠ handOnPayload true := by decide +kernel
  unfold pairDecoder
  rw [if_neg (hroot x)]
  cases x with
  | true => rw [if_pos rfl]; rfl
  | false => rw [if_neg hapart, if_pos rfl]; rfl

attribute [irreducible] pairDecoder

theorem parseSendArguments_pairRequest (x : Bool) :
    parseSendArguments (pairRequest x) = .ok (pairRequest x) := by
  cases x <;> decide

theorem mem_pairRoot_mentions (x : Bool) : pairAgentId x ∈ pairRoot.envelope.mentions := by
  cases x <;> simp [pairRoot]

theorem eqIgnoreAsciiCase_owner_pairAgentId (x : Bool) :
    eqIgnoreAsciiCase (repeatText 'b' 64) (pairAgentId x) = false := by
  cases x <;> simp [eqIgnoreAsciiCase, pairAgentId]

theorem eqIgnoreAsciiCase_pairAgentId_not (x : Bool) :
    eqIgnoreAsciiCase (pairAgentId x) (pairAgentId (!x)) = false := by
  cases x <;> simp [eqIgnoreAsciiCase, pairAgentId]

def pairRootRow : HistoryRow := deliveredRow 1 pairRootPayload pairRoot

theorem delivered_pairRootRow : pairRoot.Delivered pairDecoder pairRootRow :=
  delivered_deliveredRow 1 pairDecoder_root

theorem delegationMetadata_pairRequest (x : Bool) :
    delegationMetadata pairTeam.receivedDecode (pairAgent x).tool (pairRequest x)
      ((some pairRootRow).map HistoryRow.toolRow) = .ok (some ⟨1, repeatText '1' 64⟩) := by
  have hverified : pairRootRow.toolRow.isVerifiedInbound "stable" = true :=
    (isVerifiedInbound_toolRow _ _).trans (isVerifiedInbound_deliveredRow _ _ _)
  have henv : pairRootRow.toolRow.envelope pairTeam.receivedDecode =
      some pairRoot.envelope.received :=
    pairTeam.received_of_decode _ _ pairDecoder_root
  have hmention : ∃ mention ∈ pairRoot.envelope.received.mentions,
      eqIgnoreAsciiCase mention (pairAgent x).tool.agentId = true :=
    ⟨_, mem_pairRoot_mentions x, eqIgnoreAsciiCase_self _⟩
  have hderive : deriveDelegation pairTeam.receivedDecode (pairAgent x).tool (pairRequest x)
      pairRootRow.toolRow = .ok (some ⟨1, repeatText '1' 64⟩) :=
    deriveDelegation_ownerMessage rfl rfl hverified rfl henv (eqIgnoreAsciiCase_self _)
      (eqIgnoreAsciiCase_owner_pairAgentId x) hmention rfl
  exact hderive

theorem spaceStep_pairRequest {state : SpaceState Bool} {x : Bool} {t : ℕ} {msgId : String}
    {trigger : PostedMessage} (hturn : state.turns[t]? = some ⟨x, trigger⟩)
    (hroot : pairRoot ∈ state.messages) (hfresh : state.Fresh msgId) :
    SpaceStep pairTeam state (.spaceSend t (pairRequest x)) (state.post (handOn x t msgId)) := by
  have hfound : ∀ row ∈ some pairRootRow,
      ∃ message ∈ state.messages, message.Delivered pairTeam.decode row := by
    intro row hrow
    obtain rfl : pairRootRow = row := Option.some_inj.mp hrow
    exact ⟨pairRoot, hroot, delivered_pairRootRow⟩
  exact SpaceStep.spaceSend hturn (parseSendArguments_pairRequest x) hfound
    (delegationMetadata_pairRequest x) hfresh

theorem pairContext (x : Bool) :
    (buildContext pairDecoder "stable" (pairAgentId x) [.observe pairRootRow]).messages =
      [contextMessage pairRootRow pairRoot.envelope] := by
  apply messages_buildContext_observe
  · exact pairDecoder_root
  · rw [HistoryRow.isSafeContext, pairRootRow, isVerifiedInbound_deliveredRow, Bool.true_or]

theorem shouldTrigger_pairRoot (x : Bool) :
    shouldTrigger (pairAgent x).harness "stable" pairRootRow pairRoot.envelope
      (buildContext pairDecoder "stable" (pairAgentId x) [.observe pairRootRow]) = true := by
  rw [shouldTrigger_iff]
  exact ⟨repeatText 'b' 64, rfl, isVerifiedInbound_deliveredRow _ _ _,
    eqIgnoreAsciiCase_owner_pairAgentId x, rfl,
    ⟨_, mem_pairRoot_mentions x, eqIgnoreAsciiCase_self _⟩, Or.inl rfl⟩

theorem shouldTrigger_handOn (x : Bool) (t : ℕ) (msgId : String) :
    shouldTrigger (pairAgent (!x)).harness "stable"
      (deliveredRow 2 (handOnPayload x) (handOn x t msgId)) (handOn x t msgId).envelope
      (buildContext pairDecoder "stable" (pairAgentId (!x)) [.observe pairRootRow]) = true := by
  rw [shouldTrigger_iff]
  refine ⟨pairAgentId x, rfl, isVerifiedInbound_deliveredRow _ _ _,
    eqIgnoreAsciiCase_pairAgentId_not x, rfl,
    ⟨_, List.mem_singleton_self _, eqIgnoreAsciiCase_self _⟩, Or.inr ?_⟩
  rw [intentionalAgentDelegation_iff]
  refine ⟨repeatText '1' 64, pairAgentId x, rfl, rfl, rfl, rfl, rfl,
    contextMessage pairRootRow pairRoot.envelope, ?_, ?_⟩
  · rw [pairContext]
    exact List.mem_singleton_self _
  · rw [authorizesDelegation_iff]
    exact ⟨rfl, eqIgnoreAsciiCase_self _, rfl, rfl, rfl,
      ⟨_, mem_pairRoot_mentions x, eqIgnoreAsciiCase_self _⟩⟩

theorem spaceStep_wake {state : SpaceState Bool} {i : Bool} {trigger : PostedMessage}
    {row : HistoryRow} (hmem : trigger ∈ state.messages) (hroot : pairRoot ∈ state.messages)
    (hdelivered : trigger.Delivered pairDecoder row)
    (htrigger : shouldTrigger (pairAgent i).harness "stable" row trigger.envelope
      (buildContext pairDecoder "stable" (pairAgentId i) [.observe pairRootRow]) = true) :
    SpaceStep pairTeam state (.wake i trigger) (state.start ⟨i, trigger⟩) := by
  have hhistory : ∀ quoted ∈ [pairRootRow],
      ∃ message ∈ state.messages, message.Delivered pairTeam.decode quoted := by
    intro quoted hquoted
    rw [List.mem_singleton.mp hquoted]
    exact ⟨pairRoot, hroot, delivered_pairRootRow⟩
  exact SpaceStep.wake hmem hdelivered hhistory (by simp [ContextEvent.rows]) htrigger

theorem spaceStep_handOn {state : SpaceState Bool} (x : Bool) (t : ℕ) (msgId : String)
    (hroot : pairRoot ∈ state.messages) :
    SpaceStep pairTeam (state.post (handOn x t msgId)) (.wake (!x) (handOn x t msgId))
      ((state.post (handOn x t msgId)).start ⟨!x, handOn x t msgId⟩) := by
  have hmem : handOn x t msgId ∈ (state.post (handOn x t msgId)).messages :=
    List.mem_append_right _ (List.mem_singleton_self _)
  exact spaceStep_wake hmem (List.mem_append_left _ hroot)
    (delivered_deliveredRow 2 (pairDecoder_handOn x t msgId)) (shouldTrigger_handOn x t msgId)

/-- The owner's message wakes the first agent, which hands it on. -/
def handedOn : SpaceState Bool :=
  (((SpaceState.empty.post pairRoot).start ⟨true, pairRoot⟩).post
    (handOn true 0 (repeatText '2' 64))).start ⟨false, handOn true 0 (repeatText '2' 64)⟩

/-- The second agent names the owner's root again and wakes the first one. -/
def handedBack : SpaceState Bool :=
  (handedOn.post (handOn false 1 (repeatText '3' 64))).start
    ⟨true, handOn false 1 (repeatText '3' 64)⟩

theorem not_reusesOwnerRoot_first (x : Bool) (state : SpaceState Bool)
    (hturn : state.turns[0]? = some ⟨true, pairRoot⟩) :
    ¬ReusesOwnerRoot pairTeam state (.spaceSend 0 (pairRequest x)) := by
  rintro ⟨turn, hturn', hagent, -⟩
  obtain rfl : (⟨true, pairRoot⟩ : Turn Bool) = turn := Option.some_inj.mp (hturn.symm.trans hturn')
  cases hagent

theorem pairRoot_mem_handedOn : pairRoot ∈ handedOn.messages := by
  simp [handedOn, SpaceState.post, SpaceState.start]

/-- One hand-on is within the discipline. -/
theorem spaceReach_handedOn :
    SpaceReach pairTeam (fun before action => ¬ReusesOwnerRoot pairTeam before action)
      handedOn := by
  have hroot : pairRoot ∈ (SpaceState.empty.post pairRoot : SpaceState Bool).messages := by
    simp [SpaceState.post]
  have hfresh : ((SpaceState.empty.post pairRoot).start ⟨true, pairRoot⟩ : SpaceState Bool).Fresh
      (repeatText '2' 64) := by
    simp [SpaceState.Fresh, SpaceState.post, SpaceState.start, SpaceState.empty, pairRoot]
  have hpost : SpaceStep pairTeam SpaceState.empty (.post pairRoot)
      (SpaceState.empty.post pairRoot) :=
    SpaceStep.post rfl rfl (by simp [SpaceState.Fresh, SpaceState.empty])
  have hwake := spaceStep_wake hroot hroot delivered_pairRootRow (shouldTrigger_pairRoot true)
  have hsend : SpaceStep pairTeam ((SpaceState.empty.post pairRoot).start ⟨true, pairRoot⟩)
      (.spaceSend 0 (pairRequest true)) _ :=
    spaceStep_pairRequest rfl hroot hfresh
  have hrootWoken :
      pairRoot ∈ ((SpaceState.empty.post pairRoot).start ⟨true, pairRoot⟩ :
        SpaceState Bool).messages :=
    hroot
  have hanswer := spaceStep_handOn true 0 (repeatText '2' 64) hrootWoken
  exact (((SpaceReach.empty.step hpost fun h => h).step hwake fun h => h).step hsend
    (not_reusesOwnerRoot_first true _ rfl)).step hanswer fun h => h

theorem boundedWakes_handedOn : BoundedWakes handedOn :=
  boundedWakes_of_reach pairTeam handedOn spaceReach_handedOn

theorem spaceReach_mono {admits admits' : SpaceState Bool → SpaceAction Bool → Prop}
    {state : SpaceState Bool} (h : SpaceReach pairTeam admits state)
    (hmono : ∀ before action, admits before action → admits' before action) :
    SpaceReach pairTeam admits' state := by
  induction h with
  | empty => exact SpaceReach.empty
  | step _ hstep hallowed ih => exact ih.step hstep (hmono _ _ hallowed)

theorem fresh_handedOn : handedOn.Fresh (repeatText '3' 64) := by
  simp [SpaceState.Fresh, handedOn, SpaceState.post, SpaceState.start, SpaceState.empty, pairRoot,
    handOn, spaceSendMessage]

/-- Naming the owner's root once more gives a turn two hops away from the owner. -/
theorem handedBack_wakeDepth :
    SpaceReach pairTeam (fun _ _ => True) handedBack ∧ WakeDepth handedBack 2 2 ∧
      ¬BoundedWakes handedBack := by
  have hdepth : WakeDepth handedBack 2 2 :=
    .agent rfl rfl (.agent rfl rfl (.person rfl rfl))
  have hsend : SpaceStep pairTeam handedOn (.spaceSend 1 (pairRequest false))
      (handedOn.post (handOn false 1 (repeatText '3' 64))) :=
    spaceStep_pairRequest rfl pairRoot_mem_handedOn fresh_handedOn
  have hwake := spaceStep_handOn false 1 (repeatText '3' 64) pairRoot_mem_handedOn
  refine ⟨?_, hdepth, fun hbound => ?_⟩
  · exact ((spaceReach_mono spaceReach_handedOn fun _ _ _ => trivial).step hsend trivial).step
      hwake trivial
  · have hle := hbound.1 2 2 hdepth
    revert hle
    decide

end PingPong
end Buzz
