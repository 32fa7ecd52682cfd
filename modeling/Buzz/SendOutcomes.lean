import Buzz.TimelineRows
import Buzz.ReplyThreads

/-!
# The outcome of a send

Sends of one channel run side by side: each shows an optimistic row at once and settles later, while
live copies come in. A row that settles must not touch the rows of others. The window never takes a
row for another, the timeline and the threads match pending rows by their text, so there the rule is
that no copy comes in while another send with the same text is pending.
-/

namespace Buzz.Messages

section Threads

variable {ι : Type} {R : Roster ι} {pending : ι → Option RelayEvent} {i : ι} {event : RelayEvent}
  {rootId : String}

/-- The open sends of one thread. -/
def threadPending (pending : ι → Option RelayEvent) (rootId : String) (i : ι) : Option RelayEvent :=
  (pending i).filter fun row => truthy (threadRootOf row) == some rootId

theorem threadPending_eq_some {row : RelayEvent} :
    threadPending pending rootId i = some row ↔
      pending i = some row ∧ truthy (threadRootOf row) = some rootId := by
  simp [threadPending, Option.filter_eq_some_iff]

theorem PendingRows.thread (h : PendingRows R pending) (rootId : String) :
    PendingRows R (threadPending pending rootId) :=
  fun i row hrow => h i row (threadPending_eq_some.mp hrow).1

variable [DecidableEq ι]

theorem threadPending_open (h : truthy (threadRootOf event) = some rootId) :
    threadPending (Function.update pending i (some event)) rootId =
      Function.update (threadPending pending rootId) i (some event) := by
  funext j
  by_cases hne : j = i
  · subst hne
    simp [threadPending, h, Option.filter]
  · simp [threadPending, Function.update_of_ne hne]

theorem threadPending_open_other (h : truthy (threadRootOf event) ≠ some rootId)
    (hidle : pending i = none) :
    threadPending (Function.update pending i (some event)) rootId =
      threadPending pending rootId := by
  funext j
  by_cases hne : j = i
  · subst hne
    simp [threadPending, h, hidle, Option.filter]
  · simp [threadPending, Function.update_of_ne hne]

theorem threadPending_close (pending : ι → Option RelayEvent) (i : ι) (rootId : String) :
    threadPending (Function.update pending i none) rootId =
      Function.update (threadPending pending rootId) i none := by
  funext j
  by_cases hne : j = i
  · subst hne
    simp [threadPending]
  · simp [threadPending, Function.update_of_ne hne]

theorem threadPending_close_other (hopen : pending i = some event)
    (h : truthy (threadRootOf event) ≠ some rootId) :
    threadPending (Function.update pending i none) rootId = threadPending pending rootId := by
  rw [threadPending_close, Function.update_eq_self_iff]
  simp [threadPending, hopen, h, Option.filter]

end Threads

section Outcomes

variable {ι : Type} [DecidableEq ι]

/-- What each send is made of. -/
structure SendPlan (R : Roster ι) where
  input : ι → SendVariables
  uuid : ι → String
  time : ι → ℤ
  mentionAgentIds : ι → List String
  createdAt : ι → ℤ
  canonicalId : ι → Option String
  optimistic : ∀ i, R.optimisticId i = "optimistic-" ++ uuid i
  sent : ∀ i, R.sentId i = (canonicalId i).getD (R.clientId i)

/-- The caches, the optimistic rows of the sends that have not settled, the roots that the sent ones
carry, the sends that a live copy came in for, the acknowledged ones, and the messages that the
window and each thread have received. -/
structure OutcomeState (ι : Type) where
  caches : MessageCaches
  pending : ι → Option RelayEvent
  request : ι → Option (Option String)
  echoed : Set ι
  acked : Set ι
  shown : Set ι
  replied : String → Set ι

inductive OutcomeStep (ι : Type) where
  | insert (i : ι)
  | request (i : ι)
  | echo (i : ι) (event : RelayEvent)
  | update (i : ι) (event : RelayEvent)
  | acknowledge (i : ι)
  | fail (i : ι)

variable (channelId : String) (identity : Identity) {R : Roster ι} (plan : SendPlan R)

/-- The optimistic row of a send that begins now. -/
def SendPlan.optimisticRow (messages : List RelayEvent) (i : ι) : RelayEvent :=
  createOptimisticMessage channelId identity (plan.uuid i) (plan.time i) messages (plan.input i)

/-- The acknowledged row of a send. -/
def SendPlan.sentRow (i : ι) (threadRoot : Option String) : RelayEvent :=
  sendNativeMessage channelId identity (plan.input i).content (plan.mentionAgentIds i) threadRoot
    (plan.input i).parentEventId (R.clientId i) (plan.createdAt i) (plan.canonicalId i)

/-- The context that a mutation keeps of its optimistic row. -/
def contextOf (optimistic : RelayEvent) : MessageQueryContext :=
  ⟨optimistic.id, threadRootOf optimistic⟩

/-- The messages of the threads once the message has been put into one of them. -/
def addReply (replied : String → Set ι) (root : Option String) (i : ι) (rootId : String) : Set ι :=
  if truthy root = some rootId then Insert.insert i (replied rootId) else replied rootId

namespace OutcomeState

def perform (state : OutcomeState ι) : OutcomeStep ι → OutcomeState ι
  | .insert i =>
      { state with
        caches := (onMutate channelId identity (plan.uuid i) (plan.time i) state.caches
          (plan.input i)).1
        pending := Function.update state.pending i
          (some (plan.optimisticRow channelId identity state.caches.messages i)) }
  | .request i =>
      { state with
        request := Function.update state.request i
          (some (sendThreadRoot state.caches.messages (plan.input i))) }
  | .echo i event =>
      if (getThreadReference event.tags).parentId.isSome then
        { state with
          caches := appendMessage state.caches event
          echoed := Insert.insert i state.echoed
          replied := addReply state.replied (getThreadReference event.tags).rootId i }
      else
        { state with
          caches := appendMessage state.caches event
          echoed := Insert.insert i state.echoed
          shown := if state.caches.window.admits event then Insert.insert i state.shown
            else state.shown }
  | .update i event =>
      { state with
        caches := mergeTimelineMessage state.caches event
        echoed := Insert.insert i state.echoed }
  | .acknowledge i =>
      match state.pending i, state.request i with
      | some optimistic, some threadRoot =>
          { state with
            caches := onSuccess state.caches (contextOf optimistic)
              (plan.sentRow channelId identity i threadRoot)
            pending := Function.update state.pending i none
            acked := Insert.insert i state.acked
            shown := Insert.insert i state.shown
            replied := addReply state.replied (threadRootOf optimistic) i }
      | _, _ => state
  | .fail i =>
      match state.pending i with
      | some optimistic =>
          { state with
            caches := rollbackOptimisticMessageCache state.caches (contextOf optimistic)
            pending := Function.update state.pending i none }
      | none => state

/-- A live copy of a send that is on its way, in a group. -/
structure IsEcho (state : OutcomeState ι) (i : ι) (event : RelayEvent) : Prop where
  stored : R.IsStored i event
  group : R.sentId i = R.msgId i
  kind : event.kind = kindStreamMessage
  ancestry : ∃ threadRoot, state.request i = some threadRoot ∧
    getThreadReference event.tags = ancestryReference threadRoot (plan.input i).parentEventId

/-- The order in which the steps of one send come. -/
def Possible (state : OutcomeState ι) : OutcomeStep ι → Prop
  | .insert i => state.pending i = none ∧ state.request i = none ∧ i ∉ state.echoed ∧
      i ∉ state.acked ∧ i ∉ state.shown ∧ ∀ rootId, i ∉ state.replied rootId
  | .request i => (state.pending i).isSome = true ∧ state.request i = none
  | .echo i event | .update i event => state.IsEcho plan i event
  | .acknowledge i => (state.pending i).isSome = true ∧ (state.request i).isSome = true
  | .fail i => (state.pending i).isSome = true

/-- What a step has to meet. The window takes the rows of the send; the send goes into the thread of
its optimistic row; a copy that comes in matches no pending row of another send; and a send that
fails has not come in. -/
def Apart (state : OutcomeState ι) : OutcomeStep ι → Prop
  | .insert i => state.caches.window.admits
      (plan.optimisticRow channelId identity state.caches.messages i) = true
  | .request i => ∀ optimistic, state.pending i = some optimistic →
      getThreadReference optimistic.tags =
        ancestryReference (sendThreadRoot state.caches.messages (plan.input i))
          (plan.input i).parentEventId
  | .echo i event => ∀ rootId, truthy (getThreadReference event.tags).rootId = some rootId →
      ∀ row ∈ state.caches.threads rootId, isMatchingPendingMessage row event = true →
        row.id = R.optimisticId i
  | .update i event => ∀ row ∈ state.caches.messages, isMatchingPendingMessage row event = true →
      row.id = R.optimisticId i
  | .acknowledge i => ∀ optimistic threadRoot, state.pending i = some optimistic →
      state.request i = some threadRoot →
        state.caches.window.admits (plan.sentRow channelId identity i threadRoot) = true ∧
          ∀ rootId, truthy (threadRootOf optimistic) = some rootId →
            ∀ row ∈ state.caches.threads rootId, row.id ≠ R.optimisticId i →
              isMatchingPendingMessage row (plan.sentRow channelId identity i threadRoot) = false
  | .fail i => i ∉ state.echoed

/-- The caches are in order, and so are the sends. -/
structure InOrder (state : OutcomeState ι) : Prop where
  created : ∀ i row, state.pending i = some row →
    ∃ messages, row = plan.optimisticRow channelId identity messages i
  requested : ∀ i row threadRoot, state.pending i = some row → state.request i = some threadRoot →
    getThreadReference row.tags = ancestryReference threadRoot (plan.input i).parentEventId
  unacked : ∀ i row, state.pending i = some row → i ∉ state.acked
  window : WindowRows R state.pending state.shown state.caches.window
  acked_shown : state.acked ⊆ state.shown
  threads : ∀ rootId, CacheRows R (threadPending state.pending rootId) (state.replied rootId)
    (state.caches.threads rootId)
  replied_echoed : ∀ rootId i row, i ∈ state.replied rootId → state.pending i = some row →
    i ∈ state.echoed
  timeline : Timeline R state.pending state.echoed state.acked state.caches.messages

end OutcomeState

end Outcomes

section OutcomeSteps

variable {ι : Type} {channelId : String} {identity : Identity} {R : Roster ι}
  {plan : SendPlan R} {state : OutcomeState ι} {i : ι} {event : RelayEvent}

theorem SendPlan.optimisticRow_isOptimistic (messages : List RelayEvent) (i : ι) :
    R.IsOptimistic i (plan.optimisticRow channelId identity messages i) :=
  Roster.isOptimistic_created (plan.optimistic i)

theorem SendPlan.sentRow_isSent (i : ι) (threadRoot : Option String) :
    R.IsSent i (plan.sentRow channelId identity i threadRoot) :=
  Roster.isSent_acknowledged rfl (plan.sent i)

theorem OutcomeState.InOrder.open_rows (h : state.InOrder channelId identity plan) :
    PendingRows R state.pending := by
  intro i row hrow
  obtain ⟨messages, rfl⟩ := h.created i row hrow
  exact SendPlan.optimisticRow_isOptimistic messages i

theorem getChannelIdFromTags_sent (threadRoot : Option String) :
    getChannelIdFromTags (plan.sentRow channelId identity i threadRoot).tags = some channelId := by
  simp [SendPlan.sentRow, sendNativeMessage, getChannelIdFromTags, textTag, tagText]

theorem getChannelIdFromTags_optimistic (messages : List RelayEvent) :
    getChannelIdFromTags (plan.optimisticRow channelId identity messages i).tags =
      some channelId := by
  simp only [SendPlan.optimisticRow, createOptimisticMessage, optimisticTags]
  split
  · simp [buildReplyTags, getChannelIdFromTags, textTag, tagText]
  · simp [getChannelIdFromTags, textTag, tagText]

theorem sentRow_reference (threadRoot : Option String) :
    getThreadReference (plan.sentRow channelId identity i threadRoot).tags =
      ancestryReference threadRoot (plan.input i).parentEventId := by
  have hmentions := getEventTags_textTags "p" (by decide)
    ((plan.mentionAgentIds i).filter fun agentId => agentId ≠ identity.agentId)
    fun agentId => [.string agentId]
  have hhead : getEventTags [textTag ["h", channelId], textTag ["p", identity.agentId]] = [] := by
    simp [getEventTags, textTag, tagText]
  have hfront : getEventTags ([textTag ["h", channelId], textTag ["p", identity.agentId]] ++
      ((plan.mentionAgentIds i).filter fun agentId => agentId ≠ identity.agentId).map
        fun agentId => textTag ["p", agentId]) = [] := by
    rw [getEventTags_append, hhead]
    exact hmentions
  exact getThreadReference_ancestry hfront

/-- The acknowledged row of a send matches its optimistic row. -/
theorem match_of_reference {messages : List RelayEvent} {threadRoot : Option String}
    (h : getThreadReference (plan.optimisticRow channelId identity messages i).tags =
      ancestryReference threadRoot (plan.input i).parentEventId) :
    isMatchingPendingMessage (plan.optimisticRow channelId identity messages i)
      (plan.sentRow channelId identity i threadRoot) = true := by
  rw [isMatchingPendingMessage, getChannelIdFromTags_sent, getChannelIdFromTags_optimistic,
    sentRow_reference, h]
  simp [SendPlan.optimisticRow, SendPlan.sentRow, createOptimisticMessage, sendNativeMessage]

theorem Timeline.mono {pending : ι → Option RelayEvent} {echoed echoed' acked : Set ι}
    {messages : List RelayEvent} (h : Timeline R pending echoed acked messages)
    (hechoed : echoed ⊆ echoed') : Timeline R pending echoed' acked messages :=
  ⟨h.ids, fun row hrow => (h.known row hrow).imp_right fun ⟨i, hi⟩ =>
    ⟨i, hi.mono hechoed fun _ h => h⟩, h.shown⟩

namespace OutcomeState

variable [DecidableEq ι]

theorem InOrder.insert (h : state.InOrder channelId identity plan)
    (hpossible : state.Possible plan (.insert i))
    (hapart : state.Apart channelId identity plan (.insert i)) :
    (state.perform channelId identity plan (.insert i)).InOrder channelId identity plan := by
  obtain ⟨hidle, hunsent, -, hunacked, hunshown, hunreplied⟩ := hpossible
  have hopen := h.open_rows
  have hrow : R.IsOptimistic i (plan.optimisticRow channelId identity state.caches.messages i) :=
    SendPlan.optimisticRow_isOptimistic _ i
  have hwindow := h.window.insert hopen hrow hidle hunshown hapart
  have hother : ∀ {j row}, state.pending j = some row →
      Function.update state.pending i
        (some (plan.optimisticRow channelId identity state.caches.messages i)) j = some row := by
    intro j row hj
    have hne : j ≠ i := by
      rintro rfl
      rw [hidle] at hj
      cases hj
    rw [Function.update_of_ne hne]
    exact hj
  have hcases : ∀ {j row}, Function.update state.pending i
      (some (plan.optimisticRow channelId identity state.caches.messages i)) j = some row →
        (j = i ∧ row = plan.optimisticRow channelId identity state.caches.messages i) ∨
          state.pending j = some row := by
    intro j row hj
    by_cases hne : j = i
    · subst hne
      rw [Function.update_self] at hj
      exact Or.inl ⟨rfl, (Option.some.inj hj).symm⟩
    · rw [Function.update_of_ne hne] at hj
      exact Or.inr hj
  constructor
  · intro j row hj
    rcases hcases hj with ⟨rfl, rfl⟩ | hj
    · exact ⟨_, rfl⟩
    · exact h.created j row hj
  · intro j row threadRoot hj hrequest
    rcases hcases hj with ⟨rfl, rfl⟩ | hj
    · rw [show state.request j = some threadRoot from hrequest] at hunsent
      cases hunsent
    · exact h.requested j row threadRoot hj hrequest
  · intro j row hj
    rcases hcases hj with ⟨rfl, rfl⟩ | hj
    · exact hunacked
    · exact h.unacked j row hj
  · change WindowRows R _ _ (insertOptimistic state.caches _).window
    rw [insertOptimistic_window]
    exact hwindow
  · exact h.acked_shown
  · intro rootId
    change CacheRows R _ _ ((insertOptimistic state.caches
      (plan.optimisticRow channelId identity state.caches.messages i)).threads rootId)
    rw [insertOptimistic_threads]
    split_ifs with hroot
    · have hthread := (h.threads rootId).merge_optimistic (hopen.thread rootId) hrow
        (by simp [threadPending, hidle]) (hunreplied rootId)
      rw [← threadPending_open hroot] at hthread
      exact hthread
    · have hsame := threadPending_open_other hroot hidle
      change CacheRows R (threadPending (Function.update state.pending i (some _)) rootId) _ _
      rw [hsame]
      exact h.threads rootId
  · intro rootId j row hreplied hj
    rcases hcases hj with ⟨rfl, rfl⟩ | hj
    · exact absurd hreplied (hunreplied rootId)
    · exact h.replied_echoed rootId j row hreplied hj
  · change Timeline R _ _ _ (insertOptimistic state.caches _).messages
    rw [insertOptimistic_messages]
    apply hwindow.project (hopen.open hrow) h.acked_shown h.timeline.ids fun _ => False
    · intro row hmem
      rcases h.timeline.known row hmem with ⟨j, hj⟩ | hshown
      · exact Or.inl ⟨j, hother hj⟩
      · exact Or.inr (Or.inl hshown)
    · exact fun _ hfalse => hfalse.elim
    · exact fun _ _ hfalse => hfalse.elim

theorem InOrder.request (h : state.InOrder channelId identity plan)
    (hapart : state.Apart channelId identity plan (.request i)) :
    (state.perform channelId identity plan (.request i)).InOrder channelId identity plan := by
  refine ⟨h.created, ?_, h.unacked, h.window, h.acked_shown, h.threads, h.replied_echoed,
    h.timeline⟩
  intro j row threadRoot hj hrequest
  by_cases hne : j = i
  · subst hne
    change Function.update state.request j _ j = some threadRoot at hrequest
    rw [Function.update_self] at hrequest
    obtain rfl := Option.some.inj hrequest
    exact hapart row hj
  · change Function.update state.request i _ j = some threadRoot at hrequest
    rw [Function.update_of_ne hne] at hrequest
    exact h.requested j row threadRoot hj hrequest

omit [DecidableEq ι] in
/-- A pending row that a live copy of a send may be taken for is the row of that send. -/
theorem InOrder.own_row (h : state.InOrder channelId identity plan) {rootId : String}
    {row : RelayEvent} (hrow : row ∈ state.caches.threads rootId)
    (hmatch : isMatchingPendingMessage row event = true) (hid : row.id = R.optimisticId i) :
    threadPending state.pending rootId i = some row := by
  obtain ⟨j, hj⟩ := (h.threads rootId).pending_of_mem hrow (pending_of_match hmatch)
  have hoptimistic := (h.open_rows.thread rootId) j row hj
  obtain rfl : j = i := R.optimistic_injective (hoptimistic.id.symm.trans hid)
  exact hj

theorem InOrder.echo_reply (h : state.InOrder channelId identity plan)
    (hpossible : state.Possible plan (.echo i event))
    (hapart : state.Apart channelId identity plan (.echo i event))
    (hreply : (getThreadReference event.tags).parentId.isSome = true) :
    (state.perform channelId identity plan (.echo i event)).InOrder channelId identity plan := by
  have hechoed : state.echoed ⊆ Insert.insert i state.echoed := Set.subset_insert i _
  have hreplied : ∀ root rootId j row, j ∈ addReply state.replied root i rootId →
      state.pending j = some row → j ∈ Insert.insert i state.echoed := by
    intro root rootId j row hj hopen
    unfold addReply at hj
    split_ifs at hj
    · rcases Set.mem_insert_iff.mp hj with rfl | hj
      · exact Set.mem_insert j _
      · exact hechoed (h.replied_echoed rootId j row hj hopen)
    · exact hechoed (h.replied_echoed rootId j row hj hopen)
  rw [perform, if_pos hreply, appendMessage_reply state.caches hpossible.kind hreply]
  cases hroot : truthy (getThreadReference event.tags).rootId with
  | none =>
      refine ⟨h.created, h.requested, h.unacked, h.window, h.acked_shown, ?_, hreplied _,
        h.timeline.mono hechoed⟩
      intro rootId
      simp only [addReply, hroot, reduceCtorEq, if_false]
      exact h.threads rootId
  | some root =>
      refine ⟨h.created, h.requested, h.unacked, h.window, h.acked_shown, ?_, hreplied _,
        h.timeline.mono hechoed⟩
      intro rootId
      simp only [addReply, hroot, Option.some.injEq]
      rw [updateThread_threads]
      split_ifs with heq
      · subst heq
        apply (h.threads root).merge_copy (h.open_rows.thread root) hpossible.stored.isCopy
          hpossible.stored.renderKey
        intro row hrow hmatch
        exact ⟨h.own_row hrow hmatch (hapart root hroot row hrow hmatch), hpossible.group⟩
      · exact h.threads rootId

theorem InOrder.echo_timeline (h : state.InOrder channelId identity plan)
    (hpossible : state.Possible plan (.echo i event))
    (hreply : ¬(getThreadReference event.tags).parentId.isSome = true) :
    (state.perform channelId identity plan (.echo i event)).InOrder channelId identity plan := by
  have hechoed : state.echoed ⊆ Insert.insert i state.echoed := Set.subset_insert i _
  have hreplied : ∀ rootId j row, j ∈ state.replied rootId → state.pending j = some row →
      j ∈ Insert.insert i state.echoed :=
    fun rootId j row hj hopen => hechoed (h.replied_echoed rootId j row hj hopen)
  rw [perform, if_neg hreply, appendMessage_timeline state.caches hpossible.kind hreply]
  by_cases hadmits : state.caches.window.admits event = true
  · rw [if_pos hadmits, if_pos hadmits]
    have hwindow := h.window.deliver h.open_rows hpossible.stored.isCopy
      (hpossible.stored.id.trans hpossible.group.symm) hpossible.stored.renderKey hadmits
    have hshown : state.acked ⊆ Insert.insert i state.shown :=
      h.acked_shown.trans (Set.subset_insert i _)
    refine ⟨h.created, h.requested, h.unacked, hwindow, hshown, h.threads, hreplied, ?_⟩
    apply hwindow.project h.open_rows hshown h.timeline.ids fun _ => False
    · intro row hrow
      rcases (h.timeline.mono hechoed).known row hrow with hopen | hknown
      · exact Or.inl hopen
      · exact Or.inr (Or.inl hknown)
    · exact fun _ hfalse => hfalse.elim
    · exact fun _ _ hfalse => hfalse.elim
  · rw [if_neg hadmits, if_neg hadmits]
    exact ⟨h.created, h.requested, h.unacked, h.window, h.acked_shown, h.threads, hreplied,
      h.timeline.mono hechoed⟩

theorem InOrder.update (h : state.InOrder channelId identity plan)
    (hpossible : state.Possible plan (.update i event))
    (hapart : state.Apart channelId identity plan (.update i event)) :
    (state.perform channelId identity plan (.update i event)).InOrder channelId identity plan :=
  ⟨h.created, h.requested, h.unacked, h.window, h.acked_shown, h.threads,
    fun rootId j row hj hopen => Set.mem_insert_of_mem i (h.replied_echoed rootId j row hj hopen),
    h.timeline.merge h.open_rows h.unacked hpossible.stored hpossible.group hapart⟩

/-- A send that has settled is not open; the others stay as they are. -/
theorem closed_of_some {pending : ι → Option RelayEvent} {j : ι} {row : RelayEvent}
    (h : Function.update pending i none j = some row) : j ≠ i ∧ pending j = some row := by
  by_cases hne : j = i
  · subst hne
    rw [Function.update_self] at h
    cases h
  · rw [Function.update_of_ne hne] at h
    exact ⟨hne, h⟩

theorem InOrder.acknowledge (h : state.InOrder channelId identity plan)
    (hapart : state.Apart channelId identity plan (.acknowledge i)) :
    (state.perform channelId identity plan (.acknowledge i)).InOrder channelId identity plan := by
  cases hoptimistic : state.pending i with
  | none =>
      simp only [perform, hoptimistic]
      exact h
  | some optimistic =>
  cases hrequest : state.request i with
  | none =>
      simp only [perform, hoptimistic, hrequest]
      exact h
  | some threadRoot =>
  simp only [perform, hoptimistic, hrequest]
  obtain ⟨hadmits, hmatch⟩ := hapart optimistic threadRoot hoptimistic hrequest
  have hopen := h.open_rows
  have hsent : R.IsSent i (plan.sentRow channelId identity i threadRoot) :=
    SendPlan.sentRow_isSent i threadRoot
  have hid : optimistic.id = R.optimisticId i := (hopen i optimistic hoptimistic).id
  have hwindow : WindowRows R (Function.update state.pending i none) (Insert.insert i state.shown)
      (acknowledgeOptimisticChannelWindowMessage state.caches.window
        (plan.sentRow channelId identity i threadRoot) optimistic.id) := by
    rw [hid]
    exact h.window.acknowledge hopen hsent hadmits
  have hshown : Insert.insert i state.acked ⊆ Insert.insert i state.shown :=
    Set.insert_subset_insert h.acked_shown
  constructor
  · exact fun j row hj => h.created j row (closed_of_some hj).2
  · exact fun j row root hj => h.requested j row root (closed_of_some hj).2
  · intro j row hj hacked
    obtain ⟨hne, hold⟩ := closed_of_some hj
    exact h.unacked j row hold (Set.mem_of_mem_insert_of_ne hacked hne)
  · rw [onSuccess_window]
    exact hwindow
  · exact hshown
  · intro rootId
    have hthreads : (onSuccess state.caches (contextOf optimistic)
        (plan.sentRow channelId identity i threadRoot)).threads rootId =
          if truthy (threadRootOf optimistic) = some rootId then
            mergeMessages ((state.caches.threads rootId).filter fun row => row.id != optimistic.id)
              (plan.sentRow channelId identity i threadRoot)
          else state.caches.threads rootId := onSuccess_threads
    change CacheRows R (threadPending (Function.update state.pending i none) rootId)
      (addReply state.replied (threadRootOf optimistic) i rootId) _
    rw [hthreads]
    unfold addReply
    by_cases hroot : truthy (threadRootOf optimistic) = some rootId
    · rw [if_pos hroot, if_pos hroot, threadPending_close, hid]
      apply (h.threads rootId).merge_sent (hopen.thread rootId) hsent
      exact hmatch rootId hroot
    · rw [if_neg hroot, if_neg hroot, threadPending_close_other hoptimistic hroot]
      exact h.threads rootId
  · intro rootId j row hj hpending
    obtain ⟨hne, hold⟩ := closed_of_some hpending
    have hreplied : j ∈ state.replied rootId := by
      change j ∈ addReply state.replied (threadRootOf optimistic) i rootId at hj
      unfold addReply at hj
      split_ifs at hj
      · exact Set.mem_of_mem_insert_of_ne hj hne
      · exact hj
    exact h.replied_echoed rootId j row hreplied hold
  · rw [onSuccess_messages]
    apply hwindow.project (hopen.close i) hshown h.timeline.ids fun row => row = optimistic
    · intro row hrow
      rcases h.timeline.known row hrow with ⟨j, hj⟩ | ⟨j, hj⟩
      · by_cases hne : j = i
        · subst hne
          rw [hoptimistic] at hj
          exact Or.inr (Or.inr (Option.some.inj hj).symm)
        · exact Or.inl ⟨j, by rw [Function.update_of_ne hne]; exact hj⟩
      · exact Or.inr (Or.inl ⟨j, hj.mono (fun _ h => h) (Set.subset_insert i _)⟩)
    · rintro row rfl
      refine ⟨i, Set.mem_insert i _, hopen i row hoptimistic, ?_⟩
      obtain ⟨messages, hcreated⟩ := h.created i row hoptimistic
      have hreference := h.requested i row threadRoot hoptimistic hrequest
      subst hcreated
      exact ⟨_, h.window.plain.mem_acknowledged hadmits _, match_of_reference hreference⟩
    · rintro row other rfl rfl
      rfl

theorem InOrder.fail (h : state.InOrder channelId identity plan)
    (hapart : state.Apart channelId identity plan (.fail i)) :
    (state.perform channelId identity plan (.fail i)).InOrder channelId identity plan := by
  cases hoptimistic : state.pending i with
  | none =>
      simp only [perform, hoptimistic]
      exact h
  | some optimistic =>
  simp only [perform, hoptimistic]
  have hopen := h.open_rows
  have hid : optimistic.id = R.optimisticId i := (hopen i optimistic hoptimistic).id
  constructor
  · exact fun j row hj => h.created j row (closed_of_some hj).2
  · exact fun j row root hj => h.requested j row root (closed_of_some hj).2
  · exact fun j row hj => h.unacked j row (closed_of_some hj).2
  · rw [rollback_window, contextOf, hid]
    exact h.window.rollback hopen i
  · exact h.acked_shown
  · intro rootId
    rw [rollback_threads, contextOf, hid]
    split_ifs with hroot
    · rw [threadPending_close]
      apply (h.threads rootId).rollback (hopen.thread rootId)
      exact fun hreplied => hapart (h.replied_echoed rootId i optimistic hreplied hoptimistic)
    · rw [threadPending_close_other hoptimistic hroot]
      exact h.threads rootId
  · exact fun rootId j row hj hpending =>
      h.replied_echoed rootId j row hj (closed_of_some hpending).2
  · rw [rollback_messages, contextOf, hid]
    exact h.timeline.rollback hopen (h.unacked i optimistic hoptimistic) hapart

theorem InOrder.perform (h : state.InOrder channelId identity plan) {step : OutcomeStep ι}
    (hpossible : state.Possible plan step) (hapart : state.Apart channelId identity plan step) :
    (state.perform channelId identity plan step).InOrder channelId identity plan := by
  cases step with
  | insert i => exact h.insert hpossible hapart
  | request i => exact h.request hapart
  | echo i event =>
      by_cases hreply : (getThreadReference event.tags).parentId.isSome = true
      · exact h.echo_reply hpossible hapart hreply
      · exact h.echo_timeline hpossible hreply
  | update i event => exact h.update hpossible hapart
  | acknowledge i => exact h.acknowledge hapart
  | fail i => exact h.fail hapart

end OutcomeState

end OutcomeSteps

section OutcomeRuns

variable {ι : Type} [DecidableEq ι] (channelId : String) (identity : Identity) {R : Roster ι}
  (plan : SendPlan R)

namespace OutcomeState

def PossibleRun (state : OutcomeState ι) : List (OutcomeStep ι) → Prop
  | [] => True
  | step :: rest =>
      state.Possible plan step ∧ PossibleRun (state.perform channelId identity plan step) rest

def ApartRun (state : OutcomeState ι) : List (OutcomeStep ι) → Prop
  | [] => True
  | step :: rest =>
      state.Apart channelId identity plan step ∧
        ApartRun (state.perform channelId identity plan step) rest

def run (state : OutcomeState ι) (steps : List (OutcomeStep ι)) : OutcomeState ι :=
  steps.foldl (OutcomeState.perform channelId identity plan) state

end OutcomeState

/-- Caches that hold delivered messages only, each under its own names. -/
structure QuietCaches (R : Roster ι) (caches : MessageCaches) (shown : Set ι)
    (replied : String → Set ι) : Prop where
  window : WindowRows R (fun _ => none) shown caches.window
  threads : ∀ rootId, CacheRows R (fun _ => none) (replied rootId) (caches.threads rootId)
  ids : (caches.messages.map RelayEvent.id).Nodup
  messages : ∀ row ∈ caches.messages, ∃ i, R.IsSent i row

/-- No send has begun. -/
def quietState (caches : MessageCaches) (shown : Set ι) (replied : String → Set ι) :
    OutcomeState ι :=
  ⟨caches, fun _ => none, fun _ => none, ∅, ∅, shown, replied⟩

/-- A list loses the pending row of the send and nothing else. -/
structure OwnRowOnly (R : Roster ι) (pending : Option RelayEvent) (i : ι)
    (before after : List RelayEvent) : Prop where
  removed : ∀ row, row ∈ after ↔ row ∈ before ∧ row.id ≠ R.optimisticId i
  own : ∀ row ∈ before, row.id = R.optimisticId i → pending = some row

/-- The send fails, and takes its own pending row out of every cache. -/
structure FailsAlone (R : Roster ι) (i : ι) (pending : Option RelayEvent)
    (before after : MessageCaches) : Prop where
  messages : OwnRowOnly R pending i before.messages after.messages
  window : OwnRowOnly R pending i before.window.held after.window.held
  threads : ∀ rootId, OwnRowOnly R pending i (before.threads rootId) (after.threads rootId)

/-- Nothing is pending, and each delivered message is in its caches once. -/
structure Settled (R : Roster ι) (state : OutcomeState ι) : Prop where
  messages : ∀ row ∈ state.caches.messages, row.pending = false
  window : ∀ row ∈ state.caches.window.held, row.pending = false
  threads : ∀ rootId, ∀ row ∈ state.caches.threads rootId, row.pending = false
  timeline_once : ∀ i ∈ state.acked,
    (state.caches.messages.filter fun row => row.id == R.sentId i).length = 1
  window_once : ∀ i ∈ state.shown,
    (state.caches.window.held.filter (CacheRows.isRowOf R i)).length = 1
  thread_once : ∀ rootId, ∀ i ∈ state.replied rootId,
    ((state.caches.threads rootId).filter (CacheRows.isRowOf R i)).length = 1

variable {channelId identity plan} {state : OutcomeState ι} {i : ι}

omit [DecidableEq ι] in
theorem quiet_inOrder {caches : MessageCaches} {shown : Set ι} {replied : String → Set ι}
    (h : QuietCaches R caches shown replied) :
    (quietState caches shown replied).InOrder channelId identity plan where
  created := fun _ _ hnone => nomatch hnone
  requested := fun _ _ _ hnone => nomatch hnone
  unacked := fun _ _ hnone => nomatch hnone
  window := h.window
  acked_shown := Set.empty_subset shown
  threads := h.threads
  replied_echoed := fun _ _ _ _ hnone => nomatch hnone
  timeline :=
    { ids := h.ids
      known := fun row hrow => by
        obtain ⟨i, hi⟩ := h.messages row hrow
        exact Or.inr ⟨i, hi.id, Or.inl hi.renderKey, hi.pending⟩
      shown := fun i hi => absurd hi (Set.notMem_empty i) }

theorem OutcomeState.InOrder.run (steps : List (OutcomeStep ι)) :
    ∀ {state : OutcomeState ι}, state.InOrder channelId identity plan →
      state.PossibleRun channelId identity plan steps →
      state.ApartRun channelId identity plan steps →
        (state.run channelId identity plan steps).InOrder channelId identity plan := by
  induction steps with
  | nil => exact fun h _ _ => h
  | cons step rest ih =>
      intro state h hpossible hapart
      exact ih (h.perform hpossible.1 hapart.1) hpossible.2 hapart.2

omit [DecidableEq ι] in
theorem ownRowOnly_filter {pending : Option RelayEvent} {rows : List RelayEvent}
    {keep : RelayEvent → Bool} (hkeep : ∀ row ∈ rows, keep row = false ↔ row.id = R.optimisticId i)
    (hown : ∀ row ∈ rows, row.id = R.optimisticId i → pending = some row) :
    OwnRowOnly R pending i rows (rows.filter keep) where
  removed := by
    intro row
    rw [List.mem_filter]
    constructor
    · rintro ⟨hrow, hkept⟩
      refine ⟨hrow, fun hid => ?_⟩
      rw [(hkeep row hrow).mpr hid] at hkept
      cases hkept
    · rintro ⟨hrow, hother⟩
      refine ⟨hrow, ?_⟩
      by_contra hgone
      exact hother ((hkeep row hrow).mp (Bool.eq_false_of_not_eq_true hgone))
  own := hown

theorem OutcomeState.InOrder.failsAlone (h : state.InOrder channelId identity plan)
    (hpossible : state.Possible plan (.fail i))
    (hapart : state.Apart channelId identity plan (.fail i)) :
    FailsAlone R i (state.pending i) state.caches
      (state.perform channelId identity plan (.fail i)).caches := by
  obtain ⟨optimistic, hoptimistic⟩ := Option.isSome_iff_exists.mp hpossible
  have hopen := h.open_rows
  have hid : optimistic.id = R.optimisticId i := (hopen i optimistic hoptimistic).id
  have hopened : ∀ {pending : ι → Option RelayEvent} {j : ι} {row : RelayEvent},
      PendingRows R pending → pending j = some row → row.id = R.optimisticId i → j = i :=
    fun hrows hj hrow => R.optimistic_injective ((hrows _ _ hj).id.symm.trans hrow)
  simp only [OutcomeState.perform, hoptimistic]
  constructor
  · rw [rollback_messages, contextOf, hid]
    apply ownRowOnly_filter
      (h.timeline.isOptimistic_iff hopen (h.unacked i optimistic hoptimistic) hapart)
    intro row hrow hrowId
    rcases h.timeline.known row hrow with ⟨j, hj⟩ | ⟨j, hj⟩
    · obtain rfl := hopened hopen hj hrowId
      exact hoptimistic.symm.trans hj
    · exact absurd (hj.id.symm.trans hrowId) (R.sent_ne_optimistic j i)
  · rw [rollback_window, contextOf, hid, h.window.plain.held_removeOptimistic]
    apply ownRowOnly_filter (h.window.isOptimistic_iff hopen i)
    intro row hrow hrowId
    rcases h.window.cases hrow with ⟨j, hj⟩ | ⟨j, -, hcopy, -⟩
    · obtain rfl := hopened hopen hj hrowId
      exact hoptimistic.symm.trans hj
    · exact absurd hrowId (hcopy.id_ne_optimistic i)
  · intro rootId
    have hown : ∀ row ∈ state.caches.threads rootId, row.id = R.optimisticId i →
        threadPending state.pending rootId i = some row := by
      intro row hrow hrowId
      rcases (h.threads rootId).known row hrow with ⟨j, hj⟩ | ⟨j, -, hcopy⟩
      · obtain rfl := hopened (hopen.thread rootId) hj hrowId
        exact hj
      · exact absurd hrowId (hcopy.id_ne_optimistic i)
    have hthreads : (rollbackOptimisticMessageCache state.caches (contextOf optimistic)).threads
        rootId = if truthy (threadRootOf optimistic) = some rootId then
          (state.caches.threads rootId).filter fun row => !eventIsOptimistic row optimistic.id
        else state.caches.threads rootId := rollback_threads
    rw [hthreads, hid]
    split_ifs with hroot
    · apply ownRowOnly_filter
      · apply (h.threads rootId).isOptimistic_iff (hopen.thread rootId)
        exact fun hreplied => hapart (h.replied_echoed rootId i optimistic hreplied hoptimistic)
      · intro row hrow hrowId
        exact hoptimistic.symm.trans (threadPending_eq_some.mp (hown row hrow hrowId)).1
    · have hnone : ∀ row ∈ state.caches.threads rootId, row.id ≠ R.optimisticId i := by
        intro row hrow hrowId
        obtain ⟨hpending, hrowRoot⟩ := threadPending_eq_some.mp (hown row hrow hrowId)
        rw [hoptimistic] at hpending
        cases hpending
        exact hroot hrowRoot
      constructor
      · exact fun row => ⟨fun hrow => ⟨hrow, hnone row hrow⟩, fun hrow => hrow.1⟩
      · exact fun row hrow hrowId => absurd hrowId (hnone row hrow)

omit [DecidableEq ι] in
theorem OutcomeState.InOrder.settled (h : state.InOrder channelId identity plan)
    (hdone : ∀ i, state.pending i = none) : Settled R state := by
  have hnone : ∀ {i row}, state.pending i ≠ some row := fun hsome => by
    rw [hdone] at hsome
    cases hsome
  constructor
  · intro row hrow
    rcases h.timeline.known row hrow with ⟨i, hi⟩ | ⟨i, hi⟩
    · exact absurd hi hnone
    · exact hi.pending
  · intro row hrow
    rcases h.window.cases hrow with ⟨i, hi⟩ | ⟨i, -, hcopy, -⟩
    · exact absurd hi hnone
    · exact hcopy.pending
  · intro rootId row hrow
    rcases (h.threads rootId).known row hrow with ⟨i, hi⟩ | ⟨i, -, hcopy⟩
    · exact absurd (threadPending_eq_some.mp hi).1 hnone
    · exact hcopy.pending
  · intro i hi
    obtain ⟨row, hrow, hid⟩ := h.timeline.shown i hi
    have hperm : (state.caches.messages.filter fun row => row.id == R.sentId i).Perm [row] := by
      apply (List.perm_ext_iff_of_nodup ((List.Nodup.of_map _ h.timeline.ids).filter _)
        (List.nodup_singleton row)).mpr
      intro other
      rw [List.mem_filter, List.mem_singleton, beq_iff_eq]
      constructor
      · rintro ⟨hother, hotherId⟩
        exact List.inj_on_of_nodup_map h.timeline.ids hother hrow (hotherId.trans hid.symm)
      · rintro rfl
        exact ⟨hrow, hid⟩
    exact hperm.length_eq
  · exact fun i hi => h.window.rows.count_eq_one h.open_rows hi
  · exact fun rootId i hi => (h.threads rootId).count_eq_one (h.open_rows.thread rootId) hi

omit [DecidableEq ι] in
theorem quiet_empty : QuietCaches R emptyMessageCaches ∅ fun _ => ∅ := by
  have hrows : CacheRows R (fun _ => none) ∅ [] := by
    constructor
    · exact List.nodup_nil
    · intro _ hrow
      cases hrow
    · intro _ _ hnone
      cases hnone
    · exact fun i hi => absurd hi (Set.notMem_empty i)
  constructor
  · constructor
    · refine ⟨rfl, ?_, ?_⟩
      · intro _ hpage
        cases hpage
      · intro _ hrow
        cases hrow
    · exact hrows
    · intro _ _ hnone
      cases hnone
    · intro _ hrow
      cases hrow
  · exact fun _ => hrows
  · exact List.nodup_nil
  · intro _ hrow
    cases hrow

end OutcomeRuns

section Crossing

/-- Two messages of a group. -/
def pairRoster : Roster Bool where
  optimisticId := fun second => if second then "optimistic-u2" else "optimistic-u1"
  clientId := fun second => if second then "c2" else "c1"
  msgId := fun second => if second then "m2" else "m1"
  sentId := fun second => if second then "m2" else "m1"
  optimistic_injective := by decide
  client_injective := by decide
  msg_injective := by decide
  optimistic_ne_client := by decide
  optimistic_ne_msg := by decide
  client_ne_msg := by decide
  sent_cases := fun _ => Or.inl rfl

/-- Two sends of one text. -/
def pairPlan (parentEventId : Option String) : SendPlan pairRoster where
  input := fun _ => ⟨"hi", [], parentEventId, []⟩
  uuid := fun second => if second then "u2" else "u1"
  time := fun _ => 1000
  mentionAgentIds := fun _ => []
  createdAt := fun _ => 1000
  canonicalId := fun second => if second then some "m2" else some "m1"
  optimistic := by decide
  sent := by decide

/-- Both replies to `m0` are sent, and the second is acknowledged. -/
def crossingSteps : List (OutcomeStep Bool) :=
  [.insert false, .insert true, .request false, .request true, .acknowledge true]

def pairStart : OutcomeState Bool := quietState emptyMessageCaches ∅ fun _ => ∅

end Crossing

end Buzz.Messages
