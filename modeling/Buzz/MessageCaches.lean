import Buzz.NativeMessages

/-!
# The caches of a channel

The desktop keeps three kinds of caches for a channel: the window, the timeline that is projected
from it, and one list of replies for each thread. Live frames, sends and refetches each write some
of them.
-/

namespace Buzz.Messages

section Projection

/-- What a projection keeps of the timeline beside the window: pending rows and replies. -/
def retainRefetchReconciliationEvents (events : List RelayEvent) : List RelayEvent :=
  events.filter fun event =>
    channelTimelineContentKinds.contains event.kind &&
      (event.pending ||
        ((getThreadReference event.tags).parentId.isSome && !isBroadcastReply event.tags))

/-- The loop over the events of the window: what it leaves of the cache, and the events under the
keys that they take over. -/
def reconcileWindowEvents (cacheOnly : List RelayEvent) :
    List RelayEvent → List RelayEvent × List RelayEvent
  | [] => (cacheOnly, [])
  | event :: rest =>
      let reconciled := reconcileIncomingMessage cacheOnly event
      let (left, authoritative) := reconcileWindowEvents reconciled.dropLast rest
      (left, reconciled.getLast?.getD event :: authoritative)

/-- The loop over the authoritative events in front of one retained row. -/
def mergeBefore (retained : RelayEvent) (mergeRest : List RelayEvent → List RelayEvent) :
    List RelayEvent → List RelayEvent
  | [] => retained :: mergeRest []
  | authoritative :: rest =>
      if 0 < compareRelayOrder retained authoritative then
        retained :: mergeRest (authoritative :: rest)
      else authoritative :: mergeBefore retained mergeRest rest

/-- The merge of two chronological lists. -/
def mergeSorted : List RelayEvent → List RelayEvent → List RelayEvent
  | [] => fun authoritative => authoritative
  | retained :: rest => mergeBefore retained (mergeSorted rest)

def mergeChronologicalMessages (cacheOnly authoritative : List RelayEvent) : List RelayEvent :=
  mergeSorted (sortEvents (fun left right => compareRelayOrder right left) cacheOnly) authoritative

/-- The retained rows that the window does not hold. -/
def retainedBeside (window : ChannelWindowStore) (messages : List RelayEvent) : List RelayEvent :=
  (retainRefetchReconciliationEvents messages).filter fun event =>
    decide (event.id ∉ (flattenChannelWindowEvents window).map RelayEvent.id)

def reconcileChannelWindowMessages (window : ChannelWindowStore) (messages : List RelayEvent) :
    List RelayEvent :=
  let (cacheOnly, authoritative) :=
    reconcileWindowEvents (retainedBeside window messages) (flattenChannelWindowEvents window)
  mergeChronologicalMessages cacheOnly authoritative

/-- The events that a window holds, pages first. -/
def ChannelWindowStore.held (window : ChannelWindowStore) : List RelayEvent :=
  window.pages.flatMap (fun page => page.rows.map (fun row => row.event) ++ page.aux) ++
    window.liveOverlay ++ window.liveAux

section ProjectionFacts

variable {window : ChannelWindowStore} {messages cacheOnly events : List RelayEvent}
  {event row : RelayEvent}

theorem setById_ids (events : List RelayEvent) (event : RelayEvent) :
    (setById events event).map RelayEvent.id =
      if event.id ∈ events.map RelayEvent.id then events.map RelayEvent.id
      else events.map RelayEvent.id ++ [event.id] := by
  have hany : (events.any fun candidate => candidate.id == event.id) = true ↔
      event.id ∈ events.map RelayEvent.id := by
    rw [List.any_eq_true, List.mem_map]
    simp only [beq_iff_eq]
  unfold setById
  simp only [hany]
  split_ifs
  · rw [List.map_map]
    apply List.map_congr_left
    intro candidate _
    simp only [Function.comp_apply]
    split_ifs with heq
    · exact (by simpa using heq : candidate.id = event.id).symm
    · rfl
  · simp

theorem foldl_setById_ids (held : List RelayEvent) :
    ∀ {events : List RelayEvent}, (events.map RelayEvent.id).Nodup →
      ((held.foldl setById events).map RelayEvent.id).Nodup ∧
        ∀ id, id ∈ (held.foldl setById events).map RelayEvent.id ↔
          id ∈ events.map RelayEvent.id ∨ id ∈ held.map RelayEvent.id := by
  induction held with
  | nil => exact fun h => ⟨h, fun id => by simp⟩
  | cons event rest ih =>
      intro events hnodup
      have hids := setById_ids events event
      have hnext : ((setById events event).map RelayEvent.id).Nodup := by
        rw [hids]
        split_ifs with hmem
        · exact hnodup
        · rw [List.nodup_append]
          refine ⟨hnodup, List.nodup_singleton _, ?_⟩
          rintro id hid other hother rfl
          exact hmem (List.mem_singleton.mp hother ▸ hid)
      obtain ⟨hall, hmems⟩ := ih hnext
      refine ⟨hall, fun id => ?_⟩
      rw [List.foldl_cons, hmems, hids]
      split_ifs with hmem
      · rw [List.map_cons, List.mem_cons]
        constructor
        · exact fun h => h.imp_right Or.inr
        · rintro (h | rfl | h)
          · exact Or.inl h
          · exact Or.inl hmem
          · exact Or.inr h
      · rw [List.mem_append, List.mem_singleton, List.map_cons, List.mem_cons, or_assoc]

theorem flatten_perm (window : ChannelWindowStore) :
    (flattenChannelWindowEvents window).Perm (window.held.foldl setById []) :=
  sortEvents_perm _ _

theorem flatten_ids_nodup (window : ChannelWindowStore) :
    ((flattenChannelWindowEvents window).map RelayEvent.id).Nodup :=
  ((flatten_perm window).map RelayEvent.id).nodup_iff.mpr
    (foldl_setById_ids window.held (show (([] : List RelayEvent).map RelayEvent.id).Nodup from
      List.nodup_nil)).1

theorem mem_flatten_ids {id : String} :
    id ∈ (flattenChannelWindowEvents window).map RelayEvent.id ↔
      id ∈ window.held.map RelayEvent.id := by
  have hnil : (([] : List RelayEvent).map RelayEvent.id).Nodup := List.nodup_nil
  have h := (foldl_setById_ids window.held hnil).2 id
  rw [((flatten_perm window).map RelayEvent.id).mem_iff]
  simpa using h

theorem foldl_setById_of_nodup (held : List RelayEvent) :
    ∀ {events : List RelayEvent}, ((events ++ held).map RelayEvent.id).Nodup →
      held.foldl setById events = events ++ held := by
  induction held with
  | nil => exact fun _ => (List.append_nil _).symm
  | cons event rest ih =>
      intro events hnodup
      have hfresh : ¬(events.any fun candidate => candidate.id == event.id) = true := by
        intro hany
        obtain ⟨candidate, hmem, heq⟩ := List.any_eq_true.mp hany
        rw [List.map_append, List.nodup_append] at hnodup
        exact hnodup.2.2 candidate.id (List.mem_map_of_mem hmem) event.id
          (List.mem_map_of_mem List.mem_cons_self) (by simpa using heq)
      rw [List.foldl_cons, setById, if_neg hfresh, ih (by simpa using hnodup), List.append_assoc,
        List.singleton_append]

theorem flatten_perm_held (h : (window.held.map RelayEvent.id).Nodup) :
    (flattenChannelWindowEvents window).Perm window.held := by
  refine (flatten_perm window).trans ?_
  rw [foldl_setById_of_nodup window.held (by simpa using h), List.nil_append]

theorem reconcileWindowEvents_cons (cacheOnly : List RelayEvent) (event : RelayEvent)
    (rest : List RelayEvent) :
    reconcileWindowEvents cacheOnly (event :: rest) =
      ((reconcileWindowEvents (withoutReplaced (dedupeMessagesById cacheOnly)
          (takeOverKey (dedupeMessagesById cacheOnly) event)) rest).1,
        takeOverKey (dedupeMessagesById cacheOnly) event ::
          (reconcileWindowEvents (withoutReplaced (dedupeMessagesById cacheOnly)
            (takeOverKey (dedupeMessagesById cacheOnly) event)) rest).2) := by
  simp [reconcileWindowEvents, reconcileIncomingMessage]

theorem reconcileWindowEvents_ids (events : List RelayEvent) :
    ∀ cacheOnly, (reconcileWindowEvents cacheOnly events).2.map RelayEvent.id =
      events.map RelayEvent.id := by
  induction events with
  | nil => exact fun _ => rfl
  | cons event rest ih =>
      intro cacheOnly
      rw [reconcileWindowEvents_cons, List.map_cons, List.map_cons, ih, takeOverKey_id]

theorem mergeSorted_perm (retained : List RelayEvent) :
    ∀ authoritative, (mergeSorted retained authoritative).Perm (retained ++ authoritative) := by
  induction retained with
  | nil => exact fun _ => List.Perm.refl _
  | cons first rest ih =>
      intro authoritative
      induction authoritative with
      | nil => exact (ih []).cons first
      | cons event others ihEvents =>
          unfold mergeSorted mergeBefore
          split_ifs
          · exact (ih (event :: others)).cons first
          · exact (ihEvents.cons event).trans List.perm_middle.symm

theorem reconcileChannelWindow_perm (window : ChannelWindowStore) (messages : List RelayEvent) :
    (reconcileChannelWindowMessages window messages).Perm
      ((reconcileWindowEvents (retainedBeside window messages)
          (flattenChannelWindowEvents window)).1 ++
        (reconcileWindowEvents (retainedBeside window messages)
          (flattenChannelWindowEvents window)).2) :=
  (mergeSorted_perm _ _).trans ((sortEvents_perm _ _).append_right _)

theorem reconcileWindowEvents_left (events : List RelayEvent) :
    ∀ {cacheOnly : List RelayEvent}, (cacheOnly.map RelayEvent.id).Nodup →
      ((reconcileWindowEvents cacheOnly events).1).Sublist cacheOnly := by
  induction events with
  | nil => exact fun _ => List.Sublist.refl _
  | cons event rest ih =>
      intro cacheOnly hnodup
      rw [reconcileWindowEvents_cons, dedupe_of_nodup hnodup]
      have hfilter : (withoutReplaced cacheOnly (takeOverKey cacheOnly event)).Sublist cacheOnly :=
        List.filter_sublist
      exact (ih (hnodup.sublist (hfilter.map RelayEvent.id))).trans hfilter

/-- An event of the window is shown as it is, or under the key of a pending row that it matches. -/
theorem reconcileWindowEvents_authoritative (events : List RelayEvent) :
    ∀ {cacheOnly : List RelayEvent}, ∀ row ∈ (reconcileWindowEvents cacheOnly events).2,
      ∃ event ∈ events, row = event ∨ ∃ replaced ∈ cacheOnly,
        isMatchingPendingMessage replaced event = true ∧
          row = { event with localKey := some replaced.renderKey } := by
  induction events with
  | nil => exact fun _ h => nomatch h
  | cons event rest ih =>
      intro cacheOnly row hrow
      rw [reconcileWindowEvents_cons] at hrow
      have hdedupe := (dedupeMessagesById_sublist cacheOnly).subset
      rcases List.mem_cons.mp hrow with rfl | hrow
      · refine ⟨event, List.mem_cons_self, ?_⟩
        obtain ⟨heq, -⟩ | ⟨replaced, hmem, hmatch, heq⟩ :=
          takeOverKey_cases (dedupeMessagesById cacheOnly) event
        · exact Or.inl heq
        · exact Or.inr ⟨replaced, hdedupe hmem, hmatch, heq⟩
      · obtain ⟨found, hfound, hcases⟩ := ih row hrow
        refine ⟨found, List.mem_cons_of_mem _ hfound, hcases.imp_right ?_⟩
        rintro ⟨replaced, hmem, hmatch, heq⟩
        exact ⟨replaced, hdedupe (List.mem_filter.mp hmem).1, hmatch, heq⟩

theorem pending_of_match {pending incoming : RelayEvent}
    (h : isMatchingPendingMessage pending incoming = true) : pending.pending = true := by
  simp only [isMatchingPendingMessage, Bool.and_eq_true] at h
  exact h.1.1.1.1.1.1.1

/-- The only pending row of the cache is not left once the window holds an event that it matches. -/
theorem reconcileWindowEvents_unmatched {row : RelayEvent} (hpending : row.pending = true)
    (events : List RelayEvent) :
    ∀ {cacheOnly : List RelayEvent}, (cacheOnly.map RelayEvent.id).Nodup →
      (∀ other ∈ cacheOnly, other.pending = true → other.id = row.id) →
        row ∈ (reconcileWindowEvents cacheOnly events).1 →
          ∀ event ∈ events, isMatchingPendingMessage row event = false := by
  induction events with
  | nil => exact fun _ _ _ _ h => nomatch h
  | cons first rest ih =>
      intro cacheOnly hnodup honly hleft event hevent
      have hfilter : (withoutReplaced cacheOnly (takeOverKey cacheOnly first)).Sublist cacheOnly :=
        List.filter_sublist
      rw [reconcileWindowEvents_cons, dedupe_of_nodup hnodup] at hleft
      have hnext := hnodup.sublist (hfilter.map RelayEvent.id)
      rcases List.mem_cons.mp hevent with rfl | hevent
      · by_contra hmatch
        have hstays := mem_withoutReplaced.mp ((reconcileWindowEvents_left rest hnext).subset hleft)
        obtain ⟨-, hnone⟩ | ⟨replaced, hmem, hreplaced, heq⟩ := takeOverKey_cases cacheOnly event
        · exact hmatch (hnone row hstays.1)
        · obtain rfl := List.inj_on_of_nodup_map hnodup hmem hstays.1
            (honly replaced hmem (pending_of_match hreplaced))
          rw [heq] at hstays
          exact hstays.2.2 rfl
      · exact ih hnext (fun other hother => honly other (hfilter.subset hother)) hleft event hevent

/-- The timeline shows every event of the window. -/
theorem held_mem_projection (hmem : event ∈ window.held) :
    ∃ shown ∈ reconcileChannelWindowMessages window messages, shown.id = event.id := by
  have hid : event.id ∈ (reconcileWindowEvents (retainedBeside window messages)
      (flattenChannelWindowEvents window)).2.map RelayEvent.id := by
    rw [reconcileWindowEvents_ids, mem_flatten_ids]
    exact List.mem_map_of_mem hmem
  obtain ⟨shown, hshown, heq⟩ := List.mem_map.mp hid
  exact ⟨shown, (reconcileChannelWindow_perm window messages).mem_iff.mpr
    (List.mem_append_right _ hshown), heq⟩

end ProjectionFacts

end Projection

section Caches

/-- A cache that was never written is empty. -/
structure MessageCaches where
  window : ChannelWindowStore
  messages : List RelayEvent
  threads : String → List RelayEvent

def emptyMessageCaches : MessageCaches := ⟨emptyChannelWindowStore, [], fun _ => []⟩

def projectChannelWindowMessages (caches : MessageCaches) : MessageCaches :=
  { caches with messages := reconcileChannelWindowMessages caches.window caches.messages }

/-- Writes the replies of one root. -/
def MessageCaches.updateThread (caches : MessageCaches) (rootId : String)
    (update : List RelayEvent → List RelayEvent) : MessageCaches :=
  { caches with
    threads := Function.update caches.threads rootId (update (caches.threads rootId)) }

/-- Whether a live event changes the window. -/
def ChannelWindowStore.admits (window : ChannelWindowStore) (event : RelayEvent) : Bool :=
  !hasPageRow window event && !belowOldest window event

/-- A live event of the open channel. -/
def appendMessage (caches : MessageCaches) (event : RelayEvent) : MessageCaches :=
  if event.kind ∉ channelTimelineContentKinds then caches
  else if (getThreadReference event.tags).parentId.isSome then
    match truthy (getThreadReference event.tags).rootId with
    | some rootId => caches.updateThread rootId fun current => mergeMessages current event
    | none => caches
  else if caches.window.admits event then
    projectChannelWindowMessages
      { caches with window := mergeLiveChannelWindowEvent caches.window event true }
  else caches

theorem appendMessage_reply (caches : MessageCaches) {event : RelayEvent}
    (hkind : event.kind = kindStreamMessage)
    (hreply : (getThreadReference event.tags).parentId.isSome = true) :
    appendMessage caches event =
      match truthy (getThreadReference event.tags).rootId with
      | some rootId => caches.updateThread rootId fun current => mergeMessages current event
      | none => caches := by
  have hshown : event.kind ∈ channelTimelineContentKinds := by
    rw [hkind]
    decide
  rw [appendMessage, if_neg (not_not.mpr hshown), if_pos hreply]

theorem appendMessage_timeline (caches : MessageCaches) {event : RelayEvent}
    (hkind : event.kind = kindStreamMessage)
    (hreply : ¬(getThreadReference event.tags).parentId.isSome = true) :
    appendMessage caches event =
      if caches.window.admits event then
        projectChannelWindowMessages
          { caches with window := mergeLiveChannelWindowEvent caches.window event true }
      else caches := by
  have hshown : event.kind ∈ channelTimelineContentKinds := by
    rw [hkind]
    decide
  rw [appendMessage, if_neg (not_not.mpr hshown), if_neg hreply]

/-- A window takes the event into its overlay. -/
theorem mergeLive_of_admits {window : ChannelWindowStore} {event : RelayEvent}
    (h : window.admits event = true) :
    mergeLiveChannelWindowEvent window event true =
      { window with
        liveOverlay := sortEvents compareRelayOrder
          (window.liveOverlay.filter (fun candidate =>
            candidate.id != event.id && candidate.renderKey != event.renderKey) ++ [event]) } := by
  obtain ⟨hpage, hbelow⟩ : hasPageRow window event = false ∧ belowOldest window event = false := by
    simpa [ChannelWindowStore.admits] using h
  rw [mergeLiveChannelWindowEvent, if_neg (by simp), if_neg (by simp [hpage]),
    if_neg (by simp [hbelow])]

/-- The subscription to all channels and the loader of missing ancestors write the timeline
alone. -/
def mergeTimelineMessage (caches : MessageCaches) (event : RelayEvent) : MessageCaches :=
  { caches with messages := mergeMessages caches.messages event }

/-- The end of a query for the newest page, whose timeline was read at its start. -/
def completeWindowQuery (caches : MessageCaches) (previousMessages : List RelayEvent)
    (page : ChannelWindowPage) : Except String MessageCaches := do
  let next ← replaceNewestChannelWindow caches.window page
  return { caches with
    window := next, messages := reconcileChannelWindowMessages next previousMessages }

def runPage (caches : MessageCaches) (page : ChannelWindowPage) : Except String MessageCaches := do
  let next ← appendOlderChannelWindow caches.window page
  return projectChannelWindowMessages { caches with window := next }

/-- What a refetch of a thread leaves: the replies it read, and what came after its start. -/
def completeThreadReplies (idsAtStart : List String) (replies current : List RelayEvent) :
    List RelayEvent :=
  sortMessages (replies ++ current.filter fun event => decide (event.id ∉ idsAtStart))

end Caches

section Sends

/-- An identity always has an agent id: without one no optimistic row is built. -/
structure Identity where
  agentId : String
  present : agentId ≠ ""

def selfIdentity : Identity := ⟨"self", by decide⟩

structure SendVariables where
  content : String
  mentionPubkeys : List String
  parentEventId : Option String
  mediaTags : List (List String)

structure MessageQueryContext where
  optimisticId : String
  threadRootId : Option String
  deriving DecidableEq, Repr

variable (channelId : String) (identity : Identity)

def optimisticTags (currentMessages : List RelayEvent) (send : SendVariables) :
    List (List JsonText.Value) :=
  match truthy send.parentEventId with
  | some parentEventId =>
      buildReplyTags channelId identity.agentId parentEventId
        (resolveReplyRootId parentEventId currentMessages) send.mentionPubkeys
  | none =>
      textTag ["h", channelId] :: textTag ["p", identity.agentId] ::
        (normalizeMentionPubkeys send.mentionPubkeys identity.agentId).map fun pubkey =>
          textTag ["p", pubkey]

/-- `uuid` is random and `now` the time in milliseconds. -/
def createOptimisticMessage (uuid : String) (now : ℤ) (currentMessages : List RelayEvent)
    (send : SendVariables) : RelayEvent :=
  { id := "optimistic-" ++ uuid
    localKey := some ("optimistic-" ++ uuid)
    pubkey := identity.agentId
    createdAt := now / 1000
    kind := kindStreamMessage
    tags := optimisticTags channelId identity currentMessages send ++ send.mediaTags.map textTag
    content := WebText.trim send.content
    sig := ""
    pending := true }

/-- The thread that an optimistic row belongs to. -/
def threadRootOf (optimisticMessage : RelayEvent) : Option String :=
  if (getThreadReference optimisticMessage.tags).parentId.isSome then
    (getThreadReference optimisticMessage.tags).rootId
  else none

/-- The optimistic row goes into the window, and a reply into its thread as well. -/
def insertOptimistic (caches : MessageCaches) (optimisticMessage : RelayEvent) : MessageCaches :=
  let projected := projectChannelWindowMessages
    { caches with window := mergeLiveChannelWindowEvent caches.window optimisticMessage true }
  match truthy (threadRootOf optimisticMessage) with
  | some rootId => projected.updateThread rootId fun current =>
      mergeMessages current optimisticMessage
  | none => projected

def onMutate (uuid : String) (now : ℤ) (caches : MessageCaches) (send : SendVariables) :
    MessageCaches × MessageQueryContext :=
  let optimisticMessage :=
    createOptimisticMessage channelId identity uuid now caches.messages send
  (insertOptimistic caches optimisticMessage,
    ⟨optimisticMessage.id, threadRootOf optimisticMessage⟩)

/-- The ancestry that a send carries, from the timeline at the time of the send. -/
def sendThreadRoot (currentMessages : List RelayEvent) (send : SendVariables) : Option String :=
  (truthy send.parentEventId).map fun threadParent =>
    resolveReplyRootId threadParent currentMessages

/-- The row of a message that was sent: under its canonical id in a group, where the daemon gives
one, and under the client id in a direct conversation. -/
def sendNativeMessage (content : String) (mentionAgentIds : List String)
    (threadRoot threadParent : Option String) (clientId : String) (createdAt : ℤ)
    (canonicalId : Option String) : RelayEvent :=
  { id := canonicalId.getD clientId
    localKey := some clientId
    pubkey := identity.agentId
    createdAt := createdAt / 1000
    kind := kindStreamMessage
    tags := textTag ["h", channelId] :: textTag ["p", identity.agentId] ::
      ((mentionAgentIds.filter fun agentId => agentId ≠ identity.agentId).map
        (fun agentId => textTag ["p", agentId]) ++ ancestryTags threadRoot threadParent)
    content := WebText.trim content
    sig := ""
    pending := false }

def rollbackOptimisticMessageCache (caches : MessageCaches) (context : MessageQueryContext) :
    MessageCaches :=
  let dropped : MessageCaches :=
    { caches with
      messages := caches.messages.filter fun event => !eventIsOptimistic event context.optimisticId
      window := removeOptimisticFromWindow caches.window context.optimisticId }
  match truthy context.threadRootId with
  | some rootId =>
      dropped.updateThread rootId fun current =>
        current.filter fun event => !eventIsOptimistic event context.optimisticId
  | none => dropped

def onSuccess (caches : MessageCaches) (context : MessageQueryContext) (message : RelayEvent) :
    MessageCaches :=
  let projected := projectChannelWindowMessages
    { caches with
      window := acknowledgeOptimisticChannelWindowMessage caches.window message
        context.optimisticId }
  match truthy context.threadRootId with
  | some rootId =>
      projected.updateThread rootId fun current =>
        mergeMessages (current.filter fun event => event.id != context.optimisticId) message
  | none => projected

section Writes

variable {caches : MessageCaches} {message : RelayEvent} {context : MessageQueryContext}
  {rootId : String}

theorem insertOptimistic_window :
    (insertOptimistic caches message).window =
      mergeLiveChannelWindowEvent caches.window message true := by
  unfold insertOptimistic
  split
  · rfl
  · rfl

theorem insertOptimistic_messages :
    (insertOptimistic caches message).messages =
      reconcileChannelWindowMessages (mergeLiveChannelWindowEvent caches.window message true)
        caches.messages := by
  unfold insertOptimistic
  split
  · rfl
  · rfl

theorem updateThread_threads (update : List RelayEvent → List RelayEvent) (root : String) :
    (caches.updateThread root update).threads rootId =
      if root = rootId then update (caches.threads rootId) else caches.threads rootId := by
  unfold MessageCaches.updateThread
  by_cases heq : root = rootId
  · subst heq
    simp
  · simp [heq, Function.update_of_ne (Ne.symm heq)]

theorem insertOptimistic_threads :
    (insertOptimistic caches message).threads rootId =
      if truthy (threadRootOf message) = some rootId then
        mergeMessages (caches.threads rootId) message
      else caches.threads rootId := by
  unfold insertOptimistic
  cases truthy (threadRootOf message) with
  | none => simp [projectChannelWindowMessages]
  | some root => simp [updateThread_threads, projectChannelWindowMessages]

theorem rollback_window :
    (rollbackOptimisticMessageCache caches context).window =
      removeOptimisticFromWindow caches.window context.optimisticId := by
  unfold rollbackOptimisticMessageCache
  split
  · rfl
  · rfl

theorem rollback_messages :
    (rollbackOptimisticMessageCache caches context).messages =
      caches.messages.filter fun event => !eventIsOptimistic event context.optimisticId := by
  unfold rollbackOptimisticMessageCache
  split
  · rfl
  · rfl

theorem rollback_threads :
    (rollbackOptimisticMessageCache caches context).threads rootId =
      if truthy context.threadRootId = some rootId then
        (caches.threads rootId).filter fun event => !eventIsOptimistic event context.optimisticId
      else caches.threads rootId := by
  unfold rollbackOptimisticMessageCache
  cases truthy context.threadRootId with
  | none => simp
  | some root => simp [updateThread_threads]

theorem onSuccess_window :
    (onSuccess caches context message).window =
      acknowledgeOptimisticChannelWindowMessage caches.window message context.optimisticId := by
  unfold onSuccess
  split
  · rfl
  · rfl

theorem onSuccess_messages :
    (onSuccess caches context message).messages =
      reconcileChannelWindowMessages
        (acknowledgeOptimisticChannelWindowMessage caches.window message context.optimisticId)
        caches.messages := by
  unfold onSuccess
  split
  · rfl
  · rfl

theorem onSuccess_threads :
    (onSuccess caches context message).threads rootId =
      if truthy context.threadRootId = some rootId then
        mergeMessages ((caches.threads rootId).filter fun event => event.id != context.optimisticId)
          message
      else caches.threads rootId := by
  unfold onSuccess
  cases truthy context.threadRootId with
  | none => simp [projectChannelWindowMessages]
  | some root => simp [updateThread_threads, projectChannelWindowMessages]

end Writes

end Sends

end Buzz.Messages
