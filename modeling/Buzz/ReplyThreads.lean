import Buzz.MessageRoutes

/-!
# The thread of a reply

A reply is sent from the panel of a thread. Its root is read off the timeline of the channel, where
replies stand on some paths only, so it is the root of the panel exactly when the timeline knows the
parent as a reply of that thread, or the parent is the root.
-/

namespace Buzz.Messages

section Resolution

/-- The timeline knows the parent as a reply of the thread, or the parent is the root itself and the
timeline does not know it as a reply. -/
def Rooted (messages : List RelayEvent) (parentId rootId : String) : Prop :=
  (∃ parent, messages.find? (fun event => event.id == parentId) = some parent ∧
    (getThreadReference parent.tags).rootId = some rootId) ∨
  (parentId = rootId ∧ ∀ parent, messages.find? (fun event => event.id == parentId) = some parent →
    (getThreadReference parent.tags).rootId = none)

theorem resolveReplyRootId_eq_iff {messages : List RelayEvent} {parentId rootId : String} :
    resolveReplyRootId parentId messages = rootId ↔ Rooted messages parentId rootId := by
  unfold resolveReplyRootId Rooted
  cases hfind : messages.find? fun event => event.id == parentId with
  | none => simp
  | some parent =>
      have hid : parent.id = parentId := by simpa using List.find?_some hfind
      cases hroot : (getThreadReference parent.tags).rootId with
      | none => simp [hroot, hid]
      | some root => simp [hroot]

end Resolution

section Runs

/-- What the composer of a thread panel replies to. -/
structure ReplyTarget where
  parentId : String
  rootId : String
  parent_present : parentId ≠ ""
  root_present : rootId ≠ ""

/-- A send that has not settled; `request` is the root that it carries, once it is on its way. -/
structure OpenSend where
  input : SendVariables
  target : Option ReplyTarget
  context : MessageQueryContext
  request : Option (Option String)

structure ChannelState where
  caches : MessageCaches
  sends : List OpenSend

/-- What can happen to the caches of a channel. -/
inductive ChannelStep where
  | windowLoaded (previousMessages : List RelayEvent) (page : ChannelWindowPage)
  | olderLoaded (page : ChannelWindowPage)
  | threadLoaded (rootId : String) (idsAtStart : List String) (replies : List RelayEvent)
  | live (event : RelayEvent)
  | timelineMessage (event : RelayEvent)
  | post (uuid : String) (now : ℤ) (content : String) (mentionPubkeys : List String)
      (mediaTags : List (List String))
  | reply (uuid : String) (now : ℤ) (content : String) (mentionPubkeys : List String)
      (mediaTags : List (List String)) (target : ReplyTarget)
  | request (index : ℕ)
  | acknowledged (index : ℕ) (mentionAgentIds : List String) (clientId : String) (createdAt : ℤ)
      (canonicalId : Option String)
  | failed (index : ℕ)

variable (channelId : String) (identity : Identity)

/-- A mutation begins. -/
def ChannelState.mutate (state : ChannelState) (uuid : String) (now : ℤ) (send : SendVariables)
    (target : Option ReplyTarget) : ChannelState :=
  let (caches, context) := onMutate channelId identity uuid now state.caches send
  ⟨caches, state.sends ++ [⟨send, target, context, none⟩]⟩

/-- The row that the daemon's answer gives for a send. -/
def OpenSend.sent (send : OpenSend) (threadRoot : Option String) (mentionAgentIds : List String)
    (clientId : String) (createdAt : ℤ) (canonicalId : Option String) : RelayEvent :=
  sendNativeMessage channelId identity send.input.content mentionAgentIds threadRoot
    send.input.parentEventId clientId createdAt canonicalId

def ChannelState.perform (state : ChannelState) : ChannelStep → ChannelState
  | .windowLoaded previousMessages page =>
      match completeWindowQuery state.caches previousMessages page with
      | .ok caches => { state with caches := caches }
      | .error _ => state
  | .olderLoaded page =>
      match runPage state.caches page with
      | .ok caches => { state with caches := caches }
      | .error _ => state
  | .threadLoaded rootId idsAtStart replies =>
      { state with
        caches := state.caches.updateThread rootId (completeThreadReplies idsAtStart replies) }
  | .live event => { state with caches := appendMessage state.caches event }
  | .timelineMessage event => { state with caches := mergeTimelineMessage state.caches event }
  | .post uuid now content mentionPubkeys mediaTags =>
      state.mutate channelId identity uuid now ⟨content, mentionPubkeys, none, mediaTags⟩ none
  | .reply uuid now content mentionPubkeys mediaTags target =>
      state.mutate channelId identity uuid now
        ⟨content, mentionPubkeys, some target.parentId, mediaTags⟩ (some target)
  | .request index =>
      { state with
        sends := state.sends.modify index fun send =>
          { send with request := some (sendThreadRoot state.caches.messages send.input) } }
  | .acknowledged index mentionAgentIds clientId createdAt canonicalId =>
      match state.sends[index]? with
      | some send =>
          match send.request with
          | some threadRoot =>
              ⟨onSuccess state.caches send.context (send.sent channelId identity threadRoot
                mentionAgentIds clientId createdAt canonicalId), state.sends.eraseIdx index⟩
          | none => state
      | none => state
  | .failed index =>
      match state.sends[index]? with
      | some send =>
          ⟨rollbackOptimisticMessageCache state.caches send.context, state.sends.eraseIdx index⟩
      | none => state

/-- The ancestry puts the message into the thread on both paths: the live echo is merged there, and
a scan of the history for the root returns the row. -/
def Ancestral (threadRoot threadParent : Option String) (rootId : String) : Prop :=
  (∀ now (msg : X0xLiveMessage) event, msg.threadRoot = threadRoot →
    msg.threadParent = threadParent → liveMessageToRelayEvent now channelId msg = .ok (some event) →
      LivePlace event (.thread rootId)) ∧
  (∀ now (msg : X0xLiveDirectMessage) event, msg.threadRoot = threadRoot →
    msg.threadParent = threadParent →
    liveDirectMessageToRelayEvent now channelId msg = .ok (some event) →
      LivePlace event (.thread rootId)) ∧
  ∀ now (row : X0xHistoryRow) event, row.threadRoot = threadRoot → row.msgId ≠ rootId →
    historyRowToRelayEvent now channelId row = .ok (some event) →
      HistoryPlace now channelId row event (.thread rootId)

/-- The step leaves the reply in the thread of its panel. -/
def KeepsThread (state : ChannelState) : ChannelStep → Prop
  | .reply uuid now content mentionPubkeys mediaTags target =>
      ∃ held ∈ (state.perform channelId identity
          (.reply uuid now content mentionPubkeys mediaTags target)).caches.threads target.rootId,
        held.id = "optimistic-" ++ uuid
  | .request index =>
      ∀ send target, state.sends[index]? = some send → send.target = some target →
        sendThreadRoot state.caches.messages send.input = some target.rootId ∧
          Ancestral channelId (sendThreadRoot state.caches.messages send.input)
            send.input.parentEventId target.rootId
  | .acknowledged index mentionAgentIds clientId createdAt canonicalId =>
      ∀ send target threadRoot, state.sends[index]? = some send → send.target = some target →
        send.request = some threadRoot →
          ∃ held ∈ (state.perform channelId identity (.acknowledged index mentionAgentIds clientId
              createdAt canonicalId)).caches.threads target.rootId,
            held.id = canonicalId.getD clientId
  | _ => True

/-- What the step has to meet: the timeline knows the thread of the parent, both when the row is
inserted and when the message goes out. -/
def ThreadKnown (state : ChannelState) : ChannelStep → Prop
  | .reply _ _ _ _ mediaTags target =>
      Rooted state.caches.messages target.parentId target.rootId ∧
        ∀ tag ∈ mediaTags, tag.head? ≠ some "e"
  | .request index =>
      ∀ send target, state.sends[index]? = some send → send.target = some target →
        Rooted state.caches.messages target.parentId target.rootId
  | _ => True

def ThreadKnownRun (state : ChannelState) : List ChannelStep → Prop
  | [] => True
  | step :: rest =>
      ThreadKnown state step ∧ ThreadKnownRun (state.perform channelId identity step) rest

def KeepsThreadRun (state : ChannelState) : List ChannelStep → Prop
  | [] => True
  | step :: rest =>
      KeepsThread channelId identity state step ∧
        KeepsThreadRun (state.perform channelId identity step) rest

/-- Every open reply is kept under the root of its panel, and names its parent. -/
def RepliesRooted (state : ChannelState) : Prop :=
  ∀ send ∈ state.sends, ∀ target, send.target = some target →
    send.context.threadRootId = some target.rootId ∧
      send.input.parentEventId = some target.parentId

end Runs

section Keeping

variable {channelId : String} {identity : Identity} {state : ChannelState}

theorem getThreadReference_replyTags {authorPubkey parentId rootId : String}
    {mentionPubkeys : List String} {mediaTags : List (List String)}
    (hmedia : ∀ tag ∈ mediaTags, tag.head? ≠ some "e") :
    getThreadReference (buildReplyTags channelId authorPubkey parentId rootId mentionPubkeys ++
      mediaTags.map textTag) = ⟨some parentId, some rootId⟩ := by
  have hfront : getEventTags ([textTag ["p", authorPubkey], textTag ["h", channelId]] ++
      (normalizeMentionPubkeys mentionPubkeys authorPubkey).map fun pubkey =>
        textTag ["p", pubkey]) = [] := by
    rw [getEventTags_append]
    have hmentions := getEventTags_textTags "p" (by decide)
      (normalizeMentionPubkeys mentionPubkeys authorPubkey) fun pubkey => [.string pubkey]
    have hhead : getEventTags [textTag ["p", authorPubkey], textTag ["h", channelId]] = [] := by
      simp [getEventTags, textTag, tagText]
    rw [hhead]
    exact hmentions
  have hback : getEventTags (mediaTags.map textTag) = [] := by
    apply getEventTags_eq_nil
    intro tag htag
    obtain ⟨parts, hparts, rfl⟩ := List.mem_map.mp htag
    have hother := hmedia parts hparts
    cases parts with
    | nil => simp [textTag, tagText]
    | cons first rest =>
        intro heq
        apply hother
        simpa [textTag, tagText] using heq
  unfold buildReplyTags getThreadReference
  rw [getEventTags_append, hback, List.append_nil, getEventTags_append, hfront, List.nil_append]
  by_cases heq : parentId = rootId
  · rw [if_pos heq, heq]
    simp [getEventTags, textTag, tagText]
  · rw [if_neg heq]
    simp [getEventTags, textTag, tagText]

/-- A reply to a parent that the timeline knows belongs to the thread of the panel. -/
theorem threadRootOf_reply {uuid : String} {now : ℤ} {send : SendVariables}
    {messages : List RelayEvent} {target : ReplyTarget}
    (hparent : send.parentEventId = some target.parentId)
    (hrooted : Rooted messages target.parentId target.rootId)
    (hmedia : ∀ tag ∈ send.mediaTags, tag.head? ≠ some "e") :
    threadRootOf (createOptimisticMessage channelId identity uuid now messages send) =
      some target.rootId := by
  have hroot := resolveReplyRootId_eq_iff.mpr hrooted
  have hreference : getThreadReference
      (createOptimisticMessage channelId identity uuid now messages send).tags =
        ⟨some target.parentId, some target.rootId⟩ := by
    simp only [createOptimisticMessage, optimisticTags, hparent, truthy_some target.parent_present,
      hroot]
    exact getThreadReference_replyTags hmedia
  rw [threadRootOf, hreference]
  rfl

theorem ancestral_of_target (target : ReplyTarget) :
    Ancestral channelId (some target.rootId) (some target.parentId) target.rootId := by
  have hroute : liveRoute (ancestryReference (some target.rootId) (some target.parentId)) =
      some (.thread target.rootId) := by
    simp [liveRoute, ancestryReference, truthy_some target.root_present,
      truthy_some target.parent_present]
  refine ⟨?_, ?_, ?_⟩
  · intro now msg event hroot hparent hevent
    unfold liveMessageToRelayEvent at hevent
    split at hevent
    · cases hevent
    obtain ⟨tags, htags, h⟩ := except_bind_ok hevent
    cases h
    apply (livePlace_iff rfl _).mpr
    rw [buildAdapterTags_reference htags, hroot, hparent, hroute]
  · intro now msg event hroot hparent hevent
    unfold liveDirectMessageToRelayEvent at hevent
    split at hevent
    · cases hevent
    obtain ⟨tags, htags, h⟩ := except_bind_ok hevent
    cases h
    apply (livePlace_iff rfl _).mpr
    rw [buildAdapterTags_reference htags, hroot, hparent, hroute]
  · intro now row event hroot hother hevent
    apply (historyPlace_iff hevent _).mpr
    have htop : row.isTopLevel = false := by
      simp [X0xHistoryRow.isTopLevel, hroot, Ne.symm hother]
    simp [historyRoute, htop, hroot]

theorem keepsThread_of_known (hrooted : RepliesRooted state) {step : ChannelStep}
    (hknown : ThreadKnown state step) : KeepsThread channelId identity state step := by
  cases step with
  | reply uuid now content mentionPubkeys mediaTags target =>
      obtain ⟨hroot, hmedia⟩ := hknown
      have hthread : threadRootOf (createOptimisticMessage channelId identity uuid now
          state.caches.messages ⟨content, mentionPubkeys, some target.parentId, mediaTags⟩) =
            some target.rootId := threadRootOf_reply rfl hroot hmedia
      change ∃ held ∈ (insertOptimistic state.caches _).threads target.rootId, _
      rw [insertOptimistic_threads, hthread, if_pos (truthy_some target.root_present)]
      exact incoming_mem_mergeMessages _ _
  | request index =>
      intro send target hsend htarget
      have hparent := (hrooted send (List.mem_of_getElem? hsend) target htarget).2
      have hroot : sendThreadRoot state.caches.messages send.input = some target.rootId := by
        rw [sendThreadRoot, hparent, truthy_some target.parent_present, Option.map_some,
          resolveReplyRootId_eq_iff.mpr (hknown send target hsend htarget)]
      refine ⟨hroot, ?_⟩
      rw [hroot, hparent]
      exact ancestral_of_target target
  | acknowledged index mentionAgentIds clientId createdAt canonicalId =>
      intro send target threadRoot hsend htarget hrequest
      have hcontext := (hrooted send (List.mem_of_getElem? hsend) target htarget).1
      simp only [ChannelState.perform, hsend, hrequest]
      rw [onSuccess_threads, hcontext, if_pos (truthy_some target.root_present)]
      exact incoming_mem_mergeMessages _ _
  | _ => trivial

theorem RepliesRooted.caches (h : RepliesRooted state) (caches : MessageCaches) :
    RepliesRooted { state with caches := caches } :=
  h

theorem RepliesRooted.mutate (h : RepliesRooted state) {uuid : String} {now : ℤ}
    {send : SendVariables} {target : Option ReplyTarget}
    (hnew : ∀ found, target = some found → send.parentEventId = some found.parentId ∧
      threadRootOf (createOptimisticMessage channelId identity uuid now state.caches.messages
        send) =
        some found.rootId) :
    RepliesRooted (state.mutate channelId identity uuid now send target) := by
  intro other hother found hfound
  rcases List.mem_append.mp hother with hother | hother
  · exact h other hother found hfound
  · obtain rfl := List.mem_singleton.mp hother
    exact (hnew found hfound).symm

theorem RepliesRooted.perform (h : RepliesRooted state) {step : ChannelStep}
    (hknown : ThreadKnown state step) :
    RepliesRooted (state.perform channelId identity step) := by
  cases step with
  | windowLoaded previousMessages page | olderLoaded page =>
      simp only [ChannelState.perform]
      split
      · exact h.caches _
      · exact h
  | threadLoaded rootId idsAtStart replies | live event | timelineMessage event => exact h.caches _
  | post uuid now content mentionPubkeys mediaTags => exact h.mutate fun _ hnone => nomatch hnone
  | reply uuid now content mentionPubkeys mediaTags target =>
      apply h.mutate
      intro found hfound
      cases hfound
      exact ⟨rfl, threadRootOf_reply rfl hknown.1 hknown.2⟩
  | request index =>
      intro send hsend target htarget
      simp only [ChannelState.perform] at hsend
      obtain ⟨place, hplace⟩ := List.mem_iff_getElem?.mp hsend
      rw [List.getElem?_modify] at hplace
      split_ifs at hplace
      · obtain ⟨old, hold, rfl⟩ := Option.map_eq_some_iff.mp hplace
        exact h old (List.mem_of_getElem? hold) target htarget
      · have hold : state.sends[place]? = some send := by simpa using hplace
        exact h send (List.mem_of_getElem? hold) target htarget
  | acknowledged index mentionAgentIds clientId createdAt canonicalId =>
      simp only [ChannelState.perform]
      split
      · split
        · exact fun send hsend => h send (List.mem_of_mem_eraseIdx hsend)
        · exact h
      · exact h
  | failed index =>
      simp only [ChannelState.perform]
      split
      · exact fun send hsend => h send (List.mem_of_mem_eraseIdx hsend)
      · exact h

theorem keepsThreadRun_of_known (steps : List ChannelStep) :
    ∀ {state : ChannelState}, RepliesRooted state → ThreadKnownRun channelId identity state steps →
      KeepsThreadRun channelId identity state steps := by
  induction steps with
  | nil => exact fun _ _ => trivial
  | cons step rest ih =>
      intro state hrooted hknown
      exact ⟨keepsThread_of_known hrooted hknown.1, ih (hrooted.perform hknown.1) hknown.2⟩

/-- The root `m1` of a thread, as a page of the window, and the reply `m2` to it. -/
def rootPage : ChannelWindowPage := pageOf [peerEvent "m1" "c1" 1]

def nestedReply : RelayEvent :=
  ⟨"m2", some "c2", "peer", 2, kindStreamMessage, [textTag ["e", "m1", "", "root"],
    textTag ["e", "m1", "", "reply"]], "hi", "", false⟩

def nestedTarget : ReplyTarget := ⟨"m2", "m1", by decide, by decide⟩

/-- The window loads the root, the panel its reply: the timeline does not know the reply. -/
def panelOpened : List ChannelStep :=
  [.windowLoaded [] rootPage, .threadLoaded "m1" [] [nestedReply]]

/-- The ids of a list of events. -/
def eventIds (events : List RelayEvent) : List String :=
  events.map RelayEvent.id

def rootTarget : ReplyTarget := ⟨"m1", "m1", by decide, by decide⟩

/-- A reply to the root that the window shows, sent and acknowledged. -/
def rootReplied : List ChannelStep :=
  [.windowLoaded [] rootPage, .reply "u1" 3000 "hi" [] [] rootTarget, .request 0,
    .acknowledged 0 [] "c3" 3000 (some "m3")]

end Keeping

end Buzz.Messages
