import Buzz.MessageCaches

/-!
# Where a message belongs

The live path reads the thread of a message off the tags it rebuilds, the history path compares the
root that the daemon gives with the id of the message. The two agree on a message without
ancestry, on a root that names no parent, and on a reply that names both its root and its parent.
-/

namespace Buzz.Messages

open DoubleRounding JsonText

section Ancestry

variable {threadRoot threadParent author : Option String}

/-- The reference that is read back from the tags of an ancestry. -/
def ancestryReference (threadRoot threadParent : Option String) : ThreadReference :=
  match truthy threadRoot, truthy threadParent with
  | some root, some parent => ⟨some parent, some root⟩
  | _, _ => ⟨none, none⟩

theorem getEventTags_append (front rest : List (List Value)) :
    getEventTags (front ++ rest) = getEventTags front ++ getEventTags rest :=
  List.filter_append front rest

theorem getEventTags_eq_nil {tags : List (List Value)}
    (h : ∀ tag ∈ tags, tagText tag 0 ≠ some "e") : getEventTags tags = [] := by
  apply List.filter_eq_nil_iff.mpr
  intro tag htag
  simp [h tag htag]

theorem getEventTags_textTags {α : Type} (name : String) (hname : name ≠ "e") (values : List α)
    (rest : α → List Value) :
    getEventTags (values.map fun value => .string name :: rest value) = [] := by
  apply getEventTags_eq_nil
  intro tag htag
  obtain ⟨value, -, rfl⟩ := List.mem_map.mp htag
  simpa [tagText] using hname

/-- Tags of other kinds in front of an ancestry do not count. -/
theorem getThreadReference_ancestry {front : List (List Value)} (hfront : getEventTags front = []) :
    getThreadReference (front ++ ancestryTags threadRoot threadParent) =
      ancestryReference threadRoot threadParent := by
  unfold getThreadReference
  rw [getEventTags_append, hfront, List.nil_append]
  unfold ancestryTags ancestryReference
  cases truthy threadRoot with
  | none => rfl
  | some root =>
      cases truthy threadParent with
      | none | some parent => simp [getEventTags, textTag, tagText]

theorem markerTags_eventTags {markers : List Value} :
    ∀ {tags : List (List Value)}, markerTags markers = .ok tags → getEventTags tags = [] := by
  induction markers with
  | nil =>
      intro tags h
      cases h
      rfl
  | cons marker rest ih =>
      intro tags h
      obtain ⟨first, hfirst, h⟩ := except_bind_ok h
      obtain ⟨others, hothers, h⟩ := except_bind_ok h
      cases h
      rw [getEventTags_append, ih hothers, List.append_nil]
      obtain ⟨⟨text, rfl⟩, -⟩ := markerTag_ok hfirst
      cases hfirst
      split_ifs
      · rfl
      · simp [getEventTags, textTag, tagText]

theorem buildAdapterTags_reference {channelId : String} {envelope : ChannelMessageEnvelope}
    {tags : List (List Value)}
    (h : buildAdapterTags channelId author envelope threadRoot threadParent = .ok tags) :
    getThreadReference tags = ancestryReference threadRoot threadParent := by
  obtain ⟨clients, hclients, h⟩ := except_bind_ok h
  cases h
  rw [← List.cons_append]
  apply getThreadReference_ancestry
  have hhead : getEventTags [textTag ["h", channelId]] =
    [] := by simp [getEventTags, textTag, tagText]
  have hauthor := getEventTags_textTags "p" (by decide) (truthy author).toList
    fun agentId => [.string agentId]
  have hmentions := getEventTags_textTags "p" (by decide)
    ((envelope.mentions.getD []).filter fun agentId => !isAuthor author agentId)
    fun agentId => [agentId]
  rw [← List.singleton_append, getEventTags_append, getEventTags_append, getEventTags_append, hhead,
    markerTags_eventTags hclients, List.append_nil, List.nil_append]
  exact (congrArg₂ (· ++ ·) hauthor hmentions).trans (List.append_nil _)

end Ancestry

section Places

variable {event : RelayEvent} {row : X0xHistoryRow} {now : ℤ} {channelId rootId : String}

/-- The place of a message: the timeline of the channel or the replies to a root. -/
inductive Place where
  | timeline
  | thread (rootId : String)
  deriving DecidableEq, Repr

/-- The live path puts the event there: into the timeline of any window that takes it, or into the
replies of the root, whatever the caches hold. -/
def LivePlace (event : RelayEvent) : Place → Prop
  | .timeline => ∀ caches : MessageCaches, caches.window.admits event = true →
      ∃ shown ∈ (appendMessage caches event).messages, shown.id = event.id
  | .thread rootId => ∀ caches : MessageCaches,
      ∃ reply ∈ (appendMessage caches event).threads rootId, reply.id = event.id

/-- The row stands on a page that a scan reaches from the cursor. -/
inductive Scanned (list : Option ℤ → X0xHistoryPage) (row : X0xHistoryRow) : Option ℤ → Prop
  | here {beforeId : Option ℤ} : row ∈ (list beforeId).rows → Scanned list row beforeId
  | older {beforeId : Option ℤ} {cursor : ℤ} : (list beforeId).nextCursor = some cursor →
      Scanned list row (some cursor) → Scanned list row beforeId

/-- The history path puts the event there: onto each page that is built from the row, or among the
replies of each scan that comes by it. -/
def HistoryPlace (now : ℤ) (channelId : String) (row : X0xHistoryRow) (event : RelayEvent) :
    Place → Prop
  | .timeline => ∀ page startCursor out, row ∈ page.rows →
      nativeHistoryPageToChannelWindowPage now channelId page startCursor = .ok out →
        ∃ shown ∈ out.rows, shown.event = event
  | .thread rootId => ∀ list localeCompare replies, Scanned list row none →
      fetchNativeThreadReplies now channelId list localeCompare rootId = .ok replies →
        event ∈ replies

def liveRoute (reference : ThreadReference) : Option Place :=
  if reference.parentId.isSome then (truthy reference.rootId).map .thread else some .timeline

def historyRoute (row : X0xHistoryRow) : Option Place :=
  if row.isTopLevel then some .timeline else row.threadRoot.map .thread

theorem emptyWindow_admits (event : RelayEvent) : emptyMessageCaches.window.admits event = true :=
  rfl

theorem livePlace_iff (hkind : event.kind = kindStreamMessage) (place : Place) :
    LivePlace event place ↔ liveRoute (getThreadReference event.tags) = some place := by
  unfold liveRoute
  by_cases hreply : (getThreadReference event.tags).parentId.isSome = true
  · have happend := fun caches => appendMessage_reply caches hkind hreply
    rw [if_pos hreply]
    cases htruthy : truthy (getThreadReference event.tags).rootId with
    | none =>
        refine iff_of_false ?_ (by simp)
        intro h
        cases place with
        | timeline =>
            obtain ⟨shown, hmem, -⟩ := h emptyMessageCaches (emptyWindow_admits event)
            rw [happend, htruthy] at hmem
            cases hmem
        | thread rootId =>
            obtain ⟨reply, hmem, -⟩ := h emptyMessageCaches
            rw [happend, htruthy] at hmem
            cases hmem
    | some found =>
        rw [Option.map_some, Option.some.injEq]
        constructor
        · intro h
          cases place with
          | timeline =>
              obtain ⟨shown, hmem, -⟩ := h emptyMessageCaches (emptyWindow_admits event)
              rw [happend, htruthy] at hmem
              cases hmem
          | thread rootId =>
              obtain ⟨reply, hmem, -⟩ := h emptyMessageCaches
              rw [happend, htruthy] at hmem
              by_cases heq : rootId = found
              · rw [heq]
              · simp [MessageCaches.updateThread, Function.update_of_ne heq, emptyMessageCaches]
                  at hmem
        · rintro rfl caches
          rw [happend, htruthy]
          simp only [MessageCaches.updateThread, Function.update_self]
          exact incoming_mem_mergeMessages (caches.threads found) event
  · have happend := fun caches => appendMessage_timeline caches hkind hreply
    rw [if_neg hreply, Option.some.injEq]
    constructor
    · intro h
      cases place with
      | timeline => rfl
      | thread rootId =>
          obtain ⟨reply, hmem, -⟩ := h emptyMessageCaches
          rw [happend, if_pos (emptyWindow_admits event)] at hmem
          cases hmem
    · rintro rfl caches hadmits
      rw [happend, if_pos hadmits]
      apply held_mem_projection
      rw [mergeLive_of_admits hadmits]
      simp [ChannelWindowStore.held]

theorem replyEvents_mem (hevent : historyRowToRelayEvent now channelId row = .ok (some event))
    (hreply : row.repliesTo rootId = true) {rows : List X0xHistoryRow} :
    ∀ {replies : List RelayEvent}, row ∈ rows →
      replyEvents now channelId rootId rows = .ok replies → event ∈ replies := by
  induction rows with
  | nil => exact fun h => nomatch h
  | cons first rest ih =>
      intro replies hmem h
      unfold replyEvents at h
      by_cases hfirst : first.repliesTo rootId = true
      · rw [if_pos hfirst] at h
        obtain ⟨found, hfound, h⟩ := except_bind_ok h
        obtain ⟨others, hothers, h⟩ := except_bind_ok h
        cases h
        rcases List.mem_cons.mp hmem with rfl | hmem
        · rw [hevent] at hfound
          cases hfound
          exact List.mem_cons_self
        · exact List.mem_append_right _ (ih hmem hothers)
      · rw [if_neg hfirst] at h
        rcases List.mem_cons.mp hmem with rfl | hmem
        · exact absurd hreply hfirst
        · exact ih hmem h

theorem collectReplies_mem {list : Option ℤ → X0xHistoryPage}
    (hevent : historyRowToRelayEvent now channelId row = .ok (some event))
    (hreply : row.repliesTo rootId = true) {beforeId : Option ℤ}
    (hscanned : Scanned list row beforeId) :
    ∀ {fuel : ℕ} {replies : List RelayEvent},
      collectReplies now channelId list rootId fuel beforeId = .ok replies → event ∈ replies := by
  induction hscanned with
  | here hrow =>
      intro fuel replies h
      cases fuel with
      | zero => cases h
      | succ fuel =>
          obtain ⟨first, hfirst, h⟩ := except_bind_ok h
          have hmem := replyEvents_mem hevent hreply hrow hfirst
          split at h
          · cases h
            exact hmem
          · obtain ⟨older, -, h⟩ := except_bind_ok h
            cases h
            exact List.mem_append_left _ hmem
  | older hcursor _ ih =>
      intro fuel replies h
      cases fuel with
      | zero => cases h
      | succ fuel =>
          obtain ⟨first, -, h⟩ := except_bind_ok h
          rw [hcursor] at h
          obtain ⟨older, holder, h⟩ := except_bind_ok h
          cases h
          exact List.mem_append_right _ (ih holder)

/-- A scan that comes by a reply returns its event. -/
theorem fetch_mem {list : Option ℤ → X0xHistoryPage} {localeCompare : String → String → ℤ}
    {replies : List RelayEvent}
    (hevent : historyRowToRelayEvent now channelId row = .ok (some event))
    (hreply : row.repliesTo rootId = true) (hscanned : Scanned list row none)
    (hfetch : fetchNativeThreadReplies now channelId list localeCompare rootId = .ok replies) :
    event ∈ replies := by
  obtain ⟨found, hfound, h⟩ := except_bind_ok hfetch
  cases h
  rw [mem_sortEvents]
  exact collectReplies_mem hevent hreply hscanned hfound

theorem windowRows_mem {channelId : String}
    {all : List X0xHistoryRow} (hevent : historyRowToRelayEvent now channelId row =
      .ok (some event))
    (htop : row.isTopLevel = true) {rows : List X0xHistoryRow} :
    ∀ {out : List ChannelWindowRow}, row ∈ rows → windowRows now channelId all rows = .ok out →
      ∃ shown ∈ out, shown.event = event := by
  induction rows with
  | nil => exact fun h => nomatch h
  | cons first rest ih =>
      intro out hmem h
      obtain ⟨found, hfound, h⟩ := except_bind_ok h
      obtain ⟨others, hothers, h⟩ := except_bind_ok h
      cases h
      rcases List.mem_cons.mp hmem with rfl | hmem
      · rw [hevent] at hfound
        cases hfound
        exact ⟨⟨event, threadSummary row.msgId all⟩, by simp [windowRow, htop], rfl⟩
      · obtain ⟨shown, hshown, heq⟩ := ih hmem hothers
        exact ⟨shown, List.mem_append_right _ hshown, heq⟩

theorem not_historyPlace_thread (hother : row.repliesTo rootId = false) :
    ¬HistoryPlace now channelId row event (.thread rootId) := by
  have hfetch : fetchNativeThreadReplies now channelId (fun _ => ⟨[row], none⟩) (fun _ _ => 0)
      rootId = .ok [] := by
    simp only [fetchNativeThreadReplies, maxNativeHistoryPages, collectReplies, replyEvents, hother,
      if_neg, Bool.false_eq_true, not_false_eq_true]
    rfl
  intro h
  exact nomatch h (fun _ => ⟨[row], none⟩) (fun _ _ => 0) [] (.here List.mem_cons_self) hfetch

theorem not_historyPlace_timeline {channelId : String}
    (hevent : historyRowToRelayEvent now channelId row = .ok (some event))
    (htop : ¬row.isTopLevel = true) : ¬HistoryPlace now channelId row event .timeline := by
  have hpage : nativeHistoryPageToChannelWindowPage now channelId ⟨[row], none⟩ none =
      .ok ⟨none, windowRow [row] row (some event) ++ [], [], none, false⟩ := by
    simp only [nativeHistoryPageToChannelWindowPage, windowRows, hevent]
    rfl
  intro h
  obtain ⟨shown, hmem, -⟩ := h ⟨[row], none⟩ none _ List.mem_cons_self hpage
  simp [windowRow, htop] at hmem

theorem historyPlace_iff {channelId : String}
    (hevent : historyRowToRelayEvent now channelId row = .ok (some event)) (place : Place) :
    HistoryPlace now channelId row event place ↔ historyRoute row = some place := by
  unfold historyRoute
  by_cases htop : row.isTopLevel = true
  · rw [if_pos htop, Option.some.injEq]
    cases place with
    | timeline =>
        refine iff_of_true ?_ rfl
        intro page startCursor out hrow hout
        obtain ⟨rows, hrows, h⟩ := except_bind_ok hout
        cases h
        exact windowRows_mem hevent htop hrow hrows
    | thread rootId =>
        refine iff_of_false (not_historyPlace_thread ?_) (by simp)
        simp only [X0xHistoryRow.isTopLevel, Bool.or_eq_true, beq_iff_eq] at htop
        rcases htop with hroot | hroot
        · simp [X0xHistoryRow.repliesTo, hroot]
        · by_cases heq : row.msgId = rootId
          · simp [X0xHistoryRow.repliesTo, heq]
          · simp [X0xHistoryRow.repliesTo, hroot, heq]
  · rw [if_neg htop]
    cases place with
    | timeline => exact iff_of_false (not_historyPlace_timeline hevent htop) (by simp)
    | thread rootId =>
        constructor
        · intro h
          by_contra hother
          apply not_historyPlace_thread _ h
          have hroot : row.threadRoot ≠ some rootId := by
            intro hroot
            simp [hroot] at hother
          simp [X0xHistoryRow.repliesTo, hroot]
        · intro h list localeCompare replies hscanned hreplies
          obtain ⟨root, hroot, heq⟩ := Option.map_eq_some_iff.mp h
          cases heq
          have hother : row.msgId ≠ rootId := by
            intro heq
            simp [X0xHistoryRow.isTopLevel, hroot, heq] at htop
          have hreply : row.repliesTo rootId = true := by
            simp [X0xHistoryRow.repliesTo, hroot, hother]
          exact fetch_mem hevent hreply hscanned hreplies

end Places

section Agreement

variable {now later : ℤ} {channelId : String} {msg : X0xLiveMessage} {row : X0xHistoryRow}
  {envelope : ChannelMessageEnvelope}

/-- The live frame and the history row of one message. -/
structure SameMessage (msg : X0xLiveMessage) (row : X0xHistoryRow) : Prop where
  msgId : msg.msgId = some row.msgId
  payload : msg.payload = row.payload
  author : msg.origin = row.authorAgent
  threadRoot : msg.threadRoot = row.threadRoot
  threadParent : msg.threadParent = row.threadParent

/-- Both paths give the message one id, key, content and tags, and put it in the same place. -/
def Agree (now later : ℤ) (channelId : String) (msg : X0xLiveMessage) (row : X0xHistoryRow) :
    Prop :=
  ∃ live history, liveMessageToRelayEvent now channelId msg = .ok (some live) ∧
    historyRowToRelayEvent later channelId row = .ok (some history) ∧
    (live.id = history.id ∧ live.localKey = history.localKey ∧ live.content = history.content ∧
      live.tags = history.tags) ∧
    (∃ place, LivePlace live place) ∧
    ∀ place, LivePlace live place ↔ HistoryPlace later channelId row history place

/-- No ancestry; a root that names no parent; or a reply that names its root and its parent. -/
def X0xHistoryRow.PlainAncestry (row : X0xHistoryRow) : Prop :=
  match row.threadRoot with
  | none => True
  | some root =>
      if root = row.msgId then root = "" ∨ truthy row.threadParent = none
      else root ≠ "" ∧ (truthy row.threadParent).isSome = true

/-- What the message has to meet. -/
structure Placeable (envelope : ChannelMessageEnvelope) (row : X0xHistoryRow) : Prop where
  markers : ∀ marker ∈ envelope.markers.getD [], IsText marker
  rendered : isRenderableType row.contentType = true
  identified : row.msgId ≠ "" ∨ envelope.clientId = ""
  ancestry : row.PlainAncestry

theorem truthy_eq_none {value : Option String} :
    truthy value = none ↔ value = none ∨ value = some "" := by
  cases value with
  | none => simp [truthy]
  | some text =>
      by_cases h : text = ""
      · simp [truthy, h]
      · simp [truthy, h, Option.filter]

theorem truthy_some {text : String} (h : text ≠ "") : truthy (some text) = some text := by
  simp [truthy, Option.filter, h]

theorem routes_agree_iff :
    (∃ place, liveRoute (ancestryReference row.threadRoot row.threadParent) = some place ∧
      historyRoute row = some place) ↔ row.PlainAncestry := by
  unfold X0xHistoryRow.PlainAncestry historyRoute X0xHistoryRow.isTopLevel
  cases hroot : row.threadRoot with
  | none =>
      refine iff_of_true ⟨.timeline, ?_, by simp⟩ trivial
      simp [liveRoute, ancestryReference, truthy]
  | some root =>
      simp only [reduceCtorEq, beq_iff_eq, Option.some.injEq, Bool.or_eq_true, false_or,
        Option.map_some]
      by_cases hempty : root = ""
      · have hlive : liveRoute (ancestryReference (some root) row.threadParent) =
            some .timeline := by
          simp [liveRoute, ancestryReference, truthy, hempty]
        rw [hlive]
        split_ifs with hself
        · simp [hempty]
        · simp [hempty]
      · cases hparent : truthy row.threadParent with
        | none =>
            have hlive : liveRoute (ancestryReference (some root) row.threadParent) =
                some .timeline := by
              simp [liveRoute, ancestryReference, hparent]
            rw [hlive]
            split_ifs with hself
            · simp
            · simp
        | some parent =>
            have hlive : liveRoute (ancestryReference (some root) row.threadParent) =
                some (.thread root) := by
              simp [liveRoute, ancestryReference, hparent, truthy_some hempty]
            rw [hlive]
            split_ifs with hself
            · simp [hempty]
            · simp [hempty]

/-- The time of the call is read for a missing date only. -/
theorem decode_later (h : decodeChannelMessageEnvelope now row.payload = some envelope)
    (later : ℤ) :
    ∃ createdAt, decodeChannelMessageEnvelope later row.payload =
      some { envelope with createdAt := createdAt } := by
  unfold decodeChannelMessageEnvelope at h ⊢
  split at h
  · cases h
  split at h
  · unfold envelopeOf at h ⊢
    split at h
    · cases h
      exact ⟨_, rfl⟩
    · cases h
  · cases h

theorem liveMessage_of_tags {tags : List (List Value)} (h : SameMessage msg row)
    (hdecode : decodeChannelMessageEnvelope now row.payload = some envelope)
    (htags : buildAdapterTags channelId row.authorAgent envelope row.threadRoot row.threadParent =
      .ok tags) :
    liveMessageToRelayEvent now channelId msg =
      .ok (some ⟨(truthy (some row.msgId)).getD envelope.clientId, some envelope.clientId,
        row.authorAgent.getD "", (toDouble (envelope.createdAt / 1000)).floor, kindStreamMessage,
        tags, envelope.text, "", false⟩) := by
  unfold liveMessageToRelayEvent
  rw [h.payload, hdecode, h.author, h.threadRoot, h.threadParent, h.msgId]
  simp only
  rw [htags]
  rfl

theorem historyRow_of_tags {tags : List (List Value)}
    (hdecode : decodeChannelMessageEnvelope now row.payload = some envelope)
    (hrendered : isRenderableType row.contentType = true) (later : ℤ)
    (htags : buildAdapterTags channelId row.authorAgent envelope row.threadRoot row.threadParent =
      .ok tags) :
    historyRowToRelayEvent later channelId row =
      .ok (some ⟨row.msgId, some envelope.clientId, row.authorAgent.getD "", row.seenAtMs / 1000,
        kindStreamMessage, tags, envelope.text, "", false⟩) := by
  obtain ⟨createdAt, hlater⟩ := decode_later hdecode later
  have henvelope : rowEnvelope later row = some { envelope with createdAt := createdAt } := by
    rw [rowEnvelope, if_pos hrendered, decodeHistoryMessageEnvelope, hlater]
  unfold historyRowToRelayEvent
  rw [henvelope]
  change (buildAdapterTags channelId row.authorAgent envelope row.threadRoot row.threadParent >>=
    _) = _
  rw [htags]
  rfl

theorem agree_placeable (hsame : SameMessage msg row)
    (hdecode : decodeChannelMessageEnvelope now row.payload = some envelope)
    (hagree : Agree now later channelId msg row) : Placeable envelope row := by
  obtain ⟨live, history, hlive, hhistory, ⟨hid, -⟩, ⟨place, hplace⟩, hplaces⟩ := hagree
  have hrendered : isRenderableType row.contentType = true := by
    by_contra hother
    rw [historyRowToRelayEvent, rowEnvelope, if_neg hother] at hhistory
    cases hhistory
  obtain ⟨tags, htags⟩ : ∃ tags, buildAdapterTags channelId row.authorAgent envelope
      row.threadRoot row.threadParent = .ok tags := by
    unfold liveMessageToRelayEvent at hlive
    rw [hsame.payload, hdecode, hsame.author, hsame.threadRoot, hsame.threadParent] at hlive
    obtain ⟨tags, htags, -⟩ := except_bind_ok hlive
    exact ⟨tags, htags⟩
  have hconverted := hhistory
  rw [historyRow_of_tags hdecode hrendered later htags] at hhistory
  rw [liveMessage_of_tags hsame hdecode htags] at hlive
  cases hlive
  cases hhistory
  constructor
  · obtain ⟨clients, hclients, -⟩ := except_bind_ok htags
    exact (markerTags_ok hclients).1
  · exact hrendered
  · by_contra hother
    obtain ⟨hempty, hclient⟩ := not_or.mp hother
    rw [truthy_eq_none.mpr (Or.inr (by rw [not_not.mp hempty]))] at hid
    exact hclient (hid.trans (not_not.mp hempty))
  · have hhere := (hplaces place).mp hplace
    rw [livePlace_iff rfl, buildAdapterTags_reference htags] at hplace
    rw [historyPlace_iff hconverted] at hhere
    exact routes_agree_iff.mp ⟨place, hplace, hhere⟩

theorem placeable_agree (hsame : SameMessage msg row)
    (hdecode : decodeChannelMessageEnvelope now row.payload = some envelope)
    (hplaceable : Placeable envelope row) : Agree now later channelId msg row := by
  obtain ⟨hmarkers, hrendered, hidentified, hancestry⟩ := hplaceable
  obtain ⟨clients, hclients⟩ := markerTags_of_text hmarkers
  obtain ⟨tags, htags⟩ : ∃ tags, buildAdapterTags channelId row.authorAgent envelope
      row.threadRoot row.threadParent = .ok tags := ⟨_, by rw [buildAdapterTags, hclients]; rfl⟩
  have hhistory := historyRow_of_tags hdecode hrendered later htags
  refine ⟨_, _, liveMessage_of_tags hsame hdecode htags, hhistory, ⟨?_, rfl, rfl, rfl⟩, ?_⟩
  · by_cases hempty : row.msgId = ""
    · rw [truthy_eq_none.mpr (Or.inr (by rw [hempty])), hempty]
      exact hidentified.resolve_left (not_not.mpr hempty)
    · rw [truthy_some hempty]
      rfl
  · obtain ⟨place, hlive, hhere⟩ := routes_agree_iff.mpr hancestry
    have hreference := buildAdapterTags_reference htags
    constructor
    · exact ⟨place, (livePlace_iff rfl place).mpr (by rw [hreference]; exact hlive)⟩
    · intro other
      rw [livePlace_iff rfl, historyPlace_iff hhistory, hreference, hlive, hhere]

theorem live_history_agree_iff (hsame : SameMessage msg row)
    (hdecode : decodeChannelMessageEnvelope now row.payload = some envelope) (later : ℤ)
    (channelId : String) : Agree now later channelId msg row ↔ Placeable envelope row :=
  ⟨agree_placeable hsame hdecode, placeable_agree hsame hdecode⟩

def X0xHistoryRow.liveFrame (row : X0xHistoryRow) : X0xLiveMessage :=
  ⟨row.payload, row.authorAgent, some row.msgId, row.threadRoot, row.threadParent⟩

theorem liveFrame_same (row : X0xHistoryRow) : SameMessage row.liveFrame row :=
  ⟨rfl, rfl, rfl, rfl, rfl⟩

/-- A message of a peer with the payload `{"text":"hi","clientId":"c1"}`. -/
def peerRow (threadRoot threadParent : Option String) : X0xHistoryRow :=
  ⟨2, "m2", some "peer", 0, 0, "application/json", "eyJ0ZXh0IjoiaGkiLCJjbGllbnRJZCI6ImMxIn0=",
    threadRoot, threadParent⟩

theorem peerRow_decodes (threadRoot threadParent : Option String) :
    ∃ envelope, decodeChannelMessageEnvelope 0 (peerRow threadRoot threadParent).payload =
      some envelope ∧ envelope.markers = none := by
  have hdecode : (decodeChannelMessageEnvelope 0
      "eyJ0ZXh0IjoiaGkiLCJjbGllbnRJZCI6ImMxIn0=").map (fun envelope => envelope.markers.isNone) =
        some true := by
    decide +kernel
  obtain ⟨envelope, henvelope, hnone⟩ := Option.map_eq_some_iff.mp hdecode
  exact ⟨envelope, henvelope, Option.isNone_iff_eq_none.mp hnone⟩

/-- A reply that names its root but no parent is live in the timeline, and in the thread once it is
history. -/
theorem parentless_reply_disagrees :
    SameMessage (peerRow (some "m1") none).liveFrame (peerRow (some "m1") none) ∧
      (decodeChannelMessageEnvelope 0 (peerRow (some "m1") none).payload).isSome = true ∧
      ¬Agree 0 0 "general" (peerRow (some "m1") none).liveFrame (peerRow (some "m1") none) := by
  obtain ⟨envelope, hdecode, -⟩ := peerRow_decodes (some "m1") none
  refine ⟨liveFrame_same _, by rw [hdecode]; rfl, ?_⟩
  intro hagree
  have hancestry := (agree_placeable (liveFrame_same _) hdecode hagree).ancestry
  simp [X0xHistoryRow.PlainAncestry, peerRow, truthy] at hancestry

theorem live_history_agree_reply :
    Agree 0 0 "general" (peerRow (some "m1") (some "m1")).liveFrame
      (peerRow (some "m1") (some "m1")) := by
  obtain ⟨envelope, hdecode, hmarkers⟩ := peerRow_decodes (some "m1") (some "m1")
  apply (live_history_agree_iff (liveFrame_same _) hdecode 0 "general").mpr
  constructor
  · simp [hmarkers]
  · decide +kernel
  · exact Or.inl (by simp [peerRow])
  · simp [X0xHistoryRow.PlainAncestry, peerRow, truthy]

end Agreement

end Buzz.Messages
