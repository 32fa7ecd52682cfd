import Buzz.EntryMap
import Buzz.RelationWalk

/-!
# The thread panel

The statistics of a thread walk up from every message and stop after as many hops as there are
messages. The visible replies are listed by a recursion down the expanded replies, without such a
bound: where expanded replies are their own descendants it does not return.
-/

namespace Buzz.Thread

structure TimelineMessage where
  id : String
  renderKey : Option String
  createdAt : ℤ
  pubkey : Option String
  author : String
  avatarUrl : Option String
  body : String
  parentId : Option String
  depth : ℕ
  kind : Option ℕ
  deriving DecidableEq, Repr

/-- The parent that is not an empty name. -/
def TimelineMessage.parent? (message : TimelineMessage) : Option String :=
  message.parentId.filter fun parentId => parentId ≠ ""

structure TimelineThreadSummaryParticipant where
  id : String
  author : String
  avatarUrl : Option String
  deriving DecidableEq, Repr

structure TimelineThreadSummary where
  threadHeadId : String
  replyCount : ℕ
  lastReplyAt : Option ℤ
  participants : List TimelineThreadSummaryParticipant
  deriving DecidableEq, Repr

structure MainTimelineEntry where
  message : TimelineMessage
  summary : Option TimelineThreadSummary
  deriving DecidableEq, Repr

structure ThreadDescendantStats where
  descendantCount : ℕ
  unreadDescendantCount : ℕ
  lastReplyAt : Option ℤ
  recentParticipantsNewestFirst : List TimelineThreadSummaryParticipant

def ThreadDescendantStats.zero : ThreadDescendantStats := ⟨0, 0, none, []⟩

structure ThreadPanelIndex where
  directChildrenByParentId : EntryMap String (List TimelineMessage)
  descendantStatsByMessageId : EntryMap String ThreadDescendantStats
  messageById : EntryMap String TimelineMessage

structure ThreadPanelData where
  threadHead : Option TimelineMessage
  totalReplyCount : ℕ
  visibleReplies : List MainTimelineEntry
  replyTargetMessage : Option TimelineMessage
  deriving DecidableEq, Repr

section Index

def maxSummaryParticipants : ℕ := 3

def buildDirectChildrenByParentId (messages : List TimelineMessage) :
    EntryMap String (List TimelineMessage) :=
  messages.foldl (fun childrenByParentId message =>
    match message.parent? with
    | none => childrenByParentId
    | some parentId =>
        childrenByParentId.set parentId
          ((childrenByParentId.get? parentId).getD [] ++ [message])) .empty

def mapById {β : Type} (value : TimelineMessage → β) (messages : List TimelineMessage) :
    EntryMap String β :=
  messages.foldl (fun map message => map.set message.id (value message)) .empty

def participantFromMessage (message : TimelineMessage) : TimelineThreadSummaryParticipant :=
  ⟨message.pubkey.getD message.id, message.author, message.avatarUrl⟩

/-- The running maximum of the times, with zero before the first of them. -/
def laterReplyAt (lastReplyAt : Option ℤ) (createdAt : ℤ) : Option ℤ :=
  some (max (lastReplyAt.getD 0) createdAt)

/-- What a message adds to the statistics of an ancestor. -/
def countDescendant (message : TimelineMessage) (isUnread : Bool)
    (ancestorStats : ThreadDescendantStats) : ThreadDescendantStats :=
  let participant := participantFromMessage message
  let recent := ancestorStats.recentParticipantsNewestFirst
  { descendantCount := ancestorStats.descendantCount + 1
    unreadDescendantCount :=
      ancestorStats.unreadDescendantCount + if isUnread then 1 else 0
    lastReplyAt := laterReplyAt ancestorStats.lastReplyAt message.createdAt
    recentParticipantsNewestFirst :=
      if recent.length < maxSummaryParticipants ∧
          ¬recent.any fun existing => existing.id = participant.id then
        recent ++ [participant]
      else recent }

/-- The walk up the ancestors, with the hops that are left. -/
def countAncestors (messageById : EntryMap String TimelineMessage)
    (count : ThreadDescendantStats → ThreadDescendantStats) :
    ℕ → Option String → EntryMap String ThreadDescendantStats →
      EntryMap String ThreadDescendantStats
  | 0, _, stats => stats
  | hops + 1, ancestorId, stats =>
      match ancestorId.filter fun ancestorId => ancestorId ≠ "" with
      | none => stats
      | some ancestorId =>
          match stats.get? ancestorId with
          | none => stats
          | some ancestorStats =>
              countAncestors messageById count hops
                ((messageById.get? ancestorId).bind TimelineMessage.parentId)
                (stats.set ancestorId (count ancestorStats))

/-- Older first, and in their order within a second. -/
def orderedMessages (messages : List TimelineMessage) : List TimelineMessage :=
  (messages.zipIdx.insertionSort fun left right =>
    if left.1.createdAt ≠ right.1.createdAt then left.1.createdAt ≤ right.1.createdAt
    else left.2 ≤ right.2).map Prod.fst

def buildDescendantStatsByMessageId (messages : List TimelineMessage)
    (unreadReplyIds : Finset String) (messageById : EntryMap String TimelineMessage) :
    EntryMap String ThreadDescendantStats :=
  (orderedMessages messages).reverse.foldl (fun stats message =>
    countAncestors messageById (countDescendant message (message.id ∈ unreadReplyIds))
      (messages.length + 1) message.parentId stats)
    (mapById (fun _ => .zero) messages)

def buildThreadPanelIndex (messages : List TimelineMessage) (unreadReplyIds : Finset String) :
    ThreadPanelIndex where
  directChildrenByParentId := buildDirectChildrenByParentId messages
  descendantStatsByMessageId :=
    buildDescendantStatsByMessageId messages unreadReplyIds (mapById id messages)
  messageById := mapById id messages

end Index

section Panel

def buildSummaryForDirectReplies (messageId : String)
    (descendantStatsByMessageId : EntryMap String ThreadDescendantStats) :
    Option TimelineThreadSummary :=
  match descendantStatsByMessageId.get? messageId with
  | none => none
  | some descendantStats =>
      if descendantStats.descendantCount = 0 then none
      else some ⟨messageId, descendantStats.descendantCount, descendantStats.lastReplyAt,
        descendantStats.recentParticipantsNewestFirst.reverse⟩

structure SummaryParticipantCandidate where
  index : ℕ
  participant : TimelineThreadSummaryParticipant
  timestamp : ℤ

/-- What the loop over the visible entries keeps. -/
structure VisibleTotals where
  replyCount : ℕ
  lastReplyAt : Option ℤ
  participantCandidates : List SummaryParticipantCandidate

def addParticipantCandidate (timestamp : ℤ) (totals : VisibleTotals)
    (participant : TimelineThreadSummaryParticipant) : VisibleTotals :=
  { totals with
    participantCandidates := totals.participantCandidates ++
      [⟨totals.participantCandidates.length, participant, timestamp⟩] }

def addVisibleSummary (createdAt : ℤ) (totals : VisibleTotals)
    (summary : TimelineThreadSummary) : VisibleTotals :=
  let totals := { totals with
    replyCount := totals.replyCount + summary.replyCount
    lastReplyAt :=
      match summary.lastReplyAt with
      | none => totals.lastReplyAt
      | some lastReplyAt => laterReplyAt totals.lastReplyAt lastReplyAt }
  summary.participants.foldl
    (addParticipantCandidate (summary.lastReplyAt.getD createdAt)) totals

def addVisibleEntry (totals : VisibleTotals) (entry : MainTimelineEntry) : VisibleTotals :=
  let createdAt := entry.message.createdAt
  let totals := addParticipantCandidate createdAt
    { totals with
      replyCount := totals.replyCount + 1
      lastReplyAt := laterReplyAt totals.lastReplyAt createdAt }
    (participantFromMessage entry.message)
  match entry.summary with
  | none => totals
  | some summary => addVisibleSummary createdAt totals summary

/-- The participants of the newest candidates, newest first. -/
def newestParticipants :
    List SummaryParticipantCandidate → List TimelineThreadSummaryParticipant →
      List TimelineThreadSummaryParticipant
  | [], recent => recent
  | candidate :: rest, recent =>
      if recent.any fun participant => participant.id = candidate.participant.id then
        newestParticipants rest recent
      else
        let recent := recent ++ [candidate.participant]
        if recent.length ≥ maxSummaryParticipants then recent else newestParticipants rest recent

def buildThreadSummaryFromVisibleEntries (threadHeadId : String)
    (entries : List MainTimelineEntry) : Option TimelineThreadSummary :=
  let totals := entries.foldl addVisibleEntry ⟨0, none, []⟩
  if totals.replyCount = 0 then none
  else
    let candidates := totals.participantCandidates.insertionSort fun left right =>
      if left.timestamp ≠ right.timestamp then right.timestamp ≤ left.timestamp
      else right.index ≤ left.index
    some ⟨threadHeadId, totals.replyCount, totals.lastReplyAt,
      (newestParticipants candidates []).reverse⟩

/-- One round of the loop over the direct replies. -/
def appendReply (index : ThreadPanelIndex) (expandedReplyIds : Finset String)
    (appendExpanded : List MainTimelineEntry → String → ℕ → Option (List MainTimelineEntry))
    (depth : ℕ) (entries : List MainTimelineEntry) (reply : TimelineMessage) :
    Option (List MainTimelineEntry) :=
  let message := { reply with depth := depth }
  if reply.id ∈ expandedReplyIds then
    appendExpanded (entries ++ [⟨message, none⟩]) reply.id (depth + 1)
  else
    some (entries ++ [⟨message,
      buildSummaryForDirectReplies reply.id index.descendantStatsByMessageId⟩])

/-- The replies to a parent, with those to expanded replies after them. None while the recursion is
deeper than the calls that are left. -/
def appendExpandedReplies (index : ThreadPanelIndex) (expandedReplyIds : Finset String) :
    ℕ → List MainTimelineEntry → String → ℕ → Option (List MainTimelineEntry)
  | 0, _, _, _ => none
  | calls + 1, entries, parentId, depth =>
      ((index.directChildrenByParentId.get? parentId).getD []).foldlM
        (appendReply index expandedReplyIds (appendExpandedReplies index expandedReplyIds calls)
          depth) entries

def emptyPanel : ThreadPanelData := ⟨none, 0, [], none⟩

def buildThreadPanelDataFromIndex (calls : ℕ) (index : ThreadPanelIndex)
    (openThreadHeadId threadReplyTargetId : Option String) (expandedReplyIds : Finset String) :
    Option ThreadPanelData :=
  match openThreadHeadId.filter fun headId => headId ≠ "" with
  | none => some emptyPanel
  | some headId =>
      match index.messageById.get? headId with
      | none => some emptyPanel
      | some threadHead => do
          let normalizedThreadHead := { threadHead with depth := 0 }
          let visibleReplies ← appendExpandedReplies index expandedReplyIds calls [] headId 1
          let replyTargetInBranch :=
            if threadReplyTargetId = some threadHead.id then some normalizedThreadHead
            else index.messageById.get? (threadReplyTargetId.getD "")
          some {
            threadHead := some normalizedThreadHead
            totalReplyCount := ((index.descendantStatsByMessageId.get? headId).map
              ThreadDescendantStats.descendantCount).getD 0
            visibleReplies := visibleReplies
            replyTargetMessage := some (replyTargetInBranch.getD normalizedThreadHead) }

def buildThreadPanelData (calls : ℕ) (messages : List TimelineMessage)
    (openThreadHeadId threadReplyTargetId : Option String) (expandedReplyIds : Finset String) :
    Option ThreadPanelData :=
  buildThreadPanelDataFromIndex calls (buildThreadPanelIndex messages ∅) openThreadHeadId
    threadReplyTargetId expandedReplyIds

end Panel

section Lookups

variable {messages : List TimelineMessage}

theorem get?_children_foldl (messages : List TimelineMessage) (parentId : String) :
    ∀ children : EntryMap String (List TimelineMessage),
      ((messages.foldl (fun childrenByParentId message =>
        match message.parent? with
        | none => childrenByParentId
        | some parentId =>
            childrenByParentId.set parentId
              ((childrenByParentId.get? parentId).getD [] ++ [message])) children).get?
        parentId).getD [] =
      (children.get? parentId).getD [] ++
        messages.filter fun message => message.parent? = some parentId := by
  induction messages with
  | nil => simp
  | cons message rest ih =>
      intro children
      rw [List.foldl_cons, ih]
      cases hparent : message.parent? with
      | none => simp [hparent]
      | some held =>
          by_cases heq : held = parentId
          · simp [hparent, heq, EntryMap.get?_set]
          · simp [hparent, heq, Ne.symm heq, EntryMap.get?_set]

/-- The children of a parent are its direct replies, in their order. -/
theorem get?_children (messages : List TimelineMessage) (parentId : String) :
    ((buildDirectChildrenByParentId messages).get? parentId).getD [] =
      messages.filter fun message => message.parent? = some parentId := by
  have hfold := get?_children_foldl messages parentId .empty
  rwa [EntryMap.get?_empty, Option.getD_none, List.nil_append] at hfold

theorem mem_mapById_foldl {β : Type} (value : TimelineMessage → β) {id : String}
    (messages : List TimelineMessage) : ∀ map : EntryMap String β,
      id ∈ (messages.foldl (fun map message => map.set message.id (value message)) map).entries.map
        Prod.fst ↔ id ∈ map.entries.map Prod.fst ∨ id ∈ messages.map TimelineMessage.id := by
  induction messages with
  | nil => simp
  | cons message rest ih =>
      intro map
      rw [List.foldl_cons, ih, EntryMap.mem_set_keys, List.map_cons, List.mem_cons]
      tauto

theorem get?_mapById_eq_none_iff {β : Type} {value : TimelineMessage → β} {id : String} :
    (mapById value messages).get? id = none ↔ id ∉ messages.map TimelineMessage.id := by
  rw [EntryMap.get?_eq_none_iff, mapById, mem_mapById_foldl]
  simp [EntryMap.empty]

end Lookups

section Termination

variable {messages : List TimelineMessage} {expandedReplyIds : Finset String}
variable {index : ThreadPanelIndex}
  {appendExpanded : List MainTimelineEntry → String → ℕ → Option (List MainTimelineEntry)}

/-- The recursion goes on to the replies of an expanded reply. -/
def Opens (messages : List TimelineMessage) (expandedReplyIds : Finset String)
    (parentId replyId : String) : Prop :=
  ∃ reply ∈ messages, reply.parent? = some parentId ∧ reply.id = replyId ∧
    replyId ∈ expandedReplyIds

theorem appendReply_expanded
    {depth : ℕ} {entries : List MainTimelineEntry} {reply : TimelineMessage}
    (h : reply.id ∈ expandedReplyIds) :
    appendReply index expandedReplyIds appendExpanded depth entries reply =
      appendExpanded (entries ++ [⟨{ reply with depth := depth }, none⟩]) reply.id (depth + 1) :=
  if_pos h

theorem appendReply_collapsed
    {depth : ℕ} {entries : List MainTimelineEntry} {reply : TimelineMessage}
    (h : reply.id ∉ expandedReplyIds) :
    appendReply index expandedReplyIds appendExpanded depth entries reply =
      some (entries ++ [⟨{ reply with depth := depth },
        buildSummaryForDirectReplies reply.id index.descendantStatsByMessageId⟩]) :=
  if_neg h

theorem appendReplies_isSome_iff (index : ThreadPanelIndex)
    {returns : String → Prop} {depth : ℕ} (hreturns : ∀ entries replyId,
      (appendExpanded entries replyId (depth + 1)).isSome = true ↔ returns replyId)
    (replies : List TimelineMessage) : ∀ entries,
      (replies.foldlM (appendReply index expandedReplyIds appendExpanded depth) entries).isSome =
        true ↔ ∀ reply ∈ replies, reply.id ∈ expandedReplyIds → returns reply.id := by
  induction replies with
  | nil => simp
  | cons reply rest ih =>
      intro entries
      rw [List.foldlM_cons, List.forall_mem_cons]
      by_cases hexpanded : reply.id ∈ expandedReplyIds
      · have hcall := hreturns (entries ++ [⟨{ reply with depth := depth }, none⟩]) reply.id
        rw [appendReply_expanded hexpanded]
        cases hinner : appendExpanded (entries ++ [⟨{ reply with depth := depth }, none⟩]) reply.id
            (depth + 1) with
        | none =>
            rw [hinner] at hcall
            simp [hexpanded, ← hcall]
        | some inner =>
            rw [hinner] at hcall
            rw [Option.bind_eq_bind, Option.bind_some, ih]
            exact ⟨fun h => ⟨fun _ => hcall.mp rfl, h⟩, fun h => h.2⟩
      · rw [appendReply_collapsed hexpanded, Option.bind_eq_bind, Option.bind_some, ih]
        exact ⟨fun h => ⟨fun hmem => absurd hmem hexpanded, h⟩, fun h => h.2⟩

theorem appendExpandedReplies_isSome_iff
    (hindex : index.directChildrenByParentId = buildDirectChildrenByParentId messages)
    (calls : ℕ) : ∀ entries parentId depth,
      (appendExpandedReplies index expandedReplyIds calls entries parentId depth).isSome = true ↔
        RelationWalk.Halts (Opens messages expandedReplyIds) calls parentId := by
  induction calls with
  | zero =>
      intro entries parentId depth
      exact iff_of_false (by simp [appendExpandedReplies]) fun h => h
  | succ calls ih =>
      intro entries parentId depth
      unfold appendExpandedReplies
      rw [hindex, get?_children, appendReplies_isSome_iff index fun entries replyId =>
        ih entries replyId (depth + 1)]
      constructor
      · rintro h replyId ⟨reply, hmem, hparent, rfl, hexpanded⟩
        exact h reply (List.mem_filter.mpr ⟨hmem, decide_eq_true hparent⟩) hexpanded
      · intro h reply hmem hexpanded
        obtain ⟨hreply, hparent⟩ := List.mem_filter.mp hmem
        exact h reply.id ⟨reply, hreply, of_decide_eq_true hparent, rfl, hexpanded⟩

/-- The head of an open thread, where it is one of the messages. -/
def OpenHead (messages : List TimelineMessage) (openThreadHeadId : Option String)
    (headId : String) : Prop :=
  openThreadHeadId = some headId ∧ headId ≠ "" ∧ headId ∈ messages.map TimelineMessage.id

theorem buildThreadPanelData_isSome_iff (calls : ℕ)
    (openThreadHeadId threadReplyTargetId : Option String) :
    (buildThreadPanelData calls messages openThreadHeadId threadReplyTargetId
      expandedReplyIds).isSome = true ↔
      ∀ headId, OpenHead messages openThreadHeadId headId →
        RelationWalk.Halts (Opens messages expandedReplyIds) calls headId := by
  unfold buildThreadPanelData buildThreadPanelDataFromIndex
  cases hopen : openThreadHeadId.filter fun headId => headId ≠ "" with
  | none =>
      refine iff_of_true rfl ?_
      rintro headId ⟨rfl, hne, -⟩
      simp [hne] at hopen
  | some found =>
      obtain ⟨hfound, hne⟩ := Option.filter_eq_some_iff.mp hopen
      have hnone : (buildThreadPanelIndex messages ∅).messageById.get? found = none ↔
          found ∉ messages.map TimelineMessage.id := get?_mapById_eq_none_iff
      dsimp only
      cases hhead : (buildThreadPanelIndex messages ∅).messageById.get? found with
      | none =>
          refine iff_of_true rfl ?_
          rintro headId ⟨heq, -, hmem⟩
          obtain rfl := Option.some.inj (hfound.symm.trans heq)
          exact absurd hmem (hnone.mp hhead)
      | some threadHead =>
          have hcalls := @appendExpandedReplies_isSome_iff messages expandedReplyIds
            (buildThreadPanelIndex messages ∅) rfl calls [] found 1
          have hmem : found ∈ messages.map TimelineMessage.id := by
            by_contra hnot
            rw [hnone.mpr hnot] at hhead
            cases hhead
          have hhalts : (∀ headId, OpenHead messages openThreadHeadId headId →
              RelationWalk.Halts (Opens messages expandedReplyIds) calls headId) ↔
              RelationWalk.Halts (Opens messages expandedReplyIds) calls found := by
            constructor
            · exact fun h => h found ⟨hfound, of_decide_eq_true hne, hmem⟩
            · rintro h headId ⟨heq, -, -⟩
              obtain rfl := Option.some.inj (hfound.symm.trans heq)
              exact h
          rw [hhalts, ← hcalls]
          dsimp only
          cases appendExpandedReplies (buildThreadPanelIndex messages ∅) expandedReplyIds calls []
              found 1 with
          | none => rfl
          | some visibleReplies => exact iff_of_true rfl rfl

theorem opens_mem (parentId replyId : String)
    (h : Opens messages expandedReplyIds parentId replyId) :
    replyId ∈ messages.map TimelineMessage.id := by
  obtain ⟨reply, hmem, -, rfl, -⟩ := h
  exact List.mem_map_of_mem hmem

theorem exists_panel_iff {openThreadHeadId threadReplyTargetId : Option String} :
    (∃ calls data, buildThreadPanelData calls messages openThreadHeadId threadReplyTargetId
      expandedReplyIds = some data) ↔
      ∀ headId, OpenHead messages openThreadHeadId headId →
        ∃ calls, RelationWalk.Halts (Opens messages expandedReplyIds) calls headId := by
  simp only [← Option.isSome_iff_exists, buildThreadPanelData_isSome_iff]
  constructor
  · rintro ⟨calls, h⟩ headId hopen
    exact ⟨calls, h headId hopen⟩
  · intro h
    by_cases hsome : ∃ headId, OpenHead messages openThreadHeadId headId
    · obtain ⟨headId, hopen⟩ := hsome
      obtain ⟨calls, hcalls⟩ := h headId hopen
      refine ⟨calls, ?_⟩
      rintro other ⟨heq, -, -⟩
      obtain rfl := Option.some.inj (hopen.1.symm.trans heq)
      exact hcalls
    · exact ⟨0, fun headId hopen => absurd ⟨headId, hopen⟩ hsome⟩

/-- The panel is returned if and only if no reply that the recursion comes to is its own descendant
through expanded replies. -/
theorem panel_returns_iff (messages : List TimelineMessage)
    (openThreadHeadId threadReplyTargetId : Option String) (expandedReplyIds : Finset String) :
    (∃ calls data, buildThreadPanelData calls messages openThreadHeadId threadReplyTargetId
      expandedReplyIds = some data) ↔
      ∀ headId, OpenHead messages openThreadHeadId headId →
        ∀ replyId, Relation.ReflTransGen (Opens messages expandedReplyIds) headId replyId →
          ¬Relation.TransGen (Opens messages expandedReplyIds) replyId replyId := by
  rw [exists_panel_iff]
  exact forall₂_congr fun headId _ => RelationWalk.halts_iff opens_mem

def reply (id : String) (createdAt : ℤ) (parentId : Option String) : TimelineMessage :=
  ⟨id, none, createdAt, some "author", "Author", none, "body", parentId, 1, some 9⟩

/-- A message that names itself as its parent: the panel of its thread is never returned once the
message is expanded. -/
theorem self_reply_never_returns :
    ¬∃ calls, (buildThreadPanelData calls [reply "a" 1 (some "a")] (some "a") none
      {"a"}).isSome = true := by
  rintro ⟨calls, hreturns⟩
  have hopens : Opens [reply "a" 1 (some "a")] {"a"} "a" "a" :=
    ⟨reply "a" 1 (some "a"), List.mem_singleton_self _, rfl, rfl, Finset.mem_singleton_self _⟩
  have hiff := @buildThreadPanelData_isSome_iff [reply "a" 1 (some "a")] {"a"} calls (some "a") none
  rw [hiff] at hreturns
  exact RelationWalk.not_halts_of_cycle calls "a" (Relation.TransGen.single hopens)
    (hreturns "a" ⟨rfl, by decide, by decide⟩)

end Termination

end Buzz.Thread
