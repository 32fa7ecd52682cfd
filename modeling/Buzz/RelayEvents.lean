import Buzz.AsciiText
import Buzz.WebText

/-!
# Timeline events

The events that the desktop renders, the order in which it keeps them, the thread that the tags of
an event name, and the merge of one more event into a list of events. An event has two identities:
its id, and the key it is rendered under, which an acknowledged event keeps from the optimistic row
that it replaces.
-/

namespace Buzz.Messages

open JsonText

/-- The elements of a tag are what the payload held: nothing makes them strings. -/
structure RelayEvent where
  id : String
  localKey : Option String
  pubkey : String
  createdAt : ℤ
  kind : ℕ
  tags : List (List Value)
  content : String
  sig : String
  pending : Bool

def RelayEvent.renderKey (event : RelayEvent) : String :=
  event.localKey.getD event.id

def kindStreamMessage : ℕ := 9

def channelTimelineContentKinds : List ℕ :=
  [9, 40002, 40008, 40099, 43001, 43002, 43003, 43004, 43005, 43006, 48100]

section Order

/-- Newest second first, then ascending ids within a second. -/
def compareRelayOrder (left right : RelayEvent) : ℤ :=
  if left.createdAt ≠ right.createdAt then right.createdAt - left.createdAt
  else if WebText.stringLt left.id right.id then -1
  else if WebText.stringLt right.id left.id then 1
  else 0

/-- `sort` with a comparison, which keeps the order of equal events. -/
def sortEvents (compare : RelayEvent → RelayEvent → ℤ) (events : List RelayEvent) :
    List RelayEvent :=
  events.insertionSort fun left right => compare left right ≤ 0

theorem sortEvents_perm (compare : RelayEvent → RelayEvent → ℤ) (events : List RelayEvent) :
    (sortEvents compare events).Perm events :=
  List.perm_insertionSort _ events

@[simp] theorem mem_sortEvents {compare : RelayEvent → RelayEvent → ℤ} {events : List RelayEvent}
    {event : RelayEvent} : event ∈ sortEvents compare events ↔ event ∈ events :=
  (sortEvents_perm compare events).mem_iff

/-- The last of the events with one id is kept. -/
def dedupeMessagesById : List RelayEvent → List RelayEvent
  | [] => []
  | event :: rest =>
      if rest.any fun later => later.id == event.id then dedupeMessagesById rest
      else event :: dedupeMessagesById rest

theorem dedupeMessagesById_sublist (events : List RelayEvent) :
    (dedupeMessagesById events).Sublist events := by
  induction events with
  | nil => exact List.Sublist.refl _
  | cons event rest ih =>
      unfold dedupeMessagesById
      split_ifs
      · exact ih.cons event
      · exact ih.cons_cons event

theorem mem_dedupe_ids {id : String} (events : List RelayEvent) :
    id ∈ (dedupeMessagesById events).map RelayEvent.id ↔ id ∈ events.map RelayEvent.id := by
  induction events with
  | nil => exact Iff.rfl
  | cons event rest ih =>
      unfold dedupeMessagesById
      split_ifs with hlater
      · obtain ⟨later, hmem, heq⟩ := List.any_eq_true.mp hlater
        have hid : event.id ∈ rest.map RelayEvent.id :=
          List.mem_map.mpr ⟨later, hmem, by simpa using heq⟩
        rw [ih, List.map_cons, List.mem_cons]
        exact ⟨Or.inr, fun h => h.elim (fun heq => heq ▸ hid) fun h => h⟩
      · rw [List.map_cons, List.map_cons, List.mem_cons, List.mem_cons, ih]

theorem dedupe_ids_nodup (events : List RelayEvent) :
    ((dedupeMessagesById events).map RelayEvent.id).Nodup := by
  induction events with
  | nil => exact List.nodup_nil
  | cons event rest ih =>
      unfold dedupeMessagesById
      split_ifs with hlater
      · exact ih
      · rw [List.map_cons, List.nodup_cons, mem_dedupe_ids]
        refine ⟨?_, ih⟩
        intro hmem
        obtain ⟨later, hlist, heq⟩ := List.mem_map.mp hmem
        exact hlater (List.any_eq_true.mpr ⟨later, hlist, by simp [heq]⟩)

theorem dedupe_of_nodup {events : List RelayEvent} (h : (events.map RelayEvent.id).Nodup) :
    dedupeMessagesById events = events := by
  induction events with
  | nil => rfl
  | cons event rest ih =>
      obtain ⟨hfirst, hrest⟩ := List.nodup_cons.mp h
      have hlater : ¬(rest.any fun later => later.id == event.id) = true := by
        intro hany
        obtain ⟨later, hmem, heq⟩ := List.any_eq_true.mp hany
        exact hfirst (List.mem_map.mpr ⟨later, hmem, by simpa using heq⟩)
      rw [dedupeMessagesById, if_neg hlater, ih hrest]

/-- Of two lists the second wins. -/
theorem mem_dedupe_append {first second : List RelayEvent} {event : RelayEvent} :
    event ∈ dedupeMessagesById (first ++ second) ↔
      (event ∈ dedupeMessagesById first ∧ event.id ∉ second.map RelayEvent.id) ∨
        event ∈ dedupeMessagesById second := by
  induction first with
  | nil => simp [dedupeMessagesById]
  | cons head rest ih =>
      have hany : ∀ events : List RelayEvent, (events.any fun later => later.id == head.id) = true ↔
          head.id ∈ events.map RelayEvent.id := by
        intro events
        rw [List.any_eq_true, List.mem_map]
        simp only [beq_iff_eq]
      rw [List.cons_append, dedupeMessagesById, dedupeMessagesById]
      simp only [hany, List.map_append, List.mem_append]
      by_cases hrest : head.id ∈ rest.map RelayEvent.id
      · rw [if_pos (Or.inl hrest), if_pos hrest, ih]
      · rw [if_neg hrest, List.mem_cons]
        by_cases hsecond : head.id ∈ second.map RelayEvent.id
        · rw [if_pos (Or.inr hsecond), ih]
          constructor
          · exact fun h => h.imp_left fun ⟨hmem, hid⟩ => ⟨Or.inr hmem, hid⟩
          · rintro (⟨rfl | hmem, hid⟩ | hmem)
            · exact absurd hsecond hid
            · exact Or.inl ⟨hmem, hid⟩
            · exact Or.inr hmem
        · rw [if_neg (not_or.mpr ⟨hrest, hsecond⟩), List.mem_cons, ih]
          constructor
          · rintro (rfl | ⟨hmem, hid⟩ | hmem)
            · exact Or.inl ⟨Or.inl rfl, hsecond⟩
            · exact Or.inl ⟨Or.inr hmem, hid⟩
            · exact Or.inr hmem
          · rintro (⟨rfl | hmem, hid⟩ | hmem)
            · exact Or.inl rfl
            · exact Or.inr (Or.inl ⟨hmem, hid⟩)
            · exact Or.inr (Or.inr hmem)

def compareChronological (left right : RelayEvent) : ℤ :=
  if left.createdAt ≠ right.createdAt then left.createdAt - right.createdAt
  else if WebText.stringLt left.id right.id then -1
  else if WebText.stringLt right.id left.id then 1
  else 0

def sortMessages (messages : List RelayEvent) : List RelayEvent :=
  sortEvents compareChronological (dedupeMessagesById messages)

theorem mem_sortMessages {events : List RelayEvent} {event : RelayEvent} :
    event ∈ sortMessages events ↔ event ∈ dedupeMessagesById events :=
  mem_sortEvents

theorem sortMessages_ids_nodup (events : List RelayEvent) :
    ((sortMessages events).map RelayEvent.id).Nodup :=
  ((sortEvents_perm _ _).map RelayEvent.id).nodup_iff.mpr (dedupe_ids_nodup events)

end Order

section Threading

/-- A tag of strings. -/
def textTag (parts : List String) : List Value :=
  parts.map .string

/-- The element of a tag when it is a string. -/
def tagText (tag : List Value) (index : ℕ) : Option String :=
  match tag[index]? with
  | some (.string text) => some text
  | _ => none

structure ThreadReference where
  parentId : Option String
  rootId : Option String
  deriving DecidableEq, Repr

def getEventTags (tags : List (List Value)) : List (List Value) :=
  tags.filter fun tag => tagText tag 0 == some "e" && (tagText tag 1).isSome

def getChannelIdFromTags (tags : List (List Value)) : Option String :=
  match tags.find? fun tag => tagText tag 0 == some "h" with
  | some tag => tagText tag 1
  | none => none

def isBroadcastReply (tags : List (List Value)) : Bool :=
  tags.any fun tag => tagText tag 0 == some "broadcast" && tagText tag 1 == some "1"

def getThreadReference (tags : List (List Value)) : ThreadReference :=
  let eventTags := getEventTags tags
  let rootTag := eventTags.find? fun tag => tagText tag 3 == some "root"
  match eventTags.reverse.find? fun tag => tagText tag 3 == some "reply" with
  | none => ⟨none, none⟩
  | some replyTag =>
      let parentId := tagText replyTag 1
      ⟨parentId, ((rootTag.bind fun tag => tagText tag 1).or parentId)⟩

/-- Lower case, without repetitions and without the sender. -/
def normalizeFrom (seen : List String) : List String → List String
  | [] => []
  | pubkey :: rest =>
      let lower := toAsciiLowercase pubkey
      if lower ∈ seen then normalizeFrom seen rest
      else lower :: normalizeFrom (lower :: seen) rest

def normalizeMentionPubkeys (mentionPubkeys : List String) (selfPubkey : String) : List String :=
  normalizeFrom [toAsciiLowercase selfPubkey] mentionPubkeys

def buildReplyTags (channelId authorPubkey parentEventId rootEventId : String)
    (mentionPubkeys : List String) : List (List Value) :=
  [textTag ["p", authorPubkey], textTag ["h", channelId]] ++
    (normalizeMentionPubkeys mentionPubkeys authorPubkey).map
    (fun pubkey => textTag ["p", pubkey]) ++
    if parentEventId = rootEventId then [textTag ["e", rootEventId, "", "reply"]]
    else [textTag ["e", rootEventId, "", "root"], textTag ["e", parentEventId, "", "reply"]]

def resolveReplyRootId (parentEventId : String) (events : List RelayEvent) : String :=
  match events.find? fun event => event.id == parentEventId with
  | none => parentEventId
  | some parent => (getThreadReference parent.tags).rootId.getD parent.id

end Threading

section Merge

def isMatchingPendingMessage (pending incoming : RelayEvent) : Bool :=
  pending.pending && !incoming.pending && pending.content == incoming.content &&
    pending.kind == incoming.kind &&
    toAsciiLowercase pending.pubkey == toAsciiLowercase incoming.pubkey &&
    getChannelIdFromTags pending.tags == getChannelIdFromTags incoming.tags &&
    (getThreadReference pending.tags).parentId == (getThreadReference incoming.tags).parentId &&
    (getThreadReference pending.tags).rootId == (getThreadReference incoming.tags).rootId

/-- The event under the key of the pending row that it is taken for. -/
def takeOverKey (current : List RelayEvent) (incoming : RelayEvent) : RelayEvent :=
  match current.find? fun message => isMatchingPendingMessage message incoming with
  | some replaced => { incoming with localKey := some replaced.renderKey }
  | none => incoming

/-- The rows that an incoming event leaves. -/
def withoutReplaced (current : List RelayEvent) (incoming : RelayEvent) : List RelayEvent :=
  current.filter fun message =>
    message.id != incoming.id && message.renderKey != incoming.renderKey

def reconcileIncomingMessage (current : List RelayEvent) (incoming : RelayEvent) :
    List RelayEvent :=
  let normalizedCurrent := dedupeMessagesById current
  let incomingWithLocalKey := takeOverKey normalizedCurrent incoming
  withoutReplaced normalizedCurrent incomingWithLocalKey ++ [incomingWithLocalKey]

def mergeMessages (current : List RelayEvent) (incoming : RelayEvent) : List RelayEvent :=
  sortMessages (reconcileIncomingMessage current incoming)

section MergeFacts

variable {current : List RelayEvent} {incoming row : RelayEvent}

/-- Only the key of an event changes when it is taken for a pending row. -/
theorem takeOverKey_cases (current : List RelayEvent) (incoming : RelayEvent) :
    (takeOverKey current incoming = incoming ∧
        ∀ message ∈ current, isMatchingPendingMessage message incoming = false) ∨
      ∃ replaced ∈ current, isMatchingPendingMessage replaced incoming = true ∧
        takeOverKey current incoming = { incoming with localKey := some replaced.renderKey } := by
  unfold takeOverKey
  split
  · rename_i replaced hfind
    have hmatch : isMatchingPendingMessage replaced incoming = true := by
      simpa using List.find?_some hfind
    exact Or.inr ⟨replaced, List.mem_of_find?_eq_some hfind, hmatch, rfl⟩
  · rename_i hfind
    refine Or.inl ⟨rfl, fun message hmessage => ?_⟩
    exact Bool.eq_false_of_not_eq_true (List.find?_eq_none.mp hfind message hmessage)

@[simp] theorem takeOverKey_id : (takeOverKey current incoming).id = incoming.id := by
  unfold takeOverKey
  split
  · rfl
  · rfl

@[simp] theorem takeOverKey_pending : (takeOverKey current incoming).pending =
  incoming.pending := by
  unfold takeOverKey
  split
  · rfl
  · rfl

theorem takeOverKey_of_unmatched
    (h : ∀ message ∈ current, isMatchingPendingMessage message incoming = false) :
    takeOverKey current incoming = incoming := by
  obtain ⟨heq, -⟩ | ⟨replaced, hmem, hmatch, -⟩ := takeOverKey_cases current incoming
  · exact heq
  · rw [h replaced hmem] at hmatch
    cases hmatch

theorem mem_withoutReplaced :
    row ∈ withoutReplaced current incoming ↔
      row ∈ current ∧ row.id ≠ incoming.id ∧ row.renderKey ≠ incoming.renderKey := by
  simp [withoutReplaced]

theorem reconcile_ids_nodup (current : List RelayEvent) (incoming : RelayEvent) :
    ((reconcileIncomingMessage current incoming).map RelayEvent.id).Nodup := by
  unfold reconcileIncomingMessage
  rw [List.map_append, List.nodup_append]
  refine ⟨?_, List.nodup_singleton _, ?_⟩
  · exact (dedupe_ids_nodup current).sublist (List.filter_sublist.map RelayEvent.id)
  · intro id hid other hother heq
    obtain ⟨message, hmessage, rfl⟩ := List.mem_map.mp hid
    obtain rfl := List.mem_singleton.mp hother
    exact (mem_withoutReplaced.mp hmessage).2.1 heq

theorem mem_mergeMessages :
    row ∈ mergeMessages current incoming ↔
      row ∈ withoutReplaced (dedupeMessagesById current)
          (takeOverKey (dedupeMessagesById current) incoming) ∨
        row = takeOverKey (dedupeMessagesById current) incoming := by
  rw [mergeMessages, mem_sortMessages, dedupe_of_nodup (reconcile_ids_nodup current incoming),
    reconcileIncomingMessage, List.mem_append, List.mem_singleton]

theorem mergeMessages_ids_nodup (current : List RelayEvent) (incoming : RelayEvent) :
    ((mergeMessages current incoming).map RelayEvent.id).Nodup :=
  sortMessages_ids_nodup _

/-- The incoming event is in the list afterwards, under its id. -/
theorem incoming_mem_mergeMessages (current : List RelayEvent) (incoming : RelayEvent) :
    ∃ held ∈ mergeMessages current incoming, held.id = incoming.id :=
  ⟨_, mem_mergeMessages.mpr (Or.inr rfl), takeOverKey_id⟩

end MergeFacts

end Merge

end Buzz.Messages
