import Buzz.ChannelWindow
import Buzz.DoubleRounding
import Buzz.ExceptRules

/-!
# Messages of the daemon

The daemon carries bytes: a base64 payload with its own metadata beside it. The adapter decodes the
payload into an envelope and gives the timeline an event; a history page becomes a page of the
window, a history scan the replies of a thread.

The decoder tests `text` and `clientId` and only casts the rest, so a payload of a peer decides
what stands in `mentions` and `markers`.
-/

namespace Buzz.Messages

open DoubleRounding JsonText

section Envelope

structure ChannelMessageEnvelope where
  text : String
  createdAt : ℚ
  clientId : String
  mentions : Option (List Value)
  markers : Option (List Value)

def decodeBase64Utf8 (payload : String) : Option String :=
  (WebText.atob payload).map WebText.decodeUtf8

/-- A property of an object: of two members with one name the later. -/
def property (members : List (String × Value)) (name : String) : Option Value :=
  (members.reverse.find? fun entry => entry.1 == name).map Prod.snd

def arrayOf : Option Value → Option (List Value)
  | some (.array items) => some items
  | _ => none

/-- `now` is the time of the call in milliseconds. -/
def envelopeOf (now : ℤ) (members : List (String × Value)) : Option ChannelMessageEnvelope :=
  match property members "text", property members "clientId" with
  | some (.string text), some (.string clientId) =>
      some
        { text := text
          createdAt :=
            match property members "createdAt" with
            | some (.number value) => toDouble value.toRat
            | _ => now
          clientId := clientId
          mentions := arrayOf (property members "mentions")
          markers := arrayOf (property members "markers") }
  | _, _ => none

def decodeChannelMessageEnvelope (now : ℤ) (payload : String) : Option ChannelMessageEnvelope :=
  match decodeBase64Utf8 payload with
  | none => none
  | some text =>
      match WebText.parseJson text with
      | some (.object members) => envelopeOf now members
      | _ => none

end Envelope

section Frames

structure X0xHistoryRow where
  id : ℤ
  msgId : String
  authorAgent : Option String
  sentAtMs : ℤ
  seenAtMs : ℤ
  contentType : String
  payload : String
  threadRoot : Option String
  threadParent : Option String

structure X0xHistoryPage where
  rows : List X0xHistoryRow
  nextCursor : Option ℤ

/-- The page as the command of the daemon answers it. -/
def fromRawX0xHistoryPage (rows : List X0xHistoryRow) (hasMore : Bool) : X0xHistoryPage :=
  ⟨rows, if hasMore then rows.getLast?.map X0xHistoryRow.id else none⟩

structure X0xLiveMessage where
  payload : String
  origin : Option String
  msgId : Option String
  threadRoot : Option String
  threadParent : Option String

structure X0xLiveDirectMessage where
  msgId : Option String
  sender : String
  payload : String
  receivedAt : ℤ
  verified : Bool
  threadRoot : Option String
  threadParent : Option String

/-- A durable row also holds a message as literal text, under the id of the row. -/
def decodeHistoryMessageEnvelope (now : ℤ) (row : X0xHistoryRow) : Option ChannelMessageEnvelope :=
  match decodeChannelMessageEnvelope now row.payload with
  | some envelope => some envelope
  | none =>
      if row.contentType ≠ "text/plain" then none
      else
        match decodeBase64Utf8 row.payload with
        | none => none
        | some text =>
            match WebText.parseJson text with
            | some _ => none
            | none => some ⟨text, row.sentAtMs, row.msgId, none, none⟩

end Frames

section Tags

/-- A string that is neither missing nor empty. -/
def truthy (value : Option String) : Option String :=
  value.filter (· ≠ "")

/-- `value === author`. -/
def isAuthor (author : Option String) : Value → Bool
  | .string text => author == some text
  | .null => author == none
  | _ => false

/-- The tag of a marker; `trim` is a method of strings alone. -/
def markerTag : Value → Except String (List (List Value))
  | .string text =>
      .ok (if WebText.trim text = "" then [] else [textTag ["client", WebText.trim text]])
  | .null => .error "Cannot read properties of null (reading 'trim')"
  | _ => .error "marker.trim is not a function"

def markerTags : List Value → Except String (List (List Value))
  | [] => .ok []
  | marker :: rest => do
      let first ← markerTag marker
      let others ← markerTags rest
      return first ++ others

def mentionTags (author : Option String) (mentions : List Value) : List (List Value) :=
  (mentions.filter fun agentId => !isAuthor author agentId).map fun agentId =>
    [.string "p", agentId]

/-- The ancestry as the daemon gives it. -/
def ancestryTags (threadRoot threadParent : Option String) : List (List Value) :=
  match truthy threadRoot with
  | none => []
  | some root =>
      textTag ["e", root, "", "root"] ::
        match truthy threadParent with
        | none => []
        | some parent => [textTag ["e", parent, "", "reply"]]

def buildAdapterTags (channelId : String) (author : Option String)
    (envelope : ChannelMessageEnvelope) (threadRoot threadParent : Option String) :
    Except String (List (List Value)) := do
  let clients ← markerTags (envelope.markers.getD [])
  return textTag ["h", channelId] ::
    ((truthy author).toList.map (fun agentId => textTag ["p", agentId]) ++
      mentionTags author (envelope.mentions.getD []) ++ clients ++
      ancestryTags threadRoot threadParent)

end Tags

section Conversions

variable (now : ℤ) (channelId : String)

def liveMessageToRelayEvent (msg : X0xLiveMessage) : Except String (Option RelayEvent) :=
  match decodeChannelMessageEnvelope now msg.payload with
  | none => .ok none
  | some envelope => do
      let tags ← buildAdapterTags channelId msg.origin envelope msg.threadRoot msg.threadParent
      return some
        { id := (truthy msg.msgId).getD envelope.clientId
          localKey := some envelope.clientId
          pubkey := msg.origin.getD ""
          createdAt := (toDouble (envelope.createdAt / 1000)).floor
          kind := kindStreamMessage
          tags := tags
          content := envelope.text
          sig := ""
          pending := false }

def liveDirectMessageToRelayEvent (msg : X0xLiveDirectMessage) :
    Except String (Option RelayEvent) :=
  match decodeChannelMessageEnvelope now msg.payload with
  | none => .ok none
  | some envelope => do
      let tags ← buildAdapterTags channelId (some msg.sender) envelope msg.threadRoot
        msg.threadParent
      return some
        { id := (truthy msg.msgId).getD envelope.clientId
          localKey := some envelope.clientId
          pubkey := msg.sender
          createdAt := msg.receivedAt / 1000
          kind := kindStreamMessage
          tags := tags
          content := envelope.text
          sig := if msg.verified then "verified" else ""
          pending := false }

def isRenderableType (contentType : String) : Bool :=
  contentType.startsWith "text/" || contentType == "application/json"

/-- The envelope of a row that may be rendered. -/
def rowEnvelope (row : X0xHistoryRow) : Option ChannelMessageEnvelope :=
  if isRenderableType row.contentType then decodeHistoryMessageEnvelope now row else none

def historyRowToRelayEvent (row : X0xHistoryRow) : Except String (Option RelayEvent) :=
  match rowEnvelope now row with
  | none => .ok none
  | some envelope => do
      let tags ← buildAdapterTags channelId row.authorAgent envelope row.threadRoot row.threadParent
      return some
        { id := row.msgId
          localKey := some envelope.clientId
          pubkey := row.authorAgent.getD ""
          createdAt := row.seenAtMs / 1000
          kind := kindStreamMessage
          tags := tags
          content := envelope.text
          sig := ""
          pending := false }

end Conversions

section Pages

variable (now : ℤ) (channelId : String)

def historyCursor (page : X0xHistoryPage) : Option ChannelWindowCursor :=
  match page.nextCursor, page.rows.getLast? with
  | some beforeId, some oldest => some ⟨oldest.seenAtMs / 1000, oldest.msgId, some beforeId⟩
  | _, _ => none

/-- A reply to the root, other than the root itself. -/
def X0xHistoryRow.repliesTo (rootId : String) (row : X0xHistoryRow) : Bool :=
  row.threadRoot == some rootId && row.msgId != rootId

def threadSummary (rootId : String) (rows : List X0xHistoryRow) :
    Option ChannelWindowThreadSummary :=
  match rows.filter (X0xHistoryRow.repliesTo rootId) with
  | [] => none
  | first :: rest =>
      some
        { replyCount := (first :: rest).length
          descendantCount := (first :: rest).length
          lastReplyAt := some
            (rest.foldl (fun latest row => max latest ((row.seenAtMs : ℚ) / 1000))
              ((first.seenAtMs : ℚ) / 1000))
          participantPubkeys := ((first :: rest).filterMap fun row =>
            truthy row.authorAgent).eraseDups }

/-- No ancestry, or its own root. -/
def X0xHistoryRow.isTopLevel (row : X0xHistoryRow) : Bool :=
  row.threadRoot == none || row.threadRoot == some row.msgId

/-- What a row of the history puts on the window page. -/
def windowRow (all : List X0xHistoryRow) (row : X0xHistoryRow) :
    Option RelayEvent → List ChannelWindowRow
  | none => []
  | some event => if row.isTopLevel then [⟨event, threadSummary row.msgId all⟩] else []

/-- The rows of the window page, out of all rows of the history page. -/
def windowRows (all : List X0xHistoryRow) : List X0xHistoryRow →
    Except String (List ChannelWindowRow)
  | [] => .ok []
  | row :: rest => do
      let event ← historyRowToRelayEvent now channelId row
      let others ← windowRows all rest
      return windowRow all row event ++ others

def nativeHistoryPageToChannelWindowPage (page : X0xHistoryPage)
    (startCursor : Option ChannelWindowCursor) : Except String ChannelWindowPage := do
  let rows ← windowRows now channelId page.rows page.rows
  return ⟨startCursor, rows, [], historyCursor page, (historyCursor page).isSome⟩

/-- The replies of one page to the root. -/
def replyEvents (rootId : String) : List X0xHistoryRow → Except String (List RelayEvent)
  | [] => .ok []
  | row :: rest =>
      if row.repliesTo rootId then do
        let event ← historyRowToRelayEvent now channelId row
        let others ← replyEvents rootId rest
        return event.toList ++ others
      else replyEvents rootId rest

def maxNativeHistoryPages : ℕ := 500

/-- The loop over the pages of the scope, with the number of pages that may still be read. -/
def collectReplies (list : Option ℤ → X0xHistoryPage) (rootId : String) :
    ℕ → Option ℤ → Except String (List RelayEvent)
  | 0, _ => .error ("Native thread " ++ rootId ++ " exceeded the history page safety limit.")
  | fuel + 1, beforeId => do
      let page := list beforeId
      let replies ← replyEvents now channelId rootId page.rows
      match page.nextCursor with
      | none => return replies
      | some cursor =>
          let older ← collectReplies list rootId fuel (some cursor)
          return replies ++ older

/-- `list` is the daemon and `localeCompare` the collation of the browser. -/
def fetchNativeThreadReplies (list : Option ℤ → X0xHistoryPage)
    (localeCompare : String → String → ℤ) (rootId : String) : Except String (List RelayEvent) := do
  let replies ← collectReplies now channelId list rootId maxNativeHistoryPages none
  return sortEvents
    (fun left right =>
      if left.createdAt ≠ right.createdAt then left.createdAt - right.createdAt
      else localeCompare left.id right.id) replies

end Pages

section Payloads

variable {now : ℤ} {channelId : String} {author threadRoot threadParent : Option String}
  {envelope : ChannelMessageEnvelope}

def IsText (value : Value) : Prop :=
  ∃ text, value = .string text

def TextTags (tags : List (List Value)) : Prop :=
  ∀ tag ∈ tags, ∀ value ∈ tag, IsText value

/-- The cast fields hold strings, but for a missing mention where the author is missing too. -/
structure ChannelMessageEnvelope.Plain (envelope : ChannelMessageEnvelope)
    (author : Option String) : Prop where
  markers : ∀ marker ∈ envelope.markers.getD [], IsText marker
  mentions : ∀ agentId ∈ envelope.mentions.getD [], IsText agentId ∨
    (agentId = .null ∧ author = none)

theorem textTags_textTag (parts : List String) : TextTags [textTag parts] := by
  intro tag htag value hvalue
  obtain rfl := List.mem_singleton.mp htag
  obtain ⟨text, -, rfl⟩ := List.mem_map.mp hvalue
  exact ⟨text, rfl⟩

theorem textTags_append {first rest : List (List Value)} :
    TextTags (first ++ rest) ↔ TextTags first ∧ TextTags rest := by
  constructor
  · intro h
    exact ⟨fun tag htag => h tag (List.mem_append_left _ htag),
      fun tag htag => h tag (List.mem_append_right _ htag)⟩
  · rintro ⟨hfirst, hrest⟩ tag htag
    exact (List.mem_append.mp htag).elim (hfirst tag) (hrest tag)

theorem textTags_nil : TextTags [] :=
  fun _ h => nomatch h

theorem markerTag_ok {marker : Value} {tags : List (List Value)} (h : markerTag marker = .ok tags) :
    IsText marker ∧ TextTags tags := by
  cases marker with
  | string text =>
      refine ⟨⟨text, rfl⟩, ?_⟩
      cases h
      split_ifs
      · exact textTags_nil
      · exact textTags_textTag _
  | null | bool | number | array | object => cases h

theorem markerTags_ok {markers : List Value} :
    ∀ {tags : List (List Value)}, markerTags markers = .ok tags →
      (∀ marker ∈ markers, IsText marker) ∧ TextTags tags := by
  induction markers with
  | nil =>
      intro tags h
      cases h
      exact ⟨fun _ hmem => (nomatch hmem), textTags_nil⟩
  | cons marker rest ih =>
      intro tags h
      obtain ⟨first, hfirst, h⟩ := except_bind_ok h
      obtain ⟨others, hothers, h⟩ := except_bind_ok h
      cases h
      obtain ⟨htext, htags⟩ := markerTag_ok hfirst
      obtain ⟨hrest, hmore⟩ := ih hothers
      exact ⟨List.forall_mem_cons.mpr ⟨htext, hrest⟩, textTags_append.mpr ⟨htags, hmore⟩⟩

theorem markerTags_of_text {markers : List Value} (h : ∀ marker ∈ markers, IsText marker) :
    ∃ tags, markerTags markers = .ok tags := by
  induction markers with
  | nil => exact ⟨[], rfl⟩
  | cons marker rest ih =>
      obtain ⟨text, rfl⟩ := h marker List.mem_cons_self
      obtain ⟨others, hothers⟩ := ih fun other hother => h other (List.mem_cons_of_mem _ hother)
      obtain ⟨first, hfirst⟩ : ∃ first, markerTag (.string text) = .ok first := ⟨_, rfl⟩
      refine ⟨first ++ others, ?_⟩
      rw [markerTags, hfirst, hothers]
      rfl

theorem textTags_mentionTags {mentions : List Value} :
    TextTags (mentionTags author mentions) ↔
      ∀ agentId ∈ mentions, IsText agentId ∨ (agentId = .null ∧ author = none) := by
  constructor
  · intro h agentId hmem
    by_cases hauthor : isAuthor author agentId = true
    · cases agentId with
      | string text => exact Or.inl ⟨text, rfl⟩
      | null => exact Or.inr ⟨rfl, by simpa [isAuthor] using hauthor⟩
      | bool | number | array | object => cases hauthor
    · have htag : [.string "p", agentId] ∈ mentionTags author mentions :=
        List.mem_map_of_mem (List.mem_filter.mpr ⟨hmem, by simpa using hauthor⟩)
      exact Or.inl (h _ htag agentId (by simp))
  · intro h tag htag value hvalue
    obtain ⟨agentId, hagent, rfl⟩ := List.mem_map.mp htag
    obtain ⟨hmem, hother⟩ := List.mem_filter.mp hagent
    rcases List.mem_cons.mp hvalue with rfl | hvalue
    · exact ⟨"p", rfl⟩
    · obtain rfl := List.mem_singleton.mp hvalue
      obtain htext | ⟨rfl, rfl⟩ := h value hmem
      · exact htext
      · simp [isAuthor] at hother

theorem textTags_ancestryTags : TextTags (ancestryTags threadRoot threadParent) := by
  unfold ancestryTags
  split
  · exact textTags_nil
  · split
    · exact textTags_textTag _
    · exact textTags_append.mpr ⟨textTags_textTag _, textTags_textTag _⟩

theorem textTags_author (author : Option String) :
    TextTags ((truthy author).toList.map fun agentId => textTag ["p", agentId]) := by
  cases truthy author with
  | none => exact textTags_nil
  | some agentId => exact textTags_textTag _

theorem buildAdapterTags_text_iff (channelId : String) (threadRoot threadParent : Option String) :
    (∃ tags, buildAdapterTags channelId author envelope threadRoot threadParent = .ok tags ∧
      TextTags tags) ↔ envelope.Plain author := by
  constructor
  · rintro ⟨tags, htags, htext⟩
    obtain ⟨clients, hclients, h⟩ := except_bind_ok htags
    cases h
    rw [← List.singleton_append] at htext
    obtain ⟨-, hrest⟩ := textTags_append.mp htext
    obtain ⟨hrest, -⟩ := textTags_append.mp hrest
    obtain ⟨hrest, -⟩ := textTags_append.mp hrest
    obtain ⟨-, hmentions⟩ := textTags_append.mp hrest
    exact ⟨(markerTags_ok hclients).1, textTags_mentionTags.mp hmentions⟩
  · intro hplain
    obtain ⟨clients, hclients⟩ := markerTags_of_text hplain.markers
    refine ⟨_, by rw [buildAdapterTags, hclients]; rfl, ?_⟩
    have hmentions := textTags_mentionTags.mpr hplain.mentions
    have hfront := textTags_append.mpr ⟨textTags_author author, hmentions⟩
    have hmiddle := textTags_append.mpr ⟨hfront, (markerTags_ok hclients).2⟩
    rw [← List.singleton_append]
    exact textTags_append.mpr ⟨textTags_textTag _,
      textTags_append.mpr ⟨hmiddle, textTags_ancestryTags⟩⟩

/-- A payload that holds no envelope gives nothing, one that holds an envelope an event with tags
of strings. -/
def Delivered (decoded : Option ChannelMessageEnvelope)
    (result : Except String (Option RelayEvent)) : Prop :=
  match decoded with
  | none => result = .ok none
  | some _ => ∃ event, result = .ok (some event) ∧ TextTags event.tags

theorem delivered_iff (decoded : Option ChannelMessageEnvelope)
    (event : ChannelMessageEnvelope → List (List Value) → RelayEvent)
    (htags : ∀ envelope tags, (event envelope tags).tags = tags) :
    Delivered decoded
        (match decoded with
          | none => .ok none
          | some envelope => do
              let tags ← buildAdapterTags channelId author envelope threadRoot threadParent
              return some (event envelope tags)) ↔
      ∀ envelope, decoded = some envelope → envelope.Plain author := by
  cases decoded with
  | none => exact iff_of_true rfl fun _ h => nomatch h
  | some envelope =>
      simp only [Delivered, Option.some.injEq, forall_eq']
      rw [← buildAdapterTags_text_iff channelId threadRoot threadParent]
      constructor
      · rintro ⟨found, hfound, htext⟩
        obtain ⟨tags, hbuild, hevent⟩ := except_bind_ok hfound
        cases hevent
        rw [htags] at htext
        exact ⟨tags, hbuild, htext⟩
      · rintro ⟨tags, hbuild, htext⟩
        refine ⟨event envelope tags, ?_, ?_⟩
        · rw [hbuild]
          rfl
        · rw [htags]
          exact htext

theorem live_delivered_iff (msg : X0xLiveMessage) :
    Delivered (decodeChannelMessageEnvelope now msg.payload)
        (liveMessageToRelayEvent now channelId msg) ↔
      ∀ envelope, decodeChannelMessageEnvelope now msg.payload = some envelope →
        envelope.Plain msg.origin :=
  delivered_iff _ (fun envelope tags => ⟨(truthy msg.msgId).getD envelope.clientId,
    some envelope.clientId, msg.origin.getD "", (toDouble (envelope.createdAt / 1000)).floor,
    kindStreamMessage, tags, envelope.text, "", false⟩) fun _ _ => rfl

theorem direct_delivered_iff (msg : X0xLiveDirectMessage) :
    Delivered (decodeChannelMessageEnvelope now msg.payload)
        (liveDirectMessageToRelayEvent now channelId msg) ↔
      ∀ envelope, decodeChannelMessageEnvelope now msg.payload = some envelope →
        envelope.Plain (some msg.sender) :=
  delivered_iff _ (fun envelope tags => ⟨(truthy msg.msgId).getD envelope.clientId,
    some envelope.clientId, msg.sender, msg.receivedAt / 1000, kindStreamMessage, tags,
    envelope.text, if msg.verified then "verified" else "", false⟩) fun _ _ => rfl

theorem row_delivered_iff (channelId : String) (row : X0xHistoryRow) :
    Delivered (rowEnvelope now row) (historyRowToRelayEvent now channelId row) ↔
      ∀ envelope, rowEnvelope now row = some envelope → envelope.Plain row.authorAgent :=
  delivered_iff _ (fun envelope tags => ⟨row.msgId, some envelope.clientId,
    row.authorAgent.getD "", row.seenAtMs / 1000, kindStreamMessage, tags, envelope.text, "",
      false⟩)
    fun _ _ => rfl

theorem Delivered.ok {decoded : Option ChannelMessageEnvelope}
    {result : Except String (Option RelayEvent)} (h : Delivered decoded result) :
    ∃ event, result = .ok event := by
  cases decoded with
  | none => exact ⟨none, h⟩
  | some envelope =>
      obtain ⟨event, hevent, -⟩ := h
      exact ⟨some event, hevent⟩

/-- When every row converts, each top-level event stands on the page. -/
theorem windowRows_of_ok (all : List X0xHistoryRow) {rows : List X0xHistoryRow}
    (h : ∀ row ∈ rows, ∃ event, historyRowToRelayEvent now channelId row = .ok event) :
    ∃ out, windowRows now channelId all rows = .ok out ∧
      ∀ row ∈ rows, row.isTopLevel = true → ∀ event,
        historyRowToRelayEvent now channelId row = .ok (some event) →
          ∃ found ∈ out, found.event = event := by
  induction rows with
  | nil => exact ⟨[], rfl, fun _ hrow => nomatch hrow⟩
  | cons row rest ih =>
      obtain ⟨event, hevent⟩ := h row List.mem_cons_self
      obtain ⟨others, hothers, hfound⟩ := ih fun other hother =>
        h other (List.mem_cons_of_mem _ hother)
      refine ⟨windowRow all row event ++ others, ?_, ?_⟩
      · rw [windowRows, hevent, hothers]
        rfl
      · intro other hother htop found hconvert
        rcases List.mem_cons.mp hother with rfl | hother
        · rw [hevent] at hconvert
          cases hconvert
          exact ⟨⟨found, threadSummary other.msgId all⟩, by simp [windowRow, htop], rfl⟩
        · obtain ⟨window, hwindow, heq⟩ := hfound other hother htop found hconvert
          exact ⟨window, List.mem_append_right _ hwindow, heq⟩

/-- Every row of the page gives its event or nothing, and the events of the top-level rows stand on
the window page. -/
def PageDelivered (now : ℤ) (channelId : String) (page : X0xHistoryPage)
    (startCursor : Option ChannelWindowCursor) : Prop :=
  (∀ row ∈ page.rows, Delivered (rowEnvelope now row) (historyRowToRelayEvent now channelId row)) ∧
    ∃ out, nativeHistoryPageToChannelWindowPage now channelId page startCursor = .ok out ∧
      ∀ row ∈ page.rows, row.isTopLevel = true → ∀ event,
        historyRowToRelayEvent now channelId row = .ok (some event) →
          ∃ found ∈ out.rows, found.event = event

theorem page_delivered_iff (page : X0xHistoryPage) (startCursor : Option ChannelWindowCursor) :
    PageDelivered now channelId page startCursor ↔
      ∀ row ∈ page.rows, ∀ envelope, rowEnvelope now row = some envelope →
        envelope.Plain row.authorAgent := by
  constructor
  · intro h row hrow
    exact (row_delivered_iff channelId row).mp (h.1 row hrow)
  · intro h
    have hrows := fun row hrow => (row_delivered_iff channelId row).mpr (h row hrow)
    obtain ⟨out, hout, hfound⟩ :=
      windowRows_of_ok page.rows fun row hrow => (hrows row hrow).ok
    exact ⟨hrows, ⟨startCursor, out, [], historyCursor page, (historyCursor page).isSome⟩,
      by rw [nativeHistoryPageToChannelWindowPage, hout]; rfl, hfound⟩

theorem payload_delivered_iff (now : ℤ) (channelId : String) :
    (∀ page startCursor, PageDelivered now channelId page startCursor ↔
      ∀ row ∈ page.rows, ∀ envelope, rowEnvelope now row = some envelope →
        envelope.Plain row.authorAgent) ∧
    (∀ msg : X0xLiveMessage,
      Delivered (decodeChannelMessageEnvelope now msg.payload)
          (liveMessageToRelayEvent now channelId msg) ↔
        ∀ envelope, decodeChannelMessageEnvelope now msg.payload = some envelope →
          envelope.Plain msg.origin) ∧
    ∀ msg : X0xLiveDirectMessage,
      Delivered (decodeChannelMessageEnvelope now msg.payload)
          (liveDirectMessageToRelayEvent now channelId msg) ↔
        ∀ envelope, decodeChannelMessageEnvelope now msg.payload = some envelope →
          envelope.Plain (some msg.sender) :=
  ⟨page_delivered_iff, live_delivered_iff, direct_delivered_iff⟩

/-- A peer's row with the payload `{"text":"hi","clientId":"c1","markers":[1]}`. -/
def numberMarkerRow : X0xHistoryRow :=
  ⟨1, "m1", some "peer", 0, 0, "application/json",
    "eyJ0ZXh0IjoiaGkiLCJjbGllbnRJZCI6ImMxIiwibWFya2VycyI6WzFdfQ==", none, none⟩

theorem number_marker_breaks_page :
    ¬∀ now channelId page startCursor, PageDelivered now channelId page startCursor := by
  intro h
  obtain ⟨-, out, hout, -⟩ := h 0 "general" ⟨[numberMarkerRow], none⟩ none
  have herror : (match nativeHistoryPageToChannelWindowPage 0 "general" ⟨[numberMarkerRow], none⟩
      none with
    | .ok _ => true
    | .error _ => false) = false := by
    decide +kernel
  rw [hout] at herror
  cases herror

end Payloads

end Buzz.Messages
