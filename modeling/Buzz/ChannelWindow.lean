import Buzz.RelayEvents

/-!
# The window of a channel

The timeline of a channel as the desktop holds it: pages of history, each fetched from the cursor
where the one before it ends, and over them the live events that no page holds yet. Eight
operations edit the two independently. Row ids and render keys are to stay unique; the invariant
says so, and every operation is checked against it.
-/

namespace Buzz.Messages

structure ChannelWindowCursor where
  createdAt : ℤ
  eventId : String
  beforeId : Option ℤ
  deriving DecidableEq, Repr

structure ChannelWindowThreadSummary where
  replyCount : ℕ
  descendantCount : ℕ
  lastReplyAt : Option ℚ
  participantPubkeys : List String

structure ChannelWindowRow where
  event : RelayEvent
  thread : Option ChannelWindowThreadSummary

structure LiveThreadSummary where
  summary : ChannelWindowThreadSummary
  createdAt : ℤ

structure ChannelWindowPage where
  startCursor : Option ChannelWindowCursor
  rows : List ChannelWindowRow
  aux : List RelayEvent
  nextCursor : Option ChannelWindowCursor
  hasMore : Bool

structure ChannelWindowStore where
  pages : List ChannelWindowPage
  liveOverlay : List RelayEvent
  liveAux : List RelayEvent
  liveSummaries : List (String × LiveThreadSummary)

def emptyChannelWindowStore : ChannelWindowStore := ⟨[], [], [], []⟩

/-- The ids of the rows. -/
def ChannelWindowPage.rowIds (page : ChannelWindowPage) : List String :=
  page.rows.map fun row => row.event.id

section Pages

def isStrictlyOlder (event : RelayEvent) (cursor : ChannelWindowCursor) : Bool :=
  decide (event.createdAt < cursor.createdAt) ||
    (decide (event.createdAt = cursor.createdAt) && WebText.stringLt cursor.eventId event.id)

/-- A cursor without a row id of the daemon bounds the rows of its page. -/
def outsideInterval (startCursor : Option ChannelWindowCursor) (event : RelayEvent) : Bool :=
  match startCursor with
  | some cursor => cursor.beforeId.isNone && !isStrictlyOlder event cursor
  | none => false

def outOfOrder (previous : Option RelayEvent) (event : RelayEvent) : Bool :=
  match previous with
  | some previous => decide (0 < compareRelayOrder previous event)
  | none => false

/-- The loop over the rows, after the ids seen and the row before. -/
def assertRows (startCursor : Option ChannelWindowCursor) (seen : List String)
    (previous : Option RelayEvent) : List ChannelWindowRow → Except String Unit
  | [] => .ok ()
  | row :: rest =>
      if row.event.id ∈ seen then .error ("Duplicate channel row " ++ row.event.id ++ ".")
      else if outsideInterval startCursor row.event then
        .error ("Channel row " ++ row.event.id ++ " is outside its cursor interval.")
      else if outOfOrder previous row.event then
        .error "Channel window rows are not in relay order."
      else assertRows startCursor (row.event.id :: seen) (some row.event) rest

def assertValidPage (page : ChannelWindowPage) : Except String Unit :=
  if page.hasMore ≠ page.nextCursor.isSome then
    .error "Channel window hasMore and nextCursor disagree."
  else assertRows page.startCursor [] none page.rows

/-- The local keys of the rows, the empty and the missing ones left out. -/
def ChannelWindowPage.localKeys (page : ChannelWindowPage) : List String :=
  page.rows.filterMap fun row => row.event.localKey.filter (· ≠ "")

/-- The live events that the page does not deliver. -/
def ChannelWindowPage.unrepresented (page : ChannelWindowPage) (overlay : List RelayEvent) :
    List RelayEvent :=
  overlay.filter fun event =>
    decide (event.id ∉ page.rowIds) && decide (event.renderKey ∉ page.localKeys)

def channelWindowHasMore (store : ChannelWindowStore) : Bool :=
  match store.pages.getLast? with
  | some tail => tail.hasMore
  | none => false

/-- Where the retained pages end. -/
def ChannelWindowStore.boundary (store : ChannelWindowStore) : Option ChannelWindowCursor :=
  store.pages.getLast?.bind ChannelWindowPage.nextCursor

def replaceNewestChannelWindow (current : ChannelWindowStore) (page : ChannelWindowPage) :
    Except String ChannelWindowStore :=
  if page.startCursor ≠ none then .error "Newest channel page must have a null start cursor."
  else
    match assertValidPage page with
    | .error e => .error e
    | .ok () =>
        .ok { pages := [page]
              liveOverlay := page.unrepresented current.liveOverlay
              liveAux := current.liveAux.filter fun event =>
                decide (event.id ∉ page.aux.map RelayEvent.id)
              liveSummaries := [] }

/-- The first row of the page that a retained page holds already. -/
def overlapping (current : ChannelWindowStore) (page : ChannelWindowPage) : Option String :=
  page.rowIds.find? fun id => id ∈ current.pages.flatMap ChannelWindowPage.rowIds

def appendOlderChannelWindow (current : ChannelWindowStore) (page : ChannelWindowPage) :
    Except String ChannelWindowStore :=
  match assertValidPage page with
  | .error e => .error e
  | .ok () =>
      match current.pages.getLast? with
      | none => .error "Load the newest channel page first."
      | some tail =>
          if tail.hasMore = false ∨ tail.nextCursor = none then
            .error "The channel window is already complete."
          else if page.startCursor ≠ tail.nextCursor then
            .error "Channel page does not continue the retained cursor chain."
          else
            match overlapping current page with
            | some id => .error ("Channel row " ++ id ++ " overlaps a retained page.")
            | none =>
                .ok { current with
                  pages := current.pages ++ [page]
                  liveOverlay := page.unrepresented current.liveOverlay }

end Pages

section Live

def mergeLiveThreadSummary (current : ChannelWindowStore) (rootId : String)
    (incoming : LiveThreadSummary) : ChannelWindowStore :=
  match current.liveSummaries.find? fun entry => entry.1 == rootId with
  | some existing =>
      if incoming.createdAt ≤ existing.2.createdAt then current
      else
        { current with
          liveSummaries := current.liveSummaries.map fun entry =>
            if entry.1 == rootId then (rootId, incoming) else entry }
  | none => { current with liveSummaries := current.liveSummaries ++ [(rootId, incoming)] }

def mergeLiveAux (current : ChannelWindowStore) (event : RelayEvent) : ChannelWindowStore :=
  if current.liveAux.any (fun candidate => candidate.id == event.id) ||
      current.pages.any (fun page => page.aux.any fun candidate => candidate.id == event.id) then
    current
  else { current with liveAux := current.liveAux ++ [event] }

/-- Whether a page row has the id or the render key of the event. -/
def hasPageRow (current : ChannelWindowStore) (event : RelayEvent) : Bool :=
  current.pages.any fun page => page.rows.any fun row =>
    row.event.id == event.id || row.event.renderKey == event.renderKey

/-- Whether the event is left to the pages below the oldest row. -/
def belowOldest (current : ChannelWindowStore) (event : RelayEvent) : Bool :=
  match current.pages.getLast? with
  | none => false
  | some oldestPage =>
      match oldestPage.rows.getLast? with
      | none => false
      | some oldest =>
          decide (event.createdAt < oldest.event.createdAt) ||
            (oldestPage.hasMore && decide (0 ≤ compareRelayOrder event oldest.event))

def mergeLiveChannelWindowEvent (current : ChannelWindowStore) (event : RelayEvent)
    (isTimelineRow : Bool) : ChannelWindowStore :=
  if isTimelineRow = false then mergeLiveAux current event
  else if hasPageRow current event then current
  else if belowOldest current event then current
  else
    { current with
      liveOverlay := sortEvents compareRelayOrder
        (current.liveOverlay.filter (fun candidate =>
          candidate.id != event.id && candidate.renderKey != event.renderKey) ++ [event]) }

def ChannelWindowPage.mapEvents (map : RelayEvent → RelayEvent) (page : ChannelWindowPage) :
    ChannelWindowPage :=
  { page with
    rows := page.rows.map fun row => { row with event := map row.event }
    aux := page.aux.map map }

def mapChannelWindowEvents (store : ChannelWindowStore) (map : RelayEvent → RelayEvent) :
    ChannelWindowStore :=
  { store with
    pages := store.pages.map (ChannelWindowPage.mapEvents map)
    liveOverlay := store.liveOverlay.map map
    liveAux := store.liveAux.map map }

/-- Later values of one id take the place of the first. -/
def setById (events : List RelayEvent) (event : RelayEvent) : List RelayEvent :=
  if events.any fun candidate => candidate.id == event.id then
    events.map fun candidate => if candidate.id == event.id then event else candidate
  else events ++ [event]

def flattenChannelWindowEvents (store : ChannelWindowStore) : List RelayEvent :=
  let held := store.pages.flatMap (fun page => page.rows.map (fun row => row.event) ++ page.aux) ++
    store.liveOverlay ++ store.liveAux
  sortEvents (fun left right => compareRelayOrder right left) (held.foldl setById [])

def eventIsOptimistic (event : RelayEvent) (optimisticId : String) : Bool :=
  event.id == optimisticId || event.localKey == some optimisticId

def ChannelWindowPage.withoutOptimistic (optimisticId : String) (page : ChannelWindowPage) :
    ChannelWindowPage :=
  { page with
    rows := page.rows.filter fun row => !eventIsOptimistic row.event optimisticId
    aux := page.aux.filter fun event => !eventIsOptimistic event optimisticId }

def removeOptimisticFromWindow (store : ChannelWindowStore) (optimisticId : String) :
    ChannelWindowStore :=
  { store with
    liveOverlay := store.liveOverlay.filter fun event => !eventIsOptimistic event optimisticId
    liveAux := store.liveAux.filter fun event => !eventIsOptimistic event optimisticId
    pages := store.pages.map (ChannelWindowPage.withoutOptimistic optimisticId) }

def acknowledgeOptimisticChannelWindowMessage (current : ChannelWindowStore)
    (message : RelayEvent) (optimisticId : String) : ChannelWindowStore :=
  mergeLiveChannelWindowEvent
    { current with liveOverlay := current.liveOverlay.filter fun event => event.id != optimisticId }
    message true

end Live

section Operations

/-- An operation on a window; a map of the events keeps their ids. -/
inductive WindowOp where
  | replaceNewest (page : ChannelWindowPage)
  | appendOlder (page : ChannelWindowPage)
  | mergeLive (event : RelayEvent) (isTimelineRow : Bool)
  | mergeSummary (rootId : String) (incoming : LiveThreadSummary)
  | mapEvents (map : RelayEvent → RelayEvent) (keepsId : ∀ event, (map event).id = event.id)
  | removeOptimistic (optimisticId : String)
  | acknowledge (message : RelayEvent) (optimisticId : String)

namespace WindowOp

def apply (store : ChannelWindowStore) : WindowOp → Except String ChannelWindowStore
  | replaceNewest page => replaceNewestChannelWindow store page
  | appendOlder page => appendOlderChannelWindow store page
  | mergeLive event isTimelineRow => .ok (mergeLiveChannelWindowEvent store event isTimelineRow)
  | mergeSummary rootId incoming => .ok (mergeLiveThreadSummary store rootId incoming)
  | mapEvents map _ => .ok (mapChannelWindowEvents store map)
  | removeOptimistic optimisticId => .ok (removeOptimisticFromWindow store optimisticId)
  | acknowledge message optimisticId =>
      .ok (acknowledgeOptimisticChannelWindowMessage store message optimisticId)

/-- The store that the caller holds afterwards: a throw leaves it alone. -/
def perform (store : ChannelWindowStore) (op : WindowOp) : ChannelWindowStore :=
  match op.apply store with
  | .ok next => next
  | .error _ => store

end WindowOp

/-- Each page starts where the one before it ends. -/
def Chained (start : Option ChannelWindowCursor) : List ChannelWindowPage → Prop
  | [] => True
  | page :: rest => page.startCursor = start ∧ Chained page.nextCursor rest

structure WindowInvariant (store : ChannelWindowStore) : Prop where
  rows : (store.pages.flatMap ChannelWindowPage.rowIds).Nodup
  chain : Chained none store.pages
  apart : ∀ event ∈ store.liveOverlay, ∀ page ∈ store.pages, ∀ row ∈ page.rows,
    event.id ≠ row.event.id ∧ event.renderKey ≠ row.event.renderKey
  keys : (store.liveOverlay.map RelayEvent.renderKey).Nodup

/-- No live event is rendered under the key of a row whose local key is empty or missing, unless
the page delivers the event itself. -/
def ChannelWindowPage.KeysApart (page : ChannelWindowPage) (overlay : List RelayEvent) : Prop :=
  ∀ row ∈ page.rows, row.event.localKey.filter (· ≠ "") = none →
    ∀ event ∈ overlay, event.id ∉ page.rowIds → event.renderKey ≠ row.event.renderKey

/-- What the operation has to meet: a page by the keys of its rows, a map by the keys it gives. -/
def WindowOp.Sound (store : ChannelWindowStore) : WindowOp → Prop
  | replaceNewest page | appendOlder page => page.KeysApart store.liveOverlay
  | mapEvents map _ =>
      (∀ event ∈ store.liveOverlay, ∀ page ∈ store.pages, ∀ row ∈ page.rows,
        (map event).renderKey ≠ (map row.event).renderKey) ∧
      (store.liveOverlay.map fun event => (map event).renderKey).Nodup
  | _ => True

/-- Every operation of the run meets its condition in the store where it starts. -/
def SoundRun (store : ChannelWindowStore) : List WindowOp → Prop
  | [] => True
  | op :: rest => op.Sound store ∧ SoundRun (op.perform store) rest

end Operations

section Invariant

variable {store next : ChannelWindowStore} {page : ChannelWindowPage} {overlay : List RelayEvent}

theorem assertRows_nodup {startCursor : Option ChannelWindowCursor} (rows : List ChannelWindowRow) :
    ∀ {seen : List String} {previous : Option RelayEvent},
      assertRows startCursor seen previous rows = .ok () →
        (rows.map fun row => row.event.id).Nodup ∧ ∀ row ∈ rows, row.event.id ∉ seen := by
  induction rows with
  | nil => exact fun _ => ⟨List.nodup_nil, fun _ h => nomatch h⟩
  | cons row rest ih =>
      intro seen previous h
      unfold assertRows at h
      split_ifs at h with hseen
      obtain ⟨hnodup, hnew⟩ := ih h
      refine ⟨List.nodup_cons.mpr ⟨?_, hnodup⟩, ?_⟩
      · intro hmem
        obtain ⟨other, hother, heq⟩ := List.mem_map.mp hmem
        exact hnew other hother (heq ▸ List.mem_cons_self)
      · intro other hother
        rcases List.mem_cons.mp hother with rfl | hother
        · exact hseen
        · exact fun hmem => hnew other hother (List.mem_cons_of_mem _ hmem)

theorem assertValidPage_nodup (h : assertValidPage page = .ok ()) : page.rowIds.Nodup := by
  unfold assertValidPage at h
  split_ifs at h
  exact (assertRows_nodup page.rows h).1

theorem mem_unrepresented {event : RelayEvent} :
    event ∈ page.unrepresented overlay ↔
      event ∈ overlay ∧ event.id ∉ page.rowIds ∧ event.renderKey ∉ page.localKeys := by
  simp [ChannelWindowPage.unrepresented]

/-- A page that is loaded under its condition shares no identity with what stays live. -/
theorem unrepresented_apart (hkeys : page.KeysApart overlay) :
    ∀ event ∈ page.unrepresented overlay, ∀ row ∈ page.rows,
      event.id ≠ row.event.id ∧ event.renderKey ≠ row.event.renderKey := by
  intro event hevent row hrow
  obtain ⟨hmem, hid, hkey⟩ := mem_unrepresented.mp hevent
  refine ⟨fun heq => hid (heq ▸ List.mem_map_of_mem hrow), ?_⟩
  cases hlocal : row.event.localKey.filter (· ≠ "") with
  | none => exact hkeys row hrow hlocal event hmem hid
  | some key =>
      have hsome : row.event.localKey = some key := (Option.filter_eq_some_iff.mp hlocal).1
      have hrender : row.event.renderKey = key := by simp [RelayEvent.renderKey, hsome]
      intro heq
      apply hkey
      rw [heq, hrender]
      exact List.mem_filterMap.mpr ⟨row, hrow, hlocal⟩

theorem nodup_map_filter {α β : Type} {f : α → β} {l : List α} (p : α → Bool)
    (h : (l.map f).Nodup) : ((l.filter p).map f).Nodup :=
  h.sublist (List.filter_sublist.map f)

theorem chained_append {pages : List ChannelWindowPage} {tail : ChannelWindowPage} :
    ∀ {start : Option ChannelWindowCursor}, Chained start pages → pages.getLast? = some tail →
      page.startCursor = tail.nextCursor → Chained start (pages ++ [page]) := by
  induction pages with
  | nil => exact fun _ h => nomatch h
  | cons first rest ih =>
      intro start h hlast hstart
      cases rest with
      | nil =>
          obtain rfl : first = tail := by simpa using hlast
          exact ⟨h.1, hstart, trivial⟩
      | cons second rest => exact ⟨h.1, ih h.2 (by simpa using hlast) hstart⟩

theorem chained_map {f : ChannelWindowPage → ChannelWindowPage}
    (hstart : ∀ page, (f page).startCursor = page.startCursor)
    (hnext : ∀ page, (f page).nextCursor = page.nextCursor) (pages : List ChannelWindowPage) :
    ∀ {start : Option ChannelWindowCursor}, Chained start pages → Chained start (pages.map f) := by
  induction pages with
  | nil => exact fun h => h
  | cons page rest ih =>
      intro start h
      refine ⟨(hstart page).trans h.1, ?_⟩
      rw [hnext]
      exact ih h.2

theorem WindowInvariant.replaceNewest (h : WindowInvariant store)
    (hkeys : page.KeysApart store.liveOverlay)
    (happly : replaceNewestChannelWindow store page = .ok next) : WindowInvariant next := by
  unfold replaceNewestChannelWindow at happly
  split_ifs at happly with hstart
  split at happly
  · cases happly
  · rename_i hvalid
    cases happly
    constructor
    · simpa using assertValidPage_nodup hvalid
    · exact ⟨not_not.mp hstart, trivial⟩
    · intro event hevent other hother row hrow
      obtain rfl := List.mem_singleton.mp hother
      exact unrepresented_apart hkeys event hevent row hrow
    · exact nodup_map_filter _ h.keys

theorem overlapping_none (h : overlapping store page = none) :
    ∀ id ∈ page.rowIds, id ∉ store.pages.flatMap ChannelWindowPage.rowIds := by
  simpa [overlapping] using h

theorem WindowInvariant.appendOlder (h : WindowInvariant store)
    (hkeys : page.KeysApart store.liveOverlay)
    (happly : appendOlderChannelWindow store page = .ok next) : WindowInvariant next := by
  unfold appendOlderChannelWindow at happly
  split at happly
  · cases happly
  rename_i hvalid
  split at happly
  · cases happly
  rename_i tail htail
  split_ifs at happly with hdone hstart
  split at happly
  · cases happly
  rename_i hoverlap
  cases happly
  constructor
  · rw [List.flatMap_append, List.flatMap_singleton, List.nodup_append]
    refine ⟨h.rows, assertValidPage_nodup hvalid, ?_⟩
    intro id hold other hnew heq
    exact overlapping_none hoverlap other hnew (heq ▸ hold)
  · exact chained_append h.chain htail (not_not.mp hstart)
  · intro event hevent other hother row hrow
    rcases List.mem_append.mp hother with hother | hother
    · exact h.apart event (mem_unrepresented.mp hevent).1 other hother row hrow
    · obtain rfl := List.mem_singleton.mp hother
      exact unrepresented_apart hkeys event hevent row hrow
  · exact nodup_map_filter _ h.keys

/-- The invariant speaks of the pages and the overlay only. -/
theorem WindowInvariant.congr (h : WindowInvariant store) (hpages : next.pages = store.pages)
    (hoverlay : next.liveOverlay = store.liveOverlay) : WindowInvariant next := by
  obtain ⟨hrows, hchain, hapart, hkeys⟩ := h
  constructor
  · rwa [hpages]
  · rwa [hpages]
  · rwa [hpages, hoverlay]
  · rwa [hoverlay]

theorem WindowInvariant.filterOverlay (h : WindowInvariant store) (p : RelayEvent → Bool) :
    WindowInvariant { store with liveOverlay := store.liveOverlay.filter p } where
  rows := h.rows
  chain := h.chain
  apart := fun event hevent => h.apart event (List.mem_filter.mp hevent).1
  keys := nodup_map_filter p h.keys

theorem hasPageRow_eq_false {event : RelayEvent} (h : hasPageRow store event = false) :
    ∀ page ∈ store.pages, ∀ row ∈ page.rows,
      event.id ≠ row.event.id ∧ event.renderKey ≠ row.event.renderKey := by
  intro page hpage row hrow
  have hrows := List.any_eq_false.mp (Bool.eq_false_of_not_eq_true
    (List.any_eq_false.mp h page hpage))
  have hdiffers : ¬(row.event.id = event.id ∨ row.event.renderKey = event.renderKey) := by
    simpa using hrows row hrow
  exact ⟨fun heq => hdiffers (Or.inl heq.symm), fun heq => hdiffers (Or.inr heq.symm)⟩

theorem WindowInvariant.mergeLive (h : WindowInvariant store) (event : RelayEvent)
    (isTimelineRow : Bool) :
    WindowInvariant (mergeLiveChannelWindowEvent store event isTimelineRow) := by
  unfold mergeLiveChannelWindowEvent
  split_ifs with hrow hpage hbelow
  · unfold mergeLiveAux
    split_ifs
    · exact h
    · exact h.congr rfl rfl
  · exact h
  · exact h
  · have hnew := hasPageRow_eq_false (Bool.eq_false_of_not_eq_true hpage)
    constructor
    · exact h.rows
    · exact h.chain
    · intro other hother page hpage row hrow
      rw [mem_sortEvents, List.mem_append, List.mem_filter, List.mem_singleton] at hother
      rcases hother with ⟨hother, -⟩ | rfl
      · exact h.apart other hother page hpage row hrow
      · exact hnew page hpage row hrow
    · rw [((sortEvents_perm compareRelayOrder _).map RelayEvent.renderKey).nodup_iff,
        List.map_append, List.nodup_append]
      refine ⟨nodup_map_filter _ h.keys, List.nodup_singleton _, ?_⟩
      intro key hkey other hother heq
      obtain ⟨candidate, hcandidate, rfl⟩ := List.mem_map.mp hkey
      obtain rfl : other = event.renderKey := by simpa using hother
      have hdiffers := (List.mem_filter.mp hcandidate).2
      simp [heq] at hdiffers

theorem WindowInvariant.mergeSummary (h : WindowInvariant store) (rootId : String)
    (incoming : LiveThreadSummary) :
    WindowInvariant (mergeLiveThreadSummary store rootId incoming) := by
  unfold mergeLiveThreadSummary
  split
  · split_ifs
    · exact h
    · exact h.congr rfl rfl
  · exact h.congr rfl rfl

theorem flatMap_rowIds_mapEvents {map : RelayEvent → RelayEvent}
    (keepsId : ∀ event, (map event).id = event.id) (pages : List ChannelWindowPage) :
    (pages.map (ChannelWindowPage.mapEvents map)).flatMap ChannelWindowPage.rowIds =
      pages.flatMap ChannelWindowPage.rowIds := by
  rw [List.flatMap_map]
  apply List.flatMap_congr
  intro page _
  simp [ChannelWindowPage.rowIds, ChannelWindowPage.mapEvents, keepsId]

theorem WindowInvariant.mapEvents (h : WindowInvariant store) {map : RelayEvent → RelayEvent}
    (keepsId : ∀ event, (map event).id = event.id)
    (hsound : (WindowOp.mapEvents map keepsId).Sound store) :
    WindowInvariant (mapChannelWindowEvents store map) := by
  obtain ⟨hapart, hkeys⟩ := hsound
  constructor
  · unfold mapChannelWindowEvents
    rw [flatMap_rowIds_mapEvents keepsId]
    exact h.rows
  · exact chained_map (f := ChannelWindowPage.mapEvents map) (fun _ => rfl) (fun _ => rfl) _ h.chain
  · intro event hevent page hpage row hrow
    obtain ⟨old, hold, rfl⟩ := List.mem_map.mp hevent
    obtain ⟨oldPage, holdPage, rfl⟩ := List.mem_map.mp hpage
    obtain ⟨oldRow, holdRow, rfl⟩ := List.mem_map.mp hrow
    refine ⟨?_, hapart old hold oldPage holdPage oldRow holdRow⟩
    rw [keepsId, keepsId]
    exact (h.apart old hold oldPage holdPage oldRow holdRow).1
  · simpa [mapChannelWindowEvents, List.map_map, Function.comp_def] using hkeys

theorem rowIds_withoutOptimistic_sublist (optimisticId : String) (pages : List ChannelWindowPage) :
    List.Sublist
      ((pages.map (ChannelWindowPage.withoutOptimistic optimisticId)).flatMap
        ChannelWindowPage.rowIds)
      (pages.flatMap ChannelWindowPage.rowIds) := by
  induction pages with
  | nil => exact List.Sublist.refl _
  | cons page rest ih =>
      rw [List.map_cons, List.flatMap_cons, List.flatMap_cons]
      exact (List.filter_sublist.map fun row : ChannelWindowRow => row.event.id).append ih

theorem WindowInvariant.removeOptimistic (h : WindowInvariant store) (optimisticId : String) :
    WindowInvariant (removeOptimisticFromWindow store optimisticId) := by
  constructor
  · exact h.rows.sublist (rowIds_withoutOptimistic_sublist optimisticId store.pages)
  · exact chained_map (f := ChannelWindowPage.withoutOptimistic optimisticId) (fun _ => rfl)
      (fun _ => rfl) _ h.chain
  · intro event hevent page hpage row hrow
    obtain ⟨oldPage, holdPage, rfl⟩ := List.mem_map.mp hpage
    exact h.apart event (List.mem_filter.mp hevent).1 oldPage holdPage row
      (List.mem_filter.mp hrow).1
  · exact nodup_map_filter _ h.keys

theorem WindowInvariant.acknowledge (h : WindowInvariant store) (message : RelayEvent)
    (optimisticId : String) :
    WindowInvariant (acknowledgeOptimisticChannelWindowMessage store message optimisticId) :=
  (h.filterOverlay _).mergeLive message true

theorem WindowInvariant.perform (h : WindowInvariant store) (op : WindowOp)
    (hsound : op.Sound store) : WindowInvariant (op.perform store) := by
  unfold WindowOp.perform
  split
  · rename_i next happly
    cases op with
    | replaceNewest page => exact h.replaceNewest hsound happly
    | appendOlder page => exact h.appendOlder hsound happly
    | mergeLive event isTimelineRow =>
        cases happly
        exact h.mergeLive event isTimelineRow
    | mergeSummary rootId incoming =>
        cases happly
        exact h.mergeSummary rootId incoming
    | mapEvents map keepsId =>
        cases happly
        exact h.mapEvents keepsId hsound
    | removeOptimistic optimisticId =>
        cases happly
        exact h.removeOptimistic optimisticId
    | acknowledge message optimisticId =>
        cases happly
        exact h.acknowledge message optimisticId
  · exact h

theorem WindowInvariant.run (ops : List WindowOp) :
    ∀ {store : ChannelWindowStore}, WindowInvariant store → SoundRun store ops →
      WindowInvariant (ops.foldl WindowOp.perform store) := by
  induction ops with
  | nil => exact fun h _ => h
  | cons op rest ih => exact fun h hsound => ih (h.perform op hsound.1) hsound.2

theorem windowInvariant_empty : WindowInvariant emptyChannelWindowStore where
  rows := List.nodup_nil
  chain := trivial
  apart := fun _ h => nomatch h
  keys := List.nodup_nil

/-- In a run whose loads and maps meet their conditions the invariant holds at the end, and an
operation that throws there changes nothing. -/
theorem channel_window_invariant {ops : List WindowOp}
    (hsound : SoundRun emptyChannelWindowStore ops) :
    WindowInvariant (ops.foldl WindowOp.perform emptyChannelWindowStore) ∧
      ∀ (op : WindowOp) (e : String),
        op.apply (ops.foldl WindowOp.perform emptyChannelWindowStore) = .error e →
          op.perform (ops.foldl WindowOp.perform emptyChannelWindowStore) =
            ops.foldl WindowOp.perform emptyChannelWindowStore := by
  refine ⟨windowInvariant_empty.run ops hsound, ?_⟩
  intro op e herror
  rw [WindowOp.perform, herror]

section Keyless

/-- A message of another peer, at the given second and under the given client id. -/
def peerEvent (id localKey : String) (createdAt : ℤ) : RelayEvent :=
  ⟨id, some localKey, "peer", createdAt, kindStreamMessage, [], "hi", "", false⟩

def pageOf (events : List RelayEvent) : ChannelWindowPage :=
  ⟨none, events.map fun event => ⟨event, none⟩, [], none, false⟩

/-- Two messages of a peer that leaves the client id empty: the first arrives live, the second on
the page that is loaded next. -/
def keylessRun : List WindowOp :=
  [.mergeLive (peerEvent "m2" "" 2) true, .replaceNewest (pageOf [peerEvent "m1" "" 1])]

theorem keyless_rows_collide :
    ¬WindowInvariant (keylessRun.foldl WindowOp.perform emptyChannelWindowStore) := by
  intro h
  have hrun : keylessRun.foldl WindowOp.perform emptyChannelWindowStore =
      ⟨[pageOf [peerEvent "m1" "" 1]], [peerEvent "m2" "" 2], [], []⟩ := rfl
  rw [hrun] at h
  exact (h.apart _ List.mem_cons_self _ List.mem_cons_self _ List.mem_cons_self).2 rfl

theorem channel_window_invariant_page :
    let ops : List WindowOp := [.mergeLive (peerEvent "m2" "c2" 2) true,
      .replaceNewest (pageOf [peerEvent "m1" "c1" 1]), .appendOlder (pageOf [])]
    SoundRun emptyChannelWindowStore ops ∧
      WindowInvariant (ops.foldl WindowOp.perform emptyChannelWindowStore) := by
  have hsound : SoundRun emptyChannelWindowStore [.mergeLive (peerEvent "m2" "c2" 2) true,
      .replaceNewest (pageOf [peerEvent "m1" "c1" 1]), .appendOlder (pageOf [])] := by
    refine ⟨trivial, ?_, ?_, trivial⟩
    · intro row hrow hlocal
      obtain rfl := List.mem_singleton.mp hrow
      simp [peerEvent] at hlocal
    · intro row hrow
      cases hrow
  exact ⟨hsound, (channel_window_invariant hsound).1⟩

end Keyless

end Invariant

end Buzz.Messages
