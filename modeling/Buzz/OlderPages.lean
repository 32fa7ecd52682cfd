import Buzz.HistoryWindow
import Mathlib.Control.Monad.Basic

/-!
# Paging beside the head refresh

A pass reads the boundary of the retained pages, asks the daemon for the page below it, and appends
what comes back to whatever is retained by then. The query of the newest page runs every two seconds
and drops the pages below its own, so the boundary may have moved meanwhile. A pass that comes back
to another boundary throws; so does one whose page the window refuses.
-/

namespace Buzz.Messages

section Passes

/-- The promise in the table of passes: its page is on the way, or it is settled. -/
inductive RunningPass where
  | fetching (requestCursor : ChannelWindowCursor)
  | settled (hasOlderMessages : Except String Bool)

/-- A pass up to its request. -/
def startPage (window : Option ChannelWindowStore) (shouldContinue : Bool) : RunningPass :=
  match window with
  | none => .settled (.ok false)
  | some store =>
      if channelWindowHasMore store = false then .settled (.ok false)
      else
        match store.boundary with
        | none => .settled (.ok false)
        | some requestCursor =>
            if shouldContinue then .fetching requestCursor else .settled (.ok false)

/-- What the daemon answers: rows, and whether it has more. -/
structure HistoryReply where
  rows : List X0xHistoryRow
  hasMore : Bool

def fetchNativeChannelWindow (now : ℤ) (channelId : String)
    (startCursor : Option ChannelWindowCursor) (reply : Except String HistoryReply) :
    Except String ChannelWindowPage := do
  let page ← reply
  nativeHistoryPageToChannelWindowPage now channelId (fromRawX0xHistoryPage page.rows page.hasMore)
    startCursor

/-- A pass from the answer on: the window it leaves, and what it reports. -/
def finishPage (window : Option ChannelWindowStore) (shouldContinue : Bool)
    (fetched : Except String ChannelWindowPage) : Option ChannelWindowStore × Except String Bool :=
  match fetched with
  | .error e => (window, .error e)
  | .ok page =>
      if shouldContinue = false then (window, .ok true)
      else
        match window with
        | none => (none, .ok true)
        | some retained =>
            match appendOlderChannelWindow retained page with
            | .error e => (some retained, .error e)
            | .ok next => (some next, .ok page.hasMore)

/-- The end of the query for the newest page; a query that throws leaves the window alone. -/
def refreshNewest (window : Option ChannelWindowStore)
    (fetched : Except String ChannelWindowPage) : Option ChannelWindowStore :=
  match fetched >>= replaceNewestChannelWindow (window.getD emptyChannelWindowStore) with
  | .error _ => window
  | .ok next => some next

end Passes

section Steps

/-- The history of the daemon, newest row first, and the window and the pass of its channel. -/
structure PagingState where
  history : List X0xHistoryRow
  window : Option ChannelWindowStore
  pass : Option RunningPass

def emptyPagingState : PagingState := ⟨[], none, none⟩

/-- What happens to a channel: the daemon stores a row, the query of the newest page ends, an event
comes in live, the cache drops the window, and the calls, answers and ends of passes. -/
inductive PagingStep where
  | store (row : X0xHistoryRow)
  | refresh (now : ℤ) (reply : Except String HistoryReply)
  | mergeLive (event : RelayEvent) (isTimelineRow : Bool)
  | forget
  | pageOlder (shouldContinue : Bool)
  | answer (now : ℤ) (shouldContinue : Bool) (reply : Except String HistoryReply)
  | release

variable (channelId : String)

/-- A second call gets the pass that is in the table already. -/
def PagingState.pageOlderMessagesUntilRowFloor (state : PagingState) (shouldContinue : Bool) :
    PagingState :=
  match state.pass with
  | some _ => state
  | none => { state with pass := some (startPage state.window shouldContinue) }

def PagingState.finish (state : PagingState) (shouldContinue : Bool)
    (fetched : Except String ChannelWindowPage) : PagingState :=
  { state with
    window := (finishPage state.window shouldContinue fetched).1
    pass := some (.settled (finishPage state.window shouldContinue fetched).2) }

def PagingState.perform (state : PagingState) : PagingStep → PagingState
  | .store row => { state with history := row :: state.history }
  | .refresh now reply =>
      { state with
        window := refreshNewest state.window (fetchNativeChannelWindow now channelId none reply) }
  | .mergeLive event isTimelineRow =>
      { state with
        window := some (mergeLiveChannelWindowEvent
          (state.window.getD emptyChannelWindowStore) event isTimelineRow) }
  | .forget => { state with window := none }
  | .pageOlder shouldContinue => state.pageOlderMessagesUntilRowFloor shouldContinue
  | .answer now shouldContinue reply =>
      match state.pass with
      | some (.fetching requestCursor) =>
          state.finish shouldContinue
            (fetchNativeChannelWindow now channelId (some requestCursor) reply)
      | _ => state
  | .release => { state with pass := none }

/-- What the daemon promises of its answer: rows of its history in their order, and below the row
that it was asked for. -/
def Serves (history : List X0xHistoryRow) (beforeId : Option ℤ) :
    Except String HistoryReply → Prop
  | .ok reply =>
      reply.rows.Sublist history ∧ ∀ before ∈ beforeId, ∀ row ∈ reply.rows, row.id < before
  | .error _ => True

/-- A row is stored above the others, under a message id of its own; an answer belongs to a request,
and the handler that clears the table runs after the pass. -/
def PagingState.Possible (state : PagingState) : PagingStep → Prop
  | .store row => ∀ older ∈ state.history,
      older.id < row.id ∧ older.seenAtMs ≤ row.seenAtMs ∧ older.msgId ≠ row.msgId
  | .refresh _ reply => Serves state.history none reply
  | .answer _ _ reply => ∃ requestCursor, state.pass = some (.fetching requestCursor) ∧
      Serves state.history requestCursor.beforeId reply
  | .release => ∃ hasOlderMessages, state.pass = some (.settled hasOlderMessages)
  | _ => True

/-- A property of a state and its next step, all along a run. -/
def Along (P : PagingState → PagingStep → Prop) (state : PagingState) : List PagingStep → Prop
  | [] => True
  | step :: rest => P state step ∧ Along P (state.perform channelId step) rest

/-- The two states are those before and after the end of a pass. -/
def EndsPass (before after : PagingState) : Prop :=
  (∃ hasOlderMessages, after.pass = some (.settled hasOlderMessages)) ∧
    ∀ hasOlderMessages, before.pass ≠ some (.settled hasOlderMessages)

/-- The step puts the page it fetched below the chain that the page was requested for. -/
def AppendsPage (state : PagingState) (step : PagingStep) : Prop :=
  ∃ now shouldContinue reply requestCursor page retained next,
    step = .answer now shouldContinue reply ∧ state.pass = some (.fetching requestCursor) ∧
      fetchNativeChannelWindow now channelId (some requestCursor) reply = .ok page ∧
        state.window = some retained ∧ retained.boundary = some requestCursor ∧
          (state.perform channelId step).window = some next ∧
            next.pages = retained.pages ++ [page]

/-- The pass reports something, appends or changes nothing, and reports no more history only where
the retained pages have none. -/
structure PassSurvives (state : PagingState) (step : PagingStep) : Prop where
  window : (state.perform channelId step).window = state.window ∨ AppendsPage channelId state step
  report : ∃ hasOlderMessages,
    (state.perform channelId step).pass = some (.settled (.ok hasOlderMessages)) ∧
      (hasOlderMessages = false →
        ∀ store ∈ (state.perform channelId step).window, channelWindowHasMore store = false)

def Survives (state : PagingState) (step : PagingStep) : Prop :=
  EndsPass state (state.perform channelId step) → PassSurvives channelId state step

/-- What the step of a pass has to meet. A pass that may not go on finds nothing to fetch. A page
comes back and converts, and when it is to be appended, its ties ascend and it was requested from
where the retained pages still end. -/
def PagingState.Unimpeded (state : PagingState) : PagingStep → Prop
  | .pageOlder shouldContinue => state.pass = none → shouldContinue = false →
      ∀ store ∈ state.window, channelWindowHasMore store = false
  | .answer now shouldContinue reply => ∃ page, reply = .ok page ∧
      (∀ row ∈ page.rows, row.Converts now) ∧
        (shouldContinue = true → ∀ store ∈ state.window, TiesAscend now page.rows ∧
          state.pass = store.boundary.map .fetching)
  | _ => True

end Steps

section Retained

variable {now : ℤ} {channelId : String} {history rows : List X0xHistoryRow} {row : X0xHistoryRow}
  {store next : ChannelWindowStore} {page : ChannelWindowPage} {reply : HistoryReply}
  {startCursor : Option ChannelWindowCursor}

/-- Newest row first, no message twice. -/
def HistoryOrder (history : List X0xHistoryRow) : Prop :=
  history.Pairwise fun newer older =>
    older.id < newer.id ∧ older.seenAtMs ≤ newer.seenAtMs ∧ older.msgId ≠ newer.msgId

theorem HistoryOrder.eq_of_msgId (h : HistoryOrder history) {other : X0xHistoryRow}
    (hrow : row ∈ history) (hother : other ∈ history) (heq : row.msgId = other.msgId) :
    row = other := by
  have hnodup : (history.map X0xHistoryRow.msgId).Nodup :=
    List.pairwise_map.mpr (h.imp fun hpair => hpair.2.2.symm)
  exact List.inj_on_of_nodup_map hnodup hrow hother heq

/-- The page holds messages of the rows and goes on below the oldest of them. -/
structure HoldsRows (rows : List X0xHistoryRow) (page : ChannelWindowPage) : Prop where
  more : page.hasMore = page.nextCursor.isSome
  ids : ∀ id ∈ page.rowIds, ∃ row ∈ rows, row.msgId = id
  cursor : ∀ cursor, page.nextCursor = some cursor →
    ∃ oldest ∈ rows, cursor.beforeId = some oldest.id ∧ ∀ row ∈ rows, oldest.id ≤ row.id

theorem historyCursor_fromRaw {hasMore : Bool} {cursor : ChannelWindowCursor}
    (h : historyCursor (fromRawX0xHistoryPage rows hasMore) = some cursor) :
    ∃ oldest, rows.getLast? = some oldest ∧ cursor.beforeId = some oldest.id := by
  unfold historyCursor fromRawX0xHistoryPage at h
  split at h
  · rename_i before oldest hbefore holdest
    cases h
    refine ⟨oldest, holdest, ?_⟩
    split_ifs at hbefore
    simpa [holdest] using hbefore.symm
  · cases h

theorem oldest_le (hordered : HistoryOrder rows) {oldest : X0xHistoryRow}
    (holdest : rows.getLast? = some oldest) : ∀ row ∈ rows, oldest.id ≤ row.id := by
  obtain ⟨newer, rfl⟩ := List.getLast?_eq_some_iff.mp holdest
  intro row hrow
  rcases List.mem_append.mp hrow with hnewer | hlast
  · exact ((List.pairwise_append.mp hordered).2.2 row hnewer oldest
      (List.mem_singleton_self _)).1.le
  · rw [List.mem_singleton.mp hlast]

theorem holdsRows_of_fetched (hordered : HistoryOrder reply.rows)
    (h : fetchNativeChannelWindow now channelId startCursor (.ok reply) = .ok page) :
    page.startCursor = startCursor ∧ HoldsRows reply.rows page := by
  have hids := built_rowIds h
  refine ⟨built_startCursor h, ?_⟩
  obtain ⟨built, -, hpage⟩ := except_bind_ok
    (show nativeHistoryPageToChannelWindowPage now channelId
      (fromRawX0xHistoryPage reply.rows reply.hasMore) startCursor = .ok page from h)
  cases hpage
  refine ⟨rfl, ?_, ?_⟩
  · intro id hid
    obtain ⟨row, hrow, hmsg⟩ := List.mem_map.mp (hids id hid)
    exact ⟨row, hrow, hmsg⟩
  · intro cursor hcursor
    obtain ⟨oldest, holdest, hbefore⟩ := historyCursor_fromRaw hcursor
    exact ⟨oldest, List.mem_of_getLast? holdest, hbefore, oldest_le hordered holdest⟩

/-- What the store retains is of the history, and not below its boundary. -/
structure Retains (history : List X0xHistoryRow) (store : ChannelWindowStore) : Prop where
  more : channelWindowHasMore store = store.boundary.isSome
  rows : ∀ cursor, store.boundary = some cursor → ∃ before, cursor.beforeId = some before ∧
    ∀ id ∈ store.pages.flatMap ChannelWindowPage.rowIds,
      ∃ row ∈ history, row.msgId = id ∧ before ≤ row.id

theorem retains_empty (hpages : store.pages = []) : Retains history store := by
  constructor
  · simp [channelWindowHasMore, ChannelWindowStore.boundary, hpages]
  · intro cursor hcursor
    simp [ChannelWindowStore.boundary, hpages] at hcursor

theorem Retains.of_pages (h : Retains history store) (hpages : next.pages = store.pages) :
    Retains history next := by
  have hmore : channelWindowHasMore next = channelWindowHasMore store := by
    simp only [channelWindowHasMore, hpages]
  have hboundary : next.boundary = store.boundary := by
    simp only [ChannelWindowStore.boundary, hpages]
  constructor
  · rw [hmore, hboundary]
    exact h.more
  · rw [hboundary, hpages]
    exact h.rows

theorem Retains.grow (h : Retains history store) : Retains (row :: history) store := by
  refine ⟨h.more, fun cursor hcursor => ?_⟩
  obtain ⟨before, hbefore, hrows⟩ := h.rows cursor hcursor
  refine ⟨before, hbefore, fun id hid => ?_⟩
  obtain ⟨row, hrow, hmsg⟩ := hrows id hid
  exact ⟨row, List.mem_cons_of_mem _ hrow, hmsg⟩

theorem retains_single (hpages : next.pages = [page]) (hsub : rows.Sublist history)
    (hpage : HoldsRows rows page) : Retains history next := by
  constructor
  · simpa [channelWindowHasMore, ChannelWindowStore.boundary, hpages] using hpage.more
  · intro cursor hcursor
    have hnext : page.nextCursor = some cursor := by
      simpa [ChannelWindowStore.boundary, hpages] using hcursor
    obtain ⟨oldest, -, hbefore, hle⟩ := hpage.cursor cursor hnext
    refine ⟨oldest.id, hbefore, fun id hid => ?_⟩
    rw [hpages, List.flatMap_singleton] at hid
    obtain ⟨row, hrow, hmsg⟩ := hpage.ids id hid
    exact ⟨row, hsub.subset hrow, hmsg, hle row hrow⟩

theorem mergeLive_pages (event : RelayEvent) (isTimelineRow : Bool) :
    (mergeLiveChannelWindowEvent store event isTimelineRow).pages = store.pages := by
  unfold mergeLiveChannelWindowEvent mergeLiveAux
  split_ifs <;> rfl

/-- The page below the boundary of the retained pages keeps them whole. -/
theorem Retains.append (h : Retains history store) {requestCursor : ChannelWindowCursor}
    (hboundary : store.boundary = some requestCursor)
    (hserves : Serves history requestCursor.beforeId (.ok reply))
    (hpage : HoldsRows reply.rows page) (hpages : next.pages = store.pages ++ [page]) :
    Retains history next := by
  constructor
  · simpa [channelWindowHasMore, ChannelWindowStore.boundary, hpages] using hpage.more
  · intro cursor hcursor
    have hnext : page.nextCursor = some cursor := by
      simpa [ChannelWindowStore.boundary, hpages] using hcursor
    obtain ⟨oldest, holdest, hbefore, hle⟩ := hpage.cursor cursor hnext
    refine ⟨oldest.id, hbefore, fun id hid => ?_⟩
    rw [hpages, List.flatMap_append, List.flatMap_singleton, List.mem_append] at hid
    rcases hid with hid | hid
    · obtain ⟨before, hrequest, hrows⟩ := h.rows requestCursor hboundary
      obtain ⟨row, hrow, hmsg, hge⟩ := hrows id hid
      have hlt := hserves.2 before hrequest oldest holdest
      exact ⟨row, hrow, hmsg, by omega⟩
    · obtain ⟨row, hrow, hmsg⟩ := hpage.ids id hid
      exact ⟨row, hserves.1.subset hrow, hmsg, hle row hrow⟩

/-- No message below the boundary is retained already. -/
theorem Retains.not_overlapping (h : Retains history store) (hordered : HistoryOrder history)
    {requestCursor : ChannelWindowCursor} (hboundary : store.boundary = some requestCursor)
    (hserves : Serves history requestCursor.beforeId (.ok reply))
    (hpage : HoldsRows reply.rows page) : overlapping store page = none := by
  simp only [overlapping, List.find?_eq_none, decide_eq_true_eq]
  intro id hid hretained
  obtain ⟨row, hrow, hmsg⟩ := hpage.ids id hid
  obtain ⟨before, hrequest, hrows⟩ := h.rows requestCursor hboundary
  obtain ⟨other, hother, hsame, hge⟩ := hrows id hretained
  obtain rfl : row = other :=
    hordered.eq_of_msgId (hserves.1.subset hrow) hother (hmsg.trans hsame.symm)
  have hlt := hserves.2 before hrequest row hrow
  omega

/-- A page from the daemon is appended exactly when its ties ascend and it continues the retained
chain. -/
theorem Retains.append_iff (h : Retains history store) (hordered : HistoryOrder history)
    {requestCursor : ChannelWindowCursor}
    (hserves : Serves history requestCursor.beforeId (.ok reply))
    (hbefore : requestCursor.beforeId.isSome = true)
    (hfetched : fetchNativeChannelWindow now channelId (some requestCursor) (.ok reply) =
      .ok page) :
    (∃ next, appendOlderChannelWindow store page = .ok next) ↔
      TiesAscend now reply.rows ∧ store.boundary = some requestCursor := by
  have hrows : HistoryOrder reply.rows := hordered.sublist hserves.1
  obtain ⟨hstart, hpage⟩ := holdsRows_of_fetched hrows hfetched
  have hvalid : assertValidPage page = .ok () ↔ TiesAscend now reply.rows := by
    have hbuilt : nativeHistoryPageToChannelWindowPage now channelId
        (fromRawX0xHistoryPage reply.rows reply.hasMore) (some requestCursor) = .ok page := hfetched
    apply assertValidPage_built_iff hbuilt
    · intro cursor hcursor
      cases hcursor
      exact hbefore
    · exact hrows.imp fun hpair => hpair.2.1
    · exact List.pairwise_map.mpr (hrows.imp fun hpair => hpair.2.2.symm)
  rw [append_ok_iff, hvalid, hstart]
  constructor
  · rintro ⟨hties, -, ⟨cursor, hboundary, hcursor⟩, -⟩
    cases hcursor
    exact ⟨hties, hboundary⟩
  · rintro ⟨hties, hboundary⟩
    refine ⟨hties, ?_, ⟨requestCursor, hboundary, rfl⟩,
      h.not_overlapping hordered hboundary hserves hpage⟩
    rw [h.more, hboundary]
    rfl

end Retained

section Runs

variable {channelId : String} {state : PagingState} {step : PagingStep}
variable {shouldContinue : Bool} {reply : Except String HistoryReply} {now : ℤ}
  {requestCursor : ChannelWindowCursor} {window : Option ChannelWindowStore}

structure PagingInvariant (state : PagingState) : Prop where
  ordered : HistoryOrder state.history
  window : ∀ store ∈ state.window, Retains state.history store
  request : ∀ requestCursor, state.pass = some (.fetching requestCursor) →
    requestCursor.beforeId.isSome = true

theorem pagingInvariant_empty : PagingInvariant emptyPagingState where
  ordered := List.Pairwise.nil
  window := fun _ h => nomatch h
  request := fun _ h => nomatch h

/-- A pass goes on exactly when it may and the window has a boundary. -/
theorem startPage_cases (shouldContinue : Bool)
    (h : ∀ store ∈ window, channelWindowHasMore store = store.boundary.isSome) :
    (∃ store ∈ window, ∃ requestCursor, store.boundary = some requestCursor ∧
        shouldContinue = true ∧ startPage window shouldContinue = .fetching requestCursor) ∨
      startPage window shouldContinue = .settled (.ok false) ∧
        (shouldContinue = false ∨ ∀ store ∈ window, channelWindowHasMore store = false) := by
  cases window with
  | none => exact Or.inr ⟨rfl, Or.inr fun _ hstore => nomatch hstore⟩
  | some store =>
      have hmore := h store rfl
      cases hboundary : store.boundary with
      | none =>
          refine Or.inr ⟨by simp [startPage, hmore, hboundary], Or.inr ?_⟩
          intro _ hstore
          cases hstore
          simp [hmore, hboundary]
      | some requestCursor =>
          cases shouldContinue with
          | false => exact Or.inr ⟨by simp [startPage, hboundary], Or.inl rfl⟩
          | true =>
              refine Or.inl ⟨store, rfl, requestCursor, hboundary, rfl, ?_⟩
              simp [startPage, hmore, hboundary]

theorem Retains.refresh {history : List X0xHistoryRow}
    (h : ∀ store ∈ window, Retains history store) (hordered : HistoryOrder history)
    (hserves : Serves history none reply) :
    ∀ store ∈ refreshNewest window (fetchNativeChannelWindow now channelId none reply),
      Retains history store := by
  intro store hstore
  unfold refreshNewest at hstore
  split at hstore
  · exact h store hstore
  · rename_i next hnext
    cases hstore
    obtain ⟨page, hfetched, hreplace⟩ := except_bind_ok hnext
    obtain ⟨served, rfl, -⟩ := except_bind_ok hfetched
    exact retains_single (pages_of_replace hreplace) hserves.1
      (holdsRows_of_fetched (hordered.sublist hserves.1) hfetched).2

/-- What a pass leaves: the window as it was, or with the page that it fetched. -/
theorem finishPage_window (window : Option ChannelWindowStore) (shouldContinue : Bool)
    (fetched : Except String ChannelWindowPage) :
    (finishPage window shouldContinue fetched).1 = window ∨
      ∃ retained page next, window = some retained ∧ fetched = .ok page ∧
        appendOlderChannelWindow retained page = .ok next ∧
          finishPage window shouldContinue fetched = (some next, .ok page.hasMore) := by
  unfold finishPage
  cases fetched with
  | error e => exact Or.inl rfl
  | ok page =>
      cases shouldContinue with
      | false => exact Or.inl rfl
      | true =>
          cases window with
          | none => exact Or.inl rfl
          | some retained =>
              cases happend : appendOlderChannelWindow retained page with
              | error e => exact Or.inl (by simp [happend])
              | ok next =>
                  exact Or.inr ⟨retained, page, next, rfl, rfl, happend, by simp [happend]⟩

theorem finishPage_ok_iff {fetched : Except String ChannelWindowPage} :
    (∃ hasOlderMessages, (finishPage window shouldContinue fetched).2 = .ok hasOlderMessages) ↔
      ∃ page, fetched = .ok page ∧ (shouldContinue = true → ∀ retained ∈ window,
        ∃ next, appendOlderChannelWindow retained page = .ok next) := by
  unfold finishPage
  cases fetched with
  | error e => simp
  | ok page =>
      cases shouldContinue with
      | false => simp
      | true =>
          cases window with
          | none => simp
          | some retained =>
              cases happend : appendOlderChannelWindow retained page <;> simp [happend]

/-- A pass that reports no more history has appended the last page. -/
theorem finishPage_false {fetched : Except String ChannelWindowPage}
    (h : (finishPage window shouldContinue fetched).2 = .ok false) :
    ∀ store ∈ (finishPage window shouldContinue fetched).1, channelWindowHasMore store = false := by
  unfold finishPage at h ⊢
  cases fetched with
  | error e => cases h
  | ok page =>
      cases shouldContinue with
      | false => simp at h
      | true =>
          cases window with
          | none => simp at h
          | some retained =>
              cases happend : appendOlderChannelWindow retained page with
              | error e => simp [happend] at h
              | ok next =>
                  have hmore : page.hasMore = false := by simpa [happend] using h
                  intro store hstore
                  obtain rfl : next = store := by simpa [happend] using hstore
                  simpa [channelWindowHasMore, pages_of_append happend] using hmore

theorem PagingInvariant.answer (h : PagingInvariant state)
    (hpass : state.pass = some (.fetching requestCursor))
    (hserves : Serves state.history requestCursor.beforeId reply) :
    PagingInvariant (state.finish shouldContinue
      (fetchNativeChannelWindow now channelId (some requestCursor) reply)) := by
  refine ⟨h.ordered, ?_, fun _ hfetching => nomatch hfetching⟩
  intro store hstore
  unfold PagingState.finish at hstore
  rcases finishPage_window state.window shouldContinue
      (fetchNativeChannelWindow now channelId (some requestCursor) reply) with
    hsame | ⟨retained, page, next, hwindow, hfetched, happend, hfinish⟩
  · rw [hsame] at hstore
    exact h.window store hstore
  · rw [hfinish] at hstore
    cases hstore
    obtain ⟨served, rfl, -⟩ := except_bind_ok hfetched
    have hretains := h.window retained hwindow
    have hboundary := ((hretains.append_iff h.ordered hserves (h.request _ hpass) hfetched).mp
      ⟨_, happend⟩).2
    exact hretains.append hboundary hserves
      (holdsRows_of_fetched (h.ordered.sublist hserves.1) hfetched).2 (pages_of_append happend)

theorem PagingInvariant.perform (h : PagingInvariant state) (hpossible : state.Possible step) :
    PagingInvariant (state.perform channelId step) := by
  cases step with
  | store row =>
      refine ⟨List.Pairwise.cons ?_ h.ordered, ?_, h.request⟩
      · exact hpossible
      · exact fun store hstore => (h.window store hstore).grow
  | refresh now reply =>
      exact ⟨h.ordered, Retains.refresh h.window h.ordered hpossible, h.request⟩
  | mergeLive event isTimelineRow =>
      refine ⟨h.ordered, ?_, h.request⟩
      intro store hstore
      cases hstore
      cases hwindow : state.window with
      | none => exact retains_empty (mergeLive_pages event isTimelineRow)
      | some store => exact (h.window store hwindow).of_pages (mergeLive_pages event isTimelineRow)
  | forget => exact ⟨h.ordered, fun _ hstore => (nomatch hstore), h.request⟩
  | pageOlder shouldContinue =>
      simp only [PagingState.perform, PagingState.pageOlderMessagesUntilRowFloor]
      cases hpass : state.pass with
      | some pass => exact h
      | none =>
          refine ⟨h.ordered, h.window, ?_⟩
          intro requestCursor hfetching
          rcases startPage_cases shouldContinue fun store hstore =>
            (h.window store hstore).more with
            ⟨store, hstore, cursor, hboundary, -, hstart⟩ | ⟨hstart, -⟩
          · have hcursor : cursor = requestCursor := by simpa [hstart] using hfetching
            obtain ⟨before, hbefore, -⟩ := (h.window store hstore).rows cursor hboundary
            rw [← hcursor, hbefore]
            rfl
          · simp [hstart] at hfetching
  | answer now shouldContinue reply =>
      obtain ⟨requestCursor, hpass, hserves⟩ := hpossible
      simp only [PagingState.perform, hpass]
      exact h.answer hpass hserves
  | release => exact ⟨h.ordered, h.window, fun _ hfetching => nomatch hfetching⟩

theorem not_endsPass_of_pass {after : PagingState} (h : after.pass = state.pass) :
    ¬EndsPass state after := by
  rintro ⟨⟨hasOlderMessages, hafter⟩, hbefore⟩
  exact hbefore hasOlderMessages (h ▸ hafter)

theorem survives_of_pass (h : (state.perform channelId step).pass = state.pass) :
    Survives channelId state step :=
  fun hends => absurd hends (not_endsPass_of_pass h)

theorem pageOlder_survives_iff (h : PagingInvariant state) (shouldContinue : Bool) :
    Survives channelId state (.pageOlder shouldContinue) ↔
      state.Unimpeded (.pageOlder shouldContinue) := by
  cases hpass : state.pass with
  | some pass =>
      have hsame : state.perform channelId (.pageOlder shouldContinue) = state := by
        simp only [PagingState.perform, PagingState.pageOlderMessagesUntilRowFloor, hpass]
      refine iff_of_true (survives_of_pass (by rw [hsame])) ?_
      intro hnone
      rw [hpass] at hnone
      cases hnone
  | none =>
      have hnext : state.perform channelId (.pageOlder shouldContinue) =
          { state with pass := some (startPage state.window shouldContinue) } := by
        simp only [PagingState.perform, PagingState.pageOlderMessagesUntilRowFloor, hpass]
      rcases startPage_cases shouldContinue fun store hstore => (h.window store hstore).more with
        ⟨store, hstore, cursor, hboundary, hgo, hstart⟩ | ⟨hstart, hdone⟩
      · -- The request is on its way: nothing ends here.
        refine iff_of_true ?_ ?_
        · rintro ⟨⟨hasOlderMessages, hafter⟩, -⟩
          rw [hnext, hstart] at hafter
          cases hafter
        · intro _ hstop
          rw [hgo] at hstop
          cases hstop
      · constructor
        · intro hsurvives _ _ store hstore
          have hends : EndsPass state (state.perform channelId (.pageOlder shouldContinue)) := by
            refine ⟨⟨.ok false, by rw [hnext, hstart]⟩, ?_⟩
            intro hasOlderMessages hsettled
            rw [hpass] at hsettled
            cases hsettled
          obtain ⟨hasOlderMessages, hreport, hmore⟩ := (hsurvives hends).report
          rw [hnext, hstart] at hreport
          cases hreport
          exact hmore rfl store (by rw [hnext]; exact hstore)
        · intro hunimpeded _
          have hmore : ∀ store ∈ state.window, channelWindowHasMore store = false :=
            hdone.elim (hunimpeded hpass) id
          refine ⟨Or.inl (by rw [hnext]), false, by rw [hnext, hstart], fun _ => ?_⟩
          rw [hnext]
          exact hmore

theorem perform_answer (hpass : state.pass = some (.fetching requestCursor)) :
    state.perform channelId (.answer now shouldContinue reply) =
      state.finish shouldContinue
        (fetchNativeChannelWindow now channelId (some requestCursor) reply) := by
  simp only [PagingState.perform, hpass]

/-- The answer ends the pass, and all that can go wrong is an exception. -/
theorem answer_survives_iff_reports (h : PagingInvariant state)
    (hpass : state.pass = some (.fetching requestCursor))
    (hserves : Serves state.history requestCursor.beforeId reply) :
    Survives channelId state (.answer now shouldContinue reply) ↔
      ∃ hasOlderMessages, (finishPage state.window shouldContinue
        (fetchNativeChannelWindow now channelId (some requestCursor) reply)).2 =
          .ok hasOlderMessages := by
  constructor
  · intro hsurvives
    have hends : EndsPass state (state.perform channelId (.answer now shouldContinue reply)) := by
      rw [perform_answer hpass]
      refine ⟨⟨_, rfl⟩, ?_⟩
      intro hasOlderMessages hsettled
      rw [hpass] at hsettled
      cases hsettled
    obtain ⟨hasOlderMessages, hreport, -⟩ := (hsurvives hends).report
    rw [perform_answer hpass] at hreport
    exact ⟨hasOlderMessages, RunningPass.settled.inj (Option.some.inj hreport)⟩
  · rintro ⟨hasOlderMessages, hreport⟩ -
    refine ⟨?_, hasOlderMessages, ?_, ?_⟩
    · rw [perform_answer hpass]
      rcases finishPage_window state.window shouldContinue
          (fetchNativeChannelWindow now channelId (some requestCursor) reply) with
        hsame | ⟨retained, page, next, hwindow, hfetched, happend, hfinish⟩
      · exact Or.inl hsame
      · refine Or.inr ⟨now, shouldContinue, reply, requestCursor, page, retained, next, rfl, hpass,
          hfetched, hwindow, ?_, ?_, pages_of_append happend⟩
        · obtain ⟨served, rfl, -⟩ := except_bind_ok hfetched
          exact (((h.window retained hwindow).append_iff h.ordered hserves (h.request _ hpass)
            hfetched).mp ⟨next, happend⟩).2
        · rw [perform_answer hpass, PagingState.finish, hfinish]
    · rw [perform_answer hpass, PagingState.finish, hreport]
    · rintro rfl
      rw [perform_answer hpass]
      exact finishPage_false hreport

theorem fetching_eq_iff {boundary : Option ChannelWindowCursor} :
    some (RunningPass.fetching requestCursor) = boundary.map .fetching ↔
      boundary = some requestCursor := by
  cases boundary with
  | none => simp
  | some cursor => simp [eq_comm]

/-- A pass whose page does not come back or does not convert throws; the others are decided by the
window and by the call that the pass was started with. -/
theorem answer_survives_iff (h : PagingInvariant state)
    (hpass : state.pass = some (.fetching requestCursor))
    (hserves : Serves state.history requestCursor.beforeId reply) :
    Survives channelId state (.answer now shouldContinue reply) ↔
      state.Unimpeded (.answer now shouldContinue reply) := by
  rw [answer_survives_iff_reports h hpass hserves, finishPage_ok_iff]
  constructor
  · rintro ⟨page, hfetched, happend⟩
    obtain ⟨served, rfl, hbuilt⟩ := except_bind_ok hfetched
    refine ⟨served, rfl, nativeHistoryPage_ok_iff.mp ⟨page, hbuilt⟩, ?_⟩
    intro hgo store hstore
    rw [hpass, fetching_eq_iff]
    exact ((h.window store hstore).append_iff h.ordered hserves (h.request _ hpass)
      hfetched).mp (happend hgo store hstore)
  · rintro ⟨served, rfl, hconverts, hclear⟩
    obtain ⟨page, hbuilt⟩ : ∃ page, fetchNativeChannelWindow now channelId (some requestCursor)
        (.ok served) = .ok page := nativeHistoryPage_ok_iff.mpr hconverts
    refine ⟨page, hbuilt, ?_⟩
    intro hgo store hstore
    have hsame := hclear hgo store hstore
    rw [hpass, fetching_eq_iff] at hsame
    exact ((h.window store hstore).append_iff h.ordered hserves (h.request _ hpass)
      hbuilt).mpr hsame

theorem survives_iff (h : PagingInvariant state) (hpossible : state.Possible step) :
    Survives channelId state step ↔ state.Unimpeded step := by
  cases step with
  | store row | refresh now reply | mergeLive event isTimelineRow | forget =>
      exact iff_of_true (survives_of_pass rfl) trivial
  | pageOlder shouldContinue => exact pageOlder_survives_iff h shouldContinue
  | answer now shouldContinue reply =>
      obtain ⟨requestCursor, hpass, hserves⟩ := hpossible
      exact answer_survives_iff h hpass hserves
  | release =>
      refine iff_of_true ?_ trivial
      rintro ⟨⟨hasOlderMessages, hafter⟩, -⟩
      cases hafter

/-- Along every run the passes survive exactly where nothing is in their way. -/
theorem along_survives_iff (steps : List PagingStep) :
    ∀ {state : PagingState}, PagingInvariant state →
      Along channelId PagingState.Possible state steps →
        (Along channelId (Survives channelId) state steps ↔
          Along channelId PagingState.Unimpeded state steps) := by
  induction steps with
  | nil => exact fun _ _ => Iff.rfl
  | cons step rest ih =>
      intro state h hpossible
      exact and_congr (survives_iff h hpossible.1) (ih (h.perform hpossible.1) hpossible.2)

theorem paging_survives_iff (channelId : String) (steps : List PagingStep)
    (hpossible : Along channelId PagingState.Possible emptyPagingState steps) :
    Along channelId (Survives channelId) emptyPagingState steps ↔
      Along channelId PagingState.Unimpeded emptyPagingState steps :=
  along_survives_iff steps pagingInvariant_empty hpossible

end Runs

section MovedBoundary

deriving instance DecidableEq for X0xHistoryRow

instance (history : List X0xHistoryRow) (beforeId : Option ℤ) (reply : Except String HistoryReply) :
    Decidable (Serves history beforeId reply) :=
  match reply with
  | .ok reply => inferInstanceAs (Decidable
      (reply.rows.Sublist history ∧ ∀ before ∈ beforeId, ∀ row ∈ reply.rows, row.id < before))
  | .error _ => .isTrue trivial

instance PagingState.decidablePossible (state : PagingState) (step : PagingStep) :
    Decidable (state.Possible step) :=
  match step with
  | .store row => inferInstanceAs (Decidable (∀ older ∈ state.history,
      older.id < row.id ∧ older.seenAtMs ≤ row.seenAtMs ∧ older.msgId ≠ row.msgId))
  | .refresh _ reply => inferInstanceAs (Decidable (Serves state.history none reply))
  | .mergeLive _ _ | .forget | .pageOlder _ => .isTrue trivial
  | .answer _ _ reply =>
      match hpass : state.pass with
      | some (.fetching requestCursor) =>
          decidable_of_iff (Serves state.history requestCursor.beforeId reply)
            (by simp [PagingState.Possible, hpass])
      | some (.settled _) | none => .isFalse (by simp [PagingState.Possible, hpass])
  | .release =>
      match hpass : state.pass with
      | some (.settled hasOlderMessages) => .isTrue ⟨hasOlderMessages, hpass⟩
      | some (.fetching _) | none => .isFalse (by simp [PagingState.Possible, hpass])

instance Along.decidable (channelId : String) (P : PagingState → PagingStep → Prop)
    [∀ state step, Decidable (P state step)] : ∀ (state : PagingState) (steps : List PagingStep),
      Decidable (Along channelId P state steps)
  | _, [] => .isTrue trivial
  | state, step :: rest =>
      have := Along.decidable channelId P (state.perform channelId step) rest
      inferInstanceAs (Decidable (P state step ∧ Along channelId P _ rest))

/-- The row of the given minute: every tenth is a message, the others are files. -/
def minuteRow (minute : ℕ) : X0xHistoryRow :=
  { textRow minute (60000 * minute) (String.singleton (Char.ofNat (48 + minute))) with
    contentType := if minute % 10 = 0 then "text/plain" else "application/pdf" }

/-- The messages below the given minute, newest first, as many as the daemon puts on a page. -/
def minutePage (minute : ℕ) : Except String HistoryReply :=
  .ok ⟨((List.range minute).reverse.take 50).map minuteRow, decide (50 ≤ minute)⟩

/-- The newest page of 51 messages is loaded and a pass starts. -/
def pageRequested : List PagingStep :=
  (List.range 51).map (fun minute => .store (minuteRow minute)) ++
    [.refresh 0 (minutePage 51), .pageOlder true]

/-- A message comes in, and the newest page is refreshed before the older one is back. -/
def boundaryMoved : List PagingStep :=
  pageRequested ++ [.store (minuteRow 51), .refresh 0 (minutePage 52)]

/-- The newest page is refreshed with nothing new on it, and the older one is appended. -/
def boundaryKept : List PagingStep :=
  pageRequested ++ [.refresh 0 (minutePage 51), .answer 0 true (minutePage 1)]

theorem along_append {P : PagingState → PagingStep → Prop} {channelId : String}
    (first rest : List PagingStep) : ∀ {state : PagingState},
      Along channelId P state (first ++ rest) ↔
        Along channelId P state first ∧
          Along channelId P (first.foldl (PagingState.perform channelId) state) rest := by
  induction first with
  | nil => simp [Along]
  | cons step first ih =>
      intro state
      rw [List.cons_append, Along, ih, ← and_assoc]
      rfl

/-- The pass of the state is settled with the result, if there is one. -/
def PagingState.result (state : PagingState) : Option (Except String Bool) :=
  match state.pass with
  | some (.settled hasOlderMessages) => some hasOlderMessages
  | _ => none

theorem result_eq_some_iff {state : PagingState} {hasOlderMessages : Except String Bool} :
    state.result = some hasOlderMessages ↔ state.pass = some (.settled hasOlderMessages) := by
  unfold PagingState.result
  split <;> simp_all

/-- The page that comes back to a moved boundary. -/
def staleAnswer : PagingStep := .answer 0 true (minutePage 1)

theorem moved_boundary_breaks_pass :
    Along "general" PagingState.Possible emptyPagingState (boundaryMoved ++ [staleAnswer]) ∧
      ¬Along "general" (Survives "general") emptyPagingState (boundaryMoved ++ [staleAnswer]) := by
  refine ⟨by decide +kernel, ?_⟩
  intro hsurvives
  obtain ⟨hlast, -⟩ := ((along_append _ _).mp hsurvives).2
  have hbefore : (boundaryMoved.foldl (PagingState.perform "general") emptyPagingState).result =
      none := by
    decide +kernel
  have hafter : ((boundaryMoved.foldl (PagingState.perform "general") emptyPagingState).perform
      "general" staleAnswer).result =
        some (.error "Channel page does not continue the retained cursor chain.") := by
    decide +kernel
  have hends : EndsPass (boundaryMoved.foldl (PagingState.perform "general") emptyPagingState)
      ((boundaryMoved.foldl (PagingState.perform "general") emptyPagingState).perform "general"
        staleAnswer) := by
    refine ⟨⟨_, result_eq_some_iff.mp hafter⟩, ?_⟩
    intro hasOlderMessages hsettled
    rw [result_eq_some_iff.mpr hsettled] at hbefore
    cases hbefore
  obtain ⟨hasOlderMessages, hreport, -⟩ := (hlast hends).report
  rw [result_eq_some_iff.mpr hreport] at hafter
  cases hafter

theorem paging_survives_iff_kept :
    Along "general" PagingState.Possible emptyPagingState boundaryKept ∧
      (Along "general" (Survives "general") emptyPagingState boundaryKept ↔
        Along "general" PagingState.Unimpeded emptyPagingState boundaryKept) := by
  have hpossible : Along "general" PagingState.Possible emptyPagingState boundaryKept := by
    decide +kernel
  exact ⟨hpossible, paging_survives_iff "general" boundaryKept hpossible⟩

end MovedBoundary

end Buzz.Messages
