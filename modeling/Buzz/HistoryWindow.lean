import Buzz.NativeMessages

/-!
# Loading history into the window

The daemon serves history in descending row ids and times; the window demands whole seconds in
descending order and, within a second, ascending message ids. A chain of pages is accepted exactly
when the second demand happens to be met.
-/

namespace WebText

theorem lexLt_asymm (as : List ℕ) : ∀ bs : List ℕ, lexLt as bs = true → lexLt bs as = false := by
  induction as with
  | nil =>
      intro bs h
      cases bs with
      | nil => cases h
      | cons b bs => rfl
  | cons a as ih =>
      intro bs h
      cases bs with
      | nil => cases h
      | cons b bs =>
          simp only [lexLt, Bool.or_eq_true, decide_eq_true_eq, Bool.and_eq_true, beq_iff_eq] at h
          simp only [lexLt, Bool.or_eq_false_iff, decide_eq_false_iff_not, Bool.and_eq_false_imp,
            beq_iff_eq]
          rcases h with hlt | ⟨rfl, hrest⟩
          · exact ⟨by omega, fun heq => absurd heq (by omega)⟩
          · exact ⟨by omega, fun _ => ih bs hrest⟩

end WebText

namespace Buzz.Messages

theorem isChain_congr {α : Type} {R S T : α → α → Prop} (h : ∀ a b, T a b → (R a b ↔ S a b))
    {l : List α} (hl : l.IsChain T) : l.IsChain R ↔ l.IsChain S := by
  induction hl with
  | nil => simp
  | singleton a => simp
  | cons_cons hab _ ih => rw [List.isChain_cons_cons, List.isChain_cons_cons, h _ _ hab, ih]

section Acceptance

/-- What the order of two events is decided by. -/
def RelayEvent.orderKey (event : RelayEvent) : String × ℤ :=
  (event.id, event.createdAt)

/-- The earlier event of two neighbours may stand in front. -/
def MayPrecede (first second : String × ℤ) : Prop :=
  second.2 < first.2 ∨ (second.2 = first.2 ∧ WebText.stringLt second.1 first.1 = false)

theorem outOfOrder_eq_false {first second : RelayEvent} :
    outOfOrder (some first) second = false ↔ MayPrecede first.orderKey second.orderKey := by
  have hcompare : outOfOrder (some first) second = false ↔ ¬0 < compareRelayOrder first second := by
    simp [outOfOrder]
  rw [hcompare]
  simp only [compareRelayOrder, MayPrecede, RelayEvent.orderKey]
  by_cases htime : first.createdAt = second.createdAt
  · rw [if_neg (not_not.mpr htime)]
    simp only [htime, lt_irrefl, true_and, false_or]
    split_ifs with hlt hgt
    · exact iff_of_true (by omega) (WebText.lexLt_asymm _ _ hlt)
    · exact iff_of_false (by omega) (by simp [hgt])
    · exact iff_of_true (by omega) (Bool.eq_false_of_not_eq_true hgt)
  · rw [if_pos htime]
    constructor
    · intro h
      exact Or.inl (by omega)
    · rintro (hlt | ⟨heq, -⟩)
      · omega
      · exact absurd heq.symm htime

theorem assertRows_ok_iff {startCursor : Option ChannelWindowCursor}
    (rows : List ChannelWindowRow) : ∀ (seen : List String) (previous : Option RelayEvent),
      (∀ event, outsideInterval startCursor event = false) →
        (assertRows startCursor seen previous rows = .ok () ↔
          ((rows.map fun row => row.event.id).Nodup ∧ ∀ row ∈ rows, row.event.id ∉ seen) ∧
            (previous.toList ++ rows.map fun row => row.event).IsChain
              fun first second => outOfOrder (some first) second = false) := by
  induction rows with
  | nil =>
      intro seen previous _
      cases previous <;> simp [assertRows]
  | cons row rest ih =>
      intro seen previous hinterval
      have horder : (previous.toList ++ (row :: rest).map fun row => row.event).IsChain
            (fun first second => outOfOrder (some first) second = false) ↔
          outOfOrder previous row.event = false ∧ ((some row.event).toList ++
            rest.map fun row => row.event).IsChain
              fun first second => outOfOrder (some first) second = false := by
        cases previous with
        | none => simp [outOfOrder]
        | some previous => simp [List.isChain_cons_cons]
      rw [assertRows, hinterval row.event, horder]
      by_cases hseen : row.event.id ∈ seen
      · rw [if_pos hseen]
        exact iff_of_false (fun h => nomatch h) fun h => h.1.2 row List.mem_cons_self hseen
      · rw [if_neg hseen, if_neg (by simp)]
        by_cases hout : outOfOrder previous row.event = true
        · rw [if_pos hout]
          exact iff_of_false (fun h => nomatch h) fun h => by simp [hout] at h
        · rw [if_neg hout, ih _ _ hinterval]
          have hok := Bool.eq_false_of_not_eq_true hout
          constructor
          · rintro ⟨⟨hnodup, hnew⟩, hchain⟩
            refine ⟨⟨List.nodup_cons.mpr ⟨?_, hnodup⟩, ?_⟩, hok, hchain⟩
            · intro hmem
              obtain ⟨other, hother, heq⟩ := List.mem_map.mp hmem
              exact hnew other hother (heq ▸ List.mem_cons_self)
            · intro other hother
              rcases List.mem_cons.mp hother with rfl | hother
              · exact hseen
              · exact fun hmem => hnew other hother (List.mem_cons_of_mem _ hmem)
          · rintro ⟨⟨hnodup, hnew⟩, -, hchain⟩
            obtain ⟨hfirst, hnodup⟩ := List.nodup_cons.mp hnodup
            refine ⟨⟨hnodup, ?_⟩, hchain⟩
            intro other hother hmem
            rcases List.mem_cons.mp hmem with heq | hmem
            · exact hfirst (List.mem_map.mpr ⟨other, hother, heq⟩)
            · exact hnew other (List.mem_cons_of_mem _ hother) hmem

end Acceptance

section Rows

variable {now : ℤ} {channelId : String}

/-- The row stands on the window page. -/
def X0xHistoryRow.isShown (now : ℤ) (row : X0xHistoryRow) : Bool :=
  row.isTopLevel && (rowEnvelope now row).isSome

def X0xHistoryRow.orderKey (row : X0xHistoryRow) : String × ℤ :=
  (row.msgId, row.seenAtMs / 1000)

/-- The markers of the row are strings, so that its conversion returns. -/
def X0xHistoryRow.Converts (now : ℤ) (row : X0xHistoryRow) : Prop :=
  ∀ envelope, rowEnvelope now row = some envelope →
    ∀ marker ∈ envelope.markers.getD [], IsText marker

theorem historyRowToRelayEvent_ok_iff {row : X0xHistoryRow} :
    (∃ event, historyRowToRelayEvent now channelId row = .ok event) ↔ row.Converts now := by
  unfold historyRowToRelayEvent X0xHistoryRow.Converts
  cases rowEnvelope now row with
  | none => exact iff_of_true ⟨none, rfl⟩ fun _ h => nomatch h
  | some envelope =>
      simp only [Option.some.injEq, forall_eq']
      constructor
      · rintro ⟨event, hevent⟩
        obtain ⟨tags, htags, -⟩ := except_bind_ok hevent
        obtain ⟨clients, hclients, -⟩ := except_bind_ok htags
        exact (markerTags_ok hclients).1
      · intro h
        obtain ⟨clients, hclients⟩ := markerTags_of_text h
        exact ⟨_, by rw [buildAdapterTags, hclients]; rfl⟩

theorem historyRowToRelayEvent_some {row : X0xHistoryRow} {event : Option RelayEvent}
    (h : historyRowToRelayEvent now channelId row = .ok event) :
    event.map RelayEvent.orderKey = (rowEnvelope now row).map fun _ => row.orderKey := by
  unfold historyRowToRelayEvent at h
  cases henvelope : rowEnvelope now row with
  | none =>
      rw [henvelope] at h
      cases h
      rfl
  | some envelope =>
      rw [henvelope] at h
      obtain ⟨tags, -, h⟩ := except_bind_ok h
      cases h
      rfl

theorem windowRows_orderKeys {all : List X0xHistoryRow} (rows : List X0xHistoryRow) :
    ∀ {out : List ChannelWindowRow}, windowRows now channelId all rows = .ok out →
      out.map (fun row => row.event.orderKey) =
        (rows.filter (X0xHistoryRow.isShown now)).map X0xHistoryRow.orderKey := by
  induction rows with
  | nil =>
      intro out h
      cases h
      rfl
  | cons row rest ih =>
      intro out h
      obtain ⟨event, hevent, h⟩ := except_bind_ok h
      obtain ⟨others, hothers, h⟩ := except_bind_ok h
      cases h
      have hkey := historyRowToRelayEvent_some hevent
      have hfront : (windowRow all row event).map (fun row => row.event.orderKey) =
          if row.isShown now then [row.orderKey] else [] := by
        cases event with
        | none =>
            have hnone : rowEnvelope now row = none := by simpa using hkey.symm
            simp [windowRow, X0xHistoryRow.isShown, hnone]
        | some event =>
            obtain ⟨envelope, henvelope, heq⟩ := Option.map_eq_some_iff.mp hkey.symm
            by_cases htop : row.isTopLevel = true
            · simp [windowRow, X0xHistoryRow.isShown, henvelope, htop, heq]
            · simp [windowRow, X0xHistoryRow.isShown, htop]
      rw [List.map_append, ih hothers, hfront, List.filter_cons]
      split_ifs
      · rfl
      · rfl

theorem windowRows_ok_iff (channelId : String) (all rows : List X0xHistoryRow) :
    (∃ out, windowRows now channelId all rows = .ok out) ↔ ∀ row ∈ rows, row.Converts now := by
  constructor
  · induction rows with
    | nil => exact fun _ _ hrow => nomatch hrow
    | cons first rest ih =>
        rintro ⟨out, hout⟩
        obtain ⟨event, hevent, hout⟩ := except_bind_ok hout
        obtain ⟨others, hothers, -⟩ := except_bind_ok hout
        exact List.forall_mem_cons.mpr
          ⟨historyRowToRelayEvent_ok_iff.mp ⟨event, hevent⟩, ih ⟨others, hothers⟩⟩
  · intro h
    obtain ⟨out, hout, -⟩ := windowRows_of_ok all fun row hrow =>
      historyRowToRelayEvent_ok_iff.mpr (h row hrow)
    exact ⟨out, hout⟩

end Rows

section Chains

variable (now : ℤ) (channelId : String)

/-- Loads the pages that follow those of the store, each from the cursor of the one before it. -/
def loadOlder (store : ChannelWindowStore) : List X0xHistoryPage → Except String ChannelWindowStore
  | [] => .ok store
  | page :: rest => do
      let startCursor := store.pages.getLast?.bind ChannelWindowPage.nextCursor
      let next ← nativeHistoryPageToChannelWindowPage now channelId page startCursor
      let store ← appendOlderChannelWindow store next
      loadOlder store rest

/-- Loads a chain of pages into a window, whatever it held before. -/
def loadChain (store : ChannelWindowStore) : List X0xHistoryPage → Except String ChannelWindowStore
  | [] => .ok store
  | page :: rest => do
      let newest ← nativeHistoryPageToChannelWindowPage now channelId page none
      let store ← replaceNewestChannelWindow store newest
      loadOlder now channelId store rest

/-- Every page but the last has a cursor to go on from. -/
def Continued : List X0xHistoryPage → Prop
  | [] => True
  | [_] => True
  | page :: next :: rest => (historyCursor page).isSome = true ∧ Continued (next :: rest)

/-- What the daemon promises of a scan: newest row first, no message twice. -/
structure Served (pages : List X0xHistoryPage) : Prop where
  continued : Continued pages
  descending : (pages.flatMap X0xHistoryPage.rows).Pairwise fun newer older =>
    older.id < newer.id ∧ older.seenAtMs ≤ newer.seenAtMs
  distinct : ((pages.flatMap X0xHistoryPage.rows).map X0xHistoryRow.msgId).Nodup

/-- Neighbours on the window page that were received in one second have ascending ids. -/
def TiesAscend (rows : List X0xHistoryRow) : Prop :=
  (rows.filter (X0xHistoryRow.isShown now)).IsChain fun newer older =>
    newer.seenAtMs / 1000 = older.seenAtMs / 1000 →
      WebText.stringLt older.msgId newer.msgId = false

end Chains

section Loading

variable {now : ℤ} {channelId : String} {page : X0xHistoryPage}
  {startCursor : Option ChannelWindowCursor} {store : ChannelWindowStore}
variable {out : ChannelWindowPage} {next : ChannelWindowStore}

theorem historyCursor_beforeId {cursor : ChannelWindowCursor}
    (h : historyCursor page = some cursor) : cursor.beforeId.isSome = true := by
  unfold historyCursor at h
  split at h
  · cases h
    rfl
  · cases h

/-- The window takes the page: the rows convert and the ties ascend. -/
def Accepted (now : ℤ) (page : X0xHistoryPage) : Prop :=
  (∀ row ∈ page.rows, row.Converts now) ∧ TiesAscend now page.rows

theorem mayPrecede_chain_iff {rows : List X0xHistoryRow}
    (hdescending : rows.Pairwise fun newer older => older.seenAtMs ≤ newer.seenAtMs) :
    ((rows.filter (X0xHistoryRow.isShown now)).IsChain fun first second =>
        MayPrecede first.orderKey second.orderKey) ↔ TiesAscend now rows := by
  have hchain : (rows.filter (X0xHistoryRow.isShown now)).IsChain fun newer older =>
      older.seenAtMs ≤ newer.seenAtMs := (hdescending.filter _).isChain
  apply isChain_congr _ hchain
  intro newer older hle
  have hseconds : older.seenAtMs / 1000 ≤ newer.seenAtMs / 1000 := by omega
  simp only [MayPrecede, X0xHistoryRow.orderKey]
  constructor
  · rintro (hlt | ⟨-, hids⟩) heq
    · omega
    · exact hids
  · intro hids
    by_cases heq : older.seenAtMs / 1000 = newer.seenAtMs / 1000
    · exact Or.inr ⟨heq, hids heq.symm⟩
    · exact Or.inl (by omega)

/-- The page built from history rows is valid exactly when it is accepted. -/
theorem assertValidPage_built_iff
    (hbuilt : nativeHistoryPageToChannelWindowPage now channelId page startCursor = .ok out)
    (hstart : ∀ cursor, startCursor = some cursor → cursor.beforeId.isSome = true)
    (hdescending : page.rows.Pairwise fun newer older => older.seenAtMs ≤ newer.seenAtMs)
    (hdistinct : (page.rows.map X0xHistoryRow.msgId).Nodup) :
    assertValidPage out = .ok () ↔ TiesAscend now page.rows := by
  obtain ⟨rows, hrows, hout⟩ := except_bind_ok hbuilt
  cases hout
  have hkeys := windowRows_orderKeys page.rows hrows
  have hinterval : ∀ event, outsideInterval startCursor event = false := by
    intro event
    cases hcursor : startCursor with
    | none => rfl
    | some cursor =>
        have hbefore := hstart cursor hcursor
        cases hid : cursor.beforeId with
        | none => simp [hid] at hbefore
        | some id => simp [outsideInterval, hid]
  have hids : (rows.map fun row => row.event.id).Nodup := by
    have hfst : rows.map (fun row => row.event.id) =
        (page.rows.filter (X0xHistoryRow.isShown now)).map X0xHistoryRow.msgId := by
      have h := congrArg (List.map Prod.fst) hkeys
      simpa [List.map_map, Function.comp_def, RelayEvent.orderKey, X0xHistoryRow.orderKey] using h
    rw [hfst]
    exact nodup_map_filter _ hdistinct
  have horder : (rows.map fun row => row.event).IsChain
      (fun first second => outOfOrder (some first) second = false) ↔ TiesAscend now page.rows := by
    rw [← mayPrecede_chain_iff hdescending, List.isChain_map]
    simp only [outOfOrder_eq_false]
    rw [← List.isChain_map (R := MayPrecede) (fun row : ChannelWindowRow => row.event.orderKey),
      ← List.isChain_map (R := MayPrecede) X0xHistoryRow.orderKey, hkeys]
  unfold assertValidPage
  rw [if_neg (by simp), assertRows_ok_iff rows [] none hinterval]
  constructor
  · exact fun h => horder.mp h.2
  · exact fun h => ⟨⟨hids, fun _ _ hmem => nomatch hmem⟩, horder.mpr h⟩

theorem built_startCursor
    (hbuilt : nativeHistoryPageToChannelWindowPage now channelId page startCursor = .ok out) :
    out.startCursor = startCursor := by
  obtain ⟨rows, -, hout⟩ := except_bind_ok hbuilt
  cases hout
  rfl

theorem pages_of_append {page : ChannelWindowPage}
    (h : appendOlderChannelWindow store page = .ok next) :
    next.pages = store.pages ++ [page] := by
  unfold appendOlderChannelWindow at h
  split at h
  · cases h
  split at h
  · cases h
  split_ifs at h
  split at h
  · cases h
  cases h
  rfl

theorem pages_of_replace {page : ChannelWindowPage}
    (h : replaceNewestChannelWindow store page = .ok next) :
    next.pages = [page] := by
  unfold replaceNewestChannelWindow at h
  split_ifs at h
  split at h
  · cases h
  · cases h
    rfl

/-- The store holds rows of the messages already read, and ends with the page of `last`. -/
structure Loaded (store : ChannelWindowStore) (done : List X0xHistoryRow)
    (last : X0xHistoryPage) : Prop where
  rows : ∀ id ∈ store.pages.flatMap ChannelWindowPage.rowIds, id ∈ done.map X0xHistoryRow.msgId
  tail : ∃ tail, store.pages.getLast? = some tail ∧ tail.nextCursor = historyCursor last ∧
    tail.hasMore = (historyCursor last).isSome

theorem built_rowIds
    (hbuilt : nativeHistoryPageToChannelWindowPage now channelId page startCursor = .ok out) :
    ∀ id ∈ out.rowIds, id ∈ page.rows.map X0xHistoryRow.msgId := by
  obtain ⟨rows, hrows, hout⟩ := except_bind_ok hbuilt
  cases hout
  have hkeys := congrArg (List.map Prod.fst) (windowRows_orderKeys page.rows hrows)
  intro id hid
  have hmem : id ∈ (page.rows.filter (X0xHistoryRow.isShown now)).map X0xHistoryRow.msgId := by
    have hlist : rows.map (fun row => row.event.id) =
        (page.rows.filter (X0xHistoryRow.isShown now)).map X0xHistoryRow.msgId := by
      simpa [List.map_map, Function.comp_def, RelayEvent.orderKey,
        X0xHistoryRow.orderKey] using hkeys
    rw [← hlist]
    exact hid
  obtain ⟨row, hrow, rfl⟩ := List.mem_map.mp hmem
  exact List.mem_map_of_mem (List.mem_filter.mp hrow).1

theorem nativeHistoryPage_ok_iff :
    (∃ out, nativeHistoryPageToChannelWindowPage now channelId page startCursor = .ok out) ↔
      ∀ row ∈ page.rows, row.Converts now := by
  rw [← windowRows_ok_iff channelId page.rows page.rows]
  constructor
  · rintro ⟨out, hout⟩
    obtain ⟨rows, hrows, -⟩ := except_bind_ok hout
    exact ⟨rows, hrows⟩
  · rintro ⟨rows, hrows⟩
    exact ⟨_, by rw [nativeHistoryPageToChannelWindowPage, hrows]; rfl⟩

theorem append_ok_iff {page : ChannelWindowPage} :
    (∃ next, appendOlderChannelWindow store page = .ok next) ↔
    assertValidPage page = .ok () ∧ channelWindowHasMore store = true ∧
      (∃ cursor, store.boundary = some cursor ∧ page.startCursor = some cursor) ∧
        overlapping store page = none := by
  unfold appendOlderChannelWindow channelWindowHasMore ChannelWindowStore.boundary
  cases assertValidPage page with
  | error e => simp
  | ok _ =>
      cases store.pages.getLast? with
      | none => simp
      | some tail =>
          cases hnext : tail.nextCursor with
          | none => simp [hnext]
          | some cursor =>
              cases hmore : tail.hasMore with
              | false => simp [hmore]
              | true =>
                  by_cases hstart : page.startCursor = some cursor
                  · cases overlapping store page <;> simp [hnext, hmore, hstart]
                  · simp [hnext, hmore, hstart]

/-- A page of fresh messages that was fetched from the cursor of the store is appended exactly when
it is valid. -/
theorem appendOlder_ok_iff {done : List X0xHistoryRow} {last : X0xHistoryPage}
    (hloaded : Loaded store done last)
    (hcursor : (historyCursor last).isSome = true) (hstart : out.startCursor = historyCursor last)
    (hfresh : ∀ id ∈ out.rowIds, id ∉ done.map X0xHistoryRow.msgId) :
    (∃ next, appendOlderChannelWindow store out = .ok next) ↔ assertValidPage out = .ok () := by
  obtain ⟨tail, htail, hnext, hmore⟩ := hloaded.tail
  have hoverlap : overlapping store out = none := by
    simp only [overlapping, List.find?_eq_none, decide_eq_true_eq]
    exact fun id hid hmem => hfresh id hid (hloaded.rows id hmem)
  obtain ⟨cursor, hcursor⟩ := Option.isSome_iff_exists.mp hcursor
  have hboundary : store.boundary = some cursor := by
    rw [ChannelWindowStore.boundary, htail, ← hcursor]
    exact hnext
  have hgo : channelWindowHasMore store = true := by
    simp [channelWindowHasMore, htail, hmore, hcursor]
  rw [append_ok_iff]
  constructor
  · exact fun h => h.1
  · exact fun hvalid => ⟨hvalid, hgo, ⟨cursor, hboundary, hstart.trans hcursor⟩, hoverlap⟩

theorem loaded_append {done : List X0xHistoryRow} {last : X0xHistoryPage}
    (hloaded : Loaded store done last)
    (hbuilt : nativeHistoryPageToChannelWindowPage now channelId page startCursor = .ok out)
    (happend : appendOlderChannelWindow store out = .ok next) :
    Loaded next (done ++ page.rows) page := by
  have hpages : next.pages = store.pages ++ [out] := pages_of_append happend
  have hids := built_rowIds hbuilt
  obtain ⟨rows, -, hout⟩ := except_bind_ok hbuilt
  cases hout
  constructor
  · intro id hid
    rw [hpages, List.flatMap_append, List.flatMap_singleton, List.mem_append] at hid
    rw [List.map_append, List.mem_append]
    exact hid.imp (hloaded.rows id) (hids id)
  · exact ⟨_, by rw [hpages, List.getLast?_concat], rfl, rfl⟩

theorem loadOlder_ok_iff (pages : List X0xHistoryPage) :
    ∀ {store : ChannelWindowStore} {done : List X0xHistoryRow} {last : X0xHistoryPage},
      Loaded store done last → Continued (last :: pages) →
        (pages.flatMap X0xHistoryPage.rows).Pairwise
          (fun newer older => older.seenAtMs ≤ newer.seenAtMs) →
        ((done ++ pages.flatMap X0xHistoryPage.rows).map X0xHistoryRow.msgId).Nodup →
          ((∃ final, loadOlder now channelId store pages = .ok final) ↔
            ∀ page ∈ pages, Accepted now page) := by
  induction pages with
  | nil =>
      intro store done last _ _ _ _
      exact iff_of_true ⟨store, rfl⟩ fun _ h => nomatch h
  | cons page rest ih =>
      intro store done last hloaded hcontinued hdescending hdistinct
      obtain ⟨hcursor, hcontinued⟩ := hcontinued
      rw [List.flatMap_cons] at hdescending hdistinct
      obtain ⟨hpage, hrest, -⟩ := List.pairwise_append.mp hdescending
      have hall : ((done ++ page.rows ++ rest.flatMap X0xHistoryPage.rows).map
          X0xHistoryRow.msgId).Nodup := by
        rwa [List.append_assoc]
      have hstart : store.pages.getLast?.bind ChannelWindowPage.nextCursor =
          historyCursor last := by
        obtain ⟨tail, htail, hnext, -⟩ := hloaded.tail
        rw [htail]
        exact hnext
      have hvalid : ∀ out, nativeHistoryPageToChannelWindowPage now channelId page
          (historyCursor last) = .ok out →
            ((∃ next, appendOlderChannelWindow store out = .ok next) ↔
              TiesAscend now page.rows) := by
        intro out hbuilt
        rw [List.map_append, List.map_append] at hdistinct
        have hfresh : ∀ id ∈ out.rowIds, id ∉ done.map X0xHistoryRow.msgId := by
          intro id hid hdone
          have hmem := List.mem_append_left ((rest.flatMap X0xHistoryPage.rows).map
            X0xHistoryRow.msgId) (built_rowIds hbuilt id hid)
          exact (List.nodup_append.mp hdistinct).2.2 id hdone id hmem rfl
        have hsingle : (page.rows.map X0xHistoryRow.msgId).Nodup :=
          (List.nodup_append.mp (List.nodup_append.mp hdistinct).2.1).1
        have hcursors : out.startCursor = historyCursor last := built_startCursor hbuilt
        rw [appendOlder_ok_iff hloaded hcursor hcursors hfresh]
        exact assertValidPage_built_iff hbuilt (fun _ => historyCursor_beforeId) hpage hsingle
      rw [List.forall_mem_cons]
      constructor
      · rintro ⟨final, hfinal⟩
        obtain ⟨out, hout, hfinal⟩ := except_bind_ok hfinal
        obtain ⟨next, happend, hfinal⟩ := except_bind_ok hfinal
        rw [hstart] at hout
        exact ⟨⟨nativeHistoryPage_ok_iff.mp ⟨out, hout⟩, (hvalid out hout).mp ⟨next, happend⟩⟩,
          (ih (loaded_append hloaded hout happend) hcontinued hrest hall).mp ⟨final, hfinal⟩⟩
      · rintro ⟨⟨hconverts, hties⟩, hothers⟩
        obtain ⟨out, hout⟩ := nativeHistoryPage_ok_iff.mpr hconverts
        obtain ⟨next, happend⟩ := (hvalid out hout).mpr hties
        obtain ⟨final, hfinal⟩ :=
          (ih (loaded_append hloaded hout happend) hcontinued hrest hall).mpr hothers
        refine ⟨final, ?_⟩
        rw [loadOlder, hstart, hout]
        change (appendOlderChannelWindow store out >>= fun next =>
          loadOlder now channelId next rest) = .ok final
        rw [happend]
        exact hfinal

/-- The newest page is taken into any store exactly when it is valid. -/
theorem replaceNewest_ok_iff (store : ChannelWindowStore) (hstart : out.startCursor = none) :
    (∃ next, replaceNewestChannelWindow store out = .ok next) ↔ assertValidPage out = .ok () := by
  unfold replaceNewestChannelWindow
  rw [if_neg (not_not.mpr hstart)]
  cases assertValidPage out with
  | error e => exact iff_of_false (fun ⟨_, h⟩ => nomatch h) fun h => nomatch h
  | ok _ => exact iff_of_true ⟨_, rfl⟩ rfl

theorem loaded_newest
    (hbuilt : nativeHistoryPageToChannelWindowPage now channelId page none = .ok out)
    (hreplace : replaceNewestChannelWindow store out = .ok next) : Loaded next page.rows page := by
  have hpages : next.pages = [out] := pages_of_replace hreplace
  have hids := built_rowIds hbuilt
  obtain ⟨rows, -, hout⟩ := except_bind_ok hbuilt
  cases hout
  constructor
  · intro id hid
    rw [hpages, List.flatMap_singleton] at hid
    exact hids id hid
  · exact ⟨_, by rw [hpages]; rfl, rfl, rfl⟩

theorem history_load_iff (now : ℤ) (channelId : String) (store : ChannelWindowStore)
    (pages : List X0xHistoryPage) (hserved : Served pages) :
    (∃ final, loadChain now channelId store pages = .ok final) ↔
      ∀ page ∈ pages, Accepted now page := by
  cases pages with
  | nil => exact iff_of_true ⟨store, rfl⟩ fun _ h => nomatch h
  | cons page rest =>
      obtain ⟨hcontinued, hdescending, hdistinct⟩ := hserved
      have htimes := hdescending.imp fun h => h.2
      rw [List.flatMap_cons] at htimes hdistinct
      obtain ⟨hpage, hrest, -⟩ := List.pairwise_append.mp htimes
      have hsingle : (page.rows.map X0xHistoryRow.msgId).Nodup := by
        rw [List.map_append] at hdistinct
        exact (List.nodup_append.mp hdistinct).1
      have hvalid : ∀ out, nativeHistoryPageToChannelWindowPage now channelId page none = .ok out →
          ((∃ next, replaceNewestChannelWindow store out = .ok next) ↔
            TiesAscend now page.rows) := by
        intro out hbuilt
        rw [replaceNewest_ok_iff store (built_startCursor hbuilt)]
        exact assertValidPage_built_iff hbuilt (fun _ h => nomatch h) hpage hsingle
      rw [List.forall_mem_cons]
      constructor
      · rintro ⟨final, hfinal⟩
        obtain ⟨out, hout, hfinal⟩ := except_bind_ok hfinal
        obtain ⟨next, hreplace, hfinal⟩ := except_bind_ok hfinal
        exact ⟨⟨nativeHistoryPage_ok_iff.mp ⟨out, hout⟩, (hvalid out hout).mp ⟨next, hreplace⟩⟩,
          (loadOlder_ok_iff rest (loaded_newest hout hreplace) hcontinued hrest hdistinct).mp
            ⟨final, hfinal⟩⟩
      · rintro ⟨⟨hconverts, hties⟩, hothers⟩
        obtain ⟨out, hout⟩ := nativeHistoryPage_ok_iff.mpr hconverts
        obtain ⟨next, hreplace⟩ := (hvalid out hout).mpr hties
        obtain ⟨final, hfinal⟩ := (loadOlder_ok_iff rest (loaded_newest hout hreplace) hcontinued
          hrest hdistinct).mpr hothers
        refine ⟨final, ?_⟩
        rw [loadChain, hout]
        change (replaceNewestChannelWindow store out >>= fun next =>
          loadOlder now channelId next rest) = .ok final
        rw [hreplace]
        exact hfinal

/-- A message that holds the text `hi`. -/
def textRow (id seenAtMs : ℤ) (msgId : String) : X0xHistoryRow :=
  ⟨id, msgId, some "peer", seenAtMs, seenAtMs, "text/plain", "aGk=", none, none⟩

/-- Two messages of one second, of which the later has the greater id. -/
def tiedPage : X0xHistoryPage :=
  ⟨[textRow 2 1500 "b", textRow 1 1200 "a"], none⟩

theorem tiedPage_served : Served [tiedPage] :=
  ⟨trivial, by decide, by decide⟩

theorem history_load_fails_within_second :
    Served [tiedPage] ∧
      ¬∃ final, loadChain 0 "general" emptyChannelWindowStore [tiedPage] = .ok final := by
  refine ⟨tiedPage_served, ?_⟩
  rintro ⟨final, hfinal⟩
  have herror : (loadChain 0 "general" emptyChannelWindowStore [tiedPage]).isOk = false := by
    decide +kernel
  rw [hfinal] at herror
  cases herror

/-- Two pages of one message each, a second apart. -/
def spacedPages : List X0xHistoryPage :=
  [⟨[textRow 2 2500 "b"], some 2⟩, ⟨[textRow 1 1200 "a"], none⟩]

theorem history_load_iff_spaced :
    (∃ final, loadChain 0 "general" emptyChannelWindowStore spacedPages = .ok final) ↔
      ∀ page ∈ spacedPages, Accepted 0 page :=
  history_load_iff 0 "general" emptyChannelWindowStore spacedPages
    ⟨⟨rfl, trivial⟩, by decide, by decide⟩

end Loading

end Buzz.Messages
