import Buzz.EntryMap
import Buzz.HistoryWindow

/-!
# The reply counts of the threads

A page of the window comes with a summary for each of its rows, counted over the rows of the same
history page. Replies are newer than their root, so where a page border lies between them the badge
of the root leaves replies out.
-/

namespace Buzz.Messages

section Code

/-- The summaries of the rows of the page, under the ids of the rows. -/
def ChannelWindowPage.summaries (page : ChannelWindowPage) :
    List (String × ChannelWindowThreadSummary) :=
  page.rows.filterMap fun row => row.thread.map fun thread => (row.event.id, thread)

def channelWindowThreadSummaries (store : ChannelWindowStore) :
    EntryMap String ChannelWindowThreadSummary :=
  let summaries := (store.pages.flatMap ChannelWindowPage.summaries).foldl
    (fun held entry => held.set entry.1 entry.2) EntryMap.empty
  store.liveSummaries.foldl (fun held live => held.set live.1 live.2.summary) summaries

end Code

section Counts

/-- The summary counts these replies and names the latest receipt time among them. -/
def Counts (replies : List X0xHistoryRow) : Option ChannelWindowThreadSummary → Prop
  | none => replies = []
  | some summary =>
      replies ≠ [] ∧ summary.replyCount = replies.length ∧
        summary.descendantCount = replies.length ∧
        ∃ latest, summary.lastReplyAt = some latest ∧
          (∃ reply ∈ replies, latest = (reply.seenAtMs : ℚ) / 1000) ∧
          ∀ reply ∈ replies, (reply.seenAtMs : ℚ) / 1000 ≤ latest

/-- Each top-level row that is loaded has the summary of all its loaded replies. -/
def BadgesExact (now : ℤ) (store : ChannelWindowStore) (pages : List X0xHistoryPage) : Prop :=
  ∀ page ∈ pages, ∀ row ∈ page.rows, row.isShown now = true →
    Counts ((pages.flatMap X0xHistoryPage.rows).filter (X0xHistoryRow.repliesTo row.msgId))
      ((channelWindowThreadSummaries store).get? row.msgId)

/-- No page border lies between a top-level row and a reply to it. -/
def ThreadsWhole (now : ℤ) (pages : List X0xHistoryPage) : Prop :=
  ∀ page ∈ pages, ∀ row ∈ page.rows, row.isShown now = true →
    ∀ reply ∈ pages.flatMap X0xHistoryPage.rows, reply.repliesTo row.msgId = true →
      reply ∈ page.rows

theorem le_foldl_max (values : List ℚ) : ∀ first : ℚ,
    first ≤ values.foldl max first ∧ (∀ value ∈ values, value ≤ values.foldl max first) ∧
      (values.foldl max first = first ∨ values.foldl max first ∈ values) := by
  induction values with
  | nil => exact fun first => ⟨le_rfl, by simp, Or.inl rfl⟩
  | cons value rest ih =>
      intro first
      obtain ⟨hfirst, hrest, hmem⟩ := ih (max first value)
      refine ⟨(le_max_left _ _).trans hfirst, ?_, ?_⟩
      · intro other hother
        rcases List.mem_cons.mp hother with rfl | hother
        · exact (le_max_right _ _).trans hfirst
        · exact hrest other hother
      · rcases hmem with heq | hmem
        · rw [List.foldl_cons, heq]
          rcases max_choice first value with hmax | hmax
          · exact Or.inl hmax
          · exact Or.inr (List.mem_cons.mpr (Or.inl hmax))
        · exact Or.inr (List.mem_cons_of_mem _ hmem)

theorem counts_threadSummary (rootId : String) (rows : List X0xHistoryRow) :
    Counts (rows.filter (X0xHistoryRow.repliesTo rootId)) (threadSummary rootId rows) := by
  unfold threadSummary
  cases rows.filter (X0xHistoryRow.repliesTo rootId) with
  | nil => rfl
  | cons first rest =>
      have hfold : rest.foldl (fun latest row => max latest ((row.seenAtMs : ℚ) / 1000))
          ((first.seenAtMs : ℚ) / 1000) = (rest.map fun row => (row.seenAtMs : ℚ) / 1000).foldl max
            ((first.seenAtMs : ℚ) / 1000) := by
        rw [List.foldl_map]
      obtain ⟨hfirst, hrest, hmem⟩ := le_foldl_max
        (rest.map fun row => (row.seenAtMs : ℚ) / 1000) ((first.seenAtMs : ℚ) / 1000)
      refine ⟨List.cons_ne_nil _ _, rfl, rfl, _, rfl, ?_, ?_⟩
      · rw [hfold]
        rcases hmem with heq | hmem
        · exact ⟨first, List.mem_cons_self, heq⟩
        · obtain ⟨reply, hreply, heq⟩ := List.mem_map.mp hmem
          exact ⟨reply, List.mem_cons_of_mem _ hreply, heq.symm⟩
      · intro reply hreply
        rw [hfold]
        rcases List.mem_cons.mp hreply with rfl | hreply
        · exact hfirst
        · exact hrest _ (List.mem_map_of_mem hreply)

theorem length_of_counts {replies : List X0xHistoryRow}
    {summary : Option ChannelWindowThreadSummary} (h : Counts replies summary) :
    (summary.elim 0 ChannelWindowThreadSummary.replyCount) = replies.length := by
  cases summary with
  | none =>
      rw [show replies = [] from h]
      rfl
  | some summary => exact h.2.1

end Counts

section Loading

variable {now : ℤ} {channelId : String} {pages : List X0xHistoryPage}
  {store final : ChannelWindowStore}

/-- The rows of the page that are shown, with their summaries over the page. -/
def X0xHistoryPage.badges (now : ℤ) (page : X0xHistoryPage) :
    List (String × ChannelWindowThreadSummary) :=
  (page.rows.filter (X0xHistoryRow.isShown now)).filterMap fun row =>
    (threadSummary row.msgId page.rows).map fun thread => (row.msgId, thread)

theorem windowRows_summaries {all : List X0xHistoryRow} (rows : List X0xHistoryRow) :
    ∀ {out : List ChannelWindowRow}, windowRows now channelId all rows = .ok out →
      out.map (fun row => (row.event.id, row.thread)) =
        (rows.filter (X0xHistoryRow.isShown now)).map fun row =>
          (row.msgId, threadSummary row.msgId all) := by
  induction rows with
  | nil =>
      intro out h
      cases h
      rfl
  | cons row rest ih =>
      intro out h
      obtain ⟨event, hevent, h⟩ := except_bind_ok h
      obtain ⟨others, hothers, h⟩ := except_bind_ok h
      cases h
      have hkey := historyRowToRelayEvent_some hevent
      have hfront : (windowRow all row event).map (fun row => (row.event.id, row.thread)) =
          if row.isShown now then [(row.msgId, threadSummary row.msgId all)] else [] := by
        cases event with
        | none =>
            have hnone : rowEnvelope now row = none := by simpa using hkey.symm
            simp [windowRow, X0xHistoryRow.isShown, hnone]
        | some event =>
            obtain ⟨envelope, henvelope, heq⟩ := Option.map_eq_some_iff.mp hkey.symm
            have hid : event.id = row.msgId := (congrArg Prod.fst heq).symm
            by_cases htop : row.isTopLevel = true
            · simp [windowRow, X0xHistoryRow.isShown, henvelope, htop, hid]
            · simp [windowRow, X0xHistoryRow.isShown, htop]
      rw [List.map_append, ih hothers, hfront, List.filter_cons]
      split_ifs
      · rfl
      · rfl

theorem built_summaries {page : X0xHistoryPage} {startCursor : Option ChannelWindowCursor}
    {out : ChannelWindowPage}
    (hbuilt : nativeHistoryPageToChannelWindowPage now channelId page startCursor = .ok out) :
    out.summaries = page.badges now := by
  obtain ⟨rows, hrows, hout⟩ := except_bind_ok hbuilt
  cases hout
  have hmap := windowRows_summaries page.rows hrows
  have hleft : rows.filterMap (fun row => row.thread.map fun thread => (row.event.id, thread)) =
      (rows.map fun row => (row.event.id, row.thread)).filterMap fun entry =>
        entry.2.map fun thread => (entry.1, thread) := by
    rw [List.filterMap_map]
    rfl
  rw [ChannelWindowPage.summaries, hleft, hmap, List.filterMap_map]
  rfl

theorem loadOlder_summaries (pages : List X0xHistoryPage) :
    ∀ {store : ChannelWindowStore}, loadOlder now channelId store pages = .ok final →
      final.liveSummaries = store.liveSummaries ∧
        final.pages.flatMap ChannelWindowPage.summaries =
          store.pages.flatMap ChannelWindowPage.summaries ++
            pages.flatMap (X0xHistoryPage.badges now) := by
  induction pages with
  | nil =>
      intro store h
      cases h
      exact ⟨rfl, by simp⟩
  | cons page rest ih =>
      intro store h
      obtain ⟨out, hout, h⟩ := except_bind_ok h
      obtain ⟨next, happend, h⟩ := except_bind_ok h
      obtain ⟨hlive, hpages⟩ := ih h
      have hkept : next.liveSummaries = store.liveSummaries := by
        unfold appendOlderChannelWindow at happend
        split at happend
        · cases happend
        split at happend
        · cases happend
        split_ifs at happend
        split at happend
        · cases happend
        cases happend
        rfl
      refine ⟨hlive.trans hkept, ?_⟩
      rw [hpages, pages_of_append happend, List.flatMap_append, List.flatMap_singleton,
        built_summaries hout, List.flatMap_cons, List.append_assoc]

/-- The window of a chain of pages has the summaries of its pages and no others. -/
theorem loadChain_summaries {newest : X0xHistoryPage}
    (h : loadChain now channelId store (newest :: pages) = .ok final) :
    final.liveSummaries = [] ∧ final.pages.flatMap ChannelWindowPage.summaries =
      (newest :: pages).flatMap (X0xHistoryPage.badges now) := by
  obtain ⟨out, hout, h⟩ := except_bind_ok h
  obtain ⟨next, hreplace, h⟩ := except_bind_ok h
  obtain ⟨hlive, hpages⟩ := loadOlder_summaries pages h
  have hcleared : next.liveSummaries = [] := by
    unfold replaceNewestChannelWindow at hreplace
    split_ifs at hreplace
    split at hreplace
    · cases hreplace
    · cases hreplace
      rfl
  refine ⟨hlive.trans hcleared, ?_⟩
  rw [hpages, pages_of_replace hreplace, List.flatMap_singleton, built_summaries hout,
    List.flatMap_cons]

theorem badges_keys (page : X0xHistoryPage) :
    ((page.badges now).map Prod.fst).Sublist (page.rows.map X0xHistoryRow.msgId) := by
  unfold X0xHistoryPage.badges
  generalize hall : page.rows = all
  have hkeys : ∀ rows : List X0xHistoryRow, ((rows.filterMap fun row =>
      (threadSummary row.msgId all).map fun thread => (row.msgId, thread)).map Prod.fst).Sublist
        (rows.map X0xHistoryRow.msgId) := by
    intro rows
    induction rows with
    | nil => exact List.Sublist.refl _
    | cons row rest ih =>
        cases hsummary : threadSummary row.msgId all with
        | none => simpa [hsummary] using ih.cons row.msgId
        | some thread => simpa [hsummary] using ih.cons_cons row.msgId
  exact (hkeys _).trans (List.filter_sublist.map X0xHistoryRow.msgId)

theorem badges_nodup (hdistinct : ((pages.flatMap X0xHistoryPage.rows).map
    X0xHistoryRow.msgId).Nodup) :
    ((pages.flatMap (X0xHistoryPage.badges now)).map Prod.fst).Nodup := by
  have hsub : ((pages.flatMap (X0xHistoryPage.badges now)).map Prod.fst).Sublist
      ((pages.flatMap X0xHistoryPage.rows).map X0xHistoryRow.msgId) := by
    clear hdistinct
    induction pages with
    | nil => exact List.Sublist.refl _
    | cons page rest ih =>
        rw [List.flatMap_cons, List.flatMap_cons, List.map_append, List.map_append]
        exact (badges_keys page).append ih
  exact hdistinct.sublist hsub

/-- The summary of a loaded row is the one over its page. -/
theorem summary_of_shown {newest : X0xHistoryPage}
    (h : loadChain now channelId store (newest :: pages) = .ok final)
    (hdistinct : (((newest :: pages).flatMap X0xHistoryPage.rows).map X0xHistoryRow.msgId).Nodup)
    {page : X0xHistoryPage} (hpage : page ∈ newest :: pages) {row : X0xHistoryRow}
    (hrow : row ∈ page.rows) (hshown : row.isShown now = true) :
    (channelWindowThreadSummaries final).get? row.msgId = threadSummary row.msgId page.rows := by
  obtain ⟨hlive, hsummaries⟩ := loadChain_summaries h
  have hget : ∀ value, (channelWindowThreadSummaries final).get? row.msgId = some value ↔
      (row.msgId, value) ∈ (newest :: pages).flatMap (X0xHistoryPage.badges now) := by
    intro value
    rw [channelWindowThreadSummaries, hlive, hsummaries, List.foldl_nil,
      EntryMap.get?_foldl_set _ _ _ (badges_nodup hdistinct)]
    simp [EntryMap.get?_empty]
  apply Option.ext
  intro value
  rw [hget, List.mem_flatMap]
  constructor
  · rintro ⟨other, hother, hmem⟩
    obtain ⟨found, hfound, hvalue⟩ := List.mem_filterMap.mp hmem
    obtain ⟨thread, hthread, heq⟩ := Option.map_eq_some_iff.mp hvalue
    obtain ⟨hid, rfl⟩ := Prod.mk.inj heq
    have hin := (List.mem_filter.mp hfound).1
    obtain rfl : found = row := List.inj_on_of_nodup_map hdistinct
      (List.mem_flatMap.mpr ⟨other, hother, hin⟩) (List.mem_flatMap.mpr ⟨page, hpage, hrow⟩) hid
    obtain rfl : other = page := by
      by_contra hne
      obtain ⟨before, after, hsplit⟩ := List.append_of_mem hpage
      rw [hsplit, List.flatMap_append, List.flatMap_cons, List.map_append, List.map_append,
        List.nodup_append, List.nodup_append] at hdistinct
      have hkey := List.mem_map_of_mem (f := X0xHistoryRow.msgId) hrow
      have hkeyOther := List.mem_map_of_mem (f := X0xHistoryRow.msgId) hin
      rw [hsplit, List.mem_append, List.mem_cons] at hother
      rcases hother with hbefore | rfl | hafter
      · exact hdistinct.2.2 _ (List.mem_map_of_mem (List.mem_flatMap.mpr ⟨other, hbefore, hin⟩)) _
          (List.mem_append_left _ hkey) rfl
      · exact hne rfl
      · exact hdistinct.2.1.2.2 _ hkey _
          (List.mem_map_of_mem (List.mem_flatMap.mpr ⟨other, hafter, hin⟩)) rfl
    exact hthread
  · intro hthread
    refine ⟨page, hpage, List.mem_filterMap.mpr ⟨row, List.mem_filter.mpr ⟨hrow, hshown⟩, ?_⟩⟩
    rw [hthread]
    rfl

theorem rows_sublist {page : X0xHistoryPage} (hpage : page ∈ pages) :
    page.rows.Sublist (pages.flatMap X0xHistoryPage.rows) := by
  obtain ⟨before, after, rfl⟩ := List.append_of_mem hpage
  rw [List.flatMap_append, List.flatMap_cons]
  exact (List.sublist_append_left _ _).trans (List.sublist_append_right _ _)

/-- Over a chain of distinct messages the replies on one page are all replies if they are as
many. -/
theorem replies_whole_iff {page : X0xHistoryPage} (hpage : page ∈ pages)
    (hdistinct : ((pages.flatMap X0xHistoryPage.rows).map X0xHistoryRow.msgId).Nodup)
    (p : X0xHistoryRow → Bool) :
    (page.rows.filter p).length = ((pages.flatMap X0xHistoryPage.rows).filter p).length ↔
      ∀ reply ∈ pages.flatMap X0xHistoryPage.rows, p reply = true → reply ∈ page.rows := by
  have hsub : (page.rows.filter p).Sublist ((pages.flatMap X0xHistoryPage.rows).filter p) :=
    (rows_sublist hpage).filter p
  have hnodup : ((pages.flatMap X0xHistoryPage.rows).filter p).Nodup :=
    (List.Nodup.of_map _ hdistinct).filter p
  constructor
  · intro hlength reply hreply hp
    have hmem : reply ∈ (pages.flatMap X0xHistoryPage.rows).filter p :=
      List.mem_filter.mpr ⟨hreply, hp⟩
    rw [← hsub.eq_of_length hlength] at hmem
    exact (List.mem_filter.mp hmem).1
  · intro h
    apply Nat.le_antisymm hsub.length_le
    apply (List.Nodup.subperm hnodup ?_).length_le
    intro reply hreply
    obtain ⟨hmem, hp⟩ := List.mem_filter.mp hreply
    exact List.mem_filter.mpr ⟨h reply hmem hp, hp⟩

theorem badges_exact_iff (now : ℤ) (channelId : String) (store final : ChannelWindowStore)
    (newest : X0xHistoryPage) (older : List X0xHistoryPage) (hserved : Served (newest :: older))
    (hload : loadChain now channelId store (newest :: older) = .ok final) :
    BadgesExact now final (newest :: older) ↔ ThreadsWhole now (newest :: older) := by
  apply forall_congr'
  intro page
  apply forall_congr'
  intro hpage
  apply forall_congr'
  intro row
  apply forall_congr'
  intro hrow
  apply forall_congr'
  intro hshown
  have hwhole := replies_whole_iff hpage hserved.distinct (X0xHistoryRow.repliesTo row.msgId)
  rw [summary_of_shown hload hserved.distinct hpage hrow hshown, ← hwhole]
  have hcounts := counts_threadSummary row.msgId page.rows
  constructor
  · intro h
    exact (length_of_counts hcounts).symm.trans (length_of_counts h)
  · intro hlength
    have hsub : (page.rows.filter (X0xHistoryRow.repliesTo row.msgId)).Sublist
        (((newest :: older).flatMap X0xHistoryPage.rows).filter
          (X0xHistoryRow.repliesTo row.msgId)) :=
      (rows_sublist hpage).filter _
    rwa [hsub.eq_of_length hlength] at hcounts

/-- A root, and its reply on the page before. -/
def splitThread : List X0xHistoryPage :=
  [⟨[{ textRow 2 2500 "b" with threadRoot := some "a" }], some 2⟩, ⟨[textRow 1 1200 "a"], none⟩]

theorem splitThread_served : Served splitThread :=
  ⟨⟨rfl, trivial⟩, by decide, by decide⟩

theorem splitThread_loads :
    ∃ final, loadChain 0 "general" emptyChannelWindowStore splitThread = .ok final := by
  cases hload : loadChain 0 "general" emptyChannelWindowStore splitThread with
  | ok final => exact ⟨final, rfl⟩
  | error message =>
      have hloads : (loadChain 0 "general" emptyChannelWindowStore splitThread).isOk = true := by
        decide +kernel
      rw [hload] at hloads
      cases hloads

theorem badges_exact_iff_split :
    ∃ final, loadChain 0 "general" emptyChannelWindowStore splitThread = .ok final ∧
      (BadgesExact 0 final splitThread ↔ ThreadsWhole 0 splitThread) := by
  obtain ⟨final, hload⟩ := splitThread_loads
  exact ⟨final, hload,
    badges_exact_iff 0 "general" emptyChannelWindowStore final _ _ splitThread_served hload⟩

/-- The reply is on the newer page, and the root has no badge. -/
theorem split_thread_uncounted :
    Served splitThread ∧ ∃ final,
      loadChain 0 "general" emptyChannelWindowStore splitThread = .ok final ∧
        ¬BadgesExact 0 final splitThread := by
  obtain ⟨final, hload⟩ := splitThread_loads
  refine ⟨splitThread_served, final, hload, fun hexact => ?_⟩
  have hpage : (⟨[textRow 1 1200 "a"], none⟩ : X0xHistoryPage) ∈ splitThread := by
    simp [splitThread]
  have hrow : textRow 1 1200 "a" ∈ (⟨[textRow 1 1200 "a"], none⟩ : X0xHistoryPage).rows :=
    List.mem_cons_self
  have hshown : (textRow 1 1200 "a").isShown 0 = true := by decide +kernel
  have hcounts := hexact _ hpage _ hrow hshown
  rw [summary_of_shown hload splitThread_served.distinct hpage hrow hshown] at hcounts
  have hlength := length_of_counts hcounts
  revert hlength
  decide +kernel

end Loading

end Buzz.Messages
