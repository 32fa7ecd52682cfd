import Buzz.HistoryWindow
import Buzz.MessageCaches

/-!
# What the timeline shows of a window

No writer of the timeline's cache repeats an id, so the projection of a window beside the cached
rows is in the order of the timeline, shows every event of the window once and keeps every pending
row and reply that no event of the window stands for. The key that an event takes over from a
pending row is in the projection and not in the window, so the next projection shows the event under
its own key, and gives it another pending row of the same text to take over.
-/

namespace WebText

/-- What is below the third is below the second, or the second is below the third. -/
theorem lexLt_cotrans (as : List ℕ) : ∀ bs cs : List ℕ, lexLt as cs = true →
    lexLt as bs = true ∨ lexLt bs cs = true := by
  induction as with
  | nil =>
      intro bs cs h
      cases bs with
      | nil => exact Or.inr h
      | cons b bs => exact Or.inl rfl
  | cons a as ih =>
      intro bs cs h
      cases cs with
      | nil => cases h
      | cons c cs =>
          cases bs with
          | nil => exact Or.inr rfl
          | cons b bs =>
              simp only [lexLt, Bool.or_eq_true, decide_eq_true_eq, Bool.and_eq_true, beq_iff_eq]
                at h ⊢
              rcases h with hlt | ⟨rfl, hrest⟩
              · by_cases hab : a < b
                · exact Or.inl (Or.inl hab)
                · by_cases heq : a = b
                  · exact Or.inr (Or.inl (by omega))
                  · exact Or.inr (Or.inl (by omega))
              · by_cases hab : a < b
                · exact Or.inl (Or.inl hab)
                · by_cases heq : a = b
                  · obtain rfl := heq
                    exact (ih bs cs hrest).imp (fun hlt => Or.inr ⟨rfl, hlt⟩)
                      fun hlt => Or.inr ⟨rfl, hlt⟩
                  · exact Or.inr (Or.inl (by omega))

end WebText

namespace Buzz.Messages

section Order

/-- Times ascend, and ids descend within a second. -/
def Chronological (first second : RelayEvent) : Prop :=
  first.createdAt < second.createdAt ∨
    (first.createdAt = second.createdAt ∧ WebText.stringLt first.id second.id = false)

variable {first second third : RelayEvent}

theorem chronological_iff : Chronological first second ↔ compareRelayOrder second first ≤ 0 := by
  unfold Chronological compareRelayOrder
  by_cases htime : second.createdAt = first.createdAt
  · rw [if_neg (not_not.mpr htime)]
    simp only [htime, lt_irrefl, true_and, false_or]
    split_ifs with hlt hgt
    · exact iff_of_true (WebText.lexLt_asymm _ _ hlt) (by omega)
    · exact iff_of_false (by simp [hgt]) (by omega)
    · exact iff_of_true (Bool.eq_false_of_not_eq_true hgt) (by omega)
  · rw [if_pos htime]
    constructor
    · rintro (hlt | ⟨heq, -⟩)
      · omega
      · exact absurd heq.symm htime
    · intro h
      exact Or.inl (by omega)

theorem not_chronological_iff :
    ¬Chronological first second ↔ 0 < compareRelayOrder second first := by
  rw [chronological_iff, not_le]

theorem Chronological.total (first second : RelayEvent) :
    Chronological first second ∨ Chronological second first := by
  rcases lt_trichotomy first.createdAt second.createdAt with hlt | heq | hlt
  · exact Or.inl (Or.inl hlt)
  · cases hids : WebText.stringLt first.id second.id with
    | false => exact Or.inl (Or.inr ⟨heq, hids⟩)
    | true => exact Or.inr (Or.inr ⟨heq.symm, WebText.lexLt_asymm _ _ hids⟩)
  · exact Or.inr (Or.inl hlt)

theorem Chronological.trans (h : Chronological first second) (h' : Chronological second third) :
    Chronological first third := by
  rcases h with hlt | ⟨heq, hids⟩
  · rcases h' with hlt' | ⟨heq', -⟩
    · exact Or.inl (hlt.trans hlt')
    · exact Or.inl (heq' ▸ hlt)
  · rcases h' with hlt' | ⟨heq', hids'⟩
    · exact Or.inl (heq.symm ▸ hlt')
    · refine Or.inr ⟨heq.trans heq', Bool.eq_false_of_not_eq_true fun hlt => ?_⟩
      rcases WebText.lexLt_cotrans _ (second.id.toList.flatMap WebText.utf16) _ hlt with hlt | hlt
      · rw [WebText.stringLt, hlt] at hids
        cases hids
      · rw [WebText.stringLt, hlt] at hids'
        cases hids'

/-- The order of the timeline. -/
def sortChronological (events : List RelayEvent) : List RelayEvent :=
  sortEvents (fun left right => compareRelayOrder right left) events

theorem sortChronological_pairwise (events : List RelayEvent) :
    (sortChronological events).Pairwise Chronological := by
  have : IsTrans RelayEvent fun left right => compareRelayOrder right left ≤ 0 :=
    ⟨fun a b c hab hbc => chronological_iff.mp
      ((chronological_iff.mpr hab).trans (chronological_iff.mpr hbc))⟩
  have : Std.Total fun left right : RelayEvent => compareRelayOrder right left ≤ 0 :=
    ⟨fun a b => (Chronological.total a b).imp chronological_iff.mp chronological_iff.mp⟩
  exact (List.pairwise_insertionSort _ events).imp chronological_iff.mpr

theorem sortChronological_of_pairwise {events : List RelayEvent}
    (h : events.Pairwise Chronological) : sortChronological events = events :=
  (h.imp chronological_iff.mp).insertionSort_eq

theorem mergeSorted_pairwise (retained : List RelayEvent) :
    ∀ authoritative, retained.Pairwise Chronological → authoritative.Pairwise Chronological →
      (mergeSorted retained authoritative).Pairwise Chronological := by
  induction retained with
  | nil => exact fun _ _ h => h
  | cons row rest ih =>
      intro authoritative hretained
      obtain ⟨hrow, hrest⟩ := List.pairwise_cons.mp hretained
      induction authoritative with
      | nil =>
          intro _
          refine List.pairwise_cons.mpr ⟨?_, ih [] hrest List.Pairwise.nil⟩
          intro other hother
          have hmem := (mergeSorted_perm rest []).mem_iff.mp hother
          exact hrow other (by simpa using hmem)
      | cons event others ihEvents =>
          intro hevents
          obtain ⟨hevent, hothers⟩ := List.pairwise_cons.mp hevents
          rw [mergeSorted, mergeBefore]
          split_ifs with hbefore
          · have hfirst : Chronological row event :=
              (Chronological.total row event).resolve_right (not_chronological_iff.mpr hbefore)
            refine List.pairwise_cons.mpr ⟨?_, ih _ hrest hevents⟩
            intro other hother
            rcases List.mem_append.mp ((mergeSorted_perm rest _).mem_iff.mp hother) with hmem | hmem
            · exact hrow other hmem
            · rcases List.mem_cons.mp hmem with rfl | hmem
              · exact hfirst
              · exact hfirst.trans (hevent other hmem)
          · have hfirst : Chronological event row := by
              by_contra hnot
              exact hbefore (not_chronological_iff.mp hnot)
            refine List.pairwise_cons.mpr ⟨?_, ihEvents hothers⟩
            intro other hother
            rcases List.mem_append.mp ((mergeSorted_perm (row :: rest) _).mem_iff.mp hother)
              with hmem | hmem
            · rcases List.mem_cons.mp hmem with rfl | hmem
              · exact hfirst
              · exact hfirst.trans (hrow other hmem)
            · exact hevent other hmem

/-- The rows of one kind stand in the merge as they stand in their own list. -/
theorem filter_mergeSorted {p : RelayEvent → Bool} (retained : List RelayEvent) :
    ∀ authoritative, (∀ row ∈ retained, p row = true) → (∀ event ∈ authoritative, p event = false) →
      (mergeSorted retained authoritative).filter p = retained ∧
        (mergeSorted retained authoritative).filter (fun row => !p row) = authoritative := by
  induction retained with
  | nil =>
      intro authoritative _ hevents
      refine ⟨List.filter_eq_nil_iff.mpr fun event hevent => by simp [hevents event hevent], ?_⟩
      exact List.filter_eq_self.mpr fun event hevent => by simp [hevents event hevent]
  | cons row rest ih =>
      intro authoritative hrows
      obtain ⟨hrow, hrest⟩ := List.forall_mem_cons.mp hrows
      induction authoritative with
      | nil =>
          intro hevents
          obtain ⟨hkept, hleft⟩ := ih [] hrest hevents
          rw [mergeSorted, mergeBefore, List.filter_cons_of_pos hrow,
            List.filter_cons_of_neg (by simp [hrow])]
          exact ⟨congrArg _ hkept, hleft⟩
      | cons event others ihEvents =>
          intro hevents
          obtain ⟨hevent, hothers⟩ := List.forall_mem_cons.mp hevents
          rw [mergeSorted, mergeBefore]
          split_ifs
          · obtain ⟨hkept, hleft⟩ := ih (event :: others) hrest hevents
            rw [List.filter_cons_of_pos hrow, List.filter_cons_of_neg (by simp [hrow])]
            exact ⟨congrArg _ hkept, hleft⟩
          · obtain ⟨hkept, hleft⟩ := ihEvents hothers
            rw [List.filter_cons_of_neg (by simp [hevent]),
              List.filter_cons_of_pos (by simp [hevent])]
            exact ⟨hkept, congrArg _ hleft⟩

end Order

section Rows

variable {window : ChannelWindowStore} {messages cacheOnly events : List RelayEvent}
  {event row shown : RelayEvent}

def RelayEvent.unkeyed (event : RelayEvent) : RelayEvent := { event with localKey := none }

theorem unkeyed_takeOverKey (current : List RelayEvent) (incoming : RelayEvent) :
    (takeOverKey current incoming).unkeyed = incoming.unkeyed := by
  obtain ⟨heq, -⟩ | ⟨replaced, -, -, heq⟩ := takeOverKey_cases current incoming
  · rw [heq]
  · rw [heq]
    rfl

theorem reconcileWindowEvents_unkeyed (events : List RelayEvent) :
    ∀ cacheOnly, (reconcileWindowEvents cacheOnly events).2.map RelayEvent.unkeyed =
      events.map RelayEvent.unkeyed := by
  induction events with
  | nil => exact fun _ => rfl
  | cons event rest ih =>
      intro cacheOnly
      rw [reconcileWindowEvents_cons, List.map_cons, List.map_cons, ih, unkeyed_takeOverKey]

theorem dedupe_idem (events : List RelayEvent) :
    dedupeMessagesById (dedupeMessagesById events) = dedupeMessagesById events :=
  dedupe_of_nodup (dedupe_ids_nodup events)

/-- The loop drops older versions of a row at its first event. -/
theorem reconcileWindowEvents_dedupe (h : events ≠ [] ∨ (cacheOnly.map RelayEvent.id).Nodup) :
    reconcileWindowEvents (dedupeMessagesById cacheOnly) events =
      reconcileWindowEvents cacheOnly events := by
  rcases h with hsome | hnodup
  · cases events with
    | nil => exact absurd rfl hsome
    | cons event rest => rw [reconcileWindowEvents_cons, reconcileWindowEvents_cons, dedupe_idem]
  · rw [dedupe_of_nodup hnodup]

theorem filter_id_of_nodup (h : (events.map RelayEvent.id).Nodup) (hrow : row ∈ events) :
    events.filter (fun other => other.id == row.id) = [row] := by
  induction events with
  | nil => cases hrow
  | cons first rest ih =>
      obtain ⟨hfirst, hrest⟩ := List.nodup_cons.mp h
      rcases List.mem_cons.mp hrow with rfl | hmem
      · rw [List.filter_cons_of_pos (by simp), List.filter_eq_nil_iff.mpr]
        intro other hother heq
        exact hfirst (List.mem_map.mpr ⟨other, hother, by simpa using heq⟩)
      · rw [List.filter_cons_of_neg, ih hrest hmem]
        intro heq
        exact hfirst (List.mem_map.mpr ⟨row, hmem, (by simpa using heq : first.id = row.id).symm⟩)

/-- The ids of the cache are not those of the window. -/
def Apart (cacheOnly events : List RelayEvent) : Prop :=
  ∀ row ∈ cacheOnly, row.id ∉ events.map RelayEvent.id

theorem Apart.rest (h : Apart cacheOnly (event :: events)) (current : RelayEvent) :
    Apart (withoutReplaced cacheOnly current) events := fun row hrow hmem =>
  h row (mem_withoutReplaced.mp hrow).1 (List.mem_cons_of_mem _ hmem)

theorem withoutReplaced_nodup (h : (cacheOnly.map RelayEvent.id).Nodup) (current : RelayEvent) :
    ((withoutReplaced cacheOnly current).map RelayEvent.id).Nodup :=
  h.sublist (List.filter_sublist.map RelayEvent.id)

theorem apart_of_retained (window : ChannelWindowStore) (messages : List RelayEvent) :
    Apart (retainedBeside window messages) (flattenChannelWindowEvents window) := by
  intro row hrow
  simpa using (List.mem_filter.mp hrow).2

/-- A row that the loop drops is under the key of an event that it shows. -/
theorem mem_left_or_key (events : List RelayEvent) :
    ∀ {cacheOnly : List RelayEvent}, (cacheOnly.map RelayEvent.id).Nodup →
      Apart cacheOnly events → row ∈ cacheOnly →
        row ∈ (reconcileWindowEvents cacheOnly events).1 ∨
          ∃ shown ∈ (reconcileWindowEvents cacheOnly events).2,
            shown.renderKey = row.renderKey := by
  induction events with
  | nil => exact fun _ _ h => Or.inl h
  | cons event rest ih =>
      intro cacheOnly hnodup hapart hrow
      rw [reconcileWindowEvents_cons, dedupe_of_nodup hnodup]
      by_cases hkey : (takeOverKey cacheOnly event).renderKey = row.renderKey
      · exact Or.inr ⟨_, List.mem_cons_self, hkey⟩
      · have hid : row.id ≠ (takeOverKey cacheOnly event).id := by
          rw [takeOverKey_id]
          exact fun heq => hapart row hrow (heq ▸ List.mem_cons_self)
        have hstays : row ∈ withoutReplaced cacheOnly (takeOverKey cacheOnly event) :=
          mem_withoutReplaced.mpr ⟨hrow, hid, Ne.symm hkey⟩
        have hnext := withoutReplaced_nodup hnodup (takeOverKey cacheOnly event)
        refine (ih hnext (hapart.rest _) hstays).imp_right ?_
        rintro ⟨shown, hshown, heq⟩
        exact ⟨shown, List.mem_cons_of_mem _ hshown, heq⟩

/-- No row that is left has the key of an event that is shown. -/
theorem key_of_left (events : List RelayEvent) :
    ∀ {cacheOnly : List RelayEvent}, (cacheOnly.map RelayEvent.id).Nodup →
      row ∈ (reconcileWindowEvents cacheOnly events).1 →
        ∀ shown ∈ (reconcileWindowEvents cacheOnly events).2, row.renderKey ≠ shown.renderKey := by
  induction events with
  | nil => exact fun _ _ _ h => nomatch h
  | cons event rest ih =>
      intro cacheOnly hnodup hrow shown hshown
      rw [reconcileWindowEvents_cons, dedupe_of_nodup hnodup] at hrow hshown
      have hnext := withoutReplaced_nodup hnodup (takeOverKey cacheOnly event)
      rcases List.mem_cons.mp hshown with rfl | hshown
      · have hmem := (reconcileWindowEvents_left rest hnext).subset hrow
        exact (mem_withoutReplaced.mp hmem).2.2
      · exact ih hnext hrow shown hshown

end Rows

section Cached

def normalizeTimelineMessages (messages : List RelayEvent) : List RelayEvent :=
  sortMessages messages

def mergeTimelineCacheMessages (current : List RelayEvent) (incoming : RelayEvent) :
    List RelayEvent :=
  normalizeTimelineMessages (reconcileIncomingMessage current incoming)

/-- The lists that the cache of a timeline can hold. Each writer starts from the list that is there
or, over an await, from one that was. -/
inductive CachedTimeline : List RelayEvent → Prop where
  | unwritten : CachedTimeline []
  /-- The query of the newest page and every projection of the window. -/
  | projected (window : ChannelWindowStore) {messages : List RelayEvent}
      (h : CachedTimeline messages) :
      CachedTimeline (reconcileChannelWindowMessages window messages)
  /-- The loader of missing ancestors. -/
  | ancestor (event : RelayEvent) {messages : List RelayEvent} (h : CachedTimeline messages) :
      CachedTimeline (mergeMessages messages event)
  /-- The subscription to all channels, and a wave from a profile. -/
  | merged (event : RelayEvent) {messages : List RelayEvent} (h : CachedTimeline messages) :
      CachedTimeline (mergeTimelineCacheMessages messages event)
  | rolledBack (optimisticId : String) {messages : List RelayEvent} (h : CachedTimeline messages) :
      CachedTimeline (messages.filter fun event => !eventIsOptimistic event optimisticId)
  /-- A wave that was sent or failed. -/
  | waveDropped (wave : RelayEvent) {messages : List RelayEvent} (h : CachedTimeline messages) :
      CachedTimeline (messages.filter fun message =>
        message.id != wave.id && message.localKey != wave.localKey)

end Cached

section Exact

/-- The timeline is in order and shows each event of the window once, under its own key or that of
one pending row of its text. A row of the cache is there once, unless the window has its id or an
event of the window is shown under its key: a row is gone by its text only with the key that the
event took over, so that no event takes two. -/
structure ExactProjection (window : ChannelWindowStore) (messages result : List RelayEvent) :
    Prop where
  chronological : result.Pairwise Chronological
  shown : ∀ event ∈ flattenChannelWindowEvents window, ∃ shown,
    result.filter (fun row => row.id == event.id) = [shown] ∧ shown.unkeyed = event.unkeyed ∧
      (shown.localKey = event.localKey ∨
        ∃ pending ∈ retainRefetchReconciliationEvents messages,
          isMatchingPendingMessage pending event = true ∧
            shown.localKey = some pending.renderKey)
  kept : ∀ row ∈ retainRefetchReconciliationEvents messages,
    row.id ∈ (flattenChannelWindowEvents window).map RelayEvent.id ∨
      (∃ shown ∈ result, shown.id ∈ (flattenChannelWindowEvents window).map RelayEvent.id ∧
        shown.renderKey = row.renderKey) ∨
      result.filter (fun other => other.id == row.id) = [row]
  only : ∀ row ∈ result, row.id ∈ (flattenChannelWindowEvents window).map RelayEvent.id ∨
    row ∈ retainRefetchReconciliationEvents messages

variable {window : ChannelWindowStore} {messages : List RelayEvent} {row : RelayEvent}

theorem mem_retainedBeside :
    row ∈ retainedBeside window messages ↔
      row ∈ retainRefetchReconciliationEvents messages ∧
        row.id ∉ (flattenChannelWindowEvents window).map RelayEvent.id := by
  rw [retainedBeside, List.mem_filter, decide_eq_true_eq]

theorem projection_chronological (window : ChannelWindowStore) (messages : List RelayEvent) :
    (reconcileChannelWindowMessages window messages).Pairwise Chronological := by
  apply mergeSorted_pairwise
  · exact sortChronological_pairwise _
  · have hflat : (flattenChannelWindowEvents window).Pairwise Chronological :=
      sortChronological_pairwise _
    have hunkeyed : ((flattenChannelWindowEvents window).map RelayEvent.unkeyed).Pairwise
        Chronological := List.pairwise_map.mpr hflat
    rw [← reconcileWindowEvents_unkeyed _ (retainedBeside window messages)] at hunkeyed
    have hpairs := List.pairwise_map.mp hunkeyed
    exact hpairs

theorem loop_ids_nodup {cacheOnly events : List RelayEvent}
    (hcache : (cacheOnly.map RelayEvent.id).Nodup) (hevents : (events.map RelayEvent.id).Nodup)
    (hapart : Apart cacheOnly events) :
    (((reconcileWindowEvents cacheOnly events).1 ++
      (reconcileWindowEvents cacheOnly events).2).map RelayEvent.id).Nodup := by
  have hleft := reconcileWindowEvents_left events hcache
  rw [List.map_append, reconcileWindowEvents_ids, List.nodup_append]
  refine ⟨hcache.sublist (hleft.map RelayEvent.id), hevents, ?_⟩
  intro id hid other hother heq
  obtain ⟨row, hrow, rfl⟩ := List.mem_map.mp hid
  exact hapart row (hleft.subset hrow) (heq ▸ hother)

theorem retainedBeside_ids_nodup (window : ChannelWindowStore)
    (h : (messages.map RelayEvent.id).Nodup) :
    ((retainedBeside window messages).map RelayEvent.id).Nodup :=
  h.sublist ((List.filter_sublist.trans List.filter_sublist).map RelayEvent.id)

theorem projection_ids_nodup (window : ChannelWindowStore)
    (h : (messages.map RelayEvent.id).Nodup) :
    ((reconcileChannelWindowMessages window messages).map RelayEvent.id).Nodup :=
  ((reconcileChannelWindow_perm window messages).map RelayEvent.id).nodup_iff.mpr
    (loop_ids_nodup (retainedBeside_ids_nodup window h) (flatten_ids_nodup window)
      (apart_of_retained window messages))

/-- No writer of the cache repeats an id. -/
theorem cachedTimeline_ids_nodup (h : CachedTimeline messages) :
    (messages.map RelayEvent.id).Nodup := by
  induction h with
  | unwritten => exact List.nodup_nil
  | projected window _ ih => exact projection_ids_nodup window ih
  | ancestor event _ _ | merged event _ _ => exact sortMessages_ids_nodup _
  | rolledBack optimisticId _ ih | waveDropped wave _ ih =>
      exact ih.sublist (List.filter_sublist.map RelayEvent.id)

theorem projection_exact (window : ChannelWindowStore) (h : CachedTimeline messages) :
    ExactProjection window messages (reconcileChannelWindowMessages window messages) := by
  have hids := cachedTimeline_ids_nodup h
  have hperm := reconcileChannelWindow_perm window messages
  have hcache := retainedBeside_ids_nodup window hids
  have hapart := apart_of_retained window messages
  have hnodup := projection_ids_nodup window hids
  refine ⟨projection_chronological window messages, ?_, ?_, ?_⟩
  · intro event hevent
    have hid : event.id ∈ (reconcileWindowEvents (retainedBeside window messages)
        (flattenChannelWindowEvents window)).2.map RelayEvent.id := by
      rw [reconcileWindowEvents_ids]
      exact List.mem_map_of_mem hevent
    obtain ⟨shown, hshown, heq⟩ := List.mem_map.mp hid
    refine ⟨shown, ?_, ?_⟩
    · rw [← heq]
      exact filter_id_of_nodup hnodup (hperm.mem_iff.mpr (List.mem_append_right _ hshown))
    · obtain ⟨found, hfound, hcases⟩ := reconcileWindowEvents_authoritative _ shown hshown
      have hsame : found.id = event.id := by
        rw [← heq]
        rcases hcases with rfl | ⟨replaced, -, -, rfl⟩
        · rfl
        · rfl
      obtain rfl := List.inj_on_of_nodup_map (flatten_ids_nodup window) hfound hevent hsame
      rcases hcases with rfl | ⟨replaced, hreplaced, hmatch, rfl⟩
      · exact ⟨rfl, Or.inl rfl⟩
      · exact ⟨rfl, Or.inr ⟨replaced, (mem_retainedBeside.mp hreplaced).1, hmatch, rfl⟩⟩
  · intro row hrow
    by_cases hid : row.id ∈ (flattenChannelWindowEvents window).map RelayEvent.id
    · exact Or.inl hid
    · right
      rcases mem_left_or_key _ hcache hapart (mem_retainedBeside.mpr ⟨hrow, hid⟩)
        with hleft | ⟨shown, hshown, hkey⟩
      · exact Or.inr (filter_id_of_nodup hnodup
          (hperm.mem_iff.mpr (List.mem_append_left _ hleft)))
      · refine Or.inl ⟨shown, hperm.mem_iff.mpr (List.mem_append_right _ hshown), ?_, hkey⟩
        have hmem := List.mem_map_of_mem (f := RelayEvent.id) hshown
        rwa [reconcileWindowEvents_ids] at hmem
  · intro row hrow
    rcases List.mem_append.mp (hperm.mem_iff.mp hrow) with hleft | hshown
    · exact Or.inr (mem_retainedBeside.mp
        ((reconcileWindowEvents_left _ hcache).subset hleft)).1
    · have hmem := List.mem_map_of_mem (f := RelayEvent.id) hshown
      rw [reconcileWindowEvents_ids] at hmem
      exact Or.inl hmem

def pendingRow (id content : String) : RelayEvent where
  id := id
  localKey := none
  pubkey := "a"
  createdAt := 1
  kind := 9
  tags := []
  content := content
  sig := ""
  pending := true

/-- A live event that no page holds. -/
def liveWindow (event : RelayEvent) : ChannelWindowStore :=
  { emptyChannelWindowStore with liveOverlay := [event] }

/-- Two waves of one text, and the acknowledgement of one of them. -/
theorem projection_exact_acknowledged :
    let messages := mergeTimelineCacheMessages (mergeTimelineCacheMessages []
      (pendingRow "p" "hello")) (pendingRow "q" "hello")
    let window := liveWindow { pendingRow "m" "hello" with pending := false }
    (reconcileChannelWindowMessages window messages).map RelayEvent.renderKey = ["q", "p"] ∧
      ExactProjection window messages (reconcileChannelWindowMessages window messages) :=
  ⟨by decide +kernel, projection_exact _ ((CachedTimeline.unwritten.merged _).merged _)⟩

end Exact

section Twice

variable {window : ChannelWindowStore} {messages cacheOnly events : List RelayEvent}
  {event row : RelayEvent}

theorem apart_of_dedupe_retained (window : ChannelWindowStore) (messages : List RelayEvent) :
    Apart (dedupeMessagesById (retainedBeside window messages))
      (flattenChannelWindowEvents window) := fun row hrow =>
  apart_of_retained window messages row ((dedupeMessagesById_sublist _).subset hrow)

/-- The rows under a key that none of the events has. -/
def outOfKeys (rows events : List RelayEvent) : List RelayEvent :=
  rows.filter fun row => decide (row.renderKey ∉ events.map RelayEvent.renderKey)

/-- The first pending row that an event matches, once the rows under the keys of the events in front
of it are gone, has the local key of the event. -/
def KeepsKeys (rows events : List RelayEvent) : Prop :=
  ∀ before event after, events = before ++ event :: after → ∀ pending,
    (outOfKeys rows before).find? (fun row => isMatchingPendingMessage row event) = some pending →
      event.localKey = some pending.renderKey

/-- No event of the window has a key to take over, and no row waits for one. -/
structure KeysSettled (window : ChannelWindowStore) (messages : List RelayEvent) : Prop where
  keys : KeepsKeys (dedupeMessagesById (retainedBeside window messages))
    (flattenChannelWindowEvents window)
  waiting : ∀ event ∈ flattenChannelWindowEvents window,
    ∀ row ∈ dedupeMessagesById (retainedBeside window messages),
      isMatchingPendingMessage row event = true →
        ∃ other ∈ flattenChannelWindowEvents window, other.renderKey = row.renderKey

theorem mem_outOfKeys : row ∈ outOfKeys cacheOnly events ↔
    row ∈ cacheOnly ∧ row.renderKey ∉ events.map RelayEvent.renderKey := by
  simp [outOfKeys]

theorem outOfKeys_cons (rows : List RelayEvent) (event : RelayEvent) (events : List RelayEvent) :
    outOfKeys (outOfKeys rows [event]) events = outOfKeys rows (event :: events) := by
  rw [outOfKeys, outOfKeys, outOfKeys, List.filter_filter]
  apply List.filter_congr
  intro row _
  simp [Bool.and_comm]

theorem takeOverKey_eq_self_iff : takeOverKey cacheOnly event = event ↔
    ∀ pending, cacheOnly.find? (fun row => isMatchingPendingMessage row event) = some pending →
      event.localKey = some pending.renderKey := by
  unfold takeOverKey
  cases cacheOnly.find? fun row => isMatchingPendingMessage row event with
  | none => simp
  | some pending =>
      constructor
      · rintro heq other ⟨⟩
        exact (congrArg RelayEvent.localKey heq).symm
      · intro h
        have hkey := h pending rfl
        cases event
        cases hkey
        rfl

theorem withoutReplaced_of_apart (h : Apart cacheOnly (event :: events)) :
    withoutReplaced cacheOnly event = outOfKeys cacheOnly [event] := by
  apply List.filter_congr
  intro row hrow
  have hid : row.id ≠ event.id := fun heq => h row hrow (heq ▸ List.mem_cons_self)
  rw [Bool.eq_iff_iff, Bool.and_eq_true, bne_iff_ne, bne_iff_ne, decide_eq_true_eq]
  simp [hid]

theorem keepsKeys_cons : KeepsKeys cacheOnly (event :: events) ↔
    takeOverKey cacheOnly event = event ∧ KeepsKeys (outOfKeys cacheOnly [event]) events := by
  rw [takeOverKey_eq_self_iff]
  constructor
  · intro h
    constructor
    · intro pending hfind
      refine h [] event events rfl pending ?_
      rw [outOfKeys, List.filter_eq_self.mpr (by simp)]
      exact hfind
    · intro before other after heq pending hfind
      rw [outOfKeys_cons] at hfind
      exact h (event :: before) other after (by rw [heq]; rfl) pending hfind
  · rintro ⟨hfirst, hrest⟩ before other after heq pending hfind
    cases before with
    | nil =>
        obtain ⟨rfl, rfl⟩ := List.cons.inj heq
        rw [outOfKeys, List.filter_eq_self.mpr (by simp)] at hfind
        exact hfirst pending hfind
    | cons first before =>
        obtain ⟨rfl, rfl⟩ := List.cons.inj heq
        rw [← outOfKeys_cons] at hfind
        exact hrest before other after rfl pending hfind

theorem loop_of_keepsKeys (events : List RelayEvent) :
    ∀ {cacheOnly : List RelayEvent}, (cacheOnly.map RelayEvent.id).Nodup →
      Apart cacheOnly events → KeepsKeys cacheOnly events →
        reconcileWindowEvents cacheOnly events = (outOfKeys cacheOnly events, events) := by
  induction events with
  | nil =>
      intro cacheOnly _ _ _
      rw [reconcileWindowEvents, outOfKeys, List.filter_eq_self.mpr (by simp)]
  | cons event rest ih =>
      intro cacheOnly hnodup hapart hkeeps
      obtain ⟨hself, hrest⟩ := keepsKeys_cons.mp hkeeps
      have hnext := withoutReplaced_nodup hnodup event
      have happart := hapart.rest event
      rw [withoutReplaced_of_apart hapart] at hnext happart
      rw [reconcileWindowEvents_cons, dedupe_of_nodup hnodup, hself,
        withoutReplaced_of_apart hapart, ih hnext happart hrest, outOfKeys_cons]

theorem keepsKeys_of_loop (events : List RelayEvent) :
    ∀ {cacheOnly : List RelayEvent}, (cacheOnly.map RelayEvent.id).Nodup →
      Apart cacheOnly events → (reconcileWindowEvents cacheOnly events).2 = events →
        KeepsKeys cacheOnly events := by
  induction events with
  | nil => exact fun _ _ _ before event after heq => by simp at heq
  | cons event rest ih =>
      intro cacheOnly hnodup hapart hloop
      rw [reconcileWindowEvents_cons, dedupe_of_nodup hnodup] at hloop
      obtain ⟨hself, hrest⟩ := List.cons.inj hloop
      have hnext := withoutReplaced_nodup hnodup event
      have happart := hapart.rest event
      rw [hself, withoutReplaced_of_apart hapart] at hrest
      rw [withoutReplaced_of_apart hapart] at hnext happart
      exact keepsKeys_cons.mpr ⟨hself, ih hnext happart hrest⟩

theorem loop_left_subset (events : List RelayEvent) :
    ∀ cacheOnly, (reconcileWindowEvents cacheOnly events).1 ⊆ cacheOnly := by
  induction events with
  | nil => exact fun _ => List.Subset.refl _
  | cons event rest ih =>
      intro cacheOnly
      rw [reconcileWindowEvents_cons]
      intro row hrow
      exact (dedupeMessagesById_sublist cacheOnly).subset
        (mem_withoutReplaced.mp (ih _ hrow)).1

theorem retainedBeside_projection (window : ChannelWindowStore) (messages : List RelayEvent) :
    retainedBeside window (reconcileChannelWindowMessages window messages) =
      sortChronological (reconcileWindowEvents (retainedBeside window messages)
        (flattenChannelWindowEvents window)).1 ∧
    (reconcileChannelWindowMessages window messages).filter
        (fun row => !decide (row.id ∉ (flattenChannelWindowEvents window).map RelayEvent.id)) =
      (reconcileWindowEvents (retainedBeside window messages)
        (flattenChannelWindowEvents window)).2 := by
  have hrows : ∀ row ∈ sortChronological (reconcileWindowEvents (retainedBeside window messages)
      (flattenChannelWindowEvents window)).1, row ∈ retainedBeside window messages := by
    intro row hrow
    exact loop_left_subset _ _ (mem_sortEvents.mp hrow)
  have hids : ∀ event ∈ (reconcileWindowEvents (retainedBeside window messages)
      (flattenChannelWindowEvents window)).2,
        event.id ∈ (flattenChannelWindowEvents window).map RelayEvent.id := by
    intro event hevent
    have hmem := List.mem_map_of_mem (f := RelayEvent.id) hevent
    rwa [reconcileWindowEvents_ids] at hmem
  obtain ⟨hkept, hshown⟩ := @filter_mergeSorted
    (fun row => decide (row.id ∉ (flattenChannelWindowEvents window).map RelayEvent.id)) _ _
    (fun row hrow => (List.mem_filter.mp (hrows row hrow)).2)
    (fun event hevent => by simpa using hids event hevent)
  refine ⟨?_, hshown⟩
  rw [retainedBeside, retainRefetchReconciliationEvents, List.filter_comm]
  refine Eq.trans (congrArg _ hkept) (List.filter_eq_self.mpr fun row hrow => ?_)
  exact (List.mem_filter.mp (List.mem_filter.mp (hrows row hrow)).1).2

theorem eq_of_map_id {rows : List RelayEvent} (hnodup : (events.map RelayEvent.id).Nodup)
    (hids : rows.map RelayEvent.id = events.map RelayEvent.id) (hmem : ∀ row ∈ rows, row ∈ events) :
    rows = events := by
  have hlength : rows.length = events.length := by simpa using congrArg List.length hids
  apply List.ext_getElem hlength
  intro i hi hi'
  have hid : rows[i].id = events[i].id := by
    have hget := congrArg (fun ids => ids[i]?) hids
    simpa [hi, hi'] using hget
  exact List.inj_on_of_nodup_map hnodup (hmem _ (List.getElem_mem hi)) (List.getElem_mem hi') hid

variable (window messages) in
/-- The loop over the rows that a projection leaves, in their order. -/
theorem project_twice_iff :
    reconcileChannelWindowMessages window (reconcileChannelWindowMessages window messages) =
        reconcileChannelWindowMessages window messages ↔
      sortChronological (reconcileWindowEvents
          (retainedBeside window (reconcileChannelWindowMessages window messages))
          (flattenChannelWindowEvents window)).1 =
        retainedBeside window (reconcileChannelWindowMessages window messages) ∧
      (reconcileWindowEvents
          (retainedBeside window (reconcileChannelWindowMessages window messages))
          (flattenChannelWindowEvents window)).2 =
        (reconcileWindowEvents (retainedBeside window messages)
          (flattenChannelWindowEvents window)).2 := by
  obtain ⟨hleft, hshown⟩ := retainedBeside_projection window messages
  obtain ⟨hleftTwice, hshownTwice⟩ := retainedBeside_projection window
    (reconcileChannelWindowMessages window messages)
  constructor
  · intro heq
    rw [← hleftTwice, ← hshownTwice, ← hshown, heq]
    exact ⟨rfl, rfl⟩
  · rintro ⟨hrows, hevents⟩
    have hmerge : ∀ rows, reconcileChannelWindowMessages window rows =
        mergeSorted (sortChronological (reconcileWindowEvents (retainedBeside window rows)
          (flattenChannelWindowEvents window)).1) (reconcileWindowEvents
            (retainedBeside window rows) (flattenChannelWindowEvents window)).2 := fun _ => rfl
    rw [hmerge (reconcileChannelWindowMessages window messages), hrows, hevents, hleft]
    exact (hmerge messages).symm

theorem nodup_sortChronological (h : (events.map RelayEvent.id).Nodup) :
    ((sortChronological events).map RelayEvent.id).Nodup :=
  ((sortEvents_perm _ events).map RelayEvent.id).nodup_iff.mpr h

theorem outOfKeys_eq_self (h : ∀ row ∈ cacheOnly, row.renderKey ∉ events.map RelayEvent.renderKey) :
    outOfKeys cacheOnly events = cacheOnly :=
  List.filter_eq_self.mpr fun row hrow => decide_eq_true (h row hrow)

/-- Nothing happens in a second loop where no row that is left matches an event. -/
theorem loop_settled (hnodup : (cacheOnly.map RelayEvent.id).Nodup)
    (hapart : Apart cacheOnly events)
    (hkeys : ∀ row ∈ cacheOnly, row.renderKey ∉ events.map RelayEvent.renderKey)
    (hmatch : ∀ event ∈ events, ∀ row ∈ cacheOnly, isMatchingPendingMessage row event = false) :
    reconcileWindowEvents cacheOnly events = (cacheOnly, events) := by
  have hkeeps : KeepsKeys cacheOnly events := by
    intro before event after heq pending hfind
    have hmem := (mem_outOfKeys.mp (List.mem_of_find?_eq_some hfind)).1
    have hevent : event ∈ events := heq ▸ List.mem_append_right _ List.mem_cons_self
    have hfalse := hmatch event hevent pending hmem
    have htrue := List.find?_some hfind
    rw [hfalse] at htrue
    cases htrue
  rw [loop_of_keepsKeys events hnodup hapart hkeeps, outOfKeys_eq_self hkeys]

/-- A second loop that shows the events of the first and leaves its rows has nothing to do. -/
theorem settled_of_loop {rows shown : List RelayEvent} (hnodup : (rows.map RelayEvent.id).Nodup)
    (hapart : Apart rows events) (hevents : (events.map RelayEvent.id).Nodup)
    (hfree : ∀ row ∈ rows, ∀ event ∈ shown, row.renderKey ≠ event.renderKey)
    (hlength : (reconcileWindowEvents rows events).1.length = rows.length)
    (hshown : (reconcileWindowEvents rows events).2 = shown) :
    shown = events ∧
      ∀ event ∈ events, ∀ row ∈ rows, isMatchingPendingMessage row event = false := by
  have hself : shown = events := by
    rw [← hshown]
    apply eq_of_map_id hevents (reconcileWindowEvents_ids events rows)
    intro event hevent
    obtain ⟨found, hfound, rfl | ⟨replaced, hreplaced, -, rfl⟩⟩ :=
      reconcileWindowEvents_authoritative events event hevent
    · exact hfound
    · rw [hshown] at hevent
      exact (hfree replaced hreplaced _ hevent rfl).elim
  subst hself
  refine ⟨rfl, ?_⟩
  have hkeys : ∀ row ∈ rows, row.renderKey ∉ shown.map RelayEvent.renderKey := by
    intro row hrow hmem
    obtain ⟨event, hevent, heq⟩ := List.mem_map.mp hmem
    exact hfree row hrow event hevent heq.symm
  have hkeeps := keepsKeys_of_loop shown hnodup hapart hshown
  intro event hevent row hrow
  by_contra hmatch
  obtain ⟨before, after, hsplit⟩ := List.append_of_mem hevent
  have hin : row ∈ outOfKeys rows before := by
    refine mem_outOfKeys.mpr ⟨hrow, fun hmem => hkeys row hrow ?_⟩
    rw [hsplit, List.map_append]
    exact List.mem_append_left _ hmem
  cases hfind : (outOfKeys rows before).find? fun row => isMatchingPendingMessage row event with
  | none => exact hmatch (Bool.eq_false_of_not_eq_true (List.find?_eq_none.mp hfind row hin))
  | some pending =>
      have hkey := hkeeps before event after hsplit pending hfind
      have hpending := (mem_outOfKeys.mp (List.mem_of_find?_eq_some hfind)).1
      refine hfree pending hpending event hevent ?_
      rw [RelayEvent.renderKey, RelayEvent.renderKey, hkey]
      rfl

theorem project_twice_of_settled (h : KeysSettled window messages) :
    reconcileChannelWindowMessages window (reconcileChannelWindowMessages window messages) =
      reconcileChannelWindowMessages window messages := by
  rw [project_twice_iff]
  have hleft := (retainedBeside_projection window messages).1
  by_cases hflat : flattenChannelWindowEvents window = []
  · rw [hleft, hflat]
    exact ⟨sortChronological_of_pairwise (sortChronological_pairwise _), rfl⟩
  · have hnodup := dedupe_ids_nodup (retainedBeside window messages)
    have hloop := loop_of_keepsKeys _ hnodup (apart_of_dedupe_retained window messages) h.keys
    rw [reconcileWindowEvents_dedupe (Or.inl hflat)] at hloop
    have hrows : ∀ row ∈ retainedBeside window (reconcileChannelWindowMessages window messages),
        row ∈ dedupeMessagesById (retainedBeside window messages) ∧
          row.renderKey ∉ (flattenChannelWindowEvents window).map RelayEvent.renderKey := by
      intro row hrow
      rw [hleft, hloop] at hrow
      exact mem_outOfKeys.mp (mem_sortEvents.mp hrow)
    have hsettled : reconcileWindowEvents
        (retainedBeside window (reconcileChannelWindowMessages window messages))
        (flattenChannelWindowEvents window) =
          (retainedBeside window (reconcileChannelWindowMessages window messages),
            flattenChannelWindowEvents window) := by
      apply loop_settled
      · rw [hleft, hloop]
        exact nodup_sortChronological (hnodup.sublist (List.filter_sublist.map RelayEvent.id))
      · exact apart_of_retained window _
      · exact fun row hrow => (hrows row hrow).2
      · intro event hevent row hrow
        by_contra hmatch
        obtain ⟨other, hother, hkey⟩ := h.waiting event hevent row (hrows row hrow).1
          (Bool.eq_true_of_not_eq_false hmatch)
        exact (hrows row hrow).2 (List.mem_map.mpr ⟨other, hother, hkey⟩)
    rw [hsettled, hloop]
    refine ⟨?_, rfl⟩
    rw [hleft]
    exact sortChronological_of_pairwise (sortChronological_pairwise _)

theorem settled_of_project_twice
    (h : reconcileChannelWindowMessages window (reconcileChannelWindowMessages window messages) =
      reconcileChannelWindowMessages window messages) : KeysSettled window messages := by
  by_cases hflat : flattenChannelWindowEvents window = []
  · refine ⟨?_, by simp [hflat]⟩
    rw [hflat]
    intro before event after heq
    simp at heq
  · obtain ⟨hrows, hshown⟩ := (project_twice_iff window messages).mp h
    have hleft := (retainedBeside_projection window messages).1
    have hnodup := dedupe_ids_nodup (retainedBeside window messages)
    have hapart := apart_of_dedupe_retained window messages
    have hdrop := @reconcileWindowEvents_dedupe (retainedBeside window messages) _ (Or.inl hflat)
    rw [← hdrop] at hleft hshown
    have hlength : (reconcileWindowEvents
        (retainedBeside window (reconcileChannelWindowMessages window messages))
        (flattenChannelWindowEvents window)).1.length =
          (retainedBeside window (reconcileChannelWindowMessages window messages)).length := by
      conv_rhs => rw [← hrows]
      exact (sortEvents_perm _ _).length_eq.symm
    have hids : ((retainedBeside window
        (reconcileChannelWindowMessages window messages)).map RelayEvent.id).Nodup := by
      rw [hleft]
      exact nodup_sortChronological
        (hnodup.sublist ((reconcileWindowEvents_left _ hnodup).map RelayEvent.id))
    obtain ⟨hself, hmatch⟩ := settled_of_loop hids (apart_of_retained window _)
      (flatten_ids_nodup window) (fun row hrow event hevent => by
        rw [hleft] at hrow
        exact key_of_left _ hnodup (mem_sortEvents.mp hrow) event hevent) hlength hshown
    have hkeeps := keepsKeys_of_loop _ hnodup hapart hself
    refine ⟨hkeeps, ?_⟩
    intro event hevent row hrow hwaits
    by_contra hnone
    have hstays : row ∈ outOfKeys (dedupeMessagesById (retainedBeside window messages))
        (flattenChannelWindowEvents window) := by
      refine mem_outOfKeys.mpr ⟨hrow, fun hmem => hnone ?_⟩
      obtain ⟨other, hother, hkey⟩ := List.mem_map.mp hmem
      exact ⟨other, hother, hkey⟩
    have hagain : row ∈ retainedBeside window
        (reconcileChannelWindowMessages window messages) := by
      rw [hleft, loop_of_keepsKeys _ hnodup hapart hkeeps]
      exact mem_sortEvents.mpr hstays
    rw [hmatch event hevent row hagain] at hwaits
    cases hwaits

theorem project_twice_same_iff (window : ChannelWindowStore) (messages : List RelayEvent) :
    reconcileChannelWindowMessages window (reconcileChannelWindowMessages window messages) =
        reconcileChannelWindowMessages window messages ↔ KeysSettled window messages :=
  ⟨settled_of_project_twice, project_twice_of_settled⟩

/-- The key that an acknowledged event took over is gone in the second projection. -/
theorem taken_key_lost_twice :
    let acknowledged := { pendingRow "m" "hello" with pending := false }
    reconcileChannelWindowMessages (liveWindow acknowledged)
        (reconcileChannelWindowMessages (liveWindow acknowledged) [pendingRow "p" "hello"]) ≠
      reconcileChannelWindowMessages (liveWindow acknowledged) [pendingRow "p" "hello"] := by
  intro acknowledged heq
  have hkeys := congrArg (List.map RelayEvent.renderKey) heq
  revert hkeys
  decide +kernel

end Twice

end Buzz.Messages
