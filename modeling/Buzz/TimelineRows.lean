import Buzz.CacheRows

/-!
# The rows of the window and of the timeline

The window takes a live row for another only by its names, the timeline is projected from it and may
show a delivered row under the key of a settled send. Both stay in order under the steps of a send.
-/

namespace Buzz.Messages

section Window

variable {window : ChannelWindowStore} {event : RelayEvent}

/-- The rows of the pages. -/
def ChannelWindowStore.pageRows (window : ChannelWindowStore) : List RelayEvent :=
  window.pages.flatMap fun page => page.rows.map fun row => row.event

/-- A window as native history fills it: without auxiliary events, and with no pending row on a
page. -/
structure PlainWindow (window : ChannelWindowStore) : Prop where
  liveAux : window.liveAux = []
  pageAux : ∀ page ∈ window.pages, page.aux = []
  settled : ∀ row ∈ window.pageRows, row.pending = false

theorem PlainWindow.held_eq (h : PlainWindow window) :
    window.held = window.pageRows ++ window.liveOverlay := by
  have hpages : window.pages.flatMap (fun page =>
    page.rows.map (fun row => row.event) ++ page.aux) =
      window.pageRows := by
    apply List.flatMap_congr
    intro page hpage
    rw [h.pageAux page hpage, List.append_nil]
  rw [ChannelWindowStore.held, hpages, h.liveAux, List.append_nil]

theorem PlainWindow.overlay (h : PlainWindow window) (overlay : List RelayEvent) :
    PlainWindow { window with liveOverlay := overlay } :=
  ⟨h.liveAux, h.pageAux, h.settled⟩

theorem PlainWindow.mergeLive (h : PlainWindow window) (hadmits : window.admits event = true) :
    PlainWindow (mergeLiveChannelWindowEvent window event true) := by
  rw [mergeLive_of_admits hadmits]
  exact h.overlay _

theorem pageRows_apart (hadmits : window.admits event = true) :
    ∀ row ∈ window.pageRows, row.id ≠ event.id ∧ row.renderKey ≠ event.renderKey := by
  have hpage : hasPageRow window event = false := by
    simp only [ChannelWindowStore.admits, Bool.and_eq_true, Bool.not_eq_true'] at hadmits
    exact hadmits.1
  intro row hrow
  obtain ⟨page, hmem, hrow⟩ := List.mem_flatMap.mp hrow
  obtain ⟨found, hfound, rfl⟩ := List.mem_map.mp hrow
  obtain ⟨hid, hkey⟩ := hasPageRow_eq_false hpage page hmem found hfound
  exact ⟨hid.symm, hkey.symm⟩

/-- A live event that the window takes replaces the rows of its identity. -/
theorem PlainWindow.held_mergeLive (h : PlainWindow window) (hadmits : window.admits event = true) :
    (mergeLiveChannelWindowEvent window event true).held.Perm
      (CacheRows.put window.held event) := by
  rw [(h.mergeLive hadmits).held_eq, h.held_eq, mergeLive_of_admits hadmits]
  have hpages : withoutReplaced window.pageRows event = window.pageRows := by
    apply List.filter_eq_self.mpr
    intro row hrow
    obtain ⟨hid, hkey⟩ := pageRows_apart hadmits row hrow
    simp [hid, hkey]
  have hsplit : withoutReplaced (window.pageRows ++ window.liveOverlay) event =
      window.pageRows ++ withoutReplaced window.liveOverlay event := by
    have happend := List.filter_append (p := fun message : RelayEvent =>
      message.id != event.id && message.renderKey != event.renderKey) window.pageRows
      window.liveOverlay
    exact happend.trans (congrArg (· ++ _) hpages)
  rw [CacheRows.put, hsplit, List.append_assoc]
  exact (sortEvents_perm _ _).append_left _

theorem PlainWindow.mem_acknowledged (h : PlainWindow window) (hadmits : window.admits event = true)
    (optimisticId : String) :
    event ∈ (acknowledgeOptimisticChannelWindowMessage window event optimisticId).held := by
  have hperm := (h.overlay (window.liveOverlay.filter fun row =>
    row.id != optimisticId)).held_mergeLive
    hadmits
  exact hperm.mem_iff.mpr (CacheRows.mem_put.mpr (Or.inr rfl))

theorem PlainWindow.held_filter (h : PlainWindow window) {keep : RelayEvent → Bool}
    (hpages : ∀ row ∈ window.pageRows, keep row = true) :
    ({ window with liveOverlay := window.liveOverlay.filter keep } : ChannelWindowStore).held =
      window.held.filter keep := by
  rw [(h.overlay _).held_eq, h.held_eq, List.filter_append]
  exact congrArg (· ++ _) (List.filter_eq_self.mpr hpages).symm

theorem pageRows_removeOptimistic (window : ChannelWindowStore) (optimisticId : String) :
    (removeOptimisticFromWindow window optimisticId).pageRows =
      window.pageRows.filter fun event => !eventIsOptimistic event optimisticId := by
  unfold ChannelWindowStore.pageRows removeOptimisticFromWindow
  rw [List.flatMap_map, List.filter_flatMap]
  apply List.flatMap_congr
  intro page _
  rw [ChannelWindowPage.withoutOptimistic, List.filter_map]
  rfl

theorem PlainWindow.removeOptimistic (h : PlainWindow window) (optimisticId : String) :
    PlainWindow (removeOptimisticFromWindow window optimisticId) where
  liveAux := by
    change window.liveAux.filter _ = []
    rw [h.liveAux]
    rfl
  pageAux := by
    intro page hpage
    obtain ⟨old, hold, rfl⟩ := List.mem_map.mp hpage
    change old.aux.filter _ = []
    rw [h.pageAux old hold]
    rfl
  settled := by
    intro row hrow
    rw [pageRows_removeOptimistic] at hrow
    exact h.settled row (List.mem_filter.mp hrow).1

theorem PlainWindow.held_removeOptimistic (h : PlainWindow window) (optimisticId : String) :
    (removeOptimisticFromWindow window optimisticId).held =
      window.held.filter fun event => !eventIsOptimistic event optimisticId := by
  rw [(h.removeOptimistic optimisticId).held_eq, h.held_eq, List.filter_append,
    pageRows_removeOptimistic]
  rfl

end Window

section Timeline

variable {ι : Type} {R : Roster ι} {pending : ι → Option RelayEvent}
  {shown echoed acked : Set ι} {window : ChannelWindowStore} {messages : List RelayEvent}
  {i j : ι} {row : RelayEvent}

theorem Roster.sent_injective (R : Roster ι) : R.sentId.Injective := by
  intro i j heq
  rcases R.sent_cases i with hi | hi
  · rcases R.sent_cases j with hj | hj
    · exact R.msg_injective (hi.symm.trans (heq.trans hj))
    · exact absurd (hj.symm.trans (heq.symm.trans hi)) (R.client_ne_msg j i)
  · rcases R.sent_cases j with hj | hj
    · exact absurd (hi.symm.trans (heq.trans hj)) (R.client_ne_msg i j)
    · exact R.client_injective (hi.symm.trans (heq.trans hj))

theorem Roster.sent_ne_optimistic (R : Roster ι) (i j : ι) : R.sentId i ≠ R.optimisticId j := by
  rcases R.sent_cases i with hi | hi
  · rw [hi]
    exact (R.optimistic_ne_msg j i).symm
  · rw [hi]
    exact (R.optimistic_ne_client j i).symm

/-- A delivered row of the timeline. A projection may show it under the key of any acknowledged
send, a live copy under the key of its own. -/
structure IsShown (R : Roster ι) (echoed acked : Set ι) (i : ι) (row : RelayEvent) : Prop where
  id : row.id = R.sentId i
  key : row.renderKey = R.clientId i ∨
    ∃ k, row.renderKey = R.optimisticId k ∧ (k ∈ acked ∨ (k = i ∧ i ∈ echoed))
  pending : row.pending = false

theorem IsShown.mono {echoed' acked' : Set ι} (h : IsShown R echoed acked i row)
    (hechoed : echoed ⊆ echoed') (hacked : acked ⊆ acked') : IsShown R echoed' acked' i row :=
  ⟨h.id, h.key.imp_right fun ⟨k, hkey, hk⟩ =>
    ⟨k, hkey, hk.imp (fun h => hacked h) fun ⟨heq, h⟩ => ⟨heq, hechoed h⟩⟩, h.pending⟩

/-- A timeline in order: every row belongs to a message, and the acknowledged ones are shown. -/
structure Timeline (R : Roster ι) (pending : ι → Option RelayEvent) (echoed acked : Set ι)
    (messages : List RelayEvent) : Prop where
  ids : (messages.map RelayEvent.id).Nodup
  known : ∀ row ∈ messages, (∃ i, pending i = some row) ∨ ∃ i, IsShown R echoed acked i row
  shown : ∀ i ∈ acked, ∃ row ∈ messages, row.id = R.sentId i

/-- A window in order: the rows of all open sends are in it, and the delivered ones are under their
own names. -/
structure WindowRows (R : Roster ι) (pending : ι → Option RelayEvent) (shown : Set ι)
    (window : ChannelWindowStore) : Prop where
  plain : PlainWindow window
  rows : CacheRows R pending shown window.held
  opened : ∀ i row, pending i = some row → row ∈ window.held
  sent : ∀ row ∈ window.held, ∀ i, R.IsCopy i row →
    row.id = R.sentId i ∧ row.renderKey = R.clientId i

/-- A row of the window is that of an open send, or a copy under its own names. -/
theorem WindowRows.cases (h : WindowRows R pending shown window) (hrow : row ∈ window.held) :
    (∃ i, pending i = some row) ∨ ∃ i ∈ shown, R.IsCopy i row ∧ row.id = R.sentId i ∧
      row.renderKey = R.clientId i := by
  rcases h.rows.known row hrow with hopen | ⟨i, hi, hcopy⟩
  · exact Or.inl hopen
  · exact Or.inr ⟨i, hi, hcopy, h.sent row hrow i hcopy⟩

section WindowSteps

variable {event : RelayEvent}

theorem WindowRows.insert [DecidableEq ι] (h : WindowRows R pending shown window)
    (hopen : PendingRows R pending) (hevent : R.IsOptimistic i event) (hidle : pending i = none)
    (hnew : i ∉ shown) (hadmits : window.admits event = true) :
    WindowRows R (Function.update pending i (some event)) shown
      (mergeLiveChannelWindowEvent window event true) := by
  have hperm := h.plain.held_mergeLive hadmits
  constructor
  · exact h.plain.mergeLive hadmits
  · exact (h.rows.put_optimistic hopen hevent hidle hnew).perm hperm
  · intro j row hj
    rw [hperm.mem_iff, CacheRows.mem_put]
    by_cases hne : j = i
    · subst hne
      rw [Function.update_self] at hj
      cases hj
      exact Or.inr rfl
    · rw [Function.update_of_ne hne] at hj
      have hrow := hopen j row hj
      refine Or.inl ⟨h.opened j row hj, ?_, ?_⟩
      · rw [hrow.id, hevent.id]
        exact fun heq => hne (R.optimistic_injective heq)
      · rw [hrow.renderKey, hevent.renderKey]
        exact fun heq => hne (R.optimistic_injective heq)
  · intro row hrow j hcopy
    rcases CacheRows.mem_put.mp (hperm.mem_iff.mp hrow) with ⟨hold, -⟩ | rfl
    · exact h.sent row hold j hcopy
    · exact absurd (hcopy.pending.symm.trans hevent.pending) (by decide)

theorem WindowRows.deliver (h : WindowRows R pending shown window) (hopen : PendingRows R pending)
    (hcopy : R.IsCopy i event) (hid : event.id = R.sentId i) (hkey : event.renderKey = R.clientId i)
    (hadmits : window.admits event = true) :
    WindowRows R pending (Insert.insert i shown)
      (mergeLiveChannelWindowEvent window event true) := by
  have hperm := h.plain.held_mergeLive hadmits
  constructor
  · exact h.plain.mergeLive hadmits
  · refine (h.rows.put_copy hopen hcopy ?_).perm hperm
    intro row hrow hcopies
    exact Or.inl ((h.sent row hrow i hcopies).1.trans hid.symm)
  · intro j row hj
    have hrow := hopen j row hj
    rw [hperm.mem_iff, CacheRows.mem_put]
    refine Or.inl ⟨h.opened j row hj, ?_, ?_⟩
    · rw [hrow.id]
      exact (hcopy.id_ne_optimistic j).symm
    · rw [hrow.renderKey, hkey]
      exact R.optimistic_ne_client j i
  · intro row hrow j hcopies
    rcases CacheRows.mem_put.mp (hperm.mem_iff.mp hrow) with ⟨hold, -⟩ | rfl
    · exact h.sent row hold j hcopies
    · obtain rfl := hcopy.unique hcopies
      exact ⟨hid, hkey⟩

/-- A window that loses exactly the optimistic row of a send. -/
theorem WindowRows.close [DecidableEq ι] (h : WindowRows R pending shown window)
    (hopen : PendingRows R pending) {next : ChannelWindowStore} {keep : RelayEvent → Bool}
    (hplain : PlainWindow next) (hheld : next.held = window.held.filter keep)
    (hkeep : ∀ row ∈ window.held, keep row = false ↔ row.id = R.optimisticId i) :
    WindowRows R (Function.update pending i none) shown next := by
  constructor
  · exact hplain
  · rw [hheld]
    exact h.rows.close hopen hkeep
  · intro j row hj
    by_cases hne : j = i
    · subst hne
      rw [Function.update_self] at hj
      cases hj
    · rw [Function.update_of_ne hne] at hj
      have hmem := h.opened j row hj
      rw [hheld, List.mem_filter]
      refine ⟨hmem, ?_⟩
      by_contra hdropped
      have hid := (hkeep row hmem).mp (Bool.eq_false_of_not_eq_true hdropped)
      exact hne (R.optimistic_injective ((hopen j row hj).id.symm.trans hid))
  · intro row hrow
    rw [hheld] at hrow
    exact h.sent row (List.mem_filter.mp hrow).1

/-- In the window only the optimistic row goes by the optimistic id. -/
theorem WindowRows.isOptimistic_iff (h : WindowRows R pending shown window)
    (hopen : PendingRows R pending) (i : ι) :
    ∀ row ∈ window.held, (!eventIsOptimistic row (R.optimisticId i)) = false ↔
      row.id = R.optimisticId i := by
  refine fun row hrow => hopen.isOptimistic_iff fun hkey => ?_
  rcases h.cases hrow with hopened | ⟨j, -, -, -, hown⟩
  · exact hopened
  · exact absurd (hkey.symm.trans hown) (R.optimistic_ne_client i j)

theorem WindowRows.rollback [DecidableEq ι] (h : WindowRows R pending shown window)
    (hopen : PendingRows R pending) (i : ι) :
    WindowRows R (Function.update pending i none) shown
      (removeOptimisticFromWindow window (R.optimisticId i)) :=
  h.close hopen (h.plain.removeOptimistic _) (h.plain.held_removeOptimistic _)
    (h.isOptimistic_iff hopen i)

theorem WindowRows.acknowledge [DecidableEq ι] (h : WindowRows R pending shown window)
    (hopen : PendingRows R pending) (hsent : R.IsSent i event)
    (hadmits : window.admits event = true) :
    WindowRows R (Function.update pending i none) (Insert.insert i shown)
      (acknowledgeOptimisticChannelWindowMessage window event (R.optimisticId i)) := by
  have hheld : ({ window with
      liveOverlay := window.liveOverlay.filter fun row => row.id != R.optimisticId i } :
        ChannelWindowStore).held = window.held.filter fun row => row.id != R.optimisticId i := by
    apply h.plain.held_filter
    intro row hrow
    have hmem : row ∈ window.held := by
      rw [h.plain.held_eq]
      exact List.mem_append_left _ hrow
    rcases h.cases hmem with ⟨j, hj⟩ | ⟨j, -, hcopy, -⟩
    · exact absurd ((h.plain.settled row hrow).symm.trans (hopen j row hj).pending) (by decide)
    · simpa using hcopy.id_ne_optimistic i
  have hclosed := h.close hopen (i := i) (h.plain.overlay _) hheld fun row _ => by simp
  exact hclosed.deliver (hopen.close i) hsent.isCopy hsent.id hsent.renderKey hadmits

end WindowSteps

theorem retainedBeside_sublist (window : ChannelWindowStore) (messages : List RelayEvent) :
    (retainedBeside window messages).Sublist messages :=
  List.filter_sublist.trans List.filter_sublist

theorem retainedBeside_apart (hrow : row ∈ retainedBeside window messages) :
    row.id ∉ window.held.map RelayEvent.id := by
  have h := (List.mem_filter.mp hrow).2
  rw [decide_eq_true_eq, mem_flatten_ids] at h
  exact h

/-- What the projection makes of a timeline whose rows are known, but for the rows of settled sends
that the window now holds a match of. -/
theorem WindowRows.project (h : WindowRows R pending shown window) (hopen : PendingRows R pending)
    (hacked : acked ⊆ shown) (hids : (messages.map RelayEvent.id).Nodup)
    (settled : RelayEvent → Prop)
    (hknown : ∀ row ∈ messages, (∃ i, pending i = some row) ∨ (∃ i, IsShown R echoed acked i row) ∨
      settled row)
    (hsettled : ∀ row, settled row → ∃ k ∈ acked, R.IsOptimistic k row ∧
      ∃ event ∈ window.held, isMatchingPendingMessage row event = true)
    (hone : ∀ row other, settled row → settled other → row.id = other.id) :
    Timeline R pending echoed acked (reconcileChannelWindowMessages window messages) := by
  have hretained := retainedBeside_sublist window messages
  have hnodup : ((retainedBeside window messages).map RelayEvent.id).Nodup :=
    hids.sublist (hretained.map RelayEvent.id)
  have hleft := reconcileWindowEvents_left (flattenChannelWindowEvents window) hnodup
  have hflatten := flatten_perm_held h.rows.ids
  have hperm := reconcileChannelWindow_perm window messages
  -- a pending row beside the window can only be that of a settled send
  have hbeside : ∀ row ∈ retainedBeside window messages,
      (∃ i, IsShown R echoed acked i row) ∨ settled row := by
    intro row hrow
    rcases hknown row (hretained.subset hrow) with ⟨i, hi⟩ | hshown | hdone
    · exact absurd (List.mem_map_of_mem (h.opened i row hi)) (retainedBeside_apart hrow)
    · exact Or.inl hshown
    · exact Or.inr hdone
  have hdone : ∀ row ∈ retainedBeside window messages, row.pending = true → settled row := by
    intro row hrow hpending
    rcases hbeside row hrow with ⟨i, hi⟩ | hdone
    · exact absurd (hi.pending.symm.trans hpending) (by decide)
    · exact hdone
  constructor
  · rw [(hperm.map RelayEvent.id).nodup_iff, List.map_append, List.nodup_append,
      reconcileWindowEvents_ids]
    refine ⟨hnodup.sublist (hleft.map RelayEvent.id), flatten_ids_nodup window, ?_⟩
    rintro id hid other hother rfl
    obtain ⟨row, hrow, rfl⟩ := List.mem_map.mp hid
    exact retainedBeside_apart (hleft.subset hrow) (mem_flatten_ids.mp hother)
  · intro row hrow
    rcases List.mem_append.mp (hperm.mem_iff.mp hrow) with hrow | hrow
    · have hmem := hleft.subset hrow
      rcases hbeside row hmem with hshown | hrowDone
      · exact Or.inr hshown
      · obtain ⟨k, -, hoptimistic, event, hevent, hmatch⟩ := hsettled row hrowDone
        have hunmatched := reconcileWindowEvents_unmatched hoptimistic.pending
          (flattenChannelWindowEvents window) hnodup
          (fun other hother hpending => hone other row (hdone other hother hpending) hrowDone) hrow
          event (hflatten.mem_iff.mpr hevent)
        exact absurd (hmatch.symm.trans hunmatched) (by decide)
    · obtain ⟨event, hevent, hcases⟩ :=
        reconcileWindowEvents_authoritative (flattenChannelWindowEvents window) row hrow
      rcases h.cases (hflatten.mem_iff.mp hevent) with ⟨i, hi⟩ | ⟨i, -, hcopy, hid, hkey⟩
      · rcases hcases with rfl | ⟨replaced, -, hmatch, -⟩
        · exact Or.inl ⟨i, hi⟩
        · simp [isMatchingPendingMessage, (hopen i event hi).pending] at hmatch
      · rcases hcases with rfl | ⟨replaced, hreplaced, hmatch, rfl⟩
        · exact Or.inr ⟨i, hid, Or.inl hkey, hcopy.pending⟩
        · obtain ⟨k, hk, hoptimistic, -⟩ :=
            hsettled replaced (hdone replaced hreplaced (pending_of_match hmatch))
          exact Or.inr ⟨i, hid, Or.inr ⟨k, hoptimistic.renderKey, Or.inl hk⟩, hcopy.pending⟩
  · intro i hi
    obtain ⟨row, hrow, hcopy, -⟩ := h.rows.once i (hacked hi)
    have hprojected : ∃ found ∈ reconcileChannelWindowMessages window messages, found.id = row.id :=
      held_mem_projection hrow
    obtain ⟨found, hfound, heq⟩ := hprojected
    exact ⟨found, hfound, heq.trans (h.sent row hrow i hcopy).1⟩

section TimelineSteps

variable {event : RelayEvent}

/-- A live copy that is taken for no pending row but that of its own send. -/
theorem Timeline.merge (h : Timeline R pending echoed acked messages)
    (hopen : PendingRows R pending) (hunacked : ∀ i row, pending i = some row → i ∉ acked)
    (hstored : R.IsStored i event) (hsent : R.sentId i = R.msgId i)
    (hmatch : ∀ row ∈ messages, isMatchingPendingMessage row event = true →
      row.id = R.optimisticId i) :
    Timeline R pending (Insert.insert i echoed) acked (mergeMessages messages event) := by
  have hperm := CacheRows.mergeMessages_perm h.ids event
  have hmono : ∀ {j row}, IsShown R echoed acked j row →
      IsShown R (Insert.insert i echoed) acked j row :=
    fun hshown => hshown.mono (Set.subset_insert i echoed) (fun _ h => h)
  have hid : (takeOverKey messages event).id = R.sentId i :=
    takeOverKey_id.trans (hstored.id.trans hsent.symm)
  have hkey : (takeOverKey messages event).renderKey = R.clientId i ∨
      ((takeOverKey messages event).renderKey = R.optimisticId i ∧
        ∃ row, pending i = some row) := by
    obtain ⟨heq, -⟩ | ⟨replaced, hmem, hmatched, heq⟩ := takeOverKey_cases messages event
    · rw [heq]
      exact Or.inl hstored.renderKey
    · have hreplaced := hmatch replaced hmem hmatched
      rcases h.known replaced hmem with ⟨j, hj⟩ | ⟨j, hj⟩
      · obtain rfl : j = i := R.optimistic_injective ((hopen j replaced hj).id.symm.trans hreplaced)
        rw [heq]
        exact Or.inr ⟨(hopen j replaced hj).renderKey, replaced, hj⟩
      · exact absurd (hj.pending.symm.trans (pending_of_match hmatched)) (by decide)
  have htaken : IsShown R (Insert.insert i echoed) acked i (takeOverKey messages event) := by
    refine ⟨hid, hkey.imp_right ?_, takeOverKey_pending.trans hstored.pending⟩
    exact fun ⟨hown, _⟩ => ⟨i, hown, Or.inr ⟨rfl, Set.mem_insert i echoed⟩⟩
  constructor
  · exact mergeMessages_ids_nodup messages event
  · intro row hrow
    rcases CacheRows.mem_put.mp (hperm.mem_iff.mp hrow) with ⟨hold, -⟩ | rfl
    · exact (h.known row hold).imp_right fun ⟨j, hj⟩ => ⟨j, hmono hj⟩
    · exact Or.inr ⟨i, htaken⟩
  · intro j hj
    by_cases hne : j = i
    · subst hne
      exact ⟨_, hperm.mem_iff.mpr (CacheRows.mem_put.mpr (Or.inr rfl)), hid⟩
    · obtain ⟨row, hrow, hrowId⟩ := h.shown j hj
      refine ⟨row, hperm.mem_iff.mpr (CacheRows.mem_put.mpr (Or.inl ⟨hrow, ?_, ?_⟩)), hrowId⟩
      · rw [hrowId, hid]
        exact fun heq => hne (R.sent_injective heq)
      · intro heq
        rcases h.known row hrow with ⟨k, hk⟩ | ⟨k, hk⟩
        · exact R.sent_ne_optimistic j k (hrowId.symm.trans (hopen k row hk).id)
        · obtain rfl : k = j := R.sent_injective (hk.id.symm.trans hrowId)
          rcases hk.key with hown | ⟨l, hown, hl⟩
          · rcases hkey with hclient | ⟨hoptimistic, -⟩
            · exact hne (R.client_injective (hown.symm.trans (heq.trans hclient)))
            · exact R.optimistic_ne_client i k (hoptimistic.symm.trans (heq.symm.trans hown))
          · rcases hkey with hclient | ⟨hoptimistic, found, hfound⟩
            · exact R.optimistic_ne_client l i (hown.symm.trans (heq.trans hclient))
            · obtain rfl : l = i :=
                R.optimistic_injective (hown.symm.trans (heq.trans hoptimistic))
              rcases hl with hl | ⟨hl, -⟩
              · exact hunacked l found hfound hl
              · exact hne hl.symm

/-- In a timeline only the optimistic row of a send that no copy came in for goes by its optimistic
id. -/
theorem Timeline.isOptimistic_iff (h : Timeline R pending echoed acked messages)
    (hopen : PendingRows R pending) (hunacked : i ∉ acked) (hunechoed : i ∉ echoed) :
    ∀ row ∈ messages, (!eventIsOptimistic row (R.optimisticId i)) = false ↔
      row.id = R.optimisticId i := by
  refine fun row hrow => hopen.isOptimistic_iff fun hkey => ?_
  rcases h.known row hrow with hopened | ⟨j, hj⟩
  · exact hopened
  · exfalso
    rcases hj.key with hown | ⟨k, hown, hk⟩
    · exact R.optimistic_ne_client i j (hkey.symm.trans hown)
    · obtain rfl : k = i := R.optimistic_injective (hown.symm.trans hkey)
      rcases hk with hk | ⟨rfl, hk⟩
      · exact hunacked hk
      · exact hunechoed hk

theorem Timeline.rollback [DecidableEq ι] (h : Timeline R pending echoed acked messages)
    (hopen : PendingRows R pending) (hunacked : i ∉ acked) (hunechoed : i ∉ echoed) :
    Timeline R (Function.update pending i none) echoed acked
      (messages.filter fun row => !eventIsOptimistic row (R.optimisticId i)) := by
  have hdropped := h.isOptimistic_iff hopen hunacked hunechoed
  constructor
  · exact nodup_map_filter _ h.ids
  · intro row hrow
    obtain ⟨hold, hkept⟩ := List.mem_filter.mp hrow
    rcases h.known row hold with ⟨j, hj⟩ | hshown
    · refine Or.inl ⟨j, ?_⟩
      have hne : j ≠ i := by
        rintro rfl
        rw [(hdropped row hold).mpr (hopen j row hj).id] at hkept
        cases hkept
      rw [Function.update_of_ne hne]
      exact hj
    · exact Or.inr hshown
  · intro j hj
    obtain ⟨row, hrow, hid⟩ := h.shown j hj
    refine ⟨row, List.mem_filter.mpr ⟨hrow, ?_⟩, hid⟩
    by_contra hgone
    have hoptimistic := (hdropped row hrow).mp (Bool.eq_false_of_not_eq_true hgone)
    exact R.sent_ne_optimistic j i (hid.symm.trans hoptimistic)

end TimelineSteps

end Timeline

end Buzz.Messages
