import Buzz.MessageCaches

/-!
# The rows of a message

A message goes by up to four names: the optimistic id of the row that is shown before it is sent,
the client id of its payload, the id that the daemon gives it, and the id of the row that the
acknowledgement puts into the caches. A list of rows is in order when every row belongs to a
message, the pending ones are in it and each delivered message is in it once. The updates of the
caches are checked against that one at a time.
-/

namespace Buzz.Messages

/-- The names of the messages of a channel. In a group the acknowledged row has the id of the
daemon, in a direct conversation the client id. -/
structure Roster (ι : Type) where
  optimisticId : ι → String
  clientId : ι → String
  msgId : ι → String
  sentId : ι → String
  optimistic_injective : optimisticId.Injective
  client_injective : clientId.Injective
  msg_injective : msgId.Injective
  optimistic_ne_client : ∀ i j, optimisticId i ≠ clientId j
  optimistic_ne_msg : ∀ i j, optimisticId i ≠ msgId j
  client_ne_msg : ∀ i j, clientId i ≠ msgId j
  sent_cases : ∀ i, sentId i = msgId i ∨ sentId i = clientId i

namespace Roster

variable {ι : Type} (R : Roster ι)

structure IsOptimistic (i : ι) (row : RelayEvent) : Prop where
  id : row.id = R.optimisticId i
  localKey : row.localKey = some (R.optimisticId i)
  pending : row.pending = true

/-- A row of the daemon, live or from history. -/
structure IsStored (i : ι) (row : RelayEvent) : Prop where
  id : row.id = R.msgId i
  localKey : row.localKey = some (R.clientId i)
  pending : row.pending = false

/-- The row of an acknowledgement. -/
structure IsSent (i : ι) (row : RelayEvent) : Prop where
  id : row.id = R.sentId i
  localKey : row.localKey = some (R.clientId i)
  pending : row.pending = false

/-- A delivered row; the echo of a group message may have taken over the optimistic key. -/
structure IsCopy (i : ι) (row : RelayEvent) : Prop where
  id : row.id = R.msgId i ∨ row.id = R.sentId i
  key : row.renderKey = R.clientId i ∨
    (row.renderKey = R.optimisticId i ∧ R.sentId i = R.msgId i)
  pending : row.pending = false

variable {R} {i j : ι} {row other : RelayEvent}

theorem IsOptimistic.renderKey (h : R.IsOptimistic i row) : row.renderKey = R.optimisticId i := by
  simp [RelayEvent.renderKey, h.localKey]

theorem IsStored.renderKey (h : R.IsStored i row) : row.renderKey = R.clientId i := by
  simp [RelayEvent.renderKey, h.localKey]

theorem IsSent.renderKey (h : R.IsSent i row) : row.renderKey = R.clientId i := by
  simp [RelayEvent.renderKey, h.localKey]

theorem IsStored.isCopy (h : R.IsStored i row) : R.IsCopy i row :=
  ⟨Or.inl h.id, Or.inl h.renderKey, h.pending⟩

theorem IsSent.isCopy (h : R.IsSent i row) : R.IsCopy i row :=
  ⟨Or.inr h.id, Or.inl h.renderKey, h.pending⟩

theorem IsCopy.id_cases (h : R.IsCopy i row) : row.id = R.msgId i ∨ row.id = R.clientId i := by
  rcases h.id with hid | hid
  · exact Or.inl hid
  · rw [hid]
    exact R.sent_cases i

theorem IsCopy.key_cases (h : R.IsCopy i row) :
    row.renderKey = R.clientId i ∨ row.renderKey = R.optimisticId i :=
  h.key.imp_right And.left

theorem IsCopy.id_apart (h : R.IsCopy i row) (hother : R.IsCopy j other) (hne : i ≠ j) :
    row.id ≠ other.id := by
  intro heq
  rcases h.id_cases with hi | hi
  · rcases hother.id_cases with hj | hj
    · exact hne (R.msg_injective (hi.symm.trans (heq.trans hj)))
    · exact R.client_ne_msg j i (hj.symm.trans (heq.symm.trans hi))
  · rcases hother.id_cases with hj | hj
    · exact R.client_ne_msg i j (hi.symm.trans (heq.trans hj))
    · exact hne (R.client_injective (hi.symm.trans (heq.trans hj)))

theorem IsCopy.key_apart (h : R.IsCopy i row) (hother : R.IsCopy j other) (hne : i ≠ j) :
    row.renderKey ≠ other.renderKey := by
  intro heq
  rcases h.key_cases with hi | hi
  · rcases hother.key_cases with hj | hj
    · exact hne (R.client_injective (hi.symm.trans (heq.trans hj)))
    · exact R.optimistic_ne_client j i (hj.symm.trans (heq.symm.trans hi))
  · rcases hother.key_cases with hj | hj
    · exact R.optimistic_ne_client i j (hi.symm.trans (heq.trans hj))
    · exact hne (R.optimistic_injective (hi.symm.trans (heq.trans hj)))

theorem IsCopy.unique (h : R.IsCopy i row) (hother : R.IsCopy j row) : i = j := by
  by_contra hne
  exact h.id_apart hother hne rfl

theorem IsCopy.id_ne_optimistic (h : R.IsCopy i row) (j : ι) : row.id ≠ R.optimisticId j := by
  intro heq
  rcases h.id_cases with hi | hi
  · exact R.optimistic_ne_msg j i (heq.symm.trans hi)
  · exact R.optimistic_ne_client j i (heq.symm.trans hi)

theorem IsCopy.key_ne_optimistic (h : R.IsCopy i row) (hne : i ≠ j) :
    row.renderKey ≠ R.optimisticId j := by
  intro heq
  rcases h.key_cases with hi | hi
  · exact R.optimistic_ne_client j i (heq.symm.trans hi)
  · exact hne (R.optimistic_injective (hi.symm.trans heq))

theorem isOptimistic_created {channelId uuid : String} {identity : Identity} {now : ℤ}
    {messages : List RelayEvent} {send : SendVariables}
    (h : R.optimisticId i = "optimistic-" ++ uuid) :
    R.IsOptimistic i (createOptimisticMessage channelId identity uuid now messages send) :=
  ⟨h.symm, congrArg some h.symm, rfl⟩

theorem isSent_acknowledged {channelId content clientId : String} {identity : Identity}
    {mentionAgentIds : List String} {threadRoot threadParent canonicalId : Option String}
    {createdAt : ℤ} (hclient : R.clientId i = clientId)
    (hsent : R.sentId i = canonicalId.getD clientId) :
    R.IsSent i (sendNativeMessage channelId identity content mentionAgentIds threadRoot threadParent
      clientId createdAt canonicalId) :=
  ⟨hsent.symm, congrArg some hclient.symm, rfl⟩

end Roster

/-- A list of rows in order. `pending` gives the rows of the sends that have not settled, and
`delivered` the messages that this list has received. -/
structure CacheRows {ι : Type} (R : Roster ι) (pending : ι → Option RelayEvent) (delivered : Set ι)
    (rows : List RelayEvent) : Prop where
  ids : (rows.map RelayEvent.id).Nodup
  known : ∀ row ∈ rows, (∃ i, pending i = some row) ∨ ∃ i ∈ delivered, R.IsCopy i row
  opened : ∀ i row, pending i = some row → i ∉ delivered → row ∈ rows
  once : ∀ i ∈ delivered, ∃ row ∈ rows, R.IsCopy i row ∧
    ∀ other ∈ rows, R.IsCopy i other → other = row

/-- The rows of the open sends are optimistic rows. -/
def PendingRows {ι : Type} (R : Roster ι) (pending : ι → Option RelayEvent) : Prop :=
  ∀ i row, pending i = some row → R.IsOptimistic i row

/-- A row goes by an optimistic id only as its id where the rows of that key are open. -/
theorem PendingRows.isOptimistic_iff {ι : Type} {R : Roster ι} {pending : ι → Option RelayEvent}
    (h : PendingRows R pending) {i : ι} {row : RelayEvent}
    (hkeyed : row.renderKey = R.optimisticId i → ∃ j, pending j = some row) :
    (!eventIsOptimistic row (R.optimisticId i)) = false ↔ row.id = R.optimisticId i := by
  simp only [eventIsOptimistic, Bool.not_eq_false', Bool.or_eq_true, beq_iff_eq]
  constructor
  · rintro (hid | hlocal)
    · exact hid
    · have hkey : row.renderKey = R.optimisticId i := by simp [RelayEvent.renderKey, hlocal]
      obtain ⟨j, hj⟩ := hkeyed hkey
      rw [(h j row hj).id, ← (h j row hj).renderKey, hkey]
  · exact Or.inl

theorem PendingRows.open {ι : Type} [DecidableEq ι] {R : Roster ι} {pending : ι → Option RelayEvent}
    (h : PendingRows R pending) {i : ι} {event : RelayEvent} (hevent : R.IsOptimistic i event) :
    PendingRows R (Function.update pending i (some event)) := by
  intro j row hj
  by_cases hne : j = i
  · subst hne
    rw [Function.update_self] at hj
    cases hj
    exact hevent
  · rw [Function.update_of_ne hne] at hj
    exact h j row hj

theorem PendingRows.close {ι : Type} [DecidableEq ι] {R : Roster ι}
    {pending : ι → Option RelayEvent}
    (h : PendingRows R pending) (i : ι) : PendingRows R (Function.update pending i none) := by
  intro j row hj
  by_cases hne : j = i
  · subst hne
    rw [Function.update_self] at hj
    cases hj
  · rw [Function.update_of_ne hne] at hj
    exact h j row hj

namespace CacheRows

variable {ι : Type} {R : Roster ι} {pending : ι → Option RelayEvent} {delivered : Set ι}
  {rows next : List RelayEvent} {i : ι} {event row : RelayEvent}

theorem perm (h : CacheRows R pending delivered rows) (hperm : next.Perm rows) :
    CacheRows R pending delivered next where
  ids := (hperm.map RelayEvent.id).nodup_iff.mpr h.ids
  known := fun row hrow => h.known row (hperm.mem_iff.mp hrow)
  opened := fun i row hpending hnew => hperm.mem_iff.mpr (h.opened i row hpending hnew)
  once := fun i hi => by
    obtain ⟨row, hrow, hcopy, hunique⟩ := h.once i hi
    exact ⟨row, hperm.mem_iff.mpr hrow, hcopy,
      fun other hother => hunique other (hperm.mem_iff.mp hother)⟩

/-- Two copies of one message are one row. -/
theorem copy_unique (h : CacheRows R pending delivered rows) {other : RelayEvent}
    (hrow : row ∈ rows)
    (hother : other ∈ rows) (hcopy : R.IsCopy i row) (hcopies : R.IsCopy i other)
    (hpending : PendingRows R pending) : row = other := by
  have hi : i ∈ delivered := by
    rcases h.known row hrow with ⟨j, hj⟩ | ⟨j, hj, hknown⟩
    · exact absurd (hcopy.pending.symm.trans (hpending j row hj).pending) (by decide)
    · exact hcopy.unique hknown ▸ hj
  obtain ⟨found, -, -, hunique⟩ := h.once i hi
  rw [hunique row hrow hcopy, hunique other hother hcopies]

/-- A row that is pending belongs to an open send. -/
theorem pending_of_mem (h : CacheRows R pending delivered rows) (hrow : row ∈ rows)
    (hpending : row.pending = true) : ∃ i, pending i = some row := by
  rcases h.known row hrow with hopen | ⟨i, -, hcopy⟩
  · exact hopen
  · rw [hcopy.pending] at hpending
    cases hpending

/-- The rows that an incoming event replaces go, and the event is added. -/
def put (rows : List RelayEvent) (event : RelayEvent) : List RelayEvent :=
  withoutReplaced rows event ++ [event]

theorem put_ids (h : CacheRows R pending delivered rows) (event : RelayEvent) :
    ((put rows event).map RelayEvent.id).Nodup := by
  rw [put, List.map_append, List.nodup_append]
  refine ⟨h.ids.sublist (List.filter_sublist.map RelayEvent.id), List.nodup_singleton _, ?_⟩
  intro id hid other hother heq
  obtain ⟨row, hrow, rfl⟩ := List.mem_map.mp hid
  obtain rfl := List.mem_singleton.mp hother
  exact (mem_withoutReplaced.mp hrow).2.1 heq

theorem mem_put : row ∈ put rows event ↔
    (row ∈ rows ∧ row.id ≠ event.id ∧ row.renderKey ≠ event.renderKey) ∨ row = event := by
  rw [put, List.mem_append, mem_withoutReplaced, List.mem_singleton]

/-- A delivered row replaces the earlier copy of its message and no other. -/
theorem put_copy (h : CacheRows R pending delivered rows) (hpending : PendingRows R pending)
    (hcopy : R.IsCopy i event)
    (hreplaces : ∀ row ∈ rows, R.IsCopy i row →
      row.id = event.id ∨ row.renderKey = event.renderKey) :
    CacheRows R pending (insert i delivered) (put rows event) where
  ids := h.put_ids event
  known := fun row hrow => by
    rcases mem_put.mp hrow with ⟨hold, -⟩ | rfl
    · rcases h.known row hold with hopen | ⟨j, hj, hcopy⟩
      · exact Or.inl hopen
      · exact Or.inr ⟨j, Set.mem_insert_of_mem i hj, hcopy⟩
    · exact Or.inr ⟨i, Set.mem_insert i delivered, hcopy⟩
  opened := fun j row hopen hnew => by
    obtain ⟨hne, hnot⟩ : j ≠ i ∧ j ∉ delivered := by simpa using hnew
    have hoptimistic := hpending j row hopen
    refine mem_put.mpr (Or.inl ⟨h.opened j row hopen hnot, ?_, ?_⟩)
    · rw [hoptimistic.id]
      exact (hcopy.id_ne_optimistic j).symm
    · rw [hoptimistic.renderKey]
      exact (hcopy.key_ne_optimistic (Ne.symm hne)).symm
  once := fun j hj => by
    by_cases hne : j = i
    · subst hne
      refine ⟨event, mem_put.mpr (Or.inr rfl), hcopy, ?_⟩
      intro other hother hcopies
      rcases mem_put.mp hother with ⟨hold, hid, hkey⟩ | rfl
      · exact absurd (hreplaces other hold hcopies) (not_or.mpr ⟨hid, hkey⟩)
      · rfl
    · obtain ⟨row, hrow, hcopies, hunique⟩ := h.once j (Set.mem_of_mem_insert_of_ne hj hne)
      refine ⟨row, mem_put.mpr (Or.inl ⟨hrow, ?_, ?_⟩), hcopies, ?_⟩
      · exact hcopies.id_apart hcopy hne
      · exact hcopies.key_apart hcopy hne
      · intro other hother hothers
        rcases mem_put.mp hother with ⟨hold, -⟩ | rfl
        · exact hunique other hold hothers
        · exact absurd (hothers.unique hcopy) hne

/-- A new optimistic row replaces nothing. -/
theorem put_optimistic [DecidableEq ι] (h : CacheRows R pending delivered rows)
    (hpending : PendingRows R pending) (hevent : R.IsOptimistic i event) (hidle : pending i = none)
    (hnew : i ∉ delivered) :
    CacheRows R (Function.update pending i (some event)) delivered (put rows event) := by
  have hkept : ∀ row ∈ rows, row.id ≠ event.id ∧ row.renderKey ≠ event.renderKey := by
    intro row hrow
    rw [hevent.id, hevent.renderKey]
    rcases h.known row hrow with ⟨j, hj⟩ | ⟨j, hj, hcopy⟩
    · have hne : j ≠ i := by
        rintro rfl
        rw [hidle] at hj
        cases hj
      rw [(hpending j row hj).id, (hpending j row hj).renderKey]
      exact ⟨fun heq => hne (R.optimistic_injective heq), fun heq =>
        hne (R.optimistic_injective heq)⟩
    · have hne : j ≠ i := fun heq => hnew (heq ▸ hj)
      exact ⟨hcopy.id_ne_optimistic i, hcopy.key_ne_optimistic hne⟩
  have hother : ∀ j, j ≠ i → Function.update pending i (some event) j = pending j :=
    fun j hne => Function.update_of_ne hne _ _
  constructor
  · exact h.put_ids event
  · intro row hrow
    rcases mem_put.mp hrow with ⟨hold, -⟩ | rfl
    · rcases h.known row hold with ⟨j, hj⟩ | hcopy
      · have hne : j ≠ i := by
          rintro rfl
          rw [hidle] at hj
          cases hj
        exact Or.inl ⟨j, (hother j hne).trans hj⟩
      · exact Or.inr hcopy
    · exact Or.inl ⟨i, Function.update_self i _ pending⟩
  · intro j row hopen hnot
    by_cases hne : j = i
    · subst hne
      rw [Function.update_self] at hopen
      cases hopen
      exact mem_put.mpr (Or.inr rfl)
    · rw [hother j hne] at hopen
      have hold := h.opened j row hopen hnot
      exact mem_put.mpr (Or.inl ⟨hold, hkept row hold⟩)
  · intro j hj
    obtain ⟨row, hrow, hcopy, hunique⟩ := h.once j hj
    refine ⟨row, mem_put.mpr (Or.inl ⟨hrow, hkept row hrow⟩), hcopy, ?_⟩
    intro other hmem hcopies
    rcases mem_put.mp hmem with ⟨hold, -⟩ | rfl
    · exact hunique other hold hcopies
    · exact absurd (hcopies.pending.symm.trans hevent.pending) (by decide)

/-- A list that loses exactly the optimistic row of a send. -/
theorem close [DecidableEq ι] (h : CacheRows R pending delivered rows)
    (hpending : PendingRows R pending) {keep : RelayEvent → Bool}
    (hkeep : ∀ row ∈ rows, keep row = false ↔ row.id = R.optimisticId i) :
    CacheRows R (Function.update pending i none) delivered (rows.filter keep) := by
  have hother : ∀ j, j ≠ i → Function.update pending i none j = pending j :=
    fun j hne => Function.update_of_ne hne _ _
  have hstays : ∀ row ∈ rows, row.id ≠ R.optimisticId i → row ∈ rows.filter keep := by
    intro row hrow hne
    refine List.mem_filter.mpr ⟨hrow, ?_⟩
    by_contra hdropped
    exact hne ((hkeep row hrow).mp (Bool.eq_false_of_not_eq_true hdropped))
  constructor
  · exact h.ids.sublist (List.filter_sublist.map RelayEvent.id)
  · intro row hrow
    obtain ⟨hold, hkept⟩ := List.mem_filter.mp hrow
    rcases h.known row hold with ⟨j, hj⟩ | hcopy
    · refine Or.inl ⟨j, (hother j ?_).trans hj⟩
      rintro rfl
      rw [(hkeep row hold).mpr (hpending j row hj).id] at hkept
      cases hkept
    · exact Or.inr hcopy
  · intro j row hopen hnot
    by_cases hne : j = i
    · subst hne
      rw [Function.update_self] at hopen
      cases hopen
    · rw [hother j hne] at hopen
      apply hstays row (h.opened j row hopen hnot)
      rw [(hpending j row hopen).id]
      exact fun heq => hne (R.optimistic_injective heq)
  · intro j hj
    obtain ⟨row, hrow, hcopy, hunique⟩ := h.once j hj
    exact ⟨row, hstays row hrow (hcopy.id_ne_optimistic i), hcopy,
      fun other hmem => hunique other (List.mem_filter.mp hmem).1⟩

section Merge

theorem mergeMessages_perm (h : (rows.map RelayEvent.id).Nodup) (event : RelayEvent) :
    (mergeMessages rows event).Perm (put rows (takeOverKey rows event)) := by
  rw [mergeMessages, sortMessages, dedupe_of_nodup (reconcile_ids_nodup rows event)]
  refine (sortEvents_perm _ _).trans ?_
  rw [reconcileIncomingMessage, dedupe_of_nodup h]
  exact List.Perm.refl _

/-- A delivered event is merged without touching other messages when it is taken for no pending row
but that of its own send. -/
theorem merge_copy (h : CacheRows R pending delivered rows) (hpending : PendingRows R pending)
    (hcopy : R.IsCopy i event) (hkey : event.renderKey = R.clientId i)
    (hmatch : ∀ row ∈ rows, isMatchingPendingMessage row event = true →
      pending i = some row ∧ R.sentId i = R.msgId i) :
    CacheRows R pending (insert i delivered) (mergeMessages rows event) := by
  refine CacheRows.perm ?_ (mergeMessages_perm h.ids event)
  obtain ⟨heq, -⟩ | ⟨replaced, hmem, hmatched, heq⟩ := takeOverKey_cases rows event
  · rw [heq]
    apply h.put_copy hpending hcopy
    intro row _ hcopies
    rcases hcopies.key with hsame | ⟨-, hsent⟩
    · exact Or.inr (hsame.trans hkey.symm)
    · exact Or.inl ((hcopies.id.elim (fun h => h) fun h => h.trans hsent).trans
        (hcopy.id.elim (fun h => h) fun h => h.trans hsent).symm)
  · obtain ⟨hopen, hsent⟩ := hmatch replaced hmem hmatched
    rw [heq]
    have htaken : R.IsCopy i { event with localKey := some replaced.renderKey } :=
      ⟨hcopy.id, Or.inr ⟨(hpending i replaced hopen).renderKey, hsent⟩, hcopy.pending⟩
    apply h.put_copy hpending htaken
    intro row _ hcopies
    exact Or.inl ((hcopies.id.elim (fun h => h) fun h => h.trans hsent).trans
      (hcopy.id.elim (fun h => h) fun h => h.trans hsent).symm)

theorem merge_optimistic [DecidableEq ι] (h : CacheRows R pending delivered rows)
    (hpending : PendingRows R pending) (hevent : R.IsOptimistic i event) (hidle : pending i = none)
    (hnew : i ∉ delivered) :
    CacheRows R (Function.update pending i (some event)) delivered (mergeMessages rows event) := by
  refine CacheRows.perm ?_ (mergeMessages_perm h.ids event)
  have hunmatched : takeOverKey rows event = event := by
    apply takeOverKey_of_unmatched
    intro row _
    simp [isMatchingPendingMessage, hevent.pending]
  rw [hunmatched]
  exact h.put_optimistic hpending hevent hidle hnew

/-- An acknowledgement drops the row of its send before it is merged. -/
theorem merge_sent [DecidableEq ι] (h : CacheRows R pending delivered rows)
    (hpending : PendingRows R pending) (hevent : R.IsSent i event)
    (hmatch : ∀ row ∈ rows, row.id ≠ R.optimisticId i →
      isMatchingPendingMessage row event = false) :
    CacheRows R (Function.update pending i none) (insert i delivered)
      (mergeMessages (rows.filter fun row => row.id != R.optimisticId i) event) := by
  have hclosed : CacheRows R (Function.update pending i none) delivered
      (rows.filter fun row => row.id != R.optimisticId i) := by
    apply h.close hpending
    intro row _
    simp
  apply hclosed.merge_copy (hpending.close i) hevent.isCopy hevent.renderKey
  intro row hrow hmatched
  obtain ⟨hold, hne⟩ := List.mem_filter.mp hrow
  rw [hmatch row hold (by simpa using hne)] at hmatched
  cases hmatched

/-- Before any copy of a message came in, only its optimistic row goes by the optimistic id. -/
theorem isOptimistic_iff (h : CacheRows R pending delivered rows) (hpending : PendingRows R pending)
    (hnew : i ∉ delivered) :
    ∀ row ∈ rows, (!eventIsOptimistic row (R.optimisticId i)) = false ↔
      row.id = R.optimisticId i := by
  refine fun row hrow => hpending.isOptimistic_iff fun hkey => ?_
  rcases h.known row hrow with hopen | ⟨j, hj, hcopy⟩
  · exact hopen
  · exact absurd hkey (hcopy.key_ne_optimistic fun heq => hnew (heq ▸ hj))

theorem rollback [DecidableEq ι] (h : CacheRows R pending delivered rows)
    (hpending : PendingRows R pending) (hnew : i ∉ delivered) :
    CacheRows R (Function.update pending i none) delivered
      (rows.filter fun row => !eventIsOptimistic row (R.optimisticId i)) :=
  h.close hpending (h.isOptimistic_iff hpending hnew)

end Merge

/-- The delivered rows that are rendered under a key of the message. -/
def isRowOf (R : Roster ι) (i : ι) (row : RelayEvent) : Bool :=
  !row.pending && (row.renderKey == R.clientId i || row.renderKey == R.optimisticId i)

theorem count_eq_one (h : CacheRows R pending delivered rows) (hpending : PendingRows R pending)
    (hi : i ∈ delivered) : (rows.filter (isRowOf R i)).length = 1 := by
  obtain ⟨row, hrow, hcopy, hunique⟩ := h.once i hi
  have hmem : row ∈ rows.filter (isRowOf R i) := by
    refine List.mem_filter.mpr ⟨hrow, ?_⟩
    simp [isRowOf, hcopy.pending, hcopy.key_cases]
  have hall : ∀ other ∈ rows.filter (isRowOf R i), other = row := by
    intro other hother
    obtain ⟨hold, his⟩ := List.mem_filter.mp hother
    simp only [isRowOf, Bool.and_eq_true, Bool.not_eq_true', Bool.or_eq_true, beq_iff_eq] at his
    obtain ⟨hsettled, hkey⟩ := his
    rcases h.known other hold with ⟨j, hj⟩ | ⟨j, hj, hcopies⟩
    · exact absurd (hsettled.symm.trans (hpending j other hj).pending) (by decide)
    · obtain rfl : j = i := by
        by_contra hne
        rcases hkey with hkey | hkey
        · rcases hcopies.key_cases with hown | hown
          · exact hne (R.client_injective (hown.symm.trans hkey))
          · exact R.optimistic_ne_client j i (hown.symm.trans hkey)
        · exact hcopies.key_ne_optimistic hne hkey
      exact hunique other hold hcopies
  have hnodup : (rows.filter (isRowOf R i)).Nodup := (List.Nodup.of_map _ h.ids).filter _
  have hperm : (rows.filter (isRowOf R i)).Perm [row] := by
    apply (List.perm_ext_iff_of_nodup hnodup (List.nodup_singleton row)).mpr
    intro other
    rw [List.mem_singleton]
    exact ⟨hall other, fun heq => heq ▸ hmem⟩
  exact hperm.length_eq

end CacheRows

end Buzz.Messages
