import Buzz.CacheRows

/-!
# The refetch of a thread

Every two seconds an open thread is read again from history. The refetch remembers which rows the
cache held at its start and keeps only what came later, beside the replies it read. A reply that is
pending at the start and at the end is dropped, and a direct message that is acknowledged in between
is shown twice; apart from these every reply stays, and each delivered one stays once.
-/

namespace Buzz.Messages

section Refresh

variable {ι : Type} [DecidableEq ι] (R : Roster ι)

/-- The cache of a thread, with the sends that have not settled, the messages that the cache has
received, and the ids that a refetch under way read at its start. -/
structure RefreshState (ι : Type) where
  cache : List RelayEvent
  pending : ι → Option RelayEvent
  delivered : Set ι
  idsAtStart : Option (List String)

def emptyRefreshState : RefreshState ι := ⟨[], fun _ => none, ∅, none⟩

inductive RefreshStep where
  | insert (i : ι) (event : RelayEvent) (isOptimistic : R.IsOptimistic i event)
  | acknowledge (i : ι) (event : RelayEvent) (isSent : R.IsSent i event)
  | fail (i : ι)
  | live (i : ι) (event : RelayEvent) (isStored : R.IsStored i event)
  | start
  | abandon
  | complete (replies : List RelayEvent) (stored : ∀ reply ∈ replies, ∃ i, R.IsStored i reply)

variable {R}

def RefreshState.perform (state : RefreshState ι) : RefreshStep R → RefreshState ι
  | .insert i event _ =>
      { state with
        cache := mergeMessages state.cache event
        pending := Function.update state.pending i (some event) }
  | .acknowledge i event _ =>
      { state with
        cache := mergeMessages (state.cache.filter fun row => row.id != R.optimisticId i) event
        pending := Function.update state.pending i none
        delivered := insert i state.delivered }
  | .fail i =>
      { state with
        cache := state.cache.filter fun row => !eventIsOptimistic row (R.optimisticId i)
        pending := Function.update state.pending i none }
  | .live i event _ =>
      { state with
        cache := mergeMessages state.cache event
        delivered := insert i state.delivered }
  | .start => { state with idsAtStart := some (state.cache.map RelayEvent.id) }
  | .abandon => { state with idsAtStart := none }
  | .complete replies _ =>
      match state.idsAtStart with
      | none => state
      | some idsAtStart =>
          { state with
            cache := completeThreadReplies idsAtStart replies state.cache
            delivered := state.delivered ∪ { i | ∃ reply ∈ replies, R.IsStored i reply }
            idsAtStart := none }

/-- What happens in this order only: a send is inserted, then it settles; the sender of a direct
message gets no echo of it. -/
def RefreshState.Possible (state : RefreshState ι) : RefreshStep R → Prop
  | .insert i _ _ => state.pending i = none ∧ i ∉ state.delivered
  | .acknowledge i _ _ | .fail i => (state.pending i).isSome = true
  | .live i _ _ => (state.pending i).isSome = true → R.sentId i = R.msgId i
  | .start => state.idsAtStart = none
  | .abandon | .complete _ _ => state.idsAtStart.isSome = true

/-- A refetch that ends now loses and doubles nothing: no reply that was pending at its start is
pending still, the history it read has every delivered reply of the start, and no row that came
later is rendered under the key of a reply it read with another id. -/
structure Undisturbed (idsAtStart : List String) (replies cache : List RelayEvent) : Prop where
  settled : ∀ row ∈ cache, row.pending = true → row.id ∉ idsAtStart
  read : ∀ row ∈ cache, row.pending = false → row.id ∈ idsAtStart →
    ∃ reply ∈ replies, reply.id = row.id ∨ reply.renderKey = row.renderKey
  apart : ∀ row ∈ cache, row.id ∉ idsAtStart → ∀ reply ∈ replies,
    reply.renderKey = row.renderKey → reply.id = row.id

/-- What a step has to meet: an incoming reply is taken for the row of its own send only, a send
that fails has not come in, and a refetch ends undisturbed. -/
def RefreshState.Orderly (state : RefreshState ι) : RefreshStep R → Prop
  | .acknowledge i event _ => ∀ row ∈ state.cache, row.id ≠ R.optimisticId i →
      isMatchingPendingMessage row event = false
  | .live i event _ => ∀ row ∈ state.cache, isMatchingPendingMessage row event = true →
      row.id = R.optimisticId i
  | .fail i => i ∉ state.delivered
  | .complete replies _ => ∀ idsAtStart, state.idsAtStart = some idsAtStart →
      Undisturbed idsAtStart replies state.cache
  | _ => True

def PossibleRun (state : RefreshState ι) : List (RefreshStep R) → Prop
  | [] => True
  | step :: rest => state.Possible step ∧ PossibleRun (state.perform step) rest

def OrderlyRun (state : RefreshState ι) : List (RefreshStep R) → Prop
  | [] => True
  | step :: rest => state.Orderly step ∧ OrderlyRun (state.perform step) rest

end Refresh

section Completion

variable {ι : Type} {R : Roster ι} {pending : ι → Option RelayEvent} {delivered : Set ι}
  {rows replies : List RelayEvent} {idsAtStart : List String} {i j : ι} {row reply : RelayEvent}

/-- The rows that came in after the start. -/
def receivedInFlight (idsAtStart : List String) (rows : List RelayEvent) : List RelayEvent :=
  rows.filter fun event => decide (event.id ∉ idsAtStart)

theorem mem_receivedInFlight :
    row ∈ receivedInFlight idsAtStart rows ↔ row ∈ rows ∧ row.id ∉ idsAtStart := by
  simp [receivedInFlight]

theorem mem_completed (hids : (rows.map RelayEvent.id).Nodup) :
    row ∈ completeThreadReplies idsAtStart replies rows ↔
      (row ∈ dedupeMessagesById replies ∧
        row.id ∉ (receivedInFlight idsAtStart rows).map RelayEvent.id) ∨
      row ∈ receivedInFlight idsAtStart rows := by
  have hnodup : ((receivedInFlight idsAtStart rows).map RelayEvent.id).Nodup :=
    nodup_map_filter _ hids
  rw [completeThreadReplies, mem_sortMessages, mem_dedupe_append]
  change (_ ∧ _ ∉ (receivedInFlight idsAtStart rows).map _) ∨
    row ∈ dedupeMessagesById (receivedInFlight idsAtStart rows) ↔ _
  rw [dedupe_of_nodup hnodup]

theorem Roster.IsStored.of_id (hreply : R.IsStored j reply) (hcopy : R.IsCopy i row)
    (heq : reply.id = row.id) : j = i := by
  by_contra hne
  exact hreply.isCopy.id_apart hcopy hne heq

theorem Roster.IsStored.of_key (hreply : R.IsStored j reply) (hcopy : R.IsCopy i row)
    (heq : reply.renderKey = row.renderKey) : j = i := by
  by_contra hne
  exact hreply.isCopy.key_apart hcopy hne heq

/-- A copy that came in later hides the reply that was read. -/
theorem not_read_of_received (hundisturbed : Undisturbed idsAtStart replies rows)
    (hrow : row ∈ receivedInFlight idsAtStart rows) (hcopy : R.IsCopy i row)
    (hreply : reply ∈ replies) (hstored : R.IsStored i reply) :
    reply.id ∈ (receivedInFlight idsAtStart rows).map RelayEvent.id := by
  obtain ⟨hmem, hlater⟩ := mem_receivedInFlight.mp hrow
  have hid : row.id = reply.id := by
    rcases hcopy.key with hkey | ⟨-, hsent⟩
    · exact (hundisturbed.apart row hmem hlater reply hreply
        (hstored.renderKey.trans hkey.symm)).symm
    · rw [hstored.id]
      exact hcopy.id.elim (fun h => h) fun h => h.trans hsent
  exact hid ▸ List.mem_map_of_mem hrow

theorem CacheRows.complete (h : CacheRows R pending delivered rows)
    (hpending : PendingRows R pending) (hstored : ∀ reply ∈ replies, ∃ i, R.IsStored i reply)
    (hundisturbed : Undisturbed idsAtStart replies rows) :
    CacheRows R pending (delivered ∪ { i | ∃ reply ∈ replies, R.IsStored i reply })
      (completeThreadReplies idsAtStart replies rows) := by
  have hreplies : ∀ event ∈ dedupeMessagesById replies, ∃ i, R.IsStored i event :=
    fun event hevent => hstored event ((dedupeMessagesById_sublist replies).subset hevent)
  constructor
  · exact sortMessages_ids_nodup _
  · intro row hrow
    rcases (mem_completed h.ids).mp hrow with ⟨hread, -⟩ | hreceived
    · obtain ⟨i, hi⟩ := hreplies row hread
      exact Or.inr ⟨i, Or.inr ⟨row, (dedupeMessagesById_sublist replies).subset hread, hi⟩,
        hi.isCopy⟩
    · rcases h.known row (mem_receivedInFlight.mp hreceived).1 with hopen | ⟨i, hi, hcopy⟩
      · exact Or.inl hopen
      · exact Or.inr ⟨i, Or.inl hi, hcopy⟩
  · intro i row hopen hnew
    have hmem := h.opened i row hopen fun hold => hnew (Or.inl hold)
    have hlater := hundisturbed.settled row hmem (hpending i row hopen).pending
    exact (mem_completed h.ids).mpr (Or.inr (mem_receivedInFlight.mpr ⟨hmem, hlater⟩))
  · intro i hi
    by_cases hcame : ∃ row ∈ receivedInFlight idsAtStart rows, R.IsCopy i row
    · obtain ⟨row, hrow, hcopy⟩ := hcame
      refine ⟨row, (mem_completed h.ids).mpr (Or.inr hrow), hcopy, ?_⟩
      intro other hother hcopies
      rcases (mem_completed h.ids).mp hother with ⟨hread, hfresh⟩ | hreceived
      · obtain ⟨j, hj⟩ := hreplies other hread
        obtain rfl := hj.isCopy.unique hcopies
        exact absurd (not_read_of_received hundisturbed hrow hcopy
          ((dedupeMessagesById_sublist replies).subset hread) hj) hfresh
      · exact h.copy_unique (mem_receivedInFlight.mp hreceived).1 (mem_receivedInFlight.mp hrow).1
          hcopies hcopy hpending
    · have hread : ∃ reply ∈ replies, R.IsStored i reply := by
        rcases hi with hdelivered | hread
        · obtain ⟨row, hrow, hcopy, -⟩ := h.once i hdelivered
          have hstart : row.id ∈ idsAtStart := by
            by_contra hlater
            exact hcame ⟨row, mem_receivedInFlight.mpr ⟨hrow, hlater⟩, hcopy⟩
          obtain ⟨reply, hreply, hsame⟩ := hundisturbed.read row hrow hcopy.pending hstart
          obtain ⟨j, hj⟩ := hstored reply hreply
          obtain rfl : j = i := hsame.elim (hj.of_id hcopy) (hj.of_key hcopy)
          exact ⟨reply, hreply, hj⟩
        · exact hread
      obtain ⟨reply, hreply, hstoredReply⟩ := hread
      obtain ⟨event, hevent, hid⟩ := List.mem_map.mp
        ((mem_dedupe_ids replies).mpr (List.mem_map_of_mem hreply))
      obtain ⟨j, hj⟩ := hreplies event hevent
      obtain rfl : j = i := hj.of_id hstoredReply.isCopy hid
      refine ⟨event, (mem_completed h.ids).mpr (Or.inl ⟨hevent, ?_⟩), hj.isCopy, ?_⟩
      · intro hmem
        obtain ⟨row, hrow, hsame⟩ := List.mem_map.mp hmem
        rcases h.known row (mem_receivedInFlight.mp hrow).1 with ⟨k, hk⟩ | ⟨k, hk, hcopy⟩
        · rw [(hpending k row hk).id] at hsame
          exact hj.isCopy.id_ne_optimistic k hsame.symm
        · obtain rfl : j = k := hj.of_id hcopy hsame.symm
          exact hcame ⟨row, hrow, hcopy⟩
      · intro other hother hcopies
        rcases (mem_completed h.ids).mp hother with ⟨hotherRead, -⟩ | hreceived
        · obtain ⟨k, hk⟩ := hreplies other hotherRead
          obtain rfl := hk.isCopy.unique hcopies
          exact List.inj_on_of_nodup_map (dedupe_ids_nodup replies) hotherRead hevent
            (hk.id.trans hj.id.symm)
        · exact absurd ⟨other, hreceived, hcopies⟩ hcame

end Completion

section Runs

variable {ι : Type} [DecidableEq ι] {R : Roster ι} {state : RefreshState ι}

/-- The thread is in order. -/
structure RefreshState.InOrder (R : Roster ι) (state : RefreshState ι) : Prop where
  open_rows : PendingRows R state.pending
  rows : CacheRows R state.pending state.delivered state.cache

theorem RefreshState.InOrder.perform (h : state.InOrder R) {step : RefreshStep R}
    (hpossible : state.Possible step) (horderly : state.Orderly step) :
    (state.perform step).InOrder R := by
  obtain ⟨hopen, hrows⟩ := h
  cases step with
  | insert i event isOptimistic =>
      exact ⟨hopen.open isOptimistic,
        hrows.merge_optimistic hopen isOptimistic hpossible.1 hpossible.2⟩
  | acknowledge i event isSent =>
      exact ⟨hopen.close i, hrows.merge_sent hopen isSent horderly⟩
  | fail i => exact ⟨hopen.close i, hrows.rollback hopen horderly⟩
  | live i event isStored =>
      refine ⟨hopen, hrows.merge_copy hopen isStored.isCopy isStored.renderKey ?_⟩
      intro row hrow hmatched
      have hid := horderly row hrow hmatched
      have hpending : row.pending = true := by
        simp only [isMatchingPendingMessage, Bool.and_eq_true] at hmatched
        exact hmatched.1.1.1.1.1.1.1
      obtain ⟨j, hj⟩ := hrows.pending_of_mem hrow hpending
      obtain rfl : j = i := R.optimistic_injective ((hopen j row hj).id.symm.trans hid)
      exact ⟨hj, hpossible (by rw [hj]; rfl)⟩
  | start | abandon => exact ⟨hopen, hrows⟩
  | complete replies stored =>
      cases hstart : state.idsAtStart with
      | none =>
          simp only [RefreshState.perform, hstart]
          exact ⟨hopen, hrows⟩
      | some idsAtStart =>
          simp only [RefreshState.perform, hstart]
          exact ⟨hopen, hrows.complete hopen stored (horderly idsAtStart hstart)⟩

theorem RefreshState.InOrder.run (steps : List (RefreshStep R)) :
    ∀ {state : RefreshState ι}, state.InOrder R → PossibleRun state steps → OrderlyRun state steps →
      (steps.foldl RefreshState.perform state).InOrder R := by
  induction steps with
  | nil => exact fun h _ _ => h
  | cons step rest ih =>
      intro state h hpossible horderly
      exact ih (h.perform hpossible.1 horderly.1) hpossible.2 horderly.2

omit [DecidableEq ι] in
theorem emptyRefreshState_inOrder : (emptyRefreshState : RefreshState ι).InOrder R where
  open_rows := by
    intro i row h
    cases h
  rows :=
    { ids := List.nodup_nil
      known := by
        intro row h
        cases h
      opened := by
        intro i row h
        cases h
      once := fun i hi => absurd hi (Set.notMem_empty i) }

/-- In every run whose incoming replies and refetches meet their conditions, the rows of the open
sends are in the cache, and each delivered reply is in it once. -/
theorem thread_refresh_keeps_replies (steps : List (RefreshStep R))
    (hpossible : PossibleRun emptyRefreshState steps)
    (horderly : OrderlyRun emptyRefreshState steps) :
    let final := steps.foldl RefreshState.perform emptyRefreshState
    (∀ i row, final.pending i = some row → i ∉ final.delivered → row ∈ final.cache) ∧
      ∀ i ∈ final.delivered, (final.cache.filter (CacheRows.isRowOf R i)).length = 1 := by
  obtain ⟨hopen, hrows⟩ := emptyRefreshState_inOrder.run steps hpossible horderly
  exact ⟨hrows.opened, fun i hi => hrows.count_eq_one hopen hi⟩

end Runs

section Interference

/-- One reply, in a group. -/
def groupRoster : Roster Unit where
  optimisticId := fun _ => "optimistic-u1"
  clientId := fun _ => "c1"
  msgId := fun _ => "m1"
  sentId := fun _ => "m1"
  optimistic_injective := fun _ _ _ => rfl
  client_injective := fun _ _ _ => rfl
  msg_injective := fun _ _ _ => rfl
  optimistic_ne_client := by decide
  optimistic_ne_msg := by decide
  client_ne_msg := by decide
  sent_cases := fun _ => Or.inl rfl

def ownReply : SendVariables := ⟨"hi", [], some "m0", []⟩

def optimisticReply : RelayEvent :=
  createOptimisticMessage "general" selfIdentity "u1" 1000 [] ownReply

/-- The acknowledged row of the reply: the daemon gives an id in a group only. -/
def sentReply (canonicalId : Option String) : RelayEvent :=
  sendNativeMessage "general" selfIdentity "hi" [] (some "m0") (some "m0") "c1" 1000 canonicalId

/-- The reply as the history returns it. -/
def storedReply : RelayEvent :=
  { sentReply (some "m1") with createdAt := 2 }

/-- A reply that is pending when a refetch starts is gone when it ends. -/
theorem refetch_drops_pending_reply :
    let steps : List (RefreshStep groupRoster) :=
      [.insert () optimisticReply (Roster.isOptimistic_created (by decide)), .start,
        .complete [] fun _ h => nomatch h]
    let final := steps.foldl RefreshState.perform emptyRefreshState
    PossibleRun emptyRefreshState steps ∧ final.pending () = some optimisticReply ∧
      () ∉ final.delivered ∧ optimisticReply ∉ final.cache := by
  refine ⟨⟨⟨rfl, id⟩, rfl, rfl, trivial⟩, rfl, ?_, ?_⟩
  · rintro (h | ⟨reply, h, -⟩)
    · exact h
    · cases h
  · intro h
    cases h

/-- A group reply that is acknowledged before a refetch reads it. -/
theorem thread_refresh_keeps_replies_group :
    let steps : List (RefreshStep groupRoster) :=
      [.insert () optimisticReply (Roster.isOptimistic_created (by decide)),
        .acknowledge () (sentReply (some "m1")) (Roster.isSent_acknowledged rfl rfl), .start,
        .complete [storedReply] (by simpa using ⟨(), ⟨rfl, rfl, rfl⟩⟩)]
    let final := steps.foldl RefreshState.perform emptyRefreshState
    (final.cache.filter (CacheRows.isRowOf groupRoster ())).length = 1 := by
  intro steps final
  have hpossible : PossibleRun emptyRefreshState steps := ⟨⟨rfl, id⟩, rfl, rfl, rfl, trivial⟩
  have horderly : OrderlyRun emptyRefreshState steps := by
    refine ⟨trivial, ?_, trivial, ?_, trivial⟩
    · intro row hrow hne
      obtain rfl := List.mem_singleton.mp (show row ∈ [optimisticReply] from hrow)
      exact absurd (by decide) hne
    · intro idsAtStart hstart
      obtain rfl : ["m1"] = idsAtStart := Option.some.inj hstart
      have hcache : ∀ row ∈ [sentReply (some "m1")], row.id = "m1" ∧ row.pending = false :=
        fun row hrow => by rw [List.mem_singleton.mp hrow]; exact ⟨rfl, rfl⟩
      constructor
      · intro row hrow hpending
        exact absurd ((hcache row hrow).2.symm.trans hpending) (by decide)
      · intro row hrow _ _
        exact ⟨storedReply, List.mem_singleton.mpr rfl, Or.inl (hcache row hrow).1.symm⟩
      · intro row hrow hlater
        exact absurd (List.mem_singleton.mpr (hcache row hrow).1) hlater
  exact (thread_refresh_keeps_replies steps hpossible horderly).2 () (Or.inl (Or.inl rfl))

end Interference

end Buzz.Messages
