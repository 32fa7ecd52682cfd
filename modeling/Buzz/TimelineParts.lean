import Buzz.TimelineItems

/-!
# The parts of the timeline

The backward walk cuts the entries into parts, one for every row. The forward walk emits the
dividers and the row of each part in turn, and skips over no part and no day. The keys are distinct
if and only if no day section comes back and no row has the key of a divider.
-/

namespace Buzz.Thread

section Parts

variable {runtime : Runtime} {entries : List MainTimelineEntry} {barriers : Finset ℕ}
  {newestEntry : MainTimelineEntry} {newestPayload : MembershipChangePayload} {last left : ℕ}

/-- The first index of the part that ends at an index. -/
def partStart (runtime : Runtime) (entries : List MainTimelineEntry) (barriers : Finset ℕ)
    (last : ℕ) : ℕ :=
  match entries[last]? with
  | none => last
  | some newestEntry =>
      match parseMembershipChangePayload runtime newestEntry with
      | none => last
      | some newestPayload => groupStart runtime entries barriers newestEntry newestPayload last

theorem partStart_le (last : ℕ) : partStart runtime entries barriers last ≤ last := by
  unfold partStart
  split
  · exact le_rfl
  · split
    · exact le_rfl
    · exact groupStart_le last

/-- The parts of the entries before an index, newest first. -/
def parts (runtime : Runtime) (entries : List MainTimelineEntry) (barriers : Finset ℕ) :
    ℕ → List (ℕ × ℕ)
  | 0 => []
  | last + 1 =>
      (partStart runtime entries barriers last, last + 1) ::
        parts runtime entries barriers (partStart runtime entries barriers last)
  termination_by left => left
  decreasing_by exact Nat.lt_succ_of_le (partStart_le _)

theorem parts_zero : parts runtime entries barriers 0 = [] := by
  rw [parts]

theorem parts_succ (last : ℕ) : parts runtime entries barriers (last + 1) =
    (partStart runtime entries barriers last, last + 1) ::
      parts runtime entries barriers (partStart runtime entries barriers last) := by
  rw [parts]

theorem parts_bounds (left : ℕ) :
    ∀ part ∈ parts runtime entries barriers left, part.1 < part.2 ∧ part.2 ≤ left := by
  induction left using Nat.strong_induction_on with
  | _ left ih =>
      cases left with
      | zero => simp [parts_zero]
      | succ last =>
          have hle := @partStart_le runtime entries barriers last
          rw [parts_succ, List.forall_mem_cons]
          refine ⟨⟨Nat.lt_succ_of_le hle, le_rfl⟩, fun part hpart => ?_⟩
          obtain ⟨hlt, hbound⟩ := ih _ (Nat.lt_succ_of_le hle) part hpart
          exact ⟨hlt, by omega⟩

theorem take_append_slice {start stop : ℕ} (h : start ≤ stop) :
    entries.take start ++ slice entries start stop = entries.take stop := by
  unfold slice
  have hsplit := List.take_append_drop start (entries.take stop)
  rwa [List.take_take, min_eq_left h] at hsplit

/-- The parts are a partition. -/
theorem parts_flatten (left : ℕ) :
    (parts runtime entries barriers left).reverse.flatMap
      (fun part => slice entries part.1 part.2) = entries.take left := by
  induction left using Nat.strong_induction_on with
  | _ left ih =>
      cases left with
      | zero => simp [parts_zero]
      | succ last =>
          have hle := @partStart_le runtime entries barriers last
          rw [parts_succ, List.reverse_cons, List.flatMap_append, ih _ (Nat.lt_succ_of_le hle),
            List.flatMap_singleton]
          exact take_append_slice (by omega)

/-- Inside a group no entry is at a barrier. -/
theorem groupStart_free (last : ℕ) : ∀ i,
    groupStart runtime entries barriers newestEntry newestPayload last < i → i ≤ last →
    i ∉ barriers := by
  induction last with
  | zero =>
      intro i hi hle
      omega
  | succ start ih =>
      intro i hi hle
      unfold groupStart at hi
      split at hi
      · omega
      · split_ifs at hi with hstop
        · omega
        · push Not at hstop
          by_cases heq : i = start + 1
          · exact heq ▸ hstop.1
          · exact ih i hi (by omega)

/-- The older entries of a group join it. -/
theorem groupStart_joins (last : ℕ) : ∀ i,
    groupStart runtime entries barriers newestEntry newestPayload last ≤ i → i < last →
    ∃ candidate, entries[i]? = some candidate ∧
      joinsGroup runtime newestEntry newestPayload candidate = true := by
  induction last with
  | zero =>
      intro i _ hlt
      omega
  | succ start ih =>
      intro i hi hlt
      unfold groupStart at hi
      split at hi
      · omega
      · next candidate hcandidate =>
          split_ifs at hi with hstop
          · omega
          · push Not at hstop
            by_cases heq : i = start
            · rw [heq]
              exact ⟨candidate, hcandidate, by simpa using hstop.2⟩
            · exact ih i hi (by omega)

theorem kind_of_parse {entry : MainTimelineEntry} {payload : MembershipChangePayload}
    (h : parseMembershipChangePayload runtime entry = some payload) :
    entry.message.kind = some kindSystemMessage := by
  unfold parseMembershipChangePayload at h
  split_ifs at h with hkind
  exact not_not.mp hkind

theorem parse_of_joins {candidate : MainTimelineEntry}
    (h : joinsGroup runtime newestEntry newestPayload candidate = true) :
    ∃ payload, parseMembershipChangePayload runtime candidate = some payload := by
  unfold joinsGroup at h
  split at h
  · cases h
  · next payload hpayload => exact ⟨payload, hpayload⟩

/-- The entries of a part of more than one are membership changes, and no barrier is inside. -/
theorem partStart_lt (h : partStart runtime entries barriers last < last) :
    (∀ i, partStart runtime entries barriers last ≤ i → i ≤ last → ∃ entry payload,
      entries[i]? = some entry ∧ parseMembershipChangePayload runtime entry = some payload) ∧
    ∀ i, partStart runtime entries barriers last < i → i ≤ last → i ∉ barriers := by
  unfold partStart at h ⊢
  split at h
  · omega
  · next newestEntry hnewest =>
      split at h
      · omega
      · next newestPayload hpayload =>
          refine ⟨fun i hi hle => ?_, groupStart_free last⟩
          by_cases heq : i = last
          · exact ⟨newestEntry, newestPayload, heq ▸ hnewest, hpayload⟩
          · obtain ⟨candidate, hcandidate, hjoins⟩ := groupStart_joins last i hi (by omega)
            obtain ⟨payload, hparse⟩ := parse_of_joins hjoins
            exact ⟨candidate, payload, hcandidate, hparse⟩

theorem parts_inside (left : ℕ) : ∀ part ∈ parts runtime entries barriers left,
    part.1 + 1 < part.2 →
      (∀ i, part.1 ≤ i → i < part.2 → ∃ entry payload, entries[i]? = some entry ∧
        parseMembershipChangePayload runtime entry = some payload) ∧
      ∀ i, part.1 < i → i < part.2 → i ∉ barriers := by
  induction left using Nat.strong_induction_on with
  | _ left ih =>
      cases left with
      | zero => simp [parts_zero]
      | succ last =>
          rw [parts_succ, List.forall_mem_cons]
          refine ⟨fun hlt => ?_, ih _ (Nat.lt_succ_of_le (partStart_le last))⟩
          obtain ⟨hchanges, hfree⟩ := partStart_lt (Nat.lt_of_succ_lt_succ hlt)
          exact ⟨fun i hi hstop => hchanges i hi (Nat.le_of_lt_succ hstop),
            fun i hi hstop => hfree i hi (Nat.le_of_lt_succ hstop)⟩

end Parts

section Groups

variable {runtime : Runtime} {entries : List MainTimelineEntry} {barriers : Finset ℕ}

/-- The groups are the parts of more than one entry. -/
def groupOf (entries : List MainTimelineEntry) (part : ℕ × ℕ) : Option (List MainTimelineEntry) :=
  if part.1 + 1 < part.2 then some (slice entries part.1 part.2) else none

theorem membershipGroupsBefore_succ (last : ℕ) (groups : EntryMap ℕ (List MainTimelineEntry)) :
    membershipGroupsBefore runtime entries barriers (last + 1) groups =
      membershipGroupsBefore runtime entries barriers (partStart runtime entries barriers last)
        (if partStart runtime entries barriers last < last then
          groups.set (partStart runtime entries barriers last)
            (slice entries (partStart runtime entries barriers last) (last + 1))
        else groups) := by
  rw [membershipGroupsBefore]
  cases hentry : entries[last]? with
  | none =>
      have hpart : partStart runtime entries barriers last = last := by
        rw [partStart, hentry]
      rw [hpart, if_neg (lt_irrefl last)]
  | some newestEntry =>
      cases hparse : parseMembershipChangePayload runtime newestEntry with
      | none =>
          have hpart : partStart runtime entries barriers last = last := by
            simp only [partStart, hentry, hparse]
          rw [hpart, if_neg (lt_irrefl last)]
          dsimp only
          rw [hparse]
      | some newestPayload =>
          have hpart : partStart runtime entries barriers last =
              groupStart runtime entries barriers newestEntry newestPayload last := by
            simp only [partStart, hentry, hparse]
          rw [hpart]
          dsimp only
          rw [hparse]

/-- The groups before an index are found under their starts, and nothing else is changed. -/
theorem get?_groupsBefore (left : ℕ) : ∀ groups : EntryMap ℕ (List MainTimelineEntry),
    (∀ i, left ≤ i →
      (membershipGroupsBefore runtime entries barriers left groups).get? i = groups.get? i) ∧
    ((∀ i, i < left → groups.get? i = none) → ∀ part ∈ parts runtime entries barriers left,
      (membershipGroupsBefore runtime entries barriers left groups).get? part.1 =
        groupOf entries part) := by
  induction left using Nat.strong_induction_on with
  | _ left ih =>
      intro groups
      cases left with
      | zero =>
          rw [membershipGroupsBefore, parts_zero]
          exact ⟨fun _ _ => rfl, fun _ part hpart => absurd hpart List.not_mem_nil⟩
      | succ last =>
          have hle := @partStart_le runtime entries barriers last
          rw [membershipGroupsBefore_succ, parts_succ]
          obtain ⟨hkeep, hfound⟩ := ih _ (Nat.lt_succ_of_le hle)
            (if partStart runtime entries barriers last < last then
              groups.set (partStart runtime entries barriers last)
                (slice entries (partStart runtime entries barriers last) (last + 1))
            else groups)
          have hother : ∀ i, i ≠ partStart runtime entries barriers last →
              (if partStart runtime entries barriers last < last then
                groups.set (partStart runtime entries barriers last)
                  (slice entries (partStart runtime entries barriers last) (last + 1))
              else groups).get? i = groups.get? i := by
            intro i hi
            split_ifs
            · rw [EntryMap.get?_set, if_neg hi]
            · rfl
          refine ⟨fun i hi => ?_, fun hempty => ?_⟩
          · rw [hkeep i (by omega), hother i (by omega)]
          · rw [List.forall_mem_cons]
            constructor
            · rw [hkeep _ le_rfl]
              unfold groupOf
              by_cases hlt : partStart runtime entries barriers last < last
              · rw [if_pos hlt, if_pos (Nat.succ_lt_succ hlt), EntryMap.get?_set, if_pos rfl]
              · rw [if_neg hlt, if_neg (fun h => hlt (Nat.lt_of_succ_lt_succ h)),
                  hempty _ (Nat.lt_succ_of_le hle)]
            · intro part hpart
              refine hfound (fun i hi => ?_) part hpart
              rw [hother i (by omega), hempty i (by omega)]

end Groups

section Walk

variable {runtime : Runtime} {plan : TimelinePlan} {barriers : Finset ℕ} {state : WalkState}

/-- An item without its place in a run of messages. -/
def TimelineItem.plain : TimelineItem → TimelineItem
  | .message key entry _ _ => .message key entry false false
  | item => item

/-- The dividers above an entry. -/
def TimelinePlan.dividers (plan : TimelinePlan) (i : ℕ) (entry : MainTimelineEntry) :
    List TimelineItem :=
  ((plan.dayBoundariesByStartIndex.get? i).map fun dayBoundary =>
    .dayDivider dayBoundary.key entry.message.createdAt).toList ++
  if shouldRenderUnreadDivider i entry.message.id plan.firstUnreadMessageId then
    [.unreadDivider ("unread-" ++ entryRenderKey entry)]
  else []

/-- The row of a part that begins with an entry. -/
def rowItem (entries : List MainTimelineEntry) (part : ℕ × ℕ) (entry : MainTimelineEntry) :
    TimelineItem :=
  match groupOf entries part with
  | some group => .systemGroup (entryRenderKey (group.getLastD entry)) group
  | none =>
      if entry.message.kind = some kindSystemMessage then .system (entryRenderKey entry) entry
      else .message (entryRenderKey entry) entry false false

/-- What the walk emits for a part. -/
def TimelinePlan.partItems (plan : TimelinePlan) (part : ℕ × ℕ) : List TimelineItem :=
  match plan.entries[part.1]? with
  | none => []
  | some entry => plan.dividers part.1 entry ++ [rowItem plan.entries part entry]

theorem items_pushDividers (i : ℕ) (entry : MainTimelineEntry) :
    (plan.pushDividers state i entry).items = state.items ++ plan.dividers i entry := by
  unfold TimelinePlan.pushDividers TimelinePlan.dividers
  cases plan.dayBoundariesByStartIndex.get? i with
  | none =>
      by_cases hunread :
        shouldRenderUnreadDivider i entry.message.id plan.firstUnreadMessageId = true
      · simp [hunread, WalkState.pushDivider]
      · simp [hunread]
  | some dayBoundary =>
      by_cases hunread :
        shouldRenderUnreadDivider i entry.message.id plan.firstUnreadMessageId = true
      · simp [hunread, WalkState.pushDivider]
      · simp [hunread, WalkState.pushDivider]

theorem items_pushDivider (i : ℕ) (entry : MainTimelineEntry) (item : TimelineItem) :
    ((plan.pushDividers state i entry).pushDivider item).items =
      state.items ++ plan.dividers i entry ++ [item] := by
  rw [← items_pushDividers]
  rfl

theorem map_modify_of_same {α β : Type} {f : α → α} {g : α → β} (h : ∀ a, g (f a) = g a)
    (items : List α) : ∀ index, (items.modify index f).map g = items.map g := by
  induction items with
  | nil => exact fun index => by simp
  | cons item rest ih =>
      intro index
      cases index with
      | zero => simp [h]
      | succ index => simp [ih]

theorem plain_pushMessage (entry : MainTimelineEntry) :
    (state.pushMessage runtime entry).items.map TimelineItem.plain =
      state.items.map TimelineItem.plain ++
        [.message (entryRenderKey entry) entry false false] := by
  unfold WalkState.pushMessage
  dsimp only
  rw [List.map_append]
  congr 1
  split
  · split_ifs
    · apply map_modify_of_same
      intro item
      cases item <;> rfl
    · rfl
  · rfl

/-- From an index on the walk emits the items of some parts. -/
def Walks (runtime : Runtime) (plan : TimelinePlan) (i : ℕ) (later : List (ℕ × ℕ)) : Prop :=
  ∀ rounds state, plan.entries.length ≤ i + rounds →
    (plan.walk runtime rounds i state).items.map TimelineItem.plain =
      state.items.map TimelineItem.plain ++
        (later.flatMap plan.partItems).map TimelineItem.plain

theorem walks_end : Walks runtime plan plan.entries.length [] := by
  intro rounds state _
  cases rounds with
  | zero | succ rounds => simp [TimelinePlan.walk]

theorem length_slice {entries : List MainTimelineEntry} {start stop : ℕ}
    (h : stop ≤ entries.length) : (slice entries start stop).length = stop - start := by
  rw [slice, List.length_drop, List.length_take, min_eq_left h]

/-- The walk emits a part and comes to the next one. -/
theorem Walks.part {part : ℕ × ℕ} {later : List (ℕ × ℕ)} (h : Walks runtime plan part.2 later)
    (hlt : part.1 < part.2) (hlength : part.2 ≤ plan.entries.length)
    (hgroup : plan.membershipGroupsByStartIndex.get? part.1 = groupOf plan.entries part)
    (hkind : part.1 + 1 < part.2 → ∃ entry, plan.entries[part.1]? = some entry ∧
      entry.message.kind = some kindSystemMessage) :
    Walks runtime plan part.1 (part :: later) := by
  intro rounds state hrounds
  cases rounds with
  | zero => omega
  | succ rounds =>
      have hget : plan.entries[part.1]? = some (plan.entries.get ⟨part.1, by omega⟩) :=
        List.getElem?_eq_getElem _
      obtain ⟨entry, hentry⟩ : ∃ entry, plan.entries[part.1]? = some entry := ⟨_, hget⟩
      have hitems : plan.partItems part =
          plan.dividers part.1 entry ++ [rowItem plan.entries part entry] := by
        rw [TimelinePlan.partItems, hentry]
      rw [TimelinePlan.walk, hentry, List.flatMap_cons, hitems]
      dsimp only
      unfold rowItem
      by_cases hmore : part.1 + 1 < part.2
      · obtain ⟨found, hfound, hsystem⟩ := hkind hmore
        obtain rfl := Option.some.inj (hentry.symm.trans hfound)
        have hslice : groupOf plan.entries part = some (slice plan.entries part.1 part.2) :=
          if_pos hmore
        have hstop : part.1 + (slice plan.entries part.1 part.2).length = part.2 := by
          rw [length_slice hlength]
          omega
        rw [if_pos hsystem, hgroup, hslice]
        dsimp only
        rw [hstop, h rounds _ (by omega), items_pushDivider, List.append_assoc, List.append_assoc]
        simp only [List.map_append, List.append_assoc]
      · have hnone : groupOf plan.entries part = none := if_neg hmore
        have hnext : part.1 + 1 = part.2 := by omega
        rw [hgroup, hnone]
        dsimp only
        rw [hnext]
        split_ifs with hsystem
        · rw [h rounds _ (by omega), items_pushDivider]
          simp only [List.map_append, List.append_assoc]
        · rw [h rounds _ (by omega), plain_pushMessage, items_pushDividers]
          simp only [List.map_append, List.append_assoc]
          rfl

/-- The walk emits the items of all parts before an index. -/
theorem walks_parts (left : ℕ) : ∀ later, left ≤ plan.entries.length →
    (∀ part ∈ parts runtime plan.entries barriers left,
      plan.membershipGroupsByStartIndex.get? part.1 = groupOf plan.entries part) →
    Walks runtime plan left later →
    Walks runtime plan 0 ((parts runtime plan.entries barriers left).reverse ++ later) := by
  induction left using Nat.strong_induction_on with
  | _ left ih =>
      intro later hleft hgroups hwalks
      cases left with
      | zero =>
          rw [parts_zero]
          exact hwalks
      | succ last =>
          have hle := @partStart_le runtime plan.entries barriers last
          have hinside := @parts_inside runtime plan.entries barriers (last + 1)
          rw [parts_succ, List.forall_mem_cons] at hgroups hinside
          rw [parts_succ, List.reverse_cons, List.append_assoc, List.singleton_append]
          refine ih _ (Nat.lt_succ_of_le hle) _ (by omega) hgroups.2 ?_
          refine Walks.part hwalks (Nat.lt_succ_of_le hle) hleft hgroups.1 fun hmore => ?_
          obtain ⟨entry, payload, hentry, hparse⟩ := (hinside.1 hmore).1 _ le_rfl
            (Nat.lt_succ_of_le hle)
          exact ⟨entry, hentry, kind_of_parse hparse⟩

end Walk

section Rows

variable {runtime : Runtime} {entries : List MainTimelineEntry}
  {firstUnreadMessageId : Option String}

/-- The parts of the timeline, oldest first. -/
def timelineParts (runtime : Runtime) (entries : List MainTimelineEntry)
    (firstUnreadMessageId : Option String) : List (ℕ × ℕ) :=
  (parts runtime entries (barrierIndexes runtime entries firstUnreadMessageId)
    entries.length).reverse

theorem plain_buildTimelineItems :
    (buildTimelineItems runtime entries firstUnreadMessageId).map TimelineItem.plain =
      ((timelineParts runtime entries firstUnreadMessageId).flatMap
        (timelinePlan runtime entries firstUnreadMessageId).partItems).map TimelineItem.plain := by
  have hgroups : ∀ part ∈ parts runtime entries
      (barrierIndexes runtime entries firstUnreadMessageId) entries.length,
      (timelinePlan runtime entries firstUnreadMessageId).membershipGroupsByStartIndex.get? part.1 =
        groupOf entries part :=
    (get?_groupsBefore entries.length .empty).2 fun i _ => rfl
  have hwalks := @walks_parts runtime (timelinePlan runtime entries firstUnreadMessageId) _
    entries.length [] le_rfl hgroups walks_end entries.length ⟨[], none, none⟩
    (by simp [timelinePlan])
  rw [List.append_nil] at hwalks
  exact hwalks

/-- Whatever is read off an item without its place in a run is read off the parts. -/
theorem flatMap_buildTimelineItems {β : Type} {f : TimelineItem → List β}
    (hf : ∀ item, f item.plain = f item) :
    (buildTimelineItems runtime entries firstUnreadMessageId).flatMap f =
      (timelineParts runtime entries firstUnreadMessageId).flatMap fun part =>
        ((timelinePlan runtime entries firstUnreadMessageId).partItems part).flatMap f := by
  have hplain : ∀ items : List TimelineItem,
      (items.map TimelineItem.plain).flatMap f = items.flatMap f := by
    intro items
    rw [List.flatMap_map]
    exact List.flatMap_congr fun item _ => hf item
  rw [← hplain, plain_buildTimelineItems, hplain, List.flatMap_assoc]

/-- The entries of a row. -/
def rowEntries : TimelineItem → Option (List MainTimelineEntry)
  | .dayDivider _ _ => none
  | .unreadDivider _ => none
  | .system _ entry => some [entry]
  | .systemGroup _ group => some group
  | .message _ entry _ _ => some [entry]

theorem rowEntries_plain (item : TimelineItem) : rowEntries item.plain = rowEntries item := by
  cases item <;> rfl

theorem getTimelineItemKey_plain (item : TimelineItem) :
    getTimelineItemKey item.plain = getTimelineItemKey item := by
  cases item <;> rfl

theorem timelineParts_bounds : ∀ part ∈ timelineParts runtime entries firstUnreadMessageId,
    part.1 < part.2 ∧ part.2 ≤ entries.length := by
  intro part hpart
  exact parts_bounds _ part (List.mem_reverse.mp hpart)

end Rows

end Buzz.Thread
