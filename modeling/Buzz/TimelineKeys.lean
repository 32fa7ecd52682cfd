import Buzz.TimelineParts

/-!
# The keys of the timeline

The rows carry the entries in order, and older entries extend the oldest row at most. The keys of
the items are distinct if and only if no day section comes back and no row has the key of a divider.
-/

namespace Buzz.Thread

section Lossless

variable {runtime : Runtime} {entries : List MainTimelineEntry}
  {firstUnreadMessageId : Option String} {part : ℕ × ℕ}

theorem slice_single {start stop : ℕ} (hlt : start < stop) (hmore : ¬start + 1 < stop)
    {entry : MainTimelineEntry} (hentry : entries[start]? = some entry) :
    slice entries start stop = [entry] := by
  obtain rfl : stop = start + 1 := by omega
  rw [slice, List.take_add_one, hentry, List.drop_append]
  have hlength : start < entries.length := (List.getElem?_eq_some_iff.mp hentry).1
  simp [List.length_take, min_eq_left hlength.le]

theorem rowEntries_dividers (plan : TimelinePlan) (i : ℕ) (entry : MainTimelineEntry) :
    (plan.dividers i entry).filterMap rowEntries = [] := by
  rw [List.filterMap_eq_nil_iff]
  intro item hitem
  rw [TimelinePlan.dividers, List.mem_append] at hitem
  rcases hitem with hday | hunread
  · obtain ⟨boundary, -, rfl⟩ := Option.map_eq_some_iff.mp (Option.mem_toList.mp hday)
    rfl
  · split_ifs at hunread
    · obtain rfl := List.mem_singleton.mp hunread
      rfl
    · exact absurd hunread List.not_mem_nil

theorem entry_of_part (hpart : part ∈ timelineParts runtime entries firstUnreadMessageId) :
    ∃ entry, entries[part.1]? = some entry := by
  obtain ⟨hlt, hlength⟩ := timelineParts_bounds part hpart
  exact ⟨_, List.getElem?_eq_getElem (by omega)⟩

theorem partItems_eq {entry : MainTimelineEntry} (hentry : entries[part.1]? = some entry) :
    (timelinePlan runtime entries firstUnreadMessageId).partItems part =
      (timelinePlan runtime entries firstUnreadMessageId).dividers part.1 entry ++
        [rowItem entries part entry] := by
  have hget : (timelinePlan runtime entries firstUnreadMessageId).entries[part.1]? = some entry :=
    hentry
  rw [TimelinePlan.partItems, hget]
  rfl

theorem rowEntries_rowItem (hlt : part.1 < part.2) {entry : MainTimelineEntry}
    (hentry : entries[part.1]? = some entry) :
    rowEntries (rowItem entries part entry) = some (slice entries part.1 part.2) := by
  unfold rowItem groupOf
  by_cases hmore : part.1 + 1 < part.2
  · rw [if_pos hmore]
    rfl
  · rw [if_neg hmore, slice_single hlt hmore hentry]
    dsimp only
    split_ifs
    · rfl
    · rfl

/-- The rows are the parts. -/
theorem rows_eq : (buildTimelineItems runtime entries firstUnreadMessageId).filterMap rowEntries =
    (timelineParts runtime entries firstUnreadMessageId).map fun part =>
      slice entries part.1 part.2 := by
  rw [List.filterMap_eq_flatMap_toList, flatMap_buildTimelineItems fun item => by
    rw [rowEntries_plain]]
  have hparts : ∀ part ∈ timelineParts runtime entries firstUnreadMessageId,
      (((timelinePlan runtime entries firstUnreadMessageId).partItems part).flatMap fun item =>
        (rowEntries item).toList) = [slice entries part.1 part.2] := by
    intro part hpart
    obtain ⟨entry, hentry⟩ := entry_of_part hpart
    rw [← List.filterMap_eq_flatMap_toList, partItems_eq hentry, List.filterMap_append,
      rowEntries_dividers, List.nil_append, List.filterMap_cons,
      rowEntries_rowItem (timelineParts_bounds part hpart).1 hentry]
    rfl
  rw [List.flatMap_congr hparts, ← List.map_eq_flatMap]

/-- The rows carry the entries in their order. -/
theorem rows_flatten :
    ((buildTimelineItems runtime entries firstUnreadMessageId).filterMap rowEntries).flatten =
      entries := by
  rw [rows_eq, ← List.flatMap_def, timelineParts, parts_flatten, List.take_length]

end Lossless

section Days

variable {runtime : Runtime} {messages : List TimelineMessage} {m : TimelineMessage} {i : ℕ}

/-- A day section begins at an index of the messages. -/
def opensDay (runtime : Runtime) (messages : List TimelineMessage) (i : ℕ) : Bool :=
  match messages[i]? with
  | none => false
  | some message =>
      match i with
      | 0 => true
      | before + 1 => !(messages[before]?.any fun previous =>
          isSameDay runtime previous.createdAt message.createdAt)

/-- The index and key of the day section that begins at an index. -/
def sectionAt (runtime : Runtime) (messages : List TimelineMessage) (i : ℕ) :
    Option (ℕ × String) :=
  if opensDay runtime messages i then
    messages[i]?.map fun message => (i, dayKey runtime message.createdAt)
  else none

def daySections (runtime : Runtime) (messages : List TimelineMessage) : List (ℕ × String) :=
  (List.range messages.length).filterMap (sectionAt runtime messages)

theorem sectionAt_append (hi : i < messages.length) :
    sectionAt runtime (messages ++ [m]) i = sectionAt runtime messages i := by
  have hopens : opensDay runtime (messages ++ [m]) i = opensDay runtime messages i := by
    unfold opensDay
    rw [List.getElem?_append_left hi]
    cases messages[i]? with
    | none => rfl
    | some message =>
        cases i with
        | zero => rfl
        | succ before =>
            dsimp only
            rw [List.getElem?_append_left (by omega)]
  rw [sectionAt, hopens, List.getElem?_append_left hi]
  rfl

theorem sectionAt_last : sectionAt runtime (messages ++ [m]) messages.length =
    if messages.getLast?.any fun previous => isSameDay runtime previous.createdAt m.createdAt then
      none
    else some (messages.length, dayKey runtime m.createdAt) := by
  have hget : (messages ++ [m])[messages.length]? = some m := by
    rw [List.getElem?_append_right le_rfl, Nat.sub_self]
    rfl
  have hopens : opensDay runtime (messages ++ [m]) messages.length =
      !(messages.getLast?.any fun previous =>
        isSameDay runtime previous.createdAt m.createdAt) := by
    unfold opensDay
    rw [hget]
    cases hlength : messages.length with
    | zero =>
        obtain rfl := List.length_eq_zero_iff.mp hlength
        rfl
    | succ before =>
        dsimp only
        rw [List.getElem?_append_left (by omega), List.getLast?_eq_getElem?, hlength]
        rfl
  rw [sectionAt, hopens, hget]
  split_ifs with hfirst hsecond hsecond
  · simp [hsecond] at hfirst
  · rfl
  · rfl
  · simp [hsecond] at hfirst

theorem daySections_append : daySections runtime (messages ++ [m]) =
    daySections runtime messages ++
      if messages.getLast?.any fun previous => isSameDay runtime previous.createdAt m.createdAt then
        []
      else [(messages.length, dayKey runtime m.createdAt)] := by
  unfold daySections
  rw [List.length_append, List.length_singleton, List.range_succ, List.filterMap_append]
  congr 1
  · apply List.filterMap_congr
    intro i hi
    exact sectionAt_append (List.mem_range.mp hi)
  · rw [List.filterMap_cons, sectionAt_last]
    split_ifs
    · rfl
    · rfl

theorem map_push (state : BoundaryState) (m : TimelineMessage) :
    ((state.push runtime m).boundaries.map fun boundary => (boundary.startIndex, boundary.key)) =
      (state.boundaries.map fun boundary => (boundary.startIndex, boundary.key)) ++
        if state.previous.any fun previous => isSameDay runtime previous.createdAt m.createdAt then
          []
        else [(state.index, dayKey runtime m.createdAt)] := by
  unfold BoundaryState.push
  dsimp only
  split_ifs
  · rw [List.append_nil]
    apply map_modify_of_same
    intro boundary
    rfl
  · rw [List.map_append]
    rfl

/-- The boundaries stand at the day sections. -/
theorem boundaries_eq (messages : List TimelineMessage) :
    ((messages.foldl (BoundaryState.push runtime) ⟨[], none, 0⟩).boundaries.map fun boundary =>
      (boundary.startIndex, boundary.key)) = daySections runtime messages ∧
    (messages.foldl (BoundaryState.push runtime) ⟨[], none, 0⟩).previous = messages.getLast? ∧
    (messages.foldl (BoundaryState.push runtime) ⟨[], none, 0⟩).index = messages.length := by
  induction messages using List.reverseRecOn with
  | nil => exact ⟨rfl, rfl, rfl⟩
  | append_singleton messages m ih =>
      obtain ⟨hboundaries, hprevious, hindex⟩ := ih
      rw [List.foldl_append, List.foldl_cons, List.foldl_nil, map_push, hboundaries, hprevious,
        hindex, daySections_append]
      exact ⟨rfl, by simp [BoundaryState.push], by simp [BoundaryState.push, hindex]⟩

theorem map_boundaries (messages : List TimelineMessage) :
    ((buildDayGroupBoundaries runtime messages).map fun boundary =>
      (boundary.startIndex, boundary.key)) = daySections runtime messages :=
  (boundaries_eq messages).1

theorem mem_daySections {key : String} : (i, key) ∈ daySections runtime messages ↔
    ∃ message, messages[i]? = some message ∧ opensDay runtime messages i = true ∧
      dayKey runtime message.createdAt = key := by
  unfold daySections sectionAt
  rw [List.mem_filterMap]
  constructor
  · rintro ⟨j, -, hj⟩
    split_ifs at hj with hopens
    obtain ⟨message, hget, heq⟩ := Option.map_eq_some_iff.mp hj
    obtain ⟨rfl, rfl⟩ := Prod.mk.inj heq
    exact ⟨message, hget, hopens, rfl⟩
  · rintro ⟨message, hget, hopens, rfl⟩
    refine ⟨i, List.mem_range.mpr (List.getElem?_eq_some_iff.mp hget).1, ?_⟩
    rw [if_pos hopens, hget]
    rfl

theorem daySections_indexes_nodup : ((daySections runtime messages).map Prod.fst).Nodup := by
  unfold daySections
  rw [List.map_filterMap]
  refine List.nodup_range.filterMap ?_
  have hindex : ∀ j k, k ∈ (sectionAt runtime messages j).map Prod.fst → j = k := by
    intro j k hj
    unfold sectionAt at hj
    split_ifs at hj
    · obtain ⟨entry, hentry, rfl⟩ := Option.map_eq_some_iff.mp hj
      obtain ⟨message, -, rfl⟩ := Option.map_eq_some_iff.mp hentry
      rfl
    · cases hj
  intro first second k hfirst hsecond
  exact (hindex first k hfirst).trans (hindex second k hsecond).symm

theorem map_startIndex (messages : List TimelineMessage) :
    (buildDayGroupBoundaries runtime messages).map DayGroupBoundary.startIndex =
      (daySections runtime messages).map Prod.fst := by
  rw [← map_boundaries, List.map_map]
  rfl

theorem map_key (messages : List TimelineMessage) :
    (buildDayGroupBoundaries runtime messages).map DayGroupBoundary.key =
      (daySections runtime messages).map Prod.snd := by
  rw [← map_boundaries, List.map_map]
  rfl

theorem get?_boundaries_eq_some_iff {entries : List MainTimelineEntry}
    {firstUnreadMessageId : Option String} {boundary : DayGroupBoundary} :
    (timelinePlan runtime entries firstUnreadMessageId).dayBoundariesByStartIndex.get? i =
        some boundary ↔
      boundary ∈ buildDayGroupBoundaries runtime (entries.map MainTimelineEntry.message) ∧
        boundary.startIndex = i := by
  have hnodup : (((buildDayGroupBoundaries runtime (entries.map MainTimelineEntry.message)).map
      fun boundary => (boundary.startIndex, boundary)).map Prod.fst).Nodup := by
    rw [List.map_map]
    exact (@map_startIndex runtime _) ▸ daySections_indexes_nodup
  have hfold := EntryMap.get?_foldl_set
    ((buildDayGroupBoundaries runtime (entries.map MainTimelineEntry.message)).map fun boundary =>
      (boundary.startIndex, boundary)) i .empty hnodup boundary
  rw [List.foldl_map] at hfold
  refine hfold.trans ?_
  rw [EntryMap.get?_empty, List.mem_map]
  constructor
  · rintro (⟨found, hmem, heq⟩ | ⟨-, hnone⟩)
    · obtain ⟨hindex, rfl⟩ := Prod.mk.inj heq
      exact ⟨hmem, hindex⟩
    · cases hnone
  · rintro ⟨hmem, rfl⟩
    exact Or.inl ⟨boundary, hmem, rfl⟩

/-- The boundary that the walk finds at an index. -/
theorem get?_boundaries {entries : List MainTimelineEntry} {firstUnreadMessageId : Option String}
    {entry : MainTimelineEntry} (hentry : entries[i]? = some entry) :
    ((timelinePlan runtime entries firstUnreadMessageId).dayBoundariesByStartIndex.get? i).map
        DayGroupBoundary.key =
      if opensDay runtime (entries.map MainTimelineEntry.message) i then
        some (dayKey runtime entry.message.createdAt)
      else none := by
  have hmessage : (entries.map MainTimelineEntry.message)[i]? = some entry.message := by
    rw [List.getElem?_map, hentry]
    rfl
  have hsection : ∀ boundary ∈ buildDayGroupBoundaries runtime
      (entries.map MainTimelineEntry.message), boundary.startIndex = i →
      opensDay runtime (entries.map MainTimelineEntry.message) i = true ∧
        boundary.key = dayKey runtime entry.message.createdAt := by
    intro boundary hmem hindex
    have hpair : (i, boundary.key) ∈
        daySections runtime (entries.map MainTimelineEntry.message) := by
      rw [← map_boundaries, ← hindex]
      exact List.mem_map_of_mem hmem
    obtain ⟨message, hget, hopens, hkey⟩ := mem_daySections.mp hpair
    obtain rfl := Option.some.inj (hmessage.symm.trans hget)
    exact ⟨hopens, hkey.symm⟩
  cases hget : (timelinePlan runtime entries
      firstUnreadMessageId).dayBoundariesByStartIndex.get? i with
  | some boundary =>
      obtain ⟨hmem, hindex⟩ := get?_boundaries_eq_some_iff.mp hget
      obtain ⟨hopens, hkey⟩ := hsection boundary hmem hindex
      rw [if_pos hopens, Option.map_some, hkey]
  | none =>
      have hclosed : ¬opensDay runtime (entries.map MainTimelineEntry.message) i = true := by
        intro hopens
        have hpair := mem_daySections.mpr ⟨entry.message, hmessage, hopens, rfl⟩
        rw [← map_boundaries] at hpair
        obtain ⟨boundary, hmem, heq⟩ := List.mem_map.mp hpair
        rw [get?_boundaries_eq_some_iff.mpr ⟨hmem, (Prod.mk.inj heq).1⟩] at hget
        cases hget
      rw [if_neg hclosed]
      rfl

end Days

section Keys

variable {runtime : Runtime} {entries : List MainTimelineEntry}
  {firstUnreadMessageId : Option String} {part : ℕ × ℕ}

def unreadKeyAt (entries : List MainTimelineEntry) (firstUnreadMessageId : Option String) (i : ℕ) :
    Option String :=
  entries[i]?.bind fun entry =>
    if shouldRenderUnreadDivider i entry.message.id firstUnreadMessageId then
      some ("unread-" ++ entryRenderKey entry)
    else none

/-- The newest entry of a part, whose key the row has. -/
def newestOf (entries : List MainTimelineEntry) (part : ℕ × ℕ) : Option MainTimelineEntry :=
  entries[part.2 - 1]?

theorem getLast?_slice {start stop : ℕ} (hlt : start < stop) (hlength : stop ≤ entries.length) :
    (slice entries start stop).getLast? = entries[stop - 1]? := by
  rw [List.getLast?_eq_getElem?, length_slice hlength, slice, List.getElem?_drop,
    List.getElem?_take_of_lt (by omega)]
  congr 1
  omega

theorem key_rowItem (hlt : part.1 < part.2) (hlength : part.2 ≤ entries.length)
    {entry : MainTimelineEntry} (hentry : entries[part.1]? = some entry) :
    some (getTimelineItemKey (rowItem entries part entry)) =
      (newestOf entries part).map entryRenderKey := by
  unfold rowItem groupOf newestOf
  by_cases hmore : part.1 + 1 < part.2
  · rw [if_pos hmore]
    have hlast := getLast?_slice hlt hlength
    dsimp only [getTimelineItemKey]
    rw [List.getLastD_eq_getLast?, hlast, List.getElem?_eq_getElem (by omega)]
    rfl
  · have hsame : part.2 - 1 = part.1 := by omega
    rw [if_neg hmore, hsame, hentry]
    dsimp only
    split_ifs
    · rfl
    · rfl

theorem keys_dividers {i : ℕ} {entry : MainTimelineEntry} (hentry : entries[i]? = some entry) :
    ((timelinePlan runtime entries firstUnreadMessageId).dividers i entry).map
        getTimelineItemKey =
      ((sectionAt runtime (entries.map MainTimelineEntry.message) i).map Prod.snd).toList ++
        (unreadKeyAt entries firstUnreadMessageId i).toList := by
  have hboundary := @get?_boundaries runtime i entries firstUnreadMessageId entry hentry
  have hsection : (sectionAt runtime (entries.map MainTimelineEntry.message) i).map Prod.snd =
      ((timelinePlan runtime entries firstUnreadMessageId).dayBoundariesByStartIndex.get? i).map
        DayGroupBoundary.key := by
    rw [hboundary, sectionAt, List.getElem?_map, hentry]
    split_ifs
    · rfl
    · rfl
  have hunread : unreadKeyAt entries firstUnreadMessageId i =
      if shouldRenderUnreadDivider i entry.message.id firstUnreadMessageId then
        some ("unread-" ++ entryRenderKey entry)
      else none := by
    rw [unreadKeyAt, hentry]
    rfl
  rw [TimelinePlan.dividers, List.map_append, hsection, hunread]
  congr 1
  · cases (timelinePlan runtime entries firstUnreadMessageId).dayBoundariesByStartIndex.get? i with
    | none => rfl
    | some boundary => rfl
  · have hfirst : (timelinePlan runtime entries firstUnreadMessageId).firstUnreadMessageId =
        firstUnreadMessageId := rfl
    rw [hfirst]
    split_ifs
    · rfl
    · rfl

/-- The keys of the items, part by part. -/
theorem keys_eq : (buildTimelineItems runtime entries firstUnreadMessageId).map
      getTimelineItemKey =
    (timelineParts runtime entries firstUnreadMessageId).flatMap fun part =>
      ((sectionAt runtime (entries.map MainTimelineEntry.message) part.1).map Prod.snd).toList ++
        (unreadKeyAt entries firstUnreadMessageId part.1).toList ++
          ((newestOf entries part).map entryRenderKey).toList := by
  rw [List.map_eq_flatMap, flatMap_buildTimelineItems fun item => by
    rw [getTimelineItemKey_plain]]
  apply List.flatMap_congr
  intro part hpart
  obtain ⟨entry, hentry⟩ := entry_of_part hpart
  obtain ⟨hlt, hlength⟩ := timelineParts_bounds part hpart
  rw [← List.map_eq_flatMap, partItems_eq hentry, List.map_append, keys_dividers hentry,
    ← key_rowItem hlt hlength hentry]
  rfl

theorem flatMap_range_of_inside {β : Type} {f : ℕ → List β} {start : ℕ} (stop : ℕ)
    (hf : ∀ i, start < i → i < stop → f i = []) (hlt : start < stop) :
    (List.range stop).flatMap f = (List.range start).flatMap f ++ f start := by
  induction stop, Nat.succ_le_of_lt hlt using Nat.le_induction with
  | base => rw [List.range_succ, List.flatMap_append, List.flatMap_singleton]
  | succ stop hstop ih =>
      rw [List.range_succ, List.flatMap_append, List.flatMap_singleton,
        hf stop (by omega) (Nat.lt_succ_self _), List.append_nil]
      exact ih (fun i hi hlt => hf i hi (by omega)) (by omega)

/-- What is only at the starts of parts is found at all indexes. -/
theorem flatMap_starts {β : Type} {f : ℕ → List β} {barriers : Finset ℕ} (left : ℕ) :
    (∀ part ∈ parts runtime entries barriers left, ∀ i, part.1 < i → i < part.2 → f i = []) →
    (parts runtime entries barriers left).reverse.flatMap (fun part => f part.1) =
      (List.range left).flatMap f := by
  induction left using Nat.strong_induction_on with
  | _ left ih =>
      intro hf
      cases left with
      | zero => simp [parts_zero]
      | succ last =>
          have hlt := Nat.lt_succ_of_le (@partStart_le runtime entries barriers last)
          rw [parts_succ, List.forall_mem_cons] at hf
          rw [parts_succ, List.reverse_cons, List.flatMap_append, List.flatMap_singleton,
            ih _ hlt hf.2, flatMap_range_of_inside (last + 1) hf.1 hlt]

theorem mem_days {i : ℕ} (h : opensDay runtime (entries.map MainTimelineEntry.message) i = true) :
    i ∈ ((buildDayGroupBoundaries runtime (entries.map MainTimelineEntry.message)).map
      DayGroupBoundary.startIndex).toFinset := by
  rw [List.mem_toFinset, map_startIndex]
  cases hget : (entries.map MainTimelineEntry.message)[i]? with
  | none =>
      rw [opensDay, hget] at h
      cases h
  | some message => exact List.mem_map_of_mem (mem_daySections.mpr ⟨message, hget, h, rfl⟩)

theorem days_subset : ((buildDayGroupBoundaries runtime (entries.map
    MainTimelineEntry.message)).map DayGroupBoundary.startIndex).toFinset ⊆
      barrierIndexes runtime entries firstUnreadMessageId := by
  unfold barrierIndexes
  dsimp only
  split
  · exact Finset.Subset.refl _
  · split
    · split_ifs
      · exact Finset.subset_insert _ _
      · exact Finset.Subset.refl _
    · exact Finset.Subset.refl _

/-- The walk skips no day. -/
theorem days_eq : ((timelineParts runtime entries firstUnreadMessageId).flatMap fun part =>
      ((sectionAt runtime (entries.map MainTimelineEntry.message) part.1).map Prod.snd).toList) =
    (buildDayGroupBoundaries runtime (entries.map MainTimelineEntry.message)).map
      DayGroupBoundary.key := by
  have hinside : ∀ part ∈ parts runtime entries
      (barrierIndexes runtime entries firstUnreadMessageId) entries.length, ∀ i,
      part.1 < i → i < part.2 →
      ((sectionAt runtime (entries.map MainTimelineEntry.message) i).map Prod.snd).toList = [] := by
    intro part hpart i hi hlt
    have hbarrier := (parts_inside _ part hpart (by omega)).2 i hi hlt
    have hclosed : ¬opensDay runtime (entries.map MainTimelineEntry.message) i = true :=
      fun hopens => hbarrier (days_subset (mem_days hopens))
    rw [sectionAt, if_neg hclosed]
    rfl
  rw [timelineParts, flatMap_starts _ hinside, map_key, daySections, List.map_filterMap,
    List.filterMap_eq_flatMap_toList, List.length_map]

theorem parts_pairwise {barriers : Finset ℕ} (left : ℕ) :
    (parts runtime entries barriers left).Pairwise fun first second => second.2 ≤ first.1 := by
  induction left using Nat.strong_induction_on with
  | _ left ih =>
      cases left with
      | zero =>
          rw [parts_zero]
          exact .nil
      | succ last =>
          have hlt := Nat.lt_succ_of_le (@partStart_le runtime entries barriers last)
          rw [parts_succ, List.pairwise_cons]
          exact ⟨fun part hpart => (parts_bounds _ part hpart).2, ih _ hlt⟩

theorem timelineParts_pairwise : (timelineParts runtime entries firstUnreadMessageId).Pairwise
    fun first second => first.2 ≤ second.1 := by
  rw [timelineParts, List.pairwise_reverse]
  exact parts_pairwise _

/-- The newest entries of the parts are some of the entries. -/
theorem newest_sublist {barriers : Finset ℕ} (left : ℕ) :
    ((parts runtime entries barriers left).reverse.filterMap (newestOf entries)).Sublist
      (entries.take left) := by
  induction left using Nat.strong_induction_on with
  | _ left ih =>
      cases left with
      | zero => simp [parts_zero]
      | succ last =>
          have hle := @partStart_le runtime entries barriers last
          rw [parts_succ, List.reverse_cons, List.filterMap_append, List.take_add_one,
            List.filterMap_eq_flatMap_toList _ [_], List.flatMap_singleton]
          have htake : (entries.take (partStart runtime entries barriers last)).Sublist
              (entries.take last) := (List.take_prefix_take_left hle).sublist
          exact ((ih _ (Nat.lt_succ_of_le hle)).trans htake).append (List.Sublist.refl _)

theorem unread_nodup (hids : (entries.map fun entry => entry.message.id).Nodup) :
    ((timelineParts runtime entries firstUnreadMessageId).filterMap fun part =>
      unreadKeyAt entries firstUnreadMessageId part.1).Nodup := by
  have hunread : ∀ i key, unreadKeyAt entries firstUnreadMessageId i = some key →
      ((entries.map fun entry => entry.message.id)[i]?) = firstUnreadMessageId ∧
        i < entries.length := by
    intro i key hkey
    obtain ⟨entry, hentry, hshown⟩ := Option.bind_eq_some_iff.mp hkey
    split_ifs at hshown with hrender
    rw [shouldRenderUnreadDivider, Bool.and_eq_true, beq_iff_eq] at hrender
    rw [List.getElem?_map, hentry, ← hrender.2]
    exact ⟨rfl, (List.getElem?_eq_some_iff.mp hentry).1⟩
  rw [List.Nodup, List.pairwise_filterMap]
  refine timelineParts_pairwise.imp_of_mem ?_
  intro first second hfirst _ hle key hkey other hother
  obtain ⟨hfirstId, hlength⟩ := hunread first.1 key hkey
  obtain ⟨hsecondId, -⟩ := hunread second.1 other hother
  have hlt := (timelineParts_bounds first hfirst).1
  have hsame : first.1 = second.1 :=
    (List.getElem?_inj (by rwa [List.length_map]) hids).mp (hfirstId.trans hsecondId.symm)
  omega

/-- An entry whose key a row has. -/
def HeadsRow (runtime : Runtime) (entries : List MainTimelineEntry)
    (firstUnreadMessageId : Option String) (entry : MainTimelineEntry) : Prop :=
  ∃ part ∈ timelineParts runtime entries firstUnreadMessageId, newestOf entries part = some entry

/-- No day section comes back, and no row has the key of a divider. -/
structure KeysApart (runtime : Runtime) (entries : List MainTimelineEntry)
    (firstUnreadMessageId : Option String) : Prop where
  days : ((buildDayGroupBoundaries runtime (entries.map MainTimelineEntry.message)).map
    DayGroupBoundary.key).Nodup
  dayRows : ∀ boundary ∈ buildDayGroupBoundaries runtime (entries.map MainTimelineEntry.message),
    ∀ entry, HeadsRow runtime entries firstUnreadMessageId entry →
      boundary.key ≠ entryRenderKey entry
  unreadRows : ∀ part ∈ timelineParts runtime entries firstUnreadMessageId, ∀ key,
    unreadKeyAt entries firstUnreadMessageId part.1 = some key →
    ∀ entry, HeadsRow runtime entries firstUnreadMessageId entry → key ≠ entryRenderKey entry

theorem keys_perm : ((buildTimelineItems runtime entries firstUnreadMessageId).map
      getTimelineItemKey).Perm
    ((buildDayGroupBoundaries runtime (entries.map MainTimelineEntry.message)).map
        DayGroupBoundary.key ++
      ((timelineParts runtime entries firstUnreadMessageId).filterMap fun part =>
        unreadKeyAt entries firstUnreadMessageId part.1) ++
      ((timelineParts runtime entries firstUnreadMessageId).filterMap (newestOf entries)).map
        entryRenderKey) := by
  rw [keys_eq, ← @days_eq runtime entries firstUnreadMessageId, List.map_filterMap,
    List.filterMap_eq_flatMap_toList, List.filterMap_eq_flatMap_toList]
  refine (List.flatMap_append_perm _ _ _).symm.trans ?_
  exact (List.flatMap_append_perm _ _ _).symm.append_right _

theorem day_ne_unread (first second : String) : "day-" ++ first ≠ "unread-" ++ second := by
  intro h
  have hlists := congrArg String.toList h
  rw [String.toList_append, String.toList_append] at hlists
  simp at hlists

/-- The keys of the items are distinct if and only if those of the dividers are apart. -/
theorem keys_nodup_iff (hids : (entries.map fun entry => entry.message.id).Nodup)
    (hkeys : (entries.map entryRenderKey).Nodup) :
    ((buildTimelineItems runtime entries firstUnreadMessageId).map getTimelineItemKey).Nodup ↔
      KeysApart runtime entries firstUnreadMessageId := by
  have hunread := @unread_nodup runtime entries firstUnreadMessageId hids
  have hrows : (((timelineParts runtime entries firstUnreadMessageId).filterMap
      (newestOf entries)).map entryRenderKey).Nodup := by
    have hsub := (@newest_sublist runtime entries
      (barrierIndexes runtime entries firstUnreadMessageId) entries.length).map entryRenderKey
    rw [List.take_length] at hsub
    exact hsub.nodup hkeys
  rw [keys_perm.nodup_iff, List.nodup_append, List.nodup_append]
  have hdayUnread : ∀ day ∈ (buildDayGroupBoundaries runtime
      (entries.map MainTimelineEntry.message)).map DayGroupBoundary.key,
      ∀ key ∈ (timelineParts runtime entries firstUnreadMessageId).filterMap (fun part =>
        unreadKeyAt entries firstUnreadMessageId part.1), day ≠ key := by
    intro day hday key hkey
    rw [map_key] at hday
    obtain ⟨⟨i, day⟩, hsection, rfl⟩ := List.mem_map.mp hday
    obtain ⟨message, -, -, rfl⟩ := mem_daySections.mp hsection
    obtain ⟨part, -, hpart⟩ := List.mem_filterMap.mp hkey
    obtain ⟨entry, -, hshown⟩ := Option.bind_eq_some_iff.mp hpart
    split_ifs at hshown
    obtain rfl := Option.some.inj hshown
    exact day_ne_unread _ _
  constructor
  · rintro ⟨⟨hdays, -, -⟩, -, hapart⟩
    refine ⟨hdays, ?_, ?_⟩
    · rintro boundary hboundary entry ⟨part, hpart, hnewest⟩
      exact hapart _ (List.mem_append_left _ (List.mem_map_of_mem hboundary)) _
        (List.mem_map_of_mem (List.mem_filterMap.mpr ⟨part, hpart, hnewest⟩))
    · rintro part hpart key hkey entry ⟨other, hother, hnewest⟩
      exact hapart _ (List.mem_append_right _ (List.mem_filterMap.mpr ⟨part, hpart, hkey⟩)) _
        (List.mem_map_of_mem (List.mem_filterMap.mpr ⟨other, hother, hnewest⟩))
  · intro h
    refine ⟨⟨h.days, hunread, hdayUnread⟩, hrows, ?_⟩
    intro key hkey row hrow
    obtain ⟨entry, hentry, rfl⟩ := List.mem_map.mp hrow
    obtain ⟨part, hpart, hnewest⟩ := List.mem_filterMap.mp hentry
    rcases List.mem_append.mp hkey with hday | hkey
    · obtain ⟨boundary, hboundary, rfl⟩ := List.mem_map.mp hday
      exact h.dayRows boundary hboundary entry ⟨part, hpart, hnewest⟩
    · obtain ⟨other, hother, hkey⟩ := List.mem_filterMap.mp hkey
      exact h.unreadRows other hother key hkey entry ⟨part, hpart, hnewest⟩

end Keys

section Prepend

variable {runtime : Runtime} {older entries : List MainTimelineEntry} {before after : Finset ℕ}
  {newestEntry : MainTimelineEntry} {newestPayload : MembershipChangePayload}

/-- The barriers of the entries below the first of them stay under older entries. -/
def BarriersStay (older : List MainTimelineEntry) (before after : Finset ℕ) : Prop :=
  ∀ i, older.length + (i + 1) ∈ after ↔ i + 1 ∈ before

theorem mem_barrierIndexes {i : ℕ} : i ∈ barrierIndexes runtime entries none ↔
    opensDay runtime (entries.map MainTimelineEntry.message) i = true := by
  constructor
  · intro h
    have hmem : i ∈ ((buildDayGroupBoundaries runtime (entries.map
        MainTimelineEntry.message)).map DayGroupBoundary.startIndex).toFinset := h
    rw [List.mem_toFinset, map_startIndex] at hmem
    obtain ⟨⟨j, key⟩, hsection, rfl⟩ := List.mem_map.mp hmem
    obtain ⟨-, -, hopens, -⟩ := mem_daySections.mp hsection
    exact hopens
  · exact fun h => days_subset (mem_days h)

theorem barriersStay (runtime : Runtime) (older entries : List MainTimelineEntry) :
    BarriersStay older (barrierIndexes runtime entries none)
      (barrierIndexes runtime (older ++ entries) none) := by
  intro i
  have hindex : ∀ j, (older.map MainTimelineEntry.message ++
      entries.map MainTimelineEntry.message)[older.length + j]? =
        (entries.map MainTimelineEntry.message)[j]? := by
    intro j
    rw [List.getElem?_append_right (by simp)]
    congr 1
    simp
  rw [mem_barrierIndexes, mem_barrierIndexes, List.map_append]
  unfold opensDay
  rw [hindex, ← Nat.add_assoc]
  cases (entries.map MainTimelineEntry.message)[i + 1]? with
  | none => rfl
  | some message =>
      dsimp only
      rw [hindex]

theorem getElem?_prepend (i : ℕ) : (older ++ entries)[older.length + i]? = entries[i]? := by
  rw [List.getElem?_append_right (Nat.le_add_right _ _), Nat.add_sub_cancel_left]

/-- A group stays, unless it is the oldest one. -/
theorem groupStart_prepend (hstay : BarriersStay older before after) (last : ℕ) :
    (0 < groupStart runtime entries before newestEntry newestPayload last →
      groupStart runtime (older ++ entries) after newestEntry newestPayload
        (older.length + last) =
          older.length + groupStart runtime entries before newestEntry newestPayload last) ∧
    (groupStart runtime entries before newestEntry newestPayload last = 0 →
      groupStart runtime (older ++ entries) after newestEntry newestPayload
        (older.length + last) ≤ older.length) := by
  induction last with
  | zero => exact ⟨fun h => absurd h (lt_irrefl 0), fun _ => groupStart_le _⟩
  | succ start ih =>
      have hget := @getElem?_prepend older entries start
      have hbarrier := hstay start
      rw [← Nat.add_assoc] at hbarrier ⊢
      simp only [groupStart, hget, hbarrier]
      cases entries[start]? with
      | none => exact ⟨fun _ => Nat.add_assoc _ _ _, fun h => absurd h (Nat.succ_ne_zero _)⟩
      | some candidate =>
          dsimp only
          by_cases hstop : start + 1 ∈ before ∨
            ¬joinsGroup runtime newestEntry newestPayload candidate
          · rw [if_pos hstop, if_pos hstop]
            exact ⟨fun _ => Nat.add_assoc _ _ _, fun h => absurd h (Nat.succ_ne_zero _)⟩
          · rw [if_neg hstop, if_neg hstop]
            exact ih

theorem partStart_prepend (hstay : BarriersStay older before after) (last : ℕ) :
    (0 < partStart runtime entries before last →
      partStart runtime (older ++ entries) after (older.length + last) =
        older.length + partStart runtime entries before last) ∧
    (partStart runtime entries before last = 0 →
      partStart runtime (older ++ entries) after (older.length + last) ≤ older.length) := by
  unfold partStart
  rw [getElem?_prepend]
  cases entries[last]? with
  | none => exact ⟨fun _ => rfl, fun h => (congrArg (older.length + ·) h).le⟩
  | some newestEntry =>
      dsimp only
      cases parseMembershipChangePayload runtime newestEntry with
      | none => exact ⟨fun _ => rfl, fun h => (congrArg (older.length + ·) h).le⟩
      | some newestPayload => exact groupStart_prepend hstay last

/-- Under older entries the parts stay, with the oldest of them extended. -/
theorem parts_prepend (hstay : BarriersStay older before after) (left : ℕ) : 0 < left →
    ∃ newer stop start, 0 < stop ∧ start ≤ older.length ∧
      parts runtime entries before left = newer ++ [(0, stop)] ∧
      parts runtime (older ++ entries) after (older.length + left) =
        newer.map (fun part => (older.length + part.1, older.length + part.2)) ++
          (start, older.length + stop) :: parts runtime (older ++ entries) after start := by
  induction left using Nat.strong_induction_on with
  | _ left ih =>
      intro hpos
      cases left with
      | zero => omega
      | succ last =>
          obtain ⟨hkeep, hextend⟩ := @partStart_prepend runtime older entries before after
            hstay last
          rw [← Nat.add_assoc, parts_succ, parts_succ]
          by_cases hstart : partStart runtime entries before last = 0
          · refine ⟨[], last + 1, _, Nat.succ_pos _, hextend hstart, ?_, rfl⟩
            rw [hstart, parts_zero]
            rfl
          · have hlt := Nat.lt_succ_of_le (@partStart_le runtime entries before last)
            obtain ⟨newer, stop, start, hstop, hle, hparts, hafter⟩ :=
              ih _ hlt (Nat.pos_of_ne_zero hstart)
            refine ⟨(partStart runtime entries before last, last + 1) :: newer, stop, start, hstop,
              hle, ?_, ?_⟩
            · rw [hparts]
              rfl
            · rw [hkeep (Nat.pos_of_ne_zero hstart), hafter]
              rfl

theorem slice_prepend (start stop : ℕ) :
    slice (older ++ entries) (older.length + start) (older.length + stop) =
      slice entries start stop := by
  rw [slice, slice, List.take_length_add_append, List.drop_length_add_append]

theorem slice_prepend_across {start : ℕ} (hle : start ≤ older.length) (stop : ℕ) :
    slice (older ++ entries) start (older.length + stop) =
      older.drop start ++ slice entries 0 stop := by
  rw [slice, slice, List.take_length_add_append, List.drop_append_of_le_length hle, List.drop_zero]

theorem newestOf_prepend (part : ℕ × ℕ) (start : ℕ) (hpos : 0 < part.2) :
    newestOf (older ++ entries) (start, older.length + part.2) = newestOf entries part := by
  have hindex : older.length + part.2 - 1 = older.length + (part.2 - 1) := by omega
  unfold newestOf
  rw [hindex, getElem?_prepend]

/-- The keys of the items that are not dividers. -/
def rowKeys (items : List TimelineItem) : List String :=
  (items.filter fun item => (rowEntries item).isSome).map getTimelineItemKey

theorem rowKeys_eq {firstUnreadMessageId : Option String} :
    rowKeys (buildTimelineItems runtime entries firstUnreadMessageId) =
      (timelineParts runtime entries firstUnreadMessageId).flatMap fun part =>
        ((newestOf entries part).map entryRenderKey).toList := by
  have hkeys : ∀ items : List TimelineItem, rowKeys items = items.flatMap fun item =>
      ((rowEntries item).map fun _ => getTimelineItemKey item).toList := by
    intro items
    induction items with
    | nil => rfl
    | cons item items ih =>
        rw [List.flatMap_cons, ← ih, rowKeys]
        cases hrow : rowEntries item with
        | none => rw [List.filter_cons_of_neg (by simp [hrow])]; rfl
        | some row => rw [List.filter_cons_of_pos (by simp [hrow])]; rfl
  rw [hkeys, flatMap_buildTimelineItems fun item => by
    rw [rowEntries_plain, getTimelineItemKey_plain]]
  apply List.flatMap_congr
  intro part hpart
  obtain ⟨entry, hentry⟩ := entry_of_part hpart
  obtain ⟨hlt, hlength⟩ := timelineParts_bounds part hpart
  have hdividers := rowEntries_dividers (timelinePlan runtime entries firstUnreadMessageId) part.1
    entry
  rw [List.filterMap_eq_nil_iff] at hdividers
  have hnone : (((timelinePlan runtime entries firstUnreadMessageId).dividers part.1
      entry).flatMap fun item =>
        ((rowEntries item).map fun _ => getTimelineItemKey item).toList) = [] := by
    rw [List.flatMap_eq_nil_iff]
    intro item hitem
    rw [hdividers item hitem]
    rfl
  rw [partItems_eq hentry, List.flatMap_append, hnone, List.nil_append, List.flatMap_singleton,
    rowEntries_rowItem hlt hentry, ← key_rowItem hlt hlength hentry]
  rfl

/-- Under older entries the rows stay, and the oldest may be extended by changes of the members. -/
structure PrependStable (runtime : Runtime) (older entries : List MainTimelineEntry) : Prop where
  keys : rowKeys (buildTimelineItems runtime entries none) <:+
    rowKeys (buildTimelineItems runtime (older ++ entries) none)
  rows : ∀ oldest rest,
    (buildTimelineItems runtime entries none).filterMap rowEntries = oldest :: rest →
    ∃ front added, (buildTimelineItems runtime (older ++ entries) none).filterMap rowEntries =
        front ++ (added ++ oldest) :: rest ∧
      (added ≠ [] → ∀ entry ∈ oldest, ∃ payload,
        parseMembershipChangePayload runtime entry = some payload)

/-- The parts under older entries. -/
theorem timelineParts_prepend (hpos : 0 < entries.length) :
    ∃ front start stop newer, start ≤ older.length ∧ 0 < stop ∧
      timelineParts runtime entries none = (0, stop) :: newer ∧
      timelineParts runtime (older ++ entries) none =
        front ++ (start, older.length + stop) ::
          newer.map fun part => (older.length + part.1, older.length + part.2) := by
  obtain ⟨newer, stop, start, hstop, hle, hparts, hafter⟩ :=
    parts_prepend (barriersStay runtime older entries) entries.length hpos
  refine ⟨(parts runtime (older ++ entries) (barrierIndexes runtime (older ++ entries) none)
    start).reverse, start, stop, newer.reverse, hle, hstop, ?_, ?_⟩
  · rw [timelineParts, hparts, List.reverse_append]
    rfl
  · rw [timelineParts, List.length_append, hafter]
    simp

theorem prependStable (runtime : Runtime) (older entries : List MainTimelineEntry) :
    PrependStable runtime older entries := by
  rcases Nat.eq_zero_or_pos entries.length with hnone | hpos
  · obtain rfl := List.length_eq_zero_iff.mp hnone
    refine ⟨List.nil_suffix, ?_⟩
    rintro oldest rest hrows
    cases hrows
  obtain ⟨front, start, stop, newer, hle, hstop, hparts, hafter⟩ :=
    @timelineParts_prepend runtime older entries hpos
  have hbounds : ∀ part ∈ newer, 0 < part.2 := by
    intro part hpart
    have hlt := (timelineParts_bounds part (hparts ▸ List.mem_cons_of_mem _ hpart)).1
    omega
  constructor
  · rw [rowKeys_eq, rowKeys_eq, hparts, hafter, List.flatMap_append, List.flatMap_cons,
      List.flatMap_cons, newestOf_prepend (0, stop) start hstop, List.flatMap_map]
    have hnewer : (newer.flatMap fun part => ((newestOf (older ++ entries)
        (older.length + part.1, older.length + part.2)).map entryRenderKey).toList) =
        newer.flatMap fun part => ((newestOf entries part).map entryRenderKey).toList := by
      apply List.flatMap_congr
      intro part hpart
      rw [newestOf_prepend part _ (hbounds part hpart)]
    rw [hnewer]
    exact List.suffix_append _ _
  · intro oldest rest hrows
    rw [rows_eq, hparts, List.map_cons] at hrows
    obtain ⟨rfl, rfl⟩ := List.cons.inj hrows
    refine ⟨front.map fun part => slice (older ++ entries) part.1 part.2, older.drop start, ?_, ?_⟩
    · rw [rows_eq, hafter, List.map_append, List.map_cons, List.map_map]
      dsimp only
      rw [slice_prepend_across hle]
      congr 2
      apply List.map_congr_left
      intro part _
      exact slice_prepend part.1 part.2
    · intro hadded entry hentry
      have hlt : start < older.length := by
        by_contra hge
        exact hadded (List.drop_eq_nil_of_le (Nat.le_of_not_lt hge))
      rw [slice, List.drop_zero] at hentry
      obtain ⟨i, hi, hget⟩ := List.mem_take_iff_getElem.mp hentry
      have hinside : (start, older.length + stop) ∈ timelineParts runtime (older ++ entries) none :=
        hafter ▸ List.mem_append_right _ List.mem_cons_self
      obtain ⟨found, payload, hfound, hparse⟩ := (parts_inside _ _ (List.mem_reverse.mp hinside)
        (by dsimp only; omega)).1 (older.length + i) (by dsimp only; omega)
        (by dsimp only; omega)
      have hsame : found = entry := by
        rw [getElem?_prepend, List.getElem?_eq_getElem (by omega), hget] at hfound
        exact (Option.some.inj hfound).symm
      exact ⟨payload, hsame ▸ hparse⟩

/-- The rows are lossless and stable under older entries, with distinct keys, if and only if the
keys of the dividers are apart. -/
theorem timeline_rows_iff (runtime : Runtime) (entries : List MainTimelineEntry)
    (firstUnreadMessageId : Option String)
    (hids : (entries.map fun entry => entry.message.id).Nodup)
    (hkeys : (entries.map entryRenderKey).Nodup) :
    (((buildTimelineItems runtime entries firstUnreadMessageId).filterMap rowEntries).flatten =
        entries ∧
      ((buildTimelineItems runtime entries firstUnreadMessageId).map getTimelineItemKey).Nodup ∧
      ∀ older, PrependStable runtime older entries) ↔
    KeysApart runtime entries firstUnreadMessageId := by
  constructor
  · rintro ⟨-, hnodup, -⟩
    exact (keys_nodup_iff hids hkeys).mp hnodup
  · intro h
    exact ⟨rows_flatten, (keys_nodup_iff hids hkeys).mpr h,
      fun older => prependStable runtime older entries⟩

/-- The runtime in January 1970, at a place without an offset. -/
def january1970 : Runtime where
  localDate unixSeconds := some (1970, 0, (unixSeconds / 86400).toNat + 1)
  midnight date := some ((date.2.2 - 1 : ℤ) * 86400)
  toLowerCase text := text.map Char.toLower

def posted (id : String) (renderKey : Option String) (createdAt : ℤ) : MainTimelineEntry :=
  ⟨⟨id, renderKey, createdAt, some "p", "p", none, "hi", none, 0, none⟩, none⟩

theorem timeline_rows_iff_posted :
    (([posted "a" none 10, posted "b" (some "r") 86400].map fun entry =>
        entry.message.id).Nodup ∧
      ([posted "a" none 10, posted "b" (some "r") 86400].map entryRenderKey).Nodup) ∧
    ((((buildTimelineItems january1970 [posted "a" none 10, posted "b" (some "r") 86400]
          (some "b")).filterMap rowEntries).flatten =
        [posted "a" none 10, posted "b" (some "r") 86400] ∧
      ((buildTimelineItems january1970 [posted "a" none 10, posted "b" (some "r") 86400]
        (some "b")).map getTimelineItemKey).Nodup ∧
      ∀ older, PrependStable january1970 older
        [posted "a" none 10, posted "b" (some "r") 86400]) ↔
    KeysApart january1970 [posted "a" none 10, posted "b" (some "r") 86400] (some "b")) :=
  ⟨⟨by decide, by decide⟩, timeline_rows_iff january1970 _ (some "b") (by decide) (by decide)⟩

/-- A sender whose message has the name of the day divider doubles its key. -/
theorem day_key_taken :
    [posted "a" none 10, posted "b" (some "day-0") 20].Pairwise (fun first second =>
        first.message.createdAt ≤ second.message.createdAt) ∧
      ([posted "a" none 10, posted "b" (some "day-0") 20].map fun entry =>
        entry.message.id).Nodup ∧
      ([posted "a" none 10, posted "b" (some "day-0") 20].map entryRenderKey).Nodup ∧
      ¬((buildTimelineItems january1970 [posted "a" none 10, posted "b" (some "day-0") 20]
        none).map getTimelineItemKey).Nodup := by
  refine ⟨by decide, by decide, by decide, ?_⟩
  decide +kernel

end Prepend

end Buzz.Thread
