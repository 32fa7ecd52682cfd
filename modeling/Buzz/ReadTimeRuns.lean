import Buzz.ReadTimes

/-!
# Runs of the read markers with any times

As long as the marks that advance are dates, every marker in memory has a text, and each mark stores
the channels and tells the listeners. The first mark beyond every date is never stored.
-/

namespace Buzz.ReadTimes

open DoubleRounding

section Dates

variable {moment other : FiniteNumber} {time : TimeValue}

theorem dateOf_eq_some_iff : dateOf moment = some time ↔
    IsDate moment ∧ time.ms = truncate (toDouble (moment.value * 1000)) := by
  unfold dateOf
  split_ifs with hdate
  · rw [Option.some_inj]
    constructor
    · rintro rfl
      exact ⟨hdate, rfl⟩
    · rintro ⟨-, hms⟩
      cases time with
      | mk ms isDate =>
          obtain rfl : ms = _ := hms
          rfl
  · exact iff_of_false (fun h => by cases h) fun h => hdate h.1

theorem exists_dateOf_iff : (∃ time, dateOf moment = some time) ↔ IsDate moment := by
  constructor
  · rintro ⟨time, htime⟩
    exact (dateOf_eq_some_iff.mp htime).1
  · intro hdate
    exact ⟨_, dif_pos hdate⟩

/-- What is not later than a date is a date. -/
theorem isDate_of_le (hpos : 0 ≤ other.value) (hle : other.value ≤ moment.value)
    (hdate : IsDate moment) : IsDate other := by
  have hmono := toDouble_mono (mul_nonneg hpos (by norm_num : (0 : ℚ) ≤ 1000))
    (mul_le_mul_of_nonneg_right hle (by norm_num))
  have hnonneg := toDouble_nonneg (mul_nonneg hpos (by norm_num : (0 : ℚ) ≤ 1000))
  unfold IsDate at hdate ⊢
  rw [abs_of_nonneg hnonneg]
  exact hmono.trans ((le_abs_self _).trans hdate)

/-- A whole number below the greatest whole doubles is one. -/
theorem toDouble_intCast {n : ℤ} (hpos : 0 < n) (hless : n < 2 ^ 53) : toDouble n = n := by
  have hcast : (0 : ℚ) < n := by exact_mod_cast hpos
  have hunit := unitExponent_nonpos hcast (by exact_mod_cast hless)
  have hgrid := intCast_eq_unit hunit n
  exact le_antisymm (toDouble_le hgrid le_rfl) (le_toDouble hgrid le_rfl)

/-- A moment that is no date is later than whatever the clock shows. -/
theorem late_of_not_date (hpos : 0 ≤ moment.value) (hdate : ¬IsDate moment) (now : TimeValue) :
    (now.ms : ℚ) < moment.value * 1000 := by
  by_contra hle
  have hnow := (abs_le.mp now.isDate).2
  have hmono := toDouble_mono (mul_nonneg hpos (by norm_num : (0 : ℚ) ≤ 1000))
    ((not_lt.mp hle).trans (Int.cast_le.mpr hnow))
  rw [toDouble_intCast (by norm_num) (by norm_num)] at hmono
  refine hdate ?_
  unfold IsDate
  rwa [abs_of_nonneg (toDouble_nonneg (mul_nonneg hpos (by norm_num)))]

/-- The seconds of the date of a moment are the whole seconds of the moment. -/
theorem seconds_of_dateOf (hpos : 0 < moment.value) (h : dateOf moment = some time) :
    time.ms / 1000 = ⌊moment.value⌋ := by
  obtain ⟨hdate, hms⟩ := dateOf_eq_some_iff.mp h
  have hless : moment.value * 1000 < 2 ^ 53 := by
    by_contra hle
    have hgrid : toDouble ((8640000000000001 : ℤ) : ℚ) ≤ toDouble (moment.value * 1000) :=
      toDouble_mono (by norm_num) (le_trans (by norm_num) (not_lt.mp hle))
    rw [toDouble_intCast (by norm_num) (by norm_num)] at hgrid
    have hbound := (le_abs_self _).trans hdate
    norm_num at hgrid hbound
    linarith
  obtain ⟨hlow, hhigh⟩ := toDouble_thousand hpos moment.isDouble hless
  have hfloor := Int.floor_nonneg.mpr hpos.le
  have hnonneg : 0 ≤ toDouble (moment.value * 1000) := toDouble_nonneg (by linarith)
  have htruncate : time.ms = ⌊toDouble (moment.value * 1000)⌋ := by
    rw [hms, truncate, if_pos hnonneg]
  have hbelow : ⌊moment.value⌋ * 1000 ≤ time.ms := by
    rw [htruncate, Int.le_floor]
    exact_mod_cast hlow
  have habove : time.ms < (⌊moment.value⌋ + 1) * 1000 := by
    rw [htruncate, Int.floor_lt]
    exact_mod_cast hhigh
  omega

/-- The whole seconds of a date are a date. -/
theorem isDate_seconds (hpos : 0 < (localIsoToUnixSeconds time).value) :
    IsDate (localIsoToUnixSeconds time) := by
  have htime := (abs_le.mp time.isDate).2
  have hsecond : (0 : ℤ) < time.ms / 1000 := by
    have hcast : (0 : ℚ) < ((time.ms / 1000 : ℤ) : ℚ) := hpos
    exact_mod_cast hcast
  have hproduct : (localIsoToUnixSeconds time).value * 1000 =
      ((time.ms / 1000 * 1000 : ℤ) : ℚ) := by
    rw [localIsoToUnixSeconds]
    push_cast
    rfl
  have hexact : toDouble (((time.ms / 1000 * 1000 : ℤ)) : ℚ) =
      ((time.ms / 1000 * 1000 : ℤ) : ℚ) :=
    toDouble_intCast (by omega) (by omega)
  rw [IsDate, hproduct, hexact, abs_of_pos (by exact_mod_cast (by omega :
    (0 : ℤ) < time.ms / 1000 * 1000))]
  exact_mod_cast (by omega : time.ms / 1000 * 1000 ≤ 8640000000000000)

end Dates

section Storage

variable {contexts : Contexts} {stored record : StoredRecord} {contextId key : String}
  {moment : FiniteNumber} {now time : TimeValue} {entries : List (String × FiniteNumber)}

theorem own_of_get? (h : contexts.get? contextId = some moment) :
    contexts.own contextId = moment.value := by
  rw [Contexts.own, h]
  rfl

theorem own_set (value : FiniteNumber) : Contexts.own (contexts.set key value) contextId =
    if contextId = key then value.value else contexts.own contextId := by
  unfold Contexts.own
  rw [EntryMap.get?_set]
  split_ifs
  · rfl
  · rfl

/-- The milliseconds of a stored record. -/
def milliseconds (stored : StoredRecord) : ReadState.StoredRecord :=
  stored.map fun entry => (entry.1, entry.2.map TimeValue.ms)

theorem own_foldl_mergeEntry (stored : StoredRecord) :
    ∀ (contexts : Contexts) (seconds : ReadState.Contexts),
      (∀ contextId, contexts.own contextId = (seconds.own contextId : ℚ)) → ∀ contextId,
      Contexts.own (stored.foldl mergeEntry contexts) contextId =
        (ReadState.Contexts.own ((milliseconds stored).foldl ReadState.mergeEntry seconds)
          contextId : ℚ) := by
  induction stored with
  | nil => exact fun _ _ h => h
  | cons entry stored ih =>
      intro contexts seconds h
      refine ih (mergeEntry contexts entry)
        (ReadState.mergeEntry seconds (entry.1, entry.2.map TimeValue.ms)) ?_
      intro contextId
      unfold mergeEntry ReadState.mergeEntry
      cases entry.2 with
      | none => exact h contextId
      | some time =>
          have hless : contexts.own entry.1 < (localIsoToUnixSeconds time).value ↔
              seconds.own entry.1 < time.ms / 1000 := by
            rw [h entry.1, localIsoToUnixSeconds]
            exact Int.cast_lt
          simp only [Option.map_some, hless]
          split_ifs
          · rw [own_set, ReadState.own_set]
            split_ifs
            · rfl
            · exact h contextId
          · exact h contextId

/-- Read back are the whole seconds of the milliseconds. -/
theorem own_readStored (stored : StoredRecord) (contextId : String) :
    (readStoredReadState stored).own contextId =
      ((ReadState.readStoredReadState (milliseconds stored)).own contextId : ℚ) := by
  refine own_foldl_mergeEntry stored EntryMap.empty EntryMap.empty ?_ contextId
  intro other
  exact Int.cast_zero.symm

theorem textsOf_isSome_iff : (∃ record, textsOf entries = some record) ↔
    ∀ entry ∈ entries, IsDate entry.2 := by
  induction entries with
  | nil => exact iff_of_true ⟨[], rfl⟩ fun _ h => absurd h List.not_mem_nil
  | cons entry entries ih =>
      rw [List.forall_mem_cons, ← ih, ← exists_dateOf_iff, textsOf]
      cases dateOf entry.2 with
      | none =>
          refine iff_of_false ?_ ?_
          · rintro ⟨record, hrecord⟩
            cases hrecord
          · rintro ⟨⟨time, htime⟩, -⟩
            cases htime
      | some time =>
          constructor
          · rintro ⟨record, hrecord⟩
            obtain ⟨rest, hrest, -⟩ := Option.map_eq_some_iff.mp hrecord
            exact ⟨⟨time, rfl⟩, rest, hrest⟩
          · rintro ⟨-, rest, hrest⟩
            exact ⟨_, by rw [hrest]; rfl⟩

theorem mem_textsOf (h : textsOf entries = some record) : (contextId, some time) ∈ record ↔
    ∃ moment, (contextId, moment) ∈ entries ∧ dateOf moment = some time := by
  induction entries generalizing record with
  | nil =>
      obtain rfl := Option.some.inj h
      simp
  | cons entry entries ih =>
      rw [textsOf] at h
      cases hdate : dateOf entry.2 with
      | none =>
          rw [hdate] at h
          cases h
      | some date =>
          rw [hdate] at h
          obtain ⟨rest, hrest, rfl⟩ := Option.map_eq_some_iff.mp h
          rw [List.mem_cons, ih hrest]
          constructor
          · rintro (heq | ⟨moment, hmem, htime⟩)
            · obtain ⟨rfl, hsame⟩ := Prod.mk.inj heq
              obtain rfl := Option.some.inj hsame
              exact ⟨entry.2, List.mem_cons_self, hdate⟩
            · exact ⟨moment, List.mem_cons_of_mem _ hmem, htime⟩
          · rintro ⟨moment, hmem, htime⟩
            rcases List.mem_cons.mp hmem with rfl | hmem
            · rw [hdate] at htime
              obtain rfl := Option.some.inj htime
              exact Or.inl rfl
            · exact Or.inr ⟨moment, hmem, htime⟩

theorem mem_of_mem_prune {entry : String × FiniteNumber}
    (h : entry ∈ pruneStaleContexts entries now) : entry ∈ entries := by
  simp only [pruneStaleContexts] at h
  split_ifs at h
  · rcases List.mem_append.mp h with h | h
    · exact (List.mem_filter.mp h).1
    · exact (List.mem_filter.mp (List.mem_mergeSort.mp (List.mem_of_mem_take h))).1
  · rcases List.mem_append.mp h with h | h
    · exact (List.mem_filter.mp h).1
    · exact (List.mem_filter.mp h).1

theorem mem_prune_of_channel {entry : String × FiniteNumber} (h : entry ∈ entries)
    (hchannel : ReadState.isPrunableContextKey entry.1 = false) :
    entry ∈ pruneStaleContexts entries now := by
  have hkept : entry ∈ entries.filter fun entry => !ReadState.isPrunableContextKey entry.1 :=
    List.mem_filter.mpr ⟨h, by simp [hchannel]⟩
  simp only [pruneStaleContexts]
  split_ifs
  · exact List.mem_append_left _ hkept
  · exact List.mem_append_left _ hkept

theorem mem_of_written (h : writeStoredReadState contexts now = some record) :
    (contextId, some time) ∈ record ↔ contextId ≠ ReadState.protoKey ∧
      ∃ moment, (contextId, moment) ∈ pruneStaleContexts contexts.entries now ∧
        dateOf moment = some time := by
  obtain ⟨texts, htexts, rfl⟩ := Option.map_eq_some_iff.mp h
  rw [List.mem_filter, decide_eq_true_iff, mem_textsOf htexts, and_comm]

/-- What is recent is kept, or something later is. -/
theorem exists_later_in_prune {entry : String × FiniteNumber} (h : entry ∈ entries)
    (hrecent : (cutoff now : ℚ) ≤ entry.2.value) :
    ∃ found ∈ pruneStaleContexts entries now, entry.2.value ≤ found.2.value := by
  cases hprunable : ReadState.isPrunableContextKey entry.1 with
  | false => exact ⟨entry, mem_prune_of_channel h hprunable, le_rfl⟩
  | true =>
      have hmem : entry ∈ entries.filter fun entry =>
          ReadState.isPrunableContextKey entry.1 && decide ((cutoff now : ℚ) ≤ entry.2.value) :=
        List.mem_filter.mpr ⟨h, by simp [hprunable, hrecent]⟩
      simp only [pruneStaleContexts]
      split_ifs with hmany
      · set sorted := (entries.filter fun entry => ReadState.isPrunableContextKey entry.1 &&
          decide ((cutoff now : ℚ) ≤ entry.2.value)).mergeSort fun left right =>
            decide (right.2.value ≤ left.2.value) with hsorted
        have hpairwise : sorted.Pairwise fun left right => right.2.value ≤ left.2.value := by
          have hsort := @List.pairwise_mergeSort _
            (fun left right : String × FiniteNumber => decide (right.2.value ≤ left.2.value))
            (fun a b c hab hbc => decide_eq_true ((of_decide_eq_true hbc).trans
              (of_decide_eq_true hab)))
            (fun a b => by simpa using le_total b.2.value a.2.value)
            (entries.filter fun entry => ReadState.isPrunableContextKey entry.1 &&
              decide ((cutoff now : ℚ) ≤ entry.2.value))
          exact hsort.imp fun hle => of_decide_eq_true hle
        have hsplit : entry ∈ sorted := List.mem_mergeSort.mpr hmem
        rw [← List.take_append_drop ReadState.localMaxPrunableContexts sorted] at hsplit hpairwise
        rcases List.mem_append.mp hsplit with htaken | hdropped
        · exact ⟨entry, List.mem_append_right _ htaken, le_rfl⟩
        · obtain ⟨found, hfound⟩ : ∃ found,
              found ∈ sorted.take ReadState.localMaxPrunableContexts := by
            refine List.exists_mem_of_ne_nil _ (List.ne_nil_of_length_pos ?_)
            rw [List.length_take, hsorted, List.length_mergeSort]
            exact lt_min (by decide) (lt_trans (by decide) hmany)
          exact ⟨found, List.mem_append_right _ hfound,
            (List.pairwise_append.mp hpairwise).2.2 found hfound entry hdropped⟩
      · exact ⟨entry, List.mem_append_right _ hmem, le_rfl⟩

/-- A write that goes through has a date for every positive marker. -/
theorem isDate_of_written (h : writeStoredReadState contexts now = some record)
    (hget : contexts.get? contextId = some moment) (hpos : 0 < moment.value) : IsDate moment := by
  by_contra hdate
  have hlate := late_of_not_date hpos.le hdate now
  have hmem := EntryMap.get?_eq_some_iff.mp hget
  have hrecent : (cutoff now : ℚ) ≤ moment.value := by
    have hcutoff : cutoff now * 1000 ≤ now.ms := by
      have hhorizon : (0 : ℤ) ≤ ReadState.readStateHorizonSeconds := by decide
      unfold cutoff
      omega
    have hcast : (cutoff now : ℚ) * 1000 ≤ now.ms := by exact_mod_cast hcutoff
    linarith
  obtain ⟨found, hfound, hle⟩ := exists_later_in_prune hmem hrecent
  obtain ⟨texts, htexts, -⟩ := Option.map_eq_some_iff.mp h
  exact hdate (isDate_of_le hpos.le hle (textsOf_isSome_iff.mp ⟨texts, htexts⟩ found hfound))

end Storage

section Runs

variable {contexts : Contexts} {stored record : StoredRecord} {contextId : String}
  {moment : FiniteNumber} {now : TimeValue} {world : ReadTimeWorld} {call : ReadTimeCall}

/-- A context in memory is stored with its date, whose seconds are read back. -/
def StoredAs (contexts : Contexts) (stored : StoredRecord) (contextId : String) : Prop :=
  ∀ moment, contexts.get? contextId = some moment → ∃ time, dateOf moment = some time ∧
    (contextId, some time) ∈ stored ∧ (readStoredReadState stored).own contextId = ⌊moment.value⌋

/-- Every channel in memory is stored. -/
def Stored (contexts : Contexts) (stored : StoredRecord) : Prop :=
  ∀ contextId, ReadState.isPrunableContextKey contextId = false →
    StoredAs contexts stored contextId

/-- What a mark does whatever its time is: it returns, it tells the listeners of a marker that
advances, and every channel in memory is stored. -/
structure Kept (world : ReadTimeWorld) (contextId : String) (unixTimestamp : FiniteNumber)
    (now : TimeValue) : Prop where
  returned : (world.manager.advanceContext world.stored contextId unixTimestamp now).returned = true
  notified : world.manager.getOwnTimestamp contextId < unixTimestamp.value →
    (world.manager.advanceContext world.stored contextId unixTimestamp now).notified =
      world.manager.listeners
  stored : Stored
    (world.manager.advanceContext world.stored contextId unixTimestamp now).manager.effectiveState
    (world.manager.advanceContext world.stored contextId unixTimestamp now).stored

/-- Every mark of the call is kept. -/
def KeepsTimes (world : ReadTimeWorld) : ReadTimeCall → Prop
  | .mark contextId unixTimestamp now => Kept world contextId unixTimestamp now
  | .seed contextId unixTimestamp now => Kept world contextId unixTimestamp now
  | _ => True

/-- A mark that advances its context is a date and not of the key of the prototype, which is not in
memory either. -/
def DatedMark (world : ReadTimeWorld) (contextId : String) (unixTimestamp : FiniteNumber) : Prop :=
  world.manager.effectiveState.get? ReadState.protoKey = none ∧
    (world.manager.getOwnTimestamp contextId < unixTimestamp.value →
      IsDate unixTimestamp ∧ contextId ≠ ReadState.protoKey)

def Dated (world : ReadTimeWorld) : ReadTimeCall → Prop
  | .mark contextId unixTimestamp _ => DatedMark world contextId unixTimestamp
  | .seed contextId unixTimestamp _ => DatedMark world contextId unixTimestamp
  | _ => True

/-- A property of a world and its next call, all along a run. -/
def Along (P : ReadTimeWorld → ReadTimeCall → Prop) (world : ReadTimeWorld) :
    List ReadTimeCall → Prop
  | [] => True
  | call :: rest => P world call ∧ Along P (world.perform call) rest

/-- The markers in memory are positive. -/
def Positive (contexts : Contexts) : Prop :=
  ∀ contextId moment, contexts.get? contextId = some moment → 0 < moment.value

/-- The markers in memory are dates. -/
def AllDates (contexts : Contexts) : Prop :=
  ∀ contextId moment, contexts.get? contextId = some moment → IsDate moment

theorem own_nonneg (h : Positive contexts) (contextId : String) : 0 ≤ contexts.own contextId := by
  cases hget : contexts.get? contextId with
  | none =>
      rw [Contexts.own, hget]
      exact le_rfl
  | some moment =>
      rw [own_of_get? hget]
      exact (h contextId moment hget).le

theorem Positive.set (h : Positive contexts) (hpos : 0 < moment.value) :
    Positive (contexts.set contextId moment) := by
  intro other found hget
  rw [EntryMap.get?_set] at hget
  split_ifs at hget
  · obtain rfl := Option.some.inj hget
    exact hpos
  · exact h other found hget

theorem AllDates.set (h : AllDates contexts) (hdate : IsDate moment) :
    AllDates (contexts.set contextId moment) := by
  intro other found hget
  rw [EntryMap.get?_set] at hget
  split_ifs at hget
  · obtain rfl := Option.some.inj hget
    exact hdate
  · exact h other found hget

/-- What is read back are positive whole seconds of dates. -/
theorem readStored_dates (stored : StoredRecord) :
    Positive (readStoredReadState stored) ∧ AllDates (readStoredReadState stored) := by
  have hfold : ∀ (entries : StoredRecord) (contexts : Contexts),
      Positive contexts ∧ AllDates contexts →
      Positive (entries.foldl mergeEntry contexts) ∧
        AllDates (entries.foldl mergeEntry contexts) := by
    intro entries
    induction entries with
    | nil => exact fun _ h => h
    | cons entry entries ih =>
        intro contexts h
        refine ih (mergeEntry contexts entry) ?_
        unfold mergeEntry
        cases entry.2 with
        | none => exact h
        | some time =>
            dsimp only
            split_ifs with hless
            · have hpos := (own_nonneg h.1 entry.1).trans_lt hless
              exact ⟨h.1.set hpos, h.2.set (isDate_seconds hpos)⟩
            · exact h
  refine hfold stored EntryMap.empty ⟨?_, ?_⟩
  · intro contextId moment hget
    rw [EntryMap.get?_empty] at hget
    cases hget
  · intro contextId moment hget
    rw [EntryMap.get?_empty] at hget
    cases hget

/-- Dates in memory can be written. -/
theorem exists_written (h : AllDates contexts) (now : TimeValue) :
    ∃ record, writeStoredReadState contexts now = some record := by
  obtain ⟨texts, htexts⟩ := textsOf_isSome_iff.mpr fun entry hentry =>
    h entry.1 entry.2 (EntryMap.get?_eq_some_iff.mpr (@mem_of_mem_prune now _ _ hentry))
  exact ⟨_, Option.map_eq_some_iff.mpr ⟨texts, htexts, rfl⟩⟩

/-- What is written is stored. -/
theorem storedAs_of_written (hpositive : Positive contexts)
    (h : writeStoredReadState contexts now = some record)
    (hchannel : ReadState.isPrunableContextKey contextId = false)
    (hproto : contextId ≠ ReadState.protoKey) : StoredAs contexts record contextId := by
  intro moment hget
  have hpos := hpositive contextId moment hget
  have hmem := EntryMap.get?_eq_some_iff.mp hget
  have hkept : (contextId, moment) ∈ pruneStaleContexts contexts.entries now :=
    mem_prune_of_channel hmem hchannel
  obtain ⟨time, htime⟩ := exists_dateOf_iff.mpr (isDate_of_written h hget hpos)
  have hstored := (mem_of_written h).mpr ⟨hproto, moment, hkept, htime⟩
  refine ⟨time, htime, hstored, ?_⟩
  have hfloor := Int.floor_nonneg.mpr hpos.le
  have hown : (ReadState.readStoredReadState (milliseconds record)).own contextId =
      ⌊moment.value⌋ := by
    apply le_antisymm
    · rcases ReadState.le_readStored_iff.mp le_rfl with hle | ⟨ms, hms, hle⟩
      · exact hle.trans hfloor
      · obtain ⟨⟨found, date⟩, hfound, heq⟩ := List.mem_map.mp hms
        obtain ⟨rfl, hdate⟩ := Prod.mk.inj heq
        obtain ⟨value, rfl, rfl⟩ := Option.map_eq_some_iff.mp hdate
        obtain ⟨-, other, hother, hvalue⟩ := (mem_of_written h).mp hfound
        have hsame := EntryMap.get?_eq_some_iff.mpr (mem_of_mem_prune hother)
        obtain rfl := Option.some.inj (hget.symm.trans hsame)
        exact hle.trans (seconds_of_dateOf hpos hvalue).le
    · refine ReadState.le_readStored_iff.mpr (Or.inr ⟨time.ms, ?_, ?_⟩)
      · exact List.mem_map_of_mem hstored
      · exact (seconds_of_dateOf hpos htime).ge
  rw [own_readStored, hown]

/-- The key of the prototype is not stored while it is in memory, any other channel is. -/
structure StoredApart (contexts : Contexts) (stored : StoredRecord) : Prop where
  channels : ∀ contextId, ReadState.isPrunableContextKey contextId = false →
    contextId ≠ ReadState.protoKey → StoredAs contexts stored contextId
  proto : contexts.get? ReadState.protoKey ≠ none → ∀ time, (ReadState.protoKey, some time) ∉ stored

theorem storedApart_of_written (hpositive : Positive contexts)
    (h : writeStoredReadState contexts now = some record) : StoredApart contexts record where
  channels _ hchannel hproto := storedAs_of_written hpositive h hchannel hproto
  proto _ _ hmem := ((mem_of_written h).mp hmem).1 rfl

/-- Every channel is stored exactly when the key of the prototype is not in memory. -/
theorem StoredApart.stored_iff (h : StoredApart contexts stored) :
    Stored contexts stored ↔ contexts.get? ReadState.protoKey = none := by
  constructor
  · intro hstored
    by_contra hproto
    obtain ⟨moment, hget⟩ := Option.ne_none_iff_exists'.mp hproto
    obtain ⟨time, -, hmem, -⟩ := hstored ReadState.protoKey ReadState.protoKey_channel moment hget
    exact h.proto hproto time hmem
  · intro hproto contextId hchannel
    by_cases heq : contextId = ReadState.protoKey
    · subst heq
      intro moment hget
      rw [hproto] at hget
      cases hget
    · exact h.channels contextId hchannel heq

/-- Positive dates in memory, and every channel of them stored that can be. -/
structure Sound (world : ReadTimeWorld) : Prop where
  positive : Positive world.manager.effectiveState
  dates : AllDates world.manager.effectiveState
  stored : StoredApart world.manager.effectiveState world.stored

theorem sound_new (stored : StoredRecord) : Sound ⟨newReadStateManager, stored⟩ := by
  have hnone : ∀ contextId moment,
      newReadStateManager.effectiveState.get? contextId = some moment → False := by
    intro contextId moment hget
    rw [newReadStateManager, EntryMap.get?_empty] at hget
    cases hget
  exact ⟨fun contextId moment hget => (hnone contextId moment hget).elim,
    fun contextId moment hget => (hnone contextId moment hget).elim,
    fun contextId _ _ moment hget => (hnone contextId moment hget).elim,
    fun hproto => absurd (EntryMap.get?_empty _) hproto⟩

/-- What a mark that advances to a date does. -/
theorem Sound.written (h : Sound world)
    (hlt : world.manager.getOwnTimestamp contextId < moment.value) (hdate : IsDate moment) :
    ∃ record, world.manager.advanceContext world.stored contextId moment now =
        ⟨world.manager.advanced contextId moment, record, true, world.manager.listeners⟩ ∧
      Sound ⟨world.manager.advanced contextId moment, record⟩ := by
  have hpos : 0 < moment.value := (own_nonneg h.positive contextId).trans_lt hlt
  have hpositive := @Positive.set _ contextId _ h.positive hpos
  have hdates := @AllDates.set _ contextId _ h.dates hdate
  obtain ⟨record, hrecord⟩ := exists_written hdates now
  refine ⟨record, ?_, hpositive, hdates, storedApart_of_written hpositive hrecord⟩
  rw [ReadStateManager.advanceContext, if_neg (not_le.mpr hlt)]
  have hwrite : writeStoredReadState
      (world.manager.advanced contextId moment).effectiveState now = some record := hrecord
  rw [hwrite]

theorem advanceContext_of_le (hle : moment.value ≤ world.manager.getOwnTimestamp contextId) :
    world.manager.advanceContext world.stored contextId moment now =
      ⟨world.manager, world.stored, true, []⟩ :=
  if_pos hle

/-- A dated mark leaves what the next mark needs. -/
theorem Sound.advance (h : Sound world) (hdated : DatedMark world contextId moment) :
    Sound ⟨(world.manager.advanceContext world.stored contextId moment now).manager,
      (world.manager.advanceContext world.stored contextId moment now).stored⟩ := by
  rcases le_or_gt moment.value (world.manager.getOwnTimestamp contextId) with hle | hlt
  · rw [advanceContext_of_le hle]
    exact h
  · obtain ⟨record, houtcome, hsound⟩ := @Sound.written contextId moment now world h hlt
      (hdated.2 hlt).1
    rw [houtcome]
    exact hsound

/-- A mark that is kept is a date if it advances. -/
theorem Kept.isDate (hpositive : Positive world.manager.effectiveState)
    (h : Kept world contextId moment now)
    (hlt : world.manager.getOwnTimestamp contextId < moment.value) : IsDate moment := by
  have hreturned := h.returned
  rw [ReadStateManager.advanceContext, if_neg (not_le.mpr hlt)] at hreturned
  cases hwrite : writeStoredReadState
      (world.manager.advanced contextId moment).effectiveState now with
  | none =>
      rw [hwrite] at hreturned
      cases hreturned
  | some record =>
      have hget : (world.manager.advanced contextId moment).effectiveState.get? contextId =
          some moment := by
        rw [ReadStateManager.advanced, EntryMap.get?_set, if_pos rfl]
      exact isDate_of_written hwrite hget ((own_nonneg hpositive contextId).trans_lt hlt)

theorem get?_advanced_proto : (world.manager.advanced contextId moment).effectiveState.get?
      ReadState.protoKey = none ↔
    world.manager.effectiveState.get? ReadState.protoKey = none ∧
      contextId ≠ ReadState.protoKey := by
  rw [ReadStateManager.advanced, EntryMap.get?_set]
  split_ifs with heq
  · simp [heq]
  · exact ⟨fun hget => ⟨hget, Ne.symm heq⟩, And.left⟩

/-- A mark is kept exactly when it is dated. -/
theorem Sound.kept_iff (h : Sound world) :
    Kept world contextId moment now ↔ DatedMark world contextId moment := by
  rcases le_or_gt moment.value (world.manager.getOwnTimestamp contextId) with hle | hlt
  · have hsame := @advanceContext_of_le contextId moment now world hle
    constructor
    · intro hkept
      have hstored := hkept.stored
      rw [hsame] at hstored
      exact ⟨h.stored.stored_iff.mp hstored, fun hlt => absurd hle (not_le.mpr hlt)⟩
    · rintro ⟨hproto, -⟩
      constructor
      · rw [hsame]
      · exact fun hlt => absurd hle (not_le.mpr hlt)
      · rw [hsame]
        exact h.stored.stored_iff.mpr hproto
  · constructor
    · intro hkept
      have hdate := hkept.isDate h.positive hlt
      obtain ⟨record, houtcome, hsound⟩ := @Sound.written contextId moment now world h hlt hdate
      have hstored := hkept.stored
      rw [houtcome] at hstored
      obtain ⟨hproto, hkey⟩ := get?_advanced_proto.mp (hsound.stored.stored_iff.mp hstored)
      exact ⟨hproto, fun _ => ⟨hdate, hkey⟩⟩
    · rintro ⟨hproto, hdated⟩
      obtain ⟨hdate, hkey⟩ := hdated hlt
      obtain ⟨record, houtcome, hsound⟩ := @Sound.written contextId moment now world h hlt hdate
      constructor
      · rw [houtcome]
      · intro _
        rw [houtcome]
      · rw [houtcome]
        exact hsound.stored.stored_iff.mpr (get?_advanced_proto.mpr ⟨hproto, hkey⟩)

theorem Sound.initialize (h : Sound world) :
    Sound (world.perform (.initializeManager now)) := by
  rw [ReadTimeWorld.perform, ReadTimeWorld.call, ReadStateManager.initializeManager]
  split_ifs
  · exact h
  · have hread := readStored_dates world.stored
    have hcases : ∀ contextId moment,
        (world.manager.hydrated world.stored).effectiveState.get? contextId = some moment →
          (readStoredReadState world.stored).get? contextId = some moment ∨
            world.manager.effectiveState.get? contextId = some moment := by
      intro contextId moment hget
      rw [ReadStateManager.hydrated, EntryMap.get?_setAll] at hget
      rcases Option.or_eq_some_iff.mp hget with hfirst | ⟨-, hsecond⟩
      · exact Or.inl hfirst
      · exact Or.inr hsecond
    have hpositive : Positive (world.manager.hydrated world.stored).effectiveState := by
      intro contextId moment hget
      rcases hcases contextId moment hget with hstored | hmemory
      · exact hread.1 contextId moment hstored
      · exact h.positive contextId moment hmemory
    have hdates : AllDates (world.manager.hydrated world.stored).effectiveState := by
      intro contextId moment hget
      rcases hcases contextId moment hget with hstored | hmemory
      · exact hread.2 contextId moment hstored
      · exact h.dates contextId moment hmemory
    obtain ⟨record, hrecord⟩ := exists_written hdates now
    rw [hrecord]
    exact ⟨hpositive, hdates, storedApart_of_written hpositive hrecord⟩

theorem Sound.perform (h : Sound world) (hdated : Dated world call) :
    Sound (world.perform call) := by
  cases call with
  | mark contextId moment now | seed contextId moment now => exact h.advance hdated
  | initializeManager now => exact h.initialize
  | subscribe listener | unsubscribe listener | destroy => exact ⟨h.positive, h.dates, h.stored⟩
  | mount => exact sound_new world.stored

theorem Sound.dated_iff (h : Sound world) : KeepsTimes world call ↔ Dated world call := by
  cases call with
  | mark contextId moment now | seed contextId moment now => exact h.kept_iff
  | _ => exact Iff.rfl

theorem along_keepsTimes_iff (calls : List ReadTimeCall) : ∀ {world : ReadTimeWorld}, Sound world →
    (Along KeepsTimes world calls ↔ Along Dated world calls) := by
  induction calls with
  | nil => exact fun _ => Iff.rfl
  | cons call rest ih =>
      intro world h
      have hcall : KeepsTimes world call ↔ Dated world call := h.dated_iff
      constructor
      · rintro ⟨hkeeps, hrest⟩
        have hdated := hcall.mp hkeeps
        exact ⟨hdated, (ih (h.perform hdated)).mp hrest⟩
      · rintro ⟨hdated, hrest⟩
        exact ⟨hcall.mpr hdated, (ih (h.perform hdated)).mpr hrest⟩

/-- A moment of the year 10^15 or so. -/
def farFuture : FiniteNumber := ⟨((10 ^ 15 : ℤ) : ℚ), isDouble_intCast (by norm_num)⟩

def november2023 : FiniteNumber := ⟨((1700000000 : ℤ) : ℚ), isDouble_intCast (by norm_num)⟩

def clock2023 : TimeValue := ⟨1700000500000, by norm_num⟩

/-- A message from the far future, and then one of another channel. -/
def poisoned : List ReadTimeCall :=
  [.mark "general" farFuture clock2023, .mark "random" november2023 clock2023]

end Runs

end Buzz.ReadTimes
