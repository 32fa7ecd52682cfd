import Buzz.EntryMap

/-!
# Read markers

The newest moment up to which each context was read, in the memory of a manager and in local
storage. A mark rewrites the whole stored record with what its manager has in memory; only
`initialize` brings the stored contexts there. A manager that marks before, or beside another one,
takes stored markers away.
-/

namespace Buzz.ReadState

section Storage

/-- Moments in whole seconds, by context. -/
abbrev Contexts := EntryMap String ℤ

/-- The stored record: each context with the milliseconds of its date, where its text is one. -/
abbrev StoredRecord := List (String × Option ℤ)

def msgPrefix : String := "msg:"

def threadPrefix : String := "thread:"

def readStateHorizonSeconds : ℤ := 7 * 24 * 60 * 60

def localMaxPrunableContexts : ℕ := 1000

/-- The marker of a context, zero where there is none. -/
def Contexts.own (contexts : Contexts) (contextId : String) : ℤ :=
  (contexts.get? contextId).getD 0

def mergeEntry (contexts : Contexts) (entry : String × Option ℤ) : Contexts :=
  match entry.2 with
  | none => contexts
  | some ms =>
      if contexts.own entry.1 < ms / 1000 then contexts.set entry.1 (ms / 1000) else contexts

def readStoredReadState (stored : StoredRecord) : Contexts :=
  stored.foldl mergeEntry EntryMap.empty

def isPrunableContextKey (contextId : String) : Bool :=
  contextId.startsWith msgPrefix || contextId.startsWith threadPrefix

/-- A map is written down as its entries. -/
def pruneStaleContexts (contexts : List (String × ℤ)) (nowUnixSeconds : ℤ) :
    List (String × ℤ) :=
  let kept := contexts.filter fun entry => !isPrunableContextKey entry.1
  let prunable := contexts.filter fun entry =>
    isPrunableContextKey entry.1 && decide (nowUnixSeconds - readStateHorizonSeconds ≤ entry.2)
  if localMaxPrunableContexts < prunable.length then
    kept ++ (prunable.mergeSort fun left right => decide (right.2 ≤ left.2)).take
      localMaxPrunableContexts
  else kept ++ prunable

/-- The moment is a date, so that it has a text. -/
def IsDate (unixSeconds : ℤ) : Prop := |unixSeconds * 1000| ≤ 8640000000000000

instance (unixSeconds : ℤ) : Decidable (IsDate unixSeconds) :=
  inferInstanceAs (Decidable (_ ≤ _))

/-- Every marker that is to be stored has a text. -/
def Writable (contexts : Contexts) (now : ℤ) : Prop :=
  ∀ entry ∈ pruneStaleContexts contexts.entries now, IsDate entry.2

instance (contexts : Contexts) (now : ℤ) : Decidable (Writable contexts now) :=
  inferInstanceAs (Decidable (∀ entry ∈ pruneStaleContexts contexts.entries now, IsDate entry.2))

/-- An object literal takes a text that is assigned to it under this key for no prototype and drops
it. -/
def protoKey : String := "__proto__"

/-- Nothing is stored where a moment has no text: the conversion throws. -/
def writeStoredReadState (contexts : Contexts) (now : ℤ) : Option StoredRecord :=
  if Writable contexts now then
    some (((pruneStaleContexts contexts.entries now).filter fun entry => entry.1 ≠ protoKey).map
      fun entry => (entry.1, some (entry.2 * 1000)))
  else none

/-- What a write makes of the marker of a channel. -/
def Contexts.storable (contexts : Contexts) (contextId : String) : ℤ :=
  if contextId = protoKey then 0 else contexts.own contextId

end Storage

section Manager

structure ReadStateManager where
  effectiveState : Contexts
  initialized : Bool
  destroyed : Bool

def newReadStateManager : ReadStateManager := ⟨EntryMap.empty, false, false⟩

namespace ReadStateManager

variable (manager : ReadStateManager) (stored : StoredRecord)

def getOwnTimestamp (contextId : String) : ℤ :=
  manager.effectiveState.own contextId

/-- The stored record afterwards; a write that throws leaves it alone. -/
def persistLocalState (now : ℤ) : StoredRecord :=
  (writeStoredReadState manager.effectiveState now).getD stored

def advanced (contextId : String) (unixTimestamp : ℤ) : ReadStateManager :=
  { manager with effectiveState := manager.effectiveState.set contextId unixTimestamp }

def advanceContext (contextId : String) (unixTimestamp now : ℤ) :
    ReadStateManager × StoredRecord :=
  if unixTimestamp ≤ manager.getOwnTimestamp contextId then (manager, stored)
  else
    (manager.advanced contextId unixTimestamp,
      (manager.advanced contextId unixTimestamp).persistLocalState stored now)

def markContextRead (contextId : String) (unixTimestamp now : ℤ) :
    ReadStateManager × StoredRecord :=
  manager.advanceContext stored contextId unixTimestamp now

def seedContextRead (contextId : String) (unixTimestamp now : ℤ) :
    ReadStateManager × StoredRecord :=
  manager.advanceContext stored contextId unixTimestamp now

/-- The memory once the stored contexts are in it. -/
def hydrated : ReadStateManager :=
  { manager with effectiveState := manager.effectiveState.setAll (readStoredReadState stored) }

def initializeManager (now : ℤ) : ReadStateManager × StoredRecord :=
  if manager.initialized || manager.destroyed then (manager, stored)
  else
    match writeStoredReadState (manager.hydrated stored).effectiveState now with
    | some record => ({ manager.hydrated stored with initialized := true }, record)
    | none => (manager.hydrated stored, stored)

def destroy : ReadStateManager :=
  { manager with destroyed := true }

end ReadStateManager

end Manager

section Runs

/-- The stored record of a user, the managers in the order of their creation (those to come are
new), and the greatest moment that each context was ever marked with or was first stored with. -/
structure ReadStateWorld where
  stored : StoredRecord
  managers : ℕ → ReadStateManager
  marked : String → ℤ

def firstWorld (stored : StoredRecord) : ReadStateWorld :=
  ⟨stored, fun _ => newReadStateManager, (readStoredReadState stored).own⟩

/-- The clock may show anything at a call. -/
inductive ReadStateCall where
  | mark (i : ℕ) (contextId : String) (unixTimestamp now : ℤ)
  | seed (i : ℕ) (contextId : String) (unixTimestamp now : ℤ)
  | initializeManager (i : ℕ) (now : ℤ)
  | destroy (i : ℕ)

namespace ReadStateWorld

variable (world : ReadStateWorld)

def update (i : ℕ) (outcome : ReadStateManager × StoredRecord) : ReadStateWorld :=
  { world with
    stored := outcome.2
    managers := Function.update world.managers i outcome.1 }

def mark (contextId : String) (unixTimestamp : ℤ) : ReadStateWorld :=
  { world with
    marked := Function.update world.marked contextId
      (max (world.marked contextId) unixTimestamp) }

def perform : ReadStateCall → ReadStateWorld
  | .mark i contextId unixTimestamp now =>
      (world.update i ((world.managers i).markContextRead world.stored contextId unixTimestamp
        now)).mark contextId unixTimestamp
  | .seed i contextId unixTimestamp now =>
      (world.update i ((world.managers i).seedContextRead world.stored contextId unixTimestamp
        now)).mark contextId unixTimestamp
  | .initializeManager i now => world.update i
      ((world.managers i).initializeManager world.stored now)
  | .destroy i => world.update i ((world.managers i).destroy, world.stored)

/-- The marker of the context as `initialize` finds it. -/
def storedMarker (contextId : String) : ℤ :=
  (readStoredReadState world.stored).own contextId

/-- No manager forgets a marker. A manager that is initialized now, or a new one that would be, has
every channel at least where it was ever marked, and no channel is stored earlier than before. -/
structure KeepsMarks (call : ReadStateCall) : Prop where
  own : ∀ i contextId, (world.managers i).getOwnTimestamp contextId ≤
    ((world.perform call).managers i).getOwnTimestamp contextId
  loaded : ∀ i now, call = .initializeManager i now → (world.managers i).initialized = false →
    (world.managers i).destroyed = false → ∀ contextId, isPrunableContextKey contextId = false →
      (world.perform call).marked contextId ≤
        ((world.perform call).managers i).getOwnTimestamp contextId
  next : ∀ now contextId, isPrunableContextKey contextId = false →
    (world.perform call).marked contextId ≤
      (newReadStateManager.initializeManager (world.perform call).stored now).1.getOwnTimestamp
        contextId
  kept : ∀ contextId, isPrunableContextKey contextId = false →
    world.storedMarker contextId ≤ (world.perform call).storedMarker contextId

/-- Every channel that is stored is in the memory of the manager, no earlier, and under a key that a
write keeps. -/
def Covers (manager : ReadStateManager) : Prop :=
  ∀ contextId, isPrunableContextKey contextId = false →
    world.storedMarker contextId ≤ manager.effectiveState.storable contextId

/-- What a call has to meet. A mark that advances finds the stored channels in the memory of its
manager, the moment that it marks apart, and where it marks a channel later than stored, what it
writes are dates. A manager has nothing later in memory than what it loads. No call writes while
`protoKey` is marked. -/
def Orderly : ReadStateCall → Prop
  | .mark i contextId unixTimestamp now | .seed i contextId unixTimestamp now =>
      (world.managers i).getOwnTimestamp contextId < unixTimestamp →
        let advanced := (world.managers i).advanced contextId unixTimestamp
        (Writable advanced.effectiveState now → world.Covers advanced ∧ contextId ≠ protoKey) ∧
          (isPrunableContextKey contextId = false → world.storedMarker contextId < unixTimestamp →
            Writable advanced.effectiveState now)
  | .initializeManager i now => (world.managers i).initialized = false →
      (world.managers i).destroyed = false →
        (∀ entry ∈ (readStoredReadState world.stored).entries,
          (world.managers i).getOwnTimestamp entry.1 ≤ entry.2) ∧
        (Writable ((world.managers i).hydrated world.stored).effectiveState now →
          world.storedMarker protoKey ≤ 0)
  | .destroy _ => True

/-- A property of a world and its next call, all along a run. -/
def Along (P : ReadStateWorld → ReadStateCall → Prop) (world : ReadStateWorld) :
    List ReadStateCall → Prop
  | [] => True
  | call :: rest => P world call ∧ Along P (world.perform call) rest

end ReadStateWorld

end Runs

section Markers

variable {contexts : Contexts} {stored : StoredRecord} {contextId key : String} {moment now : ℤ}

theorem own_set (value : ℤ) :
    Contexts.own (contexts.set key value) contextId =
      if contextId = key then value else contexts.own contextId := by
  unfold Contexts.own
  rw [EntryMap.get?_set]
  split_ifs <;> rfl

theorem own_of_mem (h : (contextId, moment) ∈ contexts.entries) :
    contexts.own contextId = moment := by
  rw [Contexts.own, EntryMap.get?_eq_some_iff.mpr h]
  rfl

theorem le_mergeEntry_iff (entry : String × Option ℤ) :
    moment ≤ (mergeEntry contexts entry).own contextId ↔
      moment ≤ contexts.own contextId ∨ ∃ ms, entry = (contextId, some ms) ∧
        moment ≤ ms / 1000 := by
  obtain ⟨key, date⟩ := entry
  cases date with
  | none => simp [mergeEntry]
  | some ms =>
      by_cases hkey : contextId = key
      · subst hkey
        simp only [mergeEntry, Prod.mk.injEq, Option.some.injEq, true_and, exists_eq_left']
        split_ifs with hlt
        · rw [own_set, if_pos rfl]
          constructor
          · exact Or.inr
          · rintro (h | h)
            · omega
            · exact h
        · constructor
          · exact Or.inl
          · rintro (h | h)
            · exact h
            · omega
      · have hown : (mergeEntry contexts (key, some ms)).own contextId =
            contexts.own contextId := by
          simp only [mergeEntry]
          split_ifs
          · rw [own_set, if_neg hkey]
          · rfl
        simp [hown, Ne.symm hkey]

theorem le_foldl_mergeEntry_iff (stored : StoredRecord) :
    ∀ contexts : Contexts, moment ≤ (stored.foldl mergeEntry contexts).own contextId ↔
      moment ≤ contexts.own contextId ∨
        ∃ ms, (contextId, some ms) ∈ stored ∧ moment ≤ ms / 1000 := by
  induction stored with
  | nil => simp
  | cons entry rest ih =>
      intro contexts
      rw [List.foldl_cons, ih, le_mergeEntry_iff]
      simp only [List.mem_cons]
      constructor
      · rintro ((h | ⟨ms, rfl, h⟩) | ⟨ms, hmem, h⟩)
        · exact Or.inl h
        · exact Or.inr ⟨ms, Or.inl rfl, h⟩
        · exact Or.inr ⟨ms, Or.inr hmem, h⟩
      · rintro (h | ⟨ms, heq | hmem, h⟩)
        · exact Or.inl (Or.inl h)
        · exact Or.inl (Or.inr ⟨ms, heq.symm, h⟩)
        · exact Or.inr ⟨ms, hmem, h⟩

/-- A marker is read back from zero and from every date of its context. -/
theorem le_readStored_iff : moment ≤ (readStoredReadState stored).own contextId ↔
    moment ≤ 0 ∨ ∃ ms, (contextId, some ms) ∈ stored ∧ moment ≤ ms / 1000 :=
  le_foldl_mergeEntry_iff stored EntryMap.empty

theorem readStored_nonneg : 0 ≤ (readStoredReadState stored).own contextId :=
  le_readStored_iff.mpr (Or.inl le_rfl)

theorem mem_of_mem_prune {entries : List (String × ℤ)} {entry : String × ℤ}
    (h : entry ∈ pruneStaleContexts entries now) : entry ∈ entries := by
  simp only [pruneStaleContexts] at h
  split_ifs at h
  · rcases List.mem_append.mp h with h | h
    · exact (List.mem_filter.mp h).1
    · exact (List.mem_filter.mp (List.mem_mergeSort.mp (List.mem_of_mem_take h))).1
  · rcases List.mem_append.mp h with h | h
    · exact (List.mem_filter.mp h).1
    · exact (List.mem_filter.mp h).1

theorem mem_prune_of_channel {entries : List (String × ℤ)} {entry : String × ℤ}
    (h : entry ∈ entries) (hchannel : isPrunableContextKey entry.1 = false) :
    entry ∈ pruneStaleContexts entries now := by
  have hkept : entry ∈ entries.filter fun entry => !isPrunableContextKey entry.1 :=
    List.mem_filter.mpr ⟨h, by simp [hchannel]⟩
  simp only [pruneStaleContexts]
  split_ifs
  · exact List.mem_append_left _ hkept
  · exact List.mem_append_left _ hkept

/-- What a write leaves is read back: the channels as they are in memory, nothing later. -/
theorem readStored_written {record : StoredRecord}
    (h : writeStoredReadState contexts now = some record) :
    (isPrunableContextKey contextId = false →
        contexts.storable contextId ≤ (readStoredReadState record).own contextId) ∧
      (readStoredReadState record).own contextId ≤ max 0 (contexts.storable contextId) := by
  unfold writeStoredReadState at h
  split_ifs at h
  cases h
  unfold Contexts.storable
  constructor
  · intro hchannel
    rw [le_readStored_iff]
    split_ifs with hproto
    · exact Or.inl le_rfl
    · cases hget : contexts.get? contextId with
      | none => exact Or.inl (by simp [Contexts.own, hget])
      | some moment =>
          have hmem := EntryMap.get?_eq_some_iff.mp hget
          refine Or.inr ⟨moment * 1000, List.mem_map.mpr ⟨_, List.mem_filter.mpr
            ⟨mem_prune_of_channel hmem hchannel, decide_eq_true hproto⟩, rfl⟩, ?_⟩
          rw [own_of_mem hmem]
          omega
  · rcases le_readStored_iff.mp le_rfl with hle | ⟨ms, hmem, hle⟩
    · exact hle.trans (le_max_left _ _)
    · obtain ⟨entry, hentry, heq⟩ := List.mem_map.mp hmem
      cases heq
      obtain ⟨hentry, hproto⟩ := List.mem_filter.mp hentry
      rw [if_neg (of_decide_eq_true hproto), own_of_mem (mem_of_mem_prune hentry)]
      omega

theorem storable_le_own (h : 0 ≤ contexts.own contextId) :
    contexts.storable contextId ≤ contexts.own contextId := by
  unfold Contexts.storable
  split_ifs
  · exact h
  · exact le_rfl

theorem storable_nonneg (h : 0 ≤ contexts.own contextId) : 0 ≤ contexts.storable contextId := by
  unfold Contexts.storable
  split_ifs
  · exact le_rfl
  · exact h

end Markers

section Calls

variable {manager : ReadStateManager} {stored : StoredRecord} {contextId key : String}
  {moment now : ℤ}

theorem hydrated_own : (manager.hydrated stored).getOwnTimestamp contextId =
    ((readStoredReadState stored).get? contextId).getD (manager.getOwnTimestamp contextId) := by
  unfold ReadStateManager.getOwnTimestamp ReadStateManager.hydrated Contexts.own
  rw [EntryMap.get?_setAll]
  cases (readStoredReadState stored).get? contextId <;> rfl

theorem initialize_own (hunloaded : manager.initialized = false)
    (halive : manager.destroyed = false) :
    (manager.initializeManager stored now).1.getOwnTimestamp contextId =
      (manager.hydrated stored).getOwnTimestamp contextId := by
  unfold ReadStateManager.initializeManager
  rw [hunloaded, halive]
  simp only [Bool.or_self, Bool.false_eq_true, if_false]
  split <;> rfl

/-- A new manager starts with what is stored. -/
theorem new_initialize_own :
    (newReadStateManager.initializeManager stored now).1.getOwnTimestamp contextId =
      (readStoredReadState stored).own contextId := by
  rw [initialize_own rfl rfl, hydrated_own]
  rfl

theorem readStored_le_hydrated (hmemory : 0 ≤ manager.getOwnTimestamp contextId) :
    (readStoredReadState stored).own contextId ≤
      (manager.hydrated stored).getOwnTimestamp contextId := by
  rw [hydrated_own]
  cases hget : (readStoredReadState stored).get? contextId with
  | none => simpa [Contexts.own, hget] using hmemory
  | some moment => simp [Contexts.own, hget]

/-- A loaded marker is the stored one or the one in memory. -/
theorem hydrated_cases (manager : ReadStateManager) (stored : StoredRecord) (contextId : String) :
    (manager.hydrated stored).getOwnTimestamp contextId =
      (readStoredReadState stored).own contextId ∨
    (manager.hydrated stored).getOwnTimestamp contextId = manager.getOwnTimestamp contextId := by
  rw [hydrated_own]
  cases hget : (readStoredReadState stored).get? contextId with
  | none => exact Or.inr rfl
  | some moment => exact Or.inl (by simp [Contexts.own, hget])

/-- Loading takes no marker back exactly when nothing in memory is later than what is loaded. -/
theorem le_hydrated_iff (manager : ReadStateManager) (stored : StoredRecord) :
    (∀ contextId, manager.getOwnTimestamp contextId ≤
        (manager.hydrated stored).getOwnTimestamp contextId) ↔
      ∀ entry ∈ (readStoredReadState stored).entries,
        manager.getOwnTimestamp entry.1 ≤ entry.2 := by
  constructor
  · intro h entry hentry
    have hle := h entry.1
    rw [hydrated_own, EntryMap.get?_eq_some_iff.mpr hentry] at hle
    exact hle
  · intro h contextId
    rw [hydrated_own]
    cases hget : (readStoredReadState stored).get? contextId with
    | none => exact le_rfl
    | some moment => exact h _ (EntryMap.get?_eq_some_iff.mp hget)

theorem advanced_own : (manager.advanced key moment).getOwnTimestamp contextId =
    if contextId = key then moment else manager.getOwnTimestamp contextId :=
  own_set moment

theorem own_le_advanced (h : manager.getOwnTimestamp key < moment) :
    manager.getOwnTimestamp contextId ≤ (manager.advanced key moment).getOwnTimestamp
      contextId := by
  rw [advanced_own]
  split_ifs with heq
  · exact heq ▸ h.le
  · exact le_rfl

theorem persist_of_not_writable (h : ¬Writable manager.effectiveState now) :
    manager.persistLocalState stored now = stored := by
  rw [ReadStateManager.persistLocalState, writeStoredReadState, if_neg h]
  rfl

theorem readStored_persisted (stored : StoredRecord) (contextId : String)
    (h : Writable manager.effectiveState now) :
    (isPrunableContextKey contextId = false → manager.effectiveState.storable contextId ≤
        (readStoredReadState (manager.persistLocalState stored now)).own contextId) ∧
      (readStoredReadState (manager.persistLocalState stored now)).own contextId ≤
        max 0 (manager.effectiveState.storable contextId) := by
  have hwritten : writeStoredReadState manager.effectiveState now =
      some (manager.persistLocalState stored now) := by
    rw [ReadStateManager.persistLocalState, writeStoredReadState, if_pos h]
    rfl
  exact readStored_written hwritten

/-- After loading, what is stored is what was, or what is in memory now. -/
theorem initialize_stored (hunloaded : manager.initialized = false)
    (halive : manager.destroyed = false) :
    (manager.initializeManager stored now).2 =
      (manager.hydrated stored).persistLocalState stored now := by
  unfold ReadStateManager.initializeManager ReadStateManager.persistLocalState
  rw [hunloaded, halive]
  simp only [Bool.or_self, Bool.false_eq_true, if_false]
  cases writeStoredReadState (manager.hydrated stored).effectiveState now <;> rfl

end Calls

section Invariant

open ReadStateWorld

theorem protoKey_channel : isPrunableContextKey protoKey = false := by decide +kernel

variable {world : ReadStateWorld} {call : ReadStateCall} {i : ℕ} {contextId : String}
  {moment now : ℤ}

/-- Nothing in memory or in storage is later than marked, and every channel is stored as marked. -/
structure Sound (world : ReadStateWorld) : Prop where
  memory_nonneg : ∀ i contextId, 0 ≤ (world.managers i).getOwnTimestamp contextId
  memory_le : ∀ i contextId, (world.managers i).getOwnTimestamp contextId ≤ world.marked contextId
  stored_le : ∀ contextId, world.storedMarker contextId ≤ world.marked contextId
  marked_le : ∀ contextId, isPrunableContextKey contextId = false →
    world.marked contextId ≤ world.storedMarker contextId

theorem sound_firstWorld (stored : StoredRecord) : Sound (firstWorld stored) where
  memory_nonneg := fun _ _ => le_rfl
  memory_le := fun _ _ => readStored_nonneg
  stored_le := fun _ => le_rfl
  marked_le := fun _ _ => le_rfl

theorem update_self (world : ReadStateWorld) (i : ℕ) :
    world.update i (world.managers i, world.stored) = world := by
  simp [ReadStateWorld.update]

/-- A call marks nothing back, so that only three things can go wrong. -/
theorem keepsMarks_iff (h : Sound world)
    (hmarked : ∀ contextId, world.marked contextId ≤ (world.perform call).marked contextId) :
    world.KeepsMarks call ↔
      (∀ i contextId, (world.managers i).getOwnTimestamp contextId ≤
        ((world.perform call).managers i).getOwnTimestamp contextId) ∧
      (∀ i now, call = .initializeManager i now → (world.managers i).initialized = false →
        (world.managers i).destroyed = false → ∀ contextId,
          isPrunableContextKey contextId = false → (world.perform call).marked contextId ≤
            ((world.perform call).managers i).getOwnTimestamp contextId) ∧
      ∀ contextId, isPrunableContextKey contextId = false →
        (world.perform call).marked contextId ≤ (world.perform call).storedMarker contextId := by
  constructor
  · rintro ⟨hown, hloaded, hnext, -⟩
    refine ⟨hown, hloaded, fun contextId hchannel => ?_⟩
    have hle := hnext 0 contextId hchannel
    rwa [new_initialize_own] at hle
  · rintro ⟨hown, hloaded, hstored⟩
    refine ⟨hown, hloaded, fun now contextId hchannel => ?_, fun contextId hchannel => ?_⟩
    · rw [new_initialize_own]
      exact hstored contextId hchannel
    · exact (h.stored_le contextId).trans ((hmarked contextId).trans (hstored contextId hchannel))

section Advance

/-- Marks and seeds are one call. -/
def ReadStateWorld.advance (world : ReadStateWorld) (i : ℕ) (contextId : String)
    (moment now : ℤ) : ReadStateWorld :=
  (world.update i ((world.managers i).advanceContext world.stored contextId moment now)).mark
    contextId moment

theorem advance_of_le (h : Sound world)
    (hle : moment ≤ (world.managers i).getOwnTimestamp contextId) :
    world.advance i contextId moment now = world := by
  have hmarked : max (world.marked contextId) moment = world.marked contextId :=
    max_eq_left (hle.trans (h.memory_le i contextId))
  rw [ReadStateWorld.advance, ReadStateManager.advanceContext, if_pos hle, update_self,
    ReadStateWorld.mark, hmarked, Function.update_eq_self]

theorem advance_of_lt (hlt : (world.managers i).getOwnTimestamp contextId < moment) :
    world.advance i contextId moment now =
      (world.update i ((world.managers i).advanced contextId moment,
        ((world.managers i).advanced contextId moment).persistLocalState world.stored now)).mark
          contextId moment := by
  rw [ReadStateWorld.advance, ReadStateManager.advanceContext, if_neg (not_le.mpr hlt)]

theorem advance_marked (other : String) :
    (world.advance i contextId moment now).marked other =
      if other = contextId then max (world.marked contextId) moment else world.marked other := by
  change Function.update world.marked contextId _ other = _
  rw [Function.update_apply]
  rfl

theorem marked_le_advance (other : String) :
    world.marked other ≤ (world.advance i contextId moment now).marked other := by
  rw [advance_marked]
  split_ifs with heq
  · exact heq ▸ le_max_left _ _
  · exact le_rfl

theorem advanced_le_marked (h : Sound world) (other : String) :
    ((world.managers i).advanced contextId moment).getOwnTimestamp other ≤
      (world.advance i contextId moment now).marked other := by
  rw [advanced_own, advance_marked]
  split_ifs
  · exact le_max_right _ _
  · exact h.memory_le i other

/-- The markers in memory stay, and none is later than marked. -/
theorem advance_memory (h : Sound world) (j : ℕ) (other : String) :
    (world.managers j).getOwnTimestamp other ≤
        ((world.advance i contextId moment now).managers j).getOwnTimestamp other ∧
      ((world.advance i contextId moment now).managers j).getOwnTimestamp other ≤
        (world.advance i contextId moment now).marked other := by
  rcases le_or_gt moment ((world.managers i).getOwnTimestamp contextId) with hle | hlt
  · rw [advance_of_le h hle]
    exact ⟨le_rfl, h.memory_le j other⟩
  · by_cases hj : j = i
    · subst hj
      have hmanager : (world.advance j contextId moment now).managers j =
          (world.managers j).advanced contextId moment := by
        rw [advance_of_lt hlt]
        exact Function.update_self ..
      rw [hmanager]
      exact ⟨own_le_advanced hlt, advanced_le_marked h other⟩
    · have hmanager : (world.advance i contextId moment now).managers j = world.managers j :=
        Function.update_of_ne hj ..
      rw [hmanager]
      exact ⟨le_rfl, (h.memory_le j other).trans (marked_le_advance other)⟩

theorem advance_storedMarker (hlt : (world.managers i).getOwnTimestamp contextId < moment)
    (other : String) : (world.advance i contextId moment now).storedMarker other =
      (readStoredReadState (((world.managers i).advanced contextId moment).persistLocalState
        world.stored now)).own other := by
  rw [advance_of_lt hlt]
  rfl

theorem advanced_nonneg (h : Sound world)
    (hlt : (world.managers i).getOwnTimestamp contextId < moment) (other : String) :
    0 ≤ ((world.managers i).advanced contextId moment).getOwnTimestamp other :=
  (h.memory_nonneg i other).trans (own_le_advanced hlt)

/-- A write stores nothing later than what is in memory. -/
theorem persisted_le_advanced (h : Sound world)
    (hlt : (world.managers i).getOwnTimestamp contextId < moment)
    (hwritable : Writable ((world.managers i).advanced contextId moment).effectiveState now)
    (other : String) : (world.advance i contextId moment now).storedMarker other ≤
      ((world.managers i).advanced contextId moment).effectiveState.storable other := by
  rw [advance_storedMarker hlt, ← max_eq_right (storable_nonneg (advanced_nonneg h hlt other))]
  exact (readStored_persisted _ _ hwritable).2

theorem advance_stored_le (h : Sound world) (other : String) :
    (world.advance i contextId moment now).storedMarker other ≤
      (world.advance i contextId moment now).marked other := by
  rcases le_or_gt moment ((world.managers i).getOwnTimestamp contextId) with hle | hlt
  · rw [advance_of_le h hle]
    exact h.stored_le other
  · by_cases hwritable : Writable ((world.managers i).advanced contextId moment).effectiveState now
    · exact (persisted_le_advanced h hlt hwritable other).trans
        ((storable_le_own (advanced_nonneg h hlt other)).trans (advanced_le_marked h other))
    · rw [advance_storedMarker hlt, persist_of_not_writable hwritable]
      exact (h.stored_le other).trans (marked_le_advance other)

/-- The stored channels keep up with a mark exactly when its manager had them in memory, its own key
is stored and, for a channel that is marked later than stored, the write goes through. -/
theorem advance_stored_iff (h : Sound world)
    (hlt : (world.managers i).getOwnTimestamp contextId < moment) :
    (∀ other, isPrunableContextKey other = false →
        (world.advance i contextId moment now).marked other ≤
          (world.advance i contextId moment now).storedMarker other) ↔
      (Writable ((world.managers i).advanced contextId moment).effectiveState now →
          world.Covers ((world.managers i).advanced contextId moment) ∧ contextId ≠ protoKey) ∧
        (isPrunableContextKey contextId = false → world.storedMarker contextId < moment →
          Writable ((world.managers i).advanced contextId moment).effectiveState now) := by
  by_cases hwritable : Writable ((world.managers i).advanced contextId moment).effectiveState now
  · constructor
    · intro hstored
      have hkept (other : String) (hchannel : isPrunableContextKey other = false) :
          (world.advance i contextId moment now).marked other ≤
            ((world.managers i).advanced contextId moment).effectiveState.storable other :=
        (hstored other hchannel).trans (persisted_le_advanced h hlt hwritable other)
      refine ⟨fun _ => ⟨fun other hchannel => ?_, ?_⟩, fun _ _ => hwritable⟩
      · exact (h.stored_le other).trans ((marked_le_advance other).trans (hkept other hchannel))
      · rintro rfl
        have hle := hkept protoKey protoKey_channel
        rw [advance_marked, if_pos rfl, Contexts.storable, if_pos rfl] at hle
        exact absurd ((le_max_right _ _).trans hle)
          (not_le.mpr ((h.memory_nonneg i _).trans_lt hlt))
    · rintro ⟨hcovers, -⟩ other hchannel
      obtain ⟨hcover, hproto⟩ := hcovers hwritable
      have hmarked : (world.advance i contextId moment now).marked other ≤
          ((world.managers i).advanced contextId moment).effectiveState.storable other := by
        have hold := (h.marked_le other hchannel).trans (hcover other hchannel)
        rw [advance_marked]
        split_ifs with heq
        · subst heq
          refine max_le hold ?_
          rw [Contexts.storable, if_neg hproto]
          exact (advanced_own.trans (if_pos rfl)).ge
        · exact hold
      rw [advance_storedMarker hlt]
      exact hmarked.trans ((readStored_persisted _ _ hwritable).1 hchannel)
  · have hsame : ∀ other, (world.advance i contextId moment now).storedMarker other =
        world.storedMarker other := by
      intro other
      rw [advance_storedMarker hlt, persist_of_not_writable hwritable]
      rfl
    constructor
    · intro hstored
      refine ⟨fun hwrites => absurd hwrites hwritable, fun hchannel hlater => ?_⟩
      have hle := hstored contextId hchannel
      rw [hsame, advance_marked, if_pos rfl] at hle
      exact absurd ((le_max_right _ _).trans hle) (not_le.mpr hlater)
    · rintro ⟨-, hlater⟩ other hchannel
      have hold := h.marked_le other hchannel
      rw [hsame, advance_marked]
      split_ifs with heq
      · subst heq
        exact max_le hold (not_lt.mp fun hless => hwritable (hlater hchannel hless))
      · exact hold

theorem Sound.advance (h : Sound world)
    (hstored : ∀ other, isPrunableContextKey other = false →
      (world.advance i contextId moment now).marked other ≤
        (world.advance i contextId moment now).storedMarker other) :
    Sound (world.advance i contextId moment now) where
  memory_nonneg := fun j other => (h.memory_nonneg j other).trans (advance_memory h j other).1
  memory_le := fun j other => (advance_memory h j other).2
  stored_le := advance_stored_le h
  marked_le := hstored

/-- The condition on a mark, at the level of the world. -/
theorem advance_iff (h : Sound world) :
    (∀ other, isPrunableContextKey other = false →
        (world.advance i contextId moment now).marked other ≤
          (world.advance i contextId moment now).storedMarker other) ↔
      world.Orderly (.mark i contextId moment now) := by
  rcases le_or_gt moment ((world.managers i).getOwnTimestamp contextId) with hle | hlt
  · rw [advance_of_le h hle]
    exact iff_of_true h.marked_le fun hlt => absurd hle (not_le.mpr hlt)
  · rw [advance_stored_iff h hlt]
    exact ⟨fun hclear _ => hclear, fun hclear => hclear hlt⟩

end Advance

section Load

theorem initialize_of_loaded
    (hloaded : ¬((world.managers i).initialized = false ∧ (world.managers i).destroyed = false)) :
    world.perform (.initializeManager i now) = world := by
  have hflag : ((world.managers i).initialized || (world.managers i).destroyed) = true := by
    by_contra hnot
    rw [Bool.not_eq_true, Bool.or_eq_false_iff] at hnot
    exact hloaded hnot
  rw [ReadStateWorld.perform, ReadStateManager.initializeManager, if_pos hflag]
  exact update_self world i

theorem hydrated_le_marked (h : Sound world) (i : ℕ) (other : String) :
    ((world.managers i).hydrated world.stored).getOwnTimestamp other ≤ world.marked other := by
  rcases hydrated_cases (world.managers i) world.stored other with heq | heq
  · rw [heq]
    exact h.stored_le other
  · rw [heq]
    exact h.memory_le i other

theorem stored_le_hydrated (h : Sound world) (i : ℕ) (other : String) :
    world.storedMarker other ≤
      ((world.managers i).hydrated world.stored).getOwnTimestamp other :=
  readStored_le_hydrated (h.memory_nonneg i other)

variable (hunloaded : (world.managers i).initialized = false)
  (halive : (world.managers i).destroyed = false)

include hunloaded halive

theorem initialize_memory (j : ℕ) (other : String) :
    ((world.perform (.initializeManager i now)).managers j).getOwnTimestamp other =
      if j = i then ((world.managers i).hydrated world.stored).getOwnTimestamp other
      else (world.managers j).getOwnTimestamp other := by
  change (Function.update world.managers i _ j).getOwnTimestamp other = _
  rw [Function.update_apply]
  split_ifs
  · exact initialize_own hunloaded halive
  · rfl

/-- Loading stores between what was stored and what is in memory then, `protoKey` apart. -/
theorem initialize_storedMarker (h : Sound world) (other : String) :
    (isPrunableContextKey other = false → (other = protoKey →
          Writable ((world.managers i).hydrated world.stored).effectiveState now →
            world.storedMarker other ≤ 0) → world.storedMarker other ≤
        (world.perform (.initializeManager i now)).storedMarker other) ∧
      (world.perform (.initializeManager i now)).storedMarker other ≤ world.marked other ∧
      (Writable ((world.managers i).hydrated world.stored).effectiveState now →
        (world.perform (.initializeManager i now)).storedMarker protoKey ≤ 0) := by
  have hstored (other : String) : (world.perform (.initializeManager i now)).storedMarker other =
      (readStoredReadState (((world.managers i).hydrated world.stored).persistLocalState
        world.stored now)).own other := by
    change (readStoredReadState ((world.managers i).initializeManager world.stored now).2).own
      other = _
    rw [initialize_stored hunloaded halive]
  rw [hstored, hstored]
  by_cases hwritable : Writable ((world.managers i).hydrated world.stored).effectiveState now
  · obtain ⟨hchannels, hle⟩ := readStored_persisted world.stored other hwritable
    have hmemory : 0 ≤ ((world.managers i).hydrated world.stored).getOwnTimestamp other :=
      readStored_nonneg.trans (stored_le_hydrated h i other)
    refine ⟨fun hchannel hproto => le_trans ?_ (hchannels hchannel), hle.trans ?_, fun _ => ?_⟩
    · rw [Contexts.storable]
      split_ifs with heq
      · exact hproto heq hwritable
      · exact stored_le_hydrated h i other
    · exact max_le (hmemory.trans (hydrated_le_marked h i other))
        ((storable_le_own hmemory).trans (hydrated_le_marked h i other))
    · refine (readStored_persisted world.stored protoKey hwritable).2.trans ?_
      rw [Contexts.storable, if_pos rfl, max_self]
  · rw [persist_of_not_writable hwritable]
    exact ⟨fun _ _ => le_rfl, h.stored_le other, fun hwrites => absurd hwrites hwritable⟩

/-- Loading takes no mark back in memory exactly when nothing there is later than what is loaded. -/
theorem initialize_memory_iff :
    (∀ j other, (world.managers j).getOwnTimestamp other ≤
        ((world.perform (.initializeManager i now)).managers j).getOwnTimestamp other) ↔
      ∀ entry ∈ (readStoredReadState world.stored).entries,
        (world.managers i).getOwnTimestamp entry.1 ≤ entry.2 := by
  have hload := le_hydrated_iff (world.managers i) world.stored
  constructor
  · intro hmemory
    refine hload.mp fun other => ?_
    have hle := hmemory i other
    rwa [initialize_memory hunloaded halive, if_pos rfl] at hle
  · intro hclear j other
    rw [initialize_memory hunloaded halive]
    split_ifs with heq
    · subst heq
      exact hload.mpr hclear other
    · exact le_rfl

/-- Loading keeps what is stored exactly when it does not write over a mark of `protoKey`. -/
theorem initialize_stored_iff (h : Sound world) :
    (∀ other, isPrunableContextKey other = false → world.marked other ≤
        (world.perform (.initializeManager i now)).storedMarker other) ↔
      (Writable ((world.managers i).hydrated world.stored).effectiveState now →
        world.storedMarker protoKey ≤ 0) := by
  constructor
  · intro hstored hwritable
    exact (h.stored_le protoKey).trans ((hstored protoKey protoKey_channel).trans
      ((initialize_storedMarker hunloaded halive h protoKey).2.2 hwritable))
  · intro hproto other hchannel
    refine (h.marked_le other hchannel).trans
      ((initialize_storedMarker hunloaded halive h other).1 hchannel ?_)
    rintro rfl hwritable
    exact hproto hwritable

end Load

section Run

theorem keepsMarks_advance (h : Sound world) (hcall : world.perform call =
      world.advance i contextId moment now) (hkind : ∀ j now, call ≠ .initializeManager j now) :
    world.KeepsMarks call ↔ world.Orderly (.mark i contextId moment now) := by
  have hmarked : ∀ other, world.marked other ≤ (world.perform call).marked other := by
    intro other
    rw [hcall]
    exact marked_le_advance other
  rw [keepsMarks_iff h hmarked, hcall, ← advance_iff h]
  constructor
  · exact fun hkeeps => hkeeps.2.2
  · exact fun hstored => ⟨fun j other => (advance_memory h j other).1,
      fun j now heq => absurd heq (hkind j now), hstored⟩

theorem keepsMarks_initialize (h : Sound world) :
    world.KeepsMarks (.initializeManager i now) ↔ world.Orderly (.initializeManager i now) := by
  rw [keepsMarks_iff h fun _ => le_rfl]
  by_cases hfresh : (world.managers i).initialized = false ∧ (world.managers i).destroyed = false
  · obtain ⟨hunloaded, halive⟩ := hfresh
    rw [initialize_memory_iff hunloaded halive]
    constructor
    · exact fun hkeeps _ _ => ⟨hkeeps.1, (initialize_stored_iff hunloaded halive h).mp hkeeps.2.2⟩
    · intro hclear
      obtain ⟨hmemory, hproto⟩ := hclear hunloaded halive
      refine ⟨hmemory, ?_, (initialize_stored_iff hunloaded halive h).mpr hproto⟩
      rintro j clock heq - - other hchannel
      cases heq
      rw [initialize_memory hunloaded halive, if_pos rfl]
      exact (h.marked_le other hchannel).trans (stored_le_hydrated h i other)
  · rw [initialize_of_loaded hfresh]
    refine iff_of_true ⟨fun _ _ => le_rfl, ?_, h.marked_le⟩ ?_
    · rintro j clock heq hunloaded halive
      cases heq
      exact absurd ⟨hunloaded, halive⟩ hfresh
    · exact fun hunloaded halive => absurd ⟨hunloaded, halive⟩ hfresh

theorem destroy_memory (j : ℕ) (other : String) :
    ((world.perform (.destroy i)).managers j).getOwnTimestamp other =
      (world.managers j).getOwnTimestamp other := by
  change (Function.update world.managers i _ j).getOwnTimestamp other = _
  rw [Function.update_apply]
  split_ifs with heq
  · rw [heq]
    rfl
  · rfl

theorem keepsMarks_iff_orderly (h : Sound world) : world.KeepsMarks call ↔ world.Orderly call := by
  cases call with
  | mark i contextId moment now | seed i contextId moment now =>
      exact keepsMarks_advance h rfl fun _ _ heq => nomatch heq
  | initializeManager i now => exact keepsMarks_initialize h
  | destroy i =>
      rw [keepsMarks_iff h fun _ => le_rfl]
      refine iff_of_true ⟨fun j other => ?_, fun _ _ heq => (nomatch heq), h.marked_le⟩ trivial
      rw [destroy_memory]

theorem Sound.initialize (h : Sound world) (hclear : world.Orderly (.initializeManager i now)) :
    Sound (world.perform (.initializeManager i now)) := by
  by_cases hfresh : (world.managers i).initialized = false ∧ (world.managers i).destroyed = false
  · obtain ⟨hunloaded, halive⟩ := hfresh
    constructor
    · intro j other
      rw [initialize_memory hunloaded halive]
      split_ifs
      · exact readStored_nonneg.trans (stored_le_hydrated h i other)
      · exact h.memory_nonneg j other
    · intro j other
      rw [initialize_memory hunloaded halive]
      split_ifs
      · exact hydrated_le_marked h i other
      · exact h.memory_le j other
    · exact fun other => (initialize_storedMarker hunloaded halive h other).2.1
    · exact (initialize_stored_iff hunloaded halive h).mpr (hclear hunloaded halive).2
  · rw [initialize_of_loaded hfresh]
    exact h

theorem Sound.perform (h : Sound world) (hclear : world.Orderly call) :
    Sound (world.perform call) := by
  cases call with
  | mark i contextId moment now | seed i contextId moment now =>
      exact h.advance ((advance_iff h).mpr hclear)
  | initializeManager i now => exact h.initialize hclear
  | destroy i =>
      constructor
      · intro j other
        rw [destroy_memory]
        exact h.memory_nonneg j other
      · intro j other
        rw [destroy_memory]
        exact h.memory_le j other
      · exact h.stored_le
      · exact h.marked_le

theorem along_keepsMarks_iff (calls : List ReadStateCall) :
    ∀ {world : ReadStateWorld}, Sound world →
      (Along KeepsMarks world calls ↔ Along Orderly world calls) := by
  induction calls with
  | nil => exact fun _ => Iff.rfl
  | cons call rest ih =>
      intro world h
      have hcall : world.KeepsMarks call ↔ world.Orderly call := keepsMarks_iff_orderly h
      constructor
      · rintro ⟨hkeeps, hrest⟩
        exact ⟨hcall.mp hkeeps, (ih (h.perform (hcall.mp hkeeps))).mp hrest⟩
      · rintro ⟨hclear, hrest⟩
        exact ⟨hcall.mpr hclear, (ih (h.perform hclear)).mpr hrest⟩

/-- A channel was read in November 2023. -/
def readChannel : StoredRecord := [("general", some 1700000000000)]

/-- Another channel is marked before the stored ones are loaded. -/
def earlyMark : List ReadStateCall :=
  [.mark 0 "random" 1700000500 1700000600, .initializeManager 0 1700000700]

end Run

end Invariant

end Buzz.ReadState
