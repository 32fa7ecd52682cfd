import Buzz.DoubleRounding
import Buzz.ReadState

/-!
# The times of the read markers

A marker is any finite number, as a sender claims it. It is in memory before its text is made, and
the text of every marker in memory is made at each mark. A number that is beyond every date has
none, so that nothing is stored and nobody is told from then on.
-/

namespace Buzz.ReadTimes

open DoubleRounding

section Numbers

/-- A finite number of the runtime. -/
structure FiniteNumber where
  value : ℚ
  isDouble : IsDouble value

/-- The milliseconds that a date can have. -/
structure TimeValue where
  ms : ℤ
  isDate : |ms| ≤ 8640000000000000

/-- A number without its fraction. -/
def truncate (q : ℚ) : ℤ := if 0 ≤ q then ⌊q⌋ else ⌈q⌉

theorem abs_truncate_le {q : ℚ} {bound : ℤ} (h : |q| ≤ bound) : |truncate q| ≤ bound := by
  obtain ⟨hlow, hhigh⟩ := abs_le.mp h
  unfold truncate
  split_ifs with hsign
  · have hnonneg := Int.floor_nonneg.mpr hsign
    rw [abs_of_nonneg hnonneg]
    exact_mod_cast (Int.floor_le q).trans hhigh
  · have hnonpos : ⌈q⌉ ≤ 0 := Int.ceil_le.mpr (by push_cast; linarith)
    rw [abs_of_nonpos hnonpos]
    have hceil : (-bound : ℤ) ≤ ⌈q⌉ := by
      have hle := hlow.trans (Int.le_ceil q)
      exact_mod_cast hle
    omega

/-- The moment is one of a date: its milliseconds are not beyond the greatest date. -/
def IsDate (unixSeconds : FiniteNumber) : Prop :=
  |toDouble (unixSeconds.value * 1000)| ≤ (8640000000000000 : ℤ)

instance (unixSeconds : FiniteNumber) : Decidable (IsDate unixSeconds) :=
  inferInstanceAs (Decidable (_ ≤ _))

/-- The date of a moment in seconds. Without one, its text cannot be made. -/
def dateOf (unixSeconds : FiniteNumber) : Option TimeValue :=
  if h : IsDate unixSeconds then
    some ⟨truncate (toDouble (unixSeconds.value * 1000)), abs_truncate_le h⟩
  else none

theorem isDouble_intCast {n : ℤ} (h : |n| < 2 ^ 53) : IsDouble n :=
  ⟨n, 0, h, by norm_num, by norm_num, by rw [zpow_zero, mul_one]⟩

/-- The whole seconds of a date. -/
def localIsoToUnixSeconds (time : TimeValue) : FiniteNumber where
  value := (time.ms / 1000 : ℤ)
  isDouble := isDouble_intCast (by
    obtain ⟨hlow, hhigh⟩ := abs_le.mp time.isDate
    rw [abs_lt]
    omega)

end Numbers

section Storage

abbrev Contexts := EntryMap String FiniteNumber

/-- The stored record: each context with the date of its text, where it is one. -/
abbrev StoredRecord := List (String × Option TimeValue)

/-- The marker of a context, zero where there is none. -/
def Contexts.own (contexts : Contexts) (contextId : String) : ℚ :=
  ((contexts.get? contextId).map FiniteNumber.value).getD 0

def mergeEntry (contexts : Contexts) (entry : String × Option TimeValue) : Contexts :=
  match entry.2 with
  | none => contexts
  | some time =>
      if contexts.own entry.1 < (localIsoToUnixSeconds time).value then
        contexts.set entry.1 (localIsoToUnixSeconds time)
      else contexts

def readStoredReadState (stored : StoredRecord) : Contexts :=
  stored.foldl mergeEntry EntryMap.empty

def cutoff (now : TimeValue) : ℤ := now.ms / 1000 - ReadState.readStateHorizonSeconds

def pruneStaleContexts (contexts : List (String × FiniteNumber)) (now : TimeValue) :
    List (String × FiniteNumber) :=
  let kept := contexts.filter fun entry => !ReadState.isPrunableContextKey entry.1
  let prunable := contexts.filter fun entry =>
    ReadState.isPrunableContextKey entry.1 && decide ((cutoff now : ℚ) ≤ entry.2.value)
  if ReadState.localMaxPrunableContexts < prunable.length then
    kept ++ (prunable.mergeSort fun left right => decide (right.2.value ≤ left.2.value)).take
      ReadState.localMaxPrunableContexts
  else kept ++ prunable

/-- The texts are made one after the other, and the first one that cannot be made throws. -/
def textsOf : List (String × FiniteNumber) → Option StoredRecord
  | [] => some []
  | entry :: rest =>
      match dateOf entry.2 with
      | none => none
      | some time => (textsOf rest).map fun record => (entry.1, some time) :: record

/-- Nothing is stored where a text cannot be made, and no text under the key of the prototype. -/
def writeStoredReadState (contexts : Contexts) (now : TimeValue) : Option StoredRecord :=
  (textsOf (pruneStaleContexts contexts.entries now)).map fun record =>
    record.filter fun entry => entry.1 ≠ ReadState.protoKey

end Storage

section Manager

structure ReadStateManager where
  effectiveState : Contexts
  listeners : List ℕ
  initialized : Bool
  destroyed : Bool

def newReadStateManager : ReadStateManager := ⟨EntryMap.empty, [], false, false⟩

/-- The manager and the stored record after a call, whether it returned, and the listeners that it
told. -/
structure Outcome where
  manager : ReadStateManager
  stored : StoredRecord
  returned : Bool
  notified : List ℕ

namespace ReadStateManager

variable (manager : ReadStateManager) (stored : StoredRecord)

def getOwnTimestamp (contextId : String) : ℚ := manager.effectiveState.own contextId

def advanced (contextId : String) (unixTimestamp : FiniteNumber) : ReadStateManager :=
  { manager with effectiveState := manager.effectiveState.set contextId unixTimestamp }

def advanceContext (contextId : String) (unixTimestamp : FiniteNumber) (now : TimeValue) :
    Outcome :=
  if unixTimestamp.value ≤ manager.getOwnTimestamp contextId then ⟨manager, stored, true, []⟩
  else
    match writeStoredReadState (manager.advanced contextId unixTimestamp).effectiveState now with
    | some record => ⟨manager.advanced contextId unixTimestamp, record, true, manager.listeners⟩
    | none => ⟨manager.advanced contextId unixTimestamp, stored, false, []⟩

def markContextRead (contextId : String) (unixTimestamp : FiniteNumber) (now : TimeValue) :
    Outcome :=
  manager.advanceContext stored contextId unixTimestamp now

def seedContextRead (contextId : String) (unixTimestamp : FiniteNumber) (now : TimeValue) :
    Outcome :=
  manager.advanceContext stored contextId unixTimestamp now

def hydrated : ReadStateManager :=
  { manager with effectiveState := manager.effectiveState.setAll (readStoredReadState stored) }

def initializeManager (now : TimeValue) : Outcome :=
  if manager.initialized || manager.destroyed then ⟨manager, stored, true, []⟩
  else
    match writeStoredReadState (manager.hydrated stored).effectiveState now with
    | some record =>
        ⟨{ manager.hydrated stored with initialized := true }, record, true, manager.listeners⟩
    | none => ⟨manager.hydrated stored, stored, false, []⟩

def subscribe (listener : ℕ) : ReadStateManager :=
  { manager with
    listeners :=
      if listener ∈ manager.listeners then manager.listeners else manager.listeners ++ [listener] }

def unsubscribe (listener : ℕ) : ReadStateManager :=
  { manager with listeners := manager.listeners.erase listener }

def destroy : ReadStateManager := { manager with listeners := [], destroyed := true }

end ReadStateManager

/-- A call of the manager, with what the clock shows. A new manager takes the place of the old
one. -/
inductive ReadTimeCall where
  | mark (contextId : String) (unixTimestamp : FiniteNumber) (now : TimeValue)
  | seed (contextId : String) (unixTimestamp : FiniteNumber) (now : TimeValue)
  | initializeManager (now : TimeValue)
  | subscribe (listener : ℕ)
  | unsubscribe (listener : ℕ)
  | destroy
  | mount

structure ReadTimeWorld where
  manager : ReadStateManager
  stored : StoredRecord

def firstWorld (stored : StoredRecord) : ReadTimeWorld := ⟨newReadStateManager, stored⟩

namespace ReadTimeWorld

variable (world : ReadTimeWorld)

def call : ReadTimeCall → Outcome
  | .mark contextId unixTimestamp now =>
      world.manager.markContextRead world.stored contextId unixTimestamp now
  | .seed contextId unixTimestamp now =>
      world.manager.seedContextRead world.stored contextId unixTimestamp now
  | .initializeManager now => world.manager.initializeManager world.stored now
  | .subscribe listener => ⟨world.manager.subscribe listener, world.stored, true, []⟩
  | .unsubscribe listener => ⟨world.manager.unsubscribe listener, world.stored, true, []⟩
  | .destroy => ⟨world.manager.destroy, world.stored, true, []⟩
  | .mount => ⟨newReadStateManager, world.stored, true, []⟩

def perform (call : ReadTimeCall) : ReadTimeWorld :=
  ⟨(world.call call).manager, (world.call call).stored⟩

end ReadTimeWorld

end Manager

end Buzz.ReadTimes
