import Buzz.PairingSession
import Mathlib.Data.String.Basic

/-!
# The head of an engram

All events written for one slug compete, and the latest one is the head: the greatest time stamp
wins, and between two of the same second the smaller id. A writer stamps its event behind the head
it has seen, whatever its own clock says.
-/

namespace Buzz.Engram

structure Event where
  id : Bytes32
  createdAt : UInt64
  content : String
  deriving DecidableEq, Repr

section Head

def newerEvent (a b : Event) : Event :=
  if a.createdAt < b.createdAt then b
  else if b.createdAt < a.createdAt then a
  else if hexEncode b.id.1 < hexEncode a.id.1 then b
  else a

def selectHead : List Event → Option Event
  | [] => none
  | event :: rest => some (rest.foldl newerEvent event)

def saturatingAdd (a b : UInt64) : UInt64 :=
  if a.toNat + b.toNat < 2 ^ 64 then a + b else 0xffffffffffffffff

def monotonicCreatedAt (now : UInt64) : Option UInt64 → UInt64
  | some t => max now (saturatingAdd t 1)
  | none => now

end Head

section Writing

/-- What a writer brings along; the time stamp is added when it writes. -/
structure Draft where
  id : Bytes32
  content : String
  deriving DecidableEq, Repr

def stamp (now : UInt64) (seen : List Event) (draft : Draft) : Event where
  id := draft.id
  createdAt := monotonicCreatedAt now ((selectHead seen).map Event.createdAt)
  content := draft.content

/-- The events written so far, each by a writer that saw all the earlier ones in some order. -/
inductive WriteHistory : List Event → Prop where
  | none : WriteHistory []
  | write {events seen : List Event} (now : UInt64) (draft : Draft) : WriteHistory events →
      seen.Perm events →
      (∀ head, selectHead seen = some head → head.createdAt < 0xffffffffffffffff) →
      WriteHistory (events ++ [stamp now seen draft])

end Writing

section Order

theorem hexDigit_lt_iff : ∀ m < 16, ∀ n < 16, Buzz.hexDigit m < Buzz.hexDigit n ↔ m < n := by
  decide

theorem hexDigit_inj : ∀ m < 16, ∀ n < 16, Buzz.hexDigit m = Buzz.hexDigit n ↔ m = n := by
  decide

/-- Hexadecimal text is ordered as the bytes are. -/
theorem hexEncode_lt_iff (a b : List UInt8) : hexEncode a < hexEncode b ↔ a < b := by
  rw [String.lt_iff_toList_lt, hexEncode, hexEncode, String.toList_ofList, String.toList_ofList]
  induction a generalizing b with
  | nil =>
      cases b with
      | nil => simp
      | cons y ys => simp
  | cons x xs ih =>
      cases b with
      | nil => simp
      | cons y ys =>
          have hx : x.toNat < 256 := x.toNat_lt
          have hy : y.toNat < 256 := y.toNat_lt
          have hhigh := hexDigit_lt_iff (x.toNat / 16) (by omega) (y.toNat / 16) (by omega)
          have hlow := hexDigit_lt_iff (x.toNat % 16) (by omega) (y.toNat % 16) (by omega)
          have hhigh' := hexDigit_inj (x.toNat / 16) (by omega) (y.toNat / 16) (by omega)
          have hlow' := hexDigit_inj (x.toNat % 16) (by omega) (y.toNat % 16) (by omega)
          simp only [List.flatMap_cons, List.cons_append, List.nil_append, List.cons_lt_cons_iff,
            ih, hhigh, hlow, hhigh', hlow', UInt8.lt_iff_toNat_lt, UInt8.toNat_inj.symm]
          by_cases hlt : xs < ys <;> simp only [hlt, and_true, and_false, or_false] <;> omega

/-- `a` wins against `b`: it is later, or of the same second and not behind by its id. -/
def Outranks (a b : Event) : Prop :=
  b.createdAt < a.createdAt ∨ (b.createdAt = a.createdAt ∧ a.id.1 ≤ b.id.1)

instance (a b : Event) : Decidable (Outranks a b) :=
  inferInstanceAs (Decidable (_ ∨ _))

structure IsHead (events : List Event) (head : Event) : Prop where
  mem : head ∈ events
  outranks : ∀ event ∈ events, Outranks head event

theorem Outranks.refl (a : Event) : Outranks a a := .inr ⟨rfl, List.le_refl _⟩

theorem Outranks.trans {a b c : Event} (hab : Outranks a b) (hbc : Outranks b c) :
    Outranks a c := by
  rcases hab with hab | ⟨hab, hid⟩ <;> rcases hbc with hbc | ⟨hbc, hid'⟩
  · exact .inl (UInt64.lt_trans hbc hab)
  · exact .inl (hbc ▸ hab)
  · exact .inl (hab ▸ hbc)
  · exact .inr ⟨hbc.trans hab, List.le_trans hid hid'⟩

/-- Only one of two events with different ids outranks the other. -/
theorem Outranks.antisymm {a b : Event} (hab : Outranks a b) (hba : Outranks b a) :
    a.id = b.id := by
  rcases hab with hab | ⟨_, hid⟩ <;> rcases hba with hba | ⟨heq, hid'⟩
  · exact absurd hab (UInt64.lt_asymm hba)
  · exact absurd hab (heq ▸ UInt64.lt_irrefl _)
  · rename_i heq
    exact absurd hba (heq ▸ UInt64.lt_irrefl _)
  · exact Subtype.ext (List.le_antisymm hid hid')

theorem newerEvent_spec (a b : Event) :
    (newerEvent a b = a ∧ Outranks a b) ∨ (newerEvent a b = b ∧ Outranks b a) := by
  unfold newerEvent
  simp only [hexEncode_lt_iff]
  split_ifs with hlt hgt hid
  · exact .inr ⟨rfl, .inl hlt⟩
  · exact .inl ⟨rfl, .inl hgt⟩
  · exact .inr ⟨rfl, .inr ⟨UInt64.le_antisymm (UInt64.not_lt.mp hgt) (UInt64.not_lt.mp hlt),
      List.le_of_lt hid⟩⟩
  · exact .inl ⟨rfl, .inr ⟨UInt64.le_antisymm (UInt64.not_lt.mp hlt) (UInt64.not_lt.mp hgt),
      List.not_lt.mp hid⟩⟩

theorem isHead_foldl (rest : List Event) :
    ∀ first : Event, IsHead (first :: rest) (rest.foldl newerEvent first) := by
  induction rest with
  | nil =>
      intro first
      refine ⟨List.mem_singleton_self first, fun event hevent => ?_⟩
      rw [List.mem_singleton.mp hevent]
      exact Outranks.refl first
  | cons second rest ih =>
      intro first
      obtain ⟨hmem, hout⟩ := ih (newerEvent first second)
      have hnewer := hout _ List.mem_cons_self
      rw [List.foldl_cons]
      -- the winner of the first two is either of them, and outranks both
      have hboth : Outranks (newerEvent first second) first ∧
          Outranks (newerEvent first second) second := by
        rcases newerEvent_spec first second with ⟨heq, hwin⟩ | ⟨heq, hwin⟩ <;> rw [heq]
        · exact ⟨Outranks.refl first, hwin⟩
        · exact ⟨hwin, Outranks.refl second⟩
      constructor
      · rcases List.mem_cons.mp hmem with heq | hmem
        · rcases newerEvent_spec first second with ⟨hfirst, _⟩ | ⟨hsecond, _⟩
          · rw [heq, hfirst]
            exact List.mem_cons_self
          · rw [heq, hsecond]
            exact List.mem_cons_of_mem _ List.mem_cons_self
        · exact List.mem_cons_of_mem _ (List.mem_cons_of_mem _ hmem)
      · intro event hevent
        rcases List.mem_cons.mp hevent with rfl | hevent
        · exact hnewer.trans hboth.1
        · rcases List.mem_cons.mp hevent with rfl | hevent
          · exact hnewer.trans hboth.2
          · exact hout event (List.mem_cons_of_mem _ hevent)

theorem isHead_of_selectHead {events : List Event} {head : Event}
    (h : selectHead events = some head) : IsHead events head := by
  cases events with
  | nil => cases h
  | cons first rest =>
      cases h
      exact isHead_foldl rest first

theorem selectHead_isSome {events : List Event} {event : Event} (h : event ∈ events) :
    ∃ head, selectHead events = some head := by
  cases events with
  | nil => cases h
  | cons first rest => exact ⟨_, rfl⟩

theorem IsHead.perm {events order : List Event} {head : Event} (h : IsHead events head)
    (hperm : order.Perm events) : IsHead order head :=
  ⟨hperm.mem_iff.mpr h.mem, fun event hevent => h.outranks event (hperm.mem_iff.mp hevent)⟩

theorem IsHead.unique {events : List Event} {first second : Event}
    (hids : (events.map Event.id).Nodup) (h : IsHead events first) (h' : IsHead events second) :
    first = second := by
  have hid : first.id = second.id :=
    (h.outranks second h'.mem).antisymm (h'.outranks first h.mem)
  exact List.inj_on_of_nodup_map hids h.mem h'.mem hid

theorem selectHead_eq_some_iff {events : List Event} {head : Event}
    (hids : (events.map Event.id).Nodup) : selectHead events = some head ↔ IsHead events head := by
  refine ⟨isHead_of_selectHead, fun h => ?_⟩
  obtain ⟨other, hother⟩ := selectHead_isSome h.mem
  rw [hother, (isHead_of_selectHead hother).unique hids h]

end Order

section LastWrite

theorem lt_saturatingAdd_one {t : UInt64} (h : t < 0xffffffffffffffff) :
    t < saturatingAdd t 1 := by
  rw [UInt64.lt_iff_toNat_lt] at h ⊢
  have hmax : (0xffffffffffffffff : UInt64).toNat = 2 ^ 64 - 1 := rfl
  have hone : (1 : UInt64).toNat = 1 := rfl
  unfold saturatingAdd
  rw [if_pos (by omega), UInt64.toNat_add]
  omega

theorem le_max_stamp (now t : UInt64) : t ≤ max now t := by
  change t ≤ if now ≤ t then t else now
  split_ifs with h
  · exact UInt64.le_refl t
  · exact UInt64.le_of_lt (UInt64.not_le.mp h)

/-- A new event is later than everything its writer has seen. -/
theorem lt_stamp {seen : List Event} {event : Event} (now : UInt64) (draft : Draft)
    (hbound : ∀ head, selectHead seen = some head → head.createdAt < 0xffffffffffffffff)
    (hevent : event ∈ seen) : event.createdAt < (stamp now seen draft).createdAt := by
  obtain ⟨head, hhead⟩ := selectHead_isSome hevent
  have hle : event.createdAt ≤ head.createdAt := by
    rcases (isHead_of_selectHead hhead).outranks event hevent with hlt | ⟨heq, _⟩
    · exact UInt64.le_of_lt hlt
    · exact heq ▸ UInt64.le_refl _
  have hlt := lt_saturatingAdd_one (hbound head hhead)
  simp only [stamp, hhead, Option.map_some, monotonicCreatedAt]
  have hmax : saturatingAdd head.createdAt 1 ≤ max now (saturatingAdd head.createdAt 1) :=
    le_max_stamp now _
  exact UInt64.lt_of_le_of_lt hle (UInt64.lt_of_lt_of_le hlt hmax)

/-- The latest write is later than every other one. -/
theorem WriteHistory.latest {events : List Event} (h : WriteHistory events) {latest : Event}
    (hlast : events.getLast? = some latest) :
    ∀ event ∈ events, event = latest ∨ event.createdAt < latest.createdAt := by
  cases h with
  | none => cases hlast
  | @write events seen now draft _ hperm hbound =>
      have hlatest : stamp now seen draft = latest := by simpa using hlast
      subst hlatest
      intro event hevent
      rcases List.mem_append.mp hevent with hevent | hevent
      · exact .inr (lt_stamp now draft hbound (hperm.mem_iff.mpr hevent))
      · exact .inl (List.mem_singleton.mp hevent)

theorem WriteHistory.selectHead {events seen : List Event} (h : WriteHistory events)
    {latest : Event} (hlast : events.getLast? = some latest) (hperm : seen.Perm events) :
    Engram.selectHead seen = some latest := by
  have hmem : latest ∈ seen := hperm.mem_iff.mpr (List.mem_of_getLast? hlast)
  obtain ⟨head, hhead⟩ := selectHead_isSome hmem
  obtain ⟨hin, hout⟩ := isHead_of_selectHead hhead
  rcases h.latest hlast head (hperm.mem_iff.mp hin) with rfl | hlt
  · exact hhead
  · rcases hout latest hmem with hgt | ⟨heq, _⟩
    · exact absurd hlt (UInt64.lt_asymm hgt)
    · exact absurd hlt (heq ▸ UInt64.lt_irrefl _)

/-- The head of distinct events does not depend on their order, and in a history in which every
writer stamps its event behind the head it saw, the head is the latest write. -/
theorem last_write_wins :
    (∀ events : List Event, (events.map Event.id).Nodup →
      (∀ order, order.Perm events → selectHead order = selectHead events) ∧
      (events ≠ [] → ∃ head, selectHead events = some head) ∧
      ∀ head, selectHead events = some head ↔ IsHead events head) ∧
    (∀ events latest, WriteHistory events → events.getLast? = some latest →
      ∀ seen, seen.Perm events → selectHead seen = some latest) := by
  constructor
  · intro events hids
    refine ⟨fun order hperm => ?_, fun hne => ?_, fun head => selectHead_eq_some_iff hids⟩
    · have horder : (order.map Event.id).Nodup := (hperm.map Event.id).nodup_iff.mpr hids
      ext head
      rw [selectHead_eq_some_iff horder, selectHead_eq_some_iff hids]
      exact ⟨fun h => h.perm hperm.symm, fun h => h.perm hperm⟩
    · obtain ⟨event, hevent⟩ := List.exists_mem_of_ne_nil events hne
      exact selectHead_isSome hevent
  · intro events latest hwritten hlast seen hperm
    exact hwritten.selectHead hlast hperm

def idOf (byte : UInt8) : Bytes32 := ⟨List.replicate 32 byte, rfl⟩

def tiedEvents : List Event := [⟨idOf 2, 5, "second"⟩, ⟨idOf 1, 5, "first"⟩]

-- the second writer has a clock that is behind
def skewedHistory : List Event := [⟨idOf 2, 100, "early"⟩, ⟨idOf 1, 101, "late"⟩]

theorem skewedHistory_writes : WriteHistory skewedHistory := by
  have hfirst : WriteHistory [⟨idOf 2, 100, "early"⟩] :=
    WriteHistory.write 100 ⟨idOf 2, "early"⟩ WriteHistory.none (List.Perm.refl [])
      (fun _ h => nomatch h)
  refine WriteHistory.write 7 ⟨idOf 1, "late"⟩ hfirst (List.Perm.refl _) ?_
  intro head hhead
  obtain rfl := Option.some_inj.mp hhead
  decide

theorem last_write_wins_skewed :
    selectHead tiedEvents = some ⟨idOf 1, 5, "first"⟩ ∧
      (∀ order, order.Perm tiedEvents → selectHead order = selectHead tiedEvents) ∧
      selectHead skewedHistory.reverse = some ⟨idOf 1, 101, "late"⟩ :=
  ⟨by decide, (last_write_wins.1 tiedEvents (by decide)).1,
    last_write_wins.2 skewedHistory _ skewedHistory_writes rfl _ (List.reverse_perm _)⟩

end LastWrite

end Buzz.Engram
