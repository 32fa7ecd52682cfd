import Mathlib.Data.List.Basic
import Mathlib.Data.List.Nodup
import Mathlib.Tactic

/-!
# Maps that remember the order of insertion

A list of entries with distinct keys. Setting a key that is there changes its value in place;
another key goes to the end.
-/

structure EntryMap (α β : Type) where
  entries : List (α × β)
  nodup : (entries.map Prod.fst).Nodup

namespace EntryMap

variable {α β : Type}
variable {map : EntryMap α β} {key : α} {value : β}

def empty : EntryMap α β := ⟨[], List.nodup_nil⟩

theorem ext_entries {map other : EntryMap α β} (h : map.entries = other.entries) : map = other := by
  cases map
  cases other
  obtain rfl : _ = _ := h
  rfl

/-- Changes every value. -/
def mapValues {γ : Type} (map : EntryMap α β) (f : β → γ) : EntryMap α γ where
  entries := map.entries.map fun entry => (entry.1, f entry.2)
  nodup := by
    rw [List.map_map]
    exact map.nodup

theorem mapValues_keys {γ : Type} (map : EntryMap α β) (f : β → γ) :
    (map.mapValues f).entries.map Prod.fst = map.entries.map Prod.fst := by
  change (map.entries.map fun entry => (entry.1, f entry.2)).map Prod.fst = _
  rw [List.map_map]
  rfl

variable [DecidableEq α]

def get? (map : EntryMap α β) (key : α) : Option β :=
  (map.entries.find? fun entry => entry.1 = key).map Prod.snd

/-- The entries after a key is set. -/
def setEntries (entries : List (α × β)) (key : α) (value : β) : List (α × β) :=
  if key ∈ entries.map Prod.fst then
    entries.map fun entry => if entry.1 = key then (key, value) else entry
  else entries ++ [(key, value)]

theorem setEntries_keys (entries : List (α × β)) (key : α) (value : β) :
    (setEntries entries key value).map Prod.fst =
      if key ∈ entries.map Prod.fst then entries.map Prod.fst
      else entries.map Prod.fst ++ [key] := by
  unfold setEntries
  split_ifs
  · rw [List.map_map]
    apply List.map_congr_left
    intro entry _
    simp only [Function.comp_apply]
    split_ifs with heq
    · exact heq.symm
    · rfl
  · simp

def set (map : EntryMap α β) (key : α) (value : β) : EntryMap α β where
  entries := setEntries map.entries key value
  nodup := by
    rw [setEntries_keys]
    split_ifs with hmem
    · exact map.nodup
    · exact map.nodup.append (List.nodup_singleton key) (List.disjoint_singleton.mpr hmem)

theorem get?_eq_some_iff : map.get? key = some value ↔ (key, value) ∈ map.entries := by
  unfold get?
  constructor
  · intro h
    obtain ⟨entry, hfind, rfl⟩ := Option.map_eq_some_iff.mp h
    obtain rfl : entry.1 = key := by simpa using List.find?_some hfind
    exact List.mem_of_find?_eq_some hfind
  · intro hmem
    have hsome : (map.entries.find? fun entry => entry.1 = key).isSome = true :=
      List.find?_isSome.mpr ⟨_, hmem, by simp⟩
    obtain ⟨entry, hfind⟩ := Option.isSome_iff_exists.mp hsome
    have hkey : entry.1 = key := by simpa using List.find?_some hfind
    obtain rfl : entry = (key, value) :=
      List.inj_on_of_nodup_map map.nodup (List.mem_of_find?_eq_some hfind) hmem hkey
    rw [hfind]
    rfl

theorem get?_empty (key : α) : (empty : EntryMap α β).get? key = none :=
  rfl

theorem mem_set {key other : α} {value held : β} : (other, held) ∈ (map.set key value).entries ↔
      (other = key ∧ held = value) ∨ (other ≠ key ∧ (other, held) ∈ map.entries) := by
  change (other, held) ∈ setEntries map.entries key value ↔ _
  unfold setEntries
  split_ifs with hmem
  · constructor
    · intro h
      obtain ⟨entry, hentry, heq⟩ := List.mem_map.mp h
      split_ifs at heq with hkey
      · cases heq
        exact Or.inl ⟨rfl, rfl⟩
      · cases heq
        exact Or.inr ⟨hkey, hentry⟩
    · rintro (⟨rfl, rfl⟩ | ⟨hne, hentry⟩)
      · obtain ⟨entry, hentry, hkey⟩ := List.mem_map.mp hmem
        exact List.mem_map.mpr ⟨entry, hentry, if_pos hkey⟩
      · exact List.mem_map.mpr ⟨_, hentry, if_neg hne⟩
  · rw [List.mem_append, List.mem_singleton, Prod.mk.injEq]
    constructor
    · rintro (hentry | heq)
      · refine Or.inr ⟨?_, hentry⟩
        rintro rfl
        exact hmem (List.mem_map_of_mem hentry)
      · exact Or.inl heq
    · rintro (heq | ⟨-, hentry⟩)
      · exact Or.inr heq
      · exact Or.inl hentry

theorem get?_set (map : EntryMap α β) (key other : α) (value : β) :
    (map.set key value).get? other = if other = key then some value else map.get? other := by
  apply Option.ext
  intro held
  rw [get?_eq_some_iff, mem_set, ← get?_eq_some_iff]
  split_ifs with heq
  · simp [heq, eq_comm]
  · simp [heq]

/-- Sets every entry of the other map. -/
def setAll (map other : EntryMap α β) : EntryMap α β :=
  other.entries.foldl (fun held entry => held.set entry.1 entry.2) map

theorem get?_foldl_set (entries : List (α × β)) (key : α) :
    ∀ map : EntryMap α β, (entries.map Prod.fst).Nodup → ∀ value,
      ((entries.foldl (fun held entry => held.set entry.1 entry.2) map).get? key = some value ↔
        (key, value) ∈ entries ∨ (key ∉ entries.map Prod.fst ∧ map.get? key = some value)) := by
  induction entries with
  | nil => simp
  | cons entry rest ih =>
      intro map hnodup value
      obtain ⟨first, held⟩ := entry
      obtain ⟨hfresh, hrest⟩ := List.nodup_cons.mp hnodup
      rw [List.foldl_cons, ih _ hrest, get?_set]
      by_cases hkey : key = first
      · subst hkey
        have hnew : key ∉ rest.map Prod.fst := hfresh
        simp [hnew, or_comm, eq_comm]
      · simp [hkey]

theorem get?_setAll (map other : EntryMap α β) (key : α) :
    (map.setAll other).get? key = (other.get? key).or (map.get? key) := by
  apply Option.ext
  intro value
  rw [setAll, get?_foldl_set _ _ _ other.nodup, ← get?_eq_some_iff]
  cases hget : other.get? key with
  | some held =>
      have hmem : key ∈ other.entries.map Prod.fst :=
        List.mem_map_of_mem (get?_eq_some_iff.mp hget)
      simp [hmem]
  | none =>
      have hmem : key ∉ other.entries.map Prod.fst := by
        intro hmem
        obtain ⟨entry, hentry, rfl⟩ := List.mem_map.mp hmem
        rw [get?_eq_some_iff.mpr hentry] at hget
        cases hget
      simp [hmem]

theorem set_keys (map : EntryMap α β) (key : α) (value : β) :
    (map.set key value).entries.map Prod.fst =
      if key ∈ map.entries.map Prod.fst then map.entries.map Prod.fst
      else map.entries.map Prod.fst ++ [key] :=
  setEntries_keys map.entries key value

theorem mem_set_keys {key other : α} : other ∈ (map.set key value).entries.map Prod.fst ↔
      other = key ∨ other ∈ map.entries.map Prod.fst := by
  rw [set_keys]
  split_ifs with hmem
  · constructor
    · exact Or.inr
    · rintro (rfl | hother)
      · exact hmem
      · exact hother
  · rw [List.mem_append, List.mem_singleton, or_comm]

theorem get?_eq_none_iff : map.get? key = none ↔ key ∉ map.entries.map Prod.fst := by
  constructor
  · intro h hmem
    obtain ⟨entry, hentry, rfl⟩ := List.mem_map.mp hmem
    rw [get?_eq_some_iff.mpr hentry] at h
    cases h
  · intro hfresh
    rw [Option.eq_none_iff_forall_ne_some]
    intro value h
    exact hfresh (List.mem_map_of_mem (get?_eq_some_iff.mp h))

/-- Deletes a key. -/
def erase (map : EntryMap α β) (key : α) : EntryMap α β where
  entries := map.entries.filter fun entry => entry.1 ≠ key
  nodup := map.nodup.sublist (List.filter_sublist.map Prod.fst)

theorem mem_erase {entry : α × β} :
    entry ∈ (map.erase key).entries ↔ entry ∈ map.entries ∧ entry.1 ≠ key := by
  simp [erase]

theorem get?_erase (map : EntryMap α β) (key other : α) :
    (map.erase key).get? other = if other = key then none else map.get? other := by
  apply Option.ext
  intro value
  rw [get?_eq_some_iff, mem_erase, ← get?_eq_some_iff]
  split_ifs with heq
  · simp [heq]
  · simp [heq]

theorem perm_cons_erase (h : map.get? key = some value) :
    map.entries.Perm ((key, value) :: (map.erase key).entries) := by
  have hnew : (key, value) ∉ (map.erase key).entries := fun hmem => (mem_erase.mp hmem).2 rfl
  rw [List.perm_ext_iff_of_nodup map.nodup.of_map
    (List.nodup_cons.mpr ⟨hnew, (map.erase key).nodup.of_map⟩)]
  intro entry
  rw [List.mem_cons, mem_erase]
  constructor
  · intro hmem
    by_cases hkey : entry.1 = key
    · exact Or.inl (List.inj_on_of_nodup_map map.nodup hmem (get?_eq_some_iff.mp h) hkey)
    · exact Or.inr ⟨hmem, hkey⟩
  · rintro (rfl | ⟨hmem, -⟩)
    · exact get?_eq_some_iff.mp h
    · exact hmem

theorem length_erase (h : map.get? key = some value) :
    (map.erase key).entries.length + 1 = map.entries.length := by
  rw [(perm_cons_erase h).length_eq, List.length_cons]

theorem mem_foldl_erase (keys : List α) (entry : α × β) : ∀ map : EntryMap α β,
    entry ∈ (keys.foldl erase map).entries ↔ entry ∈ map.entries ∧ entry.1 ∉ keys := by
  induction keys with
  | nil => simp
  | cons key keys ih =>
      intro map
      rw [List.foldl_cons, ih, mem_erase, List.mem_cons, not_or, and_assoc]

theorem set_of_get? (h : map.get? key = some value) : map.set key value = map := by
  have hmem := get?_eq_some_iff.mp h
  have hkeys : key ∈ map.entries.map Prod.fst := List.mem_map_of_mem hmem
  apply ext_entries
  change setEntries map.entries key value = map.entries
  rw [setEntries, if_pos hkeys]
  nth_rewrite 2 [← List.map_id map.entries]
  apply List.map_congr_left
  intro entry hentry
  split_ifs with hkey
  · exact (List.inj_on_of_nodup_map map.nodup hentry hmem hkey).symm
  · rfl

theorem length_set (map : EntryMap α β) (key : α) (value : β) :
    (map.set key value).entries.length =
      if (map.get? key).isSome then map.entries.length else map.entries.length + 1 := by
  have hlength := congrArg List.length (set_keys map key value)
  rw [List.length_map] at hlength
  rw [hlength]
  by_cases hmem : key ∈ map.entries.map Prod.fst
  · have hsome : (map.get? key).isSome = true := by
      rw [Option.isSome_iff_ne_none, Ne, get?_eq_none_iff, not_not]
      exact hmem
    rw [if_pos hmem, if_pos hsome, List.length_map]
  · have hnone : map.get? key = none := get?_eq_none_iff.mpr hmem
    rw [if_neg hmem, hnone, List.length_append, List.length_map]
    rfl

/-- Setting a value that looks the same to a function keeps the image of the entries. -/
theorem map_entries_set {γ : Type} {held value : β}
    {f : α × β → γ} (h : map.get? key = some held) (hf : f (key, value) = f (key, held)) :
    (map.set key value).entries.map f = map.entries.map f := by
  have hmem := get?_eq_some_iff.mp h
  have hkeys : key ∈ map.entries.map Prod.fst := List.mem_map_of_mem hmem
  have hentries : (map.set key value).entries =
      map.entries.map fun entry => if entry.1 = key then (key, value) else entry := if_pos hkeys
  rw [hentries, List.map_map]
  apply List.map_congr_left
  intro entry hentry
  rw [Function.comp_apply]
  split_ifs with hkey
  · rw [hf, List.inj_on_of_nodup_map map.nodup hentry hmem hkey]
  · rfl

/-- Keeps the entries that a test accepts. -/
def filter (map : EntryMap α β) (keep : α × β → Bool) : EntryMap α β where
  entries := map.entries.filter keep
  nodup := map.nodup.sublist (List.filter_sublist.map Prod.fst)

theorem get?_filter_of_some {keep : α × β → Bool}
    (h : (map.filter keep).get? key = some value) : map.get? key = some value :=
  get?_eq_some_iff.mpr (List.mem_filter.mp (get?_eq_some_iff.mp h)).1

theorem get?_mapValues {γ : Type} (map : EntryMap α β) (f : β → γ) (key : α) :
    (map.mapValues f).get? key = (map.get? key).map f := by
  simp only [get?, mapValues, List.find?_map, Option.map_map]
  rfl

theorem mapValues_set {γ : Type} (map : EntryMap α β) (f : β → γ) (key : α) (value : β) :
    (map.set key value).mapValues f = (map.mapValues f).set key (f value) := by
  apply ext_entries
  change (setEntries map.entries key value).map _ = setEntries (map.mapValues f).entries key _
  unfold setEntries
  rw [mapValues_keys]
  by_cases hmem : key ∈ map.entries.map Prod.fst
  · rw [if_pos hmem, if_pos hmem]
    change _ = (map.entries.map _).map _
    rw [List.map_map, List.map_map]
    apply List.map_congr_left
    intro entry _
    simp only [Function.comp_apply]
    split_ifs <;> rfl
  · rw [if_neg hmem, if_neg hmem, List.map_append]
    rfl

theorem mapValues_erase {γ : Type} (map : EntryMap α β) (f : β → γ) (key : α) :
    (map.erase key).mapValues f = (map.mapValues f).erase key := by
  apply ext_entries
  change (map.entries.filter _).map _ = (map.entries.map _).filter _
  rw [List.filter_map]
  rfl

/-- A map holds the values of a function at its keys. -/
theorem entries_perm {keys : List α} {f : α → β} (hkeys : keys.Nodup)
    (hmem : ∀ key, key ∈ map.entries.map Prod.fst ↔ key ∈ keys)
    (hvalue : ∀ key value, map.get? key = some value → value = f key) :
    map.entries.Perm (keys.map fun key => (key, f key)) := by
  rw [List.perm_ext_iff_of_nodup map.nodup.of_map
    (hkeys.map fun first second heq => congrArg Prod.fst heq)]
  rintro ⟨key, value⟩
  rw [List.mem_map]
  constructor
  · intro hentry
    obtain rfl := hvalue key value (get?_eq_some_iff.mpr hentry)
    exact ⟨key, (hmem key).mp (List.mem_map_of_mem hentry), rfl⟩
  · rintro ⟨held, hheld, heq⟩
    obtain ⟨rfl, rfl⟩ := Prod.mk.inj heq
    obtain ⟨⟨found, value⟩, hentry, hfound⟩ := List.mem_map.mp ((hmem held).mpr hheld)
    obtain rfl : found = held := hfound
    obtain rfl := hvalue found value (get?_eq_some_iff.mpr hentry)
    exact hentry

end EntryMap
