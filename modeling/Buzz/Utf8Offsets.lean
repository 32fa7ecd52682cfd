import Mathlib.Data.List.Basic
import Mathlib.Tactic

/-!
# Byte offsets into UTF-8 text

A text as a list of characters, addressed by offsets into its UTF-8 bytes. Only
some offsets lie between two characters; those next to an ASCII byte do. A text is cut
at such an offset, or at the closest one below or above an arbitrary offset.
-/

namespace Utf8Offsets

def size (cs : List Char) : ℕ := (cs.map Char.utf8Size).sum

def bytes (cs : List Char) : List UInt8 := cs.flatMap String.utf8EncodeChar

/-- The offset lies between two characters or at one end. -/
def isBoundary : List Char → ℕ → Bool
  | _, 0 => true
  | [], _ + 1 => false
  | c :: cs, n + 1 => decide (c.utf8Size ≤ n + 1) && isBoundary cs (n + 1 - c.utf8Size)

/-- The characters that end within so many bytes. -/
def takeBytes (n : ℕ) : List Char → List Char
  | [] => []
  | c :: cs => if c.utf8Size ≤ n then c :: takeBytes (n - c.utf8Size) cs else []

def dropBytes (n : ℕ) (cs : List Char) : List Char := cs.drop (takeBytes n cs).length

/-- The text between two offsets, if both are boundaries in order. -/
def slice (cs : List Char) (start stop : ℕ) : Option (List Char) :=
  if start ≤ stop ∧ isBoundary cs start = true ∧ isBoundary cs stop = true then
    some (takeBytes (stop - start) (dropBytes start cs))
  else none

/-- The last boundary that is not above the offset. -/
def floorBoundary (cs : List Char) : ℕ → ℕ
  | 0 => 0
  | n + 1 => if isBoundary cs (n + 1) then n + 1 else floorBoundary cs n

/-- The first boundary that is not below the offset, or the end. -/
def ceilBoundary (cs : List Char) (n : ℕ) : ℕ :=
  if n < size cs ∧ isBoundary cs n = false then ceilBoundary cs (n + 1) else n
termination_by size cs - n

section Sizes

@[simp] theorem size_nil : size [] = 0 := rfl

@[simp] theorem size_cons (c : Char) (cs : List Char) : size (c :: cs) = c.utf8Size + size cs := by
  simp [size]

@[simp] theorem size_append (cs ds : List Char) : size (cs ++ ds) = size cs + size ds := by
  simp [size]

theorem size_eq_zero {cs : List Char} : size cs = 0 ↔ cs = [] := by
  cases cs with
  | nil => simp
  | cons c cs =>
      have hpos := c.utf8Size_pos
      simp only [size_cons, List.cons_ne_nil, iff_false]
      omega

theorem utf8ByteSize_ofList (cs : List Char) : (String.ofList cs).utf8ByteSize = size cs := by
  induction cs with
  | nil => rfl
  | cons c cs ih =>
      have hcons : String.ofList (c :: cs) = String.singleton c ++ String.ofList cs := by
        rw [String.singleton_eq_ofList, ← String.ofList_append, List.singleton_append]
      rw [hcons, String.utf8ByteSize_append, String.utf8ByteSize_singleton, ih, size_cons]

theorem utf8ByteSize_eq (s : String) : s.utf8ByteSize = size s.toList := by
  rw [← utf8ByteSize_ofList, String.ofList_toList]

theorem utf8Size_ascii {c : Char} (h : c.toNat < 128) : c.utf8Size = 1 := by
  have hle : c.val ≤ 0x7f := by
    rw [UInt32.le_iff_toNat_le]
    exact Nat.le_of_lt_succ h
  simp [Char.utf8Size, hle]

theorem size_of_ascii {cs : List Char} (h : ∀ c ∈ cs, c.toNat < 128) : size cs = cs.length := by
  induction cs with
  | nil => rfl
  | cons c cs ih =>
      obtain ⟨hc, hcs⟩ := List.forall_mem_cons.mp h
      rw [size_cons, utf8Size_ascii hc, ih hcs, List.length_cons, Nat.add_comm]

@[simp] theorem length_bytes (cs : List Char) : (bytes cs).length = size cs := by
  induction cs with
  | nil => rfl
  | cons c cs ih =>
      rw [bytes, List.flatMap_cons, List.length_append, String.length_utf8EncodeChar, size_cons,
        ← ih, bytes]

end Sizes

section Boundaries

variable {c : Char} {cs ds : List Char} {n : ℕ}

@[simp] theorem isBoundary_zero (cs : List Char) : isBoundary cs 0 = true := by
  cases cs <;> rfl

theorem isBoundary_cons_iff (c : Char) (cs : List Char) (hn : n ≠ 0) :
    isBoundary (c :: cs) n = true ↔ c.utf8Size ≤ n ∧ isBoundary cs (n - c.utf8Size) = true := by
  cases n with
  | zero => exact absurd rfl hn
  | succ n => rw [isBoundary, Bool.and_eq_true, decide_eq_true_eq]

theorem isBoundary_append (cs ds : List Char) : isBoundary (cs ++ ds) (size cs) = true := by
  induction cs with
  | nil => exact isBoundary_zero ds
  | cons c cs ih =>
      have hpos := c.utf8Size_pos
      rw [List.cons_append, isBoundary_cons_iff _ _ (by rw [size_cons]; omega), size_cons,
        Nat.add_sub_cancel_left]
      exact ⟨Nat.le_add_right _ _, ih⟩

theorem isBoundary_iff : isBoundary cs n = true ↔ ∃ before after, cs = before ++ after ∧
    size before = n := by
  constructor
  · intro h
    induction cs generalizing n with
    | nil =>
        cases n with
        | zero => exact ⟨[], [], rfl, rfl⟩
        | succ n => cases h
    | cons c cs ih =>
        by_cases hn : n = 0
        · exact ⟨[], c :: cs, rfl, hn.symm⟩
        · obtain ⟨hle, hrest⟩ := (isBoundary_cons_iff c cs hn).mp h
          obtain ⟨before, after, rfl, hsize⟩ := ih hrest
          refine ⟨c :: before, after, rfl, ?_⟩
          rw [size_cons, hsize]
          omega
  · rintro ⟨before, after, rfl, rfl⟩
    exact isBoundary_append before after

theorem takeBytes_append_dropBytes (n : ℕ) (cs : List Char) :
    takeBytes n cs ++ dropBytes n cs = cs := by
  have hprefix : takeBytes n cs <+: cs := by
    induction cs generalizing n with
    | nil => exact List.prefix_rfl
    | cons c cs ih =>
        rw [takeBytes]
        split_ifs
        · exact List.cons_prefix_cons.mpr ⟨rfl, ih _⟩
        · exact List.nil_prefix
  have htake := List.prefix_iff_eq_take.mp hprefix
  rw [dropBytes]
  conv_lhs => enter [1]; rw [htake]
  exact List.take_append_drop _ cs

theorem size_takeBytes_le (n : ℕ) (cs : List Char) : size (takeBytes n cs) ≤ n := by
  induction cs generalizing n with
  | nil => exact Nat.zero_le n
  | cons c cs ih =>
      rw [takeBytes]
      split_ifs with hle
      · have hrest := ih (n - c.utf8Size)
        rw [size_cons]
        omega
      · exact Nat.zero_le n

theorem takeBytes_append (cs ds : List Char) : takeBytes (size cs) (cs ++ ds) = cs := by
  induction cs with
  | nil =>
      cases ds with
      | nil => rfl
      | cons d ds =>
          have hpos := d.utf8Size_pos
          rw [List.nil_append, takeBytes, if_neg (by rw [size_nil]; omega)]
  | cons c cs ih =>
      rw [List.cons_append, takeBytes, size_cons, if_pos (Nat.le_add_right _ _),
        Nat.add_sub_cancel_left, ih]

theorem dropBytes_append (cs ds : List Char) : dropBytes (size cs) (cs ++ ds) = ds := by
  rw [dropBytes, takeBytes_append, List.drop_left]

theorem size_takeBytes (h : isBoundary cs n = true) : size (takeBytes n cs) = n := by
  obtain ⟨before, after, rfl, rfl⟩ := isBoundary_iff.mp h
  rw [takeBytes_append]

theorem slice_append (before mid after : List Char) :
    slice (before ++ mid ++ after) (size before) (size (before ++ mid)) = some mid := by
  have hstart : isBoundary (before ++ mid ++ after) (size before) = true := by
    rw [List.append_assoc]
    exact isBoundary_append before _
  have hle : size before ≤ size (before ++ mid) := by
    rw [size_append]
    exact Nat.le_add_right _ _
  rw [slice, if_pos ⟨hle, hstart, isBoundary_append (before ++ mid) after⟩, List.append_assoc,
    dropBytes_append, size_append, Nat.add_sub_cancel_left, takeBytes_append]

theorem takeBytes_of_size_le (h : size cs ≤ n) : takeBytes n cs = cs := by
  induction cs generalizing n with
  | nil => rfl
  | cons c cs ih =>
      rw [size_cons] at h
      rw [takeBytes, if_pos (by omega), ih (by omega)]

theorem takeBytes_prefix (n : ℕ) (cs : List Char) : takeBytes n cs <+: cs :=
  ⟨dropBytes n cs, takeBytes_append_dropBytes n cs⟩

theorem prefix_takeBytes_iff (h : ds <+: cs) : ds <+: takeBytes n cs ↔ size ds ≤ n := by
  obtain ⟨rest, rfl⟩ := h
  constructor
  · rintro ⟨more, hmore⟩
    have hle := size_takeBytes_le n (ds ++ rest)
    rw [← hmore, size_append] at hle
    exact Nat.le_of_add_right_le hle
  · intro hsize
    induction ds generalizing n with
    | nil => exact List.nil_prefix
    | cons d ds ih =>
        rw [size_cons] at hsize
        rw [List.cons_append, takeBytes, if_pos (by omega), List.cons_prefix_cons]
        exact ⟨rfl, ih (by omega)⟩

/-- No character ends at an offset that is no boundary. -/
theorem takeBytes_succ (h : isBoundary cs (n + 1) = false) :
    takeBytes (n + 1) cs = takeBytes n cs := by
  induction cs generalizing n with
  | nil => rfl
  | cons c cs ih =>
      have hpos := c.utf8Size_pos
      rw [takeBytes, takeBytes]
      by_cases hfit : c.utf8Size ≤ n
      · have hrest : isBoundary cs (n - c.utf8Size + 1) = false := by
          rw [Bool.eq_false_iff]
          intro hrest
          refine Bool.eq_false_iff.mp h ((isBoundary_cons_iff c cs (by omega)).mpr ⟨by omega, ?_⟩)
          rwa [show n + 1 - c.utf8Size = n - c.utf8Size + 1 by omega]
        rw [if_pos (by omega), if_pos hfit, show n + 1 - c.utf8Size = n - c.utf8Size + 1 by omega,
          ih hrest]
      · rw [if_neg hfit, if_neg]
        intro heq
        refine Bool.eq_false_iff.mp h ((isBoundary_cons_iff c cs (by omega)).mpr ⟨heq, ?_⟩)
        rw [show n + 1 - c.utf8Size = 0 by omega]
        exact isBoundary_zero cs

theorem takeBytes_floorBoundary (cs : List Char) (n : ℕ) :
    takeBytes (floorBoundary cs n) cs = takeBytes n cs := by
  induction n with
  | zero => rfl
  | succ n ih =>
      rw [floorBoundary]
      split_ifs with h
      · rfl
      · rw [ih, takeBytes_succ (Bool.eq_false_of_not_eq_true h)]

theorem le_ceilBoundary (cs : List Char) (n : ℕ) : n ≤ ceilBoundary cs n := by
  fun_induction ceilBoundary cs n with
  | case1 n h ih => exact Nat.le_of_succ_le ih
  | case2 n h => exact Nat.le_refl n

theorem isBoundary_size (cs : List Char) : isBoundary cs (size cs) = true := by
  simpa using isBoundary_append cs []

theorem ceilBoundary_spec (hn : n ≤ size cs) :
    ceilBoundary cs n ≤ size cs ∧ isBoundary cs (ceilBoundary cs n) = true := by
  fun_induction ceilBoundary cs n with
  | case1 n h ih => exact ih h.1
  | case2 n h =>
      refine ⟨hn, ?_⟩
      by_contra hnot
      rcases Nat.lt_or_eq_of_le hn with hlt | heq
      · exact h ⟨hlt, Bool.eq_false_of_not_eq_true hnot⟩
      · exact hnot (heq ▸ isBoundary_size cs)

end Boundaries

section Bytes

variable {c : Char} {cs : List Char} {n : ℕ} {byte : UInt8}

@[simp] theorem bytes_cons (c : Char) (cs : List Char) :
    bytes (c :: cs) = String.utf8EncodeChar c ++ bytes cs := by
  rw [bytes, List.flatMap_cons, bytes]

@[simp] theorem bytes_append (cs ds : List Char) : bytes (cs ++ ds) = bytes cs ++ bytes ds := by
  rw [bytes, List.flatMap_append, bytes, bytes]

theorem utf8EncodeChar_ascii (h : c.toNat < 128) :
    String.utf8EncodeChar c = [UInt8.ofNat c.toNat] := by
  have hle : c.val.toNat ≤ 0x7f := Nat.le_of_lt_succ h
  rw [String.utf8EncodeChar, if_pos hle]
  rfl

/-- Every byte of a longer character has its high bit set. -/
theorem ascii_of_mem_utf8EncodeChar (hbyte : byte ∈ String.utf8EncodeChar c)
    (hlt : byte.toNat < 128) : c.toNat < 128 := by
  by_contra hnot
  have hlarge : ¬c.val.toNat ≤ 0x7f := fun h => hnot (Nat.lt_succ_of_le h)
  have hhigh (n k b : ℕ) (hk : 0 < k) (hb : 128 ≤ b) (hsum : b + k ≤ 256) :
      ¬(UInt8.ofNat (n % k + b)).toNat < 128 := by
    have hmod := Nat.mod_lt n hk
    rw [UInt8.toNat_ofNat', Nat.mod_eq_of_lt (by omega)]
    omega
  unfold String.utf8EncodeChar at hbyte
  simp only [if_neg hlarge] at hbyte
  split_ifs at hbyte
  all_goals
    simp only [List.mem_cons, List.not_mem_nil, or_false] at hbyte
  · rcases hbyte with rfl | rfl
    · exact hhigh _ _ _ (by omega) (by omega) (by omega) hlt
    · exact hhigh _ _ _ (by omega) (by omega) (by omega) hlt
  · rcases hbyte with rfl | rfl | rfl
    · exact hhigh _ _ _ (by omega) (by omega) (by omega) hlt
    · exact hhigh _ _ _ (by omega) (by omega) (by omega) hlt
    · exact hhigh _ _ _ (by omega) (by omega) (by omega) hlt
  · rcases hbyte with rfl | rfl | rfl | rfl
    · exact hhigh _ _ _ (by omega) (by omega) (by omega) hlt
    · exact hhigh _ _ _ (by omega) (by omega) (by omega) hlt
    · exact hhigh _ _ _ (by omega) (by omega) (by omega) hlt
    · exact hhigh _ _ _ (by omega) (by omega) (by omega) hlt

theorem bytes_getElem_ascii (hbyte : (bytes cs)[n]? = some byte) (hlt : byte.toNat < 128) :
    isBoundary cs n = true ∧ isBoundary cs (n + 1) = true := by
  induction cs generalizing n with
  | nil => cases hbyte
  | cons c cs ih =>
      have hlength := String.length_utf8EncodeChar c
      rw [bytes_cons] at hbyte
      by_cases hn : n < c.utf8Size
      · rw [List.getElem?_append_left (by omega)] at hbyte
        have hascii := ascii_of_mem_utf8EncodeChar (List.mem_of_getElem? hbyte) hlt
        have hone := utf8Size_ascii hascii
        obtain rfl : n = 0 := by omega
        refine ⟨isBoundary_zero _, ?_⟩
        rw [isBoundary_cons_iff c cs (by omega), hone]
        exact ⟨le_rfl, isBoundary_zero cs⟩
      · rw [List.getElem?_append_right (by omega), hlength] at hbyte
        obtain ⟨hfirst, hnext⟩ := ih hbyte
        have hpos := c.utf8Size_pos
        have hsum : n + 1 - c.utf8Size = n - c.utf8Size + 1 := by omega
        rw [isBoundary_cons_iff c cs (by omega), isBoundary_cons_iff c cs (by omega), hsum]
        exact ⟨⟨by omega, hfirst⟩, by omega, hnext⟩

theorem bytes_getElem_append (before after : List Char) (n : ℕ) :
    (bytes (before ++ after))[size before + n]? = (bytes after)[n]? := by
  rw [bytes_append, List.getElem?_append_right (by rw [length_bytes]; omega), length_bytes,
    Nat.add_sub_cancel_left]

/-- An ASCII byte is a character of the text. -/
theorem exists_append_of_ascii (hbyte : (bytes cs)[n]? = some byte) (hlt : byte.toNat < 128) :
    ∃ before after, cs = before ++ Char.ofNat byte.toNat :: after ∧ size before = n := by
  obtain ⟨before, rest, rfl, rfl⟩ := isBoundary_iff.mp (bytes_getElem_ascii hbyte hlt).1
  have hfirst := bytes_getElem_append before rest 0
  rw [Nat.add_zero, hbyte] at hfirst
  cases rest with
  | nil => cases hfirst
  | cons c after =>
      have hlength := String.length_utf8EncodeChar c
      have hpos := c.utf8Size_pos
      rw [bytes_cons, List.getElem?_append_left (by omega)] at hfirst
      have hascii := ascii_of_mem_utf8EncodeChar (List.mem_of_getElem? hfirst.symm) hlt
      rw [utf8EncodeChar_ascii hascii, List.getElem?_cons_zero] at hfirst
      obtain rfl := Option.some.inj hfirst
      have hnat : (UInt8.ofNat c.toNat).toNat = c.toNat := by
        rw [UInt8.toNat_ofNat']
        omega
      exact ⟨before, after, by rw [hnat, Char.ofNat_toNat], rfl⟩

theorem bytes_getElem_mem {b : UInt8} (hbyte : (bytes cs)[n]? = some b) :
    ∃ c ∈ cs, b ∈ String.utf8EncodeChar c :=
  List.mem_flatMap.mp (List.mem_of_getElem? hbyte)

theorem prefix_of_size_le {before longer : List Char} (h : before <+: cs) (hlonger : longer <+: cs)
    (hle : size before ≤ size longer) : before <+: longer := by
  rcases List.prefix_or_prefix_of_prefix h hlonger with hprefix | ⟨rest, rfl⟩
  · exact hprefix
  · cases rest with
    | nil => simp
    | cons c rest =>
        have hpos := c.utf8Size_pos
        rw [size_append, size_cons] at hle
        omega

theorem eq_of_size_eq {before other : List Char} (h : before <+: cs) (hother : other <+: cs)
    (heq : size before = size other) : before = other :=
  (prefix_of_size_le h hother heq.le).eq_of_length_le
    (prefix_of_size_le hother h heq.ge).length_le

end Bytes

end Utf8Offsets
