import Buzz.ByteTiling

/-!
# Checks on uploaded media

What the checks of uploaded files return, and how they read their bytes. An index out of range and
a sum that does not fit its word are outcomes of their own here.
-/

namespace Buzz.Media

inductive MediaError where
  | invalidImage
  | metadataForbidden
  | invalidVideo
  | moovNotAtFront
  | io (detail : String)
  deriving DecidableEq, Repr

inductive Fault where
  | refused (e : MediaError)
  | outOfRange
  | overflow
  deriving DecidableEq, Repr

abbrev Check (α : Type) := Except Fault α

def refuse {α : Type} (e : MediaError) : Check α := .error (.refused e)

/-- The bytes of an ASCII literal. -/
def ascii (s : String) : List UInt8 := s.toList.map fun c => UInt8.ofNat c.toNat

/-- `bytes[i]`. -/
def byteAt (bytes : List UInt8) (i : ℕ) : Check UInt8 :=
  match bytes[i]? with
  | some byte => .ok byte
  | none => .error .outOfRange

/-- `&bytes[i..stop]`. -/
def slice (bytes : List UInt8) (i stop : ℕ) : Check (List UInt8) :=
  if i ≤ stop ∧ stop ≤ bytes.length then .ok ((bytes.drop i).take (stop - i))
  else .error .outOfRange

/-- `bytes.get(i..i + n)`, a file that is too short being no image. -/
def read (bytes : List UInt8) (i n : ℕ) : Check (List UInt8) :=
  match ByteTiling.range bytes i n with
  | some piece => .ok piece
  | none => refuse .invalidImage

section Reading

variable {bytes rest : List UInt8} {i n : ℕ}

theorem drop_cons {byte : UInt8} (h : bytes.drop i = byte :: rest) :
    ∃ hlt : i < bytes.length, bytes[i] = byte ∧ bytes.drop (i + 1) = rest := by
  have hlt : i < bytes.length := by
    by_contra hnot
    rw [List.drop_eq_nil_of_le (Nat.not_lt.mp hnot)] at h
    cases h
  rw [List.drop_eq_getElem_cons hlt] at h
  exact ⟨hlt, (List.cons.inj h).1, (List.cons.inj h).2⟩

theorem drop_add_length {front : List UInt8} (h : bytes.drop i = front ++ rest) :
    bytes.drop (i + front.length) = rest := by
  rw [← List.drop_drop, h, List.drop_left]

theorem drop_split (text : List UInt8) (i k : ℕ) :
    text.drop i = (text.drop i).take k ++ text.drop (i + k) := by
  rw [← List.drop_drop, List.take_append_drop]

theorem exists_take (bytes : List UInt8) {i k : ℕ} (h : i + k ≤ bytes.length) :
    ∃ piece, piece.length = k ∧ bytes.drop i = piece ++ bytes.drop (i + k) :=
  ⟨(bytes.drop i).take k, by rw [List.length_take, List.length_drop]; omega,
    drop_split bytes i k⟩

theorem getElem?_of_drop {byte : UInt8} (h : bytes.drop i = byte :: rest) :
    bytes[i]? = some byte := by
  obtain ⟨hlt, hbyte, -⟩ := drop_cons h
  rw [List.getElem?_eq_getElem hlt, hbyte]

theorem drop_of_getElem? {byte : UInt8} (h : bytes[i]? = some byte) :
    bytes.drop i = byte :: bytes.drop (i + 1) := by
  obtain ⟨hlt, hbyte⟩ := List.getElem?_eq_some_iff.mp h
  rw [List.drop_eq_getElem_cons hlt, hbyte]

theorem byteAt_lt (h : i < bytes.length) : byteAt bytes i = .ok bytes[i] := by
  simp only [byteAt, List.getElem?_eq_getElem h]

theorem slice_of_drop {piece : List UInt8} {stop : ℕ} (h : bytes.drop i = piece ++ rest)
    (hi : i ≤ bytes.length) (hstop : stop = i + piece.length) :
    slice bytes i stop = .ok piece := by
  have hlength := congrArg List.length h
  rw [List.length_drop, List.length_append] at hlength
  rw [slice, if_pos (by omega), h, hstop, Nat.add_sub_cancel_left, List.take_left]

theorem read_of_drop {piece : List UInt8} (h : bytes.drop i = piece ++ rest)
    (hi : i ≤ bytes.length) (hn : n = piece.length) : read bytes i n = .ok piece := by
  have hrange := ByteTiling.range_eq_some.mpr ⟨hn.symm, rest, h, hi⟩
  rw [read, hrange]

theorem read_eq_ok {piece : List UInt8} (h : read bytes i n = .ok piece) :
    piece.length = n ∧ ∃ rest, bytes.drop i = piece ++ rest := by
  unfold read at h
  split at h
  · next hrange =>
      cases h
      obtain ⟨hlength, rest, heq, -⟩ := ByteTiling.range_eq_some.mp hrange
      exact ⟨hlength, rest, heq⟩
  · cases h

end Reading

end Buzz.Media
