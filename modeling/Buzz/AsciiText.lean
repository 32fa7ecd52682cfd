import Mathlib.Data.List.Basic
import Mathlib.Tactic

/-!
# ASCII comparisons on identifiers

Identifiers travel as text. They are compared either exactly or up to ASCII
case, and they are admitted by their width and their hexadecimal digits. The
byte-wise tests of the source agree with the character-wise ones used here,
because a text whose bytes are all ASCII has one byte per character.
-/

namespace Buzz

def toAsciiLowercase (s : String) : String :=
  String.ofList (s.toList.map Char.toLower)

def eqIgnoreAsciiCase (a b : String) : Bool :=
  toAsciiLowercase a == toAsciiLowercase b

def isAsciiHexdigit (c : Char) : Bool :=
  ('0' ≤ c && c ≤ '9') || ('a' ≤ c && c ≤ 'f') || ('A' ≤ c && c ≤ 'F')

def isAsciiUppercase (c : Char) : Bool :=
  'A' ≤ c && c ≤ 'Z'

def isHexText (width : ℕ) (s : String) : Bool :=
  s.toList.length == width && s.toList.all isAsciiHexdigit

/-- Unicode `White_Space`, the class that `trim` removes. -/
def isWhitespace (c : Char) : Bool :=
  ('\x09' ≤ c && c ≤ '\x0d') || c == ' ' || c == '\u0085' || c == '\u00a0' || c == '\u1680' ||
    ('\u2000' ≤ c && c ≤ '\u200a') || c == '\u2028' || c == '\u2029' || c == '\u202f' ||
    c == '\u205f' || c == '\u3000'

def trim (s : String) : String :=
  String.ofList ((s.toList.dropWhile isWhitespace).reverse.dropWhile isWhitespace).reverse

theorem toLower_toLower (c : Char) : c.toLower.toLower = c.toLower := by
  unfold Char.toLower
  grind

theorem isAsciiHexdigit_toLower (c : Char) : isAsciiHexdigit c.toLower = isAsciiHexdigit c := by
  unfold isAsciiHexdigit Char.toLower
  rw [Bool.eq_iff_iff]
  simp only [Bool.or_eq_true, Bool.and_eq_true, decide_eq_true_eq, Char.le_def]
  grind

@[simp] theorem toList_toAsciiLowercase (s : String) :
    (toAsciiLowercase s).toList = s.toList.map Char.toLower := by
  simp [toAsciiLowercase]

@[simp] theorem toAsciiLowercase_idem (s : String) :
    toAsciiLowercase (toAsciiLowercase s) = toAsciiLowercase s := by
  rw [← String.toList_inj, toList_toAsciiLowercase, toList_toAsciiLowercase, List.map_map]
  exact List.map_congr_left fun c _ => toLower_toLower c

@[simp] theorem isHexText_toAsciiLowercase (width : ℕ) (s : String) :
    isHexText width (toAsciiLowercase s) = isHexText width s := by
  simp only [isHexText, toList_toAsciiLowercase, List.length_map, List.all_map]
  congr 2
  funext c
  exact isAsciiHexdigit_toLower c

@[simp] theorem eqIgnoreAsciiCase_self (s : String) : eqIgnoreAsciiCase s s = true := by
  simp [eqIgnoreAsciiCase]

theorem eqIgnoreAsciiCase_iff (a b : String) :
    eqIgnoreAsciiCase a b = true ↔ toAsciiLowercase a = toAsciiLowercase b := by
  simp [eqIgnoreAsciiCase]

/-- Identifiers made of one repeated character, as in the tests of the source. -/
def repeatText (c : Char) (width : ℕ) : String :=
  String.ofList (List.replicate width c)

@[simp] theorem toAsciiLowercase_repeatText (c : Char) (width : ℕ) :
    toAsciiLowercase (repeatText c width) = repeatText c.toLower width := by
  simp [toAsciiLowercase, repeatText]

@[simp] theorem isHexText_repeatText (c : Char) (width : ℕ) :
    isHexText (width + 1) (repeatText c (width + 1)) = isAsciiHexdigit c := by
  simp [isHexText, repeatText, List.all_replicate]

@[simp] theorem repeatText_inj (c d : Char) (width : ℕ) :
    repeatText c (width + 1) = repeatText d (width + 1) ↔ c = d := by
  simp [repeatText, String.ofList_inj, List.replicate_inj]

end Buzz
