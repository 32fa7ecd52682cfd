import Buzz.JsonText
import Mathlib.Data.String.Basic

/-!
# Text in the browser

The text functions of the web platform that decode what a peer sent: `atob`, the UTF-8
`TextDecoder`, which puts U+FFFD in place of every byte sequence it cannot read, `JSON.parse`,
`trim`, and the order of strings by their UTF-16 code units.
-/

namespace WebText

section Base64

def sextet (c : Char) : Option ℕ :=
  if 'A' ≤ c ∧ c ≤ 'Z' then some (c.toNat - 65)
  else if 'a' ≤ c ∧ c ≤ 'z' then some (c.toNat - 71)
  else if '0' ≤ c ∧ c ≤ '9' then some (c.toNat + 4)
  else if c = '+' then some 62
  else if c = '/' then some 63
  else none

def sextets : List Char → Option (List ℕ)
  | [] => some []
  | c :: rest =>
      match sextet c, sextets rest with
      | some n, some ns => some (n :: ns)
      | _, _ => none

/-- Four sextets are three bytes; left-over bits are dropped. -/
def bytesOfSextets : List ℕ → List ℕ
  | a :: b :: c :: d :: rest =>
      (a * 4 + b / 16) :: (b % 16 * 16 + c / 4) :: (c % 4 * 64 + d) :: bytesOfSextets rest
  | [a, b, c] => [a * 4 + b / 16, b % 16 * 16 + c / 4]
  | [a, b] => [a * 4 + b / 16]
  | _ => []

def isAsciiSpace (c : Char) : Bool :=
  c == '\t' || c == '\n' || c == '\x0c' || c == '\r' || c == ' '

/-- At most two padding characters at the end of whole groups. -/
def dropPadding (text : List Char) : List Char :=
  if text.length % 4 = 0 then
    match text.reverse with
    | '=' :: '=' :: rest => rest.reverse
    | '=' :: rest => rest.reverse
    | rest => rest.reverse
  else text

def atob (s : String) : Option (List ℕ) :=
  let text := dropPadding (s.toList.filter fun c => !isAsciiSpace c)
  if text.length % 4 = 1 then none else (sextets text).map bytesOfSextets

end Base64

section Utf8

def replacement : Char := '\ufffd'

/-- A character that waits for `needed` more bytes, the next of them between two bounds. -/
structure Utf8State where
  needed : ℕ
  point : ℕ
  lower : ℕ
  upper : ℕ

def Utf8State.start : Utf8State := ⟨0, 0, 0x80, 0xbf⟩

/-- The first byte of a character: what it gives at once and what it waits for. -/
def leadByte (byte : ℕ) : List Char × Utf8State :=
  if byte ≤ 0x7f then ([Char.ofNat byte], .start)
  else if 0xc2 ≤ byte ∧ byte ≤ 0xdf then ([], ⟨1, byte - 0xc0, 0x80, 0xbf⟩)
  else if 0xe0 ≤ byte ∧ byte ≤ 0xef then
    ([], ⟨2, byte - 0xe0, if byte = 0xe0 then 0xa0 else 0x80, if byte = 0xed then 0x9f else 0xbf⟩)
  else if 0xf0 ≤ byte ∧ byte ≤ 0xf4 then
    ([], ⟨3, byte - 0xf0, if byte = 0xf0 then 0x90 else 0x80, if byte = 0xf4 then 0x8f else 0xbf⟩)
  else ([replacement], .start)

def decodeFrom (state : Utf8State) : List ℕ → List Char
  | [] => if state.needed = 0 then [] else [replacement]
  | byte :: rest =>
      if state.needed = 0 then
        let (chars, next) := leadByte byte
        chars ++ decodeFrom next rest
      else if state.lower ≤ byte ∧ byte ≤ state.upper then
        let point := state.point * 64 + (byte - 0x80)
        if state.needed = 1 then Char.ofNat point :: decodeFrom .start rest
        else decodeFrom ⟨state.needed - 1, point, 0x80, 0xbf⟩ rest
      else
        -- the byte is read again as the first of a character
        let (chars, next) := leadByte byte
        replacement :: (chars ++ decodeFrom next rest)

/-- A byte order mark in front is not part of the text. -/
def decodeUtf8 (bytes : List ℕ) : String :=
  match bytes with
  | 0xef :: 0xbb :: 0xbf :: rest => String.ofList (decodeFrom .start rest)
  | bytes => String.ofList (decodeFrom .start bytes)

end Utf8

/-- A lone surrogate has no character of its own and reads as U+FFFD here. -/
def parseJson (text : String) : Option JsonText.Value :=
  JsonText.read (some replacement) text.toList

section Strings

/-- What `trim` removes: white space, line terminators and the byte order mark. -/
def isTrimmed (c : Char) : Bool :=
  ('\x09' ≤ c && c ≤ '\x0d') || c == ' ' || c == '\u00a0' || c == '\u1680' ||
    ('\u2000' ≤ c && c ≤ '\u200a') || c == '\u2028' || c == '\u2029' || c == '\u202f' ||
    c == '\u205f' || c == '\u3000' || c == '\ufeff'

def trim (s : String) : String :=
  String.ofList ((s.toList.dropWhile isTrimmed).reverse.dropWhile isTrimmed).reverse

def utf16 (c : Char) : List ℕ :=
  if c.toNat < 0x10000 then [c.toNat]
  else [0xd800 + (c.toNat - 0x10000) / 0x400, 0xdc00 + (c.toNat - 0x10000) % 0x400]

def lexLt : List ℕ → List ℕ → Bool
  | _, [] => false
  | [], _ :: _ => true
  | a :: as, b :: bs => decide (a < b) || (a == b && lexLt as bs)

/-- `a < b` on strings. -/
def stringLt (a b : String) : Bool :=
  lexLt (a.toList.flatMap utf16) (b.toList.flatMap utf16)

/-- A collation by the code points. -/
def codeCompare (a b : String) : ℤ := if a ≤ b then if a = b then 0 else -1 else 1

theorem codeCompare_nonpos_iff {a b : String} : codeCompare a b ≤ 0 ↔ a ≤ b := by
  unfold codeCompare
  by_cases hle : a ≤ b
  · rw [if_pos hle]
    refine iff_of_true ?_ hle
    split_ifs <;> omega
  · rw [if_neg hle]
    exact iff_of_false (by omega) hle

theorem codeCompare_total (a b : String) : codeCompare a b ≤ 0 ∨ codeCompare b a ≤ 0 := by
  rw [codeCompare_nonpos_iff, codeCompare_nonpos_iff]
  exact le_total a b

theorem codeCompare_trans (a b c : String) (hab : codeCompare a b ≤ 0)
    (hbc : codeCompare b c ≤ 0) : codeCompare a c ≤ 0 := by
  rw [codeCompare_nonpos_iff] at *
  exact hab.trans hbc

end Strings

end WebText
