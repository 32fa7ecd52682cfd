import Mathlib.Algebra.Order.Field.Rat
import Mathlib.Tactic

/-!
# JSON texts

The grammar of RFC 8259 as a function from characters to values. The members of an object stand as
in the text, repeated names included, so that a reader of the value sees what an event parser
reports. Readers differ in what they do with a lone surrogate of a `\u` escape: `lone` is the
character that stands for it, or nothing when the text is refused.
-/

namespace JsonText

/-- The number `±digits * 10 ^ scale`. -/
structure Decimal where
  negative : Bool
  digits : ℕ
  scale : ℤ
  deriving DecidableEq, Repr

def Decimal.toRat (d : Decimal) : ℚ :=
  (if d.negative then -1 else 1) * d.digits * (10 : ℚ) ^ d.scale

inductive Value where
  | null
  | bool (value : Bool)
  | number (value : Decimal)
  | string (value : String)
  | array (items : List Value)
  | object (members : List (String × Value))
  deriving Repr

section Tokens

def isSpace (c : Char) : Bool :=
  c == ' ' || c == '\t' || c == '\n' || c == '\r'

def skipSpace (text : List Char) : List Char :=
  text.dropWhile isSpace

/-- What stands between two quotes: plain characters and the code units of `\u` escapes. -/
inductive StringItem where
  | char (c : Char)
  | unit (n : ℕ)
  deriving DecidableEq, Repr

def hexValue (c : Char) : Option ℕ :=
  if '0' ≤ c ∧ c ≤ '9' then some (c.toNat - 48)
  else if 'a' ≤ c ∧ c ≤ 'f' then some (c.toNat - 87)
  else if 'A' ≤ c ∧ c ≤ 'F' then some (c.toNat - 55)
  else none

def hexUnit (a b c d : Char) : Option ℕ := do
  let a ← hexValue a
  let b ← hexValue b
  let c ← hexValue c
  let d ← hexValue d
  return ((a * 16 + b) * 16 + c) * 16 + d

def escaped (c : Char) : Option Char :=
  if c = '"' ∨ c = '\\' ∨ c = '/' then some c
  else if c = 'b' then some '\x08'
  else if c = 'f' then some '\x0c'
  else if c = 'n' then some '\n'
  else if c = 'r' then some '\r'
  else if c = 't' then some '\t'
  else none

/-- The items up to the closing quote and the text after it. -/
def lexString : List Char → Option (List StringItem × List Char)
  | [] => none
  | c :: rest =>
      if c = '"' then some ([], rest)
      else if c = '\\' then
        match rest with
        | 'u' :: x :: y :: z :: w :: rest =>
            match hexUnit x y z w, lexString rest with
            | some n, some (items, rest) => some (.unit n :: items, rest)
            | _, _ => none
        | e :: rest =>
            match escaped e, lexString rest with
            | some c, some (items, rest) => some (.char c :: items, rest)
            | _, _ => none
        | [] => none
      else if c.toNat < 0x20 then none
      else
        match lexString rest with
        | some (items, rest) => some (.char c :: items, rest)
        | none => none

/-- What a high surrogate leaves when no low one follows it. -/
def unpaired (lone : Option Char) : Option ℕ → Option (List Char)
  | none => some []
  | some _ => lone.map fun c => [c]

def followed (front rest : Option (List Char)) : Option (List Char) :=
  match front, rest with
  | some front, some rest => some (front ++ rest)
  | _, _ => none

/-- The characters of a string, after a high surrogate that waits for its low one. -/
def joinUnits (lone : Option Char) : Option ℕ → List StringItem → Option (List Char)
  | high, [] => unpaired lone high
  | high, .char c :: rest => followed (unpaired lone high) ((joinUnits lone none rest).map (c :: ·))
  | high, .unit n :: rest =>
      if 0xdc00 ≤ n ∧ n < 0xe000 then
        match high with
        | some h =>
            (joinUnits lone none rest).map
              (Char.ofNat (0x10000 + (h - 0xd800) * 0x400 + (n - 0xdc00)) :: ·)
        | none => followed (unpaired lone (some n)) (joinUnits lone none rest)
      else if 0xd800 ≤ n ∧ n < 0xdc00 then
        followed (unpaired lone high) (joinUnits lone (some n) rest)
      else followed (unpaired lone high) ((joinUnits lone none rest).map (Char.ofNat n :: ·))

/-- A string after its opening quote. -/
def readString (lone : Option Char) (text : List Char) : Option (String × List Char) :=
  match lexString text with
  | none => none
  | some (items, rest) =>
      match joinUnits lone none items with
      | none => none
      | some chars => some (String.ofList chars, rest)

def digitsValue (digits : List Char) : ℕ :=
  digits.foldl (fun n c => 10 * n + (c.toNat - 48)) 0

/-- The exponent behind a mantissa, if there is one. -/
def readExponent (text : List Char) : Option (ℤ × List Char) :=
  match text with
  | e :: rest =>
      if e = 'e' ∨ e = 'E' then
        let (negative, rest) :=
          match rest with
          | '-' :: rest => (true, rest)
          | '+' :: rest => (false, rest)
          | rest => (false, rest)
        let digits := rest.takeWhile Char.isDigit
        if digits = [] then none
        else
          some ((if negative then -1 else 1) * (digitsValue digits : ℤ),
            rest.dropWhile Char.isDigit)
      else some (0, text)
  | [] => some (0, [])

def readNumber (text : List Char) : Option (Decimal × List Char) :=
  let (negative, text) :=
    match text with
    | '-' :: rest => (true, rest)
    | rest => (false, rest)
  let whole := text.takeWhile Char.isDigit
  let text := text.dropWhile Char.isDigit
  if whole = [] ∨ (whole.head? = some '0' ∧ 1 < whole.length) then none
  else
    let (fraction, text, missing) :=
      match text with
      | '.' :: rest =>
          (rest.takeWhile Char.isDigit, rest.dropWhile Char.isDigit,
            (rest.takeWhile Char.isDigit).isEmpty)
      | rest => ([], rest, false)
    if missing then none
    else
      match readExponent text with
      | none => none
      | some (exponent, text) =>
          some (⟨negative, digitsValue (whole ++ fraction), exponent - fraction.length⟩, text)

def readKeyword (word : String) (value : Value) (text : List Char) : Option (Value × List Char) :=
  if word.toList.isPrefixOf text then some (value, text.drop word.toList.length) else none

end Tokens

mutual

/-- One value; every round consumes a character, so the length of the text is fuel enough. -/
def readValue (lone : Option Char) : ℕ → List Char → Option (Value × List Char)
  | 0, _ => none
  | fuel + 1, text =>
      match skipSpace text with
      | [] => none
      | c :: rest =>
          if c = '"' then
            match readString lone rest with
            | some (s, rest) => some (.string s, rest)
            | none => none
          else if c = '[' then
            match skipSpace rest with
            | ']' :: rest => some (.array [], rest)
            | rest =>
                match readItems lone fuel rest with
                | some (items, rest) => some (.array items, rest)
                | none => none
          else if c = '\x7b' then
            match skipSpace rest with
            | '\x7d' :: rest => some (.object [], rest)
            | rest =>
                match readMembers lone fuel rest with
                | some (members, rest) => some (.object members, rest)
                | none => none
          else if c = 'n' then readKeyword "null" .null (c :: rest)
          else if c = 't' then readKeyword "true" (.bool true) (c :: rest)
          else if c = 'f' then readKeyword "false" (.bool false) (c :: rest)
          else
            match readNumber (c :: rest) with
            | some (d, rest) => some (.number d, rest)
            | none => none

/-- The items of an array up to its closing bracket. -/
def readItems (lone : Option Char) : ℕ → List Char → Option (List Value × List Char)
  | 0, _ => none
  | fuel + 1, text =>
      match readValue lone fuel text with
      | none => none
      | some (value, rest) =>
          match skipSpace rest with
          | ']' :: rest => some ([value], rest)
          | ',' :: rest =>
              match readItems lone fuel rest with
              | some (values, rest) => some (value :: values, rest)
              | none => none
          | _ => none

/-- The members of an object up to its closing brace. -/
def readMembers (lone : Option Char) : ℕ → List Char → Option (List (String × Value) × List Char)
  | 0, _ => none
  | fuel + 1, text =>
      match skipSpace text with
      | '"' :: rest =>
          match readString lone rest with
          | none => none
          | some (name, rest) =>
              match skipSpace rest with
              | ':' :: rest =>
                  match readValue lone fuel rest with
                  | none => none
                  | some (value, rest) =>
                      match skipSpace rest with
                      | '\x7d' :: rest => some ([(name, value)], rest)
                      | ',' :: rest =>
                          match readMembers lone fuel rest with
                          | some (members, rest) => some ((name, value) :: members, rest)
                          | none => none
                      | _ => none
              | _ => none
      | _ => none

end

/-- The value at the front of the text and what follows it. -/
def readFront (lone : Option Char) (text : List Char) : Option (Value × List Char) :=
  readValue lone (text.length + 1) text

/-- The value of a whole text. -/
def read (lone : Option Char) (text : List Char) : Option Value :=
  match readFront lone text with
  | some (value, rest) => if skipSpace rest = [] then some value else none
  | none => none

end JsonText
