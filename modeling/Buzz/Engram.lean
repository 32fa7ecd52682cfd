import Buzz.JsonText

/-!
# Engram bodies

The plaintext of an agent's engram: a profile under the slug `core`, or one memory entry under a
slug `mem/…`, whose missing value is a tombstone. The writer spells the JSON out character by
character; the reader goes through a visitor that refuses a repeated member name at any depth.
-/

namespace Buzz.Engram

open JsonText

section Slugs

def coreSlug : String := "core"

def slugMaxLen : ℕ := 255

inductive SlugError where
  | tooLong (length : ℕ)
  | unexpectedForm (slug : String)
  | emptyRest
  | badSegment (index : ℕ) (segment : String) (why : String)
  deriving DecidableEq, Repr

def isLowerAlnum (c : Char) : Bool :=
  ('a' ≤ c && c ≤ 'z') || ('0' ≤ c && c ≤ '9')

def validateSegment (s : List Char) : Except String Unit :=
  match s with
  | [] => .error "empty"
  | first :: rest =>
      if 64 < (String.ofList s).utf8ByteSize then .error "longer than 64 bytes"
      else if isLowerAlnum first = false then .error "first byte must be [a-z0-9]"
      else if rest.all (fun c => isLowerAlnum c || c == '_' || c == '-') then .ok ()
      else .error "only [a-z0-9_-] allowed after the first byte"

/-- The segments from the given number on. -/
def validateSegments (index : ℕ) : List (List Char) → Except SlugError Unit
  | [] => .ok ()
  | segment :: rest =>
      match validateSegment segment with
      | .error why => .error (.badSegment index (String.ofList segment) why)
      | .ok () => validateSegments (index + 1) rest

def validateSlug (slug : String) : Except SlugError Unit :=
  if slug = coreSlug then .ok ()
  else if slugMaxLen < slug.utf8ByteSize then .error (.tooLong slug.utf8ByteSize)
  else if "mem/".toList.isPrefixOf slug.toList = false then .error (.unexpectedForm slug)
  else
    let rest := slug.toList.drop 4
    if rest = [] then .error .emptyRest else validateSegments 1 (rest.splitOn '/')

end Slugs

inductive Body where
  | core (profile : String)
  | memory (slug : String) (value : Option String)
  deriving DecidableEq, Repr

namespace Body

def slug : Body → String
  | core _ => coreSlug
  | memory slug _ => slug

/-- A memory has a slug of its own. -/
def Valid (body : Body) : Prop :=
  match body with
  | core _ => True
  | memory slug _ => validateSlug slug = .ok () ∧ slug ≠ coreSlug

end Body

section Writing

def hexDigit (n : ℕ) : Char :=
  if n < 10 then Char.ofNat (48 + n) else Char.ofNat (87 + n)

def escapeChar (c : Char) : List Char :=
  if c = '"' then ['\\', '"']
  else if c = '\\' then ['\\', '\\']
  else if c = '\x08' then ['\\', 'b']
  else if c = '\x0c' then ['\\', 'f']
  else if c = '\n' then ['\\', 'n']
  else if c = '\r' then ['\\', 'r']
  else if c = '\t' then ['\\', 't']
  else if c.toNat < 0x20 then
    ['\\', 'u', '0', '0', hexDigit (c.toNat / 16), hexDigit (c.toNat % 16)]
  else [c]

def writeJsonString (s : String) : List Char :=
  '"' :: (s.toList.flatMap escapeChar ++ ['"'])

/-- The member behind the slug. -/
def writeField : Body → List Char
  | .memory _ (some value) => ",\"value\":".toList ++ writeJsonString value
  | .memory _ none => ",\"value\":null".toList
  | .core profile => ",\"profile\":".toList ++ writeJsonString profile

def writeBody (body : Body) : List Char :=
  '\x7b' :: ("\"slug\":".toList ++ writeJsonString body.slug ++ writeField body ++ ['\x7d'])

def toJsonBytes (body : Body) : ByteArray :=
  (String.ofList (writeBody body)).toUTF8

end Writing

section Reading

inductive EngramError where
  | invalidSlug (error : SlugError)
  | invalidBody (detail : String)
  deriving DecidableEq, Repr

mutual

/-- The visitor: it takes a value over as it is, but stops at a member name it has seen. -/
def strictValue : Value → Except String Value
  | .null => .ok .null
  | .bool value => .ok (.bool value)
  | .number value => .ok (.number value)
  | .string value => .ok (.string value)
  | .array items => (strictItems items).map .array
  | .object members => (strictMembers [] members).map .object

def strictItems : List Value → Except String (List Value)
  | [] => .ok []
  | item :: rest => do
      let item ← strictValue item
      let rest ← strictItems rest
      return item :: rest

def strictMembers (seen : List String) : List (String × Value) →
    Except String (List (String × Value))
  | [] => .ok []
  | (name, value) :: rest =>
      if name ∈ seen then .error ("duplicate object member name: " ++ name)
      else do
        let value ← strictValue value
        let rest ← strictMembers (name :: seen) rest
        return (name, value) :: rest

end

def parseStrictJson (bytes : ByteArray) : Except EngramError Value :=
  match String.fromUTF8? bytes with
  | none => .error (.invalidBody "invalid JSON body: invalid unicode code point")
  | some text =>
      match readFront none text.toList with
      | none => .error (.invalidBody "invalid JSON body: syntax error")
      | some (tree, rest) =>
          match strictValue tree with
          | .error e => .error (.invalidBody ("invalid JSON body: " ++ e))
          | .ok value =>
              if skipSpace rest = [] then .ok value
              else .error (.invalidBody "trailing data after JSON body: trailing characters")

def member (members : List (String × Value)) (name : String) : Option Value :=
  (members.find? fun entry => entry.1 == name).map Prod.snd

/-- The body that the members of the top-level object say. -/
def bodyOfMembers (members : List (String × Value)) : Except EngramError Body :=
  match member members "slug" with
  | none => .error (.invalidBody "missing `slug`")
  | some (.string slug) =>
      match validateSlug slug with
      | .error e => .error (.invalidSlug e)
      | .ok () =>
          if slug = coreSlug then
            match member members "profile" with
            | some (.string profile) => .ok (.core profile)
            | some _ => .error (.invalidBody "`profile` is not a string")
            | none => .error (.invalidBody "core missing `profile`")
          else
            match member members "value" with
            | some (.string value) => .ok (.memory slug (some value))
            | some .null => .ok (.memory slug none)
            | some _ => .error (.invalidBody "`value` is not a string")
            | none => .error (.invalidBody "memory missing `value`")
  | some _ => .error (.invalidBody "`slug` is not a string")

def fromJsonBytes (bytes : ByteArray) : Except EngramError Body :=
  match parseStrictJson bytes with
  | .error e => .error e
  | .ok (.object members) => bodyOfMembers members
  | .ok _ => .error (.invalidBody "top-level not an object")

end Reading

section Repetition

/-- Some object of the value has a member name twice. -/
inductive Repeats : Value → Prop where
  | here {members : List (String × Value)} : ¬(members.map Prod.fst).Nodup →
      Repeats (.object members)
  | item {items : List Value} {value : Value} : value ∈ items → Repeats value →
      Repeats (.array items)
  | member {members : List (String × Value)} {name : String} {value : Value} :
      (name, value) ∈ members → Repeats value → Repeats (.object members)

/-- The visitor refuses the value. -/
def Refused (value : Value) : Prop :=
  ∃ e, strictValue value = .error e

theorem strictItems_refused {items : List Value} {value : Value} (hmem : value ∈ items)
    (h : Refused value) : ∃ e, strictItems items = .error e := by
  induction items with
  | nil => cases hmem
  | cons item rest ih =>
      unfold strictItems
      cases hitem : strictValue item with
      | error e => exact ⟨e, rfl⟩
      | ok read =>
          rcases List.mem_cons.mp hmem with rfl | hrest
          · obtain ⟨e, he⟩ := h
            rw [hitem] at he
            cases he
          · obtain ⟨e, he⟩ := ih hrest
            exact ⟨e, by rw [he]; rfl⟩

theorem strictMembers_refused {members : List (String × Value)} {name : String} {value : Value}
    (hmem : (name, value) ∈ members) (h : Refused value) :
    ∀ seen, ∃ e, strictMembers seen members = .error e := by
  induction members with
  | nil => cases hmem
  | cons entry rest ih =>
      obtain ⟨other, read⟩ := entry
      intro seen
      unfold strictMembers
      by_cases hseen : other ∈ seen
      · exact ⟨_, if_pos hseen⟩
      · rw [if_neg hseen]
        cases hread : strictValue read with
        | error e => exact ⟨e, rfl⟩
        | ok strict =>
            rcases List.mem_cons.mp hmem with heq | hrest
            · obtain ⟨rfl, rfl⟩ := Prod.mk.inj heq
              obtain ⟨e, he⟩ := h
              rw [hread] at he
              cases he
            · obtain ⟨e, he⟩ := ih hrest (other :: seen)
              exact ⟨e, by rw [he]; rfl⟩

/-- The names that the visitor passes are all different, and none was seen before. -/
theorem strictMembers_nodup {members : List (String × Value)} :
    ∀ {seen : List String} {out : List (String × Value)}, strictMembers seen members = .ok out →
      (members.map Prod.fst).Nodup ∧ ∀ name ∈ members.map Prod.fst, name ∉ seen := by
  induction members with
  | nil => exact fun _ => ⟨List.nodup_nil, fun _ h => nomatch h⟩
  | cons entry rest ih =>
      obtain ⟨name, value⟩ := entry
      intro seen out h
      unfold strictMembers at h
      by_cases hseen : name ∈ seen
      · rw [if_pos hseen] at h
        cases h
      · rw [if_neg hseen] at h
        cases hvalue : strictValue value with
        | error e =>
            rw [hvalue] at h
            cases h
        | ok strict =>
            cases hrest : strictMembers (name :: seen) rest with
            | error e =>
                rw [hvalue, hrest] at h
                cases h
            | ok tail =>
                obtain ⟨hnodup, hnew⟩ := ih hrest
                refine ⟨List.nodup_cons.mpr ⟨?_, hnodup⟩, ?_⟩
                · exact fun hmem => hnew name hmem List.mem_cons_self
                · intro other hother
                  rcases List.mem_cons.mp hother with rfl | hother
                  · exact hseen
                  · exact fun hmem => hnew other hother (List.mem_cons_of_mem _ hmem)

theorem Repeats.refused {value : Value} (h : Repeats value) : Refused value := by
  induction h with
  | @here members hrepeat =>
      unfold Refused strictValue
      cases hstrict : strictMembers [] members with
      | error e => exact ⟨e, rfl⟩
      | ok out => exact absurd (strictMembers_nodup hstrict).1 hrepeat
  | item hmem _ ih =>
      obtain ⟨e, he⟩ := strictItems_refused hmem ih
      exact ⟨e, by rw [strictValue, he]; rfl⟩
  | member hmem _ ih =>
      obtain ⟨e, he⟩ := strictMembers_refused hmem ih []
      exact ⟨e, by rw [strictValue, he]; rfl⟩

theorem fromJsonBytes_repeats {bytes : ByteArray} {text : String} {tree : Value} {rest : List Char}
    (htext : String.fromUTF8? bytes = some text)
    (hread : readFront none text.toList = some (tree, rest))
    (hrepeats : Repeats tree) : ∃ e, fromJsonBytes bytes = .error e := by
  obtain ⟨e, he⟩ := hrepeats.refused
  have hparse : parseStrictJson bytes = .error (.invalidBody ("invalid JSON body: " ++ e)) := by
    simp only [parseStrictJson, htext, hread, he]
  refine ⟨.invalidBody ("invalid JSON body: " ++ e), ?_⟩
  simp only [fromJsonBytes, hparse]

end Repetition

section RoundTrip

variable {body : Body}

theorem hexValue_hexDigit : ∀ n < 16, JsonText.hexValue (hexDigit n) = some n := by
  decide

/-- How the reader sees an escaped character. -/
def escapedItem (c : Char) : StringItem :=
  if c.toNat < 0x20 ∧ c ≠ '\x08' ∧ c ≠ '\x0c' ∧ c ≠ '\n' ∧ c ≠ '\r' ∧ c ≠ '\t' then .unit c.toNat
  else .char c

theorem lexString_short {e c : Char} (hu : e ≠ 'u') (h : escaped e = some c) (tail : List Char) :
    lexString ('\\' :: e :: tail) = (lexString tail).map fun r => (.char c :: r.1, r.2) := by
  rw [lexString]
  · simp only [Char.reduceEq, if_false, if_true, h]
    cases lexString tail with
    | none => rfl
    | some r => rfl
  · exact fun _ _ _ _ _ heq _ => hu heq

theorem lexString_control {c : Char} (hc : c.toNat < 0x20) (tail : List Char) :
    lexString ('\\' :: 'u' :: '0' :: '0' :: hexDigit (c.toNat / 16) :: hexDigit (c.toNat % 16) ::
      tail) =
      (lexString tail).map fun r => (.unit c.toNat :: r.1, r.2) := by
  have hhigh := hexValue_hexDigit (c.toNat / 16) (by omega)
  have hlow := hexValue_hexDigit (c.toNat % 16) (by omega)
  have hzero : JsonText.hexValue '0' = some 0 := by decide
  have hunit : hexUnit '0' '0' (hexDigit (c.toNat / 16)) (hexDigit (c.toNat % 16)) =
      some c.toNat := by
    have hsum : ((0 * 16 + 0) * 16 + c.toNat / 16) * 16 + c.toNat % 16 = c.toNat := by omega
    simp only [hexUnit, hzero, hhigh, hlow, Option.bind_eq_bind, Option.bind_some, hsum]
    rfl
  rw [lexString]
  simp only [Char.reduceEq, if_false, if_true, hunit]
  cases lexString tail with
  | none => rfl
  | some r => rfl

theorem lexString_plain {c : Char} (hquote : c ≠ '"') (hslash : c ≠ '\\') (hc : ¬c.toNat < 0x20)
    (tail : List Char) :
    lexString (c :: tail) = (lexString tail).map fun r => (.char c :: r.1, r.2) := by
  rw [lexString.eq_def]
  simp only [hquote, hslash, hc, if_false]
  cases lexString tail with
  | none => rfl
  | some r => rfl

theorem lexString_escapeChar (c : Char) (tail : List Char) :
    lexString (escapeChar c ++ tail) = (lexString tail).map fun r =>
      (escapedItem c :: r.1, r.2) := by
  unfold escapeChar
  split_ifs with hquote hslash hb hf hn hr ht hcontrol
  · subst hquote
    exact lexString_short (by decide) (by decide) tail
  · subst hslash
    exact lexString_short (by decide) (by decide) tail
  · subst hb
    exact lexString_short (by decide) (by decide) tail
  · subst hf
    exact lexString_short (by decide) (by decide) tail
  · subst hn
    exact lexString_short (by decide) (by decide) tail
  · subst hr
    exact lexString_short (by decide) (by decide) tail
  · subst ht
    exact lexString_short (by decide) (by decide) tail
  · rw [escapedItem, if_pos ⟨hcontrol, hb, hf, hn, hr, ht⟩]
    exact lexString_control hcontrol tail
  · rw [escapedItem, if_neg fun h => hcontrol h.1]
    exact lexString_plain hquote hslash hcontrol tail

theorem lexString_flatMap_escapeChar (chars tail : List Char) :
    lexString (chars.flatMap escapeChar ++ '"' :: tail) = some (chars.map escapedItem, tail) := by
  induction chars with
  | nil =>
      rw [List.flatMap_nil, List.nil_append, lexString.eq_def]
      rfl
  | cons c rest ih =>
      rw [List.flatMap_cons, List.append_assoc, lexString_escapeChar, ih]
      rfl

theorem joinUnits_escapedItem (chars : List Char) :
    joinUnits none none (chars.map escapedItem) = some chars := by
  induction chars with
  | nil => rfl
  | cons c rest ih =>
      rw [List.map_cons, escapedItem]
      split_ifs with hcontrol
      · have hlow : ¬(0xdc00 ≤ c.toNat ∧ c.toNat < 0xe000) := by omega
        have hhigh : ¬(0xd800 ≤ c.toNat ∧ c.toNat < 0xdc00) := by omega
        rw [joinUnits, if_neg hlow, if_neg hhigh, ih, Char.ofNat_toNat]
        rfl
      · rw [joinUnits, ih]
        rfl

theorem readString_write (s : String) (tail : List Char) :
    readString none (s.toList.flatMap escapeChar ++ '"' :: tail) = some (s, tail) := by
  simp only [readString, lexString_flatMap_escapeChar, joinUnits_escapedItem, String.ofList_toList]

theorem skipSpace_cons {c : Char} (h : isSpace c = false) (rest : List Char) :
    skipSpace (c :: rest) = c :: rest := by
  simp [skipSpace, h]

theorem readValue_string (fuel : ℕ) (s : String) (tail : List Char) :
    readValue none (fuel + 1) (writeJsonString s ++ tail) = some (.string s, tail) := by
  have hread := readString_write s tail
  simp only [writeJsonString, List.cons_append, List.append_assoc, List.nil_append]
  rw [readValue, skipSpace_cons rfl]
  simp only [if_true, hread]

theorem readValue_null (fuel : ℕ) (tail : List Char) :
    readValue none (fuel + 1) ("null".toList ++ tail) = some (.null, tail) := by
  have htext : "null".toList ++ tail = 'n' :: 'u' :: 'l' :: 'l' :: tail := rfl
  rw [htext, readValue, skipSpace_cons rfl]
  rfl

/-- The value of a member and the text it is written as. -/
structure Written (value : Value) (text : List Char) : Prop where
  read : ∀ fuel tail, readValue none (fuel + 1) (text ++ tail) = some (value, tail)

theorem written_string (s : String) : Written (.string s) (writeJsonString s) :=
  ⟨fun fuel tail => readValue_string fuel s tail⟩

theorem written_null : Written .null "null".toList :=
  ⟨readValue_null⟩

theorem readMembers_last {name : String} {value : Value} {text : List Char}
    (hvalue : Written value text) (hname : name.toList.flatMap escapeChar = name.toList)
    (fuel : ℕ) :
    readMembers none (fuel + 2) ('"' :: (name.toList ++ '"' :: ':' :: (text ++ ['\x7d']))) =
      some ([(name, value)], []) := by
  have hstring : readString none (name.toList ++ '"' :: ':' :: (text ++ ['\x7d'])) =
      some (name, ':' :: (text ++ ['\x7d'])) := by
    have h := readString_write name (':' :: (text ++ ['\x7d']))
    rwa [hname] at h
  rw [readMembers, skipSpace_cons rfl]
  simp only [hstring, skipSpace_cons (show isSpace ':' = false from rfl), hvalue.read,
    skipSpace_cons (show isSpace '\x7d' = false from rfl)]

theorem readMembers_slug {slug : String} {more rest : List Char} {members : List (String × Value)}
    {fuel : ℕ} (hmore : readMembers none (fuel + 1) more = some (members, rest)) :
    readMembers none (fuel + 2) ("\"slug\":".toList ++ (writeJsonString slug ++ ',' :: more)) =
      some (("slug", .string slug) :: members, rest) := by
  have hstring : readString none ("slug\":".toList ++ (writeJsonString slug ++ ',' :: more)) =
      some ("slug", ':' :: (writeJsonString slug ++ ',' :: more)) :=
    readString_write "slug" _
  have htext : "\"slug\":".toList ++ (writeJsonString slug ++ ',' :: more) =
      '"' :: ("slug\":".toList ++ (writeJsonString slug ++ ',' :: more)) := rfl
  rw [htext, readMembers, skipSpace_cons rfl]
  simp only [hstring, skipSpace_cons (show isSpace ':' = false from rfl), readValue_string,
    skipSpace_cons (show isSpace ',' = false from rfl), hmore]

theorem readFront_brace {c : Char} {more rest : List Char} {members : List (String × Value)}
    (h : ∀ fuel, readMembers none (fuel + 3) ('"' :: c :: more) = some (members, rest)) :
    readFront none ('\x7b' :: '"' :: c :: more) = some (.object members, rest) := by
  have hlength : ('\x7b' :: '"' :: c :: more).length = more.length + 3 := rfl
  rw [readFront, hlength, readValue, skipSpace_cons rfl]
  simp only [Char.reduceEq, if_false, if_true, skipSpace_cons (show isSpace '"' = false from rfl)]
  split
  · next hclosed => exact absurd (List.cons.inj hclosed).1 (by decide)
  · rw [h]

/-- The object with the slug and one more member. -/
theorem readFront_object (slug name : String) {value : Value} {text : List Char}
    (hvalue : Written value text) (hname : name.toList.flatMap escapeChar = name.toList) :
    readFront none ('\x7b' :: ("\"slug\":".toList ++ (writeJsonString slug ++
        ',' :: '"' :: (name.toList ++ '"' :: ':' :: (text ++ ['\x7d']))))) =
      some (.object [("slug", .string slug), (name, value)], []) :=
  readFront_brace fun fuel => readMembers_slug (readMembers_last hvalue hname fuel)

/-- What the reader sees in a written body. -/
def bodyMembers (body : Body) : List (String × Value) :=
  match body with
  | .core profile => [("slug", .string coreSlug), ("profile", .string profile)]
  | .memory slug (some value) => [("slug", .string slug), ("value", .string value)]
  | .memory slug none => [("slug", .string slug), ("value", .null)]

/-- The text of a body with the parts in the order in which they are read. -/
theorem writeBody_eq {name : String} {text : List Char}
    (hfield : writeField body = ',' :: '"' :: (name.toList ++ '"' :: ':' :: text)) :
    writeBody body = '\x7b' :: ("\"slug\":".toList ++ (writeJsonString body.slug ++
      ',' :: '"' :: (name.toList ++ '"' :: ':' :: (text ++ ['\x7d'])))) := by
  rw [writeBody, hfield]
  simp only [List.append_assoc, List.cons_append]

theorem readFront_writeBody (body : Body) :
    readFront none (writeBody body) = some (.object (bodyMembers body), []) := by
  have hprofile : "profile".toList.flatMap escapeChar = "profile".toList := by decide +kernel
  have hvalue : "value".toList.flatMap escapeChar = "value".toList := by decide +kernel
  cases body with
  | core profile =>
      rw [writeBody_eq (show writeField (.core profile) = ',' :: '"' :: ("profile".toList ++
        '"' :: ':' :: writeJsonString profile) from rfl)]
      exact readFront_object coreSlug "profile" (written_string profile) hprofile
  | memory slug value =>
      cases value with
      | none =>
          rw [writeBody_eq (show writeField (.memory slug none) = ',' :: '"' :: ("value".toList ++
            '"' :: ':' :: "null".toList) from rfl)]
          exact readFront_object slug "value" written_null hvalue
      | some value =>
          rw [writeBody_eq (show writeField (.memory slug (some value)) = ',' :: '"' ::
            ("value".toList ++ '"' :: ':' :: writeJsonString value) from rfl)]
          exact readFront_object slug "value" (written_string value) hvalue

theorem strictValue_bodyMembers (body : Body) :
    strictValue (.object (bodyMembers body)) = .ok (.object (bodyMembers body)) := by
  cases body with
  | core profile =>
      simp only [bodyMembers, strictValue, strictMembers, List.not_mem_nil, List.mem_singleton,
        String.reduceEq, if_false]
      rfl
  | memory slug value =>
      cases value with
      | none | some value =>
          simp only [bodyMembers, strictValue, strictMembers, List.not_mem_nil, List.mem_singleton,
            String.reduceEq, if_false]
          rfl

theorem fromUTF8_toUTF8 (s : String) : String.fromUTF8? s.toUTF8 = some s := by
  rw [String.toUTF8_eq_toByteArray, String.fromUTF8?, dif_pos s.isValidUTF8]
  rfl

theorem bodyOfMembers_bodyMembers (h : body.Valid) :
    bodyOfMembers (bodyMembers body) = .ok body := by
  cases body with
  | core profile => simp [bodyMembers, bodyOfMembers, member, validateSlug]
  | memory slug value =>
      cases value with
      | none | some value => simp [bodyMembers, bodyOfMembers, member, h.1, h.2]

theorem fromJsonBytes_toJsonBytes (h : body.Valid) :
    fromJsonBytes (toJsonBytes body) = .ok body := by
  have hparse : parseStrictJson (toJsonBytes body) = .ok (.object (bodyMembers body)) := by
    simp only [parseStrictJson, toJsonBytes, fromUTF8_toUTF8, String.toList_ofList,
      readFront_writeBody, strictValue_bodyMembers]
    rfl
  simp only [fromJsonBytes, hparse]
  exact bodyOfMembers_bodyMembers h

theorem bodyOfMembers_valid {members : List (String × Value)}
    (h : bodyOfMembers members = .ok body) : body.Valid := by
  unfold bodyOfMembers at h
  split at h
  · cases h
  · rename_i slug _
    split at h
    · cases h
    · rename_i hslug
      split_ifs at h with hcore
      · split at h
        · cases h
          trivial
        · cases h
        · cases h
      · split at h
        · cases h
          exact ⟨hslug, hcore⟩
        · cases h
          exact ⟨hslug, hcore⟩
        · cases h
        · cases h
  · cases h

theorem fromJsonBytes_valid {bytes : ByteArray}
    (h : fromJsonBytes bytes = .ok body) : body.Valid := by
  unfold fromJsonBytes at h
  split at h
  · cases h
  · exact bodyOfMembers_valid h
  · cases h

/-- A body comes back as it was written, what was accepted is written and read again to itself, and
a text that names a member twice, at whatever depth, is refused. -/
theorem engram_body_survives :
    (∀ body : Body, body.Valid → fromJsonBytes (toJsonBytes body) = .ok body) ∧
      (∀ bytes body, fromJsonBytes bytes = .ok body →
        fromJsonBytes (toJsonBytes body) = .ok body) ∧
      ∀ bytes text tree rest, String.fromUTF8? bytes = some text →
        readFront none text.toList = some (tree, rest) → Repeats tree →
          ∃ e, fromJsonBytes bytes = .error e :=
  ⟨fun _ => fromJsonBytes_toJsonBytes,
    fun _ _ h => fromJsonBytes_toJsonBytes (fromJsonBytes_valid h),
    fun _ _ _ _ => fromJsonBytes_repeats⟩

end RoundTrip

end Buzz.Engram
