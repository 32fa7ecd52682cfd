import Buzz.PairingQr

/-!
# The keys of the media bucket

A key is of one of four strict shapes or unknown. The shapes exclude each other, so that the order
in which they are tried does not matter, and a key is made of its class.
-/

namespace List

variable {α : Type} [DecidableEq α] {sep : α} {text : List α} {parts : List (List α)}

theorem not_mem_of_mem_splitOn (sep : α) (text : List α) :
    ∀ part ∈ text.splitOn sep, sep ∉ part := by
  induction text with
  | nil => simp
  | cons c rest ih =>
      rw [splitOn_cons_eq_if_modifyHead]
      by_cases hc : c = sep
      · rw [if_pos (by simpa using hc)]
        intro part hpart
        rcases mem_cons.mp hpart with rfl | hpart
        · exact not_mem_nil
        · exact ih part hpart
      · rw [if_neg (by simpa using hc)]
        cases hsplit : rest.splitOn sep with
        | nil => simp
        | cons first others =>
            rw [hsplit] at ih
            intro part hpart
            rw [modifyHead_cons] at hpart
            rcases mem_cons.mp hpart with rfl | hpart
            · rw [mem_cons, not_or]
              exact ⟨Ne.symm hc, ih first mem_cons_self⟩
            · exact ih part (mem_cons_of_mem _ hpart)

theorem splitOn_eq_iff : text.splitOn sep = parts ↔
    parts ≠ [] ∧ (∀ part ∈ parts, sep ∉ part) ∧ [sep].intercalate parts = text := by
  constructor
  · rintro rfl
    exact ⟨splitOn_ne_nil sep text, not_mem_of_mem_splitOn sep text, intercalate_splitOn sep⟩
  · rintro ⟨hparts, hfree, rfl⟩
    exact splitOn_intercalate sep hfree hparts

end List

namespace Buzz.Bucket

/-- A UUID by its canonical text, the only one that a key can have. -/
abbrev Uuid := String

inductive KeyClass where
  | thumb (sha256 : String)
  | blob (sha256 ext : String)
  | sidecar (community : Uuid) (sha256 : String)
  | auxiliary (community : Uuid) (sha256 eventId : String)
  | unknown
  deriving DecidableEq, Repr

section Code

def isSha256 (s : List Char) : Bool :=
  Utf8Offsets.size s == 64 && s.all isLowercaseHex

def isAsciiAlphanumeric (c : Char) : Bool :=
  c.isDigit || ('a' ≤ c && c ≤ 'z') || ('A' ≤ c && c ≤ 'Z')

def isBlobExt (s : List Char) : Bool :=
  !s.isEmpty && decide (Utf8Offsets.size s ≤ 8) && s.all isAsciiAlphanumeric

def isUlidChar (c : Char) : Bool :=
  c.isDigit || ('A' ≤ c && c ≤ 'H') || c == 'J' || c == 'K' || c == 'M' || c == 'N' ||
    ('P' ≤ c && c ≤ 'T') || ('V' ≤ c && c ≤ 'Z')

def isUlidCharset (s : List Char) : Bool :=
  Utf8Offsets.size s == 26 && s.all isUlidChar

/-- Hyphens stand at four places and lower case hex digits at the others. -/
def uuidChar (c : Char) (i : ℕ) : Bool :=
  if i ∈ [8, 13, 18, 23] then c == '-' else isLowercaseHex c

def isCanonicalUuid (s : List Char) : Bool :=
  Utf8Offsets.size s == 36 && (s.zipIdx.all fun (c, i) => uuidChar c i)

def parseCanonicalUuid (s : List Char) : Option Uuid :=
  if isCanonicalUuid s then some (String.ofList s) else none

/-- `{sha256}.thumb.jpg` -/
def parseThumbKey (key : String) : Option String :=
  match key.toList.splitOn '.' with
  | [sha256, thumb, jpg] =>
      if thumb = "thumb".toList ∧ jpg = "jpg".toList ∧ isSha256 sha256 then
        some (String.ofList sha256)
      else none
  | _ => none

/-- `{sha256}.{ext}` -/
def parseBlobKey (key : String) : Option (String × String) :=
  match key.toList.splitOn '.' with
  | [sha256, ext] =>
      if isSha256 sha256 ∧ isBlobExt ext then some (String.ofList sha256, String.ofList ext)
      else none
  | _ => none

/-- `{name}.json` -/
def parseJsonName (valid : List Char → Bool) (last : List Char) : Option String :=
  match last.splitOn '.' with
  | [name, json] => if json = "json".toList ∧ valid name then some (String.ofList name) else none
  | _ => none

/-- `_meta/{community}/{sha256}.json` -/
def parseSidecarKey (key : String) : Option (Uuid × String) :=
  match key.toList.splitOn '/' with
  | [front, community, last] =>
      if front = "_meta".toList then do
        let community ← parseCanonicalUuid community
        let sha256 ← parseJsonName isSha256 last
        some (community, sha256)
      else none
  | _ => none

/-- `_uploads/{community}/{sha256}/{event_id}.json` -/
def parseAuxiliaryKey (key : String) : Option (Uuid × String × String) :=
  match key.toList.splitOn '/' with
  | [front, community, sha256, last] =>
      if front = "_uploads".toList then do
        let community ← parseCanonicalUuid community
        if isSha256 sha256 then do
          let eventId ← parseJsonName isUlidCharset last
          some (community, String.ofList sha256, eventId)
        else none
      else none
  | _ => none

def classifyKey (key : String) : KeyClass :=
  match parseThumbKey key with
  | some sha256 => .thumb sha256
  | none =>
      match parseBlobKey key with
      | some (sha256, ext) => .blob sha256 ext
      | none =>
          match parseSidecarKey key with
          | some (community, sha256) => .sidecar community sha256
          | none =>
              match parseAuxiliaryKey key with
              | some (community, sha256, eventId) => .auxiliary community sha256 eventId
              | none => .unknown

end Code

section Shapes

/-- The text of a key of one of the four shapes. -/
inductive Shaped : KeyClass → String → Prop where
  | thumb {sha256 : String} (hsha : isSha256 sha256.toList = true) :
      Shaped (.thumb sha256) (sha256 ++ ".thumb.jpg")
  | blob {sha256 ext : String} (hsha : isSha256 sha256.toList = true)
      (hext : isBlobExt ext.toList = true) :
      Shaped (.blob sha256 ext) (sha256 ++ "." ++ ext)
  | sidecar {community : Uuid} {sha256 : String}
      (hcommunity : isCanonicalUuid community.toList = true)
      (hsha : isSha256 sha256.toList = true) :
      Shaped (.sidecar community sha256) ("_meta/" ++ community ++ "/" ++ sha256 ++ ".json")
  | auxiliary {community : Uuid} {sha256 eventId : String}
      (hcommunity : isCanonicalUuid community.toList = true)
      (hsha : isSha256 sha256.toList = true) (hevent : isUlidCharset eventId.toList = true) :
      Shaped (.auxiliary community sha256 eventId)
        ("_uploads/" ++ community ++ "/" ++ sha256 ++ "/" ++ eventId ++ ".json")

/-- The key has the shape of the class, or no shape at all. -/
def IsOfClass (key : String) (keyClass : KeyClass) : Prop :=
  Shaped keyClass key ∨ (keyClass = .unknown ∧ ∀ shape, ¬Shaped shape key)

variable {key sha256 ext eventId : String} {community : Uuid} {s : List Char}

theorem not_mem_of_all {p : Char → Bool} (hall : s.all p = true) {c : Char} (hc : p c = false) :
    c ∉ s := by
  intro hmem
  rw [List.all_eq_true] at hall
  rw [hall c hmem] at hc
  cases hc

theorem sha256_free (h : isSha256 s = true) : '.' ∉ s ∧ '/' ∉ s := by
  have hall := (Bool.and_eq_true _ _ ▸ h : _ ∧ _).2
  exact ⟨not_mem_of_all hall (by decide), not_mem_of_all hall (by decide)⟩

theorem blobExt_free (h : isBlobExt s = true) : '.' ∉ s ∧ '/' ∉ s := by
  have hall := (Bool.and_eq_true _ _ ▸ h : _ ∧ _).2
  exact ⟨not_mem_of_all hall (by decide), not_mem_of_all hall (by decide)⟩

theorem ulid_free (h : isUlidCharset s = true) : '.' ∉ s ∧ '/' ∉ s := by
  have hall := (Bool.and_eq_true _ _ ▸ h : _ ∧ _).2
  exact ⟨not_mem_of_all hall (by decide), not_mem_of_all hall (by decide)⟩

theorem uuid_free (h : isCanonicalUuid s = true) : '/' ∉ s := by
  have hall := (Bool.and_eq_true _ _ ▸ h : _ ∧ _).2
  intro hmem
  obtain ⟨i, hi, heq⟩ := List.getElem_of_mem hmem
  rw [List.all_eq_true] at hall
  have hchar : uuidChar s[i] i = true :=
    hall (s[i], i) (List.mk_mem_zipIdx_iff_getElem?.mpr (by simp [hi]))
  rw [heq] at hchar
  unfold uuidChar at hchar
  split_ifs at hchar
  all_goals revert hchar
  all_goals decide

theorem thumb_dots (hsha : isSha256 sha256.toList = true) :
    (sha256 ++ ".thumb.jpg").toList.splitOn '.' =
      [sha256.toList, "thumb".toList, "jpg".toList] := by
  rw [List.splitOn_eq_iff]
  refine ⟨by simp, ?_, by simp [List.intercalate]⟩
  simp only [List.mem_cons, List.not_mem_nil, or_false, forall_eq_or_imp, forall_eq]
  exact ⟨(sha256_free hsha).1, by decide, by decide⟩

theorem blob_dots (hsha : isSha256 sha256.toList = true) (hext : isBlobExt ext.toList = true) :
    (sha256 ++ "." ++ ext).toList.splitOn '.' = [sha256.toList, ext.toList] := by
  rw [List.splitOn_eq_iff]
  refine ⟨by simp, ?_, by simp [List.intercalate]⟩
  simp only [List.mem_cons, List.not_mem_nil, or_false, forall_eq_or_imp, forall_eq]
  exact ⟨(sha256_free hsha).1, (blobExt_free hext).1⟩

theorem sidecar_slashes (hcommunity : isCanonicalUuid community.toList = true)
    (hsha : isSha256 sha256.toList = true) :
    ("_meta/" ++ community ++ "/" ++ sha256 ++ ".json").toList.splitOn '/' =
      ["_meta".toList, community.toList, sha256.toList ++ ".json".toList] := by
  rw [List.splitOn_eq_iff]
  refine ⟨by simp, ?_, by simp [List.intercalate]⟩
  simp only [List.mem_cons, List.not_mem_nil, or_false, forall_eq_or_imp, forall_eq,
    List.mem_append, not_or]
  exact ⟨by decide, uuid_free hcommunity, (sha256_free hsha).2, by decide⟩

theorem auxiliary_slashes (hcommunity : isCanonicalUuid community.toList = true)
    (hsha : isSha256 sha256.toList = true) (hevent : isUlidCharset eventId.toList = true) :
    ("_uploads/" ++ community ++ "/" ++ sha256 ++ "/" ++ eventId ++ ".json").toList.splitOn '/' =
      ["_uploads".toList, community.toList, sha256.toList,
        eventId.toList ++ ".json".toList] := by
  rw [List.splitOn_eq_iff]
  refine ⟨by simp, ?_, by simp [List.intercalate]⟩
  simp only [List.mem_cons, List.not_mem_nil, or_false, forall_eq_or_imp, forall_eq,
    List.mem_append, not_or]
  exact ⟨by decide, uuid_free hcommunity, (sha256_free hsha).2, (ulid_free hevent).2, by decide⟩

theorem parseThumbKey_eq_some_iff :
    parseThumbKey key = some sha256 ↔ Shaped (.thumb sha256) key := by
  constructor
  · intro h
    unfold parseThumbKey at h
    split at h
    · next sha thumb jpg hsplit =>
        split_ifs at h with hparts
        obtain ⟨rfl, rfl, hsha⟩ := hparts
        obtain ⟨-, -, htext⟩ := List.splitOn_eq_iff.mp hsplit
        obtain rfl := Option.some.inj h
        have hkey : key = String.ofList sha ++ ".thumb.jpg" := by
          rw [← String.toList_inj, ← htext]
          simp [List.intercalate]
        rw [hkey]
        exact .thumb (by rwa [String.toList_ofList])
    · cases h
  · intro h
    cases h with
    | thumb hsha =>
        unfold parseThumbKey
        rw [thumb_dots hsha]
        exact (if_pos ⟨rfl, rfl, hsha⟩).trans (by rw [String.ofList_toList])

theorem parseBlobKey_eq_some_iff :
    parseBlobKey key = some (sha256, ext) ↔ Shaped (.blob sha256 ext) key := by
  constructor
  · intro h
    unfold parseBlobKey at h
    split at h
    · next sha extension hsplit =>
        split_ifs at h with hparts
        obtain ⟨hsha, hext⟩ := hparts
        obtain ⟨-, -, htext⟩ := List.splitOn_eq_iff.mp hsplit
        obtain ⟨rfl, rfl⟩ := Prod.mk.inj (Option.some.inj h)
        have hkey : key = String.ofList sha ++ "." ++ String.ofList extension := by
          rw [← String.toList_inj, ← htext]
          simp [List.intercalate]
        rw [hkey]
        exact .blob (by rwa [String.toList_ofList]) (by rwa [String.toList_ofList])
    · cases h
  · intro h
    cases h with
    | blob hsha hext =>
        unfold parseBlobKey
        rw [blob_dots hsha hext]
        exact (if_pos ⟨hsha, hext⟩).trans (by rw [String.ofList_toList, String.ofList_toList])

theorem parseJsonName_eq_some_iff {valid : List Char → Bool}
    (hfree : ∀ name, valid name = true → '.' ∉ name) {last : List Char} {name : String} :
    parseJsonName valid last = some name ↔
      valid name.toList = true ∧ last = name.toList ++ ".json".toList := by
  constructor
  · intro h
    unfold parseJsonName at h
    split at h
    · next chars json hsplit =>
        split_ifs at h with hparts
        obtain ⟨rfl, hvalid⟩ := hparts
        obtain ⟨-, -, htext⟩ := List.splitOn_eq_iff.mp hsplit
        obtain rfl := Option.some.inj h
        rw [String.toList_ofList]
        exact ⟨hvalid, by rw [← htext]; simp [List.intercalate]⟩
    · cases h
  · rintro ⟨hvalid, rfl⟩
    have hsplit : (name.toList ++ ".json".toList).splitOn '.' = [name.toList, "json".toList] := by
      rw [List.splitOn_eq_iff]
      refine ⟨by simp, ?_, by simp [List.intercalate]⟩
      simp only [List.mem_cons, List.not_mem_nil, or_false, forall_eq_or_imp, forall_eq]
      exact ⟨hfree _ hvalid, by decide⟩
    unfold parseJsonName
    rw [hsplit]
    exact (if_pos ⟨rfl, hvalid⟩).trans (by rw [String.ofList_toList])

theorem parseCanonicalUuid_eq_some_iff :
    parseCanonicalUuid s = some community ↔
      isCanonicalUuid community.toList = true ∧ s = community.toList := by
  unfold parseCanonicalUuid
  constructor
  · intro h
    split_ifs at h with hvalid
    obtain rfl := Option.some.inj h
    rw [String.toList_ofList]
    exact ⟨hvalid, rfl⟩
  · rintro ⟨hvalid, rfl⟩
    rw [if_pos hvalid, String.ofList_toList]

theorem parseSidecarKey_eq_some_iff :
    parseSidecarKey key = some (community, sha256) ↔ Shaped (.sidecar community sha256) key := by
  have hname := @parseJsonName_eq_some_iff isSha256 fun _ h => (sha256_free h).1
  constructor
  · intro h
    unfold parseSidecarKey at h
    split at h
    · next front middle last hsplit =>
        split_ifs at h with hfront
        obtain ⟨-, -, htext⟩ := List.splitOn_eq_iff.mp hsplit
        obtain ⟨found, hfound, h⟩ := Option.bind_eq_some_iff.mp h
        obtain ⟨sha, hsha, h⟩ := Option.bind_eq_some_iff.mp h
        obtain ⟨rfl, rfl⟩ := Prod.mk.inj (Option.some.inj h)
        obtain ⟨huuid, rfl⟩ := parseCanonicalUuid_eq_some_iff.mp hfound
        obtain ⟨hvalid, rfl⟩ := hname.mp hsha
        have hkey : key = "_meta/" ++ found ++ "/" ++ sha ++ ".json" := by
          rw [← String.toList_inj, ← htext, hfront]
          simp [List.intercalate]
        rw [hkey]
        exact .sidecar huuid hvalid
    · cases h
  · intro h
    cases h with
    | sidecar hcommunity hsha =>
        unfold parseSidecarKey
        rw [sidecar_slashes hcommunity hsha]
        have huuid := parseCanonicalUuid_eq_some_iff.mpr ⟨hcommunity, rfl⟩
        refine (if_pos rfl).trans ?_
        rw [huuid, hname.mpr ⟨hsha, rfl⟩]
        rfl

theorem parseAuxiliaryKey_eq_some_iff :
    parseAuxiliaryKey key = some (community, sha256, eventId) ↔
      Shaped (.auxiliary community sha256 eventId) key := by
  have hname := @parseJsonName_eq_some_iff isUlidCharset fun _ h => (ulid_free h).1
  constructor
  · intro h
    unfold parseAuxiliaryKey at h
    split at h
    · next front middle sha last hsplit =>
        split_ifs at h with hfront hsha
        · obtain ⟨-, -, htext⟩ := List.splitOn_eq_iff.mp hsplit
          obtain ⟨found, hfound, h⟩ := Option.bind_eq_some_iff.mp h
          obtain ⟨event, hevent, h⟩ := Option.bind_eq_some_iff.mp h
          obtain ⟨rfl, hpair⟩ := Prod.mk.inj (Option.some.inj h)
          obtain ⟨rfl, rfl⟩ := Prod.mk.inj hpair
          obtain ⟨huuid, rfl⟩ := parseCanonicalUuid_eq_some_iff.mp hfound
          obtain ⟨hvalid, rfl⟩ := hname.mp hevent
          have hkey : key = "_uploads/" ++ found ++ "/" ++ String.ofList sha ++ "/" ++ event ++
              ".json" := by
            rw [← String.toList_inj, ← htext, hfront]
            simp [List.intercalate]
          rw [hkey]
          exact .auxiliary huuid (by rwa [String.toList_ofList]) hvalid
        · obtain ⟨found, -, h⟩ := Option.bind_eq_some_iff.mp h
          cases h
    · cases h
  · intro h
    cases h with
    | auxiliary hcommunity hsha hevent =>
        unfold parseAuxiliaryKey
        rw [auxiliary_slashes hcommunity hsha hevent]
        have huuid := parseCanonicalUuid_eq_some_iff.mpr ⟨hcommunity, rfl⟩
        refine (if_pos rfl).trans ?_
        rw [huuid, Option.bind_eq_bind, Option.bind_some, if_pos hsha, hname.mpr ⟨hevent, rfl⟩,
          String.ofList_toList]
        rfl

end Shapes

section Classes

variable {key sha256 ext : String} {keyClass : KeyClass}

/-- A key with a slash is neither a thumb nor a blob. -/
theorem flat_none_of_slash (hslash : '/' ∈ key.toList) :
    parseThumbKey key = none ∧ parseBlobKey key = none := by
  constructor
  · rw [Option.eq_none_iff_forall_ne_some]
    intro sha256 h
    cases parseThumbKey_eq_some_iff.mp h with
    | thumb hsha =>
        rw [String.toList_append, List.mem_append] at hslash
        exact hslash.elim (sha256_free hsha).2 (by decide)
  · rw [Option.eq_none_iff_forall_ne_some]
    rintro ⟨sha256, ext⟩ h
    cases parseBlobKey_eq_some_iff.mp h with
    | blob hsha hext =>
        rw [String.toList_append, String.toList_append, List.mem_append, List.mem_append] at hslash
        rcases hslash with (hslash | hslash) | hslash
        · exact (sha256_free hsha).2 hslash
        · exact absurd hslash (by decide)
        · exact (blobExt_free hext).2 hslash

/-- No earlier parser takes a key of a later shape. -/
theorem classifyKey_of_shaped (h : Shaped keyClass key) : classifyKey key = keyClass := by
  unfold classifyKey
  cases h with
  | thumb hsha => rw [parseThumbKey_eq_some_iff.mpr (.thumb hsha)]
  | @blob sha256 ext hsha hext =>
      have hthumb : parseThumbKey (sha256 ++ "." ++ ext) = none := by
        unfold parseThumbKey
        rw [blob_dots hsha hext]
      rw [hthumb, parseBlobKey_eq_some_iff.mpr (.blob hsha hext)]
  | @sidecar community sha256 hcommunity hsha =>
      obtain ⟨hthumb, hblob⟩ := @flat_none_of_slash
        ("_meta/" ++ community ++ "/" ++ sha256 ++ ".json") (by simp)
      rw [hthumb, hblob, parseSidecarKey_eq_some_iff.mpr (.sidecar hcommunity hsha)]
  | @auxiliary community sha256 eventId hcommunity hsha hevent =>
      obtain ⟨hthumb, hblob⟩ := @flat_none_of_slash
        ("_uploads/" ++ community ++ "/" ++ sha256 ++ "/" ++ eventId ++ ".json") (by simp)
      have hsidecar : parseSidecarKey
          ("_uploads/" ++ community ++ "/" ++ sha256 ++ "/" ++ eventId ++ ".json") = none := by
        unfold parseSidecarKey
        rw [auxiliary_slashes hcommunity hsha hevent]
      rw [hthumb, hblob, hsidecar,
        parseAuxiliaryKey_eq_some_iff.mpr (.auxiliary hcommunity hsha hevent)]

theorem shaped_classifyKey (h : classifyKey key ≠ .unknown) : Shaped (classifyKey key) key := by
  unfold classifyKey at h ⊢
  split
  · next sha256 hparse => exact parseThumbKey_eq_some_iff.mp hparse
  · split
    · next sha256 ext hparse => exact parseBlobKey_eq_some_iff.mp hparse
    · split
      · next community sha256 hparse => exact parseSidecarKey_eq_some_iff.mp hparse
      · split
        · next community sha256 eventId hparse => exact parseAuxiliaryKey_eq_some_iff.mp hparse
        · simp_all

/-- A key is of exactly one class, the one it is classified in. -/
theorem isOfClass_iff : IsOfClass key keyClass ↔ classifyKey key = keyClass := by
  constructor
  · rintro (hshaped | ⟨rfl, hnone⟩)
    · exact classifyKey_of_shaped hshaped
    · by_contra hknown
      exact hnone _ (shaped_classifyKey hknown)
  · rintro rfl
    by_cases hknown : classifyKey key = .unknown
    · refine Or.inr ⟨hknown, fun shape hshape => ?_⟩
      rw [classifyKey_of_shaped hshape] at hknown
      rw [hknown] at hshape
      cases hshape
    · exact Or.inl (shaped_classifyKey hknown)

/-- One thumb at most is listed of a digest, and one sidecar of a binding. -/
theorem key_eq_of_class {other : String} (hkey : classifyKey key = keyClass)
    (hother : classifyKey other = keyClass) (hknown : keyClass ≠ .unknown) : key = other := by
  have hshaped : Shaped keyClass key := hkey ▸ shaped_classifyKey (hkey ▸ hknown)
  have hshapedOther : Shaped keyClass other := hother ▸ shaped_classifyKey (hother ▸ hknown)
  cases hshaped <;> cases hshapedOther <;> rfl

end Classes

end Buzz.Bucket
