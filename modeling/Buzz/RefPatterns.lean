import Mathlib
import Buzz.GitPerms

/-!
# The grammar of ref patterns

What a protection pattern is, segment by segment, and which refs it stands for. Both are stated on
the segments of the text; the parser and the matching loop are then shown to agree with them, and
the branches that the source marks as unreachable are not reached.
-/

namespace Buzz.Git

section Grammar

/-- Letters, digits and `._-`, all of them ASCII. -/
def LiteralChar (c : Char) : Prop :=
  ('A' ≤ c ∧ c ≤ 'Z') ∨ ('a' ≤ c ∧ c ≤ 'z') ∨ ('0' ≤ c ∧ c ≤ '9') ∨ c = '.' ∨ c = '_' ∨ c = '-'

structure IsLiteral (part : String) : Prop where
  nonempty : part ≠ ""
  chars : ∀ c ∈ part.toList, LiteralChar c

def isWildcard (part : String) : Bool :=
  part == "*" || part == "**"

structure IsPattern (pattern : String) : Prop where
  length : pattern.utf8ByteSize ≤ 256
  refs : pattern.startsWith "refs/" = true
  segments : ∀ part ∈ splitSlash pattern, IsLiteral part ∨ part = "*" ∨ part = "**"
  recursive_last : "**" ∉ (splitSlash pattern).dropLast
  wildcards : (splitSlash pattern).countP isWildcard ≤ 3

/-- The segments of a ref against those of a pattern. -/
inductive Covers : List String → List String → Prop where
  | nil : Covers [] []
  | literal {part : String} {parts refParts : List String} :
      IsLiteral part → Covers parts refParts → Covers (part :: parts) (part :: refParts)
  | wildcard {parts refParts : List String} (refPart : String) :
      Covers parts refParts → Covers ("*" :: parts) (refPart :: refParts)
  | recursiveWildcard {refParts : List String} : refParts ≠ [] → Covers ["**"] refParts

theorem isLiteralChar_iff (c : Char) : isLiteralChar c = true ↔ LiteralChar c := by
  simp only [isLiteralChar, LiteralChar, Char.isAlphanum, Char.isAlpha, Char.isUpper, Char.isLower,
    Char.isDigit, Bool.or_eq_true, Bool.and_eq_true, decide_eq_true_eq, beq_iff_eq, Char.le_def,
    ge_iff_le, or_assoc]

theorem LiteralChar.not_glob {c : Char} (h : LiteralChar c) :
    ¬(c = '*' ∨ c = '?' ∨ c = '[' ∨ c = ']') := by
  rintro (rfl | rfl | rfl | rfl)
  all_goals simp [LiteralChar] at h

theorem IsLiteral.ne_wildcard {part : String} (h : IsLiteral part) : part ≠ "*" ∧ part ≠ "**" := by
  constructor
  · rintro rfl
    exact (h.chars '*' (by simp)).not_glob (.inl rfl)
  · rintro rfl
    exact (h.chars '*' (by simp)).not_glob (.inl rfl)

end Grammar

section Parsing

/-- What the parser makes of a segment of the grammar. -/
def segmentOf (part : String) : PatternSegment :=
  if part = "**" then .recursiveWildcard else if part = "*" then .wildcard else .literal part

/-- The part of the grammar that concerns the segments from here on, after so many wildcards. -/
structure PartsFrom (wildcards : ℕ) (parts : List String) : Prop where
  segments : ∀ part ∈ parts, IsLiteral part ∨ part = "*" ∨ part = "**"
  recursive_last : "**" ∉ parts.dropLast
  wildcards : wildcards + parts.countP isWildcard ≤ 3

variable {wildcards : ℕ} {part : String} {rest : List String} {segments : List PatternSegment}

theorem except_map_ok_iff {ε α β : Type} {x : Except ε α} {f : α → β} {b : β} :
    x.map f = .ok b ↔ ∃ a, x = .ok a ∧ f a = b := by
  constructor
  · exact except_map_ok
  · rintro ⟨a, rfl, rfl⟩
    rfl

theorem recursive_last_cons (hne : part ≠ "**") :
    "**" ∉ (part :: rest).dropLast ↔ "**" ∉ rest.dropLast := by
  cases rest with
  | nil => simp
  | cons next rest =>
      rw [List.dropLast_cons_cons, List.mem_cons, not_or, and_iff_right hne.symm]

theorem partsFrom_recursive :
    PartsFrom wildcards ("**" :: rest) ↔ rest = [] ∧ wildcards + 1 ≤ 3 := by
  constructor
  · intro h
    have hrest : rest = [] := by
      cases rest with
      | nil => rfl
      | cons next rest => exact absurd (List.mem_cons_self ..) h.recursive_last
    subst hrest
    exact ⟨rfl, by simpa [isWildcard] using h.wildcards⟩
  · rintro ⟨rfl, hcount⟩
    exact ⟨by simp, by simp, by simpa [isWildcard] using hcount⟩

theorem partsFrom_wildcard :
    PartsFrom wildcards ("*" :: rest) ↔ PartsFrom (wildcards + 1) rest := by
  have hcount : wildcards + ("*" :: rest).countP isWildcard =
      wildcards + 1 + rest.countP isWildcard := by
    rw [List.countP_cons_of_pos (by decide)]
    omega
  constructor
  · intro h
    exact ⟨fun part hpart => h.segments part (List.mem_cons_of_mem _ hpart),
      (recursive_last_cons (by decide)).mp h.recursive_last, hcount ▸ h.wildcards⟩
  · intro h
    refine ⟨?_, (recursive_last_cons (by decide)).mpr h.recursive_last, hcount ▸ h.wildcards⟩
    intro part hpart
    rcases List.mem_cons.mp hpart with rfl | hpart
    · exact .inr (.inl rfl)
    · exact h.segments part hpart

theorem partsFrom_other (hstar : part ≠ "*") (hstars : part ≠ "**") :
    PartsFrom wildcards (part :: rest) ↔ IsLiteral part ∧ PartsFrom wildcards rest := by
  have hcount : (part :: rest).countP isWildcard = rest.countP isWildcard :=
    List.countP_cons_of_neg (by simp [isWildcard, hstar, hstars])
  constructor
  · intro h
    have hpart : IsLiteral part :=
      (h.segments part (List.mem_cons_self ..)).resolve_right fun hwild =>
        hwild.elim hstar hstars
    exact ⟨hpart, fun next hnext => h.segments next (List.mem_cons_of_mem _ hnext),
      (recursive_last_cons hstars).mp h.recursive_last, hcount ▸ h.wildcards⟩
  · rintro ⟨hpart, h⟩
    refine ⟨?_, (recursive_last_cons hstars).mpr h.recursive_last, hcount ▸ h.wildcards⟩
    intro next hnext
    rcases List.mem_cons.mp hnext with rfl | hnext
    · exact .inl hpart
    · exact h.segments next hnext

theorem isLiteral_iff (hnonempty : part ≠ "") :
    IsLiteral part ↔ part.toList.any (fun c => c == '*' || c == '?' || c == '[' || c == ']') =
      false ∧ part.toList.all isLiteralChar = true := by
  have hchars : part.toList.all isLiteralChar = true ↔ ∀ c ∈ part.toList, LiteralChar c := by
    simp only [List.all_eq_true, isLiteralChar_iff]
  rw [hchars]
  constructor
  · intro h
    refine ⟨?_, h.chars⟩
    rw [List.any_eq_false]
    intro c hc
    simpa only [Bool.or_eq_true, beq_iff_eq, or_assoc] using (h.chars c hc).not_glob
  · exact fun h => ⟨hnonempty, h.2⟩

theorem parseSegments_ok_iff (parts : List String) (hwildcards : wildcards ≤ 3) :
    parseSegments wildcards parts = .ok segments ↔
      PartsFrom wildcards parts ∧ segments = parts.map segmentOf := by
  induction parts generalizing wildcards segments with
  | nil =>
      have hnil : PartsFrom wildcards [] := ⟨by simp, by simp, by simpa using hwildcards⟩
      simp [parseSegments, hnil, eq_comm]
  | cons part rest ih =>
      unfold parseSegments
      by_cases hstars : part = "**"
      · subst hstars
        rw [if_pos rfl, partsFrom_recursive]
        by_cases hrest : rest = []
        · subst hrest
          have hmax : maxWildcardsPerPattern < wildcards + 1 ↔ ¬wildcards + 1 ≤ 3 := by
            simp [maxWildcardsPerPattern]
          by_cases hcount : wildcards + 1 ≤ 3
          · simp [hmax, hcount, segmentOf, eq_comm]
          · simp [hmax, hcount]
        · simp [hrest]
      · rw [if_neg hstars]
        by_cases hstar : part = "*"
        · subst hstar
          rw [if_pos rfl, partsFrom_wildcard]
          by_cases hcount : maxWildcardsPerPattern < wildcards + 1
          · have hnot : ¬PartsFrom (wildcards + 1) rest := fun h => by
              have := h.wildcards
              simp only [maxWildcardsPerPattern] at hcount
              omega
            simp [hcount, hnot]
          · have hle : wildcards + 1 ≤ 3 := by
              simpa only [maxWildcardsPerPattern, not_lt] using hcount
            rw [if_neg hcount, except_map_ok_iff]
            simp only [ih hle]
            constructor
            · rintro ⟨tail, ⟨h, rfl⟩, rfl⟩
              exact ⟨h, rfl⟩
            · rintro ⟨h, rfl⟩
              exact ⟨_, ⟨h, rfl⟩, rfl⟩
        · rw [if_neg hstar, partsFrom_other hstar hstars]
          by_cases hempty : part = ""
          · subst hempty
            have hnot : ¬IsLiteral "" := fun h => h.nonempty rfl
            simp [hnot]
          · rw [if_neg hempty, isLiteral_iff hempty]
            have hsegment : segmentOf part = .literal part := by
              rw [segmentOf, if_neg hstars, if_neg hstar]
            cases hglob : part.toList.any
                (fun c => c == '*' || c == '?' || c == '[' || c == ']') with
            | true => simp
            | false =>
                cases hchars : part.toList.all isLiteralChar with
                | false => simp
                | true =>
                    simp only [Bool.false_eq_true, if_false, if_true, true_and]
                    rw [except_map_ok_iff]
                    simp only [ih hwildcards]
                    constructor
                    · rintro ⟨tail, ⟨h, rfl⟩, rfl⟩
                      exact ⟨h, by rw [List.map_cons, hsegment]⟩
                    · rintro ⟨h, rfl⟩
                      exact ⟨_, ⟨h, rfl⟩, by rw [List.map_cons, hsegment]⟩

/-- The pattern that the parser builds from a text of the grammar, and no other text is parsed. -/
theorem parse_ok_iff {pattern : String} {parsed : RefPattern} :
    RefPattern.parse pattern = .ok parsed ↔
      IsPattern pattern ∧ parsed.raw = pattern ∧
        parsed.segments = (splitSlash pattern).map segmentOf := by
  have hgrammar : PartsFrom 0 (splitSlash pattern) ↔
      (∀ part ∈ splitSlash pattern, IsLiteral part ∨ part = "*" ∨ part = "**") ∧
        "**" ∉ (splitSlash pattern).dropLast ∧ (splitSlash pattern).countP isWildcard ≤ 3 :=
    ⟨fun h => ⟨h.segments, h.recursive_last, by simpa using h.wildcards⟩,
      fun h => ⟨h.1, h.2.1, by simpa using h.2.2⟩⟩
  unfold RefPattern.parse
  split_ifs with hempty hlong hrefs
  · refine iff_of_false (fun h => nomatch h) fun h => ?_
    have hrefs := h.1.refs
    rw [hempty] at hrefs
    revert hrefs
    decide
  · refine iff_of_false (fun h => nomatch h) fun h => ?_
    exact absurd h.1.length (Nat.not_le.mpr hlong)
  · refine iff_of_false (fun h => nomatch h) fun h => ?_
    rw [h.1.refs] at hrefs
    cases hrefs
  · have hlength : pattern.utf8ByteSize ≤ 256 := Nat.not_lt.mp hlong
    have hprefix : pattern.startsWith "refs/" = true := Bool.eq_true_of_not_eq_false hrefs
    split
    · rename_i e herror
      refine iff_of_false (fun h => nomatch h) fun h => ?_
      have hok : parseSegments 0 (splitSlash pattern) = .ok ((splitSlash pattern).map segmentOf) :=
        (parseSegments_ok_iff _ (Nat.zero_le 3)).mpr
          ⟨hgrammar.mpr ⟨h.1.segments, h.1.recursive_last, h.1.wildcards⟩, rfl⟩
      rw [herror] at hok
      cases hok
    · rename_i segments hok
      obtain ⟨hparts, rfl⟩ := (parseSegments_ok_iff _ (Nat.zero_le 3)).mp hok
      obtain ⟨hsegments, hlast, hcount⟩ := hgrammar.mp hparts
      constructor
      · intro h
        obtain rfl := Except.ok.inj h
        exact ⟨⟨hlength, hprefix, hsegments, hlast, hcount⟩, rfl, rfl⟩
      · rintro ⟨-, hraw, hsame⟩
        obtain ⟨raw, segments, hrecursive⟩ := parsed
        obtain rfl : raw = pattern := hraw
        obtain rfl : segments = (splitSlash raw).map segmentOf := hsame
        rfl

end Parsing

section Matching

/-- The closure of the matching loop. It has no value at `**`, where the source panics. -/
def segmentMatches : PatternSegment → String → Option Bool
  | .wildcard, _ => some true
  | .literal text, part => some (text == part)
  | .recursiveWildcard, _ => none

/-- The loop ends at the first pair that does not match. -/
def allMatch : List (PatternSegment × String) → Option Bool
  | [] => some true
  | (segment, part) :: rest =>
      match segmentMatches segment part with
      | none => none
      | some false => some false
      | some true => allMatch rest

/-- `matches` of the source with its unreachable branches. -/
def RefPattern.tryMatches (pattern : RefPattern) (refName : String) : Option Bool :=
  let refSegments := splitSlash refName
  if pattern.segments.getLast? = some .recursiveWildcard then
    let fixed := pattern.segments.length - 1
    if refSegments.length ≤ fixed then some false
    else allMatch ((pattern.segments.take fixed).zip (refSegments.take fixed))
  else if refSegments.length ≠ pattern.segments.length then some false
  else allMatch (pattern.segments.zip refSegments)

theorem allMatch_eq {segments : List PatternSegment}
    (h : PatternSegment.recursiveWildcard ∉ segments) (refParts : List String) :
    allMatch (segments.zip refParts) = some (RefPattern.segmentsMatch segments refParts) := by
  induction segments generalizing refParts with
  | nil => rfl
  | cons segment segments ih =>
      cases refParts with
      | nil => rfl
      | cons refPart refParts =>
          rw [List.mem_cons, not_or] at h
          have hrest := ih h.2 refParts
          rw [List.zip_cons_cons, allMatch]
          unfold RefPattern.segmentsMatch at hrest ⊢
          rw [List.zip_cons_cons, List.all_cons]
          cases segment with
          | wildcard => simpa [segmentMatches] using hrest
          | recursiveWildcard => exact absurd rfl h.1
          | literal text =>
              cases hsame : text == refPart with
              | true => simpa [segmentMatches, hsame] using hrest
              | false => simp [segmentMatches, hsame]

/-- A validated pattern never gets to the branches that panic. -/
theorem RefPattern.tryMatches_eq (pattern : RefPattern) (refName : String) :
    pattern.tryMatches refName = some (pattern.matchesRef refName) := by
  have hfixed : PatternSegment.recursiveWildcard ∉
      pattern.segments.take (pattern.segments.length - 1) := by
    rw [← List.dropLast_eq_take]
    exact pattern.recursive_last
  simp only [tryMatches, matchesRef]
  split_ifs with hlast hshort hlength
  · rfl
  · exact allMatch_eq hfixed _
  · rfl
  · apply allMatch_eq
    intro hmem
    exact pattern.recursive_last (List.mem_dropLast_of_mem_of_ne_getLast? hmem (Ne.symm hlast))

variable {part refPart : String} {parts refParts : List String}

theorem segmentsMatch_wildcard (segments : List PatternSegment) :
    RefPattern.segmentsMatch (.wildcard :: segments) (refPart :: refParts) =
      RefPattern.segmentsMatch segments refParts := by
  simp [RefPattern.segmentsMatch]

theorem segmentsMatch_literal (segments : List PatternSegment) :
    RefPattern.segmentsMatch (.literal part :: segments) (refPart :: refParts) = true ↔
      part = refPart ∧ RefPattern.segmentsMatch segments refParts = true := by
  simp [RefPattern.segmentsMatch]

theorem segmentOf_literal (h : IsLiteral part) : segmentOf part = .literal part := by
  rw [segmentOf, if_neg h.ne_wildcard.2, if_neg h.ne_wildcard.1]

theorem covers_literal_iff (hpart : IsLiteral part) :
    Covers (part :: parts) (refPart :: refParts) ↔ part = refPart ∧ Covers parts refParts := by
  constructor
  · intro h
    generalize hparts : part :: parts = all at h
    cases h with
    | literal _ h =>
        obtain ⟨rfl, rfl⟩ := List.cons.inj hparts
        exact ⟨rfl, h⟩
    | wildcard _ h => exact absurd (List.cons.inj hparts).1 hpart.ne_wildcard.1
    | recursiveWildcard h => exact absurd (List.cons.inj hparts).1 hpart.ne_wildcard.2
  · rintro ⟨rfl, h⟩
    exact .literal hpart h

theorem covers_wildcard_iff :
    Covers ("*" :: parts) (refPart :: refParts) ↔ Covers parts refParts := by
  constructor
  · intro h
    generalize hparts : "*" :: parts = all at h
    cases h with
    | literal hpart _ => exact absurd (List.cons.inj hparts).1.symm hpart.ne_wildcard.1
    | wildcard _ h => exact (List.cons.inj hparts).2 ▸ h
    | recursiveWildcard h => exact absurd (List.cons.inj hparts).1 (by decide)
  · exact .wildcard refPart

theorem covers_recursiveWildcard_iff : Covers ["**"] refParts ↔ refParts ≠ [] := by
  constructor
  · intro h
    generalize hparts : ["**"] = all at h
    cases h with
    | nil => cases hparts
    | literal hpart _ => exact absurd (List.cons.inj hparts).1.symm hpart.ne_wildcard.2
    | wildcard _ h => exact absurd (List.cons.inj hparts).1 (by decide)
    | recursiveWildcard h => exact h
  · exact .recursiveWildcard

theorem not_covers_nil (hparts : parts ≠ []) : ¬Covers parts [] := by
  intro h
  cases h with
  | nil => exact hparts rfl
  | recursiveWildcard hne => exact hne rfl

/-- A pattern without `**` covers a ref of the same depth, segment by segment. -/
theorem covers_plain_iff (hparts : ∀ part ∈ parts, IsLiteral part ∨ part = "*") :
    Covers parts refParts ↔ refParts.length = parts.length ∧
      RefPattern.segmentsMatch (parts.map segmentOf) refParts = true := by
  induction parts generalizing refParts with
  | nil =>
      constructor
      · intro h
        cases h
        exact ⟨rfl, rfl⟩
      · rintro ⟨hlength, -⟩
        rw [List.eq_nil_of_length_eq_zero hlength]
        exact .nil
  | cons part parts ih =>
      obtain ⟨hpart, hrest⟩ := List.forall_mem_cons.mp hparts
      cases refParts with
      | nil => exact iff_of_false (not_covers_nil (by simp)) fun h => absurd h.1 (by simp)
      | cons refPart refParts =>
          rw [List.map_cons, List.length_cons, List.length_cons, Nat.add_right_cancel_iff]
          rcases hpart with hliteral | rfl
          · rw [segmentOf_literal hliteral, segmentsMatch_literal, covers_literal_iff hliteral,
              ih hrest]
            exact and_left_comm
          · have hsegment : segmentOf "*" = .wildcard := by decide
            rw [hsegment, segmentsMatch_wildcard, covers_wildcard_iff, ih hrest]

/-- With `**` at the end it covers what is deeper by one segment at least. -/
theorem covers_recursive_iff (hparts : ∀ part ∈ parts, IsLiteral part ∨ part = "*") :
    Covers (parts ++ ["**"]) refParts ↔ parts.length < refParts.length ∧
      RefPattern.segmentsMatch (parts.map segmentOf) (refParts.take parts.length) = true := by
  induction parts generalizing refParts with
  | nil =>
      have hmatch : RefPattern.segmentsMatch [] (refParts.take 0) = true := rfl
      rw [List.nil_append, covers_recursiveWildcard_iff, List.map_nil, List.length_nil,
        List.length_pos_iff, and_iff_left hmatch]
  | cons part parts ih =>
      obtain ⟨hpart, hrest⟩ := List.forall_mem_cons.mp hparts
      cases refParts with
      | nil => exact iff_of_false (not_covers_nil (by simp)) fun h => absurd h.1 (by simp)
      | cons refPart refParts =>
          rw [List.map_cons, List.cons_append, List.length_cons, List.length_cons,
            List.take_succ_cons, Nat.add_lt_add_iff_right]
          rcases hpart with hliteral | rfl
          · rw [segmentOf_literal hliteral, segmentsMatch_literal, covers_literal_iff hliteral,
              ih hrest]
            exact and_left_comm
          · have hsegment : segmentOf "*" = .wildcard := by decide
            rw [hsegment, segmentsMatch_wildcard, covers_wildcard_iff, ih hrest]

theorem matchesRef_iff {pattern : String} {parsed : RefPattern} (hpattern : IsPattern pattern)
    (hsegments : parsed.segments = (splitSlash pattern).map segmentOf) (refName : String) :
    parsed.matchesRef refName = true ↔ Covers (splitSlash pattern) (splitSlash refName) := by
  simp only [RefPattern.matchesRef, hsegments, List.length_map, List.getLast?_map]
  by_cases hlast : (splitSlash pattern).getLast? = some "**"
  · obtain ⟨front, hfront⟩ := List.getLast?_eq_some_iff.mp hlast
    have hplain : ∀ part ∈ front, IsLiteral part ∨ part = "*" := by
      intro part hpart
      rcases hpattern.segments part (by rw [hfront]; simp [hpart]) with h | h | rfl
      · exact .inl h
      · exact .inr h
      · refine absurd ?_ hpattern.recursive_last
        simpa [hfront] using hpart
    rw [hfront, covers_recursive_iff hplain]
    simp [segmentOf]
  · have hplain : ∀ part ∈ splitSlash pattern, IsLiteral part ∨ part = "*" := by
      intro part hpart
      rcases hpattern.segments part hpart with h | h | rfl
      · exact .inl h
      · exact .inr h
      · exact absurd (List.mem_dropLast_of_mem_of_ne_getLast? hpart (Ne.symm hlast))
          hpattern.recursive_last
    have hnot : (splitSlash pattern).getLast?.map segmentOf ≠ some .recursiveWildcard := by
      intro h
      obtain ⟨last, hmem, hsegment⟩ := Option.map_eq_some_iff.mp h
      rcases hplain last (List.mem_of_getLast? hmem) with hliteral | rfl
      · rw [segmentOf_literal hliteral] at hsegment
        cases hsegment
      · cases hsegment
    rw [if_neg hnot, covers_plain_iff hplain]
    split_ifs with hlength
    · simp [hlength]
    · rw [and_iff_right (not_not.mp hlength)]

/-- The parser accepts the grammar, and an accepted pattern matches the refs that it covers. -/
theorem refPattern_means_grammar (pattern : String) :
    ((∃ parsed, RefPattern.parse pattern = .ok parsed) ↔ IsPattern pattern) ∧
      ∀ parsed, RefPattern.parse pattern = .ok parsed → ∀ refName,
        ∃ matched, parsed.tryMatches refName = some matched ∧
          (matched = true ↔ Covers (splitSlash pattern) (splitSlash refName)) := by
  constructor
  · constructor
    · rintro ⟨parsed, hparsed⟩
      exact (parse_ok_iff.mp hparsed).1
    · intro h
      have hlast : PatternSegment.recursiveWildcard ∉
          ((splitSlash pattern).map segmentOf).dropLast :=
        parseSegments_recursive_last (splitSlash pattern)
          ((parseSegments_ok_iff _ (Nat.zero_le 3)).mpr
          ⟨⟨h.segments, h.recursive_last, by simpa using h.wildcards⟩, rfl⟩)
      exact ⟨⟨pattern, _, hlast⟩, parse_ok_iff.mpr ⟨h, rfl, rfl⟩⟩
  · intro parsed hparsed refName
    obtain ⟨hpattern, -, hsegments⟩ := parse_ok_iff.mp hparsed
    exact ⟨_, parsed.tryMatches_eq refName, matchesRef_iff hpattern hsegments refName⟩

theorem refPattern_means_grammar_nested :
    ∃ matched, (⟨"refs/*/**", [.literal "refs", .wildcard, .recursiveWildcard], by decide⟩ :
        RefPattern).tryMatches "refs/heads/feature/foo" = some matched ∧
      (matched = true ↔
        Covers (splitSlash "refs/*/**") (splitSlash "refs/heads/feature/foo")) := by
  have hparsed : RefPattern.parse "refs/*/**" =
      .ok ⟨"refs/*/**", [.literal "refs", .wildcard, .recursiveWildcard], by decide⟩ := by
    decide +kernel
  exact (refPattern_means_grammar "refs/*/**").2 _ hparsed "refs/heads/feature/foo"

end Matching

end Buzz.Git
