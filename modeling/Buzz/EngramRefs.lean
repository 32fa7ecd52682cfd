import Buzz.Engram
import Buzz.Utf8Offsets

/-!
# References between engrams

The scan over the bytes of a body for `[[slug]]`. It jumps over what an opening pair encloses, over
the pair alone, or over one byte. A reference is a slug in front of `]]` behind an even number of
opening brackets, and the scan finds each of them: it always stands at an even place of a run
of brackets, and no jump leads over the pair that opens a reference.
-/

namespace Buzz.Engram

open Utf8Offsets (size bytes isBoundary slice)

section Scan

def openByte : UInt8 := 0x5b

def closeByte : UInt8 := 0x5d

def opensAt (bs : List UInt8) (i : ℕ) : Prop :=
  bs[i]? = some openByte ∧ bs[i + 1]? = some openByte

def closesAt (bs : List UInt8) (i : ℕ) : Prop :=
  bs[i]? = some closeByte ∧ bs[i + 1]? = some closeByte

instance (bs : List UInt8) (i : ℕ) : Decidable (opensAt bs i) := inferInstanceAs (Decidable (_ ∧ _))

instance (bs : List UInt8) (i : ℕ) : Decidable (closesAt bs i) :=
  inferInstanceAs (Decidable (_ ∧ _))

/-- The inner loop: the closing pair, unless an opening pair or the end comes first. -/
def findClose (bs : List UInt8) (j : ℕ) : Option ℕ :=
  if j + 1 < bs.length then
    if opensAt bs j then none
    else if closesAt bs j then some j
    else findClose bs (j + 1)
  else none
termination_by bs.length - j

theorem le_of_findClose {bs : List UInt8} {j k : ℕ} (h : findClose bs j = some k) : j ≤ k := by
  fun_induction findClose bs j with
  | case1 j hlt hopens => cases h
  | case2 j hlt hopens hcloses => exact (Option.some.inj h).le
  | case3 j hlt hopens hcloses ih => exact Nat.le_of_succ_le (ih h)
  | case4 j hlt => cases h

def insertNew {α : Type} [DecidableEq α] (out : List α) (a : α) : List α :=
  if a ∈ out then out else out ++ [a]

/-- What a closed candidate adds to the result. -/
def addCandidate (out : List String) (candidate : String) : List String :=
  if validateSlug candidate = .ok () then insertNew out candidate else out

/-- The outer loop; it has no result where the slice would panic. -/
def scanRefs (body : List Char) (i : ℕ) (out : List String) : Option (List String) :=
  if i + 3 < (bytes body).length then
    if opensAt (bytes body) i then
      match h : findClose (bytes body) (i + 2) with
      | some j =>
          match slice body (i + 2) j with
          | none => none
          | some candidate => scanRefs body (j + 2) (addCandidate out (String.ofList candidate))
      | none => scanRefs body (i + 2) out
    else scanRefs body (i + 1) out
  else some out
termination_by (bytes body).length - i
decreasing_by
  · have hle := le_of_findClose h
    omega
  · omega
  · omega

def extractRefs (body : String) : Option (List String) :=
  scanRefs body.toList 0 []

end Scan

section Slugs

/-- A character of a slug. -/
def isSlugChar (c : Char) : Bool :=
  isLowerAlnum c || c == '_' || c == '-' || c == '/'

theorem isSlugChar_bounds {c : Char} (h : isSlugChar c = true) :
    c.toNat < 128 ∧ c ≠ '[' ∧ c ≠ ']' := by
  refine ⟨?_, ?_, ?_⟩
  · simp only [isSlugChar, isLowerAlnum, Bool.or_eq_true, Bool.and_eq_true, decide_eq_true_eq,
      beq_iff_eq, Char.le_def, UInt32.le_iff_toNat_le] at h
    rcases h with (((h | h) | rfl) | rfl) | rfl
    · exact Nat.lt_of_le_of_lt h.2 (by decide)
    · exact Nat.lt_of_le_of_lt h.2 (by decide)
    · decide
    · decide
    · decide
  all_goals
    rintro rfl
    revert h
    decide

theorem mem_splitOn_of_mem {separator c : Char} {cs : List Char} (hc : c ∈ cs)
    (hne : c ≠ separator) : ∃ piece ∈ cs.splitOn separator, c ∈ piece := by
  induction cs with
  | nil => cases hc
  | cons d cs ih =>
      rw [List.splitOn_cons_eq_if_modifyHead]
      obtain ⟨first, rest, hsplit⟩ := List.exists_cons_of_ne_nil (List.splitOn_ne_nil separator cs)
      split_ifs with hd
      · have hcs : c ∈ cs := (List.mem_cons.mp hc).resolve_left fun h =>
          hne (h.trans (beq_iff_eq.mp hd))
        obtain ⟨piece, hpiece, hmem⟩ := ih hcs
        exact ⟨piece, List.mem_cons_of_mem _ hpiece, hmem⟩
      · rw [hsplit] at ih
        rw [hsplit, List.modifyHead_cons]
        rcases List.mem_cons.mp hc with rfl | hcs
        · exact ⟨_, List.mem_cons_self .., List.mem_cons_self ..⟩
        · obtain ⟨piece, hpiece, hmem⟩ := ih hcs
          rcases List.mem_cons.mp hpiece with rfl | hpiece
          · exact ⟨_, List.mem_cons_self .., List.mem_cons_of_mem _ hmem⟩
          · exact ⟨piece, List.mem_cons_of_mem _ hpiece, hmem⟩

theorem validateSegment_chars {segment : List Char} (h : validateSegment segment = .ok ()) :
    ∀ c ∈ segment, isSlugChar c = true := by
  cases segment with
  | nil => cases h
  | cons first rest =>
      unfold validateSegment at h
      simp only at h
      split_ifs at h with hlength hfirst hrest
      intro c hc
      rcases List.mem_cons.mp hc with rfl | hc
      · simp [isSlugChar, Bool.eq_true_of_not_eq_false hfirst]
      · have hchar := List.all_eq_true.mp hrest c hc
        simp only [isSlugChar, hchar, Bool.true_or]

theorem validateSegments_chars {index : ℕ} {segments : List (List Char)}
    (h : validateSegments index segments = .ok ()) :
    ∀ segment ∈ segments, ∀ c ∈ segment, isSlugChar c = true := by
  induction segments generalizing index with
  | nil => simp
  | cons segment segments ih =>
      rw [validateSegments] at h
      split at h
      · cases h
      · rename_i hsegment
        exact List.forall_mem_cons.mpr ⟨validateSegment_chars hsegment, ih h⟩

theorem validateSlug_chars {slug : String} (h : validateSlug slug = .ok ()) :
    (∀ c ∈ slug.toList, isSlugChar c = true) ∧ 4 ≤ slug.toList.length := by
  unfold validateSlug at h
  simp only at h
  split_ifs at h with hcore hlong hprefix hempty
  · subst hcore
    exact ⟨List.all_eq_true.mp (by decide), by decide⟩
  · obtain ⟨rest, hrest⟩ := List.isPrefixOf_iff_prefix.mp (Bool.eq_true_of_not_eq_false hprefix)
    have hdrop : slug.toList.drop 4 = rest := by
      rw [← hrest]
      rfl
    rw [hdrop] at h
    refine ⟨fun c hc => ?_, ?_⟩
    · rw [← hrest, List.mem_append] at hc
      rcases hc with hc | hc
      · have hhead : "mem/".toList.all isSlugChar = true := by decide
        exact List.all_eq_true.mp hhead c hc
      · by_cases hslash : c = '/'
        · rw [hslash]
          decide
        · obtain ⟨piece, hpiece, hmem⟩ := mem_splitOn_of_mem hc hslash
          exact validateSegments_chars h piece hpiece c hmem
    · rw [← hrest, List.length_append]
      exact Nat.le_add_right 4 _

end Slugs

section Bytes

/-- The length of the run of opening brackets in front of an index. -/
def runBefore (bs : List UInt8) : ℕ → ℕ
  | 0 => 0
  | i + 1 => if bs[i]? = some openByte then runBefore bs i + 1 else 0

variable {bs : List UInt8} {i j k : ℕ}

theorem runBefore_succ (h : bs[i]? = some openByte) : runBefore bs (i + 1) = runBefore bs i + 1 :=
  if_pos h

theorem runBefore_other (h : bs[i]? ≠ some openByte) : runBefore bs (i + 1) = 0 :=
  if_neg h

theorem runBefore_opens (h : opensAt bs i) : runBefore bs (i + 2) = runBefore bs i + 2 := by
  rw [runBefore_succ h.2, runBefore_succ h.1]

/-- Two brackets at least end at the index only if a pair opens in front of it. -/
theorem opens_of_run (h : 2 ≤ runBefore bs i) : ∃ start, i = start + 2 ∧ opensAt bs start := by
  cases i with
  | zero => exact absurd h (by simp [runBefore])
  | succ i =>
      by_cases hlast : bs[i]? = some openByte
      · rw [runBefore_succ hlast] at h
        cases i with
        | zero => exact absurd h (by simp [runBefore])
        | succ i =>
            by_cases hfirst : bs[i]? = some openByte
            · exact ⟨i, rfl, hfirst, hlast⟩
            · rw [runBefore_other hfirst] at h
              omega
      · rw [runBefore_other hlast] at h
        omega

theorem closesAt_not_opensAt (h : closesAt bs i) : ¬opensAt bs i := by
  intro hopens
  rw [opensAt, h.1] at hopens
  exact absurd hopens.1 (by decide)

theorem closesAt_of_findClose (h : findClose bs j = some k) :
    closesAt bs k ∧ ∀ m, j ≤ m → m < k → ¬opensAt bs m := by
  fun_induction findClose bs j with
  | case1 j hlt hopens => cases h
  | case2 j hlt hopens hcloses =>
      obtain rfl := Option.some.inj h
      exact ⟨hcloses, fun m hle hlt => absurd hlt (Nat.not_lt.mpr hle)⟩
  | case3 j hlt hopens hcloses ih =>
      obtain ⟨hend, hnone⟩ := ih h
      refine ⟨hend, fun m hle hlt => ?_⟩
      rcases Nat.eq_or_lt_of_le hle with rfl | hlater
      · exact hopens
      · exact hnone m hlater hlt
  | case4 j hlt => cases h

/-- The first closing pair is found when no bracket comes before it. -/
theorem findClose_of_closes (hle : j ≤ k) (hcloses : closesAt bs k)
    (hplain : ∀ m, j ≤ m → m < k → bs[m]? ≠ some openByte ∧ bs[m]? ≠ some closeByte) :
    findClose bs j = some k := by
  have hlength : k + 1 < bs.length := by
    by_contra hnot
    have hend := hcloses.2
    rw [List.getElem?_eq_none (by omega)] at hend
    cases hend
  induction hle using Nat.decreasingInduction with
  | self => rw [findClose, if_pos hlength, if_neg (closesAt_not_opensAt hcloses), if_pos hcloses]
  | of_succ m hlt ih =>
      have hm := hplain m le_rfl hlt
      rw [findClose, if_pos (by omega), if_neg fun h => hm.1 h.1, if_neg fun h => hm.2 h.1]
      exact ih fun next hnext => hplain next (by omega)

end Bytes

section References

/-- The length of the run of `[` at the end. -/
def openers (before : List Char) : ℕ :=
  (before.reverse.takeWhile (· == '[')).length

/-- The slug stands behind the given text and is closed; the text ends in an even run of `[`. -/
structure IsReference (body : List Char) (before : List Char) (slug : String) : Prop where
  text : ∃ after, body = before ++ slug.toList ++ ']' :: ']' :: after
  even : Even (openers before)
  two : 2 ≤ openers before
  valid : validateSlug slug = .ok ()

theorem openers_concat (before : List Char) (c : Char) :
    openers (before ++ [c]) = if c = '[' then openers before + 1 else 0 := by
  unfold openers
  rw [List.reverse_append, List.reverse_singleton, List.singleton_append, List.takeWhile_cons]
  split_ifs with h1 h2
  · rfl
  · exact absurd (beq_iff_eq.mp h1) h2
  · simp_all
  · rfl

theorem openByte_mem_iff (c : Char) : openByte ∈ String.utf8EncodeChar c ↔ c = '[' := by
  constructor
  · intro h
    have hascii := Utf8Offsets.ascii_of_mem_utf8EncodeChar h (by decide)
    rw [Utf8Offsets.utf8EncodeChar_ascii hascii, List.mem_singleton] at h
    have hnat : c.toNat = openByte.toNat := by
      rw [h, UInt8.toNat_ofNat']
      omega
    rw [← Char.ofNat_toNat c, hnat]
    decide
  · rintro rfl
    decide

theorem runBefore_eq_openers (before after : List Char) :
    runBefore (bytes (before ++ after)) (size before) = openers before := by
  induction before using List.reverseRecOn generalizing after with
  | nil => rfl
  | append_singleton before c ih =>
      rw [openers_concat, Utf8Offsets.size_append, List.append_assoc]
      by_cases hc : c = '['
      · subst hc
        have hfirst : (bytes (before ++ (['['] ++ after)))[size before]? = some openByte := by
          rw [← Nat.add_zero (size before), Utf8Offsets.bytes_getElem_append]
          rfl
        have hone : size ['['] = 1 := by decide
        rw [if_pos rfl, hone, runBefore_succ hfirst, ih]
      · have hpos := c.utf8Size_pos
        have hlength := String.length_utf8EncodeChar c
        obtain ⟨m, hm⟩ : ∃ m, c.utf8Size = m + 1 := ⟨c.utf8Size - 1, by omega⟩
        have hsize : size [c] = m + 1 := by
          rw [Utf8Offsets.size_cons, Utf8Offsets.size_nil, hm]
        have hlast : (bytes (before ++ ([c] ++ after)))[size before + m]? ≠ some openByte := by
          rw [Utf8Offsets.bytes_getElem_append, List.singleton_append, Utf8Offsets.bytes_cons,
            List.getElem?_append_left (by omega)]
          exact fun h => hc ((openByte_mem_iff c).mp (List.mem_of_getElem? h))
        rw [if_neg hc, hsize, ← Nat.add_assoc, runBefore_other hlast]

variable {body before : List Char} {slug : String} {i j : ℕ}

theorem IsReference.prefix (h : IsReference body before slug) : before <+: body := by
  obtain ⟨after, rfl⟩ := h.text
  exact ⟨slug.toList ++ ']' :: ']' :: after, by rw [← List.append_assoc]⟩

theorem IsReference.run (h : IsReference body before slug) :
    runBefore (bytes body) (size before) = openers before := by
  obtain ⟨after, rfl⟩ := h.text
  rw [List.append_assoc]
  exact runBefore_eq_openers before _

theorem IsReference.opens (h : IsReference body before slug) :
    ∃ start, size before = start + 2 ∧ opensAt (bytes body) start :=
  opens_of_run (h.run ▸ h.two)

/-- No byte of a slug is a bracket. -/
theorem slug_byte_plain (hvalid : validateSlug slug = .ok ()) {n : ℕ} {byte : UInt8}
    (hbyte : (bytes slug.toList)[n]? = some byte) : byte ≠ openByte ∧ byte ≠ closeByte := by
  obtain ⟨c, hc, hmem⟩ := Utf8Offsets.bytes_getElem_mem hbyte
  obtain ⟨hascii, hopen, hclose⟩ := isSlugChar_bounds ((validateSlug_chars hvalid).1 c hc)
  rw [Utf8Offsets.utf8EncodeChar_ascii hascii, List.mem_singleton] at hmem
  have hchar (b : UInt8) (d : Char) (hb : b.toNat = d.toNat) (hd : c ≠ d) : byte ≠ b := by
    rintro rfl
    have hnat : c.toNat = d.toNat := by
      rw [← hb, hmem, UInt8.toNat_ofNat']
      omega
    exact hd (by rw [← Char.ofNat_toNat c, hnat, Char.ofNat_toNat])
  exact ⟨hchar openByte '[' rfl hopen, hchar closeByte ']' rfl hclose⟩

theorem IsReference.closed (h : IsReference body before slug) :
    findClose (bytes body) (size before) = some (size before + size slug.toList) := by
  obtain ⟨after, rfl⟩ := h.text
  apply findClose_of_closes (Nat.le_add_right _ _)
  · constructor
    · rw [List.append_assoc, Utf8Offsets.bytes_getElem_append]
      conv_lhs => rw [← Nat.add_zero (size slug.toList), Utf8Offsets.bytes_getElem_append]
      rfl
    · rw [List.append_assoc, Nat.add_assoc, Utf8Offsets.bytes_getElem_append,
        Utf8Offsets.bytes_getElem_append]
      rfl
  · intro m hle hlt
    obtain ⟨n, rfl⟩ := Nat.exists_eq_add_of_le hle
    have hn : n < (bytes slug.toList).length := by
      rw [Utf8Offsets.length_bytes]
      omega
    rw [List.append_assoc, Utf8Offsets.bytes_getElem_append, Utf8Offsets.bytes_append,
      List.getElem?_append_left hn, List.getElem?_eq_getElem hn]
    obtain ⟨hopen, hclose⟩ := slug_byte_plain h.valid (List.getElem?_eq_getElem hn)
    exact ⟨fun heq => hopen (Option.some.inj heq), fun heq => hclose (Option.some.inj heq)⟩

theorem IsReference.length (h : IsReference body before slug) :
    size before + 6 ≤ (bytes body).length := by
  obtain ⟨after, rfl⟩ := h.text
  obtain ⟨hchars, hlength⟩ := validateSlug_chars h.valid
  have hsize : size slug.toList = slug.toList.length :=
    Utf8Offsets.size_of_ascii fun c hc => (isSlugChar_bounds (hchars c hc)).1
  have hclose : size [']', ']'] = 2 := by decide
  have hpair : size (']' :: ']' :: after) = 2 + size after := by
    rw [← hclose, ← Utf8Offsets.size_append]
    rfl
  rw [Utf8Offsets.length_bytes, Utf8Offsets.size_append, Utf8Offsets.size_append, hpair]
  omega

/-- What a pair at an even place encloses is cut out of the text, and it is a reference when it
is a slug. -/
theorem enclosed (hopens : opensAt (bytes body) i)
    (hclose : findClose (bytes body) (i + 2) = some j)
    (haligned : Even (runBefore (bytes body) i)) :
    ∃ before mid, size before = i + 2 ∧ slice body (i + 2) j = some mid ∧
      (validateSlug (String.ofList mid) = .ok () → IsReference body before (String.ofList mid)) ∧
      ∀ other slug, IsReference body other slug → size other = i + 2 →
        other = before ∧ slug = String.ofList mid := by
  obtain ⟨front, tail, hbody, hfront⟩ := Utf8Offsets.exists_append_of_ascii hopens.2 (by decide)
  obtain ⟨hcloses, -⟩ := closesAt_of_findClose hclose
  obtain ⟨inner, rest, hsplit, hinner⟩ := Utf8Offsets.exists_append_of_ascii hcloses.1 (by decide)
  have hopen : Char.ofNat openByte.toNat = '[' := by decide
  have hend : Char.ofNat closeByte.toNat = ']' := by decide
  rw [hopen] at hbody
  rw [hend] at hsplit
  have hsize : size (front ++ ['[']) = i + 2 := by
    rw [Utf8Offsets.size_append, hfront]
    rfl
  have hrest : ∃ after, rest = ']' :: after := by
    have hnext : (bytes rest)[0]? = some closeByte := by
      have hsecond := Utf8Offsets.bytes_getElem_append (inner ++ [']']) rest 0
      have hlength : size (inner ++ [']']) = j + 1 := by
        rw [Utf8Offsets.size_append, hinner]
        rfl
      rw [List.append_assoc, List.singleton_append, ← hsplit, hlength] at hsecond
      exact hsecond.symm.trans hcloses.2
    obtain ⟨gap, after, rfl, hgap⟩ := Utf8Offsets.exists_append_of_ascii hnext (by decide)
    rw [Utf8Offsets.size_eq_zero.mp hgap, hend]
    exact ⟨after, rfl⟩
  obtain ⟨after, rfl⟩ := hrest
  have hprefix : front ++ ['['] <+: inner := by
    apply Utf8Offsets.prefix_of_size_le ⟨tail, by rw [hbody]; simp⟩ ⟨_, hsplit.symm⟩
    rw [hsize, hinner]
    exact le_of_findClose hclose
  obtain ⟨mid, rfl⟩ := hprefix
  refine ⟨front ++ ['['], mid, hsize, ?_, fun hvalid => ?_, fun other slug h hother => ?_⟩
  · rw [hsplit, ← hinner, ← hsize]
    exact Utf8Offsets.slice_append _ mid _
  · have hrun : openers (front ++ ['[']) = runBefore (bytes body) i + 2 := by
      rw [← runBefore_opens hopens, ← hsize, hsplit, List.append_assoc, runBefore_eq_openers]
    exact ⟨⟨after, by rw [String.toList_ofList, hsplit]⟩, hrun ▸ haligned.add even_two,
      hrun ▸ Nat.le_add_left 2 _, hvalid⟩
  · have hbefore : front ++ ['['] <+: body := by
      rw [hsplit, List.append_assoc]
      exact List.prefix_append ..
    obtain rfl := Utf8Offsets.eq_of_size_eq h.prefix hbefore (hother.trans hsize.symm)
    refine ⟨rfl, ?_⟩
    have hclosed := h.closed
    rw [hother, hclose, Option.some.injEq] at hclosed
    obtain ⟨rest, htext⟩ := h.text
    have hsame : slug.toList ++ ']' :: ']' :: rest = mid ++ ']' :: ']' :: after := by
      have hwhole : (front ++ ['[']) ++ (slug.toList ++ ']' :: ']' :: rest) =
          (front ++ ['[']) ++ (mid ++ ']' :: ']' :: after) := by
        rw [← List.append_assoc, ← List.append_assoc, ← htext, ← hsplit]
      exact List.append_cancel_left hwhole
    have hmid : slug.toList = mid := by
      apply Utf8Offsets.eq_of_size_eq ⟨_, hsame⟩ ⟨_, rfl⟩
      rw [Utf8Offsets.size_append, hsize] at hinner
      omega
    rw [← hmid, String.ofList_toList]

end References

section Exactness

/-- The references whose slug starts at the offset or later, in order. -/
structure FoundFrom (body : List Char) (n : ℕ) (hits : List (List Char × String)) : Prop where
  sorted : hits.Pairwise fun a b => size a.1 < size b.1
  mem_iff : ∀ before slug, (before, slug) ∈ hits ↔ IsReference body before slug ∧ n ≤ size before

def Aligned (body : List Char) (i : ℕ) : Prop :=
  (bytes body)[i]? = some openByte → Even (runBefore (bytes body) i)

variable {body : List Char} {i j n m : ℕ} {hits : List (List Char × String)}

/-- No reference starts between the two offsets. -/
theorem FoundFrom.skip (h : FoundFrom body n hits) (hle : m ≤ n)
    (hnone : ∀ before slug, IsReference body before slug → m ≤ size before → n ≤ size before) :
    FoundFrom body m hits where
  sorted := h.sorted
  mem_iff before slug := by
    rw [h.mem_iff]
    exact ⟨fun hfound => ⟨hfound.1, hle.trans hfound.2⟩,
      fun hfound => ⟨hfound.1, hnone before slug hfound.1 hfound.2⟩⟩

theorem aligned_step (hopens : ¬opensAt (bytes body) i) : Aligned body (i + 1) := by
  intro hnext
  by_cases hfirst : (bytes body)[i]? = some openByte
  · exact absurd ⟨hfirst, hnext⟩ hopens
  · rw [runBefore_other hfirst]
    exact Even.zero

theorem aligned_pair (haligned : Aligned body i) (hopens : opensAt (bytes body) i) :
    Aligned body (i + 2) := by
  intro _
  rw [runBefore_opens hopens]
  exact (haligned hopens.1).add even_two

theorem aligned_close (hcloses : closesAt (bytes body) j) : Aligned body (j + 2) := by
  intro _
  have hother : (bytes body)[j + 1]? ≠ some openByte := by
    rw [hcloses.2]
    decide
  rw [runBefore_other hother]
  exact Even.zero

/-- Behind a pair at an even place no slug starts after one bracket more. -/
theorem IsReference.offset_ne (haligned : Aligned body i) (hopens : opensAt (bytes body) i)
    {before : List Char} {slug : String} (h : IsReference body before slug) :
    size before ≠ i + 3 := by
  intro heq
  obtain ⟨start, hstart, hpair⟩ := h.opens
  obtain rfl : start = i + 1 := by omega
  have hrun := h.run
  rw [heq, runBefore_succ hpair.2, runBefore_opens hopens] at hrun
  have heven := h.even
  rw [← hrun] at heven
  exact Nat.not_even_iff_odd.mpr ((haligned hopens.1).add even_two).add_one heven

theorem found_of_not_opens (hopens : ¬opensAt (bytes body) i)
    (h : FoundFrom body (i + 1 + 2) hits) : FoundFrom body (i + 2) hits := by
  apply h.skip (by omega)
  intro before slug hreference hle
  obtain ⟨start, hstart, hpair⟩ := hreference.opens
  have hne : start ≠ i := fun heq => hopens (heq ▸ hpair)
  omega

theorem found_of_unclosed (haligned : Aligned body i) (hopens : opensAt (bytes body) i)
    (hclose : findClose (bytes body) (i + 2) = none) (h : FoundFrom body (i + 2 + 2) hits) :
    FoundFrom body (i + 2) hits := by
  apply h.skip (by omega)
  intro before slug hreference hle
  have hne := hreference.offset_ne haligned hopens
  have hne' : size before ≠ i + 2 := by
    intro heq
    have hfound := hreference.closed
    rw [heq, hclose] at hfound
    cases hfound
  omega

/-- Between the brackets that were just closed and what comes after them no slug starts. -/
theorem IsReference.after_close (haligned : Aligned body i) (hopens : opensAt (bytes body) i)
    (hclose : findClose (bytes body) (i + 2) = some j) {before : List Char} {slug : String}
    (h : IsReference body before slug) (hlt : i + 2 < size before) : j + 2 + 2 ≤ size before := by
  obtain ⟨hcloses, hinner⟩ := closesAt_of_findClose hclose
  obtain ⟨start, hstart, hpair⟩ := h.opens
  have hne := h.offset_ne haligned hopens
  have hbeyond : j ≤ start := by
    by_contra hbefore
    exact hinner start (by omega) (by omega) hpair
  have hfirst : start ≠ j := by
    rintro rfl
    exact closesAt_not_opensAt hcloses hpair
  have hsecond : start ≠ j + 1 := by
    rintro rfl
    have hbyte : openByte = closeByte := Option.some.inj (hpair.1.symm.trans hcloses.2)
    exact absurd hbyte (by decide)
  omega

theorem found_of_closed (haligned : Aligned body i) (hopens : opensAt (bytes body) i)
    (hclose : findClose (bytes body) (i + 2) = some j) (h : FoundFrom body (j + 2 + 2) hits) :
    ∃ mid, slice body (i + 2) j = some mid ∧
      ∃ first, FoundFrom body (i + 2) (first ++ hits) ∧
        ∀ out, (first.map Prod.snd).foldl insertNew out = addCandidate out (String.ofList mid) := by
  have hle := le_of_findClose hclose
  obtain ⟨front, mid, hsize, hslice, hreference, hunique⟩ :=
    enclosed hopens hclose (haligned hopens.1)
  have hskip : ∀ before slug, IsReference body before slug → i + 2 < size before →
      j + 2 + 2 ≤ size before := fun before slug hfound => hfound.after_close haligned hopens hclose
  refine ⟨mid, hslice, ?_⟩
  by_cases hvalid : validateSlug (String.ofList mid) = .ok ()
  · refine ⟨[(front, String.ofList mid)], ⟨?_, ?_⟩, fun out => by simp [addCandidate, hvalid]⟩
    · rw [List.singleton_append, List.pairwise_cons]
      refine ⟨fun hit hmem => ?_, h.sorted⟩
      have hfar := ((h.mem_iff hit.1 hit.2).mp hmem).2
      simp only
      omega
    · intro before slug
      rw [List.singleton_append, List.mem_cons, h.mem_iff]
      constructor
      · rintro (heq | ⟨hfound, hfar⟩)
        · obtain ⟨rfl, rfl⟩ := Prod.mk.inj heq
          exact ⟨hreference hvalid, hsize.ge⟩
        · exact ⟨hfound, by omega⟩
      · rintro ⟨hfound, hfrom⟩
        rcases Nat.eq_or_lt_of_le hfrom with heq | hlt
        · obtain ⟨rfl, rfl⟩ := hunique before slug hfound heq.symm
          exact .inl rfl
        · exact .inr ⟨hfound, hskip before slug hfound hlt⟩
  · refine ⟨[], ⟨h.sorted, fun before slug => ?_⟩, fun out => by simp [addCandidate, hvalid]⟩
    rw [List.nil_append, h.mem_iff]
    constructor
    · rintro ⟨hfound, hfar⟩
      exact ⟨hfound, by omega⟩
    · rintro ⟨hfound, hfrom⟩
      rcases Nat.eq_or_lt_of_le hfrom with heq | hlt
      · obtain ⟨-, rfl⟩ := hunique before slug hfound heq.symm
        exact absurd hfound.valid hvalid
      · exact ⟨hfound, hskip before slug hfound hlt⟩

/-- From an even place on, the scan adds the references that are still to come. -/
theorem scanRefs_found (body : List Char) (i : ℕ) (out : List String) (haligned : Aligned body i) :
    ∃ hits, FoundFrom body (i + 2) hits ∧
      scanRefs body i out = some ((hits.map Prod.snd).foldl insertNew out) := by
  fun_induction scanRefs body i out with
  | case1 i out hlt hopens j hclose hslice =>
      obtain ⟨front, mid, -, hmid, -⟩ := enclosed hopens hclose (haligned hopens.1)
      rw [hslice] at hmid
      cases hmid
  | case2 i out hlt hopens j hclose candidate hslice ih =>
      obtain ⟨hits, hfound, hscan⟩ := ih (aligned_close (closesAt_of_findClose hclose).1)
      obtain ⟨mid, hmid, first, hfirst, hadd⟩ := found_of_closed haligned hopens hclose hfound
      obtain rfl : candidate = mid := Option.some.inj (hslice.symm.trans hmid)
      refine ⟨first ++ hits, hfirst, ?_⟩
      rw [hscan, List.map_append, List.foldl_append, hadd]
  | case3 i out hlt hopens hclose ih =>
      obtain ⟨hits, hfound, hscan⟩ := ih (aligned_pair haligned hopens)
      exact ⟨hits, found_of_unclosed haligned hopens hclose hfound, hscan⟩
  | case4 i out hlt hopens ih =>
      obtain ⟨hits, hfound, hscan⟩ := ih (aligned_step hopens)
      exact ⟨hits, found_of_not_opens hopens hfound, hscan⟩
  | case5 i out hshort =>
      refine ⟨[], ⟨List.Pairwise.nil, fun before slug => ?_⟩, rfl⟩
      refine iff_of_false List.not_mem_nil fun h => ?_
      have hlength := h.1.length
      omega

/-- What is kept of the hits: each value once, where it was first hit. -/
structure KeepsFirst {α : Type} (hits : List (ℕ × α)) (out : List α) : Prop where
  nodup : out.Nodup
  mem_iff : ∀ a, a ∈ out ↔ ∃ n, (n, a) ∈ hits
  ordered : out.Pairwise fun a b => ∃ n, (n, a) ∈ hits ∧ ∀ m, (m, b) ∈ hits → n < m

theorem keepsFirst_foldl {α : Type} [DecidableEq α] {hits : List (ℕ × α)}
    (hsorted : hits.Pairwise fun a b => a.1 < b.1) :
    KeepsFirst hits ((hits.map Prod.snd).foldl insertNew []) := by
  induction hits using List.reverseRecOn with
  | nil => exact ⟨List.nodup_nil, by simp, List.Pairwise.nil⟩
  | append_singleton hits hit ih =>
      obtain ⟨n, a⟩ := hit
      obtain ⟨hbefore, -, hlast⟩ := List.pairwise_append.mp hsorted
      have hlater : ∀ m b, (m, b) ∈ hits → m < n := fun m b hmem =>
        hlast (m, b) hmem (n, a) (List.mem_singleton_self _)
      obtain ⟨hnodup, hmem, hordered⟩ := ih hbefore
      rw [List.map_append, List.foldl_append, List.map_cons, List.map_nil, List.foldl_cons,
        List.foldl_nil]
      generalize (hits.map Prod.snd).foldl insertNew [] = out at hnodup hmem hordered
      -- a new hit comes after all hits so far
      have hkeep : ∀ {b c : α}, (∃ k, (k, b) ∈ hits ∧ ∀ m, (m, c) ∈ hits → k < m) →
          ∃ k, (k, b) ∈ hits ++ [(n, a)] ∧ ∀ m, (m, c) ∈ hits ++ [(n, a)] → k < m := by
        rintro b c ⟨k, hk, hfirst⟩
        refine ⟨k, List.mem_append_left _ hk, fun m hm => ?_⟩
        rcases List.mem_append.mp hm with hm | hm
        · exact hfirst m hm
        · obtain ⟨rfl, rfl⟩ := Prod.mk.inj (List.mem_singleton.mp hm)
          exact hlater k b hk
      have hnew : ∀ b, (∃ m, (m, b) ∈ hits ++ [(n, a)]) ↔ b ∈ out ∨ b = a := by
        intro b
        simp only [List.mem_append, List.mem_singleton, Prod.mk.injEq, exists_or, hmem b,
          exists_eq_left]
      unfold insertNew
      split_ifs with ha
      · refine ⟨hnodup, fun b => ?_, hordered.imp hkeep⟩
        rw [hnew]
        constructor
        · exact Or.inl
        · rintro (hb | rfl)
          · exact hb
          · exact ha
      · refine ⟨?_, fun b => ?_, ?_⟩
        · rw [List.nodup_append]
          refine ⟨hnodup, List.nodup_singleton a, ?_⟩
          rintro b hb c hc rfl
          rw [List.mem_singleton] at hc
          exact ha (hc ▸ hb)
        · rw [hnew, List.mem_append, List.mem_singleton]
        · rw [List.pairwise_append]
          refine ⟨hordered.imp hkeep, List.pairwise_singleton _ _, ?_⟩
          intro b hb c hc
          obtain rfl := List.mem_singleton.mp hc
          obtain ⟨k, hk⟩ := (hmem b).mp hb
          refine ⟨k, List.mem_append_left _ hk, fun m hm => ?_⟩
          rcases List.mem_append.mp hm with hm | hm
          · exact absurd ((hmem c).mpr ⟨m, hm⟩) ha
          · obtain ⟨rfl, -⟩ := Prod.mk.inj (List.mem_singleton.mp hm)
            exact hlater k b hk

/-- The scan gives each referenced slug once, in the order of the first references. -/
theorem extractRefs_exact (body : String) :
    ∃ out, extractRefs body = some out ∧ out.Nodup ∧
      (∀ slug, slug ∈ out ↔ ∃ before, IsReference body.toList before slug) ∧
      out.Pairwise fun slug later => ∃ first, IsReference body.toList first slug ∧
        ∀ before, IsReference body.toList before later → size first < size before := by
  have haligned : Aligned body.toList 0 := fun _ => Even.zero
  obtain ⟨hits, hfound, hscan⟩ := scanRefs_found body.toList 0 [] haligned
  have hany : ∀ before slug, (before, slug) ∈ hits ↔ IsReference body.toList before slug := by
    intro before slug
    rw [hfound.mem_iff, and_iff_left_of_imp]
    intro h
    obtain ⟨start, hstart, -⟩ := h.opens
    omega
  let offsets := hits.map fun hit => (size hit.1, hit.2)
  have hoffsets : offsets.map Prod.snd = hits.map Prod.snd := by
    simp [offsets]
  have hmem : ∀ n slug, (n, slug) ∈ offsets ↔
      ∃ before, IsReference body.toList before slug ∧ size before = n := by
    intro n slug
    simp only [offsets, List.mem_map, Prod.mk.injEq, Prod.exists]
    constructor
    · rintro ⟨before, slug, hhit, rfl, rfl⟩
      exact ⟨before, (hany before slug).mp hhit, rfl⟩
    · rintro ⟨before, h, rfl⟩
      exact ⟨before, slug, (hany before slug).mpr h, rfl, rfl⟩
  have hkept : KeepsFirst offsets ((offsets.map Prod.snd).foldl insertNew []) :=
    keepsFirst_foldl (List.pairwise_map.mpr hfound.sorted)
  rw [hoffsets] at hkept
  refine ⟨_, hscan, hkept.nodup, fun slug => ?_, hkept.ordered.imp ?_⟩
  · rw [hkept.mem_iff]
    simp only [hmem]
    constructor
    · rintro ⟨n, before, h, -⟩
      exact ⟨before, h⟩
    · rintro ⟨before, h⟩
      exact ⟨_, before, h, rfl⟩
  · rintro slug later ⟨n, hn, hfirst⟩
    obtain ⟨first, h, rfl⟩ := (hmem n slug).mp hn
    exact ⟨first, h, fun before hbefore => hfirst _ ((hmem _ later).mpr ⟨before, hbefore, rfl⟩)⟩

end Exactness

end Buzz.Engram
