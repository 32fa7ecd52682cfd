import Buzz.CompanyCommands

/-!
# Identifiers of companies

An identifier is minted from the slug of a display name and the time of its
reservation. Three normalisers read it: the key of its directory, the time it
was reserved and the fragment of its topics.
-/

namespace Buzz.Company

section Directories

/-- The components of the directory of an instance below the data directory. -/
def companyInstanceDir (dataDir : Option (List String)) (instanceId : String) :
    Except String (List String) :=
  match dataDir.map (· ++ ["x0x-company-ttt"]) with
  | some root => .ok (root ++ [instanceKey instanceId])
  | none => .error "could not resolve Company instance data directory"

theorem companyInstanceDir_inj {dataDir : List String} {a b : String} :
    companyInstanceDir (some dataDir) a = companyInstanceDir (some dataDir) b ↔
      instanceKey a = instanceKey b := by
  simp [companyInstanceDir]

end Directories

section Slug

/-- What a slug is made of. -/
def IsSlugChar (c : Char) : Prop := c.isLower = true ∨ c.isDigit = true ∨ c = '-' ∨ c = '_'

theorem toLower_ne_of_isUpper {c : Char} (h : c.isUpper = true) : c.toLower ≠ c := by
  have hup : 'A'.val ≤ c.val ∧ c.val ≤ 'Z'.val := by
    simpa only [Char.isUpper, Bool.and_eq_true, decide_eq_true_eq] using h
  intro hsame
  have hval : c.toLower.val = c.val + 32 := by
    simp only [Char.toLower]
    rw [dif_pos hup]
    rfl
  rw [hsame] at hval
  grind

theorem Tidy.isSlugChar {cs : List Char} (h : Tidy cs) {c : Char} (hc : c ∈ cs) :
    IsSlugChar c := by
  rcases h.chars c hc with rfl | ⟨hkey, hlower⟩
  · exact .inr (.inr (.inl rfl))
  · have hnot : ¬c.isUpper = true := fun hup => toLower_ne_of_isUpper hup hlower
    simp only [isKeyChar, Char.isAlphanum, Char.isAlpha, Bool.or_eq_true, beq_iff_eq] at hkey
    rcases hkey with ((hup | hlow) | hdigit) | hunder
    · exact absurd hup hnot
    · exact .inl hlow
    · exact .inr (.inl hdigit)
    · exact .inr (.inr (.inr hunder))

theorem isSlugChar_instanceSlug {text : String} {c : Char} (h : c ∈ (instanceSlug text).toList) :
    IsSlugChar c :=
  (toList_instanceSlug text).1.isSlugChar h

theorem length_instanceTopicFragment (sha256Hex : String → String) (instanceId : String) :
    (instanceTopicFragment sha256Hex instanceId).length ≤ 48 := by
  have hdisplay : ((instanceSlug instanceId).toList.take 39).length ≤ 39 := List.length_take_le _ _
  have hsuffix : ((sha256Hex instanceId).toList.take 8).length ≤ 8 := List.length_take_le _ _
  have hlength : (instanceTopicFragment sha256Hex instanceId).length =
      ((instanceSlug instanceId).toList.take 39).length + 1 +
        ((sha256Hex instanceId).toList.take 8).length := by
    simp [instanceTopicFragment, instanceHashSuffix, ← String.length_toList, Nat.add_assoc,
      Nat.add_comm 1]
  omega

end Slug

section Epoch

theorem not_mem_digits (n : ℕ) : '-' ∉ Nat.toDigits 10 n := by
  intro hmem
  simpa [isKeyChar_dash] using (isKeyChar_of_mem_digits hmem).1

theorem takeWhile_reverse_append {cs ds : List Char} {sep : Char} (h : sep ∉ ds) :
    ((cs ++ sep :: ds).reverse.takeWhile (· ≠ sep)).reverse = ds := by
  have hall : ∀ c ∈ ds.reverse, (decide (c ≠ sep)) = true := by
    intro c hc
    have hne : c ≠ sep := fun he => h (he ▸ List.mem_reverse.mp hc)
    simpa using hne
  have hsplit : (cs ++ sep :: ds).reverse = ds.reverse ++ (sep :: cs.reverse) := by simp
  rw [hsplit, List.takeWhile_append_of_pos hall]
  simp

theorem parseU128_digits {n : ℕ} (h : n < 2 ^ 128) : parseU128 (Nat.toDigits 10 n) = some n := by
  have hne : Nat.toDigits 10 n ≠ [] := Nat.toDigits_ne_nil
  have hdigits : (Nat.toDigits 10 n).all Char.isDigit = true := by
    rw [List.all_eq_true]
    intro c hc
    exact Nat.isDigit_of_mem_toDigits (by decide) (by decide) hc
  have hplus : (Nat.toDigits 10 n).head? ≠ some '+' := by
    intro hhead
    have hplus := List.all_eq_true.mp hdigits '+' (List.mem_of_mem_head? hhead)
    exact absurd hplus (by decide)
  simp only [parseU128, if_neg hplus, Nat.ofDigitChars_ten_toDigits]
  rw [if_pos ⟨hne, hdigits, h⟩]

theorem instanceEpoch_mintedId (displayName : String) {createdAt : ℕ} (h : createdAt < 2 ^ 128) :
    instanceEpoch (mintedId displayName createdAt) = some createdAt := by
  have hmem : '-' ∈ (mintedId displayName createdAt).toList := by simp [toList_mintedId]
  rw [instanceEpoch, if_pos hmem, toList_mintedId, takeWhile_reverse_append (not_mem_digits _)]
  exact parseU128_digits h

end Epoch

/-- The time is one that 128 bits hold, as the clock of the source returns it. -/
theorem minted_ids_are_keys (sha256Hex : String → String) (displayName : String)
    (createdAt : Fin (2 ^ 128)) :
    instanceKey (mintedId displayName createdAt) = mintedId displayName createdAt ∧
      instanceEpoch (mintedId displayName createdAt) = some createdAt.val ∧
      (∀ c ∈ (instanceSlug displayName).toList, IsSlugChar c) ∧
      (∀ c ∈ (instanceSlug (mintedId displayName createdAt)).toList, IsSlugChar c) ∧
      (instanceTopicFragment sha256Hex (mintedId displayName createdAt)).length ≤ 48 ∧
      ∀ (dataDir : List String) (otherName : String) (otherAt : Fin (2 ^ 128)),
        companyInstanceDir (some dataDir) (mintedId otherName otherAt) =
            companyInstanceDir (some dataDir) (mintedId displayName createdAt) ↔
          mintedId otherName otherAt = mintedId displayName createdAt := by
  refine ⟨instanceKey_mintedId _ _, instanceEpoch_mintedId _ createdAt.isLt,
    fun _ => isSlugChar_instanceSlug, fun _ => isSlugChar_instanceSlug,
    length_instanceTopicFragment _ _, ?_⟩
  intro dataDir otherName otherAt
  rw [companyInstanceDir_inj, instanceKey_mintedId, instanceKey_mintedId]

end Buzz.Company
