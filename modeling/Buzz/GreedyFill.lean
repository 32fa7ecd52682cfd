import Mathlib.Algebra.BigOperators.Group.List.Basic
import Mathlib.Tactic

/-!
# Filling a budget greedily

Items come one after the other and each is taken if it still fits, also after an
earlier one was passed over. The taken items are the first ones exactly when they
fit together and nothing after them fits in what they leave.
-/

namespace Buzz.GreedyFill

variable {α : Type*} (size : α → ℕ) (budget : ℕ)

def total (items : List α) : ℕ :=
  (items.map size).sum

/-- What is taken when `used` of the budget is gone. -/
def taken (used : ℕ) : List α → List α
  | [] => []
  | item :: rest =>
      if used + size item ≤ budget then item :: taken (used + size item) rest
      else taken used rest

variable {size budget} {used : ℕ} {items : List α}

@[simp]
theorem total_nil : total size [] = 0 := rfl

@[simp]
theorem total_cons (item : α) (rest : List α) :
    total size (item :: rest) = size item + total size rest := by
  simp [total]

@[simp]
theorem total_append (first rest : List α) :
    total size (first ++ rest) = total size first + total size rest := by
  simp [total]

@[simp]
theorem total_reverse (items : List α) : total size items.reverse = total size items := by
  induction items with
  | nil => rfl
  | cons item rest ih =>
      rw [List.reverse_cons, total_append, ih, total_cons, total_cons, total_nil]
      omega

/-- Every taken item fitted when it came. -/
theorem size_le_of_mem_taken {item : α} (h : item ∈ taken size budget used items) :
    used + size item ≤ budget := by
  induction items generalizing used with
  | nil => cases h
  | cons first rest ih =>
      unfold taken at h
      split_ifs at h with hfits
      · rcases List.mem_cons.mp h with rfl | hrest
        · exact hfits
        · have hle := ih hrest
          omega
      · exact ih h

theorem total_map {β : Type*} (f : β → α) (items : List β) :
    total size (items.map f) = total (fun item => size (f item)) items := by
  simp only [total, List.map_map]
  rfl

theorem taken_map {β : Type*} (f : β → α) (used : ℕ) (items : List β) :
    taken size budget used (items.map f) =
      (taken (fun item => size (f item)) budget used items).map f := by
  induction items generalizing used with
  | nil => rfl
  | cons item rest ih =>
      rw [List.map_cons, taken, taken]
      split_ifs
      · rw [ih, List.map_cons]
      · exact ih used

theorem taken_eq_nil_iff : taken size budget used items = [] ↔
    ∀ item ∈ items, budget < used + size item := by
  induction items generalizing used with
  | nil => simp [taken]
  | cons first rest ih =>
      unfold taken
      by_cases hfits : used + size first ≤ budget
      · rw [if_pos hfits]
        constructor
        · intro hnil
          cases hnil
        · intro hall
          have hnot := hall first List.mem_cons_self
          omega
      · rw [if_neg hfits, ih, List.forall_mem_cons]
        exact ⟨fun hrest => ⟨Nat.lt_of_not_le hfits, hrest⟩, fun hall => hall.2⟩

/-- The first items are taken and the rest is passed over. -/
theorem taken_append_eq_iff {first rest : List α} (hused : used ≤ budget) :
    taken size budget used (first ++ rest) = first ↔
      used + total size first ≤ budget ∧
        ∀ item ∈ rest, budget < used + total size first + size item := by
  induction first generalizing used with
  | nil =>
      rw [List.nil_append, taken_eq_nil_iff, total_nil, Nat.add_zero]
      exact ⟨fun hrest => ⟨hused, hrest⟩, fun h => h.2⟩
  | cons item first ih =>
      rw [List.cons_append, taken, total_cons, ← Nat.add_assoc]
      by_cases hfits : used + size item ≤ budget
      · rw [if_pos hfits, List.cons.injEq, ih hfits]
        exact and_iff_right rfl
      · rw [if_neg hfits]
        constructor
        · intro htaken
          have hmem : item ∈ taken size budget used (first ++ rest) := by
            rw [htaken]
            exact List.mem_cons_self
          exact absurd (size_le_of_mem_taken hmem) hfits
        · rintro ⟨hsum, -⟩
          omega

end Buzz.GreedyFill
