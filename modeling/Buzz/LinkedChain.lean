import Mathlib.Data.List.Basic
import Mathlib.Tactic

/-!
# Linked chains

Every entry of a chain carries a number, the mark it follows and the mark it leaves.
A list continues a chain when its numbers count on and each entry follows the mark
of the one before it.
-/

namespace LinkedChain

variable {α σ : Type*} (number : α → Option ℕ) (before after : α → Option σ)

/-- The entries continue a chain that stands at `head` and whose next number is `n`. -/
def LinkedFrom : ℕ → σ → List α → Prop
  | _, _, [] => True
  | n, head, x :: xs =>
      number x = some n ∧ before x = some head ∧
        ∃ next, after x = some next ∧ LinkedFrom (n + 1) next xs

/-- Where the chain stands before the entry at a position. -/
def headBefore (head : σ) (xs : List α) : ℕ → Option σ
  | 0 => some head
  | i + 1 => xs[i]?.bind after

variable {number before after}

theorem headBefore_cons {head next : σ} {x : α} {xs : List α} (h : after x = some next) (i : ℕ) :
    headBefore after head (x :: xs) (i + 1) = headBefore after next xs i := by
  cases i with
  | zero => simp [headBefore, h]
  | succ i => simp [headBefore]

/-- The same position by position: nothing is linked to an entry further back. -/
theorem linkedFrom_iff {n : ℕ} {head : σ} {xs : List α} :
    LinkedFrom number before after n head xs ↔
      (∀ x ∈ xs, (after x).isSome) ∧
      (∀ i (h : i < xs.length), number xs[i] = some (n + i)) ∧
      ∀ i (h : i < xs.length), before xs[i] = headBefore after head xs i := by
  induction xs generalizing n head with
  | nil => simp [LinkedFrom]
  | cons x xs ih =>
      constructor
      · rintro ⟨hnumber, hbefore, next, hafter, hrest⟩
        obtain ⟨hmarks, hnumbers, hlinks⟩ := ih.mp hrest
        refine ⟨?_, ?_, ?_⟩
        · intro y hy
          rcases List.mem_cons.mp hy with rfl | hy
          · simp [hafter]
          · exact hmarks y hy
        · intro i hi
          cases i with
          | zero => simpa using hnumber
          | succ i =>
              have hi' : i < xs.length := by simpa using hi
              rw [List.getElem_cons_succ, hnumbers i hi']
              congr 1
              omega
        · intro i hi
          cases i with
          | zero => simpa [headBefore] using hbefore
          | succ i =>
              have hi' : i < xs.length := by simpa using hi
              rw [List.getElem_cons_succ, hlinks i hi', headBefore_cons hafter]
      · rintro ⟨hmarks, hnumbers, hlinks⟩
        obtain ⟨next, hafter⟩ := Option.isSome_iff_exists.mp (hmarks x (by simp))
        have hlen : 0 < (x :: xs).length := by simp
        refine ⟨hnumbers 0 hlen, hlinks 0 hlen, next, hafter, ih.mpr ⟨?_, ?_, ?_⟩⟩
        · exact fun y hy => hmarks y (List.mem_cons_of_mem x hy)
        · intro i hi
          have h := hnumbers (i + 1) (by simpa using hi)
          rw [List.getElem_cons_succ] at h
          rw [h]
          congr 1
          omega
        · intro i hi
          have h := hlinks (i + 1) (by simpa using hi)
          rwa [List.getElem_cons_succ, headBefore_cons hafter] at h

end LinkedChain
