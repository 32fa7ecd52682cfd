import Mathlib.Logic.Relation
import Mathlib.Data.List.Nodup
import Mathlib.Data.List.Chain
import Mathlib.Tactic

/-!
# Recursion along a relation

A call makes a call for every successor of its place. Where the successors are finitely many it
returns exactly when no place on its way leads back to itself.
-/

namespace RelationWalk

variable {α : Type*} {r : α → α → Prop} {a b : α} {n m : ℕ}

/-- The calls from a place are at most `n` deep. -/
def Halts (r : α → α → Prop) : ℕ → α → Prop
  | 0, _ => False
  | n + 1, a => ∀ b, r a b → Halts r n b

theorem Halts.succ (n : ℕ) : ∀ a, Halts r n a → Halts r (n + 1) a := by
  induction n with
  | zero => exact fun a h => h.elim
  | succ n ih => exact fun a h b hab => ih b (h b hab)

theorem Halts.step (h : Halts r n a) (hab : r a b) : Halts r n b := by
  cases n with
  | zero => exact h.elim
  | succ n => exact (h b hab).succ

theorem Halts.reaches (h : Halts r n a) (hab : Relation.ReflTransGen r a b) : Halts r n b := by
  induction hab with
  | refl => exact h
  | tail _ hbc ih => exact ih.step hbc

theorem not_halts_of_cycle (n : ℕ) : ∀ a, Relation.TransGen r a a → ¬Halts r n a := by
  induction n with
  | zero => exact fun a _ h => h
  | succ n ih =>
      intro a hcycle h
      obtain ⟨b, hab, hba⟩ := Relation.TransGen.head'_iff.mp hcycle
      exact ih b (Relation.TransGen.tail' hba hab) (h b hab)

/-- Calls that are deeper make a path. -/
theorem exists_path (n : ℕ) : ∀ a, ¬Halts r n a →
    ∃ path : List α, path.length = n ∧ List.IsChain r (a :: path) := by
  induction n with
  | zero => exact fun a _ => ⟨[], rfl, List.isChain_singleton a⟩
  | succ n ih =>
      intro a h
      simp only [Halts, not_forall] at h
      obtain ⟨b, hab, hb⟩ := h
      obtain ⟨path, hlength, hpath⟩ := ih b hb
      exact ⟨b :: path, by simp [hlength], List.isChain_cons_cons.mpr ⟨hab, hpath⟩⟩

theorem exists_cycle_of_path {places path : List α} (hplaces : ∀ a b, r a b → b ∈ places)
    (hpath : List.IsChain r (a :: path)) (hlength : places.length < path.length) :
    ∃ b, Relation.ReflTransGen r a b ∧ Relation.TransGen r b b := by
  have hpairs : List.Pairwise (Relation.TransGen r) (a :: path) :=
    (hpath.imp fun _ _ hab => Relation.TransGen.single hab).pairwise
  obtain ⟨hreach, hrest⟩ := List.pairwise_cons.mp hpairs
  have hsub : path ⊆ places := by
    intro b hb
    obtain ⟨c, -, hcb⟩ := Relation.TransGen.tail'_iff.mp (hreach b hb)
    exact hplaces c b hcb
  have hdup : ¬path.Nodup := by
    intro hnodup
    have hle := (hnodup.subperm hsub).length_le
    omega
  obtain ⟨b, hb⟩ := List.exists_duplicate_iff_not_nodup.mpr hdup
  have hpair := hrest.sublist (List.duplicate_iff_sublist.mp hb)
  rw [List.pairwise_pair] at hpair
  exact ⟨b, (hreach b hb.mem).to_reflTransGen, hpair⟩

/-- The calls end if and only if none of their places leads back to itself. -/
theorem halts_iff {places : List α} (hplaces : ∀ a b, r a b → b ∈ places) :
    (∃ n, Halts r n a) ↔
      ∀ b, Relation.ReflTransGen r a b → ¬Relation.TransGen r b b := by
  constructor
  · rintro ⟨n, h⟩ b hab hcycle
    exact not_halts_of_cycle n b hcycle (h.reaches hab)
  · intro hfree
    by_contra hnever
    push Not at hnever
    obtain ⟨path, hlength, hpath⟩ := exists_path _ a (hnever (places.length + 1))
    obtain ⟨b, hab, hcycle⟩ := exists_cycle_of_path hplaces hpath (by omega)
    exact hfree b hab hcycle

end RelationWalk
