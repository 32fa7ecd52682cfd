import Mathlib.Data.List.Basic
import Mathlib.Order.Defs.LinearOrder
import Mathlib.Tactic

/-!
# Pages of a growing list

Rows are appended with growing keys and read newest first. A page holds rows below
a strict cursor, as many as the server likes, and the next cursor is the key of its
last row. A later page is then about the rows that were there at the first one.
-/

namespace CursorPaging

variable {α κ : Type*} [LinearOrder κ] (key : α → κ)

def Ascending (rows : List α) : Prop := rows.Pairwise fun a b => key a < key b

instance (rows : List α) : Decidable (Ascending key rows) :=
  inferInstanceAs (Decidable (rows.Pairwise fun a b => key a < key b))

def IsBelow (before : Option κ) (row : α) : Prop := ∀ c ∈ before, key row < c

instance (before : Option κ) : DecidablePred (IsBelow key before) :=
  fun row => inferInstanceAs (Decidable (∀ c ∈ before, key row < c))

/-- The rows below the cursor, newest first. -/
def below (before : Option κ) (rows : List α) : List α :=
  (rows.filter fun row => IsBelow key before row).reverse

/-- What a server may answer: no next cursor means that nothing is left. -/
structure IsPage (rows : List α) (before : Option κ) (records : List α) (next : Option κ) :
    Prop where
  initial : records <+: below key before rows
  complete : next = none → records = below key before rows
  cursor : ∀ c, next = some c → ∃ row, records.getLast? = some row ∧ key row = c

variable {key} {rows newer records : List α} {before next : Option κ}

theorem mem_below {row : α} : row ∈ below key before rows ↔ row ∈ rows ∧
    IsBelow key before row := by
  simp [below]

variable (before) in
theorem pairwise_below (h : Ascending key rows) :
    (below key before rows).Pairwise fun a b => key b < key a :=
  List.pairwise_reverse.mpr (h.filter _)

theorem IsPage.pairwise (hpage : IsPage key rows before records next) (h : Ascending key rows) :
    records.Pairwise fun a b => key b < key a :=
  (pairwise_below before h).sublist hpage.initial.sublist

/-- A page holds all rows between its two cursors and no others. -/
theorem IsPage.mem_iff (hpage : IsPage key rows before records next) (h : Ascending key rows)
    {row : α} :
    row ∈ records ↔ row ∈ rows ∧ IsBelow key before row ∧ ∀ c ∈ next, c ≤ key row := by
  obtain ⟨rest, hrest⟩ := hpage.initial
  have hdesc := pairwise_below before h
  rw [← hrest] at hdesc
  obtain ⟨hrecords, -, hcross⟩ := List.pairwise_append.mp hdesc
  rw [← and_assoc, ← mem_below, ← hrest, List.mem_append]
  cases hnext : next with
  | none =>
      have hnil : rest = [] := by
        have heq := hpage.complete hnext
        rw [← hrest] at heq
        simpa using heq
      simp [hnil]
  | some c =>
      obtain ⟨last, hlast, rfl⟩ := hpage.cursor c hnext
      obtain ⟨front, rfl⟩ := List.getLast?_eq_some_iff.mp hlast
      simp only [Option.mem_def, Option.some.injEq, forall_eq']
      constructor
      · intro hmem
        refine ⟨.inl hmem, ?_⟩
        rcases List.mem_append.mp hmem with hfront | hsame
        · exact ((List.pairwise_append.mp hrecords).2.2 row hfront last (by simp)).le
        · rw [List.mem_singleton.mp hsame]
      · rintro ⟨hmem | hmem, hle⟩
        · exact hmem
        · exact absurd (hcross last (by simp) row hmem) (not_lt.mpr hle)

/-- The first row of the first page is the newest there is. -/
theorem IsPage.le_newest (hpage : IsPage key rows none records next) (h : Ascending key rows)
    {newest row : α} (hnewest : records.head? = some newest) (hrow : row ∈ rows) :
    key row ≤ key newest := by
  obtain ⟨rest, hrest⟩ := hpage.initial
  obtain ⟨tail, rfl⟩ := List.head?_eq_some_iff.mp hnewest
  have hdesc := pairwise_below none h
  have hmem : row ∈ below key none rows := mem_below.mpr ⟨hrow, by simp [IsBelow]⟩
  rw [← hrest, List.cons_append] at hdesc hmem
  rcases List.mem_cons.mp hmem with rfl | hmem
  · exact le_rfl
  · exact ((List.pairwise_cons.mp hdesc).1 row hmem).le

/-- A page that is empty at the start comes from an empty list. -/
theorem IsPage.rows_nil (hpage : IsPage key rows none [] next) : rows = [] := by
  have hnone : next = none := by
    cases hnext : next with
    | none => rfl
    | some c =>
        obtain ⟨row, hlast, -⟩ := hpage.cursor c hnext
        cases hlast
  have hbelow := hpage.complete hnone
  simpa [below, IsBelow] using hbelow.symm

/-- Rows that came later are above a cursor taken from an earlier row. -/
theorem mem_iff_of_appended (h : Ascending key (rows ++ newer)) {row mark : α} (hmark : mark ∈ rows)
    (hle : key row ≤ key mark) : row ∈ rows ++ newer ↔ row ∈ rows := by
  rw [List.mem_append, or_iff_left]
  intro hmem
  exact absurd ((List.pairwise_append.mp h).2.2 mark hmark row hmem) (not_lt.mpr hle)

end CursorPaging
