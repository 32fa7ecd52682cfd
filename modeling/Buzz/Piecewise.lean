import Mathlib

/-!
# Maps given by pieces in a row

A list of pieces, each of which answers some of the arguments, gives a map: the first piece that
answers gives the value, and a default stands for the rest. If the pieces lie one above the other,
the map is monotone and its values lie between the bottom of the first piece and the default.
-/

namespace Piecewise

section Pieces

variable {σ α β : Type} {answer : σ → α → Option β} {pieces before after : List σ} {piece : σ}
  {tail value : β} {x y : α}

/-- The value of the first piece that answers. -/
def first (answer : σ → α → Option β) (pieces : List σ) (tail : β) (x : α) : β :=
  (pieces.findSome? fun piece => answer piece x).getD tail

theorem first_nil : first answer [] tail x = tail := rfl

theorem first_cons_of_some (h : answer piece x = some value) :
    first answer (piece :: pieces) tail x = value := by
  rw [first, List.findSome?_cons, h]
  rfl

theorem first_cons_of_none (h : answer piece x = none) :
    first answer (piece :: pieces) tail x = first answer pieces tail x := by
  rw [first, List.findSome?_cons, h]
  rfl

theorem first_append_of_none (h : ∀ piece ∈ before, answer piece x = none) :
    first answer (before ++ after) tail x = first answer after tail x := by
  rw [first, List.findSome?_append, List.findSome?_eq_none_iff.mpr h]
  rfl

theorem first_of_none (h : ∀ piece ∈ pieces, answer piece x = none) :
    first answer pieces tail x = tail := by
  rw [first, List.findSome?_eq_none_iff.mpr h]
  rfl

/-- The pieces before one that answers may answer as well, if they agree with it. -/
theorem first_of_agree (hbefore : ∀ other ∈ before,
      answer other x = none ∨ answer other x = some value)
    (hpiece : answer piece x = some value) :
    first answer (before ++ piece :: after) tail x = value := by
  induction before with
  | nil => exact first_cons_of_some hpiece
  | cons other before ih =>
      obtain ⟨hother, hbefore⟩ := List.forall_mem_cons.mp hbefore
      rcases hother with hnone | hsome
      · rw [List.cons_append, first_cons_of_none hnone]
        exact ih hbefore
      · exact first_cons_of_some hsome

theorem first_append_of_some (tail' : β) (hpiece : piece ∈ before)
    (h : answer piece x = some value) :
    first answer (before ++ after) tail x = first answer before tail' x := by
  have hsome : (before.findSome? fun piece => answer piece x).isSome := by
    rw [List.findSome?_isSome_iff]
    exact ⟨piece, hpiece, by rw [h]; rfl⟩
  obtain ⟨found, hfound⟩ := Option.isSome_iff_exists.mp hsome
  rw [first, first, List.findSome?_append, hfound]
  rfl

/-- Either a piece answers and none before it does, or the value is the default. -/
theorem first_cases (answer : σ → α → Option β) (pieces : List σ) (tail : β) (x : α) :
    (∃ before piece after value, pieces = before ++ piece :: after ∧
        (∀ other ∈ before, answer other x = none) ∧ answer piece x = some value ∧
        first answer pieces tail x = value) ∨
      ((∀ piece ∈ pieces, answer piece x = none) ∧ first answer pieces tail x = tail) := by
  induction pieces with
  | nil => exact Or.inr ⟨fun _ h => absurd h List.not_mem_nil, rfl⟩
  | cons piece pieces ih =>
      cases hanswer : answer piece x with
      | some value =>
          exact Or.inl ⟨[], piece, pieces, value, rfl, fun _ h => absurd h List.not_mem_nil,
            hanswer, first_cons_of_some hanswer⟩
      | none =>
          rw [first_cons_of_none hanswer]
          rcases ih with ⟨before, found, after, value, rfl, hbefore, hfound, hfirst⟩
            | ⟨hnone, htail⟩
          · exact Or.inl ⟨piece :: before, found, after, value, rfl,
              List.forall_mem_cons.mpr ⟨hanswer, hbefore⟩, hfound, hfirst⟩
          · exact Or.inr ⟨List.forall_mem_cons.mpr ⟨hanswer, hnone⟩, htail⟩

end Pieces

section Order

variable {σ α β : Type} [LinearOrder α] [LinearOrder β] {answer : σ → α → Option β}
  {reached : σ → α → Prop} {low high : σ → β} {pieces : List σ} {piece : σ} {tail : β} {x y : α}

/-- A piece answers the arguments up to some bound, in order and between its low and its high
value. The low value is promised of the arguments that reach it. -/
structure Steady (answer : σ → α → Option β) (reached : σ → α → Prop) (low high : σ → β)
    (piece : σ) : Prop where
  up : ∀ x y, x ≤ y → answer piece x = none → answer piece y = none
  mono : ∀ x y u v, x ≤ y → answer piece x = some u → answer piece y = some v → u ≤ v
  reached_up : ∀ x y, x ≤ y → reached piece x → reached piece y
  low_le : ∀ x u, reached piece x → answer piece x = some u → low piece ≤ u
  le_high : ∀ x u, answer piece x = some u → u ≤ high piece
  low_le_high : low piece ≤ high piece

/-- What a piece does not answer reaches the next one, which lies above it. -/
structure Linked (answer : σ → α → Option β) (reached : σ → α → Prop) (low high : σ → β)
    (piece next : σ) : Prop where
  reaches : ∀ x, answer piece x = none → reached next x
  high_le : high piece ≤ low next

/-- The pieces lie one above the other. -/
structure Stacked (answer : σ → α → Option β) (reached : σ → α → Prop) (low high : σ → β)
    (pieces : List σ) : Prop where
  steady : ∀ piece ∈ pieces, Steady answer reached low high piece
  linked : pieces.IsChain (Linked answer reached low high)

theorem Stacked.of_cons (h : Stacked answer reached low high (piece :: pieces)) :
    Stacked answer reached low high pieces :=
  ⟨fun other hother => h.steady other (List.mem_cons_of_mem _ hother), h.linked.tail⟩

theorem Stacked.reaches {before after : List σ}
    (h : Stacked answer reached low high (before ++ piece :: after))
    (hhead : ∀ other, (before ++ piece :: after).head? = some other → reached other x)
    (hbefore : ∀ other ∈ before, answer other x = none) : reached piece x := by
  induction before with
  | nil => exact hhead piece rfl
  | cons other before ih =>
      obtain ⟨hother, hbefore⟩ := List.forall_mem_cons.mp hbefore
      refine ih h.of_cons ?_ hbefore
      intro next hnext
      have hlinked := (List.isChain_cons.mp h.linked).1 next hnext
      exact hlinked.reaches x hother

theorem first_le (h : ∀ piece ∈ pieces, Steady answer reached low high piece)
    (htail : ∀ piece ∈ pieces, high piece ≤ tail) : first answer pieces tail x ≤ tail := by
  rcases first_cases answer pieces tail x with
    ⟨before, piece, after, value, rfl, -, hpiece, hfirst⟩ | ⟨-, hfirst⟩
  · have hmem : piece ∈ before ++ piece :: after := List.mem_append_right _ List.mem_cons_self
    rw [hfirst]
    exact ((h piece hmem).le_high x value hpiece).trans (htail piece hmem)
  · exact hfirst.le

theorem low_le_first (h : Stacked answer reached low high (piece :: pieces))
    (htail : ∀ other ∈ piece :: pieces, high other ≤ tail) (hx : reached piece x) :
    low piece ≤ first answer (piece :: pieces) tail x := by
  induction pieces generalizing piece with
  | nil =>
      have hsteady := h.steady piece List.mem_cons_self
      cases hanswer : answer piece x with
      | some value =>
          rw [first_cons_of_some hanswer]
          exact hsteady.low_le x value hx hanswer
      | none =>
          rw [first_cons_of_none hanswer]
          exact hsteady.low_le_high.trans (htail piece List.mem_cons_self)
  | cons next pieces ih =>
      have hsteady := h.steady piece List.mem_cons_self
      have hlinked := (List.isChain_cons_cons.mp h.linked).1
      cases hanswer : answer piece x with
      | some value =>
          rw [first_cons_of_some hanswer]
          exact hsteady.low_le x value hx hanswer
      | none =>
          rw [first_cons_of_none hanswer]
          exact (hsteady.low_le_high.trans hlinked.high_le).trans
            (ih h.of_cons (List.forall_mem_cons.mp htail).2 (hlinked.reaches x hanswer))

/-- The map of pieces that lie one above the other is monotone. -/
theorem first_mono (h : Stacked answer reached low high pieces)
    (htail : ∀ piece ∈ pieces, high piece ≤ tail)
    (hx : ∀ piece, pieces.head? = some piece → reached piece x) (hxy : x ≤ y) :
    first answer pieces tail x ≤ first answer pieces tail y := by
  induction pieces with
  | nil => exact le_rfl
  | cons piece pieces ih =>
      have hsteady := h.steady piece List.mem_cons_self
      cases hanswer : answer piece y with
      | some v =>
          cases hlower : answer piece x with
          | some u =>
              rw [first_cons_of_some hanswer, first_cons_of_some hlower]
              exact hsteady.mono x y u v hxy hlower hanswer
          | none =>
              rw [hsteady.up x y hxy hlower] at hanswer
              cases hanswer
      | none =>
          rw [first_cons_of_none hanswer]
          have hrest := (List.forall_mem_cons.mp htail).2
          cases hlower : answer piece x with
          | some u =>
              rw [first_cons_of_some hlower]
              have hu := hsteady.le_high x u hlower
              cases pieces with
              | nil => exact hu.trans (htail piece List.mem_cons_self)
              | cons next pieces =>
                  have hlinked := (List.isChain_cons_cons.mp h.linked).1
                  exact (hu.trans hlinked.high_le).trans
                    (low_le_first h.of_cons hrest (hlinked.reaches y hanswer))
          | none =>
              rw [first_cons_of_none hlower]
              refine ih h.of_cons hrest ?_
              intro next hnext
              cases pieces with
              | nil => cases hnext
              | cons other pieces =>
                  obtain rfl := Option.some.inj hnext
                  exact ((List.isChain_cons_cons.mp h.linked).1).reaches x hlower

end Order

end Piecewise
