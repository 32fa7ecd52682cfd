import Mathlib.Data.List.Basic
import Mathlib.Tactic

/-!
# Tilings by records

A text that is cut from front to back into records, each with its own encoding, up
to an end. A state runs along and says which records may come next. A loop over an
index that looks at one record at a time accepts exactly the texts with a tiling,
and where no record is a beginning of another there is at most one.
-/

namespace ByteTiling

section Ranges

variable {α : Type*} {bytes : List α} {i n k : ℕ}

/-- `bytes[i..i + n]`, if it is in range. -/
def range (bytes : List α) (i n : ℕ) : Option (List α) :=
  if i + n ≤ bytes.length then some ((bytes.drop i).take n) else none

def beNat (bytes : List UInt8) : ℕ :=
  bytes.foldl (fun n byte => 256 * n + byte.toNat) 0

def leNat (bytes : List UInt8) : ℕ :=
  bytes.foldr (fun byte n => byte.toNat + 256 * n) 0

theorem range_eq_some {piece : List α} :
    range bytes i n = some piece ↔ piece.length = n ∧ ∃ rest, bytes.drop i = piece ++ rest ∧
      i ≤ bytes.length := by
  unfold range
  split_ifs with h
  · rw [Option.some.injEq]
    constructor
    · rintro rfl
      refine ⟨by rw [List.length_take, List.length_drop]; omega, (bytes.drop i).drop n,
        ?_, by omega⟩
      rw [List.take_append_drop]
    · rintro ⟨rfl, rest, heq, -⟩
      rw [heq, List.take_left]
  · refine iff_of_false (fun h => nomatch h) ?_
    rintro ⟨rfl, rest, heq, hi⟩
    have hlength := congrArg List.length heq
    rw [List.length_drop, List.length_append] at hlength
    omega

theorem beNat_lt (bytes : List UInt8) : beNat bytes < 256 ^ bytes.length := by
  induction bytes using List.reverseRecOn with
  | nil => simp [beNat]
  | append_singleton bytes byte ih =>
      have hbyte : byte.toNat < 256 := byte.toNat_lt
      rw [beNat, List.foldl_append, List.foldl_cons, List.foldl_nil, ← beNat, List.length_append,
        List.length_singleton, pow_succ]
      omega

end Ranges

section Tilings

variable {σ α β : Type*} (encode : α → List β) (step : σ → α → σ)
variable (P : σ → α → List β → Prop) (Stop : σ → List β → Prop)

/-- `P` says which record may come, with what follows it; `Stop` says what may be left. -/
inductive Tiled : σ → List α → List β → Prop where
  | stop {s : σ} {rest : List β} : Stop s rest → Tiled s [] rest
  | record {s : σ} {a : α} {records : List α} {rest : List β} :
      P s a rest → Tiled (step s a) records rest → Tiled s (a :: records) (encode a ++ rest)

variable {encode step P Stop} {s : σ} {records : List α} {text : List β}

/-- The tiled text is its records one after the other, and an end. -/
theorem Tiled.text_eq (h : Tiled encode step P Stop s records text) :
    ∃ rest, text = records.flatMap encode ++ rest ∧ Stop (records.foldl step s) rest := by
  induction h with
  | stop hstop => exact ⟨_, rfl, hstop⟩
  | record hrecord _ ih =>
      obtain ⟨rest, rfl, hstop⟩ := ih
      exact ⟨rest, by rw [List.flatMap_cons, List.append_assoc], hstop⟩

theorem Tiled.mono {P' : σ → α → List β → Prop} (h : Tiled encode step P Stop s records text)
    (hmono : ∀ s, ∀ a ∈ records, ∀ rest, P s a rest → P' s a rest) :
    Tiled encode step P' Stop s records text := by
  induction h with
  | stop hstop => exact .stop hstop
  | record hrecord _ ih =>
      exact .record (hmono _ _ (List.mem_cons_self ..) _ hrecord)
        (ih fun s a ha => hmono s a (List.mem_cons_of_mem _ ha))

/-- What may come of each record, whatever comes before it. -/
theorem Tiled.forall_mem {Q : α → Prop} (h : Tiled encode step P Stop s records text)
    (hQ : ∀ s a rest, P s a rest → Q a) : ∀ a ∈ records, Q a := by
  induction h with
  | stop => simp
  | record hrecord _ ih => exact List.forall_mem_cons.mpr ⟨hQ _ _ _ hrecord, ih⟩

/-- No record is a beginning of another one, or of an end. -/
structure Unambiguous (encode : α → List β) (P : σ → α → List β → Prop)
    (Stop : σ → List β → Prop) : Prop where
  record : ∀ {s a a' rest rest'}, P s a rest → P s a' rest' →
    encode a ++ rest = encode a' ++ rest' → a = a'
  stop : ∀ {s a rest text}, P s a rest → Stop s text → text ≠ encode a ++ rest

theorem Tiled.unique (hP : Unambiguous encode P Stop)
    (h : Tiled encode step P Stop s records text) :
    ∀ {others}, Tiled encode step P Stop s others text → records = others := by
  induction h with
  | stop hstop =>
      intro others h'
      cases h' with
      | stop => rfl
      | record hrecord => exact absurd rfl (hP.stop hrecord hstop)
  | @record s a records rest hrecord _ ih =>
      intro others h'
      generalize htext : encode a ++ rest = text at h'
      cases h' with
      | stop hstop => exact absurd htext.symm (hP.stop hrecord hstop)
      | record hrecord' h' =>
          obtain rfl := hP.record hrecord hrecord' htext
          obtain rfl := List.append_cancel_left htext
          rw [ih h']

/-- Of the two kinds of records, a text is tiled by the one kind alone unless it has a record of the
other. -/
theorem Tiled.only_iff {Q : σ → α → Prop} {R : α → Prop} (hP : Unambiguous encode P Stop)
    (hsplit : ∀ {s a rest}, P s a rest → (Q s a ↔ ¬R a)) :
    ((∃ records, Tiled encode step P Stop s records text) →
        ∃ records, Tiled encode step (fun s a rest => P s a rest ∧ Q s a) Stop s records text) ↔
      ¬∃ records, Tiled encode step P Stop s records text ∧ ∃ a ∈ records, R a := by
  constructor
  · rintro h ⟨records, hrecords, a, ha, hR⟩
    obtain ⟨others, hothers⟩ := h ⟨records, hrecords⟩
    obtain rfl := hrecords.unique hP (hothers.mono fun s a _ rest h => h.1)
    exact hothers.forall_mem (Q := fun a => ¬R a) (fun s a rest h => (hsplit h.1).mp h.2) a ha hR
  · rintro h ⟨records, hrecords⟩
    refine ⟨records, hrecords.mono fun s a ha rest hrecord => ⟨hrecord, (hsplit hrecord).mpr ?_⟩⟩
    exact fun hR => h ⟨records, hrecords, a, ha, hR⟩

/-- A loop that stops, or takes one record and goes on behind it, accepts what is tiled. -/
theorem accepts_iff_tiled {accepts : ℕ → σ → Prop} (hne : ∀ {s a rest}, P s a rest → encode a ≠ [])
    (hstep : ∀ i ≤ text.length, ∀ s, accepts i s ↔ Stop s (text.drop i) ∨
      ∃ a rest, text.drop i = encode a ++ rest ∧ P s a rest ∧
        accepts (i + (encode a).length) (step s a)) {i : ℕ} (hi : i ≤ text.length) (s : σ) :
    accepts i s ↔ ∃ records, Tiled encode step P Stop s records (text.drop i) := by
  constructor
  · intro h
    induction hn : text.length - i using Nat.strong_induction_on generalizing i s with
    | _ n ih =>
        rcases (hstep i hi s).mp h with hstop | ⟨a, rest, heq, hrecord, hrest⟩
        · exact ⟨[], .stop hstop⟩
        · have hpos := List.length_pos_iff.mpr (hne hrecord)
          have hlength := congrArg List.length heq
          rw [List.length_drop, List.length_append] at hlength
          have hdrop : text.drop (i + (encode a).length) = rest := by
            rw [← List.drop_drop, heq, List.drop_left]
          obtain ⟨records, hrecords⟩ := ih (text.length - (i + (encode a).length)) (by omega)
            (by omega) (step s a) hrest rfl
          rw [hdrop] at hrecords
          exact ⟨a :: records, heq ▸ .record hrecord hrecords⟩
  · rintro ⟨records, h⟩
    generalize hrest : text.drop i = rest at h
    induction h generalizing i with
    | stop hstop => exact (hstep i hi _).mpr (.inl (hrest ▸ hstop))
    | @record s a records rest hrecord _ ih =>
        have hlength := congrArg List.length hrest
        rw [List.length_drop, List.length_append] at hlength
        have hdrop : text.drop (i + (encode a).length) = rest := by
          rw [← List.drop_drop, hrest, List.drop_left]
        have hle : i + (encode a).length ≤ text.length := by omega
        exact (hstep i hi s).mpr (.inr ⟨a, rest, hrest, hrecord, ih hle hdrop⟩)

end Tilings

end ByteTiling
