import Mathlib.Logic.Function.Basic
import Mathlib.Tactic

/-!
# Files replaced by renaming a temporary one

A slot holds two names, that of the file and that of the temporary file beside
it. A writer opens the temporary file, which empties it or creates it, writes it
and renames it. All writers share the one temporary name, so that a writer may
hold a file that another one has renamed, and a write over another one may leave
a text that is neither.
-/

namespace ReplacedFile

inductive Body (α : Type) where
  | empty
  | torn
  | whole (value : α)
  deriving DecidableEq, Repr

def Body.value {α : Type} : Body α → Option α
  | whole value => some value
  | _ => none

structure Slot (α : Type) where
  main : Option ℕ
  temporary : Option ℕ
  body : ℕ → Body α
  next : ℕ

namespace Slot

variable {α : Type} (s : Slot α)

def new : Slot α where
  main := none
  temporary := none
  body := fun _ => .empty
  next := 0

def held (name : Option ℕ) : Option α := name.bind fun file => (s.body file).value

/-- What a reader of the file finds. -/
def mainValue : Option α := s.held s.main

def temporaryValue : Option α := s.held s.temporary

/-- `value` stands under one of the two names. -/
def Holds (value : α) : Prop := value ∈ s.mainValue ∨ value ∈ s.temporaryValue

def opened : Slot α :=
  match s.temporary with
  | some file => { s with body := Function.update s.body file .empty }
  | none =>
      { s with
        temporary := some s.next
        body := Function.update s.body s.next .empty
        next := s.next + 1 }

def written (file : ℕ) (body : Body α) : Slot α :=
  { s with body := Function.update s.body file body }

/-- What a write of `value` that succeeds may leave in the file. -/
def Writes (file : ℕ) (value : α) (body : Body α) : Prop :=
  body = .whole value ∨ s.body file ≠ .empty ∧ body = .torn

/-- What a write that fails may leave in the file. -/
def FailsToWrite (file : ℕ) (body : Body α) : Prop :=
  body = s.body file ∨ body = .torn

def renamed (file : ℕ) : Slot α :=
  { s with main := some file, temporary := none }

/-- No temporary file, as after a restart: the next writer empties the one it finds before anybody
reads it. -/
def settled : Slot α := { s with temporary := none }

/-- The two names stand for different files, as they do under a single writer. -/
structure Apart : Prop where
  main : ∀ file, s.main = some file → file < s.next
  temporary : ∀ file, s.temporary = some file → file < s.next ∧ s.main ≠ some file

end Slot

section Values

variable {α : Type} {s : Slot α} {file : ℕ} {value v : α} {body : Body α}

theorem held_written {name : Option ℕ} (h : v ∈ (s.written file body).held name) :
    v ∈ body.value ∧ name = some file ∨ v ∈ s.held name := by
  cases name with
  | none => cases h
  | some other =>
    by_cases ho : other = file
    · subst ho
      left
      simpa [Slot.held, Slot.written] using h
    · right
      simpa [Slot.held, Slot.written, Function.update_of_ne ho] using h

theorem temporaryValue_opened : s.opened.temporaryValue = none := by
  unfold Slot.opened
  split
  next file h => simp [Slot.temporaryValue, Slot.held, h, Body.value]
  next h => simp [Slot.temporaryValue, Slot.held, Body.value]

theorem mainValue_opened (h : v ∈ s.opened.mainValue) : v ∈ s.mainValue := by
  unfold Slot.opened at h
  split at h
  next file _ =>
    obtain ⟨hv, -⟩ | hv := held_written h
    · cases hv
    · exact hv
  next _ =>
    obtain ⟨hv, -⟩ | hv := held_written h
    · cases hv
    · exact hv

@[simp]
theorem main_opened : s.opened.main = s.main := by
  unfold Slot.opened
  split <;> rfl

theorem value_of_writes (h : s.Writes file value body) (hv : v ∈ body.value) : v = value := by
  obtain rfl | ⟨-, rfl⟩ := h
  · exact (Option.mem_some.mp hv).symm
  · cases hv

theorem value_of_failsToWrite (h : s.FailsToWrite file body) (hv : v ∈ body.value) :
    v ∈ (s.body file).value := by
  obtain rfl | rfl := h
  · exact hv
  · cases hv

theorem mainValue_written (hw : s.Writes file value body)
    (h : v ∈ (s.written file body).mainValue) : v = value ∨ v ∈ s.mainValue := by
  obtain ⟨hv, -⟩ | hv := held_written h
  · exact .inl (value_of_writes hw hv)
  · exact .inr hv

theorem temporaryValue_written (hw : s.Writes file value body)
    (h : v ∈ (s.written file body).temporaryValue) : v = value ∨ v ∈ s.temporaryValue := by
  obtain ⟨hv, -⟩ | hv := held_written h
  · exact .inl (value_of_writes hw hv)
  · exact .inr hv

theorem mainValue_failed (hw : s.FailsToWrite file body)
    (h : v ∈ (s.written file body).mainValue) : v ∈ s.mainValue := by
  obtain ⟨hv, hname⟩ | hv := held_written h
  · have hname : s.main = some file := hname
    simpa [Slot.mainValue, Slot.held, hname] using value_of_failsToWrite hw hv
  · exact hv

theorem temporaryValue_failed (hw : s.FailsToWrite file body)
    (h : v ∈ (s.written file body).temporaryValue) : v ∈ s.temporaryValue := by
  obtain ⟨hv, hname⟩ | hv := held_written h
  · have hname : s.temporary = some file := hname
    simpa [Slot.temporaryValue, Slot.held, hname] using value_of_failsToWrite hw hv
  · exact hv

theorem holds_opened (h : s.opened.Holds v) : v ∈ s.mainValue := by
  rcases h with h | h
  · exact mainValue_opened h
  · rw [temporaryValue_opened] at h
    cases h

theorem holds_written (hw : s.Writes file value body) (h : (s.written file body).Holds v) :
    v = value ∨ s.Holds v := by
  rcases h with h | h
  · exact (mainValue_written hw h).imp_right .inl
  · exact (temporaryValue_written hw h).imp_right .inr

theorem holds_failed (hw : s.FailsToWrite file body) (h : (s.written file body).Holds v) :
    s.Holds v :=
  h.imp (mainValue_failed hw) (temporaryValue_failed hw)

theorem mainValue_renamed (hfile : s.temporary = some file) :
    (s.renamed file).mainValue = s.temporaryValue := by
  simp [Slot.mainValue, Slot.temporaryValue, Slot.held, Slot.renamed, hfile]

theorem holds_renamed (hfile : s.temporary = some file) (h : (s.renamed file).Holds v) :
    v ∈ s.temporaryValue := by
  rcases h with h | h
  · rwa [mainValue_renamed hfile] at h
  · cases h

theorem holds_settled (h : s.settled.Holds v) : v ∈ s.mainValue := by
  rcases h with h | h
  · exact h
  · cases h

end Values

section Apart

variable {α : Type} {s : Slot α} {file : ℕ} {value : α} {body : Body α}

theorem Slot.Apart.opened (h : s.Apart) : s.opened.Apart ∧ s.opened.mainValue = s.mainValue := by
  unfold Slot.opened
  split
  next file hfile =>
    refine ⟨⟨h.main, h.temporary⟩, ?_⟩
    have hne := (h.temporary file hfile).2
    cases hmain : s.main with
    | none => simp [Slot.mainValue, Slot.held, hmain]
    | some other =>
        have hother : other ≠ file := fun heq => hne (heq ▸ hmain)
        simp [Slot.mainValue, Slot.held, hmain, Function.update_of_ne hother]
  next hnone =>
    refine ⟨⟨fun file hfile => ?_, fun file hfile => ?_⟩, ?_⟩
    · exact Nat.lt_succ_of_lt (h.main file hfile)
    · obtain rfl : s.next = file := Option.some_inj.mp hfile
      exact ⟨Nat.lt_succ_self _, fun hmain => (h.main _ hmain).false⟩
    · cases hmain : s.main with
      | none => simp [Slot.mainValue, Slot.held, hmain]
      | some other =>
          have hother : other ≠ s.next := (h.main other hmain).ne
          simp [Slot.mainValue, Slot.held, hmain, Function.update_of_ne hother]

theorem body_opened (h : s.opened.temporary = some file) : s.opened.body file = .empty := by
  unfold Slot.opened at h ⊢
  split at h
  next other hother =>
    obtain rfl : other = file := Option.some_inj.mp (hother.symm.trans h)
    simp
  next hnone =>
    obtain rfl : s.next = file := Option.some_inj.mp h
    simp

theorem Slot.Apart.written (h : s.Apart) (hfile : s.temporary = some file) :
    (s.written file body).Apart ∧ (s.written file body).mainValue = s.mainValue := by
  refine ⟨⟨h.main, h.temporary⟩, ?_⟩
  have hne := (h.temporary file hfile).2
  cases hmain : s.main with
  | none => simp [Slot.mainValue, Slot.held, Slot.written, hmain]
  | some other =>
      have hother : other ≠ file := fun heq => hne (heq ▸ hmain)
      simp [Slot.mainValue, Slot.held, Slot.written, hmain, Function.update_of_ne hother]

theorem Slot.Apart.renamed (h : s.Apart) (hfile : s.temporary = some file) :
    (s.renamed file).Apart where
  main other hother := by
    obtain rfl : file = other := Option.some_inj.mp hother
    exact (h.temporary file hfile).1
  temporary other hother := by cases hother

end Apart

section Shrinking

variable {α : Type} {live : α → Prop} {s t u : Slot α} {file : ℕ} {value : α} {body : Body α}

/-- No live value appears: one that can be read was there before, at most under the temporary
name, and a file that is missing is left alone. -/
structure Shrinks (live : α → Prop) (s t : Slot α) : Prop where
  temporary : ∀ v ∈ t.temporaryValue, live v → v ∈ s.temporaryValue
  main : ∀ v ∈ t.mainValue, live v → v ∈ s.mainValue ∨ v ∈ s.temporaryValue
  kept : s.main ≠ none → t.main ≠ none
  missing : s.main = none → t = s

theorem Shrinks.refl (s : Slot α) : Shrinks live s s where
  temporary _ hv _ := hv
  main _ hv _ := .inl hv
  kept h := h
  missing _ := rfl

theorem Shrinks.trans (hst : Shrinks live s t) (htu : Shrinks live t u) : Shrinks live s u where
  temporary v hv hlive := hst.temporary v (htu.temporary v hv hlive) hlive
  main := by
    intro v hv hlive
    obtain hv | hv := htu.main v hv hlive
    · exact hst.main v hv hlive
    · exact .inr (hst.temporary v hv hlive)
  kept h := htu.kept (hst.kept h)
  missing := by
    intro h
    obtain rfl := hst.missing h
    exact htu.missing h

theorem Shrinks.holds (h : Shrinks live s t) {v : α} (hv : t.Holds v) (hlive : live v) :
    s.Holds v := by
  rcases hv with hv | hv
  · exact h.main v hv hlive
  · exact .inr (h.temporary v hv hlive)

theorem Shrinks.opened (h : s.main ≠ none) : Shrinks live s s.opened where
  temporary := by
    intro v hv
    rw [temporaryValue_opened] at hv
    cases hv
  main _ hv _ := .inl (mainValue_opened hv)
  kept _ := by rwa [main_opened]
  missing hnone := absurd hnone h

theorem Shrinks.written (h : s.main ≠ none) (hw : s.Writes file value body)
    (hdead : ¬live value) : Shrinks live s (s.written file body) where
  temporary := by
    intro v hv hlive
    obtain rfl | hv := temporaryValue_written hw hv
    · exact absurd hlive hdead
    · exact hv
  main := by
    intro v hv hlive
    obtain rfl | hv := mainValue_written hw hv
    · exact absurd hlive hdead
    · exact .inl hv
  kept _ := h
  missing hnone := absurd hnone h

theorem Shrinks.failed (h : s.main ≠ none) (hw : s.FailsToWrite file body) :
    Shrinks live s (s.written file body) where
  temporary _ hv _ := temporaryValue_failed hw hv
  main _ hv _ := .inl (mainValue_failed hw hv)
  kept _ := h
  missing hnone := absurd hnone h

theorem Shrinks.renamed (h : s.main ≠ none) (hfile : s.temporary = some file) :
    Shrinks live s (s.renamed file) where
  temporary := by
    intro v hv
    cases hv
  main := by
    intro v hv _
    rw [mainValue_renamed hfile] at hv
    exact .inr hv
  kept _ := by simp [Slot.renamed]
  missing hnone := absurd hnone h

end Shrinking

end ReplacedFile
