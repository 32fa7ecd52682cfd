import Buzz.ProgramLog

/-!
# The requests a program can issue

A program issues only allowed requests when all its nodes carry one, and the rules
follow the program. What is allowed may depend on what was answered before.
-/

namespace EffectProgram

section Requests

variable {ρ : Type} {reply : ρ → Type} {α β : Type}

def Issues (allowed : ρ → Prop) : Program ρ reply α → Prop
  | .pure _ => True
  | .call request next => allowed request ∧ ∀ answer, Issues allowed (next answer)

/-- `Issues` for a program that goes on after the exchanges of a log. -/
def IssuesAfter (allowed : List (Exchange ρ reply) → ρ → Prop) :
    List (Exchange ρ reply) → Program ρ reply α → Prop
  | _, .pure _ => True
  | log, .call request next =>
      allowed log request ∧
        ∀ answer, IssuesAfter allowed (log ++ [⟨request, answer⟩]) (next answer)

variable {allowed : ρ → Prop} {permitted : List (Exchange ρ reply) → ρ → Prop}
variable {p : Program ρ reply α} {log : List (Exchange ρ reply)}

theorem Issues.bind {f : α → Program ρ reply β} (h : Issues allowed p)
    (hf : ∀ value, Issues allowed (f value)) : Issues allowed (p.bind f) := by
  induction p with
  | pure value => exact hf value
  | call request next ih => exact ⟨h.1, fun answer => ih answer (h.2 answer)⟩

theorem issues_true (p : Program ρ reply α) : Issues (fun _ => True) p := by
  induction p with
  | pure value => trivial
  | call request next ih => exact ⟨trivial, ih⟩

theorem Issues.after (h : Issues allowed p)
    (hpermitted : ∀ log request, allowed request → permitted log request)
    (log : List (Exchange ρ reply)) : IssuesAfter permitted log p := by
  induction p generalizing log with
  | pure value => trivial
  | call request next ih =>
      exact ⟨hpermitted log request h.1, fun answer => ih answer (h.2 answer) _⟩

theorem IssuesAfter.bind {f : α → Program ρ reply β} (h : IssuesAfter permitted log p)
    (hf : ∀ value more, IssuesAfter permitted (log ++ more) (f value)) :
    IssuesAfter permitted log (p.bind f) := by
  induction p generalizing log with
  | pure value =>
      have hvalue := hf value []
      rwa [List.append_nil] at hvalue
  | call request next ih =>
      refine ⟨h.1, fun answer => ih answer (h.2 answer) fun value more => ?_⟩
      rw [List.append_assoc]
      exact hf value _

/-- Wherever the program stands, its next request is allowed after what it was answered. -/
theorem IssuesAfter.reaches {more : List (Exchange ρ reply)} {request : ρ}
    {next : reply request → Program ρ reply α} (h : IssuesAfter permitted log p)
    (hreach : Reaches p more (.call request next)) : permitted (log ++ more) request := by
  generalize hleft : Program.call request next = left at hreach
  induction hreach generalizing log with
  | start p =>
      subst hleft
      rw [List.append_nil]
      exact h.1
  | call answer _ ih =>
      rw [List.append_cons]
      exact ih (h.2 answer) hleft

end Requests

namespace Task

variable {ρ : Type} {reply : ρ → Type} {μ ε α β : Type}

/-- `Issues` for a task, whatever its memory. -/
def Issues (allowed : ρ → Prop) (t : Task ρ reply μ ε α) : Prop :=
  ∀ memory, EffectProgram.Issues allowed (t memory)

/-- `IssuesAfter` for a task, whatever its memory. -/
def IssuesAfter (permitted : List (Exchange ρ reply) → ρ → Prop) (log : List (Exchange ρ reply))
    (t : Task ρ reply μ ε α) : Prop :=
  ∀ memory, EffectProgram.IssuesAfter permitted log (t memory)

variable {allowed : ρ → Prop} {permitted : List (Exchange ρ reply) → ρ → Prop}
variable {t : Task ρ reply μ ε α} {log : List (Exchange ρ reply)}

theorem IssuesAfter.program (h : IssuesAfter permitted log t) (memory : μ) :
    EffectProgram.IssuesAfter permitted log (t memory) :=
  h memory

theorem Issues.after (h : Issues allowed t)
    (hpermitted : ∀ log request, allowed request → permitted log request)
    (log : List (Exchange ρ reply)) : IssuesAfter permitted log t :=
  fun memory => (h memory).after hpermitted log

theorem issuesAfter_perform {request : ρ} {f : reply request → Task ρ reply μ ε α}
    (h : permitted log request)
    (hf : ∀ answer, IssuesAfter permitted (log ++ [⟨request, answer⟩]) (f answer)) :
    IssuesAfter permitted log (perform request >>= f) :=
  fun memory => ⟨h, fun answer => hf answer memory⟩

/-- An error ends the task, a value is handed on. -/
theorem issuesAfter_ofExcept {result : Except ε α} {f : α → Task ρ reply μ ε β}
    (h : ∀ value, result = .ok value → IssuesAfter permitted log (f value)) :
    IssuesAfter permitted log (ofExcept result >>= f) := by
  cases result with
  | error error => exact fun _ => trivial
  | ok value => exact h value rfl

theorem issuesAfter_bind {f : α → Task ρ reply μ ε β} (h : IssuesAfter permitted log t)
    (hf : ∀ value more, IssuesAfter permitted (log ++ more) (f value)) :
    IssuesAfter permitted log (t >>= f) := by
  intro memory
  refine (h memory).bind ?_
  rintro ⟨error | value, m⟩ more
  · trivial
  · exact hf value more m

theorem Issues.program (h : Issues allowed t) (memory : μ) :
    EffectProgram.Issues allowed (t memory) :=
  h memory

theorem issues_any : Issues (fun _ => True) t :=
  fun memory => issues_true (t memory)

theorem issues_pure (value : α) : Issues allowed (pure value : Task ρ reply μ ε α) :=
  fun _ => trivial

theorem issues_fail (error : ε) : Issues allowed (fail error : Task ρ reply μ ε α) :=
  fun _ => trivial

theorem issues_ofExcept (result : Except ε α) :
    Issues allowed (ofExcept result : Task ρ reply μ ε α) := by
  cases result with
  | ok value => exact issues_pure value
  | error error => exact issues_fail error

theorem issues_perform {request : ρ} (h : allowed request) :
    Issues allowed (perform request : Task ρ reply μ ε (reply request)) :=
  fun _ => ⟨h, fun _ => trivial⟩

theorem issues_bind {f : α → Task ρ reply μ ε β} (h : Issues allowed t)
    (hf : ∀ value, Issues allowed (f value)) : Issues allowed (t >>= f) := by
  intro memory
  refine (h memory).bind ?_
  rintro ⟨error | value, m⟩
  · trivial
  · exact hf value m

/-- The branches of a choice, each under its condition. -/
theorem issues_ite {c : Prop} [Decidable c] {u : Task ρ reply μ ε α} (ht : c → Issues allowed t)
    (hu : ¬c → Issues allowed u) : Issues allowed (if c then t else u) := by
  by_cases hc : c
  · rw [if_pos hc]
    exact ht hc
  · rw [if_neg hc]
    exact hu hc

-- as for `Safe`, the rules alone are used from here on
attribute [irreducible] Issues IssuesAfter

end Task
end EffectProgram
