import Buzz.EffectProgram

/-!
# What a program was answered

The log of a run holds every request with its answer. A task that returns a value
with some log is taken apart step by step: the log of a composite is the log of its
first part followed by that of its second.
-/

namespace EffectProgram

abbrev Exchange (ρ : Type) (reply : ρ → Type) : Type := Σ request : ρ, reply request

variable {ρ : Type} {reply : ρ → Type} {α β : Type}

inductive Answered : Program ρ reply α → List (Exchange ρ reply) → α → Prop where
  | done (value : α) : Answered (.pure value) [] value
  | call {request : ρ} {next : reply request → Program ρ reply α} {log : List (Exchange ρ reply)}
      {value : α} (answer : reply request) : Answered (next answer) log value →
      Answered (.call request next) (⟨request, answer⟩ :: log) value

/-- The exchanges so far have led to the program that is left. -/
inductive Reaches : Program ρ reply α → List (Exchange ρ reply) → Program ρ reply α → Prop where
  | start (p : Program ρ reply α) : Reaches p [] p
  | call {request : ρ} {next : reply request → Program ρ reply α} {log : List (Exchange ρ reply)}
      {left : Program ρ reply α} (answer : reply request) : Reaches (next answer) log left →
      Reaches (.call request next) (⟨request, answer⟩ :: log) left

theorem Answered.of_pure {found value : α} {log : List (Exchange ρ reply)}
    (h : Answered (.pure found) log value) : log = [] ∧ value = found := by
  cases h
  exact ⟨rfl, rfl⟩

theorem Answered.of_bind {p : Program ρ reply α} {f : α → Program ρ reply β}
    {log : List (Exchange ρ reply)} {value : β} (h : Answered (p.bind f) log value) :
    ∃ first mid second, log = first ++ second ∧ Answered p first mid ∧
      Answered (f mid) second value := by
  induction p generalizing log with
  | pure mid => exact ⟨[], mid, log, rfl, .done mid, h⟩
  | call request next ih =>
      cases h with
      | call answer h =>
          obtain ⟨first, mid, second, rfl, hfirst, hsecond⟩ := ih answer h
          exact ⟨⟨request, answer⟩ :: first, mid, second, rfl, .call answer hfirst, hsecond⟩

section Serving

variable (serve : (request : ρ) → reply request)

/-- The exchanges with a world that always gives the same answer to a request. -/
def Program.served : Program ρ reply α → List (Exchange ρ reply) × α
  | .pure value => ([], value)
  | .call request next =>
      let rest := (next (serve request)).served
      (⟨request, serve request⟩ :: rest.1, rest.2)

theorem answered_served (p : Program ρ reply α) :
    Answered p (p.served serve).1 (p.served serve).2 := by
  induction p with
  | pure value => exact .done value
  | call request next ih => exact .call _ (ih (serve request))

end Serving

namespace Task

variable {μ ε : Type} {log : List (Exchange ρ reply)}

/-- The task can return `value` after the exchanges of the log. -/
def Returns (t : Task ρ reply μ ε α) (log : List (Exchange ρ reply)) (value : α) : Prop :=
  ∃ memory memory', Answered (t memory) log (.ok value, memory')

theorem returns_served (serve : (request : ρ) → reply request) {t : Task ρ reply μ ε α}
    {memory : μ} {value : α} (h : ((t memory).served serve).2.1 = .ok value) :
    Returns t ((t memory).served serve).1 value := by
  refine ⟨memory, ((t memory).served serve).2.2, ?_⟩
  rw [← h]
  exact answered_served serve (t memory)

variable {value : α}

theorem returns_pure {found : α} (h : Returns (pure found : Task ρ reply μ ε α) log value) :
    log = [] ∧ value = found := by
  obtain ⟨memory, memory', h⟩ := h
  cases h
  exact ⟨rfl, rfl⟩

theorem returns_fail {error : ε} (h : Returns (fail error : Task ρ reply μ ε α) log value) :
    False := by
  obtain ⟨memory, memory', h⟩ := h
  cases h

theorem returns_ofExcept {result : Except ε α}
    (h : Returns (ofExcept result : Task ρ reply μ ε α) log value) :
    log = [] ∧ result = .ok value := by
  cases result with
  | error error => exact (returns_fail h).elim
  | ok found =>
      obtain ⟨hlog, rfl⟩ := returns_pure h
      exact ⟨hlog, rfl⟩

theorem returns_perform {request : ρ} {answer : reply request}
    (h : Returns (perform request : Task ρ reply μ ε (reply request)) log answer) :
    log = [⟨request, answer⟩] := by
  obtain ⟨memory, memory', h⟩ := h
  cases h with
  | call answer h =>
      cases h
      rfl

theorem returns_bind {t : Task ρ reply μ ε α} {f : α → Task ρ reply μ ε β} {value : β}
    (h : Returns (t >>= f) log value) :
    ∃ first mid second, log = first ++ second ∧ Returns t first mid ∧
      Returns (f mid) second value := by
  obtain ⟨memory, memory', h⟩ := h
  obtain ⟨first, ⟨result, m⟩, second, rfl, hfirst, hsecond⟩ := h.of_bind
  cases result with
  | error error => cases hsecond
  | ok mid => exact ⟨first, mid, second, rfl, ⟨memory, m, hfirst⟩, m, memory', hsecond⟩

-- as for `Safe`, the rules alone are used from here on
attribute [irreducible] Returns

end Task
end EffectProgram
