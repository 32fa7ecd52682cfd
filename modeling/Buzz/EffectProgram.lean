import Mathlib.Logic.Function.Basic
import Mathlib.Tactic

/-!
# Programs that issue requests

A program is a tree: it returns a value or issues a request and continues with
the reply. A contract says which worlds are valid, how a request commits, what
the other threads may do between two requests (`rely`) and what this one may do
to them (`guar`). `Safe` collects what holds of a program under a contract,
whatever replies it gets and wherever it is interrupted.

`Task` adds memory and errors. The memory survives an error, as variables
borrowed mutably across a fallible call do.
-/

namespace EffectProgram

inductive Program (ρ : Type) (reply : ρ → Type) (α : Type) : Type where
  | pure (value : α)
  | call (request : ρ) (next : reply request → Program ρ reply α)

namespace Program

variable {ρ : Type} {reply : ρ → Type} {α β : Type}

def bind : Program ρ reply α → (α → Program ρ reply β) → Program ρ reply β
  | .pure value, f => f value
  | .call request next, f => .call request (fun answer => (next answer).bind f)

end Program

/-- The terms under which one thread runs in a shared world. -/
structure Contract (W ρ : Type) (reply : ρ → Type) where
  valid : W → Prop
  commits : W → (request : ρ) → reply request → W → Prop
  rely : W → W → Prop
  guar : W → W → Prop
  rely_refl : ∀ w, rely w w
  rely_trans : ∀ u v w, rely u v → rely v w → rely u w

section Safe

variable {W ρ : Type} {reply : ρ → Type} {α β : Type} (c : Contract W ρ reply)
variable {p : Program ρ reply α} {post : α → W → Prop}

def Safe (post : α → W → Prop) : Program ρ reply α → W → Prop
  | .pure value, w => ∀ t, c.valid t → c.rely w t → post value t
  | .call request next, w => ∀ t, c.valid t → c.rely w t →
      ∀ answer u, c.commits t request answer u →
        c.valid u ∧ c.guar t u ∧ Safe post (next answer) u

variable {c}

theorem Safe.of_rely {w t : W} (h : Safe c post p w) (hrely : c.rely w t) : Safe c post p t := by
  cases p with
  | pure value | call request next =>
      intro u hu hrely'
      exact h u hu (c.rely_trans w t u hrely hrely')

theorem Safe.mono {post goal : α → W → Prop} {w : W}
    (h : Safe c post p w) (himp : ∀ value t, c.valid t → post value t → goal value t) :
    Safe c goal p w := by
  induction p generalizing w with
  | pure value =>
      intro t ht hrely
      exact himp value t ht (h t ht hrely)
  | call request next ih =>
      intro t ht hrely answer u hcommit
      obtain ⟨hvalid, hguar, hnext⟩ := h t ht hrely answer u hcommit
      exact ⟨hvalid, hguar, ih answer hnext⟩

/-- What a safe program returns with holds until its caller goes on. -/
theorem Safe.settled {w : W} (h : Safe c post p w) :
    Safe c (fun value t => ∀ u, c.valid u → c.rely t u → post value u) p w := by
  induction p generalizing w with
  | pure value =>
      intro t ht hrely u hu hrely'
      exact h u hu (c.rely_trans w t u hrely hrely')
  | call request next ih =>
      intro t ht hrely answer u hcommit
      obtain ⟨hu, hguar, hnext⟩ := h t ht hrely answer u hcommit
      exact ⟨hu, hguar, ih answer hnext⟩

theorem Safe.bind {mid : α → W → Prop} {post : β → W → Prop}
    {f : α → Program ρ reply β} {w : W} (hvalid : c.valid w) (h : Safe c mid p w)
    (hf : ∀ value t, c.valid t → (∀ u, c.valid u → c.rely t u → mid value u) →
      Safe c post (f value) t) : Safe c post (p.bind f) w := by
  have hsettled := h.settled
  clear h
  induction p generalizing w with
  | pure value => exact hf value w hvalid (hsettled w hvalid (c.rely_refl w))
  | call request next ih =>
      intro t ht hrely answer u hcommit
      obtain ⟨hu, hguar, hnext⟩ := hsettled t ht hrely answer u hcommit
      exact ⟨hu, hguar, ih answer hu hnext⟩

/-- Where every world is valid and every step allowed, nothing is to be shown. -/
theorem safe_of_total (hvalid : ∀ w, c.valid w) (hguar : ∀ w u, c.guar w u)
    (p : Program ρ reply α) (w : W) : Safe c (fun _ _ => True) p w := by
  induction p generalizing w with
  | pure value => exact fun _ _ _ => True.intro
  | call request next ih =>
      exact fun t _ _ answer u _ => ⟨hvalid u, hguar t u, ih answer u⟩

/-- A run of one program among threads that keep to its `rely`. -/
inductive Run (c : Contract W ρ reply) : Program ρ reply α → W → α → W → Prop where
  | done {value : α} {w t : W} : c.valid t → c.rely w t → Run c (.pure value) w value t
  | call {request : ρ} {next : reply request → Program ρ reply α} {answer : reply request}
      {w t u v : W} {value : α} : c.valid t → c.rely w t → c.commits t request answer u →
      Run c (next answer) u value v → Run c (.call request next) w value v

theorem Safe.run {w v : W} {value : α}
    (h : Safe c post p w) (hrun : Run c p w value v) : post value v := by
  induction hrun with
  | done ht hrely => exact h _ ht hrely
  | call ht hrely hcommit _ ih => exact ih (h _ ht hrely _ _ hcommit).2.2

end Safe

def Task (ρ : Type) (reply : ρ → Type) (μ ε α : Type) : Type :=
  μ → Program ρ reply (Except ε α × μ)

namespace Task

variable {ρ : Type} {reply : ρ → Type} {μ ε α β : Type}

def ret (value : α) : Task ρ reply μ ε α := fun memory => .pure (.ok value, memory)

def fail (error : ε) : Task ρ reply μ ε α := fun memory => .pure (.error error, memory)

def andThen (t : Task ρ reply μ ε α) (f : α → Task ρ reply μ ε β) : Task ρ reply μ ε β :=
  fun memory => (t memory).bind fun out =>
    match out.1 with
    | .ok value => f value out.2
    | .error error => .pure (.error error, out.2)

instance : Monad (Task ρ reply μ ε) where
  pure := ret
  bind := andThen

def perform (request : ρ) : Task ρ reply μ ε (reply request) :=
  fun memory => .call request fun answer => .pure (.ok answer, memory)

def getMemory : Task ρ reply μ ε μ := fun memory => .pure (.ok memory, memory)

def setMemory (memory : μ) : Task ρ reply μ ε Unit := fun _ => .pure (.ok (), memory)

/-- The result of `t` as a value, so that the caller can act on an error. -/
def result (t : Task ρ reply μ ε α) : Task ρ reply μ ε (Except ε α) :=
  fun memory => (t memory).bind fun out => .pure (.ok out.1, out.2)

def ofExcept : Except ε α → Task ρ reply μ ε α
  | .ok value => ret value
  | .error error => fail error

def forEach (f : α → Task ρ reply μ ε Unit) : List α → Task ρ reply μ ε Unit
  | [] => ret ()
  | x :: xs => do
      f x
      forEach f xs

section Rules

variable {W : Type} (c : Contract W ρ reply)

/-- `Safe` for a task: `good` holds where it succeeds and `bad` where it fails. -/
def Safe (good : α → μ → W → Prop) (bad : ε → μ → W → Prop) (t : Task ρ reply μ ε α)
    (memory : μ) (w : W) : Prop :=
  EffectProgram.Safe c (fun out u =>
    match out.1 with
    | .ok value => good value out.2 u
    | .error error => bad error out.2 u) (t memory) w

variable {c} {good : α → μ → W → Prop} {bad : ε → μ → W → Prop} {memory : μ} {w : W}

theorem Safe.mono {good' : α → μ → W → Prop} {bad' : ε → μ → W → Prop}
    {t : Task ρ reply μ ε α} (h : Safe c good bad t memory w)
    (hgood : ∀ value m u, c.valid u → good value m u → good' value m u)
    (hbad : ∀ error m u, c.valid u → bad error m u → bad' error m u) :
    Safe c good' bad' t memory w := by
  apply EffectProgram.Safe.mono h
  rintro ⟨value | error, m⟩ u hu hout
  · exact hbad _ m u hu hout
  · exact hgood _ m u hu hout

theorem safe_ret {value : α} (h : ∀ u, c.valid u → c.rely w u → good value memory u) :
    Safe c good bad (pure value : Task ρ reply μ ε α) memory w :=
  h

theorem safe_fail {error : ε} (h : ∀ u, c.valid u → c.rely w u → bad error memory u) :
    Safe c good bad (fail error : Task ρ reply μ ε α) memory w :=
  h

theorem safe_bind {mid : α → μ → W → Prop} {good : β → μ → W → Prop} {t : Task ρ reply μ ε α}
    {f : α → Task ρ reply μ ε β} (hvalid : c.valid w) (h : Safe c mid bad t memory w)
    (hf : ∀ value m u, c.valid u → mid value m u → Safe c good bad (f value) m u) :
    Safe c good bad (t >>= f) memory w := by
  apply EffectProgram.Safe.bind hvalid h
  rintro ⟨error | value, m⟩ u hu hout
  · exact hout
  · exact hf value m u hu (hout u hu (c.rely_refl u))

/-- The world may have moved before the request commits and after its reply. -/
theorem safe_perform {request : ρ} {good : reply request → μ → W → Prop}
    (h : ∀ t, c.valid t → c.rely w t → ∀ answer u, c.commits t request answer u →
      c.valid u ∧ c.guar t u ∧ ∀ v, c.valid v → c.rely u v → good answer memory v) :
    Safe c good bad (perform request) memory w :=
  h

theorem safe_getMemory {good : μ → μ → W → Prop}
    (h : ∀ u, c.valid u → c.rely w u → good memory memory u) :
    Safe c good bad (getMemory : Task ρ reply μ ε μ) memory w :=
  h

theorem safe_setMemory {good : Unit → μ → W → Prop} {next : μ}
    (h : ∀ u, c.valid u → c.rely w u → good () next u) :
    Safe c good bad (setMemory next : Task ρ reply μ ε Unit) memory w :=
  h

theorem safe_result {good : Except ε α → μ → W → Prop} {t : Task ρ reply μ ε α}
    (hvalid : c.valid w)
    (h : Safe c (fun value => good (.ok value)) (fun error => good (.error error)) t memory w) :
    Safe c good bad (result t) memory w := by
  apply EffectProgram.Safe.bind hvalid h
  rintro ⟨error | value, m⟩ u hu hout
  · exact hout
  · exact hout

/-- `I` holds of the elements that are still to come. -/
theorem safe_forEach {I : List α → μ → W → Prop} {f : α → Task ρ reply μ ε Unit}
    (hstep : ∀ x xs m u, c.valid u → I (x :: xs) m u →
      Safe c (fun _ => I xs) bad (f x) m u)
    (hstable : ∀ m u v, c.valid v → c.rely u v → I [] m u → I [] m v)
    (xs : List α) (hvalid : c.valid w) (h : I xs memory w) :
    Safe c (fun _ => I []) bad (forEach f xs) memory w := by
  induction xs generalizing memory w with
  | nil => exact safe_ret fun u hu hrely => hstable memory w u hu hrely h
  | cons x xs ih =>
      exact safe_bind hvalid (hstep x xs memory w hvalid h) fun _ m u hu hinv => ih hu hinv

theorem safe_true (hvalid : ∀ w, c.valid w) (hguar : ∀ w u, c.guar w u)
    (t : Task ρ reply μ ε α) :
    Safe c (fun _ _ _ => True) (fun _ _ _ => True) t memory w := by
  apply EffectProgram.Safe.mono (safe_of_total hvalid hguar (t memory) w)
  rintro ⟨error | value, m⟩ u _ _
  · exact True.intro
  · exact True.intro

/-- What the rules say about a task, as a fact about its program. -/
theorem Safe.program {t : Task ρ reply μ ε α} {post : Except ε α × μ → W → Prop}
    (h : Safe c good bad t memory w) (hgood : ∀ value m u, good value m u → post (.ok value, m) u)
    (hbad : ∀ error m u, bad error m u → post (.error error, m) u) :
    EffectProgram.Safe c post (t memory) w := by
  apply EffectProgram.Safe.mono h
  rintro ⟨error | value, m⟩ u _ hout
  · exact hbad error m u hout
  · exact hgood value m u hout

end Rules

-- from here on safety of a task is derived by the rules alone
attribute [irreducible] Safe

end Task
end EffectProgram
