import Buzz.ProgramTraces

/-!
# Assertions that hold while a thread lives

A thread may be cut off for good, after which nothing is promised to it any
more. A triple speaks about a task whatever its memory: where the assertion
before holds, the one after holds when the task returns and the exit assertion
when it fails, as long as the thread lives. The rules follow the task.
-/

namespace EffectProgram

variable {W ρ : Type} {reply : ρ → Type}

/-- When the thread of a contract is alive. Once dead it stays dead, and only a living thread
acts. -/
structure Lifespan (c : Contract W ρ reply) where
  alive : W → Prop
  alive_of_rely : ∀ w u, c.rely w u → alive u → alive w
  alive_of_commits : ∀ w request answer u, c.commits w request answer u → alive w

/-- A thread that is never cut off. -/
def Lifespan.forever (c : Contract W ρ reply) : Lifespan c where
  alive _ := True
  alive_of_rely _ _ _ _ := True.intro
  alive_of_commits _ _ _ _ _ := True.intro

/-- What the other threads cannot make false. -/
def Stable {c : Contract W ρ reply} (life : Lifespan c) (P : W → Prop) : Prop :=
  ∀ w u, c.valid u → c.rely w u → life.alive u → P w → P u

section Stable

variable {c : Contract W ρ reply} {life : Lifespan c} {P Q : W → Prop}

theorem stable_true : Stable life fun _ => True :=
  fun _ _ _ _ _ _ => True.intro

theorem Stable.and (hP : Stable life P) (hQ : Stable life Q) : Stable life fun w => P w ∧ Q w :=
  fun w u hu hrely halive h => ⟨hP w u hu hrely halive h.1, hQ w u hu hrely halive h.2⟩

theorem stable_const (p : Prop) : Stable life fun _ => p :=
  fun _ _ _ _ _ h => h

/-- A dead thread does nothing. -/
theorem safe_of_dead {α : Type} {post : α → W → Prop} {p : Program ρ reply α} {w : W}
    (hdead : ¬life.alive w) (hpost : ∀ value u, ¬life.alive u → post value u) :
    Safe c post p w := by
  cases p with
  | pure value =>
    intro t _ hrely
    exact hpost value t fun halive => hdead (life.alive_of_rely w t hrely halive)
  | call request next =>
    intro t _ hrely answer u hcommit
    have halive := life.alive_of_commits t request answer u hcommit
    exact absurd (life.alive_of_rely w t hrely halive) hdead

/-- What neither the others nor the requests of the program make false is kept. -/
theorem Safe.frame {α : Type} {allowed : ρ → Prop} {post : α → W → Prop} {p : Program ρ reply α}
    {w : W} (hP : Stable life P)
    (hkeep : ∀ request, allowed request → ∀ t answer u, c.commits t request answer u → P t → P u)
    (hissues : Issues allowed p) (h : Safe c post p w) (hw : life.alive w → P w) :
    Safe c (fun value u => post value u ∧ (life.alive u → P u)) p w := by
  induction p generalizing w with
  | pure value =>
    intro t ht hrely
    refine ⟨h t ht hrely, fun halive => ?_⟩
    exact hP w t ht hrely halive (hw (life.alive_of_rely w t hrely halive))
  | call request next ih =>
    intro t ht hrely answer u hcommit
    obtain ⟨hu, hguar, hnext⟩ := h t ht hrely answer u hcommit
    have halive := life.alive_of_commits t request answer u hcommit
    have hpre := hP w t ht hrely halive (hw (life.alive_of_rely w t hrely halive))
    exact ⟨hu, hguar, ih answer (hissues.2 answer) hnext fun _ =>
      hkeep request hissues.1 t answer u hcommit hpre⟩

end Stable

namespace Task

variable {μ ε α β : Type} {c : Contract W ρ reply} (life : Lifespan c)

def Triple (P : W → Prop) (t : Task ρ reply μ ε α) (Q : α → W → Prop) (E : ε → W → Prop) : Prop :=
  ∀ memory w, c.valid w → (life.alive w → P w) →
    Safe c (fun value _ u => life.alive u → Q value u) (fun error _ u => life.alive u → E error u)
      t memory w

variable {life} {P P' : W → Prop} {Q Q' : α → W → Prop} {E E' : ε → W → Prop}
  {t : Task ρ reply μ ε α}

/-- What held of a living thread holds after the others have moved. -/
theorem alive_stable (hP : Stable life P) {w u : W} (hu : c.valid u) (hrely : c.rely w u)
    (h : life.alive w → P w) (halive : life.alive u) : P u :=
  hP w u hu hrely halive (h (life.alive_of_rely w u hrely halive))

theorem Triple.conseq (h : Triple life P t Q E) (hP : ∀ w, c.valid w → P' w → P w)
    (hQ : ∀ value w, c.valid w → Q value w → Q' value w)
    (hE : ∀ error w, c.valid w → E error w → E' error w) : Triple life P' t Q' E' := by
  intro memory w hw hpre
  apply (h memory w hw fun halive => hP w hw (hpre halive)).mono
  · exact fun value _ u hu hout halive => hQ value u hu (hout halive)
  · exact fun error _ u hu hout halive => hE error u hu (hout halive)

theorem Triple.weaken (h : Triple life P t Q E) (hP : ∀ w, c.valid w → P' w → P w) :
    Triple life P' t Q E :=
  h.conseq hP (fun _ _ _ hQ => hQ) fun _ _ _ hE => hE

theorem Triple.strengthen (h : Triple life P t Q E)
    (hQ : ∀ value w, c.valid w → Q value w → Q' value w) : Triple life P t Q' E :=
  h.conseq (fun _ _ hP => hP) hQ fun _ _ _ hE => hE

/-- What the assertion says about no world may be used outside of it. -/
theorem triple_pull {p : Prop} (h : p → Triple life P t Q E) :
    Triple life (fun w => P w ∧ p) t Q E := by
  intro memory w hw hpre
  by_cases halive : life.alive w
  · exact h (hpre halive).2 memory w hw fun _ => (hpre halive).1
  · unfold Safe
    apply safe_of_dead halive
    rintro ⟨error | value, m⟩ u hdead
    · exact fun halive' => absurd halive' hdead
    · exact fun halive' => absurd halive' hdead

theorem Triple.frame {allowed : ρ → Prop} {F : W → Prop} (h : Triple life P t Q E)
    (hF : Stable life F)
    (hkeep : ∀ request, allowed request → ∀ w answer u, c.commits w request answer u → F w → F u)
    (hissues : Issues allowed t) :
    Triple life (fun w => P w ∧ F w) t (fun value w => Q value w ∧ F w)
      fun error w => E error w ∧ F w := by
  intro memory w hw hpre
  have hsafe := h memory w hw fun halive => (hpre halive).1
  unfold Safe at hsafe ⊢
  have hframe := hsafe.frame hF hkeep (hissues.program memory) fun halive => (hpre halive).2
  apply hframe.mono
  rintro ⟨error | value, m⟩ u _ ⟨hout, hkept⟩ halive
  · exact ⟨hout halive, hkept halive⟩
  · exact ⟨hout halive, hkept halive⟩

theorem triple_pure {value : α} (hP : Stable life P) (h : ∀ w, c.valid w → P w → Q value w) :
    Triple life P (pure value : Task ρ reply μ ε α) Q E :=
  fun _ _ _ hpre => safe_ret fun u hu hrely halive =>
    h u hu (alive_stable hP hu hrely hpre halive)

theorem triple_fail {error : ε} (hP : Stable life P) (h : ∀ w, c.valid w → P w → E error w) :
    Triple life P (fail error : Task ρ reply μ ε α) Q E :=
  fun _ _ _ hpre => safe_fail fun u hu hrely halive =>
    h u hu (alive_stable hP hu hrely hpre halive)

theorem triple_bind {R : β → W → Prop} {f : α → Task ρ reply μ ε β} (h : Triple life P t Q E)
    (hf : ∀ value, Triple life (Q value) (f value) R E) : Triple life P (t >>= f) R E := by
  intro memory w hw hpre
  refine safe_bind hw (h memory w hw hpre) fun value m u hu hmid => ?_
  exact hf value m u hu hmid

theorem triple_pure_bind {R : β → W → Prop} {value : α} {f : α → Task ρ reply μ ε β}
    (h : Triple life P (f value) R E) :
    Triple life P ((pure value : Task ρ reply μ ε α) >>= f) R E :=
  h

/-- A task that fails does not go on. -/
theorem triple_fail_bind {R : β → W → Prop} {error : ε} {f : α → Task ρ reply μ ε β}
    (hP : Stable life P) (h : ∀ w, c.valid w → P w → E error w) :
    Triple life P ((fail error : Task ρ reply μ ε α) >>= f) R E := by
  have hfail : Triple life P (fail error : Task ρ reply μ ε α) (fun _ _ => True ∧ False) E :=
    triple_fail hP h
  exact triple_bind hfail fun _ => triple_pull fun hfalse => hfalse.elim

theorem triple_perform {request : ρ} {Q : reply request → W → Prop} (hP : Stable life P)
    (hQ : ∀ answer, Stable life (Q answer))
    (h : ∀ w answer u, c.valid w → P w → c.commits w request answer u →
      c.valid u ∧ c.guar w u ∧ Q answer u) :
    Triple life P (perform request : Task ρ reply μ ε (reply request)) Q E := by
  intro memory w hw hpre
  apply safe_perform
  intro v hv hrely answer u hcommit
  have halive := life.alive_of_commits v request answer u hcommit
  obtain ⟨hu, hguar, hpost⟩ := h v answer u hv (alive_stable hP hv hrely hpre halive) hcommit
  exact ⟨hu, hguar, fun t ht hrely' halive' => hQ answer u t ht hrely' halive' hpost⟩

theorem triple_getMemory (hP : Stable life P) :
    Triple life P (getMemory : Task ρ reply μ ε μ) (fun _ => P) E :=
  fun _ _ _ hpre => safe_getMemory fun _ hu hrely halive =>
    alive_stable hP hu hrely hpre halive

theorem triple_setMemory {memory : μ} (hP : Stable life P) :
    Triple life P (setMemory memory : Task ρ reply μ ε Unit) (fun _ => P) E :=
  fun _ _ _ hpre => safe_setMemory fun _ hu hrely halive =>
    alive_stable hP hu hrely hpre halive

theorem triple_result {R : Except ε α → W → Prop}
    (h : Triple life P t (fun value => R (.ok value)) fun error => R (.error error)) :
    Triple life P (result t) R E :=
  fun memory w hw hpre => safe_result hw (h memory w hw hpre)

theorem triple_ite {b : Prop} [Decidable b] {u : Task ρ reply μ ε α}
    (ht : b → Triple life P t Q E) (hu : ¬b → Triple life P u Q E) :
    Triple life P (if b then t else u) Q E := by
  by_cases hb : b
  · rw [if_pos hb]
    exact ht hb
  · rw [if_neg hb]
    exact hu hb

/-- `P` is kept by every round. -/
theorem triple_forEach {f : α → Task ρ reply μ ε Unit} {I : List α → W → Prop}
    (hnil : Stable life (I [])) (hstep : ∀ x xs, Triple life (I (x :: xs)) (f x) (fun _ => I xs) E)
    (xs : List α) : Triple life (I xs) (forEach f xs) (fun _ => I []) E := by
  induction xs with
  | nil => exact triple_pure hnil fun _ _ h => h
  | cons x xs ih => exact triple_bind (hstep x xs) fun _ => ih

/-- What a triple says about the program of the task. -/
theorem Triple.program {post : Except ε α × μ → W → Prop} (h : Triple life P t Q E)
    (hQ : ∀ value m u, (life.alive u → Q value u) → post (.ok value, m) u)
    (hE : ∀ error m u, (life.alive u → E error u) → post (.error error, m) u)
    (memory : μ) {w : W} (hw : c.valid w) (hP : life.alive w → P w) :
    EffectProgram.Safe c post (t memory) w :=
  (h memory w hw hP).program (fun value m u hout => hQ value m u hout)
    fun error m u hout => hE error m u hout

-- from here on triples are put together by the rules alone
attribute [irreducible] Triple

end Task
end EffectProgram
