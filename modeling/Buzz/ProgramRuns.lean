import Buzz.ProcessPool

/-!
# Runs that can happen

The dual of safety: some choice of replies takes a program to its end. A run
may be interrupted at given points, where the other threads change the world
and the program then goes on; one that never goes on was killed there. The rules
follow the program as those of `Safe` do, and a feasible run of one thread is a
part of a run of the pool.
-/

namespace EffectProgram

/-- An interruption: what holds when it comes and how the world may look after it. -/
structure Pause (W : Type) where
  here : W → Prop
  resumes : W → W → Prop

/-- The end of a thread that is killed where `here` holds. -/
def Pause.kill {W : Type} (here : W → Prop) : Pause W := ⟨here, fun _ _ => False⟩

section Feasible

variable {W ρ : Type} {reply : ρ → Type} {α β : Type}
  {commits : W → (request : ρ) → reply request → W → Prop}

inductive Feasible (commits : W → (request : ρ) → reply request → W → Prop)
    (post : α → W → Prop) : List (Pause W) → Program ρ reply α → W → Prop where
  | done {value : α} {w : W} : post value w → Feasible commits post [] (.pure value) w
  | call {pauses : List (Pause W)} {request : ρ} {next : reply request → Program ρ reply α}
      {answer : reply request} {w u : W} : commits w request answer u →
      Feasible commits post pauses (next answer) u →
      Feasible commits post pauses (.call request next) w
  | pause {pause : Pause W} {pauses : List (Pause W)} {p : Program ρ reply α} {w : W} :
      pause.here w → (∀ u, pause.resumes w u → Feasible commits post pauses p u) →
      Feasible commits post (pause :: pauses) p w

theorem Feasible.mono {post goal : α → W → Prop} {pauses : List (Pause W)}
    {p : Program ρ reply α} {w : W} (h : Feasible commits post pauses p w)
    (himp : ∀ value u, post value u → goal value u) : Feasible commits goal pauses p w := by
  induction h with
  | done hpost => exact .done (himp _ _ hpost)
  | call hcommit _ ih => exact .call hcommit ih
  | pause hhere _ ih => exact .pause hhere ih

theorem Feasible.bind {mid : α → W → Prop} {post : β → W → Prop} {pauses later : List (Pause W)}
    {p : Program ρ reply α} {f : α → Program ρ reply β} {w : W}
    (h : Feasible commits mid pauses p w)
    (hf : ∀ value u, mid value u → Feasible commits post later (f value) u) :
    Feasible commits post (pauses ++ later) (p.bind f) w := by
  induction h with
  | done hmid => exact hf _ _ hmid
  | call hcommit _ ih => exact .call hcommit ih
  | pause hhere _ ih => exact .pause hhere ih

theorem Feasible.weaken {post : α → W → Prop} {here there : W → Prop} {p : Program ρ reply α}
    {w : W} (h : Feasible commits post [Pause.kill here] p w) (himp : ∀ u, here u → there u) :
    Feasible commits post [Pause.kill there] p w := by
  generalize hpauses : [Pause.kill here] = remaining at h
  induction h with
  | done _ => cases hpauses
  | call hcommit _ ih => exact .call hcommit (ih hpauses)
  | pause hhere _ _ =>
      obtain ⟨rfl, rfl⟩ := List.cons_eq_cons.mp hpauses
      exact .pause (himp _ hhere) fun _ hfalse => hfalse.elim

variable {ι : Type} {α : ι → Type} [DecidableEq ι] {system : System ι W ρ reply α}

variable {start pool : Pool ι W ρ reply α} {i : ι} {p : Program ρ reply (α i)}
  {post : α i → W → Prop} {pause : Pause W} {pauses : List (Pause W)}

/-- In the pool the thread gets to its next interruption. -/
theorem PoolReach.interrupt (hreach : PoolReach system start pool)
    (hthread : pool.threads i = some p)
    (h : Feasible (system.commits i) post (pause :: pauses) p pool.world) :
    ∃ q v, PoolReach system start ⟨v, Function.update pool.threads i (some q)⟩ ∧
      pause.here v ∧ ∀ u, pause.resumes v u → Feasible (system.commits i) post pauses q u := by
  generalize hpauses : pause :: pauses = remaining at h
  generalize hworld : pool.world = w at h
  induction h generalizing pool with
  | done _ => cases hpauses
  | @call _ request next answer w u hcommit _ ih =>
      subst hworld
      obtain ⟨q, v, hreach', hhere, hlater⟩ :=
        ih (hreach.step (.commit hthread hcommit)) (Function.update_self ..) hpauses rfl
      rw [Function.update_idem] at hreach'
      exact ⟨q, v, hreach', hhere, hlater⟩
  | @pause _ _ p w hhere hlater _ =>
      obtain ⟨rfl, rfl⟩ := List.cons_eq_cons.mp hpauses
      refine ⟨p, w, ?_, hhere, hlater⟩
      rw [← hthread, Function.update_eq_self, ← hworld]
      exact hreach

/-- In the pool the thread gets to its end. -/
theorem PoolReach.finish (hreach : PoolReach system start pool)
    (hthread : pool.threads i = some p) (h : Feasible (system.commits i) post [] p pool.world) :
    ∃ value v, PoolReach system start ⟨v, Function.update pool.threads i (some (.pure value))⟩ ∧
      post value v := by
  generalize hpauses : ([] : List (Pause W)) = remaining at h
  generalize hworld : pool.world = w at h
  induction h generalizing pool with
  | @done value w hpost =>
      refine ⟨value, w, ?_, hpost⟩
      rw [← hthread, Function.update_eq_self, ← hworld]
      exact hreach
  | @call _ request next answer w u hcommit _ ih =>
      subst hworld
      obtain ⟨value, v, hreach', hpost⟩ :=
        ih (hreach.step (.commit hthread hcommit)) (Function.update_self ..) hpauses rfl
      rw [Function.update_idem] at hreach'
      exact ⟨value, v, hreach', hpost⟩
  | pause _ _ _ => cases hpauses

/-- A thread is launched and gets to its first interruption. -/
theorem PoolReach.launch_interrupt (hreach : PoolReach system start pool)
    (hidle : pool.threads i = none) (hlaunch : system.launches i pool.world p)
    (h : Feasible (system.commits i) post (pause :: pauses) p pool.world) :
    ∃ q v, PoolReach system start ⟨v, Function.update pool.threads i (some q)⟩ ∧
      pause.here v ∧ ∀ u, pause.resumes v u → Feasible (system.commits i) post pauses q u := by
  obtain ⟨q, v, hreach', hhere, hlater⟩ :=
    (hreach.step (.launch hidle hlaunch)).interrupt (Function.update_self ..) h
  rw [Function.update_idem] at hreach'
  exact ⟨q, v, hreach', hhere, hlater⟩

/-- A thread is launched, runs through and stops again. -/
theorem PoolReach.visit (hreach : PoolReach system start pool)
    (hidle : pool.threads i = none) (hlaunch : system.launches i pool.world p)
    (h : Feasible (system.commits i) post [] p pool.world) :
    ∃ value v, post value v ∧
      ∀ u, system.stops i v u → PoolReach system start ⟨u, pool.threads⟩ := by
  obtain ⟨value, v, hreach', hpost⟩ :=
    (hreach.step (.launch hidle hlaunch)).finish (Function.update_self ..) h
  refine ⟨value, v, hpost, fun u hstop => ?_⟩
  have hstopped := hreach'.step (PoolStep.stop (Function.update_self ..) hstop)
  rwa [Function.update_idem, Function.update_idem, ← hidle, Function.update_eq_self] at hstopped

end Feasible

/-- A run without interruptions, in a contract whose worlds are all valid. -/
theorem Feasible.run {W ρ α : Type} {reply : ρ → Type} {c : Contract W ρ reply}
    {p : Program ρ reply α} {post : α → W → Prop} {w : W} (hvalid : ∀ u, c.valid u)
    (h : Feasible c.commits post [] p w) : ∃ value v, Run c p w value v ∧ post value v := by
  generalize hpauses : ([] : List (Pause W)) = remaining at h
  induction h with
  | @done value w hpost => exact ⟨value, w, .done (hvalid w) (c.rely_refl w), hpost⟩
  | call hcommit _ ih =>
      obtain ⟨value, v, hrun, hpost⟩ := ih hpauses
      exact ⟨value, v, .call (hvalid _) (c.rely_refl _) hcommit hrun, hpost⟩
  | pause _ _ _ => cases hpauses

namespace Task

variable {W ρ : Type} {reply : ρ → Type} {μ ε α β : Type}
variable {t : Task ρ reply μ ε α} {post : Except ε α → μ → W → Prop}

def Feasible (commits : W → (request : ρ) → reply request → W → Prop) (pauses : List (Pause W))
    (post : Except ε α → μ → W → Prop) (t : Task ρ reply μ ε α) (memory : μ) (w : W) : Prop :=
  EffectProgram.Feasible commits (fun out => post out.1 out.2) pauses (t memory) w

variable {commits : W → (request : ρ) → reply request → W → Prop} {pauses : List (Pause W)}
  {memory : μ} {w : W}

theorem Feasible.mono {post goal : Except ε α → μ → W → Prop}
    (h : Feasible commits pauses post t memory w)
    (himp : ∀ out m u, post out m u → goal out m u) : Feasible commits pauses goal t memory w :=
  EffectProgram.Feasible.mono h fun out u => himp out.1 out.2 u

theorem feasible_pure {value : α} (h : post (.ok value) memory w) :
    Feasible commits [] post (pure value : Task ρ reply μ ε α) memory w :=
  .done h

theorem feasible_fail {error : ε} (h : post (.error error) memory w) :
    Feasible commits [] post (fail error : Task ρ reply μ ε α) memory w :=
  .done h

theorem feasible_getMemory {post : Except ε μ → μ → W → Prop} (h : post (.ok memory) memory w) :
    Feasible commits [] post (getMemory : Task ρ reply μ ε μ) memory w :=
  .done h

theorem feasible_setMemory {next : μ} {post : Except ε Unit → μ → W → Prop}
    (h : post (.ok ()) next w) :
    Feasible commits [] post (setMemory next : Task ρ reply μ ε Unit) memory w :=
  .done h

theorem feasible_perform {request : ρ} {answer : reply request} {u : W}
    {post : Except ε (reply request) → μ → W → Prop} (hcommit : commits w request answer u)
    (h : post (.ok answer) memory u) :
    Feasible commits [] post (perform request : Task ρ reply μ ε _) memory w :=
  .call hcommit (.done h)

theorem feasible_pause {pause : Pause W} (hhere : pause.here w)
    (h : ∀ u, pause.resumes w u → Feasible commits pauses post t memory u) :
    Feasible commits (pause :: pauses) post t memory w :=
  .pause hhere h

theorem feasible_kill {here : W → Prop} (hhere : here w) :
    Feasible commits [Pause.kill here] post t memory w :=
  .pause hhere fun _ hfalse => hfalse.elim

/-- The first part runs through and the interruptions come in the second. -/
theorem feasible_bind {f : α → Task ρ reply μ ε β} {post : Except ε β → μ → W → Prop}
    (h : Feasible commits [] (fun out m u =>
      match out with
      | .ok value => Feasible commits pauses post (f value) m u
      | .error _ => False) t memory w) : Feasible commits pauses post (t >>= f) memory w := by
  rw [← List.nil_append pauses]
  apply EffectProgram.Feasible.bind h
  rintro ⟨error | value, m⟩ u hout
  · exact hout.elim
  · exact hout

/-- The interruptions come in the first part. -/
theorem feasible_bind_left {f : α → Task ρ reply μ ε β} {post : Except ε β → μ → W → Prop}
    (h : Feasible commits pauses (fun out m u =>
      match out with
      | .ok value => Feasible commits [] post (f value) m u
      | .error error => post (.error error) m u) t memory w) :
    Feasible commits pauses post (t >>= f) memory w := by
  rw [← List.append_nil pauses]
  apply EffectProgram.Feasible.bind h
  rintro ⟨error | value, m⟩ u hout
  · exact .done hout
  · exact hout

theorem Feasible.program {post : Except ε α × μ → W → Prop}
    (h : Feasible commits pauses (fun out m u => post (out, m) u) t memory w) :
    EffectProgram.Feasible commits post pauses (t memory) w :=
  h

theorem Feasible.weaken {here there : W → Prop}
    (h : Feasible commits [Pause.kill here] post t memory w) (himp : ∀ u, here u → there u) :
    Feasible commits [Pause.kill there] post t memory w :=
  EffectProgram.Feasible.weaken h himp

theorem feasible_result {post : Except ε (Except ε α) → μ → W → Prop}
    (h : Feasible commits pauses (fun out => post (.ok out)) t memory w) :
    Feasible commits pauses post (result t) memory w := by
  rw [← List.append_nil pauses]
  exact EffectProgram.Feasible.bind h fun _ _ hout => .done hout

-- from here on a run of a task is put together by the rules alone
attribute [irreducible] Feasible

end Task
end EffectProgram
