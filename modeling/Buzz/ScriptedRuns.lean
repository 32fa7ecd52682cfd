import Buzz.ProcessPool

/-!
# Runs of a pool that are computed

A script says which thread acts next and how it is answered. Playing it either
gets stuck or leads to a configuration that the pool can reach, so that a run is
exhibited by evaluation.
-/

namespace EffectProgram

variable {ι W ρ : Type} {reply : ρ → Type} {α : ι → Type}

/-- What the thread has returned, if it has come to its end. -/
def Pool.returned (pool : Pool ι W ρ reply α) (i : ι) : Option (α i) :=
  match pool.threads i with
  | some (.pure value) => some value
  | _ => none

theorem Pool.threads_of_returned {pool : Pool ι W ρ reply α} {i : ι} {value : α i}
    (h : pool.returned i = some value) : pool.threads i = some (.pure value) := by
  unfold Pool.returned at h
  split at h
  · rename_i other hthread
    rw [hthread, Option.some_inj.mp h]
  · cases h

variable [DecidableEq ι]

/-- Answers that the system allows, each chosen by a mode, and programs that it launches. -/
structure Script (system : System ι W ρ reply α) (M L : Type) where
  answer : M → ι → W → (request : ρ) → Option (reply request × W)
  program : (i : ι) → L → Program ρ reply (α i)
  launchable : ι → W → L → Bool
  stopped : ι → W → Option W
  moved : M → W → Option W
  answer_sound : ∀ m i w request a u, answer m i w request = some (a, u) →
    system.commits i w request a u
  launch_sound : ∀ i w l, launchable i w l = true → system.launches i w (program i l)
  stop_sound : ∀ i w u, stopped i w = some u → system.stops i w u
  move_sound : ∀ m w u, moved m w = some u → system.moves w u

inductive Act (ι M L : Type) where
  | launch (i : ι) (l : L)
  | steps (i : ι) (m : M) (count : ℕ)
  | stop (i : ι)
  | move (m : M)

namespace Script

variable {system : System ι W ρ reply α} {M L : Type} (script : Script system M L)

/-- The thread gets the given number of answers, or fewer if it returns before. -/
def serve (i : ι) (m : M) :
    ℕ → Program ρ reply (α i) → Pool ι W ρ reply α → Option (Pool ι W ρ reply α)
  | 0, _, pool => some pool
  | _ + 1, .pure _, pool => some pool
  | count + 1, .call request next, pool =>
      match script.answer m i pool.world request with
      | none => none
      | some (a, u) => serve i m count (next a)
          ⟨u, Function.update pool.threads i (some (next a))⟩

def perform (pool : Pool ι W ρ reply α) : Act ι M L → Option (Pool ι W ρ reply α)
  | .launch i l =>
      if (pool.threads i).isNone && script.launchable i pool.world l then
        some ⟨pool.world, Function.update pool.threads i (some (script.program i l))⟩
      else none
  | .steps i m count =>
      match pool.threads i with
      | some p => script.serve i m count p pool
      | none => none
  | .stop i =>
      match pool.threads i, script.stopped i pool.world with
      | some _, some u => some ⟨u, Function.update pool.threads i none⟩
      | _, _ => none
  | .move m => (script.moved m pool.world).map fun u => ⟨u, pool.threads⟩

def play : List (Act ι M L) → Pool ι W ρ reply α → Option (Pool ι W ρ reply α)
  | [], pool => some pool
  | act :: rest, pool => (script.perform pool act).bind (play rest)

variable {script} {pool next : Pool ι W ρ reply α}

theorem reach_serve {i : ι} {m : M} (count : ℕ) :
    ∀ {p : Program ρ reply (α i)} {pool : Pool ι W ρ reply α}, pool.threads i = some p →
      script.serve i m count p pool = some next → PoolReach system pool next := by
  induction count with
  | zero =>
      intro p pool _ h
      obtain rfl : pool = next := Option.some_inj.mp h
      exact .refl
  | succ count ih =>
      intro p pool hthread h
      cases p with
      | pure value =>
          obtain rfl : pool = next := Option.some_inj.mp h
          exact .refl
      | call request cont =>
          simp only [serve] at h
          split at h
          · cases h
          · rename_i a u hanswer
            have hstep : PoolReach system pool
                ⟨u, Function.update pool.threads i (some (cont a))⟩ :=
              PoolReach.refl.step (.commit hthread (script.answer_sound _ _ _ _ _ _ hanswer))
            exact hstep.trans (ih (Function.update_self ..) h)

theorem reach_perform {act : Act ι M L} (h : script.perform pool act = some next) :
    PoolReach system pool next := by
  cases act with
  | launch i l =>
      simp only [perform] at h
      split_ifs at h with hmay
      rw [Bool.and_eq_true, Option.isNone_iff_eq_none] at hmay
      cases h
      exact PoolReach.refl.step (.launch hmay.1 (script.launch_sound _ _ _ hmay.2))
  | steps i m count =>
      simp only [perform] at h
      split at h
      · rename_i p hthread
        exact reach_serve count hthread h
      · cases h
  | stop i =>
      simp only [perform] at h
      split at h
      · rename_i p u hthread hstopped
        cases h
        exact PoolReach.refl.step (.stop hthread (script.stop_sound _ _ _ hstopped))
      · cases h
  | move m =>
      obtain ⟨u, hmoved, rfl⟩ := Option.map_eq_some_iff.mp h
      exact PoolReach.refl.step (.move (script.move_sound _ _ _ hmoved))

theorem reach_play (acts : List (Act ι M L)) :
    ∀ {pool : Pool ι W ρ reply α}, script.play acts pool = some next →
      PoolReach system pool next := by
  induction acts with
  | nil =>
      intro pool h
      obtain rfl : pool = next := Option.some_inj.mp h
      exact .refl
  | cons act rest ih =>
      intro pool h
      obtain ⟨mid, hmid, hrest⟩ := Option.bind_eq_some_iff.mp h
      exact (reach_perform hmid).trans (ih hrest)

end Script
end EffectProgram
