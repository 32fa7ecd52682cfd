import Buzz.EffectProgram

/-!
# Threads that share a world

A pool runs one program for each index at most. A step lets one thread commit a
request, starts a thread, stops one (because it returned or because it died) or
lets the environment move the world. When every thread keeps to its contract
and each guarantee lies within what the others rely on, the world stays valid in
every reachable configuration and each thread keeps the promise of its program.
-/

namespace EffectProgram

variable {ι W ρ : Type} {reply : ρ → Type} {α : ι → Type}

/-- How the threads of a pool act on the world. -/
structure System (ι W ρ : Type) (reply : ρ → Type) (α : ι → Type) where
  commits : ι → W → (request : ρ) → reply request → W → Prop
  launches : (i : ι) → W → Program ρ reply (α i) → Prop
  stops : ι → W → W → Prop
  moves : W → W → Prop

structure Pool (ι W ρ : Type) (reply : ρ → Type) (α : ι → Type) where
  world : W
  threads : (i : ι) → Option (Program ρ reply (α i))

section Steps

variable [DecidableEq ι] (system : System ι W ρ reply α)

inductive PoolStep : Pool ι W ρ reply α → Pool ι W ρ reply α → Prop where
  | commit {pool : Pool ι W ρ reply α} {i : ι} {request : ρ}
      {next : reply request → Program ρ reply (α i)} {answer : reply request} {u : W} :
      pool.threads i = some (.call request next) →
      system.commits i pool.world request answer u →
      PoolStep pool ⟨u, Function.update pool.threads i (some (next answer))⟩
  | launch {pool : Pool ι W ρ reply α} {i : ι} {p : Program ρ reply (α i)} :
      pool.threads i = none → system.launches i pool.world p →
      PoolStep pool ⟨pool.world, Function.update pool.threads i (some p)⟩
  | stop {pool : Pool ι W ρ reply α} {i : ι} {p : Program ρ reply (α i)} {u : W} :
      pool.threads i = some p → system.stops i pool.world u →
      PoolStep pool ⟨u, Function.update pool.threads i none⟩
  | move {pool : Pool ι W ρ reply α} {u : W} :
      system.moves pool.world u → PoolStep pool ⟨u, pool.threads⟩

inductive PoolReach (start : Pool ι W ρ reply α) : Pool ι W ρ reply α → Prop where
  | refl : PoolReach start start
  | step {pool next : Pool ι W ρ reply α} : PoolReach start pool →
      PoolStep system pool next → PoolReach start next

theorem PoolReach.trans {system : System ι W ρ reply α} {a b c : Pool ι W ρ reply α}
    (hab : PoolReach system a b) (hbc : PoolReach system b c) : PoolReach system a c := by
  induction hbc with
  | refl => exact hab
  | step _ hstep ih => exact ih.step hstep

/-- What every configuration satisfies may be used in a narrower account of the steps. -/
theorem PoolReach.refine {system finer : System ι W ρ reply α} {start pool : Pool ι W ρ reply α}
    {invariant : Pool ι W ρ reply α → Prop} (hstart : invariant start)
    (hstep : ∀ a b, invariant a → PoolStep system a b → invariant b ∧ PoolStep finer a b)
    (hreach : PoolReach system start pool) : invariant pool ∧ PoolReach finer start pool := by
  induction hreach with
  | refl => exact ⟨hstart, .refl⟩
  | step _ h ih =>
      obtain ⟨hnext, hfiner⟩ := hstep _ _ ih.1 h
      exact ⟨hnext, ih.2.step hfiner⟩

/-- Contracts for all threads over one notion of a valid world. `change` bounds
every step of the pool. -/
structure Discipline (system : System ι W ρ reply α) where
  valid : W → Prop
  rely : ι → W → W → Prop
  guar : ι → W → W → Prop
  change : W → W → Prop
  post : (i : ι) → α i → W → Prop
  rely_refl : ∀ i w, rely i w w
  rely_trans : ∀ i u v w, rely i u v → rely i v w → rely i u w
  guar_rely : ∀ i j w u, i ≠ j → valid w → valid u → guar i w u → rely j w u
  guar_change : ∀ i w u, valid w → valid u → guar i w u → change w u
  change_refl : ∀ w, change w w
  stops_valid : ∀ i w u, valid w → system.stops i w u → valid u
  stops_rely : ∀ i j w u, i ≠ j → valid w → system.stops i w u → rely j w u
  stops_change : ∀ i w u, valid w → system.stops i w u → change w u
  moves_valid : ∀ w u, valid w → system.moves w u → valid u
  moves_rely : ∀ i w u, valid w → system.moves w u → rely i w u
  moves_change : ∀ w u, valid w → system.moves w u → change w u

namespace Discipline

variable {system : System ι W ρ reply α} (d : Discipline system)

def contract (i : ι) : Contract W ρ reply where
  valid := d.valid
  commits := system.commits i
  rely := d.rely i
  guar := d.guar i
  rely_refl := d.rely_refl i
  rely_trans := d.rely_trans i

/-- Every program that can be launched is safe where it is launched. -/
def LaunchesSafe : Prop :=
  ∀ i w p, d.valid w → system.launches i w p → Safe (d.contract i) (d.post i) p w

structure Holds (pool : Pool ι W ρ reply α) : Prop where
  valid : d.valid pool.world
  safe : ∀ i p, pool.threads i = some p → Safe (d.contract i) (d.post i) p pool.world

variable {d}

theorem safe_update {threads : (i : ι) → Option (Program ρ reply (α i))} {w u : W} {i : ι}
    {q : Option (Program ρ reply (α i))}
    (hsafe : ∀ j p, threads j = some p → Safe (d.contract j) (d.post j) p w)
    (hrely : ∀ j, i ≠ j → d.rely j w u)
    (hq : ∀ p, q = some p → Safe (d.contract i) (d.post i) p u) :
    ∀ j p, Function.update threads i q j = some p → Safe (d.contract j) (d.post j) p u := by
  intro j p hp
  by_cases hij : j = i
  · subst hij
    rw [Function.update_self] at hp
    exact hq p hp
  · rw [Function.update_of_ne hij] at hp
    exact (hsafe j p hp).of_rely (hrely j (Ne.symm hij))

/-- One step keeps the invariant and changes the world within bounds. -/
theorem Holds.step {pool next : Pool ι W ρ reply α} (hlaunch : d.LaunchesSafe)
    (h : d.Holds pool) (hstep : PoolStep system pool next) :
    d.Holds next ∧ d.change pool.world next.world := by
  cases hstep with
  | @commit i request cont answer u hthread hcommit =>
      obtain ⟨hu, hguar, hnext⟩ :=
        h.safe i _ hthread pool.world h.valid (d.rely_refl i _) answer u hcommit
      have hupdate := safe_update h.safe
        (fun j hij => d.guar_rely i j _ _ hij h.valid hu hguar)
        (fun p hp => Option.some_inj.mp hp ▸ hnext)
      exact ⟨⟨hu, hupdate⟩, d.guar_change i _ _ h.valid hu hguar⟩
  | @launch i p hthread hlaunches =>
      have hupdate := safe_update (q := some p) h.safe (fun j _ => d.rely_refl j _)
        (fun q hq => Option.some_inj.mp hq ▸ hlaunch i _ p h.valid hlaunches)
      exact ⟨⟨h.valid, hupdate⟩, d.change_refl _⟩
  | @stop i p u hthread hstop =>
      have hupdate := safe_update (q := none) h.safe
        (fun j hij => d.stops_rely i j _ _ hij h.valid hstop) (fun p hp => by cases hp)
      exact ⟨⟨d.stops_valid i _ _ h.valid hstop, hupdate⟩, d.stops_change i _ _ h.valid hstop⟩
  | @move u hmove =>
      refine ⟨⟨d.moves_valid _ _ h.valid hmove, fun j p hp => ?_⟩, d.moves_change _ _ h.valid hmove⟩
      exact (h.safe j p hp).of_rely (d.moves_rely j _ _ h.valid hmove)

theorem Holds.reach {start pool : Pool ι W ρ reply α} (hlaunch : d.LaunchesSafe)
    (h : d.Holds start) (hreach : PoolReach system start pool) : d.Holds pool := by
  induction hreach with
  | refl => exact h
  | step _ hstep ih => exact (ih.step hlaunch hstep).1

/-- A relation that bounds every step and composes bounds every run. -/
theorem Holds.reach_change {start pool : Pool ι W ρ reply α} (hlaunch : d.LaunchesSafe)
    (htrans : ∀ u v w, d.change u v → d.change v w → d.change u w)
    (h : d.Holds start) (hreach : PoolReach system start pool) :
    d.change start.world pool.world := by
  induction hreach with
  | refl => exact d.change_refl _
  | step hreach hstep ih =>
      exact htrans _ _ _ ih ((h.reach hlaunch hreach).step hlaunch hstep).2

omit [DecidableEq ι] in
theorem Holds.post {pool : Pool ι W ρ reply α} (h : d.Holds pool) {i : ι} {value : α i}
    (hthread : pool.threads i = some (.pure value)) : d.post i value pool.world :=
  h.safe i _ hthread pool.world h.valid (d.rely_refl i _)

/-- From some moment on `kept` holds for good, and more may be promised to the threads. -/
def since (d : Discipline system) (kept : W → Prop) (post : (i : ι) → α i → W → Prop)
    (hguar : ∀ i w u, d.guar i w u → kept w → kept u)
    (hstops : ∀ i w u, system.stops i w u → kept w → kept u)
    (hmoves : ∀ w u, system.moves w u → kept w → kept u) : Discipline system where
  valid w := d.valid w ∧ kept w
  rely := d.rely
  guar := d.guar
  change w u := d.change w u ∧ (kept w → kept u)
  post := post
  rely_refl := d.rely_refl
  rely_trans := d.rely_trans
  guar_rely i j w u hij hw hu := d.guar_rely i j w u hij hw.1 hu.1
  guar_change i w u hw hu h := ⟨d.guar_change i w u hw.1 hu.1 h, hguar i w u h⟩
  change_refl w := ⟨d.change_refl w, id⟩
  stops_valid i w u hw h := ⟨d.stops_valid i w u hw.1 h, hstops i w u h hw.2⟩
  stops_rely i j w u hij hw := d.stops_rely i j w u hij hw.1
  stops_change i w u hw h := ⟨d.stops_change i w u hw.1 h, hstops i w u h⟩
  moves_valid w u hw h := ⟨d.moves_valid w u hw.1 h, hmoves w u h hw.2⟩
  moves_rely i w u hw := d.moves_rely i w u hw.1
  moves_change w u hw h := ⟨d.moves_change w u hw.1 h, hmoves w u h⟩

section Since

variable {kept : W → Prop} {post : (i : ι) → α i → W → Prop}
  {hguar : ∀ i w u, d.guar i w u → kept w → kept u}
  {hstops : ∀ i w u, system.stops i w u → kept w → kept u}
  {hmoves : ∀ w u, system.moves w u → kept w → kept u}

omit [DecidableEq ι] in
theorem safe_since {i : ι} {goal : α i → W → Prop} {p : Program ρ reply (α i)} {w : W}
    (h : Safe (d.contract i) goal p w) :
    Safe ((d.since kept post hguar hstops hmoves).contract i) goal p w := by
  induction p generalizing w with
  | pure value => exact fun t ht hrely => h t ht.1 hrely
  | call request next ih =>
      intro t ht hrely answer u hcommit
      obtain ⟨hu, hg, hnext⟩ := h t ht.1 hrely answer u hcommit
      exact ⟨⟨hu, hguar i t u hg ht.2⟩, hg, ih answer hnext⟩

omit [DecidableEq ι] in
theorem Holds.since {pool : Pool ι W ρ reply α} (h : d.Holds pool) (hkept : kept pool.world)
    (hpost : ∀ i p, pool.threads i = some p → ∀ value w, d.post i value w → post i value w) :
    (d.since kept post hguar hstops hmoves).Holds pool where
  valid := ⟨h.valid, hkept⟩
  safe i p hp := safe_since ((h.safe i p hp).mono fun value w _ => hpost i p hp value w)

end Since

end Discipline
end Steps
end EffectProgram
