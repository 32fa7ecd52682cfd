import Buzz.SecretStore

/-!
# When a wipe is final

Without stores the keychain only loses entries. What a wipe has cleared stays
clear as long as no load puts an older map back into the cache, and a load does
so only if it read the blob before the wipe and comes to the cache after it.
-/

namespace Buzz.Keychain

open EffectProgram

section Policy

variable (platform : KeychainPlatform) (process : ℕ) (keys : String → Prop)

/-- No probe of the process sees an entry that an older version kept for the key. -/
def LegacyGone (w : KeychainWorld) (key : String) : Prop :=
  (key ≠ blobKey → w.entries key = none) ∧
    (platform.macos = true → platform.entitled process = true → w.protectedEntries key = false)

/-- Loads, probes and wipes of one process, in any order. -/
def withoutStores : KeychainPolicy where
  starts i := i.process = process ∧ i.operation.isStore = false
  step _ _ _ _ := True

instance : DecidablePred (withoutStores process).starts :=
  fun i => inferInstanceAs (Decidable (i.process = process ∧ i.operation.isStore = false))

/-- When a wipe clears the cache, no load has a map that it has not offered to the cache yet; and
where a wipe does not get the map of the blob, its keys have no older entries, apart from those that
are removed anyway. -/
def quietWipes : KeychainPolicy where
  starts := (withoutStores process).starts
  step i w request answer := i.operation = .wipe →
    match request, answer with
    | .setCache _ _, _ => ∀ j ∈ w.pending, j = i
    | .getPassword _ _, .ok (.secrets _) => True
    | .getPassword _ _, _ => ∀ key, keys key → key ≠ "identity" → key ≠ blobKey →
        LegacyGone platform process w key
    | _, _ => True

/-- Neither the keychain nor the cache has any of the keys, and no load is about to change that. -/
structure Cleared (w : KeychainWorld) : Prop where
  cache : w.cache process = none
  blob : w.blob = none
  pending : ∀ i, i ∉ w.pending
  gone : ∀ key, keys key → LegacyGone platform process w key

/-- Entries disappear and never come back. -/
structure FewerEntries (w u : KeychainWorld) : Prop where
  entries : ∀ key, u.entries key = none ∨ u.entries key = w.entries key
  protectedEntries : ∀ key, u.protectedEntries key = false ∨
    u.protectedEntries key = w.protectedEntries key

structure WipeRely (i : KeychainCall) (w u : KeychainWorld) : Prop where
  fewer : FewerEntries w u
  pending : i ∈ u.pending ↔ i ∈ w.pending
  cleared : Cleared platform process keys w → Cleared platform process keys u

structure WipeGuar (i : KeychainCall) (w u : KeychainWorld) : Prop where
  fewer : FewerEntries w u
  others : ∀ j, j ≠ i → (j ∈ u.pending ↔ j ∈ w.pending)
  cleared : Cleared platform process keys w → Cleared platform process keys u

variable {platform process keys} {w u v : KeychainWorld} {i j : KeychainCall}

theorem FewerEntries.refl (w : KeychainWorld) : FewerEntries w w :=
  ⟨fun _ => .inr rfl, fun _ => .inr rfl⟩

theorem FewerEntries.trans (hwu : FewerEntries w u) (huv : FewerEntries u v) :
    FewerEntries w v where
  entries key := by
    rcases huv.entries key with hv | hv
    · exact .inl hv
    · exact (hwu.entries key).imp hv.trans hv.trans
  protectedEntries key := by
    rcases huv.protectedEntries key with hv | hv
    · exact .inl hv
    · exact (hwu.protectedEntries key).imp hv.trans hv.trans

theorem FewerEntries.entries_none (h : FewerEntries w u) {key : String}
    (hnone : w.entries key = none) : u.entries key = none :=
  (h.entries key).elim id fun hsame => hsame.trans hnone

theorem FewerEntries.protected_false (h : FewerEntries w u) {key : String}
    (hfalse : w.protectedEntries key = false) : u.protectedEntries key = false :=
  (h.protectedEntries key).elim id fun hsame => hsame.trans hfalse

theorem FewerEntries.legacyGone (h : FewerEntries w u) {key : String}
    (hgone : LegacyGone platform process w key) : LegacyGone platform process u key :=
  ⟨fun hkey => h.entries_none (hgone.1 hkey), fun hmacos hentitled =>
    h.protected_false (hgone.2 hmacos hentitled)⟩

/-- A step that loses entries at most keeps what is cleared, unless it fills the cache or leaves a
load with a map. -/
theorem WipeGuar.of_fewer {after : Bool} (hfewer : FewerEntries w v)
    (hpending : v.pending = w.pending)
    (hkeep : Cleared platform process keys w → after = false ∧ v.cache process = none) :
    WipeGuar platform process keys i w
      { v with pending := marked v.pending i after } where
  fewer := ⟨hfewer.entries, hfewer.protectedEntries⟩
  others j hj := by
    rw [← hpending]
    exact mem_marked_of_ne hj
  cleared hw := {
    cache := (hkeep hw).2
    blob := hfewer.entries_none hw.blob
    pending := fun j => by
      by_cases hj : j = i
      · subst hj
        rw [mem_marked_self, (hkeep hw).1]
        exact Bool.false_ne_true
      · rw [mem_marked_of_ne hj, hpending]
        exact hw.pending j
    gone := fun key hkey => hfewer.legacyGone (hw.gone key hkey) }

theorem cleared_dropped (hw : Cleared platform process keys w) :
    Cleared platform process keys (w.dropped i) where
  cache := hw.cache
  blob := hw.blob
  pending j := by
    by_cases hj : j = i
    · subst hj
      exact fun h => Bool.false_ne_true (mem_marked_self.mp h)
    · exact fun h => hw.pending j ((mem_marked_of_ne hj).mp h)
  gone := hw.gone

variable (platform process keys) (blob : Option RawEntry)

/-- A wipe that returned without an error has cleared everything. -/
def WipePost (i : KeychainCall) (out : KeychainReturn) (w : KeychainWorld) : Prop :=
  i.operation = .wipe → ∀ outcome, out.1 = .ok outcome → Cleared platform process keys w

def wipeDiscipline : Discipline (keychainSystem platform (quietWipes platform process keys)) where
  valid w := ∀ raw, w.blob = some raw → blob = some raw
  rely := WipeRely platform process keys
  guar := WipeGuar platform process keys
  change _ _ := True
  post := WipePost platform process keys
  rely_refl _ w := ⟨.refl w, Iff.rfl, id⟩
  rely_trans _ _ _ _ huv hvw :=
    ⟨huv.fewer.trans hvw.fewer, hvw.pending.trans huv.pending, fun h => hvw.cleared (huv.cleared h)⟩
  guar_rely _ _ _ _ hij _ _ h := ⟨h.fewer, h.others _ (Ne.symm hij), h.cleared⟩
  guar_change _ _ _ _ _ _ := True.intro
  change_refl _ := True.intro
  stops_valid i w u hw hstop := by
    subst hstop
    exact hw
  stops_rely i j w u hij hw hstop := by
    subst hstop
    exact ⟨⟨fun _ => .inr rfl, fun _ => .inr rfl⟩, mem_marked_of_ne (Ne.symm hij),
      cleared_dropped⟩
  stops_change _ _ _ _ _ := True.intro
  moves_valid _ _ _ hmove := hmove.elim
  moves_rely _ _ _ _ hmove := hmove.elim
  moves_change _ _ _ hmove := hmove.elim

end Policy

section Rules

variable {platform : KeychainPlatform} {process : ℕ} {keys : String → Prop}
  {blob : Option RawEntry} {i : KeychainCall} {α : Type}

abbrev WipeTriple (platform : KeychainPlatform) (process : ℕ) (keys : String → Prop)
    (blob : Option RawEntry) (i : KeychainCall) (P : KeychainWorld → Prop) (t : KeychainTask α)
    (Q : α → KeychainWorld → Prop) (E : String → KeychainWorld → Prop) : Prop :=
  Task.Triple (Lifespan.forever ((wipeDiscipline platform process keys blob).contract i)) P t Q E

/-- Assertions that the other calls keep. -/
def Undisturbed (platform : KeychainPlatform) (process : ℕ) (keys : String → Prop)
    (i : KeychainCall) (P : KeychainWorld → Prop) : Prop :=
  ∀ w u, WipeRely platform process keys i w u → P w → P u

/-- Assertions that only lost entries can make true. -/
def Lasting (P : KeychainWorld → Prop) : Prop := ∀ w u, FewerEntries w u → P w → P u

variable {P R : KeychainWorld → Prop} {E : String → KeychainWorld → Prop}

theorem Lasting.undisturbed (hP : Lasting P) : Undisturbed platform process keys i P :=
  fun w u hrely h => hP w u hrely.fewer h

theorem Lasting.and (hP : Lasting P) (hR : Lasting R) : Lasting fun w => P w ∧ R w :=
  fun w u hfewer h => ⟨hP w u hfewer h.1, hR w u hfewer h.2⟩

theorem Undisturbed.toStable (hP : Undisturbed platform process keys i P) :
    Stable (Lifespan.forever ((wipeDiscipline platform process keys blob).contract i)) P :=
  fun w u _ hrely _ h => hP w u hrely h

theorem Undisturbed.and (hP : Undisturbed platform process keys i P)
    (hR : Undisturbed platform process keys i R) :
    Undisturbed platform process keys i fun w => P w ∧ R w :=
  fun w u hrely h => ⟨hP w u hrely h.1, hR w u hrely h.2⟩

/-- What a request does to the world before the pending loads are brought up to date. -/
structure WipeEffect (platform : KeychainPlatform) (process : ℕ) (keys : String → Prop)
    (w v : KeychainWorld) (after : Bool) : Prop where
  fewer : FewerEntries w v
  pending : v.pending = w.pending
  kept : Cleared platform process keys w → after = false ∧ v.cache process = none

theorem triple_request {request : KeychainRequest} {Q : request.Reply → KeychainWorld → Prop}
    (hP : Undisturbed platform process keys i P)
    (hQ : ∀ answer, Undisturbed platform process keys i (Q answer))
    (h : ∀ w answer v, (∀ raw, w.blob = some raw → blob = some raw) → P w →
      (quietWipes platform process keys).step i w request answer →
      w.Answers platform.entitled i request answer v →
      WipeEffect platform process keys w v (request.pendingAfter answer) ∧
      Q answer { v with pending := marked v.pending i (request.pendingAfter answer) }) :
    WipeTriple platform process keys blob i P (ask request) Q E := by
  apply Task.triple_perform hP.toStable fun answer => (hQ answer).toStable
  rintro w answer u hw hpre ⟨hstep, v, hv, rfl⟩
  obtain ⟨heffect, hpost⟩ := h w answer v hw hpre hstep hv
  refine ⟨fun raw hraw => ?_, .of_fewer heffect.fewer heffect.pending heffect.kept, hpost⟩
  rcases heffect.fewer.entries blobKey with hnone | hsame
  · exact absurd (hraw.symm.trans hnone) (Option.some_ne_none raw)
  · exact hw raw (hsame.symm.trans hraw)

/-- A request that at most takes or gives back the lock. -/
theorem WipeEffect.of_lock {w v : KeychainWorld} {lock : Option KeychainCall}
    (h : v = { w with lock := lock }) : WipeEffect platform process keys w v false := by
  subst h
  exact ⟨⟨fun _ => .inr rfl, fun _ => .inr rfl⟩, rfl, fun hw => ⟨rfl, hw.cache⟩⟩

theorem WipeEffect.of_same {w v : KeychainWorld} (h : v = w) :
    WipeEffect platform process keys w v false := by
  subst h
  exact ⟨.refl v, rfl, fun hw => ⟨rfl, hw.cache⟩⟩

/-- What lasts is still true after a step that changes nothing. -/
theorem lasting_unchanged {w v : KeychainWorld} (hP : Lasting P) (hpre : P w) (h : v = w) :
    WipeEffect platform process keys w v false ∧
      P { v with pending := marked v.pending i false } := by
  subst h
  exact ⟨.of_same rfl, hP v _ ⟨fun _ => .inr rfl, fun _ => .inr rfl⟩ hpre⟩

/-- What is known after each kind of answer to the read of the blob. -/
theorem triple_readAnswer {S : Except KeyringError RawEntry → KeychainWorld → Prop}
    {Q : Option RawEntry → KeychainWorld → Prop} {loading : Bool}
    (hask : WipeTriple platform process keys blob i P (ask (.getPassword blobKey loading)) S E)
    (hS : ∀ answer, Undisturbed platform process keys i (S answer))
    (hsome : ∀ raw w, S (.ok raw) w → Q (some raw) w)
    (hnone : ∀ w, S (.error .noEntry) w → Q none w)
    (hfail : ∀ error message w, S (.error error) w → E message w) :
    WipeTriple platform process keys blob i P (readBlobRaw loading) Q E := by
  unfold readBlobRaw
  refine Task.triple_bind hask ?_
  rintro ((e | _ | e) | raw)
  · exact Task.triple_fail (hS _).toStable fun w _ h => hfail _ _ w h
  · exact Task.triple_pure (hS _).toStable fun w _ h => hnone w h
  · exact Task.triple_ite (fun _ => Task.triple_fail (hS _).toStable fun w _ h => hfail _ _ w h)
      fun _ => Task.triple_fail (hS _).toStable fun w _ h => hfail _ _ w h
  · exact Task.triple_pure (hS _).toStable fun w _ h => hsome raw w h

end Rules

section Readers

variable {platform : KeychainPlatform} {process : ℕ} {keys : String → Prop}
  {blob : Option RawEntry} {i : KeychainCall} {late : Prop}
  {E : String → KeychainWorld → Prop}

/-- What a call may take for granted if it was made after a wipe. -/
def AfterWipe (platform : KeychainPlatform) (process : ℕ) (keys : String → Prop) (late : Prop)
    (w : KeychainWorld) : Prop :=
  late → Cleared platform process keys w

theorem undisturbed_afterWipe :
    Undisturbed platform process keys i (AfterWipe platform process keys late) :=
  fun _ _ hrely h hlate => hrely.cleared (h hlate)

theorem undisturbed_const (p : Prop) : Undisturbed platform process keys i fun _ => p :=
  fun _ _ _ h => h

theorem WipeEffect.afterWipe {w v : KeychainWorld} {after : Bool}
    (h : WipeEffect platform process keys w v after)
    (hpre : AfterWipe platform process keys late w) :
    AfterWipe platform process keys late
      { v with pending := marked v.pending i after } :=
  fun hlate => (WipeGuar.of_fewer h.fewer h.pending h.kept).cleared (hpre hlate)

/-- A request that changes nothing and by which no load comes to hold a map. -/
theorem triple_look {request : KeychainRequest} {seen : request.Reply → Prop}
    (hrequest : ∀ w answer v, AfterWipe platform process keys late w →
      w.Answers platform.entitled i request answer v →
      v = w ∧ request.pendingAfter answer = false ∧ seen answer) :
    WipeTriple platform process keys blob i (AfterWipe platform process keys late) (ask request)
      (fun answer w => AfterWipe platform process keys late w ∧ seen answer) E := by
  apply triple_request undisturbed_afterWipe fun answer =>
    undisturbed_afterWipe.and (undisturbed_const (seen answer))
  intro w answer v _ hpre _ hv
  obtain ⟨hsame, hafter, hseen⟩ := hrequest w answer v hpre hv
  have heffect : WipeEffect platform process keys w v (request.pendingAfter answer) := by
    rw [hafter]
    exact .of_same hsame
  exact ⟨heffect, heffect.afterWipe hpre, hseen⟩

/-- What a load knows about the answer of the keychain: a map in hand makes it pending. -/
def LoadRead (platform : KeychainPlatform) (process : ℕ) (keys : String → Prop) (i : KeychainCall)
    (late : Prop) (out : Option RawEntry) (w : KeychainWorld) : Prop :=
  (AfterWipe platform process keys late w ∧ (late → out = none)) ∧
    ∀ map, out = some (.secrets map) → i ∈ w.pending

theorem undisturbed_loadRead (out : Option RawEntry) :
    Undisturbed platform process keys i (LoadRead platform process keys i late out) := by
  refine (undisturbed_afterWipe.and (undisturbed_const _)).and ?_
  exact fun w u hrely h map hout => hrely.pending.mpr (h map hout)

/-- A read of the blob changes nothing and gives what is there. -/
theorem readsBlob {loading : Bool} {w v : KeychainWorld} {answer : Except KeyringError RawEntry}
    (hv : w.Answers platform.entitled i (.getPassword blobKey loading) answer v) :
    v = w ∧ ∀ raw, answer = .ok raw → w.blob = some raw := by
  rcases answer with (_ | _ | _) | raw
  · exact ⟨hv, fun _ h => nomatch h⟩
  · exact ⟨hv.2, fun _ h => nomatch h⟩
  · exact ⟨hv, fun _ h => nomatch h⟩
  · exact ⟨hv.2, fun other h => Except.ok.inj h ▸ hv.1⟩

theorem triple_lateRead :
    WipeTriple platform process keys blob i (AfterWipe platform process keys late)
      (readBlobRaw true) (LoadRead platform process keys i late)
      (fun _ => AfterWipe platform process keys late) := by
  let S : Except KeyringError RawEntry → KeychainWorld → Prop := fun answer =>
    LoadRead platform process keys i late answer.toOption
  have hS : ∀ answer, Undisturbed platform process keys i (S answer) :=
    fun answer => undisturbed_loadRead answer.toOption
  refine triple_readAnswer (S := S) ?_ hS (fun raw w h => h) (fun w h => h)
    fun error message w h => h.1.1
  apply triple_request undisturbed_afterWipe hS
  intro w answer v _ hpre _ hv
  obtain ⟨rfl, hraw⟩ := readsBlob hv
  have hnothing : Cleared platform process keys v → ∀ raw, answer ≠ .ok raw := by
    intro hcleared raw hanswer
    exact Option.some_ne_none raw ((hraw raw hanswer).symm.trans hcleared.blob)
  rcases answer with error | raw
  · have heffect : WipeEffect platform process keys v v false := .of_same rfl
    exact ⟨heffect, ⟨heffect.afterWipe hpre, fun _ => rfl⟩, fun map hmap => nomatch hmap⟩
  · have heffect : WipeEffect platform process keys v v
        ((KeychainRequest.getPassword blobKey true).pendingAfter (.ok raw)) :=
      ⟨.refl v, rfl, fun hcleared => absurd rfl (hnothing hcleared raw)⟩
    refine ⟨heffect, ⟨heffect.afterWipe hpre, fun hlate => ?_⟩, fun map hmap => ?_⟩
    · exact absurd rfl (hnothing (hpre hlate) raw)
    · cases Option.some_inj.mp hmap
      exact mem_marked_self.mpr rfl

/-- A load that is pending fills the cache only where nothing has been cleared. -/
theorem triple_lateFill (map : Secrets) :
    WipeTriple platform process keys blob i
      (LoadRead platform process keys i late (some (.secrets map))) (ask (.fillCache map))
      (fun _ w => AfterWipe platform process keys late w ∧ (late → some map = none)) E := by
  apply triple_request (undisturbed_loadRead _) fun _ =>
    undisturbed_afterWipe.and (undisturbed_const _)
  rintro w _ v - ⟨⟨-, hnothing⟩, hpending⟩ - rfl
  have hnever : ¬late := fun hlate => nomatch hnothing hlate
  refine ⟨?_, fun hlate => absurd hlate hnever, fun hlate => absurd hlate hnever⟩
  have hbusy : ¬Cleared platform process keys w := fun hcleared =>
    hcleared.pending i (hpending map rfl)
  unfold KeychainWorld.fillCache
  split_ifs with hcache
  · exact ⟨⟨fun _ => .inr rfl, fun _ => .inr rfl⟩, rfl, fun hcleared => absurd hcleared hbusy⟩
  · exact .of_same rfl

/-- After a wipe there is nothing to load. -/
theorem triple_lateLoad (hi : i.process = process) :
    WipeTriple platform process keys blob i (AfterWipe platform process keys late) loadBlob
      (fun out w => AfterWipe platform process keys late w ∧ (late → out = none))
      (fun _ => AfterWipe platform process keys late) := by
  have hcached : WipeTriple platform process keys blob i (AfterWipe platform process keys late)
      (ask .cached) (fun answer w => AfterWipe platform process keys late w ∧
        (late → answer = none)) (fun _ => AfterWipe platform process keys late) := by
    apply triple_look
    rintro w answer v hpre ⟨hcache, hsame⟩
    refine ⟨hsame, rfl, fun hlate => hcache.trans ?_⟩
    rw [hi]
    exact (hpre hlate).cache
  unfold loadBlob
  refine Task.triple_bind hcached ?_
  rintro (_ | map)
  · refine Task.triple_bind (triple_lateRead.weaken fun w _ h => h.1) ?_
    rintro (_ | map | text)
    · exact Task.triple_pure (undisturbed_loadRead _).toStable fun w _ h => ⟨h.1.1, fun _ => rfl⟩
    · refine Task.triple_pure_bind (Task.triple_bind (triple_lateFill map) fun _ => ?_)
      exact Task.triple_pure (undisturbed_afterWipe.and (undisturbed_const _)).toStable
        fun w _ h => h
    · exact Task.triple_fail_bind (undisturbed_loadRead _).toStable fun w _ h => h.1.1
  · exact Task.triple_pure (undisturbed_afterWipe.and (undisturbed_const _)).toStable
      fun w _ h => h

theorem triple_lateProbeKeyring (key : String) :
    WipeTriple platform process keys blob i (AfterWipe platform process keys late)
      (probeLegacyKeyKeyring key) (fun out _ => late → keys key → out ≠ .present) E := by
  have hlook : WipeTriple platform process keys blob i (AfterWipe platform process keys late)
      (ask (.getPassword key false)) (fun answer w => AfterWipe platform process keys late w ∧
        (late → keys key → ∀ raw, answer ≠ .ok raw)) E := by
    apply triple_look
    intro w answer v hpre hv
    rcases answer with (_ | _ | _) | raw
    · exact ⟨hv, rfl, fun _ _ _ h => nomatch h⟩
    · exact ⟨hv.2, rfl, fun _ _ _ h => nomatch h⟩
    · exact ⟨hv, rfl, fun _ _ _ h => nomatch h⟩
    · refine ⟨hv.2, by cases raw <;> rfl, fun hlate hkey _ _ => ?_⟩
      have hcleared := hpre hlate
      have hnone : w.entries key = none := by
        by_cases hblob : key = blobKey
        · exact hblob ▸ hcleared.blob
        · exact (hcleared.gone key hkey).1 hblob
      exact Option.some_ne_none raw (hv.1.symm.trans hnone)
  have hstable : ∀ answer : Except KeyringError RawEntry, Undisturbed platform process keys i
      fun w => AfterWipe platform process keys late w ∧
        (late → keys key → ∀ raw, answer ≠ .ok raw) :=
    fun _ => undisturbed_afterWipe.and (undisturbed_const _)
  unfold probeLegacyKeyKeyring
  refine Task.triple_bind hlook ?_
  rintro ((e | _ | e) | raw)
  · exact Task.triple_pure (hstable _).toStable fun _ _ _ _ _ h => nomatch h
  · exact Task.triple_pure (hstable _).toStable fun _ _ _ _ _ h => nomatch h
  · refine Task.triple_pure (hstable _).toStable fun _ _ _ _ _ => ?_
    split_ifs
    · exact fun h => nomatch h
    · exact fun h => nomatch h
  · refine Task.triple_pure (hstable _).toStable fun _ _ h hlate hkey => ?_
    exact absurd rfl (h.2 hlate hkey raw)

theorem triple_lateProbeLegacy (hi : i.process = process) (key : String) :
    WipeTriple platform process keys blob i (AfterWipe platform process keys late)
      (probeLegacyKey platform.macos key) (fun out _ => late → keys key → out ≠ .present) E := by
  unfold probeLegacyKey
  refine Task.triple_ite (fun hmacos => ?_) fun _ => triple_lateProbeKeyring key
  have hlook : WipeTriple platform process keys blob i (AfterWipe platform process keys late)
      (ask (.genericPassword key)) (fun answer w => AfterWipe platform process keys late w ∧
        (late → keys key → answer ≠ .ok ())) E := by
    apply triple_look
    rintro w answer v hpre ⟨hfound, hsame⟩
    refine ⟨hsame, rfl, fun hlate hkey hanswer => ?_⟩
    rw [hanswer, hi] at hfound
    have hgone := ((hpre hlate).gone key hkey).2 hmacos hfound.1
    exact Bool.noConfusion (hfound.2.symm.trans hgone)
  have hstable : ∀ answer : Except ProtectedError Unit, Undisturbed platform process keys i
      fun w => AfterWipe platform process keys late w ∧ (late → keys key → answer ≠ .ok ()) :=
    fun _ => undisturbed_afterWipe.and (undisturbed_const _)
  refine Task.triple_bind hlook ?_
  rintro ((_ | _ | e) | _)
  · exact (triple_lateProbeKeyring key).weaken fun _ _ h => h.1
  · exact (triple_lateProbeKeyring key).weaken fun _ _ h => h.1
  · refine Task.triple_pure (hstable _).toStable fun _ _ _ _ _ => ?_
    split_ifs
    · exact fun h => nomatch h
    · exact fun h => nomatch h
  · refine Task.triple_pure (hstable _).toStable fun _ _ h hlate hkey => ?_
    exact absurd rfl (h.2 hlate hkey)

/-- A probe that is made after a wipe does not find any of the keys. -/
theorem triple_lateProbe (hi : i.process = process) (key : String) :
    WipeTriple platform process keys blob i (AfterWipe platform process keys late)
      (probe platform.macos key) (fun out _ => late → keys key → out ≠ .present) E := by
  let S : Except String (Option Secrets) → KeychainWorld → Prop := fun out w =>
    AfterWipe platform process keys late w ∧ (late → ∀ map, out ≠ .ok (some map))
  have hS : ∀ out, Undisturbed platform process keys i (S out) :=
    fun out => undisturbed_afterWipe.and (undisturbed_const _)
  have hload : WipeTriple platform process keys blob i (AfterWipe platform process keys late)
      (Task.result loadBlob) S E := by
    refine Task.triple_result ((triple_lateLoad hi).conseq (fun _ _ h => h) ?_ ?_)
    · rintro out w _ ⟨hcleared, hnone⟩
      refine ⟨hcleared, fun hlate map hout => ?_⟩
      cases (hnone hlate).symm.trans (Except.ok.inj hout)
    · exact fun _ w _ hcleared => ⟨hcleared, fun _ _ h => nomatch h⟩
  have hlegacy : ∀ out, WipeTriple platform process keys blob i (S out)
      (probeLegacyKey platform.macos key) (fun out _ => late → keys key → out ≠ .present) E :=
    fun out => (triple_lateProbeLegacy hi key).weaken fun _ _ h => h.1
  unfold probe
  refine Task.triple_bind hload ?_
  rintro (error | _ | map)
  · exact Task.triple_pure (hS _).toStable fun _ _ _ _ _ h => nomatch h
  · exact hlegacy _
  · refine Task.triple_ite (fun _ => ?_) fun _ => hlegacy _
    exact Task.triple_pure (hS _).toStable fun _ _ h hlate => absurd rfl (h.2 hlate map)

end Readers

section Wiping

variable {platform : KeychainPlatform} {process : ℕ} {keys : String → Prop}
  {blob : Option RawEntry} {i : KeychainCall} {P : KeychainWorld → Prop}

theorem lasting_entry (key : String) : Lasting fun w => w.entries key = none :=
  fun _ _ hfewer h => hfewer.entries_none h

theorem lasting_protected (p : Prop) (key : String) :
    Lasting fun w => p → w.protectedEntries key = false :=
  fun _ _ hfewer h hp => hfewer.protected_false (h hp)

theorem lasting_legacyGone (due : String → Prop) :
    Lasting fun w => ∀ key, keys key → due key ∨ LegacyGone platform process w key :=
  fun _ _ hfewer h key hkey => (h key hkey).imp_right hfewer.legacyGone

theorem triple_removeProtected (hi : i.process = process) (hP : Lasting P) (key label : String) :
    WipeTriple platform process keys blob i P (deleteProtected key label)
      (fun _ w => P w ∧ (platform.entitled process = true → w.protectedEntries key = false))
      (fun _ _ => True) := by
  let S : Except ProtectedError Unit → KeychainWorld → Prop := fun answer w =>
    P w ∧ ((∀ e, answer ≠ .error (.failed e)) → platform.entitled process = true →
      w.protectedEntries key = false)
  have hS : ∀ answer, Lasting (S answer) := fun answer =>
    hP.and fun _ _ hfewer h hfine hentitled => hfewer.protected_false (h hfine hentitled)
  have hdelete : WipeTriple platform process keys blob i P (ask (.deleteGenericPassword key)) S
      (fun _ _ => True) := by
    refine triple_request hP.undisturbed (fun answer => (hS answer).undisturbed) ?_
    rintro w ((_ | _ | e) | _) v - hpre - hv
    · obtain ⟨hentitled, hfalse, hsame⟩ := hv
      exact lasting_unchanged (hS (.error .notFound)) ⟨hpre, fun _ _ => hfalse⟩ hsame
    · obtain ⟨hentitled, hsame⟩ := hv
      refine lasting_unchanged (hS (.error .missingEntitlement)) ⟨hpre, fun _ htrue => ?_⟩ hsame
      rw [hi] at hentitled
      exact Bool.noConfusion (htrue.symm.trans hentitled)
    · exact lasting_unchanged (hS (.error (.failed e))) ⟨hpre, fun h => absurd rfl (h e)⟩ hv
    · obtain ⟨-, rfl⟩ := hv
      have hfewer : FewerEntries w
          { w with protectedEntries := Function.update w.protectedEntries key false } := by
        refine ⟨fun _ => .inr rfl, fun other => ?_⟩
        by_cases hother : other = key
        · exact .inl (hother ▸ Function.update_self ..)
        · exact .inr (Function.update_of_ne hother _ _)
      refine ⟨⟨hfewer, rfl, fun hw => ⟨rfl, hw.cache⟩⟩, hP w _ ⟨hfewer.1, hfewer.2⟩ hpre, ?_⟩
      exact fun _ _ => Function.update_self ..
  unfold deleteProtected
  refine Task.triple_bind hdelete ?_
  rintro ((_ | _ | e) | _)
  · exact Task.triple_pure (hS _).undisturbed.toStable fun _ _ h => ⟨h.1, h.2 fun _ h => nomatch h⟩
  · exact Task.triple_pure (hS _).undisturbed.toStable fun _ _ h => ⟨h.1, h.2 fun _ h => nomatch h⟩
  · exact Task.triple_fail (hS _).undisturbed.toStable fun _ _ _ => trivial
  · exact Task.triple_pure (hS _).undisturbed.toStable fun _ _ h => ⟨h.1, h.2 fun _ h => nomatch h⟩

theorem triple_removeEntry (hP : Lasting P) (key constructor unavailable label : String) :
    WipeTriple platform process keys blob i P (deleteEntry key constructor unavailable label)
      (fun _ w => P w ∧ w.entries key = none) (fun _ _ => True) := by
  let S : Except KeyringError Unit → KeychainWorld → Prop := fun answer w =>
    P w ∧ (answer = .ok () ∨ answer = .error .noEntry → w.entries key = none)
  have hS : ∀ answer, Lasting (S answer) := fun answer =>
    hP.and fun _ _ hfewer h hdone => hfewer.entries_none (h hdone)
  have hdelete : WipeTriple platform process keys blob i P (ask (.deleteCredential key)) S
      (fun _ _ => True) := by
    refine triple_request hP.undisturbed (fun answer => (hS answer).undisturbed) ?_
    rintro w ((e | _ | e) | _) v - hpre - hv
    · exact lasting_unchanged (hS (.error (.entry e))) ⟨hpre, fun h => by simp at h⟩ hv
    · exact lasting_unchanged (hS (.error .noEntry)) ⟨hpre, fun _ => hv.1⟩ hv.2
    · exact lasting_unchanged (hS (.error (.failed e))) ⟨hpre, fun h => by simp at h⟩ hv
    · obtain rfl : v = w.eraseEntry i key := hv
      have hfewer : FewerEntries w (w.eraseEntry i key) := by
        refine ⟨fun other => ?_, fun _ => .inr rfl⟩
        by_cases hother : other = key
        · exact .inl (hother ▸ Function.update_self ..)
        · exact .inr (Function.update_of_ne hother _ _)
      refine ⟨⟨hfewer, rfl, fun hw => ⟨rfl, hw.cache⟩⟩, hP w _ ⟨hfewer.1, hfewer.2⟩ hpre, ?_⟩
      exact fun _ => Function.update_self ..
  unfold deleteEntry
  refine Task.triple_bind hdelete ?_
  rintro ((_ | _ | e) | _)
  · exact Task.triple_fail (hS _).undisturbed.toStable fun _ _ _ => trivial
  · exact Task.triple_pure (hS _).undisturbed.toStable fun _ _ h => ⟨h.1, h.2 (.inr rfl)⟩
  · exact Task.triple_ite
      (fun _ => Task.triple_fail (hS _).undisturbed.toStable fun _ _ _ => trivial)
      fun _ => Task.triple_fail (hS _).undisturbed.toStable fun _ _ _ => trivial
  · exact Task.triple_pure (hS _).undisturbed.toStable fun _ _ h => ⟨h.1, h.2 (.inl rfl)⟩

/-- Every key of the blob is among those still to come, or the blob key, or gone. -/
def Remaining (platform : KeychainPlatform) (process : ℕ) (keys : String → Prop)
    (due : List String) (w : KeychainWorld) : Prop :=
  ∀ key, keys key → (key ∈ due ∨ key = blobKey) ∨ LegacyGone platform process w key

theorem lasting_remaining (due : List String) :
    Lasting (Remaining platform process keys due) :=
  lasting_legacyGone fun key => key ∈ due ∨ key = blobKey

theorem triple_removeProtectedOnMacos (hi : i.process = process) (hP : Lasting P)
    (key label : String) :
    WipeTriple platform process keys blob i P
      (onMacos platform.macos (deleteProtected key label))
      (fun _ w => P w ∧ (platform.macos = true ∧ platform.entitled process = true →
        w.protectedEntries key = false)) (fun _ _ => True) := by
  refine Task.triple_ite (fun _ => ?_) fun hmacos => ?_
  · exact (triple_removeProtected hi hP key label).strengthen fun _ w _ h =>
      ⟨h.1, fun hboth => h.2 hboth.2⟩
  · exact Task.triple_pure hP.undisturbed.toStable fun w _ h =>
      ⟨h, fun hboth => absurd hboth.1 hmacos⟩

theorem triple_removeLegacyKey (hi : i.process = process) (key : String) (due : List String) :
    WipeTriple platform process keys blob i (Remaining platform process keys (key :: due))
      (deleteLegacyKey platform.macos key)
      (fun _ => Remaining platform process keys due) (fun _ _ => True) := by
  have hrest : Lasting (Remaining platform process keys (key :: due)) := lasting_remaining _
  refine Task.triple_bind (triple_removeProtectedOnMacos hi hrest key _) fun _ => ?_
  refine (triple_removeEntry (hrest.and (lasting_protected _ key)) key _ _ _).strengthen ?_
  rintro _ w - ⟨⟨hremaining, hprotected⟩, hentry⟩ other hother
  by_cases hsame : other = key
  · subst hsame
    exact .inr ⟨fun _ => hentry, fun hmacos hentitled => hprotected ⟨hmacos, hentitled⟩⟩
  · rcases hremaining other hother with (hmem | hblob) | hgone
    · exact .inl (.inl ((List.mem_cons.mp hmem).resolve_left hsame))
    · exact .inl (.inr hblob)
    · exact .inr hgone

theorem mem_wipedKeys {read : Except String (Option RawEntry)} {key : String}
    (h : key ∈ keysOf read) : key ∈ wipedKeys read := by
  simp only [wipedKeys]
  split_ifs
  · exact h
  · exact List.mem_append_left _ h

/-- Whatever the read of the blob gives, the keys that are not removed have no older entries. -/
theorem triple_readKeys (hop : i.operation = .wipe)
    (hkeys : ∀ map key, blob = some (.secrets map) → keys key → key ∈ map.keys) :
    WipeTriple platform process keys blob i (fun _ => True)
      (Task.result (readBlobRaw false))
      (fun read => Remaining platform process keys (wipedKeys read)) (fun _ _ => True) := by
  let S : Except KeyringError RawEntry → KeychainWorld → Prop := fun answer =>
    match answer with
    | .ok raw => Remaining platform process keys (wipedKeys (.ok (some raw)))
    | .error _ => Remaining platform process keys ["identity"]
  have hS : ∀ answer, Lasting (S answer) := by
    rintro (_ | raw)
    · exact lasting_remaining _
    · exact lasting_remaining _
  -- a wipe that does not get the map relies on what is asked of its step
  have hspare : ∀ w, (∀ key, keys key → key ≠ "identity" → key ≠ blobKey →
      LegacyGone platform process w key) → ∀ due, "identity" ∈ due →
        Remaining platform process keys due w := by
    intro w hgone due hdue key hkey
    by_cases hidentity : key = "identity"
    · exact .inl (.inl (hidentity ▸ hdue))
    · by_cases hblob : key = blobKey
      · exact .inl (.inr hblob)
      · exact .inr (hgone key hkey hidentity hblob)
  refine Task.triple_result (triple_readAnswer (S := S) ?_ (fun answer => (hS answer).undisturbed)
    (fun raw w h => h) (fun w h => h) fun error message w h => h)
  refine triple_request (undisturbed_const True) (fun answer => (hS answer).undisturbed) ?_
  rintro w answer v hw - hstep hv
  obtain ⟨hsame, hraw⟩ := readsBlob hv
  have hafter : (KeychainRequest.getPassword blobKey false).pendingAfter answer = false := by
    rcases answer with _ | _ | _ <;> rfl
  rw [hafter]
  refine lasting_unchanged (hS answer) ?_ hsame
  rcases answer with error | map | text
  · exact hspare w (hstep hop) _ List.mem_cons_self
  · intro key hkey
    refine .inl (.inl ?_)
    exact mem_wipedKeys (hkeys map key (hw _ (hraw _ rfl)) hkey)
  · exact hspare w (hstep hop) _ List.mem_cons_self

theorem triple_clearCache (hi : i.process = process) (hop : i.operation = .wipe) :
    WipeTriple platform process keys blob i
      (fun w => (∀ key, keys key → LegacyGone platform process w key) ∧ w.blob = none)
      (ask (.setCache none none)) (fun _ => Cleared platform process keys) (fun _ _ => True) := by
  have hP : Lasting fun w => (∀ key, keys key → LegacyGone platform process w key) ∧
      w.blob = none :=
    Lasting.and (fun _ _ hfewer h key hkey => hfewer.legacyGone (h key hkey))
      (lasting_entry blobKey)
  refine triple_request hP.undisturbed (fun _ w u hrely h => hrely.cleared h) ?_
  rintro w _ v - ⟨hgone, hblob⟩ hstep rfl
  have hcache : (w.putCache i none none).cache process = none := by
    rw [← hi]
    exact Function.update_self ..
  refine ⟨⟨⟨fun _ => .inr rfl, fun _ => .inr rfl⟩, rfl, fun _ => ⟨rfl, hcache⟩⟩, ?_⟩
  refine ⟨hcache, hblob, fun j => ?_, hgone⟩
  by_cases hj : j = i
  · subst hj
    exact fun h => Bool.false_ne_true (mem_marked_self.mp h)
  · exact fun h => hj (hstep hop j ((mem_marked_of_ne hj).mp h))

theorem triple_wipeLocked {body : KeychainTask Unit}
    (hbody : WipeTriple platform process keys blob i (fun _ => True) body
      (fun _ => Cleared platform process keys) (fun _ _ => True)) :
    WipeTriple platform process keys blob i (fun _ => True) (locked body)
      (fun _ => Cleared platform process keys) (fun _ _ => True) := by
  have hacquire : WipeTriple platform process keys blob i (fun _ => True) (ask .acquireBlobLock)
      (fun _ _ => True) (fun _ _ => True) := by
    refine triple_request (undisturbed_const True) (fun _ => undisturbed_const True) ?_
    rintro w (error | _) v - - - hv
    · exact ⟨.of_same hv, trivial⟩
    · exact ⟨.of_lock hv.2, trivial⟩
  let S : Except String Unit → KeychainWorld → Prop := fun out w =>
    AfterWipe platform process keys (out = .ok ()) w
  have hrelease : ∀ out, WipeTriple platform process keys blob i (S out) (ask .releaseBlobLock)
      (fun _ => S out) (fun _ _ => True) := by
    intro out
    refine triple_request undisturbed_afterWipe (fun _ => undisturbed_afterWipe) ?_
    rintro w _ v - hpre - hv
    have heffect : WipeEffect platform process keys w v false := .of_lock hv
    exact ⟨heffect, heffect.afterWipe hpre⟩
  have hresult : WipeTriple platform process keys blob i (fun _ => True) (Task.result body) S
      (fun _ _ => True) := by
    refine Task.triple_result (hbody.conseq (fun _ _ h => h) ?_ ?_)
    · exact fun _ _ _ hcleared _ => hcleared
    · exact fun _ _ _ _ herror => nomatch herror
  unfold locked
  refine Task.triple_bind hacquire ?_
  rintro (error | _)
  · exact Task.triple_fail (undisturbed_const True).toStable fun _ _ h => h
  · refine Task.triple_bind hresult fun out => Task.triple_bind (hrelease out) fun _ => ?_
    rcases out with error | _
    · exact Task.triple_fail undisturbed_afterWipe.toStable fun _ _ _ => trivial
    · exact Task.triple_pure undisturbed_afterWipe.toStable fun _ _ h => h rfl

theorem triple_wipe (hi : i.process = process) (hop : i.operation = .wipe)
    (hkeys : ∀ map key, blob = some (.secrets map) → keys key → key ∈ map.keys) :
    WipeTriple platform process keys blob i (fun _ => True)
      (deleteAllWithLegacyCleanup platform.macos) (fun _ => Cleared platform process keys)
      (fun _ _ => True) := by
  apply triple_wipeLocked
  refine Task.triple_bind (triple_readKeys hop hkeys) fun read => ?_
  refine Task.triple_bind (Task.triple_forEach (I := Remaining platform process keys)
    (lasting_remaining []).undisturbed.toStable
    (fun key due => triple_removeLegacyKey hi key due) (wipedKeys read)) fun _ => ?_
  refine Task.triple_bind (triple_removeProtectedOnMacos hi (lasting_remaining []) blobKey _)
    fun _ => ?_
  refine Task.triple_bind (triple_removeEntry
    ((lasting_remaining []).and (lasting_protected _ blobKey)) blobKey _ _ _) fun _ => ?_
  refine (triple_clearCache hi hop).weaken ?_
  rintro w - ⟨⟨hremaining, hprotected⟩, hblob⟩
  refine ⟨fun key hkey => ?_, hblob⟩
  rcases hremaining key hkey with (hmem | rfl) | hgone
  · cases hmem
  · exact ⟨fun h => absurd rfl h, fun hmacos hentitled => hprotected ⟨hmacos, hentitled⟩⟩
  · exact hgone

end Wiping

section Runs

variable (platform : KeychainPlatform) {process : ℕ} {keys : String → Prop}
  {blob : Option RawEntry}

/-- What a probe reports that was made late. -/
def LateProbe (keys : String → Prop) (late : Prop) (i : KeychainCall) (out : KeychainReturn) :
    Prop :=
  late → ∀ key, i.operation = .probe key → keys key → out.1 ≠ .ok (.probed .present)

theorem wipe_launch_safe
    (hkeys : ∀ map key, blob = some (.secrets map) → keys key → key ∈ map.keys)
    {i : KeychainCall} {w : KeychainWorld} {late : Prop}
    (hw : ∀ raw, w.blob = some raw → blob = some raw)
    (hi : (withoutStores process).starts i) (hlate : AfterWipe platform process keys late w) :
    Safe ((wipeDiscipline platform process keys blob).contract i)
      (fun out u => WipePost platform process keys i out u ∧ LateProbe keys late i out)
      (i.operation.task platform.macos ()) w := by
  obtain ⟨hprocess, hnostore⟩ := hi
  have hnotWipe : i.operation ≠ .wipe → ∀ out u, WipePost platform process keys i out u :=
    fun hne _ _ hop => absurd hop hne
  have hnotProbe : (∀ key, i.operation ≠ .probe key) → ∀ out, LateProbe keys late i out :=
    fun hne _ _ key hop => absurd hop (hne key)
  cases hop : i.operation with
  | store key value =>
      rw [hop] at hnostore
      cases hnostore
  | load =>
      have hload : WipeTriple platform process keys blob i (AfterWipe platform process keys late)
          (KeychainOperation.load.task platform.macos) (fun _ _ => True)
          (fun _ => AfterWipe platform process keys late) :=
        Task.triple_bind (triple_lateLoad hprocess) fun _ => Task.triple_pure
          (undisturbed_afterWipe.and (undisturbed_const _)).toStable fun _ _ _ => trivial
      have hpost : ∀ out u, WipePost platform process keys i out u ∧ LateProbe keys late i out :=
        fun out u => ⟨hnotWipe (by simp [hop]) out u, hnotProbe (by simp [hop]) out⟩
      exact hload.program (fun _ _ u _ => hpost _ u) (fun _ _ u _ => hpost _ u) () hw fun _ => hlate
  | probe key =>
      have hprobe : WipeTriple platform process keys blob i (AfterWipe platform process keys late)
          ((KeychainOperation.probe key).task platform.macos)
          (fun outcome _ => late → keys key → outcome ≠ .probed .present) (fun _ _ => True) :=
        Task.triple_bind (triple_lateProbe hprocess key) fun _ => Task.triple_pure
          (undisturbed_const _).toStable
          fun _ _ h hl hk heq => h hl hk (KeychainOutcome.probed.inj heq)
      refine hprobe.program ?_ ?_ () hw fun _ => hlate
      · intro outcome _ u h
        refine ⟨hnotWipe (by simp [hop]) _ u, fun hl other hother hk heq => ?_⟩
        obtain rfl := KeychainOperation.probe.inj (hop.symm.trans hother)
        exact h trivial hl hk (Except.ok.inj heq)
      · exact fun _ _ u _ => ⟨hnotWipe (by simp [hop]) _ u, fun _ _ _ _ h => nomatch h⟩
  | wipe =>
      have hwipe : WipeTriple platform process keys blob i (fun _ => True)
          (KeychainOperation.wipe.task platform.macos) (fun _ => Cleared platform process keys)
          (fun _ _ => True) :=
        Task.triple_bind (triple_wipe hprocess hop hkeys) fun _ => Task.triple_pure
          (fun w u _ hrely _ h => hrely.cleared h) fun _ _ h => h
      refine hwipe.program ?_ ?_ () hw fun _ => trivial
      · exact fun _ _ _ h => ⟨fun _ _ _ => h trivial, hnotProbe (by simp [hop]) _⟩
      · exact fun _ _ _ _ => ⟨fun _ _ h => (nomatch h), hnotProbe (by simp [hop]) _⟩

/-- Once a wipe has returned, no later probe finds a key that was in the blob, as long as no load
holds a map when a wipe clears the cache and no wipe misses keys that have older entries. -/
theorem wipe_final {start mid final : KeychainPool} (hstart : start.Idle)
    (hmid : PoolReach (keychainSystem platform
      (quietWipes platform process fun key => start.world.blobValue key ≠ none)) start mid)
    {wipe : KeychainCall} (hwipe : wipe.operation = .wipe)
    (hreturned : mid.threads wipe = some (.pure (.ok .wiped, ())))
    (hfinal : PoolReach (keychainSystem platform
      (quietWipes platform process fun key => start.world.blobValue key ≠ none)) mid final)
    {probe : KeychainCall} {key : String} (hprobe : probe.operation = .probe key)
    (hkey : start.world.blobValue key ≠ none) (hlater : mid.threads probe = none)
    {out : KeychainReturn} (hout : final.threads probe = some (.pure out)) :
    out.1 ≠ .ok (.probed .present) := by
  let keys : String → Prop := fun key => start.world.blobValue key ≠ none
  have hkeys : ∀ map key, start.world.blob = some (.secrets map) → keys key → key ∈ map.keys := by
    intro map key hmap hk
    simp only [keys, KeychainWorld.blobValue, hmap] at hk
    rw [Std.ExtTreeMap.mem_keys, Std.ExtTreeMap.mem_iff_isSome_getElem?]
    exact Option.isSome_iff_ne_none.mpr hk
  let d := wipeDiscipline platform process keys start.world.blob
  have hlaunch : d.LaunchesSafe := by
    rintro i w p hw ⟨hi, -, rfl⟩
    have hnever : AfterWipe platform process keys False w := fun h => h.elim
    exact (wipe_launch_safe platform hkeys hw hi hnever).mono fun _ _ _ h => h.1
  have hfirst : d.Holds start := by
    refine ⟨fun _ h => h, fun i p hp => ?_⟩
    rw [hstart.threads i] at hp
    cases hp
  have hheld : d.Holds mid := hfirst.reach hlaunch hmid
  have hcleared : Cleared platform process keys mid.world := hheld.post hreturned hwipe _ rfl
  -- from here on everything stays cleared, and the late probes are promised more
  let later := d.since (Cleared platform process keys)
    (fun i out w => WipePost platform process keys i out w ∧
      LateProbe keys (mid.threads i = none) i out)
    (fun i w u h => h.cleared)
    (fun i w u hstop hw => hstop ▸ cleared_dropped hw) (fun w u hmove => hmove.elim)
  have hlaterLaunch : later.LaunchesSafe := by
    rintro i w p hw ⟨hi, -, rfl⟩
    exact Discipline.safe_since (wipe_launch_safe platform hkeys hw.1 hi fun _ => hw.2)
  have hlaterHolds : later.Holds mid := by
    refine hheld.since hcleared fun i p hp value w hpost => ⟨hpost, fun hnone => ?_⟩
    rw [hp] at hnone
    cases hnone
  exact ((hlaterHolds.reach hlaterLaunch hfinal).post hout).2 hlater key hprobe hkey

/-- Steps that are quiet for sure. -/
def quietStep (i : KeychainCall) (w : KeychainWorld) :
    (request : KeychainRequest) → request.Reply → Bool
  | .setCache _ _, _ => decide (∀ j ∈ w.pending, j = i)
  | .getPassword _ _, .ok (.secrets _) => true
  | .getPassword _ _, _ => decide (i.operation ≠ .wipe)
  | _, _ => true

theorem quietStep_sound {i : KeychainCall} {w : KeychainWorld} (request : KeychainRequest)
    (answer : request.Reply) (h : quietStep i w request answer = true) :
    (quietWipes platform process keys).step i w request answer := by
  intro hop
  cases request with
  | setCache secrets confirmed => exact of_decide_eq_true h
  | getPassword key loading =>
      rcases answer with error | map | text
      · exact absurd hop (of_decide_eq_true h)
      · trivial
      · exact absurd hop (of_decide_eq_true h)
  | _ => trivial

def sampleKeychain : KeychainPool :=
  restingKeychain fun key =>
    if key = blobKey then some (.secrets ((∅ : Secrets).insert "identity" "nsec1"))
    else if key = "identity" then some (.text "nsec1") else none

theorem sampleKeychain_idle : sampleKeychain.Idle :=
  (restingKeychain_starts _).toIdle

theorem sampleKeychain_identity : sampleKeychain.world.blobValue "identity" ≠ none := by
  decide +kernel

/-- A script up to the end of a wipe, and one for a probe that is made afterwards. -/
theorem reach_probe {platform : KeychainPlatform} {policy : KeychainPolicy}
    (script : Script (keychainSystem platform policy) KeychainMode Unit) {start : KeychainPool}
    {first second : List (Act KeychainCall KeychainMode Unit)} {wipe probe : KeychainCall}
    {out : KeychainReturn}
    (hplay : (script.play first start).map (fun pool : KeychainPool =>
      (pool.outcome wipe, (pool.threads probe).isNone, (script.play second pool).map
        fun pool : KeychainPool => pool.outcome probe)) =
      some (some (.ok .wiped, ()), true, some (some out))) :
    ∃ mid final : KeychainPool, PoolReach (keychainSystem platform policy) start mid ∧
      mid.threads wipe = some (.pure (.ok .wiped, ())) ∧
      PoolReach (keychainSystem platform policy) mid final ∧
      mid.threads probe = none ∧ final.threads probe = some (.pure out) := by
  obtain ⟨mid, hmid, heq⟩ := Option.map_eq_some_iff.mp hplay
  simp only [Prod.mk.injEq, Option.isNone_iff_eq_none] at heq
  obtain ⟨hwipe, hlater, hsecond⟩ := heq
  obtain ⟨final, hfinal, hprobe⟩ := Option.map_eq_some_iff.mp hsecond
  exact ⟨mid, final, Script.reach_play first hmid, mid.threads_of_outcome hwipe,
    Script.reach_play second hfinal, hlater, final.threads_of_outcome hprobe⟩

/-- A load fills the cache while the wipe runs, and the probe finds nothing. -/
theorem wipe_final_after_load :
    ∃ mid final : KeychainPool, ∃ out : KeychainReturn,
      PoolReach (keychainSystem ⟨false, fun _ => true⟩ (quietWipes ⟨false, fun _ => true⟩ 0
        fun key => sampleKeychain.world.blobValue key ≠ none)) sampleKeychain mid ∧
      mid.threads ⟨0, 1, .wipe⟩ = some (.pure (.ok .wiped, ())) ∧
      final.threads ⟨0, 2, .probe "identity"⟩ = some (.pure out) ∧
      out.1 ≠ .ok (.probed .present) := by
  let platform : KeychainPlatform := ⟨false, fun _ => true⟩
  let keys : String → Prop := fun key => sampleKeychain.world.blobValue key ≠ none
  let starts : DecidablePred (quietWipes platform 0 keys).starts :=
    inferInstanceAs (DecidablePred (withoutStores 0).starts)
  let script := keychainScript platform (quietWipes platform 0 keys) quietStep
    fun i w request answer h => quietStep_sound platform request answer h
  let reader : KeychainCall := ⟨0, 0, .load⟩
  let wipe : KeychainCall := ⟨0, 1, .wipe⟩
  let probe : KeychainCall := ⟨0, 2, .probe "identity"⟩
  let first : List (Act KeychainCall KeychainMode Unit) :=
    [.launch reader (), .steps reader .healthy 2, .launch wipe (), .steps wipe .healthy 3,
      .steps reader .healthy 1, .steps wipe .healthy 3]
  let second : List (Act KeychainCall KeychainMode Unit) :=
    [.launch probe (), .steps probe .healthy 3]
  have hplay : (script.play first sampleKeychain).map (fun pool : KeychainPool =>
      (pool.outcome wipe, (pool.threads probe).isNone, (script.play second pool).map
        fun pool : KeychainPool => pool.outcome probe)) =
      some (some (.ok .wiped, ()), true, some (some (.ok (.probed .reachableButEmpty), ()))) := by
    decide +kernel
  obtain ⟨mid, final, hmid, hwipe, hfinal, hlater, hout⟩ := reach_probe script hplay
  exact ⟨mid, final, _, hmid, hwipe, hout, wipe_final platform sampleKeychain_idle hmid rfl hwipe
    hfinal rfl sampleKeychain_identity hlater hout⟩

/-- A load reads the blob, a wipe runs from beginning to end, and then the load fills the cache: a
probe that is made afterwards finds the wiped identity. -/
theorem wipe_undone_by_load :
    ∃ mid final : KeychainPool, sampleKeychain.Idle ∧
      PoolReach (keychainSystem ⟨false, fun _ => true⟩ (withoutStores 0)) sampleKeychain mid ∧
      mid.threads ⟨0, 1, .wipe⟩ = some (.pure (.ok .wiped, ())) ∧
      PoolReach (keychainSystem ⟨false, fun _ => true⟩ (withoutStores 0)) mid final ∧
      sampleKeychain.world.blobValue "identity" ≠ none ∧
      mid.threads ⟨0, 2, .probe "identity"⟩ = none ∧
      final.threads ⟨0, 2, .probe "identity"⟩ = some (.pure (.ok (.probed .present), ())) := by
  let script := keychainScript ⟨false, fun _ => true⟩ (withoutStores 0) (fun _ _ _ _ => true)
    fun _ _ _ _ _ => trivial
  let reader : KeychainCall := ⟨0, 0, .load⟩
  let wipe : KeychainCall := ⟨0, 1, .wipe⟩
  let probe : KeychainCall := ⟨0, 2, .probe "identity"⟩
  let first : List (Act KeychainCall KeychainMode Unit) :=
    [.launch reader (), .steps reader .healthy 2, .launch wipe (), .steps wipe .healthy 6]
  let second : List (Act KeychainCall KeychainMode Unit) :=
    [.steps reader .healthy 1, .launch probe (), .steps probe .healthy 1]
  have hplay : (script.play first sampleKeychain).map (fun pool : KeychainPool =>
      (pool.outcome wipe, (pool.threads probe).isNone, (script.play second pool).map
        fun pool : KeychainPool => pool.outcome probe)) =
      some (some (.ok .wiped, ()), true, some (some (.ok (.probed .present), ()))) := by
    decide +kernel
  obtain ⟨mid, final, hmid, hwipe, hfinal, hlater, hout⟩ := reach_probe script hplay
  exact ⟨mid, final, sampleKeychain_idle, hmid, hwipe, hfinal, sampleKeychain_identity,
    hlater, hout⟩

end Runs

end Buzz.Keychain
