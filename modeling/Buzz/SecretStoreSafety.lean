import Buzz.SecretStore

/-!
# No secret is lost to another writer

While a call holds the lock nobody else touches the blob, so that what it has
read is still there when it writes. The invariant ties the blob to the recorded
history and the caches to what the blob has held; readers need no lock for it.
-/

namespace Buzz.Keychain

open EffectProgram

section Invariant

variable (initially : String → Option String)

structure KeychainInvariant (w : KeychainWorld) : Prop where
  agrees : ∀ key, w.blobValue key = lastStored initially w.history key
  blob : ∀ raw, w.blob = some raw → raw ∈ w.past
  cache : ∀ process map, w.cache process = some map → .secrets map ∈ w.past
  meant : ∀ event ∈ w.history, event.Meant

structure KeychainRely (i : KeychainCall) (w u : KeychainWorld) : Prop where
  held : w.lock = some i → u.lock = some i ∧ u.blob = w.blob
  past : ∀ raw ∈ w.past, raw ∈ u.past
  mine : ∀ event : BlobEvent, event.call = i → (event ∈ u.history ↔ event ∈ w.history)

structure KeychainGuar (i : KeychainCall) (w u : KeychainWorld) : Prop where
  held : ∀ j, j ≠ i → w.lock = some j → u.lock = some j ∧ u.blob = w.blob
  past : ∀ raw ∈ w.past, raw ∈ u.past
  others : ∀ event : BlobEvent, event.call ≠ i → (event ∈ u.history ↔ event ∈ w.history)

/-- A step that leaves the blob, the lock and the records alone. -/
structure SameBlob (w u : KeychainWorld) : Prop where
  blob : u.blob = w.blob
  lock : u.lock = w.lock
  history : u.history = w.history
  past : u.past = w.past

variable {initially} {w u v : KeychainWorld} {i j : KeychainCall}

theorem SameBlob.guar (h : SameBlob w u) : KeychainGuar i w u where
  held _ _ hlock := ⟨h.lock.trans hlock, h.blob⟩
  past raw hraw := h.past ▸ hraw
  others event _ := by rw [h.history]

theorem KeychainRely.refl (i : KeychainCall) (w : KeychainWorld) : KeychainRely i w w :=
  ⟨fun h => ⟨h, rfl⟩, fun _ h => h, fun _ _ => Iff.rfl⟩

theorem KeychainRely.trans (hwu : KeychainRely i w u) (huv : KeychainRely i u v) :
    KeychainRely i w v where
  held hlock := by
    obtain ⟨hlock', hblob⟩ := hwu.held hlock
    obtain ⟨hlock'', hblob'⟩ := huv.held hlock'
    exact ⟨hlock'', hblob'.trans hblob⟩
  past raw hraw := huv.past raw (hwu.past raw hraw)
  mine event hcall := (huv.mine event hcall).trans (hwu.mine event hcall)

theorem KeychainGuar.rely (h : KeychainGuar i w u) (hij : i ≠ j) : KeychainRely j w u where
  held := h.held j (Ne.symm hij)
  past := h.past
  mine event hcall := h.others event fun heq => hij (heq.symm.trans hcall)

theorem dropped_rely (hij : i ≠ j) : KeychainRely j w (w.dropped i) where
  held hlock := by
    refine ⟨?_, rfl⟩
    simp only [KeychainWorld.dropped]
    rw [if_neg, hlock]
    rw [hlock]
    exact fun h => hij (Option.some_inj.mp h).symm
  past _ hraw := hraw
  mine _ _ := Iff.rfl

variable (initially) (platform : KeychainPlatform) (policy : KeychainPolicy)

/-- What a call has achieved when it returns. -/
def KeychainPost (i : KeychainCall) (result : KeychainReturn) (w : KeychainWorld) : Prop :=
  match i.operation, result.1 with
  | .store key value, .ok _ => .stored i key value ∈ w.history
  | .store _ _, .error _ => ∀ event ∈ w.history, event.call ≠ i
  | _, _ => True

def keychainDiscipline : Discipline (keychainSystem platform policy) where
  valid := KeychainInvariant initially
  rely := KeychainRely
  guar := KeychainGuar
  change _ _ := True
  post := KeychainPost
  rely_refl := KeychainRely.refl
  rely_trans _ _ _ _ := KeychainRely.trans
  guar_rely _ _ _ _ hij _ _ hguar := hguar.rely hij
  guar_change _ _ _ _ _ _ := True.intro
  change_refl _ := True.intro
  stops_valid i w u hw hstop := by
    subst hstop
    exact ⟨hw.agrees, hw.blob, hw.cache, hw.meant⟩
  stops_rely i j w u hij hw hstop := by
    subst hstop
    exact dropped_rely hij
  stops_change _ _ _ _ _ := True.intro
  moves_valid _ _ _ hmove := hmove.elim
  moves_rely _ _ _ _ hmove := hmove.elim
  moves_change _ _ _ hmove := hmove.elim

end Invariant

section Rules

variable {initially : String → Option String} {platform : KeychainPlatform}
  {policy : KeychainPolicy} {i : KeychainCall} {α : Type}

abbrev KeychainTriple (initially : String → Option String) (platform : KeychainPlatform)
    (policy : KeychainPolicy) (i : KeychainCall) (P : KeychainWorld → Prop) (t : KeychainTask α)
    (Q : α → KeychainWorld → Prop) (E : String → KeychainWorld → Prop) : Prop :=
  Task.Triple (Lifespan.forever ((keychainDiscipline initially platform policy).contract i)) P t Q E

/-- What the others keep and what depends neither on the caches nor on the loads under way. -/
structure Firm (i : KeychainCall) (P : KeychainWorld → Prop) : Prop where
  stable : ∀ w u, KeychainRely i w u → P w → P u
  apart : ∀ w cache pending, P w → P { w with cache := cache, pending := pending }

def Held (i : KeychainCall) (w : KeychainWorld) : Prop := w.lock = some i

def Unlogged (i : KeychainCall) (w : KeychainWorld) : Prop := ∀ event ∈ w.history, event.call ≠ i

variable {P R : KeychainWorld → Prop}

theorem Firm.and (hP : Firm i P) (hR : Firm i R) : Firm i fun w => P w ∧ R w where
  stable w u hrely h := ⟨hP.stable w u hrely h.1, hR.stable w u hrely h.2⟩
  apart w cache pending h := ⟨hP.apart w cache pending h.1, hR.apart w cache pending h.2⟩

theorem firm_const (p : Prop) : Firm i fun _ => p := ⟨fun _ _ _ h => h, fun _ _ _ h => h⟩

theorem firm_unlogged : Firm i (Unlogged i) where
  stable _ _ hrely h event hevent hcall := h event ((hrely.mine event hcall).mp hevent) hcall
  apart _ _ _ h := h

theorem firm_logged {event : BlobEvent} (hcall : event.call = i) :
    Firm i fun w => event ∈ w.history where
  stable _ _ hrely h := (hrely.mine event hcall).mpr h
  apart _ _ _ h := h

theorem firm_past (raw : RawEntry) : Firm i fun w => raw ∈ w.past where
  stable _ _ hrely h := hrely.past raw h
  apart _ _ _ h := h

theorem firm_held : Firm i (Held i) where
  stable _ _ hrely h := (hrely.held h).1
  apart _ _ _ h := h

theorem firm_heldBlob (raw : Option RawEntry) : Firm i fun w => Held i w ∧ w.blob = raw where
  stable _ _ hrely h := ⟨(hrely.held h.1).1, (hrely.held h.1).2.trans h.2⟩
  apart _ _ _ h := h

theorem Firm.toStable (hP : Firm i P) :
    Stable (Lifespan.forever ((keychainDiscipline initially platform policy).contract i)) P :=
  fun w u _ hrely _ h => hP.stable w u hrely h

/-- A request with a step of its own. -/
theorem triple_ask {request : KeychainRequest} {Q : request.Reply → KeychainWorld → Prop}
    {E : String → KeychainWorld → Prop} (hP : Firm i P) (hQ : ∀ answer, Firm i (Q answer))
    (h : ∀ w answer v, KeychainInvariant initially w → P w →
      w.Answers platform.entitled i request answer v →
      KeychainInvariant initially v ∧ KeychainGuar i w v ∧ Q answer v) :
    KeychainTriple initially platform policy i P (ask request) Q E := by
  apply Task.triple_perform hP.toStable fun answer => (hQ answer).toStable
  rintro w answer u hw hpre ⟨-, v, hv, rfl⟩
  obtain ⟨hvalid, hguar, hpost⟩ := h w answer v hw hpre hv
  exact ⟨⟨hvalid.agrees, hvalid.blob, hvalid.cache, hvalid.meant⟩,
    ⟨hguar.held, hguar.past, hguar.others⟩, (hQ answer).apart v v.cache _ hpost⟩

theorem guar_unchanged {w v : KeychainWorld} (hw : KeychainInvariant initially w) (hpre : P w)
    (h : v = w) : KeychainInvariant initially v ∧ KeychainGuar i w v ∧ P v := by
  subst h
  exact ⟨hw, SameBlob.guar ⟨rfl, rfl, rfl, rfl⟩, hpre⟩

/-- A request that leaves the world as it is. -/
theorem triple_ask_same {request : KeychainRequest} {Q : request.Reply → KeychainWorld → Prop}
    {E : String → KeychainWorld → Prop} (hP : Firm i P) (hQ : ∀ answer, Firm i (Q answer))
    (h : ∀ w answer v, KeychainInvariant initially w → P w →
      w.Answers platform.entitled i request answer v → v = w ∧ Q answer w) :
    KeychainTriple initially platform policy i P (ask request) Q E := by
  apply triple_ask hP hQ
  intro w answer v hw hpre hv
  obtain ⟨hsame, hpost⟩ := h w answer v hw hpre hv
  exact guar_unchanged hw hpost hsame

end Rules

section Reading

variable {initially : String → Option String} {platform : KeychainPlatform}
  {policy : KeychainPolicy} {i : KeychainCall} {α : Type} {P : KeychainWorld → Prop}

/-- What is known after each kind of answer. -/
def afterRead (P : KeychainWorld → Prop) (R : Option RawEntry → KeychainWorld → Prop) :
    Except KeyringError RawEntry → KeychainWorld → Prop
  | .ok raw, w => R (some raw) w
  | .error .noEntry, w => R none w
  | .error _, w => P w

theorem triple_readBlobRaw {R : Option RawEntry → KeychainWorld → Prop} (hP : Firm i P)
    (hR : ∀ out, Firm i (R out))
    (h : ∀ w out, KeychainInvariant initially w → P w → w.blob = out → R out w) (loading : Bool) :
    KeychainTriple initially platform policy i P (readBlobRaw loading) R fun _ => P := by
  have hQ : ∀ answer, Firm i (afterRead P R answer) := by
    rintro ((_ | _ | _) | raw)
    · exact hP
    · exact hR none
    · exact hP
    · exact hR (some raw)
  unfold readBlobRaw
  refine Task.triple_bind (triple_ask_same (Q := afterRead P R) hP hQ ?_) ?_
  · rintro w ((_ | _ | _) | raw) v hw hpre hv
    · exact ⟨hv, hpre⟩
    · exact ⟨hv.2, h w none hw hpre hv.1⟩
    · exact ⟨hv, hpre⟩
    · exact ⟨hv.2, h w (some raw) hw hpre hv.1⟩
  · rintro ((e | _ | e) | raw)
    · exact Task.triple_fail hP.toStable fun _ _ hpre => hpre
    · exact Task.triple_pure (hR none).toStable fun _ _ hpost => hpost
    · exact Task.triple_ite (fun _ => Task.triple_fail hP.toStable fun _ _ hpre => hpre)
        fun _ => Task.triple_fail hP.toStable fun _ _ hpre => hpre
    · exact Task.triple_pure (hR (some raw)).toStable fun _ _ hpost => hpost

theorem triple_parseBlob {R : Secrets → KeychainWorld → Prop} {E : String → KeychainWorld → Prop}
    (raw : RawEntry) (hP : Firm i P) (hR : ∀ map w, raw = .secrets map → P w → R map w)
    (hE : ∀ e w, P w → E e w) :
    KeychainTriple initially platform policy i P (parseBlob raw) R E := by
  cases raw with
  | secrets map => exact Task.triple_pure hP.toStable fun w _ hpre => hR map w rfl hpre
  | text value => exact Task.triple_fail hP.toStable fun w _ hpre => hE _ w hpre

/-- A cache may be given anything that the blob has held. -/
theorem KeychainInvariant.setCache {w : KeychainWorld} (hw : KeychainInvariant initially w)
    {map : Option Secrets} (hmap : ∀ m, map = some m → .secrets m ∈ w.past) (process : ℕ) :
    KeychainInvariant initially { w with cache := Function.update w.cache process map } where
  agrees := hw.agrees
  blob := hw.blob
  cache other m hm := by
    by_cases hother : other = process
    · subst hother
      exact hmap m (by simpa using hm)
    · exact hw.cache other m (by simpa [Function.update_of_ne hother] using hm)
  meant := hw.meant

theorem triple_fillCache (hP : Firm i P) (map : Secrets) {E : String → KeychainWorld → Prop} :
    KeychainTriple initially platform policy i (fun w => P w ∧ .secrets map ∈ w.past)
      (ask (.fillCache map)) (fun _ => P) E := by
  apply triple_ask (hP.and (firm_past _)) fun _ => hP
  rintro w _ v hw ⟨hpre, hpast⟩ rfl
  unfold KeychainWorld.fillCache
  split_ifs with hnone
  · refine ⟨hw.setCache (fun m hm => ?_) i.process, SameBlob.guar ⟨rfl, rfl, rfl, rfl⟩,
      hP.apart w _ w.pending hpre⟩
    exact Option.some_inj.mp hm ▸ hpast
  · exact ⟨hw, SameBlob.guar ⟨rfl, rfl, rfl, rfl⟩, hpre⟩

/-- A load leaves the blob and the lock alone, whatever it finds. -/
theorem triple_loadBlob (hP : Firm i P) :
    KeychainTriple initially platform policy i P loadBlob (fun _ => P) fun _ => P := by
  unfold loadBlob
  refine Task.triple_bind (triple_ask_same (Q := fun _ => P) hP (fun _ => hP) ?_) ?_
  · intro w answer v hw hpre hv
    exact ⟨hv.2, hpre⟩
  · rintro (_ | map)
    · have hread : KeychainTriple initially platform policy i P (readBlobRaw true)
          (fun out w => P w ∧ ∀ raw, out = some raw → raw ∈ w.past) fun _ => P := by
        apply triple_readBlobRaw hP
        · intro out
          refine hP.and ⟨fun w u hrely h raw hraw => ?_, fun _ _ _ h => h⟩
          exact hrely.past raw (h raw hraw)
        · intro w out hw hpre hout
          exact ⟨hpre, fun raw hraw => hw.blob raw (hout.trans hraw)⟩
      refine Task.triple_bind hread ?_
      rintro (_ | raw)
      · refine Task.triple_pure (Firm.toStable (hP.and ?_)) fun _ _ h => h.1
        exact ⟨fun _ _ _ _ _ hnone => (nomatch hnone), fun _ _ _ _ _ hnone => (nomatch hnone)⟩
      · refine (Task.triple_bind (R := fun _ => P) (triple_parseBlob raw (hP.and (firm_past raw))
          (R := fun map w => P w ∧ .secrets map ∈ w.past) ?_ (fun _ _ h => h.1)) ?_).weaken
          fun w _ h => ⟨h.1, h.2 raw rfl⟩
        · rintro map w rfl h
          exact h
        · intro map
          exact Task.triple_bind (triple_fillCache hP map) fun _ =>
            Task.triple_pure hP.toStable fun _ _ h => h
    · exact Task.triple_pure hP.toStable fun _ _ hpre => hpre

theorem triple_probeLegacyKeyKeyring (hP : Firm i P) (key : String)
    {E : String → KeychainWorld → Prop} :
    KeychainTriple initially platform policy i P (probeLegacyKeyKeyring key) (fun _ => P) E := by
  unfold probeLegacyKeyKeyring
  refine Task.triple_bind (triple_ask_same (Q := fun _ => P) hP (fun _ => hP) ?_) ?_
  · rintro w ((_ | _ | _) | raw) v hw hpre hv
    · exact ⟨hv, hpre⟩
    · exact ⟨hv.2, hpre⟩
    · exact ⟨hv, hpre⟩
    · exact ⟨hv.2, hpre⟩
  · rintro ((_ | _ | _) | raw)
    all_goals exact Task.triple_pure hP.toStable fun _ _ hpre => hpre

theorem triple_probe (hP : Firm i P) (key : String) :
    KeychainTriple initially platform policy i P (probe platform.macos key) (fun _ => P)
      fun _ => P := by
  have hlegacy : KeychainTriple initially platform policy i P (probeLegacyKey platform.macos key)
      (fun _ => P) fun _ => P := by
    unfold probeLegacyKey
    refine Task.triple_ite (fun _ => ?_) fun _ => triple_probeLegacyKeyKeyring hP key
    refine Task.triple_bind (triple_ask_same (Q := fun _ => P) hP (fun _ => hP) ?_) ?_
    · intro w answer v hw hpre hv
      exact ⟨hv.2, hpre⟩
    · rintro ((_ | _ | _) | _)
      · exact triple_probeLegacyKeyKeyring hP key
      · exact triple_probeLegacyKeyKeyring hP key
      · exact Task.triple_pure hP.toStable fun _ _ hpre => hpre
      · exact Task.triple_pure hP.toStable fun _ _ hpre => hpre
  unfold probe
  refine Task.triple_bind (Task.triple_result (R := fun _ => P) (triple_loadBlob hP)) ?_
  rintro (_ | _ | map)
  · exact Task.triple_pure hP.toStable fun _ _ hpre => hpre
  · exact hlegacy
  · exact Task.triple_ite (fun _ => Task.triple_pure hP.toStable fun _ _ hpre => hpre)
      fun _ => hlegacy

end Reading

section Locking

variable {initially : String → Option String} {platform : KeychainPlatform}
  {policy : KeychainPolicy} {i : KeychainCall} {α : Type} {P : KeychainWorld → Prop}
  {Q : α → KeychainWorld → Prop} {E : String → KeychainWorld → Prop}

/-- Assertions that do not speak about the lock. -/
def LockFree (P : KeychainWorld → Prop) : Prop := ∀ w lock, P w → P { w with lock := lock }

/-- The holder of the lock may do anything to the blob as far as the others are concerned. -/
theorem guar_of_held {w v : KeychainWorld} (hheld : Held i w)
    (hpast : ∀ raw ∈ w.past, raw ∈ v.past)
    (hothers : ∀ event : BlobEvent, event.call ≠ i → (event ∈ v.history ↔ event ∈ w.history)) :
    KeychainGuar i w v where
  held _ hji hlock := absurd (Option.some_inj.mp (hheld.symm.trans hlock)) (Ne.symm hji)
  past := hpast
  others := hothers

theorem triple_releaseBlobLock (hP : Firm i P) (hlock : LockFree P) :
    KeychainTriple initially platform policy i (fun w => P w ∧ Held i w)
      (ask .releaseBlobLock) (fun _ => P) E := by
  apply triple_ask (hP.and firm_held) fun _ => hP
  rintro w _ v hw ⟨hpre, hheld⟩ rfl
  exact ⟨⟨hw.agrees, hw.blob, hw.cache, hw.meant⟩, guar_of_held hheld (fun _ h => h) fun _ _ =>
    Iff.rfl, hlock w none hpre⟩

/-- What holds after a computation that may fail. -/
def afterResult {β : Type} (Q : β → KeychainWorld → Prop) (E : String → KeychainWorld → Prop) :
    Except String β → KeychainWorld → Prop
  | .ok value => Q value
  | .error error => E error

theorem triple_locked {body : KeychainTask α} (hP : Firm i P) (hQ : ∀ value, Firm i (Q value))
    (hE : ∀ error, Firm i (E error)) (hPlock : LockFree P) (hQlock : ∀ value, LockFree (Q value))
    (hElock : ∀ error, LockFree (E error)) (hfail : ∀ error w, P w → E error w)
    (hbody : KeychainTriple initially platform policy i (fun w => P w ∧ Held i w) body
      (fun value w => Q value w ∧ Held i w) fun error w => E error w ∧ Held i w) :
    KeychainTriple initially platform policy i P (locked body) Q E := by
  let R : Except String Unit → KeychainWorld → Prop :=
    afterResult (fun _ w => P w ∧ Held i w) fun _ => P
  have hR : ∀ answer, Firm i (R answer) := by
    rintro (_ | _)
    · exact hP
    · exact hP.and firm_held
  have hacquire : KeychainTriple initially platform policy i P (ask .acquireBlobLock) R E := by
    apply triple_ask hP hR
    rintro w (error | _) v hw hpre hv
    · exact guar_unchanged hw hpre hv
    · obtain ⟨hnone, rfl⟩ := hv
      refine ⟨⟨hw.agrees, hw.blob, hw.cache, hw.meant⟩,
        ⟨fun j _ hlock => ?_, fun _ h => h, fun _ _ => Iff.rfl⟩, hPlock w _ hpre, rfl⟩
      simp [hnone] at hlock
  unfold locked
  refine Task.triple_bind hacquire ?_
  rintro (error | _)
  · exact Task.triple_fail hP.toStable fun w _ hpre => hfail error w hpre
  · let S : Except String α → KeychainWorld → Prop := afterResult Q E
    refine Task.triple_bind (Task.triple_result (R := fun out w => S out w ∧ Held i w) hbody) ?_
    intro out
    have hS : Firm i (S out) := by
      cases out with
      | ok value => exact hQ value
      | error error => exact hE error
    have hSlock : LockFree (S out) := by
      cases out with
      | ok value => exact hQlock value
      | error error => exact hElock error
    refine Task.triple_bind (triple_releaseBlobLock hS hSlock) fun _ => ?_
    cases out with
    | ok value => exact Task.triple_pure hS.toStable fun _ _ h => h
    | error error => exact Task.triple_fail hS.toStable fun _ _ h => h

end Locking

section Storing

variable {initially : String → Option String} {platform : KeychainPlatform}
  {policy : KeychainPolicy} {i : KeychainCall} {key value : String}
  {E : String → KeychainWorld → Prop}
variable {raw : Option RawEntry} {current : Secrets}

/-- The map that a store starts from, unless the entry is damaged. -/
def mapOf : Option RawEntry → Option Secrets
  | none => some ∅
  | some (.secrets map) => some map
  | some (.text _) => none

theorem blobValue_of_mapOf {w : KeychainWorld}
    (hblob : w.blob = raw) (hmap : mapOf raw = some current) (k : String) :
    w.blobValue k = current[k]? := by
  unfold KeychainWorld.blobValue
  rw [hblob]
  rcases raw with _ | map | text
  · obtain rfl := Option.some_inj.mp hmap
    simp
  · obtain rfl := Option.some_inj.mp hmap
    rfl
  · cases hmap

/-- What a store knows between its read and its write. -/
def Reading (i : KeychainCall) (raw : Option RawEntry) (w : KeychainWorld) : Prop :=
  Unlogged i w ∧ Held i w ∧ w.blob = raw

theorem firm_reading (raw : Option RawEntry) : Firm i (Reading i raw) :=
  firm_unlogged.and (firm_heldBlob raw)

/-- The pair is on record, and the lock still held. -/
def Logged (i : KeychainCall) (key value : String) (w : KeychainWorld) : Prop :=
  .stored i key value ∈ w.history ∧ Held i w

theorem firm_loggedEvent (i : KeychainCall) (key value : String) :
    Firm i fun w => BlobEvent.stored i key value ∈ w.history :=
  firm_logged rfl

theorem firm_loggedHeld : Firm i (Logged i key value) :=
  (firm_loggedEvent i key value).and firm_held

theorem triple_currentMap (raw : Option RawEntry) :
    KeychainTriple initially platform policy i (Reading i raw) (currentMap raw)
      (fun map w => Reading i raw w ∧ mapOf raw = some map)
      fun _ w => Unlogged i w ∧ Held i w := by
  rcases raw with _ | map | text
  · exact Task.triple_pure (firm_reading _).toStable fun _ _ h => ⟨h, rfl⟩
  · exact Task.triple_pure (firm_reading _).toStable fun _ _ h => ⟨h, rfl⟩
  · exact Task.triple_fail (firm_reading _).toStable fun _ _ h => ⟨h.1, h.2.1⟩

theorem KeychainInvariant.setBlob {w : KeychainWorld} (hw : KeychainInvariant initially w)
    (hop : i.operation = .store key value)
    (hblob : w.blob = raw) (hmap : mapOf raw = some current) :
    KeychainInvariant initially (w.setBlob i (key, value) (current.insert key value)) where
  agrees k := by
    have hold := hw.agrees k
    rw [blobValue_of_mapOf hblob hmap] at hold
    simp only [KeychainWorld.blobValue, KeychainWorld.blob, KeychainWorld.setBlob,
      Function.update_self, lastStored, Std.ExtTreeMap.getElem?_insert, Std.compare_eq_iff_eq,
      ← hold, @eq_comm _ k key]
  blob r hr := by
    obtain rfl : RawEntry.secrets (current.insert key value) = r := by
      simpa [KeychainWorld.blob, KeychainWorld.setBlob] using hr
    exact List.mem_cons_self
  cache process map h := List.mem_cons_of_mem _ (hw.cache process map h)
  meant := List.forall_mem_cons.mpr ⟨hop, hw.meant⟩

theorem triple_setPassword (hop : i.operation = .store key value)
    (hmap : mapOf raw = some current) :
    KeychainTriple initially platform policy i (Reading i raw)
      (writeBlobRaw (key, value) (current.insert key value))
      (fun out w => match out with
        | .ok _ => Logged i key value w ∧ .secrets (current.insert key value) ∈ w.past
        | .error _ => Unlogged i w ∧ Held i w) E := by
  let Q : Except KeyringError Unit → KeychainWorld → Prop := fun answer w =>
    match answer with
    | .ok _ => Logged i key value w ∧ .secrets (current.insert key value) ∈ w.past
    | .error _ => Unlogged i w ∧ Held i w
  have hQ : ∀ answer, Firm i (Q answer) := by
    rintro (_ | _)
    · exact firm_unlogged.and firm_held
    · exact firm_loggedHeld.and (firm_past _)
  unfold writeBlobRaw
  refine Task.triple_bind (triple_ask (Q := Q) (firm_reading raw) hQ ?_) ?_
  · rintro w (error | _) v hw ⟨hfresh, hheld, hblob⟩ hv
    · have hsame : v = w := by cases error <;> exact hv
      exact guar_unchanged (P := Q (.error error)) hw ⟨hfresh, hheld⟩ hsame
    · obtain rfl : v = w.setBlob i (key, value) (current.insert key value) := hv
      refine ⟨hw.setBlob hop hblob hmap,
        guar_of_held hheld (fun r hr => List.mem_cons_of_mem _ hr) ?_,
        ⟨List.mem_cons_self, hheld⟩, List.mem_cons_self⟩
      intro event hcall
      refine ⟨fun h => ?_, List.mem_cons_of_mem _⟩
      rcases List.mem_cons.mp h with rfl | h
      · exact absurd rfl hcall
      · exact h
  · rintro (error | _)
    · have hpure : ∀ e : String, KeychainTriple initially platform policy i
          (fun w => Unlogged i w ∧ Held i w) (pure (.error e) : KeychainTask (Except String Unit))
          (fun out w => match out with
            | .ok _ => Logged i key value w ∧ .secrets (current.insert key value) ∈ w.past
            | .error _ => Unlogged i w ∧ Held i w) E :=
        fun e => Task.triple_pure (firm_unlogged.and firm_held).toStable fun _ _ h => h
      cases error <;> exact hpure _
    · exact Task.triple_pure (firm_loggedHeld.and (firm_past _)).toStable fun _ _ h => h

/-- A cache is set by the holder of the lock, and nothing is put on record. -/
theorem triple_setCache {P : KeychainWorld → Prop} (hP : Firm i P) (map : Option Secrets) :
    KeychainTriple initially platform policy i
      (fun w => P w ∧ ∀ m, map = some m → .secrets m ∈ w.past) (ask (.setCache map none))
      (fun _ => P) E := by
  have hpast : Firm i fun w : KeychainWorld => ∀ m, map = some m → .secrets m ∈ w.past :=
    ⟨fun _ _ hrely h m hm => hrely.past _ (h m hm), fun _ _ _ h => h⟩
  apply triple_ask (hP.and hpast) fun _ => hP
  rintro w _ v hw ⟨hpre, hmap⟩ rfl
  exact ⟨hw.setCache hmap i.process, SameBlob.guar ⟨rfl, rfl, rfl, rfl⟩,
    hP.apart w _ w.pending hpre⟩

/-- A store that finds its pair in the blob only records it. -/
theorem triple_confirm (hop : i.operation = .store key value) (hmap : mapOf raw = some current)
    (hsame : current.insert key value = current) :
    KeychainTriple initially platform policy i (Reading i raw)
      (ask (.setCache (some current) (some (key, value)))) (fun _ => Logged i key value) E := by
  have hvalue : current[key]? = some value := by
    rw [← hsame]
    simp
  have hraw : raw = some (.secrets current) := by
    rcases raw with _ | map | text
    · obtain rfl := Option.some_inj.mp hmap
      simp at hvalue
    · obtain rfl := Option.some_inj.mp hmap
      rfl
    · cases hmap
  apply triple_ask (firm_reading raw) fun _ => firm_loggedHeld
  rintro w _ v hw ⟨hfresh, hheld, hblob⟩ rfl
  have hpast : ∀ m, some current = some m → .secrets m ∈ w.past :=
    fun m hm => Option.some_inj.mp hm ▸ hw.blob _ (hblob.trans hraw)
  have hcache := hw.setCache hpast i.process
  have hmeant : ∀ event ∈ BlobEvent.stored i key value :: w.history, event.Meant :=
    List.forall_mem_cons.mpr ⟨hop, hw.meant⟩
  refine ⟨⟨fun k => ?_, hcache.blob, hcache.cache, hmeant⟩, guar_of_held hheld (fun _ h => h) ?_,
    List.mem_cons_self, hheld⟩
  · have hold := hw.agrees k
    simp only [KeychainWorld.putCache, lastStored]
    split_ifs with hk
    · subst hk
      rw [← hvalue]
      exact blobValue_of_mapOf hblob hmap k
    · exact hold
  · intro event hcall
    refine ⟨fun h => ?_, List.mem_cons_of_mem _⟩
    rcases List.mem_cons.mp h with rfl | h
    · exact absurd rfl hcall
    · exact h

theorem triple_store (hop : i.operation = .store key value) :
    KeychainTriple initially platform policy i (Unlogged i) (store key value)
      (fun _ w => .stored i key value ∈ w.history) fun _ => Unlogged i := by
  apply triple_locked firm_unlogged (fun _ => firm_loggedEvent i key value) (fun _ => firm_unlogged)
    (fun _ _ h => h) (fun _ _ _ h => h) (fun _ _ _ h => h) (fun _ _ h => h)
  have hread : KeychainTriple initially platform policy i (fun w => Unlogged i w ∧ Held i w)
      (readBlobRaw false) (Reading i) fun _ w => Unlogged i w ∧ Held i w :=
    triple_readBlobRaw (firm_unlogged.and firm_held) firm_reading
      (fun w out _ hpre hout => ⟨hpre.1, hpre.2, hout⟩) false
  refine Task.triple_bind hread fun raw => Task.triple_bind (triple_currentMap raw)
    fun current => ?_
  refine Task.triple_pull fun hmap => Task.triple_ite
    (fun hsame => triple_confirm hop hmap hsame) ?_
  intro _
  refine Task.triple_bind (triple_setPassword hop hmap) ?_
  rintro (error | _)
  · refine Task.triple_bind ((triple_setCache (firm_unlogged.and firm_held) none).weaken
      fun _ _ h => ⟨h, fun m hm => nomatch hm⟩) fun _ => ?_
    exact Task.triple_fail (firm_unlogged.and firm_held).toStable fun _ _ h => h
  · refine (triple_setCache firm_loggedHeld _).weaken fun w _ h => ⟨h.1, fun m hm => ?_⟩
    exact Option.some_inj.mp hm ▸ h.2

end Storing

section Wiping

variable {initially : String → Option String} {platform : KeychainPlatform}
  {policy : KeychainPolicy} {i : KeychainCall}

theorem KeychainInvariant.eraseEntry {w : KeychainWorld} (hw : KeychainInvariant initially w)
    (hop : i.operation = .wipe) (key : String) :
      KeychainInvariant initially (w.eraseEntry i key) := by
  have hmeant : ∀ event ∈ (w.eraseEntry i key).history, event.Meant := by
    simp only [KeychainWorld.eraseEntry]
    split_ifs
    · exact List.forall_mem_cons.mpr ⟨hop, hw.meant⟩
    · exact hw.meant
  by_cases hkey : key = blobKey
  · have hblob : (w.eraseEntry i key).blob = none := by
      simp [KeychainWorld.blob, KeychainWorld.eraseEntry, hkey]
    have hvalue : ∀ k, (w.eraseEntry i key).blobValue k = none := by
      intro k
      simp only [KeychainWorld.blobValue, hblob]
    refine ⟨fun k => ?_, fun raw hraw => ?_, hw.cache, hmeant⟩
    · rw [hvalue k]
      by_cases hnone : w.blob = none
      · have hold := hw.agrees k
        simp only [KeychainWorld.blobValue, hnone] at hold
        simpa [KeychainWorld.eraseEntry, hnone] using hold
      · simp [KeychainWorld.eraseEntry, hkey, hnone, lastStored]
    · rw [hblob] at hraw
      cases hraw
  · have hblob : (w.eraseEntry i key).blob = w.blob := by
      simp [KeychainWorld.blob, KeychainWorld.eraseEntry, Function.update_of_ne (Ne.symm hkey)]
    have hhistory : (w.eraseEntry i key).history = w.history := by
      simp [KeychainWorld.eraseEntry, hkey]
    refine ⟨fun k => ?_, fun raw hraw => hw.blob raw (hblob ▸ hraw), hw.cache, hmeant⟩
    rw [hhistory, ← hw.agrees k]
    simp only [KeychainWorld.blobValue, hblob]

theorem eraseEntry_others {w : KeychainWorld} (key : String) (event : BlobEvent)
    (hcall : event.call ≠ i) : event ∈ (w.eraseEntry i key).history ↔ event ∈ w.history := by
  simp only [KeychainWorld.eraseEntry]
  split_ifs with h
  · refine ⟨fun hmem => ?_, List.mem_cons_of_mem _⟩
    rcases List.mem_cons.mp hmem with rfl | hmem
    · exact absurd rfl hcall
    · exact hmem
  · exact Iff.rfl

theorem triple_deleteEntry (hop : i.operation = .wipe)
    (key constructor unavailable label : String) :
    KeychainTriple initially platform policy i (Held i)
      (deleteEntry key constructor unavailable label) (fun _ => Held i) fun _ => Held i := by
  unfold deleteEntry
  refine Task.triple_bind (triple_ask (Q := fun _ => Held i) firm_held (fun _ => firm_held) ?_) ?_
  · rintro w ((_ | _ | _) | _) v hw hheld hv
    · exact guar_unchanged hw hheld hv
    · exact guar_unchanged hw hheld hv.2
    · exact guar_unchanged hw hheld hv
    · obtain rfl : v = w.eraseEntry i key := hv
      exact ⟨hw.eraseEntry hop key, guar_of_held hheld (fun _ h => h)
        (eraseEntry_others key), hheld⟩
  · rintro ((_ | _ | _) | _)
    · exact Task.triple_fail firm_held.toStable fun _ _ h => h
    · exact Task.triple_pure firm_held.toStable fun _ _ h => h
    · exact Task.triple_ite (fun _ => Task.triple_fail firm_held.toStable fun _ _ h => h)
        fun _ => Task.triple_fail firm_held.toStable fun _ _ h => h
    · exact Task.triple_pure firm_held.toStable fun _ _ h => h

theorem triple_deleteProtected (key label : String) :
    KeychainTriple initially platform policy i (Held i) (deleteProtected key label)
      (fun _ => Held i) fun _ => Held i := by
  unfold deleteProtected
  refine Task.triple_bind (triple_ask (Q := fun _ => Held i) firm_held (fun _ => firm_held) ?_) ?_
  · rintro w ((_ | _ | _) | _) v hw hheld hv
    · exact guar_unchanged hw hheld hv.2.2
    · exact guar_unchanged hw hheld hv.2
    · exact guar_unchanged hw hheld hv
    · obtain ⟨-, rfl⟩ := hv
      exact ⟨⟨hw.agrees, hw.blob, hw.cache, hw.meant⟩, SameBlob.guar ⟨rfl, rfl, rfl, rfl⟩, hheld⟩
  · rintro ((_ | _ | _) | _)
    · exact Task.triple_pure firm_held.toStable fun _ _ h => h
    · exact Task.triple_pure firm_held.toStable fun _ _ h => h
    · exact Task.triple_fail firm_held.toStable fun _ _ h => h
    · exact Task.triple_pure firm_held.toStable fun _ _ h => h

theorem triple_onMacos {P : KeychainWorld → Prop} (hP : Firm i P) (macos : Bool)
    {t : KeychainTask Unit} {E : String → KeychainWorld → Prop}
    (h : KeychainTriple initially platform policy i P t (fun _ => P) E) :
    KeychainTriple initially platform policy i P (onMacos macos t) (fun _ => P) E :=
  Task.triple_ite (fun _ => h) fun _ => Task.triple_pure hP.toStable fun _ _ h => h

theorem triple_deleteLegacyKey (hop : i.operation = .wipe) (key : String) :
    KeychainTriple initially platform policy i (Held i) (deleteLegacyKey platform.macos key)
      (fun _ => Held i) fun _ => Held i :=
  Task.triple_bind (triple_onMacos firm_held _ (triple_deleteProtected key _)) fun _ =>
    triple_deleteEntry hop key _ _ _

theorem triple_deleteAllWithLegacyCleanup (hop : i.operation = .wipe) :
    KeychainTriple initially platform policy i (fun _ => True)
      (deleteAllWithLegacyCleanup platform.macos) (fun _ _ => True) fun _ _ => True := by
  apply triple_locked (firm_const True) (fun _ => firm_const True) (fun _ => firm_const True)
    (fun _ _ h => h) (fun _ _ _ h => h) (fun _ _ _ h => h) (fun _ _ h => h)
  have hread : KeychainTriple initially platform policy i (Held i) (Task.result (readBlobRaw false))
      (fun _ => Held i) fun _ => Held i :=
    Task.triple_result (R := fun _ => Held i) (triple_readBlobRaw firm_held (fun _ => firm_held)
      (fun _ _ _ h _ => h) false)
  have hbody := Task.triple_bind hread fun read =>
    Task.triple_bind (Task.triple_forEach (I := fun _ => Held i) firm_held.toStable
      (fun key _ => triple_deleteLegacyKey hop key) (wipedKeys read)) fun _ =>
    Task.triple_bind (triple_onMacos firm_held platform.macos (triple_deleteProtected blobKey
      "dpk blob delete")) fun _ =>
    Task.triple_bind (triple_deleteEntry hop blobKey "keyring entry constructor blob"
      "keyring unavailable" "keyring blob delete") fun _ =>
    (triple_setCache firm_held none).weaken fun _ _ h => ⟨h, fun m hm => nomatch hm⟩
  exact hbody.conseq (fun _ _ h => h.2) (fun _ _ _ h => ⟨trivial, h⟩) fun _ _ _ h => ⟨trivial, h⟩

end Wiping

section Runs

variable (platform : KeychainPlatform) {policy : KeychainPolicy}

/-- The outcome of a call is made from what its task returns. -/
theorem triple_outcome {initially : String → Option String} {i : KeychainCall} {α : Type}
    {P R : KeychainWorld → Prop} {E : String → KeychainWorld → Prop} {t : KeychainTask α}
    {outcome : α → KeychainOutcome} (hR : Firm i R)
    (h : KeychainTriple initially platform policy i P t (fun _ => R) E) :
    KeychainTriple initially platform policy i P (t >>= fun value => pure (outcome value))
      (fun _ => R) E :=
  Task.triple_bind h fun _ => Task.triple_pure hR.toStable fun _ _ hpost => hpost

theorem keychain_launchesSafe (initially : String → Option String) :
    (keychainDiscipline initially platform policy).LaunchesSafe := by
  rintro i w p hw ⟨-, hfresh, rfl⟩
  obtain ⟨process, number, operation⟩ := i
  have htrue : Firm ⟨process, number, operation⟩ fun _ => True := firm_const True
  cases operation with
  | store key value =>
      exact (triple_outcome platform (firm_loggedEvent _ key value) (triple_store rfl)).program
        (fun _ _ _ h => h trivial) (fun _ _ _ h => h trivial) () hw fun _ => hfresh
  | load =>
      exact (triple_outcome platform htrue (triple_loadBlob htrue)).program
        (fun _ _ _ _ => trivial) (fun _ _ _ _ => trivial) () hw fun _ => trivial
  | probe key =>
      exact (triple_outcome platform htrue (triple_probe htrue key)).program
        (fun _ _ _ _ => trivial) (fun _ _ _ _ => trivial) () hw fun _ => trivial
  | wipe =>
      exact (triple_outcome platform htrue (triple_deleteAllWithLegacyCleanup rfl)).program
        (fun _ _ _ _ => trivial) (fun _ _ _ _ => trivial) () hw fun _ => trivial

theorem keychain_holds {start pool : KeychainPool} (hstart : start.Starts)
    (hreach : PoolReach (keychainSystem platform policy) start pool) :
    (keychainDiscipline start.world.blobValue platform policy).Holds pool := by
  refine Discipline.Holds.reach (keychain_launchesSafe platform _) ⟨⟨?_, ?_, ?_, ?_⟩, ?_⟩ hreach
  · intro key
    rw [hstart.history]
    rfl
  · intro raw hraw
    rw [hstart.past, Option.mem_toList]
    exact hraw
  · intro process map hmap
    rw [hstart.cache process] at hmap
    cases hmap
  · intro event hmem
    rw [hstart.history] at hmem
    cases hmem
  · intro i p hp
    rw [hstart.threads i] at hp
    cases hp

/-- In every run of any calls of any processes the blob maps each key to what was stored for it
last, unless it was wiped since, and each event on record is of a call for it; a store that returned
without an error is on record and one that failed is not; and a cache holds only what the blob has
held. -/
theorem no_secret_lost {start pool : KeychainPool} (hstart : start.Starts)
    (hreach : PoolReach (keychainSystem platform .any) start pool) :
    (∀ key, pool.world.blobValue key =
      lastStored start.world.blobValue pool.world.history key) ∧
    (∀ event ∈ pool.world.history, event.Meant) ∧
    (∀ i key value out, i.operation = .store key value → pool.threads i = some (.pure out) →
      (∀ outcome, out.1 = .ok outcome → .stored i key value ∈ pool.world.history) ∧
      (∀ error, out.1 = .error error → ∀ event ∈ pool.world.history, event.call ≠ i)) ∧
    (∀ process map, pool.world.cache process = some map → .secrets map ∈ pool.world.past) := by
  have hholds := keychain_holds platform hstart hreach
  refine ⟨hholds.valid.agrees, hholds.valid.meant, fun i key value out hop hthread => ?_,
    hholds.valid.cache⟩
  have hpost : KeychainPost i out pool.world := hholds.post hthread
  simp only [KeychainPost, hop] at hpost
  constructor
  · intro outcome hout
    simpa [hout] using hpost
  · intro error hout
    simpa [hout] using hpost

/-- Two processes store a secret each. The second one starts while the first holds the lock, fails
to write and tries again. -/
theorem no_secret_lost_two_writers :
    ∃ pool : KeychainPool,
      PoolReach (keychainSystem ⟨false, fun _ => true⟩ .any) (restingKeychain fun _ => none) pool ∧
      .stored ⟨0, 0, .store "identity" "nsec1"⟩ "identity" "nsec1" ∈ pool.world.history ∧
      (∀ event ∈ pool.world.history, event.call ≠ ⟨1, 0, .store "relay" "token"⟩) ∧
      pool.world.blobValue "identity" = some "nsec1" ∧
      pool.world.blobValue "relay" =
        lastStored (fun _ => none) pool.world.history "relay" := by
  let first : KeychainCall := ⟨0, 0, .store "identity" "nsec1"⟩
  let second : KeychainCall := ⟨1, 0, .store "relay" "token"⟩
  let again : KeychainCall := ⟨1, 1, .store "relay" "token"⟩
  let script := keychainScript ⟨false, fun _ => true⟩ .any (fun _ _ _ _ => true)
    fun _ _ _ _ _ => trivial
  let acts : List (Act KeychainCall KeychainMode Unit) :=
    [.launch first (), .steps first .healthy 2, .launch second (), .steps first .healthy 3,
      .steps second .healthy 2, .steps second .failing 3, .launch again (),
      .steps again .healthy 5]
  have hplay : (script.play acts (restingKeychain fun _ => none)).map (fun pool : KeychainPool =>
      (pool.world.blobValue "identity", pool.outcome first, pool.outcome second)) =
      some (some "nsec1", some (.ok .stored, ()),
        some (.error "keyring write: the keychain timed out", ())) := by
    decide +kernel
  obtain ⟨pool, hpool, heq⟩ := Option.map_eq_some_iff.mp hplay
  simp only [Prod.mk.injEq] at heq
  obtain ⟨hidentity, hfirst, hsecond⟩ := heq
  have hreach := Script.reach_play acts hpool
  obtain ⟨hagrees, -, hstores, -⟩ := no_secret_lost _ (restingKeychain_starts _) hreach
  have hstored := (hstores first "identity" "nsec1" _ rfl (pool.threads_of_outcome hfirst)).1
  have hfailed := (hstores second "relay" "token" _ rfl (pool.threads_of_outcome hsecond)).2
  exact ⟨pool, hreach, hstored _ rfl, hfailed _ rfl, hidentity, hagrees "relay"⟩

end Runs

end Buzz.Keychain
