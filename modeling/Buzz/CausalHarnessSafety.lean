import Buzz.CausalInvariant
import Buzz.QuietTasks

/-!
# The harness keeps the invariant

One lemma for each function of the harness, by the rules for tasks. The claim
around the ACP operation is the core: it writes the claimed handoff, the
watermark and the executing handoff in this order, and a silent turn takes the
handoff back before the watermark. Reading, staging and examining rows move the
world no further than the others do.
-/

namespace Buzz

open EffectProgram

variable {config : Config} {decode : EnvelopeDecoder} {nonce : String}

/-- The contract of the harness in the system of both programs. -/
abbrev harnessContract (config : Config) (decode : EnvelopeDecoder) :
    Contract CausalWorld CausalRequest CausalRequest.Reply :=
  (causalDiscipline config decode).contract .harness

section Rules

variable {α : Type} {memory : HarnessMemory} {w : CausalWorld}
  {bad : HarnessError → HarnessMemory → CausalWorld → Prop}
variable {request : CausalRequest} {ok : request.Reply → Bool} {error : HarnessError}

theorem HarnessGuar.refl (h : w.alive = some nonce) : HarnessGuar w w where
  awake := by simp [h]
  alive := rfl
  nonces := rfl
  completed := fun _ hdone => hdone
  records := fun _ _ hmessage => Or.inl hmessage
  frozen := staysFrozen_refl w

theorem safe_pure {good : α → HarnessMemory → CausalWorld → Prop} {value : α}
    (hn : w.alive = some nonce)
    (h : ∀ u, CausalValid config.groupId u → Undisturbed nonce w u → good value memory u) :
    Task.Safe (harnessContract config decode) good bad (pure value : HarnessTask α) memory w :=
  Task.safe_ret fun u hu hrely => h u hu (hrely.2 nonce hn)

theorem safe_error {good : α → HarnessMemory → CausalWorld → Prop} (hn : w.alive = some nonce)
    (h : ∀ u, CausalValid config.groupId u → Undisturbed nonce w u → bad error memory u) :
    Task.Safe (harnessContract config decode) good bad (Task.fail error : HarnessTask α) memory
      w :=
  Task.safe_fail fun u hu hrely => h u hu (hrely.2 nonce hn)

theorem safe_ask (request : CausalRequest)
    {good : request.Reply → HarnessMemory → CausalWorld → Prop} (hn : w.alive = some nonce)
    (h : ∀ t answer u, CausalValid config.groupId t → Undisturbed nonce w t →
      request.commits t answer u → CausalValid config.groupId u ∧ HarnessGuar t u ∧
        ∀ v, CausalValid config.groupId v → Undisturbed nonce u v → good answer memory v) :
    Task.Safe (harnessContract config decode) good bad (ask request) memory w := by
  apply Task.safe_perform
  intro t ht hrely answer u hcommit
  have hundisturbed := hrely.2 nonce hn
  obtain ⟨hu, hguar, hafter⟩ := h t answer u ht hundisturbed hcommit.1
  have hu' : u.alive = some nonce := hguar.alive.trans hundisturbed.alive
  exact ⟨hu, hguar, fun v hv hrely' => hafter v hv (hrely'.2 nonce hu')⟩

/-- A request that only reads leaves the world to the others. -/
theorem safe_ask_quiet (request : CausalRequest)
    {good : request.Reply → HarnessMemory → CausalWorld → Prop} (hn : w.alive = some nonce)
    (hquiet : request.isQuiet = true)
    (h : ∀ t answer v, CausalValid config.groupId t → Undisturbed nonce w t →
      request.commits t answer t → CausalValid config.groupId v → Undisturbed nonce t v →
        good answer memory v) :
    Task.Safe (harnessContract config decode) good bad (ask request) memory w := by
  apply safe_ask request hn
  intro t answer u ht hundisturbed hcommit
  obtain rfl := CausalRequest.eq_of_isQuiet hquiet hcommit
  exact ⟨ht, HarnessGuar.refl hundisturbed.alive,
    fun v hv hafter => h u answer v ht hundisturbed hcommit hv hafter⟩

theorem safe_getMemory (hn : w.alive = some nonce) :
    Task.Safe (harnessContract config decode)
      (fun current m v => current = memory ∧ m = memory ∧ Undisturbed nonce w v) bad
      (Task.getMemory : HarnessTask HarnessMemory) memory w :=
  Task.safe_getMemory fun _ _ hrely => ⟨rfl, rfl, hrely.2 nonce hn⟩

theorem safe_setMemory {next : HarnessMemory} (hn : w.alive = some nonce) :
    Task.Safe (harnessContract config decode)
      (fun _ m v => m = next ∧ Undisturbed nonce w v) bad
      (Task.setMemory next : HarnessTask Unit) memory w :=
  Task.safe_setMemory fun _ _ hrely => ⟨rfl, hrely.2 nonce hn⟩

theorem safe_orFail {good : Unit → HarnessMemory → CausalWorld → Prop}
    (hw : CausalValid config.groupId w) (hn : w.alive = some nonce)
    (hbad : ∀ v, bad error memory v)
    (h : ∀ t answer u, CausalValid config.groupId t → Undisturbed nonce w t →
      request.commits t answer u → CausalValid config.groupId u ∧ HarnessGuar t u ∧
        ∀ v, CausalValid config.groupId v → Undisturbed nonce u v → ok answer = true →
          good () memory v) :
    Task.Safe (harnessContract config decode) good bad (orFail request error ok) memory w := by
  have hask : Task.Safe (harnessContract config decode)
      (fun answer m v => m = memory ∧ v.alive = some nonce ∧
        ∀ v', CausalValid config.groupId v' → Undisturbed nonce v v' → ok answer = true →
          good () memory v') bad (ask request) memory w := by
    apply safe_ask request hn
    intro t answer u ht hundisturbed hcommit
    obtain ⟨hu, hguar, hafter⟩ := h t answer u ht hundisturbed hcommit
    exact ⟨hu, hguar, fun v _ hv =>
      ⟨rfl, hv.alive, fun v' hv' hlater hok => hafter v' hv' (hv.trans hlater) hok⟩⟩
  refine Task.safe_bind hw hask fun answer m v hv hmid => ?_
  obtain ⟨rfl, hn', hgood⟩ := hmid
  cases hok : ok answer with
  | true => exact safe_pure hn' fun v' hv' hlater => hgood v' hv' hlater hok
  | false => exact safe_error hn' fun v' _ _ => hbad v'

theorem safe_orFail_quiet (hw : CausalValid config.groupId w) (hn : w.alive = some nonce)
    (hquiet : request.isQuiet = true) (hbad : ∀ v, bad error memory v) :
    Task.Safe (harnessContract config decode)
      (fun _ m v => m = memory ∧ Undisturbed nonce w v) bad (orFail request error ok) memory w := by
  refine safe_orFail hw hn hbad fun t answer u ht hundisturbed hcommit => ?_
  obtain rfl := CausalRequest.eq_of_isQuiet hquiet hcommit
  exact ⟨ht, HarnessGuar.refl hundisturbed.alive,
    fun v hv hafter _ => ⟨rfl, hundisturbed.trans hafter⟩⟩

/-- A write that reports success; `updated` is its effect. -/
theorem safe_write
    {good : Unit → HarnessMemory → CausalWorld → Prop} (updated : CausalWorld → CausalWorld)
    (hw : CausalValid config.groupId w) (hn : w.alive = some nonce)
    (hbad : ∀ v, bad .stateIo memory v)
    (hwrites : ∀ t answer u, request.commits t answer u → Writes t (updated t) (ok answer) u)
    (h : ∀ t, CausalValid config.groupId t → Undisturbed nonce w t →
      CausalValid config.groupId (updated t) ∧ HarnessGuar t (updated t) ∧
        ∀ v, CausalValid config.groupId v → Undisturbed nonce (updated t) v →
          good () memory v) :
    Task.Safe (harnessContract config decode) good bad (orFail request .stateIo ok) memory w := by
  refine safe_orFail hw hn hbad fun t answer u ht hundisturbed hcommit => ?_
  rcases hwrites t answer u hcommit with rfl | ⟨hfailed, rfl⟩
  · obtain ⟨hu, hguar, hafter⟩ := h t ht hundisturbed
    exact ⟨hu, hguar, fun v hv hlater _ => hafter v hv hlater⟩
  · refine ⟨ht, HarnessGuar.refl hundisturbed.alive, fun v _ _ hok => ?_⟩
    rw [hfailed] at hok
    cases hok

end Rules

/-- An error that ends the harness and blames no file of the two programs. -/
def Fatal (error : HarnessError) : Prop :=
  error.isSilent = false ∧ OnlyMalformedIds error

theorem fatal_of_not_invalid {error : HarnessError} (hsilent : error.isSilent = false)
    (h : ∀ subject, error ≠ .pendingCausalInvalid subject) : Fatal error :=
  ⟨hsilent, fun subject heq => absurd heq (h subject)⟩

theorem fatal_stateIo : Fatal .stateIo :=
  fatal_of_not_invalid rfl (by simp)

theorem fatal_x0x (reason : X0xError) : Fatal (.x0x reason) :=
  fatal_of_not_invalid rfl (by simp)

theorem readsHistory_harness (config : Config) (decode : EnvelopeDecoder) :
    ReadsHistory (harnessContract config decode) where
  page := by
    intro t scope limit beforeId answer u hcommit
    obtain ⟨⟨rfl, hpage⟩, -, hawake⟩ := hcommit
    obtain ⟨nonce, halive⟩ := Option.ne_none_iff_exists'.mp (hawake rfl)
    exact ⟨rfl, fun _ => HarnessGuar.refl halive, hpage⟩
  rows := fun _ _ hrely => hrely.1

theorem quietContract_harness (config : Config) (decode : EnvelopeDecoder) :
    QuietContract (harnessContract config decode) := by
  intro t request answer u hquiet hcommit
  obtain ⟨hcommit, -, hawake⟩ := hcommit
  obtain ⟨nonce, halive⟩ := Option.ne_none_iff_exists'.mp (hawake rfl)
  exact ⟨CausalRequest.eq_of_isQuiet hquiet hcommit, fun _ => HarnessGuar.refl halive⟩

/-- The handoff in hand is the one on disk and its message is not completed. -/
structure Held (nonce : String) (w : CausalWorld) (entry : PendingCausalEntry) : Prop where
  pending : w.pending entry.stem = some entry.message
  notCompleted : w.completed entry.stem = none
  startNonce : entry.message.startNonce = nonce
  msgId : entry.message.msgId = entry.stem

theorem Held.kept {w v : CausalWorld} {entry : PendingCausalEntry} (h : Held nonce w entry)
    (hkept : Kept nonce w v) : Held nonce v entry where
  pending := hkept.held h.notCompleted h.pending
  notCompleted := by rw [hkept.completed, h.notCompleted]
  startNonce := h.startNonce
  msgId := h.msgId

section Loading

variable (harness : HarnessContext) {memory : HarnessMemory} {w : CausalWorld}
  {bad : HarnessError → HarnessMemory → CausalWorld → Prop}
  (hbad : ∀ error m v, Fatal error → bad error m v)
variable {stem : String} {message : PendingCausalMessage}

include hbad in
theorem safe_completedCausalExists (msgId : String)
    (hw : CausalValid harness.config.groupId w) (hn : w.alive = some harness.causalNonce) :
    Task.Safe (harnessContract harness.config harness.decode)
      (fun done m v => m = memory ∧ Undisturbed harness.causalNonce w v ∧
        (done = true ↔ w.completed msgId ≠ none))
      bad (completedCausalExists harness msgId) memory w := by
  have hask : Task.Safe (harnessContract harness.config harness.decode)
      (fun answer m v => m = memory ∧ Undisturbed harness.causalNonce w v ∧
        Reads (w.completed msgId) answer)
      bad (ask (.readCompleted msgId false)) memory w := by
    apply safe_ask_quiet (.readCompleted msgId false) hn rfl
    intro t answer v ht hundisturbed hcommit hv hafter
    refine ⟨rfl, hundisturbed.trans hafter, ?_⟩
    rw [← hundisturbed.completed]
    exact hcommit.2
  refine Task.safe_bind hw hask fun answer m v hv hmid => ?_
  obtain ⟨rfl, hundisturbed, hreads⟩ := hmid
  cases answer with
  | missing =>
      refine safe_pure hundisturbed.alive fun u _ hafter => ⟨rfl, hundisturbed.trans hafter, ?_⟩
      have hnone : w.completed msgId = none := hreads
      simp [hnone]
  | failed => exact safe_error hundisturbed.alive fun u _ _ => hbad _ _ _ fatal_stateIo
  | found completed =>
      have hsome : w.completed msgId = some completed := hreads
      obtain rfl := hw.tombstone msgId completed hsome
      simp only [ne_eq, not_true_eq_false, decide_false, Bool.or_self, Bool.false_eq_true, if_false]
      refine safe_pure hundisturbed.alive fun u _ hafter => ⟨rfl, hundisturbed.trans hafter, ?_⟩
      simp [hsome]

theorem undisturbed_removePending (hn : w.alive = some nonce)
    (hdone : w.completed stem ≠ none) : Undisturbed nonce w (w.setPending stem none) where
  alive := hn
  watermark := rfl
  completed := rfl
  entries := rfl
  rows := fun _ hrow => hrow
  pending := by
    intro other
    by_cases hother : other = stem
    · subst hother
      refine Or.inr ⟨Or.inl hdone, ?_⟩
      rintro ⟨message, hmessage, -⟩
      rw [pending_setPending_self] at hmessage
      cases hmessage
    · exact Or.inl (pending_setPending_of_ne none hother)

theorem harnessGuar_setPending {message : Option PendingCausalMessage} (hn : w.alive = some nonce)
    (hnonce : ∀ record, message = some record → record.startNonce = nonce)
    (hfree : w.completed stem ≠ none ∨ ¬w.Frozen stem) :
    HarnessGuar w (w.setPending stem message) where
  awake := by simp [hn]
  alive := rfl
  nonces := rfl
  completed := fun _ hdone => hdone
  records := by
    intro other record hrecord
    by_cases hother : other = stem
    · subst hother
      rw [pending_setPending_self] at hrecord
      rw [hn, hnonce record hrecord]
      exact Or.inr rfl
    · rw [pending_setPending_of_ne message hother] at hrecord
      exact Or.inl hrecord
  frozen := staysFrozen_setPending message hfree

theorem upgradedEntry_of_ok {groupId : String}
    {nonces : List String} (h : RecordOk groupId nonces stem message) :
    upgradedEntry stem message = ⟨stem, message⟩ := by
  obtain ⟨version, startNonce, group, msgId, state⟩ := message
  obtain ⟨rfl, rfl, rfl, hstem, -, -⟩ := h
  simp [upgradedEntry, hstem.2]

theorem identityValid_of_ok
    {nonces : List String} (h : RecordOk harness.config.groupId nonces stem message) :
    identityValid harness stem message = true := by
  obtain ⟨version, startNonce, group, msgId, state⟩ := message
  obtain ⟨rfl, rfl, rfl, hstem, -, -⟩ := h
  simp [identityValid, hstem.2, hstem.1]

theorem stateValid_of_ok {groupId : String}
    {nonces : List String} (h : RecordOk groupId nonces stem message) :
    stateValid message = true := by
  simp [stateValid, h.version]

include hbad in
/-- Removing the handoff of a completed message disturbs nobody. -/
theorem safe_removeCompleted (hw : CausalValid config.groupId w)
    (hn : w.alive = some nonce) (hdone : w.completed stem ≠ none) :
    Task.Safe (harnessContract config decode)
      (fun _ m v => m = memory ∧ Undisturbed nonce w v)
      bad (orFail (.removePending stem) .stateIo id) memory w := by
  refine safe_write (fun t => t.setPending stem none) hw hn
    (fun v => hbad _ _ v fatal_stateIo) (fun t answer u h => h) fun t ht hundisturbed => ?_
  have hdone' : t.completed stem ≠ none := by rw [hundisturbed.completed]; exact hdone
  have hguar : HarnessGuar t (t.setPending stem none) :=
    harnessGuar_setPending hundisturbed.alive (by simp) (Or.inl hdone')
  have hremoved := undisturbed_removePending hundisturbed.alive hdone'
  exact ⟨ht.removeCompleted hdone', hguar,
    fun v _ hafter => ⟨rfl, (hundisturbed.trans hremoved).trans hafter⟩⟩

/-- What reading one file gives: the handoff as it stands, and no handoff of this
generation is passed over unless its message is completed. -/
def LoadedFile (nonce : String) (w : CausalWorld) (stem : String)
    (entry : Option PendingCausalEntry) (v : CausalWorld) : Prop :=
  Undisturbed nonce w v ∧
    (∀ held, entry = some held → held.stem = stem ∧ Held nonce v held) ∧
    ∀ message, w.pending stem = some message → w.completed stem = none →
      message.startNonce = nonce → entry ≠ none

include hbad in
theorem safe_loadPendingFile (stem : String) (hw : CausalValid harness.config.groupId w)
    (hn : w.alive = some harness.causalNonce) :
    Task.Safe (harnessContract harness.config harness.decode)
      (fun entry m v => m = memory ∧ LoadedFile harness.causalNonce w stem entry v)
      bad (loadPendingFile harness stem) memory w := by
  have hask : Task.Safe (harnessContract harness.config harness.decode)
      (fun answer m v => m = memory ∧ Undisturbed harness.causalNonce w v ∧
        ∀ message, answer = .found message →
          (∃ nonces, RecordOk harness.config.groupId nonces stem message) ∧
          ∃ t, Undisturbed harness.causalNonce w t ∧ Undisturbed harness.causalNonce t v ∧
            t.pending stem = some message)
      bad (ask (.readPending stem)) memory w := by
    apply safe_ask_quiet (.readPending stem) hn rfl
    intro t answer v ht hundisturbed hcommit hv hafter
    refine ⟨rfl, hundisturbed.trans hafter, ?_⟩
    rintro message rfl
    have hmessage : t.pending stem = some message := hcommit.2
    exact ⟨⟨t.nonces, ht.record stem message hmessage⟩, t, hundisturbed, hafter, hmessage⟩
  refine Task.safe_bind hw hask fun answer m v hv hmid => ?_
  obtain ⟨rfl, hwv, hfound⟩ := hmid
  cases answer with
  | missing | failed => exact safe_error hwv.alive fun u _ _ => hbad _ _ _ fatal_stateIo
  | found message =>
      obtain ⟨⟨nonces, hok⟩, t, hwt, htv, hmessage⟩ := hfound message rfl
      have hlower : toAsciiLowercase message.msgId = stem := by rw [hok.msgId, hok.stem.2]
      simp only [handoffCompleted, identityValid_of_ok harness hok, stateValid_of_ok hok, hlower,
        if_true, Bool.true_and, Bool.and_true]
      refine Task.safe_bind hv (safe_completedCausalExists harness hbad stem hv hwv.alive)
        fun done m' u hu hmid => ?_
      obtain ⟨rfl, hvu, hdone⟩ := hmid
      have hwu := hwv.trans hvu
      have hcompleted : v.completed stem = w.completed stem := by rw [hwv.completed]
      cases done with
      | true =>
          have hcomplete : w.completed stem ≠ none := by rw [← hcompleted]; exact hdone.mp rfl
          simp only [if_true]
          refine Task.safe_bind hu (safe_removeCompleted hbad hu hwu.alive ?_)
            fun _ m'' u' hu' hmid => ?_
          · rw [hwu.completed]
            exact hcomplete
          · obtain ⟨rfl, huu'⟩ := hmid
            refine safe_pure huu'.alive fun x _ hafter =>
              ⟨rfl, (hwu.trans huu').trans hafter, by simp, ?_⟩
            intro message' _ hopen
            exact absurd hopen hcomplete
      | false =>
          have hopen : w.completed stem = none := by
            rw [← hcompleted]
            by_contra hne
            exact Bool.false_ne_true (hdone.mpr hne)
          have hopenAt : t.completed stem = none := by rw [hwt.completed, hopen]
          by_cases hnonce : message.startNonce = harness.causalNonce
          · simp only [hnonce, Bool.false_eq_true, if_false, beq_self_eq_true, if_true]
            rw [upgradedEntry_of_ok hok]
            have hheld : Held harness.causalNonce u ⟨stem, message⟩ :=
              { pending := (htv.trans hvu).held hopenAt hmessage
                notCompleted := by rw [hwu.completed, hopen]
                startNonce := hnonce
                msgId := hok.msgId }
            refine safe_pure hwu.alive fun x _ hafter => ⟨rfl, hwu.trans hafter, ?_, by simp⟩
            rintro held hsome
            obtain rfl := Option.some_inj.mp hsome
            exact ⟨rfl, hheld.kept hafter.toKept⟩
          · simp only [hnonce, Bool.false_eq_true, if_false, beq_iff_eq, ne_eq, not_false_eq_true,
              if_true]
            refine safe_pure hwu.alive fun x _ hafter => ⟨rfl, hwu.trans hafter, by simp, ?_⟩
            intro message' hmessage' _ hnonce'
            have hsame : t.pending stem = some message' := hwt.held hopen hmessage'
            rw [hmessage, Option.some.injEq] at hsame
            rw [hsame] at hnonce
            exact absurd hnonce' hnonce

/-- The handoffs that a listing of `stems` gives. -/
structure LoadedFiles (nonce : String) (w : CausalWorld) (stems : List String)
    (entries : List PendingCausalEntry) (v : CausalWorld) : Prop where
  undisturbed : Undisturbed nonce w v
  held : ∀ entry ∈ entries, Held nonce v entry
  sublist : (entries.map PendingCausalEntry.stem).Sublist stems
  complete : ∀ stem ∈ stems, ∀ message, w.pending stem = some message →
    w.completed stem = none → message.startNonce = nonce → ∃ entry ∈ entries, entry.stem = stem

theorem LoadedFiles.cons {u v : CausalWorld} {stems : List String}
    {entry : Option PendingCausalEntry} {entries : List PendingCausalEntry}
    (hfile : LoadedFile nonce w stem entry u) (hfiles : LoadedFiles nonce u stems entries v) :
    LoadedFiles nonce w (stem :: stems) (entry.toList ++ entries) v where
  undisturbed := hfile.1.trans hfiles.undisturbed
  held := by
    intro held hheld
    rcases List.mem_append.mp hheld with hfirst | hrest
    · exact (hfile.2.1 held (by simpa using hfirst)).2.kept hfiles.undisturbed.toKept
    · exact hfiles.held held hrest
  sublist := by
    cases entry with
    | none => exact hfiles.sublist.cons stem
    | some held =>
        have hstem := (hfile.2.1 held rfl).1
        simp only [Option.toList_some, List.singleton_append, List.map_cons, hstem]
        exact hfiles.sublist.cons_cons stem
  complete := by
    intro other hother message hmessage hopen hnonce
    rcases List.mem_cons.mp hother with rfl | hrest
    · obtain ⟨held, hheld⟩ :=
        Option.ne_none_iff_exists'.mp (hfile.2.2 message hmessage hopen hnonce)
      exact ⟨held, by simp [hheld], (hfile.2.1 held hheld).1⟩
    · obtain ⟨held, hheld, hstem⟩ := hfiles.complete other hrest message
        (hfile.1.held hopen hmessage) (by rw [hfile.1.completed, hopen]) hnonce
      exact ⟨held, List.mem_append_right _ hheld, hstem⟩

include hbad in
theorem safe_loadPendingFiles (stems : List String) (hw : CausalValid harness.config.groupId w)
    (hn : w.alive = some harness.causalNonce) :
    Task.Safe (harnessContract harness.config harness.decode)
      (fun entries m v => m = memory ∧ LoadedFiles harness.causalNonce w stems entries v)
      bad (loadPendingFiles harness stems) memory w := by
  induction stems generalizing w with
  | nil =>
      refine safe_pure hn fun v _ hundisturbed => ⟨rfl, hundisturbed, by simp, ?_, by simp⟩
      exact List.Sublist.slnil
  | cons stem stems ih =>
      refine Task.safe_bind hw (safe_loadPendingFile harness hbad stem hw hn)
        fun entry m u hu hmid => ?_
      obtain ⟨rfl, hfile⟩ := hmid
      refine Task.safe_bind hu (ih hu hfile.1.alive) fun entries m' v hv hmid => ?_
      obtain ⟨rfl, hfiles⟩ := hmid
      refine safe_pure hfiles.undisturbed.alive fun x _ hafter => ⟨rfl, ?_⟩
      have hall := LoadedFiles.cons hfile hfiles
      exact
        { undisturbed := hall.undisturbed.trans hafter
          held := fun held hheld => (hall.held held hheld).kept hafter.toKept
          sublist := hall.sublist
          complete := hall.complete }

/-- What the harness knows of the handoffs of its generation. -/
structure LoadedPending (nonce : String) (w : CausalWorld) (entries : List PendingCausalEntry)
    (v : CausalWorld) : Prop where
  undisturbed : Undisturbed nonce w v
  held : ∀ entry ∈ entries, Held nonce v entry
  nodup : (entries.map PendingCausalEntry.stem).Nodup
  complete : ∀ stem message, w.pending stem = some message →
    w.completed stem = none → message.startNonce = nonce → ∃ entry ∈ entries, entry.stem = stem

include hbad in
theorem safe_loadPendingCausal (hw : CausalValid harness.config.groupId w)
    (hn : w.alive = some harness.causalNonce) :
    Task.Safe (harnessContract harness.config harness.decode)
      (fun entries m v => m = memory ∧ LoadedPending harness.causalNonce w entries v)
      bad (loadPendingCausal harness) memory w := by
  have hask : Task.Safe (harnessContract harness.config harness.decode)
      (fun answer m v => m = memory ∧ Undisturbed harness.causalNonce w v ∧
        ∀ stems, answer = some stems → stems.Nodup ∧
          ∀ stem message, w.pending stem = some message → w.completed stem = none →
            stem ∈ stems)
      bad (ask .listPending) memory w := by
    apply safe_ask_quiet .listPending hn rfl
    intro t answer v ht hundisturbed hcommit hv hafter
    refine ⟨rfl, hundisturbed.trans hafter, fun stems hstems => ?_⟩
    obtain ⟨hnodup, hmem⟩ := hcommit.2 stems hstems
    refine ⟨hnodup, fun stem message hmessage hopen => (hmem stem).mpr ?_⟩
    rw [hundisturbed.held hopen hmessage]
    exact Option.some_ne_none _
  refine Task.safe_bind hw hask fun answer m u hu hmid => ?_
  obtain ⟨rfl, hwu, hlist⟩ := hmid
  cases answer with
  | none => exact safe_error hwu.alive fun v _ _ => hbad _ _ _ fatal_stateIo
  | some stems =>
      obtain ⟨hnodup, hmem⟩ := hlist stems rfl
      refine Task.safe_bind hu (safe_loadPendingFiles harness hbad stems hu hwu.alive)
        fun entries m v hv hmid => ?_
      obtain ⟨rfl, hfiles⟩ := hmid
      refine safe_pure hfiles.undisturbed.alive fun x _ hafter => ⟨rfl, ?_⟩
      have hperm := List.perm_insertionSort
        (fun left right : PendingCausalEntry => left.message.msgId ≤ right.message.msgId) entries
      exact
        { undisturbed := (hwu.trans hfiles.undisturbed).trans hafter
          held := fun held hheld =>
            (hfiles.held held (hperm.mem_iff.mp hheld)).kept hafter.toKept
          nodup := (hperm.map _).nodup_iff.mpr (hnodup.sublist hfiles.sublist)
          complete := by
            intro stem message hmessage hopen hnonce
            obtain ⟨held, hheld, hstem⟩ := hfiles.complete stem (hmem stem message hmessage hopen)
              message (hwu.held hopen hmessage) (by rw [hwu.completed, hopen]) hnonce
            exact ⟨held, hperm.mem_iff.mpr hheld, hstem⟩ }

end Loading

section Staging

variable (harness : HarnessContext) {memory : HarnessMemory} {w : CausalWorld}
  {bad : HarnessError → HarnessMemory → CausalWorld → Prop}
  (hbad : ∀ error m v, Fatal error → bad error m v)
variable {stem : String}

/-- An executing handoff of this message, if there is one, is of this generation. -/
def Own (nonce : String) (w : CausalWorld) (stem : String) : Prop :=
  ∀ message, w.pending stem = some message → message.state = .executing →
    message.startNonce = nonce

theorem Own.kept {v : CausalWorld} (h : Own nonce w stem)
    (hkept : Kept nonce w v) : Own nonce v stem := by
  intro message hmessage hstate
  have hsame := hkept.executing ⟨message, hmessage, hstate⟩
  exact h message (hsame.symm.trans hmessage) hstate

/-- While this generation is alive every handoff is its own or a foreign executing one. -/
theorem startNonce_of_own {message : PendingCausalMessage}
    (hw : CausalValid config.groupId w) (hn : w.alive = some nonce) (hown : Own nonce w stem)
    (hmessage : w.pending stem = some message) : message.startNonce = nonce := by
  by_cases hstate : message.state = .executing
  · exact hown message hmessage hstate
  · exact hw.bound nonce hn stem message hmessage hstate

theorem undisturbed_createPending {message : PendingCausalMessage}
    (hn : w.alive = some nonce) (hnone : w.pending stem = none)
    (hstate : message.state ≠ .executing) :
    Undisturbed nonce w (w.setPending stem (some message)) where
  alive := hn
  watermark := rfl
  completed := rfl
  entries := rfl
  rows := fun _ hrow => hrow
  pending := by
    intro other
    by_cases hother : other = stem
    · subst hother
      refine Or.inr ⟨Or.inr hnone, ?_⟩
      rintro ⟨record, hrecord, hexecuting⟩
      rw [pending_setPending_self, Option.some.injEq] at hrecord
      rw [hrecord] at hstate
      exact hstate hexecuting
    · exact Or.inl (pending_setPending_of_ne _ hother)

/-- A new handoff in state pending keeps the invariant. -/
theorem CausalValid.createPending {groupId stem : String} (hw : CausalValid groupId w)
    (hn : ∀ other, w.alive = some other → other = nonce) (hstem : IsLowerHex 64 stem)
    (hnonce : IsLowerHex 32 nonce) (hused : nonce ∈ w.nonces) (hnone : w.pending stem = none) :
    CausalValid groupId
      (w.setPending stem (some ⟨2, toAsciiLowercase nonce, groupId, stem, .pending⟩)) := by
  apply hw.setPending
  · rintro record hrecord
    obtain rfl := Option.some_inj.mp hrecord
    refine ⟨rfl, rfl, rfl, hstem, ?_, ?_⟩
    · simpa only [hnonce.2] using hnonce
    · simpa only [hnonce.2] using hused
  · rintro record other hrecord halive -
    obtain rfl := Option.some_inj.mp hrecord
    rw [hn other halive]
    exact hnonce.2
  · rcases hw.spent stem with hdone | ⟨record, hrecord, -⟩ | hsilent
    · exact Or.inr (Or.inl hdone)
    · rw [hnone] at hrecord
      cases hrecord
    · exact Or.inr (Or.inr hsilent)
  · rintro record hrecord hstate
    obtain rfl := Option.some_inj.mp hrecord
    cases hstate

include hbad in
theorem safe_createPending (hw : CausalValid config.groupId w)
    (hn : w.alive = some nonce) (hstem : IsLowerHex 64 stem) :
    Task.Safe (harnessContract config decode)
      (fun _ m v => m = memory ∧ ∃ u, Undisturbed nonce w u ∧ Undisturbed nonce u v ∧
        u.pending stem ≠ none)
      bad (orFail
        (.createPending stem ⟨2, toAsciiLowercase nonce, config.groupId, stem, .pending⟩)
        .stateIo (fun answer => answer != .failed)) memory w := by
  refine safe_orFail hw hn (fun v => hbad _ _ v fatal_stateIo) fun t answer u ht hwt hcommit => ?_
  obtain ⟨hnonce, hused⟩ := ht.alive nonce hwt.alive
  -- creating the file where there is none, whether or not success is reported
  have hcreate : t.pending stem = none →
      u = t.setPending stem (some ⟨2, toAsciiLowercase nonce, config.groupId, stem, .pending⟩) →
      CausalValid config.groupId u ∧ HarnessGuar t u ∧ Undisturbed nonce t u ∧
        u.pending stem ≠ none := by
    rintro hnone rfl
    refine ⟨ht.createPending ?_ hstem hnonce hused hnone,
      harnessGuar_setPending hwt.alive ?_ (CausalWorld.not_frozen_of_none hnone),
      undisturbed_createPending hwt.alive hnone (by simp), ?_⟩
    · intro other hother
      exact Option.some_inj.mp (hother.symm.trans hwt.alive)
    · rintro record hrecord
      obtain rfl := Option.some_inj.mp hrecord
      exact hnonce.2
    · rw [pending_setPending_self]
      exact Option.some_ne_none _
  have hkeep : u = t → CausalValid config.groupId u ∧ HarnessGuar t u ∧ Undisturbed nonce t u := by
    rintro rfl
    exact ⟨ht, HarnessGuar.refl hwt.alive, Undisturbed.refl hwt.alive⟩
  cases answer with
  | alreadyExists =>
      obtain ⟨hvalid, hguar, htu⟩ := hkeep hcommit.1
      refine ⟨hvalid, hguar, fun v _ huv _ => ⟨rfl, u, hwt.trans htu, huv, ?_⟩⟩
      rw [hcommit.1]
      exact hcommit.2
  | created =>
      obtain ⟨hvalid, hguar, htu, hsome⟩ := hcreate hcommit.1 hcommit.2
      exact ⟨hvalid, hguar, fun v _ huv _ => ⟨rfl, u, hwt.trans htu, huv, hsome⟩⟩
  | failed =>
      rcases hcommit with hsame | ⟨hnone, hset⟩
      · obtain ⟨hvalid, hguar, -⟩ := hkeep hsame
        exact ⟨hvalid, hguar, fun v _ _ hok => by cases hok⟩
      · obtain ⟨hvalid, hguar, -, -⟩ := hcreate hnone hset
        exact ⟨hvalid, hguar, fun v _ _ hok => by cases hok⟩

/-- The handoff that staging a message gives. -/
def Staged (nonce : String) (w : CausalWorld) (stem : String)
    (entry : Option PendingCausalEntry) (v : CausalWorld) : Prop :=
  Undisturbed nonce w v ∧ ∀ held, entry = some held →
    held.stem = stem ∧ Held nonce v held ∧ held.message.state ≠ .executing

theorem isHexText_messageId {msgId : String}
    (h : isHexText 64 (toAsciiLowercase msgId) = true) :
    IsLowerHex 64 (toAsciiLowercase msgId) :=
  ⟨h, toAsciiLowercase_idem msgId⟩

theorem fatal_messageId {msgId : String} (h : isHexText 64 (toAsciiLowercase msgId) = false) :
    Fatal (.pendingCausalInvalid (.messageId msgId)) := by
  refine ⟨rfl, fun subject hsubject => ⟨msgId, ?_, h⟩⟩
  exact (HarnessError.pendingCausalInvalid.inj hsubject).symm

include hbad in
/-- After a handoff exists, staging finds it or the message is completed: no file
is ever found invalid. -/
theorem safe_stagedEntry {before : CausalWorld}
    (hw : CausalValid harness.config.groupId w) (hn : w.alive = some harness.causalNonce)
    (hown : Own harness.causalNonce w stem)
    (hbefore : Undisturbed harness.causalNonce before w)
    (hexists : w.completed stem = none → w.pending stem ≠ none)
    {entries : List PendingCausalEntry} {v : CausalWorld}
    (hv : CausalValid harness.config.groupId v)
    (hloaded : LoadedPending harness.causalNonce w entries v) :
    Task.Safe (harnessContract harness.config harness.decode)
      (fun entry m x => m = memory ∧ Staged harness.causalNonce before stem entry x) bad
      (match entries.find? (fun entry => entry.message.msgId == stem) with
        | some entry =>
            if entry.message.state = .pending ∨
                (entry.message.version = 2 ∧ entry.message.state = .claimed) then
              (pure (some entry) : HarnessTask (Option PendingCausalEntry))
            else pure none
        | none => do
            if ← completedCausalExists harness stem then pure none
            else Task.fail (.pendingCausalInvalid (.pendingFile stem))) memory v := by
  have hbv := hbefore.trans hloaded.undisturbed
  cases hfind : entries.find? (fun entry => entry.message.msgId == stem) with
  | some entry =>
      have hheld := hloaded.held entry (List.mem_of_find?_eq_some hfind)
      have hmsgId : entry.message.msgId = stem := by simpa using List.find?_some hfind
      simp only
      split_ifs with hstate
      · refine safe_pure hbv.alive fun x _ hafter => ⟨rfl, hbv.trans hafter, ?_⟩
        rintro held hsome
        obtain rfl := Option.some_inj.mp hsome
        refine ⟨hheld.msgId.symm.trans hmsgId, hheld.kept hafter.toKept, ?_⟩
        rcases hstate with hpending | ⟨-, hclaimed⟩
        · simp [hpending]
        · simp [hclaimed]
      · exact safe_pure hbv.alive fun x _ hafter => ⟨rfl, hbv.trans hafter, by simp⟩
  | none =>
      refine Task.safe_bind hv (safe_completedCausalExists harness hbad stem hv hbv.alive)
        fun done m x hx hmid => ?_
      obtain ⟨rfl, hvx, hdone⟩ := hmid
      cases done with
      | true => exact safe_pure hvx.alive fun y _ hafter =>
          ⟨rfl, (hbv.trans hvx).trans hafter, by simp⟩
      | false =>
          exfalso
          have hopen : w.completed stem = none := by
            rw [← hloaded.undisturbed.completed]
            by_contra hne
            exact Bool.false_ne_true (hdone.mpr hne)
          obtain ⟨message, hmessage⟩ := Option.ne_none_iff_exists'.mp (hexists hopen)
          obtain ⟨entry, hentry, hstem⟩ := hloaded.complete stem message hmessage hopen
            (startNonce_of_own hw hn hown hmessage)
          have hmsgId : entry.message.msgId = stem := (hloaded.held entry hentry).msgId.trans hstem
          have hmissing := List.find?_eq_none.mp hfind entry hentry
          simp [hmsgId] at hmissing

include hbad in
theorem safe_stageCausalMessage (msgId : String) (hw : CausalValid harness.config.groupId w)
    (hn : w.alive = some harness.causalNonce)
    (hown : Own harness.causalNonce w (toAsciiLowercase msgId)) :
    Task.Safe (harnessContract harness.config harness.decode)
      (fun entry m v => m = memory ∧
        Staged harness.causalNonce w (toAsciiLowercase msgId) entry v)
      bad (stageCausalMessage harness msgId) memory w := by
  have hnonce := (hw.alive _ hn).1
  unfold stageCausalMessage
  simp only [hnonce.1, Bool.not_true, Bool.or_false, Bool.not_eq_true']
  split_ifs with hhex
  · exact safe_error hn fun u _ _ => hbad _ _ _ (fatal_messageId hhex)
  · have hstem := isHexText_messageId (Bool.not_eq_false _ ▸ hhex)
    refine Task.safe_bind hw (safe_completedCausalExists harness hbad _ hw hn)
      fun done m u hu hmid => ?_
    obtain ⟨rfl, hwu, -⟩ := hmid
    cases done with
    | true => exact safe_pure hwu.alive fun v _ hafter => ⟨rfl, hwu.trans hafter, by simp⟩
    | false =>
        refine Task.safe_bind hu (safe_orFail_quiet hu hwu.alive rfl
          (fun v => hbad _ _ v fatal_stateIo)) fun _ m1 v hv hmid => ?_
        obtain ⟨rfl, huv⟩ := hmid
        refine Task.safe_bind hv (safe_createPending hbad hv huv.alive hstem)
          fun _ m2 x hx hmid => ?_
        obtain ⟨rfl, y, hvy, hyx, hexists⟩ := hmid
        have hwx := ((hwu.trans huv).trans hvy).trans hyx
        refine Task.safe_bind hx (safe_loadPendingCausal harness hbad hx hwx.alive)
          fun entries m3 z hz hmid => ?_
        obtain ⟨rfl, hloaded⟩ := hmid
        refine safe_stagedEntry harness hbad hx hwx.alive (hown.kept hwx.toKept) hwx ?_ hz hloaded
        intro hopen
        obtain ⟨message, hmessage⟩ := Option.ne_none_iff_exists'.mp hexists
        rw [hyx.completed] at hopen
        rw [hyx.held hopen hmessage]
        exact Option.some_ne_none _

end Staging

end Buzz
