import Buzz.CausalHarnessSafety

/-!
# The durable claim around the ACP operation

The claim moves one handoff through its states: claimed, then the watermark,
then executing, then the operation, then a tombstone or, after a silent turn,
back to pending and the old watermark. A phase says what holds between two of
these writes. It is stable under whatever the desktop does meanwhile, and each
write leads from one phase to the next.
-/

namespace Buzz

open EffectProgram

variable {config : Config} {decode : EnvelopeDecoder} {nonce : String}

/-- Everything but the handoff and the tombstone of `stem` is as the others leave it. -/
structure KeptExcept (nonce stem : String) (w v : CausalWorld) : Prop where
  alive : v.alive = some nonce
  rows : ∀ row ∈ w.rows, row ∈ v.rows
  completed : ∀ other, other ≠ stem → v.completed other = w.completed other
  pending : ∀ other, other ≠ stem → v.pending other = w.pending other ∨
    ((w.completed other ≠ none ∨ w.pending other = none) ∧ ¬v.Executing other)

section KeptExcept

variable {stem : String} {w u v : CausalWorld}

theorem KeptExcept.refl (h : w.alive = some nonce) : KeptExcept nonce stem w w where
  alive := h
  rows := fun _ hrow => hrow
  completed := fun _ _ => rfl
  pending := fun _ _ => Or.inl rfl

theorem Kept.except (h : Kept nonce w u) : KeptExcept nonce stem w u where
  alive := h.alive
  rows := h.rows
  completed := fun other _ => congrFun h.completed other
  pending := fun other _ => h.pending other

theorem KeptExcept.trans (h : KeptExcept nonce stem w u) (h' : KeptExcept nonce stem u v) :
    KeptExcept nonce stem w v where
  alive := h'.alive
  rows := fun row hrow => h'.rows row (h.rows row hrow)
  completed := fun other hother => (h'.completed other hother).trans (h.completed other hother)
  pending := by
    intro other hother
    rcases h.pending other hother with hsame | ⟨hfree, hidle⟩
    · rcases h'.pending other hother with hsame' | ⟨hfree', hidle'⟩
      · exact Or.inl (hsame'.trans hsame)
      · rw [h.completed other hother, hsame] at hfree'
        exact Or.inr ⟨hfree', hidle'⟩
    · rcases h'.pending other hother with hsame' | ⟨-, hidle'⟩
      · refine Or.inr ⟨hfree, ?_⟩
        rintro ⟨message, hmessage, hstate⟩
        exact hidle ⟨message, hsame'.symm.trans hmessage, hstate⟩
      · exact Or.inr ⟨hfree, hidle'⟩

theorem KeptExcept.kept (h : KeptExcept nonce stem w u) (hkept : Kept nonce u v) :
    KeptExcept nonce stem w v :=
  h.trans hkept.except

theorem KeptExcept.setPending (h : KeptExcept nonce stem w u)
    (message : Option PendingCausalMessage) :
    KeptExcept nonce stem w (u.setPending stem message) where
  alive := h.alive
  rows := h.rows
  completed := h.completed
  pending := by
    intro other hother
    rw [pending_setPending_of_ne message hother, executing_setPending_of_ne message hother]
    exact h.pending other hother

theorem KeptExcept.held (h : KeptExcept nonce stem w v) {entry : PendingCausalEntry}
    (hentry : Held nonce w entry) (hother : entry.stem ≠ stem) : Held nonce v entry where
  pending := by
    rcases h.pending entry.stem hother with hsame | ⟨hfree, -⟩
    · exact hsame.trans hentry.pending
    · rw [hentry.notCompleted, hentry.pending] at hfree
      simp at hfree
  notCompleted := by rw [h.completed entry.stem hother, hentry.notCompleted]
  startNonce := hentry.startNonce
  msgId := hentry.msgId

theorem KeptExcept.own (h : KeptExcept nonce stem w v) (hstem : Own nonce v stem)
    {other : String} (hown : Own nonce w other) : Own nonce v other := by
  by_cases hother : other = stem
  · rw [hother]
    exact hstem
  · intro message hmessage hstate
    rcases h.pending other hother with hsame | ⟨-, hidle⟩
    · exact hown message (hsame.symm.trans hmessage) hstate
    · exact absurd ⟨message, hmessage, hstate⟩ hidle

end KeptExcept

/-- The handoff of `entry` is held in `state` and the watermark stands at `mark`;
the rows of other executing handoffs are not above `limit`. -/
structure Phase (nonce : String) (start : CausalWorld) (entry : PendingCausalEntry)
    (state : PendingCausalState) (limit mark : ℤ) (v : CausalWorld) : Prop where
  others : KeptExcept nonce entry.stem start v
  pending : v.pending entry.stem = some (entry.withState state).message
  notCompleted : v.completed entry.stem = none
  watermark : v.watermark = some mark
  below : v.ExecutingBelow limit (fun msgId => msgId = entry.stem)

section Phase

variable {start : CausalWorld} {entry : PendingCausalEntry} {state : PendingCausalState}
  {limit mark : ℤ} {w v : CausalWorld}

/-- A phase is stable; only a watermark written meanwhile changes it. -/
theorem Phase.kept {next : ℤ} (h : Phase nonce start entry state limit mark w)
    (hkept : Kept nonce w v) (hmark : v.watermark = some next) :
    Phase nonce start entry state limit next v where
  others := h.others.kept hkept
  pending := hkept.held h.notCompleted h.pending
  notCompleted := by rw [hkept.completed, h.notCompleted]
  watermark := hmark
  below := hkept.executingBelow h.below

theorem Phase.undisturbed (h : Phase nonce start entry state limit mark w)
    (hundisturbed : Undisturbed nonce w v) : Phase nonce start entry state limit mark v :=
  h.kept hundisturbed.toKept (hundisturbed.watermark.trans h.watermark)

theorem Phase.not_frozen (h : Phase nonce start entry state limit mark w)
    (hnonce : entry.message.startNonce = nonce) : ¬w.Frozen entry.stem := by
  rintro (hdone | ⟨message, hmessage, -, hforeign⟩)
  · exact hdone h.notCompleted
  · rw [h.pending, Option.some.injEq] at hmessage
    subst hmessage
    rw [h.others.alive] at hforeign
    exact hforeign (congrArg some hnonce.symm)

theorem Phase.executing (h : Phase nonce start entry .executing limit mark w) :
    w.Executing entry.stem :=
  ⟨_, h.pending, rfl⟩

/-- Unless the handoff itself is executing, no executing row is above `limit`. -/
theorem Phase.executingBelow (h : Phase nonce start entry state limit mark w)
    (hidle : state ≠ .executing) {next : ℤ} (hlimit : limit ≤ next) :
    w.ExecutingBelow next (fun _ => False) := by
  intro msgId hexecuting _
  by_cases hother : msgId = entry.stem
  · obtain ⟨message, hmessage, hstate⟩ := hexecuting
    rw [hother, h.pending, Option.some.injEq] at hmessage
    rw [← hmessage] at hstate
    exact absurd hstate hidle
  · obtain ⟨row, hrow, hid, hle⟩ := h.below msgId hexecuting hother
    exact ⟨row, hrow, hid, hle.trans hlimit⟩

/-- Rewriting the handoff leads to the phase of its new state. -/
theorem Phase.write (next : PendingCausalState) (hw : CausalValid config.groupId w)
    (h : Phase nonce start entry state limit mark w)
    (hnonce : entry.message.startNonce = nonce)
    (hsilent : next ≠ .executing → w.AllSilent entry.stem)
    (hrow : next = .executing →
      ∃ row ∈ w.rows, toAsciiLowercase row.msgId = entry.stem ∧ row.id ≤ mark) :
    CausalValid config.groupId (w.setPending entry.stem (some (entry.withState next).message)) ∧
      HarnessGuar w (w.setPending entry.stem (some (entry.withState next).message)) ∧
      Phase nonce start entry next limit mark
        (w.setPending entry.stem (some (entry.withState next).message)) := by
  refine ⟨?_, ?_, ?_⟩
  · apply hw.setPending
    · rintro record hrecord
      obtain rfl := Option.some_inj.mp hrecord
      have hok := hw.record _ _ h.pending
      exact ⟨hok.version, hok.group, hok.msgId, hok.stem, hok.nonce, hok.used⟩
    · rintro record other hrecord halive -
      obtain rfl := Option.some_inj.mp hrecord
      rw [h.others.alive, Option.some.injEq] at halive
      exact hnonce.trans halive
    · by_cases hnext : next = .executing
      · exact Or.inl ⟨_, rfl, hnext⟩
      · exact Or.inr (Or.inr (hsilent hnext))
    · rintro record hrecord hstate
      obtain rfl := Option.some_inj.mp hrecord
      exact ⟨mark, h.watermark, hrow hstate⟩
  · refine harnessGuar_setPending h.others.alive ?_ (Or.inr (h.not_frozen hnonce))
    rintro record hrecord
    obtain rfl := Option.some_inj.mp hrecord
    exact hnonce
  · exact
      { others := h.others.setPending _
        pending := pending_setPending_self _
        notCompleted := h.notCompleted
        watermark := h.watermark
        below := by
          intro msgId hexecuting hother
          rw [executing_setPending_of_ne _ hother] at hexecuting
          exact h.below msgId hexecuting hother }

end Phase

/-- The watermark in memory is the durable one. -/
def Synced (memory : HarnessMemory) (w : CausalWorld) : Prop :=
  w.watermark = some memory.lastSeenId

section Steps

variable {memory : HarnessMemory} {w : CausalWorld}
  {bad : HarnessError → HarnessMemory → CausalWorld → Prop}
  (hbad : ∀ error m v, Fatal error → bad error m v)
  {start : CausalWorld} {entry : PendingCausalEntry} {state : PendingCausalState}
  {limit mark : ℤ}

include hbad in
theorem safe_persistState (hw : CausalValid config.groupId w) (hn : w.alive = some nonce)
    (hbelow : w.ExecutingBelow memory.lastSeenId (fun _ => False)) :
    Task.Safe (harnessContract config decode)
      (fun _ m v => m = memory ∧ Kept nonce w v ∧ Synced memory v) bad persistState memory w := by
  refine Task.safe_bind hw (safe_getMemory hn) fun current m u hu hmid => ?_
  obtain ⟨rfl, rfl, hwu⟩ := hmid
  refine safe_write (fun t => t.setWatermark m.lastSeenId) hu hwu.alive
    (fun v => hbad _ _ v fatal_stateIo) (fun t answer v h => h) fun t ht hut => ?_
  have hwt := hwu.trans hut
  refine ⟨ht.setWatermark (hwt.executingBelow hbelow), ?_, fun v _ hafter => ⟨rfl, ?_, ?_⟩⟩
  · exact
      { awake := by simp [hwt.alive]
        alive := rfl
        nonces := rfl
        completed := fun _ hdone => hdone
        records := fun _ _ hmessage => Or.inl hmessage
        frozen := fun _ hfrozen => ⟨hfrozen, rfl⟩ }
  · have hset : Kept nonce t (t.setWatermark m.lastSeenId) :=
      ⟨hwt.alive, rfl, rfl, fun _ hrow => hrow, fun _ => Or.inl rfl⟩
    exact (hwt.toKept.trans hset).trans hafter.toKept
  · exact hafter.watermark

theorem safe_setLastSeenId (lastSeenId : ℤ) (hw : CausalValid config.groupId w)
    (hn : w.alive = some nonce) :
    Task.Safe (harnessContract config decode)
      (fun _ m v => m = { memory with lastSeenId := lastSeenId } ∧ Undisturbed nonce w v)
      bad (setLastSeenId lastSeenId) memory w := by
  refine Task.safe_bind hw (safe_getMemory hn) fun current m u hu hmid => ?_
  obtain ⟨rfl, rfl, hwu⟩ := hmid
  exact (safe_setMemory hwu.alive).mono
    (fun _ _ v _ hpost => ⟨hpost.1, hwu.trans hpost.2⟩) (fun _ _ _ _ h => h)

include hbad in
theorem safe_claimRow (rowId : ℤ) (hw : CausalValid config.groupId w)
    (hn : w.alive = some nonce)
    (hbelow : w.ExecutingBelow memory.lastSeenId (fun _ => False)) :
    Task.Safe (harnessContract config decode)
      (fun _ m v => m = { memory with lastSeenId := max memory.lastSeenId rowId } ∧
        Kept nonce w v ∧ Synced m v) bad (claimRow rowId) memory w := by
  refine Task.safe_bind hw (safe_getMemory hn) fun current m u hu hmid => ?_
  obtain ⟨rfl, rfl, hwu⟩ := hmid
  refine Task.safe_bind hu (safe_setLastSeenId _ hu hwu.alive) fun _ m1 v hv hmid => ?_
  obtain ⟨rfl, huv⟩ := hmid
  have hwv := hwu.trans huv
  have hbelow' : v.ExecutingBelow (max m.lastSeenId rowId) (fun _ => False) := by
    intro msgId hexecuting hother
    obtain ⟨row, hrow, hid, hle⟩ := hwv.executingBelow hbelow msgId hexecuting hother
    exact ⟨row, hrow, hid, hle.trans (le_max_left _ _)⟩
  exact (safe_persistState hbad hv hwv.alive hbelow').mono
    (fun _ m2 x _ hpost => ⟨hpost.1, hwv.toKept.trans hpost.2.1, hpost.1 ▸ hpost.2.2⟩)
    (fun _ _ _ _ h => h)

include hbad in
theorem safe_persistPhase (next : PendingCausalState) (hw : CausalValid config.groupId w)
    (h : Phase nonce start entry state limit mark w)
    (hnonce : entry.message.startNonce = nonce)
    (hsilent : next ≠ .executing → w.AllSilent entry.stem)
    (hrow : next = .executing →
      ∃ row ∈ w.rows, toAsciiLowercase row.msgId = entry.stem ∧ row.id ≤ mark) :
    Task.Safe (harnessContract config decode)
      (fun _ m v => m = memory ∧ Phase nonce start entry next limit mark v ∧
        v.entries = w.entries ∧ ∀ row ∈ w.rows, row ∈ v.rows)
      bad (persistPendingCausal (entry.withState next)) memory w := by
  refine safe_write (fun t => t.setPending entry.stem (some (entry.withState next).message)) hw
    h.others.alive (fun v => hbad _ _ v fatal_stateIo) (fun t answer v hcommit => hcommit)
    fun t ht hwt => ?_
  have hrow' : next = .executing →
      ∃ row ∈ t.rows, toAsciiLowercase row.msgId = entry.stem ∧ row.id ≤ mark := by
    intro hnext
    obtain ⟨row, hmem, hid, hle⟩ := hrow hnext
    exact ⟨row, hwt.rows row hmem, hid, hle⟩
  obtain ⟨hvalid, hguar, hphase⟩ := (h.undisturbed hwt).write next ht hnonce
    (fun hnext => hwt.allSilent (hsilent hnext)) hrow'
  refine ⟨hvalid, hguar, fun v _ hafter => ⟨rfl, hphase.undisturbed hafter, ?_, ?_⟩⟩
  · exact hafter.entries.trans hwt.entries
  · exact fun row hmem => hafter.rows row (hwt.rows row hmem)

/-- No entry for the message has ended otherwise than silently. -/
def NoneSettled (w : CausalWorld) (msgId : String) : Prop :=
  ∀ entry ∈ w.entries, entry.msgId = msgId →
    entry.outcome = .silent ∨ entry.outcome = .unfinished

theorem safe_enterTurn (h : Phase nonce start entry .executing limit mark w)
    (hnonce : entry.message.startNonce = nonce) (hsilent : w.AllSilent entry.stem) :
    Task.Safe (harnessContract config decode)
      (fun _ m v => m = memory ∧ Phase nonce start entry .executing limit mark v ∧
        NoneSettled v entry.stem) bad (ask (.enterTurn entry.stem)) memory w := by
  apply safe_ask (.enterTurn entry.stem) h.others.alive
  intro t answer u ht hwt hcommit
  obtain rfl : u = t.enterTurn entry.stem := hcommit
  have hphase := h.undisturbed hwt
  have hentered : Phase nonce start entry .executing limit mark (t.enterTurn entry.stem) :=
    ⟨⟨hphase.others.alive, hphase.others.rows, hphase.others.completed, hphase.others.pending⟩,
      hphase.pending, hphase.notCompleted, hphase.watermark, hphase.below⟩
  refine ⟨ht.enterTurn hphase.executing (hwt.allSilent hsilent), ?_, fun v _ hafter =>
    ⟨rfl, hentered.undisturbed hafter, ?_⟩⟩
  · exact
      { awake := by simp [hwt.alive]
        alive := rfl
        nonces := rfl
        completed := fun _ hdone => hdone
        records := fun _ _ hmessage => Or.inl hmessage
        frozen := staysFrozen_enterTurn (hphase.not_frozen hnonce) }
  · intro other hother hid
    rw [hafter.entries] at hother
    rcases List.mem_append.mp hother with hold | hnew
    · exact Or.inl (hwt.allSilent hsilent other hold hid)
    · rw [List.mem_singleton.mp hnew]
      exact Or.inr rfl

theorem safe_leaveTurn (h : Phase nonce start entry .executing limit mark w)
    (hnonce : entry.message.startNonce = nonce) (hnone : NoneSettled w entry.stem)
    (outcome : EntryOutcome) :
    Task.Safe (harnessContract config decode)
      (fun _ m v => m = memory ∧ Phase nonce start entry .executing limit mark v ∧
        (outcome = .silent → v.AllSilent entry.stem)) bad (ask (.leaveTurn entry.stem outcome))
      memory w := by
  apply safe_ask (.leaveTurn entry.stem outcome) h.others.alive
  intro t answer u ht hwt hcommit
  obtain rfl : u = t.leaveTurn entry.stem outcome := hcommit
  have hphase := h.undisturbed hwt
  have hleft : Phase nonce start entry .executing limit mark (t.leaveTurn entry.stem outcome) :=
    ⟨⟨hphase.others.alive, hphase.others.rows, hphase.others.completed, hphase.others.pending⟩,
      hphase.pending, hphase.notCompleted, hphase.watermark, hphase.below⟩
  refine ⟨ht.leaveTurn hphase.executing outcome, ?_, fun v _ hafter =>
    ⟨rfl, hleft.undisturbed hafter, ?_⟩⟩
  · exact
      { awake := by simp [hwt.alive]
        alive := rfl
        nonces := rfl
        completed := fun _ hdone => hdone
        records := fun _ _ hmessage => Or.inl hmessage
        frozen := staysFrozen_leaveTurn (hphase.not_frozen hnonce) outcome }
  · rintro rfl other hother hid
    rw [hafter.entries] at hother
    obtain ⟨before, hbefore, rfl⟩ := List.mem_map.mp hother
    rw [hwt.entries] at hbefore
    have hid' : before.msgId = entry.stem := (msgId_leftEntry .silent before).symm.trans hid
    rcases hnone before hbefore hid' with hsilent | hopen
    · exact outcome_leftEntry_of_silent .silent hsilent
    · rw [if_pos ⟨hid', hopen⟩]

end Steps

/-- How a task of the scan may end with an error: after a silent turn the scan can
be repeated, any other error ends the harness. -/
def Stopped (nonce : String) (error : HarnessError) (memory : HarnessMemory) (w : CausalWorld) :
    Prop :=
  OnlyMalformedIds error ∧ (error.isSilent = true → w.alive = some nonce ∧ Synced memory w)

theorem stopped_of_fatal {error : HarnessError} (h : Fatal error) (memory : HarnessMemory)
    (w : CausalWorld) : Stopped nonce error memory w := by
  refine ⟨h.2, fun hsilent => ?_⟩
  rw [h.1] at hsilent
  cases hsilent

section Claim

variable (harness : HarnessContext) {memory : HarnessMemory} {w : CausalWorld}
  {start : CausalWorld} {entry : PendingCausalEntry} {limit mark : ℤ}

theorem harnessGuar_setCompleted {msgId : String} (message : CompletedCausalMessage)
    (hn : w.alive = some nonce) : HarnessGuar w (w.setCompleted msgId message) where
  awake := by simp [hn]
  alive := rfl
  nonces := rfl
  completed := fun _ hdone => completed_setCompleted_ne_none message (Or.inr hdone)
  records := fun _ _ hmessage => Or.inl hmessage
  frozen := staysFrozen_setCompleted message

/-- What is left of the claim once the message is completed. -/
structure Completed (nonce : String) (start : CausalWorld) (stem : String) (mark : ℤ)
    (v : CausalWorld) : Prop where
  others : KeptExcept nonce stem start v
  own : Own nonce v stem
  completed : v.completed stem ≠ none
  watermark : v.watermark = some mark

theorem Completed.undisturbed {stem : String} {v : CausalWorld}
    (h : Completed nonce start stem mark w) (hwv : Undisturbed nonce w v) :
    Completed nonce start stem mark v where
  others := h.others.kept hwv.toKept
  own := h.own.kept hwv.toKept
  completed := by rw [hwv.completed]; exact h.completed
  watermark := hwv.watermark.trans h.watermark

theorem Phase.own {state : PendingCausalState} (h : Phase nonce start entry state limit mark w)
    (hnonce : entry.message.startNonce = nonce) : Own nonce w entry.stem := by
  intro message hmessage _
  rw [h.pending, Option.some.injEq] at hmessage
  rw [← hmessage]
  exact hnonce

theorem safe_persistCompletedCausal (hw : CausalValid harness.config.groupId w)
    (h : Phase harness.causalNonce start entry .executing limit mark w)
    (hnonce : entry.message.startNonce = harness.causalNonce) :
    Task.Safe (harnessContract harness.config harness.decode)
      (fun _ m v => m = memory ∧ Completed harness.causalNonce start entry.stem mark v)
      (Stopped harness.causalNonce) (persistCompletedCausal harness entry.stem) memory w := by
  have hbad : ∀ error m v, Fatal error → Stopped harness.causalNonce error m v :=
    fun _ m v hfatal => stopped_of_fatal hfatal m v
  refine Task.safe_bind hw (safe_orFail_quiet hw h.others.alive rfl
    (fun v => hbad _ _ v fatal_stateIo)) fun _ m u hu hmid => ?_
  obtain ⟨rfl, hwu⟩ := hmid
  refine Task.safe_bind hu (safe_completedCausalExists harness hbad _ hu hwu.alive)
    fun done m1 v hv hmid => ?_
  obtain ⟨rfl, huv, hdone⟩ := hmid
  have hphase := h.undisturbed (hwu.trans huv)
  cases done with
  | true => exact absurd (h.undisturbed hwu).notCompleted (hdone.mp rfl)
  | false =>
      refine safe_write
        (fun t => t.setCompleted entry.stem ⟨1, harness.config.groupId, entry.stem⟩) hv
        hphase.others.alive (fun v => hbad _ _ v fatal_stateIo) (fun t answer x hcommit => hcommit)
        fun t ht hvt => ?_
      have hphase' := hphase.undisturbed hvt
      have hcompleted : Completed harness.causalNonce start entry.stem mark
          (t.setCompleted entry.stem ⟨1, harness.config.groupId, entry.stem⟩) :=
        { others :=
            { alive := hphase'.others.alive
              rows := hphase'.others.rows
              completed := by
                intro other hother
                rw [completed_setCompleted_of_ne _ hother]
                exact hphase'.others.completed other hother
              pending := hphase'.others.pending }
          own := hphase'.own hnonce
          completed := completed_setCompleted_ne_none _ (Or.inl rfl)
          watermark := hphase'.watermark }
      exact ⟨ht.setCompleted, harnessGuar_setCompleted _ hvt.alive,
        fun x _ hafter => ⟨rfl, hcompleted.undisturbed hafter⟩⟩

theorem safe_recordedOperation {operation : HarnessTask Unit}
    (hop : Harmless (harnessContract harness.config harness.decode) operation)
    (hw : CausalValid harness.config.groupId w)
    (h : Phase harness.causalNonce start entry .executing limit mark w)
    (hnonce : entry.message.startNonce = harness.causalNonce)
    (hsilent : w.AllSilent entry.stem) :
    Task.Safe (harnessContract harness.config harness.decode)
      (fun result m v => m = memory ∧
        Phase harness.causalNonce start entry .executing limit mark v ∧
        ∀ error, result = .error error → OnlyMalformedIds error ∧
          (error.isSilent = true → v.AllSilent entry.stem))
      (Stopped harness.causalNonce) (recordedOperation entry.stem operation) memory w := by
  refine Task.safe_bind hw (safe_enterTurn h hnonce hsilent) fun _ m u hu hmid => ?_
  obtain ⟨rfl, hphase, hnone⟩ := hmid
  have hresult : Task.Safe (harnessContract harness.config harness.decode)
      (fun result m' v => m' = m ∧ Undisturbed harness.causalNonce u v ∧
        ∀ error, result = .error error → OnlyMalformedIds error)
      (Stopped harness.causalNonce) (Task.result operation) m u := by
    apply Task.safe_result hu
    refine (hop m u hu).mono (fun _ m' v _ hpost => ?_) (fun error m' v _ hpost => ?_)
    · exact ⟨hpost.1, hpost.2.2 _ hphase.others.alive, by simp⟩
    · refine ⟨hpost.1, hpost.2.1.2 _ hphase.others.alive, fun error' herror subject heq => ?_⟩
      rw [← Except.error.inj herror] at heq
      exact absurd heq (hpost.2.2 subject)
  refine Task.safe_bind hu hresult fun result m1 v hv hmid => ?_
  obtain ⟨rfl, huv, honly⟩ := hmid
  have hnone' : NoneSettled v entry.stem := by
    unfold NoneSettled
    rw [huv.entries]
    exact hnone
  refine Task.safe_bind hv (safe_leaveTurn (hphase.undisturbed huv) hnonce hnone' _)
    fun _ m2 x hx hmid => ?_
  obtain ⟨rfl, hphase', hquiet⟩ := hmid
  refine safe_pure hphase'.others.alive fun y _ hafter =>
    ⟨rfl, hphase'.undisturbed hafter, fun error herror => ⟨honly error herror, fun hsilent => ?_⟩⟩
  have houtcome : entryOutcome result = .silent := by
    rw [herror, entryOutcome, if_pos hsilent]
  exact hafter.allSilent (hquiet houtcome)

theorem CausalValid.executingBelow {groupId : String} (hw : CausalValid groupId w)
    (hsynced : Synced memory w) (except : String → Prop) :
    w.ExecutingBelow memory.lastSeenId except := by
  intro msgId hexecuting _
  obtain ⟨lastSeenId, hwatermark, row, hrow, hid, hle⟩ := hw.watermark msgId hexecuting
  obtain rfl : lastSeenId = memory.lastSeenId :=
    Option.some_inj.mp (hwatermark.symm.trans hsynced)
  exact ⟨row, hrow, hid, hle⟩

theorem Held.phase (hw : CausalValid config.groupId w) (hn : w.alive = some nonce)
    (hheld : Held nonce w entry) (hsynced : Synced memory w) :
    Phase nonce w entry entry.message.state memory.lastSeenId memory.lastSeenId w where
  others := KeptExcept.refl hn
  pending := hheld.pending
  notCompleted := hheld.notCompleted
  watermark := hsynced
  below := hw.executingBelow hsynced _

theorem Held.allSilent (hw : CausalValid config.groupId w) (hheld : Held nonce w entry)
    (hidle : entry.message.state ≠ .executing) : w.AllSilent entry.stem := by
  rcases hw.spent entry.stem with hdone | ⟨message, hmessage, hstate⟩ | hsilent
  · exact absurd hheld.notCompleted hdone
  · rw [hheld.pending, Option.some.injEq] at hmessage
    rw [← hmessage] at hstate
    exact absurd hstate hidle
  · exact hsilent

/-- The handoff is claimed, the watermark covers its row and the handoff is
executing, in this order. -/
theorem safe_claimPhases (rowId : ℤ) {α : Type} {good : α → HarnessMemory → CausalWorld → Prop}
    {next : HarnessTask α} (hw : CausalValid harness.config.groupId w)
    (hn : w.alive = some harness.causalNonce) (hheld : Held harness.causalNonce w entry)
    (hidle : entry.message.state ≠ .executing) (hsynced : Synced memory w)
    (hrow : ∃ row ∈ w.rows, toAsciiLowercase row.msgId = entry.stem ∧ row.id = rowId)
    (hnext : ∀ v, CausalValid harness.config.groupId v →
      Phase harness.causalNonce w entry .executing memory.lastSeenId
        (max memory.lastSeenId rowId) v → v.AllSilent entry.stem →
      Task.Safe (harnessContract harness.config harness.decode) good
        (Stopped harness.causalNonce) next
        { memory with lastSeenId := max memory.lastSeenId rowId } v) :
    Task.Safe (harnessContract harness.config harness.decode) good
      (Stopped harness.causalNonce)
      (do
        persistPendingCausal (entry.withState .claimed)
        claimRow rowId
        persistPendingCausal (entry.withState .executing)
        next) memory w := by
  have hbad : ∀ error m v, Fatal error → Stopped harness.causalNonce error m v :=
    fun _ m v hfatal => stopped_of_fatal hfatal m v
  have hsilent := hheld.allSilent hw hidle
  refine Task.safe_bind hw (safe_persistPhase hbad .claimed hw (hheld.phase hw hn hsynced)
    hheld.startNonce (fun _ => hsilent) (by simp)) fun _ m u hu hmid => ?_
  obtain ⟨rfl, hclaimed, hentries, hrows⟩ := hmid
  refine Task.safe_bind hu (safe_claimRow hbad rowId hu hclaimed.others.alive
    (hclaimed.executingBelow (by simp) le_rfl)) fun _ m1 v hv hmid => ?_
  obtain ⟨rfl, huv, hmark⟩ := hmid
  have hcovered := hclaimed.kept huv hmark
  have hrow' : ∃ row ∈ v.rows, toAsciiLowercase row.msgId = entry.stem ∧
      row.id ≤ max m.lastSeenId rowId := by
    obtain ⟨row, hmem, hid, rfl⟩ := hrow
    exact ⟨row, huv.rows row (hrows row hmem), hid, le_max_right _ _⟩
  refine Task.safe_bind hv (safe_persistPhase hbad .executing hv hcovered hheld.startNonce
    (by simp) (fun _ => hrow')) fun _ m2 x hx hmid => ?_
  obtain ⟨rfl, hexecuting, hentries', -⟩ := hmid
  refine hnext x hx hexecuting ?_
  unfold CausalWorld.AllSilent
  rw [hentries', huv.entries, hentries]
  exact hsilent

/-- What a claim leaves behind when it succeeds. -/
structure Claimed (nonce : String) (start : CausalWorld) (stem : String) (memory : HarnessMemory)
    (v : CausalWorld) : Prop where
  others : KeptExcept nonce stem start v
  own : Own nonce v stem
  synced : Synced memory v

theorem safe_concludeClaim {result : Except HarnessError Unit}
    (hw : CausalValid harness.config.groupId w) (previousWatermark : ℤ)
    (h : Phase harness.causalNonce start entry .executing previousWatermark memory.lastSeenId w)
    (hnonce : entry.message.startNonce = harness.causalNonce)
    (hresult : ∀ error, result = .error error → OnlyMalformedIds error ∧
      (error.isSilent = true → w.AllSilent entry.stem)) :
    Task.Safe (harnessContract harness.config harness.decode)
      (fun _ m v => Claimed harness.causalNonce start entry.stem m v)
      (Stopped harness.causalNonce)
      (match result with
        | .ok _ => do
            persistCompletedCausal harness entry.stem
            orFail (.removePending entry.stem) .stateIo id
        | .error error =>
            if error.isSilent then do
              persistPendingCausal (entry.withState .pending)
              setLastSeenId previousWatermark
              persistState
              Task.fail error
            else Task.fail error) memory w := by
  have hbad : ∀ error m v, Fatal error → Stopped harness.causalNonce error m v :=
    fun _ m v hfatal => stopped_of_fatal hfatal m v
  cases result with
  | ok _ =>
      refine Task.safe_bind hw (safe_persistCompletedCausal harness hw h hnonce)
        fun _ m u hu hmid => ?_
      obtain ⟨rfl, hdone⟩ := hmid
      refine (safe_removeCompleted hbad hu hdone.others.alive hdone.completed).mono
        (fun _ m1 v _ hpost => ?_) (fun _ _ _ _ hstop => hstop)
      obtain ⟨rfl, huv⟩ := hpost
      have hdone' := hdone.undisturbed huv
      exact ⟨hdone'.others, hdone'.own, hdone'.watermark⟩
  | error error =>
      obtain ⟨honly, hsilent⟩ := hresult error rfl
      simp only
      split_ifs with herror
      · refine Task.safe_bind hw (safe_persistPhase hbad .pending hw h hnonce
          (fun _ => hsilent herror) (by simp)) fun _ m u hu hmid => ?_
        obtain ⟨rfl, hreleased, -, -⟩ := hmid
        refine Task.safe_bind hu (safe_setLastSeenId previousWatermark hu hreleased.others.alive)
          fun _ m1 v hv hmid => ?_
        obtain ⟨rfl, huv⟩ := hmid
        have hbelow := (hreleased.undisturbed huv).executingBelow (by simp) le_rfl
        refine Task.safe_bind hv (safe_persistState hbad hv huv.alive hbelow)
          fun _ m2 x hx hmid => ?_
        obtain ⟨rfl, hvx, hsynced⟩ := hmid
        exact safe_error hvx.alive fun y _ hafter =>
          ⟨honly, fun _ => ⟨hafter.alive, hafter.watermark.trans hsynced⟩⟩
      · exact safe_error h.others.alive fun y _ _ => ⟨honly, fun hsilent' => absurd hsilent' herror⟩

theorem safe_afterDurablePendingClaim {rowId : ℤ} {operation : HarnessTask Unit}
    (hop : Harmless (harnessContract harness.config harness.decode) operation)
    (hw : CausalValid harness.config.groupId w) (hn : w.alive = some harness.causalNonce)
    (hheld : Held harness.causalNonce w entry) (hidle : entry.message.state ≠ .executing)
    (hsynced : Synced memory w)
    (hrow : ∃ row ∈ w.rows, toAsciiLowercase row.msgId = entry.stem ∧ row.id = rowId) :
    Task.Safe (harnessContract harness.config harness.decode)
      (fun _ m v => Claimed harness.causalNonce w entry.stem m v)
      (Stopped harness.causalNonce) (afterDurablePendingClaim harness rowId entry operation)
      memory w := by
  refine Task.safe_bind hw (safe_getMemory hn) fun current m u hu hmid => ?_
  obtain ⟨rfl, rfl, hwu⟩ := hmid
  have hrow' : ∃ row ∈ u.rows, toAsciiLowercase row.msgId = entry.stem ∧ row.id = rowId := by
    obtain ⟨row, hmem, hid⟩ := hrow
    exact ⟨row, hwu.rows row hmem, hid⟩
  simp only [hheld.msgId]
  refine safe_claimPhases harness rowId hu hwu.alive (hheld.kept hwu.toKept) hidle
    (hwu.watermark.trans hsynced) hrow' fun v hv hphase hsilent => ?_
  refine Task.safe_bind hv (safe_recordedOperation harness hop hv hphase hheld.startNonce hsilent)
    fun result m1 x hx hmid => ?_
  obtain ⟨rfl, hphase', hresult⟩ := hmid
  refine (safe_concludeClaim harness hx m.lastSeenId hphase' hheld.startNonce
    hresult).mono (fun _ m2 y _ hpost => ?_) (fun _ _ _ _ hstop => hstop)
  exact ⟨hwu.toKept.except.trans hpost.others, hpost.own, hpost.synced⟩

end Claim

end Buzz
