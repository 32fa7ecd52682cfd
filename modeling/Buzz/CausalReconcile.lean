import Buzz.CausalClaim

/-!
# The scans of the harness

The two scans of `reconcile` and everything around them, up to the entry point.
Between two rows of a scan the durable watermark is the one in memory and every
handoff that is still to come is held. The recovery from a silent turn starts
over from the same situation; any other error ends the harness.
-/

namespace Buzz

open EffectProgram

variable {config : Config} {decode : EnvelopeDecoder} {nonce : String}

theorem onlyMalformedIds_of_ne {error : HarnessError}
    (h : ∀ subject, error ≠ .pendingCausalInvalid subject) : OnlyMalformedIds error :=
  fun subject heq => absurd heq (h subject)

theorem safe_await (request : CausalRequest) (hquiet : request.isQuiet = true)
    {memory : HarnessMemory} {w : CausalWorld}
    {bad : HarnessError → HarnessMemory → CausalWorld → Prop} (hn : w.alive = some nonce) :
    Task.Safe (harnessContract config decode)
      (fun _ m v => m = memory ∧ Undisturbed nonce w v) bad (ask request) memory w := by
  apply safe_ask_quiet request hn hquiet
  exact fun t answer v _ hwt _ _ htv => ⟨rfl, hwt.trans htv⟩

section Examine

variable (harness : HarnessContext) {memory : HarnessMemory} {w : CausalWorld}

theorem stopped_of_lookupFailed {error : HarnessError} {m : HarnessMemory} {v : CausalWorld}
    (h : LookupFailed (harnessContract config decode) memory w error m v) :
    Stopped nonce error m v := by
  obtain ⟨-, -, reason, rfl⟩ := h
  exact stopped_of_fatal (fatal_x0x reason) m v

theorem CausalValid.recordVerdict {groupId : String} (hw : CausalValid groupId w)
    (row : HistoryRow) (held : Bool) : CausalValid groupId (w.recordVerdict row held) :=
  ⟨hw.record, hw.tombstone, hw.spent, hw.once, hw.bound, hw.alive, hw.watermark, hw.unique⟩

theorem safe_recordVerdict {bad : HarnessError → HarnessMemory → CausalWorld → Prop}
    (row : HistoryRow) (held : Bool) (hn : w.alive = some nonce) :
    Task.Safe (harnessContract config decode)
      (fun _ m v => m = memory ∧ Undisturbed nonce w v) bad (ask (.recordVerdict row held))
      memory w := by
  apply safe_ask (.recordVerdict row held) hn
  intro t answer u ht hwt hcommit
  obtain rfl : u = t.recordVerdict row held := hcommit
  have hnoted : Undisturbed nonce t (t.recordVerdict row held) :=
    ⟨⟨hwt.alive, rfl, rfl, fun _ hrow => hrow, fun _ => Or.inl rfl⟩, rfl⟩
  refine ⟨ht.recordVerdict row held, ?_, fun v _ hafter => ⟨rfl, (hwt.trans hnoted).trans hafter⟩⟩
  exact
    { awake := by simp [hwt.alive]
      alive := rfl
      nonces := rfl
      completed := fun _ hdone => hdone
      records := fun _ _ hmessage => Or.inl hmessage
      frozen := fun _ hfrozen => ⟨hfrozen, rfl⟩ }

theorem safe_setContext {bad : HarnessError → HarnessMemory → CausalWorld → Prop}
    (context : ConversationContext) (hw : CausalValid config.groupId w)
    (hn : w.alive = some nonce) :
    Task.Safe (harnessContract config decode)
      (fun _ m v => m.lastSeenId = memory.lastSeenId ∧ Undisturbed nonce w v) bad
      (setContext context) memory w := by
  refine Task.safe_bind hw (safe_getMemory hn) fun current m u hu hmid => ?_
  obtain ⟨rfl, rfl, hwu⟩ := hmid
  refine (safe_setMemory hwu.alive).mono (fun _ m' v _ hpost => ?_) (fun _ _ _ _ h => h)
  obtain ⟨rfl, huv⟩ := hpost
  exact ⟨rfl, hwu.trans huv⟩

theorem safe_ensureDelegationRootInContext (envelope : ChannelEnvelope)
    (hw : CausalValid config.groupId w) (hn : w.alive = some nonce) :
    Task.Safe (harnessContract config decode)
      (fun _ m v => m.lastSeenId = memory.lastSeenId ∧ Undisturbed nonce w v) (Stopped nonce)
      (ensureDelegationRootInContext harness envelope) memory w := by
  unfold ensureDelegationRootInContext
  cases envelope.delegationRoot with
  | none => exact safe_pure hn fun v _ hafter => ⟨rfl, hafter⟩
  | some rootId =>
      refine Task.safe_bind hw (safe_getMemory hn) fun current m u hu hmid => ?_
      obtain ⟨rfl, rfl, hwu⟩ := hmid
      split_ifs
      · exact safe_pure hwu.alive fun v _ hafter => ⟨rfl, hwu.trans hafter⟩
      · refine Task.safe_bind hu ((safe_historyGet (readsHistory_harness config decode) m
          harness.stableGroupId rootId hu).mono (fun _ _ _ _ h => h)
          (fun _ _ _ _ h => stopped_of_lookupFailed h)) fun found m1 v hv hmid => ?_
        obtain ⟨rfl, huv, -⟩ := hmid
        have hwv := hwu.trans (huv.2 nonce hwu.alive)
        exact (safe_setContext _ hv hwv.alive).mono
          (fun _ _ x _ hpost => ⟨hpost.1, hwv.trans hpost.2⟩) (fun _ _ _ _ h => h)

/-- Examining a row moves neither the watermark nor an artefact. -/
theorem safe_examineRow (row : HistoryRow) (envelope : ChannelEnvelope)
    (hw : CausalValid config.groupId w) (hn : w.alive = some nonce) :
    Task.Safe (harnessContract config decode)
      (fun _ m v => m.lastSeenId = memory.lastSeenId ∧ Undisturbed nonce w v) (Stopped nonce)
      (examineRow harness row envelope) memory w := by
  refine Task.safe_bind hw (safe_ensureDelegationRootInContext harness envelope hw hn)
    fun _ m1 u hu hmid => ?_
  obtain ⟨hseen, hwu⟩ := hmid
  refine Task.safe_bind hu (safe_getMemory hwu.alive) fun current m2 v hv hmid => ?_
  obtain ⟨rfl, rfl, huv⟩ := hmid
  have hwv := hwu.trans huv
  refine Task.safe_bind hv (safe_setContext _ hv hwv.alive) fun _ m3 x hx hmid => ?_
  obtain ⟨hseen', hvx⟩ := hmid
  have hwx := hwv.trans hvx
  refine Task.safe_bind hx (safe_recordVerdict row _ hwx.alive) fun _ m4 y hy hmid => ?_
  obtain ⟨rfl, hxy⟩ := hmid
  exact safe_pure hxy.alive fun z _ hafter =>
    ⟨hseen'.trans hseen, (hwx.trans hxy).trans hafter⟩

end Examine

/-- Where the harness stands between two rows of a scan. -/
structure Advanced (nonce : String) (w : CausalWorld) (memory : HarnessMemory)
    (v : CausalWorld) : Prop where
  alive : v.alive = some nonce
  rows : ∀ row ∈ w.rows, row ∈ v.rows
  synced : Synced memory v
  own : ∀ stem, Own nonce w stem → Own nonce v stem

section Scan

variable {m : HarnessMemory} {row : HistoryRow}

theorem directedTurn_harmless (harness : HarnessContext) (row : HistoryRow)
    (envelope : ChannelEnvelope) :
    Harmless (harnessContract config decode) (directedTurn harness row envelope) :=
  harmless_directedTurn (quietContract_harness config decode) harness row envelope

variable (harness : HarnessContext) {memory : HarnessMemory} {w : CausalWorld}

theorem Undisturbed.synced {u : CausalWorld} (h : Undisturbed nonce w u)
    (hsynced : Synced memory w) (hseen : m.lastSeenId = memory.lastSeenId) : Synced m u := by
  unfold Synced
  rw [h.watermark, hseen]
  exact hsynced

theorem Undisturbed.advanced {u v : CausalWorld}
    (h : Undisturbed nonce w u) (hadvanced : Advanced nonce u m v) : Advanced nonce w m v where
  alive := hadvanced.alive
  rows := fun row hrow => hadvanced.rows row (h.rows row hrow)
  synced := hadvanced.synced
  own := fun stem hown => hadvanced.own stem (hown.kept h.toKept)

theorem Claimed.advanced {stem : String} {v : CausalWorld}
    (h : Claimed nonce w stem m v) : Advanced nonce w m v where
  alive := h.others.alive
  rows := h.others.rows
  synced := h.synced
  own := fun _ hown => h.others.own h.own hown

theorem safe_claimRow_advanced (rowId : ℤ) (hw : CausalValid config.groupId w)
    (hn : w.alive = some nonce) (hsynced : Synced memory w) :
    Task.Safe (harnessContract config decode) (fun _ m v => Advanced nonce w m v)
      (Stopped nonce) (claimRow rowId) memory w := by
  refine (safe_claimRow (fun _ m v hfatal => stopped_of_fatal hfatal m v) rowId hw hn
    (hw.executingBelow hsynced _)).mono (fun _ m v _ hpost => ?_) (fun _ _ _ _ h => h)
  obtain ⟨-, hkept, hsynced'⟩ := hpost
  exact ⟨hkept.alive, hkept.rows, hsynced', fun _ hown => hown.kept hkept⟩

theorem safe_afterDurableOrdinaryClaim {operation : HarnessTask Unit}
    (hop : Harmless (harnessContract harness.config harness.decode) operation)
    (hw : CausalValid harness.config.groupId w) (hn : w.alive = some harness.causalNonce)
    (hsynced : Synced memory w) (hrow : row ∈ w.rows)
    (hown : Own harness.causalNonce w (toAsciiLowercase row.msgId)) :
    Task.Safe (harnessContract harness.config harness.decode)
      (fun _ m v => Advanced harness.causalNonce w m v) (Stopped harness.causalNonce)
      (afterDurableOrdinaryClaim harness row.id row.msgId operation) memory w := by
  refine Task.safe_bind hw (safe_stageCausalMessage harness
    (fun _ m v hfatal => stopped_of_fatal hfatal m v) row.msgId hw hn hown)
    fun staged m u hu hmid => ?_
  obtain ⟨rfl, hwu, hstaged⟩ := hmid
  have hsynced' := hwu.synced hsynced rfl
  cases staged with
  | none =>
      exact (safe_claimRow_advanced row.id hu hwu.alive hsynced').mono
        (fun _ m v _ hpost => hwu.advanced hpost) (fun _ _ _ _ h => h)
  | some entry =>
      obtain ⟨hstem, hheld, hidle⟩ := hstaged entry rfl
      have hrow' : ∃ other ∈ u.rows, toAsciiLowercase other.msgId = entry.stem ∧
          other.id = row.id := ⟨row, hwu.rows row hrow, hstem.symm, rfl⟩
      exact (safe_afterDurablePendingClaim harness hop hu hwu.alive hheld hidle hsynced'
        hrow').mono (fun _ m v _ hpost => hwu.advanced hpost.advanced) (fun _ _ _ _ h => h)

theorem safe_reconcileRow (hw : CausalValid harness.config.groupId w)
    (hn : w.alive = some harness.causalNonce) (hsynced : Synced memory w)
    (hrow : row ∈ w.rows) (hown : Own harness.causalNonce w (toAsciiLowercase row.msgId)) :
    Task.Safe (harnessContract harness.config harness.decode)
      (fun _ m v => Advanced harness.causalNonce w m v) (Stopped harness.causalNonce)
      (reconcileRow harness row) memory w := by
  unfold reconcileRow
  cases row.envelope harness.decode with
  | none =>
      refine Task.safe_bind hw (safe_recordVerdict row false hn) fun _ m u hu hmid => ?_
      obtain ⟨rfl, hwu⟩ := hmid
      exact (safe_claimRow_advanced row.id hu hwu.alive (hwu.synced hsynced rfl)).mono
        (fun _ m v _ hpost => hwu.advanced hpost) (fun _ _ _ _ h => h)
  | some envelope =>
      refine Task.safe_bind hw (safe_examineRow harness row envelope hw hn)
        fun held m u hu hmid => ?_
      obtain ⟨hseen, hwu⟩ := hmid
      have hsynced' := hwu.synced hsynced hseen
      cases held with
      | true =>
          exact (safe_afterDurableOrdinaryClaim harness (directedTurn_harmless harness row envelope)
            hu hwu.alive hsynced' (hwu.rows row hrow) (hown.kept hwu.toKept)).mono
            (fun _ m v _ hpost => hwu.advanced hpost) (fun _ _ _ _ h => h)
      | false =>
          exact (safe_claimRow_advanced row.id hu hwu.alive hsynced').mono
            (fun _ m v _ hpost => hwu.advanced hpost) (fun _ _ _ _ h => h)

/-- The rows that are still to come and what the harness knows of their handoffs. -/
structure Scanning (nonce : String) (remaining : List HistoryRow) (memory : HarnessMemory)
    (v : CausalWorld) : Prop where
  alive : v.alive = some nonce
  synced : Synced memory v
  rows : ∀ row ∈ remaining, row ∈ v.rows
  own : ∀ row ∈ remaining, Own nonce v (toAsciiLowercase row.msgId)

theorem Scanning.advanced {rows : List HistoryRow}
    {v : CausalWorld} (h : Scanning nonce (row :: rows) memory w) (hv : Advanced nonce w m v) :
    Scanning nonce rows m v where
  alive := hv.alive
  synced := hv.synced
  rows := fun other hother => hv.rows other (h.rows other (List.mem_cons_of_mem row hother))
  own := fun other hother => hv.own _ (h.own other (List.mem_cons_of_mem row hother))

/-- A row above the watermark has no executing handoff. -/
theorem own_of_above {groupId : String} (hw : CausalValid groupId w)
    (hsynced : Synced memory w) (hrow : row ∈ w.rows) (habove : memory.lastSeenId < row.id) :
    Own nonce w (toAsciiLowercase row.msgId) := by
  intro message hmessage hstate
  obtain ⟨other, hother, hid, hle⟩ :=
    hw.executingBelow hsynced (fun _ => False) _ ⟨message, hmessage, hstate⟩ id
  have hsame := hw.unique other hother row hrow hid
  omega

theorem safe_scanRows (rows : List HistoryRow) (hw : CausalValid harness.config.groupId w)
    (hrows : Scanning harness.causalNonce rows memory w) :
    Task.Safe (harnessContract harness.config harness.decode)
      (fun _ m v => v.alive = some harness.causalNonce ∧ Synced m v) (Stopped harness.causalNonce)
      (Task.forEach (reconcileRow harness) rows) memory w := by
  refine (Task.safe_forEach ?_ ?_ rows hw hrows).mono
    (fun _ m v _ (hpost : Scanning harness.causalNonce [] m v) => ⟨hpost.alive, hpost.synced⟩)
    (fun _ _ _ _ h => h)
  · intro row rest m u hu hinv
    have hmem : row ∈ row :: rest := List.mem_cons_self
    exact (safe_reconcileRow harness hu hinv.alive hinv.synced (hinv.rows row hmem)
      (hinv.own row hmem)).mono (fun _ m' v _ hpost => hinv.advanced hpost) (fun _ _ _ _ h => h)
  · intro m u v _ hrely hinv
    have huv := hrely.2 _ hinv.alive
    exact ⟨huv.alive, huv.synced hinv.synced rfl, by simp, by simp⟩

end Scan

section PendingScan

variable (harness : HarnessContext) {memory : HarnessMemory} {w : CausalWorld}

/-- The handoff is held, may be picked up and its row is in the history. -/
structure Eligible (nonce : String) (v : CausalWorld) (pendingRow : PendingRow) : Prop where
  held : Held nonce v pendingRow.entry
  idle : pendingRow.entry.message.state ≠ .executing
  row : pendingRow.row ∈ v.rows
  msgId : pendingRow.row.msgId = pendingRow.entry.stem

theorem Eligible.kept {pendingRow : PendingRow} {v : CausalWorld}
    (h : Eligible nonce w pendingRow) (hkept : Kept nonce w v) : Eligible nonce v pendingRow :=
  ⟨h.held.kept hkept, h.idle, hkept.rows _ h.row, h.msgId⟩

theorem Eligible.keptExcept {pendingRow : PendingRow} {v : CausalWorld} {stem : String}
    (h : Eligible nonce w pendingRow) (hkept : KeptExcept nonce stem w v)
    (hother : pendingRow.entry.stem ≠ stem) : Eligible nonce v pendingRow :=
  ⟨hkept.held h.held hother, h.idle, hkept.rows _ h.row, h.msgId⟩

theorem not_executing_of_not_blocked {message : PendingCausalMessage}
    (h : ¬message.isBlocked = true) : message.state ≠ .executing := by
  intro hstate
  simp [PendingCausalMessage.isBlocked, hstate] at h

/-- What the lookup of the rows of a list of handoffs gives. -/
structure FoundRows (nonce : String) (w : CausalWorld) (entries : List PendingCausalEntry)
    (pendingRows : List PendingRow) (v : CausalWorld) : Prop where
  undisturbed : Undisturbed nonce w v
  sublist : (pendingRows.map PendingRow.entry).Sublist entries
  eligible : ∀ pendingRow ∈ pendingRows, Eligible nonce v pendingRow

theorem safe_findPendingRows (entries : List PendingCausalEntry)
    (hw : CausalValid config.groupId w) (hn : w.alive = some nonce)
    (hheld : ∀ entry ∈ entries, Held nonce w entry) :
    Task.Safe (harnessContract config decode)
      (fun pendingRows m v => m = memory ∧ FoundRows nonce w entries pendingRows v)
      (Stopped nonce) (findPendingRows harness entries) memory w := by
  induction entries generalizing w with
  | nil =>
      exact safe_pure hn fun v _ hafter => ⟨rfl, hafter, List.Sublist.slnil, by simp⟩
  | cons entry entries ih =>
      obtain ⟨hentry, hrest⟩ := List.forall_mem_cons.mp hheld
      unfold findPendingRows
      split_ifs with hblocked
      · refine (ih hw hn hrest).mono (fun pendingRows m v _ hpost => ?_) (fun _ _ _ _ h => h)
        obtain ⟨rfl, hfound⟩ := hpost
        exact ⟨rfl, hfound.undisturbed, hfound.sublist.cons entry, hfound.eligible⟩
      · refine Task.safe_bind hw ((safe_historyGet (readsHistory_harness config decode) memory
          harness.stableGroupId entry.message.msgId hw).mono (fun _ _ _ _ h => h)
          (fun _ _ _ _ h => stopped_of_lookupFailed h)) fun found m u hu hmid => ?_
        obtain ⟨rfl, hrely, hrow⟩ := hmid
        have hwu := hrely.2 nonce hn
        cases found with
        | none =>
            exact safe_error hwu.alive fun v _ _ =>
              stopped_of_fatal (fatal_of_not_invalid rfl (by simp)) _ v
        | some row =>
            obtain ⟨hmem, hid⟩ := hrow row rfl
            have heligible (envelope : ChannelEnvelope) : Eligible nonce u ⟨entry, row, envelope⟩ :=
              { held := hentry.kept hwu.toKept
                idle := not_executing_of_not_blocked hblocked
                row := hmem
                msgId := hid.trans hentry.msgId }
            simp only
            cases row.envelope harness.decode with
            | none =>
                exact safe_error hwu.alive fun v _ _ =>
                  stopped_of_fatal (fatal_of_not_invalid rfl (by simp)) _ v
            | some envelope =>
                refine Task.safe_bind hu (ih hu hwu.alive fun other hother =>
                  (hrest other hother).kept hwu.toKept) fun pendingRows m1 v hv hmid => ?_
                obtain ⟨rfl, hfound⟩ := hmid
                refine safe_pure hfound.undisturbed.alive fun x _ hafter => ⟨rfl, ?_, ?_, ?_⟩
                · exact (hwu.trans hfound.undisturbed).trans hafter
                · exact hfound.sublist.cons_cons entry
                · refine List.forall_mem_cons.mpr ⟨?_, fun pendingRow hpendingRow => ?_⟩
                  · exact (heligible envelope).kept (hfound.undisturbed.trans hafter).toKept
                  · exact (hfound.eligible pendingRow hpendingRow).kept hafter.toKept

/-- The handoffs that are still to come. -/
structure Picking (nonce : String) (remaining : List PendingRow) (memory : HarnessMemory)
    (v : CausalWorld) : Prop where
  alive : v.alive = some nonce
  synced : Synced memory v
  nodup : (remaining.map fun pendingRow => pendingRow.entry.stem).Nodup
  eligible : ∀ pendingRow ∈ remaining, Eligible nonce v pendingRow

theorem Picking.claimed {pendingRow : PendingRow} {rest : List PendingRow} {m : HarnessMemory}
    {v : CausalWorld} (h : Picking nonce (pendingRow :: rest) memory w)
    (hv : Claimed nonce w pendingRow.entry.stem m v) : Picking nonce rest m v where
  alive := hv.others.alive
  synced := hv.synced
  nodup := (List.nodup_cons.mp h.nodup).2
  eligible := by
    intro other hother
    refine (h.eligible other (List.mem_cons_of_mem _ hother)).keptExcept hv.others fun hsame => ?_
    have hmem : other.entry.stem ∈ rest.map fun pendingRow => pendingRow.entry.stem :=
      List.mem_map_of_mem hother
    rw [hsame] at hmem
    exact (List.nodup_cons.mp h.nodup).1 hmem

theorem safe_reconcilePendingRow {pendingRow : PendingRow}
    (hw : CausalValid harness.config.groupId w) (hn : w.alive = some harness.causalNonce)
    (hsynced : Synced memory w) (h : Eligible harness.causalNonce w pendingRow) :
    Task.Safe (harnessContract harness.config harness.decode)
      (fun _ m v => Claimed harness.causalNonce w pendingRow.entry.stem m v)
      (Stopped harness.causalNonce) (reconcilePendingRow harness pendingRow) memory w := by
  refine Task.safe_bind hw (safe_examineRow harness pendingRow.row pendingRow.envelope hw hn)
    fun held m u hu hmid => ?_
  obtain ⟨hseen, hwu⟩ := hmid
  have heligible := h.kept hwu.toKept
  cases held with
  | false =>
      exact safe_error hwu.alive fun v _ _ =>
        stopped_of_fatal (fatal_of_not_invalid rfl (by simp)) _ v
  | true =>
      have hlower : toAsciiLowercase pendingRow.row.msgId = pendingRow.entry.stem := by
        rw [h.msgId]
        exact (hu.record _ _ heligible.held.pending).stem.2
      refine (safe_afterDurablePendingClaim harness
        (directedTurn_harmless harness pendingRow.row pendingRow.envelope) hu hwu.alive
        heligible.held h.idle (hwu.synced hsynced hseen)
        ⟨pendingRow.row, heligible.row, hlower, rfl⟩).mono (fun _ m' v _ hpost => ?_)
        (fun _ _ _ _ hstop => hstop)
      exact ⟨hwu.toKept.except.trans hpost.others, hpost.own, hpost.synced⟩

theorem safe_reconcilePendingCausal (hw : CausalValid harness.config.groupId w)
    (hn : w.alive = some harness.causalNonce) (hsynced : Synced memory w) :
    Task.Safe (harnessContract harness.config harness.decode)
      (fun _ m v => v.alive = some harness.causalNonce ∧ Synced m v)
      (Stopped harness.causalNonce) (reconcilePendingCausal harness) memory w := by
  refine Task.safe_bind hw (safe_loadPendingCausal harness
    (fun _ m v hfatal => stopped_of_fatal hfatal m v) hw hn) fun entries m u hu hmid => ?_
  obtain ⟨rfl, hloaded⟩ := hmid
  refine Task.safe_bind hu (safe_findPendingRows harness entries hu hloaded.undisturbed.alive
    hloaded.held) fun pendingRows m1 v hv hmid => ?_
  obtain ⟨rfl, hfound⟩ := hmid
  have hwv := hloaded.undisturbed.trans hfound.undisturbed
  have hperm := List.perm_insertionSort
    (fun left right : PendingRow => left.row.id ≤ right.row.id) pendingRows
  have hnodup : (pendingRows.map fun pendingRow => pendingRow.entry.stem).Nodup := by
    have hsub := hfound.sublist.map PendingCausalEntry.stem
    rw [List.map_map] at hsub
    exact hloaded.nodup.sublist hsub
  have hpicking : Picking harness.causalNonce
      (pendingRows.insertionSort fun left right => left.row.id ≤ right.row.id) m1 v :=
    { alive := hwv.alive
      synced := hwv.synced hsynced rfl
      nodup := (hperm.map _).nodup_iff.mpr hnodup
      eligible := fun pendingRow hmem => hfound.eligible pendingRow (hperm.mem_iff.mp hmem) }
  refine (Task.safe_forEach ?_ ?_ _ hv hpicking).mono
    (fun _ m v _ (hpost : Picking harness.causalNonce [] m v) => ⟨hpost.alive, hpost.synced⟩)
    (fun _ _ _ _ h => h)
  · intro pendingRow rest m2 x hx hinv
    exact (safe_reconcilePendingRow harness hx hinv.alive hinv.synced
      (hinv.eligible pendingRow List.mem_cons_self)).mono
      (fun _ m3 y _ hpost => hinv.claimed hpost) (fun _ _ _ _ h => h)
  · intro m2 x y _ hrely hinv
    have hxy := hrely.2 _ hinv.alive
    exact ⟨hxy.alive, hxy.synced hinv.synced rfl, List.nodup_nil, by simp⟩

theorem safe_reconcile (hw : CausalValid harness.config.groupId w)
    (hn : w.alive = some harness.causalNonce) (hsynced : Synced memory w) :
    Task.Safe (harnessContract harness.config harness.decode)
      (fun _ m v => v.alive = some harness.causalNonce ∧ Synced m v)
      (Stopped harness.causalNonce) (reconcile harness) memory w := by
  refine Task.safe_bind hw (safe_reconcilePendingCausal harness hw hn hsynced)
    fun _ m u hu hmid => ?_
  obtain ⟨hn', hsynced'⟩ := hmid
  refine Task.safe_bind hu (safe_getMemory hn') fun current m1 v hv hmid => ?_
  obtain ⟨rfl, rfl, huv⟩ := hmid
  refine Task.safe_bind hv ((safe_historyAfter (readsHistory_harness harness.config harness.decode)
    m1 harness.stableGroupId m1.lastSeenId hv).mono (fun _ _ _ _ h => h)
    (fun _ _ _ _ h => stopped_of_lookupFailed h)) fun rows m2 x hx hmid => ?_
  obtain ⟨rfl, hrely, hrows, -⟩ := hmid
  have hux := huv.trans (hrely.2 _ huv.alive)
  have hsynced'' := hux.synced hsynced' rfl
  exact safe_scanRows harness rows hx
    { alive := hux.alive
      synced := hsynced''
      rows := fun row hrow => (hrows row hrow).1
      own := fun row hrow => own_of_above hx hsynced'' (hrows row hrow).1 (hrows row hrow).2 }

end PendingScan

section Loop

variable (harness : HarnessContext) {memory : HarnessMemory} {w : CausalWorld}

/-- What holds after one attempt. -/
def Attempted : Except HarnessError Unit → HarnessMemory → CausalWorld → Prop
  | .ok _, m, v => v.alive = some harness.causalNonce ∧ Synced m v
  | .error error, m, v => Stopped harness.causalNonce error m v

theorem safe_reconcileWithSilentRecovery (backoffs : List ℕ)
    (hw : CausalValid harness.config.groupId w) (hn : w.alive = some harness.causalNonce)
    (hsynced : Synced memory w) :
    Task.Safe (harnessContract harness.config harness.decode)
      (fun _ m v => v.alive = some harness.causalNonce ∧ Synced m v)
      (Stopped harness.causalNonce) (reconcileWithSilentRecovery harness backoffs) memory w := by
  induction backoffs generalizing memory w with
  | nil =>
      refine Task.safe_bind hw (safe_reconcile harness hw hn hsynced) fun _ m u hu hmid => ?_
      exact safe_pure hmid.1 fun v _ hafter => ⟨hafter.alive, hafter.synced hmid.2 rfl⟩
  | cons seconds backoffs ih =>
      have hresult : Task.Safe (harnessContract harness.config harness.decode)
          (Attempted harness)
          (Stopped harness.causalNonce) (Task.result (reconcile harness)) memory w :=
        Task.safe_result hw (safe_reconcile harness hw hn hsynced)
      refine Task.safe_bind hw hresult fun result m u hu hmid => ?_
      cases result with
      | ok _ => exact safe_pure hmid.1 fun v _ hafter => ⟨hafter.alive, hafter.synced hmid.2 rfl⟩
      | error error =>
          have hstopped : Stopped harness.causalNonce error m u := hmid
          simp only
          split_ifs with hsilent
          · obtain ⟨halive, hsynced'⟩ := hstopped.2 hsilent
            refine Task.safe_bind hu (safe_await (.backoff seconds) rfl halive)
              fun signal m1 v hv hmid => ?_
            obtain ⟨rfl, huv⟩ := hmid
            have hsynced'' := huv.synced hsynced' rfl
            cases signal with
            | interrupted =>
                exact safe_pure huv.alive fun x _ hafter =>
                  ⟨hafter.alive, hafter.synced hsynced'' rfl⟩
            | signalFailed =>
                exact safe_error huv.alive fun x _ _ => stopped_of_fatal fatal_stateIo _ x
            | tick | wake | wakeTaskStopped => exact ih hv huv.alive hsynced''
          · exact Task.safe_fail fun v _ _ => ⟨hstopped.1, fun h => absurd h hsilent⟩

theorem safe_harnessLoop (rounds : ℕ) (hw : CausalValid harness.config.groupId w)
    (hn : w.alive = some harness.causalNonce) (hsynced : Synced memory w) :
    Task.Safe (harnessContract harness.config harness.decode) (fun _ _ _ => True)
      (fun error _ _ => OnlyMalformedIds error) (harnessLoop harness rounds) memory w := by
  induction rounds generalizing memory w with
  | zero => exact safe_pure hn fun _ _ _ => trivial
  | succ rounds ih =>
      refine Task.safe_bind hw (safe_await .awaitWake rfl hn) fun signal m u hu hmid => ?_
      obtain ⟨rfl, hwu⟩ := hmid
      have hsynced' := hwu.synced hsynced rfl
      cases signal with
      | wakeTaskStopped => exact safe_error hwu.alive fun _ _ _ => (fatal_x0x _).2
      | interrupted => exact safe_pure hwu.alive fun _ _ _ => trivial
      | signalFailed => exact safe_error hwu.alive fun _ _ _ => fatal_stateIo.2
      | tick | wake =>
          refine Task.safe_bind hu ((safe_reconcileWithSilentRecovery harness _ hu hwu.alive
            hsynced').mono (fun _ _ _ _ h => h) (fun _ _ _ _ h => h.1)) fun outcome m1 v hv
              hmid => ?_
          cases outcome with
          | shutdownRequested => exact safe_pure hmid.1 fun _ _ _ => trivial
          | reconciled => exact ih hv hmid.1 hmid.2

/-- The persisted watermark, as read at the start, is still the durable one. -/
theorem safe_loadState (hw : CausalValid config.groupId w) (hn : w.alive = some nonce) :
    Task.Safe (harnessContract config decode)
      (fun loaded m v => m = memory ∧ v.alive = some nonce ∧ v.watermark = loaded)
      (fun error _ _ => OnlyMalformedIds error) loadState memory w := by
  have hask : Task.Safe (harnessContract config decode)
      (fun answer m v => m = memory ∧ v.alive = some nonce ∧ Reads v.watermark answer)
      (fun error _ _ => OnlyMalformedIds error) (ask .readState) memory w := by
    apply safe_ask_quiet .readState hn rfl
    intro t answer v _ hwt hcommit _ htv
    refine ⟨rfl, htv.alive, ?_⟩
    rw [htv.watermark]
    exact hcommit.2
  refine Task.safe_bind hw hask fun answer m u hu hmid => ?_
  obtain ⟨rfl, hn', hreads⟩ := hmid
  cases answer with
  | missing => exact safe_pure hn' fun v _ hafter =>
      ⟨rfl, hafter.alive, hafter.watermark.trans hreads⟩
  | failed => exact safe_error hn' fun v _ _ => fatal_stateIo.2
  | found lastSeenId => exact safe_pure hn' fun v _ hafter =>
      ⟨rfl, hafter.alive, hafter.watermark.trans hreads⟩

/-- Without a persisted watermark no handoff is executing. -/
theorem executingBelow_of_missing {groupId : String} (hw : CausalValid groupId w)
    (hmissing : w.watermark = none) (limit : ℤ) : w.ExecutingBelow limit (fun _ => False) := by
  intro msgId hexecuting _
  obtain ⟨lastSeenId, hsome, -⟩ := hw.watermark msgId hexecuting
  rw [hmissing] at hsome
  cases hsome

theorem safe_recentHistory (stableGroupId : String) (hw : CausalValid config.groupId w)
    (hn : w.alive = some nonce) :
    Task.Safe (harnessContract config decode) (fun _ m v => m = memory ∧ Undisturbed nonce w v)
      (fun error _ _ => OnlyMalformedIds error) (recentHistory stableGroupId) memory w := by
  refine Task.safe_bind hw ((safe_historyPage (readsHistory_harness config decode) memory hw
    _ _ _).mono (fun _ _ _ _ h => h) (fun _ _ _ _ h => ?_)) fun response m u hu hmid => ?_
  · obtain ⟨-, -, reason, rfl⟩ := h
    exact (fatal_x0x reason).2
  · obtain ⟨rfl, t, hwt, htu, -⟩ := hmid
    have hwu := (hwt.2 nonce hn).trans (htu.2 nonce (hwt.2 nonce hn).alive)
    exact safe_pure hwu.alive fun v _ hafter => ⟨rfl, hwu.trans hafter⟩

theorem Harmless.safe {α : Type} {t : HarnessTask α}
    (ht : Harmless (harnessContract config decode) t) (hw : CausalValid config.groupId w)
    (hn : w.alive = some nonce) :
    Task.Safe (harnessContract config decode) (fun _ m v => m = memory ∧ Undisturbed nonce w v)
      (fun error _ _ => OnlyMalformedIds error) t memory w :=
  (ht memory w hw).mono (fun _ _ _ _ h => ⟨h.1, h.2.2 nonce hn⟩)
    (fun _ _ _ _ h => onlyMalformedIds_of_ne h.2.2)

/-- The start brings the watermark in memory and the durable one together. -/
theorem safe_restoreWatermark (loaded : Option ℤ) (recent : List HistoryRow)
    (hw : CausalValid config.groupId w) (hn : w.alive = some nonce)
    (hloaded : w.watermark = loaded) :
    Task.Safe (harnessContract config decode)
      (fun _ m v => v.alive = some nonce ∧ Synced m v) (fun error _ _ => OnlyMalformedIds error)
      (restoreWatermark loaded recent) memory w := by
  cases loaded with
  | some lastSeenId =>
      refine (safe_setLastSeenId lastSeenId hw hn).mono (fun _ m v _ hpost => ?_)
        (fun _ _ _ _ h => h)
      obtain ⟨rfl, hwv⟩ := hpost
      exact ⟨hwv.alive, hwv.watermark.trans hloaded⟩
  | none =>
      refine Task.safe_bind hw (safe_setLastSeenId _ hw hn) fun _ m u hu hmid => ?_
      obtain ⟨rfl, hwu⟩ := hmid
      have hmissing := hwu.watermark.trans hloaded
      refine (safe_persistState (fun _ _ _ hfatal => hfatal.2) hu hwu.alive
        (executingBelow_of_missing hu hmissing _)).mono (fun _ m v _ hpost => ?_)
        (fun _ _ _ _ h => h)
      obtain ⟨rfl, huv, hsynced⟩ := hpost
      exact ⟨huv.alive, hsynced⟩

theorem safe_runHarness (rounds : ℕ) (hw : CausalValid harness.config.groupId w)
    (hn : w.alive = some harness.causalNonce) :
    Task.Safe (harnessContract harness.config harness.decode) (fun _ _ _ => True)
      (fun error _ _ => OnlyMalformedIds error) (runHarness harness rounds) memory w := by
  refine Task.safe_bind hw (safe_await .verifyIdentity rfl hn) fun identity m0 a ha hmid => ?_
  obtain ⟨rfl, hwa⟩ := hmid
  refine Task.safe_bind ha ((harmless_orX0xError identity).safe ha hwa.alive)
    fun _ m1 b hb hmid => ?_
  obtain ⟨rfl, hab⟩ := hmid
  refine Task.safe_bind hb (safe_await .resolveGroup rfl hab.alive) fun group m2 d hd hmid => ?_
  obtain ⟨rfl, hbd⟩ := hmid
  refine Task.safe_bind hd ((harmless_orX0xError group).safe hd hbd.alive)
    fun stableGroupId m3 e he hmid => ?_
  obtain ⟨rfl, hde⟩ := hmid
  refine Task.safe_bind he (safe_loadState he hde.alive) fun loaded m4 f hf hmid => ?_
  obtain ⟨rfl, halive, hloaded⟩ := hmid
  refine Task.safe_bind hf (safe_recentHistory stableGroupId hf halive)
    fun recent m5 g hg hmid => ?_
  obtain ⟨rfl, hfg⟩ := hmid
  refine Task.safe_bind hg (safe_setContext _ hg hfg.alive) fun _ m6 k hk hmid => ?_
  have hfk := hfg.trans hmid.2
  refine Task.safe_bind hk (safe_restoreWatermark loaded recent hk hfk.alive
    (hfk.watermark.trans hloaded)) fun _ m7 p hp hmid => ?_
  obtain ⟨hpalive, hsynced⟩ := hmid
  refine Task.safe_bind hp (safe_orFail_quiet hp hpalive rfl (fun _ => fatal_stateIo.2))
    fun _ m8 q hq hmid => ?_
  obtain ⟨rfl, hpq⟩ := hmid
  refine Task.safe_bind hq (safe_await .startAcp rfl hpq.alive) fun started m9 r hr hmid => ?_
  obtain ⟨rfl, hqr⟩ := hmid
  cases started with
  | error reason =>
      exact safe_error hqr.alive fun _ _ _ => onlyMalformedIds_of_ne (by simp)
  | ok _ =>
      refine Task.safe_bind hr (safe_orFail_quiet hr hqr.alive rfl (fun _ => fatal_stateIo.2))
        fun _ m10 s hs hmid => ?_
      obtain ⟨rfl, hrs⟩ := hmid
      have hps := (hpq.trans hqr).trans hrs
      exact safe_harnessLoop { harness with stableGroupId := stableGroupId } rounds hs hps.alive
        (hps.synced hsynced rfl)

/-- The harness keeps the invariant from launch to end and blames no file that one
of the programs wrote. -/
theorem safe_asyncMain (rounds : ℕ) (hw : CausalValid harness.config.groupId w)
    (hn : w.alive = some harness.causalNonce) :
    Task.Safe (harnessContract harness.config harness.decode) (fun _ _ _ => True)
      (fun error _ _ => OnlyMalformedIds error) (asyncMain harness rounds) memory w := by
  have hresult : Task.Safe (harnessContract harness.config harness.decode)
      (fun result _ _ => ∀ error, result = .error error → OnlyMalformedIds error)
      (fun error _ _ => OnlyMalformedIds error) (Task.result (runHarness harness rounds))
      memory w := by
    apply Task.safe_result hw
    refine (safe_runHarness harness rounds hw hn).mono (fun _ _ _ _ _ => by simp)
      (fun error _ _ _ honly error' herror => ?_)
    rw [← Except.error.inj herror]
    exact honly
  refine Task.safe_bind hw hresult fun result m u hu honly => ?_
  cases result with
  | ok _ => exact Task.safe_ret fun _ _ _ => trivial
  | error error =>
      -- the failure is published only if the harness still runs
      have hpublish : Task.Safe (harnessContract harness.config harness.decode)
          (fun _ _ _ => True) (fun error _ _ => OnlyMalformedIds error)
          (ask (.publish .failed)) m u := by
        apply Task.safe_perform
        intro t ht _ answer v hcommit
        obtain ⟨hquiet, -, hawake⟩ := hcommit
        obtain rfl : v = t := hquiet
        obtain ⟨other, halive⟩ := Option.ne_none_iff_exists'.mp (hawake rfl)
        exact ⟨ht, HarnessGuar.refl halive, fun _ _ _ => trivial⟩
      exact Task.safe_bind hu hpublish fun _ _ _ _ _ =>
        Task.safe_fail fun _ _ _ => honly error rfl

end Loop

end Buzz
