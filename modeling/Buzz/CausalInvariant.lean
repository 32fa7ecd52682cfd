import Buzz.CausalDesktop

/-!
# What the durable artefacts always say

The invariant of the three artefacts and of the record of ACP entries. A message
whose entries did not all end silently has a tombstone or an executing handoff;
while a harness is alive every other handoff carries its nonce; the row of an
executing handoff is not above the watermark. Each file operation keeps the
invariant under the condition at which the two programs issue it.
-/

namespace Buzz

open EffectProgram

/-- Hexadecimal text of a fixed width in lower case. -/
def IsLowerHex (width : ℕ) (s : String) : Prop :=
  isHexText width s = true ∧ toAsciiLowercase s = s

namespace CausalWorld

variable (w : CausalWorld)

def Executing (msgId : String) : Prop :=
  ∃ message, w.pending msgId = some message ∧ message.state = .executing

/-- Every entry for the message so far ended in a silent turn. -/
def AllSilent (msgId : String) : Prop :=
  ∀ entry ∈ w.entries, entry.msgId = msgId → entry.outcome = .silent

/-- No row of an executing handoff, that of `except` aside, is above `limit`. -/
def ExecutingBelow (limit : ℤ) (except : String → Prop) : Prop :=
  ∀ msgId, w.Executing msgId → ¬except msgId →
    ∃ row ∈ w.rows, toAsciiLowercase row.msgId = msgId ∧ row.id ≤ limit

/-- The message is completed, or its handoff is executing and belongs to a harness
that is gone. -/
def Frozen (msgId : String) : Prop :=
  w.completed msgId ≠ none ∨
    ∃ message, w.pending msgId = some message ∧ message.state = .executing ∧
      w.alive ≠ some message.startNonce

end CausalWorld

/-- Two entries for one message occur only if the earlier one ended silently. -/
def AtMostOnce (entries : List AcpEntry) : Prop :=
  entries.Pairwise fun earlier later =>
    earlier.msgId = later.msgId → earlier.outcome = .silent

structure RecordOk (groupId : String) (nonces : List String) (stem : String)
    (message : PendingCausalMessage) : Prop where
  version : message.version = 2
  group : message.groupId = groupId
  msgId : message.msgId = stem
  stem : IsLowerHex 64 stem
  nonce : IsLowerHex 32 message.startNonce
  used : message.startNonce ∈ nonces

structure CausalValid (groupId : String) (w : CausalWorld) : Prop where
  record : ∀ stem message, w.pending stem = some message →
    RecordOk groupId w.nonces stem message
  tombstone : ∀ msgId message, w.completed msgId = some message → message = ⟨1, groupId, msgId⟩
  spent : ∀ msgId, w.completed msgId ≠ none ∨ w.Executing msgId ∨ w.AllSilent msgId
  once : AtMostOnce w.entries
  bound : ∀ nonce, w.alive = some nonce → ∀ stem message, w.pending stem = some message →
    message.state ≠ .executing → message.startNonce = nonce
  alive : ∀ nonce, w.alive = some nonce → IsLowerHex 32 nonce ∧ nonce ∈ w.nonces
  watermark : ∀ msgId, w.Executing msgId → ∃ lastSeenId, w.watermark = some lastSeenId ∧
    ∃ row ∈ w.rows, toAsciiLowercase row.msgId = msgId ∧ row.id ≤ lastSeenId
  unique : UniqueRows w.rows

/-- Frozen messages stay frozen and are not entered. -/
def StaysFrozen (w u : CausalWorld) : Prop :=
  ∀ msgId, w.Frozen msgId → u.Frozen msgId ∧ u.entriesOf msgId = w.entriesOf msgId

theorem staysFrozen_refl (w : CausalWorld) : StaysFrozen w w :=
  fun _ h => ⟨h, rfl⟩

theorem staysFrozen_trans (u v w : CausalWorld) (huv : StaysFrozen u v) (hvw : StaysFrozen v w) :
    StaysFrozen u w := by
  intro msgId h
  obtain ⟨hv, heq⟩ := huv msgId h
  obtain ⟨hw, heq'⟩ := hvw msgId hv
  exact ⟨hw, heq'.trans heq⟩

section Pending

variable {groupId : String} {w : CausalWorld} {stem : String}

theorem pending_setPending_self (message : Option PendingCausalMessage) :
    (w.setPending stem message).pending stem = message :=
  Function.update_self ..

theorem pending_setPending_of_ne {other : String} (message : Option PendingCausalMessage)
    (h : other ≠ stem) : (w.setPending stem message).pending other = w.pending other :=
  Function.update_of_ne h ..

theorem executing_setPending_of_ne {other : String} (message : Option PendingCausalMessage)
    (h : other ≠ stem) : (w.setPending stem message).Executing other ↔ w.Executing other := by
  simp only [CausalWorld.Executing, pending_setPending_of_ne message h]

theorem frozen_setPending_of_ne {other : String} (message : Option PendingCausalMessage)
    (h : other ≠ stem) : (w.setPending stem message).Frozen other ↔ w.Frozen other := by
  unfold CausalWorld.Frozen
  rw [pending_setPending_of_ne message h]
  rfl

/-- A change of one handoff leaves the rest of the invariant alone. -/
theorem CausalValid.setPending (h : CausalValid groupId w) {message : Option PendingCausalMessage}
    (hok : ∀ record, message = some record → RecordOk groupId w.nonces stem record)
    (hbound : ∀ record nonce, message = some record → w.alive = some nonce →
      record.state ≠ .executing → record.startNonce = nonce)
    (hspent : (∃ record, message = some record ∧ record.state = .executing) ∨
      w.completed stem ≠ none ∨ w.AllSilent stem)
    (hrow : ∀ record, message = some record → record.state = .executing →
      ∃ lastSeenId, w.watermark = some lastSeenId ∧
        ∃ row ∈ w.rows, toAsciiLowercase row.msgId = stem ∧ row.id ≤ lastSeenId) :
    CausalValid groupId (w.setPending stem message) where
  record := by
    intro other record hrecord
    by_cases hother : other = stem
    · subst hother
      rw [pending_setPending_self] at hrecord
      exact hok record hrecord
    · rw [pending_setPending_of_ne message hother] at hrecord
      exact h.record other record hrecord
  tombstone := h.tombstone
  spent := by
    intro other
    by_cases hother : other = stem
    · subst hother
      rcases hspent with ⟨record, hrecord, hstate⟩ | hdone | hsilent
      · refine Or.inr (Or.inl ⟨record, ?_, hstate⟩)
        rw [pending_setPending_self, hrecord]
      · exact Or.inl hdone
      · exact Or.inr (Or.inr hsilent)
    · rw [executing_setPending_of_ne message hother]
      exact h.spent other
  once := h.once
  bound := by
    intro nonce halive other record hrecord hstate
    by_cases hother : other = stem
    · subst hother
      rw [pending_setPending_self] at hrecord
      exact hbound record nonce hrecord halive hstate
    · rw [pending_setPending_of_ne message hother] at hrecord
      exact h.bound nonce halive other record hrecord hstate
  alive := h.alive
  watermark := by
    intro other hexecuting
    by_cases hother : other = stem
    · subst hother
      obtain ⟨record, hrecord, hstate⟩ := hexecuting
      rw [pending_setPending_self] at hrecord
      exact hrow record hrecord hstate
    · rw [executing_setPending_of_ne message hother] at hexecuting
      exact h.watermark other hexecuting
  unique := h.unique

theorem CausalValid.removeCompleted (h : CausalValid groupId w)
    (hdone : w.completed stem ≠ none) : CausalValid groupId (w.setPending stem none) :=
  h.setPending (by simp) (by simp) (Or.inr (Or.inl hdone)) (by simp)

theorem CausalWorld.not_frozen_of_none (hnone : w.pending stem = none) :
    w.completed stem ≠ none ∨ ¬w.Frozen stem := by
  by_cases hdone : w.completed stem = none
  · right
    rintro (hdone' | ⟨record, hrecord, -⟩)
    · exact hdone' hdone
    · rw [hnone] at hrecord
      cases hrecord
  · exact Or.inl hdone

theorem staysFrozen_setPending (message : Option PendingCausalMessage)
    (h : w.completed stem ≠ none ∨ ¬w.Frozen stem) :
    StaysFrozen w (w.setPending stem message) := by
  intro other hfrozen
  refine ⟨?_, rfl⟩
  by_cases hother : other = stem
  · subst hother
    rcases h with hdone | hfree
    · exact Or.inl hdone
    · exact absurd hfrozen hfree
  · exact (frozen_setPending_of_ne message hother).mpr hfrozen

end Pending

section Entries

variable {groupId : String} {w : CausalWorld} {msgId : String}

theorem completed_setCompleted_self (message : CompletedCausalMessage) :
    (w.setCompleted msgId message).completed msgId = some message :=
  Function.update_self ..

theorem completed_setCompleted_of_ne {other : String} (message : CompletedCausalMessage)
    (h : other ≠ msgId) :
    (w.setCompleted msgId message).completed other = w.completed other :=
  Function.update_of_ne h ..

theorem completed_setCompleted_ne_none {other : String} (message : CompletedCausalMessage)
    (h : other = msgId ∨ w.completed other ≠ none) :
    (w.setCompleted msgId message).completed other ≠ none := by
  by_cases hother : other = msgId
  · subst hother
    rw [completed_setCompleted_self]
    exact Option.some_ne_none _
  · rw [completed_setCompleted_of_ne message hother]
    exact h.resolve_left hother

theorem CausalValid.setWatermark (h : CausalValid groupId w) {lastSeenId : ℤ}
    (hbelow : w.ExecutingBelow lastSeenId (fun _ => False)) :
    CausalValid groupId (w.setWatermark lastSeenId) where
  record := h.record
  tombstone := h.tombstone
  spent := h.spent
  once := h.once
  bound := h.bound
  alive := h.alive
  watermark := fun other hexecuting => ⟨lastSeenId, rfl, hbelow other hexecuting id⟩
  unique := h.unique

theorem CausalValid.setCompleted (h : CausalValid groupId w) :
    CausalValid groupId (w.setCompleted msgId ⟨1, groupId, msgId⟩) where
  record := h.record
  tombstone := by
    intro other message hmessage
    by_cases hother : other = msgId
    · subst hother
      rw [completed_setCompleted_self, Option.some.injEq] at hmessage
      exact hmessage.symm
    · rw [completed_setCompleted_of_ne _ hother] at hmessage
      exact h.tombstone other message hmessage
  spent := by
    intro other
    by_cases hother : other = msgId
    · exact Or.inl (completed_setCompleted_ne_none _ (Or.inl hother))
    · rw [completed_setCompleted_of_ne _ hother]
      exact h.spent other
  once := h.once
  bound := h.bound
  alive := h.alive
  watermark := h.watermark
  unique := h.unique

theorem staysFrozen_setCompleted (message : CompletedCausalMessage) :
    StaysFrozen w (w.setCompleted msgId message) := by
  intro other hfrozen
  refine ⟨?_, rfl⟩
  rcases hfrozen with hdone | hforeign
  · exact Or.inl (completed_setCompleted_ne_none message (Or.inr hdone))
  · exact Or.inr hforeign

/-- A turn may start when its handoff is executing and all earlier ones were silent. -/
theorem CausalValid.enterTurn (h : CausalValid groupId w) (hexecuting : w.Executing msgId)
    (hsilent : w.AllSilent msgId) : CausalValid groupId (w.enterTurn msgId) where
  record := h.record
  tombstone := h.tombstone
  spent := by
    intro other
    by_cases hother : other = msgId
    · subst hother
      exact Or.inr (Or.inl hexecuting)
    · rcases h.spent other with hdone | hexec | hall
      · exact Or.inl hdone
      · exact Or.inr (Or.inl hexec)
      · refine Or.inr (Or.inr fun entry hentry hid => ?_)
        rcases List.mem_append.mp hentry with hold | hnew
        · exact hall entry hold hid
        · rw [List.mem_singleton.mp hnew] at hid
          exact absurd hid.symm hother
  once := by
    refine List.pairwise_append.mpr ⟨h.once, List.pairwise_singleton _ _, ?_⟩
    intro earlier hearlier later hlater hid
    rw [List.mem_singleton.mp hlater] at hid
    exact hsilent earlier hearlier hid
  bound := h.bound
  alive := h.alive
  watermark := h.watermark
  unique := h.unique

/-- The entry after its turn was left. -/
def leftEntry (msgId : String) (outcome : EntryOutcome) (entry : AcpEntry) : AcpEntry :=
  if entry.msgId = msgId ∧ entry.outcome = .unfinished then ⟨msgId, outcome⟩ else entry

theorem msgId_leftEntry (outcome : EntryOutcome) (entry : AcpEntry) :
    (leftEntry msgId outcome entry).msgId = entry.msgId := by
  unfold leftEntry
  split_ifs with h
  · exact h.1.symm
  · rfl

theorem outcome_leftEntry_of_silent (outcome : EntryOutcome) {entry : AcpEntry}
    (h : entry.outcome = .silent) : (leftEntry msgId outcome entry).outcome = .silent := by
  unfold leftEntry
  rw [if_neg (by simp [h])]
  exact h

theorem leftEntry_of_ne (outcome : EntryOutcome) {entry : AcpEntry} (h : entry.msgId ≠ msgId) :
    leftEntry msgId outcome entry = entry := by
  unfold leftEntry
  rw [if_neg (by simp [h])]

theorem CausalValid.leaveTurn (h : CausalValid groupId w) (hexecuting : w.Executing msgId)
    (outcome : EntryOutcome) : CausalValid groupId (w.leaveTurn msgId outcome) where
  record := h.record
  tombstone := h.tombstone
  spent := by
    intro other
    by_cases hother : other = msgId
    · subst hother
      exact Or.inr (Or.inl hexecuting)
    · rcases h.spent other with hdone | hexec | hall
      · exact Or.inl hdone
      · exact Or.inr (Or.inl hexec)
      · refine Or.inr (Or.inr fun entry hentry hid => ?_)
        obtain ⟨before, hbefore, rfl⟩ := List.mem_map.mp hentry
        have hid' : before.msgId = other := (msgId_leftEntry outcome before).symm.trans hid
        exact outcome_leftEntry_of_silent outcome (hall before hbefore hid')
  once := by
    refine List.Pairwise.map (leftEntry msgId outcome) ?_ h.once
    intro earlier later hpair hid
    rw [msgId_leftEntry, msgId_leftEntry] at hid
    exact outcome_leftEntry_of_silent outcome (hpair hid)
  bound := h.bound
  alive := h.alive
  watermark := h.watermark
  unique := h.unique

theorem staysFrozen_enterTurn (h : ¬w.Frozen msgId) : StaysFrozen w (w.enterTurn msgId) := by
  intro other hfrozen
  refine ⟨hfrozen, ?_⟩
  have hother : msgId ≠ other := by
    rintro rfl
    exact h hfrozen
  simp [CausalWorld.entriesOf, CausalWorld.enterTurn, hother]

theorem staysFrozen_leaveTurn (h : ¬w.Frozen msgId) (outcome : EntryOutcome) :
    StaysFrozen w (w.leaveTurn msgId outcome) := by
  intro other hfrozen
  refine ⟨hfrozen, ?_⟩
  have hother : other ≠ msgId := by
    rintro rfl
    exact h hfrozen
  have hkeep : (fun entry : AcpEntry => decide (entry.msgId = other)) ∘ leftEntry msgId outcome =
      fun entry => decide (entry.msgId = other) := by
    funext entry
    simp only [Function.comp_apply, msgId_leftEntry]
  change (w.entries.map (leftEntry msgId outcome)).filter _ = _
  rw [List.filter_map, hkeep]
  refine List.map_congr_left (fun entry hentry => ?_) |>.trans (List.map_id _)
  have hid : entry.msgId = other := by simpa using (List.mem_filter.mp hentry).2
  exact leftEntry_of_ne outcome (hid ▸ hother)

end Entries

section Contracts

/-- Handoffs may appear in state pending, and those of completed messages may come
and go; tombstones and entries stay as they are. -/
structure Kept (nonce : String) (w u : CausalWorld) : Prop where
  alive : u.alive = some nonce
  completed : u.completed = w.completed
  entries : u.entries = w.entries
  rows : ∀ row ∈ w.rows, row ∈ u.rows
  pending : ∀ stem, u.pending stem = w.pending stem ∨
    ((w.completed stem ≠ none ∨ w.pending stem = none) ∧ ¬u.Executing stem)

/-- What the harness with this nonce sees of the others. -/
structure Undisturbed (nonce : String) (w u : CausalWorld) : Prop extends Kept nonce w u where
  watermark : u.watermark = w.watermark

def HarnessRely (w u : CausalWorld) : Prop :=
  (∀ row ∈ w.rows, row ∈ u.rows) ∧ ∀ nonce, w.alive = some nonce → Undisturbed nonce w u

/-- What the harness does to the desktop's view. -/
structure HarnessGuar (w u : CausalWorld) : Prop where
  awake : w.alive ≠ none
  alive : u.alive = w.alive
  nonces : u.nonces = w.nonces
  completed : ∀ msgId, w.completed msgId ≠ none → u.completed msgId ≠ none
  records : ∀ stem message, u.pending stem = some message →
    w.pending stem = some message ∨ w.alive = some message.startNonce
  frozen : StaysFrozen w u

/-- While no harness is alive the desktop has the handoffs to itself. -/
structure DesktopRely (w u : CausalWorld) : Prop where
  alive : u.alive = w.alive ∨ u.alive = none
  nonces : u.nonces = w.nonces
  completed : ∀ msgId, w.completed msgId ≠ none → u.completed msgId ≠ none
  records : ∀ stem message, u.pending stem = some message →
    w.pending stem = some message ∨ w.alive = some message.startNonce
  asleep : w.alive = none → u.pending = w.pending ∧ u.completed = w.completed

def DesktopGuar (w u : CausalWorld) : Prop :=
  HarnessRely w u ∧ StaysFrozen w u

variable {nonce : String} {w u v : CausalWorld}

theorem Kept.refl (h : w.alive = some nonce) : Kept nonce w w where
  alive := h
  completed := rfl
  entries := rfl
  rows := fun _ hrow => hrow
  pending := fun _ => Or.inl rfl

theorem Kept.trans (h : Kept nonce w u) (h' : Kept nonce u v) : Kept nonce w v where
  alive := h'.alive
  completed := h'.completed.trans h.completed
  entries := h'.entries.trans h.entries
  rows := fun row hrow => h'.rows row (h.rows row hrow)
  pending := by
    intro stem
    rcases h.pending stem with hsame | ⟨hfree, hidle⟩
    · rcases h'.pending stem with hsame' | ⟨hfree', hidle'⟩
      · exact Or.inl (hsame'.trans hsame)
      · rw [h.completed, hsame] at hfree'
        exact Or.inr ⟨hfree', hidle'⟩
    · rcases h'.pending stem with hsame' | ⟨-, hidle'⟩
      · refine Or.inr ⟨hfree, ?_⟩
        rintro ⟨message, hmessage, hstate⟩
        exact hidle ⟨message, hsame'.symm.trans hmessage, hstate⟩
      · exact Or.inr ⟨hfree, hidle'⟩

theorem Undisturbed.refl (h : w.alive = some nonce) : Undisturbed nonce w w :=
  ⟨Kept.refl h, rfl⟩

theorem Undisturbed.trans (h : Undisturbed nonce w u) (h' : Undisturbed nonce u v) :
    Undisturbed nonce w v :=
  ⟨h.toKept.trans h'.toKept, h'.watermark.trans h.watermark⟩

/-- An executing handoff was not touched. -/
theorem Kept.executing (h : Kept nonce w u) {stem : String}
    (hexecuting : u.Executing stem) : u.pending stem = w.pending stem := by
  rcases h.pending stem with hsame | ⟨-, hidle⟩
  · exact hsame
  · exact absurd hexecuting hidle

/-- A handoff of a message that is not completed was not touched. -/
theorem Kept.held (h : Kept nonce w u) {stem : String}
    {message : PendingCausalMessage} (hopen : w.completed stem = none)
    (hmessage : w.pending stem = some message) : u.pending stem = some message := by
  rcases h.pending stem with hsame | ⟨hfree, -⟩
  · exact hsame.trans hmessage
  · rw [hopen, hmessage] at hfree
    simp at hfree

theorem Kept.allSilent (h : Kept nonce w u) {msgId : String}
    (hsilent : w.AllSilent msgId) : u.AllSilent msgId := by
  unfold CausalWorld.AllSilent
  rw [h.entries]
  exact hsilent

theorem Kept.executingBelow (h : Kept nonce w u) {limit : ℤ}
    {except : String → Prop} (hbelow : w.ExecutingBelow limit except) :
    u.ExecutingBelow limit except := by
  intro msgId hexecuting hother
  have hsame := h.executing hexecuting
  obtain ⟨message, hmessage, hstate⟩ := hexecuting
  obtain ⟨row, hrow, hid, hle⟩ := hbelow msgId ⟨message, hsame.symm.trans hmessage, hstate⟩ hother
  exact ⟨row, h.rows row hrow, hid, hle⟩

theorem HarnessGuar.desktopRely (h : HarnessGuar w u) : DesktopRely w u where
  alive := Or.inl h.alive
  nonces := h.nonces
  completed := h.completed
  records := h.records
  asleep := fun hnone => absurd hnone h.awake

theorem DesktopRely.refl (w : CausalWorld) : DesktopRely w w where
  alive := Or.inl rfl
  nonces := rfl
  completed := fun _ h => h
  records := fun _ _ h => Or.inl h
  asleep := fun _ => ⟨rfl, rfl⟩

theorem DesktopRely.trans (h : DesktopRely w u) (h' : DesktopRely u v) : DesktopRely w v where
  alive := by
    rcases h'.alive with hsame | hnone
    · rw [hsame]
      exact h.alive
    · exact Or.inr hnone
  nonces := h'.nonces.trans h.nonces
  completed := fun msgId hdone => h'.completed msgId (h.completed msgId hdone)
  records := by
    intro stem message hmessage
    rcases h'.records stem message hmessage with hold | halive
    · exact h.records stem message hold
    · rcases h.alive with hsame | hnone
      · exact Or.inr (hsame.symm.trans halive)
      · rw [hnone] at halive
        cases halive
  asleep := by
    intro hnone
    obtain ⟨hpending, hcompleted⟩ := h.asleep hnone
    have hnone' : u.alive = none := by
      rcases h.alive with hsame | hgone
      · exact hsame.trans hnone
      · exact hgone
    obtain ⟨hpending', hcompleted'⟩ := h'.asleep hnone'
    exact ⟨hpending'.trans hpending, hcompleted'.trans hcompleted⟩

end Contracts

/-- A rejected handoff is one whose message identifier is not of the right shape,
never a file that one of the programs wrote. -/
def OnlyMalformedIds (error : HarnessError) : Prop :=
  ∀ subject, error = .pendingCausalInvalid subject →
    ∃ msgId, subject = .messageId msgId ∧ isHexText 64 (toAsciiLowercase msgId) = false

section Discipline

theorem CausalValid.arrives {groupId : String} {w u : CausalWorld} (h : CausalValid groupId w)
    (harrives : Arrives w u) : CausalValid groupId u := by
  obtain ⟨rows, hgrow, hunique, rfl⟩ := harrives
  exact
    { record := h.record
      tombstone := h.tombstone
      spent := h.spent
      once := h.once
      bound := h.bound
      alive := h.alive
      watermark := by
        intro msgId hexecuting
        obtain ⟨lastSeenId, hwatermark, row, hrow, hid, hle⟩ := h.watermark msgId hexecuting
        exact ⟨lastSeenId, hwatermark, row, hgrow row hrow, hid, hle⟩
      unique := hunique }

theorem CausalValid.dies {groupId : String} {w : CausalWorld} (h : CausalValid groupId w) :
    CausalValid groupId { w with alive := none } where
  record := h.record
  tombstone := h.tombstone
  spent := h.spent
  once := h.once
  bound := by simp
  alive := by simp
  watermark := h.watermark
  unique := h.unique

theorem staysFrozen_dies (w : CausalWorld) : StaysFrozen w { w with alive := none } := by
  intro msgId hfrozen
  refine ⟨?_, rfl⟩
  rcases hfrozen with hdone | ⟨message, hmessage, hstate, -⟩
  · exact Or.inl hdone
  · exact Or.inr ⟨message, hmessage, hstate, by simp⟩

theorem HarnessRely.refl (w : CausalWorld) : HarnessRely w w :=
  ⟨fun _ hrow => hrow, fun _ halive => Undisturbed.refl halive⟩

theorem HarnessRely.trans {w u v : CausalWorld} (h : HarnessRely w u) (h' : HarnessRely u v) :
    HarnessRely w v := by
  refine ⟨fun row hrow => h'.1 row (h.1 row hrow), fun nonce halive => ?_⟩
  have hundisturbed := h.2 nonce halive
  exact hundisturbed.trans (h'.2 nonce hundisturbed.alive)

theorem harnessRely_arrives {w u : CausalWorld} (h : Arrives w u) : HarnessRely w u := by
  obtain ⟨rows, hgrow, -, rfl⟩ := h
  exact ⟨hgrow, fun nonce halive => ⟨⟨halive, rfl, rfl, hgrow, fun _ => Or.inl rfl⟩, rfl⟩⟩

theorem desktopRely_arrives {w u : CausalWorld} (h : Arrives w u) : DesktopRely w u := by
  obtain ⟨rows, -, -, rfl⟩ := h
  exact ⟨Or.inl rfl, rfl, fun _ hdone => hdone, fun _ _ hmessage => Or.inl hmessage,
    fun _ => ⟨rfl, rfl⟩⟩

/-- The terms on which the desktop and the harness share the artefacts. -/
def causalDiscipline (config : Config) (decode : EnvelopeDecoder) :
    Discipline (causalSystem config decode RecheckReads) where
  valid := CausalValid config.groupId
  rely := fun thread =>
    match thread with
    | .desktop => DesktopRely
    | .harness => HarnessRely
  guar := fun thread =>
    match thread with
    | .desktop => DesktopGuar
    | .harness => HarnessGuar
  change := StaysFrozen
  post := fun thread =>
    match thread with
    | .desktop => fun _ _ => True
    | .harness => fun out _ => ∀ error, out.1 = .error error → OnlyMalformedIds error
  rely_refl := by
    intro thread w
    cases thread with
    | desktop => exact DesktopRely.refl w
    | harness => exact HarnessRely.refl w
  rely_trans := by
    intro thread u v w huv hvw
    cases thread with
    | desktop => exact DesktopRely.trans huv hvw
    | harness => exact HarnessRely.trans huv hvw
  guar_rely := by
    intro i j w u hij _ _ hguar
    cases i with
    | desktop =>
        cases j with
        | desktop => exact absurd rfl hij
        | harness => exact hguar.1
    | harness =>
        cases j with
        | desktop => exact hguar.desktopRely
        | harness => exact absurd rfl hij
  guar_change := by
    intro i w u _ _ hguar
    cases i with
    | desktop => exact hguar.2
    | harness => exact hguar.frozen
  change_refl := staysFrozen_refl
  stops_valid := by
    intro i w u hvalid hstop
    cases i with
    | desktop => exact hstop ▸ hvalid
    | harness => exact hstop ▸ hvalid.dies
  stops_rely := by
    intro i j w u hij _ hstop
    cases i with
    | desktop =>
        cases j with
        | desktop => exact absurd rfl hij
        | harness =>
            subst hstop
            exact HarnessRely.refl u
    | harness =>
        cases j with
        | desktop =>
            subst hstop
            exact ⟨Or.inr rfl, rfl, fun _ hdone => hdone, fun _ _ hmessage => Or.inl hmessage,
              fun _ => ⟨rfl, rfl⟩⟩
        | harness => exact absurd rfl hij
  stops_change := by
    intro i w u _ hstop
    cases i with
    | desktop => exact hstop ▸ staysFrozen_refl w
    | harness => exact hstop ▸ staysFrozen_dies w
  moves_valid := fun w u hvalid hmove => hvalid.arrives hmove
  moves_rely := by
    intro i w u _ hmove
    cases i with
    | desktop => exact desktopRely_arrives hmove
    | harness => exact harnessRely_arrives hmove
  moves_change := by
    intro w u _ hmove
    obtain ⟨rows, -, -, rfl⟩ := hmove
    exact fun msgId hfrozen => ⟨hfrozen, rfl⟩

end Discipline

end Buzz
