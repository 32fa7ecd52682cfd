import Buzz.QuietTasks
import Buzz.CausalDesktop

/-!
# Which rows one reconciliation examines

The handoffs come first and the rows above the watermark second, but both move
the same watermark. A row between the old watermark and the row of a handoff is
then above neither: the second scan starts beyond it. This happens exactly when
such a row has no handoff of its own.

The daemon may add rows all the time; nothing else changes the artefacts while
the harness reconciles.
-/

namespace Buzz

open EffectProgram

def Grows (w u : CausalWorld) : Prop :=
  ∃ rows, (∀ row ∈ w.rows, row ∈ rows) ∧ u = { w with rows := rows }

theorem Grows.refl (w : CausalWorld) : Grows w w :=
  ⟨w.rows, fun _ hrow => hrow, rfl⟩

theorem Grows.trans {u v w : CausalWorld} (huv : Grows u v) (hvw : Grows v w) : Grows u w := by
  obtain ⟨rows, hgrow, rfl⟩ := huv
  obtain ⟨rows', hgrow', rfl⟩ := hvw
  exact ⟨rows', fun row hrow => hgrow' row (hgrow row hrow), rfl⟩

/-- The harness reconciles while the daemon adds rows. -/
def scanContract (config : Config) (decode : EnvelopeDecoder) :
    Contract CausalWorld CausalRequest CausalRequest.Reply where
  valid := fun _ => True
  commits := (causalSystem config decode fun _ _ => True).commits .harness
  rely := Grows
  guar := fun _ _ => True
  rely_refl := Grows.refl
  rely_trans := fun _ _ _ => Grows.trans

variable {config : Config} {decode : EnvelopeDecoder}

theorem quietContract_scan : QuietContract (scanContract config decode) :=
  fun _ _ _ _ hquiet hcommit =>
    ⟨CausalRequest.eq_of_isQuiet hquiet hcommit.1, fun _ => trivial⟩

theorem readsHistory_scan : ReadsHistory (scanContract config decode) where
  page := by
    intro t scope limit beforeId answer u hcommit
    obtain ⟨⟨rfl, hpage⟩, -⟩ := hcommit
    exact ⟨rfl, fun _ => trivial, hpage⟩
  rows := by
    rintro w _ ⟨rows, hgrow, rfl⟩
    exact hgrow

/-- What holds of a task of the scan where it succeeds. -/
abbrev Scans (config : Config) (decode : EnvelopeDecoder) {α : Type}
    (good : α → HarnessMemory → CausalWorld → Prop) (t : HarnessTask α) (memory : HarnessMemory)
    (w : CausalWorld) : Prop :=
  Task.Safe (scanContract config decode) good (fun _ _ _ => True) t memory w

section Rules

variable {α β : Type} {memory : HarnessMemory} {w : CausalWorld}

theorem scans_pure {good : α → HarnessMemory → CausalWorld → Prop} {value : α}
    (h : ∀ u, Grows w u → good value memory u) :
    Scans config decode good (pure value : HarnessTask α) memory w :=
  Task.safe_ret fun u _ hrely => h u hrely

theorem scans_fail {good : α → HarnessMemory → CausalWorld → Prop} {error : HarnessError} :
    Scans config decode good (Task.fail error : HarnessTask α) memory w :=
  Task.safe_fail fun _ _ _ => trivial

theorem scans_bind {mid : α → HarnessMemory → CausalWorld → Prop}
    {good : β → HarnessMemory → CausalWorld → Prop} {t : HarnessTask α} {f : α → HarnessTask β}
    (h : Scans config decode mid t memory w)
    (hf : ∀ value m u, mid value m u → Scans config decode good (f value) m u) :
    Scans config decode good (t >>= f) memory w :=
  Task.safe_bind trivial h fun value m u _ hmid => hf value m u hmid

theorem scans_mono {good goal : α → HarnessMemory → CausalWorld → Prop} {t : HarnessTask α}
    (h : Scans config decode good t memory w)
    (himp : ∀ value m u, good value m u → goal value m u) :
    Scans config decode goal t memory w :=
  h.mono (fun value m u _ hgood => himp value m u hgood) (fun _ _ _ _ _ => trivial)

theorem scans_ask (request : CausalRequest)
    {good : request.Reply → HarnessMemory → CausalWorld → Prop}
    (h : ∀ t answer u, Grows w t → request.commits t answer u →
      ∀ v, Grows u v → good answer memory v) :
    Scans config decode good (ask request) memory w := by
  apply Task.safe_perform
  intro t _ hwt answer u hcommit
  exact ⟨trivial, trivial, fun v _ huv => h t answer u hwt hcommit.1 v huv⟩

theorem scans_orFail {request : CausalRequest} {error : HarnessError}
    {ok : request.Reply → Bool} {good : Unit → HarnessMemory → CausalWorld → Prop}
    (h : ∀ t answer u, Grows w t → request.commits t answer u → ok answer = true →
      ∀ v, Grows u v → good () memory v) :
    Scans config decode good (orFail request error ok) memory w := by
  have hask : Scans config decode (fun answer m v => m = memory ∧ ∀ v', Grows v v' →
      ok answer = true → good () memory v') (ask request) memory w := by
    apply scans_ask request
    intro t answer u hwt hcommit v huv
    exact ⟨rfl, fun v' hvv' hok => h t answer u hwt hcommit hok v' (huv.trans hvv')⟩
  refine scans_bind hask fun answer m v hmid => ?_
  obtain ⟨rfl, hgood⟩ := hmid
  cases hok : ok answer with
  | true => exact scans_pure fun v' hvv' => hgood v' hvv' hok
  | false => exact scans_fail

/-- A write that reports success; `updated` is its effect. -/
theorem scans_write {request : CausalRequest} {ok : request.Reply → Bool} {error : HarnessError}
    {good : Unit → HarnessMemory → CausalWorld → Prop} (updated : CausalWorld → CausalWorld)
    (hwrites : ∀ t answer u, request.commits t answer u → Writes t (updated t) (ok answer) u)
    (h : ∀ t, Grows w t → ∀ v, Grows (updated t) v → good () memory v) :
    Scans config decode good (orFail request error ok) memory w := by
  refine scans_orFail fun t answer u hwt hcommit hok v huv => ?_
  rcases hwrites t answer u hcommit with rfl | ⟨hfailed, rfl⟩
  · exact h t hwt v huv
  · rw [hok] at hfailed
    cases hfailed

theorem scans_harmless {t : HarnessTask α} (ht : Harmless (scanContract config decode) t) :
    Scans config decode (fun _ m v => m = memory ∧ Grows w v) t memory w :=
  (ht memory w trivial).mono (fun _ _ _ _ h => h) (fun _ _ _ _ _ => trivial)

theorem scans_getMemory :
    Scans config decode (fun current m v => current = memory ∧ m = memory ∧ Grows w v)
      (Task.getMemory : HarnessTask HarnessMemory) memory w :=
  Task.safe_getMemory fun _ _ hrely => ⟨rfl, rfl, hrely⟩

theorem scans_setLastSeenId (lastSeenId : ℤ) :
    Scans config decode
      (fun _ m v => m = { memory with lastSeenId := lastSeenId } ∧ Grows w v)
      (setLastSeenId lastSeenId) memory w := by
  refine scans_bind scans_getMemory fun current m u hmid => ?_
  obtain ⟨rfl, rfl, hwu⟩ := hmid
  exact Task.safe_setMemory fun _ _ hrely => ⟨rfl, hwu.trans hrely⟩

theorem scans_setContext (context : ConversationContext) :
    Scans config decode
      (fun _ m v => m = { memory with context := context } ∧ Grows w v)
      (setContext context) memory w := by
  refine scans_bind scans_getMemory fun current m u hmid => ?_
  obtain ⟨rfl, rfl, hwu⟩ := hmid
  exact Task.safe_setMemory fun _ _ hrely => ⟨rfl, hwu.trans hrely⟩

theorem scans_true (t : HarnessTask α) : Scans config decode (fun _ _ _ => True) t memory w :=
  Task.safe_true (fun _ => trivial) (fun _ _ => trivial) t

end Rules

/-- The message was given to the ACP operation, or is completed, or its handoff may
have had side effects already. -/
def Covered (w : CausalWorld) (msgId : String) : Prop :=
  (∃ entry ∈ w.entries, entry.msgId = msgId) ∨ w.completed msgId ≠ none ∨
    ∃ message, w.pending msgId = some message ∧ message.isBlocked = true

/-- Between `w` and `v` exactly the rows of `examined` were examined, and those that
the gate let through are covered. -/
structure Examination (w : CausalWorld) (examined : List HistoryRow) (v : CausalWorld) : Prop where
  rows : ∀ row ∈ w.rows, row ∈ v.rows
  covered : ∀ msgId, Covered w msgId → Covered v msgId
  kept : ∀ verdict ∈ w.verdicts, verdict ∈ v.verdicts
  sound : ∀ verdict ∈ v.verdicts, verdict ∈ w.verdicts ∨ verdict.1 ∈ examined
  complete : ∀ row ∈ examined, ∃ held, (row, held) ∈ v.verdicts ∧
    (held = true → Covered v (toAsciiLowercase row.msgId))

section Examination

variable {w u v : CausalWorld} {examined later : List HistoryRow}

theorem Examination.trans (h : Examination w examined u) (h' : Examination u later v) :
    Examination w (examined ++ later) v where
  rows := fun row hrow => h'.rows row (h.rows row hrow)
  covered := fun msgId hcovered => h'.covered msgId (h.covered msgId hcovered)
  kept := fun verdict hverdict => h'.kept verdict (h.kept verdict hverdict)
  sound := by
    intro verdict hverdict
    rcases h'.sound verdict hverdict with hold | hnew
    · rcases h.sound verdict hold with hold' | hnew
      · exact Or.inl hold'
      · exact Or.inr (List.mem_append_left _ hnew)
    · exact Or.inr (List.mem_append_right _ hnew)
  complete := by
    intro row hrow
    rcases List.mem_append.mp hrow with hold | hnew
    · obtain ⟨held, hverdict, hcovered⟩ := h.complete row hold
      exact ⟨held, h'.kept _ hverdict, fun hheld => h'.covered _ (hcovered hheld)⟩
    · exact h'.complete row hnew

/-- A task that examines nothing. -/
theorem examination_nil (hrows : ∀ row ∈ w.rows, row ∈ v.rows)
    (hverdicts : v.verdicts = w.verdicts) (hcovered : ∀ msgId, Covered w msgId → Covered v msgId) :
    Examination w [] v where
  rows := hrows
  covered := hcovered
  kept := fun verdict hverdict => hverdicts ▸ hverdict
  sound := fun verdict hverdict => Or.inl (hverdicts ▸ hverdict)
  complete := by simp

theorem Examination.extend (h : Examination w examined u) (h' : Examination u [] v) :
    Examination w examined v := by
  simpa using h.trans h'

theorem Grows.examination (h : Grows w v) : Examination w [] v := by
  obtain ⟨rows, hgrow, rfl⟩ := h
  exact examination_nil hgrow rfl fun _ hcovered => hcovered

/-- The verdict on one row is recorded and nothing else is done yet. -/
structure Judged (w : CausalWorld) (row : HistoryRow) (held : Bool) (v : CausalWorld) : Prop where
  rows : ∀ other ∈ w.rows, other ∈ v.rows
  covered : ∀ msgId, Covered w msgId → Covered v msgId
  verdicts : v.verdicts = w.verdicts ++ [(row, held)]

theorem Judged.examination {row : HistoryRow} {held : Bool} (h : Judged w row held u)
    (h' : Examination u [] v) (hcovered : held = true → Covered v (toAsciiLowercase row.msgId)) :
    Examination w [row] v where
  rows := fun other hother => h'.rows other (h.rows other hother)
  covered := fun msgId hmsgId => h'.covered msgId (h.covered msgId hmsgId)
  kept := by
    intro verdict hverdict
    apply h'.kept
    rw [h.verdicts]
    exact List.mem_append_left _ hverdict
  sound := by
    intro verdict hverdict
    rcases h'.sound verdict hverdict with hold | hnew
    · rw [h.verdicts, List.mem_append, List.mem_singleton] at hold
      rcases hold with hold | rfl
      · exact Or.inl hold
      · exact Or.inr (List.mem_singleton_self row)
    · cases hnew
  complete := by
    intro other hother
    obtain rfl := List.mem_singleton.mp hother
    refine ⟨held, h'.kept _ ?_, hcovered⟩
    rw [h.verdicts]
    exact List.mem_append_right _ (List.mem_singleton_self _)

end Examination

section Loader

variable (harness : HarnessContext) {memory : HarnessMemory} {w u v : CausalWorld}

/-- A handoff that the loader returns. -/
def Loadable (w : CausalWorld) (entry : PendingCausalEntry) : Prop :=
  ∃ message, w.pending entry.stem = some message ∧ identityValid harness entry.stem message = true ∧
    message.startNonce = harness.causalNonce ∧ stateValid message = true ∧
    w.completed (toAsciiLowercase message.msgId) = none ∧ entry = upgradedEntry entry.stem message

/-- Handoffs of completed messages may be gone. -/
structure Cleaned (w v : CausalWorld) : Prop where
  rows : ∀ row ∈ w.rows, row ∈ v.rows
  entries : v.entries = w.entries
  verdicts : v.verdicts = w.verdicts
  completed : v.completed = w.completed
  pending : ∀ stem, v.pending stem = w.pending stem ∨
    (w.completed stem ≠ none ∧ v.pending stem = none)

theorem Grows.cleaned (h : Grows w v) : Cleaned w v := by
  obtain ⟨rows, hgrow, rfl⟩ := h
  exact ⟨hgrow, rfl, rfl, rfl, fun _ => Or.inl rfl⟩

theorem Cleaned.trans (h : Cleaned w u) (h' : Cleaned u v) : Cleaned w v where
  rows := fun row hrow => h'.rows row (h.rows row hrow)
  entries := h'.entries.trans h.entries
  verdicts := h'.verdicts.trans h.verdicts
  completed := h'.completed.trans h.completed
  pending := by
    intro stem
    rcases h'.pending stem with hsame | ⟨hdone, hnone⟩
    · rw [hsame]
      exact h.pending stem
    · rw [h.completed] at hdone
      exact Or.inr ⟨hdone, hnone⟩

theorem Cleaned.examination (h : Cleaned w v) : Examination w [] v := by
  apply examination_nil h.rows h.verdicts
  rintro msgId (⟨entry, hentry, hid⟩ | hdone | ⟨message, hmessage, hblocked⟩)
  · exact Or.inl ⟨entry, h.entries ▸ hentry, hid⟩
  · exact Or.inr (Or.inl (h.completed ▸ hdone))
  · rcases h.pending msgId with hsame | ⟨hdone, -⟩
    · exact Or.inr (Or.inr ⟨message, hsame.trans hmessage, hblocked⟩)
    · exact Or.inr (Or.inl (h.completed ▸ hdone))

theorem stem_of_identityValid {stem : String} {message : PendingCausalMessage}
    (h : identityValid harness stem message = true) : stem = toAsciiLowercase message.msgId := by
  simp only [identityValid, Bool.and_eq_true, beq_iff_eq] at h
  exact h.2

variable {harness} in
theorem Loadable.msgId {entry : PendingCausalEntry} (h : Loadable harness w entry) :
    entry.message.msgId = entry.stem := by
  obtain ⟨message, -, hidentity, -, -, -, hentry⟩ := h
  rw [hentry]
  exact (stem_of_identityValid harness hidentity).symm

theorem Cleaned.loadable_iff (h : Cleaned w v) (entry : PendingCausalEntry) :
    Loadable harness v entry ↔ Loadable harness w entry := by
  constructor
  · rintro ⟨message, hmessage, hidentity, hnonce, hstate, hopen, hentry⟩
    rcases h.pending entry.stem with hsame | ⟨-, hnone⟩
    · exact ⟨message, hsame.symm.trans hmessage, hidentity, hnonce, hstate, h.completed ▸ hopen,
        hentry⟩
    · rw [hnone] at hmessage
      cases hmessage
  · rintro ⟨message, hmessage, hidentity, hnonce, hstate, hopen, hentry⟩
    rcases h.pending entry.stem with hsame | ⟨hdone, -⟩
    · exact ⟨message, hsame.trans hmessage, hidentity, hnonce, hstate, h.completed.symm ▸ hopen,
        hentry⟩
    · rw [stem_of_identityValid harness hidentity] at hdone
      exact absurd hopen hdone

theorem scans_completedCausalExists (msgId : String) :
    Scans config decode
      (fun done m v => m = memory ∧ Grows w v ∧ (done = true ↔ w.completed msgId ≠ none))
      (completedCausalExists harness msgId) memory w := by
  have hask : Scans config decode
      (fun answer m v => m = memory ∧ Grows w v ∧ Reads (w.completed msgId) answer)
      (ask (.readCompleted msgId false)) memory w := by
    apply scans_ask (.readCompleted msgId false)
    rintro t answer u ⟨rows, hgrow, rfl⟩ ⟨rfl, hreads⟩ v huv
    exact ⟨rfl, Grows.trans ⟨rows, hgrow, rfl⟩ huv, hreads⟩
  refine scans_bind hask fun answer m u hmid => ?_
  obtain ⟨rfl, hwu, hreads⟩ := hmid
  cases answer with
  | missing =>
      have hnone : w.completed msgId = none := hreads
      exact scans_pure fun v huv => ⟨rfl, hwu.trans huv, by simp [hnone]⟩
  | failed => exact scans_fail
  | found completed =>
      have hsome : w.completed msgId = some completed := hreads
      simp only
      split_ifs
      · exact scans_fail
      · exact scans_pure fun v huv => ⟨rfl, hwu.trans huv, by simp [hsome]⟩

variable {harness} in
/-- A file holds one message, so a handoff of the file is one of this message. -/
theorem Loadable.of_stem {stem : String} {message : PendingCausalMessage}
    {entry : PendingCausalEntry} (h : Loadable harness w entry) (hstem : entry.stem = stem)
    (hmessage : w.pending stem = some message) :
    identityValid harness stem message = true ∧ message.startNonce = harness.causalNonce ∧
      stateValid message = true ∧ w.completed (toAsciiLowercase message.msgId) = none ∧
      entry = upgradedEntry stem message := by
  obtain ⟨other, hother, hidentity, hnonce, hstate, hopen, hentry⟩ := h
  rw [hstem] at hother hidentity hentry
  obtain rfl : other = message := Option.some_inj.mp (hother.symm.trans hmessage)
  exact ⟨hidentity, hnonce, hstate, hopen, hentry⟩

theorem scans_handoffCompleted (stem : String) (message : PendingCausalMessage) :
    Scans config decode
      (fun done m v => m = memory ∧ Grows w v ∧ (done = true ↔
        identityValid harness stem message = true ∧
          w.completed (toAsciiLowercase message.msgId) ≠ none))
      (handoffCompleted harness stem message) memory w := by
  unfold handoffCompleted
  split_ifs with hidentity
  · refine scans_mono (scans_completedCausalExists harness _) ?_
    rintro done m v ⟨rfl, hwv, hdone⟩
    exact ⟨rfl, hwv, by simpa [hidentity] using hdone⟩
  · exact scans_pure fun v hwv => ⟨rfl, hwv, by simp [hidentity]⟩

/-- One file gives the handoff it holds, if the loader returns it at all. -/
theorem scans_loadPendingFile (stem : String) :
    Scans config decode
      (fun loaded m v => m = memory ∧ Cleaned w v ∧
        ∀ entry, loaded = some entry ↔ Loadable harness w entry ∧ entry.stem = stem)
      (loadPendingFile harness stem) memory w := by
  have hask : Scans config decode
      (fun answer m v => m = memory ∧ Grows w v ∧ Reads (w.pending stem) answer)
      (ask (.readPending stem)) memory w := by
    apply scans_ask (.readPending stem)
    rintro t answer u ⟨rows, hgrow, rfl⟩ ⟨rfl, hreads⟩ v huv
    exact ⟨rfl, Grows.trans ⟨rows, hgrow, rfl⟩ huv, hreads⟩
  refine scans_bind hask fun answer m u hmid => ?_
  obtain ⟨rfl, hwu, hreads⟩ := hmid
  cases answer with
  | missing | failed => exact scans_fail
  | found message =>
      have hmessage : w.pending stem = some message := hreads
      have hnone (hbad : ∀ entry, Loadable harness w entry → entry.stem = stem → False)
          (entry : PendingCausalEntry) :
          (none : Option PendingCausalEntry) = some entry ↔
            Loadable harness w entry ∧ entry.stem = stem := by
        simp only [reduceCtorEq, false_iff]
        exact fun h => hbad entry h.1 h.2
      refine scans_bind (scans_handoffCompleted harness stem message) fun completed m' v hmid => ?_
      obtain ⟨rfl, huv, hcompleted⟩ := hmid
      rw [hwu.cleaned.completed] at hcompleted
      have hwv := hwu.trans huv
      cases completed with
      | true =>
          obtain ⟨hidentity, hclosed⟩ := hcompleted.mp rfl
          have hremove : Scans config decode (fun _ m v => m = m' ∧ Cleaned w v)
              (orFail (.removePending stem) .stateIo id) m' v := by
            refine scans_write (fun t => t.setPending stem none) (fun _ _ _ hcommit => hcommit)
              fun t hvt x htx => ⟨rfl, ?_⟩
            have hclosed' : t.completed stem ≠ none := by
              rw [(hwv.trans hvt).cleaned.completed, stem_of_identityValid harness hidentity]
              exact hclosed
            have hremoved : Cleaned t (t.setPending stem none) :=
              ⟨fun _ hrow => hrow, rfl, rfl, rfl, fun other => by
                by_cases hother : other = stem
                · subst hother
                  exact Or.inr ⟨hclosed', Function.update_self ..⟩
                · exact Or.inl (Function.update_of_ne hother ..)⟩
            exact ((hwv.trans hvt).cleaned.trans hremoved).trans htx.cleaned
          refine scans_bind hremove fun _ m x hmid => ?_
          obtain ⟨rfl, hwx⟩ := hmid
          refine scans_pure fun y hxy => ⟨rfl, hwx.trans hxy.cleaned, hnone ?_⟩
          intro entry hentry hstem
          exact hclosed (hentry.of_stem hstem hmessage).2.2.2.1
      | false =>
          simp only [Bool.false_eq_true, if_false]
          split_ifs with hload hforeign
          · simp only [Bool.and_eq_true, beq_iff_eq] at hload
            obtain ⟨⟨hidentity, hnonce⟩, hstate⟩ := hload
            have hopen : w.completed (toAsciiLowercase message.msgId) = none := by
              by_contra hne
              exact Bool.false_ne_true (hcompleted.mpr ⟨hidentity, hne⟩)
            refine scans_pure fun x hvx => ⟨rfl, (hwv.trans hvx).cleaned, fun entry => ?_⟩
            constructor
            · rintro ⟨⟩
              exact ⟨⟨message, hmessage, hidentity, hnonce, hstate, hopen, rfl⟩, rfl⟩
            · rintro ⟨hentry, hstem⟩
              rw [(hentry.of_stem hstem hmessage).2.2.2.2]
          · refine scans_pure fun x hvx => ⟨rfl, (hwv.trans hvx).cleaned, hnone ?_⟩
            intro entry hentry hstem
            exact hforeign (hentry.of_stem hstem hmessage).2.1
          · exact scans_fail

theorem scans_loadPendingFiles (stems : List String) :
    Scans config decode
      (fun entries m v => m = memory ∧ Cleaned w v ∧
        ∀ entry, entry ∈ entries ↔ Loadable harness w entry ∧ entry.stem ∈ stems)
      (loadPendingFiles harness stems) memory w := by
  induction stems generalizing w with
  | nil => exact scans_pure fun v hwv => ⟨rfl, hwv.cleaned, by simp⟩
  | cons stem stems ih =>
      refine scans_bind (scans_loadPendingFile harness stem) fun loaded m u hmid => ?_
      obtain ⟨rfl, hwu, hloaded⟩ := hmid
      refine scans_bind ih fun entries m' v hmid => ?_
      obtain ⟨rfl, huv, hentries⟩ := hmid
      refine scans_pure fun x hvx => ⟨rfl, (hwu.trans huv).trans hvx.cleaned, fun entry => ?_⟩
      rw [List.mem_append, Option.mem_toList, hloaded, hentries, hwu.loadable_iff harness,
        List.mem_cons]
      tauto

theorem scans_loadPendingCausal :
    Scans config decode
      (fun entries m v => m = memory ∧ Cleaned w v ∧
        ∀ entry, entry ∈ entries ↔ Loadable harness w entry)
      (loadPendingCausal harness) memory w := by
  have hask : Scans config decode
      (fun answer m v => m = memory ∧ Grows w v ∧ ∀ stems, answer = some stems →
        ∀ stem, stem ∈ stems ↔ w.pending stem ≠ none) (ask .listPending) memory w := by
    apply scans_ask .listPending
    rintro t answer u ⟨rows, hgrow, rfl⟩ ⟨rfl, hlist⟩ v huv
    exact ⟨rfl, Grows.trans ⟨rows, hgrow, rfl⟩ huv, fun stems hstems => (hlist stems hstems).2⟩
  refine scans_bind hask fun answer m u hmid => ?_
  obtain ⟨rfl, hwu, hlist⟩ := hmid
  cases answer with
  | none => exact scans_fail
  | some stems =>
      refine scans_bind (scans_loadPendingFiles harness stems) fun entries m' v hmid => ?_
      obtain ⟨rfl, huv, hentries⟩ := hmid
      refine scans_pure fun x hvx =>
        ⟨rfl, (hwu.cleaned.trans huv).trans hvx.cleaned, fun entry => ?_⟩
      rw [List.mem_insertionSort, hentries, hwu.cleaned.loadable_iff harness, hlist stems rfl]
      refine ⟨fun h => h.1, fun h => ⟨h, ?_⟩⟩
      obtain ⟨message, hmessage, -⟩ := h
      rw [hmessage]
      exact Option.some_ne_none _

end Loader

/-- Only the artefacts of one message have changed, and no entry was lost. -/
structure Touched (stem : String) (w v : CausalWorld) : Prop where
  rows : ∀ row ∈ w.rows, row ∈ v.rows
  verdicts : v.verdicts = w.verdicts
  entries : ∀ entry ∈ w.entries, ∃ other ∈ v.entries, other.msgId = entry.msgId
  completed : ∀ other, other ≠ stem → v.completed other = w.completed other
  pending : ∀ other, other ≠ stem → v.pending other = w.pending other

section Claim

variable {stem : String} {w u v : CausalWorld}

theorem Grows.touched (h : Grows w v) : Touched stem w v := by
  obtain ⟨rows, hgrow, rfl⟩ := h
  exact ⟨hgrow, rfl, fun entry hentry => ⟨entry, hentry, rfl⟩, fun _ _ => rfl, fun _ _ => rfl⟩

theorem Touched.trans (h : Touched stem w u) (h' : Touched stem u v) : Touched stem w v where
  rows := fun row hrow => h'.rows row (h.rows row hrow)
  verdicts := h'.verdicts.trans h.verdicts
  entries := by
    intro entry hentry
    obtain ⟨other, hother, hid⟩ := h.entries entry hentry
    obtain ⟨third, hthird, hid'⟩ := h'.entries other hother
    exact ⟨third, hthird, hid'.trans hid⟩
  completed := fun other hother => (h'.completed other hother).trans (h.completed other hother)
  pending := fun other hother => (h'.pending other hother).trans (h.pending other hother)

/-- Once its own message is covered nothing is lost. -/
theorem Touched.examination (h : Touched stem w v) (hcovered : Covered v stem) :
    Examination w [] v := by
  apply examination_nil h.rows h.verdicts
  intro msgId hmsgId
  by_cases hother : msgId = stem
  · rw [hother]
    exact hcovered
  · rcases hmsgId with ⟨entry, hentry, hid⟩ | hdone | ⟨message, hmessage, hblocked⟩
    · obtain ⟨other, hother', hid'⟩ := h.entries entry hentry
      exact Or.inl ⟨other, hother', hid'.trans hid⟩
    · exact Or.inr (Or.inl (by rw [h.completed msgId hother]; exact hdone))
    · exact Or.inr (Or.inr ⟨message, (h.pending msgId hother).trans hmessage, hblocked⟩)

theorem touched_setPending (w : CausalWorld) (message : Option PendingCausalMessage) :
    Touched stem w (w.setPending stem message) :=
  ⟨fun _ hrow => hrow, rfl, fun entry hentry => ⟨entry, hentry, rfl⟩, fun _ _ => rfl,
    fun _ hother => Function.update_of_ne hother ..⟩

theorem touched_setCompleted (w : CausalWorld) (message : CompletedCausalMessage) :
    Touched stem w (w.setCompleted stem message) :=
  ⟨fun _ hrow => hrow, rfl, fun entry hentry => ⟨entry, hentry, rfl⟩,
    fun _ hother => Function.update_of_ne hother .., fun _ _ => rfl⟩

theorem touched_setWatermark (w : CausalWorld) (lastSeenId : ℤ) :
    Touched stem w (w.setWatermark lastSeenId) :=
  ⟨fun _ hrow => hrow, rfl, fun entry hentry => ⟨entry, hentry, rfl⟩, fun _ _ => rfl,
    fun _ _ => rfl⟩

theorem touched_enterTurn (w : CausalWorld) (msgId : String) :
    Touched stem w (w.enterTurn msgId) :=
  ⟨fun _ hrow => hrow, rfl, fun entry hentry => ⟨entry, List.mem_append_left _ hentry, rfl⟩,
    fun _ _ => rfl, fun _ _ => rfl⟩

theorem touched_leaveTurn (w : CausalWorld) (msgId : String) (outcome : EntryOutcome) :
    Touched stem w (w.leaveTurn msgId outcome) := by
  refine ⟨fun _ hrow => hrow, rfl, fun entry hentry => ?_, fun _ _ => rfl, fun _ _ => rfl⟩
  refine ⟨_, List.mem_map_of_mem hentry, ?_⟩
  split_ifs with h
  · exact h.1.symm
  · rfl

variable (harness : HarnessContext) {memory : HarnessMemory} {entry : PendingCausalEntry}

theorem scans_persistPendingCausal :
    Scans config decode (fun _ m v => m = memory ∧ Touched entry.stem w v)
      (persistPendingCausal entry) memory w :=
  scans_write (fun t => t.setPending entry.stem (some entry.message)) (fun _ _ _ hcommit => hcommit)
    fun t hwt _ htv =>
      ⟨rfl, (hwt.touched.trans (touched_setPending t _)).trans htv.touched⟩

/-- The watermark is moved and nothing else. -/
def WatermarkMoved (w v : CausalWorld) : Prop :=
  ∃ t lastSeenId, Grows w t ∧ Grows (t.setWatermark lastSeenId) v

theorem WatermarkMoved.touched (h : WatermarkMoved w v) : Touched stem w v := by
  obtain ⟨t, lastSeenId, hwt, htv⟩ := h
  exact (hwt.touched.trans (touched_setWatermark t lastSeenId)).trans htv.touched

theorem WatermarkMoved.examination (h : WatermarkMoved w v) : Examination w [] v := by
  obtain ⟨t, lastSeenId, hwt, htv⟩ := h
  have hset : Examination t [] (t.setWatermark lastSeenId) :=
    examination_nil (fun _ hrow => hrow) rfl fun _ hcovered => hcovered
  exact (hwt.examination.extend hset).extend htv.examination

theorem scans_claimRow (rowId : ℤ) :
    Scans config decode
      (fun _ m v => m.lastSeenId = max memory.lastSeenId rowId ∧ WatermarkMoved w v)
      (claimRow rowId) memory w := by
  refine scans_bind scans_getMemory fun current m u hmid => ?_
  obtain ⟨rfl, rfl, hwu⟩ := hmid
  refine scans_bind (scans_setLastSeenId _) fun _ m' v hmid => ?_
  obtain ⟨rfl, huv⟩ := hmid
  refine scans_bind scans_getMemory fun current m' x hmid => ?_
  obtain ⟨rfl, rfl, hvx⟩ := hmid
  refine scans_write (fun t => t.setWatermark (max m.lastSeenId rowId))
    (fun _ _ _ hcommit => hcommit) fun t hxt y hty => ⟨rfl, ?_⟩
  exact ⟨t, _, ((hwu.trans huv).trans hvx).trans hxt, hty⟩

theorem scans_recordedOperation {operation : HarnessTask Unit}
    (hop : Harmless (scanContract config decode) operation) (stem : String) :
    Scans config decode
      (fun _ m v => m = memory ∧ Touched stem w v ∧ ∃ other ∈ v.entries, other.msgId = stem)
      (recordedOperation stem operation) memory w := by
  have henter : Scans config decode (fun _ m v => m = memory ∧ Touched stem w v ∧
      ∃ other ∈ v.entries, other.msgId = stem) (ask (.enterTurn stem)) memory w := by
    apply scans_ask (.enterTurn stem)
    rintro t answer _ hwt rfl v hv
    refine ⟨rfl, (hwt.touched.trans (touched_enterTurn t stem)).trans hv.touched, ?_⟩
    obtain ⟨rows, -, rfl⟩ := hv
    exact ⟨⟨stem, .unfinished⟩, List.mem_append_right _ (List.mem_singleton_self _), rfl⟩
  refine scans_bind henter fun _ m u hmid => ?_
  obtain ⟨rfl, hwu, hentered⟩ := hmid
  have hresult : Scans config decode (fun _ m' v => m' = m ∧ Grows u v) (Task.result operation) m
      u := by
    apply Task.safe_result trivial
    exact (hop m u trivial).mono (fun _ _ _ _ h => h) (fun _ _ _ _ h => ⟨h.1, h.2.1⟩)
  refine scans_bind hresult fun result m' v hmid => ?_
  obtain ⟨rfl, huv⟩ := hmid
  have hleave : Scans config decode (fun _ m v' => m = m' ∧ Touched stem v v')
      (ask (.leaveTurn stem (entryOutcome result))) m' v := by
    apply scans_ask (.leaveTurn stem (entryOutcome result))
    rintro t answer _ hvt rfl x hx
    exact ⟨rfl, (hvt.touched.trans (touched_leaveTurn t stem _)).trans hx.touched⟩
  refine scans_bind hleave fun _ m'' x hmid => ?_
  obtain ⟨rfl, hvx⟩ := hmid
  refine scans_pure fun y hxy => ?_
  have huy : Touched stem u y := (huv.touched.trans hvx).trans hxy.touched
  obtain ⟨other, hother, hid⟩ := hentered
  obtain ⟨last, hlast, hid'⟩ := huy.entries other hother
  exact ⟨rfl, hwu.trans huy, last, hlast, hid'.trans hid⟩

theorem scans_persistCompletedCausal (stem : String) :
    Scans config decode (fun _ m v => m = memory ∧ Touched stem w v)
      (persistCompletedCausal harness stem) memory w := by
  refine scans_bind (scans_harmless (harmless_orFail quietContract_scan rfl (by simp)))
    fun _ m u hmid => ?_
  obtain ⟨rfl, hwu⟩ := hmid
  refine scans_bind (scans_completedCausalExists harness stem) fun done m' v hmid => ?_
  obtain ⟨rfl, huv, -⟩ := hmid
  cases done with
  | true => exact scans_pure fun x hvx => ⟨rfl, ((hwu.trans huv).trans hvx).touched⟩
  | false =>
      refine scans_write (fun t => t.setCompleted stem ⟨1, harness.config.groupId, stem⟩)
        (fun _ _ _ hcommit => hcommit) fun t hvt x htx => ⟨rfl, ?_⟩
      have hwt := (hwu.trans huv).trans hvt
      exact (hwt.touched.trans (touched_setCompleted t _)).trans htx.touched

/-- A claim that succeeds has given the message to the operation. -/
theorem scans_afterDurablePendingClaim {rowId : ℤ} {operation : HarnessTask Unit}
    (hop : Harmless (scanContract config decode) operation)
    (hmsgId : entry.message.msgId = entry.stem) :
    Scans config decode
      (fun _ m v => m.lastSeenId = max memory.lastSeenId rowId ∧ Examination w [] v ∧
        Covered v entry.stem)
      (afterDurablePendingClaim harness rowId entry operation) memory w := by
  refine scans_bind scans_getMemory fun current m a hmid => ?_
  obtain ⟨rfl, rfl, hwa⟩ := hmid
  refine scans_bind scans_persistPendingCausal fun _ m1 b hmid => ?_
  obtain ⟨rfl, hab⟩ := hmid
  refine scans_bind (scans_claimRow rowId) fun _ m2 d hmid => ?_
  obtain ⟨hseen, hbd⟩ := hmid
  refine scans_bind scans_persistPendingCausal fun _ m3 e hmid => ?_
  obtain ⟨rfl, hde⟩ := hmid
  have hwe : Touched entry.stem w e := ((hwa.touched.trans hab).trans hbd.touched).trans hde
  rw [hmsgId]
  refine scans_bind (scans_recordedOperation hop entry.stem) fun result m4 f hmid => ?_
  obtain ⟨rfl, hef, other, hother, hid⟩ := hmid
  cases result with
  | error error =>
      simp only
      split_ifs
      · exact scans_bind (scans_true _) fun _ _ _ _ => scans_bind (scans_true _) fun _ _ _ _ =>
          scans_bind (scans_true _) fun _ _ _ _ => scans_fail
      · exact scans_fail
  | ok _ =>
      refine scans_bind (scans_persistCompletedCausal harness entry.stem) fun _ m5 g hmid => ?_
      obtain ⟨rfl, hfg⟩ := hmid
      refine scans_write (fun t => t.setPending entry.stem none) (fun _ _ _ hcommit => hcommit)
        fun t hgt x htx => ?_
      have hfx : Touched entry.stem f x :=
        ((hfg.trans hgt.touched).trans (touched_setPending t none)).trans htx.touched
      obtain ⟨last, hlast, hid'⟩ := hfx.entries other hother
      have hcovered : Covered x entry.stem := Or.inl ⟨last, hlast, hid'.trans hid⟩
      exact ⟨hseen, ((hwe.trans hef).trans hfx).examination hcovered, hcovered⟩

end Claim

section Staging

variable (harness : HarnessContext) {memory : HarnessMemory} {w : CausalWorld}

theorem examination_createPending {stem : String} {w : CausalWorld}
    {message : PendingCausalMessage} (hnone : w.pending stem = none) :
    Examination w [] (w.setPending stem (some message)) := by
  refine examination_nil (fun _ hrow => hrow) rfl ?_
  rintro msgId (hentry | hdone | ⟨record, hrecord, hblocked⟩)
  · exact Or.inl hentry
  · exact Or.inr (Or.inl hdone)
  · have hother : msgId ≠ stem := by
      rintro rfl
      rw [hnone] at hrecord
      cases hrecord
    exact Or.inr (Or.inr ⟨record, (Function.update_of_ne hother ..).trans hrecord, hblocked⟩)

variable {harness} in
/-- A loaded handoff that is not to be picked up is blocked on disk too. -/
theorem Loadable.covered {entry : PendingCausalEntry} (h : Loadable harness w entry)
    (hstate : ¬(entry.message.state = .pending ∨
      (entry.message.version = 2 ∧ entry.message.state = .claimed))) : Covered w entry.stem := by
  obtain ⟨message, hmessage, hidentity, -, -, -, hentry⟩ := h
  refine Or.inr (Or.inr ⟨message, hmessage, ?_⟩)
  have hversion : message.version = 1 ∨ message.version = 2 := by
    simp only [identityValid, Bool.and_eq_true, Bool.or_eq_true, beq_iff_eq] at hidentity
    exact hidentity.1.1.1
  have hsame : entry.message.state = message.state := by
    rw [hentry]
    rfl
  rw [hsame] at hstate
  cases hkind : message.state with
  | pending => exact absurd (Or.inl hkind) hstate
  | executing => simp [PendingCausalMessage.isBlocked, hkind]
  | claimed =>
      rcases hversion with hone | htwo
      · simp [PendingCausalMessage.isBlocked, hkind, hone]
      · refine absurd (Or.inr ⟨?_, hkind⟩) hstate
        rw [hentry]
        simp [upgradedEntry, htwo]

/-- Staging gives a handoff for the row, or the message is covered. -/
theorem scans_stageCausalMessage (msgId : String) :
    Scans config decode
      (fun staged m v => m = memory ∧ Examination w [] v ∧
        (staged = none → Covered v (toAsciiLowercase msgId)) ∧
        ∀ entry, staged = some entry →
          entry.stem = toAsciiLowercase msgId ∧ entry.message.msgId = entry.stem)
      (stageCausalMessage harness msgId) memory w := by
  unfold stageCausalMessage
  extract_lets canonicalMsgId
  split_ifs
  · exact scans_fail
  · refine scans_bind (scans_completedCausalExists harness _) fun done m u hmid => ?_
    obtain ⟨rfl, hwu, hdone⟩ := hmid
    cases done with
    | true =>
        refine scans_pure fun v huv => ⟨rfl, (hwu.trans huv).examination, fun _ => ?_, by simp⟩
        exact (hwu.trans huv).examination.covered _ (Or.inr (Or.inl (hdone.mp rfl)))
    | false =>
        refine scans_bind (scans_harmless (harmless_orFail quietContract_scan rfl (by simp)))
          fun _ m' v hmid => ?_
        obtain ⟨rfl, huv⟩ := hmid
        have hcreate : Scans config decode (fun _ m v => m = m' ∧ Examination w [] v)
            (orFail (.createPending (toAsciiLowercase msgId) ⟨2, toAsciiLowercase
              harness.causalNonce, harness.config.groupId, toAsciiLowercase msgId, .pending⟩)
              .stateIo (fun answer => answer != .failed)) m' v := by
          refine scans_orFail fun t answer x hvt hcommit hok y hxy => ⟨rfl, ?_⟩
          have hwt := ((hwu.trans huv).trans hvt).examination
          cases answer with
          | alreadyExists =>
              obtain ⟨rfl, -⟩ := hcommit
              exact hwt.extend hxy.examination
          | created =>
              obtain ⟨hnone, rfl⟩ := hcommit
              exact (hwt.extend (examination_createPending hnone)).extend hxy.examination
          | failed => cases hok
        refine scans_bind hcreate fun _ m'' x hmid => ?_
        obtain ⟨rfl, hwx⟩ := hmid
        refine scans_bind (scans_loadPendingCausal harness) fun entries m3 y hmid => ?_
        obtain ⟨rfl, hxy, hentries⟩ := hmid
        have hwy := hwx.extend hxy.examination
        cases hfind : entries.find? (fun entry =>
          entry.message.msgId == toAsciiLowercase msgId) with
        | some entry =>
            have hloadable := (hentries entry).mp (List.mem_of_find?_eq_some hfind)
            have hstem : entry.stem = toAsciiLowercase msgId := by
              rw [← hloadable.msgId]
              simpa using List.find?_some hfind
            simp only
            split_ifs with hstate
            · refine scans_pure fun z hyz => ⟨rfl, hwy.extend hyz.examination, by simp, ?_⟩
              rintro other ⟨⟩
              exact ⟨hstem, hloadable.msgId⟩
            · refine scans_pure fun z hyz => ⟨rfl, hwy.extend hyz.examination, fun _ => ?_, by simp⟩
              have hcovered := ((hxy.loadable_iff harness entry).mpr hloadable).covered hstate
              rw [hstem] at hcovered
              exact hyz.examination.covered _ hcovered
        | none =>
            refine scans_bind (scans_completedCausalExists harness _) fun done m4 z hmid => ?_
            obtain ⟨rfl, hyz, hdone'⟩ := hmid
            cases done with
            | false => exact scans_fail
            | true =>
                refine scans_pure fun z' hzz' =>
                  ⟨rfl, hwy.extend (hyz.trans hzz').examination, fun _ => ?_, by simp⟩
                exact (hyz.trans hzz').examination.covered _ (Or.inr (Or.inl (hdone'.mp rfl)))

end Staging

section Rows

variable (harness : HarnessContext) {memory : HarnessMemory} {w : CausalWorld}

theorem scans_ensureDelegationRootInContext (envelope : ChannelEnvelope) :
    Scans config decode (fun _ m v => m.lastSeenId = memory.lastSeenId ∧ Grows w v)
      (ensureDelegationRootInContext harness envelope) memory w := by
  unfold ensureDelegationRootInContext
  cases envelope.delegationRoot with
  | none => exact scans_pure fun v hwv => ⟨rfl, hwv⟩
  | some rootId =>
      refine scans_bind scans_getMemory fun current m u hmid => ?_
      obtain ⟨rfl, rfl, hwu⟩ := hmid
      split_ifs
      · exact scans_pure fun v huv => ⟨rfl, hwu.trans huv⟩
      · have hget : Scans config decode (fun _ m' v => m' = m ∧ Grows u v)
            (historyGet harness.stableGroupId rootId) m u :=
          (safe_historyGet readsHistory_scan m harness.stableGroupId rootId trivial).mono
            (fun _ _ _ _ h => ⟨h.1, h.2.1⟩) (fun _ _ _ _ _ => trivial)
        refine scans_bind hget fun found m' v hmid => ?_
        obtain ⟨rfl, huv⟩ := hmid
        refine scans_mono (scans_setContext _) ?_
        rintro _ m'' x ⟨rfl, hvx⟩
        exact ⟨rfl, (hwu.trans huv).trans hvx⟩

theorem judged_recordVerdict (row : HistoryRow) (held : Bool) {t v : CausalWorld}
    (hwt : Grows w t) (htv : Grows (t.recordVerdict row held) v) : Judged w row held v := by
  obtain ⟨rows, hgrow, rfl⟩ := hwt
  obtain ⟨rows', hgrow', rfl⟩ := htv
  exact ⟨fun other hother => hgrow' other (hgrow other hother), fun _ hcovered => hcovered, rfl⟩

theorem scans_recordVerdict (row : HistoryRow) (held : Bool) :
    Scans config decode (fun _ m v => m = memory ∧ Judged w row held v)
      (ask (.recordVerdict row held)) memory w := by
  apply scans_ask (.recordVerdict row held)
  rintro t answer _ hwt rfl v hv
  exact ⟨rfl, judged_recordVerdict row held hwt hv⟩

theorem Judged.grows {row : HistoryRow} {held : Bool} {u v : CausalWorld}
    (h : Judged w row held u) (huv : Grows u v) : Judged w row held v := by
  obtain ⟨rows, hgrow, rfl⟩ := huv
  exact ⟨fun other hother => hgrow other (h.rows other hother), h.covered, h.verdicts⟩

theorem Grows.judged {row : HistoryRow} {held : Bool} {u v : CausalWorld} (hwu : Grows w u)
    (h : Judged u row held v) : Judged w row held v := by
  obtain ⟨rows, hgrow, rfl⟩ := hwu
  exact ⟨fun other hother => h.rows other (hgrow other hother), h.covered, h.verdicts⟩

theorem scans_examineRow (row : HistoryRow) (envelope : ChannelEnvelope) :
    Scans config decode
      (fun held m v => m.lastSeenId = memory.lastSeenId ∧ Judged w row held v)
      (examineRow harness row envelope) memory w := by
  refine scans_bind (scans_ensureDelegationRootInContext harness envelope) fun _ m u hmid => ?_
  obtain ⟨hseen, hwu⟩ := hmid
  refine scans_bind scans_getMemory fun current m' v hmid => ?_
  obtain ⟨rfl, rfl, huv⟩ := hmid
  refine scans_bind (scans_setContext _) fun _ m'' x hmid => ?_
  obtain ⟨rfl, hvx⟩ := hmid
  refine scans_bind (scans_recordVerdict row _) fun _ m3 y hmid => ?_
  obtain ⟨rfl, hjudged⟩ := hmid
  exact scans_pure fun z hyz =>
    ⟨hseen, (((hwu.trans huv).trans hvx).judged hjudged).grows hyz⟩

theorem scans_reconcileRow (row : HistoryRow) :
    Scans config decode (fun _ _ v => Examination w [row] v) (reconcileRow harness row) memory
      w := by
  have hclaim (m : HarnessMemory) (u : CausalWorld) (hjudged : Judged w row false u) :
      Scans config decode (fun _ _ v => Examination w [row] v) (claimRow row.id) m u := by
    refine scans_mono (scans_claimRow row.id) ?_
    rintro _ m' v ⟨-, hmoved⟩
    exact hjudged.examination hmoved.examination (by simp)
  unfold reconcileRow
  cases row.envelope harness.decode with
  | none =>
      refine scans_bind (scans_recordVerdict row false) fun _ m u hmid => ?_
      obtain ⟨rfl, hjudged⟩ := hmid
      exact hclaim m u hjudged
  | some envelope =>
      refine scans_bind (scans_examineRow harness row envelope) fun held m u hmid => ?_
      obtain ⟨-, hjudged⟩ := hmid
      cases held with
      | false => exact hclaim m u hjudged
      | true =>
          refine scans_bind (scans_stageCausalMessage harness row.msgId) fun staged m' v hmid => ?_
          obtain ⟨rfl, huv, hnone, hsome⟩ := hmid
          cases staged with
          | none =>
              refine scans_mono (scans_claimRow row.id) ?_
              rintro _ m'' x ⟨-, hvx⟩
              exact hjudged.examination (huv.extend hvx.examination) fun _ =>
                hvx.examination.covered _ (hnone rfl)
          | some entry =>
              obtain ⟨hstem, hmsgId⟩ := hsome entry rfl
              refine scans_mono (scans_afterDurablePendingClaim harness
                (harmless_directedTurn quietContract_scan harness row envelope) hmsgId) ?_
              rintro _ m'' x ⟨-, hvx, hcovered⟩
              exact hjudged.examination (huv.extend hvx) fun _ => hstem ▸ hcovered

end Rows

section Handoffs

variable (harness : HarnessContext) {memory : HarnessMemory} {w : CausalWorld}

/-- The rows that the pending scan takes up: those of the handoffs that may run. -/
def HasHandoff (w : CausalWorld) (row : HistoryRow) : Prop :=
  ∃ entry, Loadable harness w entry ∧ entry.message.isBlocked = false ∧
    row.msgId = entry.message.msgId

/-- Each handoff that is not blocked has its row among those found. -/
structure Found (entries : List PendingCausalEntry) (found : List PendingRow) (v : CausalWorld) :
    Prop where
  sound : ∀ pendingRow ∈ found, pendingRow.row ∈ v.rows ∧ pendingRow.entry ∈ entries ∧
    pendingRow.entry.message.isBlocked = false ∧
      pendingRow.row.msgId = pendingRow.entry.message.msgId
  complete : ∀ entry ∈ entries, entry.message.isBlocked = false →
    ∃ pendingRow ∈ found, pendingRow.entry = entry

theorem scans_findPendingRows (entries : List PendingCausalEntry) :
    Scans config decode (fun found m v => m = memory ∧ Grows w v ∧ Found entries found v)
      (findPendingRows harness entries) memory w := by
  induction entries generalizing w with
  | nil => exact scans_pure fun v hwv => ⟨rfl, hwv, ⟨by simp, by simp⟩⟩
  | cons entry entries ih =>
      unfold findPendingRows
      split_ifs with hblocked
      · refine scans_mono ih ?_
        rintro found m v ⟨rfl, hwv, hfound⟩
        refine ⟨rfl, hwv, ⟨fun pendingRow hmem => ?_, fun other hother hopen => ?_⟩⟩
        · obtain ⟨hrow, hentry, hrest⟩ := hfound.sound pendingRow hmem
          exact ⟨hrow, List.mem_cons_of_mem _ hentry, hrest⟩
        · rcases List.mem_cons.mp hother with rfl | hother
          · rw [hblocked] at hopen
            cases hopen
          · exact hfound.complete other hother hopen
      · have hget : Scans config decode (fun found m v => m = memory ∧ Grows w v ∧
            ∀ row, found = some row → row ∈ v.rows ∧ row.msgId = entry.message.msgId)
            (historyGet harness.stableGroupId entry.message.msgId) memory w :=
          (safe_historyGet readsHistory_scan memory harness.stableGroupId _ trivial).mono
            (fun _ _ _ _ h => h) (fun _ _ _ _ _ => trivial)
        refine scans_bind hget fun answer m u hmid => ?_
        obtain ⟨rfl, hwu, hrow⟩ := hmid
        cases answer with
        | none => exact scans_fail
        | some row =>
            obtain ⟨hrow, hmsgId⟩ := hrow row rfl
            simp only
            cases row.envelope harness.decode with
            | none => exact scans_fail
            | some envelope =>
                refine scans_bind ih fun found m' v hmid => ?_
                obtain ⟨rfl, huv, hfound⟩ := hmid
                refine scans_pure fun x hvx => ⟨rfl, (hwu.trans huv).trans hvx, ?_⟩
                have hvx' := hvx.examination.rows
                have hux' := (huv.trans hvx).examination.rows
                refine ⟨fun pendingRow hmem => ?_, fun other hother hopen => ?_⟩
                · rcases List.mem_cons.mp hmem with rfl | hmem
                  · exact ⟨hux' row hrow, List.mem_cons_self, by simpa using hblocked, hmsgId⟩
                  · obtain ⟨hrow', hentry, hrest⟩ := hfound.sound pendingRow hmem
                    exact ⟨hvx' _ hrow', List.mem_cons_of_mem _ hentry, hrest⟩
                · rcases List.mem_cons.mp hother with rfl | hother
                  · exact ⟨_, List.mem_cons_self, rfl⟩
                  · obtain ⟨pendingRow, hmem, hentry⟩ := hfound.complete other hother hopen
                    exact ⟨pendingRow, List.mem_cons_of_mem _ hmem, hentry⟩

theorem scans_reconcilePendingRow (pendingRow : PendingRow)
    (hmsgId : pendingRow.entry.message.msgId = pendingRow.entry.stem)
    (hrow : pendingRow.row.msgId = pendingRow.entry.message.msgId)
    (hlower : toAsciiLowercase pendingRow.row.msgId = pendingRow.row.msgId) :
    Scans config decode
      (fun _ m v => m.lastSeenId = max memory.lastSeenId pendingRow.row.id ∧
        Examination w [pendingRow.row] v)
      (reconcilePendingRow harness pendingRow) memory w := by
  refine scans_bind (scans_examineRow harness pendingRow.row pendingRow.envelope)
    fun held m u hmid => ?_
  obtain ⟨hseen, hjudged⟩ := hmid
  cases held with
  | false => exact scans_fail
  | true =>
      refine scans_mono (scans_afterDurablePendingClaim harness
        (harmless_directedTurn quietContract_scan harness _ _) hmsgId) ?_
      rintro _ m' v ⟨hseen', huv, hcovered⟩
      refine ⟨by rw [hseen', hseen], hjudged.examination huv fun _ => ?_⟩
      rw [hlower, hrow, hmsgId]
      exact hcovered

/-- Where the pending scan has come: it examined the rows of `found` that are not left
and its watermark is the highest of them. -/
structure PendingScanned (start : ℤ) (w : CausalWorld) (found left : List PendingRow)
    (lastSeenId : ℤ) (v : CausalWorld) : Prop where
  examination : ∃ examined, Examination w examined v ∧
    (∀ row ∈ examined, ∃ pendingRow ∈ found, pendingRow.row = row) ∧
    ∀ pendingRow ∈ found, pendingRow ∈ left ∨ pendingRow.row ∈ examined
  subset : ∀ pendingRow ∈ left, pendingRow ∈ found
  le : start ≤ lastSeenId
  bound : ∀ pendingRow ∈ found, pendingRow ∈ left ∨ pendingRow.row.id ≤ lastSeenId
  attained : lastSeenId = start ∨ ∃ pendingRow ∈ found, lastSeenId = pendingRow.row.id

theorem PendingScanned.step {start lastSeenId : ℤ} {u v : CausalWorld}
    {found left : List PendingRow}
    {pendingRow : PendingRow} (h : PendingScanned start w found (pendingRow :: left) lastSeenId u)
    (hexamination : Examination u [pendingRow.row] v) :
    PendingScanned start w found left (max lastSeenId pendingRow.row.id) v := by
  obtain ⟨examined, hexamined, hsound, hcomplete⟩ := h.examination
  have hmem : pendingRow ∈ found := h.subset pendingRow List.mem_cons_self
  refine ⟨⟨examined ++ [pendingRow.row], hexamined.trans hexamination, ?_, ?_⟩, ?_, ?_, ?_, ?_⟩
  · intro row hrow
    rcases List.mem_append.mp hrow with hold | hnew
    · exact hsound row hold
    · exact ⟨pendingRow, hmem, (List.mem_singleton.mp hnew).symm⟩
  · intro other hother
    rcases hcomplete other hother with hleft | hdone
    · rcases List.mem_cons.mp hleft with rfl | hleft
      · exact Or.inr (List.mem_append_right _ (List.mem_singleton_self _))
      · exact Or.inl hleft
    · exact Or.inr (List.mem_append_left _ hdone)
  · exact fun other hother => h.subset other (List.mem_cons_of_mem _ hother)
  · exact h.le.trans (le_max_left _ _)
  · intro other hother
    rcases h.bound other hother with hleft | hle
    · rcases List.mem_cons.mp hleft with rfl | hleft
      · exact Or.inr (le_max_right _ _)
      · exact Or.inl hleft
    · exact Or.inr (hle.trans (le_max_left _ _))
  · rcases max_choice lastSeenId pendingRow.row.id with hkeep | hmove
    · rw [hkeep]
      exact h.attained
    · exact Or.inr ⟨pendingRow, hmem, hmove⟩

/-- The rows of the handoffs were examined and the watermark is the highest of them. -/
structure Taken (start : ℤ) (w : CausalWorld) (taken : List HistoryRow) (lastSeenId : ℤ)
    (v : CausalWorld) : Prop where
  examination : Examination w taken v
  sound : ∀ row ∈ taken, row ∈ v.rows ∧ HasHandoff harness w row
  complete : ∀ entry, Loadable harness w entry → entry.message.isBlocked = false →
    ∃ row ∈ taken, row.msgId = entry.message.msgId
  le : start ≤ lastSeenId
  bound : ∀ row ∈ taken, row.id ≤ lastSeenId
  attained : lastSeenId = start ∨ ∃ row ∈ taken, lastSeenId = row.id

theorem scans_reconcilePendingCausal :
    Scans config decode
      (fun _ m v => ∃ taken, Taken harness memory.lastSeenId w taken m.lastSeenId v)
      (reconcilePendingCausal harness) memory w := by
  refine scans_bind (scans_loadPendingCausal harness) fun entries m u hmid => ?_
  obtain ⟨rfl, hwu, hentries⟩ := hmid
  refine scans_bind (scans_findPendingRows harness entries) fun found m' v hmid => ?_
  obtain ⟨rfl, huv, hfound⟩ := hmid
  have hwv : Examination w [] v := hwu.examination.extend huv.examination
  have hloop : Scans config decode
      (fun _ m x => PendingScanned m'.lastSeenId v found [] m.lastSeenId x)
      (Task.forEach (reconcilePendingRow harness)
        (found.insertionSort fun left right => left.row.id ≤ right.row.id)) m' v := by
    apply Task.safe_forEach (I := fun left (m : HarnessMemory) x =>
      PendingScanned m'.lastSeenId v found left m.lastSeenId x)
    · intro pendingRow left m x _ hscanned
      obtain ⟨-, hentry, -, hrow⟩ :=
        hfound.sound pendingRow (hscanned.subset pendingRow List.mem_cons_self)
      have hloadable := (hentries _).mp hentry
      have hlower : toAsciiLowercase pendingRow.row.msgId = pendingRow.row.msgId := by
        obtain ⟨message, -, hidentity, -⟩ := hloadable
        rw [hrow, ((hentries _).mp hentry).msgId, stem_of_identityValid harness hidentity]
        exact toAsciiLowercase_idem _
      refine scans_mono (scans_reconcilePendingRow harness pendingRow hloadable.msgId hrow
        hlower) ?_
      rintro _ m'' y ⟨hseen, hexamination⟩
      rw [hseen]
      exact hscanned.step hexamination
    · rintro m x y _ hxy hscanned
      obtain ⟨examined, hexamined, hrest⟩ := hscanned.examination
      exact ⟨⟨examined, hexamined.extend hxy.examination, hrest⟩, hscanned.subset, hscanned.le,
        hscanned.bound, hscanned.attained⟩
    · trivial
    · refine ⟨⟨[], (Grows.refl v).examination, by simp, fun pendingRow hmem => ?_⟩,
        fun pendingRow hmem => ?_, le_refl _, fun pendingRow hmem => ?_, Or.inl rfl⟩
      · exact Or.inl ((List.mem_insertionSort _).mpr hmem)
      · exact (List.mem_insertionSort _).mp hmem
      · exact Or.inl ((List.mem_insertionSort _).mpr hmem)
  refine scans_mono hloop ?_
  intro _ m x hscanned
  obtain ⟨examined, hexamined, hsound, hcomplete⟩ := hscanned.examination
  have hdone : ∀ pendingRow ∈ found, pendingRow.row ∈ examined := by
    intro pendingRow hmem
    rcases hcomplete pendingRow hmem with hleft | hdone
    · cases hleft
    · exact hdone
  refine ⟨examined, hwv.trans hexamined, ?_, ?_, hscanned.le, ?_, ?_⟩
  · intro row hrow
    obtain ⟨pendingRow, hmem, rfl⟩ := hsound row hrow
    obtain ⟨hmem', hentry, hopen, hmsgId⟩ := hfound.sound pendingRow hmem
    exact ⟨hexamined.rows _ hmem', pendingRow.entry, (hentries _).mp hentry, hopen, hmsgId⟩
  · intro entry hloadable hopen
    obtain ⟨pendingRow, hmem, rfl⟩ := hfound.complete entry ((hentries _).mpr hloadable) hopen
    exact ⟨pendingRow.row, hdone pendingRow hmem, (hfound.sound pendingRow hmem).2.2.2⟩
  · intro row hrow
    obtain ⟨pendingRow, hmem, rfl⟩ := hsound row hrow
    rcases hscanned.bound pendingRow hmem with hleft | hle
    · cases hleft
    · exact hle
  · rcases hscanned.attained with hsame | ⟨pendingRow, hmem, hid⟩
    · exact Or.inl hsame
    · exact Or.inr ⟨pendingRow.row, hdone pendingRow hmem, hid⟩

/-- What a reconciliation that succeeds has examined: the rows of the handoffs and
then every row above the watermark that these left. -/
structure Reconciled (start : ℤ) (w v : CausalWorld) (taken ordinary : List HistoryRow)
    (lastSeenId : ℤ) : Prop where
  handoffs : ∃ u, Taken harness start w taken lastSeenId u ∧ Examination u ordinary v
  above : ∀ row ∈ ordinary, lastSeenId < row.id
  scanned : ∀ row ∈ w.rows, row.scope = "group:" ++ harness.stableGroupId →
    lastSeenId < row.id → row ∈ ordinary

theorem scans_reconcileRows (rows : List HistoryRow) :
    Scans config decode (fun _ _ v => Examination w rows v)
      (Task.forEach (reconcileRow harness) rows) memory w := by
  induction rows generalizing memory w with
  | nil => exact scans_pure fun v hwv => hwv.examination
  | cons row rows ih =>
      refine scans_bind (scans_reconcileRow harness row) fun _ m u hmid => ?_
      refine scans_mono ih ?_
      intro _ m' v huv
      exact hmid.trans huv

theorem scans_reconcile :
    Scans config decode
      (fun _ _ v => ∃ taken ordinary lastSeenId,
        Reconciled harness memory.lastSeenId w v taken ordinary lastSeenId)
      (reconcile harness) memory w := by
  refine scans_bind (scans_reconcilePendingCausal harness) fun _ m u hmid => ?_
  obtain ⟨taken, htaken⟩ := hmid
  refine scans_bind scans_getMemory fun current m' v hmid => ?_
  obtain ⟨rfl, rfl, huv⟩ := hmid
  have hscan : Scans config decode (fun rows m x => m = m' ∧ Grows v x ∧
      (∀ row ∈ rows, row ∈ x.rows ∧ m'.lastSeenId < row.id) ∧
      ∀ row ∈ v.rows, row.scope = "group:" ++ harness.stableGroupId → m'.lastSeenId < row.id →
        row ∈ rows) (historyAfter harness.stableGroupId m'.lastSeenId) m' v :=
    (safe_historyAfter readsHistory_scan m' harness.stableGroupId m'.lastSeenId trivial).mono
      (fun _ _ _ _ h => h) (fun _ _ _ _ _ => trivial)
  refine scans_bind hscan fun rows m x hmid => ?_
  obtain ⟨rfl, hvx, habove, hscanned⟩ := hmid
  refine scans_mono (scans_reconcileRows harness rows) ?_
  intro _ m'' y hxy
  have huy : Examination u rows y := by
    simpa using (huv.trans hvx).examination.trans hxy
  refine ⟨taken, rows, m.lastSeenId, ⟨u, htaken, huy⟩, fun row hrow => (habove row hrow).2, ?_⟩
  intro row hrow hscope hlt
  exact hscanned row ((htaken.examination.extend huv.examination).rows row hrow) hscope hlt

end Handoffs

end Buzz
