import Buzz.WatermarkScan
import Buzz.CausalSafety

/-!
# When a reconciliation skips a row

A reconciliation that succeeds examines every row above its watermark exactly
when no such row lies below the row of a handoff without having a handoff of its
own. The hidden row is not looked at again: the watermark is beyond it.
-/

namespace Buzz

open EffectProgram

variable {config : Config} {decode : EnvelopeDecoder}

/-- The history store numbers its rows and keeps one row for each message. -/
structure DistinctRows (rows : List HistoryRow) : Prop where
  id : ∀ row ∈ rows, ∀ other ∈ rows, row.id = other.id → row = other
  msgId : UniqueRows rows

theorem DistinctRows.eq_of_msgId {rows : List HistoryRow} (h : DistinctRows rows)
    {row other : HistoryRow} (hrow : row ∈ rows) (hother : other ∈ rows)
    (hmsgId : row.msgId = other.msgId) : row = other :=
  h.id row hrow other hother (h.msgId row hrow other hother (by rw [hmsgId]))

section Skipping

variable (harness : HarnessContext) (start : ℤ) (w v : CausalWorld)

/-- A row of the group that the reconciliation starts out with and has not seen. -/
def Unseen (row : HistoryRow) : Prop :=
  row ∈ w.rows ∧ row.scope = "group:" ++ harness.stableGroupId ∧ start < row.id

/-- Every unseen row is examined, and covered if the gate lets it through. -/
def NoneSkipped : Prop :=
  ∀ row, Unseen harness start w row → ∃ held, (row, held) ∈ v.verdicts ∧
    (held = true → Covered v (toAsciiLowercase row.msgId))

/-- No unseen row without a handoff lies below the row of one. -/
def NoneHidden : Prop :=
  ∀ row ∈ v.rows, HasHandoff harness w row → ∀ other, Unseen harness start w other →
    other.id < row.id → HasHandoff harness w other

variable {harness start w v} {taken ordinary : List HistoryRow} {lastSeenId : ℤ}

theorem Reconciled.mem_taken (h : Reconciled harness start w v taken ordinary lastSeenId)
    (hdistinct : DistinctRows v.rows) {row : HistoryRow} (hrow : row ∈ v.rows)
    (hhandoff : HasHandoff harness w row) : row ∈ taken := by
  obtain ⟨u, htaken, huv⟩ := h.handoffs
  obtain ⟨entry, hloadable, hopen, hmsgId⟩ := hhandoff
  obtain ⟨found, hfound, hmsgId'⟩ := htaken.complete entry hloadable hopen
  have hmem : found ∈ v.rows := huv.rows found (htaken.sound found hfound).1
  rw [hdistinct.eq_of_msgId hrow hmem (hmsgId.trans hmsgId'.symm)]
  exact hfound

/-- A row below the watermark that the handoffs left is examined only as one of them. -/
theorem Reconciled.noneHidden (h : Reconciled harness start w v taken ordinary lastSeenId)
    (hfresh : w.verdicts = []) (hdistinct : DistinctRows v.rows)
    (hskipped : NoneSkipped harness start w v) : NoneHidden harness start w v := by
  intro row hrow hhandoff other hother hlt
  have hrow' : row ∈ taken := h.mem_taken hdistinct hrow hhandoff
  obtain ⟨u, htaken, huv⟩ := h.handoffs
  obtain ⟨held, hverdict, -⟩ := hskipped other hother
  rcases (htaken.examination.trans huv).sound _ hverdict with hold | hexamined
  · rw [hfresh] at hold
    cases hold
  · rcases List.mem_append.mp hexamined with htook | hordinary
    · exact (htaken.sound other htook).2
    · have hle := htaken.bound row hrow'
      have habove := h.above other hordinary
      omega

theorem Reconciled.examined (h : Reconciled harness start w v taken ordinary lastSeenId)
    (hdistinct : DistinctRows v.rows) (hhidden : NoneHidden harness start w v) {row : HistoryRow}
    (hunseen : Unseen harness start w row) : row ∈ taken ++ ordinary := by
  obtain ⟨u, htaken, huv⟩ := h.handoffs
  obtain ⟨hrow, hscope, hstart⟩ := hunseen
  have hrow' : row ∈ v.rows := huv.rows row (htaken.examination.rows row hrow)
  by_cases habove : lastSeenId < row.id
  · exact List.mem_append_right _ (h.scanned row hrow hscope habove)
  · apply List.mem_append_left
    rcases htaken.attained with hsame | ⟨last, hlast, hid⟩
    · omega
    · obtain ⟨hmem, hhandoff⟩ := htaken.sound last hlast
      have hmem' : last ∈ v.rows := huv.rows last hmem
      by_cases hsame : row.id = last.id
      · rw [hdistinct.id row hrow' last hmem' hsame]
        exact hlast
      · have hlt : row.id < last.id := by omega
        exact h.mem_taken hdistinct hrow'
          (hhidden last hmem' hhandoff row ⟨hrow, hscope, hstart⟩ hlt)

end Skipping

/-- A reconciliation that succeeds skips no unseen row if and only if none is hidden
below the row of a handoff. -/
theorem reconcile_noneSkipped_iff {harness : HarnessContext} {memory m : HarnessMemory}
    {w v : CausalWorld} (hfresh : w.verdicts = [])
    (hrun : Run (scanContract config decode) (reconcile harness memory) w (.ok (), m) v)
    (hdistinct : DistinctRows v.rows) :
    NoneSkipped harness memory.lastSeenId w v ↔ NoneHidden harness memory.lastSeenId w v := by
  have hsafe : Safe (scanContract config decode) (fun out v => out.1 = .ok () →
      ∃ taken ordinary lastSeenId,
        Reconciled harness memory.lastSeenId w v taken ordinary lastSeenId)
      (reconcile harness memory) w :=
    (scans_reconcile harness).program (fun _ _ _ hdone _ => hdone) fun _ _ _ _ herror => by
      cases herror
  obtain ⟨taken, ordinary, lastSeenId, hreconciled⟩ := hsafe.run hrun rfl
  constructor
  · exact hreconciled.noneHidden hfresh hdistinct
  · intro hhidden row hunseen
    obtain ⟨u, htaken, huv⟩ := hreconciled.handoffs
    exact (htaken.examination.trans huv).complete row
      (hreconciled.examined hdistinct hhidden hunseen)

namespace DirectedScene

variable (scene : DirectedScene config decode) (nonce : String) (lastSeenId : ℤ)

/-- The newest row has a handoff and the watermark is somewhere below it. -/
def handoffWorld : CausalWorld where
  watermark := some lastSeenId
  pending := Function.update (fun _ => none) scene.row.msgId (some (scene.handoff nonce .pending))
  completed := fun _ => none
  rows := scene.rows
  entries := []
  verdicts := []
  alive := some nonce
  nonces := [nonce]

def reconciledWorld : CausalWorld :=
  scene.settled ((scene.handoffWorld nonce lastSeenId).recordVerdict scene.row true)

variable {nonce lastSeenId}

/-- A reconciliation that examines the row of the handoff and nothing else. -/
theorem run_reconcile (hnonce : IsLowerHex 32 nonce) (habove : lastSeenId < scene.row.id) :
    ∃ m, Run (scanContract config decode)
      (reconcile (scene.harness nonce) ⟨lastSeenId, ConversationContext.empty⟩)
      (scene.handoffWorld nonce lastSeenId) (.ok (), m)
        (scene.reconciledWorld nonce lastSeenId) := by
  have hfeasible : Task.Feasible (harnessCommits config decode fun _ _ => True) []
      (fun out _ u => out = .ok () ∧ u = scene.reconciledWorld nonce lastSeenId)
      (reconcile (scene.harness nonce)) ⟨lastSeenId, ConversationContext.empty⟩
      (scene.handoffWorld nonce lastSeenId) :=
    scene.feasible_reconcile_settled (fun _ _ _ => trivial) rfl rfl hnonce rfl rfl rfl habove
  have hprogram : Feasible (scanContract config decode).commits
      (fun out u => out.1 = .ok () ∧ u = scene.reconciledWorld nonce lastSeenId) []
      (reconcile (scene.harness nonce) ⟨lastSeenId, ConversationContext.empty⟩)
      (scene.handoffWorld nonce lastSeenId) := hfeasible.program
  obtain ⟨⟨_, m⟩, _, hrun, rfl, rfl⟩ := hprogram.run fun _ => trivial
  exact ⟨m, hrun⟩

end DirectedScene

/-- Nothing lies below the only row, which is examined and covered. -/
theorem reconcile_noneSkipped_mention :
    ∃ m, Run (scanContract (guideConfig .anyone) mentionDecoder)
      (reconcile (mentionScene.harness (repeatText 'a' 32)) ⟨0, ConversationContext.empty⟩)
      (mentionScene.handoffWorld (repeatText 'a' 32) 0) (.ok (), m)
      (mentionScene.reconciledWorld (repeatText 'a' 32) 0) ∧
    NoneSkipped (mentionScene.harness (repeatText 'a' 32)) 0
      (mentionScene.handoffWorld (repeatText 'a' 32) 0)
      (mentionScene.reconciledWorld (repeatText 'a' 32) 0) := by
  obtain ⟨m, hrun⟩ := mentionScene.run_reconcile (isLowerHex_repeatText 'a' rfl rfl)
    (show (0 : ℤ) < mentionScene.row.id by decide)
  have hrows : (mentionScene.reconciledWorld (repeatText 'a' 32) 0).rows = [siblingRow] := rfl
  have hdistinct : DistinctRows (mentionScene.reconciledWorld (repeatText 'a' 32) 0).rows := by
    rw [hrows]
    exact ⟨by simp, by simp [UniqueRows]⟩
  refine ⟨m, hrun, (reconcile_noneSkipped_iff rfl hrun hdistinct).mpr ?_⟩
  intro row hrow _ other hother hlt
  obtain rfl : row = siblingRow := by simpa [hrows] using hrow
  obtain rfl : other = siblingRow := List.mem_singleton.mp hother.1
  exact absurd hlt (lt_irrefl _)

/-- A message of the sibling that arrived while the harness was down. -/
def earlierRow : HistoryRow :=
  { siblingRow with id := 6 }

def wokenRow : HistoryRow :=
  { siblingRow with id := 10, msgId := repeatText '4' 64 }

def wokenScene : DirectedScene (guideConfig .anyone) mentionDecoder where
  stableGroupId := "stable"
  row := wokenRow
  older := [earlierRow]
  envelope := siblingEnvelope
  scope := by simp [wokenRow, earlierRow, siblingRow]
  newest := by simp [wokenRow, earlierRow]
  decodes := by simp [HistoryRow.envelope, mentionDecoder, wokenRow]
  unrooted := mentionScene.unrooted
  held := shouldTrigger_mention wokenRow (by decide) rfl
  hex := isAgentId_repeatText '4' rfl rfl

/-- The desktop woke the harness for the later of two messages: the earlier one is
neither examined nor covered, although the gate would let it through. -/
theorem reconcile_skips_earlier :
    ∃ m v, Run (scanContract (guideConfig .anyone) mentionDecoder)
      (reconcile (wokenScene.harness (repeatText 'a' 32)) ⟨5, ConversationContext.empty⟩)
      (wokenScene.handoffWorld (repeatText 'a' 32) 5) (.ok (), m) v ∧
    DistinctRows v.rows ∧
    Unseen (wokenScene.harness (repeatText 'a' 32)) 5
      (wokenScene.handoffWorld (repeatText 'a' 32) 5) earlierRow ∧
    (∀ context, shouldTrigger (guideConfig .anyone) "stable" earlierRow siblingEnvelope context =
      true) ∧
    ¬Covered v earlierRow.msgId ∧
    ¬NoneSkipped (wokenScene.harness (repeatText 'a' 32)) 5
      (wokenScene.handoffWorld (repeatText 'a' 32) 5) v := by
  obtain ⟨m, hrun⟩ := wokenScene.run_reconcile (isLowerHex_repeatText 'a' rfl rfl)
    (show (5 : ℤ) < wokenScene.row.id by decide)
  have hunseen : Unseen (wokenScene.harness (repeatText 'a' 32)) 5
      (wokenScene.handoffWorld (repeatText 'a' 32) 5) earlierRow :=
    ⟨by simp [DirectedScene.handoffWorld, DirectedScene.rows, wokenScene], rfl, by decide⟩
  refine ⟨m, _, hrun, ?_, hunseen, shouldTrigger_mention earlierRow (by decide) rfl, ?_, ?_⟩
  · have hrows : (wokenScene.reconciledWorld (repeatText 'a' 32) 5).rows =
        [wokenRow, earlierRow] := rfl
    rw [hrows]
    refine ⟨?_, ?_⟩
    · simp [wokenRow, earlierRow]
    · simp [UniqueRows, wokenRow, earlierRow, siblingRow]
  · have hne : wokenScene.row.msgId ≠ earlierRow.msgId := by
      simp [wokenScene, wokenRow, earlierRow, siblingRow]
    rintro (⟨entry, hentry, hid⟩ | hdone | ⟨message, hmessage, -⟩)
    · obtain rfl := List.mem_singleton.mp hentry
      exact hne hid
    · apply hdone
      simp [DirectedScene.reconciledWorld, DirectedScene.settled, DirectedScene.handoffWorld,
        CausalWorld.recordVerdict, hne.symm]
    · have hnone : (wokenScene.reconciledWorld (repeatText 'a' 32) 5).pending earlierRow.msgId =
          none := by
        simp [DirectedScene.reconciledWorld, DirectedScene.settled, DirectedScene.handoffWorld,
          CausalWorld.recordVerdict]
      rw [hnone] at hmessage
      cases hmessage
  · intro hskipped
    obtain ⟨held, hverdict, -⟩ := hskipped earlierRow hunseen
    have hverdicts : (wokenScene.reconciledWorld (repeatText 'a' 32) 5).verdicts =
        [(wokenRow, true)] := rfl
    rw [hverdicts, List.mem_singleton] at hverdict
    have hid : earlierRow.id = wokenRow.id := congrArg (fun verdict => verdict.1.id) hverdict
    simp [earlierRow, wokenRow] at hid

end Buzz
