import Buzz.ProgramRuns
import Buzz.CausalHarnessSafety

/-!
# Runs of the two programs

What the harness and the desktop can do in a history whose newest row is a
directed one: the harness picks the row up from its handoff and enters the turn,
or finds the row in the scan and stages it; the desktop starts a harness and
leaves a handoff for it. These runs are the parts from which runs of the whole
system are put together.
-/

namespace Buzz

open EffectProgram

/-- The replies that the runs below need. -/
def Admits (admits : (request : CausalRequest) → request.Reply → Prop) : Prop :=
  ∀ request answer, RecheckReads request answer → admits request answer

section Rules

variable {config : Config} {decode : EnvelopeDecoder} {nonce : String}
  {admits : (request : CausalRequest) → request.Reply → Prop} {α : Type}
  {pauses : List (Pause CausalWorld)} {memory : HarnessMemory} {w u : CausalWorld}
variable {post : Except HarnessError α → HarnessMemory → CausalWorld → Prop}

abbrev harnessCommits (config : Config) (decode : EnvelopeDecoder)
    (admits : (request : CausalRequest) → request.Reply → Prop) :
    CausalWorld → (request : CausalRequest) → request.Reply → CausalWorld → Prop :=
  (causalSystem config decode admits).commits .harness

theorem feasible_ask {request : CausalRequest} {f : request.Reply → HarnessTask α}
    (hall : Admits admits)
    (hn : w.alive = some nonce) (answer : request.Reply) (hread : RecheckReads request answer)
    (hcommit : request.commits w answer u)
    (h : Task.Feasible (harnessCommits config decode admits) pauses post (f answer) memory u) :
    Task.Feasible (harnessCommits config decode admits) pauses post (ask request >>= f) memory
      w := by
  have hperform : harnessCommits config decode admits w request answer u :=
    ⟨hcommit, hall request answer hread, fun _ => by simp [hn]⟩
  exact Task.feasible_bind (Task.feasible_perform hperform h)

theorem feasible_orFail {request : CausalRequest} {error : HarnessError}
    {ok : request.Reply → Bool} {f : Unit → HarnessTask α} (hall : Admits admits)
    (hn : w.alive = some nonce) (answer : request.Reply) (hread : RecheckReads request answer)
    (hcommit : request.commits w answer u) (hok : ok answer = true)
    (h : Task.Feasible (harnessCommits config decode admits) pauses post (f ()) memory u) :
    Task.Feasible (harnessCommits config decode admits) pauses post (orFail request error ok >>= f)
      memory w := by
  refine Task.feasible_bind (feasible_ask hall hn answer hread hcommit ?_)
  rw [if_pos hok]
  exact Task.feasible_pure h

theorem feasible_getMemory {f : HarnessMemory → HarnessTask α}
    (h : Task.Feasible (harnessCommits config decode admits) pauses post (f memory) memory w) :
    Task.Feasible (harnessCommits config decode admits) pauses post (Task.getMemory >>= f) memory
      w :=
  Task.feasible_bind (Task.feasible_getMemory h)

theorem feasible_setContext {context : ConversationContext} {f : Unit → HarnessTask α}
    (h : Task.Feasible (harnessCommits config decode admits) pauses post (f ())
      { memory with context := context } w) :
    Task.Feasible (harnessCommits config decode admits) pauses post (setContext context >>= f)
      memory w :=
  Task.feasible_bind (feasible_getMemory (Task.feasible_setMemory h))

theorem feasible_setLastSeenId {lastSeenId : ℤ} {f : Unit → HarnessTask α}
    (h : Task.Feasible (harnessCommits config decode admits) pauses post (f ())
      { memory with lastSeenId := lastSeenId } w) :
    Task.Feasible (harnessCommits config decode admits) pauses post
      (setLastSeenId lastSeenId >>= f) memory w :=
  Task.feasible_bind (feasible_getMemory (Task.feasible_setMemory h))

theorem feasible_claimRow {rowId : ℤ} {f : Unit → HarnessTask α} (hall : Admits admits)
    (hn : w.alive = some nonce)
    (h : Task.Feasible (harnessCommits config decode admits) pauses post (f ())
      { memory with lastSeenId := max memory.lastSeenId rowId }
      (w.setWatermark (max memory.lastSeenId rowId))) :
    Task.Feasible (harnessCommits config decode admits) pauses post (claimRow rowId >>= f) memory
      w := by
  refine Task.feasible_bind (feasible_getMemory (feasible_setLastSeenId ?_))
  refine feasible_getMemory (Task.Feasible.mono (?_ : Task.Feasible _ [] (fun out m u =>
    out = .ok () ∧ m = { memory with lastSeenId := max memory.lastSeenId rowId } ∧
      u = w.setWatermark (max memory.lastSeenId rowId)) _ _ _) ?_)
  · refine feasible_ask hall hn true trivial (Or.inl rfl) (Task.feasible_pure ⟨rfl, rfl, rfl⟩)
  · rintro out m u ⟨rfl, rfl, rfl⟩
    exact h

end Rules

/-- A directed row that the gate lets through in every context, with the rows before it. -/
structure DirectedScene (config : Config) (decode : EnvelopeDecoder) where
  stableGroupId : String
  row : HistoryRow
  older : List HistoryRow
  envelope : ChannelEnvelope
  scope : ∀ other ∈ row :: older, other.scope = "group:" ++ stableGroupId
  newest : ∀ other ∈ older, other.id < row.id
  decodes : row.envelope decode = some envelope
  unrooted : envelope.delegationRoot = none
  held : ∀ context, shouldTrigger config stableGroupId row envelope context = true
  hex : IsLowerHex 64 row.msgId

namespace DirectedScene

variable {config : Config} {decode : EnvelopeDecoder} (scene : DirectedScene config decode)
  {α : Type} {post : Except HarnessError α → HarnessMemory → CausalWorld → Prop}
variable {operation : HarnessTask Unit}

def rows : List HistoryRow :=
  scene.row :: scene.older

theorem isHistoryPage {w : CausalWorld} (hrows : w.rows = scene.rows) :
    IsHistoryPage w.rows ("group:" ++ scene.stableGroupId) none ⟨scene.rows, none⟩ where
  mem := by
    rw [hrows]
    exact fun other hother => ⟨hother, scene.scope other hother, by simp⟩
  complete := by
    rw [hrows]
    exact fun other hother _ _ _ => hother
  cursor_le := by simp

variable {nonce : String} {admits : (request : CausalRequest) → request.Reply → Prop}
  {pauses : List (Pause CausalWorld)} {memory : HarnessMemory} {w : CausalWorld}
  (hall : Admits admits) (hn : w.alive = some nonce) (hrows : w.rows = scene.rows)

include hall hn hrows in
theorem feasible_historyPage {limit : ℕ} {f : HistoryResponse → HarnessTask α}
    (h : Task.Feasible (harnessCommits config decode admits) pauses post (f ⟨scene.rows, none⟩)
      memory w) :
    Task.Feasible (harnessCommits config decode admits) pauses post
      (historyPage ("group:" ++ scene.stableGroupId) limit none >>= f) memory w := by
  refine Task.feasible_bind (feasible_ask hall hn (.ok ⟨scene.rows, none⟩) trivial ?_
    (Task.feasible_pure h))
  exact ⟨rfl, by rintro _ ⟨⟩; exact scene.isHistoryPage hrows⟩

include hall hn hrows in
/-- The harness with this nonce gets from its launch to the first scan. -/
theorem feasible_asyncMain {goal : HarnessError → Prop} {lastSeenId : ℤ}
    (hmark : w.watermark = some lastSeenId)
    (h : ∀ context, Task.Feasible (harnessCommits config decode admits) pauses
      (fun out _ u => u.alive = some nonce ∧
        ∃ error, out = .error error ∧ error.isSilent = false ∧ goal error)
      (reconcile ⟨config, decode, nonce, scene.stableGroupId⟩) ⟨lastSeenId, context⟩ w) :
    Task.Feasible (harnessCommits config decode admits) pauses
      (fun out _ _ => ∃ error, out = .error error ∧ goal error)
      (asyncMain ⟨config, decode, nonce, ""⟩ 1) memory w := by
  have hrun : Task.Feasible (harnessCommits config decode admits) pauses
      (fun out _ u => u.alive = some nonce ∧ ∃ error, out = .error error ∧ goal error)
      (runHarness ⟨config, decode, nonce, ""⟩ 1) memory w := by
    refine feasible_ask hall hn (.ok ()) trivial rfl ?_
    refine Task.feasible_bind (Task.feasible_pure ?_)
    refine feasible_ask hall hn (.ok scene.stableGroupId) trivial rfl ?_
    refine Task.feasible_bind (Task.feasible_pure ?_)
    refine Task.feasible_bind (feasible_ask hall hn (.found lastSeenId) trivial ⟨rfl, hmark⟩
      (Task.feasible_pure ?_))
    refine Task.feasible_bind (scene.feasible_historyPage hall hn hrows (Task.feasible_pure ?_))
    refine feasible_setContext (feasible_setLastSeenId ?_)
    refine feasible_orFail hall hn true trivial rfl rfl ?_
    refine feasible_ask hall hn (.ok ()) trivial rfl ?_
    refine feasible_orFail hall hn true trivial rfl rfl ?_
    refine feasible_ask hall hn .tick trivial rfl ?_
    refine Task.feasible_bind_left (Task.feasible_bind_left (Task.feasible_result
      ((h _).mono ?_)))
    rintro out m u ⟨halive, error, rfl, hsilent, hgoal⟩
    simp only [hsilent, Bool.false_eq_true, if_false]
    exact Task.feasible_fail ⟨halive, error, rfl, hgoal⟩
  refine Task.feasible_bind_left (Task.feasible_result (hrun.mono ?_))
  rintro out m u ⟨halive, error, rfl, hgoal⟩
  exact feasible_ask hall halive true trivial rfl (Task.feasible_fail ⟨error, rfl, hgoal⟩)

/-- The handoff of the row for the harness with this nonce. -/
def handoff (nonce : String) (state : PendingCausalState) : PendingCausalMessage :=
  ⟨2, nonce, config.groupId, scene.row.msgId, state⟩

/-- The harness that runs among the rows of this scene. -/
def harness (nonce : String) : HarnessContext :=
  ⟨config, decode, nonce, scene.stableGroupId⟩

include hall hn in
theorem feasible_completedCausalExists_open {f : Bool → HarnessTask α}
    (hopen : w.completed scene.row.msgId = none)
    (h : Task.Feasible (harnessCommits config decode admits) pauses post (f false) memory w) :
    Task.Feasible (harnessCommits config decode admits) pauses post
      (completedCausalExists (scene.harness nonce) scene.row.msgId >>= f) memory w :=
  Task.feasible_bind (feasible_ask hall hn .missing trivial ⟨rfl, hopen⟩ (Task.feasible_pure h))

theorem recordOk_handoff (hnonce : IsLowerHex 32 nonce) (state : PendingCausalState) :
    RecordOk config.groupId [nonce] scene.row.msgId (scene.handoff nonce state) :=
  ⟨rfl, rfl, rfl, scene.hex, hnonce, List.mem_singleton_self nonce⟩

include hall hn in
/-- Loading finds the handoff of the row when it is the only one. -/
theorem feasible_loadPendingCausal {f : List PendingCausalEntry → HarnessTask α}
    {state : PendingCausalState} (hnonce : IsLowerHex 32 nonce)
    (hopen : w.completed scene.row.msgId = none)
    (hpending : w.pending = Function.update (fun _ => none) scene.row.msgId
      (some (scene.handoff nonce state)))
    (h : Task.Feasible (harnessCommits config decode admits) pauses post
      (f [⟨scene.row.msgId, scene.handoff nonce state⟩]) memory w) :
    Task.Feasible (harnessCommits config decode admits) pauses post
      (loadPendingCausal (scene.harness nonce) >>= f) memory w := by
  have hself : w.pending scene.row.msgId = some (scene.handoff nonce state) := by
    rw [hpending, Function.update_self]
  have hok := scene.recordOk_handoff hnonce state
  have hidentity : identityValid (scene.harness nonce) scene.row.msgId (scene.handoff nonce state) =
      true := identityValid_of_ok (scene.harness nonce) hok
  have hlower : toAsciiLowercase (scene.handoff nonce state).msgId = scene.row.msgId := scene.hex.2
  have hsame : ((scene.handoff nonce state).startNonce == (scene.harness nonce).causalNonce) =
      true := beq_self_eq_true nonce
  refine Task.feasible_bind (feasible_ask hall hn (some [scene.row.msgId]) trivial ⟨rfl, ?_⟩ ?_)
  · rintro _ ⟨⟩
    refine ⟨List.nodup_singleton _, fun stem => ?_⟩
    rw [hpending]
    by_cases hstem : stem = scene.row.msgId
    · simp [hstem]
    · simp [hstem]
  · refine Task.feasible_bind (Task.feasible_bind ?_)
    refine feasible_ask hall hn (.found (scene.handoff nonce state)) trivial ⟨rfl, hself⟩ ?_
    simp only [handoffCompleted, hidentity, stateValid_of_ok hok, hlower, hsame, Bool.and_self,
      if_true]
    refine scene.feasible_completedCausalExists_open hall hn hopen ?_
    simp only [Bool.false_eq_true, if_false, upgradedEntry_of_ok hok]
    refine Task.feasible_pure ?_
    refine Task.feasible_bind (Task.feasible_pure (Task.feasible_pure ?_))
    exact Task.feasible_pure h

include hall hn in
theorem feasible_loadPendingCausal_empty {f : List PendingCausalEntry → HarnessTask α}
    (hpending : w.pending = fun _ => none)
    (h : Task.Feasible (harnessCommits config decode admits) pauses post (f []) memory w) :
    Task.Feasible (harnessCommits config decode admits) pauses post
      (loadPendingCausal (scene.harness nonce) >>= f) memory w := by
  refine Task.feasible_bind (feasible_ask hall hn (some []) trivial ⟨rfl, ?_⟩ ?_)
  · rintro _ ⟨⟩
    simp [hpending]
  · exact Task.feasible_bind (Task.feasible_pure (Task.feasible_pure h))

include hall hn hrows in
theorem feasible_historyGet {f : Option HistoryRow → HarnessTask α}
    (h : Task.Feasible (harnessCommits config decode admits) pauses post (f (some scene.row))
      memory w) :
    Task.Feasible (harnessCommits config decode admits) pauses post
      (historyGet scene.stableGroupId scene.row.msgId >>= f) memory w := by
  refine Task.feasible_bind (scene.feasible_historyPage hall hn hrows ?_)
  simp only [rows, List.find?_cons, beq_self_eq_true]
  exact Task.feasible_pure h

include hall hn in
/-- The gate lets the row through; only the record of verdicts grows. -/
theorem feasible_examineRow {f : Bool → HarnessTask α}
    (h : ∀ context, Task.Feasible (harnessCommits config decode admits) pauses post (f true)
      { memory with context := context } (w.recordVerdict scene.row true)) :
    Task.Feasible (harnessCommits config decode admits) pauses post
      (examineRow (scene.harness nonce) scene.row scene.envelope >>= f) memory w := by
  refine Task.feasible_bind (Task.feasible_bind ?_)
  unfold ensureDelegationRootInContext
  simp only [scene.unrooted]
  refine Task.feasible_pure (feasible_getMemory (feasible_setContext ?_))
  have hheld (context : ConversationContext) : shouldTrigger (scene.harness nonce).config
      (scene.harness nonce).stableGroupId scene.row scene.envelope context = true :=
    scene.held context
  refine feasible_ask hall hn () trivial rfl (Task.feasible_pure ?_)
  simp only [hheld]
  exact h _

/-- The harness has entered the turn of the row and done nothing after it. -/
def Entered (nonce : String) (w v : CausalWorld) : Prop :=
  ∃ lastSeenId verdicts, v =
    { w with
      watermark := some lastSeenId
      pending := Function.update w.pending scene.row.msgId (some (scene.handoff nonce .executing))
      entries := w.entries ++ [⟨scene.row.msgId, .unfinished⟩]
      verdicts := verdicts }

include hall hn in
/-- The claim gets to the turn, where the harness is killed. -/
theorem feasible_afterDurablePendingClaim_kill
    {post : Except HarnessError Unit → HarnessMemory → CausalWorld → Prop} :
    Task.Feasible (harnessCommits config decode admits)
      [Pause.kill fun v => ∃ lastSeenId, v =
        { w with
          watermark := some lastSeenId
          pending := Function.update w.pending scene.row.msgId
            (some (scene.handoff nonce .executing))
          entries := w.entries ++ [⟨scene.row.msgId, .unfinished⟩] }]
      post
      (afterDurablePendingClaim (scene.harness nonce) scene.row.id
        ⟨scene.row.msgId, scene.handoff nonce .pending⟩ operation) memory w := by
  refine feasible_getMemory ?_
  refine feasible_orFail hall hn true trivial (Or.inl rfl) rfl ?_
  refine feasible_claimRow hall hn ?_
  refine feasible_orFail hall hn true trivial (Or.inl rfl) rfl ?_
  refine Task.feasible_bind_left (feasible_ask hall hn () trivial rfl ?_)
  refine Task.feasible_kill ⟨max memory.lastSeenId scene.row.id, ?_⟩
  simp only [CausalWorld.enterTurn, CausalWorld.setPending, CausalWorld.setWatermark,
    PendingCausalEntry.withState, handoff, Function.update_idem]

include hall hn hrows in
/-- With the handoff of the row in place the first scan gets to the turn. -/
theorem feasible_reconcile_kill
    {post : Except HarnessError Unit → HarnessMemory → CausalWorld → Prop}
    (hnonce : IsLowerHex 32 nonce) (hopen : w.completed scene.row.msgId = none)
    (hpending : w.pending = Function.update (fun _ => none) scene.row.msgId
      (some (scene.handoff nonce .pending))) :
    Task.Feasible (harnessCommits config decode admits) [Pause.kill (scene.Entered nonce w)] post
      (reconcile (scene.harness nonce)) memory w := by
  refine Task.feasible_bind_left ?_
  refine scene.feasible_loadPendingCausal hall hn hnonce hopen hpending ?_
  have hblocked : (scene.handoff nonce .pending).isBlocked = false := rfl
  have hdecodes : scene.row.envelope (scene.harness nonce).decode = some scene.envelope :=
    scene.decodes
  refine Task.feasible_bind ?_
  unfold findPendingRows
  simp only [hblocked, Bool.false_eq_true, if_false]
  refine scene.feasible_historyGet hall hn hrows ?_
  simp only [hdecodes]
  refine Task.feasible_bind (Task.feasible_pure (Task.feasible_pure ?_))
  refine Task.feasible_bind_left ?_
  refine scene.feasible_examineRow hall hn fun context => ?_
  rw [if_pos rfl]
  have hn' : (w.recordVerdict scene.row true).alive = some nonce := hn
  refine (scene.feasible_afterDurablePendingClaim_kill hall hn').weaken ?_
  rintro v ⟨lastSeenId, rfl⟩
  exact ⟨lastSeenId, _, rfl⟩

/-- The desktop has left a handoff for the row. -/
def withHandoff (nonce : String) (w : CausalWorld) : CausalWorld :=
  w.setPending scene.row.msgId (some (scene.handoff nonce .pending))

/-- The desktop creates the handoff at the first interruption and removes it at the
second. -/
def createdAndRemoved (nonce : String) (w : CausalWorld) : List (Pause CausalWorld) :=
  [⟨fun v => v = w, fun _ v => v = scene.withHandoff nonce w⟩,
    ⟨fun v => v = scene.withHandoff nonce w, fun _ v => v = w⟩]

include hall hn in
/-- Staging meets a handoff that the desktop has just created and then removes: the
harness takes the missing file for an invalid one. -/
theorem feasible_stageCausalMessage_removed (hnonce : IsLowerHex 32 nonce)
    {post : Except HarnessError (Option PendingCausalEntry) → HarnessMemory → CausalWorld → Prop}
    (hopen : w.completed scene.row.msgId = none) (hpending : w.pending = fun _ => none)
    (hpost : post (.error (.pendingCausalInvalid (.pendingFile scene.row.msgId))) memory w) :
    Task.Feasible (harnessCommits config decode admits) (scene.createdAndRemoved nonce w) post
      (stageCausalMessage (scene.harness nonce) scene.row.msgId) memory w := by
  have hlower : toAsciiLowercase scene.row.msgId = scene.row.msgId := scene.hex.2
  have hhex : isHexText 64 scene.row.msgId = true := scene.hex.1
  have hcausal : isHexText 32 (scene.harness nonce).causalNonce = true := hnonce.1
  have hexists : (scene.withHandoff nonce w).pending (toAsciiLowercase scene.row.msgId) ≠ none := by
    rw [hlower, withHandoff, pending_setPending_self]
    exact Option.some_ne_none _
  unfold stageCausalMessage
  simp only [hlower, hhex, hcausal, Bool.not_true, Bool.or_self, Bool.false_eq_true, if_false]
  refine scene.feasible_completedCausalExists_open hall hn hopen ?_
  simp only [Bool.false_eq_true, if_false]
  refine feasible_orFail hall hn true trivial rfl rfl ?_
  refine Task.feasible_pause rfl ?_
  rintro _ rfl
  refine feasible_orFail hall hn .alreadyExists trivial ⟨rfl, hexists⟩ rfl ?_
  refine Task.feasible_pause rfl ?_
  rintro _ rfl
  refine scene.feasible_loadPendingCausal_empty hall hn hpending ?_
  refine scene.feasible_completedCausalExists_open hall hn hopen ?_
  exact Task.feasible_fail hpost

include hall hn hrows in
/-- Without a handoff the first scan comes to the row by its watermark. -/
theorem feasible_reconcile_removed (hnonce : IsLowerHex 32 nonce)
    (hopen : w.completed scene.row.msgId = none) (hpending : w.pending = fun _ => none)
    (habove : memory.lastSeenId < scene.row.id) (hfirst : scene.older = []) :
    Task.Feasible (harnessCommits config decode admits)
      (scene.createdAndRemoved nonce (w.recordVerdict scene.row true))
      (fun out _ u => u.alive = some nonce ∧
        out = .error (.pendingCausalInvalid (.pendingFile scene.row.msgId)))
      (reconcile (scene.harness nonce)) memory w := by
  have hdecodes : scene.row.envelope (scene.harness nonce).decode = some scene.envelope :=
    scene.decodes
  have hn' : (w.recordVerdict scene.row true).alive = some nonce := hn
  refine Task.feasible_bind ?_
  refine scene.feasible_loadPendingCausal_empty hall hn hpending ?_
  refine Task.feasible_bind (Task.feasible_pure (Task.feasible_pure ?_))
  refine feasible_getMemory (Task.feasible_bind ?_)
  refine scene.feasible_historyPage hall hn hrows ?_
  simp only [Option.isNone_none, Bool.or_true, if_true]
  refine Task.feasible_pure ?_
  simp only [rows, hfirst, List.nil_append, List.filter_cons, habove, decide_true, if_true,
    List.filter_nil, List.insertionSort, List.foldr_cons, List.foldr_nil, List.orderedInsert]
  refine Task.feasible_bind_left ?_
  unfold reconcileRow
  simp only [hdecodes]
  refine scene.feasible_examineRow hall hn fun context => ?_
  rw [if_pos rfl]
  refine Task.feasible_bind_left ?_
  exact scene.feasible_stageCausalMessage_removed hall hn' hnonce hopen hpending ⟨hn, rfl⟩

/-- A turn whose work was all done by tools. -/
def toolTurn : AcpTurnOutcome where
  stopReason := "end_turn"
  assistantText := ""
  sawAnyToolCall := true
  ambiguousToolActivity := false
  completedToolCallIds := ["call-1"]

omit hrows in
include hall hn in
theorem feasible_directedTurn (harness : HarnessContext) (row : HistoryRow)
    (envelope : ChannelEnvelope) :
    Task.Feasible (harnessCommits config decode admits) []
      (fun out m u => out = .ok () ∧ m = memory ∧ u = w)
      (directedTurn harness row envelope) memory w := by
  have hnoReply (isOwner : Bool) (send : String → HarnessTask Unit) :
      postTurnReply toolTurn isOwner send = pure false := by
    cases isOwner <;> rfl
  refine feasible_orFail hall hn true trivial rfl rfl ?_
  refine Task.feasible_bind ?_
  unfold handleDirectedMessage promptDirectedMessage promptAttempts
  extract_lets author isOwner
  refine feasible_getMemory (Task.feasible_bind ?_)
  refine feasible_ask hall hn (.ok toolTurn) trivial rfl (Task.feasible_pure ?_)
  simp only [hnoReply]
  refine Task.feasible_bind (Task.feasible_pure (Task.feasible_pure ?_))
  exact feasible_ask hall hn true trivial rfl (Task.feasible_pure ⟨rfl, rfl, rfl⟩)

/-- The turn of the row is done and its handoff is replaced by the tombstone. -/
def settled (w : CausalWorld) : CausalWorld :=
  { w with
    watermark := some scene.row.id
    pending := Function.update w.pending scene.row.msgId none
    completed := Function.update w.completed scene.row.msgId
      (some ⟨1, config.groupId, scene.row.msgId⟩)
    entries := [⟨scene.row.msgId, .settled⟩] }

omit hrows in
include hall hn in
/-- The claim runs the turn and settles the handoff. -/
theorem feasible_afterDurablePendingClaim_settled
    {post : Except HarnessError Unit → HarnessMemory → CausalWorld → Prop}
    (hop : ∀ (m : HarnessMemory) (v : CausalWorld), v.alive = some nonce →
      Task.Feasible (harnessCommits config decode admits) []
        (fun out m' u => out = .ok () ∧ m' = m ∧ u = v) operation m v)
    (hopen : w.completed scene.row.msgId = none) (hentries : w.entries = [])
    (habove : memory.lastSeenId < scene.row.id)
    (h : post (.ok ()) { memory with lastSeenId := scene.row.id } (scene.settled w)) :
    Task.Feasible (harnessCommits config decode admits) [] post
      (afterDurablePendingClaim (scene.harness nonce) scene.row.id
        ⟨scene.row.msgId, scene.handoff nonce .pending⟩ operation) memory w := by
  have hmax : max memory.lastSeenId scene.row.id = scene.row.id := max_eq_right habove.le
  refine feasible_getMemory ?_
  refine feasible_orFail hall hn true trivial (Or.inl rfl) rfl ?_
  refine feasible_claimRow hall hn ?_
  refine feasible_orFail hall hn true trivial (Or.inl rfl) rfl ?_
  refine Task.feasible_bind (feasible_ask hall hn () trivial rfl ?_)
  refine Task.feasible_bind (Task.feasible_result (Task.Feasible.mono (hop _ _ ?_) ?_))
  · exact hn
  rintro out m u ⟨rfl, rfl, rfl⟩
  refine feasible_ask hall hn () trivial rfl (Task.feasible_pure ?_)
  refine Task.feasible_bind (feasible_orFail hall hn true trivial rfl rfl ?_)
  refine Task.feasible_bind (feasible_ask hall hn .missing trivial ⟨rfl, hopen⟩
    (Task.feasible_pure ?_))
  refine feasible_ask hall hn true trivial (Or.inl rfl) (Task.feasible_pure ?_)
  refine feasible_ask hall hn true trivial (Or.inl rfl) (Task.feasible_pure ?_)
  simp only [CausalWorld.setPending, CausalWorld.setWatermark, CausalWorld.enterTurn,
    CausalWorld.leaveTurn, CausalWorld.setCompleted, PendingCausalEntry.withState, handoff, hmax,
    hentries, Function.update_idem, List.nil_append, List.map_cons, List.map_nil, and_self, if_true]
  exact h

include hall hn hrows in
/-- With the handoff of the newest row in place a reconciliation runs its turn and then
looks above it, where there is nothing. -/
theorem feasible_reconcile_settled (hnonce : IsLowerHex 32 nonce)
    (hopen : w.completed scene.row.msgId = none)
    (hpending : w.pending = Function.update (fun _ => none) scene.row.msgId
      (some (scene.handoff nonce .pending)))
    (hentries : w.entries = []) (habove : memory.lastSeenId < scene.row.id) :
    Task.Feasible (harnessCommits config decode admits) []
      (fun out _ u => out = .ok () ∧ u = scene.settled (w.recordVerdict scene.row true))
      (reconcile (scene.harness nonce)) memory w := by
  have hblocked : (scene.handoff nonce .pending).isBlocked = false := rfl
  have hdecodes : scene.row.envelope (scene.harness nonce).decode = some scene.envelope :=
    scene.decodes
  refine Task.feasible_bind ?_
  refine scene.feasible_loadPendingCausal hall hn hnonce hopen hpending ?_
  refine Task.feasible_bind ?_
  unfold findPendingRows
  simp only [hblocked, Bool.false_eq_true, if_false]
  refine scene.feasible_historyGet hall hn hrows ?_
  simp only [hdecodes]
  refine Task.feasible_bind (Task.feasible_pure (Task.feasible_pure ?_))
  refine Task.feasible_bind ?_
  refine scene.feasible_examineRow hall hn fun context => ?_
  rw [if_pos rfl]
  have hn' : (w.recordVerdict scene.row true).alive = some nonce := hn
  refine scene.feasible_afterDurablePendingClaim_settled hall hn' ?_ hopen hentries habove ?_
  · exact fun m v hv => feasible_directedTurn hall hv _ _ _
  refine Task.feasible_pure (feasible_getMemory (Task.feasible_bind ?_))
  have hrows' : (scene.settled (w.recordVerdict scene.row true)).rows = scene.rows := hrows
  have hlater : (scene.settled (w.recordVerdict scene.row true)).alive = some nonce := hn
  refine scene.feasible_historyPage hall hlater hrows' ?_
  have hnone : scene.rows.filter (fun row => scene.row.id < row.id) = [] := by
    simp only [rows, List.filter_eq_nil_iff, decide_eq_true_eq, not_lt, List.mem_cons]
    rintro other (rfl | hother)
    · exact le_refl _
    · exact (scene.newest other hother).le
  simp only [hnone, Option.isNone_none, Bool.or_true, if_true]
  exact Task.feasible_pure (Task.feasible_pure ⟨rfl, rfl⟩)

end DirectedScene

namespace Desktop

variable {config : Config} {decode : EnvelopeDecoder}
  {admits : (request : CausalRequest) → request.Reply → Prop} {α : Type}
  {pauses : List (Pause CausalWorld)} {w u : CausalWorld}
variable {post : Except String Unit → Unit → CausalWorld → Prop}

abbrev commits (config : Config) (decode : EnvelopeDecoder)
    (admits : (request : CausalRequest) → request.Reply → Prop) :
    CausalWorld → (request : CausalRequest) → request.Reply → CausalWorld → Prop :=
  (causalSystem config decode admits).commits .desktop

theorem feasible_ask {request : CausalRequest} {f : request.Reply → DesktopTask α}
    {post : Except String α → Unit → CausalWorld → Prop} (answer : request.Reply)
    (hadmitted : admits request answer) (hcommit : request.commits w answer u)
    (h : Task.Feasible (commits config decode admits) pauses post (f answer) () u) :
    Task.Feasible (commits config decode admits) pauses post (ask request >>= f) () w := by
  have hperform : commits config decode admits w request answer u :=
    ⟨hcommit, hadmitted, fun hthread => by cases hthread⟩
  exact Task.feasible_bind (Task.feasible_perform hperform h)

theorem feasible_orFail {request : CausalRequest} {error : String} {ok : request.Reply → Bool}
    (answer : request.Reply)
    (hadmitted : admits request answer) (hcommit : request.commits w answer u)
    (hok : ok answer = true) (h : post (.ok ()) () u) :
    Task.Feasible (commits config decode admits) [] post (orFail request error ok) () w := by
  refine feasible_ask answer hadmitted hcommit ?_
  rw [if_pos hok]
  exact Task.feasible_pure h

variable (scene : DirectedScene config decode) (hall : Admits admits) {nonce : String}

theorem feasible_notCompleted {groupId msgId : String} {recheck : Bool} (hall : Admits admits)
    (hopen : w.completed msgId = none) (h : post (.ok ()) () w) :
    Task.Feasible (commits config decode admits) [] post
      (ensureNativeCausalMessageNotCompleted groupId msgId recheck) () w := by
  refine Task.feasible_bind (feasible_ask .missing (hall _ _ ?_) ⟨rfl, hopen⟩
    (Task.feasible_pure (Task.feasible_pure h)))
  cases recheck <;> trivial

include hall in
/-- The desktop creates the handoff; what follows is its second look. -/
theorem feasible_persist_created (hnonce : IsLowerHex 32 nonce)
    (hopen : w.completed scene.row.msgId = none) (hpending : w.pending scene.row.msgId = none)
    (h : Task.Feasible (commits config decode admits) pauses post
      (confirmCreated config.groupId scene.row.msgId) () (scene.withHandoff nonce w)) :
    Task.Feasible (commits config decode admits) pauses post
      (persistNativePendingCausalMessage config.groupId nonce scene.row.msgId) () w := by
  have hlower : toAsciiLowercase scene.row.msgId = scene.row.msgId := scene.hex.2
  unfold persistNativePendingCausalMessage
  simp only [hnonce.1, scene.hex.1, Bool.not_true, Bool.false_eq_true, if_false]
  refine Task.feasible_bind (feasible_orFail true (hall _ _ trivial) rfl rfl ?_)
  refine Task.feasible_bind (feasible_notCompleted hall (by rw [hlower]; exact hopen) ?_)
  refine feasible_ask false (hall _ _ trivial) ⟨rfl, by simp [hlower, hpending]⟩ ?_
  rw [if_neg (by simp)]
  refine feasible_ask .created (hall _ _ trivial) ⟨by rw [hlower]; exact hpending, rfl⟩ ?_
  simp only [hlower, hnonce.2]
  exact h

/-- A second look that fails makes the desktop remove the handoff, whoever holds it. -/
theorem feasible_confirmCreated_failed {groupId msgId : String}
    (hadmitted : ∀ request answer, admits request answer)
    (h : ∀ error, post (.error error) () (w.setPending msgId none)) :
    Task.Feasible (commits config decode admits) [] post (confirmCreated groupId msgId) () w := by
  refine Task.feasible_bind (Task.feasible_result (Task.feasible_bind_left
    (feasible_ask .failed (hadmitted _ _) ⟨rfl, trivial⟩ (Task.feasible_fail ?_))))
  exact feasible_ask true (hadmitted _ _) (Or.inl rfl) (Task.feasible_fail (h _))

include hall in
/-- The desktop leaves a handoff for the running harness and is interrupted before its
second look, which then fails. -/
theorem feasible_startPair_removed (hadmitted : ∀ request answer, admits request answer)
    (hn : w.alive = some nonce) (hnonce : IsLowerHex 32 nonce)
    (hopen : w.completed scene.row.msgId = none) (hpending : w.pending scene.row.msgId = none)
    (meanwhile : CausalWorld → Prop) :
    Task.Feasible (commits config decode admits)
      [⟨fun v => v = scene.withHandoff nonce w, fun _ => meanwhile⟩]
      (fun _ _ v => ∃ u, meanwhile u ∧ v = u.setPending scene.row.msgId none)
      (startPair config.groupId (some scene.row.msgId)) () w := by
  refine feasible_ask (some nonce) (hadmitted _ _) ⟨rfl, ?_⟩ ?_
  · rintro _ ⟨⟩
    exact hn
  · refine feasible_persist_created scene hall hnonce hopen hpending ?_
    refine Task.feasible_pause rfl fun u hu => ?_
    exact feasible_confirmCreated_failed hadmitted fun _ => ⟨u, hu, rfl⟩

include hall in
/-- While no harness runs and there is no handoff, the desktop starts one. -/
theorem feasible_startPair_asleep (hasleep : w.alive = none) (hpending : w.pending = fun _ => none)
    (hnonce : IsLowerHex 32 nonce) (hfresh : nonce ∉ w.nonces)
    (pendingCausalMsgId : Option String) (prepared : CausalWorld)
    (hprepared : Task.Feasible (commits config decode admits) []
      (fun out _ v => out = .ok () ∧ v = prepared)
      (persistRequested config.groupId nonce pendingCausalMsgId) ()
      { w with nonces := nonce :: w.nonces })
    (h : post (.ok ()) () { prepared with alive := some nonce }) :
    Task.Feasible (commits config decode admits) [] post
      (startPair config.groupId pendingCausalMsgId) () w := by
  refine feasible_ask none (hall _ _ trivial) ⟨rfl, by simp⟩ ?_
  refine Task.feasible_bind (feasible_orFail true (hall _ _ trivial) ⟨rfl, fun _ => hasleep⟩ rfl ?_)
  refine feasible_ask nonce (hall _ _ trivial) ⟨hnonce.1, hnonce.2, hfresh, rfl⟩ ?_
  refine Task.feasible_bind (feasible_orFail true (hall _ _ trivial) rfl rfl ?_)
  refine Task.feasible_bind (feasible_ask (some []) (hall _ _ trivial) ⟨rfl, ?_⟩ ?_)
  · rintro _ ⟨⟩
    simp [hpending]
  · refine Task.feasible_pure ?_
    refine Task.feasible_bind (hprepared.mono ?_)
    rintro out _ _ ⟨rfl, rfl⟩
    exact feasible_orFail true (hall _ _ trivial) rfl rfl h

end Desktop
end Buzz
