import Buzz.CausalDesktopSafety
import Buzz.CausalRuns

/-!
# At most one turn for a message

Both programs keep to the discipline, so every run keeps the invariant of the
artefacts: a message is given to the ACP operation again only after silent
turns, and no harness ends because of a file that one of the programs wrote.

All this rests on the desktop's second look at a tombstone not ending in an I/O
error. When it does, the desktop removes a handoff that a running harness may
already hold; the runs at the end show what follows.
-/

namespace Buzz

open EffectProgram

variable {config : Config} {decode : EnvelopeDecoder}

/-- Nothing has run and there are no handoffs and no tombstones. -/
structure Initial (pool : CausalPool) : Prop where
  pending : pool.world.pending = fun _ => none
  completed : pool.world.completed = fun _ => none
  entries : pool.world.entries = []
  asleep : pool.world.alive = none
  unique : UniqueRows pool.world.rows
  threads : ∀ thread, pool.threads thread = none

theorem launchesSafe : (causalDiscipline config decode).LaunchesSafe := by
  intro thread w p hw hlaunch
  cases hlaunch with
  | desktop _ pendingCausalMsgId =>
      refine (Desktop.safe_startPair pendingCausalMsgId hw).program ?_ ?_
      · exact fun _ _ _ _ => trivial
      · exact fun _ _ _ _ => trivial
  | harness _ nonce rounds halive =>
      refine (safe_asyncMain ⟨config, decode, nonce, ""⟩ rounds hw halive).program ?_ ?_
      · rintro value m u - error ⟨⟩
      · rintro error m u honly _ ⟨⟩
        exact honly

theorem Initial.holds {pool : CausalPool} (h : Initial pool) :
    (causalDiscipline config decode).Holds pool where
  valid :=
    { record := by simp [h.pending]
      tombstone := by simp [h.completed]
      spent := by simp [CausalWorld.AllSilent, h.entries]
      once := by simp [AtMostOnce, h.entries]
      bound := by simp [h.asleep]
      alive := by simp [h.asleep]
      watermark := by simp [CausalWorld.Executing, h.pending]
      unique := h.unique }
  safe := by simp [h.threads]

namespace DirectedScene

variable (scene : DirectedScene config decode)
  {admits : (request : CausalRequest) → request.Reply → Prop} (hall : Admits admits)
  {nonce : String} {start pool : CausalPool}

/-- The world once a harness with this nonce has been spawned. -/
def spawned (nonce : String) (w : CausalWorld) : CausalWorld :=
  { w with nonces := nonce :: w.nonces, alive := some nonce }

/-- What the runs below start a desktop operation from. -/
structure Ready (nonce : String) (pool : CausalPool) : Prop where
  hex : IsLowerHex 32 nonce
  fresh : nonce ∉ pool.world.nonces
  asleep : pool.world.alive = none
  pending : pool.world.pending = fun _ => none
  idle : pool.threads .desktop = none

/-- One operation of the desktop from its start to its end. -/
theorem reach_desktop {pendingCausalMsgId : Option String} {target : CausalWorld}
    (hreach : PoolReach (causalSystem config decode admits) start pool)
    (hidle : pool.threads .desktop = none)
    (h : Task.Feasible (Desktop.commits config decode admits) [] (fun _ _ v => v = target)
      (Desktop.startPair config.groupId pendingCausalMsgId) () pool.world) :
    PoolReach (causalSystem config decode admits) start ⟨target, pool.threads⟩ := by
  have hlaunch : (causalSystem config decode admits).launches .desktop pool.world
      (Desktop.startPair config.groupId pendingCausalMsgId ()) := .desktop _ _
  have hprogram : Feasible ((causalSystem config decode admits).commits .desktop)
      (fun _ v => v = target) [] (Desktop.startPair config.groupId pendingCausalMsgId ())
      pool.world := h.program
  obtain ⟨value, v, rfl, hstopped⟩ := hreach.visit hidle hlaunch hprogram
  exact hstopped _ rfl

omit scene in
include hall in
theorem reach_spawned (hreach : PoolReach (causalSystem config decode admits) start pool)
    (h : Ready nonce pool) :
    PoolReach (causalSystem config decode admits) start
      ⟨spawned nonce pool.world, pool.threads⟩ := by
  apply reach_desktop hreach h.idle
  exact Desktop.feasible_startPair_asleep hall h.asleep h.pending h.hex h.fresh none _
    (Task.feasible_pure ⟨rfl, rfl⟩) rfl

include hall in
theorem reach_spawned_withHandoff
    (hreach : PoolReach (causalSystem config decode admits) start pool) (h : Ready nonce pool)
    (hopen : pool.world.completed scene.row.msgId = none) :
    PoolReach (causalSystem config decode admits) start
      ⟨scene.withHandoff nonce (spawned nonce pool.world), pool.threads⟩ := by
  have hpersist : Task.Feasible (Desktop.commits config decode admits) []
      (fun out _ v => out = .ok () ∧
        v = scene.withHandoff nonce { pool.world with nonces := nonce :: pool.world.nonces })
      (Desktop.persistRequested config.groupId nonce (some scene.row.msgId)) ()
      { pool.world with nonces := nonce :: pool.world.nonces } := by
    refine Desktop.feasible_persist_created scene hall h.hex hopen (by simp [h.pending]) ?_
    exact Task.feasible_bind (Task.feasible_result (Desktop.feasible_notCompleted hall hopen
      (Task.feasible_pure ⟨rfl, rfl⟩)))
  apply reach_desktop hreach h.idle
  exact Desktop.feasible_startPair_asleep hall h.asleep h.pending h.hex h.fresh _ _ hpersist rfl

include hall in
/-- A harness that finds the handoff of the row enters its turn. -/
theorem reach_entered (hreach : PoolReach (causalSystem config decode admits) start pool)
    (hnonce : IsLowerHex 32 nonce) (hn : pool.world.alive = some nonce)
    (hrows : pool.world.rows = scene.rows)
    (hopen : pool.world.completed scene.row.msgId = none)
    (hmark : pool.world.watermark ≠ none)
    (hpending : pool.world.pending = Function.update (fun _ => none) scene.row.msgId
      (some (scene.handoff nonce .pending)))
    (hidle : pool.threads .harness = none) :
    ∃ q v, PoolReach (causalSystem config decode admits) start
      ⟨v, Function.update pool.threads .harness (some q)⟩ ∧ scene.Entered nonce pool.world v := by
  obtain ⟨lastSeenId, hmark⟩ := Option.ne_none_iff_exists'.mp hmark
  have hrun : Task.Feasible (harnessCommits config decode admits)
      [Pause.kill (scene.Entered nonce pool.world)]
      (fun out _ _ => ∃ error, out = .error error ∧ True) (asyncMain ⟨config, decode, nonce, ""⟩ 1)
      ⟨0, ConversationContext.empty⟩ pool.world :=
    scene.feasible_asyncMain hall hn hrows hmark fun _ =>
      scene.feasible_reconcile_kill hall hn hrows hnonce hopen hpending
  have hlaunch : (causalSystem config decode admits).launches .harness pool.world
      (asyncMain ⟨config, decode, nonce, ""⟩ 1 ⟨0, ConversationContext.empty⟩) :=
    .harness _ nonce 1 hn
  have hprogram : Feasible ((causalSystem config decode admits).commits .harness)
      (fun out _ => ∃ error, out.1 = .error error ∧ True)
      [Pause.kill (scene.Entered nonce pool.world)]
      (asyncMain ⟨config, decode, nonce, ""⟩ 1 ⟨0, ConversationContext.empty⟩) pool.world :=
    hrun.program
  obtain ⟨q, v, hreach', hentered, -⟩ := hreach.launch_interrupt hidle hlaunch hprogram
  exact ⟨q, v, hreach', hentered⟩

include hall in
/-- The desktop is launched and leaves its handoff for the running harness. -/
theorem reach_offered (hreach : PoolReach (causalSystem config decode admits) start pool)
    (hadmitted : ∀ request answer, admits request answer)
    (hn : pool.world.alive = some nonce) (hnonce : IsLowerHex 32 nonce)
    (hopen : pool.world.completed scene.row.msgId = none)
    (hpending : pool.world.pending scene.row.msgId = none)
    (hidle : pool.threads .desktop = none) (meanwhile : CausalWorld → Prop) :
    ∃ q, PoolReach (causalSystem config decode admits) start
      ⟨scene.withHandoff nonce pool.world, Function.update pool.threads .desktop (some q)⟩ ∧
      ∀ u, meanwhile u → Feasible ((causalSystem config decode admits).commits .desktop)
        (fun _ v => ∃ u, meanwhile u ∧ v = u.setPending scene.row.msgId none) [] q u := by
  have hlaunch : (causalSystem config decode admits).launches .desktop pool.world
      (Desktop.startPair config.groupId (some scene.row.msgId) ()) := .desktop _ _
  have hprogram : Feasible ((causalSystem config decode admits).commits .desktop)
      (fun _ v => ∃ u, meanwhile u ∧ v = u.setPending scene.row.msgId none)
      [⟨fun v => v = scene.withHandoff nonce pool.world, fun _ => meanwhile⟩]
      (Desktop.startPair config.groupId (some scene.row.msgId) ()) pool.world :=
    (Desktop.feasible_startPair_removed scene hall hadmitted hn hnonce hopen hpending
      meanwhile).program
  obtain ⟨q, v, hreach', rfl, hlater⟩ := hreach.launch_interrupt hidle hlaunch hprogram
  exact ⟨q, hreach', hlater⟩

include hall in
/-- The desktop starts a harness for the message and the harness enters the turn. -/
theorem reach_started (hreach : PoolReach (causalSystem config decode admits) start pool)
    (h : Ready nonce pool) (hrows : pool.world.rows = scene.rows)
    (hopen : pool.world.completed scene.row.msgId = none) (hmark : pool.world.watermark ≠ none)
    (hidle : pool.threads .harness = none) :
    ∃ final : CausalPool, PoolReach (causalSystem config decode admits) start final ∧
      final.world.entries = pool.world.entries ++ [⟨scene.row.msgId, .unfinished⟩] := by
  have hpending : (scene.withHandoff nonce (spawned nonce pool.world)).pending =
      Function.update (fun _ => none) scene.row.msgId (some (scene.handoff nonce .pending)) :=
    congrArg (fun pending => Function.update pending _ _) h.pending
  obtain ⟨q, v, hreach', lastSeenId, verdicts, rfl⟩ := scene.reach_entered hall
    (scene.reach_spawned_withHandoff hall hreach h hopen) h.hex rfl hrows hopen hmark hpending hidle
  exact ⟨_, hreach', rfl⟩

theorem reach_bothStopped {d : Program CausalRequest CausalRequest.Reply
    CausalThread.desktop.Result}
    {h : Program CausalRequest CausalRequest.Reply CausalThread.harness.Result}
    (hreach : PoolReach (causalSystem config decode admits) start pool)
    (hdesktop : pool.threads .desktop = some d) (hharness : pool.threads .harness = some h) :
    PoolReach (causalSystem config decode admits) start
      ⟨{ pool.world with alive := none }, fun _ => none⟩ := by
  have hkilled : PoolStep (causalSystem config decode admits) pool
      ⟨{ pool.world with alive := none }, Function.update pool.threads .harness none⟩ :=
    .stop hharness rfl
  have hdone : PoolStep (causalSystem config decode admits)
      ⟨{ pool.world with alive := none }, Function.update pool.threads .harness none⟩
      ⟨{ pool.world with alive := none },
        Function.update (Function.update pool.threads .harness none) .desktop none⟩ :=
    .stop hdesktop rfl
  have hthreads : Function.update (Function.update pool.threads .harness none) .desktop none =
      fun _ => none := by
    funext thread
    cases thread <;> rfl
  rw [hthreads] at hdone
  exact (hreach.step hkilled).step hdone

/-- A pool in which the runs below start. -/
structure Quiet (pool : CausalPool) : Prop where
  initial : Initial pool
  rows : pool.world.rows = scene.rows
  watermark : pool.world.watermark ≠ none

variable {scene}

theorem Quiet.open (h : scene.Quiet pool) (msgId : String) : pool.world.completed msgId = none := by
  rw [h.initial.completed]

theorem Quiet.ready (h : scene.Quiet pool) (hnonce : IsLowerHex 32 nonce)
    (hfresh : nonce ∉ pool.world.nonces) : Ready nonce pool :=
  ⟨hnonce, hfresh, h.initial.asleep, h.initial.pending, h.initial.threads .desktop⟩

variable (scene)

/-- The turn was entered, and then both the harness and the handoff were gone. -/
def dropped (nonce : String) (lastSeenId : ℤ) (verdicts : List (HistoryRow × Bool))
    (w : CausalWorld) : CausalWorld :=
  { w with
    watermark := some lastSeenId
    entries := [⟨scene.row.msgId, .unfinished⟩]
    verdicts := verdicts
    nonces := nonce :: w.nonces }

/-- A second look that fails while the harness is in the turn leaves no handoff
behind when the harness is killed. -/
theorem reach_dropped (hquiet : scene.Quiet pool) (hnonce : IsLowerHex 32 nonce)
    (hfresh : nonce ∉ pool.world.nonces) :
    ∃ lastSeenId verdicts, PoolReach (causalSystem config decode fun _ _ => True) pool
      ⟨scene.dropped nonce lastSeenId verdicts pool.world, pool.threads⟩ := by
  have hall : Admits fun _ _ => True := fun _ _ _ => trivial
  have hpending := hquiet.initial.pending
  have hidle := hquiet.initial.threads
  have hpending' : (scene.withHandoff nonce (spawned nonce pool.world)).pending =
      Function.update (fun _ => none) scene.row.msgId (some (scene.handoff nonce .pending)) :=
    congrArg (fun pending => Function.update pending _ _) hpending
  -- a harness is spawned, the desktop leaves the handoff for it and the harness enters the turn
  obtain ⟨d, hoffered, hremove⟩ := scene.reach_offered hall
    (reach_spawned hall .refl (hquiet.ready hnonce hfresh)) (fun _ _ => trivial) rfl hnonce
    (hquiet.open _) (congrFun hpending _) (hidle .desktop)
    (scene.Entered nonce (scene.withHandoff nonce (spawned nonce pool.world)))
  obtain ⟨h, v, hentered, hturn⟩ := scene.reach_entered hall hoffered hnonce rfl hquiet.rows
    (hquiet.open _) hquiet.watermark hpending' (hidle .harness)
  -- the second look fails, the handoff is removed and the harness is killed
  obtain ⟨value, _, hremoved, u, ⟨lastSeenId, verdicts, rfl⟩, rfl⟩ :=
    hentered.finish rfl (hremove v hturn)
  have hstopped := reach_bothStopped hremoved rfl rfl
  have hempty : Function.update pool.world.pending scene.row.msgId none = pool.world.pending := by
    rw [← congrFun hpending scene.row.msgId, Function.update_eq_self]
  refine ⟨lastSeenId, verdicts, ?_⟩
  simp only [CausalWorld.setPending, withHandoff, spawned, Function.update_idem, hempty,
    hquiet.initial.entries, List.nil_append] at hstopped
  have hthreads : pool.threads = fun _ => none := funext hidle
  simpa only [dropped, hthreads, ← hquiet.initial.asleep] using hstopped

/-- After a restart the message is given to the ACP operation again. -/
theorem entersTwice {first second : String} (hquiet : scene.Quiet pool)
    (hfirst : IsLowerHex 32 first) (hsecond : IsLowerHex 32 second) (hne : second ≠ first)
    (hfresh : first ∉ pool.world.nonces) (hfresh' : second ∉ pool.world.nonces) :
    ∃ final : CausalPool, PoolReach (causalSystem config decode fun _ _ => True) pool final ∧
      final.world.entries =
        [⟨scene.row.msgId, .unfinished⟩, ⟨scene.row.msgId, .unfinished⟩] := by
  obtain ⟨lastSeenId, verdicts, hdropped⟩ := scene.reach_dropped hquiet hfirst hfresh
  exact scene.reach_started (fun _ _ _ => trivial) hdropped
    ⟨hsecond, by simp [dropped, hne, hfresh'], hquiet.initial.asleep, hquiet.initial.pending,
      hquiet.initial.threads .desktop⟩ hquiet.rows (hquiet.open _) (Option.some_ne_none _)
    (hquiet.initial.threads .harness)

theorem withHandoff_removed {w : CausalWorld} (hpending : w.pending = fun _ => none) :
    (scene.withHandoff nonce w).setPending scene.row.msgId none = w := by
  have hempty : Function.update w.pending scene.row.msgId none = w.pending := by
    rw [← congrFun hpending scene.row.msgId, Function.update_eq_self]
  simp only [withHandoff, CausalWorld.setPending, Function.update_idem, hempty]

/-- The same failure while the harness stages the row: the harness ends because of a
file that the desktop wrote. -/
theorem wedges (hquiet : scene.Quiet pool) (hnonce : IsLowerHex 32 nonce)
    (hfresh : nonce ∉ pool.world.nonces) (hfirst : scene.older = [])
    (habove : ∀ lastSeenId, pool.world.watermark = some lastSeenId → lastSeenId < scene.row.id) :
    ∃ (final : CausalPool) (memory : HarnessMemory),
      PoolReach (causalSystem config decode fun _ _ => True) pool final ∧
      final.threads .harness = some (.pure
        (.error (.pendingCausalInvalid (.pendingFile scene.row.msgId)), memory)) := by
  have hall : Admits fun _ _ => True := fun _ _ _ => trivial
  have hpending := hquiet.initial.pending
  have hidle := hquiet.initial.threads
  have hn : (spawned nonce pool.world).alive = some nonce := rfl
  have hpending' : ((spawned nonce pool.world).recordVerdict scene.row true).pending =
      fun _ => none := hpending
  obtain ⟨lastSeenId, hmark⟩ := Option.ne_none_iff_exists'.mp hquiet.watermark
  -- the harness scans the row and is about to stage it
  have hrun : Task.Feasible (harnessCommits config decode fun _ _ => True)
      (scene.createdAndRemoved nonce ((spawned nonce pool.world).recordVerdict scene.row true))
      (fun out _ _ => ∃ error, out = .error error ∧
        error = .pendingCausalInvalid (.pendingFile scene.row.msgId))
      (asyncMain ⟨config, decode, nonce, ""⟩ 1) ⟨0, ConversationContext.empty⟩
      (spawned nonce pool.world) := by
    refine scene.feasible_asyncMain hall hn hquiet.rows hmark fun context => ?_
    refine (scene.feasible_reconcile_removed hall hn hquiet.rows hnonce (hquiet.open _) hpending
      (habove lastSeenId hmark) hfirst).mono ?_
    rintro out m u ⟨halive, rfl⟩
    exact ⟨halive, _, rfl, rfl, rfl⟩
  have hlaunch : (causalSystem config decode fun _ _ => True).launches .harness
      (spawned nonce pool.world)
      (asyncMain ⟨config, decode, nonce, ""⟩ 1 ⟨0, ConversationContext.empty⟩) :=
    .harness _ nonce 1 hn
  have hprogram : Feasible ((causalSystem config decode fun _ _ => True).commits .harness)
      (fun out _ => ∃ error, out.1 = .error error ∧
        error = .pendingCausalInvalid (.pendingFile scene.row.msgId))
      (scene.createdAndRemoved nonce ((spawned nonce pool.world).recordVerdict scene.row true))
      (asyncMain ⟨config, decode, nonce, ""⟩ 1 ⟨0, ConversationContext.empty⟩)
      (spawned nonce pool.world) := hrun.program
  obtain ⟨q, _, hscanned, rfl, hstage⟩ := (reach_spawned hall .refl
    (hquiet.ready hnonce hfresh)).launch_interrupt (hidle .harness) hlaunch hprogram
  -- the desktop creates the handoff, the harness finds it, the desktop removes it
  obtain ⟨d, hoffered, hremove⟩ := scene.reach_offered hall hscanned (fun _ _ => trivial) rfl
    hnonce (hquiet.open _) (congrFun hpending _) (hidle .desktop)
    (fun u => u = scene.withHandoff nonce ((spawned nonce pool.world).recordVerdict scene.row true))
  obtain ⟨q', _, hfound, rfl, hload⟩ := hoffered.interrupt rfl (hstage _ rfl)
  obtain ⟨value, _, hremoved, u, rfl, rfl⟩ := hfound.finish rfl (hremove _ rfl)
  rw [scene.withHandoff_removed hpending'] at hremoved
  obtain ⟨⟨result, memory⟩, v, hended, error, rfl, rfl⟩ := hremoved.finish rfl (hload _ rfl)
  exact ⟨_, memory, hended, rfl⟩

end DirectedScene

/-- One directed row and nothing else, at a watermark below it. -/
def mentionPool : CausalPool where
  world :=
    { watermark := some 0
      pending := fun _ => none
      completed := fun _ => none
      rows := [siblingRow]
      entries := []
      verdicts := []
      alive := none
      nonces := [] }
  threads := fun _ => none

def mentionDecoder : EnvelopeDecoder := fun payload =>
  if payload = siblingRow.payload then some siblingEnvelope else none

theorem shouldTrigger_mention (row : HistoryRow) (hrow : row.isVerifiedInbound "stable" = true)
    (hauthor : row.authorAgent = some (repeatText 'c' 64)) (context : ConversationContext) :
    shouldTrigger (guideConfig .anyone) "stable" row siblingEnvelope context = true := by
  rw [shouldTrigger_iff]
  refine ⟨repeatText 'c' 64, hauthor, hrow, ?_⟩
  simp [eqIgnoreAsciiCase, Config.authorAllowed, guideConfig, siblingEnvelope]

def mentionScene : DirectedScene (guideConfig .anyone) mentionDecoder where
  stableGroupId := "stable"
  row := siblingRow
  older := []
  envelope := siblingEnvelope
  scope := by simp [siblingRow]
  newest := by simp
  decodes := by simp [HistoryRow.envelope, mentionDecoder]
  unrooted := rfl
  held := shouldTrigger_mention siblingRow (by decide) rfl
  hex := isAgentId_repeatText '3' rfl rfl

theorem initial_mentionPool : Initial mentionPool where
  pending := rfl
  completed := rfl
  entries := rfl
  asleep := rfl
  unique := by simp [UniqueRows, mentionPool]
  threads := fun _ => rfl

theorem quiet_mentionPool : mentionScene.Quiet mentionPool :=
  ⟨initial_mentionPool, rfl, Option.some_ne_none _⟩

theorem isLowerHex_repeatText (c : Char) (hhex : isAsciiHexdigit c = true)
    (hlower : c.toLower = c) : IsLowerHex 32 (repeatText c 32) :=
  ⟨(isHexText_repeatText c 31).trans hhex, by rw [toAsciiLowercase_repeatText, hlower]⟩

/-- Without a failing second look the directed row is entered once. -/
theorem reach_mentionEntered :
    ∃ pool : CausalPool, PoolReach (causalSystem (guideConfig .anyone) mentionDecoder RecheckReads)
      mentionPool pool ∧ pool.world.entries = [⟨siblingRow.msgId, .unfinished⟩] :=
  mentionScene.reach_started (fun _ _ hread => hread) .refl
    (quiet_mentionPool.ready (isLowerHex_repeatText 'a' rfl rfl) (by simp [mentionPool])) rfl rfl
    (Option.some_ne_none _) rfl

/-- A message is entered again only after silent turns. Once it is completed, or the
harness that executed it is gone, it is not entered again at all. -/
theorem atMostOnce_of_reach {start pool later : CausalPool} (hstart : Initial start)
    (hreach : PoolReach (causalSystem config decode RecheckReads) start pool)
    (hlater : PoolReach (causalSystem config decode RecheckReads) pool later) :
    AtMostOnce pool.world.entries ∧ ∀ msgId, pool.world.Frozen msgId →
      later.world.entriesOf msgId = pool.world.entriesOf msgId := by
  have hholds : (causalDiscipline config decode).Holds pool :=
    hstart.holds.reach launchesSafe hreach
  refine ⟨hholds.valid.once, fun msgId hfrozen => ?_⟩
  have hchange : StaysFrozen pool.world later.world :=
    hholds.reach_change launchesSafe staysFrozen_trans hlater
  exact (hchange msgId hfrozen).2

theorem atMostOnce_mention :
    Initial mentionPool ∧ ∃ pool : CausalPool,
      PoolReach (causalSystem (guideConfig .anyone) mentionDecoder RecheckReads) mentionPool pool ∧
      pool.world.entries = [⟨siblingRow.msgId, .unfinished⟩] ∧ AtMostOnce pool.world.entries := by
  obtain ⟨pool, hreach, hentries⟩ := reach_mentionEntered
  exact ⟨initial_mentionPool, pool, hreach, hentries,
    (atMostOnce_of_reach initial_mentionPool hreach .refl).1⟩

/-- When the second look fails, the row is given to the ACP operation twice although
its first turn did not end silently. -/
theorem mention_enteredTwice :
    Initial mentionPool ∧ ∃ pool : CausalPool,
      PoolReach (causalSystem (guideConfig .anyone) mentionDecoder fun _ _ => True) mentionPool
        pool ∧ ¬AtMostOnce pool.world.entries := by
  obtain ⟨pool, hreach, hentries⟩ := mentionScene.entersTwice quiet_mentionPool
    (isLowerHex_repeatText 'a' rfl rfl) (isLowerHex_repeatText 'b' rfl rfl) (by simp)
    (by simp [mentionPool]) (by simp [mentionPool])
  refine ⟨initial_mentionPool, pool, hreach, ?_⟩
  rw [hentries]
  simp [AtMostOnce]

/-- No harness ends because of a handoff or a tombstone that one of the programs
wrote, and the watermark covers the row of every executing handoff. -/
theorem neverWedged_of_reach {start pool : CausalPool} (hstart : Initial start)
    (hreach : PoolReach (causalSystem config decode RecheckReads) start pool) :
    (∀ error memory, pool.threads .harness = some (.pure (.error error, memory)) →
      OnlyMalformedIds error) ∧
    ∀ msgId, pool.world.Executing msgId → ∃ lastSeenId, pool.world.watermark = some lastSeenId ∧
      ∃ row ∈ pool.world.rows, toAsciiLowercase row.msgId = msgId ∧ row.id ≤ lastSeenId := by
  have hholds : (causalDiscipline config decode).Holds pool :=
    hstart.holds.reach launchesSafe hreach
  refine ⟨fun error memory hthread => ?_, hholds.valid.watermark⟩
  have hpost := hholds.post hthread
  exact hpost error rfl

theorem neverWedged_mention :
    Initial mentionPool ∧ ∃ pool : CausalPool,
      PoolReach (causalSystem (guideConfig .anyone) mentionDecoder RecheckReads) mentionPool pool ∧
      pool.world.entries = [⟨siblingRow.msgId, .unfinished⟩] ∧
      ∀ error memory, pool.threads .harness = some (.pure (.error error, memory)) →
        OnlyMalformedIds error := by
  obtain ⟨pool, hreach, hentries⟩ := reach_mentionEntered
  exact ⟨initial_mentionPool, pool, hreach, hentries,
    (neverWedged_of_reach initial_mentionPool hreach).1⟩

/-- When the second look fails while the harness stages the row, the harness ends
because of the file that the desktop created. -/
theorem mention_wedged :
    Initial mentionPool ∧ ∃ (pool : CausalPool) (memory : HarnessMemory),
      PoolReach (causalSystem (guideConfig .anyone) mentionDecoder fun _ _ => True) mentionPool
        pool ∧
      pool.threads .harness = some (.pure
        (.error (.pendingCausalInvalid (.pendingFile siblingRow.msgId)), memory)) ∧
      isHexText 64 siblingRow.msgId = true := by
  obtain ⟨pool, memory, hreach, hthread⟩ := mentionScene.wedges quiet_mentionPool
    (isLowerHex_repeatText 'a' rfl rfl) (by simp [mentionPool]) rfl (by
      rintro lastSeenId ⟨⟩
      decide)
  exact ⟨initial_mentionPool, pool, memory, hreach, hthread, mentionScene.hex.1⟩

end Buzz
