import Buzz.TurnReplay

/-!
# The order in which frames arrive

Each frame that arrives is put in its place and the whole buffer is read again. All
but the new frame lie behind the watermark, so the buffer does what the new frame
does alone: a frame that comes after a newer one is never read.
-/

namespace Buzz.AgentTurns

open WebText

section Arriving

variable (platform : Platform)

/-- The events in the order of their times. -/
def sortedBuffer (received : List ObserverEvent) : List ObserverEvent :=
  received.mergeSort fun first second => decide (compareObserverEvents platform first second ≤ 0)

/-- An event arrives, and the buffer of all events received so far is synced. -/
def arrive (agentPubkey : String) (state : List ObserverEvent × TurnsStore)
    (arrival : ObserverEvent × ℤ) : List ObserverEvent × TurnsStore :=
  (state.1 ++ [arrival.1],
    syncAgentTurnsFromEvents platform agentPubkey
      ((sortedBuffer platform (state.1 ++ [arrival.1])).map fun event => (event, arrival.2))
        state.2)

def arriveAll (agentPubkey : String) (arrivals : List (ObserverEvent × ℤ)) : TurnsStore :=
  (arrivals.foldl (arrive platform agentPubkey) ([], emptyStore)).2

/-- One sync of the events, each at a time of its own. -/
def syncOnce (agentPubkey : String) (clock : ObserverEvent → ℤ) (events : List ObserverEvent) :
    TurnsStore :=
  syncAgentTurnsFromEvents platform agentPubkey (events.map fun event => (event, clock event))
    emptyStore

/-- The open turns of an agent: their keys, channels and starts. -/
def openTurns (s : TurnsStore) (agentKey : String) : List (String × String × ℤ) :=
  ((s.activeTurnsByAgent.get? agentKey).map fun turns =>
    turns.entries.map fun entry => (entry.1, entry.2.channelId, entry.2.startedAt)).getD []

/-- The events that are newer than all before them. -/
def newest (last : Option ObserverEvent) : List ObserverEvent → List ObserverEvent
  | [] => []
  | event :: events =>
      if last.all fun last => decide (0 < compareObserverEvents platform event last) then
        event :: newest (some event) events
      else newest last events

end Arriving

section Arrivals

variable {platform : Platform} {agentPubkey : String} {s : TurnsStore}

/-- A buffer of which only one event is new does what that event does. -/
theorem sync_of_one_new {event : ObserverEvent} {now : ℤ} (hmarks : MarksTimed platform s)
    (htimed : Timed platform event) (events : List (ObserverEvent × ℤ))
    (hall : ∀ read ∈ events, Timed platform read.1)
    (hmem : (event, now) ∈ events)
    (hold : ∀ read ∈ events, read = (event, now) ∨
      Behind platform s (normalizePubkey platform agentPubkey) read.1) :
    syncAgentTurnsFromEvents platform agentPubkey events s =
      processEvent platform agentPubkey event now s := by
  induction events with
  | nil => cases hmem
  | cons read events ih =>
    obtain ⟨hread, hrest⟩ := List.forall_mem_cons.mp hold
    obtain ⟨-, hallRest⟩ := List.forall_mem_cons.mp hall
    have hstep : syncAgentTurnsFromEvents platform agentPubkey (read :: events) s =
        syncAgentTurnsFromEvents platform agentPubkey events
          (processEvent platform agentPubkey read.1 read.2 s) := rfl
    by_cases heq : read = (event, now)
    · -- after the new event everything lies behind the watermark
      rw [hstep, heq]
      apply sync_of_behind
      intro later hlater
      rcases hrest later hlater with rfl | hbehind
      · exact behind_self agentPubkey now
      · exact behind_processEvent hmarks htimed (hallRest later hlater) agentPubkey now hbehind
    · have hbehind := hread.resolve_left heq
      rw [hstep, processEvent_of_behind read.2 hbehind]
      exact ih hallRest ((List.mem_cons.mp hmem).resolve_left (Ne.symm heq)) hrest

theorem arrive_store {received : List ObserverEvent} (hmarks : MarksTimed platform s)
    (hreceived : ∀ seen ∈ received, Timed platform seen ∧
      Behind platform s (normalizePubkey platform agentPubkey) seen)
    {event : ObserverEvent} (now : ℤ) (htimed : Timed platform event) :
    (arrive platform agentPubkey (received, s) (event, now)).2 =
      processEvent platform agentPubkey event now s := by
  have hmem : ∀ seen, seen ∈ sortedBuffer platform (received ++ [event]) ↔
      seen ∈ received ∨ seen = event := by
    intro seen
    rw [sortedBuffer, List.mem_mergeSort, List.mem_append, List.mem_singleton]
  apply sync_of_one_new hmarks htimed
  · rw [List.forall_mem_map]
    intro seen hseen
    rcases (hmem seen).mp hseen with hold | rfl
    · exact (hreceived seen hold).1
    · exact htimed
  · exact List.mem_map.mpr ⟨event, (hmem event).mpr (Or.inr rfl), rfl⟩
  · rw [List.forall_mem_map]
    intro seen hseen
    rcases (hmem seen).mp hseen with hold | rfl
    · exact Or.inr (hreceived seen hold).2
    · exact Or.inl rfl

/-- The arrivals do what the events do one by one, in the order in which they arrive. -/
theorem foldl_arrive_store (arrivals : List (ObserverEvent × ℤ)) :
    ∀ (received : List ObserverEvent) (s : TurnsStore), MarksTimed platform s →
      (∀ seen ∈ received, Timed platform seen ∧
        Behind platform s (normalizePubkey platform agentPubkey) seen) →
      (∀ arrival ∈ arrivals, Timed platform arrival.1) →
      (arrivals.foldl (arrive platform agentPubkey) (received, s)).2 =
        syncAgentTurnsFromEvents platform agentPubkey arrivals s := by
  induction arrivals with
  | nil => exact fun _ _ _ _ _ => rfl
  | cons arrival arrivals ih =>
    intro received s hmarks hreceived htimed
    obtain ⟨hfirst, hrest⟩ := List.forall_mem_cons.mp htimed
    have hstore := arrive_store hmarks hreceived arrival.2 hfirst
    have hstate : arrive platform agentPubkey (received, s) arrival =
        (received ++ [arrival.1], processEvent platform agentPubkey arrival.1 arrival.2 s) :=
      Prod.ext rfl hstore
    rw [List.foldl_cons, hstate]
    refine ih _ _ (marksTimed_processEvent hmarks hfirst agentPubkey arrival.2) ?_ hrest
    intro seen hseen
    rcases List.mem_append.mp hseen with hold | hnew
    · obtain ⟨hread, hbehind⟩ := hreceived seen hold
      exact ⟨hread, behind_processEvent hmarks hfirst hread agentPubkey arrival.2 hbehind⟩
    · rw [List.mem_singleton.mp hnew]
      exact ⟨hfirst, behind_self agentPubkey arrival.2⟩

end Arrivals

section Clocks

variable {platform : Platform} {agentKey : String} {s s' : TurnsStore}
variable {agentPubkey : String} {event : ObserverEvent}

/-- The turns without their last sign of life. -/
def bare (turns : TurnMap) : TurnMap := turns.mapValues fun turn =>
    { turn with lastActivityAt := 0 }

def bareEntry (entry : String × ActiveTurn) : String × ActiveTurn :=
  (entry.1, { entry.2 with lastActivityAt := 0 })

theorem bare_entries (turns : TurnMap) : (bare turns).entries = turns.entries.map bareEntry := rfl

theorem isSome_get?_bare (turns : TurnMap) (turnId : String) :
    ((bare turns).get? turnId).isSome = (turns.get? turnId).isSome := by
  rw [bare, EntryMap.get?_mapValues, Option.isSome_map]

theorem bare_nil_iff (turns : TurnMap) : (bare turns).entries = [] ↔ turns.entries = [] := by
  rw [bare_entries, List.map_eq_nil_iff]

theorem oldestTurn_bare (turns : TurnMap) :
    oldestTurn (bare turns) = (oldestTurn turns).map bareEntry := by
  have hfold : ∀ (entries : List (String × ActiveTurn)) oldest,
      (entries.map bareEntry).foldl olderTurn (Option.map bareEntry oldest) =
        (entries.foldl olderTurn oldest).map bareEntry := by
    intro entries
    induction entries with
    | nil => exact fun _ => rfl
    | cons entry entries ih =>
      intro oldest
      have hstep : olderTurn (oldest.map bareEntry) (bareEntry entry) =
          (olderTurn oldest entry).map bareEntry := by
        cases oldest with
        | none => rfl
        | some held =>
          change (if entry.2.startedAt < held.2.startedAt then some (bareEntry entry)
            else some (bareEntry held)) =
            (if entry.2.startedAt < held.2.startedAt then some entry else some held).map bareEntry
          split_ifs <;> rfl
      rw [List.map_cons, List.foldl_cons, List.foldl_cons, hstep, ih]
  exact hfold turns.entries none

theorem evictOldest_bare (turns : TurnMap) (turnId : String) :
    evictOldest (bare turns) turnId = bare (evictOldest turns turnId) := by
  have hlength : (bare turns).entries.length = turns.entries.length := List.length_map _
  have hnone : ((bare turns).get? turnId).isNone = (turns.get? turnId).isNone := by
    rw [bare, EntryMap.get?_mapValues, Option.isNone_map]
  have holdest : (oldestTurn (bare turns)).map Prod.fst = (oldestTurn turns).map Prod.fst := by
    rw [oldestTurn_bare, Option.map_map]
    rfl
  unfold evictOldest
  rw [hlength, hnone, holdest]
  split_ifs
  · cases truthy ((oldestTurn turns).map Prod.fst) with
    | none => rfl
    | some oldest => exact (EntryMap.mapValues_erase _ _ _).symm
  · rfl

theorem turnInChannel_bare (turns : TurnMap) (channelId : String) :
    turnInChannel (bare turns) channelId = (turnInChannel turns channelId).map bareEntry := by
  rw [turnInChannel, bare_entries, List.find?_map]
  rfl

/-- Two stores in which an agent has the same turns, tombstones and watermark. -/
structure Alike (agentKey : String) (s s' : TurnsStore) : Prop where
  turns : (s.activeTurnsByAgent.get? agentKey).map bare =
    (s'.activeTurnsByAgent.get? agentKey).map bare
  terminals : s.terminalAtByAgent.get? agentKey = s'.terminalAtByAgent.get? agentKey
  marks : s.lastProcessed.get? agentKey = s'.lastProcessed.get? agentKey

theorem Alike.refl (agentKey : String) (s : TurnsStore) : Alike agentKey s s := ⟨rfl, rfl, rfl⟩

theorem Alike.cases (h : Alike agentKey s s') :
    s.activeTurnsByAgent.get? agentKey = none ∧ s'.activeTurnsByAgent.get? agentKey = none ∨
      ∃ turns turns', s.activeTurnsByAgent.get? agentKey = some turns ∧
        s'.activeTurnsByAgent.get? agentKey = some turns' ∧ bare turns = bare turns' := by
  have hturns := h.turns
  cases hget : s.activeTurnsByAgent.get? agentKey with
  | none =>
    rw [hget] at hturns
    exact Or.inl ⟨rfl, Option.map_eq_none_iff.mp hturns.symm⟩
  | some turns =>
    rw [hget] at hturns
    obtain ⟨turns', hget', hbare⟩ := Option.map_eq_some_iff.mp hturns.symm
    exact Or.inr ⟨turns, turns', rfl, hget', hbare.symm⟩

theorem alike_startTurn {agentPubkey channelId turnId timestamp : String} {now now' : ℤ}
    (h : Alike (normalizePubkey platform agentPubkey) s s')
    (htimed : (platform.dateParse timestamp).isSome = true) :
    Alike (normalizePubkey platform agentPubkey)
      (startTurn platform agentPubkey channelId turnId timestamp now s)
      (startTurn platform agentPubkey channelId turnId timestamp now' s') := by
  obtain ⟨startedAt, hstarted⟩ := Option.isSome_iff_exists.mp htimed
  have hget : ∀ (t : TurnsStore) (clock : ℤ),
      ((startTurn platform agentPubkey channelId turnId timestamp clock t).activeTurnsByAgent.get?
          (normalizePubkey platform agentPubkey)).map bare =
        some ((evictOldest
          (bare ((t.activeTurnsByAgent.get? (normalizePubkey platform agentPubkey)).getD
            EntryMap.empty)) turnId).set turnId ⟨turnId, channelId, startedAt, 0⟩) := by
    intro t clock
    have hset := EntryMap.get?_set t.activeTurnsByAgent (normalizePubkey platform agentPubkey)
      (normalizePubkey platform agentPubkey)
      ((evictOldest ((t.activeTurnsByAgent.get? (normalizePubkey platform agentPubkey)).getD
        EntryMap.empty) turnId).set turnId ⟨turnId, channelId, startedAt, clock⟩)
    rw [if_pos rfl] at hset
    rw [startTurn, hstarted, evictOldest_bare]
    refine (congrArg (Option.map bare) hset).trans ?_
    rw [Option.map_some, bare, EntryMap.mapValues_set]
    rfl
  refine ⟨?_, h.terminals, h.marks⟩
  rw [hget, hget]
  rcases h.cases with ⟨hnone, hnone'⟩ | ⟨turns, turns', hturns, hturns', hbare⟩
  · rw [hnone, hnone']
  · rw [hturns, hturns', Option.getD_some, Option.getD_some, hbare]

theorem alike_recordTerminal (h : Alike agentKey s s') (turnId : String) (terminal : Option ℤ) :
    Alike agentKey (recordTerminal agentKey turnId terminal s)
      (recordTerminal agentKey turnId terminal s') := by
  cases terminal with
  | none => exact h
  | some terminal =>
    refine ⟨h.turns, ?_, h.marks⟩
    have hget : ∀ t : TurnsStore,
        (recordTerminal agentKey turnId (some terminal) t).terminalAtByAgent.get? agentKey =
          some (dropOldest (((t.terminalAtByAgent.get? agentKey).getD EntryMap.empty).set turnId
            terminal)) := fun t => (EntryMap.get?_set _ _ _ _).trans (if_pos rfl)
    rw [hget, hget, h.terminals]

theorem alike_putTurns {turns turns' : TurnMap} (h : Alike agentKey s s')
    (hbare : bare turns = bare turns') :
    Alike agentKey (invalidateCache agentKey (putTurns agentKey turns s))
      (invalidateCache agentKey (putTurns agentKey turns' s')) := by
  refine ⟨?_, h.terminals, h.marks⟩
  change ((putTurns agentKey turns s).activeTurnsByAgent.get? agentKey).map bare =
    ((putTurns agentKey turns' s').activeTurnsByAgent.get? agentKey).map bare
  rw [get?_putTurns, get?_putTurns, if_pos rfl, if_pos rfl]
  have hempty : turns.entries = [] ↔ turns'.entries = [] := by
    rw [← bare_nil_iff, hbare, bare_nil_iff]
  by_cases hnil : turns.entries = []
  · rw [if_pos hnil, if_pos (hempty.mp hnil)]
  · rw [if_neg hnil, if_neg (mt hempty.mpr hnil), Option.map_some, Option.map_some, hbare]

theorem bare_erase {turns turns' : TurnMap} (h : bare turns = bare turns') (turnId : String) :
    bare (turns.erase turnId) = bare (turns'.erase turnId) := by
  rw [bare, EntryMap.mapValues_erase, ← bare, h, bare, ← EntryMap.mapValues_erase, ← bare]

theorem alike_endTurn (h : Alike (normalizePubkey platform agentPubkey) s s')
    (turnId channelId : Option String) (terminal : Option ℤ) :
    Alike (normalizePubkey platform agentPubkey)
      (endTurn platform agentPubkey turnId channelId terminal s)
      (endTurn platform agentPubkey turnId channelId terminal s') := by
  unfold endTurn
  cases truthy turnId with
  | some id =>
    dsimp only
    rw [recordTerminal_activeTurns, recordTerminal_activeTurns]
    have hrecorded := alike_recordTerminal h id terminal
    rcases h.cases with ⟨hnone, hnone'⟩ | ⟨turns, turns', hturns, hturns', hbare⟩
    · rw [hnone, hnone']
      exact hrecorded
    · rw [hturns, hturns']
      exact alike_putTurns hrecorded (bare_erase hbare id)
  | none =>
    dsimp only
    rcases h.cases with ⟨hnone, hnone'⟩ | ⟨turns, turns', hturns, hturns', hbare⟩
    · rw [hnone, hnone']
      exact h
    · rw [hturns, hturns']
      dsimp only
      have hfound : ((truthy channelId).bind (turnInChannel turns)).map bareEntry =
          ((truthy channelId).bind (turnInChannel turns')).map bareEntry := by
        rw [Option.map_bind, Option.map_bind]
        congr 1
        funext channel
        rw [Function.comp_apply, Function.comp_apply, ← turnInChannel_bare, hbare,
          turnInChannel_bare]
      cases hentry : (truthy channelId).bind (turnInChannel turns) with
      | none =>
        rw [hentry] at hfound
        rw [Option.map_eq_none_iff.mp hfound.symm]
        exact alike_putTurns h hbare
      | some entry =>
        rw [hentry] at hfound
        obtain ⟨entry', hentry', hsame⟩ := Option.map_eq_some_iff.mp hfound.symm
        have hkey : (bareEntry entry').1 = (bareEntry entry).1 := congrArg Prod.fst hsame
        change entry'.1 = entry.1 at hkey
        rw [hentry']
        dsimp only
        rw [hkey]
        exact alike_putTurns (alike_recordTerminal h entry.1 terminal) (bare_erase hbare entry.1)

theorem isSome_dateParse_safeStartedAt (htimed : Timed platform event) :
    (platform.dateParse (safeStartedAt platform event)).isSome = true := by
  unfold safeStartedAt
  dsimp only
  split
  · rename_i frameAt startedAtMs hframe hstarted
    split_ifs
    · rw [hstarted]
      rfl
    · exact htimed
  · exact htimed

theorem recordActivity_isSome (platform : Platform) (agentPubkey : String) (turnId : Option String)
    (now : ℤ) (s : TurnsStore) :
    (recordActivity platform agentPubkey turnId now s).isSome =
      ((truthy turnId).bind fun turnId =>
        ((s.activeTurnsByAgent.get? (normalizePubkey platform agentPubkey)).map bare).bind
          fun turns => turns.get? turnId).isSome := by
  unfold recordActivity
  dsimp only
  cases truthy turnId with
  | none => rfl
  | some id =>
    rw [Option.bind_some, Option.bind_some]
    cases s.activeTurnsByAgent.get? (normalizePubkey platform agentPubkey) with
    | none => rfl
    | some turns =>
      rw [Option.bind_some, Option.map_some, Option.bind_some, Option.isSome_map,
        isSome_get?_bare]

/-- A sign of life changes nothing else. -/
theorem alike_refreshed {turnId : Option String} {now : ℤ}
    {refreshed : TurnsStore} (h : recordActivity platform agentPubkey turnId now s =
      some refreshed) :
    Alike (normalizePubkey platform agentPubkey) refreshed s := by
  obtain ⟨id, turns, turn, hturns, hturn, rfl⟩ := recordActivity_eq_some platform agentPubkey now h
  refine ⟨?_, rfl, rfl⟩
  have hset := EntryMap.get?_set s.activeTurnsByAgent (normalizePubkey platform agentPubkey)
    (normalizePubkey platform agentPubkey) (turns.set id { turn with lastActivityAt := now })
  rw [if_pos rfl] at hset
  refine (congrArg (Option.map bare) hset).trans ?_
  rw [hturns, Option.map_some, Option.map_some, bare, EntryMap.mapValues_set]
  congr 1
  apply EntryMap.set_of_get?
  rw [EntryMap.get?_mapValues, hturn]
  rfl

theorem Alike.symm (h : Alike agentKey s s') : Alike agentKey s' s :=
  ⟨h.turns.symm, h.terminals.symm, h.marks.symm⟩

theorem Alike.trans {s'' : TurnsStore} (h : Alike agentKey s s') (h' : Alike agentKey s' s'') :
    Alike agentKey s s'' :=
  ⟨h.turns.trans h'.turns, h.terminals.trans h'.terminals, h.marks.trans h'.marks⟩

theorem alike_resurrectTurn {now now' : ℤ}
    (h : Alike (normalizePubkey platform agentPubkey) s s') (htimed : Timed platform event) :
    Alike (normalizePubkey platform agentPubkey) (resurrectTurn platform agentPubkey event now s)
      (resurrectTurn platform agentPubkey event now' s') := by
  unfold resurrectTurn
  cases truthy event.turnId with
  | none => exact h
  | some turnId =>
    cases truthy event.channelId with
    | none => exact h
    | some channelId =>
      have hterminal : terminalAt s (normalizePubkey platform agentPubkey) turnId =
          terminalAt s' (normalizePubkey platform agentPubkey) turnId :=
            terminalAt_congr h.terminals
      dsimp only
      rw [hterminal]
      split_ifs
      · exact h
      · exact alike_startTurn h (isSome_dateParse_safeStartedAt htimed)

theorem alike_applyEvent {now now' : ℤ}
    (h : Alike (normalizePubkey platform agentPubkey) s s') (htimed : Timed platform event) :
    Alike (normalizePubkey platform agentPubkey) (applyEvent platform agentPubkey event now s)
      (applyEvent platform agentPubkey event now' s') := by
  unfold applyEvent
  split_ifs
  · cases truthy event.channelId with
    | none => exact h
    | some channelId => exact alike_startTurn h htimed
  · exact alike_endTurn h _ _ _
  · have hsome := recordActivity_isSome platform agentPubkey event.turnId now s
    have hsome' := recordActivity_isSome platform agentPubkey event.turnId now' s'
    rw [h.turns, ← hsome'] at hsome
    cases hactivity : recordActivity platform agentPubkey event.turnId now s with
    | none =>
      cases hother : recordActivity platform agentPubkey event.turnId now' s' with
      | none => exact alike_resurrectTurn h htimed
      | some refreshed =>
        rw [hactivity, hother] at hsome
        cases hsome
    | some refreshed =>
      rw [hactivity] at hsome
      obtain ⟨refreshed', hactivity'⟩ := Option.isSome_iff_exists.mp hsome.symm
      rw [hactivity']
      exact (alike_refreshed hactivity).trans (h.trans (alike_refreshed hactivity').symm)
  · exact h

/-- The time at which an event is read does not matter to the turns. -/
theorem alike_processEvent {now now' : ℤ}
    (h : Alike (normalizePubkey platform agentPubkey) s s') (htimed : Timed platform event) :
    Alike (normalizePubkey platform agentPubkey) (processEvent platform agentPubkey event now s)
      (processEvent platform agentPubkey event now' s') := by
  have hpass : passesWatermark platform (normalizePubkey platform agentPubkey) event s =
      passesWatermark platform (normalizePubkey platform agentPubkey) event s' := by
    rw [passesWatermark, h.marks, passesWatermark]
  have hsampled : ∀ (t : TurnsStore) (clock : ℤ), Alike (normalizePubkey platform agentPubkey)
      (sampleClockOffset platform (normalizePubkey platform agentPubkey) event.timestamp clock t)
      t := by
    intro t clock
    obtain ⟨hactive, hterminals, hmarks, -⟩ := sampleClockOffset_fields
      (normalizePubkey platform agentPubkey) t platform event.timestamp clock
    exact ⟨by rw [hactive], by rw [hterminals], by rw [hmarks]⟩
  unfold processEvent
  dsimp only
  rw [hpass]
  split_ifs
  · apply alike_applyEvent _ htimed
    refine (hsampled _ _).trans (Alike.trans ?_ (hsampled _ _).symm)
    refine ⟨h.turns, h.terminals, ?_⟩
    exact (EntryMap.get?_set _ _ _ _).trans
      ((if_pos rfl).trans ((if_pos rfl).symm.trans (EntryMap.get?_set _ _ _ _).symm))
  · exact h

theorem alike_sync (reads : List (ObserverEvent × ℤ)) :
    ∀ (reads' : List (ObserverEvent × ℤ)) (s s' : TurnsStore),
      reads.map Prod.fst = reads'.map Prod.fst → (∀ read ∈ reads, Timed platform read.1) →
      Alike (normalizePubkey platform agentPubkey) s s' →
      Alike (normalizePubkey platform agentPubkey)
        (syncAgentTurnsFromEvents platform agentPubkey reads s)
        (syncAgentTurnsFromEvents platform agentPubkey reads' s') := by
  induction reads with
  | nil =>
    intro reads' s s' hevents _ h
    rw [List.map_eq_nil_iff.mp hevents.symm]
    exact h
  | cons read reads ih =>
    intro reads' s s' hevents htimed h
    obtain ⟨hfirst, hrest⟩ := List.forall_mem_cons.mp htimed
    cases reads' with
    | nil => cases hevents
    | cons read' reads' =>
      obtain ⟨hsame, htail⟩ := List.cons.inj hevents
      refine ih reads' _ _ htail hrest ?_
      change Alike (normalizePubkey platform agentPubkey)
        (processEvent platform agentPubkey read.1 read.2 s)
        (processEvent platform agentPubkey read'.1 read'.2 s')
      rw [← hsame]
      exact alike_processEvent h hfirst

theorem openTurns_of_alike (h : Alike agentKey s s') :
    openTurns s agentKey = openTurns s' agentKey := by
  have hshown : ∀ turns : TurnMap,
      turns.entries.map (fun entry => (entry.1, entry.2.channelId, entry.2.startedAt)) =
        (bare turns).entries.map fun entry => (entry.1, entry.2.channelId, entry.2.startedAt) := by
    intro turns
    rw [bare_entries, List.map_map]
    rfl
  unfold openTurns
  rcases h.cases with ⟨hnone, hnone'⟩ | ⟨turns, turns', hturns, hturns', hbare⟩
  · rw [hnone, hnone']
  · rw [hturns, hturns', Option.map_some, Option.map_some, hshown, hbare, ← hshown]

end Clocks

section Results

variable {platform : Platform} {agentPubkey : String}

theorem syncAgentTurns_cons (read : ObserverEvent × ℤ) (reads : List (ObserverEvent × ℤ))
    (s : TurnsStore) :
    syncAgentTurnsFromEvents platform agentPubkey (read :: reads) s =
      syncAgentTurnsFromEvents platform agentPubkey reads
        (processEvent platform agentPubkey read.1 read.2 s) := rfl

/-- Reading the events one by one is reading those that are newer than all before. -/
theorem sync_newest (clock : ObserverEvent → ℤ) (events : List ObserverEvent) :
    ∀ s : TurnsStore,
      syncAgentTurnsFromEvents platform agentPubkey
        (events.map fun event => (event, clock event)) s =
        syncAgentTurnsFromEvents platform agentPubkey
          ((newest platform (s.lastProcessed.get? (normalizePubkey platform agentPubkey))
            events).map
            fun event => (event, clock event)) s := by
  induction events with
  | nil => exact fun _ => rfl
  | cons event events ih =>
    intro s
    have hmark := @marks_processEvent platform s agentPubkey event (clock event)
      (normalizePubkey platform agentPubkey)
    have hnewest : newest platform (s.lastProcessed.get? (normalizePubkey platform agentPubkey))
        (event :: events) =
          if passesWatermark platform (normalizePubkey platform agentPubkey) event s = true then
            event :: newest platform (some event) events
          else newest platform (s.lastProcessed.get? (normalizePubkey platform agentPubkey))
            events :=
      rfl
    rw [List.map_cons, syncAgentTurns_cons, ih, hmark, hnewest]
    by_cases hpass : passesWatermark platform (normalizePubkey platform agentPubkey) event s = true
    · rw [if_pos ⟨rfl, hpass⟩, if_pos hpass, List.map_cons, syncAgentTurns_cons]
    · have hsame : processEvent platform agentPubkey event (clock event) s = s := by
        unfold processEvent
        dsimp only
        rw [if_neg hpass]
      rw [if_neg fun h => hpass h.2, if_neg hpass, hsame]

theorem marksTimed_empty (platform : Platform) : MarksTimed platform emptyStore :=
  fun _ _ hlast => by cases hlast

theorem arriveAll_eq_sync {arrivals : List (ObserverEvent × ℤ)}
    (htimed : ∀ arrival ∈ arrivals, Timed platform arrival.1) :
    arriveAll platform agentPubkey arrivals =
      syncAgentTurnsFromEvents platform agentPubkey arrivals emptyStore :=
  foldl_arrive_store arrivals [] emptyStore (marksTimed_empty platform) (by simp) htimed

theorem openTurns_arriveAll (clock : ObserverEvent → ℤ) {arrivals : List (ObserverEvent × ℤ)}
    (htimed : ∀ arrival ∈ arrivals, Timed platform arrival.1) :
    openTurns (arriveAll platform agentPubkey arrivals) (normalizePubkey platform agentPubkey) =
      openTurns (syncOnce platform agentPubkey clock (arrivals.map Prod.fst))
        (normalizePubkey platform agentPubkey) := by
  rw [arriveAll_eq_sync htimed]
  apply openTurns_of_alike
  apply alike_sync arrivals _ _ _ _ htimed (Alike.refl _ _)
  simp [List.map_map, Function.comp_def]

theorem sortedBuffer_of_increasing {events : List ObserverEvent}
    (htimed : ∀ event ∈ events, Timed platform event)
    (hincreasing : events.Pairwise fun earlier later => Newer platform later earlier) :
    sortedBuffer platform events = events := by
  apply List.mergeSort_of_pairwise
  apply hincreasing.imp_of_mem
  intro earlier later hearlier hlater hnewer
  exact decide_eq_true
    (not_lt.mp (not_newer_of_newer (htimed later hlater) (htimed earlier hearlier) hnewer))

/-- The badges after any order of arrivals are those of one sync of the events that were newer than
all before them when they arrived. An event that arrives after a newer one is dropped, and when none
does the badges are those of one sync of the complete sorted buffer. -/
theorem badges_of_newest (platform : Platform) (agentPubkey : String)
    (arrivals : List (ObserverEvent × ℤ)) (clock : ObserverEvent → ℤ)
    (htimed : ∀ arrival ∈ arrivals, Timed platform arrival.1) :
    openTurns (arriveAll platform agentPubkey arrivals) (normalizePubkey platform agentPubkey) =
        openTurns (syncOnce platform agentPubkey clock
          (newest platform none (arrivals.map Prod.fst))) (normalizePubkey platform agentPubkey) ∧
      (∀ (before : List (ObserverEvent × ℤ)) (late : ObserverEvent × ℤ)
          (after : List (ObserverEvent × ℤ)), arrivals = before ++ late :: after →
        (∃ seen ∈ before, ¬Newer platform late.1 seen.1) →
        arriveAll platform agentPubkey (before ++ [late]) =
          arriveAll platform agentPubkey before) ∧
      ((arrivals.map Prod.fst).Pairwise (fun earlier later => Newer platform later earlier) →
        openTurns (arriveAll platform agentPubkey arrivals)
            (normalizePubkey platform agentPubkey) =
          openTurns (syncOnce platform agentPubkey clock
            (sortedBuffer platform (arrivals.map Prod.fst)))
            (normalizePubkey platform agentPubkey)) := by
  refine ⟨?_, ?_, ?_⟩
  · rw [openTurns_arriveAll clock htimed, syncOnce, sync_newest]
    rfl
  · rintro before late after rfl ⟨seen, hseen, hlate⟩
    have hbefore : ∀ arrival ∈ before, Timed platform arrival.1 :=
      fun arrival hmem => htimed arrival (List.mem_append_left _ hmem)
    have hlateTimed : Timed platform late.1 := htimed late (by simp)
    have hboth : ∀ arrival ∈ before ++ [late], Timed platform arrival.1 := by
      intro arrival hmem
      rcases List.mem_append.mp hmem with hmem | hmem
      · exact hbefore arrival hmem
      · rw [List.mem_singleton.mp hmem]
        exact hlateTimed
    obtain ⟨hmarks, -, hbehind⟩ :=
      behind_sync agentPubkey before emptyStore (marksTimed_empty platform) hbefore
    obtain ⟨last, hlast, hpast⟩ := hbehind seen hseen
    rw [arriveAll_eq_sync hboth, arriveAll_eq_sync hbefore]
    change List.foldl _ _ _ = _
    rw [List.foldl_append]
    apply processEvent_of_behind late.2
    refine ⟨last, hlast, fun hnewer => hlate ?_⟩
    exact newer_of_newer hlateTimed (hbefore seen hseen) (hmarks _ _ hlast) hnewer hpast
  · intro hincreasing
    have hevents : ∀ event ∈ arrivals.map Prod.fst, Timed platform event := by
      rw [List.forall_mem_map]
      exact htimed
    rw [sortedBuffer_of_increasing hevents hincreasing, openTurns_arriveAll clock htimed]

/-- The start of a turn, a newer start of another one, and then the end of the first. -/
def lateEnd : List (ObserverEvent × ℤ) :=
  [(sampleEvent 1 "2026-01-01T00:00:00.000Z" "turn_started" "t1", 1767225600100),
    (sampleEvent 3 "2026-01-01T00:00:05.000Z" "turn_started" "t2", 1767225605100),
    (sampleEvent 2 "2026-01-01T00:00:00.000Z" "turn_completed" "t1", 1767225605200)]

/-- The late end is not among the newest, so the first turn stays open. -/
theorem sample_badges_of_newest :
    newest samplePlatform none (lateEnd.map Prod.fst) = (lateEnd.take 2).map Prod.fst ∧
      openTurns (arriveAll samplePlatform "A1" lateEnd) (normalizePubkey samplePlatform "A1") =
        openTurns (syncOnce samplePlatform "A1" (fun _ => 0)
          (newest samplePlatform none (lateEnd.map Prod.fst)))
          (normalizePubkey samplePlatform "A1") :=
  ⟨by decide, (badges_of_newest samplePlatform "A1" lateEnd (fun _ => 0) (by decide)).1⟩

theorem sortedBuffer_lateEnd :
    sortedBuffer samplePlatform (lateEnd.map Prod.fst) =
      [sampleEvent 1 "2026-01-01T00:00:00.000Z" "turn_started" "t1",
        sampleEvent 2 "2026-01-01T00:00:00.000Z" "turn_completed" "t1",
        sampleEvent 3 "2026-01-01T00:00:05.000Z" "turn_started" "t2"] := by
  have hfirst : compareObserverEvents samplePlatform
      (sampleEvent 1 "2026-01-01T00:00:00.000Z" "turn_started" "t1")
      (sampleEvent 2 "2026-01-01T00:00:00.000Z" "turn_completed" "t1") ≤ 0 := by decide
  have hnewer : compareObserverEvents samplePlatform
      (sampleEvent 1 "2026-01-01T00:00:00.000Z" "turn_started" "t1")
      (sampleEvent 3 "2026-01-01T00:00:05.000Z" "turn_started" "t2") ≤ 0 := by decide
  have hlate : ¬compareObserverEvents samplePlatform
      (sampleEvent 3 "2026-01-01T00:00:05.000Z" "turn_started" "t2")
      (sampleEvent 2 "2026-01-01T00:00:00.000Z" "turn_completed" "t1") ≤ 0 := by decide
  simp [sortedBuffer, lateEnd, List.mergeSort, List.MergeSort.Internal.splitInTwo, hfirst, hnewer,
    hlate]

theorem late_end_leaves_badge :
    ¬∀ (platform : Platform) (agentPubkey : String) (arrivals : List (ObserverEvent × ℤ))
      (clock : ObserverEvent → ℤ), (∀ arrival ∈ arrivals, Timed platform arrival.1) →
      (arrivals.map fun arrival => arrival.1.turnId).dedup.length ≤ maxTurnsPerAgent →
      openTurns (arriveAll platform agentPubkey arrivals) (normalizePubkey platform agentPubkey) =
        openTurns (syncOnce platform agentPubkey clock
          (sortedBuffer platform (arrivals.map Prod.fst)))
          (normalizePubkey platform agentPubkey) := by
  intro h
  have hsame := h samplePlatform "a1" lateEnd (fun _ => 0) (by decide) (by decide +kernel)
  rw [arriveAll_eq_sync (by decide), sortedBuffer_lateEnd] at hsame
  exact absurd hsame (by decide +kernel)

end Results

end Buzz.AgentTurns
