import Buzz.TurnStore

/-!
# What an event does to the turns of an agent

Every later argument about the store goes through the cases that are listed here.
An event only touches the turns and the tombstones of its own agent.
-/

namespace Buzz.AgentTurns

section Cases

variable (platform : Platform) (agentPubkey : String) (event : ObserverEvent) (now : ℤ)

/-- What an event that has passed makes of the store. -/
inductive Applied (s : TurnsStore) : TurnsStore → Prop
  | started {channelId : String} (hkind : event.kind = "turn_started") :
      Applied s
        (startTurn platform agentPubkey channelId (startedTurnId event) event.timestamp now s)
  | ended (hkind : event.kind ∈ terminalKinds) :
      Applied s
        (endTurn platform agentPubkey event.turnId event.channelId
          (platform.dateParse event.timestamp) s)
  | refreshed {turnId : String} {turns : TurnMap} {turn : ActiveTurn}
      (hkind : event.kind ∈ frameKinds)
      (hturns : s.activeTurnsByAgent.get? (normalizePubkey platform agentPubkey) = some turns)
      (hturn : turns.get? turnId = some turn) :
      Applied s
        { s with
          activeTurnsByAgent := s.activeTurnsByAgent.set (normalizePubkey platform agentPubkey)
            (turns.set turnId { turn with lastActivityAt := now }) }
  | revived {turnId channelId timestamp : String} (hkind : event.kind ∈ frameKinds)
      (hid : truthy event.turnId = some turnId)
      (hlate : endedSince (terminalAt s (normalizePubkey platform agentPubkey) turnId)
        (platform.dateParse event.timestamp) = false) :
      Applied s (startTurn platform agentPubkey channelId turnId timestamp now s)
  | ignored (hkind : event.kind ∉ terminalKinds) : Applied s s

theorem frame_not_terminal {event : ObserverEvent} (h : event.kind ∈ frameKinds) :
    event.kind ∉ terminalKinds := by
  have hdisjoint : ∀ kind ∈ frameKinds, kind ∉ terminalKinds := by decide
  exact hdisjoint _ h

theorem started_not_terminal {event : ObserverEvent} (h : event.kind = "turn_started") :
    event.kind ∉ terminalKinds := by
  rw [h]
  decide

theorem recordActivity_eq_some {turnId : Option String} {s refreshed : TurnsStore}
    (h : recordActivity platform agentPubkey turnId now s = some refreshed) :
    ∃ id turns turn, s.activeTurnsByAgent.get? (normalizePubkey platform agentPubkey) = some turns ∧
      turns.get? id = some turn ∧
      refreshed =
        { s with
          activeTurnsByAgent := s.activeTurnsByAgent.set (normalizePubkey platform agentPubkey)
            (turns.set id { turn with lastActivityAt := now }) } := by
  obtain ⟨id, -, hturns⟩ := Option.bind_eq_some_iff.mp h
  obtain ⟨turns, hget, hturn⟩ := Option.bind_eq_some_iff.mp hturns
  obtain ⟨turn, hheld, rfl⟩ := Option.map_eq_some_iff.mp hturn
  exact ⟨id, turns, turn, hget, hheld, rfl⟩

theorem applied_resurrectTurn (s : TurnsStore) (hkind : event.kind ∈ frameKinds) :
    Applied platform agentPubkey event now s
      (resurrectTurn platform agentPubkey event now s) := by
  unfold resurrectTurn
  cases hid : truthy event.turnId with
  | none => exact Applied.ignored (frame_not_terminal hkind)
  | some turnId =>
    cases truthy event.channelId with
    | none => exact Applied.ignored (frame_not_terminal hkind)
    | some channelId =>
      dsimp only
      by_cases hlate : endedSince (terminalAt s (normalizePubkey platform agentPubkey) turnId)
          (platform.dateParse event.timestamp) = true
      · rw [if_pos hlate]
        exact Applied.ignored (frame_not_terminal hkind)
      · rw [if_neg hlate]
        exact Applied.revived hkind hid (eq_false_of_ne_true hlate)

theorem applied_applyEvent (s : TurnsStore) :
    Applied platform agentPubkey event now s (applyEvent platform agentPubkey event now s) := by
  unfold applyEvent
  by_cases hstarted : event.kind = "turn_started"
  · rw [if_pos hstarted]
    cases truthy event.channelId with
    | none => exact Applied.ignored (started_not_terminal hstarted)
    | some channelId => exact Applied.started hstarted
  · rw [if_neg hstarted]
    by_cases hterminal : event.kind ∈ terminalKinds
    · rw [if_pos hterminal]
      exact Applied.ended hterminal
    · rw [if_neg hterminal]
      by_cases hframe : event.kind ∈ frameKinds
      · rw [if_pos hframe]
        cases hactivity : recordActivity platform agentPubkey event.turnId now s with
        | none => exact applied_resurrectTurn platform agentPubkey event now s hframe
        | some refreshed =>
          obtain ⟨id, turns, turn, hturns, hturn, rfl⟩ :=
            recordActivity_eq_some platform agentPubkey now hactivity
          exact Applied.refreshed hframe hturns hturn
      · rw [if_neg hframe]
        exact Applied.ignored hterminal

/-- What the end of a turn makes of the store. -/
inductive Ended (agentKey : String) (turnId : Option String) (terminal : Option ℤ)
    (s : TurnsStore) : TurnsStore → Prop
  | untracked (hid : truthy turnId = none)
      (hturns : s.activeTurnsByAgent.get? agentKey = none) : Ended agentKey turnId terminal s s
  | noted {id : String} (hid : truthy turnId = some id)
      (hturns : s.activeTurnsByAgent.get? agentKey = none) :
      Ended agentKey turnId terminal s (recordTerminal agentKey id terminal s)
  | closed {id : String} {turns : TurnMap}
      (hturns : s.activeTurnsByAgent.get? agentKey = some turns)
      (hid : truthy turnId = some id ∨ truthy turnId = none ∧ (turns.get? id).isSome = true) :
      Ended agentKey turnId terminal s
        (invalidateCache agentKey
          (putTurns agentKey (turns.erase id) (recordTerminal agentKey id terminal s)))
  | kept {turns : TurnMap} (hid : truthy turnId = none)
      (hturns : s.activeTurnsByAgent.get? agentKey = some turns) :
      Ended agentKey turnId terminal s (invalidateCache agentKey (putTurns agentKey turns s))

theorem recordTerminal_activeTurns (agentKey turnId : String) (terminal : Option ℤ)
    (s : TurnsStore) :
    (recordTerminal agentKey turnId terminal s).activeTurnsByAgent = s.activeTurnsByAgent := by
  cases terminal <;> rfl

theorem ended_endTurn (turnId channelId : Option String) (terminal : Option ℤ) (s : TurnsStore) :
    Ended (normalizePubkey platform agentPubkey) turnId terminal s
      (endTurn platform agentPubkey turnId channelId terminal s) := by
  unfold endTurn
  cases hid : truthy turnId with
  | some id =>
    dsimp only
    rw [recordTerminal_activeTurns]
    cases hturns : s.activeTurnsByAgent.get? (normalizePubkey platform agentPubkey) with
    | none => exact Ended.noted hid hturns
    | some turns => exact Ended.closed hturns (Or.inl hid)
  | none =>
    dsimp only
    cases hturns : s.activeTurnsByAgent.get? (normalizePubkey platform agentPubkey) with
    | none => exact Ended.untracked hid hturns
    | some turns =>
      dsimp only
      cases hfound : (truthy channelId).bind (turnInChannel turns) with
      | none => exact Ended.kept hid hturns
      | some entry =>
        obtain ⟨channel, -, hfind⟩ := Option.bind_eq_some_iff.mp hfound
        have hget : turns.get? entry.1 = some entry.2 :=
          EntryMap.get?_eq_some_iff.mpr (List.mem_of_find?_eq_some hfind)
        exact Ended.closed hturns (Or.inr ⟨hid, by rw [hget]; rfl⟩)

end Cases

section Frame

/-- Only the turns, the tombstones and the summaries of one agent may differ. -/
structure Beside (agentKey : String) (s s' : TurnsStore) : Prop where
  offsets : s'.clockOffsetByAgent = s.clockOffsetByAgent
  marks : s'.lastProcessed = s.lastProcessed
  saved : s'.savedByCommunity = s.savedByCommunity
  turns : ∀ other, other ≠ agentKey →
    s'.activeTurnsByAgent.get? other = s.activeTurnsByAgent.get? other
  terminals : ∀ other, other ≠ agentKey →
    s'.terminalAtByAgent.get? other = s.terminalAtByAgent.get? other

variable {agentKey : String} {s s' s'' : TurnsStore}

theorem Beside.refl (agentKey : String) (s : TurnsStore) : Beside agentKey s s :=
  ⟨rfl, rfl, rfl, fun _ _ => rfl, fun _ _ => rfl⟩

theorem Beside.trans (h : Beside agentKey s s') (h' : Beside agentKey s' s'') :
    Beside agentKey s s'' where
  offsets := h'.offsets.trans h.offsets
  marks := h'.marks.trans h.marks
  saved := h'.saved.trans h.saved
  turns other hne := (h'.turns other hne).trans (h.turns other hne)
  terminals other hne := (h'.terminals other hne).trans (h.terminals other hne)

theorem beside_recordTerminal (turnId : String) (terminal : Option ℤ) :
    Beside agentKey s (recordTerminal agentKey turnId terminal s) := by
  cases terminal with
  | none => exact Beside.refl agentKey s
  | some at' =>
    refine ⟨rfl, rfl, rfl, fun _ _ => rfl, fun other hne => ?_⟩
    exact (EntryMap.get?_set _ _ _ _).trans (if_neg hne)

theorem get?_putTurns (turns : TurnMap) (other : String) :
    (putTurns agentKey turns s).activeTurnsByAgent.get? other =
      if other = agentKey then if turns.entries = [] then none else some turns
      else s.activeTurnsByAgent.get? other := by
  unfold putTurns
  by_cases hempty : turns.entries = []
  · simp only [if_pos hempty, EntryMap.get?_erase]
  · simp only [if_neg hempty, EntryMap.get?_set]

theorem beside_putTurns (turns : TurnMap) :
    Beside agentKey s (invalidateCache agentKey (putTurns agentKey turns s)) where
  offsets := rfl
  marks := rfl
  saved := rfl
  turns _ hne := (get?_putTurns turns _).trans (if_neg hne)
  terminals _ _ := rfl

theorem beside_set (turns : TurnMap) :
    Beside agentKey s
      { s with activeTurnsByAgent := s.activeTurnsByAgent.set agentKey turns } where
  offsets := rfl
  marks := rfl
  saved := rfl
  turns _ hne := (EntryMap.get?_set _ _ _ _).trans (if_neg hne)
  terminals _ _ := rfl

theorem beside_startTurn (platform : Platform) (agentPubkey channelId turnId timestamp : String)
    (now : ℤ) (s : TurnsStore) :
    Beside (normalizePubkey platform agentPubkey) s
      (startTurn platform agentPubkey channelId turnId timestamp now s) :=
  ⟨rfl, rfl, rfl, (beside_set _).turns, fun _ _ => rfl⟩

theorem beside_ended {turnId : Option String} {terminal : Option ℤ}
    (h : Ended agentKey turnId terminal s s') : Beside agentKey s s' := by
  cases h with
  | untracked => exact Beside.refl _ _
  | noted => exact beside_recordTerminal _ _
  | closed => exact (beside_recordTerminal _ _).trans (beside_putTurns _)
  | kept => exact beside_putTurns _

theorem beside_applied {platform : Platform} {agentPubkey : String} {event : ObserverEvent}
    {now : ℤ} (h : Applied platform agentPubkey event now s s') :
    Beside (normalizePubkey platform agentPubkey) s s' := by
  cases h with
  | started => exact beside_startTurn _ _ _ _ _ _ _
  | ended => exact beside_ended (ended_endTurn _ _ _ _ _ _)
  | refreshed => exact beside_set _
  | revived => exact beside_startTurn _ _ _ _ _ _ _
  | ignored => exact Beside.refl _ _

/-- A sample of the clock changes neither turns nor tombstones. -/
theorem sampleClockOffset_fields (agentKey : String) (s : TurnsStore) (platform : Platform)
    (timestamp : String) (now : ℤ) :
    (sampleClockOffset platform agentKey timestamp now s).activeTurnsByAgent =
        s.activeTurnsByAgent ∧
      (sampleClockOffset platform agentKey timestamp now s).terminalAtByAgent =
        s.terminalAtByAgent ∧
      (sampleClockOffset platform agentKey timestamp now s).lastProcessed = s.lastProcessed ∧
      (sampleClockOffset platform agentKey timestamp now s).savedByCommunity =
        s.savedByCommunity := by
  unfold sampleClockOffset
  cases platform.dateParse timestamp with
  | none => exact ⟨rfl, rfl, rfl, rfl⟩
  | some parsed =>
    dsimp only
    split_ifs <;> exact ⟨rfl, rfl, rfl, rfl⟩

end Frame

section Turns

variable {agentKey : String} {s s' : TurnsStore} {key turnId : String}

def isActive (s : TurnsStore) (agentKey turnId : String) : Bool :=
  ((s.activeTurnsByAgent.get? agentKey).bind fun turns => turns.get? turnId).isSome

theorem isActive_iff : isActive s agentKey turnId = true ↔
    ∃ turns turn, s.activeTurnsByAgent.get? agentKey = some turns ∧
      turns.get? turnId = some turn := by
  rw [isActive, Option.isSome_iff_exists]
  constructor
  · rintro ⟨turn, h⟩
    obtain ⟨turns, hturns, hturn⟩ := Option.bind_eq_some_iff.mp h
    exact ⟨turns, turn, hturns, hturn⟩
  · rintro ⟨turns, turn, hturns, hturn⟩
    exact ⟨turn, Option.bind_eq_some_iff.mpr ⟨turns, hturns, hturn⟩⟩

theorem isActive_congr
    (h : s'.activeTurnsByAgent.get? agentKey = s.activeTurnsByAgent.get? agentKey) :
    isActive s' agentKey turnId = isActive s agentKey turnId := by
  rw [isActive, h, isActive]

theorem terminalAt_congr
    (h : s'.terminalAtByAgent.get? agentKey = s.terminalAtByAgent.get? agentKey) :
    terminalAt s' agentKey turnId = terminalAt s agentKey turnId := by
  rw [terminalAt, h, terminalAt]

theorem get?_of_evictOldest {turns : TurnMap} {id : String} {turn : ActiveTurn}
    (h : (evictOldest turns id).get? turnId = some turn) : turns.get? turnId = some turn := by
  unfold evictOldest at h
  split_ifs at h
  · cases holdest : truthy ((oldestTurn turns).map Prod.fst) with
    | none =>
      rw [holdest] at h
      exact h
    | some oldest =>
      rw [holdest, EntryMap.get?_erase] at h
      split_ifs at h
      exact h
  · exact h

/-- Starting a turn makes no other turn active. -/
theorem isActive_startTurn {platform : Platform} {agentPubkey channelId id timestamp : String}
    {now : ℤ}
    (h : isActive (startTurn platform agentPubkey channelId id timestamp now s)
      (normalizePubkey platform agentPubkey) turnId = true) :
    turnId = id ∨ isActive s (normalizePubkey platform agentPubkey) turnId = true := by
  obtain ⟨turns, turn, hturns, hturn⟩ := isActive_iff.mp h
  obtain rfl := Option.some.inj
    (hturns.symm.trans ((EntryMap.get?_set _ _ _ _).trans (if_pos rfl)))
  rw [EntryMap.get?_set] at hturn
  split_ifs at hturn with hid
  · exact Or.inl hid
  · right
    have hheld := get?_of_evictOldest hturn
    cases hget : s.activeTurnsByAgent.get? (normalizePubkey platform agentPubkey) with
    | none =>
      rw [hget] at hheld
      cases hheld
    | some held =>
      rw [hget] at hheld
      exact isActive_iff.mpr ⟨held, turn, hget, hheld⟩

theorem isActive_putTurns {turns : TurnMap} :
    isActive (invalidateCache agentKey (putTurns agentKey turns s)) agentKey turnId =
      (turns.get? turnId).isSome := by
  have hget : (invalidateCache agentKey (putTurns agentKey turns s)).activeTurnsByAgent.get?
      agentKey = _ := (get?_putTurns turns agentKey).trans (if_pos rfl)
  rw [isActive, hget]
  by_cases hempty : turns.entries = []
  · have hnone : turns.get? turnId = none := by
      rw [EntryMap.get?_eq_none_iff, hempty]
      simp
    rw [if_pos hempty, hnone]
    rfl
  · rw [if_neg hempty]
    rfl

/-- The end of a turn makes none active. -/
theorem isActive_of_ended {ended : Option String} {terminal : Option ℤ}
    (h : Ended agentKey ended terminal s s') (hactive : isActive s' agentKey turnId = true) :
    isActive s agentKey turnId = true := by
  cases h with
  | untracked => exact hactive
  | noted =>
    rw [isActive, recordTerminal_activeTurns] at hactive
    exact hactive
  | closed hturns =>
    rw [isActive_putTurns, EntryMap.get?_erase] at hactive
    split_ifs at hactive
    · cases hactive
    · obtain ⟨turn, hturn⟩ := Option.isSome_iff_exists.mp hactive
      exact isActive_iff.mpr ⟨_, turn, hturns, hturn⟩
  | kept _ hturns =>
    rw [isActive_putTurns] at hactive
    obtain ⟨turn, hturn⟩ := Option.isSome_iff_exists.mp hactive
    exact isActive_iff.mpr ⟨_, turn, hturns, hturn⟩

theorem isActive_refreshed {turns : TurnMap} {id : String} {turn refreshed : ActiveTurn}
    (hturns : s.activeTurnsByAgent.get? agentKey = some turns) (hturn : turns.get? id = some turn)
    (hactive : isActive
      { s with
        activeTurnsByAgent := s.activeTurnsByAgent.set agentKey (turns.set id refreshed) }
      agentKey turnId = true) :
    isActive s agentKey turnId = true := by
  obtain ⟨held, found, hheld, hfound⟩ := isActive_iff.mp hactive
  obtain rfl := Option.some.inj
    (hheld.symm.trans ((EntryMap.get?_set _ _ _ _).trans (if_pos rfl)))
  rw [EntryMap.get?_set] at hfound
  split_ifs at hfound with hid
  · subst hid
    exact isActive_iff.mpr ⟨turns, turn, hturns, hturn⟩
  · exact isActive_iff.mpr ⟨turns, found, hturns, hfound⟩

end Turns

end Buzz.AgentTurns
