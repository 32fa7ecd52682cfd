import Buzz.TurnCaches

/-!
# Replays of the frames of an agent

Beside the store stand a record of the events that have been read and one of the
event that ended each turn; a community takes both along when it is saved. What has
been read lies behind the watermark of its agent, so it is read again without effect.
What has ended a turn has a tombstone too, until sixteen later ones have taken its
place; so only a start or a later frame opens the turn again.
-/

namespace Buzz.AgentTurns

open WebText

section Order

variable {platform : Platform} {first second last : ObserverEvent}

/-- The time of the event can be read. -/
def Timed (platform : Platform) (event : ObserverEvent) : Prop :=
  (platform.dateParse event.timestamp).isSome = true

instance (platform : Platform) (event : ObserverEvent) : Decidable (Timed platform event) :=
  inferInstanceAs (Decidable (_ = true))

def Newer (platform : Platform) (first second : ObserverEvent) : Prop :=
  0 < compareObserverEvents platform first second

theorem newer_iff {firstAt secondAt : ℤ} (hfirst :
    platform.dateParse first.timestamp = some firstAt)
    (hsecond : platform.dateParse second.timestamp = some secondAt) :
    Newer platform first second ↔
      secondAt < firstAt ∨ firstAt = secondAt ∧ second.seq < first.seq := by
  unfold Newer compareObserverEvents
  rw [hfirst, hsecond]
  dsimp only
  split_ifs <;> omega

theorem not_newer_self (event : ObserverEvent) : ¬Newer platform event event := by
  unfold Newer compareObserverEvents
  cases platform.dateParse event.timestamp with
  | none => simp
  | some at' => simp

theorem newer_of_newer (hfirst : Timed platform first) (hsecond : Timed platform second)
    (hlast : Timed platform last) (h : Newer platform first last)
    (hbehind : ¬Newer platform second last) : Newer platform first second := by
  obtain ⟨a, ha⟩ := Option.isSome_iff_exists.mp hfirst
  obtain ⟨b, hb⟩ := Option.isSome_iff_exists.mp hsecond
  obtain ⟨c, hc⟩ := Option.isSome_iff_exists.mp hlast
  rw [newer_iff ha hc] at h
  rw [newer_iff hb hc] at hbehind
  rw [newer_iff ha hb]
  omega

theorem not_newer_of_newer (hfirst : Timed platform first) (hsecond : Timed platform second)
    (h : Newer platform first second) : ¬Newer platform second first := by
  obtain ⟨a, ha⟩ := Option.isSome_iff_exists.mp hfirst
  obtain ⟨b, hb⟩ := Option.isSome_iff_exists.mp hsecond
  rw [newer_iff ha hb] at h
  rw [newer_iff hb ha]
  omega

end Order

section Watch

variable (platform : Platform)

/-- The store, what has been read of each agent, and for each turn that has ended and not run
since the event that ended it. -/
structure Watched where
  store : TurnsStore
  read : List (String × ObserverEvent)
  savedRead : String → List (String × ObserverEvent)
  ended : String → String → Option ObserverEvent
  savedEnded : String → String → String → Option ObserverEvent

/-- The record after an event of an agent has passed. -/
def noteEnded (agentKey : String) (event : ObserverEvent) (before after : TurnsStore)
    (ended : String → String → Option ObserverEvent) (key turnId : String) :
    Option ObserverEvent :=
  if key ≠ agentKey then ended key turnId
  else if isActive after key turnId then none
  else if event.kind ∈ terminalKinds ∧
      (truthy event.turnId = some turnId ∨ isActive before key turnId = true) then some event
  else ended key turnId

def Watched.process (agentPubkey : String) (event : ObserverEvent) (now : ℤ) (w : Watched) :
    Watched :=
  let key := normalizePubkey platform agentPubkey
  let after := processEvent platform agentPubkey event now w.store
  { w with
    store := after
    read := (key, event) :: w.read
    ended := if passesWatermark platform key event w.store then
      noteEnded key event w.store after w.ended else w.ended }

def Watched.step (w : Watched) : TurnOp → Watched
  | .sync agentPubkey events =>
      events.foldl (fun w event => w.process platform agentPubkey event.1 event.2) w
  | .reset =>
      { w with
        store := resetActiveAgentTurnsStore w.store
        read := []
        ended := fun _ _ => none }
  | .save communityId =>
      { w with
        store := saveActiveAgentTurnsForCommunity communityId w.store
        savedRead := Function.update w.savedRead communityId w.read
        savedEnded := Function.update w.savedEnded communityId w.ended }
  | .restore communityId now =>
      { w with
        store := restoreActiveAgentTurnsForCommunity communityId now w.store
        read := if (w.store.savedByCommunity.get? communityId).isSome then
          w.savedRead communityId else w.read
        ended := if (w.store.savedByCommunity.get? communityId).isSome then
          w.savedEnded communityId else w.ended }
  | op => { w with store := AgentTurns.step platform w.store op }

def watch (ops : List TurnOp) : Watched :=
  ops.foldl (Watched.step platform)
    ⟨emptyStore, [], fun _ => [], fun _ _ => none, fun _ _ _ => none⟩

theorem process_store (agentPubkey : String) (event : ObserverEvent) (now : ℤ) (w : Watched) :
    (w.process platform agentPubkey event now).store =
      processEvent platform agentPubkey event now w.store := rfl

theorem sync_store (agentPubkey : String) (events : List (ObserverEvent × ℤ)) :
    ∀ w : Watched, (events.foldl (fun w event =>
        w.process platform agentPubkey event.1 event.2) w).store =
      syncAgentTurnsFromEvents platform agentPubkey events w.store := by
  induction events with
  | nil => exact fun w => rfl
  | cons event events ih =>
    intro w
    rw [List.foldl_cons, ih, process_store]
    rfl

theorem step_store (w : Watched) (op : TurnOp) :
    (w.step platform op).store = step platform w.store op := by
  cases op with
  | sync agentPubkey events => exact sync_store platform agentPubkey events w
  | _ => rfl

/-- The records do not touch the store. -/
theorem watch_store (ops : List TurnOp) : (watch platform ops).store = run platform ops := by
  have hfold : ∀ w : Watched, (ops.foldl (Watched.step platform) w).store =
      ops.foldl (step platform) w.store := by
    induction ops with
    | nil => exact fun w => rfl
    | cons op ops ih =>
      intro w
      rw [List.foldl_cons, List.foldl_cons, ih, step_store]
  exact hfold _

end Watch

section Safety

variable (platform : Platform)

/-- The cap on the tombstones of an agent is reached. -/
def Full (s : TurnsStore) (agentKey : String) : Prop :=
  ∃ terminals, s.terminalAtByAgent.get? agentKey = some terminals ∧
    terminals.entries.length = maxTerminalTombstones

/-- An event may open a turn that another one has ended: it starts the turn, or it is a frame of the
turn and later; a frame of the same time only counts when the tombstone has made room for others. -/
def MayRevive (s : TurnsStore) (agentKey turnId : String) (ended event : ObserverEvent) : Prop :=
  event.kind = "turn_started" ∧ startedTurnId event = turnId ∨
    event.kind ∈ frameKinds ∧ event.turnId = some turnId ∧
      ∃ endedAt frameAt, platform.dateParse ended.timestamp = some endedAt ∧
        platform.dateParse event.timestamp = some frameAt ∧
        (endedAt < frameAt ∨
          endedAt = frameAt ∧ terminalAt s agentKey turnId = none ∧ Full s agentKey)

/-- The events of an operation. -/
def eventsOf : TurnOp → List ObserverEvent
  | .sync _ events => events.map Prod.fst
  | _ => []

/-- What holds after the operations. -/
structure ReplaySafe (ops : List TurnOp) : Prop where
  /-- What has been read is read again without effect. -/
  replay : ∀ (agentPubkey : String) (again : List (ObserverEvent × ℤ)),
    (∀ event ∈ again,
      (normalizePubkey platform agentPubkey, event.1) ∈ (watch platform ops).read) →
    step platform (run platform ops) (.sync agentPubkey again) = run platform ops
  idle : ∀ key turnId ended, (watch platform ops).ended key turnId = some ended →
    isActive (run platform ops) key turnId = false
  /-- Within a buffer, after the events before, a turn that has ended is opened. -/
  revived : ∀ (agentPubkey : String) (before : List (ObserverEvent × ℤ)) (event : ObserverEvent)
      (now : ℤ) (key turnId : String) (ended : ObserverEvent),
    (∀ event ∈ before, Timed platform event.1) → Timed platform event →
    (watch platform (ops ++ [.sync agentPubkey before])).ended key turnId = some ended →
    isActive (processEvent platform agentPubkey event now
      (run platform (ops ++ [.sync agentPubkey before]))) key turnId = true →
    key = normalizePubkey platform agentPubkey ∧
      MayRevive platform (run platform (ops ++ [.sync agentPubkey before])) key turnId ended event
  /-- Nothing else opens a turn, except that a community is restored in which it was open. -/
  opened : ∀ (op : TurnOp) (key turnId : String),
    (∀ agentPubkey events, op ≠ .sync agentPubkey events) →
    isActive (step platform (run platform ops) op) key turnId = true →
    isActive (run platform ops) key turnId = true ∨
      ∃ communityId now snap turns, op = .restore communityId now ∧
        (run platform ops).savedByCommunity.get? communityId = some snap ∧
        snap.turns.get? key = some turns ∧ (turns.get? turnId).isSome = true
  capped : (∀ op ∈ ops, ∀ event ∈ eventsOf op, event.turnId ≠ some "") →
    ∀ key turns, (run platform ops).activeTurnsByAgent.get? key = some turns →
      turns.entries.length ≤ maxTurnsPerAgent
  agents : ∀ agentPubkey,
    (getActiveTurnsForAgent platform agentPubkey (run platform ops)).1 =
      ((truthy agentPubkey).map fun agentPubkey =>
        freshTurnsForAgent platform (run platform ops)
          (normalizePubkey platform agentPubkey)).getD []
  channels : (getActiveTurnsByChannel platform (run platform ops)).1 =
    channelTurnSummaries platform (run platform ops)

end Safety

section Tombstones

variable {platform : Platform} {agentKey : String} {s s' : TurnsStore}

/-- A tombstone that is set is there; another one may have made room for it. -/
theorem dropOldest_set {terminals : EntryMap String ℤ}
    (hcap : terminals.entries.length ≤ maxTerminalTombstones) (turnId : String) (terminal : ℤ) :
    (dropOldest (terminals.set turnId terminal)).entries.length ≤ maxTerminalTombstones ∧
      (terminals.entries.length = maxTerminalTombstones →
        (dropOldest (terminals.set turnId terminal)).entries.length = maxTerminalTombstones) ∧
      (dropOldest (terminals.set turnId terminal)).get? turnId = some terminal ∧
      ∀ other, other ≠ turnId →
        (dropOldest (terminals.set turnId terminal)).get? other = terminals.get? other ∨
          (dropOldest (terminals.set turnId terminal)).get? other = none ∧
            (dropOldest (terminals.set turnId terminal)).entries.length =
              maxTerminalTombstones := by
  have hset : ∀ other, (terminals.set turnId terminal).get? other =
      if other = turnId then some terminal else terminals.get? other :=
    fun other => EntryMap.get?_set _ _ _ _
  have hlength := EntryMap.length_set terminals turnId terminal
  by_cases hfull : maxTerminalTombstones < (terminals.set turnId terminal).entries.length
  · -- the turn is new, so it stands last and the first tombstone is another one
    have hnew : (terminals.get? turnId).isSome = false := by
      by_contra hold
      rw [if_pos (eq_true_of_ne_false hold)] at hlength
      omega
    rw [hnew, if_neg Bool.false_ne_true] at hlength
    cases hentries : terminals.entries with
    | nil =>
      rw [hentries] at hlength
      have hone : (terminals.set turnId terminal).entries.length = 1 := hlength
      rw [hone] at hfull
      exact absurd hfull (by decide)
    | cons oldest rest =>
      have hmem : oldest ∈ terminals.entries := by
        rw [hentries]
        exact List.mem_cons_self
      have hold : terminals.get? oldest.1 = some oldest.2 := EntryMap.get?_eq_some_iff.mpr hmem
      have hne : oldest.1 ≠ turnId := by
        intro h
        rw [h] at hold
        rw [hold] at hnew
        cases hnew
      have hhead : (terminals.set turnId terminal).entries.head? = some oldest := by
        have hfresh : turnId ∉ terminals.entries.map Prod.fst := by
          rw [← EntryMap.get?_eq_none_iff]
          simpa using hnew
        have happend : (terminals.set turnId terminal).entries =
            terminals.entries ++ [(turnId, terminal)] := if_neg hfresh
        rw [happend, hentries]
        rfl
      have hdrop : dropOldest (terminals.set turnId terminal) =
          (terminals.set turnId terminal).erase oldest.1 := by
        rw [dropOldest, if_pos hfull, hhead]
      have hsome : (terminals.set turnId terminal).get? oldest.1 = some oldest.2 := by
        rw [hset, if_neg hne]
        exact hold
      have herase := EntryMap.length_erase hsome
      have hcount : ((terminals.set turnId terminal).erase oldest.1).entries.length =
          maxTerminalTombstones := by omega
      rw [hdrop]
      refine ⟨hcount.le, fun _ => hcount, ?_, ?_⟩
      · rw [EntryMap.get?_erase, if_neg (Ne.symm hne), hset, if_pos rfl]
      · intro other hother
        rw [EntryMap.get?_erase]
        split_ifs
        · exact Or.inr ⟨rfl, hcount⟩
        · left
          rw [hset, if_neg hother]
  · have hdrop : dropOldest (terminals.set turnId terminal) = terminals.set turnId terminal :=
      if_neg hfull
    rw [hdrop]
    refine ⟨not_lt.mp hfull, ?_, ?_, ?_⟩
    · intro hcount
      split_ifs at hlength <;> omega
    · rw [hset, if_pos rfl]
    · intro other hother
      left
      rw [hset, if_neg hother]

def TombstonesCapped (s : TurnsStore) : Prop :=
  ∀ key terminals, s.terminalAtByAgent.get? key = some terminals →
    terminals.entries.length ≤ maxTerminalTombstones

theorem recordTerminal_spec (agentKey : String) (hcap : TombstonesCapped s) (turnId : String)
    (terminal : ℤ) :
    TombstonesCapped (recordTerminal agentKey turnId (some terminal) s) ∧
      (Full s agentKey → Full (recordTerminal agentKey turnId (some terminal) s) agentKey) ∧
      terminalAt (recordTerminal agentKey turnId (some terminal) s) agentKey turnId =
        some terminal ∧
      ∀ other, other ≠ turnId →
        terminalAt (recordTerminal agentKey turnId (some terminal) s) agentKey other =
            terminalAt s agentKey other ∨
          terminalAt (recordTerminal agentKey turnId (some terminal) s) agentKey other = none ∧
            Full (recordTerminal agentKey turnId (some terminal) s) agentKey := by
  have hheld : ((s.terminalAtByAgent.get? agentKey).getD EntryMap.empty).entries.length ≤
      maxTerminalTombstones := by
    cases hget : s.terminalAtByAgent.get? agentKey with
    | none => exact Nat.zero_le _
    | some terminals => exact hcap agentKey terminals hget
  obtain ⟨hlength, hfull, hself, hothers⟩ := dropOldest_set hheld turnId terminal
  have hget : (recordTerminal agentKey turnId (some terminal) s).terminalAtByAgent.get? agentKey =
      some (dropOldest (((s.terminalAtByAgent.get? agentKey).getD EntryMap.empty).set turnId
        terminal)) := (EntryMap.get?_set _ _ _ _).trans (if_pos rfl)
  have hat : ∀ other, terminalAt s agentKey other =
      ((s.terminalAtByAgent.get? agentKey).getD EntryMap.empty).get? other := by
    intro other
    rw [terminalAt]
    cases s.terminalAtByAgent.get? agentKey <;> rfl
  refine ⟨?_, ?_, ?_, ?_⟩
  · intro key terminals hterminals
    by_cases hkey : key = agentKey
    · subst hkey
      rw [hget] at hterminals
      rw [← Option.some.inj hterminals]
      exact hlength
    · exact hcap key terminals
        (((EntryMap.get?_set _ _ _ _).trans (if_neg hkey)).symm.trans hterminals)
  · rintro ⟨terminals, hterminals, hcount⟩
    refine ⟨_, hget, hfull ?_⟩
    rw [hterminals]
    exact hcount
  · rw [terminalAt, hget]
    exact hself
  · intro other hother
    rw [hat, terminalAt, hget]
    exact (hothers other hother).imp id fun h => ⟨h.1, _, hget, h.2⟩

/-- The tombstones after a turn has ended: it has one, and the others have kept theirs. -/
theorem ended_terminals {turnId : Option String} {terminal : ℤ} (hcap : TombstonesCapped s)
    (h : Ended agentKey turnId (some terminal) s s') :
    TombstonesCapped s' ∧ (Full s agentKey → Full s' agentKey) ∧ ∀ id,
      (truthy turnId = some id ∨
          isActive s agentKey id = true ∧ isActive s' agentKey id = false →
        terminalAt s' agentKey id = some terminal) ∧
      (truthy turnId ≠ some id → isActive s agentKey id = false →
        terminalAt s' agentKey id = terminalAt s agentKey id ∨
          terminalAt s' agentKey id = none ∧ Full s' agentKey) := by
  cases h with
  | untracked hid hturns =>
    refine ⟨hcap, id, fun other => ⟨?_, fun _ _ => Or.inl rfl⟩⟩
    rintro (hsome | ⟨hactive, hidle⟩)
    · rw [hid] at hsome
      cases hsome
    · rw [hactive] at hidle
      cases hidle
  | @noted id hid hturns =>
    obtain ⟨hcapped, hfull, hself, hothers⟩ :=
      recordTerminal_spec agentKey hcap id terminal
    refine ⟨hcapped, hfull, fun other => ⟨?_, ?_⟩⟩
    · rintro (hsome | ⟨hactive, hidle⟩)
      · rw [hid] at hsome
        rw [← Option.some.inj hsome]
        exact hself
      · rw [isActive, hturns] at hactive
        cases hactive
    · intro hne _
      exact hothers other fun heq => hne (heq ▸ hid)
  | @closed id turns hturns hid =>
    obtain ⟨hcapped, hfull, hself, hothers⟩ :=
      recordTerminal_spec agentKey hcap id terminal
    refine ⟨hcapped, hfull, fun other => ⟨?_, ?_⟩⟩
    · rintro (hsome | ⟨hactive, hidle⟩)
      · obtain rfl : id = other := by
          rcases hid with hid | ⟨hnone, -⟩
          · exact Option.some.inj (hid.symm.trans hsome)
          · rw [hnone] at hsome
            cases hsome
        exact hself
      · obtain rfl : other = id := by
          by_contra hne
          rw [isActive_putTurns, EntryMap.get?_erase, if_neg hne] at hidle
          rw [isActive, hturns, Option.bind_some, hidle] at hactive
          cases hactive
        exact hself
    · intro hne hidle
      apply hothers other
      rintro rfl
      rcases hid with hid | ⟨-, hsome⟩
      · exact hne hid
      · rw [isActive, hturns, Option.bind_some, hsome] at hidle
        cases hidle
  | @kept turns hid hturns =>
    refine ⟨hcap, id, fun other => ⟨?_, fun _ _ => Or.inl rfl⟩⟩
    rintro (hsome | ⟨hactive, hidle⟩)
    · rw [hid] at hsome
      cases hsome
    · rw [isActive_putTurns] at hidle
      rw [isActive, hturns, Option.bind_some, hidle] at hactive
      cases hactive

/-- The tombstones after an event: an end leaves one, and the others have kept theirs. -/
structure Tombstoned (agentKey : String) (event : ObserverEvent) (terminal : ℤ)
    (s s' : TurnsStore) : Prop where
  capped : TombstonesCapped s'
  full : Full s agentKey → Full s' agentKey
  set : event.kind ∈ terminalKinds → ∀ id,
    truthy event.turnId = some id ∨ isActive s agentKey id = true ∧
      isActive s' agentKey id = false → terminalAt s' agentKey id = some terminal
  kept : ∀ id, ¬(event.kind ∈ terminalKinds ∧ truthy event.turnId = some id) →
    isActive s agentKey id = false →
      terminalAt s' agentKey id = terminalAt s agentKey id ∨
        terminalAt s' agentKey id = none ∧ Full s' agentKey

theorem tombstoned_of_same {event : ObserverEvent} {terminal : ℤ} (hcap : TombstonesCapped s)
    (hkind : event.kind ∉ terminalKinds) (h : s'.terminalAtByAgent = s.terminalAtByAgent) :
    Tombstoned agentKey event terminal s s' where
  capped key terminals hget := hcap key terminals (h ▸ hget)
  full hfull := by rwa [Full, h]
  set hterminal := absurd hterminal hkind
  kept id _ _ := Or.inl (terminalAt_congr (by rw [h]))

theorem tombstoned_applied {agentPubkey : String} {event : ObserverEvent} {now terminal : ℤ}
    (hcap : TombstonesCapped s) (hterminal : platform.dateParse event.timestamp = some terminal)
    (h : Applied platform agentPubkey event now s s') :
    Tombstoned (normalizePubkey platform agentPubkey) event terminal s s' := by
  cases h with
  | started hkind => exact tombstoned_of_same hcap (started_not_terminal hkind) rfl
  | ended hkind =>
    have hended := ended_endTurn platform agentPubkey event.turnId event.channelId
      (platform.dateParse event.timestamp) s
    rw [hterminal] at hended ⊢
    obtain ⟨hcapped, hfull, hids⟩ := ended_terminals hcap hended
    refine ⟨hcapped, hfull, fun _ id => (hids id).1, fun id hne hidle => ?_⟩
    exact (hids id).2 (fun hid => hne ⟨hkind, hid⟩) hidle
  | refreshed hkind | revived hkind => exact tombstoned_of_same hcap (frame_not_terminal hkind) rfl
  | ignored hkind => exact tombstoned_of_same hcap hkind rfl

end Tombstones

section Invariant

variable {platform : Platform} {named : Prop}
variable {w : Watched} {event : ObserverEvent}

/-- A turn that has ended: it is not open, its end lies behind the watermark, and it has a tombstone
unless the cap has taken it. -/
structure Remembered (platform : Platform) (s : TurnsStore) (key turnId : String)
    (ended : ObserverEvent) : Prop where
  idle : isActive s key turnId = false
  behind : ∃ last, s.lastProcessed.get? key = some last ∧ ¬Newer platform ended last
  tombstone : ∃ endedAt, platform.dateParse ended.timestamp = some endedAt ∧
    (terminalAt s key turnId = some endedAt ∨ terminalAt s key turnId = none ∧ Full s key)

structure World (platform : Platform) (named : Prop) (s : TurnsStore)
    (ended : String → String → Option ObserverEvent) : Prop where
  turns : AllKept named s.activeTurnsByAgent
  timed : ∀ key last, s.lastProcessed.get? key = some last → Timed platform last
  tombstones : TombstonesCapped s
  remembered : ∀ key turnId event, ended key turnId = some event →
    Remembered platform s key turnId event

/-- A snapshot as a store of its own. -/
def storeOf (snap : TurnsStoreSnapshot) : TurnsStore :=
  { emptyStore with
    activeTurnsByAgent := snap.turns
    clockOffsetByAgent := snap.offsets
    lastProcessed := snap.watermarks
    terminalAtByAgent := snap.terminals }

structure Sound (platform : Platform) (named : Prop) (w : Watched) : Prop where
  world : World platform named w.store w.ended
  saved : ∀ communityId snap, w.store.savedByCommunity.get? communityId = some snap →
    World platform named (storeOf snap) (w.savedEnded communityId)
  caches : CachesFresh platform w.store

variable {s s' : TurnsStore} {ended : String → String → Option ObserverEvent}

theorem World.of_idle (h : World platform named s ended)
    (hturns : AllKept named s'.activeTurnsByAgent) (hmarks : s'.lastProcessed = s.lastProcessed)
    (hterminals : s'.terminalAtByAgent = s.terminalAtByAgent)
    (hactive : ∀ key turnId, isActive s' key turnId = true → isActive s key turnId = true) :
    World platform named s' ended where
  turns := hturns
  timed key last hlast := h.timed key last (hmarks ▸ hlast)
  tombstones key terminals hget := h.tombstones key terminals (hterminals ▸ hget)
  remembered key turnId event hended := by
    obtain ⟨hidle, hbehind, htombstone⟩ := h.remembered key turnId event hended
    refine ⟨?_, ?_, ?_⟩
    · by_contra hnot
      rw [hactive key turnId (eq_true_of_ne_false hnot)] at hidle
      cases hidle
    · rw [hmarks]
      exact hbehind
    · rw [Full, terminalAt, hterminals]
      exact htombstone

theorem passesWatermark_iff {agentKey : String} : passesWatermark platform agentKey event s = true ↔
      ∀ last, s.lastProcessed.get? agentKey = some last → Newer platform event last := by
  unfold passesWatermark
  cases s.lastProcessed.get? agentKey with
  | none => simp
  | some last => simp [Newer]

/-- What has passed and been applied stands between the store with the watermark and the one
after. -/
theorem processEvent_of_passes {agentPubkey : String} (now : ℤ)
    (hpass : passesWatermark platform (normalizePubkey platform agentPubkey) event s = true) :
    ∃ sampled : TurnsStore, sampled.activeTurnsByAgent = s.activeTurnsByAgent ∧
      sampled.terminalAtByAgent = s.terminalAtByAgent ∧
      sampled.lastProcessed =
        s.lastProcessed.set (normalizePubkey platform agentPubkey) event ∧
      sampled.savedByCommunity = s.savedByCommunity ∧
      Applied platform agentPubkey event now sampled
        (processEvent platform agentPubkey event now s) := by
  obtain ⟨hactive, hterminals, hmarks, hsaved⟩ := sampleClockOffset_fields
    (normalizePubkey platform agentPubkey)
    { s with lastProcessed := s.lastProcessed.set (normalizePubkey platform agentPubkey) event }
    platform event.timestamp now
  refine ⟨_, hactive, hterminals, hmarks, hsaved, ?_⟩
  unfold processEvent
  dsimp only
  rw [if_pos hpass]
  exact applied_applyEvent _ _ _ _ _

theorem get?_marks {agentKey : String}
    (h : s'.lastProcessed = s.lastProcessed.set agentKey event) (key : String) :
    s'.lastProcessed.get? key =
      if key = agentKey then some event else s.lastProcessed.get? key := by
  rw [h]
  exact EntryMap.get?_set _ _ _ _

/-- An event that has passed keeps what is remembered of the turns. -/
theorem world_process {agentPubkey : String} {now : ℤ}
    (h : World platform named w.store w.ended) (htimed : Timed platform event)
    (hnamed : named → event.turnId ≠ some "") :
    World platform named (w.process platform agentPubkey event now).store
      (w.process platform agentPubkey event now).ended := by
  unfold Watched.process
  dsimp only
  by_cases hpass : passesWatermark platform (normalizePubkey platform agentPubkey) event w.store =
      true
  swap
  · rw [if_neg hpass, processEvent, if_neg hpass]
    exact h
  rw [if_pos hpass]
  obtain ⟨sampled, hactive, hterminals, hmarks, hsaved, happlied⟩ :=
    processEvent_of_passes now hpass
  generalize processEvent platform agentPubkey event now w.store = after at happlied ⊢
  have hbeside := beside_applied happlied
  obtain ⟨terminal, hterminal⟩ := Option.isSome_iff_exists.mp htimed
  have hcap : TombstonesCapped sampled :=
    fun key terminals hget => h.tombstones key terminals (hterminals ▸ hget)
  have htombs := tombstoned_applied hcap hterminal happlied
  generalize normalizePubkey platform agentPubkey = agentKey at *
  have hmark := get?_marks (hbeside.marks.trans hmarks)
  have hbefore : ∀ key turnId, isActive sampled key turnId = isActive w.store key turnId :=
    fun key turnId => isActive_congr (by rw [hactive])
  have htombsBefore : ∀ key turnId, terminalAt sampled key turnId = terminalAt w.store key turnId :=
    fun key turnId => terminalAt_congr (by rw [hterminals])
  refine ⟨allKept_applied (hactive ▸ h.turns) hnamed happlied, ?_, htombs.capped, ?_⟩
  · intro key last hlast
    rw [hmark] at hlast
    split_ifs at hlast
    · rw [← Option.some.inj hlast]
      exact htimed
    · exact h.timed key last hlast
  · intro key turnId ended hended
    change noteEnded agentKey event w.store after w.ended key turnId = some ended at hended
    by_cases hkey : key = agentKey
    · subst hkey
      rw [noteEnded, if_neg (not_not.mpr rfl)] at hended
      split_ifs at hended with hrunning hends
      · -- the turn ends here
        obtain rfl : event = ended := Option.some.inj hended
        have hidle : isActive after key turnId = false := eq_false_of_ne_true hrunning
        refine ⟨hidle, ⟨event, by rw [hmark, if_pos rfl], not_newer_self event⟩, terminal,
          hterminal, Or.inl (htombs.set hends.1 turnId (hends.2.imp id fun hopen => ?_))⟩
        exact ⟨(hbefore key turnId).trans hopen, hidle⟩
      · -- it has ended before, and keeps its tombstone unless that makes room
        obtain ⟨hidle, ⟨last, hlast, hbehind⟩, endedAt, hat, htombstone⟩ :=
          h.remembered key turnId ended hended
        have hnewer := passesWatermark_iff.mp hpass last hlast
        have hread : Timed platform ended := by
          rw [Timed, hat]
          rfl
        have hpast := newer_of_newer htimed hread (h.timed key last hlast) hnewer hbehind
        have hkept := htombs.kept turnId
          (fun hids => hends ⟨hids.1, Or.inl hids.2⟩) ((hbefore key turnId).trans hidle)
        rw [htombsBefore] at hkept
        refine ⟨eq_false_of_ne_true hrunning,
          ⟨event, by rw [hmark, if_pos rfl], not_newer_of_newer htimed hread hpast⟩,
          endedAt, hat, ?_⟩
        rcases hkept with hsame | hdropped
        · rw [hsame]
          refine htombstone.imp id fun hgone => ⟨hgone.1, htombs.full ?_⟩
          rw [Full, hterminals]
          exact hgone.2
        · exact Or.inr hdropped
    · rw [noteEnded, if_pos hkey] at hended
      obtain ⟨hidle, hbehind, htombstone⟩ := h.remembered key turnId ended hended
      have hget : after.terminalAtByAgent.get? key = w.store.terminalAtByAgent.get? key := by
        rw [hbeside.terminals key hkey, hterminals]
      refine ⟨?_, ?_, ?_⟩
      · rw [isActive_congr (hbeside.turns key hkey), hbefore]
        exact hidle
      · rw [hmark, if_neg hkey]
        exact hbehind
      · rw [terminalAt_congr hget, Full, hget]
        exact htombstone

theorem World.of_same (h : World platform named s ended)
    (hturns : s'.activeTurnsByAgent = s.activeTurnsByAgent)
    (hmarks : s'.lastProcessed = s.lastProcessed)
    (hterminals : s'.terminalAtByAgent = s.terminalAtByAgent) : World platform named s' ended :=
  h.of_idle (hturns ▸ h.turns) hmarks hterminals fun key turnId hactive => by
    rwa [isActive, hturns] at hactive

theorem processEvent_saved (agentPubkey : String) (event : ObserverEvent) (now : ℤ) :
    (processEvent platform agentPubkey event now s).savedByCommunity = s.savedByCommunity := by
  by_cases hpass : passesWatermark platform (normalizePubkey platform agentPubkey) event s = true
  · obtain ⟨sampled, -, -, -, hsaved, happlied⟩ := processEvent_of_passes now hpass
    exact (beside_applied happlied).saved.trans hsaved
  · unfold processEvent
    dsimp only
    rw [if_neg hpass]

theorem sound_process (h : Sound platform named w) (agentPubkey : String) (now : ℤ)
    (htimed : Timed platform event)
    (hnamed : named → event.turnId ≠ some "") :
    Sound platform named (w.process platform agentPubkey event now) where
  world := world_process h.world htimed hnamed
  saved communityId snap hsnap := by
    rw [process_store, processEvent_saved] at hsnap
    exact h.saved communityId snap hsnap
  caches := by
    rw [process_store]
    exact cachesFresh_processEvent h.caches _ _ _

theorem sound_sync (agentPubkey : String) (events : List (ObserverEvent × ℤ)) :
    ∀ w : Watched, Sound platform named w → (∀ event ∈ events, Timed platform event.1) →
      (named → ∀ event ∈ events, event.1.turnId ≠ some "") →
      Sound platform named (w.step platform (.sync agentPubkey events)) := by
  induction events with
  | nil => exact fun w h _ _ => h
  | cons event events ih =>
    intro w h htimed hnamed
    obtain ⟨hfirst, hrest⟩ := List.forall_mem_cons.mp htimed
    apply ih _ (sound_process h agentPubkey event.2 hfirst fun hn =>
      hnamed hn event List.mem_cons_self) hrest
    exact fun hn other hother => hnamed hn other (List.mem_cons_of_mem _ hother)

theorem world_empty (platform : Platform) (named : Prop) (s : TurnsStore) :
    World platform named { emptyStore with savedByCommunity := s.savedByCommunity }
      fun _ _ => none where
  turns _ _ hturns := by cases hturns
  timed _ _ hlast := by cases hlast
  tombstones _ _ hterminals := by cases hterminals
  remembered _ _ _ hended := by cases hended

theorem cachesFresh_empty (platform : Platform) {s : TurnsStore}
    (hagents : s.cachedTurnSummaries = EntryMap.empty)
    (hchannels : s.cachedChannelTurnSummaries = none) : CachesFresh platform s where
  agents key cached hkey := by
    rw [hagents] at hkey
    cases hkey
  channels cached hkey := by
    rw [hchannels] at hkey
    cases hkey

theorem sound_reset (h : Sound platform named w) :
    Sound platform named (w.step platform .reset) where
  world := world_empty platform named w.store
  saved := h.saved
  caches := cachesFresh_empty platform rfl rfl

theorem sound_save (h : Sound platform named w) (communityId : String) :
    Sound platform named (w.step platform (.save communityId)) := by
  change Sound platform named
    { w with
      store := saveActiveAgentTurnsForCommunity communityId w.store
      savedRead := Function.update w.savedRead communityId w.read
      savedEnded := Function.update w.savedEnded communityId w.ended }
  unfold saveActiveAgentTurnsForCommunity
  split_ifs with hempty
  · refine ⟨h.world.of_same rfl rfl rfl, ?_, cachesFresh_of_same h.caches rfl rfl rfl rfl⟩
    intro other snap hsnap
    change World platform named (storeOf snap)
      (Function.update w.savedEnded communityId w.ended other)
    have hget := (EntryMap.get?_erase _ _ _).symm.trans hsnap
    split_ifs at hget with hother
    rw [Function.update_of_ne hother]
    exact h.saved other snap hget
  · refine ⟨h.world.of_same rfl rfl rfl, ?_, cachesFresh_of_same h.caches rfl rfl rfl rfl⟩
    intro other snap hsnap
    change World platform named (storeOf snap)
      (Function.update w.savedEnded communityId w.ended other)
    have hget := (EntryMap.get?_set _ _ _ _).symm.trans hsnap
    split_ifs at hget with hother
    · rw [hother, Function.update_self, ← Option.some.inj hget]
      exact h.world.of_same (by rfl) (by rfl) (by rfl)
    · rw [Function.update_of_ne hother]
      exact h.saved other snap hget

theorem saved_of_erase (h : Sound platform named w) {communityId other : String}
    {snap : TurnsStoreSnapshot}
    (hsnap : (w.store.savedByCommunity.erase communityId).get? other = some snap) :
    World platform named (storeOf snap) (w.savedEnded other) := by
  rw [EntryMap.get?_erase] at hsnap
  split_ifs at hsnap
  exact h.saved other snap hsnap

/-- The turns of a snapshot are open again, with a fresh sign of life. -/
theorem get?_restored (turns : EntryMap String TurnMap) (now : ℤ) (key : String) :
    (turns.mapValues fun agentTurns => agentTurns.mapValues fun turn =>
        { turn with lastActivityAt := now }).get? key =
      (turns.get? key).map fun agentTurns => agentTurns.mapValues fun turn =>
        { turn with lastActivityAt := now } :=
  EntryMap.get?_mapValues _ _ _

theorem world_restored {snap : TurnsStoreSnapshot} (h : World platform named (storeOf snap) ended)
    (now : ℤ) (s : TurnsStore) (hturns : s.activeTurnsByAgent = snap.turns.mapValues
      fun agentTurns => agentTurns.mapValues fun turn => { turn with lastActivityAt := now })
    (hmarks : s.lastProcessed = snap.watermarks)
    (hterminals : s.terminalAtByAgent = snap.terminals) : World platform named s ended := by
  refine h.of_idle ?_ hmarks hterminals ?_
  · intro key turns hget
    rw [hturns, get?_restored] at hget
    obtain ⟨held, hheld, rfl⟩ := Option.map_eq_some_iff.mp hget
    exact (h.turns key held hheld).mapValues _
  · intro key turnId hactive
    obtain ⟨turns, turn, hget, hturn⟩ := isActive_iff.mp hactive
    rw [hturns, get?_restored] at hget
    obtain ⟨held, hheld, rfl⟩ := Option.map_eq_some_iff.mp hget
    rw [EntryMap.get?_mapValues] at hturn
    obtain ⟨found, hfound, -⟩ := Option.map_eq_some_iff.mp hturn
    exact isActive_iff.mpr ⟨held, found, hheld, hfound⟩

theorem sound_restore (h : Sound platform named w) (communityId : String) (now : ℤ) :
    Sound platform named (w.step platform (.restore communityId now)) := by
  simp only [Watched.step, restoreActiveAgentTurnsForCommunity]
  cases hsnap : w.store.savedByCommunity.get? communityId with
  | none => exact ⟨h.world, h.saved, h.caches⟩
  | some snap =>
    refine ⟨?_, fun other snap hother => saved_of_erase h hother,
      cachesFresh_empty platform rfl rfl⟩
    exact world_restored (h.saved communityId snap hsnap) now _ rfl rfl rfl

theorem getActiveTurnsForAgent_fields (platform : Platform) (agentPubkey : Option String)
    (s : TurnsStore) :
    (getActiveTurnsForAgent platform agentPubkey s).2.activeTurnsByAgent = s.activeTurnsByAgent ∧
      (getActiveTurnsForAgent platform agentPubkey s).2.lastProcessed = s.lastProcessed ∧
      (getActiveTurnsForAgent platform agentPubkey s).2.terminalAtByAgent = s.terminalAtByAgent ∧
      (getActiveTurnsForAgent platform agentPubkey s).2.savedByCommunity = s.savedByCommunity := by
  unfold getActiveTurnsForAgent
  cases truthy agentPubkey with
  | none => exact ⟨rfl, rfl, rfl, rfl⟩
  | some agentPubkey =>
    dsimp only
    cases s.activeTurnsByAgent.get? (normalizePubkey platform agentPubkey) with
    | none => exact ⟨rfl, rfl, rfl, rfl⟩
    | some turns =>
      dsimp only
      split_ifs
      · exact ⟨rfl, rfl, rfl, rfl⟩
      · cases s.cachedTurnSummaries.get? (normalizePubkey platform agentPubkey) <;>
          exact ⟨rfl, rfl, rfl, rfl⟩

theorem getActiveTurnsByChannel_fields (platform : Platform) (s : TurnsStore) :
    (getActiveTurnsByChannel platform s).2.activeTurnsByAgent = s.activeTurnsByAgent ∧
      (getActiveTurnsByChannel platform s).2.lastProcessed = s.lastProcessed ∧
      (getActiveTurnsByChannel platform s).2.terminalAtByAgent = s.terminalAtByAgent ∧
      (getActiveTurnsByChannel platform s).2.savedByCommunity = s.savedByCommunity := by
  unfold getActiveTurnsByChannel
  cases s.cachedChannelTurnSummaries with
  | some cached => exact ⟨rfl, rfl, rfl, rfl⟩
  | none =>
    dsimp only
    split_ifs <;> exact ⟨rfl, rfl, rfl, rfl⟩

theorem sound_step (h : Sound platform named w) (op : TurnOp)
    (htimed : ∀ event ∈ eventsOf op, Timed platform event)
    (hnamed : named → ∀ event ∈ eventsOf op, event.turnId ≠ some "") :
    Sound platform named (w.step platform op) := by
  cases op with
  | sync agentPubkey events =>
    apply sound_sync agentPubkey events w h
    · exact fun event hevent => htimed event.1 (List.mem_map_of_mem hevent)
    · exact fun hn event hevent => hnamed hn event.1 (List.mem_map_of_mem hevent)
  | prune now =>
    obtain ⟨hkept, hcaches⟩ := pruneExpired_kept h.world.turns h.caches now
    obtain ⟨hterminals, hmarks, hsaved⟩ := pruneExpired_fields now w.store
    refine ⟨h.world.of_idle hkept hmarks hterminals fun _ _ => isActive_pruneExpired, ?_, hcaches⟩
    exact fun communityId snap hsnap => h.saved communityId snap (hsaved ▸ hsnap)
  | reset => exact sound_reset h
  | save communityId => exact sound_save h communityId
  | restore communityId now => exact sound_restore h communityId now
  | clearSaved communityId =>
    exact ⟨h.world.of_same rfl rfl rfl, fun other snap hother => saved_of_erase h hother,
      cachesFresh_of_same h.caches rfl rfl rfl rfl⟩
  | readAgent agentPubkey =>
    obtain ⟨hturns, hmarks, hterminals, hsaved⟩ :=
      getActiveTurnsForAgent_fields platform agentPubkey w.store
    exact ⟨h.world.of_same hturns hmarks hterminals,
      fun communityId snap hsnap => h.saved communityId snap (hsaved ▸ hsnap),
      (getActiveTurnsForAgent_fresh h.caches agentPubkey).2⟩
  | readChannels =>
    obtain ⟨hturns, hmarks, hterminals, hsaved⟩ :=
      getActiveTurnsByChannel_fields platform w.store
    exact ⟨h.world.of_same hturns hmarks hterminals,
      fun communityId snap hsnap => h.saved communityId snap (hsaved ▸ hsnap),
      (getActiveTurnsByChannel_fresh h.caches).2⟩

theorem sound_watch (ops : List TurnOp)
    (htimed : ∀ op ∈ ops, ∀ event ∈ eventsOf op, Timed platform event)
    (hnamed : named → ∀ op ∈ ops, ∀ event ∈ eventsOf op, event.turnId ≠ some "") :
    Sound platform named (watch platform ops) := by
  have hfold : ∀ w : Watched, Sound platform named w →
      Sound platform named (ops.foldl (Watched.step platform) w) := by
    induction ops with
    | nil => exact fun w h => h
    | cons op ops ih =>
      intro w h
      obtain ⟨hfirst, hrest⟩ := List.forall_mem_cons.mp htimed
      apply ih hrest (fun hn => (List.forall_mem_cons.mp (hnamed hn)).2)
      exact sound_step h op hfirst fun hn => (List.forall_mem_cons.mp (hnamed hn)).1
  apply hfold
  refine ⟨world_empty platform named emptyStore, ?_, cachesFresh_empty platform rfl rfl⟩
  exact fun communityId snap hsnap => by cases hsnap

end Invariant

section Replays

variable {platform : Platform} {s : TurnsStore} {key : String} {seen : ObserverEvent}

/-- The event lies at or behind the watermark of the agent. -/
def Behind (platform : Platform) (s : TurnsStore) (key : String) (seen : ObserverEvent) : Prop :=
  ∃ last, s.lastProcessed.get? key = some last ∧ ¬Newer platform seen last

def MarksTimed (platform : Platform) (s : TurnsStore) : Prop :=
  ∀ key last, s.lastProcessed.get? key = some last → Timed platform last

theorem processEvent_of_behind {agentPubkey : String} (now : ℤ)
    (h : Behind platform s (normalizePubkey platform agentPubkey) seen) :
    processEvent platform agentPubkey seen now s = s := by
  obtain ⟨last, hlast, hbehind⟩ := h
  have hpass : ¬passesWatermark platform (normalizePubkey platform agentPubkey) seen s = true :=
    fun hpass => hbehind (passesWatermark_iff.mp hpass last hlast)
  unfold processEvent
  dsimp only
  rw [if_neg hpass]

/-- The watermark after an event: the event when it has passed, and else what it was. -/
theorem marks_processEvent (agentPubkey : String) (event : ObserverEvent) (now : ℤ)
    (key : String) :
    (processEvent platform agentPubkey event now s).lastProcessed.get? key =
      if key = normalizePubkey platform agentPubkey ∧
          passesWatermark platform (normalizePubkey platform agentPubkey) event s = true then
        some event
      else s.lastProcessed.get? key := by
  by_cases hpass : passesWatermark platform (normalizePubkey platform agentPubkey) event s = true
  · obtain ⟨sampled, -, -, hmarks, -, happlied⟩ := processEvent_of_passes now hpass
    rw [get?_marks ((beside_applied happlied).marks.trans hmarks)]
    simp only [hpass, and_true]
  · rw [if_neg fun h => hpass h.2]
    unfold processEvent
    dsimp only
    rw [if_neg hpass]

theorem marksTimed_processEvent {event : ObserverEvent} (h : MarksTimed platform s)
    (htimed : Timed platform event) (agentPubkey : String) (now : ℤ) :
    MarksTimed platform (processEvent platform agentPubkey event now s) := by
  intro key last hlast
  rw [marks_processEvent] at hlast
  split_ifs at hlast
  · rw [← Option.some.inj hlast]
    exact htimed
  · exact h key last hlast

theorem behind_self {event : ObserverEvent} (agentPubkey : String) (now : ℤ) :
    Behind platform (processEvent platform agentPubkey event now s)
      (normalizePubkey platform agentPubkey) event := by
  by_cases hpass : passesWatermark platform (normalizePubkey platform agentPubkey) event s = true
  · refine ⟨event, ?_, not_newer_self event⟩
    rw [marks_processEvent, if_pos ⟨rfl, hpass⟩]
  · rw [passesWatermark_iff] at hpass
    push Not at hpass
    have hseen : Behind platform s (normalizePubkey platform agentPubkey) event := hpass
    rw [processEvent_of_behind now hseen]
    exact hseen

/-- The watermark only moves on. -/
theorem behind_processEvent {event : ObserverEvent} (hmarks : MarksTimed platform s)
    (htimed : Timed platform event) (hseen : Timed platform seen) (agentPubkey : String) (now : ℤ)
    (h : Behind platform s key seen) :
    Behind platform (processEvent platform agentPubkey event now s) key seen := by
  obtain ⟨last, hlast, hbehind⟩ := h
  by_cases hmoved : key = normalizePubkey platform agentPubkey ∧
      passesWatermark platform (normalizePubkey platform agentPubkey) event s = true
  · refine ⟨event, by rw [marks_processEvent, if_pos hmoved], ?_⟩
    have hnewer := passesWatermark_iff.mp hmoved.2 last (hmoved.1 ▸ hlast)
    exact not_newer_of_newer htimed hseen
      (newer_of_newer htimed hseen (hmarks key last hlast) hnewer hbehind)
  · exact ⟨last, by rw [marks_processEvent, if_neg hmoved]; exact hlast, hbehind⟩

theorem behind_sync (agentPubkey : String) (events : List (ObserverEvent × ℤ)) :
    ∀ s, MarksTimed platform s → (∀ event ∈ events, Timed platform event.1) →
      MarksTimed platform (syncAgentTurnsFromEvents platform agentPubkey events s) ∧
        (∀ key seen, Timed platform seen → Behind platform s key seen →
          Behind platform (syncAgentTurnsFromEvents platform agentPubkey events s) key seen) ∧
        ∀ event ∈ events,
          Behind platform (syncAgentTurnsFromEvents platform agentPubkey events s)
            (normalizePubkey platform agentPubkey) event.1 := by
  induction events with
  | nil => exact fun s h _ => ⟨h, fun _ _ _ hbehind => hbehind, fun event hmem => by cases hmem⟩
  | cons event events ih =>
    intro s h htimed
    obtain ⟨hfirst, hrest⟩ := List.forall_mem_cons.mp htimed
    obtain ⟨hmarks, hkept, hbehind⟩ :=
      ih _ (marksTimed_processEvent h hfirst agentPubkey event.2) hrest
    refine ⟨hmarks, fun key seen hseen hold => ?_, List.forall_mem_cons.mpr ⟨?_, hbehind⟩⟩
    · exact hkept key seen hseen (behind_processEvent h hfirst hseen agentPubkey event.2 hold)
    · exact hkept _ _ hfirst (behind_self agentPubkey event.2)

/-- A buffer of events behind the watermark changes nothing. -/
theorem sync_of_behind {agentPubkey : String} {events : List (ObserverEvent × ℤ)}
    (h : ∀ event ∈ events,
      Behind platform s (normalizePubkey platform agentPubkey) event.1) :
    syncAgentTurnsFromEvents platform agentPubkey events s = s := by
  induction events with
  | nil => rfl
  | cons event events ih =>
    obtain ⟨hfirst, hrest⟩ := List.forall_mem_cons.mp h
    have hstep : syncAgentTurnsFromEvents platform agentPubkey (event :: events) s =
        syncAgentTurnsFromEvents platform agentPubkey events
          (processEvent platform agentPubkey event.1 event.2 s) := rfl
    rw [hstep, processEvent_of_behind event.2 hfirst, ih hrest]

/-- What has been read lies behind the watermarks. -/
def AllBehind (platform : Platform) (s : TurnsStore) (read : List (String × ObserverEvent)) :
    Prop :=
  ∀ seen ∈ read, Timed platform seen.2 ∧ Behind platform s seen.1 seen.2

theorem AllBehind.of_marks {s' : TurnsStore} {read : List (String × ObserverEvent)}
    (h : AllBehind platform s read) (hmarks : s'.lastProcessed = s.lastProcessed) :
    AllBehind platform s' read := by
  intro seen hseen
  rw [Behind, hmarks]
  exact h seen hseen

/-- So it does in the store and in the communities that have been saved. -/
structure ReadBehind (platform : Platform) (w : Watched) : Prop where
  read : AllBehind platform w.store w.read
  saved : ∀ communityId snap, w.store.savedByCommunity.get? communityId = some snap →
    AllBehind platform (storeOf snap) (w.savedRead communityId)

variable {w : Watched} {named : Prop}

theorem readBehind_process (h : ReadBehind platform w) (hmarks : MarksTimed platform w.store)
    (agentPubkey : String) {event : ObserverEvent} (now : ℤ) (htimed : Timed platform event) :
    ReadBehind platform (w.process platform agentPubkey event now) where
  read := by
    refine List.forall_mem_cons.mpr ⟨⟨htimed, behind_self agentPubkey now⟩, fun seen hseen => ?_⟩
    obtain ⟨hread, hbehind⟩ := h.read seen hseen
    exact ⟨hread, behind_processEvent hmarks htimed hread agentPubkey now hbehind⟩
  saved communityId snap hsnap := by
    rw [process_store, processEvent_saved] at hsnap
    exact h.saved communityId snap hsnap

theorem readBehind_sync (agentPubkey : String) (events : List (ObserverEvent × ℤ)) :
    ∀ w : Watched, ReadBehind platform w → MarksTimed platform w.store →
      (∀ event ∈ events, Timed platform event.1) →
      ReadBehind platform (w.step platform (.sync agentPubkey events)) := by
  induction events with
  | nil => exact fun w h _ _ => h
  | cons event events ih =>
    intro w h hmarks htimed
    obtain ⟨hfirst, hrest⟩ := List.forall_mem_cons.mp htimed
    apply ih _ (readBehind_process h hmarks agentPubkey event.2 hfirst) ?_ hrest
    exact marksTimed_processEvent hmarks hfirst agentPubkey event.2

theorem readBehind_save (h : ReadBehind platform w) (communityId : String) :
    ReadBehind platform (w.step platform (.save communityId)) := by
  obtain ⟨hread, hsaved⟩ := h
  have hmarks : (saveActiveAgentTurnsForCommunity communityId w.store).lastProcessed =
      w.store.lastProcessed := by
    unfold saveActiveAgentTurnsForCommunity
    split_ifs <;> rfl
  refine ⟨hread.of_marks hmarks, fun other snap hsnap => ?_⟩
  change AllBehind platform (storeOf snap) (Function.update w.savedRead communityId w.read other)
  change (saveActiveAgentTurnsForCommunity communityId w.store).savedByCommunity.get? other =
    some snap at hsnap
  by_cases hother : other = communityId
  · -- the snapshot takes the watermarks along
    rw [hother, Function.update_self]
    unfold saveActiveAgentTurnsForCommunity at hsnap
    split_ifs at hsnap
    · rw [EntryMap.get?_erase, if_pos hother] at hsnap
      cases hsnap
    · have hget := (EntryMap.get?_set _ _ _ _).symm.trans hsnap
      rw [if_pos hother] at hget
      rw [← Option.some.inj hget]
      exact hread.of_marks rfl
  · rw [Function.update_of_ne hother]
    apply hsaved other snap
    unfold saveActiveAgentTurnsForCommunity at hsnap
    split_ifs at hsnap
    · rwa [EntryMap.get?_erase, if_neg hother] at hsnap
    · have hget := (EntryMap.get?_set _ _ _ _).symm.trans hsnap
      rwa [if_neg hother] at hget

theorem ReadBehind.of_erase (h : ReadBehind platform w) {communityId other : String}
    {snap : TurnsStoreSnapshot}
    (hsnap : (w.store.savedByCommunity.erase communityId).get? other = some snap) :
    AllBehind platform (storeOf snap) (w.savedRead other) := by
  rw [EntryMap.get?_erase] at hsnap
  split_ifs at hsnap
  exact h.saved other snap hsnap

theorem readBehind_restore (h : ReadBehind platform w) (communityId : String) (now : ℤ) :
    ReadBehind platform (w.step platform (.restore communityId now)) := by
  simp only [Watched.step, restoreActiveAgentTurnsForCommunity]
  cases hsnap : w.store.savedByCommunity.get? communityId with
  | none => exact ⟨h.read, h.saved⟩
  | some snap =>
    refine ⟨?_, fun other snap hother => h.of_erase hother⟩
    exact (h.saved communityId snap hsnap).of_marks rfl

theorem readBehind_step (h : ReadBehind platform w) (hmarks : MarksTimed platform w.store)
    (op : TurnOp) (htimed : ∀ event ∈ eventsOf op, Timed platform event) :
    ReadBehind platform (w.step platform op) := by
  cases op with
  | sync agentPubkey events =>
    exact readBehind_sync agentPubkey events w h hmarks
      fun event hevent => htimed event.1 (List.mem_map_of_mem hevent)
  | prune now =>
    obtain ⟨-, hsame, hsaved⟩ := pruneExpired_fields now w.store
    exact ⟨h.read.of_marks hsame, fun communityId snap hsnap =>
      h.saved communityId snap (hsaved ▸ hsnap)⟩
  | reset => exact ⟨fun seen hseen => (List.not_mem_nil hseen).elim, h.saved⟩
  | save communityId => exact readBehind_save h communityId
  | restore communityId now => exact readBehind_restore h communityId now
  | clearSaved communityId => exact ⟨h.read.of_marks rfl, fun other snap => h.of_erase⟩
  | readAgent agentPubkey =>
    obtain ⟨-, hsame, -, hsaved⟩ := getActiveTurnsForAgent_fields platform agentPubkey w.store
    exact ⟨h.read.of_marks hsame, fun communityId snap hsnap =>
      h.saved communityId snap (hsaved ▸ hsnap)⟩
  | readChannels =>
    obtain ⟨-, hsame, -, hsaved⟩ := getActiveTurnsByChannel_fields platform w.store
    exact ⟨h.read.of_marks hsame, fun communityId snap hsnap =>
      h.saved communityId snap (hsaved ▸ hsnap)⟩

theorem readBehind_watch (ops : List TurnOp)
    (htimed : ∀ op ∈ ops, ∀ event ∈ eventsOf op, Timed platform event) :
    ReadBehind platform (watch platform ops) := by
  induction ops using List.reverseRecOn with
  | nil =>
    refine ⟨fun seen hseen => (List.not_mem_nil hseen).elim, fun communityId snap hsnap => ?_⟩
    cases hsnap
  | append_singleton ops op ih =>
    have hbefore : ∀ op ∈ ops, ∀ event ∈ eventsOf op, Timed platform event :=
      fun earlier hmem => htimed earlier (List.mem_append_left _ hmem)
    have hmarks : MarksTimed platform (watch platform ops).store :=
      (sound_watch ops hbefore (fun h : False => h.elim)).world.timed
    have hsnoc : watch platform (ops ++ [op]) = (watch platform ops).step platform op :=
      List.foldl_append
    rw [hsnoc]
    exact readBehind_step (ih hbefore) hmarks op (htimed op (by simp))

end Replays

section Results

variable {platform : Platform} {named : Prop}

/-- An event opens a turn that has ended only as the tombstone lets it. -/
theorem revived_processEvent {w : Watched} {agentPubkey : String} {event ended : ObserverEvent}
    {now : ℤ} {key turnId : String} (h : World platform named w.store w.ended)
    (htimed : Timed platform event) (hended : w.ended key turnId = some ended)
    (hopen : isActive (processEvent platform agentPubkey event now w.store) key turnId = true) :
    key = normalizePubkey platform agentPubkey ∧
      MayRevive platform w.store key turnId ended event := by
  obtain ⟨hidle, ⟨last, hlast, hbehind⟩, endedAt, hat, htombstone⟩ :=
    h.remembered key turnId ended hended
  by_cases hpass : passesWatermark platform (normalizePubkey platform agentPubkey) event w.store =
      true
  swap
  · unfold processEvent at hopen
    dsimp only at hopen
    rw [if_neg hpass, hidle] at hopen
    cases hopen
  obtain ⟨sampled, hactive, hterminals, -, -, happlied⟩ := processEvent_of_passes now hpass
  generalize processEvent platform agentPubkey event now w.store = after at happlied hopen
  have hbefore : isActive sampled key turnId = false := by
    rw [isActive, hactive]
    exact hidle
  by_cases hkey : key = normalizePubkey platform agentPubkey
  swap
  · rw [isActive_congr ((beside_applied happlied).turns key hkey), hbefore] at hopen
    cases hopen
  refine ⟨hkey, ?_⟩
  rw [hkey] at hopen hbefore
  cases happlied with
  | started hkind =>
    refine Or.inl ⟨hkind, ?_⟩
    rcases isActive_startTurn hopen with hid | hold
    · exact hid.symm
    · rw [hbefore] at hold
      cases hold
  | ended hkind =>
    have hold := isActive_of_ended (ended_endTurn _ _ _ _ _ _) hopen
    rw [hbefore] at hold
    cases hold
  | refreshed _ hturns hturn =>
    have hold := isActive_refreshed hturns hturn hopen
    rw [hbefore] at hold
    cases hold
  | @revived id _ _ hkind hid hlate =>
    obtain rfl : turnId = id := by
      rcases isActive_startTurn hopen with hid | hold
      · exact hid
      · rw [hbefore] at hold
        cases hold
    obtain ⟨frameAt, hframe⟩ := Option.isSome_iff_exists.mp htimed
    refine Or.inr ⟨hkind, (truthy_eq_some hid).1, endedAt, frameAt, hat, hframe, ?_⟩
    have hstones : terminalAt sampled key turnId = terminalAt w.store key turnId :=
      terminalAt_congr (by rw [hterminals])
    rw [← hkey, hstones, hframe] at hlate
    rcases htombstone with hstone | hgone
    · -- the tombstone stands, so the frame is later
      rw [hstone] at hlate
      exact Or.inl (not_le.mp (of_decide_eq_false hlate))
    · -- the frame is newer than the watermark, which is not behind the end
      have hread : Timed platform ended := by
        rw [Timed, hat]
        rfl
      have hnewer := newer_of_newer htimed hread (h.timed key last hlast)
        (passesWatermark_iff.mp hpass last (hkey ▸ hlast)) hbehind
      rw [newer_iff hframe hat] at hnewer
      rcases hnewer with hlater | ⟨hsame, -⟩
      · exact Or.inl hlater
      · exact Or.inr ⟨hsame.symm, hgone⟩
  | ignored =>
    rw [hbefore] at hopen
    cases hopen

theorem opened_step {s : TurnsStore} (op : TurnOp) {key turnId : String}
    (hsync : ∀ agentPubkey events, op ≠ .sync agentPubkey events)
    (hopen : isActive (step platform s op) key turnId = true) :
    isActive s key turnId = true ∨
      ∃ communityId now snap turns, op = .restore communityId now ∧
        s.savedByCommunity.get? communityId = some snap ∧
        snap.turns.get? key = some turns ∧ (turns.get? turnId).isSome = true := by
  have hsame : (step platform s op).activeTurnsByAgent = s.activeTurnsByAgent →
      isActive s key turnId = true := by
    intro hturns
    rwa [isActive, hturns] at hopen
  cases op with
  | sync agentPubkey events => exact absurd rfl (hsync agentPubkey events)
  | prune now => exact Or.inl (isActive_pruneExpired hopen)
  | reset => cases hopen
  | save communityId =>
    left
    apply hsame
    change (saveActiveAgentTurnsForCommunity communityId s).activeTurnsByAgent = _
    unfold saveActiveAgentTurnsForCommunity
    split_ifs <;> rfl
  | restore communityId now =>
    change isActive (restoreActiveAgentTurnsForCommunity communityId now s) key turnId =
      true at hopen
    unfold restoreActiveAgentTurnsForCommunity at hopen
    cases hsnap : s.savedByCommunity.get? communityId with
    | none =>
      rw [hsnap] at hopen
      exact Or.inl hopen
    | some snap =>
      rw [hsnap] at hopen
      obtain ⟨turns, turn, hget, hturn⟩ := isActive_iff.mp hopen
      have hmap := (get?_restored snap.turns now key).symm.trans hget
      obtain ⟨held, hheld, rfl⟩ := Option.map_eq_some_iff.mp hmap
      rw [EntryMap.get?_mapValues] at hturn
      obtain ⟨found, hfound, -⟩ := Option.map_eq_some_iff.mp hturn
      exact Or.inr ⟨communityId, now, snap, held, rfl, hsnap, hheld, by rw [hfound]; rfl⟩
  | clearSaved communityId => exact Or.inl hopen
  | readAgent agentPubkey =>
      exact Or.inl (hsame (getActiveTurnsForAgent_fields platform agentPubkey s).1)
  | readChannels => exact Or.inl (hsame (getActiveTurnsByChannel_fields platform s).1)

/-- After any operations whose events can be dated, replays have no effect, an end is only undone as
it may be, and what is shown is what the turns and the clocks give. -/
theorem replays_safe (platform : Platform) (ops : List TurnOp)
    (htimed : ∀ op ∈ ops, ∀ event ∈ eventsOf op, Timed platform event) :
    ReplaySafe platform ops := by
  have hsound := sound_watch ops htimed (fun h : False => h.elim)
  have hcaches : CachesFresh platform (run platform ops) := by
    rw [← watch_store]
    exact hsound.caches
  refine
    { replay := ?_
      idle := ?_
      revived := ?_
      opened := fun op _ _ hsync hopen => opened_step op hsync hopen
      capped := ?_
      agents := fun agentPubkey => (getActiveTurnsForAgent_fresh hcaches agentPubkey).1
      channels := (getActiveTurnsByChannel_fresh hcaches).1 }
  · intro agentPubkey again hagain
    rw [← watch_store]
    apply sync_of_behind
    exact fun event hevent => ((readBehind_watch ops htimed).read _ (hagain event hevent)).2
  · intro key turnId ended hended
    rw [← watch_store]
    exact (hsound.world.remembered key turnId ended hended).idle
  · intro agentPubkey before event now key turnId ended hbefore hevent hended hopen
    have hall : ∀ op ∈ ops ++ [.sync agentPubkey before], ∀ event ∈ eventsOf op,
        Timed platform event := by
      intro op hop
      rcases List.mem_append.mp hop with hop | hop
      · exact htimed op hop
      · rw [List.mem_singleton.mp hop]
        intro event hmem
        obtain ⟨read, hread, rfl⟩ := List.mem_map.mp hmem
        exact hbefore read hread
    rw [← watch_store] at hopen ⊢
    have hworld := (sound_watch _ hall (fun h : False => h.elim)).world
    exact revived_processEvent hworld hevent hended hopen
  · intro hnamed key turns hturns
    have hall := sound_watch ops htimed (fun _ : True => hnamed)
    rw [← watch_store] at hturns
    exact (hall.world.turns key turns hturns).capped trivial

/-- A browser that knows two times and orders texts by their characters. -/
def samplePlatform : Platform where
  dateParse text :=
    if text = "2026-01-01T00:00:00.000Z" then some 1767225600000
    else if text = "2026-01-01T00:00:05.000Z" then some 1767225605000
    else none
  toLowerCase text := String.ofList (text.toList.map Char.toLower)
  localeCompare := codeCompare
  compare_total := codeCompare_total
  compare_trans := codeCompare_trans

def sampleEvent (seq : ℕ) (timestamp kind turnId : String) : ObserverEvent :=
  ⟨seq, timestamp, kind, some "general", some turnId, none⟩

theorem sample_replays_safe :
    ReplaySafe samplePlatform
      [.sync "A1" [(sampleEvent 1 "2026-01-01T00:00:00.000Z" "turn_started" "t1", 1767225600100),
          (sampleEvent 2 "2026-01-01T00:00:05.000Z" "turn_completed" "t1", 1767225605100)],
        .prune 1767225640000, .save "home", .reset, .restore "home" 1767225650000,
        .readChannels] := by
  apply replays_safe
  decide

/-- Seventeen turns end in one instant, and then a frame of the first one arrives. -/
def endedTogether : List (ObserverEvent × ℤ) :=
  (List.range 17).map fun seq =>
    (sampleEvent seq "2026-01-01T00:00:00.000Z" "turn_error" ("t" ++ toString seq), 1767225600100)

def lateFrame : ObserverEvent := sampleEvent 17 "2026-01-01T00:00:00.000Z" "turn_liveness" "t0"

/-- The tombstone of the first one has gone, so a frame that is not later opens it. -/
theorem dropped_tombstone_revives :
    ¬∀ (platform : Platform) (agentPubkey : String) (before : List (ObserverEvent × ℤ))
      (event : ObserverEvent) (now : ℤ) (key turnId : String) (ended : ObserverEvent),
      (∀ event ∈ before, Timed platform event.1) → Timed platform event →
      (before.map Prod.fst ++ [event]).Pairwise
        (fun first second => compareObserverEvents platform first second ≤ 0) →
      (watch platform [.sync agentPubkey before]).ended key turnId = some ended →
      isActive (processEvent platform agentPubkey event now
        (run platform [.sync agentPubkey before])) key turnId = true →
      event.kind = "turn_started" ∨
        ∃ endedAt frameAt, platform.dateParse ended.timestamp = some endedAt ∧
          platform.dateParse event.timestamp = some frameAt ∧ endedAt < frameAt := by
  intro h
  have hrevived := h samplePlatform "a1" endedTogether lateFrame 1767225600200 "a1" "t0"
    (sampleEvent 0 "2026-01-01T00:00:00.000Z" "turn_error" "t0") (by decide +kernel)
    (by decide +kernel) (by decide +kernel) (by decide +kernel) (by decide +kernel)
  rcases hrevived with hkind | ⟨endedAt, frameAt, hended, hframe, hlater⟩
  · exact absurd hkind (by decide)
  · have hsame : some endedAt = some frameAt := hended.symm.trans hframe
    rw [Option.some.inj hsame] at hlater
    exact lt_irrefl _ hlater

end Results

end Buzz.AgentTurns
