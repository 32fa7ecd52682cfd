import Buzz.TurnSteps

/-!
# Summaries of turns and the cap on them

A summary that is kept is the one that would be computed afresh, since every change
of the turns or of the clock of an agent drops its summaries. No agent has more than
four turns while none of them has the empty text for its key.
-/

namespace Buzz.AgentTurns

section Badges

variable (platform : Platform)

/-- What a turn shows. -/
def badge (entry : String × ActiveTurn) : String × ℤ := (entry.2.channelId, entry.2.startedAt)

def badges (turns : TurnMap) : List (String × ℤ) := turns.entries.map badge

theorem earliestByChannel_congr {turns turns' : TurnMap} (h : badges turns = badges turns') :
    earliestByChannel turns = earliestByChannel turns' := by
  have hfold : ∀ turns : TurnMap, earliestByChannel turns =
      (badges turns).foldl (fun earliest shown =>
        if (earliest.get? shown.1).any fun prior => decide (prior ≤ shown.2) then earliest
        else earliest.set shown.1 shown.2) EntryMap.empty := by
    intro turns
    rw [badges, List.foldl_map]
    rfl
  rw [hfold, hfold, h]

theorem turnSummaries_congr {turns turns' : TurnMap} (offset : ℤ)
    (h : badges turns = badges turns') :
    turnSummaries platform offset turns = turnSummaries platform offset turns' := by
  rw [turnSummaries, earliestByChannel_congr h, turnSummaries]

theorem turnSummaries_nil {turns : TurnMap} (offset : ℤ) (h : turns.entries = []) :
    turnSummaries platform offset turns = [] := by
  have hnone : (earliestByChannel turns).entries = [] := by
    rw [earliestByChannel, h]
    rfl
  rw [turnSummaries, hnone]
  simp

def agentBadges (agent : String × TurnMap) : String × List (String × ℤ) := (agent.1, badges agent.2)

/-- The channels only depend on what the turns show. -/
theorem channelTurns_congr {s s' : TurnsStore}
    (hturns : s'.activeTurnsByAgent.entries.map agentBadges =
      s.activeTurnsByAgent.entries.map agentBadges)
    (hoffsets : s'.clockOffsetByAgent = s.clockOffsetByAgent) :
    channelTurns s' = channelTurns s := by
  have hfold : ∀ s : TurnsStore, channelTurns s =
      (s.activeTurnsByAgent.entries.map agentBadges).foldl (fun summaries agent =>
        agent.2.foldl (fun summaries shown =>
          addTurn agent.1 ((s.clockOffsetByAgent.get? agent.1).getD 0) summaries
            ("", ⟨"", shown.1, shown.2, 0⟩)) summaries) EntryMap.empty := by
    intro s
    rw [List.foldl_map, channelTurns]
    congr 1
    funext summaries agent
    rw [agentBadges, badges, List.foldl_map]
    rfl
  rw [hfold, hfold, hturns, hoffsets]

end Badges

section Caches

variable {platform : Platform} {s s' : TurnsStore} {agentKey : String}

/-- The summaries of an agent from its turns and its clock. -/
def freshTurnsForAgent (platform : Platform) (s : TurnsStore) (agentKey : String) :
    List ActiveTurnSummary :=
  match s.activeTurnsByAgent.get? agentKey with
  | none => []
  | some turns => turnSummaries platform ((s.clockOffsetByAgent.get? agentKey).getD 0) turns

structure CachesFresh (platform : Platform) (s : TurnsStore) : Prop where
  agents : ∀ key cached, s.cachedTurnSummaries.get? key = some cached →
    cached = freshTurnsForAgent platform s key
  channels : ∀ cached, s.cachedChannelTurnSummaries = some cached →
    cached = channelTurnSummaries platform s

theorem freshTurnsForAgent_congr
    (hturns : s'.activeTurnsByAgent.get? agentKey = s.activeTurnsByAgent.get? agentKey)
    (hoffset : s'.clockOffsetByAgent.get? agentKey = s.clockOffsetByAgent.get? agentKey) :
    freshTurnsForAgent platform s' agentKey = freshTurnsForAgent platform s agentKey := by
  rw [freshTurnsForAgent, hturns, hoffset, freshTurnsForAgent]

/-- Dropping the summaries of an agent covers every change to it. -/
theorem cachesFresh_invalidate (h : CachesFresh platform s)
    (hcached : s'.cachedTurnSummaries = s.cachedTurnSummaries)
    (hturns : ∀ other, other ≠ agentKey →
      s'.activeTurnsByAgent.get? other = s.activeTurnsByAgent.get? other)
    (hoffsets : ∀ other, other ≠ agentKey →
      s'.clockOffsetByAgent.get? other = s.clockOffsetByAgent.get? other) :
    CachesFresh platform (invalidateCache agentKey s') where
  agents key cached hkey := by
    have hget : (s'.cachedTurnSummaries.erase agentKey).get? key = some cached := hkey
    rw [EntryMap.get?_erase, hcached] at hget
    split_ifs at hget with hne
    rw [h.agents key cached hget]
    exact (freshTurnsForAgent_congr (hturns key hne) (hoffsets key hne)).symm
  channels cached hchannels := by cases hchannels

theorem cachesFresh_of_badges (h : CachesFresh platform s)
    (hcached : s'.cachedTurnSummaries = s.cachedTurnSummaries)
    (hchannels : s'.cachedChannelTurnSummaries = s.cachedChannelTurnSummaries)
    (hoffsets : s'.clockOffsetByAgent = s.clockOffsetByAgent)
    (hturns : s'.activeTurnsByAgent.entries.map agentBadges =
      s.activeTurnsByAgent.entries.map agentBadges)
    (hagents : ∀ key, freshTurnsForAgent platform s' key = freshTurnsForAgent platform s key) :
    CachesFresh platform s' where
  agents key cached hkey := by
    rw [hcached] at hkey
    rw [h.agents key cached hkey, hagents key]
  channels cached hkey := by
    rw [hchannels] at hkey
    rw [h.channels cached hkey, channelTurnSummaries, channelTurnSummaries,
      channelTurns_congr hturns hoffsets]

theorem cachesFresh_of_same (h : CachesFresh platform s)
    (hcached : s'.cachedTurnSummaries = s.cachedTurnSummaries)
    (hchannels : s'.cachedChannelTurnSummaries = s.cachedChannelTurnSummaries)
    (hoffsets : s'.clockOffsetByAgent = s.clockOffsetByAgent)
    (hturns : s'.activeTurnsByAgent = s.activeTurnsByAgent) : CachesFresh platform s' :=
  cachesFresh_of_badges h hcached hchannels hoffsets (by rw [hturns]) fun key =>
    freshTurnsForAgent_congr (by rw [hturns]) (by rw [hoffsets])

theorem cachesFresh_refreshed {turns : TurnMap} {turnId : String} {turn refreshed : ActiveTurn}
    (h : CachesFresh platform s) (hturns : s.activeTurnsByAgent.get? agentKey = some turns)
    (hturn : turns.get? turnId = some turn)
    (hbadge : badge (turnId, refreshed) = badge (turnId, turn)) :
    CachesFresh platform
      { s with
        activeTurnsByAgent :=
          s.activeTurnsByAgent.set agentKey (turns.set turnId refreshed) } := by
  have hbadges : badges (turns.set turnId refreshed) = badges turns :=
    EntryMap.map_entries_set hturn hbadge
  refine cachesFresh_of_badges h (by rfl) (by rfl) (by rfl) ?_ fun key => ?_
  · apply EntryMap.map_entries_set hturns
    rw [agentBadges, hbadges, agentBadges]
  · by_cases hkey : key = agentKey
    · subst hkey
      have hset : (s.activeTurnsByAgent.set key (turns.set turnId refreshed)).get? key =
          some (turns.set turnId refreshed) := (EntryMap.get?_set _ _ _ _).trans (if_pos rfl)
      rw [freshTurnsForAgent, freshTurnsForAgent, hset, hturns]
      exact turnSummaries_congr platform _ hbadges
    · exact freshTurnsForAgent_congr ((EntryMap.get?_set _ _ _ _).trans (if_neg hkey)) rfl

theorem cachesFresh_recordTerminal (h : CachesFresh platform s) (turnId : String)
    (terminal : Option ℤ) : CachesFresh platform (recordTerminal agentKey turnId terminal s) := by
  cases terminal with
  | none => exact h
  | some terminal => exact cachesFresh_of_same h rfl rfl rfl rfl

theorem cachesFresh_putTurns (h : CachesFresh platform s) (turns : TurnMap) :
    CachesFresh platform (invalidateCache agentKey (putTurns agentKey turns s)) :=
  cachesFresh_invalidate h rfl (beside_putTurns turns).turns fun _ _ => rfl

theorem cachesFresh_startTurn (h : CachesFresh platform s)
    (agentPubkey channelId turnId timestamp : String) (now : ℤ) :
    CachesFresh platform (startTurn platform agentPubkey channelId turnId timestamp now s) :=
  cachesFresh_invalidate h rfl (beside_startTurn _ _ _ _ _ _ s).turns fun _ _ => rfl

theorem cachesFresh_ended {turnId : Option String} {terminal : Option ℤ}
    (h : CachesFresh platform s) (hended : Ended agentKey turnId terminal s s') :
    CachesFresh platform s' := by
  cases hended with
  | untracked => exact h
  | noted => exact cachesFresh_recordTerminal h _ _
  | closed => exact cachesFresh_putTurns (cachesFresh_recordTerminal h _ _) _
  | kept => exact cachesFresh_putTurns h _

theorem cachesFresh_sample (h : CachesFresh platform s) (timestamp : String) (now : ℤ) :
    CachesFresh platform (sampleClockOffset platform agentKey timestamp now s) := by
  unfold sampleClockOffset
  cases platform.dateParse timestamp with
  | none => exact h
  | some parsed =>
    dsimp only
    split_ifs
    · exact h
    · exact cachesFresh_invalidate h rfl (fun _ _ => rfl) fun other hne =>
        (EntryMap.get?_set _ _ _ _).trans (if_neg hne)

theorem cachesFresh_applied {agentPubkey : String} {event : ObserverEvent} {now : ℤ}
    (h : CachesFresh platform s) (happlied : Applied platform agentPubkey event now s s') :
    CachesFresh platform s' := by
  cases happlied with
  | started => exact cachesFresh_startTurn h _ _ _ _ _
  | ended => exact cachesFresh_ended h (ended_endTurn _ _ _ _ _ _)
  | refreshed _ hturns hturn => exact cachesFresh_refreshed h hturns hturn rfl
  | revived => exact cachesFresh_startTurn h _ _ _ _ _
  | ignored => exact h

theorem cachesFresh_processEvent (h : CachesFresh platform s) (agentPubkey : String)
    (event : ObserverEvent) (now : ℤ) :
    CachesFresh platform (processEvent platform agentPubkey event now s) := by
  unfold processEvent
  dsimp only
  split_ifs
  · have hmarked : CachesFresh platform
        { s with
          lastProcessed := s.lastProcessed.set (normalizePubkey platform agentPubkey) event } :=
      cachesFresh_of_same h rfl rfl rfl rfl
    exact cachesFresh_applied (cachesFresh_sample hmarked _ _) (applied_applyEvent _ _ _ _ _)
  · exact h

end Caches

section Cap

variable {named : Prop} {turns : TurnMap}

/-- Turns of an agent that is tracked. While all are `named`, so that none has the empty text for
its key, they are at most four. -/
structure WellKept (named : Prop) (turns : TurnMap) : Prop where
  inhabited : turns.entries ≠ []
  capped : named → turns.entries.length ≤ maxTurnsPerAgent
  nonblank : named → turns.get? "" = none

theorem WellKept.of_subset {kept : TurnMap} (h : WellKept named turns)
    (hlength : kept.entries.length ≤ turns.entries.length)
    (hget : ∀ id turn, kept.get? id = some turn → turns.get? id = some turn)
    (hinhabited : kept.entries ≠ []) : WellKept named kept where
  inhabited := hinhabited
  capped hnamed := hlength.trans (h.capped hnamed)
  nonblank hnamed := by
    rw [Option.eq_none_iff_forall_ne_some]
    intro turn hturn
    have hblank := h.nonblank hnamed
    rw [hget "" turn hturn] at hblank
    cases hblank

theorem WellKept.refreshed {id : String} {turn refreshed : ActiveTurn} (h : WellKept named turns)
    (hturn : turns.get? id = some turn) : WellKept named (turns.set id refreshed) := by
  have hlength : (turns.set id refreshed).entries.length = turns.entries.length := by
    rw [EntryMap.length_set, hturn]
    rfl
  refine ⟨?_, ?_, ?_⟩
  · rw [← List.length_pos_iff, hlength, List.length_pos_iff]
    exact h.inhabited
  · rw [hlength]
    exact h.capped
  · intro hnamed
    rw [EntryMap.get?_set]
    split_ifs with hid
    · subst hid
      rw [h.nonblank hnamed] at hturn
      cases hturn
    · exact h.nonblank hnamed

theorem WellKept.mapValues (h : WellKept named turns) (f : ActiveTurn → ActiveTurn) :
    WellKept named (turns.mapValues f) where
  inhabited hempty := h.inhabited (List.map_eq_nil_iff.mp hempty)
  capped hnamed := by
    change (turns.entries.map _).length ≤ maxTurnsPerAgent
    rw [List.length_map]
    exact h.capped hnamed
  nonblank hnamed := by
    rw [EntryMap.get?_mapValues, h.nonblank hnamed]
    rfl

theorem olderTurn_spec (oldest : Option (String × ActiveTurn)) (entry : String × ActiveTurn) :
    ∃ found, olderTurn oldest entry = some found ∧ (oldest = some found ∨ found = entry) := by
  unfold olderTurn
  cases oldest with
  | none => exact ⟨entry, rfl, Or.inr rfl⟩
  | some held =>
    dsimp only
    split_ifs
    · exact ⟨entry, rfl, Or.inr rfl⟩
    · exact ⟨held, rfl, Or.inl rfl⟩

theorem foldl_olderTurn_spec (entries : List (String × ActiveTurn)) :
    ∀ oldest, oldest.isSome = true ∨ entries ≠ [] →
      ∃ found, entries.foldl olderTurn oldest = some found ∧
        (oldest = some found ∨ found ∈ entries) := by
  induction entries with
  | nil =>
    intro oldest h
    obtain ⟨found, hfound⟩ := Option.isSome_iff_exists.mp (h.resolve_right fun hne => hne rfl)
    exact ⟨found, hfound, Or.inl hfound⟩
  | cons entry entries ih =>
    intro oldest _
    obtain ⟨next, hnext, hfrom⟩ := olderTurn_spec oldest entry
    obtain ⟨found, hfold, hfound⟩ := ih (some next) (Or.inl rfl)
    rw [List.foldl_cons, hnext]
    refine ⟨found, hfold, ?_⟩
    rcases hfound with hhead | hmem
    · rw [← Option.some.inj hhead]
      rcases hfrom with hheld | rfl
      · exact Or.inl hheld
      · exact Or.inr List.mem_cons_self
    · exact Or.inr (List.mem_cons_of_mem _ hmem)

/-- At the cap one turn goes for the one that comes. -/
theorem length_evictOldest (hcapped : turns.entries.length ≤ maxTurnsPerAgent)
    (hblank : turns.get? "" = none) (id : String) (turn : ActiveTurn) :
    ((evictOldest turns id).set id turn).entries.length ≤ maxTurnsPerAgent := by
  by_cases hfull : maxTurnsPerAgent ≤ turns.entries.length ∧ (turns.get? id).isNone = true
  · have hne : turns.entries ≠ [] := by
      intro hempty
      rw [hempty] at hfull
      exact absurd hfull.1 (by decide)
    obtain ⟨oldest, holdest, hmem⟩ := foldl_olderTurn_spec turns.entries none (Or.inr hne)
    have hget : turns.get? oldest.1 = some oldest.2 :=
      EntryMap.get?_eq_some_iff.mpr (hmem.resolve_left (Option.some_ne_none _).symm)
    have hnamed : oldest.1 ≠ "" := by
      intro h
      rw [h, hblank] at hget
      cases hget
    have hevict : evictOldest turns id = turns.erase oldest.1 := by
      have htruthy : truthy ((oldestTurn turns).map Prod.fst) = some oldest.1 := by
        rw [oldestTurn, holdest]
        simp [truthy, hnamed]
      rw [evictOldest, if_pos hfull, htruthy]
    have hlength := EntryMap.length_erase hget
    rw [hevict, EntryMap.length_set]
    split_ifs <;> omega
  · rw [evictOldest, if_neg hfull, EntryMap.length_set]
    split_ifs with hsome
    · exact hcapped
    · have hnone : (turns.get? id).isNone = true := by simpa using hsome
      have hroom : ¬maxTurnsPerAgent ≤ turns.entries.length := fun h => hfull ⟨h, hnone⟩
      omega

theorem WellKept.started {id : String} (turn : ActiveTurn)
    (h : WellKept named turns ∨ turns = EntryMap.empty) (hid : named → id ≠ "") :
    WellKept named ((evictOldest turns id).set id turn) := by
  have hcapped : named → turns.entries.length ≤ maxTurnsPerAgent := by
    rcases h with h | rfl
    · exact h.capped
    · exact fun _ => by decide
  have hblank : named → turns.get? "" = none := by
    rcases h with h | rfl
    · exact h.nonblank
    · exact fun _ => rfl
  refine ⟨?_, ?_, ?_⟩
  · intro hempty
    have hset : ((evictOldest turns id).set id turn).get? id = some turn :=
      (EntryMap.get?_set _ _ _ _).trans (if_pos rfl)
    rw [EntryMap.get?_eq_some_iff, hempty] at hset
    cases hset
  · exact fun hnamed => length_evictOldest (hcapped hnamed) (hblank hnamed) id turn
  · intro hnamed
    rw [EntryMap.get?_set, if_neg (hid hnamed).symm, Option.eq_none_iff_forall_ne_some]
    intro held hheld
    have hnone := hblank hnamed
    rw [get?_of_evictOldest hheld] at hnone
    cases hnone

def AllKept (named : Prop) (active : EntryMap String TurnMap) : Prop :=
  ∀ key turns, active.get? key = some turns → WellKept named turns

variable {s s' : TurnsStore} {agentKey : String}

theorem allKept_set {active : EntryMap String TurnMap} (h : AllKept named active)
    (hturns : WellKept named turns) : AllKept named (active.set agentKey turns) := by
  intro key held hheld
  rw [EntryMap.get?_set] at hheld
  split_ifs at hheld
  · rw [← Option.some.inj hheld]
    exact hturns
  · exact h key held hheld

theorem allKept_putTurns (h : AllKept named s.activeTurnsByAgent)
    (hturns : turns.entries ≠ [] → WellKept named turns) :
    AllKept named (putTurns agentKey turns s).activeTurnsByAgent := by
  intro key held hheld
  rw [get?_putTurns] at hheld
  split_ifs at hheld with hkey hempty
  · rw [← Option.some.inj hheld]
    exact hturns hempty
  · exact h key held hheld

theorem length_filter_entries (turns : TurnMap) (keep : String × ActiveTurn → Bool) :
    (turns.filter keep).entries.length ≤ turns.entries.length :=
  List.length_filter_le keep turns.entries

theorem allKept_startTurn {platform : Platform} {id : String}
    (h : AllKept named s.activeTurnsByAgent) (hid : named → id ≠ "")
    (agentPubkey channelId timestamp : String) (now : ℤ) :
    AllKept named
      (startTurn platform agentPubkey channelId id timestamp now s).activeTurnsByAgent := by
  apply allKept_set h
  apply WellKept.started _ _ hid
  cases hget : s.activeTurnsByAgent.get? (normalizePubkey platform agentPubkey) with
  | none => exact Or.inr rfl
  | some turns => exact Or.inl (h _ turns hget)

theorem allKept_ended {turnId : Option String} {terminal : Option ℤ}
    (h : AllKept named s.activeTurnsByAgent) (hended : Ended agentKey turnId terminal s s') :
    AllKept named s'.activeTurnsByAgent := by
  cases hended with
  | untracked => exact h
  | noted =>
    rw [recordTerminal_activeTurns]
    exact h
  | closed hturns =>
    apply allKept_putTurns
    · rw [recordTerminal_activeTurns]
      exact h
    · apply (h _ _ hturns).of_subset (length_filter_entries _ _)
      exact fun _ _ hturn => EntryMap.get?_filter_of_some hturn
  | kept _ hturns => exact allKept_putTurns h fun _ => h _ _ hturns

theorem truthy_eq_some {text : Option String} {value : String} (h : truthy text = some value) :
    text = some value ∧ value ≠ "" := by
  obtain ⟨hsome, hne⟩ := Option.filter_eq_some_iff.mp h
  exact ⟨hsome, of_decide_eq_true hne⟩

theorem seq_ne_blank (text : String) : "seq-" ++ text ≠ "" := by
  intro h
  have hchars := congrArg String.toList h
  simp at hchars

theorem allKept_applied {platform : Platform} {agentPubkey : String} {event : ObserverEvent}
    {now : ℤ} (h : AllKept named s.activeTurnsByAgent) (hnamed : named → event.turnId ≠ some "")
    (happlied : Applied platform agentPubkey event now s s') :
    AllKept named s'.activeTurnsByAgent := by
  cases happlied with
  | started =>
    apply allKept_startTurn h
    intro hn hblank
    unfold startedTurnId at hblank
    cases hid : event.turnId with
    | none =>
      rw [hid] at hblank
      exact seq_ne_blank _ hblank
    | some id =>
      rw [hid] at hblank
      exact hnamed hn (hid.trans (congrArg some hblank))
  | ended => exact allKept_ended h (ended_endTurn _ _ _ _ _ _)
  | refreshed _ hturns hturn => exact allKept_set h ((h _ _ hturns).refreshed hturn)
  | revived _ hid => exact allKept_startTurn h (fun _ => (truthy_eq_some hid).2) _ _ _ _
  | ignored => exact h

end Cap

section Pruning

variable {platform : Platform} {named : Prop} {s : TurnsStore}

theorem unexpired_of_length {now : ℤ} {turns : TurnMap}
    (h : ¬(unexpired now turns).entries.length < turns.entries.length) :
    unexpired now turns = turns :=
  EntryMap.ext_entries (List.filter_sublist.eq_of_length_le (not_lt.mp h))

/-- Pruning an agent keeps its store sound, whether something goes or not. -/
theorem pruneAgent_kept (h : AllKept named s.activeTurnsByAgent) (hfresh : CachesFresh platform s)
    (now : ℤ) (agentKey : String) :
    AllKept named (pruneAgent now s agentKey).activeTurnsByAgent ∧
      CachesFresh platform (pruneAgent now s agentKey) := by
  unfold pruneAgent
  cases hturns : s.activeTurnsByAgent.get? agentKey with
  | none => exact ⟨h, hfresh⟩
  | some turns =>
    dsimp only
    split_ifs with hpause hless
    · exact ⟨h, hfresh⟩
    · refine ⟨?_, cachesFresh_putTurns hfresh _⟩
      apply allKept_putTurns h
      apply (h _ _ hturns).of_subset (length_filter_entries _ _)
      exact fun _ _ hturn => EntryMap.get?_filter_of_some hturn
    · -- nothing has expired, so the turns are set to what they are
      have hsame : putTurns agentKey (unexpired now turns) s = s := by
        rw [unexpired_of_length hless, putTurns, if_neg (h _ _ hturns).inhabited,
          EntryMap.set_of_get? hturns]
      rw [hsame]
      exact ⟨h, hfresh⟩

theorem pruneExpired_kept (h : AllKept named s.activeTurnsByAgent)
    (hfresh : CachesFresh platform s) (now : ℤ) :
    AllKept named (pruneExpired now s).activeTurnsByAgent ∧
      CachesFresh platform (pruneExpired now s) := by
  unfold pruneExpired
  generalize s.activeTurnsByAgent.entries.map Prod.fst = keys
  induction keys generalizing s with
  | nil => exact ⟨h, hfresh⟩
  | cons key keys ih =>
    obtain ⟨hkept, hcaches⟩ := pruneAgent_kept h hfresh now key
    exact ih hkept hcaches

/-- Pruning takes turns away and leaves everything else. -/
theorem pruneAgent_fields (now : ℤ) (s : TurnsStore) (agentKey : String) :
    (pruneAgent now s agentKey).terminalAtByAgent = s.terminalAtByAgent ∧
      (pruneAgent now s agentKey).lastProcessed = s.lastProcessed ∧
      (pruneAgent now s agentKey).savedByCommunity = s.savedByCommunity := by
  unfold pruneAgent
  cases s.activeTurnsByAgent.get? agentKey with
  | none => exact ⟨rfl, rfl, rfl⟩
  | some turns =>
    dsimp only
    split_ifs <;> exact ⟨rfl, rfl, rfl⟩

theorem pruneExpired_fields (now : ℤ) (s : TurnsStore) :
    (pruneExpired now s).terminalAtByAgent = s.terminalAtByAgent ∧
      (pruneExpired now s).lastProcessed = s.lastProcessed ∧
      (pruneExpired now s).savedByCommunity = s.savedByCommunity := by
  unfold pruneExpired
  generalize s.activeTurnsByAgent.entries.map Prod.fst = keys
  induction keys generalizing s with
  | nil => exact ⟨rfl, rfl, rfl⟩
  | cons key keys ih =>
    obtain ⟨hterminals, hmarks, hsaved⟩ := pruneAgent_fields now s key
    obtain ⟨hterminals', hmarks', hsaved'⟩ := ih (pruneAgent now s key)
    exact ⟨hterminals'.trans hterminals, hmarks'.trans hmarks, hsaved'.trans hsaved⟩

theorem isActive_pruneAgent {now : ℤ} {agentKey key turnId : String}
    (h : isActive (pruneAgent now s agentKey) key turnId = true) :
    isActive s key turnId = true := by
  unfold pruneAgent at h
  cases hturns : s.activeTurnsByAgent.get? agentKey with
  | none =>
    rw [hturns] at h
    exact h
  | some turns =>
    rw [hturns] at h
    dsimp only at h
    by_cases hkey : key = agentKey
    · subst hkey
      have hput : ∀ t : TurnsStore, isActive (putTurns key (unexpired now turns) t) key turnId =
          ((unexpired now turns).get? turnId).isSome := fun _ => isActive_putTurns
      split_ifs at h
      · exact h
      all_goals
        rw [hput] at h
        obtain ⟨turn, hturn⟩ := Option.isSome_iff_exists.mp h
        exact isActive_iff.mpr ⟨turns, turn, hturns, EntryMap.get?_filter_of_some hturn⟩
    · have hother : ∀ t : TurnsStore, t.activeTurnsByAgent = s.activeTurnsByAgent →
          isActive (putTurns agentKey (unexpired now turns) t) key turnId =
            isActive s key turnId := by
        intro t ht
        apply isActive_congr
        rw [get?_putTurns, if_neg hkey, ht]
      split_ifs at h
      · exact h
      · rw [← hother _ rfl]
        exact h
      · rw [← hother _ rfl]
        exact h

theorem isActive_pruneExpired {now : ℤ} {key turnId : String}
    (h : isActive (pruneExpired now s) key turnId = true) : isActive s key turnId = true := by
  unfold pruneExpired at h
  generalize s.activeTurnsByAgent.entries.map Prod.fst = keys at h
  induction keys generalizing s with
  | nil => exact h
  | cons agentKey keys ih => exact isActive_pruneAgent (ih h)

end Pruning

section Reading

variable {platform : Platform} {s : TurnsStore}

theorem getActiveTurnsForAgent_fresh (h : CachesFresh platform s) (agentPubkey : Option String) :
    (getActiveTurnsForAgent platform agentPubkey s).1 =
        ((truthy agentPubkey).map fun agentPubkey =>
          freshTurnsForAgent platform s (normalizePubkey platform agentPubkey)).getD [] ∧
      CachesFresh platform (getActiveTurnsForAgent platform agentPubkey s).2 := by
  unfold getActiveTurnsForAgent
  cases truthy agentPubkey with
  | none => exact ⟨rfl, h⟩
  | some agentPubkey =>
    rw [Option.map_some, Option.getD_some]
    dsimp only
    generalize normalizePubkey platform agentPubkey = key
    cases hturns : s.activeTurnsByAgent.get? key with
    | none =>
      rw [freshTurnsForAgent, hturns]
      exact ⟨rfl, h⟩
    | some turns =>
      have hfresh : freshTurnsForAgent platform s key =
          turnSummaries platform ((s.clockOffsetByAgent.get? key).getD 0) turns := by
        rw [freshTurnsForAgent, hturns]
      dsimp only
      split_ifs with hempty
      · rw [hfresh, turnSummaries_nil platform _ hempty]
        exact ⟨rfl, h⟩
      · cases hcached : s.cachedTurnSummaries.get? key with
        | some cached => exact ⟨h.agents key cached hcached, h⟩
        | none =>
          refine ⟨hfresh.symm, ?_, h.channels⟩
          intro other cached hother
          have hget := (EntryMap.get?_set _ _ _ _).symm.trans hother
          split_ifs at hget with hkey
          · rw [hkey, ← Option.some.inj hget]
            exact hfresh.symm
          · exact h.agents other cached hget

theorem getActiveTurnsByChannel_fresh (h : CachesFresh platform s) :
    (getActiveTurnsByChannel platform s).1 = channelTurnSummaries platform s ∧
      CachesFresh platform (getActiveTurnsByChannel platform s).2 := by
  unfold getActiveTurnsByChannel
  cases hcached : s.cachedChannelTurnSummaries with
  | some cached => exact ⟨h.channels cached hcached, h⟩
  | none =>
    dsimp only
    split_ifs with hempty
    · refine ⟨?_, h⟩
      have hnone : (channelTurns s).entries = [] := by
        rw [channelTurns, hempty]
        rfl
      rw [channelTurnSummaries, hnone]
      simp
    · refine ⟨rfl, h.agents, ?_⟩
      intro cached hchannels
      exact (Option.some.inj hchannels).symm

end Reading

end Buzz.AgentTurns
