import Mathlib.Data.List.Nodup
import Mathlib.Tactic

/-!
# The restart budget of MCP servers

A server of the agent is healthy or dead. A dead server counts its attempts and
is spawned again by the next call once its backoff is over, until the budget is
used up and its tools are withdrawn. A failing call or a timeout kills a healthy
server, and that is meant to count as an attempt. But the count lives in the
dead state alone: it is gone with every successful spawn, and the next kill
starts again at one.
-/

namespace Buzz

inductive ClientState where
  | healthy (client : ℕ) (tools : List String)
  | dead (attempts nextRetry : ℕ) (reason : String) (tools : List String)
  deriving DecidableEq, Repr

structure McpServer where
  name : String
  client : ClientState
  deriving DecidableEq, Repr

inductive RestartCheck where
  | healthy
  | ready (attemptN : ℕ) (prevTools : List String)
  deriving DecidableEq, Repr

def checkRestartState (server : McpServer) (maxAttempts now : ℕ) : Except String RestartCheck :=
  match server.client with
  | .healthy _ _ => .ok .healthy
  | .dead attempts nextRetry reason tools =>
      if maxAttempts ≤ attempts then
        .error ("The MCP server '" ++ server.name ++
          "' is unavailable (exhausted). Its tools have been removed for this session.")
      else if now < nextRetry then
        .error ("server '" ++ server.name ++ "' is recovering (last error: " ++ reason ++
          "). Try again later or use a different tool.")
      else .ok (.ready (attempts + 1) tools)

/-- A tool under its qualified name. -/
structure ToolEntry where
  qname : String
  serverIdx : ℕ
  bare : String
  deriving DecidableEq, Repr

/-- `hookTimeouts` counts consecutive hook timeouts; a server that is not listed has none. -/
structure McpRegistry where
  entries : List ToolEntry
  servers : List McpServer
  maxAttempts : ℕ
  backoffBase : ℕ
  backoffMax : ℕ
  hookTimeouts : String → ℕ

/-- Milliseconds to wait; the jitter lies between -20 and 20 percent. -/
def backoff (attempt base max : ℕ) (jitterPct : ℤ) : ℕ :=
  let shift := min (attempt - 1) 20
  let capped := min (base * 2 ^ shift) max
  ((capped : ℤ) + ((capped : ℤ) * jitterPct).tdiv 100).toNat

namespace McpRegistry

variable (registry : McpRegistry)

def modifyServer (idx : ℕ) (f : ClientState → ClientState) : McpRegistry :=
  { registry with
    servers := registry.servers.modify idx fun server => { server with client := f server.client } }

/-- Whether the model sees the tool. -/
def isVisible (entry : ToolEntry) : Bool :=
  !entry.bare.startsWith "_" &&
    match registry.servers[entry.serverIdx]? with
    | none => false
    | some server =>
        match server.client with
        | .healthy _ tools => tools.contains entry.bare
        | .dead attempts _ _ tools => attempts < registry.maxAttempts && tools.contains entry.bare

def tools : List ToolEntry :=
  registry.entries.filter registry.isVisible

/-- The state after a kill; a dead server stays as it is. -/
def killed (reason : String) (now : ℕ) (jitterPct : ℤ) : ClientState → ClientState
  | .healthy _ tools =>
      .dead 1 (now + backoff 1 registry.backoffBase registry.backoffMax jitterPct) reason tools
  | state => state

def killServer (name reason : String) (now : ℕ) (jitterPct : ℤ) : McpRegistry :=
  registry.modifyServer (registry.servers.findIdx fun server => server.name == name)
    (registry.killed reason now jitterPct)

/-- A failed call kills the client it was made on and no later one. -/
def killAndMarkDeadIfCurrent (idx failedClient : ℕ) (reason : String) (now : ℕ) (jitterPct : ℤ) :
    McpRegistry :=
  registry.modifyServer idx fun state =>
    match state with
    | .healthy client _ =>
        if client = failedClient then registry.killed reason now jitterPct state else state
    | state => state

def setHookTimeouts (name : String) (count : ℕ) : McpRegistry :=
  { registry with hookTimeouts := Function.update registry.hookTimeouts name count }

def dayMs : ℕ := 86400000

/-- What a failed spawn stores. -/
def restartFailed (attemptN : ℕ) (prevTools : List String) (error : String) (now : ℕ)
    (jitterPct : ℤ) : ClientState :=
  .dead attemptN
    (if registry.maxAttempts ≤ attemptN then now + dayMs
      else now + backoff attemptN registry.backoffBase registry.backoffMax jitterPct)
    ("restart failed: " ++ error) prevTools

end McpRegistry

section Spawn

def maxMcpServers : ℕ := 16

def maxToolsPerSession : ℕ := 128

def maxNameLen : ℕ := 128

def maxQnameLen : ℕ := 64

def validName (s : String) : Bool :=
  s ≠ "" && s.utf8ByteSize ≤ maxNameLen &&
    s.toList.all fun c => c.isAlphanum || c == '_' || c == '-'

def hasSeparator (s : String) : Bool :=
  s.toList.tails.any fun rest => ['_', '_'].isPrefixOf rest

structure McpConfig where
  mcpMaxRestartAttempts : ℕ
  mcpRestartBaseMs : ℕ
  mcpRestartMaxMs : ℕ

/-- A configured server with the tools that its first spawn lists. -/
structure SpawnedServer where
  name : String
  tools : List String
  deriving DecidableEq, Repr

def spawnTools (serverName : String) (idx : ℕ) :
    List String → List ToolEntry → Except String (List ToolEntry)
  | [], entries => .ok entries
  | bare :: rest, entries =>
      let qname := serverName ++ "__" ++ bare
      if maxToolsPerSession ≤ entries.length then
        .error ("too many tools (>" ++ toString maxToolsPerSession ++ ")")
      else if !validName bare || hasSeparator bare then .error ("invalid tool name: " ++ bare)
      else if maxQnameLen < qname.utf8ByteSize then
        .error ("qualified tool name too long: " ++ qname ++ " (" ++ toString qname.utf8ByteSize ++
          " > " ++ toString maxQnameLen ++ ")")
      else if entries.any (fun entry => entry.qname == qname) then
        .error ("duplicate tool: " ++ qname)
      else spawnTools serverName idx rest (entries ++ [⟨qname, idx, bare⟩])

def spawnServers : List SpawnedServer → McpRegistry → Except String McpRegistry
  | [], registry => .ok registry
  | server :: rest, registry =>
      if !validName server.name || hasSeparator server.name then
        .error ("invalid server name: " ++ server.name)
      else if registry.servers.any (fun other => other.name == server.name) then
        .error ("duplicate server name: " ++ server.name)
      else
        let idx := registry.servers.length
        match spawnTools server.name idx server.tools registry.entries with
        | .error error => .error error
        | .ok entries =>
            spawnServers rest
              { registry with
                servers := registry.servers ++ [⟨server.name, .healthy idx server.tools⟩]
                entries := entries }

/-- The registry of a session whose servers all spawn. -/
def spawnAll (config : McpConfig) (servers : List SpawnedServer) : Except String McpRegistry :=
  if maxMcpServers < servers.length then
    .error ("too many MCP servers: " ++ toString servers.length ++ " > " ++ toString maxMcpServers)
  else
    spawnServers servers
      { entries := []
        servers := []
        maxAttempts := max config.mcpMaxRestartAttempts 1
        backoffBase := max config.mcpRestartBaseMs 1
        backoffMax := max config.mcpRestartMaxMs 1
        hookTimeouts := fun _ => 0 }

end Spawn

/-- A call in progress: on a client, or waiting for a restart. -/
structure ActiveCall where
  serverIdx : ℕ
  bare : String
  client : Option ℕ
  isHook : Bool
  deriving DecidableEq, Repr

/-- One session. The counters at the end record what happened to each server. -/
structure McpSession where
  registry : McpRegistry
  now : ℕ
  nextClient : ℕ
  calls : List ActiveCall
  restarting : ℕ → Option (ℕ × List String)
  respawns : ℕ → ℕ
  kills : ℕ → ℕ

inductive McpEvent where
  | elapse (ms : ℕ)
  | startCall (idx : ℕ) (bare : String) (isHook : Bool)
  | resumeCall (call : ActiveCall)
  | beginRestart (call : ActiveCall)
  | restarted (idx : ℕ) (tools : List String)
  | restartFailed (idx : ℕ) (error : String) (jitterPct : ℤ)
  | restartDropped (idx : ℕ)
  | callReturns (call : ActiveCall)
  | transportError (call : ActiveCall) (error : String) (jitterPct : ℤ)
  | timeout (call : ActiveCall) (jitterPct : ℤ)
  | callDropped (call : ActiveCall)
  deriving DecidableEq, Repr

namespace McpSession

variable (s : McpSession)

def server? (idx : ℕ) : Option McpServer :=
  s.registry.servers[idx]?

def isHealthy (idx : ℕ) : Bool :=
  match s.server? idx with
  | some ⟨_, .healthy _ _⟩ => true
  | _ => false

/-- The client a call on this tool would use now. -/
def clientFor (idx : ℕ) (bare : String) : Option ℕ :=
  match s.server? idx with
  | some ⟨_, .healthy client tools⟩ => if tools.contains bare then some client else none
  | _ => none

def finishCall (call : ActiveCall) : McpSession :=
  { s with calls := s.calls.erase call }

/-- Keeps `kills` true to what happens to the server. -/
def withRegistry (idx : ℕ) (registry : McpRegistry) : McpSession :=
  let after := { s with registry := registry }
  if s.isHealthy idx && !after.isHealthy idx then
    { after with kills := Function.update s.kills idx (s.kills idx + 1) }
  else after

/-- A timeout of a tool kills its server, a timeout of a hook does so the second time
in a row. -/
def timedOut (call : ActiveCall) (jitterPct : ℤ) : McpSession :=
  match s.server? call.serverIdx with
  | none => s
  | some server =>
      if call.isHook then
        let count := s.registry.hookTimeouts server.name + 1
        let counted := s.registry.setHookTimeouts server.name count
        if 2 ≤ count then
          let killed := counted.killServer server.name "hook timeout (consecutive)" s.now jitterPct
          s.withRegistry call.serverIdx (killed.setHookTimeouts server.name 0)
        else s.withRegistry call.serverIdx counted
      else
        s.withRegistry call.serverIdx
          (s.registry.killServer server.name "tool timeout" s.now jitterPct)

/-- A hook that returns ends its row of timeouts. -/
def returned (call : ActiveCall) : McpSession :=
  match s.server? call.serverIdx with
  | none => s
  | some server =>
      if call.isHook then { s with registry := s.registry.setHookTimeouts server.name 0 } else s

def step : McpEvent → Option McpSession
  | .elapse ms => some { s with now := s.now + ms }
  | .startCall idx bare isHook =>
      if s.isHealthy idx then
        (s.clientFor idx bare).map fun client =>
          { s with calls := s.calls ++ [⟨idx, bare, some client, isHook⟩] }
      else some { s with calls := s.calls ++ [⟨idx, bare, none, isHook⟩] }
  | .resumeCall call =>
      if call ∈ s.calls ∧ call.client = none then
        (s.clientFor call.serverIdx call.bare).map fun client =>
          { s.finishCall call with
            calls := s.calls.erase call ++ [{ call with client := some client }] }
      else none
  | .beginRestart call =>
      if call ∈ s.calls ∧ call.client = none ∧ s.restarting call.serverIdx = none then
        match s.server? call.serverIdx with
        | none => none
        | some server =>
            match checkRestartState server s.registry.maxAttempts s.now with
            | .ok (.ready attemptN prevTools) =>
                some { s with
                  restarting := Function.update s.restarting call.serverIdx
                    (some (attemptN, prevTools)) }
            | _ => none
      else none
  | .restarted idx tools =>
      (s.restarting idx).map fun _ =>
        { s with
          registry := s.registry.modifyServer idx fun _ => .healthy s.nextClient tools
          nextClient := s.nextClient + 1
          restarting := Function.update s.restarting idx none
          respawns := Function.update s.respawns idx (s.respawns idx + 1) }
  | .restartFailed idx error jitterPct =>
      (s.restarting idx).map fun attempt =>
        { s with
          registry := s.registry.modifyServer idx fun _ =>
            s.registry.restartFailed attempt.1 attempt.2 error s.now jitterPct
          restarting := Function.update s.restarting idx none }
  | .restartDropped idx =>
      (s.restarting idx).map fun _ =>
        { s with restarting := Function.update s.restarting idx none }
  | .callReturns call =>
      if call ∈ s.calls ∧ call.client ≠ none then some ((s.finishCall call).returned call) else none
  | .transportError call error jitterPct =>
      match call.client with
      | none => none
      | some client =>
          if call ∈ s.calls then
            some ((s.finishCall call).withRegistry call.serverIdx
              (s.registry.killAndMarkDeadIfCurrent call.serverIdx client ("call failed: " ++ error)
                s.now jitterPct))
          else none
  | .timeout call jitterPct =>
      if call ∈ s.calls then some ((s.finishCall call).timedOut call jitterPct) else none
  | .callDropped call => if call ∈ s.calls then some (s.finishCall call) else none

end McpSession

section Steps

variable {s s' : McpSession} {event : McpEvent}

def McpSession.state (s : McpSession) (idx : ℕ) : Option ClientState :=
  (s.server? idx).map McpServer.client

def McpSession.start (registry : McpRegistry) (now : ℕ) : McpSession where
  registry := registry
  now := now
  nextClient := registry.servers.length
  calls := []
  restarting := fun _ => none
  respawns := fun _ => 0
  kills := fun _ => 0

theorem state_modifyServer (registry : McpRegistry) (s : McpSession) (idx j : ℕ)
    (f : ClientState → ClientState) :
    ({ s with registry := registry.modifyServer j f } : McpSession).state idx =
      if j = idx then (({ s with registry := registry } : McpSession).state idx).map f
      else ({ s with registry := registry } : McpSession).state idx := by
  simp only [McpSession.state, McpSession.server?, McpRegistry.modifyServer, List.getElem?_modify]
  split_ifs with h
  · simp [Option.map_map, Function.comp_def]
  · simp

/-- What happens to one server in one step. -/
inductive Fate (s s' : McpSession) (idx : ℕ) : Prop where
  | kept : s'.state idx = s.state idx → s'.respawns idx = s.respawns idx →
      s'.kills idx = s.kills idx → s'.restarting idx = s.restarting idx → Fate s s' idx
  | killed (client retryAt : ℕ) (reason : String) (tools : List String) :
      s.state idx = some (.healthy client tools) →
      s'.state idx = some (.dead 1 retryAt reason tools) → s'.respawns idx = s.respawns idx →
      s'.kills idx ≤ s.kills idx + 1 → s'.restarting idx = s.restarting idx → Fate s s' idx
  | restarting (attempts nextRetry : ℕ) (reason : String) (tools : List String) :
      s.state idx = some (.dead attempts nextRetry reason tools) →
      attempts < s.registry.maxAttempts → s'.state idx = s.state idx →
      s'.respawns idx = s.respawns idx → s'.kills idx = s.kills idx → Fate s s' idx
  | settled : s.restarting idx ≠ none → Fate s s' idx

theorem isHealthy_congr {s s' : McpSession} {idx : ℕ} (h : s'.state idx = s.state idx) :
    s'.isHealthy idx = s.isHealthy idx := by
  have hstate (t : McpSession) : t.isHealthy idx = true ↔
      ∃ client tools, t.state idx = some (.healthy client tools) := by
    unfold McpSession.isHealthy McpSession.state
    rcases t.server? idx with _ | ⟨name, _ | _⟩ <;> simp
  rw [Bool.eq_iff_iff, hstate, hstate, h]

/-- A registry in which the server is the same or was killed. -/
def KilledOrKept (s : McpSession) (registry : McpRegistry) (idx : ℕ) : Prop :=
  ({ s with registry := registry } : McpSession).state idx = s.state idx ∨
    ∃ client retryAt reason tools, s.state idx = some (.healthy client tools) ∧
      ({ s with registry := registry } : McpSession).state idx =
        some (.dead 1 retryAt reason tools)

theorem fate_withRegistry {registry : McpRegistry} {j idx : ℕ}
    (h : KilledOrKept s registry idx) : Fate s (s.withRegistry j registry) idx := by
  unfold McpSession.withRegistry
  simp only
  split_ifs with hcount
  · rcases h with hsame | ⟨client, retryAt, reason, tools, hbefore, hafter⟩
    · have hne : idx ≠ j := by
        rintro rfl
        rw [isHealthy_congr hsame] at hcount
        simp at hcount
      exact .kept hsame rfl (Function.update_of_ne hne ..) rfl
    · refine .killed client retryAt reason tools hbefore hafter rfl ?_ rfl
      by_cases hidx : idx = j
      · simp [hidx]
      · simp [hidx]
  · rcases h with hsame | ⟨client, retryAt, reason, tools, hbefore, hafter⟩
    · exact .kept hsame rfl rfl rfl
    · exact .killed client retryAt reason tools hbefore hafter rfl (Nat.le_succ _) rfl

theorem killedOrKept_modifyServer {f : ClientState → ClientState} (j idx : ℕ)
    (hf : ∀ state, f state = state ∨ ∃ client retryAt reason tools,
      state = .healthy client tools ∧ f state = .dead 1 retryAt reason tools) :
    KilledOrKept s (s.registry.modifyServer j f) idx := by
  unfold KilledOrKept
  rw [state_modifyServer]
  split_ifs with hidx
  · cases hstate : s.state idx with
    | none => exact Or.inl (by simp)
    | some state =>
        rcases hf state with hsame | ⟨client, retryAt, reason, tools, rfl, hdead⟩
        · exact Or.inl (by simp [hsame])
        · exact Or.inr ⟨client, retryAt, reason, tools, rfl, by simp [hdead]⟩
  · exact Or.inl rfl

theorem killed_cases (registry : McpRegistry) (reason : String) (now : ℕ) (jitterPct : ℤ)
    (state : ClientState) :
    registry.killed reason now jitterPct state = state ∨ ∃ client retryAt reason' tools,
      state = .healthy client tools ∧
        registry.killed reason now jitterPct state = .dead 1 retryAt reason' tools := by
  cases state with
  | healthy client tools => exact Or.inr ⟨client, _, reason, tools, rfl, rfl⟩
  | dead attempts nextRetry reason' tools => exact Or.inl rfl

theorem withRegistry_eq (s : McpSession) (idx : ℕ) (registry : McpRegistry) :
    ∃ kills, s.withRegistry idx registry = { s with registry := registry, kills := kills } := by
  unfold McpSession.withRegistry
  simp only
  split_ifs
  · exact ⟨_, rfl⟩
  · exact ⟨s.kills, rfl⟩

theorem registry_withRegistry (s : McpSession) (idx : ℕ) (registry : McpRegistry) :
    (s.withRegistry idx registry).registry = registry := by
  obtain ⟨kills, hkills⟩ := withRegistry_eq s idx registry
  rw [hkills]

theorem fate_timedOut (s : McpSession) (call : ActiveCall) (jitterPct : ℤ) (idx : ℕ) :
    (s.timedOut call jitterPct).registry.maxAttempts = s.registry.maxAttempts ∧
      Fate s (s.timedOut call jitterPct) idx := by
  have hkill (reason : String) (j : ℕ) :
      KilledOrKept s (s.registry.modifyServer j (s.registry.killed reason s.now jitterPct)) idx :=
    killedOrKept_modifyServer j idx (killed_cases _ _ _ _)
  unfold McpSession.timedOut
  split
  · exact ⟨rfl, .kept rfl rfl rfl rfl⟩
  · simp only
    split_ifs
    · exact ⟨by rw [registry_withRegistry]; rfl, fate_withRegistry (hkill _ _)⟩
    · exact ⟨by rw [registry_withRegistry]; rfl, fate_withRegistry (Or.inl rfl)⟩
    · exact ⟨by rw [registry_withRegistry]; rfl, fate_withRegistry (hkill _ _)⟩

theorem Fate.of_finishCall {call : ActiveCall} {idx : ℕ} (h : Fate (s.finishCall call) s' idx) :
    Fate s s' idx := by
  cases h with
  | kept hstate hrespawns hkills hrestarting => exact .kept hstate hrespawns hkills hrestarting
  | killed client retryAt reason tools hbefore hafter hrespawns hkills hrestarting =>
      exact .killed client retryAt reason tools hbefore hafter hrespawns hkills hrestarting
  | restarting attempts nextRetry reason tools hbefore hbudget hsame hrespawns hkills =>
      exact .restarting attempts nextRetry reason tools hbefore hbudget hsame hrespawns hkills
  | settled hrestarting => exact .settled hrestarting

/-- The end of a restart touches the server it was for. -/
theorem fate_settled {j idx : ℕ} {f : ClientState → ClientState} {nextClient : ℕ}
    {attempt : ℕ × List String} {respawns : ℕ → ℕ} (hattempt : s.restarting j = some attempt)
    (hrespawns : idx ≠ j → respawns idx = s.respawns idx) :
    Fate s
      { s with
        registry := s.registry.modifyServer j f
        nextClient := nextClient
        restarting := Function.update s.restarting j none
        respawns := respawns } idx := by
  by_cases hidx : idx = j
  · subst hidx
    exact .settled (by simp [hattempt])
  · refine .kept ?_ (hrespawns hidx) rfl (Function.update_of_ne hidx ..)
    have hstate := state_modifyServer s.registry s idx j f
    rw [if_neg (Ne.symm hidx)] at hstate
    exact hstate

theorem checkRestartState_ready {server : McpServer} {maxAttempts now attemptN : ℕ}
    {prevTools : List String}
    (h : checkRestartState server maxAttempts now = .ok (.ready attemptN prevTools)) :
    ∃ attempts nextRetry reason, server.client = .dead attempts nextRetry reason prevTools ∧
      attempts < maxAttempts ∧ nextRetry ≤ now ∧ attemptN = attempts + 1 := by
  unfold checkRestartState at h
  split at h
  · cases h
  · rename_i attempts nextRetry reason tools hdead
    split_ifs at h with hexhausted hearly
    obtain ⟨rfl, rfl⟩ := RestartCheck.ready.injEq .. ▸ Except.ok.inj h
    exact ⟨attempts, nextRetry, reason, hdead, not_le.mp hexhausted, not_lt.mp hearly, rfl⟩

/-- One step keeps a server, kills it, begins its restart or ends one. -/
theorem fate_of_step (h : s.step event = some s') (idx : ℕ) :
    s'.registry.maxAttempts = s.registry.maxAttempts ∧ Fate s s' idx := by
  cases event with
  | elapse ms =>
      obtain rfl := Option.some_inj.mp h
      exact ⟨rfl, .kept rfl rfl rfl rfl⟩
  | startCall j bare isHook =>
      simp only [McpSession.step] at h
      split_ifs at h
      · obtain ⟨client, -, rfl⟩ := Option.map_eq_some_iff.mp h
        exact ⟨rfl, .kept rfl rfl rfl rfl⟩
      · obtain rfl := Option.some_inj.mp h
        exact ⟨rfl, .kept rfl rfl rfl rfl⟩
  | resumeCall call =>
      simp only [McpSession.step] at h
      split_ifs at h
      obtain ⟨client, -, rfl⟩ := Option.map_eq_some_iff.mp h
      exact ⟨rfl, .kept rfl rfl rfl rfl⟩
  | beginRestart call =>
      simp only [McpSession.step] at h
      split_ifs at h
      split at h
      · cases h
      · rename_i server hserver
        split at h
        · rename_i attemptN prevTools hready
          obtain rfl := Option.some_inj.mp h
          by_cases hidx : idx = call.serverIdx
          · obtain ⟨attempts, nextRetry, reason, hdead, hbudget, -⟩ :=
              checkRestartState_ready hready
            refine ⟨rfl, .restarting attempts nextRetry reason prevTools ?_ hbudget rfl rfl rfl⟩
            rw [hidx, McpSession.state, hserver, Option.map_some, hdead]
          · exact ⟨rfl, .kept rfl rfl rfl (Function.update_of_ne hidx ..)⟩
        · cases h
  | restarted j tools =>
      obtain ⟨attempt, hattempt, rfl⟩ := Option.map_eq_some_iff.mp h
      exact ⟨rfl, fate_settled hattempt fun hidx => Function.update_of_ne hidx ..⟩
  | restartFailed j error jitterPct =>
      obtain ⟨attempt, hattempt, rfl⟩ := Option.map_eq_some_iff.mp h
      exact ⟨rfl, fate_settled hattempt fun _ => rfl⟩
  | restartDropped j =>
      obtain ⟨attempt, hattempt, rfl⟩ := Option.map_eq_some_iff.mp h
      by_cases hidx : idx = j
      · subst hidx
        exact ⟨rfl, .settled (by simp [hattempt])⟩
      · exact ⟨rfl, .kept rfl rfl rfl (Function.update_of_ne hidx ..)⟩
  | callReturns call =>
      simp only [McpSession.step] at h
      split_ifs at h
      obtain rfl := Option.some_inj.mp h
      unfold McpSession.returned
      split
      · exact ⟨rfl, .kept rfl rfl rfl rfl⟩
      · split_ifs
        · exact ⟨rfl, .kept rfl rfl rfl rfl⟩
        · exact ⟨rfl, .kept rfl rfl rfl rfl⟩
  | transportError call error jitterPct =>
      simp only [McpSession.step] at h
      split at h
      · cases h
      · rename_i client _
        split_ifs at h
        obtain rfl := Option.some_inj.mp h
        refine ⟨by rw [registry_withRegistry]; rfl, Fate.of_finishCall (fate_withRegistry
          (killedOrKept_modifyServer _ _ fun state => ?_))⟩
        cases state with
        | healthy current tools =>
            simp only
            split_ifs
            · exact killed_cases _ _ _ _ _
            · exact Or.inl rfl
        | dead attempts nextRetry reason tools => exact Or.inl rfl
  | timeout call jitterPct =>
      simp only [McpSession.step] at h
      split_ifs at h
      obtain rfl := Option.some_inj.mp h
      obtain ⟨hbudget, hfate⟩ := fate_timedOut (s.finishCall call) call jitterPct idx
      exact ⟨hbudget, hfate.of_finishCall⟩
  | callDropped call =>
      simp only [McpSession.step] at h
      split_ifs at h
      obtain rfl := Option.some_inj.mp h
      exact ⟨rfl, .kept rfl rfl rfl rfl⟩

end Steps

section Budget

variable {allowed : McpEvent → Prop} {registry : McpRegistry} {config : McpConfig}

/-- A run of the session whose events are all allowed. -/
inductive McpRun (allowed : McpEvent → Prop) (start : McpSession) : McpSession → Prop where
  | refl : McpRun allowed start start
  | step {s s' : McpSession} {event : McpEvent} : McpRun allowed start s →
      s.step event = some s' → allowed event → McpRun allowed start s'

/-- The server spawns whenever it is asked to but never answers a call. -/
def AlwaysFails (idx : ℕ) : McpEvent → Prop
  | .callReturns call => call.serverIdx ≠ idx
  | .restartFailed j _ _ => j ≠ idx
  | _ => True

/-- The respawns stay within the budget, every kill is on record, and a server that
used its budget up offers no tools. -/
structure BudgetKept (s : McpSession) (idx : ℕ) : Prop where
  respawns : s.respawns idx ≤ s.registry.maxAttempts
  kills : ∀ attempts nextRetry reason tools,
    s.state idx = some (.dead attempts nextRetry reason tools) → s.kills idx ≤ attempts
  withdrawn : ∀ attempts nextRetry reason tools,
    s.state idx = some (.dead attempts nextRetry reason tools) →
    s.registry.maxAttempts ≤ attempts → ∀ entry ∈ s.registry.tools, entry.serverIdx ≠ idx

variable {s s' : McpSession} {idx : ℕ}

theorem not_isVisible_of_exhausted {attempts nextRetry : ℕ} {reason : String} {tools : List String}
    (hdead : s.state idx = some (.dead attempts nextRetry reason tools))
    (hexhausted : s.registry.maxAttempts ≤ attempts) (entry : ToolEntry)
    (hentry : entry ∈ s.registry.tools) : entry.serverIdx ≠ idx := by
  rintro rfl
  have hvisible : s.registry.isVisible entry = true := (List.mem_filter.mp hentry).2
  obtain ⟨server, hserver, hclient⟩ := Option.map_eq_some_iff.mp hdead
  have hserver' : s.registry.servers[entry.serverIdx]? = some server := hserver
  unfold McpRegistry.isVisible at hvisible
  simp only [hserver', hclient] at hvisible
  simp only [Bool.and_eq_true, decide_eq_true_eq] at hvisible
  omega

theorem McpRun.maxAttempts (h : McpRun allowed s s') :
    s'.registry.maxAttempts = s.registry.maxAttempts := by
  induction h with
  | refl => rfl
  | step _ hstep _ ih => exact (fate_of_step hstep 0).1.trans ih

/-- With a budget of one the first kill is the last. -/
structure OneLife (s : McpSession) (idx : ℕ) : Prop where
  budget : s.registry.maxAttempts = 1
  restarting : s.restarting idx = none
  respawns : s.respawns idx = 0
  state : (s.kills idx = 0 ∧ ∃ client tools, s.state idx = some (.healthy client tools)) ∨
    (s.kills idx ≤ 1 ∧ ∃ attempts nextRetry reason tools, 1 ≤ attempts ∧
      s.state idx = some (.dead attempts nextRetry reason tools))

theorem OneLife.step {event : McpEvent} (h : OneLife s idx) (hstep : s.step event = some s') :
    OneLife s' idx := by
  obtain ⟨hsame, hfate⟩ := fate_of_step hstep idx
  have hbudget := hsame.trans h.budget
  cases hfate with
  | kept hstate hrespawns hkills hrestarting =>
      exact ⟨hbudget, hrestarting.trans h.restarting, hrespawns.trans h.respawns, by
        rw [hstate, hkills]
        exact h.state⟩
  | killed client retryAt reason tools hbefore hafter hrespawns hkills hrestarting =>
      refine ⟨hbudget, hrestarting.trans h.restarting, hrespawns.trans h.respawns, Or.inr ⟨?_, ?_⟩⟩
      · rcases h.state with ⟨hzero, -⟩ | ⟨-, attempts, nextRetry, reason', tools', -, hdead⟩
        · omega
        · rw [hbefore] at hdead
          cases hdead
      · exact ⟨1, retryAt, reason, tools, le_refl 1, hafter⟩
  | restarting attempts nextRetry reason tools hbefore hbudget' _ hrespawns hkills =>
      exfalso
      rw [h.budget] at hbudget'
      rcases h.state with ⟨-, client, tools', hhealthy⟩ | ⟨-, attempts', _, _, _, hpos, hdead⟩
      · rw [hbefore] at hhealthy
        cases hhealthy
      · rw [hbefore] at hdead
        cases hdead
        omega
  | settled hrestarting => exact absurd h.restarting hrestarting

theorem OneLife.run (h : OneLife s idx) (hrun : McpRun allowed s s') : OneLife s' idx := by
  induction hrun with
  | refl => exact h
  | step _ hstep _ ih => exact ih.step hstep

theorem OneLife.budgetKept (h : OneLife s idx) : BudgetKept s idx where
  respawns := by
    rw [h.respawns]
    exact Nat.zero_le _
  kills := by
    intro attempts nextRetry reason tools hdead
    rcases h.state with ⟨hzero, -⟩ | ⟨hone, attempts', _, _, _, hpos, hdead'⟩
    · omega
    · rw [hdead] at hdead'
      cases hdead'
      omega
  withdrawn := by
    intro attempts nextRetry reason tools hdead hexhausted entry hentry
    exact not_isVisible_of_exhausted hdead hexhausted entry hentry

/-- The server is healthy, offers the tool and nothing else goes on. -/
structure Serving (s : McpSession) (idx : ℕ) (bare : String) (tools : List String) : Prop where
  server : ∃ name client, s.server? idx = some ⟨name, .healthy client tools⟩
  tool : tools.contains bare = true
  calls : s.calls = []
  restarting : s.restarting idx = none
  budget : 2 ≤ s.registry.maxAttempts

theorem McpRun.trans {a b c : McpSession} (hab : McpRun allowed a b)
    (hbc : McpRun allowed b c) : McpRun allowed a c := by
  induction hbc with
  | refl => exact hab
  | step _ hstep hallowed ih => exact .step ih hstep hallowed

theorem server?_modifyServer {s : McpSession} {name : String}
    {state : ClientState} (hs : s.registry = registry) (h : s.server? idx = some ⟨name, state⟩)
    (f : ClientState → ClientState) :
    (registry.modifyServer idx f).servers[idx]? = some ⟨name, f state⟩ := by
  subst hs
  have hserver : s.registry.servers[idx]? = some ⟨name, state⟩ := h
  simp [McpRegistry.modifyServer, hserver]

variable {bare : String} {tools : List String}

/-- A call that fails kills the server with one attempt on record. -/
theorem Serving.kill (h : Serving s idx bare tools) :
    ∃ s' name retryAt reason, McpRun (AlwaysFails idx) s s' ∧
      s'.server? idx = some ⟨name, .dead 1 retryAt reason tools⟩ ∧ retryAt ≤ s'.now ∧
      s'.calls = [] ∧ s'.restarting idx = none ∧ 2 ≤ s'.registry.maxAttempts ∧
      s'.respawns idx = s.respawns idx := by
  obtain ⟨name, client, hserver⟩ := h.server
  have hhealthy : s.isHealthy idx = true := by simp [McpSession.isHealthy, hserver]
  have hclient : s.clientFor idx bare = some client := by
    simp only [McpSession.clientFor, hserver, h.tool, if_true]
  let call : ActiveCall := ⟨idx, bare, some client, false⟩
  let called : McpSession := { s with calls := [call] }
  have hcall : s.step (.startCall idx bare false) = some called := by
    simp [McpSession.step, hhealthy, hclient, h.calls, called, call]
  let wait := backoff 1 s.registry.backoffBase s.registry.backoffMax 0
  let registry := s.registry.killAndMarkDeadIfCurrent idx client "call failed: closed" s.now 0
  obtain ⟨kills, hkills⟩ := withRegistry_eq (called.finishCall call) idx registry
  let failed : McpSession := { s with calls := [], registry := registry, kills := kills }
  have hfail : called.step (.transportError call "closed" 0) = some failed := by
    have hcalls : called.finishCall call = { s with calls := [] } := by
      simp [McpSession.finishCall, called]
    have hmem : call ∈ called.calls := List.mem_singleton_self call
    rw [hcalls] at hkills
    have hfinished : called.step (.transportError call "closed" 0) =
        some ((called.finishCall call).withRegistry idx registry) := if_pos hmem
    rw [hfinished, hcalls, hkills]
  have hwait : failed.step (.elapse wait) = some { failed with now := s.now + wait } := rfl
  have hrun : McpRun (AlwaysFails idx) s { failed with now := s.now + wait } :=
    .step (.step (.step .refl hcall trivial) hfail trivial) hwait trivial
  refine ⟨_, name, s.now + wait, "call failed: closed", hrun, ?_, le_refl _, rfl, h.restarting,
    h.budget, rfl⟩
  have hdead : registry.servers[idx]? =
      some ⟨name, .dead 1 (s.now + wait) "call failed: closed" tools⟩ := by
    refine (server?_modifyServer rfl hserver _).trans ?_
    simp [McpRegistry.killed, wait]
  exact hdead

/-- A dead server with budget left is spawned again, and the attempt is forgotten. -/
theorem restart_serving {name reason : String} {retryAt : ℕ} (htool : tools.contains bare = true)
    (hserver : s.server? idx = some ⟨name, .dead 1 retryAt reason tools⟩) (hretry : retryAt ≤ s.now)
    (hcalls : s.calls = []) (hidle : s.restarting idx = none)
    (hbudget : 2 ≤ s.registry.maxAttempts) :
    ∃ s', McpRun (AlwaysFails idx) s s' ∧ Serving s' idx bare tools ∧
      s'.respawns idx = s.respawns idx + 1 := by
  let call : ActiveCall := ⟨idx, bare, none, false⟩
  let called : McpSession := { s with calls := [call] }
  have hdead : s.isHealthy idx = false := by simp [McpSession.isHealthy, hserver]
  have hcall : s.step (.startCall idx bare false) = some called := by
    simp [McpSession.step, hdead, hcalls, called, call]
  let begun : McpSession :=
    { called with restarting := Function.update s.restarting idx (some (2, tools)) }
  have hready : checkRestartState ⟨name, .dead 1 retryAt reason tools⟩ s.registry.maxAttempts
    s.now =
      .ok (.ready 2 tools) := by
    have hleft : ¬s.registry.maxAttempts ≤ 1 := by omega
    simp [checkRestartState, hleft, hretry]
  have hbegin : called.step (.beginRestart call) = some begun := by
    have hserver' : called.server? idx = some ⟨name, .dead 1 retryAt reason tools⟩ := hserver
    simp [McpSession.step, called, call, begun, hidle, hserver', hready]
  let registry := s.registry.modifyServer idx fun _ => .healthy s.nextClient tools
  let restarted : McpSession :=
    { called with
      registry := registry
      nextClient := s.nextClient + 1
      restarting := Function.update begun.restarting idx none
      respawns := Function.update s.respawns idx (s.respawns idx + 1) }
  have hrestart : begun.step (.restarted idx tools) = some restarted := by
    have hbegun : begun.restarting idx = some (2, tools) := Function.update_self ..
    simp only [McpSession.step, hbegun, Option.map_some]
    rfl
  have hdrop : restarted.step (.callDropped call) = some { restarted with calls := [] } := by
    simp [McpSession.step, McpSession.finishCall, restarted, called]
  refine ⟨{ restarted with calls := [] }, ?_, ⟨?_, htool, rfl, Function.update_self .., hbudget⟩,
    Function.update_self ..⟩
  · exact .step (.step (.step (.step .refl hcall trivial) hbegin trivial) hrestart trivial) hdrop
      trivial
  · exact ⟨name, s.nextClient, server?_modifyServer rfl hserver _⟩

/-- A server that fails every call is spawned again any number of times. -/
theorem Serving.respawn (h : Serving s idx bare tools) (hzero : s.respawns idx = 0) (n : ℕ) :
    ∃ s', McpRun (AlwaysFails idx) s s' ∧ Serving s' idx bare tools ∧ s'.respawns idx = n := by
  induction n with
  | zero => exact ⟨s, .refl, h, hzero⟩
  | succ n ih =>
      obtain ⟨a, hrun, hserving, hcount⟩ := ih
      obtain ⟨b, name, retryAt, reason, hkill, hserver, hretry, hcalls, hidle, hbudget, hsame⟩ :=
        hserving.kill
      obtain ⟨c, hrestart, hserving', hcount'⟩ :=
        restart_serving hserving.tool hserver hretry hcalls hidle hbudget
      exact ⟨c, (hrun.trans hkill).trans hrestart, hserving', by omega⟩

/-- Every entry names a tool of a healthy server. -/
structure Spawned (config : McpConfig) (registry : McpRegistry) : Prop where
  entries : ∀ entry ∈ registry.entries, ∃ name client tools,
    registry.servers[entry.serverIdx]? = some ⟨name, .healthy client tools⟩ ∧
      tools.contains entry.bare = true
  budget : registry.maxAttempts = max config.mcpMaxRestartAttempts 1

/-- The entries a server adds are its own tools. -/
theorem mem_of_spawnTools {serverName : String} {rest : List String}
    {entries entries' : List ToolEntry} (h : spawnTools serverName idx rest entries = .ok entries')
    {entry : ToolEntry} (hentry : entry ∈ entries') :
    entry ∈ entries ∨ entry.serverIdx = idx ∧ entry.bare ∈ rest := by
  induction rest generalizing entries with
  | nil =>
      obtain rfl := Except.ok.inj h
      exact Or.inl hentry
  | cons bare rest ih =>
      simp only [spawnTools] at h
      split_ifs at h
      rcases ih h with hmem | ⟨hidx, hmem⟩
      · rcases List.mem_append.mp hmem with hold | hnew
        · exact Or.inl hold
        · obtain rfl := List.mem_singleton.mp hnew
          exact Or.inr ⟨rfl, List.mem_cons_self⟩
      · exact Or.inr ⟨hidx, List.mem_cons_of_mem _ hmem⟩

theorem Spawned.append (h : Spawned config registry)
    {server : SpawnedServer} {entries : List ToolEntry}
    (hentries : spawnTools server.name registry.servers.length server.tools registry.entries =
      .ok entries) :
    Spawned config
      { registry with
        servers := registry.servers ++
          [⟨server.name, .healthy registry.servers.length server.tools⟩]
        entries := entries } where
  entries := by
    intro entry hentry
    rcases mem_of_spawnTools hentries hentry with hold | ⟨hidx, hmem⟩
    · obtain ⟨name, client, tools, hserver, htool⟩ := h.entries entry hold
      have hlt := (List.getElem?_eq_some_iff.mp hserver).1
      exact ⟨name, client, tools, (List.getElem?_append_left hlt).trans hserver, htool⟩
    · refine ⟨server.name, registry.servers.length, server.tools, ?_, ?_⟩
      · simp [hidx]
      · simpa using hmem
  budget := h.budget

theorem Spawned.spawnServers {servers : List SpawnedServer}
    {registry registry' : McpRegistry} (h : Spawned config registry)
    (hspawn : spawnServers servers registry = .ok registry') : Spawned config registry' := by
  induction servers generalizing registry with
  | nil =>
      obtain rfl := Except.ok.inj hspawn
      exact h
  | cons server rest ih =>
      simp only [Buzz.spawnServers] at hspawn
      split_ifs at hspawn
      split at hspawn
      · cases hspawn
      · rename_i entries hentries
        exact ih (h.append hentries) hspawn

theorem spawned_of_spawnAll {servers : List SpawnedServer}
    (hspawn : spawnAll config servers = .ok registry) :
    Spawned config registry := by
  unfold spawnAll at hspawn
  split_ifs at hspawn
  refine Spawned.spawnServers ⟨?_, rfl⟩ hspawn
  intro entry hentry
  cases hentry

section Session

variable {config : McpConfig} {servers : List SpawnedServer} {registry : McpRegistry}
  {entry : ToolEntry}

theorem start_oneLife (hspawned : Spawned config registry) (hentry : entry ∈ registry.entries)
    (hconfig : config.mcpMaxRestartAttempts ≤ 1) (now : ℕ) :
    OneLife (McpSession.start registry now) entry.serverIdx where
  budget := by
    have hbudget := hspawned.budget
    change registry.maxAttempts = 1
    omega
  restarting := rfl
  respawns := rfl
  state := by
    obtain ⟨name, client, tools, hserver, -⟩ := hspawned.entries entry hentry
    have hstate : (McpSession.start registry now).state entry.serverIdx =
        some (.healthy client tools) := congrArg (Option.map McpServer.client) hserver
    exact Or.inl ⟨rfl, client, tools, hstate⟩

theorem start_serving (hspawned : Spawned config registry) (hentry : entry ∈ registry.entries)
    (hconfig : 1 < config.mcpMaxRestartAttempts) (now : ℕ) :
    ∃ tools, Serving (McpSession.start registry now) entry.serverIdx entry.bare tools := by
  obtain ⟨name, client, tools, hserver, htool⟩ := hspawned.entries entry hentry
  have hbudget := hspawned.budget
  refine ⟨tools, ⟨name, client, hserver⟩, htool, rfl, rfl, ?_⟩
  change 2 ≤ registry.maxAttempts
  omega

/-- Some run respawns the server once more than the budget allows. -/
theorem exists_over_budget (hspawned : Spawned config registry) (hentry : entry ∈ registry.entries)
    (hconfig : 1 < config.mcpMaxRestartAttempts) (now : ℕ) :
    ∃ s, McpRun (AlwaysFails entry.serverIdx) (McpSession.start registry now) s ∧
      s.respawns entry.serverIdx = s.registry.maxAttempts + 1 := by
  obtain ⟨tools, hserving⟩ := start_serving hspawned hentry hconfig now
  obtain ⟨s, hrun, -, hcount⟩ := hserving.respawn rfl (registry.maxAttempts + 1)
  refine ⟨s, hrun, ?_⟩
  rw [hcount, hrun.maxAttempts]
  rfl

theorem restartBudget_iff (hspawn : spawnAll config servers = .ok registry)
    (hentry : entry ∈ registry.entries) (now : ℕ) :
    (∀ s, McpRun (AlwaysFails entry.serverIdx) (McpSession.start registry now) s →
      BudgetKept s entry.serverIdx) ↔ config.mcpMaxRestartAttempts ≤ 1 := by
  have hspawned := spawned_of_spawnAll hspawn
  constructor
  · intro h
    by_contra hconfig
    obtain ⟨s, hrun, hcount⟩ := exists_over_budget hspawned hentry (not_le.mp hconfig) now
    have hrespawns := (h s hrun).respawns
    omega
  · intro hconfig s hrun
    exact ((start_oneLife hspawned hentry hconfig now).run hrun).budgetKept

end Session

/-- The defaults of the environment variables. -/
def McpConfig.default : McpConfig := ⟨3, 500, 30000⟩

def shellRegistry (config : McpConfig) : McpRegistry where
  entries := [⟨"dev__shell", 0, "shell"⟩]
  servers := [⟨"dev", .healthy 0 ["shell"]⟩]
  maxAttempts := max config.mcpMaxRestartAttempts 1
  backoffBase := max config.mcpRestartBaseMs 1
  backoffMax := max config.mcpRestartMaxMs 1
  hookTimeouts := fun _ => 0

theorem spawnAll_shell (config : McpConfig) :
    spawnAll config [⟨"dev", ["shell"]⟩] = .ok (shellRegistry config) := by
  have hname : (!validName "dev" || hasSeparator "dev") = false := by decide
  have htool : (!validName "shell" || hasSeparator "shell") = false := by decide
  have hlen : ¬maxQnameLen < "dev__shell".utf8ByteSize := by decide
  simp [spawnAll, spawnServers, spawnTools, hname, htool, hlen, maxMcpServers,
    maxToolsPerSession, shellRegistry]

theorem restartBudget_shell :
    (∀ s, McpRun (AlwaysFails 0) (McpSession.start (shellRegistry ⟨1, 500, 30000⟩) 0) s →
      BudgetKept s 0) ∧
    ¬∀ s, McpRun (AlwaysFails 0) (McpSession.start (shellRegistry .default) 0) s →
      BudgetKept s 0 := by
  constructor
  · exact (restartBudget_iff (spawnAll_shell _) (List.mem_singleton_self _) 0).mpr (le_refl 1)
  · rw [restartBudget_iff (spawnAll_shell _) (List.mem_singleton_self _) 0]
    decide

/-- By default a server that fails every call is spawned four times and is still offered. -/
theorem restartBudget_exceeded :
    ∃ s, McpRun (AlwaysFails 0) (McpSession.start (shellRegistry .default) 0) s ∧
      s.respawns 0 = s.registry.maxAttempts + 1 ∧ ¬BudgetKept s 0 := by
  have hspawned := spawned_of_spawnAll (spawnAll_shell .default)
  obtain ⟨s, hrun, hcount⟩ :=
    exists_over_budget hspawned (List.mem_singleton_self _) (by decide) 0
  refine ⟨s, hrun, hcount, fun h => ?_⟩
  have hrespawns := h.respawns
  exact absurd (hcount ▸ hrespawns) (Nat.not_succ_le_self _)

end Budget
end Buzz
