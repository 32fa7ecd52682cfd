import Mathlib.Control.Monad.Basic
import Buzz.ExceptRules
import Buzz.GroupBinding
import Buzz.ProgramLog

/-!
# What a successful binding has seen

When a binding succeeds, the log of its conversation ends with a snapshot of the
owner's group and a look at the child that agrees with it. After the snapshot the
daemons were only read, so no later change of the program's own can have
outdated it.
-/

namespace Buzz.ManagedAgents

open EffectProgram Task

abbrev LaunchLog : Type := List (Exchange LaunchRequest LaunchRequest.Reply)

section Reads

def ownerRead (path : String) (value : Json) : Exchange LaunchRequest LaunchRequest.Reply :=
  ⟨.ownerGet path [], (Except.ok value : Except X0xClientError Json)⟩

def childRead (child : ManagedAgentChild) (path : String) (value : Json) :
    Exchange LaunchRequest LaunchRequest.Reply :=
  ⟨.childGet child.dataDir path, (Except.ok value : Except ChildHttpError Json)⟩

/-- The owner's state read twice, with its group between. -/
structure OwnerSnapshot (groupPath groupId agentId : String) (memberState : GroupMemberState)
    (state : GroupStateProjection) (group : Json) (reads : LaunchLog) : Prop where
  stable : ∃ before after, GroupStateProjection.fromValue before groupId = .ok state ∧
    GroupStateProjection.fromValue after groupId = .ok state ∧
    reads = [ownerRead (groupPath ++ "/state") before, ownerRead groupPath group,
      ownerRead (groupPath ++ "/state") after]
  signedPublic : requireSignedPublicGroup group groupId = .ok ()
  present : state.withdrawn = false
  member : groupMemberState group agentId = memberState

def StrictProjection (state ownerState : GroupStateProjection) : Prop :=
  state.stateRevision = ownerState.stateRevision ∧ state.stateHash = ownerState.stateHash

/-- The child's own state read twice, with its group between: the child is active there and its
state is that of the owner, or one with the same content. -/
structure ChildObserved (child : ManagedAgentChild) (groupPath groupId : String)
    (ownerState state : GroupStateProjection) (group : Json) (reads : LaunchLog) : Prop where
  stable : ∃ before after, GroupStateProjection.fromValue before groupId = .ok state ∧
    GroupStateProjection.fromValue after groupId = .ok state ∧
    reads = [childRead child (groupPath ++ "/state") before, childRead child groupPath group,
      childRead child (groupPath ++ "/state") after]
  signedPublic : requireSignedPublicGroup group groupId = .ok ()
  present : state.withdrawn = false
  active : groupMemberState group child.agentId = .active
  projection : StrictProjection state ownerState ∨ state.authoritativeProjectionEq ownerState = true

/-- Only the child is read and the clock looked at. -/
def LaunchRequest.Polls : LaunchRequest → Prop
  | childGet _ _ => True
  | deadlinePassed => True
  | _ => False

def OnlyPolls (log : LaunchLog) : Prop := ∀ exchange ∈ log, exchange.1.Polls

end Reads

section Rules

variable {log : LaunchLog}

theorem onlyPolls_nil : OnlyPolls [] := by
  simp [OnlyPolls]

theorem onlyPolls_cons {exchange : Exchange LaunchRequest LaunchRequest.Reply}
    (h : exchange.1.Polls) (hlog : OnlyPolls log) : OnlyPolls (exchange :: log) := by
  intro other hother
  rcases List.mem_cons.mp hother with rfl | hother
  · exact h
  · exact hlog other hother

theorem OnlyPolls.append {later : LaunchLog} (hlog : OnlyPolls log) (hlater : OnlyPolls later) :
    OnlyPolls (log ++ later) := by
  intro exchange hexchange
  rcases List.mem_append.mp hexchange with h | h
  · exact hlog exchange h
  · exact hlater exchange h

theorem returns_answerOf {ε α : Type} {label : String} {display : ε → String}
    {answer : Except ε α} {value : α} (h : Returns (answerOf label display answer) log value) :
    log = [] ∧ answer = .ok value := by
  cases answer with
  | error error => exact (returns_fail h).elim
  | ok found =>
      obtain ⟨rfl, rfl⟩ := returns_pure h
      exact ⟨rfl, rfl⟩

/-- The branches of a choice that fails on one side. -/
theorem returns_ite_fail {α : Type} {c : Prop} [Decidable c] {error : String} {t : Launch α}
    {value : α} (h : Returns (if c then .fail error else t) log value) :
    ¬c ∧ Returns t log value := by
  by_cases hc : c
  · rw [if_pos hc] at h
    exact (returns_fail h).elim
  · rw [if_neg hc] at h
    exact ⟨hc, h⟩

theorem returns_ownerGetJson {path label : String} {value : Json}
    (h : Returns (ownerGetJson path [] label) log value) : log = [ownerRead path value] := by
  obtain ⟨first, answer, second, rfl, hask, hanswer⟩ := returns_bind h
  obtain ⟨rfl, rfl⟩ := returns_answerOf hanswer
  obtain rfl := returns_perform hask
  rfl

end Rules

section Owner

variable {log : LaunchLog}

theorem validateOwnerGroupSnapshot_ok {before after : GroupStateProjection} {group : Json}
    {expectation : OwnerGroupExpectation}
    (h : validateOwnerGroupSnapshot before group after expectation = .ok ()) :
    requireSignedPublicGroup group expectation.groupId = .ok () ∧
      groupMemberState group expectation.requiredAgentId = expectation.requiredMemberState ∧
      (∀ forbidden ∈ expectation.forbiddenAgentId, groupMemberState group forbidden ≠ .active) ∧
      before = after := by
  obtain ⟨⟨⟩, hsigned, h⟩ := except_bind_ok h
  obtain ⟨revision, -, h⟩ := except_bind_ok h
  simp only [throw_bind, guard_ok_iff] at h
  obtain ⟨-, hmember, hforbidden, h⟩ := h
  refine ⟨hsigned, not_not.mp hmember, ?_, ?_⟩
  · intro forbidden hmem hactive
    simp [Option.mem_def.mp hmem, hactive] at hforbidden
  · by_contra hne
    simp [hne] at h

theorem returns_readOwnerGroupState {expectation : OwnerGroupExpectation}
    {state : GroupStateProjection} (h : Returns (readOwnerGroupState expectation) log state) :
    ∃ group, OwnerSnapshot expectation.groupPath expectation.groupId expectation.requiredAgentId
        expectation.requiredMemberState state group log ∧
      ∀ forbidden ∈ expectation.forbiddenAgentId, groupMemberState group forbidden ≠ .active := by
  obtain ⟨_, before, _, rfl, hbefore, h⟩ := returns_bind h
  obtain ⟨_, projectionBefore, _, rfl, hreadBefore, h⟩ := returns_bind h
  obtain ⟨_, group, _, rfl, hgroup, h⟩ := returns_bind h
  obtain ⟨_, after, _, rfl, hafter, h⟩ := returns_bind h
  obtain ⟨_, projectionAfter, _, rfl, hreadAfter, h⟩ := returns_bind h
  obtain ⟨_, _, _, rfl, hvalidate, h⟩ := returns_bind h
  obtain ⟨hpresent, h⟩ := returns_ite_fail h
  obtain ⟨rfl, rfl⟩ := returns_pure h
  obtain ⟨rfl, hprojectionBefore⟩ := returns_ofExcept hreadBefore
  obtain ⟨rfl, hprojectionAfter⟩ := returns_ofExcept hreadAfter
  obtain ⟨rfl, hvalid⟩ := returns_ofExcept hvalidate
  obtain rfl := returns_ownerGetJson hbefore
  obtain rfl := returns_ownerGetJson hgroup
  obtain rfl := returns_ownerGetJson hafter
  obtain ⟨hsigned, hmember, hforbidden, rfl⟩ := validateOwnerGroupSnapshot_ok hvalid
  exact ⟨group, ⟨⟨before, after, hprojectionBefore, hprojectionAfter, rfl⟩, hsigned,
    Bool.not_eq_true _ ▸ hpresent, hmember⟩, hforbidden⟩

end Owner

section Child

variable {log : LaunchLog} {child : ManagedAgentChild} {expectation : ChildGroupExpectation}

/-- The child is up to the owner's state, in one of the two ways that count. -/
def ChildGroupObservation.UpToDate (observation : ChildGroupObservation) : Prop :=
  observation = .strict ∨ observation = .equivalent

theorem returns_readChildGroupState {statePath groupId : String}
    {found : Option GroupStateProjection}
    (h : Returns (readChildGroupState child statePath groupId) log found) :
    OnlyPolls log ∧ ∀ state, found = some state →
      ∃ value, GroupStateProjection.fromValue value groupId = .ok state ∧
        log = [childRead child statePath value] := by
  obtain ⟨_, answer, _, rfl, hask, hrest⟩ := returns_bind h
  obtain rfl := returns_perform hask
  have hpolls : OnlyPolls [⟨.childGet child.dataDir statePath, answer⟩] :=
    onlyPolls_cons True.intro onlyPolls_nil
  split at hrest
  · rename_i value
    obtain ⟨rfl, hmap⟩ := returns_ofExcept hrest
    obtain ⟨state, hstate, rfl⟩ := except_map_ok hmap
    exact ⟨hpolls, fun other hother => ⟨value, Option.some.inj hother ▸ hstate, rfl⟩⟩
  · obtain ⟨rfl, rfl⟩ := returns_pure hrest
    exact ⟨hpolls, fun state hstate => by cases hstate⟩
  · exact (returns_fail hrest).elim

theorem returns_lookupChildGroup {groupPath : String} {found : Option Json}
    (h : Returns (lookupChildGroup child groupPath) log found) :
    OnlyPolls log ∧ ∀ group, found = some group → log = [childRead child groupPath group] := by
  obtain ⟨_, answer, _, rfl, hask, hrest⟩ := returns_bind h
  obtain rfl := returns_perform hask
  have hpolls : OnlyPolls [⟨.childGet child.dataDir groupPath, answer⟩] :=
    onlyPolls_cons True.intro onlyPolls_nil
  split at hrest
  · obtain ⟨rfl, rfl⟩ := returns_pure hrest
    exact ⟨hpolls, fun other hother => by cases hother; rfl⟩
  · obtain ⟨rfl, rfl⟩ := returns_pure hrest
    exact ⟨hpolls, fun group hgroup => by cases hgroup⟩
  · exact (returns_fail hrest).elim

theorem not_upToDate_presentStale : ¬ChildGroupObservation.UpToDate .presentStale := by
  simp [ChildGroupObservation.UpToDate]

theorem not_upToDate_missing : ¬ChildGroupObservation.UpToDate .missing := by
  simp [ChildGroupObservation.UpToDate]

theorem classifyChildGroup_upToDate {before after : Option GroupStateProjection} {group : Json}
    {observation : ChildGroupObservation}
    (h : classifyChildGroup child expectation before after group = .ok observation)
    (hup : observation.UpToDate) :
    ∃ state, before = some state ∧ after = some state ∧
      requireSignedPublicGroup group expectation.groupId = .ok () ∧
      groupMemberState group child.agentId = .active ∧ state.withdrawn = false ∧
      (StrictProjection state expectation.ownerState ∨
        state.authoritativeProjectionEq expectation.ownerState = true) := by
  obtain ⟨⟨⟩, hsigned, h⟩ := except_bind_ok h
  obtain ⟨⟨⟩, -, h⟩ := except_bind_ok h
  have hstale : (pure .presentStale : Except String ChildGroupObservation) ≠ .ok observation := by
    rintro hstale
    exact not_upToDate_presentStale (Except.ok.inj hstale ▸ hup)
  simp only at h
  split at h
  · exact absurd h hstale
  · rename_i hactive
    split at h
    · split at h
      · exact absurd h hstale
      · rename_i hsame
        simp only [Bool.or_eq_true, Bool.not_eq_true', beq_eq_false_iff_ne, ne_eq, not_or,
          not_not, Bool.not_eq_true, decide_eq_true_eq] at hactive hsame
        obtain ⟨rfl, hpresent⟩ := hsame
        refine ⟨_, rfl, rfl, hsigned, hactive.1, hpresent, ?_⟩
        split at h
        · rename_i hstrict
          rw [Bool.and_eq_true, beq_iff_eq, beq_iff_eq] at hstrict
          exact .inl hstrict
        · split at h
          · rename_i hequivalent
            exact .inr hequivalent
          · exact absurd h hstale
    · exact absurd h hstale

/-- A look at the child only reads it, and what counts as up to date was seen. -/
theorem returns_observeChildGroup {observation : ChildGroupObservation}
    (h : Returns (observeChildGroup child expectation) log observation) :
    OnlyPolls log ∧ (observation.UpToDate → ∃ state group,
      ChildObserved child expectation.groupPath expectation.groupId expectation.ownerState state
        group log) := by
  obtain ⟨_, before, _, rfl, hbefore, h⟩ := returns_bind h
  obtain ⟨_, group, _, rfl, hgroup, h⟩ := returns_bind h
  obtain ⟨_, after, _, rfl, hafter, hrest⟩ := returns_bind h
  obtain ⟨hpollsBefore, hstateBefore⟩ := returns_readChildGroupState hbefore
  obtain ⟨hpollsGroup, hfound⟩ := returns_lookupChildGroup hgroup
  obtain ⟨hpollsAfter, hstateAfter⟩ := returns_readChildGroupState hafter
  have hpolls := hpollsBefore.append (hpollsGroup.append hpollsAfter)
  cases group with
  | none =>
      obtain ⟨rfl, rfl⟩ := returns_pure hrest
      refine ⟨by simpa using hpolls, fun hup => ?_⟩
      split at hup
      · exact absurd hup not_upToDate_missing
      · exact absurd hup not_upToDate_presentStale
  | some group =>
      obtain ⟨rfl, hclass⟩ := returns_ofExcept hrest
      refine ⟨by simpa using hpolls, fun hup => ?_⟩
      obtain ⟨state, rfl, rfl, hsigned, hactive, hpresent, hprojection⟩ :=
        classifyChildGroup_upToDate hclass hup
      obtain ⟨valueBefore, hvalueBefore, rfl⟩ := hstateBefore state rfl
      obtain ⟨valueAfter, hvalueAfter, rfl⟩ := hstateAfter state rfl
      obtain rfl := hfound group rfl
      exact ⟨state, group, ⟨valueBefore, valueAfter, hvalueBefore, hvalueAfter, rfl⟩, hsigned,
        hpresent, hactive, hprojection⟩

/-- The polls end with the look at the child that was up to date, if one was. -/
theorem returns_waitForChildGroupObservation {observation : ChildGroupObservation}
    {sawPresent : Bool} {polls : ℕ}
    (h : Returns (waitForChildGroupObservation child expectation sawPresent polls) log
      observation) :
    OnlyPolls log ∧ (observation.UpToDate → ∃ earlier reads state group, log = earlier ++ reads ∧
      ChildObserved child expectation.groupPath expectation.groupId expectation.ownerState state
        group reads) := by
  induction polls generalizing sawPresent log with
  | zero =>
      obtain ⟨_, seen, _, rfl, hseen, hrest⟩ := returns_bind h
      obtain ⟨rfl, rfl⟩ := returns_pure hrest
      obtain ⟨hpolls, hobserved⟩ := returns_observeChildGroup hseen
      rw [List.append_nil]
      refine ⟨hpolls, fun hup => ?_⟩
      split at hup
      · rename_i hseen
        obtain ⟨state, group, hreads⟩ := hobserved hseen
        exact ⟨[], _, state, group, rfl, hreads⟩
      · split at hup
        · exact absurd hup not_upToDate_presentStale
        · exact absurd hup not_upToDate_missing
  | succ polls ih =>
      obtain ⟨looked, seen, _, rfl, hseen, hrest⟩ := returns_bind h
      obtain ⟨hpolls, hobserved⟩ := returns_observeChildGroup hseen
      split at hrest
      · rename_i hup
        obtain ⟨rfl, rfl⟩ := returns_pure hrest
        rw [List.append_nil]
        refine ⟨hpolls, fun _ => ?_⟩
        obtain ⟨state, group, hreads⟩ := hobserved hup
        exact ⟨[], _, state, group, rfl, hreads⟩
      · obtain ⟨_, passed, _, rfl, hclock, hnext⟩ := returns_bind hrest
        obtain rfl := returns_perform hclock
        have hclock : OnlyPolls [⟨.deadlinePassed, passed⟩] := onlyPolls_cons trivial onlyPolls_nil
        split at hnext
        · obtain ⟨rfl, rfl⟩ := returns_pure hnext
          refine ⟨by simpa using hpolls.append hclock, fun hup => ?_⟩
          split at hup
          · exact absurd hup not_upToDate_presentStale
          · exact absurd hup not_upToDate_missing
        · obtain ⟨hlater, hobserved⟩ := ih hnext
          refine ⟨hpolls.append (hclock.append hlater), fun hup => ?_⟩
          obtain ⟨earlier, reads, state, group, rfl, hreads⟩ := hobserved hup
          exact ⟨looked ++ [⟨.deadlinePassed, passed⟩] ++ earlier, reads, state, group,
            by simp only [List.append_assoc], hreads⟩

theorem returns_waitForChildGroup
    (h : Returns (waitForChildGroup child expectation) log ()) :
    ∃ earlier reads state group, log = earlier ++ reads ∧ OnlyPolls earlier ∧
      ChildObserved child expectation.groupPath expectation.groupId expectation.ownerState state
        group reads := by
  obtain ⟨_, observation, _, rfl, hwait, hrest⟩ := returns_bind h
  obtain ⟨hpolls, hobserved⟩ := returns_waitForChildGroupObservation hwait
  split at hrest
  · rename_i hup
    obtain ⟨rfl, -⟩ := returns_pure hrest
    obtain ⟨earlier, reads, state, group, rfl, hreads⟩ := hobserved hup
    exact ⟨earlier, reads, state, group, by simp,
      fun exchange hmem => hpolls exchange (List.mem_append_left _ hmem), hreads⟩
  · exact (returns_fail hrest).elim

end Child

section Catchup

variable {log : LaunchLog} {child : ManagedAgentChild}

/-- The last exchanges of the log are a snapshot of the owner's group with the agent active. -/
def EndsInSnapshot (groupPath groupId agentId : String) (state : GroupStateProjection)
    (log : LaunchLog) : Prop :=
  ∃ earlier reads group, log = earlier ++ reads ∧
    OwnerSnapshot groupPath groupId agentId .active state group reads

theorem EndsInSnapshot.prepend {groupPath groupId agentId : String} {state : GroupStateProjection}
    (h : EndsInSnapshot groupPath groupId agentId state log) (before : LaunchLog) :
    EndsInSnapshot groupPath groupId agentId state (before ++ log) := by
  obtain ⟨earlier, reads, group, rfl, hreads⟩ := h
  exact ⟨before ++ earlier, reads, group, (List.append_assoc ..).symm, hreads⟩

variable {groupPath groupId agentId : String} {revision : UInt64} {forbidden : Option String}

theorem endsInSnapshot_readOwnerGroupState {state : GroupStateProjection}
    (h : Returns (readOwnerGroupState ⟨groupPath, groupId, revision, agentId, .active, forbidden⟩)
      log state) : EndsInSnapshot groupPath groupId agentId state log := by
  obtain ⟨group, hreads, -⟩ := returns_readOwnerGroupState h
  exact ⟨[], log, group, rfl, hreads⟩

theorem endsInSnapshot_requireOwnerUnchanged {expected : GroupStateProjection}
    (h : Returns (requireOwnerUnchanged ⟨groupPath, groupId, revision, agentId, .active, forbidden⟩
      expected) log ()) : EndsInSnapshot groupPath groupId agentId expected log := by
  obtain ⟨_, current, _, rfl, hcurrent, hrest⟩ := returns_bind h
  obtain ⟨hsame, hdone⟩ := returns_ite_fail hrest
  obtain ⟨rfl, -⟩ := returns_pure hdone
  obtain rfl : current = expected := by simpa using hsame
  rw [List.append_nil]
  exact endsInSnapshot_readOwnerGroupState hcurrent

/-- Either way the catch-up ends by reading the owner again. -/
theorem endsInSnapshot_catchUp {expectation : ChildGroupExpectation}
    (h : Returns (catchUpChildFromOwnerHistory child
      ⟨groupPath, groupId, revision, agentId, .active, forbidden⟩ expectation) log ()) :
    EndsInSnapshot groupPath groupId agentId expectation.ownerState log := by
  obtain ⟨head, snapshot, _, rfl, -, hrest⟩ := returns_bind h
  obtain ⟨-, hrest⟩ := returns_ite_fail hrest
  refine EndsInSnapshot.prepend ?_ head
  split at hrest
  · obtain ⟨strict, _, _, rfl, -, hlast⟩ := returns_bind hrest
    exact (endsInSnapshot_requireOwnerUnchanged hlast).prepend strict
  · obtain ⟨-, hrest⟩ := returns_ite_fail hrest
    obtain ⟨looked, history, _, rfl, -, hrest⟩ := returns_bind hrest
    obtain ⟨checked, batch, _, rfl, -, hrest⟩ := returns_bind hrest
    obtain ⟨unchanged, _, _, rfl, -, hrest⟩ := returns_bind hrest
    obtain ⟨applied, _, _, rfl, -, hlast⟩ := returns_bind hrest
    exact ((((endsInSnapshot_requireOwnerUnchanged hlast).prepend applied).prepend
      unchanged).prepend checked).prepend looked

end Catchup

section Binding

variable {log : LaunchLog} {target : BindTarget} {intent : GroupBindIntent} {revision : UInt64}
  {ownerState : GroupStateProjection}
variable {ownerGroup : Json}

def BindTarget.EndsInSnapshot (target : BindTarget) (state : GroupStateProjection)
    (log : LaunchLog) : Prop :=
  ManagedAgents.EndsInSnapshot target.groupPath target.groupId target.child.agentId state log

/-- The child was only polled, or the owner was read again and is as it was. -/
def BindTarget.StillAt (target : BindTarget) (state : GroupStateProjection) (log : LaunchLog) :
    Prop :=
  OnlyPolls log ∨ target.EndsInSnapshot state log

theorem stillAt_observeCaughtUp {observation : ChildGroupObservation}
    (h : Returns (target.observeCaughtUp revision ownerState) log observation) :
    target.StillAt ownerState log := by
  obtain ⟨waited, seen, _, rfl, hwait, hrest⟩ := returns_bind h
  split at hrest
  · obtain ⟨caught, _, _, rfl, hcatch, hdone⟩ := returns_bind hrest
    obtain ⟨rfl, -⟩ := returns_pure hdone
    rw [List.append_nil]
    exact .inr ((endsInSnapshot_catchUp hcatch).prepend waited)
  · obtain ⟨rfl, -⟩ := returns_pure hrest
    rw [List.append_nil]
    exact .inl (returns_waitForChildGroupObservation hwait).1

theorem stillAt_activeNeedsAttach
    (h : Returns (target.activeNeedsAttach intent revision ownerState) log false) :
    target.StillAt ownerState log := by
  obtain ⟨observed, observation, _, rfl, hobserve, hrest⟩ := returns_bind h
  split at hrest
  · obtain ⟨rfl, -⟩ := returns_pure hrest
    rw [List.append_nil]
    exact stillAt_observeCaughtUp hobserve
  · exact (returns_fail hrest).elim
  · obtain ⟨-, hrepair⟩ := returns_ite_fail hrest
    obtain ⟨_, _, _, rfl, -, hrest⟩ := returns_bind hrepair
    obtain ⟨-, hremove⟩ := returns_ite_fail hrest
    obtain ⟨_, _, _, rfl, -, hdone⟩ := returns_bind hremove
    obtain ⟨-, hfalse⟩ := returns_pure hdone
    cases hfalse

/-- Nothing is attached only where the child is active already. -/
theorem stillAt_needsAttach {state : GroupMemberState}
    (h : Returns (target.needsAttach intent revision ownerState state) log false) :
    state = .active ∧ target.StillAt ownerState log := by
  cases state with
  | active => exact ⟨rfl, stillAt_activeNeedsAttach h⟩
  | absent =>
      obtain ⟨-, hdone⟩ := returns_ite_fail h
      obtain ⟨-, hfalse⟩ := returns_pure hdone
      cases hfalse
  | banned | other state => exact (returns_fail h).elim

/-- What follows the request to attach, where it was not refused. -/
theorem endsInSnapshot_attached {state : GroupStateProjection}
    (h : Returns (do
      let ownerGroup ← ownerGetJson target.groupPath [] "community post-attach lookup failed"
      Task.ofExcept (requireActiveMember ownerGroup target.binding.attachAgentId
        "owner community roster after attach")
      let revision ← Task.ofExcept (rosterRevision ownerGroup)
      readOwnerGroupState (target.ownerExpectation revision .active none)) log state) :
    target.EndsInSnapshot state log := by
  obtain ⟨looked, group, _, rfl, -, hrest⟩ := returns_bind h
  obtain ⟨required, _, _, rfl, -, hrest⟩ := returns_bind hrest
  obtain ⟨numbered, found, _, rfl, -, hread⟩ := returns_bind hrest
  exact (((endsInSnapshot_readOwnerGroupState hread).prepend numbered).prepend required).prepend
    looked

theorem endsInSnapshot_attach {state : GroupStateProjection}
    (h : Returns target.attach log state) : target.EndsInSnapshot state log := by
  obtain ⟨asked, added, _, rfl, -, hrest⟩ := returns_bind h
  simp only at hrest
  split at hrest
  · exact (endsInSnapshot_attached hrest).prepend asked
  · exact (endsInSnapshot_attached hrest).prepend asked
  · obtain ⟨_, _, _, rfl, hfail, -⟩ := returns_bind hrest
    exact (returns_fail hfail).elim

/-- Before the child is waited for: a snapshot of the owner's group, after which the child was
only polled. -/
theorem snapshot_then_polls {state : GroupMemberState}
    {read needs attached : LaunchLog} {needed : Bool} {settled : GroupStateProjection}
    (hsnapshot : OwnerSnapshot target.groupPath target.groupId target.child.agentId state ownerState
      ownerGroup read)
    (hneeds : Returns (target.needsAttach intent revision ownerState state) needs needed)
    (hattach : Returns (target.attachIfNeeded intent needed ownerState) attached settled) :
    ∃ earlier snapshot polls group, read ++ (needs ++ attached) = earlier ++ snapshot ++ polls ∧
      OwnerSnapshot target.groupPath target.groupId target.child.agentId .active settled group
        snapshot ∧ OnlyPolls polls := by
  obtain ⟨-, hattach⟩ := returns_ite_fail hattach
  split at hattach
  · obtain ⟨earlier, reads, group, rfl, hreads⟩ := endsInSnapshot_attach hattach
    exact ⟨read ++ (needs ++ earlier), reads, [], group, by simp, hreads, onlyPolls_nil⟩
  · rename_i hkeep
    obtain ⟨rfl, rfl⟩ := returns_pure hattach
    obtain rfl : needed = false := by simpa using hkeep
    obtain ⟨rfl, hpolls | ⟨earlier, reads, group, rfl, hreads⟩⟩ := stillAt_needsAttach hneeds
    · exact ⟨[], read, needs, ownerGroup, by simp, hsnapshot, hpolls⟩
    · exact ⟨read ++ earlier, reads, [], group, by simp, hreads, onlyPolls_nil⟩

/-- The log ends with a stable snapshot of the owner's group, then polls of the child, then a look
at the child that agrees with the snapshot. -/
def BindTarget.Agrees (target : BindTarget) (ownerGroup : Json) (log : LaunchLog) : Prop :=
  ∃ earlier snapshot polls reads ownerState childState childGroup,
    log = earlier ++ snapshot ++ polls ++ reads ∧
    OwnerSnapshot target.groupPath target.groupId target.child.agentId .active ownerState
      ownerGroup snapshot ∧
    OnlyPolls polls ∧
    ChildObserved target.child target.groupPath target.groupId ownerState childState childGroup
      reads

theorem agrees_of_wait {forbidden : Option String} (earlier : LaunchLog)
    {snapshot polls waited : LaunchLog}
    (hsnapshot : OwnerSnapshot target.groupPath target.groupId target.child.agentId .active
      ownerState ownerGroup snapshot) (hpolls : OnlyPolls polls)
    (hwait : Returns (waitForChildGroup target.child (target.childExpectation ownerState forbidden))
      waited ()) :
    target.Agrees ownerGroup (earlier ++ snapshot ++ polls ++ waited) := by
  obtain ⟨looked, reads, childState, childGroup, rfl, hlooked, hreads⟩ :=
    returns_waitForChildGroup hwait
  exact ⟨earlier, snapshot, polls ++ looked, reads, ownerState, childState, childGroup, by simp,
    hsnapshot, hpolls.append hlooked, hreads⟩

theorem BindTarget.Agrees.prepend (h : target.Agrees ownerGroup log)
    (before : LaunchLog) : target.Agrees ownerGroup (before ++ log) := by
  obtain ⟨earlier, snapshot, polls, reads, state, childState, childGroup, rfl, hagrees⟩ := h
  exact ⟨before ++ earlier, snapshot, polls, reads, state, childState, childGroup, by simp,
    hagrees⟩

/-- The last time that the owner's group was read it was `group`. -/
def LastOwnerGroup (groupPath : String) (group : Json) (log : LaunchLog) : Prop :=
  ∃ before after, log = before ++ ownerRead groupPath group :: after ∧
    ∀ exchange ∈ after, exchange.1 ≠ .ownerGet groupPath []

theorem statePath_ne (groupPath : String) : groupPath ++ "/state" ≠ groupPath := by
  intro h
  have hlength := congrArg String.length h
  rw [String.length_append] at hlength
  have hstate : "/state".length = 6 := rfl
  omega

theorem BindTarget.Agrees.lastOwnerGroup (h : target.Agrees ownerGroup log) :
    LastOwnerGroup target.groupPath ownerGroup log := by
  obtain ⟨earlier, _, polls, _, state, childState, childGroup, rfl,
    ⟨⟨before, after, -, -, rfl⟩, -, -, -⟩, hpolls, ⟨childBefore, childAfter, -, -, rfl⟩, -⟩ := h
  refine ⟨earlier ++ [ownerRead (target.groupPath ++ "/state") before],
    ownerRead (target.groupPath ++ "/state") after :: polls ++ _, by simp; rfl, ?_⟩
  intro exchange hexchange hsame
  simp only [List.cons_append, List.mem_cons, List.mem_append, List.not_mem_nil, or_false]
    at hexchange
  rcases hexchange with rfl | hpoll | rfl | rfl | rfl
  · exact statePath_ne target.groupPath (LaunchRequest.ownerGet.inj hsame).1
  · have hpolled := hpolls exchange hpoll
    rw [hsame] at hpolled
    exact hpolled
  all_goals cases hsame

/-- Either the old entry was not active, or it was removed and all was read again. -/
theorem returns_removeLegacy {legacyAgentId : String}
    (h : Returns (target.removeLegacy legacyAgentId) log ()) :
    ∃ group, groupMemberState group legacyAgentId ≠ .active ∧
      (log = [ownerRead target.groupPath group] ∨ target.Agrees group log) := by
  obtain ⟨looked, found, _, rfl, hlook, hrest⟩ := returns_bind h
  obtain rfl := returns_ownerGetJson hlook
  split at hrest
  · obtain ⟨removed, _, _, rfl, -, hrest⟩ := returns_bind hrest
    obtain ⟨again, after, _, rfl, -, hrest⟩ := returns_bind hrest
    obtain ⟨required, _, _, rfl, -, hrest⟩ := returns_bind hrest
    obtain ⟨numbered, revision, _, rfl, -, hrest⟩ := returns_bind hrest
    obtain ⟨read, state, waited, rfl, hread, hwait⟩ := returns_bind hrest
    obtain ⟨group, hsnapshot, hforbidden⟩ := returns_readOwnerGroupState hread
    have hagrees : target.Agrees group (read ++ waited) := by
      simpa using agrees_of_wait [] hsnapshot onlyPolls_nil hwait
    exact ⟨group, hforbidden legacyAgentId rfl, .inr
      ((((hagrees.prepend numbered).prepend required).prepend again).prepend removed |>.prepend
        [ownerRead target.groupPath found])⟩
  · rename_i hinactive
    obtain ⟨rfl, -⟩ := returns_pure hrest
    exact ⟨found, hinactive, .inl rfl⟩

/-- What the log of a successful binding ends with. The group may have been looked up once more
after the agreement, and nothing else was asked for. -/
structure BindTarget.Bound (target : BindTarget) (intent : GroupBindIntent) (log : LaunchLog) :
    Prop where
  agreed : ∃ agreement rest ownerGroup, log = agreement ++ rest ∧
    target.Agrees ownerGroup agreement ∧
    (rest = [] ∨ ∃ group, rest = [ownerRead target.groupPath group])
  migrated : intent = .ensureAttached → ∀ legacyAgentId,
    target.binding.removeLegacyAgentId = some legacyAgentId →
      ∃ group, LastOwnerGroup target.groupPath group log ∧
        groupMemberState group legacyAgentId ≠ .active

/-- The last part of a binding, after the child was waited for. -/
theorem bound_of_last {agreement last : LaunchLog} (hagrees : target.Agrees ownerGroup agreement)
    (h : Returns (if ownerRosterMutationAllowed intent then
        match target.binding.removeLegacyAgentId with
        | some legacyAgentId => target.removeLegacy legacyAgentId
        | none => pure ()
      else pure ()) last ()) :
    target.Bound intent (agreement ++ last) := by
  cases intent with
  | existingOnly expected =>
      rw [ownerRosterMutationAllowed, if_neg Bool.false_ne_true] at h
      obtain ⟨rfl, -⟩ := returns_pure h
      exact ⟨⟨agreement, [], ownerGroup, rfl, hagrees, .inl rfl⟩, fun hintent => by cases hintent⟩
  | ensureAttached =>
      rw [ownerRosterMutationAllowed, if_pos rfl] at h
      cases hlegacy : target.binding.removeLegacyAgentId with
      | none =>
          rw [hlegacy] at h
          obtain ⟨rfl, -⟩ := returns_pure h
          refine ⟨⟨agreement, [], ownerGroup, rfl, hagrees, .inl rfl⟩, ?_⟩
          intro _ legacyAgentId hsome
          simp [hlegacy] at hsome
      | some legacy =>
          rw [hlegacy] at h
          obtain ⟨group, hinactive, rfl | hlater⟩ := returns_removeLegacy h
          · refine ⟨⟨agreement, _, ownerGroup, rfl, hagrees, .inr ⟨group, rfl⟩⟩, ?_⟩
            intro _ legacyAgentId hsome
            obtain rfl : legacy = legacyAgentId := Option.some.inj (hlegacy.symm.trans hsome)
            exact ⟨group, ⟨agreement, [], rfl, by simp⟩, hinactive⟩
          · have hall := hlater.prepend agreement
            refine ⟨⟨agreement ++ last, [], group, (List.append_nil _).symm, hall, .inl rfl⟩, ?_⟩
            intro _ legacyAgentId hsome
            obtain rfl : legacy = legacyAgentId := Option.some.inj (hlegacy.symm.trans hsome)
            exact ⟨group, hall.lastOwnerGroup, hinactive⟩

theorem returns_bindTarget (h : Returns (target.bind intent) log ()) :
    target.Bound intent log := by
  obtain ⟨looked, group, _, rfl, -, hrest⟩ := returns_bind h
  obtain ⟨signed, _, _, rfl, -, hrest⟩ := returns_bind hrest
  obtain ⟨eligible, _, _, rfl, -, hrest⟩ := returns_bind hrest
  obtain ⟨allowed, _, _, rfl, -, hrest⟩ := returns_bind hrest
  obtain ⟨numbered, revision, _, rfl, -, hrest⟩ := returns_bind hrest
  obtain ⟨read, state, _, rfl, hread, hrest⟩ := returns_bind hrest
  obtain ⟨needs, needed, _, rfl, hneeds, hrest⟩ := returns_bind hrest
  obtain ⟨attached, settled, _, rfl, hattach, hrest⟩ := returns_bind hrest
  obtain ⟨waited, _, last, rfl, hwait, hlast⟩ := returns_bind hrest
  obtain ⟨_, hsnapshot, -⟩ := returns_readOwnerGroupState hread
  obtain ⟨earlier, snapshot, polls, ownerGroup, heq, hsnapshot, hpolls⟩ :=
    snapshot_then_polls hsnapshot hneeds hattach
  have hagrees : target.Agrees ownerGroup (looked ++ signed ++ eligible ++ allowed ++ numbered ++
      (read ++ (needs ++ attached)) ++ waited) := by
    rw [heq]
    simpa using (agrees_of_wait earlier hsnapshot hpolls hwait).prepend
      (looked ++ signed ++ eligible ++ allowed ++ numbered)
  have hsplit : looked ++ (signed ++ (eligible ++ (allowed ++ (numbered ++ (read ++ (needs ++
      (attached ++ (waited ++ last)))))))) =
      (looked ++ signed ++ eligible ++ allowed ++ numbered ++ (read ++ (needs ++ attached)) ++
        waited) ++ last := by
    simp only [List.append_assoc]
  rw [hsplit]
  exact bound_of_last hagrees hlast

theorem bind_ends_in_agreement (record : ManagedAgentRecord) (child : ManagedAgentChild)
    (ownerAgentId groupId : String) (intent : GroupBindIntent) (log : LaunchLog)
    (h : Returns (bindChildToGroup record child ownerAgentId groupId intent) log ()) :
    ∃ encodedGroup, pathSegment groupId = .ok encodedGroup ∧
      BindTarget.Bound ⟨record, child, ownerAgentId, groupId, encodedGroup⟩ intent log := by
  obtain ⟨_, encodedGroup, _, rfl, hencode, hbind⟩ := returns_bind h
  obtain ⟨rfl, hencoded⟩ := returns_ofExcept hencode
  exact ⟨encodedGroup, hencoded, returns_bindTarget hbind⟩

end Binding

section Attached

def attachedGroup : Json :=
  .object [("members", .array [.object [("agent_id", .string "c"), ("state", .string "active")]]),
    ("policy", .object [("confidentiality", .string "signed_public")]),
    ("roster_revision", .number (.posInt 3))]

def attachedState : Json :=
  .object [("genesis", .object [("group_id", .string "g")]), ("group_id", .string "g"),
    ("policy_hash", .string "p"), ("public_meta_hash", .string "m"), ("roster_root", .string "r"),
    ("security_binding", .null), ("state_hash", .string "s"),
    ("state_revision", .number (.posInt 3)), ("withdrawn", .bool false)]

/-- Owner and child have the same group, in which the child is a member. -/
def attachedDaemons : (request : LaunchRequest) → request.Reply
  | .ownerGet path _ => .ok (if path = "/groups/g" then attachedGroup else attachedState)
  | .ownerPost _ _ => .ok .null
  | .ownerDelete _ => .ok .null
  | .childGet _ path => .ok (if path = "/groups/g" then attachedGroup else attachedState)
  | .childPost _ _ _ => .ok .null
  | .deadlinePassed => true
  | .loadManagedAgents => .ok []
  | .runningChild _ => none
  | .persistedIdentity _ => .ok none
  | .resolveConfig _ => .ok ""
  | .createDataDir _ => .ok ()
  | .bringUp _ => .ok ⟨"c", ""⟩
  | .keepChild _ _ => ()
  | .buildHttpClient => .ok ()

def attachedRecord : ManagedAgentRecord :=
  ⟨"k", "agent", .local, true, .ownerOnly, [], "", none, none, none, none, none, none⟩

def attachedRun : LaunchLog × Except String Unit × Unit :=
  (bindChildToGroup attachedRecord ⟨"c", "d"⟩ "o" "g" .ensureAttached ()).served attachedDaemons

theorem attachedRun_ok : attachedRun.2.1 = .ok () := by
  decide +kernel

theorem attached_binding_agrees :
    ∃ encodedGroup, pathSegment "g" = .ok encodedGroup ∧
      BindTarget.Bound ⟨attachedRecord, ⟨"c", "d"⟩, "o", "g", encodedGroup⟩ .ensureAttached
        attachedRun.1 :=
  bind_ends_in_agreement attachedRecord ⟨"c", "d"⟩ "o" "g" .ensureAttached attachedRun.1
    (returns_served attachedDaemons attachedRun_ok)

end Attached
end Buzz.ManagedAgents
