import Buzz.GroupBinding

/-!
# A launch that only uses what exists

With the intent of a start at launch of the application, no request of a binding
changes the owner's roster and no request of a preparation sets up a new child,
whatever the daemons answer.
-/

namespace Buzz.ManagedAgents

open EffectProgram Task

/-- A member is added to or removed from a group of the owner. -/
def LaunchRequest.MutatesRoster : LaunchRequest → Prop
  | ownerPost path _ => ∃ group, path = "/groups/" ++ group ++ "/members"
  | ownerDelete path => ∃ group agentId, path = "/groups/" ++ group ++ "/members/" ++ agentId
  | _ => False

/-- A child is set up or started. -/
def LaunchRequest.StartsChild : LaunchRequest → Prop
  | createDataDir _ => True
  | bringUp _ => True
  | _ => False

/-- A new child: its home is created, or a daemon is started for an instance other than the agent's
own, or for one whose key file was not found to hold the expected identity before. -/
def LaunchRequest.Provisions (pubkey expected : String)
    (log : List (Exchange LaunchRequest LaunchRequest.Reply)) : LaunchRequest → Prop
  | createDataDir _ => True
  | bringUp instanceName => ¬(instanceName = managedAgentInstance pubkey ∧
      ∃ child : ManagedAgentChild, child.agentId = expected ∧
        ⟨.persistedIdentity instanceName, .ok (some child)⟩ ∈ log)
  | _ => False

/-- The request changes no roster and starts no child. -/
def LaunchRequest.Existing (request : LaunchRequest) : Prop :=
  ¬request.MutatesRoster ∧ ¬request.StartsChild

/-- The request changes no roster and provisions no child after the exchanges of the log. -/
def LaunchRequest.ExistingAfter (pubkey expected : String)
    (log : List (Exchange LaunchRequest LaunchRequest.Reply)) (request : LaunchRequest) : Prop :=
  ¬request.MutatesRoster ∧ ¬request.Provisions pubkey expected log

theorem LaunchRequest.Existing.after {pubkey expected : String}
    (log : List (Exchange LaunchRequest LaunchRequest.Reply)) (request : LaunchRequest)
    (h : request.Existing) : request.ExistingAfter pubkey expected log := by
  refine ⟨h.1, fun hprovisions => h.2 ?_⟩
  cases request with
  | createDataDir => trivial
  | bringUp => trivial
  | _ => exact hprovisions

section Requests

theorem issues_ask {request : LaunchRequest} (h : request.Existing) :
    Issues LaunchRequest.Existing (ask request) :=
  issues_perform h

theorem issues_answerOf {ε α : Type} (label : String) (display : ε → String)
    (answer : Except ε α) : Issues LaunchRequest.Existing (answerOf label display answer) := by
  cases answer with
  | ok value => exact issues_pure value
  | error error => exact issues_fail _

theorem issues_requireSome {α : Type} (value : Option α) (error : String) :
    Issues LaunchRequest.Existing (requireSome value error) := by
  cases value with
  | some found => exact issues_pure found
  | none => exact issues_fail error

theorem issues_ownerGetJson (path : String) (query : List (String × String)) (label : String) :
    Issues LaunchRequest.Existing (ownerGetJson path query label) :=
  issues_bind (issues_ask ⟨id, id⟩) fun answer => issues_answerOf label _ answer

theorem issues_childGetJson (child : ManagedAgentChild) (path label : String) :
    Issues LaunchRequest.Existing (childGetJson child path label) :=
  issues_bind (issues_ask ⟨id, id⟩) fun answer => issues_answerOf label _ answer

theorem issues_childPostJson (child : ManagedAgentChild) (path : String) (body : Json)
    (label : String) : Issues LaunchRequest.Existing (childPostJson child path body label) :=
  issues_bind (issues_ask ⟨id, id⟩) fun answer => issues_answerOf label _ answer

theorem issues_readOwnerGroupState (expectation : OwnerGroupExpectation) :
    Issues LaunchRequest.Existing (readOwnerGroupState expectation) := by
  unfold readOwnerGroupState
  refine issues_bind (issues_ownerGetJson ..) fun _ => ?_
  refine issues_bind (issues_ofExcept _) fun _ => ?_
  refine issues_bind (issues_ownerGetJson ..) fun _ => ?_
  refine issues_bind (issues_ownerGetJson ..) fun _ => ?_
  refine issues_bind (issues_ofExcept _) fun _ => ?_
  refine issues_bind (issues_ofExcept _) fun _ => ?_
  exact issues_ite (fun _ => issues_fail _) fun _ => issues_pure _

theorem issues_readChildGroupState (child : ManagedAgentChild) (statePath groupId : String) :
    Issues LaunchRequest.Existing (readChildGroupState child statePath groupId) := by
  unfold readChildGroupState
  refine issues_bind (issues_ask ⟨id, id⟩) fun answer => ?_
  split
  · exact issues_ofExcept _
  · exact issues_pure _
  · exact issues_fail _

theorem issues_lookupChildGroup (child : ManagedAgentChild) (groupPath : String) :
    Issues LaunchRequest.Existing (lookupChildGroup child groupPath) := by
  unfold lookupChildGroup
  refine issues_bind (issues_ask ⟨id, id⟩) fun answer => ?_
  split
  · exact issues_pure _
  · exact issues_pure _
  · exact issues_fail _

theorem issues_observeChildGroup (child : ManagedAgentChild) (expectation : ChildGroupExpectation) :
    Issues LaunchRequest.Existing (observeChildGroup child expectation) := by
  unfold observeChildGroup
  refine issues_bind (issues_readChildGroupState ..) fun _ => ?_
  refine issues_bind (issues_lookupChildGroup ..) fun group => ?_
  refine issues_bind (issues_readChildGroupState ..) fun _ => ?_
  cases group with
  | none => exact issues_pure _
  | some group => exact issues_ofExcept _

theorem issues_waitForChildGroupObservation (child : ManagedAgentChild)
    (expectation : ChildGroupExpectation) (sawPresent : Bool) (polls : ℕ) :
    Issues LaunchRequest.Existing
      (waitForChildGroupObservation child expectation sawPresent polls) := by
  induction polls generalizing sawPresent with
  | zero => exact issues_bind (issues_observeChildGroup ..) fun _ => issues_pure _
  | succ polls ih =>
      refine issues_bind (issues_observeChildGroup ..) fun _ => ?_
      refine issues_ite (fun _ => issues_pure _) fun _ => ?_
      refine issues_bind (issues_ask ⟨id, id⟩) fun _ => ?_
      exact issues_ite (fun _ => issues_pure _) fun _ => ih _

theorem issues_waitForChildGroup (child : ManagedAgentChild) (expectation : ChildGroupExpectation) :
    Issues LaunchRequest.Existing (waitForChildGroup child expectation) := by
  refine issues_bind (issues_waitForChildGroupObservation ..) fun _ => ?_
  exact issues_ite (fun _ => issues_pure _) fun _ => issues_fail _

end Requests

section Catchup

theorem issues_readChildCatchupHead (child : ManagedAgentChild)
    (expectation : ChildGroupExpectation) (ownerRosterRevision : UInt64) :
    Issues LaunchRequest.Existing (readChildCatchupHead child expectation ownerRosterRevision) := by
  unfold readChildCatchupHead
  refine issues_bind (issues_readChildGroupState ..) fun _ => ?_
  refine issues_bind (issues_requireSome ..) fun _ => ?_
  refine issues_bind (issues_childGetJson ..) fun _ => ?_
  refine issues_bind (issues_ofExcept _) fun _ => ?_
  refine issues_bind (issues_readChildGroupState ..) fun _ => ?_
  refine issues_bind (issues_requireSome ..) fun _ => ?_
  refine issues_ite (fun _ => issues_fail _) fun _ => ?_
  exact issues_ite (fun _ => issues_fail _) fun _ => issues_pure _

theorem issues_requireChildStrict (child : ManagedAgentChild) (expectation : ChildGroupExpectation)
    (targetRosterRevision : UInt64) :
    Issues LaunchRequest.Existing (requireChildStrict child expectation targetRosterRevision) := by
  refine issues_bind (issues_waitForChildGroupObservation ..) fun _ => ?_
  refine issues_ite (fun _ => issues_fail _) fun _ => ?_
  refine issues_bind (issues_readChildCatchupHead ..) fun _ => ?_
  exact issues_ite (fun _ => issues_fail _) fun _ => issues_pure _

theorem issues_requireOwnerUnchanged (expectation : OwnerGroupExpectation)
    (expected : GroupStateProjection) :
    Issues LaunchRequest.Existing (requireOwnerUnchanged expectation expected) := by
  refine issues_bind (issues_readOwnerGroupState _) fun _ => ?_
  exact issues_ite (fun _ => issues_fail _) fun _ => issues_pure _

theorem issues_applyValidatedChildCatchup (child : ManagedAgentChild)
    (expectation : ChildGroupExpectation) (targetRosterRevision : UInt64)
    (batch : ValidatedOwnerCatchup) : Issues LaunchRequest.Existing
      (applyValidatedChildCatchup child expectation targetRosterRevision batch) := by
  refine issues_bind (issues_childPostJson ..) fun _ => ?_
  refine issues_bind (issues_ofExcept _) fun _ => ?_
  exact issues_requireChildStrict ..

/-- The catch-up writes to the child alone. -/
theorem issues_catchUpChildFromOwnerHistory (child : ManagedAgentChild)
    (ownerExpectation : OwnerGroupExpectation) (childExpectation : ChildGroupExpectation) :
    Issues LaunchRequest.Existing
      (catchUpChildFromOwnerHistory child ownerExpectation childExpectation) := by
  unfold catchUpChildFromOwnerHistory
  refine issues_bind (issues_readChildCatchupHead ..) fun _ => ?_
  refine issues_ite (fun _ => issues_fail _) fun _ => ?_
  refine issues_ite (fun _ => ?_) fun _ => ?_
  · exact issues_bind (issues_requireChildStrict ..) fun _ => issues_requireOwnerUnchanged ..
  · refine issues_ite (fun _ => issues_fail _) fun _ => ?_
    refine issues_bind (issues_ownerGetJson ..) fun _ => ?_
    refine issues_bind (issues_ofExcept _) fun _ => ?_
    refine issues_bind (issues_requireOwnerUnchanged ..) fun _ => ?_
    refine issues_bind (issues_applyValidatedChildCatchup ..) fun _ => ?_
    exact issues_requireOwnerUnchanged ..

end Catchup

section Binding

variable (target : BindTarget) (expected : String)

theorem issues_observeCaughtUp (revision : UInt64) (ownerState : GroupStateProjection) :
    Issues LaunchRequest.Existing (target.observeCaughtUp revision ownerState) := by
  unfold BindTarget.observeCaughtUp
  refine issues_bind (issues_waitForChildGroupObservation ..) fun _ => ?_
  refine issues_ite (fun _ => ?_) fun _ => issues_pure _
  exact issues_bind (issues_catchUpChildFromOwnerHistory ..) fun _ => issues_pure _

theorem issues_activeNeedsAttach (revision : UInt64) (ownerState : GroupStateProjection) :
    Issues LaunchRequest.Existing
      (target.activeNeedsAttach (.existingOnly expected) revision ownerState) := by
  unfold BindTarget.activeNeedsAttach
  refine issues_bind (issues_observeCaughtUp ..) fun observation => ?_
  cases activeOwnerAction observation with
  | keep => exact issues_pure _
  | rejectStale | repairMissing => exact issues_fail _

theorem issues_needsAttach (revision : UInt64) (ownerState : GroupStateProjection)
    (state : GroupMemberState) : Issues LaunchRequest.Existing
      (target.needsAttach (.existingOnly expected) revision ownerState state) := by
  cases state with
  | absent => exact issues_fail _
  | active => exact issues_activeNeedsAttach target expected revision ownerState
  | banned | other state => exact issues_fail _

theorem issues_attachIfNeeded (needed : Bool) (ownerState : GroupStateProjection) :
    Issues LaunchRequest.Existing
      (target.attachIfNeeded (.existingOnly expected) needed ownerState) := by
  cases needed with
  | false => exact issues_pure _
  | true => exact issues_fail _

theorem issues_bindTarget :
    Issues LaunchRequest.Existing (target.bind (.existingOnly expected)) := by
  unfold BindTarget.bind
  refine issues_bind (issues_ownerGetJson ..) fun ownerGroup => ?_
  refine issues_bind (issues_ofExcept _) fun _ => ?_
  refine issues_bind (issues_ofExcept _) fun _ => ?_
  refine issues_bind (issues_ofExcept _) fun _ => ?_
  refine issues_bind (issues_ofExcept _) fun _ => ?_
  refine issues_bind (issues_readOwnerGroupState _) fun _ => ?_
  refine issues_bind (issues_needsAttach ..) fun _ => ?_
  refine issues_bind (issues_attachIfNeeded ..) fun _ => ?_
  refine issues_bind (issues_waitForChildGroup ..) fun _ => ?_
  exact issues_pure _

theorem issues_bindChildToGroup (record : ManagedAgentRecord) (child : ManagedAgentChild)
    (ownerAgentId groupId : String) : Issues LaunchRequest.Existing
      (bindChildToGroup record child ownerAgentId groupId (.existingOnly expected)) :=
  issues_bind (issues_ofExcept _) fun _ => issues_bindTarget ..

end Binding

section Children

theorem issues_managedAgentChildIdentity (pubkey : String) :
    Issues LaunchRequest.Existing (managedAgentChildIdentity pubkey) := by
  unfold managedAgentChildIdentity
  refine issues_bind (issues_ask ⟨id, id⟩) fun running => ?_
  split
  · exact issues_pure _
  · refine issues_bind (issues_ask ⟨id, id⟩) fun persisted => ?_
    split
    · exact issues_pure _
    · exact issues_pure _

theorem persisted_of_recovered {instanceName expected : String} {recovered : ManagedAgentChild}
    {persisted : Option ManagedAgentChild}
    (h : (recoverManagedAgentChildIdentity instanceName persisted).filter
      (·.agentId = expected) = some recovered) :
    persisted = some recovered ∧ recovered.agentId = expected := by
  obtain ⟨hfound, hexpected⟩ := Option.filter_eq_some_iff.mp h
  unfold recoverManagedAgentChildIdentity at hfound
  split_ifs at hfound
  exact ⟨(Option.filter_eq_some_iff.mp hfound).1, of_decide_eq_true hexpected⟩

theorem issuesAfter_answerOf {ε α β : Type} {label : String} {display : ε → String}
    {answer : Except ε α} {f : α → Launch β}
    {permitted : List (Exchange LaunchRequest LaunchRequest.Reply) → LaunchRequest → Prop}
    {log : List (Exchange LaunchRequest LaunchRequest.Reply)}
    (h : ∀ value, answer = .ok value → IssuesAfter permitted log (f value)) :
    IssuesAfter permitted log (answerOf label display answer >>= f) := by
  have hchecked (result : Except String α)
      (hresult : ∀ value, result = .ok value → answer = .ok value) :
      IssuesAfter permitted log (ofExcept result >>= f) :=
    issuesAfter_ofExcept fun value heq => h value (hresult value heq)
  cases answer with
  | ok value => exact hchecked (.ok value) fun _ heq => by rw [Except.ok.inj heq]
  | error error =>
      exact hchecked (.error (label ++ ": " ++ display error)) fun _ heq => by cases heq

/-- The daemon is started only behind the key file that holds the expected identity. -/
theorem issuesAfter_bringUpExisting (pubkey expected label : String)
    (log : List (Exchange LaunchRequest LaunchRequest.Reply)) :
    IssuesAfter (LaunchRequest.ExistingAfter pubkey expected) log
      (bringUpExistingManagedAgentChild pubkey expected label) := by
  unfold bringUpExistingManagedAgentChild
  refine issuesAfter_perform ⟨id, id⟩ fun running => ?_
  cases running with
  | some child =>
      exact (issues_ite (fun _ => issues_fail _) fun _ => issues_pure _).after
        LaunchRequest.Existing.after _
  | none =>
      refine issuesAfter_perform ⟨id, id⟩ fun persisted => ?_
      refine issuesAfter_answerOf fun identity hidentity => ?_
      split
      · exact (issues_fail _).after LaunchRequest.Existing.after _
      · rename_i recovered hrecovered
        obtain ⟨rfl, hexpected⟩ := persisted_of_recovered hrecovered
        subst hidentity
        refine issuesAfter_perform ⟨id, id⟩ fun dataDir => ?_
        refine issuesAfter_answerOf fun dataDir _ => ?_
        split_ifs
        · exact (issues_fail _).after LaunchRequest.Existing.after _
        · refine issuesAfter_perform ⟨id, fun hnew => hnew ⟨rfl, recovered, hexpected, ?_⟩⟩ ?_
          · simp
          · refine fun child => issuesAfter_answerOf fun child _ => ?_
            refine Issues.after ?_ LaunchRequest.Existing.after _
            refine issues_ite (fun _ => issues_fail _) fun _ => ?_
            exact issues_bind (issues_ask ⟨id, id⟩) fun _ => issues_pure _

theorem issuesAfter_resolveLaunchChild (pubkey expected : String)
    (log : List (Exchange LaunchRequest LaunchRequest.Reply)) :
    IssuesAfter (LaunchRequest.ExistingAfter pubkey expected) log
      (resolveLaunchChild pubkey (.existingOnly expected)) := by
  unfold resolveLaunchChild
  refine issuesAfter_bind ((issues_managedAgentChildIdentity pubkey).after
    LaunchRequest.Existing.after log) fun observed more => ?_
  cases observed with
  | none => exact (issues_fail _).after LaunchRequest.Existing.after _
  | some observed =>
      simp only
      split_ifs
      · exact (issues_fail _).after LaunchRequest.Existing.after _
      · exact issuesAfter_bringUpExisting ..

theorem issues_allowlistIdentity (teammatePubkey expected : String) :
    Issues LaunchRequest.Existing (allowlistIdentity teammatePubkey (.existingOnly expected)) := by
  unfold allowlistIdentity
  refine issues_bind (issues_managedAgentChildIdentity _) fun child => ?_
  split
  · exact issues_pure _
  · exact issues_fail _

theorem issues_translateEntries (records : List ManagedAgentRecord) (record : ManagedAgentRecord)
    (currentChild : ManagedAgentChild) (expected : String) (entries : List String) :
    Issues LaunchRequest.Existing
      (translateEntries records record currentChild (.existingOnly expected) entries) := by
  induction entries with
  | nil => exact issues_pure _
  | cons entry rest ih =>
      unfold translateEntries
      split
      · exact ih
      · refine issues_bind ?_ fun _ => issues_bind ih fun _ => issues_pure _
        exact issues_ite (fun _ => issues_pure _) fun _ => issues_allowlistIdentity ..

theorem issues_resolveEffectiveRespondToAllowlist (record : ManagedAgentRecord)
    (currentChild : ManagedAgentChild) (expected : String) : Issues LaunchRequest.Existing
      (resolveEffectiveRespondToAllowlist record currentChild (.existingOnly expected)) := by
  unfold resolveEffectiveRespondToAllowlist
  refine issues_bind (issues_ofExcept _) fun _ => ?_
  refine issues_ite (fun _ => issues_pure _) fun _ => ?_
  refine issues_bind (issues_ask ⟨id, id⟩) fun _ => ?_
  refine issues_bind (issues_ofExcept _) fun _ => ?_
  refine issues_bind (issues_translateEntries ..) fun _ => ?_
  exact issues_ofExcept _

end Children

section Preparation

/-- Paths outside `/groups` have no members. -/
theorem existing_ownerPost {path : String} (body : Json) (h : path.toList[1]? = some 'a') :
    (LaunchRequest.ownerPost path body).Existing := by
  refine ⟨?_, id⟩
  rintro ⟨group, rfl⟩
  simp at h

theorem issues_establishMutualConsent (child : ManagedAgentChild) (ownerAgentId : String) :
    Issues LaunchRequest.Existing (establishMutualConsent child ownerAgentId) := by
  unfold establishMutualConsent
  refine issues_bind (issues_ownerGetJson ..) fun _ => ?_
  refine issues_bind (issues_ofExcept _) fun _ => ?_
  refine issues_bind (issues_childGetJson ..) fun _ => ?_
  refine issues_bind (issues_ofExcept _) fun _ => ?_
  refine issues_bind (issues_childPostJson ..) fun _ => ?_
  refine issues_bind (issues_ofExcept _) fun _ => ?_
  refine issues_bind (issues_ask (existing_ownerPost _ rfl)) fun _ => ?_
  refine issues_bind (issues_answerOf ..) fun _ => ?_
  refine issues_bind (issues_ofExcept _) fun _ => ?_
  refine issues_bind (issues_ask ⟨id, id⟩) fun _ => ?_
  exact issues_bind (issues_ask (existing_ownerPost _ rfl)) fun _ => issues_pure _

theorem issuesAfter_prepareManagedAgentLaunch (record : ManagedAgentRecord)
    (groupId expected : String) (log : List (Exchange LaunchRequest LaunchRequest.Reply)) :
    IssuesAfter (LaunchRequest.ExistingAfter record.pubkey expected) log
      (prepareManagedAgentLaunch record groupId (.existingOnly expected)) := by
  unfold prepareManagedAgentLaunch
  split_ifs
  · exact (issues_fail _).after LaunchRequest.Existing.after log
  · refine issuesAfter_bind (issuesAfter_resolveLaunchChild record.pubkey expected log)
      fun child more => Issues.after ?_ LaunchRequest.Existing.after _
    refine issues_bind (issues_resolveEffectiveRespondToAllowlist ..) fun _ => ?_
    refine issues_bind (issues_ask ⟨id, id⟩) fun _ => ?_
    refine issues_bind (issues_answerOf ..) fun _ => ?_
    refine issues_bind (issues_ownerGetJson ..) fun _ => ?_
    refine issues_bind (issues_requireSome ..) fun _ => ?_
    refine issues_bind (issues_establishMutualConsent ..) fun _ => ?_
    exact issues_bind (issues_bindChildToGroup ..) fun _ => issues_pure _

/-- Whatever the daemons answer and wherever it ends, a binding to what exists leaves the owner's
roster alone, and neither the binding nor the preparation it is a part of provisions a child. -/
theorem existingOnly_mutates_nothing (record : ManagedAgentRecord) (groupId expected : String) :
    (∀ child ownerAgentId log request next,
      Reaches (bindChildToGroup record child ownerAgentId groupId (.existingOnly expected) ()) log
        (.call request next) →
      ¬request.MutatesRoster ∧ ¬request.Provisions record.pubkey expected log) ∧
    (∀ log request next,
      Reaches (prepareManagedAgentLaunch record groupId (.existingOnly expected) ()) log
        (.call request next) →
      ¬request.MutatesRoster ∧ ¬request.Provisions record.pubkey expected log) := by
  constructor
  · intro child ownerAgentId log request next hreach
    have hissues : IssuesAfter (LaunchRequest.ExistingAfter record.pubkey expected) []
        (bindChildToGroup record child ownerAgentId groupId (.existingOnly expected)) :=
      (issues_bindChildToGroup expected record child ownerAgentId groupId).after
        LaunchRequest.Existing.after []
    exact (hissues.program ()).reaches hreach
  · intro log request next hreach
    have hissues := issuesAfter_prepareManagedAgentLaunch record groupId expected []
    exact (hissues.program ()).reaches hreach

end Preparation
end Buzz.ManagedAgents
