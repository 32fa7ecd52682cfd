import Buzz.ExceptRules
import Buzz.GroupBinding
import Buzz.LinkedChain

/-!
# What the checks of a binding accept

The history that the owner offers to a child is accepted when it is a chain of
commits from the head of the child to the head of the owner, in a response that
describes itself so. The roster is read in two ways, which may differ on an agent
that is listed more than once.
-/

namespace Buzz.ManagedAgents

open LinkedChain

section Commits

def commitStr (field : String) (entry : Json) : Option String :=
  (entry.get "commit").bind (·.getStr field)

def commitRevision (entry : Json) : Option ℕ :=
  ((entry.get "commit").bind (·.getU64 "revision")).map UInt64.toNat

/-- What every retained entry has to say about itself. -/
structure EntryHeld (owner : GroupStateProjection) (entry : Json) : Prop where
  roster : (entry.get "roster").any Json.isObject = true
  verified : entry.getBool "roster_root_verified" = some true
  groupId : commitStr "group_id" entry = some owner.groupId
  present : (entry.get "commit").bind (·.getBool "withdrawn") = some false
  hash : ∃ hash, commitStr "state_hash" entry = some hash ∧ hash ≠ ""

/-- What the response says about itself: it is the whole way from the child to the owner. -/
structure ResponseComplete (history : Json) (child owner : GroupStateProjection) : Prop where
  groupId : history.getStr "group_id" = some owner.groupId
  stateRevision : history.getU64 "state_revision" = some owner.stateRevision
  present : history.getBool "withdrawn" = some false
  firstAvailable : ∃ first, history.getU64 "first_available_revision" = some first ∧
    first.toNat ≤ child.stateRevision.toNat + 1
  fromRevision : (history.getU64 "from_revision").map UInt64.toNat =
    some (child.stateRevision.toNat + 1)
  latestRetained : history.getU64 "latest_retained_revision" = some owner.stateRevision
  count : (history.getU64 "count").map UInt64.toNat =
    some (owner.stateRevision.toNat - child.stateRevision.toNat)
  noMore : history.getBool "has_more" = some false

structure EndsAt (owner : GroupStateProjection) (last : Json) : Prop where
  stateHash : commitStr "state_hash" last = some owner.stateHash
  rosterRoot : commitStr "roster_root" last = some owner.rosterRoot
  policyHash : commitStr "policy_hash" last = some owner.policyHash
  publicMetaHash : commitStr "public_meta_hash" last = some owner.publicMetaHash
  securityBinding : (last.get "commit").bind (·.get "security_binding") = some owner.securityBinding

/-- The entries are a contiguous chain of commits from the head of the child to that of the
owner. -/
structure CommitChain (child owner : GroupStateProjection) (entries : List Json) : Prop where
  length : child.stateRevision.toNat + entries.length = owner.stateRevision.toNat
  bounded : entries.length ≤ stateCommitsApplyMax
  revisions : ∀ i (h : i < entries.length),
    commitRevision entries[i] = some (child.stateRevision.toNat + 1 + i)
  linked : ∀ i (h : i < entries.length), ∃ hash,
    headBefore (commitStr "state_hash") child.stateHash entries i = some hash ∧
      commitStr "prev_state_hash" entries[i] = some hash
  ends : ∃ last, entries.getLast? = some last ∧ EndsAt owner last

variable {child owner : GroupStateProjection} {history : Json}

theorem isObject_of_getStr {value : Json} {field text : String}
    (h : value.getStr field = some text) : value.isObject = true := by
  cases value with
  | object fields => rfl
  | _ => simp [Json.getStr, Json.get] at h

/-- An entry that names a group has a commit that is an object. -/
theorem commit_of_commitStr {entry : Json} {field text : String}
    (h : commitStr field entry = some text) :
    ∃ commit, (entry.get "commit").filter Json.isObject = some commit := by
  obtain ⟨commit, hcommit, htext⟩ := Option.bind_eq_some_iff.mp h
  exact ⟨commit, by simp [hcommit, isObject_of_getStr htext]⟩

/-- One pass through the loop. -/
theorem checkCommits_cons_ok_iff {n : ℕ} {head : String} {entry : Json} {rest : List Json} :
    checkCommits owner n head (entry :: rest) = .ok () ↔
      EntryHeld owner entry ∧ commitRevision entry = some n ∧
        commitStr "prev_state_hash" entry = some head ∧ n + 1 ≠ 2 ^ 64 ∧
        ∃ hash, commitStr "state_hash" entry = some hash ∧
          checkCommits owner (n + 1) hash rest = .ok () := by
  constructor
  · intro h
    cases hcommit : (entry.get "commit").filter Json.isObject with
    | none => simp [checkCommits, hcommit] at h
    | some commit =>
        have hget : entry.get "commit" = some commit := (Option.filter_eq_some_iff.mp hcommit).1
        simp only [checkCommits, hcommit] at h
        split at h
        · cases h
        · rename_i hfields
          simp only [Bool.or_eq_true, Bool.not_eq_true', decide_eq_true_eq, not_or, ne_eq, not_not,
            Bool.not_eq_false] at hfields
          obtain ⟨⟨⟨⟨⟨hroster, hverified⟩, hgroup⟩, hrevision⟩, hprev⟩, hpresent⟩ := hfields
          cases hhash : (commit.getStr "state_hash").filter (· ≠ "") with
          | none =>
              simp only [hhash] at h
              cases h
          | some hash =>
              obtain ⟨htext, hne⟩ := Option.filter_eq_some_iff.mp hhash
              simp only [hhash] at h
              split at h
              · cases h
              · rename_i hlast
                have hstr : commitStr "state_hash" entry = some hash := by
                  simp [commitStr, hget, htext]
                refine ⟨⟨hroster, hverified, by simp [commitStr, hget, hgroup],
                  by simp [hget, hpresent], hash, hstr, by simpa using hne⟩,
                  by simp [commitRevision, hget, hrevision], by simp [commitStr, hget, hprev],
                  hlast, hash, hstr, h⟩
  · rintro ⟨hheld, hrevision, hprev, hlast, hash, hhash, hrest⟩
    obtain ⟨commit, hcommit⟩ := commit_of_commitStr hhash
    have hget : entry.get "commit" = some commit := (Option.filter_eq_some_iff.mp hcommit).1
    obtain ⟨hash', hhash', hne⟩ := hheld.hash
    obtain rfl : hash' = hash := Option.some.inj (hhash'.symm.trans hhash)
    have hgroup := hheld.groupId
    have hpresent := hheld.present
    simp only [commitStr, hget, Option.bind_some] at hgroup hpresent hprev hhash
    simp only [commitRevision, hget, Option.bind_some] at hrevision
    have hfilter : (commit.getStr "state_hash").filter (· ≠ "") = some hash' := by
      simp [hhash, hne]
    simp only [checkCommits, hcommit, hfilter]
    simp [hheld.roster, hheld.verified, hgroup, hpresent, hprev, hrevision, hrest]
    omega

theorem checkCommits_ok_iff {n : ℕ} {head : String} {entries : List Json}
    (hbound : n + entries.length < 2 ^ 64) :
    checkCommits owner n head entries = .ok () ↔
      (∀ entry ∈ entries, EntryHeld owner entry) ∧
        LinkedFrom commitRevision (commitStr "prev_state_hash") (commitStr "state_hash") n head
          entries := by
  induction entries generalizing n head with
  | nil => simp [checkCommits, LinkedFrom]
  | cons entry rest ih =>
      have hlen : n + 1 + rest.length < 2 ^ 64 := by
        simp only [List.length_cons] at hbound
        omega
      have hlast : n + 1 ≠ 2 ^ 64 := by omega
      rw [checkCommits_cons_ok_iff]
      simp only [ih hlen, LinkedFrom, List.forall_mem_cons]
      constructor
      · rintro ⟨hheld, hrevision, hprev, -, hash, hhash, hrest, hlinked⟩
        exact ⟨⟨hheld, hrest⟩, hrevision, hprev, hash, hhash, hlinked⟩
      · rintro ⟨⟨hheld, hrest⟩, hrevision, hprev, hash, hhash, hlinked⟩
        exact ⟨hheld, hrevision, hprev, hlast, hash, hhash, hrest, hlinked⟩

/-- The comparison of the last commit with the head of the owner. -/
theorem endsAt_iff {last commit : Json} (hget : last.get "commit" = some commit) :
    EndsAt owner last ↔
      ¬((commit.getStr "state_hash" ≠ some owner.stateHash ||
        commit.getStr "roster_root" ≠ some owner.rosterRoot ||
        commit.getStr "policy_hash" ≠ some owner.policyHash ||
        commit.getStr "public_meta_hash" ≠ some owner.publicMetaHash ||
        !(commit.get "security_binding" == some owner.securityBinding)) = true) := by
  simp only [Bool.or_eq_true, decide_eq_true_eq, Bool.not_eq_true', beq_eq_false_iff_ne, ne_eq,
    not_or, not_not, and_assoc]
  constructor
  · rintro ⟨hstate, hroster, hpolicy, hmeta, hbinding⟩
    simp only [commitStr, hget, Option.bind_some] at hstate hroster hpolicy hmeta hbinding
    exact ⟨hstate, hroster, hpolicy, hmeta, hbinding⟩
  · rintro ⟨hstate, hroster, hpolicy, hmeta, hbinding⟩
    exact ⟨by simp [commitStr, hget, hstate], by simp [commitStr, hget, hroster],
      by simp [commitStr, hget, hpolicy], by simp [commitStr, hget, hmeta],
      by simp [hget, hbinding]⟩

theorem responseComplete_iff :
    ResponseComplete history child owner ↔
      ¬((history.getStr "group_id" ≠ some owner.groupId ||
        history.getU64 "state_revision" ≠ some owner.stateRevision ||
        history.getBool "withdrawn" ≠ some false) = true) ∧
      ∃ first, history.getU64 "first_available_revision" = some first ∧
        ¬(((history.getU64 "from_revision").map UInt64.toNat ≠
            some (child.stateRevision.toNat + 1) ||
          child.stateRevision.toNat + 1 < first.toNat ||
          history.getU64 "latest_retained_revision" ≠ some owner.stateRevision ||
          (history.getU64 "count").map UInt64.toNat ≠
            some (owner.stateRevision.toNat - child.stateRevision.toNat) ||
          history.getBool "has_more" ≠ some false) = true) := by
  simp only [Bool.or_eq_true, decide_eq_true_eq, ne_eq, not_or, not_not, not_lt]
  constructor
  · rintro ⟨hgroup, hrevision, hpresent, ⟨first, hfirst, hle⟩, hfrom, hlatest, hcount, hmore⟩
    exact ⟨⟨⟨hgroup, hrevision⟩, hpresent⟩, first, hfirst, ⟨⟨⟨hfrom, hle⟩, hlatest⟩, hcount⟩, hmore⟩
  · rintro ⟨⟨⟨hgroup, hrevision⟩, hpresent⟩, first, hfirst,
      ⟨⟨⟨hfrom, hle⟩, hlatest⟩, hcount⟩, hmore⟩
    exact ⟨hgroup, hrevision, hpresent, ⟨first, hfirst, hle⟩, hfrom, hlatest, hcount, hmore⟩

/-- The checks in the order of the code, with the loop and the last commit still as they are. -/
theorem validateOwnerCatchupHistory_ok_iff {batch : ValidatedOwnerCatchup} :
    validateOwnerCatchupHistory history child owner = .ok batch ↔
      ResponseComplete history child owner ∧
      child.stateRevision.toNat < owner.stateRevision.toNat ∧
      history.getArray "commits" = some batch.commits ∧
      batch.commits.length = owner.stateRevision.toNat - child.stateRevision.toNat ∧
      batch.commits.length ≤ stateCommitsApplyMax ∧
      checkCommits owner (child.stateRevision.toNat + 1) child.stateHash batch.commits = .ok () ∧
      (∃ last, batch.commits.getLast? = some last ∧ EndsAt owner last) ∧
      batch.childRevision = child.stateRevision := by
  have howner := owner.stateRevision.toNat_lt
  unfold validateOwnerCatchupHistory
  simp only [throw_bind, guard_ok_iff]
  rw [responseComplete_iff]
  cases hfirst : history.getU64 "first_available_revision" with
  | none => simp [throw_ok_iff]
  | some first =>
      simp only [guard_ok_iff, Option.some.injEq, exists_eq_left']
      cases hcommits : (history.getArray "commits").filter
          (·.length == owner.stateRevision.toNat - child.stateRevision.toNat) with
      | none =>
          simp only [throw_ok_iff, and_false, false_iff]
          rintro ⟨-, -, harray, hlength, -⟩
          simp [harray, hlength] at hcommits
      | some commits =>
          obtain ⟨harray, hlength⟩ := Option.filter_eq_some_iff.mp hcommits
          rw [beq_iff_eq] at hlength
          simp only [except_bind_ok_iff, harray, Option.some.injEq]
          constructor
          · rintro ⟨hhead, -, hbehind, hmax, htail, ⟨⟩, hcheck, hlast⟩
            cases hget : commits.getLast?.bind (·.get "commit") with
            | none => simp [hget, throw_ok_iff] at hlast
            | some commit =>
                obtain ⟨last, hmem, hcommit⟩ := Option.bind_eq_some_iff.mp hget
                rw [hget] at hlast
                obtain ⟨hends, hbatch⟩ := guard_ok_iff.mp hlast
                obtain rfl := Except.ok.inj hbatch
                have hle : commits.length ≤ stateCommitsApplyMax := by omega
                refine ⟨⟨hhead, htail⟩, by omega, rfl, hlength, hle, hcheck,
                  ⟨last, hmem, (endsAt_iff hcommit).mpr hends⟩, rfl⟩
          · rintro ⟨⟨hhead, htail⟩, hbehind, rfl, -, hmax, hcheck, ⟨last, hmem, hends⟩, hrevision⟩
            obtain ⟨commit, hcommit, -⟩ := Option.bind_eq_some_iff.mp hends.stateHash
            refine ⟨hhead, by omega, by omega, by omega, htail, (), hcheck, ?_⟩
            simp only [hmem, Option.bind_some, hcommit]
            refine guard_ok_iff.mpr ⟨(endsAt_iff hcommit).mp hends, ?_⟩
            rw [← hrevision]
            rfl

theorem commitChain_iff {entries : List Json} (hheld : ∀ entry ∈ entries, EntryHeld owner entry) :
    CommitChain child owner entries ↔
      child.stateRevision.toNat + entries.length = owner.stateRevision.toNat ∧
      entries.length ≤ stateCommitsApplyMax ∧
      LinkedFrom commitRevision (commitStr "prev_state_hash") (commitStr "state_hash")
        (child.stateRevision.toNat + 1) child.stateHash entries ∧
      ∃ last, entries.getLast? = some last ∧ EndsAt owner last := by
  have hmarks : ∀ entry ∈ entries, (commitStr "state_hash" entry).isSome := by
    intro entry hentry
    obtain ⟨hash, hhash, -⟩ := (hheld entry hentry).hash
    simp [hhash]
  rw [linkedFrom_iff]
  constructor
  · rintro ⟨hlength, hmax, hrevisions, hlinked, hends⟩
    refine ⟨hlength, hmax, ⟨hmarks, hrevisions, ?_⟩, hends⟩
    intro i hi
    obtain ⟨hash, hbefore, hprev⟩ := hlinked i hi
    exact hprev.trans hbefore.symm
  · rintro ⟨hlength, hmax, ⟨-, hrevisions, hlinked⟩, hends⟩
    refine ⟨hlength, hmax, hrevisions, ?_, hends⟩
    intro i hi
    have hsome : (headBefore (commitStr "state_hash") child.stateHash entries i).isSome := by
      cases i with
      | zero => rfl
      | succ i =>
          rw [headBefore, List.getElem?_eq_getElem (by omega)]
          exact hmarks _ (List.getElem_mem _)
    obtain ⟨hash, hbefore⟩ := Option.isSome_iff_exists.mp hsome
    exact ⟨hash, hbefore, (hlinked i hi).trans hbefore⟩

theorem catchup_accepts_iff_chain (history : Json) (child owner : GroupStateProjection)
    (howner : owner.stateRevision.toNat < 2 ^ 64 - 1) (batch : ValidatedOwnerCatchup) :
    validateOwnerCatchupHistory history child owner = .ok batch ↔
      history.getArray "commits" = some batch.commits ∧
      batch.childRevision = child.stateRevision ∧
      ResponseComplete history child owner ∧
      (∀ entry ∈ batch.commits, EntryHeld owner entry) ∧
      CommitChain child owner batch.commits := by
  rw [validateOwnerCatchupHistory_ok_iff]
  constructor
  · rintro ⟨hcomplete, hbehind, harray, hlength, hmax, hcheck, hends, hrevision⟩
    obtain ⟨hheld, hlinked⟩ := (checkCommits_ok_iff (by omega)).mp hcheck
    exact ⟨harray, hrevision, hcomplete, hheld,
      (commitChain_iff hheld).mpr ⟨by omega, hmax, hlinked, hends⟩⟩
  · rintro ⟨harray, hrevision, hcomplete, hheld, hchain⟩
    obtain ⟨hlength, hmax, hlinked, hends⟩ := (commitChain_iff hheld).mp hchain
    have hpos : 0 < batch.commits.length := by
      obtain ⟨last, hmem, -⟩ := hends
      exact List.length_pos_of_mem (List.mem_of_getLast? hmem)
    exact ⟨hcomplete, by omega, harray, by omega, hmax,
      (checkCommits_ok_iff (by omega)).mpr ⟨hheld, hlinked⟩, hends, hrevision⟩

section TwoCommits

def headAt (stateHash : String) (stateRevision : UInt64) : GroupStateProjection where
  groupId := "g"
  genesis := .object []
  rosterRoot := "r"
  policyHash := "p"
  publicMetaHash := "m"
  securityBinding := .null
  withdrawn := false
  stateHash := stateHash
  stateRevision := stateRevision

def entryAt (revision : UInt64) (prevStateHash stateHash : String) : Json :=
  .object [("commit", .object [("group_id", .string "g"), ("policy_hash", .string "p"),
      ("prev_state_hash", .string prevStateHash), ("public_meta_hash", .string "m"),
      ("revision", .number (.posInt revision)), ("roster_root", .string "r"),
      ("security_binding", .null), ("state_hash", .string stateHash), ("withdrawn", .bool false)]),
    ("roster", .object []), ("roster_root_verified", .bool true)]

def twoEntries : List Json := [entryAt 2 "a" "b", entryAt 3 "b" "c"]

def twoCommits (hasMore : Bool) : Json :=
  .object [("commits", .array twoEntries), ("count", .number (.posInt 2)),
    ("first_available_revision", .number (.posInt 1)), ("from_revision", .number (.posInt 2)),
    ("group_id", .string "g"), ("has_more", .bool hasMore),
    ("latest_retained_revision", .number (.posInt 3)), ("state_revision", .number (.posInt 3)),
    ("withdrawn", .bool false)]

theorem twoEntries_chain : CommitChain (headAt "a" 1) (headAt "c" 3) twoEntries := by
  refine ⟨by decide, by decide, ?_, ?_, entryAt 3 "b" "c", rfl,
    ⟨by decide, by decide, by decide, by decide, by decide⟩⟩
  · intro i hi
    obtain rfl | rfl : i = 0 ∨ i = 1 := by
      have hlength : twoEntries.length = 2 := rfl
      omega
    · rfl
    · rfl
  · intro i hi
    obtain rfl | rfl : i = 0 ∨ i = 1 := by
      have hlength : twoEntries.length = 2 := rfl
      omega
    · exact ⟨"a", rfl, rfl⟩
    · exact ⟨"b", rfl, rfl⟩

theorem catchup_accepts_two_commits :
    validateOwnerCatchupHistory (twoCommits false) (headAt "a" 1) (headAt "c" 3) =
      .ok ⟨twoEntries, 1⟩ := by
  refine (catchup_accepts_iff_chain (twoCommits false) (headAt "a" 1) (headAt "c" 3) (by decide)
    ⟨twoEntries, 1⟩).mpr ⟨rfl, rfl, ?_, ?_, twoEntries_chain⟩
  · exact ⟨by decide, by decide, by decide, ⟨1, by decide, by decide⟩, by decide, by decide,
      by decide, by decide⟩
  · intro entry hentry
    obtain rfl | rfl : entry = entryAt 2 "a" "b" ∨ entry = entryAt 3 "b" "c" := by
      simpa [twoEntries] using hentry
    · exact ⟨by decide, by decide, by decide, by decide, "b", by decide, by decide⟩
    · exact ⟨by decide, by decide, by decide, by decide, "c", by decide, by decide⟩

/-- The chain alone is not enough: a response that says there is more is not taken. -/
theorem catchup_rejects_chain :
    ¬∀ (history : Json) (child owner : GroupStateProjection),
      owner.stateRevision.toNat < 2 ^ 64 - 1 →
      ((∃ batch, validateOwnerCatchupHistory history child owner = .ok batch) ↔
        ∃ entries, history.getArray "commits" = some entries ∧
          CommitChain child owner entries) := by
  intro h
  obtain ⟨batch, hbatch⟩ := (h (twoCommits true) (headAt "a" 1) (headAt "c" 3) (by decide)).mpr
    ⟨twoEntries, rfl, twoEntries_chain⟩
  have hcomplete := (validateOwnerCatchupHistory_ok_iff.mp hbatch).1
  exact absurd hcomplete.noMore (by decide)

end TwoCommits

end Commits

section Rosters

variable {agentId groupId : String}

/-- The entries of an agent in the order of the roster. -/
def entriesOf (agentId : String) (members : List Json) : List Json :=
  members.filter fun member => member.getStr "agent_id" == some agentId

def isActiveEntry (member : Json) : Bool :=
  member.getStr "state" == some "active"

/-- The last entry decides, and one with no entry keeps the state it had. -/
theorem existingMemberState_ok {childState answer : Option String} {members : List Json}
    (h : existingMemberState groupId agentId childState members = .ok answer) :
    (∀ member ∈ members, (member.getStr "state").isSome) ∧
      answer = ((entriesOf agentId members).getLast?.bind (·.getStr "state")).or childState := by
  induction members generalizing childState with
  | nil =>
      obtain rfl := Except.ok.inj h
      exact ⟨by simp, by simp [entriesOf]⟩
  | cons member rest ih =>
      simp only [existingMemberState] at h
      cases hid : member.getStr "agent_id" with
      | none => simp [hid] at h
      | some id =>
          cases hstate : member.getStr "state" with
          | none => simp [hid, hstate] at h
          | some state =>
              simp only [hid, hstate] at h
              obtain ⟨hreadable, hanswer⟩ := ih h
              refine ⟨List.forall_mem_cons.mpr ⟨by simp [hstate], hreadable⟩, ?_⟩
              by_cases hmatch : id = agentId
              · have hentries : entriesOf agentId (member :: rest) =
                    member :: entriesOf agentId rest := by
                  simp [entriesOf, hid, hmatch]
                rw [hanswer, hentries, if_pos hmatch]
                cases hlast : (entriesOf agentId rest).getLast? with
                | none => simp [List.getLast?_eq_none_iff.mp hlast, hstate]
                | some last =>
                    have hmem : last ∈ rest :=
                      List.mem_of_mem_filter (List.mem_of_getLast? hlast)
                    obtain ⟨text, htext⟩ := Option.isSome_iff_exists.mp (hreadable last hmem)
                    simp [List.getLast?_cons, hlast, htext]
              · have hentries : entriesOf agentId (member :: rest) = entriesOf agentId rest := by
                  simp [entriesOf, hid, hmatch]
                rw [hanswer, hentries, if_neg hmatch]

theorem ownerGroupHasExistingActiveMember_ok {group : Json} {answer : Bool}
    (h : ownerGroupHasExistingActiveMember group groupId agentId = .ok answer) :
    ∃ members, group.getArray "members" = some members ∧
      answer = (entriesOf agentId members).getLast?.any isActiveEntry := by
  obtain ⟨-, -, h⟩ := except_bind_ok h
  cases hmembers : group.getArray "members" with
  | none => simp [hmembers, throw_ok_iff] at h
  | some members =>
      simp only [hmembers] at h
      obtain ⟨state, hstate, hanswer⟩ := except_bind_ok h
      refine ⟨members, rfl, ?_⟩
      rw [← Except.ok.inj hanswer, (existingMemberState_ok hstate).2]
      cases (entriesOf agentId members).getLast? with
      | none => rfl
      | some last => simp [isActiveEntry]

/-- The first entry decides. -/
theorem groupMemberState_active_iff {group : Json} {members : List Json}
    (hmembers : group.getArray "members" = some members) :
    groupMemberState group agentId = .active ↔
      (entriesOf agentId members).head?.any isActiveEntry = true := by
  simp only [groupMemberState, hmembers, Option.bind_some, entriesOf, List.head?_filter]
  cases members.find? fun member => member.getStr "agent_id" == some agentId with
  | none => simp
  | some member =>
      simp only [Option.bind_some, Option.any_some, isActiveEntry, beq_iff_eq]
      split <;> simp_all

theorem roster_readings_agree_iff (group : Json) (groupId agentId : String) (answer : Bool)
    (h : ownerGroupHasExistingActiveMember group groupId agentId = .ok answer) :
    (answer = true ↔ groupMemberState group agentId = .active) ↔
      ∃ members, group.getArray "members" = some members ∧
        (entriesOf agentId members).head?.any isActiveEntry =
          (entriesOf agentId members).getLast?.any isActiveEntry := by
  obtain ⟨members, hmembers, rfl⟩ := ownerGroupHasExistingActiveMember_ok h
  rw [groupMemberState_active_iff hmembers, ← Bool.eq_iff_iff]
  simp [hmembers, eq_comm]

def rosterOf (states : List String) : Json :=
  .object [("members", .array (states.map fun state =>
      .object [("agent_id", .string "a"), ("state", .string state)])),
    ("policy", .object [("confidentiality", .string "signed_public")])]

theorem single_entry_readings_agree :
    groupMemberState (rosterOf ["active"]) "a" = .active :=
  ((roster_readings_agree_iff (rosterOf ["active"]) "g" "a" true rfl).mpr ⟨_, rfl, rfl⟩).mp rfl

/-- Active and then banned: only one of the readings looks at the second entry. -/
theorem repeated_entry_readings_differ :
    ¬∀ (group : Json) (groupId agentId : String) (answer : Bool),
      ownerGroupHasExistingActiveMember group groupId agentId = .ok answer →
      (answer = true ↔ groupMemberState group agentId = .active) := by
  intro h
  have hactive : groupMemberState (rosterOf ["active", "banned"]) "a" = .active := rfl
  have hanswer := (h (rosterOf ["active", "banned"]) "g" "a" false rfl).mpr hactive
  cases hanswer

end Rosters
end Buzz.ManagedAgents
