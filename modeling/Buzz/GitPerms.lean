import Buzz.ExceptRules

/-!
# Git push permissions

Who may push to which ref. The role of the channel is the role of the repository; a
`buzz-protect` tag adds a rule for the refs that match its pattern, and the rules of all matching
patterns are united. Without a matching rule the built-in default decides.

An update is allowed exactly when its role meets the default and every matching rule permits the
update on its own (`evaluateRefUpdate_ok_iff`), so the order of the rules does not matter and one
more rule can only tighten.
-/

namespace Buzz.Git

inductive MemberRole where
  | owner
  | admin
  | member
  | guest
  | bot
  deriving DecidableEq, Repr

namespace MemberRole

def asStr : MemberRole → String
  | owner => "owner"
  | admin => "admin"
  | member => "member"
  | guest => "guest"
  | bot => "bot"

/-- A bot is outside the hierarchy. -/
def permissionLevel : MemberRole → ℕ
  | owner => 4
  | admin => 3
  | member => 2
  | guest => 1
  | bot => 0

def hasAtLeast (role required : MemberRole) : Bool :=
  required.permissionLevel ≤ role.permissionLevel

end MemberRole

section Patterns

inductive PatternSegment where
  | literal (text : String)
  | wildcard
  | recursiveWildcard
  deriving DecidableEq, Repr

inductive PatternError where
  | empty
  | tooLong
  | missingRefsPrefix
  | invalidSegment (segment : String)
  | tooManyWildcards
  deriving DecidableEq, Repr

def maxPatternLength : ℕ := 256

def maxWildcardsPerPattern : ℕ := 3

/-- A validated pattern: `**` stands at the end only. -/
structure RefPattern where
  raw : String
  segments : List PatternSegment
  recursive_last : PatternSegment.recursiveWildcard ∉ segments.dropLast
  deriving DecidableEq

def splitSlash (s : String) : List String :=
  (s.toList.splitOn '/').map String.ofList

def isLiteralChar (c : Char) : Bool :=
  c.isAlphanum || c == '.' || c == '_' || c == '-'

/-- The segments from here on, after so many wildcards. -/
def parseSegments (wildcards : ℕ) : List String → Except PatternError (List PatternSegment)
  | [] => .ok []
  | part :: rest =>
      if part = "**" then
        if rest ≠ [] then .error (.invalidSegment "** must be the last segment")
        else if maxWildcardsPerPattern < wildcards + 1 then .error .tooManyWildcards
        else .ok [.recursiveWildcard]
      else if part = "*" then
        if maxWildcardsPerPattern < wildcards + 1 then .error .tooManyWildcards
        else (parseSegments (wildcards + 1) rest).map (.wildcard :: ·)
      else if part = "" then .error (.invalidSegment "")
      -- a partial glob
      else if part.toList.any (fun c => c == '*' || c == '?' || c == '[' || c == ']') then
        .error (.invalidSegment part)
      else if part.toList.all isLiteralChar then
        (parseSegments wildcards rest).map (.literal part :: ·)
      else .error (.invalidSegment part)

theorem not_mem_dropLast_cons {α : Type} {a b : α} {rest : List α} (hne : b ≠ a)
    (h : a ∉ rest.dropLast) : a ∉ (b :: rest).dropLast := by
  cases rest with
  | nil => simp
  | cons c rest =>
      rw [List.dropLast_cons_cons, List.mem_cons, not_or]
      exact ⟨hne.symm, h⟩

theorem parseSegments_recursive_last (parts : List String) :
    ∀ {wildcards : ℕ} {segments : List PatternSegment},
      parseSegments wildcards parts = .ok segments →
        PatternSegment.recursiveWildcard ∉ segments.dropLast := by
  induction parts with
  | nil =>
      intro wildcards segments h
      cases h
      simp
  | cons part rest ih =>
      intro wildcards segments h
      unfold parseSegments at h
      split_ifs at h
      · cases h
        simp
      · obtain ⟨tail, htail, rfl⟩ := except_map_ok h
        exact not_mem_dropLast_cons (by simp) (ih htail)
      · obtain ⟨tail, htail, rfl⟩ := except_map_ok h
        exact not_mem_dropLast_cons (by simp) (ih htail)

namespace RefPattern

def parse (pattern : String) : Except PatternError RefPattern :=
  if pattern = "" then .error .empty
  else if maxPatternLength < pattern.utf8ByteSize then .error .tooLong
  else if pattern.startsWith "refs/" = false then .error .missingRefsPrefix
  else
    match h : parseSegments 0 (splitSlash pattern) with
    | .error e => .error e
    | .ok segments => .ok ⟨pattern, segments, parseSegments_recursive_last _ h⟩

/-- The segments pair up; `**` is met here in no validated pattern. -/
def segmentsMatch (segments : List PatternSegment) (refSegments : List String) : Bool :=
  (segments.zip refSegments).all fun (segment, part) =>
    match segment with
    | .wildcard => true
    | .literal text => text == part
    | .recursiveWildcard => false

/-- `matches` of the source. -/
def matchesRef (pattern : RefPattern) (refName : String) : Bool :=
  let refSegments := splitSlash refName
  if pattern.segments.getLast? = some .recursiveWildcard then
    let fixed := pattern.segments.length - 1
    if refSegments.length ≤ fixed then false
    else segmentsMatch (pattern.segments.take fixed) (refSegments.take fixed)
  else if refSegments.length ≠ pattern.segments.length then false
  else segmentsMatch pattern.segments refSegments

end RefPattern

end Patterns

section Rules

inductive UpdateKind where
  | create
  | fastForward
  | nonFastForward
  | delete
  deriving DecidableEq, Repr

structure RefUpdate where
  refName : String
  kind : UpdateKind
  oldOid : String
  newOid : String
  deriving DecidableEq, Repr

structure ProtectionRule where
  pattern : RefPattern
  pushRole : Option MemberRole
  noForcePush : Bool
  noDelete : Bool
  requirePatch : Bool
  deriving DecidableEq

def defaultMinRole (refName : String) (kind : UpdateKind) : MemberRole :=
  let isBranch := refName.startsWith "refs/heads/"
  let isTag := refName.startsWith "refs/tags/"
  match kind with
  | .create => if isBranch || isTag then .member else .admin
  -- moving a tag is an overwrite
  | .fastForward => if isBranch then .member else .admin
  | .nonFastForward => .admin
  | .delete => .admin

/-- The constraints on a ref, all matching rules united. -/
structure EffectiveRules where
  pushRole : Option MemberRole
  noForcePush : Bool
  noDelete : Bool
  requirePatch : Bool
  hasExplicitMatch : Bool
  deriving DecidableEq, Repr

/-- The stricter of the roles asked for so far and one more. -/
def strictest (existing : Option MemberRole) (role : MemberRole) : MemberRole :=
  match existing with
  | none => role
  | some existing =>
      if existing.permissionLevel < role.permissionLevel then role else existing

namespace EffectiveRules

def none : EffectiveRules := ⟨Option.none, false, false, false, false⟩

/-- One round of the loop over the rules. -/
def add (refName : String) (effective : EffectiveRules) (rule : ProtectionRule) : EffectiveRules :=
  if rule.pattern.matchesRef refName then
    { pushRole :=
        match rule.pushRole with
        | Option.none => effective.pushRole
        | some role => some (strictest effective.pushRole role)
      noForcePush := effective.noForcePush || rule.noForcePush
      noDelete := effective.noDelete || rule.noDelete
      requirePatch := effective.requirePatch || rule.requirePatch
      hasExplicitMatch := true }
  else effective

def forRef (refName : String) (rules : List ProtectionRule) : EffectiveRules :=
  rules.foldl (add refName) none

end EffectiveRules

structure Denial where
  refName : String
  reason : String
  deriving DecidableEq, Repr

/-- The role that the explicit rules ask for, never below the default. -/
def requiredRole (effective : EffectiveRules) (defaultRole : MemberRole) : MemberRole :=
  match effective.pushRole with
  | some explicit =>
      if defaultRole.permissionLevel ≤ explicit.permissionLevel then explicit else defaultRole
  | none => defaultRole

def evaluateRefUpdate (update : RefUpdate) (role : MemberRole) (rules : List ProtectionRule) :
    Except Denial Unit :=
  let effective := EffectiveRules.forRef update.refName rules
  let defaultRole := defaultMinRole update.refName update.kind
  let minRole := requiredRole effective defaultRole
  if effective.hasExplicitMatch = false then
    if role.hasAtLeast defaultRole = false then
      .error ⟨update.refName, "requires " ++ defaultRole.asStr ++ " role (you have " ++
        role.asStr ++
        "), using built-in defaults"⟩
    else .ok ()
  else if effective.requirePatch then
    .error ⟨update.refName, "direct push denied: require-patch is set, submit a NIP-34 patch"⟩
  else if role.hasAtLeast minRole = false then
    .error ⟨update.refName, "requires " ++ minRole.asStr ++ " role (you have " ++ role.asStr ++ ")"⟩
  else if effective.noForcePush ∧ update.kind = .nonFastForward then
    .error ⟨update.refName, "non-fast-forward update denied: no-force-push is set"⟩
  else if effective.noDelete ∧ update.kind = .delete then
    .error ⟨update.refName, "ref deletion denied: no-delete is set"⟩
  else .ok ()

/-- The denial of an update. -/
def denial? (update : RefUpdate) (role : MemberRole) (rules : List ProtectionRule) :
    Option Denial :=
  match evaluateRefUpdate update role rules with
  | .error denial => some denial
  | .ok () => none

def evaluatePush (updates : List RefUpdate) (role : MemberRole) (rules : List ProtectionRule) :
    Except (List Denial) Unit :=
  let denials := updates.filterMap fun update => denial? update role rules
  if denials = [] then .ok () else .error denials

end Rules

section Evaluation

variable {update : RefUpdate} {role : MemberRole} {rules : List ProtectionRule}

/-- What the constraints say about an update, the default apart. -/
structure Permits (pushRole : Option MemberRole) (noForcePush noDelete requirePatch : Bool)
    (update : RefUpdate) (role : MemberRole) : Prop where
  patch : requirePatch = false
  push : ∀ required, pushRole = some required → role.hasAtLeast required = true
  force : noForcePush = true → update.kind ≠ .nonFastForward
  keep : noDelete = true → update.kind ≠ .delete

def EffectiveRules.Permits (effective : EffectiveRules) (update : RefUpdate) (role : MemberRole) :
    Prop :=
  Git.Permits effective.pushRole effective.noForcePush effective.noDelete effective.requirePatch
    update role

/-- A rule says nothing about the refs it does not match. -/
def ProtectionRule.Permits (rule : ProtectionRule) (update : RefUpdate) (role : MemberRole) :
    Prop :=
  rule.pattern.matchesRef update.refName = true →
    Git.Permits rule.pushRole rule.noForcePush rule.noDelete rule.requirePatch update role

theorem hasAtLeast_strictest (existing : Option MemberRole) (added : MemberRole) :
    role.hasAtLeast (strictest existing added) = true ↔
      (∀ required, existing = some required → role.hasAtLeast required = true) ∧
        role.hasAtLeast added = true := by
  cases existing with
  | none => simp [strictest]
  | some existing =>
      simp only [strictest, Option.some.injEq, forall_eq']
      split_ifs with hlt
      · simp only [MemberRole.hasAtLeast, decide_eq_true_eq]
        omega
      · simp only [MemberRole.hasAtLeast, decide_eq_true_eq]
        omega

theorem EffectiveRules.add_permits (effective : EffectiveRules) (rule : ProtectionRule) :
    (effective.add update.refName rule).Permits update role ↔
      effective.Permits update role ∧ rule.Permits update role := by
  unfold EffectiveRules.add ProtectionRule.Permits
  by_cases hmatch : rule.pattern.matchesRef update.refName = true
  · simp only [hmatch, if_true, forall_const]
    have hpush : (∀ required, (match rule.pushRole with
        | Option.none => effective.pushRole
        | some role => some (strictest effective.pushRole role)) = some required →
          role.hasAtLeast required = true) ↔
        (∀ required, effective.pushRole = some required → role.hasAtLeast required = true) ∧
          ∀ required, rule.pushRole = some required → role.hasAtLeast required = true := by
      cases rule.pushRole with
      | none => simp
      | some added =>
          simp only [Option.some.injEq, forall_eq']
          exact hasAtLeast_strictest effective.pushRole added
    constructor
    · rintro ⟨hpatch, hrole, hforce, hkeep⟩
      obtain ⟨hold, hnew⟩ := hpush.mp hrole
      simp only [Bool.or_eq_false_iff, Bool.or_eq_true] at hpatch hforce hkeep
      exact ⟨⟨hpatch.1, hold, fun h => hforce (Or.inl h), fun h => hkeep (Or.inl h)⟩,
        ⟨hpatch.2, hnew, fun h => hforce (Or.inr h), fun h => hkeep (Or.inr h)⟩⟩
    · rintro ⟨hold, hnew⟩
      refine ⟨?_, hpush.mpr ⟨hold.push, hnew.push⟩, ?_, ?_⟩
      · simp [hold.patch, hnew.patch]
      · exact fun h => (Bool.or_eq_true _ _ ▸ h).elim hold.force hnew.force
      · exact fun h => (Bool.or_eq_true _ _ ▸ h).elim hold.keep hnew.keep
  · simp [hmatch]

theorem EffectiveRules.foldl_permits (rules : List ProtectionRule) :
    ∀ effective : EffectiveRules,
      (rules.foldl (EffectiveRules.add update.refName) effective).Permits update role ↔
        effective.Permits update role ∧ ∀ rule ∈ rules, rule.Permits update role := by
  induction rules with
  | nil => simp
  | cons rule rest ih =>
      intro effective
      rw [List.foldl_cons, ih, add_permits, List.forall_mem_cons, and_assoc]

theorem EffectiveRules.none_permits : EffectiveRules.none.Permits update role :=
  ⟨rfl, fun _ h => (nomatch h), fun h => (nomatch h), fun h => (nomatch h)⟩

theorem EffectiveRules.forRef_permits :
    (EffectiveRules.forRef update.refName rules).Permits update role ↔
      ∀ rule ∈ rules, rule.Permits update role := by
  rw [forRef, foldl_permits]
  exact and_iff_right none_permits

/-- Once a rule has matched, the loop does not forget it. -/
theorem EffectiveRules.foldl_hasExplicitMatch {refName : String} (rules : List ProtectionRule) :
    ∀ {effective : EffectiveRules}, effective.hasExplicitMatch = true →
      (rules.foldl (EffectiveRules.add refName) effective).hasExplicitMatch = true := by
  induction rules with
  | nil => exact fun h => h
  | cons rule rest ih =>
      intro effective h
      apply ih
      unfold EffectiveRules.add
      split_ifs
      · rfl
      · exact h

theorem EffectiveRules.forRef_eq_none {refName : String} {rules : List ProtectionRule}
    (h : (EffectiveRules.forRef refName rules).hasExplicitMatch = false) :
    EffectiveRules.forRef refName rules = EffectiveRules.none := by
  unfold EffectiveRules.forRef at h ⊢
  induction rules with
  | nil => rfl
  | cons rule rest ih =>
      rw [List.foldl_cons] at h ⊢
      by_cases hmatch : rule.pattern.matchesRef refName = true
      · have hadded : (EffectiveRules.none.add refName rule).hasExplicitMatch = true := by
          simp [add, hmatch]
        rw [EffectiveRules.foldl_hasExplicitMatch rest hadded] at h
        cases h
      · have hskip : EffectiveRules.none.add refName rule = EffectiveRules.none := by
          simp [add, hmatch]
        rw [hskip] at h ⊢
        exact ih h

theorem hasAtLeast_requiredRole (role : MemberRole) (effective : EffectiveRules)
    (defaultRole : MemberRole) :
    role.hasAtLeast (requiredRole effective defaultRole) = true ↔
      role.hasAtLeast defaultRole = true ∧
        ∀ required, effective.pushRole = some required → role.hasAtLeast required = true := by
  unfold requiredRole
  cases effective.pushRole with
  | none => simp
  | some explicit =>
      simp only [MemberRole.hasAtLeast, decide_eq_true_eq, Option.some.injEq, forall_eq']
      split_ifs <;> omega

theorem evaluateRefUpdate_ok_iff :
    evaluateRefUpdate update role rules = .ok () ↔
      role.hasAtLeast (defaultMinRole update.refName update.kind) = true ∧
        ∀ rule ∈ rules, rule.Permits update role := by
  rw [← EffectiveRules.forRef_permits]
  have hrequired := hasAtLeast_requiredRole role
    (EffectiveRules.forRef update.refName rules) (defaultMinRole update.refName update.kind)
  simp only [evaluateRefUpdate]
  split_ifs with hexplicit hdefault hpatch hrole hforce hkeep
  · simp [hdefault]
  · rw [EffectiveRules.forRef_eq_none hexplicit]
    simpa [EffectiveRules.none_permits] using hdefault
  · exact iff_of_false (fun h => nomatch h) fun h => by simp [h.2.patch] at hpatch
  · refine iff_of_false (fun h => nomatch h) fun h => ?_
    rw [hrequired.mpr ⟨h.1, h.2.push⟩] at hrole
    cases hrole
  · exact iff_of_false (fun h => nomatch h) fun h => h.2.force hforce.1 hforce.2
  · exact iff_of_false (fun h => nomatch h) fun h => h.2.keep hkeep.1 hkeep.2
  · refine iff_of_true rfl ?_
    obtain ⟨hmin, hpush⟩ := hrequired.mp (Bool.eq_true_of_not_eq_false hrole)
    exact ⟨hmin, Bool.eq_false_of_not_eq_true hpatch, hpush, fun h hkind => hforce ⟨h, hkind⟩,
      fun h hkind => hkeep ⟨h, hkind⟩⟩

theorem MemberRole.hasAtLeast_mono {higher required : MemberRole}
    (h : role.hasAtLeast required = true) (hle : role.permissionLevel ≤ higher.permissionLevel) :
    higher.hasAtLeast required = true := by
  simp only [MemberRole.hasAtLeast, decide_eq_true_eq] at h ⊢
  omega

theorem ProtectionRule.Permits.mono {rule : ProtectionRule} {higher : MemberRole}
    (h : rule.Permits update role) (hle : role.permissionLevel ≤ higher.permissionLevel) :
    rule.Permits update higher := by
  intro hmatch
  obtain ⟨hpatch, hpush, hforce, hkeep⟩ := h hmatch
  exact ⟨hpatch, fun required hrequired => MemberRole.hasAtLeast_mono (hpush required hrequired)
    hle, hforce, hkeep⟩

theorem evaluatePush_ok_iff (updates : List RefUpdate) (role : MemberRole)
    (rules : List ProtectionRule) :
    evaluatePush updates role rules = .ok () ↔
      ∀ update ∈ updates, evaluateRefUpdate update role rules = .ok () := by
  have hdenial : ∀ update : RefUpdate, denial? update role rules = none ↔
      evaluateRefUpdate update role rules = .ok () := by
    intro update
    unfold denial?
    cases evaluateRefUpdate update role rules <;> simp
  simp only [evaluatePush, List.filterMap_eq_nil_iff, hdenial]
  split_ifs with h
  · exact iff_of_true rfl h
  · exact iff_of_false (fun h => nomatch h) h

/-- One more rule, in whatever place, never lets an update through. -/
theorem push_policy_tightens {larger : List ProtectionRule} {extra : ProtectionRule}
    (hlarger : larger.Perm (extra :: rules))
    (hallowed : evaluateRefUpdate update role larger = .ok ()) :
    evaluateRefUpdate update role rules = .ok () ∧
      evaluateRefUpdate update role [] = .ok () ∧
      (∀ higher : MemberRole, role.permissionLevel ≤ higher.permissionLevel →
        evaluateRefUpdate update higher larger = .ok ()) ∧
      ∀ (updates : List RefUpdate) (pusher : MemberRole) (protection : List ProtectionRule),
        evaluatePush updates pusher protection = .ok () ↔
          ∀ single ∈ updates, evaluateRefUpdate single pusher protection = .ok () := by
  obtain ⟨hdefault, hpermits⟩ := evaluateRefUpdate_ok_iff.mp hallowed
  refine ⟨?_, ?_, ?_, evaluatePush_ok_iff⟩
  · apply evaluateRefUpdate_ok_iff.mpr
    exact ⟨hdefault, fun rule hrule =>
      hpermits rule (hlarger.mem_iff.mpr (List.mem_cons_of_mem _ hrule))⟩
  · apply evaluateRefUpdate_ok_iff.mpr
    exact ⟨hdefault, fun rule hrule => nomatch hrule⟩
  · intro higher hle
    apply evaluateRefUpdate_ok_iff.mpr
    exact ⟨MemberRole.hasAtLeast_mono hdefault hle, fun rule hrule =>
      (hpermits rule hrule).mono hle⟩

def branches : RefPattern :=
  ⟨"refs/heads/*", [.literal "refs", .literal "heads", .wildcard], by decide⟩

/-- A member may push to a branch under two rules. A guest may not under the defaults, so not under
the rules either. -/
theorem push_policy_tightens_branch :
    let rule : ProtectionRule := ⟨branches, some .member, false, false, false⟩
    let extra : ProtectionRule := ⟨branches, none, true, true, false⟩
    let update : RefUpdate := ⟨"refs/heads/main", .fastForward, "1", "2"⟩
    evaluateRefUpdate update .member [rule, extra] = .ok () ∧
      evaluateRefUpdate update .member [rule] = .ok () ∧
      evaluateRefUpdate update .guest [] ≠ .ok () ∧
      evaluateRefUpdate update .guest [rule, extra] ≠ .ok () := by
  have hallowed : evaluateRefUpdate ⟨"refs/heads/main", .fastForward, "1", "2"⟩ .member
      [⟨branches, some .member, false, false, false⟩, ⟨branches, none, true, true, false⟩] =
        .ok () := by
    decide +kernel
  have hdenied : evaluateRefUpdate ⟨"refs/heads/main", .fastForward, "1", "2"⟩ .guest [] ≠
      .ok () := by
    decide +kernel
  exact ⟨hallowed, (push_policy_tightens (List.Perm.swap _ _ _) hallowed).1, hdenied,
    fun hguest => hdenied (push_policy_tightens (List.Perm.swap _ _ _) hguest).2.1⟩

end Evaluation

end Buzz.Git
