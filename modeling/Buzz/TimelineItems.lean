import Buzz.NativeMessages
import Buzz.ThreadPanel

/-!
# The rows of the timeline

Membership changes are grouped from the newest entry backwards, and the rows are then emitted
forwards. Both come to the same partition of the entries, of which older entries change the oldest
part at most. A row has the key of its newest entry, which a sender chooses in part, and the
dividers have keys of the same kind.
-/

namespace Buzz.Thread

section Code

/-- What the runtime knows of dates and cases: the local year, month and day of a time in seconds,
the time of the midnight of a day, and the lower case of a text. -/
structure Runtime where
  localDate : ℤ → Option (ℤ × ℕ × ℕ)
  midnight : ℤ × ℕ × ℕ → Option ℤ
  toLowerCase : String → String

variable (runtime : Runtime)

def isSameDay (a b : ℤ) : Bool :=
  match runtime.localDate a, runtime.localDate b with
  | some first, some second => first == second
  | _, _ => false

def startOfLocalDaySeconds (unixSeconds : ℤ) : Option ℤ :=
  (runtime.localDate unixSeconds).bind runtime.midnight

structure DayGroupBoundary where
  key : String
  startIndex : ℕ
  count : ℕ
  headingTimestamp : ℤ

/-- A number in a template, or `NaN`. -/
def numberText : Option ℤ → String
  | some value => toString value
  | none => "NaN"

def dayKey (createdAt : ℤ) : String :=
  "day-" ++ numberText (startOfLocalDaySeconds runtime createdAt)

/-- The boundaries before a message, and the message before it. -/
structure BoundaryState where
  boundaries : List DayGroupBoundary
  previous : Option TimelineMessage
  index : ℕ

def BoundaryState.push (state : BoundaryState) (message : TimelineMessage) : BoundaryState where
  boundaries :=
    if state.previous.any fun previous =>
        isSameDay runtime previous.createdAt message.createdAt then
      state.boundaries.modify (state.boundaries.length - 1) fun boundary =>
        { boundary with count := boundary.count + 1 }
    else state.boundaries ++ [⟨dayKey runtime message.createdAt, state.index, 1, message.createdAt⟩]
  previous := some message
  index := state.index + 1

def buildDayGroupBoundaries (messages : List TimelineMessage) : List DayGroupBoundary :=
  (messages.foldl (BoundaryState.push runtime) ⟨[], none, 0⟩).boundaries

inductive TimelineItem where
  | dayDivider (key : String) (headingTimestamp : ℤ)
  | unreadDivider (key : String)
  | system (key : String) (entry : MainTimelineEntry)
  | systemGroup (key : String) (entries : List MainTimelineEntry)
  | message (key : String) (entry : MainTimelineEntry)
      (isContinuation isFollowedByContinuation : Bool)
  deriving DecidableEq, Repr

def getTimelineItemKey : TimelineItem → String
  | .dayDivider key _ => key
  | .unreadDivider key => key
  | .system key _ => key
  | .systemGroup key _ => key
  | .message key _ _ _ => key

def entryRenderKey (entry : MainTimelineEntry) : String :=
  entry.message.renderKey.getD entry.message.id

def membershipGroupWindowSeconds : ℤ := 5 * 60

def messageGroupingWindowSeconds : ℤ := 10 * 60

def kindSystemMessage : ℕ := 40099

inductive MembershipMode where
  | added
  | joined
  deriving DecidableEq

structure MembershipChangePayload where
  actor : Option String
  mode : MembershipMode
  target : String

def membershipChangeOf (members : List (String × JsonText.Value)) :
    Option MembershipChangePayload :=
  match Messages.property members "type", Messages.property members "actor",
      Messages.property members "target" with
  | some (.string "member_joined"), some (.string actor), some (.string target) =>
      let actor := runtime.toLowerCase (WebText.trim actor)
      let target := runtime.toLowerCase (WebText.trim target)
      if actor = "" ∨ target = "" then none
      else if actor = target then some ⟨none, .joined, target⟩
      else some ⟨some actor, .added, target⟩
  | _, _, _ => none

def parseMembershipChangePayload (entry : MainTimelineEntry) : Option MembershipChangePayload :=
  if entry.message.kind ≠ some kindSystemMessage then none
  else
    match WebText.parseJson entry.message.body with
    | some (.object members) => membershipChangeOf runtime members
    | _ => none

def membershipChangesCanGroup (first second : MembershipChangePayload) : Bool :=
  first.mode == second.mode && (first.mode == .joined || first.actor == second.actor)

/-- The candidate is in the group of the newest entry. -/
def joinsGroup (newestEntry : MainTimelineEntry) (newestPayload : MembershipChangePayload)
    (candidate : MainTimelineEntry) : Bool :=
  match parseMembershipChangePayload runtime candidate with
  | none => false
  | some candidatePayload =>
      membershipChangesCanGroup candidatePayload newestPayload &&
        !decide (newestEntry.message.createdAt < candidate.message.createdAt) &&
        !decide (newestEntry.message.createdAt - candidate.message.createdAt >
          membershipGroupWindowSeconds)

/-- The first index of the group, from `start` down. -/
def groupStart (entries : List MainTimelineEntry) (barrierIndexes : Finset ℕ)
    (newestEntry : MainTimelineEntry) (newestPayload : MembershipChangePayload) : ℕ → ℕ
  | 0 => 0
  | start + 1 =>
      match entries[start]? with
      | none => start + 1
      | some candidate =>
          if start + 1 ∈ barrierIndexes ∨ ¬joinsGroup runtime newestEntry newestPayload candidate
          then start + 1
          else groupStart entries barrierIndexes newestEntry newestPayload start

theorem groupStart_le {runtime : Runtime} {entries : List MainTimelineEntry}
    {barrierIndexes : Finset ℕ} {newestEntry : MainTimelineEntry}
    {newestPayload : MembershipChangePayload} (last : ℕ) :
    groupStart runtime entries barrierIndexes newestEntry newestPayload last ≤ last := by
  induction last with
  | zero => exact le_rfl
  | succ start ih =>
      unfold groupStart
      split
      · exact le_rfl
      · split_ifs
        · exact le_rfl
        · omega

def slice (entries : List MainTimelineEntry) (start stop : ℕ) : List MainTimelineEntry :=
  (entries.take stop).drop start

/-- The groups of the entries before an index, beside those already found. -/
def membershipGroupsBefore (entries : List MainTimelineEntry) (barrierIndexes : Finset ℕ) :
    ℕ → EntryMap ℕ (List MainTimelineEntry) → EntryMap ℕ (List MainTimelineEntry)
  | 0, groups => groups
  | last + 1, groups =>
      match entries[last]? with
      | none => membershipGroupsBefore entries barrierIndexes last groups
      | some newestEntry =>
          match parseMembershipChangePayload runtime newestEntry with
          | none => membershipGroupsBefore entries barrierIndexes last groups
          | some newestPayload =>
              membershipGroupsBefore entries barrierIndexes
                (groupStart runtime entries barrierIndexes newestEntry newestPayload last)
                (if groupStart runtime entries barrierIndexes newestEntry newestPayload last < last
                then groups.set
                  (groupStart runtime entries barrierIndexes newestEntry newestPayload last)
                  (slice entries
                    (groupStart runtime entries barrierIndexes newestEntry newestPayload last)
                    (last + 1))
                else groups)
  termination_by last => last
  decreasing_by
    · exact Nat.lt_succ_self _
    · exact Nat.lt_succ_self _
    · exact Nat.lt_succ_of_le (groupStart_le _)

def buildMembershipGroups (entries : List MainTimelineEntry) (barrierIndexes : Finset ℕ) :
    EntryMap ℕ (List MainTimelineEntry) :=
  membershipGroupsBefore runtime entries barrierIndexes entries.length .empty

def hasSameMessageAuthor (previous current : TimelineMessage) : Bool :=
  match previous.pubkey, current.pubkey with
  | some previousPubkey, some currentPubkey =>
      let previousPubkey := runtime.toLowerCase (WebText.trim previousPubkey)
      let currentPubkey := runtime.toLowerCase (WebText.trim currentPubkey)
      previousPubkey != "" && currentPubkey != "" && previousPubkey == currentPubkey
  | _, _ => false

def isWithinGroupingWindow (previousCreatedAt currentCreatedAt : ℤ) : Bool :=
  0 ≤ currentCreatedAt - previousCreatedAt &&
    currentCreatedAt - previousCreatedAt ≤ messageGroupingWindowSeconds

def shouldRenderUnreadDivider (index : ℕ) (messageId : String)
    (firstUnreadMessageId : Option String) : Bool :=
  0 < index && some messageId == firstUnreadMessageId

structure WalkState where
  items : List TimelineItem
  previousGroupEntry : Option MainTimelineEntry
  previousMessageItemIndex : Option ℕ

/-- A divider is emitted and the run of messages ends. -/
def WalkState.pushDivider (state : WalkState) (item : TimelineItem) : WalkState :=
  ⟨state.items ++ [item], none, none⟩

def WalkState.pushMessage (state : WalkState) (entry : MainTimelineEntry) : WalkState :=
  let isContinuation := state.previousGroupEntry.any fun previous =>
    hasSameMessageAuthor runtime previous.message entry.message &&
      isWithinGroupingWindow previous.message.createdAt entry.message.createdAt
  let items :=
    match state.previousMessageItemIndex with
    | some index =>
        if isContinuation then
          state.items.modify index fun item =>
            match item with
            | .message key entry continued _ => .message key entry continued true
            | other => other
        else state.items
    | none => state.items
  ⟨items ++ [.message (entryRenderKey entry) entry isContinuation false], some entry,
    some items.length⟩

/-- What the walk looks up. -/
structure TimelinePlan where
  entries : List MainTimelineEntry
  firstUnreadMessageId : Option String
  dayBoundariesByStartIndex : EntryMap ℕ DayGroupBoundary
  membershipGroupsByStartIndex : EntryMap ℕ (List MainTimelineEntry)

def TimelinePlan.pushDividers (plan : TimelinePlan) (state : WalkState) (i : ℕ)
    (entry : MainTimelineEntry) : WalkState :=
  let state :=
    match plan.dayBoundariesByStartIndex.get? i with
    | some dayBoundary =>
        state.pushDivider (.dayDivider dayBoundary.key entry.message.createdAt)
    | none => state
  if shouldRenderUnreadDivider i entry.message.id plan.firstUnreadMessageId then
    state.pushDivider (.unreadDivider ("unread-" ++ entryRenderKey entry))
  else state

/-- The rounds of the walk from an index on. -/
def TimelinePlan.walk (plan : TimelinePlan) : ℕ → ℕ → WalkState → WalkState
  | 0, _, state => state
  | rounds + 1, i, state =>
      match plan.entries[i]? with
      | none => state
      | some entry =>
          let state := plan.pushDividers state i entry
          if entry.message.kind = some kindSystemMessage then
            match plan.membershipGroupsByStartIndex.get? i with
            | some membershipGroup =>
                plan.walk rounds (i + membershipGroup.length) (state.pushDivider
                  (.systemGroup (entryRenderKey (membershipGroup.getLastD entry))
                    membershipGroup))
            | none =>
                plan.walk rounds (i + 1)
                  (state.pushDivider (.system (entryRenderKey entry) entry))
          else plan.walk rounds (i + 1) (state.pushMessage runtime entry)

def barrierIndexes (entries : List MainTimelineEntry) (firstUnreadMessageId : Option String) :
    Finset ℕ :=
  let days := ((buildDayGroupBoundaries runtime (entries.map MainTimelineEntry.message)).map
    DayGroupBoundary.startIndex).toFinset
  match firstUnreadMessageId.filter fun messageId => messageId ≠ "" with
  | none => days
  | some messageId =>
      match entries.findIdx? fun entry => entry.message.id = messageId with
      | some unreadIndex => if unreadIndex > 0 then insert unreadIndex days else days
      | none => days

def timelinePlan (entries : List MainTimelineEntry) (firstUnreadMessageId : Option String) :
    TimelinePlan where
  entries := entries
  firstUnreadMessageId := firstUnreadMessageId
  dayBoundariesByStartIndex :=
    (buildDayGroupBoundaries runtime (entries.map MainTimelineEntry.message)).foldl
      (fun map boundary => map.set boundary.startIndex boundary) .empty
  membershipGroupsByStartIndex := buildMembershipGroups runtime entries
    (barrierIndexes runtime entries firstUnreadMessageId)

def buildTimelineItems (entries : List MainTimelineEntry) (firstUnreadMessageId : Option String) :
    List TimelineItem :=
  ((timelinePlan runtime entries firstUnreadMessageId).walk runtime entries.length 0
    ⟨[], none, none⟩).items

end Code

end Buzz.Thread
