import Buzz.ThreadPanel

/-!
# The counts of a thread

The replies of a thread are a forest. What the walk up from every message counts at a head and what
the recursion down from it lists, with the counts of the collapsed replies, are the descendants of
the head, each once. The latest of their times is not below zero, whatever they are.
-/

namespace Buzz.Thread

section Forest

variable {messages : List TimelineMessage} {first second : String} {m : TimelineMessage}

/-- The message answers the head, or a message that does so. -/
inductive Descends (messages : List TimelineMessage) (head : String) : TimelineMessage → Prop where
  | direct {m : TimelineMessage} (hmem : m ∈ messages) (hparent : m.parent? = some head) :
      Descends messages head m
  | nested {p m : TimelineMessage} (h : Descends messages head p) (hmem : m ∈ messages)
      (hparent : m.parent? = some p.id) : Descends messages head m

/-- No message is its own descendant. -/
def Acyclic (messages : List TimelineMessage) : Prop :=
  ∀ m ∈ messages, ¬Descends messages m.id m

theorem Descends.mem (h : Descends messages first m) : m ∈ messages := by
  cases h with
  | direct hmem _ => exact hmem
  | nested _ hmem _ => exact hmem

theorem Descends.trans {p : TimelineMessage} (h : Descends messages first p)
    (hrest : Descends messages p.id m) : Descends messages first m := by
  induction hrest with
  | direct hmem hparent => exact .nested h hmem hparent
  | nested _ hmem hparent ih => exact .nested ih hmem hparent

theorem mem_eq_of_id {p q : TimelineMessage} (hids : (messages.map TimelineMessage.id).Nodup)
    (hp : p ∈ messages) (hq : q ∈ messages) (hid : p.id = q.id) : p = q :=
  List.inj_on_of_nodup_map hids hp hq hid

/-- Two heads of one message are one, or one of them descends from the other. -/
theorem Descends.linear (hids : (messages.map TimelineMessage.id).Nodup)
    (hfirst : Descends messages first m) :
    Descends messages second m → first = second ∨
      (∃ p, p.id = second ∧ Descends messages first p) ∨
        ∃ p, p.id = first ∧ Descends messages second p := by
  induction hfirst with
  | direct hmem hparent =>
      intro hsecond
      cases hsecond with
      | direct _ hother => exact Or.inl (Option.some.inj (hparent.symm.trans hother))
      | @nested q _ hq _ hother =>
          have hid : q.id = first := Option.some.inj (hother.symm.trans hparent)
          exact Or.inr (Or.inr ⟨q, hid, hq⟩)
  | @nested p m hp hmem hparent ih =>
      intro hsecond
      cases hsecond with
      | direct _ hother =>
          have hid : p.id = second := Option.some.inj (hparent.symm.trans hother)
          exact Or.inr (Or.inl ⟨p, hid, hp⟩)
      | @nested q _ hq _ hother =>
          have hid : p.id = q.id := Option.some.inj (hparent.symm.trans hother)
          obtain rfl := mem_eq_of_id hids hp.mem hq.mem hid
          exact ih hq

/-- No sibling of a reply descends from it. -/
theorem Acyclic.not_descends_sibling (h : Acyclic messages) {c d : TimelineMessage}
    (hc : c ∈ messages) {parentId : String}
    (hparent : c.parent? = some parentId) (hsibling : d.parent? = some parentId) :
    ¬Descends messages c.id d := by
  intro hdescends
  cases hdescends with
  | direct _ hother =>
      have hid : parentId = c.id := Option.some.inj (hsibling.symm.trans hother)
      exact h c hc (.direct hc (hid ▸ hparent))
  | @nested q _ hq _ hother =>
      have hid : parentId = q.id := Option.some.inj (hsibling.symm.trans hother)
      exact h c hc (.nested hq hc (hid ▸ hparent))

open Classical in
noncomputable def descendants (messages : List TimelineMessage) (head : String) :
    List TimelineMessage :=
  messages.filter fun m => Descends messages head m

def directReplies (messages : List TimelineMessage) (parentId : String) : List TimelineMessage :=
  messages.filter fun m => m.parent? = some parentId

theorem mem_descendants : m ∈ descendants messages first ↔ Descends messages first m := by
  simp only [descendants, List.mem_filter, decide_eq_true_eq]
  exact ⟨fun h => h.2, fun h => ⟨h.mem, h⟩⟩

theorem descendants_sublist : (descendants messages first).Sublist messages :=
  List.filter_sublist

theorem mem_directReplies : m ∈ directReplies messages first ↔
    m ∈ messages ∧ m.parent? = some first := by
  rw [directReplies, List.mem_filter, decide_eq_true_eq]

theorem descends_iff : Descends messages first m ↔
    ∃ c ∈ directReplies messages first, m = c ∨ Descends messages c.id m := by
  constructor
  · intro h
    induction h with
    | direct hmem hparent => exact ⟨_, mem_directReplies.mpr ⟨hmem, hparent⟩, Or.inl rfl⟩
    | @nested p m hp hmem hparent ih =>
        obtain ⟨c, hc, hpc⟩ := ih
        refine ⟨c, hc, Or.inr ?_⟩
        rcases hpc with rfl | hpc
        · exact .direct hmem hparent
        · exact .nested hpc hmem hparent
  · rintro ⟨c, hc, rfl | hrest⟩
    · exact .direct (mem_directReplies.mp hc).1 (mem_directReplies.mp hc).2
    · exact (Descends.direct (mem_directReplies.mp hc).1 (mem_directReplies.mp hc).2).trans hrest

/-- The descendants of a head are its direct replies, each with its own descendants. -/
theorem descendants_perm (hids : (messages.map TimelineMessage.id).Nodup)
    (hacyclic : Acyclic messages) (head : String) : (descendants messages head).Perm
      ((directReplies messages head).flatMap fun c => c :: descendants messages c.id) := by
  have hmessages : messages.Nodup := hids.of_map
  rw [List.perm_ext_iff_of_nodup (hmessages.sublist descendants_sublist)]
  · intro m
    rw [mem_descendants, descends_iff, List.mem_flatMap]
    simp only [List.mem_cons, mem_descendants]
  · rw [List.nodup_flatMap]
    constructor
    · intro c hc
      rw [List.nodup_cons, mem_descendants]
      exact ⟨hacyclic c (mem_directReplies.mp hc).1, hmessages.sublist descendants_sublist⟩
    · refine (hmessages.filter _).imp_of_mem ?_
      intro c d hc hd hne
      obtain ⟨hcMem, hcParent⟩ := mem_directReplies.mp hc
      obtain ⟨hdMem, hdParent⟩ := mem_directReplies.mp hd
      have hcd := hacyclic.not_descends_sibling hcMem hcParent hdParent
      have hdc := hacyclic.not_descends_sibling hdMem hdParent hcParent
      rw [Function.onFun, List.disjoint_left]
      intro x hx hy
      rw [List.mem_cons, mem_descendants] at hx hy
      rcases hx with rfl | hx
      · rcases hy with rfl | hy
        · exact hne rfl
        · exact hdc hy
      · rcases hy with rfl | hy
        · exact hcd hx
        · rcases hx.linear hids hy with hid | ⟨p, hid, hp⟩ | ⟨p, hid, hp⟩
          · exact hne (mem_eq_of_id hids hcMem hdMem hid)
          · exact hcd (mem_eq_of_id hids hp.mem hdMem hid ▸ hp)
          · exact hdc (mem_eq_of_id hids hp.mem hcMem hid ▸ hp)

end Forest

section Climb

variable {messages : List TimelineMessage} {m : TimelineMessage} {a : String} {hops : ℕ}

theorem get?_mapById_eq_some_iff {β : Type} {value : TimelineMessage → β} {held : β}
    (hids : (messages.map TimelineMessage.id).Nodup) :
    (mapById value messages).get? a = some held ↔
      ∃ m ∈ messages, m.id = a ∧ value m = held := by
  have hfold := EntryMap.get?_foldl_set (messages.map fun m => (m.id, value m)) a .empty
    (by rwa [List.map_map]) held
  rw [List.foldl_map] at hfold
  refine hfold.trans ?_
  rw [EntryMap.get?_empty]
  simp [List.mem_map]

/-- The ancestors that the walk comes to. -/
def climb (messages : List TimelineMessage) : ℕ → Option String → List String
  | 0, _ => []
  | hops + 1, ancestorId =>
      match ancestorId.filter fun ancestorId => ancestorId ≠ "" with
      | none => []
      | some ancestorId =>
          match (mapById id messages).get? ancestorId with
          | none => []
          | some ancestor => ancestorId :: climb messages hops ancestor.parentId

theorem climb_succ_of_mem (hids : (messages.map TimelineMessage.id).Nodup) {p : TimelineMessage}
    (hp : p ∈ messages) (hparent : m.parent? = some p.id) :
    climb messages (hops + 1) m.parentId = p.id :: climb messages hops p.parentId := by
  have hget : (mapById id messages).get? p.id = some p :=
    (get?_mapById_eq_some_iff hids).mpr ⟨p, hp, rfl, rfl⟩
  rw [TimelineMessage.parent?] at hparent
  rw [climb, hparent]
  dsimp only
  rw [hget]

theorem climb_succ_of_missing
    (h : ∀ p ∈ messages, m.parent? ≠ some p.id) : climb messages (hops + 1) m.parentId = [] := by
  rw [climb]
  cases hparent : m.parentId.filter fun ancestorId => ancestorId ≠ "" with
  | none => rfl
  | some ancestorId =>
      have hget : (mapById id messages).get? ancestorId = none := by
        rw [get?_mapById_eq_none_iff]
        intro hmem
        obtain ⟨p, hp, rfl⟩ := List.mem_map.mp hmem
        exact h p hp hparent
      dsimp only
      rw [hget]

theorem climb_cases (hids : (messages.map TimelineMessage.id).Nodup) (m : TimelineMessage)
    (hops : ℕ) :
    (∃ p ∈ messages, m.parent? = some p.id ∧
      climb messages (hops + 1) m.parentId = p.id :: climb messages hops p.parentId) ∨
    climb messages (hops + 1) m.parentId = [] := by
  by_cases h : ∃ p ∈ messages, m.parent? = some p.id
  · obtain ⟨p, hp, hparent⟩ := h
    exact Or.inl ⟨p, hp, hparent, climb_succ_of_mem hids hp hparent⟩
  · push Not at h
    exact Or.inr (climb_succ_of_missing h)

theorem descends_of_mem_climb (hids : (messages.map TimelineMessage.id).Nodup) (hops : ℕ) :
    ∀ m ∈ messages, a ∈ climb messages hops m.parentId →
      Descends messages a m ∧ a ∈ messages.map TimelineMessage.id := by
  induction hops with
  | zero => exact fun m _ ha => absurd ha List.not_mem_nil
  | succ hops ih =>
      intro m hm ha
      rcases climb_cases hids m hops with ⟨p, hp, hparent, hclimb⟩ | hclimb
      · rw [hclimb] at ha
        rcases List.mem_cons.mp ha with rfl | ha
        · exact ⟨.direct hm hparent, List.mem_map_of_mem hp⟩
        · obtain ⟨hdescends, hmem⟩ := ih p hp ha
          exact ⟨.nested hdescends hm hparent, hmem⟩
      · rw [hclimb] at ha
        exact absurd ha List.not_mem_nil

theorem climb_nodup (hids : (messages.map TimelineMessage.id).Nodup)
    (hacyclic : Acyclic messages) (hops : ℕ) :
    ∀ m : TimelineMessage, (climb messages hops m.parentId).Nodup := by
  induction hops with
  | zero => exact fun m => List.nodup_nil
  | succ hops ih =>
      intro m
      rcases climb_cases hids m hops with ⟨p, hp, -, hclimb⟩ | hclimb
      · rw [hclimb, List.nodup_cons]
        exact ⟨fun hmem => hacyclic p hp (descends_of_mem_climb hids hops p hp hmem).1, ih p⟩
      · rw [hclimb]
        exact List.nodup_nil

theorem climb_take (hids : (messages.map TimelineMessage.id).Nodup) (hops : ℕ) :
    ∀ m : TimelineMessage, climb messages hops m.parentId =
      (climb messages (hops + 1) m.parentId).take hops := by
  induction hops with
  | zero => exact fun m => rfl
  | succ hops ih =>
      intro m
      by_cases h : ∃ p ∈ messages, m.parent? = some p.id
      · obtain ⟨p, hp, hparent⟩ := h
        rw [climb_succ_of_mem hids hp hparent, climb_succ_of_mem hids hp hparent,
          List.take_succ_cons, ih p]
      · push Not at h
        rw [climb_succ_of_missing h, climb_succ_of_missing h, List.take_nil]

theorem climb_length_le (hids : (messages.map TimelineMessage.id).Nodup)
    (hacyclic : Acyclic messages) (hm : m ∈ messages) :
    (climb messages hops m.parentId).length ≤ messages.length := by
  have hsub : climb messages hops m.parentId ⊆ messages.map TimelineMessage.id :=
    fun a ha => (descends_of_mem_climb hids hops m hm ha).2
  have hle := ((climb_nodup hids hacyclic hops m).subperm hsub).length_le
  rwa [List.length_map] at hle

/-- The hops are enough for every ancestor. -/
theorem mem_climb_iff (hids : (messages.map TimelineMessage.id).Nodup)
    (hacyclic : Acyclic messages) (hm : m ∈ messages) :
    a ∈ climb messages (messages.length + 1) m.parentId ↔
      Descends messages a m ∧ a ∈ messages.map TimelineMessage.id := by
  constructor
  · exact descends_of_mem_climb hids _ m hm
  · rintro ⟨hdescends, ha⟩
    clear hm
    induction hdescends with
    | direct _ hparent =>
        obtain ⟨p, hp, rfl⟩ := List.mem_map.mp ha
        rw [climb_succ_of_mem hids hp hparent]
        exact List.mem_cons_self
    | @nested p m hp hmem hparent ih =>
        have hlength := @climb_length_le messages p (messages.length + 1) hids hacyclic hp.mem
        rw [climb_succ_of_mem hids hp.mem hparent, climb_take hids, List.take_of_length_le hlength]
        exact List.mem_cons_of_mem _ ih

/-- The statistics of the messages, whatever they are. -/
def Covers (messages : List TimelineMessage)
    (stats : EntryMap String ThreadDescendantStats) : Prop :=
  ∀ a, stats.get? a = none ↔ a ∉ messages.map TimelineMessage.id

theorem Covers.set {stats : EntryMap String ThreadDescendantStats} (h : Covers messages stats)
    (ha : a ∈ messages.map TimelineMessage.id) (value : ThreadDescendantStats) :
    Covers messages (stats.set a value) := by
  intro other
  rw [EntryMap.get?_set]
  by_cases heq : other = a
  · rw [if_pos heq, heq]
    exact iff_of_false (by simp) (not_not.mpr ha)
  · rw [if_neg heq]
    exact h other

/-- The walk counts at the ancestors and nowhere else. -/
theorem get?_countAncestors (hids : (messages.map TimelineMessage.id).Nodup)
    (hacyclic : Acyclic messages) (count : ThreadDescendantStats → ThreadDescendantStats)
    (hops : ℕ) : ∀ (m : TimelineMessage) (stats : EntryMap String ThreadDescendantStats),
      Covers messages stats →
      Covers messages (countAncestors (mapById id messages) count hops m.parentId stats) ∧
      ∀ other, (countAncestors (mapById id messages) count hops m.parentId stats).get? other =
        if other ∈ climb messages hops m.parentId then (stats.get? other).map count
        else stats.get? other := by
  induction hops with
  | zero =>
      intro m stats h
      exact ⟨h, fun other => (if_neg List.not_mem_nil).symm⟩
  | succ hops ih =>
      intro m stats h
      by_cases hparent : ∃ p ∈ messages, m.parent? = some p.id
      · obtain ⟨p, hp, hparent⟩ := hparent
        have hget : (mapById id messages).get? p.id = some p :=
          (get?_mapById_eq_some_iff hids).mpr ⟨p, hp, rfl, rfl⟩
        have hmem : p.id ∈ messages.map TimelineMessage.id := List.mem_map_of_mem hp
        obtain ⟨held, hheld⟩ : ∃ held, stats.get? p.id = some held := by
          rw [← Option.ne_none_iff_exists', Ne, h p.id]
          exact not_not.mpr hmem
        obtain ⟨hcovers, hrest⟩ := ih p _ (h.set hmem (count held))
        have hfresh : p.id ∉ climb messages hops p.parentId := fun hclimb =>
          hacyclic p hp (descends_of_mem_climb hids hops p hp hclimb).1
        have hwalk : countAncestors (mapById id messages) count (hops + 1) m.parentId stats =
            countAncestors (mapById id messages) count hops p.parentId
              (stats.set p.id (count held)) := by
          rw [TimelineMessage.parent?] at hparent
          rw [countAncestors, hparent]
          dsimp only
          rw [hheld, hget]
          rfl
        rw [hwalk, climb_succ_of_mem hids hp hparent]
        refine ⟨hcovers, fun other => ?_⟩
        rw [hrest, EntryMap.get?_set]
        by_cases heq : other = p.id
        · subst heq
          rw [if_neg hfresh, if_pos rfl, if_pos List.mem_cons_self, hheld]
          rfl
        · rw [if_neg heq]
          simp only [List.mem_cons, heq, false_or]
      · push Not at hparent
        have hwalk : countAncestors (mapById id messages) count (hops + 1) m.parentId stats =
            stats := by
          rw [countAncestors]
          cases hfilter : m.parentId.filter fun ancestorId => ancestorId ≠ "" with
          | none => rfl
          | some ancestorId =>
              have hget : stats.get? ancestorId = none := by
                rw [h ancestorId]
                intro hmem
                obtain ⟨p, hp, rfl⟩ := List.mem_map.mp hmem
                exact hparent p hp hfilter
              dsimp only
              rw [hget]
        rw [hwalk, climb_succ_of_missing hparent]
        exact ⟨h, fun other => (if_neg List.not_mem_nil).symm⟩

end Climb

section Statistics

variable {messages : List TimelineMessage} {a : String}

theorem orderedMessages_perm (messages : List TimelineMessage) :
    (orderedMessages messages).reverse.Perm messages := by
  refine (List.reverse_perm _).trans (((List.perm_insertionSort _ _).map Prod.fst).trans ?_)
  rw [List.zipIdx_map_fst]

/-- The statistics of a message, from its descendants in some order. -/
structure CountsDescendants (found : List TimelineMessage) (stats : ThreadDescendantStats) :
    Prop where
  descendantCount : stats.descendantCount = found.length
  lastReplyAt : stats.lastReplyAt =
    (found.map TimelineMessage.createdAt).foldl laterReplyAt none

theorem CountsDescendants.countDescendant {found : List TimelineMessage}
    {stats : ThreadDescendantStats} (h : CountsDescendants found stats) (m : TimelineMessage)
    (isUnread : Bool) :
    CountsDescendants (found ++ [m]) (Thread.countDescendant m isUnread stats) where
  descendantCount := by
    rw [List.length_append, ← h.descendantCount]
    rfl
  lastReplyAt := by
    rw [List.map_append, List.foldl_append, ← h.lastReplyAt]
    rfl

open Classical in
/-- The statistics after some of the messages have walked. -/
theorem countsDescendants_foldl (hids : (messages.map TimelineMessage.id).Nodup)
    (hacyclic : Acyclic messages) (unreadReplyIds : Finset String)
    (walked : List TimelineMessage) : ∀ (before : List TimelineMessage)
      (stats : EntryMap String ThreadDescendantStats), (∀ m ∈ walked, m ∈ messages) →
      Covers messages stats →
      (∀ held, stats.get? a = some held →
        CountsDescendants (before.filter fun m => Descends messages a m) held) →
      ∀ held, (walked.foldl (fun stats message =>
        countAncestors (mapById id messages)
          (countDescendant message (message.id ∈ unreadReplyIds)) (messages.length + 1)
          message.parentId stats) stats).get? a = some held →
        CountsDescendants ((before ++ walked).filter fun m => Descends messages a m) held := by
  induction walked with
  | nil =>
      intro before stats _ _ hcounts held hheld
      rw [List.append_nil]
      exact hcounts held hheld
  | cons m rest ih =>
      intro before stats hmem hcovers hcounts
      obtain ⟨hm, hrest⟩ := List.forall_mem_cons.mp hmem
      rw [List.foldl_cons, List.append_cons]
      obtain ⟨hnext, hget⟩ := get?_countAncestors hids hacyclic
        (countDescendant m (m.id ∈ unreadReplyIds)) (messages.length + 1) m stats hcovers
      refine ih (before ++ [m]) _ hrest hnext ?_
      intro held hheld
      rw [hget] at hheld
      rw [List.filter_append]
      by_cases hclimb : a ∈ climb messages (messages.length + 1) m.parentId
      · rw [if_pos hclimb] at hheld
        obtain ⟨previous, hprevious, rfl⟩ := Option.map_eq_some_iff.mp hheld
        have hdescends := ((mem_climb_iff hids hacyclic hm).mp hclimb).1
        rw [List.filter_singleton, decide_eq_true hdescends, cond_true]
        exact (hcounts previous hprevious).countDescendant m _
      · rw [if_neg hclimb] at hheld
        have hmemId : a ∈ messages.map TimelineMessage.id := by
          by_contra hnot
          rw [(hcovers a).mpr hnot] at hheld
          cases hheld
        have hdescends : ¬Descends messages a m := fun h =>
          hclimb ((mem_climb_iff hids hacyclic hm).mpr ⟨h, hmemId⟩)
        rw [List.filter_singleton, decide_eq_false hdescends, cond_false, List.append_nil]
        exact hcounts held hheld

theorem foldl_laterReplyAt_some (times : List ℤ) : ∀ start : ℤ, 0 ≤ start →
    times.foldl laterReplyAt (some start) = some (times.foldl max start) := by
  induction times with
  | nil => exact fun start _ => rfl
  | cons time rest ih =>
      intro start hstart
      exact ih (max start time) (le_max_of_le_left hstart)

theorem foldl_laterReplyAt_none {times : List ℤ} (h : times ≠ []) :
    times.foldl laterReplyAt none = some (times.foldl max 0) := by
  cases times with
  | nil => exact absurd rfl h
  | cons time rest => exact foldl_laterReplyAt_some rest (max 0 time) (le_max_left 0 time)

theorem foldl_max_perm {times others : List ℤ} (h : times.Perm others) (start : ℤ) :
    times.foldl max start = others.foldl max start :=
  h.foldl_eq' (fun first _ second _ held => max_right_comm held first second) start

theorem foldl_laterReplyAt_perm {times others : List ℤ} (h : times.Perm others) :
    times.foldl laterReplyAt none = others.foldl laterReplyAt none := by
  by_cases hempty : times = []
  · obtain rfl := hempty
    obtain rfl := h.nil_eq
    rfl
  · have hothers : others ≠ [] := fun heq => hempty (heq ▸ h).eq_nil
    rw [foldl_laterReplyAt_none hempty, foldl_laterReplyAt_none hothers, foldl_max_perm h]

theorem CountsDescendants.perm {found others : List TimelineMessage}
    {stats : ThreadDescendantStats} (h : CountsDescendants found stats)
    (hperm : found.Perm others) :
    CountsDescendants others stats where
  descendantCount := h.descendantCount.trans hperm.length_eq
  lastReplyAt :=
    h.lastReplyAt.trans (foldl_laterReplyAt_perm (hperm.map TimelineMessage.createdAt))

theorem covers_mapById (messages : List TimelineMessage) :
    Covers messages (mapById (fun _ => .zero) messages) :=
  fun _ => get?_mapById_eq_none_iff

theorem covers_stats (hids : (messages.map TimelineMessage.id).Nodup) (hacyclic : Acyclic messages)
    (unreadReplyIds : Finset String) (walked : List TimelineMessage) :
    ∀ stats : EntryMap String ThreadDescendantStats, Covers messages stats →
      Covers messages (walked.foldl (fun stats message =>
        countAncestors (mapById id messages)
          (countDescendant message (message.id ∈ unreadReplyIds)) (messages.length + 1)
          message.parentId stats) stats) := by
  induction walked with
  | nil => exact fun stats h => h
  | cons m rest ih =>
      exact fun stats h => ih _ (get?_countAncestors hids hacyclic _ _ m stats h).1

/-- The statistics of every message count its descendants. -/
theorem get?_stats (hids : (messages.map TimelineMessage.id).Nodup) (hacyclic : Acyclic messages)
    (unreadReplyIds : Finset String) (ha : a ∈ messages.map TimelineMessage.id) :
    ∃ stats, (buildDescendantStatsByMessageId messages unreadReplyIds (mapById id messages)).get?
      a = some stats ∧ CountsDescendants (descendants messages a) stats := by
  have hcovers := covers_stats hids hacyclic unreadReplyIds (orderedMessages messages).reverse _
    (covers_mapById messages)
  have hcounts := countsDescendants_foldl (a := a) hids hacyclic unreadReplyIds
    (orderedMessages messages).reverse [] (mapById (fun _ => .zero) messages)
    (fun m hm => (orderedMessages_perm messages).mem_iff.mp hm) (covers_mapById messages) ?_
  · obtain ⟨stats, hstats⟩ := Option.ne_none_iff_exists'.mp fun hnone =>
      (hcovers a).mp hnone ha
    exact ⟨stats, hstats, (hcounts stats hstats).perm
      ((orderedMessages_perm messages).filter _)⟩
  · intro held hheld
    obtain ⟨m, -, -, rfl⟩ := (get?_mapById_eq_some_iff hids).mp hheld
    exact ⟨rfl, rfl⟩

end Statistics

section Visible

variable {messages : List TimelineMessage} {expandedReplyIds : Finset String}
  {stats : EntryMap String ThreadDescendantStats}

def stamp (m : TimelineMessage) : String × ℤ :=
  (m.id, m.createdAt)

/-- The reply of an entry, with its descendants where the entry is collapsed over them. -/
noncomputable def carried (messages : List TimelineMessage) (entry : MainTimelineEntry) :
    List (String × ℤ) :=
  stamp entry.message ::
    if entry.summary.isSome then (descendants messages entry.message.id).map stamp else []

/-- The summary of an entry is of all descendants of its reply. -/
structure Summarizes (messages : List TimelineMessage) (entry : MainTimelineEntry) : Prop where
  replyCount : ∀ summary, entry.summary = some summary →
    summary.replyCount = (descendants messages entry.message.id).length
  lastReplyAt : ∀ summary, entry.summary = some summary → summary.lastReplyAt =
    ((descendants messages entry.message.id).map TimelineMessage.createdAt).foldl laterReplyAt none
  someReply : ∀ summary, entry.summary = some summary →
    descendants messages entry.message.id ≠ []

theorem carried_expanded (m : TimelineMessage) : carried messages ⟨m, none⟩ = [stamp m] := rfl

theorem summarizes_expanded (m : TimelineMessage) : Summarizes messages ⟨m, none⟩ := by
  constructor
  all_goals
    intro summary h
    cases h

/-- A collapsed reply carries all its descendants. -/
theorem collapsed_entry (hstats : ∀ a ∈ messages.map TimelineMessage.id,
    ∃ held, stats.get? a = some held ∧ CountsDescendants (descendants messages a) held)
    {m : TimelineMessage} (hm : m ∈ messages) (depth : ℕ) :
    carried messages ⟨{ m with depth := depth }, buildSummaryForDirectReplies m.id stats⟩ =
      (m :: descendants messages m.id).map stamp ∧
    Summarizes messages ⟨{ m with depth := depth }, buildSummaryForDirectReplies m.id stats⟩ := by
  obtain ⟨held, hheld, hcounts⟩ := hstats m.id (List.mem_map_of_mem hm)
  unfold buildSummaryForDirectReplies
  rw [hheld]
  dsimp only
  by_cases hzero : held.descendantCount = 0
  · have hnone : descendants messages m.id = [] := by
      rw [← List.length_eq_zero_iff, ← hcounts.descendantCount, hzero]
    rw [if_pos hzero, hnone]
    exact ⟨rfl, summarizes_expanded _⟩
  · have hsome : descendants messages m.id ≠ [] := by
      intro hnone
      rw [hcounts.descendantCount, hnone] at hzero
      exact hzero rfl
    rw [if_neg hzero]
    refine ⟨rfl, ?_, ?_, fun _ _ => hsome⟩
    · intro summary hsummary
      obtain rfl := Option.some.inj hsummary
      exact hcounts.descendantCount
    · intro summary hsummary
      obtain rfl := Option.some.inj hsummary
      exact hcounts.lastReplyAt

/-- The entries that the loop over some replies adds. -/
theorem appendReplies_carried {index : ThreadPanelIndex}
    (hstats : ∀ a ∈ messages.map TimelineMessage.id,
      ∃ held, index.descendantStatsByMessageId.get? a = some held ∧
        CountsDescendants (descendants messages a) held)
    {appendExpanded : List MainTimelineEntry → String → ℕ → Option (List MainTimelineEntry)}
    {depth : ℕ} (hexpand : ∀ entries replyId out,
      appendExpanded entries replyId (depth + 1) = some out → ∃ shown, out = entries ++ shown ∧
        (shown.flatMap (carried messages)).Perm ((descendants messages replyId).map stamp) ∧
        ∀ entry ∈ shown, Summarizes messages entry)
    (replies : List TimelineMessage) : ∀ entries out, (∀ m ∈ replies, m ∈ messages) →
      replies.foldlM (appendReply index expandedReplyIds appendExpanded depth) entries = some out →
      ∃ shown, out = entries ++ shown ∧ (shown.flatMap (carried messages)).Perm
          (replies.flatMap fun c => (c :: descendants messages c.id).map stamp) ∧
        ∀ entry ∈ shown, Summarizes messages entry := by
  induction replies with
  | nil =>
      intro entries out _ h
      obtain rfl := Option.some.inj h
      exact ⟨[], (List.append_nil _).symm, .refl _, fun _ h => absurd h List.not_mem_nil⟩
  | cons reply rest ih =>
      intro entries out hmem h
      obtain ⟨hreply, hrest⟩ := List.forall_mem_cons.mp hmem
      rw [List.foldlM_cons] at h
      obtain ⟨held, hheld, h⟩ := Option.bind_eq_some_iff.mp h
      obtain ⟨later, hlater, hlaterPerm, hlaterSum⟩ := ih held out hrest h
      rw [List.flatMap_cons]
      by_cases hexpanded : reply.id ∈ expandedReplyIds
      · rw [appendReply_expanded hexpanded] at hheld
        obtain ⟨inner, hinner, hinnerPerm, hinnerSum⟩ := hexpand _ _ _ hheld
        refine ⟨⟨{ reply with depth := depth }, none⟩ :: (inner ++ later), ?_, ?_, ?_⟩
        · rw [hlater, hinner]
          simp
        · rw [List.flatMap_cons, List.flatMap_append, carried_expanded, ← List.append_assoc]
          exact (hinnerPerm.cons (stamp reply)).append hlaterPerm
        · rw [List.forall_mem_cons]
          refine ⟨summarizes_expanded _, fun entry hentry => ?_⟩
          exact (List.mem_append.mp hentry).elim (hinnerSum entry) (hlaterSum entry)
      · rw [appendReply_collapsed hexpanded] at hheld
        obtain rfl := Option.some.inj hheld
        obtain ⟨hcarried, hsummarizes⟩ := collapsed_entry hstats hreply depth
        refine ⟨⟨{ reply with depth := depth },
          buildSummaryForDirectReplies reply.id index.descendantStatsByMessageId⟩ :: later,
          ?_, ?_, ?_⟩
        · rw [hlater]
          simp
        · rw [List.flatMap_cons, hcarried]
          exact hlaterPerm.append_left _
        · rw [List.forall_mem_cons]
          exact ⟨hsummarizes, hlaterSum⟩

/-- The entries under a parent carry its descendants, each once. -/
theorem appendExpandedReplies_carried (hids : (messages.map TimelineMessage.id).Nodup)
    (hacyclic : Acyclic messages) {index : ThreadPanelIndex}
    (hindex : index.directChildrenByParentId = buildDirectChildrenByParentId messages)
    (hstats : ∀ a ∈ messages.map TimelineMessage.id,
      ∃ held, index.descendantStatsByMessageId.get? a = some held ∧
        CountsDescendants (descendants messages a) held)
    (calls : ℕ) : ∀ (depth : ℕ) entries parentId out,
      appendExpandedReplies index expandedReplyIds calls entries parentId depth = some out →
      ∃ shown, out = entries ++ shown ∧
        (shown.flatMap (carried messages)).Perm ((descendants messages parentId).map stamp) ∧
        ∀ entry ∈ shown, Summarizes messages entry := by
  induction calls with
  | zero =>
      intro depth entries parentId out h
      cases h
  | succ calls ih =>
      intro depth entries parentId out h
      unfold appendExpandedReplies at h
      rw [hindex, get?_children] at h
      obtain ⟨shown, hout, hperm, hsum⟩ := appendReplies_carried hstats (ih (depth + 1)) _ entries
        out (fun m hm => (List.mem_filter.mp hm).1) h
      refine ⟨shown, hout, hperm.trans ?_, hsum⟩
      have hforest := (descendants_perm hids hacyclic parentId).map stamp
      rw [List.map_flatMap] at hforest
      exact hforest.symm

end Visible

section Summary

variable {messages : List TimelineMessage} {entry : MainTimelineEntry}
  {entries : List MainTimelineEntry} {totals : VisibleTotals}

theorem foldl_max_max (times : List ℤ) (first : ℤ) :
    ∀ second, times.foldl max (max first second) = max first (times.foldl max second) := by
  induction times with
  | nil => exact fun _ => rfl
  | cons time rest ih =>
      intro second
      rw [List.foldl_cons, List.foldl_cons, max_assoc, ih]

theorem foldl_addParticipantCandidate (timestamp : ℤ)
    (participants : List TimelineThreadSummaryParticipant) : ∀ totals : VisibleTotals,
      (participants.foldl (addParticipantCandidate timestamp) totals).replyCount =
        totals.replyCount ∧
      (participants.foldl (addParticipantCandidate timestamp) totals).lastReplyAt =
        totals.lastReplyAt := by
  induction participants with
  | nil => exact fun _ => ⟨rfl, rfl⟩
  | cons participant rest ih => exact fun totals => ih _

/-- An entry adds its reply and the descendants that it stands for. -/
theorem Summarizes.addVisibleEntry (h : Summarizes messages entry)
    (htotals : 0 ≤ totals.lastReplyAt.getD 0) :
    (Thread.addVisibleEntry totals entry).replyCount =
      totals.replyCount + (carried messages entry).length ∧
    (Thread.addVisibleEntry totals entry).lastReplyAt =
      ((carried messages entry).map Prod.snd).foldl laterReplyAt totals.lastReplyAt := by
  unfold Thread.addVisibleEntry carried
  cases hsummary : entry.summary with
  | none => exact ⟨rfl, rfl⟩
  | some summary =>
      have hfold := foldl_addParticipantCandidate
        (summary.lastReplyAt.getD entry.message.createdAt) summary.participants
      have hsome : (descendants messages entry.message.id).map TimelineMessage.createdAt ≠ [] := by
        rw [Ne, List.map_eq_nil_iff]
        exact h.someReply summary hsummary
      constructor
      · refine (hfold _).1.trans ?_
        change totals.replyCount + 1 + summary.replyCount = _
        have hreplies := h.replyCount summary hsummary
        simp only [List.length_cons, Option.isSome_some, if_pos, List.length_map]
        omega
      · refine (hfold _).2.trans ?_
        have htimes := h.lastReplyAt summary hsummary
        rw [foldl_laterReplyAt_none hsome] at htimes
        rw [htimes]
        simp only [Option.isSome_some, if_pos, List.map_cons, List.map_map, List.foldl_cons]
        have hstart : 0 ≤ max (totals.lastReplyAt.getD 0) entry.message.createdAt :=
          le_max_of_le_left htotals
        have hrest := foldl_laterReplyAt_some
          ((descendants messages entry.message.id).map TimelineMessage.createdAt) _ hstart
        refine Eq.trans ?_ hrest.symm
        have hsplit := foldl_max_max
          ((descendants messages entry.message.id).map TimelineMessage.createdAt)
          (max (totals.lastReplyAt.getD 0) entry.message.createdAt) 0
        rw [max_eq_left hstart] at hsplit
        rw [hsplit]
        rfl

theorem foldl_laterReplyAt_nonneg (times : List ℤ) : ∀ start : Option ℤ, 0 ≤ start.getD 0 →
    0 ≤ (times.foldl laterReplyAt start).getD 0 := by
  induction times with
  | nil => exact fun _ h => h
  | cons time rest ih => exact fun start h => ih _ (le_max_of_le_left h)

theorem foldl_addVisibleEntry (entries : List MainTimelineEntry) : ∀ totals : VisibleTotals,
    (∀ entry ∈ entries, Summarizes messages entry) → 0 ≤ totals.lastReplyAt.getD 0 →
    (entries.foldl addVisibleEntry totals).replyCount =
      totals.replyCount + (entries.flatMap (carried messages)).length ∧
    (entries.foldl addVisibleEntry totals).lastReplyAt =
      ((entries.flatMap (carried messages)).map Prod.snd).foldl laterReplyAt
        totals.lastReplyAt := by
  induction entries with
  | nil => exact fun totals _ _ => ⟨rfl, rfl⟩
  | cons entry rest ih =>
      intro totals hsum htotals
      obtain ⟨hentry, hrest⟩ := List.forall_mem_cons.mp hsum
      obtain ⟨hcount, hlast⟩ := hentry.addVisibleEntry htotals
      obtain ⟨hcountRest, hlastRest⟩ := ih (addVisibleEntry totals entry) hrest
        (by rw [hlast]; exact foldl_laterReplyAt_nonneg _ _ htotals)
      rw [List.foldl_cons, List.flatMap_cons, List.length_append, List.map_append,
        List.foldl_append]
      exact ⟨by omega, by rw [hlastRest, hlast]⟩

/-- The summary of entries that carry the descendants of a head. -/
theorem summary_lastReplyAt {head : String}
    (hsum : ∀ entry ∈ entries, Summarizes messages entry)
    (hperm : (entries.flatMap (carried messages)).Perm ((descendants messages head).map stamp)) :
    (buildThreadSummaryFromVisibleEntries head entries).bind TimelineThreadSummary.lastReplyAt =
      ((descendants messages head).map TimelineMessage.createdAt).foldl laterReplyAt none := by
  obtain ⟨hcount, hlast⟩ := foldl_addVisibleEntry entries ⟨0, none, []⟩ hsum le_rfl
  have htimes : ((entries.flatMap (carried messages)).map Prod.snd).Perm
      ((descendants messages head).map TimelineMessage.createdAt) := by
    have hmap := hperm.map Prod.snd
    rwa [List.map_map] at hmap
  rw [foldl_laterReplyAt_perm htimes] at hlast
  unfold buildThreadSummaryFromVisibleEntries
  dsimp only
  by_cases hzero : (entries.foldl addVisibleEntry ⟨0, none, []⟩).replyCount = 0
  · rw [if_pos hzero]
    have hnone : descendants messages head = [] := by
      have hlength := hperm.length_eq
      rw [List.length_map] at hlength
      rw [← List.length_eq_zero_iff]
      omega
    rw [hnone]
    rfl
  · rw [if_neg hzero]
    exact hlast

theorem le_foldl_max_iff (bound : ℤ) (times : List ℤ) : ∀ start,
    bound ≤ times.foldl max start ↔ bound ≤ start ∨ ∃ time ∈ times, bound ≤ time := by
  induction times with
  | nil => simp
  | cons time rest ih =>
      intro start
      rw [List.foldl_cons, ih, le_max_iff, or_assoc]
      simp only [List.mem_cons, exists_eq_or_imp]

/-- The running maximum is the maximum where it is not below zero. -/
theorem foldl_laterReplyAt_eq_max? {times : List ℤ} :
    times.foldl laterReplyAt none = times.max? ↔ times = [] ∨ ∃ time ∈ times, 0 ≤ time := by
  cases times with
  | nil => simp
  | cons time rest =>
      rw [foldl_laterReplyAt_none (List.cons_ne_nil _ _), List.max?_cons']
      have hsplit := foldl_max_max rest 0 time
      rw [List.foldl_cons, hsplit, Option.some_inj, max_eq_right_iff, le_foldl_max_iff]
      simp

end Summary

section Counts

variable {messages : List TimelineMessage} {expandedReplyIds : Finset String}

/-- The panel counts every descendant of its head once. -/
structure CountsThread (messages : List TimelineMessage) (openThreadHeadId : Option String)
    (data : ThreadPanelData) : Prop where
  once : (data.visibleReplies.map fun entry => entry.message.id).Nodup
  agree : (data.visibleReplies.map fun entry =>
    1 + (entry.summary.map TimelineThreadSummary.replyCount).getD 0).sum = data.totalReplyCount
  exact : ∀ headId, OpenHead messages openThreadHeadId headId →
    data.totalReplyCount = (descendants messages headId).length
  lastReplyAt : ∀ headId, OpenHead messages openThreadHeadId headId →
    (buildThreadSummaryFromVisibleEntries headId data.visibleReplies).bind
      TimelineThreadSummary.lastReplyAt =
        ((descendants messages headId).map TimelineMessage.createdAt).max?

theorem opens_descends {first second : String}
    (h : Relation.TransGen (Opens messages expandedReplyIds) first second) :
    ∃ m, m.id = second ∧ Descends messages first m := by
  induction h with
  | single hopens =>
      obtain ⟨m, hm, hparent, rfl, -⟩ := hopens
      exact ⟨m, rfl, .direct hm hparent⟩
  | tail _ hopens ih =>
      obtain ⟨p, rfl, hp⟩ := ih
      obtain ⟨m, hm, hparent, rfl, -⟩ := hopens
      exact ⟨m, rfl, .nested hp hm hparent⟩

/-- The panel of an acyclic thread is returned. -/
theorem exists_panel (hacyclic : Acyclic messages)
    (openThreadHeadId threadReplyTargetId : Option String) :
    ∃ calls data, buildThreadPanelData calls messages openThreadHeadId threadReplyTargetId
      expandedReplyIds = some data := by
  rw [exists_panel_iff]
  intro headId _
  rw [RelationWalk.halts_iff opens_mem]
  intro replyId _ hcycle
  obtain ⟨m, rfl, hm⟩ := opens_descends hcycle
  exact hacyclic m hm.mem hm

theorem carried_length {entry : MainTimelineEntry} (h : Summarizes messages entry) :
    (carried messages entry).length =
      1 + (entry.summary.map TimelineThreadSummary.replyCount).getD 0 := by
  unfold carried
  cases hsummary : entry.summary with
  | none => rfl
  | some summary =>
      simp [h.replyCount summary hsummary]
      omega

theorem ids_sublist_carried (entries : List MainTimelineEntry) :
    (entries.map fun entry => entry.message.id).Sublist
      ((entries.flatMap (carried messages)).map Prod.fst) := by
  induction entries with
  | nil => exact .slnil
  | cons entry rest ih =>
      rw [List.map_cons, List.flatMap_cons, List.map_append]
      exact (ih.trans (List.sublist_append_right _ _)).cons_cons entry.message.id

/-- A panel has the entries of its head, or is empty. -/
theorem panel_cases {calls : ℕ} {openThreadHeadId threadReplyTargetId : Option String}
    {data : ThreadPanelData} (hdata : buildThreadPanelData calls messages openThreadHeadId
      threadReplyTargetId expandedReplyIds = some data) :
    (data = emptyPanel ∧ ∀ headId, ¬OpenHead messages openThreadHeadId headId) ∨
    ∃ headId, OpenHead messages openThreadHeadId headId ∧
      appendExpandedReplies (buildThreadPanelIndex messages ∅) expandedReplyIds calls [] headId 1 =
        some data.visibleReplies ∧
      data.totalReplyCount = (((buildThreadPanelIndex messages ∅).descendantStatsByMessageId.get?
        headId).map ThreadDescendantStats.descendantCount).getD 0 := by
  unfold buildThreadPanelData buildThreadPanelDataFromIndex at hdata
  cases hopen : openThreadHeadId.filter fun headId => headId ≠ "" with
  | none =>
      rw [hopen] at hdata
      refine Or.inl ⟨(Option.some.inj hdata).symm, ?_⟩
      rintro headId ⟨rfl, hne, -⟩
      simp [hne] at hopen
  | some headId =>
      rw [hopen] at hdata
      obtain ⟨hhead, hne⟩ := Option.filter_eq_some_iff.mp hopen
      have hnone : (buildThreadPanelIndex messages ∅).messageById.get? headId = none ↔
          headId ∉ messages.map TimelineMessage.id := get?_mapById_eq_none_iff
      dsimp only at hdata
      cases hget : (buildThreadPanelIndex messages ∅).messageById.get? headId with
      | none =>
          rw [hget] at hdata
          refine Or.inl ⟨(Option.some.inj hdata).symm, ?_⟩
          rintro other ⟨heq, -, hmem⟩
          obtain rfl := Option.some.inj (hhead.symm.trans heq)
          exact hnone.mp hget hmem
      | some threadHead =>
          rw [hget] at hdata
          dsimp only at hdata
          have hmem : headId ∈ messages.map TimelineMessage.id := by
            by_contra hnot
            rw [hnone.mpr hnot] at hget
            cases hget
          obtain ⟨visibleReplies, hvisible, hdata⟩ := Option.bind_eq_some_iff.mp hdata
          obtain rfl := Option.some.inj hdata
          exact Or.inr ⟨headId, ⟨hhead, of_decide_eq_true hne, hmem⟩, hvisible, rfl⟩

/-- What a returned panel counts, whatever the times are. -/
theorem panel_counts (hids : (messages.map TimelineMessage.id).Nodup) (hacyclic : Acyclic messages)
    {calls : ℕ} {openThreadHeadId threadReplyTargetId : Option String}
    {data : ThreadPanelData} (hdata : buildThreadPanelData calls messages openThreadHeadId
      threadReplyTargetId expandedReplyIds = some data) :
    (data.visibleReplies.map fun entry => entry.message.id).Nodup ∧
    (data.visibleReplies.map fun entry =>
      1 + (entry.summary.map TimelineThreadSummary.replyCount).getD 0).sum =
        data.totalReplyCount ∧
    ∀ headId, OpenHead messages openThreadHeadId headId →
      data.totalReplyCount = (descendants messages headId).length ∧
      (buildThreadSummaryFromVisibleEntries headId data.visibleReplies).bind
        TimelineThreadSummary.lastReplyAt =
          ((descendants messages headId).map TimelineMessage.createdAt).foldl laterReplyAt
            none := by
  rcases panel_cases hdata with ⟨rfl, hnone⟩ | ⟨headId, hopen, hvisible, htotal⟩
  · exact ⟨List.nodup_nil, rfl, fun headId hopen => absurd hopen (hnone headId)⟩
  · obtain ⟨stats, hstats, hcounts⟩ := get?_stats hids hacyclic ∅ hopen.2.2
    have hget : (buildThreadPanelIndex messages ∅).descendantStatsByMessageId.get? headId =
        some stats := hstats
    rw [hget] at htotal
    have hexact : data.totalReplyCount = (descendants messages headId).length :=
      htotal.trans hcounts.descendantCount
    obtain ⟨shown, hshown, hperm, hsum⟩ := appendExpandedReplies_carried hids hacyclic
      (show (buildThreadPanelIndex messages ∅).directChildrenByParentId = _ from rfl)
      (fun a ha => get?_stats hids hacyclic ∅ ha) calls 1 [] headId _ hvisible
    rw [List.nil_append] at hshown
    subst hshown
    have hids' : ((data.visibleReplies.flatMap (carried messages)).map Prod.fst).Nodup := by
      rw [(hperm.map Prod.fst).nodup_iff, List.map_map]
      exact hids.sublist (descendants_sublist.map _)
    refine ⟨hids'.sublist (ids_sublist_carried data.visibleReplies), ?_, ?_⟩
    · rw [hexact, ← List.length_map stamp, ← hperm.length_eq, List.length_flatMap]
      congr 1
      exact List.map_congr_left fun entry hentry => (carried_length (hsum entry hentry)).symm
    · intro other hother
      obtain rfl := Option.some.inj (hopen.1.symm.trans hother.1)
      exact ⟨hexact, summary_lastReplyAt hsum hperm⟩

/-- The counts agree for every forest and every expansion, and the latest reply is the latest one
if and only if the head has no replies or one of a time that is not below zero. -/
theorem thread_counts_iff (messages : List TimelineMessage)
    (hids : (messages.map TimelineMessage.id).Nodup) (hacyclic : Acyclic messages)
    (openThreadHeadId threadReplyTargetId : Option String) (expandedReplyIds : Finset String) :
    ((∃ calls data, buildThreadPanelData calls messages openThreadHeadId threadReplyTargetId
        expandedReplyIds = some data) ∧
      ∀ calls data, buildThreadPanelData calls messages openThreadHeadId threadReplyTargetId
        expandedReplyIds = some data → CountsThread messages openThreadHeadId data) ↔
      ∀ headId, OpenHead messages openThreadHeadId headId → descendants messages headId = [] ∨
        ∃ m ∈ descendants messages headId, 0 ≤ m.createdAt := by
  have htimes : ∀ headId,
      ((descendants messages headId).map TimelineMessage.createdAt).foldl laterReplyAt none =
        ((descendants messages headId).map TimelineMessage.createdAt).max? ↔
      descendants messages headId = [] ∨ ∃ m ∈ descendants messages headId, 0 ≤ m.createdAt := by
    intro headId
    rw [foldl_laterReplyAt_eq_max?]
    simp
  constructor
  · rintro ⟨⟨calls, data, hdata⟩, hcounts⟩ headId hopen
    obtain ⟨-, -, hlast⟩ := panel_counts hids hacyclic hdata
    rw [← htimes, ← (hlast headId hopen).2]
    exact (hcounts calls data hdata).lastReplyAt headId hopen
  · intro h
    refine ⟨exists_panel hacyclic openThreadHeadId threadReplyTargetId, ?_⟩
    intro calls data hdata
    obtain ⟨honce, hagree, hlast⟩ := panel_counts hids hacyclic hdata
    refine ⟨honce, hagree, fun headId hopen => (hlast headId hopen).1, fun headId hopen => ?_⟩
    rw [(hlast headId hopen).2]
    exact (htimes headId).mpr (h headId hopen)

/-- Replies that rank above their parents make no cycle. -/
theorem acyclic_of_rank {messages : List TimelineMessage} (rank : String → ℕ)
    (h : ∀ m ∈ messages, ∀ parentId, m.parent? = some parentId → rank parentId < rank m.id) :
    Acyclic messages := by
  have hrank : ∀ {head : String} {m : TimelineMessage}, Descends messages head m →
      rank head < rank m.id := by
    intro head m hdescends
    induction hdescends with
    | direct hmem hparent => exact h _ hmem _ hparent
    | nested _ hmem hparent ih => exact ih.trans (h _ hmem _ hparent)
  exact fun m _ hself => lt_irrefl _ (hrank hself)

/-- A thread of two replies that have a reply each. -/
def nestedReplies : List TimelineMessage :=
  [reply "root" 1 none, reply "question" 2 (some "root"), reply "answer" 3 (some "question"),
    reply "remark" 4 (some "root"), reply "aside" 5 (some "remark")]

theorem nestedReplies_acyclic : Acyclic nestedReplies := by
  apply acyclic_of_rank fun id =>
    if id = "root" then 0 else if id = "question" ∨ id = "remark" then 1 else 2
  simp [nestedReplies, reply, TimelineMessage.parent?]

/-- The question is expanded and the remark is not. -/
theorem thread_counts_iff_nested :
    ∃ data, buildThreadPanelData 5 nestedReplies (some "root") none {"question"} = some data ∧
      data.totalReplyCount = 4 ∧
      (data.visibleReplies.map fun entry => entry.message.id) = ["question", "answer", "remark"] ∧
      CountsThread nestedReplies (some "root") data := by
  have hcounts := (thread_counts_iff nestedReplies (by decide) nestedReplies_acyclic (some "root")
    none {"question"}).mpr ?_
  · obtain ⟨data, hdata, hshown⟩ := Option.map_eq_some_iff.mp
      (show (buildThreadPanelData 5 nestedReplies (some "root") none {"question"}).map (fun data =>
        (data.totalReplyCount, data.visibleReplies.map fun entry => entry.message.id)) =
          some (4, ["question", "answer", "remark"]) by decide +kernel)
    obtain ⟨htotal, hvisible⟩ := Prod.mk.inj hshown
    exact ⟨data, hdata, htotal, hvisible, hcounts.2 5 data hdata⟩
  · rintro headId ⟨hhead, -, -⟩
    obtain rfl := Option.some.inj hhead
    have hquestion : Descends nestedReplies "root" (reply "question" 2 (some "root")) :=
      .direct (by simp [nestedReplies]) rfl
    refine Or.inr ⟨reply "question" 2 (some "root"), ?_, by decide⟩
    exact List.mem_filter.mpr ⟨hquestion.mem, by simpa using hquestion⟩

/-- A thread of one reply. -/
def oneReply (createdAt : ℤ) : List TimelineMessage :=
  [reply "root" 1 none, reply "answer" createdAt (some "root")]

theorem oneReply_acyclic (createdAt : ℤ) : Acyclic (oneReply createdAt) := by
  apply acyclic_of_rank fun id => if id = "root" then 0 else 1
  simp [oneReply, reply, TimelineMessage.parent?]

/-- The only reply is from before 1970, and the summary says that the latest one is from 1970. -/
theorem early_reply_misdated :
    ∃ data, buildThreadPanelData 1 (oneReply (-5)) (some "root") none ∅ = some data ∧
      (buildThreadSummaryFromVisibleEntries "root" data.visibleReplies).bind
        TimelineThreadSummary.lastReplyAt = some 0 ∧
      ((descendants (oneReply (-5)) "root").map TimelineMessage.createdAt).max? = some (-5) ∧
      ¬CountsThread (oneReply (-5)) (some "root") data := by
  have hanswer : Descends (oneReply (-5)) "root" (reply "answer" (-5) (some "root")) :=
    .direct (by simp [oneReply]) (by decide)
  have hdescendants : descendants (oneReply (-5)) "root" =
      [reply "answer" (-5) (some "root")] := by
    have hroot : ¬Descends (oneReply (-5)) "root" (reply "root" 1 none) :=
      oneReply_acyclic (-5) _ List.mem_cons_self
    unfold oneReply at hroot hanswer
    unfold descendants oneReply
    rw [List.filter_cons_of_neg (by simpa using hroot),
      List.filter_cons_of_pos (by simpa using hanswer), List.filter_nil]
  obtain ⟨data, hdata, hlast⟩ := Option.bind_eq_some_iff.mp
    (show ((buildThreadPanelData 1 (oneReply (-5)) (some "root") none ∅).bind fun data =>
      (buildThreadSummaryFromVisibleEntries "root" data.visibleReplies).bind
        TimelineThreadSummary.lastReplyAt) = some 0 by decide +kernel)
  have hmax : ((descendants (oneReply (-5)) "root").map TimelineMessage.createdAt).max? =
      some (-5) := by
    rw [hdescendants]
    rfl
  refine ⟨data, hdata, hlast, hmax, fun hcounts => ?_⟩
  have hclaimed := hcounts.lastReplyAt "root" ⟨rfl, by decide, by decide⟩
  rw [hlast, hmax] at hclaimed
  cases hclaimed

end Counts

end Buzz.Thread
