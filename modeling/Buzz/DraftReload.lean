import Buzz.DraftStore

/-!
# Drafts after a restart

A draft comes back from the storage when the reader accepts what JSON keeps of it
and its key is one that the reader looks at. Where only such drafts are saved, the
map in memory and the one that a restart would read agree after every operation.
-/

namespace Buzz.Drafts

open JsValue WebText

section Restart

/-- The drafts as a caller sees them. -/
def memory (s : DraftStore) : DraftMap := (readStore s).1

/-- The drafts that the module would read after a restart in the same workspace. -/
def reloaded (s : DraftStore) : DraftMap := (readStore { s with memCache := none }).1

def Survives (s : DraftStore) : Prop :=
  s.currentAgentId ≠ "" → ∀ key, (reloaded s).get? key = (memory s).get? key

/-- The reader looks at the key. -/
structure StorableKey (key : String) : Prop where
  notSent : isSentKey key = false
  notProto : key ≠ "__proto__"

def IsFinite (number : JsNumber) : Prop := ∃ value, number = .finite value

structure StorableMedia (media : ImetaMedia) : Prop where
  size : IsFinite media.size
  uploaded : IsFinite media.uploaded
  duration : ∀ duration, media.duration = some duration → IsFinite duration

def NamedRef (ref : DraftMentionRef) : Prop :=
  WebText.trim ref.displayName ≠ "" ∧ WebText.trim ref.pubkey ≠ ""

/-- The reader accepts what JSON keeps of the draft. -/
structure StorableDraft (draft : DraftState) : Prop where
  selectionStart : IsFinite draft.selectionStart
  selectionEnd : IsFinite draft.selectionEnd
  media : ∀ media ∈ draft.pendingImeta, StorableMedia media
  refs : ∃ refs, draft.mentionRefs = some refs ∧ ∀ ref ∈ refs, NamedRef ref
  status : draft.status = .active

/-- What a step saves, if anything. -/
def savedDraft (s : DraftStore) : DraftOp → Option (String × DraftState)
  | .save draftKey draft =>
      if WebText.trim draft.content = "" ∧ draft.pendingImeta = [] then none
      else some (draftKey, draft)
  | .persist draftKey content channelId pendingImeta spoileredAttachmentUrls mentionRefs now =>
      if WebText.trim content ≠ "" ∨ pendingImeta ≠ [] then
        some (draftKey, persistedDraft ((memory s).get? draftKey) content channelId pendingImeta
          spoileredAttachmentUrls mentionRefs now)
      else none
  | _ => none

/-- A step that saves or renames in a workspace does so as the reader expects. An agent is named by
its public key, which has no colon. -/
structure StorableStep (s : DraftStore) (op : DraftOp) : Prop where
  saved : s.currentAgentId ≠ "" → ∀ key draft, savedDraft s op = some (key, draft) →
    StorableKey key ∧ StorableDraft draft
  renamed : s.currentAgentId ≠ "" → ∀ oldKey newKey, op = .rename oldKey newKey →
    ((memory s).get? oldKey).isSome = true → StorableKey newKey
  agent : ∀ pubkey relayUrl, op = .init pubkey relayUrl → ':' ∉ pubkey.toList

/-- All steps of a run are such steps. -/
def StorableRun (browser : Browser) (s : DraftStore) : List DraftOp → Prop
  | [] => True
  | op :: ops => StorableStep s op ∧ StorableRun browser (step browser s op) ops

/-- All drafts stay, or a hundred of more, and none that stays is older than one that goes. -/
structure Evicts (browser : Browser) (before after : DraftMap) : Prop where
  length : after.entries.length = min maxDrafts before.entries.length
  kept : ∀ entry ∈ after.entries, entry ∈ before.entries
  oldest : ∀ entry ∈ before.entries, entry ∉ after.entries → ∀ left ∈ after.entries,
    browser.localeCompare (updatedAt entry.2) (updatedAt left.2) ≤ 0

/-- The legacy drafts of an agent have moved into its workspace, which had none. -/
structure Imported (s after : DraftStore) (agentId relayScope : String) : Prop where
  agent : agentId = after.currentAgentId
  legacy : relayScope = ""
  relay : after.currentRelayScope ≠ ""
  fresh : StoredText.isTruthy (s.localStorage after.storageKey) = false
  drafts : ∃ source, s.localStorage (bucketKey agentId "") = some source ∧
    memory after = readDrafts source ∧
    after.localStorage after.storageKey = some (.drafts (storedObject (readDrafts source)))
  gone : after.localStorage (bucketKey agentId "") = none

structure StepKept (browser : Browser) (s : DraftStore) (op : DraftOp) : Prop where
  survives : Survives (step browser s op)
  evicts : ∀ key draft, savedDraft s op = some (key, draft) →
    Evicts browser ((memory s).set key draft.toJs) (memory (step browser s op))
  stored : s.currentAgentId ≠ "" → (savedDraft s op).isSome = true →
    ∃ found, (step browser s op).localStorage s.storageKey = some (.drafts found) ∧
      found.entries.entries.length ≤ maxDrafts
  renamed : ∀ oldKey newKey, op = .rename oldKey newKey →
    ∀ key draft, (memory s).get? key = some draft →
      ∃ key' draft', (memory (step browser s op)).get? key' = some draft' ∧
        (key' = key ∨ key = oldKey ∧ key' = newKey) ∧
        (draft' = draft ∨ draftStatesEqual draft draft' = some true)
  apart : ∀ agentId relayScope, ':' ∉ agentId.toList →
    (agentId ≠ (step browser s op).currentAgentId ∨
      relayScope ≠ (step browser s op).currentRelayScope) →
    (step browser s op).localStorage (bucketKey agentId relayScope) =
        s.localStorage (bucketKey agentId relayScope) ∨
      (∃ pubkey relayUrl, op = .init pubkey relayUrl) ∧
        Imported s (step browser s op) agentId relayScope

/-- All steps of a run keep it. -/
def RunKept (browser : Browser) (s : DraftStore) : List DraftOp → Prop
  | [] => True
  | op :: ops => StepKept browser s op ∧ RunKept browser (step browser s op) ops

end Restart

section Kept

/-- A draft that the reader gives out, with all its members. -/
structure IsDraft (members : List (String × JsValue)) : Prop where
  types : hasDraftTypes members = true
  refs : ∃ refs, memberOf members "mentionRefs" = .array refs ∧ refs.all isValidRef = true
  active : memberOf members "status" = .string "active"

/-- A draft that comes back from the storage as it is. -/
structure Kept (draft : JsValue) : Prop where
  json : IsJson draft
  valid : isValidDraftState draft = some draft

theorem isValidDraftState_of_isDraft {members : List (String × JsValue)} (h : IsDraft members) :
    isValidDraftState (.object members) = some (.object members) := by
  obtain ⟨refs, hrefs, hvalid⟩ := h.refs
  have hmentions : checkMentionRefs members = some members := by
    rw [checkMentionRefs, hrefs]
    exact if_pos hvalid
  have hstatus : checkStatus members = some members := by
    rw [checkStatus, h.active]
    exact if_pos rfl
  rw [isValidDraftState, if_pos h.types, hmentions, Option.bind_some, hstatus, Option.map_some]

theorem hasDraftTypes_setMember {members : List (String × JsValue)} {name : String}
    {value : JsValue} (hname : name = "mentionRefs" ∨ name = "status") :
    hasDraftTypes (setMember members name value) = hasDraftTypes members := by
  unfold hasDraftTypes
  rcases hname with rfl | rfl <;> simp [memberOf_setMember]

theorem checkMentionRefs_spec {members checked : List (String × JsValue)}
    (h : checkMentionRefs members = some checked) :
    hasDraftTypes checked = hasDraftTypes members ∧
      (∃ refs, memberOf checked "mentionRefs" = .array refs ∧ refs.all isValidRef = true) ∧
      (IsJson (.object members) → IsJson (.object checked)) := by
  unfold checkMentionRefs at h
  split at h
  · cases h
    refine ⟨hasDraftTypes_setMember (Or.inl rfl), ⟨[], by simp [memberOf_setMember], rfl⟩, ?_⟩
    rw [isJson_object_iff, isJson_object_iff]
    exact fun hmembers => forall_mem_setMember hmembers rfl
  · rename_i refs hrefs
    split_ifs at h with hvalid
    cases h
    exact ⟨rfl, ⟨refs, hrefs, hvalid⟩, id⟩
  · cases h

theorem checkStatus_spec {members checked : List (String × JsValue)}
    (h : checkStatus members = some checked) :
    hasDraftTypes checked = hasDraftTypes members ∧
      memberOf checked "mentionRefs" = memberOf members "mentionRefs" ∧
      memberOf checked "status" = .string "active" ∧
      (IsJson (.object members) → IsJson (.object checked)) := by
  have hset : hasDraftTypes (setMember members "status" (.string "active")) =
        hasDraftTypes members ∧
      memberOf (setMember members "status" (.string "active")) "mentionRefs" =
        memberOf members "mentionRefs" ∧
      memberOf (setMember members "status" (.string "active")) "status" = .string "active" ∧
      (IsJson (.object members) →
        IsJson (.object (setMember members "status" (.string "active")))) := by
    refine ⟨hasDraftTypes_setMember (Or.inr rfl), by simp [memberOf_setMember],
      by simp [memberOf_setMember], ?_⟩
    rw [isJson_object_iff, isJson_object_iff]
    exact fun hmembers => forall_mem_setMember hmembers rfl
  unfold checkStatus at h
  split at h
  · cases h
    exact hset
  · cases h
    exact hset
  · rename_i status hstatus
    split_ifs at h with hactive
    cases h
    exact ⟨rfl, rfl, by rw [hstatus, hactive], id⟩
  · cases h

/-- What the reader accepts it accepts again, as it has filled it in. -/
theorem kept_of_isValidDraftState {value draft : JsValue} (hjson : IsJson value)
    (h : isValidDraftState value = some draft) : Kept draft := by
  unfold isValidDraftState at h
  split at h
  · rename_i members
    split_ifs at h with htypes
    obtain ⟨checked, hchecked, rfl⟩ := Option.map_eq_some_iff.mp h
    obtain ⟨mentioned, hmentions, hstatus⟩ := Option.bind_eq_some_iff.mp hchecked
    obtain ⟨htypes₁, hrefs, hjson₁⟩ := checkMentionRefs_spec hmentions
    obtain ⟨htypes₂, hsame, hactive, hjson₂⟩ := checkStatus_spec hstatus
    rw [← hsame] at hrefs
    exact ⟨hjson₂ (hjson₁ hjson), isValidDraftState_of_isDraft
      ⟨htypes₂.trans (htypes₁.trans htypes), hrefs, hactive⟩⟩
  · cases h

theorem forall_mem_optionalMember {P : JsValue → Prop} {name : String} {value : Option JsValue}
    (h : ∀ v, value = some v → P v) : ∀ member ∈ optionalMember name value, P member.2 := by
  intro member hmember
  cases value with
  | none => simp [optionalMember] at hmember
  | some v =>
    obtain rfl : member = (name, v) := by simpa [optionalMember] using hmember
    exact h v rfl

theorem isJson_number {number : JsNumber} (h : IsFinite number) : IsJson (.number number) := by
  obtain ⟨value, rfl⟩ := h
  rfl

theorem isJson_map {α : Type} {f : α → JsValue} (value : Option α)
    (h : ∀ a, value = some a → IsJson (f a)) : ∀ v, value.map f = some v → IsJson v := by
  intro v hv
  obtain ⟨a, ha, rfl⟩ := Option.map_eq_some_iff.mp hv
  exact h a ha

theorem isJson_media {media : ImetaMedia} (h : StorableMedia media) : IsJson media.toJs := by
  have htext : ∀ (name : String) (text : Option String),
      ∀ member ∈ optionalMember name (text.map JsValue.string), IsJson member.2 :=
    fun name text => forall_mem_optionalMember (isJson_map text fun _ _ => rfl)
  have hduration : ∀ member ∈ optionalMember "duration" (media.duration.map JsValue.number),
      IsJson member.2 :=
    forall_mem_optionalMember (isJson_map media.duration fun d hd =>
      isJson_number (h.duration d hd))
  rw [ImetaMedia.toJs, isJson_object_iff]
  simp only [List.forall_mem_append, List.forall_mem_cons]
  exact ⟨⟨⟨⟨⟨⟨⟨⟨rfl, rfl, isJson_number h.size, rfl, isJson_number h.uploaded, by simp⟩,
    htext _ _⟩, htext _ _⟩, htext _ _⟩, hduration⟩, htext _ _⟩, htext _ _⟩, htext _ _⟩

theorem isJson_draft {draft : DraftState} (h : StorableDraft draft) : IsJson draft.toJs := by
  have hmedia : IsJson (.array (draft.pendingImeta.map ImetaMedia.toJs)) := by
    rw [isJson_array_iff, List.forall_mem_map]
    exact fun media hmem => isJson_media (h.media media hmem)
  have hurls : IsJson (.array (draft.spoileredAttachmentUrls.map JsValue.string)) := by
    rw [isJson_array_iff, List.forall_mem_map]
    exact fun _ _ => rfl
  have hstatus : IsJson draft.status.toJs := by
    rw [h.status]
    rfl
  have hrefs : ∀ member ∈ optionalMember "mentionRefs"
      (draft.mentionRefs.map fun refs => JsValue.array (refs.map DraftMentionRef.toJs)),
      IsJson member.2 := by
    apply forall_mem_optionalMember
    apply isJson_map
    intro refs _
    rw [isJson_array_iff, List.forall_mem_map]
    exact fun _ _ => rfl
  rw [DraftState.toJs, isJson_object_iff]
  simp only [List.forall_mem_append, List.forall_mem_cons]
  exact ⟨⟨rfl, isJson_number h.selectionStart, isJson_number h.selectionEnd, rfl, rfl, rfl, hmedia,
    hurls, hstatus, by simp⟩, hrefs⟩

theorem isValidRef_toJs {ref : DraftMentionRef} (h : NamedRef ref) :
    isValidRef ref.toJs = true := by
  have hname : (ref.toJs.property "displayName").asString = some ref.displayName := rfl
  have hpubkey : (ref.toJs.property "pubkey").asString = some ref.pubkey := rfl
  have hagent : (ref.toJs.property "isAgent").isBool = true := rfl
  simp [isValidRef, hname, hpubkey, hagent, h.1, h.2]

/-- A draft that is saved as the reader expects comes back. -/
theorem kept_draft {draft : DraftState} (h : StorableDraft draft) : Kept draft.toJs := by
  obtain ⟨refs, hrefs, hnamed⟩ := h.refs
  refine ⟨isJson_draft h, isValidDraftState_of_isDraft
    ⟨rfl, ⟨refs.map DraftMentionRef.toJs, ?_, ?_⟩, ?_⟩⟩
  · rw [hrefs]
    rfl
  · rw [List.all_map, List.all_eq_true]
    exact fun ref hmem => isValidRef_toJs (hnamed ref hmem)
  · rw [h.status]
    rfl

end Kept

section Reload

variable {s : DraftStore} {map : DraftMap}

theorem objectEntries_perm (entries : List (String × JsValue)) :
    (objectEntries entries).Perm entries :=
  ((List.mergeSort_perm _ _).append_right _).trans (List.filter_append_perm _ entries)

theorem readEntry_eq_some_iff {entry read : String × JsValue} :
    readEntry entry = some read ↔
      isSentKey entry.1 = false ∧ read.1 = entry.1 ∧ isValidDraftState entry.2 = some read.2 := by
  unfold readEntry
  obtain ⟨key, value⟩ := entry
  obtain ⟨key', draft⟩ := read
  by_cases hsent : isSentKey key = true
  · simp [hsent]
  · rw [if_neg hsent, Option.map_eq_some_iff]
    constructor
    · rintro ⟨found, hfound, heq⟩
      cases heq
      exact ⟨eq_false_of_ne_true hsent, rfl, hfound⟩
    · rintro ⟨-, hkey, hfound⟩
      obtain rfl : key' = key := hkey
      exact ⟨draft, hfound, rfl⟩

theorem nodup_readEntries (map : DraftMap) :
    (((objectEntries map.entries).filterMap readEntry).map Prod.fst).Nodup := by
  have hperm := (objectEntries_perm map.entries).map Prod.fst
  have hnodup : ((objectEntries map.entries).map Prod.fst).Nodup := hperm.nodup_iff.mpr map.nodup
  generalize objectEntries map.entries = entries at hnodup ⊢
  clear hperm
  induction entries with
  | nil => exact List.nodup_nil
  | cons entry entries ih =>
    obtain ⟨hfresh, hrest⟩ := List.nodup_cons.mp hnodup
    cases hread : readEntry entry with
    | none =>
      rw [List.filterMap_cons_none hread]
      exact ih hrest
    | some read =>
      rw [List.filterMap_cons_some hread, List.map_cons, List.nodup_cons]
      refine ⟨?_, ih hrest⟩
      rw [(readEntry_eq_some_iff.mp hread).2.1]
      intro hmem
      obtain ⟨other, hother, hkey⟩ := List.mem_map.mp hmem
      obtain ⟨source, hsource, hfound⟩ := List.mem_filterMap.mp hother
      apply hfresh
      rw [← hkey, (readEntry_eq_some_iff.mp hfound).2.1]
      exact List.mem_map_of_mem hsource

/-- What is read of an object at each key. -/
theorem get?_readDrafts (found : StoredObject) (key : String) (draft : JsValue) :
    (readDrafts (.drafts found)).get? key = some draft ↔
      isSentKey key = false ∧ ∃ value, found.entries.get? key = some value ∧
        isValidDraftState value = some draft := by
  rw [readDrafts, EntryMap.get?_foldl_set _ _ _ (nodup_readEntries found.entries),
    EntryMap.get?_empty, List.mem_filterMap]
  simp only [(objectEntries_perm found.entries.entries).mem_iff, readEntry_eq_some_iff,
    EntryMap.get?_eq_some_iff]
  constructor
  · rintro (⟨⟨name, value⟩, hmem, hsent, hkey, hvalid⟩ | ⟨-, h⟩)
    · obtain rfl : key = name := hkey
      exact ⟨hsent, value, hmem, hvalid⟩
    · cases h
  · rintro ⟨hsent, value, hmem, hvalid⟩
    exact Or.inl ⟨(key, value), hmem, hsent, rfl, hvalid⟩

/-- Every entry comes back from the storage as it is. -/
def AllKept (map : DraftMap) : Prop :=
  ∀ entry ∈ map.entries, StorableKey entry.1 ∧ Kept entry.2

theorem allKept_readDrafts (source : StoredText) : AllKept (readDrafts source) := by
  rintro ⟨key, draft⟩ hmem
  cases source with
  | blank => cases hmem
  | foreign => cases hmem
  | drafts found =>
    obtain ⟨hsent, value, hvalue, hvalid⟩ :=
      (get?_readDrafts found key draft).mp (EntryMap.get?_eq_some_iff.mpr hmem)
    have hstored := EntryMap.get?_eq_some_iff.mp hvalue
    have hproto : key ≠ "__proto__" := found.named _ hstored
    exact ⟨⟨hsent, hproto⟩, kept_of_isValidDraftState (found.json _ hstored) hvalid⟩

/-- Drafts that are stored so come back. -/
theorem get?_readDrafts_storedObject (h : AllKept map) (key : String) :
    (readDrafts (.drafts (storedObject map))).get? key = map.get? key := by
  apply Option.ext
  intro draft
  have hstored : ∀ value, (storedObject map).entries.get? key = some value ↔
      map.get? key = some value := by
    intro value
    rw [EntryMap.get?_eq_some_iff, EntryMap.get?_eq_some_iff]
    constructor
    · intro hmem
      obtain ⟨⟨name, held⟩, hheld, heq⟩ := List.mem_map.mp hmem
      obtain ⟨rfl, rfl⟩ := Prod.mk.inj heq
      have hin := (List.mem_filter.mp hheld).1
      have hcarried : carried held = held := (h _ hin).2.json
      rw [hcarried]
      exact hin
    · intro hmem
      obtain ⟨hkey, hkept⟩ := h _ hmem
      have hcarried : carried value = value := hkept.json
      exact List.mem_map.mpr ⟨(key, value), List.mem_filter.mpr
        ⟨hmem, by simpa using hkey.notProto⟩, by rw [hcarried]⟩
  rw [get?_readDrafts]
  simp only [hstored]
  constructor
  · rintro ⟨-, value, hvalue, hvalid⟩
    have hkept := (h _ (EntryMap.get?_eq_some_iff.mp hvalue)).2.valid
    rw [hvalue, ← hvalid, hkept]
  · intro hvalue
    obtain ⟨hkey, hkept⟩ := h _ (EntryMap.get?_eq_some_iff.mp hvalue)
    exact ⟨hkey.notSent, draft, hvalue, hkept.valid⟩

theorem allKept_empty : AllKept EntryMap.empty := by
  intro entry hmem
  cases hmem

/-- What reading does to the storage: nothing, or the import of the legacy drafts. -/
theorem readStore_of_none (hcache : s.memCache = none) (hagent : s.currentAgentId ≠ "") :
    AllKept (reloaded s) ∧
      ((readStore s).2 = { s with memCache := some (reloaded s) } ∨
        ∃ source, s.currentRelayScope ≠ "" ∧ s.localStorage s.storageKey = none ∧
          s.localStorage s.legacyStorageKey = some source ∧ reloaded s = readDrafts source ∧
          (readStore s).2 =
            { s with
              memCache := some (readDrafts source)
              localStorage :=
                Function.update (Function.update s.localStorage s.storageKey
                  (some (.drafts (storedObject (readDrafts source)))))
                  s.legacyStorageKey none }) := by
  have hself : { s with memCache := none } = s := by
    cases s
    cases hcache
    rfl
  rw [reloaded, hself]
  unfold readStore
  rw [hcache]
  simp only [if_neg hagent]
  cases hraw : s.localStorage s.storageKey with
  | some raw =>
    rw [Option.some_or]
    cases raw with
    | blank => exact ⟨allKept_empty, Or.inl rfl⟩
    | foreign | drafts found =>
      have hlegacy : s.legacyRaw = none := by simp [DraftStore.legacyRaw, hraw, StoredText.isTruthy]
      rw [hlegacy]
      exact ⟨allKept_readDrafts _, Or.inl rfl⟩
  | none =>
    rw [Option.none_or]
    by_cases hrelay : s.currentRelayScope = ""
    · have hlegacy : s.legacyRaw = none := by simp [DraftStore.legacyRaw, hrelay]
      rw [hlegacy]
      exact ⟨allKept_empty, Or.inl rfl⟩
    · have hlegacy : s.legacyRaw = s.localStorage s.legacyStorageKey := by
        simp [DraftStore.legacyRaw, hraw, StoredText.isTruthy, hrelay]
      rw [hlegacy]
      cases hsource : s.localStorage s.legacyStorageKey with
      | none => exact ⟨allKept_empty, Or.inl rfl⟩
      | some source =>
        have himport : flushStore (readDrafts source)
          { s with memCache := some (readDrafts source) } =
            { s with
              memCache := some (readDrafts source)
              localStorage := Function.update s.localStorage s.storageKey
                (some (.drafts (storedObject (readDrafts source)))) } := by
          rw [flushStore, if_neg hagent]
          rfl
        cases source with
        | blank => exact ⟨allKept_empty, Or.inl rfl⟩
        | foreign | drafts found =>
            exact ⟨allKept_readDrafts _, Or.inr ⟨_, hrelay, rfl, rfl, rfl, by
            simp only [himport, Option.isSome_some, if_true]⟩⟩

end Reload

section Eviction

variable (browser : Browser) (map : DraftMap)

theorem evictionOrder_perm : (evictionOrder browser map.entries).Perm map.entries :=
  List.mergeSort_perm _ _

theorem evictionOrder_sorted :
    (evictionOrder browser map.entries).Pairwise fun a b =>
      browser.localeCompare (updatedAt a.2) (updatedAt b.2) ≤ 0 := by
  have hsorted := @List.pairwise_mergeSort _
    (fun a b : String × JsValue =>
      decide (browser.localeCompare (updatedAt a.2) (updatedAt b.2) ≤ 0))
    (fun a b c hab hbc => by
      rw [decide_eq_true_eq] at *
      exact browser.compare_trans _ _ _ hab hbc)
    (fun a b => by
      rw [Bool.or_eq_true, decide_eq_true_eq, decide_eq_true_eq]
      exact browser.compare_total _ _)
    map.entries
  exact hsorted.imp fun h => of_decide_eq_true h

theorem mem_evictOldest (hfull : ¬map.entries.length ≤ maxDrafts) (entry : String × JsValue) :
    entry ∈ (evictOldest browser map).entries ↔
      entry ∈ (evictionOrder browser map.entries).drop (map.entries.length - maxDrafts) := by
  have hperm := evictionOrder_perm browser map
  have hkeys : ((evictionOrder browser map.entries).map Prod.fst).Nodup :=
    (hperm.map Prod.fst).nodup_iff.mpr map.nodup
  rw [evictOldest, if_neg hfull, EntryMap.mem_foldl_erase, ← hperm.mem_iff]
  generalize evictionOrder browser map.entries = order at hkeys ⊢
  generalize map.entries.length - maxDrafts = excess
  rw [← List.take_append_drop excess order, List.map_append] at hkeys
  have hdisjoint := (List.nodup_append'.mp hkeys).2.2
  constructor
  · rintro ⟨hmem, hnew⟩
    rw [← List.take_append_drop excess order, List.mem_append] at hmem
    exact hmem.resolve_left fun htaken => hnew (List.mem_map_of_mem htaken)
  · intro hmem
    exact ⟨List.mem_of_mem_drop hmem, fun htaken => hdisjoint htaken (List.mem_map_of_mem hmem)⟩

theorem evicts_evictOldest : Evicts browser map (evictOldest browser map) := by
  by_cases hfull : map.entries.length ≤ maxDrafts
  · have hsame : evictOldest browser map = map := if_pos hfull
    rw [hsame]
    exact ⟨(min_eq_right hfull).symm, fun _ hmem => hmem, fun _ hmem hgone => absurd hmem hgone⟩
  · have hperm := evictionOrder_perm browser map
    have hmem := mem_evictOldest browser map hfull
    have hsorted := evictionOrder_sorted browser map
    have hentries : (evictOldest browser map).entries.Perm
        ((evictionOrder browser map.entries).drop (map.entries.length - maxDrafts)) :=
      (List.perm_ext_iff_of_nodup (evictOldest browser map).nodup.of_map
        ((hperm.nodup_iff.mpr map.nodup.of_map).sublist (List.drop_sublist _ _))).mpr hmem
    refine ⟨?_, ?_, ?_⟩
    · rw [hentries.length_eq, List.length_drop, hperm.length_eq]
      omega
    · intro entry hentry
      exact hperm.mem_iff.mp (List.mem_of_mem_drop ((hmem entry).mp hentry))
    · intro entry hentry hgone left hleft
      rw [hmem] at hgone hleft
      rw [← hperm.mem_iff] at hentry
      generalize evictionOrder browser map.entries = order at hsorted hentry hgone hleft
      generalize map.entries.length - maxDrafts = excess at hgone hleft
      rw [← List.take_append_drop excess order, List.mem_append] at hentry
      rw [← List.take_append_drop excess order, List.pairwise_append] at hsorted
      exact hsorted.2.2 entry (hentry.resolve_right hgone) left hleft

end Eviction

section Steps

variable {browser : Browser} {s : DraftStore} {map : DraftMap} {op : DraftOp}

theorem readStore_of_some (h : s.memCache = some map) : readStore s = (map, s) := by
  unfold readStore
  rw [h]

theorem readStore_of_noAgent (hagent : s.currentAgentId = "") :
    (readStore s).2.localStorage = s.localStorage := by
  unfold readStore
  cases s.memCache with
  | some map => rfl
  | none => simp only [if_pos hagent]

theorem readStore_fields (s : DraftStore) :
    (readStore s).2.currentAgentId = s.currentAgentId ∧
      (readStore s).2.currentRelayScope = s.currentRelayScope ∧
      (readStore s).2.memCache = some (memory s) := by
  cases hcache : s.memCache with
  | some map =>
    rw [memory, readStore_of_some hcache]
    exact ⟨rfl, rfl, hcache⟩
  | none =>
    by_cases hagent : s.currentAgentId = ""
    · unfold memory readStore
      rw [hcache]
      simp only [if_pos hagent, and_self]
    · have hmemory : memory s = reloaded s := by
        rw [reloaded, memory, ← hcache]
      obtain ⟨-, hsame | ⟨source, -, -, -, hread, himport⟩⟩ := readStore_of_none hcache hagent
      · rw [hsame, hmemory]
        exact ⟨rfl, rfl, rfl⟩
      · rw [himport, hmemory, hread]
        exact ⟨rfl, rfl, rfl⟩

theorem readStore_eq (s : DraftStore) : readStore s = (memory s, (readStore s).2) := rfl

theorem readStore_twice (s : DraftStore) :
    readStore (readStore s).2 = (memory s, (readStore s).2) :=
  readStore_of_some (readStore_fields s).2.2

theorem memory_readStore (s : DraftStore) : memory (readStore s).2 = memory s := by
  rw [memory, readStore_twice]

theorem putDrafts_fields (map : DraftMap) (s : DraftStore) :
    (putDrafts map s).currentAgentId = s.currentAgentId ∧
      (putDrafts map s).currentRelayScope = s.currentRelayScope ∧
      (putDrafts map s).memCache = some map := by
  unfold putDrafts flushStore
  split_ifs <;> exact ⟨rfl, rfl, rfl⟩

theorem memory_putDrafts (map : DraftMap) (s : DraftStore) : memory (putDrafts map s) = map := by
  rw [memory, readStore_of_some (putDrafts_fields map s).2.2]

theorem putDrafts_localStorage (hagent : s.currentAgentId ≠ "") :
    (putDrafts map s).localStorage =
      Function.update s.localStorage s.storageKey (some (.drafts (storedObject map))) := by
  rw [putDrafts, flushStore, if_neg hagent]
  rfl

theorem putDrafts_of_noAgent (hagent : s.currentAgentId = "") :
    (putDrafts map s).localStorage = s.localStorage := by
  rw [putDrafts, flushStore, if_pos hagent]

/-- What a step makes of the drafts in memory. -/
inductive Change (browser : Browser) (s : DraftStore) : DraftOp → DraftMap → Prop
  | saved {op : DraftOp} {key : String} {draft : DraftState}
      (hsaved : savedDraft s op = some (key, draft)) :
      Change browser s op (evictOldest browser ((memory s).set key draft.toJs))
  | cleared {op : DraftOp} {key : String} (hsaved : savedDraft s op = none)
      (hrename : ∀ oldKey newKey, op ≠ .rename oldKey newKey) :
      Change browser s op ((memory s).erase key)
  | collapsed {oldKey newKey : String} {existing destination : JsValue} (hne : oldKey ≠ newKey)
      (hold : (memory s).get? oldKey = some existing)
      (hnew : (memory s).get? newKey = some destination)
      (hequal : draftStatesEqual existing destination = some true) :
      Change browser s (.rename oldKey newKey) ((memory s).erase oldKey)
  | moved {oldKey newKey : String} {existing : JsValue} (hne : oldKey ≠ newKey)
      (hold : (memory s).get? oldKey = some existing) (hnew : (memory s).get? newKey = none) :
      Change browser s (.rename oldKey newKey) (((memory s).set newKey existing).erase oldKey)

/-- What a step does. -/
inductive Outcome (browser : Browser) (s : DraftStore) (op : DraftOp) : DraftStore → Prop
  | same (hsaved : savedDraft s op = none) : Outcome browser s op s
  | read (hsaved : savedDraft s op = none) : Outcome browser s op (readStore s).2
  | put {map : DraftMap} (hchange : Change browser s op map) :
      Outcome browser s op (putDrafts map (readStore s).2)
  | left (hop : op = .clearAll) : Outcome browser s op (clearAllDrafts s)
  | entered {pubkey relayUrl : String} (hop : op = .init pubkey relayUrl) :
      Outcome browser s op (initDraftStore browser pubkey relayUrl s)

theorem clear_outcome (key : String) (hsaved : savedDraft s op = none)
    (hrename : ∀ oldKey newKey, op ≠ .rename oldKey newKey) :
    Outcome browser s op (clearDraftEntry key s) := by
  rw [clearDraftEntry, readStore_eq]
  dsimp only
  by_cases hhas : ((memory s).get? key).isSome = true
  · rw [if_pos hhas]
    exact Outcome.put (Change.cleared hsaved hrename)
  · rw [if_neg hhas]
    exact Outcome.read hsaved

theorem saveDraftEntry_of_content {key : String} {draft : DraftState}
    (hcontent : ¬(WebText.trim draft.content = "" ∧ draft.pendingImeta = [])) :
    saveDraftEntry browser key draft s =
      putDrafts (evictOldest browser ((memory s).set key draft.toJs)) (readStore s).2 :=
  if_neg hcontent

theorem rename_outcome (oldKey newKey : String) :
    Outcome browser s (.rename oldKey newKey) (renameDraftEntry oldKey newKey s).2 := by
  by_cases hne : oldKey = newKey
  · rw [renameDraftEntry, if_pos hne]
    exact Outcome.same rfl
  · rw [renameDraftEntry, if_neg hne, readStore_eq]
    dsimp only
    cases hold : (memory s).get? oldKey with
    | none => exact Outcome.read rfl
    | some existing =>
      cases hnew : (memory s).get? newKey with
      | none => exact Outcome.put (Change.moved hne hold hnew)
      | some destination =>
        cases hequal : draftStatesEqual existing destination with
        | none =>
          simp only [hequal]
          exact Outcome.read rfl
        | some equal =>
          simp only [hequal]
          cases equal with
          | false => exact Outcome.read rfl
          | true => exact Outcome.put (Change.collapsed hne hold hnew hequal)

theorem persist_outcome (key content channelId : String) (pendingImeta : List ImetaMedia)
    (spoileredAttachmentUrls : List String) (mentionRefs : List DraftMentionRef) (now : String) :
    Outcome browser s
      (.persist key content channelId pendingImeta spoileredAttachmentUrls mentionRefs now)
      (persistDraftEntry browser key content channelId pendingImeta spoileredAttachmentUrls
        mentionRefs now s) := by
  by_cases hcontent : WebText.trim content ≠ "" ∨ pendingImeta ≠ []
  · have hnotBlank : ¬(WebText.trim content = "" ∧ pendingImeta = []) := by
      rintro ⟨htext, hmedia⟩
      exact hcontent.elim (fun h => h htext) fun h => h hmedia
    rw [persistDraftEntry, if_pos hcontent, readStore_eq]
    dsimp only
    rw [saveDraftEntry_of_content, memory_readStore, readStore_twice]
    · exact Outcome.put (Change.saved (if_pos hcontent))
    · exact hnotBlank
  · rw [persistDraftEntry, if_neg hcontent]
    exact clear_outcome key (if_neg hcontent) (fun _ _ => DraftOp.noConfusion)

theorem step_outcome (browser : Browser) (s : DraftStore) (op : DraftOp) :
    Outcome browser s op (step browser s op) := by
  cases op with
  | save key draft =>
    by_cases hcontent : WebText.trim draft.content = "" ∧ draft.pendingImeta = []
    · rw [step, saveDraftEntry, if_pos hcontent]
      exact Outcome.same (if_pos hcontent)
    · rw [step, saveDraftEntry_of_content hcontent]
      exact Outcome.put (Change.saved (if_neg hcontent))
  | persist key content channelId pendingImeta spoileredAttachmentUrls mentionRefs now =>
    exact persist_outcome key content channelId pendingImeta spoileredAttachmentUrls mentionRefs now
  | clear key => exact clear_outcome key rfl (fun _ _ => DraftOp.noConfusion)
  | rename oldKey newKey => exact rename_outcome oldKey newKey
  | clearAll => exact Outcome.left rfl
  | init pubkey relayUrl => exact Outcome.entered rfl

end Steps

section Buckets

theorem append_cons_inj {α : Type} {sep : α} {before before' after after' : List α}
    (hfree : sep ∉ after) (hfree' : sep ∉ after')
    (h : before ++ sep :: after = before' ++ sep :: after') :
    before = before' ∧ after = after' := by
  rcases List.append_eq_append_iff.mp h with ⟨rest, hbefore, hafter⟩ | ⟨rest, hbefore, hafter⟩
  · cases rest with
    | nil => simp_all
    | cons first rest =>
      obtain ⟨-, htail⟩ := List.cons.inj hafter
      exact absurd (by simp [htail]) hfree
  · cases rest with
    | nil => simp_all
    | cons first rest =>
      obtain ⟨-, htail⟩ := List.cons.inj hafter
      exact absurd (by simp [htail]) hfree'

variable {agentId agentId' relayScope relayScope' : String}

/-- Two workspaces of agents without a colon have two items. -/
theorem bucketKey_inj (hagent : ':' ∉ agentId.toList) (hagent' : ':' ∉ agentId'.toList)
    (h : bucketKey agentId relayScope = bucketKey agentId' relayScope') :
    agentId = agentId' ∧ relayScope = relayScope' := by
  have hchars := congrArg String.toList h
  unfold bucketKey at hchars
  split_ifs at hchars with hrelay hrelay' hrelay'
  · simp only [String.toList_append, List.append_assoc] at hchars
    obtain ⟨hscope, hname⟩ := append_cons_inj hagent hagent' (List.append_cancel_left hchars)
    exact ⟨String.toList_inj.mp hname, String.toList_inj.mp hscope⟩
  · simp at hchars
  · simp at hchars
  · rw [String.toList_append, String.toList_append] at hchars
    push Not at hrelay hrelay'
    exact ⟨String.toList_inj.mp (List.append_cancel_left hchars), hrelay.trans hrelay'.symm⟩

end Buckets

section Invariant

variable {browser : Browser} {s : DraftStore} {map : DraftMap} {op : DraftOp}

/-- The drafts of a workspace are in memory, and all of them would come back. -/
structure Sound (s : DraftStore) : Prop where
  named : ':' ∉ s.currentAgentId.toList
  cached : s.currentAgentId ≠ "" → s.memCache = some (memory s)
  kept : s.currentAgentId ≠ "" → AllKept (memory s)
  survives : Survives s

theorem Sound.readStore_eq (h : Sound s) (hagent : s.currentAgentId ≠ "") :
    (readStore s).2 = s := by
  rw [readStore_of_some (h.cached hagent)]

theorem Sound.of_noAgent (hagent : s.currentAgentId = "") : Sound s where
  named := by
    rw [hagent]
    decide
  cached hne := absurd hagent hne
  kept hne := absurd hagent hne
  survives hne := absurd hagent hne

theorem Sound.readStore (h : Sound s) : Sound (readStore s).2 := by
  by_cases hagent : s.currentAgentId = ""
  · exact Sound.of_noAgent ((readStore_fields s).1.trans hagent)
  · rw [h.readStore_eq hagent]
    exact h

theorem reloaded_of_stored {found : StoredObject} (hagent : s.currentAgentId ≠ "")
    (hstored : s.localStorage s.storageKey = some (.drafts found)) :
    reloaded s = readDrafts (.drafts found) := by
  have hkey : ({ s with memCache := none } : DraftStore).storageKey = s.storageKey := rfl
  unfold reloaded readStore
  simp only [if_neg hagent, hkey, hstored, Option.some_or]
  split_ifs <;> rfl

theorem sound_of_stored (hnamed : ':' ∉ s.currentAgentId.toList) (hcache : s.memCache = some map)
    (hkept : AllKept map)
    (hstored : s.currentAgentId ≠ "" →
      s.localStorage s.storageKey = some (.drafts (storedObject map))) : Sound s := by
  have hmemory : memory s = map := by rw [memory, readStore_of_some hcache]
  refine ⟨hnamed, fun _ => hcache.trans (congrArg some hmemory.symm), fun _ => ?_, ?_⟩
  · rw [hmemory]
    exact hkept
  · intro hagent key
    rw [hmemory, reloaded_of_stored hagent (hstored hagent)]
    exact get?_readDrafts_storedObject hkept key

theorem sound_putDrafts (hnamed : ':' ∉ s.currentAgentId.toList)
    (hkept : s.currentAgentId ≠ "" → AllKept map) : Sound (putDrafts map s) := by
  obtain ⟨hagent, hrelay, hcache⟩ := putDrafts_fields map s
  by_cases hempty : s.currentAgentId = ""
  · exact Sound.of_noAgent (hagent.trans hempty)
  · apply sound_of_stored (hagent ▸ hnamed) hcache (hkept hempty)
    intro _
    rw [DraftStore.storageKey, hagent, hrelay, putDrafts_localStorage hempty]
    exact Function.update_self _ _ _

theorem storageKey_ne_legacy (hrelay : s.currentRelayScope ≠ "") :
    s.storageKey ≠ s.legacyStorageKey := by
  intro h
  have hchars := congrArg String.toList h
  simp [DraftStore.storageKey, DraftStore.legacyStorageKey, bucketKey, hrelay] at hchars

/-- Entering a workspace reads what is in the storage. -/
theorem sound_read (hcache : s.memCache = none) (hnamed : ':' ∉ s.currentAgentId.toList) :
    Sound (Drafts.readStore s).2 := by
  by_cases hagent : s.currentAgentId = ""
  · exact Sound.of_noAgent ((readStore_fields s).1.trans hagent)
  · obtain ⟨hkept, hsame | ⟨source, hrelay, -, -, hread, himport⟩⟩ :=
      readStore_of_none hcache hagent
    · rw [hsame]
      exact ⟨hnamed, fun _ => rfl, fun _ => hkept, fun _ _ => rfl⟩
    · rw [hread] at hkept
      rw [himport]
      refine sound_of_stored ?_ rfl hkept fun _ => ?_
      · exact hnamed
      change Function.update (Function.update s.localStorage s.storageKey _) s.legacyStorageKey none
        s.storageKey = _
      rw [Function.update_of_ne (storageKey_ne_legacy hrelay), Function.update_self]

theorem sound_init (pubkey relayUrl : String) (h : Sound s) (hnamed : ':' ∉ pubkey.toList) :
    Sound (initDraftStore browser pubkey relayUrl s) := by
  unfold initDraftStore
  dsimp only
  split_ifs with hmoved
  · exact sound_read rfl hnamed
  · push Not at hmoved
    obtain ⟨hagent, hrelay⟩ := hmoved
    rw [← hagent, ← hrelay]
    exact h.readStore

theorem AllKept.set {key : String} {draft : JsValue} (h : AllKept map) (hkey : StorableKey key)
    (hdraft : Kept draft) : AllKept (map.set key draft) := by
  rintro ⟨other, held⟩ hmem
  rcases EntryMap.mem_set.mp hmem with ⟨rfl, rfl⟩ | ⟨-, hheld⟩
  · exact ⟨hkey, hdraft⟩
  · exact h _ hheld

theorem AllKept.erase (h : AllKept map) (key : String) : AllKept (map.erase key) :=
  fun entry hmem => h entry (EntryMap.mem_erase.mp hmem).1

theorem AllKept.evictOldest (h : AllKept map) (browser : Browser) :
    AllKept (evictOldest browser map) :=
  fun entry hmem => h entry ((evicts_evictOldest browser map).kept entry hmem)

theorem allKept_change (h : AllKept (memory s)) (hagent : s.currentAgentId ≠ "")
    (hstep : StorableStep s op) (hchange : Change browser s op map) : AllKept map := by
  cases hchange with
  | saved hsaved =>
    obtain ⟨hkey, hdraft⟩ := hstep.saved hagent _ _ hsaved
    exact (h.set hkey (kept_draft hdraft)).evictOldest browser
  | cleared hsaved hrename | collapsed hne hold hnew hequal => exact h.erase _
  | moved hne hold hnew =>
    have hkey := hstep.renamed hagent _ _ rfl (Option.isSome_iff_exists.mpr ⟨_, hold⟩)
    exact (h.set hkey (h _ (EntryMap.get?_eq_some_iff.mp hold)).2).erase _

/-- A step that the reader expects keeps the invariant. -/
theorem sound_step (h : Sound s) (hstep : StorableStep s op) : Sound (step browser s op) := by
  have houtcome := step_outcome browser s op
  generalize step browser s op = after at houtcome
  cases houtcome with
  | same hsaved => exact h
  | read hsaved => exact h.readStore
  | put hchange =>
    have hagent := (readStore_fields s).1
    apply sound_putDrafts
    · rw [hagent]
      exact h.named
    · rw [hagent]
      intro hne
      exact allKept_change (h.kept hne) hne hstep hchange
  | left hop => exact Sound.of_noAgent rfl
  | entered hop => exact sound_init _ _ h (hstep.agent _ _ hop)

theorem sound_loaded (localStorage : String → Option StoredText) : Sound (loaded localStorage) :=
  Sound.of_noAgent rfl

end Invariant

section Conditions

variable {browser : Browser} {s : DraftStore} {op : DraftOp}

theorem step_of_saved {key : String} {draft : DraftState}
    (hsaved : savedDraft s op = some (key, draft)) :
    step browser s op =
      putDrafts (evictOldest browser ((memory s).set key draft.toJs)) (readStore s).2 := by
  have houtcome := step_outcome browser s op
  generalize step browser s op = after at houtcome ⊢
  cases houtcome with
  | same hnone | read hnone => exact absurd (hsaved.symm.trans hnone) (Option.some_ne_none _)
  | put hchange =>
    cases hchange with
    | saved hheld =>
      rw [hsaved] at hheld
      cases hheld
      rfl
    | cleared hnone => exact absurd (hsaved.symm.trans hnone) (Option.some_ne_none _)
    | collapsed | moved => cases hsaved
  | left hop | entered hop => rw [hop] at hsaved; cases hsaved

theorem evicts_step {key : String} {draft : DraftState}
    (hsaved : savedDraft s op = some (key, draft)) :
    Evicts browser ((memory s).set key draft.toJs) (memory (step browser s op)) := by
  rw [step_of_saved hsaved, memory_putDrafts]
  exact evicts_evictOldest browser _

theorem stored_step (hagent : s.currentAgentId ≠ "") {key : String} {draft : DraftState}
    (hsaved : savedDraft s op = some (key, draft)) :
    ∃ found, (step browser s op).localStorage s.storageKey = some (.drafts found) ∧
      found.entries.entries.length ≤ maxDrafts := by
  obtain ⟨hagent', hrelay, -⟩ := readStore_fields s
  have hkey : (readStore s).2.storageKey = s.storageKey := by
    rw [DraftStore.storageKey, hagent', hrelay, DraftStore.storageKey]
  rw [step_of_saved hsaved, putDrafts_localStorage (by rwa [hagent']), hkey]
  refine ⟨_, Function.update_self _ _ _, ?_⟩
  change (List.map _ (List.filter _ _)).length ≤ maxDrafts
  rw [List.length_map]
  exact (List.length_filter_le _ _).trans
    ((evicts_evictOldest browser _).length.trans_le (min_le_left _ _))

/-- After a rename the drafts of both keys are there. -/
theorem renamed_step {oldKey newKey key : String} {draft : JsValue}
    (hheld : (memory s).get? key = some draft) :
    ∃ key' draft', (memory (step browser s (.rename oldKey newKey))).get? key' = some draft' ∧
      (key' = key ∨ key = oldKey ∧ key' = newKey) ∧
      (draft' = draft ∨ draftStatesEqual draft draft' = some true) := by
  have houtcome := step_outcome browser s (.rename oldKey newKey)
  generalize step browser s (.rename oldKey newKey) = after at houtcome
  cases houtcome with
  | same => exact ⟨key, draft, hheld, Or.inl rfl, Or.inl rfl⟩
  | read =>
    rw [memory_readStore]
    exact ⟨key, draft, hheld, Or.inl rfl, Or.inl rfl⟩
  | put hchange =>
    rw [memory_putDrafts]
    cases hchange with
    | saved hsaved => cases hsaved
    | cleared _ hrename => exact absurd rfl (hrename oldKey newKey)
    | @collapsed _ _ existing destination hne hold hnew hequal =>
      by_cases hkey : key = oldKey
      · subst hkey
        rw [hheld] at hold
        cases hold
        refine ⟨newKey, destination, ?_, Or.inr ⟨rfl, rfl⟩, Or.inr hequal⟩
        rw [EntryMap.get?_erase, if_neg (Ne.symm hne)]
        exact hnew
      · refine ⟨key, draft, ?_, Or.inl rfl, Or.inl rfl⟩
        rw [EntryMap.get?_erase, if_neg hkey]
        exact hheld
    | @moved _ _ existing hne hold hnew =>
      by_cases hkey : key = oldKey
      · subst hkey
        rw [hheld] at hold
        cases hold
        refine ⟨newKey, draft, ?_, Or.inr ⟨rfl, rfl⟩, Or.inl rfl⟩
        rw [EntryMap.get?_erase, if_neg (Ne.symm hne), EntryMap.get?_set, if_pos rfl]
      · have hother : key ≠ newKey := by
          rintro rfl
          rw [hnew] at hheld
          cases hheld
        refine ⟨key, draft, ?_, Or.inl rfl, Or.inl rfl⟩
        rw [EntryMap.get?_erase, if_neg hkey, EntryMap.get?_set, if_neg hother]
        exact hheld
  | left hop => cases hop
  | entered hop => cases hop

/-- Reading changes the items of other workspaces only by the import. -/
theorem apart_readStore (hnamed : ':' ∉ s.currentAgentId.toList) {agentId relayScope : String}
    (hfree : ':' ∉ agentId.toList)
    (hother : agentId ≠ s.currentAgentId ∨ relayScope ≠ s.currentRelayScope) :
    (readStore s).2.localStorage (bucketKey agentId relayScope) =
        s.localStorage (bucketKey agentId relayScope) ∨
      Imported s (readStore s).2 agentId relayScope := by
  by_cases hagent : s.currentAgentId = ""
  · exact Or.inl (by rw [readStore_of_noAgent hagent])
  cases hcache : s.memCache with
  | some map => exact Or.inl (by rw [readStore_of_some hcache])
  | none =>
    obtain ⟨-, hsame | ⟨source, hrelay, hraw, hlegacy, -, himport⟩⟩ :=
      readStore_of_none hcache hagent
    · exact Or.inl (by rw [hsame])
    · have hne : bucketKey agentId relayScope ≠ s.storageKey := by
        intro h
        obtain ⟨hagent, hscope⟩ := bucketKey_inj hfree hnamed h
        exact hother.elim (fun h => h hagent) fun h => h hscope
      by_cases hkey : bucketKey agentId relayScope = s.legacyStorageKey
      · obtain ⟨rfl, rfl⟩ := bucketKey_inj hfree hnamed hkey
        right
        rw [himport]
        exact
          { agent := rfl
            legacy := rfl
            relay := hrelay
            fresh := by
              change StoredText.isTruthy (s.localStorage s.storageKey) = false
              rw [hraw]
              rfl
            drafts := ⟨source, hlegacy, rfl, by
              change Function.update (Function.update s.localStorage s.storageKey _)
                s.legacyStorageKey none s.storageKey = _
              rw [Function.update_of_ne (storageKey_ne_legacy hrelay), Function.update_self]⟩
            gone := Function.update_self _ _ _ }
      · left
        rw [himport]
        exact (Function.update_of_ne hkey _ _).trans (Function.update_of_ne hne _ _)

theorem readStore_localStorage (h : Sound s) : (readStore s).2.localStorage = s.localStorage := by
  by_cases hagent : s.currentAgentId = ""
  · exact readStore_of_noAgent hagent
  · rw [h.readStore_eq hagent]

theorem apart_step (h : Sound s) (hstep : StorableStep s op) {agentId relayScope : String}
    (hfree : ':' ∉ agentId.toList)
    (hother : agentId ≠ (step browser s op).currentAgentId ∨
      relayScope ≠ (step browser s op).currentRelayScope) :
    (step browser s op).localStorage (bucketKey agentId relayScope) =
        s.localStorage (bucketKey agentId relayScope) ∨
      (∃ pubkey relayUrl, op = .init pubkey relayUrl) ∧
        Imported s (step browser s op) agentId relayScope := by
  have houtcome := step_outcome browser s op
  generalize step browser s op = after at houtcome hother ⊢
  obtain ⟨hagent, hrelay, -⟩ := readStore_fields s
  cases houtcome with
  | same => exact Or.inl rfl
  | read => exact Or.inl (by rw [readStore_localStorage h])
  | @put map =>
    obtain ⟨hagent', hrelay', -⟩ := putDrafts_fields map (readStore s).2
    rw [hagent', hrelay', hagent, hrelay] at hother
    left
    rw [← readStore_localStorage h]
    by_cases hempty : s.currentAgentId = ""
    · rw [putDrafts_of_noAgent (hagent.trans hempty)]
    · rw [putDrafts_localStorage (by rwa [hagent]), DraftStore.storageKey, hagent, hrelay]
      apply Function.update_of_ne
      intro hkey
      obtain ⟨heq, hscope⟩ := bucketKey_inj hfree h.named hkey
      exact hother.elim (fun hne => hne heq) fun hne => hne hscope
  | left => exact Or.inl rfl
  | @entered pubkey relayUrl hop =>
    unfold initDraftStore at hother ⊢
    dsimp only at hother ⊢
    generalize (if s.currentAgentId ≠ pubkey ∨
      s.currentRelayScope ≠ canonicalizeRelayScope browser relayUrl then none
      else s.memCache) = memCache at hother ⊢
    obtain ⟨hagent', hrelay', -⟩ := readStore_fields
      { s with
        currentAgentId := pubkey
        currentRelayScope := canonicalizeRelayScope browser relayUrl
        memCache := memCache }
    rw [hagent', hrelay'] at hother
    rcases apart_readStore (s := { s with
        currentAgentId := pubkey
        currentRelayScope := canonicalizeRelayScope browser relayUrl
        memCache := memCache }) (hstep.agent _ _ hop) hfree hother with hsame | himport
    · exact Or.inl hsame
    · exact Or.inr ⟨⟨pubkey, relayUrl, hop⟩, himport.agent, himport.legacy, himport.relay,
        himport.fresh, himport.drafts, himport.gone⟩

/-- A step that the reader expects keeps what is asked of it. -/
theorem kept_step (h : Sound s) (hstep : StorableStep s op) : StepKept browser s op where
  survives := (sound_step h hstep).survives
  evicts _ _ hsaved := evicts_step hsaved
  stored hagent hsaved := by
    obtain ⟨⟨key, draft⟩, hdraft⟩ := Option.isSome_iff_exists.mp hsaved
    exact stored_step hagent hdraft
  renamed oldKey newKey hop key draft hheld := by
    subst hop
    exact renamed_step hheld
  apart _ _ hfree hother := apart_step h hstep hfree hother

theorem kept_run (browser : Browser) (ops : List DraftOp) : ∀ s, Sound s →
    StorableRun browser s ops → RunKept browser s ops := by
  induction ops with
  | nil => exact fun s h _ => trivial
  | cons op ops ih =>
    exact fun s h hrun => ⟨kept_step h hrun.1, ih _ (sound_step h hrun.1) hrun.2⟩

theorem storableDraft_persisted {existing : Option JsValue} {content channelId now : String}
    {pendingImeta : List ImetaMedia} {spoileredAttachmentUrls : List String}
    {mentionRefs : List DraftMentionRef} (hmedia : ∀ media ∈ pendingImeta, StorableMedia media)
    (hrefs : ∀ ref ∈ mentionRefs, NamedRef ref) :
    StorableDraft (persistedDraft existing content channelId pendingImeta spoileredAttachmentUrls
      mentionRefs now) where
  selectionStart := ⟨_, rfl⟩
  selectionEnd := ⟨_, rfl⟩
  media := hmedia
  refs := ⟨mentionRefs, rfl, hrefs⟩
  status := rfl

/-- Drafts that are saved as the reader expects are there after a restart. -/
theorem drafts_survive (browser : Browser) (localStorage : String → Option StoredText)
    (ops : List DraftOp) (h : StorableRun browser (loaded localStorage) ops) :
    RunKept browser (loaded localStorage) ops :=
  kept_run browser ops _ (sound_loaded localStorage) h

/-- A browser that orders texts by their characters and knows one relay. -/
def sampleBrowser : Browser where
  parseUrl text :=
    if text = "wss://relay.example" then some ⟨"wss:", "relay.example", "/", ""⟩ else none
  toLowerCase := String.toLower
  localeCompare := codeCompare
  compare_total := codeCompare_total
  compare_trans := codeCompare_trans

theorem sample_drafts_survive :
    RunKept sampleBrowser (loaded fun _ => none)
      [.init "a1b2" "wss://relay.example",
        .persist "general" "hello" "general" [] [] [⟨"Ann", "c3d4", false⟩]
          "2026-01-01T00:00:00.000Z",
        .rename "general" "thread:1", .clearAll] := by
  apply drafts_survive
  refine ⟨⟨?_, ?_, ?_⟩, ⟨?_, ?_, ?_⟩, ⟨?_, ?_, ?_⟩, ⟨?_, ?_, ?_⟩, trivial⟩
  · exact fun _ _ _ h => by cases h
  · exact fun _ _ _ h => by cases h
  · intro pubkey relayUrl h
    cases h
    decide
  · intro _ key draft h
    have htext : WebText.trim "hello" ≠ "" := by decide +kernel
    rw [savedDraft, if_pos (Or.inl htext)] at h
    obtain ⟨rfl, rfl⟩ := Prod.mk.inj (Option.some.inj h)
    refine ⟨⟨by decide, by decide⟩, storableDraft_persisted (by simp) ?_⟩
    intro ref href
    rw [List.mem_singleton.mp href]
    exact ⟨by decide +kernel, by decide +kernel⟩
  · exact fun _ _ _ h => by cases h
  · exact fun _ _ h => by cases h
  · exact fun _ _ _ h => by cases h
  · intro _ oldKey newKey h _
    cases h
    exact ⟨by decide, by decide⟩
  · exact fun _ _ h => by cases h
  · exact fun _ _ _ h => by cases h
  · exact fun _ _ _ h => by cases h
  · exact fun _ _ h => by cases h

/-- A mention without a name makes the draft unreadable. -/
theorem nameless_mention_lost :
    ¬∀ (browser : Browser) (localStorage : String → Option StoredText) (ops : List DraftOp),
      (∀ pubkey relayUrl, .init pubkey relayUrl ∈ ops → ':' ∉ pubkey.toList) →
        RunKept browser (loaded localStorage) ops := by
  intro h
  have hrun := h sampleBrowser (fun _ => none)
    [.init "a1b2" "wss://relay.example",
      .persist "general" "hello" "general" [] [] [⟨" ", "c3d4", false⟩] "2026-01-01T00:00:00.000Z"]
    (by simp)
  have hsurvives := hrun.2.1.survives
  have hafter : step sampleBrowser (loaded fun _ => none) (.init "a1b2" "wss://relay.example") =
      ⟨"a1b2", canonicalizeRelayScope sampleBrowser "wss://relay.example", some EntryMap.empty,
        fun _ => none⟩ := by
    simp [step, initDraftStore, loaded, readStore, DraftStore.legacyRaw]
  rw [hafter] at hsurvives
  generalize canonicalizeRelayScope sampleBrowser "wss://relay.example" = relayScope at hsurvives
  have hsaved : savedDraft ⟨"a1b2", relayScope, some EntryMap.empty, fun _ => none⟩
      (.persist "general" "hello" "general" [] [] [⟨" ", "c3d4", false⟩]
        "2026-01-01T00:00:00.000Z") =
      some ("general", persistedDraft none "hello" "general" [] [] [⟨" ", "c3d4", false⟩]
        "2026-01-01T00:00:00.000Z") := by
    have htext : WebText.trim "hello" ≠ "" := by decide +kernel
    rw [savedDraft, if_pos (Or.inl htext)]
    rfl
  have hinvalid : isValidDraftState (carried (persistedDraft none "hello" "general" [] []
      [⟨" ", "c3d4", false⟩] "2026-01-01T00:00:00.000Z").toJs) = none := by
    have hblank : (isValidDraftState (carried (persistedDraft none "hello" "general" [] []
      [⟨" ", "c3d4", false⟩] "2026-01-01T00:00:00.000Z").toJs)).isNone = true := by decide +kernel
    exact Option.isNone_iff_eq_none.mp hblank
  rw [step_of_saved hsaved] at hsurvives
  generalize (persistedDraft none "hello" "general" [] [] [⟨" ", "c3d4", false⟩]
    "2026-01-01T00:00:00.000Z").toJs = draft at hsurvives hinvalid
  have hagent : (putDrafts (EntryMap.empty.set "general" draft)
      ⟨"a1b2", relayScope, some EntryMap.empty, fun _ => none⟩).currentAgentId ≠ "" := by
    rw [(putDrafts_fields _ _).1]
    exact (by decide : "a1b2" ≠ "")
  have hlost := hsurvives hagent "general"
  have hread : (reloaded (putDrafts (EntryMap.empty.set "general" draft)
      ⟨"a1b2", relayScope, some EntryMap.empty, fun _ => none⟩)).get? "general" = some draft := by
    refine hlost.trans ?_
    rw [memory_putDrafts]
    exact EntryMap.get?_set _ _ _ _
  rw [reloaded_of_stored hagent (Function.update_self _ _ _), get?_readDrafts] at hread
  obtain ⟨-, value, hvalue, hvalid⟩ := hread
  obtain rfl : carried draft = value := Option.some.inj hvalue
  rw [hinvalid] at hvalid
  cases hvalid

end Conditions

end Buzz.Drafts
