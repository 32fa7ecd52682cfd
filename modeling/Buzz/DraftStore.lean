import Buzz.EntryMap
import Buzz.JsValues
import Buzz.WebText

/-!
# Drafts of messages

The drafts of a workspace, which is an agent at a relay, stand in one item of the
local storage and, once they are read, in a map in memory that every write goes
through. A reader checks what it finds; a writer stores what it is given.
-/

namespace Buzz.Drafts

open JsValue WebText

section Values

inductive DraftStatus where
  | active
  | sent
  deriving DecidableEq

structure DraftMentionRef where
  displayName : String
  pubkey : String
  isAgent : Bool
  deriving DecidableEq

structure ImetaMedia where
  url : String
  sha256 : String
  size : JsNumber
  type : String
  uploaded : JsNumber
  dim : Option String
  blurhash : Option String
  thumb : Option String
  duration : Option JsNumber
  image : Option String
  filename : Option String
  displayLabel : Option String
  deriving DecidableEq

structure DraftState where
  content : String
  selectionStart : JsNumber
  selectionEnd : JsNumber
  channelId : String
  createdAt : String
  updatedAt : String
  pendingImeta : List ImetaMedia
  mentionRefs : Option (List DraftMentionRef)
  spoileredAttachmentUrls : List String
  status : DraftStatus
  deriving DecidableEq

def DraftStatus.toJs : DraftStatus → JsValue
  | active => .string "active"
  | sent => .string "sent"

def DraftMentionRef.toJs (ref : DraftMentionRef) : JsValue :=
  .object [("displayName", .string ref.displayName), ("pubkey", .string ref.pubkey),
    ("isAgent", .bool ref.isAgent)]

/-- A member that may be left out. -/
def optionalMember (name : String) (value : Option JsValue) : List (String × JsValue) :=
  (value.map fun value => (name, value)).toList

def ImetaMedia.toJs (media : ImetaMedia) : JsValue :=
  .object ([("url", .string media.url), ("sha256", .string media.sha256),
      ("size", .number media.size), ("type", .string media.type),
      ("uploaded", .number media.uploaded)] ++
    optionalMember "dim" (media.dim.map .string) ++
    optionalMember "blurhash" (media.blurhash.map .string) ++
    optionalMember "thumb" (media.thumb.map .string) ++
    optionalMember "duration" (media.duration.map .number) ++
    optionalMember "image" (media.image.map .string) ++
    optionalMember "filename" (media.filename.map .string) ++
    optionalMember "displayLabel" (media.displayLabel.map .string))

def DraftState.toJs (draft : DraftState) : JsValue :=
  .object ([("content", .string draft.content), ("selectionStart", .number draft.selectionStart),
      ("selectionEnd", .number draft.selectionEnd), ("channelId", .string draft.channelId),
      ("createdAt", .string draft.createdAt), ("updatedAt", .string draft.updatedAt),
      ("pendingImeta", .array (draft.pendingImeta.map ImetaMedia.toJs)),
      ("spoileredAttachmentUrls", .array (draft.spoileredAttachmentUrls.map .string)),
      ("status", draft.status.toJs)] ++
    optionalMember "mentionRefs"
      (draft.mentionRefs.map fun refs => .array (refs.map DraftMentionRef.toJs)))

end Values

section Reader

def isValidRef (ref : JsValue) : Bool :=
  match (ref.property "displayName").asString, (ref.property "pubkey").asString with
  | some displayName, some pubkey =>
      decide (WebText.trim displayName ≠ "") && decide (WebText.trim pubkey ≠ "") &&
        (ref.property "isAgent").isBool
  | _, _ => false

def hasDraftTypes (members : List (String × JsValue)) : Bool :=
  (memberOf members "content").asString.isSome &&
    (memberOf members "selectionStart").isNumber &&
    (memberOf members "selectionEnd").isNumber &&
    (memberOf members "channelId").asString.isSome &&
    (memberOf members "createdAt").asString.isSome &&
    (memberOf members "updatedAt").asString.isSome &&
    (memberOf members "pendingImeta").asArray.isSome &&
    (memberOf members "spoileredAttachmentUrls").asArray.isSome

/-- A draft from before there were mentions has none. -/
def checkMentionRefs (members : List (String × JsValue)) : Option (List (String × JsValue)) :=
  match memberOf members "mentionRefs" with
  | .undefined => some (setMember members "mentionRefs" (.array []))
  | .array refs => if refs.all isValidRef then some members else none
  | _ => none

/-- A draft from before there was a status is active. -/
def checkStatus (members : List (String × JsValue)) : Option (List (String × JsValue)) :=
  match memberOf members "status" with
  | .undefined => some (setMember members "status" (.string "active"))
  | .null => some (setMember members "status" (.string "active"))
  | .string status => if status = "active" then some members else none
  | _ => none

/-- The draft with what the check fills in, when it is valid. -/
def isValidDraftState : JsValue → Option JsValue
  | .object members =>
      if hasDraftTypes members then
        ((checkMentionRefs members).bind checkStatus).map .object
      else none
  | _ => none

end Reader

section Equality

def sameFields (fields : List String) (a b : JsValue) : Bool :=
  fields.all fun field => strictEq (a.property field) (b.property field)

def imetaFields : List String :=
  ["url", "sha256", "size", "type", "uploaded", "dim", "blurhash", "thumb", "duration", "image",
    "filename", "displayLabel"]

/-- Nothing when an item has no fields to look at, which throws. -/
def sameImeta : List JsValue → List JsValue → Option Bool
  | am :: as, bm :: bs =>
      if am.isNullish || bm.isNullish then none
      else if sameFields imetaFields am bm then sameImeta as bs else some false
  | _, _ => some true

def itemsOf (draft : JsValue) (field : String) : List JsValue :=
  ((draft.property field).asArray).getD []

def draftStatesEqual (a b : JsValue) : Option Bool :=
  if !sameFields ["content", "selectionStart", "selectionEnd", "channelId", "createdAt",
        "updatedAt", "status"] a b ||
      decide ((itemsOf a "pendingImeta").length ≠ (itemsOf b "pendingImeta").length) ||
      decide ((itemsOf a "mentionRefs").length ≠ (itemsOf b "mentionRefs").length) ||
      decide ((itemsOf a "spoileredAttachmentUrls").length ≠
        (itemsOf b "spoileredAttachmentUrls").length) then some false
  else
    (sameImeta (itemsOf a "pendingImeta") (itemsOf b "pendingImeta")).map fun same =>
      same &&
        ((itemsOf a "mentionRefs").zip (itemsOf b "mentionRefs")).all (fun pair =>
          sameFields ["displayName", "pubkey", "isAgent"] pair.1 pair.2) &&
        ((itemsOf a "spoileredAttachmentUrls").zip (itemsOf b "spoileredAttachmentUrls")).all
          fun pair => strictEq pair.1 pair.2

end Equality

section Store

abbrev DraftMap := EntryMap String JsValue

/-- An object as it is found in the storage. Members of an object literal that is written as JSON
are never called `__proto__`. -/
structure StoredObject where
  entries : DraftMap
  json : ∀ entry ∈ entries.entries, IsJson entry.2
  named : ∀ entry ∈ entries.entries, entry.1 ≠ "__proto__"

/-- An item of the storage: empty, an object, or anything else. -/
inductive StoredText where
  | blank
  | foreign
  | drafts (found : StoredObject)

structure ParsedRelayUrl where
  protocol : String
  host : String
  pathname : String
  search : String

/-- What the browser brings along. The collation orders all texts. -/
structure Browser where
  parseUrl : String → Option ParsedRelayUrl
  toLowerCase : String → String
  localeCompare : String → String → ℤ
  compare_total : ∀ a b, localeCompare a b ≤ 0 ∨ localeCompare b a ≤ 0
  compare_trans : ∀ a b c, localeCompare a b ≤ 0 → localeCompare b c ≤ 0 → localeCompare a c ≤ 0

structure DraftStore where
  currentAgentId : String
  currentRelayScope : String
  memCache : Option DraftMap
  localStorage : String → Option StoredText

def stripSlashes (text : String) : String :=
  String.ofList (text.toList.reverse.dropWhile (· == '/')).reverse

def canonicalizeRelayScope (browser : Browser) (relayUrl : String) : String :=
  let trimmed := stripSlashes (WebText.trim relayUrl)
  if trimmed = "" then ""
  else
    match browser.parseUrl trimmed with
    | some u => u.protocol ++ "//" ++ u.host ++ stripSlashes u.pathname ++ u.search
    | none => browser.toLowerCase trimmed

/-- The item of an agent at a relay; without a relay it is the legacy one. -/
def bucketKey (agentId relayScope : String) : String :=
  if relayScope ≠ "" then "buzz-drafts.v2:" ++ relayScope ++ ":" ++ agentId
  else "buzz-drafts.v1:" ++ agentId

def DraftStore.storageKey (s : DraftStore) : String :=
  bucketKey s.currentAgentId s.currentRelayScope

def DraftStore.legacyStorageKey (s : DraftStore) : String := bucketKey s.currentAgentId ""

def maxDrafts : ℕ := 100

/-- The value of a name that is an index of an array. -/
def arrayIndex (key : String) : Option ℕ :=
  let value := JsonText.digitsValue key.toList
  if key ≠ "" ∧ key.toList.all Char.isDigit = true ∧ (key = "0" ∨ key.toList.head? ≠ some '0') ∧
      value < 2 ^ 32 - 1 then some value
  else none

/-- `Object.entries`: the indices come first and in order. -/
def objectEntries (entries : List (String × JsValue)) : List (String × JsValue) :=
  (entries.filter fun entry => (arrayIndex entry.1).isSome).mergeSort
      (fun a b => decide ((arrayIndex a.1).getD 0 ≤ (arrayIndex b.1).getD 0)) ++
    entries.filter fun entry => !(arrayIndex entry.1).isSome

def isSentKey (key : String) : Bool := "sent:".toList.isPrefixOf key.toList

def readEntry (entry : String × JsValue) : Option (String × JsValue) :=
  if isSentKey entry.1 then none
  else (isValidDraftState entry.2).map fun draft => (entry.1, draft)

def readDrafts : StoredText → DraftMap
  | .drafts found =>
      ((objectEntries found.entries.entries).filterMap readEntry).foldl
        (fun map entry => map.set entry.1 entry.2) EntryMap.empty
  | _ => EntryMap.empty

/-- What `JSON.stringify` keeps of the object that the map is copied into: setting `__proto__`
makes no member. -/
def storedObject (map : DraftMap) : StoredObject where
  entries :=
    { entries := (map.entries.filter fun entry => entry.1 ≠ "__proto__").map fun entry =>
        (entry.1, carried entry.2)
      nodup := by
        rw [List.map_map]
        exact map.nodup.sublist (List.filter_sublist.map Prod.fst) }
  json := by
    intro entry hentry
    obtain ⟨held, -, rfl⟩ := List.mem_map.mp hentry
    exact isJson_carried held.2
  named := by
    intro entry hentry
    obtain ⟨held, hheld, rfl⟩ := List.mem_map.mp hentry
    simpa using (List.mem_filter.mp hheld).2

/-- The write succeeds. -/
def flushStore (map : DraftMap) (s : DraftStore) : DraftStore :=
  if s.currentAgentId = "" then s
  else
    { s with
      localStorage :=
        Function.update s.localStorage s.storageKey (some (.drafts (storedObject map))) }

def StoredText.isTruthy : Option StoredText → Bool
  | none => false
  | some .blank => false
  | some _ => true

/-- The legacy item, when it is to be imported. -/
def DraftStore.legacyRaw (s : DraftStore) : Option StoredText :=
  if StoredText.isTruthy (s.localStorage s.storageKey) || decide (s.currentRelayScope = "")
    then none
  else s.localStorage s.legacyStorageKey

def readStore (s : DraftStore) : DraftMap × DraftStore :=
  match s.memCache with
  | some map => (map, s)
  | none =>
      if s.currentAgentId = "" then (EntryMap.empty, { s with memCache := some EntryMap.empty })
      else
        match (s.localStorage s.storageKey).or s.legacyRaw with
        | none => (EntryMap.empty, { s with memCache := some EntryMap.empty })
        | some .blank => (EntryMap.empty, { s with memCache := some EntryMap.empty })
        | some source =>
            let map := readDrafts source
            let cached := { s with memCache := some map }
            if s.legacyRaw.isSome then
              let flushed := flushStore map cached
              (map, { flushed with
                localStorage := Function.update flushed.localStorage s.legacyStorageKey none })
            else (map, cached)

def updatedAt (draft : JsValue) : String := ((draft.property "updatedAt").asString).getD ""

/-- The entries in the order in which they are evicted. -/
def evictionOrder (browser : Browser) (entries : List (String × JsValue)) :
    List (String × JsValue) :=
  entries.mergeSort fun a b =>
    decide (browser.localeCompare (updatedAt a.2) (updatedAt b.2) ≤ 0)

def evictOldest (browser : Browser) (map : DraftMap) : DraftMap :=
  if map.entries.length ≤ maxDrafts then map
  else
    (((evictionOrder browser map.entries).take (map.entries.length - maxDrafts)).map
      Prod.fst).foldl EntryMap.erase map

end Store

section Operations

variable (browser : Browser)

/-- The drafts in memory change and are stored. -/
def putDrafts (map : DraftMap) (s : DraftStore) : DraftStore :=
  flushStore map { s with memCache := some map }

def saveDraftEntry (draftKey : String) (draft : DraftState) (s : DraftStore) : DraftStore :=
  if WebText.trim draft.content = "" ∧ draft.pendingImeta = [] then s
  else
    let (map, s) := readStore s
    putDrafts (evictOldest browser (map.set draftKey draft.toJs)) s

def clearDraftEntry (draftKey : String) (s : DraftStore) : DraftStore :=
  let (map, s) := readStore s
  if (map.get? draftKey).isSome then putDrafts (map.erase draftKey) s else s

inductive RenameOutcome where
  | migrated
  | collision
  | noop
  deriving DecidableEq

/-- Nothing in place of the outcome means that the comparison has thrown. -/
def renameDraftEntry (oldKey newKey : String) (s : DraftStore) :
    Option RenameOutcome × DraftStore :=
  if oldKey = newKey then (some .noop, s)
  else
    let (map, s) := readStore s
    match map.get? oldKey with
    | none => (some .noop, s)
    | some existing =>
        match map.get? newKey with
        | some destination =>
            match draftStatesEqual existing destination with
            | none => (none, s)
            | some false => (some .collision, s)
            | some true => (some .migrated, putDrafts (map.erase oldKey) s)
        | none => (some .migrated, putDrafts ((map.set newKey existing).erase oldKey) s)

def utf16Length (text : String) : ℕ := (text.toList.flatMap utf16).length

/-- The draft that replaces the existing one; `now` is the time of the call as a text. -/
def persistedDraft (existing : Option JsValue) (content channelId : String)
    (pendingImeta : List ImetaMedia) (spoileredAttachmentUrls : List String)
    (mentionRefs : List DraftMentionRef) (now : String) : DraftState where
  content := content
  selectionStart := .finite (utf16Length content)
  selectionEnd := .finite (utf16Length content)
  channelId := channelId
  createdAt := (existing.bind fun draft => (draft.property "createdAt").asString).getD now
  updatedAt := now
  pendingImeta := pendingImeta
  mentionRefs := some mentionRefs
  spoileredAttachmentUrls := spoileredAttachmentUrls
  status := .active

def persistDraftEntry (draftKey content channelId : String) (pendingImeta : List ImetaMedia)
    (spoileredAttachmentUrls : List String) (mentionRefs : List DraftMentionRef) (now : String)
    (s : DraftStore) : DraftStore :=
  if WebText.trim content ≠ "" ∨ pendingImeta ≠ [] then
    let (map, s) := readStore s
    saveDraftEntry browser draftKey
      (persistedDraft (map.get? draftKey) content channelId pendingImeta spoileredAttachmentUrls
        mentionRefs now) s
  else clearDraftEntry draftKey s

def clearAllDrafts (s : DraftStore) : DraftStore :=
  { s with currentAgentId := "", currentRelayScope := "", memCache := none }

def initDraftStore (pubkey relayUrl : String) (s : DraftStore) : DraftStore :=
  let relayScope := canonicalizeRelayScope browser relayUrl
  let memCache :=
    if s.currentAgentId ≠ pubkey ∨ s.currentRelayScope ≠ relayScope then none else s.memCache
  (readStore
    { s with currentAgentId := pubkey, currentRelayScope := relayScope, memCache := memCache }).2

inductive DraftOp where
  | save (draftKey : String) (draft : DraftState)
  | persist (draftKey content channelId : String) (pendingImeta : List ImetaMedia)
      (spoileredAttachmentUrls : List String) (mentionRefs : List DraftMentionRef) (now : String)
  | clear (draftKey : String)
  | rename (oldKey newKey : String)
  | clearAll
  | init (pubkey relayUrl : String)

def step (s : DraftStore) : DraftOp → DraftStore
  | .save draftKey draft => saveDraftEntry browser draftKey draft s
  | .persist draftKey content channelId pendingImeta spoileredAttachmentUrls mentionRefs now =>
      persistDraftEntry browser draftKey content channelId pendingImeta spoileredAttachmentUrls
        mentionRefs now s
  | .clear draftKey => clearDraftEntry draftKey s
  | .rename oldKey newKey => (renameDraftEntry oldKey newKey s).2
  | .clearAll => clearAllDrafts s
  | .init pubkey relayUrl => initDraftStore browser pubkey relayUrl s

/-- The module as it is loaded, over what is in the storage. -/
def loaded (localStorage : String → Option StoredText) : DraftStore :=
  ⟨"", "", none, localStorage⟩

end Operations

end Buzz.Drafts
