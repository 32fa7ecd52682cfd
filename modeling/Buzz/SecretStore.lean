import Mathlib.Control.Monad.Basic
import Buzz.AsciiText
import Buzz.ScriptedRuns
import Buzz.TaskLogic

/-!
# The secrets in the keychain

All secrets of a service are one map in one keychain entry. Every process keeps a
copy of it in memory; a writer takes an advisory lock, reads the entry afresh and
writes it back, while a reader takes no lock. Older versions kept an entry for
each key, which a probe still finds and a wipe removes. The world also records
what was stored and wiped, in the order in which it became durable, and what the
entry has ever held.
-/

namespace Buzz.Keychain

open EffectProgram

section Requests

abbrev Secrets := Std.ExtTreeMap String String

/-- The text of an entry: a map of secrets, or anything else. -/
inductive RawEntry where
  | secrets (map : Secrets)
  | text (value : String)
  deriving DecidableEq

inductive KeyringError where
  | entry (message : String)
  | noEntry
  | failed (message : String)
  deriving DecidableEq, Repr

/-- Errors of the Data Protection Keychain of macOS. -/
inductive ProtectedError where
  | notFound
  | missingEntitlement
  | failed (message : String)
  deriving DecidableEq, Repr

inductive KeyringProbe where
  | present
  | reachableButEmpty
  | unreachable
  deriving DecidableEq, Repr

def blobKey : String := "secrets"

/-- `loading` marks the read of a load, `pair` is what the write stores, and `confirmed` what a
store found in the entry already. -/
inductive KeychainRequest where
  | acquireBlobLock
  | releaseBlobLock
  | getPassword (key : String) (loading : Bool)
  | setPassword (pair : String × String) (secrets : Secrets)
  | deleteCredential (key : String)
  | genericPassword (key : String)
  | deleteGenericPassword (key : String)
  | cached
  | fillCache (secrets : Secrets)
  | setCache (secrets : Option Secrets) (confirmed : Option (String × String))

@[reducible]
def KeychainRequest.Reply : KeychainRequest → Type
  | .acquireBlobLock => Except String Unit
  | .getPassword _ _ => Except KeyringError RawEntry
  | .setPassword _ _ => Except KeyringError Unit
  | .deleteCredential _ => Except KeyringError Unit
  | .genericPassword _ => Except ProtectedError Unit
  | .deleteGenericPassword _ => Except ProtectedError Unit
  | .cached => Option Secrets
  | _ => Unit

/-- Whether a load is left with a map that it has not offered to the cache yet. -/
def KeychainRequest.pendingAfter : (request : KeychainRequest) → request.Reply → Bool
  | .getPassword _ loading, .ok (.secrets _) => loading
  | _, _ => false

end Requests

section Programs

abbrev KeychainTask (α : Type) : Type :=
  Task KeychainRequest KeychainRequest.Reply Unit String α

def ask (request : KeychainRequest) : KeychainTask request.Reply :=
  Task.perform request

def isKeyringAvailabilityError (error : String) : Bool :=
  let lower := (toAsciiLowercase error).toList
  ["keyring", "dbus", "org.freedesktop.secrets", "platform secure storage",
    "no secret service"].any fun part => decide (part.toList <:+: lower)

def readBlobRaw (loading : Bool) : KeychainTask (Option RawEntry) := do
  match ← ask (.getPassword blobKey loading) with
  | .ok raw => pure (some raw)
  | .error (.entry e) => Task.fail ("keyring entry: " ++ e)
  | .error .noEntry => pure none
  | .error (.failed e) =>
      if isKeyringAvailabilityError e then Task.fail ("keyring unavailable: " ++ e)
      else Task.fail ("keyring read: " ++ e)

def parseBlob : RawEntry → KeychainTask Secrets
  | .secrets map => pure map
  | .text _ => Task.fail "blob json: not a map of strings"

/-- A warm cache is not checked against the keychain. -/
def loadBlob : KeychainTask (Option Secrets) := do
  match ← ask .cached with
  | some map => pure (some map)
  | none =>
      match ← readBlobRaw true with
      | none => pure none
      | some raw => do
          let map ← parseBlob raw
          ask (.fillCache map)
          pure (some map)

/-- The guard of the lock is dropped whatever the body returns. -/
def locked {α : Type} (body : KeychainTask α) : KeychainTask α := do
  match ← ask .acquireBlobLock with
  | .error e => Task.fail e
  | .ok _ => do
      let out ← Task.result body
      ask .releaseBlobLock
      Task.ofExcept out

def writeBlobRaw (pair : String × String) (map : Secrets) : KeychainTask (Except String Unit) := do
  match ← ask (.setPassword pair map) with
  | .ok _ => pure (.ok ())
  | .error (.entry e) => pure (.error ("keyring entry: " ++ e))
  | .error .noEntry => pure (.error "keyring write: No matching entry found in secure storage")
  | .error (.failed e) => pure (.error ("keyring write: " ++ e))

def currentMap : Option RawEntry → KeychainTask Secrets
  | none => pure ∅
  | some raw => parseBlob raw

/-- `pair` is the one that `f` inserts. -/
def mutateBlob (pair : String × String) (f : Secrets → Secrets) : KeychainTask Unit :=
  locked do
    let raw ← readBlobRaw false
    let current ← currentMap raw
    let next := f current
    if next = current then ask (.setCache (some current) (some pair))
    else
      match ← writeBlobRaw pair next with
      | .ok _ => ask (.setCache (some next) none)
      | .error e => do
          ask (.setCache none none)
          Task.fail e

def store (key value : String) : KeychainTask Unit :=
  mutateBlob (key, value) fun map => map.insert key value

def probeLegacyKeyKeyring (key : String) : KeychainTask KeyringProbe := do
  match ← ask (.getPassword key false) with
  | .ok _ => pure .present
  | .error (.entry _) => pure .unreachable
  | .error .noEntry => pure .reachableButEmpty
  | .error (.failed e) =>
      pure (if isKeyringAvailabilityError e then .unreachable else .reachableButEmpty)

def probeLegacyKey (macos : Bool) (key : String) : KeychainTask KeyringProbe :=
  if macos then do
    match ← ask (.genericPassword key) with
    | .ok _ => pure .present
    | .error .notFound => probeLegacyKeyKeyring key
    | .error .missingEntitlement => probeLegacyKeyKeyring key
    | .error (.failed e) =>
        pure (if isKeyringAvailabilityError e then .unreachable else .reachableButEmpty)
  else probeLegacyKeyKeyring key

def probe (macos : Bool) (key : String) : KeychainTask KeyringProbe := do
  match ← Task.result loadBlob with
  | .ok (some map) => if key ∈ map then pure .present else probeLegacyKey macos key
  | .ok none => probeLegacyKey macos key
  | .error _ => pure .unreachable

/-- A missing entry, or one that the process may not see, counts as deleted. -/
def deleteProtected (key label : String) : KeychainTask Unit := do
  match ← ask (.deleteGenericPassword key) with
  | .ok _ => pure ()
  | .error .notFound => pure ()
  | .error .missingEntitlement => pure ()
  | .error (.failed e) => Task.fail (label ++ ": " ++ e)

def deleteEntry (key constructor unavailable label : String) : KeychainTask Unit := do
  match ← ask (.deleteCredential key) with
  | .ok _ => pure ()
  | .error (.entry e) => Task.fail (constructor ++ ": " ++ e)
  | .error .noEntry => pure ()
  | .error (.failed e) =>
      if isKeyringAvailabilityError e then Task.fail (unavailable ++ ": " ++ e)
      else Task.fail (label ++ ": " ++ e)

/-- Code that is compiled on macOS only. -/
def onMacos (macos : Bool) (t : KeychainTask Unit) : KeychainTask Unit :=
  if macos then t else pure ()

def deleteLegacyKey (macos : Bool) (key : String) : KeychainTask Unit := do
  onMacos macos (deleteProtected key ("dpk per-key delete " ++ key))
  deleteEntry key ("keyring entry constructor " ++ key) ("keyring unavailable deleting " ++ key)
    ("keyring per-key delete " ++ key)

def keysOf : Except String (Option RawEntry) → List String
  | .ok (some (.secrets map)) => map.keys
  | _ => []

/-- A blob that cannot be read counts as one without keys. -/
def wipedKeys (read : Except String (Option RawEntry)) : List String :=
  let keys := keysOf read
  if "identity" ∈ keys then keys else keys ++ ["identity"]

def deleteAllWithLegacyCleanup (macos : Bool) : KeychainTask Unit :=
  locked do
    let read ← Task.result (readBlobRaw false)
    Task.forEach (deleteLegacyKey macos) (wipedKeys read)
    onMacos macos (deleteProtected blobKey "dpk blob delete")
    deleteEntry blobKey "keyring entry constructor blob" "keyring unavailable" "keyring blob delete"
    ask (.setCache none none)

end Programs

section World

inductive KeychainOperation where
  | store (key value : String)
  | load
  | probe (key : String)
  | wipe
  deriving DecidableEq, Repr

/-- One call, of one thread of a process. -/
structure KeychainCall where
  process : ℕ
  number : ℕ
  operation : KeychainOperation
  deriving DecidableEq, Repr

def KeychainOperation.isStore : KeychainOperation → Bool
  | store _ _ => true
  | _ => false

inductive KeychainOutcome where
  | stored
  | loaded (map : Option Secrets)
  | probed (probe : KeyringProbe)
  | wiped
  deriving DecidableEq

def KeychainOperation.task (macos : Bool) : KeychainOperation → KeychainTask KeychainOutcome
  | store key value => do
      Keychain.store key value
      pure .stored
  | load => do
      let map ← loadBlob
      pure (.loaded map)
  | probe key => do
      let result ← Keychain.probe macos key
      pure (.probed result)
  | wipe => do
      deleteAllWithLegacyCleanup macos
      pure .wiped

/-- What became of the blob: a pair was stored, or the entry was removed. -/
inductive BlobEvent where
  | stored (call : KeychainCall) (key value : String)
  | wiped (call : KeychainCall)
  deriving DecidableEq, Repr

def BlobEvent.call : BlobEvent → KeychainCall
  | stored call _ _ => call
  | wiped call => call

/-- The event is what the operation of its call is for. -/
def BlobEvent.Meant : BlobEvent → Prop
  | stored call key value => call.operation = .store key value
  | wiped call => call.operation = .wipe

/-- The newest event comes first. -/
def lastStored (initially : String → Option String) : List BlobEvent → String → Option String
  | [], key => initially key
  | .stored _ k v :: rest, key => if key = k then some v else lastStored initially rest key
  | .wiped _ :: _, _ => none

/-- The set with the call in it or not. -/
def marked (calls : Finset KeychainCall) (i : KeychainCall) (mark : Bool) : Finset KeychainCall :=
  if mark then insert i calls else calls.erase i

theorem mem_marked_self {calls : Finset KeychainCall} {i : KeychainCall} {mark : Bool} :
    i ∈ marked calls i mark ↔ mark = true := by
  cases mark <;> simp [marked]

theorem mem_marked_of_ne {calls : Finset KeychainCall} {i j : KeychainCall} {mark : Bool}
    (h : j ≠ i) : j ∈ marked calls i mark ↔ j ∈ calls := by
  cases mark <;> simp [marked, h]

/-- `history`, `past` and `pending` are kept for the statements: `past` is what the blob has ever
held, and `pending` tells which loads have read the keychain and not come to the cache yet. -/
structure KeychainWorld where
  entries : String → Option RawEntry
  protectedEntries : String → Bool
  cache : ℕ → Option Secrets
  lock : Option KeychainCall
  history : List BlobEvent
  past : List RawEntry
  pending : Finset KeychainCall

namespace KeychainWorld

variable (w : KeychainWorld)

def blob : Option RawEntry := w.entries blobKey

/-- The value that the blob has for a key. -/
def blobValue (key : String) : Option String :=
  match w.blob with
  | some (.secrets map) => map[key]?
  | _ => none

def setBlob (i : KeychainCall) (pair : String × String) (map : Secrets) : KeychainWorld :=
  { w with
    entries := Function.update w.entries blobKey (some (.secrets map))
    history := .stored i pair.1 pair.2 :: w.history
    past := .secrets map :: w.past }

def eraseEntry (i : KeychainCall) (key : String) : KeychainWorld :=
  { w with
    entries := Function.update w.entries key none
    history := if key = blobKey ∧ w.blob ≠ none then .wiped i :: w.history else w.history }

def putCache (i : KeychainCall) (map : Option Secrets) (confirmed : Option (String × String)) :
    KeychainWorld :=
  { w with
    cache := Function.update w.cache i.process map
    history := match confirmed with
      | some pair => .stored i pair.1 pair.2 :: w.history
      | none => w.history }

def fillCache (i : KeychainCall) (map : Secrets) : KeychainWorld :=
  if w.cache i.process = none then { w with cache := Function.update w.cache i.process (some map) }
  else w

/-- How a request of call `i` may be answered. `entitled` tells which processes may use the
protected keychain. -/
def Answers (entitled : ℕ → Bool) (i : KeychainCall) :
    (request : KeychainRequest) → request.Reply → KeychainWorld → Prop
  | .acquireBlobLock, .ok _, u => w.lock = none ∧ u = { w with lock := some i }
  | .releaseBlobLock, _, u => u = { w with lock := none }
  | .getPassword key _, .ok raw, u => w.entries key = some raw ∧ u = w
  | .getPassword key _, .error .noEntry, u => w.entries key = none ∧ u = w
  | .setPassword pair map, .ok _, u => u = w.setBlob i pair map
  | .deleteCredential key, .ok _, u => u = w.eraseEntry i key
  | .deleteCredential key, .error .noEntry, u => w.entries key = none ∧ u = w
  | .genericPassword key, answer, u =>
      (match answer with
        | .ok _ => entitled i.process = true ∧ w.protectedEntries key = true
        | .error .notFound => entitled i.process = true ∧ w.protectedEntries key = false
        | .error .missingEntitlement => entitled i.process = false
        | .error (.failed _) => True) ∧ u = w
  | .deleteGenericPassword key, .ok _, u => entitled i.process = true ∧
      u = { w with protectedEntries := Function.update w.protectedEntries key false }
  | .deleteGenericPassword key, .error .notFound, u =>
      entitled i.process = true ∧ w.protectedEntries key = false ∧ u = w
  | .deleteGenericPassword _, .error .missingEntitlement, u => entitled i.process = false ∧ u = w
  | .cached, answer, u => answer = w.cache i.process ∧ u = w
  | .fillCache map, _, u => u = w.fillCache i map
  | .setCache map confirmed, _, u => u = w.putCache i map confirmed
  | _, _, u => u = w

def Commits (entitled : ℕ → Bool) (i : KeychainCall) (request : KeychainRequest)
    (answer : request.Reply) (u : KeychainWorld) : Prop :=
  ∃ v, w.Answers entitled i request answer v ∧
    u = { v with pending := marked v.pending i (request.pendingAfter answer) }

/-- A call that returned or died no longer holds the lock. -/
def dropped (i : KeychainCall) : KeychainWorld :=
  { w with
    lock := if w.lock = some i then none else w.lock
    pending := marked w.pending i false }

end KeychainWorld

/-- What is allowed to happen in a run: which calls are made and which steps they take. -/
structure KeychainPolicy where
  starts : KeychainCall → Prop
  step : KeychainCall → KeychainWorld → (request : KeychainRequest) → request.Reply → Prop

def KeychainPolicy.any : KeychainPolicy where
  starts _ := True
  step _ _ _ _ := True

instance : DecidablePred KeychainPolicy.any.starts := fun _ => inferInstanceAs (Decidable True)

structure KeychainPlatform where
  macos : Bool
  entitled : ℕ → Bool

abbrev KeychainReturn : Type := Except String KeychainOutcome × Unit

instance : DecidableEq (Option KeychainReturn) := inferInstance

/-- Calls of any process start at any time and may end at any time. -/
def keychainSystem (platform : KeychainPlatform) (policy : KeychainPolicy) :
    System KeychainCall KeychainWorld KeychainRequest KeychainRequest.Reply
      (fun _ => KeychainReturn) where
  commits i w request answer u :=
    policy.step i w request answer ∧ w.Commits platform.entitled i request answer u
  launches i w p := policy.starts i ∧ (∀ event ∈ w.history, event.call ≠ i) ∧
    p = i.operation.task platform.macos ()
  stops i w u := u = w.dropped i
  moves _ _ := False

abbrev KeychainPool : Type :=
  Pool KeychainCall KeychainWorld KeychainRequest KeychainRequest.Reply (fun _ => KeychainReturn)

/-- Nothing is under way and nothing on record; the keychain and the caches may hold anything. -/
structure KeychainPool.Idle (pool : KeychainPool) : Prop where
  threads : ∀ i, pool.threads i = none
  lock : pool.world.lock = none
  history : pool.world.history = []
  pending : pool.world.pending = ∅

/-- Besides, no process has a copy of the blob yet. -/
structure KeychainPool.Starts (pool : KeychainPool) : Prop extends pool.Idle where
  cache : ∀ process, pool.world.cache process = none
  past : pool.world.past = pool.world.blob.toList

end World

section Scripts

/-- Whether reads and writes of the keychain go well. -/
inductive KeychainMode where
  | healthy
  | failing
  deriving DecidableEq, Repr

variable (platform : KeychainPlatform)

def scriptedAnswer (mode : KeychainMode) (i : KeychainCall) (w : KeychainWorld) :
    (request : KeychainRequest) → Option (request.Reply × KeychainWorld)
  | .acquireBlobLock =>
      if w.lock = none then some (.ok (), { w with lock := some i }) else none
  | .releaseBlobLock => some ((), { w with lock := none })
  | .getPassword key _ =>
      match mode, w.entries key with
      | .failing, _ => some (.error (.failed "the keychain timed out"), w)
      | .healthy, some raw => some (.ok raw, w)
      | .healthy, none => some (.error .noEntry, w)
  | .setPassword pair map =>
      match mode with
      | .failing => some (.error (.failed "the keychain timed out"), w)
      | .healthy => some (.ok (), w.setBlob i pair map)
  | .deleteCredential key =>
      if w.entries key = none then some (.error .noEntry, w)
      else some (.ok (), w.eraseEntry i key)
  | .genericPassword key =>
      if platform.entitled i.process = false then some (.error .missingEntitlement, w)
      else if w.protectedEntries key then some (.ok (), w) else some (.error .notFound, w)
  | .deleteGenericPassword key =>
      if platform.entitled i.process = false then some (.error .missingEntitlement, w)
      else
        some (.ok (),
          { w with protectedEntries := Function.update w.protectedEntries key false })
  | .cached => some (w.cache i.process, w)
  | .fillCache map => some ((), w.fillCache i map)
  | .setCache map confirmed => some ((), w.putCache i map confirmed)

theorem scriptedAnswer_sound {mode : KeychainMode} {i : KeychainCall} {w : KeychainWorld}
    (request : KeychainRequest) {answer : request.Reply} {v : KeychainWorld}
    (h : scriptedAnswer platform mode i w request = some (answer, v)) :
    w.Answers platform.entitled i request answer v := by
  cases request with
  | acquireBlobLock =>
      simp only [scriptedAnswer] at h
      split_ifs at h with hlock
      cases h
      exact ⟨hlock, rfl⟩
  | releaseBlobLock =>
      cases h
      rfl
  | getPassword key loading =>
      simp only [scriptedAnswer] at h
      split at h
      · cases h
        rfl
      · rename_i raw hentry
        cases h
        exact ⟨hentry, rfl⟩
      · rename_i hentry
        cases h
        exact ⟨hentry, rfl⟩
  | setPassword pair map =>
      simp only [scriptedAnswer] at h
      split at h
      · cases h
        rfl
      · cases h
        rfl
  | deleteCredential key =>
      simp only [scriptedAnswer] at h
      split_ifs at h with hentry
      · cases h
        exact ⟨hentry, rfl⟩
      · cases h
        rfl
  | genericPassword key =>
      simp only [scriptedAnswer] at h
      split_ifs at h with hentitled hentry
      · cases h
        exact ⟨hentitled, rfl⟩
      · cases h
        exact ⟨⟨Bool.eq_true_of_not_eq_false hentitled, hentry⟩, rfl⟩
      · cases h
        exact ⟨⟨Bool.eq_true_of_not_eq_false hentitled, Bool.eq_false_of_not_eq_true hentry⟩, rfl⟩
  | deleteGenericPassword key =>
      simp only [scriptedAnswer] at h
      split_ifs at h with hentitled
      · cases h
        exact ⟨hentitled, rfl⟩
      · cases h
        exact ⟨Bool.eq_true_of_not_eq_false hentitled, rfl⟩
  | cached =>
      cases h
      exact ⟨rfl, rfl⟩
  | fillCache map | setCache map confirmed =>
      cases h
      rfl

/-- Scripts for a policy; `allows` tells for sure of some steps that they are allowed. -/
def keychainScript (policy : KeychainPolicy) [DecidablePred policy.starts]
    (allows : KeychainCall → KeychainWorld → (request : KeychainRequest) → request.Reply → Bool)
    (hallows : ∀ i w request answer, allows i w request answer = true →
      policy.step i w request answer) :
    Script (keychainSystem platform policy) KeychainMode Unit where
  answer mode i w request :=
    match scriptedAnswer platform mode i w request with
    | some (answer, v) =>
        if allows i w request answer then
          some (answer, { v with pending := marked v.pending i (request.pendingAfter answer) })
        else none
    | none => none
  program i _ := i.operation.task platform.macos ()
  launchable i w _ := decide (policy.starts i) && w.history.all fun event => event.call ≠ i
  stopped i w := some (w.dropped i)
  moved _ _ := none
  answer_sound mode i w request a u h := by
    split at h
    · rename_i answer v hanswer
      split_ifs at h with hallowed
      cases h
      exact ⟨hallows _ _ _ _ hallowed, v, scriptedAnswer_sound platform request hanswer, rfl⟩
    · cases h
  launch_sound i w _ h := by
    simp only [Bool.and_eq_true, List.all_eq_true, decide_eq_true_eq] at h
    exact ⟨h.1, h.2, rfl⟩
  stop_sound _ _ _ h := (Option.some_inj.mp h).symm
  move_sound _ _ _ h := by cases h

def KeychainPool.outcome (pool : KeychainPool) (i : KeychainCall) : Option KeychainReturn :=
  pool.returned i

theorem KeychainPool.threads_of_outcome {pool : KeychainPool} {i : KeychainCall}
    {out : KeychainReturn} (h : pool.outcome i = some out) : pool.threads i = some (.pure out) :=
  Pool.threads_of_returned h

/-- No process runs, and the keychain has the given entries. -/
def restingKeychain (entries : String → Option RawEntry) : KeychainPool where
  world := {
    entries := entries
    protectedEntries := fun _ => false
    cache := fun _ => none
    lock := none
    history := []
    past := (entries blobKey).toList
    pending := ∅ }
  threads _ := none

theorem restingKeychain_starts (entries : String → Option RawEntry) :
    (restingKeychain entries).Starts where
  threads _ := rfl
  lock := rfl
  history := rfl
  pending := rfl
  cache _ := rfl
  past := rfl

end Scripts

end Buzz.Keychain
