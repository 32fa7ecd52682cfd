import Buzz.CompanyPlan
import Buzz.JsonValue
import Buzz.ProcessPool
import Buzz.ReplacedFile

/-!
# What the company commands share

The commands of one run of the app share the manifests on disk, the run lock,
the Symphony handle and the active binding. Each access is one request. Only the
manifests outlive a crash. The world also keeps what the statements speak about:
the template an instance was reserved under, how many run issues were requested
for it, which tombstones were saved, who is inside a save or a cancel, and who
stored the handle.
-/

namespace Buzz.Company

open EffectProgram ReplacedFile

section Requests

inductive ManifestError where
  | notFound
  | decode (message : String)
  | io (message : String)
  | cancelled
  deriving DecidableEq, Repr

def ManifestError.toText : ManifestError → String
  | notFound => "manifest not found"
  | decode message => "manifest decode error: " ++ message
  | io message => "manifest io error: " ++ message
  | cancelled => "manifest cancelled"

structure EnsureResult where
  id : String
  created : Bool
  deriving DecidableEq, Repr

structure EnsureGroupRequest where
  name : String
  description : String
  visibility : GroupVisibility
  idempotencyKey : String
  deriving DecidableEq, Repr

structure EnsureStoreRequest where
  name : String
  topic : String
  policy : StorePolicy
  deriving DecidableEq, Repr

structure EnsureTaskListRequest where
  name : String
  topic : String
  deriving DecidableEq, Repr

structure EnsureMemberRequest where
  groupId : String
  agentId : String
  displayName : Option String
  deriving DecidableEq, Repr

structure CompanyAgentIdentity where
  role : String
  agentId : String
  deriving DecidableEq, Repr

structure SymphonyIssueDraft where
  title : String
  description : Option String
  priority : Option ℕ
  labels : List String
  deriving DecidableEq, Repr

/-- `config` is the directory of the instance whose workflow the daemon runs. -/
structure CompanyHandle where
  config : String
  owned : Bool
  deriving DecidableEq, Repr

/-- `guard` is the manifest whose save starts with the load, and `rebind` marks the bring-up of the
boot reconciliation. A rename is made in the name of the manifest that is saved. -/
inductive CompanyRequest where
  | acquireRunLock
  | releaseRunLock
  | listInstances
  | loadManifest (key : String) (guard : Option InstanceManifest)
  | openTemporary (key : String)
  | writeTemporary (key : String) (file : ℕ) (manifest : InstanceManifest)
  | renameTemporary (key : String) (manifest : InstanceManifest)
  | now
  | ensureGroup (request : EnsureGroupRequest)
  | ensureStore (request : EnsureStoreRequest)
  | ensureTaskList (request : EnsureTaskListRequest)
  | provisionIdentities (instanceId : String) (roles : List RoleSpec)
  | ensureGroupMember (request : EnsureMemberRequest)
  | ownerX0xdEndpoint
  | writeWorkflow (key : String) (text : String)
  | handleConfig
  | bringUp (key : String)
  | storeHandle (handle : CompanyHandle) (rebind : Bool)
  | symphonyReady
  | shutdownSymphony
  | shutdownIdentities (instanceId : String)
  | setActive (instanceId : String)
  | clearActive (instanceId : String)
  | buildClient
  | createIssue (instanceId : String) (draft : SymphonyIssueDraft)

@[reducible]
def CompanyRequest.Reply : CompanyRequest → Type
  | .listInstances => List String
  | .loadManifest _ _ => Except ManifestError InstanceManifest
  | .openTemporary _ => Except String ℕ
  | .writeTemporary _ _ _ => Except String Unit
  | .renameTemporary _ _ => Except String Unit
  | .now => Option ℕ
  | .ensureGroup _ => Except String EnsureResult
  | .ensureStore _ => Except String EnsureResult
  | .ensureTaskList _ => Except String EnsureResult
  | .provisionIdentities _ _ => Except String (List CompanyAgentIdentity)
  | .ensureGroupMember _ => Except String Unit
  | .ownerX0xdEndpoint => Except String String
  | .writeWorkflow _ _ => Except String Unit
  | .handleConfig => Option String
  | .bringUp _ => Except String Bool
  | .symphonyReady => Bool
  | .buildClient => Except String Unit
  | .createIssue _ _ => Except String Json
  | _ => Unit

/-- A save that would replace the tombstone of the same instance is refused. -/
def guardRefuses (manifest : InstanceManifest) : Except ManifestError InstanceManifest → Bool
  | .ok existing =>
      existing.instanceId == manifest.instanceId && existing.status == .cancelled
  | .error _ => false

/-- The directory whose manifest the thread is in the middle of saving after the reply. -/
def CompanyRequest.savingAfter : (request : CompanyRequest) → request.Reply → Option String
  | .loadManifest key (some manifest), answer =>
      if guardRefuses manifest answer then none else some key
  | .openTemporary key, .ok _ => some key
  | .writeTemporary key _ _, .ok _ => some key
  | _, _ => none

end Requests

/-- A thread of the `app`-th run of the app. -/
structure CompanyThread where
  app : ℕ
  slot : ℕ
  deriving DecidableEq, Repr

/-- `issued`, `tombstoned`, `template`, `launcher`, `saving` and `cleaning` are kept for the
statements: `launcher` is the thread that stored the handle, `saving` the directory in which a
thread is in the middle of a save, and `cleaning` the one a thread has cancelled without having shut
Symphony down since. -/
structure CompanyWorld where
  app : ℕ
  lock : Option CompanyThread
  slots : String → Slot InstanceManifest
  handle : Option CompanyHandle
  active : Option String
  template : String → Option String
  issued : String → ℕ
  tombstoned : String → Bool
  launcher : Option CompanyThread
  saving : CompanyThread → Option String
  cleaning : CompanyThread → Option String

namespace CompanyWorld

variable (w : CompanyWorld)

def new : CompanyWorld where
  app := 0
  lock := none
  slots := fun _ => .new
  handle := none
  active := none
  template := fun _ => none
  issued := fun _ => 0
  tombstoned := fun _ => false
  launcher := none
  saving := fun _ => none
  cleaning := fun _ => none

/-- The manifest that a reader finds. -/
def manifest (key : String) : Option InstanceManifest := (w.slots key).mainValue

def Cancelled (key : String) : Prop := ∃ m ∈ w.manifest key, m.status = .cancelled

instance (key : String) : Decidable (w.Cancelled key) :=
  inferInstanceAs (Decidable (∃ m ∈ w.manifest key, m.status = .cancelled))

def setSlot (key : String) (slot : Slot InstanceManifest) : CompanyWorld :=
  { w with slots := Function.update w.slots key slot }

/-- The first manifest of a directory fixes the template of the instance. -/
def commitRename (i : CompanyThread) (key : String) (file : ℕ) (manifest : InstanceManifest) :
    CompanyWorld :=
  { w.setSlot key ((w.slots key).renamed file) with
    template :=
      if (w.slots key).main.isNone then Function.update w.template key (some manifest.templateId)
      else w.template
    tombstoned :=
      if manifest.status = .cancelled then Function.update w.tombstoned key true
      else w.tombstoned
    cleaning :=
      if manifest.status = .cancelled ∧ ¬w.Cancelled key then
        Function.update w.cleaning i (some key)
      else w.cleaning }

def storeHandle (i : CompanyThread) (handle : CompanyHandle) : CompanyWorld :=
  { w with handle := some handle, launcher := some i }

def shutdownSymphony (i : CompanyThread) : CompanyWorld :=
  { w with handle := none, launcher := none, cleaning := Function.update w.cleaning i none }

def createIssue (instanceId : String) : CompanyWorld :=
  { w with issued := Function.update w.issued instanceId (w.issued instanceId + 1) }

/-- A load of an existing file may also fail. -/
def Loads (key : String) : Except ManifestError InstanceManifest → Prop
  | .ok manifest => w.manifest key = some manifest
  | .error .notFound => (w.slots key).main = none
  | .error (.decode _) => (w.slots key).main ≠ none ∧ w.manifest key = none
  | .error (.io _) => True
  | .error .cancelled => False

def Opens (key : String) : Except String ℕ → CompanyWorld → Prop
  | .ok file, u =>
      (w.slots key).opened.temporary = some file ∧ u = w.setSlot key (w.slots key).opened
  | .error _, u => u = w

def WritesTo (key : String) (file : ℕ) (manifest : InstanceManifest) :
    Except String Unit → CompanyWorld → Prop
  | .ok _, u => ∃ body, (w.slots key).Writes file manifest body ∧
      u = w.setSlot key ((w.slots key).written file body)
  | .error _, u => ∃ body, (w.slots key).FailsToWrite file body ∧
      u = w.setSlot key ((w.slots key).written file body)

def Renames (i : CompanyThread) (key : String) (manifest : InstanceManifest) :
    Except String Unit → CompanyWorld → Prop
  | .ok _, u => ∃ file, (w.slots key).temporary = some file ∧ u = w.commitRename i key file manifest
  | .error _, u => u = w

/-- How a request of thread `i` may be answered. A request to the daemons changes nothing here. -/
def Answers (i : CompanyThread) : (request : CompanyRequest) → request.Reply → CompanyWorld → Prop
  | .acquireRunLock, _, u => w.lock = none ∧ u = { w with lock := some i }
  | .releaseRunLock, _, u => u = { w with lock := none }
  | .listInstances, keys, u => (keys.Nodup ∧ ∀ key ∈ keys, (w.slots key).main ≠ none) ∧ u = w
  | .loadManifest key _, answer, u => w.Loads key answer ∧ u = w
  | .openTemporary key, answer, u => w.Opens key answer u
  | .writeTemporary key file manifest, answer, u => w.WritesTo key file manifest answer u
  | .renameTemporary key manifest, answer, u => w.Renames i key manifest answer u
  | .handleConfig, answer, u => answer = w.handle.map (·.config) ∧ u = w
  | .symphonyReady, answer, u => answer = w.handle.isSome ∧ u = w
  | .storeHandle handle _, _, u => u = w.storeHandle i handle
  | .shutdownSymphony, _, u => u = w.shutdownSymphony i
  | .setActive instanceId, _, u => u = { w with active := some instanceId }
  | .clearActive instanceId, _, u =>
      u = { w with active := if w.active = some instanceId then none else w.active }
  | .createIssue instanceId _, _, u => u = w.createIssue instanceId
  | _, _, u => u = w

/-- A thread acts in its own run of the app only. -/
def Commits (i : CompanyThread) (request : CompanyRequest) (answer : request.Reply)
    (u : CompanyWorld) : Prop :=
  i.app = w.app ∧ ∃ v, w.Answers i request answer v ∧
    u = { v with saving := Function.update v.saving i (request.savingAfter answer) }

/-- All threads die, and nothing but the manifests is left. -/
def crash : CompanyWorld :=
  { w with
    app := w.app + 1
    lock := none
    slots := fun key => (w.slots key).settled
    handle := none
    active := none
    launcher := none
    saving := fun _ => none
    cleaning := fun _ => none }

end CompanyWorld

/-- What is allowed to happen in a run. -/
structure CompanyPolicy where
  step : CompanyThread → CompanyWorld → (request : CompanyRequest) → request.Reply → Prop
  crash : CompanyWorld → Prop

def CompanyPolicy.any : CompanyPolicy where
  step _ _ _ _ := True
  crash _ := True

end Buzz.Company
