import Buzz.AsciiText

/-!
# Attaching to a running Symphony daemon

The daemon publishes its port and its token in the data directory and goes on
when the app is gone. The app leaves a record of the configuration there once
the daemon it spawned is ready, and attaches to a daemon that answers only when
the record names the configuration it wants. Every access to a file is a step, and
the app may crash between any two of them.
-/

namespace Buzz.Symphony

section Types

structure SymphonyDaemon where
  config : String
  port : ℕ
  token : String
  deriving DecidableEq, Repr

structure RunningDaemon where
  id : ℕ
  daemon : SymphonyDaemon
  deriving DecidableEq, Repr

/-- `child` is the daemon that the app owns; an attached one is not owned. -/
structure SymphonyHandle where
  child : Option ℕ
  baseUrl : String
  configPath : String
  deriving DecidableEq, Repr

/-- Where the bring-up stands. -/
inductive SupervisorPhase where
  | down
  | idle
  | attaching (config : String)
  | portRead (config : String) (port : ℕ)
  | tokenRead (config : String) (port : ℕ) (token : String)
  | healthy (config : String) (daemon : SymphonyDaemon)
  | spawning (config : String)
  | waiting (config : String) (child : ℕ)
  | ready (config : String) (child : ℕ) (baseUrl : String)
  deriving DecidableEq, Repr

/-- `same` tells whether the two configurations were one file when the app attached. -/
structure Attachment where
  config : String
  daemon : SymphonyDaemon
  same : Bool
  deriving DecidableEq, Repr

/-- The data directory, the daemons that run and the app. `attached` records every attachment that
was made. -/
structure SymphonyWorld where
  portFile : Option ℕ
  tokenFile : Option String
  configPathFile : Option String
  daemons : List RunningDaemon
  spawned : ℕ
  phase : SupervisorPhase
  handle : Option SymphonyHandle
  error : Option String
  attached : List Attachment
  deriving DecidableEq, Repr

inductive RecordOutcome where
  | written
  | emptied
  | failed
  deriving DecidableEq, Repr

inductive SymphonyEvent where
  | launchApp
  | exitApp
  | crash
  | bringUp (config : String) (isFile resolves : Bool)
  | stop
  | readPort
  | readToken
  | probe (answers : Bool)
  | prove
  | spawn (address : Option (ℕ × String))
  | pollReady
  | timeout
  | record (outcome : RecordOutcome)
  | publishPort (id : ℕ)
  | publishToken (id : ℕ)
  | die (id : ℕ)
  deriving DecidableEq, Repr

end Types

section Files

def loopbackApiBase (port : ℕ) : String := "http://127.0.0.1:" ++ toString port

variable (canonicalize : String → Option String)

def pathsMatch (a b : String) : Bool :=
  match canonicalize a, canonicalize b with
  | some a', some b' => a' == b'
  | _, _ => a == b

def readConfigPathArtifact (file : Option String) : Option String :=
  (file.map trim).filter (· ≠ "")

def configPathProven (file : Option String) (requested : String) : Bool :=
  match readConfigPathArtifact file with
  | some recorded => pathsMatch canonicalize recorded requested
  | none => false

def incompatibleAttachedConfig (running : Option String) (requested : String) : String :=
  "a healthy symphony daemon is already running an incompatible config; requested `" ++ requested ++
    "` but the running daemon was started against `" ++ running.getD "<unknown>" ++
    "` (stop the other daemon or let its owner rebind)"

end Files

namespace SymphonyWorld

variable (canonicalize : String → Option String) (w : SymphonyWorld)

def new : SymphonyWorld where
  portFile := none
  tokenFile := none
  configPathFile := none
  daemons := []
  spawned := 0
  phase := .down
  handle := none
  error := none
  attached := []

def readSymphonyPort : Option ℕ := w.portFile.filter (· ≠ 0)

def readApiToken : Option String := (w.tokenFile.map trim).filter (· ≠ "")

/-- The daemon that answers at a port with a token. -/
def health (port : ℕ) (token : String) : Option SymphonyDaemon :=
  (w.daemons.find? fun running => running.daemon.port == port && running.daemon.token == token).map
    RunningDaemon.daemon

def kill (id : ℕ) : SymphonyWorld :=
  { w with daemons := w.daemons.filter (·.id ≠ id) }

def recordError (message : String) : SymphonyWorld :=
  { w with phase := .idle, error := some message }

/-- Reaps the owned child, if there is one. -/
def shutdownSymphonyState : SymphonyWorld :=
  match w.handle.bind SymphonyHandle.child with
  | some id => { w.kill id with handle := none }
  | none => { w with handle := none }

def bringUpSymphony (config : String) (isFile resolves : Bool) : SymphonyWorld :=
  if w.handle.any (·.configPath == config) then w
  else
    let stopped := w.shutdownSymphonyState
    if !isFile then
      stopped.recordError "symphony config file is missing; generate a WORKFLOW.md before starting"
    else if !resolves then stopped.recordError "could not resolve the symphony data directory"
    else { stopped with phase := .attaching config }

/-- Nothing to attach to: a daemon is spawned. -/
def spawnInstead (config : String) : SymphonyWorld := { w with phase := .spawning config }

def attachOrFail (config : String) (daemon : SymphonyDaemon) : SymphonyWorld :=
  if configPathProven canonicalize w.configPathFile config then
    { w with
      phase := .idle
      handle := some ⟨none, loopbackApiBase daemon.port, config⟩
      attached := ⟨config, daemon, pathsMatch canonicalize daemon.config config⟩ :: w.attached }
  else
    w.recordError (incompatibleAttachedConfig (readConfigPathArtifact w.configPathFile) config)

def spawnDaemon (config : String) : Option (ℕ × String) → SymphonyWorld
  | none => w.recordError "x0x-symphonyd spawn failed"
  | some (port, token) =>
      { w with
        daemons := ⟨w.spawned, config, port, token⟩ :: w.daemons
        spawned := w.spawned + 1
        phase := .waiting config w.spawned }

/-- A time-out drops the child, which kills it. -/
def giveUp (child : ℕ) : SymphonyWorld :=
  (w.kill child).recordError "timed out waiting for symphony daemon health"

def writeConfigPathArtifact (config : String) : RecordOutcome → SymphonyWorld
  | .written => { w with configPathFile := some config }
  | .emptied => { w with configPathFile := some "" }
  | .failed => w

def own (config : String) (child : ℕ) (baseUrl : String) : SymphonyWorld :=
  { w with phase := .idle, handle := some ⟨some child, baseUrl, config⟩ }

def running (id : ℕ) : Option SymphonyDaemon :=
  (w.daemons.find? (·.id == id)).map RunningDaemon.daemon

def step (event : SymphonyEvent) : Option SymphonyWorld :=
  match w.phase, event with
  | _, .publishPort id => (w.running id).map fun daemon => { w with portFile := some daemon.port }
  | _, .publishToken id => (w.running id).map fun daemon =>
      { w with tokenFile := some daemon.token }
  | _, .die id => some (w.kill id)
  | .down, .launchApp => some { w with phase := .idle, handle := none, error := none }
  | .down, _ => none
  | _, .crash => some { w with phase := .down, handle := none }
  | .idle, .exitApp => some { w.shutdownSymphonyState with phase := .down }
  | .idle, .stop => some w.shutdownSymphonyState
  | .idle, .bringUp config isFile resolves => some (w.bringUpSymphony config isFile resolves)
  | .attaching config, .readPort =>
      match w.readSymphonyPort with
      | none => some (w.spawnInstead config)
      | some port => some { w with phase := .portRead config port }
  | .portRead config port, .readToken =>
      match w.readApiToken with
      | none => some (w.spawnInstead config)
      | some token => some { w with phase := .tokenRead config port token }
  | .tokenRead config port token, .probe answers =>
      match (w.health port token).filter fun _ => answers with
      | none => some (w.spawnInstead config)
      | some daemon => some { w with phase := .healthy config daemon }
  | .healthy config daemon, .prove => some (w.attachOrFail canonicalize config daemon)
  | .spawning config, .spawn address => some (w.spawnDaemon config address)
  | .waiting config child, .pollReady => do
      let port ← w.readSymphonyPort
      let token ← w.readApiToken
      let _ ← w.health port token
      return { w with phase := .ready config child (loopbackApiBase port) }
  | .waiting _ child, .timeout => some (w.giveUp child)
  | .ready config child baseUrl, .record outcome =>
      some ((w.writeConfigPathArtifact config outcome).own config child baseUrl)
  | _, _ => none

end SymphonyWorld

/-- A run of the app and its daemons in which `allowed` holds before every event. Between two events
the file system may come to resolve paths in another way. -/
inductive SymphonyRun (allowed : SymphonyWorld → SymphonyEvent → Prop) : SymphonyWorld → Prop where
  | new : SymphonyRun allowed .new
  | step {w u : SymphonyWorld} {event : SymphonyEvent} (canonicalize : String → Option String) :
      SymphonyRun allowed w → allowed w event → w.step canonicalize event = some u →
      SymphonyRun allowed u

/-- The record, if there is one, is the configuration of the daemon. -/
def Names (file : Option String) (daemon : SymphonyDaemon) : Prop :=
  ∀ text ∈ readConfigPathArtifact file, text = daemon.config

def Described (w : SymphonyWorld) : Prop :=
  ∀ running ∈ w.daemons, Names w.configPathFile running.daemon

/-- A daemon was spawned and the record is yet to be written. -/
def SupervisorPhase.Unrecorded : SupervisorPhase → Prop
  | waiting _ _ => True
  | ready _ _ _ => True
  | _ => False

/-- The path of the daemon to spawn has no blanks around it. -/
def SupervisorPhase.Trimmed : SupervisorPhase → Prop
  | spawning config => trim config = config
  | _ => True

/-- A daemon is spawned when none runs and under a path without blanks around it, and before the
record is written the app crashes or fails to write it only where the old record misleads nobody. -/
def Recorded (w : SymphonyWorld) (event : SymphonyEvent) : Prop :=
  match event with
  | .spawn _ => w.daemons = [] ∧ w.phase.Trimmed
  | .crash => w.phase.Unrecorded → Described w
  | .record .failed => Described w
  | _ => True

/-- Every attachment is to a daemon of the configuration that was asked for. -/
def AttachedAsRequested (w : SymphonyWorld) : Prop :=
  ∀ attachment ∈ w.attached, attachment.same = true

section Decisions

instance (file : Option String) (daemon : SymphonyDaemon) : Decidable (Names file daemon) :=
  inferInstanceAs (Decidable (∀ text ∈ readConfigPathArtifact file, text = daemon.config))

instance (w : SymphonyWorld) : Decidable (Described w) :=
  inferInstanceAs (Decidable (∀ running ∈ w.daemons, Names w.configPathFile running.daemon))

instance : DecidablePred SupervisorPhase.Unrecorded
  | .waiting _ _ | .ready _ _ _ => isTrue trivial
  | .down | .idle | .attaching _ | .portRead _ _ | .tokenRead _ _ _ | .healthy _ _ | .spawning _ =>
      isFalse id

instance : DecidablePred SupervisorPhase.Trimmed
  | .spawning config => inferInstanceAs (Decidable (trim config = config))
  | .down | .idle | .attaching _ | .portRead _ _ | .tokenRead _ _ _ | .healthy _ _ | .waiting _ _
  | .ready _ _ _ => isTrue trivial

instance (w : SymphonyWorld) : DecidablePred (Recorded w)
  | .spawn _ => inferInstanceAs (Decidable (w.daemons = [] ∧ w.phase.Trimmed))
  | .crash => inferInstanceAs (Decidable (w.phase.Unrecorded → Described w))
  | .record .failed => inferInstanceAs (Decidable (Described w))
  | .record .written | .record .emptied | .launchApp | .exitApp | .bringUp _ _ _ | .stop
  | .readPort | .readToken | .probe _ | .prove | .pollReady | .timeout | .publishPort _
  | .publishToken _ | .die _ => isTrue trivial

instance (w : SymphonyWorld) : Decidable (AttachedAsRequested w) :=
  inferInstanceAs (Decidable (∀ attachment ∈ w.attached, attachment.same = true))

end Decisions

section Records

variable {canonicalize : String → Option String} {file : Option String} {daemon : SymphonyDaemon}
  {config : String}

theorem names_empty : Names (some "") daemon := by
  intro text h
  have hempty : readConfigPathArtifact (some "") = none := by decide
  rw [hempty] at h
  cases h

theorem names_of_trim_eq (htrim : trim config = config) (hd : daemon.config = config) :
    Names (some config) daemon := by
  intro text h
  simp only [readConfigPathArtifact, Option.map_some, htrim, Option.mem_def,
    Option.filter_eq_some_iff, Option.some.injEq] at h
  rw [hd, h.1]

/-- A daemon that answers is one of those that run. -/
theorem Described.names_of_health {w : SymphonyWorld} {port : ℕ} {token : String}
    (h : Described w) (hd : w.health port token = some daemon) :
    Names w.configPathFile daemon := by
  obtain ⟨running, hr, rfl⟩ := Option.map_eq_some_iff.mp hd
  exact h running (List.mem_of_find?_eq_some hr)

/-- A proof from a record that names the daemon is a proof about the daemon. -/
theorem Names.pathsMatch_of_proven (h : Names file daemon)
    (hp : configPathProven canonicalize file config = true) :
    pathsMatch canonicalize daemon.config config = true := by
  cases hr : readConfigPathArtifact file with
  | none => simp [configPathProven, hr] at hp
  | some recorded =>
    rw [← h recorded hr]
    simpa [configPathProven, hr] using hp

end Records

section Invariant

variable {canonicalize : String → Option String} {w u : SymphonyWorld} {phase : SupervisorPhase}
  {event : SymphonyEvent}

/-- The only daemon that may run is the child that was spawned for the configuration. -/
structure OwnsAll (w : SymphonyWorld) (config : String) (child : ℕ) : Prop where
  trimmed : trim config = config
  id_eq : ∀ running ∈ w.daemons, running.id = child
  config_eq : ∀ running ∈ w.daemons, running.daemon.config = config

/-- What holds of the files and the daemons in each phase. -/
def Accounted (w : SymphonyWorld) : SupervisorPhase → Prop
  | .waiting config child => OwnsAll w config child
  | .ready config child _ => OwnsAll w config child
  | .healthy _ daemon => Described w ∧ Names w.configPathFile daemon
  | _ => Described w

structure Sound (w : SymphonyWorld) : Prop where
  accounted : Accounted w w.phase
  faithful : AttachedAsRequested w

theorem Described.mono (h : Described w) (hsub : u.daemons ⊆ w.daemons)
    (hfile : u.configPathFile = w.configPathFile) : Described u := by
  intro running hr
  rw [hfile]
  exact h running (hsub hr)

theorem OwnsAll.mono {config : String} {child : ℕ} (h : OwnsAll w config child)
    (hsub : u.daemons ⊆ w.daemons) : OwnsAll u config child where
  trimmed := h.trimmed
  id_eq running hr := h.id_eq running (hsub hr)
  config_eq running hr := h.config_eq running (hsub hr)

theorem Accounted.mono (h : Accounted w phase) (hsub : u.daemons ⊆ w.daemons)
    (hfile : u.configPathFile = w.configPathFile) : Accounted u phase := by
  cases phase with
  | waiting config child | ready config child baseUrl => exact OwnsAll.mono h hsub
  | healthy config daemon => exact ⟨Described.mono h.1 hsub hfile, by rw [hfile]; exact h.2⟩
  | _ => exact Described.mono h hsub hfile

theorem Accounted.described (h : Accounted w phase) (hp : ¬phase.Unrecorded) : Described w := by
  cases phase with
  | waiting config child | ready config child baseUrl => exact absurd trivial hp
  | healthy config daemon => exact h.1
  | _ => exact h

theorem kill_daemons_subset (w : SymphonyWorld) (id : ℕ) : (w.kill id).daemons ⊆ w.daemons := by
  intro running hr
  exact List.mem_of_mem_filter hr

theorem shutdown_daemons_subset (w : SymphonyWorld) :
    w.shutdownSymphonyState.daemons ⊆ w.daemons := by
  unfold SymphonyWorld.shutdownSymphonyState
  split
  · exact kill_daemons_subset w _
  · exact List.Subset.refl _

@[simp]
theorem shutdown_configPathFile (w : SymphonyWorld) :
    w.shutdownSymphonyState.configPathFile = w.configPathFile := by
  unfold SymphonyWorld.shutdownSymphonyState
  split <;> rfl

@[simp]
theorem shutdown_attached (w : SymphonyWorld) :
    w.shutdownSymphonyState.attached = w.attached := by
  unfold SymphonyWorld.shutdownSymphonyState
  split <;> rfl

@[simp]
theorem shutdown_phase (w : SymphonyWorld) : w.shutdownSymphonyState.phase = w.phase := by
  unfold SymphonyWorld.shutdownSymphonyState
  split <;> rfl

/-- A step that spawns nothing and writes no record. -/
theorem Sound.mono (h : Sound w) (hacc : Accounted w u.phase) (hsub : u.daemons ⊆ w.daemons)
    (hfile : u.configPathFile = w.configPathFile) (hatt : u.attached = w.attached) : Sound u where
  accounted := hacc.mono hsub hfile
  faithful := by
    intro attachment ha
    rw [hatt] at ha
    exact h.faithful attachment ha

theorem Sound.new : Sound .new where
  accounted := by
    intro running hr
    cases hr
  faithful := by
    intro attachment ha
    cases ha

theorem Sound.bringUp (h : Sound w) (hphase : w.phase = .idle) (config : String)
    (isFile resolves : Bool) : Sound (w.bringUpSymphony config isFile resolves) := by
  have hdesc : Described w := by simpa [hphase, Accounted] using h.accounted
  unfold SymphonyWorld.bringUpSymphony
  split
  · exact h
  · apply h.mono
    · dsimp only
      split_ifs <;> exact hdesc
    · dsimp only
      split_ifs <;> exact shutdown_daemons_subset w
    · dsimp only
      split_ifs <;> exact shutdown_configPathFile w
    · dsimp only
      split_ifs <;> exact shutdown_attached w

/-- A healthy daemon is attached to only under the configuration it was spawned with. -/
theorem Sound.attachOrFail {config : String} {daemon : SymphonyDaemon} (h : Sound w)
    (hphase : w.phase = .healthy config daemon) :
    Sound (w.attachOrFail canonicalize config daemon) := by
  have hacc : Described w ∧ Names w.configPathFile daemon := by
    simpa [hphase, Accounted] using h.accounted
  unfold SymphonyWorld.attachOrFail
  split
  next hp =>
    refine ⟨hacc.1, ?_⟩
    intro attachment ha
    obtain rfl | ha := List.mem_cons.mp ha
    · exact hacc.2.pathsMatch_of_proven hp
    · exact h.faithful attachment ha
  next hp => exact h.mono hacc.1 (List.Subset.refl _) rfl rfl

theorem Sound.spawn {config : String} (h : Sound w) (hphase : w.phase = .spawning config)
    (hnone : w.daemons = []) (htrim : trim config = config) (address : Option (ℕ × String)) :
    Sound (w.spawnDaemon config address) := by
  have hdesc : Described w := by simpa [hphase, Accounted] using h.accounted
  cases address with
  | none => exact h.mono hdesc (List.Subset.refl _) rfl rfl
  | some address =>
    have honly : ∀ running ∈ (w.spawnDaemon config (some address)).daemons,
        running = ⟨w.spawned, config, address.1, address.2⟩ := by
      intro running hr
      simpa [SymphonyWorld.spawnDaemon, hnone] using hr
    refine ⟨⟨htrim, ?_, ?_⟩, h.faithful⟩
    · intro running hr
      rw [honly running hr]
    · intro running hr
      rw [honly running hr]

/-- The child is the only daemon, so nothing runs once it is dropped. -/
theorem Sound.giveUp {config : String} {child : ℕ} (h : Sound w)
    (hphase : w.phase = .waiting config child) : Sound (w.giveUp child) := by
  have howns : OwnsAll w config child := by simpa [hphase, Accounted] using h.accounted
  refine ⟨?_, h.faithful⟩
  intro running hr
  have hmem : running ∈ w.daemons ∧ running.id ≠ child := by
    simpa [SymphonyWorld.giveUp, SymphonyWorld.recordError, SymphonyWorld.kill] using hr
  exact absurd (howns.id_eq running hmem.1) hmem.2

theorem Sound.record {config baseUrl : String} {child : ℕ} (h : Sound w)
    (hphase : w.phase = .ready config child baseUrl) (outcome : RecordOutcome)
    (hfailed : outcome = .failed → Described w) :
    Sound ((w.writeConfigPathArtifact config outcome).own config child baseUrl) := by
  have howns : OwnsAll w config child := by simpa [hphase, Accounted] using h.accounted
  cases outcome with
  | written =>
    refine ⟨?_, h.faithful⟩
    intro running hr
    exact names_of_trim_eq howns.trimmed (howns.config_eq running hr)
  | emptied =>
    refine ⟨?_, h.faithful⟩
    intro running hr
    exact names_empty
  | failed => exact h.mono (hfailed rfl) (List.Subset.refl _) rfl rfl

theorem Sound.step (h : Sound w) (hok : Recorded w event)
    (hs : w.step canonicalize event = some u) : Sound u := by
  have hacc := h.accounted
  unfold SymphonyWorld.step at hs
  split at hs
  -- The daemons act on their own in every phase.
  · obtain ⟨daemon, -, rfl⟩ := Option.map_eq_some_iff.mp hs
    exact h.mono hacc (List.Subset.refl _) rfl rfl
  · obtain ⟨daemon, -, rfl⟩ := Option.map_eq_some_iff.mp hs
    exact h.mono hacc (List.Subset.refl _) rfl rfl
  · obtain rfl := Option.some.inj hs
    exact h.mono hacc (kill_daemons_subset w _) rfl rfl
  next hphase =>
    obtain rfl := Option.some.inj hs
    exact h.mono (hacc.described (by simp [hphase, SupervisorPhase.Unrecorded]))
      (List.Subset.refl _) rfl rfl
  · cases hs
  · obtain rfl := Option.some.inj hs
    have hdesc : Described w := by
      by_cases hu : w.phase.Unrecorded
      · exact hok hu
      · exact hacc.described hu
    exact h.mono hdesc (List.Subset.refl _) rfl rfl
  next hphase =>
    obtain rfl := Option.some.inj hs
    exact h.mono (hacc.described (by simp [hphase, SupervisorPhase.Unrecorded]))
      (shutdown_daemons_subset w) (shutdown_configPathFile w) (shutdown_attached w)
  next hphase =>
    obtain rfl := Option.some.inj hs
    apply h.mono _ (shutdown_daemons_subset w) (shutdown_configPathFile w) (shutdown_attached w)
    rw [shutdown_phase]
    exact hacc
  next hphase =>
    obtain rfl := Option.some.inj hs
    exact h.bringUp hphase _ _ _
  next hphase =>
    have hdesc := hacc.described (by simp [hphase, SupervisorPhase.Unrecorded])
    split at hs
    all_goals
      obtain rfl := Option.some.inj hs
      exact h.mono hdesc (List.Subset.refl _) rfl rfl
  next hphase =>
    have hdesc := hacc.described (by simp [hphase, SupervisorPhase.Unrecorded])
    split at hs
    all_goals
      obtain rfl := Option.some.inj hs
      exact h.mono hdesc (List.Subset.refl _) rfl rfl
  next hphase =>
    have hdesc := hacc.described (by simp [hphase, SupervisorPhase.Unrecorded])
    split at hs
    next =>
      obtain rfl := Option.some.inj hs
      exact h.mono hdesc (List.Subset.refl _) rfl rfl
    next daemon hd =>
      obtain rfl := Option.some.inj hs
      have hname := hdesc.names_of_health (Option.filter_eq_some_iff.mp hd).1
      exact h.mono ⟨hdesc, hname⟩ (List.Subset.refl _) rfl rfl
  next hphase =>
    obtain rfl := Option.some.inj hs
    exact h.attachOrFail hphase
  next hphase =>
    obtain rfl := Option.some.inj hs
    have htrim : w.phase.Trimmed := hok.2
    rw [hphase] at htrim
    exact h.spawn hphase hok.1 htrim _
  next hphase =>
    obtain ⟨port, -, hs⟩ := Option.bind_eq_some_iff.mp hs
    obtain ⟨token, -, hs⟩ := Option.bind_eq_some_iff.mp hs
    obtain ⟨daemon, -, hs⟩ := Option.bind_eq_some_iff.mp hs
    obtain rfl := Option.some.inj hs
    exact h.mono (by simpa [hphase, Accounted] using hacc) (List.Subset.refl _) rfl rfl
  next hphase =>
    obtain rfl := Option.some.inj hs
    exact h.giveUp hphase
  next outcome hphase =>
    obtain rfl := Option.some.inj hs
    apply h.record hphase
    rintro rfl
    exact hok
  · cases hs

theorem SymphonyRun.sound (h : SymphonyRun Recorded w) : Sound w := by
  induction h with
  | new => exact Sound.new
  | step canonicalize _ hok hs ih => exact ih.step hok hs

end Invariant

section Runs

/-- The events of a history, one after the other. -/
def SymphonyWorld.steps (canonicalize : String → Option String) (w : SymphonyWorld) :
    List SymphonyEvent → Option SymphonyWorld
  | [] => some w
  | event :: events => do
      let next ← w.step canonicalize event
      next.steps canonicalize events

/-- Whether `allowed` holds before every event of a history. -/
def SymphonyWorld.Permits (canonicalize : String → Option String)
    (allowed : SymphonyWorld → SymphonyEvent → Prop) (w : SymphonyWorld) :
    List SymphonyEvent → Prop
  | [] => True
  | event :: events =>
      allowed w event ∧ ∀ next ∈ w.step canonicalize event,
        next.Permits canonicalize allowed events

instance decidablePermits (canonicalize : String → Option String)
    (allowed : SymphonyWorld → SymphonyEvent → Prop) [∀ w, DecidablePred (allowed w)] :
    ∀ (events : List SymphonyEvent) (w : SymphonyWorld),
      Decidable (w.Permits canonicalize allowed events)
  | [], _ => isTrue trivial
  | event :: events, w =>
      have (next : SymphonyWorld) := decidablePermits canonicalize allowed events next
      inferInstanceAs (Decidable (allowed w event ∧ ∀ next ∈ w.step canonicalize event,
        next.Permits canonicalize allowed events))

theorem SymphonyRun.of_steps {canonicalize : String → Option String}
    {allowed : SymphonyWorld → SymphonyEvent → Prop} {events : List SymphonyEvent} :
    ∀ {w u : SymphonyWorld}, SymphonyRun allowed w → w.Permits canonicalize allowed events →
      w.steps canonicalize events = some u → SymphonyRun allowed u := by
  induction events with
  | nil =>
    intro w u hw _ hs
    obtain rfl := Option.some.inj hs
    exact hw
  | cons event events ih =>
    intro w u hw hp hs
    obtain ⟨next, hnext, hs⟩ := Option.bind_eq_some_iff.mp hs
    exact ih (.step canonicalize hw hp.1 hnext) (hp.2 next hnext) hs

end Runs

/-- The app attaches only to a daemon that was spawned with the requested configuration. -/
theorem attached_as_requested {w : SymphonyWorld} (h : SymphonyRun Recorded w) :
    AttachedAsRequested w :=
  h.sound.faithful

/-- A first run of the app ends in a crash, and the daemon it left is found by the second one. -/
def restartHistory : List SymphonyEvent :=
  [.launchApp, .bringUp "/a" true true, .readPort, .spawn (some (1, "t")), .publishPort 0,
    .publishToken 0, .pollReady, .record .written, .crash,
    .launchApp, .bringUp "/a" true true, .readPort, .readToken, .probe true, .prove]

theorem attached_as_requested_restart :
    ∃ w : SymphonyWorld, w.attached = [⟨"/a", ⟨"/a", 1, "t"⟩, true⟩] ∧ AttachedAsRequested w := by
  have hsteps : SymphonyWorld.new.steps some restartHistory =
      some { SymphonyWorld.new with
        portFile := some 1
        tokenFile := some "t"
        configPathFile := some "/a"
        daemons := [⟨0, "/a", 1, "t"⟩]
        spawned := 1
        phase := .idle
        handle := some ⟨none, loopbackApiBase 1, "/a"⟩
        attached := [⟨"/a", ⟨"/a", 1, "t"⟩, true⟩] } := by decide +kernel
  exact ⟨_, rfl, attached_as_requested (.of_steps .new (by decide +kernel) hsteps)⟩

/-- The record of the first run is left while the second one crashes before it writes its own: the
third run takes the daemon of the second for one of the first configuration. -/
def staleHistory : List SymphonyEvent :=
  [.launchApp, .bringUp "/a" true true, .readPort, .spawn (some (1, "t")), .publishPort 0,
    .publishToken 0, .pollReady, .record .written, .exitApp,
    .launchApp, .bringUp "/b" true true, .readPort, .readToken, .probe true,
    .spawn (some (2, "u")), .publishPort 1, .publishToken 1, .crash,
    .launchApp, .bringUp "/a" true true, .readPort, .readToken, .probe true, .prove]

theorem attached_to_other_config :
    ¬∀ w : SymphonyWorld, SymphonyRun (fun _ _ => True) w → AttachedAsRequested w := by
  intro h
  have hsteps : ∃ w ∈ SymphonyWorld.new.steps some staleHistory, ¬AttachedAsRequested w := by
    decide +kernel
  obtain ⟨w, hw, hbad⟩ := hsteps
  exact hbad (h w (.of_steps .new (by decide +kernel) hw))

end Buzz.Symphony
