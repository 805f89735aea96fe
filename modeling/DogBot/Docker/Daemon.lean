import DogBot.Docker.Client
import DogBot.Library.Table

/-! # The Docker daemon

The daemon keeps containers by their names. It answers 404 for a container that
does not exist, 409 for one that is to be created and exists, and Claude is
executed in running containers only. A log records what it answered to which
run, and what its other users did; it is not a part of the program.
-/

namespace DogBot

structure Container where
  config : ContainerConfig
  running : Bool
  deriving DecidableEq

/-- What happens to the containers. A container is found by a request that it answers, with whether
it runs afterwards. -/
inductive DaemonEvent
  | created (run : ℕ) (containerName : String) (config : ContainerConfig)
  | found (run : ℕ) (containerName : String) (running : Bool)
  | executed (run : ℕ) (containerName : String) (command : List String)
  | failed (run : ℕ)
  | stopped (containerName : String)
  | removed (containerName : String)
  deriving DecidableEq

/-- The containers, with the log, newest entry first. -/
structure DaemonState where
  containers : Table String Container
  log : List DaemonEvent

namespace DaemonState

def note (s : DaemonState) (event : DaemonEvent) : DaemonState :=
  { s with log := event :: s.log }

def put (s : DaemonState) (containerName : String) (container : Container) : DaemonState :=
  { s with containers := s.containers.insert containerName container }

def remove (s : DaemonState) (containerName : String) : DaemonState :=
  { s with containers := s.containers.erase containerName }

/-- A container is created for a run; it does not run yet. -/
def create (s : DaemonState) (run : ℕ) (containerName : String) (config : ContainerConfig) :
    DaemonState :=
  ((s.put containerName ⟨config, false⟩).note (.created run containerName config)).note
    (.found run containerName false)

/-- A container is started for a run, which changes nothing if it runs already. -/
def start (s : DaemonState) (run : ℕ) (containerName : String) (container : Container) :
    DaemonState :=
  (s.put containerName { container with running := true }).note (.found run containerName true)

end DaemonState

/-- The operation neither asks for a container nor executes Claude in it. -/
def ContainerOp.LeavesContainers : ContainerOp → Prop
  | docker _ | createClaudeExec _ _ _ _ => False
  | session _ | createReadGrants _ | collectExecOutput _ | instantNow => True

def DockerOp.failure (err : BollardError) : (op : DockerOp) → op.Result
  | .inspectContainer _ => .error err
  | .createContainer _ _ => .error err
  | .startContainer _ => .error err

/-- What the daemon may answer to a run. A request that fails may have taken effect, with any
error; the operations that concern no container are answered arbitrarily. -/
inductive DaemonStep (run : ℕ) :
    DaemonState → (op : ContainerOp) → op.Result → DaemonState → Prop
  | inspected {s : DaemonState} {containerName : String} {container : Container}
      (h : s.containers.lookup containerName = some container) :
      DaemonStep run s (.docker (.inspectContainer containerName))
        (.ok ⟨some ⟨some container.running⟩⟩) (s.note (.found run containerName container.running))
  | notInspected {s : DaemonState} {containerName message : String}
      (h : s.containers.lookup containerName = none) :
      DaemonStep run s (.docker (.inspectContainer containerName))
        (.error (.dockerResponseServerError 404 message)) s
  | created {s : DaemonState} {containerName : String} {config : ContainerConfig}
      (h : s.containers.lookup containerName = none) :
      DaemonStep run s (.docker (.createContainer containerName config)) (.ok ())
        (s.create run containerName config)
  | notCreated {s : DaemonState} {containerName message : String} {config : ContainerConfig}
      {container : Container} (h : s.containers.lookup containerName = some container) :
      DaemonStep run s (.docker (.createContainer containerName config))
        (.error (.dockerResponseServerError 409 message))
        (s.note (.found run containerName container.running))
  | started {s : DaemonState} {containerName : String} {container : Container}
      (h : s.containers.lookup containerName = some container) :
      DaemonStep run s (.docker (.startContainer containerName)) (.ok ())
        (s.start run containerName container)
  | notStarted {s : DaemonState} {containerName message : String}
      (h : s.containers.lookup containerName = none) :
      DaemonStep run s (.docker (.startContainer containerName))
        (.error (.dockerResponseServerError 404 message)) s
  | failed {s : DaemonState} (op : DockerOp) (err : BollardError) :
      DaemonStep run s (.docker op) (op.failure err) (s.note (.failed run))
  | createdFailed {s : DaemonState} {containerName : String} {config : ContainerConfig}
      (err : BollardError) (h : s.containers.lookup containerName = none) :
      DaemonStep run s (.docker (.createContainer containerName config)) (.error err)
        ((s.create run containerName config).note (.failed run))
  | startedFailed {s : DaemonState} {containerName : String} {container : Container}
      (err : BollardError) (h : s.containers.lookup containerName = some container) :
      DaemonStep run s (.docker (.startContainer containerName)) (.error err)
        ((s.start run containerName container).note (.failed run))
  | executed {s : DaemonState} {containerName cwd execId : String} {command env : List String}
      {container : Container} (h : s.containers.lookup containerName = some container)
      (hrunning : container.running = true) :
      DaemonStep run s (.createClaudeExec containerName cwd command env) (.ok execId)
        (s.note (.executed run containerName command))
  | notExecuted {s : DaemonState} {containerName cwd message : String} {command env : List String}
      (h : ∀ container, s.containers.lookup containerName = some container →
        container.running = false) :
      DaemonStep run s (.createClaudeExec containerName cwd command env) (.error message) s
  | execFailed {s : DaemonState} {containerName cwd message : String}
      {command env : List String} :
      DaemonStep run s (.createClaudeExec containerName cwd command env) (.error message)
        (s.note (.failed run))
  | executedFailed {s : DaemonState} {containerName cwd message : String}
      {command env : List String} {container : Container}
      (h : s.containers.lookup containerName = some container)
      (hrunning : container.running = true) :
      DaemonStep run s (.createClaudeExec containerName cwd command env) (.error message)
        ((s.note (.executed run containerName command)).note (.failed run))
  | other {s : DaemonState} {op : ContainerOp} {r : op.Result} (h : op.LeavesContainers) :
      DaemonStep run s op r s

/-- What the other users of the daemon do, and containers that stop by themselves. -/
inductive DaemonUse : DaemonState → DaemonState → Prop
  | stop {s : DaemonState} {containerName : String} {container : Container}
      (h : s.containers.lookup containerName = some container) :
      DaemonUse s ((s.put containerName { container with running := false }).note
        (.stopped containerName))
  | remove {s : DaemonState} (containerName : String) :
      DaemonUse s ((s.remove containerName).note (.removed containerName))
  | create {s : DaemonState} {containerName : String} (container : Container)
      (h : s.containers.lookup containerName = none) :
      DaemonUse s (s.put containerName container)
  | start {s : DaemonState} {containerName : String} {container : Container}
      (h : s.containers.lookup containerName = some container) :
      DaemonUse s (s.put containerName { container with running := true })

/-- The log of an execution has an earlier entry in which the run has found the container running. -/
def DaemonEvent.Justified (log : List DaemonEvent) : DaemonEvent → Prop
  | executed run containerName _ => .found run containerName true ∈ log
  | _ => True

/-- Every entry is justified by those before it. -/
def DaemonLogOk : List DaemonEvent → Prop
  | [] => True
  | event :: log => event.Justified log ∧ DaemonLogOk log

/-- How often the runs have created a container. -/
def creations (containerName : String) (log : List DaemonEvent) : ℕ :=
  log.countP fun
    | .created _ containerName' _ => containerName' = containerName
    | _ => false

/-- A container has been removed after a run had found it. -/
def Gone (run : ℕ) (containerName : String) (log : List DaemonEvent) : Prop :=
  ∃ running later earlier, log = later ++ .found run containerName running :: earlier ∧
    .removed containerName ∈ later

/-- A container has been stopped or removed after a run had found it running. -/
def Down (run : ℕ) (containerName : String) (log : List DaemonEvent) : Prop :=
  ∃ later earlier, log = later ++ .found run containerName true :: earlier ∧
    (.removed containerName ∈ later ∨ .stopped containerName ∈ later)

namespace DaemonState

/-- How one state comes after another: the log grows, and a container is still there and still
running if it was, unless the log says otherwise. -/
def Later (s s' : DaemonState) : Prop :=
  ∃ new, s'.log = new ++ s.log ∧ ∀ containerName container,
    s.containers.lookup containerName = some container → .removed containerName ∈ new ∨
      ∃ container', s'.containers.lookup containerName = some container' ∧
        (container.running = true → container'.running = true ∨ .stopped containerName ∈ new)

/-- A run has found the container, and it is there unless it was removed since. -/
def Found (run : ℕ) (containerName : String) (s : DaemonState) : Prop :=
  ∃ running later earlier, s.log = later ++ .found run containerName running :: earlier ∧
    (.removed containerName ∈ later ∨ ∃ container,
      s.containers.lookup containerName = some container)

/-- A run has found the container running, and it runs unless it was stopped since. -/
def Up (run : ℕ) (containerName : String) (s : DaemonState) : Prop :=
  ∃ later earlier, s.log = later ++ .found run containerName true :: earlier ∧
    (.removed containerName ∈ later ∨ ∃ container,
      s.containers.lookup containerName = some container ∧
        (container.running = true ∨ .stopped containerName ∈ later))

variable {s s' s'' : DaemonState} {run : ℕ} {containerName : String} {container : Container}
  {event : DaemonEvent}

theorem Later.refl (s : DaemonState) : s.Later s :=
  ⟨[], rfl, fun _ container h => .inr ⟨container, h, .inl⟩⟩

theorem Later.trans (h : s.Later s') (h' : s'.Later s'') : s.Later s'' := by
  obtain ⟨new, hlog, hkeep⟩ := h
  obtain ⟨new', hlog', hkeep'⟩ := h'
  refine ⟨new' ++ new, by rw [hlog', hlog, List.append_assoc], fun name container hl => ?_⟩
  rcases hkeep name container hl with hgone | ⟨container', hl', hrun⟩
  · exact .inl (List.mem_append_right _ hgone)
  · rcases hkeep' name container' hl' with hgone | ⟨container'', hl'', hrun'⟩
    · exact .inl (List.mem_append_left _ hgone)
    · refine .inr ⟨container'', hl'', fun hr => ?_⟩
      rcases hrun hr with hr | hstop
      · exact (hrun' hr).imp_right (List.mem_append_left _)
      · exact .inr (List.mem_append_right _ hstop)

theorem Later.mem (h : s.Later s') (hmem : event ∈ s.log) : event ∈ s'.log := by
  obtain ⟨new, hlog, -⟩ := h
  rw [hlog]
  exact List.mem_append_right _ hmem

theorem later_note (s : DaemonState) (event : DaemonEvent) : s.Later (s.note event) :=
  ⟨[event], rfl, fun _ container h => .inr ⟨container, h, .inl⟩⟩

theorem later_put (h : ∀ old, s.containers.lookup containerName = some old →
    old.running = true → container.running = true) : s.Later (s.put containerName container) := by
  refine ⟨[], rfl, fun name old hl => .inr ?_⟩
  by_cases hname : name = containerName
  · subst hname
    exact ⟨container, AList.lookup_insert _, fun hr => .inl (h old hl hr)⟩
  · exact ⟨old, (AList.lookup_insert_ne hname).trans hl, .inl⟩

theorem later_start (s : DaemonState) (run : ℕ) (containerName : String) (container : Container) :
    s.Later (s.start run containerName container) :=
  (later_put fun _ _ _ => rfl).trans (later_note _ _)

theorem later_create {config : ContainerConfig}
    (h : s.containers.lookup containerName = none) :
    s.Later (s.create run containerName config) := by
  refine (later_put fun old hl _ => ?_).trans ((later_note _ _).trans (later_note _ _))
  rw [h] at hl
  cases hl

theorem Found.later (h : Found run containerName s) (hl : s.Later s') :
    Found run containerName s' := by
  obtain ⟨running, later, earlier, hlog, hthere⟩ := h
  obtain ⟨new, hnew, hkeep⟩ := hl
  refine ⟨running, new ++ later, earlier, by rw [hnew, hlog, List.append_assoc], ?_⟩
  rcases hthere with hgone | ⟨container, hc⟩
  · exact .inl (List.mem_append_right _ hgone)
  · rcases hkeep _ _ hc with hgone | ⟨container', hc', -⟩
    · exact .inl (List.mem_append_left _ hgone)
    · exact .inr ⟨container', hc'⟩

theorem Up.later (h : Up run containerName s) (hl : s.Later s') : Up run containerName s' := by
  obtain ⟨later, earlier, hlog, hthere⟩ := h
  obtain ⟨new, hnew, hkeep⟩ := hl
  refine ⟨new ++ later, earlier, by rw [hnew, hlog, List.append_assoc], ?_⟩
  rcases hthere with hgone | ⟨container, hc, hrun⟩
  · exact .inl (List.mem_append_right _ hgone)
  · rcases hkeep _ _ hc with hgone | ⟨container', hc', hrun'⟩
    · exact .inl (List.mem_append_left _ hgone)
    · refine .inr ⟨container', hc', ?_⟩
      rcases hrun with hrun | hstop
      · exact (hrun' hrun).imp_right (List.mem_append_left _)
      · exact .inr (List.mem_append_right _ hstop)

theorem Up.mem (h : Up run containerName s) : .found run containerName true ∈ s.log := by
  obtain ⟨later, earlier, hlog, -⟩ := h
  rw [hlog]
  exact List.mem_append_right _ List.mem_cons_self

theorem found_note {running : Bool} (h : s.containers.lookup containerName = some container) :
    Found run containerName (s.note (.found run containerName running)) :=
  ⟨running, [], s.log, rfl, .inr ⟨container, h⟩⟩

theorem up_note (h : s.containers.lookup containerName = some container)
    (hrunning : container.running = true) :
    Up run containerName (s.note (.found run containerName true)) :=
  ⟨[], s.log, rfl, .inr ⟨container, h, .inl hrunning⟩⟩

theorem up_start (s : DaemonState) (run : ℕ) (containerName : String) (container : Container) :
    Up run containerName (s.start run containerName container) :=
  up_note (AList.lookup_insert _) rfl

theorem Found.gone (h : Found run containerName s)
    (hnone : s.containers.lookup containerName = none) : Gone run containerName s.log := by
  obtain ⟨running, later, earlier, hlog, hgone | ⟨container, hc⟩⟩ := h
  · exact ⟨running, later, earlier, hlog, hgone⟩
  · rw [hnone] at hc
    cases hc

theorem Up.down (h : Up run containerName s)
    (hstopped : ∀ container, s.containers.lookup containerName = some container →
      container.running = false) : Down run containerName s.log := by
  obtain ⟨later, earlier, hlog, hgone | ⟨container, hc, hrun | hstop⟩⟩ := h
  · exact ⟨later, earlier, hlog, .inl hgone⟩
  · exact absurd hrun (by rw [hstopped container hc]; decide)
  · exact ⟨later, earlier, hlog, .inr hstop⟩

theorem Later.gone (hl : s.Later s') (h : Gone run containerName s.log) :
    Gone run containerName s'.log := by
  obtain ⟨running, later, earlier, hlog, hmem⟩ := h
  obtain ⟨new, hnew, -⟩ := hl
  exact ⟨running, new ++ later, earlier, by rw [hnew, hlog, List.append_assoc],
    List.mem_append_right _ hmem⟩

theorem Later.down (hl : s.Later s') (h : Down run containerName s.log) :
    Down run containerName s'.log := by
  obtain ⟨later, earlier, hlog, hmem⟩ := h
  obtain ⟨new, hnew, -⟩ := hl
  exact ⟨new ++ later, earlier, by rw [hnew, hlog, List.append_assoc],
    hmem.imp (List.mem_append_right _) (List.mem_append_right _)⟩

end DaemonState

open DaemonState

variable {run : ℕ} {s s' : DaemonState} {op : ContainerOp} {r : op.Result}

theorem DaemonStep.later (h : DaemonStep run s op r s') : s.Later s' := by
  cases h with
  | inspected | notCreated | failed | executed | execFailed => exact later_note _ _
  | notInspected | notStarted | notExecuted | other => exact .refl _
  | created h => exact later_create h
  | started h => exact later_start _ _ _ _
  | createdFailed err h => exact (later_create h).trans (later_note _ _)
  | startedFailed err h => exact (later_start _ _ _ _).trans (later_note _ _)
  | executedFailed => exact (later_note _ _).trans (later_note _ _)

theorem DaemonUse.later (h : DaemonUse s s') : s.Later s' := by
  cases h with
  | @stop name container h =>
    refine ⟨[.stopped name], rfl, fun name' old hl => .inr ?_⟩
    by_cases hname : name' = name
    · subst hname
      exact ⟨_, AList.lookup_insert _, fun _ => .inr List.mem_cons_self⟩
    · exact ⟨old, (AList.lookup_insert_ne hname).trans hl, .inl⟩
  | remove name =>
    refine ⟨[.removed name], rfl, fun name' old hl => ?_⟩
    by_cases hname : name' = name
    · subst hname
      exact .inl List.mem_cons_self
    · exact .inr ⟨old, (AList.lookup_erase_ne hname).trans hl, .inl⟩
  | create container h =>
    refine later_put fun old hl _ => ?_
    rw [h] at hl
    cases hl
  | start h => exact later_put fun _ _ _ => rfl

end DogBot
