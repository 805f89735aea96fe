import DogBot.Docker.Daemon
import DogBot.Exec.Executions

/-! # Runs in one container

Any number of runs make sure at the same time that the container runs, while
other users of the daemon start, stop and remove containers. Runs that find no
container race to create it; all but one of them are told that it exists, and
each of them starts it. No run executes Claude before it has seen the container
running.
-/

namespace DogBot

open DaemonState Program

/-- What a run may ask of the daemon: the container that it creates is the one of its
specification, and it executes Claude after it has found the container running. -/
def DaemonState.Allows (spec : ContainerSpec) (run : ℕ) (s : DaemonState) : ContainerOp → Prop
  | .docker (.createContainer containerName config) =>
    containerName = spec.containerName ∧ config = spec.createConfig
  | .createClaudeExec containerName _ _ _ =>
    containerName = spec.containerName ∧ .found run containerName true ∈ s.log
  | _ => True

/-- A container is created only where there is none: the one that was there before, from the
beginning or since a run has created it, has been removed. -/
structure DaemonState.CreatedOnce (containers : Table String Container) (s : DaemonState) :
    Prop where
  initial : ∀ containerName ∈ containers,
    .removed containerName ∈ s.log ∨ containerName ∈ s.containers
  kept : ∀ later run containerName config earlier,
    s.log = later ++ .created run containerName config :: earlier →
      .removed containerName ∈ later ∨ containerName ∈ s.containers
  vacant : ∀ later run containerName config earlier, containerName ∈ containers →
    s.log = later ++ .created run containerName config :: earlier →
      .removed containerName ∈ earlier
  once : ∀ later run containerName config between run' config' earlier,
    s.log = later ++ .created run containerName config ::
        (between ++ .created run' containerName config' :: earlier) →
      .removed containerName ∈ between

/-- What the log says about the containers: executions are justified, and what was created is the
container of the specification, where there was none. -/
structure DaemonState.Inv (spec : ContainerSpec) (containers : Table String Container)
    (s : DaemonState) : Prop where
  ok : DaemonLogOk s.log
  created : ∀ run containerName config, .created run containerName config ∈ s.log →
    containerName = spec.containerName ∧ config = spec.createConfig
  executed : ∀ run containerName command, .executed run containerName command ∈ s.log →
    containerName = spec.containerName
  createdOnce : s.CreatedOnce containers

section Invariant

variable {spec : ContainerSpec} {containers : Table String Container} {s s' : DaemonState}
  {run : ℕ} {containerName : String} {container : Container} {config : ContainerConfig}
  {event : DaemonEvent}

/-- The entries that say nothing about what exists. -/
def DaemonEvent.IsReport : DaemonEvent → Prop
  | .found _ _ _ | .failed _ | .stopped _ => True
  | .created _ _ _ | .executed _ _ _ | .removed _ => False

namespace DaemonState

namespace CreatedOnce

/-- Without a creation, containers disappear only where the log says so. -/
theorem note (h : s.CreatedOnce containers) (hlog : s'.log = event :: s.log)
    (hevent : ∀ run containerName config, event ≠ .created run containerName config)
    (hkeep : ∀ containerName ∈ s.containers,
      event = .removed containerName ∨ containerName ∈ s'.containers) :
    s'.CreatedOnce containers := by
  have hpast : ∀ {later earlier : List DaemonEvent} {run : ℕ} {containerName : String}
      {config : ContainerConfig},
      s'.log = later ++ .created run containerName config :: earlier → ∃ later',
        later = event :: later' ∧
          s.log = later' ++ .created run containerName config :: earlier := by
    intro later earlier run containerName config heq
    rw [hlog] at heq
    cases later with
    | nil => exact absurd (List.cons.inj heq).1 (hevent _ _ _)
    | cons event' later =>
      obtain ⟨rfl, hold⟩ := List.cons.inj heq
      exact ⟨later, rfl, hold⟩
  have hthere : ∀ {containerName : String} {old : List DaemonEvent},
      .removed containerName ∈ old ∨ containerName ∈ s.containers →
        .removed containerName ∈ event :: old ∨ containerName ∈ s'.containers := by
    rintro containerName old (hgone | hc)
    · exact .inl (List.mem_cons_of_mem _ hgone)
    · refine (hkeep containerName hc).imp_left fun he => ?_
      rw [he]
      exact List.mem_cons_self
  constructor
  · intro containerName hc
    rw [hlog]
    exact hthere (h.initial containerName hc)
  · intro later run containerName config earlier heq
    obtain ⟨later', rfl, hold⟩ := hpast heq
    exact hthere (h.kept _ _ _ _ _ hold)
  · intro later run containerName config earlier hc heq
    obtain ⟨later', rfl, hold⟩ := hpast heq
    exact h.vacant _ _ _ _ _ hc hold
  · intro later run containerName config between run' config' earlier heq
    obtain ⟨later', rfl, hold⟩ := hpast heq
    exact h.once _ _ _ _ _ _ _ _ hold

/-- The container is created only where there is none. -/
theorem create (h : s.CreatedOnce containers) (hnone : containerName ∉ s.containers)
    (hlog : s'.log = .created run containerName config :: s.log)
    (hkeep : ∀ name, name ∈ s'.containers ↔ name = containerName ∨ name ∈ s.containers) :
    s'.CreatedOnce containers := by
  constructor
  · intro name hc
    rw [hlog]
    exact (h.initial name hc).imp (List.mem_cons_of_mem _) fun hthere => (hkeep name).mpr
      (.inr hthere)
  · intro later run' name config' earlier heq
    rw [hlog] at heq
    cases later with
    | nil =>
      obtain ⟨-, rfl, -⟩ := DaemonEvent.created.inj (List.cons.inj heq).1
      exact .inr ((hkeep _).mpr (.inl rfl))
    | cons event later =>
      exact (h.kept _ _ _ _ _ (List.cons.inj heq).2).imp (List.mem_cons_of_mem _)
        fun hthere => (hkeep name).mpr (.inr hthere)
  · intro later run' name config' earlier hc heq
    rw [hlog] at heq
    cases later with
    | nil =>
      obtain ⟨hevent, rfl⟩ := List.cons.inj heq
      obtain ⟨-, rfl, -⟩ := DaemonEvent.created.inj hevent
      exact (h.initial _ hc).resolve_right hnone
    | cons event later => exact h.vacant _ _ _ _ _ hc (List.cons.inj heq).2
  · intro later run' name config' between run'' config'' earlier heq
    rw [hlog] at heq
    cases later with
    | nil =>
      obtain ⟨hevent, heq⟩ := List.cons.inj heq
      obtain ⟨-, rfl, -⟩ := DaemonEvent.created.inj hevent
      exact (h.kept _ _ _ _ _ heq).resolve_right hnone
    | cons event later => exact h.once _ _ _ _ _ _ _ _ (List.cons.inj heq).2

end CreatedOnce

theorem inv_initial (spec : ContainerSpec) (containers : Table String Container) :
    Inv spec containers ⟨containers, []⟩ where
  ok := trivial
  created := by simp
  executed := by simp
  createdOnce := by constructor <;> simp

theorem Inv.note (h : Inv spec containers s) (hevent : event.IsReport) :
    Inv spec containers (s.note event) := by
  constructor
  · refine ⟨?_, h.ok⟩
    cases event with
    | found | failed | stopped => trivial
    | created | executed | removed => exact hevent.elim
  · intro run name config hmem
    rcases List.mem_cons.mp hmem with rfl | hmem
    · exact hevent.elim
    · exact h.created run name config hmem
  · intro run name command hmem
    rcases List.mem_cons.mp hmem with rfl | hmem
    · exact hevent.elim
    · exact h.executed run name command hmem
  · refine h.createdOnce.note rfl ?_ fun name hc => .inr hc
    rintro run name config rfl
    exact hevent

theorem Inv.put (h : Inv spec containers s) (containerName : String) (container : Container) :
    Inv spec containers (s.put containerName container) where
  ok := h.ok
  created := h.created
  executed := h.executed
  createdOnce := by
    have hmem : ∀ name ∈ s.containers, name ∈ s.containers.insert containerName container :=
      fun name hc => AList.mem_insert _ |>.mpr (.inr hc)
    exact {
      initial := fun name hc => (h.createdOnce.initial name hc).imp_right (hmem name)
      kept := fun later run name config earlier heq =>
        (h.createdOnce.kept later run name config earlier heq).imp_right (hmem name)
      vacant := h.createdOnce.vacant
      once := h.createdOnce.once }

theorem Inv.start (h : Inv spec containers s) :
    Inv spec containers (s.start run containerName container) :=
  (h.put _ _).note trivial

theorem Inv.create (h : Inv spec containers s)
    (hnone : s.containers.lookup spec.containerName = none) :
    Inv spec containers (s.create run spec.containerName spec.createConfig) := by
  refine Inv.note ?_ trivial
  have hput := h.put spec.containerName ⟨spec.createConfig, false⟩
  constructor
  · exact ⟨trivial, hput.ok⟩
  · intro run' name config hmem
    rcases List.mem_cons.mp hmem with heq | hmem
    · obtain ⟨-, rfl, rfl⟩ := DaemonEvent.created.inj heq
      exact ⟨rfl, rfl⟩
    · exact hput.created run' name config hmem
  · intro run' name command hmem
    rcases List.mem_cons.mp hmem with heq | hmem
    · cases heq
    · exact hput.executed run' name command hmem
  · exact h.createdOnce.create (AList.lookup_eq_none.mp hnone) rfl fun name => AList.mem_insert _

theorem Inv.execute {command : List String} (h : Inv spec containers s)
    (hfound : .found run spec.containerName true ∈ s.log) :
    Inv spec containers (s.note (.executed run spec.containerName command)) := by
  constructor
  · exact ⟨hfound, h.ok⟩
  · intro run' name config hmem
    rcases List.mem_cons.mp hmem with heq | hmem
    · cases heq
    · exact h.created run' name config hmem
  · intro run' name command' hmem
    rcases List.mem_cons.mp hmem with heq | hmem
    · exact (DaemonEvent.executed.inj heq).2.1
    · exact h.executed run' name command' hmem
  · exact h.createdOnce.note rfl (by simp) fun name hc => .inr hc

theorem Inv.remove (h : Inv spec containers s) (containerName : String) :
    Inv spec containers ((s.remove containerName).note (.removed containerName)) := by
  constructor
  · exact ⟨trivial, h.ok⟩
  · intro run name config hmem
    rcases List.mem_cons.mp hmem with heq | hmem
    · cases heq
    · exact h.created run name config hmem
  · intro run name command hmem
    rcases List.mem_cons.mp hmem with heq | hmem
    · cases heq
    · exact h.executed run name command hmem
  · refine h.createdOnce.note rfl (by simp) fun name hc => ?_
    by_cases hname : name = containerName
    · exact .inl (by rw [hname])
    · exact .inr (AList.mem_erase.mpr ⟨hname, hc⟩)

end DaemonState

theorem DaemonStep.inv {op : ContainerOp} {r : op.Result} (hs : DaemonStep run s op r s')
    (h : Inv spec containers s) (hop : s.Allows spec run op) : Inv spec containers s' := by
  cases hs with
  | inspected | notCreated | failed | execFailed => exact h.note trivial
  | notInspected | notStarted | notExecuted | other => exact h
  | created hnone =>
    obtain ⟨rfl, rfl⟩ := hop
    exact h.create hnone
  | started => exact h.start
  | createdFailed err hnone =>
    obtain ⟨rfl, rfl⟩ := hop
    exact (h.create hnone).note trivial
  | startedFailed => exact h.start.note trivial
  | executed =>
    obtain ⟨rfl, hfound⟩ := hop
    exact h.execute hfound
  | executedFailed =>
    obtain ⟨rfl, hfound⟩ := hop
    exact (h.execute hfound).note trivial

theorem DaemonUse.inv (hs : DaemonUse s s') (h : Inv spec containers s) :
    Inv spec containers s' := by
  cases hs with
  | stop => exact (h.put _ _).note trivial
  | remove name => exact h.remove name
  | create | start => exact h.put _ _

end Invariant

/-- A run has seen a request fail, or the container was removed after the run had found it. -/
def DaemonState.Unavailable (run : ℕ) (containerName : String) (s : DaemonState) : Prop :=
  .failed run ∈ s.log ∨ Gone run containerName s.log

/-- Why a run reports that the container is not available, or that Claude cannot be executed. -/
structure DaemonState.Explains (run : ℕ) (containerName : String) (e : ErrorResponse)
    (s : DaemonState) : Prop where
  unavailable : e.errorCode = "container_unavailable" → Unavailable run containerName s
  notExecuted : e.errorCode = "exec_create_failed" →
    .failed run ∈ s.log ∨ Down run containerName s.log

section Safety

variable {spec : ContainerSpec} {containers : Table String Container} {s s' : DaemonState}
  {run : ℕ}

theorem DaemonState.Later.unavailable {containerName : String} (hl : s.Later s')
    (h : Unavailable run containerName s) : Unavailable run containerName s' :=
  h.imp hl.mem hl.gone

theorem DaemonState.Later.explains {containerName : String} {e : ErrorResponse} (hl : s.Later s')
    (h : Explains run containerName e s) : Explains run containerName e s' where
  unavailable hcode := hl.unavailable (h.unavailable hcode)
  notExecuted hcode := (h.notExecuted hcode).imp hl.mem hl.down

theorem explains_of_ne {containerName : String} {e : ErrorResponse}
    (h : e.errorCode ≠ "container_unavailable") (h' : e.errorCode ≠ "exec_create_failed") :
    Explains run containerName e s :=
  ⟨fun hcode => absurd hcode h, fun hcode => absurd hcode h'⟩

/-- The steps of the daemon for the requests of one run. -/
def DockerStep (run : ℕ) (s : DaemonState) (op : DockerOp) (r : op.Result) (s' : DaemonState) :
    Prop :=
  DaemonStep run s (.docker op) r s'

/-- A program of the Docker client finds the container running, or it has a reason to fail. -/
def EnsuresRunning (spec : ContainerSpec) (containers : Table String Container) (run : ℕ)
    (program : DockerM Unit) (s : DaemonState) : Prop :=
  Safe (DockerStep run) (Inv spec containers) Later program
    (fun _ s => Up run spec.containerName s)
    (fun _ s => Unavailable run spec.containerName s) s

theorem ensuresRunning_ret (h : Up run spec.containerName s) :
    EnsuresRunning spec containers run (.ret ()) s :=
  fun _ hl => h.later hl

theorem ensuresRunning_fail {err : BollardError} (h : Unavailable run spec.containerName s) :
    EnsuresRunning spec containers run (.fail err) s :=
  fun _ hl => hl.unavailable h

theorem failed_mem (s : DaemonState) (run : ℕ) : .failed run ∈ (s.note (.failed run)).log :=
  List.mem_cons_self

theorem ensuresRunning_startContainer
    (h : .failed run ∈ s.log ∨ Found run spec.containerName s) :
    EnsuresRunning spec containers run spec.startContainer s := by
  intro s₁ hl hi r s₂ hst
  refine ⟨DaemonStep.inv hst hi trivial, ?_⟩
  have h₁ := h.imp hl.mem (Found.later · hl)
  cases hst with
  | started hc => exact ensuresRunning_ret (up_start _ _ _ _)
  | notStarted hnone => exact ensuresRunning_fail (h₁.imp_right (·.gone hnone))
  | failed | startedFailed => exact ensuresRunning_fail (.inl (failed_mem _ _))
  | other h => exact h.elim

theorem ensuresRunning_createAndStart (s : DaemonState) :
    EnsuresRunning spec containers run spec.createAndStart s := by
  intro s₁ hl hi r s₂ hst
  refine ⟨DaemonStep.inv hst hi ⟨rfl, rfl⟩, ?_⟩
  have hfailed : ∀ err (s : DaemonState), .failed run ∈ s.log →
      EnsuresRunning spec containers run
        (if err.hasStatus 409 then spec.startContainer else .fail err) s := by
    intro err s hmem
    split_ifs
    · exact ensuresRunning_startContainer (.inl hmem)
    · exact ensuresRunning_fail (.inl hmem)
  cases hst with
  | created hnone =>
    exact ensuresRunning_startContainer (.inr (found_note (AList.lookup_insert _)))
  | notCreated hc => exact ensuresRunning_startContainer (.inr (found_note hc))
  | failed op err => exact hfailed err _ (failed_mem _ _)
  | createdFailed err hnone => exact hfailed err _ (failed_mem _ _)
  | other h => exact h.elim

theorem ensuresRunning_ensureContainerRunning (s : DaemonState) :
    EnsuresRunning spec containers run spec.ensureContainerRunning s := by
  intro s₁ hl hi r s₂ hst
  refine ⟨DaemonStep.inv hst hi trivial, ?_⟩
  cases hst with
  | @inspected _ container hc =>
    change EnsuresRunning spec containers run
      (if container.running then .ret () else spec.startContainer) _
    split_ifs with hrunning
    · rw [hrunning]
      exact ensuresRunning_ret (up_note hc hrunning)
    · exact ensuresRunning_startContainer (.inr (found_note hc))
  | notInspected => exact ensuresRunning_createAndStart _
  | failed op err =>
    change EnsuresRunning spec containers run
      (if err.hasStatus 404 then spec.createAndStart else .fail err) _
    split_ifs
    · exact ensuresRunning_createAndStart _
    · exact ensuresRunning_fail (.inl (failed_mem _ _))
  | other h => exact h.elim

section Execute

variable {toString : BollardError → String} {α : Type}

/-- A part of a run keeps the invariant, and its errors are explained. -/
def RunsSafely (spec : ContainerSpec) (containers : Table String Container) (run : ℕ)
    (program : ContainerM α) (Q : α → DaemonState → Prop) (s : DaemonState) : Prop :=
  Safe (DaemonStep run) (Inv spec containers) Later program Q (Explains run spec.containerName) s

theorem RunsSafely.seq {β : Type} {p : ExecM α} {f : α → ExecM β} {Q : α → DaemonState → Prop}
    {Q' : β → DaemonState → Prop}
    (h : RunsSafely spec containers run (p.expand (inContainer toString spec)) Q s)
    (hf : ∀ a s, Q a s →
      RunsSafely spec containers run ((f a).expand (inContainer toString spec)) Q' s) :
    RunsSafely spec containers run ((p >>= f).expand (inContainer toString spec)) Q' s := by
  rw [expand_bind]
  exact Safe.seq Later.refl h hf

def Stays (F : DaemonState → Prop) : Prop := ∀ s s', s.Later s' → F s → F s'

variable {F : DaemonState → Prop}

theorem runsSafely_ret (hF : Stays F) (hs : F s) (a : α) :
    RunsSafely spec containers run (.ret a) (fun _ => F) s :=
  fun s' hl => hF s s' hl hs

theorem runsSafely_fail {Q : α → DaemonState → Prop} {e : ErrorResponse}
    (h : Explains run spec.containerName e s) :
    RunsSafely spec containers run (.fail e : ContainerM α) Q s :=
  fun _ hl => hl.explains h

theorem runsSafely_call {op : ContainerOp} (hop : op.LeavesContainers)
    {next : op.Result → ContainerM α} {Q : α → DaemonState → Prop} (hF : Stays F) (hs : F s)
    (hnext : ∀ r s, F s → RunsSafely spec containers run (next r) Q s) :
    RunsSafely spec containers run (.call op next) Q s := by
  intro s₁ hl hi r s₂ hst
  cases hst with
  | other => exact ⟨hi, hnext r _ (hF _ _ hl hs)⟩
  | _ => exact hop.elim

theorem runsSafely_mapErr {errorCode : String} (hF : Stays F) (hs : F s)
    (h : errorCode ≠ "container_unavailable") (h' : errorCode ≠ "exec_create_failed")
    (r : Except String α) :
    RunsSafely spec containers run ((mapErr errorCode r).expand (inContainer toString spec))
      (fun _ => F) s := by
  cases r with
  | ok a => exact runsSafely_ret hF hs a
  | error message => exact runsSafely_fail (explains_of_ne h h')

theorem runsSafely_runStore (hF : Stays F) (hs : F s) (p : StoreM α) :
    RunsSafely spec containers run ((runStore p).expand (inContainer toString spec))
      (fun _ => F) s := by
  induction p generalizing s with
  | ret a => exact runsSafely_ret hF hs a
  | fail err =>
    refine runsSafely_fail (explains_of_ne ?_ ?_) <;>
      (unfold mapSessionStoreError; dsimp only; split_ifs <;> decide)
  | call op next ih =>
    have hop : (ContainerOp.session op).LeavesContainers := trivial
    exact runsSafely_call hop hF hs fun r s hs => ih r hs

theorem stays_up (run : ℕ) (containerName : String) : Stays (Up run containerName) :=
  fun _ _ hl h => h.later hl

/-- The run has found the container running, and has executed Claude there. -/
def HasExecuted (run : ℕ) (containerName : String) (s : DaemonState) : Prop :=
  Up run containerName s ∧ ∃ command, .executed run containerName command ∈ s.log

theorem stays_hasExecuted (run : ℕ) (containerName : String) :
    Stays (HasExecuted run containerName) := by
  rintro s s' hl ⟨hup, command, hmem⟩
  exact ⟨hup.later hl, command, hl.mem hmem⟩

/-- Claude can be executed, unless the container was stopped. -/
theorem runsSafely_createClaudeExec {cwd : String} {command env : List String}
    (hup : Up run spec.containerName s) :
    RunsSafely spec containers run
      ((Program.call (.createClaudeExec spec.containerName cwd command env)
        (mapErr "exec_create_failed")).expand (inContainer toString spec))
      (fun _ => HasExecuted run spec.containerName) s := by
  intro s₁ hl hi r s₂ hst
  have hup₁ := hup.later hl
  refine ⟨hst.inv hi ⟨rfl, hup₁.mem⟩, ?_⟩
  have hother : "exec_create_failed" ≠ "container_unavailable" := by decide
  have hfail : ∀ message (s : DaemonState),
      (.failed run ∈ s.log ∨ Down run spec.containerName s.log) →
      RunsSafely spec containers run
        ((mapErr "exec_create_failed" (.error message) : ExecM String).expand
          (inContainer toString spec)) (fun _ => HasExecuted run spec.containerName) s :=
    fun message s h => runsSafely_fail ⟨fun hcode => absurd hcode hother, fun _ => h⟩
  cases hst with
  | executed =>
    have hexec : HasExecuted run spec.containerName
        (s₁.note (.executed run spec.containerName command)) :=
      ⟨hup₁.later (later_note _ _), command, List.mem_cons_self⟩
    exact fun _ hl => stays_hasExecuted _ _ _ _ hl hexec
  | notExecuted h => exact hfail _ _ (.inr (hup₁.down h))
  | execFailed | executedFailed => exact hfail _ _ (.inl (failed_mem _ _))
  | other h => exact h.elim

theorem runsSafely_executeOnce {settings : Settings} {request : RunRequest}
    {validated : ValidatedRunRequest} {session : SessionRecord}
    (hup : Up run spec.containerName s) :
    RunsSafely spec containers run
      (((DockerRunner.mk spec.containerName settings).executeOnce request validated
        session).expand (inContainer toString spec)) (fun _ => HasExecuted run spec.containerName) s := by
  rw [DockerRunner.executeOnce, DockerRunner.createHistoryReadToken]
  have hgrants : ∀ grants, (ContainerOp.createReadGrants grants).LeavesContainers := fun _ => trivial
  refine RunsSafely.seq (runsSafely_call (hgrants _) (stays_up _ _) hup fun r s hup =>
    runsSafely_mapErr (stays_up _ _) hup (by decide) (by decide) r) ?_
  intro token s hup
  refine RunsSafely.seq (runsSafely_createClaudeExec hup) ?_
  intro execId s hexec
  have hcollect : (ContainerOp.collectExecOutput execId).LeavesContainers := trivial
  refine RunsSafely.seq (runsSafely_call hcollect (stays_hasExecuted _ _) hexec fun r s hexec =>
    runsSafely_mapErr (stays_hasExecuted _ _) hexec (by decide) (by decide) r) ?_
  rintro ⟨stdout, stderr, exitCode⟩ s hexec
  exact runsSafely_ret (stays_hasExecuted _ _) hexec _

theorem runsSafely_instantNow (hF : Stays F) (hs : F s) :
    RunsSafely spec containers run (DockerRunner.instantNow.expand (inContainer toString spec))
      (fun _ => F) s := by
  have hop : ContainerOp.instantNow.LeavesContainers := trivial
  exact runsSafely_call hop hF hs fun r s hs => runsSafely_ret hF hs r

/-- A run makes sure that the container runs before it goes on. -/
theorem runsSafely_ensureContainerRunning (s : DaemonState) :
    RunsSafely spec containers run
      ((Program.call (.ensureContainerRunning spec.containerName)
        (mapErr "container_unavailable")).expand (inContainer toString spec))
      (fun _ => Up run spec.containerName) s := by
  have hensures : Safe (DaemonStep run) (Inv spec containers) Later
      (spec.ensureContainerRunning.hoist .docker (fun _ answer => answer) toString)
      (fun _ s => Up run spec.containerName s)
      (fun _ s => Unavailable run spec.containerName s) s :=
    Safe.hoist (fun _ _ _ _ h => h) (ensuresRunning_ensureContainerRunning s)
  have hother : "container_unavailable" ≠ "exec_create_failed" := by decide
  rw [expand_call]
  refine Safe.seq Later.refl hensures.attempt ?_
  rintro (err | _) s h
  · exact runsSafely_fail ⟨fun _ => h.2 err rfl, fun hcode => absurd hcode hother⟩
  · exact runsSafely_ret (stays_up _ _) (h.1 () rfl) ()

theorem runsSafely_execute (settings : Settings) (request : RunRequest)
    (validated : ValidatedRunRequest) (s : DaemonState) :
    RunsSafely spec containers run (spec.execute toString settings request validated)
      (fun _ => HasExecuted run spec.containerName) s := by
  rw [ContainerSpec.execute, DockerRunner.execute]
  refine RunsSafely.seq (runsSafely_runStore (F := fun _ => True) (fun _ _ _ h => h) trivial _) ?_
  rintro session s -
  refine RunsSafely.seq (runsSafely_ensureContainerRunning s) ?_
  rintro - s hup
  refine RunsSafely.seq (runsSafely_instantNow (stays_up _ _) hup) ?_
  intro started s hup
  refine RunsSafely.seq (runsSafely_executeOnce hup) ?_
  intro first s hexec
  split_ifs
  · refine RunsSafely.seq (runsSafely_runStore (stays_hasExecuted _ _) hexec _) ?_
    intro resetSession s hexec
    refine RunsSafely.seq (runsSafely_executeOnce hexec.1) ?_
    intro retried s hexec
    refine RunsSafely.seq (runsSafely_instantNow (stays_hasExecuted _ _) hexec) ?_
    exact fun now s hexec => runsSafely_ret (stays_hasExecuted _ _) hexec _
  · refine RunsSafely.seq (runsSafely_instantNow (stays_hasExecuted _ _) hexec) ?_
    exact fun now s hexec => runsSafely_ret (stays_hasExecuted _ _) hexec _

end Execute

end Safety

abbrev DaemonPool :=
  Pool RunCall ContainerOp ContainerOp.Result ErrorResponse RunResponse DaemonState

/-- A run is started or makes a step, or a container changes for another reason. -/
def ContainerSpec.PoolStep (toString : BollardError → String) (settings : Settings)
    (spec : ContainerSpec) : DaemonPool → DaemonPool → Prop :=
  Pool.Step (fun call => spec.execute toString settings call.request call.validated)
    (fun run _ => DaemonStep run) DaemonUse

/-- What holds at any time of the runs that share a container: only the container of the
specification is created, and between two creations, or before the first one of a container that
was there from the beginning, it has been removed; Claude is executed there, by runs that have found
it running before; and a run that reports that there is no such container, or that Claude cannot be
executed in it, has seen a request fail, or somebody has removed or stopped the container since the
run found it. -/
structure RunsInContainer (spec : ContainerSpec) (containers : Table String Container)
    (P : DaemonPool) : Prop where
  created : ∀ run containerName config, .created run containerName config ∈ P.shared.log →
    containerName = spec.containerName ∧ config = spec.createConfig
  vacant : ∀ later run containerName config earlier, containerName ∈ containers →
    P.shared.log = later ++ .created run containerName config :: earlier →
      .removed containerName ∈ earlier
  once : ∀ later run containerName config between run' config' earlier,
    P.shared.log = later ++ .created run containerName config ::
        (between ++ .created run' containerName config' :: earlier) →
      .removed containerName ∈ between
  executed : ∀ later run containerName command earlier,
    P.shared.log = later ++ .executed run containerName command :: earlier →
      containerName = spec.containerName ∧ .found run containerName true ∈ earlier
  returned : ∀ run call response, P.Returns run call response →
    ∃ command, .executed run spec.containerName command ∈ P.shared.log
  unavailable : ∀ run call e, P.Fails run call e → e.errorCode = "container_unavailable" →
    .failed run ∈ P.shared.log ∨ Gone run spec.containerName P.shared.log
  notExecuted : ∀ run call e, P.Fails run call e → e.errorCode = "exec_create_failed" →
    .failed run ∈ P.shared.log ∨ Down run spec.containerName P.shared.log

section Pool

variable {toString : BollardError → String} {settings : Settings} {spec : ContainerSpec}
  {containers : Table String Container} {P : DaemonPool}

theorem guarded_poolStep : Pool.Guarded
    (fun call : RunCall => spec.execute toString settings call.request call.validated)
    (fun run _ => DaemonStep run) DaemonUse (Inv spec containers) (fun _ => Later)
    (fun _ _ => True) (fun run _ _ => HasExecuted run spec.containerName)
    (fun run _ => Explains run spec.containerName) where
  refl _ := Later.refl
  trans _ _ _ _ := Later.trans
  rely _ _ _ _ _ _ _ _ hs := hs.later
  env_inv _ _ hs h := hs.inv h
  env_rely _ _ _ hs := hs.later
  unused _ _ _ _ _ := trivial
  safe _ call s _ _ := runsSafely_execute settings call.request call.validated s

theorem DaemonLogOk.justified {later earlier : List DaemonEvent} {event : DaemonEvent}
    (h : DaemonLogOk (later ++ event :: earlier)) : event.Justified earlier := by
  induction later with
  | nil => exact h.1
  | cons _ later ih => exact ih h.2

/-- However runs, the daemon and its other users interleave, all runs work in the one container. -/
theorem runs_in_container
    (h : Reachable (spec.PoolStep toString settings) ⟨⟨containers, []⟩, []⟩ P) :
    RunsInContainer spec containers P := by
  have hinv := guarded_poolStep.reachable (inv_initial spec containers) (fun _ => trivial) h
  have hend : ∀ run call e, P.Fails run call e → Explains run spec.containerName e P.shared :=
    fun run call e he => hinv.safe run call _ he _ (Later.refl _)
  constructor
  · exact hinv.shared.created
  · exact hinv.shared.createdOnce.vacant
  · exact hinv.shared.createdOnce.once
  · intro later run name command earlier hlog
    have hmem : .executed run name command ∈ P.shared.log := by
      rw [hlog]
      exact List.mem_append_right _ List.mem_cons_self
    refine ⟨hinv.shared.executed run name command hmem, ?_⟩
    have hok := hinv.shared.ok
    rw [hlog] at hok
    exact hok.justified
  · exact fun run call response hr => (hinv.safe run call _ hr _ (Later.refl _)).2
  · exact fun run call e he => (hend run call e he).unavailable
  · exact fun run call e he => (hend run call e he).notExecuted

end Pool

/-- A daemon without faults, beside a database in which no session is found. -/
def DaemonState.handle (run : ℕ) (s : DaemonState) : (op : ContainerOp) → op.Result × DaemonState
  | .session (.statement st) => (.ok (st.answer .empty), s)
  | .session .newUuid => ("id", s)
  | .session .epochNow => (0, s)
  | .docker (.inspectContainer containerName) =>
    match s.containers.lookup containerName with
    | some container =>
      (.ok ⟨some ⟨some container.running⟩⟩, s.note (.found run containerName container.running))
    | none => (.error (.dockerResponseServerError 404 "no such container"), s)
  | .docker (.createContainer containerName config) =>
    match s.containers.lookup containerName with
    | some container => (.error (.dockerResponseServerError 409 "name is in use"),
        s.note (.found run containerName container.running))
    | none => (.ok (), s.create run containerName config)
  | .docker (.startContainer containerName) =>
    match s.containers.lookup containerName with
    | some container => (.ok (), s.start run containerName container)
    | none => (.error (.dockerResponseServerError 404 "no such container"), s)
  | .createReadGrants _ => (.ok ⟨"token", "postgres://reader"⟩, s)
  | .createClaudeExec containerName _ command _ =>
    match s.containers.lookup containerName with
    | some container =>
      if container.running then (.ok "exec", s.note (.executed run containerName command))
      else (.error "container is not running", s)
    | none => (.error "no such container", s)
  | .collectExecOutput _ => (.ok ("hello", "", 0), s)
  | .instantNow => (0, s)

theorem DaemonState.step_handle (run : ℕ) (s : DaemonState) (op : ContainerOp) :
    DaemonStep run s op (s.handle run op).1 (s.handle run op).2 := by
  cases op with
  | session op => cases op <;> exact .other trivial
  | createReadGrants | collectExecOutput | instantNow => exact .other trivial
  | docker op =>
    cases op with
    | inspectContainer name =>
      simp only [handle]
      split
      · exact .inspected ‹_›
      · exact .notInspected ‹_›
    | createContainer name config =>
      simp only [handle]
      split
      · exact .notCreated ‹_›
      · exact .created ‹_›
    | startContainer name =>
      simp only [handle]
      split
      · exact .started ‹_›
      · exact .notStarted ‹_›
  | createClaudeExec name cwd command env =>
    simp only [handle]
    split
    · rename_i container hc
      by_cases hrunning : container.running = true
      · rw [if_pos hrunning]
        exact .executed hc hrunning
      · rw [if_neg hrunning]
        refine .notExecuted fun container' hc' => ?_
        obtain rfl := Option.some.inj (hc.symm.trans hc')
        exact Bool.eq_false_iff.mpr hrunning
    · rename_i hnone
      refine .notExecuted fun container' hc' => ?_
      rw [hnone] at hc'
      cases hc'

def exampleSpec : ContainerSpec where
  containerName := "claude-runner"
  imageName := "dogbot/claude-runner:local"
  workspaceDir := "/srv/agent-workdir"
  stateDir := "/srv/agent-state"
  anthropicBaseUrl := "http://127.0.0.1:8080/anthropic"
  anthropicApiKey := "dummy"
  bifrostPort := 8080
  bifrostProviderName := "primary"
  bifrostModel := "primary/model-id"
  bifrostUpstreamBaseUrl := "https://example.com"
  bifrostUpstreamApiKey := "replace-me"
  bifrostUpstreamProviderType := "openai"
  cpuCores := 4
  memoryMb := 4096
  diskGb := 50
  pidsLimit := 256

def sessionlessCall : RunCall where
  request := ⟨"qq", "bot", "private:1", "", "user", "private", "/workspace", "hello", none,
    none, none, [], none, none⟩
  validated := ⟨"/workspace", "hello", "system"⟩

/-- Two runs find no container, both of them go on to create it, and then both start it. -/
def raceSchedule : List ℕ :=
  List.replicate 5 0 ++ List.replicate 5 1 ++ [0, 1] ++ List.replicate 6 0 ++ List.replicate 6 1

/-- One of two runs creates the container, the other one is told that it exists, and both execute
Claude in it. -/
theorem runs_in_container_race :
    let settings : Settings := ⟨none, none, 1800, []⟩
    ∃ P : DaemonPool, Reachable (exampleSpec.PoolStep (fun _ => "docker error") settings)
        ⟨⟨∅, []⟩, []⟩ P ∧
      RunsInContainer exampleSpec ∅ P ∧ creations "claude-runner" P.shared.log = 1 ∧
      ∀ run < 2,
        (P.shared.log.any fun
          | .found run' _ running => run' = run && !running
          | _ => false) ∧
        P.shared.log.any fun
          | .executed run' _ _ => run' = run
          | _ => false := by
  intro settings
  have hrace : Reachable (exampleSpec.PoolStep (fun _ => "docker error") settings)
      ⟨⟨∅, []⟩, []⟩ _ :=
    Pool.reachable_scheduleBy (fun run _ => step_handle run) _ [sessionlessCall, sessionlessCall]
      raceSchedule
  refine ⟨_, hrace, runs_in_container hrace, ?_⟩
  decide +kernel

end DogBot
