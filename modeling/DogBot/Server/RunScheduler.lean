import DogBot.Library.Machine
import DogBot.Models
import DogBot.Scheduler.State

/-! # The run scheduler

`RunScheduler` keeps the scheduler state and the payloads of queued tasks under
one lock. `submit` admits a task in one critical section, and `runTask` ends one
in another; tasks that leave a critical section are spawned after the lock has
been released. The world below also records what was answered, promoted and
spawned so far.
-/

namespace DogBot

structure ScheduledRun where
  event : CanonicalEvent
  request : RunRequest
  validated : ValidatedRunRequest
  summary : TaskSummary

def ScheduledRun.taskId (run : ScheduledRun) : String := run.summary.taskId

def conversationKeyForRequest (request : RunRequest) : String :=
  request.platformAccountId ++ "::" ++ request.conversationId

/-- The payload that `submit` builds for a fresh task id. -/
def ScheduledRun.new (taskId : String) (event : CanonicalEvent) (request : RunRequest)
    (validated : ValidatedRunRequest) : ScheduledRun where
  event := event
  request := request
  validated := validated
  summary :=
    { taskId
      conversationKey := conversationKeyForRequest request
      actorId := request.userId
      triggerMessageId := request.triggerMessageId }

inductive ScheduleFeedback
  | started
  | queued (tasksAhead : ℕ)
  | queueFull
  deriving DecidableEq, Repr

structure RunSchedulerInner where
  state : SchedulerState
  queuedPayloads : Table String ScheduledRun

/-- What a critical section of `submit` leaves behind. -/
structure Submission where
  inner : RunSchedulerInner
  startNow : Option ScheduledRun
  feedback : ScheduleFeedback

/-- Take the payloads of promoted tasks; a task without a payload is skipped. -/
def removePayloads :
    Table String ScheduledRun → List TaskSummary → Table String ScheduledRun × List ScheduledRun
  | payloads, [] => (payloads, [])
  | payloads, summary :: promoted =>
    let (rest, runs) := removePayloads (payloads.erase summary.taskId) promoted
    (rest, (payloads.lookup summary.taskId).toList ++ runs)

namespace RunSchedulerInner

def new (maxConcurrentRuns maxQueueDepth : ℕ) : RunSchedulerInner where
  state := .new maxConcurrentRuns maxQueueDepth
  queuedPayloads := ∅

/-- The critical section of `submit`. -/
def submit (inner : RunSchedulerInner) (scheduled : ScheduledRun) : Submission :=
  match inner.state.admitTask scheduled.summary with
  | (state, .startNow) =>
    { inner := { inner with state }, startNow := some scheduled, feedback := .started }
  | (state, .queued tasksAhead) =>
    { inner :=
        { state, queuedPayloads := inner.queuedPayloads.insert scheduled.taskId scheduled }
      startNow := none
      feedback := .queued tasksAhead }
  | (state, .queueFull) =>
    { inner := { inner with state }, startNow := none, feedback := .queueFull }

/-- The critical section at the end of `run_task`. -/
def finish (inner : RunSchedulerInner) (task : ScheduledRun) (terminal : TerminalState)
    (terminalSummary : Option String) : RunSchedulerInner × List ScheduledRun :=
  let (state, promoted) :=
    inner.state.finish task.summary.conversationKey terminal terminalSummary
  let (queuedPayloads, runs) := removePayloads inner.queuedPayloads promoted
  ({ state, queuedPayloads }, runs)

end RunSchedulerInner

structure RunHistory where
  answers : List (String × ScheduleFeedback)
  promoted : List String
  spawned : List String

/-- The lock's content, the tasks that left a critical section and are about to be spawned,
the spawned tasks that have not finished, and the history. -/
structure RunWorld where
  inner : RunSchedulerInner
  handedOut : List ScheduledRun
  live : List ScheduledRun
  history : RunHistory

/-- A step of the system. Spawning and finishing pick any pending or live task. -/
inductive RunStep
  | submit (taskId : String) (event : CanonicalEvent) (request : RunRequest)
    (validated : ValidatedRunRequest)
  | spawn (i : ℕ)
  | finish (i : ℕ) (terminal : TerminalState) (terminalSummary : Option String)

namespace RunWorld

def new (maxConcurrentRuns maxQueueDepth : ℕ) : RunWorld where
  inner := .new maxConcurrentRuns maxQueueDepth
  handedOut := []
  live := []
  history := { answers := [], promoted := [], spawned := [] }

/-- Task ids are fresh, and only pending or live tasks are spawned or finished. -/
def Enabled (w : RunWorld) : RunStep → Prop
  | .submit taskId _ _ _ => taskId ∉ w.history.answers.map Prod.fst
  | .spawn i => i < w.handedOut.length
  | .finish i _ _ => i < w.live.length

instance (w : RunWorld) : ∀ i, Decidable (w.Enabled i)
  | .submit taskId _ _ _ =>
    inferInstanceAs (Decidable (taskId ∉ w.history.answers.map Prod.fst))
  | .spawn i => inferInstanceAs (Decidable (i < w.handedOut.length))
  | .finish i _ _ => inferInstanceAs (Decidable (i < w.live.length))

def submit (w : RunWorld) (scheduled : ScheduledRun) : RunWorld :=
  let submission := w.inner.submit scheduled
  { w with
    inner := submission.inner
    handedOut := w.handedOut ++ submission.startNow.toList
    history :=
      { w.history with
        answers := w.history.answers ++ [(scheduled.taskId, submission.feedback)] } }

def spawn (w : RunWorld) (i : ℕ) (task : ScheduledRun) : RunWorld :=
  { w with
    handedOut := w.handedOut.eraseIdx i
    live := w.live ++ [task]
    history := { w.history with spawned := w.history.spawned ++ [task.taskId] } }

def finish (w : RunWorld) (i : ℕ) (task : ScheduledRun) (terminal : TerminalState)
    (terminalSummary : Option String) : RunWorld :=
  let (inner, runs) := w.inner.finish task terminal terminalSummary
  let promoted :=
    (w.inner.state.finish task.summary.conversationKey terminal terminalSummary).2
  { inner
    handedOut := w.handedOut ++ runs
    live := w.live.eraseIdx i
    history :=
      { w.history with
        promoted := w.history.promoted ++ promoted.map TaskSummary.taskId } }

def step (w : RunWorld) : RunStep → RunWorld
  | .submit taskId event request validated => w.submit (.new taskId event request validated)
  | .spawn i => (w.handedOut[i]?.map (w.spawn i)).getD w
  | .finish i terminal terminalSummary =>
    (w.live[i]?.map fun task => w.finish i task terminal terminalSummary).getD w

theorem step_spawn {w : RunWorld} {i : ℕ} {task : ScheduledRun} (h : w.handedOut[i]? = some task) :
    w.step (.spawn i) = w.spawn i task := by
  rw [step, h]
  rfl

theorem step_finish {w : RunWorld} {i : ℕ} {task : ScheduledRun} (h : w.live[i]? = some task)
    (terminal : TerminalState) (terminalSummary : Option String) :
    w.step (.finish i terminal terminalSummary) = w.finish i task terminal terminalSummary := by
  rw [step, h]
  rfl

/-- The run scheduler with its tasks, without outputs. -/
abbrev machine : Machine RunStep Unit where
  State := RunWorld
  Enabled := Enabled
  step w i := (w.step i, ())

end RunWorld

end DogBot
