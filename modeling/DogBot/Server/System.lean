import DogBot.Exec.LifeCycle
import DogBot.Server.Requests
import DogBot.Server.RunScheduler

/-! # The server

Two paths lead to a run. A platform event is submitted to the scheduler, and its
task runs, delivers the output and finishes once the task has been spawned. A
request to `/v1/runs` runs in its own handler, which is dropped if the client
disconnects. The runs of both paths share the session store and the container.
-/

namespace DogBot

/-- The platform account and the conversation of a request. -/
def RunRequest.conversation (request : RunRequest) : String × String :=
  (request.platformAccountId, request.conversationId)

def ErrorResponse.invalidRequest (message : String) : ErrorResponse where
  status := "error"
  errorCode := "invalid_request"
  message := message
  timedOut := false

/-- The arguments that `execute_run_request` passes to the runner, without asking the scheduler. -/
def executeRunRequest (request : RunRequest) : Except ErrorResponse RunCall :=
  match request.validate with
  | .ok validated => .ok { request, validated }
  | .error message => .error (.invalidRequest message)

/-- The handler of `/v1/runs`, after its body was parsed and until the runner is called. -/
def Server.run (request : RunRequest) : Except ErrorResponse RunCall := do
  let userId ← (normalizeContextIdentifier request.userId "user_id").mapError .invalidRequest
  let conversationId ←
    (normalizeContextIdentifier request.conversationId "conversation_id").mapError .invalidRequest
  let platformAccountId ←
    (normalizeContextIdentifier request.platformAccountId "platform_account_id").mapError
      .invalidRequest
  executeRunRequest { request with userId, conversationId, platformAccountId }

theorem executeRunRequest_ok {request : RunRequest} {call : RunCall}
    (h : executeRunRequest request = .ok call) :
    call.request = request ∧ request.validate = .ok call.validated := by
  unfold executeRunRequest at h
  cases hv : request.validate with
  | error message =>
    rw [hv] at h
    cases h
  | ok validated =>
    rw [hv] at h
    obtain rfl := Except.ok.inj h
    exact ⟨rfl, rfl⟩

theorem request_of_executeRunRequest {request : RunRequest} {call : RunCall}
    (h : executeRunRequest request = .ok call) : call.request = request :=
  (executeRunRequest_ok h).1

/-- A direct run is one of the request with its identifiers trimmed, which are checked. -/
theorem Server.run_ok {request : RunRequest} {call : RunCall}
    (h : Server.run request = .ok call) :
    normalizeContextIdentifier request.userId "user_id" = .ok (Text.trim request.userId) ∧
      normalizeContextIdentifier request.conversationId "conversation_id" =
        .ok (Text.trim request.conversationId) ∧
      normalizeContextIdentifier request.platformAccountId "platform_account_id" =
        .ok (Text.trim request.platformAccountId) ∧
      executeRunRequest { request with
        userId := Text.trim request.userId
        conversationId := Text.trim request.conversationId
        platformAccountId := Text.trim request.platformAccountId } = .ok call := by
  unfold Server.run at h
  cases hu : normalizeContextIdentifier request.userId "user_id" with
  | error message =>
    rw [hu] at h
    cases h
  | ok userId =>
    cases hc : normalizeContextIdentifier request.conversationId "conversation_id" with
    | error message =>
      rw [hu, hc] at h
      cases h
    | ok conversationId =>
      cases hp : normalizeContextIdentifier request.platformAccountId "platform_account_id" with
      | error message =>
        rw [hu, hc, hp] at h
        cases h
      | ok platformAccountId =>
        rw [hu, hc, hp] at h
        obtain rfl := normalizeContextIdentifier_ok hu
        obtain rfl := normalizeContextIdentifier_ok hc
        obtain rfl := normalizeContextIdentifier_ok hp
        exact ⟨rfl, rfl, rfl, h⟩

theorem Server.run_request {request : RunRequest} {call : RunCall}
    (h : Server.run request = .ok call) :
    call.request = { request with
      userId := Text.trim request.userId
      conversationId := Text.trim request.conversationId
      platformAccountId := Text.trim request.platformAccountId } :=
  request_of_executeRunRequest (Server.run_ok h).2.2.2

theorem Server.run_conversation {request : RunRequest} {call : RunCall}
    (h : Server.run request = .ok call) :
    call.request.conversation =
      (Text.trim request.platformAccountId, Text.trim request.conversationId) := by
  rw [Server.run_request h, RunRequest.conversation]

/-- A call of the runner that has not returned: the thread that runs it, and the task it is for;
a direct run has no task. -/
structure ActiveRun where
  thread : ℕ
  taskId : Option String
  call : RunCall

def ActiveRun.conversation (run : ActiveRun) : String × String := run.call.request.conversation

/-- The scheduler with its tasks, the ids of the tasks that have called the runner, the session
store and the container with the threads of all runs, and the calls that have not returned. -/
structure ServerState where
  world : RunWorld
  entered : List String
  pool : RunnerPool
  active : List ActiveRun

inductive ServerEvent
  | submit (taskId : String) (event : CanonicalEvent) (request : RunRequest)
    (validated : ValidatedRunRequest)
  | spawn (i : ℕ)
  | enter (task : ScheduledRun)
  | direct (request : RunRequest)
  | work (thread : ℕ) (op : ExecOp)
  | exit
  | returned (thread : ℕ)
  | dropped (thread : ℕ)
  | finish (i : ℕ) (terminal : TerminalState) (terminalSummary : Option String)

namespace ServerState

def init (maxConcurrentRuns maxQueueDepth : ℕ) : ServerState where
  world := .new maxConcurrentRuns maxQueueDepth
  entered := []
  pool := .init
  active := []

def callRunner (s : ServerState) (runner : DockerRunner) (taskId : Option String)
    (call : RunCall) : ServerState :=
  { s with
    entered := taskId.toList ++ s.entered
    pool := { s.pool with threads := s.pool.threads ++ [(call, runner.start call)] }
    active := s.active ++ [{ thread := s.pool.threads.length, taskId, call }] }

def leave (s : ServerState) (thread : ℕ) : ServerState :=
  { s with active := s.active.filter (·.thread ≠ thread) }

end ServerState

/-- A step of the server. A spawned task calls the runner once, and finishes after its call has
returned. The threads of the calls that have not returned make their steps in any order. -/
inductive ServerStep (runner : DockerRunner) (faulty : Prop) :
    ServerState → ServerEvent → ServerState → Prop
  | submit {s : ServerState} {taskId : String} {event : CanonicalEvent} {request : RunRequest}
      {validated : ValidatedRunRequest}
      (h : s.world.Enabled (.submit taskId event request validated)) :
      ServerStep runner faulty s (.submit taskId event request validated)
        { s with world := s.world.step (.submit taskId event request validated) }
  | spawn {s : ServerState} {i : ℕ} (h : s.world.Enabled (.spawn i)) :
      ServerStep runner faulty s (.spawn i) { s with world := s.world.step (.spawn i) }
  | enter {s : ServerState} {task : ScheduledRun} (hlive : task ∈ s.world.live)
      (hnew : task.taskId ∉ s.entered) :
      ServerStep runner faulty s (.enter task)
        (s.callRunner runner (some task.taskId) ⟨task.request, task.validated⟩)
  | direct {s : ServerState} {request : RunRequest} {call : RunCall}
      (h : Server.run request = .ok call) :
      ServerStep runner faulty s (.direct request) (s.callRunner runner none call)
  | work {s : ServerState} {run : ActiveRun} {op : ExecOp}
      {next : op.Result → ExecM RunResponse} {r : op.Result} {shared : RunnerState}
      (hrun : run ∈ s.active) (hi : s.pool.threads[run.thread]? = some (run.call, .call op next))
      (hs : RunnerStep faulty run.thread run.call s.pool.shared op r shared) :
      ServerStep runner faulty s (.work run.thread op)
        { s with
          pool := { shared, threads := s.pool.threads.set run.thread (run.call, next r) } }
  | exit {s : ServerState} {shared : RunnerState} (h : ProcessExit s.pool.shared shared) :
      ServerStep runner faulty s .exit { s with pool := { s.pool with shared } }
  | returned {s : ServerState} {run : ActiveRun} {program : ExecM RunResponse}
      (hrun : run ∈ s.active) (hi : s.pool.threads[run.thread]? = some (run.call, program))
      (hended : program.Ended) :
      ServerStep runner faulty s (.returned run.thread) (s.leave run.thread)
  | dropped {s : ServerState} {run : ActiveRun} (hrun : run ∈ s.active)
      (hdirect : run.taskId = none) :
      ServerStep runner faulty s (.dropped run.thread) (s.leave run.thread)
  | finish {s : ServerState} {i : ℕ} {task : ScheduledRun} {terminal : TerminalState}
      {terminalSummary : Option String} (hlive : s.world.live[i]? = some task)
      (hentered : task.taskId ∈ s.entered)
      (hidle : ∀ run ∈ s.active, run.taskId ≠ some task.taskId) :
      ServerStep runner faulty s (.finish i terminal terminalSummary)
        { s with world := s.world.step (.finish i terminal terminalSummary) }

end DogBot
