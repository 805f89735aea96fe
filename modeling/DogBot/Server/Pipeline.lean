import DogBot.Library.Calls
import DogBot.Server.Plans
import DogBot.TriggerResolver

/-! # The event pipeline

A handler decodes the payload of a platform, stores the event in the history and
decides what it triggers; a run is submitted to the scheduler. A task is spawned
for a run that has a slot: it reacts to the message, calls the runner, delivers
the output and finishes, whatever the runner and the platforms answer. Handlers
and tasks are threads, and what they did is recorded in one log.
-/

namespace DogBot

/-- What a task asks of the platforms, the runner and the scheduler. A call of the runner is
recorded when it is made and when it returns. -/
inductive TaskOp
  | deliver (op : DeliveryOp)
  | callRunner (request : RunRequest) (validated : ValidatedRunRequest)
  | runnerReturned
  | finish (terminal : TerminalState) (terminalSummary : Option String)

abbrev TaskOp.Result : TaskOp → Type
  | deliver op => op.Result
  | callRunner _ _ => Unit
  | runnerReturned => Except ErrorResponse RunResponse
  | finish _ _ => Unit

abbrev TaskCall := Σ op : TaskOp, op.Result

abbrev TaskM (α : Type) := Program TaskOp TaskOp.Result Empty α

/-- What a handler asks of the history, the scheduler and the platforms. The answer to a submission
also tells the id of the task, which the handler does not learn. -/
inductive HandlerOp
  | maybePurgeExpiredHistory
  | mirrorHistoryEvent (event : CanonicalEvent)
  | snapshot
  | submit (event : CanonicalEvent) (request : RunRequest) (validated : ValidatedRunRequest)
  | deliver (op : DeliveryOp)

abbrev HandlerOp.Result : HandlerOp → Type
  | maybePurgeExpiredHistory => Unit
  | mirrorHistoryEvent _ => Except String Unit
  | snapshot => SchedulerSnapshot
  | submit _ _ _ => String × ScheduleFeedback
  | deliver op => op.Result

abbrev HandlerCall := Σ op : HandlerOp, op.Result

/-- Programs of handlers, which handle all errors. -/
abbrev HandlerM (α : Type) := Program HandlerOp HandlerOp.Result Empty α

def TaskM.deliver {α : Type} (delivery : OutboxM α) : TaskM (Except ErrorResponse α) :=
  (delivery.hoist .deliver (fun _ answer => answer) fun e => e :
    Program TaskOp TaskOp.Result ErrorResponse α).attempt

def HandlerM.deliver {α : Type} (delivery : OutboxM α) : HandlerM (Except ErrorResponse α) :=
  (delivery.hoist .deliver (fun _ answer => answer) fun e => e :
    Program HandlerOp HandlerOp.Result ErrorResponse α).attempt

/-- A request to the ingress route of a platform: its body as JSON, or the text of an error. -/
structure PlatformRequest where
  platformId : String
  payload : Except String Json.Value
  now : ℤ

namespace AppState

variable (app : AppState)

section Task

/-- React to the message of a task; that it fails is only logged. -/
def sendStartReactionBestEffort (task : ScheduledRun) : TaskM Unit :=
  match startReactionPlan app.hash task.event task.taskId with
  | none => .ret ()
  | some plan => do
    let _ ← TaskM.deliver (app.deliverPlanWith task.event plan)
    .ret ()

/-- The terminal summary of a delivered output, or the text of an error. -/
def deliverRunResponse (event : CanonicalEvent) (response : RunResponse) :
    TaskM (Except String (Option String)) :=
  let output := runResponseOutput response
  if output = "" then .ret (.ok (some "runner produced empty output"))
  else match normalizeAgentOutput app.fromStr output with
    | .error err => .ret (.error ("failed to normalize agent output: " ++ err))
    | .ok plan => do
      let answer ← TaskM.deliver (app.deliverPlanWith event plan)
      .ret (match answer with
        | .error err => .error err.message
        | .ok _ => .ok (some (shortTerminalSummary output)))

def deliverErrorBestEffort (event : CanonicalEvent) (error : ErrorResponse) : TaskM Unit := do
  let _ ← TaskM.deliver (app.deliverPlanWith event (runErrorPlan error))
  .ret ()

/-- Answer an event with what the runner gives, and say how the task ends. -/
def answerRun (event : CanonicalEvent) :
    Except ErrorResponse RunResponse → TaskM (TerminalState × Option String)
  | .ok response => do
    let delivered ← app.deliverRunResponse event response
    .ret (match delivered with
      | .ok summary => (.completed, summary)
      | .error error => (.failed, some error))
  | .error error => do
    app.deliverErrorBestEffort event error
    .ret (.failed, some ("runner failed: " ++ error.message))

def runTask (task : ScheduledRun) : TaskM Unit := do
  app.sendStartReactionBestEffort task
  .call (.callRunner task.request task.validated) .ret
  let result ← .call .runnerReturned .ret
  let (terminal, terminalSummary) ← app.answerRun task.event result
  .call (.finish terminal terminalSummary) .ret

end Task

section Handler

def handleCanonicalEvent (event : CanonicalEvent) : HandlerM HttpResponse := do
  -- History is always enabled for a conversation, so the event is always stored.
  let _ ← .call (.mirrorHistoryEvent event) .ret
  match resolve event with
  | .ignore => .ret (acceptedResponse "ignored")
  | .status => do
    let snapshot ← .call .snapshot .ret
    let result ← HandlerM.deliver (app.deliverPlanWith event (statusOutboundPlan snapshot))
    .ret (mapDeliveryResultToResponse result)
  | .run =>
    match buildRunRequestFromEvent event with
    | none => .ret (acceptedResponse "ignored")
    | some request =>
      match request.validate with
      | .error message => .ret ⟨400, .error (.invalidRequest message)⟩
      | .ok validated => do
        let (_, feedback) ← .call (.submit event request validated) .ret
        match feedback with
        | .started => .ret (acceptedResponse "accepted")
        | .queued tasksAhead => do
          let _ ← HandlerM.deliver (app.deliverPlanWith event (queueWaitPlan tasksAhead))
          .ret (acceptedResponse "queued")
        | .queueFull => do
          let _ ← HandlerM.deliver (app.deliverPlanWith event queueFullPlan)
          .ret (acceptedResponse "queue_full")

def handlePlatformEvent (request : PlatformRequest) : HandlerM HttpResponse := do
  .call .maybePurgeExpiredHistory .ret
  match request.payload with
  | .error err => .ret (errorResponse 400 "invalid_json" err)
  | .ok payload =>
    match app.platformRegistry.get request.platformId with
    | none => .ret (errorResponse 404 "platform_not_found" "platform is not registered")
    | some adapter =>
      match adapter.decodeEvent request.now payload with
      | none => .ret (acceptedResponse "ignored")
      | some event => app.handleCanonicalEvent event

end Handler

end AppState

inductive LogEntry
  | handler (i : ℕ) (call : HandlerCall)
  | task (task : ScheduledRun) (call : TaskCall)

/-- The run scheduler, the requests with what is left of their handlers, the spawned tasks with what
is left of them, and the log in the order of time. -/
structure PipelineState where
  world : RunWorld
  handlers : List (PlatformRequest × HandlerM HttpResponse)
  tasks : List (ScheduledRun × TaskM Unit)
  log : List LogEntry

def PipelineState.init (maxConcurrentRuns maxQueueDepth : ℕ) : PipelineState where
  world := .new maxConcurrentRuns maxQueueDepth
  handlers := []
  tasks := []
  log := []

/-- A call of a handler: the critical section of `submit`, a look at the scheduler, or a call that
does not concern it and may be answered in any way. -/
inductive HandlerStep (w : RunWorld) : (op : HandlerOp) → op.Result → RunWorld → Prop
  | maybePurgeExpiredHistory : HandlerStep w .maybePurgeExpiredHistory () w
  | mirrorHistoryEvent (event : CanonicalEvent) (answer : Except String Unit) :
      HandlerStep w (.mirrorHistoryEvent event) answer w
  | snapshot : HandlerStep w .snapshot w.inner.state.snapshot w
  | submit {taskId : String} {event : CanonicalEvent} {request : RunRequest}
      {validated : ValidatedRunRequest}
      (h : w.Enabled (.submit taskId event request validated)) :
      HandlerStep w (.submit event request validated)
        (taskId, (w.inner.submit (.new taskId event request validated)).feedback)
        (w.step (.submit taskId event request validated))
  | deliver (op : DeliveryOp) (answer : op.Result) : HandlerStep w (.deliver op) answer w

/-- A call of a task: the critical section at its end, or a call that does not concern the
scheduler and may be answered in any way. -/
inductive TaskStep (w : RunWorld) (task : ScheduledRun) : (op : TaskOp) → op.Result → RunWorld → Prop
  | deliver (op : DeliveryOp) (answer : op.Result) : TaskStep w task (.deliver op) answer w
  | callRunner (request : RunRequest) (validated : ValidatedRunRequest) :
      TaskStep w task (.callRunner request validated) () w
  | runnerReturned (answer : Except ErrorResponse RunResponse) :
      TaskStep w task .runnerReturned answer w
  | finish {i : ℕ} {terminal : TerminalState} {terminalSummary : Option String}
      (h : w.live[i]? = some task) :
      TaskStep w task (.finish terminal terminalSummary) ()
        (w.step (.finish i terminal terminalSummary))

/-- A task that has got its slot is spawned, or a task makes a call. -/
inductive TaskMove (app : AppState) : PipelineState → PipelineState → Prop
  | spawn {s : PipelineState} {i : ℕ} {task : ScheduledRun}
      (hi : s.world.handedOut[i]? = some task) :
      TaskMove app s
        { s with
          world := s.world.step (.spawn i)
          tasks := s.tasks ++ [(task, app.runTask task)] }
  | work {s : PipelineState} {i : ℕ} {task : ScheduledRun} {op : TaskOp}
      {next : op.Result → TaskM Unit} {answer : op.Result} {world : RunWorld}
      (hi : s.tasks[i]? = some (task, .call op next))
      (hstep : TaskStep s.world task op answer world) :
      TaskMove app s
        { s with
          world
          tasks := s.tasks.set i (task, next answer)
          log := s.log ++ [.task task ⟨op, answer⟩] }

/-- A request arrives, a handler makes a call, or the tasks make a step. A handler that is dropped
because its client has gone makes no more steps. -/
inductive PipelineStep (app : AppState) : PipelineState → PipelineState → Prop
  | receive {s : PipelineState} (request : PlatformRequest) :
      PipelineStep app s
        { s with handlers := s.handlers ++ [(request, app.handlePlatformEvent request)] }
  | handle {s : PipelineState} {i : ℕ} {request : PlatformRequest} {op : HandlerOp}
      {next : op.Result → HandlerM HttpResponse} {answer : op.Result} {world : RunWorld}
      (hi : s.handlers[i]? = some (request, .call op next))
      (hstep : HandlerStep s.world op answer world) :
      PipelineStep app s
        { s with
          world
          handlers := s.handlers.set i (request, next answer)
          log := s.log ++ [.handler i ⟨op, answer⟩] }
  | move {s s' : PipelineState} (h : TaskMove app s s') : PipelineStep app s s'

end DogBot
