import DogBot.Platforms.Delivery
import DogBot.Server.Tracking

/-! # Schedules

A schedule is a list of moves: requests that arrive, handlers and tasks that make
their next call, and tasks that are spawned. All calls succeed, and a task finds
its place among the live ones by its id. The state after a schedule is reachable.
-/

namespace DogBot

/-- The answer of a platform or a messenger that accepts a delivery. -/
def DeliveryOp.delivered : (op : DeliveryOp) → op.Result
  | post _ => successAnswer
  | send _ _ => .ok { status := "ok", messageId := none }

def doneResponse : RunResponse where
  status := "ok"
  stdout := "done"
  stderr := ""
  exitCode := 0
  timedOut := false
  durationMs := 1

/-- Answer a handler; a submission gets the given id. -/
def HandlerOp.serve (w : RunWorld) (taskId : String) : (op : HandlerOp) → op.Result × RunWorld
  | maybePurgeExpiredHistory => ((), w)
  | mirrorHistoryEvent _ => (.ok (), w)
  | snapshot => (w.inner.state.snapshot, w)
  | submit event request validated =>
    ((taskId, (w.inner.submit (.new taskId event request validated)).feedback),
      w.step (.submit taskId event request validated))
  | deliver op => (op.delivered, w)

/-- Answer a task; it finishes where its id is found. -/
def TaskOp.serve (w : RunWorld) (task : ScheduledRun) : (op : TaskOp) → op.Result × RunWorld
  | deliver op => (op.delivered, w)
  | callRunner _ _ => ((), w)
  | runnerReturned => (.ok doneResponse, w)
  | finish terminal terminalSummary =>
    ((), w.step (.finish (w.live.findIdx (·.taskId = task.taskId)) terminal terminalSummary))

inductive PipelineMove
  | receive (request : PlatformRequest)
  | handle (i : ℕ) (taskId : String)
  | spawn (i : ℕ)
  | work (i : ℕ)

namespace PipelineState

variable {app : AppState} {s : PipelineState} {r : ReferenceScheduler} {i : ℕ}
  {task : ScheduledRun} {p : TaskM Unit}

/-- Make a move; one that is not possible changes nothing. -/
def advance (app : AppState) (s : PipelineState) : PipelineMove → PipelineState
  | .receive request =>
    { s with handlers := s.handlers ++ [(request, app.handlePlatformEvent request)] }
  | .handle i taskId =>
    match s.handlers[i]? with
    | some (request, .call op next) =>
      if taskId ∈ s.world.history.answers.map Prod.fst then s
      else
        { s with
          world := (op.serve s.world taskId).2
          handlers := s.handlers.set i (request, next (op.serve s.world taskId).1)
          log := s.log ++ [.handler i ⟨op, (op.serve s.world taskId).1⟩] }
    | _ => s
  | .spawn i =>
    match s.world.handedOut[i]? with
    | some task =>
      { s with
        world := s.world.step (.spawn i)
        tasks := s.tasks ++ [(task, app.runTask task)] }
    | none => s
  | .work i =>
    match s.tasks[i]? with
    | some (task, .call op next) =>
      { s with
        world := (op.serve s.world task).2
        tasks := s.tasks.set i (task, next (op.serve s.world task).1)
        log := s.log ++ [.task task ⟨op, (op.serve s.world task).1⟩] }
    | _ => s

def schedule (app : AppState) (s : PipelineState) (moves : List PipelineMove) : PipelineState :=
  moves.foldl (advance app) s

namespace Tracked

theorem live_findIdx (h : Tracked app s r) (hbusy : s.Busy task) :
    s.world.live[s.world.live.findIdx (·.taskId = task.taskId)]? = some task := by
  have hlive : task ∈ s.world.live := (h.live task).mpr hbusy
  have hlt : s.world.live.findIdx (·.taskId = task.taskId) < s.world.live.length :=
    List.findIdx_lt_length_of_exists ⟨task, hlive, by simp⟩
  have hid := List.findIdx_getElem (w := hlt)
  rw [List.getElem?_eq_getElem hlt]
  have hspawned : ∀ t ∈ s.world.live, t ∈ s.spawnedTasks := by
    intro t ht
    obtain ⟨j, p, hj, -⟩ := (h.live t).mp ht
    exact mem_spawned hj
  rw [h.task_eq (hspawned _ (List.getElem_mem hlt)) (hspawned _ hlive) (by simpa using hid)]

theorem move_work (h : Tracked app s r) {op : TaskOp} {next : op.Result → TaskM Unit}
    (hi : s.tasks[i]? = some (task, .call op next)) : TaskMove app s (advance app s (.work i)) := by
  rw [advance, hi]
  refine .work hi ?_
  cases op with
  | deliver op => exact .deliver _ _
  | callRunner request validated => exact .callRunner _ _
  | runnerReturned => exact .runnerReturned _
  | finish terminal terminalSummary => exact .finish (h.live_findIdx ⟨i, _, hi, id⟩)

end Tracked

variable {m d : ℕ}

theorem reachable_advance (h : Reachable (PipelineStep app) (init m d) s) (move : PipelineMove) :
    Reachable (PipelineStep app) (init m d) (advance app s move) := by
  cases move with
  | receive request => exact h.tail (.receive request)
  | handle i taskId =>
    rw [advance]
    split
    · split_ifs with hused
      · exact h
      · rename_i request op next hi
        refine h.tail (.handle hi ?_)
        cases op with
        | maybePurgeExpiredHistory => exact .maybePurgeExpiredHistory
        | mirrorHistoryEvent event => exact .mirrorHistoryEvent _ _
        | snapshot => exact .snapshot
        | submit event request validated => exact .submit hused
        | deliver op => exact .deliver _ _
    · exact h
  | spawn i =>
    rw [advance]
    split
    · rename_i task hi
      exact h.tail (.move (.spawn hi))
    · exact h
  | work i =>
    obtain ⟨r, hr⟩ := tracked h
    cases hi : s.tasks[i]? with
    | none =>
      rw [advance, hi]
      exact h
    | some thread =>
      obtain ⟨task, p⟩ := thread
      obtain ⟨a, rfl⟩ | ⟨op, next, rfl⟩ := p.cases
      · rw [advance, hi]
        exact h
      · exact h.tail (.move (hr.move_work hi))

theorem reachable_schedule (app : AppState) (m d : ℕ) (moves : List PipelineMove) :
    Reachable (PipelineStep app) (init m d) (schedule app (init m d) moves) := by
  have hall : ∀ {s : PipelineState}, Reachable (PipelineStep app) (init m d) s →
      Reachable (PipelineStep app) (init m d) (schedule app s moves) := by
    induction moves with
    | nil => exact fun h => h
    | cons move moves ih => exact fun h => ih (reachable_advance h move)
  exact hall .refl

end PipelineState

section Contended

/-- The application with an adapter for QQ only. -/
def qqApp : AppState where
  platformRegistry := PlatformRegistry.empty.register (.qq
    { baseUrl := "http://127.0.0.1:3001", platformAccount := "qq:bot_uin:123" })
  messageOverride := false
  debug := { part := fun _ => "", source := fun _ => "" }
  fromStr _ := none
  hash text := text.length

def incomingText (userId : ℕ) (text : String) : PlatformRequest where
  platformId := "qq"
  payload := .ok (.object [("post_type", .string "message"), ("message_type", .string "private"),
    ("message_id", .number (.int 1)), ("user_id", .number (.int userId)),
    ("message", .array [.object [("type", .string "text"),
      ("data", .object [("text", .string text)])]])])
  now := 0

/-- Three messages in two conversations compete for one slot and two places in the queue. -/
def contendedMoves : List PipelineMove :=
  [.receive (incomingText 1 "hello"), .receive (incomingText 1 "hello again"),
    .receive (incomingText 2 "hello"), .handle 0 "", .handle 0 "", .handle 0 "a", .handle 1 "",
    .handle 1 "", .handle 1 "b", .handle 2 "", .handle 2 "", .handle 2 "c", .spawn 0, .work 0,
    .work 0, .work 0, .handle 1 "", .work 0, .work 0, .spawn 0, .work 1, .work 1]

/-- The state in which the second message of the first conversation is answered. -/
def contended : PipelineState := .schedule qqApp (.init 1 2) contendedMoves

theorem reachable_contended : Reachable (PipelineStep qqApp) (.init 1 2) contended :=
  PipelineState.reachable_schedule qqApp 1 2 contendedMoves

example : (contended.taskCalls "a").length = 5 ∧ (contended.taskCalls "b").length = 2 ∧
    (contended.taskCalls "c").length = 0 ∧ contended.accepted.length = 3 := by
  decide +kernel

end Contended

end DogBot
