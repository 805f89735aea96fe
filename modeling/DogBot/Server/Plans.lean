import DogBot.Normalizer.Output
import DogBot.Scheduler.State
import DogBot.Server.Delivery

/-! # Feedback and responses

What the server tells a conversation about its tasks, as outbound plans, and
what it answers to a request over HTTP. The output of a run is its standard
output or, if that is blank, its error output.
-/

namespace DogBot

section Plans

/-- The name that a terminal state is printed with. -/
def TerminalState.debug : TerminalState → String
  | completed => "Completed"
  | failed => "Failed"

def statusOutboundPlan (snapshot : SchedulerSnapshot) : OutboundPlan :=
  let recent := match snapshot.recentTerminal.getLast? with
    | some item => item.conversationKey ++ " " ++ item.state.debug
    | none => "none"
  let running :=
    if snapshot.running = [] then "none"
    else ", ".intercalate (snapshot.running.map fun task =>
      task.conversationKey ++ " " ++ task.taskId)
  .ofText ("agent-runner ok\nrunning: " ++ toString snapshot.activeCount ++ "/" ++
    toString snapshot.maxConcurrent ++ "\nqueued: " ++ toString snapshot.waitingCount ++ "/" ++
    toString snapshot.maxQueueDepth ++ "\nrunning detail: " ++ running ++ "\nrecent: " ++ recent)

def queueWaitPlan (tasksAhead : ℕ) : OutboundPlan :=
  .ofText ("前面还有 " ++ toString tasksAhead ++ " 个任务，轮到这条时我会给你一个反应。")

def queueFullPlan : OutboundPlan := .ofText "现在等待队列满了，稍后再发一次。"

def runErrorPlan (error : ErrorResponse) : OutboundPlan := .ofText ("执行失败：" ++ error.message)

def REACTIONS : Vector String 6 := #v["👍", "🙏", "🫡", "😂", "❤", "👏"]

/-- The reaction is chosen by the hash of a task id, which is a 64-bit number. -/
def randomStartReaction (hash : String → ℕ) (seed : String) : String :=
  REACTIONS[hash seed % 6]

/-- The reaction to a message whose task starts; there are reactions on QQ only. -/
def startReactionPlan (hash : String → ℕ) (event : CanonicalEvent) (taskId : String) :
    Option OutboundPlan :=
  if event.platform ≠ "qq" then none
  else event.message.map fun message =>
    { messages := []
      actions := [.reactionAdd
        { targetMessageId := message.messageId, emoji := randomStartReaction hash taskId }]
      deliveryReportPolicy := none }

def runResponseOutput (response : RunResponse) : String :=
  if Text.trim response.stdout ≠ "" then Text.trim response.stdout else Text.trim response.stderr

def shortTerminalSummary (output : String) : String :=
  let trimmed := Text.trim output
  if trimmed.toList.length ≤ 80 then trimmed
  else String.ofList (trimmed.toList.take 80) ++ "..."

end Plans

section Responses

inductive HttpBody
  | status (status : String)
  | run (response : RunResponse)
  | message (response : MessageResponse)
  | error (error : ErrorResponse)
  deriving DecidableEq, Repr

structure HttpResponse where
  status : ℕ
  body : HttpBody
  deriving DecidableEq, Repr

def acceptedResponse (status : String) : HttpResponse := ⟨200, .status status⟩

def errorResponse (status : ℕ) (errorCode message : String) : HttpResponse :=
  ⟨status, .error { status := "error", errorCode, message, timedOut := false }⟩

def mapRunResultToResponse : Except ErrorResponse RunResponse → HttpResponse
  | .ok response => ⟨200, .run response⟩
  | .error error =>
    if error.errorCode = "invalid_request" then ⟨400, .error error⟩
    else if error.timedOut then ⟨408, .error error⟩
    else if error.errorCode = "session_conflict" then ⟨409, .error error⟩
    else ⟨500, .error error⟩

/-- The response to a request that delivers a plan. -/
def mapDeliveryResultToResponse : Except ErrorResponse MessageResponse → HttpResponse
  | .ok response => ⟨200, .message response⟩
  | .error error =>
    if error.errorCode = "unsupported_platform" then ⟨400, .error error⟩
    else if Text.startsWith "delivery_" error.errorCode then ⟨502, .error error⟩
    else ⟨500, .error error⟩

end Responses

end DogBot
