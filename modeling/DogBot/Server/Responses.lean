import DogBot.Server.ExactlyOnce

/-! # Responses

The response to an event says what became of it: a handler that answers that an
event is accepted or queued has submitted one task, which is run exactly once,
and no task is run for an event that is answered in another way.
-/

namespace DogBot

open Program (Calls Only Yields calls_bind calls_call calls_ret only_true)

def ScheduleFeedback.response : ScheduleFeedback → HttpResponse
  | started => acceptedResponse "accepted"
  | queued _ => acceptedResponse "queued"
  | queueFull => acceptedResponse "queue_full"

/-- The response promises that a task will be run. -/
def HttpResponse.Promises (response : HttpResponse) : Prop :=
  response = acceptedResponse "accepted" ∨ response = acceptedResponse "queued"

instance (response : HttpResponse) : Decidable response.Promises :=
  inferInstanceAs (Decidable (_ ∨ _))

theorem ScheduleFeedback.promises_response_iff {feedback : ScheduleFeedback} :
    feedback.response.Promises ↔ feedback ≠ .queueFull := by
  cases feedback with
  | started => simp [response, HttpResponse.Promises]
  | queued tasksAhead => simp [response, HttpResponse.Promises]
  | queueFull => simp [response, HttpResponse.Promises, acceptedResponse]

/-- A program that submits nothing, and whose responses are as they should be. -/
structure Answers {α : Type} (P : α → Prop) (p : HandlerM α) : Prop where
  yields : p.Yields (fun op => op.isSubmit = false) P

section Answers

variable {α β : Type} {P : α → Prop} {Q : β → Prop}

theorem answers_ret {a : α} (ha : P a) : Answers P (.ret a) := ⟨ha⟩

theorem Answers.bind {p : HandlerM α} {f : α → HandlerM β} (hp : Answers P p)
    (hf : ∀ a, P a → Answers Q (f a)) : Answers Q (p >>= f) :=
  ⟨hp.yields.bind fun a ha => (hf a ha).yields⟩

theorem answers_deliver (delivery : OutboxM α) :
    Answers (fun _ => True) (HandlerM.deliver delivery) := by
  constructor
  apply Only.yields
  apply Only.attempt
  refine Only.hoist ?_ (only_true delivery)
  exact fun _ _ => rfl

theorem answers_snapshot : Answers (fun _ => True) (.call .snapshot .ret) :=
  ⟨rfl, fun _ => trivial⟩

theorem Answers.calls {p q : HandlerM α} {calls : List HandlerCall} (hp : Answers P p)
    (h : Calls p calls q) :
    (∀ call ∈ calls, call.1.isSubmit = false) ∧ ∀ a, q = .ret a → P a := by
  obtain ⟨hcalls, hq⟩ := h.yields hp.yields
  refine ⟨hcalls, ?_⟩
  rintro a rfl
  exact hq

end Answers

namespace AppState

variable {app : AppState} {event : CanonicalEvent} {request : RunRequest}
  {validated : ValidatedRunRequest}

def answerSubmission (app : AppState) (event : CanonicalEvent) :
    ScheduleFeedback → HandlerM HttpResponse
  | .started => .ret (acceptedResponse "accepted")
  | .queued tasksAhead => do
    let _ ← HandlerM.deliver (app.deliverPlanWith event (queueWaitPlan tasksAhead))
    .ret (acceptedResponse "queued")
  | .queueFull => do
    let _ ← HandlerM.deliver (app.deliverPlanWith event queueFullPlan)
    .ret (acceptedResponse "queue_full")

theorem answers_answerSubmission (feedback : ScheduleFeedback) :
    Answers (· = feedback.response) (app.answerSubmission event feedback) := by
  cases feedback with
  | started => exact answers_ret rfl
  | queued tasksAhead => exact (answers_deliver _).bind fun _ _ => answers_ret rfl
  | queueFull => exact (answers_deliver _).bind fun _ _ => answers_ret rfl

def decodeRequest (app : AppState) (request : PlatformRequest) : Option CanonicalEvent :=
  match request.payload with
  | .error _ => none
  | .ok payload =>
    (app.platformRegistry.get request.platformId).bind (·.decodeEvent request.now payload)

theorem decodeRequest_of_decode {request : PlatformRequest} {payload : Json.Value}
    {adapter : PlatformAdapter} (hpayload : request.payload = .ok payload)
    (hadapter : app.platformRegistry.get request.platformId = some adapter)
    (hdecode : adapter.decodeEvent request.now payload = some event) :
    app.decodeRequest request = some event := by
  rw [decodeRequest, hpayload]
  change (app.platformRegistry.get request.platformId).bind _ = _
  rw [hadapter]
  exact hdecode

/-- What a handler has done with a request: it has not submitted anything, or it has submitted one
task for the event of the request, which was stored in the history before. -/
inductive Handled (app : AppState) (request : PlatformRequest) :
    List HandlerCall → HandlerM HttpResponse → Prop
  | unsubmitted {calls : List HandlerCall} {q : HandlerM HttpResponse}
      (hcalls : ∀ call ∈ calls, call.1.isSubmit = false)
      (hresponse : ∀ response, q = .ret response → ¬ response.Promises) :
      Handled app request calls q
  | submitted {event : CanonicalEvent} {run : RunRequest} {validated : ValidatedRunRequest}
      {taskId : String} {feedback : ScheduleFeedback} {mirrored : Except String Unit}
      {after : List HandlerCall} {q : HandlerM HttpResponse}
      (hevent : app.decodeRequest request = some event) (htrigger : resolve event = .run)
      (hrequest : buildRunRequestFromEvent event = some run) (hvalid : run.validate = .ok validated)
      (hafter : ∀ call ∈ after, call.1.isSubmit = false)
      (hresponse : ∀ response, q = .ret response → response = feedback.response) :
      Handled app request (⟨.maybePurgeExpiredHistory, ()⟩ :: ⟨.mirrorHistoryEvent event, mirrored⟩ ::
        ⟨.submit event run validated, (taskId, feedback)⟩ :: after) q

theorem handled_of_answers {request : PlatformRequest} {before rest : List HandlerCall}
    {p q : HandlerM HttpResponse} (hbefore : ∀ call ∈ before, call.1.isSubmit = false)
    (hp : Answers (fun response => ¬ response.Promises) p) (h : Calls p rest q) :
    Handled app request (before ++ rest) q := by
  obtain ⟨hcalls, hresponse⟩ := hp.calls h
  refine .unsubmitted (fun call hcall => ?_) hresponse
  rcases List.mem_append.mp hcall with hcall | hcall
  · exact hbefore call hcall
  · exact hcalls call hcall

theorem not_promises_of_error {status : ℕ} {error : ErrorResponse} :
    ¬ (⟨status, .error error⟩ : HttpResponse).Promises := by
  simp [HttpResponse.Promises, acceptedResponse]

theorem not_promises_delivery (result : Except ErrorResponse MessageResponse) :
    ¬ (mapDeliveryResultToResponse result).Promises := by
  cases result with
  | ok response => simp [mapDeliveryResultToResponse, HttpResponse.Promises, acceptedResponse]
  | error error =>
    rw [mapDeliveryResultToResponse]
    split_ifs <;> exact not_promises_of_error

theorem not_promises_ignored : ¬ (acceptedResponse "ignored").Promises := by
  simp [HttpResponse.Promises, acceptedResponse]

theorem handled_canonicalEvent {request : PlatformRequest} {calls : List HandlerCall}
    {q : HandlerM HttpResponse} (hevent : app.decodeRequest request = some event)
    (h : Calls (app.handleCanonicalEvent event) calls q) :
    Handled app request (⟨.maybePurgeExpiredHistory, ()⟩ :: calls) q := by
  have hpurge : ∀ call ∈ [(⟨.maybePurgeExpiredHistory, ()⟩ : HandlerCall)],
      call.1.isSubmit = false := by
    intro call hcall
    rw [List.mem_singleton.mp hcall]
    rfl
  rcases calls_call.mp h with ⟨rfl, rfl⟩ | ⟨mirrored, rest, rfl, h₁⟩
  · exact .unsubmitted hpurge fun _ hret => (Program.call_ne_ret hret).elim
  have hmirror : ∀ call ∈ [(⟨.maybePurgeExpiredHistory, ()⟩ : HandlerCall),
      ⟨.mirrorHistoryEvent event, mirrored⟩], call.1.isSubmit = false := by
    intro call hcall
    rcases List.mem_cons.mp hcall with rfl | hcall
    · rfl
    · rw [List.mem_singleton.mp hcall]
      rfl
  cases htrigger : resolve event with
  | ignore =>
    simp only [htrigger] at h₁
    exact handled_of_answers hmirror (answers_ret not_promises_ignored) h₁
  | status =>
    simp only [htrigger] at h₁
    refine handled_of_answers hmirror ?_ h₁
    exact answers_snapshot.bind fun _ _ => (answers_deliver _).bind fun result _ =>
      answers_ret (not_promises_delivery result)
  | run =>
    simp only [htrigger] at h₁
    cases hrequest : buildRunRequestFromEvent event with
    | none =>
      simp only [hrequest] at h₁
      exact handled_of_answers hmirror (answers_ret not_promises_ignored) h₁
    | some run =>
      simp only [hrequest] at h₁
      cases hvalid : run.validate with
      | error message =>
        simp only [hvalid] at h₁
        exact handled_of_answers hmirror (answers_ret not_promises_of_error) h₁
      | ok validated =>
        simp only [hvalid] at h₁
        rcases calls_call.mp h₁ with ⟨rfl, rfl⟩ | ⟨⟨taskId, feedback⟩, after, rfl, h₂⟩
        · exact .unsubmitted hmirror fun _ hret => (Program.call_ne_ret hret).elim
        · have hfeedback : Calls (app.answerSubmission event feedback) after q := by
            cases feedback <;> exact h₂
          obtain ⟨hafter, hresponse⟩ := (answers_answerSubmission feedback).calls hfeedback
          exact .submitted hevent htrigger hrequest hvalid hafter hresponse

theorem handled_platformEvent {request : PlatformRequest} {calls : List HandlerCall}
    {q : HandlerM HttpResponse} (h : Calls (app.handlePlatformEvent request) calls q) :
    Handled app request calls q := by
  rcases calls_call.mp h with ⟨rfl, rfl⟩ | ⟨⟨⟩, rest, rfl, h₁⟩
  · exact .unsubmitted (fun _ hcall => absurd hcall List.not_mem_nil)
      fun _ hret => (Program.call_ne_ret hret).elim
  have hpurge : ∀ call ∈ [(⟨.maybePurgeExpiredHistory, ()⟩ : HandlerCall)],
      call.1.isSubmit = false := by
    intro call hcall
    rw [List.mem_singleton.mp hcall]
    rfl
  cases hpayload : request.payload with
  | error err =>
    simp only [hpayload] at h₁
    exact handled_of_answers hpurge (answers_ret not_promises_of_error) h₁
  | ok payload =>
    simp only [hpayload] at h₁
    cases hadapter : app.platformRegistry.get request.platformId with
    | none =>
      simp only [hadapter] at h₁
      exact handled_of_answers hpurge (answers_ret not_promises_of_error) h₁
    | some adapter =>
      simp only [hadapter] at h₁
      cases hdecoded : adapter.decodeEvent request.now payload with
      | none =>
        simp only [hdecoded] at h₁
        exact handled_of_answers hpurge (answers_ret not_promises_ignored) h₁
      | some event =>
        simp only [hdecoded] at h₁
        exact handled_canonicalEvent (decodeRequest_of_decode hpayload hadapter hdecoded) h₁

end AppState

namespace PipelineState

variable {app : AppState} {s s' : PipelineState} {i : ℕ} {request : PlatformRequest}
  {response : HttpResponse}

structure HandlersTracked (app : AppState) (s : PipelineState) : Prop where
  calls : ∀ (i : ℕ) request p, s.handlers[i]? = some (request, p) →
    Calls (app.handlePlatformEvent request) (s.handlerCalls i) p
  logged : ∀ i call, LogEntry.handler i call ∈ s.log → i < s.handlers.length

namespace HandlersTracked

theorem handlerCalls_task {task : ScheduledRun} {call : TaskCall}
    (hlog : s'.log = s.log ++ [.task task call]) (i : ℕ) : s'.handlerCalls i = s.handlerCalls i := by
  rw [handlerCalls, log_filterMap hlog]
  exact List.append_nil _

theorem handlerCalls_handler {j : ℕ} {call : HandlerCall}
    (hlog : s'.log = s.log ++ [.handler j call]) (i : ℕ) :
    s'.handlerCalls i = s.handlerCalls i ++ if j = i then [call] else [] := by
  rw [handlerCalls, log_filterMap hlog, LogEntry.handlerCall]
  split_ifs <;> rfl

theorem receive (h : HandlersTracked app s) (request : PlatformRequest) :
    HandlersTracked app
      { s with handlers := s.handlers ++ [(request, app.handlePlatformEvent request)] } := by
  constructor
  · intro i request' p hi
    rcases Pool.thread_concat hi with hold | ⟨rfl, heq⟩
    · exact h.calls i request' p hold
    · have hempty : s.handlerCalls s.handlers.length = [] := by
        rw [handlerCalls, List.filterMap_eq_nil_iff]
        rintro (⟨j, call⟩ | ⟨task, call⟩) hentry
        · rw [LogEntry.handlerCall, if_neg (Nat.ne_of_lt (h.logged j call hentry))]
        · rfl
      cases heq
      change Calls _ (s.handlerCalls s.handlers.length) _
      rw [hempty]
      exact .nil _
  · intro i call hmem
    rw [List.length_append]
    exact Nat.lt_add_right _ (h.logged i call hmem)

theorem handle (h : HandlersTracked app s) {op : HandlerOp}
    {next : op.Result → HandlerM HttpResponse} {answer : op.Result}
    (hi : s.handlers[i]? = some (request, .call op next))
    (hhandlers : s'.handlers = s.handlers.set i (request, next answer))
    (hlog : s'.log = s.log ++ [.handler i ⟨op, answer⟩]) : HandlersTracked app s' := by
  constructor
  · intro j request' p hj
    rw [handlerCalls_handler hlog]
    rw [hhandlers] at hj
    rcases Pool.thread_set hi hj with ⟨rfl, heq⟩ | ⟨hne, hold⟩
    · cases heq
      rw [if_pos rfl]
      exact (h.calls _ _ _ hi).snoc answer
    · rw [if_neg hne.symm, List.append_nil]
      exact h.calls j request' p hold
  · intro j call hmem
    rw [hhandlers, List.length_set]
    rw [hlog] at hmem
    rcases List.mem_append.mp hmem with hmem | hmem
    · exact h.logged j call hmem
    · cases List.mem_singleton.mp hmem
      exact (List.getElem?_eq_some_iff.mp hi).1

theorem move (h : HandlersTracked app s) (hmove : TaskMove app s s') : HandlersTracked app s' := by
  cases hmove with
  | spawn hi => exact ⟨h.calls, h.logged⟩
  | work hi hstep =>
    constructor
    · intro i request p hi
      rw [handlerCalls_task rfl]
      exact h.calls i request p hi
    · intro i call hmem
      rcases List.mem_append.mp hmem with hmem | hmem
      · exact h.logged i call hmem
      · cases List.mem_singleton.mp hmem

theorem step (h : HandlersTracked app s) (hst : PipelineStep app s s') : HandlersTracked app s' := by
  cases hst with
  | receive request => exact h.receive request
  | handle hi hstep => exact h.handle hi rfl rfl
  | move hmove => exact h.move hmove

end HandlersTracked

theorem handlersTracked {m d : ℕ} (h : Reachable (PipelineStep app) (init m d) s) :
    HandlersTracked app s := by
  induction h with
  | refl => exact ⟨by simp [init], fun _ _ hmem => absurd hmem List.not_mem_nil⟩
  | tail _ hst ih => exact ih.step hst

end PipelineState

def HandlerCall.submittedId : HandlerCall → Option String
  | ⟨.submit _ _ _, (taskId, _)⟩ => some taskId
  | _ => none

theorem HandlerCall.submittedId_eq_none {call : HandlerCall} (h : call.1.isSubmit = false) :
    call.submittedId = none := by
  obtain ⟨op, answer⟩ := call
  cases op with
  | submit event request validated => cases h
  | maybePurgeExpiredHistory | mirrorHistoryEvent _ | snapshot | deliver _ => rfl

theorem filterMap_submittedId {calls : List HandlerCall}
    (h : ∀ call ∈ calls, call.1.isSubmit = false) :
    calls.filterMap HandlerCall.submittedId = [] := by
  rw [List.filterMap_eq_nil_iff]
  exact fun call hcall => HandlerCall.submittedId_eq_none (h call hcall)

namespace PipelineState

variable {app : AppState} {s : PipelineState} {i : ℕ} {request : PlatformRequest}
  {response : HttpResponse} {task : ScheduledRun}

/-- How often the runner was called for the tasks that a handler has submitted. -/
def runsFor (s : PipelineState) (i : ℕ) : ℕ :=
  (((s.handlerCalls i).filterMap HandlerCall.submittedId).map fun id =>
    AppState.runs (s.taskCalls id)).sum

theorem mem_log_of_handlerCalls {call : HandlerCall} (h : call ∈ s.handlerCalls i) :
    LogEntry.handler i call ∈ s.log := by
  obtain ⟨entry, hentry, hcall⟩ := List.mem_filterMap.mp h
  obtain ⟨j, call'⟩ | ⟨task, call'⟩ := entry
  · rw [LogEntry.handlerCall] at hcall
    split_ifs at hcall with hj
    cases hcall
    exact hj ▸ hentry
  · cases hcall

theorem mem_handlerCalls {call : HandlerCall} (h : LogEntry.handler i call ∈ s.log) :
    call ∈ s.handlerCalls i :=
  List.mem_filterMap.mpr ⟨_, h, if_pos rfl⟩

theorem HandlersTracked.exists_handler (h : HandlersTracked app s) {call : HandlerCall}
    (hlog : LogEntry.handler i call ∈ s.log) : ∃ request p, s.handlers[i]? = some (request, p) :=
  ⟨_, _, List.getElem?_eq_getElem (h.logged i call hlog)⟩

/-- An accepted task was submitted by the handler of a request that its event was decoded from. -/
theorem HandlersTracked.exists_request (h : HandlersTracked app s) (ht : task ∈ s.accepted) :
    ∃ (i : ℕ) (request : PlatformRequest) (p : HandlerM HttpResponse),
      s.handlers[i]? = some (request, p) ∧ app.decodeRequest request = some task.event := by
  obtain ⟨entry, hentry, haccepted⟩ := List.mem_filterMap.mp ht
  obtain ⟨i, op, answer⟩ | ⟨task', call⟩ := entry
  · cases op with
    | submit event run validated =>
      obtain ⟨taskId, feedback⟩ := answer
      rw [LogEntry.accepted] at haccepted
      split_ifs at haccepted
      obtain ⟨request, p, hi⟩ := h.exists_handler hentry
      refine ⟨i, request, p, hi, ?_⟩
      rw [← Option.some.inj haccepted]
      have hmem := mem_handlerCalls hentry
      have hhandled := AppState.handled_platformEvent (h.calls i request p hi)
      generalize s.handlerCalls i = calls at hmem hhandled
      cases hhandled with
      | unsubmitted hnone _ => cases hnone _ hmem
      | submitted hevent _ _ _ hafter _ =>
        -- The submission of the handler is the only one among its calls.
        rcases List.mem_cons.mp hmem with heq | hmem
        · cases heq
        rcases List.mem_cons.mp hmem with heq | hmem
        · cases heq
        rcases List.mem_cons.mp hmem with heq | hmem
        · cases heq
          exact hevent
        · cases hafter _ hmem
    | maybePurgeExpiredHistory | mirrorHistoryEvent _ | snapshot | deliver _ => cases haccepted
  · cases haccepted

/-- The response tells what becomes of the event of a request. A run that is promised is that of the
one task that the handler has submitted. -/
structure Truthful (app : AppState) (s : PipelineState) (i : ℕ) (request : PlatformRequest)
    (response : HttpResponse) : Prop where
  promised : response.Promises → ∃ task ∈ s.accepted,
    (s.handlerCalls i).filterMap HandlerCall.submittedId = [task.taskId] ∧
      app.decodeRequest request = some task.event ∧ resolve task.event = .run ∧
      buildRunRequestFromEvent task.event = some task.request ∧
      task.request.validate = .ok task.validated ∧ app.Complete task (s.taskCalls task.taskId)
  runs : s.runsFor i = if response.Promises then 1 else 0

/-- In every interleaving, when the tasks have come to rest: an event that was answered as accepted
or queued has been run exactly once, with the request that is built from it, and an event that was
answered in another way has not been run. -/
theorem responses_are_truthful {m d : ℕ} (h : Reachable (PipelineStep app) (init m d) s)
    (hi : s.handlers[i]? = some (request, .ret response)) (hrest : ∀ s', ¬ TaskMove app s s') :
    Truthful app s i request response := by
  obtain ⟨r, hr⟩ := tracked h
  have hcalls := (handlersTracked h).calls i request _ hi
  have hhandled := AppState.handled_platformEvent hcalls
  generalize hlist : s.handlerCalls i = calls at hhandled
  generalize hq : (.ret response : HandlerM HttpResponse) = q at hhandled
  cases hhandled with
  | unsubmitted hnone hresponse =>
    have hnot := hresponse response hq.symm
    refine ⟨fun hpromise => absurd hpromise hnot, ?_⟩
    rw [runsFor, hlist, filterMap_submittedId hnone, if_neg hnot]
    rfl
  | @submitted event run validated taskId feedback mirrored after _ hevent htrigger hrequest hvalid
      hafter hresponse =>
    obtain rfl := hresponse response hq.symm
    have hlogged : LogEntry.handler i ⟨.submit event run validated, (taskId, feedback)⟩ ∈ s.log := by
      apply mem_log_of_handlerCalls
      rw [hlist]
      simp
    have hsubmitted : HandlerCall.submittedId ⟨.submit event run validated, (taskId, feedback)⟩ =
        some taskId := rfl
    have hids : (s.handlerCalls i).filterMap HandlerCall.submittedId = [taskId] := by
      rw [hlist, List.filterMap_cons_none rfl, List.filterMap_cons_none rfl,
        List.filterMap_cons_some hsubmitted, filterMap_submittedId hafter]
    have hruns : s.runsFor i = AppState.runs (s.taskCalls taskId) := by
      rw [runsFor, hids]
      rfl
    by_cases hfull : feedback = .queueFull
    · have hnot : ¬ feedback.response.Promises := fun hpromise =>
        ScheduleFeedback.promises_response_iff.mp hpromise hfull
      refine ⟨fun hpromise => absurd hpromise hnot, ?_⟩
      have hrejected : (taskId, .queueFull) ∈ s.submissions :=
        List.mem_filterMap.mpr ⟨_, hlogged, by rw [LogEntry.submission, hfull]⟩
      rw [hruns, hr.taskCalls_of_rejected hrejected, if_neg hnot]
      rfl
    · have hpromise : feedback.response.Promises := ScheduleFeedback.promises_response_iff.mpr hfull
      have haccepted : ScheduledRun.new taskId event run validated ∈ s.accepted :=
        List.mem_filterMap.mpr ⟨_, hlogged, by rw [LogEntry.accepted, if_neg hfull]⟩
      have hcomplete := hr.complete (hr.spawned_of_no_move hrest haccepted)
        ((hr.idle_of_no_move hrest).2 _)
      refine ⟨fun _ => ⟨_, haccepted, hids, hevent, htrigger, hrequest, hvalid, hcomplete⟩, ?_⟩
      obtain ⟨start, result, answered, terminal, terminalSummary, hfinished⟩ := hcomplete
      rw [hruns, if_pos hpromise]
      exact hfinished.counts.1

/-- Whether no task is about to be spawned, and none has a call left. -/
def atRest (s : PipelineState) : Bool :=
  s.world.handedOut.isEmpty && s.tasks.all fun thread =>
    match thread.2 with
    | .ret _ => true
    | .fail _ => true
    | .call _ _ => false

theorem not_taskMove_of_atRest (h : s.atRest = true) (s' : PipelineState) :
    ¬ TaskMove app s s' := by
  rw [atRest, Bool.and_eq_true, List.isEmpty_iff, List.all_eq_true] at h
  rintro (@⟨j, task, hj⟩ | @⟨j, task, op, next, answer, world, hj, -⟩)
  · rw [h.1] at hj
    cases hj
  · cases h.2 _ (List.mem_of_getElem? hj)

def hasPromised (s : PipelineState) (i : ℕ) : Bool :=
  match s.handlers[i]? with
  | some (_, .ret response) => response.Promises
  | _ => false

theorem exists_of_hasPromised (h : s.hasPromised i = true) :
    ∃ request response, s.handlers[i]? = some (request, .ret response) ∧ response.Promises := by
  rw [hasPromised] at h
  split at h
  · exact ⟨_, _, ‹_›, of_decide_eq_true h⟩
  · cases h

/-- The first message of two in one conversation is answered, and the second one after it. -/
def answeredMoves : List PipelineMove :=
  contendedMoves ++ [.work 1, .work 1, .work 1, .spawn 0, .work 2, .work 2, .work 2, .work 2, .work 2]

def answered : PipelineState := .schedule qqApp (.init 1 2) answeredMoves

theorem responses_are_truthful_answered : ∃ request response,
    answered.handlers[1]? = some (request, .ret response) ∧ response.Promises ∧
      Truthful qqApp answered 1 request response := by
  obtain ⟨hrest, hpromised⟩ : answered.atRest = true ∧ answered.hasPromised 1 = true := by
    decide +kernel
  obtain ⟨request, response, hi, hpromise⟩ := exists_of_hasPromised hpromised
  exact ⟨request, response, hi, hpromise, responses_are_truthful
    (reachable_schedule qqApp 1 2 answeredMoves) hi (not_taskMove_of_atRest hrest)⟩

end PipelineState

end DogBot
