import DogBot.Platforms.Replies
import DogBot.Platforms.Sender
import DogBot.Server.Responses

/-! # Addressees

Whatever the agent writes, and however handlers and tasks interleave: what is
posted for an event is posted by the adapter that decoded it, to its base URL and
with its key, and to the chat that the payload names.
-/

namespace DogBot

open Program (Only Calls Within only_true only_ofExcept within_ret within_call)

namespace Qq.QqPlatform

variable {self : QqPlatform} {payload : Json.Value} {request : ApiRequest}

/-- A message request to the chat of a payload. A chat whose id is no number is addressed as number
zero. -/
structure ToChat (self : QqPlatform) (payload : Json.Value) (request : ApiRequest) : Prop where
  url : request.url = self.baseUrl ++ (chatKind payload).path
  chat : request.payload.get (chatKind payload).key =
    some (.number (.int ((chatNumber payload).getD 0)))

/-- A request that answers a payload: a reaction, or a message to its chat. NapCat has no key. -/
structure Answering (self : QqPlatform) (payload : Json.Value) (request : ApiRequest) : Prop where
  key : request.query = []
  kind : request.url = self.baseUrl ++ "/set_msg_emoji_like" ∨ self.ToChat payload request

theorem only_sendPlan_answering {platformAccount : String} {event : CanonicalEvent}
    (h : decodeNapcatEvent payload platformAccount = some event) (plan : OutboundPlan) :
    (self.sendPlan (deliveryContextFromEvent event) plan).Only (self.Answering payload) := by
  obtain ⟨-, -, chatId, -, -, hchat, hconversation, -, -⟩ := decodeNapcatEvent_context h
  apply Only.bind (only_ofExcept _)
  intro _
  apply Only.bind
  · exact only_sendActions fun _ => ⟨rfl, .inl rfl⟩
  · intro _
    apply only_sendMessages
    intro text path body hrequest
    obtain ⟨body', hbody', hkey⟩ := messageRequest_chat payload chatId text
    rw [hconversation, hbody'] at hrequest
    obtain ⟨rfl, rfl⟩ := Prod.mk.inj (Except.ok.inj hrequest)
    rw [← chatNumber_eq hchat] at hkey
    exact ⟨rfl, .inr ⟨rfl, hkey⟩⟩

theorem platform_of_decode {platformAccount : String} {event : CanonicalEvent}
    (h : decodeNapcatEvent payload platformAccount = some event) : event.platform = "qq" := by
  unfold decodeNapcatEvent at h
  obtain ⟨-, -, h⟩ := Option.bind_eq_some_iff.mp h
  obtain ⟨messageType, -, h⟩ := Option.bind_eq_some_iff.mp h
  obtain ⟨userId, -, h⟩ := Option.bind_eq_some_iff.mp h
  obtain ⟨messageId, -, h⟩ := Option.bind_eq_some_iff.mp h
  dsimp only at h
  split_ifs at h
  · obtain ⟨conversation, -, h⟩ := Option.bind_eq_some_iff.mp h
    rw [← Option.some.inj h]
  · rw [← Option.some.inj h]
  · cases h

end Qq.QqPlatform

namespace WeChatPadPro.WeChatPadProPlatform

variable {self : WeChatPadProPlatform} {now : ℤ} {payload : Json.Value} {account : String}
  {mentionNames : List String} {event : CanonicalEvent} {context : DeliveryContext}
  {request : ApiRequest}

/-- A request that answers a payload: its receiver is the chat of the payload, and it is made with
the key of the adapter. -/
structure Answering (self : WeChatPadProPlatform) (payload : Json.Value) (request : ApiRequest) :
    Prop where
  url : request.url = self.baseUrl ++ "/message/SendTextMessage" ∨
    request.url = self.baseUrl ++ "/api/v1/message/sendFile"
  key : ∃ accountKey, self.accountKey = some accountKey ∧ request.query = [("key", accountKey)]
  chat : receiver request.payload = some (.string (chatOf (unwrapEvent payload)))

theorem Addresses.answering
    (hdecode : decodeWebhookEvent now payload account mentionNames = some event)
    (hcontext : context.conversationId = event.conversation)
    (h : self.Addresses context request) : self.Answering payload request := by
  have hchat := conversationId_of_decode hdecode
  change conversationTarget event.conversation = _ at hchat
  refine ⟨h.url, h.key, ?_⟩
  rw [← hchat, ← hcontext]
  exact h.target

theorem only_sendPlan_answering {debug : DebugFormat}
    (h : decodeWebhookEvent now payload account mentionNames = some event) (plan : OutboundPlan) :
    (self.sendPlan debug (deliveryContextFromEvent event) plan).Only (self.Answering payload) :=
  only_sendPlan.mono fun _ haddresses => haddresses.answering h rfl

end WeChatPadPro.WeChatPadProPlatform

namespace PlatformAdapter

/-- The requests by which an adapter answers a payload. -/
def Answering (adapter : PlatformAdapter) (payload : Json.Value) (request : ApiRequest) : Prop :=
  match adapter with
  | qq self => self.Answering payload request
  | wechatpadpro self => self.Answering payload request

variable {adapter : PlatformAdapter} {now : ℤ} {payload : Json.Value} {event : CanonicalEvent}

theorem platform_of_decode (h : adapter.decodeEvent now payload = some event) :
    event.platform = adapter.platformId := by
  cases adapter with
  | qq self => exact Qq.QqPlatform.platform_of_decode h
  | wechatpadpro self => exact (WeChatPadPro.decodeWebhookEvent_parties h).1

theorem only_sendPlan (h : adapter.decodeEvent now payload = some event)
    (debug : WeChatPadPro.DebugFormat) (plan : OutboundPlan) :
    (adapter.sendPlan debug (deliveryContextFromEvent event) plan).Only
      (adapter.Answering payload) := by
  cases adapter with
  | qq self => exact Qq.QqPlatform.only_sendPlan_answering h plan
  | wechatpadpro self => exact WeChatPadPro.WeChatPadProPlatform.only_sendPlan_answering h plan

end PlatformAdapter

namespace AppState

variable {app : AppState} {request : PlatformRequest} {event : CanonicalEvent}

/-- A delivery that answers a request, by the adapter of the platform that it came from. -/
def Answering (app : AppState) (request : PlatformRequest) : DeliveryOp → Prop
  | .post post => ∃ payload adapter, request.payload = .ok payload ∧
      app.platformRegistry.get request.platformId = some adapter ∧ adapter.Answering payload post
  | .send _ _ => app.messageOverride = true

theorem decodeRequest_eq_some (h : app.decodeRequest request = some event) :
    ∃ payload adapter, request.payload = .ok payload ∧
      app.platformRegistry.get request.platformId = some adapter ∧
      adapter.decodeEvent request.now payload = some event := by
  rw [decodeRequest] at h
  cases hpayload : request.payload with
  | error err =>
    rw [hpayload] at h
    cases h
  | ok payload =>
    rw [hpayload] at h
    obtain ⟨adapter, hadapter, hevent⟩ := Option.bind_eq_some_iff.mp h
    exact ⟨payload, adapter, rfl, hadapter, hevent⟩

theorem platform_of_decodeRequest (hwf : app.platformRegistry.WellFormed)
    (h : app.decodeRequest request = some event) : event.platform = request.platformId := by
  obtain ⟨payload, adapter, -, hadapter, hdecode⟩ := decodeRequest_eq_some h
  rw [PlatformAdapter.platform_of_decode hdecode]
  exact hwf _ _ hadapter

theorem only_deliverPlanWith (hwf : app.platformRegistry.WellFormed)
    (h : app.decodeRequest request = some event) (plan : OutboundPlan) :
    (app.deliverPlanWith event plan).Only (app.Answering request) := by
  rw [deliverPlanWith]
  split_ifs with hoverride hmessages
  · trivial
  · exact ⟨hoverride, fun _ => only_ofExcept _⟩
  · obtain ⟨payload, adapter, hpayload, hadapter, hdecode⟩ := decodeRequest_eq_some h
    rw [platform_of_decodeRequest hwf h, hadapter]
    refine Only.hoist (fun post hpost => ?_) (PlatformAdapter.only_sendPlan hdecode _ _)
    exact ⟨payload, adapter, hpayload, hadapter, hpost⟩

end AppState

section Programs

variable {app : AppState} {request : PlatformRequest}

/-- A call of a task that delivers nothing, or a delivery that answers a request. -/
def TaskOp.Answering (app : AppState) (request : PlatformRequest) (op : TaskOp) : Prop :=
  ∀ delivery, op = .deliver delivery → app.Answering request delivery

/-- A call of a handler that delivers nothing, or a delivery that answers a request. -/
def HandlerOp.Answering (app : AppState) (request : PlatformRequest) (op : HandlerOp) : Prop :=
  ∀ delivery, op = .deliver delivery → app.Answering request delivery

namespace AppState

/-- All deliveries of a task answer the request that its event was decoded from. -/
theorem within_runTask_answering {task : ScheduledRun} (hwf : app.platformRegistry.WellFormed)
    (h : app.decodeRequest request = some task.event) :
    Within (TaskOp.Answering app request) (app.runTask task) := by
  apply within_runTask
  · intro plan
    refine TaskM.within_deliver (only_deliverPlanWith hwf h plan) fun op hop => ?_
    rintro _ ⟨⟩
    exact hop
  · rintro op hop delivery rfl
    cases hop

section Handler

variable {A : HandlerOp → Prop}

structure EventCalls (app : AppState) (A : HandlerOp → Prop) (event : CanonicalEvent) : Prop where
  mirror : A (.mirrorHistoryEvent event)
  snapshot : A .snapshot
  submit : ∀ run validated, A (.submit event run validated)
  deliver : ∀ plan, (app.deliverPlanWith event plan).Only fun op => A (.deliver op)

theorem within_handleCanonicalEvent {event : CanonicalEvent} (h : EventCalls app A event) :
    Within A (app.handleCanonicalEvent event) := by
  have hdeliver : ∀ plan, Within A (HandlerM.deliver (app.deliverPlanWith event plan)) := by
    refine fun plan => ⟨Only.attempt (Only.hoist ?_ (h.deliver plan))⟩
    exact fun _ hop => hop
  have hfeedback : ∀ feedback, Within A (app.answerSubmission event feedback) := by
    intro feedback
    cases feedback with
    | started => exact within_ret _
    | queued tasksAhead => exact (hdeliver _).bind fun _ => within_ret _
    | queueFull => exact (hdeliver _).bind fun _ => within_ret _
  refine (within_call h.mirror).bind fun _ => ?_
  cases resolve event with
  | ignore => exact within_ret _
  | status => exact (within_call h.snapshot).bind fun _ => (hdeliver _).bind fun _ => within_ret _
  | run =>
    cases buildRunRequestFromEvent event with
    | none => exact within_ret _
    | some run =>
      dsimp only
      cases run.validate with
      | error message => exact within_ret _
      | ok validated =>
        refine (within_call (h.submit run validated)).bind fun answer => ?_
        obtain ⟨taskId, feedback⟩ := answer
        cases feedback with
        | started => exact hfeedback .started
        | queued tasksAhead => exact hfeedback (.queued tasksAhead)
        | queueFull => exact hfeedback .queueFull

theorem within_handlePlatformEvent (hpurge : A .maybePurgeExpiredHistory)
    (h : ∀ event, app.decodeRequest request = some event → EventCalls app A event) :
    Within A (app.handlePlatformEvent request) := by
  refine (within_call hpurge).bind fun _ => ?_
  cases hpayload : request.payload with
  | error err => exact within_ret _
  | ok payload =>
    dsimp only
    cases hadapter : app.platformRegistry.get request.platformId with
    | none => exact within_ret _
    | some adapter =>
      dsimp only
      cases hdecode : adapter.decodeEvent request.now payload with
      | none => exact within_ret _
      | some event =>
        exact within_handleCanonicalEvent (h event (decodeRequest_of_decode hpayload hadapter hdecode))

end Handler

theorem within_handlePlatformEvent_answering (hwf : app.platformRegistry.WellFormed) :
    Within (HandlerOp.Answering app request) (app.handlePlatformEvent request) := by
  refine within_handlePlatformEvent nofun fun event hevent => ⟨nofun, nofun, fun _ _ => nofun, ?_⟩
  intro plan
  refine (only_deliverPlanWith hwf hevent plan).mono fun op hop => ?_
  rintro _ ⟨⟩
  exact hop

end AppState

end Programs

namespace PipelineState

variable {app : AppState} {s : PipelineState}

/-- What is delivered answers the requests that caused it. -/
structure DeliveriesAnswer (app : AppState) (s : PipelineState) : Prop where
  handlers : ∀ i op answer, LogEntry.handler i ⟨.deliver op, answer⟩ ∈ s.log →
    ∃ request p, s.handlers[i]? = some (request, p) ∧ app.Answering request op
  tasks : ∀ task op answer, LogEntry.task task ⟨.deliver op, answer⟩ ∈ s.log →
    ∃ (i : ℕ) (request : PlatformRequest) (p : HandlerM HttpResponse),
      s.handlers[i]? = some (request, p) ∧ app.decodeRequest request = some task.event ∧
        app.Answering request op

/-- In every interleaving, and whatever the runner gives: all requests to the APIs of the platforms
are made by the adapter of the platform that an event came from, and all messages go to its chat. -/
theorem deliveries_answer_requests {m d : ℕ} (hwf : app.platformRegistry.WellFormed)
    (h : Reachable (PipelineStep app) (init m d) s) : DeliveriesAnswer app s := by
  obtain ⟨r, hr⟩ := tracked h
  have hh := handlersTracked h
  constructor
  · intro i op answer hlog
    obtain ⟨request, p, hi⟩ := hh.exists_handler hlog
    have hanswering := (AppState.within_handlePlatformEvent_answering hwf).calls (hh.calls i request p hi) _
      (mem_handlerCalls hlog)
    exact ⟨request, p, hi, hanswering op rfl⟩
  · intro task op answer hlog
    have hspawned := hr.logged task _ hlog
    obtain ⟨i, request, p, hi, hevent⟩ := hh.exists_request (hr.origin task hspawned)
    obtain ⟨⟨_, q⟩, hthread, rfl⟩ := List.mem_map.mp hspawned
    obtain ⟨j, hj⟩ := List.getElem?_of_mem hthread
    have hmem : (⟨.deliver op, answer⟩ : TaskCall) ∈ s.taskCalls _ :=
      List.mem_filterMap.mpr ⟨_, hlog, if_pos rfl⟩
    have hanswering := (AppState.within_runTask_answering hwf hevent).calls (hr.calls j _ q hj) _ hmem
    exact ⟨i, request, p, hi, hevent, hanswering op rfl⟩

theorem deliveries_answer_requests_contended : DeliveriesAnswer qqApp contended :=
  deliveries_answer_requests (PlatformRegistry.wellFormed_empty.register _) reachable_contended

end PipelineState

end DogBot
