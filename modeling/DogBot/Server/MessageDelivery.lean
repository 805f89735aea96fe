import DogBot.Library.Expand
import DogBot.Server.Addressees
import DogBot.Server.Messages
import DogBot.Server.Schedule
import DogBot.Session.Events

/-! # Messages into the chats of events

The run of an event binds the conversation of the event as a session id. From
then on a message to that session is sent to the chat that the payload of the
event names, by the adapter that decoded it: by at most one request, whose
outcome is what the handler reports.
-/

namespace DogBot

open Program (Always Runs)

/-- What the handler of `/v1/messages` asks of the session store and the platforms. -/
inductive MessageOp
  | session (op : SessionOp)
  | deliver (op : DeliveryOp)

abbrev MessageOp.Result : MessageOp → Type
  | session op => op.Result
  | deliver op => op.Result

/-- Programs of the handler, which handle all errors. -/
abbrev MessageM (α : Type) := Program MessageOp MessageOp.Result Empty α

def MessageM.lookup {α : Type} (program : Program SessionOp SessionOp.Result ErrorResponse α) :
    MessageM (Except ErrorResponse α) :=
  (program.hoist .session (fun _ answer => answer) fun e => e :
    Program MessageOp MessageOp.Result ErrorResponse α).attempt

def MessageM.deliver {α : Type} (delivery : OutboxM α) : MessageM (Except ErrorResponse α) :=
  (delivery.hoist .deliver (fun _ answer => answer) fun e => e :
    Program MessageOp MessageOp.Result ErrorResponse α).attempt

/-- The response to a message whose request is refused or whose session is not found. -/
def mapLookupErrorToResponse (error : ErrorResponse) : HttpResponse :=
  if error.errorCode = "invalid_request" then ⟨400, .error error⟩
  else if error.errorCode = "session_not_found" then ⟨404, .error error⟩
  else ⟨500, .error error⟩

/-- The handler of `/v1/messages`, given its body or the text of an error. -/
def AppState.sendMessage (app : AppState) : Except String MessageRequest → MessageM HttpResponse
  | .error err => .ret (errorResponse 400 "invalid_json" err)
  | .ok request => do
    let found ← MessageM.lookup (Server.sendMessage request)
    match found with
    | .error error => .ret (mapLookupErrorToResponse error)
    | .ok session => do
      let request := { request with sessionId := Text.trim request.sessionId }
      let result ← MessageM.deliver (app.deliverMessageRequest request session)
      .ret (mapDeliveryResultToResponse result)

abbrev DeliveryCall := Σ op : DeliveryOp, op.Result

/-- The session store answers as it does, deliveries are answered arbitrarily and recorded. -/
inductive MessageStep (faulty : Prop) : SessionState × List DeliveryCall → (op : MessageOp) →
    op.Result → SessionState × List DeliveryCall → Prop
  | session {s s' : SessionState} {sent : List DeliveryCall} {op : SessionOp} {r : op.Result}
      (h : SessionStep faulty s op r s') : MessageStep faulty (s, sent) (.session op) r (s', sent)
  | deliver {s : SessionState} {sent : List DeliveryCall} (op : DeliveryOp) (r : op.Result) :
      MessageStep faulty (s, sent) (.deliver op) r (s, sent ++ [⟨op, r⟩])

section Single

variable {context : DeliveryContext} {message : MessageRequest} {payload : Json.Value}
  {event : CanonicalEvent}

namespace Qq

end Qq

namespace WeChatPadPro

end WeChatPadPro

end Single

section Handler

variable {app : AppState} {faulty : Prop} {request : PlatformRequest} {event : CanonicalEvent}
  {message : MessageRequest} {session : SessionRecord} {s : SessionState}

/-- Answer a call of the handler; every delivery is accepted. -/
def MessageOp.serve (t : SessionState × List DeliveryCall) :
    (op : MessageOp) → op.Result × (SessionState × List DeliveryCall)
  | .session op => ((t.1.handle op).1, ((t.1.handle op).2, t.2))
  | .deliver op => (op.delivered, (t.1, t.2 ++ [⟨op, op.delivered⟩]))

theorem MessageStep.serve (faulty : Prop) (t : SessionState × List DeliveryCall)
    (op : MessageOp) : MessageStep faulty t op (op.serve t).1 (op.serve t).2 := by
  obtain ⟨s, sent⟩ := t
  cases op with
  | session op => exact .session (SessionState.step_handle faulty _ op)
  | deliver op => exact .deliver op op.delivered

end Handler

end DogBot
