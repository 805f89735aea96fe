import DogBot.Platforms.Adapters
import DogBot.Server.Messages

/-! # Deliveries

The registry maps a platform to its adapter. A plan that answers an event is
delivered by the adapter of the event's platform, and a message to a session by
the adapter of the session's platform. A messenger that is set in place of the
adapters gets the text of the plan instead.
-/

namespace DogBot

structure IngressRoute where
  path : String
  allowHead : Bool
  deriving DecidableEq, Repr

inductive PlatformAdapter
  | qq (self : Qq.QqPlatform)
  | wechatpadpro (self : WeChatPadPro.WeChatPadProPlatform)

namespace PlatformAdapter

def platformId : PlatformAdapter → String
  | qq _ => "qq"
  | wechatpadpro _ => "wechatpadpro"

def ingressRoutes : PlatformAdapter → List IngressRoute
  | qq _ => [{ path := "/v1/platforms/qq/napcat/events", allowHead := false }]
  | wechatpadpro _ => [{ path := "/v1/platforms/wechatpadpro/events", allowHead := true }]

/-- The event of a payload that arrives at a given time. -/
def decodeEvent (adapter : PlatformAdapter) (now : ℤ) (payload : Json.Value) :
    Option CanonicalEvent :=
  match adapter with
  | qq self => self.decodeEvent payload
  | wechatpadpro self => self.decodeEvent now payload

def sendPlan (debug : WeChatPadPro.DebugFormat) (adapter : PlatformAdapter)
    (context : DeliveryContext) (plan : OutboundPlan) : DeliveryM MessageResponse :=
  match adapter with
  | qq self => self.sendPlan context plan
  | wechatpadpro self => self.sendPlan debug context plan

end PlatformAdapter

structure PlatformRegistry where
  adapters : Table String PlatformAdapter
  ingressRoutes : List (String × IngressRoute)

namespace PlatformRegistry

def empty : PlatformRegistry := ⟨∅, []⟩

def register (registry : PlatformRegistry) (adapter : PlatformAdapter) : PlatformRegistry where
  adapters := registry.adapters.insert adapter.platformId adapter
  ingressRoutes := registry.ingressRoutes ++
    adapter.ingressRoutes.map fun route => (adapter.platformId, route)

def fromSettings (settings : RunnerSettings) : PlatformRegistry :=
  (empty.register (.qq (.fromSettings settings))).register (.wechatpadpro (.fromSettings settings))

def get (registry : PlatformRegistry) (platformId : String) : Option PlatformAdapter :=
  registry.adapters.lookup platformId

/-- Every platform is mapped to an adapter for it. -/
def WellFormed (registry : PlatformRegistry) : Prop :=
  ∀ platformId adapter, registry.get platformId = some adapter → adapter.platformId = platformId

theorem wellFormed_empty : empty.WellFormed := by
  intro platformId adapter h
  simp [empty, get] at h

theorem WellFormed.register {registry : PlatformRegistry} (h : registry.WellFormed)
    (adapter : PlatformAdapter) : (registry.register adapter).WellFormed := by
  intro platformId found hfound
  rw [PlatformRegistry.register, get, AList.lookup_insert'] at hfound
  split_ifs at hfound with heq
  · obtain rfl := Option.some.inj hfound
    exact heq.symm
  · exact h platformId found hfound

theorem wellFormed_fromSettings (settings : RunnerSettings) :
    (fromSettings settings).WellFormed :=
  (wellFormed_empty.register _).register _

end PlatformRegistry

/-- A request to a platform API, or a message that a messenger is given. -/
inductive DeliveryOp
  | post (request : ApiRequest)
  | send (request : MessageRequest) (session : SessionRecord)

abbrev DeliveryOp.Result : DeliveryOp → Type
  | post _ => ApiResponse
  | send _ _ => Except ErrorResponse MessageResponse

abbrev OutboxM (α : Type) := Program DeliveryOp DeliveryOp.Result ErrorResponse α

def posting {α : Type} (delivery : DeliveryM α) : OutboxM α :=
  delivery.hoist .post (fun _ response => response) fun e => e

def messenger (request : MessageRequest) (session : SessionRecord) : OutboxM MessageResponse :=
  .call (.send request session) .ofExcept

/-- The state of the application that no request changes. How action blocks are parsed, values are
printed for debugging and texts are hashed are parameters; the messengers are for tests only. -/
structure AppState where
  platformRegistry : PlatformRegistry
  messageOverride : Bool
  debug : WeChatPadPro.DebugFormat
  fromStr : String → Option Json.Value
  hash : String → ℕ

def unsupportedPlatform (platform : String) : ErrorResponse where
  status := "error"
  errorCode := "unsupported_platform"
  message := "platform is not registered: " ++ platform
  timedOut := false

def sessionRecordFromEvent (event : CanonicalEvent) : SessionRecord where
  sessionKey := "conversation::" ++ event.platform ++ "::" ++ event.platformAccount ++ "::" ++
    event.conversation
  externalSessionId := event.conversation
  claudeSessionId := ""
  identity :=
    { platform := event.platform
      platformAccount := event.platformAccount
      conversationId := event.conversation }
  userId := ""
  createdAtEpochSecs := event.timestampEpochSecs
  lastUsedAtEpochSecs := event.timestampEpochSecs
  isNew := false

/-- The texts and the mentions of all messages of a plan. -/
def OutboundPlan.overrideText (plan : OutboundPlan) : String :=
  "".intercalate ((plan.messages.flatMap OutboundMessage.parts).filterMap fun
    | .text text => some text
    | .mention _ display => some display
    | _ => none)

def OutboundMessage.ofText (text : String) : OutboundMessage where
  parts := [.text text]
  replyTo := none
  suppressDefaultReply := false
  deliveryPolicy := none

def OutboundPlan.ofText (text : String) : OutboundPlan where
  messages := [.ofText text]
  actions := []
  deliveryReportPolicy := none

namespace AppState

variable (app : AppState)

def deliverPlanWith (event : CanonicalEvent) (plan : OutboundPlan) : OutboxM MessageResponse :=
  if app.messageOverride then
    if plan.messages = [] then .ret { status := "ok", messageId := none }
    else messenger
      { sessionId := event.conversation
        text := plan.overrideText
        replyToMessageId := none
        mentionUserId := none }
      (sessionRecordFromEvent event)
  else match app.platformRegistry.get event.platform with
    | none => .fail (unsupportedPlatform event.platform)
    | some adapter => posting (adapter.sendPlan app.debug (deliveryContextFromEvent event) plan)

def messagePlan (request : MessageRequest) : OutboundPlan where
  messages :=
    [{ parts := [.text request.text]
       replyTo := request.replyToMessageId
       suppressDefaultReply := false
       deliveryPolicy := none }]
  actions := []
  deliveryReportPolicy := none

def messageContext (request : MessageRequest) (session : SessionRecord) : DeliveryContext where
  platform := session.identity.platform
  platformAccount := session.identity.platformAccount
  conversationId := session.identity.conversationId
  targetActorId := request.mentionUserId
  targetDisplayName := none
  replyToMessageId := request.replyToMessageId
  nativeEvent := none

def deliverMessageRequest (request : MessageRequest) (session : SessionRecord) :
    OutboxM MessageResponse :=
  if app.messageOverride then messenger request session
  else match app.platformRegistry.get session.identity.platform with
    | none => .fail (unsupportedPlatform session.identity.platform)
    | some adapter =>
      posting (adapter.sendPlan app.debug (messageContext request session) (messagePlan request))

end AppState

end DogBot
