import DogBot.Dispatch
import DogBot.Platforms.Http
import DogBot.Platforms.Qq

/-! # Delivery to QQ

A plan is delivered action by action and then message by message. Each item is
compiled when its turn comes, so that items before it have been sent already.
-/

namespace DogBot.Qq

open Json (Value)

structure QqPlatform where
  baseUrl : String
  platformAccount : String

def QQ_REACTION_EMOJI_IDS : Vector (String × String) 6 :=
  #v[("👍", "128077"), ("🙏", "128591"), ("🫡", "129761"), ("😂", "128514"), ("❤", "10084"),
    ("👏", "128079")]

/-- The platform, the scope and the target of a conversation. -/
def parseConversationId (value : String) : Option (String × String × String) := do
  let (platform, rest) ← Text.splitOnce ":" value
  let (scope, targetId) ← Text.splitOnce ":" rest
  return (platform, scope, targetId)

def internalError (message : String) : ErrorResponse := deliveryError "internal_error" message

def qqSupportedReactionId (emoji : String) : Option String :=
  if emoji = "❤" ∨ emoji = "❤️" then some "10084"
  else QQ_REACTION_EMOJI_IDS.toList.lookup emoji

/-- The id of an emoji; the code point of an unsupported one chooses a supported one. -/
def qqReactionEmojiId (emoji : String) : String :=
  let trimmed := Text.trim emoji
  if trimmed.toList.all Char.isDigit then trimmed
  else match qqSupportedReactionId trimmed with
    | some id => id
    | none =>
      let fallbackIndex := match trimmed.toList.find? fun value =>
          value.toNat ≠ 0xFE0E ∧ value.toNat ≠ 0xFE0F with
        | some value => value.toNat
        | none => 0
      QQ_REACTION_EMOJI_IDS[fallbackIndex % 6].2

def resultCode (value : Value) : Option ℤ := value.asI64 <|> value.asStr.bind Text.parseI64

def napcatBusinessError (body : Value) : Option String :=
  let data := (body.get "data").getD .null
  let errMsg := Text.trim (((data.get "errMsg").bind Value.asStr).getD "")
  match (data.get "result").bind resultCode with
  | some code =>
    if code = 0 ∨ code = 65002 then none
    else some ("NapCat reaction request failed: result=" ++ toString code ++ ", errMsg=" ++ errMsg)
  | none => if errMsg = "" then none else some ("NapCat reaction request failed: errMsg=" ++ errMsg)

def messageRequest (conversationId message : String) : Except ErrorResponse (String × Value) :=
  match parseConversationId conversationId with
  | none => .error (internalError "invalid conversation_id in session store")
  | some (_, scope, targetId) =>
    let numericTargetId := Value.number (.int ((Text.parseI64 targetId).getD 0))
    if scope = "private" ∨ scope = "FriendMessage" then
      .ok ("/send_private_msg", .object [("auto_escape", .bool false),
        ("message", .string message), ("user_id", numericTargetId)])
    else if scope = "group" ∨ scope = "GroupMessage" then
      .ok ("/send_group_msg", .object [("auto_escape", .bool false),
        ("group_id", numericTargetId), ("message", .string message)])
    else .error (deliveryError "unsupported_platform"
      ("unsupported QQ conversation scope: " ++ conversationId))

/-- The body of a response of NapCat, if its status is a success. -/
def readNapcatResponse (response : ApiResponse) : Except ErrorResponse Value := do
  let (status, body) ← response.read "failed to reach NapCat API: "
    "NapCat API returned invalid JSON: "
  if status.isSuccess then return body
  else throw (deliveryError "delivery_failed"
    ("NapCat API returned " ++ status.text ++ ": " ++ body.print))

def sentMessage (body : Value) : MessageResponse where
  status := "ok"
  messageId := ((body.get "data").bind fun data => data.get "message_id").bind stringValue

def reactionRequest (action : ReactionAction) : Except ErrorResponse Value := do
  let target ← (normalizeQqTargetId action.targetMessageId).mapError invalidPlan
  match Text.parseI64 target with
  | none => throw (internalError "invalid QQ reaction target id")
  | some messageId => return .object [("emoji_id", .string (qqReactionEmojiId action.emoji)),
      ("message_id", .number (.int messageId)), ("set", .bool true)]

def readReactionResponse (response : ApiResponse) : Except ErrorResponse Unit := do
  let body ← readNapcatResponse response
  match napcatBusinessError body with
  | some message => throw (deliveryError "delivery_failed" message)
  | none => return ()

namespace QqPlatform

def sendEncodedMessage (self : QqPlatform) (conversationId message : String) :
    DeliveryM MessageResponse := do
  let (path, payload) ← .ofExcept (messageRequest conversationId message)
  let response ← post { url := self.baseUrl ++ path, query := [], payload }
  .ofExcept ((readNapcatResponse response).map sentMessage)

def sendReactionAdd (self : QqPlatform) (action : ReactionAction) : DeliveryM Unit := do
  let payload ← .ofExcept (reactionRequest action)
  let response ← post { url := self.baseUrl ++ "/set_msg_emoji_like", query := [], payload }
  .ofExcept (readReactionResponse response)

def sendActions (self : QqPlatform) : List OutboundAction → DeliveryM Unit
  | [] => .ret ()
  | .reactionAdd action :: actions => do
    self.sendReactionAdd action
    self.sendActions actions
  | .reactionRemove _ :: actions => self.sendActions actions

/-- The text of a message; only the first message of a plan gets the defaults of the context. -/
def compileMessage (context : DeliveryContext) (isFirst : Bool) (message : OutboundMessage) :
    Except String String :=
  let defaultReplyTo := if isFirst then context.replyToMessageId else none
  let mentionUserId := if isFirst then context.targetActorId else none
  compileOutboundMessage message (message.effectiveReplyTo defaultReplyTo) mentionUserId

def sendMessages (self : QqPlatform) (context : DeliveryContext) (isFirst : Bool)
    (lastResponse : MessageResponse) : List OutboundMessage → DeliveryM MessageResponse
  | [] => .ret lastResponse
  | message :: messages => do
    let encoded ← .ofExcept ((compileMessage context isFirst message).mapError invalidPlan)
    let response ← self.sendEncodedMessage context.conversationId encoded
    self.sendMessages context false response messages

def sendPlan (self : QqPlatform) (context : DeliveryContext) (plan : OutboundPlan) :
    DeliveryM MessageResponse := do
  .ofExcept ((dispatchPlan plan).mapError invalidPlan)
  self.sendActions plan.actions
  self.sendMessages context true { status := "ok", messageId := none } plan.messages

end QqPlatform

end DogBot.Qq
