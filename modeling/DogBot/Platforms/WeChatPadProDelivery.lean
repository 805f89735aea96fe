import DogBot.Dispatch
import DogBot.Library.Path
import DogBot.Platforms.Http
import DogBot.Platforms.WeChatPadPro

/-! # Delivery to WeChatPadPro

A message becomes a list of requests: the texts and mentions between media are
joined to one text request, and each media part is a file request. A plan is
delivered message by message, and a message is compiled when its turn comes.
-/

namespace DogBot.WeChatPadPro

open Json (Value)

inductive OutboundRequest
  | text (payload : Value)
  | file (payload : Value)

structure MentionTarget where
  actorId : String
  display : Option String
  deriving DecidableEq, Repr

structure WeChatPadProPlatform where
  baseUrl : String
  accountKey : Option String
  platformAccount : String
  mentionNames : List String

/-- How values are printed for debugging; the texts occur in errors only. -/
structure DebugFormat where
  part : MessagePart → String
  source : AssetSource → String

def normalizeWechatTargetId (value : String) : String :=
  (Text.stripPrefix "wechatpadpro:user:" value).getD value

def conversationTarget (conversationId : String) : String :=
  (((Text.splitOnce ":" conversationId).bind fun (_, rest) =>
    Text.splitOnce ":" rest).map Prod.snd).getD ""

def extractSenderName (event : Value) : String :=
  (["senderNickName", "senderName", "fromNickname", "fromUserNickName", "senderNick"].findSome?
    fun key => (((event.get key).bind Value.asStr).map Text.trim).filter isNonEmpty).getD ""

def renderMentionText (target : MentionTarget) : String :=
  let display := ((target.display.map Text.trim).filter isNonEmpty).getD target.actorId
  "@" ++ Text.trimStartMatches '@' display

def endsWithWhitespace (value : String) : Bool := value.toList.getLast?.any Text.isWhitespace

def defaultGroupMentionFromContext (context : DeliveryContext) : Option MentionTarget := do
  let actorId ← (context.targetActorId.map fun id =>
    Text.trim (normalizeWechatTargetId id)).filter isNonEmpty
  let display := context.targetDisplayName <|>
    (context.nativeEvent.map fun event => extractSenderName (unwrapEvent event)).filter isNonEmpty
  return { actorId, display }

/-- A text message; in a group, the mentions are put in front of the text. -/
def buildTextPayload (target text : String) (isGroup : Bool) (mentions : List MentionTarget) :
    Value :=
  let msgItem : List (String × Value) :=
    if isGroup ∧ mentions ≠ [] then
      let names := " ".intercalate (mentions.map renderMentionText)
      let text := Text.trim text
      [("AtWxIDList", .array (mentions.map fun mention => .string mention.actorId)),
        ("MsgType", .number (.int 1)),
        ("TextContent", .string (if text = "" then names else names ++ " " ++ text)),
        ("ToUserName", .string target)]
    else
      [("MsgType", .number (.int 1)), ("TextContent", .string text),
        ("ToUserName", .string target)]
  .object [("MsgItem", .array [.object msgItem])]

variable (debug : DebugFormat)

def addTextPart (state : String × List MentionTarget) (part : MessagePart) :
    Except String (String × List MentionTarget) :=
  let (text, mentions) := state
  match part with
  | .text partText => .ok (text ++ partText, mentions)
  | .mention actorId display =>
    let normalizedActor := Text.trim (normalizeWechatTargetId actorId)
    if normalizedActor = "" then .ok (text, mentions)
    else
      let text := if text ≠ "" ∧ ¬ endsWithWhitespace text then text ++ " " else text
      let mention : MentionTarget := { actorId := normalizedActor, display := some display }
      .ok (text ++ renderMentionText mention ++ " ", mentions ++ [mention])
  | unsupported =>
    .error ("unsupported outbound WeChatPadPro part in text message: " ++ debug.part unsupported)

def compileTextPayloadFromParts (parts : List MessagePart) (context : DeliveryContext)
    (applyDefaultGroupMention : Bool) : Except String (Option Value) := do
  if parts = [] then return none
  let isGroup := conversationScope context.conversationId = some "group"
  let target := conversationTarget context.conversationId
  let (text, mentions) ← parts.foldlM (addTextPart debug) ("", [])
  let text := Text.trim text
  if text = "" then return none
  let mentions :=
    if applyDefaultGroupMention ∧ isGroup ∧ mentions = [] then
      (defaultGroupMentionFromContext context).toList
    else mentions
  return some (buildTextPayload target text isGroup mentions)

/-- The mentions of a text: the default one, where it applies and there is no other. -/
def payloadMentions (context : DeliveryContext) (applyDefaultGroupMention : Bool)
    (mentions : List MentionTarget) : List MentionTarget :=
  if applyDefaultGroupMention ∧ conversationScope context.conversationId = some "group" ∧
      mentions = [] then (defaultGroupMentionFromContext context).toList
  else mentions

theorem compileTextPayloadFromParts_eq {parts : List MessagePart} {context : DeliveryContext}
    {applyDefaultGroupMention : Bool} {text : String} {mentions : List MentionTarget}
    (hne : parts ≠ []) (h : parts.foldlM (addTextPart debug) ("", []) = .ok (text, mentions)) :
    compileTextPayloadFromParts debug parts context applyDefaultGroupMention =
      if Text.trim text = "" then .ok none
      else .ok (some (buildTextPayload (conversationTarget context.conversationId) (Text.trim text)
        (conversationScope context.conversationId = some "group")
        (payloadMentions context applyDefaultGroupMention mentions))) := by
  rw [compileTextPayloadFromParts, if_neg hne]
  dsimp only
  rw [h]
  rfl

theorem exists_of_compileTextPayloadFromParts {parts : List MessagePart}
    {context : DeliveryContext} {applyDefaultGroupMention : Bool} {payload : Value}
    (h : compileTextPayloadFromParts debug parts context applyDefaultGroupMention =
      .ok (some payload)) :
    ∃ text mentions, parts.foldlM (addTextPart debug) ("", []) = .ok (text, mentions) ∧
      Text.trim text ≠ "" ∧
      payload = buildTextPayload (conversationTarget context.conversationId) (Text.trim text)
        (conversationScope context.conversationId = some "group")
        (payloadMentions context applyDefaultGroupMention mentions) := by
  by_cases hne : parts = []
  · subst hne
    cases h
  · cases hfold : parts.foldlM (addTextPart debug) ("", []) with
    | error err => simp [compileTextPayloadFromParts, hne, hfold, bind, Except.bind] at h
    | ok state =>
      rw [compileTextPayloadFromParts_eq debug hne hfold] at h
      split_ifs at h with htext
      · cases h
      · exact ⟨state.1, state.2, rfl, htext, (Option.some.inj (Except.ok.inj h)).symm⟩

def flushTextRequest (requests : List OutboundRequest) (textParts : List MessagePart)
    (context : DeliveryContext) (applyDefaultGroupMention : Bool) :
    Except String (List OutboundRequest) := do
  match ← compileTextPayloadFromParts debug textParts context applyDefaultGroupMention with
  | some payload => return requests ++ [.text payload]
  | none => return requests

def workspaceAssetPath (asset : AssetRef) : Except String String :=
  match asset.source with
  | .workspacePath path => .ok path
  | unsupported =>
    .error ("unsupported outbound WeChatPadPro asset source: " ++ debug.source unsupported)

def compileFilePayload (context : DeliveryContext) (fileType : String) (asset : AssetRef) :
    Except String Value := do
  let target := conversationTarget context.conversationId
  let filePath ← workspaceAssetPath debug asset
  match (Path.fileName filePath).filter isNonEmpty with
  | none => throw ("asset path is missing a file name: " ++ filePath)
  | some fileName => return .object [("fileName", .string fileName), ("filePath", .string filePath),
      ("fileType", .string fileType), ("toUserName", .string target)]

/-- Add a part to the requests and to the text parts behind them. -/
def addOutboundPart (context : DeliveryContext) (applyDefaultGroupMention : Bool)
    (state : List OutboundRequest × List MessagePart) (part : MessagePart) :
    Except String (List OutboundRequest × List MessagePart) :=
  let (requests, textParts) := state
  let addFile (fileType : String) (asset : AssetRef) := do
    let requests ← flushTextRequest debug requests textParts context applyDefaultGroupMention
    let payload ← compileFilePayload debug context fileType asset
    return (requests ++ [.file payload], [])
  match part with
  | .text _ | .mention _ _ => .ok (requests, textParts ++ [part])
  | .image asset => addFile "image" asset
  | .video asset => addFile "video" asset
  | .file asset => addFile "file" asset
  | .voice asset => addFile "file" asset
  | .sticker asset => addFile "image" asset
  | .quote _ _ => .ok (requests, textParts)

def compileOutboundRequests (message : OutboundMessage) (context : DeliveryContext)
    (applyDefaultGroupMention : Bool) : Except String (List OutboundRequest) := do
  let (requests, textParts) ←
    message.parts.foldlM (addOutboundPart debug context applyDefaultGroupMention) ([], [])
  match ← flushTextRequest debug requests textParts context applyDefaultGroupMention with
  | [] => throw "empty outbound WeChatPadPro message"
  | requests => return requests

/-- The endpoint, the name of the operation and the payload of a request. -/
def OutboundRequest.target : OutboundRequest → String × String × Value
  | .text payload => ("/message/SendTextMessage", "SendTextMessage", payload)
  | .file payload => ("/api/v1/message/sendFile", "sendFile", payload)

/-- The answer to a request: the code in the body must be that of a success, too. -/
def readWechatResponse (operation : String) (response : ApiResponse) :
    Except ErrorResponse MessageResponse := do
  let (status, body) ← response.read "failed to reach WeChatPadPro API: "
    ("WeChatPadPro " ++ operation ++ " returned non-JSON response: ")
  if status.isSuccess ∧ (body.get "Code").bind Value.asI64 = some 200 then
    return {
      status := "ok"
      messageId := (((body.get "Data").bind fun data => data.get "MsgId").bind stringValue) <|>
        (body.get "MsgId").bind stringValue }
  else throw (deliveryError "delivery_failed"
    ("WeChatPadPro " ++ operation ++ " failed: " ++ body.print))

namespace WeChatPadProPlatform

def sendRequest (self : WeChatPadProPlatform) (accountKey : String) (request : OutboundRequest) :
    DeliveryM MessageResponse := do
  let (endpoint, operation, payload) := request.target
  let response ← post { url := self.baseUrl ++ endpoint, query := [("key", accountKey)], payload }
  .ofExcept (readWechatResponse operation response)

def sendRequests (self : WeChatPadProPlatform) (accountKey : String)
    (lastResponse : MessageResponse) : List OutboundRequest → DeliveryM MessageResponse
  | [] => .ret lastResponse
  | request :: requests => do
    let response ← self.sendRequest accountKey request
    self.sendRequests accountKey response requests

def sendMessages (self : WeChatPadProPlatform) (context : DeliveryContext) (accountKey : String)
    (isFirst : Bool) (lastResponse : MessageResponse) :
    List OutboundMessage → DeliveryM MessageResponse
  | [] => .ret lastResponse
  | message :: messages => do
    let requests ← .ofExcept
      ((compileOutboundRequests debug message context isFirst).mapError invalidPlan)
    let response ← self.sendRequests accountKey lastResponse requests
    self.sendMessages context accountKey false response messages

def sendPlan (self : WeChatPadProPlatform) (context : DeliveryContext) (plan : OutboundPlan) :
    DeliveryM MessageResponse := do
  .ofExcept ((dispatchPlan plan).mapError invalidPlan)
  match self.accountKey with
  | none => .fail (deliveryError "delivery_unavailable" "WECHATPADPRO_ACCOUNT_KEY is not configured")
  | some accountKey =>
    self.sendMessages debug context accountKey true { status := "ok", messageId := none }
      plan.messages

end WeChatPadProPlatform

end DogBot.WeChatPadPro
