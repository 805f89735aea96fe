import DogBot.Platforms.Common

/-! # WeChatPadPro webhook events

A webhook payload wraps the event in different ways. The sender is taken from a
sender field, from the transport prefix of the content, or from the envelope,
in this order; a group id is searched in the group fields and the envelope.
-/

namespace DogBot.WeChatPadPro

open Json

/-- Copy the top-level metadata that the message itself does not have. -/
def mergeTopLevelMetadata (message : List (String × Value)) (payload : Value) :
    List (String × Value) :=
  ["event_type", "type", "uuid", "timestamp", "signature"].foldl (fun merged key =>
    if (merged.lookup key).isSome then merged
    else merged ++ ((payload.get key).map fun value => (key, value)).toList) message

def unwrapEvent (payload : Value) : Value :=
  match (payload.get "message").bind Value.asObject with
  | some message => .object (mergeTopLevelMetadata message payload)
  | none =>
    match (payload.get "data").bind Value.asObject with
    | some data =>
      match ((Value.object data).get "message").bind Value.asObject with
      | some message => .object (mergeTopLevelMetadata message payload)
      | none => .object data
    | none => payload

def contentKeys : List String := ["content", "Content", "text", "TextContent"]

def extractRawContent (event : Value) : String :=
  Text.trim (((contentKeys.findSome? event.get).bind Value.asStr).getD "")

/-- The characters of a sender in front of a content. -/
def isSenderChar (c : Char) : Bool :=
  Text.isAsciiAlphanumeric c || c == '_' || c == '@' || c == '-'

def parseTransportPrefixedContent (raw : String) : Option String × String :=
  match Text.splitOnce ":\n" (Text.trim raw) with
  | none => (none, Text.trim raw)
  | some (sender, body) =>
    if sender = "" ∨ ¬ sender.toList.all isSenderChar then (none, Text.trim raw)
    else (some (Text.trim sender), Text.trim body)

def extractContent (event : Value) : String :=
  (parseTransportPrefixedContent (extractRawContent event)).2

/-- The text of the first key whose trimmed text is accepted. -/
def firstText (keys : List String) (accept : String → Bool) (event : Value) : Option String :=
  keys.findSome? fun key => (((event.get key).bind stringValue).map Text.trim).filter accept

def isNonEmpty (value : String) : Bool := value ≠ ""

def isChatroom (value : String) : Bool := Text.endsWith "@chatroom" value

def senderKeys : List String := ["senderWxid", "senderWxId", "senderId"]

/-- The sender that the envelope names: only the first key that is present counts. -/
def envelopeSender (event : Value) : String :=
  (((((["fromUserName", "fromUsername", "FromUserName"].findSome? event.get).bind stringValue).map
    Text.trim).filter fun value => !isChatroom value && isNonEmpty value)).getD ""

def extractSender (event : Value) : String :=
  match firstText senderKeys isNonEmpty event with
  | some sender => sender
  | none =>
    match (parseTransportPrefixedContent (extractRawContent event)).1 with
    | some prefixedSender => prefixedSender
    | none => envelopeSender event

def groupKeys : List String :=
  ["roomId", "chatroomId", "chatRoomName", "fromChatRoom", "fromGroup"]

def envelopeKeys : List String :=
  ["fromUserName", "fromUsername", "FromUserName", "toUserName", "toUsername", "ToUserName"]

def extractGroupId (event : Value) : Option String :=
  firstText groupKeys isNonEmpty event <|> firstText envelopeKeys isChatroom event

def isTextEvent (event : Value) : Bool :=
  match ((((["msgType", "MsgType"].findSome? event.get).bind stringValue).map fun value =>
    Text.lowercase (Text.trim value)).filter isNonEmpty) with
  | some msgType => msgType = "1" || msgType = "text"
  | none => extractContent event ≠ ""

def extractMessageId (event : Value) : Option String :=
  firstText ["msgId", "MsgId", "newMsgId", "newmsgId"] isNonEmpty event

def extractReplyTo (event : Value) : Option String :=
  firstText ["replyTo", "quoteMsgId", "replyMsgId", "reply_to_msg_id"] isNonEmpty event

/-- The time of an event, or else the current time. -/
def extractTimestamp (now : ℤ) (event : Value) : ℤ :=
  (["createTime", "CreateTime", "timestamp", "time"].findSome? fun key =>
    (event.get key).bind integerValue).getD now

def stripLeadingMention (content : String) (mentionNames : List String) : String :=
  let trimmed := Text.trim content
  if ¬ Text.startsWith "@" trimmed ∨ mentionNames = [] then trimmed
  else if Text.trimStartMatches '@' (Text.firstWord trimmed) ∉ mentionNames then trimmed
  else Text.trim (Text.afterFirstWord trimmed)

/-- The conversation of an event: its group, or else the private chat with its sender. -/
def conversationOf (event : Value) : String :=
  match extractGroupId event with
  | some roomId => "wechatpadpro:group:" ++ roomId
  | none => "wechatpadpro:private:" ++ extractSender event

def decodeWebhookEvent (now : ℤ) (payload : Value) (platformAccount : String)
    (mentionNames : List String) : Option CanonicalEvent := do
  let event := unwrapEvent payload
  guard (isTextEvent event)
  let messageId ← extractMessageId event
  let content := extractContent event
  let sender := extractSender event
  let normalized := stripLeadingMention content mentionNames
  let mentions := if normalized ≠ content then [platformAccount] else []
  return {
    platform := "wechatpadpro"
    platformAccount
    conversation := conversationOf event
    actor := "wechatpadpro:user:" ++ sender
    eventId := "wechatpadpro:event:" ++ messageId
    timestampEpochSecs := extractTimestamp now event
    kind := .message
      { messageId, replyTo := extractReplyTo event, parts := [.text normalized], mentions
        nativeMetadata := event }
    rawNativePayload := payload }

end DogBot.WeChatPadPro
