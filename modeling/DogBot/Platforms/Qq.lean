import DogBot.Platforms.Common

/-! # QQ messages

An event of the NapCat gateway carries a message twice, as an array of segments
and as CQ text. The array is read first; the CQ text is read where the array
mentions nobody. Outbound messages are written as CQ text.
-/

namespace DogBot.Qq

open Json

/-- The mention of a QQ number; the bot's own number stands for its platform account. -/
def mentionPart (platformAccount botUin qq : String) : MessagePart :=
  .mention (if qq = botUin then platformAccount else normalizeActorId qq "qq:user:") ("@" ++ qq)

/-- The part of one segment. Segments other than texts and mentions are skipped. -/
def parseSegment (platformAccount botUin : String) (segment : Value) : Option MessagePart :=
  match (segment.get "type").bind Value.asStr with
  | none => none
  | some segmentType =>
    let data := (segment.get "data").getD .null
    if segmentType = "text" then ((data.get "text").bind Value.asStr).map .text
    else if segmentType = "at" then
      ((data.get "qq").bind stringValue).map (mentionPart platformAccount botUin)
    else none

def parseMessageParts (message : Option Value) (platformAccount botUin : String) :
    List MessagePart :=
  match message.bind Value.asArray with
  | none => []
  | some segments => segments.filterMap (parseSegment platformAccount botUin)

/-- Drop the reply codes of a text. A code without an end stops the search, and the text in front
of it is repeated. -/
def stripReplyTokens (remaining : List Char) : List Char :=
  match _hstart : Text.splitOnceChars "[CQ:reply,id=".toList remaining with
  | none => remaining
  | some (before, after) =>
    match _hend : Text.splitOnceChars [']'] after with
    | none => before ++ remaining
    | some (_, rest) => before ++ stripReplyTokens rest
termination_by remaining.length
decreasing_by
  have h₁ := Text.length_after_lt (by decide) _hstart
  have h₂ := Text.length_after_lt (by decide) _hend
  omega

def textPart (text : List Char) : List MessagePart :=
  if text = [] then [] else [.text (String.ofList text)]

/-- Read the mentions of a CQ text, and what is between them as text. -/
def parseRawMessageParts (platformAccount botUin : String) (remaining : List Char) :
    List MessagePart :=
  match _hstart : Text.splitOnceChars "[CQ:at,qq=".toList remaining with
  | none => textPart (stripReplyTokens remaining)
  | some (before, after) =>
    match _hend : Text.splitOnceChars [']'] after with
    | none => textPart before ++ textPart (stripReplyTokens remaining)
    | some (qq, rest) =>
      textPart before ++ mentionPart platformAccount botUin (String.ofList qq) ::
        parseRawMessageParts platformAccount botUin rest
termination_by remaining.length
decreasing_by
  have h₁ := Text.length_after_lt (by decide) _hstart
  have h₂ := Text.length_after_lt (by decide) _hend
  omega

def extractReplyFromRawMessage (rawMessage : String) : Option String := do
  let (_, after) ← Text.splitOnce "[CQ:reply,id=" rawMessage
  let (replyId, _) ← Text.splitOnce "]" after
  return replyId

def parseReplyTo (message : Option Value) (rawMessage : String) : Option String :=
  ((message.bind Value.asArray).getD []).findSome? (fun segment =>
    if (segment.get "type").bind Value.asStr = some "reply" then
      ((segment.get "data").bind fun data => data.get "id").bind stringValue
    else none) <|> extractReplyFromRawMessage rawMessage

def mentionedActor : MessagePart → Option String
  | .mention actorId _ => some actorId
  | _ => none

/-- The parts of a message: those of the array, or those of the CQ text if the array mentions
nobody and the CQ text is not empty. -/
def messageParts (payload : Value) (platformAccount botUin rawMessage : String) :
    List MessagePart :=
  let parts := parseMessageParts (payload.get "message") platformAccount botUin
  if parts.filterMap mentionedActor = [] then
    let fallbackParts := parseRawMessageParts platformAccount botUin rawMessage.toList
    if fallbackParts ≠ [] then fallbackParts else parts
  else parts

def decodeNapcatEvent (payload : Value) (platformAccount : String) : Option CanonicalEvent := do
  guard ((payload.get "post_type").bind Value.asStr = some "message")
  let messageType ← (payload.get "message_type").bind Value.asStr
  let userId ← (payload.get "user_id").bind stringValue
  let messageId ← (payload.get "message_id").bind stringValue
  let timestampEpochSecs := ((payload.get "time").bind Value.asI64).getD 0
  let botUin := (Text.stripPrefix "qq:bot_uin:" platformAccount).getD ""
  let rawMessage := ((payload.get "raw_message").bind Value.asStr).getD ""
  let parts := messageParts payload platformAccount botUin rawMessage
  let conversation ←
    if messageType = "group" then
      ((payload.get "group_id").bind stringValue).map ("qq:group:" ++ ·)
    else if messageType = "private" then some ("qq:private:" ++ userId)
    else none
  return {
    platform := "qq"
    platformAccount
    conversation
    actor := "qq:user:" ++ userId
    eventId := "qq:event:" ++ messageId
    timestampEpochSecs
    kind := .message
      { messageId, replyTo := parseReplyTo (payload.get "message") rawMessage, parts
        mentions := parts.filterMap mentionedActor, nativeMetadata := payload }
    rawNativePayload := payload }

/-- What is decoded of a message. -/
theorem decodeNapcatEvent_eq_some {payload : Value} {platformAccount : String}
    {event : CanonicalEvent} (h : decodeNapcatEvent payload platformAccount = some event) :
    ∃ message, event.kind = .message message ∧ event.platformAccount = platformAccount ∧
      message.parts = messageParts payload platformAccount
        ((Text.stripPrefix "qq:bot_uin:" platformAccount).getD "")
        (((payload.get "raw_message").bind Value.asStr).getD "") ∧
      message.mentions = message.parts.filterMap mentionedActor ∧
      (payload.get "message_type" = some (.string "group") →
        ∃ groupId, event.conversation = "qq:group:" ++ groupId) := by
  unfold decodeNapcatEvent at h
  obtain ⟨-, -, h⟩ := Option.bind_eq_some_iff.mp h
  obtain ⟨messageType, hmessageType, h⟩ := Option.bind_eq_some_iff.mp h
  obtain ⟨value, hvalue, htype⟩ := Option.bind_eq_some_iff.mp hmessageType
  obtain ⟨userId, -, h⟩ := Option.bind_eq_some_iff.mp h
  obtain ⟨messageId, -, hconv⟩ := Option.bind_eq_some_iff.mp h
  dsimp only at hconv
  have hgroup : payload.get "message_type" = some (.string "group") → messageType = "group" := by
    intro hg
    obtain rfl := Option.some.inj (hvalue.symm.trans hg)
    exact (Option.some.inj htype).symm
  split_ifs at hconv with hg hp
  · obtain ⟨conversation, hconv, he⟩ := Option.bind_eq_some_iff.mp hconv
    obtain ⟨groupId, -, rfl⟩ := Option.map_eq_some_iff.mp hconv
    obtain rfl := Option.some.inj he
    exact ⟨_, rfl, rfl, rfl, rfl, fun _ => ⟨groupId, rfl⟩⟩
  · obtain rfl := Option.some.inj hconv
    exact ⟨_, rfl, rfl, rfl, rfl, fun hm => absurd (hgroup hm) hg⟩
  · cases hconv

/-- The number that an id names, with or without a prefix. -/
def normalizeQqTargetId (value : String) : Except String String :=
  let normalized := (Text.stripPrefix "qq:user:" value <|>
    Text.stripPrefix "qq:bot_uin:" value).getD value
  if normalized = "" ∨ ¬ normalized.toList.all Char.isDigit then
    .error ("invalid QQ target id: " ++ value)
  else .ok normalized

def escapeCqText (value : String) : String :=
  Text.replace ']' "&#93;" (Text.replace '[' "&#91;" (Text.replace '&' "&amp;" value))

/-- Write a text: an at sign in front of five or more digits becomes a mention. `plain` is the text
that was read and not written yet. -/
def encodeQqTextFrom (plain : List Char) : List Char → String
  | [] => escapeCqText (String.ofList plain)
  | ch :: chars =>
    if ch ≠ '@' then encodeQqTextFrom (plain ++ [ch]) chars
    else
      let digits := chars.takeWhile Char.isDigit
      let rest := chars.dropWhile Char.isDigit
      if digits.length ≥ 5 then
        escapeCqText (String.ofList plain) ++ "[CQ:at,qq=" ++ String.ofList digits ++ "]" ++
          encodeQqTextFrom [] rest
      else encodeQqTextFrom (plain ++ ch :: digits) rest
termination_by chars => chars.length
decreasing_by
  · simp
  · exact Nat.lt_succ_of_le (List.length_dropWhile_le ..)
  · exact Nat.lt_succ_of_le (List.length_dropWhile_le ..)

def encodeQqText (value : String) : String := encodeQqTextFrom [] value.toList

def qqAssetReference (asset : AssetRef) : String :=
  match asset.source with
  | .workspacePath path => path
  | .managedStore value | .externalUrl value | .platformNativeHandle value
  | .bridgeHandle value => value

def compilePart : MessagePart → Except String String
  | .text text => .ok (encodeQqText text)
  | .mention actorId _ => do return "[CQ:at,qq=" ++ (← normalizeQqTargetId actorId) ++ "]"
  | .image asset => .ok ("[CQ:image,file=" ++ qqAssetReference asset ++ "]")
  | .file asset => .ok ("[CQ:file,file=" ++ qqAssetReference asset ++ "]")
  | .voice asset => .ok ("[CQ:record,file=" ++ qqAssetReference asset ++ "]")
  | .video asset => .ok ("[CQ:video,file=" ++ qqAssetReference asset ++ "]")
  | .sticker asset => .ok ("[CQ:image,file=" ++ qqAssetReference asset ++ "]")
  | .quote targetMessageId _ => do
    return "[CQ:reply,id=" ++ (← normalizeQqTargetId targetMessageId) ++ "]"

def compileParts : List MessagePart → Except String String
  | [] => .ok ""
  | part :: parts => do return (← compilePart part) ++ (← compileParts parts)

/-- The code of an id, if there is one, with what stands in front of the number and behind it. -/
def compileTarget (before after : String) : Option String → Except String String
  | none => .ok ""
  | some id => (normalizeQqTargetId id).map fun number => before ++ number ++ after

/-- The reply code and the mention in front of a message. -/
def compileHead (replyTo mentionUserId : Option String) : Except String String := do
  let reply ← compileTarget "[CQ:reply,id=" "]" replyTo
  let mention ← compileTarget "[CQ:at,qq=" "] " mentionUserId
  return reply ++ mention

def compileOutboundMessage (message : OutboundMessage) (replyTo mentionUserId : Option String) :
    Except String String := do
  return (← compileHead replyTo mentionUserId) ++ (← compileParts message.parts)

end DogBot.Qq
