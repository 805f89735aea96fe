import DogBot.Library.Json

/-! # The platform protocol

Platform payloads are decoded into canonical events, and agent output is
normalized into outbound plans. Both carry message parts, and media parts
refer to assets.
-/

namespace DogBot

inductive AssetSource
  | workspacePath (path : String)
  | managedStore (value : String)
  | externalUrl (value : String)
  | platformNativeHandle (value : String)
  | bridgeHandle (value : String)
  deriving DecidableEq, Repr

structure AssetRef where
  assetId : String
  kind : String
  mime : String
  sizeBytes : ℕ
  source : AssetSource
  deriving DecidableEq, Repr

inductive MessagePart
  | text (text : String)
  | mention (actorId display : String)
  | image (asset : AssetRef)
  | file (asset : AssetRef)
  | voice (asset : AssetRef)
  | video (asset : AssetRef)
  | sticker (asset : AssetRef)
  | quote (targetMessageId excerpt : String)
  deriving DecidableEq, Repr

structure CanonicalMessage where
  messageId : String
  replyTo : Option String
  parts : List MessagePart
  mentions : List String
  nativeMetadata : Json.Value

/-- The texts of the text and mention parts, without separators. -/
def CanonicalMessage.projectPlainText (message : CanonicalMessage) : String :=
  "".intercalate (message.parts.filterMap fun
    | .text text => some text
    | .mention _ display => some display
    | _ => none)

inductive EventKind
  | message (message : CanonicalMessage)
  | reactionAdded (targetMessageId emoji : String)
  | reactionRemoved (targetMessageId emoji : String)

structure CanonicalEvent where
  platform : String
  platformAccount : String
  conversation : String
  actor : String
  eventId : String
  timestampEpochSecs : ℤ
  kind : EventKind
  rawNativePayload : Json.Value

def CanonicalEvent.message (event : CanonicalEvent) : Option CanonicalMessage :=
  match event.kind with
  | .message message => some message
  | _ => none

structure ReactionAction where
  targetMessageId : String
  emoji : String
  deriving DecidableEq, Repr

structure OutboundMessage where
  parts : List MessagePart
  replyTo : Option String
  suppressDefaultReply : Bool
  deliveryPolicy : Option String
  deriving DecidableEq, Repr

/-- The message that a message answers: its own, or the default one unless it was cleared. -/
def OutboundMessage.effectiveReplyTo (message : OutboundMessage) (defaultReplyTo : Option String) :
    Option String :=
  message.replyTo <|> if message.suppressDefaultReply then none else defaultReplyTo

inductive OutboundAction
  | reactionAdd (action : ReactionAction)
  | reactionRemove (action : ReactionAction)
  deriving DecidableEq, Repr

structure OutboundPlan where
  messages : List OutboundMessage
  actions : List OutboundAction
  deliveryReportPolicy : Option String
  deriving DecidableEq, Repr

end DogBot
