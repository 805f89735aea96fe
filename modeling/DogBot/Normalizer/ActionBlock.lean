import DogBot.Library.Serde
import DogBot.Normalizer

/-! # Action blocks

A block is an envelope of mentions and action items or a single item. The
envelope is tried first, and both deny fields that they do not know.
-/

namespace DogBot
open Json

structure MentionSpec where
  actorId : String
  display : String
  deriving DecidableEq, Repr

structure ActionEnvelope where
  replyTo : ReplyToDirective := .missing
  mentions : List MentionSpec := []
  actions : List ActionItem := []
  deriving DecidableEq, Repr

inductive ActionBlock
  | envelope (envelope : ActionEnvelope)
  | single (item : ActionItem)
  deriving DecidableEq, Repr

def ReplyToDirective.decode : Option Value → Option ReplyToDirective
  | none => some .missing
  | some .null => some .null
  | some (.string text) => some (.value text)
  | some _ => none

def MentionSpec.decode (v : Value) : Option MentionSpec := do
  let field ← Serde.structFields ["actor_id", "display"] 2 v
  let actorId ← Serde.text (field "actor_id")
  let display ← Serde.text (field "display")
  return { actorId, display }

def ActionItem.decode (v : Value) : Option ActionItem := do
  let field ← Serde.structFields ["type", "target_message_id", "emoji", "reply_to", "source_type",
    "source_value", "caption_text"] 7 v
  let actionType ← Serde.text (field "type")
  let targetMessageId ← Serde.optionalText (field "target_message_id")
  let emoji ← Serde.optionalText (field "emoji")
  let replyTo ← ReplyToDirective.decode (field "reply_to")
  let sourceType ← Serde.optionalText (field "source_type")
  let sourceValue ← Serde.optionalText (field "source_value")
  let captionText ← Serde.optionalText (field "caption_text")
  return { actionType, targetMessageId, emoji, replyTo, sourceType, sourceValue, captionText }

def ActionEnvelope.decode (v : Value) : Option ActionEnvelope := do
  let field ← Serde.structFields ["reply_to", "mentions", "actions"] 0 v
  let replyTo ← ReplyToDirective.decode (field "reply_to")
  let mentions ← Serde.listOrEmpty MentionSpec.decode (field "mentions")
  let actions ← Serde.listOrEmpty ActionItem.decode (field "actions")
  return { replyTo, mentions, actions }

def ActionBlock.decode (v : Value) : Option ActionBlock :=
  (ActionEnvelope.decode v).map .envelope <|> (ActionItem.decode v).map .single

end DogBot
