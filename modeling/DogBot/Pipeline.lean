import DogBot.Library.Json

/-! # Prompt contexts

The system prompt names the platform of a run, and the turn prompt carries its
context as JSON before the text of the user.
-/

namespace DogBot

structure MentionRef where
  refId : String
  actorId : String
  display : String
  deriving DecidableEq, Repr

structure SystemPromptContext where
  platform : String
  platformAccount : String

def SystemPromptContext.render (context : SystemPromptContext) : String :=
  "Current platform: " ++ context.platform ++ "\n" ++
  "Current platform account: " ++ context.platformAccount ++ "\n\n" ++
  "Before replying, read and follow /state/claude-prompt/CLAUDE.md to initialize the conversation.\n" ++
  "Before composing any DogBot reply body or dogbot-action block, MUST read and follow /state/claude-prompt/skills/reply-format/SKILL.md.\n" ++
  "Reply using plain text plus optional ```dogbot-action``` JSON blocks only.\n" ++
  "Do not use Markdown in outbound social-platform messages.\n" ++
  "Do not emit QQ, WeChat, or other platform-private syntax directly.\n" ++
  "When sending media, only reference files that already exist under /workspace."

structure TurnPromptContext where
  conversation : String
  actor : String
  triggerMessageId : Option String
  triggerReplyToMessageId : Option String
  triggerSummary : String
  mentionRefs : List MentionRef
  replyExcerpt : Option String

def optionalText : Option String → Json.Value
  | some text => .string text
  | none => .null

/-- Members are printed in the order of their keys. -/
def MentionRef.toJson (ref : MentionRef) : Json.Value :=
  .object [("actor_id", .string ref.actorId), ("display", .string ref.display),
    ("ref_id", .string ref.refId)]

namespace TurnPromptContext

def toJson (context : TurnPromptContext) : Json.Value :=
  .object [("actor", .string context.actor),
    ("conversation", .string context.conversation),
    ("mention_refs", .array (context.mentionRefs.map MentionRef.toJson)),
    ("reply_excerpt", optionalText context.replyExcerpt),
    ("trigger_message_id", optionalText context.triggerMessageId),
    ("trigger_reply_to_message_id", optionalText context.triggerReplyToMessageId),
    ("trigger_summary", .string context.triggerSummary)]

def render (context : TurnPromptContext) : String :=
  "Turn context (JSON):\n" ++ context.toJson.print

def renderWithUserPrompt (context : TurnPromptContext) (userPrompt : String) : String :=
  context.render ++ "\n\nUser prompt:\n" ++ Text.trim userPrompt

end TurnPromptContext

end DogBot
