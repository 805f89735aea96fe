import DogBot.Pipeline
import DogBot.Protocol

/-! # Run requests

A run request names a conversation on a platform account and the prompt of a
turn. Its working directory must be one of two approved roots; validation
renders the prompts that are handed to Claude.
-/

namespace DogBot

structure RunRequest where
  platform : String
  platformAccountId : String
  conversationId : String
  sessionId : String
  userId : String
  chatType : String
  cwd : String
  prompt : String
  triggerSummary : Option String
  triggerMessageId : Option String
  triggerReplyToMessageId : Option String
  mentionRefs : List MentionRef
  replyExcerpt : Option String
  timeoutSecs : Option ℕ
  deriving DecidableEq, Repr

structure ValidatedRunRequest where
  cwd : String
  prompt : String
  systemPrompt : String
  deriving DecidableEq, Repr

structure RunResponse where
  status : String
  stdout : String
  stderr : String
  exitCode : ℤ
  timedOut : Bool
  durationMs : ℕ
  deriving DecidableEq, Repr

structure ErrorResponse where
  status : String
  errorCode : String
  message : String
  timedOut : Bool
  deriving DecidableEq, Repr

structure MessageResponse where
  status : String
  messageId : Option String
  deriving DecidableEq, Repr

def normalizedOptionalText (value : Option String) : Option String :=
  value.bind fun text => if Text.trim text = "" then none else some (Text.trim text)

namespace RunRequest

def ALLOWED_PREFIXES : List String := ["/workspace", "/state"]

def validateCwd (cwd : String) : Except String String :=
  if cwd = "" then .error "cwd must be provided"
  else if ¬ Text.startsWith "/" cwd then .error ("cwd " ++ cwd ++ " must be absolute")
  else if cwd ∈ ALLOWED_PREFIXES then .ok cwd
  else .error ("cwd " ++ cwd ++ " is not an approved root; allowed values are " ++
    ", ".intercalate ALLOWED_PREFIXES)

def validate (request : RunRequest) : Except String ValidatedRunRequest := do
  let cwd ← validateCwd request.cwd
  let systemPrompt := SystemPromptContext.render
    { platform := request.platform, platformAccount := request.platformAccountId }
  let context : TurnPromptContext :=
    { conversation := request.conversationId
      actor := request.userId
      triggerMessageId := normalizedOptionalText request.triggerMessageId
      triggerReplyToMessageId := normalizedOptionalText request.triggerReplyToMessageId
      triggerSummary :=
        (normalizedOptionalText request.triggerSummary).getD (Text.trim request.prompt)
      mentionRefs := request.mentionRefs
      replyExcerpt := normalizedOptionalText request.replyExcerpt }
  return { cwd, prompt := context.renderWithUserPrompt request.prompt, systemPrompt }

end RunRequest

end DogBot
