import DogBot.Models
import DogBot.Platforms.Common

/-! # Run requests

A canonical message event is turned into the run request of a turn. Mentions of
other users are numbered in the summary that the prompt carries. The identifiers
of a request to `/v1/runs` are normalized before it is executed.
-/

namespace DogBot

/-- Add one part to the summary. A mention of the bot itself is shown without a marker. -/
def renderTriggerPart (platformAccount : String) (rendered : String × List MentionRef) :
    MessagePart → String × List MentionRef
  | .text text => (rendered.1 ++ text, rendered.2)
  | .mention actorId display =>
    if actorId = platformAccount then (rendered.1 ++ display, rendered.2)
    else
      let refId := "m" ++ toString (rendered.2.length + 1)
      (rendered.1 ++ display ++ "[#" ++ refId ++ "]", rendered.2 ++ [{ refId, actorId, display }])
  | _ => rendered

def renderTriggerSummaryWithRefs (message : CanonicalMessage) (platformAccount : String) :
    String × List MentionRef :=
  let (summary, mentionRefs) := message.parts.foldl (renderTriggerPart platformAccount) ("", [])
  if Text.trim summary = "" then (Text.trim message.projectPlainText, mentionRefs)
  else (Text.trim summary, mentionRefs)

def buildRunRequestFromEvent (event : CanonicalEvent) : Option RunRequest :=
  event.message.map fun message =>
    let (triggerSummary, mentionRefs) := renderTriggerSummaryWithRefs message event.platformAccount
    { platform := event.platform
      platformAccountId := event.platformAccount
      conversationId := event.conversation
      sessionId := event.conversation
      userId := event.actor
      chatType := match conversationScope event.conversation with
        | some "private" => "private"
        | some "group" => "group"
        | _ => "unknown"
      cwd := "/workspace"
      prompt := Text.trim message.projectPlainText
      triggerSummary := some triggerSummary
      triggerMessageId := some message.messageId
      triggerReplyToMessageId := message.replyTo
      mentionRefs
      replyExcerpt := none
      timeoutSecs := none }

def normalizeContextIdentifier (value fieldName : String) : Except String String :=
  let normalized := Text.trim value
  if normalized = "" then .error (fieldName ++ " must be non-empty")
  -- The character 0x60 is the backtick.
  else if normalized.toList.any fun ch => Text.isControl ch || ch.toNat == 0x60 then
    .error (fieldName ++ " contains unsupported control characters or backticks")
  else .ok normalized

theorem normalizeContextIdentifier_ok {value fieldName normalized : String}
    (h : normalizeContextIdentifier value fieldName = .ok normalized) :
    normalized = Text.trim value := by
  unfold normalizeContextIdentifier at h
  dsimp only at h
  split_ifs at h
  exact (Except.ok.inj h).symm

theorem isControl_of_normalizeContextIdentifier {value fieldName normalized : String}
    (h : normalizeContextIdentifier value fieldName = .ok normalized) {c : Char}
    (hc : c ∈ normalized.toList) : Text.isControl c = false := by
  unfold normalizeContextIdentifier at h
  dsimp only at h
  split_ifs at h with hempty hcontrol
  obtain rfl := Except.ok.inj h
  rw [Bool.not_eq_true, List.any_eq_false] at hcontrol
  have hnot := hcontrol c hc
  rw [Bool.or_eq_true, not_or] at hnot
  exact Bool.eq_false_iff.mpr hnot.1

end DogBot
