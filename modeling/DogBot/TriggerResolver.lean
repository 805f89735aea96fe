import DogBot.Platforms.Common

/-! # Triggers

A message in a private conversation triggers a run unless it is blank, and a
message in a group triggers one if it mentions the bot.
-/

namespace DogBot

inductive TriggerDecision | run | status | ignore
  deriving DecidableEq, Repr

/-- The text of the parts; mentions of the bot and blank texts are dropped while they lead. -/
def projectTrigger (platformAccount : String) (skippingLeadingBotMentions : Bool) :
    List MessagePart → String
  | [] => ""
  | part :: parts =>
    match part with
    | .mention actorId display =>
      if skippingLeadingBotMentions ∧ actorId = platformAccount then
        projectTrigger platformAccount skippingLeadingBotMentions parts
      else display ++ projectTrigger platformAccount false parts
    | .text text =>
      if skippingLeadingBotMentions ∧ Text.trim text = "" then
        projectTrigger platformAccount skippingLeadingBotMentions parts
      else text ++ projectTrigger platformAccount false parts
    | _ => projectTrigger platformAccount false parts

def canonicalTriggerText (message : CanonicalMessage) (platformAccount : String) : String :=
  let projected := projectTrigger platformAccount true message.parts
  if Text.trim projected = "" then Text.trim message.projectPlainText else Text.trim projected

def resolve (event : CanonicalEvent) : TriggerDecision :=
  match event.kind with
  | .message message =>
    let normalized := canonicalTriggerText message event.platformAccount
    match conversationScope event.conversation with
    | some "private" =>
      if normalized = "" then .ignore
      else if normalized = "/agent-status" then .status
      else .run
    | some "group" =>
      if ¬ message.mentions.any (· = event.platformAccount) then .ignore
      else if normalized = "/agent-status" then .status
      else .run
    | _ => .ignore
  | _ => .ignore

def shouldTriggerRun (event : CanonicalEvent) : Bool :=
  resolve event = .run ∨ resolve event = .status

theorem shouldTriggerRun_group_iff {event : CanonicalEvent} {message : CanonicalMessage}
    (hkind : event.kind = .message message)
    (hscope : conversationScope event.conversation = some "group") :
    shouldTriggerRun event = true ↔ event.platformAccount ∈ message.mentions := by
  have hany : message.mentions.any (· = event.platformAccount) = true ↔
      event.platformAccount ∈ message.mentions := by simp
  simp only [shouldTriggerRun, resolve, hkind, hscope, decide_eq_true_eq, ← hany]
  split_ifs with hmention hstatus
  · simp [hmention]
  · simp at hmention
    simp [hmention]
  · simp at hmention
    simp [hmention]

end DogBot
