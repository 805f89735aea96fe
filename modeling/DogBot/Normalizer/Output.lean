import DogBot.Normalizer.ActionBlock
import DogBot.Normalizer.Markdown

/-! # Agent output

The output of the agent is text with fenced action blocks. The text outside the
blocks is the body, which becomes the first message; the blocks add mentions and
a reply directive to it, further messages, and reactions.
-/

namespace DogBot

/-- What the loop over the blocks has collected. -/
structure Collected where
  body : List Char := []
  bodyReplyTo : Option String := none
  suppressBodyDefaultReply : Bool := false
  bodyMentions : List MentionSpec := []
  actions : List OutboundAction := []
  messages : List OutboundMessage := []
  deriving DecidableEq, Repr

def ActionItem.IsReaction (item : ActionItem) : Prop :=
  item.actionType = "reaction_add" ∨ item.actionType = "reaction_remove"

instance (item : ActionItem) : Decidable item.IsReaction := by
  unfold ActionItem.IsReaction
  infer_instance

/-- The action of a reaction item with a target and an emoji. -/
def ActionItem.reaction (item : ActionItem) : Option OutboundAction := do
  let targetMessageId ← item.targetMessageId.filter fun value => value ≠ ""
  let emoji ← item.emoji.filter fun value => value ≠ ""
  let action : ReactionAction := { targetMessageId, emoji }
  return if item.actionType = "reaction_add" then .reactionAdd action else .reactionRemove action

def appendActionItem (state : Collected) (item : ActionItem) : Collected :=
  if item.IsReaction then { state with actions := state.actions ++ item.reaction.toList }
  else { state with messages := state.messages ++ (mediaActionToMessage item).toList }

def appendActionItems (state : Collected) (items : List ActionItem) : Collected :=
  items.foldl appendActionItem state

/-- The reply directive of the body is that of the last envelope with one. -/
def Collected.applyEnvelope (state : Collected) (envelope : ActionEnvelope) : Collected :=
  let state := match parseReplyToDirective envelope.replyTo with
    | some (replyTo, suppressDefaultReply) =>
      { state with bodyReplyTo := replyTo, suppressBodyDefaultReply := suppressDefaultReply }
    | none => state
  appendActionItems { state with bodyMentions := state.bodyMentions ++ envelope.mentions }
    envelope.actions

def Collected.applyBlock (state : Collected) : Option ActionBlock → Collected
  | some (.envelope envelope) => state.applyEnvelope envelope
  | some (.single item) => appendActionItems state [item]
  | none => state

def actionMarker : List Char := "```dogbot-action".toList

def closingFence : List Char := "\n```".toList

/-- Collect the text and the blocks. A block without a closing fence ends the search, and the text
in front of it is taken again. -/
def collectBlocks (fromStr : String → Option Json.Value) (remaining : List Char)
    (state : Collected) : Collected :=
  match _hmarker : Text.splitOnceChars actionMarker remaining with
  | none => { state with body := state.body ++ remaining }
  | some (before, block) =>
    match _hfence : Text.splitOnceChars closingFence (block.dropWhile Text.isWhitespace) with
    | none => { state with body := state.body ++ before ++ remaining }
    | some (jsonBlock, rest) =>
      let parsed := (fromStr (Text.trim (String.ofList jsonBlock))).bind ActionBlock.decode
      collectBlocks fromStr rest ({ state with body := state.body ++ before }.applyBlock parsed)
termination_by remaining.length
decreasing_by
  have h₁ := Text.length_after_lt (by decide) _hmarker
  have h₂ := Text.length_after_lt (by decide) _hfence
  have h₃ := (List.dropWhile_suffix (l := block) Text.isWhitespace).length_le
  omega

/-- The body message is sent if it has a text or a mention, and before all others. -/
def Collected.plan (state : Collected) : OutboundPlan :=
  let body := degradeMarkdown (Text.trim (String.ofList state.body))
  let message : OutboundMessage :=
    { parts := state.bodyMentions.map (fun mention => .mention mention.actorId mention.display) ++
        if body ≠ "" then [.text body] else []
      replyTo := state.bodyReplyTo
      suppressDefaultReply := state.suppressBodyDefaultReply
      deliveryPolicy := none }
  { messages := if body ≠ "" ∨ state.bodyMentions ≠ [] then message :: state.messages
      else state.messages
    actions := state.actions
    deliveryReportPolicy := none }

/-- No output is an error: blocks that do not parse are skipped. -/
def normalizeAgentOutput (fromStr : String → Option Json.Value) (output : String) :
    Except String OutboundPlan :=
  let normalized := Text.replaceAll "\r\n" "\n" output
  .ok (collectBlocks fromStr normalized.toList {}).plan

section Collect

variable {fromStr : String → Option Json.Value} {remaining before block jsonBlock rest : List Char}

theorem collectBlocks_of_none (h : Text.splitOnceChars actionMarker remaining = none)
    (state : Collected) :
    collectBlocks fromStr remaining state = { state with body := state.body ++ remaining } := by
  unfold collectBlocks
  split
  · rfl
  · rename_i hs
    cases h.symm.trans hs

theorem collectBlocks_of_some
    (h : Text.splitOnceChars actionMarker remaining = some (before, block))
    (hfence : Text.splitOnceChars closingFence (block.dropWhile Text.isWhitespace) =
      some (jsonBlock, rest)) (state : Collected) :
    collectBlocks fromStr remaining state =
      collectBlocks fromStr rest ({ state with body := state.body ++ before }.applyBlock
        ((fromStr (Text.trim (String.ofList jsonBlock))).bind ActionBlock.decode)) := by
  conv_lhs => unfold collectBlocks
  split
  · rename_i hs
    cases h.symm.trans hs
  · rename_i hs
    obtain ⟨rfl, rfl⟩ := Text.found_unique h hs
    split
    · rename_i he
      cases hfence.symm.trans he
    · rename_i he
      obtain ⟨rfl, rfl⟩ := Text.found_unique hfence he
      rfl

def ActionItem.messages (item : ActionItem) : List OutboundMessage :=
  if item.IsReaction then [] else (mediaActionToMessage item).toList

def ActionItem.actions (item : ActionItem) : List OutboundAction :=
  if item.IsReaction then item.reaction.toList else []

theorem appendActionItem_eq (state : Collected) (item : ActionItem) :
    appendActionItem state item =
      { state with
        actions := state.actions ++ item.actions
        messages := state.messages ++ item.messages } := by
  unfold appendActionItem ActionItem.actions ActionItem.messages
  split_ifs <;> simp

theorem appendActionItems_eq (state : Collected) (items : List ActionItem) :
    appendActionItems state items =
      { state with
        actions := state.actions ++ items.flatMap ActionItem.actions
        messages := state.messages ++ items.flatMap ActionItem.messages } := by
  unfold appendActionItems
  induction items generalizing state with
  | nil => simp
  | cons item items ih =>
    rw [List.foldl_cons, ih, appendActionItem_eq]
    simp

/-- The directive of the body after some envelopes. -/
def bodyDirective (state : Collected) (envelopes : List ActionEnvelope) : Option String × Bool :=
  ((envelopes.filterMap fun envelope => parseReplyToDirective envelope.replyTo).getLast?).getD
    (state.bodyReplyTo, state.suppressBodyDefaultReply)

theorem bodyDirective_cons (state : Collected) (envelope : ActionEnvelope)
    (envelopes : List ActionEnvelope) :
    bodyDirective state (envelope :: envelopes) =
      bodyDirective (state.applyEnvelope envelope) envelopes := by
  unfold bodyDirective Collected.applyEnvelope
  rw [appendActionItems_eq, List.filterMap_cons]
  cases parseReplyToDirective envelope.replyTo with
  | none => rfl
  | some directive => simp [List.getLast?_cons]

theorem applyEnvelope_eq (state : Collected) (envelope : ActionEnvelope) :
    state.applyEnvelope envelope =
      { body := state.body
        bodyReplyTo := (bodyDirective state [envelope]).1
        suppressBodyDefaultReply := (bodyDirective state [envelope]).2
        bodyMentions := state.bodyMentions ++ envelope.mentions
        actions := state.actions ++ envelope.actions.flatMap ActionItem.actions
        messages := state.messages ++ envelope.actions.flatMap ActionItem.messages } := by
  unfold bodyDirective Collected.applyEnvelope
  rw [appendActionItems_eq, List.filterMap_cons]
  cases parseReplyToDirective envelope.replyTo with
  | none => rfl
  | some directive => rfl

theorem foldl_applyEnvelope (state : Collected) (envelopes : List ActionEnvelope) :
    envelopes.foldl Collected.applyEnvelope state =
      { body := state.body
        bodyReplyTo := (bodyDirective state envelopes).1
        suppressBodyDefaultReply := (bodyDirective state envelopes).2
        bodyMentions := state.bodyMentions ++ envelopes.flatMap ActionEnvelope.mentions
        actions := state.actions ++
          (envelopes.flatMap ActionEnvelope.actions).flatMap ActionItem.actions
        messages := state.messages ++
          (envelopes.flatMap ActionEnvelope.actions).flatMap ActionItem.messages } := by
  induction envelopes generalizing state with
  | nil => simp [bodyDirective]
  | cons envelope envelopes ih =>
    rw [List.foldl_cons, ih, ← bodyDirective_cons, applyEnvelope_eq]
    simp

end Collect

end DogBot
