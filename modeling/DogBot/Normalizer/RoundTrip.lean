import DogBot.Normalizer.Output
import Mathlib.Data.List.Forall2

/-! # Action blocks are read back

A body followed by fenced envelopes is normalized to the plan that the body
and the envelopes describe: the text and the mentions come first, then the
media items and the reactions, all in the order of the document.
-/

namespace DogBot
open Json

section Encoding

def ReplyToDirective.toJson : ReplyToDirective → Option Value
  | .missing => none
  | .null => some .null
  | .value text => some (.string text)

def MentionSpec.toJson (mention : MentionSpec) : Value :=
  .ofFields [("actor_id", some (.string mention.actorId)),
    ("display", some (.string mention.display))]

def ActionItem.toJson (item : ActionItem) : Value :=
  .ofFields [("type", some (.string item.actionType)),
    ("target_message_id", item.targetMessageId.map .string), ("emoji", item.emoji.map .string),
    ("reply_to", item.replyTo.toJson), ("source_type", item.sourceType.map .string),
    ("source_value", item.sourceValue.map .string),
    ("caption_text", item.captionText.map .string)]

/-- The JSON of an envelope, without the fields that are absent. -/
def ActionEnvelope.toJson (envelope : ActionEnvelope) : Value :=
  .ofFields [("reply_to", envelope.replyTo.toJson),
    ("mentions", some (.array (envelope.mentions.map MentionSpec.toJson))),
    ("actions", some (.array (envelope.actions.map ActionItem.toJson)))]

@[simp] theorem ReplyToDirective.decode_toJson (directive : ReplyToDirective) :
    decode directive.toJson = some directive := by
  cases directive <;> rfl

theorem MentionSpec.decode_toJson (mention : MentionSpec) :
    decode mention.toJson = some mention := by
  unfold decode toJson
  rw [Serde.structFields_ofFields]
  · rfl
  · rfl
  · decide

theorem ActionItem.decode_toJson (item : ActionItem) : decode item.toJson = some item := by
  unfold decode toJson
  rw [Serde.structFields_ofFields]
  · simp [List.lookup_cons]
  · rfl
  · decide

theorem ActionEnvelope.decode_toJson (envelope : ActionEnvelope) :
    decode envelope.toJson = some envelope := by
  have hmentions := Serde.listOrEmpty_map fun mention (_ : mention ∈ envelope.mentions) =>
    mention.decode_toJson
  have hactions := Serde.listOrEmpty_map fun item (_ : item ∈ envelope.actions) =>
    item.decode_toJson
  unfold decode toJson
  rw [Serde.structFields_ofFields]
  · simp [List.lookup_cons, hmentions, hactions]
  · rfl
  · decide

theorem ActionBlock.decode_toJson (envelope : ActionEnvelope) :
    decode envelope.toJson = some (.envelope envelope) := by
  rw [decode, envelope.decode_toJson]
  rfl

theorem ReplyToDirective.oneLine_toJson (directive : ReplyToDirective) :
    ∀ v, directive.toJson = some v → Value.OneLine v.print := by
  intro v hv
  cases directive with
  | missing => cases hv
  | null =>
    cases hv
    simp [Value.print, Value.OneLine]
  | value text =>
    cases hv
    exact Value.oneLine_printString text

theorem oneLine_map_string (s : Option String) :
    ∀ v, s.map Value.string = some v → Value.OneLine v.print := by
  intro v hv
  obtain ⟨text, -, rfl⟩ := Option.map_eq_some_iff.mp hv
  exact Value.oneLine_printString text

theorem MentionSpec.oneLine_toJson (mention : MentionSpec) :
    Value.OneLine mention.toJson.print := by
  apply Value.oneLine_ofFields
  simp [Value.print, Value.oneLine_printString]

theorem ActionItem.oneLine_toJson (item : ActionItem) : Value.OneLine item.toJson.print := by
  apply Value.oneLine_ofFields
  simp only [List.forall_mem_cons, List.not_mem_nil, false_implies, implies_true, and_true]
  exact ⟨oneLine_map_string (some item.actionType), oneLine_map_string _, oneLine_map_string _,
    item.replyTo.oneLine_toJson, oneLine_map_string _, oneLine_map_string _, oneLine_map_string _⟩

theorem ActionEnvelope.oneLine_toJson (envelope : ActionEnvelope) :
    Value.OneLine envelope.toJson.print := by
  have hmentions : Value.OneLine (Value.array (envelope.mentions.map MentionSpec.toJson)).print :=
    Value.oneLine_array (List.forall_mem_map.mpr fun mention _ => mention.oneLine_toJson)
  have hactions : Value.OneLine (Value.array (envelope.actions.map ActionItem.toJson)).print :=
    Value.oneLine_array (List.forall_mem_map.mpr fun item _ => item.oneLine_toJson)
  apply Value.oneLine_ofFields
  simp only [List.forall_mem_cons, List.not_mem_nil, false_implies, implies_true, and_true,
    Option.some.injEq, forall_eq']
  exact ⟨envelope.replyTo.oneLine_toJson, hmentions, hactions⟩

end Encoding

section Render

variable {fromStr : String → Option Value} {body : String} {blocks : List (ActionEnvelope × Bool)}

/-- A block behind a newline; it says whether a newline follows its closing fence. -/
def renderBlock (block : ActionEnvelope × Bool) : String :=
  "\n```dogbot-action\n" ++ block.1.toJson.print ++ "\n```" ++ if block.2 then "\n" else ""

/-- The output of an agent that writes a body and then its blocks. -/
def render (body : String) (blocks : List (ActionEnvelope × Bool)) : String :=
  body ++ "".intercalate (blocks.map renderBlock)

/-- What follows the closing fence of a block. -/
def gap (block : ActionEnvelope × Bool) : List Char := if block.2 then ['\n'] else []

theorem toList_renderBlock (block : ActionEnvelope × Bool) :
    (renderBlock block).toList =
      '\n' :: (actionMarker ++
        '\n' :: (block.1.toJson.print.toList ++ closingFence ++ gap block)) := by
  have hopen : "\n```dogbot-action\n".toList = '\n' :: (actionMarker ++ ['\n']) := by decide
  have hgap : (if block.2 then "\n" else "").toList = gap block := by
    unfold gap
    split_ifs <;> rfl
  have hclose : "\n```".toList = closingFence := rfl
  unfold renderBlock
  -- The text of the envelope is not to be evaluated.
  generalize block.1.toJson.print = json
  rw [String.toList_append, String.toList_append, String.toList_append, hopen, hclose, hgap]
  simp only [List.cons_append, List.append_assoc, List.nil_append]

theorem toList_render (body : String) (blocks : List (ActionEnvelope × Bool)) :
    (render body blocks).toList =
      body.toList ++ blocks.flatMap fun block => (renderBlock block).toList := by
  rw [render, String.toList_append, Text.toList_intercalate_empty, List.flatMap_map]

theorem not_mem_renderBlock (block : ActionEnvelope × Bool) :
    '\r' ∉ (renderBlock block).toList := by
  have hjson : '\r' ∉ block.1.toJson.print.toList := fun h =>
    (block.1.oneLine_toJson _ h).2 rfl
  have hmarker : '\r' ∉ actionMarker := by decide
  have hfence : '\r' ∉ closingFence := by decide
  have hgap : '\r' ∉ gap block := by
    unfold gap
    split_ifs <;> decide
  rw [toList_renderBlock]
  simp [hjson, hmarker, hfence, hgap]

theorem unixChars_render (body : String) (blocks : List (ActionEnvelope × Bool)) : ∃ pre,
    (Text.unixChars body.toList = pre ∨ Text.unixChars body.toList = pre ++ ['\r']) ∧
      Text.unixChars (render body blocks).toList =
        pre ++ blocks.flatMap fun block => (renderBlock block).toList := by
  cases blocks with
  | nil => exact ⟨_, .inl rfl, by simp [toList_render]⟩
  | cons block blocks =>
    obtain ⟨pre, hpre, happend⟩ := Text.unixChars_append_newline body.toList
    have hself : ∀ l : List (ActionEnvelope × Bool),
        '\r' ∉ l.flatMap fun block => (renderBlock block).toList := fun l h => by
      obtain ⟨b, -, hb⟩ := List.mem_flatMap.mp h
      exact not_mem_renderBlock b hb
    refine ⟨pre, hpre, ?_⟩
    have hr := hself (block :: blocks)
    rw [toList_render]
    rw [List.flatMap_cons, toList_renderBlock, List.cons_append] at hr ⊢
    rw [happend, Text.unixChars_eq_self fun h => hr (List.mem_cons_of_mem _ h)]

theorem actionMarker_not_infix_gap (block : ActionEnvelope × Bool) :
    ¬ actionMarker <:+: gap block := by
  unfold gap
  split_ifs <;> decide

theorem isWhitespace_gap (block : ActionEnvelope × Bool) :
    ∀ c ∈ gap block, Text.isWhitespace c = true := by
  unfold gap
  split_ifs <;> simp [Text.isWhitespace]

theorem splitOnceChars_toJson (envelope : ActionEnvelope) (rest : List Char) :
    Text.splitOnceChars closingFence (List.dropWhile Text.isWhitespace
      ('\n' :: (envelope.toJson.print.toList ++ closingFence ++ rest))) =
      some (envelope.toJson.print.toList, rest) := by
  have hjson : '\n' ∉ envelope.toJson.print.toList := fun h => (envelope.oneLine_toJson _ h).1 rfl
  rw [List.dropWhile_cons_of_pos (by decide), List.append_assoc]
  unfold ActionEnvelope.toJson Value.ofFields
  rw [Value.dropWhile_print_object, ← List.append_assoc]
  exact Text.splitOnceChars_append hjson

theorem decode_print {envelope : ActionEnvelope}
    (hparse : fromStr envelope.toJson.print = some envelope.toJson) :
    (fromStr (Text.trim (String.ofList envelope.toJson.print.toList))).bind ActionBlock.decode =
      some (.envelope envelope) := by
  have htrim : Text.trim envelope.toJson.print = envelope.toJson.print :=
    Value.trim_print_object _
  rw [String.ofList_toList, htrim, hparse, Option.bind_some, ActionBlock.decode_toJson]

theorem collectBlocks_block {pre rest : List Char} {block : ActionEnvelope × Bool}
    (hpre : ¬ actionMarker <:+: pre)
    (hparse : fromStr block.1.toJson.print = some block.1.toJson) (state : Collected) :
    collectBlocks fromStr (pre ++ ((renderBlock block).toList ++ rest)) state =
      collectBlocks fromStr (gap block ++ rest)
        ({ state with body := state.body ++ (pre ++ ['\n']) }.applyEnvelope block.1) := by
  have hmarker : Text.splitOnceChars actionMarker
      (pre ++ '\n' :: (actionMarker ++ '\n' :: (block.1.toJson.print.toList ++ closingFence ++
        (gap block ++ rest)))) =
      some (pre ++ ['\n'], '\n' :: (block.1.toJson.print.toList ++ closingFence ++
        (gap block ++ rest))) := by
    rw [Text.splitOnceChars_append_cons hpre (by decide), Text.splitOnceChars_prefix (by decide)]
    rfl
  have hfence := splitOnceChars_toJson block.1 (gap block ++ rest)
  have hsplit := @collectBlocks_of_some fromStr _ _ _ _ _ hmarker hfence state
  rw [decode_print hparse] at hsplit
  rw [toList_renderBlock]
  simpa only [List.cons_append, List.append_assoc, Collected.applyBlock] using hsplit

/-- From a text without a marker on, all blocks are found. Only white space is left of them. -/
theorem collectBlocks_blocks {pre : List Char} (hpre : ¬ actionMarker <:+: pre)
    (hparse : ∀ block ∈ blocks, fromStr block.1.toJson.print = some block.1.toJson)
    (state : Collected) : ∃ w, (∀ c ∈ w, Text.isWhitespace c = true) ∧
      collectBlocks fromStr (pre ++ blocks.flatMap fun block => (renderBlock block).toList) state =
        (blocks.map Prod.fst).foldl Collected.applyEnvelope
          { state with body := state.body ++ (pre ++ w) } := by
  induction blocks generalizing pre state with
  | nil =>
    have hnone : Text.splitOnceChars actionMarker pre = none :=
      (Text.splitOnceChars_eq_none_iff (by decide)).mpr hpre
    exact ⟨[], by simp, by simp [collectBlocks_of_none hnone]⟩
  | cons block blocks ih =>
    obtain ⟨hblock, hblocks⟩ := List.forall_mem_cons.mp hparse
    have hstep := @collectBlocks_block fromStr pre
      (blocks.flatMap fun block => (renderBlock block).toList) block hpre hblock state
    obtain ⟨w, hw, hrun⟩ := ih (actionMarker_not_infix_gap block) hblocks
      ({ state with body := state.body ++ (pre ++ ['\n']) }.applyEnvelope block.1)
    refine ⟨'\n' :: (gap block ++ w), ?_, ?_⟩
    · have hgap := isWhitespace_gap block
      intro c hc
      simp only [List.mem_cons, List.mem_append] at hc
      obtain rfl | hc | hc := hc
      · rfl
      · exact hgap c hc
      · exact hw c hc
    · rw [List.flatMap_cons, hstep, hrun, List.map_cons, List.foldl_cons, applyEnvelope_eq,
        applyEnvelope_eq]
      simp [bodyDirective]

end Render

section Plan

variable {fromStr : String → Option Value} {body : String} {blocks : List (ActionEnvelope × Bool)}
  {envelopes : List ActionEnvelope} {item : ActionItem} {items : List ActionItem}

/-- What an item of a media type sends: the kind and the MIME type of its asset, and the part. -/
inductive SendsAs : String → String → String → (AssetRef → MessagePart) → Prop
  | image : SendsAs "send_image" "image" "image/*" .image
  | file : SendsAs "send_file" "file" "application/octet-stream" .file
  | voice : SendsAs "send_voice" "voice" "audio/*" .voice
  | video : SendsAs "send_video" "video" "video/*" .video
  | sticker : SendsAs "send_sticker" "sticker" "application/x-sticker" .sticker

/-- Where an item of a source type has its asset. -/
inductive ReadsFrom : String → (String → AssetSource) → Prop
  | workspacePath : ReadsFrom "workspace_path" .workspacePath
  | storedAsset : ReadsFrom "stored_asset" .managedStore
  | remoteUrl : ReadsFrom "remote_url" .externalUrl
  | platformNativeHandle : ReadsFrom "platform_native_handle" .platformNativeHandle
  | bridgeHandle : ReadsFrom "bridge_handle" .bridgeHandle

def ActionItem.WellFormed (item : ActionItem) : Prop :=
  if item.IsReaction then
    (∃ target, item.targetMessageId = some target ∧ target ≠ "") ∧
      ∃ emoji, item.emoji = some emoji ∧ emoji ≠ ""
  else
    (∃ kind mime part, SendsAs item.actionType kind mime part) ∧
      (∃ sourceType source, item.sourceType = some sourceType ∧ ReadsFrom sourceType source) ∧
      ∃ value, item.sourceValue = some value

structure ActionEnvelope.WellFormed (envelope : ActionEnvelope) : Prop where
  replyTo_ne : ∀ text, envelope.replyTo = .value text → Text.trim text ≠ ""
  items : ∀ item ∈ envelope.actions, item.WellFormed

/-- What a directive asks for, if it is present: a message to answer, or no default reply. -/
def ReplyToDirective.given (reply : String → String) :
    ReplyToDirective → Option (Option String × Bool)
  | .missing => none
  | .null => some (none, true)
  | .value text => some (some (reply text), false)

def lastGiven (reply : String → String) (envelopes : List ActionEnvelope) : Option String × Bool :=
  ((envelopes.filterMap fun envelope => envelope.replyTo.given reply).getLast?).getD (none, false)

/-- The message of the body, unless there is nothing to say. -/
def bodyMessages (reply : String → String) (text : String) (envelopes : List ActionEnvelope) :
    List OutboundMessage :=
  let mentions := envelopes.flatMap ActionEnvelope.mentions
  if text = "" ∧ mentions = [] then []
  else [{
    parts := mentions.map (fun mention => .mention mention.actorId mention.display) ++
      if text = "" then [] else [.text text]
    replyTo := (lastGiven reply envelopes).1
    suppressDefaultReply := (lastGiven reply envelopes).2
    deliveryPolicy := none }]

def ActionItem.expectedAction (item : ActionItem) : OutboundAction :=
  let action : ReactionAction :=
    { targetMessageId := item.targetMessageId.getD "", emoji := item.emoji.getD "" }
  if item.actionType = "reaction_add" then .reactionAdd action else .reactionRemove action

/-- The text that stands behind the media of an item, if there is any. -/
def ActionItem.expectedCaption (item : ActionItem) : List MessagePart :=
  match item.captionText with
  | none => []
  | some caption => if Text.trim caption = "" then [] else [.text (Text.trim caption)]

/-- The message that a media item replies to, and whether it clears the default one. -/
def ActionItem.expectedReply (reply : String → String) (item : ActionItem) : Option String × Bool :=
  match item.replyTo with
  | .missing => (none, false)
  | .null => (none, true)
  | .value text => (if Text.trim text = "" then none else some (reply text), false)

/-- The message of a media item: its asset, then its caption, with its own reply. -/
inductive ActionItem.Sends (reply : String → String) (item : ActionItem) : OutboundMessage → Prop
  | message {kind mime sourceType value : String} {part : AssetRef → MessagePart}
      {source : String → AssetSource} (sends : SendsAs item.actionType kind mime part)
      (hasType : item.sourceType = some sourceType) (reads : ReadsFrom sourceType source)
      (hasValue : item.sourceValue = some value) : Sends reply item {
        parts := part {
          assetId := kind ++ ":" ++ value
          kind := kind
          mime := mime
          sizeBytes := 0
          source := source value } :: item.expectedCaption
        replyTo := (item.expectedReply reply).1
        suppressDefaultReply := (item.expectedReply reply).2
        deliveryPolicy := none }

/-- The plan of a text and envelopes: the body, a message for each media item, and an action for
each reaction item. -/
structure IsPlanOf (reply : String → String) (text : String) (envelopes : List ActionEnvelope)
    (plan : OutboundPlan) : Prop where
  messages : ∃ media, plan.messages = bodyMessages reply text envelopes ++ media ∧
    List.Forall₂ (ActionItem.Sends reply)
      ((envelopes.flatMap ActionEnvelope.actions).filter fun item => ¬ item.IsReaction) media
  actions : plan.actions = ((envelopes.flatMap ActionEnvelope.actions).filter fun item =>
    item.IsReaction).map ActionItem.expectedAction
  deliveryReportPolicy : plan.deliveryReportPolicy = none

theorem replyTo_of_mem_bodyMessages {reply : String → String} {text : String}
    {message : OutboundMessage} (h : message ∈ bodyMessages reply text envelopes) :
    message.replyTo = (lastGiven reply envelopes).1 := by
  simp only [bodyMessages] at h
  by_cases hsay : text = "" ∧ envelopes.flatMap ActionEnvelope.mentions = []
  · rw [if_pos hsay] at h
    cases h
  · rw [if_neg hsay] at h
    rw [List.mem_singleton.mp h]

theorem SendsAs.mediaKind {actionType kind mime : String} {part : AssetRef → MessagePart}
    (h : SendsAs actionType kind mime part) :
    mediaKind actionType = some (kind, part) ∧ defaultMime kind = mime := by
  cases h <;> exact ⟨rfl, rfl⟩

theorem ReadsFrom.assetSource {sourceType : String} {source : String → AssetSource}
    (h : ReadsFrom sourceType source) (value : String) :
    assetSource (some sourceType) (some value) = some (source value) := by
  cases h <;> rfl

theorem expectedCaption_eq (item : ActionItem) : item.expectedCaption =
    if Text.trim (item.captionText.getD "") = "" then []
    else [.text (Text.trim (item.captionText.getD ""))] := by
  unfold ActionItem.expectedCaption
  cases item.captionText with
  | none => rfl
  | some caption => rfl

theorem expectedReply_eq (item : ActionItem) : item.expectedReply Text.trim =
    ((parseReplyToDirective item.replyTo).bind Prod.fst,
      ((parseReplyToDirective item.replyTo).map Prod.snd).getD false) := by
  unfold ActionItem.expectedReply
  cases item.replyTo with
  | missing => rfl
  | null => rfl
  | value text =>
    by_cases hblank : Text.trim text = ""
    · simp [parseReplyToDirective, normalizeReplyToValue, hblank]
    · simp [parseReplyToDirective, normalizeReplyToValue, hblank]

theorem ActionItem.WellFormed.actions_eq (h : item.WellFormed) (hr : item.IsReaction) :
    item.actions = [item.expectedAction] := by
  rw [WellFormed, if_pos hr] at h
  obtain ⟨⟨target, htarget, hne⟩, emoji, hemoji, hne'⟩ := h
  rw [actions, if_pos hr]
  simp [reaction, expectedAction, htarget, hemoji, hne, hne', Option.filter]

theorem ActionItem.WellFormed.messages_eq (h : item.WellFormed) (hr : ¬ item.IsReaction) :
    ∃ message, item.Sends Text.trim message ∧ item.messages = [message] := by
  rw [WellFormed, if_neg hr] at h
  obtain ⟨⟨kind, mime, part, hsends⟩, ⟨sourceType, source, htype, hreads⟩, value, hvalue⟩ := h
  refine ⟨_, .message hsends htype hreads hvalue, ?_⟩
  obtain ⟨hkind, rfl⟩ := hsends.mediaKind
  rw [messages, if_neg hr, mediaActionToMessage, hkind, htype, hvalue, expectedReply_eq,
    expectedCaption_eq]
  simp [hreads.assetSource]

theorem flatMap_actions (h : ∀ item ∈ items, item.WellFormed) :
    items.flatMap ActionItem.actions =
      (items.filter fun item => item.IsReaction).map ActionItem.expectedAction := by
  induction items with
  | nil => rfl
  | cons item items ih =>
    obtain ⟨hitem, h⟩ := List.forall_mem_cons.mp h
    rw [List.flatMap_cons, ih h]
    by_cases hr : item.IsReaction
    · rw [List.filter_cons_of_pos (by simpa using hr), hitem.actions_eq hr]
      rfl
    · rw [List.filter_cons_of_neg (by simpa using hr), ActionItem.actions, if_neg hr]
      rfl

theorem forall₂_messages (h : ∀ item ∈ items, item.WellFormed) :
    List.Forall₂ (ActionItem.Sends Text.trim) (items.filter fun item => ¬ item.IsReaction)
      (items.flatMap ActionItem.messages) := by
  induction items with
  | nil => exact .nil
  | cons item items ih =>
    obtain ⟨hitem, h⟩ := List.forall_mem_cons.mp h
    rw [List.flatMap_cons]
    by_cases hr : item.IsReaction
    · rw [List.filter_cons_of_neg (by simpa using hr), ActionItem.messages, if_pos hr]
      exact ih h
    · obtain ⟨message, hmessage, heq⟩ := hitem.messages_eq hr
      rw [List.filter_cons_of_pos (by simpa using hr), heq]
      exact .cons hmessage (ih h)

theorem parseReplyToDirective_eq {directive : ReplyToDirective}
    (h : ∀ text, directive = .value text → Text.trim text ≠ "") :
    parseReplyToDirective directive = directive.given Text.trim := by
  cases directive with
  | missing => rfl
  | null => rfl
  | value text => simp [parseReplyToDirective, normalizeReplyToValue, h text rfl,
      ReplyToDirective.given]

theorem bodyDirective_eq (h : ∀ envelope ∈ envelopes, envelope.WellFormed) :
    bodyDirective {} envelopes = lastGiven Text.trim envelopes := by
  have hdirectives : (envelopes.filterMap fun envelope => parseReplyToDirective envelope.replyTo) =
      envelopes.filterMap fun envelope => envelope.replyTo.given Text.trim :=
    List.filterMap_congr fun envelope he => parseReplyToDirective_eq (h envelope he).replyTo_ne
  rw [bodyDirective, hdirectives]
  rfl

theorem isPlanOf_foldl (h : ∀ envelope ∈ envelopes, envelope.WellFormed) (body : List Char) :
    IsPlanOf Text.trim (degradeMarkdown (Text.trim (String.ofList body))) envelopes
      (envelopes.foldl Collected.applyEnvelope { body := body }).plan := by
  have hitems : ∀ item ∈ envelopes.flatMap ActionEnvelope.actions, item.WellFormed := by
    intro item hitem
    obtain ⟨envelope, henvelope, hitem⟩ := List.mem_flatMap.mp hitem
    exact (h envelope henvelope).items item hitem
  have hdirective : bodyDirective { body := body } envelopes = lastGiven Text.trim envelopes :=
    bodyDirective_eq h
  rw [foldl_applyEnvelope, hdirective]
  generalize htext : degradeMarkdown (Text.trim (String.ofList body)) = text
  refine ⟨⟨_, ?_, forall₂_messages hitems⟩, ?_, rfl⟩
  · simp only [Collected.plan, htext, bodyMessages, List.nil_append]
    generalize envelopes.flatMap ActionEnvelope.mentions = mentions
    by_cases hsay : text = "" ∧ mentions = []
    · simp [hsay]
    · rw [if_pos (not_and_or.mp hsay), if_neg hsay]
      simp
  · exact flatMap_actions hitems

/-- The text and the envelopes of an output are read back: the first message carries all mentions,
the text and the last directive, and each item has its message or its action, in order. -/
theorem normalizeAgentOutput_render (hbody : ¬ actionMarker <:+: body.toList)
    (henvelopes : ∀ block ∈ blocks, block.1.WellFormed)
    (hparse : ∀ block ∈ blocks, fromStr block.1.toJson.print = some block.1.toJson) :
    ∃ plan, normalizeAgentOutput fromStr (render body blocks) = .ok plan ∧
      IsPlanOf Text.trim (degradeMarkdown (Text.trim (Text.replaceAll "\r\n" "\n" body)))
        (blocks.map Prod.fst) plan := by
  obtain ⟨pre, hpre, hrender⟩ := unixChars_render body blocks
  have hmarker : ¬ actionMarker <:+: pre := by
    intro h
    apply hbody
    apply Text.infix_of_infix_unixChars (by decide)
    obtain hpre | hpre := hpre
    · rwa [hpre]
    · exact hpre ▸ h.trans (List.prefix_append ..).isInfix
  obtain ⟨w, hw, hcollect⟩ := collectBlocks_blocks hmarker hparse {}
  -- The blocks leave white space behind the body, and a carriage return at its end is lost.
  have htrim : Text.trim (String.ofList (pre ++ w)) =
      Text.trim (Text.replaceAll "\r\n" "\n" body) := by
    have hunix : (Text.replaceAll "\r\n" "\n" body).toList = Text.unixChars body.toList :=
      String.toList_ofList
    rw [Text.trim, Text.trim, hunix, String.toList_ofList, Text.trimChars_append_whitespace hw]
    obtain hpre | hpre := hpre
    · rw [hpre]
    · rw [hpre, Text.trimChars_append_whitespace (by simp [Text.isWhitespace])]
  have hunix : (Text.replaceAll "\r\n" "\n" (render body blocks)).toList =
      Text.unixChars (render body blocks).toList := String.toList_ofList
  refine ⟨_, rfl, ?_⟩
  rw [hunix, hrender, hcollect, ← htrim]
  apply isPlanOf_foldl
  exact List.forall_mem_map.mpr henvelopes

/-- A parser that reads back the JSON of one envelope. -/
def readBack (envelope : ActionEnvelope) (text : String) : Option Value :=
  if text = envelope.toJson.print then some envelope.toJson else none

theorem readBack_print (envelope : ActionEnvelope) :
    readBack envelope envelope.toJson.print = some envelope.toJson := if_pos rfl

/-- An answer with a mention, a reaction and a picture. -/
def sampleEnvelope : ActionEnvelope where
  replyTo := .value "m1"
  mentions := [{ actorId := "qq:user:77", display := "@fly-dog" }]
  actions := [
    { actionType := "reaction_add", targetMessageId := some "m1", emoji := some "ok" },
    { actionType := "send_image", sourceType := some "workspace_path"
      sourceValue := some "/workspace/outbox/done.png", captionText := some "done" }]

theorem wellFormed_sampleEnvelope : sampleEnvelope.WellFormed where
  replyTo_ne := by
    rintro _ ⟨⟩
    decide
  items := by
    have hsends : ∃ kind mime part, SendsAs "send_image" kind mime part := ⟨_, _, _, .image⟩
    have hreads : ∃ source, ReadsFrom "workspace_path" source := ⟨_, .workspacePath⟩
    simp [sampleEnvelope, ActionItem.WellFormed, ActionItem.IsReaction, hsends, hreads]

theorem normalizeAgentOutput_render_sample : ∃ plan,
    normalizeAgentOutput (readBack sampleEnvelope)
        (render "done, see below" [(sampleEnvelope, true), (sampleEnvelope, false)]) = .ok plan ∧
      IsPlanOf Text.trim
        (degradeMarkdown (Text.trim (Text.replaceAll "\r\n" "\n" "done, see below")))
        [sampleEnvelope, sampleEnvelope] plan :=
  normalizeAgentOutput_render (by decide) (by simp [wellFormed_sampleEnvelope])
    (by simp [readBack_print])

/-- Every output is read back, with its reply directives and its text in some form. -/
def RoundTrip (reply text : String → String) : Prop :=
  ∀ (fromStr : String → Option Value) (body : String) (blocks : List (ActionEnvelope × Bool)),
    ¬ actionMarker <:+: body.toList → (∀ block ∈ blocks, block.1.WellFormed) →
    (∀ block ∈ blocks, fromStr block.1.toJson.print = some block.1.toJson) →
    ∃ plan, normalizeAgentOutput fromStr (render body blocks) = .ok plan ∧
      IsPlanOf reply (text body) (blocks.map Prod.fst) plan

/-- A directive is not kept as it is given, and a body is not only trimmed and degraded. -/
theorem directive_and_text_change : (∀ text, ¬ RoundTrip id text) ∧
    ∀ reply, ¬ RoundTrip reply fun body => degradeMarkdown (Text.trim body) := by
  constructor
  · intro text h
    let envelope : ActionEnvelope := { replyTo := .value " m1 " }
    have hwf : envelope.WellFormed := by
      constructor
      · rintro _ ⟨⟩
        decide
      · simp [envelope]
    obtain ⟨plan, hplan, hread⟩ := h (readBack envelope) "hi" [(envelope, false)] (by decide)
      (by simpa using hwf) (by simp [readBack_print])
    obtain ⟨media, hmessages, hmedia⟩ := hread.messages
    have hnil : media = [] := List.forall₂_nil_left_iff.mp hmedia
    have hreply : (normalizeAgentOutput (readBack envelope) (render "hi" [(envelope, false)])).map
        (fun plan => plan.messages.map OutboundMessage.replyTo) = .ok [some "m1"] := by
      decide +kernel
    rw [hplan, Except.map, hmessages, hnil, List.append_nil] at hreply
    have hmem : some "m1" ∈
        (bodyMessages id (text "hi") [envelope]).map OutboundMessage.replyTo :=
      Except.ok.inj hreply ▸ List.mem_singleton_self _
    obtain ⟨message, hmem, hm1⟩ := List.mem_map.mp hmem
    have hgiven : message.replyTo = some " m1 " := replyTo_of_mem_bodyMessages hmem
    exact absurd (hm1.symm.trans hgiven) (by decide)
  · intro reply h
    obtain ⟨plan, hplan, hread⟩ := h (fun _ => none) "a\r\r\nb" [] (by decide) (by simp) (by simp)
    beta_reduce at hread
    obtain ⟨media, hmessages, hmedia⟩ := hread.messages
    have hnil : media = [] := List.forall₂_nil_left_iff.mp hmedia
    have hparts : (normalizeAgentOutput (fun _ => none) (render "a\r\r\nb" [])).map
        (fun plan => plan.messages.map OutboundMessage.parts) = .ok [[.text "a\nb"]] := by
      decide +kernel
    have htext : degradeMarkdown (Text.trim "a\r\r\nb") = "a\r\nb" := by decide +kernel
    rw [hplan, Except.map, hmessages, hnil, List.append_nil, htext] at hparts
    simp [bodyMessages] at hparts

end Plan

end DogBot
