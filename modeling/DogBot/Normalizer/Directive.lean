import DogBot.Normalizer.Outside
import DogBot.Normalizer.RoundTrip

/-! # The reply directive of an output

The last envelope with a reply directive says which message the answer refers
to. The directive is kept for the message of the body. When the body is empty
and nobody is mentioned there is no such message, and the directive is lost
unless the first item that sends a message has one of its own.
-/

namespace DogBot

/-- The message that a directive asks to reply to, or that none should be. A blank one asks for
nothing. -/
def ReplyToDirective.target : ReplyToDirective → Option (Option String)
  | .missing => none
  | .null => some none
  | .value text => if Text.trim text = "" then none else some (some (Text.trim text))

/-- The contents of the closed blocks of an output, and the text that is collected around them. -/
def scanBlocks (remaining : List Char) : List (List Char) × List Char :=
  match _hmarker : Text.splitOnceChars actionMarker remaining with
  | none => ([], remaining)
  | some (before, block) =>
    match _hfence : Text.splitOnceChars closingFence (block.dropWhile Text.isWhitespace) with
    | none => ([], before ++ remaining)
    | some (jsonBlock, rest) => (jsonBlock :: (scanBlocks rest).1, before ++ (scanBlocks rest).2)
termination_by remaining.length
decreasing_by
  all_goals
    have h₁ := Text.length_after_lt (by decide) _hmarker
    have h₂ := Text.length_after_lt (by decide) _hfence
    have h₃ := (List.dropWhile_suffix (l := block) Text.isWhitespace).length_le
    omega

def ActionBlock.envelopes : ActionBlock → List ActionEnvelope
  | .envelope e => [e]
  | .single _ => []

def ActionBlock.items : ActionBlock → List ActionItem
  | .envelope e => e.actions
  | .single item => [item]

section Scan

variable {remaining before block jsonBlock rest : List Char}

theorem scanBlocks_of_none (h : Text.splitOnceChars actionMarker remaining = none) :
    scanBlocks remaining = ([], remaining) := by
  unfold scanBlocks
  split
  · rfl
  · rename_i hs
    cases h.symm.trans hs

theorem scanBlocks_of_some
    (h : Text.splitOnceChars actionMarker remaining = some (before, block))
    (hfence : Text.splitOnceChars closingFence (block.dropWhile Text.isWhitespace) =
      some (jsonBlock, rest)) :
    scanBlocks remaining = (jsonBlock :: (scanBlocks rest).1, before ++ (scanBlocks rest).2) := by
  conv_lhs => unfold scanBlocks
  split
  · rename_i hs
    cases h.symm.trans hs
  · rename_i hs
    obtain ⟨rfl, rfl⟩ := Text.found_unique h hs
    split
    · rename_i he
      cases hfence.symm.trans he
    · rename_i he
      obtain ⟨rfl, rfl⟩ := Text.found_unique hfence he
      rfl

end Scan

section Output

variable (fromStr : String → Option Json.Value) (output : String)

/-- The blocks of an output that are understood. -/
def parsedBlocks : List ActionBlock :=
  (scanBlocks (Text.replaceAll "\r\n" "\n" output).toList).1.filterMap fun jsonBlock =>
    (fromStr (Text.trim (String.ofList jsonBlock))).bind ActionBlock.decode

def parsedEnvelopes : List ActionEnvelope :=
  (parsedBlocks fromStr output).flatMap ActionBlock.envelopes

def parsedItems : List ActionItem := (parsedBlocks fromStr output).flatMap ActionBlock.items

/-- What the last envelope with a directive asks for. -/
def lastDirective : Option (Option String) :=
  ((parsedEnvelopes fromStr output).filterMap fun envelope => envelope.replyTo.target).getLast?

/-- Text is left of what stands around the blocks, or somebody is mentioned. -/
def HasBody : Prop :=
  degradeMarkdown (Text.trim (String.ofList
    (scanBlocks (Text.replaceAll "\r\n" "\n" output).toList).2)) ≠ "" ∨
  ∃ envelope ∈ parsedEnvelopes fromStr output, envelope.mentions ≠ []

/-- The first item that sends a message has a directive. -/
def FirstItemDirects : Prop :=
  ∀ before item after, parsedItems fromStr output = before ++ item :: after →
    (∀ i ∈ before, i.messages = []) → item.messages ≠ [] → item.replyTo.target ≠ none

/-- The last directive is that of the first message, unless an item with its own directive sends
it, and no message has a reply target but refuses the default one. -/
structure HonoursDirective (plan : OutboundPlan) : Prop where
  first : ∀ message ∈ plan.messages.head?, ∀ target ∈ lastDirective fromStr output,
    (∀ default, message.effectiveReplyTo default = target) ∨
      ∃ item ∈ parsedItems fromStr output, mediaActionToMessage item = some message ∧
        item.replyTo.target ≠ none
  exclusive : ∀ message ∈ plan.messages,
    ¬ (message.replyTo.isSome ∧ message.suppressDefaultReply = true)

end Output

variable {fromStr : String → Option Json.Value} {remaining before block jsonBlock rest : List Char}
  {output : String} {item : ActionItem} {message : OutboundMessage}

theorem applyBlock_eq (state : Collected) (b : ActionBlock) :
    state.applyBlock (some b) =
      { body := state.body
        bodyReplyTo := (bodyDirective state b.envelopes).1
        suppressBodyDefaultReply := (bodyDirective state b.envelopes).2
        bodyMentions := state.bodyMentions ++ b.envelopes.flatMap ActionEnvelope.mentions
        actions := state.actions ++ b.items.flatMap ActionItem.actions
        messages := state.messages ++ b.items.flatMap ActionItem.messages } := by
  cases b with
  | envelope envelope =>
    rw [Collected.applyBlock, applyEnvelope_eq]
    simp [ActionBlock.envelopes, ActionBlock.items]
  | single item =>
    rw [Collected.applyBlock, appendActionItems_eq]
    simp [ActionBlock.envelopes, ActionBlock.items, bodyDirective]

theorem bodyDirective_append (state : Collected) (b : ActionBlock)
    (envelopes : List ActionEnvelope) :
    bodyDirective state (b.envelopes ++ envelopes) =
      bodyDirective (state.applyBlock (some b)) envelopes := by
  cases b with
  | envelope envelope => exact bodyDirective_cons state envelope envelopes
  | single item =>
    rw [applyBlock_eq]
    rfl

theorem foldl_applyBlock (state : Collected) (blocks : List ActionBlock) :
    blocks.foldl (fun state b => state.applyBlock (some b)) state =
      { body := state.body
        bodyReplyTo := (bodyDirective state (blocks.flatMap ActionBlock.envelopes)).1
        suppressBodyDefaultReply := (bodyDirective state (blocks.flatMap ActionBlock.envelopes)).2
        bodyMentions := state.bodyMentions ++
          (blocks.flatMap ActionBlock.envelopes).flatMap ActionEnvelope.mentions
        actions := state.actions ++ (blocks.flatMap ActionBlock.items).flatMap ActionItem.actions
        messages := state.messages ++
          (blocks.flatMap ActionBlock.items).flatMap ActionItem.messages } := by
  induction blocks generalizing state with
  | nil => simp [bodyDirective]
  | cons b blocks ih =>
    rw [List.foldl_cons, ih, List.flatMap_cons, List.flatMap_cons, bodyDirective_append,
      applyBlock_eq]
    simp

theorem collectBlocks_eq (remaining : List Char) (state : Collected) :
    collectBlocks fromStr remaining state =
      ((scanBlocks remaining).1.filterMap fun jsonBlock =>
          (fromStr (Text.trim (String.ofList jsonBlock))).bind ActionBlock.decode).foldl
        (fun state block => state.applyBlock (some block))
        { state with body := state.body ++ (scanBlocks remaining).2 } := by
  fun_induction scanBlocks remaining generalizing state with
  | case1 remaining hmarker => exact collectBlocks_of_none hmarker state
  | case2 remaining before block hmarker hfence =>
    rw [collectBlocks_of_unclosed hmarker hfence, List.append_assoc]
    rfl
  | case3 remaining before block hmarker jsonBlock rest hfence ih =>
    rw [collectBlocks_of_some hmarker hfence, ih, List.filterMap_cons]
    cases (fromStr (Text.trim (String.ofList jsonBlock))).bind ActionBlock.decode with
    | none => simp [Collected.applyBlock]
    | some b =>
      rw [List.foldl_cons, applyBlock_eq, applyBlock_eq]
      simp [bodyDirective]

theorem parseReplyToDirective_target (directive : ReplyToDirective) :
    parseReplyToDirective directive =
      directive.target.map fun target => (target, target.isNone) := by
  cases directive with
  | missing => rfl
  | null => rfl
  | value text =>
    rw [parseReplyToDirective, normalizeReplyToValue, ReplyToDirective.target]
    split_ifs <;> rfl

theorem effectiveReplyTo_eq {target : Option String} (hreply : message.replyTo = target)
    (hsuppress : message.suppressDefaultReply = target.isNone) (default : Option String) :
    message.effectiveReplyTo default = target := by
  rw [OutboundMessage.effectiveReplyTo, hreply, hsuppress]
  cases target <;> rfl

theorem mediaActionToMessage_directive (h : mediaActionToMessage item = some message) :
    message.replyTo = item.replyTo.target.join ∧
      message.suppressDefaultReply = (item.replyTo.target.map Option.isNone).getD false := by
  simp only [mediaActionToMessage, Option.bind_eq_bind, Option.bind_eq_some_iff,
    Option.pure_def, Option.some.injEq] at h
  obtain ⟨-, -, -, -, rfl⟩ := h
  rw [parseReplyToDirective_target]
  cases item.replyTo.target <;> exact ⟨rfl, rfl⟩

theorem bodyDirective_target (envelopes : List ActionEnvelope) :
    bodyDirective {} envelopes =
      (((envelopes.filterMap fun envelope => envelope.replyTo.target).getLast?).map
        fun target => (target, target.isNone)).getD (none, false) := by
  have hmap : (envelopes.filterMap fun envelope => parseReplyToDirective envelope.replyTo) =
      (envelopes.filterMap fun envelope => envelope.replyTo.target).map
        fun target => (target, target.isNone) := by
    rw [List.map_filterMap]
    simp only [parseReplyToDirective_target]
  rw [bodyDirective, hmap, List.getLast?_map]

def outsideBody (output : String) : String :=
  degradeMarkdown (Text.trim (String.ofList
    (scanBlocks (Text.replaceAll "\r\n" "\n" output).toList).2))

def bodyMessage (fromStr : String → Option Json.Value) (output : String) : OutboundMessage where
  parts := ((parsedEnvelopes fromStr output).flatMap ActionEnvelope.mentions).map
    (fun mention => .mention mention.actorId mention.display) ++
      if outsideBody output ≠ "" then [.text (outsideBody output)] else []
  replyTo := (lastDirective fromStr output).join
  suppressDefaultReply := ((lastDirective fromStr output).map Option.isNone).getD false
  deliveryPolicy := none

theorem hasBody_iff : HasBody fromStr output ↔ outsideBody output ≠ "" ∨
    (parsedEnvelopes fromStr output).flatMap ActionEnvelope.mentions ≠ [] := by
  rw [HasBody, outsideBody, ne_eq (List.flatMap _ _), List.flatMap_eq_nil_iff]
  simp only [not_forall, exists_prop, ne_eq]

theorem collected_eq {state : Collected} (h : state = collectBlocks fromStr
      (Text.replaceAll "\r\n" "\n" output).toList {}) :
    degradeMarkdown (Text.trim (String.ofList state.body)) = outsideBody output ∧
      state.bodyReplyTo = (lastDirective fromStr output).join ∧
      state.suppressBodyDefaultReply =
        ((lastDirective fromStr output).map Option.isNone).getD false ∧
      state.bodyMentions = (parsedEnvelopes fromStr output).flatMap ActionEnvelope.mentions ∧
      state.messages = (parsedItems fromStr output).flatMap ActionItem.messages := by
  rw [collectBlocks_eq, foldl_applyBlock] at h
  have hdirective : (state.bodyReplyTo, state.suppressBodyDefaultReply) =
      bodyDirective {} (parsedEnvelopes fromStr output) := by
    rw [h]
    rfl
  rw [bodyDirective_target, ← lastDirective] at hdirective
  refine ⟨by rw [h]; rfl, ?_, ?_, by rw [h]; rfl, by rw [h]; rfl⟩
  · refine (congrArg Prod.fst hdirective).trans ?_
    cases lastDirective fromStr output <;> rfl
  · refine (congrArg Prod.snd hdirective).trans ?_
    cases lastDirective fromStr output <;> rfl

theorem normalizeAgentOutput_messages (fromStr : String → Option Json.Value) (output : String) :
    ∃ plan, normalizeAgentOutput fromStr output = .ok plan ∧
      (HasBody fromStr output → plan.messages = bodyMessage fromStr output ::
        (parsedItems fromStr output).flatMap ActionItem.messages) ∧
      (¬ HasBody fromStr output →
        plan.messages = (parsedItems fromStr output).flatMap ActionItem.messages) := by
  obtain ⟨state, hstate⟩ : ∃ state, state = collectBlocks fromStr
      (Text.replaceAll "\r\n" "\n" output).toList {} := ⟨_, rfl⟩
  obtain ⟨hbody, hreply, hsuppress, hmentions, hmessages⟩ := collected_eq hstate
  refine ⟨state.plan, by rw [normalizeAgentOutput, hstate], ?_⟩
  rw [hasBody_iff, Collected.plan]
  simp only [hbody, hreply, hsuppress, hmentions, hmessages]
  exact ⟨fun h => if_pos h, fun h => if_neg h⟩

theorem mem_messages (h : message ∈ item.messages) : mediaActionToMessage item = some message := by
  rw [ActionItem.messages] at h
  split_ifs at h
  · cases h
  · exact Option.mem_toList.mp h

theorem mem_head?_flatMap_messages {items : List ActionItem} :
    message ∈ (items.flatMap ActionItem.messages).head? ↔
      ∃ before item after, items = before ++ item :: after ∧
        (∀ i ∈ before, i.messages = []) ∧ message ∈ item.messages.head? := by
  rw [List.head?_flatMap, Option.mem_def, List.findSome?_eq_some_iff]
  simp only [List.head?_eq_none_iff, Option.mem_def]
  constructor
  · rintro ⟨before, item, after, hitems, hhead, hbefore⟩
    exact ⟨before, item, after, hitems, hbefore, hhead⟩
  · rintro ⟨before, item, after, hitems, hbefore, hhead⟩
    exact ⟨before, item, after, hitems, hhead, hbefore⟩

theorem exclusive_of_directive {directive : Option (Option String)}
    (hreply : message.replyTo = directive.join)
    (hsuppress : message.suppressDefaultReply = (directive.map Option.isNone).getD false) :
    ¬ (message.replyTo.isSome ∧ message.suppressDefaultReply = true) := by
  rw [hreply, hsuppress]
  rcases directive with - | - | target <;> simp

theorem not_forall_effectiveReplyTo (hreply : message.replyTo = none)
    (hsuppress : message.suppressDefaultReply = false) (target : Option String) :
    ¬ ∀ default, message.effectiveReplyTo default = target := by
  intro h
  have hnone := h none
  have hsome := h (some "")
  rw [OutboundMessage.effectiveReplyTo, hreply, hsuppress] at hnone hsome
  cases hnone.trans hsome.symm

/-- Without a message of the body, a message that does what the last directive asks for comes from
an item with a directive of its own. -/
theorem firstItemDirects_of_first {plan : OutboundPlan}
    (hmessages : plan.messages = (parsedItems fromStr output).flatMap ActionItem.messages)
    (honours : HonoursDirective fromStr output plan) {target : Option String}
    (hlast : lastDirective fromStr output = some target) : FirstItemDirects fromStr output := by
  intro before item after hitems hbefore hne htarget
  obtain ⟨message, messages, hcons⟩ := List.exists_cons_of_ne_nil hne
  have hmessage : message ∈ item.messages.head? := by
    rw [hcons]
    rfl
  have hhead : message ∈ plan.messages.head? := by
    rw [hmessages, mem_head?_flatMap_messages]
    exact ⟨before, item, after, hitems, hbefore, hmessage⟩
  obtain ⟨hreply, hsuppress⟩ :=
    mediaActionToMessage_directive (mem_messages (List.mem_of_head? hmessage))
  rw [htarget] at hreply hsuppress
  rcases honours.first message hhead target hlast with hdefault | ⟨item', -, hitem', hown⟩
  · exact not_forall_effectiveReplyTo hreply hsuppress target hdefault
  · obtain ⟨hreply', hsuppress'⟩ := mediaActionToMessage_directive hitem'
    rw [hreply] at hreply'
    rw [hsuppress] at hsuppress'
    rcases hown' : item'.replyTo.target with - | - | own
    · exact hown hown'
    · simp [hown'] at hsuppress'
    · simp [hown'] at hreply'

theorem effectiveReplyTo_bodyMessage {target : Option String}
    (hlast : lastDirective fromStr output = some target) (default : Option String) :
    (bodyMessage fromStr output).effectiveReplyTo default = target := by
  refine effectiveReplyTo_eq ?_ ?_ default
  · rw [bodyMessage, hlast]
    rfl
  · rw [bodyMessage, hlast]
    rfl

theorem exclusive_of_mem_messages
    (h : message ∈ (parsedItems fromStr output).flatMap ActionItem.messages) :
    ¬ (message.replyTo.isSome ∧ message.suppressDefaultReply = true) := by
  obtain ⟨item, -, hitem⟩ := List.mem_flatMap.mp h
  obtain ⟨hreply, hsuppress⟩ := mediaActionToMessage_directive (mem_messages hitem)
  exact exclusive_of_directive hreply hsuppress

/-- The last reply directive of an output is honoured exactly if there is none, or the body has a
message, or the first item that sends one has a directive of its own. -/
theorem directive_honoured_iff (fromStr : String → Option Json.Value) (output : String) :
    ∃ plan, normalizeAgentOutput fromStr output = .ok plan ∧
      (HonoursDirective fromStr output plan ↔ lastDirective fromStr output = none ∨
        HasBody fromStr output ∨ FirstItemDirects fromStr output) := by
  obtain ⟨plan, hplan, hwith, hwithout⟩ := normalizeAgentOutput_messages fromStr output
  refine ⟨plan, hplan, fun honours => ?_, fun hcond => ⟨?_, ?_⟩⟩
  · by_cases hbody : HasBody fromStr output
    · exact .inr (.inl hbody)
    cases hlast : lastDirective fromStr output with
    | none => exact .inl rfl
    | some target =>
      exact .inr (.inr (firstItemDirects_of_first (hwithout hbody) honours hlast))
  · intro message hmessage target htarget
    by_cases hbody : HasBody fromStr output
    · rw [hwith hbody, List.head?_cons, Option.mem_def, Option.some.injEq] at hmessage
      subst hmessage
      exact .inl (effectiveReplyTo_bodyMessage htarget)
    · rcases hcond with hnone | hbody' | hfirst
      · rw [hnone] at htarget
        cases htarget
      · exact absurd hbody' hbody
      · rw [hwithout hbody, mem_head?_flatMap_messages] at hmessage
        obtain ⟨before, item, after, hitems, hbefore, hhead⟩ := hmessage
        have hmem := List.mem_of_head? hhead
        refine .inr ⟨item, ?_, mem_messages hmem,
          hfirst before item after hitems hbefore (List.ne_nil_of_mem hmem)⟩
        rw [hitems]
        exact List.mem_append_right _ List.mem_cons_self
  · intro message hmessage
    by_cases hbody : HasBody fromStr output
    · rw [hwith hbody] at hmessage
      rcases List.mem_cons.mp hmessage with rfl | hitems
      · exact exclusive_of_directive rfl rfl
      · exact exclusive_of_mem_messages hitems
    · exact exclusive_of_mem_messages (hwithout hbody ▸ hmessage)

/-- An output that is only a block has the JSON of this block and no text. -/
theorem scanBlocks_fenced (envelope : ActionEnvelope) :
    scanBlocks (Text.replaceAll "\r\n" "\n"
      ("```dogbot-action\n" ++ envelope.toJson.print ++ "\n```")).toList =
      ([envelope.toJson.print.toList], []) := by
  have hopen : "```dogbot-action\n".toList = actionMarker ++ ['\n'] := by decide
  have hclose : "\n```".toList = closingFence := rfl
  have hfence := splitOnceChars_toJson envelope []
  have hjson : '\r' ∉ envelope.toJson.print.toList := fun h => (envelope.oneLine_toJson _ h).2 rfl
  -- The text of the envelope is not to be evaluated.
  generalize envelope.toJson.print = json at hfence hjson
  have hunix : (Text.replaceAll "\r\n" "\n" ("```dogbot-action\n" ++ json ++ "\n```")).toList =
      actionMarker ++ '\n' :: (json.toList ++ closingFence) := by
    have hself : '\r' ∉ actionMarker ++ '\n' :: (json.toList ++ closingFence) := by
      have hmarker : '\r' ∉ actionMarker := by decide
      have hend : '\r' ∉ closingFence := by decide
      simp [hmarker, hjson, hend]
    refine String.toList_ofList.trans ?_
    rw [String.toList_append, String.toList_append, hopen, hclose, List.append_assoc,
      List.append_assoc, List.singleton_append]
    exact Text.unixChars_eq_self hself
  rw [List.append_nil] at hfence
  have hempty : scanBlocks [] = ([], []) := scanBlocks_of_none rfl
  rw [hunix, scanBlocks_of_some (Text.splitOnceChars_prefix (by decide) _) hfence, hempty]
  rfl

theorem parsedBlocks_fenced {envelope : ActionEnvelope}
    (hparse : fromStr envelope.toJson.print = some envelope.toJson) :
    parsedBlocks fromStr ("```dogbot-action\n" ++ envelope.toJson.print ++ "\n```") =
      [.envelope envelope] := by
  rw [parsedBlocks, scanBlocks_fenced]
  exact List.filterMap_cons_some (decode_print hparse)

theorem outsideBody_fenced (envelope : ActionEnvelope) :
    outsideBody ("```dogbot-action\n" ++ envelope.toJson.print ++ "\n```") = "" := by
  have hempty : degradeMarkdown (Text.trim (String.ofList [])) = "" := by decide
  rw [outsideBody, scanBlocks_fenced, hempty]

/-- A picture that should not reply to anything. -/
def pictureEnvelope : ActionEnvelope where
  replyTo := .null
  actions := [
    { actionType := "send_image", sourceType := some "workspace_path"
      sourceValue := some "/workspace/outbox/cover.png" }]

def pictureOutput : String :=
  "```dogbot-action\n" ++ pictureEnvelope.toJson.print ++ "\n```"

/-- The directive of an output that only sends media is lost. -/
theorem media_directive_lost : ¬ ∀ (fromStr : String → Option Json.Value) (output : String)
    (plan : OutboundPlan), normalizeAgentOutput fromStr output = .ok plan →
      HonoursDirective fromStr output plan := by
  intro h
  obtain ⟨plan, hplan, hiff⟩ := directive_honoured_iff (readBack pictureEnvelope) pictureOutput
  have hblocks : parsedBlocks (readBack pictureEnvelope) pictureOutput =
      [.envelope pictureEnvelope] := parsedBlocks_fenced (readBack_print pictureEnvelope)
  have hbody : outsideBody pictureOutput = "" := outsideBody_fenced pictureEnvelope
  rcases hiff.mp (h _ _ plan hplan) with hnone | hsome | hfirst
  · rw [lastDirective, parsedEnvelopes, hblocks] at hnone
    exact absurd hnone (by decide)
  · rw [hasBody_iff, parsedEnvelopes, hblocks] at hsome
    exact hsome.elim (fun hne => hne hbody) fun hne => hne rfl
  · refine hfirst [] (pictureEnvelope.actions.head (by decide)) [] ?_ (List.forall_mem_nil _) ?_ ?_
    · rw [parsedItems, hblocks]
      rfl
    · decide
    · rfl

end DogBot
