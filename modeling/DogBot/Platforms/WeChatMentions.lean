import DogBot.Platforms.WeChatPadProDelivery

/-! # Mentions in WeChat groups

The mentions of a group message are written into its text where they stand, and
the names of all mentions are put in front of the text once more. Each mention
is therefore rendered once only if it is the default mention.
-/

namespace DogBot.WeChatPadPro

open Json (Value)

/-- The mention of a part; a part without a user is skipped. -/
def partMention : MessagePart → Option MentionTarget
  | .mention actorId display =>
    let normalizedActor := Text.trim (normalizeWechatTargetId actorId)
    if normalizedActor = "" then none
    else some { actorId := normalizedActor, display := some display }
  | _ => none

/-- The text of a part, or the rendering of its mention. -/
def partRendering (part : MessagePart) : List Char :=
  match part with
  | .text text => text.toList
  | part => (partMention part).elim [] fun mention => (renderMentionText mention).toList

def defaultMentions (context : DeliveryContext) (applyDefaultGroupMention : Bool)
    (parts : List MessagePart) : List MentionTarget :=
  if applyDefaultGroupMention ∧ parts.filterMap partMention = [] then
    (defaultGroupMentionFromContext context).toList
  else []

def msgItem (payload : Value) : Option Value :=
  ((payload.get "MsgItem").bind Value.asArray).bind List.head?

def textContent (payload : Value) : Option String :=
  ((msgItem payload).bind fun item => item.get "TextContent").bind Value.asStr

def atWxIdList (payload : Value) : List String :=
  let users := ((msgItem payload).bind fun item => item.get "AtWxIDList").bind Value.asArray
  (users.getD []).filterMap Value.asStr

/-- The text is, up to white space, the default mention and the parts as they are rendered, and the
users are those of these mentions. -/
def RenderedOnce (context : DeliveryContext) (applyDefaultGroupMention : Bool)
    (parts : List MessagePart) (payload : Value) : Prop :=
  let defaults := defaultMentions context applyDefaultGroupMention parts
  (∃ text, textContent payload = some text ∧
    Text.visibleChars text.toList =
      Text.visibleChars (defaults.flatMap (fun mention => (renderMentionText mention).toList) ++
        parts.flatMap partRendering)) ∧
    atWxIdList payload = (defaults ++ parts.filterMap partMention).map MentionTarget.actorId

variable {debug : DebugFormat} {parts : List MessagePart} {context : DeliveryContext}
  {applyDefaultGroupMention : Bool} {payload : Value} {text : String}
  {mentions : List MentionTarget}

/-- A part adds its rendering to the text and its mention to the mentions. -/
theorem addTextPart_spec {part : MessagePart} {state state' : String × List MentionTarget}
    (h : addTextPart debug state part = .ok state') :
    Text.visibleChars state'.1.toList =
        Text.visibleChars state.1.toList ++ Text.visibleChars (partRendering part) ∧
      state'.2 = state.2 ++ (partMention part).toList := by
  obtain ⟨text, mentions⟩ := state
  cases part with
  | text partText =>
    obtain rfl := Except.ok.inj h
    simp [partRendering, partMention]
  | mention actorId display =>
    have hblank : Text.visibleChars " ".toList = [] := by decide
    unfold addTextPart at h
    dsimp only at h
    simp only [partRendering, partMention]
    by_cases hactor : Text.trim (normalizeWechatTargetId actorId) = ""
    · rw [if_pos hactor] at h ⊢
      injection h with h
      subst h
      simp [Text.visibleChars]
    · rw [if_neg hactor] at h ⊢
      injection h with h
      subst h
      refine ⟨?_, rfl⟩
      split_ifs <;> simp only [String.toList_append, Text.visibleChars_append, hblank,
        List.append_nil, Option.elim_some]
  | _ => cases h

theorem foldlM_addTextPart {state state' : String × List MentionTarget}
    (h : parts.foldlM (addTextPart debug) state = .ok state') :
    Text.visibleChars state'.1.toList =
        Text.visibleChars state.1.toList ++ Text.visibleChars (parts.flatMap partRendering) ∧
      state'.2 = state.2 ++ parts.filterMap partMention := by
  induction parts generalizing state with
  | nil =>
    obtain rfl := Except.ok.inj h
    simp [Text.visibleChars]
  | cons part parts ih =>
    rw [List.foldlM_cons] at h
    obtain ⟨state₁, hpart, hparts⟩ := Program.bind_eq_ok h
    obtain ⟨htext, hmentions⟩ := addTextPart_spec hpart
    obtain ⟨htexts, hall⟩ := ih hparts
    rw [htexts, htext, hall, hmentions, List.flatMap_cons, Text.visibleChars_append,
      List.append_assoc, List.append_assoc, List.filterMap_cons]
    refine ⟨rfl, ?_⟩
    cases partMention part <;> rfl

theorem visibleChars_intercalate (texts : List String) :
    Text.visibleChars (" ".intercalate texts).toList =
      Text.visibleChars (texts.flatMap String.toList) := by
  rw [String.toList_intercalate]
  induction texts with
  | nil => rfl
  | cons text texts ih =>
    cases texts with
    | nil => simp
    | cons text' texts =>
      have hblank : Text.visibleChars " ".toList = [] := by decide
      rw [List.map_cons, List.map_cons, List.intercalate_cons_cons, List.flatMap_cons,
        Text.visibleChars_append, Text.visibleChars_append, Text.visibleChars_append, hblank, ← ih,
        List.append_nil]
      rfl

theorem buildTextPayload_of_mentions (target text : String) {isGroup : Bool}
    (hgroup : isGroup = true) (hmentions : mentions ≠ []) :
    buildTextPayload target text isGroup mentions = .object [("MsgItem", .array [.object
      [("AtWxIDList", .array (mentions.map fun mention => .string mention.actorId)),
        ("MsgType", .number (.int 1)),
        ("TextContent", .string (if Text.trim text = "" then
          " ".intercalate (mentions.map renderMentionText)
          else " ".intercalate (mentions.map renderMentionText) ++ " " ++ Text.trim text)),
        ("ToUserName", .string target)]])] := by
  unfold buildTextPayload
  dsimp only
  rw [if_pos ⟨hgroup, hmentions⟩]

/-- The names and the users of a text message to a group. -/
theorem buildTextPayload_mentions (target text : String) (mentions : List MentionTarget) :
    (∃ content, textContent (buildTextPayload target text true mentions) = some content ∧
      Text.visibleChars content.toList =
        Text.visibleChars (mentions.flatMap fun mention => (renderMentionText mention).toList) ++
          Text.visibleChars text.toList) ∧
      atWxIdList (buildTextPayload target text true mentions) =
        mentions.map MentionTarget.actorId := by
  by_cases hmentions : mentions = []
  · subst hmentions
    exact ⟨⟨text, rfl, rfl⟩, rfl⟩
  · rw [buildTextPayload_of_mentions _ _ rfl hmentions]
    refine ⟨⟨_, rfl, ?_⟩, ?_⟩
    · have hblank : Text.visibleChars " ".toList = [] := by decide
      have htrim : Text.visibleChars (Text.trim text).toList = Text.visibleChars text.toList := by
        rw [Text.trim, String.toList_ofList, Text.visibleChars_trimChars]
      rw [← List.flatMap_map, ← visibleChars_intercalate, ← htrim]
      split_ifs with hempty
      · rw [hempty, String.toList_empty, Text.visibleChars, Text.visibleChars, List.filter_nil,
          List.append_nil]
      · rw [String.toList_append, String.toList_append, Text.visibleChars_append,
          Text.visibleChars_append, hblank, List.append_nil]
    · change (mentions.map fun mention => Value.string mention.actorId).filterMap Value.asStr = _
      rw [List.filterMap_map]
      exact congrFun List.filterMap_eq_map mentions

theorem payloadMentions_eq (hgroup : conversationScope context.conversationId = some "group") :
    payloadMentions context applyDefaultGroupMention (parts.filterMap partMention) =
      defaultMentions context applyDefaultGroupMention parts ++ parts.filterMap partMention := by
  simp only [payloadMentions, defaultMentions, hgroup, true_and]
  split_ifs with h
  · rw [h.2, List.append_nil]
  · rfl

theorem visibleChars_names_eq_nil_iff :
    Text.visibleChars (mentions.flatMap fun mention => (renderMentionText mention).toList) = [] ↔
      mentions = [] := by
  constructor
  · intro h
    cases mentions with
    | nil => rfl
    | cons mention mentions =>
      rw [List.flatMap_cons, Text.visibleChars_append, renderMentionText, String.toList_append,
        Text.visibleChars_append] at h
      exact absurd h (by simp [Text.visibleChars, Text.isWhitespace])
  · rintro rfl
    rfl

/-- In a group, the mentions of a message are rendered once exactly if no part mentions anybody. -/
theorem rendered_once_iff (hgroup : conversationScope context.conversationId = some "group")
    (h : compileTextPayloadFromParts debug parts context applyDefaultGroupMention =
      .ok (some payload)) :
    RenderedOnce context applyDefaultGroupMention parts payload ↔
      parts.filterMap partMention = [] := by
  obtain ⟨text, mentions, hfold, -, rfl⟩ := exists_of_compileTextPayloadFromParts debug h
  obtain ⟨htext, hmentions⟩ := foldlM_addTextPart hfold
  obtain rfl : mentions = parts.filterMap partMention := hmentions
  have hvisible : Text.visibleChars (Text.trim text).toList =
      Text.visibleChars (parts.flatMap partRendering) := by
    rw [Text.trim, String.toList_ofList, Text.visibleChars_trimChars, htext]
    rfl
  obtain ⟨⟨content, hcontent, hchars⟩, hlist⟩ := buildTextPayload_mentions
    (conversationTarget context.conversationId) (Text.trim text)
    (payloadMentions context applyDefaultGroupMention (parts.filterMap partMention))
  rw [hvisible, payloadMentions_eq hgroup, List.flatMap_append, Text.visibleChars_append,
    List.append_assoc] at hchars
  rw [decide_eq_true hgroup, ← visibleChars_names_eq_nil_iff]
  unfold RenderedOnce
  rw [hcontent, hlist, payloadMentions_eq hgroup, and_iff_left rfl]
  simp only [Option.some.injEq, exists_eq_left', hchars, Text.visibleChars_append,
    List.append_cancel_left_eq, List.append_left_eq_self]

def groupContext : DeliveryContext where
  platform := "wechatpadpro"
  platformAccount := "wechatpadpro:account:bot"
  conversationId := "wechatpadpro:group:room@chatroom"
  targetActorId := some "wechatpadpro:user:alice"
  targetDisplayName := some "Alice"
  replyToMessageId := none
  nativeEvent := none

theorem exists_payload (hne : parts ≠ [])
    (hfold : parts.foldlM (addTextPart debug) ("", []) = .ok (text, mentions))
    (htext : Text.trim text ≠ "") :
    compileTextPayloadFromParts debug parts context applyDefaultGroupMention =
      .ok (some (buildTextPayload (conversationTarget context.conversationId) (Text.trim text)
        (conversationScope context.conversationId = some "group")
        (payloadMentions context applyDefaultGroupMention mentions))) :=
  (compileTextPayloadFromParts_eq debug hne hfold).trans (if_neg htext)

def plainDebug : DebugFormat where
  part _ := ""
  source _ := ""

theorem rendered_once_iff_text : ∃ payload,
    compileTextPayloadFromParts plainDebug [.text "hello"] groupContext true = .ok (some payload) ∧
      RenderedOnce groupContext true [.text "hello"] payload := by
  have hpayload := @exists_payload plainDebug [.text "hello"] groupContext true "hello" []
    (by simp) rfl (by decide +kernel)
  exact ⟨_, hpayload, (rendered_once_iff (by decide +kernel) hpayload).mpr rfl⟩

/-- The mention of a part is rendered twice. -/
theorem mention_rendered_twice : ¬ ∀ (debug : DebugFormat) (parts : List MessagePart)
    (context : DeliveryContext) (applyDefaultGroupMention : Bool) (payload : Value),
    conversationScope context.conversationId = some "group" →
    compileTextPayloadFromParts debug parts context applyDefaultGroupMention =
      .ok (some payload) →
    RenderedOnce context applyDefaultGroupMention parts payload := by
  intro h
  have hfold : [MessagePart.mention "bob" "Bob"].foldlM (addTextPart plainDebug) ("", []) =
      .ok ("@Bob ", [{ actorId := "bob", display := some "Bob" }]) := by
    decide +kernel
  have hpayload := @exists_payload _ _ groupContext true _ _ (by simp) hfold (by decide +kernel)
  obtain ⟨⟨text, htext, hchars⟩, -⟩ := h _ _ _ _ _ (by decide +kernel) hpayload
  have hcontent : textContent (buildTextPayload (conversationTarget groupContext.conversationId)
      (Text.trim "@Bob ") (conversationScope groupContext.conversationId = some "group")
      (payloadMentions groupContext true [{ actorId := "bob", display := some "Bob" }])) =
      some "@Bob @Bob" := by
    decide +kernel
  obtain rfl := Option.some.inj (hcontent.symm.trans htext)
  revert hchars
  decide +kernel

end DogBot.WeChatPadPro
