import DogBot.Platforms.Delivery

/-! # Replies on QQ

An event is answered in the chat that it came from. The ids of the chat, of the
user and of the message are any texts or numbers for the decoder; on their way
back, the encoder accepts only digits.
-/

namespace DogBot.Qq

open Json (Value)

/-- A kind of chats: its scope in a conversation, the member of a payload that names the chat, and
the path of message requests to it. -/
structure ChatKind where
  scope : String
  key : String
  path : String

def groupChat : ChatKind := ⟨"group", "group_id", "/send_group_msg"⟩

def privateChat : ChatKind := ⟨"private", "user_id", "/send_private_msg"⟩

def isGroup (payload : Value) : Bool := (payload.get "message_type").bind Value.asStr = some "group"

/-- The kind of the chat that an accepted payload comes from. -/
def chatKind (payload : Value) : ChatKind := if isGroup payload then groupChat else privateChat

def IsTarget (id : String) : Prop := ∃ number, normalizeQqTargetId id = .ok number

variable {payload : Value} {platformAccount : String} {event : CanonicalEvent}
  {context : DeliveryContext} {plan : OutboundPlan} {message : OutboundMessage} {self : QqPlatform}

section Context

/-- The ids of a payload in the context of an answer to it. -/
theorem decodeNapcatEvent_context (h : decodeNapcatEvent payload platformAccount = some event) :
    ∃ userId messageId chatId, (payload.get "user_id").bind stringValue = some userId ∧
      (payload.get "message_id").bind stringValue = some messageId ∧
      (payload.get (chatKind payload).key).bind stringValue = some chatId ∧
      (deliveryContextFromEvent event).conversationId =
        "qq" ++ ":" ++ (chatKind payload).scope ++ ":" ++ chatId ∧
      (deliveryContextFromEvent event).replyToMessageId = some messageId ∧
      (deliveryContextFromEvent event).targetActorId =
        if isGroup payload then some ("qq:user:" ++ userId) else none := by
  unfold decodeNapcatEvent at h
  obtain ⟨-, -, h⟩ := Option.bind_eq_some_iff.mp h
  obtain ⟨messageType, hmessageType, h⟩ := Option.bind_eq_some_iff.mp h
  obtain ⟨userId, huser, h⟩ := Option.bind_eq_some_iff.mp h
  obtain ⟨messageId, hmessage, hconv⟩ := Option.bind_eq_some_iff.mp h
  dsimp only at hconv
  refine ⟨userId, messageId, ?_⟩
  split_ifs at hconv with hg hp
  · obtain ⟨conversation, hconv, he⟩ := Option.bind_eq_some_iff.mp hconv
    obtain ⟨groupId, hgroupId, rfl⟩ := Option.map_eq_some_iff.mp hconv
    obtain rfl := Option.some.inj he
    have hgroup : isGroup payload = true := by simp [isGroup, hmessageType, hg]
    have hscope : conversationScope ("qq" ++ ":" ++ "group" ++ ":" ++ groupId) = some "group" :=
      conversationScope_append groupId (by decide) (by decide)
    rw [chatKind, if_pos hgroup]
    exact ⟨groupId, huser, hmessage, hgroupId, rfl, rfl, (if_pos hscope).trans (if_pos hgroup).symm⟩
  · obtain rfl := Option.some.inj hconv
    have hgroup : ¬ isGroup payload = true := by simp [isGroup, hmessageType, hg]
    have hscope : conversationScope ("qq" ++ ":" ++ "private" ++ ":" ++ userId) = some "private" :=
      conversationScope_append userId (by decide) (by decide)
    have hother : ¬ conversationScope ("qq" ++ ":" ++ "private" ++ ":" ++ userId) =
        some "group" := by
      rw [hscope]
      decide
    rw [chatKind, if_neg hgroup]
    exact ⟨userId, huser, hmessage, huser, rfl, rfl, (if_neg hother).trans (if_neg hgroup).symm⟩
  · cases hconv

theorem isTarget_iff_of_number {id number : String} (h : (Text.stripPrefix "qq:user:" id <|>
    Text.stripPrefix "qq:bot_uin:" id).getD id = number) :
    IsTarget id ↔ number ≠ "" ∧ number.toList.all Char.isDigit = true := by
  rw [IsTarget, normalizeQqTargetId, h]
  by_cases hbad : number = "" ∨ ¬ number.toList.all Char.isDigit = true
  · rw [if_pos hbad]
    rw [← not_not (a := number.toList.all Char.isDigit = true), ne_eq, ← not_or]
    exact iff_of_false (by rintro ⟨number, ⟨⟩⟩) (not_not.mpr hbad)
  · rw [if_neg hbad]
    push Not at hbad
    exact iff_of_true ⟨number, rfl⟩ hbad

theorem isTarget_user_iff {id : String} :
    IsTarget ("qq:user:" ++ id) ↔ id ≠ "" ∧ id.toList.all Char.isDigit = true := by
  apply isTarget_iff_of_number
  rw [Text.stripPrefix_append]
  rfl

theorem isTarget_toString_iff {n : ℤ} : IsTarget (toString n) ↔ 0 ≤ n := by
  have hq : 'q' ∉ (toString n).toList := fun h =>
    (Text.isDigit_of_mem_toString h).elim (by decide) (by decide)
  have hstrip : ∀ rest, Text.stripPrefix ("q" ++ rest) (toString n) = none := by
    intro rest
    rw [Text.stripPrefix, if_neg]
    rw [Text.startsWith_iff, String.toList_append]
    intro hpre
    exact hq (hpre.subset (by simp))
  have hnumber : (Text.stripPrefix "qq:user:" (toString n) <|>
      Text.stripPrefix "qq:bot_uin:" (toString n)).getD (toString n) = toString n := by
    have huser : Text.stripPrefix "qq:user:" (toString n) = none := hstrip "q:user:"
    have hbot : Text.stripPrefix "qq:bot_uin:" (toString n) = none := hstrip "q:bot_uin:"
    rw [huser, hbot]
    rfl
  rw [isTarget_iff_of_number hnumber, and_iff_right (Text.toString_ne_empty n),
    Text.toString_all_isDigit]

theorem isTarget_user_toString_iff {n : ℤ} : IsTarget ("qq:user:" ++ toString n) ↔ 0 ≤ n := by
  rw [isTarget_user_iff, and_iff_right (Text.toString_ne_empty n), Text.toString_all_isDigit]

end Context

section Text

/-- The message is nothing but text, and it does not name a message that it answers. -/
structure IsTextReply (message : OutboundMessage) : Prop where
  text : ∀ part ∈ message.parts, ∃ text, part = .text text
  noReply : message.replyTo = none

/-- Every message of a plan is compiled, the first one with the defaults of the context. -/
structure Compiles (context : DeliveryContext) (plan : OutboundPlan) : Prop where
  first : ∀ message ∈ plan.messages.head?, ∃ text,
    QqPlatform.compileMessage context true message = .ok text
  others : ∀ message ∈ plan.messages.tail, ∃ text,
    QqPlatform.compileMessage context false message = .ok text

/-- A delivery that is not rejected, whatever the API answers. -/
def NeverRejected {α : Type} (delivery : DeliveryM α) : Prop :=
  ∀ (e : ErrorResponse) (sent : List ApiRequest),
    Program.Runs Sends delivery [] (.error e) sent → e.errorCode ≠ "delivery_invalid_plan"

theorem compileTarget_isOk_iff {before after : String} {id? : Option String} :
    (∃ text, compileTarget before after id? = .ok text) ↔ ∀ id ∈ id?, IsTarget id := by
  cases id? with
  | none => simp [compileTarget]
  | some id =>
    simp only [compileTarget, Option.mem_def, Option.some.injEq, forall_eq', IsTarget]
    cases normalizeQqTargetId id <;> simp [Except.map]

theorem compileParts_isOk {parts : List MessagePart}
    (h : ∀ part ∈ parts, ∃ text, part = .text text) : ∃ text, compileParts parts = .ok text := by
  induction parts with
  | nil => exact ⟨_, rfl⟩
  | cons part parts ih =>
    obtain ⟨⟨text, rfl⟩, hparts⟩ := List.forall_mem_cons.mp h
    obtain ⟨rest, hrest⟩ := ih hparts
    exact ⟨encodeQqText text ++ rest, by rw [compileParts, hrest]; rfl⟩

theorem compileOutboundMessage_isOk_iff {replyTo mentionUserId : Option String}
    (h : ∀ part ∈ message.parts, ∃ text, part = .text text) :
    (∃ text, compileOutboundMessage message replyTo mentionUserId = .ok text) ↔
      (∀ id ∈ replyTo, IsTarget id) ∧ ∀ id ∈ mentionUserId, IsTarget id := by
  obtain ⟨parts, hparts⟩ := compileParts_isOk h
  rw [← @compileTarget_isOk_iff "[CQ:reply,id=" "]" replyTo,
    ← @compileTarget_isOk_iff "[CQ:at,qq=" "] " mentionUserId]
  simp only [compileOutboundMessage, compileHead, hparts]
  cases compileTarget "[CQ:reply,id=" "]" replyTo with
  | error err => simp [bind, Except.bind]
  | ok reply =>
    cases compileTarget "[CQ:at,qq=" "] " mentionUserId with
    | error err => simp [bind, Except.bind]
    | ok mention => simp [bind, Except.bind, pure, Except.pure]

theorem compileMessage_isOk_iff {isFirst : Bool} (h : IsTextReply message) :
    (∃ text, QqPlatform.compileMessage context isFirst message = .ok text) ↔
      (isFirst = true → (message.suppressDefaultReply = true ∨
        ∀ id ∈ context.replyToMessageId, IsTarget id) ∧
        ∀ id ∈ context.targetActorId, IsTarget id) := by
  rw [QqPlatform.compileMessage, compileOutboundMessage_isOk_iff h.text,
    OutboundMessage.effectiveReplyTo, h.noReply]
  cases isFirst with
  | false => cases message.suppressDefaultReply <;> simp
  | true => cases message.suppressDefaultReply <;> simp

theorem always_sendEncodedMessage {conversationId text : String} {sent : List ApiRequest}
    {Q : MessageResponse → List ApiRequest → Prop} (h : ∀ response sent', Q response sent') :
    Program.Always Sends (self.sendEncodedMessage conversationId text) Q
      (fun e _ => e.errorCode ≠ "delivery_invalid_plan") sent := by
  simp only [QqPlatform.sendEncodedMessage, Program.always_bind, Program.always_ofExcept]
  constructor
  · rintro ⟨path, payload⟩ -
    simp only [post, Program.always_call, Program.always_ret]
    rintro response sent' -
    exact ⟨fun r _ => h r sent', (notRejection_readNapcatResponse response).map sentMessage⟩
  · exact notRejection_messageRequest conversationId text

theorem always_sendMessages {messages : List OutboundMessage} {isFirst : Bool}
    {lastResponse : MessageResponse} {sent : List ApiRequest}
    (hfirst : ∀ message ∈ messages.head?, ∃ text,
      QqPlatform.compileMessage context isFirst message = .ok text)
    (hothers : ∀ message ∈ messages.tail, ∃ text,
      QqPlatform.compileMessage context false message = .ok text) :
    Program.Always Sends (self.sendMessages context isFirst lastResponse messages)
      (fun _ _ => True) (fun e _ => e.errorCode ≠ "delivery_invalid_plan") sent := by
  induction messages generalizing isFirst lastResponse sent with
  | nil => trivial
  | cons message messages ih =>
    obtain ⟨text, htext⟩ := hfirst message rfl
    rw [QqPlatform.sendMessages, htext]
    simp only [Except.mapError, Program.ofExcept, Program.ret_bind, Program.always_bind]
    apply always_sendEncodedMessage
    intro response sent'
    apply ih
    · exact fun next hnext => hothers next (List.mem_of_mem_head? hnext)
    · exact fun next hnext => hothers next (List.mem_of_mem_tail hnext)

/-- A plan of text messages that name no message that they answer. -/
structure IsTextPlan (plan : OutboundPlan) : Prop where
  messages : ∀ message ∈ plan.messages, IsTextReply message
  actions : plan.actions = []

theorem compiles_iff (hplan : IsTextPlan plan) : Compiles context plan ↔
    ∀ message ∈ plan.messages.head?, (message.suppressDefaultReply = true ∨
      ∀ id ∈ context.replyToMessageId, IsTarget id) ∧
      ∀ id ∈ context.targetActorId, IsTarget id := by
  have hhead : ∀ message ∈ plan.messages.head?, IsTextReply message := fun message hm =>
    hplan.messages message (List.mem_of_mem_head? hm)
  have htail : ∀ message ∈ plan.messages.tail, IsTextReply message := fun message hm =>
    hplan.messages message (List.mem_of_mem_tail hm)
  constructor
  · intro h message hm
    exact (compileMessage_isOk_iff (hhead message hm)).mp (h.first message hm) rfl
  · intro h
    constructor
    · intro message hm
      exact (compileMessage_isOk_iff (hhead message hm)).mpr fun _ => h message hm
    · intro message hm
      exact (compileMessage_isOk_iff (htail message hm)).mpr fun hfalse => by cases hfalse

theorem IsTextPlan.dispatchPlan (hplan : IsTextPlan plan) : dispatchPlan plan = .ok () := by
  rw [dispatchPlan_eq_ok_iff]
  intro path hpath
  obtain ⟨message, hm, part, hp, asset, hasset, -⟩ := mem_workspacePaths.mp hpath
  obtain ⟨text, rfl⟩ := (hplan.messages message hm).text part hp
  cases hasset

theorem neverRejected_sendPlan (hplan : IsTextPlan plan) (h : Compiles context plan) :
    NeverRejected (self.sendPlan context plan) := by
  intro e sent hruns
  have halways : Program.Always Sends (self.sendPlan context plan) (fun _ _ => True)
      (fun e _ => e.errorCode ≠ "delivery_invalid_plan") [] := by
    rw [QqPlatform.sendPlan, hplan.dispatchPlan, hplan.actions]
    exact always_sendMessages h.first h.others
  exact (hruns.post halways).2 e rfl

/-- The plan answers an event: its messages are compiled, and it is not rejected. -/
structure Answers (event : CanonicalEvent) (plan : OutboundPlan) : Prop where
  compiles : Compiles (deliveryContextFromEvent event) plan
  accepted : ∀ self : QqPlatform,
    NeverRejected (self.sendPlan (deliveryContextFromEvent event) plan)

/-- A payload with integer ids is answered by a plan of texts exactly if the ids that the first
message uses are not negative: the message that it replies to, and in a group its user. -/
theorem text_plan_answers_iff {messageId userId : ℤ}
    (hdecode : decodeNapcatEvent payload platformAccount = some event)
    (hmessage : payload.get "message_id" = some (.number (.int messageId)))
    (huser : payload.get "user_id" = some (.number (.int userId))) (hplan : IsTextPlan plan) :
    Answers event plan ↔ ∀ message ∈ plan.messages.head?,
      (message.suppressDefaultReply = true ∨ 0 ≤ messageId) ∧
        (isGroup payload = true → 0 ≤ userId) := by
  obtain ⟨userText, messageText, -, huserText, hmessageText, -, -, hreply, hactor⟩ :=
    decodeNapcatEvent_context hdecode
  obtain rfl : toString userId = userText := by
    rw [huser] at huserText
    exact Option.some.inj huserText
  obtain rfl : toString messageId = messageText := by
    rw [hmessage] at hmessageText
    exact Option.some.inj hmessageText
  have hcompiles : Compiles (deliveryContextFromEvent event) plan ↔
      ∀ message ∈ plan.messages.head?, (message.suppressDefaultReply = true ∨ 0 ≤ messageId) ∧
        (isGroup payload = true → 0 ≤ userId) := by
    have hmention : (∀ id ∈ if isGroup payload = true then some ("qq:user:" ++ toString userId)
        else none, IsTarget id) ↔ (isGroup payload = true → 0 ≤ userId) := by
      by_cases hg : isGroup payload = true
      · simp only [hg, if_true, Option.mem_some, forall_eq', isTarget_user_toString_iff,
          forall_const]
      · simp [hg]
    rw [compiles_iff hplan, hreply, hactor]
    simp only [Option.mem_some, forall_eq', isTarget_toString_iff, hmention]
  rw [← hcompiles]
  constructor
  · exact Answers.compiles
  · exact fun h => ⟨h, fun self => neverRejected_sendPlan hplan h⟩

/-- The ids of a payload are integers of 64 bits. -/
structure IntegerIds (payload : Value) (messageId userId groupId : ℤ) : Prop where
  message : payload.get "message_id" = some (.number (.int messageId))
  user : payload.get "user_id" = some (.number (.int userId))
  group : payload.get "group_id" = some (.number (.int groupId))
  fits : ∀ n ∈ [messageId, userId, groupId], -2 ^ 63 ≤ n ∧ n < 2 ^ 63

def integerPayload (messageType : String) (messageId userId groupId : ℤ) : Value :=
  .object [("post_type", .string "message"), ("message_type", .string messageType),
    ("message_id", .number (.int messageId)), ("user_id", .number (.int userId)),
    ("group_id", .number (.int groupId))]

def okPlan : OutboundPlan where
  messages := [{ parts := [.text "ok"], replyTo := none, suppressDefaultReply := false
                 deliveryPolicy := none }]
  actions := []
  deliveryReportPolicy := none

theorem isTextPlan_okPlan : IsTextPlan okPlan where
  messages := by
    intro message hm
    obtain rfl := List.mem_singleton.mp hm
    exact ⟨by simp, rfl⟩
  actions := rfl

theorem text_plan_answers_iff_positive : ∃ event,
    decodeNapcatEvent (integerPayload "group" 5 7 8) "qq:bot_uin:9" = some event ∧
      Answers event okPlan := by
  obtain ⟨event, h⟩ := Option.isSome_iff_exists.mp (by decide +kernel :
    (decodeNapcatEvent (integerPayload "group" 5 7 8) "qq:bot_uin:9").isSome = true)
  refine ⟨event, h, (text_plan_answers_iff h rfl rfl isTextPlan_okPlan).mpr ?_⟩
  intro message hm
  exact ⟨.inr (by decide), fun _ => by decide⟩

/-- A negative message id is no target of a reply. -/
theorem text_plan_fails : ¬ ∀ (payload : Value) (platformAccount : String)
    (event : CanonicalEvent) (messageId userId groupId : ℤ) (plan : OutboundPlan),
    decodeNapcatEvent payload platformAccount = some event →
    IntegerIds payload messageId userId groupId → IsTextPlan plan → Answers event plan := by
  intro hall
  obtain ⟨event, h⟩ := Option.isSome_iff_exists.mp (by decide +kernel :
    (decodeNapcatEvent (integerPayload "private" (-5) 7 8) "qq:bot_uin:9").isSome = true)
  have hanswers := hall _ _ _ _ _ _ okPlan h ⟨rfl, rfl, rfl, by decide⟩ isTextPlan_okPlan
  obtain ⟨text, htext⟩ := hanswers.compiles.first _ rfl
  obtain ⟨-, messageText, -, -, hmessage, -, -, hreply, -⟩ := decodeNapcatEvent_context h
  obtain rfl : toString (-5 : ℤ) = messageText := Option.some.inj hmessage
  obtain ⟨hreplies, -⟩ := (compileMessage_isOk_iff (isTextPlan_okPlan.messages _
    (List.mem_singleton_self _))).mp ⟨text, htext⟩ rfl
  rw [hreply] at hreplies
  have htarget := (hreplies.resolve_left (by decide)) _ rfl
  exact absurd (isTarget_toString_iff.mp htarget) (by decide)

end Text

end DogBot.Qq
