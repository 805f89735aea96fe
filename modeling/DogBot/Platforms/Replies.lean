import DogBot.Platforms.QqReactions
import DogBot.Platforms.QqReplies

/-! # Where replies go

The chat of a payload is written into a conversation by the decoder and read
from it by the sender. On QQ the sender needs a number, and takes zero for an id
that is none; on WeChatPadPro the id of a chat may be empty.
-/

namespace DogBot.Qq

open Json (Value)

/-- The integer that an id stands for, if it fits 64 bits. -/
def idNumber : Value → Option ℤ
  | .number (.int n) => (some n).filter fun n => -2 ^ 63 ≤ n ∧ n < 2 ^ 63
  | .number (.float text) | .string text => Text.parseI64 text
  | _ => none

/-- The number of the chat that a payload comes from. -/
def chatNumber (payload : Value) : Option ℤ := (payload.get (chatKind payload).key).bind idNumber

/-- A request to the chat that a payload comes from. -/
structure AddressedTo (platform : QqPlatform) (payload : Value) (request : ApiRequest) : Prop where
  url : request.url = platform.baseUrl ++ (chatKind payload).path
  id : ∃ n, chatNumber payload = some n ∧
    request.payload.get (chatKind payload).key = some (.number (.int n))

/-- Whatever the plan and the answers of the API, messages go to the chat of the payload; where its
id is no number that fits, an error is returned and nothing is sent. -/
structure RepliesGoBack (payload : Value) (event : CanonicalEvent) : Prop where
  addressed : ∀ (platform : QqPlatform) (plan : OutboundPlan) (o : Except ErrorResponse _)
    (sent : List ApiRequest), Program.Runs Sends
      (platform.sendPlan (deliveryContextFromEvent event) plan) [] o sent →
    ∀ request ∈ sent, ¬ platform.IsReaction request → AddressedTo platform payload request
  unrepresentable : chatNumber payload = none → ∀ (platform : QqPlatform) (plan : OutboundPlan)
    (o : Except ErrorResponse _) (sent : List ApiRequest), Program.Runs Sends
      (platform.sendPlan (deliveryContextFromEvent event) plan) [] o sent →
    (∃ e, o = .error e) ∧ sent = []

/-- There is an answer with messages of which something is sent. -/
def Answerable (event : CanonicalEvent) : Prop :=
  ∃ (platform : QqPlatform) (plan : OutboundPlan) (o : Except ErrorResponse _)
    (sent : List ApiRequest), plan.messages ≠ [] ∧ Program.Runs Sends
      (platform.sendPlan (deliveryContextFromEvent event) plan) [] o sent ∧ sent ≠ []

variable {payload : Value} {platformAccount : String} {event : CanonicalEvent}
  {context : DeliveryContext} {plan : OutboundPlan} {message : OutboundMessage} {self : QqPlatform}
  {chatId : String}

theorem idNumber_eq {value : Value} {text : String} (h : stringValue value = some text) :
    idNumber value = Text.parseI64 text := by
  cases value with
  | number n =>
    cases n with
    | int n =>
      obtain rfl : toString n = text := Option.some.inj h
      exact (Text.parseI64_toString n).symm
    | float literal =>
      obtain rfl : literal = text := Option.some.inj h
      rfl
  | string literal =>
    obtain rfl : literal = text := Option.some.inj h
    rfl
  | null | bool _ | array _ | object _ => cases h

theorem chatNumber_eq (h : (payload.get (chatKind payload).key).bind stringValue = some chatId) :
    chatNumber payload = Text.parseI64 chatId := by
  obtain ⟨value, hvalue, htext⟩ := Option.bind_eq_some_iff.mp h
  rw [chatNumber, hvalue]
  exact idNumber_eq htext

theorem parseConversationId_append {scope : String} (h : ':' ∉ scope.toList) (target : String) :
    parseConversationId ("qq" ++ ":" ++ scope ++ ":" ++ target) = some ("qq", scope, target) := by
  have hassoc : "qq" ++ ":" ++ scope ++ ":" ++ target =
      "qq" ++ ":" ++ (scope ++ ":" ++ target) := by
    simp only [String.append_assoc]
  have hfirst : Text.splitOnce ":" ("qq" ++ ":" ++ (scope ++ ":" ++ target)) =
      some ("qq", scope ++ ":" ++ target) := Text.splitOnce_append rfl (by decide)
  have hsecond : Text.splitOnce ":" (scope ++ ":" ++ target) = some (scope, target) :=
    Text.splitOnce_append rfl h
  rw [parseConversationId, hassoc, hfirst]
  change ((Text.splitOnce ":" (scope ++ ":" ++ target)).bind _) = _
  rw [hsecond]
  rfl

theorem messageRequest_chat (payload : Value) (chatId text : String) :
    ∃ body, messageRequest ("qq" ++ ":" ++ (chatKind payload).scope ++ ":" ++ chatId) text =
        .ok ((chatKind payload).path, body) ∧
      body.get (chatKind payload).key =
        some (.number (.int ((Text.parseI64 chatId).getD 0))) := by
  unfold chatKind
  split_ifs
  · have hparse := @parseConversationId_append groupChat.scope (by decide) chatId
    exact ⟨_, by rw [messageRequest, hparse]; rfl, rfl⟩
  · have hparse := @parseConversationId_append privateChat.scope (by decide) chatId
    exact ⟨_, by rw [messageRequest, hparse]; rfl, rfl⟩

/-- Messages go to the chat whose number is known. -/
theorem repliesGoBack_of_chatNumber
    (hdecode : decodeNapcatEvent payload platformAccount = some event)
    (h : (chatNumber payload).isSome = true) : RepliesGoBack payload event := by
  obtain ⟨n, hn⟩ := Option.isSome_iff_exists.mp h
  obtain ⟨-, -, chatId, -, -, hchat, hconversation, -, -⟩ := decodeNapcatEvent_context hdecode
  have hparse : Text.parseI64 chatId = some n := (chatNumber_eq hchat).symm.trans hn
  constructor
  · intro platform plan o sent hruns request hr hmessage
    have honly : (platform.sendPlan (deliveryContextFromEvent event) plan).Only
        fun request => ¬ platform.IsReaction request → AddressedTo platform payload request := by
      apply Program.Only.bind (Program.only_ofExcept _)
      intro _
      apply Program.Only.bind
      · exact QqPlatform.only_sendActions fun _ hnot => absurd rfl hnot
      · intro _
        apply QqPlatform.only_sendMessages
        intro text path body hrequest _
        obtain ⟨body', hbody', hkey⟩ := messageRequest_chat payload chatId text
        rw [hconversation, hbody'] at hrequest
        obtain ⟨rfl, rfl⟩ := Prod.mk.inj (Except.ok.inj hrequest)
        rw [hparse] at hkey
        exact ⟨rfl, n, hn, hkey⟩
    exact (requests_of_runs honly hruns request hr).elim (by simp) fun h => h hmessage
  · intro hnone
    rw [hnone] at h
    cases h

def plainPlan : OutboundPlan where
  messages := [{ parts := [.text "ok"], replyTo := none, suppressDefaultReply := true
                 deliveryPolicy := none }]
  actions := []
  deliveryReportPolicy := none

theorem isTextPlan_plainPlan : IsTextPlan plainPlan where
  messages := by
    intro message hm
    obtain rfl := List.mem_singleton.mp hm
    exact ⟨by simp, rfl⟩
  actions := rfl

/-- A message that can be sent is addressed only if the number of the chat is known. -/
theorem chatNumber_of_repliesGoBack
    (hdecode : decodeNapcatEvent payload platformAccount = some event)
    (h : RepliesGoBack payload event)
    (htargets : ∀ id ∈ (deliveryContextFromEvent event).targetActorId, IsTarget id) :
    (chatNumber payload).isSome = true := by
  obtain ⟨-, -, chatId, -, -, -, hconversation, -, -⟩ := decodeNapcatEvent_context hdecode
  let message := plainPlan.messages.get ⟨0, by decide⟩
  obtain ⟨text, htext⟩ := (@compileMessage_isOk_iff (deliveryContextFromEvent event) message true
    (isTextPlan_plainPlan.messages _ (List.mem_singleton_self _))).mpr
    fun _ => ⟨.inl rfl, htargets⟩
  obtain ⟨body, hbody, -⟩ := messageRequest_chat payload chatId text
  have hkind : messageKind (deliveryContextFromEvent event) true message = .sent := by
    rw [messageKind, htext]
    simp only [hconversation, hbody]
  let platform : QqPlatform := ⟨"http://napcat", platformAccount⟩
  have hsent := @QqPlatform.messagesSent_without_actions platform (deliveryContextFromEvent event)
    plainPlan QqPlatform.failingReactions isTextPlan_plainPlan.dispatchPlan ⟨message, rfl, hkind⟩
  obtain ⟨request, hr⟩ := List.exists_mem_of_ne_nil _ hsent
  obtain ⟨hr, hmessage⟩ := List.mem_filter.mp hr
  obtain ⟨-, n, hn, -⟩ := h.addressed platform plainPlan _ _
    (QqPlatform.runs_answer QqPlatform.failingReactions _ []) request hr (by simpa using hmessage)
  rw [hn]
  rfl

def reactionPlan : OutboundPlan :=
  { plainPlan with actions := [.reactionAdd { targetMessageId := "5", emoji := "👍" }] }

theorem answerable (event : CanonicalEvent) : Answerable event := by
  obtain ⟨body, hbody⟩ : ∃ body,
      reactionRequest { targetMessageId := "5", emoji := "👍" } = .ok body := by
    cases hrequest : reactionRequest { targetMessageId := "5", emoji := "👍" } with
    | ok body => exact ⟨body, rfl⟩
    | error e =>
      have hok : (reactionRequest { targetMessageId := "5", emoji := "👍" }).toBool = true := by
        decide +kernel
      rw [hrequest] at hok
      cases hok
  let platform : QqPlatform := ⟨"http://napcat", "qq:bot_uin:9"⟩
  have hcall : ∃ request next,
      platform.sendPlan (deliveryContextFromEvent event) reactionPlan = .call request next := by
    have hdispatch : dispatchPlan reactionPlan = .ok () := isTextPlan_plainPlan.dispatchPlan
    rw [QqPlatform.sendPlan, hdispatch]
    simp only [reactionPlan, QqPlatform.sendActions, QqPlatform.sendReactionAdd, hbody]
    exact ⟨_, _, rfl⟩
  obtain ⟨request, next, hcall⟩ := hcall
  refine ⟨platform, reactionPlan, _, _, by simp [reactionPlan, plainPlan], runs_runSuccessful _, ?_⟩
  rw [hcall]
  exact runSuccessful_call_ne_nil

theorem repliesGoBack_iff (hdecode : decodeNapcatEvent payload platformAccount = some event) :
    RepliesGoBack payload event ↔ (chatNumber payload).isSome = true := by
  constructor
  · intro h
    by_contra hnumber
    obtain ⟨platform, plan, o, sent, -, hruns, hsent⟩ := answerable event
    exact hsent (h.unrepresentable (Option.not_isSome_iff_eq_none.mp hnumber) _ _ _ _ hruns).2
  · exact repliesGoBack_of_chatNumber hdecode

end DogBot.Qq

namespace DogBot.WeChatPadPro

open Json (Value)

/-- The chat of an event: its group, or else its sender, which may be empty. -/
def chatOf (event : Value) : String := (extractGroupId event).getD (extractSender event)

def receiver (payload : Value) : Option Value :=
  match ((payload.get "MsgItem").bind Value.asArray).bind List.head? with
  | some item => item.get "ToUserName"
  | none => payload.get "toUserName"

/-- Whatever the plan and the answers of the API, requests go to the chat of the payload, and none
goes to the empty id; where there is no other, an error is returned and nothing is sent. -/
structure RepliesGoBack (debug : DebugFormat) (payload : Value) (event : CanonicalEvent) :
    Prop where
  addressed : ∀ (platform : WeChatPadProPlatform) (plan : OutboundPlan)
    (o : Except ErrorResponse _) (sent : List ApiRequest), Program.Runs Sends
      (platform.sendPlan debug (deliveryContextFromEvent event) plan) [] o sent →
    ∀ request ∈ sent, receiver request.payload = some (.string (chatOf (unwrapEvent payload))) ∧
      receiver request.payload ≠ some (.string "")
  unknown : chatOf (unwrapEvent payload) = "" → ∀ (platform : WeChatPadProPlatform)
    (plan : OutboundPlan) (o : Except ErrorResponse _) (sent : List ApiRequest),
    Program.Runs Sends
      (platform.sendPlan debug (deliveryContextFromEvent event) plan) [] o sent →
    (∃ e, o = .error e) ∧ sent = []

/-- There is an answer with messages of which something is sent. -/
def Answerable (debug : DebugFormat) (event : CanonicalEvent) : Prop :=
  ∃ (platform : WeChatPadProPlatform) (plan : OutboundPlan) (o : Except ErrorResponse _)
    (sent : List ApiRequest), plan.messages ≠ [] ∧ Program.Runs Sends
      (platform.sendPlan debug (deliveryContextFromEvent event) plan) [] o sent ∧ sent ≠ []

/-- A payload for the target of the conversation. -/
def ToTarget (context : DeliveryContext) (payload : Value) : Prop :=
  receiver payload = some (.string (conversationTarget context.conversationId))

/-- A request to an endpoint of the platform, with its key and for the target of the conversation. -/
structure WeChatPadProPlatform.Addresses (platform : WeChatPadProPlatform)
    (context : DeliveryContext) (request : ApiRequest) : Prop where
  url : request.url = platform.baseUrl ++ "/message/SendTextMessage" ∨
    request.url = platform.baseUrl ++ "/api/v1/message/sendFile"
  key : ∃ accountKey, platform.accountKey = some accountKey ∧
    request.query = [("key", accountKey)]
  target : ToTarget context request.payload

def OutboundRequest.payload : OutboundRequest → Value
  | .text payload | .file payload => payload

variable {debug : DebugFormat} {context : DeliveryContext} {parts : List MessagePart}
  {payload : Value} {event : CanonicalEvent} {flag : Bool} {requests : List OutboundRequest}
  {now : ℤ} {platformAccount : String} {mentionNames : List String}

theorem receiver_buildTextPayload (target text : String) (isGroup : Bool)
    (mentions : List MentionTarget) :
    receiver (buildTextPayload target text isGroup mentions) = some (.string target) := by
  unfold buildTextPayload
  dsimp only
  split_ifs <;> rfl

theorem toTarget_compileText
    (h : compileTextPayloadFromParts debug parts context flag = .ok (some payload)) :
    ToTarget context payload := by
  obtain ⟨text, mentions, -, -, rfl⟩ := exists_of_compileTextPayloadFromParts debug h
  exact receiver_buildTextPayload ..

theorem toTarget_compileFile {fileType : String} {asset : AssetRef}
    (h : compileFilePayload debug context fileType asset = .ok payload) :
    ToTarget context payload := by
  obtain ⟨filePath, -, h⟩ := Program.bind_eq_ok h
  split at h
  · cases h
  · obtain rfl := Except.ok.inj h
    rfl

/-- All requests are for the target of the conversation. -/
def AllToTarget (context : DeliveryContext) (requests : List OutboundRequest) : Prop :=
  ∀ request ∈ requests, ToTarget context request.payload

theorem AllToTarget.concat (h : AllToTarget context requests) {request : OutboundRequest}
    (hr : ToTarget context request.payload) : AllToTarget context (requests ++ [request]) := by
  intro request' hm
  obtain hm | hm := List.mem_append.mp hm
  · exact h request' hm
  · obtain rfl := List.mem_singleton.mp hm
    exact hr

theorem allToTarget_flushTextRequest {requests' : List OutboundRequest}
    (h : flushTextRequest debug requests parts context flag = .ok requests')
    (hr : AllToTarget context requests) : AllToTarget context requests' := by
  obtain ⟨payload?, hpayload, h⟩ := Program.bind_eq_ok h
  cases payload? with
  | none =>
    obtain rfl := Except.ok.inj h
    exact hr
  | some payload =>
    obtain rfl := Except.ok.inj h
    exact hr.concat (toTarget_compileText hpayload)

theorem allToTarget_addFile {fileType : String} {asset : AssetRef}
    {state' : List OutboundRequest × List MessagePart}
    (h : (do
      let requests ← flushTextRequest debug requests parts context flag
      let payload ← compileFilePayload debug context fileType asset
      return (requests ++ [.file payload], [])) = (.ok state' : Except String _))
    (hr : AllToTarget context requests) : AllToTarget context state'.1 := by
  obtain ⟨requests', hflush, h⟩ := Program.bind_eq_ok h
  obtain ⟨payload, hpayload, h⟩ := Program.bind_eq_ok h
  obtain rfl := Except.ok.inj h
  exact (allToTarget_flushTextRequest hflush hr).concat (toTarget_compileFile hpayload)

theorem allToTarget_addOutboundPart {state state' : List OutboundRequest × List MessagePart}
    {part : MessagePart} (h : addOutboundPart debug context flag state part = .ok state')
    (hr : AllToTarget context state.1) : AllToTarget context state'.1 := by
  obtain ⟨requests, textParts⟩ := state
  cases part with
  | text _ | mention _ _ | quote _ _ =>
    obtain rfl := Except.ok.inj h
    exact hr
  | image _ | video _ | file _ | voice _ | sticker _ => exact allToTarget_addFile h hr

theorem allToTarget_compileOutboundRequests {message : OutboundMessage}
    (h : compileOutboundRequests debug message context flag = .ok requests) :
    AllToTarget context requests := by
  obtain ⟨⟨requests', textParts⟩, hfold, h⟩ := Program.bind_eq_ok h
  obtain ⟨requests'', hflush, h⟩ := Program.bind_eq_ok h
  have hparts : AllToTarget context requests' :=
    @Program.foldlM_keeps _ _ _ _ (fun state => AllToTarget context state.1)
      allToTarget_addOutboundPart _ _ _ hfold (by simp [AllToTarget])
  have hall := allToTarget_flushTextRequest hflush hparts
  cases requests'' with
  | nil => cases h
  | cons request requests =>
    obtain rfl := Except.ok.inj h
    exact hall

section Addresses

variable {platform : WeChatPadProPlatform} {accountKey : String} {lastResponse : MessageResponse}
  {messages : List OutboundMessage} {plan : OutboundPlan}

theorem addresses_of_target (hkey : platform.accountKey = some accountKey)
    {request : OutboundRequest} (h : ToTarget context request.payload) :
    platform.Addresses context { url := platform.baseUrl ++ request.target.1
                                 query := [("key", accountKey)]
                                 payload := request.target.2.2 } := by
  cases request with
  | text payload => exact ⟨.inl rfl, ⟨accountKey, hkey, rfl⟩, h⟩
  | file payload => exact ⟨.inr rfl, ⟨accountKey, hkey, rfl⟩, h⟩

theorem only_sendRequests (hkey : platform.accountKey = some accountKey)
    (h : AllToTarget context requests) :
    (platform.sendRequests accountKey lastResponse requests).Only
      (platform.Addresses context) := by
  induction requests generalizing lastResponse with
  | nil => trivial
  | cons request requests ih =>
    obtain ⟨hhead, htail⟩ := List.forall_mem_cons.mp h
    apply Program.Only.bind
    · exact ⟨addresses_of_target hkey hhead, fun response => Program.only_ofExcept _⟩
    · exact fun response => ih htail

theorem only_sendMessages (hkey : platform.accountKey = some accountKey) :
    (platform.sendMessages debug context accountKey flag lastResponse messages).Only
      (platform.Addresses context) := by
  induction messages generalizing flag lastResponse with
  | nil => trivial
  | cons message messages ih =>
    rw [WeChatPadProPlatform.sendMessages]
    cases hcompile : compileOutboundRequests debug message context flag with
    | error err => trivial
    | ok requests =>
      apply Program.Only.bind
        (only_sendRequests hkey (allToTarget_compileOutboundRequests hcompile))
      exact fun response => ih

theorem only_sendPlan :
    (platform.sendPlan debug context plan).Only (platform.Addresses context) := by
  apply Program.Only.bind (Program.only_ofExcept _)
  intro _
  cases hkey : platform.accountKey with
  | none => trivial
  | some accountKey => exact only_sendMessages hkey

end Addresses

theorem conversationTarget_append {platform scope : String} (hplatform : ':' ∉ platform.toList)
    (hscope : ':' ∉ scope.toList) (target : String) :
    conversationTarget (platform ++ ":" ++ scope ++ ":" ++ target) = target := by
  have hassoc : platform ++ ":" ++ scope ++ ":" ++ target =
      platform ++ ":" ++ (scope ++ ":" ++ target) := by
    simp only [String.append_assoc]
  have hsecond : Text.splitOnce ":" (scope ++ ":" ++ target) = some (scope, target) :=
    Text.splitOnce_append rfl hscope
  rw [conversationTarget, hassoc, Text.splitOnce_append rfl hplatform, Option.bind_some]
  change ((Text.splitOnce ":" (scope ++ ":" ++ target)).map Prod.snd).getD "" = target
  rw [hsecond]
  rfl

theorem conversationTarget_conversationOf (event : Value) :
    conversationTarget (conversationOf event) = chatOf event := by
  unfold conversationOf chatOf
  cases extractGroupId event with
  | none => exact @conversationTarget_append "wechatpadpro" "private" (by decide) (by decide) _
  | some roomId => exact @conversationTarget_append "wechatpadpro" "group" (by decide) (by decide) _

theorem conversationId_of_decode
    (h : decodeWebhookEvent now payload platformAccount mentionNames = some event) :
    conversationTarget (deliveryContextFromEvent event).conversationId =
      chatOf (unwrapEvent payload) := by
  obtain ⟨-, -, h⟩ := Option.bind_eq_some_iff.mp h
  obtain ⟨messageId, -, h⟩ := Option.bind_eq_some_iff.mp h
  obtain rfl := Option.some.inj h
  exact conversationTarget_conversationOf (unwrapEvent payload)

/-- Every request goes to the chat of the payload, be its id empty or not. -/
theorem receiver_of_runs
    (hdecode : decodeWebhookEvent now payload platformAccount mentionNames = some event)
    {platform : WeChatPadProPlatform} {plan : OutboundPlan} {o : Except ErrorResponse _}
    {sent : List ApiRequest} (hruns : Program.Runs Sends
      (platform.sendPlan debug (deliveryContextFromEvent event) plan) [] o sent) :
    ∀ request ∈ sent, receiver request.payload = some (.string (chatOf (unwrapEvent payload))) := by
  intro request hr
  rw [← conversationId_of_decode hdecode]
  exact ((requests_of_runs only_sendPlan hruns request hr).resolve_left (by simp)).target

theorem sends_plainPlan (debug : DebugFormat) (context : DeliveryContext) :
    ∃ request next, WeChatPadProPlatform.sendPlan debug ⟨"http://pad", some "key", "bot", []⟩
      context Qq.plainPlan = .call request next := by
  let message := Qq.plainPlan.messages.get ⟨0, by decide⟩
  obtain ⟨payload, hpayload⟩ : ∃ payload,
      compileTextPayloadFromParts debug [.text "ok"] context true = .ok (some payload) := by
    have htrim : Text.trim ("" ++ "ok") ≠ "" := by decide +kernel
    rw [compileTextPayloadFromParts_eq debug (by simp) rfl, if_neg htrim]
    exact ⟨_, rfl⟩
  have hcompile : compileOutboundRequests debug message context true = .ok [.text payload] := by
    have hflush : flushTextRequest debug [] [.text "ok"] context true = .ok [.text payload] := by
      rw [flushTextRequest, hpayload]
      rfl
    change (flushTextRequest debug [] [.text "ok"] context true >>= _) = _
    rw [hflush]
    rfl
  rw [WeChatPadProPlatform.sendPlan, Qq.isTextPlan_plainPlan.dispatchPlan]
  change ∃ request next, WeChatPadProPlatform.sendMessages debug _ context "key" true
    { status := "ok", messageId := none } [message] = .call request next
  rw [WeChatPadProPlatform.sendMessages, hcompile]
  exact ⟨_, _, rfl⟩

theorem answerable (debug : DebugFormat) (event : CanonicalEvent) : Answerable debug event := by
  obtain ⟨request, next, hcall⟩ := sends_plainPlan debug (deliveryContextFromEvent event)
  refine ⟨⟨"http://pad", some "key", "bot", []⟩, Qq.plainPlan, _, _, by simp [Qq.plainPlan],
    runs_runSuccessful _, ?_⟩
  rw [hcall]
  exact runSuccessful_call_ne_nil

theorem repliesGoBack_iff
    (hdecode : decodeWebhookEvent now payload platformAccount mentionNames = some event) :
    RepliesGoBack debug payload event ↔ chatOf (unwrapEvent payload) ≠ "" := by
  constructor
  · intro h hempty
    obtain ⟨platform, plan, o, sent, -, hruns, hsent⟩ := answerable debug event
    exact hsent (h.unknown hempty _ _ _ _ hruns).2
  · intro hne
    constructor
    · intro platform plan o sent hruns request hr
      have hreceiver := receiver_of_runs hdecode hruns request hr
      rw [hreceiver]
      exact ⟨rfl, by simpa using hne⟩
    · exact fun hempty => absurd hempty hne

end DogBot.WeChatPadPro

namespace DogBot

open Json (Value)

/-- On QQ, replies go back exactly if the id of the chat is a number that fits 64 bits. On
WeChatPadPro they always go to the chat that was extracted, and never to the empty id exactly if one
was. For every payload, something is sent of an answer with messages, so that the condition does not
depend on plans without any. -/
theorem replies_go_back_iff (debug : WeChatPadPro.DebugFormat) :
    (∀ (payload : Value) (platformAccount : String) (event : CanonicalEvent),
      Qq.decodeNapcatEvent payload platformAccount = some event →
      (Qq.RepliesGoBack payload event ↔ (Qq.chatNumber payload).isSome = true) ∧
      Qq.Answerable event) ∧
    ∀ (now : ℤ) (payload : Value) (platformAccount : String) (mentionNames : List String)
      (event : CanonicalEvent),
      WeChatPadPro.decodeWebhookEvent now payload platformAccount mentionNames = some event →
      (∀ (platform : WeChatPadPro.WeChatPadProPlatform) (plan : OutboundPlan)
        (o : Except ErrorResponse _) (sent : List ApiRequest), Program.Runs Sends
          (platform.sendPlan debug (deliveryContextFromEvent event) plan) [] o sent →
        ∀ request ∈ sent, WeChatPadPro.receiver request.payload =
          some (.string (WeChatPadPro.chatOf (WeChatPadPro.unwrapEvent payload)))) ∧
      (WeChatPadPro.RepliesGoBack debug payload event ↔
        WeChatPadPro.chatOf (WeChatPadPro.unwrapEvent payload) ≠ "") ∧
      WeChatPadPro.Answerable debug event :=
  ⟨fun _ _ event hdecode => ⟨Qq.repliesGoBack_iff hdecode, Qq.answerable event⟩,
    fun _ _ _ _ event hdecode => ⟨fun _ _ _ _ hruns =>
      WeChatPadPro.receiver_of_runs hdecode hruns, WeChatPadPro.repliesGoBack_iff hdecode,
      WeChatPadPro.answerable debug event⟩⟩

def fractionPayload : Value :=
  .object [("post_type", .string "message"), ("message_type", .string "group"),
    ("message_id", .number (.int 5)), ("user_id", .number (.int 7)),
    ("group_id", .number (.float "8.5"))]

theorem replies_go_back_iff_integer : ∃ event,
    Qq.decodeNapcatEvent (Qq.integerPayload "group" 5 7 8) "qq:bot_uin:9" = some event ∧
      Qq.RepliesGoBack (Qq.integerPayload "group" 5 7 8) event := by
  obtain ⟨event, h⟩ := Option.isSome_iff_exists.mp (by decide +kernel :
    (Qq.decodeNapcatEvent (Qq.integerPayload "group" 5 7 8) "qq:bot_uin:9").isSome = true)
  have hiff := (replies_go_back_iff ⟨fun _ => "", fun _ => ""⟩).1 _ _ _ h
  exact ⟨event, h, hiff.1.mpr rfl⟩

/-- A reply to the group `8.5` goes to the group `0`. -/
theorem reply_to_default_group : ¬ ∀ (payload : Value) (platformAccount : String)
    (event : CanonicalEvent), Qq.decodeNapcatEvent payload platformAccount = some event →
    Qq.RepliesGoBack payload event := by
  intro hall
  obtain ⟨event, h⟩ := Option.isSome_iff_exists.mp (by decide +kernel :
    (Qq.decodeNapcatEvent fractionPayload "qq:bot_uin:9").isSome = true)
  obtain ⟨userId, -, -, huser, -, -, -, -, hactor⟩ := Qq.decodeNapcatEvent_context h
  obtain rfl : toString (7 : ℤ) = userId := Option.some.inj huser
  have htargets : ∀ id ∈ (deliveryContextFromEvent event).targetActorId, Qq.IsTarget id := by
    intro id hid
    obtain rfl := Option.some.inj (hactor.symm.trans hid)
    exact Qq.isTarget_user_toString_iff.mpr (by decide)
  have hnumber := Qq.chatNumber_of_repliesGoBack h (hall _ _ _ h) htargets
  exact absurd hnumber (by decide)

end DogBot
