import DogBot.Exec.Grants
import DogBot.Platforms.WeChatPadPro
import DogBot.Server.RunScheduler
import DogBot.Server.Requests

/-! # Who a private message is from

The content of a private payload may name a sender in front of the text, and
that name counts more than the envelope. Two private payloads that differ in
nothing but their content therefore belong to the same parties only if a sender
field decides, or if their contents do not name different senders.
-/

namespace DogBot.WeChatPadPro

open Json

variable {e e₁ e₂ : Value}

/-- The events agree on every key but those of the content. -/
def AgreeExceptContent (e₁ e₂ : Value) : Prop := ∀ key, key ∉ contentKeys → e₁.get key = e₂.get key

/-- The content starts with a name, a colon and a line break. -/
def HasTransportPrefix (event : Value) (sender : String) : Prop :=
  sender ≠ "" ∧ sender.toList.all isSenderChar = true ∧
    ∃ body, extractRawContent event = sender ++ ":\n" ++ body

/-- A sender field decides, or the contents name the same sender if any, or the only sender
that one of them names is the one of the envelope. -/
def SenderFixed (e₁ e₂ : Value) : Prop :=
  (∃ key ∈ senderKeys, ∃ value, (e₁.get key).bind stringValue = some value ∧
    Text.trim value ≠ "") ∨
  (∀ sender, HasTransportPrefix e₁ sender ↔ HasTransportPrefix e₂ sender) ∨
  (HasTransportPrefix e₁ (envelopeSender e₁) ∧ ∀ sender, ¬ HasTransportPrefix e₂ sender) ∨
  (HasTransportPrefix e₂ (envelopeSender e₁) ∧ ∀ sender, ¬ HasTransportPrefix e₁ sender)

theorem isWhitespace_of_isSenderChar {c : Char} (h : isSenderChar c = true) :
    Text.isWhitespace c = false := by
  simp only [isSenderChar, Text.isAsciiAlphanumeric, Bool.or_eq_true, Bool.and_eq_true,
    decide_eq_true_eq, beq_iff_eq] at h
  have hn : (48 ≤ c.toNat ∧ c.toNat ≤ 57) ∨ (65 ≤ c.toNat ∧ c.toNat ≤ 90) ∨
      (97 ≤ c.toNat ∧ c.toNat ≤ 122) ∨ c.toNat = 95 ∨ c.toNat = 64 ∨ c.toNat = 45 := by
    rcases h with (((((h | h) | h) | rfl) | rfl) | rfl)
    · exact .inl h
    · exact .inr (.inl h)
    · exact .inr (.inr (.inl h))
    · decide
    · decide
    · decide
  simp only [Text.isWhitespace, Bool.or_eq_false_iff, Bool.and_eq_false_iff,
    decide_eq_false_iff_not, beq_eq_false_iff_ne]
  omega

/-- The sender named by the content of an event. -/
def transportSender (event : Value) : Option String :=
  (parseTransportPrefixedContent (extractRawContent event)).1

theorem transportSender_eq_some_iff {sender : String} :
    transportSender e = some sender ↔ HasTransportPrefix e sender := by
  have htrim : Text.trim (extractRawContent e) = extractRawContent e := Text.trim_trim _
  have hself : ∀ {s : String}, s.toList.all isSenderChar = true → Text.trim s = s := fun h =>
    Text.trim_eq_self fun c hc => isWhitespace_of_isSenderChar (List.all_eq_true.mp h c hc)
  unfold transportSender parseTransportPrefixedContent HasTransportPrefix
  rw [htrim]
  constructor
  · intro h
    cases hs : Text.splitOnce ":\n" (extractRawContent e) with
    | none => simp [hs] at h
    | some parts =>
      obtain ⟨found, body⟩ := parts
      simp only [hs] at h
      split_ifs at h with hbad
      push Not at hbad
      rw [hself hbad.2, Option.some.injEq] at h
      subst h
      refine ⟨hbad.1, hbad.2, body, ?_⟩
      obtain ⟨⟨a, b⟩, hab, hparts⟩ := Option.map_eq_some_iff.mp hs
      cases hparts
      rw [← String.toList_inj]
      simpa using Text.eq_of_splitOnceChars hab
  · rintro ⟨hne, hall, body, hbody⟩
    have hcolon : ':' ∉ sender.toList := fun hc => by
      have := List.all_eq_true.mp hall _ hc
      exact absurd this (by decide)
    have hsplit : Text.splitOnce ":\n" (extractRawContent e) = some (sender, body) := by
      have := @Text.splitOnceChars_append ':' sender.toList body.toList ['\n'] hcolon
      rw [Text.splitOnce, hbody]
      simp only [String.toList_append]
      rw [show (":\n" : String).toList = [':', '\n'] from rfl, this]
      simp
    simp only [hsplit]
    rw [if_neg (by simp [hne, hall]), hself hall]

theorem findSome?_get_congr (h : AgreeExceptContent e₁ e₂) {keys : List String}
    (hk : ∀ key ∈ keys, key ∉ contentKeys) : keys.findSome? e₁.get = keys.findSome? e₂.get := by
  induction keys with
  | nil => rfl
  | cons key keys ih =>
    obtain ⟨hkey, hkeys⟩ := List.forall_mem_cons.mp hk
    rw [List.findSome?_cons, List.findSome?_cons, h key hkey, ih hkeys]

theorem firstText_congr (h : AgreeExceptContent e₁ e₂) {keys : List String}
    (hk : ∀ key ∈ keys, key ∉ contentKeys) (accept : String → Bool) :
    firstText keys accept e₁ = firstText keys accept e₂ := by
  unfold firstText
  induction keys with
  | nil => rfl
  | cons key keys ih =>
    obtain ⟨hkey, hkeys⟩ := List.forall_mem_cons.mp hk
    rw [List.findSome?_cons, List.findSome?_cons, h key hkey, ih hkeys]

theorem envelopeSender_congr (h : AgreeExceptContent e₁ e₂) :
    envelopeSender e₁ = envelopeSender e₂ := by
  unfold envelopeSender
  rw [findSome?_get_congr h (by decide)]

theorem extractGroupId_congr (h : AgreeExceptContent e₁ e₂) :
    extractGroupId e₁ = extractGroupId e₂ := by
  unfold extractGroupId
  rw [firstText_congr h (by decide), firstText_congr h (by decide)]

theorem exists_firstText_iff {keys : List String} :
    (∃ text, firstText keys isNonEmpty e = some text) ↔
      ∃ key ∈ keys, ∃ value, (e.get key).bind stringValue = some value ∧ Text.trim value ≠ "" := by
  rw [← Option.isSome_iff_exists, firstText, List.findSome?_isSome_iff]
  refine exists_congr fun key => and_congr_right fun _ => ?_
  cases (e.get key).bind stringValue with
  | none => simp
  | some value => by_cases hv : Text.trim value = "" <;> simp [isNonEmpty, hv]

theorem extractSender_of_field {sender : String}
    (h : firstText senderKeys isNonEmpty e = some sender) : extractSender e = sender := by
  rw [extractSender, h]

theorem extractSender_of_no_field (h : firstText senderKeys isNonEmpty e = none) :
    extractSender e = (transportSender e).getD (envelopeSender e) := by
  rw [extractSender, h, transportSender]
  cases (parseTransportPrefixedContent (extractRawContent e)).1 <;> rfl

/-- Two events that agree except in their content have the same sender iff the sender does not
hang on what the contents name. -/
theorem extractSender_eq_iff (h : AgreeExceptContent e₁ e₂) :
    extractSender e₁ = extractSender e₂ ↔ SenderFixed e₁ e₂ := by
  have hfield : firstText senderKeys isNonEmpty e₁ = firstText senderKeys isNonEmpty e₂ :=
    firstText_congr h (by decide) _
  unfold SenderFixed
  rw [← exists_firstText_iff]
  simp only [← transportSender_eq_some_iff]
  cases hf : firstText senderKeys isNonEmpty e₁ with
  | some sender =>
    rw [extractSender_of_field hf, extractSender_of_field (hfield.symm.trans hf)]
    simp
  | none =>
    rw [extractSender_of_no_field hf, extractSender_of_no_field (hfield.symm.trans hf),
      ← envelopeSender_congr h]
    cases transportSender e₁ <;> cases transportSender e₂ <;> simp [eq_comm]

/-- The parties of an accepted event are those that its payload names. -/
theorem decodeWebhookEvent_parties {now : ℤ} {payload : Value} {account : String}
    {mentionNames : List String} {event : CanonicalEvent}
    (h : decodeWebhookEvent now payload account mentionNames = some event) :
    event.platform = "wechatpadpro" ∧ event.platformAccount = account ∧
      event.actor = "wechatpadpro:user:" ++ extractSender (unwrapEvent payload) ∧
      event.conversation = conversationOf (unwrapEvent payload) := by
  simp only [decodeWebhookEvent, Option.bind_eq_bind, Option.bind_eq_some_iff,
    Option.pure_def, Option.some.injEq] at h
  obtain ⟨-, -, messageId, -, rfl⟩ := h
  exact ⟨rfl, rfl, rfl, rfl⟩

theorem decodeWebhookEvent_private {now : ℤ} {payload : Value} {account : String}
    {mentionNames : List String} {event : CanonicalEvent}
    (h : decodeWebhookEvent now payload account mentionNames = some event)
    (hgroup : extractGroupId (unwrapEvent payload) = none) :
    event.platform = "wechatpadpro" ∧ event.platformAccount = account ∧
      event.actor = "wechatpadpro:user:" ++ extractSender (unwrapEvent payload) ∧
      event.conversation = "wechatpadpro:private:" ++ extractSender (unwrapEvent payload) := by
  obtain ⟨hplatform, haccount, hactor, hconv⟩ := decodeWebhookEvent_parties h
  exact ⟨hplatform, haccount, hactor, by simp only [hconv, conversationOf, hgroup]⟩

/-- Both events have the same actor and conversation, and with them the runs have the same
session, scheduler key, delivery target and history grants. -/
structure SameParties (settings : Settings) (event₁ event₂ : CanonicalEvent) : Prop where
  actor : event₁.actor = event₂.actor
  conversation : event₁.conversation = event₂.conversation
  delivery : (deliveryContextFromEvent event₁).conversationId =
      (deliveryContextFromEvent event₂).conversationId ∧
    (deliveryContextFromEvent event₁).targetActorId =
      (deliveryContextFromEvent event₂).targetActorId
  request : ∀ request₁ request₂, buildRunRequestFromEvent event₁ = some request₁ →
    buildRunRequestFromEvent event₂ = some request₂ →
    (request₁.platform = request₂.platform ∧
      request₁.platformAccountId = request₂.platformAccountId ∧
      request₁.conversationId = request₂.conversationId ∧
      request₁.sessionId = request₂.sessionId) ∧
    conversationKeyForRequest request₁ = conversationKeyForRequest request₂ ∧
    historyReadGrantsForRequest settings request₁ = historyReadGrantsForRequest settings request₂

theorem SameParties.of_eq {settings : Settings} {event₁ event₂ : CanonicalEvent}
    (hplatform : event₁.platform = event₂.platform)
    (haccount : event₁.platformAccount = event₂.platformAccount)
    (hactor : event₁.actor = event₂.actor)
    (hconv : event₁.conversation = event₂.conversation) : SameParties settings event₁ event₂ := by
  refine ⟨hactor, hconv, ⟨hconv, ?_⟩, ?_⟩
  · simp only [deliveryContextFromEvent, hactor, hconv]
  · intro request₁ request₂ h₁ h₂
    obtain ⟨message₁, -, rfl⟩ := Option.map_eq_some_iff.mp h₁
    obtain ⟨message₂, -, rfl⟩ := Option.map_eq_some_iff.mp h₂
    simp [conversationKeyForRequest, historyReadGrantsForRequest, isAdminPrivateHistoryRequest,
      adminHistoryPlatformAccounts, hplatform, haccount, hactor, hconv]

/-- Two accepted private payloads that agree except in their content belong to the same parties
iff the sender does not hang on what the contents name. -/
theorem sameParties_iff (settings : Settings) {now₁ now₂ : ℤ} {payload₁ payload₂ : Value}
    {account : String} {mentionNames : List String} {event₁ event₂ : CanonicalEvent}
    (hagree : AgreeExceptContent (unwrapEvent payload₁) (unwrapEvent payload₂))
    (hgroup : extractGroupId (unwrapEvent payload₁) = none)
    (h₁ : decodeWebhookEvent now₁ payload₁ account mentionNames = some event₁)
    (h₂ : decodeWebhookEvent now₂ payload₂ account mentionNames = some event₂) :
    SameParties settings event₁ event₂ ↔
      SenderFixed (unwrapEvent payload₁) (unwrapEvent payload₂) := by
  obtain ⟨hp₁, ha₁, hactor₁, hconv₁⟩ := decodeWebhookEvent_private h₁ hgroup
  obtain ⟨hp₂, ha₂, hactor₂, hconv₂⟩ :=
    decodeWebhookEvent_private h₂ (extractGroupId_congr hagree ▸ hgroup)
  rw [← extractSender_eq_iff hagree]
  constructor
  · intro h
    have := h.actor
    rw [hactor₁, hactor₂] at this
    exact (String.append_right_inj _).mp this
  · intro h
    refine .of_eq (hp₁.trans hp₂.symm) (ha₁.trans ha₂.symm) ?_ ?_
    · rw [hactor₁, hactor₂, h]
    · rw [hconv₁, hconv₂, h]

/-- A private message from one user, with a given content. -/
def privatePayload (content : String) : Value :=
  .object [("fromUserName", .string "wxid_a"), ("content", .string content),
    ("msgId", .string "1"), ("createTime", .number (.int 0))]

/-- The settings of an installation with one administrator. -/
def adminSettings : Settings where
  platformQqAccountId := none
  platformWechatpadproAccountId := some "wechatpadpro:account:bot"
  historyRunTokenTtlSecs := 600
  adminActorIds := ["wechatpadpro:user:wxid_admin"]

theorem agree_privatePayload (content₁ content₂ : String) :
    AgreeExceptContent (unwrapEvent (privatePayload content₁))
      (unwrapEvent (privatePayload content₂)) := by
  intro key hkey
  have hne : key ≠ "content" := by rintro rfl; exact hkey (by decide)
  change (privatePayload content₁).get key = (privatePayload content₂).get key
  simp [privatePayload, Value.get, List.lookup_cons, beq_false_of_ne hne]

theorem exists_decode_private {content : String}
    (h : (decodeWebhookEvent 0 (privatePayload content)
      "wechatpadpro:account:bot" []).isSome = true)
    {sender : String} (hs : extractSender (unwrapEvent (privatePayload content)) = sender) :
    ∃ event,
      decodeWebhookEvent 0 (privatePayload content) "wechatpadpro:account:bot" [] = some event ∧
      event.actor = "wechatpadpro:user:" ++ sender ∧
      event.conversation = "wechatpadpro:private:" ++ sender := by
  obtain ⟨event, hevent⟩ := Option.isSome_iff_exists.mp h
  obtain ⟨-, -, hactor, hconv⟩ := decodeWebhookEvent_private hevent rfl
  exact ⟨event, hevent, hs ▸ hactor, hs ▸ hconv⟩

theorem sameParties_iff_plain : ∃ event₁ event₂,
    decodeWebhookEvent 0 (privatePayload "hello") "wechatpadpro:account:bot" [] = some event₁ ∧
    decodeWebhookEvent 0 (privatePayload "bye") "wechatpadpro:account:bot" [] = some event₂ ∧
    (SameParties adminSettings event₁ event₂ ↔
      SenderFixed (unwrapEvent (privatePayload "hello")) (unwrapEvent (privatePayload "bye"))) := by
  obtain ⟨event₁, h₁, -⟩ := @exists_decode_private "hello" (by decide +kernel) _ rfl
  obtain ⟨event₂, h₂, -⟩ := @exists_decode_private "bye" (by decide +kernel) _ rfl
  exact ⟨event₁, event₂, h₁, h₂,
    sameParties_iff adminSettings (agree_privatePayload _ _) rfl h₁ h₂⟩

/-- By what a user types in a private chat, the run is taken for one of the administrator. -/
theorem private_content_changes_parties :
    AgreeExceptContent (unwrapEvent (privatePayload "hello"))
        (unwrapEvent (privatePayload "wxid_admin:\nhello")) ∧
      extractGroupId (unwrapEvent (privatePayload "hello")) = none ∧
      extractGroupId (unwrapEvent (privatePayload "wxid_admin:\nhello")) = none ∧
      ∃ event₁ event₂,
        decodeWebhookEvent 0 (privatePayload "hello") "wechatpadpro:account:bot" [] = some event₁ ∧
        decodeWebhookEvent 0 (privatePayload "wxid_admin:\nhello") "wechatpadpro:account:bot" [] =
          some event₂ ∧
        event₁.actor = "wechatpadpro:user:wxid_a" ∧
        event₂.actor = "wechatpadpro:user:wxid_admin" ∧
        event₁.conversation ≠ event₂.conversation ∧
        ∀ request, buildRunRequestFromEvent event₂ = some request →
          isAdminPrivateHistoryRequest adminSettings request = true := by
  refine ⟨agree_privatePayload _ _, rfl, rfl, ?_⟩
  obtain ⟨event₁, h₁, hactor₁, hconv₁⟩ :=
    @exists_decode_private "hello" (by decide +kernel) "wxid_a" (by decide +kernel)
  obtain ⟨event₂, h₂, hactor₂, hconv₂⟩ :=
    @exists_decode_private "wxid_admin:\nhello" (by decide +kernel) "wxid_admin" (by decide +kernel)
  refine ⟨event₁, event₂, h₁, h₂, hactor₁, hactor₂, ?_, ?_⟩
  · rw [hconv₁, hconv₂]; decide
  · intro request hrequest
    obtain ⟨message, -, rfl⟩ := Option.map_eq_some_iff.mp hrequest
    have hscope : conversationScope event₂.conversation = some "private" := by
      rw [hconv₂]; decide +kernel
    have hadmin : event₂.actor ∈ adminSettings.adminActorIds := by
      rw [hactor₂]; decide
    simp only [isAdminPrivateHistoryRequest, hscope, hadmin, decide_true, Bool.and_self]

end DogBot.WeChatPadPro
