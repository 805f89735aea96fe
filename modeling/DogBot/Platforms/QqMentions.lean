import DogBot.Platforms.Adapters
import DogBot.TriggerResolver

/-! # The configured QQ bot

The number of the bot is read off the platform account, which is configured
beside the number. Where the account does not name the number, the mentions of
the bot are those of somebody else, and a group message that mentions the bot is
ignored.
-/

namespace DogBot.Qq

open Json

/-- The number of a segment that mentions somebody. -/
def atNumber (segment : Value) : Option String :=
  if (segment.get "type").bind Value.asStr = some "at" then
    (((segment.get "data").getD .null).get "qq").bind stringValue
  else none

/-- The numbers that the segments of a message mention. -/
def atNumbers (payload : Value) : List String :=
  (((payload.get "message").bind Value.asArray).getD []).filterMap atNumber

/-- The number of the bot, as the decoder takes it from the account. -/
def botUin (platformAccount : String) : String :=
  (Text.stripPrefix "qq:bot_uin:" platformAccount).getD ""

/-- The account names a number: by the prefix of bots, or as a user. An account without the prefix
names the empty number, too. -/
def NamesNumber (platformAccount qq : String) : Prop :=
  platformAccount = "qq:bot_uin:" ++ qq ∨ platformAccount = normalizeActorId qq "qq:user:" ∨
    (qq = "" ∧ Text.startsWith "qq:bot_uin:" platformAccount = false)

instance (platformAccount qq : String) : Decidable (NamesNumber platformAccount qq) :=
  inferInstanceAs (Decidable (_ ∨ _ ∨ _))

/-- The account is among the mentions of the event, and the event is not ignored. -/
structure Detected (platformAccount : String) (event : CanonicalEvent) : Prop where
  mentioned : ∃ message, event.kind = .message message ∧ platformAccount ∈ message.mentions
  resolved : resolve event ≠ .ignore

variable {envMap : EnvMap} {settings : RunnerSettings} {payload segment : Value}
  {event : CanonicalEvent} {platformAccount uin qq b : String}

theorem botUin_eq_iff : botUin platformAccount = qq ↔
    platformAccount = "qq:bot_uin:" ++ qq ∨
      (qq = "" ∧ Text.startsWith "qq:bot_uin:" platformAccount = false) := by
  by_cases hp : Text.startsWith "qq:bot_uin:" platformAccount = true
  · obtain ⟨number, hnumber⟩ := Text.startsWith_iff.mp hp
    obtain rfl : platformAccount = "qq:bot_uin:" ++ String.ofList number := by
      rw [← String.toList_inj, ← hnumber, String.toList_append]
      simp
    rw [botUin, Text.stripPrefix_append, Option.getD_some, hp]
    simp [eq_comm]
  · have hne : platformAccount ≠ "qq:bot_uin:" ++ qq := by
      rintro rfl
      exact hp (Text.startsWith_iff.mpr (by simp))
    rw [botUin, Text.stripPrefix, if_neg hp, Option.getD_none]
    simp [hne, hp, eq_comm]

theorem mentionPart_names_iff :
    mentionedActor (mentionPart platformAccount (botUin platformAccount) qq) =
      some platformAccount ↔ NamesNumber platformAccount qq := by
  rw [mentionPart, mentionedActor, Option.some.injEq, NamesNumber, or_left_comm, ← botUin_eq_iff]
  split_ifs with h
  · simp [h]
  · simp [Ne.symm h, eq_comm]

theorem parseSegment_mentionedActor :
    (parseSegment platformAccount uin segment).bind mentionedActor =
      (atNumber segment).bind fun qq => mentionedActor (mentionPart platformAccount uin qq) := by
  unfold parseSegment atNumber
  cases htype : (segment.get "type").bind Value.asStr with
  | none => simp
  | some segmentType =>
    simp only [Option.some.injEq]
    split_ifs with htext hat
    · exact absurd (htext.symm.trans hat) (by decide)
    · rw [Option.bind_map, Option.bind_none, Option.bind_eq_none_iff]
      exact fun _ _ => rfl
    · rw [Option.bind_map]
      rfl
    · rfl

theorem parseMessageParts_mentions :
    (parseMessageParts (payload.get "message") platformAccount uin).filterMap mentionedActor =
      (atNumbers payload).filterMap fun qq =>
        mentionedActor (mentionPart platformAccount uin qq) := by
  unfold parseMessageParts atNumbers
  cases (payload.get "message").bind Value.asArray with
  | none => rfl
  | some segments =>
    rw [Option.getD_some, List.filterMap_filterMap, List.filterMap_filterMap]
    exact List.filterMap_congr fun _ _ => parseSegment_mentionedActor

theorem messageParts_mentions (hat : atNumbers payload ≠ []) (rawMessage : String) :
    (messageParts payload platformAccount uin rawMessage).filterMap mentionedActor =
      (atNumbers payload).filterMap fun qq =>
        mentionedActor (mentionPart platformAccount uin qq) := by
  have hne : (parseMessageParts (payload.get "message") platformAccount uin).filterMap
      mentionedActor ≠ [] := by
    obtain ⟨qq, hqq⟩ := List.exists_mem_of_ne_nil _ hat
    rw [parseMessageParts_mentions]
    exact List.ne_nil_of_mem (List.mem_filterMap.mpr ⟨qq, hqq, rfl⟩)
  rw [messageParts, if_neg hne, parseMessageParts_mentions]

/-- A group message whose segments mention somebody mentions the account exactly if the account
names one of their numbers. -/
theorem detected_iff (hgroup : payload.get "message_type" = some (.string "group"))
    (hat : atNumbers payload ≠ [])
    (hevent : decodeNapcatEvent payload platformAccount = some event) :
    Detected platformAccount event ↔ ∃ qq ∈ atNumbers payload, NamesNumber platformAccount qq := by
  obtain ⟨message, hkind, haccount, hparts, hmentions, hconv⟩ := decodeNapcatEvent_eq_some hevent
  obtain ⟨groupId, hconv⟩ := hconv hgroup
  have hscope : conversationScope event.conversation = some "group" := by
    have hprefix : "qq:group:" = "qq" ++ ":" ++ "group" ++ ":" := by decide
    rw [hconv, hprefix]
    exact conversationScope_append groupId (by decide) (by decide)
  have hresolve : resolve event ≠ .ignore ↔ platformAccount ∈ message.mentions := by
    rw [← haccount, ← shouldTriggerRun_group_iff hkind hscope, shouldTriggerRun]
    cases resolve event <;> simp
  have hmem : platformAccount ∈ message.mentions ↔
      ∃ qq ∈ atNumbers payload, NamesNumber platformAccount qq := by
    rw [hmentions, hparts, ← botUin, messageParts_mentions hat, List.mem_filterMap]
    simp only [mentionPart_names_iff]
  rw [← hmem]
  constructor
  · rintro ⟨-, h⟩
    exact hresolve.mp h
  · intro h
    exact ⟨⟨message, hkind, h⟩, hresolve.mpr h⟩

theorem fromSettings_account (hsettings : fromEnvMap envMap = .ok settings)
    (hbot : settings.platformQqBotId = some b) :
    (QqPlatform.fromSettings settings).platformAccount =
      (optionalTrimmed envMap "PLATFORM_QQ_ACCOUNT_ID").getD ("qq:bot_uin:" ++ b) := by
  obtain ⟨haccount, -, -⟩ := fromEnvMap_accounts hsettings
  simp only [QqPlatform.fromSettings, hbot, ← haccount]
  cases settings.platformQqAccountId <;> rfl

/-- Mentions of the configured bot are detected exactly in the messages that mention a number that
the configured account names. -/
theorem configured_bot_detected_iff (hsettings : fromEnvMap envMap = .ok settings)
    (hbot : settings.platformQqBotId = some b)
    (hgroup : payload.get "message_type" = some (.string "group"))
    (hat : b ∈ atNumbers payload)
    (hevent : (QqPlatform.fromSettings settings).decodeEvent payload = some event) :
    Detected (QqPlatform.fromSettings settings).platformAccount event ↔
      ∀ account, optionalTrimmed envMap "PLATFORM_QQ_ACCOUNT_ID" = some account →
        ∃ qq ∈ atNumbers payload, NamesNumber account qq := by
  rw [detected_iff hgroup (List.ne_nil_of_mem hat) hevent, fromSettings_account hsettings hbot]
  cases optionalTrimmed envMap "PLATFORM_QQ_ACCOUNT_ID" with
  | none => simpa using ⟨b, hat, Or.inl rfl⟩
  | some account => simp

/-- A group message that is nothing but a mention. -/
def mentionPayload (qq : String) : Value :=
  .object [("post_type", .string "message"), ("message_type", .string "group"),
    ("user_id", .string "7"), ("group_id", .string "5"), ("message_id", .string "1"),
    ("message", .array [.object [("type", .string "at"),
      ("data", .object [("qq", .string qq)])]])]

/-- Whether every mention of the configured bot is detected is decided by the two settings. -/
theorem configured_bot_always_detected_iff (hsettings : fromEnvMap envMap = .ok settings)
    (hbot : settings.platformQqBotId = some b) :
    (∀ payload event, payload.get "message_type" = some (.string "group") →
      b ∈ atNumbers payload →
      (QqPlatform.fromSettings settings).decodeEvent payload = some event →
      Detected (QqPlatform.fromSettings settings).platformAccount event) ↔
      ∀ account, optionalTrimmed envMap "PLATFORM_QQ_ACCOUNT_ID" = some account →
        NamesNumber account b := by
  have hnames : NamesNumber (QqPlatform.fromSettings settings).platformAccount b ↔
      ∀ account, optionalTrimmed envMap "PLATFORM_QQ_ACCOUNT_ID" = some account →
        NamesNumber account b := by
    rw [fromSettings_account hsettings hbot]
    cases optionalTrimmed envMap "PLATFORM_QQ_ACCOUNT_ID" with
    | none =>
      rw [Option.getD_none]
      exact ⟨fun _ _ h => (Option.some_ne_none _ h.symm).elim, fun _ => Or.inl rfl⟩
    | some account => simp
  rw [← hnames]
  constructor
  · intro h
    obtain ⟨event, hevent⟩ : ∃ event,
        (QqPlatform.fromSettings settings).decodeEvent (mentionPayload b) = some event :=
      ⟨_, rfl⟩
    have hat : atNumbers (mentionPayload b) = [b] := rfl
    have hdetected := h (mentionPayload b) event rfl (by rw [hat]; exact List.mem_singleton_self b)
      hevent
    rw [detected_iff rfl (by simp [hat]) hevent, hat] at hdetected
    simpa using hdetected
  · intro h payload event hgroup hat hevent
    exact (detected_iff hgroup (List.ne_nil_of_mem hat) hevent).mpr ⟨b, hat, h⟩

/-- The number of the bot, beside an account that is given or not. -/
def botEnv (account : Option String) : EnvMap := fun key =>
  if key = "PLATFORM_QQ_BOT_ID" then some "123"
  else if key = "PLATFORM_QQ_ACCOUNT_ID" then account
  else none

theorem configured_bot_detected_of_same_number :
    ∃ settings event, fromEnvMap (botEnv (some "qq:bot_uin:123")) = .ok settings ∧
      (QqPlatform.fromSettings settings).decodeEvent (mentionPayload "123") = some event ∧
      Detected (QqPlatform.fromSettings settings).platformAccount event := by
  obtain ⟨settings, event, hsettings, hbot, hevent⟩ : ∃ settings event,
      fromEnvMap (botEnv (some "qq:bot_uin:123")) = .ok settings ∧
      settings.platformQqBotId = some "123" ∧
      (QqPlatform.fromSettings settings).decodeEvent (mentionPayload "123") = some event :=
    ⟨_, _, rfl, by decide +kernel, rfl⟩
  have haccount : optionalTrimmed (botEnv (some "qq:bot_uin:123")) "PLATFORM_QQ_ACCOUNT_ID" =
      some "qq:bot_uin:123" := by decide +kernel
  have hat : atNumbers (mentionPayload "123") = ["123"] := rfl
  refine ⟨settings, event, hsettings, hevent,
    (configured_bot_detected_iff hsettings hbot rfl (by decide +kernel) hevent).mpr ?_⟩
  rw [haccount, hat]
  rintro account ⟨⟩
  exact ⟨"123", by decide, by decide +kernel⟩

/-- The account of the template is not that of a bot with a number. -/
theorem configured_bot_not_detected : ¬ ∀ (envMap : EnvMap) (settings : RunnerSettings)
    (b : String) (payload : Value) (event : CanonicalEvent), fromEnvMap envMap = .ok settings →
    settings.platformQqBotId = some b → payload.get "message_type" = some (.string "group") →
    b ∈ atNumbers payload →
    (QqPlatform.fromSettings settings).decodeEvent payload = some event →
    Detected (QqPlatform.fromSettings settings).platformAccount event := by
  intro h
  obtain ⟨settings, event, hsettings, hbot, haccount, hevent⟩ : ∃ settings event,
      fromEnvMap (botEnv (some "qq:bot_uin:unknown")) = .ok settings ∧
      settings.platformQqBotId = some "123" ∧
      (QqPlatform.fromSettings settings).platformAccount = "qq:bot_uin:unknown" ∧
      (QqPlatform.fromSettings settings).decodeEvent (mentionPayload "123") = some event :=
    ⟨_, _, rfl, by decide +kernel, by decide +kernel, rfl⟩
  have hat : atNumbers (mentionPayload "123") = ["123"] := rfl
  have hdetected := h _ settings "123" (mentionPayload "123") event hsettings hbot rfl
    (by decide +kernel) hevent
  rw [detected_iff rfl (by rw [hat]; decide) hevent, haccount, hat] at hdetected
  revert hdetected
  decide +kernel

end DogBot.Qq
