import DogBot.Config
import DogBot.Platforms.QqDelivery
import DogBot.Platforms.WeChatPadProDelivery

/-! # Adapters from settings

The platform account of an adapter is the configured one, or else it is made
from the number of the bot or a constant. It is never surrounded by white space.
-/

namespace DogBot

def trimEndMatches (c : Char) (s : String) : String := String.ofList (s.toList.rdropWhile (· == c))

namespace Qq.QqPlatform

def fromSettings (settings : RunnerSettings) : QqPlatform where
  baseUrl := trimEndMatches '/' settings.napcatApiBaseUrl
  platformAccount := (settings.platformQqAccountId <|>
    settings.platformQqBotId.map fun botId => "qq:bot_uin:" ++ botId).getD "qq:bot_uin:123"

def decodeEvent (self : QqPlatform) (payload : Json.Value) : Option CanonicalEvent :=
  decodeNapcatEvent payload self.platformAccount

end Qq.QqPlatform

namespace WeChatPadPro.WeChatPadProPlatform

def fromSettings (settings : RunnerSettings) : WeChatPadProPlatform where
  baseUrl := trimEndMatches '/' settings.wechatpadproBaseUrl
  accountKey := settings.wechatpadproAccountKey
  platformAccount :=
    settings.platformWechatpadproAccountId.getD "wechatpadpro:account:bot"
  mentionNames := settings.platformWechatpadproBotMentionNames

def decodeEvent (self : WeChatPadProPlatform) (now : ℤ) (payload : Json.Value) :
    Option CanonicalEvent :=
  decodeWebhookEvent now payload self.platformAccount self.mentionNames

end WeChatPadPro.WeChatPadProPlatform

inductive Decoded (settings : RunnerSettings) (event : CanonicalEvent) : Prop
  | qq (payload : Json.Value)
      (h : (Qq.QqPlatform.fromSettings settings).decodeEvent payload = some event)
  | wechatpadpro (now : ℤ) (payload : Json.Value)
      (h : (WeChatPadPro.WeChatPadProPlatform.fromSettings settings).decodeEvent now payload =
        some event)

variable {envMap : EnvMap} {settings : RunnerSettings} {event : CanonicalEvent}

theorem isTrimmed_qq_account (h : fromEnvMap envMap = .ok settings) :
    IsTrimmed (Qq.QqPlatform.fromSettings settings).platformAccount := by
  obtain ⟨haccount, hbot, -⟩ := fromEnvMap_accounts h
  simp only [Qq.QqPlatform.fromSettings, haccount, hbot]
  cases ha : optionalTrimmed envMap "PLATFORM_QQ_ACCOUNT_ID" with
  | some account => exact isTrimmed_of_optionalTrimmed ha
  | none =>
    cases hb : optionalTrimmed envMap "PLATFORM_QQ_BOT_ID" with
    | some botId =>
      obtain ⟨hne, htrim⟩ := isTrimmed_of_optionalTrimmed hb
      refine ⟨by simp [hne], ?_⟩
      exact Text.trim_append ⟨'q', by decide, by decide⟩ hne htrim
    | none => exact ⟨by decide, by decide +kernel⟩

theorem isTrimmed_wechatpadpro_account (h : fromEnvMap envMap = .ok settings) :
    IsTrimmed (WeChatPadPro.WeChatPadProPlatform.fromSettings settings).platformAccount := by
  obtain ⟨-, -, haccount⟩ := fromEnvMap_accounts h
  simp only [WeChatPadPro.WeChatPadProPlatform.fromSettings, haccount]
  cases ha : optionalTrimmed envMap "PLATFORM_WECHATPADPRO_ACCOUNT_ID" with
  | some account => exact isTrimmed_of_optionalTrimmed ha
  | none => exact ⟨by decide, by decide +kernel⟩

theorem Decoded.isTrimmed (hsettings : fromEnvMap envMap = .ok settings)
    (h : Decoded settings event) : IsTrimmed event.platformAccount := by
  cases h with
  | qq payload h =>
    obtain ⟨message, -, haccount, -⟩ := Qq.decodeNapcatEvent_eq_some h
    rw [haccount]
    exact isTrimmed_qq_account hsettings
  | wechatpadpro now payload h =>
    obtain ⟨-, -, h⟩ := Option.bind_eq_some_iff.mp h
    obtain ⟨messageId, -, h⟩ := Option.bind_eq_some_iff.mp h
    obtain rfl := Option.some.inj h
    exact isTrimmed_wechatpadpro_account hsettings

end DogBot
