import DogBot.Exec.Grants
import DogBot.Library.Program

/-! # Settings from the environment

Settings are read from environment variables. Optional texts are trimmed and
count as absent where they are blank; a number that does not parse is an error.
-/

namespace DogBot

/-- The settings of the adapters and the history besides those of the grants. -/
structure RunnerSettings extends Settings where
  napcatApiBaseUrl : String
  wechatpadproBaseUrl : String
  wechatpadproAccountKey : Option String
  platformQqBotId : Option String
  platformWechatpadproBotMentionNames : List String
  historyRetentionDays : ℤ

inductive ConfigError
  | invalidInt (key : String)
  deriving DecidableEq, Repr

abbrev EnvMap := String → Option String

def trimToOption (value : String) : Option String :=
  if Text.trim value = "" then none else some (Text.trim value)

def optionalTrimmed (envMap : EnvMap) (key : String) : Option String :=
  (envMap key).bind trimToOption

def stringOrDefault (envMap : EnvMap) (key default : String) : String :=
  (optionalTrimmed envMap key).getD default

/-- A number, or its default where the variable is not set; the text is not trimmed. -/
def parseOrDefault {α : Type} (parse : String → Option α) (envMap : EnvMap) (key : String)
    (default : α) : Except ConfigError α :=
  match envMap key with
  | some raw =>
    match parse raw with
    | some n => .ok n
    | none => .error (.invalidInt key)
  | none => .ok default

/-- The items of a list that is separated by commas. -/
def commaSeparated (value : String) : List String :=
  ((Text.split ',' value).map Text.trim).filter fun item => item ≠ ""

/-- Every number is checked, also those that no setting here keeps. -/
def fromEnvMap (envMap : EnvMap) : Except ConfigError RunnerSettings := do
  let _ ← parseOrDefault (Text.parseUnsigned 64) envMap "DEFAULT_TIMEOUT_SECS" 120
  let _ ← parseOrDefault (Text.parseUnsigned 64) envMap "MAX_TIMEOUT_SECS" 300
  let _ ← parseOrDefault (Text.parseUnsigned 16) envMap "BIFROST_PORT" 8080
  let _ ← parseOrDefault (Text.parseUnsigned 64) envMap "MAX_CONCURRENT_RUNS" 10
  let _ ← parseOrDefault (Text.parseUnsigned 64) envMap "MAX_QUEUE_DEPTH" 20
  let _ ← parseOrDefault (Text.parseUnsigned 16) envMap "POSTGRES_PORT" 5432
  let historyRunTokenTtlSecs ← parseOrDefault Text.parseI64 envMap "HISTORY_RUN_TOKEN_TTL_SECS" 1800
  let historyRetentionDays ← parseOrDefault Text.parseI64 envMap "HISTORY_RETENTION_DAYS" 180
  let _ ← parseOrDefault (Text.parseUnsigned 64) envMap "CLAUDE_CONTAINER_CPU_CORES" 4
  let _ ← parseOrDefault (Text.parseUnsigned 64) envMap "CLAUDE_CONTAINER_MEMORY_MB" 4096
  let _ ← parseOrDefault (Text.parseUnsigned 64) envMap "CLAUDE_CONTAINER_DISK_GB" 50
  let _ ← parseOrDefault Text.parseI64 envMap "CLAUDE_CONTAINER_PIDS_LIMIT" 256
  return {
    napcatApiBaseUrl := stringOrDefault envMap "NAPCAT_API_BASE_URL" "http://127.0.0.1:3001"
    wechatpadproBaseUrl := stringOrDefault envMap "WECHATPADPRO_BASE_URL" "http://127.0.0.1:38849"
    wechatpadproAccountKey := optionalTrimmed envMap "WECHATPADPRO_ACCOUNT_KEY"
    platformQqAccountId := optionalTrimmed envMap "PLATFORM_QQ_ACCOUNT_ID"
    platformQqBotId := optionalTrimmed envMap "PLATFORM_QQ_BOT_ID"
    platformWechatpadproAccountId := optionalTrimmed envMap "PLATFORM_WECHATPADPRO_ACCOUNT_ID"
    platformWechatpadproBotMentionNames :=
      ((optionalTrimmed envMap "PLATFORM_WECHATPADPRO_BOT_MENTION_NAMES").map commaSeparated).getD []
    historyRunTokenTtlSecs
    historyRetentionDays
    adminActorIds :=
      ((optionalTrimmed envMap "DOGBOT_ADMIN_ACTOR_IDS").map commaSeparated).getD [] }

/-- A text that is neither blank nor surrounded by white space. -/
def IsTrimmed (value : String) : Prop := value ≠ "" ∧ Text.trim value = value

variable {envMap : EnvMap} {settings : RunnerSettings} {key value : String}

theorem isTrimmed_of_optionalTrimmed (h : optionalTrimmed envMap key = some value) :
    IsTrimmed value := by
  obtain ⟨raw, -, hraw⟩ := Option.bind_eq_some_iff.mp h
  unfold trimToOption at hraw
  split_ifs at hraw with hblank
  obtain rfl := Option.some.inj hraw
  exact ⟨hblank, Text.trim_trim raw⟩

theorem fromEnvMap_accounts (h : fromEnvMap envMap = .ok settings) :
    settings.platformQqAccountId = optionalTrimmed envMap "PLATFORM_QQ_ACCOUNT_ID" ∧
      settings.platformQqBotId = optionalTrimmed envMap "PLATFORM_QQ_BOT_ID" ∧
      settings.platformWechatpadproAccountId =
        optionalTrimmed envMap "PLATFORM_WECHATPADPRO_ACCOUNT_ID" := by
  unfold fromEnvMap at h
  iterate 12
    obtain ⟨_, -, h⟩ := Program.bind_eq_ok h
  obtain rfl := Except.ok.inj h
  exact ⟨rfl, rfl, rfl⟩

end DogBot
