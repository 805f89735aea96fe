import DogBot.History.Isolation
import DogBot.Library.Upsert
import DogBot.Server.Addressees

/-! # The stored messages

An update leaves the platform and the chat type of a stored message as they are.
Both are determined by its conversation, so that the table has, for each key, the
last version of the message as a whole, until a purge deletes it.
-/

namespace DogBot

open Program (Within within_ret)
open KeyedTable (Latest Overwrites)

namespace HistoryMessage

def key (row : HistoryMessage) : String × String × String :=
  (row.platformAccount, row.conversationId, row.messageId)

def update (old row : HistoryMessage) : HistoryMessage :=
  { old with
    actorId := row.actorId, actorDisplay := row.actorDisplay, plainText := row.plainText
    replyToMessageId := row.replyToMessageId, createdAt := row.createdAt, raw := row.raw }

theorem key_update (old row : HistoryMessage) : (old.update row).key = old.key := rfl

theorem key_eq_iff {old row : HistoryMessage} :
    old.key = row.key ↔ HistoryState.SameKey old row := by
  rw [key, key, Prod.mk.injEq, Prod.mk.injEq, HistoryState.SameKey]

theorem update_eq {old row : HistoryMessage} (hkey : old.key = row.key)
    (hplatform : old.platform = row.platform) (hchat : old.chatType = row.chatType) :
    old.update row = row := by
  obtain ⟨haccount, hconversation, hid⟩ := key_eq_iff.mp hkey
  cases old
  cases row
  simp_all [update]

end HistoryMessage

/-- The row of an event. Events that are no messages, and messages without text, are not stored. -/
def messageRow (db : HistoryDatabase) (event : CanonicalEvent) : Option HistoryMessage := do
  let message ← event.message
  let plainText := Text.trim (storagePlainText message)
  guard (plainText ≠ "")
  return {
    platform := event.platform
    platformAccount := event.platformAccount
    conversationId := event.conversation
    chatType := (conversationScope event.conversation).getD "unknown"
    messageId := message.messageId
    actorId := event.actor
    actorDisplay := (message.nativeMetadata.get "sender_display").bind Json.Value.asStr
    plainText
    replyToMessageId := message.replyTo
    createdAt := db.toTimestamp event.timestampEpochSecs
    raw := event.rawNativePayload.print }

inductive HistoryStatement
  | insertCanonicalEvent (event : CanonicalEvent)
  | createReadGrant (token : String) (grant : HistoryReadGrant) (now : ℤ)
  | deleteExpiredGrants (now : ℤ)
  | deleteOldMessages (retentionDays now : ℤ)

namespace HistoryStatement

variable (db : HistoryDatabase)

def apply : HistoryStatement → HistoryState → HistoryState
  | insertCanonicalEvent event, s => HistoryStore.insertCanonicalEvent db event s
  | createReadGrant token grant now, s => HistoryStore.createReadGrants db token [grant] [now] s
  | deleteExpiredGrants now, s => HistoryStore.deleteExpiredGrants now s
  | deleteOldMessages retentionDays now, s => HistoryStore.deleteOldMessages db retentionDays now s

def run (statements : List HistoryStatement) : HistoryState :=
  statements.foldl (fun s statement => statement.apply db s) .empty

/-- A statement stores nothing under the key of the row, and does not delete it. -/
def Leaves (row : HistoryMessage) : HistoryStatement → Prop
  | insertCanonicalEvent event => ∀ new, messageRow db event = some new → new.key ≠ row.key
  | deleteOldMessages retentionDays now => db.minusDays now retentionDays ≤ row.createdAt
  | createReadGrant _ _ _ | deleteExpiredGrants _ => True

/-- The row is that of an event that was stored, and no statement after that has met it. -/
def LastVersion (statements : List HistoryStatement) (row : HistoryMessage) : Prop :=
  ∃ before event after, statements = before ++ .insertCanonicalEvent event :: after ∧
    messageRow db event = some row ∧ ∀ statement ∈ after, statement.Leaves db row

def write : HistoryStatement → Option (KeyedTable.Write HistoryMessage)
  | insertCanonicalEvent event => (messageRow db event).map .upsert
  | deleteOldMessages retentionDays now =>
    some (.keep fun row => db.minusDays now retentionDays ≤ row.createdAt)
  | createReadGrant _ _ _ | deleteExpiredGrants _ => none

variable {db} {s : HistoryState} {event : CanonicalEvent} {row : HistoryMessage}
  {statement : HistoryStatement} {statements : List HistoryStatement}

theorem upsertMessage_messages :
    (s.upsertMessage row).messages =
      KeyedTable.upsert HistoryMessage.key HistoryMessage.update row s.messages := by
  unfold HistoryState.upsertMessage KeyedTable.upsert
  simp only [HistoryMessage.key_eq_iff]
  split_ifs <;> rfl

theorem insertCanonicalEvent_eq :
    HistoryStore.insertCanonicalEvent db event s =
      match messageRow db event with
      | none => s
      | some row => s.upsertMessage row := by
  unfold HistoryStore.insertCanonicalEvent messageRow
  cases event.message with
  | none => rfl
  | some message =>
    by_cases htext : Text.trim (storagePlainText message) = ""
    · simp [htext]
    · simp [htext]

theorem apply_messages :
    (statement.apply db s).messages = ((statement.write db).elim s.messages
      fun w => w.apply HistoryMessage.key HistoryMessage.update s.messages) := by
  cases statement with
  | insertCanonicalEvent event =>
    rw [apply, insertCanonicalEvent_eq, write]
    cases messageRow db event with
    | none => rfl
    | some row => exact upsertMessage_messages
  | createReadGrant token grant now => rfl
  | deleteExpiredGrants now => rfl
  | deleteOldMessages retentionDays now => rfl

theorem run_concat :
    run db (statements ++ [statement]) = statement.apply db (run db statements) :=
  List.foldl_concat ..

theorem run_messages : (run db statements).messages =
    KeyedTable.run HistoryMessage.key HistoryMessage.update (statements.filterMap (write db)) := by
  induction statements using List.reverseRecOn with
  | nil => rfl
  | append_singleton statements statement ih =>
    rw [run_concat, apply_messages, ih, List.filterMap_append]
    cases hw : statement.write db with
    | none => rw [List.filterMap_cons_none hw, List.filterMap_nil, List.append_nil, Option.elim_none]
    | some w => rw [List.filterMap_cons_some hw, List.filterMap_nil, KeyedTable.run_concat,
        Option.elim_some]

theorem write_eq_upsert_iff : statement.write db = some (.upsert row) ↔
    ∃ event, statement = .insertCanonicalEvent event ∧ messageRow db event = some row := by
  cases statement with
  | insertCanonicalEvent event => simp [write, Option.map_eq_some_iff]
  | createReadGrant token grant now => simp [write]
  | deleteExpiredGrants now => simp [write]
  | deleteOldMessages retentionDays now => simp [write]

theorem leaves_iff : statement.Leaves db row ↔
    ∀ w, statement.write db = some w → w.Spares HistoryMessage.key row := by
  cases statement with
  | insertCanonicalEvent event =>
    simp [write, Leaves, Option.map_eq_some_iff, KeyedTable.Write.Spares]
  | createReadGrant token grant now => simp [write, Leaves]
  | deleteExpiredGrants now => simp [write, Leaves]
  | deleteOldMessages retentionDays now => simp [write, Leaves, KeyedTable.Write.Spares]

theorem lastVersion_iff : LastVersion db statements row ↔
    Latest HistoryMessage.key (statements.filterMap (write db)) row := by
  constructor
  · rintro ⟨before, event, after, rfl, hrow, hafter⟩
    refine ⟨before.filterMap (write db), after.filterMap (write db), ?_, fun w hw => ?_⟩
    · rw [List.filterMap_append, List.filterMap_cons_some (write_eq_upsert_iff.mpr ⟨event, rfl, hrow⟩)]
    · obtain ⟨statement, hstatement, hwrite⟩ := List.mem_filterMap.mp hw
      exact leaves_iff.mp (hafter statement hstatement) w hwrite
  · rintro ⟨before, after, heq, hspares⟩
    obtain ⟨l₁, l₂, rfl, -, hl₂⟩ := List.filterMap_eq_append_iff.mp heq
    obtain ⟨l₃, statement, l₄, rfl, hl₃, hwrite, hl₄⟩ := List.filterMap_eq_cons_iff.mp hl₂
    obtain ⟨event, rfl, hrow⟩ := write_eq_upsert_iff.mp hwrite
    refine ⟨l₁ ++ l₃, event, l₄, (List.append_assoc ..).symm, hrow, fun statement hmem => ?_⟩
    refine leaves_iff.mpr fun w hw => hspares w ?_
    exact hl₄ ▸ List.mem_filterMap.mpr ⟨statement, hmem, hw⟩

theorem messageRow_eq_some (h : messageRow db event = some row) :
    row.platform = event.platform ∧ row.platformAccount = event.platformAccount ∧
      row.conversationId = event.conversation ∧
      row.chatType = (conversationScope event.conversation).getD "unknown" := by
  obtain ⟨message, -, h⟩ := Option.bind_eq_some_iff.mp h
  obtain ⟨-, -, h⟩ := Option.bind_eq_some_iff.mp h
  obtain rfl := Option.some.inj h
  exact ⟨rfl, rfl, rfl, rfl⟩

/-- The messages are unique and their last versions, if the platform of an event that is stored is
determined by its conversation. -/
theorem mem_messages_iff {E : CanonicalEvent → Prop}
    (hE : ∀ event event', E event → E event' → event.conversation = event'.conversation →
      event.platform = event'.platform)
    (hstatements : ∀ event, .insertCanonicalEvent event ∈ statements → E event) :
    row ∈ (run db statements).messages ↔ LastVersion db statements row := by
  rw [run_messages, lastVersion_iff]
  have hoverwrites : Overwrites HistoryMessage.key HistoryMessage.update
      fun row => ∃ event, E event ∧ messageRow db event = some row := by
    rintro old new ⟨event, hevent, hold⟩ ⟨event', hevent', hnew⟩ hkey
    obtain ⟨hplatform, -, hconversation, hchat⟩ := messageRow_eq_some hold
    obtain ⟨hplatform', -, hconversation', hchat'⟩ := messageRow_eq_some hnew
    have hsame : event.conversation = event'.conversation :=
      hconversation.symm.trans ((HistoryMessage.key_eq_iff.mp hkey).2.1.trans hconversation')
    refine HistoryMessage.update_eq hkey ?_ ?_
    · rw [hplatform, hplatform', hE event event' hevent hevent' hsame]
    · rw [hchat, hchat', hsame]
  refine KeyedTable.mem_run_iff hoverwrites fun row hrow => ?_
  obtain ⟨statement, hmem, hwrite⟩ := List.mem_filterMap.mp hrow
  obtain ⟨event, rfl, hmessage⟩ := write_eq_upsert_iff.mp hwrite
  exact ⟨event, hstatements event hmem, hmessage⟩

theorem nodup_messages : ((run db statements).messages.map HistoryMessage.key).Nodup := by
  rw [run_messages]
  exact KeyedTable.nodup_run HistoryMessage.key_update

end HistoryStatement

theorem PlatformAdapter.platform_cases {adapter : PlatformAdapter} {now : ℤ}
    {payload : Json.Value} {event : CanonicalEvent}
    (h : adapter.decodeEvent now payload = some event) :
    event.platform = "qq" ∧ event.conversation.toList.head? = some 'q' ∨
      event.platform = "wechatpadpro" ∧ event.conversation.toList.head? = some 'w' := by
  cases adapter with
  | qq self =>
    obtain ⟨-, -, chatId, -, -, -, hconversation, -⟩ := Qq.decodeNapcatEvent_context h
    refine .inl ⟨Qq.QqPlatform.platform_of_decode h, ?_⟩
    have hevent : event.conversation =
        "qq" ++ ":" ++ (Qq.chatKind payload).scope ++ ":" ++ chatId := hconversation
    rw [hevent]
    simp
  | wechatpadpro self =>
    obtain ⟨hplatform, -, -, hconversation⟩ := WeChatPadPro.decodeWebhookEvent_parties h
    refine .inr ⟨hplatform, ?_⟩
    rw [hconversation, WeChatPadPro.conversationOf]
    split <;> simp

theorem AppState.platform_eq {app : AppState} {request request' : PlatformRequest}
    {event event' : CanonicalEvent} (h : app.decodeRequest request = some event)
    (h' : app.decodeRequest request' = some event')
    (hsame : event.conversation = event'.conversation) : event.platform = event'.platform := by
  obtain ⟨_, _, -, -, hdecode⟩ := decodeRequest_eq_some h
  obtain ⟨_, _, -, -, hdecode'⟩ := decodeRequest_eq_some h'
  rcases PlatformAdapter.platform_cases hdecode with ⟨hplatform, hhead⟩ | ⟨hplatform, hhead⟩ <;>
    rcases PlatformAdapter.platform_cases hdecode' with ⟨hplatform', hhead'⟩ | ⟨hplatform', hhead'⟩
  · rw [hplatform, hplatform']
  · exact absurd (hhead.symm.trans (hsame ▸ hhead')) (by decide)
  · exact absurd (hhead.symm.trans (hsame ▸ hhead')) (by decide)
  · rw [hplatform, hplatform']

/-- The statements of a call: a call that fails has stored its event or not, and a purge may be
skipped, or fail before each of its statements. -/
def LogEntry.Issues (retentionDays : ℤ) : LogEntry → List HistoryStatement → Prop
  | .handler _ ⟨.mirrorHistoryEvent event, answer⟩, l =>
    l = [.insertCanonicalEvent event] ∨ (∃ err, answer = .error err) ∧ l = []
  | .handler _ ⟨.maybePurgeExpiredHistory, _⟩, l =>
    l = [] ∨ ∃ now, l = [.deleteExpiredGrants now] ∨
      ∃ now', l = [.deleteExpiredGrants now, .deleteOldMessages retentionDays now']
  | _, l => l = []

/-- The statements that a database has executed for a log. The runner issues read grants at any
time. -/
inductive Executes (retentionDays : ℤ) : List LogEntry → List HistoryStatement → Prop
  | nil : Executes retentionDays [] []
  | entry {log : List LogEntry} {statements l : List HistoryStatement} {entry : LogEntry}
      (h : Executes retentionDays log statements) (hissues : entry.Issues retentionDays l) :
      Executes retentionDays (log ++ [entry]) (statements ++ l)
  | grant {log : List LogEntry} {statements : List HistoryStatement}
      (h : Executes retentionDays log statements) (token : String) (grant : HistoryReadGrant)
      (now : ℤ) : Executes retentionDays log (statements ++ [.createReadGrant token grant now])

theorem LogEntry.Issues.mirrored {retentionDays : ℤ} {entry : LogEntry} {event : CanonicalEvent}
    {l : List HistoryStatement} (h : entry.Issues retentionDays l)
    (hmem : .insertCanonicalEvent event ∈ l) :
    ∃ i answer, entry = .handler i ⟨.mirrorHistoryEvent event, answer⟩ := by
  obtain ⟨i, op, answer⟩ | ⟨task, call⟩ := entry
  · cases op with
    | mirrorHistoryEvent event' =>
      rcases h with rfl | ⟨-, rfl⟩
      · cases List.mem_singleton.mp hmem
        exact ⟨i, answer, rfl⟩
      · cases hmem
    | maybePurgeExpiredHistory => rcases h with rfl | ⟨now, rfl | ⟨now', rfl⟩⟩ <;> simp at hmem
    | snapshot => cases h ▸ hmem
    | submit event run validated => cases h ▸ hmem
    | deliver op => cases h ▸ hmem
  · cases h ▸ hmem

theorem Executes.mirrored {retentionDays : ℤ} {log : List LogEntry} {event : CanonicalEvent}
    {statements : List HistoryStatement} (h : Executes retentionDays log statements)
    (hmem : .insertCanonicalEvent event ∈ statements) :
    ∃ i answer, .handler i ⟨.mirrorHistoryEvent event, answer⟩ ∈ log := by
  induction h with
  | nil => cases hmem
  | @entry log statements l entry _ hissues ih =>
    rcases List.mem_append.mp hmem with hmem | hmem
    · obtain ⟨i, answer, hlog⟩ := ih hmem
      exact ⟨i, answer, List.mem_append_left _ hlog⟩
    · obtain ⟨i, answer, rfl⟩ := hissues.mirrored hmem
      exact ⟨i, answer, List.mem_append_right _ (List.mem_singleton_self _)⟩
  | grant _ token grant now ih =>
    rcases List.mem_append.mp hmem with hmem | hmem
    · exact ih hmem
    · cases List.mem_singleton.mp hmem

theorem AppState.within_handlePlatformEvent_mirror {app : AppState} {request : PlatformRequest} :
    Within (fun op => ∀ event, op = .mirrorHistoryEvent event →
      app.decodeRequest request = some event) (app.handlePlatformEvent request) := by
  refine within_handlePlatformEvent nofun fun event hevent => ⟨?_, nofun, fun _ _ => nofun, ?_⟩
  · rintro _ ⟨⟩
    exact hevent
  · exact fun plan => (Program.only_true _).mono fun _ _ => nofun

namespace PipelineState

variable {app : AppState} {db : HistoryDatabase} {s : PipelineState}

structure KeepsLastVersions (app : AppState) (db : HistoryDatabase) (s : PipelineState)
    (statements : List HistoryStatement) : Prop where
  unique : ((HistoryStatement.run db statements).messages.map HistoryMessage.key).Nodup
  versions : ∀ row, row ∈ (HistoryStatement.run db statements).messages ↔
    HistoryStatement.LastVersion db statements row
  received : ∀ row ∈ (HistoryStatement.run db statements).messages,
    ∃ (i : ℕ) (request : PlatformRequest) (p : HandlerM HttpResponse) (event : CanonicalEvent),
      s.handlers[i]? = some (request, p) ∧ app.decodeRequest request = some event ∧
        messageRow db event = some row

/-- In every interleaving, and whichever calls of the database fail: the history contains the last
version of each message that was stored and not deleted after that, as a platform has sent it. -/
theorem history_keeps_last_versions {m d : ℕ} {retentionDays : ℤ}
    {statements : List HistoryStatement} (h : Reachable (PipelineStep app) (init m d) s)
    (hexecutes : Executes retentionDays s.log statements) :
    KeepsLastVersions app db s statements := by
  have hh := handlersTracked h
  have hreceived : ∀ event, .insertCanonicalEvent event ∈ statements →
      ∃ (i : ℕ) (request : PlatformRequest) (p : HandlerM HttpResponse),
        s.handlers[i]? = some (request, p) ∧ app.decodeRequest request = some event := by
    intro event hmem
    obtain ⟨i, answer, hlog⟩ := hexecutes.mirrored hmem
    obtain ⟨request, p, hi⟩ := hh.exists_handler hlog
    have hevent := AppState.within_handlePlatformEvent_mirror.calls (hh.calls i request p hi) _
      (mem_handlerCalls hlog)
    exact ⟨i, request, p, hi, hevent event rfl⟩
  have hversions : ∀ row, row ∈ (HistoryStatement.run db statements).messages ↔
      HistoryStatement.LastVersion db statements row := by
    intro row
    refine HistoryStatement.mem_messages_iff
      (E := fun event => ∃ request, app.decodeRequest request = some event) ?_ ?_
    · rintro event event' ⟨request, hevent⟩ ⟨request', hevent'⟩
      exact AppState.platform_eq hevent hevent'
    · intro event hmem
      obtain ⟨i, request, p, -, hevent⟩ := hreceived event hmem
      exact ⟨request, hevent⟩
  refine ⟨HistoryStatement.nodup_messages, hversions, fun row hrow => ?_⟩
  obtain ⟨before, event, after, rfl, hmessage, -⟩ := (hversions row).mp hrow
  obtain ⟨i, request, p, hi, hevent⟩ :=
    hreceived event (List.mem_append_right _ (List.mem_cons_self ..))
  exact ⟨i, request, p, event, hi, hevent, hmessage⟩

/-- The statements of a log whose calls all succeed, with no purge. -/
def stored : LogEntry → List HistoryStatement
  | .handler _ ⟨.mirrorHistoryEvent event, _⟩ => [.insertCanonicalEvent event]
  | _ => []

theorem executes_stored (retentionDays : ℤ) (log : List LogEntry) :
    Executes retentionDays log (log.flatMap stored) := by
  induction log using List.reverseRecOn with
  | nil => exact .nil
  | append_singleton log entry ih =>
    rw [List.flatMap_append, List.flatMap_singleton]
    refine ih.entry ?_
    obtain ⟨i, op, answer⟩ | ⟨task, call⟩ := entry
    · cases op with
      | mirrorHistoryEvent event => exact .inl rfl
      | maybePurgeExpiredHistory => exact .inl rfl
      | snapshot | submit _ _ _ | deliver _ => rfl
    · rfl

/-- The second message of a conversation has the id of the first one, and replaces it. -/
theorem history_keeps_last_versions_contended : ∃ statements,
    Executes 180 contended.log statements ∧
      (HistoryStatement.run exampleDatabase statements).messages.map HistoryMessage.plainText =
        ["hello again", "hello"] ∧
      KeepsLastVersions qqApp exampleDatabase contended statements := by
  have hexecutes := executes_stored 180 contended.log
  exact ⟨_, hexecutes, by decide +kernel,
    history_keeps_last_versions reachable_contended hexecutes⟩

end PipelineState

end DogBot
