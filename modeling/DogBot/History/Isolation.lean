import Mathlib.Data.List.Nodup
import Mathlib.Data.Set.Function
import Mathlib.Logic.Relation
import DogBot.History.Store
import DogBot.Platforms.Adapters
import DogBot.Server.Requests

/-! # Isolation of the history

A token is issued for the event that triggered a run. It reads the rows of the
event's conversation, or, for a private conversation of an administrator, those
of the event's account and of the configured accounts, until its grant expires.
-/

namespace DogBot

/-- A token that was issued for the request of an event. The statement that stores the grant for an
account runs at a time of its own. -/
structure IssuedToken where
  token : String
  settings : RunnerSettings
  event : CanonicalEvent
  request : RunRequest
  storedAt : String → ℤ
  fromEnv : ∃ envMap, fromEnvMap envMap = .ok settings
  decoded : Decoded settings event
  requested : buildRunRequestFromEvent event = some request

/-- The history store with the tokens that were generated for it, those that were issued, and the
events that were stored. -/
structure HistoryWorld where
  state : HistoryState
  clock : ℤ
  tokens : List String
  issued : List IssuedToken
  stored : List CanonicalEvent

variable (db : HistoryDatabase)

namespace IssuedToken

/-- The times of the statements that store the grants of a token. -/
def times (issue : IssuedToken) : List ℤ :=
  (historyReadGrantsForRequest issue.settings.toSettings issue.request).map fun grant =>
    issue.storedAt grant.platformAccount

def grants (issue : IssuedToken) : List ReadGrantRow :=
  HistoryStore.grantRows db issue.token
    (historyReadGrantsForRequest issue.settings.toSettings issue.request) issue.times

/-- The time since the grant for an account was stored is less than that of the settings. -/
def Unexpired (issue : IssuedToken) (now : ℤ) (account : String) : Prop :=
  now < issue.storedAt account + issue.settings.historyRunTokenTtlSecs * 1000000

/-- The event is a private message of an administrator. -/
def AdminPrivate (issue : IssuedToken) : Prop :=
  conversationScope issue.event.conversation = some "private" ∧
    issue.event.actor ∈ issue.settings.adminActorIds

instance (issue : IssuedToken) : Decidable issue.AdminPrivate :=
  inferInstanceAs (Decidable (_ ∧ _))

/-- What a token may read: the conversation of its event, or for an administrator's private message
the account of the event and the configured accounts. -/
def Covers (issue : IssuedToken) (account conversation : String) : Prop :=
  account = issue.event.platformAccount ∧ conversation = issue.event.conversation ∨
    issue.AdminPrivate ∧ (account = issue.event.platformAccount ∨
      issue.settings.platformQqAccountId = some account ∨
      issue.settings.platformWechatpadproAccountId = some account)

end IssuedToken

namespace HistoryWorld

def empty (clock : ℤ) : HistoryWorld := ⟨HistoryState.empty, clock, [], [], []⟩

/-- One operation of the store. A failed call leaves what its statements did before the failure,
and issues no token. -/
inductive Step : HistoryWorld → HistoryWorld → Prop
  | insert (w : HistoryWorld) (event : CanonicalEvent) :
      Step w { w with
        state := HistoryStore.insertCanonicalEvent db event w.state
        stored := event :: w.stored }
  | create (w : HistoryWorld) (issue : IssuedToken) (clock : ℤ) (hfresh : issue.token ∉ w.tokens)
      (hclock : w.clock ≤ clock) :
      Step w { w with
        state := HistoryStore.createReadGrants db issue.token
          (historyReadGrantsForRequest issue.settings.toSettings issue.request) issue.times w.state
        clock
        tokens := issue.token :: w.tokens
        issued := issue :: w.issued }
  | createFailed (w : HistoryWorld) (token : String) (grants : List HistoryReadGrant)
      (times : List ℤ) (clock : ℤ) (hfresh : token ∉ w.tokens) (hclock : w.clock ≤ clock) :
      Step w { w with
        state := HistoryStore.createReadGrants db token grants times w.state
        clock
        tokens := token :: w.tokens }
  | purge (w : HistoryWorld) (retentionDays now now' : ℤ) (hnow : w.clock ≤ now) (hnow' : now ≤ now') :
      Step w { w with
        state := HistoryStore.purgeExpired db retentionDays now now' w.state
        clock := now' }
  | purgeFailed (w : HistoryWorld) (now : ℤ) (hnow : w.clock ≤ now) :
      Step w { w with state := HistoryStore.deleteExpiredGrants now w.state, clock := now }

/-- What the tables contain: each grant belongs to a generated token, and to the token's grants if
it was issued; grants of issued tokens are stored until they expire; messages come from events. -/
structure Inv (w : HistoryWorld) : Prop where
  grants : ∀ g ∈ w.state.grants, ∃ token ∈ w.tokens, g.tokenHash = db.sha256 token ∧
    ∀ issue ∈ w.issued, issue.token = token → g ∈ issue.grants db
  issued : ∀ issue ∈ w.issued, issue.token ∈ w.tokens ∧
    ∀ g ∈ issue.grants db, w.clock < g.expiresAt → g ∈ w.state.grants
  messages : ∀ row ∈ w.state.messages, ∃ event ∈ w.stored,
    row.platformAccount = event.platformAccount ∧ row.conversationId = event.conversation

end HistoryWorld

variable {db} {w w' : HistoryWorld} {issue : IssuedToken} {account conversation : String} {now : ℤ}

theorem mem_pushUniqueTrimmed {values : List String} {value x : String} :
    x ∈ pushUniqueTrimmed values value ↔
      x ∈ values ∨ Text.trim value ≠ "" ∧ x = Text.trim value := by
  unfold pushUniqueTrimmed
  split_ifs with h
  · rcases h with h | h
    · simp [h]
    · refine ⟨.inl, ?_⟩
      rintro (hx | ⟨-, rfl⟩)
      · exact hx
      · exact h
  · push Not at h
    simp [h.1]

/-- The accounts that an administrator's private message may read. -/
theorem mem_adminHistoryPlatformAccounts {settings : RunnerSettings} {request : RunRequest}
    {envMap : EnvMap} (hsettings : fromEnvMap envMap = .ok settings)
    (hrequest : IsTrimmed request.platformAccountId) :
    account ∈ adminHistoryPlatformAccounts settings.toSettings request ↔
      account = request.platformAccountId ∨ settings.platformQqAccountId = some account ∨
        settings.platformWechatpadproAccountId = some account := by
  obtain ⟨hqq, -, hwechat⟩ := fromEnvMap_accounts hsettings
  have hpush : ∀ {values : List String} {value : String}, IsTrimmed value →
      (account ∈ pushUniqueTrimmed values value ↔ account ∈ values ∨ account = value) := by
    intro values value hvalue
    rw [mem_pushUniqueTrimmed, hvalue.2, and_iff_right hvalue.1]
  have hq : ∀ value, settings.platformQqAccountId = some value → IsTrimmed value :=
    fun value h => isTrimmed_of_optionalTrimmed (hqq ▸ h)
  have hw : ∀ value, settings.platformWechatpadproAccountId = some value → IsTrimmed value :=
    fun value h => isTrimmed_of_optionalTrimmed (hwechat ▸ h)
  unfold adminHistoryPlatformAccounts
  cases hqa : settings.platformQqAccountId with
  | none =>
    cases hwa : settings.platformWechatpadproAccountId with
    | none => simp [hpush hrequest]
    | some b => simp [hpush hrequest, hpush (hw b hwa), eq_comm]
  | some a =>
    cases hwa : settings.platformWechatpadproAccountId with
    | none => simp [hpush hrequest, hpush (hq a hqa), eq_comm]
    | some b => simp [hpush hrequest, hpush (hq a hqa), hpush (hw b hwa), or_assoc, eq_comm]

theorem nodup_pushUniqueTrimmed {values : List String} (h : values.Nodup) (value : String) :
    (pushUniqueTrimmed values value).Nodup := by
  unfold pushUniqueTrimmed
  split_ifs with hvalue
  · exact h
  · rw [← List.concat_eq_append]
    exact h.concat fun hmem => hvalue (.inr hmem)

theorem nodup_historyReadGrantsForRequest (settings : Settings) (request : RunRequest) :
    ((historyReadGrantsForRequest settings request).map
      HistoryReadGrant.platformAccount).Nodup := by
  unfold historyReadGrantsForRequest
  split_ifs
  · rw [List.map_map]
    change (List.map id _).Nodup
    rw [List.map_id, adminHistoryPlatformAccounts]
    exact List.foldlRecOn _ _ (nodup_pushUniqueTrimmed List.nodup_nil _)
      fun values hvalues value _ => nodup_pushUniqueTrimmed hvalues value
  · exact List.nodup_singleton _

/-- The grants of a request are for different accounts, so that the times of their statements,
whatever they are, are given by a function of the account. -/
theorem exists_storedAt (settings : Settings) (request : RunRequest) {times : List ℤ}
    (h : times.length = (historyReadGrantsForRequest settings request).length) :
    ∃ storedAt : String → ℤ, times =
      (historyReadGrantsForRequest settings request).map fun grant =>
        storedAt grant.platformAccount := by
  have hnodup := nodup_historyReadGrantsForRequest settings request
  generalize historyReadGrantsForRequest settings request = grants at h hnodup
  refine ⟨fun account => times.getD ((grants.map HistoryReadGrant.platformAccount).idxOf account) 0,
    List.ext_getElem (by simpa using h) fun i hi _ => ?_⟩
  have hindex := hnodup.idxOf_getElem i (by simpa [← h] using hi)
  rw [List.getElem_map] at hindex
  rw [List.getElem_map]
  beta_reduce
  rw [hindex, List.getD_eq_getElem?_getD, List.getElem?_eq_getElem hi, Option.getD_some]

namespace IssuedToken

theorem request_eq (issue : IssuedToken) :
    issue.request.platformAccountId = issue.event.platformAccount ∧
      issue.request.conversationId = issue.event.conversation ∧
      (isAdminPrivateHistoryRequest issue.settings.toSettings issue.request = true ↔
        issue.AdminPrivate) := by
  obtain ⟨message, -, hrequest⟩ := Option.map_eq_some_iff.mp issue.requested
  rw [← hrequest]
  refine ⟨rfl, rfl, ?_⟩
  simp only [isAdminPrivateHistoryRequest, AdminPrivate, Bool.and_eq_true, decide_eq_true_eq]
  refine and_congr_left fun _ => ?_
  split <;> simp_all

theorem mem_grants (issue : IssuedToken) {g : ReadGrantRow} : g ∈ issue.grants db ↔
    ∃ grant ∈ historyReadGrantsForRequest issue.settings.toSettings issue.request,
      HistoryStore.grantRow db issue.token grant (issue.storedAt grant.platformAccount) = g := by
  rw [grants, HistoryStore.grantRows, times, ← List.map_prod_left_eq_zip, List.map_map,
    List.mem_map]
  rfl

/-- The grants of an administrator are valid for whole accounts, and that of another actor for one
conversation. All have the same time to live. -/
theorem mem_grants_iff (issue : IssuedToken) {g : ReadGrantRow} : g ∈ issue.grants db ↔
    ∃ account, g = {
        tokenHash := db.sha256 issue.token
        platformAccount := account
        conversationId := if issue.AdminPrivate then none else some issue.event.conversation
        actorId := issue.request.userId
        isAdmin := decide issue.AdminPrivate
        expiresAt :=
          issue.storedAt account + issue.settings.historyRunTokenTtlSecs * 1000000 } ∧
      (account = issue.event.platformAccount ∨ issue.AdminPrivate ∧
        (issue.settings.platformQqAccountId = some account ∨
          issue.settings.platformWechatpadproAccountId = some account)) := by
  obtain ⟨haccount, hconversation, hadmin⟩ := issue.request_eq
  rw [mem_grants]
  unfold historyReadGrantsForRequest
  by_cases hprivate : issue.AdminPrivate
  · obtain ⟨envMap, henv⟩ := issue.fromEnv
    have htrimmed : IsTrimmed issue.request.platformAccountId :=
      haccount ▸ issue.decoded.isTrimmed henv
    rw [if_pos (hadmin.mpr hprivate)]
    simp only [hprivate, true_and, if_true, decide_true, ← haccount,
      ← mem_adminHistoryPlatformAccounts henv htrimmed]
    constructor
    · rintro ⟨grant, hgrant, rfl⟩
      obtain ⟨account, hmem, rfl⟩ := List.mem_map.mp hgrant
      exact ⟨account, rfl, hmem⟩
    · rintro ⟨account, rfl, hmem⟩
      exact ⟨_, List.mem_map.mpr ⟨account, hmem, rfl⟩, rfl⟩
  · rw [if_neg (mt hadmin.mp hprivate)]
    simp only [hprivate, false_and, or_false, if_false, decide_false, ← haccount, ← hconversation,
      List.mem_singleton]
    constructor
    · rintro ⟨grant, rfl, rfl⟩
      exact ⟨_, rfl, rfl⟩
    · rintro ⟨account, rfl, rfl⟩
      exact ⟨_, rfl, rfl⟩

theorem grants_cover (issue : IssuedToken) :
    (∃ g ∈ issue.grants db, now < g.expiresAt ∧ g.platformAccount = account ∧
      (g.isAdmin = true ∨ g.conversationId = some conversation)) ↔
      issue.Unexpired now account ∧ issue.Covers account conversation := by
  simp only [mem_grants_iff]
  constructor
  · rintro ⟨g, ⟨account, rfl, haccount⟩, hexpires, rfl, hscope⟩
    refine ⟨hexpires, ?_⟩
    by_cases hadmin : issue.AdminPrivate
    · exact .inr ⟨hadmin, haccount.imp_right And.right⟩
    · have hown : account = issue.event.platformAccount := haccount.resolve_right fun h => hadmin h.1
      simp only [hadmin, decide_false, if_false, Bool.false_eq_true, false_or,
        Option.some.injEq] at hscope
      exact .inl ⟨hown, hscope.symm⟩
  · rintro ⟨hexpires, hcovers⟩
    refine ⟨_, ⟨account, rfl, ?_⟩, hexpires, rfl, ?_⟩
    · exact hcovers.elim (fun h => .inl h.1) fun h => h.2.imp_right fun h' => ⟨h.1, h'⟩
    · by_cases hadmin : issue.AdminPrivate
      · exact .inl (decide_eq_true hadmin)
      · rcases hcovers with ⟨-, rfl⟩ | ⟨hprivate, -⟩
        · exact .inr (if_neg hadmin)
        · exact absurd hprivate hadmin

end IssuedToken

namespace HistoryWorld

theorem inv_empty (clock : ℤ) : Inv db (empty clock) :=
  ⟨by rintro g ⟨⟩, by rintro issue ⟨⟩, by rintro row ⟨⟩⟩

/-- Grants of a fresh token are added, and the token may be issued. -/
theorem Inv.create {token : String} {grants : List HistoryReadGrant} {times : List ℤ} {clock : ℤ}
    {issued : List IssuedToken} (hi : Inv db w) (hfresh : token ∉ w.tokens)
    (hclock : w.clock ≤ clock) (hissued : ∀ issue ∈ issued, issue ∈ w.issued ∨
      issue.token = token ∧ issue.grants db = HistoryStore.grantRows db token grants times) :
    Inv db { w with
      state := HistoryStore.createReadGrants db token grants times w.state
      clock, tokens := token :: w.tokens, issued } := by
  constructor
  · intro g hg
    rcases List.mem_append.mp hg with hg | hg
    · obtain ⟨token', htoken, hhash, hold⟩ := hi.grants g hg
      refine ⟨token', List.mem_cons_of_mem _ htoken, hhash, fun issue hissue he => ?_⟩
      rcases hissued issue hissue with hmem | ⟨hnew, -⟩
      · exact hold issue hmem he
      · exact absurd (hnew ▸ he ▸ htoken) hfresh
    · refine ⟨token, List.mem_cons_self .., HistoryStore.tokenHash_of_mem_grantRows hg, ?_⟩
      intro issue hissue he
      rcases hissued issue hissue with hmem | ⟨-, hrows⟩
      · exact absurd (he ▸ (hi.issued issue hmem).1) hfresh
      · exact hrows ▸ hg
  · intro issue hissue
    rcases hissued issue hissue with hmem | ⟨hnew, hrows⟩
    · obtain ⟨htoken, hgrants⟩ := hi.issued issue hmem
      refine ⟨List.mem_cons_of_mem _ htoken, fun g hg hexpires => ?_⟩
      exact List.mem_append_left _ (hgrants g hg (lt_of_le_of_lt hclock hexpires))
    · exact ⟨hnew ▸ List.mem_cons_self .., fun g hg _ => List.mem_append_right _ (hrows ▸ hg)⟩
  · exact hi.messages

theorem Inv.deleteExpiredGrants {now : ℤ} (hi : Inv db w) (hnow : w.clock ≤ now) :
    Inv db { w with state := HistoryStore.deleteExpiredGrants now w.state, clock := now } := by
  constructor
  · intro g hg
    exact hi.grants g (List.mem_of_mem_filter hg)
  · intro issue hissue
    obtain ⟨htoken, hgrants⟩ := hi.issued issue hissue
    refine ⟨htoken, fun g hg hexpires => List.mem_filter.mpr ⟨?_, decide_eq_true hexpires⟩⟩
    exact hgrants g hg (lt_of_le_of_lt hnow hexpires)
  · exact hi.messages

theorem Inv.deleteOldMessages {retentionDays now : ℤ} (hi : Inv db w) (hnow : w.clock ≤ now) :
    Inv db { w with
      state := HistoryStore.deleteOldMessages db retentionDays now w.state, clock := now } := by
  constructor
  · exact hi.grants
  · intro issue hissue
    obtain ⟨htoken, hgrants⟩ := hi.issued issue hissue
    exact ⟨htoken, fun g hg hexpires => hgrants g hg (lt_of_le_of_lt hnow hexpires)⟩
  · exact fun row hrow => hi.messages row (List.mem_of_mem_filter hrow)

theorem Inv.insert {event : CanonicalEvent} (hi : Inv db w) :
    Inv db { w with
      state := HistoryStore.insertCanonicalEvent db event w.state
      stored := event :: w.stored } := by
  constructor
  · intro g hg
    rw [HistoryStore.insertCanonicalEvent_grants] at hg
    exact hi.grants g hg
  · intro issue hissue
    obtain ⟨htoken, hgrants⟩ := hi.issued issue hissue
    rw [HistoryStore.insertCanonicalEvent_grants]
    exact ⟨htoken, hgrants⟩
  · intro row hrow
    rcases HistoryStore.mem_insertCanonicalEvent hrow with ⟨old, hold, ha, hc⟩ | hnew
    · obtain ⟨event', hevent, ha', hc'⟩ := hi.messages old hold
      exact ⟨event', List.mem_cons_of_mem _ hevent, ha.trans ha', hc.trans hc'⟩
    · exact ⟨event, List.mem_cons_self .., hnew⟩

theorem Inv.step (hi : Inv db w) (hs : Step db w w') : Inv db w' := by
  cases hs with
  | insert event => exact hi.insert
  | create issue clock hfresh hclock =>
    apply hi.create hfresh hclock
    intro issue' hissue
    rcases List.mem_cons.mp hissue with rfl | hissue
    · exact .inr ⟨rfl, rfl⟩
    · exact .inl hissue
  | createFailed token grants times clock hfresh hclock =>
    exact hi.create hfresh hclock fun issue hissue => .inl hissue
  | purge retentionDays now now' hnow hnow' =>
    exact (hi.deleteExpiredGrants hnow).deleteOldMessages hnow'
  | purgeFailed now hnow => exact hi.deleteExpiredGrants hnow

theorem Inv.reachable {clock : ℤ} (h : Relation.ReflTransGen (Step db) (empty clock) w) :
    Inv db w := by
  induction h with
  | refl => exact inv_empty clock
  | tail _ hs ih => exact ih.step hs

/-- What an issued token reads is what its grants say. -/
theorem Inv.canRead_iff (hi : Inv db w) (hinj : Set.InjOn db.sha256 {t | t ∈ w.tokens})
    (hissue : issue ∈ w.issued) (hnow : w.clock ≤ now) :
    HistoryStore.dogbotCanReadHistoryRow db w.state (some issue.token) now account conversation =
        true ↔ issue.Unexpired now account ∧ issue.Covers account conversation := by
  obtain ⟨htoken, hgrants⟩ := hi.issued issue hissue
  rw [HistoryStore.canRead_iff, ← issue.grants_cover]
  constructor
  · rintro ⟨g, hg, hhash, hrest⟩
    obtain ⟨token, ht, hg', hissued⟩ := hi.grants g hg
    have heq : issue.token = token := hinj htoken ht (hhash.symm.trans hg')
    exact ⟨g, hissued issue hissue heq, hrest⟩
  · rintro ⟨g, hg, hexpires, hrest⟩
    refine ⟨g, hgrants g hg (lt_of_le_of_lt hnow hexpires), ?_, hexpires, hrest⟩
    exact HistoryStore.tokenHash_of_mem_grantRows hg

theorem Inv.canRead_unknown {token : String} (hi : Inv db w) (htoken : token ∉ w.tokens)
    (hinj : Set.InjOn db.sha256 {t | t = token ∨ t ∈ w.tokens}) :
    HistoryStore.dogbotCanReadHistoryRow db w.state (some token) now account conversation =
      false := by
  rw [← Bool.not_eq_true, HistoryStore.canRead_iff]
  rintro ⟨g, hg, hhash, -⟩
  obtain ⟨token', ht, hg', -⟩ := hi.grants g hg
  have heq : token = token' := hinj (.inl rfl) (.inr ht) (hhash.symm.trans hg')
  exact htoken (heq ▸ ht)

end HistoryWorld

/-- A token that was issued reads a stored row exactly if its grant for the account of the row has
not expired and the token covers the row. A missing, unknown or expired token reads nothing. Stored
rows have the account and the conversation of an event that was stored. -/
theorem history_read_isolation {start : ℤ} {presented : Option String}
    (h : Relation.ReflTransGen (HistoryWorld.Step db) (HistoryWorld.empty start) w)
    (hinj : Set.InjOn db.sha256 {t | presented = some t ∨ t ∈ w.tokens}) (hnow : w.clock ≤ now) :
    (∀ issue ∈ w.issued, presented = some issue.token → ∀ row ∈ w.state.messages,
      (HistoryStore.dogbotCanReadHistoryRow db w.state presented now row.platformAccount
          row.conversationId = true ↔
        issue.Unexpired now row.platformAccount ∧
          issue.Covers row.platformAccount row.conversationId)) ∧
    ((∀ token ∈ w.tokens, presented ≠ some token) → ∀ row ∈ w.state.messages,
      HistoryStore.dogbotCanReadHistoryRow db w.state presented now row.platformAccount
        row.conversationId = false) ∧
    (∀ issue ∈ w.issued, presented = some issue.token → ∀ row ∈ w.state.messages,
      ¬ issue.Unexpired now row.platformAccount →
      HistoryStore.dogbotCanReadHistoryRow db w.state presented now row.platformAccount
        row.conversationId = false) ∧
    ∀ row ∈ w.state.messages, ∃ event ∈ w.stored,
      row.platformAccount = event.platformAccount ∧ row.conversationId = event.conversation := by
  have hi := HistoryWorld.Inv.reachable h
  have htokens : Set.InjOn db.sha256 {t | t ∈ w.tokens} := hinj.mono fun t ht => .inr ht
  refine ⟨?_, ?_, ?_, hi.messages⟩
  · rintro issue hissue rfl row -
    exact hi.canRead_iff htokens hissue hnow
  · intro hunknown row _
    cases presented with
    | none => rfl
    | some token =>
      have hsub : Set.InjOn db.sha256 {t | t = token ∨ t ∈ w.tokens} :=
        hinj.mono fun t ht => ht.imp_left fun he => congrArg some he.symm
      exact hi.canRead_unknown (fun ht => hunknown token ht rfl) hsub
  · rintro issue hissue rfl row - hexpired
    rw [← Bool.not_eq_true, hi.canRead_iff htokens hissue hnow]
    exact fun hread => hexpired hread.1

section Example

def exampleDatabase : HistoryDatabase where
  sha256 _ :=
      [15, 0, 115, 133, 182, 249, 212, 183, 238, 178, 116, 134, 5, 175, 225, 169, 132, 160,
      163, 191, 163, 240, 20, 208, 158, 42, 120, 76, 233, 229, 205, 26]
  toTimestamp epochSecs := epochSecs * 1000000
  minusDays now days := now - days * 86400000000

def exampleEnv : EnvMap := fun key =>
  if key = "DOGBOT_ADMIN_ACTOR_IDS" then some "qq:user:7" else none

def examplePayload : Json.Value :=
  .object [("post_type", .string "message"), ("message_type", .string "private"),
    ("user_id", .number (.int 7)), ("message_id", .number (.int 1)),
    ("raw_message", .string "hello")]

theorem history_read_isolation_admin : ∃ (w : HistoryWorld) (issue : IssuedToken),
    issue ∈ w.issued ∧ issue.AdminPrivate ∧ w.state.messages ≠ [] ∧
      ∀ row ∈ w.state.messages,
        (HistoryStore.dogbotCanReadHistoryRow exampleDatabase w.state (some issue.token) 1
            row.platformAccount row.conversationId = true ↔
          issue.Unexpired 1 row.platformAccount ∧
            issue.Covers row.platformAccount row.conversationId) := by
  obtain ⟨settings, event, request, hsettings, hevent, hrequest, hscope, hactor, hmessages⟩ :
      ∃ settings event request, fromEnvMap exampleEnv = .ok settings ∧
        (Qq.QqPlatform.fromSettings settings).decodeEvent examplePayload = some event ∧
        buildRunRequestFromEvent event = some request ∧
        conversationScope event.conversation = some "private" ∧
        event.actor ∈ settings.adminActorIds ∧
        (HistoryStore.insertCanonicalEvent exampleDatabase event .empty).messages.length = 1 :=
    ⟨_, _, _, rfl, rfl, rfl, by decide +kernel, by decide +kernel, by decide +kernel⟩
  let issue : IssuedToken :=
    { token := "AAAAAAAAAAAAAAAAAAAAAAAAAAAAAAAAAAAAAAAAAAA"
      settings, event, request
      storedAt := fun _ => 0
      fromEnv := ⟨exampleEnv, hsettings⟩
      decoded := .qq examplePayload hevent
      requested := hrequest }
  let stored : HistoryWorld :=
    { HistoryWorld.empty 0 with
      state := HistoryStore.insertCanonicalEvent exampleDatabase event .empty
      stored := [event] }
  let w : HistoryWorld :=
    { stored with
      state := HistoryStore.createReadGrants exampleDatabase issue.token
        (historyReadGrantsForRequest settings.toSettings request) issue.times stored.state
      tokens := [issue.token]
      issued := [issue] }
  have hrun : Relation.ReflTransGen (HistoryWorld.Step exampleDatabase) (.empty 0) w :=
    (Relation.ReflTransGen.single (.insert (.empty 0) event)).tail
      (.create stored issue 0 List.not_mem_nil le_rfl)
  refine ⟨w, issue, List.mem_cons_self .., ⟨hscope, hactor⟩, ?_, ?_⟩
  · exact List.ne_nil_of_length_pos (hmessages ▸ Nat.one_pos)
  · have hinj : Set.InjOn exampleDatabase.sha256
        {t | some issue.token = some t ∨ t ∈ [issue.token]} := by
      intro t ht t' ht' _
      simp only [Set.mem_ofPred_eq, Option.some.injEq, List.mem_singleton] at ht ht'
      rcases ht with rfl | rfl <;> rcases ht' with rfl | rfl <;> rfl
    exact (history_read_isolation hrun hinj Int.one_nonneg).1 issue (List.mem_cons_self ..) rfl

end Example

end DogBot
