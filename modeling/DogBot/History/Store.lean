import DogBot.Config
import DogBot.Platforms.Common

/-! # The history store

Messages and read grants are two tables. A message is stored under its platform
account, conversation and message id. A grant is stored under the hash of its
token, and a row of the messages can be read by a token if one of its grants is
valid for the account and the conversation of the row.
-/

namespace DogBot

/-- What the database and the hash function compute. Times are in microseconds. -/
structure HistoryDatabase where
  sha256 : String → List UInt8
  toTimestamp : ℤ → ℤ
  minusDays : ℤ → ℤ → ℤ

structure HistoryMessage where
  platform : String
  platformAccount : String
  conversationId : String
  chatType : String
  messageId : String
  actorId : String
  actorDisplay : Option String
  plainText : String
  replyToMessageId : Option String
  createdAt : ℤ
  raw : String
  deriving DecidableEq, Repr

structure ReadGrantRow where
  tokenHash : List UInt8
  platformAccount : String
  conversationId : Option String
  actorId : String
  isAdmin : Bool
  expiresAt : ℤ
  deriving DecidableEq, Repr

structure HistoryState where
  messages : List HistoryMessage
  grants : List ReadGrantRow

namespace HistoryState

def empty : HistoryState := ⟨[], []⟩

def SameKey (row row' : HistoryMessage) : Prop :=
  row.platformAccount = row'.platformAccount ∧ row.conversationId = row'.conversationId ∧
    row.messageId = row'.messageId

instance (row row' : HistoryMessage) : Decidable (SameKey row row') :=
  inferInstanceAs (Decidable (_ ∧ _ ∧ _))

/-- Insert a message, or update the one with its key. -/
def upsertMessage (s : HistoryState) (row : HistoryMessage) : HistoryState :=
  if s.messages.any fun row' => SameKey row' row then
    { s with messages := s.messages.map fun row' =>
        if SameKey row' row then
          { row' with
            actorId := row.actorId, actorDisplay := row.actorDisplay, plainText := row.plainText
            replyToMessageId := row.replyToMessageId, createdAt := row.createdAt, raw := row.raw }
        else row' }
  else { s with messages := s.messages ++ [row] }

end HistoryState

def storagePlainText (message : CanonicalMessage) : String :=
  "".intercalate (message.parts.filterMap fun
    | .text text => some text
    | _ => none)

namespace HistoryStore

variable (db : HistoryDatabase)

def insertCanonicalEvent (event : CanonicalEvent) (s : HistoryState) : HistoryState :=
  match event.message with
  | none => s
  | some message =>
    let plainText := Text.trim (storagePlainText message)
    if plainText = "" then s
    else s.upsertMessage
      { platform := event.platform
        platformAccount := event.platformAccount
        conversationId := event.conversation
        chatType := (conversationScope event.conversation).getD "unknown"
        messageId := message.messageId
        actorId := event.actor
        actorDisplay := (message.nativeMetadata.get "sender_display").bind Json.Value.asStr
        plainText
        replyToMessageId := message.replyTo
        createdAt := db.toTimestamp event.timestampEpochSecs
        raw := event.rawNativePayload.print }

/-- The row of a grant whose statement runs at a given time. -/
def grantRow (token : String) (grant : HistoryReadGrant) (now : ℤ) : ReadGrantRow where
  tokenHash := db.sha256 token
  platformAccount := grant.platformAccount
  conversationId := grant.conversationId
  actorId := grant.actorId
  isAdmin := grant.isAdmin
  expiresAt := now + grant.ttlSecs * 1000000

def grantRows (token : String) (grants : List HistoryReadGrant) (times : List ℤ) :
    List ReadGrantRow :=
  (grants.zip times).map fun stamped => grantRow db token stamped.1 stamped.2

/-- Each grant is inserted by a statement of its own, with the time it runs at. -/
def createReadGrants (token : String) (grants : List HistoryReadGrant) (times : List ℤ)
    (s : HistoryState) : HistoryState :=
  { s with grants := s.grants ++ grantRows db token grants times }

def deleteExpiredGrants (now : ℤ) (s : HistoryState) : HistoryState :=
  { s with grants := s.grants.filter fun grant => now < grant.expiresAt }

def deleteOldMessages (retentionDays now : ℤ) (s : HistoryState) : HistoryState :=
  { s with messages := s.messages.filter fun row =>
      db.minusDays now retentionDays ≤ row.createdAt }

/-- The two statements of a purge run at times of their own. -/
def purgeExpired (retentionDays now now' : ℤ) (s : HistoryState) : HistoryState :=
  deleteOldMessages db retentionDays now' (deleteExpiredGrants now s)

/-- The row-level policy, for the token that a session has set. -/
def dogbotCanReadHistoryRow (s : HistoryState) (runToken : Option String) (now : ℤ)
    (rowPlatformAccount rowConversationId : String) : Bool :=
  match runToken with
  | none => false
  | some token => s.grants.any fun g =>
      g.tokenHash = db.sha256 token && now < g.expiresAt &&
        g.platformAccount = rowPlatformAccount &&
          (g.isAdmin || g.conversationId = some rowConversationId)

end HistoryStore

variable {db : HistoryDatabase} {s : HistoryState} {row row' : HistoryMessage}

theorem HistoryState.mem_upsertMessage (h : row' ∈ (s.upsertMessage row).messages) :
    (∃ old ∈ s.messages, row'.platformAccount = old.platformAccount ∧
        row'.conversationId = old.conversationId) ∨
      row'.platformAccount = row.platformAccount ∧ row'.conversationId = row.conversationId := by
  unfold HistoryState.upsertMessage at h
  split_ifs at h with hany
  · obtain ⟨old, hold, rfl⟩ := List.mem_map.mp h
    refine .inl ⟨old, hold, ?_⟩
    split_ifs <;> exact ⟨rfl, rfl⟩
  · rcases List.mem_append.mp h with h | h
    · exact .inl ⟨row', h, rfl, rfl⟩
    · obtain rfl := List.mem_singleton.mp h
      exact .inr ⟨rfl, rfl⟩

theorem HistoryState.upsertMessage_grants : (s.upsertMessage row).grants = s.grants := by
  unfold HistoryState.upsertMessage
  split_ifs <;> rfl

namespace HistoryStore

variable {event : CanonicalEvent}

theorem insertCanonicalEvent_grants : (insertCanonicalEvent db event s).grants = s.grants := by
  unfold insertCanonicalEvent
  split
  · rfl
  · dsimp only
    split_ifs
    · rfl
    · exact HistoryState.upsertMessage_grants

theorem mem_insertCanonicalEvent (h : row ∈ (insertCanonicalEvent db event s).messages) :
    (∃ old ∈ s.messages, row.platformAccount = old.platformAccount ∧
        row.conversationId = old.conversationId) ∨
      row.platformAccount = event.platformAccount ∧ row.conversationId = event.conversation := by
  unfold insertCanonicalEvent at h
  split at h
  · exact .inl ⟨row, h, rfl, rfl⟩
  · dsimp only at h
    split_ifs at h
    · exact .inl ⟨row, h, rfl, rfl⟩
    · exact HistoryState.mem_upsertMessage h

theorem tokenHash_of_mem_grantRows {g : ReadGrantRow} {token : String}
    {grants : List HistoryReadGrant} {times : List ℤ} (h : g ∈ grantRows db token grants times) :
    g.tokenHash = db.sha256 token := by
  obtain ⟨stamped, -, rfl⟩ := List.mem_map.mp h
  rfl

theorem canRead_iff {token : String} {now : ℤ} {account conversation : String} :
    dogbotCanReadHistoryRow db s (some token) now account conversation = true ↔
      ∃ g ∈ s.grants, g.tokenHash = db.sha256 token ∧ now < g.expiresAt ∧
        g.platformAccount = account ∧
          (g.isAdmin = true ∨ g.conversationId = some conversation) := by
  simp [dogbotCanReadHistoryRow, List.any_eq_true, and_assoc]

end HistoryStore

end DogBot
