import DogBot.Library.Program
import DogBot.Library.Table
import DogBot.Models

/-! # The session store

Every public operation of `SessionStore` is a sequence of single SQL statements
on two tables, each committed on its own. A statement may fail, before or after
it took effect; a connection that cannot be opened counts as a failure of the
first statement. A row of `runner_session_aliases` refers to an existing row of
`runner_sessions`.
-/

namespace DogBot

/-- The platform, the account on it, and the conversation that a session belongs to. -/
structure SessionIdentity where
  platform : String
  platformAccount : String
  conversationId : String
  deriving DecidableEq, Repr

def RunRequest.identity (request : RunRequest) : SessionIdentity where
  platform := request.platform
  platformAccount := request.platformAccountId
  conversationId := request.conversationId

structure SessionRow where
  claudeSessionId : String
  identity : SessionIdentity
  createdAtEpochSecs : ℤ
  lastUsedAtEpochSecs : ℤ
  deriving DecidableEq, Repr

structure SessionRecord where
  sessionKey : String
  externalSessionId : String
  claudeSessionId : String
  identity : SessionIdentity
  userId : String
  createdAtEpochSecs : ℤ
  lastUsedAtEpochSecs : ℤ
  isNew : Bool
  deriving DecidableEq, Repr

inductive SessionStoreError
  | postgres (message : String)
  | workerPanicked
  | sessionConflict (externalSessionId platform conversationId userId : String)
  deriving DecidableEq, Repr

def SessionStoreError.message : SessionStoreError → String
  | postgres message => message
  | workerPanicked => "postgres worker thread panicked"
  | sessionConflict externalSessionId platform conversationId userId =>
    "external session_id " ++ externalSessionId ++ " already belongs to platform=" ++ platform ++
      ", conversation_id=" ++ conversationId ++ ", user_id=" ++ userId

def SessionStoreError.isConflict : SessionStoreError → Bool
  | sessionConflict .. => true
  | _ => false

def conversationSessionKey (identity : SessionIdentity) : String :=
  "conversation::" ++ identity.platform ++ "::" ++ identity.platformAccount ++ "::" ++
    identity.conversationId

/-- The two tables, with the uuids that have been generated so far. -/
structure SessionState where
  sessions : Table String SessionRow
  aliases : Table String String
  issued : List String

def SessionState.empty : SessionState where
  sessions := ∅
  aliases := ∅
  issued := []

inductive Statement
  | selectSession (sessionKey : String)
  | insertSession (sessionKey : String) (row : SessionRow)
  | touchSession (sessionKey : String) (now : ℤ)
  | rotateSession (sessionKey claudeSessionId : String) (now : ℤ)
  | selectAlias (externalSessionId : String)
  | upsertAlias (externalSessionId sessionKey : String)

namespace Statement

abbrev Answer : Statement → Type
  | selectSession _ => Option SessionRow
  | insertSession _ _ => Bool
  | touchSession _ _ => Unit
  | rotateSession _ _ _ => Unit
  | selectAlias _ => Option String
  | upsertAlias _ _ => Unit

/-- The foreign key of the alias table. -/
def Allowed (s : SessionState) : Statement → Prop
  | upsertAlias _ sessionKey => sessionKey ∈ s.sessions
  | _ => True

instance (s : SessionState) : ∀ st, Decidable (Allowed s st)
  | selectSession _ | insertSession _ _ | touchSession _ _ | rotateSession _ _ _ | selectAlias _ =>
    .isTrue trivial
  | upsertAlias _ sessionKey => inferInstanceAs (Decidable (sessionKey ∈ s.sessions))

/-- The answer: the row found, or whether a row was inserted. -/
def answer (s : SessionState) : (st : Statement) → st.Answer
  | selectSession sessionKey => s.sessions.lookup sessionKey
  | insertSession sessionKey _ => decide (sessionKey ∉ s.sessions)
  | touchSession _ _ => ()
  | rotateSession _ _ _ => ()
  | selectAlias externalSessionId => s.aliases.lookup externalSessionId
  | upsertAlias _ _ => ()

def updateRow (s : SessionState) (sessionKey : String) (f : SessionRow → SessionRow) :
    SessionState :=
  match s.sessions.lookup sessionKey with
  | some row => { s with sessions := s.sessions.insert sessionKey (f row) }
  | none => s

def effect (s : SessionState) : Statement → SessionState
  | selectSession _ => s
  | insertSession sessionKey row =>
    if sessionKey ∈ s.sessions then s
    else { s with sessions := s.sessions.insert sessionKey row }
  | touchSession sessionKey now =>
    updateRow s sessionKey fun row => { row with lastUsedAtEpochSecs := now }
  | rotateSession sessionKey claudeSessionId now =>
    updateRow s sessionKey fun row =>
      { row with claudeSessionId, createdAtEpochSecs := now, lastUsedAtEpochSecs := now }
  | selectAlias _ => s
  | upsertAlias externalSessionId sessionKey =>
    { s with aliases := s.aliases.insert externalSessionId sessionKey }

end Statement

inductive SessionOp
  | statement (st : Statement)
  | newUuid
  | epochNow

abbrev SessionOp.Result : SessionOp → Type
  | statement st => Except SessionStoreError st.Answer
  | newUuid => String
  | epochNow => ℤ

/-- What an operation may do. A uuid is fresh; a statement that violates the foreign key is
refused, and where faults are possible a failed statement may have taken effect. -/
inductive SessionStep (faulty : Prop) :
    SessionState → (op : SessionOp) → op.Result → SessionState → Prop
  | executed {s : SessionState} {st : Statement} (h : st.Allowed s) :
      SessionStep faulty s (.statement st) (.ok (st.answer s)) (st.effect s)
  | refused {s : SessionState} {st : Statement} {message : String} (h : ¬ st.Allowed s) :
      SessionStep faulty s (.statement st) (.error (.postgres message)) s
  | failed {s : SessionState} {st : Statement} {message : String} (hf : faulty) :
      SessionStep faulty s (.statement st) (.error (.postgres message)) s
  | unconfirmed {s : SessionState} {st : Statement} {message : String} (hf : faulty)
      (h : st.Allowed s) :
      SessionStep faulty s (.statement st) (.error (.postgres message)) (st.effect s)
  | newUuid {s : SessionState} {id : String} (h : id ∉ s.issued) :
      SessionStep faulty s .newUuid id { s with issued := id :: s.issued }
  | epochNow {s : SessionState} {now : ℤ} : SessionStep faulty s .epochNow now s

abbrev StoreM (α : Type) := Program SessionOp SessionOp.Result SessionStoreError α

namespace SessionStore

def statement (st : Statement) : StoreM st.Answer := .call (.statement st) .ofExcept
def newUuid : StoreM String := .call .newUuid .ret
def epochNow : StoreM ℤ := .call .epochNow .ret

def buildSessionRecord (sessionKey externalSessionId : String) (row : SessionRow) (isNew : Bool) :
    SessionRecord where
  sessionKey := sessionKey
  externalSessionId := externalSessionId
  claudeSessionId := row.claudeSessionId
  identity := row.identity
  userId := ""
  createdAtEpochSecs := row.createdAtEpochSecs
  lastUsedAtEpochSecs := row.lastUsedAtEpochSecs
  isNew := isNew

/-- The conflict that is reported when the row of a key does not exist. -/
def missingSession (externalSessionId : String) (identity : SessionIdentity) : SessionStoreError :=
  .sessionConflict externalSessionId identity.platform identity.conversationId ""

/-- The conflict that names the owner of a record. -/
def ownedBy (externalSessionId : String) (record : SessionRecord) : SessionStoreError :=
  .sessionConflict externalSessionId record.identity.platform record.identity.conversationId
    record.userId

def fetchSession (sessionKey externalSessionId : String) : StoreM (Option SessionRecord) := do
  let row ← statement (.selectSession sessionKey)
  return row.map fun row => buildSessionRecord sessionKey externalSessionId row false

def lookupSessionAlias (externalSessionId : String) : StoreM (Option String) :=
  statement (.selectAlias externalSessionId)

def upsertSessionAlias (externalSessionId sessionKey : String) : StoreM Unit :=
  statement (.upsertAlias externalSessionId sessionKey)

def ensureSessionIdentity (record : SessionRecord) (identity : SessionIdentity) : StoreM Unit :=
  if record.identity = identity then .ret ()
  else .fail (ownedBy record.externalSessionId record)

/-- Check the owner of a record, and note that it was used. -/
def useRecord (sessionKey : String) (identity : SessionIdentity) (now : ℤ)
    (record : SessionRecord) : StoreM SessionRecord := do
  ensureSessionIdentity record identity
  statement (.touchSession sessionKey now)
  return { record with lastUsedAtEpochSecs := now }

def getOrCreateByKey (sessionKey : String) (identity : SessionIdentity)
    (externalSessionId : String) : StoreM SessionRecord := do
  let now ← epochNow
  match ← fetchSession sessionKey externalSessionId with
  | some record => useRecord sessionKey identity now record
  | none =>
    let claudeSessionId ← newUuid
    let row : SessionRow :=
      { claudeSessionId, identity, createdAtEpochSecs := now, lastUsedAtEpochSecs := now }
    let inserted ← statement (.insertSession sessionKey row)
    if inserted then return buildSessionRecord sessionKey externalSessionId row true
    else
      match ← fetchSession sessionKey externalSessionId with
      | some record => useRecord sessionKey identity now record
      | none => .fail .workerPanicked -- session should exist after insert conflict

def resetByKey (sessionKey : String) (identity : SessionIdentity) (externalSessionId : String) :
    StoreM SessionRecord := do
  let now ← epochNow
  match ← fetchSession sessionKey externalSessionId with
  | none => .fail (missingSession externalSessionId identity)
  | some existing =>
    ensureSessionIdentity existing identity
    let claudeSessionId ← newUuid
    statement (.rotateSession sessionKey claudeSessionId now)
    return buildSessionRecord sessionKey externalSessionId
      { claudeSessionId, identity, createdAtEpochSecs := now, lastUsedAtEpochSecs := now } true

def validateExternalSessionBinding (externalSessionId : String) (identity : SessionIdentity) :
    StoreM Unit := do
  match ← lookupSessionAlias externalSessionId with
  | none => return ()
  | some existingSessionKey =>
    if existingSessionKey = conversationSessionKey identity then return ()
    else
      match ← fetchSession existingSessionKey externalSessionId with
      | none => .fail (missingSession externalSessionId identity)
      | some existing => .fail (ownedBy externalSessionId existing)

def getOrCreateConversationSession (identity : SessionIdentity) : StoreM SessionRecord :=
  getOrCreateByKey (conversationSessionKey identity) identity (conversationSessionKey identity)

def resetConversationSession (identity : SessionIdentity) : StoreM SessionRecord :=
  resetByKey (conversationSessionKey identity) identity (conversationSessionKey identity)

def getOrCreateBoundSession (externalSessionId : String) (identity : SessionIdentity) :
    StoreM SessionRecord := do
  validateExternalSessionBinding externalSessionId identity
  let record ← getOrCreateByKey (conversationSessionKey identity) identity externalSessionId
  upsertSessionAlias externalSessionId (conversationSessionKey identity)
  return record

def bindExternalSessionId (externalSessionId : String) (identity : SessionIdentity) :
    StoreM Unit := do
  validateExternalSessionBinding externalSessionId identity
  match ← fetchSession (conversationSessionKey identity) externalSessionId with
  | none => .fail (missingSession externalSessionId identity)
  | some record =>
    ensureSessionIdentity record identity
    upsertSessionAlias externalSessionId (conversationSessionKey identity)

def getSession (externalSessionId : String) : StoreM (Option SessionRecord) := do
  match ← lookupSessionAlias externalSessionId with
  | some sessionKey => fetchSession sessionKey externalSessionId
  | none => fetchSession externalSessionId externalSessionId

/-- Unlike the other operations that bind an alias, this one does not validate the binding. -/
def resetBoundSession (externalSessionId : String) (identity : SessionIdentity) :
    StoreM SessionRecord := do
  let record ← resetByKey (conversationSessionKey identity) identity externalSessionId
  upsertSessionAlias externalSessionId (conversationSessionKey identity)
  return record

/-- Validate and bind the external session id of a request around an operation on its
conversation; a blank id is not bound. -/
@[irreducible] def withExternalSession (request : RunRequest) (operation : StoreM SessionRecord) :
    StoreM SessionRecord :=
  if Text.trim request.sessionId = "" then operation
  else do
    validateExternalSessionBinding request.sessionId request.identity
    let session ← operation
    bindExternalSessionId request.sessionId request.identity
    return session

def loadRuntimeSession (request : RunRequest) : StoreM SessionRecord :=
  withExternalSession request (getOrCreateConversationSession request.identity)

def resetRuntimeSession (request : RunRequest) : StoreM SessionRecord :=
  withExternalSession request (resetConversationSession request.identity)

end SessionStore

end DogBot
