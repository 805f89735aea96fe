import DogBot.Server.System
import DogBot.Session.Ownership

/-! # Messages to a session

A run binds the session id of its request as it was sent, while a message trims
its session id before the session is looked up. A session id with white space
around it is therefore found again only if its trimmed form stands for the
conversation already.
-/

namespace DogBot

structure MessageRequest where
  sessionId : String
  text : String
  replyToMessageId : Option String
  mentionUserId : Option String

def MessageRequest.validate (request : MessageRequest) : Except String Unit :=
  if Text.trim request.sessionId = "" then .error "session_id must be provided"
  else if Text.trim request.text = "" then .error "text must be provided"
  else .ok ()

def toInternalErrorMessage (message : String) : ErrorResponse where
  status := "error"
  errorCode := "internal_error"
  message := message
  timedOut := false

def sessionNotFound : ErrorResponse where
  status := "error"
  errorCode := "session_not_found"
  message := "session_id is unknown"
  timedOut := false

/-- The handler of `/v1/messages`, after its body was parsed and until the message is delivered. -/
def Server.sendMessage (request : MessageRequest) :
    Program SessionOp SessionOp.Result ErrorResponse SessionRecord := do
  let request := { request with sessionId := Text.trim request.sessionId }
  .ofExcept (request.validate.mapError .invalidRequest)
  let session ← (SessionStore.getSession request.sessionId).mapError fun err =>
    toInternalErrorMessage ("session store failure: " ++ err.message)
  match session with
  | some session => return session
  | none => .fail sessionNotFound

/-- No call binds the external id to another conversation. -/
def NotRebound (externalSessionId : String) (t : SessionIdentity) (events : List SessionEvent) :
    Prop :=
  ∀ event ∈ events, event.1.external = some externalSessionId → event.1.identity = some t

/-- Whatever calls follow that do not rebind the session id, a message with it is for the
conversation of the request, unless the database fails. -/
def Messageable (faulty : Prop) (request : RunRequest) (s : SessionState) : Prop :=
  ∀ (events : List SessionEvent) (s₁ : SessionState),
    Trace (SessionEvent.Step faulty) s events s₁ →
    NotRebound request.sessionId request.identity events →
    NotRebound (Text.trim request.sessionId) request.identity events →
    ∀ message : MessageRequest, message.sessionId = request.sessionId →
      Text.trim message.text ≠ "" →
      ∀ o s₂, Program.Runs (SessionStep faulty) (Server.sendMessage message) s₁ o s₂ →
        (∃ session, o = .ok session ∧ session.identity = request.identity) ∨
          ∃ e, o = .error e ∧ faulty ∧ e.errorCode = "internal_error"

open SessionStore

variable {faulty : Prop} {s s' : SessionState} {request : RunRequest} {message : MessageRequest}
  {record : SessionRecord} {t : SessionIdentity} {eid : String}

/-- A message is for the session that is found for its trimmed session id. -/
theorem sendMessage_spec (hid : Text.trim message.sessionId ≠ "")
    (htext : Text.trim message.text ≠ "") {o : Except ErrorResponse SessionRecord}
    (hruns : Program.Runs (SessionStep faulty) (Server.sendMessage message) s o s') :
    (∀ session, o = .ok session → s.find (Text.trim message.sessionId) = some session) ∧
      ∀ e, o = .error e → faulty ∧ e.errorCode = "internal_error" ∨
        s.find (Text.trim message.sessionId) = none ∧ e.errorCode = "session_not_found" := by
  have hvalid : MessageRequest.validate
      { message with sessionId := Text.trim message.sessionId } = .ok () := by
    rw [MessageRequest.validate, if_neg (by simpa using hid), if_neg htext]
  refine hruns.post (Q := fun session _ => s.find (Text.trim message.sessionId) = some session)
    (E := fun e _ => faulty ∧ e.errorCode = "internal_error" ∨
      s.find (Text.trim message.sessionId) = none ∧ e.errorCode = "session_not_found") ?_
  rw [Server.sendMessage]
  simp only [hvalid, Except.mapError, Program.ofExcept, Program.ret_bind, Program.always_bind,
    Program.always_mapError]
  refine (SessionStore.getSession_spec faulty s _).mono ?_ ?_
  · rintro found s' ⟨rfl, rfl⟩
    change Program.Always _ (match s'.find (Text.trim message.sessionId) with
      | some session => return session
      | none => .fail sessionNotFound) _ _ s'
    cases s'.find (Text.trim message.sessionId) with
    | some session => exact rfl
    | none => exact .inr ⟨rfl, rfl⟩
  · rintro e s' ⟨rfl, hrefused⟩
    cases he : e.isConflict with
    | true => exact (hrefused.reason he).elim
    | false => exact .inl ⟨hrefused.fault he, rfl⟩

theorem resolve_of_trace {events : List SessionEvent}
    (h : Trace (SessionEvent.Step faulty) s events s') (hkeep : NotRebound eid t events)
    (hres : s.resolve eid = some t) : s'.resolve eid = some t := by
  induction h with
  | nil => exact hres
  | @snoc s₁ s₂ events event _ hstep ih =>
    obtain ⟨hevents, hevent⟩ := List.forall_mem_append.mp hkeep
    specialize ih hevents
    obtain ⟨call, outcome⟩ := event
    rcases hstep.changes with ⟨t', ht', hc⟩ | ⟨-, rfl⟩
    · rcases hc.alias eid with hsame | ⟨⟨s₃, hb⟩, ha, hown⟩
      · rw [SessionState.resolve, hsame]
        exact hc.owner_eq ih
      · obtain rfl := Option.some.inj (ht'.symm.trans (hevent _ (List.mem_singleton_self _) hb.1))
        rw [SessionState.resolve, ha]
        exact hown
    · exact ih

theorem exists_message (sessionId : String) :
    ∃ message : MessageRequest, message.sessionId = sessionId ∧ Text.trim message.text ≠ "" :=
  ⟨⟨sessionId, "hello", none, none⟩, rfl, (by decide +kernel : Text.trim "hello" ≠ "")⟩

theorem exists_runs_sendMessage (faulty : Prop) (message : MessageRequest) (s : SessionState) :
    ∃ o s₁, Program.Runs (SessionStep False) (Server.sendMessage message) s o s₁ ∧
      Program.Runs (SessionStep faulty) (Server.sendMessage message) s o s₁ :=
  ⟨_, _, Program.runs_eval (SessionState.step_handle False) _ _,
    Program.runs_eval (SessionState.step_handle faulty) _ _⟩

/-- Messages reach the conversation exactly if the trimmed session id stands for it. -/
theorem messageable_iff (hid : Text.trim request.sessionId ≠ "") :
    Messageable faulty request s ↔
      s.resolve (Text.trim request.sessionId) = some request.identity := by
  constructor
  · intro h
    obtain ⟨message, hmessage, htext⟩ := exists_message request.sessionId
    obtain ⟨o, s₁, hruns, hruns'⟩ := exists_runs_sendMessage faulty message s
    rw [← hmessage] at hid ⊢
    obtain ⟨hok, herr⟩ := sendMessage_spec hid htext hruns
    have hnone : ∀ externalSessionId, NotRebound externalSessionId request.identity [] := by
      simp [NotRebound]
    rcases h [] s (.nil s) (hnone _) (hnone _) message hmessage htext o s₁ hruns' with
      ⟨session, ho, hidentity⟩ | ⟨e, he, -, hcode⟩
    · rw [← SessionState.map_identity_find, hok session ho, ← hidentity]
      rfl
    · rcases herr e he with ⟨hfalse, -⟩ | ⟨-, hcode'⟩
      · exact hfalse.elim
      · exact absurd (hcode.symm.trans hcode') (by decide)
  · intro hres events s₁ htrace _ hkeep message hmessage htext o s₂ hruns
    have hres₁ := resolve_of_trace htrace hkeep hres
    rw [← hmessage] at hid hres₁
    obtain ⟨hok, herr⟩ := sendMessage_spec hid htext hruns
    rw [← SessionState.map_identity_find] at hres₁
    obtain ⟨session, hfound, hidentity⟩ := Option.map_eq_some_iff.mp hres₁
    cases o with
    | ok session' =>
      obtain rfl := Option.some.inj ((hok session' rfl).symm.trans hfound)
      exact .inl ⟨session', rfl, hidentity⟩
    | error e =>
      rcases herr e rfl with ⟨hf, hcode⟩ | ⟨hnone, -⟩
      · exact .inr ⟨e, rfl, hf, hcode⟩
      · rw [hfound] at hnone
        cases hnone

/-- What the trimmed session id stands for after a run has loaded its session. -/
theorem resolve_trim_iff (hid : Text.trim request.sessionId ≠ "")
    (hload : Program.Runs (SessionStep faulty) (SessionStore.loadRuntimeSession request) s
      (.ok record) s') :
    s'.resolve (Text.trim request.sessionId) = some request.identity ↔
      Text.trim request.sessionId = request.sessionId ∨
        s.resolve (Text.trim request.sessionId) = some request.identity ∨
        (s.aliases.lookup (Text.trim request.sessionId)).getD (Text.trim request.sessionId) =
          conversationSessionKey request.identity := by
  have hspec : BindSpec faulty request.identity request.sessionId
      (Validated request.identity request.sessionId)
      (¬ s.Bindable request.sessionId request.identity ∨ s.Taken request.identity) s
      (SessionStore.loadRuntimeSession request) :=
    withExternalSession_spec hid (getOrCreateByKey_spec faulty s _ _)
  obtain ⟨hchanges, hobtained, halias, -⟩ := (hload.post hspec).1 record rfl
  have howner := hobtained.owner
  by_cases htrim : Text.trim request.sessionId = request.sessionId
  · rw [htrim, SessionState.resolve, halias]
    exact iff_of_true howner (.inl rfl)
  · have hsame : s'.aliases.lookup (Text.trim request.sessionId) =
        s.aliases.lookup (Text.trim request.sessionId) := by
      rcases hchanges.alias (Text.trim request.sessionId) with hsame | ⟨⟨s₁, heq, -⟩, -, -⟩
      · exact hsame
      · exact absurd heq htrim
    rw [or_iff_right htrim, SessionState.resolve, SessionState.resolve, hsame]
    constructor
    · intro hres
      exact (hchanges.owner_cases hres).imp_right And.left
    · rintro (hres | hkey)
      · exact hchanges.owner_eq hres
      · rw [hkey]
        exact howner

/-- A session that a direct run has bound can be messaged under the same id exactly if the id has no
white space around it, or if its trimmed form stands for the conversation of the run already. -/
theorem bound_session_messageable_iff {call : RunCall} (hrun : Server.run request = .ok call)
    (hid : Text.trim request.sessionId ≠ "")
    (hload : Program.Runs (SessionStep faulty) (SessionStore.loadRuntimeSession call.request) s
      (.ok record) s') :
    Messageable faulty call.request s' ↔
      Text.trim request.sessionId = request.sessionId ∨
        s.resolve (Text.trim request.sessionId) = some call.request.identity ∨
        (s.aliases.lookup (Text.trim request.sessionId)).getD (Text.trim request.sessionId) =
          conversationSessionKey call.request.identity := by
  have hsession : call.request.sessionId = request.sessionId := by rw [Server.run_request hrun]
  rw [← hsession] at hid ⊢
  rw [messageable_iff hid, resolve_trim_iff hid hload]

/-- A request of a run in a private conversation, with a session id. -/
def privateRequest (sessionId : String) : RunRequest where
  platform := "qq"
  platformAccountId := "qq:bot_uin:9"
  conversationId := "qq:private:1"
  sessionId := sessionId
  userId := "qq:user:1"
  chatType := "private"
  cwd := "/workspace"
  prompt := "hello"
  triggerSummary := none
  triggerMessageId := none
  triggerReplyToMessageId := none
  mentionRefs := []
  replyExcerpt := none
  timeoutSecs := none

/-- A run for a session id can be started, and it loads its session in the empty state. -/
def Loads (sessionId : String) (call : RunCall) (s : SessionState) : Prop :=
  Server.run (privateRequest sessionId) = .ok call ∧ ∃ record,
    Program.Runs (SessionStep False) (SessionStore.loadRuntimeSession call.request) .empty
      (.ok record) s

theorem exists_loads {sessionId : String}
    (hrun : ∃ call, Server.run (privateRequest sessionId) = .ok call)
    (h : ((SessionStore.loadRuntimeSession (privateRequest sessionId)).eval SessionState.handle
      .empty).1.isOk = true) :
    ∃ call s, Loads sessionId call s := by
  obtain ⟨call, hrun⟩ := hrun
  have hrequest : call.request = privateRequest sessionId := by
    rw [Server.run_request hrun, privateRequest,
      (by decide +kernel : Text.trim "qq:user:1" = "qq:user:1"),
      (by decide +kernel : Text.trim "qq:private:1" = "qq:private:1"),
      (by decide +kernel : Text.trim "qq:bot_uin:9" = "qq:bot_uin:9")]
  obtain ⟨record, s, hruns⟩ := Program.exists_runs_ok (SessionState.step_handle False) h
  exact ⟨call, s, hrun, record, hrequest ▸ hruns⟩

theorem bound_session_messageable_iff_trimmed : ∃ call s,
    Loads "qq:private:1" call s ∧ Messageable False call.request s := by
  obtain ⟨call, s, hrun, record, hload⟩ : ∃ call s, Loads "qq:private:1" call s :=
    exists_loads ⟨_, rfl⟩ (by decide +kernel)
  refine ⟨call, s, ⟨hrun, record, hload⟩, ?_⟩
  refine (bound_session_messageable_iff hrun ?_ hload).mpr (.inl ?_)
  · exact (by decide +kernel : Text.trim "qq:private:1" ≠ "")
  · exact (by decide +kernel : Text.trim "qq:private:1" = "qq:private:1")

/-- A session that was bound with a blank before its id is unknown to a message with that id. -/
theorem padded_session_unknown : ¬ ∀ (request : RunRequest) (call : RunCall)
    (s s' : SessionState) (record : SessionRecord), Server.run request = .ok call →
      Text.trim request.sessionId ≠ "" →
      Program.Runs (SessionStep False) (SessionStore.loadRuntimeSession call.request) s
        (.ok record) s' →
      Messageable False call.request s' := by
  intro h
  obtain ⟨call, s, hrun, record, hload⟩ : ∃ call s, Loads " s" call s :=
    exists_loads ⟨_, rfl⟩ (by decide +kernel)
  have hid : Text.trim (privateRequest " s").sessionId ≠ "" :=
    (by decide +kernel : Text.trim " s" ≠ "")
  have hsession : call.request.sessionId = (privateRequest " s").sessionId := by
    rw [Server.run_request hrun]
  have hres := h _ call .empty s record hrun hid hload
  rw [← hsession] at hid
  rw [messageable_iff hid, resolve_trim_iff hid hload, hsession] at hres
  rw [Server.run_request hrun] at hres
  revert hres
  exact (by decide +kernel : ¬ (Text.trim " s" = " s" ∨
    SessionState.empty.resolve (Text.trim " s") = some (privateRequest " s").identity ∨
    (SessionState.empty.aliases.lookup (Text.trim " s")).getD (Text.trim " s") =
      conversationSessionKey (privateRequest " s").identity))

end DogBot
