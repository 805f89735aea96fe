import DogBot.Library.Expand
import DogBot.Server.Messages
import DogBot.Server.Plans
import DogBot.Session.Specs

/-! # Responses to direct runs

The status of a response to `/v1/runs` says what became of the request. It was
refused, or Claude has been executed for it, or its session is in conflict with
one of another conversation, or something has failed. A conflict is found before
anything but the session store is called, and a later error is never reported as
one.
-/

namespace DogBot

open Program (Always Only Recorded Runs)

/-- What the handler of `/v1/runs` asks of the history and the runner. -/
inductive DirectOp
  | maybePurgeExpiredHistory
  | exec (op : ExecOp)

abbrev DirectOp.Result : DirectOp → Type
  | maybePurgeExpiredHistory => Unit
  | exec op => op.Result

/-- A call of the handler of `/v1/runs`, with its answer. -/
abbrev DirectCall := Σ op : DirectOp, op.Result

abbrev ExecCall := Σ op : ExecOp, op.Result

def maybePurgeExpiredHistory : Program DirectOp DirectOp.Result Empty Unit :=
  .call .maybePurgeExpiredHistory .ret

/-- The handler of `/v1/runs`, given its body or the text of an error. -/
def DockerRunner.handleRun (runner : DockerRunner) (body : Except String RunRequest) :
    Program DirectOp DirectOp.Result Empty HttpResponse := do
  maybePurgeExpiredHistory
  match body with
  | .error err => .ret (errorResponse 400 "invalid_json" err)
  | .ok request =>
    match Server.run request with
    | .error error => .ret (mapRunResultToResponse (.error error))
    | .ok call =>
      let result ← (runner.start call).attempt.hoist .exec (fun _ answer => answer) fun e => e
      .ret (mapRunResultToResponse result)

/-- The purge is in the history, and everything else is done by the runner. -/
inductive DirectStep (faulty : Prop) (run : ℕ) (call : RunCall) :
    RunnerState → (op : DirectOp) → op.Result → RunnerState → Prop
  | maybePurgeExpiredHistory {s : RunnerState} :
      DirectStep faulty run call s .maybePurgeExpiredHistory () s
  | exec {s s' : RunnerState} {op : ExecOp} {r : op.Result}
      (h : RunnerStep faulty run call s op r s') : DirectStep faulty run call s (.exec op) r s'

/-- The session id of a request is bound to another conversation, or the session key of its
conversation is in use by another one. -/
def SessionState.Conflicts (s : SessionState) (request : RunRequest) : Prop :=
  (Text.trim request.sessionId ≠ "" ∧ ¬ s.Bindable request.sessionId request.identity) ∨
    s.Taken request.identity

/-- Nothing but the session store is called. A run whose session was loaded calls the container
runtime next. -/
def OnlyLoads (calls : List ExecCall) : Prop := ∀ c ∈ calls, ∃ op, c.1 = .session op

/-- The status of a run tells whether Claude has been executed, or there was a conflict, or
something has failed. In a conflict nothing is executed, and no session is changed. Once the session
was loaded, nothing is a conflict. -/
structure AnswersRun (faulty : Prop) (run : ℕ) (request : RunRequest) (s : RunnerState)
    (calls : List ExecCall) (s' : RunnerState) (response : HttpResponse) : Prop where
  status :
    (∃ output, response = ⟨200, .run output⟩ ∧
      (executions run s.log).length < (executions run s'.log).length) ∨
    (∃ e, response = ⟨409, .error e⟩ ∧ s.store.Conflicts request) ∨
    ∃ e, response = ⟨500, .error e⟩
  conflict : s.store.Conflicts request → (response.status = 409 ∨ faulty) ∧ OnlyLoads calls ∧
    executions run s'.log = executions run s.log ∧
    s'.store.sessions = s.store.sessions ∧ s'.store.aliases = s.store.aliases
  loaded : ¬ OnlyLoads calls → response.status ≠ 409

/-- An error of a part of a run that no conflict can end. -/
structure ErrorResponse.IsFailure (e : ErrorResponse) : Prop where
  timedOut : e.timedOut = false
  valid : e.errorCode ≠ "invalid_request"
  conflict : e.errorCode ≠ "session_conflict"

structure RunFails (faulty : Prop) (run : ℕ) (request : RunRequest) (s : RunnerState)
    (e : ErrorResponse) (calls : List ExecCall) (s' : RunnerState) : Prop where
  timedOut : e.timedOut = false
  valid : e.errorCode ≠ "invalid_request"
  conflict : e.errorCode = "session_conflict" → s.store.Conflicts request ∧ OnlyLoads calls
  conflicting : s.store.Conflicts request → (e.errorCode = "session_conflict" ∨ faulty) ∧
    OnlyLoads calls ∧ executions run s'.log = executions run s.log ∧
    s'.store.sessions = s.store.sessions ∧ s'.store.aliases = s.store.aliases

section Sessions

open SessionStore

variable {faulty : Prop} {s : SessionState} {request : RunRequest}

/-- A session that was loaded is in no conflict. -/
def Loaded (request : RunRequest) (s : SessionState) : Prop :=
  s.owner (conversationSessionKey request.identity) = some request.identity ∧
    (Text.trim request.sessionId ≠ "" → s.Bindable request.sessionId request.identity)

theorem loadRuntimeSession_spec (faulty : Prop) (s : SessionState) (request : RunRequest) :
    Always (SessionStep faulty) (loadRuntimeSession request)
      (fun _ s' => Loaded request s' ∧ ¬ s.Conflicts request)
      (fun e s' => Refused faulty (s.Conflicts request) s e s') s := by
  have hrow := getOrCreateByKey_spec faulty s (conversationSessionKey request.identity)
    request.identity
  by_cases hid : Text.trim request.sessionId = ""
  · have hconflicts : s.Conflicts request ↔ s.Taken request.identity := by
      simp [SessionState.Conflicts, hid]
    rw [loadRuntimeSession, withExternalSession, if_pos hid]
    refine (hrow fun _ _ => True).mono ?_ ?_
    · rintro record s' ⟨-, -, hobtained, hfree⟩
      exact ⟨⟨hobtained.owner, fun hne => absurd hid hne⟩, fun hc => hfree (hconflicts.mp hc)⟩
    · rintro e s' ⟨-, -, hrefused⟩
      exact hrefused.congr hconflicts.symm
  · have hconflicts : s.Conflicts request ↔
        ¬ s.Bindable request.sessionId request.identity ∨ s.Taken request.identity := by
      simp [SessionState.Conflicts, hid]
    refine Always.mono ?_ ?_ (withExternalSession_spec hid hrow)
    · rintro record s' ⟨-, hobtained, halias, hfree⟩
      refine ⟨⟨hobtained.owner, fun _ key hkey => ?_⟩, fun hc => hfree (hconflicts.mp hc)⟩
      exact Option.some.inj (hkey.symm.trans halias)
    · rintro e s' ⟨-, hrefused⟩
      exact hrefused.congr hconflicts.symm

theorem resetRuntimeSession_spec (h : Loaded request s) :
    Always (SessionStep faulty) (resetRuntimeSession request) (fun _ _ => True)
      (fun e _ => e.isConflict = false) s := by
  obtain ⟨howner, hbindable⟩ := h
  have hrow := resetByKey_spec faulty s (conversationSessionKey request.identity) request.identity
  by_cases hid : Text.trim request.sessionId = ""
  · rw [resetRuntimeSession, withExternalSession, if_pos hid]
    refine (hrow fun _ _ => True).mono (fun _ _ _ => trivial) ?_
    rintro e s' ⟨-, -, hrefused⟩
    refine Bool.eq_false_iff.mpr fun he => ?_
    exact hrefused.reason he howner
  · refine Always.mono (fun _ _ _ => trivial) ?_ (withExternalSession_spec hid hrow)
    rintro e s' ⟨-, hrefused⟩
    refine Bool.eq_false_iff.mpr fun he => ?_
    exact (hrefused.reason he).elim (fun hno => hno (hbindable hid)) fun hno => hno howner

end Sessions

section Run

variable {faulty : Prop} {run : ℕ} {call : RunCall} {runner : DockerRunner} {s s' : RunnerState}
  {calls : List ExecCall} {e : ErrorResponse}

theorem always_runStore {α : Type} {p : StoreM α} {Q : α → SessionState → Prop}
    {E : SessionStoreError → SessionState → Prop} (h : Always (SessionStep faulty) p Q E s.store) :
    Always (RunnerStep faulty run call) (runStore p)
      (fun a s' => executions run s'.log = executions run s.log ∧ Q a s'.store)
      (fun e s' => executions run s'.log = executions run s.log ∧
        ∃ e', e = mapSessionStoreError e' ∧ E e' s'.store) s := by
  refine Always.hoist ?_ rfl h
  rintro t op r t' hK hst
  refine ⟨(StoreStep.quiet hst).1.trans hK, ?_⟩
  cases hst with
  | effect h => exact h
  | noEffect h => exact h
  | newUuid h => exact .newUuid h
  | epochNow => exact .epochNow

theorem ErrorResponse.isFailure_of_code {code message : String}
    (hvalid : code ≠ "invalid_request") (hconflict : code ≠ "session_conflict") :
    IsFailure { status := "error", errorCode := code, message, timedOut := false } :=
  ⟨rfl, hvalid, hconflict⟩

theorem always_executeOnce (validated : ValidatedRunRequest) (session : SessionRecord)
    (s : RunnerState) :
    Always (RunnerStep faulty run call) (runner.executeOnce call.request validated session)
      (fun _ s' => s'.store = s.store ∧
        (executions run s.log).length < (executions run s'.log).length)
      (fun e _ => e.IsFailure) s := by
  rw [DockerRunner.executeOnce, Program.always_bind]
  intro token s₁ htoken
  cases htoken with
  | createReadGrants =>
    cases token with
    | error message => exact ErrorResponse.isFailure_of_code (by decide) (by decide)
    | ok token =>
      change Always _ (Program.call _ _ >>= _) _ _ s
      rw [Program.always_bind]
      intro execId s₂ hexec
      cases hexec with
      | notCreated | notStarted =>
        exact ErrorResponse.isFailure_of_code (by decide) (by decide)
      | executed =>
        change Always _ (Program.call _ _ >>= _) _ _ _
        rw [Program.always_bind]
        intro output s₃ hcollect
        cases hcollect with
        | notCollected => exact ErrorResponse.isFailure_of_code (by decide) (by decide)
        | collected =>
          refine ⟨rfl, ?_⟩
          simp [executions, RunnerState.create, RunnerState.start]

theorem RunFails.of_isFailure {request : RunRequest} (he : e.IsFailure)
    (h : ¬ s.store.Conflicts request) : RunFails faulty run request s e calls s' :=
  ⟨he.timedOut, he.valid, fun hc => absurd hc he.conflict, fun hc => absurd hc h⟩

theorem only_runStore {α : Type} (p : StoreM α) :
    Only (fun op => ∃ op', op = ExecOp.session op') (runStore p) :=
  Only.hoist (A := fun _ => True) (fun op _ => ⟨op, rfl⟩) (Program.only_true p)

/-- A run loads its session first, and no error behind that is a conflict. -/
theorem start_eq_load (faulty : Prop) (run : ℕ) (runner : DockerRunner) (call : RunCall) :
    ∃ rest : SessionRecord → ExecM RunResponse,
      runner.start call = runStore (SessionStore.loadRuntimeSession call.request) >>= rest ∧
      ∀ session s, Loaded call.request s.store →
        Always (RunnerStep faulty run call) (rest session)
          (fun _ s' => (executions run s.log).length < (executions run s'.log).length)
          (fun e _ => e.IsFailure) s := by
  refine ⟨_, rfl, fun session s hloaded => ?_⟩
  change Always _ (Program.call _ _ >>= _) _ _ s
  rw [Program.always_bind]
  intro up s₂ hup
  cases hup with
  | ensureContainerRunning =>
    cases up with
    | error message => exact ErrorResponse.isFailure_of_code (by decide) (by decide)
    | ok _ =>
      change Always _ (DockerRunner.instantNow >>= _) _ _ s
      rw [Program.always_bind]
      intro started s₃ hstarted
      cases hstarted with
      | instantNow =>
        change Always _ (runner.executeOnce _ _ _ >>= _) _ _ s
        rw [Program.always_bind]
        refine (always_executeOnce call.validated session s).mono ?_ fun _ _ h => h
        rintro first s₂ ⟨hstore, hlength⟩
        split_ifs with hretry
        · rw [Program.always_bind]
          refine (always_runStore (resetRuntimeSession_spec (hstore ▸ hloaded))).mono ?_ ?_
          · rintro resetSession s₃ ⟨hlog₃, -⟩
            rw [← hlog₃] at hlength
            rw [Program.always_bind]
            refine (always_executeOnce call.validated resetSession s₃).mono ?_ fun _ _ h => h
            rintro retried s₄ ⟨-, hlength₄⟩ now s₅ hnow
            cases hnow with
            | instantNow => exact hlength.trans hlength₄
          · rintro e s₃ ⟨-, e', rfl, hconflict⟩
            refine ⟨rfl, ?_, ?_⟩ <;> simp [mapSessionStoreError, hconflict]
        · intro now s₃ hnow
          cases hnow with
          | instantNow => exact hlength

/-- A run that runs alone. -/
theorem always_start (s : RunnerState) :
    Always (Recorded (RunnerStep faulty run call)) (runner.start call)
      (fun _ t => ¬ s.store.Conflicts call.request ∧
        (executions run s.log).length < (executions run t.1.log).length)
      (fun e t => RunFails faulty run call.request s e t.2 t.1) (s, []) := by
  obtain ⟨rest, hstart, hrest⟩ := start_eq_load faulty run runner call
  rw [hstart, Program.always_bind]
  refine ((always_runStore (loadRuntimeSession_spec faulty s.store call.request)).recorded
    (only_runStore _)).mono ?_ ?_
  · rintro session ⟨s₁, calls⟩ ⟨⟨hlog, hloaded, hfree⟩, -⟩
    refine ((hrest session s₁ hloaded).recorded (Program.only_true _)).mono ?_ ?_
    · rintro response t ⟨hlength, -⟩
      rw [hlog] at hlength
      exact ⟨hfree, hlength⟩
    · rintro e t ⟨hfailure, -⟩
      exact .of_isFailure hfailure hfree
  · rintro e ⟨s₁, calls⟩ ⟨⟨hlog, e', rfl, hrefused⟩, hcalls⟩
    have hloads : OnlyLoads calls := by
      obtain ⟨calls, rfl, honly⟩ := hcalls
      exact honly
    cases he : e'.isConflict with
    | true =>
      have hcode : (mapSessionStoreError e').errorCode = "session_conflict" := by
        simp [mapSessionStoreError, he]
      refine ⟨rfl, ?_, fun _ => ⟨hrefused.reason he, hloads⟩, fun hc => ⟨.inl hcode, hloads, hlog,
        hrefused.unchanged hc⟩⟩
      rw [hcode]
      decide
    | false =>
      have hcode : (mapSessionStoreError e').errorCode = "session_store_failed" := by
        simp [mapSessionStoreError, he]
      refine ⟨rfl, ?_, ?_, fun hc => ⟨.inr (hrefused.fault he), hloads, hlog,
        hrefused.unchanged hc⟩⟩
      · rw [hcode]
        decide
      · rw [hcode]
        exact fun h => absurd h (by decide)

theorem eq_invalidRequest {α : Type} {x : Except String α}
    (h : x.mapError ErrorResponse.invalidRequest = .error e) :
    ∃ message, e = .invalidRequest message := by
  cases x with
  | ok a => cases h
  | error message => exact ⟨message, (Except.error.inj h).symm⟩

theorem Server.run_error {request : RunRequest} (h : Server.run request = .error e) :
    ∃ message, e = .invalidRequest message := by
  unfold Server.run at h
  rcases Program.bind_eq_error h with hu | ⟨userId, -, h⟩
  · exact eq_invalidRequest hu
  rcases Program.bind_eq_error h with hc | ⟨conversationId, -, h⟩
  · exact eq_invalidRequest hc
  rcases Program.bind_eq_error h with hp | ⟨platformAccountId, -, h⟩
  · exact eq_invalidRequest hp
  unfold executeRunRequest at h
  split at h
  · cases h
  · exact ⟨_, (Except.error.inj h).symm⟩

theorem answersRun_of_error {request : RunRequest}
    (h : RunFails faulty run request s e calls s') :
    AnswersRun faulty run request s calls s' (mapRunResultToResponse (.error e)) := by
  rw [mapRunResultToResponse, if_neg h.valid, h.timedOut, if_neg (by decide)]
  split_ifs with hcode
  · obtain ⟨hconflicts, hloads⟩ := h.conflict hcode
    exact ⟨.inr (.inl ⟨e, rfl, hconflicts⟩), fun hc => ⟨.inl rfl, (h.conflicting hc).2⟩,
      fun hno => absurd hloads hno⟩
  · exact ⟨.inr (.inr ⟨e, rfl⟩), fun hc =>
      ⟨.inr ((h.conflicting hc).1.resolve_left hcode), (h.conflicting hc).2⟩,
      fun _ h500 => absurd h500 (by decide : (500 : ℕ) ≠ 409)⟩

theorem always_attempt_start (s : RunnerState) (l : List DirectCall) :
    Always (Recorded (DirectStep faulty run call))
      ((runner.start call).attempt.hoist .exec (fun _ answer => answer) fun e => e :
        Program DirectOp DirectOp.Result Empty (Except ErrorResponse RunResponse))
      (fun result t => ∃ calls : List ExecCall,
        t.2 = l ++ calls.map (fun c => ⟨.exec c.1, c.2⟩) ∧
        AnswersRun faulty run call.request s calls t.1 (mapRunResultToResponse result))
      (fun _ _ => False) (s, l) := by
  have hattempt : Always (Recorded (RunnerStep faulty run call))
      (runner.start call).attempt _ (fun (_ : Empty) _ => False) (s, []) :=
    (@always_start faulty run call runner s).attempt
  let answered (op : ExecOp) (r : op.Result) : DirectOp.Result (.exec op) := r
  refine Always.mono ?_ ?_ (Always.hoist_recorded answered (fun _ _ => rfl) ?_ hattempt)
  · rintro (e | output) t ⟨calls, hcalls, hok, herr⟩
    · exact ⟨calls, hcalls, answersRun_of_error (herr e rfl)⟩
    · obtain ⟨hfree, hlength⟩ := hok output rfl
      exact ⟨calls, hcalls, .inl ⟨output, rfl, hlength⟩, fun hc => absurd hc hfree,
        fun _ h200 => absurd h200 (by decide : (200 : ℕ) ≠ 409)⟩
  · rintro e t ⟨calls, -, e', -, hfalse⟩
    exact hfalse
  · rintro s op r s' ⟨⟩
    assumption

/-- The handler purges the history, and then refuses the request or runs it. -/
theorem always_handleRun {body : Except String RunRequest}
    (hcall : ∀ request c, body = .ok request → Server.run request = .ok c → c = call) :
    Always (Recorded (DirectStep faulty run call)) (runner.handleRun body)
      (fun response t => ∃ runCalls : List ExecCall,
        t.2 = ⟨.maybePurgeExpiredHistory, ()⟩ :: runCalls.map (fun c => ⟨.exec c.1, c.2⟩) ∧
        ((response.status = 400 ∧ runCalls = [] ∧ t.1 = s ∧ ∀ request, body ≠ .ok request ∨
            ∃ message, Server.run request = .error (.invalidRequest message)) ∨
          ∃ request, body = .ok request ∧ Server.run request = .ok call ∧
            AnswersRun faulty run call.request s runCalls t.1 response))
      (fun _ _ => False) (s, []) := by
  unfold DockerRunner.handleRun maybePurgeExpiredHistory
  rw [Program.always_bind]
  rintro purged ⟨s₁, _⟩ ⟨hpurge, rfl⟩
  cases hpurge
  cases body with
  | error err => exact ⟨[], rfl, .inl ⟨rfl, rfl, rfl, fun _ => .inl (by simp)⟩⟩
  | ok request =>
    cases hrun : Server.run request with
    | error e =>
      obtain ⟨message, rfl⟩ := Server.run_error hrun
      simp only [hrun]
      refine ⟨[], rfl, .inl ⟨rfl, rfl, rfl, fun request' => ?_⟩⟩
      by_cases heq : request' = request
      · exact .inr ⟨message, heq ▸ hrun⟩
      · exact .inl fun h => heq (Except.ok.inj h).symm
    | ok c =>
      obtain rfl := hcall request c rfl hrun
      simp only [hrun, Program.always_ret]
      rw [Program.always_bind]
      refine (always_attempt_start s _).mono ?_ fun _ _ hfalse => hfalse
      rintro result t ⟨runCalls, hcalls, hanswers⟩
      exact ⟨runCalls, hcalls, .inr ⟨request, rfl, hrun, hanswers⟩⟩

/-- Every request to `/v1/runs` that runs alone is answered. Behind the purge of the history, it is
refused without a call, or its status tells what has become of its run. -/
theorem direct_runs_are_answered {body : Except String RunRequest} {o : Except Empty HttpResponse}
    {calls : List DirectCall}
    (hcall : ∀ request c, body = .ok request → Server.run request = .ok c → c = call)
    (hruns : Runs (Recorded (DirectStep faulty run call)) (runner.handleRun body) (s, []) o
      (s', calls)) :
    ∃ response, o = .ok response ∧ ∃ runCalls : List ExecCall,
      calls = ⟨.maybePurgeExpiredHistory, ()⟩ :: runCalls.map (fun c => ⟨.exec c.1, c.2⟩) ∧
      ((response.status = 400 ∧ runCalls = [] ∧ s' = s ∧ ∀ request, body ≠ .ok request ∨
          ∃ message, Server.run request = .error (.invalidRequest message)) ∨
        ∃ request, body = .ok request ∧ Server.run request = .ok call ∧
          AnswersRun faulty run call.request s runCalls s' response) := by
  have halways := @always_handleRun faulty run call runner s body hcall
  obtain ⟨hok, herr⟩ := hruns.post halways
  cases o with
  | ok response => exact ⟨response, rfl, hok response rfl⟩
  | error e => exact e.elim

/-- A request in another private conversation, with the session id of the first one. -/
def otherRequest (sessionId : String) : RunRequest :=
  { privateRequest sessionId with conversationId := "qq:private:2" }

/-- Answer what the handler asks, as the runner is answered. -/
def RunnerState.handleDirect (s : RunnerState) (run : ℕ) (call : RunCall) (stdout : String) :
    (op : DirectOp) → op.Result × RunnerState
  | .maybePurgeExpiredHistory => ((), s)
  | .exec op => s.handle run call stdout op

theorem RunnerState.step_handleDirect (faulty : Prop) (run : ℕ) (call : RunCall) (stdout : String)
    (s : RunnerState) (op : DirectOp) :
    DirectStep faulty run call s op (s.handleDirect run call stdout op).1
      (s.handleDirect run call stdout op).2 := by
  cases op with
  | maybePurgeExpiredHistory => exact .maybePurgeExpiredHistory
  | exec op => exact .exec (RunnerState.step_handle faulty run call stdout s op)

/-- A run with the session id of another conversation is answered with a conflict. -/
theorem direct_runs_are_answered_conflict :
    let runner : DockerRunner := ⟨"claude", ⟨none, none, 1800, []⟩⟩
    ∃ (first second : RunCall) (runCalls : List ExecCall) (s' : RunnerState)
      (response : HttpResponse),
      Server.run (privateRequest "shared") = .ok first ∧ response.status = 409 ∧
      OnlyLoads runCalls ∧
      AnswersRun False 1 second.request (RunnerState.evalRun .empty runner 0 first) runCalls s'
        response := by
  intro runner
  let answered : RunCall → RunnerState →
      Except Empty HttpResponse × RunnerState × List DirectCall := fun call s =>
    (runner.handleRun (.ok (otherRequest "shared"))).eval
      (Program.record fun s => s.handleDirect 1 call "done") (s, [])
  obtain ⟨first, second, hfirst, hsecond, hstatus⟩ : ∃ first second,
      Server.run (privateRequest "shared") = .ok first ∧
      Server.run (otherRequest "shared") = .ok second ∧
      (answered second (RunnerState.evalRun .empty runner 0 first)).1.toOption.map
        HttpResponse.status = some 409 :=
    ⟨_, _, rfl, rfl, by decide +kernel⟩
  have hruns : Runs (Recorded (DirectStep False 1 second))
      (runner.handleRun (.ok (otherRequest "shared")))
      (RunnerState.evalRun .empty runner 0 first, [])
      (answered second (RunnerState.evalRun .empty runner 0 first)).1
      (answered second (RunnerState.evalRun .empty runner 0 first)).2 :=
    Program.runs_eval
      (Program.recorded_record (RunnerState.step_handleDirect False 1 second "done")) _ _
  generalize answered second (RunnerState.evalRun .empty runner 0 first) = result at hruns hstatus
  have hcall : ∀ request c, (.ok (otherRequest "shared") : Except String RunRequest) = .ok request →
      Server.run request = .ok c → c = second := by
    rintro request c hrequest hc
    obtain rfl := Except.ok.inj hrequest
    exact Except.ok.inj (hc.symm.trans hsecond)
  obtain ⟨response, ho, runCalls, -, h⟩ := direct_runs_are_answered hcall hruns
  rw [ho] at hstatus
  have hconflict : response.status = 409 := Option.some.inj hstatus
  rcases h with ⟨hinvalid, -, -, -⟩ | ⟨-, -, -, hanswers⟩
  · exact absurd (hconflict.symm.trans hinvalid) (by decide)
  · have hloads : OnlyLoads runCalls := by
      by_contra hno
      exact hanswers.loaded hno hconflict
    exact ⟨first, second, runCalls, result.2.1, response, hfirst, hconflict, hloads, hanswers⟩

end Run

end DogBot
