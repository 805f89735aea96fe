import DogBot.Library.Machine
import DogBot.Session.Specs

/-! # Calls of the session store

The public operations of the store, and the two composites that the runner
uses, as calls with their answers. A sequence of calls is a trace whose labels
are the calls with their outcomes.
-/

namespace DogBot

open Program SessionStore

inductive SessionCall
  | getOrCreateConversation (t : SessionIdentity)
  | resetConversation (t : SessionIdentity)
  | getOrCreateBound (externalSessionId : String) (t : SessionIdentity)
  | bindExternal (externalSessionId : String) (t : SessionIdentity)
  | validateExternal (externalSessionId : String) (t : SessionIdentity)
  | getSession (externalSessionId : String)
  | resetBound (externalSessionId : String) (t : SessionIdentity)
  | loadRuntime (request : RunRequest)
  | resetRuntime (request : RunRequest)
  deriving DecidableEq

inductive SessionAnswer
  | record (record : SessionRecord)
  | found (record : Option SessionRecord)
  | done
  deriving DecidableEq

namespace SessionCall

def perform : SessionCall → StoreM SessionAnswer
  | getOrCreateConversation t => do return .record (← getOrCreateConversationSession t)
  | resetConversation t => do return .record (← resetConversationSession t)
  | getOrCreateBound eid t => do return .record (← getOrCreateBoundSession eid t)
  | bindExternal eid t => do bindExternalSessionId eid t; return .done
  | validateExternal eid t => do validateExternalSessionBinding eid t; return .done
  | getSession eid => do return .found (← SessionStore.getSession eid)
  | resetBound eid t => do return .record (← resetBoundSession eid t)
  | loadRuntime request => do return .record (← loadRuntimeSession request)
  | resetRuntime request => do return .record (← resetRuntimeSession request)

def identity : SessionCall → Option SessionIdentity
  | getOrCreateConversation t | resetConversation t | getOrCreateBound _ t | bindExternal _ t
  | validateExternal _ t | resetBound _ t => some t
  | getSession _ => none
  | loadRuntime request | resetRuntime request => some request.identity

def external : SessionCall → Option String
  | getOrCreateBound eid _ | bindExternal eid _ | resetBound eid _ => some eid
  | loadRuntime request | resetRuntime request =>
    if Text.trim request.sessionId = "" then none else some request.sessionId
  | _ => none

/-- Whether a call validates the binding that it makes. -/
def Validates : SessionCall → Prop
  | resetBound _ _ => False
  | _ => True

def Binds (call : SessionCall) (s : SessionState) (eid : String) : Prop :=
  call.external = some eid ∧ (call.Validates → ∀ t, call.identity = some t → s.Bindable eid t)

/-- The reasons for which a call ends with a conflict. -/
def Refusal (s : SessionState) : SessionCall → Prop
  | getOrCreateConversation t => s.Taken t
  | resetConversation t => s.owner (conversationSessionKey t) ≠ some t
  | getOrCreateBound eid t => ¬ s.Bindable eid t ∨ s.Taken t
  | bindExternal eid t => ¬ s.Bindable eid t ∨ s.owner (conversationSessionKey t) ≠ some t
  | validateExternal eid t => ¬ s.Bindable eid t
  | getSession _ => False
  | resetBound _ t => s.owner (conversationSessionKey t) ≠ some t
  | loadRuntime request =>
    Text.trim request.sessionId ≠ "" ∧ ¬ s.Bindable request.sessionId request.identity ∨
      s.Taken request.identity
  | resetRuntime request =>
    Text.trim request.sessionId ≠ "" ∧ ¬ s.Bindable request.sessionId request.identity ∨
      s.owner (conversationSessionKey request.identity) ≠ some request.identity

/-- What a call has done when it ends with an answer. -/
structure Done (call : SessionCall) (s : SessionState) (answer : SessionAnswer)
    (s' : SessionState) : Prop where
  allowed : ¬ call.Refusal s
  changes : ∀ t, call.identity = some t → Changes t call.Binds s s'
  reads : call.identity = none → s' = s
  obtained : ∀ record, answer = .record record →
    ∃ t, call.identity = some t ∧ Obtained t record s'
  bound : ∀ eid, call.external = some eid → ∃ t, call.identity = some t ∧
    s'.aliases.lookup eid = some (conversationSessionKey t) ∧
    s'.owner (conversationSessionKey t) = some t

/-- What a call has done when it ends with an error. -/
structure Failed (faulty : Prop) (call : SessionCall) (s : SessionState) (e : SessionStoreError)
    (s' : SessionState) : Prop where
  changes : ∀ t, call.identity = some t → Changes t call.Binds s s'
  reads : call.identity = none → s' = s
  refused : Refused faulty (call.Refusal s) s e s'

variable {faulty : Prop} {call : SessionCall} {s s' : SessionState} {t : SessionIdentity}
  {eid : String}

theorem perform_of_rowSpec {p : StoreM SessionRecord} {reason : Prop}
    (hp : call.perform = do return .record (← p)) (ht : call.identity = some t)
    (hext : call.external = none) (hreason : call.Refusal s ↔ reason)
    (hspec : RowSpec faulty t reason s p) :
    Always (SessionStep faulty) call.perform (call.Done s) (call.Failed faulty s) s := by
  rw [hp, always_bind]
  refine (hspec call.Binds).mono ?_ ?_
  · rintro record s' ⟨hc, -, ho, hfree⟩
    refine ⟨hreason.not.mpr hfree, fun t' ht' => ?_, fun hn => by simp [ht] at hn,
      fun record' hr => ?_, fun eid he => by simp [hext] at he⟩
    · obtain rfl := Option.some.inj (ht.symm.trans ht')
      exact hc
    · cases hr
      exact ⟨t, ht, ho⟩
  · rintro e s' ⟨hc, -, h⟩
    refine ⟨fun t' ht' => ?_, fun hn => by simp [ht] at hn, h.congr hreason.symm⟩
    obtain rfl := Option.some.inj (ht.symm.trans ht')
    exact hc

theorem perform_of_bindSpec {p : StoreM SessionRecord} {reason : Prop}
    {bound : SessionState → String → Prop}
    (hp : call.perform = do return .record (← p)) (ht : call.identity = some t)
    (hext : call.external = some eid) (hbound : ∀ s e, bound s e → call.Binds s e)
    (hreason : call.Refusal s ↔ reason) (hspec : BindSpec faulty t eid bound reason s p) :
    Always (SessionStep faulty) call.perform (call.Done s) (call.Failed faulty s) s := by
  rw [hp, always_bind]
  refine hspec.mono ?_ ?_
  · rintro record s' ⟨hc, ho, hl, hfree⟩
    refine ⟨hreason.not.mpr hfree, fun t' ht' => ?_, fun hn => by simp [ht] at hn,
      fun record' hr => ?_, fun eid' he => ?_⟩
    · obtain rfl := Option.some.inj (ht.symm.trans ht')
      exact hc.mono hbound
    · cases hr
      exact ⟨t, ht, ho⟩
    · obtain rfl := Option.some.inj (hext.symm.trans he)
      exact ⟨t, ht, hl, ho.owner⟩
  · rintro e s' ⟨hc, h⟩
    refine ⟨fun t' ht' => ?_, fun hn => by simp [ht] at hn, h.congr hreason.symm⟩
    obtain rfl := Option.some.inj (ht.symm.trans ht')
    exact hc.mono hbound

theorem binds_of_validated (ht : call.identity = some t) (hext : call.external = some eid) :
    ∀ s e, Validated t eid s e → call.Binds s e := by
  rintro s e ⟨rfl, hb⟩
  refine ⟨hext, fun _ t' ht' => ?_⟩
  obtain rfl := Option.some.inj (ht.symm.trans ht')
  exact hb

theorem perform_withExternalSession {request : RunRequest} {p : StoreM SessionRecord}
    {reason : Prop} (hp : call.perform = do return .record (← withExternalSession request p))
    (ht : call.identity = some request.identity)
    (hext : call.external =
      if Text.trim request.sessionId = "" then none else some request.sessionId)
    (hreason : call.Refusal s ↔ Text.trim request.sessionId ≠ "" ∧
      ¬ s.Bindable request.sessionId request.identity ∨ reason)
    (hspec : RowSpec faulty request.identity reason s p) :
    Always (SessionStep faulty) call.perform (call.Done s) (call.Failed faulty s) s := by
  by_cases hid : Text.trim request.sessionId = ""
  · rw [if_pos hid] at hext
    rw [withExternalSession, if_pos hid] at hp
    exact perform_of_rowSpec hp ht hext (hreason.trans (by simp [hid])) hspec
  · rw [if_neg hid] at hext
    exact perform_of_bindSpec hp ht hext (binds_of_validated ht hext)
      (hreason.trans (by simp [hid])) (withExternalSession_spec hid hspec)

/-- Every call ends as described by `Done` and `Failed`. -/
theorem perform_spec (faulty : Prop) (call : SessionCall) (s : SessionState) :
    Always (SessionStep faulty) call.perform (call.Done s) (call.Failed faulty s) s := by
  cases call with
  | getOrCreateConversation t =>
    exact perform_of_rowSpec rfl rfl rfl .rfl (getOrCreateByKey_spec faulty s _ t)
  | resetConversation t => exact perform_of_rowSpec rfl rfl rfl .rfl (resetByKey_spec faulty s _ t)
  | getOrCreateBound eid t =>
    exact perform_of_bindSpec rfl rfl rfl (binds_of_validated rfl rfl) .rfl
      (getOrCreateBoundSession_spec faulty s eid t)
  | bindExternal eid t =>
    rw [perform, always_bind]
    refine (bindExternalSessionId_spec faulty s eid t).mono ?_ ?_
    · rintro _ s' ⟨hc, hs, hl, hb, ho⟩
      refine ⟨not_or.mpr ⟨not_not.mpr hb, not_not.mpr ho⟩, ?_, nofun, nofun, ?_⟩
      · rintro _ ⟨⟩
        exact hc.mono (binds_of_validated rfl rfl)
      · rintro _ ⟨⟩
        exact ⟨t, rfl, hl, hc.owner_eq ho⟩
    · rintro e s' ⟨hc, h⟩
      refine ⟨?_, nofun, h⟩
      rintro _ ⟨⟩
      exact hc.mono (binds_of_validated rfl rfl)
  | validateExternal eid t =>
    rw [perform, always_bind]
    refine (validate_spec faulty s eid t).mono ?_ ?_
    · rintro _ s' ⟨rfl, hb⟩
      exact ⟨not_not.mpr hb, fun _ _ => .refl, nofun, nofun, nofun⟩
    · rintro e s' ⟨rfl, h⟩
      exact ⟨fun _ _ => .refl, nofun, h⟩
  | getSession eid =>
    rw [perform, always_bind]
    refine (getSession_spec faulty s eid).mono ?_ ?_
    · rintro found s' ⟨rfl, rfl⟩
      exact ⟨nofun, nofun, fun _ => rfl, nofun, nofun⟩
    · rintro e s' ⟨rfl, h⟩
      exact ⟨nofun, fun _ => rfl, h⟩
  | resetBound eid t =>
    refine perform_of_bindSpec rfl rfl rfl ?_ .rfl (resetBoundSession_spec faulty s eid t)
    rintro s e rfl
    exact ⟨rfl, nofun⟩
  | loadRuntime request =>
    exact perform_withExternalSession rfl rfl rfl .rfl (getOrCreateByKey_spec faulty s _ _)
  | resetRuntime request =>
    exact perform_withExternalSession rfl rfl rfl .rfl (resetByKey_spec faulty s _ _)

end SessionCall

abbrev SessionEvent := SessionCall × Except SessionStoreError SessionAnswer

def SessionEvent.Step (faulty : Prop) (s : SessionState) (event : SessionEvent)
    (s' : SessionState) : Prop :=
  Runs (SessionStep faulty) event.1.perform s event.2 s'

theorem SessionEvent.Step.cases {faulty : Prop} {s s' : SessionState} {call : SessionCall}
    {outcome : Except SessionStoreError SessionAnswer}
    (h : SessionEvent.Step faulty s (call, outcome) s') :
    (∃ answer, outcome = .ok answer ∧ call.Done s answer s') ∨
      ∃ e, outcome = .error e ∧ call.Failed faulty s e s' := by
  obtain ⟨hok, herr⟩ := Runs.post h (call.perform_spec faulty s)
  cases outcome with
  | ok answer => exact .inl ⟨answer, rfl, hok answer rfl⟩
  | error e => exact .inr ⟨e, rfl, herr e rfl⟩

theorem SessionEvent.Step.of_refusal {faulty : Prop} {s s' : SessionState} {call : SessionCall}
    {outcome : Except SessionStoreError SessionAnswer}
    (h : SessionEvent.Step faulty s (call, outcome) s') (hr : call.Refusal s) :
    ∃ e, outcome = .error e ∧ (e.isConflict = true ∨ faulty) ∧
      s'.sessions = s.sessions ∧ s'.aliases = s.aliases := by
  rcases h.cases with ⟨answer, -, hd⟩ | ⟨e, he, hf⟩
  · exact absurd hr hd.allowed
  · refine ⟨e, he, ?_, hf.refused.unchanged hr⟩
    cases hc : e.isConflict with
    | true => exact .inl rfl
    | false => exact .inr (hf.refused.fault hc)

/-- In any case a call on an identity changes the tables by `Changes` only. -/
theorem SessionEvent.Step.changes {faulty : Prop} {s s' : SessionState} {call : SessionCall}
    {outcome : Except SessionStoreError SessionAnswer}
    (h : SessionEvent.Step faulty s (call, outcome) s') :
    (∃ t, call.identity = some t ∧ Changes t call.Binds s s') ∨
      call.identity = none ∧ s' = s := by
  cases ht : call.identity with
  | some t =>
    rcases h.cases with ⟨answer, -, hd⟩ | ⟨e, -, hf⟩
    · exact .inl ⟨t, rfl, hd.changes t ht⟩
    · exact .inl ⟨t, rfl, hf.changes t ht⟩
  | none =>
    rcases h.cases with ⟨answer, -, hd⟩ | ⟨e, -, hf⟩
    · exact .inr ⟨rfl, hd.reads ht⟩
    · exact .inr ⟨rfl, hf.reads ht⟩

/-- An id longer than all those generated before. -/
def freshId (issued : List String) : String :=
  issued.foldr (fun id rest => id ++ "u" ++ rest) ""

theorem length_lt_freshId {issued : List String} {id : String} (h : id ∈ issued) :
    id.length < (freshId issued).length := by
  induction issued with
  | nil => cases h
  | cons first rest ih =>
    have hlen : (freshId (first :: rest)).length = first.length + 1 + (freshId rest).length := by
      simp [freshId, show "u".length = 1 from rfl]
    rcases List.mem_cons.mp h with rfl | h
    · omega
    · have := ih h
      omega

theorem freshId_notMem (issued : List String) : freshId issued ∉ issued :=
  fun h => (length_lt_freshId h).ne rfl

namespace SessionState

def handle (s : SessionState) : (op : SessionOp) → op.Result × SessionState
  | .statement st =>
    if st.Allowed s then (.ok (st.answer s), st.effect s)
    else (.error (.postgres "violates foreign key constraint"), s)
  | .newUuid => (freshId s.issued, s.issue (freshId s.issued))
  | .epochNow => (0, s)

theorem step_handle (faulty : Prop) (s : SessionState) (op : SessionOp) :
    SessionStep faulty s op (s.handle op).1 (s.handle op).2 := by
  cases op with
  | statement st =>
    by_cases ha : st.Allowed s
    · simp only [handle, if_pos ha]
      exact .executed ha
    · simp only [handle, if_neg ha]
      exact .refused ha
  | newUuid => exact .newUuid (freshId_notMem s.issued)
  | epochNow => exact .epochNow

/-- Make calls one after the other on a database without faults. -/
def evalCalls (s : SessionState) : List SessionCall → List SessionEvent × SessionState
  | [] => ([], s)
  | c :: cs =>
    let (outcome, s) := c.perform.eval handle s
    let (events, s) := s.evalCalls cs
    ((c, outcome) :: events, s)

theorem map_fst_evalCalls (cs : List SessionCall) (s : SessionState) :
    (s.evalCalls cs).1.map Prod.fst = cs := by
  induction cs generalizing s with
  | nil => rfl
  | cons c cs ih => exact congrArg (c :: ·) (ih _)

theorem trace_evalCalls (faulty : Prop) (cs : List SessionCall) (s : SessionState) :
    Trace (SessionEvent.Step faulty) s (s.evalCalls cs).1 (s.evalCalls cs).2 := by
  induction cs generalizing s with
  | nil => exact .nil s
  | cons c cs ih =>
    have hstep : Trace (SessionEvent.Step faulty) s
        ([] ++ [(c, (c.perform.eval handle s).1)]) (c.perform.eval handle s).2 :=
      .snoc (.nil s) (runs_eval (step_handle faulty) c.perform s)
    exact hstep.append (ih _)

end SessionState

end DogBot
