import DogBot.Exec.Executions
import DogBot.Session.Calls

/-! # The life cycle of Claude session ids

Whatever other runs do between its statements, a run executes Claude with
`--session-id` only for an id that it has generated itself and has not used
before, and resumes only ids that were generated for its own conversation.
-/

namespace DogBot

open Program SessionStore RunnerState

def StoreStep (faulty : Prop) (run : ℕ) (call : RunCall) (s : RunnerState) (op : SessionOp)
    (r : op.Result) (s' : RunnerState) : Prop :=
  RunnerStep faulty run call s (.session op) r s'

abbrev SafeStore (faulty : Prop) (run : ℕ) (call : RunCall) {α : Type} (p : StoreM α)
    (Q : α → RunnerState → Prop) (s : RunnerState) : Prop :=
  Safe (StoreStep faulty run call) Inv (Rely run) p Q (fun _ _ => True) s

abbrev SafeRun (faulty : Prop) (run : ℕ) (call : RunCall) {α : Type} (p : ExecM α)
    (Q : α → RunnerState → Prop) (s : RunnerState) : Prop :=
  Safe (RunnerStep faulty run call) Inv (Rely run) p Q (fun _ _ => True) s

variable {faulty : Prop} {run : ℕ} {call : RunCall} {s s' : RunnerState} {t : SessionIdentity}
  {key eid : String} {now : ℤ} {record : SessionRecord}

section Statements

theorem safe_statement {st : Statement} {Q : st.Answer → RunnerState → Prop}
    (hnew : ∀ id, st.newId = some id → Reserved run id s)
    (hQ : ∀ s₁ s₂, Rely run s s₁ → Inv s₁ → Rely run (s₁.apply run st) s₂ →
      Q (st.answer s₁.store) s₂) :
    SafeStore faulty run call (statement st) Q s := by
  intro s₁ hrel hinv r s₂ hst
  cases hst with
  | effect h =>
    refine ⟨hinv.apply fun id hid => (hnew id hid).rely hrel, ?_⟩
    rcases h.answer with rfl | ⟨m, rfl⟩
    · exact fun s₃ hs₃ => hQ s₁ s₃ hrel hinv hs₃
    · exact fun _ _ => trivial
  | noEffect h => exact ⟨hinv, fun _ _ => trivial⟩

theorem safe_statement_trivial {st : Statement} (hnew : st.newId = none) :
    SafeStore faulty run call (statement st) (fun _ _ => True) s := by
  apply safe_statement
  · intro id hid
    rw [hnew] at hid
    cases hid
  · exact fun _ _ _ _ _ => trivial

theorem safe_newUuid : SafeStore faulty run call newUuid (fun id s' => Reserved run id s') s := by
  intro s₁ hrel hinv r s₂ hst
  cases hst with
  | newUuid h => exact ⟨hinv.issue h, fun s₃ hs₃ => (hinv.reserved h).rely hs₃⟩

theorem SafeStore.frame_later {α : Type} {p : StoreM α} {Q : α → RunnerState → Prop}
    {F : RunnerState → Prop} (hF : ∀ s s', s.Later s' → F s → F s')
    (h : SafeStore faulty run call p Q s) (hs : F s) :
    SafeStore faulty run call p (fun a s => Q a s ∧ F s) s :=
  h.frame (fun s _ _ s' hst => hF s s' hst.later) (fun s s' hr => hF s s' hr.toLater) hs

theorem safe_epochNow : SafeStore faulty run call epochNow (fun _ s' => Rely run s s') s := by
  intro s₁ hrel hinv r s₂ hst
  cases hst with
  | epochNow => exact ⟨hinv, fun s₃ hs₃ => hrel.trans hs₃⟩

end Statements

/-- A record that was read under a key: it is not new, and its id was generated for its
identity, which owns the key. -/
structure Fetched (key : String) (record : SessionRecord) (s : RunnerState) : Prop where
  isNew : record.isNew = false
  owner : s.store.owner key = some record.identity
  generated : ∃ run reset, .generated run reset record.identity record.claudeSessionId ∈ s.log

/-- A session that a run may execute Claude with: a new one has the run's own id, and any other
has an id that was generated for its identity. -/
structure Ready (run : ℕ) (t : SessionIdentity) (record : SessionRecord) (s : RunnerState) :
    Prop where
  fresh : record.isNew = true → ∃ reset, .generated run reset t record.claudeSessionId ∈ s.log
  known : record.isNew = false →
    ∃ run' reset, .generated run' reset t record.claudeSessionId ∈ s.log

structure Rotated (run : ℕ) (t : SessionIdentity) (record : SessionRecord) (s : RunnerState) :
    Prop where
  isNew : record.isNew = true
  generated : .generated run true t record.claudeSessionId ∈ s.log

theorem Fetched.later (h : Fetched key record s) (hr : s.Later s') : Fetched key record s' := by
  obtain ⟨run', reset, hmem⟩ := h.generated
  exact ⟨h.isNew, hr.owner _ _ h.owner, run', reset, hr.grows.mem hmem⟩

theorem Ready.later (h : Ready run t record s) (hs : s.Later s') : Ready run t record s' := by
  constructor
  · intro hnew
    obtain ⟨reset, hmem⟩ := h.fresh hnew
    exact ⟨reset, hs.grows.mem hmem⟩
  · intro hold
    obtain ⟨run', reset, hmem⟩ := h.known hold
    exact ⟨run', reset, hs.grows.mem hmem⟩

theorem Rotated.later (h : Rotated run t record s) (hs : s.Later s') : Rotated run t record s' :=
  ⟨h.isNew, hs.grows.mem h.generated⟩

theorem Fetched.ready (h : Fetched key record s) (ht : record.identity = t) :
    Ready run t record s := by
  subst ht
  exact ⟨fun hnew => by simp [h.isNew] at hnew, fun _ => h.generated⟩

section Store

theorem safe_fetchSession : SafeStore faulty run call (fetchSession key eid)
    (fun found s' => ∀ record, found = some record → Fetched key record s') s := by
  apply Safe.bind (Rely.refl run)
  apply safe_statement
  · rintro id ⟨⟩
  · rintro s₁ s₂ - hinv hs₂ s₃ hs₃ record hrecord
    obtain ⟨row, hr, rfl⟩ := Option.map_eq_some_iff.mp hrecord
    have hfetched : Fetched key (buildSessionRecord key eid row false) s₁ :=
      ⟨rfl, owner_of_lookup hr, hinv.rows key row hr⟩
    exact (hfetched.later hs₂.toLater).later hs₃.toLater

theorem safe_useRecord (h : Fetched key record s) :
    SafeStore faulty run call (useRecord key t now record) (Ready run t) s := by
  unfold useRecord ensureSessionIdentity
  split_ifs with ht
  · rw [ret_bind]
    apply Safe.bind (Rely.refl run)
    apply safe_statement
    · rintro id ⟨⟩
    · rintro s₁ s₂ hs₁ - hs₂ s₃ hs₃
      have hready : Ready run t record s₃ := ((h.later hs₁.toLater).ready ht).later
        ((s₁.later_apply run _).trans (hs₂.trans hs₃).toLater)
      exact ⟨hready.fresh, hready.known⟩
  · exact fun _ _ => trivial

theorem safe_getOrCreateByKey (s : RunnerState) (key eid : String) (t : SessionIdentity) :
    SafeStore faulty run call (getOrCreateByKey key t eid) (Ready run t) s := by
  apply Safe.seq (Rely.refl run) safe_epochNow
  rintro now s₁ -
  apply Safe.seq (Rely.refl run) safe_fetchSession
  intro found s₂ hfound
  cases found with
  | some record => exact safe_useRecord (hfound record rfl)
  | none =>
    apply Safe.seq (Rely.refl run) safe_newUuid
    intro id s₃ hres
    apply Safe.bind (Rely.refl run)
    apply safe_statement
    · rintro _ ⟨⟩
      exact hres
    · rintro s₄ s₅ - - hs₅
      by_cases hk : key ∈ s₄.store.sessions
      · -- Another run has created the row in between.
        simp only [Statement.answer, hk, not_true_eq_false, decide_false, Bool.false_eq_true,
          if_false]
        apply Safe.seq (Rely.refl run) safe_fetchSession
        intro found s₆ hfound
        cases found with
        | some record => exact safe_useRecord (hfound record rfl)
        | none => exact fun _ _ => trivial
      · simp only [Statement.answer, hk, not_false_eq_true, decide_true, if_true]
        intro s₆ hs₆
        refine ⟨fun _ => ⟨false, (hs₅.grows.trans hs₆.grows).mem ?_⟩, fun hold => ?_⟩
        · simp [RunnerState.apply, Statement.generated, hk, buildSessionRecord]
        · cases hold

theorem safe_resetByKey (s : RunnerState) (key eid : String) (t : SessionIdentity) :
    SafeStore faulty run call (resetByKey key t eid) (Rotated run t) s := by
  apply Safe.seq (Rely.refl run) safe_epochNow
  rintro now s₁ -
  apply Safe.seq (Rely.refl run) safe_fetchSession
  intro found s₂ hfound
  cases found with
  | none => exact fun _ _ => trivial
  | some existing =>
    have hfetched := hfound existing rfl
    unfold ensureSessionIdentity
    dsimp only
    split_ifs with ht
    · subst ht
      rw [ret_bind]
      apply Safe.seq (Rely.refl run)
        (safe_newUuid.frame_later (fun _ _ hs h => hs.owner _ _ h) hfetched.owner)
      rintro id s₃ ⟨hres, ho⟩
      apply Safe.bind (Rely.refl run)
      apply safe_statement
      · rintro _ ⟨⟩
        exact hres
      · rintro s₄ s₅ hs₄ - hs₅ s₆ hs₆
        obtain ⟨row, hr, ht⟩ := Option.map_eq_some_iff.mp (hs₄.owner _ _ ho)
        refine ⟨rfl, (hs₅.grows.trans hs₆.grows).mem ?_⟩
        simp [RunnerState.apply, Statement.generated, hr, ht, buildSessionRecord]
    · exact fun _ _ => trivial

theorem safe_validate (s : RunnerState) (eid : String) (t : SessionIdentity) :
    SafeStore faulty run call (validateExternalSessionBinding eid t) (fun _ _ => True) s := by
  apply Safe.seq (Rely.refl run)
    (@safe_statement_trivial faulty run call s (.selectAlias eid) rfl)
  rintro found s₁ -
  cases found with
  | none => exact fun _ _ => trivial
  | some key =>
    dsimp only
    split_ifs
    · exact fun _ _ => trivial
    · apply Safe.seq (Rely.refl run) safe_fetchSession
      rintro found s₂ -
      cases found with
      | none => exact fun _ _ => trivial
      | some existing => exact fun _ _ => trivial

theorem safe_bindExternalSessionId (s : RunnerState) (eid : String) (t : SessionIdentity) :
    SafeStore faulty run call (bindExternalSessionId eid t) (fun _ _ => True) s := by
  apply Safe.seq (Rely.refl run) (safe_validate s eid t)
  rintro - s₁ -
  apply Safe.seq (Rely.refl run) safe_fetchSession
  rintro found s₂ -
  cases found with
  | none => exact fun _ _ => trivial
  | some record =>
    unfold ensureSessionIdentity
    dsimp only
    split_ifs
    · exact safe_statement_trivial rfl
    · exact fun _ _ => trivial

theorem safe_withExternalSession {request : RunRequest} {operation : StoreM SessionRecord}
    {Q : SessionRecord → RunnerState → Prop}
    (hQ : ∀ record s s', s.Later s' → Q record s → Q record s')
    (hop : ∀ s, SafeStore faulty run call operation Q s) (s : RunnerState) :
    SafeStore faulty run call (withExternalSession request operation) Q s := by
  by_cases hblank : Text.trim request.sessionId = ""
  · rw [withExternalSession, if_pos hblank]
    exact hop s
  · rw [withExternalSession, if_neg hblank]
    apply Safe.seq (Rely.refl run) (safe_validate s _ _)
    rintro - s₁ -
    apply Safe.seq (Rely.refl run) (hop s₁)
    intro record s₂ hrecord
    apply Safe.seq (Rely.refl run)
      ((safe_bindExternalSessionId s₂ _ _).frame_later (hQ record) hrecord)
    rintro - s₃ ⟨-, hrecord⟩
    exact safe_ret (fun s s' h hr => hQ record s s' hr.toLater h) hrecord

theorem safe_loadRuntimeSession (s : RunnerState) (request : RunRequest) :
    SafeStore faulty run call (loadRuntimeSession request) (Ready run request.identity) s :=
  safe_withExternalSession (fun _ _ _ hs h => h.later hs)
    (fun s => safe_getOrCreateByKey s _ _ _) s

theorem safe_resetRuntimeSession (s : RunnerState) (request : RunRequest) :
    SafeStore faulty run call (resetRuntimeSession request) (Rotated run request.identity) s :=
  safe_withExternalSession (fun _ _ _ hs h => h.later hs) (fun s => safe_resetByKey s _ _ _) s

/-- The run has no process that may be working. -/
def Idle (run : ℕ) (s : RunnerState) : Prop := ∀ p ∈ s.processes, p.run ≠ run

theorem Idle.rely (h : Idle run s) (hr : Rely run s s') : Idle run s' :=
  fun p hp he => h p (hr.processes p hp he) he

theorem StoreStep.quiet {op : SessionOp} {r : op.Result}
    (h : StoreStep faulty run call s op r s') :
    executions run s'.log = executions run s.log ∧ s'.processes = s.processes := by
  cases h with
  | @effect st _ h =>
    refine ⟨?_, rfl⟩
    simp only [RunnerState.apply]
    cases st.generated s.store <;> rfl
  | newUuid | noEffect | epochNow => exact ⟨rfl, rfl⟩

theorem safe_runStore {α : Type} {p : StoreM α} {Q : α → RunnerState → Prop}
    {cs : List (List String)} (h : SafeStore faulty run call p Q s)
    (hcs : executions run s.log = cs) (hidle : Idle run s) :
    SafeRun faulty run call (runStore p)
      (fun a s => Q a s ∧ executions run s.log = cs ∧ Idle run s) s := by
  refine Safe.hoist (fun _ _ _ _ hst => hst) (h.frame ?_ ?_ ⟨hcs, hidle⟩)
  · rintro s op r s' hst ⟨hcs, hidle⟩
    obtain ⟨hexec, hproc⟩ := hst.quiet
    exact ⟨hexec.trans hcs, fun p hp => hidle p (hproc ▸ hp)⟩
  · rintro s s' hr ⟨hcs, hidle⟩
    exact ⟨hr.executions.trans hcs, hidle.rely hr⟩

end Store

section Runs

theorem safe_mapErr {α : Type} {errorCode : String} {r : Except String α}
    {Q : α → RunnerState → Prop} (hQ : ∀ a, r = .ok a → ∀ s', Rely run s s' → Q a s') :
    SafeRun faulty run call (mapErr errorCode r) Q s := by
  cases r with
  | ok a => exact hQ a rfl
  | error m => exact fun _ _ => trivial

/-- The operations that neither read nor change the state of the model. -/
def ExecOp.Silent : ExecOp → Prop
  | ensureContainerRunning _ | createReadGrants _ | instantNow => True
  | session _ | createClaudeExec _ _ _ _ | collectExecOutput _ => False

theorem RunnerStep.eq_of_silent {op : ExecOp} {r : op.Result}
    (h : RunnerStep faulty run call s op r s') (hop : op.Silent) : s' = s := by
  cases h with
  | ensureContainerRunning | createReadGrants | instantNow => rfl
  | effect | noEffect | newUuid | epochNow | executed | notStarted | notCreated | collected
  | notCollected => cases hop

theorem safe_silent {α : Type} {op : ExecOp} {next : op.Result → ExecM α}
    {Q : α → RunnerState → Prop} (hop : op.Silent)
    (hQ : ∀ r s', Rely run s s' → SafeRun faulty run call (next r) Q s') :
    SafeRun faulty run call (.call op next) Q s := by
  intro s₁ hrel hinv r s₂ hst
  obtain rfl := hst.eq_of_silent hop
  exact ⟨hinv, hQ r s₂ hrel⟩

/-- The run may execute Claude with a session: it has not executed Claude with it before; if it
has executed Claude at all, then once, and the session was reset since; and its process has
ended. -/
structure CanExec (run : ℕ) (t : SessionIdentity) (session : SessionRecord) (s : RunnerState) :
    Prop where
  ready : Ready run t session s
  unused : ∀ command ∈ executions run s.log, ¬ ClaudeCommand command true session.claudeSessionId
  once : executions run s.log = [] ∨
    (executions run s.log).length = 1 ∧ Rotated run t session s
  idle : Idle run s

theorem CanExec.rely (h : CanExec run t record s) (hr : Rely run s s') :
    CanExec run t record s' := by
  refine ⟨h.ready.later hr.toLater, ?_, ?_, h.idle.rely hr⟩
  · rw [hr.executions]
    exact h.unused
  · rw [hr.executions]
    exact h.once.imp_right fun ⟨hlen, hrot⟩ => ⟨hlen, hrot.later hr.toLater⟩

theorem CanExec.justified (h : CanExec run t record s) (hi : s.Inv) (prompt systemPrompt : String) :
    (RunnerEvent.exec run t (buildClaudeCommand prompt systemPrompt record.claudeSessionId
      record.isNew)).Justified s.log := by
  refine ⟨record.isNew, record.claudeSessionId,
    claudeCommand_buildClaudeCommand prompt systemPrompt _ _, ?_, h.ready.known, ?_⟩
  · intro hnew
    obtain ⟨reset, hmem⟩ := h.ready.fresh hnew
    refine ⟨⟨reset, hmem⟩, fun run' t' command hexec hc => ?_⟩
    -- Another execution of the id would be one of the run that generated it.
    obtain ⟨reset', hmem'⟩ := hi.log.generated_of_exec hexec hc
    obtain ⟨rfl, -⟩ := hi.log.generated_unique hmem hmem'
    exact h.unused command (mem_executions.mpr ⟨t', hexec⟩) hc
  · exact h.once.imp_right fun ⟨hlen, hrot⟩ => ⟨hlen, hrot.isNew, hrot.generated⟩

/-- What a run has executed after one execution more. -/
def Executed (run : ℕ) (session : SessionRecord) (cs : List (List String)) (s : RunnerState) :
    Prop :=
  ∃ command, ClaudeCommand command session.isNew session.claudeSessionId ∧
    executions run s.log = command :: cs

theorem Executed.rely {cs : List (List String)} (h : Executed run record cs s)
    (hr : Rely run s s') : Executed run record cs s' := by
  obtain ⟨command, hc, hcs⟩ := h
  exact ⟨command, hc, hr.executions.trans hcs⟩

theorem safe_collectExecOutput {execId : String} {cs : List (List String)}
    (h : Executed run record cs s) :
    SafeRun faulty run call (.call (.collectExecOutput execId) (mapErr "exec_failed"))
      (fun _ s' => Executed run record cs s' ∧ Idle run s') s := by
  intro s₁ hs₁ hi r s₂ hst
  cases hst with
  | collected =>
    refine ⟨hi.sublist List.filter_sublist, ?_⟩
    apply safe_mapErr
    rintro output - s₃ hs₃
    have hidle : Idle run { s₁ with processes := s₁.processes.filter (·.run ≠ run) } :=
      fun p hp => of_decide_eq_true (List.mem_filter.mp hp).2
    exact ⟨((h.rely hs₁).rely (.sublist List.filter_sublist)).rely hs₃, hidle.rely hs₃⟩
  | notCollected => exact ⟨hi, fun _ _ => trivial⟩

theorem safe_executeOnce (runner : DockerRunner) (validated : ValidatedRunRequest)
    {session : SessionRecord} {cs : List (List String)}
    (h : CanExec run call.request.identity session s) (hcs : executions run s.log = cs) :
    SafeRun faulty run call (runner.executeOnce call.request validated session)
      (fun _ s' => Executed run session cs s' ∧ Idle run s') s := by
  apply Safe.bind (Rely.refl run)
  apply safe_silent
  · trivial
  intro token s₁ hs₁
  apply safe_mapErr
  rintro token - s₂ hs₂
  apply Safe.bind (Rely.refl run)
  intro s₃ hs₃ hi r s₄ hst
  have hrel := (hs₁.trans hs₂).trans hs₃
  have hcan := h.rely hrel
  cases hst with
  | notCreated => exact ⟨hi, fun _ _ => trivial⟩
  | notStarted => exact ⟨hi.create (hcan.justified hi _ _), fun _ _ => trivial⟩
  | executed =>
    refine ⟨(hi.create (hcan.justified hi _ _)).start List.mem_cons_self hcan.idle, ?_⟩
    apply safe_mapErr
    rintro execId - s₅ hs₅
    have hexec : Executed run session cs s₅ := by
      refine Executed.rely ⟨_, claudeCommand_buildClaudeCommand validated.prompt
        validated.systemPrompt _ _, ?_⟩ hs₅
      rw [← hcs, ← hrel.executions]
      simp [executions, RunnerState.create, RunnerState.start]
    apply Safe.seq (Rely.refl run) (safe_collectExecOutput hexec)
    rintro output s₆ ⟨hexec, hidle⟩ s₇ hs₇
    exact ⟨hexec.rely hs₇, hidle.rely hs₇⟩

theorem isNew_of_shouldRetry {response : RunResponse} {isNew : Bool}
    (h : shouldRetryWithFreshSession response isNew = true) : isNew = false := by
  cases isNew with
  | false => rfl
  | true => cases h

structure NotStarted (run : ℕ) (s : RunnerState) : Prop where
  log : ∀ event ∈ s.log, event.run ≠ run
  idle : Idle run s

/-- A run is safe if nothing was done under its number before. -/
theorem safe_execute (runner : DockerRunner) (h : NotStarted run s) :
    SafeRun faulty run call (runner.execute call.request call.validated) (fun _ _ => True) s := by
  have hnone : executions run s.log = [] := by
    apply List.eq_nil_iff_forall_not_mem.mpr
    intro command hmem
    obtain ⟨t, hexec⟩ := mem_executions.mp hmem
    exact h.log _ hexec rfl
  apply Safe.seq (Rely.refl run)
    (safe_runStore (safe_loadRuntimeSession s call.request) hnone h.idle)
  rintro session s₁ ⟨hready, hcs, hidle⟩
  have hcan : CanExec run call.request.identity session s₁ :=
    ⟨hready, by simp [hcs], .inl hcs, hidle⟩
  apply Safe.bind (Rely.refl run)
  apply safe_silent
  · trivial
  intro r s₂ hs₂
  apply safe_mapErr
  rintro - - s₃ hs₃
  apply Safe.bind (Rely.refl run)
  apply safe_silent
  · trivial
  intro started s₄ hs₄ s₅ hs₅
  have hrel := ((hs₂.trans hs₃).trans hs₄).trans hs₅
  apply Safe.seq (Rely.refl run)
    (safe_executeOnce runner call.validated (hcan.rely hrel) (hrel.executions.trans hcs))
  rintro first s₆ ⟨⟨command, hc, hcs⟩, hidle⟩
  split_ifs with hretry
  · have hold := isNew_of_shouldRetry hretry
    apply Safe.seq (Rely.refl run)
      (safe_runStore (safe_resetRuntimeSession s₆ call.request) hcs hidle)
    rintro resetSession s₇ ⟨hrot, hcs, hidle⟩
    have hcan : CanExec run call.request.identity resetSession s₇ := by
      refine ⟨⟨fun _ => ⟨true, hrot.generated⟩, fun hold => by simp [hrot.isNew] at hold⟩, ?_,
        .inr ⟨by simp [hcs], hrot⟩, hidle⟩
      -- The first execution resumed its session.
      intro command' hmem hc'
      rw [hcs] at hmem
      obtain rfl := List.mem_singleton.mp hmem
      exact absurd (hold.symm.trans (hc.inj hc').1) (by decide)
    apply Safe.seq (Rely.refl run) (safe_executeOnce runner call.validated hcan rfl)
    rintro retried s₈ -
    apply Safe.bind (Rely.refl run)
    apply safe_silent
    · trivial
    exact fun _ _ _ _ _ _ _ => trivial
  · apply Safe.bind (Rely.refl run)
    apply safe_silent
    · trivial
    exact fun _ _ _ _ _ _ _ => trivial

end Runs

def DockerRunner.start (runner : DockerRunner) (call : RunCall) : ExecM RunResponse :=
  runner.execute call.request call.validated

/-- The states that any number of concurrent runs reach. -/
abbrev RunnerPool := Pool RunCall ExecOp ExecOp.Result ErrorResponse RunResponse RunnerState

/-- A run is started, one of the runs makes a step, or a process ends. -/
abbrev DockerRunner.PoolStep (runner : DockerRunner) (faulty : Prop) :
    RunnerPool → RunnerPool → Prop :=
  Pool.Step runner.start (RunnerStep faulty) ProcessExit

def RunnerPool.init : RunnerPool := ⟨.empty, []⟩

theorem DockerRunner.guarded (runner : DockerRunner) (faulty : Prop) :
    Pool.Guarded runner.start (RunnerStep faulty) ProcessExit Inv Rely NotStarted
      (fun _ _ _ _ => True) (fun _ _ _ _ => True) where
  refl := Rely.refl
  trans _ _ _ _ h h' := h.trans h'
  rely _ _ _ _ _ _ _ hne hst := hst.rely hne
  env_inv _ _ he := he.inv
  env_rely run _ _ he := he.rely run
  unused _ _ _ h hr := ⟨fun event hmem he => h.log event (hr.mem he hmem) he, h.idle.rely hr⟩
  safe _ _ _ h _ := safe_execute runner h

theorem notStarted_empty (run : ℕ) : NotStarted run .empty := by
  constructor
  · intro event hmem
    cases hmem
  · intro p hp
    cases hp

theorem RunnerPool.inv {runner : DockerRunner} {P : RunnerPool}
    (h : Reachable (runner.PoolStep faulty) .init P) : P.shared.Inv :=
  ((runner.guarded faulty).reachable inv_empty notStarted_empty h).shared

/-- Executions are logged with the identities of the runs' requests. -/
def RunnerPool.Labelled (P : RunnerPool) : Prop :=
  ∀ run t command, .exec run t command ∈ P.shared.log →
    ∃ call, (P.threads[run]?).map Prod.fst = some call ∧ call.request.identity = t

theorem RunnerPool.labelled_init : Labelled .init := by
  intro run t command hmem
  cases hmem

theorem RunnerPool.labelled {runner : DockerRunner} {P : RunnerPool}
    (h : Reachable (runner.PoolStep faulty) .init P) : P.Labelled := by
  refine h.invariant labelled_init fun P P' ih hst run t command hmem => ?_
  have hold : .exec run t command ∈ P.shared.log →
      ∃ call, (P'.threads[run]?).map Prod.fst = some call ∧ call.request.identity = t := by
    intro hmem
    obtain ⟨call, hcall, ht⟩ := ih run t command hmem
    exact ⟨call, hst.argument hcall, ht⟩
  have hstep := hst
  cases hst with
  | spawn => exact hold hmem
  | env he =>
    cases he with
    | exit => exact hold hmem
  | @run i call op next r s hi hs =>
    rcases hs.exec_mem hmem with hmem | ⟨rfl, rfl⟩
    · exact hold hmem
    · exact ⟨call, hstep.argument (by rw [hi]; rfl), rfl⟩

/-- In every interleaving of any number of runs, whatever fails: each Claude session id is passed
with `--session-id` at most once; an id is resumed only after it was generated for the same
identity; a run executes Claude at most twice, the second time with an id that its own reset has
generated; and every execution is one of the two kinds, under the identity of the run's request. -/
theorem claude_session_life_cycle (runner : DockerRunner) (faulty : Prop) (P : RunnerPool)
    (h : Reachable (runner.PoolStep faulty) .init P) :
    (P.shared.log.Pairwise fun later earlier =>
      ∀ id, later.PassesSessionId id → ¬ earlier.PassesSessionId id) ∧
    (∀ later earlier run t command id, P.shared.log = later ++ .exec run t command :: earlier →
      ClaudeCommand command false id → ∃ run' reset, .generated run' reset t id ∈ earlier) ∧
    (∀ run, (executions run P.shared.log).length ≤ 2) ∧
    (∀ later earlier run t command, P.shared.log = later ++ .exec run t command :: earlier →
      executions run earlier ≠ [] →
      ∃ id, ClaudeCommand command true id ∧ .generated run true t id ∈ earlier) ∧
    ∀ run t command, .exec run t command ∈ P.shared.log →
      (∃ isNew id, ClaudeCommand command isNew id) ∧
      ∃ call, (P.threads[run]?).map Prod.fst = some call ∧ call.request.identity = t := by
  have hlog := (RunnerPool.inv h).log
  refine ⟨hlog.pairwise, ?_, hlog.length_executions_le, ?_, ?_⟩
  · intro later earlier run t command id heq hc
    obtain ⟨isNew, id', hc', -, hold, -⟩ := (heq ▸ hlog).justified
    obtain ⟨rfl, rfl⟩ := hc.inj hc'
    exact hold rfl
  · intro later earlier run t command heq hne
    obtain ⟨isNew, id, hc, -, -, honce⟩ := (heq ▸ hlog).justified
    obtain ⟨-, rfl, hmem⟩ := honce.resolve_left hne
    exact ⟨id, hc, hmem⟩
  · intro run t command hmem
    obtain ⟨later, earlier, heq⟩ := List.append_of_mem hmem
    obtain ⟨isNew, id, hc, -⟩ := (heq ▸ hlog).justified
    exact ⟨⟨isNew, id, hc⟩, RunnerPool.labelled h run t command hmem⟩

/-- A database and a container without faults, in which every execution prints the same. -/
def RunnerState.handle (run : ℕ) (call : RunCall) (stdout : String) (s : RunnerState) :
    (op : ExecOp) → op.Result × RunnerState
  | .session (.statement st) =>
    if st.Allowed s.store then (.ok (st.answer s.store), s.apply run st)
    else (.error (.postgres "violates foreign key constraint"), s)
  | .session .newUuid =>
    (freshId s.store.issued, s.issue run (freshId s.store.issued))
  | .session .epochNow => (0, s)
  | .ensureContainerRunning _ => (.ok (), s)
  | .createReadGrants _ => (.ok ⟨"token", "postgres://reader"⟩, s)
  | .createClaudeExec _ _ command _ =>
    (.ok "exec", (s.create run call.request.identity command).start
      ⟨run, call.request.identity, command⟩)
  | .collectExecOutput _ =>
    (.ok (stdout, "", 0), { s with processes := s.processes.filter (·.run ≠ run) })
  | .instantNow => (0, s)

theorem RunnerState.step_handle (faulty : Prop) (run : ℕ) (call : RunCall) (stdout : String)
    (s : RunnerState) (op : ExecOp) :
    RunnerStep faulty run call s op (s.handle run call stdout op).1
      (s.handle run call stdout op).2 := by
  cases op with
  | session op =>
    cases op with
    | statement st =>
      by_cases ha : st.Allowed s.store
      · simp only [handle, if_pos ha]
        exact .effect (.executed ha)
      · simp only [handle, if_neg ha]
        exact .noEffect (.refused ha)
    | newUuid => exact .newUuid (freshId_notMem s.store.issued)
    | epochNow => exact .epochNow
  | ensureContainerRunning => exact .ensureContainerRunning
  | createReadGrants => exact .createReadGrants
  | createClaudeExec => exact .executed
  | collectExecOutput => exact .collected
  | instantNow => exact .instantNow

/-- A run without faults, in which Claude knows no session. -/
def RunnerState.evalRun (s : RunnerState) (runner : DockerRunner) (run : ℕ) (call : RunCall) :
    RunnerState :=
  ((runner.start call).eval
    (fun s => s.handle run call "No conversation found with session ID: 1") s).2

def privateCall : RunCall where
  request := ⟨"qq", "bot", "private:1", "private:1", "user", "private", "/workspace", "hello", none,
    none, none, [], none, none⟩
  validated := ⟨"/workspace", "hello", "system"⟩

/-- Two runs in one chat, where Claude knows no session: the second run resumes the session of the
first one, and then executes Claude with a session of its own. -/
theorem claude_session_life_cycle_retry :
    let runner : DockerRunner := ⟨"claude", ⟨none, none, 1800, []⟩⟩
    ∃ P : RunnerPool, Reachable (runner.PoolStep False) .init P ∧
      (executions 1 P.shared.log).length = 2 ∧
      ∀ run, (executions run P.shared.log).length ≤ 2 := by
  intro runner
  have hspawn : Reachable (runner.PoolStep False) .init
      ⟨.empty, [(privateCall, runner.start privateCall)]⟩ :=
    Reachable.refl.tail (.spawn privateCall)
  have hfirst := Pool.reachable_of_runs (runs_eval (RunnerState.step_handle False 0
    privateCall "No conversation found with session ID: 1") _ _) hspawn rfl rfl
  have hsecond := Pool.reachable_of_runs (runs_eval (RunnerState.step_handle False 1
    privateCall "No conversation found with session ID: 1") _ _)
    (hfirst.tail (.spawn privateCall)) rfl rfl
  obtain ⟨-, -, hle, -⟩ := claude_session_life_cycle runner False _ hsecond
  refine ⟨_, hsecond, ?_, hle⟩
  change (executions 1 (((RunnerState.evalRun .empty runner 0 privateCall).evalRun runner 1
    privateCall).log)).length = 2
  decide +kernel

end DogBot
