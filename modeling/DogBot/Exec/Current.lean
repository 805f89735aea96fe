import DogBot.Exec.LifeCycle
import DogBot.Session.Specs

/-! # Current sessions

A run that is alone in its conversation executes Claude with the id that was
generated last for the conversation: nobody resets the session between the load
of its row and the execution. Other conversations may be run at the same time.
-/

namespace DogBot

open Program SessionStore

def RunnerEvent.generatedFor (t : SessionIdentity) : RunnerEvent → Option String
  | generated _ _ t' id => if t' = t then some id else none
  | issued _ _ | exec _ _ _ => none

/-- The id that was generated last for an identity. -/
def lastGenerated (t : SessionIdentity) (log : List RunnerEvent) : Option String :=
  log.findSome? (RunnerEvent.generatedFor t)

/-- Every execution gives Claude the id that was generated last for its identity. -/
def CurrentLog : List RunnerEvent → Prop
  | [] => True
  | .exec _ t command :: log =>
    (∃ isNew id, ClaudeCommand command isNew id ∧ lastGenerated t log = some id) ∧ CurrentLog log
  | _ :: log => CurrentLog log

section Log

variable {run : ℕ} {reset : Bool} {t t' : SessionIdentity} {id : String} {command : List String}
  {log new later earlier : List RunnerEvent}

theorem lastGenerated_generated : lastGenerated t (.generated run reset t' id :: log) =
    if t' = t then some id else lastGenerated t log := by
  rw [lastGenerated, List.findSome?_cons, RunnerEvent.generatedFor]
  split_ifs <;> rfl

theorem lastGenerated_append (h : ∀ run reset id, .generated run reset t id ∉ new) :
    lastGenerated t (new ++ log) = lastGenerated t log := by
  have hnone : new.findSome? (RunnerEvent.generatedFor t) = none := by
    rw [List.findSome?_eq_none_iff]
    intro event hmem
    cases event with
    | issued run id => rfl
    | exec run t command => rfl
    | generated run reset t' id =>
      refine if_neg ?_
      rintro rfl
      exact h run reset id hmem
  rw [lastGenerated, List.findSome?_append, hnone, Option.none_or, lastGenerated]

theorem CurrentLog.of_append (h : CurrentLog (later ++ log)) : CurrentLog log := by
  induction later with
  | nil => exact h
  | cons event later ih =>
    cases event with
    | issued run id => exact ih h
    | generated run reset t id => exact ih h
    | exec run t command => exact ih h.2

end Log

namespace RunnerState

/-- The log is current, ids are generated for the identities of their runs, and the row of an
identity has the id that was generated last for it. -/
structure Settled (ident : ℕ → SessionIdentity) (s : RunnerState) : Prop where
  current : CurrentLog s.log
  own : ∀ run reset t id, .generated run reset t id ∈ s.log → t = ident run
  rows : ∀ key row, s.store.sessions.lookup key = some row →
    key = conversationSessionKey row.identity ∧
      lastGenerated row.identity s.log = some row.claudeSessionId

/-- The others generate nothing for the identity of a run. -/
structure Alone (ident : ℕ → SessionIdentity) (run : ℕ) (s s' : RunnerState) : Prop extends
    Later s s' where
  last : lastGenerated (ident run) s'.log = lastGenerated (ident run) s.log

variable {ident : ℕ → SessionIdentity} {run : ℕ} {s s' s₁ s₂ s₃ : RunnerState}

theorem Alone.refl (ident : ℕ → SessionIdentity) (run : ℕ) (s : RunnerState) :
    Alone ident run s s :=
  ⟨⟨List.suffix_rfl, fun _ _ h => h⟩, rfl⟩

theorem Alone.trans (h : Alone ident run s₁ s₂) (h' : Alone ident run s₂ s₃) :
    Alone ident run s₁ s₃ :=
  ⟨h.toLater.trans h'.toLater, h'.last.trans h.last⟩

theorem settled_empty (ident : ℕ → SessionIdentity) : Settled ident .empty := by
  refine ⟨trivial, nofun, fun key row h => ?_⟩
  simp [RunnerState.empty, SessionState.empty] at h

/-- What a statement must satisfy: a row is inserted for the identity of the run, and a session that
is reset is the run's. -/
def Fits (t : SessionIdentity) (s : RunnerState) : Statement → Prop
  | .insertSession key row => key = conversationSessionKey t ∧ row.identity = t
  | .rotateSession key _ _ => s.store.owner key = some t
  | _ => True

variable {t : SessionIdentity} {st : Statement}

theorem Fits.later (h : Fits t s st) (hs : s.Later s') : Fits t s' st := by
  cases st with
  | insertSession key row => exact h
  | rotateSession key id now => exact hs.owner key t h
  | selectSession _ | touchSession _ _ | selectAlias _ | upsertAlias _ _ => trivial

theorem Settled.rows_of_not_generated (h : Settled ident s)
    (hnone : st.generated s.store = none) {key : String} {row : SessionRow}
    (hrow : (st.effect s.store).sessions.lookup key = some row) :
    key = conversationSessionKey row.identity ∧
      lastGenerated row.identity s.log = some row.claudeSessionId := by
  rcases Statement.effect_row hrow with ⟨old, hold, hidentity, hid⟩ | ⟨reset, hsome⟩
  · rw [hidentity, hid]
    exact h.rows key old hold
  · cases hnone.symm.trans hsome

/-- A statement that generates an id stores it in the row of the run's identity. -/
theorem Settled.rows_of_generated (h : Settled ident s) (hfits : Fits t s st)
    {g : Bool × SessionIdentity × String} (hg : st.generated s.store = some g) :
    g.2.1 = t ∧ ∀ key row, (st.effect s.store).sessions.lookup key = some row →
      key = conversationSessionKey t ∧ row.identity = t ∧ row.claudeSessionId = g.2.2 ∨
        key ≠ conversationSessionKey t ∧ s.store.sessions.lookup key = some row := by
  cases st with
  | selectSession _ | touchSession _ _ | selectAlias _ | upsertAlias _ _ => cases hg
  | insertSession key' row' =>
    obtain ⟨rfl, rfl⟩ := hfits
    rw [Statement.generated] at hg
    split_ifs at hg with hk
    obtain rfl := Option.some.inj hg
    refine ⟨rfl, fun key row hrow => ?_⟩
    rw [Statement.effect, if_neg hk, AList.lookup_insert'] at hrow
    split_ifs at hrow with hkey
    · obtain rfl := Option.some.inj hrow
      exact .inl ⟨hkey, rfl, rfl⟩
    · exact .inr ⟨hkey, hrow⟩
  | rotateSession key' id now =>
    obtain ⟨old, hold, hg⟩ := Option.map_eq_some_iff.mp hg
    obtain rfl : old.identity = t := Option.some.inj ((owner_of_lookup hold).symm.trans hfits)
    obtain rfl := hg
    obtain ⟨rfl, -⟩ := h.rows key' old hold
    refine ⟨rfl, fun key row hrow => ?_⟩
    rw [Statement.effect, Statement.updateRow, hold] at hrow
    dsimp only at hrow
    rw [AList.lookup_insert'] at hrow
    split_ifs at hrow with hkey
    · obtain rfl := Option.some.inj hrow
      exact .inl ⟨hkey, rfl, rfl⟩
    · exact .inr ⟨hkey, hrow⟩

theorem Settled.apply (h : Settled ident s) (hfits : Fits (ident run) s st) :
    Settled ident (s.apply run st) := by
  cases hg : st.generated s.store with
  | none =>
    have hlog : (s.apply run st).log = s.log := by
      rw [RunnerState.apply, hg]
      rfl
    refine ⟨hlog ▸ h.current, hlog ▸ h.own, fun key row hrow => ?_⟩
    rw [hlog]
    exact h.rows_of_not_generated hg hrow
  | some g =>
    obtain ⟨reset, t', id⟩ := g
    obtain ⟨hidentity, hrows⟩ := h.rows_of_generated hfits hg
    obtain rfl : t' = ident run := hidentity
    have hlog : (s.apply run st).log = .generated run reset (ident run) id :: s.log := by
      rw [RunnerState.apply, hg]
      rfl
    refine ⟨hlog ▸ h.current, fun run' reset' t' id' hmem => ?_, fun key row hrow => ?_⟩
    · rw [hlog] at hmem
      rcases List.mem_cons.mp hmem with heq | hmem
      · obtain ⟨rfl, -, rfl, -⟩ := RunnerEvent.generated.inj heq
        rfl
      · exact h.own run' reset' t' id' hmem
    · rw [hlog, lastGenerated_generated]
      rcases hrows key row hrow with ⟨hkey, hidentity, hid⟩ | ⟨hkey, hold⟩
      · rw [hidentity, if_pos rfl, hid]
        exact ⟨hkey, rfl⟩
      · obtain ⟨hrowkey, hlast⟩ := h.rows key row hold
        rw [if_neg]
        · exact ⟨hrowkey, hlast⟩
        · rintro heq
          exact hkey (heq ▸ hrowkey)

theorem Settled.issue {id : String} (h : Settled ident s) : Settled ident (s.issue run id) := by
  refine ⟨h.current, fun run' reset t id' hmem => ?_, fun key row hrow => ?_⟩
  · rcases List.mem_cons.mp hmem with heq | hmem
    · cases heq
    · exact h.own run' reset t id' hmem
  · exact h.rows key row hrow

theorem Settled.create {command : List String} {isNew : Bool} {id : String} (h : Settled ident s)
    (hcommand : ClaudeCommand command isNew id) (hlast : lastGenerated t s.log = some id) :
    Settled ident (s.create run t command) := by
  refine ⟨⟨⟨isNew, id, hcommand, hlast⟩, h.current⟩, fun run' reset t id' hmem => ?_, h.rows⟩
  rcases List.mem_cons.mp hmem with heq | hmem
  · cases heq
  · exact h.own run' reset t id' hmem

theorem Settled.processes (h : Settled ident s) (processes : List ClaudeProcess) :
    Settled ident { s with processes } :=
  ⟨h.current, h.own, h.rows⟩

end RunnerState

open RunnerState

/-- A program of the store is safe in a run that is alone in its conversation. -/
abbrev SettledStore (faulty : Prop) (run : ℕ) (call : RunCall) (ident : ℕ → SessionIdentity)
    {α : Type} (p : StoreM α) (Q : α → RunnerState → Prop) (s : RunnerState) : Prop :=
  Safe (StoreStep faulty run call) (Settled ident) (Alone ident run) p Q (fun _ _ => True) s

/-- A part of a run that is alone in its conversation is safe. -/
abbrev SettledRun (faulty : Prop) (run : ℕ) (call : RunCall) (ident : ℕ → SessionIdentity)
    {α : Type} (p : ExecM α) (Q : α → RunnerState → Prop) (s : RunnerState) : Prop :=
  Safe (RunnerStep faulty run call) (Settled ident) (Alone ident run) p Q (fun _ _ => True) s

/-- The id of a record was generated last for the run's identity. -/
def Held (ident : ℕ → SessionIdentity) (run : ℕ) (record : SessionRecord) (s : RunnerState) :
    Prop :=
  lastGenerated (ident run) s.log = some record.claudeSessionId

structure Found (ident : ℕ → SessionIdentity) (run : ℕ) (key : String) (record : SessionRecord)
    (s : RunnerState) : Prop where
  owner : s.store.owner key = some record.identity
  held : record.identity = ident run → Held ident run record s

variable {faulty : Prop} {run : ℕ} {call : RunCall} {ident : ℕ → SessionIdentity}
  {s s' : RunnerState} {key eid : String} {now : ℤ} {record : SessionRecord}

theorem Held.alone (h : Held ident run record s) (hs : Alone ident run s s') :
    Held ident run record s' :=
  hs.last.trans h

theorem Found.alone (h : Found ident run key record s) (hs : Alone ident run s s') :
    Found ident run key record s' :=
  ⟨hs.owner _ _ h.owner, fun hidentity => (h.held hidentity).alone hs⟩

section Store

variable {st : Statement}

theorem fits_of_newId (h : st.newId = none) : Fits (ident run) s st := by
  cases st with
  | insertSession key row => cases h
  | rotateSession key id now => cases h
  | selectSession _ | touchSession _ _ | selectAlias _ | upsertAlias _ _ => trivial

theorem log_apply (h : st.newId = none) : (s.apply run st).log = s.log := by
  cases st with
  | insertSession key row => cases h
  | rotateSession key id now => cases h
  | selectSession _ | touchSession _ _ | selectAlias _ | upsertAlias _ _ => rfl

theorem settled_statement {Q : st.Answer → RunnerState → Prop} (hfits : Fits (ident run) s st)
    (hQ : ∀ s₁ s₂, Alone ident run s s₁ → Settled ident s₁ → Alone ident run (s₁.apply run st) s₂ →
      Q (st.answer s₁.store) s₂) :
    SettledStore faulty run call ident (statement st) Q s := by
  intro s₁ hrel hinv r s₂ hst
  cases hst with
  | effect h =>
    refine ⟨hinv.apply (hfits.later hrel.toLater), ?_⟩
    rcases h.answer with rfl | ⟨m, rfl⟩
    · exact fun s₃ hs₃ => hQ s₁ s₃ hrel hinv hs₃
    · exact fun _ _ => trivial
  | noEffect h => exact ⟨hinv, fun _ _ => trivial⟩

theorem settled_quiet {α : Type} {p : StoreM α} {F : RunnerState → Prop}
    (hp : Only (fun op => ∃ st, op = .statement st ∧ st.newId = none) p)
    (hF : ∀ s s', lastGenerated (ident run) s'.log = lastGenerated (ident run) s.log → F s → F s')
    (hs : F s) : SettledStore faulty run call ident p (fun _ s => F s) s := by
  refine (Safe.of_only hp ?_ (fun s s' hr => hF s s' hr.last) hs).mono (fun _ _ hQ => hQ)
    fun _ _ _ => trivial
  rintro s op r s' ⟨st, rfl, hnew⟩ hst hinv hs
  cases hst with
  | effect h =>
    refine ⟨hinv.apply (fits_of_newId hnew), hF _ _ ?_ hs⟩
    rw [log_apply hnew]
  | noEffect h => exact ⟨hinv, hs⟩

theorem settled_epochNow {Q : ℤ → RunnerState → Prop}
    (hQ : ∀ now s', Alone ident run s s' → Q now s') :
    SettledStore faulty run call ident epochNow Q s := by
  intro s₁ hrel hinv r s₂ hst
  cases hst with
  | epochNow => exact ⟨hinv, fun s₃ hs₃ => hQ r s₃ (hrel.trans hs₃)⟩

theorem settled_newUuid : SettledStore faulty run call ident newUuid (fun _ s' => s.Later s') s := by
  intro s₁ hrel hinv r s₂ hst
  have hlater := hrel.toLater.trans (RunnerStep.later hst)
  cases hst with
  | newUuid h => exact ⟨hinv.issue, fun s₃ hs₃ => hlater.trans hs₃.toLater⟩

theorem settled_fetchSession : SettledStore faulty run call ident (fetchSession key eid)
    (fun found s' => ∀ record, found = some record → Found ident run key record s') s := by
  apply Safe.bind (Alone.refl ident run)
  apply settled_statement
  · trivial
  · rintro s₁ s₂ - hinv hs₂ s₃ hs₃ record hrecord
    obtain ⟨row, hr, rfl⟩ := Option.map_eq_some_iff.mp hrecord
    have hfound : Found ident run key (buildSessionRecord key eid row false) s₁ := by
      refine ⟨owner_of_lookup hr, ?_⟩
      rintro (hidentity : row.identity = ident run)
      have hlast := (hinv.rows key row hr).2
      rw [hidentity] at hlast
      exact hlast
    exact (hfound.alone hs₂).alone hs₃

theorem settled_useRecord (h : Found ident run key record s) :
    SettledStore faulty run call ident (useRecord key (ident run) now record)
      (Held ident run) s := by
  unfold useRecord ensureSessionIdentity
  split_ifs with ht
  · rw [ret_bind]
    apply Safe.bind (Alone.refl ident run)
    apply settled_statement
    · trivial
    · rintro s₁ s₂ hs₁ - hs₂ s₃ hs₃
      have hheld : Held ident run record (s₁.apply run (.touchSession key now)) := by
        rw [Held, log_apply rfl]
        exact (h.held ht).alone hs₁
      exact (hheld.alone hs₂).alone hs₃
  · exact fun _ _ => trivial

theorem settled_getOrCreateByKey (s : RunnerState) (eid : String) :
    SettledStore faulty run call ident
      (getOrCreateByKey (conversationSessionKey (ident run)) (ident run) eid)
      (Held ident run) s := by
  apply Safe.bind (Alone.refl ident run)
  apply settled_epochNow
  rintro now s₁ -
  apply Safe.seq (Alone.refl ident run) settled_fetchSession
  intro found s₂ hfound
  cases found with
  | some record => exact settled_useRecord (hfound record rfl)
  | none =>
    apply Safe.seq (Alone.refl ident run) settled_newUuid
    rintro id s₃ -
    apply Safe.bind (Alone.refl ident run)
    apply settled_statement
    · exact ⟨rfl, rfl⟩
    · rintro s₄ s₅ - - hs₅
      by_cases hk : conversationSessionKey (ident run) ∈ s₄.store.sessions
      · -- A row of another identity with the same key.
        simp only [Statement.answer, hk, not_true_eq_false, decide_false, Bool.false_eq_true,
          if_false]
        apply Safe.seq (Alone.refl ident run) settled_fetchSession
        intro found s₆ hfound
        cases found with
        | some record => exact settled_useRecord (hfound record rfl)
        | none => exact fun _ _ => trivial
      · simp only [Statement.answer, hk, not_false_eq_true, decide_true, if_true]
        intro s₆ hs₆
        refine Held.alone (Held.alone ?_ hs₅) hs₆
        rw [Held, RunnerState.apply, Statement.generated, if_neg hk]
        exact lastGenerated_generated.trans (if_pos rfl)

theorem settled_resetByKey (s : RunnerState) (eid : String) :
    SettledStore faulty run call ident
      (resetByKey (conversationSessionKey (ident run)) (ident run) eid) (Held ident run) s := by
  apply Safe.bind (Alone.refl ident run)
  apply settled_epochNow
  rintro now s₁ -
  apply Safe.seq (Alone.refl ident run) settled_fetchSession
  intro found s₂ hfound
  cases found with
  | none => exact fun _ _ => trivial
  | some existing =>
    unfold ensureSessionIdentity
    dsimp only
    split_ifs with ht
    · have howner := ht ▸ (hfound existing rfl).owner
      rw [ret_bind]
      apply Safe.seq (Alone.refl ident run) settled_newUuid
      intro id s₃ hlater
      have howner₃ := hlater.owner _ _ howner
      apply Safe.bind (Alone.refl ident run)
      apply settled_statement
      · exact howner₃
      · rintro s₄ s₅ hs₄ - hs₅ s₆ hs₆
        obtain ⟨row, hr, hidentity⟩ := Option.map_eq_some_iff.mp (hs₄.owner _ _ howner₃)
        refine Held.alone (Held.alone ?_ hs₅) hs₆
        rw [Held, RunnerState.apply, Statement.generated, hr]
        exact lastGenerated_generated.trans (if_pos hidentity)
    · exact fun _ _ => trivial

theorem settled_withExternalSession {request : RunRequest} {operation : StoreM SessionRecord}
    (hop : ∀ s, SettledStore faulty run call ident operation (Held ident run) s)
    (s : RunnerState) :
    SettledStore faulty run call ident (withExternalSession request operation)
      (Held ident run) s := by
  by_cases hblank : Text.trim request.sessionId = ""
  · rw [withExternalSession, if_pos hblank]
    exact hop s
  · rw [withExternalSession, if_neg hblank]
    refine Safe.seq (Q := fun _ _ => True) (Alone.refl ident run) ?_ ?_
    · exact settled_quiet (only_validate (fun _ => ⟨_, rfl, rfl⟩) (fun _ => ⟨_, rfl, rfl⟩) _ _)
        (fun _ _ _ => id) trivial
    rintro - s₁ -
    apply Safe.seq (Alone.refl ident run) (hop s₁)
    intro record s₂ hheld
    refine Safe.seq (Q := fun _ s => Held ident run record s) (Alone.refl ident run) ?_ ?_
    · exact settled_quiet (only_bindExternalSessionId (fun _ => ⟨_, rfl, rfl⟩)
        (fun _ => ⟨_, rfl, rfl⟩) (fun _ _ => ⟨_, rfl, rfl⟩) _ _)
        (fun _ _ heq h => heq.trans h) hheld
    · rintro - s₃ hheld s₄ hs₄
      exact hheld.alone hs₄

end Store

section Runs

theorem settled_mapErr {α : Type} {errorCode : String} {r : Except String α}
    {Q : α → RunnerState → Prop} (hQ : ∀ a, r = .ok a → ∀ s', Alone ident run s s' → Q a s') :
    SettledRun faulty run call ident (mapErr errorCode r) Q s := by
  cases r with
  | ok a => exact hQ a rfl
  | error m => exact fun _ _ => trivial

theorem settled_silent {α : Type} {op : ExecOp} {next : op.Result → ExecM α}
    {Q : α → RunnerState → Prop} (hop : op.Silent)
    (hQ : ∀ r s', Alone ident run s s' → SettledRun faulty run call ident (next r) Q s') :
    SettledRun faulty run call ident (.call op next) Q s := by
  intro s₁ hrel hinv r s₂ hst
  obtain rfl := hst.eq_of_silent hop
  exact ⟨hinv, hQ r s₂ hrel⟩

theorem settled_runStore {α : Type} {p : StoreM α} {Q : α → RunnerState → Prop}
    (h : SettledStore faulty run call ident p Q s) :
    SettledRun faulty run call ident (runStore p) Q s :=
  Safe.hoist (fun _ _ _ _ hst => hst) h

theorem settled_collectExecOutput {execId : String} :
    SettledRun faulty run call ident (.call (.collectExecOutput execId) (mapErr "exec_failed"))
      (fun _ _ => True) s := by
  rintro s₁ - hinv r s₂ hst
  cases hst with
  | collected => exact ⟨hinv.processes _, settled_mapErr fun _ _ _ _ => trivial⟩
  | notCollected => exact ⟨hinv, fun _ _ => trivial⟩

/-- A run executes Claude with the id that it holds. -/
theorem settled_executeOnce (hident : ident run = call.request.identity) (runner : DockerRunner)
    {session : SessionRecord} (h : Held ident run session s) :
    SettledRun faulty run call ident (runner.executeOnce call.request call.validated session)
      (fun _ _ => True) s := by
  apply Safe.bind (Alone.refl ident run)
  apply settled_silent
  · trivial
  intro token s₁ hs₁
  apply settled_mapErr
  rintro token - s₂ hs₂
  apply Safe.bind (Alone.refl ident run)
  intro s₃ hs₃ hinv r s₄ hst
  have hheld := ((h.alone hs₁).alone hs₂).alone hs₃
  rw [Held, hident] at hheld
  have hcommand : ClaudeCommand (buildClaudeCommand call.validated.prompt
      call.validated.systemPrompt session.claudeSessionId session.isNew) session.isNew
      session.claudeSessionId := claudeCommand_buildClaudeCommand ..
  cases hst with
  | notCreated => exact ⟨hinv, fun _ _ => trivial⟩
  | notStarted => exact ⟨hinv.create hcommand hheld, fun _ _ => trivial⟩
  | executed =>
    refine ⟨(hinv.create hcommand hheld).processes _, ?_⟩
    apply settled_mapErr
    rintro execId - s₅ -
    refine Safe.seq (Alone.refl ident run) settled_collectExecOutput ?_
    exact fun _ _ _ _ _ => trivial

theorem settled_execute (hident : ident run = call.request.identity) (runner : DockerRunner)
    (s : RunnerState) : SettledRun faulty run call ident (runner.start call) (fun _ _ => True) s := by
  apply Safe.seq (Alone.refl ident run)
    (settled_runStore (settled_withExternalSession
      (fun s => hident ▸ settled_getOrCreateByKey s _) s))
  intro session s₁ hheld
  apply Safe.bind (Alone.refl ident run)
  apply settled_silent
  · trivial
  intro r s₂ hs₂
  apply settled_mapErr
  rintro - - s₃ hs₃
  apply Safe.bind (Alone.refl ident run)
  apply settled_silent
  · trivial
  intro started s₄ hs₄ s₅ hs₅
  have hheld₅ := (((hheld.alone hs₂).alone hs₃).alone hs₄).alone hs₅
  apply Safe.seq (Alone.refl ident run) (settled_executeOnce hident runner hheld₅)
  rintro first s₆ -
  split_ifs
  · apply Safe.seq (Alone.refl ident run)
      (settled_runStore (settled_withExternalSession
        (fun s => hident ▸ settled_resetByKey s _) s₆))
    intro resetSession s₇ hheld₇
    apply Safe.seq (Alone.refl ident run) (settled_executeOnce hident runner hheld₇)
    rintro retried s₈ -
    apply Safe.bind (Alone.refl ident run)
    apply settled_silent
    · trivial
    exact fun _ _ _ _ _ _ _ => trivial
  · apply Safe.bind (Alone.refl ident run)
    apply settled_silent
    · trivial
    exact fun _ _ _ _ _ _ _ => trivial

theorem RunnerStep.alone {run' : ℕ} {op : ExecOp} {r : op.Result}
    (h : RunnerStep faulty run' call s op r s') (hsettled : Settled ident s')
    (hne : ident run' ≠ ident run) : Alone ident run s s' := by
  refine ⟨h.later, ?_⟩
  obtain ⟨new, hlog, hnew⟩ := h.log_eq
  rw [hlog]
  refine lastGenerated_append fun run₁ reset id hmem => hne ?_
  have hmem' : .generated run₁ reset (ident run) id ∈ s'.log :=
    hlog ▸ List.mem_append_left _ hmem
  obtain rfl : run₁ = run' := hnew _ hmem
  exact (hsettled.own _ _ _ _ hmem').symm

end Runs

end DogBot
