import DogBot.Exec.Runner
import DogBot.Library.Concurrent
import DogBot.Session.Change

/-! # Concurrent runs

Any number of runs share the session store, and every SQL statement is a step
of its own. A log records which run generated which Claude session id, and what
was executed; it is not a part of the program. Each entry of the log is
justified by the entries before it.
-/

namespace DogBot

/-- What a run does with Claude session ids. A row that is inserted or reset takes effect when
the entry is made. -/
inductive RunnerEvent
  | issued (run : ℕ) (claudeSessionId : String)
  | generated (run : ℕ) (reset : Bool) (identity : SessionIdentity) (claudeSessionId : String)
  | exec (run : ℕ) (identity : SessionIdentity) (command : List String)
  deriving DecidableEq

def RunnerEvent.run : RunnerEvent → ℕ
  | issued run _ | generated run _ _ _ | exec run _ _ => run

/-- A Claude process in the container, with the run that started it. -/
structure ClaudeProcess where
  run : ℕ
  identity : SessionIdentity
  command : List String

/-- The session tables, with the log, newest entry first, and the processes that may be working. -/
structure RunnerState where
  store : SessionState
  log : List RunnerEvent
  processes : List ClaudeProcess

structure RunCall where
  request : RunRequest
  validated : ValidatedRunRequest

/-- The id that a statement stores in a row, with the identity of the row. -/
def Statement.generated (s : SessionState) : Statement → Option (Bool × SessionIdentity × String)
  | insertSession sessionKey row =>
    if sessionKey ∈ s.sessions then none else some (false, row.identity, row.claudeSessionId)
  | rotateSession sessionKey claudeSessionId _ =>
    (s.sessions.lookup sessionKey).map fun row => (true, row.identity, claudeSessionId)
  | _ => none

def RunnerState.apply (s : RunnerState) (run : ℕ) (st : Statement) : RunnerState where
  store := st.effect s.store
  log := ((st.generated s.store).map fun g => .generated run g.1 g.2.1 g.2.2).toList ++ s.log
  processes := s.processes

def RunnerState.issue (s : RunnerState) (run : ℕ) (id : String) : RunnerState :=
  { s with store := s.store.issue id, log := .issued run id :: s.log }

def RunnerState.create (s : RunnerState) (run : ℕ) (t : SessionIdentity) (command : List String) :
    RunnerState :=
  { s with log := .exec run t command :: s.log }

def RunnerState.start (s : RunnerState) (process : ClaudeProcess) : RunnerState :=
  { s with processes := process :: s.processes }

/-- What an operation of a run may do. A statement or the creation of an execution that fails may
have taken effect, and the other operations answer arbitrarily. The process of an execution is known
to have ended only if its whole output was collected. -/
inductive RunnerStep (faulty : Prop) (run : ℕ) (call : RunCall) :
    RunnerState → (op : ExecOp) → op.Result → RunnerState → Prop
  | effect {s : RunnerState} {st : Statement} {r : Except SessionStoreError st.Answer}
      (h : SessionStep faulty s.store (.statement st) r (st.effect s.store)) :
      RunnerStep faulty run call s (.session (.statement st)) r (s.apply run st)
  | noEffect {s : RunnerState} {st : Statement} {message : String}
      (h : SessionStep faulty s.store (.statement st) (.error (.postgres message)) s.store) :
      RunnerStep faulty run call s (.session (.statement st)) (.error (.postgres message)) s
  | newUuid {s : RunnerState} {id : String} (h : id ∉ s.store.issued) :
      RunnerStep faulty run call s (.session .newUuid) id (s.issue run id)
  | epochNow {s : RunnerState} {now : ℤ} : RunnerStep faulty run call s (.session .epochNow) now s
  | ensureContainerRunning {s : RunnerState} {containerName : String} {r : Except String Unit} :
      RunnerStep faulty run call s (.ensureContainerRunning containerName) r s
  | createReadGrants {s : RunnerState} {grants : List HistoryReadGrant}
      {r : Except String HistoryReadGrantToken} :
      RunnerStep faulty run call s (.createReadGrants grants) r s
  | executed {s : RunnerState} {containerName cwd execId : String} {command env : List String} :
      RunnerStep faulty run call s (.createClaudeExec containerName cwd command env) (.ok execId)
        ((s.create run call.request.identity command).start
          ⟨run, call.request.identity, command⟩)
  | notStarted {s : RunnerState} {containerName cwd message : String} {command env : List String} :
      RunnerStep faulty run call s (.createClaudeExec containerName cwd command env)
        (.error message) (s.create run call.request.identity command)
  | notCreated {s : RunnerState} {containerName cwd message : String} {command env : List String} :
      RunnerStep faulty run call s (.createClaudeExec containerName cwd command env)
        (.error message) s
  | collected {s : RunnerState} {execId : String} {output : String × String × ℤ} :
      RunnerStep faulty run call s (.collectExecOutput execId) (.ok output)
        { s with processes := s.processes.filter (·.run ≠ run) }
  | notCollected {s : RunnerState} {execId message : String} :
      RunnerStep faulty run call s (.collectExecOutput execId) (.error message) s
  | instantNow {s : RunnerState} {now : ℕ} : RunnerStep faulty run call s .instantNow now s

inductive ProcessExit : RunnerState → RunnerState → Prop
  | exit {s : RunnerState} (i : ℕ) :
      ProcessExit s { s with processes := s.processes.eraseIdx i }

/-- A command that gives Claude a session id: behind the other options the flag stands, directly
followed by the id, and then the prompt. -/
def ClaudeCommand (command : List String) (isNew : Bool) (claudeSessionId : String) : Prop :=
  ∃ systemPrompt prompt, command =
    ["claude", "--print", "--dangerously-skip-permissions", "--append-system-prompt", systemPrompt,
      "--add-dir", "/workspace", "/state/claude-prompt"] ++
    match isNew with
    | true => ["--session-id", claudeSessionId, prompt]
    | false => ["--resume", claudeSessionId, prompt]

theorem claudeCommand_buildClaudeCommand (prompt systemPrompt claudeSessionId : String)
    (isNew : Bool) : ClaudeCommand
      (buildClaudeCommand prompt systemPrompt claudeSessionId isNew) isNew claudeSessionId := by
  refine ⟨systemPrompt, prompt, ?_⟩
  cases isNew <;> rfl

theorem ClaudeCommand.inj {command : List String} {isNew isNew' : Bool} {id id' : String}
    (h : ClaudeCommand command isNew id) (h' : ClaudeCommand command isNew' id') :
    isNew = isNew' ∧ id = id' := by
  obtain ⟨systemPrompt, prompt, rfl⟩ := h
  obtain ⟨systemPrompt', prompt', h'⟩ := h'
  have hlast := List.append_inj_right h' rfl
  cases isNew <;> cases isNew' <;> simp_all

def SharesSession (command command' : List String) : Prop :=
  ∃ isNew isNew' id, ClaudeCommand command isNew id ∧ ClaudeCommand command' isNew' id

/-- The commands that a run executed, newest first. -/
def executions (run : ℕ) (log : List RunnerEvent) : List (List String) :=
  log.filterMap fun
    | .exec run' _ command => if run' = run then some command else none
    | _ => none

/-- The entry of an execution with `--session-id`. -/
def RunnerEvent.PassesSessionId (event : RunnerEvent) (claudeSessionId : String) : Prop :=
  ∃ run t command, event = .exec run t command ∧ ClaudeCommand command true claudeSessionId

/-- What the earlier log says in favour of an entry. -/
def RunnerEvent.Justified (log : List RunnerEvent) : RunnerEvent → Prop
  | issued _ id => ∀ run, .issued run id ∉ log
  | generated run _ _ id => .issued run id ∈ log ∧ ∀ run' reset t, .generated run' reset t id ∉ log
  | exec run t command => ∃ isNew id, ClaudeCommand command isNew id ∧
      (isNew = true → (∃ reset, .generated run reset t id ∈ log) ∧
        ∀ run' t' command', .exec run' t' command' ∈ log → ¬ ClaudeCommand command' true id) ∧
      (isNew = false → ∃ run' reset, .generated run' reset t id ∈ log) ∧
      (executions run log = [] ∨ (executions run log).length = 1 ∧ isNew = true ∧
        .generated run true t id ∈ log)

/-- Every entry is justified by those before it. -/
def LogOk : List RunnerEvent → Prop
  | [] => True
  | event :: log => event.Justified log ∧ LogOk log

namespace LogOk

variable {log log' : List RunnerEvent} {event : RunnerEvent} {run run' : ℕ} {id : String}
  {reset reset' : Bool} {t t' : SessionIdentity} {command : List String}

theorem of_append (h : LogOk (log' ++ log)) : LogOk log := by
  induction log' with
  | nil => exact h
  | cons event log' ih => exact ih h.2

theorem justified (h : LogOk (log' ++ event :: log)) : event.Justified log := h.of_append.1

theorem compare (h : LogOk log) {event' : RunnerEvent} (h₁ : event ∈ log) (h₂ : event' ∈ log) :
    event = event' ∨ (∃ earlier, event.Justified earlier ∧ event' ∈ earlier) ∨
      ∃ earlier, event'.Justified earlier ∧ event ∈ earlier := by
  induction log with
  | nil => cases h₁
  | cons last log ih =>
    rcases List.mem_cons.mp h₁ with rfl | hmem₁
    · rcases List.mem_cons.mp h₂ with rfl | hmem₂
      · exact .inl rfl
      · exact .inr (.inl ⟨log, h.1, hmem₂⟩)
    · rcases List.mem_cons.mp h₂ with rfl | hmem₂
      · exact .inr (.inr ⟨log, h.1, hmem₁⟩)
      · exact ih h.2 hmem₁ hmem₂

theorem issued_unique (h : LogOk log) (h₁ : .issued run id ∈ log) (h₂ : .issued run' id ∈ log) :
    run = run' := by
  rcases h.compare h₁ h₂ with heq | ⟨earlier, hj, hmem⟩ | ⟨earlier, hj, hmem⟩
  · exact (RunnerEvent.issued.inj heq).1
  · exact absurd hmem (hj run')
  · exact absurd hmem (hj run)

theorem issued_of_generated (h : LogOk log) (hg : .generated run reset t id ∈ log) :
    .issued run id ∈ log := by
  obtain ⟨later, earlier, rfl⟩ := List.append_of_mem hg
  exact List.mem_append_right _ (List.mem_cons_of_mem _ h.justified.1)

theorem generated_unique (h : LogOk log) (h₁ : .generated run reset t id ∈ log)
    (h₂ : .generated run' reset' t' id ∈ log) : run = run' ∧ reset = reset' ∧ t = t' := by
  rcases h.compare h₁ h₂ with heq | ⟨earlier, hj, hmem⟩ | ⟨earlier, hj, hmem⟩
  · obtain ⟨rfl, rfl, rfl, -⟩ := RunnerEvent.generated.inj heq
    exact ⟨rfl, rfl, rfl⟩
  · exact absurd hmem (hj.2 _ _ _)
  · exact absurd hmem (hj.2 _ _ _)

theorem generated_of_exec (h : LogOk log) (he : .exec run t command ∈ log)
    (hc : ClaudeCommand command true id) : ∃ reset, .generated run reset t id ∈ log := by
  obtain ⟨later, earlier, rfl⟩ := List.append_of_mem he
  obtain ⟨isNew, id', hc', hnew, -⟩ := h.justified
  obtain ⟨rfl, rfl⟩ := hc.inj hc'
  obtain ⟨reset, hg⟩ := (hnew rfl).1
  exact ⟨reset, List.mem_append_right _ (List.mem_cons_of_mem _ hg)⟩

theorem exec_generated {isNew : Bool} (h : LogOk log) (he : .exec run t command ∈ log)
    (hc : ClaudeCommand command isNew id) : ∃ run' reset, .generated run' reset t id ∈ log := by
  obtain ⟨later, earlier, rfl⟩ := List.append_of_mem he
  obtain ⟨isNew', id', hc', hnew, hold, -⟩ := h.justified
  obtain ⟨rfl, rfl⟩ := hc.inj hc'
  have hearlier : ∃ run' reset, .generated run' reset t id ∈ earlier := by
    cases isNew with
    | true => exact ⟨run, (hnew rfl).1⟩
    | false => exact hold rfl
  obtain ⟨run', reset, hg⟩ := hearlier
  exact ⟨run', reset, List.mem_append_right _ (List.mem_cons_of_mem _ hg)⟩

theorem identity_eq {command' : List String} (h : LogOk log) (he : .exec run t command ∈ log)
    (he' : .exec run' t' command' ∈ log) (hs : SharesSession command command') : t = t' := by
  obtain ⟨isNew, isNew', id, hc, hc'⟩ := hs
  obtain ⟨_, _, hg⟩ := h.exec_generated he hc
  obtain ⟨_, _, hg'⟩ := h.exec_generated he' hc'
  exact (h.generated_unique hg hg').2.2

theorem pairwise (h : LogOk log) : log.Pairwise fun later earlier =>
    ∀ id, later.PassesSessionId id → ¬ earlier.PassesSessionId id := by
  induction log with
  | nil => exact .nil
  | cons event log ih =>
    refine .cons ?_ (ih h.2)
    rintro earlier hmem id ⟨run, t, command, rfl, hc⟩ ⟨run', t', command', rfl, hc'⟩
    obtain ⟨isNew, id', hid, hnew, -⟩ := h.1
    obtain ⟨rfl, rfl⟩ := hc.inj hid
    exact (hnew rfl).2 run' t' command' hmem hc'

theorem length_executions_le (h : LogOk log) (run : ℕ) : (executions run log).length ≤ 2 := by
  induction log with
  | nil => exact Nat.zero_le _
  | cons event log ih =>
    cases event with
    | issued | generated => exact ih h.2
    | exec run' t command =>
      by_cases hrun : run' = run
      · subst hrun
        obtain ⟨isNew, id, -, -, -, honce⟩ := h.1
        have hlen : (executions run' (.exec run' t command :: log)).length =
            (executions run' log).length + 1 := by simp [executions]
        rcases honce with hnil | ⟨hone, -⟩
        · rw [hlen, hnil]
          decide
        · omega
      · simpa [executions, hrun] using ih h.2

end LogOk

theorem mem_executions {run : ℕ} {log : List RunnerEvent} {command : List String} :
    command ∈ executions run log ↔ ∃ t, .exec run t command ∈ log := by
  simp only [executions, List.mem_filterMap]
  constructor
  · rintro ⟨event, hmem, he⟩
    cases event with
    | exec run' t command' =>
      simp only [Option.ite_none_right_eq_some, Option.some.injEq] at he
      obtain ⟨rfl, rfl⟩ := he
      exact ⟨t, hmem⟩
    | issued | generated => cases he
  · rintro ⟨t, hmem⟩
    exact ⟨_, hmem, by simp⟩

namespace RunnerState

/-- The invariant: the log is justified, it lists the ids that were issued, the id of every row
was generated for the row's identity, and every run has at most one process. -/
structure Inv (s : RunnerState) : Prop where
  log : LogOk s.log
  issued : ∀ run id, .issued run id ∈ s.log → id ∈ s.store.issued
  rows : ∀ key row, s.store.sessions.lookup key = some row →
    ∃ run reset, .generated run reset row.identity row.claudeSessionId ∈ s.log
  executed : ∀ p ∈ s.processes, .exec p.run p.identity p.command ∈ s.log
  once : (s.processes.map ClaudeProcess.run).Nodup

def empty : RunnerState := ⟨.empty, [], []⟩

theorem inv_empty : Inv empty := ⟨trivial, nofun, nofun, nofun, List.nodup_nil⟩

/-- What every step keeps: the entries of the log, and the owners of session keys. -/
structure Later (s s' : RunnerState) : Prop where
  grows : s.log <:+ s'.log
  owner : ∀ key t, s.store.owner key = some t → s'.store.owner key = some t

/-- The other runs leave a run its own entries, and start no process of it. -/
structure Rely (run : ℕ) (s s' : RunnerState) : Prop extends Later s s' where
  own : s'.log.filter (·.run = run) = s.log.filter (·.run = run)
  processes : ∀ p ∈ s'.processes, p.run = run → p ∈ s.processes

theorem Later.trans {s₁ s₂ s₃ : RunnerState} (h : Later s₁ s₂) (h' : Later s₂ s₃) : Later s₁ s₃ :=
  ⟨h.grows.trans h'.grows, fun key t ho => h'.owner key t (h.owner key t ho)⟩

theorem Rely.refl (run : ℕ) (s : RunnerState) : Rely run s s :=
  ⟨⟨List.suffix_rfl, fun _ _ h => h⟩, rfl, fun _ h _ => h⟩

theorem Rely.trans {run : ℕ} {s₁ s₂ s₃ : RunnerState} (h : Rely run s₁ s₂)
    (h' : Rely run s₂ s₃) : Rely run s₁ s₃ :=
  ⟨h.toLater.trans h'.toLater, h'.own.trans h.own,
    fun p hp he => h.processes p (h'.processes p hp he) he⟩

theorem Rely.sublist {run : ℕ} {s : RunnerState} {processes : List ClaudeProcess}
    (h : processes.Sublist s.processes) : Rely run s { s with processes } :=
  ⟨⟨List.suffix_rfl, fun _ _ ho => ho⟩, rfl, fun _ hp _ => h.subset hp⟩

theorem Rely.mem {run : ℕ} {s s' : RunnerState} {event : RunnerEvent} (h : Rely run s s')
    (he : event.run = run) (hmem : event ∈ s'.log) : event ∈ s.log :=
  (mem_iff_of_filter_own_eq h.own (decide_eq_true he)).mp hmem

theorem executions_filter (run : ℕ) (log : List RunnerEvent) :
    executions run (log.filter (·.run = run)) = executions run log := by
  induction log with
  | nil => rfl
  | cons event log ih =>
    by_cases he : event.run = run
    · simp only [executions, List.filter_cons, he, decide_true, if_true, List.filterMap_cons]
        at ih ⊢
      rw [ih]
    · simp only [List.filter_cons, he, decide_false, Bool.false_eq_true, if_false, ih]
      cases event with
      | issued | generated => rfl
      | exec run' t command =>
        have hne : run' ≠ run := he
        simp [executions, hne]

theorem Rely.executions {run : ℕ} {s s' : RunnerState} (h : Rely run s s') :
    executions run s'.log = executions run s.log := by
  rw [← executions_filter, h.own, executions_filter]

end RunnerState

section Steps

variable {faulty : Prop} {run : ℕ} {call : RunCall} {s s' : RunnerState} {op : ExecOp}
  {r : op.Result} {st : Statement}

theorem RunnerStep.log_eq (h : RunnerStep faulty run call s op r s') :
    ∃ new, s'.log = new ++ s.log ∧ ∀ event ∈ new, event.run = run := by
  cases h with
  | effect h =>
    refine ⟨_, rfl, fun event hmem => ?_⟩
    obtain ⟨g, -, rfl⟩ := Option.map_eq_some_iff.mp (Option.mem_toList.mp hmem)
    rfl
  | newUuid h => exact ⟨[_], rfl, by simp [RunnerEvent.run]⟩
  | executed | notStarted => exact ⟨[_], rfl, by simp [RunnerEvent.run]⟩
  | noEffect | epochNow | ensureContainerRunning | createReadGrants | notCreated | collected
  | notCollected | instantNow => exact ⟨[], rfl, by simp⟩

theorem RunnerStep.exec_mem {run' : ℕ} {t : SessionIdentity} {command : List String}
    (h : RunnerStep faulty run call s op r s') (hmem : .exec run' t command ∈ s'.log) :
    .exec run' t command ∈ s.log ∨ run' = run ∧ t = call.request.identity := by
  cases h with
  | effect h =>
    rcases List.mem_append.mp hmem with hmem | hmem
    · obtain ⟨g, -, hg⟩ := Option.map_eq_some_iff.mp (Option.mem_toList.mp hmem)
      cases hg
    · exact .inl hmem
  | newUuid h =>
    rcases List.mem_cons.mp hmem with heq | hmem
    · cases heq
    · exact .inl hmem
  | executed | notStarted =>
    rcases List.mem_cons.mp hmem with heq | hmem
    · obtain ⟨rfl, rfl, -⟩ := RunnerEvent.exec.inj heq
      exact .inr ⟨rfl, rfl⟩
    · exact .inl hmem
  | noEffect | epochNow | ensureContainerRunning | createReadGrants | notCreated | collected
  | notCollected | instantNow => exact .inl hmem

theorem owner_updateRow {s : SessionState} {key key' : String} {f : SessionRow → SessionRow}
    (hf : ∀ row, (f row).identity = row.identity) :
    (Statement.updateRow s key f).owner key' = s.owner key' := by
  unfold Statement.updateRow
  cases hr : s.sessions.lookup key with
  | none => rfl
  | some row =>
    unfold SessionState.owner
    dsimp only
    rw [AList.lookup_insert']
    split_ifs with hk
    · subst hk
      simp [hr, hf]
    · rfl

theorem Statement.effect_owner (st : Statement) {s : SessionState} {key : String}
    {t : SessionIdentity} (h : s.owner key = some t) : (st.effect s).owner key = some t := by
  cases st with
  | selectSession | selectAlias | upsertAlias => exact h
  | touchSession | rotateSession =>
    rw [Statement.effect, owner_updateRow]
    · exact h
    · exact fun _ => rfl
  | insertSession key' row =>
    rw [Statement.effect]
    split_ifs with hk
    · exact h
    · unfold SessionState.owner
      dsimp only
      rw [AList.lookup_insert_ne]
      · exact h
      · rintro rfl
        obtain ⟨row', hr, -⟩ := Option.map_eq_some_iff.mp h
        exact hk (AList.mem_of_lookup hr)

theorem RunnerState.later_apply (s : RunnerState) (run : ℕ) (st : Statement) :
    s.Later (s.apply run st) :=
  ⟨⟨_, rfl⟩, fun _ _ ho => st.effect_owner ho⟩

theorem RunnerStep.later (h : RunnerStep faulty run call s op r s') : s.Later s' := by
  obtain ⟨new, hlog, -⟩ := h.log_eq
  refine ⟨⟨new, hlog.symm⟩, fun key t ho => ?_⟩
  cases h with
  | effect h => exact (s.later_apply run _).owner key t ho
  | newUuid h => exact ho
  | noEffect | epochNow | ensureContainerRunning | createReadGrants | executed | notStarted
  | notCreated | collected | notCollected | instantNow => exact ho

theorem RunnerStep.processes_cases (h : RunnerStep faulty run call s op r s') :
    s'.processes.Sublist s.processes ∨
      ∃ containerName cwd command env, op = .createClaudeExec containerName cwd command env ∧
        s'.processes = ⟨run, call.request.identity, command⟩ :: s.processes := by
  cases h with
  | executed => exact .inr ⟨_, _, _, _, rfl, rfl⟩
  | collected => exact .inl List.filter_sublist
  | effect | newUuid | noEffect | epochNow | ensureContainerRunning | createReadGrants | notStarted
  | notCreated | notCollected | instantNow => exact .inl (.refl _)

theorem RunnerStep.processes (h : RunnerStep faulty run call s op r s') :
    ∀ p ∈ s'.processes, p ∈ s.processes ∨ p.run = run := by
  intro p hp
  rcases h.processes_cases with hsub | ⟨_, _, command, _, -, heq⟩
  · exact .inl (hsub.subset hp)
  · rw [heq] at hp
    rcases List.mem_cons.mp hp with rfl | hp
    · exact .inr rfl
    · exact .inl hp

theorem RunnerStep.rely {run' : ℕ} (h : RunnerStep faulty run' call s op r s')
    (hne : run ≠ run') : s.Rely run s' := by
  obtain ⟨new, hlog, hown⟩ := h.log_eq
  refine ⟨h.later, filter_own_eq hlog fun event hmem => ?_, ?_⟩
  · simp [hown event hmem, hne.symm]
  intro p hp he
  rcases h.processes p hp with hp | hp
  · exact hp
  · exact absurd (he.symm.trans hp) hne

end Steps

/-- The id that a statement stores, if it takes effect. -/
def Statement.newId : Statement → Option String
  | insertSession _ row => some row.claudeSessionId
  | rotateSession _ claudeSessionId _ => some claudeSessionId
  | _ => none

theorem Statement.newId_of_generated {s : SessionState} {st : Statement}
    {g : Bool × SessionIdentity × String} (h : st.generated s = some g) :
    st.newId = some g.2.2 := by
  cases st with
  | insertSession key row =>
    simp only [generated] at h
    split_ifs at h
    obtain rfl := Option.some.inj h
    rfl
  | rotateSession key id now =>
    obtain ⟨row, -, rfl⟩ := Option.map_eq_some_iff.mp h
    rfl
  | _ => cases h

theorem Statement.lookup_updateRow {s : SessionState} {key key' : String}
    {f : SessionRow → SessionRow} {row : SessionRow}
    (h : (updateRow s key' f).sessions.lookup key = some row) :
    s.sessions.lookup key = some row ∨
      key = key' ∧ ∃ old, s.sessions.lookup key' = some old ∧ row = f old := by
  unfold updateRow at h
  cases hr : s.sessions.lookup key' with
  | none =>
    rw [hr] at h
    exact .inl h
  | some old =>
    rw [hr] at h
    dsimp only at h
    rw [AList.lookup_insert'] at h
    split_ifs at h with hk
    · exact .inr ⟨hk, old, rfl, (Option.some.inj h).symm⟩
    · exact .inl h

/-- A row after a statement has the ids of the row before, or those that were generated. -/
theorem Statement.effect_row {s : SessionState} {st : Statement} {key : String} {row : SessionRow}
    (h : (st.effect s).sessions.lookup key = some row) :
    (∃ old, s.sessions.lookup key = some old ∧ row.identity = old.identity ∧
      row.claudeSessionId = old.claudeSessionId) ∨
    ∃ reset, st.generated s = some (reset, row.identity, row.claudeSessionId) := by
  cases st with
  | selectSession | selectAlias | upsertAlias => exact .inl ⟨row, h, rfl, rfl⟩
  | insertSession key' row' =>
    rw [effect] at h
    split_ifs at h with hk
    · exact .inl ⟨row, h, rfl, rfl⟩
    · dsimp only at h
      rw [AList.lookup_insert'] at h
      split_ifs at h
      · obtain rfl := Option.some.inj h
        exact .inr ⟨false, by rw [generated, if_neg hk]⟩
      · exact .inl ⟨row, h, rfl, rfl⟩
  | touchSession key' now =>
    rcases lookup_updateRow h with h | ⟨rfl, old, hr, rfl⟩
    · exact .inl ⟨row, h, rfl, rfl⟩
    · exact .inl ⟨old, hr, rfl, rfl⟩
  | rotateSession key' id now =>
    rcases lookup_updateRow h with h | ⟨rfl, old, hr, rfl⟩
    · exact .inl ⟨row, h, rfl, rfl⟩
    · exact .inr ⟨true, by rw [generated, hr]; rfl⟩

theorem Statement.effect_issued (st : Statement) (s : SessionState) :
    (st.effect s).issued = s.issued := by
  cases st with
  | selectSession | selectAlias | upsertAlias => rfl
  | insertSession =>
    rw [effect]
    split_ifs <;> rfl
  | touchSession | rotateSession =>
    rw [effect, updateRow]
    split <;> rfl

namespace RunnerState

variable {run : ℕ} {s s' : RunnerState} {id : String} {st : Statement}

/-- The run has generated the id, but not stored it yet. -/
structure Reserved (run : ℕ) (id : String) (s : RunnerState) : Prop where
  issued : .issued run id ∈ s.log
  unused : ∀ reset t, .generated run reset t id ∉ s.log

theorem Reserved.rely (h : Reserved run id s) (hr : Rely run s s') : Reserved run id s' :=
  ⟨hr.grows.mem h.issued, fun reset t hmem => h.unused reset t (hr.mem rfl hmem)⟩

theorem Inv.justified_generated (hi : Inv s) (h : Reserved run id s) (reset : Bool)
    (t : SessionIdentity) : (RunnerEvent.generated run reset t id).Justified s.log := by
  refine ⟨h.issued, fun run' reset' t' hmem => ?_⟩
  obtain rfl := hi.log.issued_unique h.issued (hi.log.issued_of_generated hmem)
  exact h.unused reset' t' hmem

theorem Inv.apply (hi : Inv s) (h : ∀ id, st.newId = some id → Reserved run id s) :
    Inv (s.apply run st) := by
  have hgrows : ∀ event ∈ s.log, event ∈ (s.apply run st).log :=
    fun event hmem => List.mem_append_right _ hmem
  constructor
  · unfold RunnerState.apply
    dsimp only
    cases hg : st.generated s.store with
    | none => exact hi.log
    | some g =>
      have hres := h _ (Statement.newId_of_generated hg)
      exact ⟨hi.justified_generated hres g.1 g.2.1, hi.log⟩
  · intro run' id' hmem
    rw [RunnerState.apply, Statement.effect_issued]
    rcases List.mem_append.mp hmem with hmem | hmem
    · obtain ⟨g, -, hg⟩ := Option.map_eq_some_iff.mp (Option.mem_toList.mp hmem)
      cases hg
    · exact hi.issued run' id' hmem
  · intro key row hl
    rcases Statement.effect_row hl with ⟨old, hr, ht, hid⟩ | ⟨reset, hg⟩
    · obtain ⟨run', reset, hmem⟩ := hi.rows key old hr
      rw [ht, hid]
      exact ⟨run', reset, hgrows _ hmem⟩
    · refine ⟨run, reset, List.mem_append_left _ ?_⟩
      rw [hg]
      exact List.mem_singleton.mpr rfl
  · exact fun p hp => hgrows _ (hi.executed p hp)
  · exact hi.once

theorem Inv.issue (hi : Inv s) (h : id ∉ s.store.issued) : Inv (s.issue run id) := by
  constructor
  · exact ⟨fun run' hmem => h (hi.issued run' id hmem), hi.log⟩
  · intro run' id' hmem
    rcases List.mem_cons.mp hmem with heq | hmem
    · obtain ⟨-, rfl⟩ := RunnerEvent.issued.inj heq
      exact List.mem_cons_self
    · exact List.mem_cons_of_mem _ (hi.issued run' id' hmem)
  · intro key row hl
    obtain ⟨run', reset, hmem⟩ := hi.rows key row hl
    exact ⟨run', reset, List.mem_cons_of_mem _ hmem⟩
  · exact fun p hp => List.mem_cons_of_mem _ (hi.executed p hp)
  · exact hi.once

theorem Inv.reserved (hi : Inv s) (h : id ∉ s.store.issued) : Reserved run id (s.issue run id) := by
  refine ⟨List.mem_cons_self, fun reset t hmem => ?_⟩
  rcases List.mem_cons.mp hmem with heq | hmem
  · cases heq
  · exact h (hi.issued run id (hi.log.issued_of_generated hmem))

theorem Inv.create {t : SessionIdentity} {command : List String} (hi : Inv s)
    (h : (RunnerEvent.exec run t command).Justified s.log) : Inv (s.create run t command) := by
  constructor
  · exact ⟨h, hi.log⟩
  · intro run' id hmem
    rcases List.mem_cons.mp hmem with heq | hmem
    · cases heq
    · exact hi.issued run' id hmem
  · intro key row hl
    obtain ⟨run', reset, hmem⟩ := hi.rows key row hl
    exact ⟨run', reset, List.mem_cons_of_mem _ hmem⟩
  · exact fun p hp => List.mem_cons_of_mem _ (hi.executed p hp)
  · exact hi.once

theorem Inv.start {p : ClaudeProcess} (hi : Inv s)
    (hexec : .exec p.run p.identity p.command ∈ s.log) (h : ∀ q ∈ s.processes, q.run ≠ p.run) :
    Inv (s.start p) := by
  refine ⟨hi.log, hi.issued, hi.rows, ?_, ?_⟩
  · intro q hq
    rcases List.mem_cons.mp hq with rfl | hq
    · exact hexec
    · exact hi.executed q hq
  · refine List.nodup_cons.mpr ⟨fun hmem => ?_, hi.once⟩
    obtain ⟨q, hq, he⟩ := List.mem_map.mp hmem
    exact h q hq he

theorem Inv.sublist {processes : List ClaudeProcess} (hi : Inv s)
    (h : processes.Sublist s.processes) : Inv { s with processes } :=
  ⟨hi.log, hi.issued, hi.rows, fun p hp => hi.executed p (h.subset hp),
    hi.once.sublist (h.map ClaudeProcess.run)⟩

end RunnerState

theorem ProcessExit.rely {s s' : RunnerState} (h : ProcessExit s s') (run : ℕ) : s.Rely run s' := by
  cases h with
  | exit i => exact .sublist (List.eraseIdx_sublist _ _)

theorem ProcessExit.inv {s s' : RunnerState} (h : ProcessExit s s') (hi : s.Inv) : s'.Inv := by
  cases h with
  | exit i => exact hi.sublist (List.eraseIdx_sublist _ _)

end DogBot
