import DogBot.Exec.LifeCycle

/-! # Executions of the prompt

Whether Claude found the session that it was to resume is guessed from what it
printed. A second log records what Claude did in each execution. As long as it
does not print the message of a missing session in an execution that resumes a
session and runs the prompt, a run executes its prompt at most once, and resets
its session only if that is missing.
-/

namespace DogBot

open Program SessionStore

/-- What Claude did in an execution: it did not find the session that it was to resume, or it ran
the prompt. The output is known if the whole of it was collected. -/
inductive PromptEvent
  | missing (run : ℕ)
  | ran (run : ℕ) (resumed : Bool) (output : Option (String × String))
  deriving DecidableEq

namespace PromptEvent

def run : PromptEvent → ℕ
  | missing run | ran run _ _ => run

def isRan : PromptEvent → Bool
  | ran _ _ _ => true
  | missing _ => false

/-- The prompt was run in a resumed session, but the output reads as if the session were missing. -/
def isMisread : PromptEvent → Bool
  | ran _ true (some (stdout, stderr)) =>
    looksLikeMissingSession (Text.trim stdout) || looksLikeMissingSession (Text.trim stderr)
  | _ => false

end PromptEvent

/-- The executions with their commands, and what Claude did in them, newest first. -/
structure PromptLog where
  commands : List (String × List String)
  events : List PromptEvent

namespace PromptLog

def create (l : PromptLog) (execId : String) (command : List String) : PromptLog :=
  { l with commands := (execId, command) :: l.commands }

def record (l : PromptLog) (event : PromptEvent) : PromptLog :=
  { l with events := event :: l.events }

def runs (run : ℕ) (l : PromptLog) : ℕ :=
  l.events.countP fun event => event.run = run && event.isRan

def Misread (run : ℕ) (l : PromptLog) : Prop :=
  ∃ event ∈ l.events, event.run = run ∧ event.isMisread = true

instance (run : ℕ) (l : PromptLog) : Decidable (l.Misread run) :=
  inferInstanceAs (Decidable (∃ event ∈ l.events, event.run = run ∧ event.isMisread = true))

end PromptLog

/-- The option of a Claude command that comes behind the fixed ones. -/
def resumes (command : List String) : Bool := command[8]? = some "--resume"

def collectedOutput : Except String (String × String × ℤ) → Option (String × String)
  | .ok (stdout, stderr, _) => some (stdout, stderr)
  | .error _ => none

/-- An operation that sends the statement which resets a session. -/
def SessionOp.Rotates : SessionOp → Prop
  | .statement (.rotateSession _ _ _) => True
  | _ => False

/-- An operation that neither resets a session nor starts Claude. -/
def ExecOp.Quiet : ExecOp → Prop
  | .session op => ¬ op.Rotates
  | .collectExecOutput _ => False
  | _ => True

abbrev PromptState := RunnerState × PromptLog

/-- The steps of a run, with what Claude does. It is started when its output is collected, unless
the start fails. If the command resumes a session, Claude may not find it, and then it does not run
the prompt; otherwise it runs the prompt. What it prints is arbitrary in both cases. -/
inductive PromptStep (faulty : Prop) (run : ℕ) (call : RunCall) :
    PromptState → (op : ExecOp) → op.Result → PromptState → Prop
  | created {s s' : RunnerState} {l : PromptLog} {containerName cwd execId : String}
      {command env : List String} (hnew : l.commands.lookup execId = none)
      (h : RunnerStep faulty run call s (.createClaudeExec containerName cwd command env)
        (.ok execId) s') :
      PromptStep faulty run call (s, l) (.createClaudeExec containerName cwd command env)
        (.ok execId) (s', l.create execId command)
  | notCreated {s s' : RunnerState} {l : PromptLog} {containerName cwd message : String}
      {command env : List String}
      (h : RunnerStep faulty run call s (.createClaudeExec containerName cwd command env)
        (.error message) s') :
      PromptStep faulty run call (s, l) (.createClaudeExec containerName cwd command env)
        (.error message) (s', l)
  | notStarted {s s' : RunnerState} {l : PromptLog} {execId message : String}
      (h : RunnerStep faulty run call s (.collectExecOutput execId) (.error message) s') :
      PromptStep faulty run call (s, l) (.collectExecOutput execId) (.error message) (s', l)
  | missing {s s' : RunnerState} {l : PromptLog} {execId : String} {command : List String}
      {r : Except String (String × String × ℤ)} (hexec : l.commands.lookup execId = some command)
      (hresumes : resumes command = true)
      (h : RunnerStep faulty run call s (.collectExecOutput execId) r s') :
      PromptStep faulty run call (s, l) (.collectExecOutput execId) r
        (s', l.record (.missing run))
  | ran {s s' : RunnerState} {l : PromptLog} {execId : String} {command : List String}
      {r : Except String (String × String × ℤ)} (hexec : l.commands.lookup execId = some command)
      (h : RunnerStep faulty run call s (.collectExecOutput execId) r s') :
      PromptStep faulty run call (s, l) (.collectExecOutput execId) r
        (s', l.record (.ran run (resumes command) (collectedOutput r)))
  | other {s s' : RunnerState} {l : PromptLog} {op : ExecOp} {r : op.Result}
      (hcreate : ∀ containerName cwd command env,
        op ≠ .createClaudeExec containerName cwd command env)
      (hcollect : ∀ execId, op ≠ .collectExecOutput execId)
      (h : RunnerStep faulty run call s op r s') : PromptStep faulty run call (s, l) op r (s', l)

namespace PromptState

/-- The run has reset its session. -/
def Reset (run : ℕ) (s : PromptState) : Prop := ∃ t id, .generated run true t id ∈ s.1.log

/-- The prompt of the run was run at most so often, and its session was reset only if Claude did
not find it. -/
structure AtMost (n run : ℕ) (s : PromptState) : Prop where
  runs : s.2.runs run ≤ n
  missing : s.Reset run → .missing run ∈ s.2.events

/-- The output of the run was misread, or its prompt was run at most so often. -/
def Careful (n run : ℕ) (s : PromptState) : Prop := ¬ s.2.Misread run → s.AtMost n run

def Ok (s : PromptState) : Prop := ∀ run, s.Careful 1 run

def empty : PromptState := (.empty, ⟨[], []⟩)

structure Rely (run : ℕ) (s s' : PromptState) : Prop where
  log : s'.1.log.filter (·.run = run) = s.1.log.filter (·.run = run)
  events : s'.2.events.filter (·.run = run) = s.2.events.filter (·.run = run)
  commands : ∀ execId command, s.2.commands.lookup execId = some command →
    s'.2.commands.lookup execId = some command

theorem Rely.refl (run : ℕ) (s : PromptState) : Rely run s s := ⟨rfl, rfl, fun _ _ h => h⟩

theorem Rely.trans {run : ℕ} {s₁ s₂ s₃ : PromptState} (h : Rely run s₁ s₂)
    (h' : Rely run s₂ s₃) : Rely run s₁ s₃ :=
  ⟨h'.log.trans h.log, h'.events.trans h.events,
    fun _ _ hc => h'.commands _ _ (h.commands _ _ hc)⟩

/-- The run may reset its session: Claude did not find it, and has not run the prompt. -/
def MayReset (run : ℕ) (s : PromptState) : Prop :=
  ¬ s.2.Misread run → s.2.runs run = 0 ∧ .missing run ∈ s.2.events

/-- An execution of the run has ended: Claude did not find the session, or it ran the prompt and
printed this. -/
def Collected (run : ℕ) (isNew : Bool) (response : RunResponse) (s : PromptState) : Prop :=
  s.MayReset run ∨ .ran run (!isNew) (some (response.stdout, response.stderr)) ∈ s.2.events

section Own

variable {n run : ℕ} {s s' : PromptState} {event : PromptEvent}

theorem Rely.mem_events_iff (h : Rely run s s') (he : event.run = run) :
    event ∈ s'.2.events ↔ event ∈ s.2.events :=
  mem_iff_of_filter_own_eq h.events (decide_eq_true he)

theorem Rely.reset_iff (h : Rely run s s') : s'.Reset run ↔ s.Reset run :=
  exists_congr fun _ => exists_congr fun _ =>
    mem_iff_of_filter_own_eq h.log (decide_eq_true rfl)

theorem Rely.misread_iff (h : Rely run s s') : s'.2.Misread run ↔ s.2.Misread run := by
  constructor
  · rintro ⟨event, hmem, he, hmis⟩
    exact ⟨event, (h.mem_events_iff he).mp hmem, he, hmis⟩
  · rintro ⟨event, hmem, he, hmis⟩
    exact ⟨event, (h.mem_events_iff he).mpr hmem, he, hmis⟩

theorem Rely.runs_eq (h : Rely run s s') : s'.2.runs run = s.2.runs run := by
  have hfilter : ∀ l : PromptLog, l.runs run =
      (l.events.filter (·.run = run)).countP PromptEvent.isRan := fun l => by
    simp [PromptLog.runs, List.countP_filter, Bool.and_comm]
  rw [hfilter, h.events, ← hfilter]

theorem Rely.careful (h : Rely run s s') (hs : s.Careful n run) : s'.Careful n run := by
  intro hmis
  obtain ⟨hruns, hmissing⟩ := hs fun hm => hmis (h.misread_iff.mpr hm)
  refine ⟨h.runs_eq ▸ hruns, fun hreset => ?_⟩
  exact (h.mem_events_iff rfl).mpr (hmissing (h.reset_iff.mp hreset))

theorem Rely.mayReset (h : Rely run s s') (hs : s.MayReset run) : s'.MayReset run := by
  intro hmis
  obtain ⟨hruns, hmissing⟩ := hs fun hm => hmis (h.misread_iff.mpr hm)
  exact ⟨h.runs_eq.trans hruns, (h.mem_events_iff rfl).mpr hmissing⟩

theorem Rely.collected {isNew : Bool} {response : RunResponse} (h : Rely run s s')
    (hs : s.Collected run isNew response) : s'.Collected run isNew response :=
  hs.imp h.mayReset (h.mem_events_iff rfl).mpr

theorem Careful.mono {m : ℕ} (hmn : m ≤ n) (h : s.Careful m run) : s.Careful n run :=
  fun hmis => ⟨(h hmis).runs.trans hmn, (h hmis).missing⟩

theorem MayReset.careful (h : s.MayReset run) : s.Careful n run := by
  intro hmis
  obtain ⟨hruns, hmissing⟩ := h hmis
  exact ⟨hruns ▸ Nat.zero_le n, fun _ => hmissing⟩

/-- A retry is made if the session is missing, or the output is misread. -/
theorem Collected.mayReset {isNew : Bool} {response : RunResponse}
    (h : s.Collected run isNew response)
    (hretry : shouldRetryWithFreshSession response isNew = true) : s.MayReset run := by
  rcases h with h | hran
  · exact h
  · intro hmis
    refine absurd ⟨_, hran, rfl, ?_⟩ hmis
    obtain rfl := isNew_of_shouldRetry hretry
    rw [shouldRetryWithFreshSession] at hretry
    split_ifs at hretry
    exact hretry

end Own

end PromptState

section Steps

variable {faulty : Prop} {n run run' : ℕ} {call : RunCall} {s s' : PromptState} {op : ExecOp}
  {r : op.Result}

theorem PromptStep.runner (h : PromptStep faulty run call s op r s') :
    RunnerStep faulty run call s.1 op r s'.1 := by
  cases h <;> assumption

theorem PromptStep.events_eq (h : PromptStep faulty run call s op r s') :
    ∃ new, s'.2.events = new ++ s.2.events ∧ ∀ event ∈ new, event.run = run := by
  cases h with
  | created | notCreated | notStarted | other => exact ⟨[], rfl, by simp⟩
  | missing | ran => exact ⟨[_], rfl, by simp [PromptEvent.run]⟩

theorem PromptStep.commands {execId : String} {command : List String}
    (h : PromptStep faulty run call s op r s')
    (hc : s.2.commands.lookup execId = some command) :
    s'.2.commands.lookup execId = some command := by
  cases h with
  | @created _ _ _ _ _ execId' _ _ hnew =>
    have hne : execId ≠ execId' := by
      rintro rfl
      rw [hnew] at hc
      cases hc
    rw [PromptLog.create, List.lookup_cons, beq_false_of_ne hne]
    exact hc
  | notCreated | notStarted | other | missing | ran => exact hc

theorem PromptStep.rely (hne : run' ≠ run) (h : PromptStep faulty run call s op r s') :
    PromptState.Rely run' s s' := by
  obtain ⟨new, hnew, hrun⟩ := h.events_eq
  refine ⟨(h.runner.rely hne).own, filter_own_eq hnew fun event hmem => ?_,
    fun _ _ hc => h.commands hc⟩
  simp [hrun event hmem, hne.symm]

theorem RunnerStep.generated_mem {s s' : RunnerState} {t : SessionIdentity} {id : String}
    (h : RunnerStep faulty run call s op r s') (hop : ∀ op', op = .session op' → ¬ op'.Rotates)
    (hmem : .generated run' true t id ∈ s'.log) : .generated run' true t id ∈ s.log := by
  cases h with
  | @effect st =>
    refine (List.mem_append.mp hmem).resolve_left fun hnew => ?_
    obtain ⟨⟨reset, g⟩, hg, heq⟩ := Option.map_eq_some_iff.mp (Option.mem_toList.mp hnew)
    obtain ⟨-, rfl, -⟩ := RunnerEvent.generated.inj heq
    cases st with
    | rotateSession => exact hop _ rfl trivial
    | insertSession key row =>
      rw [Statement.generated] at hg
      split_ifs at hg
      cases hg
    | selectSession | touchSession | selectAlias | upsertAlias => cases hg
  | newUuid | executed | notStarted =>
    rcases List.mem_cons.mp hmem with heq | hmem
    · cases heq
    · exact hmem
  | noEffect | epochNow | ensureContainerRunning | createReadGrants | notCreated | collected
  | notCollected | instantNow => exact hmem

theorem ExecOp.Quiet.not_rotates (h : op.Quiet) : ∀ op', op = .session op' → ¬ op'.Rotates := by
  rintro op' rfl
  exact h

theorem PromptStep.reset (h : PromptStep faulty run call s op r s')
    (hop : ∀ op', op = .session op' → ¬ op'.Rotates) (hreset : s'.Reset run') : s.Reset run' := by
  obtain ⟨t, id, hmem⟩ := hreset
  exact ⟨t, id, h.runner.generated_mem hop hmem⟩

theorem PromptStep.events_of_not_collect (h : PromptStep faulty run call s op r s')
    (hop : ∀ execId, op ≠ .collectExecOutput execId) : s'.2.events = s.2.events := by
  cases h with
  | created | notCreated | other => rfl
  | notStarted | missing | ran => exact absurd rfl (hop _)

theorem PromptStep.careful_of_quiet (h : PromptStep faulty run call s op r s') (hop : op.Quiet)
    (hs : s.Careful n run) : s'.Careful n run := by
  have hevents : s'.2.events = s.2.events := by
    refine h.events_of_not_collect ?_
    rintro execId rfl
    exact hop
  intro hmis
  simp only [PromptLog.Misread, hevents] at hmis
  obtain ⟨hruns, hmissing⟩ := hs hmis
  refine ⟨?_, fun hreset => hevents ▸ hmissing (h.reset hop.not_rotates hreset)⟩
  rw [PromptLog.runs, hevents]
  exact hruns

theorem PromptStep.mayReset_of_session {op : SessionOp} {r : op.Result}
    (h : PromptStep faulty run call s (.session op) r s') (hs : s.MayReset run) :
    s'.MayReset run := by
  have hevents : s'.2.events = s.2.events := h.events_of_not_collect nofun
  simpa only [PromptState.MayReset, PromptLog.Misread, PromptLog.runs, hevents] using hs

theorem PromptStep.ok (h : PromptStep faulty run call s op r s') (hi : s.Ok)
    (hs : s'.Careful 1 run) : s'.Ok := by
  intro run'
  by_cases hne : run' = run
  · exact hne ▸ hs
  · exact (h.rely hne).careful (hi run')

theorem resumes_buildClaudeCommand (prompt systemPrompt claudeSessionId : String) (isNew : Bool) :
    resumes (buildClaudeCommand prompt systemPrompt claudeSessionId isNew) = !isNew := by
  cases isNew <;> rfl

theorem PromptLog.runs_missing (l : PromptLog) :
    (l.record (.missing run)).runs run = l.runs run := by
  simp [runs, record, PromptEvent.isRan]

theorem PromptLog.runs_ran (l : PromptLog) (resumed : Bool) (output : Option (String × String)) :
    (l.record (.ran run resumed output)).runs run = l.runs run + 1 := by
  simp [runs, record, PromptEvent.isRan, PromptEvent.run]

theorem PromptLog.Misread.record {l : PromptLog} (h : l.Misread run) (event : PromptEvent) :
    (l.record event).Misread run := by
  obtain ⟨earlier, hmem, hmis⟩ := h
  exact ⟨earlier, List.mem_cons_of_mem _ hmem, hmis⟩

/-- The output of the first execution is collected. -/
theorem PromptStep.collect {execId : String} {command : List String}
    {r : Except String (String × String × ℤ)}
    (h : PromptStep faulty run call s (.collectExecOutput execId) r s')
    (hexec : s.2.commands.lookup execId = some command) (hs : s.Careful 0 run) :
    s'.Careful 1 run ∧ ∀ stdout stderr exitCode, r = .ok (stdout, stderr, exitCode) →
      s'.MayReset run ∨ .ran run (resumes command) (some (stdout, stderr)) ∈ s'.2.events := by
  have hreset : s'.Reset run → s.Reset run := h.reset nofun
  cases h with
  | notStarted => exact ⟨fun hmis => ⟨(hs hmis).runs.trans (Nat.zero_le 1),
      fun hr => (hs hmis).missing (hreset hr)⟩, nofun⟩
  | @missing _ s' l =>
    have hmay : PromptState.MayReset run (s', l.record (.missing run)) := by
      intro hmis
      have hruns := (hs fun hm => hmis (hm.record _)).runs
      exact ⟨l.runs_missing.trans (Nat.le_zero.mp hruns), List.mem_cons_self⟩
    exact ⟨hmay.careful, fun _ _ _ _ => .inl hmay⟩
  | ran hexec' =>
    obtain rfl := Option.some.inj (hexec.symm.trans hexec')
    refine ⟨fun hmis => ?_, fun stdout stderr exitCode hr => .inr ?_⟩
    · obtain ⟨hruns, hmissing⟩ := hs fun hm => hmis (hm.record _)
      refine ⟨?_, fun hr => List.mem_cons_of_mem _ (hmissing (hreset hr))⟩
      rw [PromptLog.runs_ran]
      exact Nat.succ_le_succ hruns
    · subst hr
      exact List.mem_cons_self
  | other _ hcollect => exact absurd rfl (hcollect execId)

end Steps

section Runs

abbrev SafePrompt (faulty : Prop) (run : ℕ) (call : RunCall) {α : Type} (p : ExecM α)
    (Q : α → PromptState → Prop) (s : PromptState) : Prop :=
  Safe (PromptStep faulty run call) PromptState.Ok (PromptState.Rely run) p Q (fun _ _ => True) s

variable {faulty : Prop} {n run : ℕ} {call : RunCall} {s : PromptState} {request : RunRequest}

open PromptState

theorem only_loadRuntimeSession (request : RunRequest) :
    Only (fun op => ¬ op.Rotates) (loadRuntimeSession request) := by
  have hcreate : Only (fun op => ¬ op.Rotates)
      (getOrCreateConversationSession request.identity) :=
    only_getOrCreateByKey id id (fun _ => id) (fun _ _ => id) (fun _ _ => id) _ _ _
  unfold loadRuntimeSession withExternalSession
  split_ifs
  · exact hcreate
  · exact (only_validate (fun _ => id) (fun _ => id) _ _).bind fun _ => hcreate.bind fun _ =>
      (only_bindExternalSessionId (fun _ => id) (fun _ => id) (fun _ _ => id) _ _).bind
        fun _ => trivial

theorem only_mapErr {α : Type} {A : ExecOp → Prop} (errorCode : String) (r : Except String α) :
    Only A (mapErr errorCode r) := by
  cases r <;> trivial

theorem careful_quiet {α : Type} {p : ExecM α} (hp : Only ExecOp.Quiet p) (h : s.Careful 0 run) :
    SafePrompt faulty run call p (fun _ s => s.Careful 0 run) s := by
  refine (Safe.of_only hp ?_ (fun _ _ hr => hr.careful) h).mono (fun _ _ hQ => hQ)
    fun _ _ _ => trivial
  intro s op r s' hop hst hi hs
  have hs' := hst.careful_of_quiet hop hs
  exact ⟨hst.ok hi (hs'.mono (Nat.zero_le 1)), hs'⟩

theorem safe_quiet {α : Type} {p : ExecM α} (hp : Only ExecOp.Quiet p) (s : PromptState) :
    SafePrompt faulty run call p (fun _ _ => True) s :=
  Safe.of_only (F := fun _ => True) hp (fun _ _ _ _ hop hst hi _ =>
    ⟨hst.ok hi (hst.careful_of_quiet hop (hi run)), trivial⟩) (fun _ _ _ _ => trivial) trivial

theorem careful_load (h : s.Careful 0 run) :
    SafePrompt faulty run call (runStore (loadRuntimeSession request))
      (fun _ s => s.Careful 0 run) s := by
  refine careful_quiet (Only.hoist ?_ (only_loadRuntimeSession request)) h
  exact fun _ hop => hop

theorem careful_collect {execId : String} {session : SessionRecord} {command : List String}
    (hcommand : resumes command = !session.isNew)
    (hexec : s.2.commands.lookup execId = some command) (h : s.Careful 0 run) :
    SafePrompt faulty run call (.call (.collectExecOutput execId) (mapErr "exec_failed"))
      (fun output s => ∀ response : RunResponse, response.stdout = output.1 →
        response.stderr = output.2.1 → s.Collected run session.isNew response) s := by
  intro s₁ hs₁ hi r s₂ hst
  obtain ⟨hcareful, hcollected⟩ := hst.collect (hs₁.commands _ _ hexec) (hs₁.careful h)
  refine ⟨hst.ok hi hcareful, ?_⟩
  cases r with
  | error message => exact fun _ _ => trivial
  | ok output =>
    rintro s₃ hs₃ ⟨status, stdout, stderr, exitCode, timedOut, durationMs⟩ rfl rfl
    have hs₂ := hcollected _ _ _ rfl
    rw [hcommand] at hs₂
    exact hs₃.collected hs₂

theorem careful_executeOnce (runner : DockerRunner) (validated : ValidatedRunRequest)
    (session : SessionRecord) (h : s.Careful 0 run) :
    SafePrompt faulty run call (runner.executeOnce request validated session)
      (fun response s => s.Collected run session.isNew response) s := by
  refine Safe.seq (Q := fun _ s => s.Careful 0 run) (Rely.refl run) ?_ ?_
  · exact careful_quiet ⟨trivial, fun _ => only_mapErr _ _⟩ h
  intro token s₁ h
  apply Safe.bind (Rely.refl run)
  intro s₂ hs₂ hi r s₃ hst
  have h₃ := hst.careful_of_quiet trivial (hs₂.careful h)
  refine ⟨hst.ok hi (h₃.mono (Nat.zero_le 1)), ?_⟩
  cases hst with
  | notCreated => exact fun _ _ => trivial
  | created =>
    intro s₄ hs₄
    have hexec := hs₄.commands _ _ List.lookup_cons_self
    apply Safe.seq (Rely.refl run)
      (careful_collect (resumes_buildClaudeCommand _ _ _ _) hexec (hs₄.careful h₃))
    intro output s₅ houtput s₆ hs₆
    exact hs₆.collected (houtput _ rfl rfl)
  | other hcreate => exact absurd rfl (hcreate _ _ _ _)

theorem careful_reset (h : s.MayReset run) :
    SafePrompt faulty run call (runStore (resetRuntimeSession request))
      (fun _ s => s.MayReset run) s := by
  have honly : Only (fun op => ∃ op', op = ExecOp.session op')
      (runStore (resetRuntimeSession request)) :=
    Only.hoist (A := fun _ => True) (fun op _ => ⟨op, rfl⟩) (only_true _)
  refine (Safe.of_only honly ?_ (fun _ _ hr => hr.mayReset) h).mono (fun _ _ hQ => hQ)
    fun _ _ _ => trivial
  rintro s _ r s' ⟨op, rfl⟩ hst hi hs
  have hs' := hst.mayReset_of_session hs
  exact ⟨hst.ok hi hs'.careful, hs'⟩

/-- Nothing was done under the number of the run. -/
structure Untouched (run : ℕ) (s : PromptState) : Prop where
  log : ∀ event ∈ s.1.log, event.run ≠ run
  events : ∀ event ∈ s.2.events, event.run ≠ run

theorem Untouched.careful (h : Untouched run s) : s.Careful 0 run := by
  refine fun _ => ⟨?_, ?_⟩
  · rw [PromptLog.runs, Nat.le_zero, List.countP_eq_zero]
    intro event hmem
    simp [h.events event hmem]
  · rintro ⟨t, id, hmem⟩
    exact absurd rfl (h.log _ hmem)

theorem Untouched.rely {s' : PromptState} (h : Untouched run s) (hr : Rely run s s') :
    Untouched run s' := by
  constructor
  · intro event hmem he
    exact h.log event ((mem_iff_of_filter_own_eq hr.log (decide_eq_true he)).mp hmem) he
  · exact fun event hmem he => h.events event ((hr.mem_events_iff he).mp hmem) he

/-- A run of the prompt is safe if nothing was done under its number before. -/
theorem careful_execute (runner : DockerRunner) (h : Untouched run s) :
    SafePrompt faulty run call (runner.execute call.request call.validated) (fun _ _ => True)
      s := by
  apply Safe.seq (Rely.refl run) (careful_load h.careful)
  intro session s₁ h
  refine Safe.seq (Q := fun _ s => s.Careful 0 run) (Rely.refl run) ?_ ?_
  · exact careful_quiet ⟨trivial, fun _ => only_mapErr _ _⟩ h
  intro _ s₂ h
  refine Safe.seq (Q := fun _ s => s.Careful 0 run) (Rely.refl run) ?_ ?_
  · exact careful_quiet ⟨trivial, fun _ => trivial⟩ h
  intro started s₃ h
  apply Safe.seq (Rely.refl run) (careful_executeOnce runner call.validated session h)
  intro first s₄ hcollected
  split_ifs with hretry
  · apply Safe.seq (Rely.refl run) (careful_reset (hcollected.mayReset hretry))
    intro resetSession s₅ hmay
    apply Safe.seq (Rely.refl run)
      (careful_executeOnce runner call.validated resetSession hmay.careful)
    rintro retried s₆ -
    refine safe_quiet ?_ s₆
    exact ⟨trivial, fun _ => trivial⟩
  · refine safe_quiet ?_ s₄
    exact ⟨trivial, fun _ => trivial⟩

end Runs

abbrev PromptPool := Pool RunCall ExecOp ExecOp.Result ErrorResponse RunResponse PromptState

/-- The steps of a pool of runs, with what Claude does. -/
abbrev DockerRunner.PromptPoolStep (runner : DockerRunner) (faulty : Prop) :
    PromptPool → PromptPool → Prop :=
  Pool.Step runner.start (PromptStep faulty) (Pool.GhostEnv ProcessExit)

def PromptPool.init : PromptPool := ⟨.empty, []⟩

theorem ProcessExit.promptRely {s s' : PromptState} (h : Pool.GhostEnv ProcessExit s s')
    (run : ℕ) : PromptState.Rely run s s' := by
  obtain ⟨hexit, hlog⟩ := h
  exact ⟨(hexit.rely run).own, by rw [hlog], fun _ _ hc => hlog ▸ hc⟩

theorem DockerRunner.promptGuarded (runner : DockerRunner) (faulty : Prop) :
    Pool.Guarded runner.start (PromptStep faulty) (Pool.GhostEnv ProcessExit) PromptState.Ok
      PromptState.Rely Untouched (fun _ _ _ _ => True) (fun _ _ _ _ => True) where
  refl := PromptState.Rely.refl
  trans _ _ _ _ h h' := h.trans h'
  rely _ _ _ _ _ _ _ hne hst := hst.rely hne
  env_inv _ _ he hi run := (ProcessExit.promptRely he run).careful (hi run)
  env_rely run _ _ he := ProcessExit.promptRely he run
  unused _ _ _ h hr := h.rely hr
  safe _ _ _ h _ := careful_execute runner h

theorem untouched_empty (run : ℕ) : Untouched run .empty := by
  constructor
  · intro event hmem
    cases hmem
  · intro event hmem
    cases hmem

/-- A database and a container without faults, in which every execution prints the same, and Claude
finds either every session or none. -/
def PromptState.handle (finds : Bool) (stdout : String) (run : ℕ) (call : RunCall)
    (s : PromptState) : (op : ExecOp) → op.Result × PromptState
  | .createClaudeExec containerName cwd command env =>
    let s₁ := (s.1.handle run call stdout (.createClaudeExec containerName cwd command env)).2
    let execId := freshId (s.2.commands.map Prod.fst)
    (.ok execId, (s₁, s.2.create execId command))
  | .collectExecOutput execId =>
    match s.2.commands.lookup execId with
    | none => (.error "No such exec instance", s)
    | some command =>
      let s₁ := (s.1.handle run call stdout (.collectExecOutput execId)).2
      let event := if resumes command && !finds then .missing run
        else .ran run (resumes command) (some (stdout, ""))
      (.ok (stdout, "", 0), (s₁, s.2.record event))
  | .session op =>
    let (r, s₁) := s.1.handle run call stdout (.session op)
    (r, (s₁, s.2))
  | .ensureContainerRunning containerName =>
    let (r, s₁) := s.1.handle run call stdout (.ensureContainerRunning containerName)
    (r, (s₁, s.2))
  | .createReadGrants grants =>
    let (r, s₁) := s.1.handle run call stdout (.createReadGrants grants)
    (r, (s₁, s.2))
  | .instantNow =>
    let (r, s₁) := s.1.handle run call stdout .instantNow
    (r, (s₁, s.2))

theorem PromptLog.lookup_freshId (l : PromptLog) :
    l.commands.lookup (freshId (l.commands.map Prod.fst)) = none := by
  rw [List.lookup_eq_none_iff]
  intro entry hmem
  rw [bne_iff_ne]
  intro he
  exact freshId_notMem (l.commands.map Prod.fst) (he ▸ List.mem_map_of_mem hmem)

theorem PromptState.step_handle (faulty : Prop) (finds : Bool) (stdout : String) (run : ℕ)
    (call : RunCall) (s : PromptState) (op : ExecOp) :
    PromptStep faulty run call s op (s.handle finds stdout run call op).1
      (s.handle finds stdout run call op).2 := by
  have hrunner := s.1.step_handle faulty run call stdout op
  cases op with
  | createClaudeExec containerName cwd command env => exact .created s.2.lookup_freshId .executed
  | collectExecOutput execId =>
    simp only [handle]
    cases hc : s.2.commands.lookup execId with
    | none => exact .notStarted .notCollected
    | some command =>
      dsimp only
      split_ifs with hmissing
      · exact .missing hc (Bool.and_eq_true_iff.mp hmissing).1 .collected
      · exact .ran hc .collected
  | session op => exact .other nofun nofun hrunner
  | ensureContainerRunning => exact .other nofun nofun hrunner
  | createReadGrants => exact .other nofun nofun hrunner
  | instantNow => exact .other nofun nofun hrunner

def PromptState.evalRun (s : PromptState) (runner : DockerRunner) (finds : Bool) (stdout : String)
    (run : ℕ) (call : RunCall) : PromptState :=
  ((runner.start call).eval (fun s => s.handle finds stdout run call) s).2

theorem reachable_evalRun (runner : DockerRunner) (finds : Bool) (stdout : String)
    (call : RunCall) : ∃ P : PromptPool, Reachable (runner.PromptPoolStep False) .init P ∧
      P.shared = (PromptState.evalRun .empty runner finds stdout 0 call).evalRun runner finds
        stdout 1 call := by
  have hspawn : Reachable (runner.PromptPoolStep False) .init
      ⟨.empty, [(call, runner.start call)]⟩ := Reachable.refl.tail (.spawn call)
  have hfirst := Pool.reachable_of_runs
    (runs_eval (PromptState.step_handle False finds stdout 0 call) _ _) hspawn rfl rfl
  have hsecond := Pool.reachable_of_runs
    (runs_eval (PromptState.step_handle False finds stdout 1 call) _ _)
    (hfirst.tail (.spawn call)) rfl rfl
  exact ⟨_, hsecond, rfl⟩

/-- In every interleaving of any number of runs, whatever fails and whatever Claude prints: a run
whose output is not misread executes its prompt at most once, and resets its session only if Claude
did not find the session that it was to resume. -/
theorem prompt_executed_at_most_once (runner : DockerRunner) (faulty : Prop) (P : PromptPool)
    (h : Reachable (runner.PromptPoolStep faulty) .init P) (run : ℕ)
    (hread : ¬ P.shared.2.Misread run) : P.shared.AtMost 1 run := by
  have hempty : PromptState.Ok .empty := fun run =>
    (untouched_empty run).careful.mono (Nat.zero_le 1)
  exact ((runner.promptGuarded faulty).reachable hempty untouched_empty h).shared run hread

/-- A retried run: Claude does not find the session of the first run, and runs the prompt in a new
one. -/
theorem prompt_executed_at_most_once_retry :
    let runner : DockerRunner := ⟨"claude", ⟨none, none, 1800, []⟩⟩
    ∃ P : PromptPool, Reachable (runner.PromptPoolStep False) .init P ∧
      .missing 1 ∈ P.shared.2.events ∧ P.shared.2.runs 1 = 1 ∧ P.shared.AtMost 1 1 := by
  intro runner
  obtain ⟨P, hP, hshared⟩ := reachable_evalRun runner false
    "No conversation found with session ID: 1" privateCall
  have hlog : .missing 1 ∈ P.shared.2.events ∧ P.shared.2.runs 1 = 1 ∧
      ¬ P.shared.2.Misread 1 := by
    rw [hshared]
    decide +kernel
  exact ⟨P, hP, hlog.1, hlog.2.1, prompt_executed_at_most_once runner False P hP 1 hlog.2.2⟩

/-- The second run resumes the session of the first one and runs its prompt, which Claude answers
with the message of a missing session: the session is reset, and the prompt is run again. -/
theorem prompt_executed_twice :
    let runner : DockerRunner := ⟨"claude", ⟨none, none, 1800, []⟩⟩
    ∃ P : PromptPool, Reachable (runner.PromptPoolStep False) .init P ∧
      P.shared.2.runs 1 = 2 ∧ P.shared.Reset 1 ∧ .missing 1 ∉ P.shared.2.events ∧
      ¬ P.shared.AtMost 1 1 := by
  intro runner
  obtain ⟨P, hP, hshared⟩ := reachable_evalRun runner true
    "The log says: No conversation found with session ID: 1" privateCall
  have hlog : P.shared.2.runs 1 = 2 ∧
      .generated 1 true privateCall.request.identity "u" ∈ P.shared.1.log ∧
      .missing 1 ∉ P.shared.2.events := by
    rw [hshared]
    decide +kernel
  refine ⟨P, hP, hlog.1, ⟨_, _, hlog.2.1⟩, hlog.2.2, fun h => ?_⟩
  exact absurd h.runs (by rw [hlog.1]; decide)

end DogBot
