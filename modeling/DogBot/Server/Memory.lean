import DogBot.Exec.Current
import DogBot.Server.Exclusivity

/-! # The memory of a conversation

As long as no direct run overlaps another run of its conversation, all runs of
a conversation, from both paths and in every interleaving with those of other
conversations, continue one Claude session: each execution has the session id
that was generated last for the conversation.
-/

namespace DogBot

open Program SessionStore RunnerState

variable {runner : DockerRunner} {faulty : Prop} {m d : ℕ} {s s' : ServerState}
  {event : ServerEvent} {call : RunCall} {taskId : Option String}

namespace ServerState

/-- The step does not make a direct run overlap another run of its conversation. -/
def Separate (s : ServerState) : ServerEvent → Prop
  | .enter task =>
    ∀ run ∈ s.active, run.taskId = none → run.conversation ≠ task.request.conversation
  | .direct request => ∀ run ∈ s.active, run.conversation ≠
      (Text.trim request.platformAccountId, Text.trim request.conversationId)
  | _ => True

/-- The runs in progress are of different conversations. -/
structure Apart (s : ServerState) : Prop where
  world : ∃ r, s.world.Inv r
  keyed : s.world.Keyed
  tracked : s.Tracked
  conversations : (s.active.map ActiveRun.conversation).Nodup

theorem apart_init (m d : ℕ) : (init m d).Apart where
  world := ⟨_, RunWorld.inv_new m d⟩
  keyed := RunWorld.keyed_new m d
  tracked := (inv_init ⟨"", ⟨none, none, 0, []⟩⟩ False m d).tracked
  conversations := List.nodup_nil

theorem Apart.free (h : s.Apart) {task : ScheduledRun} (hlive : task ∈ s.world.live)
    (hnew : task.taskId ∉ s.entered)
    (hdirect : ∀ run ∈ s.active, run.taskId = none → run.conversation ≠ task.request.conversation) :
    ∀ run ∈ s.active, run.conversation ≠ task.request.conversation := by
  intro run hrun heq
  cases hid : run.taskId with
  | none => exact hdirect run hrun hid heq
  | some id =>
    obtain ⟨hentered, task', hlive', rfl, hrequest⟩ := h.tracked.scheduled run hrun id hid
    obtain ⟨r, hr⟩ := h.world
    have hfly := List.mem_append_left s.world.handedOut hlive
    have hfly' := List.mem_append_left s.world.handedOut hlive'
    have hkeys : task'.summary.conversationKey = task.summary.conversationKey := by
      rw [h.keyed.inFlight task hfly, h.keyed.inFlight task' hfly']
      exact conversationKeyForRequest_congr (hrequest ▸ heq)
    obtain rfl : task' = task := List.inj_on_of_nodup_map hr.conserved.exclusive hfly' hfly hkeys
    exact hnew hentered

theorem Apart.conversations_callRunner (h : s.Apart)
    (hfree : ∀ run ∈ s.active, run.conversation ≠ call.request.conversation) :
    ((s.callRunner runner taskId call).active.map ActiveRun.conversation).Nodup := by
  have hnew : call.request.conversation ∉ s.active.map ActiveRun.conversation := by
    intro hmem
    obtain ⟨run, hrun, heq⟩ := List.mem_map.mp hmem
    exact hfree run hrun heq
  rw [ServerState.conversations_callRunner, ← List.concat_eq_append]
  exact h.conversations.concat hnew

theorem Apart.step (h : s.Apart) (hst : ServerStep runner faulty s event s')
    (hseparate : s.Separate event) : s'.Apart := by
  refine ⟨?_, ?_, h.tracked.step hst, ?_⟩
  · rcases hst.world with heq | ⟨i, hi, heq⟩
    · exact heq ▸ h.world
    · obtain ⟨r, hr⟩ := h.world
      obtain ⟨r', hr', -⟩ := RunWorld.inv_step i hr hi
      exact heq ▸ ⟨r', hr'⟩
  · rcases hst.world with heq | ⟨i, hi, heq⟩
    · exact heq ▸ h.keyed
    · exact heq ▸ h.keyed.step hi
  · cases hst with
    | submit | spawn | finish | work | exit => exact h.conversations
    | enter hlive hnew => exact h.conversations_callRunner (h.free hlive hnew hseparate)
    | direct hcall =>
      refine h.conversations_callRunner ?_
      rw [Server.run_conversation hcall]
      exact hseparate
    | returned | dropped => exact h.conversations.sublist (List.filter_sublist.map _)

/-- The function gives the identities of the threads. -/
def Names (s : ServerState) (ident : ℕ → SessionIdentity) : Prop :=
  ∀ (i : ℕ) (call : RunCall), (s.pool.threads[i]?).map Prod.fst = some call →
    ident i = call.request.identity

/-- The runs in progress keep the sessions settled. -/
structure Remembers (faulty : Prop) (s : ServerState) : Prop where
  apart : s.Apart
  settled : ∀ ident, s.Names ident → Settled ident s.pool.shared
  safe : ∀ ident, s.Names ident → ∀ run ∈ s.active, ∀ p,
    s.pool.threads[run.thread]? = some (run.call, p) →
      SettledRun faulty run.thread run.call ident p (fun _ _ => True) s.pool.shared

theorem remembers_init (m d : ℕ) : (init m d).Remembers faulty where
  apart := apart_init m d
  settled ident _ := settled_empty ident
  safe _ _ _ hrun := absurd hrun List.not_mem_nil

theorem Names.before {ident : ℕ → SessionIdentity} (h : s'.Names ident)
    (hst : ServerStep runner faulty s event s') : s.Names ident :=
  fun i call hi => h i call (hst.argument hi)

theorem Apart.ident_ne {ident : ℕ → SessionIdentity} (h : s.Apart) (hnames : s.Names ident)
    {run run' : ActiveRun} (hrun : run ∈ s.active) (hrun' : run' ∈ s.active) (hne : run' ≠ run) :
    ident run'.thread ≠ ident run.thread := by
  rw [hnames _ _ (h.tracked.calls run hrun), hnames _ _ (h.tracked.calls run' hrun')]
  intro heq
  refine hne (List.inj_on_of_nodup_map h.conversations hrun' hrun ?_)
  exact congrArg (fun t => (t.platformAccount, t.conversationId)) heq

theorem Remembers.callRunner (h : s.Remembers faulty) (happart : (s.callRunner runner taskId call).Apart)
    (hbefore : ∀ ident, (s.callRunner runner taskId call).Names ident → s.Names ident) :
    (s.callRunner runner taskId call).Remembers faulty := by
  refine ⟨happart, fun ident hnames => h.settled ident (hbefore ident hnames), ?_⟩
  intro ident hnames run hrun p hp
  rcases List.mem_append.mp hrun with hrun | hrun
  · refine h.safe ident (hbefore ident hnames) run hrun p ?_
    obtain ⟨thread, hthread, -⟩ := Option.map_eq_some_iff.mp (h.apart.tracked.calls run hrun)
    rw [ServerState.callRunner, List.getElem?_append_left (List.getElem?_eq_some_iff.mp hthread).1]
      at hp
    exact hp
  · obtain rfl := List.mem_singleton.mp hrun
    have hident : ident s.pool.threads.length = call.request.identity := by
      refine hnames _ _ ?_
      rw [hp]
      rfl
    rw [ServerState.callRunner, List.getElem?_concat_length] at hp
    obtain ⟨-, rfl⟩ := Prod.mk.inj (Option.some.inj hp)
    exact settled_execute hident runner _

theorem Remembers.work (h : s.Remembers faulty) {run : ActiveRun} {op : ExecOp}
    {next : op.Result → ExecM RunResponse} {r : op.Result} {shared : RunnerState}
    (hrun : run ∈ s.active) (hi : s.pool.threads[run.thread]? = some (run.call, .call op next))
    (hs : RunnerStep faulty run.thread run.call s.pool.shared op r shared)
    (happart : Apart { s with
      pool := ⟨shared, s.pool.threads.set run.thread (run.call, next r)⟩ })
    (hbefore : ∀ ident, Names { s with
      pool := ⟨shared, s.pool.threads.set run.thread (run.call, next r)⟩ } ident → s.Names ident) :
    Remembers faulty { s with
      pool := ⟨shared, s.pool.threads.set run.thread (run.call, next r)⟩ } := by
  have hstep : ∀ ident, s.Names ident → Settled ident shared ∧
      SettledRun faulty run.thread run.call ident (next r) (fun _ _ => True) shared :=
    fun ident hnames => h.safe ident hnames run hrun _ hi _ (Alone.refl _ _ _)
      (h.settled ident hnames) r shared hs
  refine ⟨happart, fun ident hnames => (hstep ident (hbefore ident hnames)).1, ?_⟩
  intro ident hnames run' hrun' p hp
  have hnames' := hbefore ident hnames
  obtain ⟨hsettled, hnext⟩ := hstep ident hnames'
  rcases Pool.thread_set hi hp with ⟨hthread, heq⟩ | ⟨hthread, hold⟩
  · obtain rfl : run' = run :=
      List.inj_on_of_nodup_map h.apart.tracked.threads hrun' hrun hthread
    obtain ⟨-, rfl⟩ := Prod.mk.inj heq
    exact hnext
  · have hne : run ≠ run' := by
      rintro rfl
      exact hthread rfl
    refine (h.safe ident hnames' run' hrun' p hold).stable (fun _ _ _ => Alone.trans) ?_
    exact hs.alone hsettled (h.apart.ident_ne hnames' hrun' hrun hne)

theorem Remembers.step (h : s.Remembers faulty) (hst : ServerStep runner faulty s event s')
    (hseparate : s.Separate event) : s'.Remembers faulty := by
  have happart := h.apart.step hst hseparate
  have hbefore : ∀ ident, s'.Names ident → s.Names ident := fun _ hnames => hnames.before hst
  cases hst with
  | submit | spawn | finish => exact ⟨happart, h.settled, h.safe⟩
  | enter | direct => exact h.callRunner happart hbefore
  | work hrun hi hs => exact h.work hrun hi hs happart hbefore
  | exit hexit =>
    cases hexit with
    | exit i =>
      refine ⟨happart, fun ident hnames => (h.settled ident hnames).processes _, ?_⟩
      intro ident hnames run hrun p hp
      refine (h.safe ident hnames run hrun p hp).stable (fun _ _ _ => Alone.trans) ?_
      exact ⟨⟨List.suffix_rfl, fun _ _ ho => ho⟩, rfl⟩
  | returned | dropped =>
    refine ⟨happart, h.settled, fun ident hnames run hrun p hp => ?_⟩
    exact h.safe ident hnames run (List.mem_of_mem_filter hrun) p hp

theorem remembers_of_trace {events : List ServerEvent}
    (h : Trace (fun s event s' => ServerStep runner faulty s event s' ∧ s.Separate event)
      (.init m d) events s) : s.Remembers faulty := by
  refine h.invariant (I := fun _ s => s.Remembers faulty) (remembers_init m d) ?_
  rintro _ _ event _ hs ⟨hst, hseparate⟩
  exact hs.step hst hseparate

/-- The function that gives the identities of the threads. -/
def ident (s : ServerState) (i : ℕ) : SessionIdentity :=
  match s.pool.threads[i]? with
  | some (call, _) => call.request.identity
  | none => ⟨"", "", ""⟩

theorem names_ident (s : ServerState) : s.Names s.ident := by
  intro i call hi
  obtain ⟨⟨_, p⟩, hthread, rfl⟩ := Option.map_eq_some_iff.mp hi
  rw [ident, hthread]

end ServerState

/-- How the executions of the conversations follow each other. -/
structure KeepsOneSession (log : List RunnerEvent) : Prop where
  current : ∀ later earlier run t command, log = later ++ .exec run t command :: earlier →
    ∃ isNew id, ClaudeCommand command isNew id ∧ lastGenerated t earlier = some id
  /-- Between two resets, a conversation is executed with one session. -/
  shared : ∀ later between earlier run run' t command command',
    log = later ++ .exec run t command :: (between ++ .exec run' t command' :: earlier) →
    (∀ run reset id, .generated run reset t id ∉ between) → SharesSession command command'

theorem CurrentLog.keepsOneSession {log : List RunnerEvent} (h : CurrentLog log) :
    KeepsOneSession log := by
  constructor
  · rintro later earlier run t command rfl
    exact h.of_append.1
  · rintro later between earlier run run' t command command' rfl hbetween
    obtain ⟨⟨isNew, id, hcommand, hlast⟩, hrest⟩ := h.of_append
    obtain ⟨isNew', id', hcommand', hlast'⟩ := hrest.of_append.1
    have hnone : ∀ run reset id,
        .generated run reset t id ∉ between ++ [.exec run' t command'] := by
      intro run reset id hmem
      rcases List.mem_append.mp hmem with hmem | hmem
      · exact hbetween run reset id hmem
      · cases List.mem_singleton.mp hmem
    rw [List.append_cons, lastGenerated_append hnone, hlast'] at hlast
    obtain rfl := Option.some.inj hlast
    exact ⟨isNew, isNew', id', hcommand, hcommand'⟩

/-- In every run of the server in which direct runs do not overlap the other runs of their
conversations, whatever else happens: each execution has the session id that was generated last for
its conversation, and the session is the same until it is reset. -/
theorem conversations_keep_one_session (runner : DockerRunner) (faulty : Prop)
    (maxConcurrentRuns maxQueueDepth : ℕ) (events : List ServerEvent) (s : ServerState)
    (h : Trace (fun s event s' => ServerStep runner faulty s event s' ∧ s.Separate event)
      (.init maxConcurrentRuns maxQueueDepth) events s) : KeepsOneSession s.pool.shared.log :=
  ((ServerState.remembers_of_trace h).settled s.ident s.names_ident).current.keepsOneSession

section Example

theorem ServerState.trace_of_runs {run : ActiveRun} {p : ExecM RunResponse}
    {o : Except ErrorResponse RunResponse} {shared shared' : RunnerState} {init : ServerState}
    {events : List ServerEvent}
    (hruns : Runs (RunnerStep faulty run.thread run.call) p shared o shared')
    (h : Trace (fun s event s' => ServerStep runner faulty s event s' ∧ s.Separate event)
      init events s) (hshared : s.pool.shared = shared) (hrun : run ∈ s.active)
    (hi : s.pool.threads[run.thread]? = some (run.call, p)) :
    ∃ events s', Trace (fun s event s' => ServerStep runner faulty s event s' ∧ s.Separate event)
      init events s' ∧ s'.pool.shared = shared' ∧ s'.active = s.active ∧
        s'.pool.threads[run.thread]? = some (run.call, ofExcept o) ∧
        s'.pool.threads.length = s.pool.threads.length := by
  induction hruns generalizing s events with
  | ret a shared => exact ⟨events, s, h, hshared, rfl, hi, rfl⟩
  | fail e shared => exact ⟨events, s, h, hshared, rfl, hi, rfl⟩
  | call hst _ ih =>
    subst hshared
    obtain ⟨events', s', htrace, hshared', hactive, hthread, hlength⟩ :=
      ih (h.snoc ⟨.work hrun hi hst, trivial⟩) rfl hrun
        (List.getElem?_set_self (List.getElem?_eq_some_iff.mp hi).1)
    exact ⟨events', s', htrace, hshared', hactive, hthread, hlength.trans List.length_set⟩

theorem ServerState.trace_first (runner : DockerRunner) (call : RunCall) : ∃ events s,
    Trace (fun s event s' => ServerStep runner False s event s' ∧ s.Separate event)
      (.init 10 20) events s ∧ s.pool.shared = .empty ∧
        s.active = [⟨0, some "task-1", call⟩] ∧ s.pool.threads = [(call, runner.start call)] := by
  have hlive : ScheduledRun.new "task-1" (plainEvent "qq:private:1") call.request call.validated ∈
      (((RunWorld.new 10 20).step (.submit "task-1" (plainEvent "qq:private:1") call.request
        call.validated)).step (.spawn 0)).live := List.mem_singleton.mpr rfl
  refine ⟨_, _, (((Trace.nil _).snoc ⟨.submit ?_, trivial⟩).snoc ⟨.spawn ?_, trivial⟩).snoc
    ⟨.enter hlive List.not_mem_nil, fun _ hrun => absurd hrun List.not_mem_nil⟩, rfl, rfl, rfl⟩
  · exact List.not_mem_nil
  · exact Nat.zero_lt_one

/-- A task and, after it, a direct run of its conversation. Claude does not find the session that
the second run resumes, so that it is reset. -/
theorem conversations_keep_one_session_twice :
    let runner : DockerRunner := ⟨"claude", ⟨none, none, 1800, []⟩⟩
    ∃ events s, Trace (fun s event s' => ServerStep runner False s event s' ∧ s.Separate event)
        (.init 10 20) events s ∧
      (executions 0 s.pool.shared.log).length = 1 ∧
      (executions 1 s.pool.shared.log).length = 2 ∧
      KeepsOneSession s.pool.shared.log := by
  intro runner
  let first : RunCall :=
    ⟨plainRequest "qq:private:1", { cwd := "/workspace", prompt := "hello", systemPrompt := "" }⟩
  obtain ⟨second, hsecond, honce, htwice⟩ :
      ∃ second, Server.run (plainRequest "qq:private:1") = .ok second ∧
        (executions 0 ((RunnerState.evalRun .empty runner 0 first).evalRun runner 1
          second).log).length = 1 ∧
        (executions 1 ((RunnerState.evalRun .empty runner 0 first).evalRun runner 1
          second).log).length = 2 :=
    ⟨_, rfl, by decide +kernel, by decide +kernel⟩
  have hended : ∀ o : Except ErrorResponse RunResponse, (ofExcept o : ExecM RunResponse).Ended := by
    rintro (e | a) <;> trivial
  have hruns : ∀ (i : ℕ) (call : RunCall) (shared : RunnerState), Runs (RunnerStep False i call)
      (runner.start call) shared _ (shared.evalRun runner i call) :=
    fun i call shared => runs_eval (RunnerState.step_handle False i call
      "No conversation found with session ID: 1") _ _
  obtain ⟨events₀, s₀, h₀, hshared₀, hactive₀, hthreads₀⟩ := ServerState.trace_first runner first
  obtain ⟨events₁, s₁, h₁, hshared₁, hactive₁, hthread₁, hlength₁⟩ :=
    ServerState.trace_of_runs (hruns 0 first .empty) h₀ hshared₀
      (hactive₀ ▸ List.mem_singleton_self _) (by rw [hthreads₀]; rfl)
  have hrun₁ : (⟨0, some "task-1", first⟩ : ActiveRun) ∈ s₁.active := by
    rw [hactive₁, hactive₀]
    exact List.mem_singleton_self _
  have hleft : (s₁.leave 0).active = [] := by
    rw [ServerState.leave, hactive₁, hactive₀]
    rfl
  have hlength : s₁.pool.threads.length = 1 := by
    rw [hlength₁, hthreads₀]
    rfl
  have hseparate : (s₁.leave 0).Separate (.direct (plainRequest "qq:private:1")) := by
    intro run hrun
    rw [hleft] at hrun
    cases hrun
  have h₂ := (h₁.snoc ⟨.returned hrun₁ hthread₁ (hended _), trivial⟩).snoc
    ⟨.direct hsecond, hseparate⟩
  have hrun₂ : (⟨1, none, second⟩ : ActiveRun) ∈
      ((s₁.leave 0).callRunner runner none second).active := by
    rw [ServerState.callRunner, hleft, ← hlength]
    exact List.mem_singleton_self _
  have hthread₂ : ((s₁.leave 0).callRunner runner none second).pool.threads[1]? =
      some (second, runner.start second) := by
    rw [← hlength]
    exact List.getElem?_concat_length
  obtain ⟨events₃, s₃, h₃, hshared₃, -⟩ :=
    ServerState.trace_of_runs (hruns 1 second _) h₂ hshared₁ hrun₂ hthread₂
  exact ⟨events₃, s₃, h₃, hshared₃ ▸ honce, hshared₃ ▸ htwice,
    conversations_keep_one_session runner False 10 20 events₃ s₃ h₃⟩

end Example

end DogBot
