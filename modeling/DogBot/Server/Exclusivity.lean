import DogBot.Server.Conservation
import DogBot.Server.System

/-! # Exclusive conversations

The scheduler keeps the runs of one conversation apart, and it bounds their
number, but only for its own tasks. A direct run is exclusive if it starts while
the runner is idle for its conversation and below the cap, and if tasks of its
conversation wait for it in turn. The processes that the runs leave behind, when
they fail or are dropped, must not work on a session that is executed again.
-/

namespace DogBot

variable {w : RunWorld} {task : ScheduledRun}

section Keys

/-- The task is scheduled under the conversation of its request. -/
def ScheduledRun.Keyed (task : ScheduledRun) : Prop :=
  task.summary.conversationKey = conversationKeyForRequest task.request

theorem conversationKeyForRequest_congr {request request' : RunRequest}
    (h : request.conversation = request'.conversation) :
    conversationKeyForRequest request = conversationKeyForRequest request' := by
  obtain ⟨haccount, hid⟩ := Prod.mk.inj h
  rw [conversationKeyForRequest, conversationKeyForRequest, haccount, hid]

theorem removePayloads_forall {P : ScheduledRun → Prop} {promoted : List TaskSummary}
    {payloads : Table String ScheduledRun}
    (h : ∀ id task, payloads.lookup id = some task → P task) :
    (∀ task ∈ (removePayloads payloads promoted).2, P task) ∧
      ∀ id task, (removePayloads payloads promoted).1.lookup id = some task → P task := by
  induction promoted generalizing payloads with
  | nil => exact ⟨fun _ ht => absurd ht List.not_mem_nil, h⟩
  | cons t promoted ih =>
    have herase : ∀ id task, (payloads.erase t.taskId).lookup id = some task → P task := by
      intro id task hl
      rw [AList.lookup_erase'] at hl
      split_ifs at hl
      exact h id task hl
    obtain ⟨htaken, hstay⟩ := ih herase
    refine ⟨fun task hmem => ?_, hstay⟩
    rcases List.mem_append.mp hmem with hmem | hmem
    · exact h _ _ (Option.mem_toList.mp hmem)
    · exact htaken task hmem

/-- All tasks are scheduled under the conversations of their requests. -/
structure RunWorld.Keyed (w : RunWorld) : Prop where
  inFlight : ∀ task ∈ w.inFlight, task.Keyed
  payloads : ∀ id task, w.inner.queuedPayloads.lookup id = some task → task.Keyed

namespace RunWorld.Keyed

theorem submit (h : w.Keyed) (hk : task.Keyed) : (w.submit task).Keyed := by
  have hfly : ∀ l : List ScheduledRun, (∀ t ∈ l, t.Keyed) →
      ∀ t ∈ w.live ++ (w.handedOut ++ l), t.Keyed := by
    intro l hl t ht
    rw [← List.append_assoc] at ht
    rcases List.mem_append.mp ht with ht | ht
    · exact h.inFlight t ht
    · exact hl t ht
  have hnil : ∀ t ∈ ([] : List ScheduledRun), t.Keyed := fun _ ht => absurd ht List.not_mem_nil
  obtain ⟨-, -, ⟨-, hs, hp⟩ | ⟨-, hs, hp⟩ | ⟨-, hs, hi⟩⟩ := w.inner.submit_cases task
  · constructor
    · rw [RunWorld.inFlight, RunWorld.submit, hs]
      apply hfly
      intro t ht
      rwa [List.mem_singleton.mp ht]
    · rw [RunWorld.submit, hp]
      exact h.payloads
  · constructor
    · rw [RunWorld.inFlight, RunWorld.submit, hs]
      exact hfly [] hnil
    · intro id t hl
      rw [RunWorld.submit, hp, AList.lookup_insert'] at hl
      split_ifs at hl
      · rwa [← Option.some.inj hl]
      · exact h.payloads id t hl
  · constructor
    · rw [RunWorld.inFlight, RunWorld.submit, hs]
      exact hfly [] hnil
    · rw [RunWorld.submit, hi]
      exact h.payloads

theorem spawn (h : w.Keyed) {i : ℕ} (hi : w.handedOut[i]? = some task) :
    (w.spawn i task).Keyed := by
  refine ⟨fun t ht => h.inFlight t ?_, h.payloads⟩
  have hperm : (w.spawn i task).inFlight.Perm w.inFlight := by
    simp only [RunWorld.inFlight, RunWorld.spawn, List.append_assoc, List.singleton_append]
    exact (perm_cons_eraseIdx hi).symm.append_left _
  exact hperm.mem_iff.mp ht

theorem finish (h : w.Keyed) (i : ℕ) (task : ScheduledRun) (terminal : TerminalState)
    (terminalSummary : Option String) : (w.finish i task terminal terminalSummary).Keyed := by
  obtain ⟨htaken, hstay⟩ := @removePayloads_forall ScheduledRun.Keyed
    (w.inner.state.finish task.summary.conversationKey terminal terminalSummary).2 _ h.payloads
  refine ⟨fun t ht => ?_, hstay⟩
  rcases List.mem_append.mp ht with ht | ht
  · exact h.inFlight t (List.mem_append_left _ (List.mem_of_mem_eraseIdx ht))
  · rcases List.mem_append.mp ht with ht | ht
    · exact h.inFlight t (List.mem_append_right _ ht)
    · exact htaken t ht

theorem step (h : w.Keyed) {i : RunStep} (hi : w.Enabled i) : (w.step i).Keyed := by
  cases i with
  | submit taskId event request validated => exact h.submit rfl
  | spawn i =>
    have hget : w.handedOut[i]? = some w.handedOut[i] := List.getElem?_eq_getElem hi
    rw [step_spawn hget]
    exact h.spawn hget
  | finish i terminal terminalSummary =>
    have hget : w.live[i]? = some w.live[i] := List.getElem?_eq_getElem hi
    rw [step_finish hget]
    exact h.finish i _ terminal terminalSummary

end RunWorld.Keyed

theorem RunWorld.keyed_new (m d : ℕ) : (RunWorld.new m d).Keyed := by
  constructor
  · intro task ht
    cases ht
  · intro id task hl
    simp [RunWorld.new, RunSchedulerInner.new] at hl

end Keys

variable {runner : DockerRunner} {faulty : Prop} {m : ℕ} {s s' : ServerState} {event : ServerEvent}
  {call : RunCall} {taskId : Option String}

section Steps

theorem ServerStep.world (h : ServerStep runner faulty s event s') :
    s'.world = s.world ∨ ∃ i, s.world.Enabled i ∧ s'.world = s.world.step i := by
  cases h with
  | submit h | spawn h => exact .inr ⟨_, h, rfl⟩
  | @finish i _ terminal terminalSummary hlive =>
    exact .inr ⟨.finish i terminal terminalSummary, (List.getElem?_eq_some_iff.mp hlive).1, rfl⟩
  | enter | direct | work | exit | returned | dropped => exact .inl rfl

theorem ServerStep.pool (h : ServerStep runner faulty s event s') :
    s'.pool = s.pool ∨ runner.PoolStep faulty s.pool s'.pool := by
  cases h with
  | enter | direct => exact .inr (.spawn _)
  | work _ hi hs => exact .inr (.run hi hs)
  | exit h => exact .inr (.env h)
  | submit | spawn | returned | dropped | finish => exact .inl rfl

theorem ServerStep.argument (h : ServerStep runner faulty s event s') {i : ℕ}
    (hi : (s.pool.threads[i]?).map Prod.fst = some call) :
    (s'.pool.threads[i]?).map Prod.fst = some call := by
  rcases h.pool with heq | hst
  · rwa [heq]
  · exact hst.argument hi

end Steps

namespace ServerState

/-- What the server knows of the calls that have not returned: each has a thread of its own, and
the task of a scheduled run is live and has called the runner once. -/
structure Tracked (s : ServerState) : Prop where
  calls : ∀ run ∈ s.active, (s.pool.threads[run.thread]?).map Prod.fst = some run.call
  threads : (s.active.map ActiveRun.thread).Nodup
  scheduled : ∀ run ∈ s.active, ∀ id, run.taskId = some id → id ∈ s.entered ∧
    ∃ task ∈ s.world.live, task.taskId = id ∧ task.request = run.call.request
  once : (s.active.filterMap ActiveRun.taskId).Nodup

/-- Calls may return while the tasks of the others stay live. -/
theorem Tracked.frame (h : s.Tracked) (hactive : s'.active.Sublist s.active)
    (hentered : s'.entered = s.entered)
    (hcalls : ∀ (i : ℕ) (call : RunCall), (s.pool.threads[i]?).map Prod.fst = some call →
      (s'.pool.threads[i]?).map Prod.fst = some call)
    (hlive : ∀ task ∈ s.world.live, ∀ run ∈ s'.active, run.taskId = some task.taskId →
      task ∈ s'.world.live) : s'.Tracked := by
  constructor
  · exact fun run hrun => hcalls _ _ (h.calls run (hactive.subset hrun))
  · exact h.threads.sublist (hactive.map ActiveRun.thread)
  · intro run hrun id hid
    obtain ⟨hmem, task, htask, rfl, hrequest⟩ := h.scheduled run (hactive.subset hrun) id hid
    exact ⟨hentered ▸ hmem, task, hlive task htask run hrun hid, rfl, hrequest⟩
  · exact h.once.sublist (hactive.filterMap ActiveRun.taskId)

theorem Tracked.callRunner (h : s.Tracked)
    (htask : ∀ id, taskId = some id → id ∉ s.entered ∧
      ∃ task ∈ s.world.live, task.taskId = id ∧ task.request = call.request) :
    (s.callRunner runner taskId call).Tracked := by
  have hlt : ∀ run ∈ s.active, run.thread < s.pool.threads.length := by
    intro run hrun
    obtain ⟨thread, hi, -⟩ := Option.map_eq_some_iff.mp (h.calls run hrun)
    exact (List.getElem?_eq_some_iff.mp hi).1
  constructor
  · intro run hrun
    rcases List.mem_append.mp hrun with hrun | hrun
    · rw [ServerState.callRunner, List.getElem?_append_left (hlt run hrun)]
      exact h.calls run hrun
    · obtain rfl := List.mem_singleton.mp hrun
      rw [ServerState.callRunner, List.getElem?_concat_length]
      rfl
  · have hnew : s.pool.threads.length ∉ s.active.map ActiveRun.thread := by
      intro hmem
      obtain ⟨run, hrun, heq⟩ := List.mem_map.mp hmem
      exact Nat.ne_of_lt (hlt run hrun) heq
    simpa [ServerState.callRunner] using List.Nodup.concat hnew h.threads
  · intro run hrun id hid
    rcases List.mem_append.mp hrun with hrun | hrun
    · obtain ⟨hmem, htask⟩ := h.scheduled run hrun id hid
      exact ⟨List.mem_append_right _ hmem, htask⟩
    · obtain rfl := List.mem_singleton.mp hrun
      obtain ⟨-, htask⟩ := htask id hid
      exact ⟨List.mem_append_left _ (Option.mem_toList.mpr hid), htask⟩
  · cases taskId with
    | none => simpa [ServerState.callRunner] using h.once
    | some id =>
      have hnew : id ∉ s.active.filterMap ActiveRun.taskId := by
        intro hmem
        obtain ⟨run, hrun, hid⟩ := List.mem_filterMap.mp hmem
        exact (htask id rfl).1 (h.scheduled run hrun id hid).1
      simpa [ServerState.callRunner] using List.Nodup.concat hnew h.once

/-- Every step of the server keeps track of the calls. -/
theorem Tracked.step (h : s.Tracked) (hst : ServerStep runner faulty s event s') :
    s'.Tracked := by
  have hargument : ∀ (i : ℕ) (call : RunCall), (s.pool.threads[i]?).map Prod.fst = some call →
      (s'.pool.threads[i]?).map Prod.fst = some call := fun i call hi => hst.argument hi
  cases hst with
  | submit => exact h.frame (.refl _) rfl hargument fun _ hlive _ _ _ => hlive
  | @spawn i hi =>
    have hget : s.world.handedOut[i]? = some s.world.handedOut[i] := List.getElem?_eq_getElem hi
    refine h.frame (.refl _) rfl hargument fun task hlive run hrun hid => ?_
    dsimp only
    rw [RunWorld.step_spawn hget]
    exact List.mem_append_left _ hlive
  | @enter task hlive hnew =>
    apply h.callRunner
    rintro id ⟨⟩
    exact ⟨hnew, task, hlive, rfl, rfl⟩
  | direct =>
    apply h.callRunner
    rintro id ⟨⟩
  | work | exit => exact h.frame (.refl _) rfl hargument fun _ hlive _ _ _ => hlive
  | returned | dropped =>
    exact h.frame List.filter_sublist rfl hargument fun _ hlive _ _ _ => hlive
  | @finish i task terminal terminalSummary hi hentered hidle =>
    refine h.frame (.refl _) rfl hargument fun task' hlive run hrun hid => ?_
    dsimp only
    rw [RunWorld.step_finish hi]
    have hne : task' ≠ task := by
      rintro rfl
      exact hidle run hrun hid
    exact (List.mem_cons.mp ((perm_cons_eraseIdx hi).mem_iff.mp hlive)).resolve_left hne

/-- At any moment at most one call of the runner is in progress for each conversation, the calls
are at most as many as the cap says, and no two Claude processes work on one session. -/
structure Exclusive (maxConcurrentRuns : ℕ) (s : ServerState) : Prop where
  conversations : (s.active.map ActiveRun.conversation).Nodup
  total : s.active.length ≤ maxConcurrentRuns
  processes : s.pool.shared.processes.Pairwise fun process process' =>
    ¬ SharesSession process.command process'.command

/-- The step does not disturb a run. A direct run starts while nothing is in progress for its
conversation and below the cap; a task calls the runner while no direct run of its conversation is
in progress, and below the cap if there are other direct runs; and Claude is not executed with a
session that a run has left behind with a process. -/
def Undisturbed (maxConcurrentRuns : ℕ) (s : ServerState) : ServerEvent → Prop
  | .enter task =>
    (∀ run ∈ s.active, run.taskId = none → run.conversation ≠ task.request.conversation) ∧
      (1 ≤ maxConcurrentRuns ∧ (∀ run ∈ s.active, run.taskId ≠ none) ∨
        s.active.length < maxConcurrentRuns)
  | .direct request =>
    (∀ run ∈ s.active, run.conversation ≠
      (Text.trim request.platformAccountId, Text.trim request.conversationId)) ∧
      s.active.length < maxConcurrentRuns
  | .work _ (.createClaudeExec _ _ command _) =>
    ∀ process ∈ s.pool.shared.processes, (∀ run ∈ s.active, run.thread ≠ process.run) →
      ¬ SharesSession command process.command
  | _ => True

structure Inv (runner : DockerRunner) (faulty : Prop) (maxConcurrentRuns : ℕ) (s : ServerState) :
    Prop where
  world : ∃ r, s.world.Inv r ∧ r.maxConcurrent = max maxConcurrentRuns 1
  keyed : s.world.Keyed
  pool : Reachable (runner.PoolStep faulty) .init s.pool
  tracked : s.Tracked
  exclusive : s.Exclusive maxConcurrentRuns

theorem inv_init (runner : DockerRunner) (faulty : Prop) (m d : ℕ) :
    (init m d).Inv runner faulty m where
  world := ⟨_, RunWorld.inv_new m d, rfl⟩
  keyed := RunWorld.keyed_new m d
  pool := .refl
  tracked := by
    constructor
    · intro run hrun
      cases hrun
    · exact List.nodup_nil
    · intro run hrun
      cases hrun
    · exact List.nodup_nil
  exclusive := ⟨List.nodup_nil, Nat.zero_le _, .nil⟩

/-- The end of a call or of a process leaves the other ones exclusive. -/
theorem Exclusive.frame (h : s.Exclusive m) (hactive : s'.active.Sublist s.active)
    (hprocesses : s'.pool.shared.processes.Sublist s.pool.shared.processes) : s'.Exclusive m :=
  ⟨h.conversations.sublist (hactive.map ActiveRun.conversation),
    hactive.length_le.trans h.total, h.processes.sublist hprocesses⟩

theorem conversations_callRunner (s : ServerState) (runner : DockerRunner)
    (taskId : Option String) (call : RunCall) :
    (s.callRunner runner taskId call).active.map ActiveRun.conversation =
      s.active.map ActiveRun.conversation ++ [call.request.conversation] := by
  rw [callRunner, List.map_append]
  rfl

theorem Exclusive.callRunner_iff (h : s.Exclusive m) :
    (s.callRunner runner taskId call).Exclusive m ↔
      (∀ run ∈ s.active, run.conversation ≠ call.request.conversation) ∧ s.active.length < m := by
  have hlength : (s.callRunner runner taskId call).active.length = s.active.length + 1 := by
    simp [ServerState.callRunner]
  constructor
  · intro h'
    have hnodup := h'.conversations
    have htotal := h'.total
    rw [conversations_callRunner] at hnodup
    rw [hlength] at htotal
    refine ⟨fun run hrun heq => ?_, by omega⟩
    obtain ⟨-, -, hdisjoint⟩ := List.nodup_append'.mp hnodup
    exact hdisjoint (List.mem_map_of_mem hrun) (List.mem_singleton.mpr heq)
  · rintro ⟨hfree, hlt⟩
    refine ⟨?_, by omega, h.processes⟩
    have hnew : call.request.conversation ∉ s.active.map ActiveRun.conversation := by
      intro hmem
      obtain ⟨run, hrun, heq⟩ := List.mem_map.mp hmem
      exact hfree run hrun heq
    rw [conversations_callRunner]
    simpa using List.Nodup.concat hnew h.conversations

namespace Inv

theorem task_eq (h : s.Inv runner faulty m) {task task' : ScheduledRun}
    (ht : task ∈ s.world.live) (ht' : task' ∈ s.world.live)
    (heq : task.request.conversation = task'.request.conversation) : task = task' := by
  obtain ⟨r, hr, -⟩ := h.world
  have hfly := List.mem_append_left s.world.handedOut ht
  have hfly' := List.mem_append_left s.world.handedOut ht'
  apply List.inj_on_of_nodup_map hr.conserved.exclusive hfly hfly'
  rw [h.keyed.inFlight task hfly, h.keyed.inFlight task' hfly', conversationKeyForRequest_congr heq]

/-- The scheduled runs are at most as many as the tasks that hold a slot. -/
theorem length_lt (h : s.Inv runner faulty m) {task : ScheduledRun} (hlive : task ∈ s.world.live)
    (hnew : task.taskId ∉ s.entered) (hm : 1 ≤ m) (hdirect : ∀ run ∈ s.active, run.taskId ≠ none) :
    s.active.length < m := by
  obtain ⟨r, hr, hcap⟩ := h.world
  have hlength : (s.active.filterMap ActiveRun.taskId).length = s.active.length :=
    List.filterMap_length_eq_length.mpr fun run hrun =>
      Option.isSome_iff_ne_none.mpr (hdirect run hrun)
  have hnodup : (task.taskId :: s.active.filterMap ActiveRun.taskId).Nodup := by
    apply h.tracked.once.cons
    intro hmem
    obtain ⟨run, hrun, hid⟩ := List.mem_filterMap.mp hmem
    exact hnew (h.tracked.scheduled run hrun _ hid).1
  have hsub : task.taskId :: s.active.filterMap ActiveRun.taskId ⊆
      s.world.live.map ScheduledRun.taskId := by
    intro id hid
    rcases List.mem_cons.mp hid with rfl | hid
    · exact List.mem_map_of_mem hlive
    · obtain ⟨run, hrun, hid⟩ := List.mem_filterMap.mp hid
      obtain ⟨-, task', htask, rfl, -⟩ := h.tracked.scheduled run hrun _ hid
      exact List.mem_map_of_mem htask
  have hle := hnodup.length_le_of_subset hsub
  have hslots := hr.inFlight.length_eq
  have hcapacity := hr.reference.capacity
  simp only [List.length_cons, List.length_map, RunWorld.inFlight, List.length_append] at hle hslots
  omega

theorem free (h : s.Inv runner faulty m) {task : ScheduledRun} (hlive : task ∈ s.world.live)
    (hnew : task.taskId ∉ s.entered)
    (hdirect : ∀ run ∈ s.active, run.taskId = none → run.conversation ≠ task.request.conversation) :
    ∀ run ∈ s.active, run.conversation ≠ task.request.conversation := by
  intro run hrun heq
  cases hid : run.taskId with
  | none => exact hdirect run hrun hid heq
  | some id =>
    obtain ⟨hentered, task', hlive', rfl, hrequest⟩ := h.tracked.scheduled run hrun id hid
    rw [ActiveRun.conversation, ← hrequest] at heq
    obtain rfl := h.task_eq hlive' hlive heq
    exact hnew hentered

/-- A task that calls the runner is undisturbed exactly if the calls stay exclusive. -/
theorem enter_iff (h : s.Inv runner faulty m) {task : ScheduledRun} (hlive : task ∈ s.world.live)
    (hnew : task.taskId ∉ s.entered) :
    (s.callRunner runner (some task.taskId) ⟨task.request, task.validated⟩).Exclusive m ↔
      s.Undisturbed m (.enter task) := by
  rw [h.exclusive.callRunner_iff]
  constructor
  · rintro ⟨hfree, hlt⟩
    exact ⟨fun run hrun _ => hfree run hrun, .inr hlt⟩
  · rintro ⟨hdirect, ⟨hm, hnone⟩ | hlt⟩
    · exact ⟨h.free hlive hnew hdirect, h.length_lt hlive hnew hm hnone⟩
    · exact ⟨h.free hlive hnew hdirect, hlt⟩

theorem direct_iff (h : s.Inv runner faulty m) {request : RunRequest}
    (hcall : Server.run request = .ok call) :
    (s.callRunner runner none call).Exclusive m ↔ s.Undisturbed m (.direct request) := by
  rw [h.exclusive.callRunner_iff, Server.run_conversation hcall]
  exact .rfl

theorem run_eq (h : s.Inv runner faulty m) {run run' : ActiveRun} (hrun : run ∈ s.active)
    (hrun' : run' ∈ s.active) {P : RunnerPool} (hP : Reachable (runner.PoolStep faulty) .init P)
    (hcalls : ∀ run ∈ s.active, (P.threads[run.thread]?).map Prod.fst = some run.call)
    {t t' : SessionIdentity} {command command' : List String}
    (hexec : .exec run.thread t command ∈ P.shared.log)
    (hexec' : .exec run'.thread t' command' ∈ P.shared.log)
    (hs : SharesSession command command') : run = run' := by
  have ht := (RunnerPool.inv hP).log.identity_eq hexec hexec' hs
  obtain ⟨call, hcall, hcalled⟩ := RunnerPool.labelled hP _ _ _ hexec
  obtain ⟨call', hcall', hcalled'⟩ := RunnerPool.labelled hP _ _ _ hexec'
  rw [hcalls run hrun] at hcall
  rw [hcalls run' hrun'] at hcall'
  obtain rfl := Option.some.inj hcall
  obtain rfl := Option.some.inj hcall'
  apply List.inj_on_of_nodup_map h.exclusive.conversations hrun hrun'
  have hidentity : run.call.request.identity = run'.call.request.identity :=
    hcalled.trans (ht.trans hcalled'.symm)
  exact congrArg (fun t => (t.platformAccount, t.conversationId)) hidentity

/-- A process that is started works on no session of another one. -/
theorem work (h : s.Inv runner faulty m) {run : ActiveRun} {op : ExecOp}
    {next : op.Result → ExecM RunResponse} {r : op.Result} {shared : RunnerState}
    (hrun : run ∈ s.active) (hi : s.pool.threads[run.thread]? = some (run.call, .call op next))
    (hs : RunnerStep faulty run.thread run.call s.pool.shared op r shared)
    (hundisturbed : s.Undisturbed m (.work run.thread op)) :
    shared.processes.Pairwise fun process process' =>
      ¬ SharesSession process.command process'.command := by
  rcases hs.processes_cases with hsub | ⟨_, _, command, _, rfl, hprocesses⟩
  · exact h.exclusive.processes.sublist hsub
  have hst : runner.PoolStep faulty s.pool
      ⟨shared, s.pool.threads.set run.thread (run.call, next r)⟩ := .run hi hs
  have hP := h.pool.tail hst
  have hinv : shared.Inv := RunnerPool.inv hP
  have hcalls := fun run hrun => hst.argument (h.tracked.calls run hrun)
  have hexecuted := hinv.executed
  have honce := hinv.once
  rw [hprocesses] at hexecuted honce
  rw [hprocesses]
  refine .cons (fun process hprocess hshares => ?_) h.exclusive.processes
  by_cases hactive : ∃ run' ∈ s.active, run'.thread = process.run
  · obtain ⟨run', hrun', hthread⟩ := hactive
    have hexec := hexecuted _ List.mem_cons_self
    have hexec' := hexecuted process (List.mem_cons_of_mem _ hprocess)
    rw [← hthread] at hexec'
    obtain rfl := h.run_eq hrun hrun' hP hcalls hexec hexec' hshares
    -- The run has no other process when it executes Claude.
    apply (List.nodup_cons.mp honce).1
    exact List.mem_map.mpr ⟨process, hprocess, hthread.symm⟩
  · push Not at hactive
    exact hundisturbed process hprocess hactive hshares

/-- Every undisturbed step of the server keeps the invariant. -/
theorem step (h : s.Inv runner faulty m) (hst : ServerStep runner faulty s event s')
    (hundisturbed : s.Undisturbed m event) : s'.Inv runner faulty m := by
  constructor
  · rcases hst.world with heq | ⟨i, hi, heq⟩
    · rw [heq]
      exact h.world
    · obtain ⟨r, hr, hcap⟩ := h.world
      obtain ⟨r', hr', hcap', -⟩ := RunWorld.inv_step i hr hi
      rw [heq]
      exact ⟨r', hr', hcap'.trans hcap⟩
  · rcases hst.world with heq | ⟨i, hi, heq⟩
    · rw [heq]
      exact h.keyed
    · rw [heq]
      exact h.keyed.step hi
  · rcases hst.pool with heq | hpool
    · rw [heq]
      exact h.pool
    · exact h.pool.tail hpool
  · exact h.tracked.step hst
  · cases hst with
    | submit | spawn | finish => exact h.exclusive.frame (.refl _) (.refl _)
    | enter hlive hnew => exact (h.enter_iff hlive hnew).mpr hundisturbed
    | direct hcall => exact (h.direct_iff hcall).mpr hundisturbed
    | work hrun hi hs =>
      exact ⟨h.exclusive.conversations, h.exclusive.total, h.work hrun hi hs hundisturbed⟩
    | exit hexit =>
      cases hexit with
      | exit i => exact h.exclusive.frame (.refl _) (List.eraseIdx_sublist _ _)
    | returned | dropped => exact h.exclusive.frame List.filter_sublist (.refl _)

end Inv

end ServerState

/-- In every run of the server whose steps do not disturb another run, whatever fails: at any moment
at most one call of the runner is in progress for each conversation, at most `maxConcurrentRuns`
calls are in progress, and no two Claude processes work on one session. -/
theorem conversations_stay_exclusive (runner : DockerRunner) (faulty : Prop)
    (maxConcurrentRuns maxQueueDepth : ℕ) (events : List ServerEvent) (s : ServerState)
    (h : Trace (fun s event s' => ServerStep runner faulty s event s' ∧
      s.Undisturbed maxConcurrentRuns event)
      (.init maxConcurrentRuns maxQueueDepth) events s) :
    s.Exclusive maxConcurrentRuns := by
  have hinv : s.Inv runner faulty maxConcurrentRuns := by
    refine h.invariant (I := fun _ s => s.Inv runner faulty maxConcurrentRuns)
      (ServerState.inv_init runner faulty _ _) ?_
    rintro _ _ event _ hinv ⟨hst, hundisturbed⟩
    exact hinv.step hst hundisturbed
  exact hinv.exclusive

/-- The events up to the call of the runner for the first event of a server. -/
def scheduledEvents (event : CanonicalEvent) (request : RunRequest)
    (validated : ValidatedRunRequest) : List ServerEvent :=
  [.submit "task-1" event request validated, .spawn 0,
    .enter (.new "task-1" event request validated)]

theorem scheduled_trace (runner : DockerRunner) (event : CanonicalEvent) (request : RunRequest)
    (validated : ValidatedRunRequest) : ∃ s, Trace (fun s event s' =>
      ServerStep runner False s event s' ∧ s.Undisturbed 10 event) (.init 10 20)
      (scheduledEvents event request validated) s ∧
    s.active.map ActiveRun.conversation = [request.conversation] := by
  have hlive : ScheduledRun.new "task-1" event request validated ∈
      (((RunWorld.new 10 20).step (.submit "task-1" event request validated)).step
        (.spawn 0)).live := List.mem_singleton.mpr rfl
  refine ⟨_, (((Trace.nil _).snoc ⟨.submit ?_, trivial⟩).snoc ⟨.spawn ?_, trivial⟩).snoc
    ⟨.enter hlive List.not_mem_nil, fun _ hrun => absurd hrun List.not_mem_nil, .inr ?_⟩, rfl⟩
  · exact Nat.zero_lt_succ 9
  · exact List.not_mem_nil
  · exact Nat.zero_lt_one

/-- While the run of an event is in progress, `/v1/runs` starts a run of another conversation. -/
theorem conversations_stay_exclusive_direct :
    let runner : DockerRunner := ⟨"claude", ⟨none, none, 1800, []⟩⟩
    ∃ events s, Trace (fun s event s' => ServerStep runner False s event s' ∧
        s.Undisturbed 10 event) (.init 10 20) events s ∧
      s.active.map ActiveRun.conversation =
        [("qq:bot_uin:123", "qq:private:1"), ("qq:bot_uin:123", "qq:private:2")] ∧
      s.Exclusive 10 := by
  intro runner
  obtain ⟨call, hcall⟩ : ∃ call, Server.run (plainRequest "qq:private:2") = .ok call := ⟨_, rfl⟩
  obtain ⟨s, hs, hactive⟩ := scheduled_trace runner (plainEvent "qq:private:1")
    (plainRequest "qq:private:1") { cwd := "/workspace", prompt := "hello", systemPrompt := "" }
  have hundisturbed : s.Undisturbed 10 (.direct (plainRequest "qq:private:2")) := by
    constructor
    · intro run hrun heq
      have hmem := List.mem_map_of_mem (f := ActiveRun.conversation) hrun
      rw [hactive, heq] at hmem
      revert hmem
      decide +kernel
    · rw [← List.length_map ActiveRun.conversation, hactive]
      decide
  have htrace := hs.snoc ⟨.direct hcall, hundisturbed⟩
  refine ⟨_, _, htrace, ?_, conversations_stay_exclusive runner False 10 20 _ _ htrace⟩
  rw [ServerState.conversations_callRunner, hactive, Server.run_conversation hcall]
  decide +kernel

/-- The run of an event is in progress, and `/v1/runs` starts another one of its conversation. -/
theorem direct_run_overlaps :
    let runner : DockerRunner := ⟨"claude", ⟨none, none, 1800, []⟩⟩
    ∃ request validated s,
      buildRunRequestFromEvent (plainEvent "qq:private:1") = some request ∧
      request.validate = .ok validated ∧
      Trace (ServerStep runner False) (.init 10 20)
        (scheduledEvents (plainEvent "qq:private:1") request validated ++ [.direct request]) s ∧
      ¬ s.Exclusive 10 := by
  intro runner
  obtain ⟨request, hrequest, validated, hvalidated, call, hcall, hconversation⟩ :
      ∃ request, buildRunRequestFromEvent (plainEvent "qq:private:1") = some request ∧
        ∃ validated, request.validate = .ok validated ∧
          ∃ call, Server.run request = .ok call ∧
            call.request.conversation = request.conversation := ⟨_, rfl, _, rfl, _, rfl, rfl⟩
  obtain ⟨s, hs, hactive⟩ := scheduled_trace runner (plainEvent "qq:private:1") request validated
  have htrace := (hs.mono fun _ _ _ h => h.1).snoc (.direct hcall)
  refine ⟨request, validated, _, hrequest, hvalidated, htrace, fun hexclusive => ?_⟩
  have hnodup := hexclusive.conversations
  rw [ServerState.conversations_callRunner, hactive, hconversation] at hnodup
  simp at hnodup

end DogBot
