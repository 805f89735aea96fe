import DogBot.Scheduler.TasksAhead
import DogBot.Server.Threads

/-! # Tracking the threads

Every step of the pipeline keeps the scheduler and the log in agreement with the
threads: a submission, the spawn of a task, the calls of handlers and tasks, and
the end of a task.
-/

namespace DogBot

open Arrival (lane mem_lane lane_append_singleton)

section Lists

variable {α β : Type*}

theorem filterMap_concat (f : α → Option β) (l : List α) (a : α) :
    (l ++ [a]).filterMap f = l.filterMap f ++ (f a).toList := by
  rw [List.filterMap_append]
  congr 1

theorem lane_append {κ : Type*} [DecidableEq κ] {key : α → κ} {c : κ} {l l' : List α} :
    lane key c (l ++ l') = lane key c l ++ lane key c l' := List.filter_append _ _

theorem lane_map {κ : Type*} [DecidableEq κ] {key : β → κ} {f : α → β} {c : κ} {l : List α} :
    lane key c (l.map f) = (lane (key ∘ f) c l).map f := List.filter_map

theorem perm_eq_of_length_le {l l' : List α} (h : l.Perm l') (hlen : l.length ≤ 1) : l = l' := by
  match l, hlen with
  | [], _ => exact h.nil_eq
  | [a], _ => exact (List.perm_singleton.mp h.symm).symm

theorem lane_perm {κ : Type*} [DecidableEq κ] {key : α → κ} {c : κ} {l l' : List α}
    (h : l.Perm l') (hn : (l.map key).Nodup) : lane key c l = lane key c l' := by
  apply perm_eq_of_length_le (h.filter _)
  have hcount : (l.map key).count c ≤ 1 := List.nodup_iff_count_le_one.mp hn c
  rwa [List.count_eq_length_filter, List.filter_map, List.length_map] at hcount

theorem split_set {l : List α} {i : ℕ} {a : α} (h : l[i]? = some a) :
    ∃ before after, l = before ++ a :: after ∧ ∀ b, l.set i b = before ++ b :: after := by
  obtain ⟨hlt, rfl⟩ := List.getElem?_eq_some_iff.mp h
  refine ⟨l.take i, l.drop (i + 1), ?_, fun b => ?_⟩
  · rw [List.getElem_cons_drop, List.take_append_drop]
  · rw [List.set_eq_take_append_cons_drop, if_pos hlt]

end Lists

theorem ReferenceScheduler.terminal_finish {r : ReferenceScheduler} {c : String}
    (hc : c ∈ r.conversations) (state : TerminalState) (summary : Option String) :
    ∃ f ∈ r.running, f.conversationKey = c ∧ (r.finish c state summary).1.terminal =
      r.terminal ++ [⟨f.taskId, f.conversationKey, state, summary⟩] := by
  obtain ⟨f, hf, hfind, -, hclose⟩ := close_spec state summary hc
  refine ⟨f, List.mem_of_find?_eq_some hfind, hf, ?_⟩
  rcases r.finish_cases c state summary with ⟨t, -, he⟩ | ⟨-, t, -, he⟩ | ⟨-, -, he⟩ <;>
    rw [he, hclose]

namespace PipelineState

variable {app : AppState} {s : PipelineState} {r : ReferenceScheduler} {i : ℕ}
  {task task' : ScheduledRun} {p q : TaskM Unit} {c : String}

theorem log_filterMap {α : Type} {s s' : PipelineState} {entry : LogEntry}
    (hlog : s'.log = s.log ++ [entry]) (f : LogEntry → Option α) :
    s'.log.filterMap f = s.log.filterMap f ++ (f entry).toList := by
  rw [hlog, filterMap_concat]

theorem spawnedTasks_set (hi : s.tasks[i]? = some (task, p)) :
    (s.tasks.set i (task, q)).map Prod.fst = s.spawnedTasks := by
  obtain ⟨before, after, hsplit, hset⟩ := split_set hi
  rw [hset, spawnedTasks, hsplit, List.map_append, List.map_append]
  rfl

namespace Tracked

theorem last_of_busy (h : Tracked app s r) (hi : s.tasks[i]? = some (task, p)) (hp : ¬ p.Ended) :
    ∃ before after, s.spawnedTasks = before ++ task :: after ∧ task ∉ before ∧
      ∀ t ∈ after, t.conversationKey ≠ task.conversationKey := by
  obtain ⟨before, after, hsplit, -⟩ := split_set hi
  have hspawned : s.spawnedTasks = before.map Prod.fst ++ task :: after.map Prod.fst := by
    rw [spawnedTasks, hsplit, List.map_append]
    rfl
  refine ⟨_, _, hspawned, ?_, ?_⟩
  · intro hmem
    have hnodup : s.spawnedTasks.Nodup := List.Nodup.of_map _ h.spawned_nodup
    rw [hspawned] at hnodup
    exact (List.nodup_append'.mp hnodup).2.2 hmem (List.mem_cons_self ..)
  · have hpair := h.orderly
    rw [hsplit, List.pairwise_append, List.pairwise_cons] at hpair
    intro t ht heq
    obtain ⟨thread, hthread, rfl⟩ := List.mem_map.mp ht
    exact hp (hpair.2.1.1 thread hthread heq.symm)

theorem lane_of_busy (h : Tracked app s r) (hi : s.tasks[i]? = some (task, p)) (hp : ¬ p.Ended) :
    ∃ before, lane ScheduledRun.conversationKey task.conversationKey s.spawnedTasks =
        before ++ [task] ∧ before ⊆ s.spawnedTasks ∧ task ∉ before := by
  obtain ⟨before, after, hsplit, hbefore, hafter⟩ := h.last_of_busy hi hp
  have hrest : lane ScheduledRun.conversationKey task.conversationKey after = [] := by
    rw [lane, List.filter_eq_nil_iff]
    intro t ht
    simpa using hafter t ht
  refine ⟨lane ScheduledRun.conversationKey task.conversationKey before, ?_, fun t ht => ?_,
    fun ht => hbefore (mem_lane.mp ht).1⟩
  · rw [hsplit, lane_append, lane, lane, List.filter_cons_of_pos (by simp), ← lane, ← lane, hrest]
  · rw [hsplit]
    exact List.mem_append_left _ (mem_lane.mp ht).1

theorem orderly_set (h : Tracked app s r) (hi : s.tasks[i]? = some (task, p)) (hp : ¬ p.Ended) :
    (s.tasks.set i (task, q)).Pairwise fun earlier later =>
      earlier.1.conversationKey = later.1.conversationKey → earlier.2.Ended := by
  obtain ⟨before, after, hsplit, hset⟩ := split_set hi
  have hpair := h.orderly
  rw [hsplit, List.pairwise_append, List.pairwise_cons] at hpair
  rw [hset, List.pairwise_append, List.pairwise_cons]
  refine ⟨hpair.1, ⟨fun later hlater heq => ?_, hpair.2.1.2⟩, fun earlier hearlier later hlater => ?_⟩
  · exact absurd (hpair.2.1.1 later hlater heq) hp
  · rcases List.mem_cons.mp hlater with rfl | hlater
    · exact hpair.2.2 earlier hearlier (task, p) (List.mem_cons_self ..)
    · exact hpair.2.2 earlier hearlier later (List.mem_cons_of_mem _ hlater)

theorem lanes_spawn (h : Tracked app s r) (hi : s.world.handedOut[i]? = some task) :
    lane ScheduledRun.conversationKey c (s.spawnedTasks ++ [task] ++ s.world.handedOut.eraseIdx i) =
      lane ScheduledRun.conversationKey c (s.spawnedTasks ++ s.world.handedOut) := by
  have hkeys : (s.world.inFlight.map ScheduledRun.conversationKey).Nodup :=
    h.world.conserved.exclusive
  rw [RunWorld.inFlight, List.map_append] at hkeys
  rw [List.append_assoc, List.singleton_append, lane_append, lane_append,
    lane_perm (perm_cons_eraseIdx hi) hkeys.of_append_right]

theorem lanes_finish (h : Tracked app s r) (ht : task ∈ s.world.inFlight)
    (state : TerminalState) (summary : Option String) :
    (lane ScheduledRun.conversationKey c (s.world.inner.finish task state summary).2).map
        ScheduledRun.summary ++
      lane TaskSummary.conversationKey c
        (r.finish task.summary.conversationKey state summary).1.waiting =
    lane TaskSummary.conversationKey c r.waiting := by
  obtain ⟨-, hruns, -⟩ := h.world.finish_payloads ht state summary
  rw [r.lane_finish c task.summary.conversationKey state summary, ← hruns, lane_map]
  rfl

variable {s' : PipelineState}

/-- The thread of a task is busy if it was, and if it is another one or has not ended. -/
theorem busy_set (h : Tracked app s r) (hi : s.tasks[i]? = some (task, p))
    (htasks : s'.tasks = s.tasks.set i (task, q)) :
    s'.Busy task' ↔ task' = task ∧ ¬ q.Ended ∨ task' ≠ task ∧ s.Busy task' := by
  have hlt : i < s.tasks.length := (List.getElem?_eq_some_iff.mp hi).1
  simp only [Busy, htasks]
  constructor
  · rintro ⟨j, p', hj, hp'⟩
    rcases Pool.thread_set hi hj with ⟨rfl, heq⟩ | ⟨hne, hold⟩
    · cases heq
      exact .inl ⟨rfl, hp'⟩
    · refine .inr ⟨?_, j, p', hold, hp'⟩
      rintro rfl
      exact hne (h.index_eq hold hi)
  · rintro (⟨rfl, hq⟩ | ⟨hne, j, p', hj, hp'⟩)
    · exact ⟨i, q, List.getElem?_set_self hlt, hq⟩
    · refine ⟨j, p', ?_, hp'⟩
      have hij : i ≠ j := by
        rintro rfl
        rw [hi] at hj
        cases hj
        exact hne rfl
      rw [List.getElem?_set_ne hij]
      exact hj

/-- The calls of a handler tell nothing about the tasks. -/
structure SameTasks (s s' : PipelineState) : Prop where
  spawnedTasks : s'.spawnedTasks = s.spawnedTasks
  taskCalls : ∀ id, s'.taskCalls id = s.taskCalls id
  conversationCalls : ∀ c, s'.conversationCalls c = s.conversationCalls c
  terminals : s'.terminals = s.terminals
  log : ∀ task call, LogEntry.task task call ∈ s'.log → LogEntry.task task call ∈ s.log

theorem sameTasks_handler {call : HandlerCall} (htasks : s'.tasks = s.tasks)
    (hlog : s'.log = s.log ++ [.handler i call]) : SameTasks s s' := by
  refine ⟨?_, fun id => ?_, fun c => ?_, ?_, fun task call hmem => ?_⟩
  · rw [PipelineState.spawnedTasks, htasks, PipelineState.spawnedTasks]
  · rw [PipelineState.taskCalls, log_filterMap hlog]
    exact List.append_nil _
  · rw [PipelineState.conversationCalls, log_filterMap hlog]
    exact List.append_nil _
  · rw [PipelineState.terminals, log_filterMap hlog]
    exact List.append_nil _
  · rw [hlog] at hmem
    simpa using hmem

theorem SameTasks.turns (hsame : SameTasks s s') (h : Tracked app s r) (c : String) :
    s'.conversationCalls c = (lane ScheduledRun.conversationKey c s'.spawnedTasks).flatMap
      fun task => (s'.taskCalls task.taskId).map (task, ·) := by
  rw [hsame.conversationCalls, hsame.spawnedTasks, h.turns c]
  simp only [hsame.taskCalls]

/-- A call of a handler that is no submission does not concern the tasks. -/
theorem handle (h : Tracked app s r) {call : HandlerCall} (hworld : s'.world = s.world)
    (htasks : s'.tasks = s.tasks) (hlog : s'.log = s.log ++ [.handler i call])
    (hcall : call.1.isSubmit = false) : Tracked app s' r := by
  have hsame : SameTasks s s' := sameTasks_handler htasks hlog
  have hnone : LogEntry.submission (.handler i call) = none ∧
      LogEntry.accepted (.handler i call) = none := by
    obtain ⟨op, answer⟩ := call
    cases op with
    | submit event request validated => cases hcall
    | maybePurgeExpiredHistory | mirrorHistoryEvent _ | snapshot | deliver _ => exact ⟨rfl, rfl⟩
  have hsubmissions : s'.submissions = s.submissions := by
    rw [submissions, log_filterMap hlog, hnone.1]
    exact List.append_nil _
  have haccepted : s'.accepted = s.accepted := by
    rw [accepted, log_filterMap hlog, hnone.2]
    exact List.append_nil _
  constructor
  · exact hworld ▸ h.world
  · rw [hsame.spawnedTasks, hworld]
    exact h.spawned
  · simp only [Busy, hworld, htasks]
    exact h.live
  · intro j t p hj
    rw [hsame.taskCalls]
    exact h.calls j t p (htasks ▸ hj)
  · intro t call ht
    rw [hsame.spawnedTasks]
    exact h.logged t call (hsame.log t call ht)
  · rw [hsubmissions, hworld]
    exact h.answers
  · rw [haccepted, hworld]
    exact h.known
  · rw [haccepted, hsame.spawnedTasks]
    exact h.origin
  · rw [hsame.terminals]
    exact h.terminal
  · rw [haccepted]
    exact h.counted
  · rw [haccepted, hsame.spawnedTasks, hworld]
    exact h.lanes
  · rw [htasks]
    exact h.orderly
  · exact hsame.turns h

section Submit

variable {taskId : String} {event : CanonicalEvent} {request : RunRequest}
  {validated : ValidatedRunRequest}

/-- A submission puts the task behind the earlier ones of its conversation, or rejects it. -/
theorem lanes_submit (h : Tracked app s r) (task : ScheduledRun) (c : String) :
    (lane ScheduledRun.conversationKey c (s.spawnedTasks ++ (s.world.submit task).handedOut)).map
        ScheduledRun.summary ++
      lane TaskSummary.conversationKey c (r.admitTask task.summary).1.waiting =
    (lane ScheduledRun.conversationKey c (s.spawnedTasks ++ s.world.handedOut)).map
        ScheduledRun.summary ++ lane TaskSummary.conversationKey c r.waiting ++
      if (s.world.inner.submit task).feedback = .queueFull then []
      else (lane ScheduledRun.conversationKey c [task]).map ScheduledRun.summary := by
  obtain ⟨hout, -, hcases⟩ := s.world.inner.submit_cases task
  obtain ⟨-, houtcome⟩ := h.world.refines.admitTask task.summary
  rw [hout] at houtcome
  rcases r.admitTask_cases task.summary with ⟨-, -, hnone, he⟩ | ⟨-, -, he⟩ | ⟨-, -, he⟩
  · obtain ⟨hf, hs, -⟩ | ⟨⟨k, hf⟩, -⟩ | ⟨hf, -⟩ := hcases
    · rw [he, RunWorld.submit, hs, hf, if_neg ScheduleFeedback.started_ne_queueFull,
        Option.toList_some, ← List.append_assoc, lane_append, List.map_append, List.append_assoc, List.append_assoc]
      congr 1
      -- Nothing of the conversation waits, so the task may stand behind those that wait.
      by_cases hc : task.summary.conversationKey = c
      · have hempty : lane TaskSummary.conversationKey c r.waiting = [] := by
          rw [lane, List.filter_eq_nil_iff]
          intro t ht
          simpa [← hc] using hnone t ht
        rw [hempty, List.append_nil, List.nil_append]
      · have hother : lane ScheduledRun.conversationKey c [task] = [] := by
          simp [lane, ScheduledRun.conversationKey, hc]
        rw [hother, List.map_nil, List.nil_append, List.append_nil]
    · rw [hf, he] at houtcome
      cases houtcome
    · rw [hf, he] at houtcome
      cases houtcome
  · obtain ⟨hf, -⟩ | ⟨⟨k, hf⟩, -⟩ | ⟨hf, hs, -⟩ := hcases
    · rw [hf, he] at houtcome
      cases houtcome
    · rw [hf, he] at houtcome
      cases houtcome
    · rw [he, RunWorld.submit, hs, if_pos hf, Option.toList_none, List.append_nil,
        List.append_nil]
  · obtain ⟨hf, -⟩ | ⟨⟨k, hf⟩, hs, -⟩ | ⟨hf, -⟩ := hcases
    · rw [hf, he] at houtcome
      cases houtcome
    · rw [he, RunWorld.submit, hs, hf, if_neg (ScheduleFeedback.queued_ne_queueFull k),
        Option.toList_none, List.append_nil, lane_append, List.append_assoc]
      congr 1
      by_cases hc : task.summary.conversationKey = c <;>
        simp [lane, ScheduledRun.conversationKey, hc]
    · rw [hf, he] at houtcome
      cases houtcome

theorem counted_submit (h : Tracked app s r) (task : ScheduledRun) :
    (r.admitTask task.summary).1.running.length + (r.admitTask task.summary).1.waiting.length +
        (r.admitTask task.summary).1.terminal.length =
      r.running.length + r.waiting.length + r.terminal.length +
        if (s.world.inner.submit task).feedback = .queueFull then 0 else 1 := by
  obtain ⟨hout, -, -⟩ := s.world.inner.submit_cases task
  obtain ⟨-, houtcome⟩ := h.world.refines.admitTask task.summary
  rw [hout] at houtcome
  have hfull : (s.world.inner.submit task).feedback = .queueFull ↔
      (r.admitTask task.summary).2 = .rejected := by
    rw [← houtcome]
    cases (s.world.inner.submit task).feedback <;> simp [ScheduleFeedback.outcome]
  simp only [hfull]
  rcases r.admitTask_cases task.summary with ⟨-, -, -, he⟩ | ⟨-, -, he⟩ | ⟨-, -, he⟩
  · simp only [he, List.length_append, List.length_singleton, reduceCtorEq, if_false]
    omega
  · simp only [he, if_true, Nat.add_zero]
  · simp only [he, List.length_append, List.length_singleton, reduceCtorEq, if_false]
    omega

theorem submit (h : Tracked app s r)
    (henabled : s.world.Enabled (.submit taskId event request validated))
    (hworld : s'.world = s.world.step (.submit taskId event request validated))
    (htasks : s'.tasks = s.tasks)
    (hlog : s'.log = s.log ++ [.handler i ⟨.submit event request validated,
      (taskId, (s.world.inner.submit (.new taskId event request validated)).feedback)⟩]) :
    Tracked app s' (r.admitTask (ScheduledRun.new taskId event request validated).summary).1 := by
  have hsame : SameTasks s s' := sameTasks_handler htasks hlog
  generalize htask : ScheduledRun.new taskId event request validated = task at *
  have hworld : s'.world = s.world.submit task := by
    rw [hworld, RunWorld.step, htask]
  have haccepted : s'.accepted = s.accepted ++
      if (s.world.inner.submit task).feedback = .queueFull then [] else [task] := by
    rw [accepted, log_filterMap hlog, LogEntry.accepted, htask]
    split_ifs <;> rfl
  have hmono : ∀ t, t ∈ s.accepted → t ∈ s'.accepted := by
    intro t ht
    rw [haccepted]
    exact List.mem_append_left _ ht
  have hnew : task.taskId = taskId := by
    rw [← htask]
    rfl
  constructor
  · rw [hworld]
    exact h.world.submit (hnew ▸ henabled)
  · rw [hsame.spawnedTasks, hworld]
    exact h.spawned
  · simp only [Busy, hworld, htasks]
    exact h.live
  · intro j t p hj
    rw [hsame.taskCalls]
    exact h.calls j t p (htasks ▸ hj)
  · intro t call ht
    rw [hsame.spawnedTasks]
    exact h.logged t call (hsame.log t call ht)
  · rw [submissions, log_filterMap hlog, hworld, RunWorld.submit, ← h.answers, hnew]
    rfl
  · rw [hworld]
    refine (h.known.mono hmono).submit fun hfeedback => ?_
    rw [haccepted, if_neg hfeedback]
    exact List.mem_append_right _ (List.mem_singleton.mpr rfl)
  · intro t ht
    exact hmono t (h.origin t (hsame.spawnedTasks ▸ ht))
  · rw [hsame.terminals, ← h.terminal]
    rcases r.admitTask_cases task.summary with ⟨-, -, -, he⟩ | ⟨-, -, he⟩ | ⟨-, -, he⟩ <;> rw [he]
  · rw [haccepted, List.length_append, ← h.counted, h.counted_submit]
    congr 1
    split_ifs <;> rfl
  · intro c
    rw [haccepted, hsame.spawnedTasks, hworld, h.lanes_submit, h.lanes c, lane_append,
      List.map_append]
    congr 1
    split_ifs <;> rfl
  · rw [htasks]
    exact h.orderly
  · exact hsame.turns h

end Submit

theorem spawn (h : Tracked app s r) (hi : s.world.handedOut[i]? = some task)
    (hworld : s'.world = s.world.step (.spawn i))
    (htasks : s'.tasks = s.tasks ++ [(task, app.runTask task)]) (hlog : s'.log = s.log) :
    Tracked app s' r := by
  have hmem : task ∈ s.world.handedOut := List.mem_of_getElem? hi
  have hworld : s'.world = s.world.spawn i task := by
    rw [hworld, RunWorld.step_spawn hi]
  have hspawned : s'.spawnedTasks = s.spawnedTasks ++ [task] := by
    rw [spawnedTasks, htasks, List.map_append]
    rfl
  have hcalls : ∀ id, s'.taskCalls id = s.taskCalls id := fun id => by
    rw [taskCalls, hlog, taskCalls]
  have haccepted : s'.accepted = s.accepted := by
    rw [accepted, hlog, accepted]
  have hnew : task.taskId ∉ s.world.history.spawned := by
    intro hold
    have hnodup := h.world.handled_nodup
    rw [RunWorld.handled] at hnodup
    exact (List.nodup_append'.mp hnodup).2.2 hold (List.mem_map_of_mem hmem)
  have hempty : s.taskCalls task.taskId = [] := h.taskCalls_eq_nil hnew
  have hstart : ¬ (app.runTask task).Ended := by
    intro hended
    have hcount := (AppState.counts_of_calls (.nil (app.runTask task))).2.1 hended
    cases hcount.1
  constructor
  · rw [hworld]
    exact h.world.spawn hi
  · rw [hspawned, hworld, List.map_append, h.spawned]
    rfl
  · intro t
    rw [hworld, Busy, htasks]
    have hlive : t ∈ (s.world.spawn i task).live ↔ t ∈ s.world.live ∨ t = task := by
      simp [RunWorld.spawn]
    rw [hlive, h.live]
    constructor
    · rintro (⟨j, p, hj, hp⟩ | rfl)
      · have hlt : j < s.tasks.length := (List.getElem?_eq_some_iff.mp hj).1
        exact ⟨j, p, by rwa [List.getElem?_append_left hlt], hp⟩
      · exact ⟨s.tasks.length, _, List.getElem?_concat_length, hstart⟩
    · rintro ⟨j, p, hj, hp⟩
      rcases Pool.thread_concat hj with hold | ⟨-, heq⟩
      · exact .inl ⟨j, p, hold, hp⟩
      · cases heq
        exact .inr rfl
  · intro j t p hj
    rw [hcalls]
    rw [htasks] at hj
    rcases Pool.thread_concat hj with hold | ⟨-, heq⟩
    · exact h.calls j t p hold
    · cases heq
      rw [hempty]
      exact .nil _
  · intro t call ht
    rw [hlog] at ht
    rw [hspawned]
    exact List.mem_append_left _ (h.logged t call ht)
  · rw [submissions, hlog, hworld]
    exact h.answers
  · rw [hworld, haccepted]
    exact h.known.spawn hi
  · intro t ht
    rw [haccepted]
    rw [hspawned] at ht
    rcases List.mem_append.mp ht with ht | ht
    · exact h.origin t ht
    · rw [List.mem_singleton.mp ht]
      exact h.known.inFlight task (List.mem_append_right _ hmem)
  · rw [terminals, hlog]
    exact h.terminal
  · rw [haccepted]
    exact h.counted
  · intro c
    rw [hspawned, hworld, haccepted, RunWorld.spawn, h.lanes_spawn hi, h.lanes c]
  · rw [htasks, List.pairwise_append]
    refine ⟨h.orderly, List.pairwise_singleton _ _, fun thread hthread new hnew heq => ?_⟩
    obtain rfl := List.mem_singleton.mp hnew
    -- Another live task of the conversation would be in flight together with the new one.
    by_contra hbusy
    obtain ⟨j, hj⟩ := List.getElem?_of_mem hthread
    have hlive : thread.1 ∈ s.world.live := (h.live _).mpr ⟨j, thread.2, hj, hbusy⟩
    have hsame : thread.1 = task :=
      h.world.inFlight_inj (List.mem_append_left _ hlive) (List.mem_append_right _ hmem) heq
    exact h.world.notMem_live hmem (hsame ▸ hlive)
  · intro c
    have hturns : s'.conversationCalls c = s.conversationCalls c := by
      rw [conversationCalls, hlog, conversationCalls]
    rw [hturns, h.turns c, hspawned, lane_append_singleton]
    simp only [hcalls]
    split_ifs with hc
    · rw [List.flatMap_append, List.flatMap_singleton, hempty, List.map_nil, List.append_nil]
    · rfl

section Work

variable {op : TaskOp} {next : op.Result → TaskM Unit} {answer : op.Result}

theorem taskCalls_work (hlog : s'.log = s.log ++ [.task task ⟨op, answer⟩]) (id : String) :
    s'.taskCalls id = s.taskCalls id ++ if task.taskId = id then [⟨op, answer⟩] else [] := by
  rw [taskCalls, log_filterMap hlog, LogEntry.taskCall]
  split_ifs <;> rfl

/-- The call of a task comes behind the earlier ones of its conversation. -/
theorem turns_work (h : Tracked app s r) (hi : s.tasks[i]? = some (task, p)) (hp : ¬ p.Ended)
    (hspawned : s'.spawnedTasks = s.spawnedTasks)
    (hlog : s'.log = s.log ++ [.task task ⟨op, answer⟩]) (c : String) :
    s'.conversationCalls c = (lane ScheduledRun.conversationKey c s'.spawnedTasks).flatMap
      fun task => (s'.taskCalls task.taskId).map (task, ·) := by
  have hothers : ∀ {l : List ScheduledRun}, l ⊆ s.spawnedTasks → task ∉ l →
      (l.flatMap fun t => (s'.taskCalls t.taskId).map (t, ·)) =
        l.flatMap fun t => (s.taskCalls t.taskId).map (t, ·) := by
    intro l hl hnot
    refine List.flatMap_congr fun t ht => ?_
    have hne : task.taskId ≠ t.taskId := fun heq =>
      hnot (h.task_eq (mem_spawned hi) (hl ht) heq ▸ ht)
    rw [taskCalls_work hlog, if_neg hne, List.append_nil]
  rw [conversationCalls, log_filterMap hlog, hspawned, ← conversationCalls, h.turns c]
  by_cases hc : task.conversationKey = c
  · -- The task is the last one of its conversation, so its calls are the last ones.
    subst hc
    obtain ⟨before, hlane, hsub, hnot⟩ := h.lane_of_busy hi hp
    have hentry : (LogEntry.task task ⟨op, answer⟩).conversationCall task.conversationKey =
        some (task, ⟨op, answer⟩) := if_pos rfl
    rw [hlane, List.flatMap_append, List.flatMap_append, hothers hsub hnot, List.flatMap_singleton,
      List.flatMap_singleton, taskCalls_work hlog, if_pos rfl, List.map_append, hentry,
      ← List.append_assoc]
    rfl
  · have hnot : task ∉ lane ScheduledRun.conversationKey c s.spawnedTasks := fun ht =>
      hc (mem_lane.mp ht).2
    have hentry : (LogEntry.task task ⟨op, answer⟩).conversationCall c = none := if_neg hc
    rw [hothers (fun t ht => (mem_lane.mp ht).1) hnot, hentry]
    exact List.append_nil _

/-- What the step of a task keeps, whatever it does to the scheduler. -/
structure Worked (app : AppState) (s s' : PipelineState) : Prop where
  spawnedTasks : s'.spawnedTasks = s.spawnedTasks
  submissions : s'.submissions = s.submissions
  accepted : s'.accepted = s.accepted
  calls : ∀ (i : ℕ) task p, s'.tasks[i]? = some (task, p) →
    Program.Calls (app.runTask task) (s'.taskCalls task.taskId) p
  logged : ∀ task call, LogEntry.task task call ∈ s'.log → task ∈ s.spawnedTasks
  orderly : s'.tasks.Pairwise fun earlier later =>
    earlier.1.conversationKey = later.1.conversationKey → earlier.2.Ended
  turns : ∀ c, s'.conversationCalls c = (lane ScheduledRun.conversationKey c s'.spawnedTasks).flatMap
    fun task => (s'.taskCalls task.taskId).map (task, ·)

theorem worked (h : Tracked app s r) (hi : s.tasks[i]? = some (task, .call op next))
    (htasks : s'.tasks = s.tasks.set i (task, next answer))
    (hlog : s'.log = s.log ++ [.task task ⟨op, answer⟩]) : Worked app s s' := by
  have hspawned : s'.spawnedTasks = s.spawnedTasks := by
    rw [spawnedTasks, htasks, spawnedTasks_set hi]
  refine ⟨hspawned, ?_, ?_, fun j t p hj => ?_, fun t call ht => ?_, ?_, ?_⟩
  · rw [submissions, log_filterMap hlog]
    exact List.append_nil _
  · rw [accepted, log_filterMap hlog]
    exact List.append_nil _
  · rw [htasks] at hj
    rw [taskCalls_work hlog]
    rcases Pool.thread_set hi hj with ⟨rfl, heq⟩ | ⟨hne, hold⟩
    · cases heq
      rw [if_pos rfl]
      exact (h.calls _ _ _ hi).snoc answer
    · have hid : task.taskId ≠ t.taskId := by
        intro heq
        obtain rfl : task = t := h.task_eq (mem_spawned hi) (mem_spawned hold) heq
        exact hne (h.index_eq hold hi)
      rw [if_neg hid, List.append_nil]
      exact h.calls j t p hold
  · rw [hlog] at ht
    rcases List.mem_append.mp ht with ht | ht
    · exact h.logged t call ht
    · cases List.mem_singleton.mp ht
      exact mem_spawned hi
  · rw [htasks]
    exact h.orderly_set hi id
  · exact h.turns_work hi id hspawned hlog

/-- The calls of a task before its last one do not concern the scheduler. -/
theorem work (h : Tracked app s r) (hi : s.tasks[i]? = some (task, .call op next))
    (hop : op.isFinish = false) (hworld : s'.world = s.world)
    (htasks : s'.tasks = s.tasks.set i (task, next answer))
    (hlog : s'.log = s.log ++ [.task task ⟨op, answer⟩]) : Tracked app s' r := by
  have hw := h.worked hi htasks hlog
  have hnext : ¬ (next answer).Ended := AppState.not_ended_of_call (h.calls _ _ _ hi) hop
  refine ⟨?_, ?_, fun t => ?_, hw.calls, ?_, ?_, ?_, ?_, ?_, ?_, ?_, hw.orderly, hw.turns⟩
  · exact hworld ▸ h.world
  · rw [hw.spawnedTasks, hworld]
    exact h.spawned
  · rw [hworld, h.live, h.busy_set hi htasks]
    constructor
    · intro hbusy
      by_cases heq : t = task
      · exact .inl ⟨heq, hnext⟩
      · exact .inr ⟨heq, hbusy⟩
    · rintro (⟨rfl, -⟩ | ⟨-, hbusy⟩)
      · exact ⟨i, _, hi, id⟩
      · exact hbusy
  · rw [hw.spawnedTasks]
    exact hw.logged
  · rw [hw.submissions, hworld]
    exact h.answers
  · rw [hw.accepted, hworld]
    exact h.known
  · rw [hw.accepted, hw.spawnedTasks]
    exact h.origin
  · rw [h.terminal, terminals, terminals, log_filterMap hlog]
    cases op with
    | finish terminal summary => cases hop
    | deliver _ | callRunner _ _ | runnerReturned => exact (List.append_nil _).symm
  · rw [hw.accepted]
    exact h.counted
  · rw [hw.accepted, hw.spawnedTasks, hworld]
    exact h.lanes

end Work

theorem finish (h : Tracked app s r) {state : TerminalState} {summary : Option String}
    {next : Unit → TaskM Unit} {j : ℕ}
    (hi : s.tasks[i]? = some (task, .call (.finish state summary) next))
    (hlive : s.world.live[j]? = some task)
    (hworld : s'.world = s.world.step (.finish j state summary))
    (htasks : s'.tasks = s.tasks.set i (task, next ()))
    (hlog : s'.log = s.log ++ [.task task ⟨.finish state summary, ()⟩]) :
    Tracked app s' (r.finish task.summary.conversationKey state summary).1 := by
  have hw := h.worked hi htasks hlog
  have hnext : next () = .ret () := AppState.ended_of_finish (h.calls _ _ _ hi)
  have hmem : task ∈ s.world.inFlight := List.mem_append_left _ (List.mem_of_getElem? hlive)
  have hworld : s'.world = s.world.finish j task state summary := by
    rw [hworld, RunWorld.step_finish hlive]
  refine ⟨?_, ?_, fun t => ?_, hw.calls, ?_, ?_, ?_, ?_, ?_, ?_, fun c => ?_, hw.orderly, hw.turns⟩
  · rw [hworld]
    exact h.world.finish hlive state summary
  · rw [hw.spawnedTasks, hworld]
    exact h.spawned
  · have hrest : t ∈ s'.world.live ↔ t ∈ s.world.live.eraseIdx j := by
      rw [hworld]
      rfl
    rw [hrest, h.world.mem_live_finish hlive, h.live, h.busy_set hi htasks, hnext]
    constructor
    · rintro ⟨hbusy, hne⟩
      exact .inr ⟨hne, hbusy⟩
    · rintro (⟨-, hend⟩ | ⟨hne, hbusy⟩)
      · exact absurd trivial hend
      · exact ⟨hbusy, hne⟩
  · rw [hw.spawnedTasks]
    exact hw.logged
  · rw [hw.submissions, hworld]
    exact h.answers
  · rw [hw.accepted, hworld]
    exact h.known.finish j task state summary
  · rw [hw.accepted, hw.spawnedTasks]
    exact h.origin
  · obtain ⟨f, hf, hkey, hterminal⟩ :=
      ReferenceScheduler.terminal_finish (h.world.mem_conversations hmem) state summary
    have hsame : f = task.summary :=
      List.inj_on_of_nodup_map h.world.reference.nodup hf (h.world.mem_running hmem) hkey
    rw [hterminal, h.terminal, terminals, terminals, log_filterMap hlog, hsame]
    rfl
  · obtain ⟨f, rest, -, hrun, hrun', hwait⟩ :=
      ReferenceScheduler.finish_moves state summary (h.world.mem_conversations hmem)
    obtain ⟨g, -, -, hterminal⟩ :=
      ReferenceScheduler.terminal_finish (h.world.mem_conversations hmem) state summary
    have hcounted := h.counted
    rw [hrun.length_eq, hwait.length_eq, List.length_cons, List.length_append] at hcounted
    rw [hw.accepted, hrun'.length_eq, hterminal, List.length_append, List.length_append,
      List.length_singleton]
    omega
  · rw [hw.accepted, hw.spawnedTasks, ← h.lanes c, ← h.lanes_finish hmem state summary, hworld,
      RunWorld.finish, ← List.append_assoc, lane_append, List.map_append, List.append_assoc]

theorem move (h : Tracked app s r) (hmove : TaskMove app s s') : ∃ r', Tracked app s' r' := by
  cases hmove with
  | spawn hi => exact ⟨r, h.spawn hi rfl rfl rfl⟩
  | work hi hstep =>
    cases hstep with
    | finish hlive => exact ⟨_, h.finish hi hlive rfl rfl rfl⟩
    | deliver _ _ | callRunner _ _ | runnerReturned _ => exact ⟨r, h.work hi rfl rfl rfl rfl⟩

theorem step (h : Tracked app s r) (hst : PipelineStep app s s') : ∃ r', Tracked app s' r' := by
  cases hst with
  | receive request =>
    exact ⟨r, h.world, h.spawned, h.live, h.calls, h.logged, h.answers, h.known, h.origin,
      h.terminal, h.counted, h.lanes, h.orderly, h.turns⟩
  | handle hi hstep =>
    cases hstep with
    | submit henabled => exact ⟨_, h.submit henabled rfl rfl rfl⟩
    | maybePurgeExpiredHistory | mirrorHistoryEvent _ _ | snapshot | deliver _ _ =>
      exact ⟨r, h.handle rfl rfl rfl rfl⟩
  | move hmove => exact h.move hmove

end Tracked

/-- In every state that the pipeline reaches, the scheduler and the log agree with the threads. -/
theorem tracked {m d : ℕ} (h : Reachable (PipelineStep app) (init m d) s) :
    ∃ r, Tracked app s r := by
  induction h with
  | refl => exact ⟨_, tracked_init app m d⟩
  | tail _ hst ih =>
    obtain ⟨r, hr⟩ := ih
    exact hr.step hst

end PipelineState

end DogBot
