import DogBot.Library.Draining
import DogBot.Server.Turns

/-! # Exactly once

A busy task can always make a step, and the tasks cannot make steps forever. When
they have come to rest, every task that was accepted has called the runner once
and has finished, and a task that was rejected has done nothing.
-/

namespace DogBot

open Arrival (lane mem_lane)

namespace PipelineState

variable {app : AppState} {s s' : PipelineState} {r : ReferenceScheduler} {i : ℕ}
  {task : ScheduledRun} {p : TaskM Unit} {id : String}

namespace Tracked

theorem length_spawnedTasks (h : Tracked app s r) : s.spawnedTasks.length ≤ s.accepted.length := by
  have hnodup : s.spawnedTasks.Nodup := List.Nodup.of_map _ h.spawned_nodup
  exact (List.subperm_of_subset hnodup h.origin).length_le

/-- The moves of the tasks spawn a task that was not spawned, or shorten what is left of one. -/
theorem move_advances (h : Tracked app s r) (hmove : TaskMove app s s') :
    s'.accepted.length - s'.spawnedTasks.length < s.accepted.length - s.spawnedTasks.length ∨
      s'.accepted.length - s'.spawnedTasks.length = s.accepted.length - s.spawnedTasks.length ∧
        Program.Advance (s'.tasks.map Prod.snd) (s.tasks.map Prod.snd) := by
  obtain ⟨r', h'⟩ := h.move hmove
  have hle := h'.length_spawnedTasks
  cases hmove with
  | @spawn i task hi =>
    have hspawned : ∀ w, spawnedTasks { s with
        world := w, tasks := s.tasks ++ [(task, app.runTask task)] } = s.spawnedTasks ++ [task] :=
      fun w => List.map_append
    have haccepted : ∀ w tasks, accepted { s with world := w, tasks } = s.accepted :=
      fun _ _ => rfl
    rw [hspawned, haccepted, List.length_append, List.length_singleton] at hle ⊢
    omega
  | @work i task op next answer world hi hstep =>
    have hw : Worked app s { s with
        world
        tasks := s.tasks.set i (task, next answer)
        log := s.log ++ [.task task ⟨op, answer⟩] } := h.worked hi rfl rfl
    refine .inr ⟨by rw [hw.accepted, hw.spawnedTasks], i, .call op next, next answer, ?_, ?_, ?_⟩
    · rw [List.getElem?_map, hi]
      rfl
    · exact .call next answer
    · exact List.map_set

/-- The moves of the tasks come to an end. -/
theorem drains (h : Tracked app s r) (f : ℕ → PipelineState) (hf : f 0 = s) :
    ∃ n, ¬ TaskMove app (f n) (f (n + 1)) := by
  refine Program.exists_not_step (fun s : PipelineState => ∃ r, Tracked app s r)
    (fun s => s.accepted.length - s.spawnedTasks.length) (fun s => s.tasks.map Prod.snd)
    ?_ ?_ f (hf ▸ ⟨r, h⟩)
  · rintro s s' ⟨r, hr⟩ hmove
    exact hr.move hmove
  · rintro s s' ⟨r, hr⟩ hmove
    exact hr.move_advances hmove

/-- If no task can make a move, none is about to be spawned, and none is busy. -/
theorem idle_of_no_move (h : Tracked app s r) (hrest : ∀ s', ¬ TaskMove app s s') :
    s.world.handedOut = [] ∧ ∀ task, ¬ s.Busy task := by
  constructor
  · by_contra hne
    obtain ⟨task, ht⟩ := List.exists_mem_of_ne_nil _ hne
    obtain ⟨i, hi⟩ := List.getElem?_of_mem ht
    exact hrest _ (.spawn hi)
  · rintro task ⟨i, p, hi, hp⟩
    obtain ⟨a, rfl⟩ | ⟨op, next, rfl⟩ := p.cases
    · exact hp trivial
    · exact hrest _ (h.move_work hi)

theorem spawned_of_no_move (h : Tracked app s r) (hrest : ∀ s', ¬ TaskMove app s s')
    (ht : task ∈ s.accepted) : task ∈ s.spawnedTasks := by
  obtain ⟨hnone, hidle⟩ := h.idle_of_no_move hrest
  have hfly : s.world.inFlight = [] := by
    rw [RunWorld.inFlight, hnone, List.append_nil, List.eq_nil_iff_forall_not_mem]
    exact fun t hlive => hidle t ((h.live t).mp hlive)
  have hwaiting : r.waiting = [] := by
    rw [List.eq_nil_iff_forall_not_mem]
    intro t hwait
    exact h.world.conserved.settled hfly t.taskId (h.world.mem_payloads.mpr ⟨t, hwait, rfl⟩)
  have hlanes := h.lanes task.conversationKey
  rw [hnone, hwaiting, List.append_nil, Arrival.lane_nil, List.append_nil] at hlanes
  have hmem : task.summary ∈ (lane ScheduledRun.conversationKey task.conversationKey
      s.spawnedTasks).map ScheduledRun.summary := by
    rw [hlanes]
    exact List.mem_map_of_mem (mem_lane.mpr ⟨ht, rfl⟩)
  obtain ⟨t, hlane, hsummary⟩ := List.mem_map.mp hmem
  have hspawned : t ∈ s.spawnedTasks := (mem_lane.mp hlane).1
  rwa [← h.accepted_eq (h.origin t hspawned) ht (congrArg TaskSummary.taskId hsummary)]

theorem taskCalls_of_not_spawned (h : Tracked app s r)
    (hid : ∀ task ∈ s.spawnedTasks, task.taskId ≠ id) : s.taskCalls id = [] := by
  rw [taskCalls, List.filterMap_eq_nil_iff]
  rintro (⟨k, call⟩ | ⟨task', call⟩) hentry
  · rfl
  · rw [LogEntry.taskCall, if_neg (hid task' (h.logged task' call hentry))]

theorem counts_le (h : Tracked app s r) (id : String) :
    AppState.runs (s.taskCalls id) ≤ 1 ∧ AppState.finishes (s.taskCalls id) ≤ 1 := by
  by_cases hspawned : ∃ task ∈ s.spawnedTasks, task.taskId = id
  · obtain ⟨task, ht, rfl⟩ := hspawned
    rcases h.complete_or_unfinished ht with ⟨_, _, _, _, _, hfinished⟩ | hunfinished
    · exact ⟨hfinished.counts.1.le, hfinished.counts.2.le⟩
    · exact ⟨hunfinished.counts.1, hunfinished.counts.2.le.trans (Nat.zero_le 1)⟩
  · push Not at hspawned
    rw [h.taskCalls_of_not_spawned hspawned]
    exact ⟨Nat.zero_le 1, Nat.zero_le 1⟩

theorem taskCalls_of_rejected (h : Tracked app s r) (hid : (id, .queueFull) ∈ s.submissions) :
    s.taskCalls id = [] := by
  apply h.taskCalls_of_not_spawned
  rintro task ht rfl
  obtain ⟨entry, hentry, haccepted⟩ := List.mem_filterMap.mp (h.origin task ht)
  obtain ⟨feedback, hsubmission, hne⟩ := submission_of_accepted haccepted
  have hother : (task.taskId, feedback) ∈ s.submissions :=
    List.mem_filterMap.mpr ⟨entry, hentry, hsubmission⟩
  have hnodup : (s.submissions.map Prod.fst).Nodup := h.answers ▸ h.world.fresh
  exact hne (congrArg Prod.snd (List.inj_on_of_nodup_map hnodup hother hid rfl))

end Tracked

/-- What becomes of the submissions. That their ids are distinct is the freshness of new ids, and that
those not rejected are accepted is how both are read off the log. -/
structure ExactlyOnce (app : AppState) (s : PipelineState) : Prop where
  distinct : (s.submissions.map Prod.fst).Nodup
  accepted : ∀ id feedback, (id, feedback) ∈ s.submissions → feedback ≠ .queueFull →
    ∃ task ∈ s.accepted, task.taskId = id
  rejected : ∀ id, (id, .queueFull) ∈ s.submissions → s.taskCalls id = []
  /-- At no moment has a task called the runner twice, or finished twice. -/
  atMostOnce : ∀ id, AppState.runs (s.taskCalls id) ≤ 1 ∧ AppState.finishes (s.taskCalls id) ≤ 1
  /-- The tasks come to rest in every order of their moves, with any answers. -/
  drains : ∀ f : ℕ → PipelineState, f 0 = s → ∃ n, ¬ TaskMove app (f n) (f (n + 1))
  /-- At rest, every accepted task has done everything, which includes one call of the runner. -/
  complete : (∀ s', ¬ TaskMove app s s') → ∀ task ∈ s.accepted,
    app.Complete task (s.taskCalls task.taskId) ∧ AppState.runs (s.taskCalls task.taskId) = 1 ∧
      AppState.finishes (s.taskCalls task.taskId) = 1

/-- In every interleaving of requests, handlers and tasks, a task that was accepted is run exactly
once, and a task that was rejected is never run. -/
theorem accepted_tasks_run_exactly_once {m d : ℕ}
    (h : Reachable (PipelineStep app) (init m d) s) : ExactlyOnce app s := by
  obtain ⟨r, hr⟩ := tracked h
  refine ⟨hr.answers ▸ hr.world.fresh, ?_, fun id hid => hr.taskCalls_of_rejected hid,
    hr.counts_le, hr.drains, ?_⟩
  · intro id feedback hmem hne
    obtain ⟨entry, hentry, hsubmission⟩ := List.mem_filterMap.mp hmem
    rcases Tracked.mem_accepted hsubmission with ⟨task, haccepted, hid, -⟩ | ⟨-, hfull⟩
    · exact ⟨task, List.mem_filterMap.mpr ⟨entry, hentry, haccepted⟩, hid⟩
    · exact absurd hfull hne
  · intro hrest task ht
    have hcomplete := hr.complete (hr.spawned_of_no_move hrest ht)
      ((hr.idle_of_no_move hrest).2 task)
    obtain ⟨start, result, answered, terminal, terminalSummary, hfinished⟩ := hcomplete
    exact ⟨⟨_, _, _, _, _, hfinished⟩, hfinished.counts⟩

theorem accepted_tasks_run_exactly_once_contended : ExactlyOnce qqApp contended :=
  accepted_tasks_run_exactly_once reachable_contended

end PipelineState

end DogBot
