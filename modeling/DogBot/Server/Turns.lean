import DogBot.Server.Schedule

/-! # Turns

The tasks of a conversation take turns: one begins after the earlier ones have
ended, in the order in which they were submitted.
-/

namespace DogBot

open Arrival (lane mem_lane)

theorem map_inj_of {α β : Type*} {f : α → β} {l l' : List α} (h : l.map f = l'.map f)
    (hinj : ∀ a ∈ l, ∀ a' ∈ l', f a = f a' → a = a') : l = l' := by
  induction l generalizing l' with
  | nil => exact (List.map_eq_nil_iff.mp h.symm).symm
  | cons a l ih =>
    cases l' with
    | nil => cases h
    | cons a' l' =>
      rw [List.map_cons, List.map_cons, List.cons.injEq] at h
      rw [hinj a (List.mem_cons_self ..) a' (List.mem_cons_self ..) h.1, ih h.2 fun b hb b' hb' =>
        hinj b (List.mem_cons_of_mem _ hb) b' (List.mem_cons_of_mem _ hb')]

namespace PipelineState

variable {app : AppState} {s : PipelineState} {r : ReferenceScheduler} {task task' : ScheduledRun}

namespace Tracked

theorem mem_accepted {entry : LogEntry} {taskId : String} {feedback : ScheduleFeedback}
    (h : entry.submission = some (taskId, feedback)) :
    (∃ task, entry.accepted = some task ∧ task.taskId = taskId ∧ feedback ≠ .queueFull) ∨
      entry.accepted = none ∧ feedback = .queueFull := by
  obtain ⟨i, op, answer⟩ | ⟨task, call⟩ := entry
  · cases op with
    | submit event request validated =>
      obtain ⟨taskId', feedback'⟩ := answer
      cases h
      rw [LogEntry.accepted]
      split_ifs with hfull
      · exact .inr ⟨rfl, hfull⟩
      · exact .inl ⟨_, rfl, rfl, hfull⟩
    | maybePurgeExpiredHistory | mirrorHistoryEvent _ | snapshot | deliver _ => cases h
  · cases h

theorem submission_of_accepted {entry : LogEntry} {task : ScheduledRun}
    (h : entry.accepted = some task) :
    ∃ feedback, entry.submission = some (task.taskId, feedback) ∧ feedback ≠ .queueFull := by
  obtain ⟨i, op, answer⟩ | ⟨task', call⟩ := entry
  · cases op with
    | submit event request validated =>
      obtain ⟨taskId, feedback⟩ := answer
      rw [LogEntry.accepted] at h
      split_ifs at h with hfull
      cases h
      exact ⟨feedback, rfl, hfull⟩
    | maybePurgeExpiredHistory | mirrorHistoryEvent _ | snapshot | deliver _ => cases h
  · cases h

theorem accepted_sublist (s : PipelineState) :
    (s.accepted.map ScheduledRun.taskId).Sublist (s.submissions.map Prod.fst) := by
  rw [accepted, submissions]
  induction s.log with
  | nil => exact .slnil
  | cons entry log ih =>
    rw [List.filterMap_cons, List.filterMap_cons]
    cases haccepted : entry.accepted with
    | none =>
      cases entry.submission with
      | none => exact ih
      | some answer => exact ih.cons _
    | some task =>
      obtain ⟨feedback, hsubmission, -⟩ := submission_of_accepted haccepted
      rw [hsubmission]
      exact ih.cons_cons _

theorem accepted_nodup (h : Tracked app s r) : (s.accepted.map ScheduledRun.taskId).Nodup := by
  have hfresh := h.world.fresh
  rw [← h.answers] at hfresh
  exact hfresh.sublist (accepted_sublist s)

theorem accepted_eq (h : Tracked app s r) (ht : task ∈ s.accepted) (ht' : task' ∈ s.accepted)
    (hid : task.taskId = task'.taskId) : task = task' :=
  List.inj_on_of_nodup_map h.accepted_nodup ht ht' hid

/-- The tasks of a conversation are spawned in the order of their submissions. -/
theorem lane_prefix (h : Tracked app s r) (c : String) :
    lane ScheduledRun.conversationKey c s.spawnedTasks <+:
      lane ScheduledRun.conversationKey c s.accepted := by
  have hlanes := h.lanes c
  rw [lane_append, List.map_append, List.append_assoc] at hlanes
  have htake := congrArg (List.take (lane ScheduledRun.conversationKey c s.spawnedTasks).length) hlanes
  rw [List.take_left' (List.length_map _), ← List.map_take] at htake
  have hinj : ∀ t ∈ lane ScheduledRun.conversationKey c s.spawnedTasks,
      ∀ t' ∈ lane ScheduledRun.conversationKey c s.accepted, t.summary = t'.summary → t = t' := by
    intro t ht t' ht' heq
    exact h.accepted_eq (h.origin t (mem_lane.mp ht).1) (mem_lane.mp ht').1
      (congrArg TaskSummary.taskId heq)
  rw [List.prefix_iff_eq_take]
  refine map_inj_of htake fun t ht t' ht' => hinj t ht t' (List.mem_of_mem_take ht')

end Tracked

namespace Tracked

theorem complete (h : Tracked app s r) (ht : task ∈ s.spawnedTasks) (hbusy : ¬ s.Busy task) :
    app.Complete task (s.taskCalls task.taskId) := by
  obtain ⟨⟨_, p⟩, hthread, rfl⟩ := List.mem_map.mp ht
  obtain ⟨i, hi⟩ := List.getElem?_of_mem hthread
  rcases AppState.calls_runTask (h.calls i _ p hi) with ⟨⟨op, next, rfl⟩, -⟩ | ⟨-, hcomplete⟩
  · exact absurd ⟨i, _, hi, id⟩ hbusy
  · exact hcomplete

theorem complete_or_unfinished (h : Tracked app s r) (ht : task ∈ s.spawnedTasks) :
    app.Complete task (s.taskCalls task.taskId) ∨
      AppState.Unfinished task (s.taskCalls task.taskId) := by
  obtain ⟨⟨_, p⟩, hthread, rfl⟩ := List.mem_map.mp ht
  obtain ⟨i, hi⟩ := List.getElem?_of_mem hthread
  rcases AppState.calls_runTask (h.calls i _ p hi) with ⟨-, hunfinished⟩ | ⟨-, hcomplete⟩
  · exact .inr hunfinished
  · exact .inl hcomplete

theorem not_busy_of_mem_dropLast (h : Tracked app s r) {c : String}
    (ht : task ∈ (lane ScheduledRun.conversationKey c s.spawnedTasks).dropLast) :
    ¬ s.Busy task := by
  rintro ⟨i, p, hi, hp⟩
  obtain ⟨before, hlane, -, hnot⟩ := h.lane_of_busy hi hp
  obtain rfl := (mem_lane.mp (List.mem_of_mem_dropLast ht)).2
  rw [hlane, List.dropLast_concat] at ht
  exact hnot ht

end Tracked

structure TakesTurns (app : AppState) (s : PipelineState) (c : String) : Prop where
  /-- They begin in the order in which they were submitted. -/
  order : lane ScheduledRun.conversationKey c s.spawnedTasks <+:
    lane ScheduledRun.conversationKey c s.accepted
  /-- One after the other, and none before the earlier ones have done everything. -/
  turns : ∃ turns : List (ScheduledRun × List TaskCall),
    turns.map Prod.fst = lane ScheduledRun.conversationKey c s.spawnedTasks ∧
      s.conversationCalls c = turns.flatMap (fun turn => turn.2.map (turn.1, ·)) ∧
      (∀ turn ∈ turns.dropLast, app.Complete turn.1 turn.2) ∧
      ∀ turn ∈ turns.getLast?, app.Complete turn.1 turn.2 ∨ AppState.Unfinished turn.1 turn.2

/-- In every interleaving of requests, handlers and tasks, the tasks of a conversation take turns:
their reactions, runs and deliveries are not mixed, and their order is that of the submissions. -/
theorem tasks_take_turns {m d : ℕ} (h : Reachable (PipelineStep app) (init m d) s) (c : String) :
    TakesTurns app s c := by
  obtain ⟨r, hr⟩ := tracked h
  refine ⟨hr.lane_prefix c, (lane ScheduledRun.conversationKey c s.spawnedTasks).map
    fun task => (task, s.taskCalls task.taskId), ?_, ?_, ?_, ?_⟩
  · rw [List.map_map]
    exact List.map_id _
  · rw [hr.turns c, List.flatMap_map]
  · intro turn hturn
    rw [← List.map_dropLast] at hturn
    obtain ⟨task, htask, rfl⟩ := List.mem_map.mp hturn
    exact hr.complete (mem_lane.mp (List.mem_of_mem_dropLast htask)).1
      (hr.not_busy_of_mem_dropLast htask)
  · intro turn hturn
    obtain ⟨task, htask, rfl⟩ := List.mem_map.mp (List.mem_of_getLast? hturn)
    exact hr.complete_or_unfinished (mem_lane.mp htask).1

theorem tasks_take_turns_contended :
    TakesTurns qqApp contended "qq:bot_uin:123::qq:private:1" :=
  tasks_take_turns reachable_contended _

end PipelineState

end DogBot
