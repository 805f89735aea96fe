import DogBot.Library.Concurrent
import DogBot.Server.Conservation
import DogBot.Server.Exclusivity
import DogBot.Server.TaskRuns

/-! # Threads and their logs

The log of the pipeline contains the calls of all handlers and tasks. The calls
of one thread in it are those of its program, and the scheduler agrees with the
threads: the spawned tasks are the tasks with a thread, the live ones are those
whose thread has not ended, and each of them was accepted by a submission.
-/

namespace DogBot

open Arrival (lane)

def HandlerOp.isSubmit : HandlerOp → Bool
  | submit _ _ _ => true
  | _ => false

namespace LogEntry

def taskCall (id : String) : LogEntry → Option TaskCall
  | .task run call => if run.taskId = id then some call else none
  | .handler _ _ => none

/-- The call of a task for a conversation, with the task. -/
def conversationCall (c : String) : LogEntry → Option (ScheduledRun × TaskCall)
  | .task run call => if run.summary.conversationKey = c then some (run, call) else none
  | .handler _ _ => none

def handlerCall (i : ℕ) : LogEntry → Option HandlerCall
  | .handler j call => if j = i then some call else none
  | .task _ _ => none

def submission : LogEntry → Option (String × ScheduleFeedback)
  | .handler _ ⟨.submit _ _ _, answer⟩ => some answer
  | _ => none

/-- The task of a submission that was not rejected. -/
def accepted : LogEntry → Option ScheduledRun
  | .handler _ ⟨.submit event request validated, (taskId, feedback)⟩ =>
    if feedback = .queueFull then none else some (.new taskId event request validated)
  | _ => none

def terminal : LogEntry → Option TerminalSummary
  | .task run ⟨.finish state summary, _⟩ =>
    some { taskId := run.taskId, conversationKey := run.summary.conversationKey, state, summary }
  | _ => none

end LogEntry

/-- The conversation that a task is scheduled under. -/
def ScheduledRun.conversationKey (run : ScheduledRun) : String := run.summary.conversationKey

namespace PipelineState

variable (s : PipelineState)

def taskCalls (id : String) : List TaskCall := s.log.filterMap (LogEntry.taskCall id)

def conversationCalls (c : String) : List (ScheduledRun × TaskCall) :=
  s.log.filterMap (LogEntry.conversationCall c)

def handlerCalls (i : ℕ) : List HandlerCall := s.log.filterMap (LogEntry.handlerCall i)

def submissions : List (String × ScheduleFeedback) := s.log.filterMap LogEntry.submission

/-- The tasks that were accepted, in the order of their submissions. -/
def accepted : List ScheduledRun := s.log.filterMap LogEntry.accepted

def terminals : List TerminalSummary := s.log.filterMap LogEntry.terminal

def spawnedTasks : List ScheduledRun := s.tasks.map Prod.fst

end PipelineState

theorem ScheduleFeedback.started_ne_queueFull : started ≠ queueFull := by simp

theorem ScheduleFeedback.queued_ne_queueFull (k : ℕ) : queued k ≠ queueFull := by simp

section World

variable {w : RunWorld} {r : ReferenceScheduler} {P : ScheduledRun → Prop}

/-- What holds of all tasks that the scheduler knows. -/
structure RunWorld.Forall (P : ScheduledRun → Prop) (w : RunWorld) : Prop where
  inFlight : ∀ task ∈ w.inFlight, P task
  payloads : ∀ id task, w.inner.queuedPayloads.lookup id = some task → P task

namespace RunWorld.Forall

theorem mono {Q : ScheduledRun → Prop} (h : w.Forall P) (hPQ : ∀ task, P task → Q task) :
    w.Forall Q :=
  ⟨fun task ht => hPQ task (h.inFlight task ht), fun id task hl => hPQ task (h.payloads id task hl)⟩

theorem submit {task : ScheduledRun} (h : w.Forall P)
    (hP : (w.inner.submit task).feedback ≠ .queueFull → P task) : (w.submit task).Forall P := by
  obtain ⟨-, -, ⟨hf, hs, hp⟩ | ⟨⟨k, hf⟩, hs, hp⟩ | ⟨-, hs, hi⟩⟩ := w.inner.submit_cases task
  · constructor
    · intro t ht
      rw [RunWorld.inFlight, RunWorld.submit, hs, ← List.append_assoc] at ht
      rcases List.mem_append.mp ht with ht | ht
      · exact h.inFlight t ht
      · rw [List.mem_singleton.mp ht]
        exact hP (hf ▸ ScheduleFeedback.started_ne_queueFull)
    · rw [RunWorld.submit, hp]
      exact h.payloads
  · constructor
    · intro t ht
      rw [RunWorld.inFlight, RunWorld.submit, hs, Option.toList_none, List.append_nil] at ht
      exact h.inFlight t ht
    · intro id t hl
      rw [RunWorld.submit, hp, AList.lookup_insert'] at hl
      split_ifs at hl
      · rw [← Option.some.inj hl]
        exact hP (hf ▸ ScheduleFeedback.queued_ne_queueFull k)
      · exact h.payloads id t hl
  · constructor
    · intro t ht
      rw [RunWorld.inFlight, RunWorld.submit, hs, Option.toList_none, List.append_nil] at ht
      exact h.inFlight t ht
    · rw [RunWorld.submit, hi]
      exact h.payloads

theorem spawn {i : ℕ} {task : ScheduledRun} (h : w.Forall P) (hi : w.handedOut[i]? = some task) :
    (w.spawn i task).Forall P := by
  refine ⟨fun t ht => h.inFlight t ?_, h.payloads⟩
  have hperm : (w.spawn i task).inFlight.Perm w.inFlight := by
    simp only [RunWorld.inFlight, RunWorld.spawn, List.append_assoc, List.singleton_append]
    exact (perm_cons_eraseIdx hi).symm.append_left _
  exact hperm.mem_iff.mp ht

theorem finish (h : w.Forall P) (i : ℕ) (task : ScheduledRun) (terminal : TerminalState)
    (terminalSummary : Option String) : (w.finish i task terminal terminalSummary).Forall P := by
  obtain ⟨htaken, hstay⟩ := @removePayloads_forall P
    (w.inner.state.finish task.summary.conversationKey terminal terminalSummary).2 _ h.payloads
  refine ⟨fun t ht => ?_, hstay⟩
  rcases List.mem_append.mp ht with ht | ht
  · exact h.inFlight t (List.mem_append_left _ (List.mem_of_mem_eraseIdx ht))
  · rcases List.mem_append.mp ht with ht | ht
    · exact h.inFlight t (List.mem_append_right _ ht)
    · exact htaken t ht

end RunWorld.Forall

namespace RunWorld.Inv

theorem handled_nodup (h : w.Inv r) : w.handled.Nodup := by
  refine h.handled.nodup_iff.mpr (h.nodup.sublist ?_)
  exact ((List.sublist_append_right _ _).trans (List.sublist_append_left _ _)).append_left _

theorem inFlight_inj (h : w.Inv r) {task task' : ScheduledRun} (ht : task ∈ w.inFlight)
    (ht' : task' ∈ w.inFlight)
    (hkey : task.summary.conversationKey = task'.summary.conversationKey) : task = task' :=
  List.inj_on_of_nodup_map h.conserved.exclusive ht ht' hkey

theorem live_nodup (h : w.Inv r) : w.live.Nodup :=
  (List.Nodup.of_map _ h.conserved.exclusive).of_append_left

theorem notMem_live (h : w.Inv r) {task : ScheduledRun} (ht : task ∈ w.handedOut) :
    task ∉ w.live := fun hlive =>
  (List.nodup_append'.mp (List.Nodup.of_map _ h.conserved.exclusive)).2.2 hlive ht

theorem mem_live_finish (h : w.Inv r) {i : ℕ} {task task' : ScheduledRun}
    (hi : w.live[i]? = some task) : task' ∈ w.live.eraseIdx i ↔ task' ∈ w.live ∧ task' ≠ task := by
  have hperm := perm_cons_eraseIdx hi
  have hnodup := List.nodup_cons.mp (hperm.nodup_iff.mp h.live_nodup)
  rw [hperm.mem_iff, List.mem_cons]
  constructor
  · exact fun hmem => ⟨.inr hmem, fun heq => hnodup.1 (heq ▸ hmem)⟩
  · rintro ⟨hmem, hne⟩
    exact hmem.resolve_left hne

end RunWorld.Inv

end World

namespace PipelineState

variable {app : AppState} {s s' : PipelineState} {r : ReferenceScheduler}

def Busy (s : PipelineState) (task : ScheduledRun) : Prop :=
  ∃ (i : ℕ) (p : TaskM Unit), s.tasks[i]? = some (task, p) ∧ ¬ p.Ended

/-- The scheduler and the log agree with the threads. -/
structure Tracked (app : AppState) (s : PipelineState) (r : ReferenceScheduler) : Prop where
  world : s.world.Inv r
  spawned : s.spawnedTasks.map ScheduledRun.taskId = s.world.history.spawned
  live : ∀ task, task ∈ s.world.live ↔ s.Busy task
  calls : ∀ (i : ℕ) task p, s.tasks[i]? = some (task, p) →
    Program.Calls (app.runTask task) (s.taskCalls task.taskId) p
  logged : ∀ task call, LogEntry.task task call ∈ s.log → task ∈ s.spawnedTasks
  answers : s.submissions = s.world.history.answers
  known : s.world.Forall (· ∈ s.accepted)
  origin : ∀ task ∈ s.spawnedTasks, task ∈ s.accepted
  terminal : r.terminal = s.terminals
  /-- The accepted tasks run, wait or have ended. -/
  counted : r.running.length + r.waiting.length + r.terminal.length = s.accepted.length
  /-- The tasks of a conversation are spawned, handed out or wait in the order of their
  submissions. -/
  lanes : ∀ c, (lane ScheduledRun.conversationKey c (s.spawnedTasks ++ s.world.handedOut)).map
      ScheduledRun.summary ++ lane TaskSummary.conversationKey c r.waiting =
    (lane ScheduledRun.conversationKey c s.accepted).map ScheduledRun.summary
  /-- A task is spawned after the earlier ones of its conversation have ended. -/
  orderly : s.tasks.Pairwise fun earlier later =>
    earlier.1.conversationKey = later.1.conversationKey → earlier.2.Ended
  /-- The calls of a conversation are those of its tasks, one after the other. -/
  turns : ∀ c, s.conversationCalls c = (lane ScheduledRun.conversationKey c s.spawnedTasks).flatMap
    fun task => (s.taskCalls task.taskId).map (task, ·)

theorem tracked_init (app : AppState) (m d : ℕ) :
    Tracked app (init m d) (ReferenceScheduler.new (max m 1) d) where
  world := RunWorld.inv_new m d
  spawned := rfl
  live := by simp [init, RunWorld.new, Busy]
  calls := by simp [init]
  logged := by simp [init]
  answers := rfl
  known := ⟨fun _ ht => absurd ht List.not_mem_nil, by
    intro id task hl
    simp [init, RunWorld.new, RunSchedulerInner.new] at hl⟩
  origin := fun _ ht => absurd ht List.not_mem_nil
  terminal := rfl
  counted := rfl
  lanes := fun _ => rfl
  orderly := .nil
  turns := fun _ => rfl

namespace Tracked

variable {i j : ℕ} {task task' : ScheduledRun} {p p' : TaskM Unit}

theorem mem_spawned (hi : s.tasks[i]? = some (task, p)) : task ∈ s.spawnedTasks :=
  List.mem_map_of_mem (List.mem_of_getElem? hi)

theorem spawned_nodup (h : Tracked app s r) : (s.spawnedTasks.map ScheduledRun.taskId).Nodup := by
  rw [h.spawned]
  exact h.world.handled_nodup.of_append_left

theorem task_eq (h : Tracked app s r) (ht : task ∈ s.spawnedTasks) (ht' : task' ∈ s.spawnedTasks)
    (hid : task.taskId = task'.taskId) : task = task' :=
  List.inj_on_of_nodup_map h.spawned_nodup ht ht' hid

theorem index_eq (h : Tracked app s r) (hi : s.tasks[i]? = some (task, p))
    (hj : s.tasks[j]? = some (task, p')) : i = j := by
  have hmap : ∀ {k : ℕ} {q : TaskM Unit}, s.tasks[k]? = some (task, q) →
      s.spawnedTasks[k]? = some task := by
    intro k q hk
    rw [spawnedTasks, List.getElem?_map, hk]
    rfl
  have hnodup : s.spawnedTasks.Nodup := List.Nodup.of_map _ h.spawned_nodup
  obtain ⟨hlt, hget⟩ := List.getElem?_eq_some_iff.mp (hmap hi)
  obtain ⟨hlt', hget'⟩ := List.getElem?_eq_some_iff.mp (hmap hj)
  exact (List.Nodup.getElem_inj_iff hnodup).mp (hget.trans hget'.symm)

theorem taskCalls_eq_nil (h : Tracked app s r) (hid : task.taskId ∉ s.world.history.spawned) :
    s.taskCalls task.taskId = [] := by
  rw [taskCalls, List.filterMap_eq_nil_iff]
  rintro (⟨k, call⟩ | ⟨task', call⟩) hentry
  · rfl
  · have hspawned := List.mem_map_of_mem (f := ScheduledRun.taskId) (h.logged task' call hentry)
    rw [h.spawned] at hspawned
    have hne : task'.taskId ≠ task.taskId := fun heq => hid (heq ▸ hspawned)
    rw [LogEntry.taskCall, if_neg hne]

end Tracked

end PipelineState

end DogBot
