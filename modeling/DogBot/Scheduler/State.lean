import Mathlib.Data.List.Sort
import Mathlib.Data.String.Basic
import DogBot.Library.Table

/-! # Scheduler state

`SchedulerState` decides which runs start, which wait and which are rejected.
Waiting tasks are kept in one deque per conversation; `readyConversations`
lists the conversations that wait for a free slot. Counters of type `usize`
are natural numbers and hash maps are finite tables.
-/

namespace DogBot

structure TaskSummary where
  taskId : String
  conversationKey : String
  actorId : String
  triggerMessageId : Option String
  deriving DecidableEq, Repr

/-- A task with a given id and conversation, and no actor or trigger message. -/
def TaskSummary.new (taskId conversationKey : String) : TaskSummary :=
  { taskId, conversationKey, actorId := "", triggerMessageId := none }

inductive Admission
  | startNow
  | queued (tasksAhead : ℕ)
  | queueFull
  deriving DecidableEq, Repr

inductive TerminalState | completed | failed
  deriving DecidableEq, Repr

structure TerminalSummary where
  taskId : String
  conversationKey : String
  state : TerminalState
  summary : Option String
  deriving DecidableEq, Repr

structure SchedulerSnapshot where
  activeCount : ℕ
  maxConcurrent : ℕ
  waitingCount : ℕ
  maxQueueDepth : ℕ
  running : List TaskSummary
  recentTerminal : List TerminalSummary
  deriving DecidableEq, Repr

structure SchedulerState where
  maxConcurrent : ℕ
  maxQueueDepth : ℕ
  running : Table String TaskSummary
  queued : Table String (List TaskSummary)
  readyConversations : List String
  recentTerminal : List TerminalSummary
  deriving DecidableEq

def TaskSummary.byConversation (left right : TaskSummary) : Prop :=
  left.conversationKey ≤ right.conversationKey

instance : DecidableRel TaskSummary.byConversation := fun left right =>
  inferInstanceAs (Decidable (left.conversationKey ≤ right.conversationKey))

instance : Std.Total TaskSummary.byConversation := ⟨fun _ _ => le_total _ _⟩
instance : IsTrans TaskSummary TaskSummary.byConversation := ⟨fun _ _ _ => le_trans⟩

/-- Sort tasks by their conversation key, as the snapshot shows them. -/
def sortByConversation (tasks : List TaskSummary) : List TaskSummary :=
  tasks.insertionSort TaskSummary.byConversation

/-- Tasks of distinct conversations are shown in an order that does not depend on where
they are stored. -/
theorem sortByConversation_congr {l₁ l₂ : List TaskSummary} (h : l₁.Perm l₂)
    (hn : (l₂.map TaskSummary.conversationKey).Nodup) :
    sortByConversation l₁ = sortByConversation l₂ := by
  refine @List.Perm.eq_of_pairwise _ TaskSummary.byConversation _ _ ?_ ?_ ?_ ?_
  · intro a b ha hb hab hba
    have ha : a ∈ l₂ := h.mem_iff.mp ((List.mem_insertionSort _).mp ha)
    have hb : b ∈ l₂ := (List.mem_insertionSort _).mp hb
    exact List.inj_on_of_nodup_map hn ha hb (le_antisymm hab hba)
  · exact List.pairwise_insertionSort _ _
  · exact List.pairwise_insertionSort _ _
  · exact ((List.perm_insertionSort _ _).trans h).trans (List.perm_insertionSort _ _).symm

namespace SchedulerState

def TERMINAL_HISTORY_CAPACITY : ℕ := 16

/-- The empty scheduler; a cap of zero is raised to one. -/
def new (maxConcurrent maxQueueDepth : ℕ) : SchedulerState where
  maxConcurrent := max maxConcurrent 1
  maxQueueDepth := maxQueueDepth
  running := ∅
  queued := ∅
  readyConversations := []
  recentTerminal := []

def canStartNow (s : SchedulerState) (conversationKey : String) : Bool :=
  s.running.size < s.maxConcurrent && conversationKey ∉ s.running &&
    ((s.queued.lookup conversationKey).map List.isEmpty).getD true

def waitingCount (s : SchedulerState) : ℕ := s.queued.total List.length

/-- The number of tasks that a newly queued task is told to wait for. -/
def tasksAheadFor (s : SchedulerState) (conversationKey : String) : ℕ :=
  if conversationKey ∈ s.running ∨ conversationKey ∈ s.queued then
    (if conversationKey ∈ s.running then 1 else 0) +
      ((s.queued.lookup conversationKey).map List.length).getD 0
  else
    s.running.size + s.waitingCount

def pushReadyConversation (s : SchedulerState) (conversationKey : String) : SchedulerState :=
  if s.readyConversations.any (· == conversationKey) then s
  else { s with readyConversations := s.readyConversations ++ [conversationKey] }

/-- Take the oldest task of a conversation, dropping the deque when it becomes empty. -/
def popNextForConversation (s : SchedulerState) (conversationKey : String) :
    SchedulerState × Option TaskSummary :=
  match s.queued.lookup conversationKey with
  | none => (s, none)
  | some queue =>
    ({ s with queued :=
        if queue.tail.isEmpty then s.queued.erase conversationKey
        else s.queued.insert conversationKey queue.tail },
      queue.head?)

/-- Record a terminal summary, forgetting the oldest one beyond the capacity. -/
def pushTerminal (s : SchedulerState) (summary : TerminalSummary) : SchedulerState :=
  let recentTerminal := s.recentTerminal ++ [summary]
  { s with recentTerminal :=
      if recentTerminal.length > TERMINAL_HISTORY_CAPACITY then recentTerminal.tail
      else recentTerminal }

/-- Put a task into the slot of its conversation. -/
def insertRunning (s : SchedulerState) (task : TaskSummary) : SchedulerState :=
  { s with running := s.running.insert task.conversationKey task }

def admitTask (s : SchedulerState) (task : TaskSummary) : SchedulerState × Admission :=
  if s.canStartNow task.conversationKey then
    (s.insertRunning task, .startNow)
  else if s.waitingCount ≥ s.maxQueueDepth then
    (s, .queueFull)
  else
    let tasksAhead := s.tasksAheadFor task.conversationKey
    let conversationKey := task.conversationKey
    let wasEmpty := ((s.queued.lookup conversationKey).map List.isEmpty).getD true
    let queue := (s.queued.lookup conversationKey).getD [] ++ [task]
    let s := { s with queued := s.queued.insert conversationKey queue }
    let s :=
      if wasEmpty ∧ conversationKey ∉ s.running then s.pushReadyConversation conversationKey
      else s
    (s, .queued tasksAhead)

/-- The loop of `finish`: while a slot is free, pop a ready conversation and
start its oldest task. The first argument is the ready list still to be popped. -/
def promoteReady : List String → SchedulerState → List TaskSummary →
    SchedulerState × List TaskSummary
  | [], s, promoted => (s, promoted)
  | conversation :: ready, s, promoted =>
    if s.running.size < s.maxConcurrent then
      let s := { s with readyConversations := ready }
      if conversation ∈ s.running then promoteReady ready s promoted
      else
        match s.popNextForConversation conversation with
        | (s, none) => promoteReady ready s promoted
        | (s, some next) => promoteReady ready (s.insertRunning next) (promoted ++ [next])
    else (s, promoted)

/-- The promotions of `finish`: first the successor in the same conversation, then the
ready conversations. -/
def promoteNext (s : SchedulerState) (conversationKey : String) :
    SchedulerState × List TaskSummary :=
  match s.popNextForConversation conversationKey with
  | (s, some next) => promoteReady s.readyConversations (s.insertRunning next) [next]
  | (s, none) => promoteReady s.readyConversations s []

/-- Clear the slot of a conversation, record how its run ended, and start the tasks that
may start now. -/
def finish (s : SchedulerState) (conversationKey : String) (terminal : TerminalState)
    (summary : Option String) : SchedulerState × List TaskSummary :=
  match s.running.lookup conversationKey with
  | some finished =>
    ({ s with running := s.running.erase conversationKey }.pushTerminal
      { taskId := finished.taskId, conversationKey := finished.conversationKey,
        state := terminal, summary }).promoteNext conversationKey
  | none => s.promoteNext conversationKey

def snapshot (s : SchedulerState) : SchedulerSnapshot where
  activeCount := s.running.size
  maxConcurrent := s.maxConcurrent
  waitingCount := s.waitingCount
  maxQueueDepth := s.maxQueueDepth
  running := sortByConversation s.running.values
  recentTerminal := s.recentTerminal

end SchedulerState

/-- A call of the scheduler: the admission of a task, or the end of a run. -/
inductive SchedulerCall
  | admitTask (task : TaskSummary)
  | finish (conversationKey : String) (terminal : TerminalState) (summary : Option String)
  deriving DecidableEq, Repr

namespace SchedulerState

/-- Answer a call with the admission decision or with the promoted tasks. -/
def call (s : SchedulerState) : SchedulerCall → SchedulerState × (Admission ⊕ List TaskSummary)
  | .admitTask task => let (s, admission) := s.admitTask task; (s, .inl admission)
  | .finish conversationKey terminal summary =>
    let (s, promoted) := s.finish conversationKey terminal summary; (s, .inr promoted)

/-- The guard of the runs: `finish` is only called for a conversation that is running. -/
def Callable (s : SchedulerState) : SchedulerCall → Prop
  | .admitTask _ => True
  | .finish conversationKey _ _ => conversationKey ∈ s.running

instance (s : SchedulerState) : ∀ c, Decidable (s.Callable c)
  | .admitTask _ => .isTrue trivial
  | .finish conversationKey _ _ => inferInstanceAs (Decidable (conversationKey ∈ s.running))

end SchedulerState

end DogBot
