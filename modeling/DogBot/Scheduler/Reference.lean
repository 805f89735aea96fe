import DogBot.Library.Arrival
import DogBot.Library.Machine
import DogBot.Scheduler.State

/-! # The arrival-ordered scheduler

The reference scheduler keeps the running tasks and one list of waiting tasks
in admission order. A task starts if a slot is free and nothing of its
conversation runs or waits. A finished run is followed by the oldest waiting
task of its own conversation, or else by the oldest one of an idle conversation.
-/

namespace DogBot

/-- The admission decision without the number shown to the user. -/
inductive Outcome | started | queued | rejected
  deriving DecidableEq, Repr

def Admission.outcome : Admission → Outcome
  | .startNow => .started
  | .queued _ => .queued
  | .queueFull => .rejected

structure ReferenceScheduler where
  maxConcurrent : ℕ
  maxQueueDepth : ℕ
  running : List TaskSummary
  waiting : List TaskSummary
  terminal : List TerminalSummary

namespace ReferenceScheduler

def new (maxConcurrent maxQueueDepth : ℕ) : ReferenceScheduler where
  maxConcurrent := maxConcurrent
  maxQueueDepth := maxQueueDepth
  running := []
  waiting := []
  terminal := []

def conversations (r : ReferenceScheduler) : List String :=
  r.running.map TaskSummary.conversationKey

def admitTask (r : ReferenceScheduler) (task : TaskSummary) : ReferenceScheduler × Outcome :=
  if r.running.length < r.maxConcurrent ∧ task.conversationKey ∉ r.conversations ∧
      ∀ w ∈ r.waiting, w.conversationKey ≠ task.conversationKey then
    ({ r with running := r.running ++ [task] }, .started)
  else if r.maxQueueDepth ≤ r.waiting.length then (r, .rejected)
  else ({ r with waiting := r.waiting ++ [task] }, .queued)

/-- Start the oldest waiting task that meets a condition, if there is one. -/
def startOldest (r : ReferenceScheduler) (p : TaskSummary → Bool) :
    Option (ReferenceScheduler × TaskSummary) :=
  (r.waiting.find? p).map fun task =>
    ({ r with running := r.running ++ [task], waiting := r.waiting.eraseP p }, task)

/-- Free the slot of a conversation and record how its run ended. -/
def close (r : ReferenceScheduler) (conversationKey : String) (state : TerminalState)
    (summary : Option String) : ReferenceScheduler :=
  match r.running.find? (·.conversationKey = conversationKey) with
  | none => r
  | some finished =>
    { r with
      running := r.running.eraseP (·.conversationKey = conversationKey)
      terminal := r.terminal ++
        [{ taskId := finished.taskId, conversationKey := finished.conversationKey, state
           summary }] }

def finish (r : ReferenceScheduler) (conversationKey : String) (state : TerminalState)
    (summary : Option String) : ReferenceScheduler × List TaskSummary :=
  let r := r.close conversationKey state summary
  match r.startOldest (·.conversationKey = conversationKey) with
  | some (r, task) => (r, [task])
  | none =>
    match r.startOldest (·.conversationKey ∉ r.conversations) with
    | some (r, task) => (r, [task])
    | none => (r, [])

/-- The last terminal summaries that a snapshot shows. -/
def recentTerminal (r : ReferenceScheduler) : List TerminalSummary :=
  r.terminal.drop (r.terminal.length - 16)

def snapshot (r : ReferenceScheduler) : SchedulerSnapshot where
  activeCount := r.running.length
  maxConcurrent := r.maxConcurrent
  waitingCount := r.waiting.length
  maxQueueDepth := r.maxQueueDepth
  running := sortByConversation r.running
  recentTerminal := r.recentTerminal

def call (r : ReferenceScheduler) :
    SchedulerCall → ReferenceScheduler × (Outcome ⊕ List TaskSummary)
  | .admitTask task => let (r, outcome) := r.admitTask task; (r, .inl outcome)
  | .finish conversationKey state summary =>
    let (r, promoted) := r.finish conversationKey state summary; (r, .inr promoted)

def Callable (r : ReferenceScheduler) : SchedulerCall → Prop
  | .admitTask _ => True
  | .finish conversationKey _ _ => conversationKey ∈ r.conversations

/-- The reference scheduler as a machine that answers calls. -/
abbrev machine : Machine SchedulerCall (Outcome ⊕ List TaskSummary) where
  State := ReferenceScheduler
  Enabled := Callable
  step := call

/-- Slots and queue stay within their bounds, and no slot is free while a task
of an idle conversation waits. -/
structure Inv (r : ReferenceScheduler) : Prop where
  positive : 0 < r.maxConcurrent
  nodup : r.conversations.Nodup
  capacity : r.running.length ≤ r.maxConcurrent
  depth : r.waiting.length ≤ r.maxQueueDepth
  conserving : r.running.length < r.maxConcurrent →
    ∀ w ∈ r.waiting, w.conversationKey ∈ r.conversations

variable {r : ReferenceScheduler} {task : TaskSummary} {c : String} {state : TerminalState}
  {summary : Option String}

theorem inv_new {m d : ℕ} (hm : 0 < m) : (new m d).Inv where
  positive := hm
  nodup := List.nodup_nil
  capacity := Nat.zero_le _
  depth := Nat.zero_le _
  conserving := by simp [new]

theorem admitTask_cases (r : ReferenceScheduler) (task : TaskSummary) :
    (r.running.length < r.maxConcurrent ∧ task.conversationKey ∉ r.conversations ∧
      (∀ w ∈ r.waiting, w.conversationKey ≠ task.conversationKey) ∧
      r.admitTask task = ({ r with running := r.running ++ [task] }, .started)) ∨
    (¬ (r.running.length < r.maxConcurrent ∧ task.conversationKey ∉ r.conversations ∧
        ∀ w ∈ r.waiting, w.conversationKey ≠ task.conversationKey) ∧
      r.maxQueueDepth ≤ r.waiting.length ∧ r.admitTask task = (r, .rejected)) ∨
    (¬ (r.running.length < r.maxConcurrent ∧ task.conversationKey ∉ r.conversations ∧
        ∀ w ∈ r.waiting, w.conversationKey ≠ task.conversationKey) ∧
      r.waiting.length < r.maxQueueDepth ∧
      r.admitTask task = ({ r with waiting := r.waiting ++ [task] }, .queued)) := by
  unfold admitTask
  split_ifs with hs hd
  · exact .inl ⟨hs.1, hs.2.1, hs.2.2, rfl⟩
  · exact .inr (.inl ⟨hs, hd, rfl⟩)
  · exact .inr (.inr ⟨hs, Nat.lt_of_not_le hd, rfl⟩)

theorem admitTask_fst (r : ReferenceScheduler) (task : TaskSummary) :
    (r.admitTask task).1 = match (r.admitTask task).2 with
      | .started => { r with running := r.running ++ [task] }
      | .queued => { r with waiting := r.waiting ++ [task] }
      | .rejected => r := by
  rcases r.admitTask_cases task with ⟨-, -, -, he⟩ | ⟨-, -, he⟩ | ⟨-, -, he⟩ <;> rw [he]

theorem mem_conversations : c ∈ r.conversations ↔ ∃ t ∈ r.running, t.conversationKey = c := by
  simp [conversations]

@[simp] theorem maxConcurrent_close (r : ReferenceScheduler) (c : String) (state : TerminalState)
    (summary : Option String) : (r.close c state summary).maxConcurrent = r.maxConcurrent := by
  unfold close; split <;> rfl

@[simp] theorem maxQueueDepth_close (r : ReferenceScheduler) (c : String) (state : TerminalState)
    (summary : Option String) : (r.close c state summary).maxQueueDepth = r.maxQueueDepth := by
  unfold close; split <;> rfl

@[simp] theorem waiting_close (r : ReferenceScheduler) (c : String) (state : TerminalState)
    (summary : Option String) : (r.close c state summary).waiting = r.waiting := by
  unfold close; split <;> rfl

theorem close_spec (state : TerminalState) (summary : Option String) (hc : c ∈ r.conversations) :
    ∃ f, f.conversationKey = c ∧ r.running.find? (·.conversationKey = c) = some f ∧
      r.running.Perm (f :: (r.close c state summary).running) ∧
      r.close c state summary = { r with
        running := r.running.eraseP (·.conversationKey = c)
        terminal := r.terminal ++ [⟨f.taskId, f.conversationKey, state, summary⟩] } := by
  obtain ⟨t, ht, hk⟩ := mem_conversations.mp hc
  cases hf : r.running.find? (·.conversationKey = c) with
  | none => exact absurd (List.find?_eq_none.mp hf t ht) (by simp [hk])
  | some f =>
    have hclose : r.close c state summary = { r with
        running := r.running.eraseP (·.conversationKey = c)
        terminal := r.terminal ++ [⟨f.taskId, f.conversationKey, state, summary⟩] } := by
      simp only [close, hf]
    refine ⟨f, by simpa using List.find?_some hf, rfl, ?_, hclose⟩
    rw [hclose]
    exact Arrival.find?_perm_eraseP hf

theorem conversations_close (state : TerminalState) (summary : Option String)
    (hc : c ∈ r.conversations) :
    r.conversations.Perm (c :: (r.close c state summary).conversations) := by
  obtain ⟨f, rfl, -, hp, -⟩ := close_spec state summary hc
  exact hp.map TaskSummary.conversationKey

/-- What the end of a run can do, after its slot has been freed. -/
theorem finish_cases (r : ReferenceScheduler) (c : String) (state : TerminalState)
    (summary : Option String) :
    (∃ t, r.waiting.find? (·.conversationKey = c) = some t ∧
      r.finish c state summary = ({ r.close c state summary with
        running := (r.close c state summary).running ++ [t]
        waiting := Arrival.pop TaskSummary.conversationKey c r.waiting }, [t])) ∨
    (r.waiting.find? (·.conversationKey = c) = none ∧
      ∃ t, r.waiting.find? (·.conversationKey ∉ (r.close c state summary).conversations) = some t ∧
        r.finish c state summary = ({ r.close c state summary with
          running := (r.close c state summary).running ++ [t]
          waiting := Arrival.pop TaskSummary.conversationKey t.conversationKey r.waiting }, [t])) ∨
    (r.waiting.find? (·.conversationKey = c) = none ∧
      r.waiting.find? (·.conversationKey ∉ (r.close c state summary).conversations) = none ∧
      r.finish c state summary = (r.close c state summary, [])) := by
  have hw : (r.close c state summary).waiting = r.waiting := r.waiting_close ..
  cases hown : r.waiting.find? (·.conversationKey = c) with
  | some t =>
    refine .inl ⟨t, rfl, ?_⟩
    simp only [finish, startOldest, hw, hown, Option.map_some, Arrival.pop]
  | none =>
    cases hidle : r.waiting.find? (·.conversationKey ∉ (r.close c state summary).conversations) with
    | some t =>
      refine .inr (.inl ⟨rfl, t, rfl, ?_⟩)
      obtain ⟨-, hpop⟩ := @Arrival.find?_lane _ _ _ TaskSummary.conversationKey _ _
        (fun k => k ∉ (r.close c state summary).conversations) hidle
      simp only [finish, startOldest, hw, hown, hidle, Option.map_some, Option.map_none, hpop]
    | none =>
      refine .inr (.inr ⟨rfl, rfl, ?_⟩)
      simp only [finish, startOldest, hw, hown, hidle, Option.map_none]

theorem finish_moves (state : TerminalState) (summary : Option String)
    (hc : c ∈ r.conversations) :
    ∃ f rest, f.conversationKey = c ∧ r.running.Perm (f :: rest) ∧
      (r.finish c state summary).1.running.Perm (rest ++ (r.finish c state summary).2) ∧
      r.waiting.Perm ((r.finish c state summary).2 ++ (r.finish c state summary).1.waiting) := by
  obtain ⟨f, hf, -, hrun, -⟩ := close_spec state summary hc
  refine ⟨f, _, hf, hrun, ?_⟩
  rcases r.finish_cases c state summary with ⟨t, ht, he⟩ | ⟨-, t, ht, he⟩ | ⟨-, -, he⟩
  · rw [he]
    exact ⟨.refl _, Arrival.find?_perm_eraseP ht⟩
  · rw [he]
    obtain ⟨-, hpop⟩ := @Arrival.find?_lane _ _ _ TaskSummary.conversationKey _ _
      (fun k => k ∉ (r.close c state summary).conversations) ht
    exact ⟨.refl _, hpop ▸ Arrival.find?_perm_eraseP ht⟩
  · rw [he]
    simp

theorem Inv.admitTask (h : r.Inv) : (r.admitTask task).1.Inv := by
  rcases r.admitTask_cases task with ⟨hlt, hidle, hnone, he⟩ | ⟨-, -, he⟩ | ⟨hblocked, hlt, he⟩
  · rw [he]
    refine ⟨h.positive, ?_, ?_, h.depth, ?_⟩
    · simpa [conversations] using List.Nodup.concat hidle h.nodup
    · simpa [Nat.succ_le_iff] using hlt
    · intro _ w hw
      have := h.conserving hlt w hw
      simp only [conversations, List.map_append, List.mem_append] at this ⊢
      exact .inl this
  · rw [he]; exact h
  · rw [he]
    refine ⟨h.positive, h.nodup, h.capacity, by simpa [Nat.succ_le_iff] using hlt, ?_⟩
    intro hfree w hw
    rcases List.mem_append.mp hw with hw | hw
    · exact h.conserving hfree w hw
    · obtain rfl := List.mem_singleton.mp hw
      by_contra hidle
      -- A free slot and an idle conversation: something of it must wait already.
      apply hblocked
      refine ⟨hfree, hidle, fun v hv hk => hidle ?_⟩
      exact hk ▸ h.conserving hfree v hv

theorem Inv.finish (h : r.Inv) (hc : c ∈ r.conversations) : (r.finish c state summary).1.Inv := by
  obtain ⟨f, -, -, hrun, -⟩ := close_spec state summary hc
  have hconv := conversations_close state summary hc
  have hlen : r.running.length = (r.close c state summary).running.length + 1 := by
    simpa using hrun.length_eq
  have hnodup : c ∉ (r.close c state summary).conversations ∧
      (r.close c state summary).conversations.Nodup :=
    List.nodup_cons.mp (hconv.nodup_iff.mp h.nodup)
  have hcap : (r.close c state summary).maxConcurrent = r.maxConcurrent := r.maxConcurrent_close ..
  have hdepth : (r.close c state summary).maxQueueDepth = r.maxQueueDepth :=
    r.maxQueueDepth_close ..
  have hpop : ∀ k, (Arrival.pop TaskSummary.conversationKey k r.waiting).length ≤ r.maxQueueDepth :=
    fun k => (List.length_eraseP_le).trans h.depth
  have hcapacity := h.capacity
  rcases r.finish_cases c state summary with ⟨t, ht, he⟩ | ⟨hown, t, ht, he⟩ | ⟨hown, hidle, he⟩
  · -- The successor takes the slot that its own conversation has just freed.
    have hk : t.conversationKey = c := by simpa using List.find?_some ht
    have hperm : r.conversations.Perm
        ((r.close c state summary).conversations ++ [t.conversationKey]) := by
      rw [hk]; exact hconv.trans (List.perm_append_singleton _ _).symm
    rw [he]
    refine ⟨hcap ▸ h.positive, ?_, ?_, hdepth ▸ hpop c, ?_⟩
    · simpa [conversations] using hperm.nodup_iff.mp h.nodup
    · simp only [List.length_append, List.length_singleton]; omega
    · intro hfree w hw
      simp only [List.length_append, List.length_singleton] at hfree
      have hm := h.conserving (by omega) w (List.mem_of_mem_eraseP hw)
      simpa [conversations] using hperm.mem_iff.mp hm
  · have hidle : t.conversationKey ∉ (r.close c state summary).conversations := by
      simpa using List.find?_some ht
    rw [he]
    refine ⟨hcap ▸ h.positive, ?_, ?_, hdepth ▸ hpop _, ?_⟩
    · simpa [conversations] using List.Nodup.concat hidle hnodup.2
    · simp only [List.length_append, List.length_singleton]; omega
    · -- With a free slot left the started task would have been started before.
      intro hfree
      simp only [List.length_append, List.length_singleton] at hfree
      have hm := hconv.mem_iff.mp (h.conserving (by omega) t (List.mem_of_find?_eq_some ht))
      rcases List.mem_cons.mp hm with hk | hm
      · exact absurd hk (by simpa using List.find?_eq_none.mp hown t (List.mem_of_find?_eq_some ht))
      · exact absurd hm hidle
  · rw [he]
    have hw : (r.close c state summary).waiting = r.waiting := r.waiting_close ..
    refine ⟨hcap ▸ h.positive, hnodup.2, ?_, by rw [hw, hdepth]; exact h.depth, ?_⟩
    · change (r.close c state summary).running.length ≤ (r.close c state summary).maxConcurrent
      omega
    · intro _ w hm
      rw [hw] at hm
      simpa using List.find?_eq_none.mp hidle w hm

theorem bounds_call (r : ReferenceScheduler) (i : SchedulerCall) :
    (r.call i).1.maxConcurrent = r.maxConcurrent ∧
      (r.call i).1.maxQueueDepth = r.maxQueueDepth := by
  cases i with
  | admitTask task =>
    rcases r.admitTask_cases task with ⟨-, -, -, he⟩ | ⟨-, -, he⟩ | ⟨-, -, he⟩ <;> simp [call, he]
  | finish c state summary =>
    rcases r.finish_cases c state summary with ⟨t, -, he⟩ | ⟨-, t, -, he⟩ | ⟨-, -, he⟩ <;>
      simp [call, he]

theorem length_promoted (r : ReferenceScheduler) (c : String) (state : TerminalState)
    (summary : Option String) : (r.finish c state summary).2.length ≤ 1 := by
  rcases r.finish_cases c state summary with ⟨t, -, he⟩ | ⟨-, t, -, he⟩ | ⟨-, -, he⟩ <;> simp [he]

end ReferenceScheduler

end DogBot
