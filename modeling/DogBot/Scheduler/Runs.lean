import DogBot.Scheduler.Refinement

/-! # Runs of the scheduler

The step-wise refinement extends to every sequence of calls in which `finish`
is only called for a running conversation. The bounds on slots and queue, and
the absence of stranded tasks, are read off the reference scheduler.
-/

namespace DogBot

/-- Two answers agree if they differ at most in the number of tasks ahead. -/
def sameAnswer (a : Admission ⊕ List TaskSummary) (b : Outcome ⊕ List TaskSummary) : Prop :=
  a.map Admission.outcome id = b

/-- The refinement, together with the invariant of the reference and its constant bounds. -/
def schedulerSimulation (m d : ℕ) :
    Machine.Simulation SchedulerState.machine ReferenceScheduler.machine sameAnswer where
  Rel s r := Refines s r ∧ r.Inv ∧ r.maxConcurrent = m ∧ r.maxQueueDepth = d
  enabled {s r i} h hi := by
    cases i with
    | admitTask task => trivial
    | finish c state summary => exact h.1.mem_running.mp hi
  step {s r i} h hi := by
    obtain ⟨href, hr, hm, hd⟩ := h
    obtain ⟨hm', hd'⟩ := r.bounds_call i
    cases i with
    | admitTask task =>
      exact ⟨(href.admitTask task).1, hr.admitTask, hm'.trans hm, hd'.trans hd⟩
    | finish c state summary =>
      have hc := href.mem_running.mp hi
      exact ⟨(href.finish hr hc state summary).1, hr.finish hc, hm'.trans hm, hd'.trans hd⟩
  output {s r i} h hi := by
    obtain ⟨href, hr, -, -⟩ := h
    cases i with
    | admitTask task => exact congrArg Sum.inl (href.admitTask task).2
    | finish c state summary =>
      exact congrArg Sum.inr (href.finish hr (href.mem_running.mp hi) state summary).2

theorem schedulerSimulation_new (m d : ℕ) :
    (schedulerSimulation (max m 1) d).Rel (SchedulerState.new m d)
      (ReferenceScheduler.new (max m 1) d) :=
  ⟨refines_new m d, ReferenceScheduler.inv_new (Nat.le_max_right m 1), rfl, rfl⟩

/-- What a snapshot shows of a reference scheduler. -/
structure ReferenceScheduler.Shows (r : ReferenceScheduler) (snapshot : SchedulerSnapshot) :
    Prop where
  activeCount : snapshot.activeCount = r.running.length
  maxConcurrent : snapshot.maxConcurrent = r.maxConcurrent
  waitingCount : snapshot.waitingCount = r.waiting.length
  maxQueueDepth : snapshot.maxQueueDepth = r.maxQueueDepth
  running : snapshot.running.Perm r.running
  sorted : snapshot.running.Pairwise fun a b => a.conversationKey ≤ b.conversationKey
  recentTerminal : snapshot.recentTerminal = r.terminal.drop (r.terminal.length - 16)

theorem ReferenceScheduler.shows_snapshot (r : ReferenceScheduler) : r.Shows r.snapshot where
  activeCount := rfl
  maxConcurrent := rfl
  waitingCount := rfl
  maxQueueDepth := rfl
  running := List.perm_insertionSort _ _
  sorted := List.pairwise_insertionSort _ _
  recentTerminal := rfl

/-- The scheduler and a reference scheduler answer some calls alike, up to the number of tasks
ahead, with at most one promoted task per `finish`, and end in the same snapshot. -/
structure SameRun (s : SchedulerState) (r : ReferenceScheduler) (calls : List SchedulerCall) :
    Prop where
  answers : (SchedulerState.machine.run s calls).2.map (Sum.map Admission.outcome id) =
    (ReferenceScheduler.machine.run r calls).2
  single : ∀ promoted, Sum.inr promoted ∈ (SchedulerState.machine.run s calls).2 →
    promoted.length ≤ 1
  snapshot : ReferenceScheduler.Shows (ReferenceScheduler.machine.run r calls).1
    (SchedulerState.snapshot (SchedulerState.machine.run s calls).1)

instance : ∀ s i, Decidable (SchedulerState.machine.Enabled s i) :=
  fun (s : SchedulerState) (i : SchedulerCall) => inferInstanceAs (Decidable (s.Callable i))

/-- For every cap, queue depth and admissible sequence of calls the scheduler follows the reference
scheduler. A cap of zero is one of one. -/
theorem scheduler_refines_reference (m d : ℕ) (calls : List SchedulerCall)
    (h : SchedulerState.machine.Admissible (SchedulerState.new m d) calls) :
    SameRun (SchedulerState.new m d) (ReferenceScheduler.new (max m 1) d) calls := by
  obtain ⟨-, ⟨href, hr, -, -⟩, hout⟩ :=
    (schedulerSimulation (max m 1) d).run (schedulerSimulation_new m d) h
  have hmap : (SchedulerState.machine.run (SchedulerState.new m d) calls).2.map
      (Sum.map Admission.outcome id) =
      (ReferenceScheduler.machine.run (ReferenceScheduler.new (max m 1) d) calls).2 := by
    rw [← List.forall₂_eq_eq_eq, List.forall₂_map_left_iff]
    exact hout
  refine ⟨hmap, fun promoted hp => ?_, href.snapshot hr ▸ ReferenceScheduler.shows_snapshot _⟩
  have hmem : Sum.inr promoted ∈
      (ReferenceScheduler.machine.run (ReferenceScheduler.new (max m 1) d) calls).2 :=
    hmap ▸ List.mem_map.mpr ⟨_, hp, rfl⟩
  exact Machine.forall_mem_run_output
    (P := fun o => ∀ ts, o = Sum.inr ts → ts.length ≤ 1)
    (fun r i ts hts => by
      cases i with
      | admitTask task => simp [ReferenceScheduler.machine, ReferenceScheduler.call] at hts
      | finish c state summary =>
        obtain rfl := Sum.inr.inj hts
        exact ReferenceScheduler.length_promoted r c state summary)
    _ _ _ hmem promoted rfl

/-- Two conversations compete for one slot, and a third task finds the queue full. -/
def contendedCalls : List SchedulerCall :=
  [.admitTask (.new "task-1" "a"), .admitTask (.new "task-2" "a"), .admitTask (.new "task-3" "b"),
    .admitTask (.new "task-4" "c"), .finish "a" .completed none, .finish "a" .failed (some "boom"),
    .finish "b" .completed none]

theorem scheduler_refines_reference_contended :
    SameRun (SchedulerState.new 1 2) (ReferenceScheduler.new 1 2) contendedCalls :=
  scheduler_refines_reference 1 2 contendedCalls (by decide)

theorem zero_cap_starts : ¬ ∀ (m d : ℕ) (calls : List SchedulerCall),
    SchedulerState.machine.Admissible (SchedulerState.new m d) calls →
    SameRun (SchedulerState.new m d) (ReferenceScheduler.new m d) calls := by
  intro h
  have hrun := h 0 1 [.admitTask (.new "task-1" "a")] (by decide)
  exact absurd hrun.answers (by decide)

/-- In every reachable state the running conversations fit the cap, the waiting tasks fit
the queue, no slot is free while a task of an idle conversation waits, the ready list has
no duplicates and no stored deque is empty. -/
theorem scheduler_capacity_and_conservation (m d : ℕ) (calls : List SchedulerCall)
    (h : SchedulerState.machine.Admissible (SchedulerState.new m d) calls) :
    let s : SchedulerState := (SchedulerState.machine.run (SchedulerState.new m d) calls).1
    s.running.size ≤ max m 1 ∧ s.waitingCount ≤ d ∧
      (s.running.size < max m 1 → ∀ c queue, s.queued.lookup c = some queue →
        ∀ task ∈ queue, task.conversationKey ∈ s.running) ∧
      s.readyConversations.Nodup ∧
      ∀ c queue, s.queued.lookup c = some queue → queue ≠ [] := by
  obtain ⟨-, ⟨href, hr, hm, hd⟩, -⟩ :=
    (schedulerSimulation (max m 1) d).run (schedulerSimulation_new m d) h
  refine ⟨?_, ?_, ?_, ?_, ?_⟩
  · exact href.size_running.trans_le (hr.capacity.trans_eq hm)
  · exact href.waitingCount.trans_le (hr.depth.trans_eq hd)
  · intro hfree c queue hq task ht
    have hslot := href.size_running.symm.trans_lt (hfree.trans_eq hm.symm)
    obtain ⟨rfl, -⟩ := href.queued.lookup_some hq
    exact href.mem_running.mpr (hr.conserving hslot task (Arrival.mem_lane.mp ht).1)
  · rw [href.ready]; exact Arrival.order_nodup.filter _
  · exact fun c queue hq => (href.queued.lookup_some hq).2

theorem scheduler_capacity_and_conservation_contended :
    let s : SchedulerState :=
      (SchedulerState.machine.run (SchedulerState.new 1 2) contendedCalls).1
    s.running.size ≤ max 1 1 ∧ s.waitingCount ≤ 2 ∧
      (s.running.size < max 1 1 → ∀ c queue, s.queued.lookup c = some queue →
        ∀ task ∈ queue, task.conversationKey ∈ s.running) ∧
      s.readyConversations.Nodup ∧
      ∀ c queue, s.queued.lookup c = some queue → queue ≠ [] :=
  scheduler_capacity_and_conservation 1 2 contendedCalls (by decide)

end DogBot
