import DogBot.Scheduler.Runs

/-! # The number of tasks ahead

A queued task is told how many tasks it has to wait for. Every end of a run
promotes at most one task, the tasks of one conversation are promoted in the
order of their admission, and a conversation keeps its slot as long as its own
tasks wait. The number is a bound on the wait unless the conversation of the
task waits for a slot itself.
-/

namespace DogBot

open Arrival

def SchedulerCall.isFinish : SchedulerCall → Bool
  | .admitTask _ => false
  | .finish _ _ _ => true

/-- Whether a call is the end of a run of the conversation. -/
def SchedulerCall.isFinishOf (conversationKey : String) : SchedulerCall → Bool
  | .admitTask _ => false
  | .finish c _ _ => c = conversationKey

/-- How many runs of the conversation end along the calls. -/
def finishesOf (conversationKey : String) (calls : List SchedulerCall) : ℕ :=
  calls.countP (·.isFinishOf conversationKey)

def promotedTasks {α : Type} (answers : List (α ⊕ List TaskSummary)) : List TaskSummary :=
  answers.flatMap (Sum.elim (fun _ => []) id)

theorem promotedTasks_congr {answers : List (Admission ⊕ List TaskSummary)}
    {answers' : List (Outcome ⊕ List TaskSummary)}
    (h : List.Forall₂ sameAnswer answers answers') :
    promotedTasks answers = promotedTasks answers' := by
  induction h with
  | nil => rfl
  | cons ha _ ih =>
    subst ha
    simp only [promotedTasks, List.flatMap_cons] at ih ⊢
    rw [ih, Sum.elim_map, Function.comp_id]
    rfl

namespace ReferenceScheduler

variable {r : ReferenceScheduler} {c x : String} {state : TerminalState}
  {summary : Option String} {calls : List SchedulerCall}

theorem mem_conversations_close (hr : r.Inv) (hx : x ∈ r.conversations) :
    c ∈ (r.close x state summary).conversations ↔ c ≠ x ∧ c ∈ r.conversations := by
  have hconv := conversations_close state summary hx
  have hnodup := List.nodup_cons.mp (hconv.nodup_iff.mp hr.nodup)
  rw [hconv.mem_iff, List.mem_cons]
  constructor
  · intro hc
    exact ⟨fun he => hnodup.1 (he ▸ hc), .inr hc⟩
  · rintro ⟨hne, rfl | hc⟩
    · exact absurd rfl hne
    · exact hc

/-- The end of a run promotes the oldest task of one conversation, or nothing. -/
theorem finish_serves (r : ReferenceScheduler) (x : String) (state : TerminalState)
    (summary : Option String) :
    (∃ t, r.waiting.find? (·.conversationKey = t.conversationKey) = some t ∧
      (r.finish x state summary).2 = [t] ∧
      (r.finish x state summary).1.waiting =
        pop TaskSummary.conversationKey t.conversationKey r.waiting ∧
      (r.finish x state summary).1.conversations =
        (r.close x state summary).conversations ++ [t.conversationKey] ∧
      (t.conversationKey = x ∨ lane TaskSummary.conversationKey x r.waiting = [] ∧
        t.conversationKey ∉ (r.close x state summary).conversations)) ∨
    ((r.finish x state summary).2 = [] ∧ (r.finish x state summary).1.waiting = r.waiting ∧
      (r.finish x state summary).1.conversations = (r.close x state summary).conversations ∧
      lane TaskSummary.conversationKey x r.waiting = [] ∧
      ∀ w ∈ r.waiting, w.conversationKey ∈ (r.close x state summary).conversations) := by
  have hlane : r.waiting.find? (·.conversationKey = x) = none →
      lane TaskSummary.conversationKey x r.waiting = [] := by
    intro hown
    rw [← head?_lane] at hown
    simpa using hown
  rcases r.finish_cases x state summary with ⟨t, ht, he⟩ | ⟨hown, t, ht, he⟩ | ⟨hown, hidle, he⟩
  · obtain rfl : t.conversationKey = x := by simpa using List.find?_some ht
    rw [he]
    exact .inl ⟨t, ht, rfl, rfl, by simp [conversations], .inl rfl⟩
  · rw [he]
    obtain ⟨hfind, -⟩ := @find?_lane _ _ _ TaskSummary.conversationKey _ _
      (fun k => k ∉ (r.close x state summary).conversations) ht
    have hnot : t.conversationKey ∉ (r.close x state summary).conversations := by
      simpa using List.find?_some ht
    exact .inl ⟨t, hfind, rfl, rfl, by simp [conversations], .inr ⟨hlane hown, hnot⟩⟩
  · rw [he]
    have hall := List.find?_eq_none.mp hidle
    exact .inr ⟨rfl, waiting_close .., rfl, hlane hown, fun w hw => by simpa using hall w hw⟩

theorem lane_finish (r : ReferenceScheduler) (c x : String) (state : TerminalState)
    (summary : Option String) :
    lane TaskSummary.conversationKey c r.waiting =
      lane TaskSummary.conversationKey c (r.finish x state summary).2 ++
        lane TaskSummary.conversationKey c (r.finish x state summary).1.waiting := by
  rcases r.finish_serves x state summary with ⟨t, ht, hp, hw, -⟩ | ⟨hp, hw, -⟩
  · rw [hp, hw, ← lane_eq_append_pop ht]
  · simp [hp, hw]

/-- While a conversation runs as long as its tasks wait, exactly the ends of its own runs
promote them. -/
theorem lane_finish_own (hr : r.Inv) (hx : x ∈ r.conversations)
    (hc : lane TaskSummary.conversationKey c r.waiting ≠ [] → c ∈ r.conversations) :
    lane TaskSummary.conversationKey c (r.finish x state summary).1.waiting =
        (lane TaskSummary.conversationKey c r.waiting).drop (if x = c then 1 else 0) ∧
      (lane TaskSummary.conversationKey c (r.finish x state summary).1.waiting ≠ [] →
        c ∈ (r.finish x state summary).1.conversations) := by
  have hclose : ∀ d, d ∈ (r.close x state summary).conversations ↔ d ≠ x ∧ d ∈ r.conversations :=
    fun d => mem_conversations_close hr hx
  rcases r.finish_serves x state summary with
    ⟨t, ht, -, hw, hconv, rfl | ⟨hnone, hidle⟩⟩ | ⟨-, hw, hconv, hnone, -⟩
  · rw [hw, hconv]
    by_cases he : t.conversationKey = c
    · subst he
      simp [lane_pop_self]
    · rw [lane_pop_of_ne (Ne.symm he)]
      simpa [he, hclose, Ne.symm he] using hc
  · rw [hw, hconv]
    by_cases he : x = c
    · subst he
      have hne : x ≠ t.conversationKey := by
        intro hk
        rw [← head?_lane, ← hk, hnone] at ht
        simp at ht
      simp [lane_pop_of_ne hne, hnone]
    · by_cases hk : t.conversationKey = c
      · -- A waiting task of `c` would find its conversation running.
        have hmem : t ∈ lane TaskSummary.conversationKey c r.waiting :=
          mem_lane.mpr ⟨List.mem_of_find?_eq_some ht, hk⟩
        have hrun := hc (List.ne_nil_of_mem hmem)
        exact absurd ((hclose _).mpr ⟨fun h => he (h.symm.trans hk), hk ▸ hrun⟩) hidle
      · rw [lane_pop_of_ne (Ne.symm hk)]
        have hrun : lane TaskSummary.conversationKey c r.waiting ≠ [] →
            c ∈ (r.close x state summary).conversations :=
          fun hl => (hclose c).mpr ⟨Ne.symm he, hc hl⟩
        simpa [he] using fun hl => Or.inl (hrun hl)
  · rw [hw, hconv]
    by_cases he : x = c
    · subst he
      simp [hnone]
    · simpa [he, hclose, Ne.symm he] using hc

/-- While the only task of an idle conversation waits, every end of a run promotes a task. -/
theorem length_finish_idle (hr : r.Inv) (hx : x ∈ r.conversations)
    (hone : (lane TaskSummary.conversationKey c r.waiting).length ≤ 1)
    (hwait : lane TaskSummary.conversationKey c r.waiting ≠ []) (hc : c ∉ r.conversations) :
    (r.finish x state summary).1.waiting.length + 1 = r.waiting.length ∧
      (lane TaskSummary.conversationKey c (r.finish x state summary).1.waiting = [] ∨
        lane TaskSummary.conversationKey c (r.finish x state summary).1.waiting =
          lane TaskSummary.conversationKey c r.waiting ∧
        c ∉ (r.finish x state summary).1.conversations) := by
  have hclose : c ∉ (r.close x state summary).conversations :=
    fun h => hc ((mem_conversations_close hr hx).mp h).2
  rcases r.finish_serves x state summary with ⟨t, ht, -, hw, hconv, -⟩ | ⟨-, -, -, -, hall⟩
  · rw [hw, hconv]
    have hmem : t ∈ r.waiting := List.mem_of_find?_eq_some ht
    refine ⟨length_pop (mem_order.mpr ⟨t, hmem, rfl⟩), ?_⟩
    by_cases he : t.conversationKey = c
    · left
      rw [he, lane_pop_self, ← List.length_eq_zero_iff, List.length_tail]
      omega
    · right
      exact ⟨lane_pop_of_ne (Ne.symm he), by simpa [hclose] using Ne.symm he⟩
  · obtain ⟨w, hw⟩ := List.exists_mem_of_ne_nil _ hwait
    obtain ⟨hm, rfl⟩ := mem_lane.mp hw
    exact absurd (hall w hm) hclose

section Runs

/-- A property of calls that are all ends of runs follows from its step over one end. -/
@[elab_as_elim] theorem finishInduction
    {P : (calls : List SchedulerCall) → (∀ i ∈ calls, i.isFinish) → Prop}
    (nil : ∀ h, P [] h)
    (finish : ∀ x state summary calls (hf : ∀ i ∈ calls, i.isFinish), P calls hf →
      ∀ h, P (.finish x state summary :: calls) h)
    (calls : List SchedulerCall) (hf : ∀ i ∈ calls, i.isFinish) : P calls hf := by
  induction calls with
  | nil => exact nil hf
  | cons i calls ih =>
    obtain ⟨hi, hfs⟩ := List.forall_mem_cons.mp hf
    cases i with
    | admitTask task => cases hi
    | finish x state summary => exact finish x state summary calls hfs (ih hfs) hf

variable (hf : ∀ i ∈ calls, i.isFinish)
include hf

theorem lane_run (r : ReferenceScheduler) (c : String) :
    lane TaskSummary.conversationKey c r.waiting =
      lane TaskSummary.conversationKey c (promotedTasks (machine.run r calls).2) ++
        lane TaskSummary.conversationKey c
          (ReferenceScheduler.waiting (machine.run r calls).1) := by
  induction calls, hf using finishInduction generalizing r with
  | nil _ => rfl
  | finish x state summary calls _ ih _ =>
    rw [r.lane_finish c x state summary, ih (r.finish x state summary).1]
    simp [Machine.run, call, promotedTasks, lane]

theorem length_promotedTasks (r : ReferenceScheduler) :
    (promotedTasks (machine.run r calls).2).length ≤ calls.length := by
  induction calls, hf using finishInduction generalizing r with
  | nil _ => exact le_rfl
  | finish x state summary calls _ ih _ =>
    have hone := r.length_promoted x state summary
    have hrest := ih (r.finish x state summary).1
    simp only [Machine.run, call, promotedTasks, List.flatMap_cons, Sum.elim_inr, id,
      List.length_append, List.length_cons] at hrest ⊢
    omega

theorem lane_run_own (hr : r.Inv) (h : machine.Admissible r calls)
    (hc : lane TaskSummary.conversationKey c r.waiting ≠ [] → c ∈ r.conversations) :
    lane TaskSummary.conversationKey c (ReferenceScheduler.waiting (machine.run r calls).1) =
      (lane TaskSummary.conversationKey c r.waiting).drop (finishesOf c calls) := by
  induction calls, hf using finishInduction generalizing r with
  | nil _ => rfl
  | finish x state summary calls _ ih _ =>
    obtain ⟨hlane, hrun⟩ := @lane_finish_own _ _ _ state summary hr h.1 hc
    have hrest := ih (hr.finish h.1) h.2 hrun
    rw [hlane, List.drop_drop] at hrest
    have hcount : finishesOf c (.finish x state summary :: calls) =
        (if x = c then 1 else 0) + finishesOf c calls := by
      simp [finishesOf, List.countP_cons, SchedulerCall.isFinishOf, Nat.add_comm]
    rw [hcount]
    exact hrest

/-- The only task of an idle conversation is promoted after at most as many ends of runs as
tasks wait. -/
theorem lane_run_idle (hr : r.Inv) (h : machine.Admissible r calls)
    (hone : (lane TaskSummary.conversationKey c r.waiting).length ≤ 1)
    (hc : lane TaskSummary.conversationKey c r.waiting ≠ [] → c ∉ r.conversations)
    (hlen : r.waiting.length ≤ calls.length) :
    lane TaskSummary.conversationKey c (ReferenceScheduler.waiting (machine.run r calls).1) =
      [] := by
  induction calls, hf using finishInduction generalizing r with
  | nil _ =>
    have hnil : r.waiting = [] := List.eq_nil_of_length_eq_zero (Nat.le_zero.mp hlen)
    simp [Machine.run, hnil]
  | finish x state summary calls _ ih hf =>
    by_cases hwait : lane TaskSummary.conversationKey c r.waiting = []
    · have hempty := lane_run hf r c
      rw [hwait] at hempty
      exact (List.append_eq_nil_iff.mp hempty.symm).2
    · obtain ⟨hshort, hlane⟩ :=
        @length_finish_idle _ _ _ state summary hr h.1 hone hwait (hc hwait)
      have hlen : (r.finish x state summary).1.waiting.length ≤ calls.length := by
        simp only [List.length_cons] at hlen
        omega
      apply ih (hr.finish h.1) h.2 _ _ hlen
      · rcases hlane with hlane | ⟨hlane, -⟩
        · simp [hlane]
        · exact hlane ▸ hone
      · intro hne
        rcases hlane with hlane | ⟨-, hidle⟩
        · exact absurd hlane hne
        · exact hidle

end Runs

theorem Inv.exists_running (hr : r.Inv) (hw : r.waiting ≠ []) : ∃ c, c ∈ r.conversations := by
  obtain ⟨w, hw⟩ := List.exists_mem_of_ne_nil _ hw
  by_cases hfree : r.running.length < r.maxConcurrent
  · exact ⟨_, hr.conserving hfree w hw⟩
  · have hpos := hr.positive
    have hlen : 0 < r.conversations.length := by
      rw [conversations, List.length_map]
      omega
    exact List.exists_mem_of_length_pos hlen

end ReferenceScheduler

/-- In a list that is cut in two, the last item is in the first part exactly if the second
part is empty; with copies of it in front, it is the last copy that counts. -/
theorem count_lt_count_iff {α : Type} [DecidableEq α] {a : α} {l l₁ l₂ : List α}
    (h : l ++ [a] = l₁ ++ l₂) : l.count a < l₁.count a ↔ l₂ = [] := by
  rcases List.eq_nil_or_concat l₂ with rfl | ⟨l₂, b, rfl⟩
  · have hl : l₁ = l ++ [a] := by simpa using h.symm
    simp [hl]
  · rw [List.concat_eq_append, ← List.append_assoc] at h
    obtain ⟨rfl, -⟩ := List.append_inj' h rfl
    simp

namespace SchedulerState

def waitingCopies (s : SchedulerState) (task : TaskSummary) : ℕ :=
  ((s.queued.lookup task.conversationKey).getD []).count task

/-- The task that is admitted in the state is promoted along the later calls. It waits behind
the copies of it that were admitted before. -/
def PromotedAlong (s : SchedulerState) (task : TaskSummary) (calls : List SchedulerCall) : Prop :=
  s.waitingCopies task < (promotedTasks (machine.run (s.admitTask task).1 calls).2).count task

instance (s : SchedulerState) (task : TaskSummary) (calls : List SchedulerCall) :
    Decidable (s.PromotedAlong task calls) :=
  inferInstanceAs (Decidable (_ < _))

/-- The number told to the user is right along every continuation without admissions: behind
its running conversation the task is promoted exactly by that many ends of its runs, and
otherwise by that many ends of runs at the latest. -/
def TasksAheadSound (s : SchedulerState) (task : TaskSummary) (tasksAhead : ℕ) : Prop :=
  ∀ calls : List SchedulerCall, (∀ i ∈ calls, i.isFinish) →
    machine.Admissible (s.admitTask task).1 calls →
    (task.conversationKey ∈ s.running →
      (s.PromotedAlong task calls ↔ tasksAhead ≤ finishesOf task.conversationKey calls)) ∧
    (task.conversationKey ∉ s.running → tasksAhead ≤ calls.length → s.PromotedAlong task calls)

variable {s : SchedulerState} {r : ReferenceScheduler} {task : TaskSummary}
  {calls : List SchedulerCall} {m d n : ℕ}

theorem tasksAhead_of_queued (h : (s.admitTask task).2 = .queued n) :
    n = s.tasksAheadFor task.conversationKey := by
  unfold admitTask at h
  split_ifs at h
  exact (Admission.queued.inj h).symm

theorem exists_finishes (h : (schedulerSimulation m d).Rel s r) (hn : n ≤ r.waiting.length) :
    ∃ calls : List SchedulerCall, calls.length = n ∧ (∀ i ∈ calls, i.isFinish) ∧
      machine.Admissible s calls := by
  induction n generalizing s r with
  | zero => exact ⟨[], rfl, by simp, trivial⟩
  | succ n ih =>
    have hw : r.waiting ≠ [] := List.ne_nil_of_length_pos (by omega)
    obtain ⟨c, hc⟩ := h.2.1.exists_running hw
    have hcall : machine.Enabled s (.finish c .completed none) := h.1.mem_running.mpr hc
    obtain ⟨-, -, -, -, -, hmoved⟩ := ReferenceScheduler.finish_moves .completed none hc
    have hone := r.length_promoted c .completed none
    have hlen := hmoved.length_eq
    rw [List.length_append] at hlen
    obtain ⟨calls, hcalls, hf, hadm⟩ := ih ((schedulerSimulation m d).step h hcall)
      (show n ≤ (r.finish c .completed none).1.waiting.length by omega)
    exact ⟨.finish c .completed none :: calls, by simp [hcalls], by simpa using ⟨rfl, hf⟩,
      hcall, hadm⟩

theorem admitTask_queued (h : (schedulerSimulation m d).Rel s r)
    (hq : (s.admitTask task).2 = .queued n) :
    ¬ (r.running.length < r.maxConcurrent ∧ task.conversationKey ∉ r.conversations ∧
        ∀ w ∈ r.waiting, w.conversationKey ≠ task.conversationKey) ∧
      (schedulerSimulation m d).Rel (s.admitTask task).1
        { r with waiting := r.waiting ++ [task] } := by
  have hrel := (schedulerSimulation m d).step (i := .admitTask task) h trivial
  have hout := (h.1.admitTask task).2
  rw [hq] at hout
  rcases r.admitTask_cases task with ⟨-, -, -, he⟩ | ⟨-, -, he⟩ | ⟨hblocked, -, he⟩
  · simp [he, Admission.outcome] at hout
  · simp [he, Admission.outcome] at hout
  · refine ⟨hblocked, ?_⟩
    simpa only [machine, ReferenceScheduler.machine, call, ReferenceScheduler.call, he] using hrel

/-- The queued task is promoted when nothing of its conversation waits any more. -/
theorem promotedAlong_iff (h : (schedulerSimulation m d).Rel s r)
    (hq : (s.admitTask task).2 = .queued n) (hf : ∀ i ∈ calls, i.isFinish)
    (hadm : machine.Admissible (s.admitTask task).1 calls) :
    s.PromotedAlong task calls ↔
      lane TaskSummary.conversationKey task.conversationKey
        (ReferenceScheduler.waiting (ReferenceScheduler.machine.run
          { r with waiting := r.waiting ++ [task] } calls).1) = [] := by
  obtain ⟨-, -, hout⟩ := (schedulerSimulation m d).run (admitTask_queued h hq).2 hadm
  have hlane := ReferenceScheduler.lane_run hf { r with waiting := r.waiting ++ [task] }
    task.conversationKey
  rw [lane_append_singleton, if_pos rfl] at hlane
  rw [← count_lt_count_iff hlane, PromotedAlong, waitingCopies, h.1.queued.getD_lookup,
    promotedTasks_congr hout]
  simp [lane, List.count_filter]

theorem lane_push (r : ReferenceScheduler) (task : TaskSummary) :
    lane TaskSummary.conversationKey task.conversationKey (r.waiting ++ [task]) =
      lane TaskSummary.conversationKey task.conversationKey r.waiting ++ [task] := by
  rw [lane_append_singleton, if_pos rfl]

theorem length_deque (h : (schedulerSimulation m d).Rel s r) (c : String) :
    ((s.queued.lookup c).map List.length).getD 0 =
      (lane TaskSummary.conversationKey c r.waiting).length := by
  rw [← h.1.queued.getD_lookup]
  cases s.queued.lookup c <;> rfl

theorem tasksAheadSound_of_running (h : (schedulerSimulation m d).Rel s r)
    (hq : (s.admitTask task).2 = .queued n) (hrun : task.conversationKey ∈ s.running) :
    s.TasksAheadSound task n := by
  intro calls hf hadm
  refine ⟨fun _ => ?_, fun hc => absurd hrun hc⟩
  obtain ⟨-, hrel⟩ := admitTask_queued h hq
  have hrun' := h.1.mem_running.mp hrun
  have hn : n = 1 + (lane TaskSummary.conversationKey task.conversationKey r.waiting).length := by
    rw [tasksAhead_of_queued hq, tasksAheadFor, if_pos (.inl hrun), if_pos hrun, length_deque h]
  obtain ⟨hadm', -, -⟩ := (schedulerSimulation m d).run hrel hadm
  rw [promotedAlong_iff h hq hf hadm,
    ReferenceScheduler.lane_run_own hf hrel.2.1 hadm' (fun _ => hrun'), List.drop_eq_nil_iff,
    lane_push, List.length_append, List.length_singleton]
  omega

/-- Where its conversation waits for a slot, as many runs may end as the number says, but they
promote only the tasks before this one. -/
theorem not_tasksAheadSound (h : (schedulerSimulation m d).Rel s r)
    (hq : (s.admitTask task).2 = .queued n) (hrun : task.conversationKey ∉ s.running)
    (hwait : task.conversationKey ∈ s.queued) : ¬ s.TasksAheadSound task n := by
  intro hsound
  obtain ⟨-, hrel⟩ := admitTask_queued h hq
  have hn : n = (lane TaskSummary.conversationKey task.conversationKey r.waiting).length := by
    rw [tasksAhead_of_queued hq, tasksAheadFor, if_pos (.inr hwait), if_neg hrun, length_deque h,
      Nat.zero_add]
  have hle : n ≤ (r.waiting ++ [task]).length := by
    rw [hn, List.length_append]
    exact (List.length_filter_le ..).trans (Nat.le_add_right ..)
  obtain ⟨calls, hlen, hf, hadm⟩ := exists_finishes hrel hle
  have hempty := (promotedAlong_iff h hq hf hadm).mp ((hsound calls hf hadm).2 hrun hlen.ge)
  have hlane := ReferenceScheduler.lane_run hf { r with waiting := r.waiting ++ [task] }
    task.conversationKey
  rw [hempty, lane_push, List.append_nil] at hlane
  have hfew := ReferenceScheduler.length_promotedTasks hf
    { r with waiting := r.waiting ++ [task] }
  have hall := List.length_filter_le (fun t => decide (t.conversationKey = task.conversationKey))
    (promotedTasks (ReferenceScheduler.machine.run { r with waiting := r.waiting ++ [task] }
      calls).2)
  have hcount := congrArg List.length hlane
  simp only [List.length_append, List.length_singleton] at hcount
  simp only [lane] at hcount hn
  omega

/-- A task whose conversation neither runs nor waits is told all tasks. -/
theorem tasksAheadSound_of_idle (h : (schedulerSimulation m d).Rel s r)
    (hq : (s.admitTask task).2 = .queued n) (hrun : task.conversationKey ∉ s.running)
    (hwait : task.conversationKey ∉ s.queued) : s.TasksAheadSound task n := by
  intro calls hf hadm
  refine ⟨fun hc => absurd hc hrun, fun _ hlen => ?_⟩
  obtain ⟨hblocked, hrel⟩ := admitTask_queued h hq
  have hidle : task.conversationKey ∉ r.conversations := fun hc => hrun (h.1.mem_running.mpr hc)
  have hnone : task.conversationKey ∉ order TaskSummary.conversationKey r.waiting :=
    fun hc => hwait (h.1.queued.mem_iff.mpr hc)
  have hfull : ¬ r.running.length < r.maxConcurrent := by
    intro hfree
    exact hblocked ⟨hfree, hidle, fun w hw hk => hnone (mem_order.mpr ⟨w, hw, hk⟩)⟩
  have hn : n = r.running.length + r.waiting.length := by
    rw [tasksAhead_of_queued hq, tasksAheadFor, if_neg (by simp [hrun, hwait]), h.1.size_running,
      h.1.waitingCount]
  obtain ⟨hadm', -, -⟩ := (schedulerSimulation m d).run hrel hadm
  rw [promotedAlong_iff h hq hf hadm]
  apply ReferenceScheduler.lane_run_idle hf hrel.2.1 hadm' _ (fun _ => hidle)
  · have hpos := h.2.1.positive
    simp only [List.length_append, List.length_singleton]
    omega
  · rw [lane_push, lane_eq_nil.mpr hnone]
    simp

/-- A queued task is told a sound number exactly when its conversation runs at that moment or
nothing of it waits. -/
theorem tasksAheadSound_iff (h : (schedulerSimulation m d).Rel s r)
    (hq : (s.admitTask task).2 = .queued n) :
    s.TasksAheadSound task n ↔
      task.conversationKey ∈ s.running ∨ task.conversationKey ∉ s.queued := by
  by_cases hrun : task.conversationKey ∈ s.running
  · exact iff_of_true (tasksAheadSound_of_running h hq hrun) (.inl hrun)
  by_cases hwait : task.conversationKey ∈ s.queued
  · exact iff_of_false (not_tasksAheadSound h hq hrun hwait) (by simp [hrun, hwait])
  · exact iff_of_true (tasksAheadSound_of_idle h hq hrun hwait) (.inr hwait)

end SchedulerState

/-- In every reachable state, the number told to a task that is queued is sound exactly when the
conversation of the task runs at that moment or has no waiting task. -/
theorem scheduler_tasksAhead_sound_iff (m d : ℕ) (calls : List SchedulerCall)
    (h : SchedulerState.machine.Admissible (SchedulerState.new m d) calls) (task : TaskSummary)
    (tasksAhead : ℕ) :
    let s : SchedulerState := (SchedulerState.machine.run (SchedulerState.new m d) calls).1
    (s.admitTask task).2 = .queued tasksAhead →
      (s.TasksAheadSound task tasksAhead ↔
        task.conversationKey ∈ s.running ∨ task.conversationKey ∉ s.queued) := by
  obtain ⟨-, hrel, -⟩ := (schedulerSimulation (max m 1) d).run (schedulerSimulation_new m d) h
  exact SchedulerState.tasksAheadSound_iff hrel

theorem scheduler_tasksAhead_sound_iff_contended :
    let s : SchedulerState :=
      (SchedulerState.machine.run (SchedulerState.new 1 2) (contendedCalls.take 2)).1
    s.TasksAheadSound (.new "task-3" "b") 2 ↔ "b" ∈ s.running ∨ "b" ∉ s.queued :=
  scheduler_tasksAhead_sound_iff 1 2 (contendedCalls.take 2) (by decide) (.new "task-3" "b") 2
    (by decide)

/-- A second task joins a conversation that waits for the only slot: it is told that one task
is ahead, and the first end of a run promotes the other one. -/
theorem scheduler_tasksAhead_unsound :
    let s : SchedulerState := (SchedulerState.machine.run (SchedulerState.new 1 2)
      [.admitTask (.new "task-1" "a"), .admitTask (.new "task-2" "b")]).1
    SchedulerState.machine.Admissible (SchedulerState.new 1 2)
        [.admitTask (.new "task-1" "a"), .admitTask (.new "task-2" "b")] ∧
      (s.admitTask (.new "task-3" "b")).2 = .queued 1 ∧
      ¬ s.TasksAheadSound (.new "task-3" "b") 1 := by
  refine ⟨by decide, by decide, fun hsound => ?_⟩
  have hlater := (hsound [.finish "a" .completed none] (by decide) (by decide)).2
    (by decide) (by decide)
  exact absurd hlater (by decide)

end DogBot
