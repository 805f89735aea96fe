import DogBot.Scheduler.Reference

/-! # Refinement of the arrival-ordered scheduler

The deques of `SchedulerState` store the lanes of the reference's waiting list,
and `readyConversations` holds exactly the idle conversations with waiting
tasks, ordered by the arrival of their oldest task. Both operations keep this
relation, so the two schedulers give the same answers along every run.
-/

namespace DogBot

open Arrival

/-- The scheduler state as a machine that answers calls. -/
abbrev SchedulerState.machine : Machine SchedulerCall (Admission ⊕ List TaskSummary) where
  State := SchedulerState
  Enabled := Callable
  step := call

/-- The conversations that wait for a slot, by the arrival of their oldest task. -/
def ReferenceScheduler.ready (r : ReferenceScheduler) : List String :=
  (order TaskSummary.conversationKey r.waiting).filter (· ∉ r.conversations)

/-- The slots, the deques and the history of the scheduler are those of the reference. -/
structure Represents (s : SchedulerState) (r : ReferenceScheduler) : Prop where
  maxConcurrent : s.maxConcurrent = r.maxConcurrent
  maxQueueDepth : s.maxQueueDepth = r.maxQueueDepth
  keyed : ∀ c t, s.running.lookup c = some t → t.conversationKey = c
  running : s.running.values.Perm r.running
  queued : Stores TaskSummary.conversationKey s.queued r.waiting
  terminal : s.recentTerminal = r.recentTerminal

/-- The scheduler also lists the conversations that wait for a slot. -/
structure Refines (s : SchedulerState) (r : ReferenceScheduler) : Prop extends Represents s r where
  ready : s.readyConversations = r.ready

variable {s : SchedulerState} {r : ReferenceScheduler} {task t : TaskSummary} {c : String}
  {state : TerminalState} {summary : Option String}

theorem refines_new (m d : ℕ) :
    Refines (SchedulerState.new m d) (ReferenceScheduler.new (max m 1) d) where
  maxConcurrent := rfl
  maxQueueDepth := rfl
  keyed := by intro c t h; simp [SchedulerState.new] at h
  running := .refl _
  queued := .nil
  ready := rfl
  terminal := rfl

namespace Represents

theorem size_running (h : Represents s r) : s.running.size = r.running.length := by
  rw [← AList.length_values]
  exact h.running.length_eq

theorem mem_running (h : Represents s r) : c ∈ s.running ↔ c ∈ r.conversations := by
  rw [ReferenceScheduler.mem_conversations, AList.mem_iff_lookup]
  constructor
  · rintro ⟨t, ht⟩
    exact ⟨t, h.running.mem_iff.mp (AList.mem_values.mpr ⟨c, ht⟩), h.keyed c t ht⟩
  · rintro ⟨t, ht, rfl⟩
    obtain ⟨k, hk⟩ := AList.mem_values.mp (h.running.mem_iff.mpr ht)
    exact ⟨t, (h.keyed k t hk) ▸ hk⟩

theorem waitingCount (h : Represents s r) : s.waitingCount = r.waiting.length := h.queued.total

theorem lane_isEmpty (h : Represents s r) :
    ((s.queued.lookup c).map List.isEmpty).getD true = true ↔
      ∀ w ∈ r.waiting, w.conversationKey ≠ c := by
  have hl : lane TaskSummary.conversationKey c r.waiting = [] ↔
      ∀ w ∈ r.waiting, w.conversationKey ≠ c := by
    simp [lane]
  rw [← hl, h.queued.lookup]
  split_ifs with he <;> simp [he]

theorem canStartNow (h : Represents s r) :
    s.canStartNow c = true ↔ r.running.length < r.maxConcurrent ∧ c ∉ r.conversations ∧
      ∀ w ∈ r.waiting, w.conversationKey ≠ c := by
  simp only [SchedulerState.canStartNow, Bool.and_eq_true, decide_eq_true_eq, h.lane_isEmpty,
    h.mem_running, h.size_running, h.maxConcurrent, and_assoc]

theorem snapshot (h : Represents s r) (hr : r.Inv) : s.snapshot = r.snapshot := by
  simp only [SchedulerState.snapshot, ReferenceScheduler.snapshot, h.size_running,
    h.maxConcurrent, h.waitingCount, h.maxQueueDepth, h.terminal,
    sortByConversation_congr h.running hr.nodup]

theorem insertRunning (h : Represents s r) (task : TaskSummary)
    (hidle : task.conversationKey ∉ r.conversations) :
    Represents (s.insertRunning task) { r with running := r.running ++ [task] } := by
  refine ⟨h.maxConcurrent, h.maxQueueDepth, ?_, ?_, h.queued, h.terminal⟩
  · intro c t ht
    simp only [SchedulerState.insertRunning, AList.lookup_insert'] at ht
    split_ifs at ht with hc
    · cases ht; exact hc.symm
    · exact h.keyed c t ht
  · have hn : task.conversationKey ∉ s.running := fun hm => hidle (h.mem_running.mp hm)
    rw [SchedulerState.insertRunning, AList.values_insert_of_notMem hn]
    exact (h.running.cons task).trans (List.perm_append_singleton task r.running).symm

theorem recentTerminal_append (l : List TerminalSummary) (x : TerminalSummary) {n : ℕ}
    (hn : 0 < n) :
    (if (l.drop (l.length - n) ++ [x]).length > n then (l.drop (l.length - n) ++ [x]).tail
      else l.drop (l.length - n) ++ [x]) = (l ++ [x]).drop ((l ++ [x]).length - n) := by
  have hlen : (l.drop (l.length - n) ++ [x]).length = l.length - (l.length - n) + 1 := by simp
  have hdrop : (l ++ [x]).drop ((l ++ [x]).length - n) = l.drop (l.length + 1 - n) ++ [x] := by
    rw [List.drop_append_of_le_length] <;> simp only [List.length_append, List.length_singleton]
    omega
  rw [hlen, hdrop]
  split_ifs with h
  · have hne : l.drop (l.length - n) ≠ [] := by
      rw [← List.length_pos_iff]; simp only [List.length_drop]; omega
    rw [List.tail_append_of_ne_nil hne, List.tail_drop]
    congr 2; omega
  · have h₀ : l.length - n = 0 := by omega
    have h₁ : l.length + 1 - n = 0 := by omega
    rw [h₀, h₁]

/-- Freeing a slot and recording how its run ended. -/
theorem close (h : Represents s r) (state : TerminalState) (summary : Option String) (hr : r.Inv)
    (hc : c ∈ r.conversations) :
    ∃ f, s.running.lookup c = some f ∧
      Represents ({ s with running := s.running.erase c }.pushTerminal
        ⟨f.taskId, f.conversationKey, state, summary⟩) (r.close c state summary) := by
  obtain ⟨f, hk, -, hperm, hclose⟩ := ReferenceScheduler.close_spec state summary hc
  obtain ⟨g, hg⟩ := AList.mem_iff_lookup.mp (h.mem_running.mpr hc)
  have hgf : g = f := by
    have hg' : g ∈ r.running := h.running.mem_iff.mp (AList.mem_values.mpr ⟨c, hg⟩)
    have hf : f ∈ r.running := hperm.mem_iff.mpr (List.mem_cons_self ..)
    exact List.inj_on_of_nodup_map hr.nodup hg' hf ((h.keyed c g hg).trans hk.symm)
  subst hgf
  refine ⟨g, hg, ?_⟩
  have hrun : (s.running.erase c).values.Perm (r.close c state summary).running :=
    ((AList.values_perm_of_lookup hg).symm.trans (h.running.trans hperm)).cons_inv
  rw [hclose] at hrun ⊢
  refine ⟨h.maxConcurrent, h.maxQueueDepth, ?_, hrun, h.queued, ?_⟩
  · intro d t ht
    simp only [SchedulerState.pushTerminal, AList.lookup_erase'] at ht
    split_ifs at ht with hd
    exact h.keyed d t ht
  · simp only [SchedulerState.pushTerminal, h.terminal]
    exact recentTerminal_append _ _ (by decide)

theorem popNext_none (h : Represents s r)
    (hl : lane TaskSummary.conversationKey c r.waiting = []) :
    s.popNextForConversation c = (s, none) := by
  rw [SchedulerState.popNextForConversation, h.queued.lookup_eq_none hl]

theorem popNext_some (h : Represents s r) {rest : List TaskSummary}
    (hl : lane TaskSummary.conversationKey c r.waiting = t :: rest) :
    ∃ queued, s.popNextForConversation c = ({ s with queued }, some t) ∧
      Represents { s with queued }
        { r with waiting := pop TaskSummary.conversationKey c r.waiting } := by
  have hs := h.queued.lookup_of_lane (c := c) (by simp [hl])
  rw [hl] at hs
  refine ⟨_, by rw [SchedulerState.popNextForConversation, hs]; rfl, ?_⟩
  exact ⟨h.maxConcurrent, h.maxQueueDepth, h.keyed, h.running, h.queued.pop hl, h.terminal⟩

end Represents

namespace SchedulerState

theorem promoteReady_full {ready : List String} {promoted : List TaskSummary}
    (h : s.maxConcurrent ≤ s.running.size) : promoteReady ready s promoted = (s, promoted) := by
  cases ready with
  | nil => rfl
  | cons c ready => rw [promoteReady, if_neg (Nat.not_lt.mpr h)]

theorem promoteReady_last {d : String} {queued : Table String (List TaskSummary)}
    (ready : List String)
    (hfree : s.running.size + 1 = s.maxConcurrent) (hd : t.conversationKey = d)
    (hidle : d ∉ s.running)
    (hpop : s.popNextForConversation d = ({ s with queued }, some t)) :
    promoteReady (d :: ready) s [] =
      (({ s with queued, readyConversations := ready }.insertRunning t), [t]) := by
  have hpop' : { s with readyConversations := ready }.popNextForConversation d =
      ({ s with queued, readyConversations := ready }, some t) := by
    unfold popNextForConversation at hpop ⊢
    cases hq : s.queued.lookup d with
    | none => simp [hq] at hpop
    | some q =>
      simp only [hq, Prod.mk.injEq] at hpop ⊢
      exact ⟨congrArg (fun s : SchedulerState => { s with readyConversations := ready }) hpop.1,
        hpop.2⟩
  rw [promoteReady, if_pos (by omega), if_neg hidle, hpop']
  apply promoteReady_full
  change s.maxConcurrent ≤ (s.running.insert t.conversationKey t).size
  rw [AList.size_insert_of_notMem (hd ▸ hidle)]
  exact hfree.ge

end SchedulerState

namespace Refines

theorem ready_eq_nil (h : Refines s r) (hr : r.Inv) (hfree : r.running.length < r.maxConcurrent) :
    s.readyConversations = [] := by
  rw [h.ready, ReferenceScheduler.ready, List.filter_eq_nil_iff]
  intro c hc
  obtain ⟨w, hw, rfl⟩ := mem_order.mp hc
  simpa using hr.conserving hfree w hw

/-- Queueing a task extends its deque and, if its conversation is idle, the ready list. -/
theorem push_waiting (h : Refines s r) :
    (let queue := (s.queued.lookup task.conversationKey).getD [] ++ [task]
     let s' := { s with queued := s.queued.insert task.conversationKey queue }
     Refines
      (if ((s.queued.lookup task.conversationKey).map List.isEmpty).getD true ∧
          task.conversationKey ∉ s.running then s'.pushReadyConversation task.conversationKey
       else s')
      { r with waiting := r.waiting ++ [task] }) := by
  have hlane : ((s.queued.lookup task.conversationKey).map List.isEmpty).getD true = true ↔
      task.conversationKey ∉ order TaskSummary.conversationKey r.waiting := by
    rw [h.lane_isEmpty, mem_order]
    simp
  have hnew : ReferenceScheduler.ready { r with waiting := r.waiting ++ [task] } =
      if task.conversationKey ∉ order TaskSummary.conversationKey r.waiting ∧
        task.conversationKey ∉ r.conversations then r.ready ++ [task.conversationKey]
      else r.ready := by
    change (order TaskSummary.conversationKey (r.waiting ++ [task])).filter
      (· ∉ r.conversations) = _
    rw [order_append_singleton]
    by_cases hm : task.conversationKey ∈ order TaskSummary.conversationKey r.waiting
    · simp [hm, ReferenceScheduler.ready]
    · by_cases hc : task.conversationKey ∈ r.conversations <;>
        simp [hm, hc, ReferenceScheduler.ready]
  simp only [hlane, h.mem_running]
  split_ifs with hidle
  · have hfresh : ¬ s.readyConversations.any (· == task.conversationKey) := by
      rw [h.ready]
      simp [ReferenceScheduler.ready, hidle.1]
    simp only [SchedulerState.pushReadyConversation, hfresh, Bool.false_eq_true, if_false]
    exact ⟨⟨h.maxConcurrent, h.maxQueueDepth, h.keyed, h.running, h.queued.push, h.terminal⟩,
      by rw [hnew, if_pos hidle, h.ready]⟩
  · exact ⟨⟨h.maxConcurrent, h.maxQueueDepth, h.keyed, h.running, h.queued.push, h.terminal⟩,
      by rw [hnew, if_neg hidle]; exact h.ready⟩

theorem admitTask (h : Refines s r) (task : TaskSummary) :
    Refines (s.admitTask task).1 (r.admitTask task).1 ∧
      (s.admitTask task).2.outcome = (r.admitTask task).2 := by
  have hwait : s.waitingCount ≥ s.maxQueueDepth ↔ r.maxQueueDepth ≤ r.waiting.length := by
    rw [h.waitingCount, h.maxQueueDepth]
  rcases r.admitTask_cases task with
    ⟨hlt, hidle, hnone, he⟩ | ⟨hblocked, hfull, he⟩ | ⟨hblocked, hlt, he⟩
  · rw [he, SchedulerState.admitTask, if_pos (h.canStartNow.mpr ⟨hlt, hidle, hnone⟩)]
    refine ⟨⟨h.insertRunning task hidle, ?_⟩, rfl⟩
    -- Nothing of the conversation waits, so its start does not change who is ready.
    change s.readyConversations = _
    rw [h.ready]
    refine List.filter_congr fun c hc => ?_
    obtain ⟨w, hw, rfl⟩ := mem_order.mp hc
    simp [ReferenceScheduler.conversations, hnone w hw]
  · rw [he, SchedulerState.admitTask, if_neg (mt h.canStartNow.mp hblocked),
      if_pos (hwait.mpr hfull)]
    exact ⟨h, rfl⟩
  · rw [he, SchedulerState.admitTask, if_neg (mt h.canStartNow.mp hblocked),
      if_neg (mt hwait.mp (Nat.not_le_of_lt hlt))]
    exact ⟨h.push_waiting, rfl⟩

end Refines

/-- The situation after the slot of `c` has been freed: the ready list still is the one of
the time when `c` was running. -/
structure Freed (s : SchedulerState) (r : ReferenceScheduler) (c : String) : Prop
    extends Represents s r where
  free : c ∉ r.conversations
  slot : r.running.length + 1 ≤ r.maxConcurrent
  ready : s.readyConversations = (order TaskSummary.conversationKey r.waiting).filter
    (· ∉ c :: r.conversations)
  conserving : r.running.length + 1 < r.maxConcurrent → s.readyConversations = []

theorem Refines.freed (h : Refines s r) (hr : r.Inv) (hc : c ∈ r.conversations)
    (state : TerminalState) (summary : Option String) :
    ∃ f, s.running.lookup c = some f ∧
      Freed ({ s with running := s.running.erase c }.pushTerminal
        ⟨f.taskId, f.conversationKey, state, summary⟩) (r.close c state summary) c := by
  obtain ⟨f, hf, hrep⟩ := h.toRepresents.close state summary hr hc
  have hconv := ReferenceScheduler.conversations_close state summary hc
  have hlen : r.running.length = (r.close c state summary).running.length + 1 := by
    simpa [ReferenceScheduler.conversations] using hconv.length_eq
  have hcap : (r.close c state summary).maxConcurrent = r.maxConcurrent := r.maxConcurrent_close ..
  have hw : (r.close c state summary).waiting = r.waiting := r.waiting_close ..
  refine ⟨f, hf, hrep, (List.nodup_cons.mp (hconv.nodup_iff.mp hr.nodup)).1, ?_, ?_, ?_⟩
  · have := hr.capacity; omega
  · change s.readyConversations = _
    rw [h.ready, hw]
    exact List.filter_congr fun d _ => by simp only [hconv.mem_iff]
  · intro hlt
    exact h.ready_eq_nil hr (by omega)

namespace Freed

theorem promote_own (h : Freed s r c) {rest : List TaskSummary}
    (hl : lane TaskSummary.conversationKey c r.waiting = t :: rest) (hk : t.conversationKey = c) :
    ∃ s', s.promoteNext c = (s', [t]) ∧ Refines s' { r with
      running := r.running ++ [t], waiting := pop TaskSummary.conversationKey c r.waiting } := by
  obtain ⟨queued, hpop, hrep⟩ := h.popNext_some hl
  have hrep := hrep.insertRunning t (hk ▸ h.free)
  have hstop : SchedulerState.promoteReady s.readyConversations
      ({ s with queued }.insertRunning t) [t] = ({ s with queued }.insertRunning t, [t]) := by
    by_cases hfull : r.running.length + 1 < r.maxConcurrent
    · rw [h.conserving hfull]; rfl
    · apply SchedulerState.promoteReady_full
      rw [hrep.size_running, hrep.maxConcurrent]
      simpa using hfull
  refine ⟨_, by rw [SchedulerState.promoteNext, hpop]; exact hstop, hrep, ?_⟩
  -- The served lane belongs to a running conversation, so the ready list stays.
  change s.readyConversations = List.filter _ (order _ (pop _ c r.waiting))
  rw [h.ready, filter_order_pop (by simp [ReferenceScheduler.conversations, hk])]
  refine List.filter_congr fun d _ => ?_
  simp [ReferenceScheduler.conversations, hk, or_comm]

/-- Without a successor, the conversation that has been ready longest takes the slot. -/
theorem promote_ready (h : Freed s r c) (hl : lane TaskSummary.conversationKey c r.waiting = [])
    (ht : r.waiting.find? (·.conversationKey ∉ r.conversations) = some t) :
    ∃ s', s.promoteNext c = (s', [t]) ∧ Refines s' { r with
      running := r.running ++ [t]
      waiting := pop TaskSummary.conversationKey t.conversationKey r.waiting } := by
  have hidle : t.conversationKey ∉ r.conversations := by simpa using List.find?_some ht
  have hready : s.readyConversations = r.ready := by
    rw [h.ready]
    refine List.filter_congr fun d hd => ?_
    have : d ≠ c := by rintro rfl; exact lane_eq_nil.mp hl hd
    simp [this]
  obtain ⟨rest, hrest⟩ : ∃ rest, r.ready = t.conversationKey :: rest := by
    apply List.head?_eq_some_iff.mp
    rw [ReferenceScheduler.ready, head?_filter_order, ht, Option.map_some]
  obtain ⟨tail, htail⟩ : ∃ tail,
      lane TaskSummary.conversationKey t.conversationKey r.waiting = t :: tail := by
    apply List.head?_eq_some_iff.mp
    rw [head?_lane]
    exact (@find?_lane _ _ _ _ _ _ (fun k => k ∉ r.conversations) ht).1
  obtain ⟨queued, hpop, hrep⟩ := h.popNext_some htail
  have hrep := hrep.insertRunning t hidle
  have hfull : ¬ r.running.length + 1 < r.maxConcurrent := fun hlt => by
    have := h.conserving hlt
    rw [hready, hrest] at this
    exact List.cons_ne_nil _ _ this
  have hslot := h.slot
  have hlast := SchedulerState.promoteReady_last rest
    (by rw [h.size_running, h.maxConcurrent]; omega) rfl (mt h.mem_running.mp hidle) hpop
  refine ⟨{ s with queued, readyConversations := rest }.insertRunning t, ?_,
    ⟨hrep.maxConcurrent, hrep.maxQueueDepth, hrep.keyed, hrep.running, hrep.queued,
      hrep.terminal⟩, ?_⟩
  · simp only [SchedulerState.promoteNext, h.popNext_none hl, hready, hrest, hlast]
  · -- The started conversation leaves the head of the ready list.
    change rest = List.filter _ (order _ (pop _ t.conversationKey r.waiting))
    rw [filter_order_pop (by simp [ReferenceScheduler.conversations])]
    have hnodup : (t.conversationKey :: rest).Nodup := hrest ▸ order_nodup.filter _
    have hsplit : rest = (t.conversationKey :: rest).filter (· ≠ t.conversationKey) := by
      rw [List.filter_cons_of_neg (by simp), List.filter_eq_self.mpr]
      intro d hd
      have := (List.nodup_cons.mp hnodup).1
      simp only [decide_eq_true_eq]
      rintro rfl
      exact this hd
    rw [hsplit, ← hrest, ReferenceScheduler.ready, List.filter_filter]
    refine List.filter_congr fun d _ => ?_
    by_cases hd : d = t.conversationKey <;> simp [ReferenceScheduler.conversations, hd]

theorem promote_none (h : Freed s r c) (hl : lane TaskSummary.conversationKey c r.waiting = [])
    (hidle : r.waiting.find? (·.conversationKey ∉ r.conversations) = none) :
    s.promoteNext c = (s, []) ∧ Refines s r := by
  have hready : r.ready = [] := by
    apply List.head?_eq_none_iff.mp
    rw [ReferenceScheduler.ready, head?_filter_order, hidle, Option.map_none]
  have hs : s.readyConversations = [] := by
    rw [h.ready, ← hready]
    refine List.filter_congr fun d hd => ?_
    have : d ≠ c := by rintro rfl; exact lane_eq_nil.mp hl hd
    simp [this]
  refine ⟨?_, h.toRepresents, hs.trans hready.symm⟩
  simp only [SchedulerState.promoteNext, h.popNext_none hl, hs, SchedulerState.promoteReady]

end Freed

/-- Both schedulers promote the same tasks at the end of a run. -/
theorem Refines.finish (h : Refines s r) (hr : r.Inv) (hc : c ∈ r.conversations)
    (state : TerminalState) (summary : Option String) :
    Refines (s.finish c state summary).1 (r.finish c state summary).1 ∧
      (s.finish c state summary).2 = (r.finish c state summary).2 := by
  obtain ⟨f, hf, hfreed⟩ := h.freed hr hc state summary
  have hw : (r.close c state summary).waiting = r.waiting := r.waiting_close ..
  have hlane : r.waiting.find? (·.conversationKey = c) = none →
      lane TaskSummary.conversationKey c (r.close c state summary).waiting = [] := fun hown => by
    rw [hw]
    exact List.head?_eq_none_iff.mp (head?_lane.trans hown)
  simp only [SchedulerState.finish, hf]
  rcases r.finish_cases c state summary with ⟨t, ht, he⟩ | ⟨hown, t, ht, he⟩ | ⟨hown, hidle, he⟩
  · obtain ⟨rest, hl⟩ : ∃ rest,
        lane TaskSummary.conversationKey c (r.close c state summary).waiting = t :: rest := by
      apply List.head?_eq_some_iff.mp
      rw [head?_lane, hw, ht]
    obtain ⟨s', hs', href⟩ := hfreed.promote_own hl (by simpa using List.find?_some ht)
    rw [hw] at href
    rw [he, hs']
    exact ⟨href, rfl⟩
  · obtain ⟨s', hs', href⟩ := hfreed.promote_ready (hlane hown) (hw.symm ▸ ht)
    rw [hw] at href
    rw [he, hs']
    exact ⟨href, rfl⟩
  · obtain ⟨hs', href⟩ := hfreed.promote_none (hlane hown) (hw.symm ▸ hidle)
    rw [he, hs']
    exact ⟨href, rfl⟩

end DogBot
