import Mathlib.Data.List.Perm.Basic
import DogBot.Scheduler.Refinement
import DogBot.Server.RunScheduler

/-! # Conservation of tasks

Scheduler state and payload table are updated by different code paths. Beside
the refinement of the scheduler state, the joint invariant says that the
payload table stores exactly the waiting tasks, that the tasks in flight are the
running ones, and that ids move from answered over promoted to spawned without
loss. It is kept by every step, in every interleaving.
-/

namespace DogBot

def ScheduleFeedback.outcome : ScheduleFeedback → Outcome
  | .started => .started
  | .queued _ => .queued
  | .queueFull => .rejected

variable {inner : RunSchedulerInner} {scheduled task : ScheduledRun} {w : RunWorld}
  {r : ReferenceScheduler} {terminal : TerminalState} {terminalSummary : Option String}

/-- What the critical section of `submit` can do. -/
theorem RunSchedulerInner.submit_cases (inner : RunSchedulerInner) (scheduled : ScheduledRun) :
    (inner.state.admitTask scheduled.summary).2.outcome =
        (inner.submit scheduled).feedback.outcome ∧
      (inner.submit scheduled).inner.state = (inner.state.admitTask scheduled.summary).1 ∧
      (((inner.submit scheduled).feedback = .started ∧
          (inner.submit scheduled).startNow = some scheduled ∧
          (inner.submit scheduled).inner.queuedPayloads = inner.queuedPayloads) ∨
        ((∃ k, (inner.submit scheduled).feedback = .queued k) ∧
          (inner.submit scheduled).startNow = none ∧
          (inner.submit scheduled).inner.queuedPayloads =
            inner.queuedPayloads.insert scheduled.taskId scheduled) ∨
        ((inner.submit scheduled).feedback = .queueFull ∧
          (inner.submit scheduled).startNow = none ∧
          (inner.submit scheduled).inner = inner)) := by
  rcases hs : inner.state.admitTask scheduled.summary with ⟨state, admission⟩
  cases admission with
  | startNow => simp [submit, hs, Admission.outcome, ScheduleFeedback.outcome]
  | queued k => simp [submit, hs, Admission.outcome, ScheduleFeedback.outcome]
  | queueFull =>
    have hstate : state = inner.state := by
      unfold SchedulerState.admitTask at hs
      split_ifs at hs with h₁ h₂ <;> simp at hs
      exact hs.symm
    subst hstate
    simp [submit, hs, Admission.outcome, ScheduleFeedback.outcome]

/-- Every promoted task whose payload is stored is taken out of the table, and none is skipped. -/
theorem removePayloads_spec {promoted : List TaskSummary} {payloads : Table String ScheduledRun}
    (hn : (promoted.map TaskSummary.taskId).Nodup)
    (h : ∀ t ∈ promoted, (payloads.lookup t.taskId).map ScheduledRun.summary = some t) :
    (removePayloads payloads promoted).2.map ScheduledRun.summary = promoted ∧
      ∀ id, (removePayloads payloads promoted).1.lookup id =
        if id ∈ promoted.map TaskSummary.taskId then none else payloads.lookup id := by
  induction promoted generalizing payloads with
  | nil => exact ⟨rfl, fun id => rfl⟩
  | cons t promoted ih =>
    obtain ⟨ht, hn⟩ := List.nodup_cons.mp hn
    have hrest : ∀ u ∈ promoted,
        ((payloads.erase t.taskId).lookup u.taskId).map ScheduledRun.summary = some u := by
      intro u hu
      have hne : u.taskId ≠ t.taskId := fun he => ht (he ▸ List.mem_map_of_mem hu)
      rw [AList.lookup_erase_ne hne]
      exact h u (List.mem_cons_of_mem _ hu)
    obtain ⟨hruns, hlookup⟩ := ih hn hrest
    obtain ⟨run, hrun, hsum⟩ := Option.map_eq_some_iff.mp (h t (List.mem_cons_self ..))
    refine ⟨by simp [removePayloads, hrun, hsum, hruns], fun id => ?_⟩
    change (removePayloads (payloads.erase t.taskId) promoted).1.lookup id = _
    rw [hlookup, AList.lookup_erase']
    simp only [List.map_cons, List.mem_cons]
    by_cases hid : id ∈ promoted.map TaskSummary.taskId
    · rw [if_pos hid, if_pos (.inr hid)]
    · simp only [hid, if_false, or_false]

theorem perm_cons_eraseIdx {α : Type*} {l : List α} {i : ℕ} {a : α} (h : l[i]? = some a) :
    l.Perm (a :: l.eraseIdx i) := by
  obtain ⟨hi, rfl⟩ := List.getElem?_eq_some_iff.mp h
  exact (List.getElem_cons_eraseIdx_perm hi).symm

theorem perm_concat {α : Type*} {l l₁ l₂ : List α} (h : l.Perm (l₁ ++ l₂)) (a : α) :
    (l ++ [a]).Perm (l₁ ++ [a] ++ l₂) := by
  refine (h.append_right _).trans ?_
  rw [List.append_assoc, List.append_assoc]
  exact List.perm_append_comm.append_left _

namespace RunWorld

/-- The ids of the tasks that were given an answer. -/
def answered (w : RunWorld) (outcome : Outcome) : List String :=
  (w.history.answers.filter fun answer => answer.2.outcome = outcome).map Prod.fst

/-- The tasks that hold a slot: spawned and not finished, or about to be spawned. -/
def inFlight (w : RunWorld) : List ScheduledRun := w.live ++ w.handedOut

/-- The ids that have been spawned or are about to be. -/
def handled (w : RunWorld) : List String :=
  w.history.spawned ++ w.handedOut.map ScheduledRun.taskId

/-- The joint invariant of scheduler state, payload table and tasks in flight. -/
structure Inv (w : RunWorld) (r : ReferenceScheduler) : Prop where
  refines : Refines w.inner.state r
  reference : r.Inv
  payload : ∀ id t, (w.inner.queuedPayloads.lookup id).map ScheduledRun.summary = some t ↔
    t ∈ r.waiting ∧ t.taskId = id
  inFlight : (w.inFlight.map ScheduledRun.summary).Perm r.running
  fresh : (w.history.answers.map Prod.fst).Nodup
  queued : (w.answered .queued).Perm (r.waiting.map TaskSummary.taskId ++ w.history.promoted)
  handled : w.handled.Perm (w.answered .started ++ w.history.promoted)

theorem inv_new (m d : ℕ) : (new m d).Inv (ReferenceScheduler.new (max m 1) d) where
  refines := refines_new m d
  reference := ReferenceScheduler.inv_new (Nat.le_max_right m 1)
  payload := by simp [new, RunSchedulerInner.new, ReferenceScheduler.new]
  inFlight := .refl _
  fresh := List.nodup_nil
  queued := .refl _
  handled := .refl _

/-- Every answered id has exactly one of the three outcomes. -/
theorem answered_perm (w : RunWorld) :
    (w.history.answers.map Prod.fst).Perm
      (w.answered .started ++ (w.answered .queued ++ w.answered .rejected)) := by
  unfold answered
  induction w.history.answers with
  | nil => exact .refl _
  | cons answer answers ih =>
    rcases hk : answer.2.outcome with _ | _ | _
    · simpa [hk] using ih
    · simp only [List.map_cons, hk, List.filter_cons, reduceCtorEq, decide_false,
        decide_true, Bool.false_eq_true, if_false, if_true, List.cons_append]
      exact (ih.cons _).trans List.perm_middle.symm
    · simp only [List.map_cons, hk, List.filter_cons, reduceCtorEq, decide_false,
        decide_true, Bool.false_eq_true, if_false, if_true]
      refine (ih.cons _).trans ?_
      rw [← List.append_assoc, ← List.append_assoc]
      exact List.perm_middle.symm

namespace Inv

theorem nodup (h : w.Inv r) :
    (w.answered .started ++ ((r.waiting.map TaskSummary.taskId ++ w.history.promoted) ++
      w.answered .rejected)).Nodup :=
  ((w.answered_perm.trans ((h.queued.append_right _).append_left _)).nodup_iff).mp h.fresh

theorem waiting_nodup (h : w.Inv r) : (r.waiting.map TaskSummary.taskId).Nodup :=
  h.nodup.of_append_right.of_append_left.of_append_left

theorem waiting_answered (h : w.Inv r) {t : TaskSummary} (ht : t ∈ r.waiting) :
    t.taskId ∈ w.history.answers.map Prod.fst := by
  have : t.taskId ∈ w.answered .queued :=
    h.queued.mem_iff.mpr (List.mem_append_left _ (List.mem_map_of_mem ht))
  exact w.answered_perm.mem_iff.mpr (by simp [this])

/-- The payload of a task that starts to wait is found under its fresh id, and no other. -/
theorem payload_insert (h : w.Inv r) (hid : scheduled.taskId ∉ w.history.answers.map Prod.fst)
    (id : String) (t : TaskSummary) :
    ((w.inner.queuedPayloads.insert scheduled.taskId scheduled).lookup id).map
        ScheduledRun.summary = some t ↔
      t ∈ r.waiting ++ [scheduled.summary] ∧ t.taskId = id := by
  rw [AList.lookup_insert', List.mem_append, List.mem_singleton]
  split_ifs with he
  · -- A fresh id is not the id of a task that waits already.
    have hnew : ∀ u ∈ r.waiting, u.taskId ≠ id := fun u hu hid' =>
      hid (he ▸ hid' ▸ h.waiting_answered hu)
    constructor
    · rintro ⟨⟩
      exact ⟨.inr rfl, he.symm⟩
    · rintro ⟨ht | rfl, htid⟩
      · exact absurd htid (hnew t ht)
      · rfl
  · rw [h.payload]
    constructor
    · rintro ⟨ht, htid⟩
      exact ⟨.inl ht, htid⟩
    · rintro ⟨ht | rfl, htid⟩
      · exact ⟨ht, htid⟩
      · exact absurd htid.symm he

theorem submit (h : w.Inv r) (hid : scheduled.taskId ∉ w.history.answers.map Prod.fst) :
    (w.submit scheduled).Inv (r.admitTask scheduled.summary).1 := by
  obtain ⟨hout, hstate, hcases⟩ := w.inner.submit_cases scheduled
  obtain ⟨href, houtcome⟩ := h.refines.admitTask scheduled.summary
  have hfresh : ((w.submit scheduled).history.answers.map Prod.fst).Nodup := by
    simpa [RunWorld.submit] using List.Nodup.concat hid h.fresh
  have hanswer : ∀ o, (w.submit scheduled).answered o =
      if (w.inner.submit scheduled).feedback.outcome = o then w.answered o ++ [scheduled.taskId]
      else w.answered o := by
    intro o
    by_cases ho : (w.inner.submit scheduled).feedback.outcome = o <;>
      simp [answered, RunWorld.submit, ho]
  have href : Refines (w.submit scheduled).inner.state (r.admitTask scheduled.summary).1 := by
    rw [RunWorld.submit, hstate]
    exact href
  have hr := r.admitTask_fst scheduled.summary
  rw [← houtcome, hout] at hr
  rcases hcases with ⟨hf, hs, hp⟩ | ⟨⟨k, hf⟩, hs, hp⟩ | ⟨hf, hs, hp⟩
  · simp only [hf, ScheduleFeedback.outcome] at hr hanswer
    refine ⟨href, h.reference.admitTask, ?_, ?_, hfresh, ?_, ?_⟩
    · rw [hr]
      simpa [RunWorld.submit, hp] using h.payload
    · rw [hr]
      simpa [RunWorld.submit, RunWorld.inFlight, hs] using
        h.inFlight.append_right [scheduled.summary]
    · rw [hr, hanswer]
      exact h.queued
    · rw [hanswer, if_pos rfl]
      simp only [RunWorld.handled, RunWorld.submit, hs, Option.toList_some, List.map_append,
        List.map_singleton, ← List.append_assoc]
      exact perm_concat h.handled _
  · simp only [hf, ScheduleFeedback.outcome] at hr hanswer
    refine ⟨href, h.reference.admitTask, ?_, ?_, hfresh, ?_, ?_⟩
    · rw [hr]
      intro id t
      rw [RunWorld.submit, hp]
      exact h.payload_insert hid id t
    · rw [hr]
      simpa [RunWorld.submit, RunWorld.inFlight, hs] using h.inFlight
    · rw [hr, hanswer, if_pos rfl, List.map_append]
      exact perm_concat h.queued _
    · rw [hanswer]
      simpa [RunWorld.handled, RunWorld.submit, hs] using h.handled
  · simp only [hf, ScheduleFeedback.outcome] at hr hanswer
    refine ⟨href, h.reference.admitTask, ?_, ?_, hfresh, ?_, ?_⟩
    · rw [hr]
      simpa [RunWorld.submit, hp] using h.payload
    · rw [hr]
      simpa [RunWorld.submit, RunWorld.inFlight, hs] using h.inFlight
    · rw [hr, hanswer]
      exact h.queued
    · rw [hanswer]
      simpa [RunWorld.handled, RunWorld.submit, hs] using h.handled

theorem spawn (h : w.Inv r) {i : ℕ} (hi : w.handedOut[i]? = some task) :
    (w.spawn i task).Inv r := by
  have hperm := perm_cons_eraseIdx hi
  refine ⟨h.refines, h.reference, h.payload, ?_, h.fresh, h.queued, ?_⟩
  · have : (w.spawn i task).inFlight.Perm w.inFlight := by
      simp only [RunWorld.inFlight, RunWorld.spawn, List.append_assoc, List.singleton_append]
      exact hperm.symm.append_left _
    exact (this.map _).trans h.inFlight
  · refine .trans ?_ h.handled
    simp only [RunWorld.handled, RunWorld.spawn, List.append_assoc, List.singleton_append]
    exact (hperm.map ScheduledRun.taskId).symm.append_left _

theorem mem_running (h : w.Inv r) (ht : task ∈ w.inFlight) : task.summary ∈ r.running :=
  h.inFlight.mem_iff.mp (List.mem_map_of_mem ht)

theorem mem_conversations (h : w.Inv r) (ht : task ∈ w.inFlight) :
    task.summary.conversationKey ∈ r.conversations :=
  List.mem_map_of_mem (h.mem_running ht)

/-- The payloads of the tasks promoted at the end of a run are all found. -/
theorem finish_payloads (h : w.Inv r) (ht : task ∈ w.inFlight) (terminal : TerminalState)
    (terminalSummary : Option String) :
    let promoted := (r.finish task.summary.conversationKey terminal terminalSummary).2
    (w.inner.state.finish task.summary.conversationKey terminal terminalSummary).2 = promoted ∧
      (w.inner.finish task terminal terminalSummary).2.map ScheduledRun.summary = promoted ∧
      ∀ id, (w.inner.finish task terminal terminalSummary).1.queuedPayloads.lookup id =
        if id ∈ promoted.map TaskSummary.taskId then none
        else w.inner.queuedPayloads.lookup id := by
  have hc := h.mem_conversations ht
  obtain ⟨-, hout⟩ := h.refines.finish h.reference hc terminal terminalSummary
  obtain ⟨f, rest, -, -, -, hwait⟩ :=
    ReferenceScheduler.finish_moves terminal terminalSummary hc
  have hn := ((hwait.map TaskSummary.taskId).nodup_iff.mp h.waiting_nodup)
  rw [List.map_append] at hn
  have hstored : ∀ t ∈ (r.finish task.summary.conversationKey terminal terminalSummary).2,
      (w.inner.queuedPayloads.lookup t.taskId).map ScheduledRun.summary = some t := fun t ht =>
    (h.payload _ _).mpr ⟨hwait.mem_iff.mpr (List.mem_append_left _ ht), rfl⟩
  obtain ⟨hruns, hlookup⟩ := removePayloads_spec hn.of_append_left hstored
  refine ⟨hout, ?_, ?_⟩
  · simp only [RunSchedulerInner.finish, hout]
    exact hruns
  · simp only [RunSchedulerInner.finish, hout]
    exact hlookup

/-- The payloads that are left are those of the tasks that are left waiting. -/
theorem payload_finish (h : w.Inv r) (ht : task ∈ w.inFlight) (terminal : TerminalState)
    (terminalSummary : Option String) (id : String) (t : TaskSummary) :
    ((w.inner.finish task terminal terminalSummary).1.queuedPayloads.lookup id).map
        ScheduledRun.summary = some t ↔
      t ∈ (r.finish task.summary.conversationKey terminal terminalSummary).1.waiting ∧
        t.taskId = id := by
  obtain ⟨-, -, hlookup⟩ := h.finish_payloads ht terminal terminalSummary
  obtain ⟨f, rest, -, -, -, hwait⟩ :=
    ReferenceScheduler.finish_moves terminal terminalSummary (h.mem_conversations ht)
  have hn := (hwait.map TaskSummary.taskId).nodup_iff.mp h.waiting_nodup
  rw [List.map_append, List.nodup_append'] at hn
  rw [hlookup]
  split_ifs with hp
  · -- The payload has been handed out, and its task has left the waiting list.
    constructor
    · rintro ⟨⟩
    · rintro ⟨ht', rfl⟩
      exact absurd (List.mem_map_of_mem ht') (hn.2.2 hp)
  · rw [h.payload, hwait.mem_iff, List.mem_append]
    constructor
    · rintro ⟨ht' | ht', rfl⟩
      · exact absurd (List.mem_map_of_mem ht') hp
      · exact ⟨ht', rfl⟩
    · rintro ⟨ht', rfl⟩
      exact ⟨.inr ht', rfl⟩

theorem inFlight_eraseIdx (h : w.Inv r) {i : ℕ} (hi : w.live[i]? = some task)
    {rest : List TaskSummary} (hrun : r.running.Perm (task.summary :: rest)) :
    ((w.live.eraseIdx i ++ w.handedOut).map ScheduledRun.summary).Perm rest := by
  have hlive : w.inFlight.Perm (task :: (w.live.eraseIdx i ++ w.handedOut)) :=
    (perm_cons_eraseIdx hi).append_right _
  have hall := ((hlive.map ScheduledRun.summary).symm.trans h.inFlight).trans hrun
  exact hall.cons_inv

theorem finish (h : w.Inv r) {i : ℕ} (hi : w.live[i]? = some task) (terminal : TerminalState)
    (terminalSummary : Option String) :
    (w.finish i task terminal terminalSummary).Inv
      (r.finish task.summary.conversationKey terminal terminalSummary).1 := by
  have ht : task ∈ w.inFlight := List.mem_append_left _ (List.mem_of_getElem? hi)
  have hc := h.mem_conversations ht
  obtain ⟨hout, hruns, -⟩ := h.finish_payloads ht terminal terminalSummary
  obtain ⟨href, -⟩ := h.refines.finish h.reference hc terminal terminalSummary
  obtain ⟨f, rest, hf, hrun, hrun', hwait⟩ :=
    ReferenceScheduler.finish_moves terminal terminalSummary hc
  have hfree : f = task.summary :=
    List.inj_on_of_nodup_map h.reference.nodup (hrun.mem_iff.mpr (List.mem_cons_self ..))
      (h.mem_running ht) hf
  have hid : (w.inner.finish task terminal terminalSummary).2.map ScheduledRun.taskId =
      (r.finish task.summary.conversationKey terminal terminalSummary).2.map
        TaskSummary.taskId := by
    rw [← hruns, List.map_map]; rfl
  refine ⟨href, h.reference.finish hc, ?_, ?_, h.fresh, ?_, ?_⟩
  · exact h.payload_finish ht terminal terminalSummary
  · have hrest := h.inFlight_eraseIdx hi (hfree ▸ hrun)
    change ((w.live.eraseIdx i ++ (w.handedOut ++
      (w.inner.finish task terminal terminalSummary).2)).map _).Perm _
    rw [← List.append_assoc, List.map_append, hruns]
    exact (hrest.append_right _).trans hrun'.symm
  · change (w.answered .queued).Perm (_ ++ (w.history.promoted ++
      (w.inner.state.finish task.summary.conversationKey terminal terminalSummary).2.map _))
    rw [hout]
    have hids := hwait.map TaskSummary.taskId
    rw [List.map_append] at hids
    refine (h.queued.trans (hids.append_right _)).trans ?_
    rw [List.append_assoc]
    exact List.perm_append_comm.trans (.of_eq (List.append_assoc ..))
  · change (w.history.spawned ++ (w.handedOut ++
      (w.inner.finish task terminal terminalSummary).2).map _).Perm (_ ++ (w.history.promoted ++
      (w.inner.state.finish task.summary.conversationKey terminal terminalSummary).2.map _))
    rw [hout, List.map_append, hid, ← List.append_assoc, ← List.append_assoc]
    exact h.handled.append_right _

end Inv

/-- What holds of the tasks at any moment: none is lost, duplicated or stranded. -/
structure Conserved (w : RunWorld) : Prop where
  /-- Payloads are stored for exactly the tasks in the deques. -/
  payloadKeys : ∀ id, id ∈ w.inner.queuedPayloads ↔
    ∃ task, (∃ c queue, w.inner.state.queued.lookup c = some queue ∧ task ∈ queue) ∧
      task.taskId = id
  /-- The tasks that hold the slots are the spawned ones and those about to be spawned. -/
  running : (w.inFlight.map ScheduledRun.summary).Perm w.inner.state.running.values
  spawnedRunning : w.handedOut = [] →
    (w.live.map ScheduledRun.summary).Perm w.inner.state.running.values
  exclusive : (w.inFlight.map fun run => run.summary.conversationKey).Nodup
  /-- Every promoted task is handed out with its payload. -/
  nothingDropped : ∀ task ∈ w.live, ∀ terminal terminalSummary,
    (w.inner.finish task terminal terminalSummary).2.map ScheduledRun.summary =
      (w.inner.state.finish task.summary.conversationKey terminal terminalSummary).2
  atMostOnce : ∀ id ∈ w.answered .started ++ w.answered .queued, w.history.spawned.count id ≤ 1
  exactlyOnce : ∀ id ∈ w.answered .started ++ w.history.promoted, w.handled.count id = 1
  waiting : ∀ id ∈ w.answered .queued, id ∉ w.history.promoted →
    id ∈ w.inner.queuedPayloads ∧ id ∉ w.handled
  rejected : ∀ id ∈ w.answered .rejected,
    id ∉ w.handled ∧ id ∉ w.history.promoted ∧ id ∉ w.inner.queuedPayloads
  unchanged : ∀ scheduled, (w.inner.submit scheduled).feedback = .queueFull →
    (w.inner.submit scheduled).inner = w.inner ∧ (w.inner.submit scheduled).startNow = none
  /-- Nothing waits once no task is in flight. -/
  settled : w.inFlight = [] → ∀ id, id ∉ w.inner.queuedPayloads

namespace Inv

theorem mem_payloads (h : w.Inv r) {id : String} :
    id ∈ w.inner.queuedPayloads ↔ ∃ t ∈ r.waiting, t.taskId = id := by
  rw [AList.mem_iff_lookup]
  constructor
  · rintro ⟨run, hrun⟩
    exact ⟨run.summary, (h.payload id _).mp (by rw [hrun]; rfl)⟩
  · rintro ⟨t, ht⟩
    obtain ⟨run, hrun, -⟩ := Option.map_eq_some_iff.mp ((h.payload id t).mpr ht)
    exact ⟨run, hrun⟩

theorem conserved (h : w.Inv r) : w.Conserved := by
  have hhandled : w.handled.Nodup := by
    refine h.handled.nodup_iff.mpr (h.nodup.sublist ?_)
    exact (((List.sublist_append_right _ _).trans (List.sublist_append_left _ _)).append_left _)
  have hspawned : w.history.spawned.Nodup := hhandled.of_append_left
  have hsplit := List.nodup_append'.mp h.nodup
  obtain ⟨hstarted, hrest, hdisj⟩ := hsplit
  obtain ⟨hqueue, -, hdisj'⟩ := List.nodup_append'.mp hrest
  obtain ⟨-, -, hdisj''⟩ := List.nodup_append'.mp hqueue
  refine ⟨?_, ?_, ?_, ?_, ?_, ?_, ?_, ?_, ?_, ?_, ?_⟩
  · intro id
    simp only [h.mem_payloads, h.refines.queued.mem_deque]
  · exact h.inFlight.trans h.refines.running.symm
  · intro hnil
    have := h.inFlight.trans h.refines.running.symm
    rwa [RunWorld.inFlight, hnil, List.append_nil] at this
  · have := h.inFlight.map TaskSummary.conversationKey
    rw [List.map_map] at this
    exact this.nodup_iff.mpr h.reference.nodup
  · intro task ht terminal terminalSummary
    obtain ⟨hout, hruns, -⟩ :=
      h.finish_payloads (List.mem_append_left _ ht) terminal terminalSummary
    rw [hruns, hout]
  · intro id _
    exact List.nodup_iff_count_le_one.mp hspawned id
  · intro id hid
    exact List.count_eq_one_of_mem hhandled (h.handled.mem_iff.mpr hid)
  · intro id hid hnew
    have hwait : id ∈ r.waiting.map TaskSummary.taskId :=
      (List.mem_append.mp (h.queued.mem_iff.mp hid)).resolve_right hnew
    refine ⟨h.mem_payloads.mpr (List.mem_map.mp hwait), fun hh => ?_⟩
    rcases List.mem_append.mp (h.handled.mem_iff.mp hh) with hs | hp
    · exact hdisj hs (List.mem_append_left _ (List.mem_append_left _ hwait))
    · exact hnew hp
  · intro id hid
    refine ⟨fun hh => ?_, fun hp => hdisj' (List.mem_append_right _ hp) hid, fun hp => ?_⟩
    · rcases List.mem_append.mp (h.handled.mem_iff.mp hh) with hs | hp
      · exact hdisj hs (List.mem_append_right _ hid)
      · exact hdisj' (List.mem_append_right _ hp) hid
    · have hwait := List.mem_map.mpr (h.mem_payloads.mp hp)
      exact hdisj' (List.mem_append_left _ hwait) hid
  · intro scheduled hfull
    obtain ⟨-, -, ⟨hf, -⟩ | ⟨⟨k, hf⟩, -⟩ | ⟨-, hs, hi⟩⟩ := w.inner.submit_cases scheduled
    · simp [hf] at hfull
    · simp [hf] at hfull
    · exact ⟨hi, hs⟩
  · intro hnil id hid
    obtain ⟨t, ht, -⟩ := h.mem_payloads.mp hid
    have hrunning : r.running = [] := by
      have := h.inFlight
      rw [hnil] at this
      exact this.nil_eq.symm
    have := h.reference.conserving (by rw [hrunning]; exact h.reference.positive) t ht
    simp [ReferenceScheduler.conversations, hrunning] at this

end Inv

/-- One step of the world keeps the joint invariant, for a state of the reference with the same
bounds. -/
theorem inv_step (i : RunStep) (h : w.Inv r) (hi : w.Enabled i) :
    ∃ r', (w.step i).Inv r' ∧ r'.maxConcurrent = r.maxConcurrent ∧
      r'.maxQueueDepth = r.maxQueueDepth := by
  cases i with
  | submit taskId event request validated =>
    exact ⟨_, h.submit hi, r.bounds_call (.admitTask _)⟩
  | spawn i =>
    have hget : w.handedOut[i]? = some w.handedOut[i] := List.getElem?_eq_getElem hi
    rw [step_spawn hget]
    exact ⟨r, h.spawn hget, rfl, rfl⟩
  | finish i terminal terminalSummary =>
    have hget : w.live[i]? = some w.live[i] := List.getElem?_eq_getElem hi
    rw [step_finish hget]
    exact ⟨_, h.finish hget terminal terminalSummary, r.bounds_call (.finish ..)⟩

end RunWorld

/-- In every interleaving of submissions, spawns and completions the run scheduler neither
loses, duplicates nor strands a task. -/
theorem run_scheduler_conserves_tasks (maxConcurrentRuns maxQueueDepth : ℕ) (steps : List RunStep)
    (h : RunWorld.machine.Admissible (RunWorld.new maxConcurrentRuns maxQueueDepth) steps) :
    RunWorld.Conserved
      (RunWorld.machine.run (RunWorld.new maxConcurrentRuns maxQueueDepth) steps).1 := by
  have hinv : ∃ r, RunWorld.Inv
      (RunWorld.machine.run (RunWorld.new maxConcurrentRuns maxQueueDepth) steps).1 r :=
    Machine.run_invariant (M := RunWorld.machine) (I := fun w => ∃ r, RunWorld.Inv w r)
      (fun _ i ⟨_, hw⟩ hi => (RunWorld.inv_step i hw hi).imp fun _ h => h.1)
      ⟨_, RunWorld.inv_new _ _⟩ h
  obtain ⟨r, hr⟩ := hinv
  exact hr.conserved

/-- A request for a turn in a conversation of one account. -/
def plainRequest (conversationId : String) : RunRequest where
  platform := "qq"
  platformAccountId := "qq:bot_uin:123"
  conversationId := conversationId
  sessionId := conversationId
  userId := "qq:user:1"
  chatType := "private"
  cwd := "/workspace"
  prompt := "hello"
  triggerSummary := none
  triggerMessageId := some "1"
  triggerReplyToMessageId := none
  mentionRefs := []
  replyExcerpt := none
  timeoutSecs := none

/-- The event of a text message in a conversation of one account. -/
def plainEvent (conversationId : String) : CanonicalEvent where
  platform := "qq"
  platformAccount := "qq:bot_uin:123"
  conversation := conversationId
  actor := "qq:user:1"
  eventId := "qq:event:1"
  timestampEpochSecs := 0
  kind := .message
    { messageId := "1", replyTo := none, parts := [.text "hello"], mentions := []
      nativeMetadata := .null }
  rawNativePayload := .null

def submitStep (taskId conversationId : String) : RunStep :=
  .submit taskId (plainEvent conversationId) (plainRequest conversationId)
    { cwd := "/workspace", prompt := "hello", systemPrompt := "" }

/-- Two turns of one conversation and two of others compete for one slot. -/
def contendedSteps : List RunStep :=
  [submitStep "task-1" "a", submitStep "task-2" "a", submitStep "task-3" "b",
    submitStep "task-4" "c", .spawn 0, .finish 0 .completed none, .spawn 0,
    .finish 0 .failed (some "boom"), .spawn 0]

theorem run_scheduler_conserves_tasks_contended :
    RunWorld.Conserved (RunWorld.machine.run (RunWorld.new 1 2) contendedSteps).1 :=
  run_scheduler_conserves_tasks 1 2 contendedSteps (by decide)

end DogBot
