import DogBot.Server.Pipeline

/-! # What a task does

A task that has ended reacted to its message, called the runner once with its
request, delivered the answer of the runner and finished, in this order. A task
that has not ended has done a first part of this, and has not finished.
-/

namespace DogBot

open Program

def TaskOp.isDelivery : TaskOp → Bool
  | deliver _ => true
  | _ => false

def TaskOp.isCallRunner : TaskOp → Bool
  | callRunner _ _ => true
  | _ => false

def TaskOp.isFinish : TaskOp → Bool
  | finish _ _ => true
  | _ => false

def Delivering (calls : List TaskCall) : Prop := ∀ c ∈ calls, c.1.isDelivery = true

theorem TaskM.within_deliver {α : Type} {A : TaskOp → Prop} {D : DeliveryOp → Prop}
    {delivery : OutboxM α} (h : delivery.Only D) (hA : ∀ op, D op → A (.deliver op)) :
    Within A (TaskM.deliver delivery) :=
  ⟨Only.attempt (Only.hoist hA h)⟩

theorem TaskM.cases {α : Type} (p : TaskM α) : (∃ a, p = .ret a) ∨ ∃ op next, p = .call op next := by
  cases p with
  | ret a => exact .inl ⟨a, rfl⟩
  | fail e => exact e.elim
  | call op next => exact .inr ⟨op, next, rfl⟩

namespace AppState

variable {app : AppState} {task : ScheduledRun} {event : CanonicalEvent}
  {calls : List TaskCall} {q : TaskM Unit}

section Parts

variable {A : TaskOp → Prop}

theorem within_sendStartReaction
    (h : ∀ plan, Within A (TaskM.deliver (app.deliverPlanWith task.event plan))) :
    Within A (app.sendStartReactionBestEffort task) := by
  unfold sendStartReactionBestEffort
  split
  · exact within_ret _
  · exact (h _).bind fun _ => within_ret _

theorem within_answerRun (h : ∀ plan, Within A (TaskM.deliver (app.deliverPlanWith event plan)))
    (result : Except ErrorResponse RunResponse) : Within A (app.answerRun event result) := by
  cases result with
  | error error =>
    refine Within.bind ?_ fun _ => within_ret _
    exact (h _).bind fun _ => within_ret _
  | ok response =>
    refine Within.bind ?_ fun _ => within_ret _
    rw [deliverRunResponse]
    generalize runResponseOutput response = output
    by_cases hempty : output = ""
    · rw [if_pos hempty]
      exact within_ret _
    · rw [if_neg hempty]
      generalize normalizeAgentOutput app.fromStr output = plan
      cases plan with
      | error err => exact within_ret _
      | ok plan => exact (h _).bind fun _ => within_ret _

theorem within_runTask (h : ∀ plan, Within A (TaskM.deliver (app.deliverPlanWith task.event plan)))
    (hA : ∀ op : TaskOp, op.isDelivery = false → A op) : Within A (app.runTask task) :=
  (within_sendStartReaction h).bind fun _ => (within_call (hA _ rfl)).bind fun _ =>
    (within_call (hA _ rfl)).bind fun result => (within_answerRun h result).bind fun _ =>
      within_call (hA _ rfl)

theorem delivering_plan (event : CanonicalEvent) (plan : OutboundPlan) :
    Within (fun op => op.isDelivery) (TaskM.deliver (app.deliverPlanWith event plan)) :=
  TaskM.within_deliver (only_true _) fun _ _ => rfl

theorem delivering_start (h : Calls (app.sendStartReactionBestEffort task) calls q) :
    Delivering calls :=
  (within_sendStartReaction (delivering_plan _)).calls h

theorem delivering_answer {result : Except ErrorResponse RunResponse}
    {q : TaskM (TerminalState × Option String)} (h : Calls (app.answerRun event result) calls q) :
    Delivering calls :=
  (within_answerRun (delivering_plan _) result).calls h

end Parts

structure Finished (app : AppState) (task : ScheduledRun) (calls : List TaskCall)
    (start : List TaskCall) (result : Except ErrorResponse RunResponse) (answered : List TaskCall)
    (terminal : TerminalState) (terminalSummary : Option String) : Prop where
  calls_eq : calls = start ++ ⟨.callRunner task.request task.validated, ()⟩ ::
    ⟨.runnerReturned, result⟩ :: (answered ++ [⟨.finish terminal terminalSummary, ()⟩])
  start : Calls (app.sendStartReactionBestEffort task) start (.ret ())
  answered : Calls (app.answerRun task.event result) answered (.ret (terminal, terminalSummary))

def Complete (app : AppState) (task : ScheduledRun) (calls : List TaskCall) : Prop :=
  ∃ start result answered terminal terminalSummary,
    app.Finished task calls start result answered terminal terminalSummary

/-- What a task has done before it has ended: it is in front of its run, in it, or behind it. -/
inductive Unfinished (task : ScheduledRun) : List TaskCall → Prop
  | starting {start : List TaskCall} (h : Delivering start) : Unfinished task start
  | running {start : List TaskCall} (h : Delivering start) :
      Unfinished task (start ++ [⟨.callRunner task.request task.validated, ()⟩])
  | answering {start answered : List TaskCall} (result : Except ErrorResponse RunResponse)
      (h : Delivering start) (h' : Delivering answered) :
      Unfinished task (start ++ ⟨.callRunner task.request task.validated, ()⟩ ::
        ⟨.runnerReturned, result⟩ :: answered)

theorem bind_eq_call {α β : Type} {p : TaskM α} {f : α → TaskM β} (hne : ∀ a, p ≠ .ret a) :
    ∃ op next, (p >>= f) = .call op next := by
  obtain ⟨a, rfl⟩ | ⟨op, next, rfl⟩ := p.cases
  · exact absurd rfl (hne a)
  · exact ⟨op, _, rfl⟩

theorem calls_runTask (h : Calls (app.runTask task) calls q) :
    (∃ op next, q = .call op next) ∧ Unfinished task calls ∨
      q = .ret () ∧ app.Complete task calls := by
  rcases calls_bind.mp h with ⟨p, hp, hne, rfl⟩ | ⟨_, start, rest, rfl, hstart, h₁⟩
  · exact .inl ⟨bind_eq_call hne, .starting (delivering_start hp)⟩
  have hstarting : Delivering start := delivering_start hstart
  rcases calls_call.mp h₁ with ⟨rfl, rfl⟩ | ⟨_, rest, rfl, h₂⟩
  · rw [List.append_nil]
    exact .inl ⟨⟨_, _, rfl⟩, .starting hstarting⟩
  rcases calls_call.mp h₂ with ⟨rfl, rfl⟩ | ⟨result, rest, rfl, h₃⟩
  · exact .inl ⟨⟨_, _, rfl⟩, .running hstarting⟩
  have h₃ : Calls (app.answerRun task.event result >>= fun ended =>
      .call (.finish ended.1 ended.2) .ret) rest q := h₃
  rcases calls_bind.mp h₃ with ⟨p, hp, hne, rfl⟩ | ⟨⟨terminal, summary⟩, answered, rest, rfl, ha, h₄⟩
  · exact .inl ⟨bind_eq_call hne, .answering result hstarting (delivering_answer hp)⟩
  have hanswered : Delivering answered := delivering_answer ha
  rcases calls_call.mp h₄ with ⟨rfl, rfl⟩ | ⟨_, rest, rfl, h₅⟩
  · rw [List.append_nil]
    exact .inl ⟨⟨_, _, rfl⟩, .answering result hstarting hanswered⟩
  obtain ⟨rfl, rfl⟩ := calls_ret.mp h₅
  exact .inr ⟨rfl, start, result, answered, terminal, summary, rfl, hstart, ha⟩

theorem countP_delivering {f : TaskOp → Bool} (hf : ∀ op, f (.deliver op) = false)
    (h : Delivering calls) : calls.countP (fun c => f c.1) = 0 := by
  rw [List.countP_eq_zero]
  intro c hc
  have hd := h c hc
  obtain ⟨op, answer⟩ := c
  cases op with
  | deliver op => simp [hf]
  | callRunner _ _ | runnerReturned | finish _ _ => cases hd

def runs (calls : List TaskCall) : ℕ := calls.countP fun c => c.1.isCallRunner

def finishes (calls : List TaskCall) : ℕ := calls.countP fun c => c.1.isFinish

section Counts

variable {calls' : List TaskCall} {c : TaskCall}

theorem counts_delivering (h : Delivering calls) : runs calls = 0 ∧ finishes calls = 0 :=
  ⟨countP_delivering (fun _ => rfl) h, countP_delivering (fun _ => rfl) h⟩

theorem runs_append : runs (calls ++ calls') = runs calls + runs calls' := List.countP_append

theorem finishes_append : finishes (calls ++ calls') = finishes calls + finishes calls' :=
  List.countP_append

theorem runs_cons : runs (c :: calls) = runs calls + if c.1.isCallRunner = true then 1 else 0 :=
  List.countP_cons

theorem finishes_cons :
    finishes (c :: calls) = finishes calls + if c.1.isFinish = true then 1 else 0 :=
  List.countP_cons

end Counts

theorem Unfinished.counts (h : Unfinished task calls) : runs calls ≤ 1 ∧ finishes calls = 0 := by
  cases h with
  | starting h =>
    obtain ⟨hr, hf⟩ := counts_delivering h
    omega
  | running h =>
    obtain ⟨hr, hf⟩ := counts_delivering h
    rw [runs_append, finishes_append, hr, hf]
    exact ⟨le_rfl, rfl⟩
  | answering result h h' =>
    obtain ⟨hr, hf⟩ := counts_delivering h
    obtain ⟨hr', hf'⟩ := counts_delivering h'
    simp only [runs_append, finishes_append, runs_cons, finishes_cons, hr, hf, hr', hf']
    exact ⟨le_rfl, rfl⟩

variable {start answered : List TaskCall} {result : Except ErrorResponse RunResponse}
  {terminal : TerminalState} {terminalSummary : Option String}

theorem Finished.counts
    (h : app.Finished task calls start result answered terminal terminalSummary) :
    runs calls = 1 ∧ finishes calls = 1 := by
  have hstart : Delivering start := delivering_start h.start
  have hanswered : Delivering answered := delivering_answer h.answered
  obtain ⟨hr, hf⟩ := counts_delivering hstart
  obtain ⟨hr', hf'⟩ := counts_delivering hanswered
  simp only [h.calls_eq, runs_append, finishes_append, runs_cons, finishes_cons, hr, hf, hr', hf']
  exact ⟨rfl, rfl⟩

theorem counts_of_calls (h : Calls (app.runTask task) calls q) :
    runs calls ≤ 1 ∧ (q.Ended → runs calls = 1 ∧ finishes calls = 1) ∧
      (¬ q.Ended → finishes calls = 0) := by
  rcases calls_runTask h with ⟨⟨op, next, rfl⟩, hu⟩ | ⟨rfl, start, result, answered, t, s, hf⟩
  · exact ⟨hu.counts.1, fun h => h.elim, fun _ => hu.counts.2⟩
  · exact ⟨hf.counts.1.le, fun _ => hf.counts, fun h => absurd trivial h⟩

theorem ended_of_finish {next : Unit → TaskM Unit}
    (h : Calls (app.runTask task) calls (.call (.finish terminal terminalSummary) next)) :
    next () = .ret () := by
  rcases calls_runTask (h.snoc ()) with ⟨-, hu⟩ | ⟨hret, -⟩
  · have hcount := hu.counts.2
    rw [finishes_append, finishes_cons] at hcount
    cases hcount
  · exact hret

theorem not_ended_of_call {op : TaskOp} {next : op.Result → TaskM Unit} {answer : op.Result}
    (h : Calls (app.runTask task) calls (.call op next)) (hop : op.isFinish = false) :
    ¬ (next answer).Ended := by
  rcases calls_runTask (h.snoc answer) with ⟨⟨op', next', hcall⟩, -⟩ | ⟨-, start, r, a, t, s, hf⟩
  · rw [hcall]
    exact id
  · have hbefore : finishes calls = 0 := (counts_of_calls h).2.2 id
    have hcount := hf.counts.2
    rw [finishes_append, finishes_cons, hbefore, hop] at hcount
    cases hcount

end AppState

end DogBot
