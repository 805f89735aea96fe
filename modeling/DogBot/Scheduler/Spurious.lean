import DogBot.Scheduler.Refinement

/-! # Ends of runs that do not run

`finish` may be called for a conversation that is not running. It changes
nothing then, unless a task of the conversation waits: that task is started
without a look at the cap. The states are those that any calls lead to.
-/

namespace DogBot

namespace SchedulerState

def Waits (s : SchedulerState) (conversationKey : String) : Prop :=
  ∃ queue, s.queued.lookup conversationKey = some queue ∧ queue ≠ []

instance (s : SchedulerState) (conversationKey : String) : Decidable (s.Waits conversationKey) :=
  match h : s.queued.lookup conversationKey with
  | none => .isFalse (by rintro ⟨queue, hq, -⟩; simp [h] at hq)
  | some queue =>
    if hq : queue = [] then .isFalse (by rintro ⟨queue', hq', hne⟩; simp_all)
    else .isTrue ⟨queue, h, hq⟩

/-- No run is ended whose conversation only waits. -/
def Careful (s : SchedulerState) : SchedulerCall → Prop
  | .admitTask _ => True
  | .finish conversationKey _ _ => conversationKey ∈ s.running ∨ ¬ s.Waits conversationKey

instance (s : SchedulerState) : ∀ i, Decidable (s.Careful i)
  | .admitTask _ => .isTrue trivial
  | .finish _ _ _ => inferInstanceAs (Decidable (_ ∨ _))

/-- The scheduler under any calls; the guard tells the careful ones. -/
abbrev carefulMachine : Machine SchedulerCall (Admission ⊕ List TaskSummary) where
  State := SchedulerState
  Enabled := Careful
  step := call

/-- The deques are not empty and hold tasks of their conversation, and a conversation that only
waits is ready. The conversation of a run that was just ended need not be ready yet. -/
structure Stored (s : SchedulerState) (ended : Option String) : Prop where
  deque : ∀ c queue, s.queued.lookup c = some queue → queue ≠ []
  keyed : ∀ c queue, s.queued.lookup c = some queue → ∀ t ∈ queue, t.conversationKey = c
  ready : ∀ c, c ∈ s.queued → c ∉ s.running → ended = some c ∨ c ∈ s.readyConversations

/-- What holds in every state that calls lead to: also, while a slot is free nothing is ready. -/
structure Inv (s : SchedulerState) : Prop extends Stored s none where
  slack : s.running.size < s.maxConcurrent → s.readyConversations = []

variable {s s' : SchedulerState} {c : String} {task next : TaskSummary} {ended : Option String}
  {ready : List String} {promoted : List TaskSummary} {state : TerminalState}
  {summary : Option String}

theorem inv_new (m d : ℕ) : (new m d).Inv where
  slack _ := rfl
  deque c queue h := by simp [new] at h
  keyed c queue h := by simp [new] at h
  ready c h := by simp [new] at h

namespace Stored

theorem waits_iff (h : s.Stored ended) : s.Waits c ↔ c ∈ s.queued := by
  rw [AList.mem_iff_lookup]
  constructor
  · rintro ⟨queue, hq, -⟩
    exact ⟨queue, hq⟩
  · rintro ⟨queue, hq⟩
    exact ⟨queue, hq, h.deque c queue hq⟩

theorem isEmpty_iff (h : s.Stored ended) :
    ((s.queued.lookup c).map List.isEmpty).getD true = true ↔ c ∉ s.queued := by
  rw [AList.mem_iff_lookup]
  cases hq : s.queued.lookup c with
  | none => simp
  | some queue => simp [h.deque c queue hq]

/-- A task is queued behind those of its conversation, which becomes ready if it does not run. -/
theorem push (h : s.Stored none) (ready : List String)
    (hsub : ∀ d ∈ s.readyConversations, d ∈ ready)
    (hready : task.conversationKey ∉ s.queued → task.conversationKey ∉ s.running →
      task.conversationKey ∈ ready) :
    { s with
      queued := s.queued.insert task.conversationKey
        ((s.queued.lookup task.conversationKey).getD [] ++ [task])
      readyConversations := ready }.Stored none where
  deque c queue hq := by
    rw [AList.lookup_insert'] at hq
    split_ifs at hq with hc
    · rw [← Option.some.inj hq]
      simp
    · exact h.deque c queue hq
  keyed c queue hq := by
    rw [AList.lookup_insert'] at hq
    split_ifs at hq with hc
    · subst hc
      rw [← Option.some.inj hq]
      intro t ht
      rcases List.mem_append.mp ht with ht | ht
      · cases hlookup : s.queued.lookup task.conversationKey with
        | none => simp [hlookup] at ht
        | some queue => exact h.keyed _ queue hlookup t (by simpa [hlookup] using ht)
      · rw [List.mem_singleton.mp ht]
    · exact h.keyed c queue hq
  ready c hc hrun := by
    right
    by_cases hqueued : c ∈ s.queued
    · exact hsub c ((h.ready c hqueued hrun).resolve_left (by simp))
    · rcases (AList.mem_insert _).mp hc with rfl | hc
      · exact hready hqueued hrun
      · exact absurd hc hqueued

/-- A task that is popped is one of the conversation, and the other deques stay. -/
theorem pop_cases (h : s.Stored ended) (c : String) :
    (c ∉ s.queued ∧ s.popNextForConversation c = (s, none)) ∨
    ∃ next queued, c ∈ s.queued ∧ next.conversationKey = c ∧
      s.popNextForConversation c = ({ s with queued }, some next) ∧
      { s with queued }.Stored ended := by
  cases hq : s.queued.lookup c with
  | none =>
    refine .inl ⟨?_, by rw [popNextForConversation, hq]⟩
    rw [AList.mem_iff_lookup, hq]
    simp
  | some queue =>
    obtain ⟨next, rest, rfl⟩ := List.exists_cons_of_ne_nil (h.deque c queue hq)
    have hmem : c ∈ s.queued := AList.mem_of_lookup hq
    have hkeyed := List.forall_mem_cons.mp (h.keyed c _ hq)
    refine .inr ⟨next, if rest.isEmpty then s.queued.erase c else s.queued.insert c rest, hmem,
      hkeyed.1, by rw [popNextForConversation, hq]; rfl, ?_⟩
    have hlookup : ∀ d,
        (if rest.isEmpty then s.queued.erase c else s.queued.insert c rest).lookup d =
          if d = c then (if rest.isEmpty then none else some rest) else s.queued.lookup d := by
      intro d
      split_ifs <;> simp_all [AList.lookup_erase', AList.lookup_insert']
    constructor
    · intro d queue hd
      rw [hlookup] at hd
      split_ifs at hd with hdc hrest
      · rw [← Option.some.inj hd]
        simpa using hrest
      · exact h.deque d queue hd
    · intro d queue hd
      rw [hlookup] at hd
      split_ifs at hd with hdc hrest
      · rw [← Option.some.inj hd, hdc]
        exact hkeyed.2
      · exact h.keyed d queue hd
    · intro d hd hrun
      refine h.ready d ?_ hrun
      by_cases hdc : d = c
      · exact hdc ▸ hmem
      · obtain ⟨queue, hqueue⟩ := AList.mem_iff_lookup.mp hd
        rw [hlookup, if_neg hdc] at hqueue
        exact AList.mem_of_lookup hqueue

theorem insertRunning (h : s.Stored (some next.conversationKey)) :
    (s.insertRunning next).Stored none where
  deque := h.deque
  keyed := h.keyed
  ready c hc hrun := by
    rw [SchedulerState.insertRunning, AList.mem_insert, not_or] at hrun
    refine .inr ((h.ready c hc hrun.2).resolve_left fun he => ?_)
    exact hrun.1 (Option.some.inj he).symm

theorem drop (h : s.Stored (some c)) (hc : c ∉ s.queued) : s.Stored none where
  deque := h.deque
  keyed := h.keyed
  ready d hd hrun := by
    refine .inr ((h.ready d hd hrun).resolve_left fun he => ?_)
    exact hc (Option.some.inj he ▸ hd)

/-- The loop ends when no slot is free or nothing is ready. -/
theorem promoteReady (h : s.Stored none) (hs : s.readyConversations = ready) :
    (SchedulerState.promoteReady ready s promoted).1.Inv := by
  induction ready generalizing s promoted with
  | nil => exact ⟨h, fun _ => hs⟩
  | cons c ready ih =>
    rw [SchedulerState.promoteReady]
    split_ifs with hfree
    · have hpopped : { s with readyConversations := ready }.Stored (some c) := by
        refine ⟨h.deque, h.keyed, fun d hd hrun => ?_⟩
        have hready := (h.ready d hd hrun).resolve_left (by simp)
        rw [hs, List.mem_cons] at hready
        exact hready.imp (fun he => congrArg some he.symm) id
      dsimp only
      split_ifs with hrun
      · refine ih ⟨hpopped.deque, hpopped.keyed, fun d hd hdrun => ?_⟩ rfl
        refine .inr ((hpopped.ready d hd hdrun).resolve_left fun he => ?_)
        exact hdrun (Option.some.inj he ▸ hrun)
      · rcases hpopped.pop_cases c with ⟨hc, hpop⟩ | ⟨next, queued, -, hk, hpop, hstored⟩
        · rw [hpop]
          exact ih (hpopped.drop hc) rfl
        · rw [hpop]
          subst hk
          exact ih hstored.insertRunning rfl
    · exact ⟨h, fun hlt => absurd hlt hfree⟩

/-- After the end of a run the invariant is restored. -/
theorem promoteNext (h : s.Stored (some c)) : (s.promoteNext c).1.Inv := by
  rw [SchedulerState.promoteNext]
  rcases h.pop_cases c with ⟨hc, hpop⟩ | ⟨next, queued, -, hk, hpop, hstored⟩
  · rw [hpop]
    exact (h.drop hc).promoteReady rfl
  · rw [hpop]
    subst hk
    exact hstored.insertRunning.promoteReady rfl

end Stored

namespace Inv

theorem erase (h : s.Inv) (c : String) (terminal : TerminalSummary) :
    ({ s with running := s.running.erase c }.pushTerminal terminal).Stored (some c) where
  deque := h.deque
  keyed := h.keyed
  ready d hd hrun := by
    by_cases hdc : d = c
    · exact .inl (congrArg some hdc.symm)
    · refine h.ready d hd (fun hd => hrun ?_) |>.elim (fun he => by cases he) .inr
      exact AList.mem_erase.mpr ⟨hdc, hd⟩

theorem finish (h : s.Inv) (c : String) (state : TerminalState) (summary : Option String) :
    (s.finish c state summary).1.Inv := by
  rw [SchedulerState.finish]
  split
  · exact (h.erase c _).promoteNext
  · exact Stored.promoteNext ⟨h.deque, h.keyed, fun d hd hrun =>
      .inr ((h.ready d hd hrun).resolve_left (by simp))⟩

theorem admitTask (h : s.Inv) (task : TaskSummary) : (s.admitTask task).1.Inv := by
  rw [SchedulerState.admitTask]
  split_ifs with hstart hfull
  · simp only [canStartNow, Bool.and_eq_true, decide_eq_true_eq] at hstart
    refine ⟨Stored.insertRunning ⟨h.deque, h.keyed, fun d hd hrun => ?_⟩, fun _ => ?_⟩
    · exact .inr ((h.ready d hd hrun).resolve_left (by simp))
    · exact h.slack hstart.1.1
  · exact h
  · simp only [h.isEmpty_iff]
    have hblocked : task.conversationKey ∉ s.queued → task.conversationKey ∉ s.running →
        ¬ s.running.size < s.maxConcurrent := by
      intro hqueued hrun hfree
      apply hstart
      simp [canStartNow, hfree, hrun, h.isEmpty_iff.mpr hqueued]
    split_ifs with hidle
    · rw [pushReadyConversation]
      split_ifs with hmem
      · refine ⟨h.push s.readyConversations (fun _ => id) fun _ _ => ?_, h.slack⟩
        simpa using hmem
      · refine ⟨h.push _ (fun d => List.mem_append_left _) fun _ _ => by simp, fun hfree => ?_⟩
        exact absurd hfree (hblocked hidle.1 hidle.2)
    · exact ⟨h.push s.readyConversations (fun _ => id) fun hq hr => absurd ⟨hq, hr⟩ hidle, h.slack⟩

theorem call (h : s.Inv) (i : SchedulerCall) : (s.call i).1.Inv := by
  cases i with
  | admitTask task => exact h.admitTask task
  | finish c state summary => exact h.finish c state summary

theorem finish_of_not_waits (h : s.Inv) (hrun : c ∉ s.running) (hwaits : ¬ s.Waits c) :
    s.finish c state summary = (s, []) := by
  have hpop : s.popNextForConversation c = (s, none) := by
    rw [h.waits_iff, AList.mem_iff_lookup, ← Option.isSome_iff_exists] at hwaits
    rw [popNextForConversation, Option.not_isSome_iff_eq_none.mp hwaits]
  have hnone : s.running.lookup c = none := AList.lookup_eq_none.mpr hrun
  rw [SchedulerState.finish, hnone]
  dsimp only
  rw [promoteNext, hpop]
  dsimp only
  by_cases hfree : s.running.size < s.maxConcurrent
  · rw [h.slack hfree]
    rfl
  · exact promoteReady_full (Nat.le_of_not_lt hfree)

/-- Otherwise it starts a task of the conversation, although no slot is free. -/
theorem finish_of_waits (h : s.Inv) (hrun : c ∉ s.running) (hwaits : s.Waits c) :
    s.maxConcurrent ≤ s.running.size ∧
      (s.finish c state summary).1.running.size = s.running.size + 1 ∧
      (s.finish c state summary).2 ≠ [] := by
  rw [h.waits_iff] at hwaits
  have hready := (h.ready c hwaits hrun).resolve_left (by simp)
  have hfull : s.maxConcurrent ≤ s.running.size := by
    refine Nat.le_of_not_lt fun hfree => ?_
    rw [h.slack hfree] at hready
    cases hready
  have hnone : s.running.lookup c = none := AList.lookup_eq_none.mpr hrun
  rcases h.pop_cases c with ⟨hc, -⟩ | ⟨next, queued, -, rfl, hpop, -⟩
  · exact absurd hwaits hc
  · have hsize : ({ s with queued }.insertRunning next).running.size = s.running.size + 1 :=
      AList.size_insert_of_notMem hrun
    rw [SchedulerState.finish, hnone]
    dsimp only
    rw [promoteNext, hpop]
    dsimp only
    have hstop : s.maxConcurrent ≤ ({ s with queued }.insertRunning next).running.size := by
      rw [hsize]
      omega
    rw [promoteReady_full hstop]
    exact ⟨hfull, hsize, by simp⟩

end Inv

section Cap

/-- The cap is a given one, and the running conversations fit it. -/
structure Within (s : SchedulerState) (m : ℕ) : Prop where
  cap : s.maxConcurrent = m
  size : s.running.size ≤ m

variable {m : ℕ} {calls : List SchedulerCall}

theorem exists_pop (s : SchedulerState) (c : String) :
    ∃ queued next, s.popNextForConversation c = ({ s with queued }, next) := by
  rw [popNextForConversation]
  cases s.queued.lookup c with
  | none => exact ⟨s.queued, none, rfl⟩
  | some queue => exact ⟨_, _, rfl⟩

theorem Within.insertRunning (h : s.Within m) (hfree : s.running.size < m) (task : TaskSummary) :
    (s.insertRunning task).Within m :=
  ⟨h.cap, AList.size_insert_le.trans hfree⟩

theorem Within.promoteReady (h : s.Within m) :
    (SchedulerState.promoteReady ready s promoted).1.Within m := by
  induction ready generalizing s promoted with
  | nil => exact h
  | cons c ready ih =>
    rw [SchedulerState.promoteReady]
    split_ifs with hfree
    · rw [h.cap] at hfree
      dsimp only
      split_ifs
      · exact ih ⟨h.cap, h.size⟩
      · obtain ⟨queued, next, hpop⟩ :=
          exists_pop { s with readyConversations := ready } c
        have hpopped :
            { s with readyConversations := ready, queued }.Within m := ⟨h.cap, h.size⟩
        rw [hpop]
        cases next with
        | none => exact ih hpopped
        | some next => exact ih (hpopped.insertRunning hfree next)
    · exact h

/-- The successor of a conversation takes a slot that is free. -/
theorem Within.promoteNext (h : s.Within m) (hfree : s.running.size < m) :
    (s.promoteNext c).1.Within m := by
  obtain ⟨queued, next, hpop⟩ := exists_pop s c
  have hpopped : { s with queued }.Within m := ⟨h.cap, h.size⟩
  rw [SchedulerState.promoteNext, hpop]
  cases next with
  | none => exact hpopped.promoteReady
  | some next => exact (hpopped.insertRunning hfree next).promoteReady

theorem Within.admitTask (h : s.Within m) (task : TaskSummary) :
    (s.admitTask task).1.Within m := by
  rw [SchedulerState.admitTask]
  split_ifs with hstart hfull
  · simp only [canStartNow, Bool.and_eq_true, decide_eq_true_eq, h.cap] at hstart
    exact h.insertRunning hstart.1.1 task
  · exact h
  · dsimp only
    split_ifs
    · rw [pushReadyConversation]
      split_ifs
      · exact ⟨h.cap, h.size⟩
      · exact ⟨h.cap, h.size⟩
    · exact ⟨h.cap, h.size⟩

theorem Within.call (h : s.Within m) (hinv : s.Inv) {i : SchedulerCall} (hi : s.Careful i) :
    (s.call i).1.Within m := by
  cases i with
  | admitTask task => exact h.admitTask task
  | finish c state summary =>
    change (s.finish c state summary).1.Within m
    by_cases hrun : c ∈ s.running
    · obtain ⟨finished, hfinished⟩ := AList.mem_iff_lookup.mp hrun
      have hsize := AList.size_erase_of_lookup hfinished
      have hle := h.size
      rw [SchedulerState.finish, hfinished]
      refine Within.promoteNext ⟨h.cap, ?_⟩ ?_
      · change (s.running.erase c).size ≤ m
        omega
      · change (s.running.erase c).size < m
        omega
    · rw [hinv.finish_of_not_waits hrun (hi.resolve_left hrun)]
      exact h

/-- The cap is kept along a run exactly if all its calls are careful. -/
theorem within_run_iff (h : s.Within m) (hinv : s.Inv) :
    (∀ pre, pre <+: calls → (SchedulerState.running (carefulMachine.run s pre).1).size ≤ m) ↔
      carefulMachine.Admissible s calls := by
  induction calls generalizing s with
  | nil =>
    refine iff_of_true (fun pre hpre => ?_) trivial
    rw [List.prefix_nil.mp hpre]
    exact h.size
  | cons i calls ih =>
    have hcareful : (SchedulerState.running (carefulMachine.run s [i]).1).size ≤ m →
        s.Careful i := by
      intro hsize
      cases i with
      | admitTask task => trivial
      | finish c state summary =>
        by_contra hnot
        rw [Careful, not_or, not_not] at hnot
        obtain ⟨hfull, hone, -⟩ := @Inv.finish_of_waits _ _ state summary hinv hnot.1 hnot.2
        change (s.finish c state summary).1.running.size ≤ m at hsize
        rw [h.cap] at hfull
        omega
    constructor
    · intro hall
      have hi := hcareful (hall [i] ⟨calls, rfl⟩)
      refine ⟨hi, (ih (h.call hinv hi) (hinv.call i)).mp fun pre hpre => ?_⟩
      exact hall (i :: pre) (List.cons_prefix_cons.mpr ⟨rfl, hpre⟩)
    · rintro ⟨hi, hrest⟩ pre hpre
      cases pre with
      | nil => exact h.size
      | cons j pre =>
        obtain ⟨rfl, htail⟩ := List.cons_prefix_cons.mp hpre
        exact (ih (h.call hinv hi) (hinv.call j)).mpr hrest pre htail

end Cap

theorem Inv.run (h : s.Inv) (calls : List SchedulerCall) :
    Inv (carefulMachine.run s calls).1 := by
  induction calls generalizing s with
  | nil => exact h
  | cons i calls ih => exact ih (h.call i)

/-- In every state that calls lead to, the end of a run that does not run changes nothing exactly
if nothing of its conversation waits, and the cap is kept exactly along the runs in which no other
such end is called. -/
theorem spurious_finish_iff (m d : ℕ) (calls : List SchedulerCall) :
    (let s : SchedulerState := (carefulMachine.run (new m d) calls).1
     ∀ c state summary, c ∉ s.running → (s.finish c state summary = (s, []) ↔ ¬ s.Waits c)) ∧
    ((∀ pre, pre <+: calls →
        (SchedulerState.running (carefulMachine.run (new m d) pre).1).size ≤ max m 1) ↔
      carefulMachine.Admissible (new m d) calls) := by
  constructor
  · intro s c state summary hrun
    have hinv : s.Inv := (inv_new m d).run calls
    constructor
    · intro hsame hwaits
      obtain ⟨-, -, hpromoted⟩ := @Inv.finish_of_waits _ _ state summary hinv hrun hwaits
      rw [hsame] at hpromoted
      exact hpromoted rfl
    · exact hinv.finish_of_not_waits hrun
  · exact within_run_iff ⟨rfl, Nat.zero_le _⟩ (inv_new m d)

/-- The end of a run that only waits starts its task beside the one that has the only slot. -/
theorem spurious_finish_promotes :
    ¬ ∀ (m d : ℕ) (calls : List SchedulerCall),
      (let s : SchedulerState := (carefulMachine.run (new m d) calls).1
       ∀ c state summary, c ∉ s.running → s.finish c state summary = (s, [])) ∧
      ∀ pre, pre <+: calls →
        (SchedulerState.running (carefulMachine.run (new m d) pre).1).size ≤ max m 1 := by
  intro h
  obtain ⟨hsame, -⟩ := h 1 8 [.admitTask (.new "task-1" "a"), .admitTask (.new "task-2" "b")]
  have hfinish := congrArg Prod.snd (hsame "b" .completed none (by decide))
  exact absurd hfinish (by decide)

end SchedulerState

end DogBot
