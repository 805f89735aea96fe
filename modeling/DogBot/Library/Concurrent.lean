import DogBot.Library.Machine
import DogBot.Library.Program

/-! # Threads on a shared state

Threads run programs whose operations are the atomic steps on one shared
state. `Program.Safe` is the weakest precondition of a program among other
threads: it keeps an invariant in each of its steps, and its postconditions
bear what the other threads and the environment may do, which is given by a
rely relation. A pool all of whose threads are safe keeps the invariant in every
interleaving.
-/

universe u v w x y z

namespace Program

variable {Op : Type u} {Res : Op → Type v} {ε : Type w} {α β : Type x} {σ : Type y}

/-- Each step keeps the invariant, and the program ends with one of the postconditions, whatever
happens in between within the rely relation. -/
def Safe (step : σ → (op : Op) → Res op → σ → Prop) (I : σ → Prop) (R : σ → σ → Prop) :
    Program Op Res ε α → (α → σ → Prop) → (ε → σ → Prop) → σ → Prop
  | ret a, Q, _, s => ∀ s', R s s' → Q a s'
  | fail e, _, E, s => ∀ s', R s s' → E e s'
  | call op next, Q, E, s => ∀ s₁, R s s₁ → I s₁ → ∀ r s₂, step s₁ op r s₂ →
      I s₂ ∧ Safe step I R (next r) Q E s₂

variable {step : σ → (op : Op) → Res op → σ → Prop} {I : σ → Prop} {R : σ → σ → Prop}
  {Q Q' : α → σ → Prop} {E E' : ε → σ → Prop} {s s' : σ} {p : Program Op Res ε α}

theorem safe_ret {a : α} (hQ : ∀ s s', Q a s → R s s' → Q a s') (h : Q a s) :
    Safe step I R (ret a : Program Op Res ε α) Q E s :=
  fun s' hs => hQ s s' h hs

/-- What other threads do before a program starts does not harm it. -/
theorem Safe.stable (htrans : ∀ a b c, R a b → R b c → R a c) (h : Safe step I R p Q E s)
    (hs : R s s') : Safe step I R p Q E s' := by
  cases p with
  | ret a => exact fun s'' hs' => h s'' (htrans _ _ _ hs hs')
  | fail e => exact fun s'' hs' => h s'' (htrans _ _ _ hs hs')
  | call op next => exact fun s₁ hs' => h s₁ (htrans _ _ _ hs hs')

theorem Safe.mono (hQ : ∀ a s, Q a s → Q' a s) (hE : ∀ e s, E e s → E' e s)
    (h : Safe step I R p Q E s) : Safe step I R p Q' E' s := by
  induction p generalizing s with
  | ret a => exact fun s' hs => hQ a s' (h s' hs)
  | fail e => exact fun s' hs => hE e s' (h s' hs)
  | call op next ih =>
    intro s₁ hs hi r s₂ hst
    obtain ⟨hi', hn⟩ := h s₁ hs hi r s₂ hst
    exact ⟨hi', ih r hn⟩

theorem Safe.bind {f : α → Program Op Res ε β} {Q : β → σ → Prop} (hrefl : ∀ a, R a a)
    (h : Safe step I R p (fun a s => Safe step I R (f a) Q E s) E s) :
    Safe step I R (p >>= f) Q E s := by
  induction p generalizing s with
  | ret a => exact h s (hrefl s)
  | fail e => exact h
  | call op next ih =>
    intro s₁ hs hi r s₂ hst
    obtain ⟨hi', hn⟩ := h s₁ hs hi r s₂ hst
    exact ⟨hi', ih r hn⟩

theorem Safe.seq {f : α → Program Op Res ε β} {Q : α → σ → Prop} {Q' : β → σ → Prop}
    (hrefl : ∀ a, R a a) (h : Safe step I R p Q E s)
    (hf : ∀ a s, Q a s → Safe step I R (f a) Q' E s) : Safe step I R (p >>= f) Q' E s :=
  (h.mono hf fun _ _ he => he).bind hrefl

/-- What every step and all other threads preserve holds at the end if it holds at the start. -/
theorem Safe.frame {F : σ → Prop} (hstep : ∀ s op r s', step s op r s' → F s → F s')
    (hrely : ∀ s s', R s s' → F s → F s') (h : Safe step I R p Q E s) (hs : F s) :
    Safe step I R p (fun a s => Q a s ∧ F s) E s := by
  induction p generalizing s with
  | ret a => exact fun s' hr => ⟨h s' hr, hrely s s' hr hs⟩
  | fail e => exact h
  | call op next ih =>
    intro s₁ hr hi r s₂ hst
    obtain ⟨hi', hn⟩ := h s₁ hr hi r s₂ hst
    exact ⟨hi', ih r hn (hstep _ _ _ _ hst (hrely s s₁ hr hs))⟩

/-- What each of a program's operations and all other threads preserve holds at its end. -/
theorem Safe.of_only {A : Op → Prop} {F : σ → Prop} (hp : Only A p)
    (hstep : ∀ s op r s', A op → step s op r s' → I s → F s → I s' ∧ F s')
    (hrely : ∀ s s', R s s' → F s → F s') (hs : F s) :
    Safe step I R p (fun _ s => F s) (fun _ s => F s) s := by
  induction p generalizing s with
  | ret a => exact fun s' hr => hrely s s' hr hs
  | fail e => exact fun s' hr => hrely s s' hr hs
  | call op next ih =>
    intro s₁ hr hi r s₂ hst
    obtain ⟨hi', hF⟩ := hstep _ _ _ _ hp.1 hst hi (hrely s s₁ hr hs)
    exact ⟨hi', ih r (hp.2 r) hF⟩

/-- A program that is safe over its own operations is safe over those of a larger signature. -/
theorem Safe.hoist {Op' : Type u} {Res' : Op' → Type v} {ε' : Type w} {inj : Op → Op'}
    {answer : ∀ op, Res' (inj op) → Res op} {err : ε → ε'}
    {step' : σ → (op : Op') → Res' op → σ → Prop} {E' : ε' → σ → Prop}
    (hstep : ∀ s op r s', step' s (inj op) r s' → step s op (answer op r) s')
    (h : Safe step I R p Q (fun e s => E' (err e) s) s) :
    Safe step' I R (p.hoist inj answer err) Q E' s := by
  induction p generalizing s with
  | ret a => exact h
  | fail e => exact h
  | call op next ih =>
    intro s₁ hs hi r s₂ hst
    obtain ⟨hi', hn⟩ := h s₁ hs hi _ s₂ (hstep _ _ _ _ hst)
    exact ⟨hi', ih _ hn⟩

end Program

section Log

variable {γ : Type*} {own : γ → Bool} {l l' new : List γ} {a : γ}

theorem filter_own_eq (h : l' = new ++ l) (hnew : ∀ a ∈ new, own a = false) :
    l'.filter own = l.filter own := by
  have hnone : new.filter own = [] := List.filter_eq_nil_iff.mpr fun a ha => by simp [hnew a ha]
  rw [h, List.filter_append, hnone, List.nil_append]

theorem mem_iff_of_filter_own_eq (h : l'.filter own = l.filter own) (ha : own a = true) :
    a ∈ l' ↔ a ∈ l := by
  have hfilter : ∀ l : List γ, a ∈ l ↔ a ∈ l.filter own := fun l => by simp [ha]
  rw [hfilter, h, ← hfilter]

end Log

/-- A shared state and the threads, each with its argument and the program that is left to run. -/
structure Pool (τ : Type z) (Op : Type u) (Res : Op → Type v) (ε : Type w) (α : Type x)
    (σ : Type y) where
  shared : σ
  threads : List (τ × Program Op Res ε α)

namespace Pool

open Program

variable {τ : Type z} {Op : Type u} {Res : Op → Type v} {ε : Type w} {α : Type x} {σ : Type y}

/-- A thread was started with an argument and has returned a value. -/
def Returns (P : Pool τ Op Res ε α σ) (i : ℕ) (t : τ) (a : α) : Prop :=
  P.threads[i]? = some (t, .ret a)

/-- A thread was started with an argument and has ended with an error. -/
def Fails (P : Pool τ Op Res ε α σ) (i : ℕ) (t : τ) (e : ε) : Prop :=
  P.threads[i]? = some (t, .fail e)

def AllEnded (P : Pool τ Op Res ε α σ) : Prop := ∀ thread ∈ P.threads, thread.2.Ended

/-- A thread is started, one makes a step, or the environment does. The step relation is given the
number and the argument of the thread. -/
inductive Step (start : τ → Program Op Res ε α)
    (step : ℕ → τ → σ → (op : Op) → Res op → σ → Prop) (env : σ → σ → Prop) :
    Pool τ Op Res ε α σ → Pool τ Op Res ε α σ → Prop
  | spawn {P : Pool τ Op Res ε α σ} (t : τ) :
      Step start step env P { P with threads := P.threads ++ [(t, start t)] }
  | env {P : Pool τ Op Res ε α σ} {s : σ} (he : env P.shared s) :
      Step start step env P { P with shared := s }
  | run {P : Pool τ Op Res ε α σ} {i : ℕ} {t : τ} {op : Op} {next : Res op → Program Op Res ε α}
      {r : Res op} {s : σ} (hi : P.threads[i]? = some (t, .call op next))
      (hs : step i t P.shared op r s) :
      Step start step env P { shared := s, threads := P.threads.set i (t, next r) }

theorem thread_concat {α : Type*} {l : List α} {a b : α} {i : ℕ} (h : (l ++ [a])[i]? = some b) :
    l[i]? = some b ∨ i = l.length ∧ b = a := by
  rcases Nat.lt_trichotomy i l.length with hlt | rfl | hgt
  · rw [List.getElem?_append_left hlt] at h
    exact .inl h
  · rw [List.getElem?_concat_length] at h
    exact .inr ⟨rfl, (Option.some.inj h).symm⟩
  · rw [List.getElem?_eq_none (by simp; omega)] at h
    cases h

theorem thread_set {α : Type*} {l : List α} {a a' b : α} {i j : ℕ} (hi : l[i]? = some a)
    (h : (l.set i a')[j]? = some b) : j = i ∧ b = a' ∨ j ≠ i ∧ l[j]? = some b := by
  have hlt : i < l.length := (List.getElem?_eq_some_iff.mp hi).1
  rcases eq_or_ne j i with rfl | hne
  · rw [List.getElem?_set_self hlt] at h
    exact .inl ⟨rfl, (Option.some.inj h).symm⟩
  · rw [List.getElem?_set_ne hne.symm] at h
    exact .inr ⟨hne, h⟩

theorem Step.argument {start : τ → Program Op Res ε α}
    {step : ℕ → τ → σ → (op : Op) → Res op → σ → Prop} {env : σ → σ → Prop}
    {P P' : Pool τ Op Res ε α σ} {i : ℕ} {t : τ} (h : Step start step env P P')
    (ht : (P.threads[i]?).map Prod.fst = some t) : (P'.threads[i]?).map Prod.fst = some t := by
  cases h with
  | spawn t' =>
    obtain ⟨thread, hi, rfl⟩ := Option.map_eq_some_iff.mp ht
    rw [List.getElem?_append_left (List.getElem?_eq_some_iff.mp hi).1, hi]
    rfl
  | env he => exact ht
  | @run j t' op next r s hj hs =>
    rcases eq_or_ne j i with rfl | hne
    · rw [List.getElem?_set_self (List.getElem?_eq_some_iff.mp hj).1]
      rw [hj] at ht
      exact ht
    · rwa [List.getElem?_set_ne hne]

/-- What makes a pool safe: the environment keeps the invariant, its steps and those of the other
threads are within the rely relation of a thread, and a thread is safe when it is started under a
number that was not used before. -/
structure Guarded (start : τ → Program Op Res ε α)
    (step : ℕ → τ → σ → (op : Op) → Res op → σ → Prop) (env : σ → σ → Prop) (I : σ → Prop)
    (R : ℕ → σ → σ → Prop) (Unused : ℕ → σ → Prop) (Q : ℕ → τ → α → σ → Prop)
    (E : ℕ → τ → ε → σ → Prop) : Prop where
  refl : ∀ i s, R i s s
  trans : ∀ i s₁ s₂ s₃, R i s₁ s₂ → R i s₂ s₃ → R i s₁ s₃
  rely : ∀ i j t s op r s', i ≠ j → step j t s op r s' → R i s s'
  env_inv : ∀ s s', env s s' → I s → I s'
  env_rely : ∀ i s s', env s s' → R i s s'
  unused : ∀ i s s', Unused i s → R i s s' → Unused i s'
  safe : ∀ i t s, Unused i s → I s → Safe (step i t) I (R i) (start t) (Q i t) (E i t) s

variable {start : τ → Program Op Res ε α} {step : ℕ → τ → σ → (op : Op) → Res op → σ → Prop}
  {env : σ → σ → Prop} {I : σ → Prop} {R : ℕ → σ → σ → Prop} {Unused : ℕ → σ → Prop}
  {Q : ℕ → τ → α → σ → Prop} {E : ℕ → τ → ε → σ → Prop} {P P' : Pool τ Op Res ε α σ}

structure Inv (step : ℕ → τ → σ → (op : Op) → Res op → σ → Prop) (I : σ → Prop)
    (R : ℕ → σ → σ → Prop) (Unused : ℕ → σ → Prop) (Q : ℕ → τ → α → σ → Prop)
    (E : ℕ → τ → ε → σ → Prop) (P : Pool τ Op Res ε α σ) : Prop where
  shared : I P.shared
  safe : ∀ i t p, P.threads[i]? = some (t, p) →
    Safe (step i t) I (R i) p (Q i t) (E i t) P.shared
  unused : ∀ i, P.threads.length ≤ i → Unused i P.shared

theorem Step.inv (h : Step start step env P P') (hg : Guarded start step env I R Unused Q E)
    (hi : Inv step I R Unused Q E P) : Inv step I R Unused Q E P' := by
  cases h with
  | spawn t =>
    constructor
    · exact hi.shared
    · intro i t' p hp
      rcases thread_concat hp with hp | ⟨rfl, he⟩
      · exact hi.safe i t' p hp
      · obtain ⟨rfl, rfl⟩ := Prod.mk.inj he
        exact hg.safe _ _ _ (hi.unused _ (Nat.le_refl _)) hi.shared
    · intro i hlen
      apply hi.unused
      simp only [List.length_append, List.length_singleton] at hlen
      omega
  | @env s he =>
    constructor
    · exact hg.env_inv _ _ he hi.shared
    · exact fun i t p hp => (hi.safe i t p hp).stable (hg.trans i) (hg.env_rely i _ _ he)
    · exact fun i hlen => hg.unused i _ _ (hi.unused i hlen) (hg.env_rely i _ _ he)
  | @run i t op next r s hp hs =>
    obtain ⟨hI, hnext⟩ := hi.safe i t _ hp _ (hg.refl _ _) hi.shared r s hs
    have hlt : i < P.threads.length := (List.getElem?_eq_some_iff.mp hp).1
    constructor
    · exact hI
    · intro j t' p hp'
      rcases thread_set hp hp' with ⟨rfl, he⟩ | ⟨hji, hp'⟩
      · obtain ⟨rfl, rfl⟩ := Prod.mk.inj he
        exact hnext
      · exact (hi.safe j t' p hp').stable (hg.trans j) (hg.rely j i t _ op r _ hji hs)
    · intro j hlen
      rw [List.length_set] at hlen
      have hji : j ≠ i := by omega
      exact hg.unused j _ _ (hi.unused j hlen) (hg.rely j i t _ op r _ hji hs)

theorem Guarded.reachable (hg : Guarded start step env I R Unused Q E) {s : σ} (hs : I s)
    (hunused : ∀ i, Unused i s) (h : Reachable (Step start step env) ⟨s, []⟩ P) :
    Inv step I R Unused Q E P := by
  refine h.invariant ⟨hs, ?_, fun i _ => hunused i⟩ fun P P' hi hst => hst.inv hg hi
  intro i t p hp
  cases hp

section Schedule

variable (handle : σ → (op : Op) → Res op × σ)

/-- One thread makes a step that a handler answers. -/
def advance (P : Pool τ Op Res ε α σ) (i : ℕ) : Pool τ Op Res ε α σ :=
  match P.threads[i]? with
  | some (t, .call op next) =>
    { shared := (handle P.shared op).2
      threads := P.threads.set i (t, next (handle P.shared op).1) }
  | _ => P

/-- Start threads, and let them make steps in the order of a schedule. -/
def schedule (start : τ → Program Op Res ε α) (s : σ) (ts : List τ) (is : List ℕ) :
    Pool τ Op Res ε α σ :=
  is.foldl (advance handle) ⟨s, ts.map fun t => (t, start t)⟩

theorem reachable_start (s : σ) (ts : List τ) :
    Reachable (Step start step env) ⟨s, []⟩ ⟨s, ts.map fun t => (t, start t)⟩ := by
  induction ts using List.reverseRecOn with
  | nil => exact .refl
  | append_singleton ts t ih =>
    rw [List.map_append]
    exact ih.tail (.spawn t)

section Numbered

variable (answer : ℕ → σ → (op : Op) → Res op × σ)

/-- One thread makes a step that is answered by its number. -/
def advanceBy (P : Pool τ Op Res ε α σ) (i : ℕ) : Pool τ Op Res ε α σ :=
  match P.threads[i]? with
  | some (t, .call op next) =>
    { shared := (answer i P.shared op).2
      threads := P.threads.set i (t, next (answer i P.shared op).1) }
  | _ => P

/-- Start threads, and let them make steps in the order of a schedule. -/
def scheduleBy (start : τ → Program Op Res ε α) (s : σ) (ts : List τ) (is : List ℕ) :
    Pool τ Op Res ε α σ :=
  is.foldl (advanceBy answer) ⟨s, ts.map fun t => (t, start t)⟩

variable {answer}

theorem reachable_scheduleBy
    (h : ∀ i t s op, step i t s op (answer i s op).1 (answer i s op).2) (s : σ) (ts : List τ)
    (is : List ℕ) :
    Reachable (Step start step env) ⟨s, []⟩ (scheduleBy answer start s ts is) := by
  induction is using List.reverseRecOn with
  | nil => exact reachable_start s ts
  | append_singleton is i ih =>
    rw [scheduleBy, List.foldl_append]
    change Reachable _ _ (advanceBy answer (scheduleBy answer start s ts is) i)
    unfold advanceBy
    split
    · rename_i t op next hi
      exact ih.tail (.run hi (h i t _ op))
    · exact ih

end Numbered

theorem reachable_schedule {handle : σ → (op : Op) → Res op × σ}
    (h : ∀ i t s op, step i t s op (handle s op).1 (handle s op).2) (s : σ) (ts : List τ)
    (is : List ℕ) : Reachable (Step start step env) ⟨s, []⟩ (schedule handle start s ts is) :=
  reachable_scheduleBy h s ts is

end Schedule

theorem reachable_only {A : Op → Prop} {s : σ} (hstart : ∀ t, Only A (start t))
    (h : Reachable (Step start step env) ⟨s, []⟩ P) :
    Reachable (Step start (fun i t s op r s' => A op ∧ step i t s op r s') env) ⟨s, []⟩ P ∧
      ∀ thread ∈ P.threads, Only A thread.2 := by
  refine h.invariant (I := fun P => Reachable (Step start
    (fun i t s op r s' => A op ∧ step i t s op r s') env) ⟨s, []⟩ P ∧
      ∀ thread ∈ P.threads, Only A thread.2) ⟨.refl, by simp⟩ ?_
  rintro P P' ⟨hr, hp⟩ hst
  cases hst with
  | spawn t =>
    refine ⟨hr.tail (.spawn t), fun thread hm => ?_⟩
    rcases List.mem_append.mp hm with hm | hm
    · exact hp thread hm
    · obtain rfl := List.mem_singleton.mp hm
      exact hstart t
  | env he => exact ⟨hr.tail (.env he), hp⟩
  | @run i t op next r s hi hs =>
    obtain ⟨hA, hnext⟩ := hp _ (List.mem_of_getElem? hi)
    refine ⟨hr.tail (.run hi ⟨hA, hs⟩), fun thread hm => ?_⟩
    rcases List.mem_or_eq_of_mem_set hm with hm | rfl
    · exact hp thread hm
    · exact hnext r

section Ghost

variable {γ : Type*} (record : ℕ → (op : Op) → Res op → γ → γ)

/-- Steps that are also recorded in a ghost state, which no program sees. -/
def GhostStep (step : ℕ → τ → σ → (op : Op) → Res op → σ → Prop) (i : ℕ) (t : τ) (s : σ × γ)
    (op : Op) (r : Res op) (s' : σ × γ) : Prop :=
  step i t s.1 op r s'.1 ∧ s'.2 = record i op r s.2

/-- The environment does not change the ghost state. -/
def GhostEnv (env : σ → σ → Prop) (s s' : σ × γ) : Prop := env s.1 s'.1 ∧ s'.2 = s.2

/-- What is recorded does not restrict what a pool does. -/
theorem reachable_ghost {s : σ} {threads : List (τ × Program Op Res ε α)} (g : γ)
    (h : Reachable (Step start step env) ⟨s, threads⟩ P) :
    ∃ g', Reachable (Step start (GhostStep record step) (GhostEnv env)) ⟨(s, g), threads⟩
      ⟨(P.shared, g'), P.threads⟩ := by
  refine h.invariant (I := fun P => ∃ g', Reachable (Step start (GhostStep record step)
    (GhostEnv env)) ⟨(s, g), threads⟩ ⟨(P.shared, g'), P.threads⟩) ⟨g, .refl⟩ ?_
  rintro P P' ⟨g', hr⟩ hst
  cases hst with
  | spawn t => exact ⟨g', hr.tail (.spawn t)⟩
  | env he => exact ⟨g', hr.tail (.env ⟨he, rfl⟩)⟩
  | @run i t op next r s hi hs => exact ⟨record i op r g', hr.tail (.run hi ⟨hs, rfl⟩)⟩

end Ghost

theorem reachable_of_runs {i : ℕ} {t : τ} {p : Program Op Res ε α} {o : Except ε α} {s s' : σ}
    {P₀ P : Pool τ Op Res ε α σ} (h : Runs (step i t) p s o s')
    (hP : Reachable (Step start step env) P₀ P) (hs : P.shared = s)
    (hi : P.threads[i]? = some (t, p)) :
    Reachable (Step start step env) P₀ ⟨s', P.threads.set i (t, ofExcept o)⟩ := by
  obtain ⟨hlt, hthread⟩ := List.getElem?_eq_some_iff.mp hi
  induction h generalizing P with
  | ret a s =>
    subst hs
    change Reachable _ P₀ ⟨P.shared, P.threads.set i (t, .ret a)⟩
    rw [← hthread, List.set_getElem_self]
    exact hP
  | fail e s =>
    subst hs
    change Reachable _ P₀ ⟨P.shared, P.threads.set i (t, .fail e)⟩
    rw [← hthread, List.set_getElem_self]
    exact hP
  | call hst _ ih =>
    subst hs
    have hrest := ih (hP.tail (.run hi hst)) rfl (List.getElem?_set_self hlt)
      (by simpa using hlt) (by simp)
    simpa only [List.set_set] using hrest

end Pool
