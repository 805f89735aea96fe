import Mathlib.Data.List.Forall2
import Mathlib.Data.List.Induction
import Mathlib.Logic.Relation

/-! # Machines and transition systems

A machine answers each input with an output and a new state; a guard says
which inputs its environment may offer. Invariants and simulations are checked
on single steps and then hold along every admissible run. A transition system
is given by its step relation alone.
-/

universe u v w

/-- A deterministic machine with outputs and a guard on its inputs. -/
structure Machine (ι : Type u) (ο : Type v) where
  State : Type w
  Enabled : State → ι → Prop
  step : State → ι → State × ο

namespace Machine

variable {ι : Type u} {ο ο' : Type v} (M : Machine ι ο)

/-- The state after a list of inputs, with the outputs given on the way. -/
def run : M.State → List ι → M.State × List ο
  | s, [] => (s, [])
  | s, i :: is => ((run (M.step s i).1 is).1, (M.step s i).2 :: (run (M.step s i).1 is).2)

/-- Every input of the list is offered in a state whose guard admits it. -/
def Admissible : M.State → List ι → Prop
  | _, [] => True
  | s, i :: is => M.Enabled s i ∧ Admissible (M.step s i).1 is

instance decidableAdmissible [∀ s i, Decidable (M.Enabled s i)] :
    ∀ s is, Decidable (M.Admissible s is)
  | _, [] => .isTrue trivial
  | s, i :: is =>
    have := decidableAdmissible (M.step s i).1 is
    inferInstanceAs (Decidable (M.Enabled s i ∧ M.Admissible (M.step s i).1 is))

variable {M}

/-- An invariant of the admitted steps holds at the end of every admissible run. -/
theorem run_invariant {I : M.State → Prop}
    (hstep : ∀ s i, I s → M.Enabled s i → I (M.step s i).1) {s : M.State} {is : List ι}
    (hs : I s) (h : M.Admissible s is) : I (M.run s is).1 := by
  induction is generalizing s with
  | nil => exact hs
  | cons i is ih => exact ih (hstep s i hs h.1) h.2

theorem forall_mem_run_output {P : ο → Prop} (hstep : ∀ s i, P (M.step s i).2) (s : M.State)
    (is : List ι) : ∀ o ∈ (M.run s is).2, P o := by
  induction is generalizing s with
  | nil => simp [run]
  | cons i is ih =>
    intro o ho
    rcases List.mem_cons.mp ho with rfl | ho
    · exact hstep s i
    · exact ih _ o ho

/-- A step-wise simulation of one machine by another, up to a relation on outputs. -/
structure Simulation (C : Machine ι ο) (A : Machine ι ο') (same : ο → ο' → Prop) where
  Rel : C.State → A.State → Prop
  enabled : ∀ {s t i}, Rel s t → C.Enabled s i → A.Enabled t i
  step : ∀ {s t i}, Rel s t → C.Enabled s i → Rel (C.step s i).1 (A.step t i).1
  output : ∀ {s t i}, Rel s t → C.Enabled s i → same (C.step s i).2 (A.step t i).2

theorem Simulation.run {C : Machine ι ο} {A : Machine ι ο'} {same : ο → ο' → Prop}
    (S : Simulation C A same) {s : C.State} {t : A.State} {is : List ι}
    (hr : S.Rel s t) (h : C.Admissible s is) :
    A.Admissible t is ∧ S.Rel (C.run s is).1 (A.run t is).1 ∧
      List.Forall₂ same (C.run s is).2 (A.run t is).2 := by
  induction is generalizing s t with
  | nil => exact ⟨trivial, hr, .nil⟩
  | cons i is ih =>
    obtain ⟨ha, hrel, hout⟩ := ih (S.step hr h.1) h.2
    exact ⟨⟨S.enabled hr h.1, ha⟩, hrel, .cons (S.output hr h.1) hout⟩

end Machine

/-- The states reached from an initial one by finitely many steps. -/
def Reachable {σ : Type u} (Step : σ → σ → Prop) (init : σ) : σ → Prop :=
  Relation.ReflTransGen Step init

namespace Reachable

variable {σ : Type u} {Step : σ → σ → Prop} {init s t : σ}

theorem refl : Reachable Step init init := Relation.ReflTransGen.refl

theorem tail (h : Reachable Step init s) (hs : Step s t) : Reachable Step init t :=
  Relation.ReflTransGen.tail h hs

/-- What holds initially and is preserved by each step holds in every reachable state. -/
theorem invariant {I : σ → Prop} (h₀ : I init) (hstep : ∀ s t, I s → Step s t → I t)
    (h : Reachable Step init s) : I s := by
  induction h with
  | refl => exact h₀
  | tail _ hst ih => exact hstep _ _ ih hst

end Reachable

/-- The runs of a labelled transition system, with the labels of their steps in order. -/
inductive Trace {σ : Type u} {ℓ : Type v} (Step : σ → ℓ → σ → Prop) : σ → List ℓ → σ → Prop
  | nil (s : σ) : Trace Step s [] s
  | snoc {s t u : σ} {ls : List ℓ} {l : ℓ} :
      Trace Step s ls t → Step t l u → Trace Step s (ls ++ [l]) u

namespace Trace

variable {σ : Type u} {ℓ : Type v} {Step : σ → ℓ → σ → Prop} {s t u : σ} {ls ls' : List ℓ} {l : ℓ}

/-- What holds of the empty trace and is preserved by each step holds of every trace. -/
theorem invariant {I : List ℓ → σ → Prop} (h₀ : I [] s)
    (hstep : ∀ ls t l u, I ls t → Step t l u → I (ls ++ [l]) u) (h : Trace Step s ls t) :
    I ls t := by
  induction h with
  | nil => exact h₀
  | snoc _ hst ih => exact hstep _ _ _ _ ih hst

theorem append (h : Trace Step s ls t) (h' : Trace Step t ls' u) : Trace Step s (ls ++ ls') u := by
  induction h' with
  | nil => simpa using h
  | snoc _ hst ih => rw [← List.append_assoc]; exact .snoc ih hst

theorem mono {Step' : σ → ℓ → σ → Prop} (hstep : ∀ s l t, Step s l t → Step' s l t)
    (h : Trace Step s ls t) : Trace Step' s ls t := by
  induction h with
  | nil => exact .nil _
  | snoc _ hst ih => exact .snoc ih (hstep _ _ _ hst)

theorem of_concat (h : Trace Step s (ls ++ [l]) u) : ∃ t, Trace Step s ls t ∧ Step t l u := by
  generalize hls : ls ++ [l] = zs at h
  cases h with
  | nil => simp at hls
  | snoc ht hst =>
    obtain ⟨rfl, hl⟩ := List.append_inj' hls rfl
    obtain rfl := List.singleton_inj.mp hl
    exact ⟨_, ht, hst⟩

/-- A trace can be cut between any two of its labels. -/
theorem split (h : Trace Step s (ls ++ ls') u) : ∃ t, Trace Step s ls t ∧ Trace Step t ls' u := by
  induction ls' using List.reverseRecOn generalizing u with
  | nil => exact ⟨u, by simpa using h, .nil u⟩
  | append_singleton ls' l ih =>
    rw [← List.append_assoc] at h
    obtain ⟨v, hv, hst⟩ := of_concat h
    obtain ⟨t, ht, htv⟩ := ih hv
    exact ⟨t, ht, .snoc htv hst⟩

end Trace
