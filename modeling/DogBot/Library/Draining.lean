import Mathlib.Logic.Hydra
import Mathlib.Order.WellFounded
import DogBot.Library.Program

/-! # Draining

A program ends after finitely many calls, whatever the answers are. So threads
that are finitely many can make calls only finitely often, in any order, also if
a bounded number of further threads is started meanwhile.
-/

universe u v w x y

namespace Program

open Relation

variable {Op : Type u} {Res : Op → Type v} {ε : Type w} {α : Type x}

/-- What is left of a program after its first call. -/
inductive Next : Program Op Res ε α → Program Op Res ε α → Prop
  | call {op : Op} (next : Res op → Program Op Res ε α) (r : Res op) : Next (next r) (call op next)

theorem wellFounded_next : WellFounded (@Next Op Res ε α) := by
  constructor
  intro p
  induction p with
  | ret a => exact ⟨_, nofun⟩
  | fail e => exact ⟨_, nofun⟩
  | call op next ih =>
    constructor
    intro q hq
    cases hq with
    | call next r => exact ih r

def Advance (l' l : List (Program Op Res ε α)) : Prop :=
  ∃ (i : ℕ) (p q : Program Op Res ε α), l[i]? = some p ∧ Next q p ∧ l' = l.set i q

theorem coe_set {l : List α} {i : ℕ} {a : α} (h : l[i]? = some a) (b : α) :
    ((l.set i b : List α) : Multiset α) = (l.eraseIdx i : Multiset α) + {b} := by
  obtain ⟨hlt, -⟩ := List.getElem?_eq_some_iff.mp h
  rw [Multiset.add_comm, Multiset.singleton_add, Multiset.cons_coe, Multiset.coe_eq_coe]
  have hlt' : i < (l.set i b).length := by rwa [List.length_set]
  have hperm := List.getElem_cons_eraseIdx_perm hlt'
  rw [List.getElem_set_self, List.eraseIdx_set_eq] at hperm
  exact hperm.symm

theorem wellFounded_advance : WellFounded (@Advance Op Res ε α) := by
  refine Subrelation.wf (fun {l' l} h => ?_)
    (InvImage.wf (fun l : List (Program Op Res ε α) => (l : Multiset (Program Op Res ε α)))
      wellFounded_next.cutExpand)
  obtain ⟨i, p, q, hi, hnext, rfl⟩ := h
  have hself : (l : Multiset (Program Op Res ε α)) = (l.eraseIdx i : Multiset _) + {p} := by
    rw [← coe_set hi]
    obtain ⟨hlt, rfl⟩ := List.getElem?_eq_some_iff.mp hi
    rw [List.set_getElem_self hlt]
  rw [InvImage, coe_set hi, hself]
  exact cutExpand_add_single _ hnext

section Steps

variable {σ : Type y} {step : σ → σ → Prop} (I : σ → Prop) (budget : σ → ℕ)
  (threads : σ → List (Program Op Res ε α))

theorem exists_not_step (hkeeps : ∀ s s', I s → step s s' → I s')
    (hstep : ∀ s s', I s → step s s' →
      budget s' < budget s ∨ budget s' = budget s ∧ Advance (threads s') (threads s))
    (f : ℕ → σ) (hf : I (f 0)) : ∃ n, ¬ step (f n) (f (n + 1)) := by
  by_contra hall
  push Not at hall
  have hinv : ∀ n, I (f n) := by
    intro n
    induction n with
    | zero => exact hf
    | succ n ih => exact hkeeps _ _ ih (hall n)
  have hwf : IsWellFounded (ℕ × List (Program Op Res ε α)) (Prod.Lex (· < ·) Advance) :=
    ⟨wellFounded_lt.prod_lex wellFounded_advance⟩
  obtain ⟨n, hn⟩ := WellFounded.not_rel_apply_succ (h := hwf)
    fun n => (budget (f n), threads (f n))
  apply hn
  rcases hstep _ _ (hinv n) (hall n) with hlt | ⟨heq, hadvance⟩
  · exact .left _ _ hlt
  · rw [heq]
    exact .right _ hadvance

end Steps

end Program
