import Mathlib.Data.List.Basic
import Mathlib.Data.Option.Basic

/-! # Multimaps

A multimap is a list of entries whose keys may repeat. To insert an entry
replaces all values of its key. Entries that are inserted one after another
therefore keep their values exactly when no key occurs twice.
-/

universe u v

abbrev Multimap (κ : Type u) (ν : Type v) := List (κ × ν)

namespace Multimap

variable {κ : Type u} {ν : Type v} [DecidableEq κ]

def values (m : Multimap κ ν) (k : κ) : List ν := (m.filter fun e => e.1 = k).map Prod.snd

/-- Set the value of a key, in place of those it has. -/
def insert (m : Multimap κ ν) (k : κ) (v : ν) : Multimap κ ν :=
  m.filter (fun e => e.1 ≠ k) ++ [(k, v)]

def insertAll (m entries : Multimap κ ν) : Multimap κ ν :=
  entries.foldl (fun m e => m.insert e.1 e.2) m

variable {m : Multimap κ ν} {k k' : κ} {v : ν}

@[simp] theorem values_nil : values ([] : Multimap κ ν) k = [] := rfl

theorem values_cons (e : κ × ν) :
    values (e :: m) k = if e.1 = k then e.2 :: m.values k else m.values k := by
  by_cases h : e.1 = k <;> simp [values, h]

theorem values_filter (p : κ → Bool) :
    values (m.filter fun e => p e.1) k = if p k then m.values k else [] := by
  rw [values, List.filter_filter]
  split_ifs with h
  · congr 1
    refine List.filter_congr fun e _ => ?_
    by_cases he : e.1 = k <;> simp [he, h]
  · rw [List.map_eq_nil_iff, List.filter_eq_nil_iff]
    intro e _ he
    simp only [Bool.and_eq_true, decide_eq_true_eq] at he
    exact h (he.1 ▸ he.2)

theorem lookup_filter (p : κ → Bool) (k : κ) :
    (m.filter fun e => p e.1).lookup k = if p k then m.lookup k else none := by
  induction m with
  | nil => simp
  | cons e m ih =>
    obtain ⟨k', v⟩ := e
    rw [List.filter_cons]
    by_cases hk : k = k'
    · subst hk
      cases hp : p k with
      | true => simp
      | false =>
        rw [hp] at ih
        simpa using ih
    · rw [List.lookup_cons, beq_false_of_ne hk, ← ih]
      cases hp : p k' with
      | true => simp [List.lookup_cons, beq_false_of_ne hk]
      | false => simp

theorem values_insert :
    (m.insert k v).values k' = if k' = k then [v] else m.values k' := by
  have hsplit : (m.insert k v).values k' =
      values (m.filter fun e => decide (e.1 ≠ k)) k' ++ values [(k, v)] k' := by
    rw [insert, values, List.filter_append, List.map_append]
    rfl
  rw [hsplit, @values_filter _ _ _ m k' fun key => decide (key ≠ k), values_cons]
  by_cases h : k' = k
  · simp [h]
  · simp [h, Ne.symm h]

theorem values_insertAll (m entries : Multimap κ ν) :
    (insertAll m entries).values k =
      ((entries.values k).getLast?).elim (m.values k) fun v => [v] := by
  induction entries generalizing m with
  | nil => rfl
  | cons e entries ih =>
    rw [insertAll, List.foldl_cons, ← insertAll, ih, values_insert, values_cons]
    by_cases h : e.1 = k
    · rw [if_pos h.symm, if_pos h, List.getLast?_cons]
      cases (values entries k).getLast? <;> rfl
    · rw [if_neg (Ne.symm h), if_neg h]

/-- Inserted into the empty multimap, a key keeps its values if it has at most one. -/
theorem values_insertAll_nil_iff (entries : Multimap κ ν) :
    (insertAll [] entries).values k = entries.values k ↔ (entries.values k).length ≤ 1 := by
  rw [values_insertAll, values_nil]
  match entries.values k with
  | [] => simp
  | [v] => simp
  | v :: w :: vs =>
    refine iff_of_false (fun h => ?_) (by simp)
    have hlength := congrArg List.length h
    rw [List.getLast?_eq_some_getLast (List.cons_ne_nil _ _)] at hlength
    simp at hlength

end Multimap
