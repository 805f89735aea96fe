import Mathlib.Algebra.GroupWithZero.Nat
import Mathlib.Data.List.AList

/-! # Finite tables

Association lists with distinct keys serve as hash maps and as database tables.
Beside Mathlib's lookups, this file provides the list of values, the number of
entries and sums over the entries, each with its behaviour under insertion and
erasure.
-/

universe u v

abbrev Table (κ : Type u) (ν : Type v) := AList (fun _ : κ => ν)

namespace AList

variable {κ : Type u} {ν : Type v} {t : Table κ ν} {k k' : κ} {v w : ν}

/-- The values of a table, in the order of its entries. -/
def values (t : Table κ ν) : List ν := t.entries.map Sigma.snd

def size (t : Table κ ν) : ℕ := t.entries.length

/-- The sum of a measure over the values of a table. -/
def total (f : ν → ℕ) (t : Table κ ν) : ℕ := (t.values.map f).sum

theorem length_values : t.values.length = t.size := by simp [values, size]

variable [DecidableEq κ]

theorem mem_values : v ∈ t.values ↔ ∃ k, t.lookup k = some v := by
  simp only [values, List.mem_map]
  constructor
  · rintro ⟨⟨k, w⟩, hm, rfl⟩
    exact ⟨k, mem_lookup_iff.mpr hm⟩
  · rintro ⟨k, hk⟩
    exact ⟨⟨k, v⟩, mem_lookup_iff.mp hk, rfl⟩

theorem mem_iff_lookup : k ∈ t ↔ ∃ v, t.lookup k = some v := by
  rw [← lookup_isSome, Option.isSome_iff_exists]

theorem mem_of_lookup (h : t.lookup k = some v) : k ∈ t := mem_iff_lookup.mpr ⟨v, h⟩

theorem lookup_insert' : (t.insert k v).lookup k' = if k' = k then some v else t.lookup k' := by
  split_ifs with h
  · subst h; exact lookup_insert _
  · exact lookup_insert_ne h

theorem lookup_erase' : (t.erase k).lookup k' = if k' = k then none else t.lookup k' := by
  split_ifs with h
  · subst h; exact lookup_erase _ _
  · exact lookup_erase_ne h

theorem erase_of_notMem (h : k ∉ t) : t.erase k = t := by
  apply AList.ext
  exact List.kerase_of_notMem_keys (mt AList.mem_keys.mpr h)

theorem entries_perm_of_lookup (h : t.lookup k = some v) :
    t.entries.Perm (⟨k, v⟩ :: (t.erase k).entries) := by
  have hk : k ∈ t.entries.keys := AList.mem_keys.mp (mem_of_lookup h)
  obtain ⟨w, l₁, l₂, -, hl, he⟩ := List.exists_of_kerase hk
  have hw : w = v := by
    have hm : Sigma.mk k w ∈ t.entries := by simp [hl]
    exact Option.some.inj ((mem_lookup_iff.mpr hm).symm.trans h)
  subst hw
  rw [hl]
  change (l₁ ++ ⟨k, w⟩ :: l₂).Perm (⟨k, w⟩ :: t.entries.kerase k)
  rw [he]
  exact List.perm_middle

theorem values_perm_of_lookup (h : t.lookup k = some v) :
    t.values.Perm (v :: (t.erase k).values) := by
  simpa [values] using (entries_perm_of_lookup h).map Sigma.snd

theorem values_insert : (t.insert k v).values = v :: (t.erase k).values := by
  change (t.insert k v).entries.map Sigma.snd = v :: (t.entries.kerase k).map Sigma.snd
  simp [entries_insert]

theorem values_insert_of_notMem (h : k ∉ t) : (t.insert k v).values = v :: t.values := by
  rw [values_insert, erase_of_notMem h]

theorem size_insert_of_notMem (h : k ∉ t) : (t.insert k v).size = t.size + 1 := by
  simp [← length_values, values_insert_of_notMem h]

theorem size_erase_of_lookup (h : t.lookup k = some v) : (t.erase k).size + 1 = t.size := by
  simpa [← length_values] using (values_perm_of_lookup h).length_eq.symm

theorem size_insert_le : (t.insert k v).size ≤ t.size + 1 := by
  by_cases hk : k ∈ t
  · obtain ⟨w, hw⟩ := mem_iff_lookup.mp hk
    have hsize := size_erase_of_lookup hw
    rw [← length_values, values_insert, List.length_cons, length_values]
    omega
  · exact Nat.le_of_eq (size_insert_of_notMem hk)

theorem total_insert (f : ν → ℕ) : (t.insert k v).total f = f v + (t.erase k).total f := by
  simp [total, values_insert]

theorem total_of_lookup (f : ν → ℕ) (h : t.lookup k = some v) :
    t.total f = f v + (t.erase k).total f := by
  simpa [total] using ((values_perm_of_lookup h).map f).sum_nat

theorem total_erase_of_notMem (f : ν → ℕ) (h : k ∉ t) : (t.erase k).total f = t.total f := by
  rw [erase_of_notMem h]

end AList
