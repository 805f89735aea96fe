import Mathlib.Data.List.Induction
import Mathlib.Data.List.Nodup

/-! # Tables with a unique key

A row with a new key is added to a table, and a row with a known key is merged
into the one that has it. Rows are also deleted by a condition. Where a merge
overwrites, the table contains the rows that were written last and that no
deletion has met.
-/

universe u v

namespace KeyedTable

variable {κ : Type u} {α : Type v}

inductive Write (α : Type v)
  | upsert (row : α)
  | keep (p : α → Bool)

/-- A statement neither overwrites nor deletes the row. -/
def Write.Spares (key : α → κ) (row : α) : Write α → Prop
  | upsert other => key other ≠ key row
  | keep p => p row = true

/-- The row was written, and no statement after that has met it. -/
def Latest (key : α → κ) (ws : List (Write α)) (row : α) : Prop :=
  ∃ before after, ws = before ++ .upsert row :: after ∧ ∀ w ∈ after, w.Spares key row

section Latest

variable {key : α → κ} {row : α} {w : Write α} {ws : List (Write α)}

theorem latest_concat :
    Latest key (ws ++ [w]) row ↔ w = .upsert row ∨ Latest key ws row ∧ w.Spares key row := by
  constructor
  · rintro ⟨before, after, heq, hspares⟩
    rcases List.eq_nil_or_concat after with rfl | ⟨after, last, rfl⟩
    · obtain ⟨-, hlast⟩ := List.append_inj' heq rfl
      exact .inl (List.singleton_inj.mp hlast)
    · rw [List.concat_eq_append, ← List.cons_append, ← List.append_assoc] at heq
      obtain ⟨rfl, hlast⟩ := List.append_inj' heq rfl
      rw [List.concat_eq_append] at hspares
      refine .inr ⟨⟨before, after, rfl, fun w' hw' => ?_⟩, ?_⟩
      · exact hspares w' (List.mem_append_left _ hw')
      · obtain rfl : w = last := List.singleton_inj.mp hlast
        exact hspares w (List.mem_append_right _ (List.mem_singleton_self _))
  · rintro (rfl | ⟨⟨before, after, rfl, hspares⟩, hw⟩)
    · exact ⟨ws, [], rfl, List.forall_mem_nil _⟩
    · refine ⟨before, after ++ [w], by rw [List.append_assoc, List.cons_append], fun w' hw' => ?_⟩
      rcases List.mem_append.mp hw' with hw' | hw'
      · exact hspares w' hw'
      · exact List.mem_singleton.mp hw' ▸ hw

theorem not_latest_nil : ¬ Latest key [] row := by
  rintro ⟨before, after, heq, -⟩
  exact List.append_ne_nil_of_right_ne_nil _ (List.cons_ne_nil _ _) heq.symm

theorem Latest.mem (h : Latest key ws row) : .upsert row ∈ ws := by
  obtain ⟨before, after, rfl, -⟩ := h
  exact List.mem_append_right _ (List.mem_cons_self ..)

end Latest

variable [DecidableEq κ] (key : α → κ) (merge : α → α → α)

/-- Insert a row, or merge it into the one with its key. -/
def upsert (row : α) (l : List α) : List α :=
  if l.any fun old => key old = key row then
    l.map fun old => if key old = key row then merge old row else old
  else l ++ [row]

def Write.apply : Write α → List α → List α
  | upsert row, l => KeyedTable.upsert key merge row l
  | keep p, l => l.filter p

def run (ws : List (Write α)) : List α := ws.foldl (fun l w => w.apply key merge l) []

/-- Among these rows, a merge gives the second row. -/
def Overwrites (W : α → Prop) : Prop :=
  ∀ old row, W old → W row → key old = key row → merge old row = row

variable {key merge} {row x : α} {l : List α} {w : Write α} {ws : List (Write α)} {W : α → Prop}

theorem run_concat : run key merge (ws ++ [w]) = w.apply key merge (run key merge ws) :=
  List.foldl_concat ..

theorem mem_upsert_iff (hmerge : ∀ old ∈ l, key old = key row → merge old row = row) :
    x ∈ upsert key merge row l ↔ x = row ∨ x ∈ l ∧ key x ≠ key row := by
  unfold upsert
  split_ifs with hany
  · rw [List.mem_map]
    constructor
    · rintro ⟨old, hold, rfl⟩
      split_ifs with hkey
      · exact .inl (hmerge old hold hkey)
      · exact .inr ⟨hold, hkey⟩
    · rintro (rfl | ⟨hx, hne⟩)
      · obtain ⟨old, hold, hkey⟩ := List.any_eq_true.mp hany
        have heq := of_decide_eq_true hkey
        exact ⟨old, hold, (if_pos heq).trans (hmerge old hold heq)⟩
      · exact ⟨x, hx, if_neg hne⟩
  · have hnew : ∀ old ∈ l, key old ≠ key row := by
      intro old hold hkey
      exact hany (List.any_eq_true.mpr ⟨old, hold, decide_eq_true hkey⟩)
    rw [List.mem_append, List.mem_singleton, or_comm]
    exact or_congr_right ⟨fun hx => ⟨hx, hnew x hx⟩, And.left⟩

theorem nodup_upsert (hkey : ∀ old, key (merge old row) = key old) (hl : (l.map key).Nodup) :
    ((upsert key merge row l).map key).Nodup := by
  unfold upsert
  split_ifs with hany
  · have hkeys : (l.map fun old => if key old = key row then merge old row else old).map key =
        l.map key := by
      rw [List.map_map]
      refine List.map_congr_left fun old _ => ?_
      rw [Function.comp_apply, apply_ite key, hkey, ite_self]
    rwa [hkeys]
  · rw [List.map_append, List.map_singleton, List.nodup_append]
    refine ⟨hl, List.nodup_singleton _, fun a ha b hb heq => hany ?_⟩
    obtain ⟨old, hold, rfl⟩ := List.mem_map.mp ha
    rw [List.mem_singleton.mp hb] at heq
    exact List.any_eq_true.mpr ⟨old, hold, decide_eq_true heq⟩

theorem nodup_run (hkey : ∀ old row, key (merge old row) = key old) :
    ((run key merge ws).map key).Nodup := by
  induction ws using List.reverseRecOn with
  | nil => exact List.nodup_nil
  | append_singleton ws w ih =>
    rw [run_concat]
    cases w with
    | upsert row => exact nodup_upsert (fun old => hkey old row) ih
    | keep p => exact ih.sublist (List.filter_sublist.map key)

/-- Where merges overwrite, a table contains the rows that were written last. -/
theorem mem_run_iff (hW : Overwrites key merge W) (hws : ∀ row, .upsert row ∈ ws → W row) :
    x ∈ run key merge ws ↔ Latest key ws x := by
  induction ws using List.reverseRecOn generalizing x with
  | nil => exact iff_of_false List.not_mem_nil not_latest_nil
  | append_singleton ws w ih =>
    have hbefore : ∀ row, .upsert row ∈ ws → W row :=
      fun row hrow => hws row (List.mem_append_left _ hrow)
    rw [run_concat, latest_concat]
    cases w with
    | upsert row =>
      have hrow : W row := hws row (List.mem_append_right _ (List.mem_singleton_self _))
      have hmerge : ∀ old ∈ run key merge ws, key old = key row → merge old row = row :=
        fun old hold => hW old row (hbefore old ((ih hbefore).mp hold).mem) hrow
      rw [Write.apply, mem_upsert_iff hmerge, ih hbefore, Write.upsert.injEq, eq_comm]
      exact or_congr_right (and_congr_right fun _ => ne_comm)
    | keep p =>
      rw [Write.apply, List.mem_filter, ih hbefore]
      exact (or_iff_right nofun).symm

end KeyedTable
