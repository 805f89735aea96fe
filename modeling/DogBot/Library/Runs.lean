import Mathlib.Data.List.Chain

/-! # Runs between marks

A list of items is cut at those that are marks. What stands between two marks
is a run, where some items may be skipped. The cut is determined by what it
conserves, and it is computed by collecting a run until a mark closes it.
-/

universe u

namespace Runs

inductive Kind | skipped | inner | mark
  deriving DecidableEq

inductive Piece (α : Type u)
  | run (items : List α)
  | mark (item : α)

variable {α : Type u}

def Piece.items : Piece α → List α
  | .run items => items
  | .mark item => [item]

def Piece.IsRun : Piece α → Prop
  | .run _ => True
  | .mark _ => False

/-- A run has items, all of them inner ones; a mark is one. -/
inductive Piece.Valid (kind : α → Kind) : Piece α → Prop
  | run {items : List α} (hne : items ≠ []) (h : ∀ a ∈ items, kind a = .inner) :
      Valid kind (.run items)
  | mark {item : α} (h : kind item = .mark) : Valid kind (.mark item)

/-- The pieces of a list have its items in their order, without the skipped ones, and their runs
are maximal. -/
structure Cut (kind : α → Kind) (items : List α) (pieces : List (Piece α)) : Prop where
  items : pieces.flatMap Piece.items = items.filter fun a => kind a ≠ .skipped
  valid : ∀ piece ∈ pieces, piece.Valid kind
  maximal : pieces.IsChain fun p q => ¬ (p.IsRun ∧ q.IsRun)

def close : List α → List (Piece α)
  | [] => []
  | a :: run => [.run (a :: run)]

/-- The pieces of a list behind the items of a run. -/
def cutFrom (kind : α → Kind) (run : List α) : List α → List (Piece α)
  | [] => close run
  | a :: l =>
    match kind a with
    | .skipped => cutFrom kind run l
    | .inner => cutFrom kind (run ++ [a]) l
    | .mark => close run ++ .mark a :: cutFrom kind [] l

def cut (kind : α → Kind) (items : List α) : List (Piece α) := cutFrom kind [] items

variable {kind : α → Kind} {a : α} {run l items : List α} {pieces : List (Piece α)}

theorem cutFrom_skipped (h : kind a = .skipped) :
    cutFrom kind run (a :: l) = cutFrom kind run l := by
  rw [cutFrom, h]

theorem cutFrom_inner (h : kind a = .inner) :
    cutFrom kind run (a :: l) = cutFrom kind (run ++ [a]) l := by
  rw [cutFrom, h]

theorem cutFrom_mark (h : kind a = .mark) :
    cutFrom kind run (a :: l) = close run ++ .mark a :: cutFrom kind [] l := by
  rw [cutFrom, h]

theorem flatMap_items_close (run : List α) : (close run).flatMap Piece.items = run := by
  cases run <;> simp [close, Piece.items]

theorem valid_close (h : ∀ a ∈ run, kind a = .inner) : ∀ piece ∈ close run, piece.Valid kind := by
  cases run with
  | nil => simp [close]
  | cons a run =>
    intro piece hpiece
    rw [List.mem_singleton.mp hpiece]
    exact .run (List.cons_ne_nil _ _) h

theorem flatMap_items_cutFrom : (cutFrom kind run l).flatMap Piece.items =
    run ++ l.filter fun a => kind a ≠ .skipped := by
  induction l generalizing run with
  | nil => simp [cutFrom, flatMap_items_close]
  | cons a l ih =>
    cases ha : kind a with
    | skipped => simp [cutFrom_skipped ha, ih, ha]
    | inner => simp [cutFrom_inner ha, ih, ha]
    | mark => simp [cutFrom_mark ha, ih, ha, flatMap_items_close, Piece.items]

theorem valid_cutFrom (h : ∀ a ∈ run, kind a = .inner) :
    ∀ piece ∈ cutFrom kind run l, piece.Valid kind := by
  induction l generalizing run with
  | nil => exact valid_close h
  | cons a l ih =>
    cases ha : kind a with
    | skipped =>
      rw [cutFrom_skipped ha]
      exact ih h
    | inner =>
      rw [cutFrom_inner ha]
      refine ih fun b hb => ?_
      rcases List.mem_append.mp hb with hb | hb
      · exact h b hb
      · exact List.mem_singleton.mp hb ▸ ha
    | mark =>
      rw [cutFrom_mark ha]
      intro piece hpiece
      rcases List.mem_append.mp hpiece with hpiece | hpiece
      · exact valid_close h piece hpiece
      · rcases List.mem_cons.mp hpiece with rfl | hpiece
        · exact .mark ha
        · exact ih (List.forall_mem_nil _) piece hpiece

theorem maximal_cutFrom : (cutFrom kind run l).IsChain fun p q => ¬ (p.IsRun ∧ q.IsRun) := by
  induction l generalizing run with
  | nil => cases run <;> simp [cutFrom, close]
  | cons a l ih =>
    cases ha : kind a with
    | skipped =>
      rw [cutFrom_skipped ha]
      exact ih
    | inner =>
      rw [cutFrom_inner ha]
      exact ih
    | mark =>
      rw [cutFrom_mark ha]
      have hmark : (Piece.mark a :: cutFrom kind [] l).IsChain fun p q => ¬ (p.IsRun ∧ q.IsRun) :=
        ih.cons fun _ _ h => h.1
      cases run with
      | nil => exact hmark
      | cons b run => exact hmark.cons_cons fun h => h.2

theorem cut_spec (kind : α → Kind) (items : List α) : Cut kind items (cut kind items) where
  items := flatMap_items_cutFrom
  valid := valid_cutFrom (List.forall_mem_nil _)
  maximal := maximal_cutFrom

theorem cutFrom_filter : cutFrom kind run (l.filter fun a => kind a ≠ .skipped) =
    cutFrom kind run l := by
  induction l generalizing run with
  | nil => rfl
  | cons a l ih =>
    cases ha : kind a with
    | skipped => rw [List.filter_cons_of_neg (by simp [ha]), ih, cutFrom_skipped ha]
    | inner => rw [List.filter_cons_of_pos (by simp [ha]), cutFrom_inner ha, ih, cutFrom_inner ha]
    | mark => rw [List.filter_cons_of_pos (by simp [ha]), cutFrom_mark ha, ih, cutFrom_mark ha]

theorem cutFrom_append (h : ∀ a ∈ items, kind a = .inner) :
    cutFrom kind run (items ++ l) = cutFrom kind (run ++ items) l := by
  induction items generalizing run with
  | nil => simp
  | cons a items ih =>
    obtain ⟨ha, h⟩ := List.forall_mem_cons.mp h
    rw [List.cons_append, cutFrom_inner ha, ih h, List.append_assoc, List.singleton_append]

theorem cut_flatMap_items (hvalid : ∀ piece ∈ pieces, piece.Valid kind)
    (hmax : pieces.IsChain fun p q => ¬ (p.IsRun ∧ q.IsRun)) :
    cut kind (pieces.flatMap Piece.items) = pieces := by
  induction pieces with
  | nil => rfl
  | cons piece pieces ih =>
    obtain ⟨hpiece, hpieces⟩ := List.forall_mem_cons.mp hvalid
    have ih := ih hpieces hmax.tail
    cases hpiece with
    | mark ha =>
      simpa [cut, cutFrom, Piece.items, ha, close] using ih
    | @run items hne hinner =>
      rw [List.flatMap_cons, Piece.items, cut, cutFrom_append hinner, List.nil_append]
      obtain ⟨b, run, rfl⟩ := List.exists_cons_of_ne_nil hne
      cases pieces with
      | nil => rfl
      | cons next pieces =>
        cases List.forall_mem_cons.mp hpieces |>.1 with
        | run => exact absurd ⟨trivial, trivial⟩ (List.isChain_cons_cons.mp hmax).1
        | mark ha =>
          simpa [cut, cutFrom, Piece.items, ha, close] using ih

/-- There is one cut of a list only. -/
theorem Cut.eq_cut (h : Cut kind items pieces) : pieces = cut kind items := by
  have hcut := cut_flatMap_items h.valid h.maximal
  rw [h.items, cut, cutFrom_filter] at hcut
  exact hcut.symm

end Runs
