import Mathlib.Data.List.Nodup
import DogBot.Library.Table

/-! # Lanes of an arrival list

Items that wait in one list, each under a key, form one lane per key. The
order of the keys by their oldest item determines which lane is served next.
Removing the oldest item of a lane leaves the other lanes, and the order of
their keys, as they are. A table of nonempty deques represents the list when
it stores every lane.
-/

namespace Arrival

universe u v

variable {α : Type u} {κ : Type v} [DecidableEq κ] (key : α → κ)

/-- The items waiting under a key, oldest first. -/
def lane (c : κ) (W : List α) : List α := W.filter (key · = c)

def pop (c : κ) (W : List α) : List α := W.eraseP (key · = c)

/-- The keys of the waiting items, by the arrival of their oldest item. -/
def order : List α → List κ
  | [] => []
  | a :: W => key a :: (order W).filter (· ≠ key a)

variable {key} {c d : κ} {a : α} {W : List α}

@[simp] theorem lane_nil : lane key c [] = [] := rfl
@[simp] theorem order_nil : order key [] = [] := rfl

theorem lane_append_singleton :
    lane key c (W ++ [a]) = if key a = c then lane key c W ++ [a] else lane key c W := by
  split_ifs with h <;> simp [lane, h]

theorem mem_lane : a ∈ lane key c W ↔ a ∈ W ∧ key a = c := by simp [lane]

theorem mem_order : c ∈ order key W ↔ ∃ a ∈ W, key a = c := by
  induction W with
  | nil => simp
  | cons b W ih =>
    simp only [order, List.mem_cons, List.mem_filter, ih, decide_eq_true_eq]
    constructor
    · rintro (rfl | ⟨⟨a, ha, rfl⟩, -⟩)
      · exact ⟨b, .inl rfl, rfl⟩
      · exact ⟨a, .inr ha, rfl⟩
    · rintro ⟨a, rfl | ha, rfl⟩
      · exact .inl rfl
      · by_cases h : key a = key b
        · exact .inl h
        · exact .inr ⟨⟨a, ha, rfl⟩, h⟩

theorem lane_ne_nil : lane key c W ≠ [] ↔ c ∈ order key W := by
  rw [mem_order]
  constructor
  · intro h
    obtain ⟨a, ha⟩ := List.exists_mem_of_ne_nil _ h
    exact ⟨a, mem_lane.mp ha⟩
  · rintro ⟨a, ha⟩
    exact List.ne_nil_of_mem (mem_lane.mpr ha)

theorem lane_eq_nil : lane key c W = [] ↔ c ∉ order key W := by
  rw [← lane_ne_nil, not_not]

theorem order_nodup : (order key W).Nodup := by
  induction W with
  | nil => exact List.nodup_nil
  | cons a W ih => exact List.nodup_cons.mpr ⟨by simp, ih.filter _⟩

theorem order_append_singleton :
    order key (W ++ [a]) =
      if key a ∈ order key W then order key W else order key W ++ [key a] := by
  induction W with
  | nil => simp [order]
  | cons b W ih =>
    simp only [List.cons_append, order, ih]
    by_cases hab : key a = key b
    · by_cases hm : key a ∈ order key W <;> simp [hab] <;> simp [← hab, hm]
    · by_cases hm : key a ∈ order key W <;> simp [hab, hm]

theorem head?_filter_order (p : κ → Bool) :
    ((order key W).filter p).head? = (W.find? fun a => p (key a)).map key := by
  induction W with
  | nil => rfl
  | cons a W ih =>
    by_cases h : p (key a) = true
    · simp [order, h]
    · simp only [order, List.filter_cons, h, Bool.false_eq_true, if_false, List.filter_filter,
        List.find?_cons]
      rw [← ih]
      congr 1
      apply List.filter_congr
      intro d _
      by_cases hd : d = key a <;> simp [hd, h]

theorem lane_pop_self : lane key c (pop key c W) = (lane key c W).tail := by
  induction W with
  | nil => rfl
  | cons a W ih =>
    by_cases h : key a = c
    · simp [lane, pop, h]
    · simpa [lane, pop, h] using ih

theorem lane_pop_of_ne (h : d ≠ c) : lane key d (pop key c W) = lane key d W := by
  induction W with
  | nil => rfl
  | cons a W ih =>
    by_cases hc : key a = c
    · have hd : key a ≠ d := fun he => h (he.symm.trans hc)
      simp [lane, pop, hc, Ne.symm h]
    · by_cases hd : key a = d
      · subst hd; simpa [lane, pop, hc] using ih
      · simpa [lane, pop, hc, hd] using ih

theorem head?_lane : (lane key c W).head? = W.find? (key · = c) := List.head?_filter

theorem lane_eq_append_pop (h : W.find? (key · = d) = some a) :
    lane key c W = lane key c [a] ++ lane key c (pop key d W) := by
  have hd : key a = d := by simpa using List.find?_some h
  by_cases hc : c = d
  · subst hc
    rw [← head?_lane] at h
    obtain ⟨rest, hl⟩ := List.head?_eq_some_iff.mp h
    rw [lane_pop_self, hl]
    simp [lane, hd]
  · have hne : key a ≠ c := fun he => hc (he.symm.trans hd)
    rw [lane_pop_of_ne hc]
    simp [lane, hne]

theorem order_pop_filter_ne :
    (order key (pop key c W)).filter (· ≠ c) = (order key W).filter (· ≠ c) := by
  induction W with
  | nil => rfl
  | cons a W ih =>
    by_cases h : key a = c
    · simp [order, pop, h]
    · simp only [order, pop, h, decide_false, Bool.false_eq_true, not_false_eq_true,
        List.eraseP_cons_of_neg]
      rw [List.filter_cons_of_pos (by simp [h]), List.filter_cons_of_pos (by simp [h]),
        List.filter_comm, List.filter_comm (p := (· ≠ c))]
      exact congrArg (fun l => key a :: l.filter (· ≠ key a)) ih

theorem filter_order_pop {p : κ → Bool} (hp : p c = false) :
    (order key (pop key c W)).filter p = (order key W).filter p := by
  have hne : ∀ l : List κ, l.filter p = (l.filter (· ≠ c)).filter p := by
    intro l
    rw [List.filter_filter]
    refine List.filter_congr fun d _ => ?_
    by_cases hd : d = c
    · simp [hd, hp]
    · simp [hd]
  rw [hne, order_pop_filter_ne, ← hne]

theorem length_pop (h : c ∈ order key W) : (pop key c W).length + 1 = W.length := by
  obtain ⟨a, ha, hc⟩ := mem_order.mp h
  have := List.length_eraseP_of_mem (p := (key · = c)) ha (by simpa using hc)
  have := List.length_pos_of_mem ha
  simp only [pop]
  omega

theorem find?_perm_eraseP {p : α → Bool} (h : W.find? p = some a) : W.Perm (a :: W.eraseP p) := by
  induction W with
  | nil => simp at h
  | cons b W ih =>
    by_cases hb : p b = true
    · obtain rfl : b = a := by simpa [hb] using h
      simp [hb]
    · have hf : W.find? p = some a := by simpa [hb] using h
      rw [List.eraseP_cons_of_neg hb]
      exact ((ih hf).cons b).trans (.swap ..)

theorem find?_lane {p : κ → Bool} (h : W.find? (fun a => p (key a)) = some a) :
    W.find? (key · = key a) = some a ∧ W.eraseP (fun a => p (key a)) = pop key (key a) W := by
  induction W with
  | nil => simp at h
  | cons b W ih =>
    by_cases hb : p (key b) = true
    · obtain rfl : b = a := by simpa [hb] using h
      simp [pop, hb]
    · have hf : W.find? (fun a => p (key a)) = some a := by simpa [hb] using h
      have hne : key b ≠ key a := by
        intro he
        have ha : p (key a) = true := by simpa using List.find?_some hf
        exact hb (he ▸ ha)
      obtain ⟨h₁, h₂⟩ := ih hf
      simp [hne, h₁, h₂, hb, pop]

/-- A table of nonempty deques stores the lanes of an arrival list. -/
structure Stores (key : α → κ) (t : Table κ (List α)) (W : List α) : Prop where
  lookup : ∀ c, t.lookup c = if lane key c W = [] then none else some (lane key c W)
  total : t.total List.length = W.length

namespace Stores

variable {t : Table κ (List α)}

theorem nil : Stores key (∅ : Table κ (List α)) [] := ⟨fun _ => rfl, rfl⟩

theorem mem_iff (h : Stores key t W) : c ∈ t ↔ c ∈ order key W := by
  rw [← AList.lookup_isSome, h.lookup, ← lane_ne_nil]
  split_ifs with he <;> simp [he]

theorem getD_lookup (h : Stores key t W) : (t.lookup c).getD [] = lane key c W := by
  rw [h.lookup]
  split_ifs with he <;> simp [he]

theorem lookup_of_lane (h : Stores key t W) (hl : lane key c W ≠ []) :
    t.lookup c = some (lane key c W) := by
  rw [h.lookup, if_neg hl]

theorem lookup_eq_none (h : Stores key t W) (hl : lane key c W = []) : t.lookup c = none := by
  rw [h.lookup, if_pos hl]

theorem lookup_some (h : Stores key t W) {q : List α} (hq : t.lookup c = some q) :
    q = lane key c W ∧ q ≠ [] := by
  rw [h.lookup] at hq
  split_ifs at hq with he
  cases hq
  exact ⟨rfl, he⟩

theorem mem_deque (h : Stores key t W) : (∃ c q, t.lookup c = some q ∧ a ∈ q) ↔ a ∈ W := by
  constructor
  · rintro ⟨c, q, hq, ha⟩
    obtain ⟨rfl, -⟩ := h.lookup_some hq
    exact (mem_lane.mp ha).1
  · intro ha
    have hl : a ∈ lane key (key a) W := mem_lane.mpr ⟨ha, rfl⟩
    exact ⟨key a, _, h.lookup_of_lane (List.ne_nil_of_mem hl), hl⟩

theorem push (h : Stores key t W) :
    Stores key (t.insert (key a) ((t.lookup (key a)).getD [] ++ [a])) (W ++ [a]) := by
  constructor
  · intro c
    rw [AList.lookup_insert', lane_append_singleton, h.getD_lookup]
    by_cases hc : c = key a
    · simp [hc]
    · rw [if_neg hc, if_neg (Ne.symm hc), h.lookup]
  · rw [AList.total_insert, h.getD_lookup]
    have ht := h.total
    by_cases hm : lane key (key a) W = []
    · have hn : key a ∉ t := AList.lookup_eq_none.mp (h.lookup_eq_none hm)
      rw [AList.total_erase_of_notMem _ hn]
      simp [hm, ht, Nat.add_comm]
    · have hs := AList.total_of_lookup List.length (h.lookup_of_lane hm)
      simp only [List.length_append, List.length_singleton]
      omega

/-- Removing the front of a deque, and the deque with it if it becomes empty, serves its lane. -/
theorem pop (h : Stores key t W) {rest : List α} (hl : lane key c W = a :: rest) :
    Stores key (if rest.isEmpty then t.erase c else t.insert c rest) (Arrival.pop key c W) := by
  have hs : t.lookup c = some (a :: rest) := hl ▸ h.lookup_of_lane (by simp [hl])
  have hself : lane key c (Arrival.pop key c W) = rest := by simp [lane_pop_self, hl]
  constructor
  · intro d
    by_cases hd : d = c
    · subst hd
      rw [hself]
      cases rest with
      | nil => simp
      | cons b rest => simp
    · rw [lane_pop_of_ne hd, ← h.lookup]
      split_ifs
      · exact AList.lookup_erase_ne hd
      · exact AList.lookup_insert_ne hd
  · have hc : c ∈ order key W := lane_ne_nil.mp (by simp [hl])
    have hlen := length_pop hc
    have htot := AList.total_of_lookup List.length hs
    rw [h.total] at htot
    split_ifs with he
    · have : rest = [] := by simpa using he
      simp only [this, List.length_singleton] at htot
      omega
    · rw [AList.total_insert]
      simp only [List.length_cons] at htot
      omega

end Stores

end Arrival
