import DogBot.Library.Text

/-! # Numbered markers

Markers that are enclosed in brackets stand between texts, numbered one after the
other. Two of them never overlap, so that a marker which occurs a second time
occurs within one of the texts.
-/

namespace Text

variable {α : Type*}

structure Markers (α : Type*) where
  opening : α
  closing : α
  body : ℕ → List α
  opening_ne_closing : opening ≠ closing
  opening_not_mem : ∀ k, opening ∉ body k
  closing_not_mem : ∀ k, closing ∉ body k
  body_injective : Function.Injective body

namespace Markers

variable (M : Markers α)

def marker (k : ℕ) : List α := M.opening :: (M.body k ++ [M.closing])

/-- The texts with markers between them, which are numbered from the given number on. -/
def marked (k : ℕ) : List (List α) → List α
  | [] => []
  | [text] => text
  | text :: next :: texts => text ++ M.marker k ++ marked (k + 1) (next :: texts)

/-- What stands in front of a marker; the second number counts the markers in front of it. -/
def front (k : ℕ) : ℕ → List (List α) → List α
  | _, [] => []
  | 0, text :: _ => text
  | i + 1, text :: texts => text ++ M.marker k ++ front (k + 1) i texts

variable {M} {i j k : ℕ} {l m x y s t : List α} {texts : List (List α)}

theorem opening_mem_marker_tail : M.opening ∉ M.body k ++ [M.closing] := by
  rw [List.mem_append, List.mem_singleton]
  exact not_or.mpr ⟨M.opening_not_mem k, M.opening_ne_closing⟩

theorem append_cons_inj {a : α} {u v : List α} (hu : a ∉ u) (hv : a ∉ v)
    (h : u ++ a :: x = v ++ a :: y) : u = v ∧ x = y := by
  rcases List.append_eq_append_iff.mp h with ⟨z, rfl, hz⟩ | ⟨z, rfl, hz⟩
  all_goals
    cases z with
    | nil => simpa [eq_comm] using hz
    | cons c z =>
      obtain ⟨rfl, -⟩ := List.cons_eq_cons.mp hz
      simp at hu hv

theorem marker_append_inj (h : M.marker j ++ x = M.marker k ++ y) : j = k ∧ x = y := by
  simp only [marker, List.cons_append, List.append_assoc, List.nil_append, List.cons.injEq,
    true_and] at h
  obtain ⟨hbody, hrest⟩ := append_cons_inj (M.closing_not_mem j) (M.closing_not_mem k) h
  exact ⟨M.body_injective hbody, hrest⟩

theorem eq_append_of_marker_append (hs : s ≠ []) (h : M.marker j ++ y = s ++ M.marker k ++ t) :
    ∃ z, s = M.marker j ++ z ∧ y = z ++ M.marker k ++ t := by
  rw [List.append_assoc] at h
  rcases List.append_eq_append_iff.mp h with ⟨z, rfl, rfl⟩ | ⟨z, hj, hk⟩
  · exact ⟨z, rfl, (List.append_assoc _ _ _).symm⟩
  cases z with
  | nil =>
    rw [List.append_nil] at hj
    exact ⟨[], by simp [hj], by simpa using hk.symm⟩
  | cons c z =>
    -- The second marker would begin within the first one.
    cases s with
    | nil => exact absurd rfl hs
    | cons d s =>
      obtain ⟨rfl, -⟩ := List.cons_eq_cons.mp hk
      obtain ⟨-, htail⟩ := List.cons_eq_cons.mp hj
      refine absurd ?_ (opening_mem_marker_tail (M := M) (k := j))
      rw [htail]
      exact List.mem_append_right s (List.mem_cons_self ..)

theorem marker_cases (h : x ++ M.marker j ++ y = s ++ M.marker k ++ t) :
    (x = s ∧ j = k) ∨ (∃ z, s = x ++ M.marker j ++ z ∧ y = z ++ M.marker k ++ t) ∨
      ∃ z, x = s ++ M.marker k ++ z ∧ t = z ++ M.marker j ++ y := by
  rw [List.append_assoc, List.append_assoc] at h
  rcases List.append_eq_append_iff.mp h with ⟨z, rfl, hz⟩ | ⟨z, rfl, hz⟩
  · by_cases hne : z = []
    · subst hne
      exact .inl ⟨(List.append_nil x).symm, (marker_append_inj hz).1⟩
    · rw [← List.append_assoc] at hz
      obtain ⟨w, rfl, hy⟩ := eq_append_of_marker_append hne hz
      exact .inr (.inl ⟨w, (List.append_assoc ..).symm, hy⟩)
  · by_cases hne : z = []
    · subst hne
      exact .inl ⟨List.append_nil s, (marker_append_inj hz).1.symm⟩
    · rw [← List.append_assoc] at hz
      obtain ⟨w, rfl, ht⟩ := eq_append_of_marker_append hne hz
      exact .inr (.inr ⟨w, (List.append_assoc ..).symm, ht⟩)

theorem marked_cons (h : texts ≠ []) :
    M.marked k (t :: texts) = t ++ M.marker k ++ M.marked (k + 1) texts := by
  cases texts with
  | nil => exact absurd rfl h
  | cons next texts => rfl

theorem front_append_prefix (h : i + 1 < texts.length) :
    M.front k i texts ++ M.marker (k + i) <+: M.marked k texts := by
  induction texts generalizing k i with
  | nil => simp at h
  | cons text texts ih =>
    have hne : texts ≠ [] := by
      rintro rfl
      simp at h
    rw [marked_cons hne]
    cases i with
    | zero => exact List.prefix_append _ _
    | succ i =>
      have hi := ih (k := k + 1) (i := i) (by simpa using h)
      rw [show k + 1 + i = k + (i + 1) by omega] at hi
      rw [front, List.append_assoc]
      exact (List.prefix_append_right_inj _).mpr hi

theorem eq_front (hno : ∀ text ∈ texts, ¬ M.marker j <:+: text)
    (h : M.marked k texts = x ++ M.marker j ++ y) :
    ∃ i, j = k + i ∧ i + 1 < texts.length ∧ x = M.front k i texts := by
  induction texts generalizing k x with
  | nil => simp [marked, marker] at h
  | cons text texts ih =>
    obtain ⟨htext, hrest⟩ := List.forall_mem_cons.mp hno
    by_cases hne : texts = []
    · subst hne
      exact absurd ⟨x, y, h.symm⟩ htext
    rw [marked_cons hne] at h
    rcases marker_cases h with ⟨rfl, rfl⟩ | ⟨z, rfl, hz⟩ | ⟨z, rfl, -⟩
    · exact ⟨0, rfl, by simpa [List.length_pos_iff] using hne, rfl⟩
    · obtain ⟨i, rfl, hi, rfl⟩ := ih hrest hz
      exact ⟨i + 1, by omega, by simpa using hi, rfl⟩
    · exact absurd ⟨x, z, rfl⟩ htext

theorem suffix_front (h : texts[i]? = some t) : t <:+ M.front k i texts := by
  induction texts generalizing k i with
  | nil => simp at h
  | cons text texts ih =>
    cases i with
    | zero =>
      obtain rfl := Option.some.inj h
      exact List.suffix_rfl
    | succ i => exact (ih h).trans (List.suffix_append _ _)

theorem prefix_marked : t <+: M.marked k (t :: texts) := by
  by_cases h : texts = []
  · subst h
    exact List.prefix_refl t
  · rw [marked_cons h, List.append_assoc]
    exact List.prefix_append _ _

theorem prefix_front : t <+: M.front k i (t :: texts) := by
  cases i with
  | zero => exact List.prefix_refl t
  | succ i =>
    rw [front, List.append_assoc]
    exact List.prefix_append _ _

theorem marker_ne_nil : M.marker j ≠ [] := List.cons_ne_nil _ _

/-- A marker within a text occurs elsewhere than behind any one front. -/
theorem exists_ne_front (i : ℕ) (ht : t ∈ texts) (hin : M.marker j <:+: t) :
    ∃ x y, M.marked k texts = x ++ M.marker j ++ y ∧ x ≠ M.front k i texts := by
  induction texts generalizing k i with
  | nil => cases ht
  | cons text texts ih =>
    rcases List.mem_cons.mp ht with rfl | ht
    · -- The front has the whole text, and with it the marker.
      obtain ⟨x, y, rfl⟩ := hin
      obtain ⟨back, hback⟩ := @prefix_marked _ M k (x ++ M.marker j ++ y) texts
      obtain ⟨rest, hrest⟩ := @prefix_front _ M i k (x ++ M.marker j ++ y) texts
      refine ⟨x, y ++ back, by rw [← hback, List.append_assoc _ y], fun he => ?_⟩
      rw [← hrest, List.append_assoc, List.append_assoc, List.self_eq_append_right] at he
      exact marker_ne_nil (List.append_eq_nil_iff.mp he).1
    · have hne := List.ne_nil_of_mem ht
      cases i with
      | zero =>
        obtain ⟨x, y, h, -⟩ := ih 0 ht
        refine ⟨text ++ M.marker k ++ x, y, ?_, fun he => ?_⟩
        · rw [marked_cons hne, h]
          simp only [List.append_assoc]
        · rw [front, List.append_assoc, List.append_right_eq_self] at he
          exact marker_ne_nil (List.append_eq_nil_iff.mp he).1
      | succ i =>
        obtain ⟨x, y, h, hx⟩ := ih i ht
        refine ⟨text ++ M.marker k ++ x, y, ?_, fun he => hx (List.append_cancel_left he)⟩
        rw [marked_cons hne, h]
        simp only [List.append_assoc]

/-- A marker occurs only where it was put exactly if it occurs in none of the texts. -/
theorem eq_front_iff :
    (∀ x y, M.marked k texts = x ++ M.marker (k + i) ++ y → x = M.front k i texts) ↔
      ∀ text ∈ texts, ¬ M.marker (k + i) <:+: text := by
  constructor
  · intro h text htext hin
    obtain ⟨x, y, hxy, hne⟩ := exists_ne_front (k := k) i htext hin
    exact hne (h x y hxy)
  · intro h x y hxy
    obtain ⟨i', hi', -, rfl⟩ := eq_front h hxy
    rw [Nat.add_left_cancel hi']

end Markers

section Trimmed

variable {back x y l m : List Char} {c d : Char}

theorem dropWhile_append_visible (hd : isWhitespace d = false) (x y : List Char) :
    (x ++ d :: y).dropWhile isWhitespace = x.dropWhile isWhitespace ++ d :: y := by
  by_cases hx : Blank x
  · rw [dropWhile_of_blank hx, dropWhile_eq_nil_iff.mpr hx, List.nil_append,
      List.dropWhile_cons_of_neg (by simp [hd])]
  · exact dropWhile_of_not_blank hx _

theorem exists_eq_append_trimChars (l : List Char) :
    ∃ w w', Blank w ∧ l = w ++ trimChars l ++ w' := by
  refine ⟨l.takeWhile isWhitespace, (l.dropWhile isWhitespace).rtakeWhile isWhitespace,
    blank_iff.mpr fun c hc => List.mem_takeWhile_imp hc, ?_⟩
  rw [trimChars, List.append_assoc, List.rdropWhile_append_rtakeWhile,
    List.takeWhile_append_dropWhile]

theorem trimChars_append_append (hd : isWhitespace d = false) (hc : isWhitespace c = false)
    (x m y : List Char) : trimChars (x ++ d :: (m ++ [c]) ++ y) =
      x.dropWhile isWhitespace ++ d :: (m ++ [c]) ++ y.rdropWhile isWhitespace := by
  have hrev : (d :: (m ++ [c] ++ y)).reverse = y.reverse ++ c :: (d :: m).reverse := by simp
  rw [List.append_assoc, List.cons_append, trimChars_append_cons hd, List.rdropWhile, hrev,
    dropWhile_append_visible hc]
  simp [List.rdropWhile]

/-- A text with visible ends occurs in a trimmed text where it occurs before trimming. -/
theorem eq_dropWhile_iff (hd : isWhitespace d = false) (hc : isWhitespace c = false)
    {front : List Char} (hfront : l = front ++ d :: (m ++ [c]) ++ back) :
    (∀ x y, trimChars l = x ++ d :: (m ++ [c]) ++ y → x = front.dropWhile isWhitespace) ↔
      ∀ x y, l = x ++ d :: (m ++ [c]) ++ y → x = front := by
  constructor
  · intro h x y hx
    have hdrop := h _ _ ((congrArg trimChars hx).trans (trimChars_append_append hd hc x m y))
    have hcut := congrArg (List.dropWhile isWhitespace) (hx.symm.trans hfront)
    simp only [List.append_assoc, List.cons_append] at hcut
    rw [dropWhile_append_visible hd, dropWhile_append_visible hd, hdrop] at hcut
    have hrest := List.append_cancel_left hcut
    have hall := hx.symm.trans hfront
    simp only [List.append_assoc, List.cons_append] at hall
    rw [hrest] at hall
    exact List.append_cancel_right hall
  · intro h x y hx
    obtain ⟨w, w', hw, hl⟩ := exists_eq_append_trimChars l
    have hfound : w ++ x = front := by
      refine h (w ++ x) (y ++ w') ?_
      rw [hl, hx]
      simp
    have htrim := trimChars_append_append hd hc x m y
    rw [← hx, trimChars_trimChars, hx] at htrim
    have hlen := congrArg List.length htrim
    simp only [List.length_append] at hlen
    have hx' := (List.dropWhile_suffix (l := x) isWhitespace).length_le
    have hy' := (List.rdropWhile_prefix (l := y) isWhitespace).length_le
    rw [← hfound, dropWhile_of_blank hw]
    exact ((List.dropWhile_suffix _).eq_of_length (by omega)).symm

theorem suffix_dropWhile_iff :
    m <:+ (x ++ m).dropWhile isWhitespace ↔
      (Blank x → ∀ c ∈ m.head?, isWhitespace c = false) := by
  by_cases hx : Blank x
  · rw [dropWhile_of_blank hx]
    simp only [hx, forall_const]
    cases m with
    | nil => simp
    | cons c m =>
      cases hc : isWhitespace c with
      | true =>
        rw [List.dropWhile_cons_of_pos hc]
        refine iff_of_false (fun h => ?_) (by simp [hc])
        have hlen := h.length_le.trans (List.dropWhile_suffix _).length_le
        simp at hlen
      | false =>
        rw [List.dropWhile_cons_of_neg (by simp [hc])]
        exact iff_of_true List.suffix_rfl (by simp [hc])
  · rw [dropWhile_of_not_blank hx]
    exact iff_of_true (List.suffix_append ..) fun h => absurd h hx

end Trimmed

end Text
