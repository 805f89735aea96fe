import Mathlib.Data.List.Infix

/-! # Patterns of LIKE

A pattern is a text in which one character stands for any text, one for any
single character, and one escapes the character behind it. A text between two
wildcards finds the texts that contain it only if it has none of the three.
-/

namespace Like

variable {α : Type*}

structure Wildcards (α : Type*) where
  many : α
  one : α
  escape : α
  many_ne_one : many ≠ one
  many_ne_escape : many ≠ escape
  one_ne_escape : one ≠ escape

def Wildcards.Special (w : Wildcards α) (c : α) : Prop :=
  c = w.many ∨ c = w.one ∨ c = w.escape

/-- A folding of the case, which neither changes nor makes special characters. -/
structure Folding (w : Wildcards α) where
  fold : α → α
  fold_special : ∀ {c}, w.Special c → fold c = c
  special_of_fold : ∀ {c}, w.Special (fold c) → w.Special c

inductive Piece (α : Type*)
  | many
  | one
  | char (c : α)
  deriving DecidableEq, Repr

variable [DecidableEq α]

instance (w : Wildcards α) : DecidablePred w.Special := fun c =>
  inferInstanceAs (Decidable (c = w.many ∨ c = w.one ∨ c = w.escape))

/-- What a character stands for, unless it is the escape character. -/
def piece (w : Wildcards α) (c : α) : Piece α :=
  if c = w.many then .many else if c = w.one then .one else .char c

/-- The pieces of a pattern, which does not end with the escape character. -/
def pieces (w : Wildcards α) : List α → Option (List (Piece α))
  | [] => some []
  | c :: l =>
    if c = w.escape then
      match l with
      | [] => none
      | d :: l => (pieces w l).map fun p => .char d :: p
    else (pieces w l).map fun p => piece w c :: p

def fits : List (Piece α) → List α → Bool
  | [], t => t.isEmpty
  | .many :: p, t => t.tails.any fun u => fits p u
  | .one :: _, [] | .char _ :: _, [] => false
  | .one :: p, _ :: t => fits p t
  | .char c :: p, d :: t => c = d && fits p t

def like (w : Wildcards α) (t p : List α) : Option Bool :=
  (pieces w p).map fun p => fits p t

/-- The comparison with a pattern that ignores the case. -/
def ilike {w : Wildcards α} (f : Folding w) (t p : List α) : Option Bool :=
  like w (t.map f.fold) (p.map f.fold)

/-- The pattern of the texts that contain a text. -/
def between (w : Wildcards α) (l : List α) : List α := w.many :: (l ++ [w.many])

/-- A text for which the pattern stands: nothing stands for any text, and the wildcard itself for
a single character. Behind an escape character at its end stands a wildcard. -/
def shortest (w : Wildcards α) : List α → List α
  | [] => []
  | c :: l =>
    if c = w.many then shortest w l
    else if c = w.one then w.many :: shortest w l
    else if c = w.escape then
      match l with
      | [] => [w.many]
      | d :: l => d :: shortest w l
    else c :: shortest w l

variable {w : Wildcards α} {l t p : List α} {q : List (Piece α)} {c : α}

section Fits

theorem fits_many_iff : fits (.many :: q) t = true ↔ ∃ u, u <:+ t ∧ fits q u = true := by
  simp [fits, List.any_eq_true, List.mem_tails]

theorem fits_many (h : fits q t = true) : fits (.many :: q) t = true :=
  fits_many_iff.mpr ⟨t, List.suffix_refl t, h⟩

theorem fits_chars_iff : fits (l.map .char ++ q) t = true ↔ ∃ u, t = l ++ u ∧ fits q u = true := by
  induction l generalizing t with
  | nil => simp
  | cons c l ih =>
    cases t with
    | nil => simp [fits]
    | cons d t =>
      simp only [List.map_cons, List.cons_append, fits, Bool.and_eq_true, decide_eq_true_eq, ih,
        List.cons.injEq]
      constructor
      · rintro ⟨rfl, u, rfl, hu⟩
        exact ⟨u, ⟨rfl, rfl⟩, hu⟩
      · rintro ⟨u, ⟨rfl, rfl⟩, hu⟩
        exact ⟨rfl, u, rfl, hu⟩

theorem fits_last : fits [.many] t = true :=
  fits_many_iff.mpr ⟨[], List.nil_suffix, rfl⟩

theorem fits_between_iff : fits (.many :: (l.map .char ++ [.many])) t = true ↔ l <:+: t := by
  rw [fits_many_iff]
  constructor
  · rintro ⟨u, hu, hfits⟩
    obtain ⟨v, rfl, -⟩ := fits_chars_iff.mp hfits
    exact (List.prefix_append l v).isInfix.trans hu.isInfix
  · rintro ⟨a, b, rfl⟩
    refine ⟨l ++ b, ⟨a, by simp⟩, fits_chars_iff.mpr ⟨b, rfl, fits_last⟩⟩

end Fits

section Pieces

theorem pieces_cons (h : c ≠ w.escape) :
    pieces w (c :: l) = (pieces w l).map fun p => piece w c :: p := by
  cases l <;> simp [pieces, h]

theorem pieces_escape : pieces w (w.escape :: c :: l) = (pieces w l).map fun p => .char c :: p := by
  simp [pieces]

theorem pieces_many : pieces w (w.many :: l) = (pieces w l).map fun p => .many :: p := by
  rw [pieces_cons w.many_ne_escape, piece, if_pos rfl]

theorem piece_of_not_special (h : ¬ w.Special c) : piece w c = .char c := by
  rw [piece, if_neg fun he => h (.inl he), if_neg fun he => h (.inr (.inl he))]

theorem pieces_append (h : ∀ c ∈ l, ¬ w.Special c) :
    pieces w (l ++ p) = (pieces w p).map fun q => l.map .char ++ q := by
  induction l with
  | nil => simp
  | cons c l ih =>
    obtain ⟨hc, hl⟩ := List.forall_mem_cons.mp h
    rw [List.cons_append, pieces_cons fun he => hc (.inr (.inr he)), ih hl,
      piece_of_not_special hc, Option.map_map]
    rfl

theorem pieces_between (h : ∀ c ∈ l, ¬ w.Special c) :
    pieces w (between w l) = some (.many :: (l.map .char ++ [.many])) := by
  rw [between, pieces_many, pieces_append h, pieces_many, pieces]
  rfl

end Pieces

section Shortest

@[simp] theorem shortest_many : shortest w (w.many :: l) = shortest w l := by
  cases l <;> simp [shortest]

@[simp] theorem shortest_one : shortest w (w.one :: l) = w.many :: shortest w l := by
  cases l <;> simp [shortest, w.many_ne_one.symm]

@[simp] theorem shortest_escape_nil : shortest w [w.escape] = [w.many] := by
  simp [shortest, w.many_ne_escape.symm, w.one_ne_escape.symm]

@[simp] theorem shortest_escape : shortest w (w.escape :: c :: l) = c :: shortest w l := by
  simp [shortest, w.many_ne_escape.symm, w.one_ne_escape.symm]

theorem shortest_cons (h : ¬ w.Special c) : shortest w (c :: l) = c :: shortest w l := by
  have hmany : c ≠ w.many := fun he => h (.inl he)
  have hone : c ≠ w.one := fun he => h (.inr (.inl he))
  have hescape : c ≠ w.escape := fun he => h (.inr (.inr he))
  cases l <;> simp [shortest, hmany, hone, hescape]

/-- The pattern stands for the shortest text. -/
theorem fits_shortest (w : Wildcards α) (l : List α) :
    ∃ q, pieces w (l ++ [w.many]) = some q ∧ fits q (shortest w l) = true := by
  fun_induction shortest w l with
  | case1 => exact ⟨[.many], by rw [List.nil_append, pieces_many]; rfl, fits_last⟩
  | case2 l ih =>
    obtain ⟨q, hq, hfits⟩ := ih
    exact ⟨.many :: q, by rw [List.cons_append, pieces_many, hq]; rfl, fits_many hfits⟩
  | case3 l hmany ih =>
    obtain ⟨q, hq, hfits⟩ := ih
    refine ⟨.one :: q, ?_, hfits⟩
    rw [List.cons_append, pieces_cons w.one_ne_escape, hq, piece, if_neg hmany, if_pos rfl]
    rfl
  | case4 hmany hone =>
    exact ⟨[.char w.many], by simp [pieces], by simp [fits]⟩
  | case5 d l hmany hone ih =>
    obtain ⟨q, hq, hfits⟩ := ih
    refine ⟨.char d :: q, ?_, by simpa [fits] using hfits⟩
    rw [List.cons_append, List.cons_append, pieces_escape, hq]
    rfl
  | case6 c l hmany hone hescape ih =>
    obtain ⟨q, hq, hfits⟩ := ih
    refine ⟨.char c :: q, ?_, by simpa [fits] using hfits⟩
    rw [List.cons_append, pieces_cons hescape, hq,
      piece_of_not_special (by simp [Wildcards.Special, hmany, hone, hescape])]
    rfl

theorem length_shortest_le (w : Wildcards α) (l : List α) :
    (shortest w l).length ≤ l.length := by
  fun_induction shortest w l with
  | case1 => rfl
  | case2 l ih => exact Nat.le_succ_of_le ih
  | case3 l hmany ih => exact Nat.succ_le_succ ih
  | case4 hmany hone => rfl
  | case5 d l hmany hone ih => exact Nat.succ_le_succ (Nat.le_succ_of_le ih)
  | case6 c l hmany hone hescape ih => exact Nat.succ_le_succ ih

theorem not_special_of_shortest_eq (h : shortest w l = l) : ∀ c ∈ l, ¬ w.Special c := by
  fun_induction shortest w l with
  | case1 => simp
  | case2 l ih =>
    have hlength := length_shortest_le w l
    rw [h] at hlength
    exact absurd hlength (by simp)
  | case3 l hmany ih => exact absurd (List.cons.inj h).1.symm hmany
  | case4 hmany hone => exact absurd (List.cons.inj h).1.symm hmany
  | case5 d l hmany hone ih =>
    have hlength := length_shortest_le w l
    rw [(List.cons.inj h).2] at hlength
    exact absurd hlength (by simp)
  | case6 c l hmany hone hescape ih =>
    refine List.forall_mem_cons.mpr ⟨by simp [Wildcards.Special, hmany, hone, hescape], ?_⟩
    exact ih (List.cons.inj h).2

theorem not_special_of_infix_shortest (h : l <:+: shortest w l) : ∀ c ∈ l, ¬ w.Special c :=
  not_special_of_shortest_eq (h.eq_of_length_le (length_shortest_le w l)).symm

end Shortest

section Fold

variable (f : Folding w)

omit [DecidableEq α] in
theorem map_between : (between w l).map f.fold = between w (l.map f.fold) := by
  simp [between, f.fold_special (.inl rfl)]

theorem shortest_map (l : List α) : shortest w (l.map f.fold) = (shortest w l).map f.fold := by
  have hmany : f.fold w.many = w.many := f.fold_special (.inl rfl)
  have hone : f.fold w.one = w.one := f.fold_special (.inr (.inl rfl))
  have hescape : f.fold w.escape = w.escape := f.fold_special (.inr (.inr rfl))
  fun_induction shortest w l with
  | case1 => rfl
  | case2 l ih => rw [List.map_cons, hmany, shortest_many, ih]
  | case3 l _ ih => rw [List.map_cons, hone, shortest_one, ih, List.map_cons, hmany]
  | case4 => simp [hmany, hescape]
  | case5 d l _ _ ih => simp [hescape, ih]
  | case6 c l hc₁ hc₂ hc₃ ih =>
    have hc : ¬ w.Special (f.fold c) := fun hspecial => by
      rcases f.special_of_fold hspecial with h | h | h <;> contradiction
    rw [List.map_cons, shortest_cons hc, ih, List.map_cons]

theorem ilike_between_iff (h : ∀ c ∈ l, ¬ w.Special c) :
    ilike f t (between w l) = some true ↔ l.map f.fold <:+: t.map f.fold := by
  have hfold : ∀ c ∈ l.map f.fold, ¬ w.Special c := by
    rw [List.forall_mem_map]
    exact fun c hc hspecial => h c hc (f.special_of_fold hspecial)
  rw [ilike, like, map_between, pieces_between hfold, Option.map_some, Option.some.injEq,
    fits_between_iff]

theorem ilike_shortest : ilike f (shortest w l) (between w l) = some true := by
  obtain ⟨q, hq, hfits⟩ := fits_shortest w (l.map f.fold)
  rw [ilike, like, map_between, between, pieces_many, hq, ← shortest_map]
  exact congrArg some (fits_many hfits)

/-- Between wildcards, a text finds the texts that contain it if and only if none of its
characters is special. -/
theorem forall_ilike_between_iff :
    (∀ t, ilike f t (between w l) = some true ↔ l.map f.fold <:+: t.map f.fold) ↔
      ∀ c ∈ l, ¬ w.Special c := by
  refine ⟨fun h c hc hspecial => ?_, fun h t => ilike_between_iff f h⟩
  have hinside := (h (shortest w l)).mp (ilike_shortest f)
  rw [← shortest_map] at hinside
  refine not_special_of_infix_shortest hinside (f.fold c) (List.mem_map_of_mem hc) ?_
  rwa [f.fold_special hspecial]

end Fold

end Like
