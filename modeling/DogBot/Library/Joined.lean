import DogBot.Library.Text

/-! # Joined texts

A pattern is found in a text that is joined from parts if it is found in one of
the parts, unless it has characters of the separator. Lines that are joined by
newlines are read back, unless one ends in a carriage return or the last one is
empty.
-/

namespace Text

section Pattern

variable {α : Type*} {sep pat l m x y part : List α} {parts before after : List (List α)}

theorem eq_nil_of_suffix {u v : List α} (hu : u <:+ l) (hv : v <:+ l)
    (hdisj : ∀ c ∈ u, c ∉ v) : u = [] ∨ v = [] := by
  by_contra hne
  obtain ⟨hu', hv'⟩ := not_or.mp hne
  rcases List.suffix_or_suffix_of_suffix hu hv with h | h
  · obtain ⟨c, hc⟩ := List.exists_mem_of_ne_nil u hu'
    exact hdisj c hc (h.subset hc)
  · obtain ⟨c, hc⟩ := List.exists_mem_of_ne_nil v hv'
    exact hdisj c (h.subset hc) hc

theorem append_sep_eq (hsep : sep ≠ []) (hpat : pat ≠ []) (hdisj : ∀ c ∈ sep, c ∉ pat)
    (h : l ++ sep ++ m = x ++ pat ++ y) :
    (∃ z, l = x ++ pat ++ z ∧ y = z ++ sep ++ m) ∨
      ∃ z, x = l ++ sep ++ z ∧ m = z ++ pat ++ y := by
  rw [List.append_assoc x] at h
  rcases List.append_eq_append_iff.mp h with ⟨z, rfl, rfl⟩ | ⟨w, hleft, hright⟩
  · exact .inr ⟨z, rfl, (List.append_assoc _ _ _).symm⟩
  rcases List.append_eq_append_iff.mp hright with ⟨v, rfl, rfl⟩ | ⟨v, rfl, rfl⟩
  · rw [← List.append_assoc] at hleft
    rcases List.append_eq_append_iff.mp hleft with ⟨u, hover, rfl⟩ | ⟨u, rfl, rfl⟩
    · have hu : u = [] := (eq_nil_of_suffix (List.suffix_append l u)
        (hover ▸ List.suffix_append x pat) fun c hc => hdisj c (List.mem_append_left _ hc)
        ).resolve_right hpat
      subst hu
      exact .inl ⟨[], by simpa using hover.symm, rfl⟩
    · exact .inl ⟨u, rfl, rfl⟩
  · have hw : w = [] := (eq_nil_of_suffix (List.suffix_append l sep)
      (hleft ▸ List.suffix_append x w) fun c hc hcw =>
        hdisj c hc (List.mem_append_left _ hcw)).resolve_left hsep
    subst hw
    exact .inr ⟨[], by simpa using hleft.symm, rfl⟩

/-- A pattern is found in front of a separator with other characters, or behind it. -/
theorem infix_append_sep_iff (hsep : sep ≠ []) (hpat : pat ≠ []) (hdisj : ∀ c ∈ sep, c ∉ pat) :
    pat <:+: l ++ sep ++ m ↔ pat <:+: l ∨ pat <:+: m := by
  constructor
  · rintro ⟨x, y, h⟩
    rcases append_sep_eq hsep hpat hdisj h.symm with ⟨z, rfl, -⟩ | ⟨z, -, rfl⟩
    · exact .inl ⟨x, z, rfl⟩
    · exact .inr ⟨z, y, rfl⟩
  · rintro (h | h)
    · exact h.trans ((List.prefix_append l sep).trans (List.prefix_append _ m)).isInfix
    · exact h.trans (List.suffix_append _ m).isInfix

theorem exists_first_occurrence {q : List α} {d : α} (h : q ++ [d] <:+: l) :
    ∃ before after, l = before ++ (q ++ [d]) ++ after ∧ ¬ q ++ [d] <:+: before ++ q := by
  induction l using List.reverseRecOn with
  | nil => simp at h
  | append_singleton l c ih =>
    by_cases hl : q ++ [d] <:+: l
    · obtain ⟨before, after, rfl, hno⟩ := ih hl
      exact ⟨before, after ++ [c], by simp, hno⟩
    · obtain ⟨before, hb⟩ := (List.infix_concat_iff.mp h).resolve_right hl
      have hcut : before ++ q = l := by
        rw [← List.append_assoc] at hb
        exact (List.append_inj' hb rfl).1
      exact ⟨before, [], by simpa using hb.symm, hcut ▸ hl⟩

theorem mem_intercalate {c : α} (h : c ∈ sep.intercalate parts) :
    c ∈ sep ∨ c ∈ parts.flatten := by
  induction parts with
  | nil => exact .inr h
  | cons part parts ih =>
    cases parts with
    | nil => exact .inr (by simpa using h)
    | cons next parts =>
      rw [List.intercalate_cons_cons] at h
      rcases List.mem_append.mp h with h | h
      · rcases List.mem_append.mp h with h | h
        · exact .inr (List.mem_append_left _ h)
        · exact .inl h
      · exact (ih h).imp id (List.mem_append_right _)

/-- A pattern in a joined text is found in a part, with what is around it on its sides. -/
theorem exists_part_of_intercalate (hsep : sep ≠ []) (hpat : pat ≠ []) (hdisj : ∀ c ∈ sep, c ∉ pat)
    (h : sep.intercalate parts = x ++ pat ++ y) :
    ∃ before after x' y', parts = before ++ (x' ++ pat ++ y') :: after ∧
      (∀ c ∈ x, c ∈ sep ∨ c ∈ before.flatten ++ x') ∧
      (∀ c ∈ y, c ∈ sep ∨ c ∈ y' ++ after.flatten) := by
  induction parts generalizing x with
  | nil => simp [hpat] at h
  | cons part parts ih =>
    cases parts with
    | nil =>
      rw [List.intercalate_singleton] at h
      exact ⟨[], [], x, y, by rw [h]; rfl, fun c hc => .inr hc,
        fun c hc => .inr (by simpa using hc)⟩
    | cons next parts =>
      rw [List.intercalate_cons_cons] at h
      rcases append_sep_eq hsep hpat hdisj h with ⟨z, rfl, rfl⟩ | ⟨z, rfl, hrest⟩
      · refine ⟨[], next :: parts, x, z, rfl, fun c hc => .inr hc, fun c hc => ?_⟩
        rcases List.mem_append.mp hc with hc | hc
        · rcases List.mem_append.mp hc with hc | hc
          · exact .inr (List.mem_append_left _ hc)
          · exact .inl hc
        · exact (mem_intercalate hc).imp id (List.mem_append_right _)
      · obtain ⟨before, after, x', y', hparts, hx, hy⟩ := ih hrest
        refine ⟨part :: before, after, x', y', by rw [hparts]; rfl, fun c hc => ?_, hy⟩
        rcases List.mem_append.mp hc with hc | hc
        · rcases List.mem_append.mp hc with hc | hc
          · exact .inr (by simp [hc])
          · exact .inl hc
        · refine (hx c hc).imp id fun hc => ?_
          rw [List.flatten_cons, List.append_assoc]
          exact List.mem_append_right _ hc

theorem mem_intercalate_of_mem {c : α} (h : c ∈ parts.flatten) : c ∈ sep.intercalate parts := by
  induction parts with
  | nil => exact h
  | cons part parts ih =>
    cases parts with
    | nil => simpa using h
    | cons next parts =>
      rw [List.intercalate_cons_cons]
      rcases List.mem_append.mp h with h | h
      · exact List.mem_append_left _ (List.mem_append_left _ h)
      · exact List.mem_append_right _ (ih h)

theorem exists_intercalate_of_part (sep part : List α) (before after : List (List α)) :
    ∃ u v, sep.intercalate (before ++ part :: after) = u ++ part ++ v ∧
      (∀ c ∈ before.flatten, c ∈ u) ∧ ∀ c ∈ after.flatten, c ∈ v := by
  induction before with
  | nil =>
    cases after with
    | nil => exact ⟨[], [], by simp, by simp, by simp⟩
    | cons next after =>
      refine ⟨[], sep ++ sep.intercalate (next :: after), ?_, by simp, fun c hc => ?_⟩
      · rw [List.nil_append, List.intercalate_cons_cons]
        simp
      · exact List.mem_append_right _ (mem_intercalate_of_mem hc)
  | cons first before ih =>
    obtain ⟨u, v, heq, hu, hv⟩ := ih
    refine ⟨first ++ sep ++ u, v, ?_, fun c hc => ?_, hv⟩
    · rw [List.cons_append, List.intercalate_cons_of_ne_nil (by simp), heq]
      simp
    · rcases List.mem_append.mp hc with hc | hc
      · exact List.mem_append_left _ (List.mem_append_left _ hc)
      · exact List.mem_append_right _ (hu c hc)

theorem infix_intercalate_iff (hsep : sep ≠ []) (hpat : pat ≠ []) (hdisj : ∀ c ∈ sep, c ∉ pat) :
    pat <:+: sep.intercalate parts ↔ ∃ part ∈ parts, pat <:+: part := by
  constructor
  · rintro ⟨x, y, h⟩
    obtain ⟨before, after, x', y', rfl, -, -⟩ := exists_part_of_intercalate hsep hpat hdisj h.symm
    exact ⟨_, by simp, x', y', rfl⟩
  · rintro ⟨part, hpart, hin⟩
    obtain ⟨before, after, rfl⟩ := List.append_of_mem hpart
    obtain ⟨u, v, heq, -, -⟩ := exists_intercalate_of_part sep part before after
    exact hin.trans ⟨u, v, heq.symm⟩

theorem prefix_intercalate_iff {c : α} (hc : c ∉ pat) :
    pat <+: (c :: sep).intercalate (part :: parts) ↔ pat <+: part := by
  cases parts with
  | nil => rw [List.intercalate_singleton]
  | cons next parts =>
    rw [List.intercalate_cons_cons, List.append_assoc]
    refine ⟨fun h => ?_, fun h => h.trans (List.prefix_append _ _)⟩
    rcases List.prefix_or_prefix_of_prefix h (List.prefix_append part _) with hpre | ⟨w, rfl⟩
    · exact hpre
    · rw [List.prefix_append_right_inj] at h
      cases w with
      | nil => rw [List.append_nil]
      | cons d w =>
        obtain ⟨rfl, -⟩ := List.cons_prefix_cons.mp h
        exact absurd (by simp) hc

theorem intercalate_eq_nil_iff (hsep : sep ≠ []) :
    sep.intercalate (part :: parts) = [] ↔ part = [] ∧ parts = [] := by
  cases parts with
  | nil => simp
  | cons next parts => simp [hsep]

theorem intercalate_append {more : List (List α)} (hmore : more ≠ []) (hparts : parts ≠ []) :
    sep.intercalate (parts ++ more) = sep.intercalate parts ++ sep ++ sep.intercalate more := by
  induction parts with
  | nil => exact absurd rfl hparts
  | cons part parts ih =>
    cases parts with
    | nil =>
      rw [List.singleton_append, List.intercalate_cons_of_ne_nil hmore, List.intercalate_singleton]
    | cons next parts =>
      rw [List.cons_append, List.intercalate_cons_of_ne_nil (by simp), ih (by simp),
        List.intercalate_cons_cons]
      simp only [List.append_assoc]

theorem intercalate_flatten {groups : List (List (List α))} (h : ∀ g ∈ groups, g ≠ []) :
    sep.intercalate groups.flatten = sep.intercalate (groups.map sep.intercalate) := by
  induction groups with
  | nil => rfl
  | cons group groups ih =>
    obtain ⟨hgroup, hgroups⟩ := List.forall_mem_cons.mp h
    cases groups with
    | nil => simp
    | cons next groups =>
      have hne : (next :: groups).flatten ≠ [] := fun hnil =>
        (List.forall_mem_cons.mp hgroups).1 (List.flatten_eq_nil_iff.mp hnil _ List.mem_cons_self)
      rw [List.flatten_cons, intercalate_append hne hgroup, ih hgroups, List.map_cons (l := _ :: _),
        List.intercalate_cons_of_ne_nil (by simp)]

theorem getLast?_intercalate_iff {c : α} (hsep : sep ≠ []) (hc : c ∉ sep) :
    (sep.intercalate parts).getLast? = some c ↔ ∃ p ∈ parts.getLast?, p.getLast? = some c := by
  induction parts with
  | nil => simp
  | cons part parts ih =>
    cases parts with
    | nil => simp
    | cons next parts =>
      rw [List.intercalate_cons_cons, List.getLast?_cons_cons, ← ih, List.getLast?_append]
      cases hlast : (sep.intercalate (next :: parts)).getLast? with
      | some d => rw [Option.some_or]
      | none =>
        refine iff_of_false (fun h => hc ?_) nofun
        rw [Option.none_or, List.getLast?_append_of_ne_nil _ hsep] at h
        exact List.mem_of_getLast? h

end Pattern

section Lines

variable {l line : List Char} {c : Char}

/-- A line without the carriage return at its end. -/
def stripCr (l : List Char) : List Char := if l.getLast? = some '\r' then l.dropLast else l

theorem stripCr_sublist (l : List Char) : (stripCr l).Sublist l := by
  rw [stripCr]
  split_ifs
  · exact List.dropLast_sublist l
  · exact List.Sublist.refl l

theorem stripCr_cons (h : l ≠ []) : stripCr (c :: l) = c :: stripCr l := by
  obtain ⟨d, l, rfl⟩ := List.exists_cons_of_ne_nil h
  rw [stripCr, stripCr, List.getLast?_cons_cons, List.dropLast_cons_cons]
  split_ifs <;> rfl

theorem stripCr_eq_self_iff : stripCr l = l ↔ l.getLast? ≠ some '\r' := by
  rw [stripCr]
  split_ifs with h
  · refine iff_of_false (fun he => ?_) fun hne => hne h
    have hlen := congrArg List.length he
    have hpos : 0 < l.length := List.length_pos_of_ne_nil (by rintro rfl; simp at h)
    rw [List.length_dropLast] at hlen
    omega
  · exact iff_of_true rfl h

theorem linesChars_cons (hc : c ≠ '\n') (hcr : c = '\r' → l.head? ≠ some '\n') :
    linesChars (c :: l) = match linesChars l with
      | [] => [[c]]
      | line :: lines => (c :: line) :: lines := by
  conv_lhs => unfold linesChars
  split
  · rename_i h
    cases h
  · rename_i h
    cases h
    exact absurd rfl hc
  · rename_i h
    cases h
    exact absurd rfl (hcr rfl)
  · rename_i h
    cases h
    cases linesChars l <;> rfl

theorem linesChars_append (h : '\n' ∉ l) (rest : List Char) :
    linesChars (l ++ '\n' :: rest) = stripCr l :: linesChars rest := by
  induction l with
  | nil => rw [List.nil_append, linesChars, stripCr, if_neg (by simp)]
  | cons c l ih =>
    rw [List.mem_cons, not_or] at h
    cases l with
    | nil =>
      by_cases hcr : c = '\r'
      · subst hcr
        rw [List.cons_append, List.nil_append, linesChars, stripCr, if_pos (by simp),
          List.dropLast_singleton]
      · rw [List.cons_append, linesChars_cons (Ne.symm h.1) (fun he => absurd he hcr), ih h.2,
          stripCr, stripCr, if_neg (by simp), if_neg (by simpa using hcr)]
    | cons d l =>
      have hd : (d :: l ++ '\n' :: rest).head? ≠ some '\n' := by
        simpa using fun he : d = '\n' => h.2 (he ▸ List.mem_cons_self)
      rw [List.cons_append, linesChars_cons (Ne.symm h.1) (fun _ => hd), ih h.2,
        stripCr_cons (List.cons_ne_nil d l)]

theorem linesChars_of_notMem (h : '\n' ∉ l) (hne : l ≠ []) : linesChars l = [l] := by
  induction l with
  | nil => exact absurd rfl hne
  | cons c l ih =>
    rw [List.mem_cons, not_or] at h
    have hhead : l.head? ≠ some '\n' := fun hl => h.2 (List.mem_of_head? hl)
    rw [linesChars_cons (Ne.symm h.1) fun _ => hhead]
    cases l with
    | nil => rfl
    | cons d l => rw [ih h.2 (List.cons_ne_nil d l)]

theorem linesChars_eq_nil_iff : linesChars l = [] ↔ l = [] := by
  fun_cases linesChars l <;> simp_all

theorem notMem_of_mem_linesChars (h : line ∈ linesChars l) : '\n' ∉ line := by
  fun_induction linesChars l generalizing line with
  | case1 => cases h
  | case2 l ih =>
    rcases List.mem_cons.mp h with rfl | h
    · exact List.not_mem_nil
    · exact ih h
  | case3 l ih =>
    rcases List.mem_cons.mp h with rfl | h
    · exact List.not_mem_nil
    · exact ih h
  | case4 c l hc hcr hl ih =>
    rw [List.mem_singleton.mp h, List.mem_singleton]
    exact fun he => hc he.symm
  | case5 c l hc hcr first rest hl ih =>
    rw [hl] at ih
    rcases List.mem_cons.mp h with rfl | h
    · rw [List.mem_cons, not_or]
      exact ⟨fun he => hc he.symm, ih List.mem_cons_self⟩
    · exact ih (List.mem_cons_of_mem _ h)

theorem mem_of_mem_linesChars {lines : List (List Char)} (h : ∀ l ∈ lines, '\n' ∉ l)
    (hcr : ∀ l ∈ lines.dropLast, l.getLast? ≠ some '\r')
    (hline : line ∈ linesChars (['\n'].intercalate lines)) : line ∈ lines := by
  induction lines with
  | nil => cases hline
  | cons first lines ih =>
    obtain ⟨hfirst, hlines⟩ := List.forall_mem_cons.mp h
    cases lines with
    | nil =>
      rw [List.intercalate_singleton] at hline
      by_cases hne : first = []
      · subst hne
        cases hline
      · rwa [linesChars_of_notMem hfirst hne] at hline
    | cons next lines =>
      obtain ⟨hend, hrest⟩ := List.forall_mem_cons.mp hcr
      rw [List.intercalate_cons_cons, List.append_assoc, List.singleton_append,
        linesChars_append hfirst, stripCr_eq_self_iff.mpr hend] at hline
      rcases List.mem_cons.mp hline with rfl | hline
      · exact List.mem_cons_self
      · exact List.mem_cons_of_mem _ (ih hlines hrest hline)

end Lines

end Text
