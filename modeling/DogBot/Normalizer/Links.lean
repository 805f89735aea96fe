import DogBot.Normalizer.Markdown

/-! # Which brackets are links

The rewriting of links takes the first opening bracket, the next place where a
label could end behind it, and the next closing parenthesis. Only a label
without brackets makes this a link. If there are others in between, the first
bracket is dropped although it opens no link.
-/

namespace DogBot

structure Link where
  before : List Char
  label : List Char
  url : List Char
  rest : List Char

def findLink (l : List Char) : Option Link := do
  let (before, candidate) ← Text.splitOnceChars ['['] l
  let (label, urlCandidate) ← Text.splitOnceChars [']', '('] candidate
  let (url, rest) ← Text.splitOnceChars [')'] urlCandidate
  return { before, label, url, rest }

variable {l label url rest : List Char} {link : Link}

theorem findLink_eq_some_iff : findLink l = some link ↔ ∃ candidate urlCandidate,
    Text.splitOnceChars ['['] l = some (link.before, candidate) ∧
      Text.splitOnceChars [']', '('] candidate = some (link.label, urlCandidate) ∧
      Text.splitOnceChars [')'] urlCandidate = some (link.url, link.rest) := by
  simp only [findLink, Option.bind_eq_bind, Option.bind_eq_some_iff, Option.pure_def,
    Option.some.injEq, Prod.exists]
  constructor
  · rintro ⟨before, candidate, hbefore, label, urlCandidate, hlabel, url, rest, hurl, rfl⟩
    exact ⟨candidate, urlCandidate, hbefore, hlabel, hurl⟩
  · rintro ⟨candidate, urlCandidate, hbefore, hlabel, hurl⟩
    exact ⟨_, _, hbefore, _, _, hlabel, _, _, hurl, rfl⟩

theorem eq_of_findLink (h : findLink l = some link) :
    l = link.before ++ '[' :: (link.label ++ [']', '('] ++ (link.url ++ ')' :: link.rest)) := by
  obtain ⟨candidate, urlCandidate, hbefore, hlabel, hurl⟩ := findLink_eq_some_iff.mp h
  rw [Text.eq_of_splitOnceChars hbefore, Text.eq_of_splitOnceChars hlabel,
    Text.eq_of_splitOnceChars hurl]
  simp

/-- An opening bracket, a place where a label ends, and a closing parenthesis, in this order. -/
def HasLink (l : List Char) : Prop := ∃ x y, l = x ++ [']', '('] ++ y ∧ '[' ∈ x ∧ ')' ∈ y

theorem hasLink_of_findLink (h : findLink l = some link) : HasLink l := by
  refine ⟨link.before ++ '[' :: link.label, link.url ++ ')' :: link.rest, ?_, by simp, by simp⟩
  rw [eq_of_findLink h]
  simp

/-- A place to rewrite is found if there is one. -/
theorem findLink_eq_none_iff : findLink l = none ↔ ¬ HasLink l := by
  constructor
  · rintro hnone ⟨x, y, rfl, hopen, hclose⟩
    obtain ⟨before, t, rfl, hfirst⟩ := List.eq_append_cons_of_mem hopen
    have hbefore : Text.splitOnceChars ['['] (before ++ '[' :: t ++ [']', '('] ++ y) =
        some (before, t ++ [']', '('] ++ y) := by
      simpa using @Text.splitOnceChars_append '[' before (t ++ [']', '('] ++ y) [] hfirst
    cases hlabel : Text.splitOnceChars [']', '('] (t ++ [']', '('] ++ y) with
    | none => exact (Text.splitOnceChars_eq_none_iff (by decide)).mp hlabel ⟨t, y, rfl⟩
    | some p =>
      obtain ⟨label, urlCandidate⟩ := p
      obtain ⟨w, rfl⟩ := Text.prefix_of_splitOnceChars hlabel rfl
      have htail : w ++ [']', '('] ++ y = [']', '('] ++ urlCandidate := by
        have heq := Text.eq_of_splitOnceChars hlabel
        simpa only [List.append_assoc, List.append_cancel_left_eq] using heq
      have hmem : ')' ∈ [']', '('] ++ urlCandidate := htail ▸ List.mem_append_right _ hclose
      obtain ⟨url, rest, rfl, hurl⟩ :=
        List.eq_append_cons_of_mem ((List.mem_append.mp hmem).resolve_left (by decide))
      have hclosed : Text.splitOnceChars [')'] (url ++ ')' :: rest) = some (url, rest) := by
        simpa using @Text.splitOnceChars_append ')' url rest [] hurl
      have hsome := @findLink_eq_some_iff _ ⟨before, label, url, rest⟩ |>.mpr
        ⟨_, _, hbefore, hlabel, hclosed⟩
      cases hnone.symm.trans hsome
  · intro hnot
    cases hlink : findLink l with
    | none => rfl
    | some link => exact absurd (hasLink_of_findLink hlink) hnot

theorem length_rest_lt (h : findLink l = some link) : link.rest.length < l.length := by
  have hlen := congrArg List.length (eq_of_findLink h)
  simp only [List.length_append, List.length_cons] at hlen
  omega

def links (l : List Char) : List Link :=
  match _hlink : findLink l with
  | none => []
  | some link => link :: links link.rest
termination_by l.length
decreasing_by exact length_rest_lt _hlink

theorem links_of_none (h : findLink l = none) : links l = [] := by
  unfold links
  split
  · rfl
  · rename_i hs
    cases h.symm.trans hs

theorem links_of_some (h : findLink l = some link) : links l = link :: links link.rest := by
  conv_lhs => unfold links
  split
  · rename_i hs
    cases h.symm.trans hs
  · rename_i hs
    rw [Option.some.inj (hs.symm.trans h)]

theorem replaceMarkdownLinks_of_none (h : findLink l = none) : replaceMarkdownLinks l = l := by
  have hnot : ∀ link, findLink l ≠ some link := fun link hs => by cases h.symm.trans hs
  unfold replaceMarkdownLinks
  split
  · rfl
  · rename_i before candidate hbefore
    have hkept : before ++ '[' :: candidate = l := by
      simpa using (Text.eq_of_splitOnceChars hbefore).symm
    split
    · exact hkept
    · rename_i label urlCandidate hlabel
      split
      · exact hkept
      · rename_i url rest hurl
        exact absurd (findLink_eq_some_iff.mpr ⟨candidate, urlCandidate, hbefore, hlabel, hurl⟩)
          (hnot ⟨before, label, url, rest⟩)

theorem replaceMarkdownLinks_of_some (h : findLink l = some link) :
    replaceMarkdownLinks l =
      link.before ++ link.label ++ [':', ' '] ++ link.url ++ replaceMarkdownLinks link.rest := by
  obtain ⟨candidate, urlCandidate, hbefore, hlabel, hurl⟩ := findLink_eq_some_iff.mp h
  conv_lhs => unfold replaceMarkdownLinks
  split
  · rename_i hs
    cases hbefore.symm.trans hs
  · rename_i hs
    obtain ⟨rfl, rfl⟩ := Text.found_unique hbefore hs
    split
    · rename_i hs
      cases hlabel.symm.trans hs
    · rename_i hs
      obtain ⟨rfl, rfl⟩ := Text.found_unique hlabel hs
      split
      · rename_i hs
        cases hurl.symm.trans hs
      · rename_i hs
        obtain ⟨rfl, rfl⟩ := Text.found_unique hurl hs
        rfl

/-- A property of texts follows from its step over a link. -/
@[elab_as_elim] theorem linkInduction {P : List Char → Prop}
    (none : ∀ l, findLink l = none → P l)
    (some : ∀ l link, findLink l = some link → P link.rest → P l) (l : List Char) : P l := by
  induction hn : l.length using Nat.strong_induction_on generalizing l with
  | _ n ih =>
    cases h : findLink l with
    | none => exact none l h
    | some link => exact some l link h (ih _ (hn ▸ length_rest_lt h) link.rest rfl)

section Reference

def isBracket (c : Char) : Bool := c = '[' || c = ']'

/-- The link behind an opening bracket: a label without brackets and an address in parentheses. -/
def linkAt (l : List Char) : Option (List Char × List Char × List Char) := do
  let (label, urlCandidate) ← Text.splitOnceChars [']', '('] l
  let (url, rest) ← Text.splitOnceChars [')'] urlCandidate
  if label.any isBracket then none else some (label, url, rest)

theorem linkAt_eq_some_iff : linkAt l = some (label, url, rest) ↔
    l = label ++ [']', '('] ++ (url ++ ')' :: rest) ∧ (∀ c ∈ label, isBracket c = false) ∧
      ')' ∉ url := by
  simp only [linkAt, Option.bind_eq_bind, Option.bind_eq_some_iff, Option.ite_none_left_eq_some,
    Option.some.injEq, Prod.exists, Prod.mk.injEq, List.any_eq_true, not_exists, not_and,
    Bool.not_eq_true]
  constructor
  · rintro ⟨_, urlCandidate, hlabel, _, _, hurl, hfree, rfl, rfl, rfl⟩
    refine ⟨?_, hfree, Text.not_mem_before_of_splitOnceChars hurl⟩
    rw [Text.eq_of_splitOnceChars hlabel, Text.eq_of_splitOnceChars hurl]
    simp
  · rintro ⟨rfl, hfree, hclose⟩
    have hend : ']' ∉ label := fun hm => absurd (hfree _ hm) (by decide)
    refine ⟨label, url ++ [')'] ++ rest, ?_, url, rest, Text.splitOnceChars_append hclose, hfree,
      rfl, rfl, rfl⟩
    simpa using @Text.splitOnceChars_append ']' label (url ++ [')'] ++ rest) ['('] hend

theorem length_linkAt_lt (h : linkAt l = some (label, url, rest)) : rest.length < l.length := by
  have hlen := congrArg List.length (linkAt_eq_some_iff.mp h).1
  simp only [List.length_append, List.length_cons] at hlen
  omega

/-- Each link is replaced by its label and its address, from left to right. -/
def replaceLinks : List Char → List Char
  | [] => []
  | c :: l =>
    if c = '[' then
      match _hlink : linkAt l with
      | some (label, url, rest) => label ++ [':', ' '] ++ url ++ replaceLinks rest
      | none => c :: replaceLinks l
    else c :: replaceLinks l
termination_by l => l.length
decreasing_by
  · exact (length_linkAt_lt _hlink).trans (Nat.lt_succ_self _)
  · exact Nat.lt_succ_self _
  · exact Nat.lt_succ_self _

theorem replaceLinks_cons {c : Char} (h : c ≠ '[') (l : List Char) :
    replaceLinks (c :: l) = c :: replaceLinks l := by
  rw [replaceLinks, if_neg h]

theorem replaceLinks_of_link (h : linkAt l = some (label, url, rest)) :
    replaceLinks ('[' :: l) = label ++ [':', ' '] ++ url ++ replaceLinks rest := by
  rw [replaceLinks, if_pos rfl]
  split
  · rename_i hs
    cases h.symm.trans hs
    rfl
  · rename_i hs
    cases h.symm.trans hs

theorem replaceLinks_of_no_link (h : linkAt l = none) :
    replaceLinks ('[' :: l) = '[' :: replaceLinks l := by
  rw [replaceLinks, if_pos rfl]
  split
  · rename_i hs
    cases h.symm.trans hs
  · rfl

theorem replaceLinks_append {before : List Char} (h : '[' ∉ before) (l : List Char) :
    replaceLinks (before ++ l) = before ++ replaceLinks l := by
  induction before with
  | nil => rfl
  | cons c before ih =>
    rw [List.mem_cons, not_or] at h
    rw [List.cons_append, replaceLinks_cons (Ne.symm h.1), ih h.2, List.cons_append]

theorem replaceLinks_eq_self (h : ∀ x y, l = x ++ [']', '('] ++ y → ')' ∉ y) :
    replaceLinks l = l := by
  induction l with
  | nil => rw [replaceLinks]
  | cons c l ih =>
    have hl : replaceLinks l = l := ih fun x y hxy => h (c :: x) y (congrArg (c :: ·) hxy)
    by_cases hc : c = '['
    · subst hc
      cases hlink : linkAt l with
      | none => rw [replaceLinks_of_no_link hlink, hl]
      | some found =>
        obtain ⟨label, url, rest⟩ := found
        obtain ⟨hl, -, -⟩ := linkAt_eq_some_iff.mp hlink
        exact absurd (by simp) (h ('[' :: label) _ (congrArg _ hl))
    · rw [replaceLinks_cons hc, hl]

theorem replaceLinks_of_findLink_none (h : findLink l = none) : replaceLinks l = l := by
  rw [findLink_eq_none_iff] at h
  by_cases hopen : '[' ∈ l
  · obtain ⟨before, candidate, rfl, hbefore⟩ := List.eq_append_cons_of_mem hopen
    rw [replaceLinks_append hbefore]
    refine congrArg _ (replaceLinks_eq_self fun x y hxy hclose => h ?_)
    -- A label does not end at the opening bracket itself.
    cases x with
    | nil => cases hxy
    | cons c x =>
      obtain ⟨rfl, rfl⟩ := List.cons.inj hxy
      exact ⟨before ++ '[' :: x, y, by simp, by simp, hclose⟩
  · simpa [replaceLinks] using replaceLinks_append hopen []

theorem replaceLinks_skip {x a t rest : List Char} {b : Char} (hb : isBracket b = true)
    (h : Text.splitOnceChars [']', '('] (x ++ b :: t) = some (x ++ b :: a, rest)) :
    replaceLinks (x ++ b :: t) = x ++ replaceLinks (b :: t) := by
  induction x with
  | nil => rfl
  | cons c x ih =>
    have htail : Text.splitOnceChars [']', '('] (x ++ b :: t) = some (x ++ b :: a, rest) :=
      @Text.splitOnceChars_of_append _ _ _ _ [c] h
    rw [List.cons_append, List.cons_append]
    by_cases hc : c = '['
    · subst hc
      have hnone : linkAt (x ++ b :: t) = none := by
        refine Option.eq_none_iff_forall_ne_some.mpr fun found hfound => ?_
        obtain ⟨label, url, rest'⟩ := found
        obtain ⟨hl, hfree, -⟩ := linkAt_eq_some_iff.mp hfound
        have hpre := Text.prefix_of_splitOnceChars htail hl
        rw [hfree b (hpre.subset (by simp))] at hb
        cases hb
      rw [replaceLinks_of_no_link hnone, ih htail]
    · rw [replaceLinks_cons hc, ih htail]

end Reference

/-- A label that loses nothing: its only brackets are opening ones at its start. -/
def Tight (label : List Char) : Prop :=
  ∀ c ∈ label.dropWhile (· = '['), isBracket c = false

theorem tight_of_free (h : ∀ c ∈ label, isBracket c = false) : Tight label :=
  fun c hc => h c ((List.dropWhile_suffix _).subset hc)

theorem exists_last_bracket (label : List Char) : (∀ c ∈ label, isBracket c = false) ∨
    ∃ x b a, label = x ++ b :: a ∧ isBracket b = true ∧ ∀ c ∈ a, isBracket c = false := by
  induction label with
  | nil => exact .inl (List.forall_mem_nil _)
  | cons c label ih =>
    rcases ih with hfree | ⟨x, b, a, rfl, hb, ha⟩
    · cases hc : isBracket c with
      | true => exact .inr ⟨[], c, label, rfl, hc, hfree⟩
      | false => exact .inl (List.forall_mem_cons.mpr ⟨hc, hfree⟩)
    · exact .inr ⟨c :: x, b, a, rfl, hb, ha⟩

theorem tight_open_iff {a : List Char} (ha : ∀ c ∈ a, isBracket c = false) (x : List Char) :
    Tight (x ++ '[' :: a) ↔ x ++ ['['] = '[' :: x := by
  induction x with
  | nil => exact iff_of_true (fun c hc => ha c ((List.dropWhile_suffix _).subset hc)) rfl
  | cons c x ih =>
    by_cases hc : c = '['
    · subst hc
      rw [List.cons_append, List.cons_append, List.cons.injEq, and_iff_right rfl, ← ih, Tight,
        List.dropWhile_cons_of_pos (by decide)]
      rfl
    · refine iff_of_false (fun h => ?_) fun h => hc (List.cons.inj h).1
      have hmem : '[' ∈ (c :: x ++ '[' :: a).dropWhile (· = '[') := by
        rw [List.cons_append, List.dropWhile_cons_of_neg (by simpa using hc)]
        simp
      exact absurd (h _ hmem) (by decide)

theorem not_tight_close (x a : List Char) : ¬ Tight (x ++ ']' :: a) := by
  intro h
  have hmem : ']' ∈ (x ++ ']' :: a).takeWhile (· = '[') ++ (x ++ ']' :: a).dropWhile (· = '[') := by
    rw [List.takeWhile_append_dropWhile]
    simp
  rcases List.mem_append.mp hmem with hmem | hmem
  · exact absurd (List.mem_takeWhile_imp hmem) (by decide)
  · exact absurd (h _ hmem) (by decide)

/-- A label with brackets is not rewritten in front of the last one. -/
theorem replaceLinks_last_bracket {x a candidate urlCandidate : List Char} {b : Char}
    (hb : isBracket b = true)
    (hlabel : Text.splitOnceChars [']', '('] candidate = some (x ++ b :: a, urlCandidate)) :
    replaceLinks ('[' :: candidate) =
      '[' :: x ++ replaceLinks (b :: (a ++ [']', '('] ++ urlCandidate)) := by
  have hcandidate : candidate = x ++ b :: (a ++ [']', '('] ++ urlCandidate) := by
    simpa using Text.eq_of_splitOnceChars hlabel
  have hopened : Text.splitOnceChars [']', '(']
      ('[' :: x ++ b :: (a ++ [']', '('] ++ urlCandidate)) =
      some ('[' :: x ++ b :: a, urlCandidate) := by
    have hcut := @Text.splitOnceChars_append_left ']' candidate ['['] ['('] (by decide)
    rw [hlabel, hcandidate] at hcut
    exact hcut
  rw [hcandidate, ← List.cons_append, replaceLinks_skip hb hopened]

/-- Dropping the first bracket, or the last one, makes a difference unless only equal characters are
in between. -/
theorem drop_open_eq_iff (x a url rest rest' : List Char) :
    x ++ '[' :: a ++ ([':', ' '] ++ (url ++ rest)) =
      '[' :: x ++ (a ++ [':', ' '] ++ url ++ rest') ↔ x ++ ['['] = '[' :: x ∧ rest = rest' := by
  have hleft : x ++ '[' :: a ++ ([':', ' '] ++ (url ++ rest)) =
      (x ++ ['[']) ++ (a ++ [':', ' '] ++ url ++ rest) := by simp
  rw [hleft]
  constructor
  · intro heq
    obtain ⟨hopen, hbehind⟩ := List.append_inj heq (by simp)
    exact ⟨hopen, List.append_cancel_left hbehind⟩
  · rintro ⟨hopen, rfl⟩
    rw [hopen]

theorem drop_open_ne (x a rest rest' : List Char) :
    x ++ ']' :: a ++ ([':', ' '] ++ rest) ≠ '[' :: x ++ (']' :: (a ++ [']', '(']) ++ rest') := by
  intro heq
  have hparts : (x ++ ']' :: a ++ [':'] ++ [' ']) ++ rest =
      ('[' :: x ++ ']' :: a ++ [']']) ++ ('(' :: rest') := by
    simpa using heq
  obtain ⟨hlast, -⟩ := List.append_inj hparts (by simp; omega)
  obtain ⟨-, hlast⟩ := List.append_inj' hlast rfl
  cases hlast

/-- At a place that is rewritten, the code does what it should exactly if the label is tight. -/
theorem replace_link_iff (h : findLink l = some link) :
    replaceMarkdownLinks l = replaceLinks l ↔
      Tight link.label ∧ replaceMarkdownLinks link.rest = replaceLinks link.rest := by
  obtain ⟨candidate, urlCandidate, hbefore, hlabel, hurl⟩ := findLink_eq_some_iff.mp h
  have hopen := Text.not_mem_before_of_splitOnceChars hbefore
  have hclose := Text.not_mem_before_of_splitOnceChars hurl
  have hl : l = link.before ++ '[' :: candidate := by
    simpa using Text.eq_of_splitOnceChars hbefore
  have hurlCandidate : urlCandidate = link.url ++ ')' :: link.rest := by
    simpa using Text.eq_of_splitOnceChars hurl
  rw [replaceMarkdownLinks_of_some h, hl, replaceLinks_append hopen]
  simp only [List.append_assoc, List.append_cancel_left_eq]
  rcases exists_last_bracket link.label with hfree | ⟨x, b, a, hx, hb, ha⟩
  · have hlink : linkAt candidate = some (link.label, link.url, link.rest) :=
      linkAt_eq_some_iff.mpr
        ⟨(Text.eq_of_splitOnceChars hlabel).trans (by rw [hurlCandidate]), hfree, hclose⟩
    rw [replaceLinks_of_link hlink, and_iff_right (tight_of_free hfree)]
    simp only [List.append_assoc, List.append_cancel_left_eq]
  · rw [hx] at hlabel ⊢
    rw [replaceLinks_last_bracket hb hlabel]
    have hcases : b = '[' ∨ b = ']' := by simpa [isBracket] using hb
    rcases hcases with rfl | rfl
    · have hlink : linkAt (a ++ [']', '('] ++ urlCandidate) = some (a, link.url, link.rest) :=
        linkAt_eq_some_iff.mpr ⟨by rw [hurlCandidate], ha, hclose⟩
      rw [replaceLinks_of_link hlink, tight_open_iff ha]
      exact drop_open_eq_iff x a link.url _ _
    · have hkeep := @replaceLinks_append (']' :: (a ++ [']', '('])) (fun hm => by
        have hmem : '[' ∈ a := by simpa using hm
        exact absurd (ha _ hmem) (by decide)) urlCandidate
      rw [List.cons_append] at hkeep
      rw [hkeep]
      exact iff_of_false (drop_open_ne x a _ _) fun htight => not_tight_close x a htight.1

/-- The rewriting of links touches only links exactly if all labels are tight. -/
theorem links_only_iff (line : List Char) : replaceMarkdownLinks line = replaceLinks line ↔
    ∀ link ∈ links line, Tight link.label := by
  induction line using linkInduction with
  | none l h =>
    rw [replaceMarkdownLinks_of_none h, replaceLinks_of_findLink_none h, links_of_none h]
    exact iff_of_true rfl (List.forall_mem_nil _)
  | some l link h ih =>
    rw [replace_link_iff h, ih, links_of_some h, List.forall_mem_cons]

/-- A bracket in front of a link is dropped. -/
theorem bracket_dropped : ¬ ∀ line, replaceMarkdownLinks line = replaceLinks line := by
  intro h
  have heq := h "[x] [a](b)".toList
  have hcode : replaceMarkdownLinks "[x] [a](b)".toList = "x] [a: b".toList := by decide +kernel
  have hlinks : replaceLinks "[x] [a](b)".toList = "[x] a: b".toList := by decide +kernel
  rw [hcode, hlinks] at heq
  exact absurd heq (by decide)

end DogBot
