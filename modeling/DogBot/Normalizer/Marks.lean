import DogBot.Normalizer.Links

/-! # The marks of a line

Every character of a line either stays when the line is degraded or is dropped
with a mark: that of a heading, of bold text, of code, or of a link. The line is
cut behind the label of each link, where a colon is written. Nothing of the line
is lost by this, and what stays of its parts is the degraded line.
-/

namespace DogBot

/-- A character of a line that stays, or that is dropped with a mark. -/
inductive Marked
  | stays (c : Char)
  | dropped (c : Char)
  deriving DecidableEq, Repr

namespace Marked

def char : Marked → Char
  | stays c => c
  | dropped c => c

def kept : Marked → Option Char
  | stays c => some c
  | dropped _ => none

def drop (t : Marked) : Marked := .dropped t.char

def left (ts : List Marked) : List Char := ts.filterMap kept

/-- Cut behind the first characters that stay, as many as are asked for. -/
def cutStaying : ℕ → List Marked → List Marked × List Marked
  | 0, ts => ([], ts)
  | _ + 1, [] => ([], [])
  | n + 1, .stays c :: ts => (.stays c :: (cutStaying n ts).1, (cutStaying n ts).2)
  | n + 1, .dropped c :: ts => (.dropped c :: (cutStaying (n + 1) ts).1, (cutStaying (n + 1) ts).2)

variable {ts us : List Marked} {c : Char}

@[simp] theorem left_nil : left [] = [] := rfl

@[simp] theorem left_cons_stays : left (.stays c :: ts) = c :: left ts := rfl

@[simp] theorem left_cons_dropped : left (.dropped c :: ts) = left ts := rfl

@[simp] theorem left_append : left (ts ++ us) = left ts ++ left us := List.filterMap_append

@[simp] theorem left_map_drop (ts : List Marked) : left (ts.map drop) = [] := by
  rw [left, List.filterMap_map, List.filterMap_eq_nil_iff]
  exact fun _ _ => rfl

theorem left_flatten (tss : List (List Marked)) : (tss.map left).flatten = left tss.flatten := by
  rw [left, List.filterMap_flatten]
  rfl

theorem mem_left_iff : c ∈ left ts ↔ .stays c ∈ ts := by
  rw [left, List.mem_filterMap]
  constructor
  · rintro ⟨t | t, ht, hkept⟩
    · cases hkept
      exact ht
    · cases hkept
  · exact fun h => ⟨_, h, rfl⟩

theorem getLast?_left_iff : (left ts).getLast? = some c ↔
    ∃ before after, ts = before ++ .stays c :: after ∧ left after = [] := by
  rw [List.getLast?_eq_some_iff]
  constructor
  · rintro ⟨l, h⟩
    obtain ⟨before, rest, rfl, -, hrest⟩ := List.filterMap_eq_append_iff.mp h
    obtain ⟨between, t, after, rfl, -, ht, hafter⟩ := List.filterMap_eq_cons_iff.mp hrest
    cases t with
    | stays d =>
      cases ht
      exact ⟨before ++ between, after, by simp, hafter⟩
    | dropped d => cases ht
  · rintro ⟨before, after, rfl, hafter⟩
    exact ⟨left before, by simp [hafter]⟩

@[simp] theorem map_char_map_drop (ts : List Marked) : (ts.map drop).map char = ts.map char := by
  rw [List.map_map]
  rfl

theorem cutStaying_append (n : ℕ) (ts : List Marked) :
    (cutStaying n ts).1 ++ (cutStaying n ts).2 = ts := by
  fun_induction cutStaying n ts with
  | case1 => rfl
  | case2 => rfl
  | case3 n c ts ih => exact congrArg (Marked.stays c :: ·) ih
  | case4 n c ts ih => exact congrArg (Marked.dropped c :: ·) ih

@[simp] theorem left_cutStaying_fst (n : ℕ) (ts : List Marked) :
    left (cutStaying n ts).1 = (left ts).take n := by
  fun_induction cutStaying n ts with
  | case1 => rw [List.take_zero]; rfl
  | case2 => rfl
  | case3 n c ts ih => rw [left_cons_stays, ih, left_cons_stays, List.take_succ_cons]
  | case4 n c ts ih => rw [left_cons_dropped, ih, left_cons_dropped]

@[simp] theorem left_cutStaying_snd (n : ℕ) (ts : List Marked) :
    left (cutStaying n ts).2 = (left ts).drop n := by
  fun_induction cutStaying n ts with
  | case1 => rfl
  | case2 => rfl
  | case3 n c ts ih => rw [ih, left_cons_stays, List.drop_succ_cons]
  | case4 n c ts ih => rw [ih, left_cons_dropped]

end Marked

open Marked

/-- The pairs of asterisks, from the left, and the backticks are dropped. -/
def markText : List Char → List Marked
  | '*' :: '*' :: l => .dropped '*' :: .dropped '*' :: markText l
  | c :: l => (if c = '`' then .dropped c else .stays c) :: markText l
  | [] => []

/-- The length of the mark of a heading at the start of a line. -/
def headingLength (line : List Char) : ℕ :=
  if ['#', '#', ' '] <+: line then 3 else if ['#', ' '] <+: line then 2 else 0

def dropHeading (line : List Char) : List Char := line.drop (headingLength line)

/-- A line without the marks of a heading, of bold text and of code. -/
def plainText (line : List Char) : List Char :=
  (Text.replaceAllChars ['*', '*'] [] 0 (dropHeading line)).filter (· ≠ '`')

def degradeChars (line : List Char) : List Char := replaceMarkdownLinks (plainText line)

/-- A line with the marks of a heading, of bold text and of code. -/
def markPlain (line : List Char) : List Marked :=
  (line.take (headingLength line)).map .dropped ++ markText (dropHeading line)

/-- What stands at a link: the part in front of its colon, the part behind, and the rest of the
line. The brackets of the link are dropped. -/
def cutLink (link : Link) (ts : List Marked) : List Marked × List Marked × List Marked :=
  let before := cutStaying link.before.length ts
  let opening := cutStaying 1 before.2
  let label := cutStaying link.label.length opening.2
  let middle := cutStaying 2 label.2
  let url := cutStaying link.url.length middle.2
  let closing := cutStaying 1 url.2
  (before.1 ++ opening.1.map drop ++ label.1 ++ middle.1.map drop, url.1 ++ closing.1.map drop,
    closing.2)

variable {l line : List Char} {link : Link} {ts : List Marked}

theorem replaceAllChars_singleton (c : Char) (l : List Char) :
    Text.replaceAllChars [c] [] 0 l = l.filter (· ≠ c) := by
  induction l with
  | nil => rfl
  | cons d l ih =>
    by_cases h : d = c
    · subst h
      have happend := @Text.replaceAllChars_append [d] (by simp) [] l
      rw [List.singleton_append, List.nil_append] at happend
      rw [happend, ih, List.filter_cons_of_neg (by simp)]
    · rw [Text.replaceAllChars_cons (by simpa using Ne.symm h), ih,
        List.filter_cons_of_pos (by simpa using h)]

theorem toList_stripHeading (line : String) :
    ((Text.stripPrefix "## " line <|> Text.stripPrefix "# " line).getD line).toList =
      dropHeading line.toList := by
  have htwo : ("## " : String).toList = ['#', '#', ' '] := rfl
  have hone : ("# " : String).toList = ['#', ' '] := rfl
  unfold Text.stripPrefix dropHeading headingLength
  simp only [Text.startsWith_iff, htwo, hone]
  by_cases h₂ : ['#', '#', ' '] <+: line.toList
  · rw [if_pos h₂, if_pos h₂]
    exact String.toList_ofList
  · rw [if_neg h₂, if_neg h₂]
    by_cases h₁ : ['#', ' '] <+: line.toList
    · rw [if_pos h₁, if_pos h₁]
      exact String.toList_ofList
    · rw [if_neg h₁, if_neg h₁, List.drop_zero]
      rfl

theorem toList_degradeMarkdownLine (line : String) :
    (degradeMarkdownLine line).toList = degradeChars line.toList := by
  have hmarks : ∀ l : List Char,
      Text.replaceAllChars "`".toList "".toList 0 (Text.replaceAllChars "**".toList "".toList 0 l) =
        (Text.replaceAllChars ['*', '*'] [] 0 l).filter (· ≠ '`') := fun l => by
    rw [← replaceAllChars_singleton]
    rfl
  rw [degradeChars, plainText, ← toList_stripHeading, ← hmarks, degradeMarkdownLine]
  simp only [Text.replaceAll, String.toList_ofList]

theorem toList_degradeMarkdown (input : String) : (degradeMarkdown input).toList =
    ['\n'].intercalate ((Text.linesChars input.toList).map degradeChars) := by
  have hlines : ((Text.lines input).map degradeMarkdownLine).map String.toList =
      (Text.linesChars input.toList).map degradeChars := by
    rw [Text.lines, List.map_map, List.map_map]
    refine List.map_congr_left fun line _ => ?_
    rw [Function.comp_apply, Function.comp_apply, toList_degradeMarkdownLine, String.toList_ofList]
  rw [degradeMarkdown, String.toList_intercalate, hlines]
  rfl

theorem map_char_markText (l : List Char) : (markText l).map char = l := by
  fun_induction markText l with
  | case1 l ih => simp [char, ih]
  | case2 c l hbold ih =>
    split_ifs <;> simp [char, ih]
  | case3 => rfl

theorem map_char_markPlain (line : List Char) : (markPlain line).map char = line := by
  have hchar : char ∘ Marked.dropped = id := rfl
  rw [markPlain, List.map_append, List.map_map, hchar, List.map_id, map_char_markText,
    dropHeading, List.take_append_drop]

theorem left_markText (l : List Char) :
    left (markText l) = (Text.replaceAllChars ['*', '*'] [] 0 l).filter (· ≠ '`') := by
  fun_induction markText l with
  | case1 l ih =>
    have hpair := @Text.replaceAllChars_append ['*', '*'] (by simp) [] l
    rw [List.cons_append, List.singleton_append, List.nil_append] at hpair
    rw [hpair, ← ih]
    rfl
  | case2 c l hbold ih =>
    have hpre : ¬ ['*', '*'] <+: c :: l := by
      rintro ⟨t, ht⟩
      cases ht
      exact hbold t rfl rfl
    rw [Text.replaceAllChars_cons hpre]
    by_cases hc : c = '`'
    · rw [if_pos hc, left_cons_dropped, ih, List.filter_cons_of_neg (by simp [hc])]
    · rw [if_neg hc, left_cons_stays, ih, List.filter_cons_of_pos (by simp [hc])]
  | case3 => rfl

theorem left_markPlain (line : List Char) : left (markPlain line) = plainText line := by
  have hheading : left ((line.take (headingLength line)).map .dropped) = [] := by
    rw [left, List.filterMap_map, List.filterMap_eq_nil_iff]
    exact fun _ _ => rfl
  rw [markPlain, left_append, hheading, left_markText]
  rfl

theorem map_char_cutLink (link : Link) (ts : List Marked) :
    ((cutLink link ts).1 ++ (cutLink link ts).2.1 ++ (cutLink link ts).2.2).map char =
      ts.map char := by
  have hchars : ∀ (n : ℕ) (us : List Marked),
      (cutStaying n us).1.map char ++ (cutStaying n us).2.map char = us.map char := fun n us => by
    rw [← List.map_append, cutStaying_append]
  simp only [cutLink, List.map_append, map_char_map_drop, List.append_assoc, hchars]

theorem left_cutLink (h : findLink (left ts) = some link) :
    left (cutLink link ts).1 = link.before ++ link.label ∧ left (cutLink link ts).2.1 = link.url ∧
      left (cutLink link ts).2.2 = link.rest := by
  have hleft := eq_of_findLink h
  simp [cutLink, hleft]

/-- A line is cut behind the label of each link that is in what is left of it. -/
def cutLinks (start ts : List Marked) : List (List Marked) :=
  match _hlink : findLink (left ts) with
  | none => [start ++ ts]
  | some link =>
    (start ++ (cutLink link ts).1) :: cutLinks (cutLink link ts).2.1 (cutLink link ts).2.2
termination_by (left ts).length
decreasing_by
  rw [(left_cutLink _hlink).2.2]
  exact length_rest_lt _hlink

def parts (line : List Char) : List (List Marked) := cutLinks [] (markPlain line)

theorem cutLinks_of_none (h : findLink (left ts) = none) (start : List Marked) :
    cutLinks start ts = [start ++ ts] := by
  unfold cutLinks
  split
  · rfl
  · rename_i hs
    cases h.symm.trans hs

theorem cutLinks_of_some (h : findLink (left ts) = some link) (start : List Marked) :
    cutLinks start ts = (start ++ (cutLink link ts).1) ::
      cutLinks (cutLink link ts).2.1 (cutLink link ts).2.2 := by
  conv_lhs => unfold cutLinks
  split
  · rename_i hs
    cases h.symm.trans hs
  · rename_i hs
    rw [Option.some.inj (hs.symm.trans h)]

theorem cutLinks_ne_nil (start ts : List Marked) : cutLinks start ts ≠ [] := by
  cases h : findLink (left ts) with
  | none => rw [cutLinks_of_none h]; exact List.cons_ne_nil _ _
  | some link => rw [cutLinks_of_some h]; exact List.cons_ne_nil _ _

theorem map_char_cutLinks (start ts : List Marked) :
    (cutLinks start ts).flatten.map char = start.map char ++ ts.map char := by
  fun_induction cutLinks start ts with
  | case1 start ts hlink => rw [List.flatten_singleton, List.map_append]
  | case2 start ts link hlink ih =>
    rw [List.flatten_cons, List.map_append, ih, ← map_char_cutLink link ts]
    simp

theorem intercalate_left_cutLinks (start ts : List Marked) :
    [':', ' '].intercalate ((cutLinks start ts).map left) =
      left start ++ replaceMarkdownLinks (left ts) := by
  fun_induction cutLinks start ts with
  | case1 start ts hlink =>
    rw [replaceMarkdownLinks_of_none hlink, List.map_singleton, List.intercalate_singleton,
      left_append]
  | case2 start ts link hlink ih =>
    obtain ⟨hfirst, hurl, hrest⟩ := left_cutLink hlink
    have hne : (cutLinks (cutLink link ts).2.1 (cutLink link ts).2.2).map left ≠ [] :=
      fun hnil => cutLinks_ne_nil _ _ (List.map_eq_nil_iff.mp hnil)
    rw [replaceMarkdownLinks_of_some hlink, List.map_cons, List.intercalate_cons_of_ne_nil hne, ih,
      left_append, hfirst, hurl, hrest]
    simp

/-- The parts of a line are the line. -/
theorem map_char_parts (line : List Char) : (parts line).flatten.map char = line := by
  rw [parts, map_char_cutLinks, map_char_markPlain, List.map_nil, List.nil_append]

theorem intercalate_left_parts (line : List Char) :
    [':', ' '].intercalate ((parts line).map left) = degradeChars line := by
  rw [parts, intercalate_left_cutLinks, left_markPlain, left_nil, List.nil_append, degradeChars]

theorem exists_parts_cons (line : List Char) : ∃ first rest, parts line = first :: rest :=
  List.exists_cons_of_ne_nil (cutLinks_ne_nil _ _)

end DogBot
