import DogBot.Library.Joined
import DogBot.Normalizer.Marks

/-! # Markdown that is left over

The marks of a line are dropped in one pass for each kind. What is left can have
marks again, if the marks that were dropped stood between two asterisks, in
front of the mark of a heading, or inside a link. To degrade a text once more
then changes it. It also does so when a line ends in a carriage return, or when
nothing is left of the last line.
-/

namespace DogBot
open Marked

/-- An opening bracket, then "](" with only dropped characters in between, and then a closing
parenthesis stay in a text. -/
def Reopens (parts : List (List Marked)) : Prop :=
  ∃ before after x middle y, parts = before ++ (x ++ middle ++ y) :: after ∧
    left middle = [']', '('] ∧ .stays '[' ∈ before.flatten ++ x ∧ .stays ')' ∈ y ++ after.flatten

/-- No marks are dropped between two asterisks that stay, and in front of or inside a heading. -/
structure CleanLine (line : List Char) : Prop where
  bold : ∀ part ∈ parts line, ∀ piece, piece <:+: part → left piece ≠ ['*', '*']
  heading : ∀ part ∈ (parts line).head?, ∀ piece, piece <+: part →
    left piece ≠ ['#', ' '] ∧ left piece ≠ ['#', '#', ' ']

/-- All lines are clean, the brackets of no link stay, no line in front of another one has a
carriage return as the last character that stays, and something is left of the last of several
lines. -/
structure Clean (input : String) : Prop where
  lines : ∀ line ∈ Text.linesChars input.toList, CleanLine line
  link : ¬ Reopens ((Text.linesChars input.toList).flatMap parts)
  carriage : ∀ line ∈ (Text.linesChars input.toList).dropLast, ∀ part ∈ (parts line).getLast?,
    ∀ before after, part = before ++ .stays '\r' :: after → left after ≠ []
  last : 1 < (Text.linesChars input.toList).length →
    ∀ line ∈ (Text.linesChars input.toList).getLast?, ∀ part, parts line = [part] → left part ≠ []

/-- The degraded text has no marks, and to degrade it once more changes nothing. -/
structure NoResidue (input : String) : Prop where
  bold : Text.contains "**" (degradeMarkdown input) = false
  code : Text.contains "`" (degradeMarkdown input) = false
  heading : ∀ line ∈ Text.lines (degradeMarkdown input),
    Text.startsWith "# " line = false ∧ Text.startsWith "## " line = false
  link : ¬ HasLink (degradeMarkdown input).toList
  idempotent : degradeMarkdown (degradeMarkdown input) = degradeMarkdown input

variable {l line : List Char} {link : Link}

theorem dropHeading_sublist (line : List Char) : (dropHeading line).Sublist line :=
  List.drop_sublist _ _

theorem length_replaceMarkdownLinks_le (l : List Char) :
    (replaceMarkdownLinks l).length ≤ l.length := by
  induction l using linkInduction with
  | none l h => rw [replaceMarkdownLinks_of_none h]
  | some l link h ih =>
    have hlen := congrArg List.length (eq_of_findLink h)
    rw [replaceMarkdownLinks_of_some h]
    simp only [List.length_append, List.length_cons, List.length_nil] at hlen ⊢
    omega

theorem length_replaceMarkdownLinks_lt (h : findLink l = some link) :
    (replaceMarkdownLinks l).length < l.length := by
  have hlen := congrArg List.length (eq_of_findLink h)
  have hle := length_replaceMarkdownLinks_le link.rest
  rw [replaceMarkdownLinks_of_some h]
  simp only [List.length_append, List.length_cons, List.length_nil] at hlen ⊢
  omega

theorem plainText_sublist (line : List Char) : (plainText line).Sublist line :=
  List.filter_sublist.trans
    ((Text.replaceAllChars_nil_sublist _ _ _).trans (dropHeading_sublist line))

theorem length_degradeChars_le (line : List Char) : (degradeChars line).length ≤ line.length :=
  (length_replaceMarkdownLinks_le _).trans (plainText_sublist line).length_le

structure Plain (line : List Char) : Prop where
  bold : ¬ ['*', '*'] <:+: line
  code : '`' ∉ line
  heading : ¬ ['#', ' '] <+: line ∧ ¬ ['#', '#', ' '] <+: line
  link : ¬ HasLink line

theorem dropHeading_eq_self_iff :
    dropHeading line = line ↔ ¬ ['#', ' '] <+: line ∧ ¬ ['#', '#', ' '] <+: line := by
  have hshorter : ∀ {mark : List Char}, mark <+: line → 0 < mark.length →
      line.drop mark.length ≠ line := by
    intro mark hmark hpos heq
    have hlen := congrArg List.length heq
    have hle := hmark.length_le
    rw [List.length_drop] at hlen
    omega
  unfold dropHeading headingLength
  split_ifs with h₂ h₁
  · exact iff_of_false (hshorter h₂ (by decide)) fun h => h.2 h₂
  · exact iff_of_false (hshorter h₁ (by decide)) fun h => h.1 h₁
  · exact iff_of_true rfl ⟨h₁, h₂⟩

theorem plainText_eq_self_iff : plainText line = line ↔
    ¬ ['*', '*'] <:+: line ∧ '`' ∉ line ∧ ¬ ['#', ' '] <+: line ∧ ¬ ['#', '#', ' '] <+: line := by
  rw [← dropHeading_eq_self_iff]
  have hbold := Text.replaceAllChars_nil_sublist ['*', '*'] 0 (dropHeading line)
  have hhead := dropHeading_sublist line
  constructor
  · intro h
    have hcode :
        line.length ≤ (Text.replaceAllChars ['*', '*'] [] 0 (dropHeading line)).length :=
      (congrArg List.length h).symm.trans_le (List.length_filter_le _ _)
    have hdrop : dropHeading line = line :=
      hhead.eq_of_length (le_antisymm hhead.length_le (hcode.trans hbold.length_le))
    rw [hdrop] at hbold hcode
    have hkept := hbold.eq_of_length (le_antisymm hbold.length_le hcode)
    rw [plainText, hdrop, hkept] at h
    refine ⟨fun hin => ?_, fun hmem => ?_, hdrop⟩
    · have hlt := Text.length_replaceAllChars_nil_lt hin (by simp)
      rw [hkept] at hlt
      exact lt_irrefl _ hlt
    · have := List.of_mem_filter (h ▸ hmem)
      simp at this
  · rintro ⟨hin, hcode, hdrop⟩
    rw [plainText, hdrop, Text.replaceAllChars_eq_self hin, List.filter_eq_self]
    exact fun c hc => by simpa using fun he : c = '`' => hcode (he ▸ hc)

theorem degradeChars_eq_self_iff : degradeChars line = line ↔ Plain line := by
  constructor
  · intro h
    have hle := length_replaceMarkdownLinks_le (plainText line)
    have hplain : plainText line = line := by
      refine (plainText_sublist line).eq_of_length
        (le_antisymm (plainText_sublist line).length_le ?_)
      rw [degradeChars] at h
      exact (congrArg List.length h).symm.trans_le hle
    obtain ⟨hbold, hcode, hheading⟩ := plainText_eq_self_iff.mp hplain
    refine ⟨hbold, hcode, hheading, ?_⟩
    rw [← findLink_eq_none_iff]
    cases hlink : findLink line with
    | none => rfl
    | some link =>
      have hlt := length_replaceMarkdownLinks_lt hlink
      rw [degradeChars, hplain] at h
      rw [h] at hlt
      exact absurd hlt (lt_irrefl _)
  · rintro ⟨hbold, hcode, hheading, hlink⟩
    rw [degradeChars, plainText_eq_self_iff.mpr ⟨hbold, hcode, hheading⟩]
    exact replaceMarkdownLinks_of_none (findLink_eq_none_iff.mpr hlink)

/-- A link in a joined text is one in what is left of its parts. -/
theorem hasLink_intercalate_iff {sep : List Char} (hsep : sep ≠ [])
    (hdisj : ∀ c ∈ sep, c ∉ ['[', ']', '(', ')']) (tss : List (List Marked)) :
    HasLink (sep.intercalate (tss.map left)) ↔ Reopens tss := by
  have hother : ∀ c ∈ ['[', ']', '(', ')'], c ∉ sep := fun c hc hs => hdisj c hs hc
  constructor
  · rintro ⟨x, y, h, hopen, hclose⟩
    have hpat : ∀ c ∈ sep, c ∉ [']', '('] := fun c hc hmem => hdisj c hc (by
      simp only [List.mem_cons, List.not_mem_nil, or_false] at hmem ⊢
      tauto)
    obtain ⟨before, after, x', y', hparts, hx, hy⟩ :=
      Text.exists_part_of_intercalate hsep (by simp) hpat h
    obtain ⟨before, rest, rfl, rfl, hrest⟩ := List.map_eq_append_iff.mp hparts
    obtain ⟨part, after, rfl, hpart, rfl⟩ := List.map_eq_cons_iff.mp hrest
    obtain ⟨front, y', rfl, hfront, rfl⟩ := List.filterMap_eq_append_iff.mp hpart
    obtain ⟨x', middle, rfl, rfl, hmiddle⟩ := List.filterMap_eq_append_iff.mp hfront
    refine ⟨before, after, x', middle, y', rfl, hmiddle, ?_, ?_⟩
    · have hmem := (hx _ hopen).resolve_left (hother _ (by simp))
      rwa [left_flatten, ← left, ← left_append, mem_left_iff] at hmem
    · have hmem := (hy _ hclose).resolve_left (hother _ (by simp))
      rwa [left_flatten, ← left, ← left_append, mem_left_iff] at hmem
  · rintro ⟨before, after, x, middle, y, rfl, hmiddle, hopen, hclose⟩
    obtain ⟨u, v, h, hu, hv⟩ := Text.exists_intercalate_of_part sep
      (left x ++ [']', '('] ++ left y) (before.map left) (after.map left)
    rw [← mem_left_iff, left_append, ← left_flatten] at hopen hclose
    refine ⟨u ++ left x, left y ++ v, ?_, ?_, ?_⟩
    · rw [List.map_append, List.map_cons, left_append, left_append, hmiddle, h]
      simp
    · exact List.mem_append.mpr ((List.mem_append.mp hopen).imp (hu _) id)
    · exact List.mem_append.mpr ((List.mem_append.mp hclose).imp id (hv _))

theorem hasLink_degradeChars_iff : HasLink (degradeChars line) ↔ Reopens (parts line) := by
  rw [← intercalate_left_parts, hasLink_intercalate_iff (by simp) (by simp)]

theorem hasLink_lines_iff (ls : List (List Char)) :
    HasLink (['\n'].intercalate ls) ↔ HasLink ([':', ' '].intercalate ls) := by
  have hstays : (ls.map fun l => l.map Marked.stays).map left = ls := by
    have hleft : ∀ l : List Char, left (l.map Marked.stays) = l := fun l => by
      rw [left, List.filterMap_map]
      exact List.filterMap_some
    rw [List.map_map]
    exact List.map_id'' hleft ls
  rw [← hstays, hasLink_intercalate_iff (by simp) (by simp),
    hasLink_intercalate_iff (by simp) (by simp)]

theorem hasLink_degradeLines_iff (ls : List (List Char)) :
    HasLink (['\n'].intercalate (ls.map degradeChars)) ↔ Reopens (ls.flatMap parts) := by
  have hjoin : ls.map degradeChars =
      (ls.map fun line => (parts line).map left).map [':', ' '].intercalate := by
    rw [List.map_map]
    exact List.map_congr_left fun line _ => (intercalate_left_parts line).symm
  have hne : ∀ group ∈ ls.map fun line => (parts line).map left, group ≠ [] := by
    intro group hgroup
    obtain ⟨line, -, rfl⟩ := List.mem_map.mp hgroup
    obtain ⟨part, rest, hparts⟩ := exists_parts_cons line
    rw [hparts]
    exact List.cons_ne_nil _ _
  rw [hasLink_lines_iff, hjoin, ← Text.intercalate_flatten hne,
    ← @hasLink_intercalate_iff [':', ' '] (by simp) (by simp), List.map_flatMap, List.flatMap_def]

theorem reopens_flatMap {ls : List (List Char)} (hline : line ∈ ls) (h : Reopens (parts line)) :
    Reopens (ls.flatMap parts) := by
  obtain ⟨front, behind, rfl⟩ := List.append_of_mem hline
  obtain ⟨before, after, x, middle, y, hparts, hmiddle, hopen, hclose⟩ := h
  refine ⟨front.flatMap parts ++ before, after ++ behind.flatMap parts, x, middle, y, ?_, hmiddle,
    ?_, ?_⟩
  · rw [List.flatMap_append, List.flatMap_cons, hparts]
    simp
  · rw [List.flatten_append, List.append_assoc]
    exact List.mem_append_right _ hopen
  · rw [List.flatten_append, ← List.append_assoc]
    exact List.mem_append_left _ hclose

theorem mem_replaceMarkdownLinks {c : Char} (h : c ∈ replaceMarkdownLinks l) :
    c ∈ [':', ' '] ∨ c ∈ l := by
  induction l using linkInduction with
  | none l hlink =>
    rw [replaceMarkdownLinks_of_none hlink] at h
    exact .inr h
  | some l link hlink ih =>
    have hl := eq_of_findLink hlink
    rw [replaceMarkdownLinks_of_some hlink] at h
    rcases List.mem_append.mp h with h | h
    · rw [hl]
      simp only [List.mem_append, List.mem_cons] at h ⊢
      tauto
    · refine (ih h).imp id fun hmem => ?_
      rw [hl]
      simp [hmem]

theorem tick_notMem_degradeChars (line : List Char) : '`' ∉ degradeChars line := by
  intro h
  have hmem := (mem_replaceMarkdownLinks h).resolve_left (by decide)
  have := List.of_mem_filter hmem
  simp at this

/-- What a line is degraded to has no marks exactly if the line is clean, and no link stays. -/
theorem plain_degradeChars_iff :
    Plain (degradeChars line) ↔ CleanLine line ∧ ¬ Reopens (parts line) := by
  obtain ⟨part, rest, hparts⟩ := exists_parts_cons line
  have hbold : ¬ ['*', '*'] <:+: degradeChars line ↔
      ∀ part ∈ parts line, ∀ piece, piece <:+: part → left piece ≠ ['*', '*'] := by
    rw [← intercalate_left_parts, Text.infix_intercalate_iff (by simp) (by simp) (by simp)]
    constructor
    · intro h part hpart piece hpiece heq
      exact h ⟨left part, List.mem_map_of_mem hpart,
        List.infix_filterMap_iff.mpr ⟨piece, hpiece, heq.symm⟩⟩
    · rintro h ⟨l, hl, hin⟩
      obtain ⟨part, hpart, rfl⟩ := List.mem_map.mp hl
      obtain ⟨piece, hpiece, heq⟩ := List.infix_filterMap_iff.mp hin
      exact h part hpart piece hpiece heq.symm
  have hheading : ∀ {mark : List Char}, ':' ∉ mark → (¬ mark <+: degradeChars line ↔
      ∀ part ∈ (parts line).head?, ∀ piece, piece <+: part → left piece ≠ mark) := by
    intro mark hmark
    rw [← intercalate_left_parts, hparts, List.map_cons, Text.prefix_intercalate_iff hmark]
    constructor
    · intro h _ hpart piece hpiece heq
      cases hpart
      exact h (List.prefix_filterMap_iff.mpr ⟨piece, hpiece, heq.symm⟩)
    · intro h hpre
      obtain ⟨piece, hpiece, heq⟩ := List.prefix_filterMap_iff.mp hpre
      exact h part rfl piece hpiece heq.symm
  constructor
  · rintro ⟨hb, -, ⟨h₁, h₂⟩, hl⟩
    exact ⟨⟨hbold.mp hb, fun part hpart piece hpiece =>
      ⟨(hheading (by decide)).mp h₁ part hpart piece hpiece,
        (hheading (by decide)).mp h₂ part hpart piece hpiece⟩⟩,
      mt hasLink_degradeChars_iff.mpr hl⟩
  · rintro ⟨⟨hb, hh⟩, hl⟩
    exact ⟨hbold.mpr hb, tick_notMem_degradeChars line,
      ⟨(hheading (by decide)).mpr fun part hpart piece hpiece => (hh part hpart piece hpiece).1,
        (hheading (by decide)).mpr fun part hpart piece hpiece => (hh part hpart piece hpiece).2⟩,
      mt hasLink_degradeChars_iff.mp hl⟩

section Document

def degradeText (l : List Char) : List Char :=
  ['\n'].intercalate ((Text.linesChars l).map degradeChars)

variable {lines : List (List Char)}

theorem newline_notMem_degradeChars (h : '\n' ∉ line) : '\n' ∉ degradeChars line := by
  intro hmem
  have hplain := (mem_replaceMarkdownLinks hmem).resolve_left (by decide)
  exact h ((plainText_sublist line).subset hplain)

theorem degradeText_of_line (h : '\n' ∉ line) : degradeText line = degradeChars line := by
  by_cases hne : line = []
  · subst hne
    have hempty : degradeChars [] = [] := replaceMarkdownLinks_of_none rfl
    exact hempty.symm
  · rw [degradeText, Text.linesChars_of_notMem h hne, List.map_singleton,
      List.intercalate_singleton]

/-- A first line stays as it is exactly if it has no marks and no carriage return at its end. -/
theorem degradeText_append_iff {rest : List Char} (h : '\n' ∉ line) :
    degradeText (line ++ '\n' :: rest) = line ++ '\n' :: rest ↔
      degradeChars line = line ∧ line.getLast? ≠ some '\r' ∧ rest ≠ [] ∧
        degradeText rest = rest := by
  have hfirst : '\n' ∉ degradeChars (Text.stripCr line) := newline_notMem_degradeChars fun hmem =>
    h ((Text.stripCr_sublist line).subset hmem)
  rw [degradeText, Text.linesChars_append h, List.map_cons, ← Text.stripCr_eq_self_iff]
  by_cases hrest : rest = []
  · subst hrest
    refine iff_of_false (fun heq => hfirst ?_) fun hright => hright.2.2.1 rfl
    rw [Text.linesChars, List.map_nil, List.intercalate_singleton] at heq
    rw [heq]
    simp
  · have hlines : (Text.linesChars rest).map degradeChars ≠ [] := fun hnil =>
      hrest (Text.linesChars_eq_nil_iff.mp (List.map_eq_nil_iff.mp hnil))
    rw [List.intercalate_cons_of_ne_nil hlines, ← degradeText]
    constructor
    · intro heq
      have hcut := @Text.splitOnceChars_append '\n' _ (degradeText rest) [] hfirst
      rw [heq] at hcut
      obtain ⟨hline, hbehind⟩ := Text.found_unique hcut
        (by simpa using @Text.splitOnceChars_append '\n' line rest [] h)
      have hstrip : Text.stripCr line = line := by
        refine (Text.stripCr_sublist line).eq_of_length
          (le_antisymm (Text.stripCr_sublist line).length_le ?_)
        exact (congrArg List.length hline).symm.trans_le (length_degradeChars_le _)
      rw [hstrip] at hline
      exact ⟨hline, hstrip, hrest, hbehind⟩
    · rintro ⟨hline, hstrip, -, hbehind⟩
      rw [hstrip, hline, hbehind]
      simp

/-- Joined lines stay as they are exactly if each of them does, if only the last one may end in a
carriage return, and if this one is not empty behind others. -/
theorem degradeText_intercalate_iff (h : ∀ line ∈ lines, '\n' ∉ line) :
    degradeText (['\n'].intercalate lines) = ['\n'].intercalate lines ↔
      (∀ line ∈ lines, degradeChars line = line) ∧
      (∀ line ∈ lines.dropLast, line.getLast? ≠ some '\r') ∧
      (1 < lines.length → ∀ line ∈ lines.getLast?, line ≠ []) := by
  induction lines with
  | nil => exact iff_of_true rfl (by simp)
  | cons line lines ih =>
    obtain ⟨hline, hlines⟩ := List.forall_mem_cons.mp h
    cases lines with
    | nil =>
      rw [List.intercalate_singleton, degradeText_of_line hline]
      simp
    | cons next lines =>
      have hlast : ['\n'].intercalate (next :: lines) ≠ [] ∧
          (1 < (next :: lines).length → ∀ l ∈ (next :: lines).getLast?, l ≠ []) ↔
            ∀ l ∈ (next :: lines).getLast?, l ≠ [] := by
        cases lines with
        | nil => simp
        | cons third lines => simp
      have hlong : 1 < (line :: next :: lines).length := by simp
      rw [List.intercalate_cons_cons, List.append_assoc, List.singleton_append,
        degradeText_append_iff hline, ih hlines, List.forall_mem_cons (l := next :: lines),
        List.dropLast_cons_cons, List.forall_mem_cons (l := (next :: lines).dropLast),
        List.getLast?_cons_cons, imp_iff_right hlong, ← hlast]
      tauto

variable {input : String}

def degradedLines (input : String) : List (List Char) :=
  (Text.linesChars input.toList).map degradeChars

theorem newline_notMem_degradedLines : ∀ line ∈ degradedLines input, '\n' ∉ line := by
  intro line hline
  obtain ⟨source, hsource, rfl⟩ := List.mem_map.mp hline
  exact newline_notMem_degradeChars (Text.notMem_of_mem_linesChars hsource)

theorem plain_degradedLines_iff : (∀ line ∈ degradedLines input, Plain line) ↔
    ∀ line ∈ Text.linesChars input.toList, CleanLine line ∧ ¬ Reopens (parts line) := by
  rw [degradedLines, List.forall_mem_map]
  simp only [plain_degradeChars_iff]

theorem carriage_degradedLines_iff :
    (∀ line ∈ (degradedLines input).dropLast, line.getLast? ≠ some '\r') ↔
      ∀ line ∈ (Text.linesChars input.toList).dropLast, ∀ part ∈ (parts line).getLast?,
        ∀ before after, part = before ++ .stays '\r' :: after → left after ≠ [] := by
  rw [degradedLines, ← List.map_dropLast, List.forall_mem_map]
  refine forall_congr' fun line => imp_congr_right fun _ => ?_
  rw [← intercalate_left_parts, ne_eq, Text.getLast?_intercalate_iff (by simp) (by decide),
    List.getLast?_map]
  constructor
  · rintro hnone part hpart before after heq hafter
    exact hnone ⟨left part, Option.mem_map_of_mem left hpart,
      getLast?_left_iff.mpr ⟨before, after, heq, hafter⟩⟩
  · rintro h ⟨l, hl, hcr⟩
    obtain ⟨part, hpart, rfl⟩ := Option.map_eq_some_iff.mp hl
    obtain ⟨before, after, heq, hafter⟩ := getLast?_left_iff.mp hcr
    exact h part hpart before after heq hafter

theorem last_degradedLines_iff :
    (1 < (degradedLines input).length → ∀ line ∈ (degradedLines input).getLast?, line ≠ []) ↔
      (1 < (Text.linesChars input.toList).length →
        ∀ line ∈ (Text.linesChars input.toList).getLast?,
          ∀ part, parts line = [part] → left part ≠ []) := by
  have hempty : ∀ line, degradeChars line ≠ [] ↔
      ∀ part, parts line = [part] → left part ≠ [] := by
    intro line
    obtain ⟨part, rest, hparts⟩ := exists_parts_cons line
    rw [← intercalate_left_parts, hparts, List.map_cons, ne_eq,
      Text.intercalate_eq_nil_iff (by simp), List.map_eq_nil_iff, not_and']
    simp
  rw [degradedLines, List.length_map, List.getLast?_map]
  refine imp_congr_right fun _ => ?_
  cases (Text.linesChars input.toList).getLast? with
  | none => simp
  | some line => simpa using hempty line

/-- To degrade a text once more changes nothing exactly if its degraded lines have no marks, and can
be read back. -/
theorem idempotent_iff : degradeMarkdown (degradeMarkdown input) = degradeMarkdown input ↔
    (∀ line ∈ degradedLines input, Plain line) ∧
      (∀ line ∈ (degradedLines input).dropLast, line.getLast? ≠ some '\r') ∧
      (1 < (degradedLines input).length → ∀ line ∈ (degradedLines input).getLast?, line ≠ []) := by
  rw [← String.toList_inj, toList_degradeMarkdown, toList_degradeMarkdown, ← degradedLines,
    ← degradeText, degradeText_intercalate_iff newline_notMem_degradedLines]
  simp only [degradeChars_eq_self_iff]

theorem hasLink_degradeMarkdown_iff : HasLink (degradeMarkdown input).toList ↔
    Reopens ((Text.linesChars input.toList).flatMap parts) := by
  rw [toList_degradeMarkdown, hasLink_degradeLines_iff]

theorem contains_degradeMarkdown {pattern : String} (hne : pattern.toList ≠ [])
    (hnewline : '\n' ∉ pattern.toList)
    (h : ∀ line ∈ degradedLines input, ¬ pattern.toList <:+: line) :
    Text.contains pattern (degradeMarkdown input) = false := by
  have hdisj : ∀ c ∈ ['\n'], c ∉ pattern.toList := fun c hc => List.mem_singleton.mp hc ▸ hnewline
  rw [Text.contains, decide_eq_false_iff_not, toList_degradeMarkdown, ← degradedLines,
    Text.infix_intercalate_iff (by simp) hne hdisj]
  rintro ⟨line, hline, hin⟩
  exact h line hline hin

/-- The degraded text of a clean one has no marks left, and only then it stays as it is. -/
theorem no_residue_iff (input : String) : NoResidue input ↔ Clean input := by
  constructor
  · intro h
    obtain ⟨hplain, hcarriage, hlast⟩ := idempotent_iff.mp h.idempotent
    exact
      { lines := fun line hline => (plain_degradedLines_iff.mp hplain line hline).1
        link := mt hasLink_degradeMarkdown_iff.mpr h.link
        carriage := carriage_degradedLines_iff.mp hcarriage
        last := last_degradedLines_iff.mp hlast }
  · intro hclean
    have hplain : ∀ line ∈ degradedLines input, Plain line :=
      plain_degradedLines_iff.mpr fun line hline =>
        ⟨hclean.lines line hline, fun h => hclean.link (reopens_flatMap hline h)⟩
    have hcarriage := carriage_degradedLines_iff.mpr hclean.carriage
    have hidem := idempotent_iff.mpr
      ⟨hplain, hcarriage, last_degradedLines_iff.mpr hclean.last⟩
    -- The lines of the degraded text are degraded lines.
    have hlines : ∀ line ∈ Text.lines (degradeMarkdown input),
        line.toList ∈ degradedLines input := by
      intro line hline
      obtain ⟨l, hl, rfl⟩ := List.mem_map.mp hline
      rw [toList_degradeMarkdown, ← degradedLines] at hl
      rw [String.toList_ofList]
      exact Text.mem_of_mem_linesChars newline_notMem_degradedLines hcarriage hl
    refine ⟨?_, ?_, fun line hline => ?_, mt hasLink_degradeMarkdown_iff.mp hclean.link, hidem⟩
    · exact contains_degradeMarkdown (by decide) (by decide) fun line hline =>
        (hplain line hline).bold
    · refine contains_degradeMarkdown (by decide) (by decide) fun line hline hin => ?_
      exact (hplain line hline).code (hin.subset (by decide))
    · obtain ⟨h₁, h₂⟩ := (hplain _ (hlines line hline)).heading
      rw [← Bool.not_eq_true, ← Bool.not_eq_true, Text.startsWith_iff, Text.startsWith_iff]
      exact ⟨h₁, h₂⟩

/-- A backtick between two asterisks leaves the mark of bold text. -/
theorem bold_uncovered : ¬ ∀ input, NoResidue input := by
  intro h
  have hbold := (h "*`*").bold
  have hcode : degradeMarkdown "*`*" = "**" := by decide +kernel
  rw [hcode] at hbold
  exact absurd hbold (by decide +kernel)

end Document

end DogBot
