import Mathlib.Algebra.Ring.Int.Defs
import Mathlib.Data.List.DropRight
import Mathlib.Data.List.Infix
import Mathlib.Data.List.TakeWhile
import Mathlib.Data.String.Basic

/-! # Text

String operations in the sense of the Rust standard library: white space is
Unicode's, `trim` removes it at both ends, and `splitOnce` cuts at the first
occurrence of a separator.
-/

namespace Text

/-- The code points with the Unicode property `White_Space`. -/
def isWhitespace (c : Char) : Bool :=
  (9 ≤ c.toNat && c.toNat ≤ 13) || c.toNat == 0x20 || c.toNat == 0x85 || c.toNat == 0xA0 ||
    c.toNat == 0x1680 || (0x2000 ≤ c.toNat && c.toNat ≤ 0x200A) || c.toNat == 0x2028 ||
    c.toNat == 0x2029 || c.toNat == 0x202F || c.toNat == 0x205F || c.toNat == 0x3000

/-- The code points of the Unicode category `Cc`. -/
def isControl (c : Char) : Bool := c.toNat < 0x20 || (0x7F ≤ c.toNat && c.toNat ≤ 0x9F)

def isAsciiAlphanumeric (c : Char) : Bool :=
  (48 ≤ c.toNat && c.toNat ≤ 57) || (65 ≤ c.toNat && c.toNat ≤ 90) ||
    (97 ≤ c.toNat && c.toNat ≤ 122)

def toAsciiLowercase (c : Char) : Char :=
  if 65 ≤ c.toNat && c.toNat ≤ 90 then Char.ofNat (c.toNat + 32) else c

/-- Remove white space at both ends of a list of characters. -/
def trimChars (l : List Char) : List Char := (l.dropWhile isWhitespace).rdropWhile isWhitespace

def trim (s : String) : String := String.ofList (trimChars s.toList)

/-- Cut a list at the first occurrence of a separator, which is dropped. -/
def splitOnceChars (sep : List Char) : List Char → Option (List Char × List Char)
  | [] => if sep.isEmpty then some ([], []) else none
  | c :: l =>
    if sep.isPrefixOf (c :: l) then some ([], (c :: l).drop sep.length)
    else (splitOnceChars sep l).map fun (before, after) => (c :: before, after)

def splitOnce (sep s : String) : Option (String × String) :=
  (splitOnceChars sep.toList s.toList).map fun (before, after) =>
    (String.ofList before, String.ofList after)

def firstWord (s : String) : String :=
  String.ofList (s.toList.takeWhile fun c => !isWhitespace c)

/-- The part after the first white space, if there is any. -/
def afterFirstWord (s : String) : String :=
  String.ofList ((s.toList.dropWhile fun c => !isWhitespace c).drop 1)

def trimStartMatches (c : Char) (s : String) : String := String.ofList (s.toList.dropWhile (· == c))

/-- The parts between the copies of a character. -/
def split (c : Char) (s : String) : List String := (s.toList.splitOn c).map String.ofList

def digitsValue (l : List Char) : Option ℕ :=
  if l ≠ [] ∧ l.all Char.isDigit then some (l.foldl (fun n c => 10 * n + (c.toNat - 48)) 0)
  else none

/-- A decimal integer with an optional sign, if it fits 64 bits. -/
def parseI64 (s : String) : Option ℤ :=
  let n : Option ℤ := match s.toList with
    | '-' :: l => (digitsValue l).map fun n => -(n : ℤ)
    | '+' :: l => (digitsValue l).map fun n => (n : ℤ)
    | l => (digitsValue l).map fun n => (n : ℤ)
  n.filter fun n => -2 ^ 63 ≤ n ∧ n < 2 ^ 63

/-- An unsigned decimal integer of a number of bits, with an optional plus sign. -/
def parseUnsigned (bits : ℕ) (s : String) : Option ℕ :=
  let n : Option ℕ := match s.toList with
    | '+' :: l => digitsValue l
    | l => digitsValue l
  n.filter fun n => n < 2 ^ bits

def startsWith (pre s : String) : Bool := pre.toList.isPrefixOf s.toList

def endsWith (suffix s : String) : Bool := suffix.toList.isSuffixOf s.toList

def contains (pattern s : String) : Bool := pattern.toList <:+: s.toList

def lowercase (s : String) : String := String.ofList (s.toList.map toAsciiLowercase)

/-- What follows a prefix, if the text begins with it. -/
def stripPrefix (pre s : String) : Option String :=
  if startsWith pre s then some (String.ofList (s.toList.drop pre.length)) else none

/-- Replace every copy of a character by a text. -/
def replace (c : Char) (new s : String) : String :=
  String.ofList (s.toList.flatMap fun d => if d = c then new.toList else [d])

/-- Replace the copies of a pattern, which are found from left to right. The number counts the
characters that still belong to the copy found last. -/
def replaceAllChars (pattern new : List Char) : ℕ → List Char → List Char
  | _, [] => []
  | skip + 1, _ :: l => replaceAllChars pattern new skip l
  | 0, c :: l =>
    if pattern.isPrefixOf (c :: l) then new ++ replaceAllChars pattern new (pattern.length - 1) l
    else c :: replaceAllChars pattern new 0 l

/-- Replace every copy of a pattern, which is not empty. -/
def replaceAll (pattern new s : String) : String :=
  String.ofList (replaceAllChars pattern.toList new.toList 0 s.toList)

/-- The lines of a text; a line ends with a newline, which may follow a carriage return. -/
def linesChars : List Char → List (List Char)
  | [] => []
  | '\n' :: l => [] :: linesChars l
  | '\r' :: '\n' :: l => [] :: linesChars l
  | c :: l =>
    match linesChars l with
    | [] => [[c]]
    | line :: lines => (c :: line) :: lines

def lines (s : String) : List String := (linesChars s.toList).map String.ofList

variable {c : Char} {s pre : String} {l before after sep : List Char}

theorem startsWith_iff : startsWith pre s = true ↔ pre.toList <+: s.toList :=
  List.isPrefixOf_iff_prefix

theorem stripPrefix_append (pre s : String) : stripPrefix pre (pre ++ s) = some s := by
  have hp : startsWith pre (pre ++ s) = true := by simp [startsWith_iff]
  rw [stripPrefix, if_pos hp, String.toList_append, ← String.length_toList, List.drop_left,
    String.ofList_toList]

/-- The parts of a text determine it. -/
theorem split_inj {t : String} (h : split c s = split c t) : s = t := by
  have hparts : s.toList.splitOn c = t.toList.splitOn c :=
    List.map_injective_iff.mpr (fun _ _ => String.ofList_inj.mp) h
  have hjoin := congrArg ([c].intercalate ·) hparts
  simp only [List.intercalate_splitOn] at hjoin
  exact String.toList_inj.mp hjoin

theorem trimChars_trimChars (l : List Char) : trimChars (trimChars l) = trimChars l := by
  have hhead : (trimChars l).dropWhile isWhitespace = trimChars l := by
    refine List.dropWhile_eq_self_iff.mpr fun hl => ?_
    have hpre : trimChars l <+: l.dropWhile isWhitespace := List.rdropWhile_prefix ..
    rw [hpre.getElem hl]
    exact List.dropWhile_get_zero_not _ _ (hl.trans_le hpre.length_le)
  rw [trimChars, hhead]
  exact List.rdropWhile_idempotent ..

theorem trimChars_eq_self (h : ∀ c ∈ l, isWhitespace c = false) : trimChars l = l := by
  have hhead : l.dropWhile isWhitespace = l :=
    List.dropWhile_eq_self_iff.mpr fun hl => by simp [h _ (List.getElem_mem hl)]
  rw [trimChars, hhead]
  exact List.rdropWhile_eq_self_iff.mpr fun hl => by simp [h _ (List.getLast_mem hl)]

@[simp] theorem trim_trim (s : String) : trim (trim s) = trim s := by
  simp only [trim, String.toList_ofList, trimChars_trimChars]

theorem trim_eq_self (h : ∀ c ∈ s.toList, isWhitespace c = false) : trim s = s := by
  rw [trim, trimChars_eq_self h, String.ofList_toList]

theorem trimChars_eq_self_iff : trimChars l = l ↔
    l.dropWhile isWhitespace = l ∧ l.rdropWhile isWhitespace = l := by
  constructor
  · intro h
    have hpre : trimChars l <+: l.dropWhile isWhitespace := List.rdropWhile_prefix ..
    rw [h] at hpre
    have hhead : l.dropWhile isWhitespace = l :=
      (List.dropWhile_suffix _).eq_of_length_le hpre.length_le
    rw [trimChars, hhead] at h
    exact ⟨hhead, h⟩
  · rintro ⟨hhead, hlast⟩
    rw [trimChars, hhead, hlast]

theorem trimChars_append_whitespace {w : List Char} (hw : ∀ c ∈ w, isWhitespace c = true)
    (l : List Char) : trimChars (l ++ w) = trimChars l := by
  induction w generalizing l with
  | nil => rw [List.append_nil]
  | cons c w ih =>
    obtain ⟨hc, hw⟩ := List.forall_mem_cons.mp hw
    rw [← List.singleton_append, ← List.append_assoc, ih hw, trimChars, trimChars,
      List.dropWhile_append]
    cases hl : l.dropWhile isWhitespace with
    | nil => simp [hc]
    | cons b l => exact List.rdropWhile_concat_pos _ _ _ hc

theorem trim_append {t : String} (hpre : ∃ d ∈ pre.toList.head?, isWhitespace d = false)
    (ht : t ≠ "") (h : trim t = t) : trim (pre ++ t) = pre ++ t := by
  have hchars : trimChars t.toList = t.toList := by
    have hl := congrArg String.toList h
    rwa [trim, String.toList_ofList] at hl
  obtain ⟨-, hlast⟩ := trimChars_eq_self_iff.mp hchars
  have hboth : trimChars (pre ++ t).toList = (pre ++ t).toList := by
    rw [trimChars_eq_self_iff, String.toList_append]
    constructor
    · obtain ⟨d, hd, hw⟩ := hpre
      obtain ⟨rest, hrest⟩ := List.head?_eq_some_iff.mp hd
      rw [hrest, List.cons_append, List.dropWhile_cons_of_neg (by simp [hw])]
    · rw [List.rdropWhile_eq_self_iff] at hlast ⊢
      intro hl
      have htl : t.toList ≠ [] := by simpa using ht
      rw [List.getLast_append_of_ne_nil _ htl]
      exact hlast htl
  rw [trim, hboth, String.ofList_toList]

section Blank

def Blank (l : List Char) : Prop := l.all isWhitespace = true

instance (l : List Char) : Decidable (Blank l) := inferInstanceAs (Decidable (_ = true))

def visibleChars (l : List Char) : List Char := l.filter fun c => !isWhitespace c

/-- The number of characters that are not white space. -/
def visible (l : List Char) : ℕ := (visibleChars l).length

variable {m : List Char} {d : Char}

theorem blank_iff : Blank l ↔ ∀ c ∈ l, isWhitespace c = true := List.all_eq_true

theorem dropWhile_of_blank (h : Blank l) (m : List Char) :
    (l ++ m).dropWhile isWhitespace = m.dropWhile isWhitespace :=
  List.dropWhile_append_of_pos (blank_iff.mp h)

theorem dropWhile_of_not_blank (h : ¬ Blank l) (m : List Char) :
    (l ++ m).dropWhile isWhitespace = l.dropWhile isWhitespace ++ m := by
  rw [List.dropWhile_append, if_neg]
  simpa [blank_iff, List.dropWhile_eq_nil_iff] using h

theorem dropWhile_eq_nil_iff : l.dropWhile isWhitespace = [] ↔ Blank l := by
  rw [List.dropWhile_eq_nil_iff, blank_iff]

@[simp] theorem visibleChars_append (l m : List Char) :
    visibleChars (l ++ m) = visibleChars l ++ visibleChars m :=
  List.filter_append ..

@[simp] theorem visible_append (l m : List Char) : visible (l ++ m) = visible l + visible m := by
  rw [visible, visibleChars_append, List.length_append]
  rfl

theorem visibleChars_dropWhile (l : List Char) :
    visibleChars (l.dropWhile isWhitespace) = visibleChars l := by
  induction l with
  | nil => rfl
  | cons c l ih =>
    cases hc : isWhitespace c with
    | false => rw [List.dropWhile_cons_of_neg (by simp [hc])]
    | true =>
      rw [List.dropWhile_cons_of_pos hc, ih, visibleChars, visibleChars,
        List.filter_cons_of_neg (by simp [hc])]

theorem visibleChars_reverse (l : List Char) :
    visibleChars l.reverse = (visibleChars l).reverse :=
  List.filter_reverse

theorem visibleChars_trimChars (l : List Char) : visibleChars (trimChars l) = visibleChars l := by
  rw [trimChars, List.rdropWhile, visibleChars_reverse, visibleChars_dropWhile,
    visibleChars_reverse, List.reverse_reverse, visibleChars_dropWhile]

theorem trim_eq_empty_iff : trim s = "" ↔ visibleChars s.toList = [] := by
  rw [trim, ← String.toList_inj, String.toList_ofList, String.toList_empty]
  constructor
  · intro h
    rw [← visibleChars_trimChars, h]
    rfl
  · intro h
    have hblank : ∀ c ∈ s.toList, isWhitespace c = true := fun c hc => by
      simpa using List.filter_eq_nil_iff.mp h c hc
    exact trimChars_append_whitespace hblank []

theorem visible_trimChars (l : List Char) : visible (trimChars l) = visible l :=
  congrArg List.length (visibleChars_trimChars l)

theorem trimChars_append_cons (hd : isWhitespace d = false) (l m : List Char) :
    trimChars (l ++ d :: m) = l.dropWhile isWhitespace ++ (d :: m).rdropWhile isWhitespace := by
  have hfront : (l ++ d :: m).dropWhile isWhitespace = l.dropWhile isWhitespace ++ d :: m := by
    by_cases hl : Blank l
    · rw [dropWhile_of_blank hl, dropWhile_eq_nil_iff.mpr hl, List.nil_append,
        List.dropWhile_cons_of_neg (by simp [hd])]
    · exact dropWhile_of_not_blank hl _
  have hback : ¬ Blank (d :: m).reverse := fun h => by
    have := blank_iff.mp h d (by simp)
    rw [hd] at this
    cases this
  rw [trimChars, hfront, List.rdropWhile, List.rdropWhile, List.reverse_append,
    dropWhile_of_not_blank hback, List.reverse_append, List.reverse_reverse]

/-- A text that stands twice in front of a visible character is trimmed to the same text exactly if
nothing is repeated or all of it is white space. -/
theorem trimChars_repeated_iff (hd : isWhitespace d = false) :
    trimChars (l ++ before ++ before ++ d :: m) = trimChars (l ++ before ++ d :: m) ↔
      before = [] ∨ Blank (l ++ before) := by
  rw [trimChars_append_cons hd, trimChars_append_cons hd, List.append_left_inj]
  by_cases hblank : Blank (l ++ before)
  · refine iff_of_true ?_ (.inr hblank)
    rw [dropWhile_of_blank hblank, dropWhile_eq_nil_iff.mpr hblank, dropWhile_eq_nil_iff]
    rw [blank_iff] at hblank ⊢
    exact fun c hc => hblank c (List.mem_append_right l hc)
  · rw [dropWhile_of_not_blank hblank, or_iff_left hblank, List.append_right_eq_self]

end Blank

theorem found_unique {α β : Type*} {found : Option (α × β)} {a a' : α} {b b' : β}
    (h : found = some (a, b)) (h' : found = some (a', b')) : a = a' ∧ b = b' := by
  rw [h, Option.some.injEq, Prod.mk.injEq] at h'
  exact h'

theorem eq_of_splitOnceChars (h : splitOnceChars sep l = some (before, after)) :
    l = before ++ sep ++ after := by
  induction l generalizing before with
  | nil =>
    unfold splitOnceChars at h
    split_ifs at h with he
    cases h
    simpa using he
  | cons c l ih =>
    unfold splitOnceChars at h
    split_ifs at h with hp
    · cases h
      exact (List.prefix_iff_eq_append.mp (List.isPrefixOf_iff_prefix.mp hp)).symm
    · obtain ⟨⟨b, a⟩, hs, he⟩ := Option.map_eq_some_iff.mp h
      cases he
      exact congrArg (c :: ·) (ih hs)

theorem splitOnceChars_append (h : c ∉ before) :
    splitOnceChars (c :: sep) (before ++ (c :: sep) ++ after) = some (before, after) := by
  induction before with
  | nil =>
    have hp : (c :: sep).isPrefixOf (c :: (sep ++ after)) = true :=
      List.isPrefixOf_iff_prefix.mpr ⟨after, rfl⟩
    simp only [List.nil_append, List.cons_append, splitOnceChars, hp, if_true]
    simp
  | cons b before ih =>
    have hb : c ≠ b := fun he => h (he ▸ List.mem_cons_self ..)
    have hp : ¬ (c :: sep).isPrefixOf (b :: (before ++ (c :: sep) ++ after)) = true := fun hp =>
      hb (List.cons_prefix_cons.mp (List.isPrefixOf_iff_prefix.mp hp)).1
    rw [List.cons_append, List.cons_append, splitOnceChars, if_neg hp,
      ih fun hm => h (List.mem_cons_of_mem _ hm)]
    rfl

theorem splitOnceChars_append_left (h : c ∉ before) :
    splitOnceChars (c :: sep) (before ++ l) =
      (splitOnceChars (c :: sep) l).map fun p => (before ++ p.1, p.2) := by
  induction before with
  | nil => simp
  | cons b before ih =>
    have hb : c ≠ b := fun he => h (he ▸ List.mem_cons_self ..)
    have hp : ¬ (c :: sep).isPrefixOf (b :: (before ++ l)) = true := fun hp =>
      hb (List.cons_prefix_cons.mp (List.isPrefixOf_iff_prefix.mp hp)).1
    rw [List.cons_append, splitOnceChars, if_neg hp, ih fun hm => h (List.mem_cons_of_mem _ hm),
      Option.map_map]
    rfl

theorem splitOnce_append {sep s t : String} (hsep : sep.toList.head? = some c)
    (h : c ∉ s.toList) : splitOnce sep (s ++ sep ++ t) = some (s, t) := by
  obtain ⟨l, hl⟩ := List.head?_eq_some_iff.mp hsep
  rw [splitOnce, String.toList_append, String.toList_append, hl, splitOnceChars_append h]
  simp

theorem length_after_lt (hs : sep ≠ []) (h : splitOnceChars sep l = some (before, after)) :
    after.length < l.length := by
  have hl := eq_of_splitOnceChars h
  have hpos := List.length_pos_of_ne_nil hs
  subst hl
  simp only [List.length_append]
  omega

/-- Pieces that are never shorter give the same text only if they are the same. -/
theorem flatMap_eq_flatMap_iff {α : Type} {f g : α → List Char} {l : List α}
    (h : ∀ a ∈ l, (g a).length ≤ (f a).length) :
    l.flatMap f = l.flatMap g ↔ ∀ a ∈ l, f a = g a := by
  have hle : ∀ l : List α, (∀ a ∈ l, (g a).length ≤ (f a).length) →
      (l.flatMap g).length ≤ (l.flatMap f).length := by
    intro l hl
    induction l with
    | nil => simp
    | cons a l ih =>
      obtain ⟨ha, hl⟩ := List.forall_mem_cons.mp hl
      simp only [List.flatMap_cons, List.length_append]
      have := ih hl
      omega
  constructor
  · intro heq
    induction l with
    | nil => simp
    | cons a l ih =>
      obtain ⟨ha, hl⟩ := List.forall_mem_cons.mp h
      have hlen := congrArg List.length heq
      simp only [List.flatMap_cons, List.length_append] at hlen
      have htail := hle l hl
      obtain ⟨hhead, heq'⟩ := List.append_inj heq (by omega)
      exact List.forall_mem_cons.mpr ⟨hhead, ih hl heq'⟩
  · exact fun heq => List.flatMap_congr heq

theorem toList_intercalate_empty (l : List String) :
    ("".intercalate l).toList = l.flatMap String.toList := by
  rw [String.toList_intercalate]
  induction l with
  | nil => rfl
  | cons s l ih =>
    cases l with
    | nil => simp
    | cons s' l =>
      rw [List.map_cons, List.map_cons, List.intercalate_cons_cons, List.flatMap_cons, ← ih]
      simp

theorem append_cons_prefix_iff {x y r s : List Char} {a d : Char} (hx : a ∉ x) (hx' : d ∉ x)
    (hy : a ∉ y) : x ++ a :: r <+: y ++ d :: s ↔ x = y ∧ a = d ∧ r <+: s := by
  induction x generalizing y with
  | nil =>
    cases y with
    | nil => simp
    | cons b y =>
      have hb : a ≠ b := fun he => hy (he ▸ List.mem_cons_self ..)
      simp [hb]
  | cons b x ih =>
    cases y with
    | nil =>
      have hb : b ≠ d := fun he => hx' (he ▸ List.mem_cons_self ..)
      simp [hb]
    | cons b' y =>
      simp only [List.mem_cons, not_or] at hx hx' hy
      rw [List.cons_append, List.cons_append, List.cons_prefix_cons, ih hx.2 hx'.2 hy.2,
        List.cons.injEq, and_assoc]

section Search

theorem splitOnceChars_prefix (hs : sep ≠ []) (l : List Char) :
    splitOnceChars sep (sep ++ l) = some ([], l) := by
  obtain ⟨d, sep, rfl⟩ := List.exists_cons_of_ne_nil hs
  have hp : (d :: sep).isPrefixOf (d :: (sep ++ l)) = true :=
    List.isPrefixOf_iff_prefix.mpr ⟨l, rfl⟩
  rw [List.cons_append, splitOnceChars, if_pos hp]
  simp

theorem splitOnceChars_eq_none_iff (hs : sep ≠ []) :
    splitOnceChars sep l = none ↔ ¬ sep <:+: l := by
  induction l with
  | nil => simp [splitOnceChars, hs]
  | cons d l ih =>
    rw [splitOnceChars, List.infix_cons_iff, not_or, ← ih]
    split_ifs with hp
    · simp [List.isPrefixOf_iff_prefix.mp hp]
    · simp [mt List.isPrefixOf_iff_prefix.mpr hp]

/-- No copy of a separator reaches past a character that it does not have. -/
theorem splitOnceChars_append_cons (hs : ¬ sep <:+: before) (hc : c ∉ sep) :
    splitOnceChars sep (before ++ c :: l) =
      (splitOnceChars sep l).map fun p => (before ++ c :: p.1, p.2) := by
  induction before with
  | nil =>
    have hp : ¬ sep.isPrefixOf (c :: l) = true := by
      intro hp
      cases sep with
      | nil => exact hs List.infix_rfl
      | cons d sep =>
        obtain ⟨rfl, -⟩ := List.cons_prefix_cons.mp (List.isPrefixOf_iff_prefix.mp hp)
        exact hc (List.mem_cons_self ..)
    rw [List.nil_append, splitOnceChars, if_neg hp]
    rfl
  | cons b before ih =>
    have hp : ¬ sep.isPrefixOf (b :: (before ++ c :: l)) = true := by
      intro hp
      have hpre : b :: before ++ [c] <+: b :: (before ++ c :: l) := ⟨l, by simp⟩
      obtain h | h := List.prefix_or_prefix_of_prefix (List.isPrefixOf_iff_prefix.mp hp) hpre
      · obtain rfl | h := List.prefix_concat_iff.mp h
        · exact hc (by simp)
        · exact hs h.isInfix
      · exact hc (h.subset (by simp))
    have hs' : ¬ sep <:+: before := fun h => hs (h.trans (List.suffix_cons ..).isInfix)
    rw [List.cons_append, splitOnceChars, if_neg hp, ih hs', Option.map_map]
    rfl

theorem splitOnceChars_of_append {part : List Char}
    (h : splitOnceChars sep (part ++ l) = some (part ++ before, after)) :
    splitOnceChars sep l = some (before, after) := by
  induction part with
  | nil => exact h
  | cons c part ih =>
    rw [List.cons_append, List.cons_append, splitOnceChars] at h
    split_ifs at h with hp
    · cases h
    · obtain ⟨⟨b, a⟩, hs, he⟩ := Option.map_eq_some_iff.mp h
      obtain ⟨hb, rfl⟩ := Prod.mk.inj he
      rw [List.cons.injEq] at hb
      exact ih (by rw [hs, hb.2])

theorem suffix_of_splitOnceChars (h : splitOnceChars sep l = some (before, after)) :
    after <:+ l :=
  ⟨before ++ sep, (eq_of_splitOnceChars h).symm⟩

theorem not_prefix_of_splitOnceChars (h : splitOnceChars sep l = some (before, after))
    {y : List Char} (hy : y <:+ l) (hlen : sep.length + after.length < y.length) :
    ¬ sep <+: y := by
  induction l generalizing before with
  | nil =>
    rw [List.suffix_nil.mp hy] at hlen
    cases hlen
  | cons d l ih =>
    have hle := hy.length_le
    have heq := congrArg List.length (eq_of_splitOnceChars h)
    simp only [List.length_append] at heq
    unfold splitOnceChars at h
    split_ifs at h with hp
    · cases h
      rw [List.length_nil] at heq
      omega
    · obtain ⟨⟨b, a⟩, hs, he⟩ := Option.map_eq_some_iff.mp h
      obtain ⟨-, rfl⟩ := Prod.mk.inj he
      rcases List.suffix_cons_iff.mp hy with rfl | hy'
      · exact fun hpre => hp (List.isPrefixOf_iff_prefix.mpr hpre)
      · exact ih hs hy'

theorem prefix_of_splitOnceChars (h : splitOnceChars sep l = some (before, after))
    {x y : List Char} (hl : l = x ++ sep ++ y) : before <+: x := by
  have hfirst := eq_of_splitOnceChars h
  have hx : x <+: l := ⟨sep ++ y, by rw [hl, List.append_assoc]⟩
  have hbefore : before <+: l := ⟨sep ++ after, by rw [hfirst, List.append_assoc]⟩
  refine List.prefix_of_prefix_length_le hbefore hx ?_
  by_contra hlt
  have hsuffix : sep ++ y <:+ l := ⟨x, by rw [hl, List.append_assoc]⟩
  refine not_prefix_of_splitOnceChars h hsuffix ?_ (List.prefix_append sep y)
  have hlen := congrArg List.length (hfirst.symm.trans hl)
  simp only [List.length_append] at hlen ⊢
  omega

/-- What comes behind an occurrence does not matter. -/
theorem splitOnceChars_append_right (h : splitOnceChars sep l = some (before, after))
    (m : List Char) : splitOnceChars sep (l ++ m) = some (before, after ++ m) := by
  induction l generalizing before with
  | nil =>
    unfold splitOnceChars at h
    split_ifs at h with hs
    cases h
    rw [List.isEmpty_iff.mp hs]
    cases m <;> rfl
  | cons c l ih =>
    have hlen := congrArg List.length (eq_of_splitOnceChars h)
    simp only [List.length_append, List.length_cons] at hlen
    unfold splitOnceChars at h
    rw [List.cons_append, splitOnceChars]
    split_ifs at h with hp
    · cases h
      have hp' : sep.isPrefixOf (c :: (l ++ m)) = true :=
        List.isPrefixOf_iff_prefix.mpr ((List.isPrefixOf_iff_prefix.mp hp).trans ⟨m, rfl⟩)
      rw [if_pos hp', ← List.cons_append, List.drop_append_of_le_length]
      exact (List.isPrefixOf_iff_prefix.mp hp).length_le
    · obtain ⟨⟨b, a⟩, hs, he⟩ := Option.map_eq_some_iff.mp h
      cases he
      have hp' : ¬ sep.isPrefixOf (c :: (l ++ m)) = true := by
        intro hp'
        refine hp (List.isPrefixOf_iff_prefix.mpr ?_)
        refine List.prefix_of_prefix_length_le (List.isPrefixOf_iff_prefix.mp hp') ⟨m, rfl⟩ ?_
        rw [List.length_cons]
        omega
      rw [if_neg hp', ih hs]
      rfl

theorem prefix_of_prefix_append_cons {y : List Char} (hy : y ≠ []) (hc : c ∉ sep.tail)
    (h : sep <+: y ++ c :: l) : sep <+: y := by
  have hpre : y ++ [c] <+: y ++ c :: l := ⟨l, by simp⟩
  rcases List.prefix_or_prefix_of_prefix h hpre with h | h
  · rcases List.prefix_concat_iff.mp h with rfl | h
    · obtain ⟨d, y, rfl⟩ := List.exists_cons_of_ne_nil hy
      exact absurd (by simp) hc
    · exact h
  · obtain ⟨d, y, rfl⟩ := List.exists_cons_of_ne_nil hy
    obtain ⟨z, rfl⟩ := h
    exact absurd (by simp) hc

theorem not_mem_before_of_splitOnceChars (h : splitOnceChars [c] l = some (before, after)) :
    c ∉ before := by
  induction l generalizing before with
  | nil => cases h
  | cons d l ih =>
    unfold splitOnceChars at h
    split_ifs at h with hp
    · cases h
      exact List.not_mem_nil
    · obtain ⟨⟨b, a⟩, hs, he⟩ := Option.map_eq_some_iff.mp h
      cases he
      have hd : c ≠ d := by
        rintro rfl
        exact hp (by simp)
      rw [List.mem_cons, not_or]
      exact ⟨hd, ih hs⟩

theorem not_mem_of_splitOnceChars_eq_none (h : splitOnceChars [c] l = none) : c ∉ l := by
  rw [splitOnceChars_eq_none_iff (by simp)] at h
  rintro hc
  obtain ⟨x, y, rfl⟩ := List.append_of_mem hc
  exact h ⟨x, y, by simp⟩

theorem replaceAllChars_skip (pattern new : List Char) (n : ℕ) :
    replaceAllChars pattern new n l = replaceAllChars pattern new 0 (l.drop n) := by
  induction l generalizing n with
  | nil => cases n <;> rfl
  | cons c l ih =>
    cases n with
    | zero => rfl
    | succ n => rw [replaceAllChars, ih, List.drop_succ_cons]

theorem replaceAllChars_append {pattern : List Char} (hp : pattern ≠ []) (new l : List Char) :
    replaceAllChars pattern new 0 (pattern ++ l) = new ++ replaceAllChars pattern new 0 l := by
  obtain ⟨d, pattern, rfl⟩ := List.exists_cons_of_ne_nil hp
  have hpre : (d :: pattern).isPrefixOf (d :: (pattern ++ l)) = true :=
    List.isPrefixOf_iff_prefix.mpr ⟨l, rfl⟩
  rw [List.cons_append, replaceAllChars, if_pos hpre, replaceAllChars_skip]
  simp

theorem replaceAllChars_cons {pattern new : List Char} (hp : ¬ pattern <+: c :: l) :
    replaceAllChars pattern new 0 (c :: l) = c :: replaceAllChars pattern new 0 l := by
  rw [replaceAllChars, if_neg (mt List.isPrefixOf_iff_prefix.mp hp)]

theorem replaceAllChars_eq_self {pattern : List Char} (h : ¬ pattern <:+: l) (new : List Char) :
    replaceAllChars pattern new 0 l = l := by
  induction l with
  | nil => rfl
  | cons c l ih =>
    rw [List.infix_cons_iff, not_or] at h
    rw [replaceAllChars_cons h.1, ih h.2]

theorem replaceAllChars_nil_sublist (pattern : List Char) (n : ℕ) (l : List Char) :
    (replaceAllChars pattern [] n l).Sublist l := by
  induction l generalizing n with
  | nil => cases n <;> exact List.Sublist.refl []
  | cons c l ih =>
    cases n with
    | succ n => exact (ih n).cons c
    | zero =>
      rw [replaceAllChars]
      split_ifs
      · exact (ih _).cons c
      · exact (ih 0).cons_cons c

theorem length_replaceAllChars_nil_lt {pattern : List Char} (h : pattern <:+: l)
    (hp : pattern ≠ []) : (replaceAllChars pattern [] 0 l).length < l.length := by
  induction l with
  | nil => exact absurd (List.infix_nil.mp h) hp
  | cons c l ih =>
    by_cases hpre : pattern <+: c :: l
    · rw [replaceAllChars, if_pos (List.isPrefixOf_iff_prefix.mpr hpre), List.nil_append,
        List.length_cons]
      exact Nat.lt_succ_of_le (replaceAllChars_nil_sublist _ _ l).length_le
    · rw [replaceAllChars_cons hpre, List.length_cons, List.length_cons]
      exact Nat.succ_lt_succ (ih ((List.infix_cons_iff.mp h).resolve_left hpre))

end Search

section Numbers

theorem isDigit_of_mem_repr {n : ℕ} (h : c ∈ n.repr.toList) : c.isDigit = true := by
  rw [Nat.toList_repr] at h
  exact Nat.isDigit_of_mem_toDigits (by decide) (by decide) h

theorem digitsValue_repr (n : ℕ) : digitsValue n.repr.toList = some n := by
  have hdigits : ∀ d ∈ Nat.toDigits 10 n, d.isDigit = true := fun d hd =>
    Nat.isDigit_of_mem_toDigits (by decide) (by decide) hd
  rw [Nat.toList_repr, digitsValue, if_pos ⟨Nat.toDigits_ne_nil, List.all_eq_true.mpr hdigits⟩]
  exact congrArg some Nat.ofDigitChars_ten_toDigits

theorem toString_natCast (n : ℕ) : toString (n : ℤ) = n.repr := rfl

theorem toString_negSucc (n : ℕ) : toString (Int.negSucc n) = "-" ++ (n + 1).repr := rfl

/-- An integer is read back from its text, if it fits 64 bits. -/
theorem parseI64_toString (n : ℤ) :
    parseI64 (toString n) = (some n).filter fun n => -2 ^ 63 ≤ n ∧ n < 2 ^ 63 := by
  cases n with
  | ofNat n =>
    have hvalue := digitsValue_repr n
    have hhead : ∀ d l, n.repr.toList = d :: l → d ≠ '-' ∧ d ≠ '+' := by
      intro d l hl
      have hd : d ∈ Nat.toDigits 10 n := by simp [← Nat.toList_repr, hl]
      have hdigit : d.isDigit = true := Nat.isDigit_of_mem_toDigits (by decide) (by decide) hd
      constructor <;> rintro rfl <;> exact absurd hdigit (by decide)
    rw [parseI64, Int.ofNat_eq_natCast, toString_natCast]
    split
    · exact absurd rfl (hhead _ _ ‹_›).1
    · exact absurd rfl (hhead _ _ ‹_›).2
    · rw [hvalue]
      rfl
  | negSucc n =>
    have hlist : (toString (Int.negSucc n)).toList = '-' :: (n + 1).repr.toList := by
      rw [toString_negSucc]
      simp
    rw [parseI64, hlist]
    simp only [digitsValue_repr]
    rfl

theorem isDigit_of_mem_toString {n : ℤ} (h : c ∈ (toString n).toList) :
    c = '-' ∨ c.isDigit = true := by
  cases n with
  | ofNat n => exact .inr (isDigit_of_mem_repr h)
  | negSucc n =>
    rw [toString_negSucc, String.toList_append, List.mem_append] at h
    obtain h | h := h
    · exact .inl (by simpa using h)
    · exact .inr (isDigit_of_mem_repr h)

theorem toString_all_isDigit (n : ℤ) : (toString n).toList.all Char.isDigit = true ↔ 0 ≤ n := by
  cases n with
  | ofNat n =>
    rw [Int.ofNat_eq_natCast, toString_natCast, Nat.toList_repr, List.all_eq_true]
    have hdigits : ∀ d ∈ Nat.toDigits 10 n, d.isDigit = true := fun d hd =>
      Nat.isDigit_of_mem_toDigits (by decide) (by decide) hd
    exact iff_of_true hdigits (by omega)
  | negSucc n =>
    rw [toString_negSucc]
    apply iff_of_false
    · simp
    · omega

theorem toString_ne_empty (n : ℤ) : toString n ≠ "" := by
  cases n with
  | ofNat n =>
    rw [Int.ofNat_eq_natCast, toString_natCast, ne_eq, ← String.toList_inj, Nat.toList_repr]
    exact Nat.toDigits_ne_nil
  | negSucc n =>
    rw [toString_negSucc, ne_eq, ← String.toList_inj]
    simp

end Numbers

section Newlines

/-- The text with the line ends `"\n"` for `"\r\n"`. -/
def unixChars (l : List Char) : List Char := replaceAllChars ['\r', '\n'] ['\n'] 0 l

theorem unixChars_crlf (l : List Char) : unixChars ('\r' :: '\n' :: l) = '\n' :: unixChars l :=
  replaceAllChars_append (by simp) ['\n'] l

theorem unixChars_cons (h : ¬ ['\r', '\n'] <+: c :: l) : unixChars (c :: l) = c :: unixChars l :=
  replaceAllChars_cons h

/-- A property of texts follows from its steps over a line end and over another character. -/
@[elab_as_elim] theorem crlfInduction {P : List Char → Prop} (nil : P [])
    (crlf : ∀ l, P l → P ('\r' :: '\n' :: l))
    (cons : ∀ c l, ¬ ['\r', '\n'] <+: c :: l → P l → P (c :: l)) (l : List Char) : P l := by
  induction h : l.length using Nat.strong_induction_on generalizing l with
  | _ n ih =>
    subst h
    cases l with
    | nil => exact nil
    | cons c l =>
      by_cases hp : ['\r', '\n'] <+: c :: l
      · obtain ⟨t, rfl, rfl⟩ : ∃ t, c = '\r' ∧ l = '\n' :: t := by
          obtain ⟨t, ht⟩ := hp
          cases ht
          exact ⟨t, rfl, rfl⟩
        have hlen : t.length < ('\r' :: '\n' :: t).length := by simp only [List.length_cons]; omega
        exact crlf t (ih _ hlen t rfl)
      · exact cons c l hp (ih _ (by simp) l rfl)

theorem unixChars_eq_self (h : '\r' ∉ l) : unixChars l = l := by
  induction l with
  | nil => rfl
  | cons c l ih =>
    rw [List.mem_cons, not_or] at h
    have hp : ¬ ['\r', '\n'] <+: c :: l := fun hp => h.1 (List.cons_prefix_cons.mp hp).1
    rw [unixChars_cons hp, ih h.2]

/-- What stands before a newline is converted on its own, up to a carriage return at its end. -/
theorem unixChars_append_newline (l : List Char) : ∃ y,
    (unixChars l = y ∨ unixChars l = y ++ ['\r']) ∧
      ∀ r, unixChars (l ++ '\n' :: r) = y ++ '\n' :: unixChars r := by
  induction l using crlfInduction with
  | nil => exact ⟨[], .inl rfl, fun r => unixChars_cons (by simp)⟩
  | crlf l ih =>
    obtain ⟨y, hy, hr⟩ := ih
    refine ⟨'\n' :: y, ?_, fun r => ?_⟩
    · simpa [unixChars_crlf] using hy
    · rw [List.cons_append, List.cons_append, unixChars_crlf, hr]
      rfl
  | cons c l hp ih =>
    obtain ⟨y, hy, hr⟩ := ih
    by_cases hl : c = '\r' ∧ l = []
    · obtain ⟨rfl, rfl⟩ := hl
      exact ⟨[], .inr rfl, fun r => unixChars_crlf r⟩
    · have hp' : ∀ r, ¬ ['\r', '\n'] <+: c :: (l ++ '\n' :: r) := by
        intro r h
        obtain ⟨hc, h⟩ := List.cons_prefix_cons.mp h
        cases l with
        | nil => exact hl ⟨hc.symm, rfl⟩
        | cons d l =>
          obtain ⟨hd, -⟩ := List.cons_prefix_cons.mp h
          exact hp ⟨l, by rw [hc, hd]; rfl⟩
      refine ⟨c :: y, ?_, fun r => ?_⟩
      · simpa [unixChars_cons hp] using hy
      · rw [List.cons_append, unixChars_cons (hp' r), hr]
        rfl

/-- A part without a newline that stands in the converted text stood in the text. -/
theorem infix_of_infix_unixChars {m : List Char} (hm : '\n' ∉ m) (h : m <:+: unixChars l) :
    m <:+: l := by
  have hpre : ∀ (m l : List Char), '\n' ∉ m → m <+: unixChars l → m <+: l := by
    intro m l hm h
    induction l using crlfInduction generalizing m with
    | nil => exact h
    | crlf l ih =>
      cases m with
      | nil => exact List.nil_prefix
      | cons a m =>
        rw [unixChars_crlf] at h
        obtain ⟨rfl, -⟩ := List.cons_prefix_cons.mp h
        simp at hm
    | cons c l hp ih =>
      cases m with
      | nil => exact List.nil_prefix
      | cons a m =>
        rw [unixChars_cons hp] at h
        obtain ⟨rfl, hpre⟩ := List.cons_prefix_cons.mp h
        have hm' : '\n' ∉ m := fun ha => hm (List.mem_cons_of_mem _ ha)
        exact List.cons_prefix_cons.mpr ⟨rfl, ih m hm' hpre⟩
  induction l using crlfInduction with
  | nil => exact h
  | crlf l ih =>
    rw [unixChars_crlf, List.infix_cons_iff] at h
    obtain h | h := h
    · exact (hpre m _ hm (by rwa [unixChars_crlf])).isInfix
    · exact (ih h).trans ⟨['\r', '\n'], [], by simp⟩
  | cons c l hp ih =>
    rw [unixChars_cons hp, List.infix_cons_iff] at h
    obtain h | h := h
    · exact (hpre m _ hm (by rwa [unixChars_cons hp])).isInfix
    · exact (ih h).trans (List.suffix_cons ..).isInfix

end Newlines

end Text
