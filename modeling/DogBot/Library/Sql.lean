import DogBot.Library.Joined

/-! # PostgreSQL tokens

The lexical structure of PostgreSQL with standard-conforming strings: words,
quoted names, strings, dollar-quoted strings, integers, operators, punctuation
and comments. What the lexer of the server rejects is an error, and so are a few
forms that are left out: prefixed strings, numbers with a fraction, parameters.
A text is read by a machine, character by character.
-/

namespace Sql

inductive Token
  | word (text : String)
  | name (text : String)
  | string (text : String)
  | dollarString (text : String)
  | number (value : ℕ)
  | operator (text : String)
  | punctuation (text : String)
  deriving DecidableEq, Repr

inductive Mode
  | start
  | word (text : List Char)
  | number (value : ℕ)
  | operator (text : List Char)
  | colon
  | dot
  | lineComment
  | blockComment (depth : ℕ) (last : Char)
  | string (text : List Char)
  /-- Behind a quote, which ends the string unless another quote follows. -/
  | quote (text : List Char)
  /-- In the white space behind a string; a quote behind a newline continues the string. -/
  | gap (text : List Char) (newline : Bool)
  | gapDash (text : List Char)
  | gapComment (text : List Char)
  | name (text : List Char)
  | nameQuote (text : List Char)
  | dollar
  | tag (text : List Char)
  | body (tag text : List Char)
  deriving DecidableEq, Repr

def isNewline (c : Char) : Bool := c = '\n' || c = '\r'

def isSpace (c : Char) : Bool :=
  c = ' ' || c = '\t' || isNewline c || c.toNat = 0x0B || c.toNat = 0x0C

def isIdentStart (c : Char) : Bool := c.isAlpha || c = '_' || 0x80 ≤ c.toNat

def isTagCont (c : Char) : Bool := isIdentStart c || c.isDigit

def isIdentCont (c : Char) : Bool := isTagCont c || c = '$'

def isSign (c : Char) : Bool := c = '+' || c = '-'

/-- With one of these an operator may end in a sign. The character 0x60 is the backtick. -/
def isSpecial (c : Char) : Bool :=
  ['~', '!', '@', '#', '^', '&', '|', '?', '%'].contains c || c.toNat = 0x60

def isOperator (c : Char) : Bool := isSpecial c || isSign c || ['*', '/', '<', '>', '='].contains c

def isPunctuation (c : Char) : Bool := [',', '(', ')', '[', ']', ';'].contains c

def byteLength : List Char → ℕ
  | [] => 0
  | c :: l => c.utf8Size + byteLength l

/-- The longest beginning of at most so many bytes. -/
def takeBytes : ℕ → List Char → List Char
  | _, [] => []
  | n, c :: l => if c.utf8Size ≤ n then c :: takeBytes (n - c.utf8Size) l else []

/-- Identifiers are cut to this number of bytes. -/
def maxBytes : ℕ := 63

def wordToken (text : List Char) : Token :=
  .word (String.ofList (takeBytes maxBytes (text.map Text.toAsciiLowercase)))

def nameToken (text : List Char) : Option Token :=
  if text = [] then none else some (.name (String.ofList (takeBytes maxBytes text)))

def punctuationToken (c : Char) : Token := .punctuation (String.singleton c)

/-- A sign at the end of an operator without special characters is an operator of its own. -/
def operatorTokens : List Char → List Token
  | [] => []
  | c :: text =>
    if (c :: text).dropLast.any isSpecial then [.operator (String.ofList (c :: text))]
    else .operator (String.ofList (c :: text.rdropWhile isSign)) ::
      (text.rtakeWhile isSign).map fun sign => .operator (String.singleton sign)

/-- The word is the prefix of a string, with the character that follows it. -/
def isStringPrefix (text : List Char) (c : Char) : Bool :=
  match text.map Text.toAsciiLowercase with
  | ['u'] => c = '&'
  | [p] => ['b', 'e', 'x', 'n'].contains p && c = '\''
  | _ => false

def startToken (c : Char) : Option (Mode × List Token) :=
  if isSpace c then some (.start, [])
  else if isIdentStart c then some (.word [c], [])
  else if c.isDigit then some (.number (c.toNat - '0'.toNat), [])
  else if c = '\'' then some (.string [], [])
  else if c = '"' then some (.name [], [])
  else if c = '$' then some (.dollar, [])
  else if c = ':' then some (.colon, [])
  else if c = '.' then some (.dot, [])
  else if isOperator c then some (.operator [c], [])
  else if isPunctuation c then some (.start, [punctuationToken c])
  else none

/-- Read a character that ends what stands in front of it. -/
def startAfter (ts : List Token) (c : Char) : Option (Mode × List Token) :=
  (startToken c).map fun r => (r.1, ts ++ r.2)

/-- Read a character that stands behind a string. -/
def continueString (text : List Char) (newline : Bool) (c : Char) : Option (Mode × List Token) :=
  if isNewline c then some (.gap text true, [])
  else if isSpace c then some (.gap text newline, [])
  else if c = '\'' && newline then some (.string text, [])
  else if c = '-' then some (.gapDash text, [])
  else startAfter [.string (String.ofList text)] c

def continueOperator (text : List Char) (c : Char) : Option (Mode × List Token) :=
  if c = '-' && text.getLast? = some '-' then some (.lineComment, operatorTokens text.dropLast)
  else if c = '*' && text.getLast? = some '/' then
    some (.blockComment 1 ' ', operatorTokens text.dropLast)
  else if isOperator c then
    if text.length < maxBytes then some (.operator (text ++ [c]), []) else none
  else startAfter (operatorTokens text) c

/-- Read a character of a dollar-quoted string, which ends with its tag. -/
def continueBody (tag text : List Char) (c : Char) : Mode × List Token :=
  let delimiter := '$' :: (tag ++ ['$'])
  let text := text ++ [c]
  if delimiter.isSuffixOf text then
    (.start, [.dollarString (String.ofList (text.take (text.length - delimiter.length)))])
  else (.body tag text, [])

/-- Read a character; it is not the null character. -/
def advance (m : Mode) (c : Char) : Option (Mode × List Token) :=
  match m with
  | .start => startToken c
  | .word text =>
    if isIdentCont c then some (.word (text ++ [c]), [])
    else if isStringPrefix text c then none
    else startAfter [wordToken text] c
  | .number value =>
    if c.isDigit then some (.number (10 * value + (c.toNat - '0'.toNat)), [])
    else if isIdentStart c || c = '.' then none
    else startAfter [.number value] c
  | .operator text => continueOperator text c
  | .colon =>
    if c = ':' then some (.start, [.punctuation "::"])
    else if c = '=' then some (.start, [.punctuation ":="])
    else startAfter [.punctuation ":"] c
  | .dot => if c.isDigit || c = '.' then none else startAfter [.punctuation "."] c
  | .lineComment => some (if isNewline c then .start else .lineComment, [])
  | .blockComment depth last =>
    if last = '*' && c = '/' then
      some (if depth ≤ 1 then .start else .blockComment (depth - 1) ' ', [])
    else if last = '/' && c = '*' then some (.blockComment (depth + 1) ' ', [])
    else some (.blockComment depth c, [])
  | .string text => some (if c = '\'' then .quote text else .string (text ++ [c]), [])
  | .quote text =>
    if c = '\'' then some (.string (text ++ [c]), []) else continueString text false c
  | .gap text newline => continueString text newline c
  | .gapDash text =>
    if c = '-' then some (.gapComment text, [])
    else (continueOperator ['-'] c).map fun r => (r.1, .string (String.ofList text) :: r.2)
  | .gapComment text => some (if isNewline c then .gap text true else .gapComment text, [])
  | .name text => some (if c = '"' then .nameQuote text else .name (text ++ [c]), [])
  | .nameQuote text =>
    if c = '"' then some (.name (text ++ [c]), [])
    else (nameToken text).bind fun token => startAfter [token] c
  | .dollar =>
    if c = '$' then some (.body [] [], [])
    else if isIdentStart c then some (.tag [c], [])
    else none
  | .tag text =>
    if c = '$' then some (.body text [], [])
    else if isTagCont c then some (.tag (text ++ [c]), [])
    else none
  | .body tag text => some (continueBody tag text c)

def step (m : Mode) (c : Char) : Option (Mode × List Token) :=
  if c.toNat = 0 then none else advance m c

/-- The tokens at the end of a text. -/
def finish : Mode → Option (List Token)
  | .start | .lineComment => some []
  | .word text => some [wordToken text]
  | .number value => some [.number value]
  | .operator text => some (operatorTokens text)
  | .colon => some [.punctuation ":"]
  | .dot => some [.punctuation "."]
  | .quote text | .gap text _ | .gapComment text => some [.string (String.ofList text)]
  | .gapDash text => some [.string (String.ofList text), .operator "-"]
  | .nameQuote text => (nameToken text).map fun token => [token]
  | .blockComment _ _ | .string _ | .name _ | .dollar | .tag _ | .body _ _ => none

/-- Read a text up to its end, which need not be the end of a token. -/
def scan : Mode → List Char → Option (Mode × List Token)
  | m, [] => some (m, [])
  | m, c :: l => (step m c).bind fun r => (scan r.1 l).map fun q => (q.1, r.2 ++ q.2)

/-- The tokens of a text, from the middle of a token on. -/
def lexFrom (m : Mode) (l : List Char) : Option (List Token) :=
  (scan m l).bind fun r => (finish r.1).map fun ts => r.2 ++ ts

def lex (s : String) : Option (List Token) := lexFrom .start s.toList

def doubled (q : Char) (l : List Char) : List Char :=
  l.flatMap fun c => if c = q then [q, q] else [c]

/-- A text between quotes, with the quotes in it doubled. -/
def quoted (q : Char) (l : List Char) : List Char := q :: (doubled q l ++ [q])

variable {m m' : Mode} {c : Char} {l p t : List Char} {s u : String} {ts us : List Token}

section Scan

theorem scan_append (m : Mode) (p l : List Char) : scan m (p ++ l) =
    (scan m p).bind fun r => (scan r.1 l).map fun q => (q.1, r.2 ++ q.2) := by
  induction p generalizing m with
  | nil => cases h : scan m l <;> simp [scan, h]
  | cons c p ih =>
    rw [List.cons_append, scan, scan]
    cases step m c with
    | none => rfl
    | some r =>
      simp only [Option.bind_some, ih]
      cases scan r.1 p with
      | none => rfl
      | some q => cases h : scan q.1 l <;> simp [h]

theorem lexFrom_cons (m : Mode) (c : Char) (l : List Char) : lexFrom m (c :: l) =
    (step m c).bind fun r => (lexFrom r.1 l).map fun us => r.2 ++ us := by
  rw [lexFrom, scan]
  cases step m c with
  | none => rfl
  | some r =>
    simp only [Option.bind_some, lexFrom]
    cases scan r.1 l with
    | none => rfl
    | some q => cases h : finish q.1 <;> simp [h]

@[simp] theorem lexFrom_nil (m : Mode) : lexFrom m [] = finish m := by
  cases h : finish m <;> simp [lexFrom, scan, h]

theorem lexFrom_append (h : scan m p = some (m', ts)) (l : List Char) :
    lexFrom m (p ++ l) = (lexFrom m' l).map fun us => ts ++ us := by
  rw [lexFrom, scan_append, h, Option.bind_some, lexFrom]
  cases scan m' l with
  | none => rfl
  | some q => cases hq : finish q.1 <;> simp [hq]

theorem scan_of_null (hc : c.toNat = 0) (h : c ∈ l) : scan m l = none := by
  induction l generalizing m with
  | nil => cases h
  | cons d l ih =>
    rw [scan]
    rcases List.mem_cons.mp h with rfl | h
    · rw [step, if_pos hc]
      rfl
    · cases step m d with
      | none => rfl
      | some r => rw [Option.bind_some, ih h, Option.map_none]

theorem lexFrom_of_null (hc : c.toNat = 0) (h : c ∈ l) : lexFrom m l = none := by
  rw [lexFrom, scan_of_null hc h]
  rfl

end Scan

section White

theorem cases_of_isSpace (h : isSpace c = true) :
    c ∈ [' ', '\t', '\n', '\r', Char.ofNat 0x0B, Char.ofNat 0x0C] := by
  have hnat : ∀ d : Char, c.toNat = d.toNat → c = d := fun d hd => Char.toNat_inj.mp hd
  simp only [isSpace, isNewline, Bool.or_eq_true, decide_eq_true_eq] at h
  rcases h with (((h | h) | (h | h)) | h) | h
  · simp [h]
  · simp [h]
  · simp [h]
  · simp [h]
  · simp [hnat (Char.ofNat 0x0B) h]
  · simp [hnat (Char.ofNat 0x0C) h]

theorem not_token_of_isSpace (h : isSpace c = true) :
    c.toNat ≠ 0 ∧ isIdentCont c = false ∧ isIdentStart c = false ∧ c.isDigit = false ∧
      c ≠ '.' ∧ c ≠ '&' ∧ c ≠ '\'' ∧ c ≠ '-' := by
  have hc := cases_of_isSpace h
  simp only [List.mem_cons, List.not_mem_nil, or_false] at hc
  rcases hc with rfl | rfl | rfl | rfl | rfl | rfl <;> decide

theorem isStringPrefix_of_ne (h₁ : c ≠ '&') (h₂ : c ≠ '\'') : isStringPrefix t c = false := by
  rw [isStringPrefix]
  split <;> simp [h₁, h₂]

def Mode.EndsAtSpace : Mode → Prop
  | .start | .word _ | .number _ => True
  | _ => False

theorem lexFrom_of_isSpace (hm : m.EndsAtSpace) (hc : isSpace c = true) (l : List Char) :
    lexFrom m (c :: l) = (finish m).bind fun ts => (lexFrom .start l).map fun us => ts ++ us := by
  obtain ⟨hnull, hcont, hstart, hdigit, hdot, hamp, hquote, -⟩ := not_token_of_isSpace hc
  have hafter : ∀ ts, startAfter ts c = some (.start, ts) := fun ts => by
    rw [startAfter, startToken, if_pos hc, Option.map_some, List.append_nil]
  rw [lexFrom_cons, step, if_neg hnull]
  cases m with
  | start => rw [advance, startToken, if_pos hc, finish, Option.bind_some, Option.bind_some]
  | word text =>
    rw [advance, hcont, isStringPrefix_of_ne hamp hquote, hafter, finish]
    rfl
  | number value =>
    simp only [advance, hdigit, hstart, hdot, decide_false, Bool.or_false, Bool.false_eq_true,
      if_false, hafter, finish, Option.bind_some]
  | _ => cases hm

theorem lexFrom_start_of_isSpace (hc : isSpace c = true) (l : List Char) :
    lexFrom .start (c :: l) = lexFrom .start l := by
  rw [lexFrom_of_isSpace (m := .start) trivial hc, finish, Option.bind_some]
  simp

/-- What follows a string does not continue it: behind white space there is neither a quote nor a
dash. -/
def EndsString (l : List Char) : Prop :=
  ∀ c ∈ (l.dropWhile isSpace).head?, c ≠ '\'' ∧ c ≠ '-'

/-- The text begins, behind white space, with a character that does not continue a string. -/
def beginsToken (p : List Char) : Bool :=
  (p.dropWhile isSpace).head?.any fun c => c ≠ '\'' ∧ c ≠ '-'

theorem beginsToken_append (h : beginsToken p = true) (l : List Char) :
    beginsToken (p ++ l) = true := by
  obtain ⟨c, hc, hne⟩ := (Option.any_eq_true _ _).mp h
  obtain ⟨rest, hrest⟩ := List.head?_eq_some_iff.mp hc
  rw [beginsToken, List.dropWhile_append, hrest]
  exact hne

theorem endsString_append (h : beginsToken p = true) (l : List Char) : EndsString (p ++ l) := by
  obtain ⟨c, hc, hne⟩ := (Option.any_eq_true _ _).mp (beginsToken_append h l)
  intro d hd
  obtain rfl := Option.some.inj (hc.symm.trans hd)
  simpa using hne

theorem lexFrom_gap (h : EndsString l) (newline : Bool) :
    lexFrom (.gap t newline) l =
      (lexFrom .start l).map fun ts => .string (String.ofList t) :: ts := by
  induction l generalizing newline with
  | nil => rfl
  | cons c l ih =>
    by_cases hspace : isSpace c = true
    · have hl : EndsString l := by rwa [EndsString, List.dropWhile_cons_of_pos hspace] at h
      obtain ⟨hnull, -⟩ := not_token_of_isSpace hspace
      rw [lexFrom_start_of_isSpace hspace, lexFrom_cons, step, if_neg hnull, advance,
        continueString]
      split_ifs
      · rw [Option.bind_some, ih hl]
        simp [Function.comp_def]
      · rw [Option.bind_some, ih hl]
        simp [Function.comp_def]
    · rw [EndsString, List.dropWhile_cons_of_neg hspace] at h
      obtain ⟨hquote, hdash⟩ := h c rfl
      have hnewline : isNewline c = false := by
        rw [Bool.eq_false_iff]
        intro hn
        simp [isSpace, hn] at hspace
      rw [lexFrom_cons, lexFrom_cons, step, step]
      split_ifs with hnull
      · rfl
      · simp only [advance, continueString, hnewline, hspace, hquote, hdash, decide_false,
          Bool.false_and, Bool.false_eq_true, if_false, startAfter]
        cases startToken c with
        | none => rfl
        | some r => simp [Function.comp_def]

theorem lexFrom_quote (h : EndsString l) : lexFrom (.quote t) l =
    (lexFrom .start l).map fun ts => .string (String.ofList t) :: ts := by
  rw [← lexFrom_gap h false]
  cases l with
  | nil => rfl
  | cons c l =>
    have hquote : c ≠ '\'' := by
      rintro rfl
      exact (h '\'' (by simp [isSpace, isNewline])).1 rfl
    rw [lexFrom_cons, lexFrom_cons]
    simp only [step, advance, if_neg hquote]

end White

section Quoted

theorem mem_doubled {q : Char} (h : c ∈ l) : c ∈ doubled q l := by
  refine List.mem_flatMap.mpr ⟨c, h, ?_⟩
  split_ifs with hq <;> simp [hq]

theorem scan_doubled {q : Char} {inside behind : List Char → Mode} (hq : q.toNat ≠ 0)
    (hinside : ∀ t c, advance (inside t) c =
      some (if c = q then behind t else inside (t ++ [c]), []))
    (hbehind : ∀ t, advance (behind t) q = some (inside (t ++ [q]), []))
    (hl : ∀ c ∈ l, c.toNat ≠ 0) :
    scan (inside t) (doubled q l) = some (inside (t ++ l), []) := by
  induction l generalizing t with
  | nil => simp [doubled, scan]
  | cons c l ih =>
    obtain ⟨hc, hrest⟩ := List.forall_mem_cons.mp hl
    have hcons : doubled q (c :: l) = (if c = q then [q, q] else [c]) ++ doubled q l :=
      List.flatMap_cons
    have hread : scan (inside t) (if c = q then [q, q] else [c]) =
        some (inside (t ++ [c]), []) := by
      split_ifs with h
      · subst h
        simp [scan, step, hc, hinside, hbehind]
      · simp [scan, step, hc, hinside, h]
    rw [hcons, scan_append, hread, Option.bind_some, ih hrest]
    simp

theorem scan_string (hl : ∀ c ∈ l, c.toNat ≠ 0) :
    scan .start ('\'' :: doubled '\'' l) = some (.string l, []) := by
  have hread := @scan_doubled l [] '\'' .string .quote (by decide)
    (fun _ _ => rfl) (fun _ => rfl) hl
  rw [List.nil_append] at hread
  rw [scan, step, if_neg (by decide), advance,
    show startToken '\'' = some (.string [], []) from rfl, Option.bind_some, hread]
  rfl

theorem scan_name (hl : ∀ c ∈ l, c.toNat ≠ 0) :
    scan .start ('"' :: doubled '"' l) = some (.name l, []) := by
  have hread := @scan_doubled l [] '"' .name .nameQuote (by decide)
    (fun _ _ => rfl) (fun _ => rfl) hl
  rw [List.nil_append] at hread
  rw [scan, step, if_neg (by decide), advance, show startToken '"' = some (.name [], []) from rfl,
    Option.bind_some, hread]
  rfl

theorem lexFrom_unterminated (l : List Char) :
    lexFrom .start ('\'' :: doubled '\'' l) = none := by
  by_cases hl : ∀ c ∈ l, c.toNat ≠ 0
  · rw [lexFrom, scan_string hl]
    rfl
  · simp only [not_forall, not_not] at hl
    obtain ⟨c, hc, hnull⟩ := hl
    exact lexFrom_of_null hnull (List.mem_cons_of_mem _ (mem_doubled hc))

theorem scan_quoted_string (hl : ∀ c ∈ l, c.toNat ≠ 0) :
    scan .start (quoted '\'' l) = some (.quote l, []) := by
  rw [quoted, ← List.cons_append, scan_append, scan_string hl]
  rfl

theorem takeBytes_eq_self_iff {n : ℕ} : takeBytes n l = l ↔ byteLength l ≤ n := by
  induction l generalizing n with
  | nil => simp [takeBytes, byteLength]
  | cons c l ih =>
    rw [takeBytes, byteLength]
    split_ifs with h
    · simp only [List.cons.injEq, true_and, ih]
      omega
    · exact iff_of_false (by simp) (by omega)

theorem nameToken_eq_some_iff : nameToken l = some (.name (String.ofList l)) ↔
    l ≠ [] ∧ byteLength l ≤ maxBytes := by
  rw [nameToken, ← takeBytes_eq_self_iff]
  split_ifs with h
  · simp [h]
  · simp [h, String.ofList_inj]

theorem infix_doubled_iff {q : Char} (hp : p ≠ []) (hq : q ∉ p) :
    p <:+: t ++ doubled q l ↔ p <:+: t ++ l := by
  induction l generalizing t with
  | nil => rfl
  | cons c l ih =>
    have hcons : doubled q (c :: l) = (if c = q then [q, q] else [c]) ++ doubled q l :=
      List.flatMap_cons
    rw [hcons, ← List.append_assoc, List.append_cons t]
    split_ifs with h
    · subst h
      have hrest := ih (t := [])
      rw [List.nil_append, List.nil_append] at hrest
      have hone : ∀ d ∈ [c], d ∉ p := by simpa using hq
      have htwo : ∀ d ∈ [c, c], d ∉ p := by simpa using hq
      rw [Text.infix_append_sep_iff (by simp) hp htwo, Text.infix_append_sep_iff (by simp) hp hone,
        hrest]
    · exact ih

theorem mem_quoted {q : Char} (h : c ∈ l) : c ∈ quoted q l :=
  List.mem_cons_of_mem _ (List.mem_append_left _ (mem_doubled h))

/-- A pattern without quotes is found in front of a quoted text, in it or behind it. -/
theorem infix_append_quoted_iff {q : Char} {x : List Char} (hp : p ≠ []) (hq : q ∉ p) :
    p <:+: x ++ quoted q t ++ l ↔ (p <:+: x ∨ p <:+: t) ∨ p <:+: l := by
  have hsep : ∀ d ∈ [q], d ∉ p := by simpa using hq
  have hsplit : x ++ quoted q t ++ l = x ++ [q] ++ doubled q t ++ [q] ++ l := by simp [quoted]
  have hin := infix_doubled_iff (t := []) (l := t) hp hq
  rw [List.nil_append, List.nil_append] at hin
  rw [hsplit, Text.infix_append_sep_iff (by simp) hp hsep,
    Text.infix_append_sep_iff (by simp) hp hsep, hin]

/-- A quoted text is read as a string. -/
theorem lexFrom_quoted_string (hp : ∀ c ∈ p, c.toNat ≠ 0) (h : EndsString l) :
    lexFrom .start (quoted '\'' p ++ l) =
      (lexFrom .start l).map fun ts => .string (String.ofList p) :: ts := by
  rw [lexFrom_append (scan_quoted_string hp), lexFrom_quote h, Option.map_map]
  rfl

theorem lexFrom_quoted_name (hp : ∀ c ∈ p, c.toNat ≠ 0) (h : l.head? ≠ some '"') :
    lexFrom .start (quoted '"' p ++ l) =
      (nameToken p).bind fun token => (lexFrom .start l).map fun ts => token :: ts := by
  have hread : scan .start (quoted '"' p) = some (.nameQuote p, []) := by
    rw [quoted, ← List.cons_append, scan_append, scan_name hp]
    rfl
  rw [lexFrom_append hread]
  cases l with
  | nil => cases hname : nameToken p <;> simp [lexFrom, scan, finish, hname]
  | cons c l =>
    have hc : c ≠ '"' := fun he => h (congrArg some he)
    rw [lexFrom_cons, lexFrom_cons, step, step]
    cases hname : nameToken p with
    | none => split_ifs <;> simp [advance, hc, hname]
    | some token =>
      split_ifs
      · rfl
      · simp only [advance, hc, if_false, hname, Option.bind_some, startAfter]
        cases startToken c with
        | none => rfl
        | some r => simp [Function.comp_def]

end Quoted

section Dollar

/-- What begins and ends a dollar-quoted string. -/
def delimiter (tag : List Char) : List Char := '$' :: (tag ++ ['$'])

/-- A dollar-quoted string goes on up to its delimiter. -/
theorem scan_body {tag : List Char} (hl : ∀ c ∈ l, c.toNat ≠ 0)
    (h : ¬ delimiter tag <:+: t ++ l) :
    scan (.body tag t) l = some (.body tag (t ++ l), []) := by
  induction l generalizing t with
  | nil => simp [scan]
  | cons c l ih =>
    obtain ⟨hc, hrest⟩ := List.forall_mem_cons.mp hl
    have hsplit : t ++ c :: l = (t ++ [c]) ++ l := by simp
    rw [hsplit] at h
    have hsuffix : (delimiter tag).isSuffixOf (t ++ [c]) = false := by
      rw [Bool.eq_false_iff, ne_eq, List.isSuffixOf_iff_suffix]
      exact fun hs => h (hs.isInfix.trans (List.prefix_append _ _).isInfix)
    have hstep : step (.body tag t) c = some (.body tag (t ++ [c]), []) := by
      rw [step, if_neg hc, advance, continueBody]
      simp only [delimiter] at hsuffix
      simp [hsuffix]
    rw [scan, hstep, Option.bind_some, ih hrest h, hsplit]
    rfl

theorem lexFrom_body {tag b : List Char} (hb : ∀ c ∈ b ++ delimiter tag, c.toNat ≠ 0)
    (h : ¬ delimiter tag <:+: b ++ '$' :: tag) (l : List Char) :
    lexFrom (.body tag []) (b ++ delimiter tag ++ l) =
      (lexFrom .start l).map fun ts => .dollarString (String.ofList b) :: ts := by
  have hsplit : b ++ delimiter tag ++ l = (b ++ '$' :: tag) ++ '$' :: l := by simp [delimiter]
  have hnull : ∀ c ∈ b ++ '$' :: tag, c.toNat ≠ 0 := fun c hc => hb c <| by
    simp only [delimiter, List.mem_append, List.mem_cons] at hc ⊢
    tauto
  have hend : step (.body tag (b ++ '$' :: tag)) '$' =
      some (.start, [.dollarString (String.ofList b)]) := by
    have hsuffix : ('$' :: (tag ++ ['$'])).isSuffixOf (b ++ '$' :: tag ++ ['$']) = true := by
      rw [List.isSuffixOf_iff_suffix]
      exact ⟨b, by simp⟩
    rw [step, if_neg (by decide), advance, continueBody, if_pos hsuffix]
    simp
  rw [hsplit, lexFrom_append (scan_body (t := []) hnull (by simpa using h)), lexFrom_cons,
    List.nil_append, hend, Option.bind_some, Option.map_map]
  rfl

end Dollar

section Number

theorem scan_digits {value : ℕ} (hl : ∀ c ∈ l, c.isDigit = true) :
    scan (.number value) l = some (.number (Nat.ofDigitChars 10 l value), []) := by
  induction l generalizing value with
  | nil => simp [scan]
  | cons c l ih =>
    obtain ⟨hc, hrest⟩ := List.forall_mem_cons.mp hl
    have hnull : c.toNat ≠ 0 := by
      intro h
      obtain rfl : c = Char.ofNat 0 := Char.toNat_inj.mp h
      exact absurd hc (by decide)
    rw [scan, step, if_neg hnull, advance, if_pos hc, Option.bind_some, ih hrest]
    rfl

/-- The digits of a number are read as the number. -/
theorem scan_repr (n : ℕ) : scan .start n.repr.toList = some (.number n, []) := by
  have hdigits : ∀ c ∈ n.repr.toList, c.isDigit = true := fun c hc => Text.isDigit_of_mem_repr hc
  have hvalue : Nat.ofDigitChars 10 n.repr.toList 0 = n := by
    rw [Nat.toList_repr]
    exact Nat.ofDigitChars_ten_toDigits
  cases hl : n.repr.toList with
  | nil =>
    rw [Nat.toList_repr] at hl
    exact absurd hl Nat.toDigits_ne_nil
  | cons c l =>
    rw [hl] at hdigits hvalue
    obtain ⟨hc, hrest⟩ := List.forall_mem_cons.mp hdigits
    have hfirst : step .start c = some (.number (c.toNat - '0'.toNat), []) := by
      have hcases : ∀ n < 10, (Nat.digitChar n).toNat = 48 + n ∧ step .start (Nat.digitChar n) =
          some (.number ((Nat.digitChar n).toNat - '0'.toNat), []) := by decide
      obtain ⟨hlow, hhigh⟩ := Char.isDigit_iff_toNat.mp hc
      obtain ⟨hcode, hstep⟩ := hcases (c.toNat - 48) (by
        have : '9'.toNat = 57 := rfl
        omega)
      have he : Nat.digitChar (c.toNat - 48) = c := by
        rw [← Char.toNat_inj, hcode]
        exact Nat.add_sub_cancel' hlow
      rwa [he] at hstep
    rw [scan, hfirst, Option.bind_some, scan_digits hrest, Option.map_some, ← hvalue]
    simp [Nat.ofDigitChars_cons]

end Number

section Parts

/-- The text is read from the beginning of a token to that of another. -/
def Reads (s : String) (ts : List Token) : Prop := scan .start s.toList = some (.start, ts)

/-- White space, behind which a string is not continued, or the end of the text. -/
def Separates (l : List Char) : Prop := (∀ c ∈ l.head?, isSpace c = true) ∧ EndsString l

/-- The text is read from the beginning of a token up to white space or to its end. -/
def ReadsBefore (s : String) (ts : List Token) : Prop :=
  ∀ l, Separates l → lexFrom .start (s.toList ++ l) = (lexFrom .start l).map fun us => ts ++ us

/-- The tokens of a text whose last token white space ends. -/
def tokensBefore (l : List Char) : Option (List Token) :=
  (scan .start l).bind fun r =>
    match r.1 with
    | .start | .word _ | .number _ => (finish r.1).map fun ts => r.2 ++ ts
    | _ => none

theorem Reads.ofList (h : scan .start l = some (.start, ts)) : Reads (String.ofList l) ts := by
  rwa [Reads, String.toList_ofList]

theorem Reads.lexFrom_append (h : Reads s ts) (l : List Char) :
    lexFrom .start (s.toList ++ l) = (lexFrom .start l).map fun us => ts ++ us :=
  Sql.lexFrom_append h l

theorem Reads.before (h : Reads s ts) (hu : ReadsBefore u us) :
    ReadsBefore (s ++ u) (ts ++ us) := by
  intro l hl
  rw [String.toList_append, List.append_assoc, h.lexFrom_append, hu l hl]
  simp [Function.comp_def]

theorem separates_append (hhead : p.head?.any isSpace = true) (hp : beginsToken p = true)
    (l : List Char) : Separates (p ++ l) := by
  obtain ⟨c, hc, hspace⟩ := (Option.any_eq_true _ _).mp hhead
  refine ⟨fun d hd => ?_, endsString_append hp l⟩
  rw [List.head?_append, hc] at hd
  exact Option.some.inj hd ▸ hspace

theorem readsBefore_of_tokensBefore (h : tokensBefore s.toList = some ts) :
    ReadsBefore s ts := by
  rintro l ⟨hspace, -⟩
  obtain ⟨⟨m, us⟩, hscan, hend⟩ := Option.bind_eq_some_iff.mp h
  have hm : m.EndsAtSpace ∧ (finish m).map (fun vs => us ++ vs) = some ts := by
    cases m <;> first | exact ⟨trivial, hend⟩ | cases hend
  obtain ⟨vs, hfinish, rfl⟩ := Option.map_eq_some_iff.mp hm.2
  rw [Sql.lexFrom_append hscan]
  cases l with
  | nil =>
    rw [lexFrom_nil, lexFrom_nil, hfinish, finish]
    simp
  | cons c l =>
    rw [lexFrom_of_isSpace hm.1 (hspace c rfl), hfinish, Option.bind_some,
      lexFrom_start_of_isSpace (hspace c rfl)]
    simp [Function.comp_def]

theorem ReadsBefore.ofList (h : tokensBefore l = some ts) : ReadsBefore (String.ofList l) ts :=
  readsBefore_of_tokensBefore (by rwa [String.toList_ofList])

theorem ReadsBefore.lex_eq (h : ReadsBefore s ts) : lex s = some ts := by
  have hread := h [] (by simp [Separates, EndsString])
  rw [List.append_nil] at hread
  rw [lex, hread, lexFrom_nil, finish]
  simp

theorem readsBefore_quoted (hs : s.toList = quoted '\'' u.toList)
    (hu : ∀ c ∈ u.toList, c.toNat ≠ 0) : ReadsBefore s [.string u] := by
  rintro l ⟨-, hl⟩
  rw [hs, lexFrom_quoted_string hu hl, String.ofList_toList]
  rfl

theorem readsBefore_quoted_append {v : String} (hs : s.toList = quoted '\'' u.toList)
    (hu : ∀ c ∈ u.toList, c.toNat ≠ 0) (hv : beginsToken v.toList = true)
    (hts : ReadsBefore v ts) : ReadsBefore (s ++ v) (.string u :: ts) := by
  intro l hl
  rw [String.toList_append, List.append_assoc, hs,
    lexFrom_quoted_string hu (endsString_append hv l), hts l hl, String.ofList_toList]
  simp [Function.comp_def]

end Parts

end Sql
