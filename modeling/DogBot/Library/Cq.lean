import DogBot.Library.Text

/-! # CQ text

A message in CQ text consists of codes `[CQ:name,key=value,...]` and of the text
between them. The characters that delimit codes and parameters are written as
entities. Tokenising an encoded message gives the message back, up to adjacent
texts, which become one.
-/

namespace Cq

inductive Token
  | text (content : List Char)
  | code (name : List Char) (params : List (List Char × List Char))
  deriving DecidableEq, Repr

def entities : List (List Char) :=
  ["&amp;".toList, "&#91;".toList, "&#93;".toList, "&#44;".toList]

/-- Commas are escaped in the values of parameters only. -/
def escapeChar (param : Bool) (c : Char) : List Char :=
  if c = '&' then "&amp;".toList
  else if c = '[' then "&#91;".toList
  else if c = ']' then "&#93;".toList
  else if c = ',' ∧ param then "&#44;".toList
  else [c]

def escape (param : Bool) (l : List Char) : List Char := l.flatMap (escapeChar param)

def unescape (param : Bool) : List Char → List Char
  | '&' :: 'a' :: 'm' :: 'p' :: ';' :: l => '&' :: unescape param l
  | '&' :: '#' :: '9' :: '1' :: ';' :: l => '[' :: unescape param l
  | '&' :: '#' :: '9' :: '3' :: ';' :: l => ']' :: unescape param l
  | '&' :: '#' :: '4' :: '4' :: ';' :: l =>
    if param then ',' :: unescape param l else '&' :: '#' :: '4' :: '4' :: ';' :: unescape param l
  | c :: l => c :: unescape param l
  | [] => []

def encodeParam (p : List Char × List Char) : List Char := p.1 ++ '=' :: escape true p.2

def body (name : List Char) (params : List (List Char × List Char)) : List Char :=
  [','].intercalate (name :: params.map encodeParam)

def bracket (body : List Char) : List Char := "[CQ:".toList ++ body ++ [']']

def Token.encode : Token → List Char
  | .text content => escape false content
  | .code name params => bracket (body name params)

def encode (ts : List Token) : List Char := ts.flatMap Token.encode

/-- A code or a stretch of text, as it is written. -/
inductive Piece
  | text (raw : List Char)
  | code (body : List Char)
  deriving DecidableEq, Repr

def consText (c : Char) : List Piece → List Piece
  | .text raw :: ps => .text (c :: raw) :: ps
  | ps => .text [c] :: ps

/-- Cut a message into pieces. A code begins with `[CQ:` and ends with the next closing bracket;
the first argument is the part of its body that was read, last character first. -/
def cut : Option (List Char) → List Char → List Piece
  | none, '[' :: 'C' :: 'Q' :: ':' :: l =>
    if ']' ∈ l then cut (some []) l else consText '[' (cut none ('C' :: 'Q' :: ':' :: l))
  | none, c :: l => consText c (cut none l)
  | none, [] => []
  | some read, ']' :: l => .code read.reverse :: cut none l
  | some read, c :: l => cut (some (c :: read)) l
  | some _, [] => []

/-- A parameter is cut at its first equals sign. -/
def parseParam (p : List Char) : List Char × List Char :=
  match Text.splitOnceChars ['='] p with
  | some (key, value) => (key, unescape true value)
  | none => (p, [])

def Piece.parse : Piece → Token
  | .text raw => .text (unescape false raw)
  | .code body =>
    match body.splitOn ',' with
    | [] => .code [] []
    | name :: params => .code name (params.map parseParam)

/-- Read a message: codes are recognised, and the entities in the text between them are
replaced. -/
def tokens (l : List Char) : List Token := (cut none l).map Piece.parse

def prepend : Token → List Token → List Token
  | .text [], ts => ts
  | .text content, .text content' :: ts => .text (content ++ content') :: ts
  | t, ts => t :: ts

def merge (ts : List Token) : List Token := ts.foldr prepend []

/-- A name without the characters that delimit codes and parameters. -/
def Plain (l : List Char) : Prop := ∀ c ∈ l, c ≠ '[' ∧ c ≠ ']' ∧ c ≠ ',' ∧ c ≠ '='

instance (l : List Char) : Decidable (Plain l) := List.decidableBAll _ l

def Token.WellFormed : Token → Prop
  | .text _ => True
  | .code name params => Plain name ∧ ∀ p ∈ params, Plain p.1

variable {param : Bool} {c : Char} {l x : List Char} {name key value : List Char}
  {params : List (List Char × List Char)} {ts : List Token} {t t' : Token}

section Escape

theorem unescape_cons (h : c ≠ '&') : unescape param (c :: l) = c :: unescape param l := by
  conv_lhs => unfold unescape
  split <;> simp_all

theorem escapeChar_of_ne (h : c ≠ '&' ∧ c ≠ '[' ∧ c ≠ ']' ∧ c ≠ ',') :
    escapeChar param c = [c] := by
  simp [escapeChar, h]

@[simp] theorem escape_nil : escape param [] = [] := rfl

theorem escape_cons : escape param (c :: l) = escapeChar param c ++ escape param l := rfl

theorem escape_append : escape param (x ++ l) = escape param x ++ escape param l :=
  List.flatMap_append

theorem unescape_escapeChar : unescape param (escapeChar param c ++ l) = c :: unescape param l := by
  unfold escapeChar
  split_ifs with h₁ h₂ h₃ h₄
  · subst h₁; rfl
  · subst h₂; rfl
  · subst h₃; rfl
  · obtain ⟨rfl, rfl⟩ := h₄
    rfl
  · exact unescape_cons h₁

/-- Reading undoes escaping. -/
theorem unescape_escape : unescape param (escape param l) = l := by
  induction l with
  | nil => rfl
  | cons c l ih => rw [escape_cons, unescape_escapeChar, ih]

theorem entities_no_delimiter : ∀ e ∈ entities, ∀ d ∈ e, d ≠ '[' ∧ d ≠ ']' ∧ d ≠ ',' := by
  simp [entities]

theorem escapeChar_cases (param : Bool) (c : Char) :
    escapeChar param c ∈ entities ∨
      escapeChar param c = [c] ∧ c ≠ '&' ∧ c ≠ '[' ∧ c ≠ ']' ∧ (param = true → c ≠ ',') := by
  unfold escapeChar
  split_ifs with h₁ h₂ h₃ h₄
  · exact .inl (by decide)
  · exact .inl (by decide)
  · exact .inl (by decide)
  · exact .inl (by decide)
  · exact .inr ⟨rfl, h₁, h₂, h₃, fun hp hd => h₄ ⟨hd, hp⟩⟩

theorem mem_escapeChar {d : Char} (h : d ∈ escapeChar param c) :
    d ≠ '[' ∧ d ≠ ']' ∧ (param = true → d ≠ ',') := by
  rcases escapeChar_cases param c with he | ⟨he, -, hc⟩
  · obtain ⟨h₁, h₂, h₃⟩ := entities_no_delimiter _ he d h
    exact ⟨h₁, h₂, fun _ => h₃⟩
  · rw [he, List.mem_singleton] at h
    exact h ▸ hc

theorem mem_escape {d : Char} (h : d ∈ escape param l) :
    d ≠ '[' ∧ d ≠ ']' ∧ (param = true → d ≠ ',') := by
  obtain ⟨c, -, hc⟩ := List.mem_flatMap.mp h
  exact mem_escapeChar hc

theorem escape_eq_self (h : ∀ c ∈ l, c ≠ '&' ∧ c ≠ '[' ∧ c ≠ ']' ∧ c ≠ ',') :
    escape param l = l := by
  induction l with
  | nil => rfl
  | cons c l ih =>
    obtain ⟨hc, hl⟩ := List.forall_mem_cons.mp h
    rw [escape_cons, escapeChar_of_ne hc, ih hl]
    rfl

theorem length_escapeChar (param : Bool) (c : Char) : 1 ≤ (escapeChar param c).length := by
  have hlen : ∀ e ∈ entities, 1 ≤ e.length := by decide
  rcases escapeChar_cases param c with he | ⟨he, -⟩
  · exact hlen _ he
  · simp [he]

theorem escapeChar_eq_iff : escapeChar false c = [c] ↔ c ≠ '&' ∧ c ≠ '[' ∧ c ≠ ']' := by
  rcases escapeChar_cases false c with he | ⟨he, h₁, h₂, h₃, -⟩
  · have hlen : ∀ e ∈ entities, e.length ≠ 1 := by decide
    refine iff_of_false (fun h => hlen _ he (h ▸ rfl)) ?_
    rintro ⟨h₁, h₂, h₃⟩
    simp only [escapeChar, h₁, h₂, h₃, if_false] at he
    simp [entities] at he
  · exact iff_of_true he ⟨h₁, h₂, h₃⟩

theorem length_le_escape (l : List Char) : l.length ≤ (escape param l).length := by
  induction l with
  | nil => simp
  | cons c l ih =>
    have hc := length_escapeChar param c
    rw [escape_cons, List.length_append, List.length_cons]
    omega

theorem escape_eq_self_iff : escape false l = l ↔ ∀ c ∈ l, c ≠ '&' ∧ c ≠ '[' ∧ c ≠ ']' := by
  have hiff := Text.flatMap_eq_flatMap_iff (f := escapeChar false) (g := fun c => [c]) (l := l)
    fun c _ => length_escapeChar false c
  rw [List.flatMap_singleton'] at hiff
  exact hiff.trans (forall₂_congr fun c _ => escapeChar_eq_iff)

end Escape

section Cut

theorem cut_cons (h : c ≠ '[') : cut none (c :: l) = consText c (cut none l) := by
  conv_lhs => unfold cut
  split <;> simp_all

theorem cut_text (h : '[' ∉ x) : cut none (x ++ l) = x.foldr consText (cut none l) := by
  induction x with
  | nil => rfl
  | cons c x ih =>
    simp only [List.mem_cons, not_or] at h
    rw [List.cons_append, cut_cons (Ne.symm h.1), ih h.2]
    rfl

theorem cut_some {read : List Char} (h : ']' ∉ x) :
    cut (some read) (x ++ ']' :: l) = .code (read.reverse ++ x) :: cut none l := by
  induction x generalizing read with
  | nil => simp [cut]
  | cons c x ih =>
    simp only [List.mem_cons, not_or] at h
    have hcut : cut (some read) (c :: (x ++ ']' :: l)) =
        cut (some (c :: read)) (x ++ ']' :: l) := by
      conv_lhs => unfold cut
      split <;> simp_all
    rw [List.cons_append, hcut, ih h.2]
    simp

theorem bracket_append : bracket x ++ l = "[CQ:".toList ++ (x ++ ']' :: l) := by
  unfold bracket
  generalize "[CQ:".toList = start
  simp

/-- A code ends with the first closing bracket. -/
theorem cut_bracket (h : ']' ∉ x) : cut none (bracket x ++ l) = .code x :: cut none l := by
  have hl : bracket x ++ l = '[' :: 'C' :: 'Q' :: ':' :: (x ++ ']' :: l) := bracket_append
  rw [hl, cut, if_pos (by simp), cut_some h]
  rfl

end Cut

section RoundTrip

theorem body_nil : body name [] = name := by simp [body]

theorem body_cons {p : List Char × List Char} :
    body name (p :: params) = name ++ ',' :: body (encodeParam p) params := by
  simp [body, List.intercalate]

theorem mem_body (hn : Plain name) (hp : ∀ p ∈ params, Plain p.1) {d : Char}
    (h : d ∈ body name params) : d ≠ '[' ∧ d ≠ ']' := by
  have hparam : ∀ p ∈ params, ∀ d ∈ encodeParam p, d ≠ '[' ∧ d ≠ ']' := by
    intro p hm d hd
    rcases List.mem_append.mp hd with hd | hd
    · exact ⟨(hp p hm d hd).1, (hp p hm d hd).2.1⟩
    · rcases List.mem_cons.mp hd with rfl | hd
      · decide
      · exact ⟨(mem_escape hd).1, (mem_escape hd).2.1⟩
  have hname : ∀ d ∈ name, d ≠ '[' ∧ d ≠ ']' := fun d hd => ⟨(hn d hd).1, (hn d hd).2.1⟩
  clear hn hp
  induction params generalizing name with
  | nil =>
    rw [body_nil] at h
    exact hname d h
  | cons p params ih =>
    obtain ⟨hfirst, hrest⟩ := List.forall_mem_cons.mp hparam
    rw [body_cons, List.mem_append, List.mem_cons] at h
    rcases h with h | rfl | h
    · exact hname d h
    · decide
    · exact ih h hrest hfirst

theorem parseParam_encodeParam (h : Plain key) : parseParam (encodeParam (key, value)) =
    (key, value) := by
  have hkey : '=' ∉ key := fun hm => (h _ hm).2.2.2 rfl
  have hsplit := @Text.splitOnceChars_append '=' key (escape true value) [] hkey
  rw [List.append_assoc, List.singleton_append] at hsplit
  simp only [parseParam, encodeParam, hsplit, unescape_escape]

theorem parse_body (hn : Plain name) (hp : ∀ p ∈ params, Plain p.1) :
    (Piece.code (body name params)).parse = .code name params := by
  have hcomma : ∀ l ∈ name :: params.map encodeParam, ',' ∉ l := by
    intro l hl
    rcases List.mem_cons.mp hl with rfl | hl
    · exact fun hm => (hn _ hm).2.2.1 rfl
    · obtain ⟨p, hm, rfl⟩ := List.mem_map.mp hl
      intro hc
      rcases List.mem_append.mp hc with hc | hc
      · exact (hp p hm _ hc).2.2.1 rfl
      · rcases List.mem_cons.mp hc with hc | hc
        · cases hc
        · exact (mem_escape hc).2.2 rfl rfl
  have hparams : (params.map encodeParam).map parseParam = params := by
    rw [List.map_map, List.map_congr_left (g := id), List.map_id]
    exact fun p hm => parseParam_encodeParam (hp p hm)
  have hsplit := List.splitOn_intercalate ',' hcomma (by simp)
  simp only [Piece.parse, body, hsplit, hparams]

def Token.piece : Token → Piece
  | .text content => .text (escape false content)
  | .code name params => .code (body name params)

theorem Token.WellFormed.parse_piece (h : t.WellFormed) : t.piece.parse = t := by
  cases t with
  | text content => exact congrArg Token.text unescape_escape
  | code name params => exact parse_body h.1 h.2

theorem foldr_consText_text {raw : List Char} {ps : List Piece} :
    x.foldr consText (.text raw :: ps) = .text (x ++ raw) :: ps := by
  induction x with
  | nil => rfl
  | cons c x ih => rw [List.foldr_cons, ih]; rfl

theorem foldr_consText_of_ne {ps : List Piece} (hx : x ≠ [])
    (hps : ∀ raw rest, ps ≠ .text raw :: rest) : x.foldr consText ps = .text x :: ps := by
  induction x with
  | nil => exact absurd rfl hx
  | cons c x ih =>
    rw [List.foldr_cons]
    cases x with
    | nil =>
      rw [List.foldr_nil]
      unfold consText
      split
      · exact absurd rfl (hps _ _)
      · rfl
    | cons d x =>
      rw [ih (List.cons_ne_nil d x)]
      rfl

theorem escape_ne_nil : escape param (c :: l) ≠ [] := by
  rw [escape_cons]
  rcases escapeChar_cases param c with he | ⟨he, -⟩
  · have hne : ∀ e ∈ entities, e ≠ [] := by decide
    simp [hne _ he]
  · simp [he]

theorem foldr_consText (content : List Char) (ts : List Token) :
    (escape false content).foldr consText (ts.map Token.piece) =
      (prepend (.text content) ts).map Token.piece := by
  cases content with
  | nil => rfl
  | cons c content =>
    rcases ts with _ | ⟨content' | ⟨name, params⟩, ts⟩
    · exact foldr_consText_of_ne escape_ne_nil fun raw rest h => by cases h
    · rw [List.map_cons, Token.piece, foldr_consText_text, ← escape_append]
      rfl
    · exact foldr_consText_of_ne escape_ne_nil fun raw rest h => by cases h

theorem cut_encode (h : ∀ t ∈ ts, t.WellFormed) :
    cut none (encode ts) = (merge ts).map Token.piece := by
  induction ts with
  | nil => rfl
  | cons t ts ih =>
    obtain ⟨ht, hts⟩ := List.forall_mem_cons.mp h
    change cut none (t.encode ++ encode ts) = (prepend t (merge ts)).map Token.piece
    cases t with
    | text content =>
      have hopen : '[' ∉ escape false content := fun hm => (mem_escape hm).1 rfl
      rw [Token.encode, cut_text hopen, ih hts, foldr_consText]
    | code name params =>
      have hclose : ']' ∉ body name params := fun hm => (mem_body ht.1 ht.2 hm).2 rfl
      rw [Token.encode, cut_bracket hclose, ih hts]
      rfl

theorem mem_prepend (h : t ∈ prepend t' ts) :
    (∃ content, t = .text content) ∨ t = t' ∨ t ∈ ts := by
  unfold prepend at h
  split at h
  · exact .inr (.inr h)
  · rcases List.mem_cons.mp h with rfl | h
    · exact .inl ⟨_, rfl⟩
    · exact .inr (.inr (List.mem_cons_of_mem _ h))
  · rcases List.mem_cons.mp h with rfl | h
    · exact .inr (.inl rfl)
    · exact .inr (.inr h)

theorem mem_merge (h : t ∈ merge ts) : (∃ content, t = .text content) ∨ t ∈ ts := by
  induction ts with
  | nil => cases h
  | cons t' ts ih =>
    rcases mem_prepend h with h | rfl | h
    · exact .inl h
    · exact .inr (List.mem_cons_self ..)
    · exact (ih h).imp_right (List.mem_cons_of_mem _)

theorem mem_merge_wellFormed (h : ∀ t ∈ ts, t.WellFormed) : ∀ t ∈ merge ts, t.WellFormed := by
  intro t hm
  rcases mem_merge hm with ⟨content, rfl⟩ | hm
  · trivial
  · exact h t hm

/-- A message is read back as it was encoded, with adjacent texts joined. -/
theorem tokens_encode (h : ∀ t ∈ ts, t.WellFormed) : tokens (encode ts) = merge ts := by
  rw [tokens, cut_encode h, List.map_map, List.map_congr_left (g := id), List.map_id]
  exact fun t hm => (mem_merge_wellFormed h t hm).parse_piece

end RoundTrip

section Openings

/-- How a code begins whose first parameter has a key. -/
def opening (name key : List Char) : List Char := "[CQ:".toList ++ name ++ ',' :: key ++ ['=']

/-- The name and the key of the first parameter of a code. -/
def Token.Opens (name key : List Char) : Token → Prop
  | .text _ => False
  | .code name' params => name' = name ∧ params.head?.map Prod.fst = some key

instance : Decidable (t.Opens name key) := by
  cases t
  · exact .isFalse id
  · exact inferInstanceAs (Decidable (_ ∧ _))

theorem opening_eq_cons (name key : List Char) :
    opening name key = '[' :: ("CQ:".toList ++ name ++ ',' :: key ++ ['=']) := rfl

variable {name' : List Char}

theorem body_encodeParam (p : List Char × List Char) (params : List (List Char × List Char)) :
    ∃ rest, body (encodeParam p) params = p.1 ++ '=' :: rest := by
  cases params with
  | nil => exact ⟨escape true p.2, by rw [body_nil]; rfl⟩
  | cons q params =>
    refine ⟨escape true p.2 ++ ',' :: body (encodeParam q) params, ?_⟩
    rw [body_cons, encodeParam, List.append_assoc]
    rfl

/-- A code begins as its name and its first parameter say. -/
theorem opening_prefix_iff (hn : Plain name) (hk : Plain key)
    (ht : (Token.code name' params).WellFormed) :
    opening name key <+: bracket (body name' params) ++ l ↔
      (Token.code name' params).Opens name key := by
  have hcomma : ',' ∉ name := fun hm => (hn _ hm).2.2.1 rfl
  have hbracket : ']' ∉ name := fun hm => (hn _ hm).2.1 rfl
  have hcomma' : ',' ∉ name' := fun hm => (ht.1 _ hm).2.2.1 rfl
  have heq : '=' ∉ key := fun hm => (hk _ hm).2.2.2 rfl
  have hopen : opening name key <+: bracket (body name' params) ++ l ↔
      name ++ ',' :: (key ++ ['=']) <+: body name' params ++ ']' :: l := by
    rw [bracket_append]
    unfold opening
    generalize "[CQ:".toList = start
    simp
  rw [hopen]
  cases params with
  | nil =>
    rw [body_nil, Text.append_cons_prefix_iff hcomma hbracket hcomma']
    simp [Token.Opens]
  | cons p params =>
    obtain ⟨rest, hrest⟩ := body_encodeParam p params
    have hp : '=' ∉ p.1 := fun hm => (ht.2 p (List.mem_cons_self ..) _ hm).2.2.2 rfl
    rw [body_cons, List.append_assoc, List.cons_append,
      Text.append_cons_prefix_iff hcomma hcomma hcomma', hrest, List.append_assoc, List.cons_append,
      Text.append_cons_prefix_iff heq heq hp]
    simp only [Token.Opens, List.head?_cons, Option.map_some, Option.some.injEq, List.nil_prefix,
      and_true, true_and]
    exact and_congr eq_comm eq_comm

/-- In a token that does not open so, the opening is not found. -/
theorem splitOnce_token (hn : Plain name) (hk : Plain key) (ht : t.WellFormed)
    (ho : ¬ t.Opens name key) :
    Text.splitOnceChars (opening name key) (t.encode ++ l) =
      (Text.splitOnceChars (opening name key) l).map fun p => (t.encode ++ p.1, p.2) := by
  cases t with
  | text content =>
    have hopen : '[' ∉ escape false content := fun hm => (mem_escape hm).1 rfl
    exact Text.splitOnceChars_append_left hopen
  | code name' params =>
    have hp : ¬ (opening name key).isPrefixOf (bracket (body name' params) ++ l) = true :=
      fun hp => ho ((opening_prefix_iff hn hk ht).mp (List.isPrefixOf_iff_prefix.mp hp))
    have hrest : '[' ∉ "CQ:".toList ++ body name' params ++ [']'] := by
      intro hm
      rcases List.mem_append.mp hm with hm | hm
      · rcases List.mem_append.mp hm with hm | hm
        · exact absurd hm (by decide)
        · exact (mem_body ht.1 ht.2 hm).1 rfl
      · exact absurd hm (by decide)
    have hcons : bracket (body name' params) ++ l =
        '[' :: ("CQ:".toList ++ body name' params ++ [']'] ++ l) := rfl
    rw [Token.encode, hcons, Text.splitOnceChars, if_neg (hcons ▸ hp), opening_eq_cons,
      Text.splitOnceChars_append_left hrest, Option.map_map]
    rfl

theorem splitOnce_encode (hn : Plain name) (hk : Plain key) (ht : ∀ t ∈ ts, t.WellFormed)
    (ho : ∀ t ∈ ts, ¬ t.Opens name key) :
    Text.splitOnceChars (opening name key) (encode ts ++ l) =
      (Text.splitOnceChars (opening name key) l).map fun p => (encode ts ++ p.1, p.2) := by
  induction ts with
  | nil => simp [encode]
  | cons t ts ih =>
    obtain ⟨ht₁, ht₂⟩ := List.forall_mem_cons.mp ht
    obtain ⟨ho₁, ho₂⟩ := List.forall_mem_cons.mp ho
    change Text.splitOnceChars _ (t.encode ++ encode ts ++ l) = _
    rw [List.append_assoc, splitOnce_token hn hk ht₁ ho₁, ih ht₂ ho₂, Option.map_map]
    congr 1
    funext p
    simp [encode]

theorem splitOnce_encode_eq_none (hn : Plain name) (hk : Plain key) (ht : ∀ t ∈ ts, t.WellFormed)
    (ho : ∀ t ∈ ts, ¬ t.Opens name key) :
    Text.splitOnceChars (opening name key) (encode ts) = none := by
  have hsplit := @splitOnce_encode [] name key ts hn hk ht ho
  rw [List.append_nil] at hsplit
  rw [hsplit]
  rfl

theorem splitOnce_opens (ht : t.WellFormed) (ho : t.Opens name key) : ∃ value,
    Text.splitOnceChars (opening name key) (t.encode ++ l) = some ([], value ++ ']' :: l) ∧
      ']' ∉ value := by
  cases t with
  | text content => exact ho.elim
  | code name' params =>
    obtain ⟨rfl, hkey⟩ := ho
    cases params with
    | nil => cases hkey
    | cons p params =>
      obtain rfl := Option.some.inj hkey
      obtain ⟨rest, hrest⟩ := body_encodeParam p params
      have hbody : body name' (p :: params) = name' ++ ',' :: (p.1 ++ '=' :: rest) := by
        rw [body_cons, hrest]
      refine ⟨rest, ?_, fun hm => (mem_body ht.1 ht.2 (d := ']') ?_).2 rfl⟩
      · have hsplit := @Text.splitOnceChars_append '[' [] (rest ++ ']' :: l)
          ("CQ:".toList ++ name' ++ ',' :: p.1 ++ ['=']) (by simp)
        rw [Token.encode, bracket, hbody, opening_eq_cons, ← hsplit]
        simp
      · rw [hbody]
        simp [hm]

end Openings

section Codes

def Token.code? : Token → Option (List Char × List (List Char × List Char))
  | .text _ => none
  | .code name params => some (name, params)

/-- The codes of a message, without the text between them. -/
def codes (l : List Char) : List (List Char × List (List Char × List Char)) :=
  (tokens l).filterMap Token.code?

theorem filterMap_consText (ps : List Piece) :
    ((consText c ps).map Piece.parse).filterMap Token.code? =
      (ps.map Piece.parse).filterMap Token.code? := by
  unfold consText
  split <;> rfl

theorem codes_text (h : '[' ∉ x) : codes (x ++ l) = codes l := by
  rw [codes, tokens, cut_text h]
  clear h
  induction x with
  | nil => rfl
  | cons c x ih => rw [List.foldr_cons, filterMap_consText, ih]

theorem codes_bracket (h : ']' ∉ x) :
    codes (bracket x ++ l) = ((Piece.code x).parse.code?).toList ++ codes l := by
  rw [codes, tokens, cut_bracket h, List.map_cons, List.filterMap_cons]
  cases (Piece.code x).parse.code? <;> rfl

theorem codes_encode (h : ∀ t ∈ ts, t.WellFormed) :
    codes (encode ts ++ l) = ts.filterMap Token.code? ++ codes l := by
  induction ts with
  | nil => rfl
  | cons t ts ih =>
    obtain ⟨ht, hts⟩ := List.forall_mem_cons.mp h
    change codes (t.encode ++ encode ts ++ l) = _
    rw [List.append_assoc]
    cases t with
    | text content =>
      have hopen : '[' ∉ escape false content := fun hm => (mem_escape hm).1 rfl
      rw [Token.encode, codes_text hopen, ih hts]
      rfl
    | code name params =>
      have hclose : ']' ∉ body name params := fun hm => (mem_body ht.1 ht.2 hm).2 rfl
      rw [Token.encode, codes_bracket hclose, ih hts, parse_body ht.1 ht.2]
      rfl

end Codes

section Verbatim

theorem length_unescape_le (l : List Char) : (unescape true l).length ≤ l.length := by
  induction l using unescape.induct true with
  | case1 l ih | case2 l ih | case3 l ih | case4 l _ ih =>
    simp only [unescape, if_true, List.length_cons]
    omega
  | case5 l hp => exact absurd rfl hp
  | case6 c l h₁ h₂ h₃ h₄ ih =>
    rw [unescape.eq_5 _ _ _ h₁ h₂ h₃ h₄]
    simpa using ih
  | case7 => simp [unescape]

theorem unescape_entity {e : List Char} (he : e ∈ entities)
    (hread : unescape true (e ++ l) = c :: unescape true l) :
    unescape true (e ++ l) = e ++ l ↔ ∀ e' ∈ entities, ¬ e' <:+: e ++ l := by
  refine iff_of_false (fun heq => ?_) fun h => h e he (List.prefix_append ..).isInfix
  have hfive : ∀ e ∈ entities, e.length = 5 := by decide
  have hlen := congrArg List.length (hread.symm.trans heq)
  have hle := length_unescape_le l
  simp only [List.length_cons, List.length_append, hfive e he] at hlen
  omega

/-- A parameter value that contains no entity is read as it is written. -/
theorem unescape_eq_self_iff : unescape true l = l ↔ ∀ e ∈ entities, ¬ e <:+: l := by
  induction l using unescape.induct true with
  | case1 l _ => exact unescape_entity (e := "&amp;".toList) (by decide) rfl
  | case2 l _ => exact unescape_entity (e := "&#91;".toList) (by decide) rfl
  | case3 l _ => exact unescape_entity (e := "&#93;".toList) (by decide) rfl
  | case4 l _ _ => exact unescape_entity (e := "&#44;".toList) (by decide) rfl
  | case5 l hp => exact absurd rfl hp
  | case6 c l h₁ h₂ h₃ h₄ ih =>
    have hno : ∀ e ∈ entities, ¬ e <+: c :: l := by
      simp only [entities, List.forall_mem_cons]
      refine ⟨?_, ?_, ?_, ?_, by simp⟩
      · rintro ⟨rest, he⟩
        injection he with hc hl
        exact h₁ rest hc.symm hl.symm
      · rintro ⟨rest, he⟩
        injection he with hc hl
        exact h₂ rest hc.symm hl.symm
      · rintro ⟨rest, he⟩
        injection he with hc hl
        exact h₃ rest hc.symm hl.symm
      · rintro ⟨rest, he⟩
        injection he with hc hl
        exact h₄ rest hc.symm hl.symm
    rw [unescape.eq_5 _ _ _ h₁ h₂ h₃ h₄, List.cons.injEq, ih]
    simp only [List.infix_cons_iff, not_or, true_and]
    exact forall₂_congr fun e he => (and_iff_right (hno e he)).symm
  | case7 => simp [unescape, entities]

theorem unescape_takeWhile_eq_iff {p : Char → Bool} :
    unescape true (l.takeWhile p) = l ↔ (∀ c ∈ l, p c = true) ∧ ∀ e ∈ entities, ¬ e <:+: l := by
  constructor
  · intro h
    have hle := length_unescape_le (l.takeWhile p)
    rw [h] at hle
    have hall : l.takeWhile p = l := (List.takeWhile_prefix p).eq_of_length_le hle
    rw [hall, unescape_eq_self_iff] at h
    exact ⟨List.takeWhile_eq_self_iff.mp hall, h⟩
  · rintro ⟨hall, hno⟩
    rw [List.takeWhile_eq_self_iff.mpr hall, unescape_eq_self_iff.mpr hno]

theorem takeWhile_ne_of_not_mem (h : c ∉ x) : (x ++ c :: l).takeWhile (· ≠ c) = x := by
  rw [List.takeWhile_append_of_pos]
  · simp
  · intro d hd
    have hne : d ≠ c := fun he => h (he ▸ hd)
    simp [hne]

theorem splitOn_eq_cons (c : Char) (l : List Char) :
    ∃ rest, l.splitOn c = l.takeWhile (· ≠ c) :: rest ∧ (c ∉ l → rest = []) := by
  by_cases hm : c ∈ l
  · obtain ⟨x, y, rfl, hx⟩ := List.eq_append_cons_of_mem hm
    refine ⟨y.splitOn c, ?_, fun h => absurd hm h⟩
    rw [List.splitOn_append_cons_self_of_not_mem hx, takeWhile_ne_of_not_mem hx]
  · refine ⟨[], ?_, fun _ => rfl⟩
    have htake := @takeWhile_ne_of_not_mem c [] l hm
    rw [List.splitOn_eq_singleton hm, List.takeWhile_eq_self_iff.mpr]
    intro d hd
    have hne : d ≠ c := fun he => hm (he ▸ hd)
    simp [hne]

theorem append_close (value l : List Char) :
    ∃ rest, value ++ ']' :: l = value.takeWhile (· ≠ ']') ++ ']' :: rest ∧
      (']' ∉ value → rest = l) := by
  by_cases hm : ']' ∈ value
  · obtain ⟨x, y, rfl, hx⟩ := List.eq_append_cons_of_mem hm
    refine ⟨y ++ ']' :: l, ?_, fun h => absurd hm h⟩
    rw [takeWhile_ne_of_not_mem hx, List.append_assoc, List.cons_append]
  · refine ⟨l, ?_, fun _ => rfl⟩
    rw [List.takeWhile_eq_self_iff.mpr]
    intro d hd
    have hne : d ≠ ']' := fun he => hm (he ▸ hd)
    simp [hne]

/-- A code whose first value was written without escaping: the value ends at the first comma or
closing bracket. -/
theorem codes_unescaped (hn : Plain name) (hk : Plain key) (value l : List Char) :
    ∃ params rest, codes ("[CQ:".toList ++ name ++ ',' :: key ++ '=' :: value ++ ']' :: l) =
        (name, (key, unescape true (value.takeWhile fun c => c ≠ ',' && c ≠ ']')) :: params) ::
          codes rest ∧
      (']' ∉ value → rest = l) ∧ (',' ∉ value → params = []) := by
  have hname : ',' ∉ name := fun hm => (hn _ hm).2.2.1 rfl
  have heq : '=' ∉ key := fun hm => (hk _ hm).2.2.2 rfl
  obtain ⟨rest, hrest, hl⟩ := append_close value l
  let first := value.takeWhile (· ≠ ']')
  obtain ⟨params, hparams, hnone⟩ := splitOn_eq_cons ',' (key ++ '=' :: first)
  have hclose : ']' ∉ name ++ ',' :: (key ++ '=' :: first) := by
    simp only [List.mem_append, List.mem_cons, not_or]
    refine ⟨fun hm => (hn _ hm).2.1 rfl, by decide, fun hm => (hk _ hm).2.1 rfl, by decide,
      fun hm => ?_⟩
    simpa using List.mem_takeWhile_imp hm
  have htake : (key ++ '=' :: first).takeWhile (· ≠ ',') =
      key ++ '=' :: value.takeWhile fun c => c ≠ ',' && c ≠ ']' := by
    rw [List.takeWhile_append_of_pos, List.takeWhile_cons_of_pos (by decide),
      List.takeWhile_takeWhile]
    · congr 3
      funext d
      by_cases h₁ : d = ',' <;> by_cases h₂ : d = ']' <;> simp [h₁, h₂]
    · intro d hd
      simp [(hk d hd).2.2.1]
  refine ⟨params.map parseParam, rest, ?_, hl, fun hcomma => ?_⟩
  · have hwhole : "[CQ:".toList ++ name ++ ',' :: key ++ '=' :: value ++ ']' :: l =
        bracket (name ++ ',' :: (key ++ '=' :: first)) ++ rest := by
      have happ := congrArg ("[CQ:".toList ++ name ++ ',' :: key ++ '=' :: ·) hrest
      simpa [bracket, first] using happ
    have hsplit := @Text.splitOnceChars_append '=' key
      (value.takeWhile fun c => c ≠ ',' && c ≠ ']') [] heq
    rw [List.append_assoc, List.singleton_append] at hsplit
    rw [hwhole, codes_bracket hclose, Piece.parse, List.splitOn_append_cons_self_of_not_mem hname,
      hparams, htake]
    simp only [Token.code?, Option.toList_some, List.map_cons, parseParam, hsplit,
      List.cons_append, List.nil_append]
  · rw [hnone, List.map_nil]
    simp only [List.mem_append, List.mem_cons, not_or]
    exact ⟨fun hm => (hk _ hm).2.2.1 rfl, by decide,
      fun hm => hcomma (List.takeWhile_prefix _ |>.subset hm)⟩

end Verbatim

example : tokens (encode [.text "a&[".toList, .code "at".toList [("qq".toList, "1,]".toList)],
    .text "b".toList, .text "c".toList]) =
    [.text "a&[".toList, .code "at".toList [("qq".toList, "1,]".toList)], .text "bc".toList] := by
  decide +kernel

end Cq
