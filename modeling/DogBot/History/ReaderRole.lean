import DogBot.Library.Sql

/-! # The reader role

The role that reads the history is set up by one statement. Its name and its
password are quoted in a block of code that is itself a dollar-quoted string, so
that two dollar signs in either of them end the block.
-/

namespace DogBot

open Sql

def quoteIdentifier (value : String) : String := "\"" ++ Text.replace '"' "\"\"" value ++ "\""

def quoteLiteral (value : String) : String := "'" ++ Text.replace '\'' "''" value ++ "'"

/-- The statement that makes the role, or sets its password. -/
def ensureReaderRole (readerRole readerPassword : String) : String :=
  let readerRoleIdent := quoteIdentifier readerRole
  let readerRoleLiteral := quoteLiteral readerRole
  let readerPasswordLiteral := quoteLiteral readerPassword
  "DO $$
         BEGIN
             IF NOT EXISTS (SELECT 1 FROM pg_roles WHERE rolname = " ++ readerRoleLiteral ++ ") THEN
                 CREATE ROLE " ++ readerRoleIdent ++ "
                     WITH LOGIN PASSWORD " ++ readerPasswordLiteral ++ "
                     NOSUPERUSER NOCREATEDB NOCREATEROLE NOINHERIT;
             ELSE
                 ALTER ROLE " ++ readerRoleIdent ++ "
                     WITH LOGIN PASSWORD " ++ readerPasswordLiteral ++ "
                     NOSUPERUSER NOCREATEDB NOCREATEROLE NOINHERIT;
             END IF;
         END
         $$;"

def roleOptions (password : String) : List Token :=
  [.word "with", .word "login", .word "password", .string password, .word "nosuperuser",
    .word "nocreatedb", .word "nocreaterole", .word "noinherit", .punctuation ";"]

/-- The block of code that makes the role, or sets its password. -/
def roleBlock (identifier : Token) (role password : String) : List Token :=
  [.word "begin", .word "if", .word "not", .word "exists", .punctuation "(", .word "select",
    .number 1, .word "from", .word "pg_roles", .word "where", .word "rolname", .operator "=",
    .string role, .punctuation ")", .word "then", .word "create", .word "role", identifier] ++
  roleOptions password ++
  [.word "else", .word "alter", .word "role", identifier] ++ roleOptions password ++
  [.word "end", .word "if", .punctuation ";", .word "end"]

/-- The text is one statement with the block of code that is meant. -/
def SetsUpRole (text role password : String) : Prop :=
  ∃ body, lex text = some [.word "do", .dollarString body, .punctuation ";"] ∧
    lex body = some (roleBlock (.name role) role password)

/-- A name and a password that the block of code may contain. -/
structure Embeddable (role password : String) : Prop where
  null : ∀ c ∈ role.toList ++ password.toList, c.toNat ≠ 0
  named : role ≠ ""
  short : byteLength role.toList ≤ 63
  role : ¬ "$$".toList <:+: role.toList
  password : ¬ "$$".toList <:+: password.toList

variable {role password : String} {l : List Char} {text : String}

theorem quoteIdentifier_toList (s : String) :
    (quoteIdentifier s).toList = quoted '"' s.toList := by
  simp [quoteIdentifier, Text.replace, quoted, doubled]

theorem quoteLiteral_toList (s : String) : (quoteLiteral s).toList = quoted '\'' s.toList := by
  simp [quoteLiteral, Text.replace, quoted, doubled]

section Block

def blockStart : String := "
         BEGIN
             IF NOT EXISTS (SELECT 1 FROM pg_roles WHERE rolname = "

def blockCreate : String := ") THEN
                 CREATE ROLE "

def blockOptions : String := "
                     WITH LOGIN PASSWORD "

def blockAlter : String := "
                     NOSUPERUSER NOCREATEDB NOCREATEROLE NOINHERIT;
             ELSE
                 ALTER ROLE "

def blockEnd : String := "
                     NOSUPERUSER NOCREATEDB NOCREATEROLE NOINHERIT;
             END IF;
         END
         "

def blockHead (role : String) : List Char :=
  blockStart.toList ++ quoted '\'' role.toList ++ blockCreate.toList ++
    quoted '"' role.toList ++ blockOptions.toList

def blockText (role password : String) : List Char :=
  blockHead role ++ quoted '\'' password.toList ++ blockAlter.toList ++
    quoted '"' role.toList ++ blockOptions.toList ++ quoted '\'' password.toList ++
    blockEnd.toList

theorem ensureReaderRole_toList : (ensureReaderRole role password).toList =
    "DO $$".toList ++ (blockText role password ++ delimiter [] ++ ";".toList) := by
  obtain ⟨hstart, hend⟩ : "DO $$
         BEGIN
             IF NOT EXISTS (SELECT 1 FROM pg_roles WHERE rolname = " = "DO $$" ++ blockStart ∧ "
                     NOSUPERUSER NOCREATEDB NOCREATEROLE NOINHERIT;
             END IF;
         END
         $$;" = blockEnd ++ ("$$" ++ ";") := by
    decide +kernel
  have htext : ensureReaderRole role password = ("DO $$" ++ blockStart) ++ quoteLiteral role ++
      blockCreate ++ quoteIdentifier role ++ blockOptions ++ quoteLiteral password ++ blockAlter ++
      quoteIdentifier role ++ blockOptions ++ quoteLiteral password ++
      (blockEnd ++ ("$$" ++ ";")) := by
    rw [← hstart, ← hend]
    rfl
  rw [htext]
  simp only [String.toList_append, quoteIdentifier_toList, quoteLiteral_toList, blockText,
    blockHead, List.append_assoc]
  rfl

/-- A part of the block that is the same for all roles. -/
structure Fixed (s : String) (ts : List Token) : Prop where
  reads : Reads s ts
  begins : beginsToken s.toList = true
  head : s.toList.head? ≠ some '"'
  plain : s.toList ≠ [] ∧ '$' ∉ s.toList

theorem Fixed.ofList {l : List Char} {ts : List Token}
    (h : scan .start l = some (.start, ts) ∧ beginsToken l = true ∧ l.head? ≠ some '"' ∧
      l ≠ [] ∧ '$' ∉ l) : Fixed (String.ofList l) ts := by
  obtain ⟨hreads, hbegins, hhead, hplain⟩ := h
  constructor
  · rwa [Reads, String.toList_ofList]
  all_goals rwa [String.toList_ofList]

theorem fixed_parts :
    Fixed blockStart [.word "begin", .word "if", .word "not", .word "exists", .punctuation "(",
      .word "select", .number 1, .word "from", .word "pg_roles", .word "where", .word "rolname",
      .operator "="] ∧
    Fixed blockCreate [.punctuation ")", .word "then", .word "create", .word "role"] ∧
    Fixed blockOptions [.word "with", .word "login", .word "password"] ∧
    Fixed blockAlter [.word "nosuperuser", .word "nocreatedb", .word "nocreaterole",
      .word "noinherit", .punctuation ";", .word "else", .word "alter", .word "role"] ∧
    Fixed blockEnd [.word "nosuperuser", .word "nocreatedb", .word "nocreaterole",
      .word "noinherit", .punctuation ";", .word "end", .word "if", .punctuation ";",
      .word "end"] := by
  refine ⟨.ofList ?_, .ofList ?_, .ofList ?_, .ofList ?_, .ofList ?_⟩
  all_goals decide +kernel

theorem Fixed.head_append {s : String} {ts : List Token} (h : Fixed s ts) (l : List Char) :
    (s.toList ++ l).head? ≠ some '"' := by
  rw [List.head?_append_of_ne_nil _ h.plain.1]
  exact h.head

theorem mem_blockHead {c : Char} (hc : c ∈ role.toList) : c ∈ blockHead role := by
  simp only [blockHead, List.mem_append]
  exact .inl (.inl (.inl (.inr (mem_quoted hc))))

theorem lexFrom_blockHead (hrole : ∀ c ∈ role.toList, c.toNat ≠ 0) (l : List Char) :
    lexFrom .start (blockHead role ++ l) =
      (nameToken role.toList).bind fun identifier => (lexFrom .start l).map fun ts =>
        [.word "begin", .word "if", .word "not", .word "exists", .punctuation "(",
          .word "select", .number 1, .word "from", .word "pg_roles", .word "where",
          .word "rolname", .operator "=", .string role, .punctuation ")", .word "then",
          .word "create", .word "role", identifier, .word "with", .word "login",
          .word "password"] ++ ts := by
  simp only [blockHead, List.append_assoc]
  rw [fixed_parts.1.reads.lexFrom_append,
    lexFrom_quoted_string hrole (endsString_append fixed_parts.2.1.begins _),
    fixed_parts.2.1.reads.lexFrom_append,
    lexFrom_quoted_name hrole (fixed_parts.2.2.1.head_append l),
    fixed_parts.2.2.1.reads.lexFrom_append, String.ofList_toList]
  cases nameToken role.toList with
  | none => rfl
  | some identifier => cases lexFrom .start l <;> rfl

theorem lexFrom_blockText (hrole : ∀ c ∈ role.toList, c.toNat ≠ 0)
    (hpassword : ∀ c ∈ password.toList, c.toNat ≠ 0) :
    lexFrom .start (blockText role password) =
      (nameToken role.toList).map fun identifier => roleBlock identifier role password := by
  have hend := endsString_append fixed_parts.2.2.2.2.begins []
  have hlast := fixed_parts.2.2.2.2.reads.lexFrom_append []
  rw [List.append_nil] at hend hlast
  simp only [blockText, List.append_assoc]
  rw [lexFrom_blockHead hrole,
    lexFrom_quoted_string hpassword (endsString_append fixed_parts.2.2.2.1.begins _),
    fixed_parts.2.2.2.1.reads.lexFrom_append,
    lexFrom_quoted_name hrole (fixed_parts.2.2.1.head_append _),
    fixed_parts.2.2.1.reads.lexFrom_append, lexFrom_quoted_string hpassword hend, hlast,
    String.ofList_toList]
  cases nameToken role.toList <;> rfl

end Block

section Delimiter

theorem Fixed.delimiter_infix_iff {s : String} {ts : List Token} (h : Fixed s ts)
    (l : List Char) : delimiter [] <:+: s.toList ++ l ↔ delimiter [] <:+: l := by
  have hdisj : ∀ c ∈ s.toList, c ∉ delimiter [] := fun c hc hd => h.plain.2 <| by
    have he : c = '$' := by simpa [delimiter] using hd
    exact he ▸ hc
  have hsep := Text.infix_append_sep_iff (l := []) (m := l) h.plain.1 (List.cons_ne_nil _ _) hdisj
  rwa [List.nil_append, or_iff_right (by decide)] at hsep

theorem delimiter_infix_quoted_iff {q : Char} (hq : q ≠ '$') (t l : List Char) :
    delimiter [] <:+: quoted q t ++ l ↔ delimiter [] <:+: t ∨ delimiter [] <:+: l := by
  have h := infix_append_quoted_iff (t := t) (l := l) (x := []) (q := q)
    (List.cons_ne_nil _ _ : delimiter [] ≠ []) (by simpa [delimiter] using hq)
  rwa [List.nil_append, or_assoc, or_iff_right (by decide)] at h

theorem delimiter_infix_blockHead_iff (l : List Char) :
    delimiter [] <:+: blockHead role ++ l ↔
      delimiter [] <:+: role.toList ∨ delimiter [] <:+: l := by
  simp only [blockHead, List.append_assoc]
  rw [fixed_parts.1.delimiter_infix_iff, delimiter_infix_quoted_iff (by decide),
    fixed_parts.2.1.delimiter_infix_iff, delimiter_infix_quoted_iff (by decide),
    fixed_parts.2.2.1.delimiter_infix_iff, ← or_assoc, or_self]

theorem delimiter_infix_blockText_iff : delimiter [] <:+: blockText role password ++ ['$'] ↔
    delimiter [] <:+: role.toList ∨ delimiter [] <:+: password.toList := by
  have hend : ¬ delimiter [] <:+: ['$'] := by decide
  simp only [blockText, List.append_assoc]
  rw [delimiter_infix_blockHead_iff, delimiter_infix_quoted_iff (by decide),
    fixed_parts.2.2.2.1.delimiter_infix_iff, delimiter_infix_quoted_iff (by decide),
    fixed_parts.2.2.1.delimiter_infix_iff, delimiter_infix_quoted_iff (by decide),
    fixed_parts.2.2.2.2.delimiter_infix_iff]
  tauto

/-- Up to the first two dollar signs in a text, its quoted form is unterminated. -/
theorem exists_cut_quoted {t : List Char} (h : delimiter [] <:+: t) :
    ∃ u v, quoted '\'' t = '\'' :: doubled '\'' u ++ delimiter [] ++ v ∧
      ¬ delimiter [] <:+: '\'' :: doubled '\'' u ++ ['$'] := by
  obtain ⟨u, v, rfl, hno⟩ := Text.exists_first_occurrence (q := ['$']) (d := '$') h
  refine ⟨u, doubled '\'' v ++ ['\''], ?_, fun hin => hno ?_⟩
  · simp [quoted, doubled, delimiter]
  · have hdoubled : '\'' :: doubled '\'' u ++ ['$'] = ['\''] ++ doubled '\'' (u ++ ['$']) := by
      simp [doubled]
    rw [hdoubled, infix_doubled_iff (p := delimiter []) (List.cons_ne_nil _ _) (by decide)] at hin
    have hsep := Text.infix_append_sep_iff (l := []) (m := u ++ ['$']) (List.cons_ne_nil '\'' [])
      (List.cons_ne_nil _ _ : delimiter [] ≠ []) (by simp)
    rw [List.nil_append, or_iff_right (by decide)] at hsep
    exact hsep.mp hin

/-- Two dollar signs end the block in the middle of a string. -/
theorem exists_cut
    (h : delimiter [] <:+: role.toList ∨ delimiter [] <:+: password.toList) :
    ∃ before after, blockText role password = before ++ delimiter [] ++ after ∧
      ¬ delimiter [] <:+: before ++ ['$'] ∧ lexFrom .start before = none := by
  by_cases hrole : delimiter [] <:+: role.toList
  · obtain ⟨rest, hrest⟩ : ∃ rest, blockText role password =
        blockStart.toList ++ (quoted '\'' role.toList ++ rest) := by
      simp only [blockText, blockHead, List.append_assoc]
      exact ⟨_, rfl⟩
    obtain ⟨u, v, hquoted, hno⟩ := exists_cut_quoted hrole
    refine ⟨blockStart.toList ++ '\'' :: doubled '\'' u, v ++ rest, ?_, ?_, ?_⟩
    · rw [hrest, hquoted]
      simp only [List.append_assoc, List.cons_append]
    · rw [List.append_assoc, fixed_parts.1.delimiter_infix_iff]
      exact hno
    · rw [fixed_parts.1.reads.lexFrom_append, lexFrom_unterminated]
      rfl
  · obtain ⟨rest, hrest⟩ : ∃ rest, blockText role password =
        blockHead role ++ (quoted '\'' password.toList ++ rest) := by
      simp only [blockText, List.append_assoc]
      exact ⟨_, rfl⟩
    obtain ⟨u, v, hquoted, hno⟩ := exists_cut_quoted (h.resolve_left hrole)
    refine ⟨blockHead role ++ '\'' :: doubled '\'' u, v ++ rest, ?_, ?_, ?_⟩
    · rw [hrest, hquoted]
      simp only [List.append_assoc, List.cons_append]
    · rw [List.append_assoc, delimiter_infix_blockHead_iff]
      exact not_or.mpr ⟨hrole, hno⟩
    · by_cases hnull : ∀ c ∈ role.toList, c.toNat ≠ 0
      · rw [lexFrom_blockHead hnull, lexFrom_unterminated]
        cases nameToken role.toList <;> rfl
      · simp only [not_forall, not_not] at hnull
        obtain ⟨c, hc, hnull⟩ := hnull
        exact lexFrom_of_null hnull (List.mem_append_left _ (mem_blockHead hc))

end Delimiter

section Setup

theorem scan_do : scan .start "DO $$".toList = some (.body [] [], [.word "do"]) := rfl

theorem lex_ensureReaderRole_of_null {c : Char} (hnull : c.toNat = 0)
    (hc : c ∈ blockText role password) : lex (ensureReaderRole role password) = none := by
  rw [lex, ensureReaderRole_toList]
  exact lexFrom_of_null hnull
    (List.mem_append_right _ (List.mem_append_left _ (List.mem_append_left _ hc)))

/-- The statement is read as a block that ends with the first two dollar signs. -/
theorem lex_ensureReaderRole {before after : List Char}
    (hnull : ∀ c ∈ blockText role password, c.toNat ≠ 0)
    (htext : blockText role password ++ delimiter [] = before ++ delimiter [] ++ after)
    (hno : ¬ delimiter [] <:+: before ++ ['$']) :
    lex (ensureReaderRole role password) = (lexFrom .start (after ++ ";".toList)).map fun ts =>
      [.word "do", .dollarString (String.ofList before)] ++ ts := by
  have hbefore : ∀ c ∈ before ++ delimiter [], c.toNat ≠ 0 := by
    intro c hc
    have hmem : c ∈ blockText role password ++ delimiter [] := by
      rw [htext]
      exact List.mem_append_left _ hc
    rcases List.mem_append.mp hmem with hmem | hmem
    · exact hnull c hmem
    · have hdollar : c = '$' := by simpa [delimiter] using hmem
      rw [hdollar]
      decide
  rw [lex, ensureReaderRole_toList, lexFrom_append scan_do, htext, List.append_assoc,
    lexFrom_body hbefore hno, Option.map_map]
  rfl

theorem lex_ensureReaderRole_whole (hnull : ∀ c ∈ blockText role password, c.toNat ≠ 0)
    (hno : ¬ (delimiter [] <:+: role.toList ∨ delimiter [] <:+: password.toList)) :
    lex (ensureReaderRole role password) = some [.word "do",
      .dollarString (String.ofList (blockText role password)), .punctuation ";"] := by
  have hend : lexFrom .start ([] ++ ";".toList) = some [.punctuation ";"] := rfl
  rw [lex_ensureReaderRole hnull (List.append_nil _).symm
    (mt delimiter_infix_blockText_iff.mp hno), hend]
  rfl

theorem mem_blockText {c : Char} (hc : c ∈ role.toList ++ password.toList) :
    c ∈ blockText role password := by
  simp only [blockText, List.mem_append]
  rcases List.mem_append.mp hc with hc | hc
  · exact .inl (.inl (.inl (.inl (.inl (.inl (mem_blockHead hc))))))
  · exact .inl (.inl (.inl (.inl (.inl (.inr (mem_quoted hc))))))

theorem roleBlock_inj {identifier identifier' : Token}
    (h : roleBlock identifier role password = roleBlock identifier' role password) :
    identifier = identifier' := by
  simp only [roleBlock, List.cons_append, List.cons.injEq, true_and] at h
  exact h.1

theorem SetsUpRole.not_null (h : SetsUpRole (ensureReaderRole role password) role password) :
    ∀ c ∈ blockText role password, c.toNat ≠ 0 := by
  obtain ⟨body, htext, -⟩ := h
  intro c hc hzero
  rw [lex_ensureReaderRole_of_null hzero hc] at htext
  cases htext

/-- Two dollar signs in the name or in the password end the block within a string. -/
theorem SetsUpRole.no_delimiter (h : SetsUpRole (ensureReaderRole role password) role password) :
    ¬ (delimiter [] <:+: role.toList ∨ delimiter [] <:+: password.toList) := by
  intro hin
  have hnull := h.not_null
  obtain ⟨body, htext, hbody⟩ := h
  obtain ⟨before, after, hcut, hfirst, hnone⟩ := exists_cut hin
  have hcut := congrArg (· ++ delimiter []) hcut
  rw [lex_ensureReaderRole hnull (hcut.trans (List.append_assoc ..)) hfirst] at htext
  obtain ⟨ts, -, hts⟩ := Option.map_eq_some_iff.mp htext
  simp only [List.cons_append, List.cons.injEq, Token.dollarString.injEq, true_and] at hts
  rw [← hts.1, lex, String.toList_ofList, hnone] at hbody
  cases hbody

theorem SetsUpRole.nameToken (h : SetsUpRole (ensureReaderRole role password) role password) :
    Sql.nameToken role.toList = some (.name role) := by
  have hnull : ∀ c ∈ role.toList ++ password.toList, c.toNat ≠ 0 := fun c hc =>
    h.not_null c (mem_blockText hc)
  obtain ⟨hrole, hpassword⟩ := List.forall_mem_append.mp hnull
  have hwhole := lex_ensureReaderRole_whole h.not_null h.no_delimiter
  obtain ⟨body, htext, hbody⟩ := h
  rw [htext] at hwhole
  simp only [Option.some.injEq, List.cons.injEq, Token.dollarString.injEq, true_and,
    and_true] at hwhole
  rw [hwhole, lex, String.toList_ofList, lexFrom_blockText hrole hpassword] at hbody
  obtain ⟨identifier, hname, hblock⟩ := Option.map_eq_some_iff.mp hbody
  rw [hname, roleBlock_inj hblock]

/-- The role is set up as it is meant exactly if the name and the password can be embedded. -/
theorem setsUpRole_iff (role password : String) :
    SetsUpRole (ensureReaderRole role password) role password ↔ Embeddable role password := by
  have hname : Sql.nameToken role.toList = some (.name role) ↔
      role.toList ≠ [] ∧ byteLength role.toList ≤ 63 := by
    have h := @nameToken_eq_some_iff role.toList
    rwa [String.ofList_toList] at h
  constructor
  · intro h
    obtain ⟨hnamed, hshort⟩ := hname.mp h.nameToken
    obtain ⟨hrole, hpassword⟩ := not_or.mp h.no_delimiter
    exact ⟨fun c hc => h.not_null c (mem_blockText hc), by simpa using hnamed, hshort, hrole,
      hpassword⟩
  · rintro ⟨hnull, hnamed, hshort, hrole', hpassword'⟩
    obtain ⟨hrole, hpassword⟩ := List.forall_mem_append.mp hnull
    have hread := lexFrom_blockText hrole hpassword
    rw [hname.mpr ⟨by simpa using hnamed, hshort⟩, Option.map_some] at hread
    -- What is read has no null character.
    have hblock : ∀ c ∈ blockText role password, c.toNat ≠ 0 := by
      intro c hc hzero
      rw [lexFrom_of_null hzero hc] at hread
      cases hread
    refine ⟨_, lex_ensureReaderRole_whole hblock (not_or.mpr ⟨hrole', hpassword'⟩), ?_⟩
    rw [lex, String.toList_ofList, hread]

/-- A password with two dollar signs is not embedded. -/
theorem password_ends_block : ¬ ∀ role password : String,
    SetsUpRole (ensureReaderRole role password) role password := by
  intro h
  have hin : delimiter [] <:+: "pa$$word".toList := ⟨"pa".toList, "word".toList, rfl⟩
  exact (h "dogbot_agent_reader" "pa$$word").no_delimiter (.inr hin)

end Setup

end DogBot
