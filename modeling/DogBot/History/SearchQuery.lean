import Mathlib.Data.List.Forall2
import DogBot.Library.Sql

/-! # The search query

The history helper puts its filters into one query, each as a string literal.
The query is read as a selection of the same form for all filters: a condition
for each filter that is given, and a limit.
-/

namespace DogBot

open Sql

/-- The filters of a search, as they are parsed from the command line. -/
structure SearchArgs where
  since : Option String
  «until» : Option String
  sender : Option String
  contains : Option String
  platformAccount : Option String
  conversation : Option String
  limit : ℤ

def maxLimit : ℤ := 200

/-- The separators of files, groups, records and units count as white space, too. -/
def isPythonSpace (c : Char) : Bool :=
  Text.isWhitespace c || (0x1C ≤ c.toNat && c.toNat ≤ 0x1F)

def strip (s : String) : String :=
  String.ofList ((s.toList.dropWhile isPythonSpace).rdropWhile isPythonSpace)

def sqlLiteral (value : String) : String := "'" ++ Text.replace '\'' "''" value ++ "'"

/-- What an argument adds, unless it is absent or empty. -/
def whenGiven {α : Type} (value : Option String) (f : String → α) : List α :=
  match value with
  | some value => if value = "" then [] else [f value]
  | none => []

def senderCondition (sender : String) : String :=
  "(actor_id = " ++ (sqlLiteral sender ++
    (" OR coalesce(actor_display, '') ILIKE '%' || " ++ (sqlLiteral sender ++ " || '%')")))

def searchConditions (args : SearchArgs) : List String :=
  ["true"] ++
  whenGiven args.since (fun since => "created_at >= " ++ (sqlLiteral since ++ "::timestamptz")) ++
  whenGiven args.until (fun until_ => "created_at < " ++ (sqlLiteral until_ ++ "::timestamptz")) ++
  whenGiven args.sender senderCondition ++
  whenGiven args.contains (fun contains =>
    "strpos(lower(plain_text), lower(" ++ (sqlLiteral contains ++ ")) > 0")) ++
  whenGiven args.platformAccount (fun platformAccount =>
    "platform_account = " ++ sqlLiteral platformAccount) ++
  whenGiven args.conversation (fun conversation =>
    "conversation_id = " ++ sqlLiteral conversation)

def buildSearchQuery (args : SearchArgs) : String :=
  let limit := max 1 (min args.limit maxLimit)
  strip (
    "\nSELECT\n    created_at,\n    platform,\n    platform_account,\n    conversation_id,\n" ++
    "    chat_type,\n    actor_id,\n    coalesce(actor_display, '') AS actor_display,\n" ++
    "    message_id,\n    plain_text\nFROM agent_read.messages\nWHERE " ++
    " AND ".intercalate (searchConditions args) ++
    "\nORDER BY created_at DESC, id DESC\nLIMIT " ++ toString limit ++ ";\n")

def senderTokens (sender : String) : List Token :=
  [.punctuation "(", .word "actor_id", .operator "=", .string sender, .word "or",
    .word "coalesce", .punctuation "(", .word "actor_display", .punctuation ",", .string "",
    .punctuation ")", .word "ilike", .string "%", .operator "||", .string sender,
    .operator "||", .string "%", .punctuation ")"]

/-- The tokens of the conditions of the filters. A filter that is empty is not given. -/
def conditionTokens (args : SearchArgs) : List (List Token) :=
  let condition (value : Option String) (tokens : String → List Token) : List (List Token) :=
    (value.toList.filter (· ≠ "")).map tokens
  let timeTokens (comparison time : String) : List Token :=
    [.word "created_at", .operator comparison, .string time, .punctuation "::",
      .word "timestamptz"]
  let containsTokens (contains : String) : List Token :=
    [.word "strpos", .punctuation "(", .word "lower", .punctuation "(", .word "plain_text",
      .punctuation ")", .punctuation ",", .word "lower", .punctuation "(", .string contains,
      .punctuation ")", .punctuation ")", .operator ">", .number 0]
  let equalTokens (column value : String) : List Token :=
    [.word column, .operator "=", .string value]
  condition args.since (timeTokens ">=") ++ condition args.until (timeTokens "<") ++
    condition args.sender senderTokens ++ condition args.contains containsTokens ++
    condition args.platformAccount (equalTokens "platform_account") ++
    condition args.conversation (equalTokens "conversation_id")

def selectTokens : List Token :=
  [.word "select", .word "created_at", .punctuation ",", .word "platform", .punctuation ",",
    .word "platform_account", .punctuation ",", .word "conversation_id", .punctuation ",",
    .word "chat_type", .punctuation ",", .word "actor_id", .punctuation ",", .word "coalesce",
    .punctuation "(", .word "actor_display", .punctuation ",", .string "", .punctuation ")",
    .word "as", .word "actor_display", .punctuation ",", .word "message_id", .punctuation ",",
    .word "plain_text", .word "from", .word "agent_read", .punctuation ".", .word "messages",
    .word "where"]

def orderTokens (limit : ℕ) : List Token :=
  [.word "order", .word "by", .word "created_at", .word "desc", .punctuation ",", .word "id",
    .word "desc", .word "limit", .number limit, .punctuation ";"]

/-- The selection: every filter that is given is a condition, and the limit is at least 1 and at
most 200. -/
def searchTokens (args : SearchArgs) : List Token :=
  selectTokens ++ .word "true" ::
    (conditionTokens args).flatMap (fun condition => .word "and" :: condition) ++
    orderTokens (max 1 (min args.limit 200)).toNat

def SearchArgs.texts (args : SearchArgs) : List (Option String) :=
  [args.since, args.until, args.sender, args.contains, args.platformAccount, args.conversation]

/-- The filters that are given have no null character. -/
def SearchArgs.NullFree (args : SearchArgs) : Prop :=
  ∀ value, some value ∈ args.texts → ∀ c ∈ value.toList, c.toNat ≠ 0

variable {args : SearchArgs}

theorem sqlLiteral_toList (s : String) : (sqlLiteral s).toList = quoted '\'' s.toList := by
  simp [sqlLiteral, Text.replace, quoted, doubled]

section Conditions

theorem condition_parts :
    Reads "created_at >= " [.word "created_at", .operator ">="] ∧
    Reads "created_at < " [.word "created_at", .operator "<"] ∧
    ReadsBefore "::timestamptz" [.punctuation "::", .word "timestamptz"] ∧
    Reads "(actor_id = " [.punctuation "(", .word "actor_id", .operator "="] ∧
    Reads " OR coalesce(actor_display, '') ILIKE '%' || " [.word "or", .word "coalesce",
      .punctuation "(", .word "actor_display", .punctuation ",", .string "", .punctuation ")",
      .word "ilike", .string "%", .operator "||"] ∧
    ReadsBefore " || '%')" [.operator "||", .string "%", .punctuation ")"] ∧
    Reads "strpos(lower(plain_text), lower(" [.word "strpos", .punctuation "(", .word "lower",
      .punctuation "(", .word "plain_text", .punctuation ")", .punctuation ",", .word "lower",
      .punctuation "("] ∧
    ReadsBefore ")) > 0" [.punctuation ")", .punctuation ")", .operator ">", .number 0] ∧
    Reads "platform_account = " [.word "platform_account", .operator "="] ∧
    Reads "conversation_id = " [.word "conversation_id", .operator "="] ∧
    ReadsBefore "true" [.word "true"] ∧ Reads " AND " [.word "and"] := by
  refine ⟨.ofList ?_, .ofList ?_, .ofList ?_, .ofList ?_, .ofList ?_, .ofList ?_, .ofList ?_,
    .ofList ?_, .ofList ?_, .ofList ?_, .ofList ?_, .ofList ?_⟩
  all_goals decide +kernel

theorem forall₂_whenGiven {value : Option String} {f : String → String}
    {g : String → List Token} (h : ∀ v, value = some v → ReadsBefore (f v) (g v)) :
    List.Forall₂ ReadsBefore (whenGiven value f) ((value.toList.filter (· ≠ "")).map g) := by
  cases value with
  | none => exact .nil
  | some v =>
    by_cases hv : v = ""
    · simp [whenGiven, hv]
    · simpa [whenGiven, hv] using h v rfl

theorem readsBefore_time {time start : String} {comparison : String}
    (hstart : Reads start [.word "created_at", .operator comparison])
    (htime : ∀ c ∈ time.toList, c.toNat ≠ 0) :
    ReadsBefore (start ++ (sqlLiteral time ++ "::timestamptz")) [.word "created_at",
      .operator comparison, .string time, .punctuation "::", .word "timestamptz"] := by
  obtain ⟨-, -, hcast, -⟩ := condition_parts
  exact hstart.before (readsBefore_quoted_append (sqlLiteral_toList time) htime (by decide) hcast)

theorem readsBefore_equal {value start column : String}
    (hstart : Reads start [.word column, .operator "="])
    (hvalue : ∀ c ∈ value.toList, c.toNat ≠ 0) :
    ReadsBefore (start ++ sqlLiteral value) [.word column, .operator "=", .string value] :=
  hstart.before (readsBefore_quoted (sqlLiteral_toList value) hvalue)

theorem readsBefore_senderCondition {sender : String}
    (hsender : ∀ c ∈ sender.toList, c.toNat ≠ 0) :
    ReadsBefore (senderCondition sender) (senderTokens sender) := by
  obtain ⟨-, -, -, hactor, hor, hlike, -⟩ := condition_parts
  have hlater := hor.before
    (readsBefore_quoted_append (sqlLiteral_toList sender) hsender (by decide) hlike)
  refine hactor.before (readsBefore_quoted_append (sqlLiteral_toList sender) hsender ?_ hlater)
  rw [String.toList_append]
  exact beginsToken_append (by decide) _

theorem forall₂_searchConditions (h : args.NullFree) :
    List.Forall₂ ReadsBefore (searchConditions args) ([.word "true"] :: conditionTokens args) := by
  obtain ⟨hsince, huntil, -, -, -, -, hstrpos, hzero, haccount, hconversation, htrue, -⟩ :=
    condition_parts
  have hnull : ∀ {value : Option String} {v : String}, value = some v → value ∈ args.texts →
      ∀ c ∈ v.toList, c.toNat ≠ 0 := fun hv hvalue => h _ (hv ▸ hvalue)
  refine .cons htrue ?_
  refine List.rel_append (List.rel_append (List.rel_append (List.rel_append (List.rel_append
    (forall₂_whenGiven fun v hv => ?_) (forall₂_whenGiven fun v hv => ?_))
    (forall₂_whenGiven fun v hv => ?_)) (forall₂_whenGiven fun v hv => ?_))
    (forall₂_whenGiven fun v hv => ?_)) (forall₂_whenGiven fun v hv => ?_)
  · exact readsBefore_time hsince (hnull hv (by simp [SearchArgs.texts]))
  · exact readsBefore_time huntil (hnull hv (by simp [SearchArgs.texts]))
  · exact readsBefore_senderCondition (hnull hv (by simp [SearchArgs.texts]))
  · have hcontains := hnull hv (by simp [SearchArgs.texts])
    exact hstrpos.before
      (readsBefore_quoted_append (sqlLiteral_toList v) hcontains (by decide) hzero)
  · exact readsBefore_equal haccount (hnull hv (by simp [SearchArgs.texts]))
  · exact readsBefore_equal hconversation (hnull hv (by simp [SearchArgs.texts]))

theorem readsBefore_intercalate {first : String} {conditions : List String} {ts : List Token}
    {tss : List (List Token)} (h : List.Forall₂ ReadsBefore (first :: conditions) (ts :: tss)) :
    ReadsBefore (" AND ".intercalate (first :: conditions))
      (ts ++ tss.flatMap fun condition => .word "and" :: condition) := by
  obtain ⟨hfirst, hrest⟩ := List.forall₂_cons.mp h
  have hand : Reads " AND " [.word "and"] := by
    obtain ⟨-, -, -, -, -, -, -, -, -, -, -, hand⟩ := condition_parts
    exact hand
  induction hrest generalizing first ts with
  | nil => simpa using hfirst
  | @cons second us conditions tss hsecond hrest ih =>
    intro l hl
    have hnext := ih (.cons hsecond hrest) hsecond l hl
    have hseparates := separates_append (p := " AND ".toList) (by decide) (by decide)
    rw [String.intercalate_cons_cons, String.toList_append, String.toList_append,
      List.append_assoc, List.append_assoc, hfirst _ (hseparates _), hand.lexFrom_append, hnext]
    simp [Function.comp_def]

end Conditions

section Query

theorem rdropWhile_append_newline (l : List Char) :
    (l ++ [';', '\n']).rdropWhile isPythonSpace = l ++ [';'] := by
  have hsplit : l ++ [';', '\n'] = l ++ [';'] ++ ['\n'] := by simp
  rw [hsplit, List.rdropWhile_concat_pos _ _ _ (by decide),
    List.rdropWhile_concat_neg _ _ _ (by decide)]

theorem strip_query {s : String} {l : List Char}
    (h : s.toList = '\n' :: 'S' :: (l ++ [';', '\n'])) :
    (strip s).toList = 'S' :: (l ++ [';']) := by
  rw [strip, h, List.dropWhile_cons_of_pos (by decide), List.dropWhile_cons_of_neg (by decide),
    ← List.cons_append, rdropWhile_append_newline, String.toList_ofList]
  rfl

theorem query_parts :
    Reads "\nSELECT\n    created_at,\n    platform,\n    platform_account,\n    conversation_id,\n"
      [.word "select", .word "created_at", .punctuation ",", .word "platform", .punctuation ",",
        .word "platform_account", .punctuation ",", .word "conversation_id", .punctuation ","] ∧
    Reads "    chat_type,\n    actor_id,\n    coalesce(actor_display, '') AS actor_display,\n"
      [.word "chat_type", .punctuation ",", .word "actor_id", .punctuation ",",
        .word "coalesce", .punctuation "(", .word "actor_display", .punctuation ",", .string "",
        .punctuation ")", .word "as", .word "actor_display", .punctuation ","] ∧
    Reads "    message_id,\n    plain_text\nFROM agent_read.messages\nWHERE "
      [.word "message_id", .punctuation ",", .word "plain_text", .word "from",
        .word "agent_read", .punctuation ".", .word "messages", .word "where"] ∧
    Reads "\nORDER BY created_at DESC, id DESC\nLIMIT " [.word "order", .word "by",
      .word "created_at", .word "desc", .punctuation ",", .word "id", .word "desc",
      .word "limit"] := by
  refine ⟨.ofList ?_, .ofList ?_, .ofList ?_, .ofList ?_⟩
  all_goals decide +kernel

theorem lexFrom_limit (limit : ℤ) (h : 0 ≤ limit) :
    lexFrom .start ((toString limit).toList ++ [';']) =
      some [.number limit.toNat, .punctuation ";"] := by
  obtain ⟨n, rfl⟩ := Int.eq_ofNat_of_zero_le h
  rw [Text.toString_natCast, lexFrom_append (scan_repr n)]
  rfl

theorem lex_strip {first second third conditions order limit : String} {rest : List Char}
    (hfirst : first.toList = '\n' :: 'S' :: rest) :
    lex (strip (first ++ second ++ third ++ conditions ++ order ++ limit ++ ";\n")) =
      lexFrom .start (first.toList ++ (second.toList ++ (third.toList ++ (conditions.toList ++
        (order.toList ++ (limit.toList ++ [';'])))))) := by
  have hquery : (first ++ second ++ third ++ conditions ++ order ++ limit ++ ";\n").toList =
      '\n' :: 'S' :: (rest ++ (second.toList ++ (third.toList ++ (conditions.toList ++
        (order.toList ++ limit.toList)))) ++ [';', '\n']) := by
    simp [hfirst]
  rw [lex, strip_query hquery, hfirst, List.cons_append, List.cons_append,
    @lexFrom_start_of_isSpace '\n' rfl]
  simp only [List.append_assoc]

/-- The query is read as a selection in which every filter that is given is a string. -/
theorem lex_buildSearchQuery (h : args.NullFree) :
    lex (buildSearchQuery args) = some (searchTokens args) := by
  obtain ⟨hfirst, hsecond, hthird, horder⟩ := query_parts
  have hconditions : ReadsBefore (" AND ".intercalate (searchConditions args))
      (.word "true" ::
        (conditionTokens args).flatMap fun condition => .word "and" :: condition) :=
    readsBefore_intercalate (forall₂_searchConditions h)
  have hseparates := separates_append
    (p := "\nORDER BY created_at DESC, id DESC\nLIMIT ".toList) (by decide) (by decide)
  have hlimit := lexFrom_limit (max 1 (min args.limit maxLimit)) (by omega)
  rw [buildSearchQuery, lex_strip String.toList_ofList, hfirst.lexFrom_append,
    hsecond.lexFrom_append, hthird.lexFrom_append, hconditions _ (hseparates _),
    horder.lexFrom_append, hlimit]
  rfl

/-- A quote, a semicolon and a comment in a filter stay in its string. -/
theorem lex_buildSearchQuery_comment :
    let args : SearchArgs :=
      { since := none, «until» := some "", sender := some "x' OR 1=1; --",
        contains := some "/* \\ $$\n", platformAccount := none, conversation := some "''",
        limit := -3 }
    lex (buildSearchQuery args) = some (selectTokens ++ [.word "true", .word "and",
      .punctuation "(", .word "actor_id", .operator "=", .string "x' OR 1=1; --", .word "or",
      .word "coalesce", .punctuation "(", .word "actor_display", .punctuation ",", .string "",
      .punctuation ")", .word "ilike", .string "%", .operator "||", .string "x' OR 1=1; --",
      .operator "||", .string "%", .punctuation ")", .word "and", .word "strpos",
      .punctuation "(", .word "lower", .punctuation "(", .word "plain_text", .punctuation ")",
      .punctuation ",", .word "lower", .punctuation "(", .string "/* \\ $$\n",
      .punctuation ")", .punctuation ")", .operator ">", .number 0, .word "and",
      .word "conversation_id", .operator "=", .string "''"] ++ orderTokens 1) := by
  refine lex_buildSearchQuery ?_
  intro value hvalue
  simp only [SearchArgs.texts, List.mem_cons, Option.some.injEq, List.not_mem_nil, or_false,
    reduceCtorEq, false_or] at hvalue
  rcases hvalue with rfl | rfl | rfl | rfl <;> simp

end Query

end DogBot
