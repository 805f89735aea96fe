import DogBot.Library.Sql
import DogBot.Library.Like

/-! # Conditions

Conditions on the text columns of a row: comparisons and their disjunctions. They
are read from the tokens by recursive descent; the concatenation binds more
tightly than the comparisons, and these more tightly than the disjunction.
-/

namespace Sql

inductive Term
  | column (name : String)
  | literal (text : String)
  | coalesce (a b : Term)
  | concat (a b : Term)
  deriving DecidableEq, Repr

inductive Condition
  | equal (a b : Term)
  | ilike (a pattern : Term)
  | or (a b : Condition)
  deriving DecidableEq, Repr

def expect (t : Token) : List Token → Option (List Token)
  | u :: ts => if u = t then some ts else none
  | [] => none

def isReserved (word : String) : Bool :=
  ["and", "as", "case", "false", "from", "ilike", "in", "is", "like", "not", "null", "or",
    "order", "select", "true", "where"].contains word

mutual

def readAtom : ℕ → List Token → Option (Term × List Token)
  | n + 1, .word "coalesce" :: .punctuation "(" :: ts => do
    let (a, ts) ← readTerm n ts
    let (b, ts) ← readTerm n (← expect (.punctuation ",") ts)
    return (.coalesce a b, ← expect (.punctuation ")") ts)
  | _, .word _ :: .punctuation "(" :: _ => none
  | _, .word name :: ts => if isReserved name then none else some (.column name, ts)
  | _, .string text :: ts => some (.literal text, ts)
  | _, _ => none

def readTerm : ℕ → List Token → Option (Term × List Token)
  | 0, _ => none
  | n + 1, ts => do
    let (a, ts) ← readAtom n ts
    readConcat n a ts

/-- Read the operands that are appended to a term. -/
def readConcat : ℕ → Term → List Token → Option (Term × List Token)
  | n + 1, a, .operator "||" :: ts => do
    let (b, ts) ← readAtom n ts
    readConcat n (.concat a b) ts
  | _, a, ts => some (a, ts)

end

def readComparison (n : ℕ) (ts : List Token) : Option (Condition × List Token) := do
  let (a, ts) ← readTerm n ts
  match ts with
  | .operator "=" :: ts => (readTerm n ts).map fun r => (.equal a r.1, r.2)
  | .word "ilike" :: ts => (readTerm n ts).map fun r => (.ilike a r.1, r.2)
  | _ => none

mutual

def readOperand : ℕ → List Token → Option (Condition × List Token)
  | n + 1, .punctuation "(" :: ts => do
    let (a, ts) ← readOr n ts
    return (a, ← expect (.punctuation ")") ts)
  | n, ts => readComparison n ts

def readOr : ℕ → List Token → Option (Condition × List Token)
  | 0, _ => none
  | n + 1, ts => do
    let (a, ts) ← readOperand n ts
    readAlternatives n a ts

/-- Read the conditions behind the first one of a disjunction. -/
def readAlternatives : ℕ → Condition → List Token → Option (Condition × List Token)
  | n + 1, a, .word "or" :: ts => do
    let (b, ts) ← readOperand n ts
    readAlternatives n (.or a b) ts
  | _, a, ts => some (a, ts)

end

/-- The condition of which these are all tokens. No term or condition is nested more deeply than
there are tokens. -/
def readCondition (ts : List Token) : Option Condition :=
  match readOr (4 * ts.length) ts with
  | some (a, []) => some a
  | _ => none

/-- The special characters of the patterns, unless others are chosen. -/
def wildcards : Like.Wildcards Char where
  many := '%'
  one := '_'
  escape := '\\'
  many_ne_one := by decide
  many_ne_escape := by decide
  one_ne_escape := by decide

def Term.eval (columns : String → Option String) : Term → Option String
  | .column name => columns name
  | .literal text => some text
  | .coalesce a b => (a.eval columns).or (b.eval columns)
  | .concat a b => do return (← a.eval columns) ++ (← b.eval columns)

def disjunction : Option Bool → Option Bool → Option Bool
  | some true, _ | _, some true => some true
  | some false, some false => some false
  | _, _ => none

/-- The truth of a condition, which is unknown where a value is null or a pattern is not one. -/
def Condition.eval (f : Like.Folding wildcards) (columns : String → Option String) :
    Condition → Option Bool
  | .equal a b => do return (← a.eval columns) == (← b.eval columns)
  | .ilike a pattern => do
    Like.ilike f (← a.eval columns).toList (← pattern.eval columns).toList
  | .or a b => disjunction (a.eval f columns) (b.eval f columns)

/-- The text is a condition that is true of the row. -/
def holds (f : Like.Folding wildcards) (columns : String → Option String) (s : String) : Bool :=
  match (lex s).bind readCondition with
  | some a => a.eval f columns = some true
  | none => false

variable {f : Like.Folding wildcards} {columns : String → Option String} {s : String}

theorem holds_iff : holds f columns s = true ↔
    ∃ a, (lex s).bind readCondition = some a ∧ a.eval f columns = some true := by
  rw [holds]
  cases (lex s).bind readCondition <;> simp

theorem disjunction_eq_true_iff {x y : Option Bool} :
    disjunction x y = some true ↔ x = some true ∨ y = some true := by
  rcases x with _ | _ | _ <;> rcases y with _ | _ | _ <;> simp [disjunction]

theorem Condition.eval_or_iff {a b : Condition} : (or a b).eval f columns = some true ↔
    a.eval f columns = some true ∨ b.eval f columns = some true :=
  disjunction_eq_true_iff

theorem Condition.eval_equal_iff {a b : Term} : (equal a b).eval f columns = some true ↔
    ∃ x, a.eval columns = some x ∧ b.eval columns = some x := by
  simp only [eval, Option.bind_eq_bind, Option.bind_eq_some_iff, Option.pure_def,
    Option.some.injEq, beq_iff_eq]
  constructor
  · rintro ⟨x, hx, _, hy, rfl⟩
    exact ⟨x, hx, hy⟩
  · rintro ⟨x, hx, hy⟩
    exact ⟨x, hx, x, hy, rfl⟩

end Sql
