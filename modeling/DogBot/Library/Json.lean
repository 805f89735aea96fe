import DogBot.Library.Text

/-! # JSON values

A JSON value as a parser delivers it, with the lookups a decoder makes and the
compact printer. The members of an object are an association list; a key is
looked up at its first entry. A number that is not an integer is kept as the
text it prints as.
-/

namespace Json

inductive Number
  | int (n : ℤ)
  | float (text : String)
  deriving DecidableEq, Repr

inductive Value
  | null
  | bool (b : Bool)
  | number (n : Number)
  | string (s : String)
  | array (items : List Value)
  | object (members : List (String × Value))
  deriving Repr

namespace Number

/-- The number as a signed 64-bit integer, if it is one. -/
def asI64 : Number → Option ℤ
  | int n => if -2 ^ 63 ≤ n ∧ n < 2 ^ 63 then some n else none
  | float _ => none

def print : Number → String
  | int n => toString n
  | float text => text

end Number

namespace Value

def asStr : Value → Option String
  | string s => some s
  | _ => none

def asI64 : Value → Option ℤ
  | number n => n.asI64
  | _ => none

def asArray : Value → Option (List Value)
  | array items => some items
  | _ => none

def asObject : Value → Option (List (String × Value))
  | object members => some members
  | _ => none

def get (v : Value) (key : String) : Option Value :=
  match v with
  | object members => members.lookup key
  | _ => none

/-- Text of a string literal: quotes, backslashes and control characters are escaped. -/
def escapeChar (c : Char) : List Char :=
  if c = '"' then ['\\', '"']
  else if c = '\\' then ['\\', '\\']
  else if c.toNat = 8 then ['\\', 'b']
  else if c.toNat = 9 then ['\\', 't']
  else if c.toNat = 10 then ['\\', 'n']
  else if c.toNat = 12 then ['\\', 'f']
  else if c.toNat = 13 then ['\\', 'r']
  else if c.toNat < 32 then
    ['\\', 'u', '0', '0', if c.toNat < 16 then '0' else '1', Nat.digitChar (c.toNat % 16)]
  else [c]

def printString (s : String) : String :=
  "\"" ++ String.ofList (s.toList.flatMap escapeChar) ++ "\""

mutual

def print : Value → String
  | null => "null"
  | bool b => if b then "true" else "false"
  | number n => n.print
  | string s => printString s
  | array items => "[" ++ ",".intercalate (printItems items) ++ "]"
  | object members => "\x7b" ++ ",".intercalate (printMembers members) ++ "\x7d"

def printItems : List Value → List String
  | [] => []
  | v :: items => v.print :: printItems items

def printMembers : List (String × Value) → List String
  | [] => []
  | (k, v) :: members => (printString k ++ ":" ++ v.print) :: printMembers members

end

def present : List (String × Option Value) → List (String × Value)
  | [] => []
  | (_, none) :: fields => present fields
  | (name, some v) :: fields => (name, v) :: present fields

def ofFields (fields : List (String × Option Value)) : Value := object (present fields)

variable {fields : List (String × Option Value)} {items : List Value}
  {members : List (String × Value)}

theorem map_fst_present_sublist (fields : List (String × Option Value)) :
    List.Sublist ((present fields).map Prod.fst) (fields.map Prod.fst) := by
  induction fields with
  | nil => exact List.Sublist.slnil
  | cons field fields ih =>
    obtain ⟨name, value⟩ := field
    cases value with
    | none => exact ih.cons _
    | some v => exact ih.cons_cons _

theorem lookup_present (hn : (fields.map Prod.fst).Nodup) (key : String) :
    (present fields).lookup key = (fields.lookup key).join := by
  induction fields with
  | nil => rfl
  | cons field fields ih =>
    obtain ⟨name, value⟩ := field
    obtain ⟨hname, hn⟩ := List.nodup_cons.mp hn
    specialize ih hn
    by_cases he : key = name
    · subst he
      cases value with
      | none =>
        have hnone : fields.lookup key = none := by
          rw [List.lookup_eq_none_iff]
          intro p hp
          simpa using fun he : key = p.1 => hname (List.mem_map.mpr ⟨p, hp, he.symm⟩)
        rw [present, ih, hnone, List.lookup_cons_self]
        rfl
      | some v => simp [present]
    · have hb : (key == name) = false := beq_false_of_ne he
      cases value with
      | none => simpa only [present, List.lookup_cons, hb] using ih
      | some v => simpa only [present, List.lookup_cons, hb] using ih

section OneLine

/-- A text without line ends. -/
def OneLine (text : String) : Prop := ∀ c ∈ text.toList, c ≠ '\n' ∧ c ≠ '\r'

theorem OneLine.append {s t : String} (hs : OneLine s) (ht : OneLine t) : OneLine (s ++ t) := by
  intro c hc
  rw [String.toList_append, List.mem_append] at hc
  exact hc.elim (hs c) (ht c)

theorem oneLine_intercalate {texts : List String} (h : ∀ text ∈ texts, OneLine text) :
    OneLine (",".intercalate texts) := by
  induction texts with
  | nil => simp [OneLine]
  | cons text texts ih =>
    obtain ⟨htext, h⟩ := List.forall_mem_cons.mp h
    cases texts with
    | nil => simpa using htext
    | cons text' texts =>
      rw [String.intercalate_cons_cons]
      exact (htext.append (by simp [OneLine])).append (ih h)

theorem escapeChar_ne (d : Char) : ∀ c ∈ escapeChar d, c ≠ '\n' ∧ c ≠ '\r' := by
  have hdigit : ∀ n < 16, Nat.digitChar n ≠ '\n' ∧ Nat.digitChar n ≠ '\r' := by decide
  have hlast := hdigit (d.toNat % 16) (by omega)
  have hself : ¬ d.toNat = 10 → ¬ d.toNat = 13 → d ≠ '\n' ∧ d ≠ '\r' := fun hlf hcr =>
    ⟨fun he => hlf (by rw [he]; rfl), fun he => hcr (by rw [he]; rfl)⟩
  unfold escapeChar
  repeat' split
  all_goals simp [hlast]
  exact hself ‹_› ‹_›

theorem oneLine_printString (s : String) : OneLine (printString s) := by
  have hescape : OneLine (String.ofList (s.toList.flatMap escapeChar)) := by
    intro c hc
    rw [String.toList_ofList, List.mem_flatMap] at hc
    obtain ⟨d, -, hd⟩ := hc
    exact escapeChar_ne d c hd
  exact (OneLine.append (by simp [OneLine]) hescape).append (by simp [OneLine])

theorem oneLine_array (h : ∀ v ∈ items, OneLine v.print) : OneLine (array items).print := by
  have hitems : ∀ text ∈ printItems items, OneLine text := by
    induction items with
    | nil => simp [printItems]
    | cons v items ih =>
      obtain ⟨hv, h⟩ := List.forall_mem_cons.mp h
      exact List.forall_mem_cons.mpr ⟨hv, ih h⟩
  exact (OneLine.append (by simp [OneLine]) (oneLine_intercalate hitems)).append (by simp [OneLine])

theorem oneLine_object (h : ∀ m ∈ members, OneLine m.2.print) : OneLine (object members).print := by
  have hmembers : ∀ text ∈ printMembers members, OneLine text := by
    induction members with
    | nil => simp [printMembers]
    | cons m members ih =>
      obtain ⟨hm, h⟩ := List.forall_mem_cons.mp h
      have hkey := (oneLine_printString m.1).append (by simp [OneLine] : OneLine ":")
      exact List.forall_mem_cons.mpr ⟨hkey.append hm, ih h⟩
  exact (OneLine.append (by simp [OneLine]) (oneLine_intercalate hmembers)).append
    (by simp [OneLine])

theorem oneLine_ofFields (h : ∀ field ∈ fields, ∀ v, field.2 = some v → OneLine v.print) :
    OneLine (ofFields fields).print := by
  apply oneLine_object
  induction fields with
  | nil => simp [present]
  | cons field fields ih =>
    obtain ⟨name, value⟩ := field
    obtain ⟨hvalue, hfields⟩ := List.forall_mem_cons.mp h
    cases value with
    | none => exact ih hfields
    | some v => exact List.forall_mem_cons.mpr ⟨hvalue v rfl, ih hfields⟩

theorem trim_print_object (members : List (String × Value)) :
    Text.trim (object members).print = (object members).print := by
  have hboth : Text.trimChars (object members).print.toList = (object members).print.toList := by
    rw [print, String.toList_append, String.toList_append, Text.trimChars_eq_self_iff]
    constructor
    · exact List.dropWhile_cons_of_neg (by decide)
    · exact List.rdropWhile_concat_neg _ _ _ (by decide)
  rw [Text.trim, hboth, String.ofList_toList]

theorem dropWhile_print_object (members : List (String × Value)) (l : List Char) :
    ((object members).print.toList ++ l).dropWhile Text.isWhitespace =
      (object members).print.toList ++ l := by
  rw [print, String.toList_append, String.toList_append]
  exact List.dropWhile_cons_of_neg (by decide)

end OneLine

end Value

end Json
