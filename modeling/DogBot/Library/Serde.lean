import DogBot.Library.Json

/-! # Derived decoders

What serde derives for a structure that denies unknown fields, and for the
types of its fields, over a JSON value that was already parsed.
-/

namespace Serde
open Json

/-- The fields of a structure. An object has no key twice and no unknown one; an array lists the
fields in order, at least those that need to be there. -/
def structFields (names : List String) (required : ℕ) : Value → Option (String → Option Value)
  | .object members =>
    if (members.map Prod.fst).Nodup ∧ ∀ key ∈ members.map Prod.fst, key ∈ names then
      some fun name => members.lookup name
    else none
  | .array items =>
    if required ≤ items.length ∧ items.length ≤ names.length then
      some fun name => (names.zip items).lookup name
    else none
  | _ => none

def text (field : Option Value) : Option String := field.bind Value.asStr

def optionalText : Option Value → Option (Option String)
  | none => some none
  | some .null => some none
  | some v => v.asStr.map some

def listOrEmpty {α : Type} (decode : Value → Option α) : Option Value → Option (List α)
  | none => some []
  | some (.array items) => items.mapM decode
  | some _ => none

theorem structFields_ofFields {names : List String} {fields : List (String × Option Value)}
    (hnames : fields.map Prod.fst = names) (hn : names.Nodup) (required : ℕ) :
    structFields names required (Value.ofFields fields) =
      some fun name => (fields.lookup name).join := by
  subst hnames
  have hsub := Value.map_fst_present_sublist fields
  have hknown : ((Value.present fields).map Prod.fst).Nodup ∧
      ∀ key ∈ (Value.present fields).map Prod.fst, key ∈ fields.map Prod.fst :=
    ⟨hn.sublist hsub, fun key hkey => hsub.subset hkey⟩
  have hlookup : (fun name => (Value.present fields).lookup name) =
      fun name => (fields.lookup name).join := by
    ext1 name
    exact Value.lookup_present hn name
  rw [← hlookup]
  exact if_pos hknown

@[simp] theorem text_string (s : String) : text (some (.string s)) = some s := rfl

@[simp] theorem optionalText_map_string (s : Option String) :
    optionalText (s.map .string) = some s := by
  cases s with
  | none => rfl
  | some s => rfl

theorem listOrEmpty_map {α : Type} {decode : Value → Option α} {encode : α → Value} {l : List α}
    (h : ∀ a ∈ l, decode (encode a) = some a) :
    listOrEmpty decode (some (.array (l.map encode))) = some l := by
  change (l.map encode).mapM decode = some l
  induction l with
  | nil => rfl
  | cons a l ih =>
    obtain ⟨ha, h⟩ := List.forall_mem_cons.mp h
    rw [List.map_cons, List.mapM_cons, ha, ih h]
    rfl

end Serde
