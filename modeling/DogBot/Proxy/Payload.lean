import DogBot.Library.Multimap
import DogBot.Proxy.Request
import Mathlib.Data.List.Forall2

/-! # Rewritten payloads

The payload of a request to the messages endpoint is forwarded with the model of
the provider and without the type of custom tools. Everything else in it is kept,
and a payload that has been rewritten is not changed by being rewritten again.
-/

namespace DogBot.Proxy

open Json

/-- The payload that is forwarded in the place of one that was read. -/
def rewritePayload (model : String) : Value → Value
  | .object members =>
    .object (stripAnthropicCustomToolTypes (insertMember "model" (.string model) members))
  | payload => payload

/-- A tool without its type if that is the type of custom tools, and with all its other members. -/
structure StrippedTool (tool tool' : Value) : Prop where
  custom : tool.get "type" = some (.string "custom") → tool'.get "type" = none
  other : tool.get "type" ≠ some (.string "custom") → tool' = tool
  kept : ∀ key, key ≠ "type" → tool'.get key = tool.get key

/-- What a payload means after it was rewritten. -/
structure RewrittenPayload (model : String) (payload payload' : Value) : Prop where
  other : payload.asObject = none → payload' = payload
  model : payload.asObject ≠ none → payload'.get "model" = some (.string model)
  kept : ∀ key, key ≠ "model" → (∀ tools, key = "tools" → payload.get key ≠ some (.array tools)) →
    payload'.get key = payload.get key
  tools : ∀ tools, payload.get "tools" = some (.array tools) → ∃ tools',
    payload'.get "tools" = some (.array tools') ∧ List.Forall₂ StrippedTool tools tools'

/-- The value of a member with the given key, after the tools were stripped. -/
def stripMember (key : String) : Value → Value
  | .array tools => if key = "tools" then .array (tools.map stripToolType) else .array tools
  | value => value

section Members

variable {key : String} {value : Value} {members : List (String × Value)}

theorem stripAnthropicCustomToolTypes_eq (members : List (String × Value)) :
    stripAnthropicCustomToolTypes members = members.map fun m => (m.1, stripMember m.1 m.2) := by
  rw [stripAnthropicCustomToolTypes]
  refine List.map_congr_left fun m _ => ?_
  obtain ⟨key, value⟩ := m
  cases value with
  | array tools =>
    by_cases hkey : key = "tools"
    · simp only [stripMember, if_pos hkey]
    · simp only [stripMember, if_neg hkey]
  | _ => rfl

theorem lookup_insertMember (key : String) (value : Value) (members : List (String × Value))
    (k : String) : (insertMember key value members).lookup k =
      if k = key then some value else members.lookup k := by
  induction members with
  | nil =>
    rw [insertMember, List.lookup_cons]
    split_ifs with hk
    · simp [hk]
    · simp [beq_false_of_ne hk]
  | cons m members ih =>
    obtain ⟨k', v⟩ := m
    rw [insertMember]
    by_cases hk : k = key
    · subst hk
      rw [if_pos rfl] at ih ⊢
      split_ifs with hhead hlt
      · simp
      · simp
      · rw [List.lookup_cons, beq_false_of_ne fun he => hhead he.symm]
        exact ih
    · rw [if_neg hk] at ih ⊢
      split_ifs with hhead hlt
      · subst hhead
        rw [List.lookup_cons, List.lookup_cons, beq_false_of_ne hk]
      · rw [List.lookup_cons, beq_false_of_ne hk]
      · rw [List.lookup_cons, List.lookup_cons, ih]

theorem lookup_stripAnthropicCustomToolTypes (members : List (String × Value)) (key : String) :
    (stripAnthropicCustomToolTypes members).lookup key =
      (members.lookup key).map (stripMember key) := by
  rw [stripAnthropicCustomToolTypes_eq]
  induction members with
  | nil => rfl
  | cons m members ih =>
    obtain ⟨k, v⟩ := m
    rw [List.map_cons, List.lookup_cons, List.lookup_cons]
    by_cases hk : key = k
    · subst hk
      simp
    · rw [beq_false_of_ne hk]
      exact ih

theorem insertMember_insertMember : insertMember key value (insertMember key value members) =
    insertMember key value members := by
  induction members with
  | nil => simp [insertMember]
  | cons m members ih =>
    obtain ⟨k, v⟩ := m
    rw [insertMember]
    split_ifs with hhead hlt
    · rw [insertMember, if_pos rfl]
    · rw [insertMember, if_pos rfl]
    · rw [insertMember, if_neg hhead, if_neg hlt, ih]

theorem strip_insertMember (hvalue : stripMember key value = value) :
    stripAnthropicCustomToolTypes (insertMember key value members) =
      insertMember key value (stripAnthropicCustomToolTypes members) := by
  rw [stripAnthropicCustomToolTypes_eq, stripAnthropicCustomToolTypes_eq]
  induction members with
  | nil => simp [insertMember, hvalue]
  | cons m members ih =>
    obtain ⟨k, v⟩ := m
    rw [insertMember, List.map_cons, insertMember]
    split_ifs with hhead hlt
    · simp only [List.map_cons, hvalue]
    · simp only [List.map_cons, hvalue]
    · rw [List.map_cons, ih]

end Members

section Tools

theorem strippedTool (tool : Value) : StrippedTool tool (stripToolType tool) := by
  cases tool with
  | object members =>
    rw [stripToolType]
    have hcustom : ((Value.object members).get "type").bind Value.asStr = some "custom" ↔
        (Value.object members).get "type" = some (.string "custom") := by
      cases (Value.object members).get "type" with
      | none => simp
      | some value => cases value <;> simp [Value.asStr]
    have hget : ∀ key, (Value.object (members.filter fun m => m.1 ≠ "type")).get key =
        if key ≠ "type" then members.lookup key else none := by
      intro key
      have hlookup := @Multimap.lookup_filter _ _ _ members (fun key => decide (key ≠ "type")) key
      rw [Value.get]
      simpa only [decide_eq_true_eq] using hlookup
    split_ifs with h
    · refine ⟨fun _ => ?_, fun hother => absurd (hcustom.mp h) hother, fun key hkey => ?_⟩
      · rw [hget, if_neg (by simp)]
      · rw [hget, if_pos hkey]
        rfl
    · exact ⟨fun hc => absurd (hcustom.mpr hc) h, fun _ => rfl, fun _ _ => rfl⟩
  | _ => exact ⟨fun _ => rfl, fun _ => rfl, fun _ _ => rfl⟩

theorem stripToolType_stripToolType (tool : Value) :
    stripToolType (stripToolType tool) = stripToolType tool := by
  have hstripped := strippedTool tool
  by_cases hcustom : tool.get "type" = some (.string "custom")
  · refine (strippedTool _).other ?_
    rw [hstripped.custom hcustom]
    simp
  · rw [hstripped.other hcustom, hstripped.other hcustom]

theorem stripMember_stripMember (key : String) (value : Value) :
    stripMember key (stripMember key value) = stripMember key value := by
  cases value with
  | array tools =>
    by_cases hkey : key = "tools"
    · simp [stripMember, hkey, stripToolType_stripToolType]
    · simp [stripMember, hkey]
  | _ => rfl

end Tools

section Payload

variable (model : String) (payload : Value)

theorem rewritePayload_rewritePayload :
    rewritePayload model (rewritePayload model payload) = rewritePayload model payload := by
  cases payload with
  | object members =>
    have hstrip : stripAnthropicCustomToolTypes (stripAnthropicCustomToolTypes members) =
        stripAnthropicCustomToolTypes members := by
      simp [stripAnthropicCustomToolTypes_eq, stripMember_stripMember]
    rw [rewritePayload, rewritePayload, strip_insertMember rfl, strip_insertMember rfl,
      strip_insertMember rfl, hstrip, insertMember_insertMember]
  | _ => rfl

theorem rewrittenPayload : RewrittenPayload model payload (rewritePayload model payload) := by
  cases payload with
  | object members =>
    have hget : ∀ key, (rewritePayload model (.object members)).get key =
        (if key = "model" then some (.string model) else members.lookup key).map
          (stripMember key) := by
      intro key
      rw [← lookup_insertMember]
      exact lookup_stripAnthropicCustomToolTypes _ key
    refine ⟨nofun, fun _ => ?_, fun key hkey htools => ?_, fun tools htools => ?_⟩
    · rw [hget, if_pos rfl]
      rfl
    · rw [hget, if_neg hkey]
      change (members.lookup key).map _ = members.lookup key
      change ∀ tools, key = "tools" → members.lookup key ≠ _ at htools
      cases hvalue : members.lookup key with
      | none => rfl
      | some value =>
        cases value with
        | array tools =>
          have hne : key ≠ "tools" := fun he => htools tools he hvalue
          rw [Option.map_some, stripMember, if_neg hne]
        | _ => rfl
    · change members.lookup "tools" = _ at htools
      refine ⟨tools.map stripToolType, ?_, ?_⟩
      · rw [hget, if_neg (by decide), htools]
        rfl
      · rw [List.forall₂_map_right_iff, List.forall₂_same]
        exact fun tool _ => strippedTool tool
  | _ => exact ⟨fun _ => rfl, nofun, fun _ _ _ => rfl, nofun⟩

end Payload

end DogBot.Proxy
