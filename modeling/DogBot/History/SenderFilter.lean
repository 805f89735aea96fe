import DogBot.History.SearchQuery
import DogBot.Library.Condition

/-! # The sender filter

A sender is meant to be found by the identifier of the actor or by a part of the
displayed name. The name is compared with a pattern into which the sender is put
as it is.
-/

namespace DogBot

open Sql

/-- The columns of a message that the filter reads. -/
structure MessageRow where
  actorId : String
  actorDisplay : Option String

def MessageRow.column (row : MessageRow) : String → Option String
  | "actor_id" => some row.actorId
  | "actor_display" => row.actorDisplay
  | _ => none

/-- The sender is the actor, or is contained in the displayed name, whatever the case. -/
def MessageRow.IsFrom (f : Like.Folding wildcards) (row : MessageRow) (sender : String) : Prop :=
  row.actorId = sender ∨ ∃ display, row.actorDisplay = some display ∧
    sender.toList.map f.fold <:+: display.toList.map f.fold

/-- The condition that is made for the sender is true of the messages from the sender. -/
def FindsSender (f : Like.Folding wildcards) (sender : String) : Prop :=
  ∀ condition ∈ whenGiven (some sender) senderCondition, ∀ row : MessageRow,
    holds f row.column condition = true ↔ row.IsFrom f sender

variable {f : Like.Folding wildcards} {row : MessageRow} {sender : String}

theorem findsSender_iff_of_ne (h : sender ≠ "") : FindsSender f sender ↔
    ∀ row : MessageRow, holds f row.column (senderCondition sender) = true ↔
      row.IsFrom f sender := by
  simp [FindsSender, whenGiven, h]

/-- The displayed name is compared with the sender between wildcards. -/
theorem holds_senderCondition_iff (h : ∀ c ∈ sender.toList, c.toNat ≠ 0) :
    holds f row.column (senderCondition sender) = true ↔ row.actorId = sender ∨
      Like.ilike f (row.actorDisplay.getD "").toList (Like.between wildcards sender.toList) =
        some true := by
  have hread : (lex (senderCondition sender)).bind readCondition =
      some (.or (.equal (.column "actor_id") (.literal sender))
        (.ilike (.coalesce (.column "actor_display") (.literal ""))
          (.concat (.concat (.literal "%") (.literal sender)) (.literal "%")))) := by
    rw [(readsBefore_senderCondition h).lex_eq]
    rfl
  have hactor : (Condition.equal (.column "actor_id") (.literal sender)).eval f row.column =
      some true ↔ row.actorId = sender := by
    rw [Condition.eval_equal_iff]
    constructor
    · rintro ⟨x, hx, hs⟩
      exact Option.some.inj (hx.trans hs.symm)
    · rintro rfl
      exact ⟨_, rfl, rfl⟩
  have hdisplay : (Term.coalesce (.column "actor_display") (.literal "")).eval row.column =
      some (row.actorDisplay.getD "") := by
    have hcolumn : row.column "actor_display" = row.actorDisplay := rfl
    cases hd : row.actorDisplay <;> simp [Term.eval, hcolumn, hd]
  have hpattern : ("%" ++ sender ++ "%").toList = Like.between wildcards sender.toList := by
    simp [Like.between, wildcards]
  rw [holds_iff, hread]
  simp only [Option.some.injEq, exists_eq_left', Condition.eval_or_iff, hactor]
  rw [Condition.eval, hdisplay, ← hpattern]
  rfl

theorem not_findsSender_of_null {c : Char} (hc : c ∈ sender.toList) (hnull : c.toNat = 0) :
    ¬ FindsSender f sender := by
  intro h
  have hne : sender ≠ "" := by
    rintro rfl
    cases hc
  have hmem : c ∈ (senderCondition sender).toList := by
    simp [senderCondition, sqlLiteral_toList, mem_quoted hc]
  have hlex : lex (senderCondition sender) = none := lexFrom_of_null hnull hmem
  have htrue := ((findsSender_iff_of_ne hne).mp h ⟨sender, none⟩).mpr (.inl rfl)
  rw [holds_iff, hlex] at htrue
  obtain ⟨a, ha, -⟩ := htrue
  cases ha

theorem findsSender_iff_forall_ilike (hne : sender ≠ "")
    (hnull : ∀ c ∈ sender.toList, c.toNat ≠ 0) : FindsSender f sender ↔
      ∀ t, Like.ilike f t (Like.between wildcards sender.toList) = some true ↔
        sender.toList.map f.fold <:+: t.map f.fold := by
  rw [findsSender_iff_of_ne hne]
  constructor
  · intro h t
    -- The actor of this row is another one, so that only the displayed name decides.
    have hother : sender ++ "0" ≠ sender := by simp
    have hrow := h ⟨sender ++ "0", some (String.ofList t)⟩
    rw [holds_senderCondition_iff hnull] at hrow
    simpa [MessageRow.IsFrom, hother] using hrow
  · intro h row
    rw [holds_senderCondition_iff hnull, h, MessageRow.IsFrom]
    cases row.actorDisplay with
    | none => simp [hne]
    | some display => simp

/-- A sender is found as it is meant if and only if no character of it is special. -/
theorem findsSender_iff : FindsSender f sender ↔
    ∀ c ∈ sender.toList, c ≠ '%' ∧ c ≠ '_' ∧ c ≠ '\\' ∧ c.toNat ≠ 0 := by
  by_cases hne : sender = ""
  · subst hne
    simp [FindsSender, whenGiven]
  by_cases hnull : ∀ c ∈ sender.toList, c.toNat ≠ 0
  · rw [findsSender_iff_forall_ilike hne hnull, Like.forall_ilike_between_iff]
    refine forall₂_congr fun c hc => ?_
    simp [Like.Wildcards.Special, wildcards, hnull c hc]
  · simp only [not_forall, not_not] at hnull
    obtain ⟨c, hc, hnull⟩ := hnull
    exact iff_of_false (not_findsSender_of_null hc hnull) fun h => (h c hc).2.2.2 hnull

def asciiFolding : Like.Folding wildcards where
  fold := Text.toAsciiLowercase
  fold_special := by
    rintro c (rfl | rfl | rfl) <;> rfl
  special_of_fold := by
    have hletters : ∀ n < 26, ¬ wildcards.Special (Char.ofNat (n + 65 + 32)) := by decide
    intro c hc
    rw [Text.toAsciiLowercase] at hc
    split_ifs at hc with hupper
    · simp only [Bool.and_eq_true, decide_eq_true_eq] at hupper
      have hletter := hletters (c.toNat - 65) (by omega)
      rw [Nat.sub_add_cancel hupper.1] at hletter
      exact absurd hc hletter
    · exact hc

/-- The name of another actor is found: the underscore stands for any character. -/
theorem not_findsSender_underscore : ¬ FindsSender asciiFolding "fly_dog" := by
  intro h
  have hfound : holds asciiFolding (MessageRow.column ⟨"qq:user:77", some "fly-dog"⟩)
      (senderCondition "fly_dog") = true := by
    decide +kernel
  rcases ((findsSender_iff_of_ne (by decide)).mp h _).mp hfound with hactor | ⟨d, hd, hinside⟩
  · exact absurd hactor (by decide)
  · obtain rfl := Option.some.inj hd
    exact absurd hinside (by decide)

end DogBot
