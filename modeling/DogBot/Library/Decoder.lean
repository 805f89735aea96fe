import Mathlib.Data.List.Basic
import Mathlib.Tactic.Common

/-! # Lossy decoding

A decoder reads items from left to right. An item starts a new output or
continues an incomplete one. What cannot be continued is replaced, and the item
that did not continue it is read again as a first one. No item that continues
can also start, so that decoding piece by piece never yields fewer outputs
than decoding the whole, and as many only if no piece ends inside an output.
-/

namespace DogBot

universe u v w

/-- How items are read. An item that is accepted gives an output or an incomplete one. -/
structure Decoder (β : Type u) (γ : Type v) (σ : Type w) where
  first : β → Option (γ ⊕ σ)
  next : σ → β → Option (γ ⊕ σ)
  replacement : γ
  first_of_next : ∀ {q : σ} {b : β}, (next q b).isSome → first b = none

namespace Decoder

variable {β : Type u} {γ : Type v} {σ : Type w} (d : Decoder β γ σ)

/-- The outputs of an item that was accepted or refused, and what is incomplete after it. -/
def accept : Option (γ ⊕ σ) → List γ × Option σ
  | some (.inl c) => ([c], none)
  | some (.inr q) => ([], some q)
  | none => ([d.replacement], none)

def step : Option σ → β → List γ × Option σ
  | none, b => d.accept (d.first b)
  | some q, b =>
    if (d.next q b).isSome then d.accept (d.next q b)
    else (d.replacement :: (d.accept (d.first b)).1, (d.accept (d.first b)).2)

/-- The outputs of a list of items and what is incomplete at its end. -/
def run : Option σ → List β → List γ × Option σ
  | q, [] => ([], q)
  | q, b :: bs => ((d.step q b).1 ++ (run (d.step q b).2 bs).1, (run (d.step q b).2 bs).2)

/-- An incomplete output at the end is replaced. -/
def flush : Option σ → List γ
  | none => []
  | some _ => [d.replacement]

def decodeFrom (q : Option σ) (bs : List β) : List γ :=
  (d.run q bs).1 ++ d.flush (d.run q bs).2

def decode (bs : List β) : List γ := d.decodeFrom none bs

/-- The cut between two lists falls inside an output: the second list continues what is incomplete
at the end of the first. -/
def Inside (bs bs' : List β) : Prop :=
  ∃ q ∈ (d.run none bs).2, ∃ b ∈ bs'.head?, (d.next q b).isSome

def Whole : List (List β) → Prop
  | [] => True
  | p :: ps => ¬ d.Inside p ps.flatten ∧ Whole ps

instance (bs bs' : List β) : Decidable (d.Inside bs bs') := by
  unfold Inside
  infer_instance

instance decidableWhole : (pieces : List (List β)) → Decidable (d.Whole pieces)
  | [] => isTrue trivial
  | p :: ps =>
    have := decidableWhole ps
    inferInstanceAs (Decidable (¬ d.Inside p ps.flatten ∧ d.Whole ps))

variable {d} {q : σ} {b : β} {bs bs' : List β} {c : γ}

theorem length_flush_some (q : σ) : (d.flush (some q)).length = 1 := rfl

theorem decode_eq_append (bs : List β) :
    d.decode bs = (d.run none bs).1 ++ d.flush (d.run none bs).2 := rfl

theorem decodeFrom_cons (q : Option σ) (b : β) (bs : List β) :
    d.decodeFrom q (b :: bs) = (d.step q b).1 ++ d.decodeFrom (d.step q b).2 bs := by
  simp only [decodeFrom, run, List.append_assoc]

theorem run_append (q : Option σ) (bs bs' : List β) :
    d.run q (bs ++ bs') =
      ((d.run q bs).1 ++ (d.run (d.run q bs).2 bs').1, (d.run (d.run q bs).2 bs').2) := by
  induction bs generalizing q with
  | nil => rfl
  | cons b bs ih => simp only [List.cons_append, run, ih, List.append_assoc]

theorem decodeFrom_append (q : Option σ) (bs bs' : List β) :
    d.decodeFrom q (bs ++ bs') = (d.run q bs).1 ++ d.decodeFrom (d.run q bs).2 bs' := by
  simp only [decodeFrom, run_append, List.append_assoc]

theorem run_of_first_last (h : d.first b = some (.inl c)) : d.run none [b] = ([c], none) := by
  rw [run, step, h]
  rfl

theorem run_of_first {bs : List β} (h : d.first b = some (.inr q)) :
    d.run none (b :: bs) = d.run (some q) bs := by
  rw [run, step, h]
  rfl

theorem run_of_next {q' : σ} {bs : List β} (h : d.next q b = some (.inr q')) :
    d.run (some q) (b :: bs) = d.run (some q') bs := by
  rw [run, step, if_pos (by rw [h]; rfl), h]
  rfl

theorem run_of_last (h : d.next q b = some (.inl c)) : d.run (some q) [b] = ([c], none) := by
  rw [run, step, if_pos (by rw [h]; rfl), h]
  rfl

theorem decode_append_of_run (h : d.run none bs = ([c], none)) (bs' : List β) :
    d.decode (bs ++ bs') = c :: d.decode bs' := by
  rw [decode, decodeFrom_append, h]
  rfl

theorem decode_flatMap {encode : γ → List β} (h : ∀ c, d.run none (encode c) = ([c], none))
    (cs : List γ) : d.decode (cs.flatMap encode) = cs := by
  induction cs with
  | nil => rfl
  | cons c cs ih => rw [List.flatMap_cons, decode_append_of_run (h c), ih]

theorem decodeFrom_of_refused (h : (d.next q b).isSome = false) (bs : List β) :
    d.decodeFrom (some q) (b :: bs) = d.replacement :: d.decodeFrom none (b :: bs) := by
  have hstep : d.step (some q) b =
      (d.replacement :: (d.accept (d.first b)).1, (d.accept (d.first b)).2) := by
    rw [step, if_neg (by simp [h])]
  rw [decodeFrom_cons, decodeFrom_cons, hstep]
  rfl

theorem decodeFrom_of_first_none (h : d.first b = none) (bs : List β) :
    d.decodeFrom none (b :: bs) = d.replacement :: d.decodeFrom none bs := by
  rw [decodeFrom_cons, step, h]
  rfl

theorem length_decodeFrom_of_next (h : (d.next q b).isSome)
    (hle : ∀ q, (d.decodeFrom (some q) bs).length ≤ (d.decodeFrom none bs).length + 1) :
    (d.decodeFrom (some q) (b :: bs)).length ≤ (d.decodeFrom none bs).length + 1 := by
  obtain ⟨r, hr⟩ := Option.isSome_iff_exists.mp h
  have hstep : d.step (some q) b = d.accept (some r) := by rw [step, if_pos h, hr]
  rw [decodeFrom_cons, hstep, List.length_append]
  cases r with
  | inl c =>
    change 1 + (d.decodeFrom none bs).length ≤ _
    omega
  | inr q' =>
    change 0 + (d.decodeFrom (some q') bs).length ≤ _
    have := hle q'
    omega

/-- What is incomplete is at most one output more. -/
theorem length_decodeFrom_le (q : σ) (bs : List β) :
    (d.decodeFrom (some q) bs).length ≤ (d.decodeFrom none bs).length + 1 := by
  induction bs generalizing q with
  | nil => exact Nat.le_refl _
  | cons b bs ih =>
    cases h : (d.next q b).isSome with
    | false => exact Nat.le_of_eq (by rw [decodeFrom_of_refused h, List.length_cons])
    | true =>
      have := length_decodeFrom_of_next h ih
      rw [decodeFrom_of_first_none (d.first_of_next h), List.length_cons]
      omega

theorem not_inside_iff (hq : (d.run none bs).2 = some q) :
    ¬ d.Inside bs bs' ↔ ∀ b, bs'.head? = some b → (d.next q b).isSome = false := by
  simp only [Inside, hq, Option.mem_def, not_exists, not_and, Bool.not_eq_true]
  exact ⟨fun h => h q rfl, fun h q' hq' => Option.some.inj hq' ▸ h⟩

theorem decode_append (h : ¬ d.Inside bs bs') :
    d.decode (bs ++ bs') = d.decode bs ++ d.decode bs' := by
  rw [decode, decodeFrom_append, decode_eq_append bs, List.append_assoc]
  congr 1
  cases hq : (d.run none bs).2 with
  | none => rfl
  | some q =>
    cases bs' with
    | nil => exact (List.append_nil _).symm
    | cons b bs' => exact decodeFrom_of_refused ((not_inside_iff hq).mp h b rfl) bs'

theorem length_decode_append_lt (h : d.Inside bs bs') :
    (d.decode (bs ++ bs')).length < (d.decode bs).length + (d.decode bs').length := by
  obtain ⟨q, hq, b, hb, hnext⟩ := h
  rw [Option.mem_def] at hq hb
  obtain ⟨bs', rfl⟩ : ∃ tail, bs' = b :: tail := by
    cases bs' with
    | nil => cases hb
    | cons b' tail => exact ⟨tail, by rw [Option.some.inj hb]⟩
  have hle := length_decodeFrom_of_next hnext fun q => d.length_decodeFrom_le q bs'
  rw [decode, decodeFrom_append, decode_eq_append bs, decode, hq, List.length_append,
    List.length_append, decodeFrom_of_first_none (d.first_of_next hnext), List.length_cons,
    d.length_flush_some]
  omega

theorem length_decode_append_le (bs bs' : List β) :
    (d.decode (bs ++ bs')).length ≤ (d.decode bs).length + (d.decode bs').length := by
  by_cases h : d.Inside bs bs'
  · exact Nat.le_of_lt (length_decode_append_lt h)
  · exact Nat.le_of_eq (by rw [decode_append h, List.length_append])

theorem length_decode_flatten_le (pieces : List (List β)) :
    (d.decode pieces.flatten).length ≤ (pieces.flatMap d.decode).length := by
  induction pieces with
  | nil => exact Nat.zero_le _
  | cons p ps ih =>
    have := d.length_decode_append_le p ps.flatten
    rw [List.flatten_cons, List.flatMap_cons, List.length_append]
    omega

/-- Decoding piece by piece is decoding the whole exactly if no piece ends inside an output. -/
theorem flatMap_decode_eq_iff (pieces : List (List β)) :
    pieces.flatMap d.decode = d.decode pieces.flatten ↔ d.Whole pieces := by
  induction pieces with
  | nil => exact iff_of_true rfl trivial
  | cons p ps ih =>
    rw [Whole, ← ih, List.flatMap_cons, List.flatten_cons]
    constructor
    · intro h
      have hinside : ¬ d.Inside p ps.flatten := by
        intro hinside
        have hlt := length_decode_append_lt hinside
        have hle := d.length_decode_flatten_le ps
        rw [← h, List.length_append] at hlt
        omega
      rw [decode_append hinside] at h
      exact ⟨hinside, List.append_cancel_left h⟩
    · rintro ⟨hinside, h⟩
      rw [decode_append hinside, h]

end Decoder

end DogBot
