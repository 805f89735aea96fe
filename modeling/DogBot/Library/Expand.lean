import DogBot.Library.Calls
import DogBot.Library.Concurrent

/-! # Calls that are programs

An operation of one signature may be a program over another one. A program over
the first signature is expanded to one over the second by running the program of
each operation where it is called; other threads may make steps in between.
-/

universe u u' v v' w w' y

namespace Program

variable {Op : Type u} {Res : Op → Type v} {Op' : Type u'} {Res' : Op' → Type v'} {ε : Type w}
  {α β : Type v}

/-- Run the program of an operation where the operation is called. -/
def expand (f : ∀ op, Program Op' Res' ε (Res op)) : Program Op Res ε α → Program Op' Res' ε α
  | ret a => ret a
  | fail e => fail e
  | call op next => f op >>= fun r => (next r).expand f

variable {f : ∀ op, Program Op' Res' ε (Res op)}

@[simp] theorem expand_ret (a : α) : (ret a : Program Op Res ε α).expand f = ret a := rfl

@[simp] theorem expand_fail (e : ε) : (fail e : Program Op Res ε α).expand f = fail e := rfl

theorem expand_call {op : Op} {next : Res op → Program Op Res ε α} :
    (call op next).expand f = f op >>= fun r => (next r).expand f := rfl

theorem expand_bind (p : Program Op Res ε α) (g : α → Program Op Res ε β) :
    (p >>= g).expand f = p.expand f >>= fun a => (g a).expand f := by
  induction p with
  | ret a => rfl
  | fail e => rfl
  | call op next ih =>
    rw [expand_call, bind_assoc]
    exact congrArg (f op >>= ·) (funext ih)

section Always

variable {σ : Type y} {τ : Type*} {Op₁ : Type u} {Res₁ : Op₁ → Type v} {ε₁ : Type w}
  {ε' : Type w'} {inj : Op → Op₁} {answer : ∀ op, Res₁ (inj op) → Res op} {err : ε → ε₁}
  {step : σ → (op : Op) → Res op → σ → Prop} {step₁ : τ → (op : Op₁) → Res₁ op → τ → Prop}
  {part : τ → σ} {K : τ → Prop}

/-- What a program ensures of its own part of a larger state, while the rest is kept. -/
theorem Always.hoist {p : Program Op Res ε α} {Q : α → σ → Prop} {E : ε → σ → Prop} {t : τ}
    (hstep : ∀ t op r t', K t → step₁ t (inj op) r t' →
      K t' ∧ step (part t) op (answer op r) (part t'))
    (hK : K t) (h : Always step p Q E (part t)) :
    Always step₁ (p.hoist inj answer err) (fun a t => K t ∧ Q a (part t))
      (fun e' t => K t ∧ ∃ e, e' = err e ∧ E e (part t)) t := by
  induction p generalizing t with
  | ret a => exact ⟨hK, h⟩
  | fail e => exact ⟨hK, e, rfl, h⟩
  | call op next ih =>
    intro r t' ht
    obtain ⟨hK', hs⟩ := hstep _ _ _ _ hK ht
    exact ih _ hK' (h _ _ hs)

theorem Always.attempt {p : Program Op Res ε α} {Q : α → σ → Prop} {E : ε → σ → Prop}
    {E' : ε' → σ → Prop} {s : σ} (h : Always step p Q E s) :
    Always step p.attempt (fun o s => (∀ a, o = .ok a → Q a s) ∧ ∀ e, o = .error e → E e s)
      E' s := by
  induction p generalizing s with
  | ret a => exact ⟨fun _ ha => Except.ok.inj ha ▸ h, nofun⟩
  | fail e => exact ⟨nofun, fun _ he => Except.error.inj he ▸ h⟩
  | call op next ih => exact fun r s' hs => ih r (h r s' hs)

/-- A program over a larger signature calls what it calls over its own one. -/
theorem Always.hoist_recorded (back : ∀ op, Res op → Res₁ (inj op))
    (hback : ∀ op r, back op (answer op r) = r)
    {step₁ : σ → (op : Op₁) → Res₁ op → σ → Prop}
    (hstep : ∀ s op r s', step₁ s (inj op) r s' → step s op (answer op r) s')
    {p : Program Op Res ε α} {Q : α → σ × List (Σ op, Res op) → Prop}
    {E : ε → σ × List (Σ op, Res op) → Prop} {s : σ} {l : List (Σ op, Res op)}
    {l₁ : List (Σ op, Res₁ op)} (h : Always (Recorded step) p Q E (s, l)) :
    Always (Recorded step₁) (p.hoist inj answer err)
      (fun a t => ∃ calls, t.2 = l₁ ++ calls.map (fun c => ⟨inj c.1, back c.1 c.2⟩) ∧
        Q a (t.1, l ++ calls))
      (fun e' t => ∃ calls, t.2 = l₁ ++ calls.map (fun c => ⟨inj c.1, back c.1 c.2⟩) ∧
        ∃ e, e' = err e ∧ E e (t.1, l ++ calls)) (s, l₁) := by
  induction p generalizing s l l₁ with
  | ret a => exact ⟨[], by simp, by simpa using h⟩
  | fail e => exact ⟨[], by simp, e, rfl, by simpa using h⟩
  | call op next ih =>
    rintro r ⟨s', _⟩ ⟨hs, rfl⟩
    refine (ih _ (h (answer op r) (s', l ++ [⟨op, answer op r⟩]) ⟨hstep _ _ _ _ hs, rfl⟩)).mono
      ?_ ?_
    · rintro a ⟨s'', _⟩ ⟨calls, rfl, hQ⟩
      exact ⟨⟨op, answer op r⟩ :: calls, by simp [hback], by simpa using hQ⟩
    · rintro e' ⟨s'', _⟩ ⟨calls, rfl, e, rfl, hE⟩
      exact ⟨⟨op, answer op r⟩ :: calls, by simp [hback], e, rfl, by simpa using hE⟩

end Always

section Safe

variable {σ : Type y} {ε' : Type w'} {step : σ → (op : Op) → Res op → σ → Prop} {I : σ → Prop}
  {R : σ → σ → Prop} {s : σ}

theorem Safe.attempt {p : Program Op Res ε α} {Q : α → σ → Prop} {E : ε → σ → Prop}
    {E' : ε' → σ → Prop} (h : Safe step I R p Q E s) :
    Safe step I R p.attempt (fun o s => (∀ a, o = .ok a → Q a s) ∧ ∀ e, o = .error e → E e s)
      E' s := by
  induction p generalizing s with
  | ret a =>
    intro s' hs
    refine ⟨fun a' ha => ?_, nofun⟩
    obtain rfl := Except.ok.inj ha
    exact h s' hs
  | fail e =>
    intro s' hs
    refine ⟨nofun, fun e' he => ?_⟩
    obtain rfl := Except.error.inj he
    exact h s' hs
  | call op next ih =>
    intro s₁ hs hi r s₂ hst
    obtain ⟨hi', hnext⟩ := h s₁ hs hi r s₂ hst
    exact ⟨hi', ih r hnext⟩

end Safe

end Program
