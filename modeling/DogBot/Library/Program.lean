import Mathlib.Logic.Basic

/-! # Programs over operations

A program calls operations on a shared state, one after the other, and ends
with a value or an error. What an operation can answer, and how it changes the
state, is given by a step relation. `Always` is the weakest precondition of a
program that runs alone, with one postcondition for values and one for errors.
-/

universe u v w x y

inductive Program (Op : Type u) (Res : Op → Type v) (ε : Type w) (α : Type x)
  | ret (a : α)
  | fail (e : ε)
  | call (op : Op) (next : Res op → Program Op Res ε α)

namespace Program

variable {Op : Type u} {Res : Op → Type v} {ε : Type w} {α β : Type x} {σ : Type y}

protected def bind : Program Op Res ε α → (α → Program Op Res ε β) → Program Op Res ε β
  | ret a, f => f a
  | fail e, _ => fail e
  | call op next, f => call op fun r => (next r).bind f

instance : Monad (Program Op Res ε) where
  pure := ret
  bind := Program.bind

def Ended : Program Op Res ε α → Prop
  | ret _ | fail _ => True
  | call _ _ => False

theorem call_ne_ret {op : Op} {next : Res op → Program Op Res ε α} {a : α} :
    call op next ≠ ret a := by
  rintro ⟨⟩

/-- The program that does nothing but end with a result. -/
def ofExcept : Except ε α → Program Op Res ε α
  | .ok a => ret a
  | .error e => fail e

theorem bind_eq_ok {x : Except ε α} {f : α → Except ε β} {b : β} (h : x >>= f = .ok b) :
    ∃ a, x = .ok a ∧ f a = .ok b := by
  cases x with
  | error e => cases h
  | ok a => exact ⟨a, rfl, h⟩

theorem bind_eq_error {x : Except ε α} {f : α → Except ε β} {e : ε} (h : x >>= f = .error e) :
    x = .error e ∨ ∃ a, x = .ok a ∧ f a = .error e := by
  cases x with
  | error e' =>
    cases h
    exact .inl rfl
  | ok a => exact .inr ⟨a, rfl, h⟩

theorem foldlM_keeps {α : Type v} {β ε : Type u} {f : β → α → Except ε β} {P : β → Prop}
    (hstep : ∀ {b a b'}, f b a = .ok b' → P b → P b') {l : List α} {b b' : β}
    (h : l.foldlM f b = .ok b') (hb : P b) : P b' := by
  induction l generalizing b with
  | nil =>
    obtain rfl := Except.ok.inj h
    exact hb
  | cons a l ih =>
    obtain ⟨b₁, hfirst, hrest⟩ := Program.bind_eq_ok h
    exact ih hrest (hstep hfirst hb)

/-- Run a program over the operations of a larger signature. -/
def hoist {Op' : Type u} {Res' : Op' → Type v} {ε' : Type w} (inj : Op → Op')
    (answer : ∀ op, Res' (inj op) → Res op) (err : ε → ε') :
    Program Op Res ε α → Program Op' Res' ε' α
  | ret a => ret a
  | fail e => fail (err e)
  | call op next => call (inj op) fun r => (next (answer op r)).hoist inj answer err

/-- Report the errors of a program as other ones. -/
def mapError {ε' : Type w} (err : ε → ε') (p : Program Op Res ε α) : Program Op Res ε' α :=
  p.hoist (fun op => op) (fun _ r => r) err

/-- Every operation that a program may call satisfies a condition. -/
def Only (A : Op → Prop) : Program Op Res ε α → Prop
  | ret _ | fail _ => True
  | call op next => A op ∧ ∀ r, Only A (next r)

theorem Only.bind {A : Op → Prop} {p : Program Op Res ε α} {f : α → Program Op Res ε β}
    (hp : Only A p) (hf : ∀ a, Only A (f a)) : Only A (p >>= f) := by
  induction p with
  | ret a => exact hf a
  | fail e => trivial
  | call op next ih => exact ⟨hp.1, fun r => ih r (hp.2 r)⟩

theorem Only.mono {A B : Op → Prop} (h : ∀ op, A op → B op) {p : Program Op Res ε α}
    (hp : Only A p) : Only B p := by
  induction p with
  | ret a => trivial
  | fail e => trivial
  | call op next ih => exact ⟨h op hp.1, fun r => ih r (hp.2 r)⟩

theorem only_ofExcept {A : Op → Prop} (o : Except ε α) :
    Only A (ofExcept o : Program Op Res ε α) := by
  cases o <;> trivial

theorem only_true (p : Program Op Res ε α) : Only (fun _ => True) p := by
  induction p with
  | ret a => trivial
  | fail e => trivial
  | call op next ih => exact ⟨trivial, ih⟩

/-- The operations of a program over those of a larger signature. -/
theorem Only.hoist {A : Op → Prop} {Op' : Type u} {Res' : Op' → Type v} {ε' : Type w}
    {inj : Op → Op'} {answer : ∀ op, Res' (inj op) → Res op} {err : ε → ε'} {A' : Op' → Prop}
    (h : ∀ op, A op → A' (inj op)) {p : Program Op Res ε α} (hp : Only A p) :
    Only A' (p.hoist inj answer err) := by
  induction p with
  | ret a => trivial
  | fail e => trivial
  | call op next ih => exact ⟨h op hp.1, fun r => ih _ (hp.2 _)⟩

@[simp] theorem ret_bind (a : α) (f : α → Program Op Res ε β) : (ret a >>= f) = f a := rfl
@[simp] theorem pure_eq (a : α) : (pure a : Program Op Res ε α) = ret a := rfl

theorem bind_assoc {γ : Type x} (p : Program Op Res ε α) (f : α → Program Op Res ε β)
    (g : β → Program Op Res ε γ) : p >>= f >>= g = p >>= fun a => f a >>= g := by
  induction p with
  | ret a => rfl
  | fail e => rfl
  | call op next ih => exact congrArg (call op) (funext fun r => ih r)

/-- The complete runs of a program from a state to a result and a state. -/
inductive Runs (step : σ → (op : Op) → Res op → σ → Prop) :
    Program Op Res ε α → σ → Except ε α → σ → Prop
  | ret (a : α) (s : σ) : Runs step (.ret a) s (.ok a) s
  | fail (e : ε) (s : σ) : Runs step (.fail e) s (.error e) s
  | call {op : Op} {next : Res op → Program Op Res ε α} {s s' s'' : σ} {r : Res op}
    {o : Except ε α} :
    step s op r s' → Runs step (next r) s' o s'' → Runs step (.call op next) s o s''

variable {step : σ → (op : Op) → Res op → σ → Prop} {s s' : σ}

/-- Every run of a program ends in a value with the first, or in an error with the second
postcondition. -/
def Always (step : σ → (op : Op) → Res op → σ → Prop) :
    Program Op Res ε α → (α → σ → Prop) → (ε → σ → Prop) → σ → Prop
  | ret a, Q, _, s => Q a s
  | fail e, _, E, s => E e s
  | call op next, Q, E, s => ∀ r s', step s op r s' → Always step (next r) Q E s'

@[simp] theorem always_ret {a : α} {Q : α → σ → Prop} {E : ε → σ → Prop} :
    Always step (ret a) Q E s ↔ Q a s := .rfl

@[simp] theorem always_fail {e : ε} {Q : α → σ → Prop} {E : ε → σ → Prop} :
    Always step (fail e) Q E s ↔ E e s := .rfl

theorem always_call {op : Op} {next : Res op → Program Op Res ε α} {Q : α → σ → Prop}
    {E : ε → σ → Prop} : Always step (call op next) Q E s ↔
      ∀ r s', step s op r s' → Always step (next r) Q E s' := .rfl

theorem always_ofExcept {o : Except ε α} {Q : α → σ → Prop} {E : ε → σ → Prop} :
    Always step (ofExcept o) Q E s ↔ (∀ a, o = .ok a → Q a s) ∧ ∀ e, o = .error e → E e s := by
  cases o with
  | error e => simp [ofExcept]
  | ok a => simp [ofExcept]

/-- A sequence satisfies its postcondition if its first part ensures that of its second. -/
@[simp] theorem always_bind {p : Program Op Res ε α} {f : α → Program Op Res ε β}
    {Q : β → σ → Prop} {E : ε → σ → Prop} :
    Always step (p >>= f) Q E s ↔ Always step p (fun a s' => Always step (f a) Q E s') E s := by
  induction p generalizing s with
  | ret a => exact .rfl
  | fail e => exact .rfl
  | call op next ih =>
    exact forall_congr' fun r => forall_congr' fun s' => imp_congr_right fun _ => ih r

@[simp] theorem always_mapError {ε' : Type w} {err : ε → ε'} {p : Program Op Res ε α}
    {Q : α → σ → Prop} {E : ε' → σ → Prop} :
    Always step (p.mapError err) Q E s ↔ Always step p Q (fun e s' => E (err e) s') s := by
  induction p generalizing s with
  | ret a => exact .rfl
  | fail e => exact .rfl
  | call op next ih =>
    exact forall_congr' fun r => forall_congr' fun s' => imp_congr_right fun _ => ih r

theorem Always.mono {p : Program Op Res ε α} {Q Q' : α → σ → Prop} {E E' : ε → σ → Prop}
    (hQ : ∀ a s, Q a s → Q' a s) (hE : ∀ e s, E e s → E' e s) (h : Always step p Q E s) :
    Always step p Q' E' s := by
  induction p generalizing s with
  | ret a => exact hQ a s h
  | fail e => exact hE e s h
  | call op next ih => exact fun r s' hs => ih r (h r s' hs)

theorem always_true (step : σ → (op : Op) → Res op → σ → Prop) (p : Program Op Res ε α) (s : σ) :
    Always step p (fun _ _ => True) (fun _ _ => True) s := by
  induction p generalizing s with
  | ret a => trivial
  | fail e => trivial
  | call op next ih => exact fun r s' _ => ih r s'

theorem Runs.post {p : Program Op Res ε α} {o : Except ε α} {Q : α → σ → Prop} {E : ε → σ → Prop}
    (hr : Runs step p s o s') (h : Always step p Q E s) :
    (∀ a, o = .ok a → Q a s') ∧ ∀ e, o = .error e → E e s' := by
  induction hr with
  | ret a s => exact ⟨fun _ he => Except.ok.inj he ▸ h, nofun⟩
  | fail e s => exact ⟨nofun, fun _ he => Except.error.inj he ▸ h⟩
  | call hs _ ih => exact ih (h _ _ hs)

/-- What holds at the end of each run of a program holds always. -/
theorem always_of_runs {p : Program Op Res ε α} {Q : α → σ → Prop} {E : ε → σ → Prop}
    (h : ∀ o s', Runs step p s o s' →
      (∀ a, o = .ok a → Q a s') ∧ ∀ e, o = .error e → E e s') : Always step p Q E s := by
  induction p generalizing s with
  | ret a => exact (h _ _ (.ret a s)).1 a rfl
  | fail e => exact (h _ _ (.fail e s)).2 e rfl
  | call op next ih => exact fun r s' hs => ih r fun o s'' hr => h o s'' (.call hs hr)

/-- Run a program with a handler that answers every operation. -/
def eval (handle : σ → (op : Op) → Res op × σ) : Program Op Res ε α → σ → Except ε α × σ
  | ret a, s => (.ok a, s)
  | fail e, s => (.error e, s)
  | call op next, s => (next (handle s op).1).eval handle (handle s op).2

theorem eval_bind (handle : σ → (op : Op) → Res op × σ) (p : Program Op Res ε α)
    (f : α → Program Op Res ε β) (s : σ) : (p >>= f).eval handle s =
      match p.eval handle s with
      | (.ok a, s') => (f a).eval handle s'
      | (.error e, s') => (.error e, s') := by
  induction p generalizing s with
  | ret a => rfl
  | fail e => rfl
  | call op next ih => exact ih _ _

theorem Only.eval_congr {A : Op → Prop} {handle handle' : σ → (op : Op) → Res op × σ}
    {p : Program Op Res ε α} (hp : Only A p)
    (h : ∀ s op, A op → handle s op = handle' s op) (s : σ) :
    p.eval handle s = p.eval handle' s := by
  induction p generalizing s with
  | ret a => rfl
  | fail e => rfl
  | call op next ih =>
    rw [eval, eval, h s op hp.1]
    exact ih _ (hp.2 _) _

theorem runs_eval {handle : σ → (op : Op) → Res op × σ}
    (h : ∀ s op, step s op (handle s op).1 (handle s op).2) (p : Program Op Res ε α) (s : σ) :
    Runs step p s (p.eval handle s).1 (p.eval handle s).2 := by
  induction p generalizing s with
  | ret a => exact .ret a s
  | fail e => exact .fail e s
  | call op next ih => exact .call (h s op) (ih _ _)

/-- A program that returns when its calls are handled has such a run. -/
theorem exists_runs_ok {handle : σ → (op : Op) → Res op × σ}
    (h : ∀ s op, step s op (handle s op).1 (handle s op).2) {p : Program Op Res ε α} {s : σ}
    (hp : (p.eval handle s).1.isOk = true) : ∃ a s', Runs step p s (.ok a) s' := by
  have hruns := runs_eval h p s
  cases ho : (p.eval handle s).1 with
  | error e =>
    rw [ho] at hp
    cases hp
  | ok a =>
    rw [ho] at hruns
    exact ⟨a, _, hruns⟩

end Program
