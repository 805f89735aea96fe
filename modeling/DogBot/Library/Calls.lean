import DogBot.Library.Program

/-! # The calls of a program

What a program has done is the list of its calls with their answers, and what is
left of it is again a program. The calls of a sequence are those of its first
part, followed by those of its second part if the first one has returned. Where
the calls are recorded, what a program ensures it ensures together with them.
-/

universe u v w w' x x' y

namespace Program

variable {Op : Type u} {Res : Op → Type v} {ε : Type w} {α β : Type x}

/-- After these calls with these answers, a program has another one left. -/
inductive Calls : Program Op Res ε α → List (Σ op, Res op) → Program Op Res ε α → Prop
  | nil (p : Program Op Res ε α) : Calls p [] p
  | cons {op : Op} {next : Res op → Program Op Res ε α} {r : Res op} {l : List (Σ op, Res op)}
      {q : Program Op Res ε α} : Calls (next r) l q → Calls (.call op next) (⟨op, r⟩ :: l) q

def attempt {ε' : Type w'} : Program Op Res ε α → Program Op Res ε' (Except ε α)
  | ret a => ret (.ok a)
  | fail e => ret (.error e)
  | call op next => call op fun r => (next r).attempt

variable {p q : Program Op Res ε α} {l : List (Σ op, Res op)} {f : α → Program Op Res ε β}

theorem Calls.snoc {op : Op} {next : Res op → Program Op Res ε α} (h : Calls p l (.call op next))
    (r : Res op) : Calls p (l ++ [⟨op, r⟩]) (next r) := by
  generalize hq : Program.call op next = q at h
  induction h with
  | nil p =>
    subst hq
    exact .cons (.nil _)
  | cons _ ih => exact .cons (ih hq)

theorem Calls.only {A : Op → Prop} (h : Calls p l q) (hp : Only A p) :
    (∀ c ∈ l, A c.1) ∧ Only A q := by
  induction h with
  | nil p => exact ⟨by simp, hp⟩
  | cons _ ih =>
    obtain ⟨hl, hq⟩ := ih (hp.2 _)
    exact ⟨List.forall_mem_cons.mpr ⟨hp.1, hl⟩, hq⟩

@[simp] theorem calls_ret {a : α} : Calls (ret a) l q ↔ l = [] ∧ q = ret a := by
  constructor
  · rintro ⟨⟩
    exact ⟨rfl, rfl⟩
  · rintro ⟨rfl, rfl⟩
    exact .nil _

@[simp] theorem calls_fail {e : ε} : Calls (fail e) l q ↔ l = [] ∧ q = fail e := by
  constructor
  · rintro ⟨⟩
    exact ⟨rfl, rfl⟩
  · rintro ⟨rfl, rfl⟩
    exact .nil _

theorem calls_call {op : Op} {next : Res op → Program Op Res ε α} :
    Calls (.call op next) l q ↔ l = [] ∧ q = .call op next ∨
      ∃ r l', l = ⟨op, r⟩ :: l' ∧ Calls (next r) l' q := by
  constructor
  · rintro (_ | h)
    · exact .inl ⟨rfl, rfl⟩
    · exact .inr ⟨_, _, rfl, h⟩
  · rintro (⟨rfl, rfl⟩ | ⟨r, l', rfl, h⟩)
    · exact .nil _
    · exact .cons h

theorem Calls.of_ret {a : α} {o : Except ε α} (h : Calls (ret a) l (ofExcept o)) :
    l = [] ∧ o = .ok a := by
  obtain ⟨rfl, ho⟩ := calls_ret.mp h
  cases o with
  | ok a' =>
    cases ho
    exact ⟨rfl, rfl⟩
  | error e => cases ho

theorem Calls.of_fail {e : ε} {o : Except ε α} (h : Calls (fail e) l (ofExcept o)) :
    l = [] ∧ o = .error e := by
  obtain ⟨rfl, ho⟩ := calls_fail.mp h
  cases o with
  | ok a => cases ho
  | error e' =>
    cases ho
    exact ⟨rfl, rfl⟩

theorem Calls.of_call {op : Op} {next : Res op → Program Op Res ε α} {o : Except ε α}
    (h : Calls (.call op next) l (ofExcept o)) :
    ∃ r l', l = ⟨op, r⟩ :: l' ∧ Calls (next r) l' (ofExcept o) := by
  rcases calls_call.mp h with ⟨-, ho⟩ | h
  · cases o <;> cases ho
  · exact h

/-- The calls of a sequence: its first part is not at its end, or its second part has begun. -/
theorem calls_bind {q : Program Op Res ε β} : Calls (p >>= f) l q ↔
    (∃ p', Calls p l p' ∧ (∀ a, p' ≠ ret a) ∧ q = p' >>= f) ∨
      ∃ a l₁ l₂, l = l₁ ++ l₂ ∧ Calls p l₁ (ret a) ∧ Calls (f a) l₂ q := by
  induction p generalizing l with
  | ret a =>
    rw [ret_bind]
    constructor
    · exact fun h => .inr ⟨a, [], l, rfl, .nil _, h⟩
    · rintro (⟨p', hp', hne, -⟩ | ⟨a', l₁, l₂, rfl, hp, hf⟩)
      · exact absurd (calls_ret.mp hp').2 (hne a)
      · obtain ⟨rfl, hret⟩ := calls_ret.mp hp
        cases hret
        exact hf
  | fail e =>
    constructor
    · intro h
      obtain ⟨rfl, rfl⟩ := calls_fail.mp h
      exact .inl ⟨fail e, .nil _, nofun, rfl⟩
    · rintro (⟨p', hp', -, rfl⟩ | ⟨a', l₁, l₂, rfl, hp, -⟩)
      · obtain ⟨rfl, rfl⟩ := calls_fail.mp hp'
        exact .nil _
      · cases (calls_fail.mp hp).2
  | call op next ih =>
    have hbind : (call op next >>= f) = call op fun r => next r >>= f := rfl
    rw [hbind, calls_call]
    constructor
    · rintro (⟨rfl, rfl⟩ | ⟨r, l', rfl, h⟩)
      · exact .inl ⟨call op next, .nil _, nofun, rfl⟩
      · rcases (ih r).mp h with ⟨p', hp', hne, rfl⟩ | ⟨a, l₁, l₂, rfl, hp, hf⟩
        · exact .inl ⟨p', .cons hp', hne, rfl⟩
        · exact .inr ⟨a, _, l₂, rfl, .cons hp, hf⟩
    · rintro (⟨p', hp', hne, rfl⟩ | ⟨a, l₁, l₂, rfl, hp, hf⟩)
      · rcases calls_call.mp hp' with ⟨rfl, rfl⟩ | ⟨r, l', rfl, h⟩
        · exact .inl ⟨rfl, rfl⟩
        · exact .inr ⟨r, l', rfl, (ih r).mpr (.inl ⟨p', h, hne, rfl⟩)⟩
      · rcases calls_call.mp hp with ⟨-, hret⟩ | ⟨r, l', rfl, h⟩
        · cases hret
        · exact .inr ⟨r, l' ++ l₂, rfl, (ih r).mpr (.inr ⟨a, l', l₂, rfl, h, hf⟩)⟩

theorem Only.attempt {ε' : Type w'} {A : Op → Prop} (h : Only A p) :
    Only A (p.attempt : Program Op Res ε' _) := by
  induction p with
  | ret a => trivial
  | fail e => trivial
  | call op next ih => exact ⟨h.1, fun r => ih r (h.2 r)⟩

section Within

/-- A program calls only the operations that it may call. The structure keeps a program that is
built from large parts from being unfolded. -/
structure Within (A : Op → Prop) (p : Program Op Res ε α) : Prop where
  only : Only A p

variable {A : Op → Prop}

theorem within_ret (a : α) : Within A (ret a : Program Op Res ε α) := ⟨trivial⟩

theorem within_call {op : Op} (h : A op) : Within A (call op ret : Program Op Res ε _) :=
  ⟨h, fun _ => trivial⟩

theorem Within.bind (hp : Within A p) (hf : ∀ a, Within A (f a)) : Within A (p >>= f) :=
  ⟨Only.bind hp.only fun a => (hf a).only⟩

theorem Within.calls (hp : Within A p) (h : Calls p l q) : ∀ c ∈ l, A c.1 := (h.only hp.only).1

end Within

section Yields

/-- A program calls only the operations that it may call, and what it returns is as it should be,
whatever the answers are. -/
def Yields (A : Op → Prop) (P : α → Prop) : Program Op Res ε α → Prop
  | ret a => P a
  | fail _ => True
  | call op next => A op ∧ ∀ r, Yields A P (next r)

variable {A : Op → Prop} {P : α → Prop}

theorem Only.yields (h : Only A p) : Yields A (fun _ => True) p := by
  induction p with
  | ret a => trivial
  | fail e => trivial
  | call op next ih => exact ⟨h.1, fun r => ih r (h.2 r)⟩

theorem Yields.bind {Q : β → Prop} (hp : Yields A P p) (hf : ∀ a, P a → Yields A Q (f a)) :
    Yields A Q (p >>= f) := by
  induction p with
  | ret a => exact hf a hp
  | fail e => trivial
  | call op next ih => exact ⟨hp.1, fun r => ih r (hp.2 r)⟩

theorem Calls.yields (h : Calls p l q) (hp : Yields A P p) :
    (∀ c ∈ l, A c.1) ∧ Yields A P q := by
  induction h with
  | nil p => exact ⟨by simp, hp⟩
  | cons _ ih =>
    obtain ⟨hl, hq⟩ := ih (hp.2 _)
    exact ⟨List.forall_mem_cons.mpr ⟨hp.1, hl⟩, hq⟩

end Yields

section Recorded

variable {σ : Type y} {step : σ → (op : Op) → Res op → σ → Prop} {s : σ} {A : Op → Prop}
  {Q : α → σ → Prop} {E : ε → σ → Prop}

/-- A step whose call is recorded with its answer, behind the calls before. -/
def Recorded (step : σ → (op : Op) → Res op → σ → Prop) (t : σ × List (Σ op, Res op)) (op : Op)
    (r : Res op) (t' : σ × List (Σ op, Res op)) : Prop :=
  step t.1 op r t'.1 ∧ t'.2 = t.2 ++ [⟨op, r⟩]

def record (handle : σ → (op : Op) → Res op × σ) (t : σ × List (Σ op, Res op)) (op : Op) :
    Res op × σ × List (Σ op, Res op) :=
  ((handle t.1 op).1, (handle t.1 op).2, t.2 ++ [⟨op, (handle t.1 op).1⟩])

theorem recorded_record {handle : σ → (op : Op) → Res op × σ}
    (h : ∀ s op, step s op (handle s op).1 (handle s op).2) (t : σ × List (Σ op, Res op))
    (op : Op) : Recorded step t op (record handle t op).1 (record handle t op).2 :=
  ⟨h t.1 op, rfl⟩

/-- What a program ensures it ensures together with what it may call. -/
theorem Always.recorded (h : Always step p Q E s) (hp : Only A p) :
    Always (Recorded step) p (fun a t => Q a t.1 ∧ ∃ calls, t.2 = l ++ calls ∧ ∀ c ∈ calls, A c.1)
      (fun e t => E e t.1 ∧ ∃ calls, t.2 = l ++ calls ∧ ∀ c ∈ calls, A c.1) (s, l) := by
  induction p generalizing s l with
  | ret a => exact ⟨h, [], by simp, by simp⟩
  | fail e => exact ⟨h, [], by simp, by simp⟩
  | call op next ih =>
    rintro r ⟨s', _⟩ ⟨hs, rfl⟩
    have hcons : ∀ l' : List (Σ op, Res op), (∃ calls, l' = l ++ [⟨op, r⟩] ++ calls ∧
        ∀ c ∈ calls, A c.1) → ∃ calls, l' = l ++ calls ∧ ∀ c ∈ calls, A c.1 := by
      rintro l' ⟨calls, rfl, hcalls⟩
      exact ⟨⟨op, r⟩ :: calls, by simp, List.forall_mem_cons.mpr ⟨hp.1, hcalls⟩⟩
    exact (ih r (h r s' hs) (hp.2 r)).mono (fun _ _ ⟨hQ, hl⟩ => ⟨hQ, hcons _ hl⟩)
      fun _ _ ⟨hE, hl⟩ => ⟨hE, hcons _ hl⟩

end Recorded

end Program
