import Mathlib.Logic.Relation
import DogBot.Session.Store

/-! # Changes of the session tables

An operation that runs alone changes the tables in few ways: it notes the use of
the requested conversation's row, creates that row, rotates its Claude session
id, or binds an external id to it. `Change` lists them for one identity;
invariants of the tables are proved for single changes.
-/

namespace DogBot

namespace SessionState

def owner (s : SessionState) (sessionKey : String) : Option SessionIdentity :=
  (s.sessions.lookup sessionKey).map SessionRow.identity

/-- The external id is unbound, or bound to the conversation already. -/
def Bindable (s : SessionState) (externalSessionId : String) (identity : SessionIdentity) : Prop :=
  ∀ key, s.aliases.lookup externalSessionId = some key → key = conversationSessionKey identity

/-- The session key of the identity is in use by another one. -/
def Taken (s : SessionState) (identity : SessionIdentity) : Prop :=
  ∃ o, s.owner (conversationSessionKey identity) = some o ∧ o ≠ identity

def issue (s : SessionState) (id : String) : SessionState := { s with issued := id :: s.issued }

def insertRow (s : SessionState) (row : SessionRow) : SessionState :=
  { s with sessions := s.sessions.insert (conversationSessionKey row.identity) row }

def bind (s : SessionState) (externalSessionId sessionKey : String) : SessionState :=
  { s with aliases := s.aliases.insert externalSessionId sessionKey }

end SessionState

/-- The changes that an operation on one identity can make. `bound` lists the external ids that
it may bind. -/
inductive Change (t : SessionIdentity) (bound : SessionState → String → Prop) :
    SessionState → SessionState → Prop
  | issue {s : SessionState} {id : String} (h : id ∉ s.issued) : Change t bound s (s.issue id)
  | touch {s : SessionState} {row : SessionRow} {now : ℤ}
      (h : s.sessions.lookup (conversationSessionKey t) = some row) (ht : row.identity = t) :
      Change t bound s (s.insertRow { row with lastUsedAtEpochSecs := now })
  | create {s : SessionState} {id : String} {now : ℤ} (h : id ∉ s.issued)
      (hk : conversationSessionKey t ∉ s.sessions) :
      Change t bound s ((s.issue id).insertRow ⟨id, t, now, now⟩)
  | rotate {s : SessionState} {row : SessionRow} {id : String} {now : ℤ} (h : id ∉ s.issued)
      (hr : s.sessions.lookup (conversationSessionKey t) = some row) (ht : row.identity = t) :
      Change t bound s ((s.issue id).insertRow ⟨id, t, now, now⟩)
  | bind {s : SessionState} {externalSessionId : String}
      (ho : s.owner (conversationSessionKey t) = some t) (hb : bound s externalSessionId) :
      Change t bound s (s.bind externalSessionId (conversationSessionKey t))

abbrev Changes (t : SessionIdentity) (bound : SessionState → String → Prop) :
    SessionState → SessionState → Prop :=
  Relation.ReflTransGen (Change t bound)

variable {t : SessionIdentity} {bound : SessionState → String → Prop} {s s' : SessionState}
  {key : String} {row : SessionRow}

theorem owner_insertRow : (s.insertRow row).owner key =
    if key = conversationSessionKey row.identity then some row.identity else s.owner key := by
  unfold SessionState.owner SessionState.insertRow
  rw [AList.lookup_insert']
  split_ifs <;> rfl

theorem owner_of_lookup (h : s.sessions.lookup key = some row) :
    s.owner key = some row.identity := by
  rw [SessionState.owner, h]; rfl

/-- A change keeps the owner of every key that has one. -/
theorem Change.owner_eq (h : Change t bound s s') {o : SessionIdentity}
    (ho : s.owner key = some o) : s'.owner key = some o := by
  cases h with
  | issue h => exact ho
  | touch hr ht =>
    subst ht
    rw [owner_insertRow]
    split_ifs with hk
    · exact (owner_of_lookup hr).symm.trans (hk ▸ ho)
    · exact ho
  | create h hk =>
    rw [owner_insertRow]
    split_ifs with he
    · obtain ⟨row, hr, -⟩ := Option.map_eq_some_iff.mp ho
      exact absurd (he ▸ AList.mem_of_lookup hr) hk
    · exact ho
  | rotate h hr ht =>
    subst ht
    rw [owner_insertRow]
    split_ifs with hk
    · exact (owner_of_lookup hr).symm.trans (hk ▸ ho)
    · exact ho
  | bind ho' hb => exact ho

theorem Changes.owner_eq (h : Changes t bound s s') {o : SessionIdentity}
    (ho : s.owner key = some o) : s'.owner key = some o := by
  induction h with
  | refl => exact ho
  | tail _ hc ih => exact hc.owner_eq ih

theorem Change.mono {bound' : SessionState → String → Prop} (hb : ∀ s e, bound s e → bound' s e)
    (h : Change t bound s s') : Change t bound' s s' := by
  cases h with
  | issue h => exact .issue h
  | touch hr ht => exact .touch hr ht
  | create h hk => exact .create h hk
  | rotate h hr ht => exact .rotate h hr ht
  | bind ho h => exact .bind ho (hb _ _ h)

theorem Changes.mono {bound' : SessionState → String → Prop} (hb : ∀ s e, bound s e → bound' s e)
    (h : Changes t bound s s') : Changes t bound' s s' := by
  induction h with
  | refl => exact .refl
  | tail _ hc ih => exact ih.tail (hc.mono hb)

theorem SessionState.not_taken_iff :
    ¬ s.Taken t ↔ s.owner (conversationSessionKey t) = some t ∨
      s.owner (conversationSessionKey t) = none := by
  unfold SessionState.Taken
  cases s.owner (conversationSessionKey t) <;> simp

theorem Change.owner_cases (h : Change t bound s s') {o : SessionIdentity}
    (ho : s'.owner key = some o) :
    s.owner key = some o ∨ key = conversationSessionKey t ∧ o = t := by
  cases h with
  | issue | bind => exact .inl ho
  | touch hr ht =>
    subst ht
    rw [owner_insertRow] at ho
    split_ifs at ho with hk
    · exact .inr ⟨hk, (Option.some.inj ho).symm⟩
    · exact .inl ho
  | create | rotate =>
    rw [owner_insertRow] at ho
    split_ifs at ho with hk
    · exact .inr ⟨hk, (Option.some.inj ho).symm⟩
    · exact .inl ho

theorem Changes.owner_cases (h : Changes t bound s s') {o : SessionIdentity}
    (ho : s'.owner key = some o) :
    s.owner key = some o ∨ key = conversationSessionKey t ∧ o = t := by
  induction h with
  | refl => exact .inl ho
  | tail _ hc ih =>
    rcases hc.owner_cases ho with ho | hnew
    · exact ih ho
    · exact .inr hnew

theorem Changes.alias (h : Changes t bound s s') (eid : String) :
    s'.aliases.lookup eid = s.aliases.lookup eid ∨ (∃ s₁, bound s₁ eid) ∧
      s'.aliases.lookup eid = some (conversationSessionKey t) ∧
      s'.owner (conversationSessionKey t) = some t := by
  induction h with
  | refl => exact .inl rfl
  | @tail s₁ s₂ hs hc ih =>
    have hkeep : s₂.aliases.lookup eid = s₁.aliases.lookup eid →
        s₂.aliases.lookup eid = s.aliases.lookup eid ∨ (∃ s₁, bound s₁ eid) ∧
          s₂.aliases.lookup eid = some (conversationSessionKey t) ∧
          s₂.owner (conversationSessionKey t) = some t := by
      intro hsame
      rw [hsame]
      exact ih.imp_right fun ⟨hb, ha, ho⟩ => ⟨hb, ha, hc.owner_eq ho⟩
    cases hc with
    | issue | touch | create | rotate => exact hkeep rfl
    | @bind eid' ho hb =>
      by_cases heq : eid = eid'
      · subst heq
        exact .inr ⟨⟨s₁, hb⟩, AList.lookup_insert _, ho⟩
      · exact hkeep (AList.lookup_insert_ne heq)

end DogBot
