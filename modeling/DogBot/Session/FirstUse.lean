import DogBot.Library.Concurrent
import DogBot.Session.Calls

/-! # Concurrent first use of a conversation

Any number of threads ask for the session of a conversation, and every SQL
statement is a step of its own. The row of a conversation is inserted at most
once, and its Claude session id does not change. A ghost state notes which
thread inserted the row of which key.
-/

namespace DogBot

open Program SessionStore

/-- The arguments of a call of the store: the conversation and the external id. -/
structure SessionArgs where
  identity : SessionIdentity
  externalSessionId : String
  deriving DecidableEq, Repr

namespace SessionArgs

def key (t : SessionArgs) : String := conversationSessionKey t.identity

/-- The call of a thread that asks for the session of its conversation. -/
def getOrCreate (t : SessionArgs) : StoreM SessionRecord :=
  getOrCreateByKey t.key t.identity t.externalSessionId

end SessionArgs

abbrev SessionPool (α : Type) :=
  Pool SessionArgs SessionOp SessionOp.Result SessionStoreError α SessionState

/-- The threads that ask for sessions, on tables that only they use. No statement fails. -/
abbrev FirstUse : SessionPool SessionRecord → SessionPool SessionRecord → Prop :=
  Pool.Step SessionArgs.getOrCreate (fun _ _ => SessionStep False) fun _ _ => False

namespace FirstUse

/-- The operations of a call: no row is reset and no alias is bound. -/
def Op : SessionOp → Prop
  | .statement (.selectSession _) | .statement (.insertSession _ _)
  | .statement (.touchSession _ _) | .newUuid | .epochNow => True
  | .statement (.rotateSession _ _ _) | .statement (.selectAlias _)
  | .statement (.upsertAlias _ _) => False

/-- The tables, and for each key the thread that inserted its row. -/
abbrev State := SessionState × (String → Option ℕ)

def inserter (i : ℕ) : (op : SessionOp) → op.Result → (String → Option ℕ) → String → Option ℕ
  | .statement (.insertSession key _), .ok true, g => Function.update g key (some i)
  | _, _, g => g

abbrev GhostStep (i : ℕ) (t : SessionArgs) (s : State) (op : SessionOp) (r : op.Result)
    (s' : State) : Prop :=
  Pool.GhostStep inserter (fun _ _ s op r s' => Op op ∧ SessionStep False s op r s') i t s op r s'

/-- The rows are those of the initial tables and those that were inserted. -/
structure Inv (init : SessionState) (s : State) : Prop where
  inserted : ∀ key, s.2 key ≠ none → key ∈ s.1.sessions
  covered : ∀ key ∈ s.1.sessions, key ∈ init.sessions ∨ s.2 key ≠ none

/-- What other threads may do: a row keeps its Claude session id, its identity and its inserter,
and nothing is inserted in the name of thread `i`. -/
structure Rely (i : ℕ) (s s' : State) : Prop where
  rows : ∀ key row, s.1.sessions.lookup key = some row →
    ∃ row', s'.1.sessions.lookup key = some row' ∧
      row'.claudeSessionId = row.claudeSessionId ∧ row'.identity = row.identity
  kept : ∀ key ∈ s.1.sessions, s'.2 key = s.2 key
  mine : ∀ key, s'.2 key = some i → s.2 key = some i

/-- The thread has inserted nothing. -/
def Idle (i : ℕ) (s : State) : Prop := ∀ key, s.2 key ≠ some i

def Stored (key : String) (record : SessionRecord) (s : State) : Prop :=
  ∃ row, s.1.sessions.lookup key = some row ∧ row.claudeSessionId = record.claudeSessionId ∧
    row.identity = record.identity

/-- What a call returns: the stored row of its conversation, as a new one if it inserted it. -/
structure Returned (i : ℕ) (t : SessionArgs) (record : SessionRecord) (s : State) : Prop where
  identity : record.identity = t.identity
  stored : Stored t.key record s
  isNew : ∀ key, s.2 key = some i ↔ record.isNew = true ∧ key = t.key

/-- How a call fails: not for a missing row, and without an insertion. -/
structure Failed (i : ℕ) (e : SessionStoreError) (s : State) : Prop where
  present : e ≠ .workerPanicked
  idle : Idle i s

variable {init : SessionState} {i j : ℕ} {t : SessionArgs} {s s' s'' : State} {key eid : String}
  {record : SessionRecord} {now : ℤ}

theorem Rely.refl (i : ℕ) (s : State) : Rely i s s :=
  ⟨fun _ row h => ⟨row, h, rfl, rfl⟩, fun _ _ => rfl, fun _ h => h⟩

theorem Rely.trans (h : Rely i s s') (h' : Rely i s' s'') : Rely i s s'' := by
  constructor
  · intro key row hl
    obtain ⟨row', hl', hid, ht⟩ := h.rows key row hl
    obtain ⟨row'', hl'', hid', ht'⟩ := h'.rows key row' hl'
    exact ⟨row'', hl'', hid'.trans hid, ht'.trans ht⟩
  · intro key hk
    obtain ⟨row, hl⟩ := AList.mem_iff_lookup.mp hk
    obtain ⟨row', hl', -⟩ := h.rows key row hl
    exact (h'.kept key (AList.mem_of_lookup hl')).trans (h.kept key hk)
  · exact fun key hm => h.mine key (h'.mine key hm)

theorem Idle.stable (h : Idle i s) (hr : Rely i s s') : Idle i s' :=
  fun key hm => h key (hr.mine key hm)

theorem Stored.stable (h : Stored key record s) (hr : Rely i s s') : Stored key record s' := by
  obtain ⟨row, hl, hid, ht⟩ := h
  obtain ⟨row', hl', hid', ht'⟩ := hr.rows key row hl
  exact ⟨row', hl', hid'.trans hid, ht'.trans ht⟩

theorem Returned.stable (h : Returned i t record s) (hr : Rely i s s') :
    Returned i t record s' := by
  refine ⟨h.identity, h.stored.stable hr, fun key => ⟨fun hm => (h.isNew key).mp (hr.mine key hm),
    fun hn => ?_⟩⟩
  obtain ⟨row, hl, -⟩ := h.stored
  rw [hn.2, hr.kept t.key (AList.mem_of_lookup hl)]
  exact (h.isNew t.key).mpr ⟨hn.1, rfl⟩

/-- What a step of a thread can do: nothing to the rows, insert the row of a key that has none,
or note the use of a row. -/
theorem step_cases {op : SessionOp} {r : op.Result} (h : GhostStep j t s op r s') :
    (s'.1.sessions = s.1.sessions ∧ s'.2 = s.2) ∨
    (∃ key row, op = .statement (.insertSession key row) ∧ key ∉ s.1.sessions ∧
      s'.1.sessions = s.1.sessions.insert key row ∧ s'.2 = Function.update s.2 key (some j)) ∨
    (∃ key row now, s.1.sessions.lookup key = some row ∧
      s'.1.sessions = s.1.sessions.insert key { row with lastUsedAtEpochSecs := now } ∧
      s'.2 = s.2) := by
  obtain ⟨⟨hop, hst⟩, hg⟩ := h
  cases op with
  | newUuid =>
    left
    generalize hs' : s'.1 = x at hst
    cases hst with
    | newUuid _ => exact ⟨rfl, hg⟩
  | epochNow =>
    left
    generalize hs' : s'.1 = x at hst
    cases hst with
    | epochNow => exact ⟨rfl, hg⟩
  | statement st =>
    cases st with
    | selectSession key =>
      obtain ⟨rfl, hs'⟩ := hst.executed_of_allowed trivial
      exact .inl ⟨congrArg SessionState.sessions hs', hg⟩
    | insertSession key row =>
      obtain ⟨rfl, hs'⟩ := hst.executed_of_allowed trivial
      by_cases hk : key ∈ s.1.sessions
      · left
        simp only [Statement.answer, Statement.effect, inserter, hk, not_true_eq_false,
          decide_false, if_true] at hs' hg
        exact ⟨congrArg SessionState.sessions hs', hg⟩
      · right; left
        simp only [Statement.answer, Statement.effect, inserter, hk, not_false_eq_true,
          decide_true, if_false] at hs' hg
        exact ⟨key, row, rfl, hk, congrArg SessionState.sessions hs', hg⟩
    | touchSession key now =>
      obtain ⟨rfl, hs'⟩ := hst.executed_of_allowed trivial
      simp only [Statement.effect, Statement.updateRow] at hs'
      cases hl : s.1.sessions.lookup key with
      | none =>
        rw [hl] at hs'
        exact .inl ⟨congrArg SessionState.sessions hs', hg⟩
      | some row =>
        rw [hl] at hs'
        exact .inr (.inr ⟨key, row, now, hl, congrArg SessionState.sessions hs', hg⟩)
    | rotateSession | selectAlias | upsertAlias => exact hop.elim

theorem step_rely {op : SessionOp} {r : op.Result} (h : GhostStep j t s op r s')
    (hm : ∀ key, s'.2 key = some i → s.2 key = some i) : Rely i s s' := by
  rcases step_cases h with ⟨hs, hg⟩ | ⟨key, row, -, hk, hs, hg⟩ | ⟨key, row, now, hl, hs, hg⟩
  · exact ⟨fun key row hl => ⟨row, by rw [hs, hl], rfl, rfl⟩, fun _ _ => by rw [hg], hm⟩
  · refine ⟨fun key' row' hl => ⟨row', ?_, rfl, rfl⟩, fun key' hk' => ?_, hm⟩
    · have hne : key' ≠ key := fun he => hk (he ▸ AList.mem_of_lookup hl)
      rw [hs, AList.lookup_insert_ne hne, hl]
    · have hne : key' ≠ key := fun he => hk (he ▸ hk')
      rw [hg, Function.update_of_ne hne]
  · refine ⟨fun key' row' hl' => ?_, fun _ _ => by rw [hg], hm⟩
    by_cases he : key' = key
    · subst he
      obtain rfl := Option.some.inj (hl.symm.trans hl')
      exact ⟨{ row with lastUsedAtEpochSecs := now }, by rw [hs, AList.lookup_insert], rfl, rfl⟩
    · exact ⟨row', by rw [hs, AList.lookup_insert_ne he, hl'], rfl, rfl⟩

theorem step_inv {op : SessionOp} {r : op.Result} (h : GhostStep j t s op r s')
    (hi : Inv init s) : Inv init s' := by
  rcases step_cases h with ⟨hs, hg⟩ | ⟨key, row, -, hk, hs, hg⟩ | ⟨key, row, now, hl, hs, hg⟩
  · constructor
    · simpa only [hs, hg] using hi.inserted
    · simpa only [hs, hg] using hi.covered
  · constructor
    · intro key' hne
      rw [hs, AList.mem_insert]
      by_cases he : key' = key
      · exact .inl he
      · rw [hg, Function.update_of_ne he] at hne
        exact .inr (hi.inserted key' hne)
    · intro key' hm
      rw [hs, AList.mem_insert] at hm
      by_cases he : key' = key
      · right
        rw [hg, he, Function.update_self]
        simp
      · rw [hg, Function.update_of_ne he]
        exact hi.covered key' (hm.resolve_left he)
  · have hmem : ∀ key', key' ∈ s'.1.sessions ↔ key' ∈ s.1.sessions := by
      intro key'
      rw [hs, AList.mem_insert]
      exact or_iff_right_of_imp fun he => he ▸ AList.mem_of_lookup hl
    constructor
    · simpa only [hmem, hg] using hi.inserted
    · simpa only [hmem, hg] using hi.covered

/-- A program of the store is safe in thread `i`. -/
abbrev SafeCall (init : SessionState) (i : ℕ) (t : SessionArgs) {α : Type} (p : StoreM α)
    (Q : α → State → Prop) (s : State) : Prop :=
  Safe (GhostStep i t) (Inv init) (Rely i) p Q (Failed i) s

section Rules

variable {α : Type} {Q : α → State → Prop}

/-- A call is safe if what follows each of its steps is. -/
theorem safe_call {op : SessionOp} {next : op.Result → StoreM α}
    (h : ∀ s₁ r s₂, Rely i s s₁ → GhostStep i t s₁ op r s₂ → SafeCall init i t (next r) Q s₂) :
    SafeCall init i t (.call op next) Q s :=
  fun s₁ hrel hinv r s₂ hst => ⟨step_inv hst hinv, h s₁ r s₂ hrel hst⟩

theorem idle_step {op : SessionOp} {r : op.Result} (h : Idle i s)
    (hop : ∀ key row, op ≠ .statement (.insertSession key row)) (hst : GhostStep j t s op r s') :
    Idle i s' := by
  intro key hm
  rcases step_cases hst with ⟨-, hg⟩ | ⟨key', row, rfl, -⟩ | ⟨-, -, -, -, -, hg⟩
  · exact h key (by rw [← hg, hm])
  · exact hop key' row rfl
  · exact h key (by rw [← hg, hm])

theorem safe_fetchSession (hidle : Idle i s) :
    SafeCall init i t (fetchSession key eid)
      (fun found s' => Idle i s' ∧ (found = none → key ∉ s.1.sessions) ∧
        ∀ record, found = some record → record.isNew = false ∧ Stored key record s') s := by
  apply Safe.bind (Rely.refl i)
  apply safe_call
  intro s₁ r s₂ hrel hst
  have hidle₂ : Idle i s₂ := idle_step (hidle.stable hrel) (by simp) hst
  obtain ⟨⟨-, hex⟩, -⟩ := hst
  obtain ⟨rfl, hs₂⟩ := hex.executed_of_allowed trivial
  intro s₃ hrel₃ s₄ hrel₄
  refine ⟨hidle₂.stable (hrel₃.trans hrel₄), fun hnone hk => ?_, fun record hrecord => ?_⟩
  · obtain ⟨row, hl⟩ := AList.mem_iff_lookup.mp hk
    obtain ⟨row', hl', -⟩ := hrel.rows key row hl
    simp [Statement.answer, hl'] at hnone
  · obtain ⟨row, hl, rfl⟩ := Option.map_eq_some_iff.mp hrecord
    have hstored : Stored key (buildSessionRecord key eid row false) s₂ :=
      ⟨row, by rw [hs₂]; exact hl, rfl, rfl⟩
    exact ⟨rfl, hstored.stable (hrel₃.trans hrel₄)⟩

theorem safe_useRecord (hidle : Idle i s) (hnew : record.isNew = false)
    (hstored : Stored t.key record s) :
    SafeCall init i t (useRecord t.key t.identity now record) (Returned i t) s := by
  unfold useRecord ensureSessionIdentity
  split_ifs with ht
  · rw [ret_bind]
    apply Safe.bind (Rely.refl i)
    apply safe_call
    intro s₁ r s₂ hrel hst
    have hidle₂ : Idle i s₂ := idle_step (hidle.stable hrel) (by simp) hst
    have hrel₂ : Rely i s₁ s₂ := step_rely hst fun key hm => absurd hm (hidle₂ key)
    obtain ⟨⟨-, hex⟩, -⟩ := hst
    obtain ⟨rfl, -⟩ := hex.executed_of_allowed trivial
    have hret : Returned i t { record with lastUsedAtEpochSecs := now } s₂ := by
      refine ⟨ht, hstored.stable (hrel.trans hrel₂), fun key => ⟨fun hm => ?_, fun hn => ?_⟩⟩
      · exact absurd hm (hidle₂ key)
      · simp [hnew] at hn
    exact fun s₃ hrel₃ s₄ hrel₄ => hret.stable (hrel₃.trans hrel₄)
  · intro s₁ hrel
    exact ⟨by simp [ownedBy], hidle.stable hrel⟩

/-- A thread finds or creates the row of its conversation, whatever the others do. -/
theorem safe_getOrCreate (hidle : Idle i s) :
    SafeCall init i t t.getOrCreate (Returned i t) s := by
  unfold SessionArgs.getOrCreate getOrCreateByKey
  apply Safe.seq (Q := fun _ s' => Idle i s') (Rely.refl i)
  · apply safe_call
    intro s₁ r s₂ hrel hst s₃ hrel₃
    exact (idle_step (hidle.stable hrel) (by simp) hst).stable hrel₃
  intro now s₁ hidle₁
  apply Safe.seq (Rely.refl i) (safe_fetchSession hidle₁)
  rintro (_ | record) s₂ ⟨hidle₂, -, hfound⟩
  · apply Safe.seq (Q := fun _ s' => Idle i s') (Rely.refl i)
    · apply safe_call
      intro s₃ r s₄ hrel hst s₅ hrel₅
      exact (idle_step (hidle₂.stable hrel) (by simp) hst).stable hrel₅
    intro claudeSessionId s₃ hidle₃
    apply Safe.bind (Rely.refl i)
    apply safe_call
    intro s₄ r s₅ hrel hst
    have hidle₄ : Idle i s₄ := hidle₃.stable hrel
    obtain ⟨⟨-, hex⟩, hg⟩ := hst
    obtain ⟨rfl, hs₅⟩ := hex.executed_of_allowed trivial
    by_cases hk : t.key ∈ s₄.1.sessions
    · -- Another thread has inserted the row in between, and no thread removes it.
      simp only [Statement.answer, Statement.effect, inserter, hk, not_true_eq_false,
        decide_false, if_true] at hs₅ hg ⊢
      have hrel₅ : Rely i s₄ s₅ := by
        obtain rfl : s₅ = s₄ := Prod.ext hs₅ hg
        exact Rely.refl i s₅
      intro s₆ hrel₆
      apply Safe.seq (Rely.refl i) (safe_fetchSession (hidle₄.stable (hrel₅.trans hrel₆)))
      rintro (_ | record) s₇ ⟨hidle₇, hmissing, hfound⟩
      · obtain ⟨row, hl⟩ := AList.mem_iff_lookup.mp hk
        obtain ⟨row', hl', -⟩ := (hrel₅.trans hrel₆).rows t.key row hl
        exact absurd (AList.mem_of_lookup hl') (hmissing rfl)
      · obtain ⟨hnew, hstored⟩ := hfound record rfl
        exact safe_useRecord hidle₇ hnew hstored
    · simp only [Statement.answer, Statement.effect, inserter, hk, not_false_eq_true,
        decide_true, if_false] at hs₅ hg ⊢
      have hret : Returned i t (buildSessionRecord t.key t.externalSessionId
          ⟨claudeSessionId, t.identity, now, now⟩ true) s₅ := by
        refine ⟨rfl, ⟨_, by rw [hs₅]; exact AList.lookup_insert _, rfl, rfl⟩, fun key => ?_⟩
        rw [hg]
        by_cases he : key = t.key
        · simp [he, buildSessionRecord]
        · rw [Function.update_of_ne he]
          simp [he, hidle₄ key]
      exact fun s₆ hrel₆ s₇ hrel₇ => hret.stable (hrel₆.trans hrel₇)
  · obtain ⟨hnew, hstored⟩ := hfound record rfl
    exact safe_useRecord hidle₂ hnew hstored

end Rules

theorem guarded (init : SessionState) :
    Pool.Guarded SessionArgs.getOrCreate GhostStep (Pool.GhostEnv fun _ _ => False) (Inv init) Rely
      Idle Returned (fun i _ => Failed i) where
  refl := Rely.refl
  trans _ _ _ _ h h' := h.trans h'
  rely i j t s op r s' hne hst := by
    apply step_rely hst
    intro key hm
    rcases step_cases hst with ⟨-, hg⟩ | ⟨key', row, -, -, -, hg⟩ | ⟨-, -, -, -, -, hg⟩
    · rw [← hg, hm]
    · rw [hg] at hm
      by_cases he : key = key'
      · rw [he, Function.update_self] at hm
        exact absurd (Option.some.inj hm).symm hne
      · rwa [Function.update_of_ne he] at hm
    · rw [← hg, hm]
  env_inv _ _ he _ := he.1.elim
  env_rely _ _ _ he := he.1.elim
  unused _ _ _ h hr := h.stable hr
  safe _ _ _ h _ := safe_getOrCreate h

theorem only_getOrCreate (t : SessionArgs) : Only Op t.getOrCreate :=
  only_getOrCreateByKey trivial trivial (fun _ => trivial) (fun _ _ => trivial)
    (fun _ _ => trivial) t.key t.identity t.externalSessionId

/-- In every interleaving, the threads that have returned a record have what `Returned` says, with
some ghost state, and those that have failed did not miss a row. -/
theorem returned {P : SessionPool SessionRecord} (h : Reachable FirstUse ⟨init, []⟩ P) :
    ∃ g, Inv init (P.shared, g) ∧
      (∀ i t record, P.Returns i t record → Returned i t record (P.shared, g)) ∧
      (∀ i t e, P.Fails i t e → Failed i e (P.shared, g)) ∧
      ∀ i, P.threads.length ≤ i → Idle i (P.shared, g) := by
  obtain ⟨honly, -⟩ := Pool.reachable_only only_getOrCreate h
  obtain ⟨g, hghost⟩ := Pool.reachable_ghost inserter (fun _ => none) honly
  have hinit : Inv init (init, fun _ => none) := ⟨fun key h => absurd rfl h, fun key => .inl⟩
  have hinv := (guarded init).reachable hinit (fun i key => by simp) hghost
  refine ⟨g, hinv.shared, fun i t record hi => ?_, fun i t e hi => ?_, hinv.unused⟩
  · exact hinv.safe i t _ hi _ (Rely.refl i _)
  · exact hinv.safe i t _ hi _ (Rely.refl i _)

end FirstUse

/-- In every interleaving of any number of calls on any tables: no call misses a row after an
insert conflict; a call that returns a record returns the Claude session id stored for its
conversation, so all of them return the same one; at most one call of a conversation returns it as
a new one; and exactly one does once all calls have ended, if the row did not exist before and some
call of the conversation returned a record. -/
theorem concurrent_first_use {init : SessionState} {P : SessionPool SessionRecord}
    (h : Reachable FirstUse ⟨init, []⟩ P) :
    (∀ i t, ¬ P.Fails i t .workerPanicked) ∧
    (∀ i t record, P.Returns i t record →
      ∃ row, P.shared.sessions.lookup t.key = some row ∧ row.identity = t.identity ∧
        row.claudeSessionId = record.claudeSessionId) ∧
    (∀ i i' t t' record record', P.Returns i t record → P.Returns i' t' record' →
      t.identity = t'.identity → record.claudeSessionId = record'.claudeSessionId) ∧
    (∀ i i' t t' record record', P.Returns i t record → P.Returns i' t' record' →
      t.identity = t'.identity → record.isNew = true → record'.isNew = true → i = i') ∧
    (∀ i t record, P.Returns i t record → t.key ∉ init.sessions → P.AllEnded →
      ∃ i' t' record', P.Returns i' t' record' ∧ t'.identity = t.identity ∧
        record'.isNew = true) := by
  obtain ⟨g, hinv, hret, hfail, hidle⟩ := FirstUse.returned h
  have hstored : ∀ i t record, P.Returns i t record →
      ∃ row, P.shared.sessions.lookup t.key = some row ∧ row.identity = t.identity ∧
        row.claudeSessionId = record.claudeSessionId := by
    intro i t record hi
    obtain ⟨row, hl, hid, ht⟩ := (hret i t record hi).stored
    exact ⟨row, hl, ht.trans (hret i t record hi).identity, hid⟩
  refine ⟨fun i t hi => (hfail i t _ hi).present rfl, hstored, ?_, ?_, ?_⟩
  · intro i i' t t' record record' hi hi' ht
    obtain ⟨row, hl, -, hid⟩ := hstored i t record hi
    obtain ⟨row', hl', -, hid'⟩ := hstored i' t' record' hi'
    have hkey : t.key = t'.key := congrArg conversationSessionKey ht
    obtain rfl := Option.some.inj (hl.symm.trans (hkey ▸ hl'))
    exact hid.symm.trans hid'
  · intro i i' t t' record record' hi hi' ht hn hn'
    have hg := ((hret i t record hi).isNew t.key).mpr ⟨hn, rfl⟩
    have hg' := ((hret i' t' record' hi').isNew t'.key).mpr ⟨hn', rfl⟩
    have hkey : t.key = t'.key := congrArg conversationSessionKey ht
    exact Option.some.inj (hg.symm.trans (hkey ▸ hg'))
  · intro i t record hi hinit hended
    obtain ⟨row, hl, ht, -⟩ := hstored i t record hi
    have hne := (hinv.covered t.key (AList.mem_of_lookup hl)).resolve_left hinit
    obtain ⟨i', hg⟩ := Option.ne_none_iff_exists'.mp hne
    -- The thread that inserted the row exists, and it has returned it.
    have hlt : i' < P.threads.length := by
      by_contra hge
      exact hidle i' (by omega) t.key hg
    obtain ⟨⟨t', p⟩, hi'⟩ : ∃ thread, P.threads[i']? = some thread :=
      ⟨_, List.getElem?_eq_getElem hlt⟩
    cases p with
    | call op next => exact (hended _ (List.mem_of_getElem? hi')).elim
    | fail e => exact absurd hg ((hfail i' t' e hi').idle t.key)
    | ret record' =>
      obtain ⟨hnew, hkey⟩ := ((hret i' t' record' hi').isNew t.key).mp hg
      obtain ⟨row', hl', ht', -⟩ := hstored i' t' record' hi'
      obtain rfl := Option.some.inj (hl.symm.trans (hkey ▸ hl'))
      exact ⟨i', t', record', hi', ht'.symm.trans ht, hnew⟩

/-- Two calls of one conversation read before either inserts, and a third one has the same key
but another conversation: one of the first two returns a new session, and all three end. -/
theorem concurrent_first_use_raced :
    let calls : List SessionArgs := [⟨⟨"qq", "a", "b::c"⟩, "e"⟩, ⟨⟨"qq", "a", "b::c"⟩, "f"⟩,
      ⟨⟨"qq", "a::b", "c"⟩, "g"⟩]
    let P := Pool.schedule SessionState.handle SessionArgs.getOrCreate .empty calls
      [0, 1, 2, 0, 1, 2, 0, 1, 2, 0, 1, 1, 1, 2, 2]
    (P.threads.map fun thread => match thread.2 with
      | .ret record => some record.isNew
      | _ => none) = [some true, some false, none] ∧
    ∀ i t, ¬ P.Fails i t .workerPanicked := by
  refine ⟨by decide +kernel, ?_⟩
  have hstep : ∀ (i : ℕ) (t : SessionArgs) (s : SessionState) (op : SessionOp),
      SessionStep False s op (s.handle op).1 (s.handle op).2 :=
    fun _ _ => SessionState.step_handle False
  exact (concurrent_first_use (Pool.reachable_schedule hstep _ _ _)).1

end DogBot
