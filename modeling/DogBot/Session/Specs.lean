import DogBot.Session.Change

/-! # What the operations of the store do

Each operation, run alone, ends with a record of the requested identity or with
an error. All of them change the tables by `Changes` only. A conflict is
reported before the first change; any other error is a fault of the database.
-/

namespace DogBot

variable {s s' : SessionState} {st : Statement} {r : Except SessionStoreError st.Answer}

theorem SessionStep.answer {faulty : Prop} (h : SessionStep faulty s (.statement st) r s') :
    r = .ok (st.answer s) ∨ ∃ m, r = .error (.postgres m) := by
  cases h with
  | executed => exact .inl rfl
  | refused | failed | unconfirmed => exact .inr ⟨_, rfl⟩

theorem SessionStep.effect {faulty : Prop} (h : SessionStep faulty s (.statement st) r s') :
    s' = st.effect s ∨ s' = s := by
  cases h with
  | executed | unconfirmed => exact .inl rfl
  | refused | failed => exact .inr rfl

theorem SessionStep.executed_of_allowed (h : SessionStep False s (.statement st) r s')
    (ha : st.Allowed s) : r = .ok (st.answer s) ∧ s' = st.effect s := by
  cases h with
  | executed _ => exact ⟨rfl, rfl⟩
  | refused hn => exact absurd ha hn
  | failed hf => exact hf.elim
  | unconfirmed hf => exact hf.elim

end DogBot

namespace DogBot.SessionStore

open Program

variable {faulty : Prop} {s s' : SessionState} {t : SessionIdentity} {eid key : String} {now : ℤ}
  {bound : SessionState → String → Prop} {record : SessionRecord} {e : SessionStoreError}

section Rules

variable {α : Type} {E : SessionStoreError → SessionState → Prop}

theorem always_statement {st : Statement} {Q : st.Answer → SessionState → Prop} :
    Always (SessionStep faulty) (statement st) Q E s ↔
      (st.Allowed s → Q (st.answer s) (st.effect s) ∧
        ∀ m, faulty → E (.postgres m) (st.effect s)) ∧
      ∀ m, faulty ∨ ¬ st.Allowed s → E (.postgres m) s := by
  rw [statement, always_call]
  constructor
  · intro h
    refine ⟨fun ha => ⟨always_ret.mp (h _ _ (.executed ha)),
      fun m hf => always_fail.mp (h _ _ (.unconfirmed hf ha))⟩, ?_⟩
    rintro m (hf | ha)
    · exact always_fail.mp (h _ _ (.failed hf))
    · exact always_fail.mp (h _ _ (.refused ha))
  · rintro ⟨hok, herr⟩ r s' hs
    cases hs with
    | executed ha => exact always_ret.mpr (hok ha).1
    | refused ha => exact always_fail.mpr (herr _ (.inr ha))
    | failed hf => exact always_fail.mpr (herr _ (.inl hf))
    | unconfirmed hf ha => exact always_fail.mpr ((hok ha).2 _ hf)

theorem always_newUuid {Q : String → SessionState → Prop} :
    Always (SessionStep faulty) newUuid Q E s ↔ ∀ id, id ∉ s.issued → Q id (s.issue id) := by
  rw [newUuid, always_call]
  constructor
  · exact fun h id hid => always_ret.mp (h _ _ (.newUuid hid))
  · rintro h r s' hs
    cases hs with
    | newUuid hid => exact always_ret.mpr (h _ hid)

theorem always_epochNow {Q : ℤ → SessionState → Prop} :
    Always (SessionStep faulty) epochNow Q E s ↔ ∀ now, Q now s := by
  rw [epochNow, always_call]
  constructor
  · exact fun h now => always_ret.mp (h _ _ .epochNow)
  · rintro h r s' hs
    cases hs with
    | epochNow => exact always_ret.mpr (h _)

theorem always_fetchSession {Q : Option SessionRecord → SessionState → Prop} :
    Always (SessionStep faulty) (fetchSession key eid) Q E s ↔
      Q ((s.sessions.lookup key).map fun row => buildSessionRecord key eid row false) s ∧
        ∀ m, faulty → E (.postgres m) s := by
  rw [fetchSession, always_bind, @always_statement _ _ _ (.selectSession key)]
  simp only [Statement.Allowed, Statement.answer, Statement.effect, pure_eq, always_ret]
  grind

theorem always_lookupSessionAlias {Q : Option String → SessionState → Prop} :
    Always (SessionStep faulty) (lookupSessionAlias eid) Q E s ↔
      Q (s.aliases.lookup eid) s ∧ ∀ m, faulty → E (.postgres m) s := by
  rw [lookupSessionAlias, @always_statement _ _ _ (.selectAlias eid)]
  simp only [Statement.Allowed, Statement.answer, Statement.effect]
  grind

theorem always_touch {Q : Unit → SessionState → Prop} {row : SessionRow}
    (hr : s.sessions.lookup (conversationSessionKey row.identity) = some row) :
    Always (SessionStep faulty)
        (statement (.touchSession (conversationSessionKey row.identity) now)) Q E s ↔
      Q () (s.insertRow { row with lastUsedAtEpochSecs := now }) ∧
        ∀ m, faulty → E (.postgres m) s ∧
          E (.postgres m) (s.insertRow { row with lastUsedAtEpochSecs := now }) := by
  rw [@always_statement _ _ _ (.touchSession (conversationSessionKey row.identity) now)]
  simp only [Statement.Allowed, Statement.answer, Statement.effect, Statement.updateRow, hr,
    SessionState.insertRow]
  grind

theorem always_insert {Q : Bool → SessionState → Prop} {row : SessionRow}
    (hk : conversationSessionKey row.identity ∉ s.sessions) :
    Always (SessionStep faulty)
        (statement (.insertSession (conversationSessionKey row.identity) row)) Q E s ↔
      Q true (s.insertRow row) ∧
        ∀ m, faulty → E (.postgres m) s ∧ E (.postgres m) (s.insertRow row) := by
  rw [@always_statement _ _ _ (.insertSession (conversationSessionKey row.identity) row)]
  simp only [Statement.Allowed, Statement.answer, Statement.effect, hk, SessionState.insertRow,
    not_false_eq_true, decide_true, if_false]
  grind

theorem always_rotate {Q : Unit → SessionState → Prop} {row : SessionRow} {id : String}
    (hr : s.sessions.lookup (conversationSessionKey row.identity) = some row) :
    Always (SessionStep faulty)
        (statement (.rotateSession (conversationSessionKey row.identity) id now)) Q E s ↔
      Q () (s.insertRow ⟨id, row.identity, now, now⟩) ∧
        ∀ m, faulty → E (.postgres m) s ∧
          E (.postgres m) (s.insertRow ⟨id, row.identity, now, now⟩) := by
  rw [@always_statement _ _ _ (.rotateSession (conversationSessionKey row.identity) id now)]
  simp only [Statement.Allowed, Statement.answer, Statement.effect, Statement.updateRow, hr,
    SessionState.insertRow]
  grind

theorem always_upsertSessionAlias {Q : Unit → SessionState → Prop} (hk : key ∈ s.sessions) :
    Always (SessionStep faulty) (upsertSessionAlias eid key) Q E s ↔
      Q () (s.bind eid key) ∧
        ∀ m, faulty → E (.postgres m) s ∧ E (.postgres m) (s.bind eid key) := by
  rw [upsertSessionAlias, @always_statement _ _ _ (.upsertAlias eid key)]
  simp only [Statement.Allowed, Statement.answer, Statement.effect, hk, SessionState.bind]
  grind

theorem always_ensureSessionIdentity {Q : Unit → SessionState → Prop} :
    Always (SessionStep faulty) (ensureSessionIdentity record t) Q E s ↔
      if record.identity = t then Q () s else E (ownedBy record.externalSessionId record) s := by
  unfold ensureSessionIdentity
  split_ifs <;> simp

end Rules

/-- An error is a conflict for the given reason, or a fault of the database. Where there is a
reason nothing was changed. -/
structure Refused (faulty reason : Prop) (s : SessionState) (e : SessionStoreError)
    (s' : SessionState) : Prop where
  unchanged : reason → s'.sessions = s.sessions ∧ s'.aliases = s.aliases
  reason : e.isConflict = true → reason
  fault : e.isConflict = false → faulty

theorem Refused.of_conflict {reason : Prop} (he : e.isConflict = true) (hr : reason) :
    Refused faulty reason s e s :=
  ⟨fun _ => ⟨rfl, rfl⟩, fun _ => hr, fun h => by simp [he] at h⟩

theorem Refused.of_fault {reason : Prop} {m : String} (hf : faulty) (hr : ¬ reason) :
    Refused faulty reason s (.postgres m) s' :=
  ⟨fun h => absurd h hr, nofun, fun _ => hf⟩

theorem Refused.of_early_fault {reason : Prop} {m : String} (hf : faulty) :
    Refused faulty reason s (.postgres m) s :=
  ⟨fun _ => ⟨rfl, rfl⟩, nofun, fun _ => hf⟩

theorem Refused.congr {reason reason' : Prop} (h : Refused faulty reason s e s')
    (hr : reason ↔ reason') : Refused faulty reason' s e s' :=
  ⟨fun hn => h.unchanged (hr.mpr hn), fun he => hr.mp (h.reason he), h.fault⟩

theorem Refused.mono {reason reason' : Prop} (h : Refused faulty reason s e s)
    (hr : reason → reason') : Refused faulty reason' s e s :=
  ⟨fun _ => ⟨rfl, rfl⟩, fun he => hr (h.reason he), h.fault⟩

/-- Later on only faults are left. -/
theorem Refused.of_false {reason : Prop} {s₀ : SessionState} (h : Refused faulty False s e s')
    (hr : ¬ reason) : Refused faulty reason s₀ e s' :=
  ⟨fun hn => absurd hn hr, fun he => (h.reason he).elim, h.fault⟩

/-- The record is the requested identity's current one. -/
def Obtained (t : SessionIdentity) (record : SessionRecord) (s : SessionState) : Prop :=
  record.identity = t ∧ ∃ row, s.sessions.lookup (conversationSessionKey t) = some row ∧
    row.identity = t ∧ row.claudeSessionId = record.claudeSessionId

theorem Obtained.owner (h : Obtained t record s) : s.owner (conversationSessionKey t) = some t := by
  obtain ⟨-, row, hr, rfl, -⟩ := h
  exact owner_of_lookup hr

theorem validate_spec (faulty : Prop) (s : SessionState) (eid : String) (t : SessionIdentity) :
    Always (SessionStep faulty) (validateExternalSessionBinding eid t)
      (fun _ s' => s' = s ∧ s.Bindable eid t)
      (fun e s' => s' = s ∧ Refused faulty (¬ s.Bindable eid t) s e s) s := by
  rw [validateExternalSessionBinding, always_bind, always_lookupSessionAlias]
  refine ⟨?_, fun _ hf => ⟨rfl, .of_early_fault hf⟩⟩
  cases ha : s.aliases.lookup eid with
  | none => exact ⟨rfl, fun key hk => by simp [ha] at hk⟩
  | some key =>
    simp only
    split_ifs with hkey
    · exact ⟨rfl, fun key' hk => by rw [ha] at hk; exact Option.some.inj hk ▸ hkey⟩
    · have hno : ¬ s.Bindable eid t := fun hb => hkey (hb key ha)
      rw [always_bind, always_fetchSession]
      refine ⟨?_, fun _ hf => ⟨rfl, .of_early_fault hf⟩⟩
      cases s.sessions.lookup key with
      | none => exact ⟨rfl, .of_conflict rfl hno⟩
      | some row => exact ⟨rfl, .of_conflict rfl hno⟩

/-- What the operations on the row of a conversation can do. They end with a conflict for the
given reason only, and with a record only without it. -/
def RowSpec (faulty : Prop) (t : SessionIdentity) (reason : Prop) (s : SessionState)
    (p : StoreM SessionRecord) : Prop :=
  ∀ bound, Always (SessionStep faulty) p
    (fun record s' =>
      Changes t bound s s' ∧ s'.aliases = s.aliases ∧ Obtained t record s' ∧ ¬ reason)
    (fun e s' => Changes t bound s s' ∧ s'.aliases = s.aliases ∧ Refused faulty reason s e s') s

theorem useRecord_spec {row : SessionRow}
    (hr : s.sessions.lookup (conversationSessionKey t) = some row) :
    RowSpec faulty t (row.identity ≠ t) s
      (useRecord (conversationSessionKey t) t now
        (buildSessionRecord (conversationSessionKey t) eid row false)) := by
  intro bound
  rw [useRecord, always_bind, always_ensureSessionIdentity]
  split_ifs with ht
  · have ht : row.identity = t := ht
    subst ht
    have hc : Changes row.identity bound s (s.insertRow { row with lastUsedAtEpochSecs := now }) :=
      .single (.touch hr rfl)
    rw [always_bind, always_touch hr]
    refine ⟨⟨hc, rfl, ⟨rfl, _, AList.lookup_insert _, rfl, rfl⟩, fun h => h rfl⟩,
      fun _ hf => ⟨?_, ?_⟩⟩
    · exact ⟨.refl, rfl, .of_early_fault hf⟩
    · exact ⟨hc, rfl, .of_fault hf fun h => h rfl⟩
  · exact ⟨.refl, rfl, .of_conflict rfl ht⟩

theorem getOrCreateByKey_spec (faulty : Prop) (s : SessionState) (eid : String)
    (t : SessionIdentity) :
    RowSpec faulty t (s.Taken t) s (getOrCreateByKey (conversationSessionKey t) t eid) := by
  intro bound
  rw [getOrCreateByKey, always_bind, always_epochNow]
  intro now
  rw [always_bind, always_fetchSession]
  refine ⟨?_, fun _ hf => ⟨.refl, rfl, .of_early_fault hf⟩⟩
  cases hr : s.sessions.lookup (conversationSessionKey t) with
  | some row =>
    have hreason : s.Taken t ↔ row.identity ≠ t := by
      simp [SessionState.Taken, owner_of_lookup hr]
    rw [hreason]
    exact useRecord_spec hr bound
  | none =>
    have hk : conversationSessionKey t ∉ s.sessions := AList.lookup_eq_none.mp hr
    simp only [Option.map_none, always_bind, always_newUuid]
    intro id hid
    have hc : Changes t bound s ((s.issue id).insertRow ⟨id, t, now, now⟩) :=
      .single (.create hid hk)
    have hfree : ¬ s.Taken t := by simp [SessionState.Taken, SessionState.owner, hr]
    refine (@always_insert faulty (s.issue id) _ _ ⟨id, t, now, now⟩ hk).mpr
      ⟨⟨hc, rfl, ⟨rfl, _, AList.lookup_insert _, rfl, rfl⟩, hfree⟩, fun _ hf => ⟨?_, ?_⟩⟩
    · exact ⟨.single (.issue hid), rfl, .of_fault hf hfree⟩
    · exact ⟨hc, rfl, .of_fault hf hfree⟩

theorem resetByKey_spec (faulty : Prop) (s : SessionState) (eid : String) (t : SessionIdentity) :
    RowSpec faulty t (s.owner (conversationSessionKey t) ≠ some t) s
      (resetByKey (conversationSessionKey t) t eid) := by
  intro bound
  rw [resetByKey, always_bind, always_epochNow]
  intro now
  rw [always_bind, always_fetchSession]
  refine ⟨?_, fun _ hf => ⟨.refl, rfl, .of_early_fault hf⟩⟩
  cases hr : s.sessions.lookup (conversationSessionKey t) with
  | none =>
    have hno : s.owner (conversationSessionKey t) ≠ some t := by simp [SessionState.owner, hr]
    exact ⟨.refl, rfl, .of_conflict rfl hno⟩
  | some row =>
    simp only [Option.map_some]
    rw [always_bind, always_ensureSessionIdentity]
    split_ifs with ht
    · have ht : row.identity = t := ht
      subst ht
      rw [always_bind, always_newUuid]
      intro id hid
      have hc : Changes row.identity bound s
          ((s.issue id).insertRow ⟨id, row.identity, now, now⟩) := .single (.rotate hid hr rfl)
      rw [always_bind]
      have hown : ¬ s.owner (conversationSessionKey row.identity) ≠ some row.identity :=
        not_not.mpr (owner_of_lookup hr)
      refine (@always_rotate faulty (s.issue id) now _ _ row id hr).mpr
        ⟨⟨hc, rfl, ⟨rfl, _, AList.lookup_insert _, rfl, rfl⟩, hown⟩, fun _ hf => ⟨?_, ?_⟩⟩
      · exact ⟨.single (.issue hid), rfl, .of_fault hf hown⟩
      · exact ⟨hc, rfl, .of_fault hf hown⟩
    · have hno : s.owner (conversationSessionKey t) ≠ some t := by
        rw [owner_of_lookup hr]
        exact fun h => ht (Option.some.inj h)
      exact ⟨.refl, rfl, .of_conflict rfl hno⟩

theorem upsertSessionAlias_spec (ho : s.owner (conversationSessionKey t) = some t)
    (bound : SessionState → String → Prop) (hb : bound s eid) :
    Always (SessionStep faulty) (upsertSessionAlias eid (conversationSessionKey t))
      (fun _ s' => Changes t bound s s' ∧ s'.sessions = s.sessions ∧
        s'.aliases.lookup eid = some (conversationSessionKey t))
      (fun e s' => Changes t bound s s' ∧ Refused faulty False s e s') s := by
  obtain ⟨row, hr, -⟩ := Option.map_eq_some_iff.mp ho
  have hc : Changes t bound s (s.bind eid (conversationSessionKey t)) := .single (.bind ho hb)
  rw [always_upsertSessionAlias (AList.mem_of_lookup hr)]
  exact ⟨⟨hc, rfl, AList.lookup_insert _⟩,
    fun _ hf => ⟨⟨.refl, .of_early_fault hf⟩, hc, .of_fault hf not_false⟩⟩

/-- A validated binding: the external id is not bound to another conversation. -/
def Validated (t : SessionIdentity) (eid : String) (s : SessionState) (e : String) : Prop :=
  e = eid ∧ s.Bindable eid t

theorem bindExternalSessionId_spec (faulty : Prop) (s : SessionState) (eid : String)
    (t : SessionIdentity) :
    Always (SessionStep faulty) (bindExternalSessionId eid t)
      (fun _ s' => Changes t (Validated t eid) s s' ∧ s'.sessions = s.sessions ∧
        s'.aliases.lookup eid = some (conversationSessionKey t) ∧
        s.Bindable eid t ∧ s.owner (conversationSessionKey t) = some t)
      (fun e s' => Changes t (Validated t eid) s s' ∧
        Refused faulty (¬ s.Bindable eid t ∨ s.owner (conversationSessionKey t) ≠ some t) s e s')
      s := by
  rw [bindExternalSessionId, always_bind]
  refine (validate_spec faulty s eid t).mono ?_ ?_
  · rintro _ s₁ ⟨rfl, hb⟩
    rw [always_bind, always_fetchSession]
    refine ⟨?_, fun _ hf => ⟨.refl, .of_early_fault hf⟩⟩
    cases hr : s₁.sessions.lookup (conversationSessionKey t) with
    | none =>
      have hno : s₁.owner (conversationSessionKey t) ≠ some t := by simp [SessionState.owner, hr]
      exact ⟨.refl, .of_conflict rfl (.inr hno)⟩
    | some row =>
      simp only [Option.map_some]
      rw [always_bind, always_ensureSessionIdentity]
      split_ifs with ht
      · have ht : row.identity = t := ht
        subst ht
        have ho := owner_of_lookup hr
        refine (upsertSessionAlias_spec ho (Validated row.identity eid) ⟨rfl, hb⟩).mono ?_ ?_
        · rintro _ s' ⟨hc, hs, hl⟩
          exact ⟨hc, hs, hl, hb, ho⟩
        · rintro e s' ⟨hc, h⟩
          exact ⟨hc, h.of_false (not_or.mpr ⟨not_not.mpr hb, not_not.mpr ho⟩)⟩
      · have hno : s₁.owner (conversationSessionKey t) ≠ some t := by
          rw [owner_of_lookup hr]
          exact fun h => ht (Option.some.inj h)
        exact ⟨.refl, .of_conflict rfl (.inr hno)⟩
  · rintro e s₁ ⟨rfl, h⟩
    exact ⟨.refl, h.mono .inl⟩

theorem bindable_congr (h : s.Bindable eid t) (ha : s'.aliases = s.aliases) : s'.Bindable eid t :=
  fun key hk => h key (ha ▸ hk)

theorem Obtained.congr (h : Obtained t record s) (hs : s'.sessions = s.sessions) :
    Obtained t record s' := by
  obtain ⟨ht, row, hr, hrow⟩ := h
  exact ⟨ht, row, hs ▸ hr, hrow⟩

/-- What an operation does that ends with a record and a binding of an external id. -/
def BindSpec (faulty : Prop) (t : SessionIdentity) (eid : String)
    (bound : SessionState → String → Prop) (reason : Prop) (s : SessionState)
    (p : StoreM SessionRecord) : Prop :=
  Always (SessionStep faulty) p
    (fun record s' => Changes t bound s s' ∧ Obtained t record s' ∧
      s'.aliases.lookup eid = some (conversationSessionKey t) ∧ ¬ reason)
    (fun e s' => Changes t bound s s' ∧ Refused faulty reason s e s') s

theorem getOrCreateBoundSession_spec (faulty : Prop) (s : SessionState) (eid : String)
    (t : SessionIdentity) :
    BindSpec faulty t eid (Validated t eid) (¬ s.Bindable eid t ∨ s.Taken t) s
      (getOrCreateBoundSession eid t) := by
  rw [BindSpec, getOrCreateBoundSession, always_bind]
  refine (validate_spec faulty s eid t).mono ?_ ?_
  · rintro _ s₁ ⟨rfl, hb⟩
    rw [always_bind]
    refine (getOrCreateByKey_spec faulty s₁ eid t (Validated t eid)).mono ?_ ?_
    · rintro record s₂ ⟨hc, ha, ho, hfree⟩
      have hno : ¬ (¬ s₁.Bindable eid t ∨ s₁.Taken t) := not_or.mpr ⟨not_not.mpr hb, hfree⟩
      rw [always_bind]
      refine (upsertSessionAlias_spec ho.owner (Validated t eid)
        ⟨rfl, bindable_congr hb ha⟩).mono ?_ ?_
      · rintro _ s₃ ⟨hc', hs, hl⟩
        exact ⟨hc.trans hc', ho.congr hs, hl, hno⟩
      · rintro e s₃ ⟨hc', h⟩
        exact ⟨hc.trans hc', h.of_false hno⟩
    · rintro e s₂ ⟨hc, -, h⟩
      exact ⟨hc, h.congr (or_iff_right (not_not.mpr hb)).symm⟩
  · rintro e s₁ ⟨rfl, h⟩
    exact ⟨.refl, h.mono .inl⟩

theorem resetBoundSession_spec (faulty : Prop) (s : SessionState) (eid : String)
    (t : SessionIdentity) :
    BindSpec faulty t eid (fun _ e => e = eid)
      (s.owner (conversationSessionKey t) ≠ some t) s (resetBoundSession eid t) := by
  rw [BindSpec, resetBoundSession, always_bind]
  refine (resetByKey_spec faulty s eid t fun _ e => e = eid).mono ?_ ?_
  · rintro record s₁ ⟨hc, -, ho, hfree⟩
    rw [always_bind]
    refine (upsertSessionAlias_spec ho.owner (fun _ e => e = eid) rfl).mono ?_ ?_
    · rintro _ s₂ ⟨hc', hs, hl⟩
      exact ⟨hc.trans hc', ho.congr hs, hl, hfree⟩
    · rintro e s₂ ⟨hc', h⟩
      exact ⟨hc.trans hc', h.of_false hfree⟩
  · rintro e s₁ ⟨hc, -, h⟩
    exact ⟨hc, h⟩

/-- The session of a request with an external id. -/
theorem withExternalSession_spec {request : RunRequest} {reason : Prop}
    {operation : StoreM SessionRecord} (hid : Text.trim request.sessionId ≠ "")
    (hop : RowSpec faulty request.identity reason s operation) :
    BindSpec faulty request.identity request.sessionId
      (Validated request.identity request.sessionId)
      (¬ s.Bindable request.sessionId request.identity ∨ reason) s
      (withExternalSession request operation) := by
  rw [BindSpec, withExternalSession, if_neg hid, always_bind]
  refine (validate_spec faulty s _ _).mono ?_ ?_
  · rintro _ s₁ ⟨rfl, hb⟩
    rw [always_bind]
    refine (hop (Validated request.identity request.sessionId)).mono ?_ ?_
    · rintro record s₂ ⟨hc, ha, ho, hfree⟩
      have hno : ¬ (¬ s₁.Bindable request.sessionId request.identity ∨ reason) :=
        not_or.mpr ⟨not_not.mpr hb, hfree⟩
      rw [always_bind]
      refine (bindExternalSessionId_spec faulty s₂ _ _).mono ?_ ?_
      · rintro _ s₃ ⟨hc', hs, hl, -⟩
        exact ⟨hc.trans hc', ho.congr hs, hl, hno⟩
      · -- The binding was validated before, and nothing has changed it since.
        rintro e s₃ ⟨hc', h⟩
        have hagain : (¬ s₂.Bindable request.sessionId request.identity ∨
            s₂.owner (conversationSessionKey request.identity) ≠ some request.identity) ↔ False :=
          iff_false_intro (not_or.mpr ⟨not_not.mpr (bindable_congr hb ha), not_not.mpr ho.owner⟩)
        exact ⟨hc.trans hc', (h.congr hagain).of_false hno⟩
    · rintro e s₂ ⟨hc, -, h⟩
      exact ⟨hc, h.congr (or_iff_right (not_not.mpr hb)).symm⟩
  · rintro e s₁ ⟨rfl, h⟩
    exact ⟨.refl, h.mono .inl⟩

theorem getSession_spec (faulty : Prop) (s : SessionState) (eid : String) :
    Always (SessionStep faulty) (getSession eid)
      (fun found s' => s' = s ∧ found = ((s.sessions.lookup
        ((s.aliases.lookup eid).getD eid)).map fun row =>
          buildSessionRecord ((s.aliases.lookup eid).getD eid) eid row false))
      (fun e s' => s' = s ∧ Refused faulty False s e s') s := by
  rw [getSession, always_bind, always_lookupSessionAlias]
  refine ⟨?_, fun _ hf => ⟨rfl, .of_early_fault hf⟩⟩
  cases s.aliases.lookup eid with
  | none =>
    rw [always_fetchSession]
    exact ⟨⟨rfl, rfl⟩, fun _ hf => ⟨rfl, .of_early_fault hf⟩⟩
  | some key =>
    rw [always_fetchSession]
    exact ⟨⟨rfl, rfl⟩, fun _ hf => ⟨rfl, .of_early_fault hf⟩⟩

section Operations

variable {A : SessionOp → Prop}

theorem only_statement {st : Statement} (h : A (.statement st)) : Only A (statement st) :=
  ⟨h, fun _ => only_ofExcept _⟩

theorem only_fetchSession (hselect : ∀ key, A (.statement (.selectSession key)))
    (key eid : String) : Only A (fetchSession key eid) :=
  (only_statement (hselect key)).bind fun _ => trivial

theorem only_ensureSessionIdentity (record : SessionRecord) (t : SessionIdentity) :
    Only A (ensureSessionIdentity record t) := by
  unfold ensureSessionIdentity
  split_ifs <;> trivial

theorem only_useRecord (htouch : ∀ key now, A (.statement (.touchSession key now)))
    (key : String) (t : SessionIdentity) (now : ℤ) (record : SessionRecord) :
    Only A (useRecord key t now record) :=
  (only_ensureSessionIdentity record t).bind fun _ =>
    (only_statement (htouch key now)).bind fun _ => trivial

theorem only_getOrCreateByKey (hnow : A .epochNow) (hnew : A .newUuid)
    (hselect : ∀ key, A (.statement (.selectSession key)))
    (hinsert : ∀ key row, A (.statement (.insertSession key row)))
    (htouch : ∀ key now, A (.statement (.touchSession key now)))
    (key : String) (t : SessionIdentity) (eid : String) : Only A (getOrCreateByKey key t eid) := by
  refine Only.bind ⟨hnow, fun _ => trivial⟩ fun now =>
    (only_fetchSession hselect key eid).bind fun found => ?_
  cases found with
  | some record => exact only_useRecord htouch key t now record
  | none =>
    refine Only.bind ⟨hnew, fun _ => trivial⟩ fun id =>
      (only_statement (hinsert key _)).bind fun inserted => ?_
    split_ifs
    · trivial
    · refine (only_fetchSession hselect key eid).bind fun found => ?_
      cases found with
      | some record => exact only_useRecord htouch key t now record
      | none => trivial

theorem only_validate (halias : ∀ eid, A (.statement (.selectAlias eid)))
    (hselect : ∀ key, A (.statement (.selectSession key))) (eid : String)
    (t : SessionIdentity) : Only A (validateExternalSessionBinding eid t) := by
  refine (only_statement (halias eid)).bind fun found => ?_
  cases found with
  | none => trivial
  | some key =>
    dsimp only
    split_ifs
    · trivial
    · refine (only_fetchSession hselect key eid).bind fun found => ?_
      cases found <;> trivial

theorem only_bindExternalSessionId (halias : ∀ eid, A (.statement (.selectAlias eid)))
    (hselect : ∀ key, A (.statement (.selectSession key)))
    (hbind : ∀ eid key, A (.statement (.upsertAlias eid key))) (eid : String)
    (t : SessionIdentity) : Only A (bindExternalSessionId eid t) := by
  refine (only_validate halias hselect eid t).bind fun _ =>
    (only_fetchSession hselect _ eid).bind fun found => ?_
  cases found with
  | none => trivial
  | some record =>
    exact (only_ensureSessionIdentity record t).bind fun _ => only_statement (hbind eid _)

end Operations

end DogBot.SessionStore
