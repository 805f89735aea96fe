import DogBot.Session.Calls

/-! # Session isolation

A session key does not determine its conversation, since the parts that are
joined may contain the separator. Isolation therefore rests on the rows: a
generated Claude session id belongs to one identity from the moment it is
generated, whatever is called afterwards.
-/

namespace DogBot

namespace SessionState

/-- The id was generated, and no row of another identity has it. -/
def Belongs (s : SessionState) (t : SessionIdentity) (id : String) : Prop :=
  id ∈ s.issued ∧ ∀ key row, s.sessions.lookup key = some row → row.claudeSessionId = id →
    row.identity = t

structure Inv (s : SessionState) : Prop where
  keyed : ∀ key row, s.sessions.lookup key = some row → key = conversationSessionKey row.identity
  aliased : ∀ eid key, s.aliases.lookup eid = some key → key ∈ s.sessions
  belongs : ∀ key row, s.sessions.lookup key = some row →
    s.Belongs row.identity row.claudeSessionId

theorem inv_empty : empty.Inv := ⟨nofun, nofun, nofun⟩

variable {s : SessionState} {t : SessionIdentity} {id id' key eid : String} {row : SessionRow}

theorem lookup_insertRow {row' : SessionRow}
    (h : (s.insertRow row).sessions.lookup key = some row') :
    key = conversationSessionKey row.identity ∧ row' = row ∨ s.sessions.lookup key = some row' := by
  rw [insertRow, AList.lookup_insert'] at h
  split_ifs at h with hk
  · exact .inl ⟨hk, (Option.some.inj h).symm⟩
  · exact .inr h

theorem Belongs.insertRow (h : s.Belongs t id) (hr : row.claudeSessionId = id → row.identity = t) :
    (s.insertRow row).Belongs t id := by
  refine ⟨h.1, fun key row' hl hid => ?_⟩
  rcases lookup_insertRow hl with ⟨-, rfl⟩ | hl
  · exact hr hid
  · exact h.2 key row' hl hid

theorem Belongs.issue (h : s.Belongs t id) : (s.issue id').Belongs t id :=
  ⟨List.mem_cons_of_mem _ h.1, h.2⟩

theorem Inv.belongs_issue (hi : s.Inv) (h : id ∉ s.issued) : (s.issue id).Belongs t id := by
  refine ⟨List.mem_cons_self, fun key row hl hid => ?_⟩
  exact absurd (hid ▸ (hi.belongs key row hl).1) h

theorem Inv.issue (hi : s.Inv) : (s.issue id).Inv :=
  ⟨hi.keyed, hi.aliased, fun key row hl => (hi.belongs key row hl).issue⟩

theorem Inv.insertRow (hi : s.Inv) (hr : s.Belongs row.identity row.claudeSessionId) :
    (s.insertRow row).Inv := by
  constructor
  · intro key row' hl
    rcases lookup_insertRow hl with ⟨hk, rfl⟩ | hl
    · exact hk
    · exact hi.keyed key row' hl
  · exact fun eid key hl => AList.mem_insert _ |>.mpr (.inr (hi.aliased eid key hl))
  · intro key row' hl
    rcases lookup_insertRow hl with ⟨-, rfl⟩ | hl
    · exact hr.insertRow fun _ => rfl
    · exact (hi.belongs key row' hl).insertRow fun hid => hr.2 key row' hl hid.symm ▸ rfl

theorem Inv.bind (hi : s.Inv) (hk : key ∈ s.sessions) : (s.bind eid key).Inv := by
  refine ⟨hi.keyed, fun eid' key' hl => ?_, hi.belongs⟩
  rw [SessionState.bind, AList.lookup_insert'] at hl
  split_ifs at hl
  · exact Option.some.inj hl ▸ hk
  · exact hi.aliased eid' key' hl

theorem mem_of_owner (h : s.owner key = some t) : key ∈ s.sessions := by
  obtain ⟨row, hr, -⟩ := Option.map_eq_some_iff.mp h
  exact AList.mem_of_lookup hr

theorem Inv.eq_key (hi : s.Inv) (h : s.owner key = some t) :
    key = conversationSessionKey t := by
  obtain ⟨row, hr, rfl⟩ := Option.map_eq_some_iff.mp h
  exact hi.keyed key row hr

end SessionState

open SessionState

variable {s s' : SessionState} {t o : SessionIdentity} {bound : SessionState → String → Prop}
  {id : String}

theorem Change.inv (h : Change t bound s s') (hi : s.Inv) : s'.Inv := by
  cases h with
  | issue h => exact hi.issue
  | touch hr ht =>
    have hb := hi.belongs _ _ hr
    exact hi.insertRow hb
  | create h hk => exact hi.issue.insertRow (hi.belongs_issue h)
  | rotate h hr ht => exact hi.issue.insertRow (hi.belongs_issue h)
  | bind ho hb => exact hi.bind (mem_of_owner ho)

theorem Change.belongs (h : Change t bound s s') (hb : s.Belongs o id) : s'.Belongs o id := by
  cases h with
  | issue h => exact hb.issue
  | touch hr ht =>
    have hr' := hb.2 _ _ hr
    exact hb.insertRow hr'
  | create h hk =>
    apply hb.issue.insertRow
    rintro rfl
    exact absurd hb.1 h
  | rotate h hr ht =>
    apply hb.issue.insertRow
    rintro rfl
    exact absurd hb.1 h
  | bind ho hb' => exact hb

theorem Changes.inv (h : Changes t bound s s') (hi : s.Inv) : s'.Inv := by
  induction h with
  | refl => exact hi
  | tail _ hc ih => exact hc.inv ih

theorem Changes.belongs (h : Changes t bound s s') (hb : s.Belongs o id) : s'.Belongs o id := by
  induction h with
  | refl => exact hb
  | tail _ hc ih => exact hc.belongs ih

theorem SessionStore.Obtained.belongs {record : SessionRecord} (h : Obtained t record s)
    (hi : s.Inv) : s.Belongs t record.claudeSessionId := by
  obtain ⟨-, row, hr, rfl, hid⟩ := h
  exact hid ▸ hi.belongs _ _ hr

theorem SessionStore.Obtained.eq_of_belongs {record : SessionRecord} (h : Obtained t record s)
    (hb : s.Belongs o record.claudeSessionId) : record.identity = o := by
  obtain ⟨rfl, row, hr, ht, hid⟩ := h
  exact ht.symm.trans (hb.2 _ row hr hid)

namespace SessionEvent

open SessionStore

variable {faulty : Prop} {event : SessionEvent} {history : List SessionEvent}

theorem Step.inv (h : Step faulty s event s') (hi : s.Inv) : s'.Inv := by
  rcases h.changes with ⟨t, -, hc⟩ | ⟨-, rfl⟩
  · exact hc.inv hi
  · exact hi

theorem Step.belongs (h : Step faulty s event s') (hb : s.Belongs o id) : s'.Belongs o id := by
  rcases h.changes with ⟨t, -, hc⟩ | ⟨-, rfl⟩
  · exact hc.belongs hb
  · exact hb

/-- The calls that ended with a record, with that record. -/
def Obtains (history : List SessionEvent) (call : SessionCall) (record : SessionRecord) : Prop :=
  (call, .ok (.record record)) ∈ history

theorem obtains_concat {call : SessionCall} {record : SessionRecord} :
    Obtains (history ++ [event]) call record ↔
      Obtains history call record ∨ event = (call, .ok (.record record)) := by
  simp [Obtains, eq_comm]

/-- The records obtained are those of the requested identities, and an id that was obtained twice
was obtained for one identity. -/
structure Isolated (history : List SessionEvent) (s : SessionState) : Prop where
  requested : ∀ call record, Obtains history call record → call.identity = some record.identity
  belongs : ∀ call record, Obtains history call record →
    s.Belongs record.identity record.claudeSessionId
  distinct : ∀ call₁ record₁ call₂ record₂, Obtains history call₁ record₁ →
    Obtains history call₂ record₂ → record₁.claudeSessionId = record₂.claudeSessionId →
    record₁.identity = record₂.identity

theorem Step.obtained {call : SessionCall} {record : SessionRecord}
    (h : Step faulty s (call, .ok (.record record)) s') :
    call.identity = some record.identity ∧ Obtained record.identity record s' := by
  rcases h.cases with ⟨answer, ho, hd⟩ | ⟨e, ho, -⟩
  · obtain ⟨t, ht, hobt⟩ := hd.obtained record (Except.ok.inj ho).symm
    obtain rfl := hobt.1
    exact ⟨ht, hobt⟩
  · cases ho

theorem Step.isolated (h : Step faulty s event s') (hi : s.Inv) (hh : Isolated history s) :
    Isolated (history ++ [event]) s' := by
  have hbelongs : ∀ call record, Obtains (history ++ [event]) call record →
      s'.Belongs record.identity record.claudeSessionId := by
    intro call record hm
    rcases obtains_concat.mp hm with hm | rfl
    · exact h.belongs (hh.belongs call record hm)
    · exact h.obtained.2.belongs (h.inv hi)
  constructor
  · intro call record hm
    rcases obtains_concat.mp hm with hm | rfl
    · exact hh.requested call record hm
    · exact h.obtained.1
  · exact hbelongs
  · intro call₁ record₁ call₂ record₂ hm₁ hm₂ hid
    rcases obtains_concat.mp hm₁ with hm | rfl
    · rcases obtains_concat.mp hm₂ with hm' | rfl
      · exact hh.distinct call₁ record₁ call₂ record₂ hm hm' hid
      · exact (h.obtained.2.eq_of_belongs (hid ▸ hbelongs call₁ record₁ hm₁)).symm
    · exact h.obtained.2.eq_of_belongs (hid ▸ hbelongs call₂ record₂ hm₂)

theorem Step.unchanged {call : SessionCall} {e : SessionStoreError}
    (h : Step faulty s (call, .error e) s') (he : e.isConflict = true) :
    s'.sessions = s.sessions ∧ s'.aliases = s.aliases := by
  rcases h.cases with ⟨answer, ho, -⟩ | ⟨e', ho, hf⟩
  · cases ho
  · obtain rfl := Except.error.inj ho
    exact hf.refused.unchanged (hf.refused.reason he)

theorem isolated_nil : Isolated [] s := by
  constructor <;> simp [Obtains]

theorem trace_isolated (h : Trace (Step faulty) .empty history s) : s.Inv ∧ Isolated history s := by
  refine h.invariant (I := fun history s => s.Inv ∧ Isolated history s) ⟨inv_empty, isolated_nil⟩ ?_
  rintro history s event s' ⟨hi, hh⟩ hs
  exact ⟨hs.inv hi, hs.isolated hi hh⟩

end SessionEvent

open SessionEvent in
/-- After any sequence of calls, whether or not statements failed: rows are stored under their
own key, aliases refer to rows, every record obtained is one of the requested identity, and
different identities obtained different Claude session ids. A call that then ends with a conflict
changes neither table. -/
theorem sessions_isolated {faulty : Prop} {history : List SessionEvent} {s : SessionState}
    (h : Trace (SessionEvent.Step faulty) .empty history s) :
    (∀ key row, s.sessions.lookup key = some row → key = conversationSessionKey row.identity) ∧
    (∀ eid key, s.aliases.lookup eid = some key → key ∈ s.sessions) ∧
    (∀ call record, Obtains history call record → call.identity = some record.identity) ∧
    (∀ call₁ record₁ call₂ record₂, Obtains history call₁ record₁ →
      Obtains history call₂ record₂ → call₁.identity ≠ call₂.identity →
      record₁.claudeSessionId ≠ record₂.claudeSessionId) ∧
    ∀ call e s', SessionEvent.Step faulty s (call, .error e) s' → e.isConflict = true →
      s'.sessions = s.sessions ∧ s'.aliases = s.aliases := by
  obtain ⟨hi, hh⟩ := SessionEvent.trace_isolated h
  refine ⟨hi.keyed, hi.aliased, hh.requested, ?_, fun call e s' hs he => hs.unchanged he⟩
  intro call₁ record₁ call₂ record₂ hm₁ hm₂ hne hid
  apply hne
  rw [hh.requested call₁ record₁ hm₁, hh.requested call₂ record₂ hm₂,
    hh.distinct call₁ record₁ call₂ record₂ hm₁ hm₂ hid]

/-- Two conversations whose keys coincide: the second is refused, and the two others that are
named get different sessions. -/
theorem sessions_isolated_colliding :
    let calls : List SessionCall := [.getOrCreateBound "e" ⟨"qq", "a", "b::c"⟩,
      .getOrCreateConversation ⟨"qq", "a::b", "c"⟩, .resetBound "e" ⟨"qq", "a", "b::c"⟩,
      .getOrCreateConversation ⟨"qq", "a", "d"⟩]
    let s := (SessionState.empty.evalCalls calls).2
    (∀ key row, s.sessions.lookup key = some row → key = conversationSessionKey row.identity) ∧
      s.sessions.keys.length = 2 :=
  ⟨(sessions_isolated (SessionState.trace_evalCalls False _ _)).1, by decide +kernel⟩

end DogBot
