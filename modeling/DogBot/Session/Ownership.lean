import DogBot.Session.Isolation

/-! # Owners of external session ids

An external id is resolved through its alias, or else as a session key. It
keeps its owner as long as no call redirects it, that is, binds it to another
conversation without validation, or by an alias that hides a session key.
-/

namespace DogBot

open SessionStore

namespace SessionState

/-- The identity that an external id stands for. -/
def resolve (s : SessionState) (externalSessionId : String) : Option SessionIdentity :=
  s.owner ((s.aliases.lookup externalSessionId).getD externalSessionId)

/-- The record that is found for an external id. -/
def find (s : SessionState) (externalSessionId : String) : Option SessionRecord :=
  (s.sessions.lookup ((s.aliases.lookup externalSessionId).getD externalSessionId)).map fun row =>
    buildSessionRecord ((s.aliases.lookup externalSessionId).getD externalSessionId)
      externalSessionId row false

theorem map_identity_find (s : SessionState) (eid : String) :
    (s.find eid).map SessionRecord.identity = s.resolve eid := by
  rw [find, resolve, owner, Option.map_map]
  rfl

end SessionState

/-- The calls that create the row of a conversation. -/
def SessionCall.Creates : SessionCall → Prop
  | getOrCreateConversation _ | getOrCreateBound _ _ | loadRuntime _ => True
  | _ => False

/-- The calls that give an external id to another conversation than the one that it stands for. -/
inductive Redirects (s : SessionState) : SessionCall → Prop
  | unvalidated {eid key : String} {t : SessionIdentity}
      (ha : s.aliases.lookup eid = some key) (hne : key ≠ conversationSessionKey t)
      (ho : s.owner (conversationSessionKey t) = some t) : Redirects s (.resetBound eid t)
  | hidden {call : SessionCall} {eid : String} {t : SessionIdentity}
      (he : call.external = some eid) (ht : call.identity = some t)
      (ha : s.aliases.lookup eid = none) (hk : eid ∈ s.sessions)
      (hne : eid ≠ conversationSessionKey t)
      (ho : s.owner (conversationSessionKey t) = some t ∨
        call.Creates ∧ s.owner (conversationSessionKey t) = none) : Redirects s call

variable {faulty : Prop} {s s' : SessionState} {call : SessionCall} {t o : SessionIdentity}
  {eid : String}

theorem not_refusal_iff (he : call.external = some eid) (ht : call.identity = some t) :
    ¬ call.Refusal s ↔ (call.Validates → s.Bindable eid t) ∧
      (s.owner (conversationSessionKey t) = some t ∨
        call.Creates ∧ s.owner (conversationSessionKey t) = none) := by
  cases call with
  | getOrCreateConversation _ | resetConversation _ | validateExternal _ _ | getSession _ =>
    cases he
  | getOrCreateBound _ _ | bindExternal _ _ | resetBound _ _ =>
    obtain rfl := Option.some.inj he
    obtain rfl := Option.some.inj ht
    simp [SessionCall.Refusal, SessionCall.Validates, SessionCall.Creates,
      SessionState.not_taken_iff]
  | loadRuntime request | resetRuntime request =>
    obtain rfl := Option.some.inj ht
    simp only [SessionCall.external] at he
    split_ifs at he with hid
    obtain rfl := Option.some.inj he
    simp [SessionCall.Refusal, SessionCall.Validates, SessionCall.Creates, hid,
      SessionState.not_taken_iff]

/-- The calls that redirect are those that are not refused although their external id stands for
another conversation. -/
theorem redirects_iff (hi : s.Inv) : Redirects s call ↔ ∃ eid t o, call.external = some eid ∧
    call.identity = some t ∧ s.resolve eid = some o ∧ o ≠ t ∧ ¬ call.Refusal s := by
  constructor
  · intro h
    cases h with
    | @unvalidated eid key t ha hne ho =>
      obtain ⟨row, hr⟩ :=
        Option.isSome_iff_exists.mp (AList.lookup_isSome.mpr (hi.aliased eid key ha))
      have hown := owner_of_lookup hr
      refine ⟨eid, t, row.identity, rfl, rfl, by rw [SessionState.resolve, ha]; exact hown, ?_,
        not_not.mpr ho⟩
      rintro rfl
      exact hne (hi.eq_key hown)
    | @hidden _ eid t he ht ha hk hne ho =>
      obtain ⟨row, hr⟩ := Option.isSome_iff_exists.mp (AList.lookup_isSome.mpr hk)
      have hown := owner_of_lookup hr
      refine ⟨eid, t, row.identity, he, ht, by rw [SessionState.resolve, ha]; exact hown, ?_, ?_⟩
      · rintro rfl
        exact hne (hi.eq_key hown)
      · exact (not_refusal_iff he ht).mpr ⟨fun _ key h => by simp [ha] at h, ho⟩
  · rintro ⟨eid, t, o, he, ht, hres, hne, href⟩
    obtain ⟨hb, ho⟩ := (not_refusal_iff he ht).mp href
    have hother : s.owner (conversationSessionKey t) ≠ some o := by
      intro h
      rcases ho with ho | ⟨-, ho⟩
      · exact hne (Option.some.inj (h.symm.trans ho))
      · rw [h] at ho; cases ho
    cases ha : s.aliases.lookup eid with
    | none =>
      rw [SessionState.resolve, ha] at hres
      apply Redirects.hidden he ht ha (SessionState.mem_of_owner hres) _ ho
      rintro rfl
      exact hother hres
    | some key =>
      rw [SessionState.resolve, ha] at hres
      have hkey : key ≠ conversationSessionKey t := by
        rintro rfl
        exact hother hres
      cases call with
      | resetBound _ _ =>
        obtain rfl := Option.some.inj he
        obtain rfl := Option.some.inj ht
        exact .unvalidated ha hkey (ho.resolve_right fun h => h.1)
      | _ => exact absurd (hb trivial key ha) hkey

namespace SessionEvent

variable {outcome : Except SessionStoreError SessionAnswer}

theorem Step.find (h : Step faulty s (.getSession eid, outcome) s') :
    outcome = .ok (.found (s.find eid)) ∨ ∃ e, outcome = .error e ∧ faulty := by
  have hspec : Program.Always (SessionStep faulty) (SessionCall.getSession eid).perform
      (fun answer _ => answer = .found (s.find eid)) (fun _ _ => faulty) s := by
    rw [SessionCall.perform, Program.always_bind]
    refine (getSession_spec faulty s eid).mono ?_ ?_
    · rintro found s' ⟨-, rfl⟩
      exact rfl
    · rintro e s' ⟨-, hr⟩
      apply hr.fault
      cases he : e.isConflict with
      | true => exact (hr.reason he).elim
      | false => rfl
  obtain ⟨hok, herr⟩ := Program.Runs.post h hspec
  cases outcome with
  | ok answer => exact .inl (congrArg _ (hok answer rfl))
  | error e => exact .inr ⟨e, rfl, herr e rfl⟩

theorem Step.resolve_eq (h : Step faulty s (call, outcome) s') (hi : s.Inv)
    (hr : ¬ Redirects s call) (ho : s.resolve eid = some o) : s'.resolve eid = some o := by
  rcases h.changes with ⟨t, ht, hc⟩ | ⟨-, rfl⟩
  · by_cases href : call.Refusal s
    · obtain ⟨-, -, -, hs, ha⟩ := h.of_refusal href
      rw [SessionState.resolve, SessionState.owner, hs, ha]
      exact ho
    · rcases hc.alias eid with hsame | ⟨⟨s₁, hb⟩, ha, hown⟩
      · rw [SessionState.resolve, hsame]
        exact hc.owner_eq ho
      · have hot : o = t := by
          by_contra hne
          exact hr ((redirects_iff hi).mpr ⟨eid, t, o, hb.1, ht, ho, hne, href⟩)
        rw [SessionState.resolve, ha]
        exact hot ▸ hown
  · exact ho

theorem Step.refused (h : Step faulty s (call, outcome) s') (hi : s.Inv)
    (hr : ¬ Redirects s call) (he : call.external = some eid) (ht : call.identity = some t)
    (ho : s.resolve eid = some o) (hne : o ≠ t) :
    ∃ e, outcome = .error e ∧ (e.isConflict = true ∨ faulty) ∧
      s'.sessions = s.sessions ∧ s'.aliases = s.aliases := by
  apply h.of_refusal
  by_contra href
  exact hr ((redirects_iff hi).mpr ⟨eid, t, o, he, ht, ho, hne, href⟩)

/-- Without faults a call that redirects gives its external id to the identity it names. -/
theorem Step.redirected (h : Step False s (call, outcome) s') (hi : s.Inv)
    (hr : Redirects s call) : ∃ eid t o, s.resolve eid = some o ∧ o ≠ t ∧
      s'.resolve eid = some t := by
  obtain ⟨eid, t, o, he, ht, ho, hne, href⟩ := (redirects_iff hi).mp hr
  rcases h.cases with ⟨answer, -, hd⟩ | ⟨e, -, hf⟩
  · obtain ⟨t', ht', ha, hown⟩ := hd.bound eid he
    obtain rfl := Option.some.inj (ht.symm.trans ht')
    refine ⟨eid, t, o, ho, hne, ?_⟩
    rw [SessionState.resolve, ha]
    exact hown
  · cases hc : e.isConflict with
    | true => exact absurd (hf.refused.reason hc) href
    | false => exact (hf.refused.fault hc).elim

/-- A step that does not redirect an external id. -/
def KeepingStep (faulty : Prop) (s : SessionState) (event : SessionEvent) (s' : SessionState) :
    Prop :=
  Step faulty s event s' ∧ ¬ Redirects s event.1

/-- The owner that was found for an external id. -/
def Found (history : List SessionEvent) (eid : String) (o : SessionIdentity) : Prop :=
  ∃ record, (.getSession eid, .ok (.found (some record))) ∈ history ∧ record.identity = o

theorem trace_keeping {history : List SessionEvent}
    (h : Trace (KeepingStep faulty) .empty history s) :
    s.Inv ∧ ∀ eid o, Found history eid o → s.resolve eid = some o := by
  refine h.invariant (I := fun history s => s.Inv ∧
    ∀ eid o, Found history eid o → s.resolve eid = some o) ⟨SessionState.inv_empty, ?_⟩ ?_
  · rintro eid o ⟨record, hmem, -⟩
    cases hmem
  · rintro history s ⟨call, outcome⟩ s' ⟨hi, hf⟩ ⟨hs, hr⟩
    refine ⟨hs.inv hi, ?_⟩
    rintro eid o ⟨record, hmem, ho⟩
    apply hs.resolve_eq hi hr
    rcases List.mem_append.mp hmem with hmem | hmem
    · exact hf eid o ⟨record, hmem, ho⟩
    · obtain ⟨rfl, rfl⟩ := Prod.mk.inj (List.mem_singleton.mp hmem)
      rcases hs.find with hfound | ⟨e, he, -⟩
      · have hrec := SessionAnswer.found.inj (Except.ok.inj hfound)
        rw [← SessionState.map_identity_find, ← hrec, ← ho]
        rfl
      · cases he

theorem trace_finds {history : List SessionEvent} {s₀ : SessionState}
    (h : Trace (KeepingStep faulty) s₀ history s) (hi : s₀.Inv) (ho : s₀.resolve eid = some o)
    (hmem : (.getSession eid, outcome) ∈ history) :
    (∃ record, outcome = .ok (.found (some record)) ∧ record.identity = o) ∨
      ∃ e, outcome = .error e ∧ faulty := by
  refine (h.invariant (I := fun history s => (s.Inv ∧ s.resolve eid = some o) ∧
    ((.getSession eid, outcome) ∈ history →
      (∃ record, outcome = .ok (.found (some record)) ∧ record.identity = o) ∨
        ∃ e, outcome = .error e ∧ faulty)) ⟨⟨hi, ho⟩, nofun⟩ ?_).2 hmem
  rintro history s ⟨call, outcome'⟩ s' ⟨⟨hi, ho⟩, hf⟩ ⟨hs, hr⟩
  refine ⟨⟨hs.inv hi, hs.resolve_eq hi hr ho⟩, fun hmem => ?_⟩
  rcases List.mem_append.mp hmem with hmem | hmem
  · exact hf hmem
  · obtain ⟨rfl, rfl⟩ := Prod.mk.inj (List.mem_singleton.mp hmem)
    apply hs.find.imp_left
    intro hfound
    rw [← SessionState.map_identity_find] at ho
    obtain ⟨record, hrec, hid⟩ := Option.map_eq_some_iff.mp ho
    exact ⟨record, by rw [hfound, hrec], hid⟩

end SessionEvent

/-- In every run without a call that redirects an external id: once a record was found for an
external id, each later search finds one of the same identity, and a call that would bind the
external id to another identity than it stands for ends with a conflict and changes nothing. -/
theorem external_ids_keep_owner {history : List SessionEvent}
    (h : Trace (SessionEvent.KeepingStep faulty) .empty history s) :
    (∀ earlier later eid o outcome, history = earlier ++ later →
      SessionEvent.Found earlier eid o → (.getSession eid, outcome) ∈ later →
      (∃ record, outcome = .ok (.found (some record)) ∧ record.identity = o) ∨
        ∃ e, outcome = .error e ∧ faulty) ∧
    ∀ call eid t o outcome s', SessionEvent.KeepingStep faulty s (call, outcome) s' →
      call.external = some eid → call.identity = some t → s.resolve eid = some o → o ≠ t →
      ∃ e, outcome = .error e ∧ (e.isConflict = true ∨ faulty) ∧
        s'.sessions = s.sessions ∧ s'.aliases = s.aliases := by
  constructor
  · rintro earlier later eid o outcome rfl hf hmem
    obtain ⟨s₁, h₁, h₂⟩ := h.split
    obtain ⟨hi, hres⟩ := SessionEvent.trace_keeping h₁
    exact SessionEvent.trace_finds h₂ hi (hres eid o hf) hmem
  · rintro call eid t o outcome s' ⟨hs, hr⟩ he ht ho hne
    exact hs.refused (SessionEvent.trace_keeping h).1 hr he ht ho hne

/-- An external id that is bound stays bound when another conversation asks for it. -/
theorem external_ids_keep_owner_bound :
    let first : SessionCall := .getOrCreateBound "e" ⟨"qq", "bot", "private:1"⟩
    let s := (first.perform.eval SessionState.handle .empty).2
    let call : SessionCall := .getOrCreateBound "e" ⟨"qq", "bot", "private:2"⟩
    ∃ e, (call.perform.eval SessionState.handle s).1 = .error e ∧ (e.isConflict = true ∨ False) ∧
      (call.perform.eval SessionState.handle s).2.sessions = s.sessions ∧
      (call.perform.eval SessionState.handle s).2.aliases = s.aliases := by
  intro first s call
  have hfirst : Trace (SessionEvent.KeepingStep False) .empty
      ([] ++ [(first, (first.perform.eval SessionState.handle .empty).1)]) s := by
    refine .snoc (.nil _) ⟨Program.runs_eval (SessionState.step_handle False) first.perform _, ?_⟩
    rintro (_ | ⟨-, -, -, hk⟩)
    cases hk
  refine (external_ids_keep_owner hfirst).2 call "e" _ ⟨"qq", "bot", "private:1"⟩ _ _
    ⟨Program.runs_eval (SessionState.step_handle False) call.perform s, ?_⟩ rfl rfl
    (by decide +kernel) (by decide)
  rintro (_ | ⟨he, -, ha⟩)
  obtain rfl := Option.some.inj he
  exact absurd ha (by decide +kernel)

/-- Resetting the session of a second conversation under the external id of a first one. -/
theorem reset_redirects_external_id :
    ¬ ∀ history s, Trace (SessionEvent.Step False) .empty history s →
      ∀ earlier later eid o outcome, history = earlier ++ later →
        SessionEvent.Found earlier eid o → (.getSession eid, outcome) ∈ later →
        ∃ record, outcome = .ok (.found (some record)) ∧ record.identity = o := by
  intro h
  have htrace := SessionState.trace_evalCalls False
    [.getOrCreateBound "e" ⟨"qq", "bot", "private:1"⟩,
      .getOrCreateConversation ⟨"qq", "bot", "private:2"⟩, .getSession "e",
      .resetBound "e" ⟨"qq", "bot", "private:2"⟩, .getSession "e"] .empty
  have hearlier := List.take_append_drop 3 (SessionState.empty.evalCalls
    [.getOrCreateBound "e" ⟨"qq", "bot", "private:1"⟩,
      .getOrCreateConversation ⟨"qq", "bot", "private:2"⟩, .getSession "e",
      .resetBound "e" ⟨"qq", "bot", "private:2"⟩, .getSession "e"]).1
  obtain ⟨record, hrec, hid⟩ := h _ _ htrace _ _ "e" ⟨"qq", "bot", "private:1"⟩
    (.ok (.found (some (buildSessionRecord "conversation::qq::bot::private:2" "e"
      ⟨"uuu", ⟨"qq", "bot", "private:2"⟩, 0, 0⟩ false)))) hearlier.symm
    ⟨buildSessionRecord "conversation::qq::bot::private:1" "e"
      ⟨"", ⟨"qq", "bot", "private:1"⟩, 0, 0⟩ false, by decide +kernel, rfl⟩ (by decide +kernel)
  obtain rfl := Option.some.inj (SessionAnswer.found.inj (Except.ok.inj hrec))
  exact absurd hid (by decide)

end DogBot
