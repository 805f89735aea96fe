import DogBot.Server.Requests
import DogBot.Session.Isolation

/-! # Sessions of platform events

The run request of an event uses the event's conversation as its external
session id. That id names neither the platform nor the account, so events of
two identities can meet in one alias. Loading the sessions of a list of events
ends without a conflict exactly when the identities are separated.
-/

namespace DogBot

def CanonicalEvent.identity (event : CanonicalEvent) : SessionIdentity where
  platform := event.platform
  platformAccount := event.platformAccount
  conversationId := event.conversation

/-- The sessions that are loaded for a list of events. -/
def eventCalls (events : List CanonicalEvent) : List SessionCall :=
  (events.filterMap buildRunRequestFromEvent).map .loadRuntime

/-- Two identities that meet neither in a session key nor in an external id. -/
def SessionIdentity.Separated (t o : SessionIdentity) : Prop :=
  conversationSessionKey t ≠ conversationSessionKey o ∧
    (t.conversationId ≠ o.conversationId ∨ Text.trim t.conversationId = "")

/-- Any two message events of different identities are separated. -/
def EventsSeparated (events : List CanonicalEvent) : Prop :=
  ∀ e₁ ∈ events, ∀ e₂ ∈ events, e₁.message.isSome → e₂.message.isSome →
    e₁.identity ≠ e₂.identity → e₁.identity.Separated e₂.identity

theorem buildRunRequestFromEvent_eq_some {event : CanonicalEvent} {request : RunRequest}
    (h : buildRunRequestFromEvent event = some request) :
    event.message.isSome ∧ request.identity = event.identity ∧
      request.sessionId = request.identity.conversationId := by
  obtain ⟨message, hm, rfl⟩ := Option.map_eq_some_iff.mp h
  exact ⟨by simp [hm], rfl, rfl⟩

theorem exists_request {event : CanonicalEvent} (h : event.message.isSome) :
    ∃ request, buildRunRequestFromEvent event = some request := by
  obtain ⟨message, hm⟩ := Option.isSome_iff_exists.mp h
  exact ⟨_, by rw [buildRunRequestFromEvent, hm]; rfl⟩

theorem mem_eventCalls {events : List CanonicalEvent} {call : SessionCall} :
    call ∈ eventCalls events ↔
      ∃ event ∈ events, ∃ request, buildRunRequestFromEvent event = some request ∧
        call = .loadRuntime request := by
  simp only [eventCalls, List.mem_map, List.mem_filterMap]
  constructor
  · rintro ⟨request, ⟨event, hmem, hr⟩, rfl⟩
    exact ⟨event, hmem, request, hr, rfl⟩
  · rintro ⟨event, hmem, request, hr, rfl⟩
    exact ⟨request, ⟨event, hmem, hr⟩, rfl⟩

namespace SessionEvent

variable {faulty : Prop} {s s' : SessionState} {history : List SessionEvent}
  {outcome : Except SessionStoreError SessionAnswer} {request : RunRequest}
  {ids : List SessionIdentity}

/-- Rows and aliases come from the given identities. -/
structure From (ids : List SessionIdentity) (s : SessionState) : Prop where
  owners : ∀ key o, s.owner key = some o → key = conversationSessionKey o ∧ o ∈ ids
  aliases : ∀ eid key, s.aliases.lookup eid = some key → ∃ o ∈ ids, o.conversationId = eid ∧
    Text.trim eid ≠ "" ∧ key = conversationSessionKey o

/-- The request of an event of one of the identities. -/
def Asks (ids : List SessionIdentity) (request : RunRequest) : Prop :=
  request.identity ∈ ids ∧ request.sessionId = request.identity.conversationId

theorem Step.from (h : Step faulty s (.loadRuntime request, outcome) s')
    (ha : Asks ids request) (hf : From ids s) : From ids s' := by
  rcases h.changes with ⟨t, ht, hc⟩ | ⟨ht, -⟩
  · obtain rfl : request.identity = t := Option.some.inj ht
    constructor
    · intro key o ho
      rcases hc.owner_cases ho with ho | ⟨rfl, rfl⟩
      · exact hf.owners key o ho
      · exact ⟨rfl, ha.1⟩
    · intro eid key hl
      rcases hc.alias eid with hsame | ⟨⟨s₁, hb, -⟩, hl', -⟩
      · exact hf.aliases eid key (hsame ▸ hl)
      · simp only [SessionCall.external] at hb
        split_ifs at hb with hid
        obtain rfl := Option.some.inj hb
        exact ⟨request.identity, ha.1, ha.2.symm, hid, Option.some.inj (hl.symm.trans hl')⟩
  · cases ht

theorem not_refusal_of_separated (hsep : ∀ t ∈ ids, ∀ o ∈ ids, t ≠ o → t.Separated o)
    (ha : Asks ids request) (hf : From ids s) : ¬ (SessionCall.loadRuntime request).Refusal s := by
  rintro (⟨hid, hb⟩ | ⟨o, ho, hne⟩)
  · apply hb
    intro key hl
    obtain ⟨o, hmem, hconv, -, rfl⟩ := hf.aliases _ key hl
    by_contra hkey
    have hne : o ≠ request.identity := by
      rintro rfl
      exact hkey rfl
    rcases (hsep o hmem _ ha.1 hne).2 with hdiff | hblank
    · exact hdiff (hconv.trans ha.2)
    · exact hid (hconv ▸ hblank)
  · obtain ⟨hkey, hmem⟩ := hf.owners _ o ho
    exact (hsep o hmem _ ha.1 hne).1 hkey.symm

/-- Loading requests of separated identities never ends with a conflict. -/
theorem trace_of_separated (hsep : ∀ t ∈ ids, ∀ o ∈ ids, t ≠ o → t.Separated o)
    (h : Trace (Step faulty) .empty history s)
    (hask : ∀ call ∈ history.map Prod.fst, ∃ request, call = .loadRuntime request ∧
      Asks ids request) {call : SessionCall} {e : SessionStoreError}
    (hmem : (call, .error e) ∈ history) : e.isConflict = false := by
  revert hask hmem
  suffices hinv : (∀ call ∈ history.map Prod.fst, ∃ request, call = .loadRuntime request ∧
      Asks ids request) → From ids s ∧ ((call, .error e) ∈ history → e.isConflict = false) from
    fun hask => (hinv hask).2
  refine h.invariant (I := fun history s => (∀ call ∈ history.map Prod.fst,
    ∃ request, call = .loadRuntime request ∧ Asks ids request) →
      From ids s ∧ ((call, .error e) ∈ history → e.isConflict = false)) ?_ ?_
  · exact fun _ => ⟨⟨nofun, nofun⟩, nofun⟩
  · rintro history s ⟨call', outcome⟩ s' ih hs hask
    simp only [List.map_append, List.mem_append] at hask
    obtain ⟨hf, hok⟩ := ih fun call hc => hask call (.inl hc)
    obtain ⟨request, rfl, ha⟩ := hask call' (.inr List.mem_cons_self)
    refine ⟨hs.from ha hf, fun hmem => ?_⟩
    rcases List.mem_append.mp hmem with hmem | hmem
    · exact hok hmem
    · obtain ⟨rfl, rfl⟩ := Prod.mk.inj (List.mem_singleton.mp hmem)
      rcases hs.cases with ⟨answer, he, -⟩ | ⟨e', he, hfail⟩
      · cases he
      · obtain rfl := Except.error.inj he
        by_contra hc
        exact not_refusal_of_separated hsep ha hf
          (hfail.refused.reason (Bool.eq_true_of_not_eq_false hc))

/-- The row and the alias that a request was given. -/
def Settled (request : RunRequest) (s : SessionState) : Prop :=
  s.owner (conversationSessionKey request.identity) = some request.identity ∧
    (Text.trim request.sessionId ≠ "" →
      s.aliases.lookup request.sessionId = some (conversationSessionKey request.identity))

theorem Step.settled {request' : RunRequest} {answer : SessionAnswer}
    (h : Step faulty s (.loadRuntime request, .ok answer) s') (hs : Settled request' s) :
    Settled request' s' := by
  rcases h.cases with ⟨answer', -, hd⟩ | ⟨e, he, -⟩
  · have hc := hd.changes request.identity rfl
    refine ⟨hc.owner_eq hs.1, fun hid => ?_⟩
    rcases hc.alias request'.sessionId with hsame | ⟨⟨s₁, hb, -⟩, hl, -⟩
    · exact hsame.trans (hs.2 hid)
    · simp only [SessionCall.external] at hb
      split_ifs at hb with hblank
      have hsid := Option.some.inj hb
      have hbind : s.Bindable request.sessionId request.identity := by
        by_contra hno
        exact hd.allowed (.inl ⟨hblank, hno⟩)
      have hkey := hbind (conversationSessionKey request'.identity) (hsid.symm ▸ hs.2 hid)
      rw [hl, hkey]
  · cases he

theorem Step.settles {answer : SessionAnswer}
    (h : Step faulty s (.loadRuntime request, .ok answer) s') : Settled request s' := by
  have hrecord : ∃ record, answer = .record record := by
    have hspec : Program.Always (SessionStep faulty) (SessionCall.loadRuntime request).perform
        (fun answer _ => ∃ record, answer = .record record) (fun _ _ => True) s := by
      rw [SessionCall.perform, Program.always_bind]
      exact (Program.always_true _ _ _).mono (fun record _ _ => ⟨record, rfl⟩) fun _ _ h => h
    exact (Program.Runs.post h hspec).1 answer rfl
  obtain ⟨record, rfl⟩ := hrecord
  rcases h.cases with ⟨answer', he, hd⟩ | ⟨e, he, -⟩
  · obtain rfl := Except.ok.inj he
    obtain ⟨t, ht, hobt⟩ := hd.obtained record rfl
    obtain rfl : request.identity = t := Option.some.inj ht
    refine ⟨hobt.owner, fun hid => ?_⟩
    obtain ⟨t, ht, hl, -⟩ := hd.bound request.sessionId (by simp [SessionCall.external, hid])
    obtain rfl : request.identity = t := Option.some.inj ht
    exact hl
  · cases he

theorem trace_settled (h : Trace (Step False) .empty history s)
    (hload : ∀ call ∈ history.map Prod.fst, ∃ request, call = .loadRuntime request)
    (hok : ∀ call e, (call, .error e) ∈ history → e.isConflict = false) :
    ∀ request, .loadRuntime request ∈ history.map Prod.fst → Settled request s := by
  revert hload hok
  refine h.invariant (I := fun history s =>
    (∀ call ∈ history.map Prod.fst, ∃ request, call = .loadRuntime request) →
    (∀ call e, (call, .error e) ∈ history → e.isConflict = false) →
      ∀ request, .loadRuntime request ∈ history.map Prod.fst → Settled request s) nofun ?_
  rintro history s ⟨call, outcome⟩ s' ih hs hload hok request hmem
  simp only [List.map_append, List.mem_append] at hload hok hmem
  obtain ⟨request', rfl⟩ := hload call (.inr List.mem_cons_self)
  have hanswer : ∃ answer, outcome = .ok answer := by
    rcases hs.cases with ⟨answer, ho, -⟩ | ⟨e, rfl, hf⟩
    · exact ⟨answer, ho⟩
    · exact (hf.refused.fault (hok _ e (.inr List.mem_cons_self))).elim
  obtain ⟨answer, rfl⟩ := hanswer
  rcases hmem with hmem | hmem
  · exact hs.settled (ih (fun call hc => hload call (.inl hc))
      (fun call e hc => hok call e (.inl hc)) request hmem)
  · obtain rfl := SessionCall.loadRuntime.inj (List.mem_singleton.mp hmem)
    exact hs.settles

theorem Settled.separated {request' : RunRequest} (h : Settled request s)
    (h' : Settled request' s) (hid : request.sessionId = request.identity.conversationId)
    (hid' : request'.sessionId = request'.identity.conversationId)
    (hne : request.identity ≠ request'.identity) :
    request.identity.Separated request'.identity := by
  have hkey : conversationSessionKey request.identity ≠
      conversationSessionKey request'.identity := by
    intro hk
    exact hne (Option.some.inj (h.1.symm.trans (hk ▸ h'.1)))
  refine ⟨hkey, ?_⟩
  by_contra hmeet
  obtain ⟨hsame, hblank⟩ := not_or.mp hmeet
  have hsame := not_not.mp hsame
  have hl := h.2 (hid ▸ hblank)
  have hl' := h'.2 (hid' ▸ hsame ▸ hblank)
  rw [hid', ← hsame, ← hid, hl] at hl'
  exact hkey (Option.some.inj hl')

end SessionEvent

open SessionEvent in
/-- Loading the sessions of a list of events never ends with a conflict if and only if the events
of different identities are separated. -/
theorem events_never_conflict_iff (faulty : Prop) (events : List CanonicalEvent) :
    (∀ history s, Trace (SessionEvent.Step faulty) .empty history s →
      history.map Prod.fst = eventCalls events →
      ∀ call e, (call, .error e) ∈ history → e.isConflict = false) ↔ EventsSeparated events := by
  constructor
  · intro h e₁ he₁ e₂ he₂ hm₁ hm₂ hne
    obtain ⟨request₁, hr₁⟩ := exists_request hm₁
    obtain ⟨request₂, hr₂⟩ := exists_request hm₂
    obtain ⟨-, ht₁, hid₁⟩ := buildRunRequestFromEvent_eq_some hr₁
    obtain ⟨-, ht₂, hid₂⟩ := buildRunRequestFromEvent_eq_some hr₂
    have hcalls := SessionState.map_fst_evalCalls (eventCalls events) .empty
    have hsettled := trace_settled (SessionState.trace_evalCalls False (eventCalls events) .empty)
      (fun call hc => by
        obtain ⟨-, -, request, -, rfl⟩ := mem_eventCalls.mp (hcalls ▸ hc)
        exact ⟨request, rfl⟩)
      (h _ _ (SessionState.trace_evalCalls faulty (eventCalls events) .empty) hcalls)
    rw [hcalls] at hsettled
    rw [← ht₁, ← ht₂]
    apply Settled.separated
      (hsettled request₁ (mem_eventCalls.mpr ⟨e₁, he₁, request₁, hr₁, rfl⟩))
      (hsettled request₂ (mem_eventCalls.mpr ⟨e₂, he₂, request₂, hr₂, rfl⟩)) hid₁ hid₂
    rw [ht₁, ht₂]
    exact hne
  · intro hsep history s htrace hcalls call e hmem
    have hids : ∀ t ∈ (events.filter fun e => e.message.isSome).map CanonicalEvent.identity,
        ∀ o ∈ (events.filter fun e => e.message.isSome).map CanonicalEvent.identity,
          t ≠ o → t.Separated o := by
      intro t ht o ho hne
      obtain ⟨e₁, he₁, rfl⟩ := List.mem_map.mp ht
      obtain ⟨e₂, he₂, rfl⟩ := List.mem_map.mp ho
      obtain ⟨he₁, hm₁⟩ := List.mem_filter.mp he₁
      obtain ⟨he₂, hm₂⟩ := List.mem_filter.mp he₂
      exact hsep e₁ he₁ e₂ he₂ hm₁ hm₂ hne
    apply trace_of_separated hids htrace _ hmem
    intro call hc
    obtain ⟨event, he, request, hr, rfl⟩ := mem_eventCalls.mp (hcalls ▸ hc)
    obtain ⟨hm, ht, hid⟩ := buildRunRequestFromEvent_eq_some hr
    refine ⟨request, rfl, ?_, hid⟩
    rw [ht]
    exact List.mem_map_of_mem (List.mem_filter.mpr ⟨he, hm⟩)

/-- A message in one group, received by one account of the bot. -/
def groupEvent (platformAccount : String) : CanonicalEvent where
  platform := "qq"
  platformAccount := platformAccount
  conversation := "qq:group:7788"
  actor := "qq:user:1"
  eventId := "1"
  timestampEpochSecs := 0
  kind := .message ⟨"1", none, [.text "hello"], [], .null⟩
  rawNativePayload := .null

/-- Two accounts of the bot in one group: the second one is refused. -/
theorem second_account_conflicts :
    ¬ ∀ events history s, Trace (SessionEvent.Step False) .empty history s →
      history.map Prod.fst = eventCalls events →
      ∀ call e, (call, .error e) ∈ history → e.isConflict = false := by
  intro h
  have hconflict : ∃ event ∈ (SessionState.empty.evalCalls
      (eventCalls [groupEvent "qq:bot_uin:1", groupEvent "qq:bot_uin:2"])).1,
      event.2 = .error (.sessionConflict "qq:group:7788" "qq" "qq:group:7788" "") := by
    decide +kernel
  obtain ⟨⟨call, outcome⟩, hmem, rfl⟩ := hconflict
  have hno := h _ _ _ (SessionState.trace_evalCalls False _ _)
    (SessionState.map_fst_evalCalls _ _) _ _ hmem
  exact absurd hno (by decide)

end DogBot
