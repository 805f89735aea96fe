import DogBot.Session.FirstUse

/-! # Concurrent binding of an external id

A binding checks the alias, reads the row of its session and then writes the
alias. Between the check and the write other threads may do the same. Bindings
of one external id exclude each other if a binding that is written finds no
other one to a different session between its check and its write.
-/

namespace DogBot

open Program SessionStore

namespace SessionArgs

/-- The call of a thread that binds an external id to its conversation. -/
def bindExternal (t : SessionArgs) : StoreM Unit :=
  bindExternalSessionId t.externalSessionId t.identity

/-- What is left of a binding when the check has passed. -/
def fetchAndBind (t : SessionArgs) : StoreM Unit := do
  match ← fetchSession t.key t.externalSessionId with
  | none => .fail (missingSession t.externalSessionId t.identity)
  | some record =>
    ensureSessionIdentity record t.identity
    upsertSessionAlias t.externalSessionId t.key

/-- What is left of a binding before the alias is written. -/
def writeAlias (t : SessionArgs) : StoreM Unit := upsertSessionAlias t.externalSessionId t.key

/-- What is left of a binding that has found the alias of another session. -/
def refuse (t : SessionArgs) (existingSessionKey : String) : StoreM Unit := do
  match ← fetchSession existingSessionKey t.externalSessionId with
  | none => .fail (missingSession t.externalSessionId t.identity)
  | some existing => .fail (ownedBy t.externalSessionId existing)

/-- A thread is between its check and its write. -/
def Pending (t : SessionArgs) (p : StoreM Unit) : Prop := p = t.fetchAndBind ∨ p = t.writeAlias

end SessionArgs

abbrev Binding (faulty : Prop) : SessionPool Unit → SessionPool Unit → Prop :=
  Pool.Step SessionArgs.bindExternal (fun _ _ => SessionStep faulty) fun _ _ => False

namespace Binding

/-- When a step completes a binding, no binding of the external id to another session is between
its check and its write. -/
def Undisturbed (P P' : SessionPool Unit) : Prop :=
  ∀ i t, P.threads[i]? = some (t, t.writeAlias) → P'.Returns i t () →
    ∀ (j : ℕ) (t' : SessionArgs) (p : StoreM Unit), P.threads[j]? = some (t', p) →
      t'.Pending p → t'.externalSessionId = t.externalSessionId → t'.key = t.key

/-- The places in the program of a thread. Once the row was found it belongs to the thread's
conversation. -/
inductive Stage (s : SessionState) (t : SessionArgs) : StoreM Unit → Prop
  | start : Stage s t t.bindExternal
  | refusing (existingSessionKey : String) : Stage s t (t.refuse existingSessionKey)
  | checked : Stage s t t.fetchAndBind
  | found (ho : s.owner t.key = some t.identity) : Stage s t t.writeAlias
  | bound (ho : s.owner t.key = some t.identity) : Stage s t (.ret ())
  | failed (e : SessionStoreError) : Stage s t (.fail e)

variable {faulty : Prop} {s s' : SessionState} {t : SessionArgs} {p : StoreM Unit}

theorem Stage.congr (h : Stage s t p) (hs : s'.sessions = s.sessions) : Stage s' t p := by
  have ho : s'.owner t.key = s.owner t.key := by rw [SessionState.owner, hs, SessionState.owner]
  cases h with
  | start => exact .start
  | refusing key => exact .refusing key
  | checked => exact .checked
  | found h => exact .found (ho.trans h)
  | bound h => exact .bound (ho.trans h)
  | failed e => exact .failed e

/-- What a step of a thread does. Before the write it changes nothing, and it only gets past the
check if the alias does not bind the external id to another session; the write ends the thread. -/
inductive Does (s : SessionState) (t : SessionArgs) (p next : StoreM Unit) : SessionState → Prop
  | reads (hstage : Stage s t next) (hret : next ≠ .ret ())
      (hpending : t.Pending next → t.Pending p ∨ s.Bindable t.externalSessionId t.identity) :
      Does s t p next s
  | writes (hp : p = t.writeAlias) (ho : s.owner t.key = some t.identity)
      (hnext : next = .ret ()) : Does s t p next (s.bind t.externalSessionId t.key)
  | fails {s' : SessionState} (hp : p = t.writeAlias) (e : SessionStoreError) (hnext : next = .fail e)
      (hs : s' = s ∨ s' = s.bind t.externalSessionId t.key) : Does s t p next s'

theorem not_pending_fail (t : SessionArgs) (e : SessionStoreError) :
    ¬ t.Pending (.fail e) := by
  rintro (h | h) <;> cases h

theorem Does.fail (e : SessionStoreError) : Does s t p (.fail e) s :=
  .reads (.failed e) nofun fun h => absurd h (not_pending_fail t e)

theorem refuse_bind (t : SessionArgs) (key : String) :
    (t.refuse key >>= fun _ => t.fetchAndBind) = t.refuse key := by
  change Program.call _ _ = Program.call _ _
  congr 1
  funext r
  rcases r with m | _ | row <;> rfl

theorem not_pending_refuse {key : String} (hk : key ≠ t.key) : ¬ t.Pending (t.refuse key) := by
  rintro (h | h)
  · have hop := (Program.call.inj h).1
    exact hk (Statement.selectSession.inj (SessionOp.statement.inj hop))
  · cases h

theorem does_check :
    Does s t t.bindExternal ((match s.aliases.lookup t.externalSessionId with
      | some existingSessionKey =>
        if existingSessionKey = t.key then pure () else t.refuse existingSessionKey
      | none => pure ()) >>= fun _ => t.fetchAndBind) s := by
  cases hl : s.aliases.lookup t.externalSessionId with
  | none =>
    refine .reads .checked Program.call_ne_ret fun _ => .inr fun key hk => ?_
    rw [hl] at hk
    cases hk
  | some key =>
    by_cases hk : key = t.key
    · have hb : s.Bindable t.externalSessionId t.identity := by
        intro key' hl'
        exact Option.some.inj (hl'.symm.trans hl) ▸ hk
      simp only [if_pos hk]
      exact .reads .checked Program.call_ne_ret fun _ => .inr hb
    · simp only [if_neg hk, refuse_bind]
      exact .reads (.refusing key) Program.call_ne_ret fun h => absurd h (not_pending_refuse hk)

theorem Stage.does {op : SessionOp} {next : op.Result → StoreM Unit} {r : op.Result}
    (h : Stage s t p) (hp : p = .call op next) (hs : SessionStep faulty s op r s') :
    Does s t p (next r) s' := by
  cases h with
  | start =>
    cases hp
    obtain rfl : s' = s := hs.effect.elim id id
    rcases hs.answer with rfl | ⟨m, rfl⟩
    · simp only [Statement.answer]
      have hcheck := @does_check s' t
      cases hl : s'.aliases.lookup t.externalSessionId with
      | none =>
        rw [hl] at hcheck
        exact hcheck
      | some key =>
        rw [hl] at hcheck
        exact hcheck
    · exact .fail _
  | refusing key =>
    cases hp
    obtain rfl : s' = s := hs.effect.elim id id
    rcases hs.answer with rfl | ⟨m, rfl⟩
    · simp only [Statement.answer]
      cases s'.sessions.lookup key with
      | none => exact .fail _
      | some row => exact .fail _
    · exact .fail _
  | checked =>
    cases hp
    obtain rfl : s' = s := hs.effect.elim id id
    rcases hs.answer with rfl | ⟨m, rfl⟩
    · simp only [Statement.answer]
      cases hl : s'.sessions.lookup t.key with
      | none => exact .fail _
      | some row =>
        change Does s' t _ (ensureSessionIdentity (buildSessionRecord t.key t.externalSessionId row
          false) t.identity >>= fun _ => t.writeAlias) s'
        unfold ensureSessionIdentity
        split_ifs with ht
        · exact .reads (.found ((owner_of_lookup hl).trans (congrArg some ht)))
            Program.call_ne_ret fun _ => .inl (.inl rfl)
        · exact .fail _
    · exact .fail _
  | found ho =>
    cases hp
    rcases hs.answer with rfl | ⟨m, rfl⟩
    · cases hs with
      | executed => exact .writes rfl ho rfl
    · exact .fails rfl _ rfl hs.effect.symm
  | bound ho => cases hp
  | failed e => cases hp

/-- Every thread is at some place of its program, the alias of a completed binding points to its
session, and every binding of the same external id that may still be written is to that session. -/
structure Inv (P : SessionPool Unit) : Prop where
  stage : ∀ (i : ℕ) (t : SessionArgs) (p : StoreM Unit), P.threads[i]? = some (t, p) →
    Stage P.shared t p
  bound : ∀ i t, P.Returns i t () →
    P.shared.aliases.lookup t.externalSessionId = some t.key
  agree : ∀ i t, P.Returns i t () → ∀ (j : ℕ) (t' : SessionArgs) (p : StoreM Unit),
    P.threads[j]? = some (t', p) → t'.Pending p →
      t'.externalSessionId = t.externalSessionId → t'.key = t.key

theorem not_pending_start (t : SessionArgs) : ¬ t.Pending t.bindExternal := by
  rintro (h | h) <;> cases h

theorem Inv.spawn {P : SessionPool Unit} (hi : Inv P) (t : SessionArgs) :
    Inv { P with threads := P.threads ++ [(t, t.bindExternal)] } := by
  constructor
  · intro i t' p hp
    rcases Pool.thread_concat hp with hp | ⟨-, he⟩
    · exact hi.stage i t' p hp
    · cases he
      exact .start
  · intro i t' hp
    rcases Pool.thread_concat hp with hp | ⟨-, he⟩
    · exact hi.bound i t' hp
    · cases he
  · intro i t₁ hret j t' p hp hpending
    rcases Pool.thread_concat hret with hret | ⟨-, he⟩
    · rcases Pool.thread_concat hp with hp | ⟨-, he⟩
      · exact hi.agree i t₁ hret j t' p hp hpending
      · cases he
        exact absurd hpending (not_pending_start t)
    · cases he

/-- A step that changes nothing and ends no binding. -/
theorem Inv.reads {P : SessionPool Unit} {i : ℕ} {t : SessionArgs} {p next : StoreM Unit}
    (hi : Inv P) (hp : P.threads[i]? = some (t, p)) (hstage : Stage P.shared t next)
    (hret : next ≠ .ret ()) (hpending : t.Pending next →
      t.Pending p ∨ P.shared.Bindable t.externalSessionId t.identity) :
    Inv { P with threads := P.threads.set i (t, next) } := by
  constructor
  · intro j t' p' hp'
    rcases Pool.thread_set hp hp' with ⟨-, he⟩ | ⟨-, hp'⟩
    · cases he
      exact hstage
    · exact hi.stage j t' p' hp'
  · intro j t' hp'
    rcases Pool.thread_set hp hp' with ⟨-, he⟩ | ⟨-, hp'⟩
    · cases he
      exact absurd rfl hret
    · exact hi.bound j t' hp'
  · intro j t₁ hj k t' p' hk hpend heid
    rcases Pool.thread_set hp hj with ⟨-, he⟩ | ⟨-, hj⟩
    · cases he
      exact absurd rfl hret
    · rcases Pool.thread_set hp hk with ⟨-, he⟩ | ⟨-, hk⟩
      · cases he
        -- The thread was pending before, or it has just found the alias of its own session.
        rcases hpending hpend with hpend | hb
        · exact hi.agree j t₁ hj i t p hp hpend heid
        · exact (hb t₁.key (heid ▸ hi.bound j t₁ hj)).symm
      · exact hi.agree j t₁ hj k t' p' hk hpend heid

/-- A step that writes the alias. -/
theorem Inv.writes {P : SessionPool Unit} {i : ℕ} {t : SessionArgs} {next : StoreM Unit}
    (hi : Inv P) (hp : P.threads[i]? = some (t, t.writeAlias))
    (hnext : next = .ret () ∧ P.shared.owner t.key = some t.identity ∨ ∃ e, next = .fail e)
    (hu : next = .ret () → ∀ (j : ℕ) (t' : SessionArgs) (p : StoreM Unit),
      P.threads[j]? = some (t', p) → t'.Pending p →
        t'.externalSessionId = t.externalSessionId → t'.key = t.key) :
    Inv ⟨P.shared.bind t.externalSessionId t.key, P.threads.set i (t, next)⟩ := by
  have hold : ∀ (j : ℕ) (t' : SessionArgs) (p : StoreM Unit), P.threads[j]? = some (t', p) →
      Stage (P.shared.bind t.externalSessionId t.key) t' p :=
    fun j t' p h => (hi.stage j t' p h).congr rfl
  have hpend : ∀ t' : SessionArgs, ¬ t'.Pending next := by
    rintro t' h
    rcases hnext with ⟨rfl, -⟩ | ⟨e, rfl⟩
    · rcases h with h | h <;> cases h
    · exact not_pending_fail t' e h
  constructor
  · intro j t' p' hp'
    rcases Pool.thread_set hp hp' with ⟨-, he⟩ | ⟨-, hp'⟩
    · cases he
      rcases hnext with ⟨rfl, ho⟩ | ⟨e, rfl⟩
      · exact .bound ho
      · exact .failed e
    · exact hold j t' p' hp'
  · intro j t' hp'
    rcases Pool.thread_set hp hp' with ⟨-, he⟩ | ⟨-, hp'⟩
    · cases he
      exact AList.lookup_insert _
    · by_cases heid : t'.externalSessionId = t.externalSessionId
      · -- A binding that is complete already is to the same session.
        have hkey := hi.agree j t' hp' i t _ hp (.inr rfl) heid.symm
        rw [heid, ← hkey]
        exact AList.lookup_insert _
      · exact (AList.lookup_insert_ne heid).trans (hi.bound j t' hp')
  · intro j t₁ hj k t' p' hk hpending heid
    rcases Pool.thread_set hp hk with ⟨-, he⟩ | ⟨-, hk'⟩
    · cases he
      exact absurd hpending (hpend t)
    · rcases Pool.thread_set hp hj with ⟨-, he⟩ | ⟨-, hj⟩
      · cases he
        exact hu rfl k t' p' hk' hpending heid
      · exact hi.agree j t₁ hj k t' p' hk' hpending heid

theorem Inv.step {P P' : SessionPool Unit} (hi : Inv P) (h : Binding faulty P P')
    (hu : Undisturbed P P') : Inv P' := by
  cases h with
  | env he => exact he.elim
  | spawn t => exact hi.spawn t
  | @run i t op next r s hrun hs =>
    have hlt : i < P.threads.length := (List.getElem?_eq_some_iff.mp hrun).1
    have hself : (P.threads.set i (t, next r))[i]? = some (t, next r) :=
      List.getElem?_set_self hlt
    have hdoes := (hi.stage i t _ hrun).does rfl hs
    cases hdoes with
    | reads hstage hret hpending => exact hi.reads hrun hstage hret hpending
    | writes hp ho hnext =>
      rw [hp] at hrun
      exact hi.writes hrun (.inl ⟨hnext, ho⟩) fun hret => hu i t hrun (hret ▸ hself)
    | fails hp e hnext hs' =>
      rw [hp] at hrun
      rw [hnext] at hself ⊢
      rcases hs' with rfl | rfl
      · exact hi.reads hrun (.failed e) nofun fun h => absurd h (not_pending_fail t e)
      · exact hi.writes hrun (.inr ⟨e, rfl⟩) nofun

theorem inv_init (init : SessionState) : Inv ⟨init, []⟩ := by
  constructor
  · intro i t p h; cases h
  · intro i t h; cases h
  · intro i t h; cases h

end Binding

/-- Whether or not statements fail: in every interleaving of any number of bindings in which no
binding is completed while one of the same external id to another session is between its check and
its write, two completed bindings of one external id are of the same conversation, and the alias of
a completed binding points to its session from then on. -/
theorem alias_binding_exclusive {faulty : Prop} {init : SessionState} {P : SessionPool Unit}
    (h : Reachable (fun P P' => Binding faulty P P' ∧ Binding.Undisturbed P P') ⟨init, []⟩ P) :
    (∀ i i' t t', P.Returns i t () → P.Returns i' t' () →
      t.externalSessionId = t'.externalSessionId → t.identity = t'.identity) ∧
    (∀ i t, P.Returns i t () → P.shared.aliases.lookup t.externalSessionId = some t.key ∧
      P.shared.owner t.key = some t.identity) := by
  have hi : Binding.Inv P :=
    h.invariant (Binding.inv_init init) fun _ _ hi hst => hi.step hst.1 hst.2
  have howner : ∀ i t, P.Returns i t () → P.shared.owner t.key = some t.identity := by
    intro i t hret
    cases hi.stage i t _ hret with
    | bound ho => exact ho
  refine ⟨fun i i' t t' hi₁ hi₂ heid => ?_, fun i t hret => ⟨hi.bound i t hret, howner i t hret⟩⟩
  have hkey : t.key = t'.key :=
    Option.some.inj ((hi.bound i t hi₁).symm.trans (heid ▸ hi.bound i' t' hi₂))
  exact Option.some.inj ((howner i t hi₁).symm.trans (hkey ▸ howner i' t' hi₂))

theorem Binding.runs_pending {faulty : Prop} {s : SessionState} {t : SessionArgs}
    {p : StoreM Unit} (hp : t.Pending p) (ho : s.owner t.key = some t.identity) :
    Runs (SessionStep faulty) p s (.ok ()) (s.bind t.externalSessionId t.key) := by
  obtain ⟨row, hl, ht⟩ := Option.map_eq_some_iff.mp ho
  have hwrite : Runs (SessionStep faulty) t.writeAlias s (.ok ())
      (s.bind t.externalSessionId t.key) :=
    .call (.executed (AList.mem_of_lookup hl)) (.ret () _)
  rcases hp with rfl | rfl
  · apply Runs.call (@SessionStep.executed faulty s (.selectSession t.key) trivial)
    simp only [Statement.answer, hl]
    change Runs _ (ensureSessionIdentity (buildSessionRecord t.key t.externalSessionId row
      false) t.identity >>= fun _ => t.writeAlias) s _ _
    unfold ensureSessionIdentity
    split_ifs with hrecord
    · exact hwrite
    · exact absurd ht hrecord
  · exact hwrite

/-- Where a binding was completed while one of the same external id to another session was
pending, the alias can be taken away from it, and both report success. -/
theorem alias_binding_taken {faulty : Prop} {P₀ P : SessionPool Unit} {i j : ℕ}
    {t t' : SessionArgs} {p : StoreM Unit} (h : Reachable (Binding faulty) P₀ P)
    (hret : P.Returns i t ()) (hj : P.threads[j]? = some (t', p)) (hp : t'.Pending p)
    (heid : t'.externalSessionId = t.externalSessionId) (hkey : t'.key ≠ t.key)
    (ho : P.shared.owner t'.key = some t'.identity) :
    ∃ P', Reachable (Binding faulty) P₀ P' ∧ P'.Returns i t () ∧ P'.Returns j t' () ∧
      P'.shared.aliases.lookup t.externalSessionId ≠ some t.key := by
  refine ⟨_, Pool.reachable_of_runs (Binding.runs_pending hp ho) h rfl hj, ?_, ?_, ?_⟩
  · have hne : j ≠ i := by
      rintro rfl
      obtain ⟨rfl, rfl⟩ := Prod.mk.inj (Option.some.inj (hj.symm.trans hret))
      rcases hp with hp | hp <;> cases hp
    exact (List.getElem?_set_ne hne).trans hret
  · exact List.getElem?_set_self (List.getElem?_eq_some_iff.mp hj).1
  · rw [← heid, SessionState.bind, AList.lookup_insert]
    simpa using hkey

def twoSessions : SessionState :=
  (SessionState.empty.insertRow ⟨"1", ⟨"qq", "bot", "private:1"⟩, 0, 0⟩).insertRow
    ⟨"2", ⟨"qq", "bot", "private:2"⟩, 0, 0⟩

/-- Two threads bind one external id to the two conversations. -/
def contendingBindings : List SessionArgs :=
  [⟨⟨"qq", "bot", "private:1"⟩, "external"⟩, ⟨⟨"qq", "bot", "private:2"⟩, "external"⟩]

/-- A thread that is alone disturbs no other. -/
theorem Binding.reachable_alone (init : SessionState) (t : SessionArgs) (is : List ℕ) :
    let P := Pool.schedule SessionState.handle SessionArgs.bindExternal init [t] is
    Reachable (fun P P' => Binding False P P' ∧ Undisturbed P P') ⟨init, []⟩ P ∧
      ∀ (j : ℕ) (t' : SessionArgs) (p : StoreM Unit), P.threads[j]? = some (t', p) → t' = t := by
  induction is using List.reverseRecOn with
  | nil =>
    refine ⟨Reachable.refl.tail ⟨.spawn t, ?_⟩, fun j t' p hj => ?_⟩
    · intro i t' hi
      cases hi
    · cases List.mem_singleton.mp (List.mem_of_getElem? hj)
      rfl
  | append_singleton is i ih =>
    obtain ⟨hr, halone⟩ := ih
    simp only [Pool.schedule, List.foldl_append]
    change Reachable _ _ (Pool.advance SessionState.handle (Pool.schedule _ _ _ _ _) i) ∧
      ∀ (j : ℕ) (t' : SessionArgs) (p : StoreM Unit),
        (Pool.advance SessionState.handle (Pool.schedule _ _ _ _ _) i).threads[j]? =
          some (t', p) → t' = t
    unfold Pool.advance
    split
    · rename_i t₁ op next hi
      refine ⟨hr.tail ⟨.run hi (SessionState.step_handle False _ op), ?_⟩, fun j t' p hj => ?_⟩
      · intro k t₂ hk _ j t' p hj _ _
        rw [halone k t₂ _ hk, halone j t' p hj]
      · rcases Pool.thread_set hi hj with ⟨-, he⟩ | ⟨-, hj⟩
        · cases he
          exact halone i t₁ _ hi
        · exact halone j t' p hj
    · exact ⟨hr, halone⟩

/-- A binding that is alone. -/
theorem alias_binding_exclusive_alone :
    let t : SessionArgs := ⟨⟨"qq", "bot", "private:1"⟩, "external"⟩
    let P := Pool.schedule SessionState.handle SessionArgs.bindExternal twoSessions [t] [0, 0, 0]
    P.Returns 0 t () ∧ P.shared.aliases.lookup "external" = some t.key := by
  intro t P
  have hret : P.Returns 0 t () := rfl
  have h := alias_binding_exclusive (Binding.reachable_alone twoSessions t [0, 0, 0]).1
  exact ⟨hret, (h.2 0 t hret).1⟩

/-- Both threads pass the check before either writes: both report success, and the alias of the
first points to the session of the second. -/
theorem alias_binding_raced :
    let P := Pool.schedule SessionState.handle SessionArgs.bindExternal twoSessions
      contendingBindings [0, 1, 0, 1, 0, 1]
    Reachable (Binding False) ⟨twoSessions, []⟩ P ∧
      (∀ t ∈ contendingBindings, twoSessions.owner t.key = some t.identity) ∧
      P.Returns 0 ⟨⟨"qq", "bot", "private:1"⟩, "external"⟩ () ∧
      P.Returns 1 ⟨⟨"qq", "bot", "private:2"⟩, "external"⟩ () ∧
      P.shared.aliases.lookup "external" =
        some (conversationSessionKey ⟨"qq", "bot", "private:2"⟩) := by
  refine ⟨Pool.reachable_schedule (fun _ _ => SessionState.step_handle False) _ _ _, ?_, ?_, ?_, ?_⟩
  · decide +kernel
  · rfl
  · rfl
  · decide +kernel

end DogBot
