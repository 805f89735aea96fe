import DogBot.Exec.Grants
import DogBot.Server.System

/-! # The scope of grants

Broad grants are meant for private chats of administrators. Whether a chat is
private is said twice in a request, by its chat type and by the scope of its
conversation. A request that is built from an event says the same twice; one to
`/v1/runs` may not.
-/

namespace DogBot

variable {settings : Settings} {request : RunRequest}

/-- The request is for a private conversation of an administrator. -/
def PrivateAdmin (settings : Settings) (request : RunRequest) : Prop :=
  conversationScope request.conversationId = some "private" ∧
    request.userId ∈ settings.adminActorIds

/-- Broad grants are for private conversations of administrators; any other request gets one grant,
which is for its own account and conversation. -/
structure GrantsScoped (settings : Settings) (request : RunRequest) : Prop where
  broad : ∀ grant ∈ historyReadGrantsForRequest settings request,
    grant.conversationId = none ∨ grant.isAdmin = true → PrivateAdmin settings request
  own : ¬ PrivateAdmin settings request → ∃ grant,
    historyReadGrantsForRequest settings request = [grant] ∧
      grant.platformAccount = request.platformAccountId ∧
      grant.conversationId = some request.conversationId

theorem grantsScoped_iff : GrantsScoped settings request ↔
    (request.chatType = "private" → request.userId ∈ settings.adminActorIds →
      conversationScope request.conversationId = some "private") := by
  constructor
  · intro h htype huser
    have hadmin : isAdminPrivateHistoryRequest settings request = true := by
      simp [isAdminPrivateHistoryRequest, htype, huser]
    by_contra hscope
    obtain ⟨grant, hgrants, -, hconversation⟩ := h.own fun hprivate => hscope hprivate.1
    have hmem : grant ∈ historyReadGrantsForRequest settings request := by simp [hgrants]
    rw [historyReadGrantsForRequest, if_pos hadmin, List.mem_map] at hmem
    obtain ⟨platformAccount, -, rfl⟩ := hmem
    cases hconversation
  · intro h
    have hprivate : isAdminPrivateHistoryRequest settings request = true →
        PrivateAdmin settings request := by
      intro hadmin
      simp only [isAdminPrivateHistoryRequest, Bool.and_eq_true, decide_eq_true_eq] at hadmin
      exact ⟨h hadmin.1 hadmin.2, hadmin.2⟩
    constructor
    · intro grant hgrant hbroad
      apply hprivate
      by_contra hadmin
      rw [historyReadGrantsForRequest, if_neg hadmin, List.mem_singleton] at hgrant
      rw [hgrant] at hbroad
      simp at hbroad
    · intro hnot
      rw [historyReadGrantsForRequest, if_neg fun hadmin => hnot (hprivate hadmin)]
      exact ⟨_, rfl, rfl, rfl⟩

theorem grantsScoped_of_event {event : CanonicalEvent}
    (h : buildRunRequestFromEvent event = some request) : GrantsScoped settings request := by
  obtain ⟨message, -, rfl⟩ := Option.map_eq_some_iff.mp h
  rw [grantsScoped_iff]
  intro htype _
  dsimp only at htype ⊢
  split at htype
  · assumption
  · exact absurd htype (by decide)
  · exact absurd htype (by decide)

/-- The grants of a run are scoped for every request that is built from an event, and for one that
`/v1/runs` accepts exactly if an administrator's request of chat type `private` names a private
conversation. -/
theorem grants_scoped_iff (settings : Settings) :
    (∀ (event : CanonicalEvent) (request : RunRequest),
      buildRunRequestFromEvent event = some request → GrantsScoped settings request) ∧
    ∀ (request : RunRequest) (call : RunCall), Server.run request = .ok call →
      (GrantsScoped settings call.request ↔
        (request.chatType = "private" → Text.trim request.userId ∈ settings.adminActorIds →
          conversationScope (Text.trim request.conversationId) = some "private")) := by
  constructor
  · exact fun event request h => grantsScoped_of_event h
  · intro request call h
    rw [Server.run_request h, grantsScoped_iff]

def adminSettings : Settings where
  platformQqAccountId := none
  platformWechatpadproAccountId := none
  historyRunTokenTtlSecs := 1800
  adminActorIds := ["qq:user:1"]

/-- A request of the administrator, with a chat type and a conversation. -/
def adminRequest (chatType conversationId : String) : RunRequest where
  platform := "qq"
  platformAccountId := "qq:bot_uin:9"
  conversationId := conversationId
  sessionId := conversationId
  userId := "qq:user:1"
  chatType := chatType
  cwd := "/workspace"
  prompt := "hello"
  triggerSummary := none
  triggerMessageId := none
  triggerReplyToMessageId := none
  mentionRefs := []
  replyExcerpt := none
  timeoutSecs := none

theorem grants_scoped_iff_private : ∃ call,
    Server.run (adminRequest "private" "qq:private:1") = .ok call ∧
      GrantsScoped adminSettings call.request := by
  obtain ⟨call, hcall⟩ : ∃ call, Server.run (adminRequest "private" "qq:private:1") = .ok call :=
    ⟨_, rfl⟩
  refine ⟨call, hcall, ((grants_scoped_iff adminSettings).2 _ _ hcall).mpr ?_⟩
  exact fun _ _ => by decide +kernel

/-- A request for a group that calls itself private gets the broad grants. -/
theorem group_request_broad : ¬ ∀ (settings : Settings) (request : RunRequest) (call : RunCall),
    Server.run request = .ok call → GrantsScoped settings call.request := by
  intro h
  obtain ⟨call, hcall⟩ : ∃ call, Server.run (adminRequest "private" "qq:group:5") = .ok call :=
    ⟨_, rfl⟩
  have hscoped := grantsScoped_iff.mp (h adminSettings _ _ hcall)
  rw [Server.run_request hcall] at hscoped
  exact absurd (hscoped rfl (by decide +kernel)) (by decide +kernel)

end DogBot
