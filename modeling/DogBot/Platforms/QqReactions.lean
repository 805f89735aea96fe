import DogBot.Platforms.Delivery

/-! # Reactions in front of messages

The reactions of a plan are sent before its messages, and the first one that
fails ends the delivery. A plan is delivered twice here, under two behaviours of
the API that answer messages alike, and without its actions.
-/

namespace DogBot.Qq

/-- A behaviour of the API. What is answered to a message depends on the messages before it; what
is answered to a reaction may depend on all requests before it. -/
structure NapcatApi where
  onMessage : List ApiRequest → ApiRequest → ApiResponse
  onReaction : List ApiRequest → ApiRequest → ApiResponse

namespace QqPlatform

variable (self : QqPlatform)

def IsReaction (request : ApiRequest) : Prop := request.url = self.baseUrl ++ "/set_msg_emoji_like"

instance : DecidablePred self.IsReaction := fun _ => inferInstanceAs (Decidable (_ = _))

def messageRequests (sent : List ApiRequest) : List ApiRequest :=
  sent.filter fun request => ¬ self.IsReaction request

def answer (api : NapcatApi) (sent : List ApiRequest) (request : ApiRequest) :
    ApiResponse × List ApiRequest :=
  (if self.IsReaction request then api.onReaction sent request
    else api.onMessage (self.messageRequests sent) request, sent ++ [request])

/-- The message requests of a plan under a behaviour of the API. -/
def messagesSent (api : NapcatApi) (context : DeliveryContext) (plan : OutboundPlan) :
    List ApiRequest :=
  self.messageRequests ((self.sendPlan context plan).eval (self.answer api) []).2

/-- Reactions cost no message: how they are answered makes no difference to the messages, nor does
it make one that the plan has actions at all. -/
structure ReactionsCostNothing (platform : QqPlatform) (context : DeliveryContext)
    (plan : OutboundPlan) : Prop where
  answers : ∀ api api' : NapcatApi, api.onMessage = api'.onMessage →
    platform.messagesSent api context plan = platform.messagesSent api' context plan
  actions : ∀ api : NapcatApi, platform.messagesSent api context plan =
    platform.messagesSent api context { plan with actions := [] }

def failingReactions : NapcatApi where
  onMessage := fun _ _ => successAnswer
  onReaction := fun _ _ => .unreachable "connection refused"

variable {self} {context : DeliveryContext} {plan : OutboundPlan} {actions : List OutboundAction}
  {messages : List OutboundMessage} {isFirst : Bool} {lastResponse : MessageResponse}
  {api api' : NapcatApi} {sent : List ApiRequest}

theorem not_isReaction_of_messageRequest {conversationId message path : String}
    {payload : Json.Value} (h : messageRequest conversationId message = .ok (path, payload)) :
    ¬ self.IsReaction { url := self.baseUrl ++ path, query := [], payload } := by
  have hpath : path = "/send_private_msg" ∨ path = "/send_group_msg" := by
    unfold messageRequest at h
    split at h
    · cases h
    · dsimp only at h
      split_ifs at h
      · exact .inl (congrArg Prod.fst (Except.ok.inj h)).symm
      · exact .inr (congrArg Prod.fst (Except.ok.inj h)).symm
  intro hreaction
  have hurl : path = "/set_msg_emoji_like" := by
    have hlists := congrArg String.toList hreaction
    simp only [String.toList_append] at hlists
    exact String.toList_inj.mp (List.append_cancel_left hlists)
  rw [hurl] at hpath
  exact absurd hpath (by decide)

theorem only_sendMessages {A : ApiRequest → Prop} (h : ∀ message path payload,
    messageRequest context.conversationId message = .ok (path, payload) →
      A { url := self.baseUrl ++ path, query := [], payload }) :
    (self.sendMessages context isFirst lastResponse messages).Only A := by
  induction messages generalizing isFirst lastResponse with
  | nil => trivial
  | cons message messages ih =>
    apply Program.Only.bind (Program.only_ofExcept _)
    intro encoded
    apply Program.Only.bind
    · rw [sendEncodedMessage]
      cases hrequest : messageRequest context.conversationId encoded with
      | error e => trivial
      | ok request =>
        exact ⟨h encoded request.1 request.2 hrequest, fun response => Program.only_ofExcept _⟩
    · exact fun response => ih

theorem only_sendActions {A : ApiRequest → Prop}
    (h : ∀ payload, A { url := self.baseUrl ++ "/set_msg_emoji_like", query := [], payload }) :
    (self.sendActions actions).Only A := by
  induction actions with
  | nil => trivial
  | cons action actions ih =>
    cases action with
    | reactionRemove action => exact ih
    | reactionAdd action =>
      apply Program.Only.bind
      · apply Program.Only.bind (Program.only_ofExcept _)
        exact fun payload => ⟨h payload, fun response => Program.only_ofExcept _⟩
      · exact fun _ => ih

theorem runs_answer {α : Type} (api : NapcatApi) (delivery : DeliveryM α) (sent : List ApiRequest) :
    Program.Runs Sends delivery sent (delivery.eval (self.answer api) sent).1
      (delivery.eval (self.answer api) sent).2 :=
  Program.runs_eval (fun _ _ => rfl) delivery sent

theorem messageRequests_of_only {α : Type} {delivery : DeliveryM α}
    (h : delivery.Only self.IsReaction) (api : NapcatApi) :
    self.messageRequests (delivery.eval (self.answer api) []).2 = [] := by
  rw [messageRequests, List.filter_eq_nil_iff]
  intro request hr
  have hreaction := requests_of_runs h (runs_answer api delivery []) request hr
  simpa using hreaction

theorem sendActions_of_none (h : ∀ reaction, .reactionAdd reaction ∉ actions) :
    self.sendActions actions = .ret () := by
  induction actions with
  | nil => rfl
  | cons action actions ih =>
    cases action with
    | reactionRemove action => exact ih fun reaction hr => h reaction (List.mem_cons_of_mem _ hr)
    | reactionAdd action => exact absurd (List.mem_cons_self ..) (h action)

theorem sendMessages_of_not_sent
    (h : ∀ message ∈ messages.head?, messageKind context isFirst message ≠ .sent) :
    Program.Only (fun _ => False) (self.sendMessages context isFirst lastResponse messages) := by
  cases messages with
  | nil => trivial
  | cons message messages =>
    have hkind := h message rfl
    rw [messageKind] at hkind
    rw [sendMessages]
    cases hcompile : compileMessage context isFirst message with
    | error err => trivial
    | ok encoded =>
      change Program.Only _ (self.sendEncodedMessage context.conversationId encoded >>= _)
      rw [sendEncodedMessage]
      cases hrequest : messageRequest context.conversationId encoded with
      | error e => trivial
      | ok request => simp [hcompile, hrequest] at hkind

/-- A failing reaction ends the actions of a plan. -/
theorem sendActions_failing (h : ∃ reaction, .reactionAdd reaction ∈ actions)
    (sent : List ApiRequest) :
    ∃ e, ((self.sendActions actions).eval (self.answer failingReactions) sent).1 = .error e := by
  induction actions with
  | nil => simp at h
  | cons action actions ih =>
    cases action with
    | reactionRemove action =>
      obtain ⟨reaction, hr⟩ := h
      exact ih ⟨reaction, (List.mem_cons.mp hr).resolve_left (by simp)⟩
    | reactionAdd action =>
      rw [sendActions, sendReactionAdd]
      cases reactionRequest action with
      | error e => exact ⟨e, rfl⟩
      | ok payload =>
        let request : ApiRequest := { url := self.baseUrl ++ "/set_msg_emoji_like", query := [],
                                      payload := payload }
        have hreaction : self.IsReaction request := rfl
        refine ⟨deliveryError "delivery_unavailable"
          ("failed to reach NapCat API: " ++ "connection refused"), ?_⟩
        change (Program.eval (self.answer failingReactions) (Program.call request _) sent).1 = _
        rw [Program.eval, answer, if_pos hreaction]
        rfl

theorem sendMessages_eq_call
    (h : ∃ message ∈ messages.head?, messageKind context isFirst message = .sent) :
    ∃ request next, ¬ self.IsReaction request ∧
      self.sendMessages context isFirst lastResponse messages = .call request next := by
  obtain ⟨message, hm, hkind⟩ := h
  obtain ⟨messages, rfl⟩ := List.head?_eq_some_iff.mp hm
  rw [messageKind] at hkind
  rw [sendMessages]
  cases hcompile : compileMessage context isFirst message with
  | error err => simp [hcompile] at hkind
  | ok encoded =>
    change ∃ request next, _ ∧
      self.sendEncodedMessage context.conversationId encoded >>= _ = .call request next
    rw [sendEncodedMessage]
    cases hrequest : messageRequest context.conversationId encoded with
    | error e => simp [hcompile, hrequest] at hkind
    | ok request => exact ⟨_, _, not_isReaction_of_messageRequest hrequest, rfl⟩

theorem messageRequests_ne_nil
    (h : ∃ message ∈ messages.head?, messageKind context isFirst message = .sent) :
    self.messageRequests ((self.sendMessages context isFirst lastResponse messages).eval
      (self.answer api) []).2 ≠ [] := by
  obtain ⟨request, next, hnot, hcall⟩ := sendMessages_eq_call h
  rw [hcall, Program.eval]
  have hprefix := prefix_of_runs (@runs_answer self _ api
    (next (self.answer api [] request).1) (self.answer api [] request).2)
  have hm : request ∈ (Program.eval (self.answer api) (next (self.answer api [] request).1)
      (self.answer api [] request).2).2 := hprefix.subset (by simp [answer])
  have hfiltered : request ∈ self.messageRequests
      (Program.eval (self.answer api) (next (self.answer api [] request).1)
        (self.answer api [] request).2).2 := List.mem_filter.mpr ⟨hm, by simpa using hnot⟩
  exact List.ne_nil_of_mem hfiltered

theorem messagesSent_failingReactions (h : ∃ reaction, .reactionAdd reaction ∈ plan.actions) :
    self.messagesSent failingReactions context plan = [] := by
  rw [messagesSent, sendPlan]
  cases dispatchPlan plan with
  | error err => rfl
  | ok =>
    change self.messageRequests (Program.eval _ (self.sendActions plan.actions >>= _) []).2 = []
    obtain ⟨e, he⟩ := @sendActions_failing self _ h []
    rw [Program.eval_bind]
    have hnone := messageRequests_of_only
      (@only_sendActions self plan.actions self.IsReaction fun _ => rfl) failingReactions
    generalize Program.eval (self.answer failingReactions) (self.sendActions plan.actions) [] =
      result at he hnone
    obtain ⟨o, sent⟩ := result
    obtain rfl : o = .error e := he
    exact hnone

theorem messagesSent_without_actions (hdispatch : dispatchPlan plan = .ok ())
    (h : ∃ message ∈ plan.messages.head?, messageKind context true message = .sent) :
    self.messagesSent api context { plan with actions := [] } ≠ [] := by
  have hplain : dispatchPlan { plan with actions := [] } = .ok () := hdispatch
  rw [messagesSent, sendPlan, hplain]
  exact messageRequests_ne_nil h

theorem messagesSent_of_not_dispatched (h : dispatchPlan plan ≠ .ok ())
    (actions : List OutboundAction) :
    self.messagesSent api context { plan with actions := actions } = [] := by
  have hdispatch : dispatchPlan { plan with actions := actions } = dispatchPlan plan := rfl
  rw [messagesSent, sendPlan, hdispatch]
  cases hplan : dispatchPlan plan with
  | error err => rfl
  | ok => exact absurd hplan h

theorem messagesSent_of_not_sent
    (h : ∀ message ∈ plan.messages.head?, messageKind context true message ≠ .sent)
    (actions : List OutboundAction) :
    self.messagesSent api context { plan with actions := actions } = [] := by
  apply messageRequests_of_only
  apply Program.Only.bind (Program.only_ofExcept _)
  intro _
  apply Program.Only.bind (only_sendActions fun _ => rfl)
  exact fun _ => (sendMessages_of_not_sent h).mono fun _ => False.elim

theorem sendPlan_of_none (h : ∀ reaction, .reactionAdd reaction ∉ plan.actions) :
    self.sendPlan context plan = self.sendPlan context { plan with actions := [] } := by
  rw [sendPlan, sendPlan, sendActions_of_none h]
  rfl

theorem messagesSent_congr (h : api.onMessage = api'.onMessage) :
    self.messagesSent api context { plan with actions := [] } =
      self.messagesSent api' context { plan with actions := [] } := by
  have honly : (self.sendPlan context { plan with actions := [] }).Only
      fun request => ¬ self.IsReaction request := by
    apply Program.Only.bind (Program.only_ofExcept _)
    exact fun _ => only_sendMessages fun _ _ _ => not_isReaction_of_messageRequest
  have hanswer : ∀ sent request, ¬ self.IsReaction request →
      self.answer api sent request = self.answer api' sent request := by
    intro sent request hnot
    rw [answer, answer, if_neg hnot, if_neg hnot, h]
  rw [messagesSent, messagesSent, honly.eval_congr hanswer]

/-- Reactions cost no message exactly if the plan is not dispatched, has no reaction, or has no
message that can be sent first. -/
theorem reactions_cost_nothing_iff (self : QqPlatform) (context : DeliveryContext)
    (plan : OutboundPlan) : self.ReactionsCostNothing context plan ↔
      dispatchPlan plan ≠ .ok () ∨ (∀ reaction, .reactionAdd reaction ∉ plan.actions) ∨
        ∀ message ∈ plan.messages.head?, messageKind context true message ≠ .sent := by
  constructor
  · intro h
    by_contra hnot
    push Not at hnot
    obtain ⟨hdispatch, hreaction, hfirst⟩ := hnot
    apply @messagesSent_without_actions self _ _ failingReactions hdispatch hfirst
    rw [← h.actions failingReactions, messagesSent_failingReactions hreaction]
  · rintro (hdispatch | hnone | hfirst)
    · exact ⟨fun _ _ _ => (messagesSent_of_not_dispatched hdispatch plan.actions).trans
        (messagesSent_of_not_dispatched hdispatch plan.actions).symm,
        fun _ => (messagesSent_of_not_dispatched hdispatch plan.actions).trans
          (messagesSent_of_not_dispatched hdispatch []).symm⟩
    · constructor
      · intro api api' h
        rw [messagesSent, messagesSent, sendPlan_of_none hnone]
        exact messagesSent_congr h
      · intro api
        rw [messagesSent, messagesSent, sendPlan_of_none hnone]
    · exact ⟨fun _ _ _ => (messagesSent_of_not_sent hfirst plan.actions).trans
        (messagesSent_of_not_sent hfirst plan.actions).symm,
        fun _ => (messagesSent_of_not_sent hfirst plan.actions).trans
          (messagesSent_of_not_sent hfirst []).symm⟩

def reactionPlan : OutboundPlan where
  messages := [{ parts := [.text "done"], replyTo := none, suppressDefaultReply := false
                 deliveryPolicy := none }]
  actions := [.reactionAdd { targetMessageId := "5", emoji := "👍" }]
  deliveryReportPolicy := none

/-- Whether the text is sent depends on the answer to the reaction. -/
theorem failing_reaction_costs_message : ¬ ∀ (self : QqPlatform) (context : DeliveryContext)
    (plan : OutboundPlan), self.ReactionsCostNothing context plan := by
  intro h
  let platform : QqPlatform := ⟨"http://napcat", "qq:bot_uin:9"⟩
  let api : NapcatApi := ⟨fun _ _ => successAnswer, fun _ _ => successAnswer⟩
  have hsame := (h platform privateContext reactionPlan).answers api failingReactions rfl
  exact absurd (congrArg List.length hsame) (by decide +kernel)

end QqPlatform

end DogBot.Qq
