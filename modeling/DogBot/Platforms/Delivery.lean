import DogBot.Platforms.QqDelivery
import DogBot.Platforms.WeChatPadProDelivery

/-! # Rejected plans

A plan that is rejected should not have been delivered in part. The items of a
plan are compiled one after the other, each after those before it were sent, so
a rejected item behind one that was sent leaves half of the plan delivered.
-/

namespace DogBot

/-- What becomes of an item of a plan when its turn comes. -/
inductive ItemKind | skipped | sent | rejected | stopped
  deriving DecidableEq, Repr

/-- No item is rejected behind one that was sent, unless something stops the delivery before. -/
def NoneRejectedAfterSent (kinds : List ItemKind) : Prop :=
  ∀ before after, kinds = before ++ .rejected :: after →
    (∀ k ∈ before, k = .skipped ∨ k = .sent) → .sent ∉ before

/-- The plan is rejected only before the first request. -/
def RejectedUnsent {α : Type} (delivery : DeliveryM α) : Prop :=
  ∀ (e : ErrorResponse) (sent : List ApiRequest),
    Program.Runs Sends delivery [] (.error e) sent → e.errorCode = "delivery_invalid_plan" →
      sent = []

/-- A delivery that begins behind other requests is not rejected, or else nothing was sent. -/
def Unsent {α : Type} (delivery : DeliveryM α) (sent : List ApiRequest) : Prop :=
  Program.Always Sends delivery (fun _ _ => True)
    (fun e sent' => e.errorCode = "delivery_invalid_plan" → sent' = []) sent

/-- The items behind some that were sent or not. -/
def CleanFrom (sent : Prop) : List ItemKind → Prop
  | [] => True
  | .skipped :: kinds => CleanFrom sent kinds
  | .sent :: kinds => CleanFrom True kinds
  | .rejected :: _ => ¬ sent
  | .stopped :: _ => True

variable {α β : Type} {sent : List ApiRequest} {kinds : List ItemKind} {e : ErrorResponse}
  {context : DeliveryContext} {message : OutboundMessage} {isFirst : Bool}

theorem forall_rejected_cons {kind : ItemKind} {P : List ItemKind → Prop} :
    (∀ before after, kind :: kinds = before ++ .rejected :: after → P before) ↔
      (kind = .rejected → P []) ∧
        ∀ before after, kinds = before ++ .rejected :: after → P (kind :: before) := by
  constructor
  · intro h
    constructor
    · rintro rfl
      exact h [] kinds rfl
    · rintro before after rfl
      exact h (kind :: before) after rfl
  · rintro ⟨hhead, htail⟩ before after heq
    cases before with
    | nil => exact hhead (List.cons.inj heq).1
    | cons k before =>
      obtain ⟨rfl, htail'⟩ := List.cons.inj heq
      exact htail before after htail'

theorem cleanFrom_iff (p : Prop) : CleanFrom p kinds ↔ ∀ before after,
    kinds = before ++ .rejected :: after → (∀ k ∈ before, k = .skipped ∨ k = .sent) →
      ¬ p ∧ .sent ∉ before := by
  induction kinds generalizing p with
  | nil => simp [CleanFrom]
  | cons kind kinds ih =>
    rw [forall_rejected_cons (P := fun before => (∀ k ∈ before, k = .skipped ∨ k = .sent) →
      ¬ p ∧ .sent ∉ before)]
    cases kind with
    | skipped => simp [CleanFrom, ih]
    | sent => simp [CleanFrom, ih]
    | rejected => simp [CleanFrom]
    | stopped => simp [CleanFrom]

theorem noneRejectedAfterSent_iff : NoneRejectedAfterSent kinds ↔ CleanFrom False kinds := by
  rw [cleanFrom_iff, NoneRejectedAfterSent]
  simp only [not_false_eq_true, true_and]

theorem rejectedUnsent_iff {delivery : DeliveryM α} :
    RejectedUnsent delivery ↔ Unsent delivery [] := by
  constructor
  · intro h
    exact Program.always_of_runs fun o sent' hr =>
      ⟨fun _ _ => trivial, fun e he => h e sent' (he ▸ hr)⟩
  · intro h e sent' hr
    exact (hr.post h).2 e rfl

theorem unsent_ofExcept_bind {o : Except ErrorResponse α} {f : α → DeliveryM β} :
    Unsent (Program.ofExcept o >>= f) sent ↔
      (∀ e, o = .error e → e.errorCode = "delivery_invalid_plan" → sent = []) ∧
        ∀ a, o = .ok a → Unsent (f a) sent := by
  cases o with
  | error e => simp [Unsent, Program.ofExcept]
  | ok a => simp [Unsent, Program.ofExcept]

/-- An answer that is not a rejection of the plan. -/
def NotRejection (o : Except ErrorResponse α) : Prop :=
  ∀ e, o = .error e → e.errorCode ≠ "delivery_invalid_plan"

theorem notRejection_ok {a : α} : NotRejection (.ok a) := by
  rintro e ⟨⟩

theorem notRejection_error (h : e.errorCode ≠ "delivery_invalid_plan") :
    NotRejection (.error e : Except ErrorResponse α) := by
  rintro e' ⟨⟩
  exact h

theorem notRejection_deliveryError {errorCode : String} (h : errorCode ≠ "delivery_invalid_plan")
    (message : String) :
    NotRejection (.error (deliveryError errorCode message) : Except ErrorResponse α) :=
  notRejection_error h

theorem NotRejection.bind {o : Except ErrorResponse α} {f : α → Except ErrorResponse β}
    (ho : NotRejection o) (hf : ∀ a, NotRejection (f a)) : NotRejection (o >>= f) := by
  cases o with
  | error e => exact notRejection_error (ho e rfl)
  | ok a => exact hf a

theorem NotRejection.map {o : Except ErrorResponse α} (ho : NotRejection o) (f : α → β) :
    NotRejection (o.map f) := by
  cases o with
  | error e => exact notRejection_error (ho e rfl)
  | ok a => exact notRejection_ok

theorem ApiResponse.notRejection_read (response : ApiResponse) (s t : String) :
    NotRejection (response.read s t) := by
  cases response with
  | unreachable err => exact notRejection_deliveryError (by decide) _
  | invalidJson err => exact notRejection_deliveryError (by decide) _
  | json status body => exact notRejection_ok

/-- Behind a request nothing may be rejected: its answer can be a success, and an error of it is
not a rejection. -/
theorem unsent_post_bind {request : ApiRequest} {read : ApiResponse → Except ErrorResponse α}
    {f : α → DeliveryM β} {p : Prop} (hread : ∀ response, NotRejection (read response))
    (hsuccess : ∃ response a, read response = .ok a)
    (hf : ∀ a, Unsent (f a) (sent ++ [request]) ↔ p) :
    Unsent (post request >>= fun response => Program.ofExcept (read response) >>= f) sent ↔ p := by
  have hpost : Unsent (post request >>= fun response => Program.ofExcept (read response) >>= f)
      sent ↔ ∀ response, Unsent (Program.ofExcept (read response) >>= f) (sent ++ [request]) := by
    simp [Unsent, post, Program.always_call, Sends]
  rw [hpost]
  constructor
  · intro h
    obtain ⟨response, a, hok⟩ := hsuccess
    exact (hf a).mp ((unsent_ofExcept_bind.mp (h response)).2 a hok)
  · intro hp response
    rw [unsent_ofExcept_bind]
    exact ⟨fun e he hcode => absurd hcode (hread response e he), fun a _ => (hf a).mpr hp⟩

def successAnswer : ApiResponse :=
  .json { code := 200, text := "200 OK" } (.object [("Code", .number (.int 200))])

end DogBot

namespace DogBot.Qq

variable {sent : List ApiRequest} {context : DeliveryContext} {isFirst : Bool}
  {messages : List OutboundMessage} {self : QqPlatform} {α : Type}

/-- What becomes of an action: its target must be a number that fits 64 bits. -/
def actionKind : OutboundAction → ItemKind
  | .reactionRemove _ => .skipped
  | .reactionAdd action =>
    match normalizeQqTargetId action.targetMessageId with
    | .error _ => .rejected
    | .ok target => if (Text.parseI64 target).isSome then .sent else .stopped

/-- What becomes of a message: it must be compiled, and its conversation must be one of QQ. -/
def messageKind (context : DeliveryContext) (isFirst : Bool) (message : OutboundMessage) :
    ItemKind :=
  match QqPlatform.compileMessage context isFirst message with
  | .error _ => .rejected
  | .ok encoded =>
    match messageRequest context.conversationId encoded with
    | .error _ => .stopped
    | .ok _ => .sent

def messageKinds (context : DeliveryContext) (isFirst : Bool) :
    List OutboundMessage → List ItemKind
  | [] => []
  | message :: messages =>
    messageKind context isFirst message :: messageKinds context false messages

/-- The items of a plan: its actions, and then its messages. -/
def itemKinds (context : DeliveryContext) (plan : OutboundPlan) : List ItemKind :=
  plan.actions.map actionKind ++ messageKinds context true plan.messages

theorem notRejection_readNapcatResponse (response : ApiResponse) :
    NotRejection (readNapcatResponse response) := by
  apply (response.notRejection_read _ _).bind
  intro answer
  dsimp only
  split_ifs
  · exact notRejection_ok
  · exact notRejection_deliveryError (by decide) _

theorem notRejection_readReactionResponse (response : ApiResponse) :
    NotRejection (readReactionResponse response) := by
  apply (notRejection_readNapcatResponse response).bind
  intro body
  split
  · exact notRejection_deliveryError (by decide) _
  · exact notRejection_ok

theorem notRejection_messageRequest (conversationId message : String) :
    NotRejection (messageRequest conversationId message) := by
  unfold messageRequest
  split
  · exact notRejection_deliveryError (by decide) _
  · dsimp only
    split_ifs
    · exact notRejection_ok
    · exact notRejection_ok
    · exact notRejection_deliveryError (by decide) _

theorem unsent_sendEncodedMessage_bind {conversationId message : String}
    {f : MessageResponse → DeliveryM α} {p : Prop}
    (hf : ∀ r sent', sent' ≠ [] → (Unsent (f r) sent' ↔ p)) :
    Unsent (self.sendEncodedMessage conversationId message >>= f) sent ↔
      ∀ request, messageRequest conversationId message = .ok request → p := by
  rw [QqPlatform.sendEncodedMessage, Program.bind_assoc, unsent_ofExcept_bind]
  rw [and_iff_right fun e he hcode => absurd hcode (notRejection_messageRequest _ _ e he)]
  refine forall_congr' fun request => imp_congr_right fun _ => ?_
  rw [Program.bind_assoc]
  apply unsent_post_bind
  · exact fun response => (notRejection_readNapcatResponse response).map sentMessage
  · exact ⟨successAnswer, _, rfl⟩
  · exact fun r => hf r _ (by simp)

theorem unsent_sendMessages {lastResponse : MessageResponse} :
    Unsent (self.sendMessages context isFirst lastResponse messages) sent ↔
      CleanFrom (sent ≠ []) (messageKinds context isFirst messages) := by
  induction messages generalizing sent isFirst lastResponse with
  | nil => simp [QqPlatform.sendMessages, Unsent, messageKinds, CleanFrom]
  | cons message messages ih =>
    rw [QqPlatform.sendMessages, unsent_ofExcept_bind, messageKinds, messageKind]
    cases hcompile : QqPlatform.compileMessage context isFirst message with
    | error err => simp [Except.mapError, CleanFrom, invalidPlan, deliveryError]
    | ok encoded =>
      have hrest : ∀ r sent', sent' ≠ [] →
          (Unsent (self.sendMessages context false r messages) sent' ↔
            CleanFrom True (messageKinds context false messages)) := by
        intro r sent' hne
        rw [ih, eq_true hne]
      simp only [Except.mapError, reduceCtorEq, false_imp_iff, implies_true, true_and,
        Except.ok.injEq, forall_eq', unsent_sendEncodedMessage_bind hrest]
      cases messageRequest context.conversationId encoded <;> simp [CleanFrom]

/-- A reaction is rejected, stops the delivery or is sent. -/
theorem unsent_sendReactionAdd_bind {action : ReactionAction} {f : Unit → DeliveryM α}
    {kinds : List ItemKind} (hf : ∀ sent', Unsent (f ()) sent' ↔ CleanFrom (sent' ≠ []) kinds) :
    Unsent (self.sendReactionAdd action >>= f) sent ↔
      CleanFrom (sent ≠ []) (actionKind (.reactionAdd action) :: kinds) := by
  rw [QqPlatform.sendReactionAdd, Program.bind_assoc, unsent_ofExcept_bind, reactionRequest,
    actionKind]
  cases htarget : normalizeQqTargetId action.targetMessageId with
  | error err => simp [Except.mapError, CleanFrom, invalidPlan, deliveryError, bind, Except.bind]
  | ok target =>
    cases hid : Text.parseI64 target with
    | none =>
      simp [Except.mapError, CleanFrom, internalError, deliveryError, bind, Except.bind, throw,
        throwThe, MonadExceptOf.throw, hid]
    | some messageId =>
      simp only [Except.mapError, bind, Except.bind, pure, Except.pure, reduceCtorEq,
        false_imp_iff, implies_true, true_and, Except.ok.injEq, forall_eq', Option.isSome_some,
        if_true, CleanFrom, hid]
      change Unsent ((post _ >>= fun response =>
        Program.ofExcept (readReactionResponse response)) >>= f) sent ↔ _
      rw [Program.bind_assoc]
      apply unsent_post_bind notRejection_readReactionResponse ⟨successAnswer, (), rfl⟩
      rintro ⟨⟩
      rw [hf, eq_true (by simp : sent ++ _ ≠ [])]

theorem unsent_sendActions_bind {actions : List OutboundAction} {f : Unit → DeliveryM α}
    {kinds : List ItemKind} (hf : ∀ sent', Unsent (f ()) sent' ↔ CleanFrom (sent' ≠ []) kinds) :
    Unsent (self.sendActions actions >>= f) sent ↔
      CleanFrom (sent ≠ []) (actions.map actionKind ++ kinds) := by
  induction actions generalizing sent with
  | nil => exact hf sent
  | cons action actions ih =>
    cases action with
    | reactionRemove action => exact ih
    | reactionAdd action =>
      rw [QqPlatform.sendActions, Program.bind_assoc]
      exact unsent_sendReactionAdd_bind fun sent' => ih

/-- A plan is rejected before the first request exactly if it is not dispatched or no item of it is
rejected behind one that was sent. -/
theorem rejectedUnsent_sendPlan_iff {plan : OutboundPlan} :
    RejectedUnsent (self.sendPlan context plan) ↔
      dispatchPlan plan ≠ .ok () ∨ NoneRejectedAfterSent (itemKinds context plan) := by
  rw [rejectedUnsent_iff, QqPlatform.sendPlan, unsent_ofExcept_bind, noneRejectedAfterSent_iff]
  cases hdispatch : dispatchPlan plan with
  | error err => simp [Except.mapError]
  | ok =>
    have hplan : Unsent (self.sendActions plan.actions >>= fun _ => self.sendMessages context true
        { status := "ok", messageId := none } plan.messages) [] ↔
        CleanFrom False (itemKinds context plan) := by
      rw [unsent_sendActions_bind fun sent' => unsent_sendMessages]
      simp [itemKinds]
    simp [Except.mapError, hplan]

end DogBot.Qq

namespace DogBot.WeChatPadPro

variable {sent : List ApiRequest} {context : DeliveryContext} {isFirst : Bool}
  {messages : List OutboundMessage} {self : WeChatPadProPlatform} {debug : DebugFormat}
  {accountKey : String} {α : Type}

/-- What becomes of a message: it must be compiled. -/
def messageKind (debug : DebugFormat) (context : DeliveryContext) (isFirst : Bool)
    (message : OutboundMessage) : ItemKind :=
  match compileOutboundRequests debug message context isFirst with
  | .error _ => .rejected
  | .ok _ => .sent

def messageKinds (debug : DebugFormat) (context : DeliveryContext) (isFirst : Bool) :
    List OutboundMessage → List ItemKind
  | [] => []
  | message :: messages =>
    messageKind debug context isFirst message :: messageKinds debug context false messages

theorem notRejection_readWechatResponse (operation : String) (response : ApiResponse) :
    NotRejection (readWechatResponse operation response) := by
  apply (response.notRejection_read _ _).bind
  intro answer
  dsimp only
  split_ifs
  · exact notRejection_ok
  · exact notRejection_deliveryError (by decide) _

theorem compileOutboundRequests_ne_nil {message : OutboundMessage}
    {requests : List OutboundRequest}
    (h : compileOutboundRequests debug message context isFirst = .ok requests) : requests ≠ [] := by
  simp only [compileOutboundRequests, bind, Except.bind] at h
  split at h
  · cases h
  · split at h
    · cases h
    · split at h
      · cases h
      · rename_i hne
        obtain rfl := Except.ok.inj h
        exact hne

theorem unsent_sendRequests_bind {requests : List OutboundRequest} {lastResponse : MessageResponse}
    {f : MessageResponse → DeliveryM α} {p : Prop}
    (hf : ∀ r sent', sent' ≠ [] → (Unsent (f r) sent' ↔ p)) (hne : sent ≠ [] ∨ requests ≠ []) :
    Unsent (self.sendRequests accountKey lastResponse requests >>= f) sent ↔ p := by
  induction requests generalizing sent lastResponse with
  | nil => exact hf _ _ (hne.resolve_right (by simp))
  | cons request requests ih =>
    rw [WeChatPadProPlatform.sendRequests, Program.bind_assoc, WeChatPadProPlatform.sendRequest,
      Program.bind_assoc]
    apply unsent_post_bind (notRejection_readWechatResponse _)
    · exact ⟨successAnswer, _, rfl⟩
    · exact fun r => ih (.inl (by simp))

theorem unsent_sendMessages {lastResponse : MessageResponse} :
    Unsent (self.sendMessages debug context accountKey isFirst lastResponse messages) sent ↔
      CleanFrom (sent ≠ []) (messageKinds debug context isFirst messages) := by
  induction messages generalizing sent isFirst lastResponse with
  | nil => simp [WeChatPadProPlatform.sendMessages, Unsent, messageKinds, CleanFrom]
  | cons message messages ih =>
    rw [WeChatPadProPlatform.sendMessages, unsent_ofExcept_bind, messageKinds, messageKind]
    cases hcompile : compileOutboundRequests debug message context isFirst with
    | error err => simp [Except.mapError, CleanFrom, invalidPlan, deliveryError]
    | ok requests =>
      have hrest : ∀ r sent', sent' ≠ [] →
          (Unsent (self.sendMessages debug context accountKey false r messages) sent' ↔
            CleanFrom True (messageKinds debug context false messages)) := by
        intro r sent' hne
        rw [ih, eq_true hne]
      simp only [Except.mapError, reduceCtorEq, false_imp_iff, implies_true, true_and,
        Except.ok.injEq, forall_eq', CleanFrom]
      exact unsent_sendRequests_bind hrest (.inr (compileOutboundRequests_ne_nil hcompile))

/-- Without an account key nothing is sent. -/
theorem rejectedUnsent_sendPlan_iff {plan : OutboundPlan} :
    RejectedUnsent (self.sendPlan debug context plan) ↔
      dispatchPlan plan ≠ .ok () ∨ self.accountKey = none ∨
        NoneRejectedAfterSent (messageKinds debug context true plan.messages) := by
  rw [rejectedUnsent_iff, WeChatPadProPlatform.sendPlan, unsent_ofExcept_bind,
    noneRejectedAfterSent_iff]
  cases hdispatch : dispatchPlan plan with
  | error err => simp [Except.mapError]
  | ok =>
    cases hkey : self.accountKey with
    | none => simp [Except.mapError, Unsent]
    | some accountKey => simp [Except.mapError, unsent_sendMessages]

end DogBot.WeChatPadPro

namespace DogBot

/-- For both adapters, a plan that is rejected was not delivered in part exactly if the check of its
assets fails, or no item is rejected behind one that was sent. -/
theorem delivery_validated_iff (debug : WeChatPadPro.DebugFormat) (context : DeliveryContext)
    (plan : OutboundPlan) :
    (∀ self : Qq.QqPlatform, RejectedUnsent (self.sendPlan context plan) ↔
      dispatchPlan plan ≠ .ok () ∨ NoneRejectedAfterSent (Qq.itemKinds context plan)) ∧
    ∀ self : WeChatPadPro.WeChatPadProPlatform,
      RejectedUnsent (self.sendPlan debug context plan) ↔
        dispatchPlan plan ≠ .ok () ∨ self.accountKey = none ∨
          NoneRejectedAfterSent (WeChatPadPro.messageKinds debug context true plan.messages) :=
  ⟨fun _ => Qq.rejectedUnsent_sendPlan_iff, fun _ => WeChatPadPro.rejectedUnsent_sendPlan_iff⟩

/-- A text, and an image that answers something that is not a message id. -/
def halfSentPlan : OutboundPlan where
  messages := [
    { parts := [.text "done"], replyTo := none, suppressDefaultReply := false
      deliveryPolicy := none },
    { parts := [.text "a picture"], replyTo := some "last", suppressDefaultReply := false
      deliveryPolicy := none }]
  actions := []
  deliveryReportPolicy := none

/-- The run of a delivery whose requests all succeed. -/
def runSuccessful {α : Type} (delivery : DeliveryM α) : Except ErrorResponse α × List ApiRequest :=
  delivery.eval (fun sent request => (successAnswer, sent ++ [request])) []

theorem runs_runSuccessful {α : Type} (delivery : DeliveryM α) :
    Program.Runs Sends delivery [] (runSuccessful delivery).1 (runSuccessful delivery).2 :=
  Program.runs_eval (fun _ _ => rfl) delivery []

theorem runSuccessful_call_ne_nil {α : Type} {request : ApiRequest}
    {next : ApiResponse → DeliveryM α} : (runSuccessful (.call request next)).2 ≠ [] := by
  have hruns : Program.Runs Sends (next successAnswer) [request]
      ((next successAnswer).eval (fun sent request => (successAnswer, sent ++ [request]))
        [request]).1 (runSuccessful (.call request next)).2 :=
    Program.runs_eval (fun _ _ => rfl) _ _
  have hmem : request ∈ (runSuccessful (.call request next)).2 :=
    (prefix_of_runs hruns).subset (List.mem_singleton_self _)
  exact List.ne_nil_of_mem hmem

def privateContext : DeliveryContext where
  platform := "qq"
  platformAccount := "qq:bot_uin:9"
  conversationId := "qq:private:7"
  targetActorId := none
  targetDisplayName := none
  replyToMessageId := none
  nativeEvent := none

/-- The text is sent, and then the plan is rejected. -/
theorem plan_rejected_half_sent : ¬ ∀ (self : Qq.QqPlatform) (context : DeliveryContext)
    (plan : OutboundPlan), RejectedUnsent (self.sendPlan context plan) := by
  intro h
  let delivery :=
    Qq.QqPlatform.sendPlan ⟨"http://napcat", "qq:bot_uin:9"⟩ privateContext halfSentPlan
  have hruns := runs_runSuccessful delivery
  have herror : (runSuccessful delivery).1 =
      .error (invalidPlan "invalid QQ target id: last") := by
    decide +kernel
  rw [herror] at hruns
  have hsent := h _ _ _ _ _ hruns rfl
  exact absurd (congrArg List.length hsent) (by decide +kernel)

end DogBot
