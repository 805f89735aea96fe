import DogBot.Library.Program
import DogBot.Models

/-! # Requests to a platform API

The adapters deliver by HTTP requests. What the API answers is not known; it may
be out of reach, answer without JSON, or answer with any status and body. The
state of a delivery is the list of the requests that were sent.
-/

namespace DogBot

structure ApiRequest where
  url : String
  query : List (String × String)
  payload : Json.Value

/-- A status code with the text it is printed as. -/
structure StatusCode where
  code : ℕ
  text : String

def StatusCode.isSuccess (status : StatusCode) : Bool := 200 ≤ status.code && status.code < 300

inductive ApiResponse
  | unreachable (err : String)
  | invalidJson (err : String)
  | json (status : StatusCode) (body : Json.Value)

def deliveryError (errorCode message : String) : ErrorResponse where
  status := "error"
  errorCode := errorCode
  message := message
  timedOut := false

def invalidPlan (message : String) : ErrorResponse :=
  deliveryError "delivery_invalid_plan" message

/-- The status and the body of a response, or an error that begins with one of two texts. -/
def ApiResponse.read (unreachableText invalidText : String) :
    ApiResponse → Except ErrorResponse (StatusCode × Json.Value)
  | unreachable err => .error (deliveryError "delivery_unavailable" (unreachableText ++ err))
  | invalidJson err => .error (deliveryError "delivery_invalid_response" (invalidText ++ err))
  | json status body => .ok (status, body)

abbrev DeliveryM (α : Type) := Program ApiRequest (fun _ => ApiResponse) ErrorResponse α

def post (request : ApiRequest) : DeliveryM ApiResponse := .call request .ret

/-- A request is recorded, whatever is answered. -/
def Sends (sent : List ApiRequest) (request : ApiRequest) (_ : ApiResponse)
    (sent' : List ApiRequest) : Prop :=
  sent' = sent ++ [request]

variable {α : Type} {delivery : DeliveryM α} {sent sent' : List ApiRequest}
  {o : Except ErrorResponse α}

theorem requests_of_runs {A : ApiRequest → Prop} (h : delivery.Only A)
    (hruns : Program.Runs Sends delivery sent o sent') :
    ∀ request ∈ sent', request ∈ sent ∨ A request := by
  induction hruns with
  | ret a sent => exact fun request hr => .inl hr
  | fail e sent => exact fun request hr => .inl hr
  | call hsends _ ih =>
    intro request hr
    obtain hr | hr := ih (h.2 _) request hr
    · rw [hsends, List.mem_append, List.mem_singleton] at hr
      obtain hr | rfl := hr
      · exact .inl hr
      · exact .inr h.1
    · exact .inr hr

theorem prefix_of_runs (hruns : Program.Runs Sends delivery sent o sent') : sent <+: sent' := by
  induction hruns with
  | ret a sent => exact List.prefix_rfl
  | fail e sent => exact List.prefix_rfl
  | call hsends _ ih =>
    rw [hsends] at ih
    exact (List.prefix_append _ _).trans ih

end DogBot
