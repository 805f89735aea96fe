import DogBot.Protocol

/-! # Platform adapters

The readings of payload values that all adapters share, and the delivery
context under which a plan answers an event.
-/

namespace DogBot

def stringValue : Json.Value → Option String
  | .string value => some value
  | .number value => some value.print
  | _ => none

def integerValue : Json.Value → Option ℤ
  | .number value => value.asI64
  | .string value => Text.parseI64 (Text.trim value)
  | _ => none

def normalizeActorId (value pre : String) : String :=
  if Text.startsWith pre value then value else pre ++ value

structure DeliveryContext where
  platform : String
  platformAccount : String
  conversationId : String
  targetActorId : Option String
  targetDisplayName : Option String
  replyToMessageId : Option String
  nativeEvent : Option Json.Value

/-- The second of the colon-separated parts of a conversation. -/
def conversationScope (conversation : String) : Option String := (Text.split ':' conversation)[1]?

theorem conversationScope_append {platform scope : String} (rest : String)
    (hplatform : ':' ∉ platform.toList) (hscope : ':' ∉ scope.toList) :
    conversationScope (platform ++ ":" ++ scope ++ ":" ++ rest) = some scope := by
  have hlist : (platform ++ ":" ++ scope ++ ":" ++ rest).toList =
      platform.toList ++ ':' :: (scope.toList ++ ':' :: rest.toList) := by
    simp
  rw [conversationScope, Text.split, hlist, List.splitOn_append_cons_self_of_not_mem hplatform,
    List.splitOn_append_cons_self_of_not_mem hscope]
  simp

def deliveryContextFromEvent (event : CanonicalEvent) : DeliveryContext where
  platform := event.platform
  platformAccount := event.platformAccount
  conversationId := event.conversation
  targetActorId :=
    if conversationScope event.conversation = some "group" then some event.actor else none
  targetDisplayName := none
  replyToMessageId := event.message.map CanonicalMessage.messageId
  nativeEvent := some event.rawNativePayload

end DogBot
