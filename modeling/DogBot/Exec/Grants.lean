import DogBot.Models

/-! # History read grants

A run may read the history of its own conversation. A private run of an
administrator may read the history of every configured account.
-/

namespace DogBot

/-- The settings that the modelled functions read. -/
structure Settings where
  platformQqAccountId : Option String
  platformWechatpadproAccountId : Option String
  historyRunTokenTtlSecs : ℤ
  adminActorIds : List String

structure HistoryReadGrant where
  platformAccount : String
  conversationId : Option String
  actorId : String
  isAdmin : Bool
  ttlSecs : ℤ
  deriving DecidableEq, Repr

def isAdminPrivateHistoryRequest (settings : Settings) (request : RunRequest) : Bool :=
  request.chatType = "private" && request.userId ∈ settings.adminActorIds

def pushUniqueTrimmed (values : List String) (value : String) : List String :=
  if Text.trim value = "" ∨ Text.trim value ∈ values then values else values ++ [Text.trim value]

def adminHistoryPlatformAccounts (settings : Settings) (request : RunRequest) : List String :=
  (settings.platformQqAccountId.toList ++ settings.platformWechatpadproAccountId.toList).foldl
    pushUniqueTrimmed (pushUniqueTrimmed [] request.platformAccountId)

def historyReadGrantsForRequest (settings : Settings) (request : RunRequest) :
    List HistoryReadGrant :=
  if isAdminPrivateHistoryRequest settings request then
    (adminHistoryPlatformAccounts settings request).map fun platformAccount =>
      { platformAccount, conversationId := none, actorId := request.userId, isAdmin := true
        ttlSecs := settings.historyRunTokenTtlSecs }
  else
    [{ platformAccount := request.platformAccountId
       conversationId := some request.conversationId
       actorId := request.userId
       isAdmin := false
       ttlSecs := settings.historyRunTokenTtlSecs }]

end DogBot
