import DogBot.Library.Json

/-! # The API proxy

A request to the proxy is forwarded to the upstream provider. The path of the
request is appended to that of the provider's base URL, unless it starts with
it, and the body of a request to the messages endpoint is rewritten. How a URL
is parsed and how JSON is read are parameters.
-/

namespace DogBot.Proxy

open Json

structure ProviderConfig where
  baseUrl : String
  upstreamToken : String
  upstreamAuthHeader : String
  upstreamAuthScheme : Option String
  model : Option String

structure ApiProxySettings where
  bindAddr : String
  localAuthToken : String
  upstream : ProviderConfig

abbrev HeaderValue := List UInt8

/-- Headers in the order of their arrival; names are in lower case and may repeat. -/
abbrev HeaderMap := List (String × HeaderValue)

def HeaderValue.isVisibleAscii (byte : UInt8) : Bool := byte = 9 || (32 ≤ byte && byte < 127)

/-- The text of a header value, if all its bytes are visible characters. -/
def HeaderValue.toStr (value : HeaderValue) : Option String :=
  if value.all isVisibleAscii then
    some (String.ofList (value.map fun byte => Char.ofNat byte.toNat))
  else none

def HeaderMap.get (headers : HeaderMap) (name : String) : Option HeaderValue := headers.lookup name

/-- The path and the query of a request, as they were sent. A request that names the authority of
its target may have no path, also in front of a query. -/
structure Uri where
  data : String
  start : ∀ c ∈ data.toList.head?, c = '/' ∨ c = '?'

/-- The text in front of the first question mark. -/
def beforeQuery (value : String) : String := String.ofList (value.toList.takeWhile (· ≠ '?'))

def Uri.path (uri : Uri) : String :=
  if beforeQuery uri.data = "" then "/" else beforeQuery uri.data

def Uri.pathAndQuery (uri : Uri) : String := if uri.data = "" then "/" else uri.data

/-- A parsed URL: its path, and its text without path, query and fragment. -/
structure ParsedUrl where
  path : String
  cleared : String
  noQuery : '?' ∉ path.toList

def extractInboundToken (headers : HeaderMap) : Option String :=
  match (headers.get "x-api-key").bind HeaderValue.toStr with
  | some value => some value
  | none => do
    let authorization ← (← headers.get "authorization").toStr
    return (Text.stripPrefix "Bearer " authorization).getD authorization

def isAuthorized (headers : HeaderMap) (expectedToken : String) : Bool :=
  match extractInboundToken headers with
  | some token => token = expectedToken
  | none => false

def isJson (headers : HeaderMap) : Bool :=
  match (headers.get "content-type").bind HeaderValue.toStr with
  | some value => Text.startsWith "application/json" value
  | none => false

/-- Set a member of an object, whose members are sorted by their keys. -/
def insertMember (key : String) (value : Value) : List (String × Value) → List (String × Value)
  | [] => [(key, value)]
  | (k, v) :: members =>
    if k = key then (key, value) :: members
    else if key < k then (key, value) :: (k, v) :: members
    else (k, v) :: insertMember key value members

def stripToolType (tool : Value) : Value :=
  match tool with
  | .object members =>
    if (tool.get "type").bind Value.asStr = some "custom" then
      .object (members.filter fun m => m.1 ≠ "type")
    else tool
  | _ => tool

def stripAnthropicCustomToolTypes (members : List (String × Value)) : List (String × Value) :=
  members.map fun (key, value) =>
    match value with
    | .array tools => if key = "tools" then (key, .array (tools.map stripToolType)) else (key, value)
    | _ => (key, value)

def trimTrailingSlashes (value : String) : String :=
  String.ofList (value.toList.rdropWhile (· == '/'))

section Forward

variable (parseUrl : String → Option ParsedUrl) (fromSlice : ByteArray → Option Value)

/-- The body that is forwarded, or the text of an error. -/
def rewriteBodyIfNeeded (provider : ProviderConfig) (path : String) (headers : HeaderMap)
    (body : ByteArray) : Except String ByteArray :=
  if path ≠ "/v1/messages" ∨ ¬ isJson headers then .ok body
  else match provider.model with
    | none => .ok body
    | some model =>
      match fromSlice body with
      | none => .error "invalid JSON request body"
      | some (.object members) =>
        .ok (Value.object (stripAnthropicCustomToolTypes
          (insertMember "model" (.string model) members))).print.toUTF8
      | some payload => .ok payload.print.toUTF8

def joinUpstreamUrl (baseUrl requestPathAndQuery : String) : String :=
  match parseUrl baseUrl with
  | none => trimTrailingSlashes baseUrl ++ requestPathAndQuery
  | some parsedBaseUrl =>
    let basePath := trimTrailingSlashes parsedBaseUrl.path
    let requestPath := beforeQuery requestPathAndQuery
    let origin := trimTrailingSlashes parsedBaseUrl.cleared
    let pre := if basePath ≠ "" ∧ basePath ≠ "/" ∧ Text.startsWith basePath requestPath then ""
      else basePath
    origin ++ pre ++ requestPathAndQuery

/-- What a request becomes before it is sent: the URL and the body of the upstream request, or the
status and the text of a refusal. -/
def forwardRequest (settings : ApiProxySettings) (uri : Uri) (headers : HeaderMap)
    (body : ByteArray) : Except (ℕ × String) (String × ByteArray) := do
  if ¬ isAuthorized headers settings.localAuthToken then throw (401, "unauthorized")
  let url := joinUpstreamUrl parseUrl settings.upstream.baseUrl uri.pathAndQuery
  let forwardedBody ← (rewriteBodyIfNeeded fromSlice settings.upstream uri.path headers
    body).mapError fun message => (400, message)
  return (url, forwardedBody)

end Forward

end DogBot.Proxy
