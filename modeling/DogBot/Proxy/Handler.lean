import DogBot.Library.Calls
import DogBot.Proxy.Headers
import DogBot.Proxy.Payload
import DogBot.Proxy.Targets

/-! # The handler of the proxy

The proxy answers every request itself or by the answer of the upstream provider
to one request of its own. What that request is does not depend on the local
credentials: they decide only whether there is one.
-/

namespace DogBot.Proxy

open Json

open Program (Always Calls ofExcept)

structure Parsers where
  parseUrl : String → Option ParsedUrl
  fromSlice : ByteArray → Option Value
  fromBytes : String → Option String
  fromStr : String → Option HeaderValue

structure InboundRequest where
  method : String
  uri : Uri
  headers : HeaderMap
  body : ByteArray

structure UpstreamRequest where
  method : String
  url : String
  headers : HeaderMap
  body : ByteArray

/-- What is known of an upstream response before its body is read. -/
structure UpstreamHead where
  status : ℕ
  headers : HeaderMap

structure ProxyResponse where
  status : ℕ
  contentType : Option HeaderValue
  body : ByteArray

def textResponse (status : ℕ) (text : String) : ProxyResponse where
  status := status
  contentType := some "text/plain; charset=utf-8".toUTF8.data.toList
  body := text.toUTF8

inductive UpstreamOp
  | send (request : UpstreamRequest)
  | bytes

abbrev UpstreamOp.Result : UpstreamOp → Type
  | send _ => Except String UpstreamHead
  | bytes => Except String ByteArray

structure Panic where
  message : String

section Handler

variable (parsers : Parsers) (settings : ApiProxySettings) (request : InboundRequest)

/-- Send the request of the proxy and pass the answer on. -/
def passOn (upstream : UpstreamRequest) :
    Program UpstreamOp UpstreamOp.Result Panic ProxyResponse := do
  match ← .call (.send upstream) .ret with
  | .error error => .ret (textResponse 502 ("upstream request failed: " ++ error))
  | .ok head =>
    match ← .call .bytes .ret with
    | .error error => .ret (textResponse 502 ("upstream response read failed: " ++ error))
    | .ok bytes => .ret ⟨head.status, head.headers.get "content-type", bytes⟩

def proxyRequest : Program UpstreamOp UpstreamOp.Result Panic ProxyResponse :=
  match forwardRequest parsers.parseUrl parsers.fromSlice settings request.uri request.headers
    request.body with
  | .error (status, message) => .ret (textResponse status message)
  | .ok (url, forwardedBody) =>
    match buildUpstreamHeaders parsers.fromBytes parsers.fromStr settings.upstream
      request.headers with
    | none => .fail ⟨"valid upstream auth header"⟩
    | some upstreamHeaders => passOn ⟨request.method, url, upstreamHeaders, forwardedBody⟩

end Handler

abbrev UpstreamCall := Σ op : UpstreamOp, op.Result

/-- The body that is forwarded for a request: its own one, or the text of a payload that means the
same but for the model and the types of custom tools. Forwarding that text again changes nothing,
if it is read as what it was printed from. -/
inductive ForwardedBody (parsers : Parsers) (provider : ProviderConfig) (request : InboundRequest) :
    ByteArray → Prop
  | kept (h : request.uri.path ≠ "/v1/messages" ∨ ¬ isJson request.headers ∨
      provider.model = none) : ForwardedBody parsers provider request request.body
  | rewritten {model : String} {payload payload' : Value}
      (hendpoint : request.uri.path = "/v1/messages" ∧ isJson request.headers)
      (hmodel : provider.model = some model)
      (hread : parsers.fromSlice request.body = some payload)
      (hmeaning : RewrittenPayload model payload payload')
      (hagain : parsers.fromSlice payload'.print.toUTF8 = some payload' →
        rewriteBodyIfNeeded parsers.fromSlice provider request.uri.path request.headers
          payload'.print.toUTF8 = .ok payload'.print.toUTF8) :
      ForwardedBody parsers provider request payload'.print.toUTF8

/-- The upstream request of a request: it is sent only for an authorized one, and all credentials
in it are those of the provider. -/
structure Forwards (parsers : Parsers) (settings : ApiProxySettings) (request : InboundRequest)
    (upstream : UpstreamRequest) : Prop where
  authorized : isAuthorized request.headers settings.localAuthToken
  method : upstream.method = request.method
  url : upstream.url =
    joinUpstreamUrl parsers.parseUrl settings.upstream.baseUrl request.uri.pathAndQuery
  credentials : ∀ name, isCredential name → ∀ value ∈ Multimap.values upstream.headers name,
    parsers.fromStr (upstreamAuthValue settings.upstream) = some value
  body : ForwardedBody parsers settings.upstream request upstream.body

/-- The response to a request and the calls before it. -/
inductive Answered (parsers : Parsers) (settings : ApiProxySettings) (request : InboundRequest) :
    List UpstreamCall → ProxyResponse → Prop
  | unauthorized (h : ¬ isAuthorized request.headers settings.localAuthToken) :
      Answered parsers settings request [] (textResponse 401 "unauthorized")
  | malformed (h : isAuthorized request.headers settings.localAuthToken)
      (hread : parsers.fromSlice request.body = none) :
      Answered parsers settings request [] (textResponse 400 "invalid JSON request body")
  | unreachable {upstream : UpstreamRequest} {error : String} :
      Answered parsers settings request [⟨.send upstream, .error error⟩]
        (textResponse 502 ("upstream request failed: " ++ error))
  | unreadable {upstream : UpstreamRequest} {head : UpstreamHead} {error : String} :
      Answered parsers settings request [⟨.send upstream, .ok head⟩, ⟨.bytes, .error error⟩]
        (textResponse 502 ("upstream response read failed: " ++ error))
  | passed {upstream : UpstreamRequest} {head : UpstreamHead} {bytes : ByteArray} :
      Answered parsers settings request [⟨.send upstream, .ok head⟩, ⟨.bytes, .ok bytes⟩]
        ⟨head.status, head.headers.get "content-type", bytes⟩

/-- Requests that differ in their credentials only, to proxies of the same provider. -/
structure SameOutside (settings settings' : ApiProxySettings) (request request' : InboundRequest) :
    Prop where
  upstream : settings'.upstream = settings.upstream
  method : request'.method = request.method
  uri : request'.uri = request.uri
  body : request'.body = request.body
  headers : request'.headers.filter (fun h => ¬ isCredential h.1) =
    request.headers.filter (fun h => ¬ isCredential h.1)

structure Proxied (parsers : Parsers) (settings : ApiProxySettings) (request : InboundRequest)
    (calls : List UpstreamCall) (o : Except Panic ProxyResponse) : Prop where
  answered : ∀ response, o = .ok response → Answered parsers settings request calls response
  panics : ∀ panic, o = .error panic → calls = [] ∧
    parsers.fromStr (upstreamAuthValue settings.upstream) = none
  forwards : ∀ upstream answer, (⟨.send upstream, answer⟩ : UpstreamCall) ∈ calls →
    Forwards parsers settings request upstream
  oblivious : ∀ settings' request', SameOutside settings settings' request request' →
    isAuthorized request.headers settings.localAuthToken →
    isAuthorized request'.headers settings'.localAuthToken →
    Calls (proxyRequest parsers settings' request') calls (ofExcept o)

section Forwarding

variable {parsers : Parsers} {settings settings' : ApiProxySettings} {provider : ProviderConfig}
  {request request' : InboundRequest} {headers : HeaderMap}

theorem rewriteBodyIfNeeded_cases (parsers : Parsers) (provider : ProviderConfig)
    (request : InboundRequest) :
    (∃ body, rewriteBodyIfNeeded parsers.fromSlice provider request.uri.path request.headers
      request.body = .ok body ∧ ForwardedBody parsers provider request body) ∨
    rewriteBodyIfNeeded parsers.fromSlice provider request.uri.path request.headers
      request.body = .error "invalid JSON request body" ∧
        parsers.fromSlice request.body = none := by
  by_cases hendpoint : request.uri.path = "/v1/messages" ∧ isJson request.headers
  · have hneeded : ¬ (request.uri.path ≠ "/v1/messages" ∨ ¬ isJson request.headers) := by tauto
    cases hmodel : provider.model with
    | none =>
      refine .inl ⟨request.body, ?_, .kept (.inr (.inr hmodel))⟩
      rw [rewriteBodyIfNeeded, if_neg hneeded, hmodel]
    | some model =>
      have hrewrite : ∀ {body payload}, parsers.fromSlice body = some payload →
          rewriteBodyIfNeeded parsers.fromSlice provider request.uri.path request.headers body =
            .ok (rewritePayload model payload).print.toUTF8 := by
        intro body payload hread
        rw [rewriteBodyIfNeeded, if_neg hneeded, hmodel]
        dsimp only
        rw [hread]
        cases payload <;> rfl
      cases hread : parsers.fromSlice request.body with
      | none =>
        refine .inr ⟨?_, rfl⟩
        rw [rewriteBodyIfNeeded, if_neg hneeded, hmodel]
        dsimp only
        rw [hread]
      | some payload =>
        refine .inl ⟨_, hrewrite hread, .rewritten hendpoint hmodel hread
          (rewrittenPayload model payload) fun hprint => ?_⟩
        rw [hrewrite hprint, rewritePayload_rewritePayload]
  · have hkept : request.uri.path ≠ "/v1/messages" ∨ ¬ isJson request.headers := by tauto
    refine .inl ⟨request.body, ?_, .kept (hkept.imp_right .inl)⟩
    rw [rewriteBodyIfNeeded, if_pos hkept]

theorem credentials_buildUpstreamHeaders {inbound : HeaderMap}
    (h : buildUpstreamHeaders parsers.fromBytes parsers.fromStr provider inbound = some headers)
    {name : String} (hname : isCredential name) {value : HeaderValue}
    (hvalue : value ∈ Multimap.values headers name) :
    parsers.fromStr (upstreamAuthValue provider) = some value := by
  rw [buildUpstreamHeaders, foldl_skip] at h
  obtain ⟨authValue, hauth, hheaders⟩ := Option.bind_eq_some_iff.mp h
  obtain rfl := Option.some.inj hheaders
  have hnone : Multimap.values (forwarded inbound) name = [] := by
    rw [values_forwarded, if_pos (mem_proxyHeaders_of_isCredential hname)]
  rw [Multimap.values_insert, Multimap.values_insertAll, hnone] at hvalue
  split_ifs at hvalue
  · rw [hauth, List.mem_singleton.mp hvalue]
  · cases hvalue

theorem isJson_filter (inbound : HeaderMap) :
    isJson (inbound.filter fun h => ¬ isCredential h.1) = isJson inbound := by
  have hlookup := @Multimap.lookup_filter _ _ _ inbound (fun name => decide (¬ isCredential name))
    "content-type"
  rw [if_pos (by decide)] at hlookup
  rw [isJson, isJson, HeaderMap.get, HeaderMap.get, hlookup]

theorem buildUpstreamHeaders_filter (inbound : HeaderMap) :
    buildUpstreamHeaders parsers.fromBytes parsers.fromStr provider
        (inbound.filter fun h => ¬ isCredential h.1) =
      buildUpstreamHeaders parsers.fromBytes parsers.fromStr provider inbound := by
  rw [buildUpstreamHeaders, foldl_skip, forwarded_filter, buildUpstreamHeaders, foldl_skip]

/-- Beyond the authorization, the credentials of a request do not matter. -/
theorem proxyRequest_eq (h : SameOutside settings settings' request request')
    (hauth : isAuthorized request.headers settings.localAuthToken)
    (hauth' : isAuthorized request'.headers settings'.localAuthToken) :
    proxyRequest parsers settings' request' = proxyRequest parsers settings request := by
  have hjson : isJson request'.headers = isJson request.headers := by
    rw [← isJson_filter, h.headers, isJson_filter]
  have hforward : forwardRequest parsers.parseUrl parsers.fromSlice settings' request'.uri
        request'.headers request'.body =
      forwardRequest parsers.parseUrl parsers.fromSlice settings request.uri request.headers
        request.body := by
    rw [forwardRequest, forwardRequest, if_neg (not_not_intro hauth),
      if_neg (not_not_intro hauth'), h.upstream, h.uri, h.body]
    simp only [rewriteBodyIfNeeded, hjson]
  have hheaders : buildUpstreamHeaders parsers.fromBytes parsers.fromStr settings'.upstream
        request'.headers =
      buildUpstreamHeaders parsers.fromBytes parsers.fromStr settings.upstream request.headers := by
    rw [h.upstream, ← buildUpstreamHeaders_filter, h.headers, buildUpstreamHeaders_filter]
  rw [proxyRequest, proxyRequest, hforward, hheaders, h.method]

theorem answered_passOn {upstream : UpstreamRequest} {calls : List UpstreamCall}
    {o : Except Panic ProxyResponse} (h : Calls (passOn upstream) calls (ofExcept o)) :
    (∃ response, o = .ok response ∧ Answered parsers settings request calls response) ∧
      ∀ upstream' answer, (⟨.send upstream', answer⟩ : UpstreamCall) ∈ calls →
        upstream' = upstream := by
  obtain ⟨answer, calls, rfl, hsent⟩ := h.of_call
  cases answer with
  | error error =>
    obtain ⟨rfl, rfl⟩ := hsent.of_ret
    exact ⟨⟨_, rfl, .unreachable⟩, by simp⟩
  | ok head =>
    obtain ⟨answer, calls, rfl, hread⟩ := hsent.of_call
    cases answer with
    | error error =>
      obtain ⟨rfl, rfl⟩ := hread.of_ret
      exact ⟨⟨_, rfl, .unreadable⟩, by simp⟩
    | ok bytes =>
      obtain ⟨rfl, rfl⟩ := hread.of_ret
      exact ⟨⟨_, rfl, .passed⟩, by simp⟩

theorem fromStr_of_buildUpstreamHeaders {inbound : HeaderMap}
    (h : buildUpstreamHeaders parsers.fromBytes parsers.fromStr provider inbound = none) :
    parsers.fromStr (upstreamAuthValue provider) = none := by
  rw [buildUpstreamHeaders] at h
  cases hvalue : parsers.fromStr (upstreamAuthValue provider) with
  | none => rfl
  | some value =>
    rw [hvalue] at h
    cases h

theorem forwardRequest_unauthorized
    (h : ¬ isAuthorized request.headers settings.localAuthToken) :
    forwardRequest parsers.parseUrl parsers.fromSlice settings request.uri request.headers
      request.body = .error (401, "unauthorized") := by
  rw [forwardRequest, if_pos h]
  rfl

/-- Whatever the provider answers: a request is answered by the proxy, or by the provider after one
request that is sent for an authorized one only, means the same and has the credentials of the
provider; and for any other credentials that are authorized the same happens. -/
theorem requests_are_proxied {calls : List UpstreamCall} {o : Except Panic ProxyResponse}
    (h : Calls (proxyRequest parsers settings request) calls (ofExcept o)) :
    Proxied parsers settings request calls o := by
  have hoblivious : ∀ settings' request', SameOutside settings settings' request request' →
      isAuthorized request.headers settings.localAuthToken →
      isAuthorized request'.headers settings'.localAuthToken →
      Calls (proxyRequest parsers settings' request') calls (ofExcept o) := by
    intro settings' request' hsame hauth hauth'
    rwa [proxyRequest_eq hsame hauth hauth']
  rw [proxyRequest] at h
  by_cases hauth : isAuthorized request.headers settings.localAuthToken
  · rw [forwardRequest_eq hauth] at h
    rcases rewriteBodyIfNeeded_cases parsers settings.upstream request with
      ⟨body, hbody, hforwarded⟩ | ⟨hbody, hread⟩
    · rw [hbody] at h
      dsimp only at h
      cases hheaders : buildUpstreamHeaders parsers.fromBytes parsers.fromStr settings.upstream
        request.headers with
      | none =>
        rw [hheaders] at h
        obtain ⟨rfl, rfl⟩ := h.of_fail
        exact ⟨by simp, fun _ _ => ⟨rfl, fromStr_of_buildUpstreamHeaders hheaders⟩, by simp,
          hoblivious⟩
      | some headers =>
        rw [hheaders] at h
        obtain ⟨⟨response, rfl, hanswered⟩, hsent⟩ := answered_passOn h
        refine ⟨fun _ ho => Except.ok.inj ho ▸ hanswered, by simp, ?_, hoblivious⟩
        intro upstream answer hmem
        obtain rfl := hsent upstream answer hmem
        exact ⟨hauth, rfl, rfl, fun _ hname _ => credentials_buildUpstreamHeaders hheaders hname,
          hforwarded⟩
    · rw [hbody] at h
      obtain ⟨rfl, rfl⟩ := h.of_ret
      exact ⟨fun _ ho => Except.ok.inj ho ▸ .malformed hauth hread, by simp, by simp, hoblivious⟩
  · rw [forwardRequest_unauthorized hauth] at h
    obtain ⟨rfl, rfl⟩ := h.of_ret
    exact ⟨fun _ ho => Except.ok.inj ho ▸ .unauthorized hauth, by simp, by simp, hoblivious⟩

end Forwarding

section Example

def hostParsers : Parsers where
  parseUrl := hostUrl
  fromSlice := readEmptyObject
  fromBytes := asciiName
  fromStr := asciiValue

def hostSettings : ApiProxySettings where
  bindAddr := "0.0.0.0:9000"
  localAuthToken := "t"
  upstream := modelProvider "https://host"

/-- An empty object that is posted to the messages endpoint. -/
def emptyObjectRequest : InboundRequest where
  method := "POST"
  uri := messagesUri
  headers := jsonHeaders
  body := "\x7b\x7d".toUTF8

/-- The empty object is forwarded, and an empty answer is passed on. -/
theorem requests_are_proxied_empty_object : ∃ upstream response,
    Proxied hostParsers hostSettings emptyObjectRequest
      [⟨.send upstream, .ok ⟨200, []⟩⟩, ⟨.bytes, .ok .empty⟩] (.ok response) := by
  obtain ⟨upstream, hpass⟩ : ∃ upstream,
      proxyRequest hostParsers hostSettings emptyObjectRequest = passOn upstream := ⟨_, rfl⟩
  refine ⟨upstream, ⟨200, none, .empty⟩, requests_are_proxied ?_⟩
  rw [hpass]
  exact .cons (.cons (.nil _))

end Example

end DogBot.Proxy
