import DogBot.Proxy.Payload

/-! # Equal targets

Two tests look at the path of a request: whether it starts with the path of the
base URL, which is then not put in front of it, and whether it is that of the
messages endpoint, so that the body is rewritten. Two requests may get the same
target while only one of them is rewritten.
-/

namespace DogBot.Proxy

open Json

/-- Authorised JSON requests with the same headers and body whose targets are the same text are
forwarded alike. -/
def EqualTexts (parseUrl : String → Option ParsedUrl) (fromSlice : ByteArray → Option Value)
    (provider : ProviderConfig) : Prop :=
  ∀ (settings : ApiProxySettings) (headers : HeaderMap) (body : ByteArray) (uri₁ uri₂ : Uri),
    settings.upstream = provider → isAuthorized headers settings.localAuthToken = true →
    isJson headers = true →
    joinUpstreamUrl parseUrl provider.baseUrl uri₁.pathAndQuery =
      joinUpstreamUrl parseUrl provider.baseUrl uri₂.pathAndQuery →
    forwardRequest parseUrl fromSlice settings uri₁ headers body =
      forwardRequest parseUrl fromSlice settings uri₂ headers body

def IsQuery (query : String) : Prop := ∀ c ∈ query.toList.head?, c = '?'

variable {parseUrl : String → Option ParsedUrl} {fromSlice : ByteArray → Option Value}
  {provider : ProviderConfig} {uri uri₁ uri₂ : Uri} {headers : HeaderMap} {body : ByteArray}
  {query : String}

/-- A base path under which the messages endpoint has a second name: the endpoint without the base
path in front of it, or with it. -/
def Splits (basePath : String) : Prop :=
  Text.startsWith "/" basePath = true ∧ (basePath = "/v1" ∨ basePath = "/v1/messages" ∨
    Text.startsWith basePath "/v1/messages" = false)

/-- The base path is dropped from the target of a request. -/
def Dropped (basePath pathAndQuery : String) : Prop :=
  basePath ≠ "" ∧ basePath ≠ "/" ∧ Text.startsWith basePath (beforeQuery pathAndQuery) = true

instance (basePath pathAndQuery : String) : Decidable (Dropped basePath pathAndQuery) :=
  inferInstanceAs (Decidable (_ ∧ _))

theorem joinUpstreamUrl_eq {url : ParsedUrl} {baseUrl : String}
    (h : parseUrl baseUrl = some url) (pathAndQuery : String) :
    joinUpstreamUrl parseUrl baseUrl pathAndQuery = trimTrailingSlashes url.cleared ++
      (if Dropped (trimTrailingSlashes url.path) pathAndQuery then ""
        else trimTrailingSlashes url.path) ++ pathAndQuery := by
  rw [joinUpstreamUrl, h]
  rfl

theorem rewriteBodyIfNeeded_congr (h : uri₁.path = "/v1/messages" ↔ uri₂.path = "/v1/messages") :
    rewriteBodyIfNeeded fromSlice provider uri₁.path headers body =
      rewriteBodyIfNeeded fromSlice provider uri₂.path headers body := by
  unfold rewriteBodyIfNeeded
  by_cases hp : uri₁.path = "/v1/messages"
  · rw [hp, h.mp hp]
  · rw [if_pos (.inl hp), if_pos (.inl (mt h.mpr hp))]

theorem pathAndQuery_start (uri : Uri) : ∃ c l, uri.pathAndQuery.toList = c :: l ∧
    (c = '/' ∨ c = '?') := by
  unfold Uri.pathAndQuery
  split_ifs with h
  · exact ⟨'/', [], rfl, .inl rfl⟩
  · have hne : uri.data.toList ≠ [] := by simpa using h
    obtain ⟨c, l, hl⟩ := List.exists_cons_of_ne_nil hne
    exact ⟨c, l, hl, uri.start c (by simp [hl])⟩

theorem path_eq (uri : Uri) : uri.path =
    if beforeQuery uri.pathAndQuery = "" then "/" else beforeQuery uri.pathAndQuery := by
  unfold Uri.path Uri.pathAndQuery
  by_cases h : uri.data = ""
  · rw [h]
    decide
  · rw [if_neg h]

theorem path_eq_messages_iff (uri : Uri) :
    uri.path = "/v1/messages" ↔ beforeQuery uri.pathAndQuery = "/v1/messages" := by
  rw [path_eq]
  split_ifs with h
  · rw [h]
    decide
  · rfl

theorem beforeQuery_append (value : String) : ∃ query : List Char,
    value.toList = (beforeQuery value).toList ++ query ∧ ∀ c ∈ query.head?, c = '?' := by
  refine ⟨value.toList.dropWhile (· ≠ '?'), ?_, ?_⟩
  · rw [beforeQuery, String.toList_ofList, List.takeWhile_append_dropWhile]
  · intro c hc
    have hfirst := List.head?_dropWhile_not (fun c => decide (c ≠ '?')) value.toList
    rw [hc] at hfirst
    simpa using hfirst

theorem not_mem_beforeQuery (value : String) : '?' ∉ (beforeQuery value).toList := by
  rw [beforeQuery, String.toList_ofList]
  intro h
  simpa using List.mem_takeWhile_imp h

/-- The endpoint behind a base path that it starts with is a path only behind `/v1`. -/
theorem basePath_cases {basePath rest query : List Char} {c : Char} {l : List Char}
    (hne : basePath ≠ []) (h : "/v1/messages".toList = basePath ++ rest)
    (hrest : rest ++ query = c :: l) (hc : c = '/' ∨ c = '?') :
    basePath = "/v1".toList ∨ basePath = "/v1/messages".toList := by
  have hstart : ∀ n < 13, 0 < n → ("/v1/messages".toList.drop n).head? ≠ some '?' ∧
      (("/v1/messages".toList.drop n).head? = some '/' → n = 3) := by decide
  cases rest with
  | nil => exact .inr (by rw [h, List.append_nil])
  | cons d rest =>
    obtain ⟨rfl, -⟩ := List.cons.inj hrest
    have hlen : basePath.length < 13 := by
      have htotal := congrArg List.length h
      simp only [List.length_append] at htotal
      have hmessages : "/v1/messages".toList.length = 12 := rfl
      omega
    have hdrop : ("/v1/messages".toList.drop basePath.length).head? = some d := by
      rw [h, List.drop_left]
      rfl
    obtain ⟨hquestion, hslash⟩ := hstart _ hlen (List.length_pos_of_ne_nil hne)
    have hd : d = '/' := hc.resolve_right fun he => hquestion (he ▸ hdrop)
    have htake : basePath = "/v1/messages".toList.take basePath.length := by
      rw [h, List.take_left]
    rw [hslash (hd ▸ hdrop)] at htake
    exact .inl htake

/-- Of two requests with the same target, one with and one without the base path dropped, none is
one to the endpoint unless the base path splits it. -/
theorem splits_of_dropped {basePath p q : String} {c d : Char} {l l' : List Char}
    (hp : p.toList = c :: l) (hc : c = '/' ∨ c = '?') (hq : q.toList = d :: l')
    (hd : d = '/' ∨ d = '?') (hpq : p = basePath ++ q) (hdropped : Dropped basePath p)
    (hkept : ¬ Dropped basePath q)
    (hmessages : beforeQuery p = "/v1/messages" ∨ beforeQuery q = "/v1/messages") :
    Splits basePath := by
  obtain ⟨hne, hslash, hstart⟩ := hdropped
  have hprefix := Text.startsWith_iff.mp hstart
  have hbase : basePath.toList ≠ [] := by simpa using hne
  obtain ⟨b, base, hb⟩ := List.exists_cons_of_ne_nil hbase
  -- the base path begins as the request does, and it has no question mark
  have hfirst : b = '/' := by
    have hbc : b = c := by
      have hlist := congrArg String.toList hpq
      rw [hp, String.toList_append, hb, List.cons_append] at hlist
      exact (List.cons.inj hlist).1.symm
    rw [hbc]
    refine hc.resolve_right fun he => not_mem_beforeQuery p ?_
    rw [← he, ← hbc]
    exact hprefix.subset (by simp [hb])
  have hroot : Text.startsWith "/" basePath = true := by
    rw [Text.startsWith_iff, hb, hfirst]
    exact ⟨base, rfl⟩
  refine ⟨hroot, ?_⟩
  rcases hmessages with hmessages | hmessages
  · rw [hmessages] at hprefix
    obtain ⟨rest, hrest⟩ := hprefix
    obtain ⟨query, hquery, -⟩ := beforeQuery_append p
    have hrestq : rest ++ query = d :: l' := by
      rw [hmessages, ← hrest, hpq, String.toList_append, List.append_assoc] at hquery
      rw [← List.append_cancel_left hquery, hq]
    rcases basePath_cases hbase hrest.symm hrestq hd with h | h
    · exact .inl (String.toList_inj.mp h)
    · exact .inr (.inl (String.toList_inj.mp h))
  · right
    right
    rw [← hmessages]
    exact Bool.eq_false_iff.mpr fun h => hkept ⟨hne, hslash, h⟩

/-- A request whose target keeps the base path and one whose target drops it are both none to the
endpoint, unless the base path splits it. -/
theorem path_ne_messages {basePath : String} (hsplits : ¬ Splits basePath)
    (hpq : uri₁.pathAndQuery = basePath ++ uri₂.pathAndQuery)
    (hdropped : Dropped basePath uri₁.pathAndQuery)
    (hkept : ¬ Dropped basePath uri₂.pathAndQuery) :
    uri₁.path ≠ "/v1/messages" ∧ uri₂.path ≠ "/v1/messages" := by
  obtain ⟨c, l, hp, hc⟩ := pathAndQuery_start uri₁
  obtain ⟨d, l', hq, hd⟩ := pathAndQuery_start uri₂
  constructor
  · intro h
    rw [path_eq_messages_iff] at h
    exact hsplits (splits_of_dropped hp hc hq hd hpq hdropped hkept (.inl h))
  · intro h
    rw [path_eq_messages_iff] at h
    exact hsplits (splits_of_dropped hp hc hq hd hpq hdropped hkept (.inr h))

theorem forwardRequest_eq {settings : ApiProxySettings} {uri : Uri} {headers : HeaderMap}
    {body : ByteArray} (hauth : isAuthorized headers settings.localAuthToken = true) :
    forwardRequest parseUrl fromSlice settings uri headers body =
      match rewriteBodyIfNeeded fromSlice settings.upstream uri.path headers body with
      | .ok forwarded =>
        .ok (joinUpstreamUrl parseUrl settings.upstream.baseUrl uri.pathAndQuery, forwarded)
      | .error message => .error (400, message) := by
  unfold forwardRequest
  rw [if_neg (not_not_intro hauth)]
  cases rewriteBodyIfNeeded fromSlice settings.upstream uri.path headers body <;> rfl

theorem forwardRequest_body {settings : ApiProxySettings} (hprovider : settings.upstream = provider)
    (hauth : isAuthorized headers settings.localAuthToken = true) (uri : Uri) :
    (forwardRequest parseUrl fromSlice settings uri headers body).map Prod.snd =
      (rewriteBodyIfNeeded fromSlice provider uri.path headers body).mapError
        fun message => (400, message) := by
  subst hprovider
  rw [forwardRequest_eq hauth]
  cases rewriteBodyIfNeeded fromSlice settings.upstream uri.path headers body <;> rfl

theorem equalTexts_of_not_splits
    (h : ∀ url, parseUrl provider.baseUrl = some url → ¬ Splits (trimTrailingSlashes url.path)) :
    EqualTexts parseUrl fromSlice provider := by
  rintro settings headers body uri₁ uri₂ rfl hauth - hjoin
  rw [forwardRequest_eq hauth, forwardRequest_eq hauth, hjoin]
  congr 1
  apply rewriteBodyIfNeeded_congr
  have hsame : uri₁.pathAndQuery = uri₂.pathAndQuery →
      (uri₁.path = "/v1/messages" ↔ uri₂.path = "/v1/messages") := by
    intro he
    rw [path_eq_messages_iff, path_eq_messages_iff, he]
  cases hurl : parseUrl settings.upstream.baseUrl with
  | none =>
    simp only [joinUpstreamUrl, hurl, String.append_right_inj] at hjoin
    exact hsame hjoin
  | some url =>
    have hsplits := h url hurl
    rw [joinUpstreamUrl_eq hurl, joinUpstreamUrl_eq hurl, String.append_assoc,
      String.append_assoc, String.append_right_inj] at hjoin
    generalize trimTrailingSlashes url.path = basePath at hsplits hjoin
    by_cases h₁ : Dropped basePath uri₁.pathAndQuery <;>
      by_cases h₂ : Dropped basePath uri₂.pathAndQuery
    · rw [if_pos h₁, if_pos h₂, String.append_right_inj] at hjoin
      exact hsame hjoin
    · rw [if_pos h₁, if_neg h₂, String.empty_append] at hjoin
      obtain ⟨hp, hq⟩ := path_ne_messages hsplits hjoin h₁ h₂
      exact iff_of_false hp hq
    · rw [if_neg h₁, if_pos h₂, String.empty_append] at hjoin
      obtain ⟨hq, hp⟩ := path_ne_messages hsplits hjoin.symm h₂ h₁
      exact iff_of_false hp hq
    · rw [if_neg h₁, if_neg h₂, String.append_right_inj] at hjoin
      exact hsame hjoin

section Split

/-- Headers that authorise a request and announce JSON. -/
def jsonHeaders : HeaderMap :=
  [("x-api-key", [116]), ("content-type", "application/json".toList.map fun c => c.toUInt8)]

theorem isAuthorized_jsonHeaders : isAuthorized jsonHeaders "t" = true := by decide

theorem isJson_jsonHeaders : isJson jsonHeaders = true := by decide

theorem rewrite_empty_object (hempty : fromSlice "\x7b\x7d".toUTF8 = some (.object []))
    (hmodel : provider.model.isSome = true) :
    rewriteBodyIfNeeded fromSlice provider "/v1/messages" jsonHeaders "\x7b\x7d".toUTF8 ≠
      .ok "\x7b\x7d".toUTF8 := by
  obtain ⟨model, hmodel⟩ := Option.isSome_iff_exists.mp hmodel
  have hcond : ¬ ("/v1/messages" ≠ "/v1/messages" ∨ ¬ isJson jsonHeaders = true) := by
    simp [isJson_jsonHeaders]
  rw [rewriteBodyIfNeeded, if_neg hcond, hmodel, hempty]
  intro he
  have hprint := String.toByteArray_inj.mp (Except.ok.inj he)
  have hlength := congrArg (fun s : String => s.toList.length) hprint
  simp [insertMember, stripAnthropicCustomToolTypes, Value.print, Value.printMembers,
    Value.printString] at hlength

/-- Settings under which the headers authorise a request. -/
def tokenSettings (provider : ProviderConfig) : ApiProxySettings where
  bindAddr := ""
  localAuthToken := "t"
  upstream := provider

/-- Of two requests of which one is to the endpoint, the bodies are forwarded differently. -/
theorem forwarded_ne (hempty : fromSlice "\x7b\x7d".toUTF8 = some (.object []))
    (hmodel : provider.model.isSome = true) (h₁ : uri₁.path = "/v1/messages")
    (h₂ : uri₂.path ≠ "/v1/messages") :
    (forwardRequest parseUrl fromSlice (tokenSettings provider) uri₁ jsonHeaders
        "\x7b\x7d".toUTF8).map Prod.snd ≠
      (forwardRequest parseUrl fromSlice (tokenSettings provider) uri₂ jsonHeaders
        "\x7b\x7d".toUTF8).map Prod.snd := by
  have hkept : rewriteBodyIfNeeded fromSlice provider uri₂.path jsonHeaders "\x7b\x7d".toUTF8 =
      .ok "\x7b\x7d".toUTF8 := by
    rw [rewriteBodyIfNeeded, if_pos (.inl h₂)]
  have hrewritten := rewrite_empty_object hempty hmodel
  have hbody := fun uri => @forwardRequest_body parseUrl fromSlice provider jsonHeaders
    "\x7b\x7d".toUTF8 (tokenSettings provider) rfl isAuthorized_jsonHeaders uri
  rw [hbody, hbody, hkept, h₁]
  intro he
  apply hrewritten
  cases hr : rewriteBodyIfNeeded fromSlice provider "/v1/messages" jsonHeaders
      "\x7b\x7d".toUTF8 with
  | ok forwarded =>
    rw [hr] at he
    exact congrArg Except.ok (Except.ok.inj he)
  | error message =>
    rw [hr] at he
    cases he

theorem joinUpstreamUrl_dropped {url : ParsedUrl} {baseUrl p q : String}
    (hurl : parseUrl baseUrl = some url) (hpq : p = trimTrailingSlashes url.path ++ q)
    (hp : Dropped (trimTrailingSlashes url.path) p)
    (hq : ¬ Dropped (trimTrailingSlashes url.path) q) :
    joinUpstreamUrl parseUrl baseUrl p = joinUpstreamUrl parseUrl baseUrl q := by
  rw [joinUpstreamUrl_eq hurl, joinUpstreamUrl_eq hurl, if_pos hp, if_neg hq, String.append_empty,
    String.append_assoc, ← hpq]

theorem trimTrailingSlashes_ne_slash (value : String) : trimTrailingSlashes value ≠ "/" := by
  intro h
  have hlist : value.toList.rdropWhile (· == '/') = ['/'] := by
    simpa [trimTrailingSlashes] using congrArg String.toList h
  have hlast := List.rdropWhile_last_not (· == '/') value.toList (by simp [hlist])
  simp [hlist] at hlast

theorem not_mem_trimTrailingSlashes {c : Char} {value : String} (h : c ∉ value.toList) :
    c ∉ (trimTrailingSlashes value).toList := by
  rw [trimTrailingSlashes, String.toList_ofList]
  exact fun hm => h ((List.rdropWhile_prefix _ _).subset hm)

theorem beforeQuery_append_query {value : String} (h : '?' ∉ value.toList) (hquery : IsQuery query) :
    beforeQuery (value ++ query) = value := by
  have hself : ∀ c ∈ value.toList, decide (c ≠ '?') = true := by
    intro c hc
    simpa using fun he : c = '?' => h (he ▸ hc)
  have hnone : query.toList.takeWhile (· ≠ '?') = [] := by
    cases hl : query.toList with
    | nil => rfl
    | cons c l =>
      obtain rfl : c = '?' := hquery c (by rw [hl]; rfl)
      rfl
  rw [beforeQuery, String.toList_append, List.takeWhile_append_of_pos hself, hnone,
    List.append_nil, String.ofList_toList]

def messagesUri : Uri := ⟨"/v1/messages", by simp⟩

theorem exists_uri {path : String} (hroot : Text.startsWith "/" path = true)
    (hpath : '?' ∉ path.toList) (hquery : IsQuery query) :
    ∃ uri : Uri, uri.pathAndQuery = path ++ query ∧ uri.path = path := by
  obtain ⟨l, hl⟩ := Text.startsWith_iff.mp hroot
  have hdata : ∀ c ∈ (path ++ query).toList.head?, c = '/' ∨ c = '?' := by
    intro c hc
    rw [String.toList_append, ← hl] at hc
    exact .inl (Option.some.inj hc).symm
  have hne : path ≠ "" := by
    rintro rfl
    exact absurd hroot (by decide)
  refine ⟨⟨path ++ query, hdata⟩, if_neg fun he => hne ?_, ?_⟩
  · simpa [hne] using congrArg String.toList he
  · rw [Uri.path, beforeQuery_append_query hpath hquery, if_neg hne]

theorem append_messages_ne {basePath : String} (hne : basePath ≠ "") :
    basePath ++ "/v1/messages" ≠ "/v1/messages" := by
  intro he
  have hlength := congrArg (fun s : String => s.toList.length) he
  simp only [String.toList_append, List.length_append, add_eq_right] at hlength
  exact hne (by simpa using hlength)

/-- Where the endpoint does not begin with the base path, the base path in front of it is its second
name. -/
theorem exists_uri_behind {url : ParsedUrl} {baseUrl : String}
    (hurl : parseUrl baseUrl = some url)
    (hroot : Text.startsWith "/" (trimTrailingSlashes url.path) = true)
    (hpre : Text.startsWith (trimTrailingSlashes url.path) "/v1/messages" = false)
    (hquery : IsQuery query) : ∃ uri : Uri, uri.path ≠ "/v1/messages" ∧
      joinUpstreamUrl parseUrl baseUrl uri.pathAndQuery =
        joinUpstreamUrl parseUrl baseUrl ("/v1/messages" ++ query) := by
  have hslash := trimTrailingSlashes_ne_slash url.path
  have hmark := not_mem_trimTrailingSlashes url.noQuery
  have hjoin := fun p q => @joinUpstreamUrl_dropped parseUrl url baseUrl p q hurl
  generalize trimTrailingSlashes url.path = basePath at hroot hpre hslash hmark hjoin
  have hne : basePath ≠ "" := by
    rintro rfl
    exact absurd hroot (by decide)
  have hpath : '?' ∉ (basePath ++ "/v1/messages").toList := by
    rw [String.toList_append, List.mem_append]
    exact fun hm => hm.elim hmark (by decide)
  have hslashes : Text.startsWith "/" (basePath ++ "/v1/messages") = true := by
    rw [Text.startsWith_iff] at hroot ⊢
    rw [String.toList_append]
    exact hroot.trans (List.prefix_append _ _)
  obtain ⟨uri, hdata, huri⟩ := exists_uri hslashes hpath hquery
  refine ⟨uri, huri ▸ append_messages_ne hne, hjoin _ _ ?_ ?_ ?_⟩
  · rw [hdata, String.append_assoc]
  · refine ⟨hne, hslash, ?_⟩
    rw [hdata, beforeQuery_append_query hpath hquery, Text.startsWith_iff, String.toList_append]
    exact List.prefix_append _ _
  · rintro ⟨-, -, hstart⟩
    rw [beforeQuery_append_query (by decide) hquery, hpre] at hstart
    cases hstart

theorem exists_targets_of_splits {url : ParsedUrl} {baseUrl : String}
    (hurl : parseUrl baseUrl = some url) (h : Splits (trimTrailingSlashes url.path)) :
    ∃ uri₁ uri₂ : Uri, uri₁.path = "/v1/messages" ∧ uri₂.path ≠ "/v1/messages" ∧
      joinUpstreamUrl parseUrl baseUrl uri₁.pathAndQuery =
        joinUpstreamUrl parseUrl baseUrl uri₂.pathAndQuery := by
  obtain ⟨hroot, hcases⟩ := h
  have hjoin := fun p q => @joinUpstreamUrl_dropped parseUrl url baseUrl p q hurl
  have hbehind := @exists_uri_behind parseUrl "" url baseUrl hurl hroot
  generalize trimTrailingSlashes url.path = basePath at hcases hjoin hbehind
  rcases hcases with rfl | rfl | hprefix
  · refine ⟨messagesUri, ⟨"/messages", by simp⟩, by decide, by decide, ?_⟩
    exact hjoin _ _ (by decide) (by decide) (by decide)
  · refine ⟨⟨"/v1/messages?x", by simp⟩, ⟨"?x", by simp⟩, by decide, by decide, ?_⟩
    exact hjoin _ _ (by decide) (by decide) (by decide)
  · obtain ⟨uri, hpath, hsame⟩ := hbehind hprefix (by simp [IsQuery])
    exact ⟨messagesUri, uri, by decide, hpath, hsame.symm⟩

end Split

/-- Requests with the same target are forwarded alike exactly if the base URL is not parsed, or its
path does not split the messages endpoint. -/
theorem equalTexts_iff (hempty : fromSlice "\x7b\x7d".toUTF8 = some (.object []))
    (hmodel : provider.model.isSome = true) : EqualTexts parseUrl fromSlice provider ↔
      ∀ url, parseUrl provider.baseUrl = some url → ¬ Splits (trimTrailingSlashes url.path) := by
  refine ⟨fun h url hurl hsplits => ?_, equalTexts_of_not_splits⟩
  obtain ⟨uri₁, uri₂, h₁, h₂, hjoin⟩ := exists_targets_of_splits hurl hsplits
  exact forwarded_ne hempty hmodel h₁ h₂ (congrArg (Except.map Prod.snd)
    (h (tokenSettings provider) jsonHeaders _ uri₁ uri₂ rfl isAuthorized_jsonHeaders
      isJson_jsonHeaders hjoin))

def modelProvider (baseUrl : String) : ProviderConfig where
  baseUrl := baseUrl
  upstreamToken := "upstream-secret"
  upstreamAuthHeader := "x-api-key"
  upstreamAuthScheme := none
  model := some "upstream-model"

/-- The URLs of one host, without and with a path. -/
def hostUrl (baseUrl : String) : Option ParsedUrl :=
  if baseUrl = "https://host" then some ⟨"/", "https://host/", by decide⟩
  else if baseUrl = "https://host/v1" then some ⟨"/v1", "https://host/", by decide⟩
  else none

def readEmptyObject (body : ByteArray) : Option Value :=
  if body.data.toList = [0x7b, 0x7d] then some (.object []) else none

end DogBot.Proxy
