import DogBot.Proxy.Targets

/-! # The messages endpoint

The client that sends a request removes the dot segments of its URL, but the
path of the request is tested with them. So every URL of the messages endpoint
is also requested by a path that is not taken for it. What the client does to
URLs is a parameter.
-/

namespace DogBot.Proxy

open Json

section Statements

variable (parseUrl : String → Option ParsedUrl) (requestUrl : String → Option String)
  (fromSlice : ByteArray → Option Value) (provider : ProviderConfig)

/-- The messages endpoint of the provider, which is below the path of the base URL unless its own
path begins with it. -/
def messagesEndpoint : String :=
  match parseUrl provider.baseUrl with
  | none => trimTrailingSlashes provider.baseUrl ++ "/v1/messages"
  | some url =>
    trimTrailingSlashes url.cleared ++
      (if Text.startsWith (trimTrailingSlashes url.path) "/v1/messages" = true then ""
        else trimTrailingSlashes url.path) ++ "/v1/messages"

/-- The URL that is requested is one of the messages endpoint. -/
def ReachesEndpoint (url : String) : Prop :=
  ∃ query, IsQuery query ∧ requestUrl (messagesEndpoint parseUrl provider ++ query) = some url

/-- Authorised JSON requests with the same headers and body that are sent to the same URL are
forwarded with the same body, and what is sent to the messages endpoint has the model of the
provider and no types of custom tools. -/
structure EqualTargets : Prop where
  equal : ∀ (settings : ApiProxySettings) (headers : HeaderMap) (body : ByteArray)
    (uri₁ uri₂ : Uri) (url : String), settings.upstream = provider →
    isAuthorized headers settings.localAuthToken = true → isJson headers = true →
    requestUrl (joinUpstreamUrl parseUrl provider.baseUrl uri₁.pathAndQuery) = some url →
    requestUrl (joinUpstreamUrl parseUrl provider.baseUrl uri₂.pathAndQuery) = some url →
    (forwardRequest parseUrl fromSlice settings uri₁ headers body).map Prod.snd =
      (forwardRequest parseUrl fromSlice settings uri₂ headers body).map Prod.snd
  rewritten : ∀ (settings : ApiProxySettings) (headers : HeaderMap) (body : ByteArray) (uri : Uri)
    (url model : String) (payload : Value), settings.upstream = provider →
    isAuthorized headers settings.localAuthToken = true → isJson headers = true →
    provider.model = some model → fromSlice body = some payload →
    requestUrl (joinUpstreamUrl parseUrl provider.baseUrl uri.pathAndQuery) = some url →
    ReachesEndpoint parseUrl requestUrl provider url →
    ∃ payload', RewrittenPayload model payload payload' ∧
      (forwardRequest parseUrl fromSlice settings uri headers body).map Prod.snd =
        .ok payload'.print.toUTF8

end Statements

/-- A text in which neither a query nor a fragment begins. -/
def AllPath (text : String) : Prop := '?' ∉ text.toList ∧ '#' ∉ text.toList

/-- What is used of the URLs of the client: the path of a base URL and its text without path, query
and fragment are what they are called; a base URL that is refused although a query or a fragment
begins in it is refused for what stands in front of that; and a segment with the double dot behind
it is removed. -/
structure UrlLaws (parseUrl : String → Option ParsedUrl) (requestUrl : String → Option String) :
    Prop where
  parsed : ∀ baseUrl url, parseUrl baseUrl = some url → AllPath url.path ∧ AllPath url.cleared
  refused : ∀ baseUrl, parseUrl baseUrl = none → ¬ AllPath baseUrl → ∀ rest,
    requestUrl (trimTrailingSlashes baseUrl ++ rest) = none
  dots : ∀ pre query, AllPath pre → IsQuery query →
    requestUrl (pre ++ ("/v1/messages/../messages" ++ query)) =
      requestUrl (pre ++ ("/v1/messages" ++ query))

variable {parseUrl : String → Option ParsedUrl} {requestUrl : String → Option String}
  {fromSlice : ByteArray → Option Value} {provider : ProviderConfig} {uri uri₁ uri₂ : Uri}
  {headers : HeaderMap} {body : ByteArray} {query : String}

section Endpoint

theorem joinUpstreamUrl_messages (hquery : IsQuery query) :
    joinUpstreamUrl parseUrl provider.baseUrl ("/v1/messages" ++ query) =
      messagesEndpoint parseUrl provider ++ query := by
  unfold messagesEndpoint
  cases hurl : parseUrl provider.baseUrl with
  | none => rw [joinUpstreamUrl, hurl, String.append_assoc]
  | some url =>
    have hslash := trimTrailingSlashes_ne_slash url.path
    have hself : beforeQuery ("/v1/messages" ++ query) = "/v1/messages" :=
      beforeQuery_append_query (by decide) hquery
    rw [joinUpstreamUrl_eq hurl]
    dsimp only
    generalize trimTrailingSlashes url.path = basePath at hslash
    by_cases hempty : basePath = ""
    · simp [hempty, String.append_assoc]
    · have hdropped : Dropped basePath ("/v1/messages" ++ query) ↔
          Text.startsWith basePath "/v1/messages" = true := by
        unfold Dropped
        rw [hself]
        simp [hempty, hslash]
      simp only [hdropped, String.append_assoc]

theorem exists_query (h : uri.path = "/v1/messages") :
    ∃ query, IsQuery query ∧ uri.pathAndQuery = "/v1/messages" ++ query := by
  rw [path_eq_messages_iff] at h
  obtain ⟨query, hdata, hquery⟩ := beforeQuery_append uri.pathAndQuery
  refine ⟨String.ofList query, by simpa [IsQuery] using hquery, String.toList_inj.mp ?_⟩
  rw [hdata, h, String.toList_append, String.toList_ofList (l := query)]

theorem reachesEndpoint_of_path {url : String} (h : uri.path = "/v1/messages")
    (hurl : requestUrl (joinUpstreamUrl parseUrl provider.baseUrl uri.pathAndQuery) = some url) :
    ReachesEndpoint parseUrl requestUrl provider url := by
  obtain ⟨query, hquery, hdata⟩ := exists_query h
  rw [hdata, joinUpstreamUrl_messages hquery] at hurl
  exact ⟨query, hquery, hurl⟩

theorem AllPath.trimTrailingSlashes {value : String} (h : AllPath value) :
    AllPath (trimTrailingSlashes value) :=
  ⟨not_mem_trimTrailingSlashes h.1, not_mem_trimTrailingSlashes h.2⟩

theorem AllPath.append {pre value : String} (hpre : AllPath pre) (h : AllPath value) :
    AllPath (pre ++ value) := by
  constructor
  · rw [String.toList_append, List.mem_append]
    exact fun hm => hm.elim hpre.1 h.1
  · rw [String.toList_append, List.mem_append]
    exact fun hm => hm.elim hpre.2 h.2

/-- Every URL of the endpoint is that of a request to another path. -/
theorem exists_uri_of_reachesEndpoint (hlaws : UrlLaws parseUrl requestUrl) {url : String}
    (h : ReachesEndpoint parseUrl requestUrl provider url) : ∃ uri : Uri,
      uri.path ≠ "/v1/messages" ∧
        requestUrl (joinUpstreamUrl parseUrl provider.baseUrl uri.pathAndQuery) = some url := by
  obtain ⟨query, hquery, hurl⟩ := h
  rw [← joinUpstreamUrl_messages hquery] at hurl
  obtain ⟨dotted, hdata, hpath⟩ := @exists_uri query "/v1/messages/../messages" (by decide)
    (by decide) hquery
  have hne : dotted.path ≠ "/v1/messages" := by
    rw [hpath]
    decide
  -- where the base path is put in front of both names or of none, the dots make no difference
  have hdotted : ∀ pre, AllPath pre →
      joinUpstreamUrl parseUrl provider.baseUrl ("/v1/messages" ++ query) =
        pre ++ ("/v1/messages" ++ query) →
      joinUpstreamUrl parseUrl provider.baseUrl dotted.pathAndQuery =
        pre ++ ("/v1/messages/../messages" ++ query) →
      ∃ uri : Uri, uri.path ≠ "/v1/messages" ∧
        requestUrl (joinUpstreamUrl parseUrl provider.baseUrl uri.pathAndQuery) = some url := by
    intro pre hpre hplain hdots
    refine ⟨dotted, hne, ?_⟩
    rw [hdots, hlaws.dots pre query hpre hquery, ← hplain, hurl]
  cases hparse : parseUrl provider.baseUrl with
  | none =>
    have hjoin : ∀ p, joinUpstreamUrl parseUrl provider.baseUrl p =
        trimTrailingSlashes provider.baseUrl ++ p := by
      intro p
      rw [joinUpstreamUrl, hparse]
    by_cases hbase : AllPath provider.baseUrl
    · exact hdotted _ hbase.trimTrailingSlashes (hjoin _) (by rw [hjoin, hdata])
    · rw [hjoin, hlaws.refused _ hparse hbase] at hurl
      cases hurl
  | some base =>
    obtain ⟨hbasePath, hcleared⟩ := hlaws.parsed _ _ hparse
    have hslash := trimTrailingSlashes_ne_slash base.path
    by_cases hprefix : Text.startsWith (trimTrailingSlashes base.path) "/v1/messages" = true
    · -- both names begin with the base path
      have hboth : ∀ p, Text.startsWith (trimTrailingSlashes base.path) (beforeQuery p) = true →
          joinUpstreamUrl parseUrl provider.baseUrl p = trimTrailingSlashes base.cleared ++ p := by
        intro p hp
        rw [joinUpstreamUrl_eq hparse]
        by_cases hempty : trimTrailingSlashes base.path = ""
        · simp [hempty]
        · rw [if_pos ⟨hempty, hslash, hp⟩, String.append_empty]
      refine hdotted _ hcleared.trimTrailingSlashes (hboth _ ?_) ?_
      · rwa [beforeQuery_append_query (by decide) hquery]
      · rw [hboth, hdata]
        rw [hdata, beforeQuery_append_query (by decide) hquery]
        rw [Text.startsWith_iff] at hprefix ⊢
        exact hprefix.trans ⟨"/../messages".toList, rfl⟩
    · rw [Bool.not_eq_true] at hprefix
      by_cases hroot : Text.startsWith "/" (trimTrailingSlashes base.path) = true
      · obtain ⟨uri, hother, hsame⟩ := exists_uri_behind hparse hroot hprefix hquery
        exact ⟨uri, hother, hsame ▸ hurl⟩
      · -- no path begins with the base path
        have hneither : ∀ p, Text.startsWith "/" (beforeQuery p) = true →
            joinUpstreamUrl parseUrl provider.baseUrl p =
              trimTrailingSlashes base.cleared ++ trimTrailingSlashes base.path ++ p := by
          intro p hp
          rw [joinUpstreamUrl_eq hparse, if_neg]
          rintro ⟨hempty, -, hstart⟩
          apply hroot
          rw [Text.startsWith_iff] at hp hstart ⊢
          have hnonempty : 1 ≤ (trimTrailingSlashes base.path).toList.length := by
            rw [Nat.one_le_iff_ne_zero, ne_eq, List.length_eq_zero_iff]
            exact fun he => hempty (by simpa using he)
          exact List.prefix_of_prefix_length_le hp hstart hnonempty
        refine hdotted _ (hcleared.trimTrailingSlashes.append hbasePath.trimTrailingSlashes)
          (hneither _ ?_) ?_
        · rw [beforeQuery_append_query (by decide) hquery]
          decide
        · rw [hneither, hdata]
          rw [hdata, beforeQuery_append_query (by decide) hquery]
          decide

theorem equalTargets_iff (hlaws : UrlLaws parseUrl requestUrl)
    (hempty : fromSlice "\x7b\x7d".toUTF8 = some (.object []))
    (hmodel : provider.model.isSome = true) :
    EqualTargets parseUrl requestUrl fromSlice provider ↔
      ∀ url, ¬ ReachesEndpoint parseUrl requestUrl provider url := by
  constructor
  · intro h url hreaches
    obtain ⟨uri, hother, hrequest⟩ := exists_uri_of_reachesEndpoint hlaws hreaches
    obtain ⟨query, hquery, hurl⟩ := hreaches
    obtain ⟨messages, hdata, hpath⟩ := @exists_uri query "/v1/messages" (by decide) (by decide)
      hquery
    rw [← joinUpstreamUrl_messages hquery, ← hdata] at hurl
    exact forwarded_ne hempty hmodel hpath hother (h.equal (tokenSettings provider) jsonHeaders _
      messages uri url rfl isAuthorized_jsonHeaders isJson_jsonHeaders hurl hrequest)
  · intro hrefused
    constructor
    · intro settings headers body uri₁ uri₂ url hprovider hauth _ hurl₁ hurl₂
      have h₁ : uri₁.path ≠ "/v1/messages" := fun h =>
        hrefused url (reachesEndpoint_of_path h hurl₁)
      have h₂ : uri₂.path ≠ "/v1/messages" := fun h =>
        hrefused url (reachesEndpoint_of_path h hurl₂)
      rw [forwardRequest_body hprovider hauth, forwardRequest_body hprovider hauth,
        rewriteBodyIfNeeded_congr (iff_of_false h₁ h₂)]
    · intro _ _ _ _ url _ _ _ _ _ _ _ _ hreaches
      exact absurd hreaches (hrefused url)

end Endpoint

/-- Requests to one URL are forwarded alike, and those to the messages endpoint are rewritten,
exactly if the client refuses every URL of the endpoint. Of the requests whose targets are the same
text, all are forwarded alike exactly if the base URL is not parsed, or its path does not split the
endpoint. -/
theorem equal_targets_iff (hlaws : UrlLaws parseUrl requestUrl)
    (hempty : fromSlice "\x7b\x7d".toUTF8 = some (.object []))
    (hmodel : provider.model.isSome = true) :
    (EqualTargets parseUrl requestUrl fromSlice provider ↔
      ∀ url, ¬ ReachesEndpoint parseUrl requestUrl provider url) ∧
    (EqualTexts parseUrl fromSlice provider ↔
      ∀ url, parseUrl provider.baseUrl = some url → ¬ Splits (trimTrailingSlashes url.path)) :=
  ⟨equalTargets_iff hlaws hempty hmodel, equalTexts_iff hempty hmodel⟩

section Host

/-- No query and no fragment begins with the character. -/
def isPathChar (c : Char) : Bool := c ≠ '?' && c ≠ '#'

/-- The segments of a path, without the single dots and without what double dots leave. -/
def removeDots (segments : List (List Char)) : List (List Char) :=
  segments.foldl (fun above segment =>
    if segment = ['.'] then above
    else if segment = ['.', '.'] then above.dropLast
    else above ++ [segment]) []

/-- The segments of the path of a URL, if it is one of the host. -/
def hostPath (text : String) : Option (List Char) :=
  match removeDots ((text.toList.takeWhile isPathChar).splitOn '/') with
  | scheme :: empty :: host :: path =>
    if scheme = "https:".toList ∧ empty = [] ∧ host = "host".toList then
      some (['/'].intercalate path)
    else none
  | _ => none

def parseHost (text : String) : Option ParsedUrl :=
  (hostPath text).map fun path =>
    ⟨"/" ++ String.ofList (path.filter isPathChar), "https://host/", by simp [isPathChar]⟩

def requestHost (text : String) : Option String :=
  (hostPath text).map fun path =>
    "https://host/" ++ String.ofList (path ++ text.toList.dropWhile isPathChar)

theorem removeDots_append (above : List (List Char)) :
    removeDots (above ++ ["v1".toList, "messages".toList, "..".toList, "messages".toList]) =
      removeDots (above ++ ["v1".toList, "messages".toList]) := by
  simp [removeDots]

theorem takeWhile_isPathChar {pre rest : List Char} (hpre : ∀ c ∈ pre, isPathChar c = true)
    (hquery : ∀ c ∈ rest.head?, c = '?') : (pre ++ rest).takeWhile isPathChar = pre ∧
      (pre ++ rest).dropWhile isPathChar = rest := by
  have hnone : rest.takeWhile isPathChar = [] ∧ rest.dropWhile isPathChar = rest := by
    cases rest with
    | nil => exact ⟨rfl, rfl⟩
    | cons c rest =>
      obtain rfl : c = '?' := hquery c rfl
      exact ⟨rfl, rfl⟩
  rw [List.takeWhile_append_of_pos hpre, List.dropWhile_append_of_pos hpre, hnone.1, hnone.2,
    List.append_nil]
  exact ⟨rfl, rfl⟩

theorem AllPath.isPathChar {text : String} (h : AllPath text) :
    ∀ c ∈ text.toList, isPathChar c = true := by
  intro c hc
  have h₁ : c ≠ '?' := fun he => h.1 (he ▸ hc)
  have h₂ : c ≠ '#' := fun he => h.2 (he ▸ hc)
  simp [Proxy.isPathChar, h₁, h₂]

theorem takeWhile_append_of_mem {l rest : List Char} {c : Char} (hc : c ∈ l)
    (hmark : isPathChar c = false) :
    (l ++ rest).takeWhile isPathChar = l.takeWhile isPathChar := by
  rw [List.takeWhile_append, if_neg]
  intro hlength
  have hself := (List.takeWhile_prefix isPathChar).eq_of_length hlength
  rw [← hself] at hc
  exact absurd (List.mem_takeWhile_imp hc) (by simp [hmark])

/-- What stands behind the begin of a query or a fragment makes no difference to the path. -/
theorem hostPath_trim {baseUrl : String} (h : ¬ AllPath baseUrl) (rest : String) :
    hostPath (trimTrailingSlashes baseUrl ++ rest) = hostPath baseUrl := by
  obtain ⟨c, hc, hmark⟩ : ∃ c ∈ baseUrl.toList, isPathChar c = false := by
    by_contra hall
    push Not at hall
    exact h ⟨fun hm => hall _ hm rfl, fun hm => hall _ hm rfl⟩
  have hsplit := @List.rdropWhile_append_rtakeWhile _ (· == '/') baseUrl.toList
  have hkept : c ∈ baseUrl.toList.rdropWhile (· == '/') := by
    rw [← hsplit, List.mem_append] at hc
    refine hc.resolve_right fun hslash => ?_
    obtain rfl : c = '/' := by simpa using List.mem_rtakeWhile_imp hslash
    cases hmark
  have htake : (trimTrailingSlashes baseUrl ++ rest).toList.takeWhile isPathChar =
      baseUrl.toList.takeWhile isPathChar := by
    rw [← hsplit, String.toList_append, trimTrailingSlashes, String.toList_ofList,
      takeWhile_append_of_mem hkept hmark, takeWhile_append_of_mem hkept hmark]
  rw [hostPath, hostPath, htake]

theorem hostPath_dots {pre query : String} (hpre : AllPath pre) (hquery : IsQuery query) :
    hostPath (pre ++ ("/v1/messages/../messages" ++ query)) =
      hostPath (pre ++ ("/v1/messages" ++ query)) ∧
    (pre ++ ("/v1/messages/../messages" ++ query)).toList.dropWhile isPathChar =
      (pre ++ ("/v1/messages" ++ query)).toList.dropWhile isPathChar := by
  have hcut : ∀ path : String, AllPath path →
      (pre ++ (path ++ query)).toList.takeWhile isPathChar = (pre ++ path).toList ∧
        (pre ++ (path ++ query)).toList.dropWhile isPathChar = query.toList := by
    intro path hpath
    rw [← String.append_assoc, String.toList_append (s := pre ++ path)]
    exact takeWhile_isPathChar (hpre.append hpath).isPathChar hquery
  obtain ⟨htake, hdrop⟩ := hcut "/v1/messages" (by unfold AllPath; decide)
  obtain ⟨htake', hdrop'⟩ := hcut "/v1/messages/../messages" (by unfold AllPath; decide)
  refine ⟨?_, hdrop'.trans hdrop.symm⟩
  have hsplit : ∀ path : List Char, (pre.toList ++ '/' :: path).splitOn '/' =
      pre.toList.splitOn '/' ++ path.splitOn '/' := fun path =>
    List.splitOn_append_cons_self _ _
  have hdots : ((pre ++ "/v1/messages/../messages").toList).splitOn '/' =
      pre.toList.splitOn '/' ++
        ["v1".toList, "messages".toList, "..".toList, "messages".toList] := by
    rw [String.toList_append]
    exact hsplit "v1/messages/../messages".toList
  have hplain : ((pre ++ "/v1/messages").toList).splitOn '/' =
      pre.toList.splitOn '/' ++ ["v1".toList, "messages".toList] := by
    rw [String.toList_append]
    exact hsplit "v1/messages".toList
  rw [hostPath, hostPath, htake, htake', hdots, hplain, removeDots_append]

theorem urlLaws_host : UrlLaws parseHost requestHost where
  parsed := by
    intro baseUrl url hurl
    obtain ⟨path, -, rfl⟩ := Option.map_eq_some_iff.mp hurl
    have hcleared : AllPath "https://host/" := by
      unfold AllPath
      decide
    exact ⟨⟨by simp [isPathChar], by simp [isPathChar]⟩, hcleared⟩
  refused := by
    intro baseUrl hparse hmark rest
    rw [parseHost, Option.map_eq_none_iff] at hparse
    rw [requestHost, hostPath_trim hmark, hparse]
    rfl
  dots := by
    intro pre query hpre hquery
    obtain ⟨hpath, hrest⟩ := hostPath_dots hpre hquery
    rw [requestHost, requestHost, hpath, hrest]

end Host

/-- On a host, the endpoint can be reached by another path, but not by one that gets the same text
as its target. -/
theorem equal_targets_iff_host :
    ¬ EqualTargets parseHost requestHost readEmptyObject (modelProvider "https://host") ∧
      EqualTexts parseHost readEmptyObject (modelProvider "https://host") := by
  obtain ⟨htargets, htexts⟩ := @equal_targets_iff parseHost requestHost readEmptyObject
    (modelProvider "https://host") urlLaws_host (if_pos rfl) rfl
  constructor
  · intro h
    exact htargets.mp h "https://host/v1/messages" ⟨"", by simp [IsQuery], by decide +kernel⟩
  · refine htexts.mpr ?_
    intro url hurl
    have hpath : (parseHost "https://host").map ParsedUrl.path = some "/" := by decide +kernel
    change parseHost "https://host" = some url at hurl
    rw [hurl] at hpath
    rw [Option.some.inj hpath]
    rintro ⟨hroot, -⟩
    exact absurd hroot (by decide)

/-- Under the base path `/v1`, the endpoint is reached as `/messages` with the body as it was. -/
theorem endpoint_not_rewritten : ¬ ∀ (parseUrl : String → Option ParsedUrl)
    (requestUrl : String → Option String) (fromSlice : ByteArray → Option Value)
    (provider : ProviderConfig), UrlLaws parseUrl requestUrl →
    fromSlice "\x7b\x7d".toUTF8 = some (.object []) → provider.model.isSome = true →
    EqualTargets parseUrl requestUrl fromSlice provider := by
  intro h
  have hequal := h parseHost requestHost readEmptyObject (modelProvider "https://host/v1")
    urlLaws_host (if_pos rfl) rfl
  have hsame := hequal.equal (tokenSettings (modelProvider "https://host/v1")) jsonHeaders
    "\x7b\x7d".toUTF8 messagesUri ⟨"/messages", by simp⟩ "https://host/v1/messages" rfl
    isAuthorized_jsonHeaders isJson_jsonHeaders (by decide +kernel) (by decide +kernel)
  exact forwarded_ne (if_pos rfl) rfl (by decide) (by decide) hsame

end DogBot.Proxy
