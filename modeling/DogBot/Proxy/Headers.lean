import DogBot.Library.Multimap
import DogBot.Proxy.Request

/-! # The headers of the upstream request

The headers of an inbound request are inserted one by one into the headers of
the upstream request, without those that concern the connection to the proxy,
and the credentials of the provider are set at the end. As an insertion
replaces, a header that was sent several times keeps its last value only.
-/

namespace DogBot.Proxy

/-- The headers that are not forwarded. -/
def isSkipped (name : String) : Bool :=
  name ∈ ["host", "content-length", "authorization", "x-api-key", "connection"]

/-- The headers that may carry the local token. -/
def isCredential (name : String) : Bool := name ∈ ["authorization", "x-api-key"]

def upstreamAuthValue (provider : ProviderConfig) : String :=
  match provider.upstreamAuthScheme with
  | some scheme =>
    if scheme ≠ "" then scheme ++ " " ++ provider.upstreamToken else provider.upstreamToken
  | none => provider.upstreamToken

section Build

/- How a text is read as the name and as the value of a header. -/
variable (fromBytes : String → Option String) (fromStr : String → Option HeaderValue)

/-- The headers of the upstream request. There are none if the credentials are not a valid value,
where the code panics. -/
def buildUpstreamHeaders (provider : ProviderConfig) (inbound : HeaderMap) : Option HeaderMap := do
  let headers : HeaderMap := inbound.foldl (fun headers (name, value) =>
    if isSkipped name then headers else Multimap.insert headers name value) []
  let authHeader := (fromBytes provider.upstreamAuthHeader).getD "x-api-key"
  let authValue ← fromStr (upstreamAuthValue provider)
  return Multimap.insert headers authHeader authValue

end Build

/-- The headers that end at the proxy: those of the connection to it, and those with its token. -/
def proxyHeaders : List String :=
  ["host", "content-length", "authorization", "x-api-key", "connection"]

/-- The upstream headers are those of the request, with all their values, without those that end at
the proxy and with the credentials of the provider. They do not depend on the inbound credentials, and where
those were, only the provider's can be. -/
structure ForwardsHeaders (inbound headers : HeaderMap) (authHeader : String)
    (authValue : HeaderValue) (build : HeaderMap → Option HeaderMap) : Prop where
  values : ∀ name, Multimap.values headers name =
    if name = authHeader then [authValue]
    else if name ∈ proxyHeaders then []
    else Multimap.values inbound name
  independent : ∀ inbound' : HeaderMap,
    inbound'.filter (fun h => ¬ isCredential h.1) = inbound.filter (fun h => ¬ isCredential h.1) →
      build inbound' = some headers
  guarded : ∀ name, isCredential name → ∀ value ∈ Multimap.values headers name,
    name = authHeader ∧ value = authValue

def forwarded (inbound : HeaderMap) : HeaderMap := inbound.filter fun h => ¬ isSkipped h.1

variable {fromBytes : String → Option String} {fromStr : String → Option HeaderValue}
variable {provider : ProviderConfig} {authHeader : String} {authValue : HeaderValue}

theorem isSkipped_iff {name : String} : isSkipped name = true ↔ name ∈ proxyHeaders :=
  decide_eq_true_iff

theorem mem_proxyHeaders_of_isCredential {name : String} (h : isCredential name) :
    name ∈ proxyHeaders := by
  simp only [isCredential, proxyHeaders, List.mem_cons, decide_eq_true_eq] at h ⊢
  tauto

theorem forwarded_filter (inbound : HeaderMap) :
    forwarded (inbound.filter fun h => ¬ isCredential h.1) = forwarded inbound := by
  rw [forwarded, forwarded, List.filter_filter]
  refine List.filter_congr fun h _ => ?_
  have hskip := @mem_proxyHeaders_of_isCredential h.1
  rw [← isSkipped_iff] at hskip
  by_cases hc : isCredential h.1 <;> simp_all

theorem foldl_skip (inbound headers : HeaderMap) :
    inbound.foldl (fun headers (name, value) =>
      if isSkipped name then headers else Multimap.insert headers name value) headers =
      Multimap.insertAll headers (forwarded inbound) := by
  rw [Multimap.insertAll, forwarded, List.foldl_filter]
  congr 1
  funext headers h
  by_cases hs : isSkipped h.1 <;> simp [hs]

theorem buildUpstreamHeaders_eq (hname : fromBytes provider.upstreamAuthHeader = some authHeader)
    (hvalue : fromStr (upstreamAuthValue provider) = some authValue) (inbound : HeaderMap) :
    buildUpstreamHeaders fromBytes fromStr provider inbound =
      some (Multimap.insert (Multimap.insertAll [] (forwarded inbound)) authHeader authValue) := by
  rw [buildUpstreamHeaders, foldl_skip, hname, hvalue]
  rfl

theorem values_forwarded (inbound : HeaderMap) (name : String) :
    Multimap.values (forwarded inbound) name =
      if name ∈ proxyHeaders then [] else Multimap.values inbound name := by
  rw [forwarded, @Multimap.values_filter _ _ _ inbound name fun key => decide (¬ isSkipped key)]
  by_cases hs : isSkipped name
  · simp [hs, isSkipped_iff.mp hs]
  · simp [hs, mt isSkipped_iff.mpr hs]

/-- The headers of a request are forwarded as they are exactly if none of those that are forwarded
is sent twice. -/
theorem forwards_headers_iff (hname : fromBytes provider.upstreamAuthHeader = some authHeader)
    (hvalue : fromStr (upstreamAuthValue provider) = some authValue) (inbound : HeaderMap) :
    (∃ headers, buildUpstreamHeaders fromBytes fromStr provider inbound = some headers ∧
      ForwardsHeaders inbound headers authHeader authValue
        (buildUpstreamHeaders fromBytes fromStr provider)) ↔
      ∀ name, name ∉ proxyHeaders → name ≠ authHeader →
        (Multimap.values inbound name).length ≤ 1 := by
  constructor
  · rintro ⟨headers, hbuild, hforwards⟩ name hskip hne
    rw [buildUpstreamHeaders_eq hname hvalue] at hbuild
    have hvalues := hforwards.values name
    rw [← Option.some.inj hbuild, Multimap.values_insert, if_neg hne, if_neg hne, if_neg hskip]
      at hvalues
    have hkept : Multimap.values (forwarded inbound) name = Multimap.values inbound name := by
      rw [values_forwarded, if_neg hskip]
    rw [← hkept] at hvalues ⊢
    exact (Multimap.values_insertAll_nil_iff _).mp hvalues
  · intro hsingle
    refine ⟨_, buildUpstreamHeaders_eq hname hvalue inbound, ?_, ?_, ?_⟩
    · intro name
      rw [Multimap.values_insert, ← values_forwarded]
      split_ifs with hauth
      · rfl
      · refine (Multimap.values_insertAll_nil_iff _).mpr ?_
        rw [values_forwarded]
        split_ifs with hskip
        · exact Nat.zero_le _
        · exact hsingle name hskip hauth
    · intro inbound' hsame
      rw [buildUpstreamHeaders_eq hname hvalue, ← forwarded_filter, hsame, forwarded_filter]
    · intro name hcred value hmem
      have hnone : Multimap.values (forwarded inbound) name = [] := by
        rw [values_forwarded, if_pos (mem_proxyHeaders_of_isCredential hcred)]
      rw [Multimap.values_insert, Multimap.values_insertAll, hnone] at hmem
      split_ifs at hmem with hauth
      · exact ⟨hauth, List.mem_singleton.mp hmem⟩
      · cases hmem

def asciiName (name : String) : Option String :=
  if name.toList.all fun c => c.isAlphanum || c = '-' then
    some (String.ofList (name.toList.map Char.toLower))
  else none

def asciiValue (value : String) : Option HeaderValue :=
  if value.toList.all fun c => 32 ≤ c.toNat ∧ c.toNat < 127 then
    some (value.toList.map fun c => UInt8.ofNat c.toNat)
  else none

def exampleProvider : ProviderConfig where
  baseUrl := "https://host"
  upstreamToken := "t"
  upstreamAuthHeader := "X-Api-Key"
  upstreamAuthScheme := none
  model := none

theorem forwards_headers_iff_single :
    ∃ headers, buildUpstreamHeaders asciiName asciiValue exampleProvider
        [("host", [104]), ("accept", [42]), ("x-api-key", [108])] = some headers ∧
      ForwardsHeaders [("host", [104]), ("accept", [42]), ("x-api-key", [108])] headers
        "x-api-key" [116] (buildUpstreamHeaders asciiName asciiValue exampleProvider) := by
  refine (forwards_headers_iff (by decide +kernel) (by decide +kernel) _).mpr ?_
  intro name hskip _
  rw [Multimap.values_cons, Multimap.values_cons, Multimap.values_cons, Multimap.values_nil]
  split_ifs with hhost hauth haccept <;> simp_all [proxyHeaders]

/-- A header that is sent twice loses its first value. -/
theorem repeated_header_lost : ¬ ∀ (fromBytes : String → Option String)
    (fromStr : String → Option HeaderValue) (provider : ProviderConfig) (authHeader : String)
    (authValue : HeaderValue) (inbound : HeaderMap),
    fromBytes provider.upstreamAuthHeader = some authHeader →
      fromStr (upstreamAuthValue provider) = some authValue →
      ∃ headers, buildUpstreamHeaders fromBytes fromStr provider inbound = some headers ∧
        ForwardsHeaders inbound headers authHeader authValue
          (buildUpstreamHeaders fromBytes fromStr provider) := by
  intro h
  have hforwards := h asciiName asciiValue exampleProvider "x-api-key" [116]
    [("anthropic-beta", [97]), ("anthropic-beta", [98])] (by decide +kernel) (by decide +kernel)
  rw [forwards_headers_iff (by decide +kernel) (by decide +kernel)] at hforwards
  have hsingle := hforwards "anthropic-beta" (by decide +kernel) (by decide +kernel)
  exact absurd hsingle (by decide +kernel)

end DogBot.Proxy
