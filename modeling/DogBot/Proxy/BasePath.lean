import DogBot.Proxy.Targets

/-! # Paths below the base path

A request below the path of the base URL should not get that path once more.
Whether it is below is tested on the texts of the two paths, so a request whose
first segments only begin with the base path loses it.
-/

namespace DogBot.Proxy

/-- The path is the base path or goes on behind it with a new segment. -/
def Below (basePath path : String) : Prop :=
  basePath = "" ∨ path = basePath ∨ Text.startsWith (basePath ++ "/") path = true

instance (basePath path : String) : Decidable (Below basePath path) :=
  inferInstanceAs (Decidable (_ ∨ _))

/-- A request gets the base path exactly if it is not below it. -/
def RespectsSegments (parseUrl : String → Option ParsedUrl) (baseUrl : String) (url : ParsedUrl)
    (pathAndQuery : String) : Prop :=
  let basePath := trimTrailingSlashes url.path
  let origin := trimTrailingSlashes url.cleared
  joinUpstreamUrl parseUrl baseUrl pathAndQuery =
    if Below basePath (beforeQuery pathAndQuery) then origin ++ pathAndQuery
    else origin ++ basePath ++ pathAndQuery

variable {parseUrl : String → Option ParsedUrl} {baseUrl basePath path : String} {url : ParsedUrl}

theorem Below.startsWith (h : Below basePath path) : Text.startsWith basePath path = true := by
  rw [Text.startsWith_iff]
  rcases h with rfl | rfl | h
  · exact List.nil_prefix
  · exact List.prefix_rfl
  · rw [Text.startsWith_iff, String.toList_append] at h
    exact (List.prefix_append _ _).trans h

/-- The base path is put in front of a request exactly as it should be, unless the path of the
request goes on behind the base path within a segment. -/
theorem base_path_respected_iff (hurl : parseUrl baseUrl = some url) (pathAndQuery : String) :
    RespectsSegments parseUrl baseUrl url pathAndQuery ↔
      (Text.startsWith (trimTrailingSlashes url.path) (beforeQuery pathAndQuery) = true →
        Below (trimTrailingSlashes url.path) (beforeQuery pathAndQuery)) := by
  have hslash := trimTrailingSlashes_ne_slash url.path
  rw [RespectsSegments, joinUpstreamUrl_eq hurl]
  generalize trimTrailingSlashes url.path = basePath at hslash
  by_cases hbelow : Below basePath (beforeQuery pathAndQuery)
  · refine iff_of_true ?_ fun _ => hbelow
    rw [if_pos hbelow]
    by_cases hempty : basePath = ""
    · subst hempty
      simp
    · have hdropped : Dropped basePath pathAndQuery := ⟨hempty, hslash, hbelow.startsWith⟩
      rw [if_pos hdropped, String.append_empty]
  · have hne : basePath ≠ "" := fun he => hbelow (.inl he)
    rw [if_neg hbelow]
    by_cases hstart : Text.startsWith basePath (beforeQuery pathAndQuery) = true
    · have hdropped : Dropped basePath pathAndQuery := ⟨hne, hslash, hstart⟩
      rw [if_pos hdropped]
      refine iff_of_false (fun he => hne ?_) fun h => hbelow (h hstart)
      have hlength := congrArg (fun s : String => s.toList.length) he
      simpa [String.toList_append] using hlength
    · rw [if_neg fun hdropped => hstart hdropped.2.2]
      exact iff_of_true rfl fun h => absurd h hstart

theorem base_path_respected_iff_messages :
    RespectsSegments hostUrl "https://host/v1" ⟨"/v1", "https://host/", by decide⟩
      "/v1/messages?beta=true" :=
  (base_path_respected_iff rfl _).mpr fun _ => by decide +kernel

/-- A path that goes on behind the version within its segment loses the base path. -/
theorem version_segment_dropped : ¬ ∀ (parseUrl : String → Option ParsedUrl) (baseUrl : String)
    (url : ParsedUrl) (pathAndQuery : String), parseUrl baseUrl = some url →
      Text.startsWith "/" pathAndQuery = true →
      RespectsSegments parseUrl baseUrl url pathAndQuery := by
  intro h
  have hrespects := h hostUrl "https://host/v1" _ "/v1beta/models" rfl (by decide)
  rw [base_path_respected_iff rfl] at hrespects
  exact absurd (hrespects (by decide +kernel)) (by decide +kernel)

end DogBot.Proxy
