import DogBot.Library.Markers
import DogBot.Platforms.QqIngress
import DogBot.Server.Requests

/-! # Mention markers

The summary of a message shows each mention of another user with a numbered
marker, and the numbers refer to the mentions. The texts of the message are
shown as they are, so that one with a marker in it points to a mention, too.
-/

namespace DogBot

open Text (Markers Blank isWhitespace)

open DogBot.Qq (partText)

def mentionMarkers : Markers Char where
  opening := '['
  closing := ']'
  body k := '#' :: 'm' :: k.repr.toList
  opening_ne_closing := by decide
  opening_not_mem k h := by
    simp only [List.mem_cons, Char.reduceEq, false_or] at h
    exact absurd (Text.isDigit_of_mem_repr h) (by decide)
  closing_not_mem k h := by
    simp only [List.mem_cons, Char.reduceEq, false_or] at h
    exact absurd (Text.isDigit_of_mem_repr h) (by decide)
  body_injective j k h := by
    have hdigits := congrArg Text.digitsValue (List.cons.inj (List.cons.inj h).2).2
    rw [Text.digitsValue_repr, Text.digitsValue_repr] at hdigits
    exact Option.some.inj hdigits

/-- The actor and the display of a mention of somebody else than the bot. -/
def otherMention? (platformAccount : String) : MessagePart → Option (String × String)
  | .mention actorId display => if actorId = platformAccount then none else some (actorId, display)
  | _ => none

/-- The mentions of others, in the order of the message. -/
def otherMentions (platformAccount : String) (parts : List MessagePart) : List (String × String) :=
  parts.filterMap (otherMention? platformAccount)

def mentionRef (mention : String × String) (k : ℕ) : MentionRef where
  refId := "m" ++ toString k
  actorId := mention.1
  display := mention.2

/-- The texts between the markers of a summary; each but the last ends with the display of a
mention. `shown` is the text since the last marker. -/
def stretches (platformAccount : String) (shown : List Char) : List MessagePart → List (List Char)
  | [] => [shown]
  | part :: parts =>
    match otherMention? platformAccount part with
    | some _ => (shown ++ partText part) :: stretches platformAccount [] parts
    | none => stretches platformAccount (shown ++ partText part) parts

/-- The marker occurs once in the text, and the display stands in front of it. -/
def MarkedOnce (marker display text : List Char) : Prop :=
  ∃ before after, text = before ++ marker ++ after ∧ display <:+ before ∧
    ∀ before' after', text = before' ++ marker ++ after' → before' = before

/-- The references are those of the mentions, and where the summary is made from the parts, the
marker of each mention stands behind its display and nowhere else. -/
structure MarkersIdentify (message : CanonicalMessage) (platformAccount : String) : Prop where
  refs : (renderTriggerSummaryWithRefs message platformAccount).2 =
    ((otherMentions platformAccount message.parts).zipIdx 1).map fun p => mentionRef p.1 p.2
  markers : Text.trim (message.parts.foldl (renderTriggerPart platformAccount) ("", [])).1 ≠ "" →
    ∀ i mention, (otherMentions platformAccount message.parts)[i]? = some mention →
      MarkedOnce ("[#" ++ (mentionRef mention (i + 1)).refId ++ "]").toList mention.2.toList
        (renderTriggerSummaryWithRefs message platformAccount).1.toList

/-- No text between the markers has one of them, and trimming does not cut the display of the
first mention. -/
structure Unambiguous (platformAccount : String) (parts : List MessagePart) : Prop where
  unmarked : ∀ i < (otherMentions platformAccount parts).length,
    ∀ text ∈ stretches platformAccount [] parts, ¬ mentionMarkers.marker (1 + i) <:+: text
  uncut : ∀ before actorId display after, parts = before ++ .mention actorId display :: after →
    actorId ≠ platformAccount → otherMentions platformAccount before = [] →
    Blank (before.flatMap partText) → ∀ c ∈ display.toList.head?, isWhitespace c = false

variable {platformAccount summary actorId display : String} {part : MessagePart}
  {parts before after : List MessagePart} {message : CanonicalMessage} {refs : List MentionRef}
  {shown : List Char} {mention : String × String} {i k : ℕ}

theorem marker_toList (mention : String × String) (k : ℕ) :
    ("[#" ++ (mentionRef mention k).refId ++ "]").toList =
    mentionMarkers.marker k := by
  simp [mentionRef, Markers.marker, mentionMarkers, toString]

section Rendering

theorem otherMention?_eq_some_iff : otherMention? platformAccount part = some mention ↔
    part = .mention mention.1 mention.2 ∧ mention.1 ≠ platformAccount := by
  cases part with
  | mention actorId display =>
    obtain ⟨actor, shown⟩ := mention
    simp only [otherMention?, Option.ite_none_left_eq_some, Option.some.injEq, Prod.mk.injEq,
      MessagePart.mention.injEq]
    constructor
    · rintro ⟨hne, rfl, rfl⟩
      exact ⟨⟨rfl, rfl⟩, hne⟩
    · rintro ⟨⟨rfl, rfl⟩, hne⟩
      exact ⟨hne, rfl, rfl⟩
  | _ => simp [otherMention?]

theorem length_stretches : (stretches platformAccount shown parts).length =
    (otherMentions platformAccount parts).length + 1 := by
  induction parts generalizing shown with
  | nil => rfl
  | cons part parts ih =>
    rw [stretches, otherMentions, List.filterMap_cons]
    cases otherMention? platformAccount part with
    | none => exact ih
    | some mention => exact congrArg (· + 1) ih

theorem stretches_ne_nil (platformAccount : String) (shown : List Char)
    (parts : List MessagePart) : stretches platformAccount shown parts ≠ [] :=
  List.ne_nil_of_length_pos (length_stretches ▸ Nat.succ_pos _)

theorem renderTriggerPart_of_none (rendered : String × List MentionRef)
    (h : otherMention? platformAccount part = none) :
    (renderTriggerPart platformAccount rendered part).1.toList =
        rendered.1.toList ++ partText part ∧
      (renderTriggerPart platformAccount rendered part).2 = rendered.2 := by
  cases part with
  | mention actorId display =>
    simp only [otherMention?, ite_eq_left_iff, reduceCtorEq, imp_false, not_not] at h
    simp [renderTriggerPart, partText, h]
  | _ => simp [renderTriggerPart, partText]

theorem renderTriggerPart_of_some (rendered : String × List MentionRef)
    (h : otherMention? platformAccount part = some mention) :
    (renderTriggerPart platformAccount rendered part).1.toList = rendered.1.toList ++
        partText part ++ mentionMarkers.marker (rendered.2.length + 1) ∧
      (renderTriggerPart platformAccount rendered part).2 =
        rendered.2 ++ [mentionRef mention (rendered.2.length + 1)] := by
  obtain ⟨rfl, hne⟩ := otherMention?_eq_some_iff.mp h
  rw [renderTriggerPart, if_neg hne, ← marker_toList mention]
  refine ⟨?_, rfl⟩
  simp only [mentionRef, String.toList_append, partText, List.append_assoc]

/-- The summary is the texts with the markers between them. -/
theorem foldl_renderTriggerPart (platformAccount : String) (parts : List MessagePart)
    {rendered : String × List MentionRef} {text : List Char}
    (h : rendered.1.toList = text ++ shown) :
    (parts.foldl (renderTriggerPart platformAccount) rendered).1.toList = text ++
        mentionMarkers.marked (rendered.2.length + 1) (stretches platformAccount shown parts) ∧
      (parts.foldl (renderTriggerPart platformAccount) rendered).2 = rendered.2 ++
        ((otherMentions platformAccount parts).zipIdx (rendered.2.length + 1)).map
          fun p => mentionRef p.1 p.2 := by
  induction parts generalizing rendered text shown with
  | nil => exact ⟨h, (List.append_nil _).symm⟩
  | cons part parts ih =>
    rw [List.foldl_cons, stretches, otherMentions, List.filterMap_cons]
    cases hpart : otherMention? platformAccount part with
    | none =>
      obtain ⟨htext, hrefs⟩ := renderTriggerPart_of_none rendered hpart
      have htext' := htext.trans ((congrArg (· ++ partText part) h).trans (List.append_assoc ..))
      have hrest := ih htext'
      rwa [hrefs] at hrest
    | some mention =>
      obtain ⟨htext, hrefs⟩ := renderTriggerPart_of_some rendered hpart
      obtain ⟨hsummary, hall⟩ := ih (show _ = _ ++ [] from (List.append_nil _).symm)
      rw [hrefs, List.length_append, List.length_singleton] at hsummary hall
      constructor
      · rw [hsummary, htext, h, Markers.marked_cons (stretches_ne_nil _ _ _)]
        simp only [List.append_assoc]
      · rw [hall, List.zipIdx_cons, List.map_cons, List.append_assoc]
        rfl

end Rendering

section Displays

theorem exists_stretch (shown : List Char)
    (h : (otherMentions platformAccount parts)[i]? = some mention) :
    ∃ text, (stretches platformAccount shown parts)[i]? = some text ∧
      mention.2.toList <:+ text := by
  induction parts generalizing shown i with
  | nil => cases h
  | cons part parts ih =>
    rw [otherMentions, List.filterMap_cons] at h
    rw [stretches]
    cases hpart : otherMention? platformAccount part with
    | none =>
      rw [hpart] at h
      exact ih _ h
    | some first =>
      rw [hpart] at h
      cases i with
      | zero =>
        obtain rfl := Option.some.inj h
        obtain ⟨rfl, -⟩ := otherMention?_eq_some_iff.mp hpart
        exact ⟨_, rfl, List.suffix_append ..⟩
      | succ i => exact ih _ h

theorem stretches_append (hbefore : otherMentions platformAccount before = [])
    (hactor : actorId ≠ platformAccount) :
    stretches platformAccount shown (before ++ .mention actorId display :: after) =
      (shown ++ before.flatMap partText ++ display.toList) ::
        stretches platformAccount [] after := by
  induction before generalizing shown with
  | nil => simp [stretches, otherMention?, hactor, partText]
  | cons part before ih =>
    rw [otherMentions, List.filterMap_cons] at hbefore
    cases hpart : otherMention? platformAccount part with
    | none =>
      rw [hpart] at hbefore
      rw [List.cons_append, stretches, hpart]
      change stretches _ (shown ++ partText part) _ = _
      rw [ih hbefore, List.flatMap_cons]
      simp only [List.append_assoc]
    | some mention =>
      rw [hpart] at hbefore
      cases hbefore

theorem exists_first (h : (otherMentions platformAccount parts)[0]? = some mention) :
    ∃ before after, parts = before ++ .mention mention.1 mention.2 :: after ∧
      mention.1 ≠ platformAccount ∧ otherMentions platformAccount before = [] := by
  obtain ⟨rest, hrest⟩ : ∃ rest, otherMentions platformAccount parts = mention :: rest := by
    rw [← List.head?_eq_getElem?] at h
    exact List.head?_eq_some_iff.mp h
  obtain ⟨before, part, after, rfl, hbefore, hpart, -⟩ := List.filterMap_eq_cons_iff.mp hrest
  obtain ⟨rfl, hne⟩ := otherMention?_eq_some_iff.mp hpart
  exact ⟨before, after, rfl, hne, List.filterMap_eq_nil_iff.mpr hbefore⟩

/-- Trimming leaves the display in front of each marker whole exactly if it does not cut that of
the first mention. -/
theorem suffix_front_iff :
    (∀ i mention, (otherMentions platformAccount parts)[i]? = some mention →
      mention.2.toList <:+ (mentionMarkers.front 1 i
        (stretches platformAccount [] parts)).dropWhile isWhitespace) ↔
      ∀ before actorId display after, parts = before ++ .mention actorId display :: after →
        actorId ≠ platformAccount → otherMentions platformAccount before = [] →
        Blank (before.flatMap partText) →
        ∀ c ∈ display.toList.head?, isWhitespace c = false := by
  constructor
  · rintro h before actorId display after rfl hactor hbefore
    have hfirst : (otherMentions platformAccount
        (before ++ .mention actorId display :: after))[0]? = some (actorId, display) := by
      rw [otherMentions, List.filterMap_append, ← otherMentions, hbefore]
      simp [otherMention?, hactor]
    have hsuffix := h 0 (actorId, display) hfirst
    rw [stretches_append hbefore hactor] at hsuffix
    exact Text.suffix_dropWhile_iff.mp hsuffix
  · intro h i mention hmention
    cases i with
    | zero =>
      obtain ⟨before, after, rfl, hne, hbefore⟩ := exists_first hmention
      rw [stretches_append hbefore hne]
      exact Text.suffix_dropWhile_iff.mpr (h before _ _ after rfl hne hbefore)
    | succ i =>
      -- The marker of the first mention is visible.
      obtain ⟨text, htext, hsuffix⟩ := exists_stretch [] hmention
      obtain ⟨first, rest, hstretches⟩ := List.exists_cons_of_ne_nil
        (stretches_ne_nil platformAccount [] parts)
      rw [hstretches] at htext ⊢
      obtain ⟨z, hz⟩ := hsuffix.trans (@Markers.suffix_front _ mentionMarkers i 2 text rest htext)
      have hfront : mentionMarkers.front 1 (i + 1) (first :: rest) =
          first ++ mentionMarkers.marker 1 ++ z ++ mention.2.toList := by
        rw [List.append_assoc _ z, hz, Markers.front]
      rw [hfront]
      refine Text.suffix_dropWhile_iff.mpr fun hblank => ?_
      exact absurd (Text.blank_iff.mp hblank '[' (by simp [Markers.marker, mentionMarkers]))
        (by decide)

end Displays

section Identify

/-- What is left of the texts and markers when they are trimmed. -/
theorem markedOnce_iff {texts : List (List Char)} {display : List Char}
    (hi : i + 1 < texts.length) :
    MarkedOnce (mentionMarkers.marker (1 + i)) display
        (Text.trimChars (mentionMarkers.marked 1 texts)) ↔
      (∀ text ∈ texts, ¬ mentionMarkers.marker (1 + i) <:+: text) ∧
        display <:+ (mentionMarkers.front 1 i texts).dropWhile isWhitespace := by
  obtain ⟨back, hback⟩ := Markers.front_append_prefix (M := mentionMarkers) (k := 1) hi
  have hopen : isWhitespace mentionMarkers.opening = false := by decide
  have hclose : isWhitespace mentionMarkers.closing = false := by decide
  have htrim : Text.trimChars (mentionMarkers.marked 1 texts) =
      (mentionMarkers.front 1 i texts).dropWhile isWhitespace ++
        mentionMarkers.marker (1 + i) ++ back.rdropWhile isWhitespace := by
    rw [← hback]
    exact Text.trimChars_append_append hopen hclose _ _ back
  have hunique : (∀ x y, Text.trimChars (mentionMarkers.marked 1 texts) =
      x ++ mentionMarkers.marker (1 + i) ++ y →
        x = (mentionMarkers.front 1 i texts).dropWhile isWhitespace) ↔
      ∀ text ∈ texts, ¬ mentionMarkers.marker (1 + i) <:+: text :=
    (Text.eq_dropWhile_iff hopen hclose hback.symm).trans Markers.eq_front_iff
  rw [← hunique]
  constructor
  · rintro ⟨before, after, -, hsuffix, hbefore⟩
    have hfront := hbefore _ _ htrim
    rw [hfront]
    exact ⟨fun x y hxy => hbefore x y hxy, hsuffix⟩
  · rintro ⟨hbefore, hsuffix⟩
    exact ⟨_, _, htrim, hsuffix, hbefore⟩

theorem trim_ne_empty {texts : List (List Char)} (hi : i + 1 < texts.length)
    (h : summary.toList = mentionMarkers.marked 1 texts) : Text.trim summary ≠ "" := by
  obtain ⟨back, hback⟩ := Markers.front_append_prefix (M := mentionMarkers) (k := 1) hi
  rw [ne_eq, Text.trim_eq_empty_iff, h, ← hback, Text.visibleChars, List.filter_eq_nil_iff]
  exact fun hall => hall '[' (by simp [Markers.marker, mentionMarkers]) (by decide)

theorem markedOnce_summary_iff (message : CanonicalMessage) (platformAccount : String) {i : ℕ}
    {mention : String × String}
    (hmention : (otherMentions platformAccount message.parts)[i]? = some mention) :
    Text.trim (message.parts.foldl (renderTriggerPart platformAccount) ("", [])).1 ≠ "" ∧
      (MarkedOnce ("[#" ++ (mentionRef mention (i + 1)).refId ++ "]").toList
          mention.2.toList (renderTriggerSummaryWithRefs message platformAccount).1.toList ↔
        (∀ text ∈ stretches platformAccount [] message.parts,
          ¬ mentionMarkers.marker (1 + i) <:+: text) ∧
        mention.2.toList <:+ (mentionMarkers.front 1 i
          (stretches platformAccount [] message.parts)).dropWhile isWhitespace) := by
  obtain ⟨hsummary, -⟩ := foldl_renderTriggerPart platformAccount message.parts
    (show ("", ([] : List MentionRef)).1.toList = [] ++ [] from rfl)
  obtain ⟨hi, -⟩ := List.getElem?_eq_some_iff.mp hmention
  have hlen : i + 1 < (stretches platformAccount [] message.parts).length := by
    rw [length_stretches]
    omega
  have hvisible := trim_ne_empty hlen hsummary
  refine ⟨hvisible, ?_⟩
  rw [← markedOnce_iff hlen, marker_toList, Nat.add_comm i, renderTriggerSummaryWithRefs]
  dsimp only
  rw [if_neg hvisible, Text.trim, String.toList_ofList, hsummary]
  rfl

/-- The markers identify their mentions exactly in the messages that are not ambiguous. -/
theorem markersIdentify_iff (message : CanonicalMessage) (platformAccount : String) :
    MarkersIdentify message platformAccount ↔ Unambiguous platformAccount message.parts := by
  obtain ⟨-, hrefs⟩ := foldl_renderTriggerPart platformAccount message.parts
    (show ("", ([] : List MentionRef)).1.toList = [] ++ [] from rfl)
  constructor
  · rintro ⟨-, hmarkers⟩
    refine ⟨fun i hi => ?_, suffix_front_iff.mp fun i mention hmention => ?_⟩
    · obtain ⟨hvisible, hiff⟩ := markedOnce_summary_iff message platformAccount
        (List.getElem?_eq_getElem hi)
      exact (hiff.mp (hmarkers hvisible i _ (List.getElem?_eq_getElem hi))).1
    · obtain ⟨hvisible, hiff⟩ := markedOnce_summary_iff message platformAccount hmention
      exact (hiff.mp (hmarkers hvisible i mention hmention)).2
  · rintro ⟨hunmarked, huncut⟩
    refine ⟨?_, fun _ i mention hmention => ?_⟩
    · rw [renderTriggerSummaryWithRefs]
      dsimp only
      split_ifs <;> exact hrefs
    · obtain ⟨hi, -⟩ := List.getElem?_eq_some_iff.mp hmention
      exact (markedOnce_summary_iff message platformAccount hmention).2.mpr
        ⟨hunmarked i hi, suffix_front_iff.mpr huncut i mention hmention⟩

def spelledOutMessage : CanonicalMessage where
  messageId := "1"
  replyTo := none
  parts := [.mention "qq:bot_uin:123" "@123", .text " [#m1] ", .mention "qq:user:77" "@77"]
  mentions := ["qq:bot_uin:123", "qq:user:77"]
  nativeMetadata := .null

/-- A text that spells out a marker points to the mention, too. -/
theorem markers_do_not_identify : ¬ ∀ (message : CanonicalMessage) (platformAccount : String),
    MarkersIdentify message platformAccount := by
  intro h
  have hsummary : (renderTriggerSummaryWithRefs spelledOutMessage "qq:bot_uin:123").1 =
      "@123 [#m1] @77[#m1]" := by decide +kernel
  obtain ⟨before, after, -, -, hunique⟩ := (h spelledOutMessage "qq:bot_uin:123").markers
    (by decide +kernel) 0 ("qq:user:77", "@77") rfl
  rw [hsummary] at hunique
  have hspelled := hunique "@123 ".toList " @77[#m1]".toList (by decide +kernel)
  have hmarked := hunique "@123 [#m1] @77".toList [] (by decide +kernel)
  exact absurd (hspelled.trans hmarked.symm) (by decide +kernel)

end Identify

end DogBot
