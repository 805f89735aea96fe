import DogBot.Library.Cq
import DogBot.Platforms.Qq
import DogBot.TriggerResolver

/-! # Inbound QQ messages

A message that comes as an array of segments and as the CQ text of the array.
The array is read where it mentions somebody, and then its text is what the
segments say. Otherwise the CQ text is read: entities stay in the text, and of
the codes only replies are dropped. Mentions of the bot are found in either case,
and no text is read as one.
-/

namespace DogBot.Qq

open Json
open Cq (Token)

/-- The text of a parameter: a string is written as it is, and a number as it is printed. -/
def paramText : Value → Option String
  | .string text => some text
  | .number (.int n) => some (toString n)
  | .number (.float literal) => some literal
  | .null | .bool _ | .array _ | .object _ => none

/-- What a segment is in CQ text: the parameters of a code are the members of its data, in any
order. -/
inductive SegmentOf (segment : Value) : Token → Prop
  | text {content : String} : segment.get "type" = some (.string "text") →
      ((segment.get "data").getD .null).get "text" = some (.string content) →
      SegmentOf segment (.text content.toList)
  | code {name : String} {params : List (List Char × List Char)} :
      segment.get "type" = some (.string name) → name ≠ "text" →
      (∀ key : String, params.lookup key.toList =
        ((((segment.get "data").getD .null).get key).bind paramText).map String.toList) →
      SegmentOf segment (.code name.toList params)

/-- A payload with a message as an array of segments and as their CQ text. -/
structure Carries (payload : Value) (ts : List Token) : Prop where
  message : ∃ segments, payload.get "message" = some (.array segments) ∧
    List.Forall₂ SegmentOf segments ts
  rawMessage : payload.get "raw_message" = some (.string (String.ofList (Cq.encode ts)))
  wellFormed : ∀ t ∈ ts, t.WellFormed

def mention? : Token → Option (List Char)
  | .text _ => none
  | .code name params => if name = "at".toList then params.lookup "qq".toList else none

/-- What a token contributes to the text of a message. -/
def plainText (t : Token) : List Char :=
  match t with
  | .text content => content
  | t => ((mention? t).map ('@' :: ·)).getD []

def partText : MessagePart → List Char
  | .text text => text.toList
  | .mention _ display => display.toList
  | _ => []

/-- A token that is read from CQ text as it is read from a segment: a text without special
characters, or a reply that begins with its id. -/
def ReadAlike : Token → Prop
  | .text content => ∀ c ∈ content, c ≠ '&' ∧ c ≠ '[' ∧ c ≠ ']'
  | t => t.Opens "reply".toList "id".toList

instance : DecidablePred ReadAlike
  | .text content => List.decidableBAll _ content
  | .code name params =>
    inferInstanceAs (Decidable ((Token.code name params).Opens "reply".toList "id".toList))

variable {payload segment : Value} {segments : List Value} {ts : List Token} {t : Token}
  {platformAccount botUin rawMessage : String} {event : CanonicalEvent}
  {message : CanonicalMessage} {parts : List MessagePart}

theorem projectPlainText_toList :
    message.projectPlainText.toList = message.parts.flatMap partText := by
  rw [CanonicalMessage.projectPlainText, Text.toList_intercalate_empty]
  induction message.parts with
  | nil => rfl
  | cons part parts ih =>
    rw [List.flatMap_cons, ← ih]
    cases part <;> rfl

section Array

theorem stringValue_eq_paramText (value : Value) : stringValue value = paramText value := by
  cases value with
  | number n => cases n <;> rfl
  | _ => rfl

theorem parseSegment_eq (h : SegmentOf segment t) :
    parseSegment platformAccount botUin segment =
      match t with
      | .text content => some (.text (String.ofList content))
      | t => (mention? t).map fun qq =>
          mentionPart platformAccount botUin (String.ofList qq) := by
  cases h with
  | text htype htext =>
    simp [parseSegment, htype, htext, Value.asStr]
  | @code name params htype hname hparams =>
    have hat : name.toList = "at".toList ↔ name = "at" := String.toList_inj
    simp only [parseSegment, htype, Option.bind_some, Value.asStr, if_neg hname, mention?, hat]
    split_ifs with h
    · rw [hparams "qq", Option.map_map, funext stringValue_eq_paramText]
      simp [Function.comp_def]
    · rfl

theorem partText_mentionPart (qq : String) :
    partText (mentionPart platformAccount botUin qq) = '@' :: qq.toList := by
  simp [partText, mentionPart]

theorem parseSegments_text (h : List.Forall₂ SegmentOf segments ts) :
    (segments.filterMap (parseSegment platformAccount botUin)).flatMap partText =
      ts.flatMap plainText := by
  induction h with
  | nil => rfl
  | @cons segment t segments ts hs _ ih =>
    rw [List.filterMap_cons, parseSegment_eq hs, List.flatMap_cons, ← ih]
    cases t with
    | text content => simp [plainText, partText]
    | code name params =>
      simp only [plainText]
      cases mention? (.code name params) with
      | none => rfl
      | some qq => simp [partText_mentionPart]

theorem parseSegments_mentions (h : List.Forall₂ SegmentOf segments ts) :
    (segments.filterMap (parseSegment platformAccount botUin)).filterMap mentionedActor =
      (ts.filterMap mention?).map fun qq => if String.ofList qq = botUin then platformAccount
        else normalizeActorId (String.ofList qq) "qq:user:" := by
  induction h with
  | nil => rfl
  | @cons segment t segments ts hs _ ih =>
    rw [List.filterMap_cons, parseSegment_eq hs]
    cases t with
    | text content => exact ih
    | code name params =>
      cases hm : mention? (.code name params) with
      | none => simpa [hm] using ih
      | some qq => simpa [hm, mentionPart, mentionedActor] using ih

end Array

section RawMessage

theorem stripReplyTokens_of_none {remaining : List Char}
    (h : Text.splitOnceChars "[CQ:reply,id=".toList remaining = none) :
    stripReplyTokens remaining = remaining := by
  unfold stripReplyTokens
  split
  · rfl
  · rename_i hs
    cases h.symm.trans hs

theorem stripReplyTokens_of_some {remaining before after id rest : List Char}
    (h : Text.splitOnceChars "[CQ:reply,id=".toList remaining = some (before, after))
    (hend : Text.splitOnceChars [']'] after = some (id, rest)) :
    stripReplyTokens remaining = before ++ stripReplyTokens rest := by
  conv_lhs => unfold stripReplyTokens
  split
  · rename_i hs
    cases h.symm.trans hs
  · rename_i hs
    obtain ⟨rfl, rfl⟩ := Text.found_unique h hs
    split
    · rename_i he
      cases hend.symm.trans he
    · rename_i he
      obtain ⟨rfl, rfl⟩ := Text.found_unique hend he
      rfl

theorem parseRawMessageParts_of_none {remaining : List Char}
    (h : Text.splitOnceChars "[CQ:at,qq=".toList remaining = none) :
    parseRawMessageParts platformAccount botUin remaining =
      textPart (stripReplyTokens remaining) := by
  unfold parseRawMessageParts
  split
  · rfl
  · rename_i hs
    cases h.symm.trans hs

/-- Of the codes, those that begin as replies do are dropped. -/
theorem stripReplyTokens_encode (h : ∀ t ∈ ts, t.WellFormed) :
    stripReplyTokens (Cq.encode ts) =
      Cq.encode (ts.filter fun t => ¬ t.Opens "reply".toList "id".toList) := by
  have hname : Cq.Plain "reply".toList := by decide
  have hkey : Cq.Plain "id".toList := by decide
  induction hn : ts.length using Nat.strong_induction_on generalizing ts with
  | _ n ih =>
    subst hn
    cases hfind : ts.find? fun t => t.Opens "reply".toList "id".toList with
    | none =>
      have hno : ∀ t ∈ ts, ¬ t.Opens "reply".toList "id".toList := fun t ht ho =>
        absurd (decide_eq_true ho) (List.find?_eq_none.mp hfind t ht)
      rw [List.filter_eq_self.mpr fun t ht => decide_eq_true (hno t ht)]
      exact stripReplyTokens_of_none (Cq.splitOnce_encode_eq_none hname hkey h hno)
    | some t =>
      obtain ⟨ho, xs, ys, rfl, hxs⟩ := List.find?_eq_some_iff_append.mp hfind
      have ho' := of_decide_eq_true ho
      have hno : ∀ x ∈ xs, ¬ x.Opens "reply".toList "id".toList := fun x hx =>
        of_decide_eq_false ((Bool.not_eq_true' _).mp (hxs x hx))
      obtain ⟨hx, ht, hy⟩ : (∀ x ∈ xs, x.WellFormed) ∧ t.WellFormed ∧ ∀ y ∈ ys, y.WellFormed := by
        rwa [List.forall_mem_append, List.forall_mem_cons] at h
      obtain ⟨value, hvalue, hclose⟩ := Cq.splitOnce_opens (l := Cq.encode ys) ht ho'
      have hencode : Cq.encode (xs ++ t :: ys) = Cq.encode xs ++ (t.encode ++ Cq.encode ys) := by
        simp [Cq.encode]
      have hstart : Text.splitOnceChars "[CQ:reply,id=".toList (Cq.encode (xs ++ t :: ys)) =
          some (Cq.encode xs, value ++ ']' :: Cq.encode ys) := by
        have hsplit := Cq.splitOnce_encode (l := t.encode ++ Cq.encode ys) hname hkey hx hno
        rw [hvalue, Option.map_some, List.append_nil] at hsplit
        rw [hencode]
        exact hsplit
      have hend := @Text.splitOnceChars_append ']' value (Cq.encode ys) [] hclose
      rw [List.append_assoc, List.singleton_append] at hend
      have hdrop : decide (¬ t.Opens "reply".toList "id".toList) = false :=
        decide_eq_false (not_not_intro ho')
      have hfilter : (xs ++ t :: ys).filter (fun t => ¬ t.Opens "reply".toList "id".toList) =
          xs ++ ys.filter fun t => ¬ t.Opens "reply".toList "id".toList := by
        rw [List.filter_append, List.filter_eq_self.mpr fun x hx => decide_eq_true (hno x hx),
          List.filter_cons_of_neg (by rw [hdrop]; exact Bool.false_ne_true)]
      rw [stripReplyTokens_of_some hstart hend, hfilter,
        ih ys.length (by simp only [List.length_append, List.length_cons]; omega) hy rfl]
      exact List.flatMap_append.symm

theorem parseRawMessageParts_encode (h : ∀ t ∈ ts, t.WellFormed)
    (hno : ∀ t ∈ ts, mention? t = none) :
    parseRawMessageParts platformAccount botUin (Cq.encode ts) =
      textPart (Cq.encode (ts.filter fun t => ¬ t.Opens "reply".toList "id".toList)) := by
  have hat : ∀ t ∈ ts, ¬ t.Opens "at".toList "qq".toList := by
    intro t ht ho
    have hnone := hno t ht
    cases t with
    | text content => exact ho
    | code name params =>
      obtain ⟨rfl, hkey⟩ := ho
      cases params with
      | nil => cases hkey
      | cons p params =>
        obtain ⟨key, value⟩ := p
        obtain rfl := Option.some.inj hkey
        simp [mention?] at hnone
  rw [← stripReplyTokens_encode h]
  exact parseRawMessageParts_of_none
    (Cq.splitOnce_encode_eq_none (by decide) (by decide) h hat)

end RawMessage

section Decoded

/-- What a token of a message without mentions contributes to the text when it is read from CQ
text. -/
def rawText (t : Token) : List Char := if t.Opens "reply".toList "id".toList then [] else t.encode

theorem encode_filter : Cq.encode (ts.filter fun t => ¬ t.Opens "reply".toList "id".toList) =
    ts.flatMap rawText := by
  induction ts with
  | nil => rfl
  | cons t ts ih =>
    rw [List.flatMap_cons, ← ih, rawText]
    split_ifs with ho
    · rw [List.filter_cons_of_neg (by simpa using ho), List.nil_append]
    · rw [List.filter_cons_of_pos (by simpa using ho)]
      rfl

theorem length_plainText_le (hno : mention? t = none) :
    (plainText t).length ≤ (rawText t).length := by
  cases t with
  | text content => exact Cq.length_le_escape content
  | code name params => simp [plainText, hno]

theorem rawText_eq_iff (hno : mention? t = none) : rawText t = plainText t ↔ ReadAlike t := by
  cases t with
  | text content => exact Cq.escape_eq_self_iff
  | code name params =>
    simp only [plainText, hno, rawText, ReadAlike, Option.map_none, Option.getD_none]
    split_ifs with ho
    · exact iff_of_true rfl ho
    · exact iff_of_false (by simp [Token.encode, Cq.bracket]) ho

variable (hcarries : Carries payload ts)
include hcarries

theorem Carries.messageParts_of_mention (h : ∃ t ∈ ts, mention? t ≠ none) :
    ∃ segments, List.Forall₂ SegmentOf segments ts ∧
      messageParts payload platformAccount botUin rawMessage =
        segments.filterMap (parseSegment platformAccount botUin) := by
  obtain ⟨segments, hmessage, hsegments⟩ := hcarries.message
  refine ⟨segments, hsegments, ?_⟩
  have hmentions : (segments.filterMap (parseSegment platformAccount botUin)).filterMap
      mentionedActor ≠ [] := by
    rw [parseSegments_mentions hsegments]
    obtain ⟨t, ht, hsome⟩ := h
    obtain ⟨qq, hqq⟩ := Option.ne_none_iff_exists'.mp hsome
    have hmem : qq ∈ ts.filterMap mention? := List.mem_filterMap.mpr ⟨t, ht, hqq⟩
    exact List.ne_nil_of_mem (List.mem_map_of_mem hmem)
  simp only [messageParts, parseMessageParts, hmessage, Option.bind_some, Value.asArray]
  rw [if_neg hmentions]

/-- A message without mentions is read from CQ text, or it is empty. -/
theorem Carries.messageParts_of_none (h : ∀ t ∈ ts, mention? t = none)
    (hraw : rawMessage.toList = Cq.encode ts) :
    (messageParts payload platformAccount botUin rawMessage).filterMap mentionedActor = [] ∧
      (messageParts payload platformAccount botUin rawMessage).flatMap partText =
        ts.flatMap rawText := by
  obtain ⟨segments, hmessage, hsegments⟩ := hcarries.message
  have hmentions : (segments.filterMap (parseSegment platformAccount botUin)).filterMap
      mentionedActor = [] := by
    rw [parseSegments_mentions hsegments, List.filterMap_eq_nil_iff.mpr h, List.map_nil]
  have hfallback := @parseRawMessageParts_encode ts platformAccount botUin hcarries.wellFormed h
  rw [encode_filter, ← hraw] at hfallback
  simp only [messageParts, parseMessageParts, hmessage, Option.bind_some, Value.asArray,
    hfallback, textPart]
  rw [if_pos hmentions]
  by_cases hempty : ts.flatMap rawText = []
  · have hplain : ts.flatMap plainText = [] := by
      apply List.flatMap_eq_nil_iff.mpr
      intro t ht
      have hle := length_plainText_le (h t ht)
      rw [List.flatMap_eq_nil_iff.mp hempty t ht] at hle
      exact List.eq_nil_of_length_eq_zero (Nat.le_zero.mp hle)
    simp only [hempty, if_true, ne_eq, not_true_eq_false, if_false]
    exact ⟨hmentions, (parseSegments_text hsegments).trans hplain⟩
  · simp [hempty, mentionedActor, partText]

end Decoded

section Events

theorem Carries.rawMessage_toList (hcarries : Carries payload ts) :
    (((payload.get "raw_message").bind Value.asStr).getD "").toList = Cq.encode ts := by
  rw [hcarries.rawMessage]
  exact String.toList_ofList

theorem mentions_cases (ts : List Token) :
    (∃ t ∈ ts, mention? t ≠ none) ∨ ∀ t ∈ ts, mention? t = none := by
  by_cases h : ∃ t ∈ ts, mention? t ≠ none
  · exact .inl h
  · push Not at h
    exact .inr h

/-- The text of a decoded message is that of its segments exactly if a segment mentions somebody,
or if every segment is a text without special characters or a reply that begins with its id. -/
theorem plain_text_agrees_iff (hcarries : Carries payload ts)
    (h : decodeNapcatEvent payload platformAccount = some event)
    (hkind : event.kind = .message message) :
    message.projectPlainText.toList = ts.flatMap plainText ↔
      (∃ t ∈ ts, mention? t ≠ none) ∨ ∀ t ∈ ts, ReadAlike t := by
  obtain ⟨message', hkind', -, hparts, -, -⟩ := decodeNapcatEvent_eq_some h
  obtain rfl := EventKind.message.inj (hkind'.symm.trans hkind)
  rw [projectPlainText_toList, hparts]
  rcases mentions_cases ts with hsome | hnone
  · obtain ⟨segments, hsegments, hread⟩ := hcarries.messageParts_of_mention hsome
    rw [hread]
    exact iff_of_true (parseSegments_text hsegments) (.inl hsome)
  · have hno : ¬ ∃ t ∈ ts, mention? t ≠ none := by
      rintro ⟨t, ht, hsome⟩
      exact hsome (hnone t ht)
    rw [(hcarries.messageParts_of_none hnone hcarries.rawMessage_toList).2,
      Text.flatMap_eq_flatMap_iff fun t ht => length_plainText_le (hnone t ht), or_iff_right hno]
    exact forall₂_congr fun t ht => rawText_eq_iff (hnone t ht)

def textSegment (text : String) : Value :=
  .object [("type", .string "text"), ("data", .object [("text", .string text)])]

def codeSegment (name key value : String) : Value :=
  .object [("type", .string name), ("data", .object [(key, .string value)])]

theorem segmentOf_text (text : String) : SegmentOf (textSegment text) (.text text.toList) :=
  .text rfl rfl

theorem segmentOf_code {name : String} (hname : name ≠ "text") (key value : String) :
    SegmentOf (codeSegment name key value) (.code name.toList [(key.toList, value.toList)]) := by
  apply SegmentOf.code rfl hname
  intro key'
  change [(key.toList, value.toList)].lookup key'.toList =
    (([(key, Value.string value)].lookup key').bind paramText).map String.toList
  by_cases he : key' = key
  · subst he
    simp [paramText]
  · have hl : key'.toList ≠ key.toList := mt String.toList_inj.mp he
    rw [List.lookup_cons, List.lookup_cons, beq_false_of_ne he, beq_false_of_ne hl]
    rfl

/-- A group message with an array of segments and their CQ text. -/
def groupPayload (segments : List Value) (rawMessage : String) : Value :=
  .object [("post_type", .string "message"), ("message_type", .string "group"),
    ("user_id", .number (.int 7)), ("message_id", .number (.int 1)),
    ("group_id", .number (.int 5)), ("message", .array segments),
    ("raw_message", .string rawMessage)]

theorem carries_groupPayload (h : List.Forall₂ SegmentOf segments ts)
    (hwf : ∀ t ∈ ts, t.WellFormed) :
    Carries (groupPayload segments (String.ofList (Cq.encode ts))) ts :=
  ⟨⟨segments, rfl, h⟩, rfl, hwf⟩

theorem plain_text_agrees_iff_reply : ∃ event message,
    decodeNapcatEvent (groupPayload [codeSegment "reply" "id" "3", textSegment "hello"]
      "[CQ:reply,id=3]hello") "qq:bot_uin:9" = some event ∧
    event.kind = .message message ∧ message.projectPlainText.toList = "hello".toList := by
  have hcarries := carries_groupPayload
    (.cons (segmentOf_code (by decide : "reply" ≠ "text") "id" "3")
      (.cons (segmentOf_text "hello") .nil)) (by simp [Token.WellFormed]; decide)
  obtain ⟨event, h⟩ := Option.isSome_iff_exists.mp (by decide +kernel :
    (decodeNapcatEvent (groupPayload [codeSegment "reply" "id" "3", textSegment "hello"]
      "[CQ:reply,id=3]hello") "qq:bot_uin:9").isSome = true)
  obtain ⟨message, hkind, -⟩ := decodeNapcatEvent_eq_some h
  exact ⟨event, message, h, hkind,
    (plain_text_agrees_iff hcarries h hkind).mpr (.inr (by decide))⟩

/-- Without a mention, an ampersand is read as its entity. -/
theorem entities_reach_prompt : ¬ ∀ (payload : Value) (platformAccount : String) (ts : List Token)
    (event : CanonicalEvent) (message : CanonicalMessage), Carries payload ts →
    decodeNapcatEvent payload platformAccount = some event → event.kind = .message message →
    message.projectPlainText.toList = ts.flatMap plainText := by
  intro hall
  have hcarries := carries_groupPayload (.cons (segmentOf_text "a & b") .nil)
    (by simp [Token.WellFormed])
  obtain ⟨message, hmessage, htext⟩ : ∃ message,
      (decodeNapcatEvent (groupPayload [textSegment "a & b"] "a &amp; b") "qq:bot_uin:9").bind
        CanonicalEvent.message = some message ∧ message.projectPlainText = "a &amp; b" := by
    apply Option.map_eq_some_iff.mp
    decide +kernel
  obtain ⟨event, h, hevent⟩ := Option.bind_eq_some_iff.mp hmessage
  obtain ⟨message', hkind, -⟩ := decodeNapcatEvent_eq_some h
  obtain rfl : message' = message := by simpa [CanonicalEvent.message, hkind] using hevent
  have hplain := hall _ _ _ _ _ hcarries h hkind
  rw [htext] at hplain
  exact absurd hplain (by decide)

theorem normalizeActorId_ne (value b : String) :
    normalizeActorId value "qq:user:" ≠ "qq:bot_uin:" ++ b := by
  have hpre : "qq:user:".toList <+: (normalizeActorId value "qq:user:").toList := by
    unfold normalizeActorId
    split_ifs with hstart
    · exact Text.startsWith_iff.mp hstart
    · simp
  intro he
  rw [he, String.toList_append] at hpre
  simp [List.cons_prefix_cons] at hpre

/-- A group message runs the bot or asks for its status exactly if one of its segments mentions the
bot. -/
theorem group_trigger_iff {b : String} (hcarries : Carries payload ts)
    (htype : payload.get "message_type" = some (.string "group"))
    (h : decodeNapcatEvent payload ("qq:bot_uin:" ++ b) = some event) :
    resolve event = .run ∨ resolve event = .status ↔ ∃ t ∈ ts, mention? t = some b.toList := by
  obtain ⟨message, hkind, haccount, hparts, hmentions, hgroup⟩ := decodeNapcatEvent_eq_some h
  obtain ⟨groupId, hconversation⟩ := hgroup htype
  have hscope : conversationScope event.conversation = some "group" := by
    have hparts : "qq:group:" = "qq" ++ ":" ++ "group" ++ ":" := by decide
    rw [hconversation, hparts]
    exact conversationScope_append groupId (by decide) (by decide)
  have htrigger := shouldTriggerRun_group_iff hkind hscope
  rw [shouldTriggerRun, decide_eq_true_eq] at htrigger
  rw [htrigger, haccount, hmentions, hparts, Text.stripPrefix_append, Option.getD_some]
  rcases mentions_cases ts with hsome | hnone
  · obtain ⟨segments, hsegments, hread⟩ := hcarries.messageParts_of_mention hsome
    rw [hread, parseSegments_mentions hsegments, List.mem_map]
    constructor
    · rintro ⟨qq, hqq, he⟩
      obtain ⟨t, ht, hmention⟩ := List.mem_filterMap.mp hqq
      by_cases hb : String.ofList qq = b
      · exact ⟨t, ht, by rw [hmention, ← hb, String.toList_ofList]⟩
      · rw [if_neg hb] at he
        exact absurd he (normalizeActorId_ne _ b)
    · rintro ⟨t, ht, hmention⟩
      exact ⟨b.toList, List.mem_filterMap.mpr ⟨t, ht, hmention⟩,
        by rw [String.ofList_toList, if_pos rfl]⟩
  · rw [(hcarries.messageParts_of_none hnone hcarries.rawMessage_toList).1]
    refine iff_of_false (by simp) ?_
    rintro ⟨t, ht, hb⟩
    cases (hnone t ht).symm.trans hb

/-- The bot is mentioned, and another mention is only spelled in the text. -/
theorem group_trigger_iff_mentioned : ∃ event,
    decodeNapcatEvent (groupPayload [codeSegment "at" "qq" "9", textSegment "[CQ:at,qq=3]"]
      "[CQ:at,qq=9]&#91;CQ:at,qq=3&#93;") ("qq:bot_uin:" ++ "9") = some event ∧
    (resolve event = .run ∨ resolve event = .status) := by
  have hcarries := carries_groupPayload
    (.cons (segmentOf_code (by decide : "at" ≠ "text") "qq" "9")
      (.cons (segmentOf_text "[CQ:at,qq=3]") .nil)) (by simp [Token.WellFormed]; decide)
  obtain ⟨event, h⟩ := Option.isSome_iff_exists.mp (by decide +kernel :
    (decodeNapcatEvent (groupPayload [codeSegment "at" "qq" "9", textSegment "[CQ:at,qq=3]"]
      "[CQ:at,qq=9]&#91;CQ:at,qq=3&#93;") ("qq:bot_uin:" ++ "9")).isSome = true)
  refine ⟨event, h, (group_trigger_iff hcarries rfl h).mpr ?_⟩
  exact ⟨_, List.mem_cons_self .., by decide⟩

end Events

end DogBot.Qq
