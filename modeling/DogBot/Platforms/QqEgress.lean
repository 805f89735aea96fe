import DogBot.Dispatch
import DogBot.Library.Cq
import DogBot.Library.Program
import DogBot.Platforms.Qq

/-! # Outbound QQ messages

A compiled message is read back as CQ text. Texts are escaped and targets are
numbers, so the codes are those of the message and the text is unchanged. The
references of media are written as they are, and come back only if they contain
no delimiter and no entity.
-/

namespace DogBot.Qq

open Cq (Token)

def code (name key value : String) : Token :=
  .code name.toList [(key.toList, value.toList)]

/-- The pieces of a text: an at sign with a run of at least five digits is a mention, and every
other character stands for itself. -/
def textTokens : List Char → List Token
  | [] => []
  | c :: l =>
    if c = '@' ∧ 5 ≤ (l.takeWhile Char.isDigit).length then
      code "at" "qq" (String.ofList (l.takeWhile Char.isDigit)) ::
        textTokens (l.dropWhile Char.isDigit)
    else .text [c] :: textTokens l
termination_by l => l.length
decreasing_by
  · exact Nat.lt_succ_of_le (List.length_dropWhile_le ..)
  · simp

/-- The number that an id names: the part after a prefix, or the whole id. -/
def targetNumber (id : String) : String :=
  (Text.stripPrefix "qq:user:" id <|> Text.stripPrefix "qq:bot_uin:" id).getD id

/-- What the source of an asset names: a path, an address or a handle. -/
def sourceValue : AssetSource → String
  | .workspacePath value | .managedStore value | .externalUrl value | .platformNativeHandle value
  | .bridgeHandle value => value

/-- The name of the code of a media part, and its asset. -/
def mediaCode : MessagePart → Option (String × AssetRef)
  | .image asset | .sticker asset => some ("image", asset)
  | .file asset => some ("file", asset)
  | .voice asset => some ("record", asset)
  | .video asset => some ("video", asset)
  | .text _ | .mention _ _ | .quote _ _ => none

def partTokens (part : MessagePart) : List Token :=
  match part with
  | .text text => textTokens text.toList
  | .mention actorId _ => [code "at" "qq" (targetNumber actorId)]
  | .quote targetMessageId _ => [code "reply" "id" (targetNumber targetMessageId)]
  | part =>
    ((mediaCode part).map fun (name, asset) => code name "file" (sourceValue asset.source)).toList

def headTokens (replyTo mentionUserId : Option String) : List Token :=
  (replyTo.map fun id => code "reply" "id" (targetNumber id)).toList ++
    (mentionUserId.map fun id =>
      [code "at" "qq" (targetNumber id), .text [' ']]).getD []

def messageTokens (message : OutboundMessage) (replyTo mentionUserId : Option String) :
    List Token :=
  headTokens replyTo mentionUserId ++ message.parts.flatMap partTokens

variable {part : MessagePart} {parts : List MessagePart} {message : OutboundMessage}
  {replyTo mentionUserId : Option String} {id output : String} {l digits : List Char}

theorem escapeCqText_toList (value : String) :
    (escapeCqText value).toList = Cq.escape false value.toList := by
  simp only [escapeCqText, Text.replace, String.toList_ofList, List.flatMap_assoc, Cq.escape]
  apply List.flatMap_congr
  intro c _
  unfold Cq.escapeChar
  by_cases h₁ : c = '&'
  · subst h₁; rfl
  by_cases h₂ : c = '['
  · subst h₂; rfl
  by_cases h₃ : c = ']'
  · subst h₃; rfl
  rw [if_neg h₁, if_neg h₁, if_neg h₂, if_neg h₃, List.flatMap_singleton, if_neg h₂,
    List.flatMap_singleton, if_neg h₃]
  simp

theorem encode_cons (t : Token) (ts : List Token) :
    Cq.encode (t :: ts) = t.encode ++ Cq.encode ts :=
  rfl

theorem encode_append (ts ts' : List Token) :
    Cq.encode (ts ++ ts') = Cq.encode ts ++ Cq.encode ts' :=
  List.flatMap_append

theorem encode_code (name key value : String) :
    (code name key value).encode =
      "[CQ:".toList ++ name.toList ++ ',' :: key.toList ++ '=' :: Cq.escape true value.toList ++
        [']'] := by
  simp [code, Token.encode, Cq.bracket, Cq.body_cons, Cq.body_nil, Cq.encodeParam]

theorem escape_digits (h : ∀ c ∈ digits, c.isDigit) : Cq.escape true digits = digits := by
  apply Cq.escape_eq_self
  intro c hc
  have hd := h c hc
  refine ⟨?_, ?_, ?_, ?_⟩ <;> rintro rfl <;> exact absurd hd (by decide)

theorem encode_textTokens_append (h : ∀ c ∈ digits, c.isDigit) :
    Cq.encode (textTokens (digits ++ l)) =
      Cq.escape false digits ++ Cq.encode (textTokens l) := by
  induction digits with
  | nil => rfl
  | cons c digits ih =>
    obtain ⟨hc, hd⟩ := List.forall_mem_cons.mp h
    have hat : ¬ (c = '@' ∧ 5 ≤ ((digits ++ l).takeWhile Char.isDigit).length) := by
      rintro ⟨rfl, -⟩
      exact absurd hc (by decide)
    rw [List.cons_append, textTokens, if_neg hat]
    change Cq.escape false [c] ++ Cq.encode (textTokens (digits ++ l)) = _
    rw [ih hd, ← List.append_assoc, ← Cq.escape_append]
    rfl

theorem isDigit_of_mem_takeWhile {c : Char} (h : c ∈ l.takeWhile Char.isDigit) :
    c.isDigit = true := by
  simpa using List.mem_takeWhile_imp h

/-- The scanner writes the text that it has read, and then the pieces of the rest. -/
theorem encodeQqTextFrom_toList (plain chars : List Char) :
    (encodeQqTextFrom plain chars).toList =
      Cq.escape false plain ++ Cq.encode (textTokens chars) := by
  induction plain, chars using encodeQqTextFrom.induct with
  | case1 plain =>
    rw [encodeQqTextFrom, escapeCqText_toList, String.toList_ofList, textTokens]
    simp [Cq.encode]
  | case2 plain ch chars hch ih =>
    have hat : ¬ (ch = '@' ∧ 5 ≤ (chars.takeWhile Char.isDigit).length) := fun h => hch h.1
    rw [encodeQqTextFrom, if_pos hch, ih, textTokens, if_neg hat, Cq.escape_append,
      List.append_assoc]
    rfl
  | case3 plain ch chars hch digits rest hlen ih =>
    have hat : ch = '@' ∧ 5 ≤ (chars.takeWhile Char.isDigit).length :=
      ⟨not_not.mp hch, hlen⟩
    rw [encodeQqTextFrom, if_neg hch, if_pos hlen, textTokens, if_pos hat]
    have hdigits : Cq.escape true (String.ofList digits).toList = digits := by
      rw [String.toList_ofList]
      exact escape_digits fun c hc => isDigit_of_mem_takeWhile hc
    rw [encode_cons, encode_code, hdigits]
    have hrest : (encodeQqTextFrom [] rest).toList = Cq.encode (textTokens rest) := ih
    simp only [String.toList_append, escapeCqText_toList, String.toList_ofList, hrest, digits, rest]
    simp
  | case4 plain ch chars hch digits rest hlen ih =>
    have hat : ¬ (ch = '@' ∧ 5 ≤ (chars.takeWhile Char.isDigit).length) := fun h => hlen h.2
    have hchars : chars = digits ++ rest := (List.takeWhile_append_dropWhile ..).symm
    have hsplit : Cq.encode (textTokens chars) =
        Cq.escape false digits ++ Cq.encode (textTokens rest) := by
      rw [hchars]
      exact encode_textTokens_append fun c hc => isDigit_of_mem_takeWhile hc
    rw [encodeQqTextFrom, if_neg hch, if_neg hlen, ih, textTokens, if_neg hat,
      Cq.escape_append, encode_cons, hsplit, List.append_assoc]
    congr 1
    change Cq.escape false ([ch] ++ digits) ++ _ = Cq.escape false [ch] ++ _
    rw [Cq.escape_append, List.append_assoc]

theorem encodeQqText_toList (text : String) :
    (encodeQqText text).toList = Cq.encode (textTokens text.toList) :=
  encodeQqTextFrom_toList [] text.toList

theorem normalizeQqTargetId_eq_ok {value number : String}
    (h : normalizeQqTargetId value = .ok number) :
    number = targetNumber value ∧ number ≠ "" ∧ ∀ c ∈ number.toList, c.isDigit := by
  simp only [normalizeQqTargetId] at h
  split_ifs at h with hbad
  obtain rfl := Except.ok.inj h
  push Not at hbad
  exact ⟨rfl, hbad.1, fun c hc => by simpa using List.all_eq_true.mp hbad.2 c hc⟩

theorem encode_target {name key : String} {value number : String}
    (h : normalizeQqTargetId value = .ok number) :
    (code name key (targetNumber value)).encode =
      "[CQ:".toList ++ name.toList ++ ',' :: key.toList ++ '=' :: number.toList ++ [']'] := by
  obtain ⟨rfl, -, hdigits⟩ := normalizeQqTargetId_eq_ok h
  rw [encode_code, escape_digits hdigits]

theorem compileTarget_part {value before after : String}
    (h : (do return before ++ (← normalizeQqTargetId value) ++ after : Except String String) =
      .ok output) :
    ∃ number, normalizeQqTargetId value = .ok number ∧ before ++ number ++ after = output := by
  obtain ⟨number, hid, h⟩ := Program.bind_eq_ok h
  exact ⟨number, hid, Except.ok.inj h⟩

theorem compilePart_toList (h : compilePart part = .ok output) (hmedia : mediaCode part = none) :
    output.toList = Cq.encode (partTokens part) := by
  cases part with
  | text text =>
    obtain rfl := Except.ok.inj h
    exact encodeQqText_toList text
  | mention actorId display =>
    obtain ⟨number, hid, rfl⟩ := compileTarget_part h
    rw [partTokens, encode_cons, encode_target hid]
    simp [Cq.encode]
  | quote targetMessageId excerpt =>
    obtain ⟨number, hid, rfl⟩ := compileTarget_part h
    rw [partTokens, encode_cons, encode_target hid]
    simp [Cq.encode]
  | image | file | voice | video | sticker => cases hmedia

/-- The target of a code is a nonempty string of digits. -/
def Numeric : Token → Prop
  | .text _ => True
  | .code _ params => ∃ key number, params = [(key, number)] ∧ number ≠ [] ∧
      ∀ c ∈ number, c.isDigit = true

theorem numeric_target {name key value number : String}
    (h : normalizeQqTargetId value = .ok number) :
    Numeric (code name key (targetNumber value)) := by
  obtain ⟨rfl, hne, hdigits⟩ := normalizeQqTargetId_eq_ok h
  exact ⟨_, _, rfl, by simpa using hne, hdigits⟩

theorem numeric_textTokens (l : List Char) : ∀ t ∈ textTokens l, Numeric t := by
  induction l using textTokens.induct with
  | case1 => intro t ht; simp [textTokens] at ht
  | case2 c l hat ih =>
    rw [textTokens, if_pos hat, List.forall_mem_cons]
    refine ⟨⟨_, _, rfl, ?_, fun d hd => ?_⟩, ih⟩
    · rw [String.toList_ofList]
      exact List.ne_nil_of_length_pos (by omega)
    · rw [String.toList_ofList] at hd
      exact isDigit_of_mem_takeWhile hd
  | case3 c l hat ih =>
    rw [textTokens, if_neg hat, List.forall_mem_cons]
    exact ⟨trivial, ih⟩

theorem numeric_partTokens (h : compilePart part = .ok output) (hmedia : mediaCode part = none) :
    ∀ t ∈ partTokens part, Numeric t := by
  cases part with
  | text text => exact numeric_textTokens text.toList
  | mention actorId display =>
    obtain ⟨number, hid, -⟩ := compileTarget_part h
    simpa [partTokens] using numeric_target hid
  | quote targetMessageId excerpt =>
    obtain ⟨number, hid, -⟩ := compileTarget_part h
    simpa [partTokens] using numeric_target hid
  | image | file | voice | video | sticker => cases hmedia

theorem compileParts_cons (h : compileParts (part :: parts) = .ok output) :
    ∃ first rest, compilePart part = .ok first ∧ compileParts parts = .ok rest ∧
      output = first ++ rest := by
  rw [compileParts] at h
  obtain ⟨first, hfirst, h⟩ := Program.bind_eq_ok h
  obtain ⟨rest, hrest, h⟩ := Program.bind_eq_ok h
  exact ⟨first, rest, hfirst, hrest, (Except.ok.inj h).symm⟩

theorem compileOutboundMessage_eq_ok
    (h : compileOutboundMessage message replyTo mentionUserId = .ok output) :
    ∃ head parts, compileHead replyTo mentionUserId = .ok head ∧
      compileParts message.parts = .ok parts ∧ output = head ++ parts := by
  unfold compileOutboundMessage at h
  obtain ⟨head, hhead, h⟩ := Program.bind_eq_ok h
  obtain ⟨parts, hparts, h⟩ := Program.bind_eq_ok h
  exact ⟨head, parts, hhead, hparts, (Except.ok.inj h).symm⟩

theorem compileParts_toList (h : compileParts parts = .ok output)
    (hmedia : ∀ part ∈ parts, mediaCode part = none) :
    output.toList = Cq.encode (parts.flatMap partTokens) ∧
      ∀ t ∈ parts.flatMap partTokens, Numeric t := by
  induction parts generalizing output with
  | nil =>
    obtain rfl := Except.ok.inj h
    exact ⟨rfl, by simp⟩
  | cons part parts ih =>
    obtain ⟨first, rest, hfirst, hrest, rfl⟩ := compileParts_cons h
    obtain ⟨hpart, hparts⟩ := List.forall_mem_cons.mp hmedia
    obtain ⟨hl, hn⟩ := ih hrest hparts
    rw [List.flatMap_cons]
    constructor
    · rw [String.toList_append, compilePart_toList hfirst hpart, hl, encode_append]
    · rw [List.forall_mem_append]
      exact ⟨numeric_partTokens hfirst hpart, hn⟩

theorem compileTarget_eq_ok {before after : String} {id? : Option String}
    (h : compileTarget before after id? = .ok output) :
    id? = none ∧ output = "" ∨ ∃ id number, id? = some id ∧
      normalizeQqTargetId id = .ok number ∧ output = before ++ number ++ after := by
  cases id? with
  | none => exact .inl ⟨rfl, (Except.ok.inj h).symm⟩
  | some id =>
    cases hid : normalizeQqTargetId id with
    | error e => simp [compileTarget, hid, Except.map] at h
    | ok number =>
      simp only [compileTarget, hid, Except.map, Except.ok.injEq] at h
      exact .inr ⟨id, number, rfl, hid, h.symm⟩

theorem compileHead_eq_ok (h : compileHead replyTo mentionUserId = .ok output) :
    ∃ reply mention, compileTarget "[CQ:reply,id=" "]" replyTo = .ok reply ∧
      compileTarget "[CQ:at,qq=" "] " mentionUserId = .ok mention ∧ output = reply ++ mention := by
  unfold compileHead at h
  obtain ⟨reply, hreply, h⟩ := Program.bind_eq_ok h
  obtain ⟨mention, hmention, h⟩ := Program.bind_eq_ok h
  exact ⟨reply, mention, hreply, hmention, (Except.ok.inj h).symm⟩

theorem compileHead_toList (h : compileHead replyTo mentionUserId = .ok output) :
    output.toList = Cq.encode (headTokens replyTo mentionUserId) ∧
      ∀ t ∈ headTokens replyTo mentionUserId, Numeric t := by
  obtain ⟨reply, mention, hreply, hmention, rfl⟩ := compileHead_eq_ok h
  have hr : reply.toList = Cq.encode (replyTo.map fun id =>
      code "reply" "id" (targetNumber id)).toList ∧
      ∀ t ∈ (replyTo.map fun id => code "reply" "id" (targetNumber id)).toList, Numeric t := by
    rcases compileTarget_eq_ok hreply with ⟨rfl, rfl⟩ | ⟨id, number, rfl, hid, rfl⟩
    · exact ⟨rfl, by simp⟩
    · refine ⟨?_, by simpa using numeric_target hid⟩
      rw [Option.map_some, Option.toList_some, encode_cons, encode_target hid]
      simp [Cq.encode]
  have hm : mention.toList = Cq.encode ((mentionUserId.map fun id =>
      [code "at" "qq" (targetNumber id), .text [' ']]).getD []) ∧
      ∀ t ∈ (mentionUserId.map fun id =>
        [code "at" "qq" (targetNumber id), .text [' ']]).getD [], Numeric t := by
    rcases compileTarget_eq_ok hmention with ⟨rfl, rfl⟩ | ⟨id, number, rfl, hid, rfl⟩
    · exact ⟨rfl, by simp⟩
    · refine ⟨?_, by simpa using ⟨numeric_target hid, trivial⟩⟩
      rw [Option.map_some, Option.getD_some, encode_cons, encode_target hid]
      simp [Cq.encode, Token.encode, Cq.escape, Cq.escapeChar]
  constructor
  · rw [String.toList_append, hr.1, hm.1, ← encode_append]
    rfl
  · rw [headTokens, List.forall_mem_append]
    exact ⟨hr.2, hm.2⟩

theorem wellFormed_code {name key : String} (hn : Cq.Plain name.toList) (hk : Cq.Plain key.toList)
    (value : String) : (code name key value).WellFormed :=
  ⟨hn, by simpa using hk⟩

theorem wellFormed_textTokens (l : List Char) : ∀ t ∈ textTokens l, t.WellFormed := by
  induction l using textTokens.induct with
  | case1 => intro t ht; simp [textTokens] at ht
  | case2 c l hat ih =>
    rw [textTokens, if_pos hat, List.forall_mem_cons]
    exact ⟨wellFormed_code (by decide) (by decide) _, ih⟩
  | case3 c l hat ih =>
    rw [textTokens, if_neg hat, List.forall_mem_cons]
    exact ⟨trivial, ih⟩

theorem wellFormed_partTokens (part : MessagePart) : ∀ t ∈ partTokens part, t.WellFormed := by
  cases part with
  | text text => exact wellFormed_textTokens text.toList
  | mention | quote | image | file | voice | video | sticker =>
    intro t ht
    obtain rfl := List.mem_singleton.mp ht
    exact wellFormed_code (by decide) (by decide) _

theorem wellFormed_messageTokens (message : OutboundMessage)
    (replyTo mentionUserId : Option String) :
    ∀ t ∈ messageTokens message replyTo mentionUserId, t.WellFormed := by
  intro t ht
  rcases List.mem_append.mp ht with ht | ht
  · rcases List.mem_append.mp ht with ht | ht
    · obtain ⟨id, -, rfl⟩ := Option.map_eq_some_iff.mp (Option.mem_toList.mp ht)
      exact wellFormed_code (by decide) (by decide) _
    · cases mentionUserId with
      | none => cases ht
      | some id =>
        rcases List.mem_cons.mp ht with rfl | ht
        · exact wellFormed_code (by decide) (by decide) _
        · obtain rfl := List.mem_singleton.mp ht
          trivial
  · obtain ⟨part, -, ht⟩ := List.mem_flatMap.mp ht
    exact wellFormed_partTokens part t ht

/-- Every compiled message of texts, mentions and quotes is read back as what it stands for: its
reply code and its mention, and then its parts in order, with adjacent texts joined. All targets are
nonempty strings of digits. -/
theorem compiled_message_tokens (hmedia : ∀ part ∈ message.parts, mediaCode part = none)
    (h : compileOutboundMessage message replyTo mentionUserId = .ok output) :
    Cq.tokens output.toList = Cq.merge (messageTokens message replyTo mentionUserId) ∧
      ∀ t ∈ Cq.tokens output.toList, Numeric t := by
  obtain ⟨head, parts, hhead, hparts, rfl⟩ := compileOutboundMessage_eq_ok h
  obtain ⟨hl₁, hn₁⟩ := compileHead_toList hhead
  obtain ⟨hl₂, hn₂⟩ := compileParts_toList hparts hmedia
  have htokens : Cq.tokens (head ++ parts).toList =
      Cq.merge (messageTokens message replyTo mentionUserId) := by
    rw [String.toList_append, hl₁, hl₂, ← encode_append]
    exact Cq.tokens_encode (wellFormed_messageTokens message replyTo mentionUserId)
  refine ⟨htokens, fun t ht => ?_⟩
  rw [htokens] at ht
  rcases Cq.mem_merge ht with ⟨content, rfl⟩ | ht
  · trivial
  · rcases List.mem_append.mp ht with ht | ht
    · exact hn₁ t ht
    · exact hn₂ t ht

/-- An answer that quotes a message, with a text that looks like a code. -/
def spelledCode : OutboundMessage :=
  { parts := [.text "[CQ:at,qq=99] & @@12345", .quote "7" ""], replyTo := some "991"
    suppressDefaultReply := false, deliveryPolicy := none }

theorem compiled_message_tokens_spelled :
    ∃ output, compileOutboundMessage spelledCode (some "991") (some "qq:user:42") = .ok output ∧
      Cq.tokens output.toList =
        Cq.merge (messageTokens spelledCode (some "991") (some "qq:user:42")) ∧
      ∀ t ∈ Cq.tokens output.toList, Numeric t :=
  ⟨"[CQ:reply,id=991][CQ:at,qq=42] &#91;CQ:at,qq=99&#93; &amp; @[CQ:at,qq=12345][CQ:reply,id=7]",
    by decide +kernel, compiled_message_tokens (by decide) (by decide +kernel)⟩

section Media

def mediaNames : List (List Char) :=
  ["image".toList, "file".toList, "record".toList, "video".toList]

def targetNames : List (List Char) := ["at".toList, "reply".toList]

def fileOf (c : List Char × List (List Char × List Char)) : List Char × Option (List Char) :=
  (c.1, c.2.lookup "file".toList)

/-- The media codes of a text, with their files. -/
def mediaOf (cs : List (List Char × List (List Char × List Char))) :
    List (List Char × Option (List Char)) :=
  (cs.filter fun c => c.1 ∈ mediaNames).map fileOf

def targetsOf (cs : List (List Char × List (List Char × List Char))) :
    List (List Char × List (List Char × List Char)) :=
  cs.filter fun c => c.1 ∈ targetNames

def expectedMedia (part : MessagePart) : Option (List Char × Option (List Char)) :=
  (mediaCode part).map fun (name, asset) => (name.toList, some (sourceValue asset.source).toList)

/-- The output has one media code for each media part, in order and with the reference of its
asset, and the mentions and replies are those of the message. -/
structure MediaKept (message : OutboundMessage) (replyTo mentionUserId : Option String)
    (output : String) : Prop where
  media : mediaOf (Cq.codes output.toList) = message.parts.filterMap expectedMedia
  targets : targetsOf (Cq.codes output.toList) =
    targetsOf ((messageTokens message replyTo mentionUserId).filterMap Token.code?)

instance (message : OutboundMessage) (replyTo mentionUserId : Option String) (output : String) :
    Decidable (MediaKept message replyTo mentionUserId output) :=
  decidable_of_iff (_ ∧ _) ⟨fun h => ⟨h.1, h.2⟩, fun h => ⟨h.1, h.2⟩⟩

/-- A reference without delimiters of parameters and without entities. -/
def Verbatim (reference : String) : Prop :=
  (∀ c ∈ reference.toList, c ≠ ',' ∧ c ≠ ']') ∧ ∀ e ∈ Cq.entities, ¬ e <:+: reference.toList

variable {name : String} {asset : AssetRef}

theorem mediaOf_append (cs cs' : List (List Char × List (List Char × List Char))) :
    mediaOf (cs ++ cs') = mediaOf cs ++ mediaOf cs' := by
  simp [mediaOf]

theorem mediaCode_name (h : mediaCode part = some (name, asset)) :
    name.toList ∈ mediaNames ∧ Cq.Plain name.toList := by
  cases part <;> cases h <;> exact ⟨by decide, by decide⟩

theorem qqAssetReference_eq (asset : AssetRef) :
    qqAssetReference asset = sourceValue asset.source := by
  rw [qqAssetReference]
  cases asset.source <;> rfl

theorem compilePart_media (h : mediaCode part = some (name, asset)) :
    compilePart part = .ok ("[CQ:" ++ name ++ ",file=" ++ sourceValue asset.source ++ "]") := by
  cases part <;> cases h <;> rw [compilePart, qqAssetReference_eq] <;> rfl

theorem partTokens_media (h : mediaCode part = some (name, asset)) :
    partTokens part = [code name "file" (sourceValue asset.source)] := by
  cases part <;> cases h <;> rfl

theorem code_target {name key value : String} (h : name.toList ∈ targetNames) :
    ∀ c, (code name key value).code? = some c → c.1 ∈ targetNames := by
  intro c hc
  obtain rfl := Option.some.inj hc
  exact h

theorem targets_partTokens (h : mediaCode part = none) :
    ∀ t ∈ partTokens part, ∀ c, t.code? = some c → c.1 ∈ targetNames := by
  cases part with
  | text text =>
    rw [partTokens]
    induction text.toList using textTokens.induct with
    | case1 => intro t ht; simp [textTokens] at ht
    | case2 c l hat ih =>
      rw [textTokens, if_pos hat, List.forall_mem_cons]
      exact ⟨code_target (by decide), ih⟩
    | case3 c l hat ih =>
      rw [textTokens, if_neg hat, List.forall_mem_cons]
      refine ⟨?_, ih⟩
      rintro c ⟨⟩
  | mention | quote =>
    intro t ht
    obtain rfl := List.mem_singleton.mp ht
    exact code_target (by decide)
  | image | file | voice | video | sticker => cases h

theorem targets_headTokens : ∀ t ∈ headTokens replyTo mentionUserId, ∀ c, t.code? = some c →
    c.1 ∈ targetNames := by
  intro t ht
  rcases List.mem_append.mp ht with ht | ht
  · obtain ⟨id, -, rfl⟩ := Option.map_eq_some_iff.mp (Option.mem_toList.mp ht)
    exact code_target (by decide)
  · cases mentionUserId with
    | none => cases ht
    | some id =>
      rcases List.mem_cons.mp ht with rfl | ht
      · exact code_target (by decide)
      · obtain rfl := List.mem_singleton.mp ht
        rintro c ⟨⟩

theorem mediaOf_targets {ts : List Token}
    (h : ∀ t ∈ ts, ∀ c, t.code? = some c → c.1 ∈ targetNames) :
    mediaOf (ts.filterMap Token.code?) = [] := by
  have hdisjoint : ∀ n ∈ targetNames, n ∉ mediaNames := by decide
  have hfilter : (ts.filterMap Token.code?).filter (fun c => c.1 ∈ mediaNames) = [] := by
    rw [List.filter_eq_nil_iff]
    intro c hc
    obtain ⟨t, ht, hcode⟩ := List.mem_filterMap.mp hc
    simpa using hdisjoint c.1 (h t ht c hcode)
  rw [mediaOf, hfilter, List.map_nil]

theorem mediaOf_parts (parts : List MessagePart) :
    mediaOf ((parts.flatMap partTokens).filterMap Token.code?) =
      parts.filterMap expectedMedia := by
  induction parts with
  | nil => rfl
  | cons part parts ih =>
    rw [List.flatMap_cons, List.filterMap_append, mediaOf_append, ih, List.filterMap_cons]
    cases hcode : mediaCode part with
    | none =>
      rw [mediaOf_targets (targets_partTokens hcode), expectedMedia, hcode]
      rfl
    | some m =>
      obtain ⟨name, asset⟩ := m
      obtain ⟨hname, -⟩ := mediaCode_name hcode
      rw [partTokens_media hcode, expectedMedia, hcode]
      simp [mediaOf, code, Token.code?, hname, fileOf]

theorem codes_media (h : mediaCode part = some (name, asset))
    (hpart : compilePart part = .ok output)
    (l : List Char) : ∃ params rest, Cq.codes (output.toList ++ l) =
      (name.toList, ("file".toList, Cq.unescape true ((sourceValue asset.source).toList.takeWhile
        fun c => c ≠ ',' && c ≠ ']')) :: params) :: Cq.codes rest ∧
      (']' ∉ (sourceValue asset.source).toList → rest = l) ∧
      (',' ∉ (sourceValue asset.source).toList → params = []) := by
  obtain rfl := Except.ok.inj ((compilePart_media h).symm.trans hpart)
  obtain ⟨params, rest, hcodes, hrest, hparams⟩ := Cq.codes_unescaped (mediaCode_name h).2
    (by decide : Cq.Plain "file".toList) (sourceValue asset.source).toList l
  refine ⟨params, rest, ?_, hrest, hparams⟩
  rw [← hcodes]
  simp

theorem Verbatim.not_mem {reference : String} (h : Verbatim reference) :
    ',' ∉ reference.toList ∧ ']' ∉ reference.toList :=
  ⟨fun hm => (h.1 _ hm).1 rfl, fun hm => (h.1 _ hm).2 rfl⟩

theorem verbatim_iff {reference : String} : Verbatim reference ↔
    Cq.unescape true (reference.toList.takeWhile fun c => c ≠ ',' && c ≠ ']') =
      reference.toList := by
  rw [Cq.unescape_takeWhile_eq_iff, Verbatim]
  simp

theorem codes_parts (h : compileParts parts = .ok output)
    (hverbatim : ∀ part ∈ parts, ∀ name asset, mediaCode part = some (name, asset) →
      Verbatim (sourceValue asset.source)) :
    Cq.codes output.toList = (parts.flatMap partTokens).filterMap Token.code? := by
  induction parts generalizing output with
  | nil =>
    obtain rfl := Except.ok.inj h
    rfl
  | cons part parts ih =>
    obtain ⟨first, rest, hfirst, hrest, rfl⟩ := compileParts_cons h
    obtain ⟨hpart, hparts⟩ := List.forall_mem_cons.mp hverbatim
    have hih := ih hrest hparts
    rw [List.flatMap_cons, List.filterMap_append, ← hih, String.toList_append]
    cases hcode : mediaCode part with
    | none =>
      rw [compilePart_toList hfirst hcode, Cq.codes_encode (wellFormed_partTokens part)]
    | some m =>
      obtain ⟨name, asset⟩ := m
      have hv := hpart name asset hcode
      obtain ⟨params, rest', hcodes, hl, hp⟩ := codes_media hcode hfirst rest.toList
      rw [hcodes, hl hv.not_mem.2, hp hv.not_mem.1, verbatim_iff.mp hv, partTokens_media hcode]
      rfl

/-- If the media of a compiled message come back, their references are read as they are written. -/
theorem verbatim_of_media (h : compileParts parts = .ok output)
    (hmedia : mediaOf (Cq.codes output.toList) = parts.filterMap expectedMedia) :
    ∀ part ∈ parts, ∀ name asset, mediaCode part = some (name, asset) →
      Verbatim (sourceValue asset.source) := by
  induction parts generalizing output with
  | nil => simp
  | cons part parts ih =>
    obtain ⟨first, rest, hfirst, hrest, rfl⟩ := compileParts_cons h
    rw [List.forall_mem_cons]
    rw [String.toList_append, List.filterMap_cons] at hmedia
    cases hcode : mediaCode part with
    | none =>
      rw [compilePart_toList hfirst hcode, Cq.codes_encode (wellFormed_partTokens part),
        mediaOf_append, mediaOf_targets (targets_partTokens hcode), List.nil_append,
        expectedMedia, hcode] at hmedia
      refine ⟨?_, ih hrest hmedia⟩
      rintro name asset ⟨⟩
    | some m =>
      obtain ⟨name, asset⟩ := m
      obtain ⟨hname, -⟩ := mediaCode_name hcode
      obtain ⟨params, rest', hcodes, hl, -⟩ := codes_media hcode hfirst rest.toList
      rw [hcodes, expectedMedia, hcode] at hmedia
      have hcons : mediaOf ((name.toList, ("file".toList, Cq.unescape true
          ((sourceValue asset.source).toList.takeWhile fun c => c ≠ ',' && c ≠ ']')) :: params) ::
          Cq.codes rest') =
          (name.toList, some (Cq.unescape true ((sourceValue asset.source).toList.takeWhile
            fun c => c ≠ ',' && c ≠ ']'))) :: mediaOf (Cq.codes rest') := by
        simp [mediaOf, hname, fileOf]
      rw [hcons] at hmedia
      injection hmedia with hfile htail
      have hv : Verbatim (sourceValue asset.source) :=
        verbatim_iff.mpr (Option.some.inj (Prod.mk.inj hfile).2)
      rw [hl hv.not_mem.2] at htail
      refine ⟨fun name' asset' hm => ?_, ih hrest htail⟩
      obtain ⟨rfl, rfl⟩ := Prod.mk.inj (Option.some.inj hm)
      exact hv

/-- The media of a compiled message are read back exactly if no reference contains a comma, a
closing bracket or an entity. -/
theorem media_references_kept_iff
    (h : compileOutboundMessage message replyTo mentionUserId = .ok output) :
    MediaKept message replyTo mentionUserId output ↔
      ∀ part ∈ message.parts, ∀ name asset, mediaCode part = some (name, asset) →
        Verbatim (sourceValue asset.source) := by
  obtain ⟨head, parts, hhead, hparts, rfl⟩ := compileOutboundMessage_eq_ok h
  have hwf : ∀ t ∈ headTokens replyTo mentionUserId, t.WellFormed := fun t ht =>
    wellFormed_messageTokens message replyTo mentionUserId t (List.mem_append_left _ ht)
  have hcodes : Cq.codes (head ++ parts).toList =
      (headTokens replyTo mentionUserId).filterMap Token.code? ++ Cq.codes parts.toList := by
    rw [String.toList_append, (compileHead_toList hhead).1, Cq.codes_encode hwf]
  have hmedia : mediaOf (Cq.codes (head ++ parts).toList) = mediaOf (Cq.codes parts.toList) := by
    rw [hcodes, mediaOf_append, mediaOf_targets targets_headTokens, List.nil_append]
  constructor
  · intro hkept
    exact verbatim_of_media hparts (hmedia.symm.trans hkept.media)
  · intro hverbatim
    have hall := codes_parts hparts hverbatim
    constructor
    · rw [hmedia, hall, mediaOf_parts]
    · rw [hcodes, hall, messageTokens, List.filterMap_append]

def imageMessage (path : String) : OutboundMessage :=
  let asset : AssetRef :=
    { assetId := "image:" ++ path
      kind := "image"
      mime := "image/*"
      sizeBytes := 0
      source := .workspacePath path }
  { parts := [.image asset], replyTo := none, suppressDefaultReply := false, deliveryPolicy := none }

theorem media_references_kept_iff_comma :
    ¬ MediaKept (imageMessage "/workspace/a,b.png") none none
        "[CQ:image,file=/workspace/a,b.png]" ∧
      ¬ Verbatim "/workspace/a,b.png" := by
  have h : compileOutboundMessage (imageMessage "/workspace/a,b.png") none none =
      .ok "[CQ:image,file=/workspace/a,b.png]" := by decide +kernel
  have hnot : ¬ Verbatim "/workspace/a,b.png" := fun hv => hv.not_mem.1 (by decide)
  refine ⟨fun hkept => hnot ?_, hnot⟩
  exact (media_references_kept_iff h).mp hkept _ (List.mem_singleton_self _) _ _ rfl

/-- A path that closes its code is accepted, and what follows it is read as a mention. -/
theorem media_reference_escapes : ¬ ∀ (message : OutboundMessage)
    (replyTo mentionUserId : Option String) (output : String),
    dispatchPlan { messages := [message], actions := [], deliveryReportPolicy := none } = .ok () →
    compileOutboundMessage message replyTo mentionUserId = .ok output →
    MediaKept message replyTo mentionUserId output := by
  intro h
  have hkept := h (imageMessage "/workspace/a][CQ:at,qq=1") none none
    "[CQ:image,file=/workspace/a][CQ:at,qq=1]" (by decide) (by decide +kernel)
  exact absurd hkept (by decide +kernel)

end Media

end DogBot.Qq
