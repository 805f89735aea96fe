import DogBot.Platforms.QqIngress

/-! # The text of a raw message

A raw message is ordinary text with mention codes and reply codes. The parser
keeps the ordinary text and the mentions in their order, unless a reply code is
opened in front of a mention, or text stands in front of a code that is not
closed. A reply code can also come out of the text around one that is left out.
-/

namespace DogBot.Qq

def atOpening : List Char := "[CQ:at,qq=".toList

def replyOpening : List Char := "[CQ:reply,id=".toList

/-- The value of a code that stands at the front of a text, and what follows the code. -/
def codeAt (opening l : List Char) : Option (List Char × List Char) :=
  if opening.isPrefixOf l then Text.splitOnceChars [']'] (l.drop opening.length) else none

inductive RawToken
  | text (c : Char)
  | mention (qq : List Char)
  | reply (id : List Char)

def RawToken.encode : RawToken → List Char
  | text c => [c]
  | mention qq => atOpening ++ qq ++ [']']
  | reply id => replyOpening ++ id ++ [']']

theorem codeAt_eq {opening l value rest : List Char} (h : codeAt opening l = some (value, rest)) :
    l = opening ++ value ++ [']'] ++ rest := by
  unfold codeAt at h
  split_ifs at h with hp
  have hl := List.prefix_iff_eq_append.mp (List.isPrefixOf_iff_prefix.mp hp)
  rw [Text.eq_of_splitOnceChars h] at hl
  rw [← hl]
  simp

theorem length_of_codeAt {opening l value rest : List Char}
    (h : codeAt opening l = some (value, rest)) : rest.length < l.length := by
  have hl := congrArg List.length (codeAt_eq h)
  simp only [List.length_append, List.length_singleton] at hl
  omega

/-- A raw message as ordinary text, complete mention codes and complete reply codes. -/
def tokenize : List Char → List RawToken
  | [] => []
  | c :: l =>
    match _hat : codeAt atOpening (c :: l) with
    | some (qq, rest) => .mention qq :: tokenize rest
    | none =>
      match _hreply : codeAt replyOpening (c :: l) with
      | some (id, rest) => .reply id :: tokenize rest
      | none => .text c :: tokenize l
termination_by l => l.length
decreasing_by
  · exact length_of_codeAt _hat
  · exact length_of_codeAt _hreply
  · exact Nat.lt_succ_self _

/-- What a token stands for in the parts of a message; reply codes are left out. -/
def RawToken.item (platformAccount botUin : String) : RawToken → List (Char ⊕ MessagePart)
  | text c => [.inl c]
  | mention qq => [.inr (mentionPart platformAccount botUin (String.ofList qq))]
  | reply _ => []

/-- The characters of a text, and any other part on its own. -/
def partItems : MessagePart → List (Char ⊕ MessagePart)
  | .text text => text.toList.map .inl
  | part => [.inr part]

/-- The ordinary text and the mentions of a raw message. -/
def keptItems (platformAccount botUin : String) (rawMessage : List Char) :
    List (Char ⊕ MessagePart) :=
  (tokenize rawMessage).flatMap (RawToken.item platformAccount botUin)

/-- The characters and the mentions of the parts that a raw message is read as. -/
def rawItems (platformAccount botUin : String) (rawMessage : List Char) :
    List (Char ⊕ MessagePart) :=
  (parseRawMessageParts platformAccount botUin rawMessage).flatMap partItems

/-- A text in which no complete reply code stands. -/
def ReplyFree (text : List Char) : Prop := ∀ y, y <:+ text → codeAt replyOpening y = none

/-- The parts of a raw message, one after another, are its text and its mentions, and no reply code
is left in a part. -/
structure Conserved (platformAccount botUin : String) (rawMessage : List Char) : Prop where
  items : rawItems platformAccount botUin rawMessage = keptItems platformAccount botUin rawMessage
  replies : ∀ text, .text text ∈ parseRawMessageParts platformAccount botUin rawMessage →
    ReplyFree text.toList

def RawToken.isMention : RawToken → Bool
  | text _ | reply _ => false
  | mention _ => true

def RawToken.chars : RawToken → List Char
  | text c => [c]
  | mention _ | reply _ => []

/-- The ordinary text in front of the first mention, between two mentions, and behind the last
one. -/
def textsOf (rawMessage : List Char) : List (List Char) :=
  ((tokenize rawMessage).splitOnP RawToken.isMention).map fun tokens =>
    tokens.flatMap RawToken.chars

/-- No text stands in front of a reply code that is not closed, back to the code before it. -/
inductive RepliesClosed : List Char → Prop
  | none {remaining : List Char} (h : Text.splitOnceChars replyOpening remaining = none) :
    RepliesClosed remaining
  | unclosed {remaining after : List Char}
    (h : Text.splitOnceChars replyOpening remaining = some ([], after))
    (hend : Text.splitOnceChars [']'] after = .none) : RepliesClosed remaining
  | some {remaining before after id rest : List Char}
    (h : Text.splitOnceChars replyOpening remaining = some (before, after))
    (hend : Text.splitOnceChars [']'] after = some (id, rest))
    (hrest : RepliesClosed rest) : RepliesClosed remaining

/-- No reply code is opened in front of a mention, and no text stands in front of a code that is
not closed. -/
inductive Readable : List Char → Prop
  | none {remaining : List Char} (h : Text.splitOnceChars atOpening remaining = none)
    (hreplies : RepliesClosed remaining) : Readable remaining
  | unclosed {remaining after : List Char}
    (h : Text.splitOnceChars atOpening remaining = some ([], after))
    (hend : Text.splitOnceChars [']'] after = .none)
    (hreplies : RepliesClosed remaining) : Readable remaining
  | some {remaining before after qq rest : List Char}
    (h : Text.splitOnceChars atOpening remaining = some (before, after))
    (hend : Text.splitOnceChars [']'] after = some (qq, rest))
    (hbefore : Text.splitOnceChars replyOpening before = .none)
    (hrest : Readable rest) : Readable remaining

variable {platformAccount botUin : String} {remaining before after qq id rest l b : List Char}
  {c : Char}

section Inversion

theorem repliesClosed_iff_of_unclosed
    (h : Text.splitOnceChars replyOpening remaining = some (before, after))
    (hend : Text.splitOnceChars [']'] after = none) :
    RepliesClosed remaining ↔ before = [] := by
  constructor
  · intro hclosed
    cases hclosed with
    | none hn => cases h.symm.trans hn
    | unclosed hu => exact (Text.found_unique h hu).1
    | some hs he =>
      obtain ⟨-, rfl⟩ := Text.found_unique h hs
      cases hend.symm.trans he
  · rintro rfl
    exact .unclosed h hend

theorem repliesClosed_iff_of_some
    (h : Text.splitOnceChars replyOpening remaining = some (before, after))
    (hend : Text.splitOnceChars [']'] after = some (id, rest)) :
    RepliesClosed remaining ↔ RepliesClosed rest := by
  refine ⟨fun hclosed => ?_, .some h hend⟩
  cases hclosed with
  | none hn => cases h.symm.trans hn
  | unclosed hu he =>
    obtain ⟨-, rfl⟩ := Text.found_unique h hu
    cases hend.symm.trans he
  | some hs he hrest =>
    obtain ⟨-, rfl⟩ := Text.found_unique h hs
    obtain ⟨-, rfl⟩ := Text.found_unique hend he
    exact hrest

theorem readable_iff_of_none (h : Text.splitOnceChars atOpening remaining = none) :
    Readable remaining ↔ RepliesClosed remaining := by
  refine ⟨fun hreadable => ?_, .none h⟩
  cases hreadable with
  | none _ hreplies => exact hreplies
  | unclosed hu => cases h.symm.trans hu
  | some hs => cases h.symm.trans hs

theorem readable_iff_of_unclosed
    (h : Text.splitOnceChars atOpening remaining = some (before, after))
    (hend : Text.splitOnceChars [']'] after = none) :
    Readable remaining ↔ before = [] ∧ RepliesClosed remaining := by
  constructor
  · intro hreadable
    cases hreadable with
    | none hn => cases h.symm.trans hn
    | unclosed hu _ hreplies =>
      exact ⟨(Text.found_unique h hu).1, hreplies⟩
    | some hs he =>
      obtain ⟨-, rfl⟩ := Text.found_unique h hs
      cases hend.symm.trans he
  · rintro ⟨rfl, hreplies⟩
    exact .unclosed h hend hreplies

theorem readable_iff_of_some
    (h : Text.splitOnceChars atOpening remaining = some (before, after))
    (hend : Text.splitOnceChars [']'] after = some (qq, rest)) :
    Readable remaining ↔ Text.splitOnceChars replyOpening before = none ∧ Readable rest := by
  constructor
  · intro hreadable
    cases hreadable with
    | none hn => cases h.symm.trans hn
    | unclosed hu he =>
      obtain ⟨-, rfl⟩ := Text.found_unique h hu
      cases hend.symm.trans he
    | some hs he hbefore hrest =>
      obtain ⟨rfl, rfl⟩ := Text.found_unique h hs
      obtain ⟨-, rfl⟩ := Text.found_unique hend he
      exact ⟨hbefore, hrest⟩
  · rintro ⟨hbefore, hrest⟩
    exact .some h hend hbefore hrest

end Inversion

section Tokens

theorem codeAt_append (opening l : List Char) :
    codeAt opening (opening ++ l) = Text.splitOnceChars [']'] l := by
  rw [codeAt, if_pos (List.isPrefixOf_iff_prefix.mpr (List.prefix_append ..)), List.drop_left]

theorem codeAt_of_not_prefix {opening : List Char} (h : ¬ opening <+: l) :
    codeAt opening l = none := by
  rw [codeAt, if_neg fun hp => h (List.isPrefixOf_iff_prefix.mp hp)]

theorem codeAt_of_none {opening : List Char} (hne : opening ≠ [])
    (h : Text.splitOnceChars opening remaining = none) :
    ∀ y, y <:+ remaining → codeAt opening y = none :=
  fun _ hy => codeAt_of_not_prefix fun hpre =>
    (Text.splitOnceChars_eq_none_iff hne).mp h (hpre.isInfix.trans hy.isInfix)

theorem codeAt_atOpening_reply (l : List Char) : codeAt atOpening (replyOpening ++ l) = none := rfl

theorem codeAt_of_not_mem {opening : List Char} (h : ']' ∉ l) : codeAt opening l = none := by
  unfold codeAt
  split_ifs
  · rw [Text.splitOnceChars_eq_none_iff (by decide)]
    exact fun hin => h (List.mem_of_mem_drop (hin.subset (List.mem_singleton_self _)))
  · rfl

theorem tokenize_text (hat : codeAt atOpening (c :: l) = none)
    (hreply : codeAt replyOpening (c :: l) = none) :
    tokenize (c :: l) = .text c :: tokenize l := by
  rw [tokenize]
  split
  · rename_i hs
    cases hat.symm.trans hs
  · split
    · rename_i hs
      cases hreply.symm.trans hs
    · rfl

theorem tokenize_mention (hat : codeAt atOpening l = some (qq, rest)) :
    tokenize l = .mention qq :: tokenize rest := by
  cases l with
  | nil => cases hat
  | cons c l =>
    rw [tokenize]
    split
    · rename_i hs
      obtain ⟨rfl, rfl⟩ := Text.found_unique hat hs
      rfl
    · rename_i hs
      cases hat.symm.trans hs

theorem tokenize_reply (hat : codeAt atOpening l = none)
    (hreply : codeAt replyOpening l = some (id, rest)) :
    tokenize l = .reply id :: tokenize rest := by
  cases l with
  | nil => cases hreply
  | cons c l =>
    rw [tokenize]
    split
    · rename_i hs
      cases hat.symm.trans hs
    · split
      · rename_i hs
        obtain ⟨rfl, rfl⟩ := Text.found_unique hreply hs
        rfl
      · rename_i hs
        cases hreply.symm.trans hs

/-- The tokens of a raw message write it. -/
theorem encode_tokenize (rawMessage : List Char) :
    (tokenize rawMessage).flatMap RawToken.encode = rawMessage := by
  induction rawMessage using tokenize.induct with
  | case1 => rw [tokenize, List.flatMap_nil]
  | case2 c l qq rest hat ih =>
    rw [tokenize_mention hat, List.flatMap_cons, ih, RawToken.encode, ← codeAt_eq hat]
  | case3 c l hat id rest hreply ih =>
    rw [tokenize_reply hat hreply, List.flatMap_cons, ih, RawToken.encode, ← codeAt_eq hreply]
  | case4 c l hat hreply ih =>
    rw [tokenize_text hat hreply, List.flatMap_cons, ih, RawToken.encode, List.singleton_append]

@[simp] theorem keptItems_nil : keptItems platformAccount botUin [] = [] := by
  rw [keptItems, tokenize, List.flatMap_nil]

theorem keptItems_reply (hat : codeAt atOpening l = none)
    (hreply : codeAt replyOpening l = some (id, rest)) :
    keptItems platformAccount botUin l = keptItems platformAccount botUin rest := by
  rw [keptItems, tokenize_reply hat hreply, List.flatMap_cons]
  rfl

theorem tokenize_append (h : ∀ y, y <:+ b ++ l → l.length < y.length →
      codeAt atOpening y = none ∧ codeAt replyOpening y = none) :
    tokenize (b ++ l) = b.map .text ++ tokenize l := by
  induction b with
  | nil => rfl
  | cons c b ih =>
    have hlen : l.length < (c :: (b ++ l)).length := by
      rw [List.length_cons, List.length_append]
      omega
    obtain ⟨hat, hreply⟩ := h (c :: (b ++ l)) List.suffix_rfl hlen
    have hrest := ih fun y hy => h y (hy.trans (List.suffix_cons ..))
    rw [List.cons_append, tokenize_text hat hreply, hrest]
    rfl

theorem flatMap_item_map_text (text : List Char) :
    (text.map RawToken.text).flatMap (RawToken.item platformAccount botUin) = text.map .inl := by
  rw [List.flatMap_map, List.map_eq_flatMap]
  rfl

theorem keptItems_append (h : ∀ y, y <:+ b ++ l → l.length < y.length →
      codeAt atOpening y = none ∧ codeAt replyOpening y = none) :
    keptItems platformAccount botUin (b ++ l) =
      b.map .inl ++ keptItems platformAccount botUin l := by
  rw [keptItems, tokenize_append h, List.flatMap_append, flatMap_item_map_text]
  rfl

theorem keptItems_of_not_mem (h : ']' ∉ l) :
    keptItems platformAccount botUin l = l.map .inl := by
  have happend := @keptItems_append platformAccount botUin [] l fun y hy _ => by
    rw [List.append_nil] at hy
    exact ⟨codeAt_of_not_mem fun hm => h (hy.subset hm),
      codeAt_of_not_mem fun hm => h (hy.subset hm)⟩
  rwa [List.append_nil, keptItems_nil, List.append_nil] at happend

end Tokens

section Replies

theorem stripReplyTokens_of_unclosed
    (h : Text.splitOnceChars replyOpening remaining = some (before, after))
    (hend : Text.splitOnceChars [']'] after = none) :
    stripReplyTokens remaining = before ++ remaining := by
  unfold stripReplyTokens
  split
  · rename_i hs
    cases h.symm.trans hs
  · rename_i hs
    obtain ⟨rfl, rfl⟩ := Text.found_unique h hs
    split
    · rfl
    · rename_i he
      cases hend.symm.trans he

theorem keptItems_before (h : Text.splitOnceChars replyOpening remaining = some (before, after))
    (hat : ∀ y, y <:+ remaining → replyOpening.length + after.length < y.length →
      codeAt atOpening y = none) :
    keptItems platformAccount botUin remaining =
      before.map .inl ++ keptItems platformAccount botUin (replyOpening ++ after) := by
  have heq := Text.eq_of_splitOnceChars h
  rw [List.append_assoc] at heq
  rw [heq]
  apply keptItems_append
  intro y hy hlen
  rw [← heq] at hy
  rw [List.length_append] at hlen
  exact ⟨hat y hy hlen, codeAt_of_not_prefix (Text.not_prefix_of_splitOnceChars h hy hlen)⟩

/-- Where no mention begins, what is kept is at most what is left without the reply codes. -/
theorem stripReplyTokens_conserves (remaining : List Char)
    (hat : ∀ y, y <:+ remaining → codeAt atOpening y = none) :
    (keptItems platformAccount botUin remaining).length ≤ (stripReplyTokens remaining).length ∧
      ((stripReplyTokens remaining).map .inl = keptItems platformAccount botUin remaining ↔
        RepliesClosed remaining) := by
  induction remaining using stripReplyTokens.induct with
  | case1 remaining h =>
    have hkept := @keptItems_append platformAccount botUin [] remaining fun y hy _ => by
      rw [List.append_nil] at hy
      exact ⟨hat y hy, codeAt_of_none (by decide) h y hy⟩
    rw [List.append_nil, keptItems_nil, List.append_nil] at hkept
    rw [hkept, stripReplyTokens_of_none h, List.length_map]
    exact ⟨le_rfl, iff_of_true rfl (.none h)⟩
  | case2 remaining before after h hend =>
    have hmem : ']' ∉ replyOpening ++ after := by
      rw [List.mem_append, not_or]
      exact ⟨by decide, Text.not_mem_of_splitOnceChars_eq_none hend⟩
    have hkept := @keptItems_before platformAccount botUin _ _ _ h fun y hy _ => hat y hy
    have heq : remaining = before ++ replyOpening ++ after := Text.eq_of_splitOnceChars h
    rw [keptItems_of_not_mem hmem, ← List.map_append, ← List.append_assoc, ← heq] at hkept
    rw [hkept, stripReplyTokens_of_unclosed h hend, List.length_map, List.length_append]
    refine ⟨Nat.le_add_left .., ?_⟩
    rw [List.map_append, List.append_left_eq_self, List.map_eq_nil_iff]
    exact (repliesClosed_iff_of_unclosed h hend).symm
  | case3 remaining before after h id rest hend ih =>
    have hsuffix : rest <:+ remaining :=
      (Text.suffix_of_splitOnceChars hend).trans (Text.suffix_of_splitOnceChars h)
    obtain ⟨hle, hiff⟩ := ih fun y hy => hat y (hy.trans hsuffix)
    have hkept := @keptItems_before platformAccount botUin _ _ _ h fun y hy _ => hat y hy
    have hreply : codeAt replyOpening (replyOpening ++ after) = some (id, rest) :=
      (codeAt_append replyOpening after).trans hend
    rw [keptItems_reply (codeAt_atOpening_reply after) hreply] at hkept
    rw [hkept, stripReplyTokens_of_some h hend]
    simp only [List.length_append, List.length_map, List.map_append, List.append_cancel_left_eq]
    exact ⟨Nat.add_le_add_left hle _, hiff.trans (repliesClosed_iff_of_some h hend).symm⟩

end Replies

section Mentions

theorem exists_of_suffix_append {y : List Char} (hy : y <:+ b ++ l) (hlen : l.length < y.length) :
    ∃ y', y = y' ++ l ∧ y' <:+ b ∧ y' ≠ [] := by
  rcases List.suffix_or_suffix_of_suffix hy (List.suffix_append b l) with h | ⟨y', rfl⟩
  · have := h.length_le
    omega
  · obtain ⟨x, hx⟩ := hy
    rw [← List.append_assoc] at hx
    refine ⟨y', rfl, ⟨x, List.append_cancel_right hx⟩, ?_⟩
    rintro rfl
    simp at hlen

section Before

variable {tail : List Char} (htail : codeAt atOpening tail = some (qq, rest))
include htail

theorem tokenize_before_mention (hreply : Text.splitOnceChars replyOpening before = none)
    (hat : ∀ y, y <:+ before ++ tail → tail.length < y.length → codeAt atOpening y = none) :
    tokenize (before ++ tail) = before.map .text ++ .mention qq :: tokenize rest := by
  have hopening := codeAt_eq htail
  rw [List.append_assoc, List.append_assoc] at hopening
  rw [← tokenize_mention htail]
  apply tokenize_append
  intro y hy hlen
  refine ⟨hat y hy hlen, codeAt_of_not_prefix fun hpre => ?_⟩
  obtain ⟨y', rfl, hy', hne⟩ := exists_of_suffix_append hy hlen
  rw [hopening] at hpre
  have hpre' := Text.prefix_of_prefix_append_cons (c := '[') hne (by decide) hpre
  exact (Text.splitOnceChars_eq_none_iff (by decide)).mp hreply (hpre'.isInfix.trans hy'.isInfix)

theorem keptItems_before_mention (hreply : Text.splitOnceChars replyOpening before = none)
    (hat : ∀ y, y <:+ before ++ tail → tail.length < y.length → codeAt atOpening y = none) :
    keptItems platformAccount botUin (before ++ tail) =
      before.map .inl ++ .inr (mentionPart platformAccount botUin (String.ofList qq)) ::
        keptItems platformAccount botUin rest := by
  rw [keptItems, tokenize_before_mention htail hreply hat, List.flatMap_append,
    flatMap_item_map_text, List.flatMap_cons]
  rfl

theorem codeAt_replyOpening_mention (hclose : ']' ∉ after) :
    codeAt replyOpening (replyOpening ++ (after ++ tail)) =
      some (after ++ (atOpening ++ qq), rest) := by
  have hopening := codeAt_eq htail
  rw [List.append_assoc, List.append_assoc] at hopening
  have hqq : ']' ∉ qq := by
    rw [hopening, codeAt_append] at htail
    exact Text.not_mem_before_of_splitOnceChars htail
  have hmem : ']' ∉ after ++ (atOpening ++ qq) := by
    rw [List.mem_append, List.mem_append, not_or, not_or]
    exact ⟨hclose, by decide, hqq⟩
  have hswallow := @Text.splitOnceChars_append ']' _ rest [] hmem
  rw [codeAt_append, hopening]
  simpa only [List.append_assoc] using hswallow

/-- Of a text in front of a mention less is kept if a reply code is opened in it. -/
theorem length_keptItems_before_mention (hreply : Text.splitOnceChars replyOpening before ≠ none)
    (hat : ∀ y, y <:+ before ++ tail → tail.length < y.length → codeAt atOpening y = none) :
    (keptItems platformAccount botUin (before ++ tail)).length ≤
      before.length + (keptItems platformAccount botUin rest).length := by
  induction hn : before.length using Nat.strong_induction_on generalizing before with
  | _ n ih =>
    subst hn
    obtain ⟨⟨b, a⟩, hb⟩ := Option.ne_none_iff_exists'.mp hreply
    have hlen := congrArg List.length (Text.eq_of_splitOnceChars hb)
    rw [List.length_append, List.length_append] at hlen
    have hkept := @keptItems_before platformAccount botUin _ _ _
      (Text.splitOnceChars_append_right hb tail) fun y hy hy' =>
        hat y hy (by rw [List.length_append] at hy'; omega)
    rw [hkept, List.length_append, List.length_map]
    cases hclose : Text.splitOnceChars [']'] a with
    | none =>
      rw [keptItems_reply (codeAt_atOpening_reply _) (codeAt_replyOpening_mention htail
        (Text.not_mem_of_splitOnceChars_eq_none hclose))]
      omega
    | some p =>
      obtain ⟨id, a'⟩ := p
      have hlen' := congrArg List.length (Text.eq_of_splitOnceChars hclose)
      rw [List.length_append, List.length_append, List.length_singleton] at hlen'
      have hcode : codeAt replyOpening (replyOpening ++ (a ++ tail)) = some (id, a' ++ tail) :=
        (codeAt_append ..).trans (Text.splitOnceChars_append_right hclose tail)
      rw [keptItems_reply (codeAt_atOpening_reply _) hcode]
      have hat' : ∀ y, y <:+ a' ++ tail → tail.length < y.length → codeAt atOpening y = none := by
        obtain ⟨x, hx⟩ := (Text.suffix_of_splitOnceChars hclose).trans
          (Text.suffix_of_splitOnceChars hb)
        exact fun y hy => hat y (hy.trans ⟨x, by rw [← List.append_assoc, hx]⟩)
      by_cases h : Text.splitOnceChars replyOpening a' = none
      · rw [keptItems_before_mention htail h hat', List.length_append, List.length_map,
          List.length_cons]
        omega
      · have hrest := ih a'.length (by omega) h hat' rfl
        omega

end Before

section Openings

theorem codeAt_of_before (h : Text.splitOnceChars atOpening remaining = some (before, after)) :
    ∀ y, y <:+ before ++ (atOpening ++ after) → (atOpening ++ after).length < y.length →
      codeAt atOpening y = none := by
  intro y hy hlen
  rw [← List.append_assoc, ← Text.eq_of_splitOnceChars h] at hy
  rw [List.length_append] at hlen
  exact codeAt_of_not_prefix (Text.not_prefix_of_splitOnceChars h hy hlen)

theorem codeAt_of_unclosed (h : Text.splitOnceChars atOpening remaining = some (before, after))
    (hend : Text.splitOnceChars [']'] after = none) :
    ∀ y, y <:+ remaining → codeAt atOpening y = none := by
  intro y hy
  have hmem : ']' ∉ atOpening ++ after := by
    rw [List.mem_append, not_or]
    exact ⟨by decide, Text.not_mem_of_splitOnceChars_eq_none hend⟩
  rw [Text.eq_of_splitOnceChars h, List.append_assoc] at hy
  rcases Nat.lt_or_ge (atOpening ++ after).length y.length with hlen | hlen
  · exact codeAt_of_before h y hy hlen
  · have hy' : y <:+ atOpening ++ after :=
      List.suffix_of_suffix_length_le hy (List.suffix_append ..) hlen
    exact codeAt_of_not_mem fun hm => hmem (hy'.subset hm)

end Openings

theorem parseRawMessageParts_of_unclosed
    (h : Text.splitOnceChars atOpening remaining = some (before, after))
    (hend : Text.splitOnceChars [']'] after = none) :
    parseRawMessageParts platformAccount botUin remaining =
      textPart before ++ textPart (stripReplyTokens remaining) := by
  unfold parseRawMessageParts
  split
  · rename_i hs
    cases h.symm.trans hs
  · rename_i hs
    obtain ⟨rfl, rfl⟩ := Text.found_unique h hs
    split
    · rfl
    · rename_i he
      cases hend.symm.trans he

theorem parseRawMessageParts_of_some
    (h : Text.splitOnceChars atOpening remaining = some (before, after))
    (hend : Text.splitOnceChars [']'] after = some (qq, rest)) :
    parseRawMessageParts platformAccount botUin remaining =
      textPart before ++ mentionPart platformAccount botUin (String.ofList qq) ::
        parseRawMessageParts platformAccount botUin rest := by
  conv_lhs => unfold parseRawMessageParts
  split
  · rename_i hs
    cases h.symm.trans hs
  · rename_i hs
    obtain ⟨rfl, rfl⟩ := Text.found_unique h hs
    split
    · rename_i he
      cases hend.symm.trans he
    · rename_i he
      obtain ⟨rfl, rfl⟩ := Text.found_unique hend he
      rfl

@[simp] theorem partItems_textPart (text : List Char) :
    (textPart text).flatMap partItems = text.map .inl := by
  unfold textPart
  split_ifs with h
  · rw [h]
    rfl
  · simp [partItems]

section Mention

variable (h : Text.splitOnceChars atOpening remaining = some (before, after))
  (hend : Text.splitOnceChars [']'] after = some (qq, rest))
include h hend

theorem rawItems_of_some : rawItems platformAccount botUin remaining =
    before.map .inl ++ .inr (mentionPart platformAccount botUin (String.ofList qq)) ::
      rawItems platformAccount botUin rest := by
  rw [rawItems, parseRawMessageParts_of_some h hend, List.flatMap_append, partItems_textPart,
    List.flatMap_cons]
  rfl

theorem tokenize_of_some (hreply : Text.splitOnceChars replyOpening before = none) :
    tokenize remaining = before.map .text ++ .mention qq :: tokenize rest := by
  have htail : codeAt atOpening (atOpening ++ after) = some (qq, rest) :=
    (codeAt_append atOpening after).trans hend
  rw [Text.eq_of_splitOnceChars h, List.append_assoc]
  exact tokenize_before_mention htail hreply (codeAt_of_before h)

theorem keptItems_of_some (hreply : Text.splitOnceChars replyOpening before = none) :
    keptItems platformAccount botUin remaining =
      before.map .inl ++ .inr (mentionPart platformAccount botUin (String.ofList qq)) ::
        keptItems platformAccount botUin rest := by
  rw [keptItems, tokenize_of_some h hend hreply, List.flatMap_append, flatMap_item_map_text,
    List.flatMap_cons]
  rfl

theorem length_keptItems_of_some (hreply : Text.splitOnceChars replyOpening before ≠ none) :
    (keptItems platformAccount botUin remaining).length ≤
      before.length + (keptItems platformAccount botUin rest).length := by
  have htail : codeAt atOpening (atOpening ++ after) = some (qq, rest) :=
    (codeAt_append atOpening after).trans hend
  rw [Text.eq_of_splitOnceChars h, List.append_assoc]
  exact length_keptItems_before_mention htail hreply (codeAt_of_before h)

end Mention

/-- Nothing is lost from a raw message, and nothing is added exactly if it is readable. -/
theorem rawItems_conserves (remaining : List Char) :
    (keptItems platformAccount botUin remaining).length ≤
        (rawItems platformAccount botUin remaining).length ∧
      (rawItems platformAccount botUin remaining = keptItems platformAccount botUin remaining ↔
        Readable remaining) := by
  induction remaining using parseRawMessageParts.induct with
  | case1 remaining h =>
    obtain ⟨hle, hiff⟩ := @stripReplyTokens_conserves platformAccount botUin remaining
      (codeAt_of_none (by decide) h)
    rw [rawItems, parseRawMessageParts_of_none h, partItems_textPart, List.length_map,
      readable_iff_of_none h]
    exact ⟨hle, hiff⟩
  | case2 remaining before after h hend =>
    obtain ⟨hle, hiff⟩ := @stripReplyTokens_conserves platformAccount botUin remaining
      (codeAt_of_unclosed h hend)
    rw [rawItems, parseRawMessageParts_of_unclosed h hend, List.flatMap_append,
      partItems_textPart, partItems_textPart, List.length_append, List.length_map,
      List.length_map]
    rw [readable_iff_of_unclosed h hend, ← hiff]
    refine ⟨hle.trans (Nat.le_add_left ..), ?_⟩
    constructor
    · intro heq
      have hlen := congrArg List.length heq
      rw [List.length_append, List.length_map, List.length_map] at hlen
      obtain rfl : before = [] := List.eq_nil_of_length_eq_zero (by omega)
      exact ⟨rfl, heq⟩
    · rintro ⟨rfl, heq⟩
      exact heq
  | case3 remaining before after h qq rest hend ih =>
    obtain ⟨hle, hiff⟩ := ih
    rw [rawItems_of_some h hend, List.length_append, List.length_map, List.length_cons,
      readable_iff_of_some h hend, ← hiff]
    by_cases hreply : Text.splitOnceChars replyOpening before = none
    · rw [keptItems_of_some h hend hreply, List.length_append, List.length_map, List.length_cons,
        List.append_cancel_left_eq, List.cons.injEq, and_iff_right rfl, and_iff_right hreply]
      exact ⟨by omega, Iff.rfl⟩
    · have hlt := @length_keptItems_of_some platformAccount botUin _ _ _ _ _ h hend hreply
      refine ⟨by omega, iff_of_false (fun heq => ?_) fun hreadable => hreply hreadable.1⟩
      have hlen := congrArg List.length heq
      rw [List.length_append, List.length_map, List.length_cons] at hlen
      omega

section ReplyFree

theorem replyFree_of_none (h : Text.splitOnceChars replyOpening before = none) :
    ReplyFree before := codeAt_of_none (by decide) h

theorem replyFree_textPart_iff (text : List Char) :
    (∀ t, .text t ∈ textPart text → ReplyFree t.toList) ↔ ReplyFree text := by
  unfold textPart
  split_ifs with hempty
  · subst hempty
    exact iff_of_true (by simp) (replyFree_of_none rfl)
  · simp

theorem isMention_map_text (text : List Char) :
    ∀ token ∈ text.map RawToken.text, token.isMention = false := by
  intro token htoken
  obtain ⟨c, -, rfl⟩ := List.mem_map.mp htoken
  rfl

theorem flatMap_chars_map_text (text : List Char) :
    (text.map RawToken.text).flatMap RawToken.chars = text := by
  rw [List.flatMap_map]
  exact List.flatMap_singleton' text

theorem isMention_tokenize (rawMessage : List Char)
    (hat : ∀ y, y <:+ rawMessage → codeAt atOpening y = none) :
    ∀ token ∈ tokenize rawMessage, token.isMention = false := by
  induction rawMessage using tokenize.induct with
  | case1 => simp [tokenize]
  | case2 c l qq rest hmention ih => cases (hat _ List.suffix_rfl).symm.trans hmention
  | case3 c l hnot id rest hreply ih =>
    have hsuffix : rest <:+ c :: l := ⟨_, (codeAt_eq hreply).symm⟩
    rw [tokenize_reply hnot hreply, List.forall_mem_cons]
    exact ⟨rfl, ih fun y hy => hat y (hy.trans hsuffix)⟩
  | case4 c l hnot hreply ih =>
    rw [tokenize_text hnot hreply, List.forall_mem_cons]
    exact ⟨rfl, ih fun y hy => hat y (hy.trans (List.suffix_cons ..))⟩

theorem filterMap_keptItems (rawMessage : List Char) :
    (keptItems platformAccount botUin rawMessage).filterMap Sum.getLeft? =
      (tokenize rawMessage).flatMap RawToken.chars := by
  rw [keptItems, List.filterMap_flatMap]
  congr 1
  funext token
  cases token <;> rfl

/-- Where no mention begins, the text is what is left without the reply codes. -/
theorem textsOf_of_replies (hat : ∀ y, y <:+ remaining → codeAt atOpening y = none)
    (hreplies : RepliesClosed remaining) : textsOf remaining = [stripReplyTokens remaining] := by
  have hkept : (stripReplyTokens remaining).map .inl = keptItems "" "" remaining :=
    (stripReplyTokens_conserves remaining hat).2.mpr hreplies
  rw [textsOf, List.splitOnP_eq_singleton (isMention_tokenize remaining hat), List.map_singleton,
    ← @filterMap_keptItems "" "", ← hkept, List.filterMap_map]
  exact congrArg ([·]) List.filterMap_some

theorem textsOf_of_some (h : Text.splitOnceChars atOpening remaining = some (before, after))
    (hend : Text.splitOnceChars [']'] after = some (qq, rest))
    (hreply : Text.splitOnceChars replyOpening before = none) :
    textsOf remaining = before :: textsOf rest := by
  rw [textsOf, tokenize_of_some h hend hreply,
    List.splitOnP_append_cons_of_forall_mem (isMention_map_text before) _ rfl, List.map_cons,
    flatMap_chars_map_text]
  rfl

/-- The text parts of a readable message are its ordinary texts. -/
theorem replies_iff_textsOf (hreadable : Readable remaining) :
    (∀ text, .text text ∈ parseRawMessageParts platformAccount botUin remaining →
      ReplyFree text.toList) ↔ ∀ text ∈ textsOf remaining, ReplyFree text := by
  induction hreadable with
  | none h hreplies =>
    rw [parseRawMessageParts_of_none h, replyFree_textPart_iff,
      textsOf_of_replies (codeAt_of_none (by decide) h) hreplies]
    exact List.forall_mem_singleton.symm
  | unclosed h hend hreplies =>
    rw [parseRawMessageParts_of_unclosed h hend,
      textsOf_of_replies (codeAt_of_unclosed h hend) hreplies]
    exact (replyFree_textPart_iff _).trans List.forall_mem_singleton.symm
  | @some remaining before after qq rest h hend hbefore hrest ih =>
    rw [parseRawMessageParts_of_some h hend, textsOf_of_some h hend hbefore,
      List.forall_mem_cons, ← ih, and_iff_right (replyFree_of_none hbefore)]
    have hmention : ∀ text,
        .text text ≠ mentionPart platformAccount botUin (String.ofList qq) := by
      intro text heq
      cases heq
    constructor
    · intro hall text htext
      exact hall text (List.mem_append_right _ (List.mem_cons_of_mem _ htext))
    · intro hall text htext
      obtain htext | htext := List.mem_append.mp htext
      · exact (replyFree_textPart_iff before).mpr (replyFree_of_none hbefore) text htext
      · obtain heq | htext := List.mem_cons.mp htext
        · exact absurd heq (hmention text)
        · exact hall text htext

end ReplyFree

/-- A raw message is read as its ordinary text and its mentions, without a reply code, exactly if it
is readable and no reply code comes out when its reply codes are left out. -/
theorem raw_message_conserved_iff (platformAccount botUin rawMessage : String) :
    Conserved platformAccount botUin rawMessage.toList ↔
      Readable rawMessage.toList ∧ ∀ text ∈ textsOf rawMessage.toList, ReplyFree text := by
  have hitems := (@rawItems_conserves platformAccount botUin rawMessage.toList).2
  constructor
  · intro h
    have hreadable := hitems.mp h.items
    exact ⟨hreadable, (replies_iff_textsOf hreadable).mp h.replies⟩
  · rintro ⟨hreadable, htexts⟩
    exact ⟨hitems.mpr hreadable, (replies_iff_textsOf hreadable).mpr htexts⟩

/-- The reply code in front of a mention becomes a text. -/
theorem reply_before_mention_kept : ¬ ∀ platformAccount botUin rawMessage : String,
    Conserved platformAccount botUin rawMessage.toList := by
  intro h
  have hitems := (h "qq:bot_uin:9" "9" "[CQ:reply,id=1][CQ:at,qq=2]").items
  rw [(rawItems_conserves _).2, @readable_iff_of_some _ "[CQ:reply,id=1]".toList
    "2]".toList "2".toList [] (by decide +kernel) (by decide +kernel)] at hitems
  exact absurd hitems.1 (by decide +kernel)

end Mentions

end DogBot.Qq
