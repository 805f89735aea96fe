import DogBot.Platforms.Sender

/-! # Events without a sender

An event that names no sender is accepted nevertheless, with an empty sender.
All such events of private chats share one conversation. A sender can also be
named in vain: by a key that is read too late, or by one that is present with a
value of no use.
-/

namespace DogBot.WeChatPadPro

open Json

variable {e : Value} {sender : String}

def envelopeSenderKeys : List String := ["fromUserName", "fromUsername", "FromUserName"]

/-- The value of the key has a text that is not blank. -/
def NonBlank (event : Value) (key text : String) : Prop :=
  ((event.get key).bind stringValue).map Text.trim = some text ∧ text ≠ ""

/-- The first of the keys that has a text has this one. -/
def FirstText (event : Value) (keys : List String) (text : String) : Prop :=
  ∃ before key after, keys = before ++ key :: after ∧ NonBlank event key text ∧
    ∀ k ∈ before, ∀ t, ¬ NonBlank event k t

/-- The first of the keys that is present has this text, which is no chat room. -/
def FirstPresent (event : Value) (keys : List String) (text : String) : Prop :=
  ∃ before key after, keys = before ++ key :: after ∧ NonBlank event key text ∧
    isChatroom text = false ∧ ∀ k ∈ before, event.get k = none

/-- How an event names its sender: by a sender field, or else in front of its content, or else by
the envelope. -/
inductive NamesSender (event : Value) (sender : String) : Prop
  | field (h : FirstText event senderKeys sender)
  | content (hfield : ∀ key ∈ senderKeys, ∀ text, ¬ NonBlank event key text)
      (h : HasTransportPrefix event sender)
  | envelope (hfield : ∀ key ∈ senderKeys, ∀ text, ¬ NonBlank event key text)
      (hcontent : ∀ name, ¬ HasTransportPrefix event name)
      (h : FirstPresent event envelopeSenderKeys sender)

/-- A sender in one of the known fields: the trimmed text of a string that is neither blank nor
the name of a chat room. -/
def UsableSender (event : Value) (sender : String) : Prop :=
  ∃ key ∈ senderKeys ++ envelopeSenderKeys, ∃ value, event.get key = some (.string value) ∧
    Text.trim value = sender ∧ sender ≠ "" ∧ isChatroom sender = false

/-- The parties of an event have names, and a private event with a usable sender is from one. -/
structure HasSender (payload : Value) (event : CanonicalEvent) : Prop where
  actor : ∃ id, id ≠ "" ∧ event.actor = "wechatpadpro:user:" ++ id
  target : ∃ target, target ≠ "" ∧
    (event.conversation = "wechatpadpro:private:" ++ target ∨
      event.conversation = "wechatpadpro:group:" ++ target)
  named : extractGroupId (unwrapEvent payload) = none →
    (∃ sender, UsableSender (unwrapEvent payload) sender) →
    ∃ sender, UsableSender (unwrapEvent payload) sender ∧
      event.actor = "wechatpadpro:user:" ++ sender

theorem FirstText.ne_empty {keys : List String} (h : FirstText e keys sender) : sender ≠ "" := by
  obtain ⟨_, _, _, _, hnonblank, _⟩ := h
  exact hnonblank.2

theorem FirstPresent.ne_empty {keys : List String} (h : FirstPresent e keys sender) :
    sender ≠ "" := by
  obtain ⟨_, _, _, _, hnonblank, _⟩ := h
  exact hnonblank.2

theorem filter_isNonEmpty_eq_some_iff {key text : String} :
    (((e.get key).bind stringValue).map Text.trim).filter isNonEmpty = some text ↔
      NonBlank e key text := by
  simp only [NonBlank, Option.filter_eq_some_iff, isNonEmpty, ne_eq, decide_not,
    Bool.not_eq_true', decide_eq_false_iff_not]

theorem firstText_isNonEmpty_iff {keys : List String} {text : String} :
    firstText keys isNonEmpty e = some text ↔ FirstText e keys text := by
  rw [firstText, List.findSome?_eq_some_iff]
  simp only [filter_isNonEmpty_eq_some_iff, FirstText, Option.eq_none_iff_forall_ne_some, ne_eq]

theorem firstText_isNonEmpty_eq_none_iff {keys : List String} :
    firstText keys isNonEmpty e = none ↔ ∀ key ∈ keys, ∀ text, ¬ NonBlank e key text := by
  rw [firstText, List.findSome?_eq_none_iff]
  simp only [Option.eq_none_iff_forall_ne_some, ne_eq, filter_isNonEmpty_eq_some_iff]

/-- The envelope gives a sender that is not empty exactly if its first present key does. -/
theorem envelopeSender_eq_iff (hne : sender ≠ "") :
    envelopeSender e = sender ↔ FirstPresent e envelopeSenderKeys sender := by
  have hgetD : ∀ o : Option String, o.getD "" = sender ↔ o = some sender := fun o => by
    cases o with
    | none => simp [Ne.symm hne]
    | some text => simp
  rw [envelopeSender, hgetD, Option.filter_eq_some_iff, Bool.and_eq_true, Bool.not_eq_true',
    isNonEmpty, decide_eq_true_eq]
  constructor
  · rintro ⟨htext, hroom, -⟩
    obtain ⟨value, hvalue, htrim⟩ := Option.map_eq_some_iff.mp htext
    obtain ⟨found, hfound, hstring⟩ := Option.bind_eq_some_iff.mp hvalue
    obtain ⟨before, key, after, hkeys, hget, hbefore⟩ := List.findSome?_eq_some_iff.mp hfound
    refine ⟨before, key, after, hkeys, ⟨?_, hne⟩, hroom, hbefore⟩
    rw [hget, Option.bind_some, hstring, Option.map_some, htrim]
  · rintro ⟨before, key, after, hkeys, ⟨htext, -⟩, hroom, hbefore⟩
    refine ⟨?_, hroom, hne⟩
    cases hget : e.get key with
    | none => simp [hget] at htext
    | some value =>
      have hfound : envelopeSenderKeys.findSome? e.get = some value :=
        List.findSome?_eq_some_iff.mpr ⟨before, key, after, hkeys, hget, hbefore⟩
      rw [envelopeSenderKeys] at hfound
      rw [hfound, ← hget, htext]

/-- The sender that is read is not empty exactly if the event names it. -/
theorem namesSender_iff :
    NamesSender e sender ↔ extractSender e = sender ∧ sender ≠ "" := by
  constructor
  · rintro (hfirst | ⟨hfield, hcontent⟩ | ⟨hfield, hcontent, hfirst⟩)
    · exact ⟨extractSender_of_field (firstText_isNonEmpty_iff.mpr hfirst), hfirst.ne_empty⟩
    · refine ⟨?_, hcontent.1⟩
      rw [extractSender_of_no_field (firstText_isNonEmpty_eq_none_iff.mpr hfield),
        transportSender_eq_some_iff.mpr hcontent, Option.getD_some]
    · have hnone : transportSender e = none :=
        Option.eq_none_iff_forall_ne_some.mpr fun name hname =>
          hcontent name (transportSender_eq_some_iff.mp hname)
      refine ⟨?_, hfirst.ne_empty⟩
      rw [extractSender_of_no_field (firstText_isNonEmpty_eq_none_iff.mpr hfield), hnone,
        Option.getD_none, envelopeSender_eq_iff hfirst.ne_empty]
      exact hfirst
  · rintro ⟨hsender, hne⟩
    cases hfield : firstText senderKeys isNonEmpty e with
    | some text =>
      rw [extractSender_of_field hfield] at hsender
      exact .field (firstText_isNonEmpty_iff.mp (hsender ▸ hfield))
    | none =>
      rw [extractSender_of_no_field hfield] at hsender
      have hfield := firstText_isNonEmpty_eq_none_iff.mp hfield
      cases hcontent : transportSender e with
      | some name =>
        rw [hcontent, Option.getD_some] at hsender
        exact .content hfield (transportSender_eq_some_iff.mp (hsender ▸ hcontent))
      | none =>
        rw [hcontent, Option.getD_none, envelopeSender_eq_iff hne] at hsender
        refine .envelope hfield (fun name hname => ?_) hsender
        rw [transportSender_eq_some_iff.mpr hname] at hcontent
        cases hcontent

theorem extractGroupId_ne_empty {roomId : String} (h : extractGroupId e = some roomId) :
    roomId ≠ "" := by
  have haccepted : ∀ (keys : List String) (accept : String → Bool) (text : String),
      firstText keys accept e = some text → accept text = true := by
    intro keys accept text htext
    obtain ⟨-, key, -, -, hfilter, -⟩ := List.findSome?_eq_some_iff.mp htext
    exact (Option.filter_eq_some_iff.mp hfilter).2
  rintro rfl
  rw [extractGroupId, Option.orElse_eq_orElse, Option.orElse_eq_or, Option.or_eq_some_iff] at h
  rcases h with h | ⟨-, h⟩
  · exact absurd (haccepted _ _ _ h) (by decide)
  · exact absurd (haccepted _ _ _ h) (by decide +kernel)

/-- The parties of an accepted event have names, and usable senders count, exactly if the event
names a sender which, if the event is private and has a usable one, is usable. -/
theorem has_sender_iff {now : ℤ} {payload : Value} {account : String} {mentionNames : List String}
    {event : CanonicalEvent}
    (h : decodeWebhookEvent now payload account mentionNames = some event) :
    HasSender payload event ↔ ∃ sender, NamesSender (unwrapEvent payload) sender ∧
      (extractGroupId (unwrapEvent payload) = none →
        (∃ usable, UsableSender (unwrapEvent payload) usable) →
        UsableSender (unwrapEvent payload) sender) := by
  obtain ⟨-, -, hactor, hconv⟩ := decodeWebhookEvent_parties h
  constructor
  · rintro ⟨⟨id, hne, hid⟩, -, hnamed⟩
    have hsender : extractSender (unwrapEvent payload) = id :=
      (String.append_right_inj _).mp (hactor.symm.trans hid)
    refine ⟨id, namesSender_iff.mpr ⟨hsender, hne⟩, fun hgroup husable => ?_⟩
    obtain ⟨sender, husable, hfrom⟩ := hnamed hgroup husable
    exact (String.append_right_inj _).mp (hid.symm.trans hfrom) ▸ husable
  · rintro ⟨sender, hnames, husable⟩
    obtain ⟨hsender, hne⟩ := namesSender_iff.mp hnames
    rw [hsender] at hactor
    refine ⟨⟨sender, hne, hactor⟩, ?_, fun hgroup hsome =>
      ⟨sender, husable hgroup hsome, hactor⟩⟩
    cases hgroup : extractGroupId (unwrapEvent payload) with
    | some roomId =>
      refine ⟨roomId, extractGroupId_ne_empty hgroup, .inr ?_⟩
      rw [hconv, conversationOf, hgroup]
    | none =>
      refine ⟨sender, hne, .inl ?_⟩
      rw [hconv, conversationOf, hgroup, hsender]

theorem has_sender_iff_plain : ∃ event,
    decodeWebhookEvent 0 (privatePayload "hello") "wechatpadpro:account:bot" [] = some event ∧
    (HasSender (privatePayload "hello") event ↔
      ∃ sender, NamesSender (unwrapEvent (privatePayload "hello")) sender ∧
        (extractGroupId (unwrapEvent (privatePayload "hello")) = none →
          (∃ usable, UsableSender (unwrapEvent (privatePayload "hello")) usable) →
          UsableSender (unwrapEvent (privatePayload "hello")) sender)) := by
  obtain ⟨event, hevent, -⟩ := @exists_decode_private "hello" (by decide +kernel) _ rfl
  exact ⟨event, hevent, has_sender_iff hevent⟩

/-- A payload with a message but without sender metadata. -/
def anonymousPayload : Value := .object [("msgId", .string "1"), ("content", .string "hello")]

/-- A payload without sender metadata is accepted. -/
theorem anonymous_accepted : ¬ ∀ (now : ℤ) (payload : Value) (account : String)
    (mentionNames : List String) (event : CanonicalEvent),
    decodeWebhookEvent now payload account mentionNames = some event →
      HasSender payload event := by
  intro hall
  have hsome : (decodeWebhookEvent 0 anonymousPayload "wechatpadpro:account:bot" []).isSome =
      true := by decide +kernel
  obtain ⟨event, hevent⟩ := Option.isSome_iff_exists.mp hsome
  obtain ⟨id, hne, hid⟩ := (hall _ _ _ _ _ hevent).actor
  obtain ⟨-, -, hactor, -⟩ := decodeWebhookEvent_parties hevent
  have hempty : extractSender (unwrapEvent anonymousPayload) = "" := by decide +kernel
  exact hne ((String.append_right_inj _).mp (hid.symm.trans (hempty ▸ hactor)))

end DogBot.WeChatPadPro
