import DogBot.Protocol

/-! # Agent action items

Items of a `dogbot-action` block that send media become outbound messages. The
asset source is copied from the item; other items are skipped here.
-/

namespace DogBot

inductive ReplyToDirective
  | missing
  | null
  | value (text : String)
  deriving DecidableEq, Repr

structure ActionItem where
  actionType : String
  targetMessageId : Option String := none
  emoji : Option String := none
  replyTo : ReplyToDirective := .missing
  sourceType : Option String := none
  sourceValue : Option String := none
  captionText : Option String := none
  deriving DecidableEq, Repr

def normalizeReplyToValue (value : String) : Option String :=
  if Text.trim value = "" then none else some (Text.trim value)

def parseReplyToDirective : ReplyToDirective → Option (Option String × Bool)
  | .missing => none
  | .null => some (none, true)
  | .value value => (normalizeReplyToValue value).map fun replyTo => (some replyTo, false)

def defaultMime (partKind : String) : String :=
  match partKind with
  | "image" => "image/*"
  | "file" => "application/octet-stream"
  | "voice" => "audio/*"
  | "video" => "video/*"
  | "sticker" => "application/x-sticker"
  | _ => "application/octet-stream"

/-- The kind of media that an item sends, with the part it is sent as. -/
def mediaKind (actionType : String) : Option (String × (AssetRef → MessagePart)) :=
  match actionType with
  | "send_image" => some ("image", .image)
  | "send_file" => some ("file", .file)
  | "send_voice" => some ("voice", .voice)
  | "send_video" => some ("video", .video)
  | "send_sticker" => some ("sticker", .sticker)
  | _ => none

/-- The asset source of an item; the value is taken as it is. -/
def assetSource (sourceType sourceValue : Option String) : Option AssetSource :=
  match sourceType with
  | some "workspace_path" => sourceValue.map .workspacePath
  | some "stored_asset" => sourceValue.map .managedStore
  | some "remote_url" => sourceValue.map .externalUrl
  | some "platform_native_handle" => sourceValue.map .platformNativeHandle
  | some "bridge_handle" => sourceValue.map .bridgeHandle
  | _ => none

def mediaActionToMessage (item : ActionItem) : Option OutboundMessage := do
  let (partKind, part) ← mediaKind item.actionType
  let source ← assetSource item.sourceType item.sourceValue
  let asset : AssetRef :=
    { assetId := partKind ++ ":" ++ item.sourceValue.getD ""
      kind := partKind
      mime := defaultMime partKind
      sizeBytes := 0
      source }
  let caption := Text.trim (item.captionText.getD "")
  let directive := parseReplyToDirective item.replyTo
  return {
    parts := part asset :: if caption = "" then [] else [.text caption]
    replyTo := directive.bind Prod.fst
    suppressDefaultReply := (directive.map Prod.snd).getD false
    deliveryPolicy := none }

end DogBot
