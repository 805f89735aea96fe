import DogBot.Library.Runs
import DogBot.Platforms.WeChatMentions

/-! # What a WeChat message is compiled to

The parts of a message are cut at its media. Each run of texts and mentions is
one text request, unless nothing of it is visible, and each media part is one
file request. Quotes are left out and do not end a run.
-/

namespace DogBot.WeChatPadPro

open Json (Value)

/-- The type and the asset of the file that a part sends. -/
def mediaFile : MessagePart → Option (String × AssetRef)
  | .image asset => some ("image", asset)
  | .video asset => some ("video", asset)
  | .file asset => some ("file", asset)
  | .voice asset => some ("file", asset)
  | .sticker asset => some ("image", asset)
  | .text _ | .mention _ _ | .quote _ _ => none

def partKind : MessagePart → Runs.Kind
  | .text _ | .mention _ _ => .inner
  | .quote _ _ => .skipped
  | _ => .mark

/-- An asset that can be sent: a path in the workspace that ends in a file name. -/
def Sendable (asset : AssetRef) : Prop :=
  ∃ path fileName, asset.source = .workspacePath path ∧ Path.fileName path = some fileName ∧
    fileName ≠ ""

/-- Add what a part renders to a text. A mention stands between spaces. -/
def renderPart (text : String) (part : MessagePart) : String :=
  match part with
  | .text partText => text ++ partText
  | part =>
    match partMention part with
    | none => text
    | some mention =>
      (if text ≠ "" ∧ ¬ endsWithWhitespace text then text ++ " " else text) ++
        renderMentionText mention ++ " "

def renderRun (parts : List MessagePart) : String := Text.trim (parts.foldl renderPart "")

def filePayload (target filePath fileName fileType : String) : Value :=
  .object [("fileName", .string fileName), ("filePath", .string filePath),
    ("fileType", .string fileType), ("toUserName", .string target)]

/-- A text for a chat, without anybody to notify. -/
def textPayload (target text : String) : Value :=
  .object [("MsgItem", .array [.object [("MsgType", .number (.int 1)),
    ("TextContent", .string text), ("ToUserName", .string target)]])]

def notifyingPayload (target text : String) (users : List String) : Value :=
  .object [("MsgItem", .array [.object [("AtWxIDList", .array (users.map .string)),
    ("MsgType", .number (.int 1)), ("TextContent", .string text),
    ("ToUserName", .string target)]])]

/-- The requests of a piece of a message. In a group, the names of the mentions stand in front of
the text of a run once more. -/
inductive PieceRequests (context : DeliveryContext) (applyDefaultGroupMention : Bool) :
    Runs.Piece MessagePart → List OutboundRequest → Prop

  | blank {parts : List MessagePart} : Text.visibleChars (parts.flatMap partRendering) = [] →
      PieceRequests context applyDefaultGroupMention (.run parts) []

  | text {parts : List MessagePart} : Text.visibleChars (parts.flatMap partRendering) ≠ [] →
      ¬ (conversationScope context.conversationId = some "group" ∧
        payloadMentions context applyDefaultGroupMention (parts.filterMap partMention) ≠ []) →
      PieceRequests context applyDefaultGroupMention (.run parts)
        [.text (textPayload (conversationTarget context.conversationId) (renderRun parts))]

  | notifying {parts : List MessagePart} {mentions : List MentionTarget} :
      Text.visibleChars (parts.flatMap partRendering) ≠ [] →
      conversationScope context.conversationId = some "group" →
      payloadMentions context applyDefaultGroupMention (parts.filterMap partMention) = mentions →
      mentions ≠ [] →
      PieceRequests context applyDefaultGroupMention (.run parts)
        [.text (notifyingPayload (conversationTarget context.conversationId)
          (" ".intercalate (mentions.map renderMentionText) ++ " " ++ renderRun parts)
          (mentions.map MentionTarget.actorId))]

  | media {part : MessagePart} {fileType path fileName : String} {asset : AssetRef} :
      mediaFile part = some (fileType, asset) → asset.source = .workspacePath path →
      Path.fileName path = some fileName → fileName ≠ "" →
      PieceRequests context applyDefaultGroupMention (.mark part)
        [.file (filePayload (conversationTarget context.conversationId) path fileName fileType)]

section

variable (debug : DebugFormat) (context : DeliveryContext) (applyDefaultGroupMention : Bool)

def pieceRequests : Runs.Piece MessagePart → Except String (List OutboundRequest)
  | .run parts => flushTextRequest debug [] parts context applyDefaultGroupMention
  | .mark part =>
    match mediaFile part with
    | some (fileType, asset) =>
      (compileFilePayload debug context fileType asset).map fun payload => [.file payload]
    | none => .ok []

/-- The requests of some pieces, or the first error. -/
def requestsOf : List (Runs.Piece MessagePart) → Except String (List OutboundRequest)
  | [] => .ok []
  | piece :: pieces => do
    let requests ← pieceRequests debug context applyDefaultGroupMention piece
    let behind ← requestsOf pieces
    return requests ++ behind

end

variable {debug : DebugFormat} {context : DeliveryContext} {applyDefaultGroupMention : Bool}
  {part : MessagePart} {parts textParts : List MessagePart}
  {requests : List OutboundRequest} {text : String} {mentions : List MentionTarget}

theorem partKind_eq_mark_iff : partKind part = .mark ↔ (mediaFile part).isSome := by
  cases part <;> simp [partKind, mediaFile]

theorem addTextPart_of_inner (h : partKind part = .inner) :
    addTextPart debug (text, mentions) part =
      .ok (renderPart text part, mentions ++ (partMention part).toList) := by
  cases part with
  | text partText => simp [addTextPart, renderPart, partMention]
  | mention actorId display =>
    simp only [addTextPart, renderPart, partMention]
    split_ifs <;> simp
  | _ => cases h

theorem foldlM_addTextPart_of_inner (h : ∀ part ∈ parts, partKind part = .inner) :
    parts.foldlM (addTextPart debug) (text, mentions) =
      .ok (parts.foldl renderPart text, mentions ++ parts.filterMap partMention) := by
  induction parts generalizing text mentions with
  | nil => simp [pure, Except.pure]
  | cons part parts ih =>
    obtain ⟨hpart, hparts⟩ := List.forall_mem_cons.mp h
    rw [List.foldlM_cons, addTextPart_of_inner hpart]
    change parts.foldlM (addTextPart debug) (renderPart text part, _) = _
    rw [ih hparts, List.foldl_cons, List.append_assoc, List.filterMap_cons]
    cases partMention part <;> rfl

theorem visibleChars_renderRun (h : ∀ part ∈ parts, partKind part = .inner) :
    Text.visibleChars (renderRun parts).toList =
      Text.visibleChars (parts.flatMap partRendering) := by
  obtain ⟨htext, -⟩ := foldlM_addTextPart (@foldlM_addTextPart_of_inner plainDebug _ "" [] h)
  rw [renderRun, Text.trim, String.toList_ofList, Text.visibleChars_trimChars, htext]
  rfl

theorem flushTextRequest_run (hne : parts ≠ []) (h : ∀ part ∈ parts, partKind part = .inner) :
    flushTextRequest debug requests parts context applyDefaultGroupMention =
      .ok (requests ++
        if Text.visibleChars (parts.flatMap partRendering) = [] then []
        else [.text (buildTextPayload (conversationTarget context.conversationId) (renderRun parts)
          (conversationScope context.conversationId = some "group")
          (payloadMentions context applyDefaultGroupMention (parts.filterMap partMention)))]) := by
  have hfold := @foldlM_addTextPart_of_inner debug _ "" [] h
  have hblank : Text.trim (parts.foldl renderPart "") = "" ↔
      Text.visibleChars (parts.flatMap partRendering) = [] := by
    rw [← visibleChars_renderRun h, ← Text.trim_eq_empty_iff, renderRun, Text.trim_trim]
  rw [flushTextRequest, compileTextPayloadFromParts_eq debug hne hfold]
  by_cases hempty : Text.visibleChars (parts.flatMap partRendering) = []
  · rw [if_pos hempty, if_pos (hblank.mpr hempty), List.append_nil]
    rfl
  · rw [if_neg hempty, if_neg (mt hblank.mp hempty)]
    rfl

theorem exists_request_of_run (hrun : Text.visibleChars (parts.flatMap partRendering) ≠ []) :
    ∃ request, PieceRequests context applyDefaultGroupMention (.run parts) [request] := by
  by_cases hnotify : conversationScope context.conversationId = some "group" ∧
      payloadMentions context applyDefaultGroupMention (parts.filterMap partMention) ≠ []
  · exact ⟨_, .notifying hrun hnotify.1 rfl hnotify.2⟩
  · exact ⟨_, .text hrun hnotify⟩

/-- The request of a run is the one that the code builds. -/
theorem pieceRequests_run_iff (hinner : ∀ part ∈ parts, partKind part = .inner)
    (hrun : Text.visibleChars (parts.flatMap partRendering) ≠ []) :
    PieceRequests context applyDefaultGroupMention (.run parts) requests ↔
      [.text (buildTextPayload (conversationTarget context.conversationId) (renderRun parts)
        (conversationScope context.conversationId = some "group")
        (payloadMentions context applyDefaultGroupMention (parts.filterMap partMention)))] =
        requests := by
  have hplain : ¬ (conversationScope context.conversationId = some "group" ∧
      payloadMentions context applyDefaultGroupMention (parts.filterMap partMention) ≠ []) →
      buildTextPayload (conversationTarget context.conversationId) (renderRun parts)
        (conversationScope context.conversationId = some "group")
        (payloadMentions context applyDefaultGroupMention (parts.filterMap partMention)) =
        textPayload (conversationTarget context.conversationId) (renderRun parts) := by
    intro h
    unfold buildTextPayload
    dsimp only
    rw [if_neg (by simpa using h)]
    rfl
  have hnotifying : conversationScope context.conversationId = some "group" →
      payloadMentions context applyDefaultGroupMention (parts.filterMap partMention) ≠ [] →
      buildTextPayload (conversationTarget context.conversationId) (renderRun parts)
        (conversationScope context.conversationId = some "group")
        (payloadMentions context applyDefaultGroupMention (parts.filterMap partMention)) =
        notifyingPayload (conversationTarget context.conversationId)
          (" ".intercalate ((payloadMentions context applyDefaultGroupMention
            (parts.filterMap partMention)).map renderMentionText) ++ " " ++ renderRun parts)
          ((payloadMentions context applyDefaultGroupMention
            (parts.filterMap partMention)).map MentionTarget.actorId) := by
    intro hgroup hne
    have htrim : Text.trim (renderRun parts) = renderRun parts := Text.trim_trim _
    have htext : renderRun parts ≠ "" := by
      rwa [← htrim, ne_eq, Text.trim_eq_empty_iff, visibleChars_renderRun hinner]
    rw [buildTextPayload_of_mentions _ _ (decide_eq_true hgroup) hne, htrim, if_neg htext,
      notifyingPayload, List.map_map]
    rfl
  constructor
  · rintro (hblank | ⟨-, hnot⟩ | ⟨-, hgroup, rfl, hne⟩)
    · exact absurd hblank hrun
    · rw [hplain hnot]
    · rw [hnotifying hgroup hne]
  · rintro rfl
    by_cases hnotify : conversationScope context.conversationId = some "group" ∧
        payloadMentions context applyDefaultGroupMention (parts.filterMap partMention) ≠ []
    · rw [hnotifying hnotify.1 hnotify.2]
      exact .notifying hrun hnotify.1 rfl hnotify.2
    · rw [hplain hnotify]
      exact .text hrun hnotify

theorem flushTextRequest_nil :
    flushTextRequest debug requests [] context applyDefaultGroupMention = .ok requests := rfl

theorem flushTextRequest_eq (h : ∀ part ∈ textParts, partKind part = .inner) :
    flushTextRequest debug requests textParts context applyDefaultGroupMention =
      (requestsOf debug context applyDefaultGroupMention (Runs.close textParts)).map
        (requests ++ ·) := by
  cases textParts with
  | nil => rw [flushTextRequest_nil, Runs.close, requestsOf, Except.map, List.append_nil]
  | cons part parts =>
    have hne : part :: parts ≠ [] := List.cons_ne_nil _ _
    rw [Runs.close, requestsOf, pieceRequests, flushTextRequest_run hne h,
      flushTextRequest_run hne h]
    simp [requestsOf, bind, Except.bind, pure, Except.pure, Except.map]

theorem requestsOf_append (pieces behind : List (Runs.Piece MessagePart)) :
    requestsOf debug context applyDefaultGroupMention (pieces ++ behind) = (do
      let requests ← requestsOf debug context applyDefaultGroupMention pieces
      let behind ← requestsOf debug context applyDefaultGroupMention behind
      return requests ++ behind) := by
  induction pieces with
  | nil =>
    rw [List.nil_append]
    cases requestsOf debug context applyDefaultGroupMention behind <;> rfl
  | cons piece pieces ih =>
    rw [List.cons_append, requestsOf, ih, requestsOf]
    cases pieceRequests debug context applyDefaultGroupMention piece with
    | error e => rfl
    | ok requests =>
      cases requestsOf debug context applyDefaultGroupMention pieces with
      | error e => rfl
      | ok next =>
        cases requestsOf debug context applyDefaultGroupMention behind with
        | error e => rfl
        | ok last => exact congrArg Except.ok (List.append_assoc _ _ _).symm

theorem addOutboundPart_media {fileType : String} {asset : AssetRef}
    (h : mediaFile part = some (fileType, asset)) :
    addOutboundPart debug context applyDefaultGroupMention (requests, textParts) part = (do
      let requests ← flushTextRequest debug requests textParts context applyDefaultGroupMention
      let payload ← compileFilePayload debug context fileType asset
      return (requests ++ [.file payload], [])) := by
  cases part <;> cases h <;> rfl

/-- The requests that the code collects are those of the pieces. -/
theorem foldlM_addOutboundPart (h : ∀ part ∈ textParts, partKind part = .inner) :
    (do
      let (requests, textParts) ←
        parts.foldlM (addOutboundPart debug context applyDefaultGroupMention) (requests, textParts)
      flushTextRequest debug requests textParts context applyDefaultGroupMention) =
      (requestsOf debug context applyDefaultGroupMention
        (Runs.cutFrom partKind textParts parts)).map (requests ++ ·) := by
  induction parts generalizing requests textParts with
  | nil => exact flushTextRequest_eq h
  | cons part parts ih =>
    rw [List.foldlM_cons]
    cases hkind : partKind part with
    | skipped =>
      have hstep : addOutboundPart debug context applyDefaultGroupMention (requests, textParts)
          part = .ok (requests, textParts) := by
        cases part <;> first | rfl | cases hkind
      rw [Runs.cutFrom_skipped hkind, hstep]
      exact ih h
    | inner =>
      have hstep : addOutboundPart debug context applyDefaultGroupMention (requests, textParts)
          part = .ok (requests, textParts ++ [part]) := by
        cases part <;> first | rfl | cases hkind
      rw [Runs.cutFrom_inner hkind, hstep]
      refine ih fun p hp => ?_
      rcases List.mem_append.mp hp with hp | hp
      · exact h p hp
      · exact List.mem_singleton.mp hp ▸ hkind
    | mark =>
      obtain ⟨⟨fileType, asset⟩, hmedia⟩ :=
        Option.isSome_iff_exists.mp (partKind_eq_mark_iff.mp hkind)
      rw [Runs.cutFrom_mark hkind, addOutboundPart_media hmedia, flushTextRequest_eq h,
        requestsOf_append, requestsOf, pieceRequests, hmedia]
      cases requestsOf debug context applyDefaultGroupMention (Runs.close textParts) with
      | error e => rfl
      | ok before =>
        cases hpayload : compileFilePayload debug context fileType asset with
        | error e => simp [hpayload, Except.map, bind, Except.bind]
        | ok payload =>
          have ih := @ih [] (requests ++ before ++ [.file payload]) (List.forall_mem_nil _)
          simp only [hpayload, Except.map, bind, Except.bind, pure, Except.pure] at ih ⊢
          rw [ih]
          cases requestsOf debug context applyDefaultGroupMention
            (Runs.cutFrom partKind [] parts) <;> simp

/-- The requests of a message are those of its pieces, if there are any. -/
theorem compileOutboundRequests_eq (message : OutboundMessage) :
    compileOutboundRequests debug message context applyDefaultGroupMention = (do
      let requests ← requestsOf debug context applyDefaultGroupMention
        (Runs.cut partKind message.parts)
      if requests = [] then throw "empty outbound WeChatPadPro message" else return requests) := by
  have hcollect := @foldlM_addOutboundPart debug context applyDefaultGroupMention message.parts
    [] [] (List.forall_mem_nil _)
  have hassoc : compileOutboundRequests debug message context applyDefaultGroupMention =
      (do
        let (requests, textParts) ←
          message.parts.foldlM (addOutboundPart debug context applyDefaultGroupMention) ([], [])
        flushTextRequest debug requests textParts context applyDefaultGroupMention) >>=
      fun requests =>
        if requests = [] then throw "empty outbound WeChatPadPro message" else pure requests := by
    rw [compileOutboundRequests, bind_assoc]
    congr 1
    funext ⟨requests, textParts⟩
    dsimp only
    congr 1
    funext requests
    cases requests <;> rfl
  rw [hassoc, hcollect, Runs.cut]
  cases requestsOf debug context applyDefaultGroupMention
    (Runs.cutFrom partKind [] message.parts) <;> rfl

theorem compileFilePayload_eq_ok_iff {fileType : String} {asset : AssetRef} {payload : Value} :
    compileFilePayload debug context fileType asset = .ok payload ↔
      ∃ path fileName, asset.source = .workspacePath path ∧ Path.fileName path = some fileName ∧
        fileName ≠ "" ∧
        payload = filePayload (conversationTarget context.conversationId) path fileName
          fileType := by
  unfold compileFilePayload workspaceAssetPath
  cases asset.source with
  | workspacePath path =>
    constructor
    · intro h
      obtain ⟨_, hpath, h⟩ := Program.bind_eq_ok h
      obtain rfl := Except.ok.inj hpath
      split at h
      · cases h
      · rename_i fileName hname
        obtain ⟨hname, hne⟩ := Option.filter_eq_some_iff.mp hname
        exact ⟨path, fileName, rfl, hname, of_decide_eq_true hne, (Except.ok.inj h).symm⟩
    · rintro ⟨_, fileName, hsource, hname, hne, rfl⟩
      obtain rfl := AssetSource.workspacePath.inj hsource
      have hfilter : (Path.fileName path).filter isNonEmpty = some fileName :=
        Option.filter_eq_some_iff.mpr ⟨hname, decide_eq_true hne⟩
      simp only [bind, Except.bind]
      rw [hfilter]
      rfl
  | _ => simp [bind, Except.bind]

theorem mediaFile_of_inner (h : partKind part = .inner) : mediaFile part = none := by
  cases part <;> first | rfl | cases h

/-- The requests of a piece are those that it should have. -/
theorem pieceRequests_eq_ok_iff {piece : Runs.Piece MessagePart} (h : piece.Valid partKind) :
    pieceRequests debug context applyDefaultGroupMention piece = .ok requests ↔
      PieceRequests context applyDefaultGroupMention piece requests := by
  cases h with
  | @run parts hne hinner =>
    rw [pieceRequests, flushTextRequest_run hne hinner, List.nil_append, Except.ok.injEq]
    split_ifs with hblank
    · constructor
      · rintro rfl
        exact .blank hblank
      · rintro (_ | ⟨hrun, -⟩ | ⟨hrun, -⟩)
        · rfl
        · exact absurd hblank hrun
        · exact absurd hblank hrun
    · exact (pieceRequests_run_iff hinner hblank).symm
  | @mark part hmark =>
    obtain ⟨⟨fileType, asset⟩, hmedia⟩ :=
      Option.isSome_iff_exists.mp (partKind_eq_mark_iff.mp hmark)
    rw [pieceRequests, hmedia]
    constructor
    · intro hok
      cases hpayload : compileFilePayload debug context fileType asset with
      | error e => simp [hpayload, Except.map] at hok
      | ok payload =>
        obtain ⟨path, fileName, hsource, hname, hne, rfl⟩ :=
          compileFilePayload_eq_ok_iff.mp hpayload
        simp only [hpayload, Except.map, Except.ok.injEq] at hok
        exact hok ▸ .media hmedia hsource hname hne
    · rintro (_ | _ | _ | ⟨hmedia', hsource, hname, hne⟩)
      obtain ⟨rfl, rfl⟩ := Prod.mk.inj (Option.some.inj (hmedia.symm.trans hmedia'))
      have hpayload := @compileFilePayload_eq_ok_iff debug context fileType asset _ |>.mpr
        ⟨_, _, hsource, hname, hne, rfl⟩
      simp only [hpayload, Except.map]

theorem requestsOf_eq_ok_iff {pieces : List (Runs.Piece MessagePart)}
    (h : ∀ piece ∈ pieces, piece.Valid partKind) :
    requestsOf debug context applyDefaultGroupMention pieces = .ok requests ↔
      ∃ parts, List.Forall₂ (PieceRequests context applyDefaultGroupMention) pieces parts ∧
        requests = parts.flatten := by
  induction pieces generalizing requests with
  | nil => simp [requestsOf, eq_comm]
  | cons piece pieces ih =>
    obtain ⟨hpiece, hpieces⟩ := List.forall_mem_cons.mp h
    rw [requestsOf]
    constructor
    · intro hok
      obtain ⟨first, hfirst, hok⟩ := Program.bind_eq_ok hok
      obtain ⟨behind, hbehind, hok⟩ := Program.bind_eq_ok hok
      obtain ⟨parts, hparts, rfl⟩ := (ih hpieces).mp hbehind
      exact ⟨first :: parts, .cons ((pieceRequests_eq_ok_iff hpiece).mp hfirst) hparts,
        (Except.ok.inj hok).symm⟩
    · rintro ⟨_, hforall, rfl⟩
      cases hforall with
      | @cons _ first _ parts hfirst hparts =>
        rw [(pieceRequests_eq_ok_iff hpiece).mpr hfirst, (ih hpieces).mpr ⟨parts, hparts, rfl⟩]
        rfl

theorem exists_pieceRequests_iff {piece : Runs.Piece MessagePart} (h : piece.Valid partKind) :
    (∃ requests, PieceRequests context applyDefaultGroupMention piece requests) ↔
      ∀ part ∈ piece.items, ∀ fileType asset, mediaFile part = some (fileType, asset) →
        Sendable asset := by
  cases h with
  | @run parts hne hinner =>
    refine iff_of_true ?_ fun part hpart fileType asset hmedia => ?_
    · by_cases hblank : Text.visibleChars (parts.flatMap partRendering) = []
      · exact ⟨_, .blank hblank⟩
      · obtain ⟨request, hrequest⟩ := @exists_request_of_run context applyDefaultGroupMention _ hblank
        exact ⟨_, hrequest⟩
    · rw [mediaFile_of_inner (hinner part hpart)] at hmedia
      cases hmedia
  | @mark part hmark =>
    obtain ⟨⟨fileType, asset⟩, hmedia⟩ :=
      Option.isSome_iff_exists.mp (partKind_eq_mark_iff.mp hmark)
    simp only [Runs.Piece.items, List.mem_singleton, forall_eq, hmedia, Option.some.injEq,
      Prod.mk.injEq, and_imp, forall_apply_eq_imp_iff, forall_eq']
    constructor
    · rintro ⟨_, _ | _ | _ | ⟨hmedia', hsource, hname, hne⟩⟩
      obtain ⟨rfl, rfl⟩ := Prod.mk.inj (Option.some.inj (hmedia.symm.trans hmedia'))
      exact ⟨_, _, hsource, hname, hne⟩
    · rintro ⟨path, fileName, hsource, hname, hne⟩
      exact ⟨_, .media hmedia hsource hname hne⟩

theorem PieceRequests.eq_nil_iff {piece : Runs.Piece MessagePart} (hvalid : piece.Valid partKind)
    (h : PieceRequests context applyDefaultGroupMention piece requests) :
    requests = [] ↔ (∀ part ∈ piece.items, mediaFile part = none) ∧
      Text.visibleChars (piece.items.flatMap partRendering) = [] := by
  have hinner : ∀ {parts : List MessagePart}, Runs.Piece.Valid partKind (.run parts) →
      ∀ part ∈ parts, mediaFile part = none := by
    rintro parts (⟨-, hinner⟩ | -) part hpart
    exact mediaFile_of_inner (hinner part hpart)
  cases h with
  | blank hblank => exact iff_of_true rfl ⟨hinner hvalid, hblank⟩
  | text hrun => exact iff_of_false (List.cons_ne_nil _ _) fun h => hrun h.2
  | notifying hrun => exact iff_of_false (List.cons_ne_nil _ _) fun h => hrun h.2
  | media hmedia =>
    refine iff_of_false (List.cons_ne_nil _ _) fun h => ?_
    rw [h.1 _ (List.mem_singleton.mpr rfl)] at hmedia
    cases hmedia

theorem exists_forall₂_iff {pieces : List (Runs.Piece MessagePart)}
    (h : ∀ piece ∈ pieces, piece.Valid partKind) :
    (∃ parts, List.Forall₂ (PieceRequests context applyDefaultGroupMention) pieces parts) ↔
      ∀ part ∈ pieces.flatMap Runs.Piece.items, ∀ fileType asset,
        mediaFile part = some (fileType, asset) → Sendable asset := by
  induction pieces with
  | nil => simp
  | cons piece pieces ih =>
    obtain ⟨hpiece, hpieces⟩ := List.forall_mem_cons.mp h
    rw [List.flatMap_cons, List.forall_mem_append,
      ← @exists_pieceRequests_iff context applyDefaultGroupMention _ hpiece, ← ih hpieces]
    constructor
    · rintro ⟨_, hfirst | ⟨hfirst, hparts⟩⟩
      exact ⟨⟨_, hfirst⟩, _, hparts⟩
    · rintro ⟨⟨first, hfirst⟩, parts, hparts⟩
      exact ⟨first :: parts, .cons hfirst hparts⟩

theorem flatten_eq_nil_iff {pieces : List (Runs.Piece MessagePart)}
    {parts : List (List OutboundRequest)} (hvalid : ∀ piece ∈ pieces, piece.Valid partKind)
    (h : List.Forall₂ (PieceRequests context applyDefaultGroupMention) pieces parts) :
    parts.flatten = [] ↔ (∀ part ∈ pieces.flatMap Runs.Piece.items, mediaFile part = none) ∧
      Text.visibleChars ((pieces.flatMap Runs.Piece.items).flatMap partRendering) = [] := by
  induction h with
  | nil => simp [Text.visibleChars]
  | cons hfirst _ ih =>
    obtain ⟨hpiece, hpieces⟩ := List.forall_mem_cons.mp hvalid
    rw [List.flatten_cons, List.append_eq_nil_iff, hfirst.eq_nil_iff hpiece, ih hpieces,
      List.flatMap_cons, List.forall_mem_append, List.flatMap_append, Text.visibleChars_append,
      List.append_eq_nil_iff]
    exact and_and_and_comm

theorem of_skipped (h : partKind part = .skipped) :
    mediaFile part = none ∧ partRendering part = [] := by
  cases part with
  | quote => exact ⟨rfl, rfl⟩
  | _ => cases h

theorem flatMap_filter_partRendering (parts : List MessagePart) :
    (parts.filter fun part => partKind part ≠ .skipped).flatMap partRendering =
      parts.flatMap partRendering := by
  induction parts with
  | nil => rfl
  | cons part parts ih =>
    by_cases hkind : partKind part = .skipped
    · rw [List.filter_cons_of_neg (by simp [hkind]), ih, List.flatMap_cons, (of_skipped hkind).2,
        List.nil_append]
    · rw [List.filter_cons_of_pos (by simp [hkind]), List.flatMap_cons, List.flatMap_cons, ih]

theorem forall_mem_filter_iff {P : MessagePart → Prop} (parts : List MessagePart)
    (hP : ∀ part, partKind part = .skipped → P part) :
    (∀ part ∈ parts.filter fun part => partKind part ≠ .skipped, P part) ↔
      ∀ part ∈ parts, P part := by
  constructor
  · intro h part hpart
    by_cases hkind : partKind part = .skipped
    · exact hP part hkind
    · exact h part (List.mem_filter.mpr ⟨hpart, decide_eq_true hkind⟩)
  · intro h part hpart
    exact h part (List.mem_of_mem_filter hpart)

/-- A message compiles if its pieces give requests. -/
theorem compileOutboundRequests_eq_ok_iff {message : OutboundMessage} :
    compileOutboundRequests debug message context applyDefaultGroupMention = .ok requests ↔
      requests ≠ [] ∧ ∃ parts, List.Forall₂ (PieceRequests context applyDefaultGroupMention)
        (Runs.cut partKind message.parts) parts ∧ requests = parts.flatten := by
  rw [compileOutboundRequests_eq,
    ← @requestsOf_eq_ok_iff debug _ _ _ _ (Runs.cut_spec partKind message.parts).valid]
  cases requestsOf debug context applyDefaultGroupMention (Runs.cut partKind message.parts) with
  | error e => exact iff_of_false nofun fun h => nomatch h.2
  | ok collected =>
    change (if collected = [] then Except.error _ else Except.ok collected) = _ ↔ _
    split_ifs with hempty
    · refine iff_of_false nofun fun h => h.1 ?_
      exact (Except.ok.inj h.2).symm.trans hempty
    · refine ⟨fun h => ⟨?_, h⟩, And.right⟩
      exact Except.ok.inj h ▸ hempty

/-- A message compiles exactly if all its media can be sent and something of it is sent. Its
requests are then those of its runs and its media, in their order. -/
theorem compile_outbound_requests_spec (debug : DebugFormat) (message : OutboundMessage)
    (context : DeliveryContext) (applyDefaultGroupMention : Bool) :
    ((∃ requests, compileOutboundRequests debug message context applyDefaultGroupMention =
        .ok requests) ↔
      (∀ part ∈ message.parts, ∀ fileType asset, mediaFile part = some (fileType, asset) →
        Sendable asset) ∧
      ((∃ part ∈ message.parts, (mediaFile part).isSome) ∨
        Text.visibleChars (message.parts.flatMap partRendering) ≠ [])) ∧
    ∀ requests, compileOutboundRequests debug message context applyDefaultGroupMention =
        .ok requests →
      ∃! pieces, Runs.Cut partKind message.parts pieces ∧
        ∃ parts, List.Forall₂ (PieceRequests context applyDefaultGroupMention) pieces parts ∧
          requests = parts.flatten := by
  have hcut := Runs.cut_spec partKind message.parts
  have hsendable : (∃ parts, List.Forall₂ (PieceRequests context applyDefaultGroupMention)
      (Runs.cut partKind message.parts) parts) ↔
      ∀ part ∈ message.parts, ∀ fileType asset, mediaFile part = some (fileType, asset) →
        Sendable asset := by
    rw [exists_forall₂_iff hcut.valid, hcut.items]
    refine forall_mem_filter_iff _ fun part hkind fileType asset hmedia => ?_
    rw [(of_skipped hkind).1] at hmedia
    cases hmedia
  have hnothing : ∀ parts, List.Forall₂ (PieceRequests context applyDefaultGroupMention)
      (Runs.cut partKind message.parts) parts →
      (parts.flatten ≠ [] ↔ (∃ part ∈ message.parts, (mediaFile part).isSome) ∨
        Text.visibleChars (message.parts.flatMap partRendering) ≠ []) := by
    intro parts hparts
    rw [ne_eq, flatten_eq_nil_iff hcut.valid hparts, hcut.items, flatMap_filter_partRendering,
      forall_mem_filter_iff _ fun part hkind => (of_skipped hkind).1, not_and_or]
    refine or_congr ?_ Iff.rfl
    simp only [not_forall, Option.isSome_iff_ne_none, exists_prop, ne_eq]
  refine ⟨⟨?_, ?_⟩, ?_⟩
  · rintro ⟨requests, hok⟩
    obtain ⟨hne, parts, hparts, rfl⟩ := compileOutboundRequests_eq_ok_iff.mp hok
    exact ⟨hsendable.mp ⟨parts, hparts⟩, (hnothing parts hparts).mp hne⟩
  · rintro ⟨hall, hsome⟩
    obtain ⟨parts, hparts⟩ := hsendable.mpr hall
    exact ⟨_, compileOutboundRequests_eq_ok_iff.mpr
      ⟨(hnothing parts hparts).mpr hsome, parts, hparts, rfl⟩⟩
  · intro requests hok
    obtain ⟨-, parts, hparts, heq⟩ := compileOutboundRequests_eq_ok_iff.mp hok
    exact ⟨_, ⟨hcut, parts, hparts, heq⟩, fun pieces h => h.1.eq_cut⟩

def pictureAsset : AssetRef where
  assetId := "image:/workspace/a.png"
  kind := "image"
  mime := "image/*"
  sizeBytes := 0
  source := .workspacePath "/workspace/a.png"

/-- A text with a quote in it, a picture, and behind it a mention with a text. -/
def mixedMessage : OutboundMessage where
  parts := [.text "look ", .quote "m0" "before", .text "here", .image pictureAsset,
    .mention "wechatpadpro:user:bob" "Bob", .text "ok"]
  replyTo := none
  suppressDefaultReply := false
  deliveryPolicy := none

/-- The first text notifies the user who is answered, the second one the user whom it mentions. -/
def mixedRequests : List OutboundRequest :=
  [.text (notifyingPayload "room@chatroom" "@Alice look here" ["alice"]),
    .file (filePayload "room@chatroom" "/workspace/a.png" "a.png" "image"),
    .text (notifyingPayload "room@chatroom" "@Bob @Bob ok" ["bob"])]

theorem compile_outbound_requests_spec_mixed :
    compileOutboundRequests plainDebug mixedMessage groupContext true = .ok mixedRequests ∧
    ∃! pieces, Runs.Cut partKind mixedMessage.parts pieces ∧
      ∃ parts, List.Forall₂ (PieceRequests groupContext true) pieces parts ∧
        mixedRequests = parts.flatten :=
  ⟨rfl, (compile_outbound_requests_spec plainDebug mixedMessage groupContext true).2 _ rfl⟩

end DogBot.WeChatPadPro
