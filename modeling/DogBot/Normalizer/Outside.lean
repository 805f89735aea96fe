import DogBot.Normalizer.Output

/-! # The text outside the blocks

An output is text with action blocks: a marker, a content, and the first closing
fence behind the marker. A marker without a closing fence belongs to the text.
The text that is collected is what stands outside the blocks, unless the content
of a block is white space or text stands in front of a marker that is not
closed.
-/

namespace DogBot

/-- An output, written as blocks with the text in front of each, the text behind the last one, and
what follows a marker that is not closed. -/
structure Outline where
  blocks : List (List Char × List Char)
  text : List Char
  unclosed : Option (List Char)

def outline (remaining : List Char) : Outline :=
  match _hmarker : Text.splitOnceChars actionMarker remaining with
  | none => { blocks := [], text := remaining, unclosed := none }
  | some (before, block) =>
    match _hfence : Text.splitOnceChars closingFence block with
    | none => { blocks := [], text := before, unclosed := some block }
    | some (content, rest) =>
      let tail := outline rest
      { tail with blocks := (before, content) :: tail.blocks }
termination_by remaining.length
decreasing_by
  have h₁ := Text.length_after_lt (by decide) _hmarker
  have h₂ := Text.length_after_lt (by decide) _hfence
  omega

namespace Outline

def opened (o : Outline) : List Char := o.unclosed.elim [] (actionMarker ++ ·)

def render (o : Outline) : List Char :=
  o.blocks.flatMap (fun block => block.1 ++ actionMarker ++ block.2 ++ closingFence) ++ o.text ++
    o.opened

/-- The text in front of an unclosed marker or of the end. -/
def front (o : Outline) : List Char := o.blocks.flatMap Prod.fst ++ o.text

/-- The output without its blocks. -/
def outside (o : Outline) : List Char := o.front ++ o.opened

def NoBlankBlock (o : Outline) : Prop := ∀ block ∈ o.blocks, ¬ Text.Blank block.2

/-- Nothing stands in front of an unclosed marker that would show if it were repeated. -/
def Harmless (o : Outline) : Prop := o.unclosed = none ∨ o.text = [] ∨ Text.Blank o.front

/-- No closing fence follows a block with a blank content. -/
def BlankBlocksLast (o : Outline) : Prop :=
  ∀ blocks block blocks', o.blocks = blocks ++ block :: blocks' → Text.Blank block.2 →
    ¬ closingFence <:+: { o with blocks := blocks' }.render

def collected (o : Outline) : List Char :=
  o.front ++ (if o.unclosed.isSome then o.text else []) ++ o.opened

end Outline

section Outline

variable {fromStr : String → Option Json.Value} {remaining before block content rest : List Char}

theorem outline_of_none (h : Text.splitOnceChars actionMarker remaining = none) :
    outline remaining = { blocks := [], text := remaining, unclosed := none } := by
  unfold outline
  split
  · rfl
  · rename_i hs
    cases h.symm.trans hs

theorem outline_of_unclosed
    (h : Text.splitOnceChars actionMarker remaining = some (before, block))
    (hfence : Text.splitOnceChars closingFence block = none) :
    outline remaining = { blocks := [], text := before, unclosed := some block } := by
  unfold outline
  split
  · rename_i hs
    cases h.symm.trans hs
  · rename_i hs
    obtain ⟨rfl, rfl⟩ := Text.found_unique h hs
    split
    · rfl
    · rename_i he
      cases hfence.symm.trans he

theorem outline_of_some
    (h : Text.splitOnceChars actionMarker remaining = some (before, block))
    (hfence : Text.splitOnceChars closingFence block = some (content, rest)) :
    outline remaining =
      { outline rest with blocks := (before, content) :: (outline rest).blocks } := by
  conv_lhs => unfold outline
  split
  · rename_i hs
    cases h.symm.trans hs
  · rename_i hs
    obtain ⟨rfl, rfl⟩ := Text.found_unique h hs
    split
    · rename_i he
      cases hfence.symm.trans he
    · rename_i he
      obtain ⟨rfl, rfl⟩ := Text.found_unique hfence he
      rfl

/-- A property of outputs follows from its steps over a block. -/
@[elab_as_elim] theorem outlineInduction {P : List Char → Prop}
    (none : ∀ remaining, Text.splitOnceChars actionMarker remaining = none → P remaining)
    (unclosed : ∀ remaining before block,
      Text.splitOnceChars actionMarker remaining = some (before, block) →
      Text.splitOnceChars closingFence block = .none → P remaining)
    (some : ∀ remaining before block content rest,
      Text.splitOnceChars actionMarker remaining = some (before, block) →
      Text.splitOnceChars closingFence block = .some (content, rest) → P rest → P remaining)
    (remaining : List Char) : P remaining := by
  induction hn : remaining.length using Nat.strong_induction_on generalizing remaining with
  | _ n ih =>
    subst hn
    cases hmarker : Text.splitOnceChars actionMarker remaining with
    | none => exact none remaining hmarker
    | some p =>
      obtain ⟨before, block⟩ := p
      cases hfence : Text.splitOnceChars closingFence block with
      | none => exact unclosed remaining before block hmarker hfence
      | some p =>
        obtain ⟨content, rest⟩ := p
        have h₁ := Text.length_after_lt (by decide) hmarker
        have h₂ := Text.length_after_lt (by decide) hfence
        exact some remaining before block content rest hmarker hfence (ih _ (h₂.trans h₁) rest rfl)

theorem outline_render (remaining : List Char) : (outline remaining).render = remaining := by
  induction remaining using outlineInduction with
  | none remaining h => simp [outline_of_none h, Outline.render, Outline.opened]
  | unclosed remaining before block h hfence =>
    rw [outline_of_unclosed h hfence, Text.eq_of_splitOnceChars h]
    simp [Outline.render, Outline.opened]
  | some remaining before block content rest h hfence ih =>
    rw [outline_of_some h hfence, Text.eq_of_splitOnceChars h, Text.eq_of_splitOnceChars hfence]
    conv_rhs => rw [← ih]
    simp [Outline.render, Outline.opened]

theorem collectBlocks_of_unclosed
    (h : Text.splitOnceChars actionMarker remaining = some (before, block))
    (hfence : Text.splitOnceChars closingFence (block.dropWhile Text.isWhitespace) = none)
    (state : Collected) :
    collectBlocks fromStr remaining state =
      { state with body := state.body ++ before ++ remaining } := by
  unfold collectBlocks
  split
  · rename_i hs
    cases h.symm.trans hs
  · rename_i hs
    obtain ⟨rfl, rfl⟩ := Text.found_unique h hs
    split
    · rfl
    · rename_i he
      cases hfence.symm.trans he

theorem body_applyBlock (state : Collected) (block : Option ActionBlock) :
    (state.applyBlock block).body = state.body := by
  match block with
  | some (.envelope envelope) => rw [Collected.applyBlock, applyEnvelope_eq]
  | some (.single item) => rw [Collected.applyBlock, appendActionItems_eq]
  | none => rfl

theorem splitOnceChars_dropWhile
    (hfence : Text.splitOnceChars closingFence block = some (content, rest))
    (hcontent : ¬ Text.Blank content) :
    Text.splitOnceChars closingFence (block.dropWhile Text.isWhitespace) =
      some (content.dropWhile Text.isWhitespace, rest) := by
  have hblock := Text.eq_of_splitOnceChars hfence
  rw [List.append_assoc] at hblock
  have hskip : Text.splitOnceChars closingFence
      (content.takeWhile Text.isWhitespace ++ block.dropWhile Text.isWhitespace) =
      some (content.takeWhile Text.isWhitespace ++ content.dropWhile Text.isWhitespace, rest) := by
    rw [List.takeWhile_append_dropWhile, ← hfence, hblock, Text.dropWhile_of_not_blank hcontent,
      ← List.append_assoc, List.takeWhile_append_dropWhile]
  exact Text.splitOnceChars_of_append hskip

theorem splitOnceChars_dropWhile_none (hfence : Text.splitOnceChars closingFence block = none) :
    Text.splitOnceChars closingFence (block.dropWhile Text.isWhitespace) = none := by
  rw [Text.splitOnceChars_eq_none_iff (by decide)] at hfence ⊢
  exact fun h => hfence (h.trans (List.dropWhile_suffix _).isInfix)

/-- If no block is blank, the blocks are those of the outline. -/
theorem collectBlocks_body (h : (outline remaining).NoBlankBlock) (state : Collected) :
    (collectBlocks fromStr remaining state).body =
      state.body ++ (outline remaining).collected := by
  induction remaining using outlineInduction generalizing state with
  | none remaining hmarker =>
    rw [collectBlocks_of_none hmarker, outline_of_none hmarker]
    simp [Outline.collected, Outline.front, Outline.opened]
  | unclosed remaining before block hmarker hfence =>
    rw [collectBlocks_of_unclosed hmarker (splitOnceChars_dropWhile_none hfence),
      outline_of_unclosed hmarker hfence, Text.eq_of_splitOnceChars hmarker]
    simp [Outline.collected, Outline.front, Outline.opened]
  | some remaining before block content rest hmarker hfence ih =>
    rw [outline_of_some hmarker hfence] at h ⊢
    obtain ⟨hcontent, hrest⟩ := List.forall_mem_cons.mp h
    rw [collectBlocks_of_some hmarker (splitOnceChars_dropWhile hfence hcontent), ih hrest,
      body_applyBlock]
    simp [Outline.collected, Outline.front, Outline.opened]

theorem visible_outside_le (o : Outline) : Text.visible o.outside ≤ Text.visible o.render := by
  have hblocks : ∀ blocks : List (List Char × List Char),
      Text.visible (blocks.flatMap Prod.fst) ≤ Text.visible (blocks.flatMap fun block =>
        block.1 ++ actionMarker ++ block.2 ++ closingFence) := by
    intro blocks
    induction blocks with
    | nil => exact le_rfl
    | cons block blocks ih =>
      simp only [List.flatMap_cons, Text.visible_append]
      omega
  have := hblocks o.blocks
  simp only [Outline.outside, Outline.front, Outline.render, Text.visible_append]
  omega

theorem splitOnceChars_dropWhile_of_blank
    (hfence : Text.splitOnceChars closingFence block = some (content, rest))
    (hcontent : Text.Blank content) (hrest : ¬ closingFence <:+: rest) :
    Text.splitOnceChars closingFence (block.dropWhile Text.isWhitespace) = none := by
  have hticks : (closingFence ++ rest).dropWhile Text.isWhitespace = "```".toList ++ rest := rfl
  have hclosing : closingFence = '\n' :: "```".toList := rfl
  have hnone := (Text.splitOnceChars_eq_none_iff (by decide)).mpr hrest
  rw [Text.eq_of_splitOnceChars hfence, List.append_assoc, Text.dropWhile_of_blank hcontent, hticks]
  rw [hclosing] at hnone ⊢
  rw [Text.splitOnceChars_append_left (by decide), hnone]
  rfl

theorem visible_outside_lt
    (hmarker : Text.splitOnceChars actionMarker remaining = some (before, block))
    (hfence : Text.splitOnceChars closingFence block = some (content, rest)) :
    Text.visible (outline rest).outside < Text.visible remaining := by
  have hle := visible_outside_le (outline rest)
  rw [outline_render] at hle
  have hmark : Text.visible actionMarker = 16 := by decide
  rw [Text.eq_of_splitOnceChars hmarker, Text.eq_of_splitOnceChars hfence]
  simp only [Text.visible_append, hmark]
  omega

/-- A blank block without a closing fence behind it makes the text longer. -/
theorem visible_collectBlocks (h : (outline remaining).BlankBlocksLast)
    (hblank : ¬ (outline remaining).NoBlankBlock) (state : Collected) :
    Text.visible state.body + Text.visible (outline remaining).outside <
      Text.visible (collectBlocks fromStr remaining state).body := by
  induction remaining using outlineInduction generalizing state with
  | none remaining hmarker =>
    rw [outline_of_none hmarker] at hblank
    exact absurd (fun block hb => absurd hb List.not_mem_nil) hblank
  | unclosed remaining before block hmarker hfence =>
    rw [outline_of_unclosed hmarker hfence] at hblank
    exact absurd (fun block hb => absurd hb List.not_mem_nil) hblank
  | some remaining before block content rest hmarker hfence ih =>
    rw [outline_of_some hmarker hfence] at h hblank ⊢
    have hvisible : ∀ o : Outline, Text.visible
        { o with blocks := (before, content) :: o.blocks }.outside =
          Text.visible before + Text.visible o.outside := by
      intro o
      simp [Outline.outside, Outline.front, Outline.opened]
    rw [hvisible]
    by_cases hcontent : Text.Blank content
    · have hrest := h [] (before, content) _ rfl hcontent
      have hrender : ({ outline rest with blocks := (outline rest).blocks } : Outline).render =
        rest := outline_render rest
      rw [hrender] at hrest
      rw [collectBlocks_of_unclosed hmarker
        (splitOnceChars_dropWhile_of_blank hfence hcontent hrest)]
      have hlt := visible_outside_lt hmarker hfence
      simp only [Text.visible_append]
      omega
    · rw [collectBlocks_of_some hmarker (splitOnceChars_dropWhile hfence hcontent)]
      have hlast : (outline rest).BlankBlocksLast := fun blocks b blocks' hb =>
        h ((before, content) :: blocks) b blocks' (congrArg _ hb)
      have hnot : ¬ (outline rest).NoBlankBlock := fun hrest =>
        hblank (List.forall_mem_cons.mpr ⟨hcontent, hrest⟩)
      have := ih hlast hnot (Collected.applyBlock { state with body := state.body ++ before }
        ((fromStr (Text.trim (String.ofList (content.dropWhile Text.isWhitespace)))).bind
          ActionBlock.decode))
      rw [body_applyBlock, Text.visible_append] at this
      omega

/-- The text that is given to `degrade_markdown`. -/
def bodyText (fromStr : String → Option Json.Value) (output : String) : String :=
  Text.trim (String.ofList
    (collectBlocks fromStr (Text.replaceAll "\r\n" "\n" output).toList {}).body)

/-- The outline of an output after its line ends were converted. -/
def outputOutline (output : String) : Outline :=
  outline (Text.replaceAll "\r\n" "\n" output).toList

/-- The text outside the blocks is collected once. -/
def CollectedOnce (fromStr : String → Option Json.Value) (output : String) : Prop :=
  bodyText fromStr output = Text.trim (String.ofList (outputOutline output).outside)

theorem collectedOnce_iff (output : String) : CollectedOnce fromStr output ↔
    Text.trimChars (collectBlocks fromStr (Text.replaceAll "\r\n" "\n" output).toList {}).body =
      Text.trimChars (outputOutline output).outside := by
  rw [CollectedOnce, bodyText, Text.trim, Text.trim, String.ofList_inj, String.toList_ofList,
    String.toList_ofList]

/-- Trimming the collected text gives the text outside the blocks exactly if what is repeated does
not show. -/
theorem trimChars_collected_iff (o : Outline) :
    Text.trimChars o.collected = Text.trimChars o.outside ↔ o.Harmless := by
  cases hu : o.unclosed with
  | none =>
    refine iff_of_true ?_ (.inl hu)
    simp [Outline.collected, Outline.outside, hu]
  | some block =>
    have hopened : o.opened = '`' :: ("``dogbot-action".toList ++ block) := by
      rw [Outline.opened, hu]
      rfl
    rw [Outline.collected, Outline.outside, hu, Option.isSome_some, if_pos rfl, hopened,
      Outline.Harmless, hu, or_iff_right (by simp), Outline.front]
    exact Text.trimChars_repeated_iff (by decide)

theorem collectedOnce_iff_harmless {output : String} (h : (outputOutline output).NoBlankBlock) :
    CollectedOnce fromStr output ↔ (outputOutline output).Harmless := by
  rw [collectedOnce_iff, collectBlocks_body h, List.nil_append]
  exact trimChars_collected_iff _

/-- A text of the body ends the parts of the first message. -/
theorem normalizeAgentOutput_bodyText (fromStr : String → Option Json.Value) (output : String) :
    ∃ plan, normalizeAgentOutput fromStr output = .ok plan ∧
      (degradeMarkdown (bodyText fromStr output) ≠ "" → ∃ message ∈ plan.messages.head?,
        message.parts.getLast? = some (.text (degradeMarkdown (bodyText fromStr output)))) := by
  refine ⟨_, rfl, fun h => ?_⟩
  unfold bodyText at h ⊢
  unfold Collected.plan
  simp only [if_pos (Or.inl h : _ ∨ _), if_pos h]
  exact ⟨_, rfl, List.getLast?_concat⟩

/-- The text outside the action blocks is collected exactly once if no block is blank and nothing
visible stands in front of a marker that is not closed, and, unless a closing fence follows a blank
block, only then. -/
theorem text_collected_once_iff (fromStr : String → Option Json.Value) (output : String) :
    ((outputOutline output).NoBlankBlock ∧ (outputOutline output).Harmless →
        CollectedOnce fromStr output) ∧
      ((outputOutline output).BlankBlocksLast → CollectedOnce fromStr output →
        (outputOutline output).NoBlankBlock ∧ (outputOutline output).Harmless) := by
  constructor
  · rintro ⟨hblank, hharmless⟩
    exact (collectedOnce_iff_harmless hblank).mpr hharmless
  · intro hlast honce
    have hblank : (outputOutline output).NoBlankBlock := by
      by_contra hblank
      have hlt := @visible_collectBlocks fromStr _ hlast hblank {}
      have heq := congrArg Text.visible ((collectedOnce_iff output).mp honce)
      rw [Text.visible_trimChars, Text.visible_trimChars] at heq
      rw [heq] at hlt
      exact absurd hlt (by simp [outputOutline, Text.visible])
    exact ⟨hblank, (collectedOnce_iff_harmless hblank).mp honce⟩

/-- The text in front of a marker that is not closed is repeated. -/
theorem unclosed_fence_repeats : ¬ ∀ (fromStr : String → Option Json.Value) (output : String),
    CollectedOnce fromStr output := by
  intro h
  have houtline : outputOutline "hello\n```dogbot-action\n" =
      { blocks := [], text := "hello\n".toList, unclosed := some ['\n'] } :=
    outline_of_unclosed (by decide +kernel) (by decide +kernel)
  have honce := h (fun _ => none) "hello\n```dogbot-action\n"
  have hblank : (outputOutline "hello\n```dogbot-action\n").NoBlankBlock := by
    rw [houtline]
    exact fun block hb => absurd hb List.not_mem_nil
  rw [collectedOnce_iff_harmless hblank, houtline] at honce
  rcases honce with hunclosed | htext | hfront
  · cases hunclosed
  · exact absurd htext (by decide +kernel)
  · exact absurd hfront (by decide +kernel)

end Outline

end DogBot
