import DogBot.Library.Path
import DogBot.Normalizer

/-! # Dispatch

Before a plan is delivered, the source of every media part that names a
workspace path is checked. The check compares the text of the path with a
prefix, while the file that a path means depends on its components.
-/

namespace DogBot

def MessagePart.asset : MessagePart → Option AssetRef
  | .image asset | .file asset | .voice asset | .video asset | .sticker asset => some asset
  | .text _ | .mention _ _ | .quote _ _ => none

def AssetSource.workspacePath? : AssetSource → Option String
  | .workspacePath path => some path
  | _ => none

def validateWorkspaceAsset (part : MessagePart) : Except String Unit :=
  match part.asset.bind fun asset => asset.source.workspacePath? with
  | some path =>
    if Text.startsWith "/workspace/" path then .ok ()
    else .error ("asset path must stay under /workspace: " ++ path)
  | none => .ok ()

def validateWorkspaceAssets (plan : OutboundPlan) : Except String Unit :=
  plan.messages.forM fun message => message.parts.forM validateWorkspaceAsset

def dispatchPlan (plan : OutboundPlan) : Except String Unit := validateWorkspaceAssets plan

/-- The workspace paths of the media parts of a plan, in the order they are checked. -/
def OutboundPlan.workspacePaths (plan : OutboundPlan) : List String :=
  (plan.messages.flatMap OutboundMessage.parts).filterMap fun part =>
    part.asset.bind fun asset => asset.source.workspacePath?

/-- Every workspace path of an accepted plan resolves strictly below `/workspace`. -/
def AssetsContained (plan : OutboundPlan) : Prop :=
  dispatchPlan plan = .ok () →
    ∀ message ∈ plan.messages, ∀ part ∈ message.parts, ∀ asset, part.asset = some asset →
      ∀ path, asset.source = .workspacePath path → Path.StrictlyBelow "workspace" path

variable {plan : OutboundPlan}

theorem forM_eq_ok_iff {α ε : Type} {f : α → Except ε Unit} {l : List α} :
    l.forM f = .ok () ↔ ∀ a ∈ l, f a = .ok () := by
  induction l with
  | nil => simp [pure, Except.pure]
  | cons a l ih =>
    have hcons : (a :: l).forM f = f a >>= fun _ => l.forM f := rfl
    rw [hcons, List.forall_mem_cons, ← ih]
    cases f a with
    | error e => simp [bind, Except.bind]
    | ok u => simp [bind, Except.bind]

theorem workspacePath?_eq_some {source : AssetSource} {path : String} :
    source.workspacePath? = some path ↔ source = .workspacePath path := by
  cases source <;> simp [AssetSource.workspacePath?]

theorem mem_workspacePaths {path : String} : path ∈ plan.workspacePaths ↔
    ∃ message ∈ plan.messages, ∃ part ∈ message.parts, ∃ asset, part.asset = some asset ∧
      asset.source = .workspacePath path := by
  simp only [OutboundPlan.workspacePaths, List.mem_filterMap, List.mem_flatMap,
    Option.bind_eq_some_iff, workspacePath?_eq_some]
  constructor
  · rintro ⟨part, ⟨message, hm, hp⟩, asset, ha, hs⟩
    exact ⟨message, hm, part, hp, asset, ha, hs⟩
  · rintro ⟨message, hm, part, hp, asset, ha, hs⟩
    exact ⟨part, ⟨message, hm, hp⟩, asset, ha, hs⟩

theorem validateWorkspaceAsset_eq_ok_iff {part : MessagePart} :
    validateWorkspaceAsset part = .ok () ↔
      ∀ asset, part.asset = some asset → ∀ path, asset.source = .workspacePath path →
        Text.startsWith "/workspace/" path = true := by
  unfold validateWorkspaceAsset
  cases ha : part.asset with
  | none => simp
  | some asset =>
    cases hs : asset.source.workspacePath? with
    | none =>
      have hno : ∀ path, asset.source ≠ .workspacePath path := fun path he => by
        simp [workspacePath?_eq_some.mpr he] at hs
      simp [hs, hno]
    | some path =>
      have he := workspacePath?_eq_some.mp hs
      simp [he, AssetSource.workspacePath?]

theorem dispatchPlan_eq_ok_iff :
    dispatchPlan plan = .ok () ↔
      ∀ path ∈ plan.workspacePaths, Text.startsWith "/workspace/" path = true := by
  simp only [dispatchPlan, validateWorkspaceAssets, forM_eq_ok_iff,
    validateWorkspaceAsset_eq_ok_iff, mem_workspacePaths]
  constructor
  · rintro h path ⟨message, hm, part, hp, asset, ha, hs⟩
    exact h message hm part hp asset ha path hs
  · rintro h message hm part hp asset ha path hs
    exact h path ⟨message, hm, part, hp, asset, ha, hs⟩

theorem assetsContained_iff_workspacePaths : AssetsContained plan ↔
    (dispatchPlan plan = .ok () →
      ∀ path ∈ plan.workspacePaths, Path.StrictlyBelow "workspace" path) := by
  simp only [AssetsContained, mem_workspacePaths]
  constructor
  · rintro h hok path ⟨message, hm, part, hp, asset, ha, hs⟩
    exact h hok message hm part hp asset ha path hs
  · rintro h hok message hm part hp asset ha path hs
    exact h hok path ⟨message, hm, part, hp, asset, ha, hs⟩

/-- The assets of a plan are contained iff some workspace path lacks the prefix, so that the
plan is rejected, or the walk along every workspace path ends inside `/workspace`. -/
theorem assetsContained_iff (plan : OutboundPlan) : AssetsContained plan ↔
    (∃ path ∈ plan.workspacePaths, Text.startsWith "/workspace/" path = false) ∨
      ∀ path ∈ plan.workspacePaths, Path.EndsInside "workspace" (Path.components path) := by
  have hname : Path.IsName "workspace" := ⟨by decide, by decide, by decide⟩
  rw [assetsContained_iff_workspacePaths, dispatchPlan_eq_ok_iff]
  simp only [Path.strictlyBelow_iff hname]
  constructor
  · intro h
    by_cases hhead : ∀ path ∈ plan.workspacePaths, Text.startsWith "/workspace/" path = true
    · exact .inr (h hhead)
    · push Not at hhead
      obtain ⟨path, hp, hf⟩ := hhead
      exact .inl ⟨path, hp, by simpa using hf⟩
  · rintro (⟨path, hp, hf⟩ | h) hhead
    · simp [hhead path hp] at hf
    · exact h

/-- An agent's request to send a file from the parent of the workspace. -/
def escapingItem : ActionItem where
  actionType := "send_file"
  sourceType := some "workspace_path"
  sourceValue := some "/workspace/../etc/passwd"

/-- The plan of the escaping item is accepted, although its path resolves to `/etc/passwd`. -/
theorem escapingItem_accepted : ∃ message, mediaActionToMessage escapingItem = some message ∧
    dispatchPlan { messages := [message], actions := [], deliveryReportPolicy := none } = .ok () ∧
    Path.resolve "/workspace/../etc/passwd" = ["etc", "passwd"] ∧
    ¬ AssetsContained { messages := [message], actions := [], deliveryReportPolicy := none } := by
  refine ⟨_, rfl, by decide, by decide, ?_⟩
  rw [assetsContained_iff_workspacePaths]
  exact fun h => absurd (h (by decide) _ (List.mem_singleton_self _)) (by decide)

end DogBot
