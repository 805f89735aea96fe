import Mathlib.Data.List.Induction
import Mathlib.Data.String.Basic

/-! # Lexical path resolution

Empty components and `.` stay, `..` goes to the parent and stops at the root,
and a name enters a directory. The open directories are kept innermost first.
The top directory of a resolved path is the one entered when the walk left the
root for the last time.
-/

namespace Path

def components (path : String) : List String := (path.toList.splitOn '/').map String.ofList

def fileName (path : String) : Option String :=
  match ((components path).filter fun c => c ≠ "" ∧ c ≠ ".").getLast? with
  | some ".." => none
  | component => component

/-- Follow one component from the open directories. -/
def enter (dirs : List String) (component : String) : List String :=
  if component = "" ∨ component = "." then dirs
  else if component = ".." then dirs.tail
  else component :: dirs

def walk (dirs : List String) (components : List String) : List String :=
  components.foldl enter dirs

/-- The names of the resolved path from the root. -/
def resolve (path : String) : List String := (walk [] (components path)).reverse

/-- The path resolves to something strictly below a directory of the root. -/
def StrictlyBelow (top path : String) : Prop := ∃ rest, rest ≠ [] ∧ resolve path = top :: rest

instance (top path : String) : Decidable (StrictlyBelow top path) :=
  match h : resolve path with
  | [] => .isFalse (by rintro ⟨rest, -, hr⟩; simp [h] at hr)
  | d :: rest =>
    if hd : d = top ∧ rest ≠ [] then .isTrue ⟨rest, hd.2, by rw [h, hd.1]⟩
    else .isFalse (by
      rintro ⟨rest', hne, hr⟩
      rw [h, List.cons.injEq] at hr
      exact hd ⟨hr.1, hr.2 ▸ hne⟩)

/-- The number of open directories after one component. -/
def depthStep (n : ℕ) (component : String) : ℕ :=
  if component = "" ∨ component = "." then n else if component = ".." then n - 1 else n + 1

/-- The number of open directories after some components. -/
def depth (n : ℕ) (components : List String) : ℕ := components.foldl depthStep n

/-- The walk leaves the root for the last time through `top`, and ends inside it. -/
def EndsInside (top : String) (components : List String) : Prop :=
  ∃ pre post, components = pre ++ top :: post ∧ depth 0 pre = 0 ∧
    (∀ q, q <+: post → 0 < depth 1 q) ∧ 1 < depth 1 post

variable {dirs : List String} {c top : String} {cs : List String}

theorem length_enter : (enter dirs c).length = depthStep dirs.length c := by
  unfold enter depthStep
  split_ifs <;> simp

theorem length_walk : (walk dirs cs).length = depth dirs.length cs := by
  induction cs generalizing dirs with
  | nil => rfl
  | cons c cs ih => exact ih.trans (congrArg (depth · cs) length_enter)

theorem walk_append {ds : List String} : walk dirs (cs ++ ds) = walk (walk dirs cs) ds :=
  List.foldl_append ..

theorem getLast?_walk (hne : dirs.getLast? = some top)
    (h : ∀ q, q <+: cs → 0 < depth dirs.length q) : (walk dirs cs).getLast? = some top := by
  induction cs generalizing dirs with
  | nil => exact hne
  | cons c cs ih =>
    have hpos : 0 < (enter dirs c).length :=
      length_enter ▸ h [c] ⟨cs, rfl⟩
    apply @ih (enter dirs c)
    · unfold enter at hpos ⊢
      split_ifs with h₁ h₂
      · exact hne
      · rcases dirs with _ | ⟨d, _ | ⟨e, ds⟩⟩ <;> simp_all
      · rcases dirs with _ | ⟨d, ds⟩ <;> simp_all
    · intro q hq
      rw [length_enter]
      exact h (c :: q) ((List.prefix_cons_inj c).mpr hq)

def IsName (component : String) : Prop := component ≠ "" ∧ component ≠ "." ∧ component ≠ ".."

theorem depth_cons_of_isName (h : IsName top) (n : ℕ) : depth n (top :: cs) = depth (n + 1) cs := by
  obtain ⟨h₁, h₂, h₃⟩ := h
  simp [depth, depthStep, h₁, h₂, h₃]

theorem depth_append {n : ℕ} {ds : List String} : depth n (cs ++ ds) = depth (depth n cs) ds :=
  List.foldl_append ..

theorem getLast?_enter (h : (enter dirs c).getLast? = some top) :
    dirs.getLast? = some top ∨ dirs = [] ∧ c = top := by
  unfold enter at h
  split_ifs at h with h₁ h₂
  · exact .inl h
  · rcases dirs with _ | ⟨d, _ | ⟨e, ds⟩⟩ <;> simp_all
  · rcases dirs with _ | ⟨d, ds⟩ <;> simp_all

theorem exists_split (hname : IsName top) (h : (walk [] cs).getLast? = some top) :
    ∃ pre post, cs = pre ++ top :: post ∧ depth 0 pre = 0 ∧
      ∀ q, q <+: post → 0 < depth 1 q := by
  induction cs using List.reverseRecOn with
  | nil => simp [walk] at h
  | append_singleton cs c ih =>
    have hlen : 0 < depth 0 (cs ++ [c]) := by
      rw [← List.length_nil (α := String), ← length_walk]
      exact List.length_pos_of_ne_nil (by rintro he; simp [he] at h)
    rw [walk_append] at h
    rcases getLast?_enter h with hold | ⟨hroot, rfl⟩
    · obtain ⟨pre, post, rfl, hpre, hpost⟩ := ih hold
      refine ⟨pre, post ++ [c], by simp, hpre, fun q hq => ?_⟩
      rcases List.prefix_concat_iff.mp hq with rfl | hq
      · rw [List.append_assoc, depth_append, hpre, List.cons_append,
          depth_cons_of_isName hname] at hlen
        exact hlen
      · exact hpost q hq
    · refine ⟨cs, [], rfl, ?_, fun q hq => ?_⟩
      · rw [← List.length_nil (α := String), ← length_walk, hroot]
      · rw [List.prefix_nil.mp hq]
        exact Nat.one_pos

theorem strictlyBelow_iff_walk {path : String} :
    StrictlyBelow top path ↔ (walk [] (components path)).getLast? = some top ∧
      1 < (walk [] (components path)).length := by
  unfold StrictlyBelow resolve
  generalize walk [] (components path) = dirs
  rw [← List.head?_reverse, ← @List.length_reverse _ dirs]
  generalize dirs.reverse = names
  rcases names with _ | ⟨d, rest⟩
  · simp
  · simp only [List.cons.injEq, List.head?_cons, Option.some.injEq, List.length_cons,
      Nat.lt_add_left_iff_pos, List.length_pos_iff]
    constructor
    · rintro ⟨rest', hne, rfl, rfl⟩; exact ⟨rfl, hne⟩
    · rintro ⟨rfl, hne⟩; exact ⟨rest, hne, rfl, rfl⟩

/-- A path resolves strictly below a top directory iff its walk ends inside that directory. -/
theorem strictlyBelow_iff (hname : IsName top) {path : String} :
    StrictlyBelow top path ↔ EndsInside top (components path) := by
  rw [strictlyBelow_iff_walk]
  constructor
  · rintro ⟨hlast, hlen⟩
    obtain ⟨pre, post, hc, hpre, hpost⟩ := exists_split hname hlast
    refine ⟨pre, post, hc, hpre, hpost, ?_⟩
    rwa [hc, length_walk, depth_append, List.length_nil, hpre, depth_cons_of_isName hname] at hlen
  · rintro ⟨pre, post, hc, hpre, hpost, hlen⟩
    have hroot : walk [] pre = [] := List.eq_nil_of_length_eq_zero (length_walk.trans hpre)
    have htop : enter [] top = [top] := by
      obtain ⟨h₁, h₂, h₃⟩ := hname
      simp [enter, h₁, h₂, h₃]
    have hwalk : walk [] (components path) = walk [top] post := by
      rw [hc, walk_append, hroot, ← htop]; rfl
    rw [hwalk, length_walk]
    exact ⟨getLast?_walk rfl hpost, hlen⟩

end Path
