import DogBot.Exec.Runner
import DogBot.Library.Utf8

/-! # The output of an execution

The container runtime sends the output of an execution in frames, each of which
is decoded on its own. The texts that are collected depend on how the output is
cut into frames if a frame ends inside a character.
-/

namespace DogBot

inductive LogOutput
  | stdErr (message : List UInt8)
  | stdOut (message : List UInt8)
  | stdIn (message : List UInt8)
  | console (message : List UInt8)

/-- The answer to the start of an execution. A frame may be an error of the runtime. -/
inductive StartExecResults
  | attached (output : List (Except String LogOutput))
  | detached

/-- Append a frame to the texts of the two streams. -/
def pushLogOutput (streams : String × String) : LogOutput → String × String
  | .stdOut message | .console message =>
    (streams.1 ++ Utf8.fromUtf8Lossy message, streams.2)
  | .stdErr message => (streams.1, streams.2 ++ Utf8.fromUtf8Lossy message)
  | .stdIn _ => streams

/-- The output, given the answers of `start_exec` and, after the last frame, `inspect_exec`. -/
def collectExecOutput (started : Except String StartExecResults)
    (exitCode : Except String (Option ℤ)) : Except String (String × String × ℤ) := do
  let streams ← match ← started with
    | .attached output =>
      output.foldlM (fun streams next => pushLogOutput streams <$> next) ("", "")
    | .detached => pure ("", "")
  let exitCode ← exitCode
  return (streams.1, streams.2, exitCode.getD 0)

def LogOutput.stdout? : LogOutput → Option (List UInt8)
  | .stdOut message | .console message => some message
  | .stdErr _ | .stdIn _ => none

def LogOutput.stderr? : LogOutput → Option (List UInt8)
  | .stdErr message => some message
  | .stdOut _ | .console _ | .stdIn _ => none

/-- The bytes of the standard output, frame by frame. -/
def stdoutOf (frames : List LogOutput) : List (List UInt8) := frames.filterMap LogOutput.stdout?

def stderrOf (frames : List LogOutput) : List (List UInt8) := frames.filterMap LogOutput.stderr?

/-- No frame ends inside a character that the later frames of its stream go on with. -/
def CharacterWise (frames : List LogOutput) : Prop :=
  Utf8.decoder.Whole (stdoutOf frames) ∧ Utf8.decoder.Whole (stderrOf frames)

/-- What is collected from frames without an error. -/
def collectFrames (frames : List LogOutput) (exitCode : Option ℤ) :
    Except String (String × String × ℤ) :=
  collectExecOutput (.ok (.attached (frames.map .ok))) (.ok exitCode)

instance (frames : List LogOutput) : Decidable (CharacterWise frames) :=
  inferInstanceAs (Decidable (Utf8.decoder.Whole _ ∧ Utf8.decoder.Whole _))

variable {frames frames' : List LogOutput} {exitCode : Option ℤ}

theorem foldl_pushLogOutput (frames : List LogOutput) (streams : String × String) :
    frames.foldl pushLogOutput streams =
      (streams.1 ++ String.ofList ((stdoutOf frames).flatMap Utf8.decoder.decode),
        streams.2 ++ String.ofList ((stderrOf frames).flatMap Utf8.decoder.decode)) := by
  induction frames generalizing streams with
  | nil => simp [stdoutOf, stderrOf]
  | cons frame frames ih =>
    rw [List.foldl_cons, ih]
    cases frame <;>
      simp [pushLogOutput, stdoutOf, stderrOf, List.filterMap_cons, LogOutput.stdout?,
        LogOutput.stderr?, Utf8.fromUtf8Lossy, String.append_assoc]

theorem foldlM_frames (frames : List LogOutput) (streams : String × String) :
    (frames.map Except.ok).foldlM (fun streams next => pushLogOutput streams <$> next) streams =
      (.ok (frames.foldl pushLogOutput streams) : Except String (String × String)) := by
  induction frames generalizing streams with
  | nil => rfl
  | cons frame frames ih => exact ih _

theorem collectFrames_eq (frames : List LogOutput) (exitCode : Option ℤ) :
    collectFrames frames exitCode =
      .ok (String.ofList ((stdoutOf frames).flatMap Utf8.decoder.decode),
        String.ofList ((stderrOf frames).flatMap Utf8.decoder.decode), exitCode.getD 0) := by
  have hfold := foldlM_frames frames ("", "")
  rw [foldl_pushLogOutput, String.empty_append, String.empty_append] at hfold
  exact congrArg (· >>= fun streams => .ok (streams.1, streams.2, exitCode.getD 0)) hfold

/-- The texts are those of the whole streams exactly if no frame ends inside a character. -/
theorem collectFrames_eq_iff (frames : List LogOutput) (exitCode : Option ℤ) :
    collectFrames frames exitCode =
        .ok (Utf8.fromUtf8Lossy (stdoutOf frames).flatten,
          Utf8.fromUtf8Lossy (stderrOf frames).flatten, exitCode.getD 0) ↔
      CharacterWise frames := by
  rw [collectFrames_eq, CharacterWise, ← Decoder.flatMap_decode_eq_iff,
    ← Decoder.flatMap_decode_eq_iff, Except.ok.injEq, Prod.mk.injEq, Prod.mk.injEq,
    Utf8.fromUtf8Lossy, Utf8.fromUtf8Lossy, String.ofList_inj, String.ofList_inj]
  exact and_congr_right fun _ => and_iff_left rfl

/-- Two ways to cut the same output give the same texts, those of the whole streams, exactly if no
frame of either ends inside a character. A text in UTF-8 then arrives unchanged. -/
theorem output_uncut_iff (hout : (stdoutOf frames).flatten = (stdoutOf frames').flatten)
    (herr : (stderrOf frames).flatten = (stderrOf frames').flatten) (exitCode : Option ℤ) :
    (collectFrames frames exitCode = collectFrames frames' exitCode ∧
        collectFrames frames exitCode =
          .ok (Utf8.fromUtf8Lossy (stdoutOf frames).flatten,
            Utf8.fromUtf8Lossy (stderrOf frames).flatten, exitCode.getD 0) ↔
      CharacterWise frames ∧ CharacterWise frames') ∧
    ∀ s, Utf8.fromUtf8Lossy (Utf8.bytes s) = s := by
  refine ⟨?_, Utf8.fromUtf8Lossy_bytes⟩
  rw [← collectFrames_eq_iff frames exitCode, ← collectFrames_eq_iff frames' exitCode, ← hout,
    ← herr]
  constructor
  · rintro ⟨hsame, hwhole⟩
    exact ⟨hwhole, hsame ▸ hwhole⟩
  · rintro ⟨hwhole, hwhole'⟩
    exact ⟨hwhole.trans hwhole'.symm, hwhole⟩

theorem output_uncut_iff_ascii :
    collectFrames [.stdOut [0x4F], .stdErr [0x21], .stdOut [0x4B]] (some 0) =
      collectFrames [.stdOut [0x4F, 0x4B], .stdErr [0x21]] (some 0) := by
  refine ((output_uncut_iff ?_ ?_ (some 0)).1.mpr ⟨?_, ?_⟩).1 <;> decide +kernel

/-- A character whose bytes come in two frames is lost. -/
theorem cut_character_lost : ¬ ∀ (frames frames' : List LogOutput) (exitCode : Option ℤ),
    (stdoutOf frames).flatten = (stdoutOf frames').flatten →
    (stderrOf frames).flatten = (stderrOf frames').flatten →
    collectFrames frames exitCode = collectFrames frames' exitCode := by
  intro h
  have hsame := h [.stdOut [0xE4], .stdOut [0xBD, 0xA0]] [.stdOut [0xE4, 0xBD, 0xA0]] (some 0)
    (by decide) (by decide)
  rw [collectFrames_eq, collectFrames_eq, Except.ok.injEq, Prod.mk.injEq,
    String.ofList_inj] at hsame
  exact absurd hsame.1 (by decide +kernel)

end DogBot
