/-
# Proofs.Scan.Capture -- no captured line is a comment of its own

Two tests look at the same line from different sides.  `classify` says which comment a line carries;
`startsComment` is the coarser one that ends a captured run.  Nothing may fall between them:

* a line that is all comment starts one (`startsComment_of_wholeLine`);
* whatever the strategy, no captured line starts a comment (`uncommented_captured`), and the run
  stays within the lines that are there (`captured_le_length`).

So a captured line can carry an inline comment at most, whichever strategy captured it.
-/
import Mathlib.Data.List.TakeWhile
import CodeAtlas.Scan.Capture

namespace CodeAtlas.Scan

set_option autoImplicit false

variable {m : Markers}

/-! ## Comments that are all of their line -/

theorem wholeLineComment?_eq_some {t : Text} {comment : Comment}
    (found : wholeLineComment? m t = some comment) :
    comment.wholeLine = true ∧ startsComment m t = true := by
  simp only [wholeLineComment?, Option.bind_eq_some_iff, Option.map_eq_some_iff] at found
  obtain ⟨marker, declared, rest, after, rfl⟩ := found
  refine ⟨rfl, ?_⟩
  rw [Text.after?_eq_some_iff] at after
  subst after
  simp [startsComment, declared]

theorem wholeBlockComment?_eq_some {t : Text} {comment : Comment}
    (found : wholeBlockComment? m t = some comment) :
    comment.wholeLine = true ∧ startsComment m t = true := by
  simp only [wholeBlockComment?, Option.bind_eq_some_iff] at found
  obtain ⟨⟨start, stop⟩, declared, found⟩ := found
  split at found
  · rename_i fits
    cases found
    refine ⟨rfl, ?_⟩
    simp only [Bool.and_eq_true] at fits
    have usable : Markers.usable m.blockStart = some start := by
      unfold Markers.block? at declared
      split at declared
      · rename_i starts stops
        cases declared
        exact starts
      · cases declared
    simp [startsComment, usable, fits.1.1]
  · cases found

theorem inlineComment?_eq_some {t : Text} {comment : Comment}
    (found : inlineComment? m t = some comment) : comment.wholeLine = false := by
  simp only [inlineComment?, Option.bind_eq_some_iff] at found
  obtain ⟨marker, -, pos, -, found⟩ := found
  split at found <;> cases found
  rfl

theorem inlineBlockComment?_eq_some {t : Text} {comment : Comment}
    (found : inlineBlockComment? m t = some comment) : comment.wholeLine = false := by
  simp only [inlineBlockComment?, Option.bind_eq_some_iff] at found
  obtain ⟨⟨start, stop⟩, -, pos, -, found⟩ := found
  split at found
  · cases found
  · simp only [Option.map_eq_some_iff] at found
    obtain ⟨close, -, rfl⟩ := found
    rfl

/-- A comment that is all of its line is one that the coarser test sees too. -/
theorem startsComment_of_wholeLine {line : Text} {comment : Comment}
    (found : classify m line = some comment) (whole : comment.wholeLine = true) :
    startsComment m (Text.trim line) = true := by
  simp only [classify] at found
  split at found
  · cases found
  · simp only [Option.orElse_eq_orElse, Option.orElse_eq_or, Option.or_eq_some_iff] at found
    obtain found | ⟨-, found | ⟨-, found | ⟨-, found⟩⟩⟩ := found
    · exact (wholeLineComment?_eq_some found).2
    · exact (wholeBlockComment?_eq_some found).2
    · rw [inlineComment?_eq_some found] at whole
      cases whole
    · rw [inlineBlockComment?_eq_some found] at whole
      cases whole

/-! ## Captured runs -/

/-- None of the lines starts a comment. -/
def Uncommented (m : Markers) (lines : List Text) : Prop :=
  ∀ line ∈ lines, startsComment m (Text.trim line) = false

theorem startsComment_of_isCode {line : Text} (code : isCode m line = true) :
    startsComment m (Text.trim line) = false := by
  simp only [isCode, Bool.and_eq_true, Bool.not_eq_true'] at code
  exact code.2

/-- A run that only lets in code is uncommented. -/
theorem uncommented_takeWhile {p : Text → Bool}
    (code : ∀ line, p line = true → isCode m line = true) (lines : List Text) :
    Uncommented m (lines.take (lines.takeWhile p).length) := by
  rw [← List.prefix_iff_eq_take.mp (List.takeWhile_prefix p)]
  intro line member
  exact startsComment_of_isCode (code line (List.mem_takeWhile_imp member))

theorem uncommented_indentedRun (width : Nat) (lines : List Text) :
    Uncommented m (lines.take (indentedRun m width lines)) := by
  refine uncommented_takeWhile (fun line holds => ?_) lines
  simp only [Bool.and_eq_true] at holds
  exact holds.1

/-- One line of a run of braces: it is left out, it ends the run, or the run goes on. -/
theorem braceRun_cons (balance : Int) (started : Bool) (line : Text) (rest : List Text) :
    braceRun m balance started (line :: rest) = 0 ∨
      startsComment m (Text.trim line) = false ∧
        (braceRun m balance started (line :: rest) = 1 ∨
          braceRun m balance started (line :: rest) =
            1 + braceRun m (balance + braceBalance line) (started || line.contains '\x7b')
              rest) := by
  simp only [braceRun]
  split
  · exact .inl rfl
  · rename_i uncommented
    split
    · exact .inl rfl
    · split
      · exact .inl rfl
      · refine .inr ⟨by simpa using uncommented, ?_⟩
        split
        · exact .inl rfl
        · exact .inr rfl

theorem braceRun_le_length (balance : Int) (started : Bool) (lines : List Text) :
    braceRun m balance started lines ≤ lines.length := by
  induction lines generalizing balance started with
  | nil => simp [braceRun]
  | cons line rest ih =>
      simp only [List.length_cons]
      have later := ih (balance + braceBalance line) (started || line.contains '\x7b')
      rcases braceRun_cons (m := m) balance started line rest with none_ | ⟨-, one | more⟩ <;> omega

theorem uncommented_braceRun (balance : Int) (started : Bool) (lines : List Text) :
    Uncommented m (lines.take (braceRun m balance started lines)) := by
  induction lines generalizing balance started with
  | nil => simp [Uncommented]
  | cons line rest ih =>
      rcases braceRun_cons (m := m) balance started line rest with none_ | ⟨plain, one | more⟩
      · simp [none_, Uncommented]
      · rw [one]
        simpa [Uncommented] using plain
      · rw [more, Nat.add_comm, List.take_succ_cons]
        intro other member
        rcases List.mem_cons.mp member with rfl | later
        · exact plain
        · exact ih _ _ other later

/-- A capture stays within the lines that are there. -/
theorem captured_le_length (s : Strategy) (commentLine : Text) (after : List Text) :
    captured s m commentLine after ≤ after.length := by
  cases s with
  | generic => exact (List.takeWhile_prefix _).length_le
  | indentation =>
      cases after with
      | nil => exact Nat.le_refl 0
      | cons first rest =>
          simp only [captured, indentationRun]
          split
          · exact Nat.zero_le _
          · exact (List.takeWhile_prefix _).length_le
  | brace => exact braceRun_le_length 0 false after

/-- Whatever the strategy, no captured line starts a comment. -/
theorem uncommented_captured (s : Strategy) (commentLine : Text) (after : List Text) :
    Uncommented m (after.take (captured s m commentLine after)) := by
  cases s with
  | generic => exact uncommented_takeWhile (fun _ code => code) after
  | indentation =>
      cases after with
      | nil => simp [Uncommented]
      | cons first rest =>
          simp only [captured, indentationRun]
          split
          · simp [Uncommented]
          · exact uncommented_indentedRun _ (first :: rest)
  | brace => exact uncommented_braceRun 0 false after

end CodeAtlas.Scan
