/-
# Proofs.Scan.Blanks -- white space that a scan does not see

What a scan looks at of a line is its trimmed text.  Only a capture by indentation also looks at
the white space in front, and only of lines that are not blank.  Lines look alike to a strategy if
they agree in that (`LooksLike`).

Looking at two documents whose lines look alike, line by line,

* a comment is classified alike, whatever the markers are (`classify_of_trim`);
* a capture has the same length (`captured_of_looksLike`): each of the three runs goes by tests
  that lines which look alike both pass or both fail;
* so every step answers the same (`step_of_looksLike`), and so does every reading, with the same
  fault if it fails (`findings_of_looksLike`).

White space at the end of a line is never looked at (`looksLike_of_endsLike`), and a carriage
return in front of a line feed is such white space, so it does not matter which line ends a text
has (`Scanner.blanks_unseen`).
-/
import CodeAtlas.Language.Packaged
import CodeAtlas.Proofs.Text.Ends
import CodeAtlas.Scan.Scanner

namespace CodeAtlas.Scan

set_option autoImplicit false

variable {s : Strategy} {line line' : Text} {after after' : List Text}

/-! ## Lines -/

/-- **The lines look alike to a strategy**: they have the same trimmed text and, to a capture by
indentation, the same white space in front unless they are blank. -/
def LooksLike (s : Strategy) (line line' : Text) : Prop :=
  Text.trim line = Text.trim line' ∧
    (s = .indentation → Text.isBlank line = false →
      Text.indentation line = Text.indentation line')

instance (s : Strategy) (line line' : Text) : Decidable (LooksLike s line line') :=
  inferInstanceAs (Decidable (_ ∧ (_ → _ → _)))

/-- No strategy looks at white space at the end of a line. -/
theorem looksLike_of_endsLike (s : Strategy) (ends : Text.EndsLike line line') :
    LooksLike s line line' := by
  constructor
  · rw [← Text.trim_trimRight line, ends, Text.trim_trimRight]
  · intro _ solid
    rw [← Text.indentation_trimRight solid, ends, Text.indentation_trimRight (ends.isBlank ▸ solid)]

theorem classify_of_trim (m : Language.Markers) (same : Text.trim line = Text.trim line') :
    m.classify line = m.classify line' := by
  simp only [Language.Markers.classify, classify, same]

theorem isBlank_of_classify {m : Language.Markers} {c : Comment}
    (found : m.classify line = .ok (some c)) : Text.isBlank line = false := by
  by_contra blank
  rw [Bool.not_eq_false, Text.isBlank_iff_trim] at blank
  simp [Language.Markers.classify, Language.Markers.classifyFault, classify, blank] at found

/-! ## Captures -/

section Captures

variable {m : Markers}

/-- Runs go equally far through lines that pass the same tests. -/
theorem length_takeWhile_of_forall₂ {R : Text → Text → Prop} {p q : Text → Bool}
    (alike : List.Forall₂ R after after') (same : ∀ l l', R l l' → p l = q l') :
    (after.takeWhile p).length = (after'.takeWhile q).length := by
  induction alike with
  | nil => rfl
  | cons here _ ih =>
      rw [List.takeWhile_cons, List.takeWhile_cons, same _ _ here]
      split
      · rw [List.length_cons, List.length_cons, ih]
      · rfl

theorem isCode_of_trim (same : Text.trim line = Text.trim line') :
    isCode m line = isCode m line' := by
  rw [isCode, isCode, same]

theorem isBlank_of_isCode (code : isCode m line = true) : Text.isBlank line = false := by
  by_contra blank
  rw [Bool.not_eq_false, Text.isBlank_iff_trim] at blank
  simp [isCode, blank] at code

/-- A run by indentation also asks how far a line is indented, but of code only. -/
theorem indentedRun_of_looksLike (width : Nat)
    (alike : List.Forall₂ (LooksLike .indentation) after after') :
    indentedRun m width after = indentedRun m width after' := by
  apply length_takeWhile_of_forall₂ alike
  rintro l l' ⟨same, indented⟩
  rw [isCode_of_trim same]
  cases code : isCode m l' with
  | false => rfl
  | true => rw [indented rfl (isBlank_of_isCode ((isCode_of_trim same).trans code))]

theorem indentationRun_of_looksLike (here : Text.indentation line = Text.indentation line')
    (alike : List.Forall₂ (LooksLike .indentation) after after') :
    indentationRun m line after = indentationRun m line' after' := by
  cases alike with
  | nil => rfl
  | @cons first first' rest rest' same later =>
      have run (width : Nat) := indentedRun_of_looksLike (m := m) width (.cons same later)
      rw [indentationRun, indentationRun, here]
      cases blank : Text.isBlank first with
      | false => rw [same.2 rfl blank, run]
      | true =>
          -- A blank line ends the run, however far it is indented.
          have none_ (l : Text) (ls : List Text) (blank : Text.isBlank l = true) (width : Nat) :
              indentedRun m width (l :: ls) = 0 := by
            rw [Text.isBlank_iff_trim] at blank
            simp [indentedRun, isCode, blank]
          have blank' := (Text.isBlank_of_trim same.1).symm.trans blank
          rw [none_ first rest blank, none_ first' rest' blank', ite_self, ite_self]

theorem braceRun_of_trim (balance : Int) (started : Bool)
    (alike : List.Forall₂ (fun l l' => Text.trim l = Text.trim l') after after') :
    braceRun m balance started after = braceRun m balance started after' := by
  induction alike generalizing balance started with
  | nil => rfl
  | @cons first first' rest rest' same _ ih =>
      have opens : first.contains '\x7b' = first'.contains '\x7b' := by
        rw [← Text.contains_trim (by decide), same, Text.contains_trim (by decide)]
      have braces : braceBalance first = braceBalance first' := by
        rw [braceBalance, braceBalance, ← Text.count_trim (by decide),
          ← Text.count_trim (c := '\x7d') (by decide), same, Text.count_trim (by decide),
          Text.count_trim (by decide)]
      simp only [braceRun, same, opens, braces, Text.isBlank_of_trim same, ih]

/-- **A capture after a line that is not blank has the same length** where the lines look alike. -/
theorem captured_of_looksLike (here : LooksLike s line line') (solid : Text.isBlank line = false)
    (alike : List.Forall₂ (LooksLike s) after after') :
    captured s m line after = captured s m line' after' := by
  cases s with
  | generic => exact length_takeWhile_of_forall₂ alike fun l l' same => isCode_of_trim same.1
  | indentation => exact indentationRun_of_looksLike (here.2 rfl solid) alike
  | brace => exact braceRun_of_trim 0 false (alike.imp fun l l' same => same.1)

end Captures

theorem markersCaptured_of_looksLike (m : Language.Markers) (here : LooksLike s line line')
    (solid : Text.isBlank line = false) (alike : List.Forall₂ (LooksLike s) after after') :
    m.captured s line after = m.captured s line' after' := by
  have fault : m.captureFault s after = m.captureFault s after' := by
    cases alike with
    | nil => rfl
    | cons same _ => simp only [Language.Markers.captureFault, same.1]
  rw [Language.Markers.captured, Language.Markers.captured, fault,
    captured_of_looksLike here solid alike]

/-! ## Readings -/

namespace Reader

variable {r : Reader}

/-- **A step answers the same** at lines that look alike. -/
theorem step_of_looksLike (here : LooksLike r.strategy line line')
    (alike : List.Forall₂ (LooksLike r.strategy) after after') :
    r.step line after = r.step line' after' := by
  rw [step, step, ← classify_of_trim r.markers here.1]
  cases classified : r.markers.classify line with
  | error f => rfl
  | ok c? =>
      cases c? with
      | none => rfl
      | some c =>
          have solid := isBlank_of_classify classified
          rw [markersCaptured_of_looksLike r.markers here solid alike]

variable {lines lines' : List Text}

/-- **A reading finds the same** in lines that look alike, or fails with the same fault. -/
theorem findings_of_looksLike (n : Nat)
    (alike : List.Forall₂ (LooksLike r.strategy) lines lines') :
    r.findings n lines = r.findings n lines' := by
  induction n, lines using findings.induct generalizing lines' with
  | case1 n =>
      cases alike
      rfl
  | case2 n line after ih =>
      cases alike with
      | cons here later =>
          rw [findings, findings, step_of_looksLike here later]
          congr 1
          funext ⟨a?, k⟩
          dsimp only
          rw [ih k (List.forall₂_drop k later)]

/-- Lines that look alike ask for the additional patterns alike. -/
theorem asks_of_looksLike (alike : List.Forall₂ (LooksLike r.strategy) lines lines') :
    r.asks lines = r.asks lines' := by
  induction lines using asks.induct generalizing lines' with
  | case1 =>
      cases alike
      rfl
  | case2 line after ih =>
      cases alike with
      | @cons _ line' _ after' here later =>
          have first : r.asksAt line = r.asksAt line' := by
            rw [asksAt, asksAt, classify_of_trim r.markers here.1]
          rw [asks, asks, first, step_of_looksLike here later]
          congr 1
          cases r.step line' after' with
          | error f => rfl
          | ok answer => exact ih answer.2 (List.forall₂_drop answer.2 later)

theorem groups_of_looksLike (filePath : Text)
    (alike : List.Forall₂ (LooksLike r.strategy) lines lines') :
    r.groups filePath lines = r.groups filePath lines' := by
  rw [groups, groups, findings_of_looksLike 1 alike]

end Reader

/-! ## Scans -/

namespace Scanner

variable {s : Scanner}

/-- Texts whose lines end alike are scanned alike, and leave the same patterns ready. -/
theorem scan_of_endsLike {text text' : Text} (filePath : Text) (languageId : Option Text)
    (ends : List.Forall₂ Text.EndsLike (Text.splitOn '\n' text) (Text.splitOn '\n' text')) :
    s.scan text filePath languageId = s.scan text' filePath languageId := by
  rw [scan, scan, scanLines, scanLines]
  cases s.table.resolve? languageId (some filePath) with
  | none => rfl
  | some d =>
      have alike := ends.imp fun l l' same => looksLike_of_endsLike (s.reader d).strategy same
      dsimp only
      rw [Reader.groups_of_looksLike filePath alike, Reader.asks_of_looksLike alike]

/-- **White space at the end of a line and the kind of line end are not seen.**  Documents whose
lines look alike to the strategy of a language give the same groups in that language, or fail with
the same fault.  In particular a text gives the same groups with a carriage return put in front of
every line feed, and with the carriage return taken away in front of every line feed, wherever it
has any. -/
theorem blanks_unseen (s : Scanner) :
    (∀ (d : Language.Descriptor) (filePath : Text) (lines lines' : List Text),
      List.Forall₂ (LooksLike d.strategy) lines lines' →
        (s.reader d).groups filePath lines = (s.reader d).groups filePath lines') ∧
    ∀ (text filePath : Text) (languageId : Option Text),
      s.scan (Text.replace "\n" "\r\n" text) filePath languageId = s.scan text filePath languageId ∧
      s.scan (Text.replace "\r\n" "\n" text) filePath languageId =
        s.scan text filePath languageId := by
  constructor
  · intro d filePath lines lines' alike
    exact Reader.groups_of_looksLike (r := s.reader d) filePath alike
  · intro text filePath languageId
    exact ⟨scan_of_endsLike filePath languageId (Text.ends_replace_lineFeed text),
      scan_of_endsLike filePath languageId (Text.ends_replace_return text)⟩

/-- A function with white space behind its lines, and a blank line that is indented. -/
def spacedLines : List Text :=
  ["# @group Sum: adds\r", "def add(a, b):  ", "    return a + b\t", "   \r", "x = 1"]

/-- The same function without. -/
def bareLines : List Text :=
  ["# @group Sum: adds", "def add(a, b):", "    return a + b", "", "x = 1"]

/-- Either way the group ends where the function does. -/
theorem blanks_unseen_python :
    let d := Language.lined "Python" ["py"] .indentation "#" []
    let r := reader { table := Language.packaged } d
    List.Forall₂ (LooksLike d.strategy) spacedLines bareLines ∧
      (r.groups "a.py" spacedLines).toOption.map (List.map Group.lines) = some [[1, 2, 3]] ∧
      r.groups "a.py" spacedLines = r.groups "a.py" bareLines := by
  intro d r
  have alike : List.Forall₂ (LooksLike d.strategy) spacedLines bareLines :=
    .cons (by decide) (.cons (by decide) (.cons (by decide) (.cons (by decide)
      (.cons (by decide) .nil))))
  refine ⟨alike, by decide +kernel, ?_⟩
  exact (blanks_unseen { table := Language.packaged }).1 d "a.py" _ _ alike

end Scanner

end CodeAtlas.Scan
