/-
# Proofs.Scan.Separated -- documents on either side of a blank line

A blank line carries no comment, and it ends every capture that goes by indentation or up to the
next blank line.  (A capture by braces may go on behind it.)  So what stands behind a blank line
cannot be seen from in front of it:

* a capture has the same length, and the same fault if it fails, whether or not a blank line and
  more follow the lines after the comment (`captured_append_blank`);
* so every step in front of the blank line answers the same (`step_append_blank`);
* a reading does not depend on the number of its first line, but for the numbers in its findings
  (`findings_down`).

By induction on the steps, the reading comes to the blank line without having passed over it, and
goes on behind it as if the document began there (`findings_append_blank`).  For groups that is
`groups_separated`.
-/
import CodeAtlas.Proofs.Scan.Blanks
import CodeAtlas.Proofs.Scan.Coverage

namespace CodeAtlas

set_option autoImplicit false

/-- The same group in a document in which `k` lines come first. -/
def Group.down (k : Nat) (g : Group) : Group := { g with lines := g.lines.map (· + (k : Int)) }

namespace Scan

variable {s : Strategy} {line blank : Text} {after rest : List Text}

/-! ## Captures -/

section Captures

variable {m : Markers}

theorem length_takeWhile_append_cons {p : Text → Bool} (stops : p blank = false)
    (lines rest : List Text) :
    ((lines ++ blank :: rest).takeWhile p).length = (lines.takeWhile p).length := by
  rw [List.takeWhile_append, List.takeWhile_cons, stops]
  split
  · rename_i whole
    simp [whole]
  · rfl

theorem isCode_of_isBlank (hollow : Text.isBlank blank = true) : isCode m blank = false :=
  Bool.eq_false_iff.mpr fun code => by simp [isBlank_of_isCode code] at hollow

theorem indentationRun_append_blank (hollow : Text.isBlank blank = true) :
    indentationRun m line (after ++ blank :: rest) = indentationRun m line after := by
  have run (width : Nat) (lines : List Text) :
      indentedRun m width (lines ++ blank :: rest) = indentedRun m width lines :=
    length_takeWhile_append_cons (by rw [isCode_of_isBlank hollow, Bool.false_and]) lines rest
  cases after with
  | nil =>
      have none_ : indentedRun m (Text.indentation blank) (blank :: rest) = 0 := run _ []
      rw [List.nil_append, indentationRun, indentationRun, none_, ite_self]
  | cons first others =>
      rw [List.cons_append, indentationRun, indentationRun, ← List.cons_append, run]

end Captures

/-- **A blank line ends a capture** that does not go by braces. -/
theorem captured_append_blank (m : Language.Markers) (unbraced : s ≠ .brace)
    (hollow : Text.isBlank blank = true) :
    m.captured s line (after ++ blank :: rest) = m.captured s line after := by
  have fault : m.captureFault s (after ++ blank :: rest) = m.captureFault s after := by
    cases after with
    | nil =>
        rw [Text.isBlank_iff_trim] at hollow
        simp [Language.Markers.captureFault, hollow, unbraced]
    | cons first others => rfl
  have run : captured s m.plain line (after ++ blank :: rest) = captured s m.plain line after := by
    cases s with
    | generic => exact length_takeWhile_append_cons (isCode_of_isBlank hollow) after rest
    | indentation => exact indentationRun_append_blank hollow
    | brace => exact absurd rfl unbraced
  rw [Language.Markers.captured, Language.Markers.captured, fault, run]

/-! ## Readings -/

/-- The same finding in a document in which `k` lines come first. -/
def Finding.down (k : Nat) (f : Finding) : Finding := { f with line := f.line + k }

theorem Finding.group_down (filePath : Text) (k : Nat) (f : Finding) :
    (f.down k).group filePath = (f.group filePath).down k := by
  have lines : (f.down k).lines = f.lines.map (· + (k : Int)) := by
    rw [Finding.lines, Finding.lines, List.map_map]
    refine List.map_congr_left fun i _ => ?_
    simp only [Finding.down, Function.comp_apply]
    omega
  rw [Finding.group, lines]
  rfl

namespace Reader

variable {r : Reader}

/-- **What stands behind a blank line is not seen in front of it.** -/
theorem step_append_blank (unbraced : r.strategy ≠ .brace) (hollow : Text.isBlank blank = true) :
    r.step line (after ++ blank :: rest) = r.step line after := by
  rw [step, step, captured_append_blank r.markers unbraced hollow]

/-- A blank line is passed over. -/
theorem step_of_isBlank (hollow : Text.isBlank blank = true) :
    r.step blank after = .ok (none, 0) := by
  rw [Text.isBlank_iff_trim] at hollow
  have nothing : r.markers.classify blank = .ok none := by
    simp [Language.Markers.classify, Language.Markers.classifyFault, classify, hollow]
  rw [step, nothing]
  rfl

/-- **A reading does not depend on the number of its first line.** -/
theorem findings_down (n k : Nat) (lines : List Text) :
    r.findings (n + k) lines = (r.findings n lines).map (List.map (Finding.down k)) := by
  induction n, lines using findings.induct with
  | case1 n =>
      rw [findings, findings]
      rfl
  | case2 n line after ih =>
      rw [findings, findings]
      cases r.step line after with
      | error f => rfl
      | ok answer =>
          obtain ⟨a?, captured⟩ := answer
          have place : n + k + 1 + captured = n + 1 + captured + k := by omega
          simp only [Run.ok_bind, place, ih captured]
          cases r.findings (n + 1 + captured) (after.drop captured) with
          | error f => rfl
          | ok later => cases a? <;> rfl

/-- **A reading goes on behind a blank line as if it began there.** -/
theorem findings_append_blank (unbraced : r.strategy ≠ .brace)
    (hollow : Text.isBlank blank = true) (n : Nat) (before behind : List Text) :
    r.findings n (before ++ blank :: behind) = do
      let fs ← r.findings n before
      let gs ← r.findings (n + (before.length + 1)) behind
      return fs ++ gs := by
  induction n, before using findings.induct with
  | case1 n =>
      have none_ : r.findings n [] = .ok [] := by rw [findings]
      rw [List.nil_append, none_, findings, step_of_isBlank hollow]
      simp only [Run.ok_bind, List.drop_zero, List.length_nil, Nat.zero_add, Nat.add_zero]
      cases r.findings (n + 1) behind <;> rfl
  | case2 n line after ih =>
      rw [List.cons_append, findings, findings, step_append_blank unbraced hollow]
      cases stepped : r.step line after with
      | error f => rfl
      | ok answer =>
          obtain ⟨a?, captured⟩ := answer
          -- The capture has stopped in front of the blank line.
          have fits : captured ≤ after.length := by
            cases step_spec stepped with
            | passed _ => exact Nat.zero_le _
            | inline _ => exact Nat.zero_le _
            | whole _ fits _ => exact fits
          have place : n + 1 + captured + ((after.drop captured).length + 1) =
              n + ((line :: after).length + 1) := by
            rw [List.length_drop, List.length_cons]
            omega
          simp only [Run.ok_bind, List.drop_append_of_le_length fits, ih captured, place]
          cases r.findings (n + 1 + captured) (after.drop captured) with
          | error f => rfl
          | ok later =>
              cases r.findings (n + ((line :: after).length + 1)) behind with
              | error f => rfl
              | ok beyond => simp only [Run.ok_bind, pure, Except.pure, List.append_assoc]

end Reader

/-! ## Groups -/

/-- **Blank lines separate.**  When captures go by indentation or up to the next blank line, the groups
of two documents with a blank line between them are those of the first, followed by those of the second
with their lines as far down as the second begins; and the whole fails as the first of the two that
fails. -/
theorem groups_separated (s : Scanner) (d : Language.Descriptor) (filePath : Text)
    (before behind : List Text) {blank : Text} (hollow : Text.isBlank blank = true)
    (captures : d.strategy = .indentation ∨ d.strategy = .generic) :
    (s.reader d).groups filePath (before ++ [blank] ++ behind) = do
      let gs ← (s.reader d).groups filePath before
      let hs ← (s.reader d).groups filePath behind
      return gs ++ hs.map (Group.down (before.length + 1)) := by
  have unbraced : (s.reader d).strategy ≠ .brace := by
    rcases captures with same | same
    · exact fun brace => Strategy.noConfusion (same.symm.trans brace)
    · exact fun brace => Strategy.noConfusion (same.symm.trans brace)
  have shape : before ++ [blank] ++ behind = before ++ blank :: behind := by simp
  simp only [Reader.groups, shape, Reader.findings_append_blank unbraced hollow,
    Reader.findings_down]
  cases (s.reader d).findings 1 before with
  | error f => rfl
  | ok fs =>
      cases (s.reader d).findings 1 behind with
      | error f => rfl
      | ok gs =>
          have moved : (gs.map (Finding.down (before.length + 1))).map (Finding.group filePath) =
              (gs.map (Finding.group filePath)).map (Group.down (before.length + 1)) := by
            rw [List.map_map, List.map_map]
            exact List.map_congr_left fun f _ => Finding.group_down filePath _ f
          simp only [Run.ok_bind, Except.map, pure, Except.pure, List.map_append, moved]

/-- A function, and behind a line of white space a stray line that is indented as its body, and another
function. -/
theorem groups_separated_python :
    let d := Language.lined "Python" ["py"] .indentation "#" []
    let r := Scanner.reader { table := Language.packaged } d
    let before : List Text := ["# @group Sum", "def add(a, b):", "    return a + b"]
    let blank : Text := " \t"
    let behind : List Text := ["    pass", "# @group Rest: more", "rest = 1"]
    Text.isBlank blank = true ∧ (d.strategy = .indentation ∨ d.strategy = .generic) ∧
      (r.groups "a.py" (before ++ [blank] ++ behind) = do
        let gs ← r.groups "a.py" before
        let hs ← r.groups "a.py" behind
        return gs ++ hs.map (Group.down 4)) ∧
      (r.groups "a.py" (before ++ [blank] ++ behind)).toOption.map (List.map Group.lines) =
        some [[1, 2, 3], [6, 7]] := by
  intro d r before blank behind
  have hollow : Text.isBlank blank = true := by decide
  have captures : d.strategy = .indentation ∨ d.strategy = .generic := .inl rfl
  exact ⟨hollow, captures,
    groups_separated { table := Language.packaged } d "a.py" before behind hollow captures,
    by decide +kernel⟩

end Scan

end CodeAtlas
