/-
# Proofs.Scan.Appended -- a document that goes on

A scan decides what it makes of a line from that line and the lines it captures after it.  So lines
put behind a document can only matter to a capture that has come to the end of the document, and
nothing comes after that capture.

* A capture that has stopped before the last line stops there again; one that has come to the last
  line may go on (`GoesOn`, `goesOn_captured`).
* A step answers with the same annotation, and its capture goes on at most (`step_append`).
* By induction on the steps, a reading of the longer document repeats the findings of the shorter
  one; only the last of them may have captured more, and what is found beyond begins behind the
  shorter document (`Prolongs`, `prolongs_of_findings`).

For groups that is `Continues`.  The longer document may fail where the shorter one did not,
because a language file may declare markers and patterns that do harm; it does so exactly at a
harmed line (`continues_iff`).
-/
import CodeAtlas.Proofs.Scan.Failure

namespace CodeAtlas.Scan

set_option autoImplicit false

/-! ## Captures -/

/-- A run of `k` of `n` lines has `k'` lines when more lines follow: more only if it has come to the
last of the `n`. -/
def GoesOn (n k k' : Nat) : Prop := k ≤ k' ∧ (k < n → k' = k)

theorem GoesOn.self (n k : Nat) : GoesOn n k k := ⟨Nat.le_refl k, fun _ => rfl⟩

section Captures

variable {m : Markers} {lines more : List Text}

theorem goesOn_takeWhile (p : Text → Bool) (lines more : List Text) :
    GoesOn lines.length (lines.takeWhile p).length ((lines ++ more).takeWhile p).length := by
  rw [List.takeWhile_append]
  split
  · rename_i all
    constructor
    · rw [List.length_append]
      omega
    · intro stopped
      omega
  · exact .self _ _

theorem goesOn_indentationRun (commentLine : Text) (lines more : List Text) :
    GoesOn lines.length (indentationRun m commentLine lines)
      (indentationRun m commentLine (lines ++ more)) := by
  cases lines with
  | nil => exact ⟨Nat.zero_le _, fun inside => absurd inside (Nat.lt_irrefl 0)⟩
  | cons first rest =>
      rw [List.cons_append, indentationRun, indentationRun]
      split
      · exact .self _ _
      · exact goesOn_takeWhile _ (first :: rest) more

theorem goesOn_braceRun (balance : Int) (started : Bool) (lines more : List Text) :
    GoesOn lines.length (braceRun m balance started lines)
      (braceRun m balance started (lines ++ more)) := by
  induction lines generalizing balance started with
  | nil => exact ⟨Nat.zero_le _, fun inside => absurd inside (Nat.lt_irrefl 0)⟩
  | cons line rest ih =>
      simp only [List.cons_append, braceRun]
      -- What ends the run at this line does not look at the lines after it.
      split
      · exact .self _ _
      split
      · exact .self _ _
      split
      · exact .self _ _
      split
      · exact .self _ _
      · obtain ⟨longer, same⟩ := ih (balance + braceBalance line) (started || line.contains '\x7b')
        constructor
        · omega
        · intro inside
          rw [same (by simp only [List.length_cons] at inside; omega)]

/-- **A capture goes on only from the last line.** -/
theorem goesOn_captured (s : Strategy) (commentLine : Text) (lines more : List Text) :
    GoesOn lines.length (captured s m commentLine lines)
      (captured s m commentLine (lines ++ more)) := by
  cases s with
  | generic => exact goesOn_takeWhile _ lines more
  | indentation => exact goesOn_indentationRun commentLine lines more
  | brace => exact goesOn_braceRun 0 false lines more

end Captures

/-! ## Steps -/

namespace Reader

variable {r : Reader} {line : Text} {after more : List Text} {a? b? : Option Annotation}
  {k k' : Nat}

theorem goesOn_of_captured {m : Language.Markers} {s : Strategy}
    (measured : m.captured s line after = .ok k)
    (measured' : m.captured s line (after ++ more) = .ok k') : GoesOn after.length k k' := by
  unfold Language.Markers.captured at measured measured'
  split at measured
  · cases measured
  split at measured'
  · cases measured'
  cases measured
  cases measured'
  exact goesOn_captured s line after more

/-- **A step finds the same when more lines follow**, and its capture goes on at most. -/
theorem step_append (stepped : r.step line after = .ok (a?, k))
    (stepped' : r.step line (after ++ more) = .ok (b?, k')) :
    b? = a? ∧ GoesOn after.length k k' := by
  rcases step_cases stepped with
    ⟨rfl, rfl, nothing⟩ | ⟨a, rfl, rfl, carries⟩ | ⟨a, rfl, carries, measured⟩
  · rcases step_cases stepped' with
      ⟨rfl, rfl, -⟩ | ⟨b, -, -, carries'⟩ | ⟨b, -, carries', -⟩
    · exact ⟨rfl, .self _ _⟩
    · exact absurd carries' (nothing _ _)
    · exact absurd carries' (nothing _ _)
  · rcases step_cases stepped' with
      ⟨-, -, nothing⟩ | ⟨b, rfl, rfl, carries'⟩ | ⟨b, -, carries', -⟩
    · exact absurd carries (nothing _ _)
    · rw [(carries.unique carries').2]
      exact ⟨rfl, .self _ _⟩
    · cases (carries.unique carries').1
  · rcases step_cases stepped' with
      ⟨-, -, nothing⟩ | ⟨b, -, -, carries'⟩ | ⟨b, rfl, carries', measured'⟩
    · exact absurd carries (nothing _ _)
    · cases (carries.unique carries').1
    · rw [(carries.unique carries').2]
      exact ⟨rfl, goesOn_of_captured measured measured'⟩

/-! ## Readings -/

/-- The findings `gs` prolong the findings `fs` of a document, behind which line number `stop`
comes: they are the same one by one, but the last of `fs` may have captured more if it has come to
the end, and there may be others that begin behind the document. -/
inductive Prolongs (stop : Nat) : List Finding → List Finding → Prop
  | beyond {gs : List Finding} (later : ∀ g ∈ gs, stop ≤ g.line) : Prolongs stop [] gs
  | last {n k k' : Nat} {a : Annotation} {gs : List Finding} (grown : k ≤ k')
      (ended : n + k + 1 < stop → k' = k) (later : ∀ g ∈ gs, stop ≤ g.line) :
      Prolongs stop [⟨n, k, a⟩] (⟨n, k', a⟩ :: gs)
  | same (f : Finding) {fs gs : List Finding} (rest : Prolongs stop fs gs) :
      Prolongs stop (f :: fs) (f :: gs)

theorem le_line_of_findings {n : Nat} {lines : List Text} {fs : List Finding}
    (run : r.findings n lines = .ok fs) : ∀ f ∈ fs, n ≤ f.line :=
  fun f member => ((accounts_of_findings run).within f member).1

/-- **A reading of a document that goes on prolongs that of the document.** -/
theorem prolongs_of_findings {n : Nat} {lines more : List Text} {fs gs : List Finding}
    (run : r.findings n lines = .ok fs) (run' : r.findings n (lines ++ more) = .ok gs) :
    Prolongs (n + lines.length) fs gs := by
  induction n, lines using findings.induct generalizing fs gs with
  | case1 n =>
      rw [findings] at run
      cases run
      exact .beyond (le_line_of_findings run')
  | case2 n line after ih =>
      rw [List.cons_append] at run'
      rw [findings, Run.bind_eq_ok_iff] at run run'
      obtain ⟨⟨a?, k⟩, stepped, run⟩ := run
      obtain ⟨⟨b?, k'⟩, stepped', run'⟩ := run'
      obtain ⟨rfl, grown, kept⟩ := step_append stepped stepped'
      obtain ⟨later, read, rest⟩ := Run.bind_eq_ok_iff.mp run
      obtain ⟨later', read', rest'⟩ := Run.bind_eq_ok_iff.mp run'
      cases rest
      cases rest'
      by_cases inside : k < after.length
      · -- The capture has stopped inside the document, and the reading goes on behind it.
        obtain rfl := kept inside
        rw [List.drop_append_of_le_length (Nat.le_of_lt inside)] at read'
        have place : n + 1 + k' + (after.drop k').length = n + (line :: after).length := by
          rw [List.length_drop, List.length_cons]
          omega
        have behind := ih k' read read'
        rw [place] at behind
        cases b? with
        | none => exact behind
        | some a => exact .same _ behind
      · -- The capture has come to the end of the document, so nothing is found behind it there.
        rw [List.drop_eq_nil_of_le (Nat.le_of_not_lt inside), findings] at read
        cases read
        have beyond : ∀ g ∈ later', n + (line :: after).length ≤ g.line := by
          intro g member
          have := le_line_of_findings read' g member
          rw [List.length_cons]
          omega
        have reached : ¬ n + k + 1 < n + (line :: after).length := by
          rw [List.length_cons]
          omega
        cases b? with
        | none => exact .beyond beyond
        | some a => exact .last grown (fun ended => absurd ended reached) beyond

end Reader

/-! ## Groups -/

/-- **The groups `hs` continue the groups `gs` of a document of `count` lines**, as they do when
only the last of these can still grow. -/
structure Continues (count : Nat) (gs hs : List Group) : Prop where
  /-- All groups but the last come first, as they were. -/
  before : gs.dropLast <+: hs
  /-- The last group is the same up to its lines, and these begin as they did; it is the same
  altogether if it has ended before the last line. -/
  last : ∀ g, gs.getLast? = some g → ∃ h, hs[gs.length - 1]? = some h ∧
    { h with lines := g.lines } = g ∧ h.firstLine = g.firstLine ∧ g.lines <+: h.lines ∧
    (g.lastLine < count → h = g)
  /-- Every other group begins behind the document. -/
  beyond : ∀ h ∈ hs.drop gs.length, count < h.firstLine

theorem Finding.lines_prefix {n k k' : Nat} {a : Annotation} (grown : k ≤ k') :
    Finding.lines ⟨n, k, a⟩ <+: Finding.lines ⟨n, k', a⟩ := by
  have ranges : List.range (k + 1) <+: List.range (k' + 1) := by
    rw [List.prefix_iff_eq_take, List.length_range, List.take_range, Nat.min_eq_left (by omega)]
  exact ranges.map _

theorem Continues.cons (g : Group) {count : Nat} {gs hs : List Group}
    (rest : Continues count gs hs) : Continues count (g :: gs) (g :: hs) := by
  cases gs with
  | nil =>
      refine ⟨List.nil_prefix, fun g' last => ?_, rest.beyond⟩
      obtain rfl := Option.some.inj last
      exact ⟨g, rfl, rfl, rfl, List.prefix_refl _, fun _ => rfl⟩
  | cons g' gs =>
      refine ⟨?_, fun l last => ?_, rest.beyond⟩
      · rw [List.dropLast_cons_cons]
        exact (List.prefix_cons_inj g).mpr rest.before
      · rw [List.getLast?_cons_cons] at last
        exact rest.last l last

theorem Reader.Prolongs.continues {count : Nat} {fs gs : List Finding}
    (prolongs : Prolongs (1 + count) fs gs) (filePath : Text) :
    Continues count (fs.map (Finding.group filePath)) (gs.map (Finding.group filePath)) := by
  have behind {gs : List Finding} (later : ∀ g ∈ gs, 1 + count ≤ g.line) :
      ∀ h ∈ gs.map (Finding.group filePath), (count : Int) < h.firstLine := by
    intro h member
    obtain ⟨g, found, rfl⟩ := List.mem_map.mp member
    have := later g found
    rw [Finding.firstLine_group]
    omega
  induction prolongs with
  | beyond later => exact ⟨by simp, by simp, behind later⟩
  | @last n k k' a gs grown ended later =>
      refine ⟨List.nil_prefix, fun g last => ?_, behind later⟩
      rw [List.map_singleton, List.getLast?_singleton] at last
      obtain rfl := Option.some.inj last
      refine ⟨_, rfl, rfl, ?_, Finding.lines_prefix grown, fun stopped => ?_⟩
      · rw [Finding.firstLine_group, Finding.firstLine_group]
      · rw [Finding.lastLine_group] at stopped
        dsimp only at stopped
        rw [ended (by omega)]
  | same f _ ih => exact ih.cons _

/-- **Lines put behind a document matter to its last group only**, when they can be read. -/
theorem continues_of_groups {r : Reader} {filePath : Text} {start rest : List Text}
    {gs hs : List Group} (read : r.groups filePath start = .ok gs)
    (read' : r.groups filePath (start ++ rest) = .ok hs) : Continues start.length gs hs := by
  rw [Reader.groups, Run.map_eq_ok_iff] at read read'
  obtain ⟨fs, run, rfl⟩ := read
  obtain ⟨fs', run', rfl⟩ := read'
  exact (Reader.prolongs_of_findings run run').continues filePath

/-- **When lines can be put behind a document.**  The groups of a document that has been scanned are
continued when it goes on exactly if no line to which the reading comes then is harmed.  That is so
for all lines where the markers are texts and every additional pattern has a group. -/
theorem continues_iff (s : Scanner) (d : Language.Descriptor) (filePath : Text)
    (start rest : List Text) {gs : List Group} (grouped : 1 ≤ s.table.pattern.groups)
    (read : (s.reader d).groups filePath start = .ok gs) :
    ((∃ hs, (s.reader d).groups filePath (start ++ rest) = .ok hs ∧
        Continues start.length gs hs) ↔
      ∀ line after, (s.reader d).Meets (start ++ rest) line after →
        ¬ (s.reader d).Harmed line after) ∧
    (d.markers.allPlain = true → (∃ ps, s.extras d = .ok ps ∧ ∀ p ∈ ps, 1 ≤ p.groups) →
      ∃ hs, (s.reader d).groups filePath (start ++ rest) = .ok hs ∧
        Continues start.length gs hs) := by
  have goesOn : (∃ hs, (s.reader d).groups filePath (start ++ rest) = .ok hs ∧
      Continues start.length gs hs) ↔
        ∃ fs, (s.reader d).findings 1 (start ++ rest) = .ok fs := by
    rw [← Run.exists_map_iff (f := List.map (Finding.group filePath))]
    constructor
    · rintro ⟨hs, read', -⟩
      exact ⟨hs, read'⟩
    · rintro ⟨hs, read'⟩
      exact ⟨hs, read', continues_of_groups read read'⟩
  constructor
  · rw [goesOn]
    exact Reader.exists_findings_iff (r := s.reader d) grouped 1 _
  · rintro plain ⟨ps, ready, all⟩
    rw [goesOn]
    exact exists_findings (r := s.reader d) plain ready grouped all 1 _

/-- When the function is only begun, its group has the lines that there are; the rest of the
document adds the others, and a group behind them. -/
theorem continues_iff_braced :
    let d := Language.bracketed "Go" ["go"] .brace "//" "/*" "*/" []
    let r := Scanner.reader { table := Language.packaged } d
    ∃ gs hs, r.groups "a.go" (bracedDocument.take 2) = .ok gs ∧ gs.map (·.lines) = [[1, 2]] ∧
      r.groups "a.go" (bracedDocument.take 2 ++ bracedDocument.drop 2) = .ok hs ∧
      hs.map (·.lines) = [[1, 2, 3, 4], [5]] ∧ Continues 2 gs hs := by
  intro d r
  have begun : (r.groups "a.go" (bracedDocument.take 2)).toOption.map (List.map Group.lines) =
      some [[1, 2]] := by decide +kernel
  have ended : (r.groups "a.go" (bracedDocument.take 2 ++ bracedDocument.drop 2)).toOption.map
      (List.map Group.lines) = some [[1, 2, 3, 4], [5]] := by decide +kernel
  obtain ⟨gs, read, lines⟩ := Option.map_eq_some_iff.mp begun
  rw [Run.toOption_eq_some_iff] at read
  obtain ⟨hs, read', continues⟩ := (continues_iff { table := Language.packaged } d "a.go" _
    (bracedDocument.drop 2) (by decide) read).2 (by decide) ⟨[], rfl, by simp⟩
  rw [show r.groups "a.go" _ = .ok hs from read'] at ended
  exact ⟨gs, hs, read, lines, read', by simpa [Except.toOption] using ended, continues⟩

/-- Once a greeting is put behind it, a document with a group cannot be scanned any more in a
language with an additional pattern that has no group. -/
theorem not_continues_greeting :
    ∃ t d gs, Language.load Pattern.read (some Scanner.harmfulFile) = .ok t ∧
      t.resolve? none (some "a.x".toList) = some d ∧
      (Scanner.reader { table := t } d).groups "a.x" ["// @group a", ""] = .ok gs ∧
      gs.map (·.lines) = [[1]] ∧
      ¬ ∃ hs, (Scanner.reader { table := t } d).groups "a.x" (["// @group a", ""] ++ ["// hello"]) =
        .ok hs ∧ Continues 2 gs hs := by
  have run : (Language.load Pattern.read (some Scanner.harmfulFile)).toOption.bind (fun t =>
      (t.resolve? none (some "a.x".toList)).map fun d =>
        let r := Scanner.reader { table := t } d
        ((r.groups "a.x" ["// @group a", ""]).toOption.map (List.map Group.lines),
          (r.groups "a.x" (["// @group a", ""] ++ ["// hello"])).toOption.isNone)) =
      some (some [[1]], true) := by decide +kernel
  obtain ⟨t, loaded, run⟩ := Option.bind_eq_some_iff.mp run
  obtain ⟨d, resolved, answers⟩ := Option.map_eq_some_iff.mp run
  obtain ⟨scanned, failed⟩ := Prod.mk.inj answers
  obtain ⟨gs, read, lines⟩ := Option.map_eq_some_iff.mp scanned
  refine ⟨t, d, gs, Run.toOption_eq_some_iff.mp loaded, resolved,
    Run.toOption_eq_some_iff.mp read, lines, ?_⟩
  rintro ⟨hs, read', -⟩
  rw [read'] at failed
  cases failed

end CodeAtlas.Scan
