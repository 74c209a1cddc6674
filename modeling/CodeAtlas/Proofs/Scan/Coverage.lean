/-
# Proofs.Scan.Coverage -- every annotation of a document is accounted for

A reading of a document is `Exact` when its groups and its annotations match line by line:

* every group covers a run of lines without gaps, inside the document, and ends before the next
  group begins;
* the first line of a group carries the annotation the group is named for, and a group whose
  annotation is inline has that line only;
* a line whose comment is all of it and holds an annotation is the first line of exactly one group;
  a line with an inline annotation is that too, or lies inside the run of an earlier group.

The reading jumps over captured lines, so the last part rests on one fact about all strategies:
a captured line starts no comment.  `step_cases` says what one line does, `step_spec` adds that fact.
`Accounts` is the invariant of a run of steps from line number `n` on; every step extends it
(`Accounts.passed`, `Accounts.found`), hence every reading has it (`accounts_of_findings`).

Reading fails only where a pattern lacks its first group or the additional patterns cannot be made
ready (`exists_findings`), and what is read is exact whether or not it could have failed
(`groups_exact`).
-/
import Mathlib.Data.List.Nodup
import CodeAtlas.Language.Packaged
import CodeAtlas.LineRanges
import CodeAtlas.Proofs.Run
import CodeAtlas.Proofs.Scan.Capture
import CodeAtlas.Scan.Scanner

namespace CodeAtlas

set_option autoImplicit false

/-- The last line of a group, 0 when no line is known. -/
def Group.lastLine (g : Group) : Int := g.lines.getLastD 0

namespace Scan

variable {r : Reader}

/-! ## One line -/

namespace Reader

/-- The line carries this annotation, in a comment that is all of the line or an inline one. -/
def Carries (r : Reader) (line : Text) (whole : Bool) (a : Annotation) : Prop :=
  ∃ comment, r.markers.classify line = .ok (some comment) ∧ comment.wholeLine = whole ∧
    Annotation.read r.main r.extras comment.text = .ok (some a)

theorem Carries.unique {line : Text} {whole whole' : Bool} {a a' : Annotation}
    (carries : r.Carries line whole a) (carries' : r.Carries line whole' a') :
    whole = whole' ∧ a = a' := by
  obtain ⟨comment, classified, rfl, read⟩ := carries
  obtain ⟨comment', classified', rfl, read'⟩ := carries'
  rw [classified] at classified'
  cases classified'
  rw [read] at read'
  cases read'
  exact ⟨rfl, rfl⟩

/-- A line that starts no comment carries no annotation that is all of it. -/
theorem not_carries_whole {line : Text} {a : Annotation}
    (uncommented : startsComment r.markers.plain (Text.trim line) = false) :
    ¬ r.Carries line true a := by
  rintro ⟨comment, classified, whole, -⟩
  unfold Language.Markers.classify at classified
  split at classified
  · cases classified
  · rename_i clean
    have starts := startsComment_of_wholeLine (Except.ok.inj classified) whole
    rw [uncommented] at starts
    cases starts

theorem captured_spec {m : Language.Markers} {s : Strategy} {line : Text} {after : List Text}
    {k : Nat} (captured : m.captured s line after = .ok k) :
    k ≤ after.length ∧ Uncommented m.plain (after.take k) := by
  unfold Language.Markers.captured at captured
  split at captured
  · cases captured
  · cases captured
    exact ⟨captured_le_length s line after, uncommented_captured s line after⟩

/-- What a step may answer for a line and the lines after it. -/
inductive Answer (r : Reader) (line : Text) (after : List Text) : Option Annotation → Nat → Prop
  /-- Nothing is found, and nothing is captured. -/
  | passed (nothing : ∀ whole a, ¬ r.Carries line whole a) : Answer r line after none 0
  /-- An inline annotation captures nothing. -/
  | inline {a : Annotation} (carries : r.Carries line false a) : Answer r line after (some a) 0
  /-- An annotation that is all of its line captures lines that start no comment. -/
  | whole {a : Annotation} {k : Nat} (carries : r.Carries line true a) (fits : k ≤ after.length)
      (uncommented : Uncommented r.markers.plain (after.take k)) : Answer r line after (some a) k

/-- **What a step has done**: it has found nothing, or an inline annotation, or one that is all of its
line, and then the lines after it have been captured. -/
theorem step_cases {line : Text} {after : List Text} {a? : Option Annotation} {k : Nat}
    (stepped : r.step line after = .ok (a?, k)) :
    (a? = none ∧ k = 0 ∧ ∀ whole a, ¬ r.Carries line whole a) ∨
    (∃ a, a? = some a ∧ k = 0 ∧ r.Carries line false a) ∨
    ∃ a, a? = some a ∧ r.Carries line true a ∧
      r.markers.captured r.strategy line after = .ok k := by
  rw [step, Run.bind_eq_ok_iff] at stepped
  obtain ⟨comment?, classified, stepped⟩ := stepped
  cases comment? with
  | none =>
      cases stepped
      refine .inl ⟨rfl, rfl, fun whole a carries => ?_⟩
      obtain ⟨comment, classified', -⟩ := carries
      rw [classified] at classified'
      cases classified'
  | some comment =>
      simp only [Run.bind_eq_ok_iff] at stepped
      obtain ⟨found?, read, stepped⟩ := stepped
      cases found? with
      | none =>
          cases stepped
          refine .inl ⟨rfl, rfl, fun whole a carries => ?_⟩
          obtain ⟨comment', classified', -, read'⟩ := carries
          rw [classified] at classified'
          cases classified'
          rw [read] at read'
          cases read'
      | some a =>
          cases whole : comment.wholeLine with
          | false =>
              simp only [whole] at stepped
              cases stepped
              exact .inr (.inl ⟨a, rfl, rfl, comment, classified, whole, read⟩)
          | true =>
              simp only [whole, if_true, Run.bind_eq_ok_iff] at stepped
              obtain ⟨captured, measured, stepped⟩ := stepped
              cases stepped
              exact .inr (.inr ⟨a, rfl, ⟨comment, classified, whole, read⟩, measured⟩)

theorem step_spec {line : Text} {after : List Text} {a? : Option Annotation} {k : Nat}
    (stepped : r.step line after = .ok (a?, k)) : r.Answer line after a? k := by
  rcases step_cases stepped with
    ⟨rfl, rfl, nothing⟩ | ⟨a, rfl, rfl, carries⟩ | ⟨a, rfl, carries, measured⟩
  · exact .passed nothing
  · exact .inline carries
  · obtain ⟨fits, uncommented⟩ := captured_spec measured
    exact .whole carries fits uncommented

end Reader

/-! ## A run of steps -/

/-- The findings account for the lines, the first of which has number `n`. -/
structure Accounts (r : Reader) (n : Nat) (lines : List Text) (fs : List Finding) : Prop where
  within : ∀ f ∈ fs, n ≤ f.line ∧ f.line + f.captured < n + lines.length
  apart : fs.Pairwise fun f g => f.line + f.captured < g.line
  sound : ∀ f ∈ fs, ∃ line whole, lines[f.line - n]? = some line ∧
    r.Carries line whole f.annotation ∧ (whole = false → f.captured = 0)
  complete : ∀ i line whole a, lines[i]? = some line → r.Carries line whole a →
    (∃ f ∈ fs, f.line = n + i) ∨
      whole = false ∧ ∃ f ∈ fs, f.line < n + i ∧ n + i ≤ f.line + f.captured

namespace Accounts

theorem nil (n : Nat) : Accounts r n [] [] where
  within := by simp
  apart := .nil
  sound := by simp
  complete := by simp

/-- A line that carries nothing is passed over. -/
theorem passed {n : Nat} {line : Text} {after : List Text} {fs : List Finding}
    (nothing : ∀ whole a, ¬ r.Carries line whole a) (later : Accounts r (n + 1) after fs) :
    Accounts r n (line :: after) fs where
  within := by
    intro f member
    have := later.within f member
    simp only [List.length_cons]
    omega
  apart := later.apart
  sound := by
    intro f member
    obtain ⟨line', whole, found, carries⟩ := later.sound f member
    obtain ⟨begins, -⟩ := later.within f member
    refine ⟨line', whole, ?_, carries⟩
    rw [← found, show f.line - n = f.line - (n + 1) + 1 by omega, List.getElem?_cons_succ]
  complete := by
    intro i line' whole a found carries
    cases i with
    | zero =>
        cases found
        exact absurd carries (nothing whole a)
    | succ i =>
        have := later.complete i line' whole a (by simpa using found) carries
        simpa only [Nat.add_assoc, Nat.add_comm 1] using this

/-- A line that carries an annotation is found, and what is captured after it is passed over: no
captured line carries an annotation that is all of it. -/
theorem found {n k : Nat} {line : Text} {after : List Text} {fs : List Finding} {whole : Bool}
    {a : Annotation} (carries : r.Carries line whole a) (alone : whole = false → k = 0)
    (fits : k ≤ after.length) (uncommented : Uncommented r.markers.plain (after.take k))
    (later : Accounts r (n + 1 + k) (after.drop k) fs) :
    Accounts r n (line :: after) (⟨n, k, a⟩ :: fs) where
  within := by
    intro f member
    rcases List.mem_cons.mp member with rfl | member
    · simp only [List.length_cons]
      omega
    · have := later.within f member
      simp only [List.length_cons, List.length_drop] at *
      omega
  apart := by
    refine List.pairwise_cons.mpr ⟨fun f member => ?_, later.apart⟩
    have := later.within f member
    simp only
    omega
  sound := by
    intro f member
    rcases List.mem_cons.mp member with rfl | member
    · exact ⟨line, whole, by simp, carries, alone⟩
    · obtain ⟨line', whole', found, carries'⟩ := later.sound f member
      obtain ⟨begins, -⟩ := later.within f member
      refine ⟨line', whole', ?_, carries'⟩
      rw [← found, List.getElem?_drop,
        show f.line - n = k + (f.line - (n + 1 + k)) + 1 by omega, List.getElem?_cons_succ]
  complete := by
    intro i line' whole' a' found carries'
    cases i with
    | zero => exact .inl ⟨_, List.mem_cons_self, rfl⟩
    | succ i =>
        rw [List.getElem?_cons_succ] at found
        by_cases inside : i < k
        · -- A captured line: an annotation that is all of it would have ended the capture.
          refine .inr ⟨?_, _, List.mem_cons_self, by simp only; omega, by simp only; omega⟩
          cases whole' with
          | false => rfl
          | true =>
              refine absurd carries' (Reader.not_carries_whole (uncommented line' ?_))
              refine List.mem_of_getElem? (i := i) ?_
              rw [List.getElem?_take_of_lt inside, found]
        · have beyond : (after.drop k)[i - k]? = some line' := by
            rw [List.getElem?_drop, show k + (i - k) = i by omega, found]
          have place : n + (i + 1) = n + 1 + k + (i - k) := by omega
          rw [place]
          rcases later.complete _ _ _ _ beyond carries' with ⟨f, member, starts⟩ | ⟨inline, inside⟩
          · exact .inl ⟨f, List.mem_cons_of_mem _ member, starts⟩
          · obtain ⟨f, member, inside⟩ := inside
            exact .inr ⟨inline, f, List.mem_cons_of_mem _ member, inside⟩

end Accounts

/-- **Every successful run of steps accounts for its lines.** -/
theorem accounts_of_findings {n : Nat} {lines : List Text} {fs : List Finding}
    (run : r.findings n lines = .ok fs) : Accounts r n lines fs := by
  induction n, lines using Reader.findings.induct generalizing fs with
  | case1 n =>
      rw [Reader.findings] at run
      cases run
      exact .nil n
  | case2 n line after ih =>
      rw [Reader.findings, Run.bind_eq_ok_iff] at run
      obtain ⟨⟨a?, k⟩, stepped, run⟩ := run
      simp only [Run.bind_eq_ok_iff] at run
      obtain ⟨later, run, rest⟩ := run
      cases rest
      have accounts := ih k run
      cases Reader.step_spec stepped with
      | passed nothing => exact .passed nothing accounts
      | inline carries =>
          exact .found carries (fun _ => rfl) (Nat.zero_le _) (by simp [Uncommented]) accounts
      | whole carries fits uncommented =>
          exact .found carries (fun inline => by cases inline) fits uncommented accounts

/-! ## Reading that cannot fail -/

theorem classify_of_allPlain {m : Language.Markers} (plain : m.allPlain = true) (line : Text) :
    m.classify line = .ok (classify m.plain line) := by
  simp only [Language.Markers.allPlain, Bool.not_eq_true', Bool.or_eq_false_iff] at plain
  obtain ⟨⟨line_, start⟩, stop⟩ := plain
  simp [Language.Markers.classify, Language.Markers.classifyFault, line_, start, stop]

theorem captured_of_allPlain {m : Language.Markers} (plain : m.allPlain = true) (s : Strategy)
    (line : Text) (after : List Text) :
    m.captured s line after = .ok (captured s m.plain line after) := by
  simp only [Language.Markers.allPlain, Bool.not_eq_true', Bool.or_eq_false_iff] at plain
  obtain ⟨⟨line_, start⟩, -⟩ := plain
  cases after with
  | nil => rfl
  | cons first rest => simp [Language.Markers.captured, Language.Markers.captureFault, line_, start]

theorem exists_ofMatch {p : Pattern} (grouped : 1 ≤ p.groups) (cs : Pattern.Captures) :
    ∃ a?, Annotation.ofMatch p cs = .ok a? := by
  unfold Annotation.ofMatch
  rw [if_neg (by omega)]
  exact ⟨_, rfl⟩

/-- Patterns that have a first group read every text. -/
theorem exists_read {main : Pattern} {ps : List Pattern} (grouped : 1 ≤ main.groups)
    (all : ∀ p ∈ ps, 1 ≤ p.groups) (t : Text) : ∃ a?, Annotation.read main (.ok ps) t = .ok a? := by
  unfold Annotation.read
  split
  · exact exists_ofMatch grouped _
  · simp only [bind, Except.bind]
    split
    · rename_i p cs first
      obtain ⟨q, member, found⟩ := List.exists_of_findSome?_eq_some first
      simp only [Option.map_eq_some_iff, Prod.mk.injEq] at found
      obtain ⟨_, -, rfl, rfl⟩ := found
      exact exists_ofMatch (all q member) _
    · exact ⟨_, rfl⟩

theorem exists_step (plain : r.markers.allPlain = true) {ps : List Pattern}
    (ready : r.extras = .ok ps) (grouped : 1 ≤ r.main.groups) (all : ∀ p ∈ ps, 1 ≤ p.groups)
    (line : Text) (after : List Text) :
    ∃ answer, r.step line after = .ok answer := by
  simp only [Reader.step, Run.bind_eq_ok_iff, classify_of_allPlain plain, ready]
  cases found : classify r.markers.plain line with
  | none => exact ⟨(none, 0), none, rfl, rfl⟩
  | some comment =>
      obtain ⟨a?, read⟩ := exists_read grouped all comment.text
      cases a? with
      | none => exact ⟨(none, 0), some comment, rfl, by simp only [read]; rfl⟩
      | some a =>
          cases whole : comment.wholeLine with
          | false => exact ⟨(some a, 0), some comment, rfl, by simp only [read, whole]; rfl⟩
          | true =>
              refine ⟨(some a, captured r.strategy r.markers.plain line after), some comment, rfl,
                ?_⟩
              simp only [read, whole, captured_of_allPlain plain]
              rfl

/-- Every document can be read when the markers are texts and every pattern has a first group. -/
theorem exists_findings (plain : r.markers.allPlain = true) {ps : List Pattern}
    (ready : r.extras = .ok ps) (grouped : 1 ≤ r.main.groups) (all : ∀ p ∈ ps, 1 ≤ p.groups)
    (n : Nat) (lines : List Text) : ∃ fs, r.findings n lines = .ok fs := by
  induction n, lines using Reader.findings.induct with
  | case1 n => exact ⟨[], by rw [Reader.findings]⟩
  | case2 n line after ih =>
      obtain ⟨⟨a?, k⟩, stepped⟩ := exists_step plain ready grouped all line after
      obtain ⟨later, run⟩ := ih k
      refine ⟨(a?.map (⟨n, k, ·⟩)).toList ++ later, ?_⟩
      rw [Reader.findings]
      simp only [bind, Except.bind, stepped, run]
      rfl

/-! ## Groups -/

/-- The line with this number carries the annotation; the first line has number 1. -/
def Reader.CarriesAt (r : Reader) (lines : List Text) (number : Int) (whole : Bool)
    (a : Annotation) : Prop :=
  ∃ i line, number = (i + 1 : Nat) ∧ lines[i]? = some line ∧ r.Carries line whole a

/-- The groups are exactly what the annotations in the lines ask for. -/
structure Exact (r : Reader) (lines : List Text) (gs : List Group) : Prop where
  /-- A group covers a run of lines of the document, without gaps. -/
  run : ∀ g ∈ gs, 1 ≤ g.firstLine ∧ g.firstLine ≤ g.lastLine ∧ g.lastLine ≤ lines.length ∧
    g.lines = LineRanges.span g.firstLine g.lastLine
  /-- A group ends before any later one begins. -/
  apart : gs.Pairwise fun g h => g.lastLine < h.firstLine
  /-- The first line of a group carries its annotation, and an inline one captures nothing. -/
  sound : ∀ g ∈ gs, ∃ whole a, r.CarriesAt lines g.firstLine whole a ∧
    g.functionality = a.name ∧ g.description = a.description ∧
    (whole = false → g.lastLine = g.firstLine)
  /-- No annotation is lost: exactly one group begins at its line, or the annotation is inline and
  its line is inside the run of an earlier group. -/
  complete : ∀ number whole a, r.CarriesAt lines number whole a →
    gs.countP (·.firstLine == number) = 1 ∨
      whole = false ∧ ∃ g ∈ gs, g.firstLine < number ∧ number ≤ g.lastLine

namespace Finding

variable (f : Finding) (filePath : Text)

theorem lines_eq_span :
    f.lines = LineRanges.span f.line (f.line + f.captured : Nat) := by
  have count : ((f.line + f.captured : Nat) + 1 - (f.line : Int)).toNat = f.captured + 1 := by omega
  simp only [lines, LineRanges.span, count]
  refine List.map_congr_left fun k _ => ?_
  push_cast
  rfl

@[simp] theorem firstLine_group : (f.group filePath).firstLine = f.line := by
  simp [group, Group.placed, Group.firstLine, lines, List.range_succ_eq_map]

@[simp] theorem lastLine_group :
    (f.group filePath).lastLine = (f.line + f.captured : Nat) := by
  simp [group, Group.placed, Group.lastLine, lines, List.range_succ]

end Finding

/-- Where groups end before the next begins, a line at which one begins has no other. -/
theorem countP_firstLine {gs : List Group} (forward : ∀ g ∈ gs, g.firstLine ≤ g.lastLine)
    (apart : gs.Pairwise fun g h => g.lastLine < h.firstLine) {g : Group} (member : g ∈ gs) :
    gs.countP (·.firstLine == g.firstLine) = 1 := by
  have ascending : (gs.map (·.firstLine)).Pairwise (· < ·) := by
    rw [List.pairwise_map]
    refine apart.imp_of_mem fun {a b} first _ before => ?_
    exact Int.lt_of_le_of_lt (forward a first) before
  have once := List.count_eq_one_of_mem (ascending.imp fun less => Int.ne_of_lt less)
    (List.mem_map_of_mem (f := fun g : Group => g.firstLine) member)
  rwa [List.count_eq_countP, List.countP_map] at once

theorem Accounts.exact {lines : List Text} {fs : List Finding} (accounts : Accounts r 1 lines fs)
    (filePath : Text) : Exact r lines (fs.map (Finding.group filePath)) := by
  have forward : ∀ g ∈ fs.map (Finding.group filePath), g.firstLine ≤ g.lastLine := by
    intro g member
    obtain ⟨f, -, rfl⟩ := List.mem_map.mp member
    simp only [Finding.firstLine_group, Finding.lastLine_group]
    omega
  have apart : (fs.map (Finding.group filePath)).Pairwise fun g h => g.lastLine < h.firstLine := by
    rw [List.pairwise_map]
    refine accounts.apart.imp fun before => ?_
    simp only [Finding.lastLine_group, Finding.firstLine_group]
    exact_mod_cast before
  refine ⟨fun g member => ?_, apart, fun g member => ?_, fun number whole a carries => ?_⟩
  · have ordered := forward g member
    obtain ⟨f, found, rfl⟩ := List.mem_map.mp member
    have within := accounts.within f found
    refine ⟨?_, ordered, ?_, ?_⟩
    · simp only [Finding.firstLine_group]
      omega
    · simp only [Finding.lastLine_group]
      omega
    · rw [Finding.firstLine_group, Finding.lastLine_group]
      exact f.lines_eq_span
  · obtain ⟨f, mine, rfl⟩ := List.mem_map.mp member
    obtain ⟨line, whole, found, carries, alone⟩ := accounts.sound f mine
    have within := accounts.within f mine
    refine ⟨whole, f.annotation, ⟨f.line - 1, line, ?_, found, carries⟩, rfl, rfl, fun inline => ?_⟩
    · simp only [Finding.firstLine_group]
      omega
    · simp [alone inline]
  · obtain ⟨i, line, rfl, found, carries⟩ := carries
    rcases accounts.complete i line whole a found carries with
      ⟨f, member, starts⟩ | ⟨inline, inside⟩
    · have member := List.mem_map_of_mem (f := Finding.group filePath) member
      have once := countP_firstLine forward apart member
      rw [Finding.firstLine_group, starts, Nat.add_comm] at once
      exact .inl once
    · obtain ⟨f, member, after, before⟩ := inside
      refine .inr ⟨inline, f.group filePath, List.mem_map_of_mem member, ?_, ?_⟩
      · simp only [Finding.firstLine_group]
        omega
      · simp only [Finding.lastLine_group]
        omega

/-- **Scanning finds every annotation and nothing else.**  With markers that are texts a document
can be read when the main pattern and the additional ones have a first group; and whenever it is
read, the groups are exact. -/
theorem groups_exact (s : Scanner) (d : Language.Descriptor) (filePath : Text) (lines : List Text)
    (plain : d.markers.allPlain = true) :
    (1 ≤ s.table.pattern.groups → (∃ ps, s.extras d = .ok ps ∧ ∀ p ∈ ps, 1 ≤ p.groups) →
      ∃ gs, (s.reader d).groups filePath lines = .ok gs) ∧
    ∀ gs, (s.reader d).groups filePath lines = .ok gs → Exact (s.reader d) lines gs := by
  refine ⟨fun grouped ⟨ps, ready, all⟩ => ?_, fun gs read => ?_⟩
  · obtain ⟨fs, run⟩ := exists_findings (r := s.reader d) plain ready grouped all 1 lines
    exact ⟨fs.map (Finding.group filePath), by rw [Reader.groups, run]; rfl⟩
  · rw [Reader.groups, Run.map_eq_ok_iff] at read
    obtain ⟨fs, run, rfl⟩ := read
    exact (accounts_of_findings run).exact filePath

/-- A function with a blank line and an inline annotation inside, and a line after it. -/
def bracedDocument : List Text :=
  ["// @group Open", "f() \x7b", "", "\x7d // @group Inside", "g() // @group After"]

/-- In a document of a language with braces the annotation inside the function belongs to the
function's group; the one after it has a group of its own. -/
theorem groups_exact_braced :
    let d := Language.bracketed "Go" ["go"] .brace "//" "/*" "*/" []
    let r := Scanner.reader { table := Language.packaged } d
    d.markers.allPlain = true ∧ ∃ gs, r.groups "a.go" bracedDocument = .ok gs ∧
      gs.map (·.lines) = [[1, 2, 3, 4], [5]] ∧ Exact r bracedDocument gs := by
  intro d r
  have plain : d.markers.allPlain = true := by decide
  have law := groups_exact { table := Language.packaged } d "a.go" bracedDocument plain
  obtain ⟨gs, read⟩ := law.1 (by decide) ⟨[], rfl, by simp⟩
  have lines : (r.groups "a.go" bracedDocument).toOption.map (List.map Group.lines) =
      some [[1, 2, 3, 4], [5]] := by decide +kernel
  refine ⟨plain, gs, read, ?_, law.2 gs read⟩
  rw [show r.groups "a.go" bracedDocument = .ok gs from read] at lines
  simpa [Except.toOption] using lines

end Scan

end CodeAtlas
