/-
# Proofs.Scan.Block -- what a strategy captures

Each strategy has a meaning without a loop: the lines right after a comment are a *block* when they
are of a certain form (`Block`), and captured is the longest run of them that is one
(`capturedAt_isLongest`).  In no block a line begins with a comment.

* `generic`: no line is blank (`PlainBlock`).
* `indentation`: also no line is blank; the first is indented as much as the comment, and the others
  as much as the first (`IndentedBlock`).
* `brace`: no `}` closes more than has been opened, blank lines come after a `{`, and the run does
  not go on where all that has been opened is closed (`BraceBlock`).

The first two say something of each line, given the first one, so the run is that of `takeWhile`.  For
the third a run is looked at behind the lines that are captured already, its `before`: one more line
either ends it or is added to those (`braceBlock_cons_iff`).
-/
import Mathlib
import CodeAtlas.Proofs.Scan.Capture
import CodeAtlas.Proofs.Text.Ends

namespace CodeAtlas.Scan

set_option autoImplicit false

/-! ## Longest runs -/

section IsLongest

variable {α : Type} {P Q : List α → Prop} {a : α} {l : List α} {n : Nat}

/-- **The first `n` members are the longest run at the front of a list for which `P` holds.** -/
structure IsLongest (P : List α → Prop) (l : List α) (n : Nat) : Prop where
  le : n ≤ l.length
  holds : P (l.take n)
  longest : ∀ k ≤ l.length, P (l.take k) → k ≤ n

theorem IsLongest.congr (longest : IsLongest P l n) (same : ∀ run, run <+: l → (Q run ↔ P run)) :
    IsLongest Q l n :=
  ⟨longest.le, (same _ (List.take_prefix _ _)).mpr longest.holds, fun k le holds =>
    longest.longest k le ((same _ (List.take_prefix _ _)).mp holds)⟩

theorem isLongest_nil (holds : P []) : IsLongest P [] 0 :=
  ⟨Nat.le_refl 0, holds, fun _ le _ => le⟩

/-- The run is empty if the first member cannot be in it. -/
theorem isLongest_zero (holds : P []) (none_ : ∀ run, ¬ P (a :: run)) : IsLongest P (a :: l) 0 := by
  refine ⟨Nat.zero_le _, holds, fun k _ some_ => ?_⟩
  cases k with
  | zero => exact Nat.le_refl 0
  | succ k => exact absurd some_ (none_ _)

/-- The run goes on behind the first member as the longest one there. -/
theorem IsLongest.cons (rest : IsLongest Q l n) (same : ∀ run, P (a :: run) ↔ Q run) :
    IsLongest P (a :: l) (n + 1) := by
  refine ⟨Nat.succ_le_succ rest.le, (same _).mpr rest.holds, fun k le some_ => ?_⟩
  cases k with
  | zero => exact Nat.zero_le _
  | succ k => exact Nat.succ_le_succ (rest.longest k (Nat.le_of_succ_le_succ le) ((same _).mp some_))

theorem isLongest_takeWhile (p : α → Bool) (l : List α) :
    IsLongest (fun run => ∀ a ∈ run, p a = true) l (l.takeWhile p).length := by
  induction l with
  | nil => exact isLongest_nil (by simp)
  | cons a l ih =>
      rw [List.takeWhile_cons]
      split
      · rename_i first
        exact ih.cons fun run => by simp [first]
      · rename_i first
        exact isLongest_zero (by simp) fun run all => first (all a List.mem_cons_self)

end IsLongest

variable {m : Markers} {line commentLine first : Text} {before run rest lines : List Text}

/-! ## Blocks -/

/-- The line begins with a comment, behind its indentation.  An empty marker is none. -/
def OpensComment (m : Markers) (line : Text) : Prop :=
  ∃ marker, (m.line = some marker ∨ m.blockStart = some marker) ∧ marker ≠ [] ∧
    marker <+: Text.trim line

/-- A block without blank lines. -/
structure PlainBlock (m : Markers) (run : List Text) : Prop where
  code : ∀ line ∈ run, ¬ OpensComment m line
  solid : ∀ line ∈ run, Text.isBlank line = false

/-- A block that the indentation of its first line keeps together. -/
structure IndentedBlock (m : Markers) (commentLine : Text) (run : List Text) : Prop
    extends PlainBlock m run where
  first : ∀ first ∈ run.head?, Text.indentation commentLine ≤ Text.indentation first
  later : ∀ first ∈ run.head?, ∀ line ∈ run, Text.indentation first ≤ Text.indentation line

/-- Opening minus closing braces of some lines. -/
def balance (run : List Text) : Int :=
  (run.flatten.count '\x7b' : Int) - run.flatten.count '\x7d'

/-- One of the lines has an opening brace. -/
def Opened (run : List Text) : Prop := ∃ line ∈ run, '\x7b' ∈ line

/-- A block that braces keep together, or what is left of it behind its first lines `before`. -/
structure BraceBlock (m : Markers) (before run : List Text) : Prop where
  code : ∀ line ∈ run, ¬ OpensComment m line
  nonneg : ∀ start, start <+: run → 0 ≤ balance (before ++ start)
  blank : ∀ start line, start ++ [line] <+: run → Text.isBlank line = true →
    Opened (before ++ start)
  /-- Only the whole run may close all that it has opened. -/
  unclosed : ∀ start, start <+: run → start ≠ run → Opened (before ++ start) →
    balance (before ++ start) ≠ 0

/-- **A block of lines after a comment**, to each strategy. -/
def Block (m : Markers) (commentLine : Text) : Strategy → List Text → Prop
  | .generic => PlainBlock m
  | .indentation => IndentedBlock m commentLine
  | .brace => BraceBlock m []

/-! ## Without blank lines -/

theorem opensComment_iff : OpensComment m line ↔ startsComment m (Text.trim line) = true := by
  have usable (o : Option Text) : (Markers.usable o).any (·.isPrefixOf (Text.trim line)) = true ↔
      ∃ marker, o = some marker ∧ marker ≠ [] ∧ marker <+: Text.trim line := by
    cases o with
    | none => simp [Markers.usable]
    | some marker =>
        cases marker with
        | nil => simp [Markers.usable, Option.filter]
        | cons c marker => simp [Markers.usable, Option.filter]
  rw [startsComment, Bool.or_eq_true, Markers.line?, usable, usable, OpensComment, ← exists_or]
  exact exists_congr fun marker => or_and_right

theorem isCode_iff : isCode m line = true ↔ ¬ OpensComment m line ∧ Text.isBlank line = false := by
  rw [opensComment_iff, ← Bool.not_eq_true (Text.isBlank line), Text.isBlank_iff_trim, isCode]
  simp [and_comm]

theorem plainBlock_iff : PlainBlock m run ↔ ∀ line ∈ run, isCode m line = true := by
  simp only [isCode_iff, forall_and]
  exact ⟨fun block => ⟨block.code, block.solid⟩, fun both => ⟨both.1, both.2⟩⟩

theorem indentedBlock_cons_iff : IndentedBlock m commentLine (first :: run) ↔
    Text.indentation commentLine ≤ Text.indentation first ∧ ∀ line ∈ first :: run,
      (isCode m line && decide (Text.indentation first ≤ Text.indentation line)) = true := by
  simp only [Bool.and_eq_true, decide_eq_true_eq, forall_and, ← plainBlock_iff]
  constructor
  · intro block
    exact ⟨block.first first rfl, block.toPlainBlock, block.later first rfl⟩
  · rintro ⟨deep, plain, later⟩
    refine ⟨plain, ?_, ?_⟩
    · rintro _ ⟨⟩
      exact deep
    · rintro _ ⟨⟩
      exact later

theorem indentedBlock_nil : IndentedBlock m commentLine [] := ⟨⟨by simp, by simp⟩, by simp, by simp⟩

theorem isLongest_genericRun (lines : List Text) :
    IsLongest (PlainBlock m) lines (genericRun m lines) :=
  (isLongest_takeWhile _ lines).congr fun _ _ => plainBlock_iff

theorem isLongest_indentationRun (lines : List Text) :
    IsLongest (IndentedBlock m commentLine) lines (indentationRun m commentLine lines) := by
  cases lines with
  | nil => exact isLongest_nil indentedBlock_nil
  | cons first rest =>
      rw [indentationRun]
      split
      · rename_i shallow
        refine isLongest_zero indentedBlock_nil fun run block => ?_
        exact absurd (indentedBlock_cons_iff.mp block).1 (by omega)
      · rename_i deep
        refine (isLongest_takeWhile _ (first :: rest)).congr fun run initial => ?_
        cases run with
        | nil => simp [indentedBlock_nil]
        | cons first' run =>
            obtain ⟨rfl, -⟩ := List.cons_prefix_cons.mp initial
            rw [indentedBlock_cons_iff, and_iff_right (by omega)]

/-! ## Braces -/

theorem balance_concat (before : List Text) (line : Text) :
    balance (before ++ [line]) = balance before + braceBalance line := by
  simp only [balance, braceBalance, List.flatten_append, List.count_append, List.flatten_cons,
    List.flatten_nil, List.append_nil]
  omega

theorem opened_concat_iff : Opened (before ++ [line]) ↔ Opened before ∨ '\x7b' ∈ line := by
  simp [Opened, or_and_right, exists_or]

theorem BraceBlock.balance_nonneg (block : BraceBlock m before run) : 0 ≤ balance before := by
  simpa using block.nonneg [] List.nil_prefix

theorem braceBlock_nil (nonneg : 0 ≤ balance before) : BraceBlock m before [] := by
  refine ⟨by simp, fun start initial => ?_, by simp, fun start initial more => ?_⟩
  · rwa [List.prefix_nil.mp initial, List.append_nil]
  · exact absurd (List.prefix_nil.mp initial) more

/-- What is asked of one more line in a block of braces. -/
structure MayFollow (m : Markers) (before : List Text) (line : Text) : Prop where
  code : ¬ OpensComment m line
  nonneg : 0 ≤ balance before
  blank : Text.isBlank line = true → Opened before
  unclosed : Opened before → balance before ≠ 0

/-- **One line of a block of braces** is asked for itself, and then the rest behind it. -/
theorem braceBlock_cons_iff : BraceBlock m before (line :: run) ↔
    MayFollow m before line ∧ BraceBlock m (before ++ [line]) run := by
  have shift (start : List Text) : before ++ line :: start = before ++ [line] ++ start := by simp
  constructor
  · rintro ⟨code, nonneg, blank, unclosed⟩
    refine ⟨⟨code line List.mem_cons_self, ?_, ?_, ?_⟩, ?_, ?_, ?_, ?_⟩
    · simpa using nonneg [] List.nil_prefix
    · simpa using blank [] line (by simp)
    · simpa using unclosed [] List.nil_prefix (by simp)
    · exact fun other later => code other (List.mem_cons_of_mem _ later)
    · intro start initial
      rw [← shift]
      exact nonneg _ (List.cons_prefix_cons.mpr ⟨rfl, initial⟩)
    · intro start other initial
      rw [← shift]
      exact blank (line :: start) other (List.cons_prefix_cons.mpr ⟨rfl, initial⟩)
    · intro start initial more
      rw [← shift]
      exact unclosed _ (List.cons_prefix_cons.mpr ⟨rfl, initial⟩) (by simpa using more)
  · rintro ⟨here, code, nonneg, blank, unclosed⟩
    refine ⟨List.forall_mem_cons.mpr ⟨here.code, code⟩, ?_, ?_, ?_⟩
    · intro start initial
      cases start with
      | nil => simpa using here.nonneg
      | cons first start =>
          obtain ⟨rfl, later⟩ := List.cons_prefix_cons.mp initial
          rw [shift]
          exact nonneg start later
    · intro start other initial
      cases start with
      | nil =>
          obtain ⟨rfl, -⟩ := List.cons_prefix_cons.mp initial
          simpa using here.blank
      | cons first start =>
          obtain ⟨rfl, later⟩ := List.cons_prefix_cons.mp initial
          rw [shift]
          exact blank start other later
    · intro start initial more
      cases start with
      | nil => simpa using here.unclosed
      | cons first start =>
          obtain ⟨rfl, later⟩ := List.cons_prefix_cons.mp initial
          rw [shift]
          exact unclosed start later (by simpa using more)

/-- A block ends where all that has been opened is closed. -/
theorem isLongest_closed (opened : Opened before) (closed : balance before = 0)
    (lines : List Text) : IsLongest (BraceBlock m before) lines 0 := by
  have start := braceBlock_nil (m := m) (Int.le_of_eq closed.symm)
  cases lines with
  | nil => exact isLongest_nil start
  | cons line rest =>
      refine isLongest_zero start fun run block => ?_
      exact (braceBlock_cons_iff.mp block).1.unclosed opened closed

/-- **The run of braces is the longest block** behind lines after which a block can go on. -/
theorem isLongest_braceRun {started : Bool} (opened : started = true ↔ Opened before)
    (nonneg : 0 ≤ balance before) (unclosed : Opened before → balance before ≠ 0)
    (lines : List Text) :
    IsLongest (BraceBlock m before) lines (braceRun m (balance before) started lines) := by
  induction lines generalizing before started with
  | nil => exact isLongest_nil (braceBlock_nil nonneg)
  | cons line rest ih =>
      have opened' : (started || line.contains '\x7b') = true ↔ Opened (before ++ [line]) := by
        rw [opened_concat_iff, Bool.or_eq_true, opened, List.contains_iff_mem]
      have left (stops : ∀ run, ¬ BraceBlock m before (line :: run)) :
          IsLongest (BraceBlock m before) (line :: rest) 0 :=
        isLongest_zero (braceBlock_nil nonneg) stops
      simp only [braceRun, ← balance_concat]
      split
      · rename_i comment
        exact left fun run block =>
          (braceBlock_cons_iff.mp block).1.code (opensComment_iff.mpr comment)
      rename_i code
      split
      · rename_i blank
        rw [Bool.and_eq_true, Bool.not_eq_true'] at blank
        refine left fun run block => ?_
        have some_ := opened.mpr ((braceBlock_cons_iff.mp block).1.blank blank.1)
        rw [blank.2] at some_
        cases some_
      rename_i solid
      split
      · rename_i less
        refine left fun run block => ?_
        have enough := (braceBlock_cons_iff.mp block).2.balance_nonneg
        omega
      rename_i enough
      -- The line is in the run, and what comes after it is the longest block behind it.
      have here : MayFollow m before line := by
        refine ⟨fun comment => code (opensComment_iff.mp comment), nonneg, fun blank => ?_, unclosed⟩
        rw [← opened]
        by_contra none_
        exact solid (by simp [blank, none_])
      have same (run : List Text) :
          BraceBlock m before (line :: run) ↔ BraceBlock m (before ++ [line]) run := by
        rw [braceBlock_cons_iff, and_iff_right here]
      split
      · rename_i closed
        rw [Bool.and_eq_true, beq_iff_eq] at closed
        exact (isLongest_closed (opened'.mp closed.1) closed.2 rest).cons same
      · rename_i more
        rw [Bool.and_eq_true, beq_iff_eq, not_and, opened'] at more
        rw [Nat.add_comm]
        exact (ih opened' (by omega) more).cons same

/-! ## Captures -/

theorem isLongest_captured (s : Strategy) (commentLine : Text) (after : List Text) :
    IsLongest (Block m commentLine s) after (captured s m commentLine after) := by
  cases s with
  | generic => exact isLongest_genericRun after
  | indentation => exact isLongest_indentationRun after
  | brace =>
      have unopened : ¬ Opened [] := by simp [Opened]
      have run : IsLongest (BraceBlock m []) after (braceRun m (balance []) false after) :=
        isLongest_braceRun (by simpa using unopened) (by simp [balance])
          (fun opened => absurd opened unopened) after
      exact run

theorem lineAt_natCast {lines : List Text} {i : Nat} (there : i < lines.length) :
    lineAt lines i = .ok lines[i] := by
  have found : lines[(i : Int).toNat]? = some lines[i] := by simp [there]
  rw [lineAt, if_neg (by omega), found]
  exact if_neg (by omega)

theorem linesFrom_natCast (lines : List Text) (i : Nat) :
    linesFrom lines (i + 1 : Nat) = .ok (lines.drop (i + 1)) := by
  rw [linesFrom, if_neg (by omega), if_neg (by omega), Int.toNat_natCast]

/-- **Captured are the lines of the longest block right behind the comment**, by their positions. -/
theorem capturedAt_isLongest (s : Strategy) (m : Markers) (lines : List Text) (i : Nat)
    (there : i < lines.length) :
    ∃ n, capturedAt s m lines i = .ok ((List.range n).map fun k => (i : Int) + 1 + (k : Nat)) ∧
      IsLongest (Block m lines[i] s) (lines.drop (i + 1)) n := by
  refine ⟨captured s m lines[i] (lines.drop (i + 1)), ?_, isLongest_captured s _ _⟩
  have after : linesFrom lines ((i : Int) + 1) = .ok (lines.drop (i + 1)) :=
    linesFrom_natCast lines i
  -- Only for its indentation the line of the comment is looked at.
  cases s with
  | indentation =>
      rw [capturedAt, if_pos rfl, lineAt_natCast there, after]
      rfl
  | generic =>
      rw [capturedAt, if_neg (by decide), after]
      rfl
  | brace =>
      rw [capturedAt, if_neg (by decide), after]
      rfl

/-- A comment before a branch with a blank line in its body, and what comes after it. -/
def branching : List Text :=
  ["// @group x", "if (a) \x7b", "", "  b();", "\x7d else \x7b", "\x7d", "c();"]

/-- Both arms are captured, up to the line that closes the second. -/
theorem capturedAt_isLongest_branching :
    0 < branching.length ∧
      capturedAt .brace { line := some "//" } branching 0 = .ok [1, 2, 3, 4, 5] ∧
      IsLongest (BraceBlock { line := some "//" } []) (branching.drop 1) 5 := by
  have there : 0 < branching.length := by decide
  have lines : capturedAt .brace { line := some "//" } branching 0 = .ok [1, 2, 3, 4, 5] := by cbv
  obtain ⟨n, found, longest⟩ := capturedAt_isLongest .brace { line := some "//" } branching 0 there
  have count := congrArg List.length (Except.ok.inj (lines.symm.trans found))
  obtain rfl : 5 = n := by simpa using count
  exact ⟨there, lines, longest⟩

end CodeAtlas.Scan
