/-
# Proofs.LineRanges.Blocks -- what a list of lines says when it has been written

Among the lines of a list every number is in one block of neighbours, which begins where the number
below is missing (`BlockStart`).  These blocks are the runs that are written
(`blockStart_of_mem_runs`), and a run is read back unless it begins below zero; so what is read back
are the blocks that begin with a natural number (`mem_decode_encode`).

The text of a run tells its two ends, although `-` is also a sign: behind a sign, if there is one,
the first `-` ends the first number (`showRun_injective`).  So a text of lines tells the runs, and
two lists have the same text exactly if they have the same members (`encode_eq_encode_iff`).
-/
import Mathlib
import CodeAtlas.Proofs.LineRanges

namespace CodeAtlas.LineRanges

set_option autoImplicit false

variable {lines others : List Int} {n start : Int}

/-! ## Blocks -/

/-- **The block of neighbouring lines around `n` begins at `start`**: all numbers from there to `n`
are lines, and the number below is none. -/
structure BlockStart (lines : List Int) (n start : Int) : Prop where
  le : start ≤ n
  filled : ∀ k, start ≤ k → k ≤ n → k ∈ lines
  missing : start - 1 ∉ lines

theorem BlockStart.mem (block : BlockStart lines n start) : n ∈ lines :=
  block.filled n block.le le_rfl

/-- A block has one beginning. -/
theorem BlockStart.unique {start' : Int} (block : BlockStart lines n start)
    (block' : BlockStart lines n start') : start = start' := by
  have le := block.le
  have le' := block'.le
  rcases lt_trichotomy start start' with less | same | less
  · exact absurd (block.filled _ (by omega) (by omega)) block'.missing
  · exact same
  · exact absurd (block'.filled _ (by omega) (by omega)) block.missing

/-- The blocks are the runs. -/
theorem blockStart_of_mem_runs {r : Int × Int} (member : r ∈ runs (ascending lines))
    (above : r.1 ≤ n) (below : n ≤ r.2) : BlockStart lines n r.1 := by
  refine ⟨above, fun k low high => ?_, fun before => ?_⟩
  · exact mem_ascending.mp (mem_iff_exists_run.mpr ⟨r, member, low, high.trans below⟩)
  · have begins := (exists_mem_runs_iff (pairwise_ascending lines)).mp ⟨r, member, rfl⟩
    exact begins.2 (mem_ascending.mpr before)

/-- **Every line is in one block.** -/
theorem existsUnique_blockStart (member : n ∈ lines) : ∃! start, BlockStart lines n start := by
  obtain ⟨r, run, above, below⟩ := mem_iff_exists_run.mp (mem_ascending.mpr member)
  have block := blockStart_of_mem_runs run above below
  exact ⟨r.1, block, fun start block' => block'.unique block⟩

/-! ## The text of a run -/

/-- The last number of a run, if it is written, with a dash in front. -/
def behind (last : Option Int) : Text := last.elim [] fun n => '-' :: Number.showInt n

theorem showRun_eq (r : Int × Int) :
    showRun r = Number.showInt r.1 ++ behind (if r.1 = r.2 then none else some r.2) := by
  rw [showRun]
  by_cases single : r.1 = r.2 <;> simp [single, behind]

theorem showRun_ne_nil (r : Int × Int) : showRun r ≠ [] := by
  have some_ : Number.showInt r.1 ≠ [] := by
    cases r.1 with
    | ofNat n => exact Number.showNat_ne_nil n
    | negSucc n => exact List.cons_ne_nil _ _
  rw [showRun_eq]
  exact List.append_ne_nil_of_left_ne_nil some_ _

/-- The first dash behind a natural number ends it. -/
theorem cut_showNat_append (n : Nat) (last : Option Int) :
    Text.cut '-' (Number.showNat n ++ behind last) = (Number.showNat n, last.map Number.showInt) := by
  have dash : '-' ∉ Number.showNat n := Number.not_mem_showNat (by decide) n
  cases last with
  | none => rw [behind, Option.elim_none, List.append_nil, Text.cut_of_not_mem dash, Option.map_none]
  | some m => exact Text.cut_append dash _

theorem showNat_append_behind_inj {m n : Nat} {last last' : Option Int}
    (same : Number.showNat m ++ behind last = Number.showNat n ++ behind last') :
    m = n ∧ last.map Number.showInt = last'.map Number.showInt := by
  have cuts := congrArg (Text.cut '-') same
  rw [cut_showNat_append, cut_showNat_append, Prod.mk.injEq] at cuts
  exact cuts.imp_left fun digits => Number.showNat_injective digits

theorem showInt_append_behind_inj {a b : Int} {last last' : Option Int}
    (same : Number.showInt a ++ behind last = Number.showInt b ++ behind last') :
    a = b ∧ last.map Number.showInt = last'.map Number.showInt := by
  -- A natural number begins with a digit, so the two signs are the same.
  have digit (n : Nat) (s t : Text) : Number.showNat n ++ s ≠ '-' :: t := fun same => by
    obtain ⟨c, digits, shown⟩ := List.exists_cons_of_ne_nil (Number.showNat_ne_nil n)
    rw [shown, List.cons_append] at same
    have first : '-' ∈ Number.showNat n := by
      rw [shown, (List.cons.inj same).1]
      exact List.mem_cons_self
    exact Number.not_mem_showNat (by decide) n first
  cases a with
  | ofNat m => cases b with
    | ofNat n =>
        obtain ⟨rfl, ends⟩ := showNat_append_behind_inj same
        exact ⟨rfl, ends⟩
    | negSucc n => exact absurd same (digit _ _ _)
  | negSucc m => cases b with
    | ofNat n => exact absurd same.symm (digit _ _ _)
    | negSucc n =>
        obtain ⟨succ, ends⟩ := showNat_append_behind_inj (List.cons.inj same).2
        obtain rfl := Nat.succ.inj succ
        exact ⟨rfl, ends⟩

theorem showInt_injective : Function.Injective Number.showInt := by
  intro a b same
  have bare : Number.showInt a ++ behind none = Number.showInt b ++ behind none := by rw [same]
  exact (showInt_append_behind_inj bare).1

/-- **The text of a run tells its ends.** -/
theorem showRun_injective : Function.Injective showRun := by
  intro r r' same
  rw [showRun_eq, showRun_eq] at same
  obtain ⟨first, last⟩ := showInt_append_behind_inj same
  have last := Option.map_injective showInt_injective last
  refine Prod.ext first ?_
  split_ifs at last with single single'
  · rw [← single, ← single', first]
  · exact Option.some.inj last

/-! ## Lists with the same text -/

/-- The text depends on nothing but the set of the lines. -/
theorem encode_congr (same : ∀ n, n ∈ lines ↔ n ∈ others) : encode lines = encode others := by
  have sets : lines.toFinset = others.toFinset := Finset.ext fun n => by simpa using same n
  rw [encode, encode, ascending_eq_sorted, ascending_eq_sorted, sorted, sorted, sets]

theorem mem_sorted : n ∈ sorted lines ↔ n ∈ lines := by rw [← ascending_eq_sorted, mem_ascending]

theorem encode_sorted (lines : List Int) : encode (sorted lines) = encode lines :=
  encode_congr fun _ => mem_sorted

/-- **Lists have the same text exactly if they have the same members.** -/
theorem encode_eq_encode_iff : encode lines = encode others ↔ ∀ n, n ∈ lines ↔ n ∈ others := by
  refine ⟨fun same => ?_, encode_congr⟩
  have solid (rs : List (Int × Int)) : ∀ piece ∈ rs.map showRun, piece ≠ [] ∧ ',' ∉ piece := by
    intro piece member
    obtain ⟨r, -, rfl⟩ := List.mem_map.mp member
    exact ⟨showRun_ne_nil r, comma_not_mem_showRun r⟩
  have texts := Text.join_inj (solid _) (solid _) same
  have cuts := List.map_injective_iff.mpr showRun_injective texts
  intro n
  calc n ∈ lines
      ↔ n ∈ ascending lines := mem_ascending.symm
    _ ↔ n ∈ ascending others := by rw [mem_iff_exists_run, mem_iff_exists_run, cuts]
    _ ↔ n ∈ others := mem_ascending

/-! ## Reading what has been written -/

section Brief

variable (brief : ∀ n ∈ lines, Brief n)

include brief

theorem decode_encode_eq_flatMap : decode (encode lines) =
    ((runs (ascending lines)).filter fun r => decide (0 ≤ r.1)).flatMap fun r => span r.1 r.2 := by
  rw [decode, ranges_encode_eq_filter brief]

theorem pairwise_decode_encode : (decode (encode lines)).Pairwise (· < ·) := by
  have whole := pairwise_ascending lines
  rw [← flatMap_span_runs (ascending lines)] at whole
  rw [decode_encode_eq_flatMap brief]
  exact whole.sublist (List.filter_sublist.flatMap _)

/-- **The lines that are read back are those of the blocks that begin with a natural number.** -/
theorem mem_decode_encode :
    n ∈ decode (encode lines) ↔ ∃ start, 0 ≤ start ∧ BlockStart lines n start := by
  simp only [decode_encode_eq_flatMap brief, List.mem_flatMap, List.mem_filter, decide_eq_true_eq,
    mem_span]
  constructor
  · rintro ⟨r, ⟨member, nonneg⟩, above, below⟩
    exact ⟨r.1, nonneg, blockStart_of_mem_runs member above below⟩
  · rintro ⟨start, nonneg, block⟩
    obtain ⟨r, member, above, below⟩ := mem_iff_exists_run.mp (mem_ascending.mpr block.mem)
    obtain rfl := block.unique (blockStart_of_mem_runs member above below)
    exact ⟨r, ⟨member, nonneg⟩, above, below⟩

theorem decode_encode_of_nonneg (nonneg : ∀ n ∈ lines, 0 ≤ n) :
    decode (encode lines) = sorted lines := by
  rw [← ascending_eq_sorted, decode_encode fun n member =>
    readable_iff.mpr ⟨nonneg n member, brief n member⟩]

end Brief

/-- **What is read back of the lines that have been written.** -/
structure ReadsBlocks (lines : List Int) : Prop where
  /-- They are in ascending order, each once. -/
  ascending : (decode (encode lines)).Pairwise (· < ·)
  /-- The members of the blocks that begin with a natural number are there, and no others. -/
  members : ∀ n, n ∈ decode (encode lines) ↔
    n ∈ lines ∧ ∃ start, BlockStart lines n start ∧ 0 ≤ start
  blocks : ∀ n ∈ lines, ∃! start, BlockStart lines n start
  /-- Without negative lines these are all lines, and they have the same text again. -/
  nonneg : (∀ n ∈ lines, 0 ≤ n) →
    decode (encode lines) = sorted lines ∧ encode (decode (encode lines)) = encode lines
  /-- They can be listed, unless too many lines in a row leave no room. -/
  room : Roomy lines → read (encode lines) = .ok (decode (encode lines))

/-- **The text of a list of lines** gives back the blocks that begin with a natural number, and tells
the list from every list with other members. -/
theorem readsBlocks_encode (lines others : List Int) (brief : ∀ n ∈ lines, Brief n) :
    ReadsBlocks lines ∧ (encode lines = encode others ↔ ∀ n, n ∈ lines ↔ n ∈ others) := by
  refine ⟨⟨pairwise_decode_encode brief, fun n => ?_, fun n => existsUnique_blockStart, ?_,
    read_encode_of_roomy brief⟩, encode_eq_encode_iff⟩
  · rw [mem_decode_encode brief]
    constructor
    · rintro ⟨start, nonneg, block⟩
      exact ⟨block.mem, start, block, nonneg⟩
    · rintro ⟨-, start, block, nonneg⟩
      exact ⟨start, nonneg, block⟩
  · intro nonneg
    rw [decode_encode_of_nonneg brief nonneg]
    exact ⟨rfl, encode_sorted lines⟩

/-- A block from below zero is lost, the others are not; and the text tells `-1` to `1` from `-1`
and `1`. -/
theorem readsBlocks_encode_straddling :
    (∀ n ∈ [4, -1, 0, 3, 1, 7, 4], Brief n) ∧ ReadsBlocks [4, -1, 0, 3, 1, 7, 4] ∧
      decode (encode [4, -1, 0, 3, 1, 7, 4]) = [3, 4, 7] ∧
      encode [4, -1, 0, 3, 1, 7, 4] ≠ encode [4, -1, 3, 1, 7] := by
  have brief : ∀ n ∈ [4, -1, 0, 3, 1, 7, 4], Brief n := by decide +kernel
  obtain ⟨blocks, tells⟩ := readsBlocks_encode [4, -1, 0, 3, 1, 7, 4] [4, -1, 3, 1, 7] brief
  refine ⟨brief, blocks, by cbv, fun same => ?_⟩
  exact absurd (tells.mp same 0) (by decide)

end CodeAtlas.LineRanges
