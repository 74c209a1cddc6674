/-
# Proofs.LineRanges -- the compact text of a set of lines

`ascending` puts the distinct members of a list in ascending order (`pairwise_ascending`,
`mem_ascending`), and cutting such a list into runs loses nothing: the spans of the runs are the
list (`flatMap_span_runs`).  A run of natural numbers is read back from its text (`ends?_showRun`),
one that begins below zero is dropped (`ends?_showRun_of_neg`), and the comma belongs to no run, so
the text of a list of lines means the runs that begin with a natural number
(`ranges_encode_eq_filter`).  Without negative lines that is the whole ascending list
(`decode_encode`); with them something is left exactly if a natural number has no neighbour below it
(`decode_encode_ne_nil_iff`).  `read` finds room for what is left when not too many of the lines are
in a row (`read_encode_of_roomy`), as when there was room for the lines themselves (`read_encode`).

What a text means can be written and read again: no line is too long (`brief_of_mem_decode`).
-/
import Mathlib.Data.Finset.Sort
import CodeAtlas.LineRanges
import CodeAtlas.Proofs.Number.Integer
import CodeAtlas.Proofs.Run

namespace CodeAtlas.LineRanges

set_option autoImplicit false

/-! ## The ascending list -/

theorem mem_dropRepeats {l : List Int} {a : Int} : a ∈ dropRepeats l ↔ a ∈ l := by
  induction l using dropRepeats.induct with
  | case1 => simp [dropRepeats]
  | case2 b => simp [dropRepeats]
  | case3 b c rest same ih =>
      rw [beq_iff_eq] at same
      subst same
      rw [dropRepeats, if_pos (by simp), ih]
      simp
  | case4 b c rest other ih =>
      rw [dropRepeats, if_neg other, List.mem_cons, ih, List.mem_cons (a := a) (b := b)]

theorem pairwise_dropRepeats {l : List Int} (ordered : l.Pairwise (· ≤ ·)) :
    (dropRepeats l).Pairwise (· < ·) := by
  induction l using dropRepeats.induct with
  | case1 => simp [dropRepeats]
  | case2 b => simp [dropRepeats]
  | case3 b c rest same ih =>
      rw [dropRepeats, if_pos same]
      exact ih ordered.of_cons
  | case4 b c rest other ih =>
      rw [dropRepeats, if_neg other]
      have next : b < c := by
        have le := List.rel_of_pairwise_cons ordered (List.mem_cons_self (a := c))
        have ne : b ≠ c := by simpa using other
        omega
      refine List.Pairwise.cons (fun d member => ?_) (ih ordered.of_cons)
      rw [mem_dropRepeats, List.mem_cons] at member
      rcases member with rfl | later
      · exact next
      · exact lt_of_lt_of_le next (List.rel_of_pairwise_cons ordered.of_cons later)

theorem mem_ascending {lines : List Int} {a : Int} : a ∈ ascending lines ↔ a ∈ lines := by
  rw [ascending, mem_dropRepeats]
  exact (List.mergeSort_perm lines _).mem_iff

theorem pairwise_ascending (lines : List Int) : (ascending lines).Pairwise (· < ·) := by
  refine pairwise_dropRepeats ?_
  have ordered := @List.pairwise_mergeSort _ (fun a b : Int => decide (a ≤ b))
    (fun a b c ab bc => by simp at *; omega) (fun a b => by simp; omega) lines
  exact ordered.imp fun le => by simpa using le

/-- The set of the lines, sorted. -/
def sorted (lines : List Int) : List Int := lines.toFinset.sort

/-- The ascending list is the set of the lines, sorted. -/
theorem ascending_eq_sorted (lines : List Int) : ascending lines = sorted lines := by
  have strict := pairwise_ascending lines
  have strict' : (sorted lines).Pairwise (· < ·) := (Finset.sortedLT_sort _).pairwise
  have perm : (ascending lines).Perm (sorted lines) :=
    (List.perm_ext_iff_of_nodup (strict.imp fun less => less.ne)
      (strict'.imp fun less => less.ne)).mpr fun n => by
        rw [mem_ascending, sorted, Finset.mem_sort, List.mem_toFinset]
  exact perm.eq_of_pairwise (fun a b _ _ less less' => absurd less less'.asymm) strict strict'

/-! ## Runs -/

theorem span_self (a : Int) : span a a = [a] := by
  have one : (a + 1 - a).toNat = 1 := by omega
  rw [span, one]
  simp

theorem span_eq_cons {a b : Int} (le : a ≤ b) : span a b = a :: span (a + 1) b := by
  have count : (b + 1 - a).toNat = (b + 1 - (a + 1)).toNat + 1 := by omega
  rw [span, count, List.range_succ_eq_map, List.map_cons, List.map_map, span]
  congr 1
  · simp
  · refine List.map_congr_left fun i _ => ?_
    simp only [Function.comp_apply]
    omega

theorem pairwise_span (a b : Int) : (span a b).Pairwise (· < ·) := by
  rw [span, List.pairwise_map]
  exact List.pairwise_lt_range.imp fun less => by omega

/-- A span is ascending already. -/
theorem sorted_span (a b : Int) : sorted (span a b) = span a b := by
  have strict := pairwise_span a b
  have nodup : (span a b).Nodup := strict.imp fun less => less.ne
  exact (List.toFinset_sort _ nodup).mpr (strict.imp fun less => less.le)

theorem mem_span {a b n : Int} : n ∈ span a b ↔ a ≤ n ∧ n ≤ b := by
  simp only [span, List.mem_map, List.mem_range]
  constructor
  · rintro ⟨i, small, rfl⟩
    omega
  · rintro ⟨above, below⟩
    exact ⟨(n - a).toNat, by omega, by omega⟩

theorem length_span (a b : Int) : (span a b).length = (b + 1 - a).toNat := by simp [span]

/-- What a run has to be: its first number is no greater than its last, and both are lines. -/
structure IsRun (l : List Int) (r : Int × Int) : Prop where
  le : r.1 ≤ r.2
  first : r.1 ∈ l
  last : r.2 ∈ l

theorem isRun_of_mem_runs {l : List Int} : ∀ r ∈ runs l, IsRun l r := by
  induction l with
  | nil => simp [runs]
  | cons a rest ih =>
      intro r member
      have older : ∀ r ∈ runs rest, IsRun (a :: rest) r := fun r member =>
        ⟨(ih r member).le, List.mem_cons_of_mem _ (ih r member).first,
          List.mem_cons_of_mem _ (ih r member).last⟩
      have single : IsRun (a :: rest) (a, a) :=
        ⟨le_rfl, List.mem_cons_self, List.mem_cons_self⟩
      rw [runs] at member
      split at member
      · rw [List.mem_singleton] at member
        exact member ▸ single
      · rename_i first last others cut
        have next := older (first, last) (by simp [cut])
        split at member
        · rename_i neighbours
          rw [beq_iff_eq] at neighbours
          rcases List.mem_cons.mp member with rfl | later
          · exact ⟨by have := next.le; simp only at *; omega, List.mem_cons_self, next.last⟩
          · exact older r (by simp [cut, later])
        · rcases List.mem_cons.mp member with rfl | later
          · exact single
          · exact older r (by simpa [cut] using later)

/-- **Cutting a list into runs loses nothing.** -/
theorem flatMap_span_runs (l : List Int) : ((runs l).flatMap fun r => span r.1 r.2) = l := by
  induction l with
  | nil => rfl
  | cons a rest ih =>
      rw [runs]
      split
      · rename_i cut
        rw [cut, List.flatMap_nil] at ih
        rw [← ih, List.flatMap_singleton, span_self]
      · rename_i first last others cut
        rw [cut, List.flatMap_cons] at ih
        have next : first ≤ last := (isRun_of_mem_runs (l := rest) (first, last) (by simp [cut])).le
        split
        · rename_i neighbours
          rw [beq_iff_eq] at neighbours
          subst neighbours
          rw [List.flatMap_cons, span_eq_cons (by omega), List.cons_append, ih]
        · rw [List.flatMap_cons, span_self, List.flatMap_cons, ih, List.singleton_append]

/-- **Runs are as long as they can be**: there is a gap between one and the next. -/
theorem pairwise_runs {l : List Int} (ascending : l.Pairwise (· < ·)) :
    (runs l).Pairwise fun r r' => r.2 + 1 < r'.1 := by
  induction l with
  | nil => exact .nil
  | cons a rest ih =>
      have later := ih ascending.of_cons
      have above : ∀ r ∈ runs rest, a < r.1 := fun r member =>
        List.rel_of_pairwise_cons ascending (isRun_of_mem_runs r member).first
      rw [runs]
      split
      · exact List.pairwise_singleton _ _
      · rename_i first last others cut
        rw [cut] at later above
        split
        · exact .cons (fun r member => List.rel_of_pairwise_cons later member) later.of_cons
        · rename_i apart
          have next : a < first := above (first, last) List.mem_cons_self
          have gap : a + 1 < first := by
            have other : first ≠ a + 1 := by simpa using apart
            omega
          have run : first ≤ last :=
            (isRun_of_mem_runs (l := rest) (first, last) (by simp [cut])).le
          refine .cons (fun r member => ?_) later
          rcases List.mem_cons.mp member with rfl | beyond
          · exact gap
          · have := List.rel_of_pairwise_cons later beyond
            simp only at this ⊢
            omega

theorem mem_iff_exists_run {l : List Int} {n : Int} :
    n ∈ l ↔ ∃ r ∈ runs l, r.1 ≤ n ∧ n ≤ r.2 := by
  conv_lhs => rw [← flatMap_span_runs l]
  simp only [List.mem_flatMap, mem_span]

/-- **A run begins where the number below is missing.** -/
theorem exists_mem_runs_iff {l : List Int} (ascending : l.Pairwise (· < ·)) {n : Int} :
    (∃ r ∈ runs l, r.1 = n) ↔ n ∈ l ∧ n - 1 ∉ l := by
  constructor
  · rintro ⟨r, member, rfl⟩
    refine ⟨(isRun_of_mem_runs r member).first, fun below => ?_⟩
    obtain ⟨r', member', le, le'⟩ := mem_iff_exists_run.mp below
    have le_ := (isRun_of_mem_runs r member).le
    have apart : (runs l).Pairwise fun r r' => r.2 + 1 < r'.1 ∨ r'.2 + 1 < r.1 :=
      (pairwise_runs ascending).imp .inl
    have : Std.Symm fun r r' : Int × Int => r.2 + 1 < r'.1 ∨ r'.2 + 1 < r.1 :=
      ⟨fun _ _ => Or.symm⟩
    have other : r ≠ r' := by
      rintro rfl
      omega
    rcases apart.forall member member' other with gap | gap <;> omega
  · rintro ⟨inside, missing⟩
    obtain ⟨r, member, le, le'⟩ := mem_iff_exists_run.mp inside
    refine ⟨r, member, le.antisymm ?_⟩
    by_contra less
    exact missing (mem_iff_exists_run.mpr ⟨r, member, by omega, by omega⟩)

/-! ## The text of a run -/

/-- A line number that can be written and read: not negative, and not too long. -/
def Readable (n : Int) : Prop :=
  0 ≤ n ∧ (Number.showInt n).length ≤ Number.maxDigits

instance (n : Int) : Decidable (Readable n) := inferInstanceAs (Decidable (_ ∧ _))

theorem Readable.exists_nat {n : Int} (readable : Readable n) :
    ∃ k : Nat, n = k ∧ (Number.showNat k).length ≤ Number.maxDigits := by
  obtain ⟨nonneg, short⟩ := readable
  obtain ⟨k, rfl⟩ := Int.eq_ofNat_of_zero_le nonneg
  exact ⟨k, rfl, short⟩

/-- A line for which there is room can be written and read. -/
theorem readable_of_lt {n : Int} (nonneg : 0 ≤ n) (small : n < roomLimit) : Readable n := by
  obtain ⟨k, rfl⟩ := Int.eq_ofNat_of_zero_le nonneg
  refine ⟨nonneg, ?_⟩
  have fits : (Number.showNat k).length ≤ 10 := by
    rw [Number.showNat, Nat.length_toDigits_le_iff (by decide) (by decide)]
    have limit : roomLimit < 10 ^ 10 := by decide
    omega
  exact fits.trans (by decide)

/-- **A run is read back from its text.** -/
theorem ends?_showRun {r : Int × Int} (first : Readable r.1) (last : Readable r.2) :
    ends? (showRun r) = some r := by
  obtain ⟨low, high⟩ := r
  obtain ⟨low, rfl, shortLow⟩ := first.exists_nat
  obtain ⟨high, rfl, shortHigh⟩ := last.exists_nat
  have dash : ∀ n, '-' ∉ Number.showNat n := Number.not_mem_showNat (by decide)
  rw [showRun]
  split
  · rename_i single
    have same : (low : Int) = high := by simpa using single
    obtain rfl : low = high := by omega
    change ends? (Number.showNat low) = _
    rw [ends?, Text.trim_of_trimmed (Number.trimmed_showNat low), Text.cut_of_not_mem (dash low)]
    simp only [Number.readInt?_showNat shortLow, Option.map_some]
  · change ends? (Number.showNat low ++ '-' :: Number.showNat high) = _
    have trimmed : Text.Trimmed (Number.showNat low ++ '-' :: Number.showNat high) := by
      have := Text.trimmed_append (Number.trimmed_showNat low) (Number.trimmed_showNat high)
        (Number.showNat_ne_nil low) (Number.showNat_ne_nil high) ['-']
      simpa using this
    rw [ends?, Text.trim_of_trimmed trimmed, Text.cut_append (dash low)]
    simp only [Number.readInt?_showNat shortLow, Number.readInt?_showNat shortHigh]

/-- A number that is not too long to be read. -/
def Brief (n : Int) : Prop := (Number.showNat n.natAbs).length ≤ Number.maxDigits

instance (n : Int) : Decidable (Brief n) := inferInstanceAs (Decidable (_ ≤ _))

theorem readable_iff {n : Int} : Readable n ↔ 0 ≤ n ∧ Brief n := by
  refine and_congr_right fun nonneg => ?_
  obtain ⟨k, rfl⟩ := Int.eq_ofNat_of_zero_le nonneg
  rfl

/-- The first `-` of its text divides a run, and in front of it there is no number. -/
theorem ends?_showRun_of_neg {r : Int × Int} (negative : r.1 < 0) : ends? (showRun r) = none := by
  obtain ⟨first, last⟩ := r
  obtain ⟨k, rfl⟩ := Int.eq_negSucc_of_lt_zero negative
  obtain ⟨rest, shown⟩ : ∃ rest, showRun (Int.negSucc k, last) = '-' :: rest := by
    rw [showRun]
    split <;> exact ⟨_, rfl⟩
  have trimmed : Text.trim ('-' :: rest) = '-' :: Text.trimRight rest := by
    rw [Text.trim, Text.trimLeft, List.dropWhile_cons_of_neg (by decide), Text.trimRight_cons rfl]
  have low : Number.readInt? [] = none := by decide
  rw [shown, ends?, trimmed, Text.cut]
  simp [low]

theorem comma_not_mem_showRun (r : Int × Int) : ',' ∉ showRun r := by
  have comma : ∀ n, ',' ∉ Number.showInt n := fun n => by
    have digits : ∀ n, ',' ∉ Number.showNat n := Number.not_mem_showNat (by decide)
    cases n with
    | ofNat n => exact digits n
    | negSucc n => simp [Number.showInt, digits]
  rw [showRun]
  split
  · exact comma r.1
  · simp [comma]

/-! ## The text of a list of lines -/

section Encode

variable {lines : List Int}

/-- **The ranges of the text** are the runs that begin with a natural number. -/
theorem ranges_encode_eq_filter (brief : ∀ n ∈ lines, Brief n) :
    ranges (encode lines) = (runs (ascending lines)).filter fun r => decide (0 ≤ r.1) := by
  have back : ∀ r ∈ runs (ascending lines),
      (ends? ∘ showRun) r = Option.guard (fun r => decide (0 ≤ r.1)) r := by
    intro r member
    have run := isRun_of_mem_runs r member
    rw [Function.comp_apply]
    by_cases nonneg : 0 ≤ r.1
    · have first := readable_iff.mpr ⟨nonneg, brief _ (mem_ascending.mp run.first)⟩
      have last := readable_iff.mpr
        ⟨nonneg.trans run.le, brief _ (mem_ascending.mp run.last)⟩
      simp [ends?_showRun first last, Option.guard, nonneg]
    · simp [ends?_showRun_of_neg (r := r) (by omega), Option.guard, nonneg]
  rw [ranges, encode]
  by_cases empty : runs (ascending lines) = []
  · rw [empty]
    decide
  · have pieces : (runs (ascending lines)).map showRun ≠ [] := by simpa using empty
    change List.filterMap ends? (Text.splitOn ',' (Text.join [','] _)) = _
    rw [Text.splitOn_join pieces, List.filterMap_map, List.filterMap_congr back,
      List.filterMap_eq_filter]
    intro piece member
    obtain ⟨r, -, rfl⟩ := List.mem_map.mp member
    exact comma_not_mem_showRun r

theorem ranges_encode (readable : ∀ n ∈ lines, Readable n) :
    ranges (encode lines) = runs (ascending lines) := by
  rw [ranges_encode_eq_filter fun n member => (readable_iff.mp (readable n member)).2,
    List.filter_eq_self]
  intro r member
  have first := mem_ascending.mp (isRun_of_mem_runs r member).first
  simpa using (readable r.1 first).1

/-- **The text of a list of lines means its ascending list.** -/
theorem decode_encode (readable : ∀ n ∈ lines, Readable n) :
    decode (encode lines) = ascending lines := by
  rw [decode, ranges_encode readable, flatMap_span_runs]

/-- **Which text still means a line**: one of a list with a natural number that has no neighbour
below it. -/
theorem decode_encode_ne_nil_iff (brief : ∀ n ∈ lines, Brief n) :
    decode (encode lines) ≠ [] ↔ ∃ n ∈ lines, 0 ≤ n ∧ n - 1 ∉ lines := by
  have begins : ∀ n : Int, (∃ r ∈ runs (ascending lines), r.1 = n) ↔ n ∈ lines ∧ n - 1 ∉ lines :=
    fun n => by rw [exists_mem_runs_iff (pairwise_ascending lines), mem_ascending, mem_ascending]
  rw [decode, ranges_encode_eq_filter brief, ne_eq, List.flatMap_eq_nil_iff, not_forall]
  constructor
  · rintro ⟨r, some_⟩
    rw [Classical.not_imp, List.mem_filter, decide_eq_true_eq] at some_
    obtain ⟨⟨member, nonneg⟩, -⟩ := some_
    obtain ⟨inside, missing⟩ := (begins r.1).mp ⟨r, member, rfl⟩
    exact ⟨r.1, inside, nonneg, missing⟩
  · rintro ⟨n, inside, nonneg, missing⟩
    obtain ⟨r, member, rfl⟩ := (begins n).mpr ⟨inside, missing⟩
    refine ⟨r, fun none_ => ?_⟩
    have first : r.1 ∈ span r.1 r.2 := mem_span.mpr ⟨le_rfl, (isRun_of_mem_runs r member).le⟩
    rw [none_ (List.mem_filter.mpr ⟨member, decide_eq_true nonneg⟩)] at first
    cases first

/-- A range is refused exactly if there is no room for it. -/
theorem checkRange_eq_ok_iff {r : Int × Int} :
    checkRange r = .ok () ↔ (r.2 + 1 - r.1).toNat < roomLimit := by
  have limits : roomLimit ≤ countLimit := by decide
  unfold checkRange
  dsimp only
  split_ifs with endless long
  · exact iff_of_false id (by omega)
  · exact iff_of_false id (by omega)
  · exact iff_of_true rfl (by omega)

/-- Nowhere among the lines are so many numbers in a row that there is no room for them. -/
def Roomy (lines : List Int) : Prop :=
  ∀ first : Int, ∃ n, first ≤ n ∧ n < first + roomLimit ∧ n ∉ lines

theorem roomy_of_length_lt (room : lines.length < roomLimit) : Roomy lines := by
  intro first
  by_contra full
  push Not at full
  have inside : span first (first + roomLimit - 1) ⊆ lines := by
    intro n member
    obtain ⟨above, below⟩ := mem_span.mp member
    exact full n above (by omega)
  have nodup : (span first (first + roomLimit - 1)).Nodup :=
    (pairwise_span first _).imp fun less => less.ne
  have count := (nodup.subperm inside).length_le
  rw [length_span] at count
  omega

/-- **There is room for the lines that are read** where not too many numbers are in a row. -/
theorem read_encode_of_roomy (brief : ∀ n ∈ lines, Brief n) (roomy : Roomy lines) :
    read (encode lines) = .ok (decode (encode lines)) := by
  have checked : ∀ r ∈ ranges (encode lines), checkRange r = .ok () := by
    intro r member
    rw [ranges_encode_eq_filter brief] at member
    rw [checkRange_eq_ok_iff]
    by_contra long
    obtain ⟨n, above, below, missing⟩ := roomy r.1
    refine missing (mem_ascending.mp (mem_iff_exists_run.mpr ?_))
    exact ⟨r, List.mem_of_mem_filter member, above, by omega⟩
  rw [read, Run.forM_eq_ok_iff.mpr checked]
  rfl

/-- **There is room for the lines that are read where there was room for those that were written.**
-/
theorem read_encode (brief : ∀ n ∈ lines, Brief n) (room : lines.length < roomLimit) :
    read (encode lines) = .ok (decode (encode lines)) :=
  read_encode_of_roomy brief (roomy_of_length_lt room)

end Encode

/-! ## Numbers that have been read -/

/-- Between two numbers that are not too long there is none that is. -/
theorem brief_of_mem_span {first last n : Int} (brief : Brief first) (brief' : Brief last)
    (member : n ∈ span first last) : Brief n := by
  obtain ⟨above, below⟩ := mem_span.mp member
  have close : n.natAbs ≤ first.natAbs ∨ n.natAbs ≤ last.natAbs := by omega
  rcases close with le | le
  · exact (Number.length_showNat_le le).trans brief
  · exact (Number.length_showNat_le le).trans brief'

theorem brief_of_readInt? {t : Text} {n : Int} (read : Number.readInt? t = some n) : Brief n :=
  Number.length_showNat_of_readInt (Run.toOption_eq_some_iff.mp read)

theorem brief_of_ends? {piece : Text} {r : Int × Int} (found : ends? piece = some r) :
    Brief r.1 ∧ Brief r.2 := by
  unfold ends? at found
  split at found
  · split at found
    · rename_i first last
      cases found
      exact ⟨brief_of_readInt? first, brief_of_readInt? last⟩
    · cases found
  · obtain ⟨n, alone, rfl⟩ := Option.map_eq_some_iff.mp found
    exact ⟨brief_of_readInt? alone, brief_of_readInt? alone⟩

/-- **No line of a text is too long to be read again.** -/
theorem brief_of_mem_decode {t : Text} {n : Int} (member : n ∈ decode t) : Brief n := by
  obtain ⟨r, range, inside⟩ := List.mem_flatMap.mp member
  obtain ⟨piece, -, found⟩ := List.mem_filterMap.mp range
  obtain ⟨first, last⟩ := brief_of_ends? found
  exact brief_of_mem_span first last inside

end CodeAtlas.LineRanges
