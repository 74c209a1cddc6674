/-
# Proofs.LineRanges.Tokens -- what any text says about lines

A text is read piece by piece, so what a text says that is put together from two with a comma
between them is what the one says and then what the other says (`decode_append`), and a piece that is
neither a number nor two numbers around a dash takes nothing else with it.

No piece says anything about negative lines: the first dash of a piece ends its first number, which
therefore has no minus (`nonneg_of_mem_decode`).  Nor is any line too long to be read again.  So the
lines of a text can be written and read without loss, and have one text from then on
(`read_settles`).

Lines that were read from several ranges may be neighbours and are then written as one.  It is read
again if there is room for all of it (`read_encode_eq_ok_iff`).
-/
import CodeAtlas.Proofs.LineRanges.Blocks

namespace CodeAtlas.LineRanges

set_option autoImplicit false

variable {t u piece : Text} {lines others : List Int} {n : Int} {r : Int × Int}

/-! ## Pieces -/

theorem ranges_append (t u : Text) : ranges (t ++ ',' :: u) = ranges t ++ ranges u := by
  rw [ranges, Text.splitOn_append, List.filterMap_append, ranges, ranges]

/-- **Pieces are read on their own.** -/
theorem decode_append (t u : Text) : decode (t ++ ',' :: u) = decode t ++ decode u := by
  rw [decode, ranges_append, List.flatMap_append, decode, decode]

/-- A piece that says nothing. -/
theorem ranges_eq_nil_of_ends? (single : ',' ∉ piece) (malformed : ends? piece = none) :
    ranges piece = [] := by
  rw [ranges, Text.splitOn_of_not_mem single, List.filterMap_cons_none malformed,
    List.filterMap_nil]

/-- In front of the first dash of a piece there is no minus. -/
theorem dash_not_mem_cut (t : Text) : '-' ∉ (Text.cut '-' t).1 := fun member => by
  have other := List.mem_takeWhile_imp member
  simp at other

theorem nonneg_of_readInt? (absent : '-' ∉ t) (found : Number.readInt? t = some n) : 0 ≤ n :=
  Number.nonneg_of_readInt absent (Run.toOption_eq_some_iff.mp found)

theorem nonneg_of_ends? (found : ends? piece = some r) : 0 ≤ r.1 := by
  have unsigned := dash_not_mem_cut (Text.trim piece)
  unfold ends? at found
  split at found
  · rename_i low high cut
    rw [cut] at unsigned
    split at found
    · rename_i first last readLow readHigh
      cases found
      exact nonneg_of_readInt? unsigned readLow
    · cases found
  · rename_i alone cut
    rw [cut] at unsigned
    obtain ⟨n, readAlone, rfl⟩ := Option.map_eq_some_iff.mp found
    exact nonneg_of_readInt? unsigned readAlone

/-- **No text says anything about negative lines.** -/
theorem nonneg_of_mem_decode (member : n ∈ decode t) : 0 ≤ n := by
  obtain ⟨r, range, inside⟩ := List.mem_flatMap.mp member
  obtain ⟨piece, -, found⟩ := List.mem_filterMap.mp range
  exact (nonneg_of_ends? found).trans (mem_span.mp inside).1

/-! ## Room -/

/-- **A text is read if there is room for each of its ranges.** -/
theorem read_eq_ok_iff : read t = .ok lines ↔
    (∀ r ∈ ranges t, (r.2 + 1 - r.1).toNat < roomLimit) ∧ lines = decode t := by
  simp only [← checkRange_eq_ok_iff, ← Run.forM_eq_ok_iff, read, Run.map_eq_ok_iff]
  constructor
  · rintro ⟨⟨⟩, checked, same⟩
    exact ⟨checked, same.symm⟩
  · rintro ⟨checked, same⟩
    exact ⟨(), checked, same.symm⟩

theorem read_append (read_ : read t = .ok lines) (read_' : read u = .ok others) :
    read (t ++ ',' :: u) = .ok (lines ++ others) := by
  rw [read_eq_ok_iff] at read_ read_' ⊢
  rw [ranges_append, decode_append, List.forall_mem_append, read_.2, read_'.2]
  exact ⟨⟨read_.1, read_'.1⟩, rfl⟩

/-- A malformed piece in between changes nothing. -/
theorem read_append_malformed (single : ',' ∉ piece) (malformed : ends? piece = none)
    (read_ : read t = .ok lines) (read_' : read u = .ok others) :
    read (t ++ ',' :: (piece ++ ',' :: u)) = .ok (lines ++ others) := by
  have nothing : read piece = .ok [] := by
    have free := ranges_eq_nil_of_ends? single malformed
    exact read_eq_ok_iff.mpr ⟨by simp [free], by rw [decode, free, List.flatMap_nil]⟩
  exact read_append read_ (read_append nothing read_')

/-- **Written lines are read again exactly if not too many of them are in a row.** -/
theorem read_encode_eq_ok_iff (brief : ∀ n ∈ lines, Brief n) (nonneg : ∀ n ∈ lines, 0 ≤ n) :
    read (encode lines) = .ok (sorted lines) ↔ Roomy lines := by
  rw [← decode_encode_of_nonneg brief nonneg]
  refine ⟨fun listed first => ?_, read_encode_of_roomy brief⟩
  by_contra full
  push Not at full
  have limit : 0 < roomLimit := by decide
  -- All these lines are in one block, so the run of the last one has them all.
  have low := full first le_rfl (by omega)
  have high := full (first + (roomLimit - 1 : Nat)) (by omega) (by omega)
  obtain ⟨r, run, above, below⟩ := mem_iff_exists_run.mp (mem_ascending.mpr low)
  obtain ⟨r', run', above', below'⟩ := mem_iff_exists_run.mp (mem_ascending.mpr high)
  have block := blockStart_of_mem_runs run above below
  have same : r.1 = r'.1 := by
    refine BlockStart.unique (n := first + (roomLimit - 1 : Nat)) ⟨by omega, ?_, block.missing⟩
      (blockStart_of_mem_runs run' above' below')
    intro k from_ to_
    by_cases before : k < first
    · exact block.filled k from_ before.le
    · exact full k (by omega) (by omega)
  have checked := (read_eq_ok_iff.mp listed).1
  rw [ranges_encode fun n member => readable_iff.mpr ⟨nonneg n member, brief n member⟩] at checked
  have short := checked r' run'
  omega

/-! ## Any text -/

/-- **Lines that can be written and read without loss.** -/
structure Settles (lines : List Int) : Prop where
  nonneg : ∀ n ∈ lines, 0 ≤ n
  /-- What is read again are the same lines in ascending order, each once. -/
  back : decode (encode lines) = sorted lines
  /-- They have one text from then on. -/
  again : encode (decode (encode lines)) = encode lines
  /-- They are listed again, if there is room for all that are in a row. -/
  room : read (encode lines) = .ok (sorted lines) ↔ Roomy lines

/-- **What is read from any text settles**, and it is what the parts of the text say, one after the
other; a malformed part only takes itself away. -/
theorem read_settles (listed : read t = .ok lines) :
    Settles lines ∧
      ∀ u others, read u = .ok others → read (t ++ ',' :: u) = .ok (lines ++ others) ∧
        ∀ piece, ',' ∉ piece → ends? piece = none →
          read (t ++ ',' :: (piece ++ ',' :: u)) = .ok (lines ++ others) := by
  refine ⟨?_, fun u others listed' => ⟨read_append listed listed', fun piece single malformed =>
    read_append_malformed single malformed listed listed'⟩⟩
  obtain ⟨-, rfl⟩ := read_eq_ok_iff.mp listed
  have nonneg : ∀ n ∈ decode t, 0 ≤ n := fun n => nonneg_of_mem_decode
  have brief : ∀ n ∈ decode t, Brief n := fun n => brief_of_mem_decode
  have back := decode_encode_of_nonneg brief nonneg
  exact ⟨nonneg, back, by rw [back, encode_sorted], read_encode_eq_ok_iff brief nonneg⟩

/-- A text with signs, low lines, a backward range and pieces that are no lines. -/
def looseText : Text := " +3 ,7-1_0,9-4,2--5,-1,x, 8"

theorem read_settles_loose :
    read looseText = .ok [3, 7, 8, 9, 10, 8] ∧ Settles [3, 7, 8, 9, 10, 8] ∧
      encode (decode (encode [3, 7, 8, 9, 10, 8])) = "3,7-10".toList ∧
      ends? "5-" = none ∧ read "5" = .ok [5] ∧
      read (looseText ++ ',' :: ("5-" ++ ',' :: "5")) = .ok [3, 7, 8, 9, 10, 8, 5] := by
  have listed : read looseText = .ok [3, 7, 8, 9, 10, 8] := by
    have found : ranges looseText = [(3, 3), (7, 10), (9, 4), (2, -5), (8, 8)] := by cbv
    rw [read_eq_ok_iff, decode, found]
    decide +kernel
  have listed' : read "5" = .ok [5] := by
    have found : ranges "5" = [(5, 5)] := by cbv
    rw [read_eq_ok_iff, decode, found]
    decide +kernel
  have malformed : ends? "5-" = none := by cbv
  obtain ⟨settles, parts⟩ := read_settles listed
  refine ⟨listed, settles, ?_, malformed, listed', ?_⟩
  · rw [settles.again]
    cbv
  · exact (parts _ _ listed').2 _ (by decide) malformed

end CodeAtlas.LineRanges
