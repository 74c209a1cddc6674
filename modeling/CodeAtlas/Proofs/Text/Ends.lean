/-
# Proofs.Text.Ends -- white space at the ends of texts and of lines

Trimming a text takes away white space only: how often any other character occurs stays as it is
(`count_trim`), and a text is blank exactly if nothing is left of it (`isBlank_iff_trim`).

Texts end alike if they are the same but for white space behind them (`EndsLike`); the two parts that
a cut gives then are the same when trimmed (`EndsLike.trim_cut`).  A carriage return in front of a
line feed is such white space, because it stands at the end of a line.  So the lines of a text end
alike whether the text has its line feeds with carriage returns or without (`ends_replace_lineFeed`,
`ends_replace_return`).
-/
import Mathlib.Data.List.Forall2
import CodeAtlas.Proofs.Text.Pieces

namespace CodeAtlas.Text

set_option autoImplicit false

variable {t t' : Text}

/-! ## Trimmed texts -/

theorem isBlank_iff_trim : isBlank t = true ↔ trim t = [] := by
  constructor
  · intro blank
    rw [trim, trimLeft, isBlank_iff.mp blank]
    rfl
  · intro nothing
    rw [isBlank, List.all_eq_true]
    intro c member
    by_contra solid
    have kept := mem_trim (by simpa using solid) member
    rw [nothing] at kept
    cases kept

theorem isBlank_of_trim (same : trim t = trim t') : isBlank t = isBlank t' := by
  rw [Bool.eq_iff_iff, isBlank_iff_trim, isBlank_iff_trim, same]

theorem contains_trim {c : Char} (solid : isBlankChar c = false) :
    (trim t).contains c = t.contains c := by
  rw [Bool.eq_iff_iff, List.contains_iff_mem, List.contains_iff_mem]
  exact ⟨mem_of_mem_trim, mem_trim solid⟩

/-- Trimming takes away no character that is not white space. -/
theorem count_trim {c : Char} (solid : isBlankChar c = false) : (trim t).count c = t.count c := by
  obtain ⟨front, back, whole, blank, blank'⟩ := exists_append_trim t
  have absent {u : Text} (blank : ∀ d ∈ u, isBlankChar d = true) : u.count c = 0 := by
    rw [List.count_eq_zero]
    intro member
    rw [blank c member] at solid
    cases solid
  conv_rhs => rw [whole]
  rw [List.count_append, List.count_append, absent blank, absent blank']
  omega

theorem trim_trimRight (t : Text) : trim (trimRight t) = trim t := trim_append_trimRight [] t

/-- White space at the end is not in front, unless there is nothing else. -/
theorem indentation_trimRight (solid : isBlank t = false) :
    indentation (trimRight t) = indentation t := by
  induction t with
  | nil => rfl
  | cons c t ih =>
      rw [trimRight_cons solid, indentation, indentation]
      cases blank : isBlankChar c with
      | false => simp [blank]
      | true =>
          rw [isBlank_cons, blank, Bool.true_and] at solid
          have rest := ih solid
          rw [indentation, indentation] at rest
          simp [blank, rest]

/-! ## Texts that end alike -/

/-- The texts are the same but for white space at their ends. -/
def EndsLike (t t' : Text) : Prop := trimRight t = trimRight t'

theorem EndsLike.isBlank (ends : EndsLike t t') : isBlank t = isBlank t' := by
  apply isBlank_of_trim
  rw [← trim_trimRight t, ends, trim_trimRight]

theorem EndsLike.cons (c : Char) (ends : EndsLike t t') : EndsLike (c :: t) (c :: t') := by
  have blank : Text.isBlank (c :: t) = Text.isBlank (c :: t') := by
    rw [isBlank_cons, isBlank_cons, ends.isBlank]
  rw [EndsLike]
  cases solid : Text.isBlank (c :: t) with
  | true => rw [trimRight_of_isBlank solid, trimRight_of_isBlank (blank ▸ solid)]
  | false => rw [trimRight_cons solid, trimRight_cons (blank ▸ solid), ends]

theorem endsLike_trimRight (t : Text) : EndsLike (trimRight t) t := List.rdropWhile_idempotent _ t

theorem endsLike_concat {c : Char} (blank : isBlankChar c = true) (t : Text) :
    EndsLike (t ++ [c]) t := List.rdropWhile_concat_pos _ _ _ blank

theorem trim_cut_trimRight {sep : Char} (solid : isBlankChar sep = false) (t : Text) :
    trim (cut sep (trimRight t)).1 = trim (cut sep t).1 ∧
      trim ((cut sep (trimRight t)).2.getD []) = trim ((cut sep t).2.getD []) := by
  by_cases member : sep ∈ t
  · obtain ⟨s, rest, rfl, absent⟩ := List.eq_append_cons_of_mem member
    have solid' : Text.isBlank (sep :: rest) = false := by
      rw [isBlank_cons, solid, Bool.false_and]
    rw [trimRight_append s solid', trimRight_cons solid', cut_append absent, cut_append absent]
    exact ⟨rfl, trim_trimRight rest⟩
  · have absent : sep ∉ trimRight t := fun kept => member ((List.rdropWhile_prefix _ _).mem kept)
    rw [cut_of_not_mem absent, cut_of_not_mem member]
    exact ⟨trim_trimRight t, rfl⟩

/-- Texts that end alike are cut into the same two parts, but for white space around them. -/
theorem EndsLike.trim_cut {sep : Char} (ends : EndsLike t t') (solid : isBlankChar sep = false) :
    trim (cut sep t).1 = trim (cut sep t').1 ∧
      trim ((cut sep t).2.getD []) = trim ((cut sep t').2.getD []) := by
  obtain ⟨front, back⟩ := trim_cut_trimRight solid t
  obtain ⟨front', back'⟩ := trim_cut_trimRight solid t'
  rw [← front, ← back, ends]
  exact ⟨front', back'⟩

/-! ## Line ends -/

theorem ends_splitOn_cons (c : Char)
    (ends : List.Forall₂ EndsLike (splitOn '\n' t) (splitOn '\n' t')) :
    List.Forall₂ EndsLike (splitOn '\n' (c :: t)) (splitOn '\n' (c :: t')) := by
  by_cases cuts : c = '\n'
  · rw [cuts, splitOn_cons_self, splitOn_cons_self]
    exact .cons rfl ends
  · obtain ⟨piece, pieces, cut, longer⟩ := splitOn_cons_of_ne cuts t
    obtain ⟨piece', pieces', cut', longer'⟩ := splitOn_cons_of_ne cuts t'
    rw [cut, cut'] at ends
    rw [longer, longer']
    cases ends with
    | cons here later => exact .cons (here.cons c) later

/-- A carriage return in front of a line feed is all of a line. -/
theorem splitOn_return (t : Text) : splitOn '\n' ('\r' :: '\n' :: t) = ['\r'] :: splitOn '\n' t :=
  splitOn_append_cons (a := ['\r']) (by decide) t

theorem endsLike_return : EndsLike ['\r'] [] := by
  unfold EndsLike
  decide

/-- A carriage return put in front of every line feed. -/
theorem ends_replace_lineFeed (t : Text) :
    List.Forall₂ EndsLike (splitOn '\n' (replace "\n" "\r\n" t)) (splitOn '\n' t) := by
  induction t using replace.induct "\n" with
  | case1 =>
      rw [replace]
      exact .cons rfl .nil
  | case2 c rest begins ih =>
      obtain rfl : '\n' = c := by simpa using begins
      have more : replace "\n" "\r\n" ('\n' :: rest) =
          '\r' :: '\n' :: replace "\n" "\r\n" rest := by
        rw [replace, if_pos begins]
        simp
      rw [more, splitOn_return, splitOn_cons_self]
      exact .cons endsLike_return (by simpa using ih)
  | case3 c rest other ih =>
      rw [replace, if_neg other]
      exact ends_splitOn_cons c ih

/-- The carriage return taken away in front of every line feed. -/
theorem ends_replace_return (t : Text) :
    List.Forall₂ EndsLike (splitOn '\n' (replace "\r\n" "\n" t)) (splitOn '\n' t) := by
  induction t using replace.induct "\r\n" with
  | case1 =>
      rw [replace]
      exact .cons rfl .nil
  | case2 c rest begins ih =>
      obtain ⟨rest, rfl, rfl⟩ : ∃ rest', '\r' = c ∧ rest = '\n' :: rest' := by
        cases rest with
        | nil => simp at begins
        | cons d rest => simpa [eq_comm (a := d)] using begins
      have less : replace "\r\n" "\n" ('\r' :: '\n' :: rest) =
          '\n' :: replace "\r\n" "\n" rest := by
        rw [replace, if_pos begins]
        simp
      rw [less, splitOn_return, splitOn_cons_self]
      exact .cons endsLike_return.symm (by simpa using ih)
  | case3 c rest other ih =>
      rw [replace, if_neg other]
      exact ends_splitOn_cons c ih

end CodeAtlas.Text
