/-
# Proofs.Pattern.Match -- how words and repetitions match

A word matches character by character (`run_spell`); when case is ignored and its characters are
solitary, that is a comparison with the lower-cased front of the text.

A repetition of a single character passes over a run of characters that satisfy a condition.
`Spot.ways` lists the places where it may stop, the nearest first, and `Spot.after` is the last of
them.  The rest of the match is tried at these places in their order when the repetition is lazy,
and in the opposite order when it is greedy (`iterate_one`): the fuel never runs out, and no round
is refused, because every round takes a character.

So a greedy repetition stops as late as it can if the rest of the match succeeds there
(`findSome?_reverse_ways_of_isSome`), or if it cannot succeed in front of a character of the run
(`findSome?_reverse_ways_of_fails`).
-/
import CodeAtlas.Pattern.Basic
import CodeAtlas.Proofs.Text.Case

namespace CodeAtlas.Pattern

set_option autoImplicit false

variable {β : Type} {f : Flags} {size : Nat} {e : Expr} {s : Spot} {cs : Captures}
  {k : Spot → Captures → Option β} {p : Char → Bool}

/-! ## Parts -/

theorem run_seq (first second : Expr) : (Expr.seq first second).run f size β s cs k =
    first.run f size β s cs fun s' cs' => second.run f size β s' cs' k := rfl

theorem run_group (index : Nat) : (Expr.group index e).run f size β s cs k =
    e.run f size β s cs fun s' cs' => k s' ((index, s.rest, s'.index - s.index) :: cs') := rfl

/-- An expression for a single character takes it or fails. -/
theorem run_single (single : e.run f size β = one p) :
    e.run f size β s cs k = (s.step? p).bind fun s' => k s' cs := by
  rw [single, one]

/-! ## Places -/

namespace Spot

/-- The places reached over characters that satisfy `p`, the nearest first. -/
def waysFrom (p : Char → Bool) (past : Text) (index : Nat) : Text → List Spot
  | [] => [⟨past, [], index⟩]
  | c :: rest =>
      ⟨past, c :: rest, index⟩ :: if p c then waysFrom p (c :: past) (index + 1) rest else []

def ways (p : Char → Bool) (s : Spot) : List Spot := waysFrom p s.past s.index s.rest

/-- The place behind the longest run of characters that satisfy `p`. -/
def afterFrom (p : Char → Bool) (past : Text) (index : Nat) : Text → Spot
  | [] => ⟨past, [], index⟩
  | c :: rest =>
      if p c then afterFrom p (c :: past) (index + 1) rest else ⟨past, c :: rest, index⟩

def after (p : Char → Bool) (s : Spot) : Spot := afterFrom p s.past s.index s.rest

theorem rest_after (p : Char → Bool) (s : Spot) : (s.after p).rest = s.rest.dropWhile p := by
  obtain ⟨past, rest, index⟩ := s
  rw [after]
  induction rest generalizing past index with
  | nil => rfl
  | cons c rest ih =>
      simp only [afterFrom, List.dropWhile_cons]
      split
      · exact ih (c :: past) (index + 1)
      · rfl

/-- At every place an end of the text is left. -/
theorem suffix_of_mem_ways {s' : Spot} (member : s' ∈ s.ways p) : s'.rest <:+ s.rest := by
  obtain ⟨past, rest, index⟩ := s
  rw [ways] at member
  induction rest generalizing past index with
  | nil =>
      cases List.mem_singleton.mp member
      exact List.suffix_rfl
  | cons c rest ih =>
      rcases List.mem_cons.mp member with rfl | later
      · exact List.suffix_rfl
      · split at later
        · exact (ih (c :: past) (index + 1) later).trans (List.suffix_cons c rest)
        · cases later

/-- The last of the places is the one behind the whole run; the others are in front of a character
of the run. -/
theorem exists_ways_eq (p : Char → Bool) (s : Spot) : ∃ earlier, s.ways p = earlier ++ [s.after p] ∧
    ∀ s' ∈ earlier, ∃ c rest, s'.rest = c :: rest ∧ p c = true := by
  obtain ⟨past, rest, index⟩ := s
  rw [ways, after]
  induction rest generalizing past index with
  | nil => exact ⟨[], rfl, by simp⟩
  | cons c rest ih =>
      simp only [waysFrom, afterFrom]
      split
      · rename_i inRun
        obtain ⟨earlier, whole, inside⟩ := ih (c :: past) (index + 1)
        rw [whole]
        refine ⟨⟨past, c :: rest, index⟩ :: earlier, rfl, fun s' member => ?_⟩
        rcases List.mem_cons.mp member with rfl | later
        · exact ⟨c, rest, rfl, inRun⟩
        · exact inside s' later
      · exact ⟨[], rfl, by simp⟩

theorem after_mem_ways (p : Char → Bool) (s : Spot) : s.after p ∈ s.ways p := by
  obtain ⟨earlier, whole, -⟩ := s.exists_ways_eq p
  simp [whole]

/-- In front of the last place there is one with a single character of the run left, if there is a
run at all. -/
theorem exists_ways_eq_of_cons {c : Char} {rest : Text} (front : s.rest = c :: rest)
    (inRun : p c = true) : ∃ earlier s' d, s.ways p = earlier ++ [s', s.after p] ∧
      s'.rest = d :: (s.after p).rest ∧ p d = true := by
  obtain ⟨past, rest', index⟩ := s
  subst front
  rw [ways, after]
  induction rest generalizing past index c with
  | nil =>
      refine ⟨[], ⟨past, [c], index⟩, c, ?_, ?_, inRun⟩ <;> simp [waysFrom, afterFrom, inRun]
  | cons d rest ih =>
      simp only [waysFrom, afterFrom, inRun, if_true]
      by_cases more : p d = true
      · obtain ⟨earlier, s', e, whole, left, inRun'⟩ := ih more (c :: past) (index + 1)
        simp only [waysFrom, afterFrom, more, if_true] at whole left ⊢
        exact ⟨⟨past, c :: d :: rest, index⟩ :: earlier, s', e, by rw [whole]; rfl, left, inRun'⟩
      · exact ⟨[], ⟨past, c :: d :: rest, index⟩, c, by simp [more], by simp [more], inRun⟩

end Spot

/-! ## Repetitions -/

/-- One voluntary round, when none has begun at this place before. -/
theorem iterate_succ {body : Matcher β} (greedy : Bool) (fuel : Nat) {last : Option Nat}
    (fresh : last ≠ some s.index) :
    iterate body greedy (fuel + 1) 0 none last s cs k =
      if greedy then
        (body s cs fun s' cs' => iterate body greedy fuel 0 none (some s.index) s' cs' k).or (k s cs)
      else (k s cs).or
        (body s cs fun s' cs' => iterate body greedy fuel 0 none (some s.index) s' cs' k) := by
  have goes : (last == some s.index) = false := by simpa using fresh
  simp [iterate, goes]

/-- **The order of the places.** -/
theorem iterate_one (greedy : Bool) {fuel : Nat} (enough : s.rest.length < fuel) {last : Option Nat}
    (fresh : last ≠ some s.index) :
    iterate (one p) greedy fuel 0 none last s cs k =
      (if greedy then (s.ways p).reverse else s.ways p).findSome? (k · cs) := by
  obtain ⟨past, rest, index⟩ := s
  induction rest generalizing past index fuel last with
  | nil =>
      obtain ⟨fuel, rfl⟩ : ∃ n, fuel = n + 1 := ⟨fuel - 1, by simp at enough; omega⟩
      rw [iterate_succ greedy fuel fresh]
      cases greedy <;> simp [one, Spot.step?, Spot.ways, Spot.waysFrom]
  | cons c rest ih =>
      obtain ⟨fuel, rfl⟩ : ∃ n, fuel = n + 1 := ⟨fuel - 1, by simp at enough; omega⟩
      rw [iterate_succ greedy fuel fresh]
      by_cases inRun : p c = true
      · have later : iterate (one p) greedy fuel 0 none (some index) ⟨c :: past, rest, index + 1⟩ cs k =
            _ := ih (c :: past) (index + 1) (by simpa using enough) (by simp)
        simp only [one, Spot.step?, inRun, if_true, Option.bind_some, later, Spot.ways,
          Spot.waysFrom]
        cases greedy
        · simp only [Bool.false_eq_true, if_false, List.findSome?_cons]
          cases k ⟨past, c :: rest, index⟩ cs <;> rfl
        · simp [List.findSome?_append]
      · cases greedy <;> simp [one, Spot.step?, Spot.ways, Spot.waysFrom, inRun]

section Places

variable {g : Spot → Option β}

/-- A greedy repetition stops as late as it can, if the rest of the match succeeds there. -/
theorem findSome?_reverse_ways_of_isSome (succeeds : (g (s.after p)).isSome = true) :
    (s.ways p).reverse.findSome? g = g (s.after p) := by
  obtain ⟨earlier, whole, -⟩ := s.exists_ways_eq p
  obtain ⟨b, found⟩ := Option.isSome_iff_exists.mp succeeds
  rw [whole, List.reverse_append, List.reverse_singleton, List.singleton_append,
    List.findSome?_cons, found]

/-- A greedy repetition stops as late as it can, if the rest of the match fails in front of the
characters of the run. -/
theorem findSome?_reverse_ways_of_fails
    (fails : ∀ s' ∈ s.ways p, ∀ c rest, s'.rest = c :: rest → p c = true → g s' = none) :
    (s.ways p).reverse.findSome? g = g (s.after p) := by
  obtain ⟨earlier, whole, inside⟩ := s.exists_ways_eq p
  have none_ : earlier.reverse.findSome? g = none := by
    rw [List.findSome?_eq_none_iff]
    intro s' member
    rw [List.mem_reverse] at member
    obtain ⟨c, rest, front, inRun⟩ := inside s' member
    exact fails s' (by simp [whole, member]) c rest front inRun
  rw [whole, List.reverse_append, List.reverse_singleton, List.singleton_append,
    List.findSome?_cons, none_]
  cases g (s.after p) <;> rfl

end Places

theorem run_star (single : e.run f size β = one p) (greedy : Bool) (fits : s.rest.length ≤ size) :
    (Expr.rounds 0 none greedy e).run f size β s cs k =
      (if greedy then (s.ways p).reverse else s.ways p).findSome? (k · cs) := by
  rw [Expr.run, single]
  exact iterate_one greedy (by omega) (by simp)

/-- The first round is owed, the others are not. -/
theorem run_plus (single : e.run f size β = one p) (greedy : Bool) (fits : s.rest.length ≤ size) :
    (Expr.rounds 1 none greedy e).run f size β s cs k = (s.step? p).bind fun s' =>
      (if greedy then (s'.ways p).reverse else s'.ways p).findSome? (k · cs) := by
  have shorter : ∀ s' ∈ s.step? p, s'.rest.length ≤ size := by
    intro s' stepped
    unfold Spot.step? at stepped
    split at stepped
    · cases stepped
    · rename_i c rest front
      rw [front, List.length_cons] at fits
      split at stepped <;> cases stepped
      dsimp only
      omega
  rw [Expr.run, single]
  change (s.step? p).bind (fun s' => iterate (one p) greedy (1 + size + 1) 0 none none s' cs k) = _
  refine Option.bind_congr fun s' stepped => ?_
  have := shorter s' stepped
  exact iterate_one greedy (by omega) (by simp)

/-- One round at most, and rather one than none. -/
theorem run_optional :
    (Expr.rounds 0 (some 1) true e).run f size β s cs k = (e.run f size β s cs k).or (k s cs) := by
  simp [Expr.run, iterate]

/-! ## Words -/

/-- A word and what follows it. -/
def spell (word : Text) (e : Expr) : Expr := word.foldr (fun c e => .seq (.char c) e) e

/-- A solitary character of a pattern stands for itself in either case. -/
theorem same_of_solitary (ignore : f.ignoreCase = true) (wide : f.ascii = false) {c : Char}
    (solitary : Text.Solitary c) : f.same c = fun d => d.toLower == c := by
  funext d
  rw [Flags.same, ignore, wide, Bool.true_and, if_neg Bool.false_ne_true,
    solitary.sameIgnoringCase_eq]

/-- **A word matches the texts whose lower-cased front it is.** -/
theorem run_spell (ignore : f.ignoreCase = true) (wide : f.ascii = false) {word : Text}
    (solitary : ∀ c ∈ word, Text.Solitary c) (s : Spot) :
    ∃ s' : Spot, s'.rest = s.rest.drop word.length ∧ (spell word e).run f size β s cs k =
      if (s.rest.take word.length).map Char.toLower == word then e.run f size β s' cs k
      else none := by
  induction word generalizing s with
  | nil => exact ⟨s, rfl, by simp [spell]⟩
  | cons c word ih =>
      have unfolded : (spell (c :: word) e).run f size β s cs k =
          (s.step? fun d => d.toLower == c).bind fun s' => (spell word e).run f size β s' cs k := by
        simp only [spell, List.foldr_cons, Expr.run, one,
          same_of_solitary ignore wide (solitary c List.mem_cons_self)]
      rw [unfolded]
      obtain ⟨past, rest, index⟩ := s
      cases rest with
      | nil => exact ⟨⟨past, [], index⟩, by simp, by simp [Spot.step?]⟩
      | cons d rest =>
          obtain ⟨s', left, later⟩ := ih (fun c' member => solitary c' (List.mem_cons_of_mem _ member))
            ⟨d :: past, rest, index + 1⟩
          refine ⟨s', by simpa using left, ?_⟩
          by_cases same : d.toLower = c
          · simp [Spot.step?, same, later]
          · simp [Spot.step?, same]

end CodeAtlas.Pattern
