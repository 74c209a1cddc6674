/-
# Proofs.Scan.Annotation -- what the packaged annotation pattern means

The packaged pattern is matched with backtracking; `Annotation.direct` reads the same annotation in
one pass (`read_eq_direct`).  The pattern is followed from its end, and each part has a value that no
longer mentions a place or a repetition:

* behind the name (`ending`): the white space and a colon begin a description, which is what is left
  without the white space around it; without a colon there must be nothing but white space;
* the name (`naming`): a lazy repetition, which stops where only white space is left in front of the
  colon or the end;
* the white space behind the keyword: a greedy repetition, which gives one character back to the
  name when there is no name otherwise (`ofCaptures_ways`).

Each lemma holds in a text of one line: in front of a line feed the pattern could end earlier.
-/
import CodeAtlas.Language.Packaged
import CodeAtlas.Proofs.Pattern.Match
import CodeAtlas.Proofs.Text.Pieces
import CodeAtlas.Scan.Annotation

namespace CodeAtlas.Scan.Annotation

set_option autoImplicit false

open Pattern

/-! ## The parts of the pattern -/

/-- How the packaged pattern reads its text. -/
def flags : Flags := { ignoreCase := true }

/-- White space up to the end of the line. -/
def closingExpr : Expr := .seq (.rounds 0 none true Language.blankClass) (.anchor .lineEnd)

/-- A colon and a description, with the white space in front of both. -/
def describingExpr : Expr :=
  .seq (.rounds 0 none true Language.blankClass) <| .seq (.char ':') <|
  .seq (.rounds 0 none true Language.blankClass) (.group 2 (.rounds 0 none false .any))

/-- What stands behind the name. -/
def endingExpr : Expr := .seq (.rounds 0 (some 1) true describingExpr) closingExpr

/-- The name and what stands behind it. -/
def namingExpr : Expr :=
  .seq (.group 1 (.rounds 1 none false (.oneOf true [.range ':' ':']))) endingExpr

/-- The packaged pattern, its keyword set apart. -/
theorem annotationExpr_eq : Language.annotationExpr =
    spell keyword (.seq (.rounds 1 none true Language.blankClass) namingExpr) := by
  decide

/-- The packaged pattern is the one that its text denotes. -/
theorem read_defaultSource : Pattern.read Language.defaultSource { ignoreCase := true } =
    .ok Language.packaged.pattern := by decide +kernel

theorem solitary_keyword : ∀ c ∈ keyword, Text.Solitary c := by
  have letters : keyword = ['@', 'g', 'r', 'o', 'u', 'p'] := by decide
  -- one letter at a time: each of them is looked up in all tables
  rw [letters]
  simp only [List.forall_mem_cons, List.not_mem_nil, false_imp_iff, implies_true, and_true]
  refine ⟨?_, ?_, ?_, ?_, ?_, ?_⟩ <;> decide +kernel

/-! ## Single characters -/

section Single

variable {size : Nat} {β : Type}

theorem run_blankClass : Language.blankClass.run flags size β = one Text.isBlankChar := by
  refine congrArg one (funext fun c => ?_)
  simp [inClass, ClassItem.holds, Category.holds, flags]

theorem run_any : Expr.any.run flags size β = one (· != '\n') := by
  refine congrArg one (funext fun c => ?_)
  simp [flags]

theorem solitary_colon : Text.Solitary ':' := by decide +kernel

/-- Case or no case, a class of the colon alone holds nothing else. -/
theorem inClass_colon (c : Char) : inClass flags [.range ':' ':'] c = (c == ':') := by
  have variants : (58 ∈ Text.caseVariants c) ↔ c = ':' :=
    solitary_colon.mem_caseVariants_iff (by decide)
  have holds : ClassItem.holds flags c (.range ':' ':') = true ↔ c = ':' := by
    rw [← variants]
    simp only [ClassItem.holds, Bool.or_eq_true, Bool.and_eq_true, decide_eq_true_eq,
      List.any_eq_true]
    change (58 ≤ c.toNat ∧ c.toNat ≤ 58) ∨ (∃ n ∈ Text.caseVariants c, 58 ≤ n ∧ n ≤ 58) ↔ _
    constructor
    · rintro (same | ⟨n, member, same⟩)
      · obtain rfl : c = ':' := Char.toNat_inj.mp (show c.toNat = 58 by omega)
        exact variants.mpr rfl
      · obtain rfl : n = 58 := by omega
        exact member
    · exact fun member => .inr ⟨58, member, by omega⟩
  rw [Bool.eq_iff_iff, beq_iff_eq, ← holds]
  simp [inClass, isAstral]

theorem run_notColon : (Expr.oneOf true [.range ':' ':']).run flags size β = one (· != ':') := by
  refine congrArg one (funext fun c => ?_)
  rw [inClass_colon]
  cases same : c == ':' <;> simp [bne, same]

theorem run_colon : (Expr.char ':').run flags size β = one (· == ':') := by
  refine congrArg one (funext fun c => ?_)
  rw [same_of_solitary rfl rfl solitary_colon, Bool.eq_iff_iff, beq_iff_eq, beq_iff_eq,
    Text.toLower_eq_iff (by decide)]

end Single

/-! ## Lazy runs -/

/-- **A lazy run up to its last character that is not white space.**  If the rest of the match
succeeds exactly where only white space of the run is left, the run stops there. -/
theorem findSome?_ways_of_blank {β : Type} {p : Char → Bool} {s : Spot} {g : Spot → Option β}
    {h : Nat → β}
    (value : ∀ s', s'.rest <:+ s.rest → s'.rest.dropWhile p = s.rest.dropWhile p →
      g s' = if Text.isBlank (s'.rest.takeWhile p) then some (h s'.index) else none) :
    (s.ways p).findSome? g =
      some (h (s.index + (Text.trimRight (s.rest.takeWhile p)).length)) := by
  obtain ⟨past, rest, index⟩ := s
  rw [Spot.ways]
  induction rest generalizing past index with
  | nil =>
      have here := value ⟨past, [], index⟩ List.suffix_rfl rfl
      simpa [Spot.waysFrom, Text.isBlank, Text.trimRight, Text.dropWhileEnd] using here
  | cons c rest ih =>
      have here := value ⟨past, c :: rest, index⟩ List.suffix_rfl rfl
      cases blank : Text.isBlank ((c :: rest).takeWhile p) with
      | true =>
          simp only [blank, if_true] at here
          simp [Spot.waysFrom, here, Text.trimRight_of_isBlank blank]
      | false =>
          have inRun : p c = true := by
            by_contra other
            simp [other, Text.isBlank] at blank
          have later := ih (c :: past) (index + 1) fun s' below same =>
            value s' (below.trans (List.suffix_cons c rest)) (by simpa [inRun] using same)
          simp only [blank, Bool.false_eq_true, if_false] at here
          rw [List.takeWhile_cons_of_pos inRun] at blank ⊢
          simp only [Spot.waysFrom, inRun, if_true, List.findSome?_cons, here]
          rw [later, Text.trimRight_cons blank, List.length_cons]
          dsimp only
          rw [Nat.add_assoc, Nat.add_comm 1]

/-! ## Behind the name -/

/-- What a match has captured when it goes on behind the name. -/
def ending (rest : Text) (cs : Captures) : Option Captures :=
  match rest.dropWhile Text.isBlankChar with
  | [] => some cs
  | c :: d => if c == ':' then some ((2, Text.trimLeft d, (Text.trim d).length) :: cs) else none

section Ending

variable {size : Nat} {s : Spot} {cs : Captures}

/-- A match is over when it has reached the end of the pattern. -/
abbrev accept : Spot → Captures → Option Captures := fun _ cs => some cs

/-- In a line without line feeds the line ends with the text. -/
theorem holds_lineEnd (line : '\n' ∉ s.rest) : s.holds flags .lineEnd = s.rest.isEmpty := by
  cases rest : s.rest with
  | nil => simp [Spot.holds, rest]
  | cons c t =>
      have other : c ≠ '\n' := by
        rintro rfl
        exact line (by simp [rest])
      simp [Spot.holds, rest, other]

/-- The white space at the end of a name or a description is nothing but white space to the end. -/
theorem run_closing (fits : s.rest.length ≤ size) (line : '\n' ∉ s.rest) :
    closingExpr.run flags size Captures s cs accept =
      if Text.isBlank s.rest then some cs else none := by
  have start : closingExpr.run flags size Captures s cs accept =
      (s.ways Text.isBlankChar).reverse.findSome? fun s' =>
        if s'.holds flags .lineEnd then some cs else none :=
    run_star run_blankClass true fits
  rw [start, findSome?_reverse_ways_of_fails]
  · have line' : '\n' ∉ (s.after Text.isBlankChar).rest := fun member =>
      line ((List.dropWhile_suffix _).mem (s.rest_after _ ▸ member))
    rw [holds_lineEnd line', Spot.rest_after]
    refine if_congr ?_ rfl rfl
    rw [Text.isBlank_iff, List.isEmpty_iff]
  · intro s' member c rest front _
    have other : c ≠ '\n' := by
      rintro rfl
      exact line ((Spot.suffix_of_mem_ways member).mem (by simp [front]))
    simp [Spot.holds, front, other]

/-- **A description is what is left of the line**, without the white space at its end. -/
theorem run_described (cs : Captures) (fits : s.rest.length ≤ size) (line : '\n' ∉ s.rest) :
    (Expr.group 2 (.rounds 0 none false .any)).run flags size Captures s cs
        (fun s' cs' => closingExpr.run flags size Captures s' cs' accept) =
      some ((2, s.rest, (Text.trimRight s.rest).length) :: cs) := by
  have whole : ∀ t : Text, t <:+ s.rest → t.takeWhile (· != '\n') = t := fun t below =>
    List.takeWhile_eq_self_iff.mpr fun c member => by
      simpa using fun same : c = '\n' => line (same ▸ below.mem member)
  rw [run_group, run_star run_any false fits, if_neg (by simp),
    findSome?_ways_of_blank (h := fun n => (2, s.rest, n - s.index) :: cs),
    whole _ List.suffix_rfl, Nat.add_sub_cancel_left]
  intro s' below _
  rw [run_closing (below.length_le.trans fits) fun member => line (below.mem member), whole _ below]

/-- The white space in front of a description is left out. -/
theorem run_trimmed (cs : Captures) (fits : s.rest.length ≤ size) (line : '\n' ∉ s.rest) :
    (Expr.rounds 0 none true Language.blankClass).run flags size Captures s cs (fun s' cs' =>
        (Expr.group 2 (.rounds 0 none false .any)).run flags size Captures s' cs'
          fun s' cs' => closingExpr.run flags size Captures s' cs' accept) =
      some ((2, Text.trimLeft s.rest, (Text.trim s.rest).length) :: cs) := by
  have below : (s.after Text.isBlankChar).rest <:+ s.rest := by
    rw [Spot.rest_after]
    exact List.dropWhile_suffix _
  have described := run_described cs (below.length_le.trans fits) fun member =>
    line (below.mem member)
  rw [run_star run_blankClass true fits, if_pos rfl, findSome?_reverse_ways_of_isSome, described,
    Spot.rest_after]
  · rfl
  · rw [described]
    rfl

/-- **A description begins behind the colon and the white space around it.** -/
theorem run_describing (fits : s.rest.length ≤ size) (line : '\n' ∉ s.rest) :
    describingExpr.run flags size Captures s cs
        (fun s' cs' => closingExpr.run flags size Captures s' cs' accept) =
      match s.rest.dropWhile Text.isBlankChar with
      | [] => none
      | c :: d =>
          if c == ':' then some ((2, Text.trimLeft d, (Text.trim d).length) :: cs) else none := by
  rw [describingExpr, run_seq, run_star run_blankClass true fits, if_pos rfl,
    findSome?_reverse_ways_of_fails]
  · simp only [run_seq, run_single run_colon]
    generalize place : s.after Text.isBlankChar = s'
    have front : s'.rest = s.rest.dropWhile Text.isBlankChar := by rw [← place, Spot.rest_after]
    have below : s'.rest <:+ s.rest := front ▸ List.dropWhile_suffix _
    rw [← front]
    obtain ⟨past, rest, index⟩ := s'
    cases rest with
    | nil => rfl
    | cons c d =>
        have below' : d <:+ s.rest := (List.suffix_cons c d).trans below
        have trimmed := run_trimmed (s := ⟨c :: past, d, index + 1⟩) cs
          (below'.length_le.trans fits) fun member => line (below'.mem member)
        by_cases colon : c = ':'
        · simpa [Spot.step?, colon] using trimmed
        · simp [Spot.step?, colon]
  · intro s' _ c rest front inRun
    have other : c ≠ ':' := by
      rintro rfl
      cases inRun
    simp [run_seq, run_single run_colon, Spot.step?, front, other]

/-- **Behind the name**: a description, or nothing but white space. -/
theorem run_ending (fits : s.rest.length ≤ size) (line : '\n' ∉ s.rest) :
    endingExpr.run flags size Captures s cs accept = ending s.rest cs := by
  rw [endingExpr, run_seq, run_optional, run_describing fits line, run_closing fits line, ending]
  cases front : s.rest.dropWhile Text.isBlankChar with
  | nil => simp [Text.isBlank_iff.mpr front]
  | cons c d =>
      have solid : Text.isBlank s.rest = false := by
        rw [Bool.eq_false_iff, ne_eq, Text.isBlank_iff, front]
        exact List.cons_ne_nil c d
      simp [solid]

end Ending

/-! ## The name -/

/-- The description behind a name that ends at a colon or at the end of the line. -/
def described : Text → Captures
  | [] => []
  | _ :: d => [(2, Text.trimLeft d, (Text.trim d).length)]

/-- The match goes on behind a name exactly if only white space is left of it. -/
theorem ending_eq (rest : Text) (cs : Captures) :
    ending rest cs =
      if Text.isBlank (rest.takeWhile (· != ':')) then
        some (described (rest.dropWhile (· != ':')) ++ cs)
      else none := by
  induction rest with
  | nil => rfl
  | cons c t ih =>
      by_cases colon : c = ':'
      · subst colon
        have solid : Text.isBlankChar ':' = false := by decide
        simp [ending, solid, described, Text.isBlank]
      · have name : (c != ':') = true := by simpa using colon
        rw [List.takeWhile_cons_of_pos (p := (· != ':')) name,
          List.dropWhile_cons_of_pos (p := (· != ':')) name, Text.isBlank_cons]
        by_cases blank : Text.isBlankChar c = true
        · rw [ending, List.dropWhile_cons_of_pos blank, ← ending, ih, blank, Bool.true_and]
        · simp [ending, blank, colon]

/-- What a match has captured when it goes on with the name. -/
def naming (rest : Text) (cs : Captures) : Option Captures :=
  match rest with
  | [] => none
  | c :: t =>
      if c == ':' then none
      else some (described (t.dropWhile (· != ':')) ++
        (1, c :: t, (Text.trimRight (t.takeWhile (· != ':'))).length + 1) :: cs)

section Naming

variable {size : Nat} {s : Spot} {cs : Captures}

/-- **The name** goes up to its last character that is not white space. -/
theorem run_naming (fits : s.rest.length ≤ size) (line : '\n' ∉ s.rest) :
    namingExpr.run flags size Captures s cs accept = naming s.rest cs := by
  rw [namingExpr, run_seq, run_group, run_plus run_notColon false fits]
  obtain ⟨past, rest, index⟩ := s
  cases rest with
  | nil => rfl
  | cons c t =>
      by_cases colon : c = ':'
      · simp [Spot.step?, naming, colon]
      · have run := findSome?_ways_of_blank (p := (· != ':')) (s := ⟨c :: past, t, index + 1⟩)
          (g := fun s' => endingExpr.run flags size Captures s'
            ((1, c :: t, s'.index - index) :: cs) accept)
          (h := fun n => described (t.dropWhile (· != ':')) ++ (1, c :: t, n - index) :: cs)
          fun s' below same => by
            have below' : s'.rest <:+ c :: t := below.trans (List.suffix_cons c t)
            rw [run_ending (below'.length_le.trans fits) fun member => line (below'.mem member),
              ending_eq, same]
        have count : ∀ n, index + 1 + n - index = n + 1 := fun n => by omega
        simpa [Spot.step?, naming, colon, count] using run

end Naming

/-! ## The keyword -/

/-- The annotation that a match has captured. -/
def ofCaptures (cs : Captures) : Option Annotation := ofParts? (capture cs 1) (capture cs 2)

/-- A trimmed text is the front of the text behind the white space. -/
theorem take_length_trim (t : Text) : (Text.trimLeft t).take (Text.trim t).length = Text.trim t :=
  (List.prefix_iff_eq_take.mp (Text.trim_prefix_trimLeft t)).symm

/-- The part behind the first colon is captured as the description. -/
theorem capture_described {c : Char} {t : Text} (first : c ≠ ':') (cs : Captures)
    (none_ : cs.lookup 2 = none) :
    capture (described (t.dropWhile (· != ':')) ++ cs) 2 =
      Text.trim ((Text.cut ':' (c :: t)).2.getD []) := by
  have rest : (Text.cut ':' (c :: t)).2 = (t.dropWhile (· != ':')).tail? := by
    simp [Text.cut, first]
  rw [rest]
  cases t.dropWhile (· != ':') with
  | nil => simp [described, capture, none_, Text.trim, Text.trimLeft, Text.trimRight,
      Text.dropWhileEnd]
  | cons d t => simp [described, capture, take_length_trim]

/-- The name is captured up to its last character that is not white space. -/
theorem capture_name (c : Char) (t : Text) :
    capture (described (t.dropWhile (· != ':')) ++
        [(1, c :: t, (Text.trimRight (t.takeWhile (· != ':'))).length + 1)]) 1 =
      c :: Text.trimRight (t.takeWhile (· != ':')) := by
  have front : Text.trimRight (t.takeWhile (· != ':')) <+: t :=
    (List.rdropWhile_prefix _ _).trans (List.takeWhile_prefix _)
  have found : (described (t.dropWhile (· != ':')) ++
      [(1, c :: t, (Text.trimRight (t.takeWhile (· != ':'))).length + 1)]).lookup 1 =
      some (c :: t, (Text.trimRight (t.takeWhile (· != ':'))).length + 1) := by
    cases t.dropWhile (· != ':') <;> rfl
  rw [capture, found]
  change (c :: t).take _ = _
  rw [List.take_succ_cons, ← List.prefix_iff_eq_take.mp front]

/-- **A name and its description**, as they are captured and as the colon cuts them. -/
theorem ofCaptures_naming {c : Char} {t : Text} (name : c ≠ ':') :
    (naming (c :: t) []).map ofCaptures =
      some (ofParts? (Text.cut ':' (c :: t)).1 ((Text.cut ':' (c :: t)).2.getD [])) := by
  have name' : (c == ':') = false := by simpa using name
  have cut : (Text.cut ':' (c :: t)).1 = c :: t.takeWhile (· != ':') := by simp [Text.cut, name]
  have trimmed : Text.trim (c :: Text.trimRight (t.takeWhile (· != ':'))) =
      Text.trim (c :: t.takeWhile (· != ':')) := Text.trim_append_trimRight [c] _
  rw [naming, name', if_neg (by simp), Option.map_some, ofCaptures, capture_name,
    capture_described name _ rfl, cut]
  simp only [ofParts?, trimmed, Text.trim_trim]

/-- There is no name at the end of the line or in front of a colon. -/
def nameless (t : Text) : Bool := t.isEmpty || t.head? == some ':'

theorem naming_of_nameless {t : Text} (nameless_ : nameless t = true) (cs : Captures) :
    naming t cs = none := by
  cases t with
  | nil => rfl
  | cons c t =>
      have colon : c = ':' := by simpa [nameless] using nameless_
      simp [naming, colon]

/-- One character of white space is a name that is trimmed away. -/
theorem ofCaptures_naming_blank {c : Char} {t : Text} (blank : Text.isBlankChar c = true)
    (nameless_ : nameless t = true) : (naming (c :: t) []).map ofCaptures = some none := by
  have name : c ≠ ':' := by
    rintro rfl
    cases blank
  have cut : (Text.cut ':' (c :: t)).1 = [c] := by
    cases t with
    | nil => simp [Text.cut, name]
    | cons d t =>
        have colon : d = ':' := by simpa [nameless] using nameless_
        simp [Text.cut, name, colon]
  rw [ofCaptures_naming name, cut, ofParts?, Text.trim_cons_of_blank blank]
  rfl

/-- **The white space behind the keyword** goes as far as it can; without a name behind it, its last
character becomes the name, unless it is needed to set off the keyword. -/
theorem ofCaptures_ways {s : Spot} {g : Spot → Option Captures}
    (value : ∀ s' ∈ s.ways Text.isBlankChar, g s' = naming s'.rest []) :
    ((s.ways Text.isBlankChar).reverse.findSome? g).map ofCaptures =
      if nameless (s.rest.dropWhile Text.isBlankChar) then
        if (s.rest.takeWhile Text.isBlankChar).isEmpty then none else some none
      else
        let parts := Text.cut ':' (s.rest.dropWhile Text.isBlankChar)
        some (ofParts? parts.1 (parts.2.getD [])) := by
  have last : g (s.after Text.isBlankChar) = naming (s.rest.dropWhile Text.isBlankChar) [] := by
    rw [value _ (s.after_mem_ways _), Spot.rest_after]
  split
  · rename_i nameless_
    rw [naming_of_nameless nameless_] at last
    cases front : s.rest with
    | nil =>
        have only : s.ways Text.isBlankChar = [s.after Text.isBlankChar] := by
          simp [Spot.ways, Spot.after, front, Spot.waysFrom, Spot.afterFrom]
        simp [only, last]
    | cons c t =>
        by_cases blank : Text.isBlankChar c = true
        · obtain ⟨earlier, s', d, whole, front', blank'⟩ := s.exists_ways_eq_of_cons front blank
          have found : (g s').map ofCaptures = some none := by
            rw [value s' (by simp [whole]), front', Spot.rest_after]
            exact ofCaptures_naming_blank blank' nameless_
          obtain ⟨cs, captured, named⟩ := Option.map_eq_some_iff.mp found
          simp [whole, last, captured, named, blank]
        · have only : s.ways Text.isBlankChar = [s.after Text.isBlankChar] := by
            simp [Spot.ways, Spot.after, front, Spot.waysFrom, Spot.afterFrom, blank]
          simp [only, last, blank]
  · rename_i named
    cases body : s.rest.dropWhile Text.isBlankChar with
    | nil => simp [body, nameless] at named
    | cons c t =>
        have name : c ≠ ':' := by simpa [body, nameless] using named
        have found := ofCaptures_naming (t := t) name
        rw [body] at last
        rw [findSome?_reverse_ways_of_isSome, last, found]
        rw [last, ← Option.isSome_map (f := ofCaptures), found]
        rfl

/-- A name that is not blank does not vanish in lower case. -/
theorem ofParts?_of_solid {name : Text} (solid : Text.trim name ≠ []) (description : Text) :
    ofParts? name description = some ⟨Text.lower (Text.trim name), Text.trim description⟩ := by
  have some_ := Text.lower_ne_nil solid
  simp [ofParts?, some_]

theorem ofParts?_cons {c : Char} (solid : Text.isBlankChar c = false) (t description : Text) :
    ofParts? (c :: t) description =
      some ⟨Text.lower (Text.trim (c :: t)), Text.trim description⟩ := by
  refine ofParts?_of_solid ?_ description
  rw [Text.trim, Text.trimLeft, List.dropWhile_cons_of_neg (by simp [solid]),
    Text.trimRight_cons (by simp [Text.isBlank_cons, solid])]
  exact List.cons_ne_nil _ _

/-- The white space behind the keyword, without its first character. -/
theorem afterOccurrence_cons {c : Char} (blank : Text.isBlankChar c = true) (t : Text) :
    afterOccurrence (c :: t) =
      if nameless (t.dropWhile Text.isBlankChar) then
        if (t.takeWhile Text.isBlankChar).isEmpty then none else some none
      else
        let parts := Text.cut ':' (t.dropWhile Text.isBlankChar)
        some (ofParts? parts.1 (parts.2.getD [])) := by
  have single : ((c :: t.takeWhile Text.isBlankChar).length == 1) =
      (t.takeWhile Text.isBlankChar).isEmpty := by
    cases t.takeWhile Text.isBlankChar <;> simp
  rw [afterOccurrence, List.takeWhile_cons_of_pos blank, List.dropWhile_cons_of_pos blank, single]
  cases body : t.dropWhile Text.isBlankChar with
  | nil => simp [nameless]
  | cons d u =>
      have solid : Text.isBlankChar d = false := by
        have := List.head?_dropWhile_not Text.isBlankChar t
        simpa [body] using this
      by_cases colon : d = ':'
      · simp [nameless, colon]
      · have name : (Text.cut ':' (d :: u)).1 = d :: u.takeWhile (· != ':') := by
          simp [Text.cut, colon]
        simp [nameless, colon, name, ofParts?_cons solid]

/-- **What stands behind the keyword.** -/
theorem run_afterKeyword {size : Nat} {s : Spot} (fits : s.rest.length ≤ size)
    (line : '\n' ∉ s.rest) :
    ((Expr.seq (.rounds 1 none true Language.blankClass) namingExpr).run flags size Captures s []
      accept).map ofCaptures = afterOccurrence s.rest := by
  rw [run_seq, run_plus run_blankClass true fits]
  obtain ⟨past, rest, index⟩ := s
  cases rest with
  | nil => rfl
  | cons c t =>
      by_cases blank : Text.isBlankChar c = true
      · have below : t <:+ c :: t := List.suffix_cons c t
        have gap := ofCaptures_ways (s := ⟨c :: past, t, index + 1⟩)
          (g := fun s' => namingExpr.run flags size Captures s' [] accept) fun s' member => by
            have below' := (Spot.suffix_of_mem_ways member).trans below
            exact run_naming (below'.length_le.trans fits) fun known => line (below'.mem known)
        simp only [Spot.step?, blank, if_true, Option.bind_some]
        rw [gap, afterOccurrence_cons blank]
      · simp [Spot.step?, afterOccurrence, blank]

/-! ## The whole pattern -/

/-- **A match at one place**: the keyword, and what stands behind it. -/
theorem matchAt_annotation {size : Nat} (s : Spot) (fits : s.rest.length ≤ size)
    (line : '\n' ∉ s.rest) :
    (Language.annotationExpr.matchAt flags size s).map ofCaptures =
      (afterKeyword? s.rest).bind afterOccurrence := by
  obtain ⟨s', left, run⟩ : ∃ s' : Spot, s'.rest = s.rest.drop keyword.length ∧
      (spell keyword (.seq (.rounds 1 none true Language.blankClass) namingExpr)).run flags size
        Captures s [] accept = _ := run_spell rfl rfl solitary_keyword s
  rw [Expr.matchAt, annotationExpr_eq, run, afterKeyword?]
  have below : s.rest.drop keyword.length <:+ s.rest := List.drop_suffix _ _
  split
  · rw [run_afterKeyword (left ▸ below.length_le.trans fits)
      (left ▸ fun member => line (below.mem member)), left, Option.bind_some]
  · rfl

/-- **The first match from left to right.** -/
theorem searchFrom_annotation {size : Nat} (past : Text) (index : Nat) {t : Text}
    (fits : t.length ≤ size) (line : '\n' ∉ t) :
    (Language.annotationExpr.searchFrom flags size past index t).map ofCaptures = direct t := by
  induction t generalizing past index with
  | nil =>
      have here := matchAt_annotation { past, rest := [], index } fits line
      rw [Expr.searchFrom, Option.orElse_eq_orElse, Option.orElse_eq_or, Option.or_none, here]
      rfl
  | cons c t ih =>
      have here := matchAt_annotation { past, rest := c :: t, index } fits line
      have later := ih (c :: past) (index + 1) ((Nat.le_succ _).trans fits) fun member =>
        line (List.mem_cons_of_mem c member)
      rw [Expr.searchFrom, direct, Option.orElse_eq_orElse, Option.orElse_eq_or,
        Option.orElse_eq_orElse, Option.orElse_eq_or, ← here, ← later, Option.map_or]

theorem search_packaged {t : Text} (line : '\n' ∉ t) :
    (Language.packaged.pattern.search t).map ofCaptures = direct t :=
  searchFrom_annotation [] 0 (Nat.le_refl _) line

/-- What the packaged pattern finds is read from its two groups. -/
theorem read_of_direct {t : Text} (line : '\n' ∉ t) {found : Option Annotation}
    (direct_ : direct t = some found) (extras : Except Fault (List Pattern)) :
    read Language.packaged.pattern extras t = .ok found := by
  rw [← search_packaged line] at direct_
  obtain ⟨cs, search, rfl⟩ := Option.map_eq_some_iff.mp direct_
  rw [read, search]
  rfl

/-- **What the packaged pattern means.**  The text of the pattern denotes the packaged pattern; and
in a text of one line it finds what `direct` does: the first occurrence of the keyword that is not
passed over has a name and a description, or has no name.  Only where all occurrences are passed
over, the additional patterns are tried in their order. -/
theorem read_eq_direct (extras : Except Fault (List Pattern)) (t : Text) (line : '\n' ∉ t) :
    Pattern.read "@group\\s+([^:]+?)(?:\\s*:\\s*(.*?))?\\s*$" { ignoreCase := true } =
        .ok Language.packaged.pattern ∧
      read Language.packaged.pattern extras t =
        match direct t with
        | some found => .ok found
        | none => do
            match firstMatch? (← extras) t with
            | some (p, cs) => ofMatch p cs
            | none => return none := by
  refine ⟨read_defaultSource, ?_⟩
  cases found : direct t with
  | some a => exact read_of_direct line found extras
  | none =>
      have search : Language.packaged.pattern.search t = none := by
        rwa [← search_packaged line, Option.map_eq_none_iff] at found
      unfold read
      generalize Language.packaged.pattern.search t = matched? at search
      subst search
      rfl

/-- The first occurrence is passed over, because only a single space stands between the keyword and
the colon; the second one decides, and its description keeps the later colon. -/
theorem read_eq_direct_twice :
    let t : Text := "x@group : y @GROUP  Auth > Login \t: one: two "
    '\n' ∉ t ∧ read Language.packaged.pattern (.ok []) t =
      .ok (some ⟨"auth > login".toList, "one: two".toList⟩) := by
  have found : direct "x@group : y @GROUP  Auth > Login \t: one: two ".toList =
      some (some ⟨"auth > login".toList, "one: two".toList⟩) := by decide +kernel
  refine ⟨by decide, ?_⟩
  rw [(read_eq_direct (.ok []) _ (by decide)).2, found]

end CodeAtlas.Scan.Annotation
