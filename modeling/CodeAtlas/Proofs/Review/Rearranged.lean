/-
# Proofs.Review.Rearranged -- a review does not depend on the order of the names

Two issues agree if they say the same, apart from the order inside their lists and from which of the
names they are about comes first (`Issue.Agrees`).  An issue about a single name agrees with no other
than itself in anything but that order.

Each check finds agreeing issues whatever order the names come in (`check_matches`).  The checks that
look at one name at a time find the same issues.  Duplicates and conventions are collected under
keys, and what is collected from rearranged names is rearranged only.  Similar names are looked for
pair by pair, and a pair may come up turned round, which is why the similarity has to be the same in
both orders.  A check can fail, on the times of some file; then it fails in every order, perhaps with
another fault.

The checks come one after the other in either review, so only the order of the issues of one check
can differ (`issues_rearranged`).
-/
import CodeAtlas.Proofs.Review.Names
import CodeAtlas.Proofs.Run

namespace CodeAtlas.Review

set_option autoImplicit false

variable {o : Options} {c : Clock} {ds ds' : Definitions} {k : Kind} {i j : Issue}

/-! ## Issues that agree -/

/-- **The issues say the same**, apart from the order in which they list what they are about. -/
structure Issue.Agrees (i j : Issue) : Prop where
  kind : i.kind = j.kind
  severity : i.severity = j.severity
  affected : i.affected.Perm j.affected
  locations : i.locations.Perm j.locations
  metrics : i.metrics = j.metrics
  /-- Only one of several names may come first in the other issue. -/
  group : i.kind ∉ [Kind.duplicate, .similar] → i.group = j.group
  message : i.kind ≠ .similar → i.message = j.message
  suggestion : i.kind ∉ [Kind.duplicate, .inconsistentNaming] → i.suggestion = j.suggestion

theorem Issue.Agrees.refl (i : Issue) : i.Agrees i :=
  ⟨rfl, rfl, .refl _, .refl _, rfl, fun _ => rfl, fun _ => rfl, fun _ => rfl⟩

/-! ## Names that are one name -/

theorem groupsOf_of_perm (distinct : ds.keys.Nodup) (perm : ds.Perm ds') (name : Text) :
    groupsOf ds name = groupsOf ds' name := by
  rw [groupsOf, groupsOf, Entries.get?_of_perm distinct perm]

theorem agrees_duplicateIssue (distinct : ds.keys.Nodup) (perm : ds.Perm ds')
    {names names' : List Text} (same : names.Perm names') :
    (duplicateIssue ds names).Agrees (duplicateIssue ds' names') := by
  have places : (names.flatMap fun name => locations (groupsOf ds name)).Perm
      (names'.flatMap fun name => locations (groupsOf ds' name)) := by
    simp only [groupsOf_of_perm distinct perm]
    exact same.flatMap_right _
  constructor
  · rfl
  · rfl
  · exact same
  · exact places
  · simp only [duplicateIssue, places.length_eq]
  · intro other
    simp [duplicateIssue] at other
  · intro _
    simp only [duplicateIssue, same.length_eq]
  · intro other
    simp [duplicateIssue] at other

theorem duplicates_correspond (distinct : ds.keys.Nodup) (perm : ds.Perm ds') :
    Corresponds Issue.Agrees (duplicates ds) (duplicates ds') := by
  have spelled : Corresponds (fun e e' => e.1 = e'.1 ∧ e.2.Perm e'.2) (spellings ds)
      (spellings ds') := Entries.corresponds_collected folded id (perm.map Prod.fst)
  have names : Corresponds List.Perm (Entries.values (spellings ds))
      (Entries.values (spellings ds')) := spelled.map fun _ _ same => same.2
  apply Corresponds.map (R := List.Perm)
  · apply names.filter
    intro ns ns' same
    rw [same.length_eq]
  · intro ns ns' same
    exact agrees_duplicateIssue distinct perm same

/-! ## Names that are alike -/

theorem agrees_similarIssue (a b : Text × List Group) (similarity : Float) :
    (similarIssue a b similarity).Agrees (similarIssue b a similarity) := by
  have places : (locations a.2 ++ locations b.2).Perm (locations b.2 ++ locations a.2) :=
    List.perm_append_comm
  constructor
  · rfl
  · rfl
  · exact List.Perm.swap _ _ _
  · exact places
  · simp only [similarIssue, places.length_eq]
  · intro other
    simp [similarIssue] at other
  · intro other
    simp [similarIssue] at other
  · intro _
    rfl

/-- A pair has an issue in either order, or in neither. -/
theorem similarPair?_swap (threshold : Float) (a b : Text × List Group) :
    Option.Rel Issue.Agrees (similarPair? threshold a b) (similarPair? threshold b a) := by
  simp only [similarPair?, BEq.comm (a := folded b.1), Naming.similarity_comm b.1 a.1]
  split
  · exact .none
  split
  · exact .none
  · exact .some (agrees_similarIssue a b _)

theorem similar_corresponds (o : Options) (perm : ds.Perm ds') :
    Corresponds Issue.Agrees (similar o ds) (similar o ds') := by
  apply Corresponds.filterMap (Text.corresponds_pairs perm)
  rintro p q (rfl | rfl)
  · cases similarPair? o.similarity p.1 p.2 with
    | none => exact .none
    | some i => exact .some (.refl i)
  · exact similarPair?_swap _ _ _

/-! ## Groups left alone -/

theorem orphaned_matches (o : Options) (c : Clock) (perm : ds.Perm ds') :
    Run.Matches List.Perm (orphaned o c ds) (orphaned o c ds') :=
  (Run.matches_mapM_of_perm perm (orphan? o c)).map fun _ _ found => found.filterMap id

/-! ## Naming conventions -/

/-- Each name with each convention that it follows. -/
def following (names : List Text) : List (Text × Text) :=
  names.flatMap fun name => (conventions.filter fun convention => convention.2 name).map (·.1, name)

theorem followers_eq (names : List Text) :
    followers names = Entries.collected Prod.fst Prod.snd (following names) := by
  simp only [followers, Entries.collected, following, List.foldl_flatMap, List.foldl_map]

theorem significant_corresponds {names names' : List Text} (perm : names.Perm names') :
    Corresponds (fun e e' => e.1 = e'.1 ∧ e.2.Perm e'.2) (significant names)
      (significant names') := by
  rw [significant, significant, followers_eq, followers_eq]
  apply Corresponds.filter (Entries.corresponds_collected _ _ (perm.flatMap_right _))
  intro e e' same
  rw [same.2.length_eq]

theorem inconsistentNaming_corresponds (perm : ds.Perm ds') :
    Corresponds Issue.Agrees (inconsistentNaming ds) (inconsistentNaming ds') := by
  have found : Corresponds (fun e e' => e.1 = e'.1 ∧ e.2.Perm e'.2) (significant ds.keys)
      (significant ds'.keys) := significant_corresponds (perm.map Prod.fst)
  have affected : ((significant ds.keys).flatMap Prod.snd).Perm
      ((significant ds'.keys).flatMap Prod.snd) := found.flatMap_perm fun _ _ same => same.2
  simp only [inconsistentNaming]
  rw [← found.length_eq]
  split
  · exact .of_forall₂ .nil
  · apply Corresponds.cons ?_ (.of_forall₂ .nil)
    constructor
    · rfl
    · rfl
    · exact affected
    · exact .nil
    · simp only [affected.length_eq]
    · intro _
      rfl
    · intro _
      rfl
    · intro other
      simp at other

/-! ## The review -/

theorem kind_of_orphan? {d : Text × List Group} (run : orphan? o c d = .ok (some i)) :
    i.kind = .orphaned := by
  simp only [orphan?] at run
  split at run
  · cases run
  obtain ⟨limit, -, rest⟩ := Run.bind_eq_ok_iff.mp run
  split at rest
  · cases rest
  split at rest
  · cases rest
  obtain ⟨span, -, rest⟩ := Run.bind_eq_ok_iff.mp rest
  obtain ⟨days, -, found⟩ := Run.bind_eq_ok_iff.mp rest
  cases found
  rfl

/-- The issues that a check finds are of its kind. -/
theorem kind_of_mem_check {is : List Issue} (run : check o c ds k = .ok is) (member : i ∈ is) :
    i.kind = k := by
  cases k with
  | duplicate =>
      cases run
      obtain ⟨names, -, rfl⟩ := List.mem_map.mp member
      rfl
  | similar =>
      cases run
      obtain ⟨p, -, found⟩ := List.mem_filterMap.mp member
      obtain ⟨-, -, rfl⟩ := similarPair?_eq_some_iff.mp found
      rfl
  | orphaned =>
      obtain ⟨found, ran, rfl⟩ := Run.map_eq_ok_iff.mp run
      obtain ⟨i?, inside, rfl⟩ := List.mem_filterMap.mp member
      obtain ⟨d, -, here⟩ := Run.exists_of_mem_mapM ran inside
      exact kind_of_orphan? here
  | inconsistentNaming =>
      cases run
      simp only [inconsistentNaming] at member
      split at member
      · cases member
      · obtain rfl := List.mem_singleton.mp member
        rfl
  | singleUse =>
      cases run
      obtain ⟨d, -, found⟩ := List.mem_filterMap.mp member
      rw [singleUse?] at found
      split at found
      · cases found
      · cases found
        rfl
  | tooLarge =>
      cases run
      obtain ⟨d, -, found⟩ := List.mem_filterMap.mp member
      rw [tooLarge?] at found
      split at found
      · cases found
      · cases found
        rfl
  | tooSmall =>
      cases run
      obtain ⟨d, -, found⟩ := List.mem_filterMap.mp member
      rw [tooSmall?] at found
      split at found
      · cases found
      split at found
      · cases found
      · cases found
        rfl

/-- **Each check finds agreeing issues** in any order of the names, or fails in any. -/
theorem check_matches (o : Options) (c : Clock) (k : Kind) (distinct : ds.keys.Nodup)
    (perm : ds.Perm ds') :
    Run.Matches (Corresponds Issue.Agrees) (check o c ds k) (check o c ds' k) := by
  cases k with
  | duplicate => exact duplicates_correspond distinct perm
  | similar => exact similar_corresponds o perm
  | orphaned => exact (orphaned_matches o c perm).imp fun _ _ _ _ => .of_perm .refl
  | inconsistentNaming => exact inconsistentNaming_corresponds perm
  | singleUse => exact .of_perm Issue.Agrees.refl (perm.filterMap _)
  | tooLarge => exact .of_perm Issue.Agrees.refl (perm.filterMap _)
  | tooSmall => exact .of_perm Issue.Agrees.refl (perm.filterMap _)

/-- The reviews say the same: their issues agree one to one, and the kinds come in the same order. -/
def SayTheSame (is js : List Issue) : Prop :=
  is.map (·.kind) = js.map (·.kind) ∧ Corresponds Issue.Agrees is js

/-- What the checks find, put together, says the same if it does check by check. -/
theorem sayTheSame_flatten {found found' : List (List Issue)}
    (each : List.Forall₂ SayTheSame found found') : SayTheSame found.flatten found'.flatten := by
  constructor
  · induction each with
    | nil => rfl
    | cons here _ ih =>
        rw [List.flatten_cons, List.flatten_cons, List.map_append, List.map_append, here.1, ih]
  · exact .flatten (each.imp fun _ _ both => both.2)

/-- **A review does not depend on the order of the names.**  With the names in another order it finds
issues that agree with those it found before, each with one of them, and the checks come in the same
order; or it fails in both orders. -/
theorem issues_rearranged (o : Options) (c : Clock) (distinct : ds.keys.Nodup)
    (perm : ds.Perm ds') :
    Run.Matches SayTheSame (issues o c ds) (issues o c ds') := by
  rw [issues, issues]
  refine Run.Matches.map (R := List.Forall₂ SayTheSame) ?_ fun _ _ => sayTheSame_flatten
  apply Run.matches_mapM
  intro k _
  apply (check_matches o c k distinct perm).imp
  intro is js run run' corr
  refine ⟨?_, corr⟩
  have kinds : ∀ ds is, check o c ds k = .ok is → is.map (·.kind) = List.replicate is.length k := by
    intro ds is run
    rw [List.eq_replicate_iff, List.length_map]
    refine ⟨rfl, fun kind member => ?_⟩
    obtain ⟨i, inside, rfl⟩ := List.mem_map.mp member
    exact kind_of_mem_check run inside
  rw [kinds ds is run, kinds ds' js run', corr.length_eq]

/-- Two spellings of one name and two names that are alike, mixed. -/
def mixedNames : Definitions :=
  ["Login".toList, "databases", "login ", "database"].map fun name =>
    (name, [{ functionality := name, filePath := "a.js", lines := [1] }])

/-- A hundred days after the one file was changed. -/
def hundredDays : Clock := { changed := fun _ => some (.whole 0), now := .whole 8640000 }

/-- In reverse the names of either issue come in the other order, and so do the orphans. -/
theorem issues_rearranged_reversed :
    ∃ is js, issues {} hundredDays mixedNames = .ok is ∧
      issues {} hundredDays mixedNames.reverse = .ok js ∧
      (is.filter (·.kind == .duplicate)).map (·.affected) = [["Login".toList, "login "]] ∧
      (js.filter (·.kind == .duplicate)).map (·.affected) = [["login ".toList, "Login"]] ∧
      SayTheSame is js := by
  have distinct : (Entries.keys mixedNames).Nodup := by decide
  have runs := issues_rearranged {} hundredDays distinct (List.reverse_perm mixedNames).symm
  have spelled : ((issues {} hundredDays mixedNames).toOption.map fun is =>
      (is.filter (·.kind == .duplicate)).map (·.affected)) = some [["Login".toList, "login "]] := by
    decide +kernel
  have reversed : ((issues {} hundredDays mixedNames.reverse).toOption.map fun js =>
      (js.filter (·.kind == .duplicate)).map (·.affected)) = some [["login ".toList, "Login"]] := by
    decide +kernel
  obtain ⟨is, run, affected⟩ := Option.map_eq_some_iff.mp spelled
  obtain ⟨js, run', affected'⟩ := Option.map_eq_some_iff.mp reversed
  rw [Run.toOption_eq_some_iff] at run run'
  rw [run, run'] at runs
  exact ⟨is, js, run, run', affected, affected', runs⟩

end CodeAtlas.Review
