/-
# Proofs.Corpus -- a corpus as the list of its groups with their types

What a corpus says, apart from the order of its types, is the list of its groups, each with the type
it is under (`tagged`).  Adding groups to a type puts them into that list at one place
(`exists_tagged_add`), restricting a corpus filters it (`tagged_restrict`), and a new scan of one file
does both (`exists_tagged_replaceFile`).  When no type occurs twice, the groups of a type are those of
the list that have it (`filter_tagged`).

A corpus is *compact* when no type occurs twice and none is without groups.  Whatever is restricted is
compact, and so is every corpus after a new scan of a file (`compact_replaceFile`).  Two compact corpora
with the same list have the same types with the same groups, whatever the order (`Compact.rel_get?`).
-/
import CodeAtlas.Corpus
import CodeAtlas.Proofs.Entries
import Mathlib.Data.List.Perm.Basic

namespace CodeAtlas.Corpus

set_option autoImplicit false

variable {c c' : Corpus} {fileType : Text} {g : Group} {gs : List Group}

/-- Every group with the type it is under. -/
def tagged (c : Corpus) : List (Text × Group) := c.flatMap fun e => e.2.map (e.1, ·)

theorem tagged_cons (e : Text × List Group) (c : Corpus) :
    tagged (e :: c) = e.2.map (e.1, ·) ++ tagged c := rfl

theorem groups_eq_map_tagged (c : Corpus) : c.groups = c.tagged.map Prod.snd := by
  simp [groups, tagged, List.map_flatMap, Function.comp_def]

theorem mem_tagged : (fileType, g) ∈ c.tagged ↔ ∃ e ∈ c, e.1 = fileType ∧ g ∈ e.2 := by
  simp only [tagged, List.mem_flatMap, List.mem_map, Prod.mk.injEq]
  constructor
  · rintro ⟨e, member, g', inside, rfl, rfl⟩
    exact ⟨e, member, rfl, inside⟩
  · rintro ⟨e, member, rfl, inside⟩
    exact ⟨e, member, g, inside, rfl, rfl⟩

/-! ## Adding and removing groups -/

/-- More groups at the end of a type. -/
def add (c : Corpus) (fileType : Text) (gs : List Group) : Corpus :=
  Entries.alter c fileType fun old => old.getD [] ++ gs

/-- The groups that are added come at one place. -/
theorem exists_tagged_add (c : Corpus) (fileType : Text) (gs : List Group) :
    ∃ front back, c.tagged = front ++ back ∧
      (c.add fileType gs).tagged = front ++ gs.map (fileType, ·) ++ back := by
  induction c with
  | nil => exact ⟨[], [], rfl, by simp [add, Entries.alter, tagged]⟩
  | cons e c ih =>
      rw [add, Entries.alter_cons]
      split
      · rename_i same
        subst same
        refine ⟨e.2.map (e.1, ·), tagged c, rfl, ?_⟩
        rw [tagged_cons, Option.getD_some, List.map_append]
      · obtain ⟨front, back, before, after⟩ := ih
        refine ⟨e.2.map (e.1, ·) ++ front, back, ?_, ?_⟩
        · rw [tagged_cons, before, List.append_assoc]
        · rw [tagged_cons, ← add, after, List.append_assoc, List.append_assoc, List.append_assoc]

theorem tagged_add (c : Corpus) (fileType : Text) (gs : List Group) :
    (c.add fileType gs).tagged.Perm (c.tagged ++ gs.map (fileType, ·)) := by
  obtain ⟨front, back, before, after⟩ := exists_tagged_add c fileType gs
  rw [before, after, List.append_assoc, List.append_assoc]
  exact List.perm_append_comm.append_left front

theorem tagged_restrict (c : Corpus) (p : Group → Bool) :
    (c.restrict p).tagged = c.tagged.filter fun t => p t.2 := by
  induction c with
  | nil => rfl
  | cons e c ih =>
      have rest : (restrict c p).tagged = (tagged c).filter fun t => p t.2 := ih
      have here : (e.2.map (e.1, ·)).filter (fun t : Text × Group => p t.2) =
          (e.2.filter p).map (e.1, ·) := by
        rw [List.filter_map]
        rfl
      rw [tagged_cons, List.filter_append, here, ← rest, restrict, restrict, List.map_cons,
        List.filter_cons]
      split
      · rfl
      · rename_i hollow
        have nothing : e.2.filter p = [] := by simpa using hollow
        rw [nothing]
        rfl

/-- Nothing is left out of a corpus in which every type has groups and all groups satisfy the
condition. -/
theorem restrict_eq_self {p : Group → Bool} (solid : ∀ e ∈ c, e.2 ≠ [])
    (all : ∀ e ∈ c, ∀ g ∈ e.2, p g = true) : c.restrict p = c := by
  have same : (c.map fun e => (e.1, e.2.filter p)) = c := by
    refine (List.map_congr_left fun e member => ?_).trans (List.map_id c)
    rw [List.filter_eq_self.mpr (all e member)]
    rfl
  rw [restrict, same, List.filter_eq_self]
  exact fun e member => by simpa using solid e member

/-- Leaving out types leaves out their groups. -/
theorem tagged_filter (c : Corpus) (p : Text → Bool) :
    tagged (c.filter fun e => p e.1) = c.tagged.filter fun t => p t.1 := by
  induction c with
  | nil => rfl
  | cons e c ih =>
      have here (all : ∀ t ∈ e.2.map (e.1, ·), p t.1 = p e.1) :
          (e.2.map (e.1, ·)).filter (fun t : Text × Group => p t.1) =
            if p e.1 then e.2.map (e.1, ·) else [] := by
        split <;> rename_i kept
        · exact List.filter_eq_self.mpr fun t member => (all t member).trans kept
        · exact List.filter_eq_nil_iff.mpr fun t member => by rwa [all t member]
      rw [tagged_cons, List.filter_append, ← ih, here (by simp), List.filter_cons]
      split <;> rfl

theorem tagged_map (c : Corpus) (f : Group → Group) :
    tagged (c.map fun e => (e.1, e.2.map f)) = c.tagged.map (Prod.map id f) := by
  simp [tagged, List.map_flatMap, List.flatMap_map, Function.comp_def]

/-- When no type occurs twice, the groups of the list that have a type are those under it. -/
theorem filter_tagged (distinct : c.keys.Nodup) (fileType : Text) :
    (c.tagged.filter (·.1 == fileType)).map Prod.snd = (c.get? fileType).getD [] := by
  induction c with
  | nil => rfl
  | cons e c ih =>
      obtain ⟨key, gs⟩ := e
      rw [Entries.keys_cons, List.nodup_cons] at distinct
      rw [tagged_cons, List.filter_append, List.map_append, ih distinct.2, Entries.get?_cons]
      by_cases same : fileType = key
      · have absent : Entries.get? c fileType = none :=
          Entries.get?_eq_none_iff.mpr (same ▸ distinct.1)
        rw [if_pos same, absent]
        simp [List.filter_map, Function.comp_def, same]
      · simp [List.filter_map, Function.comp_def, same, Ne.symm same]

/-! ## Compact corpora -/

/-- Every type occurs once and has groups. -/
structure Compact (c : Corpus) : Prop where
  nodup : c.keys.Nodup
  solid : ∀ e ∈ c, e.2 ≠ []

theorem compact_nil : Compact [] := ⟨List.nodup_nil, by simp⟩

theorem Compact.add (compact : Compact c) (some_ : gs ≠ []) : Compact (c.add fileType gs) := by
  refine ⟨Entries.nodup_keys_alter compact.nodup _ _, fun e member => ?_⟩
  rcases Entries.of_mem_alter compact.nodup member with rfl | before
  · simp [some_]
  · exact compact.solid e before

theorem compact_restrict (distinct : c.keys.Nodup) (p : Group → Bool) : Compact (c.restrict p) := by
  constructor
  · have keys : Entries.keys (c.map fun e => (e.1, e.2.filter p)) = c.keys := Entries.keys_map c _
    exact (keys ▸ distinct).sublist (List.filter_sublist.map Prod.fst)
  · intro e member
    simpa using (List.mem_filter.mp member).2

/-- **The groups of a type are those of the list that have it.** -/
theorem Compact.get?_eq (compact : Compact c) (fileType : Text) :
    c.get? fileType =
      let gs := (c.tagged.filter (·.1 == fileType)).map Prod.snd
      if gs = [] then none else some gs := by
  dsimp only
  rw [filter_tagged compact.nodup]
  cases found : c.get? fileType with
  | none => simp
  | some gs => simp [compact.solid _ (Entries.mem_of_get? found)]

/-- **Compact corpora with the same groups have the same types**, each with the same groups in some
order.  Groups are compared by what `f` keeps of them. -/
theorem Compact.rel_get? {α : Type} (compact : Compact c) (compact' : Compact c') (f : Group → α)
    (perm : (c.tagged.map (Prod.map id f)).Perm (c'.tagged.map (Prod.map id f))) (fileType : Text) :
    Option.Rel (fun gs gs' : List Group => (gs.map f).Perm (gs'.map f)) (c.get? fileType)
      (c'.get? fileType) := by
  have pick : ∀ ts : List (Text × Group),
      ((ts.map (Prod.map id f)).filter (·.1 == fileType)).map Prod.snd =
        ((ts.filter (·.1 == fileType)).map Prod.snd).map f := by
    intro ts
    simp [List.filter_map, Function.comp_def]
  have groups := (perm.filter (·.1 == fileType)).map Prod.snd
  rw [pick, pick] at groups
  rw [compact.get?_eq, compact'.get?_eq]
  dsimp only
  revert groups
  generalize (c.tagged.filter (·.1 == fileType)).map Prod.snd = gs
  generalize (c'.tagged.filter (·.1 == fileType)).map Prod.snd = gs'
  intro groups
  by_cases empty : gs = []
  · have empty' : gs' = [] := by simpa [empty] using groups
    rw [if_pos empty, if_pos empty']
    exact .none
  · have some_ : gs' ≠ [] := by
      rintro rfl
      simp [empty] at groups
    rw [if_neg empty, if_neg some_]
    exact .some groups

/-! ## A new scan of one file -/

theorem compact_replaceFile (distinct : c.keys.Nodup) (filePath fileType : Text)
    (gs : List Group) : Compact (c.replaceFile filePath fileType gs) := by
  rw [replaceFile]
  split
  · exact compact_restrict distinct _
  · rename_i some_
    exact (compact_restrict distinct _).add (by simpa using some_)

/-- **A new scan of one file** takes its groups out and puts the new ones in at one place. -/
theorem exists_tagged_replaceFile (c : Corpus) (filePath fileType : Text) (gs : List Group) :
    ∃ front back, c.tagged.filter (·.2.filePath != filePath) = front ++ back ∧
      (c.replaceFile filePath fileType gs).tagged = front ++ gs.map (fileType, ·) ++ back := by
  rw [replaceFile, ← tagged_restrict c (·.filePath != filePath)]
  split
  · rename_i none_
    rw [List.isEmpty_iff] at none_
    exact ⟨_, [], (List.append_nil _).symm, by simp [none_]⟩
  · exact exists_tagged_add _ fileType gs

theorem tagged_replaceFile (c : Corpus) (filePath fileType : Text) (gs : List Group) :
    (c.replaceFile filePath fileType gs).tagged.Perm
      (c.tagged.filter (·.2.filePath != filePath) ++ gs.map (fileType, ·)) := by
  obtain ⟨front, back, before, after⟩ := exists_tagged_replaceFile c filePath fileType gs
  rw [before, after, List.append_assoc, List.append_assoc]
  exact List.perm_append_comm.append_left front

end CodeAtlas.Corpus
