/-
# Proofs.Store.Loaded -- what a corpus is like that has been loaded

Loading is lenient, but not everything can come of it.  Of a group that has been loaded (`Loaded`) the
name is not empty, the path is an absolute one in normal form, there are lines and none of them is too
long to be read again, and the place is the one that belongs to the name if that has a delimiter.  The
types of a corpus are distinct, and each has a group (`LoadedCorpus`).

All of this is seen at one record (`loaded_of_readRecord`); a corpus has it because the file it was
loaded from is JSON, which gives sound values only (`loadedCorpus_of_load`).
-/
import CodeAtlas.Proofs.Json.Sound
import CodeAtlas.Proofs.Store.Lenient
import CodeAtlas.Proofs.Value.Shown

namespace CodeAtlas

set_option autoImplicit false

/-! ## Paths -/

/-- An absolute path in normal form, made of names. -/
structure Path.Settled (p : Path) : Prop where
  wellFormed : p.WellFormed
  absolute : p.isAbsolute = true
  names : ∀ c ∈ p.parts, c ≠ ".."

theorem Path.Settled.ofText_toText {p : Path} (settled : p.Settled) : Path.ofText p.toText = p :=
  Path.ofText_toText settled.wellFormed

theorem Path.Settled.normalize {p : Path} (settled : p.Settled) : p.normalize = p :=
  Path.normalize_of_names settled.names

/-- The normal form of what is seen from an absolute path. -/
theorem Path.settled_normalize_append {p q : Path} (wellFormed : p.WellFormed)
    (wellFormed' : q.WellFormed) (absolute : p.isAbsolute = true) : (p ++ q).normalize.Settled := by
  have joined : (p ++ q).WellFormed ∧ (p ++ q).isAbsolute = true := by
    show (Path.append p q).WellFormed ∧ (Path.append p q).isAbsolute = true
    unfold Path.append
    by_cases absolute' : q.isAbsolute = true
    · rw [if_pos absolute']
      exact ⟨wellFormed', absolute'⟩
    · rw [if_neg absolute']
      refine ⟨⟨wellFormed.root, ?_⟩, absolute⟩
      intro c member
      rcases List.mem_append.mp member with here | there
      · exact wellFormed.parts c here
      · exact wellFormed'.parts c there
  refine ⟨⟨joined.1.root, ?_⟩, joined.2, ?_⟩
  · intro c member
    exact joined.1.parts c (Path.mem_normalize joined.2 member).1
  · intro c member
    exact (Path.mem_normalize joined.2 member).2

/-! ## Lines -/

namespace LineRanges

theorem brief_of_ofMember {v : Value} (sound : Json.Sound v) {ns : List Int}
    (read : ofMember v = .ok ns) : ∀ n ∈ ns, Brief n := by
  cases sound with
  | int n short =>
      cases read
      intro m member
      rw [List.mem_singleton.mp member]
      exact short
  | text t =>
      unfold ofMember at read
      dsimp only at read
      by_cases digitLike : Text.isDigitLikeText (Text.trim t) = true
      · rw [if_pos digitLike] at read
        obtain ⟨n, number, rfl⟩ := Run.map_eq_ok_iff.mp read
        intro m member
        rw [List.mem_singleton.mp member]
        unfold readInteger at number
        split at number
        · rename_i read
          cases number
          exact Number.length_showNat_of_readInt read
        · cases number
      · rw [if_neg digitLike] at read
        cases read
        simp
  | _ =>
      cases read
      simp

/-- **No line that is read from a data file is too long to be read again.** -/
theorem brief_of_ofValue {v : Value} (sound : Json.Sound v) {ns : List Int}
    (read : ofValue v = .ok ns) : ∀ n ∈ ns, Brief n := by
  cases sound with
  | text t =>
      obtain ⟨⟨⟩, -, rfl⟩ := Run.map_eq_ok_iff.mp read
      exact fun n => brief_of_mem_decode
  | list members =>
      apply Run.of_foldlM_eq_ok read
      · intro v inside before after brief step n member
        obtain ⟨new, listed, rfl⟩ := Run.map_eq_ok_iff.mp step
        rcases List.mem_append.mp member with old | fresh
        · exact brief n old
        · exact brief_of_ofMember (members v inside) listed n fresh
      · simp
  | _ =>
      cases read
      simp

end LineRanges

namespace Store

variable {s : Store}

/-! ## One record -/

/-- **A group as it comes out of a file.** -/
structure Loaded (g : Group) : Prop where
  name : g.functionality ≠ []
  path : ∃ p : Path, p.Settled ∧ g.filePath = p.toText
  lines : g.lines ≠ []
  brief : ∀ n ∈ g.lines, LineRanges.Brief n
  place : g.place = loadedPlace g.functionality

theorem shown_ne_nil_of_solidMember? {e : Entries Value} {key : Text} {v : Value}
    (found : solidMember? e key = some v) : v.shown ≠ [] := by
  obtain ⟨u, -, solid⟩ := Option.bind_eq_some_iff.mp found
  unfold Value.solid? at solid
  split at solid
  · cases solid
  · rename_i full
    cases solid
    exact Value.shown_ne_nil (Bool.eq_false_iff.mpr full)

/-- A member of a sound table is sound, and so is nothing. -/
theorem sound_getD {e : Entries Value} (sound : Json.Sound (.table e)) (key : Text) :
    Json.Sound ((e.get? key).getD .null) := by
  cases sound with
  | table _ members =>
      cases found : e.get? key with
      | none => exact .null
      | some v => exact members (key, v) (Entries.mem_of_get? found)

theorem loaded_of_readRecord (absolute : s.workspace.isAbsolute = true)
    (wellFormed : s.workspace.WellFormed) {v : Value} (sound : Json.Sound v) {g : Group}
    (read : s.readRecord v = .ok (some g)) : Loaded g := by
  cases v with
  | table e =>
      unfold readRecord at read
      dsimp only [Value.table?] at read
      split at read
      · rename_i functionality filePath name path
        obtain ⟨lines, listed, read⟩ := Run.bind_eq_ok_iff.mp read
        split at read
        · cases read
        · rename_i some_
          cases read
          have settled : (s.workspace ++ Path.ofText filePath.shown).normalize.Settled :=
            Path.settled_normalize_append wellFormed (Path.wellFormed_ofText _) absolute
          have name' := shown_ne_nil_of_solidMember? name
          have lines' : lines ≠ [] := by simpa using some_
          have brief := LineRanges.brief_of_ofValue (sound_getD sound "lineNumbers") listed
          unfold group
          by_cases delimited : functionality.shown.contains Hierarchy.delimiter = true
          · rw [if_pos delimited]
            refine ⟨name', ⟨_, settled, rfl⟩, lines', brief, ?_⟩
            show Hierarchy.Place.ofName functionality.shown = loadedPlace functionality.shown
            rw [loadedPlace, if_pos delimited]
          · rw [if_neg delimited]
            refine ⟨name', ⟨_, settled, rfl⟩, lines', brief, ?_⟩
            show Hierarchy.Place.none = loadedPlace functionality.shown
            rw [loadedPlace, if_neg delimited]
      · cases read
  | _ => cases read

theorem loaded_of_found? (absolute : s.workspace.isAbsolute = true)
    (wellFormed : s.workspace.WellFormed) {v : Value} (sound : Json.Sound v) {g : Group}
    (found : s.found? v = some g) : Loaded g := by
  unfold found? at found
  split at found
  · rename_i read
    exact loaded_of_readRecord absolute wellFormed sound (found ▸ read)
  · cases found

/-! ## A corpus -/

/-- **A corpus as it comes out of a file.** -/
structure LoadedCorpus (c : Corpus) : Prop where
  distinct : c.keys.Nodup
  some_ : ∀ e ∈ c, e.2 ≠ []
  groups : ∀ e ∈ c, ∀ g ∈ e.2, Loaded g

theorem foundUnder?_eq_some {m : Text × Value} {e : Text × List Group}
    (found : s.foundUnder? m = some e) :
    e.1 = m.1 ∧ e.2 ≠ [] ∧ e.2 = (recordsOf m.2).filterMap s.found? := by
  unfold foundUnder? under? at found
  split at found
  · cases found
  · rename_i some_
    cases found
    exact ⟨rfl, by simpa using some_, rfl⟩

theorem sound_of_mem_recordsOf {u v : Value} (sound : Json.Sound u) (member : v ∈ recordsOf u) :
    Json.Sound v := by
  cases sound with
  | list members => exact members v member
  | _ => cases member

/-- The keys of what is found are keys of the file, in their order. -/
theorem keys_filterMap_foundUnder? (s : Store) (members : Entries Value) :
    (Entries.keys (members.filterMap s.foundUnder?)).Sublist (Entries.keys members) := by
  induction members with
  | nil => exact List.Sublist.slnil
  | cons m members ih =>
      rw [List.filterMap_cons]
      cases found : s.foundUnder? m with
      | none => exact ih.cons _
      | some e =>
          show (e.1 :: Entries.keys (members.filterMap s.foundUnder?)).Sublist
            (m.1 :: Entries.keys members)
          rw [(foundUnder?_eq_some found).1]
          exact ih.cons_cons _

/-- **What has been loaded.** -/
theorem loadedCorpus_of_load (absolute : s.workspace.isAbsolute = true)
    (wellFormed : s.workspace.WellFormed) {t : FileTree} {c : Corpus}
    (loaded : s.load t = .ok (some c)) : LoadedCorpus c := by
  obtain ⟨members, stored⟩ := stored_of_load loaded
  obtain rfl := eq_filterMap_of_load stored loaded
  obtain ⟨text, -, read⟩ := stored
  cases Json.sound_of_read read with
  | table distinct sound =>
      refine ⟨distinct.sublist (s.keys_filterMap_foundUnder? members), ?_, ?_⟩
      · intro e member
        obtain ⟨m, -, found⟩ := List.mem_filterMap.mp member
        exact (foundUnder?_eq_some found).2.1
      · intro e member g inside
        obtain ⟨m, known, found⟩ := List.mem_filterMap.mp member
        rw [(foundUnder?_eq_some found).2.2] at inside
        obtain ⟨v, record, found⟩ := List.mem_filterMap.mp inside
        have sound' := sound_of_mem_recordsOf (sound m known) record
        exact loaded_of_found? absolute wellFormed sound' found

end Store

end CodeAtlas
