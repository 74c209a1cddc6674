/-
# Proofs.Store.Accepted -- which entries of an index file are taken

The index file should give an entry for each member whose level and count are whole numbers, 0 where
they are missing, and no other (`LoadsAsDocumented`).  What a value counts for as such a number is
its *standing*: whole numbers stand for themselves, truth values, finite floating-point numbers and
texts of digits for one nevertheless, an infinity makes the reading fail, and everything else stands
for nothing (`wholeNumber_eq`).

So a member is taken if its level and its count both stand for a number (`isTaken`), and one that is
taken, or would be, may still be fatal: by an infinity, or by children or file types that are no
sequence (`isFatal`).  An index is loaded exactly if no member is fatal, and then it has the members
that are taken; it is loaded as documented exactly if, beside that, the members that are taken have
whole numbers (`loadIndex_documented_iff`).

As everywhere, a file is what `Json.read` makes of it: a lone surrogate stands for U+FFFD.
-/
import CodeAtlas.Proofs.Store.Lenient
import CodeAtlas.Proofs.Value.Same

namespace CodeAtlas.Store

set_option autoImplicit false

/-! ## Numbers -/

/-- What a value counts for where a whole number is wanted. -/
inductive Standing where
  /-- It is one, or is missing. -/
  | whole (n : Int)
  /-- It is another value that stands for one. -/
  | loose (n : Int)
  /-- It stands for none. -/
  | nothing
  /-- It is too large for one. -/
  | endless
  deriving DecidableEq

namespace Standing

def number? : Standing → Option Int
  | whole n => some n
  | loose n => some n
  | _ => none

def isWhole : Standing → Bool
  | whole _ => true
  | _ => false

/-- What reading a number of this standing gives. -/
def read (s : Standing) : Except Fault (Option Int) :=
  if s = endless then .error .tooLarge else .ok s.number?

end Standing

theorem Standing.read_eq_ok_iff {s : Standing} {n? : Option Int} :
    s.read = .ok n? ↔ s ≠ .endless ∧ n? = s.number? := by
  rw [read]
  split
  · rename_i endless
    simp [endless]
  · rename_i other
    simp [other, eq_comm]

/-- What is done with a number is done unless there is none, and fails if it does, or if the number is
endless. -/
theorem Standing.exists_bind_iff {α : Type} {s : Standing}
    {f : Int → Except Fault (Option α)} :
    (∃ a?, (s.read >>= fun n? => n?.elim (.ok none) f) = .ok a?) ↔
      s ≠ .endless ∧ ∀ n, s.number? = some n → ∃ a?, f n = .ok a? := by
  cases s with
  | nothing => exact iff_of_true ⟨none, rfl⟩ ⟨nofun, nofun⟩
  | endless => exact iff_of_false Run.not_exists_ok fun both => both.1 rfl
  | whole n =>
      change (∃ a?, f n = .ok a?) ↔ _
      simp [number?]
  | loose n =>
      change (∃ a?, f n = .ok a?) ↔ _
      simp [number?]

def standing : Option Value → Standing
  | none => .whole 0
  | some (.int n) => .whole n
  | some (.bool b) => .loose (if b then 1 else 0)
  | some (.float x) =>
      match Number.Dyadic.ofFloat? x with
      | some d => .loose d.truncate
      | none => if x.toFloat.isNaN then .nothing else .endless
  | some (.text t) => (Number.readInt? t).elim .nothing .loose
  | some _ => .nothing

/-- **A number is read by its standing.** -/
theorem wholeNumber_eq (v : Option Value) : wholeNumber v = (standing v).read := by
  rcases v with _ | v
  · rfl
  cases v with
  | float x =>
      rw [wholeNumber, Option.getD_some, Value.toInteger, Value.wholePart, standing]
      cases Number.Dyadic.ofFloat? x with
      | some d => rfl
      | none =>
          dsimp only
          cases x.toFloat.isNaN
          · rfl
          · rfl
  | text t =>
      rw [wholeNumber, Option.getD_some, Value.toInteger, readInteger, standing, Number.readInt?]
      rcases Number.readInt t with cause | n
      · rfl
      · rfl
  | _ => rfl

/-! ## Sequences -/

/-- Can the value be taken for a sequence?  A hollow one is empty. -/
def isListable : Option Value → Bool
  | some (.bool b) => !b
  | some (.int n) => n == 0
  | some (.float x) => x.toFloat == 0.0
  | some (.moment _) => false
  | _ => true

theorem exists_membersOf_iff {v : Option Value} :
    (∃ vs, membersOf v = .ok vs) ↔ isListable v = true := by
  rcases v with _ | v
  · exact iff_of_true ⟨[], rfl⟩ rfl
  -- Only a solid value is asked for its members, and only solid numbers and moments have none.
  have solid : membersOf (some v) =
      if v.isHollow then .ok [] else v.sequence?.elim (.error .wrongKind) .ok := by
    simp only [membersOf, Option.bind_some, Value.solid?]
    by_cases hollow : v.isHollow = true
    · simp only [hollow, if_true]
    · simp only [hollow, Bool.false_eq_true, if_false]
      cases v.sequence? <;> rfl
  rw [solid]
  cases v with
  | bool b => cases b <;> simp [Value.isHollow, Value.sequence?, isListable]
  | int n => by_cases zero : n = 0 <;> simp [Value.isHollow, Value.sequence?, isListable, zero]
  | float x =>
      by_cases zero : (x.toFloat == 0.0) = true <;>
        simp [Value.isHollow, Value.sequence?, isListable, zero]
  | moment m => simp [Value.isHollow, Value.sequence?, isListable]
  | null => exact iff_of_true ⟨[], rfl⟩ rfl
  | _ =>
      refine iff_of_true ?_ rfl
      split
      · exact ⟨_, rfl⟩
      · exact ⟨_, rfl⟩

/-! ## Members -/

/-- The members that an index file has entries for. -/
def membersIn (file : Entries Value) : Entries Value :=
  ((file.get? "functionalities").bind Value.table?).getD []

/-- What a member has in a field, if it is a table. -/
def field? (v : Value) (key : Text) : Option Value := v.table?.bind fun e => Entries.get? e key

/-- What the level and the count of a member count for. -/
def level (v : Value) : Standing := standing (field? v "level")

def groupCount (v : Value) : Standing := standing (field? v "groupCount")

/-- Is the member one that should give an entry: a table with whole numbers? -/
def isDocumented (v : Value) : Bool :=
  v.table?.isSome && (level v).isWhole && (groupCount v).isWhole

/-- Does the member give an entry? -/
def isTaken (v : Value) : Bool :=
  v.table?.isSome && (level v).number?.isSome && (groupCount v).number?.isSome

/-- Does the member keep its file from being loaded?  The count is looked at only if there is a level,
and the sequences only if there is a count, too. -/
def isFatal (v : Value) : Bool :=
  v.table?.isSome &&
    (level v = .endless || (level v).number?.isSome &&
      (groupCount v = .endless || (groupCount v).number?.isSome &&
        !(isListable (field? v "children") && isListable (field? v "fileTypes"))))

/-- **The entry says what its member says**: its path, its level and count, its parent, and its
children and file types as far as they are lists. -/
structure Represents (m : Text × Value) (e : Text × SavedEntry) : Prop where
  path : e.1 = m.1
  level : (level m.2).number? = some e.2.level
  groupCount : (groupCount m.2).number? = some e.2.groupCount
  parent : (field? m.2 "parent").getD .null = e.2.parent
  children : ∀ vs, field? m.2 "children" = some (.list vs) → e.2.children = vs
  fileTypes : ∀ vs, field? m.2 "fileTypes" = some (.list vs) → e.2.fileTypes = vs

/-- **What is read from a table**, given the standing of its level and of its count. -/
theorem readEntry_eq {v : Value} {e : Entries Value} (table : v.table? = some e) :
    readEntry v =
      (level v).read >>= fun level? => level?.elim (.ok none) fun level =>
        (groupCount v).read >>= fun count? => count?.elim (.ok none) fun groupCount =>
          membersOf (field? v "children") >>= fun children =>
            membersOf (field? v "fileTypes") >>= fun fileTypes =>
              .ok (some
                { level, parent := (field? v "parent").getD .null, children, groupCount
                  fileTypes }) := by
  rw [readEntry, level, groupCount, field?, field?, field?, field?, field?, table]
  simp only [wholeNumber_eq, Option.bind_some]
  rcases (standing (e.get? "level")).read with f | _ | n
  · rfl
  · rfl
  rw [Run.ok_bind, Run.ok_bind, Option.elim_some]
  rcases (standing (e.get? "groupCount")).read with f | _ | n'
  · rfl
  · rfl
  · rfl

theorem exists_readEntry_iff {v : Value} : (∃ e?, readEntry v = .ok e?) ↔ isFatal v = false := by
  cases table : v.table? with
  | none =>
      rw [readEntry, isFatal, table]
      exact iff_of_true ⟨none, rfl⟩ rfl
  | some e =>
      have lists : ∀ parts : List Value → List Value → SavedEntry,
          (∃ e?, (membersOf (field? v "children") >>= fun children =>
            membersOf (field? v "fileTypes") >>= fun fileTypes =>
              Except.ok (some (parts children fileTypes))) = .ok e?) ↔
            isListable (field? v "children") = true ∧ isListable (field? v "fileTypes") = true := by
        intro parts
        rw [← exists_membersOf_iff, ← exists_membersOf_iff]
        cases membersOf (field? v "children") with
        | error f => exact iff_of_false Run.not_exists_ok fun both => Run.not_exists_ok both.1
        | ok children =>
            cases membersOf (field? v "fileTypes") with
            | error f => exact iff_of_false Run.not_exists_ok fun both => Run.not_exists_ok both.2
            | ok fileTypes => exact iff_of_true ⟨_, rfl⟩ ⟨⟨_, rfl⟩, _, rfl⟩
      rw [readEntry_eq table, Standing.exists_bind_iff]
      simp only [Standing.exists_bind_iff, lists, isFatal, table]
      generalize isListable (field? v "children") = children
      generalize isListable (field? v "fileTypes") = fileTypes
      cases level v <;> cases groupCount v <;> simp [Standing.number?]

/-- **A member that can be read gives an entry that says what it says**, or it is none that is
taken. -/
theorem represents_of_readEntry (path : Text) {v : Value} {e? : Option SavedEntry}
    (read : readEntry v = .ok e?) :
    (e? = none ∧ isTaken v = false) ∨
      ∃ e, e? = some e ∧ isTaken v = true ∧ Represents (path, v) (path, e) := by
  cases table : v.table? with
  | none =>
      rw [readEntry, table] at read
      cases read
      exact .inl ⟨rfl, by rw [isTaken, table]; rfl⟩
  | some fields =>
      rw [readEntry_eq table, Run.bind_eq_ok_iff] at read
      obtain ⟨level?, here, read⟩ := read
      rw [Standing.read_eq_ok_iff] at here
      cases level? with
      | none =>
          cases read
          exact .inl ⟨rfl, by simp [isTaken, ← here.2]⟩
      | some level =>
          rw [Option.elim_some, Run.bind_eq_ok_iff] at read
          obtain ⟨count?, there, read⟩ := read
          rw [Standing.read_eq_ok_iff] at there
          cases count? with
          | none =>
              cases read
              exact .inl ⟨rfl, by simp [isTaken, ← there.2]⟩
          | some groupCount =>
              obtain ⟨children, listed, read⟩ := Run.bind_eq_ok_iff.mp read
              obtain ⟨fileTypes, listed', read⟩ := Run.bind_eq_ok_iff.mp read
              cases read
              refine .inr ⟨_, rfl, by simp [isTaken, table, ← here.2, ← there.2], ?_⟩
              refine ⟨rfl, here.2.symm, there.2.symm, rfl, ?_, ?_⟩
              · intro vs is
                rw [is, membersOf_list] at listed
                exact (Except.ok.inj listed).symm
              · intro vs is
                rw [is, membersOf_list] at listed'
                exact (Except.ok.inj listed').symm

/-! ## Files -/

theorem exists_readEntries_iff {members : Entries Value} :
    (∃ es, readEntries members = .ok es) ↔ ∀ m ∈ members, isFatal m.2 = false := by
  rw [readEntries, Run.exists_map_iff, Run.exists_mapM_iff]
  simp only [Run.exists_map_iff, exists_readEntry_iff]

/-- **The entries that are read are those of the members that are taken**, in their order. -/
theorem represents_of_readEntries {members : Entries Value} {es : Entries SavedEntry}
    (read : readEntries members = .ok es) :
    List.Forall₂ Represents (members.filter fun m => isTaken m.2) es := by
  obtain ⟨found, run, rfl⟩ := Run.map_eq_ok_iff.mp read
  rw [Run.mapM_eq_ok_iff] at run
  clear read
  induction run with
  | nil => exact .nil
  | @cons m e? members found here _ ih =>
      obtain ⟨e?, read, rfl⟩ := Run.map_eq_ok_iff.mp here
      rcases represents_of_readEntry m.1 read with ⟨rfl, other⟩ | ⟨e, rfl, taken, same⟩
      · rw [List.filter_cons_of_neg (by simp [other])]
        exact ih
      · rw [List.filter_cons_of_pos (by simp [taken])]
        exact .cons same ih

section Files

variable {s : Store} {t : FileTree} {file : Entries Value} {i : SavedIndex}

/-- The index is loaded, and it has an entry for each member with whole numbers and no others. -/
def LoadsAsDocumented (s : Store) (t : FileTree) (file : Entries Value) : Prop :=
  ∃ i, s.loadIndex t = .ok (some i) ∧
    List.Forall₂ Represents ((membersIn file).filter fun m => isDocumented m.2) i.entries

theorem loadIndex_eq (holds : HoldsTable t (s.here ++ s.indexPath) file) :
    s.loadIndex t = (readIndex file).map some := by
  rw [loadIndex, holdsTable_iff.mp holds, Run.ok_bind]
  dsimp only
  cases readIndex file with
  | error f => rfl
  | ok i => rfl

/-- Nothing but a table gives an index. -/
theorem holds_of_loadIndex (loaded : s.loadIndex t = .ok (some i)) :
    ∃ file, HoldsTable t (s.here ++ s.indexPath) file := by
  obtain ⟨file?, table, rest⟩ := Run.bind_eq_ok_iff.mp loaded
  cases file? with
  | none => cases rest
  | some file => exact ⟨file, holdsTable_iff.mpr table⟩

theorem exists_readIndex_iff :
    (∃ i, readIndex file = .ok i) ↔ ∀ m ∈ membersIn file, isFatal m.2 = false := by
  rw [← exists_readEntries_iff, membersIn, readIndex]
  cases readEntries (((file.get? "functionalities").bind Value.table?).getD []) with
  | error f => exact iff_of_false Run.not_exists_ok Run.not_exists_ok
  | ok es => exact iff_of_true ⟨_, rfl⟩ ⟨es, rfl⟩

theorem represents_of_readIndex (read : readIndex file = .ok i) :
    List.Forall₂ Represents ((membersIn file).filter fun m => isTaken m.2) i.entries := by
  obtain ⟨es, entries, same⟩ := Run.bind_eq_ok_iff.mp read
  cases same
  exact represents_of_readEntries entries

theorem isTaken_of_isDocumented {v : Value} (documented : isDocumented v = true) :
    isTaken v = true := by
  have number : ∀ l : Standing, l.isWhole = true → l.number?.isSome = true := by
    intro l whole
    cases l with
    | whole n => rfl
    | _ => cases whole
  simp only [isDocumented, isTaken, Bool.and_eq_true] at documented ⊢
  exact ⟨⟨documented.1.1, number _ documented.1.2⟩, number _ documented.2⟩

/-- Of the members of a list as many satisfy the narrower condition only if it is no narrower. -/
theorem of_length_filter_eq {α : Type} {l : List α} {p q : α → Bool}
    (narrower : ∀ a, p a = true → q a = true)
    (same : (l.filter p).length = (l.filter q).length) : ∀ a ∈ l, q a = true → p a = true := by
  have equal := (List.monotone_filter_right l narrower).eq_of_length same
  intro a member wide
  have kept : a ∈ l.filter p := equal ▸ List.mem_filter.mpr ⟨member, wide⟩
  exact (List.mem_filter.mp kept).2

/-- **Which index files are loaded, and which as documented.**  A file is loaded exactly if it is the
JSON of a table without a fatal member, and then it has the members whose level and count stand for
numbers.  It is loaded as documented exactly if no member is fatal and each member that is taken has
whole numbers.  (Texts with a lone surrogate are those with U+FFFD in its place.) -/
theorem loadIndex_documented_iff (s : Store) :
    (∀ t : FileTree, (∃ i, s.loadIndex t = .ok (some i)) ↔
      ∃ file, HoldsTable t (s.here ++ s.indexPath) file ∧
        ∀ m ∈ membersIn file, isFatal m.2 = false) ∧
    ∀ (t : FileTree) (file : Entries Value), HoldsTable t (s.here ++ s.indexPath) file →
      (∀ i, s.loadIndex t = .ok (some i) →
        List.Forall₂ Represents ((membersIn file).filter fun m => isTaken m.2) i.entries) ∧
      (LoadsAsDocumented s t file ↔ ∀ m ∈ membersIn file,
        isFatal m.2 = false ∧ (isTaken m.2 = true → isDocumented m.2 = true)) := by
  have loads : ∀ t file, HoldsTable t (s.here ++ s.indexPath) file →
      ((∃ i, s.loadIndex t = .ok (some i)) ↔ ∀ m ∈ membersIn file, isFatal m.2 = false) := by
    intro t file holds
    rw [← exists_readIndex_iff, loadIndex_eq holds]
    simp only [Run.map_eq_ok_iff, Option.some.injEq, exists_eq_right]
  have entries : ∀ t file i, HoldsTable t (s.here ++ s.indexPath) file →
      s.loadIndex t = .ok (some i) →
      List.Forall₂ Represents ((membersIn file).filter fun m => isTaken m.2) i.entries := by
    intro t file i holds loaded
    rw [loadIndex_eq holds] at loaded
    obtain ⟨i, read, same⟩ := Run.map_eq_ok_iff.mp loaded
    cases same
    exact represents_of_readIndex read
  refine ⟨fun t => ?_, fun t file holds => ⟨fun i => entries t file i holds, ?_⟩⟩
  · constructor
    · rintro ⟨i, loaded⟩
      obtain ⟨file, holds⟩ := holds_of_loadIndex loaded
      exact ⟨file, holds, (loads t file holds).mp ⟨i, loaded⟩⟩
    · rintro ⟨file, holds, harmless⟩
      exact (loads t file holds).mpr harmless
  · constructor
    · rintro ⟨i, loaded, documented⟩ m member
      refine ⟨(loads t file holds).mp ⟨i, loaded⟩ m member, ?_⟩
      have lengths := documented.length_eq.trans (entries t file i holds loaded).length_eq.symm
      exact of_length_filter_eq (fun _ => isTaken_of_isDocumented) lengths m member
    · intro each
      obtain ⟨i, loaded⟩ := (loads t file holds).mpr fun m member => (each m member).1
      refine ⟨i, loaded, ?_⟩
      have same : (membersIn file).filter (fun m => isDocumented m.2) =
          (membersIn file).filter fun m => isTaken m.2 := by
        apply List.filter_congr
        intro m member
        rw [Bool.eq_iff_iff]
        exact ⟨isTaken_of_isDocumented, (each m member).2⟩
      rw [same]
      exact entries t file i holds loaded

end Files

/-! ### Small files -/

/-- A disk with this table in the index file of `/ws`. -/
def indexDisk (file : Entries Value) : FileTree := storeDisk "functionalities.json" file

theorem holds_indexDisk (file : Entries Value)
    (read : (Json.read (Text.withLineFeeds (Json.write (.table file)))).toOption =
      some (.table file)) :
    HoldsTable (indexDisk file) (smallStore.here ++ smallStore.indexPath) file :=
  ⟨_, FileTree.readText_of_read (read_storeDisk file (by cbv)), Run.toOption_eq_some_iff.mp read⟩

/-- An index file with these members. -/
def indexWith (members : Entries Value) : Entries Value := [("functionalities", .table members)]

/-- A level that is a word, a count that is null, and a member that is no table give no entry, and the
member between them gives its own. -/
theorem loadIndex_documented_iff_words :
    let file := indexWith
      [("a", .table [("level", .text "x")]),
       ("b", .table [("level", .int 1), ("groupCount", .int 2)]),
       ("c", .table [("level", .int 1), ("groupCount", .null)]),
       ("d", .int 5)]
    (∃ i, smallStore.loadIndex (indexDisk file) = .ok (some i)) ∧
      LoadsAsDocumented smallStore (indexDisk file) file := by
  intro file
  have holds : HoldsTable (indexDisk file) (smallStore.here ++ smallStore.indexPath) file :=
    holds_indexDisk file (by decide +kernel)
  obtain ⟨loads, each⟩ := loadIndex_documented_iff smallStore
  constructor
  · exact (loads (indexDisk file)).mpr ⟨file, holds, by decide +kernel⟩
  · exact (each (indexDisk file) file holds).2.mpr (by decide +kernel)

/-- An index file with a level that is no whole number. -/
def indexOfFraction : Entries Value :=
  indexWith [("a", .table [("level", .float ⟨0x3ff8000000000000⟩)])]

/-- An index file with children that are no list, beside a member that is in order. -/
def indexOfChildren : Entries Value :=
  indexWith
    [("a", .table [("level", .int 1), ("children", .int 5)]),
     ("b", .table [("level", .int 1), ("groupCount", .int 2)])]

/-- A level with a fraction gives an entry, and children that are a number keep all members from being
loaded. -/
theorem not_loadsAsDocumented_fraction :
    (HoldsTable (indexDisk indexOfFraction) (smallStore.here ++ smallStore.indexPath)
        indexOfFraction ∧
      ¬ LoadsAsDocumented smallStore (indexDisk indexOfFraction) indexOfFraction) ∧
    HoldsTable (indexDisk indexOfChildren) (smallStore.here ++ smallStore.indexPath)
        indexOfChildren ∧
      ¬ ∃ i, smallStore.loadIndex (indexDisk indexOfChildren) = .ok i := by
  have fraction := holds_indexDisk indexOfFraction (by decide +kernel)
  have children := holds_indexDisk indexOfChildren (by decide +kernel)
  refine ⟨⟨fraction, ?_⟩, children, ?_⟩
  · rintro ⟨i, loaded, documented⟩
    rw [loadIndex_eq fraction] at loaded
    obtain ⟨i, read, same⟩ := Run.map_eq_ok_iff.mp loaded
    cases same
    have no : i.entries.length = 0 := documented.length_eq.symm.trans (by decide +kernel)
    have one : i.entries.length = 1 :=
      (represents_of_readIndex read).length_eq.symm.trans (by decide +kernel)
    omega
  · rw [loadIndex_eq children]
    rintro ⟨i, loaded⟩
    obtain ⟨i, read, -⟩ := Run.map_eq_ok_iff.mp loaded
    have fatal : ¬ ∀ m ∈ membersIn indexOfChildren, isFatal m.2 = false := by decide +kernel
    exact fatal (exists_readIndex_iff.mp ⟨i, read⟩)

end CodeAtlas.Store
