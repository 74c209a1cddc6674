/-
# Proofs.Store.Lenient -- what a groups file may hold

Loading takes a groups file record by record.  A record gives at most one group (`found?`), a type
the groups of its records (`foundUnder?`), and the file all types that have groups; what gives
nothing leaves no trace.  So a record has no say in what the others give, as long as the file is
loaded at all.

One kind of record keeps the file from being loaded (`isHarmful`).  It has a name and a path, so its
lines are looked at, and they cannot be listed: a range is too long, or a member of a list looks like
digits but is no number (`isMisleading`).  A file is loaded exactly if it is the JSON of a table
without such a record (`load_lenient`).

A file may hold anything here, and is what `Json.read` makes of it: a lone surrogate in one of its
texts stands for U+FFFD.
-/
import CodeAtlas.Proofs.Store.Files

namespace CodeAtlas.Store

set_option autoImplicit false

/-! ## Lines -/

/-- Does a text look like digits, white space apart, without being a number? -/
def isMisleading (t : Text) : Bool :=
  Text.isDigitLikeText (Text.trim t) &&
    ((Text.trim t).any (!Text.isDecimal ·) || decide (Number.maxDigits < (Text.trim t).length) ||
      t.any fun c => Text.isBlankChar c && !Number.isNumberBlank c)

/-- Are there lines in a value that cannot be listed? -/
def isUnlistable : Value → Bool
  | .text t => (LineRanges.ranges t).any fun r =>
      decide (LineRanges.roomLimit ≤ (r.2 + 1 - r.1).toNat)
  | .list vs => vs.any fun v => v.text?.any isMisleading
  | _ => false

theorem exists_ofMember_iff {v : Value} :
    (∃ ns, LineRanges.ofMember v = .ok ns) ↔ v.text?.any isMisleading = false := by
  cases v with
  | text t =>
      rw [LineRanges.ofMember]
      change _ ↔ isMisleading t = false
      cases digitLike : Text.isDigitLikeText (Text.trim t) with
      | false => exact iff_of_true ⟨[], rfl⟩ (by rw [isMisleading, digitLike, Bool.false_and])
      | true =>
          have read : (∃ n, readInteger t = .ok n) ↔ ∃ n, Number.readInt t = .ok n := by
            rw [readInteger]
            cases Number.readInt t with
            | error e => exact iff_of_false Run.not_exists_ok Run.not_exists_ok
            | ok n => exact iff_of_true ⟨n, rfl⟩ ⟨n, rfl⟩
          rw [if_pos rfl, Run.exists_map_iff, read, Number.exists_readInt_iff digitLike]
          simp [isMisleading, digitLike, and_assoc]
  | _ => exact iff_of_true ⟨_, rfl⟩ rfl

theorem exists_foldlM_ofMember_iff {vs : List Value} (lines : List Int) :
    (∃ ns, vs.foldlM (fun lines v => (LineRanges.ofMember v).map (lines ++ ·)) lines = .ok ns) ↔
      ∀ v ∈ vs, ∃ ns, LineRanges.ofMember v = .ok ns := by
  induction vs generalizing lines with
  | nil => exact iff_of_true ⟨lines, rfl⟩ (by simp)
  | cons v vs ih =>
      rw [List.foldlM_cons, List.forall_mem_cons]
      cases LineRanges.ofMember v with
      | error e => exact iff_of_false Run.not_exists_ok fun all => Run.not_exists_ok all.1
      | ok ns => exact (ih (lines ++ ns)).trans (and_iff_right ⟨ns, rfl⟩).symm

/-- **Which lines can be listed.** -/
theorem exists_ofValue_iff {v : Value} :
    (∃ ns, LineRanges.ofValue v = .ok ns) ↔ isUnlistable v = false := by
  cases v with
  | text t =>
      have checked : isUnlistable (.text t) = false ↔
          (LineRanges.ranges t).forM LineRanges.checkRange = .ok () := by
        rw [Run.forM_eq_ok_iff, isUnlistable, List.any_eq_false]
        simp only [LineRanges.checkRange_eq_ok_iff, decide_eq_true_eq, Nat.not_le]
      rw [checked, LineRanges.ofValue, LineRanges.read]
      constructor
      · rintro ⟨ns, read⟩
        obtain ⟨⟨⟩, all, -⟩ := Run.map_eq_ok_iff.mp read
        exact all
      · intro all
        exact ⟨_, by rw [all]; rfl⟩
  | list vs =>
      rw [LineRanges.ofValue, exists_foldlM_ofMember_iff, isUnlistable, List.any_eq_false]
      simp only [exists_ofMember_iff, Bool.not_eq_true]
  | _ => exact iff_of_true ⟨_, rfl⟩ rfl

/-! ## Records -/

/-- Does a record keep its file from being loaded? -/
def isHarmful (v : Value) : Bool :=
  v.table?.any fun e =>
    (solidMember? e "functionality").isSome && (solidMember? e "filePath").isSome &&
      isUnlistable ((e.get? "lineNumbers").getD .null)

theorem exists_readRecord_iff (s : Store) {v : Value} :
    (∃ g?, s.readRecord v = .ok g?) ↔ isHarmful v = false := by
  rw [readRecord, isHarmful]
  cases v.table? with
  | none => exact iff_of_true ⟨none, rfl⟩ rfl
  | some e =>
      dsimp only [Option.any_some]
      cases solidMember? e "functionality" with
      | none => exact iff_of_true ⟨none, rfl⟩ rfl
      | some functionality =>
          cases solidMember? e "filePath" with
          | none => exact iff_of_true ⟨none, rfl⟩ rfl
          | some filePath =>
              dsimp only [Option.isSome_some]
              rw [Bool.true_and, Bool.true_and, ← exists_ofValue_iff]
              constructor
              · rintro ⟨g?, read⟩
                obtain ⟨lines, listed, -⟩ := Run.bind_eq_ok_iff.mp read
                exact ⟨lines, listed⟩
              · rintro ⟨lines, listed⟩
                rw [listed, Run.ok_bind]
                split
                · exact ⟨none, rfl⟩
                · exact ⟨_, rfl⟩

/-- The group that a record gives, if it gives one. -/
def found? (s : Store) (v : Value) : Option Group :=
  match s.readRecord v with
  | .ok g? => g?
  | .error _ => none

theorem readRecords_eq (s : Store) {vs : List Value} (harmless : ∀ v ∈ vs, isHarmful v = false) :
    s.readRecords vs = .ok (vs.filterMap s.found?) := by
  have read : vs.mapM s.readRecord = .ok (vs.map s.found?) := by
    rw [Run.mapM_eq_ok_iff, List.forall₂_map_right_iff, List.forall₂_same]
    intro v member
    obtain ⟨g?, here⟩ := s.exists_readRecord_iff.mpr (harmless v member)
    rw [found?, here]
  rw [readRecords, read]
  change Except.ok ((vs.map s.found?).filterMap id) = _
  rw [List.filterMap_map]
  rfl

/-! ## Types -/

/-- A type with its groups, if it has any. -/
def under? (fileType : Text) (gs : List Group) : Option (Text × List Group) :=
  if gs.isEmpty then none else some (fileType, gs)

/-- The records of a type: a value that is no list has none. -/
def recordsOf (v : Value) : List Value := v.list?.getD []

/-- What a member of the file gives: its type with the groups of its records. -/
def foundUnder? (s : Store) (m : Text × Value) : Option (Text × List Group) :=
  under? m.1 ((recordsOf m.2).filterMap s.found?)

theorem exists_loadType_iff (s : Store) {m : Text × Value} :
    (∃ e?, s.loadType m = .ok e?) ↔ ∀ v ∈ recordsOf m.2, isHarmful v = false := by
  rw [loadType, recordsOf]
  cases m.2.list? with
  | none => exact iff_of_true ⟨none, rfl⟩ (by simp)
  | some vs =>
      simp only [Option.getD_some, ← s.exists_readRecord_iff, ← Run.exists_mapM_iff, readRecords,
        Run.exists_map_iff]

theorem loadType_eq (s : Store) {m : Text × Value}
    (harmless : ∀ v ∈ recordsOf m.2, isHarmful v = false) :
    s.loadType m = .ok (s.foundUnder? m) := by
  rw [loadType, foundUnder?]
  rw [recordsOf] at harmless ⊢
  cases list : m.2.list? with
  | none => rfl
  | some vs =>
      rw [list, Option.getD_some] at harmless
      dsimp only [Option.getD_some]
      rw [s.readRecords_eq harmless]
      rfl

/-! ## Files -/

/-- There is a file at the path, and it is the JSON of a table with these members. -/
def HoldsTable (t : FileTree) (p : Path) (members : Entries Value) : Prop :=
  ∃ text, t.readText p = .ok text ∧ Json.read text = .ok (.table members)

/-- The groups file is there, and it is the JSON of a table with these members. -/
def Stored (s : Store) (t : FileTree) (members : Entries Value) : Prop :=
  ∃ text, t.readText (s.here ++ s.groupsPath) = .ok text ∧ Json.read text = .ok (.table members)

section Files

variable {s : Store} {t : FileTree} {members : Entries Value}

theorem holdsTable_iff {p : Path} : HoldsTable t p members ↔ readTable t p = .ok (some members) := by
  rw [readTable]
  constructor
  · rintro ⟨text, content, read⟩
    simp only [content, read]
    rfl
  · intro table
    cases content : t.readText p with
    | error e => cases e <;> simp [content] at table
    | ok text =>
        rw [content] at table
        dsimp only at table
        refine ⟨text, content, ?_⟩
        cases read : Json.read text with
        | error e => cases e <;> simp [read] at table
        | ok v => cases v <;> simp_all [Value.table?]

theorem stored_iff :
    Stored s t members ↔ readTable t (s.here ++ s.groupsPath) = .ok (some members) :=
  holdsTable_iff

theorem exists_load_iff (stored : Stored s t members) :
    (∃ c?, s.load t = .ok c?) ↔ ∀ m ∈ members, ∀ v ∈ recordsOf m.2, isHarmful v = false := by
  simp only [← s.exists_loadType_iff, ← Run.exists_mapM_iff, load, stored_iff.mp stored, Run.ok_bind]
  cases members.mapM s.loadType with
  | error e => exact iff_of_false Run.not_exists_ok Run.not_exists_ok
  | ok es => exact iff_of_true ⟨_, rfl⟩ ⟨es, rfl⟩

/-- **What is loaded**, record by record. -/
theorem load_of_stored (stored : Stored s t members)
    (harmless : ∀ m ∈ members, ∀ v ∈ recordsOf m.2, isHarmful v = false) :
    s.load t = .ok (some (members.filterMap s.foundUnder?)) := by
  have types : members.mapM s.loadType = .ok (members.map s.foundUnder?) := by
    rw [Run.mapM_eq_ok_iff, List.forall₂_map_right_iff, List.forall₂_same]
    exact fun m member => s.loadType_eq (harmless m member)
  rw [load, stored_iff.mp stored, Run.ok_bind]
  dsimp only
  rw [types, Run.ok_bind, List.filterMap_map]
  rfl

/-- Nothing but a stored table gives a corpus. -/
theorem stored_of_load {c : Corpus} (loaded : s.load t = .ok (some c)) :
    ∃ members, Stored s t members := by
  rw [load, Run.bind_eq_ok_iff] at loaded
  obtain ⟨members?, table, rest⟩ := loaded
  cases members? with
  | none => cases rest
  | some members => exact ⟨members, stored_iff.mpr table⟩

end Files

/-- What has been loaded is what the records of the file give. -/
theorem eq_filterMap_of_load {s : Store} {t : FileTree} {members : Entries Value} {c : Corpus}
    (stored : Stored s t members) (loaded : s.load t = .ok (some c)) :
    c = members.filterMap s.foundUnder? := by
  have known := load_of_stored stored ((exists_load_iff stored).mp ⟨_, loaded⟩)
  rw [loaded] at known
  exact Option.some.inj (Except.ok.inj known)

/-- What is loaded when one record among others gives `g?`. -/
def corpusAround (s : Store) (earlier : Entries Value) (fileType : Text) (before : List Value)
    (g? : Option Group) (after : List Value) (later : Entries Value) : Corpus :=
  earlier.filterMap s.foundUnder? ++
    (under? fileType
      (before.filterMap s.found? ++ g?.toList ++ after.filterMap s.found?)).toList ++
    later.filterMap s.foundUnder?

theorem filterMap_append_cons {α β : Type} (f : α → Option β) (before : List α) (a : α)
    (after : List α) : (before ++ a :: after).filterMap f =
      before.filterMap f ++ (f a).toList ++ after.filterMap f := by
  rw [List.filterMap_append, List.filterMap_cons]
  cases f a <;> simp

theorem filterMap_foundUnder? (s : Store) (earlier : Entries Value) (fileType : Text)
    (before : List Value) (v : Value) (after : List Value) (later : Entries Value) :
    (earlier ++ (fileType, Value.list (before ++ v :: after)) :: later).filterMap s.foundUnder? =
      s.corpusAround earlier fileType before (s.found? v) after later := by
  have type : s.foundUnder? (fileType, Value.list (before ++ v :: after)) =
      under? fileType
        (before.filterMap s.found? ++ (s.found? v).toList ++ after.filterMap s.found?) := by
    rw [← filterMap_append_cons]
    rfl
  rw [corpusAround, filterMap_append_cons, type]

/-- **A groups file is loaded exactly if it is the JSON of a table without a harmful record; and then
each record has a say in its own group only.**  When one record is exchanged for any other value and
both files can be loaded, the groups of all other records stay as they are, in their order and under
their types.  (Texts with a lone surrogate are those with U+FFFD in its place.) -/
theorem load_lenient (s : Store) :
    (∀ t : FileTree, (∃ c, s.load t = .ok (some c)) ↔ ∃ members, Stored s t members ∧
      ∀ m ∈ members, ∀ v ∈ recordsOf m.2, isHarmful v = false) ∧
    ∀ (t t' : FileTree) (earlier later : Entries Value) (fileType : Text)
      (before after : List Value) (v v' : Value) (c c' : Corpus),
      Stored s t (earlier ++ (fileType, .list (before ++ v :: after)) :: later) →
      Stored s t' (earlier ++ (fileType, .list (before ++ v' :: after)) :: later) →
      s.load t = .ok (some c) → s.load t' = .ok (some c') →
      c = s.corpusAround earlier fileType before (s.found? v) after later ∧
        c' = s.corpusAround earlier fileType before (s.found? v') after later := by
  refine ⟨fun t => ⟨?_, ?_⟩, ?_⟩
  · rintro ⟨c, loaded⟩
    obtain ⟨members, stored⟩ := stored_of_load loaded
    exact ⟨members, stored, (exists_load_iff stored).mp ⟨_, loaded⟩⟩
  · rintro ⟨members, stored, harmless⟩
    exact ⟨_, load_of_stored stored harmless⟩
  · intro t t' earlier later fileType before after v v' c c' stored stored' loaded loaded'
    rw [eq_filterMap_of_load stored loaded, eq_filterMap_of_load stored' loaded',
      s.filterMap_foundUnder?, s.filterMap_foundUnder?]
    exact ⟨rfl, rfl⟩

/-! ### A small file -/

/-- A record with these lines. -/
def recordWith (name : Text) (lines : Value) : Value :=
  .table [("functionality", .text name), ("filePath", .text "a.js"), ("lineNumbers", lines)]

/-- A record in front of another one, and a type without a list. -/
def twoRecords (v : Value) : Entries Value :=
  [("js", .list [v, recordWith "b" (.text "3,1-2")]), ("py", .null)]

def storePath : Place := ["ws".toList, ".groupcode".toList]

/-- A disk with this table in a file of the store of `/ws`. -/
def storeDisk (fileName : Text) (members : Entries Value) : FileTree :=
  FileTree.put { nodes := [(["ws".toList], .directory), (storePath, .directory)] }
    (storePath ++ [fileName]) (.file (Text.encode (Json.write (.table members))))

/-- A disk with this table in the groups file of `/ws`. -/
def diskOf (members : Entries Value) : FileTree := storeDisk "codegroups.json" members

/-- A disk with these records in the groups file of `/ws`. -/
def diskWith (v : Value) : FileTree := diskOf (twoRecords v)

def smallStore : Store := { here := ⟨1, []⟩, workspace := Path.ofText "/ws" }

/-- The table is read back from where the name leads. -/
theorem read_storeDisk {fileName : Text} {path : Path} (members : Entries Value)
    (located : (storeDisk fileName members).locate path = .ok (storePath ++ [fileName])) :
    (storeDisk fileName members).read path = .ok (Text.encode (Json.write (.table members))) :=
  FileTree.read_of_locate located (FileTree.node?_put_self _ (by simp) _)

theorem read_diskOf (members : Entries Value) :
    (diskOf members).read (smallStore.here ++ smallStore.groupsPath) =
      .ok (Text.encode (Json.write (.table members))) :=
  read_storeDisk members (by cbv)

theorem stored_diskOf {members members' : Entries Value} (plain : Json.Plain (.table members))
    (read : Json.read (Json.write (.table members)) = .ok (.table members')) :
    Stored smallStore (diskOf members) members' :=
  ⟨_, readText_of_read plain (read_diskOf members), read⟩

theorem faithful_recordWith (name : Text) {lines : Value} {depth : Nat}
    (faithful : Json.Faithful depth lines) : Json.Faithful (depth + 1) (recordWith name lines) := by
  refine .table (by simp [Entries.keys]) fun m member => ?_
  simp only [List.mem_cons, List.not_mem_nil, or_false] at member
  rcases member with rfl | rfl | rfl
  · exact .text _
  · exact .text _
  · exact faithful

theorem stored_diskWith {v : Value} (faithful : Json.Faithful (Json.depthLimit - 2) v) :
    Stored smallStore (diskWith v) (twoRecords v) := by
  have faithful' : Json.Faithful Json.depthLimit (.table (twoRecords v)) := by
    refine .table (by simp [twoRecords, Entries.keys]) fun m member => ?_
    simp only [twoRecords, List.mem_cons, List.not_mem_nil, or_false] at member
    rcases member with rfl | rfl
    · refine .list fun u inside => ?_
      simp only [List.mem_cons, List.not_mem_nil, or_false] at inside
      rcases inside with rfl | rfl
      · exact faithful
      · exact faithful_recordWith _ (.text _)
    · exact .null
  exact stored_diskOf faithful'.plain (Json.read_write faithful')

/-- The group in the second record. -/
def second : Group := { functionality := "b", filePath := "/ws/a.js", lines := [3, 1, 2] }

/-- A null in front of a record gives nothing, and a record in its place gives the group in front of
the other one; of its lines only the whole number counts. -/
theorem load_lenient_small :
    let v := recordWith "a" (.list [.int 5, .null, .text "x"])
    smallStore.load (diskWith .null) = .ok (some [("js", [second])]) ∧
      smallStore.load (diskWith v) =
        .ok (some [("js",
          [{ functionality := "a", filePath := "/ws/a.js", lines := [5] }, second])]) := by
  intro v
  have stored := stored_diskWith (v := .null) .null
  have stored' : Stored smallStore (diskWith v) (twoRecords v) :=
    stored_diskWith (faithful_recordWith _ (.list fun u inside => by
      simp only [List.mem_cons, List.not_mem_nil, or_false] at inside
      rcases inside with rfl | rfl | rfl
      · exact .nat 5 (by decide)
      · exact .null
      · exact .text _))
  obtain ⟨c, loaded⟩ := ((load_lenient smallStore).1 _).mpr ⟨_, stored, by decide⟩
  obtain ⟨c', loaded'⟩ := ((load_lenient smallStore).1 _).mpr ⟨_, stored', by decide⟩
  obtain ⟨same, same'⟩ := (load_lenient smallStore).2 _ _ [] [("py", .null)] "js" []
    [recordWith "b" (.text "3,1-2")] _ _ c c' stored stored' loaded loaded'
  have one : c = [("js".toList, [second])] := same.trans (by decide +kernel)
  have two : c' = [("js".toList,
      [{ functionality := "a", filePath := "/ws/a.js", lines := [5] }, second])] :=
    same'.trans (by decide +kernel)
  exact ⟨one ▸ loaded, two ▸ loaded'⟩

/-- A superscript looks like a digit and is no number, so a list of lines that holds one keeps the
groups of all records from being loaded. -/
theorem load_of_superscript :
    let v := recordWith "a" (.list [.text "²"])
    Stored smallStore (diskWith v) (twoRecords v) ∧
      ∀ c?, smallStore.load (diskWith v) ≠ .ok c? := by
  intro v
  have stored : Stored smallStore (diskWith v) (twoRecords v) :=
    stored_diskWith (faithful_recordWith _ (.list fun u inside => by
      rw [List.mem_singleton.mp inside]
      exact .text _))
  refine ⟨stored, fun c? loaded => ?_⟩
  have harmless := (exists_load_iff stored).mp ⟨c?, loaded⟩
  revert harmless
  decide

end CodeAtlas.Store
