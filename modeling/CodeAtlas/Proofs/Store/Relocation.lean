/-
# Proofs.Store.Relocation -- a store that moves with its workspace

The workspace and the files of a store are given by texts with a single slash in front (`IsRooted`).
A saved path leads back to the normal form of the path it was made from, wherever the file is: above
the workspace, beside it, or below.

A file below the workspace is saved under what comes behind the workspace in its normal form, so that
the saved text does not depend on where the workspace is (`RootedAt.toRelative_of_beneath`).  Read by
the store of another workspace, it is the file in the same place below that one
(`RootedAt.toAbsolute_of_beneath`).  So the records of such files are those that the other store would
write for the files there (`groupsText_moved`), and the store, copied with its workspace, gives back
the groups of the files there (`relocates`).
-/
import CodeAtlas.Proofs.Store.Lenient

namespace CodeAtlas

set_option autoImplicit false

/-! ## Paths below a directory -/

namespace Path

/-- The text of a path from the root: a slash in front, or more than two, which count for one. -/
abbrev IsRooted (t : Text) : Prop := rootOf t = 1

/-- The text of the normal form. -/
def normalText (t : Text) : Text := (ofText t).normalize.toText

/-- The text of what is called `x` in a directory. -/
def beneath (directory x : Text) : Text :=
  if directory = "/" then '/' :: x else directory ++ '/' :: x

theorem beneath_right_inj {directory x y : Text} :
    beneath directory x = beneath directory y ↔ x = y := by
  rw [beneath, beneath]
  split <;> simp

theorem length_lt_beneath (directory : Text) {x : Text} (some_ : x ≠ []) :
    directory.length < (beneath directory x).length := by
  have positive := List.length_pos_iff.mpr some_
  rw [beneath]
  split
  · rename_i root
    rw [root, List.length_cons]
    change 1 < x.length + 1
    omega
  · rw [List.length_append, List.length_cons]
    omega

theorem components_beneath (directory x : Text) :
    components (beneath directory x) = components directory ++ components x := by
  rw [beneath]
  split
  · rename_i root
    rw [root, components_slash]
    rfl
  · rw [components, Text.splitOn_append, List.filter_append]
    rfl

theorem toText_root_one (parts : List Text) :
    (⟨1, parts⟩ : Path).toText = '/' :: Text.join "/" parts := by
  simp [toText]

theorem toText_root_zero {parts : List Text} (all : ∀ c ∈ parts, IsComponent c)
    (some_ : parts ≠ []) : (⟨0, parts⟩ : Path).toText = Text.join "/" parts := by
  have solid : Text.join "/" parts ≠ [] := fun empty =>
    some_ ((Text.join_eq_nil_iff (by decide) fun c member => (all c member).ne_nil).mp empty)
  change (if (Text.join "/" parts).isEmpty = true then _ else _) = _
  rw [if_neg (by simpa using solid)]
  rfl

/-- Writing goes on below a directory. -/
theorem toText_append {parts rest : List Text} (all : ∀ c ∈ parts, IsComponent c)
    (some_ : rest ≠ []) :
    (⟨1, parts ++ rest⟩ : Path).toText = beneath (⟨1, parts⟩ : Path).toText (Text.join "/" rest) := by
  rw [toText_root_one, toText_root_one, beneath]
  by_cases root : parts = []
  · subst root
    rfl
  · have solid : Text.join "/" parts ≠ [] := fun empty =>
      root ((Text.join_eq_nil_iff (by decide) fun c member => (all c member).ne_nil).mp empty)
    have other : '/' :: Text.join "/" parts ≠ ("/" : String).toList := fun same =>
      solid (List.cons.inj same).2
    rw [if_neg other, Text.join_append root some_]
    simp

theorem ne_nil_of_isRooted {t : Text} (rooted : IsRooted t) : t ≠ [] := by
  rintro rfl
  revert rooted
  decide

theorem isAbsolute_of_isRooted {t : Text} (rooted : IsRooted t) : (ofText t).isAbsolute = true := by
  change (rootOf t != 0) = true
  rw [rooted]
  rfl

theorem normalize_of_isRooted {t : Text} (rooted : IsRooted t) :
    (ofText t).normalize = ⟨1, (ofText t).normalize.parts⟩ := by
  change Path.mk (rootOf t) (ofText t).normalize.parts = _
  rw [rooted]

theorem isName_of_isRooted {t c : Text} (rooted : IsRooted t)
    (member : c ∈ (ofText t).normalize.parts) : IsName c :=
  isName_of_mem_normalize (wellFormed_ofText t) (isAbsolute_of_isRooted rooted) member

theorem toText_append_normalize {w : Text} (rooted : IsRooted w) {rest : List Text}
    (some_ : rest ≠ []) :
    (⟨1, (ofText w).normalize.parts ++ rest⟩ : Path).toText =
      beneath (normalText w) (Text.join "/" rest) := by
  rw [toText_append (fun c member => (isName_of_isRooted rooted member).toIsComponent) some_,
    ← normalize_of_isRooted rooted, normalText]

/-- A normal form is read back as its parts. -/
theorem components_normalText {t : Text} (rooted : IsRooted t) :
    components (normalText t) = (ofText t).normalize.parts := by
  have wellFormed : WellFormed (ofText t).normalize :=
    .of_names (rootOf_le t) fun c member => isName_of_isRooted rooted member
  exact congrArg Path.parts (ofText_toText wellFormed)

/-- **What lies below a directory**, by its text, lies below it by its parts. -/
theorem exists_parts_of_beneath {p w x : Text} (hp : IsRooted p) (hw : IsRooted w) (some_ : x ≠ [])
    (below : normalText p = beneath (normalText w) x) :
    ∃ rest, rest ≠ [] ∧ (∀ c ∈ rest, IsName c) ∧ x = Text.join "/" rest ∧
      (ofText p).normalize.parts = (ofText w).normalize.parts ++ rest := by
  have parts : (ofText p).normalize.parts = (ofText w).normalize.parts ++ components x := by
    rw [← components_normalText hp, below, components_beneath, components_normalText hw]
  have named : ∀ c ∈ components x, IsName c := fun c member =>
    isName_of_isRooted hp (parts ▸ List.mem_append_right _ member)
  have more : components x ≠ [] := by
    intro nothing
    rw [nothing, List.append_nil] at parts
    have same : normalText p = normalText w := by
      rw [normalText, normalText, normalize_of_isRooted hp, normalize_of_isRooted hw, parts]
    have longer := length_lt_beneath (normalText w) some_
    rw [← below, same] at longer
    exact lt_irrefl _ longer
  have text : normalText p = beneath (normalText w) (Text.join "/" (components x)) := by
    rw [normalText, normalize_of_isRooted hp, parts, toText_append_normalize hw more]
  exact ⟨components x, more, named, beneath_right_inj.mp (below.symm.trans text), parts⟩

theorem commonStart_append (l r : List Text) : commonStart l (l ++ r) = l := by
  induction l with
  | nil => cases r <;> rfl
  | cons a l ih => simp [commonStart, ih]

/-- The way down goes nowhere up. -/
theorem relativeTo_of_parts {here start p : Path} (absoluteStart : start.isAbsolute = true)
    (absolute : p.isAbsolute = true) {rest : List Text}
    (parts : p.normalize.parts = start.normalize.parts ++ rest) :
    relativeTo here start p = ⟨0, rest⟩ := by
  simp only [relativeTo, Path.absolute, append_of_isAbsolute here absoluteStart,
    append_of_isAbsolute here absolute, parts, commonStart_append, Nat.sub_self, List.replicate_zero,
    List.nil_append, List.drop_left]

theorem normalize_append_of_names (p : Path) {rest : List Text} (names : ∀ c ∈ rest, IsName c) :
    (p ++ (⟨0, rest⟩ : Path)).normalize = ⟨p.root, p.normalize.parts ++ rest⟩ := by
  have joined : p ++ (⟨0, rest⟩ : Path) = ⟨p.root, p.parts ++ rest⟩ := rfl
  have down : ∀ above, rest.foldl (climb p.isAbsolute) above = rest.reverse ++ above := fun above =>
    foldl_climb_of_ne _ above fun c member => (names c member).ne_dots
  have same : (⟨p.root, p.parts ++ rest⟩ : Path).isAbsolute = p.isAbsolute := rfl
  rw [joined, normalize, normalize, same]
  simp only [List.foldl_append, down, List.reverse_append, List.reverse_reverse]

end Path

namespace Store

open CodeAtlas.Path (IsRooted normalText beneath)

/-! ## Opening -/

/-- The store of a workspace that is given from the root. -/
structure RootedAt (s : Store) (w : Text) : Prop where
  workspace : s.workspace = Path.ofText w
  rooted : IsRooted w

/-- A workspace given from the root is opened as it stands. -/
theorem ofValue_of_isRooted (here home : Path) (users : Entries Path) {w : Text}
    (rooted : IsRooted w) :
    ofValue here home users (.text w) = .ok { here, workspace := Path.ofText w } := by
  have visible : Text.isBlank w = false := by
    cases w with
    | nil => exact absurd rfl (Path.ne_nil_of_isRooted rooted)
    | cons c w =>
        by_cases slash : c = '/'
        · subst slash
          rfl
        · have unrooted : Path.rootOf (c :: w) = 0 := by
            rw [Path.rootOf, List.takeWhile_cons_of_neg (by simpa using slash)]
            rfl
          rw [IsRooted, unrooted] at rooted
          cases rooted
  have own : Path.expandHome? home users (Path.ofText w) = some (Path.ofText w) := by
    rw [Path.expandHome?, if_pos (Path.isAbsolute_of_isRooted rooted)]
  change (if Text.isBlank w = true then _ else _) = _
  rw [visible, if_neg Bool.false_ne_true, own]

section Rooted

variable {s s' : Store} {w w' p x : Text}

theorem RootedAt.root (opened : RootedAt s w) : s.workspace.root = 1 := by
  rw [opened.workspace]
  exact opened.rooted

theorem RootedAt.isAbsolute (opened : RootedAt s w) : s.workspace.isAbsolute = true := by
  rw [opened.workspace]
  exact Path.isAbsolute_of_isRooted opened.rooted

/-! ## One path -/

/-- **A saved path leads back**, to the normal form. -/
theorem RootedAt.toAbsolute_toRelative (opened : RootedAt s w) (hp : IsRooted p) :
    s.toAbsolute (s.toRelative p) = normalText p := by
  rw [Store.toAbsolute_toRelative opened.isAbsolute (Path.isAbsolute_of_isRooted hp), opened.root,
    ← Path.normalize_of_isRooted hp, normalText]

/-- **A file below the workspace is saved under what comes behind the workspace.** -/
theorem RootedAt.toRelative_of_beneath (opened : RootedAt s w) (hp : IsRooted p) (some_ : x ≠ [])
    (below : normalText p = beneath (normalText w) x) : s.toRelative p = x := by
  obtain ⟨rest, more, named, rfl, parts⟩ :=
    Path.exists_parts_of_beneath hp opened.rooted some_ below
  rw [← opened.workspace] at parts
  rw [toRelative, if_pos (Path.isAbsolute_of_isRooted hp),
    Path.relativeTo_of_parts opened.isAbsolute (Path.isAbsolute_of_isRooted hp) parts]
  exact Path.toText_root_zero (fun c member => (named c member).toIsComponent) more

/-- **Any other workspace finds it in the same place below itself.** -/
theorem RootedAt.toAbsolute_of_beneath (opened : RootedAt s' w') (hw : IsRooted w)
    (hp : IsRooted p) (some_ : x ≠ []) (below : normalText p = beneath (normalText w) x) :
    s'.toAbsolute x = beneath (normalText w') x := by
  obtain ⟨rest, more, named, rfl, -⟩ := Path.exists_parts_of_beneath hp hw some_ below
  have components : ∀ c ∈ rest, Path.IsComponent c := fun c member => (named c member).toIsComponent
  have read : Path.ofText (Text.join "/" rest) = ⟨0, rest⟩ := by
    rw [← Path.toText_root_zero components more,
      Path.ofText_toText ⟨Nat.zero_le 2, components⟩]
  rw [toAbsolute, read, Path.normalize_append_of_names _ named, opened.root, opened.workspace,
    Path.toText_append_normalize opened.rooted more]

/-! ## A whole corpus -/

/-- The file lies below the directory. -/
def LiesBelow (w p : Text) : Prop :=
  IsRooted p ∧ ∃ x, x ≠ [] ∧ normalText p = beneath (normalText w) x

/-- The group, in the file that another store finds under the saved path. -/
def moved (s s' : Store) (g : Group) : Group :=
  { g with filePath := s'.toAbsolute (s.toRelative g.filePath) }

def movedCorpus (s s' : Store) (c : Corpus) : Corpus :=
  c.map fun e => (e.1, e.2.map (s.moved s'))

@[simp] theorem functionality_moved (s s' : Store) (g : Group) :
    (s.moved s' g).functionality = g.functionality := by rw [moved]

@[simp] theorem description_moved (s s' : Store) (g : Group) :
    (s.moved s' g).description = g.description := by rw [moved]

@[simp] theorem lines_moved (s s' : Store) (g : Group) : (s.moved s' g).lines = g.lines := by
  rw [moved]

theorem Keepable.moved {g : Group} (keepable : Keepable g) (s s' : Store)
    (absolute : (Path.ofText (s.moved s' g).filePath).isAbsolute = true) :
    Keepable (s.moved s' g) where
  name := by
    rw [functionality_moved]
    exact keepable.name
  path := absolute
  lines := by
    rw [lines_moved]
    exact keepable.lines
  readable := by
    rw [lines_moved]
    exact keepable.readable
  room := by
    rw [lines_moved]
    exact keepable.room

/-- What has moved has a path in normal form, which the other store saves as this one saves the
path it had before. -/
theorem moved_spec (opened : RootedAt s w) (opened' : RootedAt s' w') {g : Group}
    (below : LiesBelow w g.filePath) :
    IsRooted (s.moved s' g).filePath ∧
      normalText (s.moved s' g).filePath = (s.moved s' g).filePath ∧
      s'.toRelative (s.moved s' g).filePath = s.toRelative g.filePath := by
  obtain ⟨hp, x, some_, place⟩ := below
  have path : (s.moved s' g).filePath = beneath (normalText w') x := by
    rw [moved, opened.toRelative_of_beneath hp some_ place,
      opened'.toAbsolute_of_beneath opened.rooted hp some_ place]
  obtain ⟨rest, more, named, text, -⟩ := Path.exists_parts_of_beneath hp opened.rooted some_ place
  have names : ∀ c ∈ (Path.ofText w').normalize.parts ++ rest, Path.IsName c := fun c member =>
    (List.mem_append.mp member).elim (Path.isName_of_isRooted opened'.rooted) (named c)
  have read : Path.ofText (beneath (normalText w') x) =
      ⟨1, (Path.ofText w').normalize.parts ++ rest⟩ := by
    rw [text, ← Path.toText_append_normalize opened'.rooted more,
      Path.ofText_toText (.of_names (Nat.le_succ 1) names)]
  have rooted : IsRooted (beneath (normalText w') x) := congrArg Path.root read
  have settled : normalText (beneath (normalText w') x) = beneath (normalText w') x := by
    rw [normalText, read, Path.normalize_of_names fun c member => (names c member).ne_dots,
      Path.toText_append_normalize opened'.rooted more, ← text]
  rw [path, opened.toRelative_of_beneath hp some_ place]
  exact ⟨rooted, settled, opened'.toRelative_of_beneath rooted some_ settled⟩

/-- The other store keeps of what has moved what it keeps of any group, in the file there. -/
theorem kept_moved (opened : RootedAt s w) (opened' : RootedAt s' w') {g : Group}
    (below : LiesBelow w g.filePath) :
    s'.kept (s.moved s' g) =
      { s'.kept g with filePath := s'.toAbsolute (s.toRelative g.filePath) } := by
  obtain ⟨rooted, settled, -⟩ := moved_spec opened opened' below
  rw [kept, kept, functionality_moved, description_moved, lines_moved, opened'.root,
    ← Path.normalize_of_isRooted rooted]
  change Group.mk _ (normalText _) _ _ _ = _
  rw [settled, moved]

theorem record?_moved (opened : RootedAt s w) (opened' : RootedAt s' w') {g : Group}
    (below : LiesBelow w g.filePath) : s'.record? (s.moved s' g) = s.record? g := by
  obtain ⟨rooted, -, same⟩ := moved_spec opened opened' below
  have found := List.isEmpty_eq_false_iff.mpr (Path.ne_nil_of_isRooted rooted)
  have given := List.isEmpty_eq_false_iff.mpr (Path.ne_nil_of_isRooted below.1)
  rw [record?, record?, found, given, same, functionality_moved, description_moved, lines_moved]

variable {c : Corpus}

/-- **What a store writes for files below its workspace, the other one writes for those that have
moved.** -/
theorem groupsText_moved (opened : RootedAt s w) (opened' : RootedAt s' w')
    (below : ∀ e ∈ c, ∀ g ∈ e.2, LiesBelow w g.filePath) :
    s'.groupsText (s.movedCorpus s' c) = s.groupsText c := by
  have records : s'.records (s.movedCorpus s' c) = s.records c := by
    rw [Store.records, Store.records, movedCorpus, List.filter_map, List.map_map]
    simp only [Function.comp_def, List.filterMap_map]
    refine List.map_congr_left fun e member => congrArg (Prod.mk e.1) ?_
    exact List.filterMap_congr fun g inside =>
      record?_moved opened opened' (below e (List.mem_of_mem_filter member) g inside)
  rw [groupsText, groupsText, records]

theorem KeepableCorpus.moved (keepable : KeepableCorpus c) (opened : RootedAt s w)
    (opened' : RootedAt s' w') (below : ∀ e ∈ c, ∀ g ∈ e.2, LiesBelow w g.filePath) :
    KeepableCorpus (s.movedCorpus s' c) where
  distinct := by
    rw [movedCorpus, Entries.keys_map]
    exact keepable.distinct
  types := by
    intro e member
    obtain ⟨e, known, rfl⟩ := List.mem_map.mp member
    exact keepable.types e known
  groups := by
    intro e member g inside
    obtain ⟨e, known, rfl⟩ := List.mem_map.mp member
    obtain ⟨g, known', rfl⟩ := List.mem_map.mp inside
    obtain ⟨rooted, -, -⟩ := moved_spec opened opened' (below e known g known')
    exact (keepable.groups e known g known').moved s s' (Path.isAbsolute_of_isRooted rooted)

/-- Of a corpus that has moved, the types with groups are kept, and all their groups. -/
theorem keptCorpus_moved (opened : RootedAt s w) (opened' : RootedAt s' w')
    (below : ∀ e ∈ c, ∀ g ∈ e.2, LiesBelow w g.filePath) :
    s'.keptCorpus (s.movedCorpus s' c) =
      (c.filter (!·.2.isEmpty)).map fun e => (e.1, e.2.map fun g =>
        { s'.kept g with filePath := s'.toAbsolute (s.toRelative g.filePath) }) := by
  rw [keptCorpus, movedCorpus, List.filter_map, List.map_map]
  simp only [Function.comp_def, List.isEmpty_map, List.map_map]
  refine List.map_congr_left fun e member => congrArg (Prod.mk e.1) ?_
  exact List.map_congr_left fun g inside =>
    kept_moved opened opened' (below e (List.mem_of_mem_filter member) g inside)

end Rooted

/-- **A store moves with its workspace.**  Both workspaces are given from the root.  A path from the
root is saved so that the same store finds its normal form again.  What lies below the workspace as
`x` is saved as `x`, and another store finds it as `x` below its own workspace.  So a groups file with
files below the one workspace, read by the store of the other, gives the groups of the files there. -/
theorem relocates (here here' home home' : Path) (users users' : Entries Path) {w w' : Text}
    (hw : IsRooted w) (hw' : IsRooted w') :
    let s : Store := { here, workspace := Path.ofText w }
    let s' : Store := { here := here', workspace := Path.ofText w' }
    ofValue here home users (.text w) = .ok s ∧ ofValue here' home' users' (.text w') = .ok s' ∧
      (∀ p, IsRooted p → s.toAbsolute (s.toRelative p) = normalText p) ∧
      (∀ p x, IsRooted p → x ≠ [] → normalText p = beneath (normalText w) x →
        s.toRelative p = x ∧ s'.toAbsolute x = beneath (normalText w') x) ∧
      ∀ (c : Corpus) (t : FileTree), KeepableCorpus c →
        (∀ e ∈ c, ∀ g ∈ e.2, LiesBelow w g.filePath) →
        t.read (s'.here ++ s'.groupsPath) = .ok (Text.encode (s.groupsText c)) →
        s'.load t = .ok (some ((c.filter (!·.2.isEmpty)).map fun e => (e.1, e.2.map fun g =>
          { s'.kept g with filePath := s'.toAbsolute (s.toRelative g.filePath) }))) := by
  intro s s'
  have opened : RootedAt s w := ⟨rfl, hw⟩
  have opened' : RootedAt s' w' := ⟨rfl, hw'⟩
  refine ⟨ofValue_of_isRooted here home users hw, ofValue_of_isRooted here' home' users' hw',
    fun p hp => opened.toAbsolute_toRelative hp, fun p x hp some_ place =>
      ⟨opened.toRelative_of_beneath hp some_ place,
        opened'.toAbsolute_of_beneath hw hp some_ place⟩, ?_⟩
  intro c t keepable below content
  have keepable' := keepable.moved opened opened' below
  rw [← groupsText_moved opened opened' below] at content
  rw [load_of_readTable opened'.isAbsolute keepable'
    (readTable_groups keepable'.distinct content), keptCorpus_moved opened opened' below]

/-- A group of a file in a directory below `/home/ws`. -/
def guest : Group := { login with filePath := "/home/./ws//lib/../src/a.js" }

/-- From `/home/ws` the store moves to `/ws`. -/
theorem relocates_guest :
    let s : Store := { here := ⟨1, []⟩, workspace := Path.ofText "/home/old/../ws" }
    let c : Corpus := [("js", [guest])]
    s.toRelative guest.filePath = "src/a.js" ∧ smallStore.toAbsolute "src/a.js" = "/ws/src/a.js" ∧
      smallStore.load (diskOf (s.groupsTable c)) = .ok (some [("js", [{
        guest with
          filePath := "/ws/src/a.js", lines := [1, 2, 3, 7], place := .ofName "Auth > Login" }])]) := by
  intro s c
  have rooted : IsRooted "/home/old/../ws" := by decide
  have rooted' : IsRooted "/ws" := by decide
  have place : normalText guest.filePath = beneath (normalText "/home/old/../ws") "src/a.js" := by
    decide
  have law := relocates ⟨1, []⟩ ⟨1, []⟩ default default [] [] rooted rooted'
  obtain ⟨saved, found⟩ := law.2.2.2.1 guest.filePath "src/a.js" (by decide) (by decide) place
  refine ⟨saved, found, ?_⟩
  have keepable : KeepableCorpus c := by
    refine ⟨by decide, by decide, ?_⟩
    intro e member g inside
    rw [List.mem_singleton.mp member] at inside
    rw [List.mem_singleton.mp inside]
    exact { keepable_login with path := by decide }
  have below : ∀ e ∈ c, ∀ g ∈ e.2, LiesBelow "/home/old/../ws" g.filePath := by
    intro e member g inside
    rw [List.mem_singleton.mp member] at inside
    rw [List.mem_singleton.mp inside]
    exact ⟨by decide, _, by decide, place⟩
  have loaded := law.2.2.2.2 c (diskOf (s.groupsTable c)) keepable below (read_diskOf _)
  have lines : LineRanges.sorted guest.lines = [1, 2, 3, 7] := by
    rw [← LineRanges.ascending_eq_sorted]
    cbv
  have group : { smallStore.kept guest with
      filePath := smallStore.toAbsolute (s.toRelative guest.filePath) } =
      { guest with
        filePath := "/ws/src/a.js", lines := [1, 2, 3, 7], place := .ofName "Auth > Login" } := by
    rw [saved, show smallStore.toAbsolute "src/a.js" = "/ws/src/a.js" from found, kept, lines]
    decide
  exact loaded.trans (congrArg (fun g => Except.ok (some [("js".toList, [g])])) group)

end Store

end CodeAtlas
