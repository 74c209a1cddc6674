/-
# Review.Check -- looking for issues

A review looks at the groups of each name (`Definitions`).  There is one check for each kind of
issue, and the enabled ones are run in the order of `Kind.all`:

* *duplicate* -- names that become equal when lower-cased and trimmed;
* *similar* -- pairs of names that do not, but are at least as similar as the threshold says;
* *orphaned* -- groups whose files have all been left alone for long: those files that can be
  inspected, and there must be one.  The search stops at the first file that was touched lately.
  Only this check can fail, on times that are too large or endless;
* *inconsistent naming* -- two conventions or more that three names or more follow each;
* *single use* -- names with few uses;
* *too large* -- names that spread over many files;
* *too small* -- names with few uses, all in one file.
-/
import CodeAtlas.Naming.EditDistance
import CodeAtlas.Number.Percent
import CodeAtlas.Review.Moment
import CodeAtlas.Review.Options

namespace CodeAtlas.Review

set_option autoImplicit false

/-- The groups of each name. -/
abbrev Definitions := Entries (List Group)

/-- What can be found out about files: when each was last changed, if that can be known, and what
time it is now. -/
structure Clock where
  changed : Text → Option Moment
  now : Moment

/-! ## Groups -/

def location (g : Group) : Location := ⟨g.filePath, g.firstLine⟩

def locations (groups : List Group) : List Location := groups.map location

/-- The files of the groups, each once. -/
def files (groups : List Group) : List Text := Text.distinct (groups.map (·.filePath))

/-- The number of lines of all groups together. -/
def lineCount (groups : List Group) : Nat := (groups.map (·.lines.length)).foldr (· + ·) 0

/-! ## Names that are one name -/

/-- What two spellings of one name have in common. -/
def folded (name : Text) : Text := Text.trim (Text.lower name)

/-- The names of each folded form. -/
def spellings (ds : Definitions) : Entries (List Text) :=
  ds.keys.foldl (fun e name => Entries.push e (folded name) name) []

def groupsOf (ds : Definitions) (name : Text) : List Group := (ds.get? name).getD []

def duplicateIssue (ds : Definitions) (names : List Text) : Issue :=
  let first := names.headD []
  let places := names.flatMap fun name => locations (groupsOf ds name)
  { kind := .duplicate
    severity := .warning
    group := first
    message := "Found " ++ Number.showNat names.length ++ " variations of the same group name"
    suggestion := "Standardize to one name: \"" ++ first ++ "\" (found: " ++
      Text.join ", " names ++ ")"
    affected := names
    locations := places
    metrics := { uses := some places.length } }

def duplicates (ds : Definitions) : List Issue :=
  ((spellings ds).values.filter fun names => 2 ≤ names.length).map (duplicateIssue ds)

/-! ## Names that are alike -/

def similarIssue (a b : Text × List Group) (similarity : Float) : Issue :=
  let places := locations a.2 ++ locations b.2
  { kind := .similar
    severity := .info
    group := a.1
    message := "\"" ++ a.1 ++ "\" and \"" ++ b.1 ++ "\" are " ++
      Number.showPercent similarity ++ " similar"
    suggestion := "Consider merging these groups or renaming for clarity"
    affected := [a.1, b.1]
    locations := places
    metrics := { similarity := some similarity, uses := some places.length } }

def similarPair? (threshold : Float) (a b : Text × List Group) : Option Issue :=
  let similarity := Naming.similarity a.1 b.1
  if folded a.1 == folded b.1 then none
  else if similarity < threshold then none
  else some (similarIssue a b similarity)

def similar (o : Options) (ds : Definitions) : List Issue :=
  (Text.pairs ds).filterMap fun p => similarPair? o.similarity p.1 p.2

/-! ## Groups left alone -/

/-- The later of two moments, the first one unless the second is after it. -/
def later (a : Option Moment) (b : Moment) : Moment :=
  match a with
  | some m => if m.before b then b else m
  | none => b

/-- The latest of the changes, given the latest so far; the search ends at the first change after
`limit`. -/
def lastChange (limit : Moment) : Option Moment → List Moment → Option Moment
  | latest, [] => latest
  | latest, m :: rest =>
      if limit.before m then some (later latest m)
      else lastChange limit (some (later latest m)) rest

def orphanedIssue (name : Text) (groups : List Group) (days : Int) : Issue :=
  { kind := .orphaned
    severity := .info
    group := name
    message := "Group hasn't been modified in " ++ Number.showInt days ++ " days"
    suggestion := "Review if this group is still relevant or needs updating"
    locations := locations groups
    metrics := { uses := some groups.length, files := some (files groups).length } }

/-- The issue of a group that was left alone; the limit only matters once a file can be
inspected. -/
def orphan? (o : Options) (c : Clock) (d : Text × List Group) : Except Fault (Option Issue) := do
  let changes := (files d.2).filterMap c.changed
  if changes.isEmpty then return none
  let limit ← c.now.daysEarlier o.orphanedDays
  match lastChange limit none changes with
  | none => return none
  | some m =>
      if limit.before m then return none
      else return some (orphanedIssue d.1 d.2 (← (← c.now.since m).wholeDays))

def orphaned (o : Options) (c : Clock) (ds : Definitions) : Except Fault (List Issue) :=
  (ds.mapM (orphan? o c)).map (·.filterMap id)

/-! ## Naming conventions -/

/-- The text without one line break at its end. -/
def withoutFinalBreak (t : Text) : Text := if t.getLast? == some '\n' then t.dropLast else t

/-- A first character of one class, all further ones of another; a line break at the end does not
count. -/
def hasShape (first further : Char → Bool) (name : Text) : Bool :=
  match withoutFinalBreak name with
  | [] => false
  | c :: rest => first c && rest.all further

/-- The conventions by name. -/
def conventions : List (Text × (Text → Bool)) :=
  [("camelCase", hasShape Char.isLower Char.isAlphanum),
   ("PascalCase", hasShape Char.isUpper Char.isAlphanum),
   ("snake_case", hasShape Char.isLower fun c => c.isLower || c.isDigit || c == '_'),
   ("kebab-case", hasShape Char.isLower fun c => c.isLower || c.isDigit || c == '-'),
   ("withSpaces", fun name => name.any Text.isBlankChar),
   ("withSpecialChars", fun name => name.any fun c =>
      !(c.isAlphanum || Text.isBlankChar c || c == '-' || c == '_'))]

/-- The names that follow each convention, the conventions in order of first use. -/
def followers (names : List Text) : Entries (List Text) :=
  names.foldl (fun e name =>
    (conventions.filter fun c => c.2 name).foldl (fun e c => Entries.push e c.1 name) e) []

/-- The conventions that three names or more follow. -/
def significant (names : List Text) : Entries (List Text) :=
  (followers names).filter fun e => 3 ≤ e.2.length

def inconsistentNaming (ds : Definitions) : List Issue :=
  let found := significant ds.keys
  let affected := found.flatMap Prod.snd
  let shares := found.map fun e => e.1 ++ ": " ++ Number.showNat e.2.length ++ " groups"
  if found.length < 2 then []
  else
    [{ kind := .inconsistentNaming
       severity := .info
       group := "Multiple Groups"
       message := "Found " ++ Number.showNat found.length ++ " different naming conventions"
       suggestion := "Consider standardizing to one naming convention (" ++
         Text.join ", " shares ++ ")"
       affected
       metrics := { uses := some affected.length } }]

/-! ## Uses and files -/

def singleUse? (o : Options) (d : Text × List Group) : Option Issue :=
  if o.singleUse ≤ d.2.length then none
  else some
    { kind := .singleUse
      severity := .info
      group := d.1
      message := "Group is only used " ++ Number.showNat d.2.length ++ " time(s)"
      suggestion := "Consider if this group adds value or could be merged with related groups"
      locations := locations d.2
      metrics := { uses := some d.2.length, files := some (files d.2).length } }

def tooLarge? (o : Options) (d : Text × List Group) : Option Issue :=
  if (files d.2).length ≤ o.tooLarge then none
  else some
    { kind := .tooLarge
      severity := .warning
      group := d.1
      message := "Group spans " ++ Number.showNat (files d.2).length ++ " files"
      suggestion := "Consider splitting this large group into more specific sub-groups"
      locations := locations d.2
      metrics :=
        { uses := some d.2.length, files := some (files d.2).length
          lines := some (lineCount d.2) } }

def tooSmall? (o : Options) (d : Text × List Group) : Option Issue :=
  if o.tooSmall ≤ d.2.length then none
  else if (files d.2).length != 1 then none
  else some
    { kind := .tooSmall
      severity := .info
      group := d.1
      message := "Group has only " ++ Number.showNat d.2.length ++
        " occurrence(s) in a single file"
      suggestion := "Groups are most valuable when they connect code across files. " ++
        "Consider removing or expanding this group."
      locations := locations d.2
      metrics := { uses := some d.2.length, files := some 1, lines := some (lineCount d.2) } }

/-! ## The review -/

/-- The issues of one kind. -/
def check (o : Options) (c : Clock) (ds : Definitions) : Kind → Except Fault (List Issue)
  | .duplicate => .ok (duplicates ds)
  | .similar => .ok (similar o ds)
  | .orphaned => orphaned o c ds
  | .inconsistentNaming => .ok (inconsistentNaming ds)
  | .singleUse => .ok (ds.filterMap (singleUse? o))
  | .tooLarge => .ok (ds.filterMap (tooLarge? o))
  | .tooSmall => .ok (ds.filterMap (tooSmall? o))

/-- The issues of all enabled kinds. -/
def issues (o : Options) (c : Clock) (ds : Definitions) : Except Fault (List Issue) :=
  ((Kind.all.filter o.checks.contains).mapM (check o c ds)).map List.flatten

end CodeAtlas.Review
