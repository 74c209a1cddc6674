/-
# Language.Table -- the languages of a configuration file

A language table is a list of descriptors, the main annotation pattern and its flags, and perhaps
a default language.  Its file is TOML with an array `languages`, a table `comment_pattern` and a
key `default_language`.

Loading is forgiving (`load`).  A file that cannot be read, has no languages, a language without a
name, a list where none can be made of what is there, or a main pattern that is invalid or has
fewer than two groups gives the `fallback` table with one language for all files.  Three mistakes
are not forgiven and are faults: a value that has no members where a table is looked into, a flag
that is no text, and a main pattern with a repetition count that is too large or nested too deep.

What makes patterns of their texts is given to `load`, and the table keeps it for the additional
patterns; the packaged tables use `Pattern.read`.

`default_language` may be anything; only a text can name a language.
-/
import CodeAtlas.Language.Descriptor
import CodeAtlas.Language.FileType
import CodeAtlas.Pattern.Reader
import CodeAtlas.Text.Utf8
import CodeAtlas.Toml.Document

namespace CodeAtlas.Language

set_option autoImplicit false

structure Table where
  languages : List Descriptor
  pattern : Pattern
  defaultLanguage : Value := .null
  /-- The flags of the main pattern, which the additional patterns have, too. -/
  flags : Pattern.Flags := pattern.flags
  /-- What makes the additional patterns of their texts. -/
  compile : Pattern.Compiler := Pattern.read

/-! ## The fallback -/

open Pattern in
/-- White space. -/
def blankClass : Expr := .oneOf false [.category .blank false]

open Pattern in
/-- `@group`, white space, a name without colon, and optionally a colon and a description up to
the end, the white space around both left out. -/
def annotationExpr : Expr :=
  .seq (.char '@') <| .seq (.char 'g') <| .seq (.char 'r') <| .seq (.char 'o') <|
  .seq (.char 'u') <| .seq (.char 'p') <|
  .seq (.rounds 1 none true blankClass) <|
  .seq (.group 1 (.rounds 1 none false (.oneOf true [.range ':' ':']))) <|
  .seq (.rounds 0 (some 1) true <|
    .seq (.rounds 0 none true blankClass) <| .seq (.char ':') <|
    .seq (.rounds 0 none true blankClass) (.group 2 (.rounds 0 none false .any))) <|
  .seq (.rounds 0 none true blankClass) (.anchor .lineEnd)

def defaultSource : Text := "@group\\s+([^:]+?)(?:\\s*:\\s*(.*?))?\\s*$"

/-- The annotation pattern that is used unless a file gives another one. -/
def defaultPattern : Pattern :=
  { source := defaultSource, flags := { ignoreCase := true }, expr := annotationExpr, groups := 2 }

def fallbackLanguage : Descriptor :=
  { name := "Default"
    fileTypes := ["*"]
    markers := .ofTexts (some "//") (some "/*") (some "*/") }

/-- One language for all files. -/
def fallback : Table :=
  { languages := [fallbackLanguage]
    pattern := defaultPattern
    defaultLanguage := .text fallbackLanguage.name }

/-! ## Loading -/

/-- Why a table is not taken from its file. -/
inductive LoadFault where
  /-- The fallback stands in. -/
  | forgiven
  /-- Nothing stands in. -/
  | fatal (f : Fault)

abbrev Load (α : Type) := Except LoadFault α

/-- The member of a table, or `absent`; looking into anything else is fatal. -/
def member (v : Value) (key : Text) (absent : Value) : Load Value :=
  match v with
  | .table ms => .ok ((Entries.get? ms key).getD absent)
  | _ => .error (.fatal .noSuchMember)

/-- The members of a sequence, shown as texts, if all of them can be shown. -/
def texts (v : Value) : Load (List Text) :=
  match v.sequence? with
  | some vs => if vs.all Value.isShowable then .ok (vs.map Value.shown) else .error .forgiven
  | none => .error .forgiven

def loadMarkers (v : Value) : Load Markers := do
  match v.solid? with
  | none => return {}
  | some m =>
      return { line := Marker.ofValue? (← member m "line" .null)
               blockStart := Marker.ofValue? (← member m "block_start" .null)
               blockEnd := Marker.ofValue? (← member m "block_end" .null) }

/-- A strategy by its name; anything else means the generic one. -/
def loadStrategy (v : Value) : Scan.Strategy :=
  (v.text?.bind Scan.Strategy.ofName?).getD .generic

/-- The name of a language, which has to be there. -/
def loadName (v : Value) : Load Text :=
  match v with
  | .table ms =>
      match Entries.get? ms "name" with
      | some v => if v.isShowable then .ok v.shown else .error .forgiven
      | none => .error .forgiven
  | _ => .error (.fatal .noSuchMember)

def loadDescriptor (v : Value) : Load Descriptor := do
  return { name := ← loadName v
           fileTypes := ← texts (← member v "file_types" (.list []))
           markers := ← loadMarkers (← member v "comment_markers" .null)
           strategy := loadStrategy (← member v "capture" .null)
           extraPatterns := ← texts (← member v "extra_patterns" (.list [])) }

/-- The flag a letter stands for, joined to those already set. -/
def addFlag (f : Pattern.Flags) (letter : Text) : Pattern.Flags :=
  let lowered := Text.lower letter
  if lowered == "i" then { f with ignoreCase := true }
  else if lowered == "m" then { f with multiLine := true }
  else if lowered == "s" then { f with dotAll := true }
  else f

/-- Flags from a sequence of letters; unknown letters are passed over. -/
def loadFlags (v : Value) : Load Pattern.Flags := do
  match v.solid? with
  | none => return {}
  | some v =>
      match v.sequence? with
      | none => throw .forgiven
      | some letters =>
          letters.foldlM (fun f letter =>
            match letter.text? with
            | some t => .ok (addFlag f t)
            | none => .error (.fatal .noSuchMember)) {}

def readPattern (compile : Pattern.Compiler) (source : Text) (flags : Pattern.Flags) :
    Load Pattern :=
  match compile source flags with
  | .ok p => .ok p
  | .error .tooLarge => .error (.fatal .tooLarge)
  | .error .tooDeep => .error (.fatal .tooDeep)
  | .error _ => .error .forgiven

/-- The main pattern and its flags; it needs a group for the name and one for the description. -/
def loadPattern (compile : Pattern.Compiler) (v : Value) : Load (Pattern × Pattern.Flags) := do
  let flags ← loadFlags (← member v "flags" (.text "i"))
  match ← member v "pattern" (.text defaultSource) with
  | .text source =>
      let p ← readPattern compile source flags
      if p.groups < 2 then throw .forgiven else return (p, flags)
  | _ => throw .forgiven

/-- The table in the contents of a file. -/
def ofEntries (compile : Pattern.Compiler) (e : Entries Value) : Load Table := do
  match e.get? "languages" with
  | none => throw .forgiven
  | some v =>
      match v.sequence? with
      | none => throw .forgiven
      | some vs =>
          let languages ← vs.mapM loadDescriptor
          if languages.isEmpty then throw .forgiven
          let (pattern, flags) ← loadPattern compile ((e.get? "comment_pattern").getD (.table []))
          return { languages, pattern, flags, compile
                   defaultLanguage := (e.get? "default_language").getD .null }

/-- The table of a file, given its text if there is one, with line ends of any kind. -/
def load (compile : Pattern.Compiler) (text? : Option Text) : Except Fault Table :=
  match text?.map fun t => Toml.read (Text.withLineFeeds t) with
  | none => .ok { fallback with compile }
  | some (.error .unreadable) => .ok { fallback with compile }
  | some (.error .wrongKind) => .ok { fallback with compile }
  | some (.error f) => .error f
  | some (.ok e) =>
      match ofEntries compile e with
      | .ok table => .ok table
      | .error .forgiven => .ok { fallback with compile }
      | .error (.fatal f) => .error f

namespace Table

/-! ## Looking languages up -/

/-- The additional patterns of a language that are valid, in their order. -/
def compileExtras (t : Table) (d : Descriptor) : Except Fault (List Pattern) :=
  d.extraPatterns.foldlM (fun done source =>
    match t.compile source t.flags with
    | .ok p => .ok (done ++ [p])
    | .error .invalid => .ok done
    | .error .clashing => .error .clashingFlags
    | .error .tooLarge => .error .tooLarge
    | .error .tooDeep => .error .tooDeep
    | .error (.tooManyDigits n) => .error (.integerText source (.tooManyDigits n))) []

/-- The first language that handles a file type; the empty type belongs to none. -/
def find? (t : Table) (fileType : Text) : Option Descriptor :=
  if fileType.isEmpty then none else t.languages.find? (·.handles fileType)

/-- The language for everything else: the default language if there is one of that name, else the
first that handles `*`, else the first.  A table without languages has none. -/
def default? (t : Table) : Option Descriptor :=
  let wanted := t.defaultLanguage.text?.filter (!·.isEmpty)
  (t.languages.find? fun d => wanted == some d.name) <|>
    (t.languages.find? fun d => d.fileTypes.contains "*") <|> t.languages.head?

/-- The language of a document: by its language id if one is given and known, else by the type of
its file, else the default. -/
def resolve? (t : Table) (languageId filePath : Option Text) : Option Descriptor :=
  t.find? (languageId.getD []) <|> t.find? (fileType (filePath.getD [])) <|> t.default?

end Table

end CodeAtlas.Language
