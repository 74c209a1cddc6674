/-
# Scan.Scanner -- scanning documents of many languages

A scanner holds a language table and remembers the additional patterns of the languages it has
met, by the name of the language.  They are made ready only when a document first needs them, and
from then on every language of that name uses them.

`Scanner.scan` gives the groups of a document and the scanner as it is afterwards.  A document in
no known language has no groups.
-/
import CodeAtlas.Language.Table
import CodeAtlas.Scan.Document

namespace CodeAtlas.Scan

set_option autoImplicit false

structure Scanner where
  table : Language.Table
  ready : Entries (List Pattern) := []

namespace Scanner

/-- The additional patterns of a language: those that are ready, or else made anew. -/
def extras (s : Scanner) (d : Language.Descriptor) : Except Fault (List Pattern) :=
  match s.ready.get? d.name with
  | some patterns => .ok patterns
  | none => s.table.compileExtras d

def reader (s : Scanner) (d : Language.Descriptor) : Reader :=
  { markers := d.markers
    strategy := d.strategy
    main := s.table.pattern
    extras := s.extras d }

/-- The scanner after the patterns of `d` have been made ready. -/
def prepared (s : Scanner) (d : Language.Descriptor) : Scanner :=
  match s.extras d with
  | .ok patterns => { s with ready := s.ready.set d.name patterns }
  | .error _ => s

/-- The groups of a document, given by its lines. -/
def scanLines (s : Scanner) (lines : List Text) (filePath : Text) (languageId : Option Text) :
    Except Fault (List Group) × Scanner :=
  match s.table.resolve? languageId (some filePath) with
  | none => (.ok [], s)
  | some d =>
      ((s.reader d).groups filePath lines,
        if (s.reader d).asks lines then s.prepared d else s)

/-- The groups of a document, given by its text; only a line feed ends a line. -/
def scan (s : Scanner) (text : Text) (filePath : Text) (languageId : Option Text) :
    Except Fault (List Group) × Scanner :=
  s.scanLines (Text.splitOn '\n' text) filePath languageId

/-- Several documents, one after the other. -/
def scanAll (s : Scanner) (documents : List (Text × Text × Option Text)) :
    List (Except Fault (List Group)) :=
  match documents with
  | [] => []
  | (text, filePath, languageId) :: rest =>
      let (groups, s') := s.scan text filePath languageId
      groups :: s'.scanAll rest

end Scanner

end CodeAtlas.Scan
