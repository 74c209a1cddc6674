/-
# Language.Comment -- annotation comments for a file type

Which comment a new annotation is written in depends on the type of its file alone: `#` for
scripting and configuration languages, `<!-- -->` for markup, `--` for query and functional
languages, and `//` for everything else.
-/
import CodeAtlas.Text.Case

namespace CodeAtlas.Language

set_option autoImplicit false

def hashTypes : List Text :=
  ["py", "gitignore", "yml", "yaml", "bash", "sh", "zsh", "dockerfile",
   "makefile", "properties", "ruby", "rb", "perl", "pl", "toml", "r"]

def markupTypes : List Text := ["html", "htm", "xml", "svg", "vue", "md", "markdown"]

def dashTypes : List Text := ["sql", "lua", "hs", "elm"]

/-- What stands before and after the name in an annotation comment. -/
def commentSyntax (fileType : Text) : Text × Text :=
  let t := Text.lower fileType
  if hashTypes.contains t then ("# @group ", "")
  else if markupTypes.contains t then ("<!-- @group ", " -->")
  else if dashTypes.contains t then ("-- @group ", "")
  else ("// @group ", "")

/-- A ready annotation comment; the description follows a colon, every tag a `#`. -/
def annotationComment (name : Text) (description : Option Text) (tags : List Text)
    (fileType : Text) : Text :=
  let described : Text :=
    match description.filter (!·.isEmpty) with
    | some d => ": " ++ d
    | none => ""
  let tagged : Text := if tags.isEmpty then "" else " #" ++ Text.join " #" tags
  (commentSyntax fileType).1 ++ name ++ described ++ tagged ++ (commentSyntax fileType).2

end CodeAtlas.Language
