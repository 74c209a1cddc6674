/-
# Language.FileType -- the type of a file

A file's type is what follows the last dot of its name, lower-cased; a name without a dot, or with
a dot at its end, has none.  Two names are types by themselves, `Dockerfile` and `Makefile` in any
case.  `isSupported` says which types are scanned.
-/
import CodeAtlas.Path
import CodeAtlas.Text.Case

namespace CodeAtlas.Language

set_option autoImplicit false

/-- Types of files that are scanned. -/
def supportedFileTypes : List Text :=
  ["js", "jsx", "ts", "tsx", "mjs", "cjs",
   "html", "htm", "xml", "svg", "vue",
   "css", "scss", "less",
   "py", "pyw", "pyi", "ipynb",
   "cs", "c", "cpp", "cc", "cxx", "h", "hpp", "m", "mm",
   "go", "rb", "php",
   "java", "kt", "kts", "scala", "groovy", "gvy", "gy", "gsh",
   "sh", "bash", "zsh", "ps1", "psm1", "psd1",
   "md", "markdown", "sql", "rs", "swift", "dart",
   "hs", "lhs", "lua", "r", "vbs", "vb", "fs", "fsx", "fsi",
   "pl", "pm", "t", "pod", "clj", "cljs", "cljc", "edn",
   "erl", "hrl", "jl", "d", "cr", "cob", "cbl", "cpy",
   "f", "for", "f90", "f95", "f03", "f08", "asm", "s",
   "yml", "yaml", "toml", "jsonc", "elm", "dockerfile", "makefile",
   "ex", "exs", "coffee", "litcoffee", "proto", "tcl"].map String.toList

/-- Names that are types by themselves. -/
def typeNames : List Text := ["dockerfile", "makefile"]

/-- What follows the last dot; empty without a dot. -/
def afterLastDot (name : Text) : Text :=
  if name.contains '.' then (name.reverse.takeWhile (· != '.')).reverse else []

/-- The type of a file by its last path component. -/
def fileTypeOfName (name : Text) : Text :=
  let lowered := Text.lower name
  if typeNames.contains lowered then lowered else Text.lower (afterLastDot name)

/-- The type of the file at a path; the empty text when it has none. -/
def fileType (path : Text) : Text :=
  if path.isEmpty then [] else fileTypeOfName (Path.ofText path).name

def isSupported (fileType : Text) : Bool := supportedFileTypes.contains (Text.lower fileType)

end CodeAtlas.Language
