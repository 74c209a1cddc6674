/-
# Language.Packaged -- the languages that are known without a file

The order of the table matters: the first language that handles a file type is the one that is
used.  The main annotation pattern is the default one.
-/
import CodeAtlas.Language.Table

namespace CodeAtlas.Language

set_option autoImplicit false

/-- A line of a documentation block: `* name: description`. -/
def documentationPattern : Text := "^\\s*\\*\\s*([^:]+?)\\s*:\\s*(.*?)\\s*$"

/-- A language with line comments and block comments. -/
def bracketed (name : Text) (fileTypes : List Text) (strategy : Scan.Strategy)
    (line blockStart blockEnd : Text) (extraPatterns : List Text) : Descriptor :=
  { name, fileTypes, strategy, extraPatterns
    markers := .ofTexts (some line) (some blockStart) (some blockEnd) }

/-- A language with line comments only. -/
def lined (name : Text) (fileTypes : List Text) (strategy : Scan.Strategy) (line : Text)
    (extraPatterns : List Text) : Descriptor :=
  { name, fileTypes, strategy, extraPatterns
    markers := .ofTexts (some line) none none }

/-- A language with block comments only. -/
def blocked (name : Text) (fileTypes : List Text) (strategy : Scan.Strategy)
    (blockStart blockEnd : Text) : Descriptor :=
  { name, fileTypes, strategy
    markers := .ofTexts none (some blockStart) (some blockEnd) }

def packagedLanguages : List Descriptor :=
  [bracketed "JavaScript/TypeScript"
      ["javascript", "typescript", "javascriptreact", "typescriptreact", "js", "jsx", "ts",
       "tsx", "mjs", "cjs"]
      .brace "//" "/*" "*/" [documentationPattern],
   lined "Python"
      ["python", "py", "pyw", "pyi"]
      .indentation "#" [documentationPattern],
   bracketed "C#"
      ["csharp", "cs"]
      .brace "//" "/*" "*/" [],
   bracketed "Java"
      ["java", "kotlin", "kt", "kts", "scala", "groovy", "gvy", "gy", "gsh"]
      .brace "//" "/*" "*/" [],
   bracketed "C/C++"
      ["c", "cpp", "h", "hpp", "cc", "cxx", "m", "mm", "objective-c"]
      .brace "//" "/*" "*/" [],
   bracketed "Go"
      ["go"]
      .brace "//" "/*" "*/" [],
   bracketed "Rust"
      ["rust", "rs"]
      .brace "//" "/*" "*/" [],
   bracketed "Swift/Dart"
      ["swift", "dart"]
      .brace "//" "/*" "*/" [],
   bracketed "PHP"
      ["php"]
      .brace "//" "/*" "*/" [documentationPattern],
   bracketed "Ruby"
      ["ruby", "rb"]
      .generic "#" "=begin" "=end" [],
   lined "Shell"
      ["shellscript", "sh", "bash", "zsh", "ps1", "psm1", "psd1", "dockerfile", "makefile"]
      .generic "#" [],
   lined "YAML"
      ["yaml", "yml", "toml", "properties"]
      .generic "#" [],
   lined "Perl/R/Julia/Elixir"
      ["perl", "pl", "pm", "t", "r", "jl", "ex", "exs", "cr", "coffee", "tcl"]
      .generic "#" [],
   blocked "HTML/XML"
      ["html", "htm", "xml", "svg", "vue", "markdown", "md"]
      .generic "<!--" "-->",
   bracketed "CSS"
      ["css", "scss", "less"]
      .brace "//" "/*" "*/" [],
   lined "SQL/Lua/Haskell"
      ["sql", "lua", "haskell", "hs", "lhs", "elm"]
      .generic "--" [],
   lined "Clojure/Lisp"
      ["clojure", "clj", "cljs", "cljc", "edn", "asm", "s"]
      .generic ";" [],
   lined "Erlang"
      ["erlang", "erl", "hrl"]
      .generic "%" [],
   lined "Fortran"
      ["fortran", "f", "for", "f90", "f95", "f03", "f08"]
      .generic "!" [],
   lined "VB"
      ["vb", "vbs"]
      .generic "'" [],
   bracketed "F#"
      ["fsharp", "fs", "fsx", "fsi"]
      .generic "//" "(*" "*)" [],
   bracketed "Protobuf/JSONC"
      ["proto", "jsonc", "d"]
      .brace "//" "/*" "*/" []]

/-- The table that is used unless a file gives another one. -/
def packaged : Table :=
  { languages := packagedLanguages
    pattern := defaultPattern
    defaultLanguage := .text "JavaScript/TypeScript" }

end CodeAtlas.Language
