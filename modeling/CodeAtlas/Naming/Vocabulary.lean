/-
# Naming.Vocabulary -- words that mean the same

Two tables fold the words of a name.  `abbreviations` spells a short form out; `wordForms` takes
the verb, the participle and the plural of a notion to one noun.  A table maps a word to what is
written instead, and some entries are written as two words.

No word that a table writes is a word that a later pass would change again, except that an
abbreviation may be spelled out as a word form, which the second table then folds.
-/
import CodeAtlas.Entries

namespace CodeAtlas.Naming

set_option autoImplicit false

/-- What to write for which word. -/
abbrev Vocabulary := Entries Text

def Vocabulary.ofStrings (table : List (String × String)) : Vocabulary :=
  table.map fun entry => (entry.1.toList, entry.2.toList)

def abbreviations : Vocabulary := .ofStrings
  [("config", "configuration"), ("configs", "configuration"), ("conf", "configuration"),
   ("mgmt", "management"), ("mgr", "manager"), ("util", "utility"), ("utils", "utilities"),
   ("func", "function"), ("funcs", "functions"), ("val", "validation"), ("vals", "validation"),
   ("auth", "authentication"), ("proc", "processing"), ("init", "initialization"),
   ("comp", "component"), ("comps", "components"), ("db", "database"), ("err", "error"),
   ("msg", "message"), ("msgs", "messages"), ("req", "request"), ("res", "response"),
   ("btn", "button"), ("btns", "buttons"), ("nav", "navigation"), ("info", "information"),
   ("calc", "calculation"), ("calcs", "calculations"), ("param", "parameter"),
   ("params", "parameters"), ("doc", "document"), ("docs", "documents"), ("str", "string"),
   ("num", "number"), ("int", "integer"), ("bool", "boolean"), ("arr", "array"),
   ("obj", "object"), ("fmt", "format"), ("env", "environment"), ("tmp", "temporary"),
   ("temp", "temporary"), ("src", "source"), ("dest", "destination"), ("dir", "directory"),
   ("dirs", "directories"), ("gen", "generation"), ("sync", "synchronization"),
   ("async", "asynchronous")]

def wordForms : Vocabulary := .ofStrings
  [("normalize", "normalization"), ("normalizing", "normalization"),
   ("normalized", "normalization"), ("validate", "validation"), ("validating", "validation"),
   ("validated", "validation"), ("initialize", "initialization"),
   ("initializing", "initialization"), ("initialized", "initialization"),
   ("optimize", "optimization"), ("optimizing", "optimization"), ("optimized", "optimization"),
   ("synchronize", "synchronization"), ("synchronizing", "synchronization"),
   ("synchronized", "synchronization"), ("serialize", "serialization"),
   ("serializing", "serialization"), ("serialized", "serialization"),
   ("authorize", "authorization"), ("authorizing", "authorization"),
   ("authorized", "authorization"), ("authenticate", "authentication"),
   ("authenticating", "authentication"), ("authenticated", "authentication"),
   ("localize", "localization"), ("localizing", "localization"), ("localized", "localization"),
   ("generate", "generation"), ("generating", "generation"), ("generated", "generation"),
   ("calculate", "calculation"), ("calculating", "calculation"), ("calculated", "calculation"),
   ("navigate", "navigation"), ("navigating", "navigation"), ("navigated", "navigation"),
   ("migrate", "migration"), ("migrating", "migration"), ("migrated", "migration"),
   ("aggregate", "aggregation"), ("aggregating", "aggregation"), ("aggregated", "aggregation"),
   ("configure", "configuration"), ("configuring", "configuration"),
   ("configured", "configuration"), ("verify", "verification"), ("verifying", "verification"),
   ("verified", "verification"), ("modify", "modification"), ("modifying", "modification"),
   ("modified", "modification"), ("notify", "notification"), ("notifying", "notification"),
   ("notified", "notification"), ("classify", "classification"),
   ("classifying", "classification"), ("classified", "classification"), ("parse", "parsing"),
   ("parsed", "parsing"), ("format", "formatting"), ("formats", "formatting"),
   ("formatted", "formatting"), ("transform", "transformation"),
   ("transforms", "transformation"), ("transforming", "transformation"),
   ("transformed", "transformation"), ("convert", "conversion"), ("converts", "conversion"),
   ("converting", "conversion"), ("converted", "conversion"), ("process", "processing"),
   ("processes", "processing"), ("processed", "processing"), ("handle", "handling"),
   ("handles", "handling"), ("handled", "handling"), ("render", "rendering"),
   ("renders", "rendering"), ("rendered", "rendering"), ("fetch", "fetching"),
   ("fetches", "fetching"), ("fetched", "fetching"), ("load", "loading"), ("loads", "loading"),
   ("loaded", "loading"), ("save", "saving"), ("saves", "saving"), ("saved", "saving"),
   ("create", "creation"), ("creates", "creation"), ("creating", "creation"),
   ("created", "creation"), ("delete", "deletion"), ("deletes", "deletion"),
   ("deleting", "deletion"), ("deleted", "deletion"), ("update", "updating"),
   ("updates", "updating"), ("updated", "updating"), ("execute", "execution"),
   ("executes", "execution"), ("executing", "execution"), ("executed", "execution"),
   ("handler", "handling"), ("handlers", "handling"), ("helper", "helpers"),
   ("utility", "utilities"), ("service", "services"), ("controller", "controllers"),
   ("component", "components"), ("module", "modules"), ("model", "models"), ("view", "views"),
   ("route", "routes"), ("test", "tests"), ("spec", "specs"), ("datetime", "date time"),
   ("date-time", "date time"), ("timestamp", "date time")]

end CodeAtlas.Naming
