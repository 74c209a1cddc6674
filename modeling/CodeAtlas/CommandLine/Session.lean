/-
# CommandLine.Session -- running a command

A command runs in a place: the directory it is called from, the file of the settings, and a clock.
It may change files, and what it has changed stays even if it fails later.  It answers with lines,
and an exit code that is not zero if it could not do its work.  It fails when its arguments are
misused, when it refuses them for a reason of its own, or when something goes wrong with the files.
-/
import CodeAtlas.CommandLine.Arguments
import CodeAtlas.FileTree.Change
import CodeAtlas.Review.Check
import CodeAtlas.Store.Files
import CodeAtlas.Terminal.Markup
import CodeAtlas.Terminal.Wrap

namespace CodeAtlas.CommandLine

set_option autoImplicit false

open FileTree (Script)

/-- Where a command runs. -/
structure Surroundings where
  here : Path
  settingsFile : Path
  clock : Review.Clock

/-- Why a command failed. -/
inductive Failure where
  | misuse (m : Misuse)
  /-- Refused, and why. -/
  | refused (reason : Text)
  | fault (f : Fault)

namespace Failure

/-- The exit code of the program. -/
def exitCode : Failure → Nat
  | .fault _ => 1
  | _ => 2

/-- What the user is told. -/
def message : Failure → Text
  | .misuse .nothingAsked => "No command given."
  | .misuse .unknownOption => "No such option."
  | .misuse .optionValue => "An option lacks its value, or has one that it does not take."
  | .misuse .badValue => "Invalid value."
  | .misuse .missingOperand => "Missing argument."
  | .misuse .unexpected => "No such command, or an argument too many."
  | .refused reason => reason
  | .fault f => f.message.getD "The files could not be read or written."

end Failure

/-- What a command leaves behind on the terminal. -/
structure Outcome where
  exitCode : Nat := 0
  output : Text := []
  deriving DecidableEq, Repr

/-- A command at work on files. -/
abbrev Session (α : Type) := ExceptT Failure (StateM FileTree) α

namespace Session

variable {α : Type}

/-- The answer of a session, and the files as they are afterwards. -/
def perform (session : Session α) (t : FileTree) : Except Failure α × FileTree :=
  (ExceptT.run session).run t

/-- A script as a part of a session. -/
def run (script : Script α) : Session α := ExceptT.adapt Failure.fault script

/-- A question about the files. -/
def ask (question : FileTree → Except Fault α) : Session α := run (Script.ask question)

/-- A value, or the fault in its stead. -/
def lift (e : Except Fault α) : Session α := ask fun _ => e

def refuse (reason : Text) : Session α := throw (.refused reason)

/-- The store of a workspace. -/
def openStore (s : Surroundings) (workspace : Path) : Session Store := do
  return { here := s.here, workspace := ← ask (·.realPath (s.here ++ workspace)) }

/-- The saved groups of a workspace. -/
def savedGroups (s : Surroundings) (workspace : Path) : Session (Store × Corpus) := do
  let store ← openStore s workspace
  match ← ask store.load with
  | some corpus => return (store, corpus)
  | none =>
      refuse ("No code groups saved for '".toList ++ store.workspace.toText ++
        "'. Run 'groupcode scan' first.".toList)

end Session

namespace Outcome

/-- Lines of text, each with its line break; colours are left out. -/
def echo (lines : List Text) : Outcome :=
  { output := Terminal.withoutColours (lines.flatMap (· ++ ['\n'])) }

/-- Lines as they are drawn. -/
def drawn (lines : List Text) : Outcome := { output := lines.flatMap (· ++ ['\n']) }

/-- The columns of the terminal. -/
def terminalWidth : Nat := 1000

/-- Lines of markup as they are drawn. -/
def printedLines (lines : List Text) : List Text :=
  lines.flatMap fun line =>
    (Terminal.linesOf (Terminal.Markup.shown line)).flatMap
      (Terminal.wrap .folded terminalWidth)

/-- Lines of markup. -/
def printed (lines : List Text) : Outcome :=
  drawn (printedLines lines)

end Outcome

end CodeAtlas.CommandLine
