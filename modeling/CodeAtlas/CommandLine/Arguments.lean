/-
# CommandLine.Arguments -- options and operands

The arguments of a command are options and operands.  An option has a long name, after two
hyphens, and may have a short one, a letter after one hyphen.  If it takes a value, the value is
the next argument, whatever that looks like, or it is attached: after `=` to the long name, right
behind the short one.  Short options without values can be written together.  After `--`
everything is an operand; so is a hyphen alone.

Where a command has commands of its own, the options end at the first operand; otherwise options
and operands may be mixed.

`separate` tells options from operands and finds what cannot be read at all.  `Form.fill` then looks
at the values: first those of the options, then the operands in their order, then what is left
over.  Of several values of one option the last one counts.
-/
import CodeAtlas.FileTree.Basic
import CodeAtlas.Number.Integer

namespace CodeAtlas.CommandLine

set_option autoImplicit false

/-- Why arguments are refused. -/
inductive Misuse where
  /-- No argument where a command has to be named. -/
  | nothingAsked
  | unknownOption
  /-- An option without its value, or with one that it does not take. -/
  | optionValue
  /-- A value that is no number of the right size, or no path of the right kind. -/
  | badValue
  | missingOperand
  /-- An operand too many, no command, or an unknown one. -/
  | unexpected
  deriving DecidableEq, Repr

/-! ## Values -/

/-- What a value has to be. -/
inductive Kind where
  | text
  | path
  /-- The path of something that is there and no file. -/
  | directory
  /-- The path of something that is there and no directory. -/
  | file
  /-- A whole number from 1 on. -/
  | count
  deriving DecidableEq, Repr

/-- Must the path lead to a directory, because of how it ends? -/
def endsAsDirectory (t : Text) : Bool :=
  ["".toList, "."].contains ((Text.splitOn '/' t).getLastD [])

/-- Is there something other than a directory at the path? -/
def leadsToFile (t : FileTree) (here : Path) (path : Text) : Bool :=
  !path.isEmpty && !endsAsDirectory path && t.isFile (here ++ Path.ofText path)

def leadsToDirectory (t : FileTree) (here : Path) (path : Text) : Bool :=
  !path.isEmpty && t.isDirectory (here ++ Path.ofText path)

/-- Is the value of that kind, where paths are seen from `here`? -/
def Kind.accepts (t : FileTree) (here : Path) (value : Text) : Kind → Bool
  | .text => true
  | .path => true
  | .directory => leadsToDirectory t here value
  | .file => leadsToFile t here value
  | .count => (Number.readInt? value).any (1 ≤ ·)

/-! ## Options -/

/-- An option of a command. -/
structure Switch where
  long : Text
  short : Option Char := none
  /-- What its value has to be, if it takes one. -/
  kind : Option Kind := none
  deriving DecidableEq, Repr

/-- An option as it was given, and its value. -/
abbrev Use := Switch × Text

/-- Short options written together, after the hyphen, and whether `next?` was used up. -/
def readCluster (switches : List Switch) (next? : Option Text) :
    Text → Except Misuse (List Use × Bool)
  | [] => .ok ([], false)
  | c :: rest =>
      match switches.find? fun s => s.short == some c with
      | none => .error .unknownOption
      | some s =>
          if s.kind.isNone then
            (readCluster switches next? rest).map fun r => ((s, []) :: r.1, r.2)
          else if !rest.isEmpty then .ok ([(s, rest)], false)
          else
            match next? with
            | some value => .ok ([(s, value)], true)
            | none => .error .optionValue

/-- The options in an argument, and whether the next argument was used up for a value. -/
def readOption (switches : List Switch) (arg : Text) (next? : Option Text) :
    Except Misuse (List Use × Bool) :=
  let (name, attached?) := Text.cut '=' arg
  match switches.find? fun s => "--" ++ s.long == name with
  | some s =>
      match s.kind, attached?, next? with
      | none, none, _ => .ok ([(s, [])], false)
      | none, some _, _ => .error .optionValue
      | some _, some value, _ => .ok ([(s, value)], false)
      | some _, none, some value => .ok ([(s, value)], true)
      | some _, none, none => .error .optionValue
  | none =>
      if Text.after? "--" arg |>.isSome then .error .unknownOption
      else readCluster switches next? (arg.drop 1)

/-- Options and operands apart. -/
structure Separated where
  uses : List Use := []
  operands : List Text := []

/-- Does the argument hold options? -/
def isOption (arg : Text) : Bool := arg.head? == some '-' && arg.length > 1

/-- Tell options from operands; `mixed` says whether options may come after operands. -/
def separate (switches : List Switch) (mixed : Bool) (args : List Text) :
    Except Misuse Separated :=
  match args with
  | [] => .ok {}
  | arg :: rest =>
      if arg == "--" then .ok { operands := rest }
      else if isOption arg then
        match readOption switches arg rest.head? with
        | .error m => .error m
        | .ok (uses, usedUp) =>
            (separate switches mixed (rest.drop (if usedUp then 1 else 0))).map fun s =>
              { s with uses := uses ++ s.uses }
      else if mixed then
        (separate switches mixed rest).map fun s => { s with operands := arg :: s.operands }
      else .ok { operands := arg :: rest }
termination_by args.length
decreasing_by
  · simp only [List.length_drop, List.length_cons]; omega
  · simp

/-! ## Forms -/

/-- An operand: what it has to be, and what it is if it is left out. -/
structure Operand where
  kind : Kind
  absent : Option Text := none

/-- What a command takes. -/
structure Form where
  switches : List Switch := []
  operands : List Operand := []

/-- A form filled in. -/
structure Filled where
  uses : List Use
  operands : List Text

/-- The option that asks for help; every command has it. -/
def helpSwitch : Switch := { long := "help" }

namespace Filled

def isGiven (f : Filled) (long : Text) : Bool := f.uses.any (·.1.long == long)

/-- All values of an option. -/
def values (f : Filled) (long : Text) : List Text :=
  (f.uses.filter (·.1.long == long)).map Prod.snd

/-- The value of an option that counts. -/
def value? (f : Filled) (long : Text) : Option Text := (f.values long).getLast?

def number? (f : Filled) (long : Text) : Option Int := (f.value? long).bind Number.readInt?

def path? (f : Filled) (long : Text) : Option Path := (f.value? long).map Path.ofText

def operand (f : Filled) (i : Nat) : Text := f.operands.getD i []

def operandPath (f : Filled) (i : Nat) : Path := Path.ofText (f.operand i)

end Filled

namespace Form

/-- Is the value of every used option of the right kind? -/
def usesFit (t : FileTree) (here : Path) (f : Filled) : Bool :=
  f.uses.all fun u =>
    match u.1.kind, f.value? u.1.long with
    | some kind, some value => kind.accepts t here value
    | _, _ => true

/-- The operands, with those left out filled in. -/
def fillOperands (t : FileTree) (here : Path) :
    List Operand → List Text → Except Misuse (List Text)
  | [], [] => .ok []
  | [], _ :: _ => .error .unexpected
  | o :: more, values =>
      match values.head?.or o.absent with
      | none => .error .missingOperand
      | some value =>
          if o.kind.accepts t here value then
            (fillOperands t here more values.tail).map (value :: ·)
          else .error .badValue

/-- The form filled in; `none` if help is asked for. -/
def fill (t : FileTree) (here : Path) (form : Form) (args : List Text) :
    Except Misuse (Option Filled) := do
  let s ← separate (helpSwitch :: form.switches) true args
  let filled : Filled := ⟨s.uses, s.operands⟩
  if filled.isGiven helpSwitch.long then return none
  if !usesFit t here filled then throw .badValue
  return some { filled with operands := ← fillOperands t here form.operands s.operands }

end Form

end CodeAtlas.CommandLine
