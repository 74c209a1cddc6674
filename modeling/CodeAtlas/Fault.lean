/-
# Fault -- what can go wrong

Every operation that can fail says why with a `Fault`: a cause, not a sentence.  `Fault.message`
is the only place where the wording is decided; causes whose wording is nobody's concern have
none.
-/
import CodeAtlas.Value.Shown

namespace CodeAtlas

set_option autoImplicit false

inductive Fault where
  /-- A text that should be a whole number. -/
  | integerText (text : Text) (cause : Number.IntegerFault)
  /-- A text that should be a floating-point number. -/
  | floatText (text : Text)
  /-- A text that should say yes or no, for a setting. -/
  | truthText (setting : Text) (text : Text)
  /-- Not a number, where a whole number is wanted. -/
  | nanAsInteger
  /-- A value outside a closed set of words. -/
  | notAMember (value : Value) (kind : Text)
  /-- A setting that does not exist. -/
  | unknownSetting (section_ key : Text)
  /-- A section of settings that does not exist. -/
  | unknownSection (section_ : Text)
  /-- No usable workspace path. -/
  | invalidWorkspace
  /-- A value of the wrong kind for an operation. -/
  | wrongKind
  /-- A member that values of this kind do not have. -/
  | noSuchMember
  /-- A position that does not exist. -/
  | outOfRange
  /-- A number too large for its purpose. -/
  | tooLarge
  /-- Bytes that are no text. -/
  | undecodable
  /-- A text that is not in order. -/
  | unreadable
  /-- A value that is used before there is one. -/
  | notYetThere
  /-- Nested too deep. -/
  | tooDeep
  /-- More than there is room for. -/
  | outOfMemory
  /-- A symbolic link that leads back to itself. -/
  | linkLoop
  /-- More symbolic links on a path than are followed. -/
  | tooManyLinks
  /-- A home directory that is not known. -/
  | unknownHome
  /-- Something other than a directory stands where one is needed. -/
  | inTheWay
  /-- A path leads through something that is not a directory. -/
  | notADirectory
  /-- A directory stands where a file is needed. -/
  | isADirectory
  /-- There is no such file. -/
  | notFound
  /-- A line that is not an ignore pattern. -/
  | ignorePattern
  /-- A range of characters that ends before it begins. -/
  | characterRange
  /-- Flags of a pattern that exclude each other. -/
  | clashingFlags
  /-- A clock that is a day or more ahead or behind. -/
  | farOffset
  /-- A path that is too long to be looked up. -/
  | nameTooLong

namespace Fault

/-- The written form of a text that is no whole number, cut off at 200 characters. -/
def integerTextLimit : Nat := 200

/-- The wording of a fault, for the causes that have one. -/
def message : Fault → Option Text
  | .integerText t .notANumber =>
      some ("invalid literal for int() with base 10: " ++
        (Text.quoted t).take integerTextLimit)
  | .integerText _ (.tooManyDigits n) =>
      some ("Exceeds the limit (4300 digits) for integer string conversion: value has " ++
        Number.showNat n ++ " digits; use sys.set_int_max_str_digits() to increase the limit")
  | .floatText t => some ("could not convert string to float: " ++ Text.quoted t)
  | .truthText setting t =>
      some ("Expected a boolean for " ++ setting ++ ", got '" ++ t ++ "'")
  | .nanAsInteger => some "cannot convert float NaN to integer"
  | .notAMember v kind => some (v.literal ++ " is not a valid " ++ kind)
  | .unknownSetting s k => some ("Unknown setting '" ++ s ++ "." ++ k ++ "'")
  | .unknownSection s => some ("Unknown config section '" ++ s ++ "'")
  | .invalidWorkspace => some "Invalid workspace path"
  | .clashingFlags => some "ASCII and UNICODE flags are incompatible"
  | .farOffset =>
      some ("offset must be a timedelta strictly between -timedelta(hours=24) and " ++
        "timedelta(hours=24).")
  | _ => none

end Fault

/-- A whole number from text, or the fault that says why not. -/
def readInteger (t : Text) : Except Fault Int :=
  match Number.readInt t with
  | .ok n => .ok n
  | .error cause => .error (.integerText t cause)

/-- A floating-point number from text. -/
def readNumber (t : Text) : Except Fault Number.Double :=
  match Number.readFloat? t with
  | some x => .ok x
  | none => .error (.floatText t)

end CodeAtlas
