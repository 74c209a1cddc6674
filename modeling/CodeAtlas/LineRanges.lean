/-
# LineRanges -- sets of line numbers as compact text

The lines `8 9 10 11 15 16 17 18` are written `8-11,15-18`: the ascending distinct numbers, cut
into maximal runs of neighbours (`runs`), a run of one number written as that number and a longer
one by its two ends.

Reading (`decode`) is lenient: the text is cut at commas, and a piece that is neither a number
nor two numbers around its first `-` is dropped without harm to the others.  A range is read in
the order in which it is written, and a backward range is empty.  Because the first `-` of a
piece divides it, no negative number survives.

`decode` says which lines a text means, however many they are; `read` does the same but refuses a
range with more lines than can be listed.
-/
import CodeAtlas.Fault

namespace CodeAtlas.LineRanges

set_option autoImplicit false

/-! ## Writing -/

/-- Neighbouring repetitions dropped. -/
def dropRepeats : List Int → List Int
  | [] => []
  | [a] => [a]
  | a :: b :: rest => if a == b then dropRepeats (b :: rest) else a :: dropRepeats (b :: rest)

/-- The distinct members in ascending order. -/
def ascending (lines : List Int) : List Int :=
  dropRepeats (lines.mergeSort fun a b => decide (a ≤ b))

/-- The maximal runs of neighbours in an ascending list, as first and last number. -/
def runs : List Int → List (Int × Int)
  | [] => []
  | a :: rest =>
      match runs rest with
      | [] => [(a, a)]
      | (first, last) :: others =>
          if first == a + 1 then (a, last) :: others else (a, a) :: (first, last) :: others

def showRun (run : Int × Int) : Text :=
  if run.1 == run.2 then Number.showInt run.1
  else Number.showInt run.1 ++ '-' :: Number.showInt run.2

def encode (lines : List Int) : Text := Text.join "," ((runs (ascending lines)).map showRun)

/-! ## Reading -/

/-- The whole numbers from `first` to `last`, none when `last < first`. -/
def span (first last : Int) : List Int :=
  (List.range (last + 1 - first).toNat).map fun i => first + (i : Nat)

/-- The first and the last line of one piece, if it is one number or two. -/
def ends? (piece : Text) : Option (Int × Int) :=
  match Text.cut '-' (Text.trim piece) with
  | (low, some high) =>
      match Number.readInt? low, Number.readInt? high with
      | some first, some last => some (first, last)
      | _, _ => none
  | (alone, none) => (Number.readInt? alone).map fun n => (n, n)

/-- The ranges of a text, in order. -/
def ranges (t : Text) : List (Int × Int) := (Text.splitOn ',' t).filterMap ends?

def decode (t : Text) : List Int := (ranges t).flatMap fun r => span r.1 r.2

/-- Most lines a list can number. -/
def countLimit : Nat := Nat.pow 2 63

/-- Most lines there is room for. -/
def roomLimit : Nat := Nat.pow 2 32

/-- Refuse a range that is too long to be listed. -/
def checkRange (r : Int × Int) : Except Fault Unit :=
  let count := (r.2 + 1 - r.1).toNat
  if countLimit ≤ count then .error .tooLarge
  else if roomLimit ≤ count then .error .outOfMemory
  else .ok ()

/-- The lines of a text, unless one of its ranges is too long. -/
def read (t : Text) : Except Fault (List Int) :=
  ((ranges t).forM checkRange).map fun _ => decode t

/-! ## Reading from a data file -/

/-- A member of a list of line numbers: a whole number, or a text of digits.  A text may look
like digits and still not be a number; anything else is dropped. -/
def ofMember : Value → Except Fault (List Int)
  | .int n => .ok [n]
  | .text t =>
      if Text.isDigitLikeText (Text.trim t) then (readInteger t).map ([·]) else .ok []
  | _ => .ok []

/-- Line numbers from either form in which they are saved: compact text or a list. -/
def ofValue : Value → Except Fault (List Int)
  | .text t => read t
  | .list vs => vs.foldlM (fun lines v => (ofMember v).map (lines ++ ·)) []
  | _ => .ok []

end CodeAtlas.LineRanges
