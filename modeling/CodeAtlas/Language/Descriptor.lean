/-
# Language.Descriptor -- what is known about a language

A descriptor names a language, the types of its files, its comment markers, how far its
annotations capture, and additional annotation patterns.  Descriptors come from a file, and that
file may declare a marker that is no text.  Such a marker is kept (`Marker.other`), and looking
for it in a line is a fault; `Markers.plain` are the markers that can be looked for.

Because the tests of a line are done in a fixed order, a marker that is no text does harm only to
lines for which no earlier test has decided: `classifyFault` and `captureFault` say to which.
-/
import CodeAtlas.Scan.Capture
import CodeAtlas.Text.Case

namespace CodeAtlas.Language

set_option autoImplicit false

/-- A declared marker: a text, or something else that is not hollow. -/
inductive Marker where
  | text (t : Text)
  | other (v : Value)

namespace Marker

def plain? : Marker → Option Text
  | .text t => some t
  | .other _ => none

def isOther (m : Option Marker) : Bool :=
  match m with
  | some (.other _) => true
  | _ => false

/-- The marker a file declares; a hollow value declares none. -/
def ofValue? (v : Value) : Option Marker :=
  v.solid?.map fun
    | .text t => .text t
    | v => .other v

end Marker

structure Markers where
  line : Option Marker := none
  blockStart : Option Marker := none
  blockEnd : Option Marker := none

namespace Markers

/-- The markers that are texts. -/
def plain (m : Markers) : Scan.Markers :=
  { line := m.line.bind Marker.plain?
    blockStart := m.blockStart.bind Marker.plain?
    blockEnd := m.blockEnd.bind Marker.plain? }

/-- All three markers are texts or absent. -/
def allPlain (m : Markers) : Bool :=
  !(Marker.isOther m.line || Marker.isOther m.blockStart || Marker.isOther m.blockEnd)

def ofTexts (line blockStart blockEnd : Option Text) : Markers :=
  ⟨line.map .text, blockStart.map .text, blockEnd.map .text⟩

/-! ## Lines and markers that are no texts -/

/-- Does classifying a trimmed line meet a marker that is no text?  The line marker is looked for
in every line; the block markers only when the line does not begin with the line marker and both
are declared; the block end only behind a block start. -/
def classifyFault (m : Markers) (t : Text) : Bool :=
  if t.isEmpty then false
  else if Marker.isOther m.line then true
  else if (Scan.wholeLineComment? m.plain t).isSome then false
  else if m.blockStart.isNone || m.blockEnd.isNone then false
  else if Marker.isOther m.blockStart then true
  else if !Marker.isOther m.blockEnd then false
  else
    match Scan.Markers.usable m.plain.blockStart with
    | none => false
    | some start =>
        start.isPrefixOf t ||
          ((Scan.inlineComment? m.plain t).isNone && (Text.find? start t).isSome)

/-- Does capturing after a comment meet a marker that is no text?  It does at the first line after
the comment, unless that line decides the capture before a block start is looked for. -/
def captureFault (m : Markers) (s : Scan.Strategy) (after : List Text) : Bool :=
  match after with
  | [] => false
  | line :: _ =>
      let t := Text.trim line
      if t.isEmpty && s != .brace then false
      else if Marker.isOther m.line then true
      else Marker.isOther m.blockStart && (Scan.wholeLineComment? m.plain t).isNone

/-- The comment a line carries. -/
def classify (m : Markers) (line : Text) : Except Fault (Option Scan.Comment) :=
  if m.classifyFault (Text.trim line) then .error .wrongKind else .ok (Scan.classify m.plain line)

/-- The number of lines captured after a comment. -/
def captured (m : Markers) (s : Scan.Strategy) (commentLine : Text) (after : List Text) :
    Except Fault Nat :=
  if m.captureFault s after then .error .wrongKind
  else .ok (Scan.captured s m.plain commentLine after)

end Markers

/-! ## Descriptors -/

structure Descriptor where
  name : Text
  fileTypes : List Text
  markers : Markers := {}
  strategy : Scan.Strategy := .generic
  extraPatterns : List Text := []

instance : Inhabited Descriptor := ⟨⟨[], [], {}, .generic, []⟩⟩

/-- Is the file type among those of the language, in any case? -/
def Descriptor.handles (d : Descriptor) (fileType : Text) : Bool :=
  d.fileTypes.any fun t => Text.lower t == Text.lower fileType

end CodeAtlas.Language
