/-
# Terminal.Emoji -- emoji written by name

A name between colons stands for an emoji: `:rocket:`.  Case makes no difference in it, and there
is no white space in it.  A name ends as soon as it can: before a colon, or before `-emoji:` or
`-text:`, which ask for the coloured or the plain form.  What is no name of an emoji stays as it is
written, its second colon included, so that colon begins no other name.

`expand` puts emoji for their names.
-/
import CodeAtlas.Terminal.EmojiTable
import CodeAtlas.Terminal.Width
import CodeAtlas.Text.Case

namespace CodeAtlas.Terminal.Emoji

set_option autoImplicit false

/-! ## Names -/

/-- The sign after an emoji that is to be plain. -/
def plainSelector : Char := '\ufe0e'

/-- The emoji an entry of the table begins with. -/
def shapeOf (word : Text) : Text := word.map fun c => if c == '+' then joiner else c

/-- The entries of a table: every name with the word the entry begins with. -/
def entries (lines : List String) : List (Text × Text) :=
  lines.flatMap fun line =>
    (Text.splitOn ',' line.toList).flatMap fun entry =>
      match Text.words entry with
      | [] => []
      | word :: names => names.map fun name => (name, word)

def signs : List (Text × Text) := (entries signLines).map fun (name, word) => (name, shapeOf word)

def toned : List (Text × Text) := (entries tonedLines).map fun (name, word) => (name, shapeOf word)

/-- The flag of a country of two letters. -/
def flagOf (letters : Text) : Text :=
  letters.map fun c => Char.ofNat ('🇦'.toNat + (c.toNat - 'a'.toNat))

def flags : List (Text × Text) :=
  (entries flagLines).flatMap fun (name, letters) =>
    [(name, flagOf letters), ("flag_for_" ++ name, flagOf letters)]

/-- The flag of a part of a country: a black flag, tags, and the end of the tags. -/
def subdivisionFlag (tags : Text) : Text :=
  '🏴' :: tags.map (fun c => Char.ofNat (917504 + c.toNat)) ++ [Char.ofNat 917631]

/-- All emoji without a skin tone, by name. -/
def named : List (Text × Text) :=
  signs ++ toned ++ flags ++
    subdivisions.map fun (name, tags) => (name.toList, subdivisionFlag tags)

/-- The skin tones, by the end of a name. -/
def tones : List (String × Char) :=
  [("_light_skin_tone", '🏻'), ("_medium-light_skin_tone", '🏼'), ("_medium_skin_tone", '🏽'),
   ("_medium-dark_skin_tone", '🏾'), ("_dark_skin_tone", '🏿')]

/-- An emoji with a tone for its first sign, which the tone makes a coloured one. -/
def withTone (tone : Char) : Text → Text
  | [] => []
  | c :: rest => c :: tone :: rest.dropWhile (· == colourSelector)

/-- The emoji of a name that ends with a skin tone. -/
def tonedShape? (name : Text) : Option Text :=
  tones.findSome? fun (ending, tone) =>
    if ending.toList.isSuffixOf name then
      (toned.lookup (name.take (name.length - ending.length))).map (withTone tone)
    else none

/-- The emoji of a name in lower case. -/
def shape? (name : Text) : Option Text := named.lookup name <|> tonedShape? name

/-! ## Codes -/

/-- How an emoji is asked for. -/
inductive Form where
  | usual
  | coloured
  | plain
  deriving DecidableEq, Repr

def Form.mark : Form → Text
  | .usual => []
  | .coloured => "-emoji"
  | .plain => "-text"

def Form.selector : Form → Text
  | .usual => []
  | .coloured => [colourSelector]
  | .plain => [plainSelector]

structure Code where
  name : Text
  form : Form
  deriving DecidableEq, Repr

def Code.written (c : Code) : Text := ':' :: c.name ++ c.form.mark ++ [':']

/-- The emoji of a code; a code without one is shown as it is written. -/
def Code.shown (c : Code) : Text :=
  (shape? (Text.lower c.name)).elim c.written (· ++ c.form.selector)

/-- The form before a name, and the text after its colon, where a name can end. -/
def ending? (t : Text) : Option (Form × Text) :=
  [Form.coloured, .plain, .usual].findSome? fun form =>
    (Text.after? (form.mark ++ [':']) t).map fun rest => (form, rest)

/-- The code whose colon and letters up to `t` have been read, the last letter first. -/
def codeFrom? (letters : Text) : Text → Option (Code × Text)
  | [] => none
  | c :: t =>
      match ending? (c :: t) with
      | some (form, rest) => some (⟨letters.reverse, form⟩, rest)
      | none => if Text.isBlankChar c then none else codeFrom? (c :: letters) t

/-- The code at the start of a text, and the text after it. -/
def code? : Text → Option (Code × Text)
  | ':' :: t => codeFrom? [] t
  | _ => none

theorem length_ending? {t rest : Text} {form : Form} (h : ending? t = some (form, rest)) :
    rest.length < t.length := by
  obtain ⟨f, _, hf⟩ := List.exists_of_findSome?_eq_some h
  obtain ⟨r, hr, he⟩ := Option.map_eq_some_iff.1 hf
  simp only [Prod.mk.injEq] at he
  obtain ⟨_, rfl⟩ := he
  rw [Text.after?_eq_some_iff.1 hr]
  simp only [List.length_append, List.length_singleton]
  omega

theorem length_codeFrom? {letters t rest : Text} {code : Code}
    (h : codeFrom? letters t = some (code, rest)) : rest.length < t.length := by
  induction t generalizing letters with
  | nil => simp [codeFrom?] at h
  | cons c t ih =>
      unfold codeFrom? at h
      split at h
      · rename_i he
        simp only [Option.some.injEq, Prod.mk.injEq] at h
        obtain ⟨_, rfl⟩ := h
        exact length_ending? he
      · split at h
        · simp at h
        · exact Nat.lt_succ_of_lt (ih h)

theorem length_code? {t rest : Text} {code : Code} (h : code? t = some (code, rest)) :
    rest.length < t.length := by
  unfold code? at h
  split at h
  · exact Nat.lt_succ_of_lt (length_codeFrom? h)
  · simp at h

/-! ## Texts -/

/-- The text with emoji for their codes. -/
def expand (t : Text) : Text :=
  match _h : code? t with
  | some (code, rest) => code.shown ++ expand rest
  | none =>
      match t with
      | [] => []
      | c :: rest => c :: expand rest
termination_by t.length
decreasing_by
  · exact length_code? _h
  · simp

end CodeAtlas.Terminal.Emoji
