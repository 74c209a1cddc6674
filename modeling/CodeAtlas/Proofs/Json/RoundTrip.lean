/-
# Proofs.Json.RoundTrip -- a written value reads back

A value is *faithful* (`Faithful`) when JSON can keep it: it holds no floating-point number, its
whole numbers are natural and short enough to be read, the keys of its tables are distinct, and it
is not nested deeper than is read.  The reader undoes the writer on such values (`read_write`).

The proof follows the nesting.  A value is read in front of any text that does not go on with it
(`Ends`), whatever its indentation (`ReadsAs`); the members of a list and of a table are runs over
values of which that is known.  The fuel is the length of the text, and every step of the reader
leaves less text than it uses fuel.
-/
import CodeAtlas.Proofs.Entries
import CodeAtlas.Proofs.Json.Text
import CodeAtlas.Proofs.Number.Integer
import CodeAtlas.Proofs.Run

namespace CodeAtlas.Json

set_option autoImplicit false

/-- **The values that JSON keeps**, with no more than `depth` levels of lists and tables. -/
inductive Faithful : Nat → Value → Prop
  | null {depth : Nat} : Faithful depth .null
  | bool {depth : Nat} (b : Bool) : Faithful depth (.bool b)
  | nat {depth : Nat} (n : Nat) (short : (Number.showNat n).length ≤ Number.maxDigits) :
      Faithful depth (.int n)
  | text {depth : Nat} (t : Text) : Faithful depth (.text t)
  | list {depth : Nat} {vs : List Value} (members : ∀ v ∈ vs, Faithful depth v) :
      Faithful (depth + 1) (.list vs)
  | table {depth : Nat} {ms : List (Text × Value)} (distinct : (Entries.keys ms).Nodup)
      (members : ∀ m ∈ ms, Faithful depth m.2) : Faithful (depth + 1) (.table ms)

/-- What may stand behind a value: nothing that could belong to it. -/
def Ends (rest : Text) : Prop := ∀ c ∈ rest.head?, c = ',' ∨ c = '\n'

/-- The value is read from its text, in front of any text that ends it, with enough fuel. -/
def ReadsAs (depth level : Nat) (v : Value) : Prop :=
  ∀ (fuel : Nat) (rest : Text), Ends rest → (writeAt level v ++ rest).length < fuel →
    readValue depth fuel (writeAt level v ++ rest) = .ok (v, rest)

theorem ends_nil : Ends [] := fun _ first => by simp at first

theorem ends_comma (rest : Text) : Ends (',' :: rest) := by
  rintro c ⟨⟩
  exact .inl rfl

theorem ends_newLine (level : Nat) (rest : Text) : Ends (newLine level ++ rest) := by
  rintro c ⟨⟩
  exact .inr rfl

/-! ## White space -/

theorem skipSpace_of_head {c : Char} (solid : isSpace c = false) (rest : Text) :
    skipSpace (c :: rest) = c :: rest := List.dropWhile_cons_of_neg (by simp [solid])

theorem skipSpace_newLine (level : Nat) (rest : Text) :
    skipSpace (newLine level ++ rest) = skipSpace rest := by
  have blank : ∀ c ∈ newLine level, isSpace c = true := by
    intro c member
    rw [newLine, List.mem_cons, List.mem_replicate] at member
    rcases member with rfl | ⟨-, rfl⟩ <;> decide
  rw [skipSpace, List.dropWhile_append_of_pos blank]
  rfl

/-! ## Values without members -/

/-- The word in front of a text. -/
def wordAt? (t : Text) : Option (Value × Text) :=
  words.findSome? fun (word, v) => (Text.after? word t).map (v, ·)

theorem readValue_plain {depth fuel : Nat} {c : Char} {t : Text} (quote : c ≠ '"')
    (bracket : c ≠ '[') (brace : c ≠ '\x7b') :
    readValue depth (fuel + 1) (c :: t) =
      match wordAt? (c :: t) with
      | some result => .ok result
      | none => readNumber (c :: t) := by
  rw [readValue]
  · rfl
  · rintro rest ⟨⟩
    exact quote rfl
  · rintro rest ⟨⟩
    exact bracket rfl
  · rintro rest ⟨⟩
    exact brace rfl

theorem readsAs_word {depth level : Nat} {v : Value} (c : Char) (word : Text)
    (written : writeAt level v = c :: word) (quote : c ≠ '"') (bracket : c ≠ '[')
    (brace : c ≠ '\x7b') (found : ∀ rest, wordAt? (c :: word ++ rest) = some (v, rest)) :
    ReadsAs depth level v := by
  intro fuel rest _ enough
  obtain ⟨fuel, rfl⟩ : ∃ n, fuel = n + 1 := ⟨fuel - 1, by omega⟩
  rw [written, List.cons_append, readValue_plain quote bracket brace]
  have word_ := found rest
  rw [List.cons_append] at word_
  rw [word_]

theorem readsAs_null {depth level : Nat} : ReadsAs depth level .null :=
  readsAs_word 'n' "ull".toList (by rw [writeAt]; rfl) (by decide) (by decide)
    (by decide) fun _ => rfl

theorem readsAs_bool {depth level : Nat} (b : Bool) : ReadsAs depth level (.bool b) := by
  cases b with
  | false =>
      exact readsAs_word 'f' "alse".toList (by rw [writeAt]; rfl) (by decide)
        (by decide) (by decide) fun _ => rfl
  | true =>
      exact readsAs_word 't' "rue".toList (by rw [writeAt]; rfl) (by decide)
        (by decide) (by decide) fun _ => rfl

theorem readsAs_text {depth level : Nat} (t : Text) : ReadsAs depth level (.text t) := by
  intro fuel rest _ enough
  obtain ⟨fuel, rfl⟩ : ∃ n, fuel = n + 1 := ⟨fuel - 1, by omega⟩
  rw [writeAt, writeText_append, readValue]
  dsimp only
  rw [readString_flatMap]
  rfl

/-- No word begins with a digit. -/
theorem wordAt?_of_isDigit {c : Char} (digit : c.isDigit = true) (t : Text) :
    wordAt? (c :: t) = none := by
  have other : ∀ d : Char, d.isDigit = false → (d == c) = false := fun d no => by
    simpa using (Number.ne_of_isDigit digit no).symm
  rw [wordAt?, List.findSome?_eq_none_iff]
  rintro ⟨word, v⟩ member
  rw [Option.map_eq_none_iff]
  simp only [words, List.mem_cons, List.not_mem_nil, or_false, Prod.mk.injEq] at member
  rcases member with ⟨rfl, -⟩ | ⟨rfl, -⟩ | ⟨rfl, -⟩ | ⟨rfl, -⟩ | ⟨rfl, -⟩ | ⟨rfl, -⟩ <;>
    exact if_neg (by rw [other _ (by decide)]; simp)

theorem takeDigits_append {digits rest : Text} (all : ∀ c ∈ digits, c.isDigit = true)
    (ends : Ends rest) : takeDigits (digits ++ rest) = (digits, rest) := by
  have stop : ∀ c ∈ rest.head?, ¬ c.isDigit = true := fun c first => by
    rcases ends c first with rfl | rfl <;> decide
  rw [takeDigits, List.takeWhile_append_of_pos all, List.dropWhile_append_of_pos all]
  cases rest with
  | nil => simp
  | cons c rest =>
      have here := stop c rfl
      rw [List.takeWhile_cons_of_neg here, List.dropWhile_cons_of_neg here, List.append_nil]

theorem takeFraction_of_ends {rest : Text} (ends : Ends rest) : takeFraction rest = ([], rest) := by
  rw [takeFraction]
  rintro rest' rfl
  rcases ends '.' rfl with same | same <;> cases same

theorem takeExponent_of_ends {rest : Text} (ends : Ends rest) :
    takeExponent rest = (none, rest) := by
  cases rest with
  | nil => rfl
  | cons c rest =>
      have other : (c == 'e' || c == 'E') = false := by
        rcases ends c rfl with rfl | rfl <;> decide
      rw [takeExponent, other]
      rfl

/-- The digits in front, of which the first is a zero only if it is the only one. -/
theorem takeWhole_showNat (n : Nat) {rest : Text} (ends : Ends rest) :
    takeWhole (Number.showNat n ++ rest) = (Number.showNat n, rest) := by
  have digits := takeDigits_append (fun c => Number.isDigit_of_mem_showNat (n := n) (c := c)) ends
  rcases Nat.eq_zero_or_pos n with rfl | positive
  · rfl
  · rw [takeWhole, digits]
    intro rest' begins
    have first := Number.head?_showNat positive
    rw [← List.head?_append_of_ne_nil _ (Number.showNat_ne_nil n), begins] at first
    exact first rfl

theorem readsAs_nat {depth level n : Nat} (short : (Number.showNat n).length ≤ Number.maxDigits) :
    ReadsAs depth level (.int n) := by
  intro fuel rest ends enough
  obtain ⟨fuel, rfl⟩ : ∃ n, fuel = n + 1 := ⟨fuel - 1, by omega⟩
  obtain ⟨c, digits, shown⟩ := List.exists_cons_of_ne_nil (Number.showNat_ne_nil n)
  have digit : c.isDigit = true := Number.isDigit_of_mem_showNat (n := n) (by simp [shown])
  have other : ∀ d : Char, d.isDigit = false → c ≠ d := fun d => Number.ne_of_isDigit digit
  have written : writeAt level (.int n) = Number.showNat n := by rw [writeAt]; rfl
  have read : readNumber (Number.showNat n ++ rest) = .ok (.int n, rest) := by
    have unsigned : ((Number.showNat n ++ rest).head? == some '-') = false := by
      rw [shown]
      simpa using other '-' (by decide)
    have some_ : (Number.showNat n).isEmpty = false := by simp [Number.showNat_ne_nil]
    have size : ¬ Number.maxDigits < (Number.showNat n).length := by omega
    rw [readNumber, unsigned]
    simp only [Bool.false_eq_true, if_false, takeWhole_showNat n ends, some_,
      takeFraction_of_ends ends, takeExponent_of_ends ends, List.isEmpty_nil, Option.isNone_none,
      Bool.and_self, if_true, size, Number.digitsValue_showNat]
  rw [written, shown, List.cons_append, readValue_plain (other _ (by decide)) (other _ (by decide))
    (other _ (by decide)), wordAt?_of_isDigit digit, ← List.cons_append, ← shown]
  exact read

/-! ## Lists -/

/-- How the text of a value begins: not with white space, and not with a closing bracket. -/
def Begins (t : Text) : Prop :=
  ∃ c rest, t = c :: rest ∧ isSpace c = false ∧ c ≠ ']' ∧ c ≠ '\x7d'

theorem Begins.skipSpace {t : Text} (begins : Begins t) : skipSpace t = t := by
  obtain ⟨c, t, rfl, solid, -⟩ := begins
  exact skipSpace_of_head solid t

theorem Begins.append {t : Text} (begins : Begins t) (rest : Text) : Begins (t ++ rest) := by
  obtain ⟨c, t, rfl, other⟩ := begins
  exact ⟨c, t ++ rest, rfl, other⟩

theorem begins_enclose (level : Nat) {opening : Char} (closing : Char) (members : List Text)
    (solid : isSpace opening = false) (other : opening ≠ ']' ∧ opening ≠ '\x7d') :
    Begins (enclose level opening closing members) := by
  rw [enclose]
  split
  · exact ⟨opening, _, rfl, solid, other⟩
  · exact ⟨opening, _, rfl, solid, other⟩

theorem begins_writeAt {depth : Nat} {v : Value} (faithful : Faithful depth v) (level : Nat) :
    Begins (writeAt level v) := by
  cases faithful with
  | null =>
      rw [writeAt]
      exact ⟨'n', _, rfl, by decide⟩
  | bool b =>
      cases b <;> rw [writeAt]
      · exact ⟨'f', _, rfl, by decide⟩
      · exact ⟨'t', _, rfl, by decide⟩
  | nat n _ =>
      obtain ⟨c, digits, shown⟩ := List.exists_cons_of_ne_nil (Number.showNat_ne_nil n)
      have digit : c.isDigit = true := Number.isDigit_of_mem_showNat (n := n) (by simp [shown])
      have other : ∀ d : Char, d.isDigit = false → c ≠ d := fun d => Number.ne_of_isDigit digit
      have written : writeAt level (.int n) = Number.showNat n := by rw [writeAt]; rfl
      refine ⟨c, digits, by rw [written, shown], ?_, other _ (by decide), other _ (by decide)⟩
      simp [isSpace, other ' ' (by decide), other '\t' (by decide), other '\n' (by decide),
        other '\r' (by decide)]
  | text t =>
      rw [writeAt]
      exact ⟨'"', _, rfl, by decide⟩
  | list _ =>
      rw [writeAt]
      exact begins_enclose level ']' _ (by decide) (by decide)
  | table _ _ =>
      rw [writeAt]
      exact begins_enclose level '\x7d' _ (by decide) (by decide)

/-- The members between brackets, the closing bracket, and what stands behind it. -/
def inside (level : Nat) (closing : Char) (members : List Text) (rest : Text) : Text :=
  Text.join (',' :: newLine (level + 1)) members ++ (newLine level ++ closing :: rest)

theorem inside_singleton (level : Nat) (closing : Char) (member rest : Text) :
    inside level closing [member] rest = member ++ (newLine level ++ closing :: rest) := by
  rw [inside, Text.join_singleton]

theorem inside_cons_cons (level : Nat) (closing : Char) (member next : Text)
    (members : List Text) (rest : Text) :
    inside level closing (member :: next :: members) rest =
      member ++ (',' :: (newLine (level + 1) ++ inside level closing (next :: members) rest)) := by
  simp [inside, Text.join_cons_cons]

theorem enclose_append (level : Nat) (opening closing : Char) (member : Text) (members : List Text)
    (rest : Text) :
    enclose level opening closing (member :: members) ++ rest =
      opening :: (newLine (level + 1) ++ inside level closing (member :: members) rest) := by
  simp [enclose, inside]

theorem begins_inside (level : Nat) (closing : Char) {member : Text} (begins : Begins member)
    (members : List Text) (rest : Text) :
    Begins (inside level closing (member :: members) rest) := by
  cases members with
  | nil =>
      rw [inside_singleton]
      exact begins.append _
  | cons next members =>
      rw [inside_cons_cons]
      exact begins.append _

theorem length_newLine (level : Nat) : (newLine level).length = 2 * level + 1 := by
  simp [newLine]

/-! ### One step of the reader -/

section Steps

variable {depth fuel : Nat} {t rest r r' : Text} {v : Value} {vs : List Value}
  {done ms : Entries Value} {key : Text}

theorem readMembers_last (value : readValue depth fuel t = .ok (v, rest))
    (close : skipSpace rest = ']' :: r) : readMembers depth (fuel + 1) t = .ok ([v], r) := by
  simp only [readMembers, value, Run.ok_bind, close]
  rfl

theorem readMembers_more (value : readValue depth fuel t = .ok (v, rest))
    (comma : skipSpace rest = ',' :: r)
    (members : readMembers depth fuel (skipSpace r) = .ok (vs, r')) :
    readMembers depth (fuel + 1) t = .ok (v :: vs, r') := by
  simp only [readMembers, value, Run.ok_bind, comma, members]
  rfl

theorem readValue_list (begins : Begins (skipSpace t))
    (members : readMembers depth fuel (skipSpace t) = .ok (vs, r)) :
    readValue (depth + 1) (fuel + 1) ('[' :: t) = .ok (.list vs, r) := by
  obtain ⟨c, t', shape, -, bracket, -⟩ := begins
  rw [shape] at members
  simp only [readValue, deeper, Except.bind, shape, Except.map]
  split
  · rename_i same
    exact absurd (List.cons.inj same).1 bracket
  · rw [members]

theorem readPairs_last (name : readString t = .ok (key, rest)) {r₁ r₂ r₃ : Text}
    (colon : skipSpace rest = ':' :: r₁)
    (value : readValue depth fuel (skipSpace r₁) = .ok (v, r₂))
    (close : skipSpace r₂ = '\x7d' :: r₃) :
    readPairs depth (fuel + 1) done ('"' :: t) = .ok (done.set key v, r₃) := by
  simp only [readPairs, name, Run.ok_bind, colon, value, close]
  rfl

theorem readPairs_more (name : readString t = .ok (key, rest)) {r₁ r₂ r₃ : Text}
    (colon : skipSpace rest = ':' :: r₁)
    (value : readValue depth fuel (skipSpace r₁) = .ok (v, r₂))
    (comma : skipSpace r₂ = ',' :: r₃)
    (members : readPairs depth fuel (done.set key v) (skipSpace r₃) = .ok (ms, r')) :
    readPairs depth (fuel + 1) done ('"' :: t) = .ok (ms, r') := by
  simp only [readPairs, name, Run.ok_bind, colon, value, comma, members]

theorem readValue_table (begins : Begins (skipSpace t))
    (members : readPairs depth fuel [] (skipSpace t) = .ok (ms, r)) :
    readValue (depth + 1) (fuel + 1) ('\x7b' :: t) = .ok (.table ms, r) := by
  obtain ⟨c, t', shape, -, -, brace⟩ := begins
  rw [shape] at members
  simp only [readValue, deeper, Except.bind, shape, Except.map]
  split
  · rename_i same
    exact absurd (List.cons.inj same).1 brace
  · rw [members]

end Steps

/-! ### All members -/

/-- **The members of a list are read one after another.** -/
theorem readMembers_inside {depth level : Nat} {v : Value} {vs : List Value}
    (all : ∀ x ∈ v :: vs, ReadsAs depth (level + 1) x ∧ Begins (writeAt (level + 1) x))
    (fuel : Nat) (rest : Text)
    (enough : (inside level ']' (writeEach (level + 1) (v :: vs)) rest).length + 1 < fuel) :
    readMembers depth fuel (inside level ']' (writeEach (level + 1) (v :: vs)) rest) =
      .ok (v :: vs, rest) := by
  induction vs generalizing v fuel with
  | nil =>
      obtain ⟨fuel, rfl⟩ : ∃ n, fuel = n + 1 := ⟨fuel - 1, by omega⟩
      have first := (all v List.mem_cons_self).1
      simp only [writeEach, inside_singleton] at enough ⊢
      refine readMembers_last (first fuel _ (ends_newLine level _) (by omega)) ?_
      rw [skipSpace_newLine, skipSpace_of_head (by decide)]
  | cons next vs ih =>
      obtain ⟨fuel, rfl⟩ : ∃ n, fuel = n + 1 := ⟨fuel - 1, by omega⟩
      have first := (all v List.mem_cons_self).1
      have begins := begins_inside level ']' (all next (by simp)).2 (writeEach (level + 1) vs) rest
      rw [writeEach, writeEach, inside_cons_cons] at enough ⊢
      have less : (writeAt (level + 1) v ++ ',' :: (newLine (level + 1) ++
          inside level ']' (writeAt (level + 1) next :: writeEach (level + 1) vs) rest)).length <
          fuel := by omega
      refine readMembers_more (first fuel _ (ends_comma _) less)
        (skipSpace_of_head (by decide) _) ?_
      rw [skipSpace_newLine, begins.skipSpace]
      simp only [List.length_append, List.length_cons, length_newLine] at less
      have later := ih (v := next) (fun x member => all x (List.mem_cons_of_mem v member)) fuel
        (by rw [writeEach]; omega)
      rwa [writeEach] at later

theorem readsAs_list {depth level : Nat} {vs : List Value}
    (all : ∀ x ∈ vs, ReadsAs depth (level + 1) x ∧ Begins (writeAt (level + 1) x)) :
    ReadsAs (depth + 1) level (.list vs) := by
  intro fuel rest ends enough
  obtain ⟨fuel, rfl⟩ : ∃ n, fuel = n + 1 := ⟨fuel - 1, by omega⟩
  rw [writeAt] at enough ⊢
  cases vs with
  | nil => rfl
  | cons v vs =>
      have begins :=
        begins_inside level ']' (all v List.mem_cons_self).2 (writeEach (level + 1) vs) rest
      rw [writeEach, enclose_append] at enough ⊢
      simp only [List.length_cons, List.length_append, length_newLine] at enough
      refine readValue_list ?_ ?_
      · rwa [skipSpace_newLine, begins.skipSpace]
      · have read := readMembers_inside all fuel rest (by rw [writeEach]; omega)
        rw [writeEach] at read
        rwa [skipSpace_newLine, begins.skipSpace]

/-! ## Tables -/

/-- One member of a table as it is written. -/
def writeMember (level : Nat) (m : Text × Value) : Text :=
  writeText m.1 ++ ": " ++ writeAt level m.2

theorem writeMembers_cons (level : Nat) (m : Text × Value) (ms : List (Text × Value)) :
    writeMembers level (m :: ms) = writeMember level m :: writeMembers level ms := by
  rw [writeMembers]
  rfl

theorem writeMember_append (level : Nat) (m : Text × Value) (rest : Text) :
    writeMember level m ++ rest =
      '"' :: (m.1.flatMap escape ++ '"' :: (':' :: ' ' :: (writeAt level m.2 ++ rest))) := by
  simp [writeMember, writeText]

theorem begins_writeMember (level : Nat) (m : Text × Value) : Begins (writeMember level m) :=
  ⟨'"', _, rfl, by decide⟩

/-- The value of a member is read behind its colon. -/
theorem readValue_member {depth level : Nat} {v : Value} (reads : ReadsAs depth level v)
    (begins : Begins (writeAt level v)) (fuel : Nat) {rest : Text} (ends : Ends rest)
    (enough : (writeAt level v ++ rest).length < fuel) :
    readValue depth fuel (skipSpace (' ' :: (writeAt level v ++ rest))) = .ok (v, rest) := by
  have blank : skipSpace (' ' :: (writeAt level v ++ rest)) = skipSpace (writeAt level v ++ rest) :=
    rfl
  rw [blank, (begins.append rest).skipSpace]
  exact reads fuel rest ends enough

/-- **The members of a table are read one after another.** -/
theorem readPairs_inside {depth level : Nat} {m : Text × Value} {ms : List (Text × Value)}
    (all : ∀ x ∈ m :: ms, ReadsAs depth (level + 1) x.2 ∧ Begins (writeAt (level + 1) x.2))
    (done : Entries Value) (distinct : (Entries.keys (done ++ m :: ms)).Nodup)
    (fuel : Nat) (rest : Text)
    (enough : (inside level '\x7d' (writeMembers (level + 1) (m :: ms)) rest).length + 1 < fuel) :
    readPairs depth fuel done (inside level '\x7d' (writeMembers (level + 1) (m :: ms)) rest) =
      .ok (done ++ m :: ms, rest) := by
  induction ms generalizing m done fuel with
  | nil =>
      obtain ⟨fuel, rfl⟩ : ∃ n, fuel = n + 1 := ⟨fuel - 1, by omega⟩
      obtain ⟨first, begins⟩ := all m List.mem_cons_self
      rw [writeMembers_cons, writeMembers, inside_singleton, writeMember_append] at enough ⊢
      rw [← Entries.set_of_not_mem (Entries.not_mem_of_nodup_append distinct)]
      have value := readValue_member first begins fuel
        (ends_newLine level ('\x7d' :: rest)) (by
          simp only [List.length_append, List.length_cons] at enough ⊢
          omega)
      refine readPairs_last (readString_flatMap _ _) (skipSpace_of_head (by decide) _) value ?_
      rw [skipSpace_newLine, skipSpace_of_head (by decide)]
  | cons next ms ih =>
      obtain ⟨fuel, rfl⟩ : ∃ n, fuel = n + 1 := ⟨fuel - 1, by omega⟩
      obtain ⟨first, begins⟩ := all m List.mem_cons_self
      have behind := begins_inside level '\x7d' (begins_writeMember (level + 1) next)
        (writeMembers (level + 1) ms) rest
      rw [writeMembers_cons, writeMembers_cons, inside_cons_cons, writeMember_append] at enough ⊢
      simp only [List.length_append, List.length_cons, length_newLine] at enough
      have value := readValue_member first begins fuel (ends_comma (newLine (level + 1) ++
        inside level '\x7d' (writeMember (level + 1) next :: writeMembers (level + 1) ms) rest)) (by
          simp only [List.length_append, List.length_cons, length_newLine]
          omega)
      refine readPairs_more (readString_flatMap _ _) (skipSpace_of_head (by decide) _) value
        (skipSpace_of_head (by decide) _) ?_
      rw [skipSpace_newLine, behind.skipSpace,
        Entries.set_of_not_mem (Entries.not_mem_of_nodup_append distinct)]
      have later := ih (m := next) (fun x member => all x (List.mem_cons_of_mem m member))
        (done ++ [m]) (by simpa using distinct) fuel (by rw [writeMembers_cons]; omega)
      rw [writeMembers_cons, List.append_assoc, List.singleton_append] at later
      exact later

theorem readsAs_table {depth level : Nat} {ms : List (Text × Value)}
    (distinct : (Entries.keys ms).Nodup)
    (all : ∀ x ∈ ms, ReadsAs depth (level + 1) x.2 ∧ Begins (writeAt (level + 1) x.2)) :
    ReadsAs (depth + 1) level (.table ms) := by
  intro fuel rest ends enough
  obtain ⟨fuel, rfl⟩ : ∃ n, fuel = n + 1 := ⟨fuel - 1, by omega⟩
  rw [writeAt] at enough ⊢
  cases ms with
  | nil => rfl
  | cons m ms =>
      have begins := begins_inside level '\x7d' (begins_writeMember (level + 1) m)
        (writeMembers (level + 1) ms) rest
      rw [writeMembers_cons, enclose_append] at enough ⊢
      simp only [List.length_cons, List.length_append, length_newLine] at enough
      refine readValue_table ?_ ?_
      · rwa [skipSpace_newLine, begins.skipSpace]
      · have read := readPairs_inside all [] distinct fuel rest (by rw [writeMembers_cons]; omega)
        rw [writeMembers_cons] at read
        rwa [skipSpace_newLine, begins.skipSpace]

/-! ## All values -/

theorem readsAs_of_faithful {depth : Nat} {v : Value} (faithful : Faithful depth v) (level : Nat) :
    ReadsAs depth level v := by
  induction faithful generalizing level with
  | null => exact readsAs_null
  | bool b => exact readsAs_bool b
  | nat n short => exact readsAs_nat short
  | text t => exact readsAs_text t
  | list members ih =>
      exact readsAs_list fun x member => ⟨ih x member _, begins_writeAt (members x member) _⟩
  | table distinct members ih =>
      exact readsAs_table distinct fun x member =>
        ⟨ih x member _, begins_writeAt (members x member) _⟩

/-- **The reader undoes the writer.** -/
theorem read_write {v : Value} (faithful : Faithful depthLimit v) : read (write v) = .ok v := by
  have reads := readsAs_of_faithful faithful 0 ((write v).length + 1) [] ends_nil (by simp [write])
  rw [List.append_nil] at reads
  rw [read, write, (begins_writeAt faithful 0).skipSpace]
  rw [write] at reads
  rw [reads]
  rfl

end CodeAtlas.Json
