/-
# Proofs.Json.Printed -- which characters a written value has

The text of a value without floating-point numbers (`Plain`) is made of line feeds and characters
that are no controls (`isPrinted_of_mem_write`), so a file with it is read back as it was written:
its line ends are line feeds already (`withLineFeeds_write`).
-/
import CodeAtlas.Proofs.Json.RoundTrip
import CodeAtlas.Proofs.Text.Utf8

namespace CodeAtlas.Json

set_option autoImplicit false

/-- A value that holds no floating-point number. -/
inductive Plain : Value → Prop
  | null : Plain .null
  | bool (b : Bool) : Plain (.bool b)
  | int (n : Int) : Plain (.int n)
  | text (t : Text) : Plain (.text t)
  | list {vs : List Value} (members : ∀ v ∈ vs, Plain v) : Plain (.list vs)
  | table {ms : List (Text × Value)} (members : ∀ m ∈ ms, Plain m.2) : Plain (.table ms)

theorem Faithful.plain {depth : Nat} {v : Value} (faithful : Faithful depth v) : Plain v := by
  induction faithful with
  | null => exact .null
  | bool b => exact .bool b
  | nat n _ => exact .int n
  | text t => exact .text t
  | list _ ih => exact .list ih
  | table _ _ ih => exact .table ih

/-- A line feed, or no control. -/
def IsPrinted (c : Char) : Prop := c = '\n' ∨ 32 ≤ c.toNat

instance (c : Char) : Decidable (IsPrinted c) :=
  inferInstanceAs (Decidable (c = '\n' ∨ 32 ≤ c.toNat))

theorem isPrinted_hex {width n : Nat} : ∀ c ∈ Text.hex width n, IsPrinted c := by
  induction width generalizing n with
  | zero => simp [Text.hex]
  | succ width ih =>
      intro c member
      rw [Text.hex, List.mem_append, List.mem_singleton] at member
      rcases member with before | rfl
      · exact ih c before
      · have all : ∀ d < 16, IsPrinted (Nat.digitChar d) := by decide
        exact all _ (Nat.mod_lt n (by decide))

theorem isPrinted_unitEscape {n : Nat} : ∀ c ∈ unitEscape n, IsPrinted c := by
  intro c member
  rw [unitEscape, List.mem_cons, List.mem_cons] at member
  rcases member with rfl | rfl | digit
  · decide
  · decide
  · exact isPrinted_hex c digit

theorem isPrinted_escape (c : Char) : ∀ d ∈ escape c, IsPrinted d := by
  rw [escape]
  split_ifs with quote slash feed return_ tab back form printed basic
  · simp [IsPrinted]
  · simp [IsPrinted]
  · simp [IsPrinted]
  · simp [IsPrinted]
  · simp [IsPrinted]
  · simp [IsPrinted]
  · simp [IsPrinted]
  · rw [Bool.and_eq_true, decide_eq_true_eq] at printed
    exact fun d member => .inr (List.mem_singleton.mp member ▸ printed.1)
  · exact isPrinted_unitEscape
  · intro d member
    rcases List.mem_append.mp member with first | second
    · exact isPrinted_unitEscape d first
    · exact isPrinted_unitEscape d second

theorem isPrinted_writeText (t : Text) : ∀ c ∈ writeText t, IsPrinted c := by
  intro c member
  rw [writeText, List.mem_append, List.mem_cons, List.mem_flatMap, List.mem_singleton] at member
  rcases member with (rfl | ⟨d, -, inside⟩) | rfl
  · decide
  · exact isPrinted_escape d c inside
  · decide

theorem isPrinted_newLine (level : Nat) : ∀ c ∈ newLine level, IsPrinted c := by
  intro c member
  rw [newLine, List.mem_cons, List.mem_replicate] at member
  rcases member with rfl | ⟨-, rfl⟩ <;> decide

theorem isPrinted_enclose {level : Nat} {opening closing : Char} {members : List Text}
    (hOpening : IsPrinted opening) (hClosing : IsPrinted closing)
    (all : ∀ m ∈ members, ∀ c ∈ m, IsPrinted c) :
    ∀ c ∈ enclose level opening closing members, IsPrinted c := by
  intro c member
  rw [enclose] at member
  split at member
  · simp only [List.mem_cons, List.not_mem_nil, or_false] at member
    rcases member with rfl | rfl
    · exact hOpening
    · exact hClosing
  · simp only [List.mem_append, List.mem_cons, List.not_mem_nil, or_false] at member
    rcases member with (((rfl | line) | joined) | line) | rfl
    · exact hOpening
    · exact isPrinted_newLine _ c line
    · rcases Text.mem_join joined with glue | ⟨m, known, inside⟩
      · rcases List.mem_cons.mp glue with rfl | line
        · decide
        · exact isPrinted_newLine _ c line
      · exact all m known c inside
    · exact isPrinted_newLine _ c line
    · exact hClosing

theorem mem_writeEach {level : Nat} {vs : List Value} {t : Text} (member : t ∈ writeEach level vs) :
    ∃ v ∈ vs, t = writeAt level v := by
  induction vs with
  | nil => simp [writeEach] at member
  | cons v vs ih =>
      rw [writeEach, List.mem_cons] at member
      rcases member with rfl | later
      · exact ⟨v, List.mem_cons_self, rfl⟩
      · obtain ⟨w, known, same⟩ := ih later
        exact ⟨w, List.mem_cons_of_mem _ known, same⟩

theorem mem_writeMembers {level : Nat} {ms : List (Text × Value)} {t : Text}
    (member : t ∈ writeMembers level ms) : ∃ m ∈ ms, t = writeMember level m := by
  induction ms with
  | nil => simp [writeMembers] at member
  | cons m ms ih =>
      rw [writeMembers_cons, List.mem_cons] at member
      rcases member with rfl | later
      · exact ⟨m, List.mem_cons_self, rfl⟩
      · obtain ⟨n, known, same⟩ := ih later
        exact ⟨n, List.mem_cons_of_mem _ known, same⟩

theorem isPrinted_showNat (n : Nat) : ∀ c ∈ Number.showNat n, IsPrinted c := by
  intro c member
  have digit := Number.range_of_isDigit (Number.isDigit_of_mem_showNat member)
  exact .inr (by omega)

theorem isPrinted_showInt (n : Int) : ∀ c ∈ Number.showInt n, IsPrinted c := by
  cases n with
  | ofNat n => exact isPrinted_showNat n
  | negSucc n =>
      rw [Number.showInt]
      exact List.forall_mem_cons.mpr ⟨by decide, isPrinted_showNat (n + 1)⟩

theorem isPrinted_writeAt {v : Value} (plain : Plain v) (level : Nat) :
    ∀ c ∈ writeAt level v, IsPrinted c := by
  induction plain generalizing level with
  | null =>
      rw [writeAt]
      simp [IsPrinted]
  | bool b =>
      cases b <;> rw [writeAt] <;> simp [IsPrinted]
  | int n =>
      rw [writeAt]
      exact isPrinted_showInt n
  | text t =>
      rw [writeAt]
      exact isPrinted_writeText t
  | list members ih =>
      rw [writeAt]
      refine isPrinted_enclose (by decide) (by decide) fun m known => ?_
      obtain ⟨v, member, rfl⟩ := mem_writeEach known
      exact ih v member _
  | table members ih =>
      rw [writeAt]
      refine isPrinted_enclose (by decide) (by decide) fun m known c inside => ?_
      obtain ⟨v, member, rfl⟩ := mem_writeMembers known
      rw [writeMember, List.mem_append, List.mem_append] at inside
      rcases inside with (key | colon) | value
      · exact isPrinted_writeText _ c key
      · revert c
        simp [IsPrinted]
      · exact ih v member _ c value

/-- **A written value has no control in it but line feeds.** -/
theorem isPrinted_of_mem_write {v : Value} (plain : Plain v) {c : Char} (member : c ∈ write v) :
    IsPrinted c := isPrinted_writeAt plain 0 c member

theorem withLineFeeds_write {v : Value} (plain : Plain v) :
    Text.withLineFeeds (write v) = write v := by
  refine Text.withLineFeeds_of_not_mem fun member => ?_
  have printed := isPrinted_of_mem_write plain member
  revert printed
  decide

end CodeAtlas.Json
