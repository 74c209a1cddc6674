/-
# Proofs.Json.Sound -- what a value is like that has been read

Reading gives *sound* values only (`Sound`): the keys of a table are distinct, because a pair that
comes later takes the place of an earlier one of its key, and a whole number has no more digits than
are read.  Nothing is said of texts, of floating-point numbers or of the nesting, so a sound value
need not be one that JSON keeps.

The three readers call each other with less fuel, and one induction on the fuel carries all three
(`ReadsSound`).
-/
import CodeAtlas.Json.Reader
import CodeAtlas.Proofs.Entries
import CodeAtlas.Proofs.Number.Integer
import CodeAtlas.Proofs.Run

namespace CodeAtlas.Json

set_option autoImplicit false

/-- **The values that reading can give.** -/
inductive Sound : Value → Prop
  | null : Sound .null
  | bool (b : Bool) : Sound (.bool b)
  | int (n : Int) (short : (Number.showNat n.natAbs).length ≤ Number.maxDigits) : Sound (.int n)
  | float (x : Number.Double) : Sound (.float x)
  | text (t : Text) : Sound (.text t)
  | list {vs : List Value} (members : ∀ v ∈ vs, Sound v) : Sound (.list vs)
  | table {ms : List (Text × Value)} (distinct : (Entries.keys ms).Nodup)
      (members : ∀ m ∈ ms, Sound m.2) : Sound (.table ms)

/-! ## Values without members -/

theorem sound_of_readNumber {t rest : Text} {v : Value} (read : readNumber t = .ok (v, rest)) :
    Sound v := by
  unfold readNumber at read
  dsimp only at read
  generalize (if (t.head? == some '-') = true then t.drop 1 else t) = unsigned at read
  by_cases none_ : (takeWhole unsigned).1.isEmpty = true
  · rw [if_pos none_] at read
    cases read
  · rw [if_neg none_] at read
    split at read
    · by_cases many : Number.maxDigits < (takeWhole unsigned).1.length
      · rw [if_pos many] at read
        cases read
      · rw [if_neg many] at read
        have short := Number.length_showNat_digitsValue (by decide) (Nat.not_lt.mp many)
        cases read
        refine .int _ ?_
        split
        · rwa [Int.natAbs_neg, Int.natAbs_natCast]
        · rwa [Int.natAbs_natCast]
    · cases read
      exact .float _

theorem sound_of_mem_words {word : Text} {v : Value} (member : (word, v) ∈ words) : Sound v := by
  simp only [words, List.mem_cons, List.not_mem_nil, or_false, Prod.mk.injEq] at member
  rcases member with ⟨-, rfl⟩ | ⟨-, rfl⟩ | ⟨-, rfl⟩ | ⟨-, rfl⟩ | ⟨-, rfl⟩ | ⟨-, rfl⟩
  · exact .null
  · exact .bool true
  · exact .bool false
  · exact .float _
  · exact .float _
  · exact .float _

/-! ## Tables -/

theorem sound_set {ms : Entries Value} (sound : Sound (.table ms)) (key : Text) {v : Value}
    (new : Sound v) : Sound (.table (ms.set key v)) := by
  cases sound with
  | table distinct members =>
      refine .table (Entries.nodup_keys_alter distinct key _) fun m member => ?_
      rcases Entries.of_mem_alter distinct member with rfl | before
      · exact new
      · exact members m before

/-! ## Values -/

/-- With this much fuel everything that is read is sound, at any depth. -/
structure ReadsSound (fuel : Nat) : Prop where
  value : ∀ depth t v rest, readValue depth fuel t = .ok (v, rest) → Sound v
  members : ∀ depth t vs rest, readMembers depth fuel t = .ok (vs, rest) → ∀ v ∈ vs, Sound v
  pairs : ∀ depth done t ms rest, Sound (.table done) →
    readPairs depth fuel done t = .ok (ms, rest) → Sound (.table ms)

theorem ReadsSound.zero : ReadsSound 0 := by
  refine ⟨?_, ?_, ?_⟩
  · intro depth t v rest read
    rw [readValue] at read
    cases read
  · intro depth t vs rest read
    rw [readMembers] at read
    cases read
  · intro depth done t ms rest _ read
    rw [readPairs] at read
    cases read

theorem ReadsSound.readValue {fuel : Nat} (less : ReadsSound fuel) {depth : Nat} {t rest : Text}
    {v : Value} (read : readValue depth (fuel + 1) t = .ok (v, rest)) : Sound v := by
  rw [Json.readValue.eq_def] at read
  dsimp only at read
  split at read
  · -- A text.
    obtain ⟨⟨s, r⟩, -, same⟩ := Run.map_eq_ok_iff.mp read
    cases same
    exact .text s
  · -- A list.
    obtain ⟨deeper, -, read⟩ := Run.bind_eq_ok_iff.mp read
    split at read
    · cases read
      exact .list (by simp)
    · obtain ⟨⟨vs, r⟩, inside, same⟩ := Run.map_eq_ok_iff.mp read
      cases same
      exact .list (less.members _ _ _ _ inside)
  · -- A table.
    obtain ⟨deeper, -, read⟩ := Run.bind_eq_ok_iff.mp read
    split at read
    · cases read
      exact .table (by simp [Entries.keys]) (by simp)
    · obtain ⟨⟨ms, r⟩, inside, same⟩ := Run.map_eq_ok_iff.mp read
      cases same
      exact less.pairs _ _ _ _ _ (.table (by simp [Entries.keys]) (by simp)) inside
  · -- A word or a number.
    split at read
    · rename_i result found
      cases read
      obtain ⟨⟨word, v'⟩, member, after⟩ := List.exists_of_findSome?_eq_some found
      obtain ⟨r, -, same⟩ := Option.map_eq_some_iff.mp after
      cases same
      exact sound_of_mem_words member
    · exact sound_of_readNumber read

theorem ReadsSound.readMembers {fuel : Nat} (less : ReadsSound fuel) {depth : Nat} {t rest : Text}
    {vs : List Value} (read : readMembers depth (fuel + 1) t = .ok (vs, rest)) :
    ∀ v ∈ vs, Sound v := by
  rw [Json.readMembers] at read
  obtain ⟨⟨v, r⟩, first, read⟩ := Run.bind_eq_ok_iff.mp read
  have here := less.value _ _ _ _ first
  dsimp only at read
  split at read
  · cases read
    exact List.forall_mem_singleton.mpr here
  · obtain ⟨⟨vs', r'⟩, later, read⟩ := Run.bind_eq_ok_iff.mp read
    cases read
    exact List.forall_mem_cons.mpr ⟨here, less.members _ _ _ _ later⟩
  · cases read

theorem ReadsSound.readPairs {fuel : Nat} (less : ReadsSound fuel) {depth : Nat} {t rest : Text}
    {done ms : Entries Value} (before : Sound (.table done))
    (read : readPairs depth (fuel + 1) done t = .ok (ms, rest)) : Sound (.table ms) := by
  rw [Json.readPairs.eq_def] at read
  dsimp only at read
  split at read
  · obtain ⟨⟨key, r⟩, -, read⟩ := Run.bind_eq_ok_iff.mp read
    dsimp only at read
    split at read
    · obtain ⟨⟨v, r'⟩, value, read⟩ := Run.bind_eq_ok_iff.mp read
      have after := sound_set before key (less.value _ _ _ _ value)
      dsimp only at read
      split at read
      · cases read
        exact after
      · exact less.pairs _ _ _ _ _ after read
      · cases read
    · cases read
  · cases read

theorem readsSound (fuel : Nat) : ReadsSound fuel := by
  induction fuel with
  | zero => exact .zero
  | succ fuel ih =>
      exact ⟨fun _ _ _ _ => ih.readValue, fun _ _ _ _ => ih.readMembers,
        fun _ _ _ _ _ before => ih.readPairs before⟩

/-- **What has been read is sound.** -/
theorem sound_of_read {t : Text} {v : Value} (read : Json.read t = .ok v) : Sound v := by
  unfold Json.read at read
  obtain ⟨⟨v', rest⟩, value, read⟩ := Run.bind_eq_ok_iff.mp read
  dsimp only at read
  split at read
  · cases read
    exact (readsSound _).value _ _ _ _ value
  · cases read

end CodeAtlas.Json
