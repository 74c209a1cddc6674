/-
# Proofs.Settings.Section -- a section is its defaults with what is stored over them

Two values are of the same kind exactly if they are of one of seven kinds (`sameKind_iff`), so a
value of the kind of what a text was read as is of the kind of the default (`kind_parse`).

Laying what is stored over the defaults neither adds a setting nor takes one away (`keys_merge`).
Of a setting that is stored once the stored value counts if it can be used, and the default
otherwise (`get?_merge`).
-/
import CodeAtlas.Proofs.Entries
import CodeAtlas.Proofs.Run
import CodeAtlas.Settings.Section

namespace CodeAtlas.Settings

set_option autoImplicit false

variable {section_ key raw : Text} {v w d : Value} {defaults settings stored : Entries Value}

/-! ## Kinds -/

inductive Kind where
  | nothing
  | truth
  | number
  | text
  | moment
  | list
  | table
  deriving DecidableEq

def kind : Value → Kind
  | .null => .nothing
  | .bool _ => .truth
  | .int _ => .number
  | .float _ => .number
  | .text _ => .text
  | .moment _ => .moment
  | .list _ => .list
  | .table _ => .table

theorem sameKind_iff : sameKind v w = true ↔ kind v = kind w := by
  cases v <;> cases w <;> simp [sameKind, kind]

/-- No default is a text, a moment, a table or nothing. -/
theorem kind_default? (known : default? section_ key = some d) :
    kind d ∈ [Kind.truth, .number, .list] := by
  have each : ∀ e ∈ Settings.defaults, ∀ p ∈ e.2, kind p.2 ∈ [Kind.truth, .number, .list] := by
    decide
  obtain ⟨settings, inside, found⟩ := Option.bind_eq_some_iff.mp known
  exact each _ (Entries.mem_of_get? inside) _ (Entries.mem_of_get? found)

/-- What a text is read as is of the kind of the default. -/
theorem kind_parse (parsed : parse section_ key raw = .ok v) :
    ∃ d, default? section_ key = some d ∧ kind d = kind v := by
  rw [parse] at parsed
  split at parsed
  · cases parsed
  · rename_i b known
    refine ⟨_, known, ?_⟩
    dsimp only at parsed
    split at parsed
    · cases parsed
      rfl
    split at parsed
    · cases parsed
      rfl
    · cases parsed
  · rename_i n known
    obtain ⟨m, -, rfl⟩ := Run.map_eq_ok_iff.mp parsed
    exact ⟨_, known, rfl⟩
  · rename_i x known
    obtain ⟨y, -, rfl⟩ := Run.map_eq_ok_iff.mp parsed
    exact ⟨_, known, rfl⟩
  · rename_i members known
    cases parsed
    exact ⟨_, known, rfl⟩
  · rename_i d noTruth noInt noFloat noList known
    have none_ := kind_default? known
    cases d with
    | bool b => exact absurd rfl (noTruth b)
    | int n => exact absurd rfl (noInt n)
    | float x => exact absurd rfl (noFloat x)
    | list members => exact absurd rfl (noList members)
    | null => simp [kind] at none_
    | text t => simp [kind] at none_
    | moment m => simp [kind] at none_
    | table ms => simp [kind] at none_

/-! ## Merging -/

/-- Can the value be used for the setting? -/
def isUsable (defaults : Entries Value) (key : Text) (v : Value) : Bool :=
  (defaults.get? key).any fun d => sameKind d v

theorem lay_eq (settings : Entries Value) (key : Text) (v : Value) :
    lay defaults settings (key, v) =
      if isUsable defaults key v then settings.set key v else settings := by
  rw [lay, isUsable]
  cases defaults.get? key with
  | none => rfl
  | some d => rfl

theorem mem_keys_of_isUsable (usable : isUsable defaults key v = true) : key ∈ defaults.keys := by
  by_contra unknown
  rw [isUsable, Entries.get?_eq_none_iff.mpr unknown] at usable
  cases usable

/-- Laying a stored setting over the settings adds none. -/
theorem keys_lay (same : settings.keys = defaults.keys) (e : Text × Value) :
    (lay defaults settings e).keys = defaults.keys := by
  obtain ⟨key, v⟩ := e
  rw [lay_eq]
  split
  · rename_i usable
    rw [Entries.keys_set_of_mem (same ▸ mem_keys_of_isUsable usable), same]
  · exact same

/-- **A section has exactly the settings that have defaults.** -/
theorem keys_merge (defaults stored : Entries Value) :
    (merge defaults stored).keys = defaults.keys := by
  rw [merge]
  suffices each : ∀ settings : Entries Value, settings.keys = defaults.keys →
      (stored.foldl (lay defaults) settings).keys = defaults.keys from each defaults rfl
  induction stored with
  | nil => exact fun _ same => same
  | cons e stored ih => exact fun settings same => ih _ (keys_lay same e)

theorem get?_foldl_lay (distinct : stored.keys.Nodup) (settings : Entries Value) (key : Text) :
    (stored.foldl (lay defaults) settings).get? key =
      ((stored.get? key).filter (isUsable defaults key)).or (settings.get? key) := by
  induction stored generalizing settings with
  | nil => rfl
  | cons e stored ih =>
      obtain ⟨k, v⟩ := e
      rw [Entries.keys_cons, List.nodup_cons] at distinct
      rw [List.foldl_cons, ih distinct.2, lay_eq, Entries.get?_cons]
      by_cases here : key = k
      · subst here
        rw [Entries.get?_eq_none_iff.mpr distinct.1, if_pos rfl]
        by_cases usable : isUsable defaults key v = true
        · simp [usable, Entries.get?_set, Option.filter]
        · simp [usable, Option.filter]
      · rw [if_neg here]
        by_cases usable : isUsable defaults k v = true
        · rw [if_pos usable, Entries.get?_set, if_neg here]
        · rw [if_neg usable]

/-- **A setting has the value that is stored, if that can be used, and else its default.** -/
theorem get?_merge (distinct : stored.keys.Nodup) (key : Text) :
    (merge defaults stored).get? key =
      ((stored.get? key).filter (isUsable defaults key)).or (defaults.get? key) :=
  get?_foldl_lay distinct defaults key

end CodeAtlas.Settings
