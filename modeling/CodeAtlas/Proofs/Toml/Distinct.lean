/-
# Proofs.Toml.Distinct -- a table that has been read has no key twice

A table can be told by what is looked up in it only if its keys are distinct, and that at every
depth (`Distinct`).  Reading keeps this: values are put into tables by `Entries.set` and nowhere
else, whether a header makes a table, a pair adds a member, or a part of the draft is changed in its
place (`Distinct.of_changeAt`).  A header that finds a table of its name and a pair whose key is not
new are errors, but nothing here depends on that.

The readers of values call each other with less fuel, and one induction on the fuel carries all of
them (`ReadsDistinct`).
-/
import CodeAtlas.Proofs.Entries
import CodeAtlas.Proofs.Run
import CodeAtlas.Toml.Document

namespace CodeAtlas.Toml

set_option autoImplicit false

/-- **No table in the value has a key twice.** -/
inductive Distinct : Value → Prop
  | null : Distinct .null
  | bool (b : Bool) : Distinct (.bool b)
  | int (n : Int) : Distinct (.int n)
  | float (x : Number.Double) : Distinct (.float x)
  | text (t : Text) : Distinct (.text t)
  | moment (m : Moment) : Distinct (.moment m)
  | list {vs : List Value} (members : ∀ v ∈ vs, Distinct v) : Distinct (.list vs)
  | table {ms : List (Text × Value)} (keys : (Entries.keys ms).Nodup)
      (members : ∀ m ∈ ms, Distinct m.2) : Distinct (.table ms)

variable {v v' : Value} {vs : List Value} {ms : Entries Value} {key : Text}

/-! ## Parts of values -/

namespace Distinct

theorem emptyTable : Distinct (.table []) := .table List.nodup_nil (by simp)

theorem of_get? (table : Distinct (.table ms)) (found : ms.get? key = some v) : Distinct v := by
  cases table with
  | table keys members => exact members _ (Entries.mem_of_get? found)

theorem set (table : Distinct (.table ms)) (key : Text) (new : Distinct v) :
    Distinct (.table (ms.set key v)) := by
  cases table with
  | table keys members =>
      refine .table (Entries.nodup_keys_alter keys key _) fun m member => ?_
      rcases Entries.of_mem_alter keys member with rfl | before
      · exact new
      · exact members m before

theorem of_getLast? (list : Distinct (.list vs)) (last : vs.getLast? = some v) : Distinct v := by
  cases list with
  | list members => exact members v (List.mem_of_getLast? last)

theorem concat (list : ∀ v ∈ vs, Distinct v) (new : Distinct v) :
    ∀ w ∈ vs ++ [v], Distinct w := by
  intro w member
  rcases List.mem_append.mp member with before | here
  · exact list w before
  · rw [List.mem_singleton.mp here]
    exact new

theorem dropLast_concat (list : Distinct (.list vs)) (new : Distinct v) :
    Distinct (.list (vs.dropLast ++ [v])) := by
  cases list with
  | list members =>
      exact .list (concat (fun w before => members w (List.dropLast_subset vs before)) new)

/-- What is made on the way where nothing is found has no key twice, either. -/
theorem of_getD (table : Distinct (.table ms)) (key : Text) {absent : Value}
    (absent_ : Distinct absent) : Distinct ((ms.get? key).getD absent) := by
  cases found : ms.get? key with
  | none => exact absent_
  | some v => exact table.of_get? found

/-- **Changing a part of a value.** -/
theorem of_changeAt {f : Value → Except Fault Value} {place : List Step}
    (keeps : ∀ v v', Distinct v → f v = .ok v' → Distinct v') (before : Distinct v)
    (changed : changeAt f place v = .ok v') : Distinct v' := by
  induction place generalizing v v' with
  | nil => exact keeps v v' before changed
  | cons step place ih =>
      cases step with
      | key name =>
          cases v with
          | table ms =>
              rw [changeAt] at changed
              split at changed
              · rename_i v found
                obtain ⟨w, inside, rfl⟩ := Run.map_eq_ok_iff.mp changed
                exact before.set name (ih (before.of_get? found) inside)
              · cases changed
          | _ => cases changed
      | last =>
          cases v with
          | list vs =>
              rw [changeAt] at changed
              split at changed
              · rename_i v last
                obtain ⟨w, inside, rfl⟩ := Run.map_eq_ok_iff.mp changed
                exact before.dropLast_concat (ih (before.of_getLast? last) inside)
              · cases changed
          | _ => cases changed

theorem of_openTables {path : List Text} (before : Distinct v)
    (opened : openTables path v = .ok v') : Distinct v' := by
  induction path generalizing v v' with
  | nil =>
      cases opened
      exact before
  | cons name path ih =>
      cases v with
      | table ms =>
          obtain ⟨w, inside, rfl⟩ := Run.map_eq_ok_iff.mp opened
          exact before.set name (ih (before.of_getD name .emptyTable) inside)
      | _ => cases opened

theorem putAt {path : List Text} (before : Distinct v) (new : Distinct v') :
    Distinct (putAt key v' path v) := by
  induction path generalizing v with
  | nil =>
      cases v with
      | table ms => exact before.set key new
      | _ => exact before
  | cons name path ih =>
      cases v with
      | table ms => exact before.set name (ih (before.of_getD name .emptyTable))
      | _ => exact before

end Distinct

/-! ## Values -/

/-- A word has no tables in it. -/
theorem distinct_of_word? {tidy : Bool} {t : Text} (read : word? tidy t = some v) :
    Distinct v := by
  have number : ∀ (negative : Bool) (u : Text), number? negative u = some v → Distinct v := by
    intro negative u read
    rw [number?] at read
    split at read
    · obtain ⟨x, -, rfl⟩ := Option.map_eq_some_iff.mp read
      exact .float _
    split at read
    · obtain ⟨x, -, rfl⟩ := Option.map_eq_some_iff.mp read
      exact .float _
    · obtain ⟨n, -, rfl⟩ := Option.map_eq_some_iff.mp read
      exact .int _
  rw [word?] at read
  split at read
  · cases read
    exact .bool true
  split at read
  · cases read
    exact .bool false
  split at read
  · cases read
  · exact number _ _ read

/-- With this much fuel no reader makes a table with a key twice. -/
structure ReadsDistinct (fuel : Nat) : Prop where
  value : ∀ tidy t v, readValue fuel tidy t = .ok v → Distinct v
  array : ∀ t vs, readArray fuel t = .ok vs → ∀ v ∈ vs, Distinct v
  table : ∀ t v v', Distinct v → readTable fuel t v = .ok v' → Distinct v'
  pair : ∀ line v after, Distinct v → addPair fuel line v = .ok after → Distinct after.1

theorem ReadsDistinct.zero : ReadsDistinct 0 := by
  refine ⟨?_, ?_, ?_, ?_⟩
  · intro tidy t v read
    rw [readValue] at read
    cases read
  · intro t vs read
    rw [readArray] at read
    cases read
  · intro t v v' before read
    rw [readTable] at read
    cases read
  · intro line v after before read
    rw [addPair] at read
    cases read

section Readers

variable {fuel : Nat} (less : ReadsDistinct fuel)
include less

theorem ReadsDistinct.readValue {tidy : Bool} {t : Text}
    (read : readValue (fuel + 1) tidy t = .ok v) : Distinct v := by
  rw [Toml.readValue.eq_def] at read
  dsimp only at read
  split at read
  · obtain ⟨s, -, rfl⟩ := Run.map_eq_ok_iff.mp read
    exact .text s
  · obtain ⟨s, -, rfl⟩ := Run.map_eq_ok_iff.mp read
    exact .text s
  · obtain ⟨vs, inside, rfl⟩ := Run.map_eq_ok_iff.mp read
    exact .list (less.array _ _ inside)
  · exact less.table _ _ _ .emptyTable read
  · obtain ⟨m?, -, read⟩ := Run.bind_eq_ok_iff.mp read
    cases m? with
    | some m =>
        cases read
        exact .moment m
    | none =>
        cases word : word? tidy t with
        | none =>
            rw [word] at read
            cases read
        | some w =>
            rw [word] at read
            cases read
            exact distinct_of_word? word

theorem ReadsDistinct.readArray {t : Text} (read : readArray (fuel + 1) t = .ok vs) :
    ∀ v ∈ vs, Distinct v := by
  rw [Toml.readArray] at read
  obtain ⟨members, -, read⟩ := Run.bind_eq_ok_iff.mp read
  refine Run.of_foldlM_eq_ok (P := fun vs => ∀ v ∈ vs, Distinct v) read ?_ (by simp)
  intro member _ before after kept step
  obtain ⟨v, here, step⟩ := Run.bind_eq_ok_iff.mp step
  split at step
  · cases step
    exact Distinct.concat kept (less.value _ _ _ here)
  · cases step

theorem ReadsDistinct.readTable {t : Text} (before : Distinct v)
    (read : readTable (fuel + 1) t v = .ok v') : Distinct v' := by
  rw [Toml.readTable] at read
  obtain ⟨pairs, -, read⟩ := Run.bind_eq_ok_iff.mp read
  obtain ⟨after, run, same⟩ := Run.bind_eq_ok_iff.mp read
  cases same
  refine Run.of_foldlM_eq_ok (P := fun state => Distinct state.1) run ?_ before
  intro pair _ state state' kept step
  split at step
  · cases step
    exact kept
  · exact less.pair _ _ _ kept step

theorem ReadsDistinct.addPair {line : Text} {after : Value × Option OpenText}
    (before : Distinct v) (read : addPair (fuel + 1) line v = .ok after) : Distinct after.1 := by
  rw [Toml.addPair] at read
  obtain ⟨pair, -, read⟩ := Run.bind_eq_ok_iff.mp read
  obtain ⟨path, -, read⟩ := Run.bind_eq_ok_iff.mp read
  obtain ⟨table, made, read⟩ := Run.bind_eq_ok_iff.mp read
  have made_ := before.of_openTables made
  obtain ⟨opened?, -, read⟩ := Run.bind_eq_ok_iff.mp read
  cases opened? with
  | some opened =>
      dsimp only at read
      split at read
      · cases read
      split at read
      · cases read
      · cases read
        exact made_
  | none =>
      obtain ⟨w, value, read⟩ := Run.bind_eq_ok_iff.mp read
      split at read
      · cases read
      · cases read
        exact made_.putAt (less.value _ _ _ value)

end Readers

theorem readsDistinct (fuel : Nat) : ReadsDistinct fuel := by
  induction fuel with
  | zero => exact .zero
  | succ fuel ih =>
      exact ⟨fun _ _ _ => ih.readValue, fun _ _ => ih.readArray, fun _ _ _ => ih.readTable,
        fun _ _ _ => ih.addPair⟩

/-! ## Headers -/

theorem distinct_newMember (array isLast : Bool) : Distinct (newMember array isLast) := by
  rw [newMember]
  split
  · exact .list (by simpa using Distinct.emptyTable)
  · exact .emptyTable

theorem exists_of_lastTable (last : lastTable v = .ok ms) :
    ∃ vs, v = .list vs ∧ vs.getLast? = some (.table ms) := by
  rw [lastTable.eq_def] at last
  split at last
  · split at last
    · rename_i found
      cases last
      exact ⟨_, rfl, found⟩
    · cases last
    · cases last
  · cases last
  · cases last

theorem distinct_of_reopen {array : Bool} {name : Text} {implied implied' : List Text}
    (before : Distinct v) (opened : reopen array name v implied = .ok (v', implied')) :
    Distinct v' := by
  rw [reopen.eq_def] at opened
  split at opened
  · split at opened
    · cases opened
    · cases opened
      exact before
  split at opened
  · split at opened
    · cases opened
      cases before with
      | list members => exact .list (Distinct.concat members .emptyTable)
    · cases opened
  · cases opened

theorem distinct_of_enter {array : Bool} {go : Value → Except Fault Opened} {o : Opened}
    (keeps : ∀ v o, Distinct v → go v = .ok o → Distinct o.value) (before : Distinct v)
    (entered : enter array v go = .ok o) : Distinct o.value := by
  rw [enter.eq_def] at entered
  split at entered
  · exact keeps _ _ before entered
  split at entered
  · exact keeps _ _ before entered
  · exact keeps _ _ before entered
  · cases entered
  · split at entered
    · cases entered
    · rename_i last
      obtain ⟨o, inside, rfl⟩ := Run.map_eq_ok_iff.mp entered
      exact before.dropLast_concat (keeps _ _ (before.of_getLast? last) inside)
  · cases entered

/-- **Opening a header** makes tables and lists, none of them with a key twice. -/
theorem distinct_of_openHeader {array : Bool} {names implied : List Text} {o : Opened}
    (before : Distinct v) (opened : openHeader array names implied v = .ok o) :
    Distinct o.value := by
  induction names generalizing v implied o with
  | nil =>
      cases opened
      exact before
  | cons name names ih =>
      have below : ∀ (implied : List Text) v o, Distinct v →
          openHeader array names implied v = .ok o → Distinct o.value := fun _ _ _ => ih
      rw [openHeader.eq_def] at opened
      dsimp only at opened
      split at opened
      · cases opened
      split at opened
      · -- The part that the name stands for is found, opened again, or made, and then entered.
        rename_i ms
        have enters : ∀ (member : Value) (implied : List Text), Distinct member →
            (enter array member (openHeader array names implied) >>= fun o =>
              pure { value := .table (Entries.set ms name o.value), place := .key name :: o.place
                     implied := o.implied }) = .ok o → Distinct o.value := by
          intro member implied here rest
          obtain ⟨inner, inside, same⟩ := Run.bind_eq_ok_iff.mp rest
          cases same
          exact before.set name (distinct_of_enter (below implied) here inside)
        split at opened
        · rename_i member found
          have here := before.of_get? found
          split at opened
          · obtain ⟨⟨member', implied'⟩, again, rest⟩ := Run.bind_eq_ok_iff.mp opened
            exact enters member' implied' (distinct_of_reopen here again) rest
          · exact enters member implied here opened
        · exact enters _ _ (distinct_newMember _ _) opened
      · obtain ⟨ms, last, opened⟩ := Run.bind_eq_ok_iff.mp opened
        obtain ⟨vs, rfl, found⟩ := exists_of_lastTable last
        obtain ⟨inner, inside, same⟩ := Run.bind_eq_ok_iff.mp opened
        cases same
        have table : Distinct (.table ms) := before.of_getLast? found
        have member := table.of_getD name (distinct_newMember array names.isEmpty)
        exact before.dropLast_concat (table.set name (distinct_of_enter (below implied) member inside))

/-! ## Lines -/

namespace Draft

variable {d d' : Draft} {line : Text}

theorem distinct_of_readHeader (before : Distinct d.root) (read : d.readHeader line = .ok d') :
    Distinct d'.root := by
  -- The three kinds of headers differ in where their names come from only.
  have opens : ∀ (array : Bool) (text : Text),
      (headerNames none (Text.splitOn '.' text) >>= fun names =>
        openHeader array names d.implied d.root >>= fun o =>
          pure { d with root := o.value, place := o.place, implied := o.implied }) = .ok d' →
        Distinct d'.root := by
    intro array text rest
    obtain ⟨names, -, rest⟩ := Run.bind_eq_ok_iff.mp rest
    obtain ⟨o, opened, same⟩ := Run.bind_eq_ok_iff.mp rest
    cases same
    exact distinct_of_openHeader before opened
  rw [readHeader.eq_def] at read
  dsimp only at read
  split at read
  · obtain ⟨⟨array, text⟩, -, rest⟩ := Run.bind_eq_ok_iff.mp read
    exact opens array text rest
  · cases read
  · obtain ⟨⟨array, text⟩, -, rest⟩ := Run.bind_eq_ok_iff.mp read
    exact opens array text rest

theorem distinct_of_readInlineTable (before : Distinct d.root)
    (read : d.readInlineTable line = .ok d') : Distinct d'.root := by
  rw [readInlineTable] at read
  split at read
  · cases read
  obtain ⟨root, changed, same⟩ := Run.bind_eq_ok_iff.mp read
  cases same
  exact before.of_changeAt (fun _ _ => (readsDistinct depthLimit).table line _ _) changed

theorem distinct_of_partAt {place : List Step} (before : Distinct v)
    (found : readPair.partAt place v = .ok v') : Distinct v' := by
  induction place generalizing v with
  | nil =>
      cases found
      exact before
  | cons step place ih =>
      cases step with
      | key name =>
          cases v with
          | table ms =>
              rw [readPair.partAt] at found
              cases there : Entries.get? ms name with
              | none =>
                  rw [there] at found
                  cases found
              | some w =>
                  rw [there] at found
                  exact ih (before.of_get? there) found
          | _ => cases found
      | last =>
          cases v with
          | list vs =>
              rw [readPair.partAt] at found
              cases there : vs.getLast? with
              | none =>
                  rw [there] at found
                  cases found
              | some w =>
                  rw [there] at found
                  exact ih (before.of_getLast? there) found
          | _ => cases found

theorem distinct_of_readPair (before : Distinct d.root) (read : d.readPair line = .ok d') :
    Distinct d'.root := by
  rw [readPair] at read
  obtain ⟨part, found, read⟩ := Run.bind_eq_ok_iff.mp read
  obtain ⟨⟨table, opened⟩, added, read⟩ := Run.bind_eq_ok_iff.mp read
  obtain ⟨root, changed, same⟩ := Run.bind_eq_ok_iff.mp read
  cases same
  have new : Distinct table :=
    (readsDistinct depthLimit).pair _ _ _ (distinct_of_partAt before found) added
  refine before.of_changeAt (fun v v' _ put => ?_) changed
  cases put
  exact new

theorem distinct_of_readOn {o : OpenText} (before : Distinct d.root)
    (read : d.readOn o line = .ok d') : Distinct d'.root := by
  rw [readOn] at read
  obtain ⟨closed, -, read⟩ := Run.bind_eq_ok_iff.mp read
  split at read
  · obtain ⟨v, value, read⟩ := Run.bind_eq_ok_iff.mp read
    obtain ⟨root, changed, same⟩ := Run.bind_eq_ok_iff.mp read
    cases same
    have new : Distinct v := (readsDistinct depthLimit).value _ _ _ value
    refine before.of_changeAt (fun w w' kept put => ?_) changed
    cases put
    exact kept.putAt new
  · cases read
    exact before

/-- **No line makes a table with a key twice.** -/
theorem distinct_of_readLine (before : Distinct d.root) (read : d.readLine line = .ok d') :
    Distinct d'.root := by
  rw [readLine] at read
  split at read
  · rw [readStatement.eq_def] at read
    split at read
    · exact distinct_of_readHeader before read
    · exact distinct_of_readInlineTable before read
    · split at read
      · exact distinct_of_readPair before read
      · cases read
        exact before
  · rename_i o _
    dsimp only at read
    generalize (if (o.joined || !o.text.contains '\n') = true then Text.trim line else line) =
      line' at read
    split at read
    · cases read
      exact before
    · exact distinct_of_readOn before read

end Draft

/-- **A table that has been read has no key twice, at any depth.** -/
theorem distinct_of_read {t : Text} (read : Toml.read t = .ok ms) : Distinct (.table ms) := by
  rw [Toml.read] at read
  obtain ⟨lines, -, read⟩ := Run.bind_eq_ok_iff.mp read
  obtain ⟨d, run, same⟩ := Run.bind_eq_ok_iff.mp read
  cases same
  have root : Distinct d.root :=
    Run.of_foldlM_eq_ok (P := fun d => Distinct d.root) run
      (fun _ _ _ _ => Draft.distinct_of_readLine) .emptyTable
  cases spelled : d.root with
  | table ms =>
      rw [spelled] at root
      exact root
  | _ => exact .emptyTable

end CodeAtlas.Toml
