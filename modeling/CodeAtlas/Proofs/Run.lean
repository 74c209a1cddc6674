/-
# Proofs.Run -- what a run that succeeded has done

A computation that can fail is a chain of smaller ones, and it succeeds only if each of them does.
The lemmas take a successful run apart into the runs it is made of: `bind_eq_ok_iff` for one step
after another, `map_eq_ok_iff` for a step that cannot fail, `mapM_eq_ok_iff` and `forM_eq_ok_iff`
for one run for each member of a list, `of_foldlM_eq_ok` for one run for each member that goes on with
what came out of the one before.

Two runs match if both succeed, with results that are related, or both fail (`Matches`).  Runs for the
members of a list match member by member (`matches_mapM`), and in any order of the members
(`matches_mapM_of_perm`).

Where the computation also works on a state, that state goes on from step to step (`run_bind`,
`run_bind_eq_ok_iff`).
-/
import Mathlib.Data.List.Forall2

namespace CodeAtlas.Run

set_option autoImplicit false

variable {ε α β : Type}

theorem ok_bind (a : α) (f : α → Except ε β) : (Except.ok a >>= f) = f a := rfl

theorem bind_eq_ok_iff {x : Except ε α} {f : α → Except ε β} {b : β} :
    (x >>= f) = .ok b ↔ ∃ a, x = .ok a ∧ f a = .ok b := by
  cases x with
  | error e => simp [bind, Except.bind]
  | ok a => simp [bind, Except.bind]

/-- A run of two steps fails at one of them. -/
theorem bind_eq_error_iff {x : Except ε α} {f : α → Except ε β} {e : ε} :
    (x >>= f) = .error e ↔ x = .error e ∨ ∃ a, x = .ok a ∧ f a = .error e := by
  cases x with
  | error e' => simp [bind, Except.bind]
  | ok a => simp [bind, Except.bind]

theorem map_eq_ok_iff {x : Except ε α} {f : α → β} {b : β} :
    x.map f = .ok b ↔ ∃ a, x = .ok a ∧ f a = b := by
  cases x with
  | error e => simp [Except.map]
  | ok a => simp [Except.map]

theorem map_eq_error_iff {x : Except ε α} {f : α → β} {e : ε} :
    x.map f = .error e ↔ x = .error e := by
  cases x with
  | error e' => simp [Except.map]
  | ok a => simp [Except.map]

theorem toOption_eq_some_iff {x : Except ε α} {a : α} : x.toOption = some a ↔ x = .ok a := by
  cases x with
  | error e => simp [Except.toOption]
  | ok b => simp [Except.toOption]

theorem map_toOption_eq_iff {l : List (Except ε α)} {as : List α} :
    l.map Except.toOption = as.map some ↔ l = as.map .ok := by
  induction l generalizing as with
  | nil => cases as <;> simp
  | cons x l ih => cases as <;> simp [ih, toOption_eq_some_iff]

theorem not_exists_ok {e : ε} : ¬ ∃ a : α, (Except.error e : Except ε α) = .ok a := by
  rintro ⟨a, ⟨⟩⟩

/-- A step that cannot fail does not decide whether a run succeeds. -/
theorem exists_map_iff {x : Except ε α} {f : α → β} :
    (∃ b, x.map f = .ok b) ↔ ∃ a, x = .ok a := by
  cases x with
  | error e => exact iff_of_false not_exists_ok not_exists_ok
  | ok a => exact iff_of_true ⟨f a, rfl⟩ ⟨a, rfl⟩

theorem forM_eq_ok_iff {l : List α} {f : α → Except ε Unit} :
    l.forM f = .ok () ↔ ∀ a ∈ l, f a = .ok () := by
  induction l with
  | nil => exact ⟨fun _ => by simp, fun _ => rfl⟩
  | cons a l ih =>
      rw [List.forM, bind_eq_ok_iff, List.forall_mem_cons, ← ih]
      constructor
      · rintro ⟨⟨⟩, first, rest⟩
        exact ⟨first, rest⟩
      · exact fun both => ⟨(), both⟩

/-- One run for each member, in order. -/
theorem mapM_eq_ok_iff {l : List α} {f : α → Except ε β} {bs : List β} :
    l.mapM f = .ok bs ↔ List.Forall₂ (fun a b => f a = .ok b) l bs := by
  induction l generalizing bs with
  | nil =>
      rw [List.mapM_nil, List.forall₂_nil_left_iff]
      exact ⟨fun same => (Except.ok.inj same).symm, fun same => same ▸ rfl⟩
  | cons a l ih =>
      rw [List.mapM_cons, bind_eq_ok_iff, List.forall₂_cons_left_iff]
      constructor
      · rintro ⟨b, first, later⟩
        obtain ⟨bs', rest, same⟩ := bind_eq_ok_iff.mp later
        cases same
        exact ⟨b, bs', first, ih.mp rest, rfl⟩
      · rintro ⟨b, bs', first, rest, rfl⟩
        exact ⟨b, first, bind_eq_ok_iff.mpr ⟨bs', ih.mpr rest, rfl⟩⟩

/-- Runs that are the same for each member are the same for all. -/
theorem mapM_congr {l : List α} {f g : α → Except ε β} (same : ∀ a ∈ l, f a = g a) :
    l.mapM f = l.mapM g := by
  induction l with
  | nil => rfl
  | cons a l ih =>
      rw [List.forall_mem_cons] at same
      rw [List.mapM_cons, List.mapM_cons, same.1, ih same.2]

/-- Every result is that of some member. -/
theorem exists_of_mem_mapM {l : List α} {f : α → Except ε β} {bs : List β} {b : β}
    (run : l.mapM f = .ok bs) (member : b ∈ bs) : ∃ a ∈ l, f a = .ok b := by
  rw [mapM_eq_ok_iff] at run
  induction run with
  | nil => cases member
  | cons first _ ih =>
      rcases List.mem_cons.mp member with rfl | later
      · exact ⟨_, List.mem_cons_self, first⟩
      · obtain ⟨a, inside, found⟩ := ih later
        exact ⟨a, List.mem_cons_of_mem _ inside, found⟩

/-- When every run succeeds, so do all together. -/
theorem exists_mapM {l : List α} {f : α → Except ε β} {P : α → β → Prop}
    (each : ∀ a ∈ l, ∃ b, f a = .ok b ∧ P a b) : ∃ bs, l.mapM f = .ok bs ∧ List.Forall₂ P l bs := by
  induction l with
  | nil => exact ⟨[], rfl, .nil⟩
  | cons a l ih =>
      obtain ⟨b, here, holds⟩ := each a List.mem_cons_self
      obtain ⟨bs, rest, all⟩ := ih fun a' later => each a' (List.mem_cons_of_mem _ later)
      refine ⟨b :: bs, ?_, .cons holds all⟩
      rw [List.mapM_cons, here, ok_bind, rest, ok_bind]
      rfl

/-- All runs together succeed exactly if each of them does. -/
theorem exists_mapM_iff {l : List α} {f : α → Except ε β} :
    (∃ bs, l.mapM f = .ok bs) ↔ ∀ a ∈ l, ∃ b, f a = .ok b := by
  constructor
  · rintro ⟨bs, run⟩
    induction l generalizing bs with
    | nil => simp
    | cons a l ih =>
        rw [List.mapM_cons, bind_eq_ok_iff] at run
        obtain ⟨b, first, later⟩ := run
        obtain ⟨bs', rest, -⟩ := bind_eq_ok_iff.mp later
        exact List.forall_mem_cons.mpr ⟨⟨b, first⟩, ih bs' rest⟩
  · intro each
    obtain ⟨bs, run, -⟩ := exists_mapM (P := fun _ _ => True) fun a member =>
      (each a member).imp fun _ here => ⟨here, trivial⟩
    exact ⟨bs, run⟩

/-- A list run that fails has the fault of one of its elements. -/
theorem exists_of_mapM_eq_error {l : List α} {f : α → Except ε β} {e : ε}
    (run : l.mapM f = .error e) : ∃ a ∈ l, f a = .error e := by
  induction l with
  | nil => cases run
  | cons a l ih =>
      rw [List.mapM_cons] at run
      cases here : f a with
      | error e' =>
          rw [here] at run
          cases run
          exact ⟨a, List.mem_cons_self, here⟩
      | ok b =>
          rw [here, ok_bind] at run
          cases rest : l.mapM f with
          | error e' =>
              rw [rest] at run
              cases run
              obtain ⟨a', member, fault⟩ := ih rest
              exact ⟨a', List.mem_cons_of_mem a member, fault⟩
          | ok bs =>
              rw [rest] at run
              cases run

/-- A fold succeeds with what each of its steps succeeds with and keeps. -/
theorem exists_foldlM {l : List α} {f : β → α → Except ε β} {P : β → Prop} {b : β}
    (each : ∀ a ∈ l, ∀ b, P b → ∃ b', f b a = .ok b' ∧ P b') (start : P b) :
    ∃ b', l.foldlM f b = .ok b' ∧ P b' := by
  induction l generalizing b with
  | nil => exact ⟨b, rfl, start⟩
  | cons a l ih =>
      obtain ⟨b', here, kept⟩ := each a List.mem_cons_self b start
      rw [List.foldlM_cons, here, ok_bind]
      exact ih (fun a' later => each a' (List.mem_cons_of_mem a later)) kept

/-- What each step of a fold keeps holds of what comes out of it. -/
theorem of_foldlM_eq_ok {l : List α} {f : β → α → Except ε β} {P : β → Prop} {b b' : β}
    (run : l.foldlM f b = .ok b') (each : ∀ a ∈ l, ∀ b b', P b → f b a = .ok b' → P b')
    (start : P b) : P b' := by
  induction l generalizing b with
  | nil =>
      cases run
      exact start
  | cons a l ih =>
      rw [List.foldlM_cons, bind_eq_ok_iff] at run
      obtain ⟨between, here, rest⟩ := run
      refine ih rest (fun a' later => each a' (List.mem_cons_of_mem a later)) ?_
      exact each a List.mem_cons_self b between start here

/-! ## Two runs -/

/-- Both runs succeed, with related results, or both fail. -/
def Matches (R : α → β → Prop) : Except ε α → Except ε β → Prop
  | .ok a, .ok b => R a b
  | .error _, .error _ => True
  | _, _ => False

section Matches

variable {γ δ : Type} {R : α → β → Prop} {S : γ → δ → Prop} {x : Except ε α} {y : Except ε β}

theorem Matches.map {f : α → γ} {g : β → δ} (runs : Matches R x y)
    (keeps : ∀ a b, R a b → S (f a) (g b)) : Matches S (x.map f) (y.map g) := by
  cases x with
  | error e => cases y with
    | error e' => trivial
    | ok b => exact runs
  | ok a => cases y with
    | error e' => exact runs
    | ok b => exact keeps a b runs

theorem Matches.bind {f : α → Except ε γ} {g : β → Except ε δ} (runs : Matches R x y)
    (goOn : ∀ a b, R a b → Matches S (f a) (g b)) : Matches S (x >>= f) (y >>= g) := by
  cases x with
  | error e => cases y with
    | error e' => trivial
    | ok b => cases runs
  | ok a => cases y with
    | error e' => cases runs
    | ok b => exact goOn a b runs

/-- What is known about the results may be used to relate them. -/
theorem Matches.imp {S : α → β → Prop} (runs : Matches R x y)
    (keeps : ∀ a b, x = .ok a → y = .ok b → R a b → S a b) : Matches S x y := by
  cases x with
  | error e => cases y with
    | error e' => trivial
    | ok b => exact runs
  | ok a => cases y with
    | error e' => exact runs
    | ok b => exact keeps a b rfl rfl runs

theorem matches_refl {R : α → α → Prop} (refl : ∀ a, R a a) (x : Except ε α) : Matches R x x := by
  cases x with
  | error e => trivial
  | ok a => exact refl a

theorem Matches.trans {R : α → α → Prop} (closed : ∀ a b c, R a b → R b c → R a c)
    {x y z : Except ε α} (first : Matches R x y) (second : Matches R y z) : Matches R x z := by
  cases x <;> cases y <;> cases z
  all_goals first
    | exact closed _ _ _ first second
    | trivial

/-- Runs for the members of a list match if they do for each member. -/
theorem matches_mapM {l : List γ} {f : γ → Except ε α} {g : γ → Except ε β}
    (each : ∀ c ∈ l, Matches R (f c) (g c)) : Matches (List.Forall₂ R) (l.mapM f) (l.mapM g) := by
  induction l with
  | nil => exact .nil
  | cons c l ih =>
      rw [List.mapM_cons, List.mapM_cons]
      apply (each c List.mem_cons_self).bind
      intro a b here
      apply (ih fun c' later => each c' (List.mem_cons_of_mem c later)).bind
      intro as bs rest
      exact .cons here rest

/-- **The order of the members does not matter for whether all runs succeed**, and the results come
in the order of the members. -/
theorem matches_mapM_of_perm {l l' : List γ} (perm : l.Perm l') (f : γ → Except ε α) :
    Matches List.Perm (l.mapM f) (l'.mapM f) := by
  induction perm with
  | nil => exact .nil
  | cons c _ ih =>
      rw [List.mapM_cons, List.mapM_cons]
      apply (matches_refl (R := Eq) (fun _ => rfl) (f c)).bind
      rintro a _ rfl
      exact ih.bind fun as bs rest => List.Perm.cons a rest
  | swap c d l =>
      rw [List.mapM_cons, List.mapM_cons, List.mapM_cons, List.mapM_cons]
      cases f c <;> cases f d <;> cases l.mapM f
      all_goals first
        | exact List.Perm.swap _ _ _
        | trivial
  | trans _ _ ih ih' =>
      exact Matches.trans (R := List.Perm) (fun _ _ _ first second => first.trans second) ih ih'

end Matches

/-! ## With a state -/

section State

variable {σ : Type} {state state' : σ}

/-- A run goes on with the state its first part has left behind. -/
theorem run_bind {x : ExceptT ε (StateM σ) α} {f : α → ExceptT ε (StateM σ) β} :
    (x >>= f).run.run state =
      match x.run.run state with
      | (.ok a, between) => (f a).run.run between
      | (.error e, between) => (.error e, between) := by
  change (ExceptT.bindCont f (x state).1 (x state).2) = _
  change _ = match x state with
    | (.ok a, between) => (f a).run.run between
    | (.error e, between) => (.error e, between)
  rcases x state with ⟨_ | _, between⟩ <;> rfl

theorem run_bind_eq_ok_iff {x : ExceptT ε (StateM σ) α} {f : α → ExceptT ε (StateM σ) β} {b : β} :
    (x >>= f).run.run state = (.ok b, state') ↔
      ∃ a between, x.run.run state = (.ok a, between) ∧
        (f a).run.run between = (.ok b, state') := by
  rw [run_bind]
  rcases x.run.run state with ⟨e | a, between⟩
  · constructor
    · rintro ⟨⟩
    · rintro ⟨a, between', ⟨⟩, -⟩
  · constructor
    · exact fun rest => ⟨a, between, rfl, rest⟩
    · rintro ⟨a', between', same, rest⟩
      cases same
      exact rest

theorem run_pure_eq_ok_iff {a b : α} :
    (pure a : ExceptT ε (StateM σ) α).run.run state = (.ok b, state') ↔ a = b ∧ state' = state := by
  change (Except.ok a, state) = (Except.ok b, state') ↔ _
  rw [Prod.mk.injEq, Except.ok.injEq, eq_comm (a := state)]

end State

end CodeAtlas.Run
