/-
# Entries -- finite maps that keep the order of first insertion

A map with text keys is the list of its pairs.  `set` changes the value of a key that is present
in its place and adds a new key at the end, so the order of the keys is the order in which they
first came.  Every map built by `set` from the empty one has distinct keys; `get?` and `erase`
look at the first pair of a key.
-/
import CodeAtlas.Text.Basic

namespace CodeAtlas

set_option autoImplicit false

/-- Pairs of a key and a value in order of first insertion. -/
abbrev Entries (α : Type) := List (Text × α)

namespace Entries

variable {α : Type}

def get? (e : Entries α) (key : Text) : Option α := List.lookup key e

def contains (e : Entries α) (key : Text) : Bool := (e.get? key).isSome

def keys (e : Entries α) : List Text := e.map Prod.fst

def values (e : Entries α) : List α := e.map Prod.snd

/-- Change the value of `key` in place by `f`, which gets `none` when the key is new. -/
def alter (e : Entries α) (key : Text) (f : Option α → α) : Entries α :=
  match e with
  | [] => [(key, f none)]
  | (k, a) :: rest => if k == key then (k, f (some a)) :: rest else (k, a) :: alter rest key f

def set (e : Entries α) (key : Text) (a : α) : Entries α := e.alter key fun _ => a

/-- Add `a` at the end of the list of `key`. -/
def push (e : Entries (List α)) (key : Text) (a : α) : Entries (List α) :=
  e.alter key fun old => old.getD [] ++ [a]

def erase (e : Entries α) (key : Text) : Entries α := e.filter (·.1 != key)

end Entries

end CodeAtlas
