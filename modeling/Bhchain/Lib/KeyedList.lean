import Mathlib

/-!
# Keyed lists

A list of records in which a record is found by its key: `lookup` reads the
first record with a key, and `upsert` writes a record in place of the first
one with its key, or appends it when there is none. A store written only
through `upsert` holds at most one record per key, but nothing below needs
that: every lemma is about the *first* record of a key, which is the one
`lookup` reads and the one `upsert` replaces.

The lemma `lookup_upsert` says how a write moves a read.
-/

namespace KeyedList

variable {α κ : Type} [DecidableEq κ] (key : α → κ)

/-- The first record with the key. -/
def lookup (k : κ) (l : List α) : Option α := l.find? (fun x => key x = k)

/-- Write a record in place of the first one with its key, or append it. -/
def upsert (x : α) : List α → List α
  | [] => [x]
  | y :: ys => if key y = key x then x :: ys else y :: upsert x ys

@[simp] theorem lookup_nil (k : κ) : lookup key k ([] : List α) = none := rfl

theorem lookup_cons (k : κ) (y : α) (ys : List α) :
    lookup key k (y :: ys) = if key y = k then some y else lookup key k ys := by
  simp only [lookup, List.find?_cons]
  split <;> simp_all

/-- **A write is read back under its key, and nowhere else.** -/
theorem lookup_upsert (x : α) (k : κ) :
    ∀ l : List α, lookup key k (upsert key x l) = if key x = k then some x else lookup key k l
  | [] => by simp [upsert, lookup_cons]
  | y :: ys => by
    unfold upsert
    split
    · -- `y` is the record replaced: under its key both read `x`
      rename_i hy
      rw [lookup_cons, lookup_cons, hy]
      by_cases hxk : key x = k <;> simp [hxk]
    · rename_i hy
      rw [lookup_cons, lookup_cons, lookup_upsert x k ys]
      by_cases hyk : key y = k
      · subst hyk
        simp [Ne.symm hy]
      · simp [hyk]

theorem key_of_lookup {k : κ} {x : α} {l : List α} (h : lookup key k l = some x) : key x = k := by
  simpa using List.find?_some h

end KeyedList
