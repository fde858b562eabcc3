import Mathlib.Data.List.Sort
import Mathlib.Data.Set.Defs

/-!
# A search tree ordered by a comparator

A balanced search tree keyed by a comparator `cmp : α → α → ℤ` (negative,
zero or positive, as comparators of Go return) is, to its users, the
sequence of its keys in order. `Put` walks to the key that compares equal
and replaces it, or adds the new key where the walk ends. `Remove` takes
out the key that compares equal, if there is one. An iterator visits the
keys in order, a reverse iterator backwards. This module represents a tree
by that sequence (`Sorted`), and `Put` and `Remove` by the same walk over
it (`put`, `remove`).

The walk finds what a sorted map would only when the comparator is a strict
total order on the keys it meets: zero exactly on equal keys, of opposite
signs both ways, transitive. A comparator may be such an order on some keys
and not on others — one that compares records by an ID first is zero on two
different records of one ID — so lawfulness is asked of a set of keys
(`LawfulOn`), and the results are about trees whose keys are in that set.

Insertion sort with a strict order builds the same sequence
(`insertionSort_eq_of_perm`), which is how a model that sorts its contents
on demand is related to one that keeps a tree.
-/

namespace SortedTree

variable {α : Type} (cmp : α → α → ℤ)

/-- **The in-order keys of a search tree**: strictly ascending under the
comparator. -/
def Sorted (l : List α) : Prop := l.Pairwise fun a b => cmp a b < 0

/-- **`Put`**: replace the key that compares equal to `k`, or insert `k`
before the first key above it. -/
def put (k : α) : List α → List α
  | [] => [k]
  | a :: l => if cmp k a < 0 then k :: a :: l else if cmp k a = 0 then k :: l else a :: put k l

/-- **`Remove`**: take out the key that compares equal to `k`; the walk
stops at the first key above it. -/
def remove (k : α) : List α → List α
  | [] => []
  | a :: l => if cmp k a < 0 then a :: l else if cmp k a = 0 then l else a :: remove k l

/-- **A comparator that is a strict total order on the keys of `S`**. -/
structure LawfulOn (S : Set α) : Prop where
  eq_zero_iff : ∀ a ∈ S, ∀ b ∈ S, cmp a b = 0 ↔ a = b
  neg_iff_pos : ∀ a ∈ S, ∀ b ∈ S, cmp a b < 0 ↔ 0 < cmp b a
  trans : ∀ a ∈ S, ∀ b ∈ S, ∀ c ∈ S, cmp a b < 0 → cmp b c < 0 → cmp a c < 0

variable {cmp}

@[simp] theorem sorted_nil : Sorted cmp [] := List.Pairwise.nil

theorem sorted_cons {a : α} {l : List α} :
    Sorted cmp (a :: l) ↔ (∀ b ∈ l, cmp a b < 0) ∧ Sorted cmp l := List.pairwise_cons

theorem remove_sublist (k : α) : ∀ l : List α, (remove cmp k l).Sublist l
  | [] => List.Sublist.slnil
  | a :: l => by
    unfold remove
    split_ifs
    · exact List.Sublist.refl _
    · exact List.sublist_cons_self a l
    · exact (remove_sublist k l).cons_cons a

theorem Sorted.remove {l : List α} (h : Sorted cmp l) (k : α) : Sorted cmp (remove cmp k l) :=
  List.Pairwise.sublist (remove_sublist k l) h

/-! ## Lawful comparators -/

namespace LawfulOn

variable {S : Set α} (h : LawfulOn cmp S)
include h

theorem ne_of_neg {a b : α} (ha : a ∈ S) (hb : b ∈ S) (hab : cmp a b < 0) : a ≠ b := by
  rintro rfl
  have hz : cmp a a = 0 := (h.eq_zero_iff a ha a ha).mpr rfl
  omega

theorem neg_of_pos {a b : α} (ha : a ∈ S) (hb : b ∈ S) (hab : 0 < cmp a b) : cmp b a < 0 :=
  (h.neg_iff_pos b hb a ha).mpr hab

/-- A key below the head of a sorted list is below all of it, so not in it. -/
theorem not_mem_of_neg {k a : α} {l : List α} (hs : Sorted cmp (a :: l)) (hS : ∀ b ∈ a :: l, b ∈ S)
    (hk : k ∈ S) (hka : cmp k a < 0) : k ∉ a :: l := by
  intro hmem
  rcases List.mem_cons.mp hmem with rfl | hmem
  · exact h.ne_of_neg hk hk hka rfl
  · -- the head is below every other key
    have hab : cmp a k < 0 := (sorted_cons.mp hs).1 k hmem
    exact h.ne_of_neg hk hk (h.trans k hk a (hS a List.mem_cons_self) k hk hka hab) rfl

/-! ### `Put` -/

theorem mem_put {k : α} (hk : k ∈ S) :
    ∀ {l : List α}, (∀ b ∈ l, b ∈ S) → ∀ x, x ∈ put cmp k l ↔ x = k ∨ x ∈ l
  | [], _, x => by simp [put]
  | a :: l, hS, x => by
    have ha : a ∈ S := hS a List.mem_cons_self
    unfold put
    split_ifs with hlt heq
    · simp
    · -- the key found is `k` itself
      have hak : a = k := ((h.eq_zero_iff k hk a ha).mp heq).symm
      subst hak
      simp
    · have ih := mem_put hk (fun b hb => hS b (List.mem_cons_of_mem a hb)) x
      simp only [List.mem_cons, ih]
      tauto

/-- **`Put` keeps a tree sorted.** -/
theorem sorted_put {k : α} (hk : k ∈ S) :
    ∀ {l : List α}, Sorted cmp l → (∀ b ∈ l, b ∈ S) → Sorted cmp (put cmp k l)
  | [], _, _ => by simp [put, Sorted]
  | a :: l, hs, hS => by
    have ha : a ∈ S := hS a List.mem_cons_self
    have hl : ∀ b ∈ l, b ∈ S := fun b hb => hS b (List.mem_cons_of_mem a hb)
    obtain ⟨hal, hsl⟩ := sorted_cons.mp hs
    unfold put
    split_ifs with hlt heq
    · -- `k` goes first: it is below `a`, so below everything after `a`
      refine sorted_cons.mpr ⟨fun b hb => ?_, hs⟩
      rcases List.mem_cons.mp hb with rfl | hb
      · exact hlt
      · exact h.trans k hk a ha b (hl b hb) hlt (hal b hb)
    · -- `k` replaces `a`, which is `k`
      have hak : a = k := ((h.eq_zero_iff k hk a ha).mp heq).symm
      subst hak
      exact hs
    · -- `k` goes further down, above `a`
      have hak : cmp a k < 0 := h.neg_of_pos hk ha (by omega)
      refine sorted_cons.mpr ⟨fun b hb => ?_, sorted_put hk hsl hl⟩
      rcases (h.mem_put hk hl b).mp hb with rfl | hb
      · exact hak
      · exact hal b hb

/-! ### `Remove` -/

theorem mem_remove {k : α} (hk : k ∈ S) :
    ∀ {l : List α}, Sorted cmp l → (∀ b ∈ l, b ∈ S) → ∀ x, x ∈ remove cmp k l ↔ x ∈ l ∧ x ≠ k
  | [], _, _, x => by simp [remove]
  | a :: l, hs, hS, x => by
    have ha : a ∈ S := hS a List.mem_cons_self
    have hl : ∀ b ∈ l, b ∈ S := fun b hb => hS b (List.mem_cons_of_mem a hb)
    obtain ⟨hal, hsl⟩ := sorted_cons.mp hs
    unfold remove
    split_ifs with hlt heq
    · -- the walk stops: `k` is below the whole list, hence not in it
      have hnot := h.not_mem_of_neg hs hS hk hlt
      constructor
      · intro hx
        exact ⟨hx, fun hxk => hnot (hxk ▸ hx)⟩
      · exact fun hx => hx.1
    · -- `a` is `k`, and the keys after it are above it
      have hak : a = k := ((h.eq_zero_iff k hk a ha).mp heq).symm
      subst hak
      constructor
      · intro hx
        exact ⟨List.mem_cons_of_mem a hx, h.ne_of_neg ha (hl x hx) (hal x hx) ∘ Eq.symm⟩
      · rintro ⟨hx, hxa⟩
        exact (List.mem_cons.mp hx).resolve_left hxa
    · have hak : a ≠ k := fun hak => heq ((h.eq_zero_iff k hk a ha).mpr hak.symm)
      have ih := mem_remove hk hsl hl x
      simp only [List.mem_cons, ih]
      constructor
      · rintro (rfl | ⟨hx, hxk⟩)
        · exact ⟨Or.inl rfl, hak⟩
        · exact ⟨Or.inr hx, hxk⟩
      · rintro ⟨rfl | hx, hxk⟩
        · exact Or.inl rfl
        · exact Or.inr ⟨hx, hxk⟩

end LawfulOn

/-- **A comparator that agrees with a key into a linear order** — below zero
exactly when the key is smaller, zero exactly when the keys are equal — is
lawful on a set on which the key tells keys apart. -/
theorem LawfulOn.of_key {β : Type} [LinearOrder β] {S : Set α} (key : α → β)
    (hinj : Set.InjOn key S) (hneg : ∀ a ∈ S, ∀ b ∈ S, cmp a b < 0 ↔ key a < key b)
    (hzero : ∀ a ∈ S, ∀ b ∈ S, cmp a b = 0 ↔ key a = key b) : LawfulOn cmp S where
  eq_zero_iff a ha b hb := (hzero a ha b hb).trans ⟨fun h => hinj ha hb h, congrArg key⟩
  neg_iff_pos a ha b hb := by
    have hpos : 0 < cmp b a ↔ ¬ (cmp b a < 0 ∨ cmp b a = 0) := by omega
    rw [hneg a ha b hb, hpos, hneg b hb a ha, hzero b hb a ha, ← le_iff_lt_or_eq, not_le]
  trans a ha b hb c hc hab hbc :=
    (hneg a ha c hc).mpr (lt_trans ((hneg a ha b hb).mp hab) ((hneg b hb c hc).mp hbc))

section InsertionSort

variable {r : α → α → Prop} [DecidableRel r]

/-- Inserting `a` into `xs ++ ys` puts it between them when it is above
every key of `xs` and below the first key of `ys`. -/
theorem orderedInsert_append_cons (a : α) :
    ∀ (xs ys : List α), (∀ x ∈ xs, ¬ r a x) → (∀ y ∈ ys.head?, r a y) →
      (xs ++ ys).orderedInsert r a = xs ++ a :: ys
  | [], [], _, _ => rfl
  | [], y :: ys, _, hy => by
    rw [List.nil_append, List.orderedInsert_cons, if_pos (hy y rfl), List.nil_append]
  | x :: xs, ys, hx, hy => by
    rw [List.cons_append, List.orderedInsert_cons, if_neg (hx x List.mem_cons_self),
      orderedInsert_append_cons a xs ys (fun x' hx' => hx x' (List.mem_cons_of_mem x hx')) hy]
    rfl

/-- **Insertion sort under an asymmetric relation gives back any strictly
sorted permutation.** -/
theorem insertionSort_eq_of_perm (hr : ∀ a b, r a b → ¬ r b a) :
    ∀ {l l' : List α}, l.Perm l' → l'.Pairwise r → l.insertionSort r = l'
  | [], l', hp, _ => by rw [List.nil_perm.mp hp]; rfl
  | a :: t, l', hp, hs => by
    -- `a` sits somewhere in `l'`; the rest of `l'` is the sorted rest of `l`
    obtain ⟨xs, ys, rfl⟩ := List.append_of_mem (hp.subset List.mem_cons_self)
    have ht : t.Perm (xs ++ ys) := (hp.trans List.perm_middle).cons_inv
    have hsub : (xs ++ ys).Pairwise r :=
      hs.sublist (List.Sublist.append_left (List.sublist_cons_self a ys) xs)
    rw [List.insertionSort_cons, insertionSort_eq_of_perm hr ht hsub]
    obtain ⟨-, hays, hcross⟩ := List.pairwise_append.mp hs
    apply orderedInsert_append_cons
    · intro x hx hax
      exact hr x a (hcross x hx a List.mem_cons_self) hax
    · intro y hy
      exact (List.pairwise_cons.mp hays).1 y (List.mem_of_mem_head? hy)

end InsertionSort

end SortedTree
