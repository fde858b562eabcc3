import Bhchain.Lib.KVStore
import Mathlib.Data.List.Sort

/-!
# A patch over a store, read in either direction

A write-back cache keeps, over a store, a *patch*: a new value for some keys and
a deletion (`none`) for others. A reader sees the **view**. That is the patch's
entry where the patch has one, and the store's value elsewhere.

Iterators walk such lists in key order or against it. So the lists here are
ordered by an arbitrary strict order `r`, and `Ascending r l` says that the keys
of `l` strictly increase along `r`. Along a strict order no key repeats. Hence
an entry of the list is what `get` finds there (`Ascending.mem_iff_get`), two
lists that agree on every key are equal (`Ascending.eq_of_get_eq`), and reversing
a list changes none of its lookups (`Ascending.get_reverse`).
-/

namespace Overlay

open KVStore

variable {κ α β : Type} {r : κ → κ → Prop}

/-- The keys of a list strictly increase along `r`. -/
def Ascending (r : κ → κ → Prop) (l : List (κ × α)) : Prop := l.Pairwise fun e f => r e.1 f.1

/-! ## Ascending lists -/

theorem ascending_nil : Ascending r ([] : List (κ × α)) := List.Pairwise.nil

theorem ascending_cons {e : κ × α} {l : List (κ × α)} :
    Ascending r (e :: l) ↔ (∀ f ∈ l, r e.1 f.1) ∧ Ascending r l := List.pairwise_cons

theorem Ascending.tail {e : κ × α} {l : List (κ × α)} (h : Ascending r (e :: l)) :
    Ascending r l :=
  (ascending_cons.1 h).2

theorem Ascending.rel_of_mem {e f : κ × α} {l : List (κ × α)} (h : Ascending r (e :: l))
    (hf : f ∈ l) : r e.1 f.1 :=
  (ascending_cons.1 h).1 f hf

/-- Every key of an ascending list is its head's or comes after it. -/
theorem Ascending.eq_or_rel {e f : κ × α} {l : List (κ × α)} (h : Ascending r (e :: l))
    (hf : f ∈ e :: l) : f.1 = e.1 ∨ r e.1 f.1 := by
  rcases List.mem_cons.1 hf with rfl | hf
  · exact Or.inl rfl
  · exact Or.inr (h.rel_of_mem hf)

theorem Ascending.sublist {l₁ l₂ : List (κ × α)} (h : Ascending r l₂)
    (hs : List.Sublist l₁ l₂) :
    Ascending r l₁ :=
  List.Pairwise.sublist hs h

theorem Ascending.filter {l : List (κ × α)} (h : Ascending r l) (p : κ × α → Bool) :
    Ascending r (l.filter p) :=
  h.sublist List.filter_sublist

/-- Read backwards, a list ascends along the opposite order. -/
theorem ascending_reverse {l : List (κ × α)} : Ascending r l.reverse ↔ Ascending (flip r) l := by
  unfold Ascending
  rw [List.pairwise_reverse]
  rfl

variable [LinearOrder κ]

/-- What a reader sees through a patch over a base: the patch's entry where it has one
(`none` is a deletion), and the base's value elsewhere. -/
def view (base : List (κ × β)) (patch : List (κ × Option β)) (k : κ) : Option β :=
  match get k patch with
  | some o => o
  | none => get k base

/-! ## Lookups -/

/-- `get` of a filter by key: the key's value if it passes, nothing otherwise. -/
theorem get_filter (p : κ → Bool) (k : κ) (l : List (κ × α)) :
    get k (l.filter fun e => p e.1) = if p k then get k l else none := by
  induction l with
  | nil => split <;> rfl
  | cons e l ih =>
    obtain ⟨a, v⟩ := e
    rw [List.filter_cons, get_cons]
    by_cases hak : a = k
    · subst hak
      by_cases hp : p a = true
      · rw [if_pos hp, get_cons, if_pos rfl, if_pos rfl, if_pos hp]
      · rw [if_neg hp, ih, if_neg hp, if_neg hp]
    · rw [if_neg hak]
      split
      · rw [get_cons, if_neg hak, ih]
      · exact ih

/-- `get` of a list whose values are computed from the keys. -/
theorem get_map_of_key (f : κ → β) (k : κ) (l : List (κ × α)) :
    get k (l.map fun e => (e.1, f e.1)) = (get k l).map fun _ => f k := by
  induction l with
  | nil => rfl
  | cons e l ih =>
    obtain ⟨a, v⟩ := e
    rw [List.map_cons, get_cons, get_cons, ih]
    by_cases hak : a = k
    · rw [if_pos hak, if_pos hak, hak]
      rfl
    · rw [if_neg hak, if_neg hak]

/-- `get` of a list whose values are mapped. -/
theorem get_map_snd (g : α → β) (k : κ) (l : List (κ × α)) :
    get k (l.map fun e => (e.1, g e.2)) = (get k l).map g := by
  induction l with
  | nil => rfl
  | cons e l ih =>
    obtain ⟨a, v⟩ := e
    rw [List.map_cons, get_cons, get_cons, ih]
    by_cases hak : a = k
    · rw [if_pos hak, if_pos hak]
      rfl
    · rw [if_neg hak, if_neg hak]

/-- An entry is what `get` finds when every entry of its key carries its value. -/
theorem get_of_mem_of_unique {k : κ} {v : α} :
    ∀ {l : List (κ × α)}, (k, v) ∈ l → (∀ e ∈ l, e.1 = k → e.2 = v) → get k l = some v
  | [], hm, _ => by cases hm
  | (a, w) :: l, hm, hu => by
    rw [get_cons]
    by_cases hak : a = k
    · rw [if_pos hak]
      exact congrArg some (hu (a, w) List.mem_cons_self hak)
    · rw [if_neg hak]
      rcases List.mem_cons.1 hm with he | hm
      · cases he
        exact absurd rfl hak
      · exact get_of_mem_of_unique hm fun e he => hu e (List.mem_cons_of_mem _ he)

/-- No entry carries a key that `get` does not find. -/
theorem ne_of_get_eq_none {k : κ} {l : List (κ × α)} (h : get k l = none) :
    ∀ e ∈ l, e.1 ≠ k := by
  intro e he hek
  obtain ⟨a, w⟩ := e
  cases hek
  cases hg : get a l with
  | none =>
    induction l with
    | nil => cases he
    | cons f l ih =>
      obtain ⟨b, u⟩ := f
      rw [get_cons] at hg h
      by_cases hba : b = a
      · rw [if_pos hba] at hg
        cases hg
      · rw [if_neg hba] at hg h
        rcases List.mem_cons.1 he with he | he
        · cases he
          exact hba rfl
        · exact ih he h hg
  | some u => rw [h] at hg; cases hg

section strict

variable [IsStrictOrder κ r]

/-- The head's key is not in the tail. -/
theorem Ascending.get_tail_head {e : κ × α} {l : List (κ × α)} (h : Ascending r (e :: l)) :
    get e.1 l = none := by
  apply get_eq_none
  intro f hf hfe
  have hrel := h.rel_of_mem hf
  rw [hfe] at hrel
  exact irrefl_of r e.1 hrel

/-- A key before the head of an ascending list is not in it. -/
theorem Ascending.get_eq_none_of_rel {e : κ × α} {l : List (κ × α)} (h : Ascending r (e :: l))
    {k : κ} (hk : r k e.1) : get k (e :: l) = none := by
  apply get_eq_none
  intro f hf hfk
  rcases List.mem_cons.1 hf with rfl | hf
  · rw [hfk] at hk
    exact irrefl_of r k hk
  · have hrel := trans_of r hk (h.rel_of_mem hf)
    rw [hfk] at hrel
    exact irrefl_of r k hrel

/-- In an ascending list an entry is what `get` finds. -/
theorem Ascending.get_of_mem {l : List (κ × α)} (h : Ascending r l) {k : κ} {v : α}
    (hm : (k, v) ∈ l) : get k l = some v := by
  induction l with
  | nil => cases hm
  | cons e l ih =>
    obtain ⟨a, w⟩ := e
    rw [get_cons]
    rcases List.mem_cons.1 hm with he | hm
    · cases he
      exact if_pos rfl
    · have hne : a ≠ k := by
        intro hak
        have hrel := h.rel_of_mem hm
        rw [hak] at hrel
        exact irrefl_of r k hrel
      rw [if_neg hne]
      exact ih h.tail hm

theorem Ascending.mem_iff_get {l : List (κ × α)} (h : Ascending r l) {k : κ} {v : α} :
    (k, v) ∈ l ↔ get k l = some v :=
  ⟨h.get_of_mem, mem_of_get⟩

/-- **Extensionality.** Two ascending lists that agree on every key are equal. -/
theorem Ascending.eq_of_get_eq {l₁ l₂ : List (κ × α)} (h₁ : Ascending r l₁) (h₂ : Ascending r l₂)
    (h : ∀ k, get k l₁ = get k l₂) : l₁ = l₂ := by
  have : Std.Irrefl (fun e f : κ × α => r e.1 f.1) := ⟨fun e => irrefl_of r e.1⟩
  refine List.Pairwise.eq_of_mem_iff h₁ h₂ fun e => ?_
  obtain ⟨k, v⟩ := e
  rw [h₁.mem_iff_get, h₂.mem_iff_get, h]

/-- Reversing an ascending list changes none of its lookups. -/
theorem Ascending.get_reverse {l : List (κ × α)} (h : Ascending r l) (k : κ) :
    get k l.reverse = get k l := by
  cases hg : get k l with
  | none =>
    exact get_eq_none fun e he => ne_of_get_eq_none hg e (List.mem_reverse.1 he)
  | some v =>
    refine get_of_mem_of_unique (List.mem_reverse.2 (mem_of_get hg)) fun e he hek => ?_
    obtain ⟨a, w⟩ := e
    cases hek
    have hw := h.get_of_mem (List.mem_reverse.1 he)
    rw [hg] at hw
    exact (Option.some.inj hw).symm

/-- `get` of a list filtered by value: in an ascending list the key's one entry passes or
not. -/
theorem Ascending.get_filter_snd {l : List (κ × α)} (h : Ascending r l) (p : α → Bool) (k : κ) :
    get k (l.filter fun e => p e.2) = (get k l).filter p := by
  induction l with
  | nil => rfl
  | cons e l ih =>
    obtain ⟨a, v⟩ := e
    rw [List.filter_cons, get_cons]
    by_cases hp : p v = true
    · rw [if_pos hp, get_cons, ih h.tail]
      by_cases hak : a = k
      · rw [if_pos hak, if_pos hak, Option.filter_some, if_pos hp]
      · rw [if_neg hak, if_neg hak]
    · rw [if_neg hp, ih h.tail]
      by_cases hak : a = k
      · -- the head is filtered out, and its key is nowhere else
        subst hak
        rw [if_pos rfl, Option.filter_some, if_neg hp, h.get_tail_head]
        rfl
      · rw [if_neg hak]

/-- Two stores that agree on every key are the same store. -/
theorem store_eq_of_get_eq {s t : KVStore.Store κ α} (h : ∀ k, s.get k = t.get k) : s = t := by
  obtain ⟨l₁, h₁⟩ := s
  obtain ⟨l₂, h₂⟩ := t
  have hl : l₁ = l₂ := Ascending.eq_of_get_eq (r := fun a b => a < b) h₁ h₂ h
  subst hl
  rfl

end strict

/-! ## The view -/

section view

variable {base : List (κ × β)} {patch : List (κ × Option β)} {k : κ}

theorem view_of_get_patch {o : Option β} (h : get k patch = some o) : view base patch k = o := by
  rw [view, h]

theorem view_of_get_patch_eq_none (h : get k patch = none) : view base patch k = get k base := by
  rw [view, h]

theorem view_nil_patch (base : List (κ × β)) (k : κ) : view base [] k = get k base := rfl

/-- Entries of the patch under another key do not matter. -/
theorem view_cons_patch_of_ne {a : κ} {o : Option β} (h : a ≠ k) :
    view base ((a, o) :: patch) k = view base patch k := by
  unfold view
  rw [get_cons, if_neg h]

/-- Entries of the base under another key do not matter. -/
theorem view_cons_base_of_ne {a : κ} {v : β} (h : a ≠ k) :
    view ((a, v) :: base) patch k = view base patch k := by
  unfold view
  rw [get_cons, if_neg h]

/-- A visible key is a key of the patch or of the base. -/
theorem mem_keys_of_view {v : β} (h : view base patch k = some v) :
    (∃ c ∈ patch, c.1 = k) ∨ ∃ e ∈ base, e.1 = k := by
  unfold view at h
  split at h
  · rename_i o hg
    exact Or.inl ⟨(k, o), mem_of_get hg, rfl⟩
  · exact Or.inr ⟨(k, v), mem_of_get h, rfl⟩

/-- The view of a patch and a base filtered by the same key test. -/
theorem view_filter (p : κ → Bool) :
    view (base.filter fun e => p e.1) (patch.filter fun c => p c.1) k =
      if p k then view base patch k else none := by
  unfold view
  rw [get_filter, get_filter]
  by_cases hp : p k = true
  · rw [if_pos hp, if_pos hp, if_pos hp]
  · rw [if_neg hp, if_neg hp, if_neg hp]

/-- Reversing an ascending patch and base changes nothing a reader sees. -/
theorem view_reverse [IsStrictOrder κ r] (hb : Ascending r base) (hp : Ascending r patch) :
    view base.reverse patch.reverse k = view base patch k := by
  unfold view
  rw [hb.get_reverse, hp.get_reverse]

end view

end Overlay
