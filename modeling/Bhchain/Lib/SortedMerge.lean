import Mathlib

/-!
# Key-sorted association lists under merging addition

A multiset of amounts indexed by keys is often stored as a list of
`(key, amount)` entries, strictly increasing in key and with no zero
amount. Addition is then a merge of two such lists: walk both in key
order, add the amounts of a key present in both, and drop every entry
whose amount is zero. Subtraction is addition of the negated list.

This module develops that representation over an arbitrary linear order
of keys and an arbitrary additive group of amounts. The point of it is
one equation: on sorted lists the amount read at a key is additive,
`lookup_mergeAdd`. Everything a client proves about balances held in such
a list goes through it, together with `Sorted` being kept by the merge
and the fact that a list with no zero entry is empty exactly when every
key reads zero.

The merge is written as two nested structural recursions –
`mergeStep` walks the right list while the head of the left list waits –
so that it computes by `decide` on small literals.
-/

namespace SortedMerge

variable {κ V : Type} [LinearOrder κ]

/-- **Strictly increasing in key.** -/
def Sorted (l : List (κ × V)) : Prop := l.Pairwise (fun e f => e.1 < f.1)

/-- No entry carries the zero amount. -/
def NoZero [Zero V] (l : List (κ × V)) : Prop := ∀ e ∈ l, e.2 ≠ 0

@[simp] theorem sorted_nil : Sorted ([] : List (κ × V)) := List.Pairwise.nil

theorem sorted_cons {e : κ × V} {l : List (κ × V)} :
    Sorted (e :: l) ↔ (∀ f ∈ l, e.1 < f.1) ∧ Sorted l := List.pairwise_cons

theorem Sorted.tail {e : κ × V} {l : List (κ × V)} (h : Sorted (e :: l)) : Sorted l :=
  (sorted_cons.mp h).2

theorem Sorted.head_lt {e f : κ × V} {l : List (κ × V)} (h : Sorted (e :: l))
    (hf : f ∈ l) : e.1 < f.1 :=
  (sorted_cons.mp h).1 f hf

section lookup

variable [Zero V]

/-- The amount stored under `k`: the first entry with that key, or zero. -/
def lookup (k : κ) : List (κ × V) → V
  | [] => 0
  | e :: l => if e.1 = k then e.2 else lookup k l

@[simp] theorem lookup_nil (k : κ) : lookup k ([] : List (κ × V)) = 0 := rfl

theorem lookup_cons (k : κ) (e : κ × V) (l : List (κ × V)) :
    lookup k (e :: l) = if e.1 = k then e.2 else lookup k l := rfl

/-- A key no entry carries reads zero. -/
theorem lookup_eq_zero {k : κ} {l : List (κ × V)} (h : ∀ e ∈ l, e.1 ≠ k) :
    lookup k l = 0 := by
  induction l with
  | nil => rfl
  | cons e l ih =>
    rw [lookup_cons, if_neg (h e List.mem_cons_self)]
    exact ih (fun f hf => h f (List.mem_cons_of_mem e hf))

/-- Below the head of a sorted list every key reads zero. -/
theorem lookup_eq_zero_of_lt {k : κ} {e : κ × V} {l : List (κ × V)}
    (hs : Sorted (e :: l)) (hk : k < e.1) : lookup k (e :: l) = 0 := by
  apply lookup_eq_zero
  intro f hf
  rcases List.mem_cons.mp hf with rfl | hf
  · exact ne_of_gt hk
  · exact ne_of_gt (lt_trans hk (hs.head_lt hf))

/-- The entry of a key, once found, is the answer. -/
theorem lookup_of_mem {k : κ} {v : V} {l : List (κ × V)} (hs : Sorted l)
    (hm : (k, v) ∈ l) : lookup k l = v := by
  induction l with
  | nil => cases hm
  | cons e l ih =>
    rw [lookup_cons]
    rcases List.mem_cons.mp hm with rfl | hm
    · exact if_pos rfl
    · rw [if_neg (ne_of_lt (hs.head_lt hm))]
      exact ih hs.tail hm

/-- **A list with no zero entry is empty exactly when every key reads zero.** -/
theorem eq_nil_iff_lookup {l : List (κ × V)} (hz : NoZero l) :
    l = [] ↔ ∀ k, lookup k l = 0 := by
  constructor
  · rintro rfl k
    rfl
  · intro h
    cases l with
    | nil => rfl
    | cons e l =>
      have he := h e.1
      rw [lookup_cons, if_pos rfl] at he
      exact absurd he (hz e List.mem_cons_self)

/-- A key that reads a nonzero amount has an entry that carries it. -/
theorem exists_mem_of_lookup_ne_zero {k : κ} {l : List (κ × V)} (h : lookup k l ≠ 0) :
    ∃ e ∈ l, e.1 = k ∧ e.2 = lookup k l := by
  induction l with
  | nil => exact absurd rfl h
  | cons e l ih =>
    rw [lookup_cons] at h ⊢
    by_cases hek : e.1 = k
    · rw [if_pos hek]
      exact ⟨e, List.mem_cons_self, hek, rfl⟩
    · rw [if_neg hek] at h ⊢
      obtain ⟨f, hf, hfk, hfv⟩ := ih h
      exact ⟨f, List.mem_cons_of_mem e hf, hfk, hfv⟩

/-- **Binary search for a key.** A list of one entry is compared directly;
a longer one is split at its middle entry. -/
def binaryLookup (k : κ) (l : List (κ × V)) : V :=
  match l with
  | [] => 0
  | [e] => if e.1 = k then e.2 else 0
  | e₁ :: e₂ :: rest =>
    have hmid : (e₁ :: e₂ :: rest).length / 2 < (e₁ :: e₂ :: rest).length :=
      Nat.div_lt_self (by simp) (by decide)
    let mid := (e₁ :: e₂ :: rest).length / 2
    let e := (e₁ :: e₂ :: rest).get ⟨mid, hmid⟩
    if k < e.1 then binaryLookup k ((e₁ :: e₂ :: rest).take mid)
    else if k = e.1 then e.2
    else binaryLookup k ((e₁ :: e₂ :: rest).drop (mid + 1))
termination_by l.length
decreasing_by
  all_goals simp only [List.length_take, List.length_drop, List.length_cons]
  all_goals omega

theorem lookup_append_of_not_mem_right {k : κ} {l₁ l₂ : List (κ × V)}
    (h : ∀ e ∈ l₂, e.1 ≠ k) : lookup k (l₁ ++ l₂) = lookup k l₁ := by
  induction l₁ with
  | nil => exact lookup_eq_zero h
  | cons e l ih => rw [List.cons_append, lookup_cons, lookup_cons, ih]

theorem lookup_append_of_not_mem_left {k : κ} {l₁ l₂ : List (κ × V)}
    (h : ∀ e ∈ l₁, e.1 ≠ k) : lookup k (l₁ ++ l₂) = lookup k l₂ := by
  induction l₁ with
  | nil => rfl
  | cons e l ih =>
    rw [List.cons_append, lookup_cons, if_neg (h e List.mem_cons_self)]
    exact ih (fun f hf => h f (List.mem_cons_of_mem e hf))

omit [Zero V] in
/-- **A sorted list split at an entry**: the entries before it have smaller
keys, and it heads a sorted list of the entries after it. -/
theorem Sorted.split {l : List (κ × V)} (hs : Sorted l) {m : ℕ} (h : m < l.length) :
    l = l.take m ++ l.get ⟨m, h⟩ :: l.drop (m + 1) ∧ Sorted (l.take m) ∧
      Sorted (l.get ⟨m, h⟩ :: l.drop (m + 1)) ∧ ∀ f ∈ l.take m, f.1 < (l.get ⟨m, h⟩).1 := by
  have heq : l = l.take m ++ l.get ⟨m, h⟩ :: l.drop (m + 1) := by
    rw [List.get_eq_getElem, ← List.drop_eq_getElem_cons h, List.take_append_drop]
  have hs' : Sorted (l.take m ++ l.get ⟨m, h⟩ :: l.drop (m + 1)) := heq ▸ hs
  obtain ⟨htake, hdrop, hlt⟩ := List.pairwise_append.mp hs'
  exact ⟨heq, htake, hdrop, fun f hf => hlt f hf _ List.mem_cons_self⟩

/-- **Binary search agrees with the linear reading on sorted lists.** -/
theorem binaryLookup_eq_lookup (k : κ) (l : List (κ × V)) (hs : Sorted l) :
    binaryLookup k l = lookup k l := by
  fun_induction binaryLookup k l with
  | case1 => rfl
  | case2 e h => rw [lookup_cons, if_pos h]
  | case3 e h => rw [lookup_cons, if_neg h, lookup_nil]
  | case4 e₁ e₂ rest hmid mid e hk ih =>
    -- the key lies below the middle entry: only the left half can hold it
    obtain ⟨heq, htake, hdrop, -⟩ := hs.split hmid
    have hright : ∀ f ∈ e :: (e₁ :: e₂ :: rest).drop (mid + 1), f.1 ≠ k := by
      intro f hf
      rcases List.mem_cons.mp hf with rfl | hf
      · exact ne_of_gt hk
      · exact ne_of_gt (lt_trans hk (hdrop.head_lt hf))
    calc binaryLookup k ((e₁ :: e₂ :: rest).take mid)
        = lookup k ((e₁ :: e₂ :: rest).take mid) := ih htake
      _ = lookup k ((e₁ :: e₂ :: rest).take mid ++ e :: (e₁ :: e₂ :: rest).drop (mid + 1)) :=
        (lookup_append_of_not_mem_right hright).symm
      _ = lookup k (e₁ :: e₂ :: rest) := congrArg (lookup k) heq.symm
  | case5 e₁ e₂ rest hmid mid e hk hk' =>
    -- the key is the middle entry's
    rw [hk']
    exact (lookup_of_mem hs (List.get_mem _ _)).symm
  | case6 e₁ e₂ rest hmid mid e hk hk' ih =>
    -- the key lies above the middle entry: only the right half can hold it
    have hek : e.1 < k := lt_of_le_of_ne (not_lt.mp hk) (Ne.symm hk')
    obtain ⟨heq, -, hdrop, hlt⟩ := hs.split hmid
    have hleft : ∀ f ∈ (e₁ :: e₂ :: rest).take mid, f.1 ≠ k :=
      fun f hf => ne_of_lt (lt_trans (hlt f hf) hek)
    calc binaryLookup k ((e₁ :: e₂ :: rest).drop (mid + 1))
        = lookup k ((e₁ :: e₂ :: rest).drop (mid + 1)) := ih hdrop.tail
      _ = lookup k (e :: (e₁ :: e₂ :: rest).drop (mid + 1)) := by
        rw [lookup_cons, if_neg (ne_of_lt hek)]
      _ = lookup k ((e₁ :: e₂ :: rest).take mid ++ e :: (e₁ :: e₂ :: rest).drop (mid + 1)) :=
        (lookup_append_of_not_mem_left hleft).symm
      _ = lookup k (e₁ :: e₂ :: rest) := congrArg (lookup k) heq.symm

end lookup

/-- The keys of a list, in order. -/
def keys (l : List (κ × V)) : List κ := l.map Prod.fst

omit [LinearOrder κ] in
theorem mem_keys {k : κ} {l : List (κ × V)} : k ∈ keys l ↔ ∃ e ∈ l, e.1 = k := by
  simp [keys]

omit [LinearOrder κ] in
theorem mem_keys_of_mem {e : κ × V} {l : List (κ × V)} (h : e ∈ l) : e.1 ∈ keys l :=
  mem_keys.mpr ⟨e, h, rfl⟩

/-- Every key of a sorted list lies at or above its head. -/
theorem Sorted.head_le_of_mem_keys {e : κ × V} {l : List (κ × V)} (hs : Sorted (e :: l))
    {k : κ} (hk : k ∈ keys (e :: l)) : e.1 ≤ k := by
  obtain ⟨f, hf, rfl⟩ := mem_keys.mp hk
  rcases List.mem_cons.mp hf with rfl | hf
  · exact le_rfl
  · exact le_of_lt (hs.head_lt hf)

section merge

variable [AddCommMonoid V] [DecidableEq V]

/-- The entry itself, unless its amount is zero. -/
def keepNonzero (e : κ × V) : List (κ × V) := if e.2 = 0 then [] else [e]

/-- The entries with a nonzero amount. -/
def dropZero (l : List (κ × V)) : List (κ × V) := l.filter (fun e => e.2 ≠ 0)

/-- One column of the merge: the left head `(a, x)` waits, with the rest
`xs` of the left list, while the right list is walked. `rest` is the merge
of `xs` with what remains on the right. -/
def mergeStep (a : κ) (x : V) (xs : List (κ × V)) (rest : List (κ × V) → List (κ × V)) :
    List (κ × V) → List (κ × V)
  | [] => dropZero ((a, x) :: xs)
  | (b, y) :: ys =>
    if a < b then keepNonzero (a, x) ++ rest ((b, y) :: ys)
    else if a = b then keepNonzero (a, x + y) ++ rest ys
    else keepNonzero (b, y) ++ mergeStep a x xs rest ys

/-- **The merging sum of two key-sorted lists.** -/
def mergeAdd : List (κ × V) → List (κ × V) → List (κ × V)
  | [], ys => dropZero ys
  | (a, x) :: xs, ys => mergeStep a x xs (mergeAdd xs) ys

omit [LinearOrder κ] in
theorem mem_keepNonzero {e f : κ × V} (h : f ∈ keepNonzero e) : f = e := by
  unfold keepNonzero at h
  split at h
  · cases h
  · exact List.mem_singleton.mp h

omit [LinearOrder κ] in
theorem mem_dropZero {e : κ × V} {l : List (κ × V)} :
    e ∈ dropZero l ↔ e ∈ l ∧ e.2 ≠ 0 := by
  simp [dropZero]

omit [LinearOrder κ] in
theorem noZero_keepNonzero (e : κ × V) : NoZero (keepNonzero e) := by
  intro f hf
  unfold keepNonzero at hf
  split at hf
  · cases hf
  · rw [List.mem_singleton.mp hf]
    assumption

omit [LinearOrder κ] in
theorem noZero_dropZero (l : List (κ × V)) : NoZero (dropZero l) :=
  fun _ he => (mem_dropZero.mp he).2

omit [LinearOrder κ] [DecidableEq V] in
theorem noZero_append {l₁ l₂ : List (κ × V)} (h₁ : NoZero l₁) (h₂ : NoZero l₂) :
    NoZero (l₁ ++ l₂) := by
  intro e he
  rcases List.mem_append.mp he with he | he
  · exact h₁ e he
  · exact h₂ e he

/-- Reading a kept entry in front of larger keys. -/
theorem lookup_keepNonzero_append {k a : κ} {v : V} {l : List (κ × V)}
    (hl : ∀ f ∈ l, a < f.1) :
    lookup k (keepNonzero (a, v) ++ l) = if a = k then v else lookup k l := by
  unfold keepNonzero
  by_cases hv : v = 0
  · rw [if_pos hv, List.nil_append]
    by_cases hak : a = k
    · rw [if_pos hak, hv]
      exact lookup_eq_zero (fun f hf => ne_of_gt (hak ▸ hl f hf))
    · rw [if_neg hak]
  · rw [if_neg hv, List.singleton_append, lookup_cons]

theorem lookup_dropZero {k : κ} {l : List (κ × V)} (hs : Sorted l) :
    lookup k (dropZero l) = lookup k l := by
  induction l with
  | nil => rfl
  | cons e l ih =>
    have hrest : ∀ f ∈ dropZero l, e.1 < f.1 :=
      fun f hf => hs.head_lt (mem_dropZero.mp hf).1
    have hdrop : dropZero (e :: l) = keepNonzero e ++ dropZero l := by
      unfold dropZero keepNonzero
      by_cases he : e.2 = 0 <;> simp [he]
    rw [hdrop, lookup_keepNonzero_append hrest, ih hs.tail, lookup_cons]


/-! ## What the merge keeps: keys, sortedness, no zero entry -/

omit [AddCommMonoid V] [DecidableEq V] in
/-- Every key of the tail of a sorted list lies above its head. -/
theorem Sorted.head_lt_of_mem_keys {e : κ × V} {l : List (κ × V)} (hs : Sorted (e :: l))
    {k : κ} (hk : k ∈ keys l) : e.1 < k := by
  obtain ⟨f, hf, rfl⟩ := mem_keys.mp hk
  exact hs.head_lt hf

/-- One column of the merge invents no key, provided the merge of the
rest invents none. -/
theorem keys_mergeStep {a : κ} {x : V} {xs : List (κ × V)}
    (hrest : ∀ zs e, e ∈ mergeAdd xs zs → e.1 ∈ keys xs ∨ e.1 ∈ keys zs) :
    ∀ (ys : List (κ × V)) (e : κ × V), e ∈ mergeStep a x xs (mergeAdd xs) ys →
      e.1 ∈ keys ((a, x) :: xs) ∨ e.1 ∈ keys ys
  | [], e, he => Or.inl (mem_keys_of_mem (mem_dropZero.mp he).1)
  | (b, y) :: ys, e, he => by
    simp only [mergeStep] at he
    split_ifs at he
    · -- the left head goes first
      rcases List.mem_append.mp he with he | he
      · exact Or.inl (by rw [mem_keepNonzero he]; exact List.mem_cons_self)
      · exact (hrest _ e he).imp (List.mem_cons_of_mem _) id
    · -- one key on both sides
      rcases List.mem_append.mp he with he | he
      · exact Or.inl (by rw [mem_keepNonzero he]; exact List.mem_cons_self)
      · exact (hrest _ e he).imp (List.mem_cons_of_mem _) (List.mem_cons_of_mem _)
    · -- the right head goes first
      rcases List.mem_append.mp he with he | he
      · exact Or.inr (by rw [mem_keepNonzero he]; exact List.mem_cons_self)
      · exact (keys_mergeStep hrest ys e he).imp id (List.mem_cons_of_mem _)

/-- The merge invents no key. -/
theorem keys_mergeAdd : ∀ (xs ys : List (κ × V)) (e : κ × V), e ∈ mergeAdd xs ys →
    e.1 ∈ keys xs ∨ e.1 ∈ keys ys
  | [], _, _, he => Or.inr (mem_keys_of_mem (mem_dropZero.mp he).1)
  | (_, _) :: xs, ys, e, he => keys_mergeStep (keys_mergeAdd xs) ys e he

/-- The merge leaves no zero entry. -/
theorem noZero_mergeAdd : ∀ xs ys : List (κ × V), NoZero (mergeAdd xs ys)
  | [], ys => noZero_dropZero ys
  | (a, x) :: xs, ys => by
    induction ys with
    | nil => exact noZero_dropZero _
    | cons f ys ih =>
      obtain ⟨b, y⟩ := f
      simp only [mergeAdd, mergeStep] at ih ⊢
      split_ifs
      · exact noZero_append (noZero_keepNonzero _) (noZero_mergeAdd xs _)
      · exact noZero_append (noZero_keepNonzero _) (noZero_mergeAdd xs _)
      · exact noZero_append (noZero_keepNonzero _) ih

/-- A kept entry in front of larger keys keeps a list sorted. -/
theorem sorted_keepNonzero_append {e : κ × V} {l : List (κ × V)} (hl : Sorted l)
    (he : ∀ f ∈ l, e.1 < f.1) : Sorted (keepNonzero e ++ l) := by
  unfold keepNonzero
  split
  · exact hl
  · exact sorted_cons.mpr ⟨he, hl⟩

theorem Sorted.dropZero {l : List (κ × V)} (hs : Sorted l) : Sorted (dropZero l) :=
  List.Pairwise.filter _ hs

/-- **The merge of sorted lists is sorted.** -/
theorem sorted_mergeAdd : ∀ {xs ys : List (κ × V)}, Sorted xs → Sorted ys →
    Sorted (mergeAdd xs ys)
  | [], _, _, hy => hy.dropZero
  | (a, x) :: xs, ys, hx, hy => by
    induction ys with
    | nil => exact hx.dropZero
    | cons f ys ih =>
      obtain ⟨b, y⟩ := f
      simp only [mergeAdd, mergeStep] at ih ⊢
      split_ifs with hab heq
      · -- everything after the left head comes from `xs` or is at least `b`
        refine sorted_keepNonzero_append (sorted_mergeAdd hx.tail hy) (fun f hf => ?_)
        rcases keys_mergeAdd xs _ f hf with h | h
        · exact hx.head_lt_of_mem_keys h
        · exact lt_of_lt_of_le hab (hy.head_le_of_mem_keys h)
      · refine sorted_keepNonzero_append (sorted_mergeAdd hx.tail hy.tail) (fun f hf => ?_)
        rcases keys_mergeAdd xs _ f hf with h | h
        · exact hx.head_lt_of_mem_keys h
        · exact heq ▸ hy.head_lt_of_mem_keys h
      · -- the right head is below `a` and below the rest of the right list
        have hba : b < a := lt_of_le_of_ne (not_lt.mp hab) (Ne.symm heq)
        refine sorted_keepNonzero_append (ih hy.tail) (fun f hf => ?_)
        rcases keys_mergeStep (keys_mergeAdd xs) ys f hf with h | h
        · exact lt_of_lt_of_le hba (hx.head_le_of_mem_keys h)
        · exact hy.head_lt_of_mem_keys h

/-! ## The amount read at a key is additive -/

/-- One column of the merge adds the amounts, provided the merge of the
rest does. -/
theorem lookup_mergeStep {k a : κ} {x : V} {xs : List (κ × V)} (hx : Sorted ((a, x) :: xs))
    (hrest : ∀ zs, Sorted zs → lookup k (mergeAdd xs zs) = lookup k xs + lookup k zs) :
    ∀ {ys : List (κ × V)}, Sorted ys →
      lookup k (mergeStep a x xs (mergeAdd xs) ys) = lookup k ((a, x) :: xs) + lookup k ys
  | [], _ => by
    rw [mergeStep, lookup_dropZero hx, lookup_nil, add_zero]
  | (b, y) :: ys, hy => by
    simp only [mergeStep]
    split_ifs with hab heq
    · -- `a < b`: the left head is read first, and `b` reads nothing below it
      rw [lookup_keepNonzero_append (fun f hf => ?_), hrest _ hy, lookup_cons k (a, x)]
      · by_cases hak : a = k
        · rw [if_pos hak, if_pos hak, lookup_eq_zero_of_lt hy (hak ▸ hab), add_zero]
        · rw [if_neg hak, if_neg hak]
      · rcases keys_mergeAdd xs _ f hf with h | h
        · exact hx.head_lt_of_mem_keys h
        · exact lt_of_lt_of_le hab (hy.head_le_of_mem_keys h)
    · -- `a = b`: the two amounts are added under one key
      subst heq
      rw [lookup_keepNonzero_append (fun f hf => ?_), hrest _ hy.tail, lookup_cons k (a, x),
        lookup_cons k (a, y)]
      · by_cases hak : a = k
        · rw [if_pos hak, if_pos hak, if_pos hak]
        · rw [if_neg hak, if_neg hak, if_neg hak]
      · rcases keys_mergeAdd xs _ f hf with h | h
        · exact hx.head_lt_of_mem_keys h
        · exact hy.head_lt_of_mem_keys h
    · -- `b < a`: the right head is read first, and `a` reads nothing below it
      have hba : b < a := lt_of_le_of_ne (not_lt.mp hab) (Ne.symm heq)
      rw [lookup_keepNonzero_append (fun f hf => ?_), lookup_mergeStep hx hrest hy.tail,
        lookup_cons k (b, y)]
      · by_cases hbk : b = k
        · rw [if_pos hbk, if_pos hbk, lookup_eq_zero_of_lt hx (hbk ▸ hba), zero_add]
        · rw [if_neg hbk, if_neg hbk]
      · rcases keys_mergeStep (keys_mergeAdd xs) ys f hf with h | h
        · exact lt_of_lt_of_le hba (hx.head_le_of_mem_keys h)
        · exact hy.head_lt_of_mem_keys h

/-- **On sorted lists the merge adds the amounts of every key.** -/
theorem lookup_mergeAdd (k : κ) : ∀ {xs ys : List (κ × V)}, Sorted xs → Sorted ys →
    lookup k (mergeAdd xs ys) = lookup k xs + lookup k ys
  | [], _, _, hy => by rw [mergeAdd, lookup_dropZero hy, lookup_nil, zero_add]
  | (_, _) :: xs, _, hx, hy =>
    lookup_mergeStep hx (fun _ hz => lookup_mergeAdd k hx.tail hz) hy

end merge

section group

variable [AddCommGroup V] [DecidableEq V]

/-- Every amount negated. -/
def negate (l : List (κ × V)) : List (κ × V) := l.map (fun e => (e.1, -e.2))

omit [DecidableEq V] in
@[simp] theorem lookup_negate (k : κ) (l : List (κ × V)) :
    lookup k (negate l) = -lookup k l := by
  induction l with
  | nil => simp [negate]
  | cons e l ih =>
    simp only [negate, List.map_cons, lookup_cons] at ih ⊢
    split_ifs
    · rfl
    · exact ih

omit [DecidableEq V] in
theorem Sorted.negate {l : List (κ × V)} (hs : Sorted l) : Sorted (negate l) :=
  List.pairwise_map.mpr hs

/-- **On sorted lists, merging with the negation subtracts.** -/
theorem lookup_mergeAdd_negate (k : κ) {xs ys : List (κ × V)} (hx : Sorted xs)
    (hy : Sorted ys) :
    lookup k (mergeAdd xs (negate ys)) = lookup k xs - lookup k ys := by
  rw [lookup_mergeAdd k hx hy.negate, lookup_negate, sub_eq_add_neg]

end group

/-- Some entry carries a negative amount. -/
def anyNegative [Zero V] [LT V] [DecidableRel (α := V) (· < ·)] (l : List (κ × V)) : Bool :=
  l.any (fun e => decide (e.2 < 0))

section order

variable [Zero V] [Preorder V] [DecidableRel (α := V) (· < ·)]

/-- **On a sorted list, some entry is negative exactly when some key reads
a negative amount.** -/
theorem anyNegative_iff {l : List (κ × V)} (hs : Sorted l) :
    anyNegative l = true ↔ ∃ k, lookup k l < 0 := by
  unfold anyNegative
  rw [List.any_eq_true]
  constructor
  · rintro ⟨e, he, hneg⟩
    refine ⟨e.1, ?_⟩
    rw [lookup_of_mem hs (show (e.1, e.2) ∈ l from he)]
    exact of_decide_eq_true hneg
  · rintro ⟨k, hk⟩
    obtain ⟨e, he, -, hv⟩ := exists_mem_of_lookup_ne_zero (ne_of_lt hk)
    exact ⟨e, he, decide_eq_true (hv ▸ hk)⟩

end order

end SortedMerge
