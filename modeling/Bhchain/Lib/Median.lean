import Mathlib

/-!
# The middles of a sorted list

A list of `n` elements sorted upwards has two middle elements, at the
positions `(n - 1) / 2` and `n / 2` (the same one when `n` is odd). Any
interval that holds more than half of the elements holds both middles:
were the lower middle below the interval, the elements up to it, which are
at least half of the list, would all be below it too, and likewise above.
A median computed from the middles therefore cannot be moved outside such
an interval by the other elements, whatever they are.

Two integer facts go with it: the midpoint of two integers, halved toward
zero, lies between them, and the average of integers that lie between two
bounds, at least one of them nonnegative, stays between the bounds when it
is truncated toward zero.
-/

namespace List

variable {α : Type} [LinearOrder α]

omit [LinearOrder α] in
/-- Two predicates that never hold together count at most the list. -/
theorem countP_add_countP_le_length {p q : α → Bool} (h : ∀ x, ¬(p x = true ∧ q x = true)) :
    ∀ l : List α, l.countP p + l.countP q ≤ l.length
  | [] => le_rfl
  | x :: l => by
    have ih := countP_add_countP_le_length h l
    have hx := h x
    simp only [countP_cons, length_cons]
    split <;> split <;> simp_all <;> omega

/-- In a sorted list, the elements up to one below `lo` are below `lo`. -/
theorem succ_le_countP_lt {s : List α} (hs : s.Pairwise (· ≤ ·)) {i : ℕ} (hi : i < s.length)
    {lo : α} (h : s[i] < lo) : i + 1 ≤ s.countP (fun x => decide (x < lo)) := by
  -- the first `i + 1` elements are at most `s[i]`
  have htake : (s.take (i + 1)).countP (fun x => decide (x < lo)) = i + 1 := by
    rw [countP_eq_length.mpr, length_take]
    · omega
    · intro x hx
      obtain ⟨j, hj, rfl⟩ := getElem_of_mem hx
      rw [length_take] at hj
      rw [getElem_take]
      have hji : j ≤ i := by omega
      rcases Nat.lt_or_eq_of_le hji with hlt | heq
      · exact decide_eq_true (lt_of_le_of_lt (pairwise_iff_getElem.mp hs j i (by omega) hi hlt) h)
      · subst heq
        exact decide_eq_true h
  calc i + 1 = (s.take (i + 1)).countP (fun x => decide (x < lo)) := htake.symm
    _ ≤ s.countP (fun x => decide (x < lo)) := (take_sublist _ _).countP_le

/-- In a sorted list, the elements from one above `hi` on are above `hi`. -/
theorem length_sub_le_countP_gt {s : List α} (hs : s.Pairwise (· ≤ ·)) {i : ℕ}
    (hi : i < s.length) {top : α} (h : top < s[i]) :
    s.length - i ≤ s.countP (fun x => decide (top < x)) := by
  -- the elements from position `i` on are at least `s[i]`
  have hdrop : (s.drop i).countP (fun x => decide (top < x)) = s.length - i := by
    rw [countP_eq_length.mpr, length_drop]
    intro x hx
    obtain ⟨j, hj, rfl⟩ := getElem_of_mem hx
    rw [length_drop] at hj
    rw [getElem_drop]
    rcases Nat.eq_zero_or_pos j with hj0 | hjpos
    · subst hj0
      simpa using h
    · exact decide_eq_true (lt_of_lt_of_le h (pairwise_iff_getElem.mp hs i (i + j) hi (by omega)
        (by omega)))
  calc s.length - i = (s.drop i).countP (fun x => decide (top < x)) := hdrop.symm
    _ ≤ s.countP (fun x => decide (top < x)) := (drop_sublist _ _).countP_le

/-- **The middles of a sorted list lie in every interval holding more
than half of it.** -/
theorem middles_mem_of_majority {s : List α} (hs : s.Pairwise (· ≤ ·)) {lo top : α}
    (hmaj : s.length < 2 * s.countP (fun x => decide (lo ≤ x ∧ x ≤ top))) :
    ∃ (hlo : (s.length - 1) / 2 < s.length) (htop : s.length / 2 < s.length),
      lo ≤ s[(s.length - 1) / 2] ∧ s[s.length / 2] ≤ top := by
  have hpos : 0 < s.length := by
    have := countP_le_length (p := fun x => decide (lo ≤ x ∧ x ≤ top)) (l := s)
    omega
  refine ⟨by omega, by omega, ?_, ?_⟩
  · -- below the interval: half of the list at least would be outside it
    by_contra hlt
    have hbelow := succ_le_countP_lt hs (by omega) (not_le.mp hlt)
    have hdisj := countP_add_countP_le_length (p := fun x => decide (lo ≤ x ∧ x ≤ top))
      (q := fun x => decide (x < lo)) (fun x ⟨h₁, h₂⟩ => by simp at h₁ h₂; exact absurd h₁.1 (not_le.mpr h₂)) s
    omega
  · by_contra hgt
    have habove := length_sub_le_countP_gt hs (by omega) (not_le.mp hgt)
    have hdisj := countP_add_countP_le_length (p := fun x => decide (lo ≤ x ∧ x ≤ top))
      (q := fun x => decide (top < x)) (fun x ⟨h₁, h₂⟩ => by simp at h₁ h₂; exact absurd h₁.2 (not_le.mpr h₂)) s
    omega

end List

namespace Int

/-- Halving toward zero keeps the midpoint of `a ≤ b` between them. -/
theorem le_add_tdiv_two_le {a b : ℤ} (hab : a ≤ b) : a ≤ (a + b).tdiv 2 ∧ (a + b).tdiv 2 ≤ b := by
  rcases le_or_gt 0 (a + b) with hnn | hneg
  · rw [tdiv_eq_ediv_of_nonneg hnn]
    omega
  · -- a negative sum is halved as its opposite, then negated
    have hopp := Int.neg_tdiv (-(a + b)) 2
    rw [Int.neg_neg, tdiv_eq_ediv_of_nonneg (a := -(a + b)) (by omega)] at hopp
    omega

/-- **The truncated average of a nonempty list of integers between `lo ≥ 0`
and `hi` lies between them.** -/
theorem le_sum_tdiv_length_le {xs : List ℤ} (hne : xs ≠ []) {lo hi : ℤ} (hlo : 0 ≤ lo)
    (hmem : ∀ x ∈ xs, lo ≤ x ∧ x ≤ hi) :
    lo ≤ xs.sum.tdiv xs.length ∧ xs.sum.tdiv xs.length ≤ hi := by
  have hlen : (0 : ℤ) < xs.length := by
    have := List.length_pos_iff.mpr hne
    omega
  -- every element is bounded, hence so is the sum by the count
  have hge : xs.length • lo ≤ xs.sum := List.card_nsmul_le_sum xs lo (fun x hx => (hmem x hx).1)
  have hle : xs.sum ≤ xs.length • hi := List.sum_le_card_nsmul xs hi (fun x hx => (hmem x hx).2)
  rw [Int.nsmul_eq_mul] at hge hle
  have hsum : 0 ≤ xs.sum := le_trans (Int.mul_nonneg (by omega) hlo) hge
  rw [tdiv_eq_ediv_of_nonneg hsum]
  constructor
  · exact Int.le_ediv_of_mul_le hlen (by rw [Int.mul_comm]; exact hge)
  · exact Int.ediv_le_of_le_mul hlen (by rw [Int.mul_comm]; exact hle)

end Int
