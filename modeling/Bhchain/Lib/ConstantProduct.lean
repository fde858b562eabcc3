import Mathlib

/-!
# Constant-product pools

A constant-product pool holds two reserves `x` and `y` and has issued `t`
shares of them. What one share is worth is `x · y / t²`, the square of the
geometric mean of the reserves behind it (`valuePerShare`). Three kinds of
call move it.

* A **swap** puts `a` of one token into its reserve `x` and pays `out` of
  the other out of `y`, at most what keeps the product: `out · (x + a) ≤
  a · y`. A fee `f` kept in the input reserve only adds to the product
  (`mul_le_mul_swap`), and the output reserve is never emptied
  (`le_of_swap`, `lt_of_swap`).
* A **deposit** issues shares for reserves added, a **withdrawal** pays out
  reserves for shares burned. Neither lowers the value of a share when the
  shares move by no more than each reserve, in proportion: `t' · x ≤ t · x'`
  and `t' · y ≤ t · y'` (`mul_mul_sq_le_of_scaled`), which a deposit or a
  withdrawal of no more than its part of each reserve satisfies
  (`scaled_of_deposit`, `scaled_of_withdraw`).

The value is compared in the cross-multiplied form `x · y · t'² ≤ x' · y' ·
t²`, which needs no division and chains through any state with shares
(`mul_mul_sq_le_trans`); over a field it is the comparison of the two
values (`valuePerShare_le_iff`). A pool that computes with truncating
integer arithmetic keeps these bounds when every rounding goes the pool's
way.
-/

namespace ConstantProduct

section ring

variable {α : Type*} [CommRing α] [LinearOrder α] [IsStrictOrderedRing α]

/-- **A swap within the curve keeps the product of the reserves**, and a
fee kept in the input reserve only adds to it. -/
theorem mul_le_mul_swap {x y a f out : α} (hf : 0 ≤ f) (hout : out * (x + a) ≤ a * y)
    (hle : out ≤ y) : x * y ≤ (x + a + f) * (y - out) := by
  have hfee : 0 ≤ f * (y - out) := mul_nonneg hf (sub_nonneg.mpr hle)
  calc x * y = (x + a) * y - a * y := by ring
    _ ≤ (x + a) * y - out * (x + a) := by linarith
    _ = (x + a) * (y - out) := by ring
    _ ≤ (x + a) * (y - out) + f * (y - out) := le_add_of_nonneg_right hfee
    _ = (x + a + f) * (y - out) := by ring

/-- A swap within the curve pays out no more than the output reserve. -/
theorem le_of_swap {x y a out : α} (hx : 0 ≤ x) (hy : 0 ≤ y) (hxa : 0 < x + a)
    (hout : out * (x + a) ≤ a * y) : out ≤ y := by
  have h : out * (x + a) ≤ y * (x + a) :=
    calc out * (x + a) ≤ a * y := hout
      _ ≤ a * y + x * y := le_add_of_nonneg_right (mul_nonneg hx hy)
      _ = y * (x + a) := by ring
  exact le_of_mul_le_mul_right h hxa

/-- **A swap from positive reserves leaves the output reserve positive.** -/
theorem lt_of_swap {x y a out : α} (hx : 0 < x) (hy : 0 < y) (ha : 0 ≤ a)
    (hout : out * (x + a) ≤ a * y) : out < y := by
  have h : out * (x + a) < y * (x + a) :=
    calc out * (x + a) ≤ a * y := hout
      _ < a * y + x * y := lt_add_of_pos_right _ (mul_pos hx hy)
      _ = y * (x + a) := by ring
  exact lt_of_mul_lt_mul_right h (add_nonneg hx.le ha)

/-- **Deposits and withdrawals**: when the shares move by no more than each
reserve, in proportion, the value of a share does not go down. -/
theorem mul_mul_sq_le_of_scaled {x y t x' y' t' : α} (hx : 0 ≤ x) (hy : 0 ≤ y) (ht' : 0 ≤ t')
    (hxs : t' * x ≤ t * x') (hys : t' * y ≤ t * y') : x * y * t' ^ 2 ≤ x' * y' * t ^ 2 := by
  have hx' : 0 ≤ t * x' := (mul_nonneg ht' hx).trans hxs
  calc x * y * t' ^ 2 = (t' * x) * (t' * y) := by ring
    _ ≤ (t * x') * (t * y') := mul_le_mul hxs hys (mul_nonneg ht' hy) hx'
    _ = x' * y' * t ^ 2 := by ring

/-- **A deposit in proportion**: `l` shares issued for `n` added to a
reserve `x` of `t` shares, no more than its part (`l · x ≤ n · t`), scale
the shares by no more than the reserve. -/
theorem scaled_of_deposit {x t n l : α} (hl : l * x ≤ n * t) : (t + l) * x ≤ t * (x + n) :=
  calc (t + l) * x = t * x + l * x := by ring
    _ ≤ t * x + n * t := add_le_add_right hl _
    _ = t * (x + n) := by ring

/-- **A withdrawal in proportion**: `r` of a reserve `x` paid out for `l` of
`t` shares, no more than their part (`r · t ≤ l · x`), scales the shares
by no more than the reserve. -/
theorem scaled_of_withdraw {x t l r : α} (hr : r * t ≤ l * x) : (t - l) * x ≤ t * (x - r) :=
  calc (t - l) * x = t * x - l * x := by ring
    _ ≤ t * x - r * t := sub_le_sub_left hr _
    _ = t * (x - r) := by ring

/-- A withdrawal of fewer shares than there are, paying out at most its
part of a positive reserve, leaves the reserve positive. -/
theorem sub_pos_of_withdraw {x t l r : α} (hx : 0 < x) (ht : 0 ≤ t) (hl : l < t)
    (hr : r * t ≤ l * x) : 0 < x - r := by
  have h : r * t < x * t :=
    calc r * t ≤ l * x := hr
      _ < t * x := mul_lt_mul_of_pos_right hl hx
      _ = x * t := mul_comm t x
  exact sub_pos.mpr (lt_of_mul_lt_mul_right h ht)

/-- **The value of a share only goes up along two changes**, through a
middle state that has shares. -/
theorem mul_mul_sq_le_trans {x y t x' y' t' x'' y'' t'' : α} (ht' : 0 < t')
    (h₁ : x * y * t' ^ 2 ≤ x' * y' * t ^ 2) (h₂ : x' * y' * t'' ^ 2 ≤ x'' * y'' * t' ^ 2) :
    x * y * t'' ^ 2 ≤ x'' * y'' * t ^ 2 := by
  -- both sides times the middle shares squared
  have h : (x * y * t'' ^ 2) * t' ^ 2 ≤ (x'' * y'' * t ^ 2) * t' ^ 2 :=
    calc (x * y * t'' ^ 2) * t' ^ 2 = (x * y * t' ^ 2) * t'' ^ 2 := by ring
      _ ≤ (x' * y' * t ^ 2) * t'' ^ 2 := mul_le_mul_of_nonneg_right h₁ (sq_nonneg _)
      _ = (x' * y' * t'' ^ 2) * t ^ 2 := by ring
      _ ≤ (x'' * y'' * t' ^ 2) * t ^ 2 := mul_le_mul_of_nonneg_right h₂ (sq_nonneg _)
      _ = (x'' * y'' * t ^ 2) * t' ^ 2 := by ring
  exact le_of_mul_le_mul_right h (pow_pos ht' 2)

end ring

section field

variable {α : Type*} [Field α] [LinearOrder α] [IsStrictOrderedRing α]

/-- **The value of a share**: the product of the reserves over the square
of the shares. -/
def valuePerShare (x y t : α) : α := x * y / t ^ 2

/-- Between two states with shares, the value of a share is compared by
cross-multiplying. -/
theorem valuePerShare_le_iff {x y t x' y' t' : α} (ht : 0 < t) (ht' : 0 < t') :
    valuePerShare x y t ≤ valuePerShare x' y' t' ↔ x * y * t' ^ 2 ≤ x' * y' * t ^ 2 := by
  unfold valuePerShare
  exact div_le_div_iff₀ (pow_pos ht 2) (pow_pos ht' 2)

end field

section int

/-- **The output of a swap grows with its input**, rounded down: `x · y /
(x + r)` for an input `x` against reserves `y` out and `r` in. -/
theorem ediv_le_ediv_of_input_le {x x' y r : ℤ} (hx : 0 ≤ x) (hxx' : x ≤ x') (hy : 0 ≤ y)
    (hr : 0 < r) : x * y / (x + r) ≤ x' * y / (x' + r) := by
  have hd : 0 < x + r := by omega
  rw [Int.le_ediv_iff_mul_le (by omega)]
  -- the output for `x` is at most the reserve, and at most `x · y` times `x + r`
  have hq := Int.ediv_mul_le (x * y) hd.ne'
  have hqy : x * y / (x + r) ≤ y := by
    refine Int.ediv_le_of_le_mul hd ?_
    calc x * y ≤ x * y + y * r := le_add_of_nonneg_right (mul_nonneg hy hr.le)
      _ = y * (x + r) := by ring
  calc x * y / (x + r) * (x' + r) = x * y / (x + r) * (x + r) + x * y / (x + r) * (x' - x) := by
        ring
    _ ≤ x * y + y * (x' - x) := add_le_add hq (mul_le_mul_of_nonneg_right hqy (by omega))
    _ = x' * y := by ring

end int

end ConstantProduct
