import Mathlib.Algebra.Order.Ring.Int
import Mathlib.Data.Int.Init
import Mathlib.Tactic.Ring
import Bhchain.Types.Errors

/-!
# Fixed-point decimals (`types/decimal.go`)

An `sdk.Dec` is an integer read with eighteen decimal places. Addition and
subtraction are exact; a product or a quotient is brought back to
eighteen places by *banker's rounding* (`chopPrecisionAndRound`: half
away goes to the even neighbour); `TruncateInt` drops the decimals,
rounding toward zero as `big.Int.Quo` does.

Two facts about these operations carry the fee arithmetic of the swap
module. Multiplying a whole number by a rate is exact, because the whole
number's eighteen zeros absorb the rounding (`ofInt_mul`); and truncating
a nonnegative product of a whole number and a rate in `[0, 1]` gives a
nonnegative whole number no larger than the product
(`truncateInt_mul_bounds`). A quotient, on the other hand, may round up,
by half a unit of the eighteenth place at most (`quoNonzero_bounds`); the mining
masks of the swap module multiply that half unit by a pair's liquidity.

`Quo` by zero panics in `big.Int.Quo`, and `quo` returns that panic. Where
the caller has just checked the divisor, as `Price` and `onMining` do, it
takes the quotient with `quoNonzero`, whose argument is the check. The
overflow panics of `Dec` (results wider than 315 bits) are left out.
-/

namespace Sdk

/-- `Precision`: the number of decimal places. -/
def precision : ℕ := 18

/-- `10^Precision`, the integer that stands for `1`. -/
def precisionInt : ℤ := 10 ^ precision

/-- Half of `precisionInt`: the remainder at which rounding ties. -/
def fivePrecision : ℤ := precisionInt / 2

/-- **`sdk.Dec`**: the integer `val` read as `val / 10^18`. -/
structure Dec where
  val : ℤ
  deriving DecidableEq, Repr

/-- Banker's rounding of a nonnegative integer to a multiple of
`precisionInt`, returned divided by it. -/
def roundHalfEven (d : ℤ) : ℤ :=
  let quo := d / precisionInt
  let rem := d % precisionInt
  if rem = 0 then quo
  else if rem < fivePrecision then quo
  else if fivePrecision < rem then quo + 1
  else if quo % 2 = 0 then quo else quo + 1

/-- `chopPrecisionAndRound`: a negative number is rounded as its opposite. -/
def chopPrecisionAndRound (d : ℤ) : ℤ :=
  if d < 0 then -roundHalfEven (-d) else roundHalfEven d

namespace Dec

/-- `ZeroDec`. -/
def zero : Dec := ⟨0⟩

/-- `OneDec`. -/
def one : Dec := ⟨precisionInt⟩

/-- `NewDecWithPrec(i, prec)`: `i · 10^-prec`. -/
def withPrec (i : ℤ) (prec : ℕ) : Dec := ⟨i * 10 ^ (precision - prec)⟩

/-- `NewDecFromInt`, that is `Int.ToDec`. -/
def ofInt (i : ℤ) : Dec := ⟨i * precisionInt⟩

/-- `Add`. -/
def add (d d₂ : Dec) : Dec := ⟨d.val + d₂.val⟩

/-- `Sub`. -/
def sub (d d₂ : Dec) : Dec := ⟨d.val - d₂.val⟩

/-- `Mul`: the exact product, rounded back to eighteen places. -/
def mul (d d₂ : Dec) : Dec := ⟨chopPrecisionAndRound (d.val * d₂.val)⟩

/-- The quotient of `Quo` by a divisor that is not zero: to thirty-six
places, truncated, then rounded back to eighteen. -/
def quoNonzero (d d₂ : Dec) (_ : d₂.val ≠ 0) : Dec :=
  ⟨chopPrecisionAndRound ((d.val * precisionInt * precisionInt).tdiv d₂.val)⟩

/-- **`Quo`**: `big.Int.Quo` panics on a zero divisor. -/
def quo (d d₂ : Dec) : Except Failure Dec :=
  if h : d₂.val = 0 then .error (.panic "division by zero") else .ok (d.quoNonzero d₂ h)

/-- `TruncateInt`. -/
def truncateInt (d : Dec) : ℤ := d.val.tdiv precisionInt

/-- `TruncateDec`. -/
def truncateDec (d : Dec) : Dec := ofInt d.truncateInt

/-- `IsPositive`. -/
def isPositive (d : Dec) : Bool := decide (0 < d.val)

/-- `IsNegative`. -/
def isNegative (d : Dec) : Bool := decide (d.val < 0)

/-- `GT`. -/
def gt (d d₂ : Dec) : Bool := decide (d₂.val < d.val)

/-- `GTE`. -/
def gte (d d₂ : Dec) : Bool := decide (d₂.val ≤ d.val)

/-- `LT`. -/
def lt (d d₂ : Dec) : Bool := decide (d.val < d₂.val)

/-- `LTE`. -/
def lte (d d₂ : Dec) : Bool := decide (d.val ≤ d₂.val)

/-- `Equal`. -/
def equal (d d₂ : Dec) : Bool := decide (d.val = d₂.val)

end Dec

/-! ## Rounding facts -/

theorem precisionInt_pos : 0 < precisionInt := pow_pos (by decide) _

theorem precisionInt_eq : precisionInt = 1000000000000000000 := rfl

/-- **Banker's rounding is off by half a unit at most**, either way. -/
theorem roundHalfEven_bounds (d : ℤ) :
    2 * (roundHalfEven d * precisionInt) ≤ 2 * d + precisionInt ∧
      2 * d ≤ 2 * (roundHalfEven d * precisionInt) + precisionInt := by
  have hfive : fivePrecision = 500000000000000000 := by
    rw [fivePrecision, precisionInt_eq]
    rfl
  -- with the two constants as numerals, `omega` reads the quotient and the remainder
  simp only [roundHalfEven, hfive, precisionInt_eq]
  split_ifs <;> omega

theorem roundHalfEven_mul_precision (a : ℤ) : roundHalfEven (a * precisionInt) = a := by
  unfold roundHalfEven
  rw [Int.mul_emod_left, if_pos rfl, Int.mul_ediv_cancel _ precisionInt_pos.ne']

/-- Rounding a multiple of `precisionInt` is exact. -/
theorem chopPrecisionAndRound_mul_precision (a : ℤ) :
    chopPrecisionAndRound (a * precisionInt) = a := by
  unfold chopPrecisionAndRound
  split
  · rw [← Int.neg_mul, roundHalfEven_mul_precision, Int.neg_neg]
  · exact roundHalfEven_mul_precision a

namespace Dec

/-- **A whole number times a decimal is exact**: no rounding happens. -/
theorem ofInt_mul (a : ℤ) (r : Dec) : (ofInt a).mul r = ⟨a * r.val⟩ := by
  unfold ofInt mul
  congr 1
  rw [Int.mul_right_comm a precisionInt r.val]
  exact chopPrecisionAndRound_mul_precision _

/-- A decimal times a whole number is exact as well. -/
theorem mul_ofInt (r : Dec) (a : ℤ) : r.mul (ofInt a) = ⟨r.val * a⟩ := by
  unfold ofInt mul
  congr 1
  rw [← Int.mul_assoc]
  exact chopPrecisionAndRound_mul_precision _

/-- Whole numbers add exactly. -/
@[simp] theorem ofInt_add_ofInt (a b : ℤ) : (ofInt a).add (ofInt b) = ofInt (a + b) := by
  unfold ofInt add
  rw [Int.add_mul]

/-- A whole number that is not zero is a divisor `Quo` accepts. -/
theorem ofInt_val_ne_zero {a : ℤ} (h : a ≠ 0) : (ofInt a).val ≠ 0 :=
  Int.mul_ne_zero h precisionInt_pos.ne'

/-- A positive decimal is a divisor `Quo` accepts. -/
theorem val_ne_zero_of_isPositive {d : Dec} (h : d.isPositive = true) : d.val ≠ 0 :=
  (of_decide_eq_true h).ne'

@[simp] theorem truncateInt_ofInt (a : ℤ) : (ofInt a).truncateInt = a := by
  unfold truncateInt ofInt
  exact Int.mul_tdiv_cancel _ precisionInt_pos.ne'

/-- The truncated part of a nonnegative whole number times a rate in
`[0, 1]` lies between `0` and the number itself, and truncation never
rounds up. -/
theorem truncateInt_mul_bounds {a : ℤ} (ha : 0 ≤ a) {r : Dec} (hr : 0 ≤ r.val) :
    0 ≤ ((ofInt a).mul r).truncateInt ∧
      ((ofInt a).mul r).truncateInt * precisionInt ≤ a * r.val := by
  rw [ofInt_mul]
  unfold truncateInt
  have hprod : 0 ≤ a * r.val := Int.mul_nonneg ha hr
  rw [Int.tdiv_eq_ediv_of_nonneg hprod]
  exact ⟨Int.ediv_nonneg hprod precisionInt_pos.le, Int.ediv_mul_le _ precisionInt_pos.ne'⟩

/-! ### Quotients

`Quo` truncates the quotient at thirty-six places and rounds it to
eighteen, half to even; the rounding may go up. For a nonnegative
dividend and a positive divisor the result, times the divisor, is within
half a unit of the eighteenth place of the dividend either way, besides the
truncation. -/

/-- What a `Quo` that did not panic returned. -/
theorem quo_eq_ok {d e q : Dec} : d.quo e = .ok q ↔ ∃ h : e.val ≠ 0, q = d.quoNonzero e h := by
  unfold quo
  by_cases he : e.val = 0
  · simp [he]
  · simp only [he, dite_false, Except.ok.injEq]
    exact ⟨fun h => ⟨he, h.symm⟩, fun ⟨_, h⟩ => h.symm⟩

/-- The thirty-six-place quotient that `Quo` rounds. -/
theorem quoNonzero_val {d e : Dec} (hd : 0 ≤ d.val) (he : 0 < e.val) :
    (d.quoNonzero e (Int.ne_of_gt he)).val = roundHalfEven (d.val * precisionInt * precisionInt / e.val) := by
  have hN : 0 ≤ d.val * precisionInt * precisionInt :=
    Int.mul_nonneg (Int.mul_nonneg hd precisionInt_pos.le) precisionInt_pos.le
  unfold quoNonzero chopPrecisionAndRound
  rw [Int.tdiv_eq_ediv_of_nonneg hN, if_neg (not_lt.mpr (Int.ediv_nonneg hN he.le))]

/-- **A quotient is within half a unit of the eighteenth place**, over or
under, and under by the truncation of its thirty-six-place quotient too. -/
theorem quoNonzero_bounds {d e : Dec} (hd : 0 ≤ d.val) (he : 0 < e.val) :
    2 * ((d.quoNonzero e (Int.ne_of_gt he)).val * precisionInt) * e.val ≤
        2 * (d.val * precisionInt * precisionInt) + precisionInt * e.val ∧
      2 * (d.val * precisionInt * precisionInt) <
        2 * ((d.quoNonzero e (Int.ne_of_gt he)).val * precisionInt) * e.val + precisionInt * e.val + 2 * e.val := by
  rw [quoNonzero_val hd he]
  generalize hN : d.val * precisionInt * precisionInt = N
  have hlow : N / e.val * e.val ≤ N := Int.ediv_mul_le N he.ne'
  have hhigh : N < (N / e.val + 1) * e.val := Int.lt_ediv_add_one_mul_self N he
  generalize N / e.val = q at hlow hhigh
  obtain ⟨hup, hdown⟩ := roundHalfEven_bounds q
  constructor
  · calc 2 * (roundHalfEven q * precisionInt) * e.val
        ≤ (2 * q + precisionInt) * e.val := Int.mul_le_mul_of_nonneg_right hup he.le
      _ = 2 * (q * e.val) + precisionInt * e.val := by ring
      _ ≤ 2 * N + precisionInt * e.val := by omega
  · calc 2 * N < 2 * ((q + 1) * e.val) := by omega
      _ = 2 * q * e.val + 2 * e.val := by ring
      _ ≤ (2 * (roundHalfEven q * precisionInt) + precisionInt) * e.val + 2 * e.val := by
        have := Int.mul_le_mul_of_nonneg_right hdown he.le
        omega
      _ = 2 * (roundHalfEven q * precisionInt) * e.val + precisionInt * e.val + 2 * e.val := by ring

/-- A nonnegative dividend over a positive divisor gives a nonnegative quotient. -/
theorem quoNonzero_nonneg {d e : Dec} (hd : 0 ≤ d.val) (he : 0 < e.val) :
    0 ≤ (d.quoNonzero e (Int.ne_of_gt he)).val := by
  rw [quoNonzero_val hd he]
  have hq : 0 ≤ d.val * precisionInt * precisionInt / e.val :=
    Int.ediv_nonneg (Int.mul_nonneg (Int.mul_nonneg hd precisionInt_pos.le) precisionInt_pos.le) he.le
  have hdown := (roundHalfEven_bounds (d.val * precisionInt * precisionInt / e.val)).2
  rw [precisionInt_eq] at hdown hq ⊢
  omega

/-- A `Quo` of a nonnegative dividend by a divisor that is not negative,
when it does not panic, is nonnegative: the divisor was positive. -/
theorem quo_nonneg {d e q : Dec} (hd : 0 ≤ d.val) (he : 0 ≤ e.val) (h : d.quo e = .ok q) :
    0 ≤ q.val := by
  obtain ⟨hne, rfl⟩ := quo_eq_ok.mp h
  exact quoNonzero_nonneg hd (lt_of_le_of_ne he (Ne.symm hne))

theorem truncateInt_nonneg {d : Dec} (h : 0 ≤ d.val) : 0 ≤ d.truncateInt :=
  Int.tdiv_nonneg h precisionInt_pos.le

theorem truncateInt_nonpos {d : Dec} (h : d.val ≤ 0) : d.truncateInt ≤ 0 := by
  unfold truncateInt
  have := Int.tdiv_nonneg (Int.neg_nonneg.mpr h) precisionInt_pos.le
  rw [Int.neg_tdiv] at this
  omega

theorem roundHalfEven_nonneg {d : ℤ} (h : 0 ≤ d) : 0 ≤ roundHalfEven d := by
  have hdown := (roundHalfEven_bounds d).2
  rw [precisionInt_eq] at hdown
  omega

/-- Rounding keeps a number that is not positive so: a negative one is
rounded as its opposite. -/
theorem chopPrecisionAndRound_nonpos {d : ℤ} (h : d ≤ 0) : chopPrecisionAndRound d ≤ 0 := by
  unfold chopPrecisionAndRound
  split
  · have := roundHalfEven_nonneg (Int.neg_nonneg.mpr h)
    omega
  · obtain rfl : d = 0 := by omega
    simpa using (roundHalfEven_mul_precision 0).le

/-- A dividend that is not positive over a positive divisor gives a
quotient that is not positive. -/
theorem quoNonzero_nonpos {d e : Dec} (hd : d.val ≤ 0) (he : 0 < e.val) :
    (d.quoNonzero e (Int.ne_of_gt he)).val ≤ 0 := by
  unfold quoNonzero
  apply chopPrecisionAndRound_nonpos
  have hN : d.val * precisionInt * precisionInt ≤ 0 :=
    mul_nonpos_of_nonpos_of_nonneg (mul_nonpos_of_nonpos_of_nonneg hd precisionInt_pos.le)
      precisionInt_pos.le
  have := Int.tdiv_nonneg (Int.neg_nonneg.mpr hN) he.le
  rw [Int.neg_tdiv] at this
  omega

/-- **The truncated part of a whole number times a rate grows with the
number**, for a rate that is not negative. -/
theorem truncateInt_mul_mono {a b : ℤ} (ha : 0 ≤ a) (hab : a ≤ b) {r : Dec} (hr : 0 ≤ r.val) :
    ((ofInt a).mul r).truncateInt ≤ ((ofInt b).mul r).truncateInt := by
  rw [ofInt_mul, ofInt_mul]
  unfold truncateInt
  rw [Int.tdiv_eq_ediv_of_nonneg (Int.mul_nonneg ha hr),
    Int.tdiv_eq_ediv_of_nonneg (Int.mul_nonneg (ha.trans hab) hr)]
  exact Int.ediv_le_ediv precisionInt_pos (Int.mul_le_mul_of_nonneg_right hab hr)

end Dec

end Sdk
