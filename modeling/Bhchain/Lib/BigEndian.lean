import Mathlib

/-!
# Fixed-width big-endian keys

A store iterates its keys in the lexicographic order of their bytes. A key
that begins with a number written big-endian on a fixed width therefore
comes in the order of the numbers, whatever follows the number. This
module writes `n` as `w` digits of base `b`, most significant first
(`encode`), reads them back (`decode_encode`), and proves that under the
lexicographic order of lists an encoding followed by anything is below a
bare encoding of the same width exactly when its number is smaller
(`key_lt_bound_iff`): a range whose end is the bare encoding of `m`
selects the keys of the numbers below `m`.
-/

namespace BigEndian

variable {b : ℕ}

/-- **The `w` digits of `n` in base `b`**, most significant first (those of
`n` modulo `b ^ w`). -/
def encode (b : ℕ) [NeZero b] : ℕ → ℕ → List (Fin b)
  | 0, _ => []
  | w + 1, n => Fin.ofNat b (n / b ^ w) :: encode b w n

/-- The number some digits stand for, most significant first. -/
def decode : List (Fin b) → ℕ
  | [] => 0
  | d :: ds => d * b ^ ds.length + decode ds

@[simp] theorem length_encode [NeZero b] (w n : ℕ) : (encode b w n).length = w := by
  induction w with
  | zero => rfl
  | succ w ih => simp [encode, ih]

theorem decode_lt : ∀ ds : List (Fin b), decode ds < b ^ ds.length
  | [] => by simp [decode]
  | d :: ds => by
    have hrest := decode_lt ds
    calc decode (d :: ds) = d * b ^ ds.length + decode ds := rfl
      _ < (d + 1) * b ^ ds.length := by rw [Nat.add_mul, Nat.one_mul]; omega
      _ ≤ b * b ^ ds.length := Nat.mul_le_mul_right _ d.isLt
      _ = b ^ (d :: ds).length := by rw [List.length_cons, Nat.pow_succ, Nat.mul_comm]

theorem decode_encode [NeZero b] (w n : ℕ) : decode (encode b w n) = n % b ^ w := by
  induction w with
  | zero => simp [encode, decode, Nat.mod_one]
  | succ w ih =>
    rw [encode, decode, ih, length_encode, Nat.mod_pow_succ, Fin.val_ofNat, Nat.mul_comm, Nat.add_comm]

/-- A number that fits is read back as it was written. -/
theorem decode_encode_of_lt [NeZero b] {w n : ℕ} (h : n < b ^ w) : decode (encode b w n) = n := by
  rw [decode_encode, Nat.mod_eq_of_lt h]

/-- The leading digit decides, unless the leading digits are equal. -/
theorem mul_add_lt_mul_add_iff {B x y d e : ℕ} (hx : x < B) (hy : y < B) :
    d * B + x < e * B + y ↔ d < e ∨ d = e ∧ x < y := by
  constructor
  · intro h
    rcases lt_trichotomy d e with hde | rfl | hed
    · exact .inl hde
    · exact .inr ⟨rfl, by omega⟩
    · -- a larger leading digit outweighs any tail
      have hmul : (e + 1) * B ≤ d * B := Nat.mul_le_mul_right B hed
      rw [Nat.add_mul, Nat.one_mul] at hmul
      omega
  · rintro (hde | ⟨rfl, hxy⟩)
    · have hmul : (d + 1) * B ≤ e * B := Nat.mul_le_mul_right B hde
      rw [Nat.add_mul, Nat.one_mul] at hmul
      omega
    · omega

/-- **Digits of one width compare as their numbers.** -/
theorem lt_iff_decode_lt :
    ∀ {ds es : List (Fin b)}, ds.length = es.length → (ds < es ↔ decode ds < decode es)
  | [], [], _ => by simp [decode]
  | d :: ds, e :: es, h => by
    have hlen : ds.length = es.length := by simpa using h
    rw [List.cons_lt_cons_iff, lt_iff_decode_lt hlen, decode, decode, hlen,
      mul_add_lt_mul_add_iff (hlen ▸ decode_lt ds) (decode_lt es), Fin.lt_def, Fin.ext_iff]

theorem encode_lt_encode_iff [NeZero b] {w n m : ℕ} (hn : n < b ^ w) (hm : m < b ^ w) :
    encode b w n < encode b w m ↔ n < m := by
  rw [lt_iff_decode_lt (by simp), decode_encode_of_lt hn, decode_encode_of_lt hm]

/-- What follows digits of the bound's width does not matter. -/
theorem append_lt_iff :
    ∀ {ds es : List (Fin b)} (t : List (Fin b)), ds.length = es.length → (ds ++ t < es ↔ ds < es)
  | [], [], t, _ => by simp
  | d :: ds, e :: es, t, h => by
    rw [List.cons_append, List.cons_lt_cons_iff, List.cons_lt_cons_iff,
      append_lt_iff t (by simpa using h)]

/-- A common prefix does not matter. -/
theorem append_lt_append_left_iff :
    ∀ (p : List (Fin b)) {l₁ l₂ : List (Fin b)}, p ++ l₁ < p ++ l₂ ↔ l₁ < l₂
  | [], _, _ => Iff.rfl
  | a :: p, l₁, l₂ => by
    rw [List.cons_append, List.cons_append, List.cons_lt_cons_iff, append_lt_append_left_iff p]
    simp

/-- **A key that begins with an encoding is below a bound made of another**
exactly when its number is smaller, whatever the common prefix before and
whatever follows. -/
theorem key_lt_bound_iff [NeZero b] (p t : List (Fin b)) {w n m : ℕ} (hn : n < b ^ w) (hm : m < b ^ w) :
    p ++ (encode b w n ++ t) < p ++ encode b w m ↔ n < m := by
  rw [append_lt_append_left_iff, append_lt_iff t (by simp), encode_lt_encode_iff hn hm]

/-- No key is below its own prefix. -/
theorem not_append_lt : ∀ (p t : List (Fin b)), ¬ p ++ t < p
  | [], t => List.not_lt_nil t
  | a :: p, t => by
    rw [List.cons_append, List.cons_lt_cons_iff]
    rintro (h | ⟨-, h⟩)
    · exact lt_irrefl a h
    · exact not_append_lt p t h

/-- The number of a key is read from the digits after its prefix. -/
theorem decode_take_encode_append [NeZero b] (w n : ℕ) (t : List (Fin b)) :
    decode ((encode b w n ++ t).take w) = n % b ^ w := by
  rw [List.take_left' (length_encode w n), decode_encode]

theorem drop_encode_append [NeZero b] (w n : ℕ) (t : List (Fin b)) : (encode b w n ++ t).drop w = t :=
  List.drop_left' (length_encode w n)

end BigEndian
