import Mathlib.Algebra.BigOperators.Group.Finset.Piecewise
import Mathlib.Algebra.BigOperators.Group.Finset.Basic

/-!
# Sliding windows kept in a ring buffer

A counter over the last `w` events of a stream need not keep the stream.
The `i`-th event is written to slot `i % w` of a buffer of `w` slots, over
the event written `w` places before it, so that the buffer always holds
the window of the last `w` events, each in its own slot (`ring_slot`),
and the slots no event reached yet keep their initial value
(`ring_eq_default`). A count of marked events over the window is then the
count of marked slots, kept up to date by looking at the one slot each
write replaces (`marked_ring`).
-/

namespace RingBuffer

variable {α : Type*}

/-- **The window of width `w`**: the last `w` events, or all of them while
there are fewer. -/
def window (w : ℕ) (xs : List α) : List α := xs.drop (xs.length - w)

/-- **The ring buffer of width `w`** after the writes of `xs`, the `i`-th
to slot `i % w`, over a buffer of `d`s. -/
def ring (w : ℕ) (d : α) (xs : List α) : ℕ → α :=
  xs.zipIdx.foldl (fun buf e => Function.update buf (e.2 % w) e.1) fun _ => d

/-- The number of marked slots among the first `w`. -/
def marked (w : ℕ) (buf : ℕ → Bool) : ℕ := ∑ j ∈ Finset.range w, (buf j).toNat

variable {w : ℕ} {d : α}

@[simp] theorem ring_nil (w : ℕ) (d : α) : ring w d [] = fun _ => d := rfl

/-- A write goes to the slot of its position. -/
theorem ring_append_singleton (xs : List α) (x : α) :
    ring w d (xs ++ [x]) = Function.update (ring w d xs) (xs.length % w) x := by
  simp [ring, List.zipIdx_append, List.foldl_append]

/-- A slot no write reached keeps its initial value. -/
theorem ring_eq_default {j : ℕ} :
    ∀ {xs : List α}, (∀ i < xs.length, i % w ≠ j) → ring w d xs j = d := by
  intro xs
  induction xs using List.reverseRecOn with
  | nil => exact fun _ => rfl
  | append_singleton xs x ih =>
    intro hne
    rw [ring_append_singleton, Function.update_of_ne (hne xs.length (by simp)).symm]
    exact ih fun i hi => hne i (by simp; omega)

/-- **Each slot holds the last write to it**: the `i`-th event is in slot
`i % w` as long as it is among the last `w`. -/
theorem ring_slot :
    ∀ {xs : List α} {i : ℕ} (hi : i < xs.length), xs.length ≤ i + w → ring w d xs (i % w) = xs[i] := by
  intro xs
  induction xs using List.reverseRecOn with
  | nil => exact fun hi => absurd hi (Nat.not_lt_zero _)
  | append_singleton xs x ih =>
    intro i hi hwin
    rw [ring_append_singleton]
    rcases Nat.lt_or_ge i xs.length with hlt | hge
    · -- an older event: the new write went to another slot, `w` positions
      -- not having passed since it
      have hslot : i % w ≠ xs.length % w := by
        intro heq
        have hdvd := Nat.dvd_of_mod_eq_zero (Nat.sub_mod_eq_zero_of_mod_eq heq.symm)
        have := Nat.eq_zero_of_dvd_of_lt hdvd (by simp at hwin; omega)
        omega
      rw [Function.update_of_ne hslot, ih hlt (by simp at hwin; omega), List.getElem_append_left hlt]
    · have hi' : i = xs.length := by simp at hi; omega
      subst hi'
      simp

/-- **The slot a write replaces** holds the event `w` places before it, or
its initial value while fewer than `w` events came before. -/
theorem ring_length_mod (hw : 0 < w) (xs : List α) :
    ring w d xs (xs.length % w) = if h : w ≤ xs.length then xs[xs.length - w] else d := by
  split
  · rename_i hle
    have hmod : (xs.length - w) % w = xs.length % w := by
      conv_rhs => rw [show xs.length = xs.length - w + w by omega]
      rw [Nat.add_mod_right]
    rw [← hmod]
    exact ring_slot (by omega) (by omega)
  · rename_i hlt
    apply ring_eq_default
    intro i hi
    rw [Nat.mod_eq_of_lt (by omega : i < w), Nat.mod_eq_of_lt (by omega : xs.length < w)]
    omega

/-- The window after one more event: the new one, and the oldest one gone
once there were `w`. -/
theorem window_append_singleton (hw : 0 < w) (xs : List α) (x : α) :
    window w (xs ++ [x]) = (if w ≤ xs.length then (window w xs).tail else window w xs) ++ [x] := by
  unfold window
  simp only [List.length_append, List.length_singleton]
  split
  · rename_i hle
    rw [List.drop_append_of_le_length (by omega), List.tail_drop]
    congr 2
    omega
  · rw [show xs.length + 1 - w = 0 by omega, show xs.length - w = 0 by omega]
    rfl

/-- The oldest event of a full window. -/
theorem window_eq_cons (hw : 0 < w) {xs : List α} (hle : w ≤ xs.length) :
    window w xs = xs[xs.length - w] :: (window w xs).tail := by
  unfold window
  rw [List.drop_eq_getElem_cons (by omega), List.tail_cons]

/-- **One write changes the marked slots** by what it writes and what it
replaces. -/
theorem marked_update (buf : ℕ → Bool) {k : ℕ} (hk : k < w) (b : Bool) :
    marked w (Function.update buf k b) + (buf k).toNat = marked w buf + b.toNat := by
  have hmem : k ∈ Finset.range w := Finset.mem_range.mpr hk
  have happly : (fun j => (Function.update buf k b j).toNat) =
      Function.update (fun j => (buf j).toNat) k b.toNat := by
    funext j
    exact Function.apply_update (fun _ => Bool.toNat) buf k b j
  unfold marked
  rw [happly, Finset.sum_update_of_mem hmem, Finset.sdiff_singleton_eq_erase,
    ← Finset.add_sum_erase _ _ hmem]
  omega

/-- **The marked slots count the marked events of the window.** -/
theorem marked_ring (hw : 0 < w) (xs : List Bool) :
    marked w (ring w false xs) = (window w xs).count true := by
  induction xs using List.reverseRecOn with
  | nil => simp [marked, window]
  | append_singleton xs x ih =>
    have hslot := marked_update (ring w false xs) (Nat.mod_lt xs.length hw) x
    rw [← ring_append_singleton, ring_length_mod hw] at hslot
    rw [window_append_singleton hw, List.count_append, List.count_singleton]
    split at hslot
    · rename_i hle
      have hcons := window_eq_cons hw hle
      rw [if_pos hle]
      have hcount : (window w xs).count true =
          (xs[xs.length - w]).toNat + (window w xs).tail.count true := by
        conv_lhs => rw [hcons]
        cases xs[xs.length - w] <;> simp [Nat.add_comm]
      cases x <;> simp at hslot ⊢ <;> omega
    · rename_i hlt
      rw [if_neg hlt]
      cases x <;> simp at hslot ⊢ <;> omega

/-- **The count over the window, kept by one slot**: one more event adds
itself and removes what its slot held. -/
theorem count_window_append_singleton (hw : 0 < w) (xs : List Bool) (x : Bool) :
    (window w (xs ++ [x])).count true + (ring w false xs (xs.length % w)).toNat =
      (window w xs).count true + x.toNat := by
  have hslot := marked_update (ring w false xs) (Nat.mod_lt xs.length hw) x
  rw [← ring_append_singleton, marked_ring hw, marked_ring hw] at hslot
  exact hslot

end RingBuffer
