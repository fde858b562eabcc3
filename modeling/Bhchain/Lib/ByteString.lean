import Mathlib.Data.String.Basic

/-!
# Strings as bytes

A key of a store is a byte string, and a program that writes text into a
key writes its UTF-8 encoding. Two facts about that encoding make such
keys readable back: it is injective (`encode_injective`), and an ASCII
byte occurs in it exactly where its character occurs in the text
(`mem_encode_ascii`), since every byte of a longer encoding has its high
bit set. A single ASCII separator can therefore be looked for byte by byte.

Splitting a byte string on a separator (`List.splitOn`) gives back the
parts it was joined from when none of them holds the separator (the core
lemmas `List.splitOn_append_cons_self_of_not_mem` and
`List.splitOn_eq_singleton`), and gives more parts as soon as the last part
holds it (`three_le_length_splitOn`).
-/

namespace ByteString

/-- An ASCII byte is in the encoding of a character exactly when it is
that character. -/
theorem mem_encodeChar_ascii (c : Char) {b : ℕ} (hb : b < 128) :
    Fin.ofNat 256 b ∈ (String.utf8EncodeChar c).map UInt8.toFin ↔ c.toNat = b := by
  unfold String.utf8EncodeChar
  have hv : c.toNat = c.val.toNat := rfl
  simp only
  -- one case per length of the encoding; a byte of a longer one is `≥ 128`
  split_ifs with h1 h2 h3 <;>
    simp only [List.map_cons, List.map_nil, List.mem_cons, List.not_mem_nil, or_false,
      UInt8.toFin.ofNat, UInt8.size, Fin.ext_iff, Fin.val_ofNat] <;> omega

/-- **An ASCII byte occurs in the encoding of a text exactly where its
character occurs in the text.** -/
theorem mem_encode_ascii (l : List Char) {b : ℕ} (hb : b < 128) :
    Fin.ofNat 256 b ∈ (l.flatMap String.utf8EncodeChar).map UInt8.toFin ↔ ∃ c ∈ l, c.toNat = b := by
  rw [List.map_flatMap, List.mem_flatMap]
  exact exists_congr fun c => and_congr_right fun _ => mem_encodeChar_ascii c hb

/-- **The UTF-8 encoding of strings is injective.** -/
theorem encode_injective :
    Function.Injective fun s : String => (s.toList.flatMap String.utf8EncodeChar).map UInt8.toFin := by
  intro s t h
  have hflat : s.toList.flatMap String.utf8EncodeChar = t.toList.flatMap String.utf8EncodeChar :=
    List.map_injective_iff.mpr (fun _ _ h => UInt8.toFin_inj.mp h) h
  rw [← String.toByteArray_inj, ← String.utf8Encode_toList, ← String.utf8Encode_toList]
  unfold List.utf8Encode
  rw [hflat]

/-! ## Splitting on a separator -/

variable {α : Type} [DecidableEq α] {sep : α}

/-- A byte string holding the separator splits into two parts or more. -/
theorem two_le_length_splitOn {y : List α} (hy : sep ∈ y) : 2 ≤ (y.splitOn sep).length := by
  induction y with
  | nil => cases hy
  | cons a t ih =>
    rw [List.splitOn_cons_eq_if_modifyHead]
    split_ifs with ha
    · -- the head is a separator: an empty part, then the parts of the rest
      have hrest := List.length_pos_iff.mpr (List.splitOn_ne_nil sep t)
      rw [List.length_cons]
      omega
    · -- the head joins the first part of the rest, which holds the separator
      have hne : a ≠ sep := fun h => by simp [h] at ha
      rw [List.length_modifyHead]
      exact ih ((List.mem_cons.mp hy).resolve_left (Ne.symm hne))

/-- **A separator in the last part makes at least three parts.** -/
theorem three_le_length_splitOn {x y : List α} (hx : sep ∉ x) (hy : sep ∈ y) :
    3 ≤ ((x ++ sep :: y).splitOn sep).length := by
  rw [List.splitOn_append_cons_self_of_not_mem hx, List.length_cons]
  have := two_le_length_splitOn hy
  omega

omit [DecidableEq α] in
/-- **Two byte strings cut at their first separator**, one a prefix of the
other: when neither first part holds the separator, the first parts are
equal and the rests are a prefix of one another. -/
theorem append_cons_prefix_iff :
    ∀ {x x' : List α} (y y' : List α), sep ∉ x → sep ∉ x' →
      ((x ++ sep :: y).IsPrefix (x' ++ sep :: y') ↔ x = x' ∧ y.IsPrefix y')
  | [], [], y, y', _, _ => by simp [List.cons_prefix_cons]
  | [], c :: x', y, y', _, hx' => by
    -- the separator would be the first byte of `x'`
    simp only [List.nil_append, List.cons_append, List.cons_prefix_cons]
    refine iff_of_false (fun h => hx' ?_) (fun h => nomatch h.1)
    rw [h.1]
    exact List.mem_cons_self
  | a :: x, [], y, y', hx, _ => by
    simp only [List.nil_append, List.cons_append, List.cons_prefix_cons]
    refine iff_of_false (fun h => hx ?_) (fun h => nomatch h.1)
    rw [h.1]
    exact List.mem_cons_self
  | a :: x, a' :: x', y, y', hx, hx' => by
    simp only [List.cons_append, List.cons_prefix_cons, List.cons.injEq, and_assoc]
    rw [append_cons_prefix_iff y y' (fun h => hx (List.mem_cons_of_mem a h))
      (fun h => hx' (List.mem_cons_of_mem a' h))]

end ByteString
