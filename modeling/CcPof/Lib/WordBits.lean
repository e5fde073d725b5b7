import Mathlib.Data.Nat.Bitwise

/-!
# Words as sets of bits

One bit of a machine word tested, set and cleared through a mask, the words that are all ones or
zero, and masks of consecutive bits.
-/

namespace CcPof

variable {w i j k n : Nat} {x y : BitVec w}

theorem word_ext (h : ∀ i, i < w → x.getLsbD i = y.getLsbD i) : x = y :=
  BitVec.eq_of_getLsbD_eq h

theorem eq_zero_iff_bits : x = 0#w ↔ ∀ i, i < w → x.getLsbD i = false := by
  constructor
  · rintro rfl i -
    exact BitVec.getLsbD_zero
  · intro h
    apply word_ext
    intro i hi
    rw [h i hi, BitVec.getLsbD_zero]

theorem eq_allOnes_iff_bits : x = BitVec.allOnes w ↔ ∀ i, i < w → x.getLsbD i = true := by
  constructor
  · rintro rfl i hi
    rw [BitVec.getLsbD_allOnes, decide_eq_true hi]
  · intro h
    apply word_ext
    intro i hi
    rw [h i hi, BitVec.getLsbD_allOnes, decide_eq_true hi]

theorem getLsbD_bit (hi : i < w) (j : Nat) : (1#w <<< i).getLsbD j = decide (j = i) := by
  rw [← BitVec.twoPow_eq, BitVec.getLsbD_twoPow, decide_eq_true hi, Bool.true_and]
  exact decide_eq_decide.mpr eq_comm

theorem and_bit_eq_zero (hi : i < w) : x &&& 1#w <<< i = 0#w ↔ x.getLsbD i = false := by
  rw [eq_zero_iff_bits]
  constructor
  · intro h
    have hbit := h i hi
    rwa [BitVec.getLsbD_and, getLsbD_bit hi, decide_eq_true rfl, Bool.and_true] at hbit
  · intro h j hj
    rw [BitVec.getLsbD_and, getLsbD_bit hi]
    by_cases hji : j = i
    · rw [hji, h, Bool.false_and]
    · rw [decide_eq_false hji, Bool.and_false]

theorem getLsbD_or_bit (hi : i < w) (j : Nat) :
    (x ||| 1#w <<< i).getLsbD j = if j = i then true else x.getLsbD j := by
  rw [BitVec.getLsbD_or, getLsbD_bit hi]
  by_cases hji : j = i
  · rw [if_pos hji, decide_eq_true hji, Bool.or_true]
  · rw [if_neg hji, decide_eq_false hji, Bool.or_false]

theorem getLsbD_and_not_bit (hi : i < w) (j : Nat) :
    (x &&& ~~~(1#w <<< i)).getLsbD j = if j = i then false else x.getLsbD j := by
  rw [BitVec.getLsbD_and, BitVec.getLsbD_not, getLsbD_bit hi]
  by_cases hji : j = i
  · rw [if_pos hji, decide_eq_true hji, Bool.not_true, Bool.and_false, Bool.and_false]
  · rw [if_neg hji, decide_eq_false hji, Bool.not_false, Bool.and_true]
    by_cases hj : j < w
    · rw [decide_eq_true hj, Bool.and_true]
    · rw [BitVec.getLsbD_of_ge x j (by omega), Bool.false_and]

/-- Set or clear one bit. -/
def putBit (x : BitVec w) (i : Nat) (v : Bool) : BitVec w :=
  if v then x ||| 1#w <<< i else x &&& ~~~(1#w <<< i)

theorem getLsbD_putBit (hi : i < w) (v : Bool) (j : Nat) :
    (putBit x i v).getLsbD j = if j = i then v else x.getLsbD j := by
  cases v with
  | true => exact getLsbD_or_bit hi j
  | false => exact getLsbD_and_not_bit hi j

/-- The mask of the `n` low bits. -/
theorem getLsbD_lowMask (hn : n < w) (j : Nat) :
    (1#w <<< n - 1#w).getLsbD j = decide (j < n) := by
  have hpow : 2 ^ n < 2 ^ w := Nat.pow_lt_pow_right (by decide) hn
  have hone : 1 ≤ 2 ^ n := Nat.one_le_two_pow
  have hval : (1#w <<< n - 1#w).toNat = 2 ^ n - 1 := by
    rw [← BitVec.twoPow_eq, BitVec.toNat_sub, BitVec.toNat_twoPow_of_lt hn, BitVec.toNat_ofNat,
      Nat.mod_eq_of_lt (by omega : 1 < 2 ^ w), show 2 ^ w - 1 + 2 ^ n = 2 ^ n - 1 + 2 ^ w by omega,
      Nat.add_mod_right, Nat.mod_eq_of_lt (by omega)]
  rw [BitVec.getLsbD, hval, Nat.testBit_two_pow_sub_one]

/-- A search for a zero bit fails only in the word that is all ones. -/
theorem find_zero_bit_eq_none :
    ((List.range w).find? fun j => x &&& 1#w <<< j = 0#w) = none ↔ x = BitVec.allOnes w := by
  rw [eq_allOnes_iff_bits, List.find?_eq_none]
  constructor
  · intro h i hi
    have hbit := h i (List.mem_range.mpr hi)
    rw [decide_eq_true_eq, and_bit_eq_zero hi] at hbit
    exact Bool.eq_true_of_not_eq_false hbit
  · intro h i hi
    have hi' := List.mem_range.mp hi
    rw [decide_eq_true_eq, and_bit_eq_zero hi', h i hi']
    exact nofun

theorem find_zero_bit_eq_some
    (h : ((List.range w).find? fun j => x &&& 1#w <<< j = 0#w) = some i) :
    i < w ∧ x.getLsbD i = false := by
  have hi := List.mem_range.mp (List.mem_of_find?_eq_some h)
  have hbit := List.find?_some h
  rw [decide_eq_true_eq, and_bit_eq_zero hi] at hbit
  exact ⟨hi, hbit⟩

end CcPof
