import Skvs.Lib.Float64
import Mathlib.Algebra.BigOperators.Group.List.Basic
import Mathlib.Algebra.Order.Group.Int
import Mathlib.Data.List.Induction

/-!
# Integers as doubles

Integers of magnitude below 2 ^ 53 are doubles, and sums of them are exact as long as no sum reaches
that bound.
-/

namespace F64

theorem roundDiv_one (n : Nat) : roundDiv n 1 = n := by
  simp [roundDiv, Nat.mod_one]

theorem floorLog2_one {n : Nat} (h : n ≠ 0) : floorLog2 n 1 = Nat.log2 n := by
  have hone : Nat.log2 1 = 0 := by decide
  simp [floorLog2, hone, Nat.log2_self_le h]

theorem mkRat_scaled (n s : Nat) : mkRat ((n * 2 ^ s : Nat) : Int) (2 ^ s) = (n : Rat) := by
  rw [Rat.mkRat_eq_div]
  push_cast
  exact mul_div_cancel_right₀ _ (pow_ne_zero s two_ne_zero)

/-- Rounding leaves an integer below 2 ^ 53 alone. -/
theorem round_intCast {i : Int} (h : i.natAbs < 2 ^ 53) : round false (i : Rat) = .fin i := by
  by_cases hi : i = 0
  · rw [hi]
    rfl
  have hn : i.natAbs ≠ 0 := Int.natAbs_ne_zero.mpr hi
  have hsign : (if (i : Rat) < 0 then -(i.natAbs : Rat) else (i.natAbs : Rat)) = i := by
    rw [Nat.cast_natAbs, Int.cast_abs]
    split_ifs with hneg
    · rw [abs_of_neg hneg, neg_neg]
    · exact abs_of_nonneg (not_lt.mp hneg)
  have hbound : ¬(2 : Rat) ^ 1024 ≤ (i.natAbs : Rat) := by
    have hlt : (i.natAbs : Rat) < (2 ^ 53 : Nat) := Nat.cast_lt.mpr h
    rw [Nat.cast_pow, Nat.cast_ofNat] at hlt
    exact not_le.mpr (hlt.trans_le (pow_le_pow_right₀ one_le_two (by decide)))
  have hlog : Nat.log2 i.natAbs ≤ 52 := Nat.le_of_lt_succ ((Nat.log2_lt hn).mpr h)
  obtain ⟨s, hs⟩ := Nat.exists_eq_add_of_le hlog
  have he : max (floorLog2 i.natAbs 1 - 52) (-1074) = -(s : Int) := by
    rw [floorLog2_one hn]
    omega
  simp only [round, Rat.num_intCast, Rat.den_intCast, Int.cast_eq_zero, hi, if_false, he]
  rcases Nat.eq_zero_or_pos s with rfl | hpos
  · simp only [Nat.cast_zero, neg_zero, le_refl, if_true, Int.toNat_zero, pow_zero, mul_one,
      roundDiv_one, hn, if_false, hbound, hsign]
  · have hneg : ¬(0 : Int) ≤ -(s : Int) := by omega
    have hscaled : i.natAbs * 2 ^ s ≠ 0 := mul_ne_zero hn (pow_ne_zero s two_ne_zero)
    simp only [hneg, if_false, neg_neg, Int.toNat_natCast, roundDiv_one, hscaled, mkRat_scaled, hbound,
      hsign]

theorem ofInt_eq {i : Int} (h : i.natAbs < 2 ^ 53) : ofInt i = .fin i := round_intCast h

theorem add_intCast {i j : Int} (h : (i + j).natAbs < 2 ^ 53) :
    add (.fin i) (.fin j) = .fin ((i + j : Int) : Rat) := by
  rw [← round_intCast h, Int.cast_add]
  rfl

/-- The sum of integers is exact as long as no sum of a part of them reaches 2 ^ 53. -/
theorem foldl_add_ofInt {l : List Int} (h : ∀ part : List Int, part.Sublist l → part.sum.natAbs < 2 ^ 53) :
    (l.map ofInt).foldl add (.fin 0) = .fin (l.sum : Int) := by
  induction l using List.reverseRecOn with
  | nil => rfl
  | append_singleton l i ih =>
      have hlast : i.natAbs < 2 ^ 53 := by
        simpa using h [i] (List.sublist_append_right l [i])
      have hsum : (l.sum + i).natAbs < 2 ^ 53 := by
        simpa using h (l ++ [i]) (List.Sublist.refl _)
      rw [List.map_append, List.foldl_append,
        ih fun part hpart => h part (hpart.trans (List.sublist_append_left l [i]))]
      simp only [List.map_singleton, List.foldl_cons, List.foldl_nil, List.sum_append,
        List.sum_singleton]
      rw [ofInt_eq hlast, add_intCast hsum]

theorem truncRat_intCast (i : Int) : truncRat i = i := by
  rw [truncRat, ← Int.cast_neg, Rat.floor_intCast, Rat.floor_intCast, neg_neg, ite_self]

theorem fract_intCast (i : Int) : fract (.fin i) = .fin 0 := by
  change round false ((i : Rat) - truncRat i) = _
  rw [truncRat_intCast, sub_self]
  rfl

end F64
