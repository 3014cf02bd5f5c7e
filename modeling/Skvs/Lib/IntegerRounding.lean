import Skvs.Lib.FloatOrder
import Mathlib.Data.Nat.Factorization.Basic

/-!
# Integers that doubles hold exactly

An integer is a double exactly if it has at most 53 significant bits. Rounding gives such an integer
always and leaves it alone. What a product has, its factors have too, but sums of integers that are
rounded may be exact by chance.
-/

namespace F64

/-- At most 53 significant bits. -/
def Representable (i : Int) : Prop := ∃ m k : Nat, m < 2 ^ 53 ∧ i.natAbs = m * 2 ^ k

theorem representable_of_le {i : Int} (h : i.natAbs ≤ 2 ^ 53) : Representable i := by
  rcases h.lt_or_eq with hlt | heq
  · exact ⟨i.natAbs, 0, hlt, by rw [pow_zero, mul_one]⟩
  · exact ⟨1, 53, by decide, by rw [heq, one_mul]⟩

theorem roundNat_of_mul {m k : Nat} (hm : m < 2 ^ 53) : roundNat (m * 2 ^ k) = m * 2 ^ k := by
  rcases Nat.eq_zero_or_pos m with rfl | hpos
  · rw [zero_mul]
    decide
  have hlog : Nat.log2 (m * 2 ^ k) - 52 ≤ k := by
    have hlt : m * 2 ^ k < 2 ^ (53 + k) := by
      rw [pow_add]
      exact Nat.mul_lt_mul_of_pos_right hm (Nat.two_pow_pos k)
    have := (Nat.log2_lt (Nat.mul_pos hpos (Nat.two_pow_pos k)).ne').mpr hlt
    omega
  obtain ⟨d, hd⟩ := Nat.exists_eq_add_of_le hlog
  set s := Nat.log2 (m * 2 ^ k) - 52
  have hsplit : m * 2 ^ k = m * 2 ^ d * 2 ^ s := by
    rw [hd, pow_add]
    ring
  rw [roundNat]
  change roundDiv (m * 2 ^ k) (2 ^ s) * 2 ^ s = _
  rw [hsplit, roundDiv_mul _ (Nat.two_pow_pos s)]

theorem exists_roundNat (n : Nat) : ∃ m k : Nat, m < 2 ^ 53 ∧ roundNat n = m * 2 ^ k := by
  rcases Nat.lt_or_ge n (2 ^ 53) with hsmall | hlarge
  · exact ⟨n, 0, hsmall, by rw [roundNat_of_le hsmall.le, pow_zero, mul_one]⟩
  have hn : n ≠ 0 := by
    have := Nat.two_pow_pos 53
    omega
  have hlog : 53 ≤ Nat.log2 n := (Nat.le_log2 hn).mpr hlarge
  set s := Nat.log2 n - 52 with hs
  -- the quotient has 53 bits, but it may round up to the next power of two
  have hle : roundDiv n (2 ^ s) * 2 ^ s ≤ 2 ^ 53 * 2 ^ s := by
    have hup := (roundNat_bounds hn).2
    rw [show Nat.log2 n + 1 = 53 + s by omega, pow_add] at hup
    exact hup
  rcases (Nat.le_of_mul_le_mul_right hle (Nat.two_pow_pos s)).lt_or_eq with hlt | heq
  · exact ⟨roundDiv n (2 ^ s), s, hlt, rfl⟩
  · refine ⟨1, 53 + s, by decide, ?_⟩
    rw [roundNat, ← hs, heq, pow_add, one_mul]

theorem natAbs_nearestInt (i : Int) : (nearestInt i).natAbs = roundNat i.natAbs := by
  rcases eq_or_ne i 0 with rfl | hi
  · decide
  · rw [nearestInt, Int.natAbs_mul, Int.natAbs_sign_of_ne_zero hi, one_mul, Int.natAbs_natCast]

theorem representable_nearestInt (i : Int) : Representable (nearestInt i) := by
  rw [Representable, natAbs_nearestInt]
  exact exists_roundNat i.natAbs

theorem nearestInt_of_representable {i : Int} (h : Representable i) : nearestInt i = i := by
  obtain ⟨m, k, hm, heq⟩ := h
  rw [nearestInt, heq, roundNat_of_mul hm, ← heq, Int.sign_mul_natAbs]

theorem nearestInt_eq_self_iff {i : Int} : nearestInt i = i ↔ Representable i :=
  ⟨fun h => h ▸ representable_nearestInt i, nearestInt_of_representable⟩

/-- A factor of a number has no more significant bits than the number. -/
theorem Representable.of_dvd {i j : Int} (h : Representable j) (hj : j ≠ 0) (hdvd : i ∣ j) :
    Representable i := by
  obtain ⟨m, k, hm, heq⟩ := h
  have hi : i.natAbs ≠ 0 := Int.natAbs_ne_zero.mpr (ne_zero_of_dvd_ne_zero hj hdvd)
  have hm0 : m ≠ 0 := by
    rintro rfl
    rw [zero_mul, Int.natAbs_eq_zero] at heq
    exact hj heq
  obtain ⟨x, odd, hodd, hsplit⟩ := Nat.exists_eq_pow_mul_and_not_dvd hi 2 (by decide)
  have hcoprime : Nat.Coprime odd (2 ^ k) :=
    ((Nat.prime_two.coprime_iff_not_dvd.mpr hodd).symm).pow_right k
  have hdvdm : odd ∣ m * 2 ^ k := by
    rw [← heq]
    exact (hsplit ▸ Dvd.intro_left _ rfl : odd ∣ i.natAbs).trans (Int.natAbs_dvd_natAbs.mpr hdvd)
  have hle : odd ≤ m := Nat.le_of_dvd (Nat.pos_of_ne_zero hm0) (hcoprime.dvd_of_dvd_mul_right hdvdm)
  exact ⟨odd, x, hle.trans_lt hm, by rw [hsplit, mul_comm]⟩

/-- What rounding adds to an integer. -/
def roundingError (i : Int) : Int := nearestInt i - i

theorem nearestInt_eq_add (i : Int) : nearestInt i = i + roundingError i := by
  rw [roundingError]
  omega

theorem roundingError_of_representable {i : Int} (h : Representable i) : roundingError i = 0 := by
  rw [roundingError, nearestInt_of_representable h, sub_self]

theorem sub_fin (p q : Rat) : sub (.fin p) (.fin q) = round false (p - q) := by
  rw [sub, neg]
  split_ifs with hq
  · rw [hq, sub_zero]
    exact congrArg (round false) (add_zero p)
  · rw [sub_eq_add_neg]
    rfl

end F64
