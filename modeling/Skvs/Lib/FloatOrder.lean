import Skvs.Lib.Float64Int
import Mathlib.Order.WithBot
import Mathlib.Order.Compare
import Mathlib.Tactic.Ring

/-!
# The order of doubles

A double other than NaN has a place on the line of the rationals with both infinities, and doubles
compare as their places do. The place of an integer below 2 ^ 64 is a nearest number of 53
significant bits, so rounding never turns the order of integers around, but it may let them tie.
-/

namespace F64

/-- The rationals with both infinities. -/
abbrev Place := WithBot (WithTop Rat)

def Place.ofRat (q : Rat) : Place := WithBot.some (WithTop.some q)

theorem Place.ofRat_lt {p q : Rat} : ofRat p < ofRat q ↔ p < q :=
  WithBot.coe_lt_coe.trans WithTop.coe_lt_coe

theorem Place.ofRat_le {p q : Rat} : ofRat p ≤ ofRat q ↔ p ≤ q :=
  WithBot.coe_le_coe.trans WithTop.coe_le_coe

theorem Place.ofRat_inj {p q : Rat} : ofRat p = ofRat q ↔ p = q :=
  WithBot.coe_inj.trans WithTop.coe_inj

def place? : F64 → Option Place
  | .nan => none
  | .inf true => some ⊥
  | .inf false => some ⊤
  | .negZero => some (.ofRat 0)
  | .fin q => some (.ofRat q)

theorem place?_eq_none {f : F64} : f.place? = none ↔ f = .nan := by
  rcases f with _ | (_ | _) | _ | _ <;> simp [place?]

theorem Place.compare_ofRat (p q : Rat) :
    compare (ofRat p) (ofRat q) = if p < q then .lt else if q < p then .gt else .eq := by
  split_ifs with hlt hgt
  · exact compare_lt_iff_lt.mpr (ofRat_lt.mpr hlt)
  · exact compare_gt_iff_gt.mpr (ofRat_lt.mpr hgt)
  · rw [le_antisymm (not_lt.mp hgt) (not_lt.mp hlt)]
    exact compare_eq_iff_eq.mpr rfl

theorem partialCmp_of_place {f g : F64} {x y : Place} (hf : f.place? = some x)
    (hg : g.place? = some y) : partialCmp f g = some (compare x y) := by
  rcases f with _ | (_ | _) | _ | p <;> rcases g with _ | (_ | _) | _ | q <;>
    simp only [place?, Option.some.injEq, reduceCtorEq] at hf hg <;> subst hf hg <;>
    simp only [partialCmp, Place.compare_ofRat] <;> rfl

theorem partialCmp_nan_left (g : F64) : partialCmp .nan g = none := rfl

theorem partialCmp_nan_right (f : F64) : partialCmp f .nan = none := by cases f <;> rfl

theorem ieeeEq_iff {f g : F64} : f.ieeeEq g = true ↔ ∃ x, f.place? = some x ∧ g.place? = some x := by
  rw [ieeeEq, beq_iff_eq]
  cases hf : f.place? with
  | none =>
      rw [place?_eq_none.mp hf, partialCmp_nan_left]
      simp
  | some x =>
      cases hg : g.place? with
      | none =>
          rw [place?_eq_none.mp hg, partialCmp_nan_right]
          simp
      | some y =>
          rw [partialCmp_of_place hf hg, Option.some.injEq, compare_eq_iff_eq]
          simp [eq_comm]

theorem partialCmp_getD_ne_eq {f g : F64} :
    (partialCmp f g).getD .eq ≠ .eq ↔ f ≠ .nan ∧ g ≠ .nan ∧ f.ieeeEq g = false := by
  by_cases hf : f = .nan
  · simp [hf, partialCmp_nan_left]
  by_cases hg : g = .nan
  · simp [hg, partialCmp_nan_right]
  obtain ⟨x, hx⟩ := Option.ne_none_iff_exists'.mp (mt place?_eq_none.mp hf)
  obtain ⟨y, hy⟩ := Option.ne_none_iff_exists'.mp (mt place?_eq_none.mp hg)
  simp [ieeeEq, partialCmp_of_place hx hy, hf, hg]

/-! ### Rounding integers -/

theorem roundDiv_mul (m : Nat) {d : Nat} (hd : 0 < d) : roundDiv (m * d) d = m := by
  simp [roundDiv, Nat.mul_div_cancel _ hd, hd]

theorem roundDiv_mono {n n' : Nat} (d : Nat) (h : n ≤ n') : roundDiv n d ≤ roundDiv n' d := by
  have hquot : n / d ≤ n' / d := Nat.div_le_div_right h
  have hrem : n / d = n' / d → n % d ≤ n' % d := by
    intro heq
    have hn := Nat.div_add_mod n d
    have hn' := Nat.div_add_mod n' d
    rw [heq] at hn
    omega
  simp only [roundDiv]
  split_ifs <;> omega

theorem round_of_ne_zero (neg : Bool) {q : Rat} (hq : q ≠ 0) : round neg q = round false q := by
  rw [round, round, if_neg hq, if_neg hq]

/-- The natural number of 53 significant bits nearest to `n`, ties to even. -/
def roundNat (n : Nat) : Nat :=
  roundDiv n (2 ^ (Nat.log2 n - 52)) * 2 ^ (Nat.log2 n - 52)

theorem roundNat_of_le {n : Nat} (h : n ≤ 2 ^ 53) : roundNat n = n := by
  rcases h.lt_or_eq with hlt | rfl
  · have hlog : Nat.log2 n - 52 = 0 := by
      rcases Nat.eq_zero_or_pos n with rfl | hpos
      · rfl
      · have := (Nat.log2_lt hpos.ne').mpr hlt
        omega
    rw [roundNat, hlog, pow_zero, roundDiv_one, mul_one]
  · decide

/-- Rounding stays between the powers of two around the number. -/
theorem roundNat_bounds {n : Nat} (hn : n ≠ 0) :
    2 ^ Nat.log2 n ≤ roundNat n ∧ roundNat n ≤ 2 ^ (Nat.log2 n + 1) := by
  set s := Nat.log2 n - 52 with hs
  have hpos : 0 < 2 ^ s := Nat.two_pow_pos s
  have hpower : ∀ k, s ≤ k → roundDiv (2 ^ k) (2 ^ s) * 2 ^ s = 2 ^ k := by
    intro k hk
    rw [← Nat.sub_add_cancel hk, pow_add, roundDiv_mul _ hpos]
  constructor
  · rw [← hpower (Nat.log2 n) (Nat.sub_le _ _)]
    exact Nat.mul_le_mul_right _ (roundDiv_mono _ (Nat.log2_self_le hn))
  · rw [← hpower (Nat.log2 n + 1) (by omega)]
    exact Nat.mul_le_mul_right _ (roundDiv_mono _ (Nat.lt_log2_self).le)

theorem roundNat_mono {n n' : Nat} (h : n ≤ n') : roundNat n ≤ roundNat n' := by
  rcases Nat.eq_zero_or_pos n with rfl | hpos
  · exact Nat.zero_le _
  have hn' : n' ≠ 0 := by omega
  have hlog : Nat.log2 n ≤ Nat.log2 n' := by
    rw [Nat.le_log2 hn']
    exact (Nat.log2_self_le hpos.ne').trans h
  rcases hlog.lt_or_eq with hlt | heq
  · calc roundNat n ≤ 2 ^ (Nat.log2 n + 1) := (roundNat_bounds hpos.ne').2
      _ ≤ 2 ^ Nat.log2 n' := Nat.pow_le_pow_right two_pos hlt
      _ ≤ roundNat n' := (roundNat_bounds hn').1
  · rw [roundNat, roundNat, heq]
    exact Nat.mul_le_mul_right _ (roundDiv_mono _ h)

/-- The integer of 53 significant bits nearest to `i`, ties to even. -/
def nearestInt (i : Int) : Int := i.sign * roundNat i.natAbs

theorem nearestInt_of_le {i : Int} (h : i.natAbs ≤ 2 ^ 53) : nearestInt i = i := by
  rw [nearestInt, roundNat_of_le h, Int.sign_mul_natAbs]

/-- An integer that is not zero is rounded to the nearest one, whatever the sign of a zero would be. -/
theorem round_eq_nearestInt {neg : Bool} {i : Int} (hi : i ≠ 0) (h : i.natAbs < 2 ^ 128) :
    round neg i = .fin (nearestInt i) := by
  have hn : i.natAbs ≠ 0 := Int.natAbs_ne_zero.mpr hi
  by_cases hsmall : i.natAbs < 2 ^ 53
  · rw [round_of_ne_zero neg (Int.cast_ne_zero.mpr hi), round_intCast hsmall,
      nearestInt_of_le hsmall.le]
  have hlog : 53 ≤ Nat.log2 i.natAbs := (Nat.le_log2 hn).mpr (not_lt.mp hsmall)
  have hlog' : Nat.log2 i.natAbs < 128 := (Nat.log2_lt hn).mpr h
  have he : max (floorLog2 i.natAbs 1 - 52) (-1074) = ((Nat.log2 i.natAbs - 52 : Nat) : Int) := by
    rw [floorLog2_one hn]
    omega
  obtain ⟨hlow, hhigh⟩ := roundNat_bounds hn
  have hm : roundDiv i.natAbs (2 ^ (Nat.log2 i.natAbs - 52)) ≠ 0 := by
    intro hzero
    rw [roundNat, hzero, zero_mul] at hlow
    exact absurd (Nat.two_pow_pos _) (not_lt.mpr hlow)
  have hbound : ¬(2 : Rat) ^ 1024 ≤ (roundNat i.natAbs : Rat) := by
    have hle : (roundNat i.natAbs : Rat) ≤ (2 ^ (Nat.log2 i.natAbs + 1) : Nat) := Nat.cast_le.mpr hhigh
    rw [Nat.cast_pow, Nat.cast_ofNat] at hle
    exact not_le.mpr (hle.trans_lt (pow_lt_pow_right₀ one_lt_two (by omega)))
  simp only [round, Rat.num_intCast, Rat.den_intCast, Int.cast_eq_zero, hi, if_false, he,
    Int.natCast_nonneg, if_true, Int.toNat_natCast, one_mul, hm]
  rw [← roundNat, if_neg hbound, nearestInt]
  rcases lt_or_gt_of_ne hi with hneg | hpos
  · rw [if_pos (Int.cast_lt_zero.mpr hneg), Int.sign_eq_neg_one_of_neg hneg]
    push_cast
    ring_nf
  · rw [if_neg (by exact_mod_cast hpos.not_gt), Int.sign_eq_one_of_pos hpos]
    push_cast
    ring_nf

theorem ofInt_eq_nearestInt {i : Int} (h : i.natAbs < 2 ^ 64) : ofInt i = .fin (nearestInt i) := by
  by_cases hi : i = 0
  · rw [hi]
    rfl
  · exact round_eq_nearestInt hi (h.trans (Nat.pow_lt_pow_right one_lt_two (by decide)))

theorem place?_ofInt {i : Int} (h : i.natAbs < 2 ^ 64) :
    (ofInt i).place? = some (.ofRat (nearestInt i)) := by
  rw [ofInt_eq_nearestInt h]
  rfl

theorem nearestInt_mono {i j : Int} (h : i ≤ j) : nearestInt i ≤ nearestInt j := by
  rcases lt_trichotomy i 0 with hi | rfl | hi
  · rcases lt_trichotomy j 0 with hj | rfl | hj
    · have := roundNat_mono (by omega : j.natAbs ≤ i.natAbs)
      simp only [nearestInt, Int.sign_eq_neg_one_of_neg hi, Int.sign_eq_neg_one_of_neg hj]
      omega
    · simp only [nearestInt, Int.sign_eq_neg_one_of_neg hi, Int.sign_zero]
      omega
    · simp only [nearestInt, Int.sign_eq_neg_one_of_neg hi, Int.sign_eq_one_of_pos hj]
      omega
  · rw [nearestInt, Int.sign_zero, zero_mul]
    exact mul_nonneg (Int.sign_nonneg_iff.mpr h) (Int.natCast_nonneg _)
  · have := roundNat_mono (by omega : i.natAbs ≤ j.natAbs)
    simp only [nearestInt, Int.sign_eq_one_of_pos hi, Int.sign_eq_one_of_pos (hi.trans_le h)]
    omega

end F64
