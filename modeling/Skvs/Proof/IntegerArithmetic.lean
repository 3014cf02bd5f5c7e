import Skvs.Expr
import Skvs.Lib.IntegerRounding

/-!
# Adding, subtracting and multiplying integers

Arithmetic on two INTEGERs is done on doubles: both are rounded, what the operator makes of them is
rounded again, and the outcome is an INTEGER again if it is smaller than 2 ^ 63 in magnitude. So the
exact result comes out if it has at most 53 significant bits and what rounding did to the operands is
rounded away; for a product the first is enough.
-/

namespace Skvs

open F64 (nearestInt roundingError Representable)

/-! ### Casting back -/

theorem i64MaxAsF64_eq : i64MaxAsF64 = .fin ((2 ^ 63 : Int) : Rat) := by
  have hmax : Int64.maxValue.toInt.natAbs < 2 ^ 64 := by decide
  have hnearest : nearestInt Int64.maxValue.toInt = 2 ^ 63 := by decide
  rw [i64MaxAsF64, F64.ofInt_eq_nearestInt hmax, hnearest]

theorem abs_intCast (v : Int) : F64.abs (.fin v) = .fin ((v.natAbs : Int) : Rat) := by
  rw [F64.abs, F64.isNeg, F64.neg]
  rcases lt_trichotomy v 0 with hneg | rfl | hpos
  · rw [if_pos (by simpa using hneg), if_neg (by exact_mod_cast hneg.ne), ← Int.cast_neg,
      Int.ofNat_natAbs_of_nonpos hneg.le]
  · rfl
  · rw [if_neg (by simpa using hpos.le), Int.natAbs_of_nonneg hpos.le]

theorem f64AsI64_intCast {v : Int} (h : v.natAbs < 2 ^ 63) : f64AsI64 (.fin v) = .ofInt v := by
  rw [f64AsI64, F64.toIntSat, F64.truncRat_intCast, Int64.toInt_minValue, Int64.toInt_maxValue]
  congr 1
  omega

theorem abs_lt_i64Max (v : Int) :
    (F64.partialCmp (F64.abs (.fin v)) i64MaxAsF64 == some .lt) = decide (v.natAbs < 2 ^ 63) := by
  rw [abs_intCast, i64MaxAsF64_eq, F64.partialCmp]
  by_cases h : v.natAbs < 2 ^ 63
  · rw [if_pos (by exact_mod_cast h), decide_eq_true h]
    rfl
  · rw [if_neg (by exact_mod_cast h), decide_eq_false h]
    split <;> rfl

theorem fract_isZero_intCast (v : Int) : (F64.fract (.fin v)).isZero = true := by
  rw [F64.fract_intCast]
  rfl

theorem numericResult_intCast (v : Int) :
    numericResult (.fin v) true = if v.natAbs < 2 ^ 63 then .integer (.ofInt v) else .real (.fin v) := by
  simp only [numericResult, fract_isZero_intCast, abs_lt_i64Max, Bool.and_self, Bool.true_and,
    decide_eq_true_eq]
  split
  · next h => rw [f64AsI64_intCast h]
  · rfl

theorem numericResult_negZero : numericResult .negZero true = .integer 0 := by
  have hfract : (F64.fract .negZero).isZero = true := fract_isZero_intCast 0
  have hless : (F64.partialCmp (F64.abs .negZero) i64MaxAsF64 == some .lt) = true := abs_lt_i64Max 0
  have hcast : f64AsI64 .negZero = 0 := by decide
  simp only [numericResult, hfract, hless, hcast, Bool.and_self, if_true]

/-- Both zeros are cast back to the integer 0. -/
theorem numericResult_round (neg : Bool) {i : Int} (h : i.natAbs < 2 ^ 128) :
    numericResult (F64.round neg i) true = numericResult (.fin (nearestInt i)) true := by
  by_cases hi : i = 0
  · have hzero : nearestInt 0 = 0 := by decide
    rw [hi, hzero, Int.cast_zero, F64.round, if_pos rfl]
    cases neg
    · rfl
    · exact numericResult_negZero.trans (numericResult_intCast 0).symm
  · rw [F64.round_eq_nearestInt hi h]

theorem numericResult_eq_integer_iff {v : Int} {c : Int64} :
    numericResult (.fin v) true = .integer c ↔ v = c.toInt ∧ c ≠ Int64.minValue := by
  have hc := c.le_toInt
  have hc' := c.toInt_lt
  have hmin : c ≠ Int64.minValue ↔ c.toInt ≠ -2 ^ 63 := by
    rw [ne_eq, ← Int64.toInt_inj, Int64.toInt_minValue]
  rw [numericResult_intCast, hmin]
  split
  case isTrue h =>
    rw [Value.integer.injEq, ← Int64.toInt_inj, Int64.toInt_ofInt_of_le (by omega) (by omega)]
    omega
  case isFalse h =>
    constructor
    · exact fun heq => nomatch heq
    · omega

/-! ### The operators -/

/-- What an operator makes of two integers. -/
def exactResult (op : BinaryOperator) (a b : Int) : Option Int :=
  match op with
  | .plus => some (a + b)
  | .minus => some (a - b)
  | .multiply => some (a * b)
  | _ => none

theorem natAbs_nearestInt_le (a : Int64) : (nearestInt a.toInt).natAbs ≤ 2 ^ 63 := by
  have hle : nearestInt a.toInt ≤ nearestInt (2 ^ 63) := F64.nearestInt_mono a.toInt_lt.le
  have hge : nearestInt (-2 ^ 63) ≤ nearestInt a.toInt := F64.nearestInt_mono a.le_toInt
  have hmax : nearestInt (2 ^ 63) = 2 ^ 63 := by decide
  have hmin : nearestInt (-2 ^ 63) = -2 ^ 63 := by decide
  omega

/-- The operands are rounded, and then what the operator makes of them. -/
theorem arithmetic_integers {op : BinaryOperator} {a b : Int64} {r : Int}
    (hop : exactResult op (nearestInt a.toInt) (nearestInt b.toInt) = some r) :
    arithmetic (.integer a) op (.integer b) = numericResult (.fin (nearestInt r)) true := by
  have hround : ∀ c : Int64, F64.ofInt c.toInt = .fin (nearestInt c.toInt) := by
    intro c
    have := c.le_toInt
    have := c.toInt_lt
    exact F64.ofInt_eq_nearestInt (by omega)
  have ha := natAbs_nearestInt_le a
  have hb := natAbs_nearestInt_le b
  simp only [arithmetic, toF64, hround]
  cases op <;> simp only [exactResult, Option.some.injEq, reduceCtorEq] at hop <;> subst hop
  case plus =>
    rw [← numericResult_round false (by omega), Int.cast_add]
    rfl
  case minus =>
    rw [← numericResult_round false (by omega), Int.cast_sub, F64.sub_fin]
    rfl
  case multiply =>
    have hproduct : (nearestInt a.toInt * nearestInt b.toInt).natAbs < 2 ^ 128 := by
      rw [Int.natAbs_mul]
      exact (Nat.mul_le_mul ha hb).trans_lt (by decide)
    rw [← numericResult_round ((F64.fin (nearestInt a.toInt)).isNeg !=
      (F64.fin (nearestInt b.toInt)).isNeg) hproduct, Int.cast_mul]
    rfl

/-- What rounding does to the operands is rounded away, and the exact result is a double. -/
def RoundsToExact (op : BinaryOperator) (a b : Int) : Prop :=
  match op with
  | .plus => nearestInt (a + b + (roundingError a + roundingError b)) = a + b
  | .minus => nearestInt (a - b + (roundingError a - roundingError b)) = a - b
  | .multiply => Representable (a * b)
  | _ => False

/-- A product that has at most 53 significant bits has such factors, unless it is zero. -/
theorem nearestInt_mul_iff {a b : Int} :
    nearestInt (nearestInt a * nearestInt b) = a * b ↔ Representable (a * b) := by
  constructor
  · intro h
    rw [← h]
    exact F64.representable_nearestInt _
  · intro h
    have hfactors : nearestInt a * nearestInt b = a * b := by
      by_cases hzero : a * b = 0
      · rw [hzero]
        rcases mul_eq_zero.mp hzero with rfl | rfl
        · exact zero_mul _
        · exact mul_zero _
      · rw [F64.nearestInt_of_representable (h.of_dvd hzero (dvd_mul_right a b)),
          F64.nearestInt_of_representable (h.of_dvd hzero (dvd_mul_left b a))]
    rw [hfactors, F64.nearestInt_of_representable h]

theorem arithmetic_integers_iff {op : BinaryOperator} {a b c : Int64}
    (hop : exactResult op a.toInt b.toInt = some c.toInt) :
    arithmetic (.integer a) op (.integer b) = .integer c ↔
      RoundsToExact op a.toInt b.toInt ∧ c ≠ Int64.minValue := by
  cases op <;> simp only [exactResult, Option.some.injEq, reduceCtorEq] at hop
  case plus =>
    rw [arithmetic_integers rfl, numericResult_eq_integer_iff, ← hop, RoundsToExact]
    rw [F64.nearestInt_eq_add a.toInt, F64.nearestInt_eq_add b.toInt, add_add_add_comm]
  case minus =>
    rw [arithmetic_integers rfl, numericResult_eq_integer_iff, ← hop, RoundsToExact]
    rw [F64.nearestInt_eq_add a.toInt, F64.nearestInt_eq_add b.toInt, add_sub_add_comm]
  case multiply =>
    rw [arithmetic_integers rfl, numericResult_eq_integer_iff, ← hop, RoundsToExact,
      nearestInt_mul_iff]

/-- Of operands that are doubles themselves, only the result may be rounded. -/
theorem roundsToExact_iff {op : BinaryOperator} {a b r : Int} (hop : exactResult op a b = some r)
    (ha : Representable a) (hb : Representable b) : RoundsToExact op a b ↔ Representable r := by
  have hea := F64.roundingError_of_representable ha
  have heb := F64.roundingError_of_representable hb
  cases op <;> simp only [exactResult, Option.some.injEq, reduceCtorEq] at hop <;> subst hop
  case plus => rw [RoundsToExact, hea, heb, add_zero, add_zero, F64.nearestInt_eq_self_iff]
  case minus => rw [RoundsToExact, hea, heb, sub_zero, add_zero, F64.nearestInt_eq_self_iff]
  case multiply => rfl

/-- **Integers added, subtracted and multiplied.** Where the exact result is an `i64`, it is the value
of the expression exactly if it is not `i64::MIN` and, for a product, has at most 53 significant bits;
for a sum or a difference, if what rounding does to the operands is rounded away. Where the operands
have at most 53 significant bits, the result has to have no more. -/
theorem eval_integers_exact_iff [Externals] (ctx : EvalCtx) (params : List Value) (left right : Expr)
    (op : BinaryOperator) (i j k : Nat) (a b c : Int64)
    (hleft : eval ctx params left i = (.integer a, j))
    (hright : eval ctx params right j = (.integer b, k))
    (hexact : exactResult op a.toInt b.toInt = some c.toInt) :
    (evalFrom ctx params (.binaryOp left op right) i = .integer c ↔
        RoundsToExact op a.toInt b.toInt ∧ c ≠ Int64.minValue) ∧
      (Representable a.toInt → Representable b.toInt →
        (RoundsToExact op a.toInt b.toInt ↔ Representable c.toInt)) := by
  refine ⟨?_, roundsToExact_iff hexact⟩
  have heval : evalFrom ctx params (.binaryOp left op right) i =
      arithmetic (.integer a) op (.integer b) := by
    cases op <;> simp only [exactResult, reduceCtorEq] at hexact
    all_goals
      change ((evalBinaryOp (eval ctx params left) _ (eval ctx params right)) i).1 = _
      simp only [evalBinaryOp, bind, StateT.bind, hleft, hright]
      rfl
  rw [heval]
  exact arithmetic_integers_iff hexact

/-! ### Where it fails -/

namespace Sample

/-- `a op b` for two numbers as they are written. -/
def onNumbers (a : String) (op : BinaryOperator) (b : String) : Expr :=
  .binaryOp (.value (.number a)) op (.value (.number b))

end Sample

theorem evalFrom_onNumbers [Externals] {a b : String} {op : BinaryOperator} {i j : Int64}
    (hop : op = .plus ∨ op = .multiply) (ha : parseNumber a = .integer i)
    (hb : parseNumber b = .integer j) :
    evalFrom .noRow [] (Sample.onNumbers a op b) 0 = arithmetic (.integer i) op (.integer j) := by
  rw [← ha, ← hb]
  rcases hop with rfl | rfl <;> rfl

/-- `9007199254740993 + 0` is 9007199254740992, and `9223372036854775807 * 1` is no INTEGER. -/
theorem integers_rounded :
    letI := Externals.ofTexts [] []
    exactResult .plus 9007199254740993 0 = some 9007199254740993 ∧
      evalFrom .noRow [] (Sample.onNumbers "9007199254740993" .plus "0") 0 =
        .integer 9007199254740992 ∧
      exactResult .multiply 9223372036854775807 1 = some 9223372036854775807 ∧
      evalFrom .noRow [] (Sample.onNumbers "9223372036854775807" .multiply "1") 0 =
        .real (.fin ((2 ^ 63 : Int) : Rat)) := by
  let _ := Externals.ofTexts [] []
  have hplus : arithmetic (.integer 9007199254740993) .plus (.integer 0) =
      .integer 9007199254740992 := by
    rw [arithmetic_integers rfl, numericResult_intCast, if_pos (by decide)]
    decide
  have hmultiply : arithmetic (.integer 9223372036854775807) .multiply (.integer 1) =
      .real (.fin ((2 ^ 63 : Int) : Rat)) := by
    have hnearest : nearestInt (nearestInt (9223372036854775807 : Int64).toInt *
        nearestInt (1 : Int64).toInt) = 2 ^ 63 := by
      decide
    rw [arithmetic_integers rfl, numericResult_intCast, hnearest, if_neg (by decide)]
  refine ⟨by decide, ?_, by decide, ?_⟩
  · exact (evalFrom_onNumbers (.inl rfl) (by decide) (by decide)).trans hplus
  · exact (evalFrom_onNumbers (.inr rfl) (by decide) (by decide)).trans hmultiply

/-- `? * ?` with 3 and 5. -/
theorem small_product_exact :
    letI := Externals.ofTexts [] []
    evalFrom .noRow [.integer 3, .integer 5]
      (.binaryOp (.value (.placeholder "?")) .multiply (.value (.placeholder "?"))) 0 =
        .integer 15 := by
  let _ := Externals.ofTexts [] []
  have hproduct : Representable ((3 : Int64).toInt * (5 : Int64).toInt) :=
    F64.representable_of_le (by decide)
  exact (eval_integers_exact_iff .noRow [.integer 3, .integer 5] (.value (.placeholder "?"))
    (.value (.placeholder "?")) .multiply 0 1 2 3 5 15 rfl rfl (by decide)).1.mpr
      ⟨hproduct, by decide⟩

end Skvs
