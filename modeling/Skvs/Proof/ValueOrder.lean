import Skvs.Proof.FastPath
import Skvs.Lib.FloatOrder

/-!
# The order of values

`compare` ranks the types and compares numbers by their places on the line of doubles, except that
two INTEGERs are compared as they are. It is a total preorder on the values that it can tell apart
this way; NaN, which ties with every number, and INTEGERs that round to one REAL break it.
-/

namespace Skvs

namespace Value

/-- What a sort or an ordered map relies on, of these three values. -/
structure Ordered (a b c : Value) : Prop where
  swap : b.compare a = (a.compare b).swap
  trans : a.compare b ≠ .gt → b.compare c ≠ .gt → a.compare c ≠ .gt
  congr : a.compare b = .eq → a.compare c = b.compare c

/-- Two numbers other than NaN that are not the same: INTEGERs as such, any other two as doubles. -/
def Unequal : Value → Value → Prop
  | .integer i, .integer j => i ≠ j
  | .integer i, .real g => g ≠ .nan ∧ (F64.ofInt i.toInt).ieeeEq g = false
  | .real f, .integer j => f ≠ .nan ∧ f.ieeeEq (F64.ofInt j.toInt) = false
  | .real f, .real g => f ≠ .nan ∧ g ≠ .nan ∧ f.ieeeEq g = false
  | _, _ => False

/-- NaN does not stand between different numbers, and no REAL is what different INTEGERs round to. -/
structure Comparable (a b c : Value) : Prop where
  left : a = .real .nan → ¬b.Unequal c
  middle : b = .real .nan → ¬a.Unequal c
  exact : ∀ i k f, a = .integer i ∧ b = .real f ∨ a = .real f ∧ b = .integer i → c = .integer k →
    (F64.ofInt i.toInt).ieeeEq f = true → (F64.ofInt k.toInt).ieeeEq f = true → i = k

/-! ### Values of different types -/

theorem compare_of_typeRank_lt {a b : Value} (h : a.typeRank < b.typeRank) : a.compare b = .lt := by
  cases a <;> cases b <;> first | rfl | simp [typeRank] at h

theorem compare_of_typeRank_gt {a b : Value} (h : b.typeRank < a.typeRank) : a.compare b = .gt := by
  rw [compare_swap b a, compare_of_typeRank_lt h]
  rfl

/-! ### Numbers -/

/-- Where a number stands on the line of doubles; NaN stands nowhere. -/
def place? : Value → Option F64.Place
  | .integer i => (F64.ofInt i.toInt).place?
  | .real f => f.place?
  | _ => none

theorem place?_integer (i : Int64) :
    (Value.integer i).place? = some (.ofRat (F64.nearestInt i.toInt)) := by
  have hlow := i.le_toInt
  have hhigh := i.toInt_lt
  exact F64.place?_ofInt (by omega)

theorem eq_nan_of_place? {v : Value} (hrank : v.typeRank = 1) (h : v.place? = none) :
    v = .real .nan := by
  cases v with
  | integer i => rw [place?_integer] at h; exact nomatch h
  | real f => rw [F64.place?_eq_none.mp h]
  | _ => exact absurd hrank (by simp [typeRank])

theorem compare_nan_left {v : Value} (hrank : v.typeRank = 1) : (Value.real .nan).compare v = .eq := by
  cases v <;> first | rfl | simp [typeRank] at hrank

theorem compare_nan_right {v : Value} (hrank : v.typeRank = 1) :
    v.compare (.real .nan) = .eq := by
  rw [compare_swap (.real .nan) v, compare_nan_left hrank]
  rfl

/-- Rounding keeps the order of INTEGERs, except that it may let them tie. -/
theorem place_le_of_integer_le {i j : Int64} {x y : F64.Place}
    (hi : (Value.integer i).place? = some x) (hj : (Value.integer j).place? = some y) (hle : i ≤ j) :
    x ≤ y := by
  rw [place?_integer, Option.some.injEq] at hi hj
  subst hi hj
  have hmono := F64.nearestInt_mono (Int64.le_iff_toInt_le.mp hle)
  exact F64.Place.ofRat_le.mpr (Int.cast_le.mpr hmono)

/-- Numbers at different places compare as the places do. -/
theorem compare_of_place_ne {a b : Value} {x y : F64.Place} (ha : a.place? = some x)
    (hb : b.place? = some y) (hne : x ≠ y) : a.compare b = Ord.compare x y := by
  cases a <;> cases b <;> simp only [place?, reduceCtorEq] at ha hb
  case integer.integer i j =>
      rcases lt_or_gt_of_ne hne with hlt | hgt
      · rw [compare_lt_iff_lt.mpr hlt]
        refine Std.compare_eq_lt.mpr (Int64.not_le.mp fun hle => ?_)
        exact absurd (place_le_of_integer_le hb ha hle) (not_le.mpr hlt)
      · rw [compare_gt_iff_gt.mpr hgt]
        refine Std.compare_eq_gt.mpr (Int64.not_le.mp fun hle => ?_)
        exact absurd (place_le_of_integer_le ha hb hle) (not_le.mpr hgt)
  all_goals rw [Value.compare, F64.partialCmp_of_place ha hb, Option.getD_some]

/-- Numbers at one place tie, unless both are INTEGERs. -/
theorem compare_of_place_eq {a b : Value} {x : F64.Place} (ha : a.place? = some x)
    (hb : b.place? = some x) (hreal : a.isReal = true ∨ b.isReal = true) : a.compare b = .eq := by
  cases a <;> cases b <;> simp only [place?, reduceCtorEq] at ha hb
  case integer.integer i j => simp [isReal] at hreal
  all_goals
    rw [Value.compare, F64.partialCmp_of_place ha hb, Option.getD_some]
    exact compare_eq_iff_eq.mpr rfl

theorem ofInt_ne_nan (i : Int64) : F64.ofInt i.toInt ≠ .nan := by
  intro hnan
  have hplace := place?_integer i
  rw [place?, hnan] at hplace
  exact nomatch hplace

theorem unequal_iff {a b : Value} (ha : a.typeRank = 1) (hb : b.typeRank = 1) :
    a.Unequal b ↔ a.compare b ≠ .eq := by
  cases a <;> cases b <;> simp only [typeRank, reduceCtorEq, Nat.reduceEqDiff] at ha hb
  case integer.integer i j => exact (not_congr Std.compare_eq_iff_eq).symm
  all_goals
    rw [Value.compare, F64.partialCmp_getD_ne_eq]
    simp [Unequal, ofInt_ne_nan]

theorem not_unequal {a b : Value} (h : a.typeRank ≠ 1 ∨ b.typeRank ≠ 1) : ¬a.Unequal b := by
  cases a <;> cases b <;> simp [typeRank, Unequal] at h ⊢

/-! ### Three values -/

/-- Values of different types are ordered, whatever the third one is. -/
theorem ordered_of_typeRank_ne {a b c : Value}
    (h : ¬(a.typeRank = b.typeRank ∧ b.typeRank = c.typeRank)) : Ordered a b c where
  swap := compare_swap a b
  trans := by
    intro hab hbc
    have hle : ∀ {x y : Value}, x.compare y ≠ .gt → x.typeRank ≤ y.typeRank := fun hxy =>
      not_lt.mp (mt compare_of_typeRank_gt hxy)
    have hlt : a.typeRank < c.typeRank := by
      have := hle hab
      have := hle hbc
      omega
    rw [compare_of_typeRank_lt hlt]
    exact nofun
  congr := by
    intro hab
    have heq : a.typeRank = b.typeRank := by
      rcases lt_trichotomy a.typeRank b.typeRank with hlt | heq | hgt
      · rw [compare_of_typeRank_lt hlt] at hab
        exact nomatch hab
      · exact heq
      · rw [compare_of_typeRank_gt hgt] at hab
        exact nomatch hab
    rcases lt_or_gt_of_ne (fun hbc => h ⟨heq, hbc⟩) with hlt | hgt
    · rw [compare_of_typeRank_lt hlt, compare_of_typeRank_lt (heq ▸ hlt)]
    · rw [compare_of_typeRank_gt hgt, compare_of_typeRank_gt (heq ▸ hgt)]

/-- The values other than numbers are ordered within their type. -/
theorem ordered_of_typeRank_ne_one {a b c : Value} (hab : a.typeRank = b.typeRank)
    (hbc : b.typeRank = c.typeRank) (hrank : c.typeRank ≠ 1) : Ordered a b c where
  swap := compare_swap a b
  trans := by
    cases a <;> cases b <;> cases c <;> simp [typeRank] at hab hbc hrank <;>
      simp only [compare, ← Ordering.isLE_iff_ne_gt]
    · simp
    · exact Std.TransCmp.isLE_trans
    · exact Std.TransCmp.isLE_trans
  congr := by
    cases a <;> cases b <;> cases c <;> simp [typeRank] at hab hbc hrank <;>
      simp only [compare, Std.compare_eq_iff_eq]
    · simp
    · exact fun h => by rw [h]
    · exact fun h => by rw [h]

theorem typeRank_of_unequal {a b : Value} (h : a.Unequal b) : a.typeRank = 1 ∧ b.typeRank = 1 := by
  by_contra hnot
  rw [not_and_or] at hnot
  exact not_unequal hnot h

/-- An INTEGER and a REAL that equals what it rounds to stand at one place. -/
theorem place_of_rounded {i : Int64} {f : F64} (h : (F64.ofInt i.toInt).ieeeEq f = true) :
    ∃ x, (Value.integer i).place? = some x ∧ (Value.real f).place? = some x :=
  F64.ieeeEq_iff.mp h

theorem Ordered.comparable {a b c : Value} (h : Ordered a b c) : Comparable a b c where
  left := by
    rintro rfl hne
    obtain ⟨hb, hc⟩ := typeRank_of_unequal hne
    refine (unequal_iff hb hc).mp hne ?_
    rw [← h.congr (compare_nan_left hb), compare_nan_left hc]
  middle := by
    rintro rfl hne
    obtain ⟨ha, hc⟩ := typeRank_of_unequal hne
    refine (unequal_iff ha hc).mp hne ?_
    rw [h.congr (compare_nan_right ha), compare_nan_left hc]
  exact := by
    rintro i k f hab rfl hi hk
    obtain ⟨x, hix, hfx⟩ := place_of_rounded hi
    obtain ⟨y, hky, hfy⟩ := place_of_rounded hk
    obtain rfl : x = y := Option.some.inj (hfx.symm.trans hfy)
    have hreal : (Value.real f).isReal = true := rfl
    have htie : (Value.integer i).compare (.integer k) = .eq := by
      rcases hab with ⟨rfl, rfl⟩ | ⟨rfl, rfl⟩
      · rw [h.congr (compare_of_place_eq hix hfx (.inr hreal)),
          compare_of_place_eq hfx hky (.inl hreal)]
      · rw [← h.congr (compare_of_place_eq hfx hix (.inl hreal)),
          compare_of_place_eq hfx hky (.inl hreal)]
    exact Std.compare_eq_iff_eq.mp htie

section Places

variable {a b c : Value} {x y z : F64.Place} (ha : a.place? = some x) (hb : b.place? = some y)
  (hc : c.place? = some z)

theorem place_le_of_compare (ha : a.place? = some x) (hb : b.place? = some y)
    (hab : a.compare b ≠ .gt) : x ≤ y := by
  refine not_lt.mp fun hlt => hab ?_
  rw [compare_of_place_ne ha hb hlt.ne', compare_gt_iff_gt.mpr hlt]

theorem place_eq_of_compare (ha : a.place? = some x) (hb : b.place? = some y)
    (hab : a.compare b = .eq) : x = y := by
  by_contra hne
  rw [compare_of_place_ne ha hb hne, compare_eq_iff_eq] at hab
  exact hne hab

include ha hb hc

theorem Comparable.trans_of_places (h : Comparable a b c) (hab : a.compare b ≠ .gt)
    (hbc : b.compare c ≠ .gt) : a.compare c ≠ .gt := by
  have hxy := place_le_of_compare ha hb hab
  have hyz := place_le_of_compare hb hc hbc
  rcases (hxy.trans hyz).lt_or_eq with hlt | rfl
  · rw [compare_of_place_ne ha hc hlt.ne, compare_lt_iff_lt.mpr hlt]
    exact nofun
  obtain rfl : x = y := le_antisymm hxy hyz
  by_cases hreal : a.isReal = true ∨ c.isReal = true
  · rw [compare_of_place_eq ha hc hreal]
    exact nofun
  cases a <;> cases c <;> simp only [isReal, place?, reduceCtorEq, or_self, or_true, true_or,
    not_true_eq_false] at hreal ha hc
  case integer.integer i k =>
      cases b <;> simp only [place?, reduceCtorEq] at hb
      case integer j =>
          simp only [compare, ← Ordering.isLE_iff_ne_gt] at hab hbc ⊢
          exact Std.TransCmp.isLE_trans hab hbc
      case real f =>
          have hik : i = k := h.exact i k f (.inl ⟨rfl, rfl⟩) rfl (F64.ieeeEq_iff.mpr ⟨x, ha, hb⟩)
            (F64.ieeeEq_iff.mpr ⟨x, hc, hb⟩)
          rw [hik, compare_self]
          exact nofun

theorem Comparable.congr_of_places (h : Comparable a b c) (hab : a.compare b = .eq) :
    a.compare c = b.compare c := by
  obtain rfl := place_eq_of_compare ha hb hab
  rcases ne_or_eq x z with hne | rfl
  · rw [compare_of_place_ne ha hc hne, compare_of_place_ne hb hc hne]
  by_cases hreal : c.isReal = true
  · rw [compare_of_place_eq ha hc (.inr hreal), compare_of_place_eq hb hc (.inr hreal)]
  cases c <;> simp only [isReal, place?, reduceCtorEq, not_true_eq_false] at hreal hc
  case integer k =>
      cases a <;> cases b <;> simp only [place?, reduceCtorEq] at ha hb
      case integer.integer i j => rw [Std.compare_eq_iff_eq.mp hab]
      case integer.real i f =>
          have hik : i = k := h.exact i k f (.inl ⟨rfl, rfl⟩) rfl (F64.ieeeEq_iff.mpr ⟨x, ha, hb⟩)
            (F64.ieeeEq_iff.mpr ⟨x, hc, hb⟩)
          rw [hik, compare_self, ← hik, compare_swap, hab]
          rfl
      case real.integer f i =>
          have hik : i = k := h.exact i k f (.inr ⟨rfl, rfl⟩) rfl (F64.ieeeEq_iff.mpr ⟨x, hb, ha⟩)
            (F64.ieeeEq_iff.mpr ⟨x, hc, ha⟩)
          rw [← hik, compare_self, hab]
      case real.real f g =>
          rw [compare_of_place_eq (a := .real f) (b := .integer k) ha hc (.inl rfl),
            compare_of_place_eq (a := .real g) (b := .integer k) hb hc (.inl rfl)]

end Places

theorem Comparable.ordered_of_numbers {a b c : Value} (ha : a.typeRank = 1) (hb : b.typeRank = 1)
    (hc : c.typeRank = 1) (h : Comparable a b c) : Ordered a b c := by
  cases hx : a.place? with
  | none =>
      obtain rfl := eq_nan_of_place? ha hx
      have hbc : b.compare c = .eq := not_not.mp (mt (unequal_iff hb hc).mpr (h.left rfl))
      refine ⟨compare_swap _ b, fun _ _ => ?_, fun _ => ?_⟩ <;> rw [compare_nan_left hc]
      · exact nofun
      · exact hbc.symm
  | some x =>
      cases hy : b.place? with
      | none =>
          obtain rfl := eq_nan_of_place? hb hy
          have hac : a.compare c = .eq := not_not.mp (mt (unequal_iff ha hc).mpr (h.middle rfl))
          refine ⟨compare_swap a _, fun _ _ => ?_, fun _ => ?_⟩ <;> rw [hac]
          · exact nofun
          · rw [compare_nan_left hc]
      | some y =>
          cases hz : c.place? with
          | none =>
              obtain rfl := eq_nan_of_place? hc hz
              refine ⟨compare_swap a b, fun _ _ => ?_, fun _ => ?_⟩ <;> rw [compare_nan_right ha]
              · exact nofun
              · rw [compare_nan_right hb]
          | some z =>
              exact ⟨compare_swap a b, h.trans_of_places hx hy hz, h.congr_of_places hx hy hz⟩

/-- Three values are ordered as a sort or an ordered map needs them exactly if NaN is not between
different numbers and no REAL is the rounded value of different INTEGERs among them. -/
theorem ordered_iff_comparable (a b c : Value) : Ordered a b c ↔ Comparable a b c := by
  refine ⟨Ordered.comparable, fun h => ?_⟩
  by_cases hrank : a.typeRank = b.typeRank ∧ b.typeRank = c.typeRank
  · by_cases hone : c.typeRank = 1
    · exact h.ordered_of_numbers (hrank.1.trans (hrank.2.trans hone)) (hrank.2.trans hone) hone
    · exact ordered_of_typeRank_ne_one hrank.1 hrank.2 hone
  · exact ordered_of_typeRank_ne hrank

/-- 1 ≤ NaN ≤ 0, and 2 ^ 53 + 1 ties with the REAL 2 ^ 53, which ties with the INTEGER below. -/
theorem not_ordered_around_nan :
    ¬Ordered (.integer 1) (.real .nan) (.integer 0) ∧
    ¬Ordered (.integer 9007199254740993) (.real (.fin 9007199254740992))
      (.integer 9007199254740992) := by
  constructor
  · intro h
    have hne : (Value.integer 1).Unequal (.integer 0) := show (1 : Int64) ≠ 0 by decide
    exact h.comparable.middle rfl hne
  · intro h
    have hrounded : ∀ i : Int, i.natAbs < 2 ^ 64 → F64.nearestInt i = 9007199254740992 →
        (F64.ofInt i).ieeeEq (.fin 9007199254740992) = true := by
      intro i hi hnear
      rw [F64.ofInt_eq_nearestInt hi, hnear]
      decide
    have hsame := h.comparable.exact 9007199254740993 9007199254740992 (.fin 9007199254740992)
      (.inl ⟨rfl, rfl⟩) rfl (hrounded _ (by decide) (by decide)) (hrounded _ (by decide) (by decide))
    exact absurd hsame (by decide)

/-! ### Equality and order -/

/-- An INTEGER that is a double, a finite REAL, or no number. -/
def Exact : Value → Prop
  | .integer i => i.toInt.natAbs ≤ 2 ^ 53
  | .real f => f.toRat?.isSome = true
  | _ => True

/-- One value is an INTEGER and the other a REAL of the same number. -/
def SameNumber : Value → Value → Prop
  | .integer i, .real f | .real f, .integer i => f.toRat? = some (i.toInt : Rat)
  | _, _ => False

theorem place?_of_toRat? {f : F64} {q : Rat} (h : f.toRat? = some q) :
    f.place? = some (.ofRat q) := by
  cases f <;> simp_all [F64.toRat?, F64.place?]

theorem place?_integer_of_exact {i : Int64} (h : (Value.integer i).Exact) :
    (Value.integer i).place? = some (.ofRat i.toInt) := by
  rw [place?_integer, F64.nearestInt_of_le h]

theorem compare_eq_of_exact {i : Int64} {f : F64} (hi : (Value.integer i).Exact)
    (hf : (Value.real f).Exact) :
    (Value.real f).compare (.integer i) = .eq ↔ f.toRat? = some (i.toInt : Rat) := by
  obtain ⟨q, hq⟩ := Option.isSome_iff_exists.mp hf
  rw [hq, Option.some.injEq]
  have hplace := place?_integer_of_exact hi
  constructor
  · intro heq
    have hsame := place_eq_of_compare (a := .real f) (place?_of_toRat? hq) hplace heq
    exact F64.Place.ofRat_inj.mp hsame
  · rintro rfl
    exact compare_of_place_eq (a := .real f) (place?_of_toRat? hq) hplace (.inl rfl)

/-- Values are equal exactly if they tie, unless they are one number of both types. -/
theorem partialEq_iff_compare {a b : Value} (ha : a.Exact) (hb : b.Exact) :
    (a.partialEq b = true ↔ a.compare b = .eq) ↔ ¬a.SameNumber b := by
  cases a <;> cases b
  case integer.real i f =>
      rw [compare_swap (.real f), Ordering.swap_eq_eq, compare_eq_of_exact ha hb]
      simp [partialEq, SameNumber]
  case real.integer f i =>
      rw [compare_eq_of_exact hb ha]
      simp [partialEq, SameNumber]
  case real.real f g =>
      have hf : f ≠ .nan := by
        rintro rfl
        exact absurd ha (by simp [Exact, F64.toRat?])
      have hg : g ≠ .nan := by
        rintro rfl
        exact absurd hb (by simp [Exact, F64.toRat?])
      have htie : (F64.partialCmp f g).getD .eq = .eq ↔ f.ieeeEq g = true := by
        have hne := F64.partialCmp_getD_ne_eq (f := f) (g := g)
        simpa [hf, hg] using not_congr hne
      simp only [partialEq, compare, htie, SameNumber, not_false_eq_true]
  all_goals simp [partialEq, compare, SameNumber, typeRank]

end Value

section

variable [Externals] {ctx : EvalCtx} {params : List Value} {l r : Expr} {n m k : Nat} {a b : Value}

theorem evalFrom_binaryOp (op : BinaryOperator) (hand : op ≠ .and) (hor : op ≠ .or)
    (hl : eval ctx params l n = (a, m)) (hr : eval ctx params r m = (b, k)) :
    evalFrom ctx params (.binaryOp l op r) n = applyBinary op a b := by
  have heval : eval ctx params (.binaryOp l op r) n = (applyBinary op a b, k) := by
    cases op <;> first
      | exact absurd rfl hand
      | exact absurd rfl hor
      | simp only [eval, evalBinaryOp, bind, StateT.bind, hl, hr]; rfl
  rw [evalFrom, heval]

/-- The comparisons of an expression agree where those of its values do. -/
theorem comparisons_agree_iff (hl : eval ctx params l n = (a, m))
    (hr : eval ctx params r m = (b, k)) :
    (truthy (evalFrom ctx params (.binaryOp l .eq r) n) = true ↔
        truthy (evalFrom ctx params (.binaryOp l .ltEq r) n) = true ∧
        truthy (evalFrom ctx params (.binaryOp l .gtEq r) n) = true) ↔
    (a.partialEq b = true ↔ a.compare b = .eq) := by
  have hboth : (a.compare b != .gt) = true ∧ (a.compare b != .lt) = true ↔ a.compare b = .eq := by
    cases a.compare b <;> decide
  rw [evalFrom_binaryOp .eq nofun nofun hl hr, evalFrom_binaryOp .ltEq nofun nofun hl hr,
    evalFrom_binaryOp .gtEq nofun nofun hl hr]
  simp only [applyBinary, truthy_boolVal, hboth]

/-- `a = b` holds exactly if `a <= b` and `a >= b` do, and index keys are equal exactly if they tie,
unless one value is an INTEGER and the other a REAL of the same number. -/
theorem equality_agrees_iff (hl : eval ctx params l n = (a, m)) (hr : eval ctx params r m = (b, k))
    (ha : a.Exact) (hb : b.Exact) :
    ((truthy (evalFrom ctx params (.binaryOp l .eq r) n) = true ↔
        truthy (evalFrom ctx params (.binaryOp l .ltEq r) n) = true ∧
        truthy (evalFrom ctx params (.binaryOp l .gtEq r) n) = true) ∧
      ((IndexKey.mk a).partialEq ⟨b⟩ = true ↔ (IndexKey.mk a).cmp ⟨b⟩ = .eq)) ↔
    ¬a.SameNumber b := by
  rw [comparisons_agree_iff hl hr, IndexKey.partialEq, IndexKey.cmp, and_self]
  exact Value.partialEq_iff_compare ha hb

end

namespace Sample

def parameter : Expr := .value (.placeholder "?")

end Sample

/-- The INTEGER 2 and the REAL 3. -/
theorem equality_agrees_on_two_three :
    letI := Externals.ofTexts [] []
    let holds := fun op => truthy (evalFrom .noRow [.integer 2, .real (.fin 3)]
      (.binaryOp Sample.parameter op Sample.parameter) 0) = true
    (holds .eq ↔ holds .ltEq ∧ holds .gtEq) ∧
      ((IndexKey.mk (.integer 2)).partialEq ⟨.real (.fin 3)⟩ = true ↔
        (IndexKey.mk (.integer 2)).cmp ⟨.real (.fin 3)⟩ = .eq) :=
  let _ := Externals.ofTexts [] []
  have hexact : (Value.integer 2).Exact ∧ (Value.real (.fin 3)).Exact :=
    ⟨show Int.natAbs 2 ≤ 2 ^ 53 by decide, rfl⟩
  have hne : ¬(Value.integer 2).SameNumber (.real (.fin 3)) := by simp [Value.SameNumber, F64.toRat?]
  (equality_agrees_iff (l := Sample.parameter) (r := Sample.parameter) (a := .integer 2)
    (b := .real (.fin 3)) rfl rfl hexact.1 hexact.2).mpr hne

/-- `1 = 1.0` is false although `1 <= 1.0` and `1 >= 1.0` hold, and the keys tie without being equal. -/
theorem one_ne_one_point_zero :
    letI := Externals.ofTexts [] []
    let holds := fun op => truthy (evalFrom .noRow [.integer 1, .real (.fin 1)]
      (.binaryOp Sample.parameter op Sample.parameter) 0) = true
    ¬(holds .eq ↔ holds .ltEq ∧ holds .gtEq) ∧
      ¬((IndexKey.mk (.integer 1)).partialEq ⟨.real (.fin 1)⟩ = true ↔
        (IndexKey.mk (.integer 1)).cmp ⟨.real (.fin 1)⟩ = .eq) := by
  let _ := Externals.ofTexts [] []
  have hone : (Value.integer 1).SameNumber (.real (.fin 1)) := rfl
  have hexact : (Value.integer 1).Exact ∧ (Value.real (.fin 1)).Exact :=
    ⟨show Int.natAbs 1 ≤ 2 ^ 53 by decide, rfl⟩
  have hdiffer := mt (Value.partialEq_iff_compare hexact.1 hexact.2).mp (not_not.mpr hone)
  exact ⟨mt (comparisons_agree_iff (l := Sample.parameter) (r := Sample.parameter)
    (a := .integer 1) (b := .real (.fin 1)) rfl rfl).mp hdiffer, hdiffer⟩

end Skvs
