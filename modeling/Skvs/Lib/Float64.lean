import Skvs.Lib.Text
import Mathlib.Data.Rat.Floor
import Mathlib.Data.Nat.Log

/-!
# Binary64 numbers as exact values

A double is NaN, an infinity, the negative zero, or the rational number it stands for, so arithmetic
is exact arithmetic followed by one rounding to 53 significant bits, to nearest, ties to even.
-/

inductive F64 where
  | nan
  | inf (neg : Bool)
  | negZero
  | fin (q : Rat)
  deriving DecidableEq

namespace F64

def zero (neg : Bool) : F64 := if neg then .negZero else .fin 0

/-- The integer nearest to `n / d`, ties to even. -/
def roundDiv (n d : Nat) : Nat :=
  let m := n / d
  let r := n % d
  if 2 * r < d then m
  else if d < 2 * r then m + 1
  else if m % 2 = 0 then m else m + 1

/-- The exponent `k` with `2 ^ k ≤ n / d < 2 ^ (k + 1)`. -/
def floorLog2 (n d : Nat) : Int :=
  let k : Int := (Nat.log2 n : Int) - Nat.log2 d
  let fits := if 0 ≤ k then d * 2 ^ k.toNat ≤ n else d ≤ n * 2 ^ (-k).toNat
  if fits then k else k - 1

/-- The double nearest to `q`, subnormals and overflow included; a result of zero carries the sign
of `q`, or `neg` where `q` is zero. -/
def round (neg : Bool) (q : Rat) : F64 :=
  if q = 0 then zero neg
  else
    let n := q.num.natAbs
    let e := max (floorLog2 n q.den - 52) (-1074)
    let m := if 0 ≤ e then roundDiv n (q.den * 2 ^ e.toNat) else roundDiv (n * 2 ^ (-e).toNat) q.den
    let v : Rat := if 0 ≤ e then ((m * 2 ^ e.toNat : Nat) : Rat) else mkRat m (2 ^ (-e).toNat)
    if m = 0 then zero (q < 0)
    else if (2 : Rat) ^ 1024 ≤ v then .inf (q < 0)
    else .fin (if q < 0 then -v else v)

def ofInt (i : Int) : F64 := round false i

def isNeg : F64 → Bool
  | .nan => false
  | .inf neg => neg
  | .negZero => true
  | .fin q => q < 0

/-- The exact value of a finite double. -/
def toRat? : F64 → Option Rat
  | .negZero => some 0
  | .fin q => some q
  | _ => none

def partialCmp (a b : F64) : Option Ordering :=
  match a, b with
  | .nan, _ | _, .nan => none
  | .inf s, .inf t => some (compare t s)
  | .inf s, _ => some (if s then .lt else .gt)
  | _, .inf t => some (if t then .gt else .lt)
  | .negZero, .negZero => some .eq
  | .negZero, .fin q => some (if 0 < q then .lt else if q < 0 then .gt else .eq)
  | .fin q, .negZero => some (if q < 0 then .lt else if 0 < q then .gt else .eq)
  | .fin p, .fin q => some (if p < q then .lt else if q < p then .gt else .eq)

theorem partialCmp_swap (a b : F64) : partialCmp b a = (partialCmp a b).map .swap := by
  cases a <;> cases b <;> simp only [partialCmp, Option.map_none, Option.map_some] <;>
    first
    | rfl
    | exact congrArg some Std.OrientedOrd.eq_swap
    | (split_ifs <;> first | rfl | exact (lt_asymm (by assumption) (by assumption)).elim)

/-- IEEE equality: NaN differs from itself, and the two zeros are equal. -/
def ieeeEq (a b : F64) : Bool := partialCmp a b == some .eq

theorem partialCmp_negZero (c : F64) : partialCmp .negZero c = partialCmp (.fin 0) c := by
  cases c <;> simp [partialCmp]

/-- Equal doubles compare alike: they are the same double, or the two zeros. -/
theorem partialCmp_congr {a b : F64} (h : ieeeEq a b = true) (c : F64) :
    partialCmp a c = partialCmp b c := by
  rw [ieeeEq, beq_iff_eq] at h
  have hzero : ∀ q : Rat, ¬0 < q → ¬q < 0 → q = 0 := fun q hpos hneg =>
    le_antisymm (not_lt.mp hpos) (not_lt.mp hneg)
  cases a <;> cases b <;> simp only [partialCmp, Option.some.injEq, reduceCtorEq] at h
  case inf.inf s t => cases s <;> cases t <;> first | rfl | exact nomatch h
  case negZero.negZero => rfl
  case negZero.fin q =>
      split_ifs at h with hpos hneg
      rw [hzero q hpos hneg, partialCmp_negZero]
  case fin.negZero q =>
      split_ifs at h with hneg hpos
      rw [hzero q hpos hneg, partialCmp_negZero]
  case fin.fin p q =>
      split_ifs at h with hlt hgt
      rw [le_antisymm (not_lt.mp hgt) (not_lt.mp hlt)]
  all_goals split_ifs at h

def isZero (a : F64) : Bool := ieeeEq a (.fin 0)

def neg : F64 → F64
  | .nan => .nan
  | .inf s => .inf !s
  | .negZero => .fin 0
  | .fin q => if q = 0 then .negZero else .fin (-q)

def abs (a : F64) : F64 := if a.isNeg then a.neg else a

def add (a b : F64) : F64 :=
  match a, b with
  | .nan, _ | _, .nan => .nan
  | .inf s, .inf t => if s = t then .inf s else .nan
  | .inf s, _ => .inf s
  | _, .inf t => .inf t
  | .negZero, .negZero => .negZero
  | a, b => round false (a.toRat?.getD 0 + b.toRat?.getD 0)

def sub (a b : F64) : F64 := add a b.neg

def mul (a b : F64) : F64 :=
  let s := a.isNeg != b.isNeg
  match a, b with
  | .nan, _ | _, .nan => .nan
  | .inf _, b => if b.isZero then .nan else .inf s
  | a, .inf _ => if a.isZero then .nan else .inf s
  | a, b => round s (a.toRat?.getD 0 * b.toRat?.getD 0)

def div (a b : F64) : F64 :=
  let s := a.isNeg != b.isNeg
  match a, b with
  | .nan, _ | _, .nan => .nan
  | .inf _, .inf _ => .nan
  | .inf _, _ => .inf s
  | _, .inf _ => zero s
  | a, b =>
    if b.isZero then (if a.isZero then .nan else .inf s)
    else round s (a.toRat?.getD 0 / b.toRat?.getD 0)

def truncRat (q : Rat) : Int := if 0 ≤ q then q.floor else -((-q).floor)

/-- The remainder of the truncated quotient; it is exact and takes the sign of the dividend. -/
def rem (a b : F64) : F64 :=
  match a, b with
  | .nan, _ | _, .nan | .inf _, _ => .nan
  | a, .inf _ => a
  | a, b =>
    if b.isZero then .nan
    else
      let p := a.toRat?.getD 0
      let q := b.toRat?.getD 0
      round a.isNeg (p - q * truncRat (p / q))

/-- The fractional part, with the sign of the number. -/
def fract (a : F64) : F64 :=
  match a with
  | .nan | .inf _ => .nan
  | a => let q := a.toRat?.getD 0; round false (q - truncRat q)

/-- Round half away from zero to an integer. -/
def roundInt (a : F64) : F64 :=
  match a with
  | .fin q =>
    let half : Rat := 1 / 2
    if 0 ≤ q then round false ((q + half).floor : Int) else round true (-((-q + half).floor : Int))
  | a => a

/-- The product of `r` and the power of a double, by squaring and rounded at every step. -/
def mulPow (r a : F64) (n : Nat) : F64 :=
  let r := if n % 2 = 1 then r.mul a else r
  if n / 2 = 0 then r else mulPow r (a.mul a) (n / 2)
termination_by n
decreasing_by omega

/-- The integer power of a double; a negative one is the reciprocal of the power. -/
def powi (a : F64) (n : Int) : F64 :=
  let r := mulPow (.fin 1) a n.natAbs
  if n < 0 then (F64.fin 1).div r else r

/-- The cast to a signed integer type of the given bounds: truncation, saturating, NaN to zero. -/
def toIntSat (lo hi : Int) : F64 → Int
  | .nan => 0
  | .inf neg => if neg then lo else hi
  | .negZero => 0
  | .fin q => max lo (min hi (truncRat q))

/-! ### Decimal text -/

/-- The exponent `p` with `10 ^ (p - 1) ≤ n / d < 10 ^ p`. -/
def decimalExponent (n d : Nat) : Int :=
  if d ≤ n then (Nat.toDigits 10 (n / d)).length
  else
    let l := (Nat.toDigits 10 (d / n)).length
    if d = n * 10 ^ (l - 1) then 2 - l else 1 - l

/-- The decimal `c * 10 ^ e`. -/
def ofScientific (c : Nat) (e : Int) : Rat :=
  if 0 ≤ e then ((c * 10 ^ e.toNat : Nat) : Rat) else mkRat c (10 ^ (-e).toNat)

/-- The shortest digits `c` and exponent `e` for which `c * 10 ^ e` rounds back to `q > 0`, the
closest of them to `q`; `len` counts the digits still to try. -/
def shortestFrom (q : Rat) (p : Int) : Nat → Nat → Nat × Int
  | len, 0 =>
    let e := p - len
    let scaled := q / ofScientific 1 e
    (roundDiv scaled.num.natAbs scaled.den, e)
  | len, left + 1 =>
    let e := p - len
    let scaled := q / ofScientific 1 e
    let near := roundDiv scaled.num.natAbs scaled.den
    let low := scaled.num.natAbs / scaled.den
    let far := if near = low then low + 1 else low
    if round false (ofScientific near e) = .fin q then (near, e)
    else if round false (ofScientific far e) = .fin q then (far, e)
    else shortestFrom q p (len + 1) left

def shortest (q : Rat) : Nat × Int :=
  shortestFrom q (decimalExponent q.num.natAbs q.den) 1 16

def zeros (n : Nat) : String := String.ofList (List.replicate n '0')

/-- Digits `c` with their decimal exponent, written out without an exponent. -/
def plainDecimal (c : Nat) (e : Int) : String :=
  let ds := toString c
  if 0 ≤ e then ds ++ zeros e.toNat
  else
    let k := (-e).toNat
    if k < ds.length then String.ofList (ds.toList.take (ds.length - k)) ++ "." ++
        String.ofList (ds.toList.drop (ds.length - k))
    else "0." ++ zeros (k - ds.length) ++ ds

def signText (q : Rat) : String := if q < 0 then "-" else ""

/-- The text of the plain formatter: shortest round-trip digits, never an exponent. -/
def display : F64 → String
  | .nan => "NaN"
  | .inf neg => if neg then "-inf" else "inf"
  | .negZero => "-0"
  | .fin q => if q = 0 then "0" else signText q ++ plainDecimal (shortest |q|).1 (shortest |q|).2

/-- Digits with an exponent, as `d.ddde±x`. -/
def sciDecimal (c : Nat) (e : Int) : String :=
  let ds := (toString c).toList
  let tail := ds.drop 1
  String.ofList (ds.take 1) ++ (if tail.isEmpty then "" else "." ++ String.ofList tail) ++ "e" ++
    toString (e + tail.length)

/-- The text of the debug formatter: a fraction is always shown, and very small or large numbers
get an exponent. -/
def debug : F64 → String
  | .fin q =>
    if q = 0 then "0.0"
    else
      let c := (shortest |q|).1
      let e := (shortest |q|).2
      if |q| < ofScientific 1 (-4) ∨ ofScientific 1 16 ≤ |q| then signText q ++ sciDecimal c e
      else if 0 ≤ e then signText q ++ plainDecimal c e ++ ".0"
      else signText q ++ plainDecimal c e
  | .negZero => "-0.0"
  | a => a.display

def parseUnsigned (neg : Bool) (cs : List Char) : Option F64 :=
  let whole := cs.takeWhile Char.isDigit
  let (frac, rest) := match cs.dropWhile Char.isDigit with
    | '.' :: rest => (rest.takeWhile Char.isDigit, rest.dropWhile Char.isDigit)
    | rest => ([], rest)
  if whole.isEmpty ∧ frac.isEmpty then none
  else
    let exponent := match rest with
      | [] => some 0
      | c :: rest => if c = 'e' ∨ c = 'E' then Text.parseInt rest else none
    exponent.map fun e =>
      let q := ofScientific (Text.digitsValue (whole ++ frac)) (e - frac.length)
      round neg (if neg then -q else q)

/-- The number a decimal text denotes, if it is one. -/
def parse (s : String) : Option F64 :=
  let (neg, cs) := match s.toList with
    | '-' :: cs => (true, cs)
    | '+' :: cs => (false, cs)
    | cs => (false, cs)
  let lower := cs.map Char.toLower
  if lower = "inf".toList ∨ lower = "infinity".toList then some (.inf neg)
  else if lower = "nan".toList then some .nan
  else parseUnsigned neg cs

end F64
