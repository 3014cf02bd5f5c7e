import Skvs.Proof.GroupBy
import Skvs.Lib.Float64Int
import Mathlib.Data.List.Sublists
import Mathlib.Data.Int.ConditionallyCompleteOrder

/-!
# COUNT, SUM, MIN and MAX

An aggregate takes its argument for the bare column of the last part of its name, and has no value
for an argument that is not a column. Over INTEGER and NULL values this is compared with the values
that `eval` gives for the argument.
-/

namespace Skvs

/-! ### Lists of integers and NULLs -/

/-- An INTEGER or NULL. -/
def Value.isPlain : Value → Bool
  | .null | .integer _ => true
  | _ => false

def Value.integer? : Value → Option Int
  | .integer i => some i.toInt
  | _ => none

def integersOf (vs : List Value) : List Int := vs.filterMap Value.integer?

theorem Value.integer?_inj {v w : Value} (hv : v.isPlain = true) (hw : w.isPlain = true)
    (h : v.integer? = w.integer?) : v = w := by
  cases v <;> cases w <;> simp only [isPlain, Bool.false_eq_true] at hv hw <;>
    simp only [integer?, reduceCtorEq, Option.some.injEq] at h
  · rfl
  · rw [Int64.toInt_inj.mp h]

/-- The integer, or less than all of them for NULL. -/
def Value.rank (v : Value) : WithBot Int := v.integer?.elim ⊥ fun i => (i : WithBot Int)

theorem Value.rank_integer (i : Int64) : (Value.integer i).rank = (i.toInt : WithBot Int) := rfl

theorem Value.compare_gt_iff {v w : Value} (hv : v.isPlain = true) (hw : w.isPlain = true) :
    v.compare w = .gt ↔ w.rank < v.rank := by
  cases v <;> cases w <;> simp only [isPlain, Bool.false_eq_true] at hv hw
  case integer.integer i j =>
    rw [rank_integer, rank_integer, WithBot.coe_lt_coe, ← Int64.lt_iff_toInt_lt]
    exact Std.compare_eq_gt
  all_goals simp [compare, rank, integer?]

/-- A fold that keeps the one or the other ends with a member that no member goes beyond. -/
theorem foldl_pick {α : Type} (P : α → Prop) (beyond : α → α → Prop)
    (htrans : ∀ x y z, beyond x y → beyond y z → beyond x z) (hrefl : ∀ x, beyond x x)
    (pick : α → α → α) (hpick : ∀ x y, P x → P y →
      (pick x y = x ∨ pick x y = y) ∧ beyond (pick x y) x ∧ beyond (pick x y) y)
    {v : α} {vs : List α} (hall : ∀ w ∈ v :: vs, P w) :
    vs.foldl pick v ∈ v :: vs ∧ ∀ w ∈ v :: vs, beyond (vs.foldl pick v) w := by
  induction vs generalizing v with
  | nil => exact ⟨List.mem_cons_self, List.forall_mem_singleton.mpr (hrefl v)⟩
  | cons w vs ih =>
      simp only [List.forall_mem_cons] at hall
      obtain ⟨hone, hleft, hright⟩ := hpick v w hall.1 hall.2.1
      have hpicked : P (pick v w) := by
        rcases hone with heq | heq <;> rw [heq]
        · exact hall.1
        · exact hall.2.1
      obtain ⟨hmem, hbeyond⟩ := ih (List.forall_mem_cons.mpr ⟨hpicked, hall.2.2⟩)
      rw [List.forall_mem_cons] at hbeyond
      rw [List.foldl_cons]
      refine ⟨?_, List.forall_mem_cons.mpr ⟨htrans _ _ _ hbeyond.1 hleft,
        List.forall_mem_cons.mpr ⟨htrans _ _ _ hbeyond.1 hright, hbeyond.2⟩⟩⟩
      rw [List.mem_cons] at hmem
      rcases hmem with hmem | hmem
      · rw [hmem]
        rcases hone with heq | heq <;> simp [heq]
      · exact List.mem_cons_of_mem _ (List.mem_cons_of_mem _ hmem)

theorem maxBy_spec {vs : List Value} (hplain : ∀ v ∈ vs, v.isPlain = true) (hne : vs ≠ []) :
    ∃ v ∈ vs, maxBy vs = some v ∧ ∀ w ∈ vs, w.rank ≤ v.rank := by
  obtain ⟨v, rest, rfl⟩ := List.exists_cons_of_ne_nil hne
  have hpick := foldl_pick (fun v : Value => v.isPlain = true) (fun v w => w.rank ≤ v.rank)
    (fun _ _ _ hxy hyz => hyz.trans hxy) (fun _ => le_rfl)
    (fun x y => if x.compare y == .gt then x else y) (fun x y hx hy => by
      simp only [beq_iff_eq, Value.compare_gt_iff hx hy]
      split_ifs with hlt
      · exact ⟨Or.inl rfl, le_rfl, hlt.le⟩
      · exact ⟨Or.inr rfl, not_lt.mp hlt, le_rfl⟩) hplain
  exact ⟨_, hpick.1, rfl, hpick.2⟩

theorem minBy_spec {vs : List Value} (hplain : ∀ v ∈ vs, v.isPlain = true) (hne : vs ≠ []) :
    ∃ v ∈ vs, minBy vs = some v ∧ ∀ w ∈ vs, v.rank ≤ w.rank := by
  obtain ⟨v, rest, rfl⟩ := List.exists_cons_of_ne_nil hne
  have hpick := foldl_pick (fun v : Value => v.isPlain = true) (fun v w => v.rank ≤ w.rank)
    (fun _ _ _ hxy hyz => hxy.trans hyz) (fun _ => le_rfl)
    (fun x y => if x.compare y == .gt then y else x) (fun x y hx hy => by
      simp only [beq_iff_eq, Value.compare_gt_iff hx hy]
      split_ifs with hlt
      · exact ⟨Or.inr rfl, hlt.le, le_rfl⟩
      · exact ⟨Or.inl rfl, le_rfl, not_lt.mp hlt⟩) hplain
  exact ⟨_, hpick.1, rfl, hpick.2⟩

theorem mem_integersOf {vs : List Value} {i : Int} :
    i ∈ integersOf vs ↔ ∃ v ∈ vs, v.integer? = some i := List.mem_filterMap

theorem Value.rank_le_iff {v w : Value} {j : Int} (hw : w.integer? = some j) :
    v.rank ≤ w.rank ↔ ∀ i, v.integer? = some i → i ≤ j := by
  have hrank : w.rank = (j : WithBot Int) := by rw [rank, hw]; rfl
  cases hv : v.integer? with
  | none => simp [rank, hv]
  | some i =>
      have hrank' : v.rank = (i : WithBot Int) := by rw [rank, hv]; rfl
      rw [hrank, hrank', WithBot.coe_le_coe]
      simp

/-- The greatest of the integers, where NULL counts as less than all of them. -/
theorem integer?_maxBy {vs : List Value} (hplain : ∀ v ∈ vs, v.isPlain = true) :
    ((maxBy vs).getD .null).isPlain = true ∧
      ((maxBy vs).getD .null).integer? = (integersOf vs).max? := by
  by_cases hne : vs = []
  · rw [hne]
    exact ⟨rfl, rfl⟩
  obtain ⟨v, hmem, hmax, hle⟩ := maxBy_spec hplain hne
  rw [hmax, Option.getD_some]
  refine ⟨hplain v hmem, ?_⟩
  cases hv : v.integer? with
  | none =>
      refine (List.max?_eq_none_iff.mpr (List.eq_nil_iff_forall_not_mem.mpr fun i hi => ?_)).symm
      obtain ⟨w, hw, hwi⟩ := mem_integersOf.mp hi
      have hrank := hle w hw
      rw [Value.rank, Value.rank, hv, hwi] at hrank
      simp at hrank
  | some i =>
      refine (List.max?_eq_some_iff.mpr ⟨mem_integersOf.mpr ⟨v, hmem, hv⟩, fun j hj => ?_⟩).symm
      obtain ⟨w, hw, hwj⟩ := mem_integersOf.mp hj
      exact (Value.rank_le_iff hv).mp (hle w hw) j hwj

/-- The least of the integers, unless there is a NULL. -/
theorem integer?_minBy {vs : List Value} (hplain : ∀ v ∈ vs, v.isPlain = true) :
    ((minBy vs).getD .null).isPlain = true ∧ ((minBy vs).getD .null).integer? =
      if .null ∈ vs then none else (integersOf vs).min? := by
  by_cases hne : vs = []
  · rw [hne]
    exact ⟨rfl, rfl⟩
  obtain ⟨v, hmem, hmin, hle⟩ := minBy_spec hplain hne
  rw [hmin, Option.getD_some]
  refine ⟨hplain v hmem, ?_⟩
  split_ifs with hnull
  · have hbot : v.rank ≤ ⊥ := hle .null hnull
    cases hv : v.integer? with
    | none => rfl
    | some i =>
        rw [Value.rank, hv] at hbot
        simp at hbot
  · cases hv : v.integer? with
    | none =>
        have heq : v = .null := Value.integer?_inj (hplain v hmem) rfl hv
        exact absurd (heq ▸ hmem) hnull
    | some i =>
        refine (List.min?_eq_some_iff.mpr ⟨mem_integersOf.mpr ⟨v, hmem, hv⟩, fun j hj => ?_⟩).symm
        obtain ⟨w, hw, hwj⟩ := mem_integersOf.mp hj
        exact (Value.rank_le_iff hwj).mp (hle w hw) i hv

/-! ### What the aggregates of a list of values are -/

def nonNull (vs : List Value) : List Value := vs.filter fun v => !v.isNull

/-- The number that a value stands for. -/
def Value.number? : Value → Option Rat
  | .integer i => some (i.toInt : Rat)
  | .real f => f.toRat?
  | _ => none

/-- A member that no member goes beyond, or NULL where there is no member. -/
def ExtremeOf (beyond : Value → Value → Bool) (vs : List Value) (v : Value) : Prop :=
  (vs = [] ∧ v = .null) ∨ (v ∈ vs ∧ ∀ w ∈ vs, beyond w v = false)

def GreatestOf : List Value → Value → Prop := ExtremeOf fun w v => w.compare v == .gt

def LeastOf : List Value → Value → Prop := ExtremeOf fun w v => v.compare w == .gt

theorem extremeOf_iff {beyond : Value → Value → Bool} {vs : List Value} {m : Value}
    (hm : ExtremeOf beyond vs m) (hanti : ∀ v ∈ vs, ∀ w ∈ vs, beyond v w = false →
      beyond w v = false → v = w) (v : Value) : ExtremeOf beyond vs v ↔ v = m := by
  constructor
  · rintro (⟨hnil, rfl⟩ | ⟨hv, hall⟩)
    · rcases hm with ⟨-, rfl⟩ | ⟨hmem, -⟩
      · rfl
      · exact absurd (hnil ▸ hmem) List.not_mem_nil
    · rcases hm with ⟨hnil, -⟩ | ⟨hmem, hbeyond⟩
      · exact absurd (hnil ▸ hv) List.not_mem_nil
      · exact hanti v hv m hmem (hbeyond v hv) (hall m hmem)
  · rintro rfl
    exact hm

/-- Where INTEGERs and NULLs are picked from, the integer tells what is picked. -/
theorem extremeOf_iff_integer? {beyond : Value → Value → Bool} {vs : List Value} {m : Value}
    {i : Option Int} (hm : ExtremeOf beyond vs m) (hanti : ∀ v ∈ vs, ∀ w ∈ vs, beyond v w = false →
      beyond w v = false → v = w) (hplain : m.isPlain = true) (hi : m.integer? = i) (v : Value) :
    ExtremeOf beyond vs v ↔ v.isPlain = true ∧ v.integer? = i := by
  rw [extremeOf_iff hm hanti, ← hi]
  constructor
  · rintro rfl
    exact ⟨hplain, rfl⟩
  · exact fun h => Value.integer?_inj h.1 hplain h.2

theorem extremeOf_getD {beyond : Value → Value → Bool} {vs : List Value} {picked : Option Value}
    (hnil : vs = [] → picked = none)
    (hpicked : vs ≠ [] → ∃ m ∈ vs, picked = some m ∧ ∀ w ∈ vs, beyond w m = false) :
    ExtremeOf beyond vs (picked.getD .null) := by
  by_cases hne : vs = []
  · exact Or.inl ⟨hne, by rw [hnil hne]; rfl⟩
  · obtain ⟨m, hmem, rfl, hbeyond⟩ := hpicked hne
    exact Or.inr ⟨hmem, hbeyond⟩

theorem integersOf_nonNull (vs : List Value) : integersOf (nonNull vs) = integersOf vs := by
  rw [integersOf, nonNull, List.filterMap_filter]
  refine List.filterMap_congr fun v _ => ?_
  cases v <;> rfl

theorem length_integersOf {vs : List Value} (hplain : ∀ v ∈ vs, v.isPlain = true) :
    (nonNull vs).length = (integersOf vs).length := by
  induction vs with
  | nil => rfl
  | cons v vs ih =>
      rw [List.forall_mem_cons] at hplain
      have htail := ih hplain.2
      cases v with
      | null => exact htail
      | integer i => exact congrArg (· + 1) htail
      | real | text | blob => exact nomatch hplain.1

theorem sum_numbers {vs : List Value} (hplain : ∀ v ∈ vs, v.isPlain = true) :
    ((nonNull vs).map fun v => v.number?.getD 0).sum = (((integersOf vs).sum : Int) : Rat) := by
  induction vs with
  | nil => rfl
  | cons v vs ih =>
      rw [List.forall_mem_cons] at hplain
      have htail := ih hplain.2
      cases v with
      | null => exact htail
      | integer i =>
          have hvalues : nonNull (.integer i :: vs) = .integer i :: nonNull vs := rfl
          have hintegers : integersOf (.integer i :: vs) = i.toInt :: integersOf vs := rfl
          rw [hvalues, hintegers, List.map_cons, List.sum_cons, List.sum_cons, htail, Int.cast_add]
          rfl
      | real | text | blob => exact nomatch hplain.1

section Extremes

variable {vs : List Value} (hplain : ∀ v ∈ vs, v.isPlain = true)

include hplain

theorem nonNull_plain : ∀ v ∈ nonNull vs, v.isPlain = true := fun v hv =>
  hplain v (List.mem_filter.mp hv).1

theorem eq_of_rank {v w : Value} (hv : v ∈ nonNull vs) (hw : w ∈ nonNull vs)
    (h : v.rank = w.rank) : v = w := by
  refine Value.integer?_inj (nonNull_plain hplain v hv) (nonNull_plain hplain w hw) ?_
  cases hvi : v.integer? <;> cases hwi : w.integer? <;> simp_all [Value.rank]

theorem greatestOf_iff (v : Value) : GreatestOf (nonNull vs) v ↔
    v.isPlain = true ∧ v.integer? = (integersOf vs).max? := by
  have hplain' := nonNull_plain hplain
  have hgreatest : GreatestOf (nonNull vs) ((maxBy (nonNull vs)).getD .null) := by
    refine extremeOf_getD (fun hnil => by rw [hnil]; rfl) fun hne => ?_
    obtain ⟨m, hmem, hmax, hle⟩ := maxBy_spec hplain' hne
    refine ⟨m, hmem, hmax, fun w hw => ?_⟩
    rw [beq_eq_false_iff_ne, Ne, Value.compare_gt_iff (hplain' w hw) (hplain' m hmem), not_lt]
    exact hle w hw
  have hanti : ∀ v ∈ nonNull vs, ∀ w ∈ nonNull vs, (v.compare w == .gt) = false →
      (w.compare v == .gt) = false → v = w := by
    intro v hv w hw hvw hwv
    rw [beq_eq_false_iff_ne, Ne, Value.compare_gt_iff (hplain' _ ‹_›) (hplain' _ ‹_›), not_lt]
      at hvw hwv
    exact eq_of_rank hplain hv hw (le_antisymm hvw hwv)
  obtain ⟨hm, hinteger⟩ := integer?_maxBy hplain'
  rw [integersOf_nonNull] at hinteger
  exact extremeOf_iff_integer? hgreatest hanti hm hinteger v

theorem leastOf_iff (v : Value) : LeastOf (nonNull vs) v ↔
    v.isPlain = true ∧ v.integer? = (integersOf vs).min? := by
  have hplain' := nonNull_plain hplain
  have hleast : LeastOf (nonNull vs) ((minBy (nonNull vs)).getD .null) := by
    refine extremeOf_getD (fun hnil => by rw [hnil]; rfl) fun hne => ?_
    obtain ⟨m, hmem, hmin, hle⟩ := minBy_spec hplain' hne
    refine ⟨m, hmem, hmin, fun w hw => ?_⟩
    rw [beq_eq_false_iff_ne, Ne, Value.compare_gt_iff (hplain' m hmem) (hplain' w hw), not_lt]
    exact hle w hw
  have hanti : ∀ v ∈ nonNull vs, ∀ w ∈ nonNull vs, (w.compare v == .gt) = false →
      (v.compare w == .gt) = false → v = w := by
    intro v hv w hw hwv hvw
    rw [beq_eq_false_iff_ne, Ne, Value.compare_gt_iff (hplain' _ ‹_›) (hplain' _ ‹_›), not_lt]
      at hvw hwv
    exact eq_of_rank hplain hv hw (le_antisymm hvw hwv)
  have hnull : .null ∉ nonNull vs := fun h => by simpa [Value.isNull] using (List.mem_filter.mp h).2
  obtain ⟨hm, hinteger⟩ := integer?_minBy hplain'
  rw [integersOf_nonNull, if_neg hnull] at hinteger
  exact extremeOf_iff_integer? hleast hanti hm hinteger v

end Extremes

/-! ### The four aggregates -/

theorem toInt_f64AsI64 {i : Int} (h : i.natAbs < 2 ^ 53) : (f64AsI64 (.fin i)).toInt = i := by
  have hmin : Int64.minValue.toInt = -2 ^ 63 := rfl
  have hmax : Int64.maxValue.toInt = 2 ^ 63 - 1 := rfl
  have hsat : F64.toIntSat Int64.minValue.toInt Int64.maxValue.toInt (.fin i) = i := by
    rw [F64.toIntSat, F64.truncRat_intCast, hmin, hmax]
    omega
  rw [f64AsI64, hsat]
  exact Int64.toInt_ofInt_of_le (by omega) (by omega)

section Calls

variable [Externals]

/-- Spellings of the names of the four aggregates, in any case. -/
structure AggregateCalls where
  count : String
  sum : String
  min : String
  max : String
  count_lower : toLowercase count = "count"
  sum_lower : toLowercase sum = "sum"
  min_lower : toLowercase min = "min"
  max_lower : toLowercase max = "max"

def aggregateCall (name : String) (e : Expr) : Expr := .function name [.unnamed (.expr e)] false 0

/-- The values of the argument on the rows of a group. -/
def argumentValues (rows : List Row) (e : Expr) : List Value := rows.map fun row => groupValue row e

/-- COUNT, SUM, MIN and MAX are those of the values of the argument. -/
structure AggregatesRight (names : AggregateCalls) (rows : List Row) (e : Expr) : Prop where
  count : (evaluateAggregate (aggregateCall names.count e) rows).integer? =
    some ((nonNull (argumentValues rows e)).length : Int)
  sum : (evaluateAggregate (aggregateCall names.sum e) rows).number? =
    some ((nonNull (argumentValues rows e)).map fun v => v.number?.getD 0).sum
  min : LeastOf (nonNull (argumentValues rows e))
    (evaluateAggregate (aggregateCall names.min e) rows)
  max : GreatestOf (nonNull (argumentValues rows e))
    (evaluateAggregate (aggregateCall names.max e) rows)

/-- The bare column that stands for an argument. -/
def bareColumn (e : Expr) : Option String := aggregateColumn [.unnamed (.expr e)]

/-- The values under a bare name, on the rows that have it. -/
def columnValues (rows : List Row) (c : String) : List Value := rows.filterMap fun row => row.get c

/-- The integers under the bare name have the number, sum, least and greatest of those of the argument,
and no NULL is among them. -/
structure SameIntegers (rows : List Row) (e : Expr) (c : String) : Prop where
  number : (integersOf (columnValues rows c)).length = (integersOf (argumentValues rows e)).length
  sum : (integersOf (columnValues rows c)).sum = (integersOf (argumentValues rows e)).sum
  least : (integersOf (columnValues rows c)).min? = (integersOf (argumentValues rows e)).min?
  greatest : (integersOf (columnValues rows c)).max? = (integersOf (argumentValues rows e)).max?
  nulls : integersOf (columnValues rows c) = [] ∨ .null ∉ columnValues rows c

/-- INTEGERs and NULLs only. -/
def PlainRows (rows : List Row) : Prop := ∀ row ∈ rows, ∀ v ∈ row.values, v.isPlain = true

/-- No sum of values of a column reaches 2 ^ 53. -/
def SmallSums (rows : List Row) : Prop :=
  ∀ c, ∀ part : List Int, part.Sublist (integersOf (columnValues rows c)) → part.sum.natAbs < 2 ^ 53

variable {rows : List Row}

omit [Externals] in
theorem plain_of_get (hplain : PlainRows rows) {row : Row} (hrow : row ∈ rows) {k : String} {v : Value}
    (h : row.get k = some v) : v.isPlain = true :=
  hplain row hrow v (List.mem_map.mpr ⟨(k, v), (IndexMap.mem_entries_iff_get row k v).mpr h, rfl⟩)

omit [Externals] in
theorem columnValues_plain (hplain : PlainRows rows) (c : String) :
    ∀ v ∈ columnValues rows c, v.isPlain = true := by
  intro v hv
  obtain ⟨row, hrow, hget⟩ := List.mem_filterMap.mp hv
  exact plain_of_get hplain hrow hget

theorem argumentValues_plain (hplain : PlainRows rows) {e : Expr} {c : String}
    (he : bareColumn e = some c) : ∀ v ∈ argumentValues rows e, v.isPlain = true := by
  intro v hv
  obtain ⟨row, hrow, rfl⟩ := List.mem_map.mp hv
  have hlookup : ∀ k, (lookupColumn (.withRow row) k).isPlain = true := by
    intro k
    change ((row.get k).getD .null).isPlain = true
    cases hget : row.get k with
    | none => rfl
    | some v => exact plain_of_get hplain hrow hget
  cases e with
  | identifier id => exact hlookup id.value
  | compoundIdentifier parts =>
      change (lookupCompound (.withRow row) parts).isPlain = true
      rw [lookupCompound]
      split
      · rename_i hget
        exact plain_of_get hplain hrow hget
      · split
        · exact hlookup _
        · rfl
  | _ => exact nomatch he

theorem count_of_column (names : AggregateCalls) {e : Expr} {c : String} (he : bareColumn e = some c)
    (hplain : PlainRows rows) (hlength : rows.length < 2 ^ 63) :
    (evaluateAggregate (aggregateCall names.count e) rows).integer? =
      some ((integersOf (columnValues rows c)).length : Int) := by
  have hcount : evaluateAggregate (aggregateCall names.count e) rows =
      .integer (.ofNat (nonNull (columnValues rows c)).length) := by
    rw [bareColumn] at he
    simp only [aggregateCall, evaluateAggregate, names.count_lower, he]
    cases e with
    | identifier | compoundIdentifier => rfl
    | _ => exact nomatch he
  have hle : (integersOf (columnValues rows c)).length ≤ rows.length :=
    (List.length_filterMap_le ..).trans (List.length_filterMap_le ..)
  rw [hcount, length_integersOf (columnValues_plain hplain c), Value.integer?,
    Int64.toInt_ofNat_of_lt (hle.trans_lt hlength)]

theorem sum_of_column (names : AggregateCalls) {e : Expr} {c : String} (he : bareColumn e = some c)
    (hplain : PlainRows rows) (hsums : SmallSums rows) :
    (evaluateAggregate (aggregateCall names.sum e) rows).number? =
      some (((integersOf (columnValues rows c)).sum : Int) : Rat) := by
  have hnumeric : rows.filterMap (fun r => numeric (r.get c)) =
      (integersOf (columnValues rows c)).map F64.ofInt := by
    rw [integersOf, columnValues, List.filterMap_filterMap, List.map_filterMap]
    refine List.filterMap_congr fun row hrow => ?_
    cases hget : row.get c with
    | none => rfl
    | some v =>
        have hv := plain_of_get hplain hrow hget
        cases v with
        | null | integer => rfl
        | real | text | blob => exact nomatch hv
  have hsum : sumF64 (rows.filterMap fun r => numeric (r.get c)) =
      .fin ((integersOf (columnValues rows c)).sum : Int) := by
    rw [hnumeric]
    exact F64.foldl_add_ofInt (hsums c)
  have hbound := hsums c _ (List.Sublist.refl _)
  rw [bareColumn] at he
  have hzero : (F64.fin 0).isZero = true := by decide
  simp only [aggregateCall, evaluateAggregate, names.sum_lower, he, hsum, F64.fract_intCast, hzero,
    if_true, Value.number?]
  rw [toInt_f64AsI64 hbound]

theorem max_of_column (names : AggregateCalls) {e : Expr} {c : String} (he : bareColumn e = some c)
    (hplain : PlainRows rows) :
    (evaluateAggregate (aggregateCall names.max e) rows).isPlain = true ∧
      (evaluateAggregate (aggregateCall names.max e) rows).integer? =
        (integersOf (columnValues rows c)).max? := by
  rw [bareColumn] at he
  simp only [aggregateCall, evaluateAggregate, names.max_lower, he]
  exact integer?_maxBy (columnValues_plain hplain c)

theorem min_of_column (names : AggregateCalls) {e : Expr} {c : String} (he : bareColumn e = some c)
    (hplain : PlainRows rows) :
    (evaluateAggregate (aggregateCall names.min e) rows).isPlain = true ∧
      (evaluateAggregate (aggregateCall names.min e) rows).integer? =
        if .null ∈ columnValues rows c then none else (integersOf (columnValues rows c)).min? := by
  rw [bareColumn] at he
  simp only [aggregateCall, evaluateAggregate, names.min_lower, he]
  exact integer?_minBy (columnValues_plain hplain c)

theorem sum_of_other (names : AggregateCalls) {e : Expr} (he : bareColumn e = none) :
    evaluateAggregate (aggregateCall names.sum e) rows = .null := by
  rw [bareColumn] at he
  simp only [aggregateCall, evaluateAggregate, names.sum_lower, he]
  rfl

/-- The four aggregates are right just when the argument is a column, the integers under its bare name
go with those of its values, and no NULL is among them. -/
theorem aggregates_right_iff (names : AggregateCalls) (hplain : PlainRows rows)
    (hsums : SmallSums rows) (hlength : rows.length < 2 ^ 63) (e : Expr) :
    AggregatesRight names rows e ↔ ∃ c, bareColumn e = some c ∧ SameIntegers rows e c := by
  cases he : bareColumn e with
  | none =>
      refine ⟨fun h => ?_, fun ⟨c, hc, _⟩ => nomatch hc⟩
      have hsum := h.sum
      rw [sum_of_other names he] at hsum
      exact nomatch hsum
  | some c =>
      have hvalues := argumentValues_plain hplain he
      obtain ⟨hmax, hmaxInteger⟩ := max_of_column names he hplain
      obtain ⟨hmin, hminInteger⟩ := min_of_column names he hplain
      have hright : AggregatesRight names rows e ↔
          (integersOf (columnValues rows c)).length = (integersOf (argumentValues rows e)).length ∧
          (integersOf (columnValues rows c)).sum = (integersOf (argumentValues rows e)).sum ∧
          (if .null ∈ columnValues rows c then none else (integersOf (columnValues rows c)).min?) =
            (integersOf (argumentValues rows e)).min? ∧
          (integersOf (columnValues rows c)).max? = (integersOf (argumentValues rows e)).max? := by
        have hfields : AggregatesRight names rows e ↔ _ ∧ _ ∧ _ ∧ _ :=
          ⟨fun h => ⟨h.count, h.sum, h.min, h.max⟩, fun h => ⟨h.1, h.2.1, h.2.2.1, h.2.2.2⟩⟩
        rw [hfields, count_of_column names he hplain hlength, length_integersOf hvalues,
          sum_of_column names he hplain hsums, sum_numbers hvalues, leastOf_iff hvalues,
          greatestOf_iff hvalues, hminInteger, hmaxInteger, hmin, hmax]
        simp only [Option.some.injEq, Nat.cast_inj, Int.cast_inj, true_and]
      simp only [Option.some.injEq, exists_eq_left']
      rw [hright]
      constructor
      · rintro ⟨hnumber, hsum, hleast, hgreatest⟩
        by_cases hnull : .null ∈ columnValues rows c
        · rw [if_pos hnull] at hleast
          have hnil := List.min?_eq_none_iff.mp hleast.symm
          rw [hnil, List.length_nil, List.length_eq_zero_iff] at hnumber
          exact ⟨by rw [hnumber, hnil], hsum, by rw [hnumber, hnil], hgreatest, Or.inl hnumber⟩
        · rw [if_neg hnull] at hleast
          exact ⟨hnumber, hsum, hleast, hgreatest, Or.inr hnull⟩
      · rintro ⟨hnumber, hsum, hleast, hgreatest, hnulls⟩
        refine ⟨hnumber, hsum, ?_, hgreatest⟩
        split_ifs with hnull
        · have hnil := hnulls.resolve_right (not_not.mpr hnull)
          rw [← hleast, hnil]
          rfl
        · exact hleast

/-- Of a bare column only MIN can go wrong: where there is a NULL beside an integer. -/
theorem bare_aggregates_right_iff (names : AggregateCalls) (hplain : PlainRows rows)
    (hsums : SmallSums rows) (hlength : rows.length < 2 ^ 63) (id : Ident) :
    AggregatesRight names rows (.identifier id) ↔
      integersOf (columnValues rows id.value) = [] ∨ .null ∉ columnValues rows id.value := by
  have hsame : integersOf (argumentValues rows (.identifier id)) =
      integersOf (columnValues rows id.value) := by
    rw [integersOf, integersOf, argumentValues, columnValues, List.filterMap_map,
      List.filterMap_filterMap]
    refine List.filterMap_congr fun row _ => ?_
    change ((row.get id.value).getD .null).integer? = _
    cases row.get id.value <;> rfl
  rw [aggregates_right_iff names hplain hsums hlength]
  constructor
  · rintro ⟨c, hc, h⟩
    obtain rfl := Option.some.inj hc
    exact h.nulls
  · exact fun hnulls => ⟨id.value, rfl, ⟨by rw [hsame], by rw [hsame], by rw [hsame], by rw [hsame],
      hnulls⟩⟩

end Calls

namespace Sample

def capitals : @AggregateCalls (Externals.ofTexts [] []) :=
  letI := Externals.ofTexts [] []
  ⟨"COUNT", "SUM", "MIN", "MAX", by decide, by decide, by decide,
    by decide⟩

/-- Rows with a column `a`. -/
def columnA (values : List Value) : List Row := values.map fun v => .ofList [("a", v)]

theorem columnA_plain {values : List Value} (h : ∀ v ∈ values, v.isPlain = true) :
    PlainRows (columnA values) := by
  intro row hrow v hv
  obtain ⟨w, hw, rfl⟩ := List.mem_map.mp hrow
  have hvalues : (IndexMap.ofList [("a", w)] : Row).values = [w] := rfl
  rw [hvalues, List.mem_singleton] at hv
  exact hv ▸ h w hw

end Sample

theorem aggregates_right_one_two :
    letI := Externals.ofTexts [] []
    AggregatesRight Sample.capitals (Sample.columnA [.integer 1, .integer 2])
      (Sample.identifier "a") := by
  let _ := Externals.ofTexts [] []
  have hplain : PlainRows (Sample.columnA [.integer 1, .integer 2]) :=
    Sample.columnA_plain (List.forall_mem_cons.mpr ⟨rfl, List.forall_mem_singleton.mpr rfl⟩)
  have hsums : SmallSums (Sample.columnA [.integer 1, .integer 2]) := by
    intro c part hpart
    by_cases hc : c = "a"
    · have hvalues : integersOf (columnValues (Sample.columnA [.integer 1, .integer 2]) "a") =
          [1, 2] := by decide
      rw [hc, hvalues, ← List.mem_sublists] at hpart
      revert part
      decide
    · have hnone : integersOf (columnValues (Sample.columnA [.integer 1, .integer 2]) c) = [] := by
        have hget : ∀ v, (IndexMap.ofList [("a", v)] : Row).get c = none := fun v =>
          (IndexMap.get_insert ∅ "a" v c).trans (if_neg hc)
        simp [columnValues, Sample.columnA, hget, integersOf]
      rw [hnone, List.sublist_nil] at hpart
      rw [hpart]
      decide
  exact (aggregates_right_iff Sample.capitals hplain hsums (by decide) (Sample.identifier "a")).mpr
    ⟨"a", rfl, by decide, by decide, by decide, by decide,
      by decide⟩

/-- MIN of NULL and 1 is NULL, and the least value that is not NULL is 1. -/
theorem min_of_null_and_one :
    letI := Externals.ofTexts [] []
    let rows := Sample.columnA [.null, .integer 1]
    evaluateAggregate (aggregateCall "MIN" (Sample.identifier "a")) rows = .null ∧
    nonNull (argumentValues rows (Sample.identifier "a")) = [.integer 1] ∧
    ¬AggregatesRight Sample.capitals rows (Sample.identifier "a") := by
  let _ := Externals.ofTexts [] []
  have hmin : evaluateAggregate (aggregateCall "MIN" (Sample.identifier "a"))
      (Sample.columnA [.null, .integer 1]) = .null := by decide
  have hvalues : nonNull (argumentValues (Sample.columnA [.null, .integer 1])
      (Sample.identifier "a")) = [.integer 1] := by decide
  refine ⟨hmin, hvalues, fun h => ?_⟩
  have hleast := h.min
  rw [hvalues, show Sample.capitals.min = "MIN" from rfl, hmin] at hleast
  rcases hleast with ⟨hnil, -⟩ | ⟨hmem, -⟩
  · exact nomatch hnil
  · exact nomatch List.mem_singleton.mp hmem

end Skvs
