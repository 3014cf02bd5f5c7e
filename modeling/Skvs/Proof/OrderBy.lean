import Skvs.Proof.FastPath
import Skvs.Proof.SelectRows
import Skvs.Lib.StableSort

/-!
# ORDER BY

The items are sorted by one after the other, from the last to the first. On values other than REALs
`compare` is a total preorder in which only equal values tie.
-/

namespace Skvs

open StableSort

theorem Value.compare_trans {a b c : Value} (ha : a.isReal = false) (hb : b.isReal = false)
    (hc : c.isReal = false) (hab : a.compare b ≠ .gt) (hbc : b.compare c ≠ .gt) :
    a.compare c ≠ .gt := by
  rw [ne_eq, Ordering.ne_gt_iff_isLE] at hab hbc ⊢
  cases a <;> cases b <;> cases c <;> simp only [isReal, Bool.true_eq_false] at ha hb hc <;>
    simp only [Value.compare, typeRank] at hab hbc ⊢ <;>
    first
    | rfl
    | exact Std.TransCmp.isLE_trans hab hbc
    | exact absurd hab (by decide)
    | exact absurd hbc (by decide)

section

variable [Externals] {order : OrderByExpr} {orderBy : List OrderByExpr} {rows : List Row}

/-- The item has a value other than a REAL on the row. -/
def OrderByExpr.Comparable (order : OrderByExpr) (row : Row) : Prop :=
  (orderKey order row).isReal = false

theorem orderCompare_preorder (order : OrderByExpr) :
    PreorderOn order.Comparable (orderCompare order) where
  swap := by
    intro a b _ _
    rw [orderCompare, orderCompare, Value.compare_swap (orderKey order a) (orderKey order b)]
    cases order.asc.getD true <;> rfl
  trans := by
    intro a b c ha hb hc hab hbc
    simp only [orderCompare] at hab hbc ⊢
    cases hasc : order.asc.getD true with
    | true =>
        simp only [hasc, if_true] at hab hbc ⊢
        exact Value.compare_trans ha hb hc hab hbc
    | false =>
        simp only [hasc, Bool.false_eq_true, if_false, ← Value.compare_swap] at hab hbc ⊢
        exact Value.compare_trans hc hb ha hbc hab

theorem orderCompare_eq_eq {a b : Row} (ha : order.Comparable a) (hb : order.Comparable b) :
    orderCompare order a b = .eq ↔ orderKey order a = orderKey order b := by
  rw [← compare_reflects _ _ ha hb, orderCompare]
  cases order.asc.getD true with
  | true => rfl
  | false =>
      simp only [Bool.false_eq_true, if_false]
      exact Ordering.swap_eq_eq

/-- The rows have the same value for every item. -/
def sameKeys (orderBy : List OrderByExpr) (a b : Row) : Bool :=
  orderBy.all fun order => orderKey order a = orderKey order b

theorem applyOrderBy_eq_passes (rows : List Row) (orderBy : List OrderByExpr) :
    applyOrderBy rows orderBy = (orderBy.map orderCompare).foldr pass rows := by
  rw [applyOrderBy, List.foldl_reverse, List.foldr_map]
  rfl

/-- ORDER BY sorts lexicographically, the first item first, and leaves rows that have the same value
for every item in their order. -/
theorem applyOrderBy_sorts
    (hreal : ∀ row ∈ rows, ∀ order ∈ orderBy, (orderKey order row).isReal = false) :
    (applyOrderBy rows orderBy).Perm rows ∧
    (applyOrderBy rows orderBy).Pairwise
      (fun a b => lexCompare (orderBy.map orderCompare) a b ≠ .gt) ∧
    ∀ row ∈ rows, (applyOrderBy rows orderBy).filter (sameKeys orderBy row) =
      rows.filter (sameKeys orderBy row) := by
  let comparable : Row → Prop := fun row => ∀ order ∈ orderBy, order.Comparable row
  have hpreorder : ∀ cmp ∈ orderBy.map orderCompare, PreorderOn comparable cmp := by
    intro cmp hcmp
    obtain ⟨order, horder, rfl⟩ := List.mem_map.mp hcmp
    have h := orderCompare_preorder order
    exact ⟨fun ha hb => h.swap (ha order horder) (hb order horder),
      fun ha hb hc => h.trans (ha order horder) (hb order horder) (hc order horder)⟩
  have hsorted := sortedBy_passes hpreorder hreal
  rw [← applyOrderBy_eq_passes] at hsorted
  refine ⟨hsorted.perm, hsorted.sorted, fun row hrow => ?_⟩
  have htie : ∀ other ∈ rows, sameKeys orderBy row other =
      (lexCompare (orderBy.map orderCompare) row other == .eq) := by
    intro other hother
    rw [Bool.eq_iff_iff, beq_iff_eq, lexCompare_eq_eq, List.forall_mem_map, sameKeys,
      List.all_eq_true]
    refine forall₂_congr fun order horder => ?_
    rw [orderCompare_eq_eq (hreal row hrow order horder) (hreal other hother order horder),
      decide_eq_true_eq]
  calc (applyOrderBy rows orderBy).filter (sameKeys orderBy row)
      = ties (lexCompare (orderBy.map orderCompare)) row (applyOrderBy rows orderBy) :=
        List.filter_congr fun other h => htie other (hsorted.perm.subset h)
    _ = ties (lexCompare (orderBy.map orderCompare)) row rows := hsorted.stable row hrow
    _ = rows.filter (sameKeys orderBy row) := (List.filter_congr htie).symm

end

namespace Sample

def byColumn (n : String) (asc : Bool) : OrderByExpr := ⟨.identifier (name n), some asc⟩

def pair (a b : Int64) : Row := .ofList [("a", .integer a), ("b", .integer b)]

end Sample

/-- `ORDER BY a ASC, b DESC` on three rows. -/
theorem applyOrderBy_sorts_pairs :
    letI := Externals.ofTexts [] []
    let orderBy := [Sample.byColumn "a" true, Sample.byColumn "b" false]
    (applyOrderBy [Sample.pair 2 1, Sample.pair 1 1, Sample.pair 1 2] orderBy).Pairwise
      fun a b => lexCompare (orderBy.map orderCompare) a b ≠ .gt :=
  let _ := Externals.ofTexts [] []
  (applyOrderBy_sorts (by decide)).2.1

end Skvs
