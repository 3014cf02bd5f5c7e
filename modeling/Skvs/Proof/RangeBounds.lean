import Skvs.Proof.FastPath

/-!
# The bounds of a range lookup

A WHERE clause that is one range comparison asks an index for a range of keys, and an ordered map
panics if the bounds of a range cross. Comparisons have one bound only. BETWEEN has two, and they
are looked up as they come.
-/

namespace Skvs

variable [Externals]

/-- A clause that is looked up as a range between two values has them in order. -/
def BoundsInOrder (params : List Value) (e : Expr) : Prop :=
  ∀ inner low high, e = .between inner false low high →
    (evalFrom .noRow params low 0).compare (evalFrom .noRow params high 0) ≠ .gt

section Bounds

variable {state : KvsState} {dbId : UInt32} {table : String} {e : Expr} {params : List Value}
  {col : String} {lower upper : Bound Value}

theorem rangeOk_simpleRange_iff (hrange : simpleRange e params = some (col, lower, upper)) :
    BTreeMap.rangeOk Value.compare lower upper = true ↔ BoundsInOrder params e := by
  unfold simpleRange at hrange
  split at hrange
  case h_1 left op right =>
    -- a comparison leaves one side unbounded
    have hone : BTreeMap.rangeOk Value.compare lower upper = true := by
      split at hrange
      · exact nomatch hrange
      · dsimp only at hrange
        split at hrange <;> cases hrange <;> rfl
    exact iff_of_true hone fun _ _ _ h => nomatch h
  case h_2 inner low high =>
    split at hrange
    · cases hrange
      rw [BTreeMap.rangeOk, bne_iff_ne]
      constructor
      · rintro hne _ _ _ heq
        cases heq
        exact hne
      · intro h
        exact h _ low high rfl
    · exact nomatch hrange
  case h_3 => exact nomatch hrange

theorem simpleEquality_of_range (hrange : simpleRange e params = some (col, lower, upper)) :
    simpleEquality e params = none := by
  unfold simpleEquality
  split
  · next left right =>
      simp only [simpleRange] at hrange
      split at hrange
      · cases hrange
      · next flipped _ => cases flipped <;> cases hrange
  · rfl

/-- A range comparison on an indexed column is looked up in the index. -/
theorem fastPath_of_range (hrange : simpleRange e params = some (col, lower, upper)) {idx : IndexDef}
    (hindex : ((state.getSchema dbId table).bind fun schema => findIndex schema col) = some idx) :
    fastPath state dbId table e params = some (idx, .range lower upper) := by
  simp only [fastPath, simpleEquality_of_range hrange, hrange, Option.bind_none, Option.bind_some,
    hindex, Option.map_some]

theorem rowsForSimpleWhere_panics_iff (hrange : simpleRange e params = some (col, lower, upper))
    {idx : IndexDef}
    (hindex : ((state.getSchema dbId table).bind fun schema => findIndex schema col) = some idx) :
    rowsForSimpleWhere state dbId table (some e) params = .error .panic ↔
      ¬BoundsInOrder params e := by
  rw [rowsForSimpleWhere_eq, fastPath_of_range hrange hindex, ← rangeOk_simpleRange_iff hrange]
  simp only [Lookup.allowed]
  split_ifs with hok
  · rw [rowsFromIds]
    cases state.getTableStore dbId table <;> simp [hok]
  · simp [hok]

end Bounds

/-- **Ranges between two values.** On an indexed column, the bounds of a range lookup meet the
precondition of the ordered map, and there is no panic where a scan would return rows, exactly if the
clause is no BETWEEN whose lower value is greater than its upper one. -/
theorem range_lookup_allowed_iff (state : KvsState) (dbId : UInt32) (table : String) (e : Expr)
    (params : List Value) (col : String) (lower upper : Bound Value) (idx : IndexDef)
    (hrange : simpleRange e params = some (col, lower, upper))
    (hindex : ((state.getSchema dbId table).bind fun schema => findIndex schema col) = some idx) :
    ((∀ lo hi, lower.key? = some lo → upper.key? = some hi → lo.compare hi ≠ .gt) ∧
      (∀ lo hi, lower = .excluded lo → upper = .excluded hi → lo.compare hi ≠ .eq) ∧
      ∀ rows, scanRows state dbId table = .ok rows →
        rowsForSimpleWhere state dbId table (some e) params ≠ .error .panic) ↔
      BoundsInOrder params e := by
  rw [← and_assoc, ← BTreeMap.rangeOk_iff, rangeOk_simpleRange_iff hrange]
  refine and_iff_left_of_imp fun horder rows _ => ?_
  rw [ne_eq, rowsForSimpleWhere_panics_iff hrange hindex, not_not]
  exact horder

/-! ### Where it fails -/

namespace Sample

/-- `a BETWEEN low AND high`. -/
def betweenNumbers (low high : String) : Expr :=
  .between (.identifier (name "a")) false (.value (.number low)) (.value (.number high))

/-- `SELECT * FROM t WHERE e`. -/
def selectWhere (e : Expr) : Query :=
  ⟨.select ⟨false, [.wildcard], [⟨.table "t" none, []⟩], some e, .expressions []⟩, [], none, none⟩

end Sample

omit [Externals] in
/-- `a BETWEEN 5 AND 1` with an index on `a` is a panic; without one it is no rows. -/
theorem crossed_between_panics :
    letI := Externals.ofTexts [] []
    let e := Sample.betweenNumbers "5" "1"
    let scanned := Sample.after [Sample.call (Sample.create []) none,
      Sample.call (Sample.insert [.number "1"]) none]
    simpleRange e [] = some ("a", .included (.integer 5), .included (.integer 1)) ∧
      (Value.integer 5).compare (.integer 1) = .gt ∧
      (executeSelect (Sample.after (Sample.indexed [.number "1"])) 0 3 (Sample.selectWhere e)
        []).map QueryResult.rows = .error .panic ∧
      (executeSelect scanned 0 3 (Sample.selectWhere e) []).map QueryResult.rows = .ok [] := by
  decide

omit [Externals] in
theorem ordered_between_allowed :
    letI := Externals.ofTexts [] []
    let s := Sample.after (Sample.indexed [.number "1"])
    ∀ rows, scanRows s 0 "t" = .ok rows →
      rowsForSimpleWhere s 0 "t" (some (Sample.betweenNumbers "1" "5")) [] ≠ .error .panic := by
  let _ := Externals.ofTexts [] []
  intro s
  have horder : BoundsInOrder [] (Sample.betweenNumbers "1" "5") := by
    rintro _ _ _ heq
    cases heq
    decide
  exact ((range_lookup_allowed_iff s 0 "t" (Sample.betweenNumbers "1" "5") [] "a"
    (.included (.integer 1)) (.included (.integer 5)) ⟨"i", ["a"], false, none, false⟩ (by decide)
    (by decide)).mpr horder).2.2

end Skvs
