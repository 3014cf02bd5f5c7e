import Skvs.Proof.Joins
import Skvs.Proof.SelectRows
import Std.Data.String.ToInt

/-!
# The hash join against the nested loop

A hash key tells any two values apart that are not REAL, so that the bucket of a left row holds just
the rows on which the condition is true.
-/

namespace Skvs

/-! ### Hash keys -/

theorem hexDigit_inj {m n : Nat} (hm : m < 16) (hn : n < 16)
    (h : Text.hexDigit m = Text.hexDigit n) : m = n := by
  have hall : ∀ m < 16, ∀ n < 16, Text.hexDigit m = Text.hexDigit n → m = n := by decide
  exact hall m hm n hn h

theorem hexEncode_inj {b c : List UInt8} (h : Text.hexEncode b = Text.hexEncode c) : b = c := by
  rw [Text.hexEncode, Text.hexEncode, String.ofList_inj] at h
  induction b generalizing c with
  | nil =>
      cases c with
      | nil => rfl
      | cons y c => exact nomatch h
  | cons x b ih =>
      cases c with
      | nil => exact nomatch h
      | cons y c =>
          rw [List.flatMap_cons, List.flatMap_cons] at h
          obtain ⟨hhigh, hrest⟩ := List.cons.inj h
          obtain ⟨hlow, hrest⟩ := List.cons.inj hrest
          have hx := x.toNat_lt
          have hy := y.toNat_lt
          have hdiv := hexDigit_inj (by omega) (by omega) hhigh
          have hmod := hexDigit_inj (by omega) (by omega) hlow
          have heq : x = y := UInt8.toNat_inj.mp (by omega)
          rw [heq, ih hrest]

def keyTag : Value → Char
  | .null => 'n'
  | .integer _ => 'i'
  | .real _ => 'f'
  | .text _ => 't'
  | .blob _ => 'b'

def keyText : Value → String
  | .null => ""
  | .integer i => toString i
  | .real f => f.display
  | .text s => s
  | .blob b => Text.hexEncode b

theorem toList_valueToKeyString (v : Value) :
    (valueToKeyString v).toList = keyTag v :: ':' :: (keyText v).toList := by
  cases v <;> simp [valueToKeyString, keyTag, keyText, toString]

theorem valueToKeyString_inj {v w : Value} (hv : v.isReal = false)
    (h : valueToKeyString v = valueToKeyString w) : v = w := by
  have hlist := congrArg String.toList h
  rw [toList_valueToKeyString, toList_valueToKeyString] at hlist
  obtain ⟨htag, hrest⟩ := List.cons.inj hlist
  have htext := String.toList_inj.mp (List.cons.inj hrest).2
  cases v <;> cases w <;> simp only [keyTag, Char.reduceEq] at htag
  case null.null => rfl
  case integer.integer i j => exact congrArg _ (Int64.toInt_inj.mp (Int.repr_injective htext))
  case real.real => exact nomatch hv
  case text.text => exact congrArg _ htext
  case blob.blob => exact congrArg _ (hexEncode_inj htext)

theorem Value.partialEq_comm (v w : Value) : v.partialEq w = w.partialEq v := by
  cases v <;> cases w <;> simp only [Value.partialEq, eq_comm, reduceCtorEq]
  case real.real f g =>
      rw [F64.ieeeEq, F64.ieeeEq, F64.partialCmp_swap f g]
      cases F64.partialCmp f g with
      | none => rfl
      | some o => cases o <;> rfl

theorem sameKey_eq_partialEq {v w : Value} (hv : v.isReal = false) :
    sameKey (some v) (some w) = v.partialEq w := by
  have hkey : sameKey (some v) (some w) = decide (v = w) := decide_eq_decide.mpr
    ⟨fun h => valueToKeyString_inj hv h, fun h => congrArg valueToKeyString h⟩
  rw [hkey]
  cases v with
  | real => exact nomatch hv
  | null | integer | text | blob => rfl

/-! ### The condition on the merged row -/

theorem joinSide_cases {name1 name2 col : String} {e : Expr} {first : Bool}
    (h : joinSide name1 name2 e = some (first, col)) :
    ∃ t i, e = .compoundIdentifier [t, i] ∧ i.value = col ∧
      t.value = if first then name1 else name2 := by
  match e with
  | .compoundIdentifier [t, i] =>
    rw [joinSide] at h
    split_ifs at h with h1 h2
    · obtain ⟨rfl, rfl⟩ := Prod.mk.inj (Option.some.inj h)
      exact ⟨t, i, rfl, rfl, h1⟩
    · obtain ⟨rfl, rfl⟩ := Prod.mk.inj (Option.some.inj h)
      exact ⟨t, i, rfl, rfl, h2⟩

/-- A condition that a hash join can be on equates a column of either table, in either order. -/
theorem extractEquiJoin_cases {c : JoinConstraint} {name1 name2 c1 c2 : String}
    (h : extractEquiJoin c name1 name2 = some (c1, c2)) :
    ∃ t1 i1 t2 i2 : Ident, t1.value = name1 ∧ i1.value = c1 ∧ t2.value = name2 ∧ i2.value = c2 ∧
      (c = .on (.binaryOp (.compoundIdentifier [t1, i1]) .eq (.compoundIdentifier [t2, i2])) ∨
        c = .on (.binaryOp (.compoundIdentifier [t2, i2]) .eq (.compoundIdentifier [t1, i1]))) := by
  match c with
  | .on (.binaryOp left .eq right) =>
    rw [extractEquiJoin_on] at h
    split at h
    next c1' c2' hl hr =>
      obtain ⟨rfl, rfl⟩ := Prod.mk.inj (Option.some.inj h)
      obtain ⟨t1, i1, rfl, hi1, ht1⟩ := joinSide_cases hl
      obtain ⟨t2, i2, rfl, hi2, ht2⟩ := joinSide_cases hr
      exact ⟨t1, i1, t2, i2, ht1, hi1, ht2, hi2, Or.inl rfl⟩
    next c2' c1' hl hr =>
      obtain ⟨rfl, rfl⟩ := Prod.mk.inj (Option.some.inj h)
      obtain ⟨t2, i2, rfl, hi2, ht2⟩ := joinSide_cases hl
      obtain ⟨t1, i1, rfl, hi1, ht1⟩ := joinSide_cases hr
      exact ⟨t1, i1, t2, i2, ht1, hi1, ht2, hi2, Or.inr rfl⟩
    next => exact nomatch h

variable [Externals]

theorem whereHolds_eq_refs (state : KvsState) (dbId : UInt32) (row : Row) (params : List Value)
    (parts parts' : List Ident) :
    whereHolds state dbId row params
        (.binaryOp (.compoundIdentifier parts) .eq (.compoundIdentifier parts')) 0 =
      (lookupCompound (.withRow row) parts).partialEq (lookupCompound (.withRow row) parts') := by
  simp only [whereHolds, evaluateWhereCtx, eval]
  exact truthy_boolVal _

/-- On a row that has both columns the condition compares their values. -/
theorem joinConditionMatches_of_equi {c : JoinConstraint} {name1 name2 c1 c2 : String}
    (h : extractEquiJoin c name1 name2 = some (c1, c2)) (state : KvsState) (dbId : UInt32)
    (params : List Value) {combined : Row} {v w : Value}
    (hv : combined.get (qualifiedName name1 c1) = some v)
    (hw : combined.get (qualifiedName name2 c2) = some w) :
    joinConditionMatches state dbId combined c params = v.partialEq w := by
  obtain ⟨t1, i1, t2, i2, rfl, rfl, rfl, rfl, hc⟩ := extractEquiJoin_cases h
  have hleft : lookupCompound (.withRow combined) [t1, i1] = v := by
    rw [lookupCompound_pair, hv]
    rfl
  have hright : lookupCompound (.withRow combined) [t2, i2] = w := by
    rw [lookupCompound_pair, hw]
    rfl
  rcases hc with rfl | rfl
  · rw [joinConditionMatches, whereHolds_eq_refs, hleft, hright]
  · rw [joinConditionMatches, whereHolds_eq_refs, hleft, hright, Value.partialEq_comm]

omit [Externals] in
theorem extractEquiJoin_ne {c : JoinConstraint} {name1 name2 c1 c2 : String}
    (h : extractEquiJoin c name1 name2 = some (c1, c2)) : name1 ≠ name2 := by
  rintro rfl
  match c with
  | .on (.binaryOp left .eq right) =>
    have hside : ∀ e col, joinSide name1 name1 e ≠ some (false, col) := by
      intro e col hside
      match e with
      | .compoundIdentifier [t, i] =>
        rw [joinSide] at hside
        split_ifs at hside
        · exact nomatch (Prod.mk.inj (Option.some.inj hside)).1
    rw [extractEquiJoin_on] at h
    split at h
    next hl hr => exact hside _ _ hr
    next hl hr => exact hside _ _ hl
    next => exact nomatch h

section HashJoin

variable {state : KvsState} {dbId : UInt32} {relation1 relation2 : TableFactor}
  {store1 store2 : Store} {c : JoinConstraint} {c1 c2 : String}

/-- A pair has the same hash key just when the condition is true on the merged row. -/
theorem pairsUp_eq_of_equi {name1 name2 : String}
    (hequi : extractEquiJoin c name1 name2 = some (c1, c2)) (params : List Value) {row1 row2 : Row}
    {v w : Value} (hv : row1.get c1 = some v) (hw : row2.get c2 = some w) (hreal : v.isReal = false)
    (hdot : '.' ∉ c1.toList) (hdots : ∀ k ∈ row2.keys, '.' ∉ k.toList) :
    pairsUp state dbId true name1 name2 c params (insertRowQualified ∅ name1 row1) row2 =
      pairsUp state dbId false name1 name2 c params (insertRowQualified ∅ name1 row1) row2 := by
  have hstart := get_qualified ∅ name1 hv
  have hleft : (insertRowQualified (insertRowQualified ∅ name1 row1) name2 row2).get
      (qualifiedName name1 c1) = some v := by
    have hapart : ∀ k ∈ row2.keys, qualifiedName name2 k ≠ qualifiedName name1 c1 :=
      fun k hk heq => extractEquiJoin_ne hequi (qualifiedName_table (hdots k hk) hdot heq).symm
    rw [get_kept _ hapart, hstart, Option.some_or]
  have hcols : equiColumns true name1 name2 c = some (c1, c2) := (if_pos rfl).trans hequi
  rw [pairsUp_of_equi state dbId params hcols, pairsUp_of_scan state dbId params rfl, hstart, hw,
    sameKey_eq_partialEq hreal,
    joinConditionMatches_of_equi hequi state dbId params hleft (get_qualified _ name2 hw)]

/-- The hash join puts out the rows of the nested loop, in their order. -/
theorem hash_join_eq_nested_loop
    (hstore1 : state.getTableStore dbId (parseTableFactor relation1).1 = some store1)
    (hstore2 : state.getTableStore dbId (parseTableFactor relation2).1 = some store2)
    (hequi : extractEquiJoin c (refName relation1) (refName relation2) = some (c1, c2))
    (hcol1 : ∀ rowid row, store1.get rowid = some row → ∃ v, row.get c1 = some v ∧ v.isReal = false)
    (hcol2 : ∀ rowid row, store2.get rowid = some row → ∃ w, row.get c2 = some w)
    (hdot : '.' ∉ c1.toList)
    (hdots : ∀ rowid row, store2.get rowid = some row → ∀ k ∈ row.keys, '.' ∉ k.toList)
    {op : JoinOperator} (hop : op = .inner c ∨ op = .leftOuter c) (params : List Value) :
    executeJoins state dbId [⟨relation1, [⟨relation2, op⟩]⟩] params =
      executeJoin state dbId false (refName relation1) (startRows (refName relation1) store1)
        ⟨relation2, op⟩ params := by
  have hsame : ∀ row1 ∈ startRows (refName relation1) store1,
      partners state dbId true (refName relation1) (refName relation2) c params
          (joinedRows store2) row1 =
        partners state dbId false (refName relation1) (refName relation2) c params
          (joinedRows store2) row1 := by
    intro row1 hrow1
    obtain ⟨row, hrow, rfl⟩ := List.mem_map.mp hrow1
    obtain ⟨rowid1, hget1⟩ := mem_joinedRows.mp hrow
    obtain ⟨v, hv, hreal⟩ := hcol1 rowid1 row hget1
    refine congrArg _ (List.filter_congr fun row2 hrow2 => ?_)
    obtain ⟨rowid2, hget2⟩ := mem_joinedRows.mp hrow2
    obtain ⟨w, hw⟩ := hcol2 rowid2 row2 hget2
    exact pairsUp_eq_of_equi hequi params hv hw hreal hdot (hdots rowid2 row2 hget2)
  rw [executeJoins_pair params hstore1]
  rcases hop with rfl | rfl
  · rw [executeJoin_inner hstore2, executeJoin_inner hstore2]
    exact congrArg _ (List.flatMap_congr hsame)
  · rw [executeJoin_leftOuter hstore2, executeJoin_leftOuter hstore2]
    refine congrArg _ (List.flatMap_congr fun row1 hrow1 => ?_)
    rw [hsame row1 hrow1]

end HashJoin

/-- `a (id)` with 1 and 2, and `b (id)` with 1. -/
def Sample.onePair : KvsState :=
  letI := Externals.ofTexts [] []
  after (filled "a" ["id"] [[.number "1"], [.number "2"]] ++ filled "b" ["id"] [[.number "1"]])

omit [Externals] in
/-- `a LEFT JOIN b ON a.id = b.id`: the 1 in `a` has a partner and the 2 has none. -/
theorem hash_left_join_eq_nested_loop :
    letI := Externals.ofTexts [] []
    let s := Sample.onePair
    let start := startRows "a" ((s.getTableStore 0 "a").getD ∅)
    let joined := executeJoins s 0 (Sample.aJoins (.leftOuter (Sample.onId "id"))) []
    joined =
        executeJoin s 0 false "a" start ⟨.table "b" none, .leftOuter (Sample.onId "id")⟩ [] ∧
      joined.map (fun rows => rows.map fun row => row.get "b.id") =
        .ok [some (.integer 1), some .null] := by
  let _ := Externals.ofTexts [] []
  intro s start joined
  have hleft : ((s.getTableStore 0 "a").getD ∅).entries =
      [(1, .ofList [("id", .integer 1)]), (2, .ofList [("id", .integer 2)])] := by
    decide
  have hright : ((s.getTableStore 0 "b").getD ∅).entries = [(1, .ofList [("id", .integer 1)])] := by
    decide
  have hone : ∀ n : Int64, ∃ v, (IndexMap.ofList [("id", Value.integer n)]).get "id" = some v ∧
      v.isReal = false := fun n => ⟨.integer n, rfl, rfl⟩
  have hequi : extractEquiJoin (Sample.onId "id") "a" "b" = some ("id", "id") := by decide
  refine ⟨hash_join_eq_nested_loop (by decide) (by decide) hequi
    (rows_of_entries hleft (List.forall_mem_cons.mpr ⟨hone 1, List.forall_mem_singleton.mpr (hone 2)⟩))
    (rows_of_entries hright (List.forall_mem_singleton.mpr ⟨.integer 1, rfl⟩)) (by decide)
    (rows_of_entries hright (List.forall_mem_singleton.mpr
      (List.forall_mem_singleton.mpr (by decide)))) (Or.inr rfl) [], by decide⟩

end Skvs
