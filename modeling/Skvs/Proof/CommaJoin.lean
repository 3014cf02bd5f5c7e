import Skvs.Proof.Joins
import Skvs.Proof.SelectRows

/-!
# FROM with commas

Of the items of a FROM list only the first one is read, so that `FROM t1, t2` returns the rows of
`t1` on their own.
-/

namespace Skvs

/-! ### Merging rows of several tables -/

/-- Merge rows, each under the name of its table. -/
def mergeAll (row : Row) (parts : List (String × Row)) : Row :=
  parts.foldl (fun combined part => insertRowQualified combined part.1 part.2) row

/-- What the merge puts over a row and what it puts under it. -/
theorem get_mergeAll (parts : List (String × Row)) : ∃ above below : String → Option Value,
    ∀ row k, (mergeAll row parts).get k = (above k).or ((row.get k).or (below k)) := by
  induction parts with
  | nil => exact ⟨fun _ => none, fun _ => none, fun row k => by simp [mergeAll]⟩
  | cons part parts ih =>
      obtain ⟨above, below, hget⟩ := ih
      refine ⟨fun k => (above k).or (qualifiedField part.1 part.2 k),
        fun k => (part.2.get k).or (below k), fun row k => ?_⟩
      rw [mergeAll, List.foldl_cons, ← mergeAll, hget, get_insertRowQualified]
      simp only [Option.or_assoc]

/-- Merging the same rows again changes nothing. -/
theorem get_mergeAll_of_get {parts : List (String × Row)} {row row' : Row} {k : String}
    (h : row.get k = (mergeAll row' parts).get k) : (mergeAll row parts).get k = row.get k := by
  obtain ⟨above, below, hget⟩ := get_mergeAll parts
  rw [hget, h, hget]
  cases above k <;> cases row'.get k <;> cases below k <;> rfl

/-- A name that none of the merged rows has is left alone. -/
theorem get_mergeAll_of_none {parts : List (String × Row)} {k : String} (hdot : '.' ∉ k.toList)
    (h : ∀ part ∈ parts, part.2.get k = none) (row : Row) :
    (mergeAll row parts).get k = row.get k := by
  induction parts generalizing row with
  | nil => rfl
  | cons part parts ih =>
      rw [List.forall_mem_cons] at h
      rw [mergeAll, List.foldl_cons, ← mergeAll, ih h.2,
        get_kept row fun _ _ => (ne_qualifiedName hdot).symm, h.1, Option.or_none]

theorem keys_prefix_insert (m : Row) (k : String) (v : Value) : m.keys <+: (m.insert k v).keys := by
  by_cases hk : k ∈ m.keys
  · rw [IndexMap.keys_insert_of_mem v hk]
  · rw [IndexMap.keys_insert_of_not_mem v hk]
    exact List.prefix_append ..

theorem keys_prefix_insertIfNew (m : Row) (k : String) (v : Value) :
    m.keys <+: (m.insertIfNew k v).keys := by
  rw [IndexMap.insertIfNew]
  split_ifs
  · exact List.prefix_rfl
  · exact keys_prefix_insert m k v

theorem keys_prefix_mergeAll (row : Row) (parts : List (String × Row)) :
    row.keys <+: (mergeAll row parts).keys := by
  have hfields : ∀ (t : String) (es : List (String × Value)) (m : Row), m.keys <+: (es.foldl
      (fun r e => (r.insert (qualifiedName t e.1) e.2).insertIfNew e.1 e.2) m).keys := by
    intro t es
    induction es with
    | nil => exact fun _ => List.prefix_rfl
    | cons e es ih =>
        exact fun m => ((keys_prefix_insert m _ _).trans (keys_prefix_insertIfNew ..)).trans (ih _)
  induction parts generalizing row with
  | nil => exact List.prefix_rfl
  | cons part parts ih => exact (hfields part.1 part.2.entries row).trans (ih _)

/-- A merge that no lookup notices changes nothing, the order of the keys included. -/
theorem mergeAll_eq_self {row : Row} {parts : List (String × Row)}
    (h : ∀ k, (mergeAll row parts).get k = row.get k) : mergeAll row parts = row := by
  have hlength := IndexMap.length_keys_eq h
  have hkeys := (keys_prefix_mergeAll row parts).eq_of_length hlength.symm
  exact IndexMap.ext_keys_get hkeys.symm h

/-! ### The combinations -/

/-- The ways to take a row of each table. -/
def combinations [Externals] : List (TableFactor × Store) → List (List (String × Row))
  | [] => [[]]
  | (relation, store) :: tables => (joinedRows store).flatMap fun row =>
      (combinations tables).map fun parts => (refName relation, row) :: parts

variable [Externals]

section Rows

variable {state : KvsState} {dbId : UInt32} {relation1 : TableFactor} {store1 : Store}
  (hstore1 : state.getTableStore dbId (parseTableFactor relation1).1 = some store1)
  {tables : List (TableFactor × Store)}
  (htables : ∀ t ∈ tables, state.getTableStore dbId (parseTableFactor t.1).1 = some t.2)
  (params : List Value)

include htables in
theorem foldlM_crossJoin (name1 : String) (i : Nat) (rows : List Row) :
    ((tables.map fun t => (⟨t.1, .crossJoin⟩ : Join)).zipIdx i).foldlM (fun result (join, joinIdx) =>
        executeJoin state dbId (joinIdx = 0) name1 result join params) rows =
      .ok (rows.flatMap fun row => (combinations tables).map (mergeAll row)) := by
  induction tables generalizing i rows with
  | nil =>
      have hself : (rows.flatMap fun row => (combinations []).map (mergeAll row)) = rows :=
        List.flatMap_singleton' rows
      rw [hself]
      rfl
  | cons t tables ih =>
      rw [List.forall_mem_cons] at htables
      have hfirst := executeJoin_crossJoin htables.1 (decide (i = 0)) name1 rows params
      rw [List.map_cons, List.zipIdx_cons, List.foldlM_cons]
      simp only [hfirst]
      refine (ih htables.2 (i + 1) _).trans (congrArg _ ?_)
      rw [List.flatMap_assoc]
      refine List.flatMap_congr fun row _ => ?_
      rw [List.flatMap_map, combinations, List.map_flatMap]
      refine List.flatMap_congr fun row2 _ => ?_
      rw [List.map_map]
      rfl

include hstore1

/-- The rows of `t1, t2, ...` are those of `t1`. -/
theorem executeJoins_comma (rest : List TableWithJoins) :
    executeJoins state dbId (⟨relation1, []⟩ :: rest) params =
      .ok (startRows (refName relation1) store1) :=
  executeJoins_cons params hstore1 [] rest

include htables in
theorem executeJoins_cross :
    executeJoins state dbId [⟨relation1, tables.map fun t => ⟨t.1, .crossJoin⟩⟩] params =
      .ok ((startRows (refName relation1) store1).flatMap fun row =>
        (combinations tables).map (mergeAll row)) :=
  (executeJoins_cons params hstore1 _ []).trans (foldlM_crossJoin htables params _ 0 _)

end Rows

section Queries

variable (state : KvsState) (dbId : UInt32) (params : List Value) (projection : List SelectItem)
  (selection : Option Expr)

/-- `SELECT projection FROM from WHERE selection`. -/
def plainSelect (from_ : List TableWithJoins) : Query :=
  ⟨.select ⟨false, projection, from_, selection, .expressions []⟩, [], none, none⟩

/-- The rows that such a SELECT makes of the rows of its FROM list. -/
def selectedRows (rows : List Row) : List Row :=
  (applyProjection (match selection with
    | some e => rows.filter fun row => whereHolds state dbId row params e 0
    | none => rows) projection params).map fun row => row.erase "_rowid_"

theorem rows_of_plainSelect (first : TableWithJoins) (rest : List TableWithJoins)
    (hjoin : first.joins ≠ [] ∨ rest ≠ []) {rows : List Row}
    (hrows : executeJoins state dbId (first :: rest) params = .ok rows) (fuel : Nat) :
    (executeSelect state dbId (fuel + 1) (plainSelect projection selection (first :: rest))
        params).map QueryResult.rows =
      .ok (selectedRows state dbId params projection selection rows) := by
  have hfinished : finishedRows state dbId fuel (plainSelect projection selection (first :: rest))
      ⟨false, projection, first :: rest, selection, .expressions []⟩ params =
        .ok (finishSelect state dbId (plainSelect projection selection (first :: rest))
          ⟨false, projection, first :: rest, selection, .expressions []⟩ params rows, none) := by
    obtain ⟨relation, joins⟩ := first
    cases joins with
    | nil =>
        cases rest with
        | nil => exact absurd hjoin (by simp)
        | cons next rest =>
            simp only [finishedRows, hrows]
            rfl
    | cons join joins =>
        cases rest with
        | nil =>
            simp only [finishedRows, hrows]
            rfl
        | cons next rest =>
            simp only [finishedRows, hrows]
            rfl
  rw [executeSelect_succ rfl, hfinished]
  rfl

end Queries

section Commas

variable (state : KvsState) (dbId : UInt32)

/-- `SELECT projection FROM t1, t2, ... WHERE selection` and `SELECT projection FROM t1 CROSS JOIN t2
... WHERE selection` return the same rows, in some order. -/
def CommasCross (relation1 : TableFactor) (rest : List TableFactor) (projection : List SelectItem)
    (selection : Option Expr) (params : List Value) : Prop :=
  ∃ rows rows', rows.Perm rows' ∧
    (∀ fuel, (executeSelect state dbId (fuel + 1) (plainSelect projection selection
      (⟨relation1, []⟩ :: rest.map fun r => ⟨r, []⟩)) params).map QueryResult.rows = .ok rows) ∧
    ∀ fuel, (executeSelect state dbId (fuel + 1) (plainSelect projection selection
      [⟨relation1, rest.map fun r => ⟨r, .crossJoin⟩⟩]) params).map QueryResult.rows = .ok rows'

variable {state dbId} {relation1 : TableFactor} {store1 : Store}
  (hstore1 : state.getTableStore dbId (parseTableFactor relation1).1 = some store1)
  {tables : List (TableFactor × Store)} (hne : tables ≠ [])
  (htables : ∀ t ∈ tables, state.getTableStore dbId (parseTableFactor t.1).1 = some t.2)

include hstore1 hne htables

/-- The two queries select from the rows of the first table, and from all combinations. -/
theorem commasCross_iff (projection : List SelectItem) (selection : Option Expr)
    (params : List Value) :
    CommasCross state dbId relation1 (tables.map Prod.fst) projection selection params ↔
      (selectedRows state dbId params projection selection
          (startRows (refName relation1) store1)).Perm
        (selectedRows state dbId params projection selection
          ((startRows (refName relation1) store1).flatMap fun row =>
            (combinations tables).map (mergeAll row))) := by
  have hcomma := rows_of_plainSelect state dbId params projection selection ⟨relation1, []⟩
    ((tables.map Prod.fst).map fun r => ⟨r, []⟩) (Or.inr (by simpa using hne))
    (executeJoins_comma hstore1 params ((tables.map Prod.fst).map fun r => ⟨r, []⟩))
  have hjoins : (tables.map Prod.fst).map (fun r => (⟨r, .crossJoin⟩ : Join)) =
      tables.map fun t => ⟨t.1, .crossJoin⟩ := List.map_map ..
  have hcross := rows_of_plainSelect state dbId params projection selection
    ⟨relation1, tables.map fun t => ⟨t.1, .crossJoin⟩⟩ [] (Or.inl (by simpa using hne)) (executeJoins_cross hstore1 htables params)
  rw [← hjoins] at hcross
  constructor
  · rintro ⟨rows, rows', hperm, hrows, hrows'⟩
    obtain rfl := Except.ok.inj ((hcomma 0).symm.trans (hrows 0))
    obtain rfl := Except.ok.inj ((hcross 0).symm.trans (hrows' 0))
    exact hperm
  · exact fun hperm => ⟨_, _, hperm, hcomma, hcross⟩

omit hne htables hstore1 in
theorem length_combinations_cons (t : TableFactor × Store) (tables : List (TableFactor × Store)) :
    (combinations (t :: tables)).length = (joinedRows t.2).length * (combinations tables).length := by
  rw [combinations, List.length_flatMap]
  simp only [List.length_map, List.map_const', List.sum_replicate_nat]

omit hne htables hstore1 in
/-- There is one combination just where every table has one row. -/
theorem length_combinations_eq_one_iff (tables : List (TableFactor × Store)) :
    (combinations tables).length = 1 ↔ ∀ t ∈ tables, ∃ row, joinedRows t.2 = [row] := by
  induction tables with
  | nil => exact ⟨fun _ => nofun, fun _ => rfl⟩
  | cons t tables ih =>
      rw [length_combinations_cons, List.forall_mem_cons, ← List.length_eq_one_iff, ← ih]
      exact ⟨fun h => ⟨Nat.eq_one_of_mul_eq_one_right h, Nat.eq_one_of_mul_eq_one_left h⟩,
        fun ⟨hrow, hrest⟩ => by rw [hrow, hrest]⟩

omit hne htables hstore1 in
theorem mem_combinations {tables : List (TableFactor × Store)} {parts : List (String × Row)}
    (hparts : parts ∈ combinations tables) {part : String × Row} (hpart : part ∈ parts) :
    ∃ t ∈ tables, part.2 ∈ joinedRows t.2 := by
  induction tables generalizing parts with
  | nil =>
      rw [List.mem_singleton.mp hparts] at hpart
      exact nomatch hpart
  | cons t tables ih =>
      obtain ⟨row, hrow, hin⟩ := List.mem_flatMap.mp hparts
      obtain ⟨rest, hrest, rfl⟩ := List.mem_map.mp hin
      rcases List.mem_cons.mp hpart with rfl | hpart
      · exact ⟨t, List.mem_cons_self, hrow⟩
      · obtain ⟨t', ht', hmem⟩ := ih hrest hpart
        exact ⟨t', List.mem_cons_of_mem t ht', hmem⟩

/-- The other tables have one row each, and merging these rows into one of the first table changes
nothing. -/
def AddsNothing (rows : List Row) (tables : List (TableFactor × Store)) : Prop :=
  (∀ t ∈ tables, ∃ row, joinedRows t.2 = [row]) ∧
    ∀ row ∈ rows, ∀ parts ∈ combinations tables, mergeAll row parts = row

omit hne htables hstore1 in
theorem combinations_of_addsNothing {rows : List Row} (h : rows = [] ∨ AddsNothing rows tables) :
    (rows.flatMap fun row => (combinations tables).map (mergeAll row)) = rows := by
  rcases h with rfl | ⟨hone, hsame⟩
  · rfl
  · obtain ⟨parts, hparts⟩ := List.length_eq_one_iff.mp
      ((length_combinations_eq_one_iff tables).mpr hone)
    rw [hparts] at hsame ⊢
    have hself : ∀ row ∈ rows, [parts].map (mergeAll row) = [row] := fun row hrow => by
      rw [List.map_singleton, hsame row hrow parts List.mem_cons_self]
    exact (List.flatMap_congr hself).trans (List.flatMap_singleton' rows)

omit hne htables hstore1 in
theorem addsNothing_of_perm {rows : List Row}
    (hrowid : ∀ t ∈ tables, ∀ row ∈ joinedRows t.2, row.get "_rowid_" = none)
    (hperm : (rows.map fun row => row.erase "_rowid_").Perm
      ((rows.flatMap fun row => (combinations tables).map (mergeAll row)).map
        fun row => row.erase "_rowid_")) :
    rows = [] ∨ AddsNothing rows tables := by
  refine (Decidable.em (rows = [])).imp_right fun hrows => ?_
  have hlength := hperm.length_eq
  simp only [List.length_map, List.length_flatMap, List.map_const', List.sum_replicate_nat]
    at hlength
  have hone : (combinations tables).length = 1 :=
    Nat.eq_of_mul_eq_mul_left (List.length_pos_iff.mpr hrows) (hlength.symm.trans (Nat.mul_one _).symm)
  refine ⟨(length_combinations_eq_one_iff tables).mp hone, fun row hrow parts hparts =>
    mergeAll_eq_self fun k => ?_⟩
  obtain ⟨parts', hparts'⟩ := List.length_eq_one_iff.mp hone
  rw [hparts', List.mem_singleton] at hparts
  subst hparts
  by_cases hk : k = "_rowid_"
  · subst hk
    refine get_mergeAll_of_none (by decide) (fun part hpart => ?_) row
    obtain ⟨t, ht, hmem⟩ := mem_combinations (hparts' ▸ List.mem_cons_self) hpart
    exact hrowid t ht part.2 hmem
  · -- the row is shown as the merge of some row, and merging again changes nothing
    have hin := hperm.mem_iff.mp (List.mem_map.mpr ⟨row, hrow, rfl⟩)
    obtain ⟨merged, hmerged, heq⟩ := List.mem_map.mp hin
    obtain ⟨row', -, hmem⟩ := List.mem_flatMap.mp hmerged
    rw [hparts', List.map_singleton, List.mem_singleton] at hmem
    subst hmem
    have hget := congrArg (IndexMap.get · k) heq
    simp only [IndexMap.get_erase, if_neg hk] at hget
    exact get_mergeAll_of_get hget.symm

/-- The rows that WHERE lets through. -/
def satisfying (state : KvsState) (dbId : UInt32) (params : List Value) (selection : Option Expr)
    (rows : List Row) : List Row :=
  match selection with
  | some e => rows.filter fun row => whereHolds state dbId row params e 0
  | none => rows

omit hne htables hstore1 in
theorem satisfying_sublist (state : KvsState) (dbId : UInt32) (params : List Value)
    (selection : Option Expr) (rows : List Row) :
    (satisfying state dbId params selection rows).Sublist rows := by
  cases selection with
  | none => exact .refl rows
  | some e => exact List.filter_sublist

omit hne htables hstore1 in
theorem selectedRows_eq (params : List Value) (projection : List SelectItem)
    (selection : Option Expr) (rows : List Row) :
    selectedRows state dbId params projection selection rows =
      (applyProjection (satisfying state dbId params selection rows) projection params).map
        fun row => row.erase "_rowid_" := rfl

omit hne htables hstore1 in
/-- Rows with a field of their own are shown just when the others are not. -/
theorem satisfying_nil_of_perm {rows merged : List Row} (params : List Value)
    (selection : Option Expr)
    (hown : ∀ row ∈ merged, ∃ k ∈ row.keys, k ≠ "_rowid_" ∧ ∀ row' ∈ rows, k ∉ row'.keys)
    (hperm : (selectedRows state dbId params [.wildcard] selection rows).Perm
      (selectedRows state dbId params [.wildcard] selection merged)) :
    satisfying state dbId params selection rows = [] ∧
      satisfying state dbId params selection merged = [] := by
  have hnil : satisfying state dbId params selection merged = [] := by
    refine List.eq_nil_iff_forall_not_mem.mpr fun row hrow => ?_
    obtain ⟨k, hk, hne, hfree⟩ := hown row ((satisfying_sublist ..).subset hrow)
    have hin := hperm.mem_iff.mpr (List.mem_map.mpr ⟨row, hrow, rfl⟩)
    obtain ⟨row', hrow', heq⟩ := List.mem_map.mp hin
    have hget := congrArg (IndexMap.get · k) heq
    simp only [IndexMap.get_erase, if_neg hne] at hget
    obtain ⟨v, hv⟩ := (IndexMap.mem_keys_iff_get ..).mp hk
    exact hfree row' ((satisfying_sublist ..).subset hrow')
      ((IndexMap.mem_keys_iff_get ..).mpr ⟨v, hget.trans hv⟩)
  refine ⟨?_, hnil⟩
  have hlength := hperm.length_eq
  rw [selectedRows_eq, selectedRows_eq, hnil] at hlength
  simpa [applyProjection, SelectItem.isWildcard] using hlength

/-- When `FROM t1, ..., tn` does what `FROM t1 CROSS JOIN ... CROSS JOIN tn` does: for every SELECT
list and WHERE clause, if `t1` is empty or the other tables have one row each, which adds nothing to
the rows of `t1`, and only then; for one WHERE clause and tables that have fields of their own, just
when it lets nothing through on either side. -/
theorem commas_cross_iff :
    let rows := startRows (refName relation1) store1
    let merged := rows.flatMap fun row => (combinations tables).map (mergeAll row)
    let same := fun projection selection params =>
      CommasCross state dbId relation1 (tables.map Prod.fst) projection selection params
    (rows = [] ∨ AddsNothing rows tables →
        ∀ projection selection params, same projection selection params) ∧
      ((∀ t ∈ tables, ∀ row ∈ joinedRows t.2, row.get "_rowid_" = none) →
        (∀ projection selection params, same projection selection params) →
          rows = [] ∨ AddsNothing rows tables) ∧
      ((∀ row ∈ merged, ∃ k ∈ row.keys, k ≠ "_rowid_" ∧ ∀ row' ∈ rows, k ∉ row'.keys) →
        ∀ selection params, (∀ projection, same projection selection params) ↔
          satisfying state dbId params selection rows = [] ∧
            satisfying state dbId params selection merged = []) := by
  intro rows merged same
  have hiff : ∀ projection selection params, same projection selection params ↔
      (selectedRows state dbId params projection selection rows).Perm
        (selectedRows state dbId params projection selection merged) :=
    commasCross_iff hstore1 hne htables
  refine ⟨fun h projection selection params => ?_, fun hrowid hsame => ?_,
    fun hown selection params => ⟨fun hsame => ?_, fun hnone projection => ?_⟩⟩
  · rw [hiff, show merged = rows from combinations_of_addsNothing h]
  · exact addsNothing_of_perm hrowid ((hiff [.wildcard] none []).mp (hsame _ _ _))
  · exact satisfying_nil_of_perm params selection hown ((hiff _ _ _).mp (hsame [.wildcard]))
  · rw [hiff, selectedRows_eq, selectedRows_eq, hnone.1, hnone.2]

end Commas

/-- `WHERE id = 1`. -/
def Sample.idIsOne : Expr := .binaryOp (.identifier (name "id")) .eq (.value (.number "1"))

omit [Externals] in
/-- 2 in `a` and 1 in `b`: `id` is that of `a`, and no row of `a, b` or of `a CROSS JOIN b` has 1
there. -/
theorem commas_cross_of_no_match :
    letI := Externals.ofTexts [] []
    let state := Sample.unpaired "id"
    (startRows "a" ((state.getTableStore 0 "a").getD ∅)).length = 1 ∧
      (joinedRows ((state.getTableStore 0 "b").getD ∅)).length = 1 ∧
        ∀ projection, CommasCross state 0 (.table "a" none) [.table "b" none] projection
          (some Sample.idIsOne) [] := by
  let _ := Externals.ofTexts [] []
  intro state
  have hstore1 : state.getTableStore 0 (parseTableFactor (.table "a" none)).1 =
      some ((state.getTableStore 0 "a").getD ∅) := by
    decide
  have htables : ∀ t ∈ [(TableFactor.table "b" none, (state.getTableStore 0 "b").getD ∅)],
      state.getTableStore 0 (parseTableFactor t.1).1 = some t.2 :=
    List.forall_mem_singleton.mpr (by decide)
  have hcross := (commas_cross_iff hstore1 (List.cons_ne_nil _ _) htables).2.2 (by decide)
    (some Sample.idIsOne) []
  exact ⟨by decide, by decide, hcross.mpr ⟨by decide, by decide⟩⟩

omit [Externals] in
/-- 2 in `a` and 1 in `b`: `SELECT * FROM a, b` returns the row of `a` alone. -/
theorem comma_list_drops_second_table :
    letI := Externals.ofTexts [] []
    let query := fun from_ => plainSelect [.wildcard] none from_
    let rows := fun from_ => (executeSelect (Sample.unpaired "id") 0 1 (query from_) []).map
      QueryResult.rows
    rows [⟨.table "a" none, []⟩, ⟨.table "b" none, []⟩] = .ok [Sample.leftRow] ∧
      rows (Sample.aJoins .crossJoin) = .ok [Sample.leftRow.insert "b.id" (.integer 1)] ∧
      ¬CommasCross (Sample.unpaired "id") 0 (.table "a" none) [.table "b" none] [.wildcard] none
        [] := by
  let _ := Externals.ofTexts [] []
  intro query rows
  have hcomma : rows [⟨.table "a" none, []⟩, ⟨.table "b" none, []⟩] = .ok [Sample.leftRow] := by
    decide
  have hcross : rows (Sample.aJoins .crossJoin) =
      .ok [Sample.leftRow.insert "b.id" (.integer 1)] := by
    decide
  refine ⟨hcomma, hcross, ?_⟩
  rintro ⟨listed, joined, hperm, hlisted, hjoined⟩
  obtain rfl := Except.ok.inj (hcomma.symm.trans (hlisted 0))
  obtain rfl := Except.ok.inj (hcross.symm.trans (hjoined 0))
  exact absurd (List.perm_singleton.mp hperm) (by decide)

end Skvs
