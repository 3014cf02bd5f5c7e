import Skvs.Proof.HashJoin
import Skvs.Lib.OuterJoin

/-!
# Outer joins

What the rows without a partner look like.
-/

namespace Skvs

/-- The padding has only NULLs, and goes over the fields of the row under the names of its columns. -/
theorem keeps_padded_iff (row1 : Row) (t : String) (schema2 : Option TableSchema)
    (sample : Option Row) :
    (∀ k v, row1.get k = some v → (insertAll row1 (nullPadded t schema2 sample)).get k = some v) ↔
      ∀ col ∈ paddedColumns schema2 sample, ∀ k, k = col ∨ k = qualifiedName t col →
        ∀ v, row1.get k = some v → v = .null := by
  simp only [get_insertAll, get_nullPadded]
  constructor
  · intro hkeep col hcol k hk v hv
    have hsome := hkeep k v hv
    rw [if_pos ⟨col, hcol, hk⟩, Option.some_or] at hsome
    exact (Option.some.inj hsome).symm
  · intro hnull k v hv
    split_ifs with hpad
    · obtain ⟨col, hcol, hk⟩ := hpad
      rw [hnull col hcol k hk v hv, Option.some_or]
    · rw [Option.none_or, hv]

variable [Externals]

section LeftRows

variable (state : KvsState) (dbId : UInt32) (isFirst : Bool) (name1 : String)
  (relation : TableFactor) (c : JoinConstraint) (params : List Value) (rows2 : List Row)

/-- What a LEFT or FULL OUTER JOIN puts out for a left row. -/
def leftOutput (row1 : Row) : List Row :=
  padded row1 (partners state dbId isFirst name1 (refName relation) c params rows2 row1)
    (leftPadding state dbId relation rows2)

theorem leftOutput_unmatched {row1 : Row}
    (h : partners state dbId isFirst name1 (refName relation) c params rows2 row1 = []) :
    leftOutput state dbId isFirst name1 relation c params rows2 row1 =
      [insertAll row1 (leftPadding state dbId relation rows2)] := by
  rw [leftOutput, h]
  rfl

end LeftRows

/-- In a LEFT or FULL OUTER JOIN step the rows without a partner keep all their values just when each
of them has nothing but NULL under the names, bare or qualified, of the columns of the next table. -/
theorem unmatched_rows_keep_values_iff {state : KvsState} {dbId : UInt32} {relation : TableFactor}
    {store2 : Store} (hstore : state.getTableStore dbId (parseTableFactor relation).1 = some store2)
    {isFirst hashed : Bool} {op : JoinOperator} {c : JoinConstraint}
    (hop : op = .leftOuter c ∧ hashed = isFirst ∨ op = .fullOuter c ∧ hashed = false)
    (name1 : String) (result : List Row) (params : List Value) :
    let rows2 := joinedRows store2
    let unmatched := fun row1 =>
      partners state dbId hashed name1 (refName relation) c params rows2 row1 = []
    let output := leftOutput state dbId hashed name1 relation c params rows2
    ∃ rightOnly, executeJoin state dbId isFirst name1 result ⟨relation, op⟩ params =
        .ok (result.flatMap output ++ rightOnly) ∧
      ((∀ row1 ∈ result, unmatched row1 →
          ∃ out, output row1 = [out] ∧ ∀ k v, row1.get k = some v → out.get k = some v) ↔
        ∀ row1 ∈ result, unmatched row1 →
          ∀ col ∈ paddedColumns (state.getSchema dbId (parseTableFactor relation).1) rows2.head?,
            ∀ k, k = col ∨ k = qualifiedName (refName relation) col →
              ∀ v, row1.get k = some v → v = .null) := by
  intro rows2 unmatched output
  have hkeep : (∀ row1 ∈ result, unmatched row1 →
      ∃ out, output row1 = [out] ∧ ∀ k v, row1.get k = some v → out.get k = some v) ↔
        ∀ row1 ∈ result, unmatched row1 →
          ∀ col ∈ paddedColumns (state.getSchema dbId (parseTableFactor relation).1) rows2.head?,
            ∀ k, k = col ∨ k = qualifiedName (refName relation) col →
              ∀ v, row1.get k = some v → v = .null := by
    refine forall₂_congr fun row1 _ => forall_congr' fun hun => ?_
    rw [← keeps_padded_iff]
    have hout : output row1 = [insertAll row1 (leftPadding state dbId relation rows2)] :=
      leftOutput_unmatched state dbId hashed name1 relation c params rows2 hun
    constructor
    · rintro ⟨out, hsingle, hkept⟩
      obtain rfl := (List.cons.inj (hout.symm.trans hsingle)).1
      exact hkept
    · exact fun hkept => ⟨_, hout, hkept⟩
  rcases hop with ⟨rfl, rfl⟩ | ⟨rfl, rfl⟩
  · refine ⟨[], ?_, hkeep⟩
    rw [executeJoin_leftOuter hstore, List.append_nil]
    rfl
  · exact ⟨_, executeJoin_fullOuter hstore isFirst name1 result c params, hkeep⟩

omit [Externals] in
/-- `a LEFT JOIN b ON a.id = b.a_id` keeps the only row of `a`. -/
theorem left_join_keeps_unshared_column :
    letI := Externals.ofTexts [] []
    let s := Sample.unpaired "a_id"
    let c := Sample.onId "a_id"
    let rows2 := joinedRows ((s.getTableStore 0 "b").getD ∅)
    let b := TableFactor.table "b" none
    ∃ rightOnly, executeJoin s 0 true "a" [Sample.leftRow] ⟨b, .leftOuter c⟩ [] =
        .ok ([Sample.leftRow].flatMap (leftOutput s 0 true "a" b c [] rows2) ++ rightOnly) ∧
      ∀ row1 ∈ [Sample.leftRow], partners s 0 true "a" "b" c [] rows2 row1 = [] →
        ∃ out, leftOutput s 0 true "a" b c [] rows2 row1 = [out] ∧
          ∀ k v, row1.get k = some v → out.get k = some v := by
  let _ := Externals.ofTexts [] []
  intro s c rows2 b
  have hstore : s.getTableStore 0 (parseTableFactor b).1 = some ((s.getTableStore 0 "b").getD ∅) := by
    decide
  have hleft : JoinOperator.leftOuter c = .leftOuter c ∧ true = true ∨
      JoinOperator.leftOuter c = .fullOuter c ∧ true = false := Or.inl ⟨rfl, rfl⟩
  obtain ⟨rightOnly, hrun, hiff⟩ :=
    unmatched_rows_keep_values_iff hstore hleft "a" [Sample.leftRow] []
  refine ⟨rightOnly, hrun, hiff.mpr ?_⟩
  intro row1 hrow1 _ col hcol k hk v hv
  obtain rfl := List.mem_singleton.mp hrow1
  have hpadded : paddedColumns (s.getSchema 0 (parseTableFactor b).1) (joinedRows
      ((s.getTableStore 0 "b").getD ∅)).head? = ["a_id"] := by
    decide
  rw [hpadded, List.mem_singleton] at hcol
  subst hcol
  -- neither name of the column of `b` is a name in the row of `a`
  have hnone : Sample.leftRow.get k = none := by
    rcases hk with rfl | rfl <;> decide
  exact nomatch hnone.symm.trans hv

omit [Externals] in
/-- `a LEFT JOIN b ON a.id = b.id`: the row of `a` has no partner, and its `id` is overwritten. -/
theorem left_join_overwrites_id :
    letI := Externals.ofTexts [] []
    let s := Sample.unpaired "id"
    let c := Sample.onId "id"
    let rows2 := joinedRows ((s.getTableStore 0 "b").getD ∅)
    executeJoins s 0 [⟨.table "a" none, []⟩] [] = .ok [Sample.leftRow] ∧
      partners s 0 true "a" "b" c [] rows2 Sample.leftRow = [] ∧
      Sample.leftRow.get "id" = some (.integer 2) ∧
      executeJoins s 0 (Sample.aJoins (.leftOuter c)) [] =
        .ok [.ofList [("a.id", .integer 2), ("id", .null), ("b.id", .null)]] := by
  let _ := Externals.ofTexts [] []
  exact ⟨by decide, by decide, by decide, by decide⟩

/-! ### What the references to the columns evaluate to -/

section References

/-- The fields of a row under the given names. -/
def fieldValues (cols : List String) (row : Row) : List Value :=
  cols.map fun c => (row.get c).getD .null

def nulls (cols : List String) : List Value := cols.map fun _ => .null

/-- What the references to the columns of a table evaluate to. -/
def referenceValues (t : String) (cols : List String) (row : Row) : List Value :=
  cols.map fun c => evalFrom (.withRow row) [] (columnOf t c) 0

/-- What the references to the columns of both tables evaluate to on a joined row. -/
def entryOf (name1 name2 : String) (cols1 cols2 : List String) (row : Row) :
    List Value × List Value :=
  (referenceValues name1 cols1 row, referenceValues name2 cols2 row)

theorem eval_columnOf (row : Row) (t c : String) :
    evalFrom (.withRow row) [] (columnOf t c) 0 =
      ((row.get (qualifiedName t c)).or (row.get c)).getD .null := by
  rw [evalFrom, columnOf, eval]
  exact lookupCompound_pair row ⟨t, t⟩ ⟨c, c⟩

theorem referenceValues_eq {t : String} {cols : List String} {row : Row} {value : String → Value}
    (h : ∀ c ∈ cols, row.get (qualifiedName t c) = some (value c)) :
    referenceValues t cols row = cols.map value := by
  refine List.map_congr_left fun c hc => ?_
  rw [eval_columnOf, h c hc]
  rfl

variable {name1 name2 : String} {cols1 cols2 : List String}
  (hnames : NamesApart name1 name2 cols1 cols2) {row1 row2 : Row}
  (h1 : ∀ k, k ∈ row1.keys ↔ k ∈ cols1) (h2 : ∀ k, k ∈ row2.keys ↔ k ∈ cols2)

omit [Externals] in
theorem get_of_mem_cols {cols : List String} {row : Row} (h : ∀ k, k ∈ row.keys ↔ k ∈ cols)
    {c : String} (hc : c ∈ cols) : row.get c = some ((row.get c).getD .null) := by
  obtain ⟨v, hv⟩ := (IndexMap.mem_keys_iff_get ..).mp ((h c).mpr hc)
  rw [hv]
  rfl

include h1 in
omit [Externals] in
theorem get_start {c : String} (hc : c ∈ cols1) :
    (insertRowQualified ∅ name1 row1).get (qualifiedName name1 c) =
      some ((row1.get c).getD .null) :=
  get_qualified ∅ name1 (get_of_mem_cols h1 hc)

include hnames h2 in
omit [Externals] in
/-- The qualified columns of the left side outlive the merge of a row of the next table. -/
theorem get_left_kept (combined : Row) {c : String} (hc : c ∈ cols1) :
    (insertRowQualified combined name2 row2).get (qualifiedName name1 c) =
      (combined.get (qualifiedName name1 c)).or (row2.get (qualifiedName name1 c)) :=
  get_kept combined fun d hd => hnames.qualified c hc d ((h2 d).mp hd)

include hnames h1 h2 in
theorem entryOf_pair :
    entryOf name1 name2 cols1 cols2
        (insertRowQualified (insertRowQualified ∅ name1 row1) name2 row2) =
      (fieldValues cols1 row1, fieldValues cols2 row2) := by
  refine Prod.ext (referenceValues_eq fun c hc => ?_) (referenceValues_eq fun d hd => ?_)
  · rw [get_left_kept hnames h2 _ hc, get_start h1 hc, Option.some_or]
  · exact get_qualified _ name2 (get_of_mem_cols h2 hd)

include hnames h1 in
theorem entryOf_leftPadded {schema2 : Option TableSchema} {sample : Option Row}
    (hpadded : paddedColumns schema2 sample = cols2) :
    entryOf name1 name2 cols1 cols2
        (insertAll (insertRowQualified ∅ name1 row1) (nullPadded name2 schema2 sample)) =
      (fieldValues cols1 row1, nulls cols2) := by
  refine Prod.ext (referenceValues_eq fun c hc => ?_) (referenceValues_eq fun d hd => ?_)
  · rw [get_insertAll, get_nullPadded, hpadded, if_neg, Option.none_or, get_start h1 hc]
    rintro ⟨d, hd, heq | heq⟩
    · exact hnames.right c hc d hd heq.symm
    · exact hnames.qualified c hc d hd heq.symm
  · rw [get_insertAll, get_nullPadded, hpadded, if_pos ⟨d, hd, Or.inr rfl⟩, Option.some_or]

omit [Externals] in
theorem get_foldl_insert_null (ks : List String) (k : String) :
    (ks.foldl (fun r k => r.insert k Value.null) (∅ : Row)).get k =
      if k ∈ ks then some .null else none := by
  rw [← IndexMap.get_ofList_map_const, IndexMap.ofList, List.foldl_map]

include hnames h1 h2 in
/-- An unmatched right row, where there is a left row to take the names from. -/
theorem entryOf_rightPadded (rows : List Row) :
    entryOf name1 name2 cols1 cols2
        (rightPadded name2 (insertRowQualified ∅ name1 row1 :: rows) row2) =
      (nulls cols1, fieldValues cols2 row2) := by
  refine Prod.ext (referenceValues_eq fun c hc => ?_) (referenceValues_eq fun d hd => ?_)
  · have hkey : qualifiedName name1 c ∈ (insertRowQualified ∅ name1 row1).keys :=
      (IndexMap.mem_keys_iff_get ..).mpr ⟨_, get_start h1 hc⟩
    rw [rightPadded, get_left_kept hnames h2 _ hc, get_foldl_insert_null]
    exact (congrArg (Option.or · _) (if_pos hkey)).trans (Option.some_or ..)
  · exact get_qualified _ name2 (get_of_mem_cols h2 hd)

include hnames h2 in
/-- Without a left row, a reference to the left side finds the column of the same name. -/
theorem entryOf_rightPadded_nil :
    entryOf name1 name2 cols1 cols2 (rightPadded name2 [] row2) =
      (fieldValues cols1 row2, fieldValues cols2 row2) := by
  refine Prod.ext (List.map_congr_left fun c hc => ?_) (referenceValues_eq fun d hd => ?_)
  · have hqualified : row2.get (qualifiedName name1 c) = none := by
      rw [IndexMap.get_eq_none_iff, h2]
      exact fun hmem => hnames.right c hc _ hmem rfl
    have hbare : (rightPadded name2 [] row2).get c = row2.get c :=
      (get_kept ∅ fun d hd heq => hnames.left c hc d ((h2 d).mp hd) heq.symm).trans
        (Option.none_or ..)
    rw [eval_columnOf, hbare, rightPadded, get_left_kept hnames h2 _ hc, hqualified]
    rfl
  · exact get_qualified _ name2 (get_of_mem_cols h2 hd)

end References

/-! ### Against the textbook -/

section Textbook

variable (state : KvsState) (dbId : UInt32) (relation1 relation2 : TableFactor)
  (cols1 cols2 : List String) (e : Expr) (params : List Value)

/-- Whether ON is true of a pair of rows. -/
def onHolds (row1 row2 : Row) : Bool :=
  pairsUp state dbId false (refName relation1) (refName relation2) (.on e) params
    (insertRowQualified ∅ (refName relation1) row1) row2

/-- What the engine takes for a pair: for a LEFT JOIN on an equation, two rows with one hash key. -/
def hashHolds (row1 row2 : Row) : Bool :=
  pairsUp state dbId true (refName relation1) (refName relation2) (.on e) params
    (insertRowQualified ∅ (refName relation1) row1) row2

/-- The entries of an outer join: one for each pair of the relation, and one for each row without a
partner on the sides that are kept, with NULL for the other side. -/
def outerEntries (p : Row → Row → Bool) (l r : List Row) (keepLeft keepRight : Bool) :
    List (List Value × List Value) :=
  OuterJoin.rows p l r (fun row1 row2 => (fieldValues cols1 row1, fieldValues cols2 row2))
    (fun row1 => (fieldValues cols1 row1, nulls cols2))
    (fun row2 => (nulls cols1, fieldValues cols2 row2)) keepLeft keepRight

/-- The references to the columns of the two tables have the values they have in the textbook. -/
def IsTextbookJoin (l r : List Row) (op : JoinOperator) (keepLeft keepRight : Bool) : Prop :=
  ∃ out, executeJoins state dbId [⟨relation1, [⟨relation2, op⟩]⟩] params = .ok out ∧
    (out.map (entryOf (refName relation1) (refName relation2) cols1 cols2)).Perm
      (outerEntries cols1 cols2 (onHolds state dbId relation1 relation2 e params) l r keepLeft
        keepRight)

end Textbook

section Against

variable {state : KvsState} {dbId : UInt32} {relation1 relation2 : TableFactor}
  {store1 store2 : Store} {schema1 schema2 : TableSchema}

theorem joinedRows_keys {store : Store} {cols : List String}
    (hrows : ∀ rowid row, store.get rowid = some row → ∀ k, k ∈ row.keys ↔ k ∈ cols) :
    ∀ row ∈ joinedRows store, ∀ k, k ∈ row.keys ↔ k ∈ cols := by
  intro row hrow
  obtain ⟨rowid, hget⟩ := mem_joinedRows.mp hrow
  exact hrows rowid row hget

variable (hschema2 : state.getSchema dbId (parseTableFactor relation2).1 = some schema2)
  (hrows1 : ∀ rowid row, store1.get rowid = some row → ∀ k, k ∈ row.keys ↔ k ∈ schema1.columns.keys)
  (hrows2 : ∀ rowid row, store2.get rowid = some row → ∀ k, k ∈ row.keys ↔ k ∈ schema2.columns.keys)
  (hnames : NamesApart (refName relation1) (refName relation2) schema1.columns.keys
    schema2.columns.keys)
  (e : Expr) (params : List Value)

include hschema2 hrows1 hrows2 hnames

/-- What a loop over the left rows puts out for them. -/
theorem map_entryOf_left (hashed : Bool) :
    let found := fun a => ((joinedRows store2).filter (pairsUp state dbId hashed (refName relation1)
      (refName relation2) (.on e) params (insertRowQualified ∅ (refName relation1) a))).map
        fun b => (fieldValues schema1.columns.keys a, fieldValues schema2.columns.keys b)
    ((startRows (refName relation1) store1).flatMap fun row1 => padded row1
        (partners state dbId hashed (refName relation1) (refName relation2) (.on e) params
          (joinedRows store2) row1)
        (leftPadding state dbId relation2 (joinedRows store2))).map
      (entryOf (refName relation1) (refName relation2) schema1.columns.keys schema2.columns.keys) =
    (joinedRows store1).flatMap fun a =>
      if (found a).isEmpty then [(fieldValues schema1.columns.keys a, nulls schema2.columns.keys)]
      else found a := by
  intro found
  have h1 := joinedRows_keys hrows1
  have h2 := joinedRows_keys hrows2
  rw [startRows, List.flatMap_map, List.map_flatMap]
  refine List.flatMap_congr fun a ha => ?_
  have hfound : (partners state dbId hashed (refName relation1) (refName relation2) (.on e) params
      (joinedRows store2) (insertRowQualified ∅ (refName relation1) a)).map
        (entryOf (refName relation1) (refName relation2) schema1.columns.keys
          schema2.columns.keys) = found a := by
    rw [partners, List.map_map]
    exact List.map_congr_left fun b hb =>
      entryOf_pair hnames (h1 a ha) (h2 b (List.mem_filter.mp hb).1)
  have hpadded : paddedColumns (state.getSchema dbId (parseTableFactor relation2).1)
      (joinedRows store2).head? = schema2.columns.keys := by
    rw [hschema2, paddedColumns]
  rw [← hfound, List.isEmpty_map, padded, apply_ite (List.map _), List.map_singleton, leftPadding,
    entryOf_leftPadded hnames (h1 a ha) hpadded]

omit hschema2 in
/-- An unmatched right row stands for itself, with what the left side offers in the place of NULLs. -/
theorem entryOf_right_cases {b : Row} (hb : b ∈ joinedRows store2) :
    entryOf (refName relation1) (refName relation2) schema1.columns.keys schema2.columns.keys
        (rightPadded (refName relation2) (startRows (refName relation1) store1) b) =
      (if joinedRows store1 = [] then fieldValues schema1.columns.keys b
        else nulls schema1.columns.keys, fieldValues schema2.columns.keys b) := by
  have h1 := joinedRows_keys hrows1
  have h2 := joinedRows_keys hrows2
  rw [startRows]
  cases hl : joinedRows store1 with
  | nil =>
      rw [if_pos rfl]
      exact entryOf_rightPadded_nil hnames (h2 b hb)
  | cons a l =>
      rw [if_neg (List.cons_ne_nil a l)]
      exact entryOf_rightPadded hnames (h1 a (hl ▸ List.mem_cons_self)) (h2 b hb) _

omit hschema2 in
/-- What the loop over the right rows puts out for the pairs. -/
theorem map_entryOf_partnersOf {b : Row} (hb : b ∈ joinedRows store2) :
    (partnersOf state dbId (refName relation1) (refName relation2) (.on e) params
        (startRows (refName relation1) store1) b).map
      (entryOf (refName relation1) (refName relation2) schema1.columns.keys schema2.columns.keys) =
    ((joinedRows store1).filter fun a => onHolds state dbId relation1 relation2 e params a b).map
      fun a => (fieldValues schema1.columns.keys a, fieldValues schema2.columns.keys b) := by
  have h1 := joinedRows_keys hrows1
  have h2 := joinedRows_keys hrows2
  rw [partnersOf, startRows, List.filter_map, List.map_map, List.map_map]
  exact List.map_congr_left fun a ha =>
    entryOf_pair hnames (h1 a (List.mem_filter.mp ha).1) (h2 b hb)

variable (hstore1 : state.getTableStore dbId (parseTableFactor relation1).1 = some store1)
  (hstore2 : state.getTableStore dbId (parseTableFactor relation2).1 = some store2)

include hstore1 hstore2

/-- The entries of a LEFT JOIN are the textbook's for the pairs that the engine finds. -/
theorem leftJoin_entries : ∃ out,
    executeJoins state dbId [⟨relation1, [⟨relation2, .leftOuter (.on e)⟩]⟩] params = .ok out ∧
      (out.map (entryOf (refName relation1) (refName relation2) schema1.columns.keys
        schema2.columns.keys)).Perm
        (outerEntries schema1.columns.keys schema2.columns.keys
          (hashHolds state dbId relation1 relation2 e params) (joinedRows store1)
          (joinedRows store2) true false) := by
  refine ⟨_, (executeJoins_pair params hstore1 _).trans (executeJoin_leftOuter hstore2 ..), ?_⟩
  rw [map_entryOf_left hschema2 hrows1 hrows2 hnames]
  have hloop := OuterJoin.left_loop_perm (hashHolds state dbId relation1 relation2 e params)
    (joinedRows store1) (joinedRows store2)
    (fun a b => (fieldValues schema1.columns.keys a, fieldValues schema2.columns.keys b))
    (fun a => (fieldValues schema1.columns.keys a, nulls schema2.columns.keys))
    (fun b => (nulls schema1.columns.keys, fieldValues schema2.columns.keys b)) false
  rw [if_neg Bool.false_ne_true, List.append_nil] at hloop
  exact hloop

/-- What an unmatched right row stands for. -/
def rightEntry (cols1 cols2 : List String) (l : List Row) (b : Row) : List Value × List Value :=
  (if l = [] then fieldValues cols1 b else nulls cols1, fieldValues cols2 b)

/-- The entries of a RIGHT or FULL JOIN, but for what an unmatched right row stands for. -/
theorem rightJoin_entries {op : JoinOperator} {keepLeft : Bool}
    (hop : op = .rightOuter (.on e) ∧ keepLeft = false ∨ op = .fullOuter (.on e) ∧ keepLeft = true) :
    ∃ out, executeJoins state dbId [⟨relation1, [⟨relation2, op⟩]⟩] params = .ok out ∧
      (out.map (entryOf (refName relation1) (refName relation2) schema1.columns.keys
        schema2.columns.keys)).Perm
        (OuterJoin.rows (onHolds state dbId relation1 relation2 e params) (joinedRows store1)
          (joinedRows store2)
          (fun a b => (fieldValues schema1.columns.keys a, fieldValues schema2.columns.keys b))
          (fun a => (fieldValues schema1.columns.keys a, nulls schema2.columns.keys))
          (rightEntry schema1.columns.keys schema2.columns.keys (joinedRows store1)) keepLeft
          true) := by
  have hright : ∀ b ∈ joinedRows store2, entryOf (refName relation1) (refName relation2)
      schema1.columns.keys schema2.columns.keys
        (rightPadded (refName relation2) (startRows (refName relation1) store1) b) =
      rightEntry schema1.columns.keys schema2.columns.keys (joinedRows store1) b :=
    fun b hb => entryOf_right_cases hrows1 hrows2 hnames hb
  rcases hop with ⟨rfl, rfl⟩ | ⟨rfl, rfl⟩
  · refine ⟨_, (executeJoins_pair params hstore1 _).trans (executeJoin_rightOuter hstore2 ..), ?_⟩
    refine .trans (.of_eq ?_) (OuterJoin.right_loop_perm ..)
    rw [List.map_flatMap]
    refine List.flatMap_congr fun b hb => ?_
    rw [apply_ite (List.map _), List.map_singleton, hright b hb,
      ← map_entryOf_partnersOf hrows1 hrows2 hnames e params hb, List.isEmpty_map]
  · refine ⟨_, (executeJoins_pair params hstore1 _).trans (executeJoin_fullOuter hstore2 ..), ?_⟩
    refine .trans (.of_eq ?_) (OuterJoin.left_loop_perm _ _ _ _ _ _ true)
    rw [List.map_append, map_entryOf_left hschema2 hrows1 hrows2 hnames, if_pos rfl, List.map_map,
      OuterJoin.rightOnly]
    refine congrArg _ ?_
    have honly : ∀ b : Row, (!(startRows (refName relation1) store1).any fun row1 =>
        pairsUp state dbId false (refName relation1) (refName relation2) (.on e) params row1 b) =
        ((joinedRows store1).filter fun a =>
          onHolds state dbId relation1 relation2 e params a b).isEmpty := by
      intro b
      rw [startRows, List.any_map, Bool.eq_iff_iff]
      simp [List.isEmpty_iff, List.filter_eq_nil_iff, onHolds]
    rw [List.filter_congr fun b _ => honly b]
    exact List.map_congr_left fun b hb => hright b (List.mem_filter.mp hb).1

omit hstore1 hstore2 hschema2 hnames hrows1 hrows2 [Externals] in
/-- The NULLs of the textbook stand for an unmatched right row, unless the left side is empty and the
row has something else under a name that the left side has too. -/
theorem rightEntries_perm_iff {cols1 cols2 : List String} {p : Row → Row → Bool} {l r : List Row}
    (f : Row → Row → List Value × List Value) (g : Row → List Value × List Value)
    (keepLeft : Bool) :
    (OuterJoin.rows p l r f g (rightEntry cols1 cols2 l) keepLeft true).Perm
        (OuterJoin.rows p l r f g (fun b => (nulls cols1, fieldValues cols2 b)) keepLeft true) ↔
      (l = [] → ∀ b ∈ r, ∀ c ∈ cols1, ∀ v, b.get c = some v → v = .null) := by
  cases l with
  | cons a l =>
      have hsame : OuterJoin.rows p (a :: l) r f g (rightEntry cols1 cols2 (a :: l)) keepLeft true =
          OuterJoin.rows p (a :: l) r f g (fun b => (nulls cols1, fieldValues cols2 b)) keepLeft
            true := OuterJoin.rows_congr_right keepLeft fun b _ => by
        rw [rightEntry, if_neg (List.cons_ne_nil a l)]
      exact ⟨fun _ => nofun, fun _ => .of_eq hsame⟩
  | nil =>
      have hentry : ∀ b : Row, fieldValues cols1 b = nulls cols1 ↔
          ∀ c ∈ cols1, ∀ v, b.get c = some v → v = .null := by
        intro b
        rw [fieldValues, nulls, List.map_inj_left]
        refine forall₂_congr fun c _ => ?_
        cases b.get c with
        | none => exact ⟨fun _ => nofun, fun _ => rfl⟩
        | some v => exact ⟨fun h w hw => Option.some.inj hw ▸ h, fun h => h v rfl⟩
      have hright : rightEntry cols1 cols2 [] = fun b => (fieldValues cols1 b, fieldValues cols2 b) :=
        funext fun b => by rw [rightEntry, if_pos rfl]
      rw [OuterJoin.rows_nil, OuterJoin.rows_nil, hright, forall_prop_of_true rfl]
      constructor
      · intro hperm b hb
        have hin := hperm.mem_iff.mp (List.mem_map.mpr ⟨b, hb, rfl⟩)
        obtain ⟨b', -, heq⟩ := List.mem_map.mp hin
        exact (hentry b).mp (Prod.mk.inj heq).1.symm
      · exact fun hnull => .of_eq (List.map_congr_left fun b hb => by
          rw [(hentry b).mpr (hnull b hb)])

omit hstore1 hstore2 hschema2 in
/-- Where a LEFT JOIN is a hash join, the entries tell whether the engine and ON take a pair. -/
theorem leftEntries_perm_iff
    (hexist : ∀ c1 c2, extractEquiJoin (.on e) (refName relation1) (refName relation2) =
      some (c1, c2) → c1 ∈ schema1.columns.keys ∧ c2 ∈ schema2.columns.keys) :
    (outerEntries schema1.columns.keys schema2.columns.keys
        (hashHolds state dbId relation1 relation2 e params) (joinedRows store1)
        (joinedRows store2) true false).Perm
      (outerEntries schema1.columns.keys schema2.columns.keys
        (onHolds state dbId relation1 relation2 e params) (joinedRows store1)
        (joinedRows store2) true false) ↔
      ∀ a ∈ joinedRows store1, ∀ b ∈ joinedRows store2,
        hashHolds state dbId relation1 relation2 e params a b =
          onHolds state dbId relation1 relation2 e params a b := by
  have h1 := joinedRows_keys hrows1
  have h2 := joinedRows_keys hrows2
  cases hequi : extractEquiJoin (.on e) (refName relation1) (refName relation2) with
  | none =>
      have hsame : ∀ a b, hashHolds state dbId relation1 relation2 e params a b =
          onHolds state dbId relation1 relation2 e params a b := fun a b =>
        pairsUp_of_scan state dbId params ((if_pos rfl).trans hequi) _ b
      exact ⟨fun _ a _ b _ => hsame a b, fun _ =>
        .of_eq (OuterJoin.rows_congr _ _ _ _ _ _ (fun a _ b _ => hsame a b) _ _)⟩
  | some cols =>
      obtain ⟨c1, c2⟩ := cols
      obtain ⟨hc1, hc2⟩ := hexist c1 c2 hequi
      -- both relations look at the values of the two columns only
      have hash : ∀ a ∈ joinedRows store1, ∀ b ∈ joinedRows store2,
          hashHolds state dbId relation1 relation2 e params a b =
            decide (valueToKeyString ((a.get c1).getD .null) =
              valueToKeyString ((b.get c2).getD .null)) := by
        intro a ha b hb
        rw [hashHolds, pairsUp_of_equi state dbId params ((if_pos rfl).trans hequi),
          get_start (h1 a ha) hc1, get_of_mem_cols (h2 b hb) hc2]
        rfl
      have hon : ∀ a ∈ joinedRows store1, ∀ b ∈ joinedRows store2,
          onHolds state dbId relation1 relation2 e params a b =
            ((a.get c1).getD .null).partialEq ((b.get c2).getD .null) := by
        intro a ha b hb
        refine joinConditionMatches_of_equi hequi state dbId params ?_
          (get_qualified _ _ (get_of_mem_cols (h2 b hb) hc2))
        rw [get_left_kept hnames (h2 b hb) _ hc1, get_start (h1 a ha) hc1, Option.some_or]
      have hfield : ∀ {cols : List String} {row row' : Row} {c : String}, c ∈ cols →
          fieldValues cols row = fieldValues cols row' →
            (row.get c).getD .null = (row'.get c).getD .null :=
        fun hc heq => List.map_inj_left.mp heq _ hc
      refine OuterJoin.left_rows_perm_iff ?_ ?_ ?_
      · intro a ha b hb a' ha' b' hb' heq
        obtain ⟨heq1, heq2⟩ := Prod.mk.inj heq
        rw [hash a ha b hb, hash a' ha' b' hb', hfield hc1 heq1, hfield hc2 heq2]
      · intro a ha b hb a' ha' b' hb' heq
        obtain ⟨heq1, heq2⟩ := Prod.mk.inj heq
        rw [hon a ha b hb, hon a' ha' b' hb', hfield hc1 heq1, hfield hc2 heq2]
      · intro a ha b hb a' _ heq
        have hnull : (b.get c2).getD .null = .null := List.map_inj_left.mp (Prod.mk.inj heq).2 c2 hc2
        -- NULL has a hash key of its own, and equals NULL only
        rw [hash a ha b hb, hon a ha b hb, hnull, Value.partialEq_comm, ← sameKey_eq_partialEq rfl]
        exact decide_eq_decide.mpr eq_comm

/-- LEFT, RIGHT and FULL OUTER JOIN give the references to the columns of both tables the values they
have in the textbook: a LEFT JOIN just when its hash keys agree with ON on every pair, a RIGHT or FULL
JOIN just when the left table has a row or no row of the right one has anything but NULL under a
name that the left table has too. -/
theorem outer_joins_textbook_iff
    (hexist : ∀ c1 c2, extractEquiJoin (.on e) (refName relation1) (refName relation2) =
      some (c1, c2) → c1 ∈ schema1.columns.keys ∧ c2 ∈ schema2.columns.keys) :
    let textbook := IsTextbookJoin state dbId relation1 relation2 schema1.columns.keys
      schema2.columns.keys e params (joinedRows store1) (joinedRows store2)
    let unshared := joinedRows store1 = [] → ∀ row2 ∈ joinedRows store2,
      ∀ c ∈ schema1.columns.keys, ∀ v, row2.get c = some v → v = .null
    (textbook (.leftOuter (.on e)) true false ↔
        ∀ row1 ∈ joinedRows store1, ∀ row2 ∈ joinedRows store2,
          hashHolds state dbId relation1 relation2 e params row1 row2 =
            onHolds state dbId relation1 relation2 e params row1 row2) ∧
      (textbook (.rightOuter (.on e)) false true ↔ unshared) ∧
      (textbook (.fullOuter (.on e)) true true ↔ unshared) := by
  intro textbook unshared
  have hiff : ∀ {op : JoinOperator} {keepLeft keepRight : Bool} {out : List Row}
      {entries : List (List Value × List Value)},
      executeJoins state dbId [⟨relation1, [⟨relation2, op⟩]⟩] params = .ok out →
      (out.map (entryOf (refName relation1) (refName relation2) schema1.columns.keys
        schema2.columns.keys)).Perm entries →
      (textbook op keepLeft keepRight ↔ entries.Perm (outerEntries schema1.columns.keys
        schema2.columns.keys (onHolds state dbId relation1 relation2 e params) (joinedRows store1)
        (joinedRows store2) keepLeft keepRight)) := by
    intro op keepLeft keepRight out entries hrun hentries
    constructor
    · rintro ⟨out', hrun', hperm⟩
      obtain rfl := Except.ok.inj (hrun.symm.trans hrun')
      exact hentries.symm.trans hperm
    · exact fun hperm => ⟨out, hrun, hentries.trans hperm⟩
  refine ⟨?_, ?_, ?_⟩
  · obtain ⟨out, hrun, hentries⟩ := leftJoin_entries hschema2 hrows1 hrows2 hnames e params hstore1
      hstore2
    rw [hiff hrun hentries]
    exact leftEntries_perm_iff hrows1 hrows2 hnames e params hexist
  · obtain ⟨out, hrun, hentries⟩ := rightJoin_entries hschema2 hrows1 hrows2 hnames e params hstore1
      hstore2 (Or.inl ⟨rfl, rfl⟩)
    rw [hiff hrun hentries]
    exact rightEntries_perm_iff _ _ false
  · obtain ⟨out, hrun, hentries⟩ := rightJoin_entries hschema2 hrows1 hrows2 hnames e params hstore1
      hstore2 (Or.inr ⟨rfl, rfl⟩)
    rw [hiff hrun hentries]
    exact rightEntries_perm_iff _ _ true

end Against

namespace Sample

/-- `a.id = b.id`. -/
def idsEqual : Expr := .binaryOp (columnOf "a" "id") .eq (columnOf "b" "id")

end Sample

omit [Externals] in
/-- 2 in `a` and 1 in `b`: every outer join has the rows it should have. -/
theorem outer_joins_of_unpaired :
    letI := Externals.ofTexts [] []
    let s := Sample.unpaired "id"
    let l := joinedRows ((s.getTableStore 0 "a").getD ∅)
    let r := joinedRows ((s.getTableStore 0 "b").getD ∅)
    let textbook := IsTextbookJoin s 0 (.table "a" none) (.table "b" none) ["id"] ["id"]
      Sample.idsEqual [] l r
    textbook (.leftOuter (.on Sample.idsEqual)) true false ∧
      textbook (.rightOuter (.on Sample.idsEqual)) false true ∧
      textbook (.fullOuter (.on Sample.idsEqual)) true true := by
  let _ := Externals.ofTexts [] []
  intro s l r textbook
  have hentries : ((s.getTableStore 0 "a").getD ∅).entries = [(1, .ofList [("id", .integer 2)])] ∧
      ((s.getTableStore 0 "b").getD ∅).entries = [(1, .ofList [("id", .integer 1)])] := by
    decide
  have hcols : ((s.getSchema 0 "a").getD (emptySchema "a")).columns.keys = ["id"] ∧
      ((s.getSchema 0 "b").getD (emptySchema "b")).columns.keys = ["id"] := by
    decide
  have hrows : ∀ {store : Store} {cols : List String} {n : Int64},
      store.entries = [(1, .ofList [("id", .integer n)])] → cols = ["id"] →
        ∀ rowid row, store.get rowid = some row → ∀ k, k ∈ row.keys ↔ k ∈ cols := by
    intro store cols n h hcols
    subst hcols
    exact rows_of_entries h (List.forall_mem_singleton.mpr fun _ => Iff.rfl)
  have hdots : ∀ cols : List String, cols = ["id"] → ∀ c ∈ cols, '.' ∉ c.toList :=
    fun cols h => h ▸ List.forall_mem_singleton.mpr (by decide)
  have hexist : ∀ c1 c2, extractEquiJoin (.on Sample.idsEqual) "a" "b" = some (c1, c2) →
      c1 ∈ ((s.getSchema 0 "a").getD (emptySchema "a")).columns.keys ∧
        c2 ∈ ((s.getSchema 0 "b").getD (emptySchema "b")).columns.keys := by
    intro c1 c2 h
    obtain ⟨rfl, rfl⟩ := Prod.mk.inj (Option.some.inj
      ((show extractEquiJoin (.on Sample.idsEqual) "a" "b" = some ("id", "id") by
        decide).symm.trans h))
    rw [hcols.1, hcols.2]
    exact ⟨List.mem_cons_self, List.mem_cons_self⟩
  have hstore1 : s.getTableStore 0 (parseTableFactor (.table "a" none)).1 =
      some ((s.getTableStore 0 "a").getD ∅) := by
    decide
  have hstore2 : s.getTableStore 0 (parseTableFactor (.table "b" none)).1 =
      some ((s.getTableStore 0 "b").getD ∅) := by
    decide
  have hschema2 : s.getSchema 0 (parseTableFactor (.table "b" none)).1 =
      some ((s.getSchema 0 "b").getD (emptySchema "b")) := by
    decide
  have hiff := outer_joins_textbook_iff hschema2 (hrows hentries.1 hcols.1)
    (hrows hentries.2 hcols.2) (.of_dotFree (by decide) (hdots _ hcols.1) (hdots _ hcols.2))
    Sample.idsEqual [] hstore1 hstore2 hexist
  rw [hcols.1, hcols.2] at hiff
  have hnonempty : l ≠ [] := by decide
  refine ⟨hiff.1.mpr ?_, hiff.2.1.mpr fun h => (hnonempty h).elim,
    hiff.2.2.mpr fun h => (hnonempty h).elim⟩
  have hl : l = [.ofList [("id", .integer 2)]] := by decide
  have hr : r = [.ofList [("id", .integer 1)]] := by decide
  change ∀ row1 ∈ l, ∀ row2 ∈ r, _
  rw [hl, hr, List.forall_mem_singleton, List.forall_mem_singleton]
  decide

omit [Externals] in
/-- `a RIGHT JOIN b ON a.id = b.id` with no row in `a`: `a.id` is the `id` of `b`. -/
theorem right_join_of_empty_reads_right :
    letI := Externals.ofTexts [] []
    let s := Sample.leftEmpty
    let l := joinedRows ((s.getTableStore 0 "a").getD ∅)
    let r := joinedRows ((s.getTableStore 0 "b").getD ∅)
    (executeJoins s 0 (Sample.aJoins (.rightOuter (.on Sample.idsEqual))) []).toOption.map
        (fun out => out.map (entryOf "a" "b" ["id"] ["id"])) =
        some [([.integer 1], [.integer 1])] ∧
      outerEntries ["id"] ["id"] (onHolds s 0 (.table "a" none) (.table "b" none) Sample.idsEqual [])
        l r false true = [([.null], [.integer 1])] ∧
      ¬IsTextbookJoin s 0 (.table "a" none) (.table "b" none) ["id"] ["id"] Sample.idsEqual [] l r
        (.rightOuter (.on Sample.idsEqual)) false true := by
  let _ := Externals.ofTexts [] []
  intro s l r
  have hentries : (executeJoins s 0 (Sample.aJoins (.rightOuter (.on Sample.idsEqual)))
      []).toOption.map (fun out => out.map (entryOf "a" "b" ["id"] ["id"])) =
        some [([.integer 1], [.integer 1])] := by
    decide
  have htextbook : outerEntries ["id"] ["id"] (onHolds s 0 (.table "a" none) (.table "b" none)
      Sample.idsEqual []) l r false true = [([.null], [.integer 1])] := by
    decide
  refine ⟨hentries, htextbook, ?_⟩
  rintro ⟨out, hrun, hperm⟩
  have hout : out.map (entryOf "a" "b" ["id"] ["id"]) = [([.integer 1], [.integer 1])] := by
    refine Option.some.inj (Eq.trans ?_ hentries)
    rw [show executeJoins s 0 (Sample.aJoins (.rightOuter (.on Sample.idsEqual))) [] = .ok out from
      hrun]
    rfl
  have hsame := List.perm_singleton.mp ((htextbook ▸ hperm : List.Perm _ _).symm.trans (.of_eq hout))
  exact absurd hsame (by decide)

end Skvs
