import Skvs.Proof.OrderBy
import Skvs.Proof.RowOrder

/-!
# A SELECT and the order of the rows

A SELECT without GROUP BY, DISTINCT and LIMIT returns the same rows whatever order its tables yield
them in. ORDER BY items that leave no ties fix the order as well, and with it what LIMIT, OFFSET and
DISTINCT leave.
-/

namespace Skvs

open IndexMap StableSort

section

variable [Externals]

/-- No GROUP BY, DISTINCT or LIMIT. -/
def Query.plain (query : Query) : Bool :=
  match query.body with
  | .select select => !isGrouped select.groupBy && !select.distinct && query.limit.isNone
  | _ => true

/-- The views are plain queries. -/
def PlainViews (s : KvsState) (dbId : UInt32) : Prop :=
  ∀ name viewSql stmts query, s.getViewDefinition dbId name = some viewSql →
    parseStatements viewSql = .ok stmts → stmts.head? = some (.query query) → query.plain = true

theorem selectColumns_congr (select : Select) (schema : Option TableSchema) {rows rows' : List Row}
    (h : rows'.head?.map IndexMap.keys = rows.head?.map IndexMap.keys) :
    selectColumns select schema rows' = selectColumns select schema rows := by
  unfold selectColumns
  split_ifs
  · cases rows with
    | nil =>
        cases rows' with
        | nil => rfl
        | cons row' rows' => cases h
    | cons row rows =>
        cases rows' with
        | nil => cases h
        | cons row' rows' => exact Option.some.inj h
  · rfl

section Statement

variable {dbId : UInt32} {s s' : KvsState} {rows rows' : List Row}

/-- The columns that a projected item leaves. -/
def projectedKeys (keys acc : List String) : SelectItem → List String
  | .wildcard | .qualifiedWildcard => keys.foldl appendKey acc
  | .unnamedExpr e => appendKey acc (projectedName e)
  | .exprWithAlias _ alias_ => appendKey acc alias_.text

theorem keys_projectItem (params : List Value) (row newRow : Row) (item : SelectItem) :
    (projectItem params row newRow item).keys = projectedKeys row.keys newRow.keys item := by
  cases item with
  | wildcard => exact keys_insertAll newRow row
  | qualifiedWildcard => exact keys_insertAll newRow row
  | unnamedExpr e => exact keys_insert newRow _ _
  | exprWithAlias e alias_ => exact keys_insert newRow _ _

theorem Shuffled.applyProjection (h : Shuffled rows rows') (projection : List SelectItem)
    (params : List Value) : Shuffled (Skvs.applyProjection rows projection params)
      (Skvs.applyProjection rows' projection params) := by
  have hfold : ∀ (row newRow : Row), (projection.foldl (projectItem params row) newRow).keys =
      projection.foldl (projectedKeys row.keys) newRow.keys := by
    intro row
    induction projection with
    | nil => exact fun _ => rfl
    | cons item projection ih =>
        intro newRow
        rw [List.foldl_cons, ih, keys_projectItem, List.foldl_cons]
  unfold Skvs.applyProjection
  split_ifs
  · exact h
  · exact h.map (g := fun keys => projection.foldl (projectedKeys keys) []) fun row => hfold row ∅

theorem Shuffled.whereRows (h : Shuffled rows rows') (hreordered : Reordered dbId s s')
    (selection : Option Expr) (params : List Value) :
    Shuffled (Skvs.whereRows s dbId params selection rows)
      (Skvs.whereRows s' dbId params selection rows') := by
  cases selection with
  | none => exact h
  | some e =>
      simp only [Skvs.whereRows, hreordered.whereHolds]
      exact h.filter _

/-- A sort shuffles what it sorts. -/
theorem Shuffled.applyOrderBy (h : Shuffled rows rows') (orderBy : List OrderByExpr) :
    Shuffled (Skvs.applyOrderBy rows orderBy) (Skvs.applyOrderBy rows' orderBy) :=
  ⟨((applyOrderBy_perm rows' orderBy).trans h.perm).trans (applyOrderBy_perm rows orderBy).symm,
    h.columns.imp fun _ hkeys row hrow => hkeys row ((applyOrderBy_perm rows orderBy).subset hrow)⟩

theorem applyGroupBy_of_not_grouped {groupBy : GroupByExpr} (h : isGrouped groupBy = false)
    (rows : List Row) (projection : List SelectItem) :
    applyGroupBy rows groupBy projection = rows := by
  cases groupBy with
  | all => rfl
  | expressions exprs =>
      cases exprs with
      | nil => rfl
      | cons e exprs => exact absurd h.symm Bool.false_ne_true

/-- The same answer, its rows in another order. -/
structure SameAnswer (r r' : QueryResult) : Prop where
  rows : Shuffled r.rows r'.rows
  columns : r'.columns = r.columns
  affectedRows : r'.affectedRows = r.affectedRows
  txId : r'.txId = r.txId

variable (h : Reordered dbId s s') (hshapes : RowShapes s) (hviews : PlainViews s dbId)
include h hshapes hviews

omit [Externals] hshapes hviews in
theorem Reordered.wildcardSchema [Externals] (select : Select) :
    Skvs.wildcardSchema s' dbId select = Skvs.wildcardSchema s dbId select := by
  simp only [Skvs.wildcardSchema, KvsState.getViewDefinition, KvsState.getSchema, h.views,
    h.schemas]

omit hshapes hviews in
theorem Shuffled.finishSelect (hrows : Shuffled rows rows') (query : Query) (select : Select)
    (params : List Value) (hgrouped : isGrouped select.groupBy = false)
    (hlimit : query.limit = none) :
    Shuffled (Skvs.finishSelect s dbId query select params rows)
      (Skvs.finishSelect s' dbId query select params rows') := by
  have hselected := hrows.whereRows h select.selection params
  simp only [finishSelect_eq, applyGroupBy_of_not_grouped hgrouped, hgrouped, Bool.false_eq_true,
    if_false, orderedRows, hlimit]
  split_ifs
  · exact hselected.applyProjection select.projection params
  · exact (hselected.applyOrderBy query.orderBy).applyProjection select.projection params

omit h hshapes hviews in
theorem sameAnswer_of_finished (select : Select) (schema : Option TableSchema)
    (hdistinct : select.distinct = false) (hrows : Shuffled rows rows') :
    let erased := fun rows : List Row =>
      (if select.distinct then retainDistinct [] rows else rows).map fun row => row.erase "_rowid_"
    SameAnswer (.ofRows (erased rows) (selectColumns select schema (erased rows)))
      (.ofRows (erased rows') (selectColumns select schema (erased rows'))) := by
  have herased := hrows.map (f := fun row => row.erase "_rowid_")
    (g := fun keys => keys.erase "_rowid_") fun row => IndexMap.keys_erase row "_rowid_"
  simp only [hdistinct, Bool.false_eq_true, if_false]
  exact ⟨herased, selectColumns_congr select schema herased.head_keys, rfl, rfl⟩

theorem fromRows_shuffled {fuel : Nat} {params : List Value}
    (hinner : ∀ query : Query, query.plain = true → Except.Rel Eq SameAnswer
      (executeSelect s dbId fuel query params) (executeSelect s' dbId fuel query params))
    (select : Select) : Except.Rel Eq Shuffled (fromRows s dbId params fuel select)
      (fromRows s' dbId params fuel select) := by
  have hview : ∀ name, s'.getViewDefinition dbId name = s.getViewDefinition dbId name := by
    intro name
    rw [KvsState.getViewDefinition, h.views, KvsState.getViewDefinition]
  unfold fromRows
  rcases select.from_ with _ | ⟨⟨relation, _ | ⟨join, joins⟩⟩, _ | ⟨next, rest⟩⟩
  case nil => exact .ok .nil
  case cons.nil.nil =>
    simp only [hview]
    cases hdef : s.getViewDefinition dbId (parseTableFactor relation).1 with
    | none => exact rowsForSimpleWhere_shuffled h hshapes _ _ _
    | some viewSql =>
        cases hstmts : parseStatements viewSql with
        | error e =>
            simp only [hstmts]
            exact .error rfl
        | ok stmts =>
            simp only [hstmts, bind, Except.bind]
            cases hhead : stmts.head? with
            | none => exact .error rfl
            | some stmt =>
                cases stmt with
                | query viewQuery =>
                    have hans := hinner viewQuery (hviews _ _ _ _ hdef hstmts hhead)
                    dsimp only
                    revert hans
                    generalize executeSelect s dbId fuel viewQuery params = x
                    generalize executeSelect s' dbId fuel viewQuery params = x'
                    rintro (hans | herr)
                    · exact .ok hans.rows
                    · exact .error herr
                | _ => exact .error rfl
  all_goals exact executeJoins_shuffled h hshapes _ _

/-- **A plain SELECT returns the same rows in any order of the tables.** -/
theorem select_rows_in_any_order (fuel : Nat) {query : Query} (hplain : query.plain = true)
    (params : List Value) :
    Except.Rel Eq SameAnswer (executeSelect s dbId fuel query params)
      (executeSelect s' dbId fuel query params) := by
  induction fuel generalizing query with
  | zero => exact .error rfl
  | succ fuel ih =>
      cases hbody : query.body with
      | select select =>
          have hclauses : (!isGrouped select.groupBy && !select.distinct &&
              query.limit.isNone) = true := by
            rw [Query.plain, hbody] at hplain
            exact hplain
          simp only [Bool.and_eq_true, Bool.not_eq_true', Option.isNone_iff_eq_none] at hclauses
          obtain ⟨⟨hgrouped, hdistinct⟩, hlimit⟩ := hclauses
          have hfrom := fromRows_shuffled h hshapes hviews (fun query hquery => ih hquery) select
          rw [executeSelect_succ hbody, executeSelect_succ hbody, finishedRows_eq, finishedRows_eq,
            h.wildcardSchema]
          revert hfrom
          generalize fromRows s dbId params fuel select = x
          generalize fromRows s' dbId params fuel select = x'
          rintro (hrows | herr)
          · exact .ok (sameAnswer_of_finished select _ hdistinct
              (hrows.finishSelect h query select params hgrouped hlimit))
          · exact .error herr
      | values rows =>
          simp only [executeSelect, hbody]
          exact .error rfl
      | other =>
          simp only [executeSelect, hbody]
          exact .error rfl

/-- The ORDER BY items have values other than REAL on every row, and on no two rows the same. -/
structure Decides (orderBy : List OrderByExpr) (rows : List Row) : Prop where
  notReal : ∀ row ∈ rows, ∀ order ∈ orderBy, (orderKey order row).isReal = false
  noTies : ∀ a ∈ rows, ∀ b ∈ rows, sameKeys orderBy a b = true → a = b

omit h hshapes hviews in
theorem Decides.applyOrderBy_eq {orderBy : List OrderByExpr} (hdecides : Decides orderBy rows)
    (hperm : rows'.Perm rows) : applyOrderBy rows' orderBy = applyOrderBy rows orderBy := by
  let comparable : Row → Prop := fun row => ∀ order ∈ orderBy, order.Comparable row
  have hpreorder : ∀ cmp ∈ orderBy.map orderCompare, PreorderOn comparable cmp := by
    intro cmp hcmp
    obtain ⟨order, horder, rfl⟩ := List.mem_map.mp hcmp
    have h := orderCompare_preorder order
    exact ⟨fun ha hb => h.swap (ha order horder) (hb order horder),
      fun ha hb hc => h.trans (ha order horder) (hb order horder) (hc order horder)⟩
  rw [applyOrderBy_eq_passes, applyOrderBy_eq_passes]
  refine passes_eq_of_perm hpreorder hdecides.notReal (fun a ha b hb heq => ?_) hperm
  refine hdecides.noTies a ha b hb (List.all_eq_true.mpr fun order horder => decide_eq_true ?_)
  have htie := lexCompare_eq_eq.mp heq (orderCompare order) (List.mem_map_of_mem horder)
  exact (orderCompare_eq_eq (hdecides.notReal a ha order horder)
    (hdecides.notReal b hb order horder)).mp htie

omit h hshapes hviews in
theorem orderedRows_congr (query : Query)
    (heq : applyOrderBy rows' query.orderBy = applyOrderBy rows query.orderBy) :
    orderedRows query rows' = orderedRows query rows := by
  have hordered : ∀ rows, (if query.orderBy.isEmpty then rows
      else applyOrderBy rows query.orderBy) = applyOrderBy rows query.orderBy := by
    intro rows
    split_ifs with hempty
    · rw [List.isEmpty_iff.mp hempty]
      rfl
    · rfl
  rw [orderedRows, orderedRows, hordered, hordered, heq]

/-- **ORDER BY without ties decides the answer**,
with what LIMIT, OFFSET and DISTINCT leave of it. -/
theorem ordered_select_in_any_order {fuel : Nat} {query : Query} {select : Select}
    (hbody : query.body = .select select) (hgrouped : isGrouped select.groupBy = false)
    {params : List Value} (hdecides : ∀ rows, fromRows s dbId params fuel select = .ok rows →
      Decides query.orderBy (whereRows s dbId params select.selection rows)) :
    executeSelect s' dbId (fuel + 1) query params =
      executeSelect s dbId (fuel + 1) query params := by
  have hfrom := fromRows_shuffled h hshapes hviews (fun query hquery =>
    select_rows_in_any_order h hshapes hviews fuel hquery params) select
  rw [executeSelect_succ hbody, executeSelect_succ hbody, finishedRows_eq, finishedRows_eq,
    h.wildcardSchema]
  revert hfrom hdecides
  generalize fromRows s dbId params fuel select = x
  generalize fromRows s' dbId params fuel select = x'
  rintro hdecides (hrows | rfl)
  · next rows rows' =>
    have hselected := hrows.whereRows h select.selection params
    have hsorted := (hdecides rows rfl).applyOrderBy_eq hselected.perm
    have hordered := orderedRows_congr query hsorted
    have hfinish : finishSelect s' dbId query select params rows' =
        finishSelect s dbId query select params rows := by
      simp only [finishSelect_eq, applyGroupBy_of_not_grouped hgrouped, hordered]
    change Except.ok _ = Except.ok _
    rw [hfinish]
  · rfl

end Statement

end

namespace Sample

/-- `INSERT INTO t VALUES (2), (1)`. -/
def insertPair : Call :=
  call (.insert "t" [] (some ⟨.values [[.value (.number "2")], [.value (.number "1")]], [], none,
    none⟩)) none

/-- Two rows in `t`. -/
def twoRows : World :=
  letI := Externals.ofTexts [] []
  insertPair.run 0 ((created "t" ["a"]).run 0 ⟨.new [0], []⟩)

/-- Row 1 was deleted and put back, after row 2. -/
def putBack : KvsState :=
  (twoRows.kvs.modifyStore 0 "t" (setRow none 1)).modifyStore 0 "t"
    (setRow (twoRows.kvs.row ⟨0, "t", 1⟩) 1)

theorem twoRows_shapes : RowShapes twoRows.kvs := by
  let _ := Externals.ofTexts [] []
  have hempty : ShapesKept ⟨.new [0], []⟩ :=
    ⟨fun k row hrow => absurd ((row_new [0] k).symm.trans hrow) nofun, noTriggers_new [0]⟩
  have hcreated : ShapesKept ((created "t" ["a"]).run 0 ⟨.new [0], []⟩) :=
    hempty.call rfl trivial
  have hfits : insertPair.fits 0 ((created "t" ["a"]).run 0 ⟨.new [0], []⟩) :=
    forall_candidateRows (by decide)
  have hkind : insertPair.stmt.onShapes = true := rfl
  exact (hcreated.call hkind hfits).shapes

theorem reordered_putBack : Reordered 0 twoRows.kvs putBack := by
  have hstore : twoRows.kvs.hasStore 0 "t" = true := by decide
  refine .of_rows (fun table => ?_) (fun table rowid => ?_) rfl rfl rfl rfl
  · rw [putBack, hasStore_modifyStore, hasStore_modifyStore]
  · rw [putBack, row_setRow _ _ _ _ _ ((hasStore_modifyStore ..).trans hstore),
      row_setRow _ _ _ _ _ hstore]
    split_ifs with hkey
    · rw [hkey]
    · rfl

/-- `SELECT * FROM t`, with the given ORDER BY and LIMIT. -/
def starQuery (orderBy : List OrderByExpr) (limit : Option Expr) : Query :=
  ⟨.select ⟨false, [.wildcard], [⟨.table "t" none, []⟩], none, .expressions []⟩, orderBy, limit,
    none⟩

theorem plainViews_twoRows :
    letI := Externals.ofTexts [] []
    PlainViews twoRows.kvs 0 := by
  let _ := Externals.ofTexts [] []
  intro name viewSql stmts query hdef
  have hviews : twoRows.kvs.getViewDefinition 0 name = none := rfl
  exact absurd (hviews.symm.trans hdef) nofun

end Sample

/-- `SELECT * FROM t` comes back in another order. -/
theorem select_rows_put_back :
    letI := Externals.ofTexts [] []
    let answer := fun s => executeSelect s 0 1 (Sample.starQuery [] none) []
    Except.Rel Eq SameAnswer (answer Sample.twoRows.kvs) (answer Sample.putBack) ∧
      (answer Sample.putBack).map QueryResult.rows ≠
        (answer Sample.twoRows.kvs).map QueryResult.rows := by
  let _ := Externals.ofTexts [] []
  exact ⟨select_rows_in_any_order Sample.reordered_putBack Sample.twoRows_shapes
    Sample.plainViews_twoRows 1 rfl [], by decide⟩

/-- `SELECT * FROM t ORDER BY a LIMIT 1` returns the same row, and `SELECT * FROM t LIMIT 1`
another. -/
theorem ordered_select_put_back :
    letI := Externals.ofTexts [] []
    let answer := fun orderBy s => (executeSelect s 0 1
      (Sample.starQuery orderBy (some (.value (.number "1")))) []).map QueryResult.rows
    answer [Sample.byColumn "a" true] Sample.putBack =
        answer [Sample.byColumn "a" true] Sample.twoRows.kvs ∧
      answer [] Sample.putBack ≠ answer [] Sample.twoRows.kvs := by
  let _ := Externals.ofTexts [] []
  have hrows : rowsForSimpleWhere Sample.twoRows.kvs 0 "t" none [] =
      .ok [.ofList [("a", .integer 2), ("_rowid_", .integer 1)],
        .ofList [("a", .integer 1), ("_rowid_", .integer 2)]] := by decide
  refine ⟨congrArg (Except.map QueryResult.rows) (ordered_select_in_any_order
    Sample.reordered_putBack Sample.twoRows_shapes Sample.plainViews_twoRows rfl rfl
      fun rows hfrom => ?_), by decide⟩
  obtain rfl := Except.ok.inj (hrows.symm.trans hfrom)
  exact ⟨by decide, by decide⟩

end Skvs
