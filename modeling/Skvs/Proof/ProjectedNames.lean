import Skvs.Proof.GroupedValues

/-!
# The names in the rows of a SELECT

The list of columns, the projection and GROUP BY each derive the name of an item on their own, and a
row is a map. Items keep their entries where the names are distinct, where none of them is the
internal rowid field, and where GROUP BY derives the name in the list of columns.
-/

namespace Skvs

section

variable [Externals]

/-- The name of an item in the list of columns. -/
def itemName : SelectItem → String
  | .unnamedExpr e => projectedName e
  | .exprWithAlias _ alias_ => alias_.text
  | .qualifiedWildcard | .wildcard => "*"

/-- The name that GROUP BY gives an item. -/
def groupName : SelectItem → String
  | .unnamedExpr (.identifier id) => id.value
  | .unnamedExpr e => exprToString e
  | .exprWithAlias _ alias_ => alias_.text
  | .qualifiedWildcard | .wildcard => "*"

/-- The name of an item in the rows. -/
def rowName (select : Select) (item : SelectItem) : String :=
  if isGrouped select.groupBy then groupName item else itemName item

/-- Each item has an entry of its own, under the name in the list of columns. -/
structure NamesKept (select : Select) : Prop where
  apart : (select.projection.map itemName).Nodup
  visible : "_rowid_" ∉ select.projection.map itemName
  grouped : isGrouped select.groupBy = true → ∀ item ∈ select.projection,
    groupName item = itemName item

/-! ### What each pass inserts -/

theorem getProjectionColumns_eq {projection : List SelectItem}
    (hexplicit : isPureOrMixedWildcard projection = false) :
    getProjectionColumns projection = projection.map itemName := by
  cases projection with
  | nil => exact nomatch hexplicit
  | cons item items =>
      refine List.map_congr_left fun item _ => ?_
      cases item <;> rfl

omit [Externals] in
/-- The items are expressions. -/
theorem expr_of_explicit {projection : List SelectItem}
    (hexplicit : isPureOrMixedWildcard projection = false) {item : SelectItem}
    (hitem : item ∈ projection) :
    (∃ e, item = .unnamedExpr e) ∨ ∃ e alias_, item = .exprWithAlias e alias_ := by
  rw [isPureOrMixedWildcard, Bool.or_eq_false_iff, List.any_eq_false] at hexplicit
  cases item with
  | unnamedExpr e => exact .inl ⟨e, rfl⟩
  | exprWithAlias e alias_ => exact .inr ⟨e, alias_, rfl⟩
  | qualifiedWildcard | wildcard => exact absurd rfl (hexplicit.2 _ hitem)

theorem projectItem_insert {projection : List SelectItem}
    (hexplicit : isPureOrMixedWildcard projection = false) (params : List Value) (row : Row) :
    ∀ item ∈ projection, ∀ newRow, ∃ v,
      projectItem params row newRow item = newRow.insert (itemName item) v := by
  intro item hitem newRow
  rcases expr_of_explicit hexplicit hitem with ⟨e, rfl⟩ | ⟨e, alias_, rfl⟩
  · exact ⟨_, rfl⟩
  · exact ⟨_, rfl⟩

theorem groupItem_insert {projection : List SelectItem}
    (hexplicit : isPureOrMixedWildcard projection = false) (groupRows : List Row) :
    ∀ item ∈ projection, ∀ row, ∃ v,
      groupItem groupRows row item = row.insert (groupName item) v := by
  intro item hitem row
  rcases expr_of_explicit hexplicit hitem with ⟨e, rfl⟩ | ⟨e, alias_, rfl⟩
  · cases e <;> exact ⟨_, rfl⟩
  · exact ⟨_, rfl⟩

theorem applyProjection_eq {projection : List SelectItem}
    (hexplicit : isPureOrMixedWildcard projection = false) (rows : List Row)
    (params : List Value) :
    applyProjection rows projection params =
      rows.map fun row => projection.foldl (projectItem params row) ∅ := by
  rw [applyProjection, if_neg]
  rw [isPureOrMixedWildcard, Bool.or_eq_false_iff, List.any_eq_false] at hexplicit
  rw [hexplicit.1, Bool.false_or, List.all_eq_true]
  intro hall
  obtain ⟨item, items, hitems⟩ :=
    List.exists_cons_of_ne_nil (List.isEmpty_eq_false_iff.mp hexplicit.1)
  have hitem : item ∈ projection := hitems ▸ List.mem_cons_self
  have hwildcard := hall item hitem
  cases item with
  | wildcard => exact hexplicit.2 _ hitem rfl
  | unnamedExpr | exprWithAlias | qualifiedWildcard => cases hwildcard

theorem selectColumns_eq {select : Select}
    (hexplicit : isPureOrMixedWildcard select.projection = false)
    (schemaForWildcard : Option TableSchema) (rows : List Row) :
    selectColumns select schemaForWildcard rows = select.projection.map itemName := by
  simp only [selectColumns, hexplicit, Bool.false_eq_true, if_false]
  exact getProjectionColumns_eq hexplicit

/-! ### The statement -/

variable (state : KvsState) (dbId : UInt32) (params : List Value)

/-- Each row of an explicit projection is made by insertions under the names of the items. -/
theorem mem_explicit_finishSelect {query : Query} {select : Select}
    (hexplicit : isPureOrMixedWildcard select.projection = false) {rows : List Row} {row : Row}
    (hmem : row ∈ finishSelect state dbId query select params rows) :
    ∃ step : Row → SelectItem → Row, row = select.projection.foldl step ∅ ∧
      ∀ item ∈ select.projection, ∀ r, ∃ v, step r item = r.insert (rowName select item) v := by
  rw [finishSelect_eq] at hmem
  by_cases hgrouped : isGrouped select.groupBy = true
  · simp only [rowName, hgrouped, if_true] at hmem ⊢
    cases hgroup : select.groupBy with
    | all =>
        rw [hgroup] at hgrouped
        exact nomatch hgrouped
    | expressions exprs =>
        have hne : exprs ≠ [] := by
          rw [hgroup] at hgrouped
          simpa [isGrouped] using hgrouped
        have hmade := orderedRows_subset query _ hmem
        rw [hgroup, applyGroupBy_eq hne, List.mem_map] at hmade
        obtain ⟨groupRows, -, rfl⟩ := hmade
        exact ⟨_, rfl, groupItem_insert hexplicit groupRows⟩
  · simp only [rowName, hgrouped, Bool.false_eq_true, if_false] at hmem ⊢
    rw [applyProjection_eq hexplicit, List.mem_map] at hmem
    obtain ⟨source, -, rfl⟩ := hmem
    exact ⟨_, rfl, projectItem_insert hexplicit params source⟩

theorem mem_explicit_select {query : Query} {select : Select} (hbody : query.body = .select select)
    (hexplicit : isPureOrMixedWildcard select.projection = false) {fuel : Nat}
    {result : QueryResult} (hresult : executeSelect state dbId fuel query params = .ok result)
    {row : Row} (hmem : row ∈ result.rows) :
    result.columns = select.projection.map itemName ∧
      ∃ step : Row → SelectItem → Row, row = (select.projection.foldl step ∅).erase "_rowid_" ∧
        ∀ item ∈ select.projection, ∀ r, ∃ v, step r item = r.insert (rowName select item) v := by
  cases fuel with
  | zero => exact nomatch hresult
  | succ fuel =>
      have hrows := executeSelect_rows state dbId params hbody fuel
      rw [hresult] at hrows
      have hcolumns : result.columns = select.projection.map itemName := by
        rw [executeSelect_succ hbody] at hresult
        cases hfinished : finishedRows state dbId fuel query select params with
        | error e =>
            rw [hfinished] at hresult
            exact nomatch hresult
        | ok finished =>
            rw [hfinished] at hresult
            obtain rfl := Except.ok.inj hresult
            exact selectColumns_eq hexplicit _ _
      refine ⟨hcolumns, ?_⟩
      cases hfrom : fromRows state dbId params fuel select with
      | error e =>
          rw [hfrom] at hrows
          exact nomatch hrows
      | ok rows =>
          rw [hfrom] at hrows
          rw [Except.ok.inj hrows] at hmem
          obtain ⟨finished, hfinished, rfl⟩ := List.mem_map.mp hmem
          have hfinish : finished ∈ finishSelect state dbId query select params rows := by
            split_ifs at hfinished
            · exact (retainDistinct_sublist [] _).subset hfinished
            · exact hfinished
          obtain ⟨step, rfl, hstep⟩ := mem_explicit_finishSelect state dbId params hexplicit hfinish
          exact ⟨step, rfl, hstep⟩

/-- A row of a SELECT with an explicit projection has one entry for each item, in their order and
under the names in the list of columns, just when the names are kept. -/
theorem row_keyed_by_columns_iff {query : Query} {select : Select}
    (hbody : query.body = .select select)
    (hexplicit : isPureOrMixedWildcard select.projection = false) {fuel : Nat}
    {result : QueryResult} (hresult : executeSelect state dbId fuel query params = .ok result)
    {row : Row} (hmem : row ∈ result.rows) :
    row.keys = result.columns ↔ NamesKept select := by
  obtain ⟨hcolumns, step, rfl, hstep⟩ :=
    mem_explicit_select state dbId params hbody hexplicit hresult hmem
  rw [hcolumns, IndexMap.keys_erase_foldl_eq_iff hstep "_rowid_" (List.length_map _)]
  constructor
  · rintro ⟨hnames, hapart, hvisible⟩
    refine ⟨hapart, hvisible, fun hgrouped item hitem => ?_⟩
    have hname := List.map_inj_left.mp hnames item hitem
    rwa [rowName, if_pos hgrouped] at hname
  · intro hkept
    refine ⟨List.map_congr_left fun item hitem => ?_, hkept.apart, hkept.visible⟩
    rw [rowName]
    split_ifs with hgrouped
    · exact hkept.grouped hgrouped item hitem
    · rfl

end

namespace Sample

/-- `SELECT item, ... FROM t`. -/
def selectItems (projection : List SelectItem) : Select where
  distinct := false
  projection := projection
  from_ := [⟨.table "t" none, []⟩]
  selection := none
  groupBy := .expressions []

/-- Surroundings that print a qualified column with its qualifier. -/
@[reducible]
def printing : Externals := { Externals.ofTexts [] [] with
  exprToString := fun
    | .compoundIdentifier parts => ".".intercalate (parts.map Ident.text)
    | .identifier id => id.text
    | .other text _ => text
    | _ => "" }

end Sample

theorem row_keyed_by_columns_two :
    letI := Sample.printing
    let select := Sample.selectItems
      [.unnamedExpr (columnOf "t" "a"), .exprWithAlias (Sample.identifier "a") (Sample.name "x")]
    let row : Row := .ofList [("a", .integer 1), ("x", .integer 1)]
    executeSelect Sample.oneRow 0 1 (Sample.selectQuery select) [] = .ok (.ofRows [row] ["a", "x"]) ∧
      (row.keys = ["a", "x"] ↔ NamesKept select) := by
  let _ := Sample.printing
  intro select row
  have hresult : executeSelect Sample.oneRow 0 1 (Sample.selectQuery select) [] =
      .ok (.ofRows [row] ["a", "x"]) := by decide
  exact ⟨hresult, row_keyed_by_columns_iff Sample.oneRow 0 [] rfl (by decide) hresult
    List.mem_cons_self⟩

/-- `SELECT t.a FROM t GROUP BY t.a` lists the column `a` and returns a row with an entry `t.a`, and
`SELECT a, t.a FROM t` lists `a` twice and returns a row with one entry. -/
theorem row_keyed_by_other_names :
    letI := Sample.printing
    let grouped : Select := { Sample.selectItems [.unnamedExpr (columnOf "t" "a")] with
      groupBy := .expressions [columnOf "t" "a"] }
    let twice := Sample.selectItems
      [.unnamedExpr (Sample.identifier "a"), .unnamedExpr (columnOf "t" "a")]
    (∃ row, executeSelect Sample.oneRow 0 1 (Sample.selectQuery grouped) [] =
      .ok (.ofRows [row] ["a"]) ∧ row.keys = ["t.a"]) ∧
    ∃ row, executeSelect Sample.oneRow 0 1 (Sample.selectQuery twice) [] =
      .ok (.ofRows [row] ["a", "a"]) ∧ row.keys = ["a"] :=
  ⟨⟨.ofList [("t.a", .null)], by decide, rfl⟩, ⟨.ofList [("a", .integer 1)], by decide, rfl⟩⟩

end Skvs
