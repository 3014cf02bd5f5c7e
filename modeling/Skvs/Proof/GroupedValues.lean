import Skvs.Proof.GroupBy
import Skvs.Proof.SelectRows
import Skvs.Proof.MergedRow
import Skvs.Lib.KeyedFold

/-!
# The columns of a grouped SELECT

The groups are told apart by what `eval` makes of the group expressions, and what the output holds is
worked out by `evaluateAggregate`, which knows bare columns and aggregate calls and takes everything
else for NULL.
-/

namespace Skvs

section

variable [Externals]

/-- The output column of a projected item, and the expression that it shows. -/
def groupedColumn : SelectItem → Option (String × Expr)
  | .unnamedExpr e =>
    some (match e with
      | .identifier id => id.value
      | _ => exprToString e, e)
  | .exprWithAlias e alias_ => some (alias_.text, e)
  | _ => none

/-- The row made of a group. -/
def groupRow (projection : List SelectItem) (groupRows : List Row) : Row :=
  projection.foldl (groupItem groupRows) ∅

/-- The expression that an output column shows: that of the last item with the name. -/
def shownUnder (projection : List SelectItem) (name : String) : Option Expr :=
  (projection.filterMap groupedColumn).reverse.lookup name

theorem mem_of_shownUnder {projection : List SelectItem} {name : String} {e : Expr}
    (h : shownUnder projection name = some e) :
    ∃ item ∈ projection, groupedColumn item = some (name, e) := by
  obtain ⟨before, after, hitems, -⟩ := List.lookup_eq_some_iff.mp h
  have hmem : (name, e) ∈ (projection.filterMap groupedColumn).reverse := by simp [hitems]
  exact List.mem_filterMap.mp (List.mem_reverse.mp hmem)

theorem groupRow_eq (projection : List SelectItem) (groupRows : List Row) :
    groupRow projection groupRows = ((projection.filterMap groupedColumn).map fun c =>
      (c.1, evaluateAggregate c.2 groupRows)).foldl (fun r c => r.insert c.1 c.2) ∅ := by
  rw [groupRow, List.foldl_map]
  generalize (∅ : Row) = row
  induction projection generalizing row with
  | nil => rfl
  | cons item items ih =>
      rw [List.foldl_cons, ih]
      cases item with
      | unnamedExpr e => cases e <;> rfl
      | exprWithAlias | qualifiedWildcard | wildcard => rfl

theorem get_groupRow (projection : List SelectItem) (groupRows : List Row) (name : String) :
    (groupRow projection groupRows).get name =
      (shownUnder projection name).map fun e => evaluateAggregate e groupRows := by
  rw [groupRow_eq, IndexMap.get_foldl_insert, ← List.map_reverse,
    IndexMap.lookup_map _ fun _ e => evaluateAggregate e groupRows, IndexMap.get_empty,
    Option.or_none, shownUnder]

def aggregateNames : List String := ["count", "sum", "avg", "max", "min"]

/-- A call of one of the aggregate functions. -/
def Expr.isAggregate : Expr → Bool
  | .function name _ _ _ => toLowercase name ∈ aggregateNames
  | _ => false

/-- Neither a bare column nor an aggregate call has a value in the output. -/
theorem evaluateAggregate_of_scalar {e : Expr} (hscalar : e.isAggregate = false)
    (hbare : ∀ id, e ≠ .identifier id) (groupRows : List Row) :
    evaluateAggregate e groupRows = .null := by
  cases e with
  | identifier id => exact absurd rfl (hbare id)
  | function name args isDistinct =>
      simp only [Expr.isAggregate, aggregateNames, List.mem_cons, List.not_mem_nil, or_false,
        decide_eq_false_iff_not, not_or] at hscalar
      obtain ⟨hcount, hsum, havg, hmax, hmin⟩ := hscalar
      rw [evaluateAggregate]
      split <;> first | contradiction | rfl
  | _ => rfl

/-- A group holds the rows that have its key. -/
theorem mem_groupsOf {exprs : List Expr} {rows g : List Row} :
    g ∈ groupsOf exprs rows ↔
      ∃ row ∈ rows, g = rows.filter fun r => groupKey exprs r = groupKey exprs row := by
  rw [groupsOf, IndexMap.values_buckets, List.mem_map, List.filterMap_eq_map']
  simp only [List.mem_eraseDups, List.mem_map, Option.some.injEq]
  constructor
  · rintro ⟨_, ⟨row, hrow, rfl⟩, rfl⟩
    exact ⟨row, hrow, rfl⟩
  · rintro ⟨row, hrow, rfl⟩
    exact ⟨_, ⟨row, hrow, rfl⟩, rfl⟩

theorem mem_groupsOf_self {exprs : List Expr} {rows : List Row} {row : Row} (h : row ∈ rows) :
    ∃ g ∈ groupsOf exprs rows, row ∈ g :=
  ⟨_, mem_groupsOf.mpr ⟨row, h, rfl⟩, List.mem_filter.mpr ⟨h, decide_eq_true rfl⟩⟩

theorem mem_of_mem_group {exprs : List Expr} {rows g : List Row} (hg : g ∈ groupsOf exprs rows)
    {row : Row} (h : row ∈ g) : row ∈ rows := by
  obtain ⟨_, -, rfl⟩ := mem_groupsOf.mp hg
  exact (List.mem_filter.mp h).1

theorem groupKey_eq_of_mem_group {exprs : List Expr} {rows g : List Row}
    (hg : g ∈ groupsOf exprs rows) {row row' : Row} (h : row ∈ g) (h' : row' ∈ g) :
    groupKey exprs row = groupKey exprs row' := by
  obtain ⟨_, -, rfl⟩ := mem_groupsOf.mp hg
  exact (of_decide_eq_true (List.mem_filter.mp h).2).trans
    (of_decide_eq_true (List.mem_filter.mp h').2).symm

/-- A bare column has the value of the first row of its group, and so of all. -/
theorem evaluateAggregate_identifier (hinj : ∀ s t, debugStr s = debugStr t → s = t)
    (hclean : ∀ s, '\x01' ∉ (debugStr s).toList) {exprs : List Expr} {id : Ident}
    (he : .identifier id ∈ exprs) {rows g : List Row} (hg : g ∈ groupsOf exprs rows) {row : Row}
    (hrow : row ∈ g) :
    (evaluateAggregate (.identifier id) g).printsLike (groupValue row (.identifier id)) := by
  obtain ⟨first, rest, rfl⟩ := List.exists_cons_of_ne_nil (List.ne_nil_of_mem hrow)
  have halike := (groupKey_eq_iff hinj hclean (List.ne_nil_of_mem he) first row).mp
    (groupKey_eq_of_mem_group hg List.mem_cons_self hrow)
  exact halike _ he

variable (state : KvsState) (dbId : UInt32) (params : List Value)

/-- A SELECT with GROUP BY returns rows made of its groups, and such a row holds the value of a group
expression just when the expression is a bare column or NULL on every row. -/
theorem grouped_values_iff (hinj : ∀ s t, debugStr s = debugStr t → s = t)
    (hclean : ∀ s, '\x01' ∉ (debugStr s).toList) {query : Query} {select : Select}
    (hbody : query.body = .select select) {exprs : List Expr}
    (hgroup : select.groupBy = .expressions exprs) {name : String} {e : Expr}
    (hshown : shownUnder select.projection name = some e) (he : e ∈ exprs)
    (hscalar : e.isAggregate = false) {fuel : Nat} {rows : List Row}
    (hrows : fromRows state dbId params fuel select = .ok rows) :
    let matching := whereRows state dbId params select.selection rows
    let outputRow := fun g => (groupRow select.projection g).erase "_rowid_"
    (∀ result, executeSelect state dbId (fuel + 1) query params = .ok result →
      ∀ row ∈ result.rows, ∃ g ∈ groupsOf exprs matching, row = outputRow g) ∧
    ((∀ g ∈ groupsOf exprs matching, ∀ row ∈ g, ∃ v, (outputRow g).get name = some v ∧
        v.printsLike (evalFrom (.withRow row) params e 0)) ↔
      ∀ row ∈ matching, name ≠ "_rowid_" ∧
        ((∃ id, e = .identifier id) ∨ evalFrom (.withRow row) params e 0 = .null)) := by
  intro matching outputRow
  have hne : exprs ≠ [] := List.ne_nil_of_mem he
  have hget : ∀ g, (outputRow g).get name =
      if name = "_rowid_" then none else some (evaluateAggregate e g) := by
    intro g
    rw [IndexMap.get_erase, get_groupRow, hshown]
    rfl
  refine ⟨fun result hresult row hrow => ?_, fun h row hrow => ?_, fun h g hg row hrow => ?_⟩
  · have hgrouped : isGrouped select.groupBy = true := by
      rw [hgroup]
      simpa [isGrouped] using hne
    obtain ⟨grouped, hmem, rfl⟩ :=
      mem_grouped_select state dbId params hbody hgrouped hrows hresult hrow
    rw [hgroup, applyGroupBy_eq hne, List.mem_map] at hmem
    obtain ⟨g, hg, rfl⟩ := hmem
    exact ⟨g, hg, rfl⟩
  · obtain ⟨g, hg, hrowg⟩ : ∃ g ∈ groupsOf exprs matching, row ∈ g := mem_groupsOf_self hrow
    obtain ⟨v, hv, hprints⟩ := h g hg row hrowg
    rw [hget] at hv
    split_ifs at hv with hname
    refine ⟨hname, or_iff_not_imp_left.mpr fun hbare => ?_⟩
    obtain rfl := Option.some.inj hv
    rw [evaluateAggregate_of_scalar hscalar fun id hid => hbare ⟨id, hid⟩] at hprints
    exact ((Value.printsLike_of_not_real rfl).mp hprints).symm
  · obtain ⟨hname, hcase⟩ := h row (mem_of_mem_group hg hrow)
    refine ⟨_, by rw [hget, if_neg hname], ?_⟩
    by_cases hbare : ∃ id, e = .identifier id
    · obtain ⟨id, rfl⟩ := hbare
      exact evaluateAggregate_identifier hinj hclean he hg hrow
    · rw [hcase.resolve_left hbare,
        evaluateAggregate_of_scalar hscalar fun id hid => hbare ⟨id, hid⟩]
      exact (Value.printsLike_of_not_real rfl).mpr rfl

end

namespace Sample

/-- `SELECT e AS x FROM t GROUP BY e`. -/
def selectGrouped (e : Expr) : Select where
  distinct := false
  projection := [.exprWithAlias e (name "x")]
  from_ := [⟨.table "t" none, []⟩]
  selection := none
  groupBy := .expressions [e]

end Sample

theorem grouped_column_holds :
    letI := Sample.quoting
    let e := Expr.identifier (Sample.name "a")
    let rows : List Row := [.ofList [("a", .integer 1), ("_rowid_", .integer 1)]]
    ∀ g ∈ groupsOf [e] rows, ∀ row ∈ g, ∃ v,
      ((groupRow (Sample.selectGrouped e).projection g).erase "_rowid_").get "x" = some v ∧
        v.printsLike (evalFrom (.withRow row) [] e 0) := by
  let _ := Sample.quoting
  intro e rows
  have hrows : fromRows Sample.oneRow 0 [] 0 (Sample.selectGrouped e) = .ok rows := by
    decide
  have hbody : (Sample.selectQuery (Sample.selectGrouped e)).body =
      .select (Sample.selectGrouped e) := rfl
  have hshown : shownUnder (Sample.selectGrouped e).projection "x" = some e := rfl
  exact (grouped_values_iff Sample.oneRow 0 [] Sample.quoted_inj Sample.separator_not_mem_quoted hbody
    rfl hshown List.mem_cons_self rfl hrows).2.mpr fun row _ => ⟨by decide, Or.inl ⟨_, rfl⟩⟩

/-- `t.a` is 1 on the row of the group, and `SELECT t.a AS x FROM t GROUP BY t.a` returns NULL. -/
theorem grouped_qualified_column_null :
    letI := Sample.quoting
    let e := columnOf "t" "a"
    let row : Row := .ofList [("a", .integer 1), ("_rowid_", .integer 1)]
    (∀ s t, debugStr s = debugStr t → s = t) ∧ (∀ s, '\x01' ∉ (debugStr s).toList) ∧
    fromRows Sample.oneRow 0 [] 0 (Sample.selectGrouped e) = .ok [row] ∧
    groupsOf [e] [row] = [[row]] ∧ evalFrom (.withRow row) [] e 0 = .integer 1 ∧
    (executeSelect Sample.oneRow 0 1 (Sample.selectQuery (Sample.selectGrouped e)) []).map
      QueryResult.rows = .ok [.ofList [("x", .null)]] := by
  let _ := Sample.quoting
  exact ⟨Sample.quoted_inj, Sample.separator_not_mem_quoted, by decide, by decide,
    by decide, by decide⟩

end Skvs
