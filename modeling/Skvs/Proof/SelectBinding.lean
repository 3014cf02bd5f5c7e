import Skvs.Proof.ClauseBinding
import Skvs.Proof.InsertValues
import Skvs.Proof.Joins
import Skvs.Proof.SelectRows

/-!
# The placeholders of a SELECT

Each projected item, each ON condition and the WHERE clause reads the parameter list from its start,
and so do the two bounds of a BETWEEN that an index answers. The query with literals put in for the
placeholders gives the same result where each of these that the query gets to, for a row or for a
lookup, finds at the start of the list what stands at its own place.
-/

namespace Skvs

variable [Externals]

/-! ### Substitution -/

section Bind

variable (sub : Nat → SqlValue)

/-- An item that is printed as its column's name keeps the name. -/
def bindItem : SelectItem → StateM Nat SelectItem
  | .unnamedExpr e =>
    if countPlaceholders e = 0 then pure (.unnamedExpr e)
    else do return .exprWithAlias (← bindExpr sub e) ⟨projectedName e, projectedName e⟩
  | .exprWithAlias e alias_ => do return .exprWithAlias (← bindExpr sub e) alias_
  | .qualifiedWildcard => pure .qualifiedWildcard
  | .wildcard => pure .wildcard

def bindItems : List SelectItem → StateM Nat (List SelectItem)
  | [] => pure []
  | item :: items => do return (← bindItem sub item) :: (← bindItems items)

def bindConstraint : JoinConstraint → StateM Nat JoinConstraint
  | .on e => do return .on (← bindExpr sub e)
  | .using cols => pure (.using cols)
  | .natural => pure .natural
  | .none => pure .none

def bindJoinOperator : JoinOperator → StateM Nat JoinOperator
  | .inner c => do return .inner (← bindConstraint sub c)
  | .leftOuter c => do return .leftOuter (← bindConstraint sub c)
  | .rightOuter c => do return .rightOuter (← bindConstraint sub c)
  | .fullOuter c => do return .fullOuter (← bindConstraint sub c)
  | .crossJoin => pure .crossJoin
  | .other debug => pure (.other debug)

def bindJoins : List Join → StateM Nat (List Join)
  | [] => pure []
  | join :: joins => do
    let joinOperator ← bindJoinOperator sub join.joinOperator
    return ⟨join.relation, joinOperator⟩ :: (← bindJoins joins)

def bindFrom : List TableWithJoins → StateM Nat (List TableWithJoins)
  | [] => pure []
  | t :: from_ => do
    let joins ← bindJoins sub t.joins
    return ⟨t.relation, joins⟩ :: (← bindFrom from_)

/-- The projection comes first in the text, then the ON conditions, then WHERE. -/
def bindSelect (select : Select) : StateM Nat Select := do
  let projection ← bindItems sub select.projection
  let from_ ← bindFrom sub select.from_
  let selection ← bindOption sub select.selection
  return { select with projection := projection, from_ := from_, selection := selection }

/-- The query with its placeholders replaced by literals, counted from the start of the text. -/
def bindQuery (query : Query) : Query :=
  match query.body with
  | .select select => { query with body := .select (bindSelect sub select 0).1 }
  | _ => query

end Bind

/-! ### The expressions of a SELECT -/

def SelectItem.exprs : SelectItem → List Expr
  | .unnamedExpr e | .exprWithAlias e _ => [e]
  | .qualifiedWildcard | .wildcard => []

def JoinConstraint.exprs : JoinConstraint → List Expr
  | .on e => [e]
  | .using _ | .natural | .none => []

def JoinOperator.exprs : JoinOperator → List Expr
  | .inner c | .leftOuter c | .rightOuter c | .fullOuter c => c.exprs
  | .crossJoin | .other _ => []

def joinExprs (joins : List Join) : List Expr := joins.flatMap fun join => join.joinOperator.exprs

def Select.itemExprs (select : Select) : List Expr := select.projection.flatMap SelectItem.exprs

def Select.onExprs (select : Select) : List Expr := select.from_.flatMap fun t => joinExprs t.joins

/-- The expressions of a SELECT in the order of the text. -/
def Select.exprs (select : Select) : List Expr :=
  select.itemExprs ++ select.onExprs ++ select.selection.toList

/-! ### Lists of expressions -/

/-- The expressions stand one after the other. -/
def PlacedAll (params : List Value) (sub : Nat → SqlValue) : Nat → List Expr → Prop
  | _, [] => True
  | o, e :: es => Placed params sub o e ∧ PlacedAll params sub (o + countPlaceholders e) es

/-- Each expression finds the same parameters at the start of the list as at its own place. -/
def StartsAgree (params : List Value) : Nat → List Expr → Prop
  | _, [] => True
  | o, e :: es =>
    SameParams params 0 o (countPlaceholders e) ∧ StartsAgree params (o + countPlaceholders e) es

omit [Externals] in
theorem placeholders_append (es es' : List Expr) :
    placeholders (es ++ es') = placeholders es + placeholders es' := by
  rw [placeholders, List.map_append, List.sum_append]
  rfl

omit [Externals] in
theorem placedAll_append {params : List Value} {sub : Nat → SqlValue} {es es' : List Expr} {o : Nat} :
    PlacedAll params sub o (es ++ es') ↔
      PlacedAll params sub o es ∧ PlacedAll params sub (o + placeholders es) es' := by
  induction es generalizing o with
  | nil => exact ⟨fun h => ⟨trivial, h⟩, And.right⟩
  | cons e es ih =>
      simp only [List.cons_append, PlacedAll, ih, placeholders, List.map_cons, List.sum_cons,
        and_assoc, Nat.add_assoc]

omit [Externals] in
theorem startsAgree_append {params : List Value} {es es' : List Expr} {o : Nat} :
    StartsAgree params o (es ++ es') ↔
      StartsAgree params o es ∧ StartsAgree params (o + placeholders es) es' := by
  induction es generalizing o with
  | nil => exact ⟨fun h => ⟨trivial, h⟩, And.right⟩
  | cons e es ih =>
      simp only [List.cons_append, StartsAgree, ih, placeholders, List.map_cons, List.sum_cons,
        and_assoc, Nat.add_assoc]

section Lists

variable {α β γ : Type}

omit [Externals] in
theorem map_eq_of_forall₂ {f : α → β} {l l' : List α} (h : List.Forall₂ (fun a b => f a = f b) l l') :
    l.map f = l'.map f := by
  induction h with
  | nil => rfl
  | cons hab _ ih => rw [List.map_cons, List.map_cons, hab, ih]

omit [Externals] in
theorem foldl_eq_of_forall₂ {f : γ → α → γ} {l l' : List α}
    (h : List.Forall₂ (fun a b => ∀ s, f s a = f s b) l l') (s : γ) : l.foldl f s = l'.foldl f s := by
  induction h generalizing s with
  | nil => rfl
  | cons hab _ ih => rw [List.foldl_cons, List.foldl_cons, hab, ih]

end Lists

/-! ### The projection -/

section Items

variable {params : List Value} {sub : Nat → SqlValue}

/-- Two items that stand for the same column, with the same value in a group. -/
structure SelectItem.Same (item item' : SelectItem) : Prop where
  group : ∀ groupRows row, groupItem groupRows row item = groupItem groupRows row item'
  bare : item.isWildcard = item'.isWildcard
  mixed : isPureOrMixedWildcard [item] = isPureOrMixedWildcard [item']
  column : getProjectionColumns [item] = getProjectionColumns [item']

/-- Two items that put the same value into every row. -/
def SelectItem.ProjectsAlike (params : List Value) (item item' : SelectItem) : Prop :=
  ∀ row newRow, projectItem params row newRow item = projectItem params row newRow item'

omit [Externals] in
theorem aggregateColumn_bindArgs (sub : Nat → SqlValue) (args : List FunctionArg) (o : Nat) :
    aggregateColumn (bindArgs sub args o).1 = aggregateColumn args ∧
      isStarArg (bindArgs sub args o).1 = isStarArg args ∧
      (bindArgs sub args o).1.isEmpty = args.isEmpty := by
  match args with
  | [] | .named _ _ :: _ | .unnamed .qualifiedWildcard :: _ | .unnamed .wildcard :: _ =>
    exact ⟨rfl, rfl, rfl⟩
  | .unnamed (.expr (.value v)) :: _ => cases v <;> exact ⟨rfl, rfl, rfl⟩
  | .unnamed (.expr (.identifier _)) :: _ | .unnamed (.expr (.compoundIdentifier _)) :: _
  | .unnamed (.expr (.nested _)) :: _ | .unnamed (.expr (.unaryOp ..)) :: _
  | .unnamed (.expr (.binaryOp ..)) :: _ | .unnamed (.expr (.isNull _)) :: _
  | .unnamed (.expr (.isNotNull _)) :: _ | .unnamed (.expr (.between ..)) :: _
  | .unnamed (.expr (.inList ..)) :: _ | .unnamed (.expr (.like ..)) :: _
  | .unnamed (.expr (.iLike ..)) :: _ | .unnamed (.expr (.case ..)) :: _
  | .unnamed (.expr (.function ..)) :: _ | .unnamed (.expr (.other ..)) :: _ =>
    exact ⟨rfl, rfl, rfl⟩

/-- An aggregate looks at no placeholder. -/
theorem evaluateAggregate_bindExpr (sub : Nat → SqlValue) (e : Expr) (o : Nat) (rows : List Row) :
    evaluateAggregate (bindExpr sub e o).1 rows = evaluateAggregate e rows := by
  cases e with
  | value v => cases v <;> rfl
  | function name args distinct clausePlaceholders =>
      obtain ⟨hcolumn, hstar, hempty⟩ := aggregateColumn_bindArgs sub args o
      change evaluateAggregate (.function name (bindArgs sub args o).1 distinct 0) rows = _
      simp only [evaluateAggregate, hcolumn, hstar, hempty]
  | _ => rfl

theorem bindItem_same {item : SelectItem} {o : Nat} (h : PlacedAll params sub o item.exprs) :
    (bindItem sub item o).2 = o + placeholders item.exprs ∧ (bindItem sub item o).1.Same item ∧
      (StartsAgree params o item.exprs →
        (bindItem sub item o).1.ProjectsAlike params item) := by
  cases item with
  | qualifiedWildcard | wildcard => exact ⟨rfl, ⟨fun _ _ => rfl, rfl, rfl, rfl⟩, fun _ _ _ => rfl⟩
  | exprWithAlias e alias_ =>
      refine ⟨h.1.next, ⟨fun rows row => ?_, rfl, rfl, rfl⟩, fun hstart row newRow => ?_⟩
      · exact congrArg (row.insert alias_.text) (evaluateAggregate_bindExpr sub e o rows)
      · exact congrArg (newRow.insert alias_.text) (Binds.value ⟨h.1, hstart.1⟩ _)
  | unnamedExpr e =>
      rw [bindItem]
      split_ifs with hcount
      · refine ⟨?_, ⟨fun _ _ => rfl, rfl, rfl, rfl⟩, fun _ _ _ => rfl⟩
        simp only [SelectItem.exprs, placeholders, List.map_cons, List.map_nil, hcount]
        rfl
      · refine ⟨h.1.next, ⟨fun rows row => ?_, rfl, rfl, rfl⟩, fun hstart row newRow => ?_⟩
        · change row.insert (projectedName e) (evaluateAggregate (bindExpr sub e o).1 rows) = _
          rw [evaluateAggregate_bindExpr]
          cases e with
          | identifier | compoundIdentifier => exact absurd rfl hcount
          | _ => rfl
        · exact congrArg (newRow.insert (projectedName e)) (Binds.value ⟨h.1, hstart.1⟩ _)

theorem bindItems_same {items : List SelectItem} {o : Nat}
    (h : PlacedAll params sub o (items.flatMap SelectItem.exprs)) :
    (bindItems sub items o).2 = o + placeholders (items.flatMap SelectItem.exprs) ∧
      List.Forall₂ SelectItem.Same (bindItems sub items o).1 items ∧
      (StartsAgree params o (items.flatMap SelectItem.exprs) →
        List.Forall₂ (SelectItem.ProjectsAlike params) (bindItems sub items o).1 items) := by
  induction items generalizing o with
  | nil => exact ⟨rfl, .nil, fun _ => .nil⟩
  | cons item items ih =>
      obtain ⟨hitem, hitems⟩ := placedAll_append.mp h
      obtain ⟨hnext, hsame, hproject⟩ := bindItem_same hitem
      rw [← hnext] at hitems
      obtain ⟨hnext', hsame', hproject'⟩ := ih hitems
      refine ⟨?_, .cons hsame hsame', fun hstart => ?_⟩
      · change (bindItems sub items (bindItem sub item o).2).2 = _
        rw [hnext', hnext, Nat.add_assoc, ← placeholders_append, List.flatMap_cons]
      · obtain ⟨hfirst, hrest⟩ := startsAgree_append.mp hstart
        rw [← hnext] at hrest
        exact .cons (hproject hfirst) (hproject' hrest)

section Same

variable {items items' : List SelectItem} (h : List.Forall₂ SelectItem.Same items items')
include h

theorem applyProjection_same {rows : List Row}
    (hproject : rows ≠ [] → List.Forall₂ (SelectItem.ProjectsAlike params) items items') :
    applyProjection rows items params = applyProjection rows items' params := by
  have hall : items.all SelectItem.isWildcard = items'.all SelectItem.isWildcard := by
    have hbare := map_eq_of_forall₂ (h.imp fun _ _ hsame => hsame.bare)
    simpa only [List.all_map, Function.id_comp] using congrArg (fun l => l.all id) hbare
  have hempty : items.isEmpty = items'.isEmpty := by
    cases h <;> rfl
  simp only [applyProjection, hall, hempty]
  by_cases hrows : rows = []
  · simp only [hrows, List.map_nil]
  · have hfold : ∀ row newRow, items.foldl (projectItem params row) newRow =
        items'.foldl (projectItem params row) newRow := fun row =>
      foldl_eq_of_forall₂ ((hproject hrows).imp fun _ _ halike => halike row)
    simp only [hfold]

theorem applyGroupBy_same (rows : List Row) (groupBy : GroupByExpr) :
    applyGroupBy rows groupBy items = applyGroupBy rows groupBy items' := by
  have hgroup : ∀ groupRows row, items.foldl (groupItem groupRows) row =
      items'.foldl (groupItem groupRows) row := fun groupRows =>
    foldl_eq_of_forall₂ (h.imp fun _ _ hsame => hsame.group groupRows)
  simp only [applyGroupBy, hgroup]

theorem columns_same :
    isPureOrMixedWildcard items = isPureOrMixedWildcard items' ∧
      getProjectionColumns items = getProjectionColumns items' := by
  induction h with
  | nil => exact ⟨rfl, rfl⟩
  | @cons item item' items items' hsame hall ih =>
      cases hall with
      | nil => exact ⟨hsame.mixed, hsame.column⟩
      | @cons next next' items items' _ _ =>
          have hsplit : ∀ (first second : SelectItem) (rest : List SelectItem),
              isPureOrMixedWildcard (first :: second :: rest) =
                (isPureOrMixedWildcard [first] || isPureOrMixedWildcard (second :: rest)) := by
            simp [isPureOrMixedWildcard]
          refine ⟨?_, congrArg₂ (· ++ ·) hsame.column ih.2⟩
          rw [hsplit, hsplit, hsame.mixed, ih.1]

end Same

end Items

/-! ### Joins -/

section Joins

variable (state : KvsState) (dbId : UInt32) {params : List Value} {sub : Nat → SqlValue}

omit [Externals] in
theorem joinSide_bindExpr (name1 name2 : String) (sub : Nat → SqlValue) (e : Expr) (o : Nat) :
    joinSide name1 name2 (bindExpr sub e o).1 = joinSide name1 name2 e := by
  match e with
  | .value v => cases v <;> rfl
  | .identifier _ | .compoundIdentifier _ | .nested _ | .unaryOp .. | .binaryOp .. | .isNull _
  | .isNotNull _ | .between .. | .inList .. | .like .. | .iLike .. | .case .. | .function ..
  | .other .. => rfl

omit [Externals] in
theorem extractEquiJoin_bind (sub : Nat → SqlValue) (c : JoinConstraint) (o : Nat)
    (name1 name2 : String) :
    extractEquiJoin (bindConstraint sub c o).1 name1 name2 = extractEquiJoin c name1 name2 := by
  match c with
  | .using _ | .natural | .none => rfl
  | .on (.value v) => cases v <;> rfl
  | .on (.binaryOp left op right) =>
    cases op
    case eq =>
      change extractEquiJoin (.on (.binaryOp (bindExpr sub left o).1 .eq
        (bindExpr sub right (bindExpr sub left o).2).1)) name1 name2 = _
      rw [extractEquiJoin_on, extractEquiJoin_on, joinSide_bindExpr, joinSide_bindExpr]
    all_goals rfl
  | .on (.identifier _) | .on (.compoundIdentifier _) | .on (.nested _) | .on (.unaryOp ..)
  | .on (.isNull _) | .on (.isNotNull _) | .on (.between ..) | .on (.inList ..) | .on (.like ..)
  | .on (.iLike ..) | .on (.case ..) | .on (.function ..) | .on (.other ..) => rfl

/-- An expression that finds the same parameters at the start of the list as at its own place, and
asks for no full-text search by a placeholder. -/
structure ClauseAgrees (params : List Value) (o : Nat) (e : Expr) : Prop where
  start : SameParams params 0 o (countPlaceholders e)
  words : e.searchesLiterals

/-- A constraint whose expression agrees is met by the same rows. -/
theorem joinConditionMatches_bind {c : JoinConstraint} {o : Nat}
    (h : PlacedAll params sub o c.exprs) (hagree : ∀ e ∈ c.exprs, ClauseAgrees params o e)
    (combined : Row) :
    joinConditionMatches state dbId combined (bindConstraint sub c o).1 params =
      joinConditionMatches state dbId combined c params := by
  match c with
  | .on e =>
    obtain ⟨hstart, hwords⟩ := hagree e List.mem_cons_self
    exact whereHolds_bindExpr state dbId ⟨h.1, hstart⟩ hwords combined
  | .using _ | .natural | .none => rfl

theorem next_bindConstraint {c : JoinConstraint} {o : Nat} (h : PlacedAll params sub o c.exprs) :
    (bindConstraint sub c o).2 = o + placeholders c.exprs := by
  match c with
  | .on e => exact h.1.next
  | .using _ | .natural | .none => rfl

/-- The ON condition agrees where there is a pair of rows to try it on. -/
def JoinAgrees (join : Join) (params : List Value) (o : Nat) (result : List Row) : Prop :=
  result ≠ [] → ∀ store, state.getTableStore dbId (parseTableFactor join.relation).1 = some store →
    store.entries ≠ [] → ∀ e ∈ join.joinOperator.exprs, ClauseAgrees params o e

theorem executeJoin_bind {join : Join} {o : Nat}
    (h : PlacedAll params sub o join.joinOperator.exprs) {result : List Row}
    (hagrees : JoinAgrees state dbId join params o result) (isFirst : Bool) (name1 : String) :
    executeJoin state dbId isFirst name1 result
        ⟨join.relation, (bindJoinOperator sub join.joinOperator o).1⟩ params =
      executeJoin state dbId isFirst name1 result join params := by
  obtain ⟨relation, op⟩ := join
  cases hstore : state.getTableStore dbId (parseTableFactor relation).1 with
  | none =>
      simp only [executeJoin, hstore]
      rfl
  | some store =>
  have hpairs : ∀ c : JoinConstraint, c.exprs = op.exprs → ∀ isFirst, ∀ row1 ∈ result,
      ∀ row2 ∈ joinedRows store,
        pairsUp state dbId isFirst name1 (refName relation) (bindConstraint sub c o).1 params row1
            row2 =
          pairsUp state dbId isFirst name1 (refName relation) c params row1 row2 := by
    intro c hexprs isFirst row1 hrow1 row2 hrow2
    have hentries : store.entries ≠ [] := by
      obtain ⟨rowid, hget⟩ := mem_joinedRows.mp hrow2
      exact List.ne_nil_of_mem ((IndexMap.mem_entries_iff_get store rowid row2).mpr hget)
    have hagree := hagrees (List.ne_nil_of_mem hrow1) store hstore hentries
    rw [← hexprs] at h hagree
    have hequi : equiColumns isFirst name1 (refName relation) (bindConstraint sub c o).1 =
        equiColumns isFirst name1 (refName relation) c := by
      rw [equiColumns, equiColumns, extractEquiJoin_bind]
    rw [pairsUp, pairsUp, hequi, joinConditionMatches_bind state dbId h hagree]
  have hpartners : ∀ c : JoinConstraint, c.exprs = op.exprs → ∀ isFirst, ∀ row1 ∈ result,
      partners state dbId isFirst name1 (refName relation) (bindConstraint sub c o).1 params
          (joinedRows store) row1 =
        partners state dbId isFirst name1 (refName relation) c params (joinedRows store) row1 :=
    fun c hexprs isFirst row1 hrow1 => congrArg _
      (List.filter_congr fun row2 hrow2 => hpairs c hexprs isFirst row1 hrow1 row2 hrow2)
  cases op with
  | crossJoin | other _ => rfl
  | inner c =>
      change executeJoin state dbId isFirst name1 result
        ⟨relation, .inner (bindConstraint sub c o).1⟩ params = _
      rw [executeJoin_inner hstore, executeJoin_inner hstore]
      exact congrArg _ (List.flatMap_congr (hpartners c rfl isFirst))
  | leftOuter c =>
      change executeJoin state dbId isFirst name1 result
        ⟨relation, .leftOuter (bindConstraint sub c o).1⟩ params = _
      rw [executeJoin_leftOuter hstore, executeJoin_leftOuter hstore]
      refine congrArg _ (List.flatMap_congr fun row1 hrow1 => ?_)
      rw [hpartners c rfl isFirst row1 hrow1]
  | rightOuter c =>
      change executeJoin state dbId isFirst name1 result
        ⟨relation, .rightOuter (bindConstraint sub c o).1⟩ params = _
      rw [executeJoin_rightOuter hstore, executeJoin_rightOuter hstore]
      refine congrArg _ (List.flatMap_congr fun row2 hrow2 => ?_)
      have hof : partnersOf state dbId name1 (refName relation) (bindConstraint sub c o).1 params
          result row2 = partnersOf state dbId name1 (refName relation) c params result row2 :=
        congrArg _ (List.filter_congr fun row1 hrow1 => hpairs c rfl false row1 hrow1 row2 hrow2)
      rw [hof]
  | fullOuter c =>
      change executeJoin state dbId isFirst name1 result
        ⟨relation, .fullOuter (bindConstraint sub c o).1⟩ params = _
      rw [executeJoin_fullOuter hstore, executeJoin_fullOuter hstore]
      refine congrArg Except.ok (congrArg₂ (· ++ ·)
        (List.flatMap_congr fun row1 hrow1 => ?_) (congrArg _ (List.filter_congr fun row2 hrow2 => ?_)))
      · rw [hpartners c rfl false row1 hrow1]
      · exact congrArg Bool.not (Bool.eq_iff_iff.mpr (by
          rw [List.any_eq_true, List.any_eq_true]
          exact exists_congr fun row1 => and_congr_right fun hrow1 => by
            rw [hpairs c rfl false row1 hrow1 row2 hrow2]))

theorem next_bindJoinOperator {op : JoinOperator} {o : Nat} (h : PlacedAll params sub o op.exprs) :
    (bindJoinOperator sub op o).2 = o + placeholders op.exprs := by
  cases op with
  | crossJoin | other _ => rfl
  | inner c | leftOuter c | rightOuter c | fullOuter c =>
      exact next_bindConstraint (c := c) h

/-- Along the chain of joins, from the `n`-th on, the ON conditions agree. -/
def JoinsAgree (name1 : String) (params : List Value) : Nat → Nat → List Join → List Row → Prop
  | _, _, [], _ => True
  | n, o, join :: joins, result => JoinAgrees state dbId join params o result ∧
    ∀ joined, executeJoin state dbId (n = 0) name1 result join params = .ok joined →
      JoinsAgree name1 params (n + 1) (o + placeholders join.joinOperator.exprs) joins joined

theorem foldlM_bindJoins {joins : List Join} {o : Nat} (h : PlacedAll params sub o (joinExprs joins))
    {name1 : String} {n : Nat} {result : List Row}
    (hagree : JoinsAgree state dbId name1 params n o joins result) :
    ((bindJoins sub joins o).1.zipIdx n).foldlM (fun result (join, joinIdx) =>
        executeJoin state dbId (joinIdx = 0) name1 result join params) result =
      (joins.zipIdx n).foldlM (fun result (join, joinIdx) =>
        executeJoin state dbId (joinIdx = 0) name1 result join params) result := by
  induction joins generalizing o n result with
  | nil => rfl
  | cons join joins ih =>
      obtain ⟨hjoin, hjoins⟩ := placedAll_append.mp h
      have hnext := next_bindJoinOperator hjoin
      rw [← hnext] at hjoins
      have hfirst := executeJoin_bind state dbId hjoin hagree.1 (n = 0) name1
      change ((⟨join.relation, (bindJoinOperator sub join.joinOperator o).1⟩ ::
        (bindJoins sub joins (bindJoinOperator sub join.joinOperator o).2).1).zipIdx n).foldlM _ _ = _
      rw [List.zipIdx_cons, List.zipIdx_cons, List.foldlM_cons, List.foldlM_cons]
      simp only [hfirst]
      cases hrun : executeJoin state dbId (n = 0) name1 result join params with
      | error e => rfl
      | ok joined =>
          have hrest := hagree.2 joined hrun
          change JoinsAgree state dbId name1 params (n + 1)
            (o + placeholders join.joinOperator.exprs) joins joined at hrest
          rw [← hnext] at hrest
          exact ih hjoins hrest

theorem next_bindJoins {joins : List Join} {o : Nat} (h : PlacedAll params sub o (joinExprs joins)) :
    (bindJoins sub joins o).2 = o + placeholders (joinExprs joins) := by
  induction joins generalizing o with
  | nil => rfl
  | cons join joins ih =>
      obtain ⟨hjoin, hjoins⟩ := placedAll_append.mp h
      have hnext := next_bindJoinOperator hjoin
      rw [← hnext] at hjoins
      change (bindJoins sub joins (bindJoinOperator sub join.joinOperator o).2).2 = _
      rw [ih hjoins, hnext, Nat.add_assoc, ← placeholders_append]
      rfl

theorem next_bindFrom {from_ : List TableWithJoins} {o : Nat}
    (h : PlacedAll params sub o (from_.flatMap fun t => joinExprs t.joins)) :
    (bindFrom sub from_ o).2 = o + placeholders (from_.flatMap fun t => joinExprs t.joins) := by
  induction from_ generalizing o with
  | nil => rfl
  | cons t from_ ih =>
      obtain ⟨hjoins, hrest⟩ := placedAll_append.mp h
      have hnext := next_bindJoins hjoins
      rw [← hnext] at hrest
      change (bindFrom sub from_ (bindJoins sub t.joins o).2).2 = _
      rw [ih hrest, hnext, Nat.add_assoc, ← placeholders_append, List.flatMap_cons]

/-- The ON conditions agree along the chain that starts with the first table. -/
def FromAgrees (params : List Value) (o : Nat) (from_ : List TableWithJoins) : Prop :=
  ∀ first rest store, from_ = first :: rest →
    state.getTableStore dbId (parseTableFactor first.relation).1 = some store →
      JoinsAgree state dbId (refName first.relation) params 0 o first.joins
        (startRows (refName first.relation) store)

theorem executeJoins_bind {from_ : List TableWithJoins} {o : Nat}
    (h : PlacedAll params sub o (from_.flatMap fun t => joinExprs t.joins))
    (hagree : FromAgrees state dbId params o from_) :
    executeJoins state dbId (bindFrom sub from_ o).1 params = executeJoins state dbId from_ params := by
  cases from_ with
  | nil => rfl
  | cons first rest =>
      change executeJoins state dbId (⟨first.relation, (bindJoins sub first.joins o).1⟩ ::
        (bindFrom sub rest (bindJoins sub first.joins o).2).1) params = _
      cases hstore : state.getTableStore dbId (parseTableFactor first.relation).1 with
      | none =>
          simp only [executeJoins, hstore]
          rfl
      | some store =>
          rw [executeJoins_cons _ hstore, executeJoins_cons _ hstore]
          exact foldlM_bindJoins state dbId (placedAll_append.mp h).1
            (hagree first rest store rfl hstore)

end Joins

/-! ### The statement -/

section Statement

variable {state : KvsState} {dbId : UInt32} {fuel : Nat} {params : List Value}
  {sub : Nat → SqlValue} {query : Query} {select : Select}

/-- What a SELECT gets to finds its parameters at the start of the list: the items where a row is
projected, an ON condition where there is a pair of rows, WHERE where there is a row to test, and a
comparison that an index answers. -/
structure SelectBinds (state : KvsState) (dbId : UInt32) (fuel : Nat) (params : List Value)
    (query : Query) (select : Select) : Prop where
  items : isGrouped select.groupBy = false →
    (∃ rows, fromRows state dbId params fuel select = .ok rows ∧
      finishSelect state dbId query select params rows ≠ []) → StartsAgree params 0 select.itemExprs
  ons : FromAgrees state dbId params (placeholders select.itemExprs) select.from_
  where_ : ∀ e, select.selection = some e →
    (∃ rows, fromRows state dbId params fuel select = .ok rows ∧ rows ≠ []) →
      ClauseAgrees params (placeholders (select.itemExprs ++ select.onExprs)) e
  lookup : ∀ relation e, select.from_ = [⟨relation, []⟩] →
    state.getViewDefinition dbId (parseTableFactor relation).1 = none → select.selection = some e →
      LookupAgrees state dbId (parseTableFactor relation).1 params (placeholders select.itemExprs) e

omit [Externals] in
theorem placedAll_of_shape {es : List Expr} {o : Nat}
    (hshape : ∀ e ∈ es, e.builtFrom BinaryOperator.isStrict fun _ => true)
    (hsub : Literals params sub o (placeholders es)) : PlacedAll params sub o es := by
  induction es generalizing o with
  | nil => trivial
  | cons e es ih =>
      rw [placeholders, List.map_cons, List.sum_cons] at hsub
      obtain ⟨hfirst, hrest⟩ := hsub.split
      exact ⟨⟨hshape e List.mem_cons_self, hfirst⟩,
        ih (fun e he => hshape e (List.mem_cons_of_mem _ he)) hrest⟩

/-- The parts of a SELECT that hold expressions, bound where they stand. -/
structure SelectParts (params : List Value) (sub : Nat → SqlValue) (select bound : Select) :
    Prop where
  items : List.Forall₂ SelectItem.Same bound.projection select.projection
  projects : StartsAgree params 0 select.itemExprs →
    List.Forall₂ (SelectItem.ProjectsAlike params) bound.projection select.projection
  from_ : bound.from_ = (bindFrom sub select.from_ (placeholders select.itemExprs)).1
  ons : PlacedAll params sub (placeholders select.itemExprs) select.onExprs
  selection : bound.selection =
    (bindOption sub select.selection (placeholders (select.itemExprs ++ select.onExprs))).1
  where_ : PlacedAll params sub (placeholders (select.itemExprs ++ select.onExprs))
    select.selection.toList
  distinct : bound.distinct = select.distinct
  groupBy : bound.groupBy = select.groupBy

theorem bindSelect_parts (h : PlacedAll params sub 0 select.exprs) :
    SelectParts params sub select (bindSelect sub select 0).1 := by
  obtain ⟨hfront, hwhere⟩ := placedAll_append.mp h
  obtain ⟨hitems, hons⟩ := placedAll_append.mp hfront
  obtain ⟨hnext, hsame, hprojects⟩ := bindItems_same hitems
  rw [Nat.zero_add] at hwhere hons hnext
  have hnext' := next_bindFrom hons
  rw [← placeholders_append, ← Select.onExprs] at hnext'
  refine ⟨hsame, hprojects, ?_, hons, ?_, hwhere, rfl, rfl⟩
  · rw [Select.itemExprs, ← hnext]
    rfl
  · rw [← hnext', Select.itemExprs, ← hnext]
    rfl

variable {bound : Select} (h : SelectParts params sub select bound)
include h

theorem SelectParts.fromRows_eq (hbinds : SelectBinds state dbId fuel params query select) :
    fromRows state dbId params fuel bound = fromRows state dbId params fuel select := by
  have hfrom := h.from_
  have hjoins : executeJoins state dbId bound.from_ params =
      executeJoins state dbId select.from_ params := by
    rw [hfrom]
    exact executeJoins_bind state dbId h.ons hbinds.ons
  unfold fromRows
  match hcase : select.from_ with
  | [] =>
      rw [hcase] at hfrom
      rw [hfrom]
      rfl
  | [⟨relation, []⟩] =>
      rw [hcase] at hfrom
      rw [show bound.from_ = [⟨relation, []⟩] from hfrom]
      simp only
      cases hview : state.getViewDefinition dbId (parseTableFactor relation).1 with
      | some viewSql => rfl
      | none =>
          have hplaced := h.where_
          have hselection := h.selection
          have hons : select.onExprs = [] := by
            rw [Select.onExprs, hcase]
            rfl
          rw [hons, List.append_nil] at hselection hplaced
          cases hwhere : select.selection with
          | none =>
              rw [hwhere] at hselection
              rw [hselection]
              rfl
          | some e =>
              rw [hwhere] at hselection hplaced
              rw [hselection]
              exact rowsForSimpleWhere_bindExpr hplaced.1
                (hbinds.lookup relation e hcase hview hwhere)
  | ⟨relation, join :: joins⟩ :: rest =>
      rw [hcase] at hfrom hjoins
      rw [hfrom] at hjoins ⊢
      exact hjoins
  | ⟨relation, []⟩ :: next :: rest =>
      rw [hcase] at hfrom hjoins
      rw [hfrom] at hjoins ⊢
      exact hjoins

theorem SelectParts.finishSelect_eq {query' : Query} {rows : List Row}
    (hwhere : ∀ e, select.selection = some e → rows ≠ [] →
      ClauseAgrees params (placeholders (select.itemExprs ++ select.onExprs)) e)
    (hitems : isGrouped select.groupBy = false →
      finishSelect state dbId query select params rows ≠ [] → StartsAgree params 0 select.itemExprs)
    (horder : query'.orderBy = query.orderBy) (hlimit : query'.limit = query.limit)
    (hoffset : query'.offset = query.offset) :
    finishSelect state dbId query' bound params rows =
      finishSelect state dbId query select params rows := by
  have hfiltered : whereRows state dbId params bound.selection rows =
      whereRows state dbId params select.selection rows := by
    have hselection := h.selection
    have hplaced := h.where_
    cases hcase : select.selection with
    | none =>
        rw [hcase] at hselection
        rw [hselection]
        rfl
    | some e =>
        rw [hcase] at hselection hplaced
        rw [hselection]
        refine List.filter_congr fun row hrow => ?_
        obtain ⟨hstart, hwords⟩ := hwhere e hcase (List.ne_nil_of_mem hrow)
        exact whereHolds_bindExpr state dbId ⟨hplaced.1, hstart⟩ hwords row
  have hordered : ∀ rows, orderedRows query' rows = orderedRows query rows := fun rows => by
    simp only [orderedRows, horder, hlimit, hoffset]
  rw [Skvs.finishSelect_eq] at hitems ⊢
  rw [Skvs.finishSelect_eq]
  simp only [hfiltered, hordered, h.groupBy, applyGroupBy_same h.items] at hitems ⊢
  cases hgrouped : isGrouped select.groupBy with
  | true => rfl
  | false =>
      simp only [hgrouped, Bool.false_eq_true, if_false] at hitems ⊢
      refine applyProjection_same h.items fun hrows => h.projects (hitems trivial fun hnil => hrows ?_)
      rw [applyProjection] at hnil
      split_ifs at hnil
      · exact hnil
      · exact List.map_eq_nil_iff.mp hnil

omit h in
/-- Where what the query gets to finds the same parameters at the start of the list as at its own
place, the query gives the result of the query with literals in place of its placeholders. -/
theorem select_binds_of_starts (hbody : query.body = .select select)
    (hshape : ∀ e ∈ select.exprs, e.builtFrom BinaryOperator.isStrict fun _ => true)
    (hbinds : SelectBinds state dbId fuel params query select)
    (hsub : Literals params sub 0 (placeholders select.exprs)) :
    executeSelect state dbId (fuel + 1) (bindQuery sub query) params =
      executeSelect state dbId (fuel + 1) query params := by
  have hparts := bindSelect_parts (placedAll_of_shape hshape hsub)
  have hbody' : (bindQuery sub query).body = .select (bindSelect sub select 0).1 := by
    rw [bindQuery, hbody]
  obtain ⟨horder, hlimit, hoffset⟩ : (bindQuery sub query).orderBy = query.orderBy ∧
      (bindQuery sub query).limit = query.limit ∧ (bindQuery sub query).offset = query.offset := by
    rw [bindQuery, hbody]
    exact ⟨rfl, rfl, rfl⟩
  have hwildcard : wildcardSchema state dbId (bindSelect sub select 0).1 =
      wildcardSchema state dbId select := by
    rw [wildcardSchema, wildcardSchema, hparts.from_]
    rcases select.from_ with _ | ⟨⟨relation, _ | ⟨join, joins⟩⟩, _ | ⟨next, rest⟩⟩ <;> rfl
  have hcolumns : ∀ schema rows, selectColumns (bindSelect sub select 0).1 schema rows =
      selectColumns select schema rows := by
    intro schema rows
    simp only [selectColumns, columns_same hparts.items]
  rw [executeSelect_succ hbody, executeSelect_succ hbody', finishedRows_eq, finishedRows_eq,
    hparts.fromRows_eq hbinds, hwildcard, hparts.distinct]
  cases hrows : fromRows state dbId params fuel select with
  | error e => rfl
  | ok rows =>
      have hfinish := hparts.finishSelect_eq (fun e he hne => hbinds.where_ e he ⟨rows, hrows, hne⟩)
        (fun hgrouped hne => hbinds.items hgrouped ⟨rows, hrows, hne⟩) horder hlimit hoffset
      simp only [Except.map, hfinish, hcolumns]

end Statement

namespace Sample

/-- `SELECT ? AS x FROM t WHERE a = ?`. -/
def twoClauses : Select where
  distinct := false
  projection := [.exprWithAlias questionMark (column "x")]
  from_ := [⟨.table "t" none, []⟩]
  selection := some (.binaryOp (.identifier (column "a")) .eq questionMark)
  groupBy := .expressions []

end Sample

omit [Externals] in
/-- `SELECT ? AS x FROM t WHERE a = ?` with 7 and 1 compares `a` with 7 and finds no row, while
`SELECT 7 AS x FROM t WHERE a = 1` finds one. -/
theorem where_reads_projection_parameter :
    letI := Externals.ofTexts [] []
    let query := Sample.selectQuery Sample.twoClauses
    let params := [Value.integer 7, .integer 1]
    let sub := numberLiterals ["7", "1"]
    let rows := fun query =>
      (executeSelect Sample.oneRow 0 1 query params).toOption.map QueryResult.rows
    Literals params sub 0 (placeholders Sample.twoClauses.exprs) ∧ rows query = some [] ∧
      rows (bindQuery sub query) = some [IndexMap.insert ∅ "x" (.integer 7)] := by
  let _ := Externals.ofTexts [] []
  intro query params sub rows
  have hparams : params = ["7", "1"].map parseNumber := by decide
  refine ⟨?_, by decide⟩
  rw [hparams]
  exact literals_numbers ["7", "1"]

omit [Externals] in
/-- `SELECT ? AS x FROM t WHERE a = ?` with 1 for both placeholders. -/
theorem two_clauses_bind_alike :
    letI := Externals.ofTexts [] []
    let query := Sample.selectQuery Sample.twoClauses
    executeSelect Sample.oneRow 0 1 (bindQuery (numberLiterals ["1", "1"]) query)
        (["1", "1"].map parseNumber) =
      executeSelect Sample.oneRow 0 1 query (["1", "1"].map parseNumber) := by
  let _ := Externals.ofTexts [] []
  intro query
  have hwhere : SameParams (["1", "1"].map parseNumber) 0 1 1 := fun k hk => by
    obtain rfl := Nat.lt_one_iff.mp hk
    rfl
  have hbinds : SelectBinds Sample.oneRow 0 0 (["1", "1"].map parseNumber) query
      Sample.twoClauses :=
    { items := fun _ _ => ⟨fun _ _ => rfl, trivial⟩
      ons := fun first rest store hfrom _ => by
        obtain ⟨rfl, -⟩ := List.cons.inj hfrom
        trivial
      where_ := fun e he _ => by
        obtain rfl := Option.some.inj he
        exact ⟨hwhere, rfl⟩
      lookup := fun relation e hfrom _ he => by
        obtain rfl := Option.some.inj he
        intro col _ _
        exact ⟨hwhere, fun inner low high hbetween => by cases hbetween⟩ }
  exact select_binds_of_starts rfl (by decide) hbinds (literals_numbers ["1", "1"])

end Skvs
