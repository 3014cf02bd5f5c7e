import Skvs.Lib.Alike
import Skvs.Proof.Constraints
import Skvs.Proof.RenamedRow
import Skvs.Proof.Statement

/-!
# The checks of a table with a column renamed

Where no rule mentions the column, the renamed row passes the checks of the renamed table exactly if
the row passes those of the table.
-/

namespace Skvs

/-! ### Tables and states -/

abbrev StoreRenamed (ρ : ColumnRenaming) (x : String) : Store → Store → Prop :=
  IndexMap.Alike (RowRenamed ρ x)

/-- The column stands in its place under its new name; the rest of the schema does not change. -/
structure SchemaRenamed (ρ : ColumnRenaming) (x : String) (schema schema' : TableSchema) : Prop where
  columns : List.Forall₂ (fun e e' => ρ.Known x e.1 ∧ e'.1 = ρ.name x e.1 ∧
    e'.2 = { e.2 with name := e'.2.name }) schema.columns.entries schema'.columns.entries
  name : schema'.name = schema.name
  indices : schema'.indices = schema.indices
  uniqueGroups : schema'.uniqueGroups = schema.uniqueGroups
  foreignKeys : schema'.foreignKeys = schema.foreignKeys
  tableChecks : schema'.tableChecks = schema.tableChecks

theorem SchemaRenamed.of_ne {ρ : ColumnRenaming} {x : String} (hx : x ≠ ρ.table)
    {schema : TableSchema} : SchemaRenamed ρ x schema schema where
  columns := List.forall₂_same.mpr fun _ _ =>
    ⟨fun heq => absurd heq hx, (ColumnRenaming.name_of_ne fun heq => absurd heq hx).symm, rfl⟩
  name := rfl
  indices := rfl
  uniqueGroups := rfl
  foreignKeys := rfl
  tableChecks := rfl

section

variable [Externals]

/-- The expression that a CHECK text is read back as. -/
def checkedExpr (checkSql : String) : Option Expr :=
  match parseSql s!"SELECT {checkSql}" with
  | .error _ => none
  | .ok stmts =>
    match stmts.head? with
    | some (.query q) =>
      match q.body with
      | .select sel =>
        match sel.projection.head? with
        | some (.unnamedExpr e) => some e
        | _ => none
      | _ => none
    | _ => none

theorem evalCheck_eq (row : Row) (checkSql : String) :
    evalCheck row checkSql =
      (checkedExpr checkSql).elim true fun e => truthy (evalFrom (.withRow row) [] e 0) := by
  rw [evalCheck, checkedExpr]
  cases parseSql s!"SELECT {checkSql}" with
  | error => rfl
  | ok stmts =>
      match stmts with
      | [] => rfl
      | .query ⟨.select ⟨_, [], _, _, _⟩, _, _, _⟩ :: _ => rfl
      | .query ⟨.select ⟨_, item :: _, _, _, _⟩, _, _, _⟩ :: _ => cases item <;> rfl
      | .query ⟨.values _, _, _, _⟩ :: _ | .query ⟨.other, _, _, _⟩ :: _ => rfl
      | .insert .. :: _ | .update .. :: _ | .delete .. :: _ | .createTable .. :: _
      | .alterTable .. :: _ | .createIndex .. :: _ | .createView .. :: _
      | .createVirtualTable .. :: _ | .drop .. :: _ | .startTransaction :: _ | .commit :: _
      | .rollback :: _ | .other _ :: _ => rfl

/-- The names in a CHECK avoid the old and the new one. -/
def ColumnRenaming.Unchecked (ρ : ColumnRenaming) (checkSql : String) : Prop :=
  ∀ e, checkedExpr checkSql = some e → ∀ r ∈ e.references, ρ.Avoids r

/-- No rule is bound to the name of the column: no PRIMARY KEY of the table, no FOREIGN KEY that can be
looked up, no CHECK, no index and no full-text index. A UNIQUE of several columns may name it, as each
of them is unique by itself as well. -/
structure Unbound (ρ : ColumnRenaming) (dbId : UInt32) (s : KvsState) : Prop where
  groups : ∀ schema, s.getSchema dbId ρ.table = some schema → ∀ group ∈ schema.uniqueGroups,
    ρ.new.value ∉ group.columns ∧ (ρ.old.value ∈ group.columns → group.isPrimary = false ∧
      ∃ colDef, schema.columns.get ρ.old.value = some colDef ∧
        (colDef.unique || colDef.primaryKey) = true)
  foreignKeys : ∀ schema, s.getSchema dbId ρ.table = some schema → ∀ fk ∈ schema.foreignKeys,
    fk.column ≠ ρ.old.value ∧ fk.column ≠ ρ.new.value ∨ s.hasStore dbId fk.refTable = false
  references : ∀ x schema, s.getSchema dbId x = some schema → ∀ fk ∈ schema.foreignKeys,
    fk.refTable = ρ.table → fk.refColumn ≠ ρ.old.value ∧ fk.refColumn ≠ ρ.new.value
  columnChecks : ∀ schema, s.getSchema dbId ρ.table = some schema → ∀ e ∈ schema.columns.entries,
    ∀ checkSql, e.2.checkExpr = some checkSql → ρ.Unchecked checkSql
  tableChecks : ∀ schema, s.getSchema dbId ρ.table = some schema → ∀ checkSql ∈ schema.tableChecks,
    ρ.Unchecked checkSql
  indices : ∀ schema, s.getSchema dbId ρ.table = some schema → ∀ idx ∈ schema.indices,
    idx.columns.head? ≠ some ρ.old.value ∧ idx.columns.head? ≠ some ρ.new.value
  fullText : ∀ fts, s.getFtsTable dbId ρ.table = some fts →
    fts.contentColumn ≠ ρ.old.value ∧ fts.contentColumn ≠ ρ.new.value
  /-- UNIQUE looks at the table of the name that the schema carries. -/
  names : ∀ x schema, s.getSchema dbId x = some schema → schema.name = x ∨
    s.hasStore dbId schema.name = false ∨ (x ≠ ρ.table ∧ schema.name ≠ ρ.table)

/-- `s'` is `s` with the column renamed in the database `dbId`. -/
structure Renamed (ρ : ColumnRenaming) (dbId : UInt32) (s s' : KvsState) : Prop where
  stores : ∀ x, Option.Rel (StoreRenamed ρ x) (s.getTableStore dbId x) (s'.getTableStore dbId x)
  schemas : ∀ x, Option.Rel (SchemaRenamed ρ x) (s.getSchema dbId x) (s'.getSchema dbId x)
  counters : ∀ x, s'.rowidCounter dbId x = s.rowidCounter dbId x
  indexes : ∀ x n, s'.indexStore dbId x n = s.indexStore dbId x n
  ftsTables : s'.ftsTables = s.ftsTables
  nextId : s'.txns.nextId = s.txns.nextId
  triggers : s'.triggers = s.triggers
  unbound : Unbound ρ dbId s

end

/-! ### Constraints -/

theorem Except.forM_ok_iff_of_forall₂ {ε α β : Type} {P : α → β → Prop} {f : α → Except ε Unit}
    {g : β → Except ε Unit} {l : List α} {l' : List β}
    (hfg : ∀ a ∈ l, ∀ b, P a b → (g b = .ok () ↔ f a = .ok ())) (h : List.Forall₂ P l l') :
    l'.forM g = .ok () ↔ l.forM f = .ok () := by
  rw [Except.forM_eq_ok_iff, Except.forM_eq_ok_iff]
  induction h with
  | nil => simp
  | cons hhead _ ih =>
      rw [List.forall_mem_cons, List.forall_mem_cons, hfg _ List.mem_cons_self _ hhead,
        ih fun a ha => hfg a (List.mem_cons_of_mem _ ha)]

section Checks

variable [Externals] {ρ : ColumnRenaming} {dbId : UInt32} {s s' : KvsState} {x : String}
  {schema schema' : TableSchema} {row row' : Row}

theorem evalCheck_renamed (hrow : RowRenamed ρ x row row') {checkSql : String}
    (hcheck : x = ρ.table → ρ.Unchecked checkSql) :
    evalCheck row' checkSql = evalCheck row checkSql := by
  rw [evalCheck_eq, evalCheck_eq]
  cases he : checkedExpr checkSql with
  | none => rfl
  | some e =>
      have hlookups : SameLookups id (.withRow row) (.withRow row') e.references := fun r hr =>
        hrow.lookup_of_avoids fun hx => hcheck hx e he r hr
      have heval := eval_rename [] e hlookups
      rw [Expr.rename_id] at heval
      rw [Option.elim_some, Option.elim_some, evalFrom, evalFrom, heval]

omit [Externals] in
/-- A row of one table that is not renamed is a row of another. -/
theorem RowRenamed.transfer {y : String} (h : RowRenamed ρ y row row')
    (hxy : y = x ∨ x ≠ ρ.table ∧ y ≠ ρ.table) : RowRenamed ρ x row row' := by
  rcases hxy with rfl | ⟨hx, hy⟩
  · exact h
  · refine ⟨fun c _ => ?_, fun heq => absurd heq hx⟩
    rw [ColumnRenaming.name_of_ne fun heq => absurd heq hx]
    exact h.get_of_ne (fun heq => absurd heq hy) fun heq => absurd heq hy

omit [Externals] in
theorem RowRenamed.holds_all (h : RowRenamed ρ x row row') {columns : List String}
    (hcolumns : ∀ c ∈ columns, ρ.Known x c) (values : List Value) :
    (((columns.map (ρ.name x)).zip values).all fun cv => Row.holds row' cv.1 cv.2) =
      (columns.zip values).all fun cv => Row.holds row cv.1 cv.2 := by
  induction columns generalizing values with
  | nil => rfl
  | cons c columns ih =>
      cases values with
      | nil => rfl
      | cons v values =>
          rw [List.map_cons, List.zip_cons_cons, List.zip_cons_cons, List.all_cons, List.all_cons,
            h.holds_eq (hcolumns c List.mem_cons_self),
            ih fun c' hc' => hcolumns c' (List.mem_cons_of_mem c hc')]

omit [Externals] in
/-- The index on a column is the index on it under its new name: there is none on either. -/
theorem findIndex_renamed (hindices : schema'.indices = schema.indices)
    (hunused : x = ρ.table → ∀ idx ∈ schema.indices,
      idx.columns.head? ≠ some ρ.old.value ∧ idx.columns.head? ≠ some ρ.new.value) (c : String) :
    findIndex schema' (ρ.name x c) = findIndex schema c := by
  rw [findIndex, findIndex, hindices]
  by_cases hc : x = ρ.table ∧ c = ρ.old.value
  · have hnone : ∀ c', c' = ρ.old.value ∨ c' = ρ.new.value →
        (schema.indices.find? fun i => i.columns = [c']) = none := by
      intro c' hc'
      rw [List.find?_eq_none]
      intro idx hidx heq
      have hhead : idx.columns.head? = some c' := by rw [of_decide_eq_true heq]; rfl
      rcases hc' with rfl | rfl
      · exact (hunused hc.1 idx hidx).1 hhead
      · exact (hunused hc.1 idx hidx).2 hhead
    rw [ColumnRenaming.name, if_pos hc, hnone _ (Or.inr rfl), hnone c (Or.inl hc.2)]
  · rw [ColumnRenaming.name, if_neg hc]

omit [Externals] in
/-- A combination of values that is there already has each of its values there already. -/
theorem valueExistsElsewhere_of_group {c : String} {columns : List String} {f : String → Value}
    {rowid : RowId} (hindex : findIndex schema c = none) (hc : c ∈ columns)
    (h : valueExistsElsewhere s dbId schema columns (columns.map f) rowid = true) :
    valueExistsElsewhere s dbId schema [c] [f c] rowid = true := by
  cases hstore : s.getTableStore dbId schema.name with
  | none =>
      rw [valueExistsElsewhere_none hstore] at h
      cases h
  | some store =>
      have hcolumns : ∀ col, columns = [col] → findIndex schema col = none := by
        rintro col rfl
        exact List.mem_singleton.mp hc ▸ hindex
      obtain ⟨entry, hentry, hne, hall⟩ := (valueExistsElsewhere_scan hstore hcolumns).mp h
      refine (valueExistsElsewhere_scan hstore fun col hcol =>
        List.head_eq_of_cons_eq hcol ▸ hindex).mpr ⟨entry, hentry, hne, ?_⟩
      rw [List.zip_cons_cons, List.zip_nil_left, List.forall_mem_singleton]
      refine hall (c, f c) ?_
      rw [← List.map_prod_left_eq_zip]
      exact List.mem_map_of_mem hc

section Validate

variable (h : Renamed ρ dbId s s') (hschema : s.getSchema dbId x = some schema)
  (hren : SchemaRenamed ρ x schema schema')
include h hschema hren

theorem valueExistsElsewhere_renamed {columns : List String}
    (hcolumns : ∀ c ∈ columns, ρ.Known x c) (values : List Value) (rowid : RowId) :
    valueExistsElsewhere s' dbId schema' (columns.map (ρ.name x)) values rowid =
      valueExistsElsewhere s dbId schema columns values rowid := by
  have hindex : ∀ c, findIndex schema' (ρ.name x c) = findIndex schema c :=
    findIndex_renamed hren.indices fun hx => h.unbound.indices schema (hx ▸ hschema)
  have hstores := h.stores schema.name
  have hstore : ∀ store, s.getTableStore dbId schema.name = some store →
      schema.name = x ∨ x ≠ ρ.table ∧ schema.name ≠ ρ.table := by
    intro store hstore
    rcases h.unbound.names x schema hschema with hname | hnone | hother
    · exact Or.inl hname
    · rw [KvsState.hasStore, hstore] at hnone
      cases hnone
    · exact Or.inr hother
  rw [valueExistsElsewhere, valueExistsElsewhere, hren.name]
  generalize s'.getTableStore dbId schema.name = st' at hstores ⊢
  cases hst : s.getTableStore dbId schema.name with
  | none =>
      rw [hst] at hstores
      cases hstores
      rfl
  | some store =>
      rw [hst] at hstores
      cases hstores with
      | some hsame =>
          have hscan := hsame.any_eq
            (p := fun k row => k ≠ rowid && (columns.zip values).all fun cv =>
              Row.holds row cv.1 cv.2)
            (q := fun k row => k ≠ rowid && ((columns.map (ρ.name x)).zip values).all fun cv =>
              Row.holds row cv.1 cv.2)
            fun k row row' hrow => by
              rw [(hrow.transfer (hstore store hst)).holds_all hcolumns]
          rcases columns with _ | ⟨col, _ | ⟨_, _⟩⟩
          · exact hscan
          · cases values with
            | nil => exact hscan
            | cons v vs =>
                simp only [List.map_cons, List.map_nil, hindex]
                cases findIndex schema col with
                | none => exact hscan
                | some idx => simp only [lookupIndex, h.indexes]
          · exact hscan

variable (hrow : RowRenamed ρ x row row')
include hrow

omit [Externals] h hschema in
theorem checkNotNulls_renamed :
    checkNotNulls schema' row' = .ok () ↔ checkNotNulls schema row = .ok () := by
  refine Except.forM_ok_iff_of_forall₂ (fun e _ e' he => ?_) hren.columns
  obtain ⟨hknown, hname, hdef⟩ := he
  simp only [checkNotNull, hname, hrow.get e.1 hknown]
  rw [hdef]
  simp only
  split_ifs <;> simp

omit hren in
/-- A group that names the column has nothing to say: the renamed row has a NULL there, and the row
has passed the check of the column. -/
theorem checkUniqueGroup_of_old {rowid : RowId} (hx : x = ρ.table) {group : UniqueGroup}
    (hgroup : group ∈ schema.uniqueGroups) (hold : ρ.old.value ∈ group.columns)
    (hcolumns : ∀ e ∈ schema.columns.entries,
      checkColumnUnique s dbId schema row rowid e.1 e.2 = .ok ()) :
    checkUniqueGroup s' dbId schema' row' rowid group = .ok () ∧
      checkUniqueGroup s dbId schema row rowid group = .ok () := by
  obtain ⟨hprimary, colDef, hget, hflag⟩ :=
    (h.unbound.groups schema (hx ▸ hschema) group hgroup).2 hold
  rw [checkUniqueGroup_ok_iff, checkUniqueGroup_ok_iff, hprimary]
  have hnull : (groupValues group row').any Value.isNull = true :=
    List.any_eq_true.mpr ⟨_, List.mem_map_of_mem hold, by rw [hrow.old hx]; rfl⟩
  refine ⟨⟨nofun, fun hnonnull => ?_⟩, ⟨nofun, fun hnonnull => ?_⟩⟩
  · rw [hnull] at hnonnull
    exact nomatch hnonnull
  · rw [Bool.eq_false_iff]
    intro hexists
    have hcheck := hcolumns _ ((IndexMap.mem_entries_iff_get ..).mpr hget)
    rw [checkColumnUnique_ok_iff] at hcheck
    have hval := List.any_eq_false.mp hnonnull _ (List.mem_map_of_mem hold)
    have hindex : findIndex schema ρ.old.value = none := by
      rw [findIndex, List.find?_eq_none]
      intro idx hidx heq
      exact (h.unbound.indices schema (hx ▸ hschema) idx hidx).1 (by rw [of_decide_eq_true heq]; rfl)
    have hcolumn := valueExistsElsewhere_of_group hindex hold hexists
    cases hgetRow : row.get ρ.old.value with
    | none =>
        rw [hgetRow] at hval
        exact hval rfl
    | some val =>
        rw [hgetRow, Option.getD_some] at hcolumn hval
        rw [hcheck hflag val hgetRow (Bool.eq_false_iff.mpr hval)] at hcolumn
        exact nomatch hcolumn

theorem checkUniqueness_renamed (rowid : RowId) :
    checkUniqueness s' dbId schema' row' rowid = .ok () ↔
      checkUniqueness s dbId schema row rowid = .ok () := by
  rw [checkUniqueness, checkUniqueness, Except.bind_eq_ok_iff, Except.bind_eq_ok_iff,
    hren.uniqueGroups]
  have hcolumns : (schema'.columns.entries.forM fun e =>
        checkColumnUnique s' dbId schema' row' rowid e.1 e.2) = .ok () ↔
      (schema.columns.entries.forM fun e =>
        checkColumnUnique s dbId schema row rowid e.1 e.2) = .ok () := by
    refine Except.forM_ok_iff_of_forall₂ (fun e _ e' he => ?_) hren.columns
    obtain ⟨hknown, hname, hdef⟩ := he
    have hexists : ∀ val, valueExistsElsewhere s' dbId schema' [ρ.name x e.1] [val] rowid =
        valueExistsElsewhere s dbId schema [e.1] [val] rowid := fun val =>
      valueExistsElsewhere_renamed h hschema hren (List.forall_mem_singleton.mpr hknown) [val] rowid
    rw [checkColumnUnique_ok_iff, checkColumnUnique_ok_iff, hname, hrow.get e.1 hknown, hdef]
    simp only [hexists]
  rw [hcolumns]
  refine and_congr_right fun hpassed => ?_
  rw [Except.forM_eq_ok_iff] at hpassed
  rw [Except.forM_eq_ok_iff, Except.forM_eq_ok_iff]
  refine forall₂_congr fun group hgroup => ?_
  by_cases hold : x = ρ.table ∧ ρ.old.value ∈ group.columns
  · obtain ⟨hok', hok⟩ := checkUniqueGroup_of_old h hschema hrow hold.1 hgroup hold.2 hpassed
    exact ⟨fun _ => hok, fun _ => hok'⟩
  · have hunused : x = ρ.table → ∀ c ∈ group.columns, c ≠ ρ.old.value ∧ c ≠ ρ.new.value := by
      intro hx c hc
      exact ⟨fun heq => hold ⟨hx, heq ▸ hc⟩, fun heq =>
        (h.unbound.groups schema (hx ▸ hschema) group hgroup).1 (heq ▸ hc)⟩
    have hvalues : groupValues group row' = groupValues group row := by
      refine List.map_congr_left fun c hc => ?_
      rw [hrow.get_of_ne (fun hx => (hunused hx c hc).1) fun hx => (hunused hx c hc).2]
    have hnames : group.columns.map (ρ.name x) = group.columns := by
      refine (List.map_congr_left fun c hc => ?_).trans (List.map_id _)
      exact ColumnRenaming.name_of_ne fun hx => (hunused hx c hc).1
    have hexists := valueExistsElsewhere_renamed h hschema hren
      (fun c hc hx => (hunused hx c hc).2) (groupValues group row) rowid
    rw [hnames] at hexists
    rw [checkUniqueGroup_ok_iff, checkUniqueGroup_ok_iff, hvalues, hexists]

theorem checkForeignKeys_renamed :
    checkForeignKeys s' dbId schema' row' = .ok () ↔
      checkForeignKeys s dbId schema row = .ok () := by
  rw [checkForeignKeys, checkForeignKeys, hren.foreignKeys, Except.forM_eq_ok_iff,
    Except.forM_eq_ok_iff]
  refine forall₂_congr fun fk hfk => ?_
  have hcolumn : x = ρ.table → fk.column ≠ ρ.old.value ∧ fk.column ≠ ρ.new.value ∨
      s.hasStore dbId fk.refTable = false := fun hx =>
    h.unbound.foreignKeys schema (hx ▸ hschema) fk hfk
  have href := h.unbound.references x schema hschema fk hfk
  have hstores := h.stores fk.refTable
  rw [checkForeignKey_ok_iff, checkForeignKey_ok_iff]
  rw [KvsState.hasStore] at hcolumn
  generalize s'.getTableStore dbId fk.refTable = st' at hstores ⊢
  cases hst : s.getTableStore dbId fk.refTable with
  | none =>
      rw [hst] at hstores
      cases hstores
      simp
  | some store =>
      rw [hst] at hstores hcolumn
      have hkept : x = ρ.table → fk.column ≠ ρ.old.value ∧ fk.column ≠ ρ.new.value := fun hx =>
        (hcolumn hx).resolve_right (by simp)
      rw [hrow.get_of_ne (fun hx => (hkept hx).1) fun hx => (hkept hx).2]
      cases hstores with
      | @some _ store' hsame =>
          have hfound : ∀ val, (∃ entry ∈ store'.entries, Row.holds entry.2 fk.refColumn val = true) ↔
              ∃ entry ∈ store.entries, Row.holds entry.2 fk.refColumn val = true := by
            intro val
            rw [← List.any_eq_true, ← List.any_eq_true, hsame.any_eq
              (p := fun _ row => Row.holds row fk.refColumn val)
              (q := fun _ row => Row.holds row fk.refColumn val) fun _ row row' hrow => ?_]
            rw [Row.holds, Row.holds, hrow.get_of_ne (fun hx => (href hx).1) fun hx => (href hx).2]
          refine imp_congr_right fun _ => forall_congr' fun val => ⟨?_, ?_⟩
          · intro hall refStore hval heq hnull
            exact Option.some.inj heq ▸ (hfound val).mp (hall store' hval rfl hnull)
          · intro hall refStore hval heq hnull
            exact Option.some.inj heq ▸ (hfound val).mpr (hall store hval rfl hnull)

theorem checkChecks_renamed :
    checkChecks schema' row' = .ok () ↔ checkChecks schema row = .ok () := by
  rw [checkChecks, checkChecks, Except.bind_eq_ok_iff, Except.bind_eq_ok_iff, hren.tableChecks]
  refine and_congr (Except.forM_ok_iff_of_forall₂ (fun e hin e' he => ?_) hren.columns) ?_
  · obtain ⟨-, -, hdef⟩ := he
    simp only [checkColumnCheck]
    rw [hdef]
    simp only
    cases hcheck : e.2.checkExpr with
    | none => rfl
    | some checkSql =>
        have heval := evalCheck_renamed hrow fun hx =>
          h.unbound.columnChecks schema (hx ▸ hschema) e hin checkSql hcheck
        simp only [heval]
        split_ifs <;> simp
  · rw [Except.forM_eq_ok_iff, Except.forM_eq_ok_iff]
    refine forall₂_congr fun checkSql hin => ?_
    have heval := evalCheck_renamed hrow fun hx =>
      h.unbound.tableChecks schema (hx ▸ hschema) checkSql hin
    rw [checkTableCheck, checkTableCheck, heval]
    split_ifs <;> simp

/-- The renamed row passes the checks of the renamed table exactly if the row passes those of the
table. -/
theorem validateConstraints_renamed (rowid : RowId) :
    validateConstraints s' dbId schema' row' rowid = .ok () ↔
      validateConstraints s dbId schema row rowid = .ok () := by
  simp only [validateConstraints_eq, Except.bind_eq_ok_iff]
  rw [checkNotNulls_renamed hren hrow, checkUniqueness_renamed h hschema hren hrow,
    checkForeignKeys_renamed h hschema hren hrow, checkChecks_renamed h hschema hren hrow]

end Validate

end Checks

end Skvs
