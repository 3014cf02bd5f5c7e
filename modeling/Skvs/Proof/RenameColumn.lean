import Skvs.Proof.AlterIndexes
import Skvs.Proof.RenamedRun
import Skvs.Proof.SerialRun

/-!
# RENAME COLUMN

The statement renames the column in the schema and in the rows, and nowhere else. Where no rule knows
the column by its name, every run goes on as it would have gone.
-/

namespace Skvs

open Prog

variable [Externals] {ρ : ColumnRenaming} {dbId : UInt32} {w w' : World} {schema : TableSchema}

/-- What the statement makes of a row. -/
def renameInRow (old new : String) (row : Row) : Row :=
  match row.get old with
  | some v => (row.erase old).insert new v
  | none => row

omit [Externals] in
/-- A row that lacks the column stays as it is, so it must lack the new one too. -/
theorem renameInRow_renamed {row : Row}
    (hlacks : row.get ρ.old.value = none → row.get ρ.new.value = none) :
    RowRenamed ρ ρ.table row (renameInRow ρ.old.value ρ.new.value row) := by
  rw [renameInRow]
  cases hold : row.get ρ.old.value with
  | none =>
      refine ⟨fun c _ => ?_, fun _ => hold⟩
      rw [ColumnRenaming.name]
      split_ifs with hc
      · rw [hlacks hold, hc.2, hold]
      · rfl
  | some v =>
      refine ⟨fun c hc => ?_, fun _ => ?_⟩
      · rw [ColumnRenaming.name, IndexMap.get_insert]
        split_ifs with hname hnew hnew
        · rw [hname.2, hold]
        · exact absurd rfl hnew
        · exact absurd hnew (hc rfl)
        · rw [IndexMap.get_erase, if_neg fun heq => hname ⟨rfl, heq⟩]
      · rw [IndexMap.get_insert, if_neg ρ.ne, IndexMap.get_erase, if_pos rfl]

/-- The schema afterwards. -/
def renameInSchema (old new : String) (colDef : ColumnDef) (schema : TableSchema) : TableSchema :=
  let rest := schema.columns.erase old
  { schema with
    columns := rest.insertAt (min (schema.columns.keys.idxOf old) rest.keys.length) new
      { colDef with name := new }
    rowidColumn := if schema.rowidColumn = some old then some new else schema.rowidColumn }

omit [Externals] in
theorem renameInSchema_renamed {colDef : ColumnDef}
    (hget : schema.columns.get ρ.old.value = some colDef)
    (hnew : ρ.new.value ∉ schema.columns.keys) :
    SchemaRenamed ρ ρ.table schema (renameInSchema ρ.old.value ρ.new.value colDef schema) where
  columns := by
    obtain ⟨l₁, l₂, hentries⟩ := List.append_of_mem
      ((IndexMap.mem_entries_iff_get schema.columns ρ.old.value colDef).mpr hget)
    have hnodup := schema.columns.nodup
    rw [hentries, List.map_append, List.map_cons, List.nodup_append, List.nodup_cons] at hnodup
    obtain ⟨-, ⟨hold₂, -⟩, hdisj⟩ := hnodup
    have hother : ∀ e ∈ schema.columns.entries, e.1 ≠ ρ.old.value →
        ρ.Known ρ.table e.1 ∧ e.1 = ρ.name ρ.table e.1 ∧ e.2 = { e.2 with name := e.2.name } :=
      fun e he hne => ⟨fun _ heq => hnew (heq ▸ List.mem_map_of_mem he),
        (ColumnRenaming.name_of_ne fun _ => hne).symm, rfl⟩
    rw [renameInSchema]
    simp only
    rw [IndexMap.entries_insertAt_erase hentries hnew]
    rw [hentries] at hother ⊢
    refine List.rel_append (List.forall₂_same.mpr fun e he => ?_)
      (.cons ⟨fun _ => ρ.ne, ?_, rfl⟩ (List.forall₂_same.mpr fun e he => ?_))
    · exact hother e (List.mem_append_left _ he) fun heq =>
        hdisj _ (List.mem_map_of_mem he) _ List.mem_cons_self heq
    · rw [ColumnRenaming.name, if_pos ⟨rfl, rfl⟩]
    · have hmem : e.1 ∈ l₂.map Prod.fst := List.mem_map_of_mem he
      exact hother e (List.mem_append_right _ (List.mem_cons_of_mem _ he)) fun heq =>
        hold₂ (heq ▸ hmem)
  name := rfl
  indices := rfl
  uniqueGroups := rfl
  foreignKeys := rfl
  tableChecks := rfl

/-! ### The statement -/

theorem exec_alterTable {fuel : Nat} {name : String} {ifExists : Bool}
    {ops : List AlterTableOperation} {params : List Value} {txId : Option UInt32} {r : QueryResult}
    (h : exec (executeStatement fuel dbId (.alterTable name ifExists ops) params txId) w =
      (.ok r, w')) : exec (alterTable dbId name ifExists ops) w = (.ok r, w') := by
  have hsingle : executeStatement fuel dbId (.alterTable name ifExists ops) params txId =
      executeSingleStatement fuel dbId (.alterTable name ifExists ops) params txId := by
    cases txId <;> rfl
  rw [hsingle] at h
  cases fuel with
  | zero => exact nomatch (Prod.mk.inj h).1
  | succ fuel => exact h

theorem exec_singleAlter {op : AlterTableOperation} {ifExists : Bool} {r : QueryResult} {table : String}
    (hschema : w.kvs.getSchema dbId table = some schema)
    (h : exec (alterTable dbId table ifExists [op]) w = (.ok r, w')) :
    ∃ table', exec (alterOperation dbId table op) w = (.ok table', w') := by
  rcases alterTable_cases h with ⟨hnone, -⟩ | ⟨name, hrun⟩
  · exact nomatch hnone.symm.trans hschema
  · rw [List.foldlM_cons] at hrun
    obtain ⟨table', w₁, hop, hrest⟩ := exec_bind_eq_ok_iff.mp hrun
    obtain ⟨-, rfl⟩ := Prod.mk.inj hrest
    exact ⟨table', hop⟩

theorem exec_renameColumn {table table' : String} {old new : Ident}
    (hschema : w.kvs.getSchema dbId table = some schema)
    (h : exec (alterOperation dbId table (.renameColumn old new)) w = (.ok table', w')) :
    ∃ colDef, schema.columns.get old.value = some colDef ∧
      w'.kvs = (w.kvs.modifyStore dbId table fun store => store.mapValues fun _ row =>
        renameInRow old.value new.value row).setSchema dbId table
          (renameInSchema old.value new.value colDef schema) := by
  rw [alterOperation, exec_bind, exec_read] at h
  simp only [hschema, pure_bind] at h
  cases hget : schema.columns.get old.value with
  | none =>
      simp only [hget, orRaise] at h
      cases (Prod.mk.inj h).1
  | some colDef =>
      simp only [hget, orRaise, pure_bind] at h
      split at h
      · cases (Prod.mk.inj h).1
      · obtain ⟨-, rfl⟩ := Prod.mk.inj h
        exact ⟨colDef, rfl, rfl⟩

/-- No row of the table that lacks the column has a value under the new name. -/
def NewNameFree (ρ : ColumnRenaming) (dbId : UInt32) (s : KvsState) : Prop :=
  ∀ rowid row, s.row ⟨dbId, ρ.table, rowid⟩ = some row → row.get ρ.old.value = none →
    row.get ρ.new.value = none

theorem Renamed.alter (hun : Unbound ρ dbId w.kvs) (hfree : NewNameFree ρ dbId w.kvs)
    (hschema : w.kvs.getSchema dbId ρ.table = some schema)
    (hnew : ρ.new.value ∉ schema.columns.keys) {ifExists : Bool} {r : QueryResult}
    (h : exec (alterTable dbId ρ.table ifExists [.renameColumn ρ.old ρ.new]) w = (.ok r, w')) :
    Renamed ρ dbId w.kvs w'.kvs := by
  obtain ⟨table', hrun⟩ := exec_singleAlter hschema h
  obtain ⟨colDef, hget, hw'⟩ := exec_renameColumn hschema hrun
  rw [hw']
  refine ⟨fun x => ?_, fun x => ?_, fun _ => rfl, fun _ _ => rfl, rfl, rfl, rfl, hun⟩
  · have hstore : ∀ (s : KvsState) schema, (s.setSchema dbId ρ.table schema).getTableStore dbId x =
        s.getTableStore dbId x := fun _ _ => rfl
    rw [hstore, getTableStore_modifyStore]
    split_ifs with hx
    · obtain ⟨-, rfl⟩ := hx
      cases hst : w.kvs.getTableStore dbId ρ.table with
      | none => exact .none
      | some st =>
          refine .some (IndexMap.alike_mapValues st fun e he => renameInRow_renamed (hfree e.1 e.2 ?_))
          rw [KvsState.row, KvsState.rowAt, hst]
          exact (IndexMap.mem_entries_iff_get st e.1 e.2).mp he
    · have hne : x ≠ ρ.table := fun heq => hx ⟨rfl, heq⟩
      cases w.kvs.getTableStore dbId x with
      | none => exact .none
      | some st => exact .some (IndexMap.alike_self st fun e _ => .of_ne hne)
  · have hget' : (w.kvs.modifyStore dbId ρ.table fun store => store.mapValues fun _ row =>
        renameInRow ρ.old.value ρ.new.value row).getSchema dbId x = w.kvs.getSchema dbId x := rfl
    rw [getSchema_setSchema, hget']
    split_ifs with hx
    · rw [hx, hschema]
      exact .some (renameInSchema_renamed hget hnew)
    · cases w.kvs.getSchema dbId x with
      | none => exact .none
      | some schema' => exact .some (SchemaRenamed.of_ne hx)

/-! ### Every run afterwards -/

/-- After RENAME COLUMN of a column that no rule mentions, a run of INSERT, UPDATE and DELETE with the
new name in place of the old one is accepted call by call like the run as it was, and ends with the
same rows, up to the renaming, and the same index entries. -/
theorem rename_column_simulated (horder : OrderedByKeys) (hun : Unbound ρ dbId w.kvs)
    (hfree : NewNameFree ρ dbId w.kvs) (hschema : w.kvs.getSchema dbId ρ.table = some schema)
    (hnew : ρ.new.value ∉ schema.columns.keys) {fuel : Nat} {ifExists : Bool} {params : List Value}
    {txId : Option UInt32} {r : QueryResult}
    (halter : exec (executeStatement fuel dbId
      (.alterTable ρ.table ifExists [.renameColumn ρ.old ρ.new]) params txId) w = (.ok r, w'))
    (select : Query → Query) (calls : List Call) (hclear : clearCalls ρ select dbId calls w w') :
    let calls' := calls.map (Call.rename ρ select)
    accepted dbId calls' w' = accepted dbId calls w ∧
      (∀ x rowid, Option.Rel (RowRenamed ρ x) ((runCalls dbId calls w).kvs.row ⟨dbId, x, rowid⟩)
        ((runCalls dbId calls' w').kvs.row ⟨dbId, x, rowid⟩)) ∧
      ∀ x n, (runCalls dbId calls' w').kvs.indexStore dbId x n =
        (runCalls dbId calls w).kvs.indexStore dbId x n := by
  intro calls'
  have h := Renamed.alter hun hfree hschema hnew (exec_alterTable halter)
  obtain ⟨haccepted, hruns⟩ := h.runCalls horder calls hclear
  exact ⟨haccepted, hruns.row, hruns.indexes⟩

/-! ### A sample run, and where it fails -/

namespace Sample

/-- `ALTER TABLE t RENAME COLUMN a TO b`. -/
def renameAToB : ColumnRenaming := ⟨"t", name "a", name "b", by decide⟩

def alterTo (ρ : ColumnRenaming) : Call :=
  call (.alterTable ρ.table false [.renameColumn ρ.old ρ.new]) none

/-- `CREATE TABLE t (a INT UNIQUE)` with the row 1. -/
def uniqueOne : World :=
  letI := Externals.ofTexts [] []
  ⟨after [call (create [.unique false]) none, call (insert [.number "1"]) none], []⟩

/-- `INSERT INTO t (a) VALUES (1)`, `UPDATE t SET a = 2 WHERE a = 1`, `DELETE FROM t WHERE a = 2`. -/
def callsOnA : List Call :=
  let isEqual (n : String) : Expr := .binaryOp (.identifier (name "a")) .eq (.value (.number n))
  [call (.insert "t" [name "a"] (some ⟨.values [[.value (.number "1")]], [], none, none⟩)) none,
    call (.update ⟨.table "t" none, []⟩ [⟨[name "a"], .value (.number "2")⟩] (some (isEqual "1")))
      none,
    call (.delete ["t"] [] (some (isEqual "2"))) none]

/-- `ALTER TABLE c RENAME COLUMN c TO b`. -/
def renameCToB : ColumnRenaming := ⟨"c", name "c", name "b", by decide⟩

/-- The table `t` of `CREATE TABLE t (a INT UNIQUE)`. -/
def uniqueSchema : TableSchema :=
  letI := Externals.ofTexts [] []
  buildSchema "t" [⟨name "a", .int, [.unique false]⟩] []

omit [Externals] in
theorem uniqueOne_getSchema (x : String) :
    uniqueOne.kvs.getSchema 0 x = if x = "t" then some uniqueSchema else none := by
  have hschemas : uniqueOne.kvs.schemas.get 0 = some (.ofList [("t", uniqueSchema)]) := by
    decide
  rw [KvsState.getSchema, hschemas]
  exact IndexMap.get_insert ..

omit [Externals] in
theorem uniqueOne_unbound :
    letI := Externals.ofTexts [] []
    Unbound renameAToB 0 uniqueOne.kvs := by
  let _ := Externals.ofTexts [] []
  have hschema : ∀ {x schema}, uniqueOne.kvs.getSchema 0 x = some schema →
      x = "t" ∧ schema = uniqueSchema := by
    intro x schema hget
    rw [uniqueOne_getSchema] at hget
    split_ifs at hget with hx
    exact ⟨hx, (Option.some.inj hget).symm⟩
  have hrules : uniqueSchema.uniqueGroups = [] ∧ uniqueSchema.foreignKeys = [] ∧
      uniqueSchema.tableChecks = [] ∧ uniqueSchema.indices = [] ∧
      uniqueSchema.columns.entries.all (fun e => e.2.checkExpr.isNone) = true ∧
      uniqueSchema.name = "t" ∧ uniqueOne.kvs.getFtsTable 0 "t" = none := by
    decide
  obtain ⟨hgroups, hfks, hchecks, hindices, hcolumns, hname, hfts⟩ := hrules
  constructor
  · rintro schema hget group hgroup
    obtain ⟨-, rfl⟩ := hschema hget
    exact nomatch hgroups ▸ hgroup
  · rintro schema hget fk hfk
    obtain ⟨-, rfl⟩ := hschema hget
    exact nomatch hfks ▸ hfk
  · rintro x schema hget fk hfk
    obtain ⟨-, rfl⟩ := hschema hget
    exact nomatch hfks ▸ hfk
  · rintro schema hget e he checkSql hcheck
    obtain ⟨-, rfl⟩ := hschema hget
    have hnone := List.all_eq_true.mp hcolumns e he
    rw [hcheck] at hnone
    exact nomatch hnone
  · rintro schema hget checkSql hcheck
    obtain ⟨-, rfl⟩ := hschema hget
    exact nomatch hchecks ▸ hcheck
  · rintro schema hget idx hidx
    obtain ⟨-, rfl⟩ := hschema hget
    exact nomatch hindices ▸ hidx
  · intro fts hget
    exact nomatch hfts.symm.trans hget
  · intro x schema hget
    obtain ⟨rfl, rfl⟩ := hschema hget
    exact Or.inl hname

omit [Externals] in
theorem uniqueOne_clear :
    letI := Externals.ofTexts [] []
    clearCalls renameAToB id 0 callsOnA uniqueOne ((alterTo renameAToB).run 0 uniqueOne) := by
  let _ := Externals.ofTexts [] []
  have hwhere : ∀ (rows : Row → Prop) n, ClearWhere renameAToB rows
      (.binaryOp (.identifier (name "a")) .eq (.value (.number n))) := by
    refine fun rows n => ⟨fun r hr => ?_, fun arg harg => nomatch harg⟩
    obtain rfl := List.mem_singleton.mp hr
    exact (by decide : "a" ≠ "b")
  refine ⟨⟨rfl, ⟨fun x _ => ?_, ⟨fun _ id hid => ?_, fun q sel hq hbody => ?_⟩⟩⟩,
    ⟨rfl, ⟨fun x _ => ?_, fun _ => ⟨fun assignment hassignment => ?_, fun e he => ?_⟩⟩⟩,
    ⟨rfl, ⟨fun x _ => ?_, fun _ e he => ?_⟩⟩, trivial⟩
  · exact NoTriggers.of_empty (by decide) x
  · obtain rfl := List.mem_singleton.mp hid
    exact (by decide : "a" ≠ "b")
  · obtain rfl := Option.some.inj hq
    exact nomatch hbody
  · exact NoTriggers.of_empty (by decide) x
  · obtain rfl := List.mem_singleton.mp hassignment
    exact ⟨⟨name "a", rfl, by decide⟩, fun r hr => nomatch hr⟩
  · obtain rfl := Option.some.inj he
    exact hwhere _ _
  · exact NoTriggers.of_empty (by decide) x
  · obtain rfl := Option.some.inj he
    exact hwhere _ _

end Sample

omit [Externals] in
theorem unique_column_renamed :
    letI := Externals.ofTexts [] []
    let w := Sample.uniqueOne
    let w' := (Sample.alterTo Sample.renameAToB).run 0 w
    let calls' := Sample.callsOnA.map (Call.rename Sample.renameAToB id)
    accepted 0 calls' w' = accepted 0 Sample.callsOnA w ∧
      (∀ x rowid, Option.Rel (RowRenamed Sample.renameAToB x)
        ((runCalls 0 Sample.callsOnA w).kvs.row ⟨0, x, rowid⟩)
        ((runCalls 0 calls' w').kvs.row ⟨0, x, rowid⟩)) ∧
      ∀ x n, (runCalls 0 calls' w').kvs.indexStore 0 x n =
        (runCalls 0 Sample.callsOnA w).kvs.indexStore 0 x n := by
  let _ := Externals.ofTexts [] []
  have hstore : Sample.uniqueOne.kvs.getTableStore 0 "t" =
      some (.ofList [(1, .ofList [("a", .integer 1)])]) := by
    decide
  have hfree : NewNameFree Sample.renameAToB 0 Sample.uniqueOne.kvs := by
    intro rowid row hrow hold
    rw [KvsState.row, KvsState.rowAt, Sample.renameAToB, hstore] at hrow
    obtain ⟨-, rfl⟩ := Prod.mk.inj
      (List.mem_singleton.mp ((IndexMap.mem_entries_iff_get ..).mpr hrow))
    cases hold
  have halter : Prog.exec (executeStatement 3 0 (.alterTable Sample.renameAToB.table false
      [.renameColumn Sample.renameAToB.old Sample.renameAToB.new]) [] none) Sample.uniqueOne =
        (.ok .empty, (Sample.alterTo Sample.renameAToB).run 0 Sample.uniqueOne) := by
    refine Prod.ext ?_ rfl
    decide
  exact rename_column_simulated (fun _ _ => rfl) Sample.uniqueOne_unbound hfree
    ((Sample.uniqueOne_getSchema "t").trans (if_pos rfl)) (by decide) halter id
    Sample.callsOnA Sample.uniqueOne_clear

omit [Externals] in
/-- The FOREIGN KEY goes on naming `c`, which no row has any more: it refers to nothing. -/
theorem rename_column_leaves_foreign_key :
    letI := Externals.ofTexts [] []
    let ρ := Sample.renameCToB
    let w : World := ⟨Sample.twoTables, []⟩
    let w' := (Sample.alterTo ρ).run 0 w
    let call := Sample.insertInto "c" "1"
    NoTriggers w.kvs 0 ∧ (w.kvs.getSchema 0 "c").map (fun s => (s.columns.keys, s.foreignKeys)) =
        some (["c"], [Sample.reference]) ∧
      (Sample.alterTo ρ).succeeds 0 w = true ∧
      call.succeeds 0 w = false ∧ (call.rename ρ id).succeeds 0 w' = true := by
  let _ := Externals.ofTexts [] []
  refine ⟨NoTriggers.of_empty (by decide), ?_, ?_, ?_, ?_⟩ <;> decide

end Skvs
