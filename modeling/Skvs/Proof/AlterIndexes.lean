import Skvs.Proof.FastPath

/-!
# What ADD COLUMN and DROP COLUMN do to the indexes

Both rewrite every row of the table and leave the index entries alone. An index stays exact as long
as the rewriting does not change what it files.
-/

namespace Skvs

/-- ADD COLUMN and DROP COLUMN. -/
def AlterTableOperation.setsColumn : AlterTableOperation → Bool
  | .addColumn _ | .dropColumn .. => true
  | _ => false

variable [Externals]

/-- What an operation leaves in a column of every row, if it is about that column. -/
def AlterTableOperation.sets (col : String) : AlterTableOperation → Option (Option Value)
  | .addColumn columnDef =>
    let colDef := parseColumnDef columnDef
    if colDef.name = col then some (some (colDef.default.getD .null)) else none
  | .dropColumn columnName _ => if columnName.value = col then some none else none
  | _ => none

/-- What the last of the operations about a column leaves in it. -/
def lastSets (col : String) : List AlterTableOperation → Option (Option Value)
  | [] => none
  | op :: ops => (lastSets col ops).or (op.sets col)

/-- The rewriting of one row. -/
def AlterTableOperation.alterRow (op : AlterTableOperation) (row : Row) : Row :=
  match op with
  | .addColumn columnDef =>
    let colDef := parseColumnDef columnDef
    row.insert colDef.name (colDef.default.getD .null)
  | .dropColumn columnName _ => row.erase columnName.value
  | _ => row

theorem AlterTableOperation.get_alterRow (op : AlterTableOperation) (row : Row) (col : String) :
    (op.alterRow row).get col = (op.sets col).getD (row.get col) := by
  cases op with
  | addColumn columnDef =>
      rw [alterRow, sets, IndexMap.get_insert]
      by_cases hcol : (parseColumnDef columnDef).name = col
      · rw [if_pos hcol, if_pos hcol.symm, Option.getD_some]
      · rw [if_neg hcol, if_neg (Ne.symm hcol), Option.getD_none]
  | dropColumn columnName ifExists =>
      rw [alterRow, sets, IndexMap.get_erase]
      by_cases hcol : columnName.value = col
      · rw [if_pos hcol, if_pos hcol.symm, Option.getD_some]
      · rw [if_neg hcol, if_neg (Ne.symm hcol), Option.getD_none]
  | renameColumn | renameTable | other => rfl

theorem get_alterRows (ops : List AlterTableOperation) (row : Row) (col : String) :
    (ops.foldl (fun row op => op.alterRow row) row).get col =
      (lastSets col ops).getD (row.get col) := by
  induction ops generalizing row with
  | nil => rfl
  | cons op ops ih =>
      rw [List.foldl_cons, ih, op.get_alterRow, lastSets]
      cases lastSets col ops <;> rfl

/-! ### The state after the statement -/

/-- The rows of the table are rewritten; its indexes and their entries are the same. -/
structure Altered (dbId : UInt32) (table : String) (ops : List AlterTableOperation)
    (s s' : KvsState) : Prop where
  row : ∀ rowid, s'.row ⟨dbId, table, rowid⟩ =
    (s.row ⟨dbId, table, rowid⟩).map fun row => ops.foldl (fun row op => op.alterRow row) row
  indices : (s'.getSchema dbId table).map TableSchema.indices =
    (s.getSchema dbId table).map TableSchema.indices
  indexes : s'.indexes = s.indexes

section Altered

variable {dbId : UInt32} {table : String} {s s' : KvsState}

theorem Altered.refl : Altered dbId table [] s s :=
  ⟨fun _ => Option.map_id'.symm, rfl, rfl⟩

theorem Altered.cons {s'' : KvsState} {op : AlterTableOperation} {ops : List AlterTableOperation}
    (h : Altered dbId table [op] s s') (h' : Altered dbId table ops s' s'') :
    Altered dbId table (op :: ops) s s'' where
  row rowid := by
    rw [h'.row, h.row, Option.map_map]
    rfl
  indices := h'.indices.trans h.indices
  indexes := h'.indexes.trans h.indexes

theorem altered_setSchema (op : AlterTableOperation) {schema schema' : TableSchema}
    (hschema : s.getSchema dbId table = some schema) (hindices : schema'.indices = schema.indices) :
    Altered dbId table [op] s
      ((s.modifyStore dbId table fun store => store.mapValues fun _ row => op.alterRow row).setSchema
        dbId table schema') where
  row rowid := by
    simp only [KvsState.row, KvsState.rowAt, KvsState.getTableStore, KvsState.setSchema,
      KvsState.modifyStore, IndexMap.get_modify, if_true, List.foldl_cons, List.foldl_nil]
    cases s.dbs.get dbId with
    | none => rfl
    | some db =>
        simp only [Option.map_some, Option.bind_some, IndexMap.get_modify, if_true]
        cases db.get table with
        | none => rfl
        | some store => simp only [Option.map_some, Option.bind_some, IndexMap.get_mapValues]
  indices := by
    rw [hschema]
    simp [KvsState.getSchema, KvsState.setSchema, hindices]
  indexes := rfl

end Altered

section Run

open Prog

variable {dbId : UInt32} {table table' : String} {w w' : World}

theorem altered_of_change (op : AlterTableOperation) {schema schema' : TableSchema}
    (hschema : w.kvs.getSchema dbId table = some schema)
    (h : exec (do
      onState fun s => s.modifyStore dbId table fun store =>
        store.mapValues fun _ row => op.alterRow row
      onState fun s => s.setSchema dbId table schema'
      return table) w = (.ok table', w'))
    (hindices : schema'.indices = schema.indices) :
    table' = table ∧ Altered dbId table [op] w.kvs w'.kvs := by
  obtain ⟨htable, rfl⟩ := Prod.mk.inj h
  exact ⟨(Except.ok.inj htable).symm, altered_setSchema op hschema hindices⟩

/-- One operation that does not fail. -/
theorem alterOperation_altered {op : AlterTableOperation} (hop : op.setsColumn = true)
    (h : exec (alterOperation dbId table op) w = (.ok table', w')) :
    table' = table ∧ Altered dbId table [op] w.kvs w'.kvs := by
  rw [alterOperation, exec_bind, exec_read] at h
  cases hschema : w.kvs.getSchema dbId table with
  | none =>
      cases op with
      | addColumn | dropColumn =>
          simp only [hschema] at h
          cases (Prod.mk.inj h).1
      | renameColumn | renameTable | other => cases hop
  | some schema =>
      cases op with
      | addColumn columnDef =>
          simp only [hschema, pure_bind] at h
          split at h
          · cases (Prod.mk.inj h).1
          · exact altered_of_change (.addColumn columnDef) hschema h rfl
      | dropColumn columnName ifExists =>
          simp only [hschema, pure_bind] at h
          split at h
          · cases (Prod.mk.inj h).1
          · exact altered_of_change (.dropColumn columnName ifExists) hschema h rfl
      | renameColumn | renameTable | other => cases hop

theorem alterOperations_altered {ops : List AlterTableOperation}
    (hops : ∀ op ∈ ops, op.setsColumn = true)
    (h : exec (ops.foldlM (alterOperation dbId) table) w = (.ok table', w')) :
    Altered dbId table ops w.kvs w'.kvs := by
  induction ops generalizing w with
  | nil =>
      obtain ⟨-, rfl⟩ := Prod.mk.inj h
      exact .refl
  | cons op ops ih =>
      rw [List.foldlM_cons] at h
      obtain ⟨name, w₁, hop, hrest⟩ := exec_bind_eq_ok_iff.mp h
      obtain ⟨rfl, hfirst⟩ := alterOperation_altered (hops op List.mem_cons_self) hop
      exact hfirst.cons (ih (fun op' hop' => hops op' (List.mem_cons_of_mem op hop')) hrest)

/-- An ALTER TABLE that returns has run its operations, or the table is missing. -/
theorem alterTable_cases {ifExists : Bool} {ops : List AlterTableOperation} {r : QueryResult}
    (h : exec (alterTable dbId table ifExists ops) w = (.ok r, w')) :
    w.kvs.getSchema dbId table = none ∧ w' = w ∨
      ∃ name, exec (ops.foldlM (alterOperation dbId) table) w = (.ok name, w') := by
  rw [alterTable, exec_bind, exec_read] at h
  cases hdb : w.kvs.schemas.get dbId with
  | none =>
      simp only [hdb, orRaise] at h
      cases (Prod.mk.inj h).1
  | some schemas =>
      simp only [hdb, orRaise, pure_bind] at h
      split at h
      next hmissing =>
        split at h
        · obtain ⟨-, rfl⟩ := Prod.mk.inj h
          refine Or.inl ⟨?_, rfl⟩
          simpa [KvsState.getSchema, hdb, IndexMap.contains] using hmissing
        · cases (Prod.mk.inj h).1
      next =>
        obtain ⟨name, w₁, hops, hreturn⟩ := exec_bind_eq_ok_iff.mp h
        obtain ⟨-, rfl⟩ := Prod.mk.inj hreturn
        exact Or.inr ⟨name, hops⟩

theorem alterTable_altered {ifExists : Bool} {ops : List AlterTableOperation} {r : QueryResult}
    (hops : ∀ op ∈ ops, op.setsColumn = true)
    (h : exec (alterTable dbId table ifExists ops) w = (.ok r, w'))
    (hlisted : (w'.kvs.getSchema dbId table).isSome = true) :
    Altered dbId table ops w.kvs w'.kvs := by
  rcases alterTable_cases h with ⟨hnone, rfl⟩ | ⟨name, hrun⟩
  · rw [hnone] at hlisted
    exact nomatch hlisted
  · exact alterOperations_altered hops hrun

end Run

/-! ### When an index stays exact -/

/-- If operations set the column that the index files, then to what every row has there already. -/
def KeepsFiled (s : KvsState) (dbId : UInt32) (table : String) (ops : List AlterTableOperation)
    (idx : IndexDef) : Prop :=
  ∀ col, idx.columns.head? = some col → ∀ held, lastSets col ops = some held →
    ∀ rowid row, s.row ⟨dbId, table, rowid⟩ = some row → row.get col = held

section Exact

variable {dbId : UInt32} {table : String} {ops : List AlterTableOperation} {s s' : KvsState}

theorem Altered.filed_eq_iff (h : Altered dbId table ops s s') (idx : IndexDef) :
    (∀ rowid, filed idx (s'.row ⟨dbId, table, rowid⟩) = filed idx (s.row ⟨dbId, table, rowid⟩)) ↔
      KeepsFiled s dbId table ops idx := by
  have hrow : ∀ rowid row, s.row ⟨dbId, table, rowid⟩ = some row →
      (filed idx (s'.row ⟨dbId, table, rowid⟩) = filed idx (s.row ⟨dbId, table, rowid⟩) ↔
        ∀ col, idx.columns.head? = some col → ∀ held, lastSets col ops = some held →
          row.get col = held) := by
    intro rowid row hrow
    rw [h.row, hrow, Option.map_some, filed, Option.bind_some, filed, Option.bind_some, indexValue,
      indexValue]
    cases idx.columns.head? with
    | none => simp
    | some col =>
        rw [Option.bind_some, Option.bind_some, get_alterRows]
        cases hlast : lastSets col ops with
        | none => simp [hlast]
        | some held => simp [hlast, eq_comm]
  constructor
  · intro hfiled col hcol held hheld rowid row hget
    exact (hrow rowid row hget).mp (hfiled rowid) col hcol held hheld
  · intro hkeeps rowid
    cases hget : s.row ⟨dbId, table, rowid⟩ with
    | none => rw [h.row, hget, Option.map_none]
    | some row =>
        rw [← hget]
        exact (hrow rowid row hget).mpr fun col hcol held hheld =>
          hkeeps col hcol held hheld rowid row hget

/-- The entries are the same, so they are right exactly if the rows file the same values. -/
theorem Altered.mapExact_iff (h : Altered dbId table ops s s') {idx : IndexDef}
    (hexact : MapExact s dbId table idx) :
    MapExact s' dbId table idx ↔ KeepsFiled s dbId table ops idx := by
  have hstore : s'.indexStore dbId table idx.name = s.indexStore dbId table idx.name := by
    rw [KvsState.indexStore, h.indexes]
    rfl
  rw [← h.filed_eq_iff idx]
  constructor
  · intro hexact' rowid
    refine Option.ext fun v => ?_
    rw [← hexact'.lists_iff, ← hexact.lists_iff, hstore]
  · intro hfiled
    refine ⟨?_, ?_, fun v rowid => ?_⟩
    · rw [hstore]
      exact hexact.ascending
    · rw [hstore]
      exact hexact.nodup
    · rw [hstore, hfiled]
      exact hexact.lists_iff v rowid

end Exact

/-- After an ALTER TABLE of ADD and DROP COLUMN that succeeds, an index is still exact if and only if
the last operation about its column, if there is one, leaves in every row what is there. -/
theorem alter_index_exact_iff {w w' : World} {dbId : UInt32} {table : String} {ifExists : Bool}
    {ops : List AlterTableOperation} (hops : ∀ op ∈ ops, op.setsColumn = true)
    (hexact : ∀ schema, w.kvs.getSchema dbId table = some schema →
      ∀ idx ∈ schema.indices, MapExact w.kvs dbId table idx)
    {r : QueryResult} (h : Prog.exec (alterTable dbId table ifExists ops) w = (.ok r, w'))
    {schema' : TableSchema} (hschema' : w'.kvs.getSchema dbId table = some schema') {idx : IndexDef}
    (hidx : idx ∈ schema'.indices) :
    MapExact w'.kvs dbId table idx ↔ KeepsFiled w.kvs dbId table ops idx := by
  have haltered := alterTable_altered hops h (by rw [hschema', Option.isSome_some])
  obtain ⟨schema, hschema, hindices⟩ := Option.map_eq_some_iff.mp
    ((haltered.indices.symm.trans (congrArg _ hschema')).trans (Option.map_some ..))
  exact haltered.mapExact_iff (hexact schema hschema idx (hindices ▸ hidx))

/-! ### Where it fails -/

namespace Sample

/-- `CREATE INDEX i ON t (a)`, as it is listed. -/
def indexOnA : IndexDef := ⟨"i", ["a"], false, none, false⟩

def alter (op : AlterTableOperation) (w : World) : Except Fail QueryResult × World :=
  letI := Externals.ofTexts [] []
  Prog.exec (alterTable 0 "t" false [op]) w

def oneIndexed : World :=
  letI := Externals.ofTexts [] []
  ⟨after (indexed [.number "1"]), []⟩

omit [Externals] in
theorem oneIndexed_indices :
    (oneIndexed.kvs.getSchema 0 "t").map TableSchema.indices = some [indexOnA] := by
  decide

omit [Externals] in
theorem oneIndexed_exact (schema : TableSchema)
    (hschema : oneIndexed.kvs.getSchema 0 "t" = some schema) (idx : IndexDef)
    (hidx : idx ∈ schema.indices) : MapExact oneIndexed.kvs 0 "t" idx := by
  refine mapExact_of_check (by decide) (fun schema hschema idx hidx => ?_) schema hschema
    idx hidx
  have hindices := oneIndexed_indices
  rw [hschema, Option.map_some, Option.some.injEq] at hindices
  rw [hindices, List.mem_singleton] at hidx
  subst hidx
  decide

end Sample

omit [Externals] in
/-- The index on a dropped column is still listed, and still maps the value to the row. -/
theorem dropped_column_stays_indexed :
    let s := Sample.oneIndexed.kvs
    let out := Sample.alter (.dropColumn (Sample.name "a") false) Sample.oneIndexed
    (∀ schema, s.getSchema 0 "t" = some schema → ∀ idx ∈ schema.indices, MapExact s 0 "t" idx) ∧
      out.1.toOption.isSome = true ∧
      (out.2.kvs.getSchema 0 "t").map TableSchema.indices = some [Sample.indexOnA] ∧
      ¬MapExact out.2.kvs 0 "t" Sample.indexOnA := by
  intro s out
  obtain ⟨hok, hindices, hentries, hfiled⟩ : out.1.toOption.isSome = true ∧
      (out.2.kvs.getSchema 0 "t").map TableSchema.indices = some [Sample.indexOnA] ∧
      (.integer 1, [1]) ∈ (out.2.kvs.indexStore 0 "t" "i").entries ∧
      filed Sample.indexOnA (out.2.kvs.row ⟨0, "t", 1⟩) = none := by
    decide
  refine ⟨Sample.oneIndexed_exact, hok, hindices, fun h => ?_⟩
  have hv := (h.lists_iff (.integer 1) 1).mp ⟨[1], hentries, List.mem_cons_self⟩
  rw [hfiled] at hv
  exact nomatch hv

/-- `ALTER TABLE t DROP COLUMN a, ADD COLUMN a INT DEFAULT 1`. -/
def Sample.dropAndAdd : List AlterTableOperation :=
  [.dropColumn (name "a") false, .addColumn ⟨name "a", .int, [.default (.value (.number "1"))]⟩]

omit [Externals] in
/-- The row has 1 in the indexed column, and gets it back. -/
theorem index_exact_after_drop_and_add :
    letI := Externals.ofTexts [] []
    let out := Prog.exec (alterTable 0 "t" false Sample.dropAndAdd) Sample.oneIndexed
    out.1.toOption.isSome = true ∧ MapExact out.2.kvs 0 "t" Sample.indexOnA := by
  let _ := Externals.ofTexts [] []
  intro out
  obtain ⟨hok, hindices⟩ : out.1.toOption.isSome = true ∧
      (out.2.kvs.getSchema 0 "t").map TableSchema.indices = some [Sample.indexOnA] := by
    decide
  obtain ⟨schema, hschema, hlisted⟩ := Option.map_eq_some_iff.mp hindices
  refine ⟨hok, ?_⟩
  rcases hout : out with ⟨e | r, w'⟩
  · rw [hout] at hok
    exact nomatch hok
  · rw [hout] at hschema
    refine (alter_index_exact_iff (by decide) Sample.oneIndexed_exact hout hschema
      (hlisted ▸ List.mem_cons_self)).mpr fun col hcol held hheld rowid row hrow => ?_
    obtain rfl : "a" = col := Option.some.inj hcol
    obtain rfl : some (.integer 1) = held :=
      Option.some.inj ((show lastSets "a" Sample.dropAndAdd = _ by decide).symm.trans hheld)
    have hstore : Sample.oneIndexed.kvs.getTableStore 0 "t" = some (.ofList [(1, Sample.row 1)]) := by
      decide
    rw [KvsState.row, KvsState.rowAt, hstore, Option.bind_some] at hrow
    obtain ⟨-, rfl⟩ := Prod.mk.inj (List.mem_singleton.mp
      ((IndexMap.mem_entries_iff_get ..).mpr hrow))
    rfl

end Skvs
