import Skvs.Proof.AlterRules
import Skvs.Proof.RowidCounters

/-!
# The order of the columns of a row

SELECT * and INSERT ... SELECT read values by position. No operation looks at the order of the schema:
an INSERT stores the columns in the order of its own list and appends the others, an UPDATE appends a
column that the row does not have, and RENAME COLUMN moves the value to the end.
-/

namespace Skvs

open Prog

/-- The row has the columns of its table, in the order of the schema. -/
def Shaped (s : KvsState) (k : Key) (row : Row) : Prop :=
  ∃ schema, s.getSchema k.dbId k.table = some schema ∧ row.keys = schema.columns.keys

def RowShapes (s : KvsState) : Prop := ∀ k row, s.row k = some row → Shaped s k row

/-! ### The columns of a row that a statement makes -/

/-- The defaults complete a row exactly if it starts as the schema does. -/
theorem keys_withDefaults_iff {schema : TableSchema} (rowid : RowId) (row : Row) :
    (withDefaults schema rowid row).keys = schema.columns.keys ↔ row.keys <+: schema.columns.keys := by
  rw [withDefaults, IndexMap.keys_foldl_insertIfNew (fun e => defaultValue e.2 rowid) _
    schema.columns.nodup]
  constructor
  · exact fun h => ⟨_, h⟩
  · rintro ⟨rest, hrest⟩
    have hnodup := schema.columns.keys_nodup
    rw [← hrest, List.nodup_append] at hnodup
    obtain ⟨-, -, hdisj⟩ := hnodup
    have hown : row.keys.filter (fun c => c ∉ row.keys) = [] := by simp
    have hnew : rest.filter (fun c => c ∉ row.keys) = rest :=
      List.filter_eq_self.mpr fun c hc => decide_eq_true fun hin => hdisj c hin c hc rfl
    change row.keys ++ schema.columns.keys.filter _ = _
    rw [← hrest, List.filter_append, hown, hnew, List.nil_append]

section

variable [Externals]

/-- SET leaves the columns as they are if it is about columns of the row. -/
theorem keys_updatedRow {assignments : List Assignment} {row : Row} (params : List Value)
    (h : ∀ a ∈ assignments, assignedColumn a ∈ row.keys) :
    (updatedRow assignments params row).keys = row.keys := by
  have hfold : ∀ (assignments : List Assignment) (newRow : Row) (i : Nat),
      newRow.keys = row.keys → (∀ a ∈ assignments, assignedColumn a ∈ row.keys) →
        (applyAssignments params row assignments newRow i).1.keys = row.keys := by
    intro assignments
    induction assignments with
    | nil => exact fun newRow i hkeys _ => hkeys
    | cons a assignments ih =>
        intro newRow i hkeys hall
        have ha : assignedColumn a ∈ newRow.keys := hkeys ▸ hall a List.mem_cons_self
        exact ih _ _ ((IndexMap.keys_insert_of_mem _ ha).trans hkeys)
          fun a' ha' => hall a' (List.mem_cons_of_mem a ha')
  exact hfold assignments row 0 rfl h

/-- The column renamed is the last one, or the one whose name it takes over comes right after it. -/
def RenameFits (columns : List String) (old new : String) : Prop :=
  (∃ front, columns = front ++ [old] ∧ new ∉ front) ∨
    ∃ front back, columns = front ++ old :: new :: back

/-- An operation treats the rows as it treats the schema. -/
def AlterTableOperation.fits (schema : TableSchema) : AlterTableOperation → Prop
  | .renameColumn old new => RenameFits schema.columns.keys old.value new.value
  | _ => True

omit [Externals] in
theorem keys_renameInRow {columns : List String} {old new : String} {row : Row}
    (hkeys : row.keys = columns) (hfits : RenameFits columns old new) (schema : TableSchema)
    (hschema : schema.columns.keys = columns) (colDef : ColumnDef) :
    (renameInRow old new row).keys = (renameInSchema old new colDef schema).columns.keys := by
  have hnodup : columns.Nodup := hkeys ▸ row.keys_nodup
  have hold : old ∈ row.keys := by
    rcases hfits with ⟨front, heq, -⟩ | ⟨front, back, heq⟩ <;> simp [hkeys, heq]
  obtain ⟨v, hv⟩ := (IndexMap.mem_keys_iff_get row old).mp hold
  have hrow : renameInRow old new row = (row.erase old).insert new v := by
    rw [renameInRow, hv]
  rw [hrow, renameInSchema]
  simp only [IndexMap.keys_insertAt, IndexMap.keys_erase, hschema]
  rcases hfits with ⟨front, heq, hnew⟩ | ⟨front, back, heq⟩
  · subst heq
    have hnot : old ∉ front := fun hin => (List.nodup_append.mp hnodup).2.2 old hin old
      (List.mem_singleton.mpr rfl) rfl
    have herase : (front ++ [old]).erase old = front := by
      rw [List.erase_append_right _ hnot, List.erase_cons_head, List.append_nil]
    have hidx : (front ++ [old]).idxOf old = front.length := by
      rw [List.idxOf_append_of_notMem hnot, List.idxOf_cons_self, Nat.add_zero]
    rw [IndexMap.keys_insert_of_not_mem _ (by rw [IndexMap.keys_erase, hkeys, herase]; exact hnew),
      IndexMap.keys_erase, hkeys, herase, hidx, Nat.min_self, List.erase_of_not_mem hnew,
      List.take_length, List.drop_length]
  · subst heq
    rw [List.nodup_append, List.nodup_cons] at hnodup
    obtain ⟨-, ⟨-, -⟩, hdisj⟩ := hnodup
    have hnot : old ∉ front := fun hin => hdisj old hin old List.mem_cons_self rfl
    have hnot' : new ∉ front := fun hin =>
      hdisj new hin new (List.mem_cons_of_mem old List.mem_cons_self) rfl
    have herase : (front ++ old :: new :: back).erase old = front ++ new :: back := by
      rw [List.erase_append_right _ hnot, List.erase_cons_head]
    have herase' : (front ++ new :: back).erase new = front ++ back := by
      rw [List.erase_append_right _ hnot', List.erase_cons_head]
    have hidx : (front ++ old :: new :: back).idxOf old = front.length := by
      rw [List.idxOf_append_of_notMem hnot, List.idxOf_cons_self, Nat.add_zero]
    have hmin : min front.length (front ++ new :: back).length = front.length := by simp
    rw [IndexMap.keys_insert_of_mem _ (by rw [IndexMap.keys_erase, hkeys, herase]; simp),
      IndexMap.keys_erase, hkeys, herase, herase', hidx, hmin, List.take_left, List.drop_left]

theorem AlterTableOperation.keys_editRow {op : AlterTableOperation} {schema : TableSchema} {row : Row}
    (happ : op.Applies schema) (hfits : op.fits schema) (hkeys : row.keys = schema.columns.keys) :
    (op.editRow row).keys = (op.editSchema schema).columns.keys := by
  cases op with
  | addColumn columnDef =>
      change (row.insert _ _).keys = (schema.columns.insert _ _).keys
      by_cases hin : (parseColumnDef columnDef).name ∈ schema.columns.keys
      · rw [IndexMap.keys_insert_of_mem _ hin, IndexMap.keys_insert_of_mem _ (hkeys ▸ hin), hkeys]
      · rw [IndexMap.keys_insert_of_not_mem _ hin, IndexMap.keys_insert_of_not_mem _ (hkeys ▸ hin), hkeys]
  | dropColumn columnName ifExists =>
      change (row.erase _).keys = (schema.columns.erase _).keys
      rw [IndexMap.keys_erase, IndexMap.keys_erase, hkeys]
  | renameColumn old new =>
      obtain ⟨colDef, hget⟩ := Option.isSome_iff_exists.mp happ
      rw [editRow, editSchema, hget]
      exact keys_renameInRow hkeys hfits schema rfl colDef
  | renameTable | other => exact hkeys

/-! ### INSERT and UPDATE -/

variable {dbId : UInt32} {txId : Option UInt32} {w w' : World}

/-- One step of a statement that stores rows as their schema has them. -/
inductive ShapedChange (dbId : UInt32) (txId : Option UInt32) : World → World → Prop
  | draw (w : World) (table : String) : ShapedChange dbId txId w (w.draw dbId table)
  | store (w : World) (k : Key) (copy after : Option Row) (hdb : k.dbId = dbId)
      (hstore : w.kvs.hasStore k.dbId k.table = true) (hcopy : copy = none ∨ w.kvs.row k = copy)
      (hshaped : ∀ row, after = some row → Shaped w.kvs k row) :
      ShapedChange dbId txId w (w.store txId k copy after)

abbrev ShapedChanges (dbId : UInt32) (txId : Option UInt32) : World → World → Prop :=
  Relation.ReflTransGen (ShapedChange dbId txId)

instance (dbId : UInt32) (txId : Option UInt32) : IsPreorder World (ShapedChanges dbId txId) where
  refl _ := .refl
  trans _ _ _ := .trans

theorem ShapedChange.schemas (h : ShapedChange dbId txId w w') : w'.kvs.schemas = w.kvs.schemas := by
  cases h with
  | draw => rfl
  | store k copy after => exact store_schemas w txId k copy after

theorem ShapedChange.triggers (h : ShapedChange dbId txId w w') :
    w'.kvs.triggers = w.kvs.triggers := by
  cases h with
  | draw => rfl
  | store k copy after => exact store_triggers w txId k copy after

omit [Externals] in
theorem Shaped.of_schemas {s s' : KvsState} {k : Key} {row : Row} (h : Shaped s k row)
    (hschemas : s'.schemas = s.schemas) : Shaped s' k row := by
  obtain ⟨schema, hschema, hkeys⟩ := h
  refine ⟨schema, ?_, hkeys⟩
  rw [KvsState.getSchema, hschemas]
  exact hschema

theorem RowShapes.change (h : RowShapes w.kvs) (hch : ShapedChange dbId txId w w') :
    RowShapes w'.kvs := by
  intro k row hrow
  refine Shaped.of_schemas ?_ hch.schemas
  cases hch with
  | draw => exact h k row hrow
  | store k' copy after hdb hstore hcopy hshaped =>
      rw [store_row txId k' copy after hstore] at hrow
      split_ifs at hrow with hk
      · exact hk ▸ hshaped row hrow
      · exact h k row hrow

/-- The transaction is active, and every row in its journal has the shape of its table. -/
def JournalShaped (dbId txId : UInt32) (w : World) : Prop :=
  ∃ ops, w.kvs.txns.active.get txId = some ⟨dbId, ops⟩ ∧ ∀ op : UndoOp, op ∈ ops →
    ∀ row, op.value = some row → Shaped w.kvs (op.key dbId) row

omit [Externals] in
theorem JournalShaped.begin (w : World) (dbId : UInt32) :
    JournalShaped dbId w.kvs.txns.nextId (w.begin dbId) :=
  ⟨[], IndexMap.get_insert_self .., fun _ hop => nomatch hop⟩

theorem JournalShaped.change {txId : UInt32} (h : JournalShaped dbId txId w) (hrows : RowShapes w.kvs)
    (hch : ShapedChange dbId (some txId) w w') : JournalShaped dbId txId w' := by
  obtain ⟨ops, hactive, hops⟩ := h
  have hschemas := hch.schemas
  cases hch with
  | draw table => exact ⟨ops, hactive, hops⟩
  | store k copy after hdb hstore hcopy hshaped =>
      refine ⟨ops ++ [undoEntry k copy after], ?_, fun op hop row hvalue => ?_⟩
      · rw [store_active, if_pos rfl, hactive]
        rfl
      · rcases List.mem_append.mp hop with hop | hop
        · exact (hops op hop row hvalue).of_schemas hschemas
        · obtain rfl := List.mem_singleton.mp hop
          rw [undoEntry_value] at hvalue
          rw [← hdb, undoEntry_key]
          rcases hcopy with rfl | hcopy
          · exact nomatch hvalue
          · exact (hrows k row (hcopy.trans hvalue)).of_schemas hschemas

/-- Undoing puts back rows with the shape of their tables. -/
theorem RowShapes.rollback {txId : UInt32} (h : RowShapes w.kvs) (hjournal : JournalShaped dbId txId w) :
    RowShapes (w.rollback txId).kvs := by
  obtain ⟨ops, hactive, hops⟩ := hjournal
  intro k row hrow
  refine Shaped.of_schemas ?_ (rollback_schemas w txId)
  rw [rollback_eq, hactive] at hrow
  simp only [undoAll_row_eq] at hrow
  cases hfind : ops.find? fun op => op.key dbId = k with
  | none =>
      rw [hfind] at hrow
      exact h k row hrow
  | some op =>
      rw [hfind] at hrow
      simp only at hrow
      split_ifs at hrow
      have hkey : op.key dbId = k := by simpa using List.find?_some hfind
      exact hkey ▸ hops op (List.mem_of_find?_eq_some hfind) row hrow

section Statements

variable {fire : Fire} (hfire : QuietFire dbId fire) (hno : NoTriggers w.kvs dbId)

/-- What the rows of an INSERT that are still to come rely on. -/
structure Fitting (dbId : UInt32) (table : String) (schema : TableSchema) (rows : List Row)
    (w : World) : Prop where
  noTriggers : NoTriggers w.kvs dbId
  store : w.kvs.hasStore dbId table = true
  rows : ∀ row ∈ rows, row.keys <+: schema.columns.keys
  schema : w.kvs.getSchema dbId table = some schema

include hfire

theorem insertRow_shaped {table : String} {schema : TableSchema} (affected : UInt64) {row : Row}
    {rows : List Row} (h : Fitting dbId table schema (row :: rows) w) :
    let w' := (exec (insertRow fire dbId table schema txId affected row) w).2
    ShapedChanges dbId txId w w' ∧ Fitting dbId table schema rows w' := by
  have hrest : Fitting dbId table schema rows (w.draw dbId table) :=
    ⟨h.noTriggers, h.store, fun r hr => h.rows r (List.mem_cons_of_mem row hr), h.schema⟩
  have hdraw : ShapedChange dbId txId w (w.draw dbId table) := .draw w table
  rcases insertRow_cases (hfire table) (h.noTriggers table) schema affected row with heq | ⟨-, heq⟩
  · rw [heq]
    exact ⟨.single hdraw, hrest⟩
  · have hstored : ShapedChange dbId txId (w.draw dbId table) ((w.draw dbId table).store txId
        ⟨dbId, table, w.kvs.rowidCounter dbId table⟩ none
          (some (withDefaults schema (w.kvs.rowidCounter dbId table) row))) := by
      refine .store _ _ none _ rfl hrest.store (Or.inl rfl) fun row' hrow' => ?_
      obtain rfl := Option.some.inj hrow'
      exact ⟨schema, h.schema, (keys_withDefaults_iff _ row).mpr (h.rows row List.mem_cons_self)⟩
    rw [heq]
    refine ⟨.tail (.single hdraw) hstored, hrest.noTriggers.of_triggers hstored.triggers, ?_,
      hrest.rows, ?_⟩
    · rw [store_hasStore]
      exact hrest.store
    · rw [KvsState.getSchema, hstored.schemas]
      exact hrest.schema

include hno

theorem executeInsert_shaped {fuel : Nat} {table : String} {columns : List Ident}
    {source : Option Query} {params : List Value}
    (hrows : ∀ schema rows, w.kvs.getSchema dbId table = some schema →
      candidateRows w.kvs fuel dbId schema columns source params = .ok rows →
        ∀ row ∈ rows, row.keys <+: schema.columns.keys) :
    Moves (ShapedChanges dbId txId)
      (executeInsert fire fuel dbId table columns source params txId) w :=
  moves_executeInsert fun schema rows hschema hstore hok =>
    moves_foldlM_of_pending (Fitting dbId table schema) _
      (fun affected _ _ _ hv => insertRow_shaped hfire affected hv) _ _ _
      ⟨hno, hstore, hrows schema rows hschema hok, hschema⟩

theorem executeUpdate_shaped (hshapes : RowShapes w.kvs) {relation : TableFactor}
    {assignments : List Assignment} {selection : Option Expr} {params : List Value}
    (hcols : ∀ schema store, w.kvs.getSchema dbId relation.name = some schema →
      w.kvs.getTableStore dbId relation.name = some store →
        matchingRows w.kvs dbId store selection params (setParamCount assignments) ≠ [] →
          ∀ a ∈ assignments, assignedColumn a ∈ schema.columns.keys) :
    Moves (ShapedChanges dbId txId)
      (executeUpdate fire dbId relation assignments selection params txId) w := by
  refine moves_executeUpdate fun schema store hschema hstore => ?_
  refine moves_foldlM_of_pending
    (fun entries v => Pending dbId relation.name (some schema) entries v ∧ RowShapes v.kvs ∧
      (entries ≠ [] → ∀ a ∈ assignments, assignedColumn a ∈ schema.columns.keys)) _
    (fun affected entry entries v hv => ?_) _ _ _
    ⟨hschema ▸ Pending.of_matchingRows (hno relation.name) hstore selection params _, hshapes,
      hcols schema store hschema hstore⟩
  obtain ⟨hpending, hrows, hassigned⟩ := hv
  obtain ⟨rowid, oldRow⟩ := entry
  have hrow := hpending.rows (rowid, oldRow) List.mem_cons_self
  have hset := hassigned (List.cons_ne_nil _ entries)
  have hrest : QuietChangesIn dbId txId relation.name v _ ∧ _ :=
    hpending.tail (updateRow_quiet (hfire _) hpending.noTriggers hpending.store hpending.schema assignments
      params affected rowid oldRow hrow)
  rcases updateRow_cases (hfire _) hpending.noTriggers schema assignments params affected (rowid, oldRow) with
    heq | ⟨-, heq⟩
  · rw [heq] at hrest
    rw [Moves, heq]
    exact ⟨.refl, hrest.2, hrows, fun _ => hset⟩
  · have hstored : ShapedChange dbId txId v (v.store txId ⟨dbId, relation.name, rowid⟩
        (some oldRow) (some (updatedRow assignments params oldRow))) := by
      refine .store v _ _ _ rfl hpending.store (Or.inr hrow) fun row' hrow' => ?_
      obtain rfl := Option.some.inj hrow'
      obtain ⟨schema', hschema', hkeys⟩ := hrows _ _ hrow
      obtain rfl := Option.some.inj (hschema'.symm.trans hpending.schema)
      exact ⟨schema', hschema', (keys_updatedRow params fun a ha => hkeys ▸ hset a ha).trans hkeys⟩
    rw [heq] at hrest
    rw [Moves, heq]
    exact ⟨.single hstored, hrest.2, hrows.change hstored, fun _ => hset⟩

end Statements

/-! ### CREATE TABLE and ALTER TABLE -/

omit [Externals] in
/-- Schemas of other databases and of other tables stay. -/
theorem getSchema_setSchema_on (s : KvsState) (dbId dbId' : UInt32) (table table' : String)
    (schema : TableSchema) :
    (s.setSchema dbId table schema).getSchema dbId' table' =
      if dbId' = dbId ∧ table' = table then some schema else s.getSchema dbId' table' := by
  by_cases hdb : dbId' = dbId
  · subst hdb
    rw [getSchema_setSchema]
    simp only [true_and]
  · rw [if_neg fun h => hdb h.1]
    simp only [KvsState.getSchema, KvsState.setSchema, IndexMap.get_insert, if_neg hdb]

theorem RowShapes.editTable {s : KvsState} {table : String} {schema : TableSchema}
    {op : AlterTableOperation} (h : RowShapes s) (hschema : s.getSchema dbId table = some schema)
    (happ : op.Applies schema)
    (hfits : (∀ rowid, s.row ⟨dbId, table, rowid⟩ = none) ∨ op.fits schema) :
    RowShapes (editTable s dbId table schema op) := by
  rintro ⟨dbId', x, rowid⟩ row hrow
  have hget : (Skvs.editTable s dbId table schema op).getSchema dbId' x =
      if dbId' = dbId ∧ x = table then some (op.editSchema schema) else s.getSchema dbId' x :=
    getSchema_setSchema_on ..
  by_cases hdb : dbId' = dbId
  · subst hdb
    rw [row_editTable] at hrow
    obtain ⟨old, hold, rfl⟩ := Option.map_eq_some_iff.mp hrow
    obtain ⟨schema', hschema', hkeys⟩ := h _ _ hold
    by_cases hx : x = table
    · subst hx
      obtain rfl := Option.some.inj (hschema'.symm.trans hschema)
      refine ⟨op.editSchema schema', hget.trans (if_pos ⟨rfl, rfl⟩), ?_⟩
      rcases hfits with hnone | hfits
      · exact nomatch (hnone rowid).symm.trans hold
      · rw [AlterTableOperation.editedRow, if_pos rfl]
        exact op.keys_editRow happ hfits hkeys
    · refine ⟨schema', (hget.trans (if_neg fun hand => hx hand.2)).trans hschema', ?_⟩
      rw [AlterTableOperation.editedRow, if_neg hx]
      exact hkeys
  · have hsame : (Skvs.editTable s dbId table schema op).row ⟨dbId', x, rowid⟩ =
        s.row ⟨dbId', x, rowid⟩ := by
      have hstore : (Skvs.editTable s dbId table schema op).getTableStore dbId' x =
          s.getTableStore dbId' x :=
        (getTableStore_modifyStore ..).trans (if_neg fun hand => hdb hand.1)
      rw [KvsState.row, KvsState.rowAt, hstore]
      rfl
    obtain ⟨schema', hschema', hkeys⟩ := h _ _ (hsame.symm.trans hrow)
    exact ⟨schema', (hget.trans (if_neg fun hand => hdb hand.1)).trans hschema', hkeys⟩

/-- An operation on a column stops before it changes anything, or does all it does. -/
theorem alterOperation_cases {op : AlterTableOperation} (hop : op.onColumn = true) (table : String)
    (w : World) :
    (∃ e, exec (alterOperation dbId table op) w = (.error e, w)) ∨
      ∃ w' schema, exec (alterOperation dbId table op) w = (.ok table, w') ∧
        w.kvs.getSchema dbId table = some schema ∧ op.Applies schema ∧
          w'.kvs = editTable w.kvs dbId table schema op := by
  cases hschema : w.kvs.getSchema dbId table with
  | none =>
      left
      cases op with
      | addColumn | dropColumn | renameColumn =>
          rw [alterOperation, exec_bind, exec_read]
          simp only [hschema]
          exact ⟨_, rfl⟩
      | renameTable | other => cases hop
  | some schema =>
      have hcases : (∃ e, exec (alterOperation dbId table op) w = (.error e, w)) ∨
          ∃ w', exec (alterOperation dbId table op) w = (.ok table, w') := by
        cases op with
        | addColumn | dropColumn =>
            rw [alterOperation, exec_bind, exec_read]
            simp only [hschema, pure_bind]
            split
            · exact Or.inl ⟨_, rfl⟩
            · exact Or.inr ⟨_, rfl⟩
        | renameColumn old new =>
            rw [alterOperation, exec_bind, exec_read]
            simp only [hschema, pure_bind]
            cases schema.columns.get old.value with
            | none => exact Or.inl ⟨_, rfl⟩
            | some colDef =>
                simp only [orRaise, pure_bind]
                split
                · exact Or.inl ⟨_, rfl⟩
                · exact Or.inr ⟨_, rfl⟩
        | renameTable | other => cases hop
      rcases hcases with herr | ⟨w', hok⟩
      · exact Or.inl herr
      · obtain ⟨happ, hw'⟩ := exec_alterOperation hop hschema hok
        exact Or.inr ⟨w', schema, hok, rfl, happ, hw'⟩

/-- Every operation treats the rows as it treats the schema, as the earlier ones have left it. -/
def OpsFit (schema : TableSchema) : List AlterTableOperation → Prop
  | [] => True
  | op :: ops => op.fits schema ∧ OpsFit (op.editSchema schema) ops

/-- What the rows of a database without triggers have. -/
structure ShapesKept (w : World) : Prop where
  shapes : RowShapes w.kvs
  noTriggers : ∀ dbId, NoTriggers w.kvs dbId

theorem alterOperations_shaped {ops : List AlterTableOperation} {table : String}
    (hops : ∀ op ∈ ops, op.onColumn = true) (h : ShapesKept w)
    (hfits : ∀ schema, w.kvs.getSchema dbId table = some schema →
      (∀ rowid, w.kvs.row ⟨dbId, table, rowid⟩ = none) ∨ OpsFit schema ops) :
    ShapesKept (exec (ops.foldlM (alterOperation dbId) table) w).2 := by
  induction ops generalizing w with
  | nil => exact h
  | cons op ops ih =>
      rw [List.foldlM_cons]
      rcases alterOperation_cases (hops op List.mem_cons_self) table w with
        ⟨e, herr⟩ | ⟨w', schema, hok, hschema, happ, hw'⟩
      · rw [exec_bind_error herr]
        exact h
      · rw [exec_bind_ok hok]
        have hfit := hfits schema hschema
        refine ih (fun op' hop' => hops op' (List.mem_cons_of_mem op hop')) ⟨?_, fun db => ?_⟩
          fun schema' hschema' => ?_
        · rw [hw']
          exact h.shapes.editTable hschema happ (hfit.imp_right And.left)
        · exact (h.noTriggers db).of_triggers (by rw [hw']; rfl)
        · rw [hw', editTable, getSchema_setSchema, if_pos rfl] at hschema'
          obtain rfl := Option.some.inj hschema'
          refine hfit.imp (fun hnone rowid => ?_) And.right
          rw [hw', row_editTable, hnone rowid]
          rfl

theorem ShapesKept.alterTable (h : ShapesKept w) {name : String} {ifExists : Bool}
    {ops : List AlterTableOperation} (hops : ∀ op ∈ ops, op.onColumn = true)
    (hfits : ∀ schema, w.kvs.getSchema dbId name = some schema →
      (∀ rowid, w.kvs.row ⟨dbId, name, rowid⟩ = none) ∨ OpsFit schema ops) :
    ShapesKept (exec (alterTable dbId name ifExists ops) w).2 := by
  rw [Skvs.alterTable, exec_bind_ok (exec_read _ w)]
  cases hdb : w.kvs.schemas.get dbId with
  | none => exact h
  | some schemas =>
      simp only [orRaise, pure_bind]
      split
      · split <;> exact h
      · rw [exec_bind_pure_snd]
        exact alterOperations_shaped hops h hfits

theorem ShapesKept.createTable (h : ShapesKept w) (name : String) (columns : List SqlColumnDef)
    (constraints : List TableConstraint) (ifNotExists : Bool) :
    ShapesKept (exec (createTable dbId name columns constraints ifNotExists) w).2 := by
  have hensured : ∀ db x, KvsState.getSchema
      { w.kvs with schemas := w.kvs.schemas.insertIfNew dbId ∅ } db x = w.kvs.getSchema db x := by
    intro db x
    simp only [KvsState.getSchema, IndexMap.get_insertIfNew]
    split_ifs with hdb
    · rw [hdb, Option.bind_some, getD_get]
    · rfl
  have hkept : ShapesKept
      { w with kvs := { w.kvs with schemas := w.kvs.schemas.insertIfNew dbId ∅ } } := by
    refine ⟨fun k row hrow => ?_, h.noTriggers⟩
    obtain ⟨schema, hschema, hkeys⟩ := h.shapes k row hrow
    exact ⟨schema, (hensured _ _).trans hschema, hkeys⟩
  rw [Skvs.createTable, ensureSchemas, exec_bind_ok (p := onState _) rfl,
    exec_bind_ok (exec_read ..)]
  simp only [hensured]
  cases hschema : w.kvs.getSchema dbId name with
  | some schema =>
      simp only [Option.isSome_some, if_true]
      split <;> exact hkept
  | none =>
      simp only [Option.isSome_none, Bool.false_eq_true, if_false]
      refine ⟨?_, h.noTriggers⟩
      rintro ⟨db, x, rowid⟩ row hrow
      have hstore := congrArg TableEntry.store (tableEntry_freshTable
        (KvsState.setSchema { w.kvs with schemas := w.kvs.schemas.insertIfNew dbId ∅ } dbId name
          (buildSchema name columns constraints)) dbId db name x)
      rw [KvsState.row, KvsState.rowAt] at hrow
      obtain ⟨store, hget, hrow⟩ := Option.bind_eq_some_iff.mp hrow
      have hget' := hstore.symm.trans hget
      split_ifs at hget' with hsame
      · obtain rfl := Option.some.inj hget'
        cases hrow
      · obtain ⟨schema, hold, hkeys⟩ := hkept.shapes ⟨db, x, rowid⟩ row
          (Option.bind_eq_some_iff.mpr ⟨store, hget', hrow⟩)
        refine ⟨schema, ?_, hkeys⟩
        exact ((getSchema_setSchema_on ..).trans (if_neg hsame)).trans hold

/-- The statements of the kinds that make tables, change their columns and write their rows. -/
def Statement.onShapes : Statement → Bool
  | .createTable .. | .insert .. | .update .. => true
  | .alterTable _ _ ops => ops.all AlterTableOperation.onColumn
  | _ => false

/-- A statement gives rows the columns that the schema has, in its order: the rows of an INSERT start
with the first columns, and an UPDATE sets columns of the table. -/
def Statement.fits (dbId : UInt32) (fuel : Nat) (params : List Value) (s : KvsState) :
    Statement → Prop
  | .insert table columns source => ∀ schema rows, s.getSchema dbId table = some schema →
      candidateRows s (fuel - 1) dbId schema columns source params = .ok rows →
        ∀ row ∈ rows, row.keys <+: schema.columns.keys
  | .update table assignments selection => ∀ schema store,
      s.getSchema dbId table.relation.name = some schema →
        s.getTableStore dbId table.relation.name = some store →
          matchingRows s dbId store selection params (setParamCount assignments) ≠ [] →
            ∀ a ∈ assignments, assignedColumn a ∈ schema.columns.keys
  | .alterTable name _ ops => ∀ schema, s.getSchema dbId name = some schema →
      (∀ rowid, s.row ⟨dbId, name, rowid⟩ = none) ∨ OpsFit schema ops
  | _ => True

/-! ### Runs -/

theorem ShapesKept.changes (h : ShapesKept w) (hch : ShapedChanges dbId txId w w') :
    ShapesKept w' := by
  induction hch with
  | refl => exact h
  | tail _ hstep ih =>
      exact ⟨ih.shapes.change hstep, fun db => (ih.noTriggers db).of_triggers hstep.triggers⟩

theorem JournalShaped.changes {txId : UInt32} (h : JournalShaped dbId txId w) (hw : ShapesKept w)
    (hch : ShapedChanges dbId (some txId) w w') : JournalShaped dbId txId w' := by
  induction hch with
  | refl => exact h
  | tail hsteps hstep ih => exact ih.change (hw.changes hsteps).shapes hstep

theorem executeSingleStatement_shaped (h : ShapesKept w) {stmt : Statement}
    (hkind : stmt.onShapes = true) (hwrite : stmt.isWrite = true) {fuel : Nat} {params : List Value}
    (hfits : stmt.fits dbId fuel params w.kvs) :
    Moves (ShapedChanges dbId txId) (executeSingleStatement fuel dbId stmt params txId) w := by
  cases fuel with
  | zero => exact moves_fail _ w
  | succ fuel =>
      have hfire := fireTriggers_quiet dbId fun s => executeSingleStatement fuel dbId s [] txId
      cases stmt with
      | insert table columns source => exact executeInsert_shaped hfire (h.noTriggers dbId) hfits
      | update table assignments selection =>
          exact executeUpdate_shaped hfire (h.noTriggers dbId) h.shapes hfits
      | delete => exact nomatch hkind
      | _ => exact nomatch hwrite

omit [Externals] in
theorem ShapesKept.withTxns (h : ShapesKept w) (txns : TxnManager) :
    ShapesKept { w with kvs := { w.kvs with txns } } :=
  ⟨h.shapes, h.noTriggers⟩

theorem executeAtomically_shaped (h : ShapesKept w) {stmt : Statement}
    (hkind : stmt.onShapes = true) (hwrite : stmt.isWrite = true) {fuel : Nat} {params : List Value}
    (hfits : stmt.fits dbId fuel params (w.begin dbId).kvs) :
    ShapesKept (exec (executeAtomically fuel dbId stmt params) w).2 := by
  have hbegun : ShapesKept (w.begin dbId) := h.withTxns _
  have hmoves : ShapedChanges dbId (some w.kvs.txns.nextId) _ _ :=
    executeSingleStatement_shaped hbegun hkind hwrite hfits
  have hjournal := (JournalShaped.begin w dbId).changes hbegun hmoves
  have hafter := hbegun.changes hmoves
  rcases executeAtomically_ends fuel dbId stmt params w with heq | heq | heq
  · obtain ⟨_, hframe⟩ := commit_frame
      (exec (executeSingleStatement fuel dbId stmt params (some w.kvs.txns.nextId)) (w.begin dbId)).2
      w.kvs.txns.nextId
    rw [heq, hframe]
    exact hafter.withTxns _
  · rw [heq]
    exact ⟨hafter.shapes.rollback hjournal,
      fun db => (hafter.noTriggers db).of_triggers (rollback_triggers _ _)⟩
  · exact heq ▸ hafter

/-- An UPDATE fits if it sets columns of the table only. -/
theorem Statement.fits_update {fuel : Nat} {params : List Value} {s : KvsState}
    {table : TableWithJoins} {assignments : List Assignment} {selection : Option Expr}
    (h : ∀ schema ∈ s.getSchema dbId table.relation.name,
      ∀ a ∈ assignments, assignedColumn a ∈ schema.columns.keys) :
    (Statement.update table assignments selection).fits dbId fuel params s :=
  fun schema _ hschema _ _ => h schema hschema

/-- The statement of a call fits the state in which it starts. -/
def Call.fits (dbId : UInt32) (c : Call) (w : World) : Prop :=
  c.stmt.fits dbId c.fuel c.params (if c.begins then w.begin dbId else w).kvs

theorem ShapesKept.call (h : ShapesKept w) {c : Call} (hkind : c.stmt.onShapes = true)
    (hfits : c.fits dbId w) : ShapesKept (c.run dbId w) := by
  obtain ⟨stmt, params, txId, fuel⟩ := c
  cases stmt with
  | insert | update =>
      cases txId with
      | none => exact executeAtomically_shaped h hkind rfl hfits
      | some id => exact h.changes (executeSingleStatement_shaped h hkind rfl hfits)
  | createTable name columns constraints ifNotExists =>
      cases fuel with
      | zero => cases txId <;> exact h
      | succ fuel => cases txId <;> exact h.createTable name columns constraints ifNotExists
  | alterTable name ifExists ops =>
      have hops : ∀ op ∈ ops, op.onColumn = true := List.all_eq_true.mp hkind
      have hfits' : ∀ schema, w.kvs.getSchema dbId name = some schema →
          (∀ rowid, w.kvs.row ⟨dbId, name, rowid⟩ = none) ∨ OpsFit schema ops := by
        cases txId <;> exact hfits
      cases fuel with
      | zero => cases txId <;> exact h
      | succ fuel => cases txId <;> exact h.alterTable hops hfits'
  | _ => exact nomatch hkind

/-- Every statement of a run fits the state that it finds. -/
def FitAlong : List (UInt32 × Call) → World → Prop
  | [], _ => True
  | (dbId, c) :: calls, w => c.fits dbId w ∧ FitAlong calls (c.run dbId w)

/-- From an empty server on, CREATE TABLE, operations on columns, INSERT and UPDATE keep the columns of
every row those of its schema, in the order of the schema, if every statement of the run fits. -/
theorem row_keys_along_run (databases : List UInt32) (calls : List (UInt32 × Call))
    (hkinds : ∀ c ∈ calls, c.2.stmt.onShapes = true)
    (hfits : FitAlong calls ⟨.new databases, []⟩) {dbId : UInt32} {table : String} {rowid : RowId}
    {row : Row}
    (hrow : (runCallsOn calls ⟨.new databases, []⟩).kvs.row ⟨dbId, table, rowid⟩ = some row) :
    ∃ schema, (runCallsOn calls ⟨.new databases, []⟩).kvs.getSchema dbId table = some schema ∧
      row.keys = schema.columns.keys := by
  have hrun : ∀ (calls : List (UInt32 × Call)) (w : World), ShapesKept w →
      (∀ c ∈ calls, c.2.stmt.onShapes = true) → FitAlong calls w →
        ShapesKept (runCallsOn calls w) := by
    intro calls
    induction calls with
    | nil => exact fun w h _ _ => h
    | cons c calls ih =>
        intro w h hkinds hfits
        exact ih _ (h.call (hkinds c List.mem_cons_self) hfits.1)
          (fun c' hc' => hkinds c' (List.mem_cons_of_mem c hc')) hfits.2
  have hempty : ShapesKept ⟨.new databases, []⟩ :=
    ⟨fun k row hrow => (nomatch (row_new databases k).symm.trans hrow), noTriggers_new databases⟩
  exact (hrun calls _ hempty hkinds hfits).shapes _ row hrow

end

namespace Sample

/-- `CREATE TABLE table (a INT, b INT)`. -/
def createTwo (table : String) : Statement :=
  .createTable table [⟨name "a", .int, []⟩, ⟨name "b", .int, []⟩] [] false

/-- `INSERT INTO t (columns) VALUES (values)`. -/
def insertColumns (columns : List String) (values : List SqlValue) : Statement :=
  .insert "t" (columns.map name) (some ⟨.values [values.map .value], [], none, none⟩)

/-- The columns of a row. -/
def columnsAt (s : KvsState) (table : String) (rowid : RowId) : List String :=
  ((s.row ⟨0, table, rowid⟩).map IndexMap.keys).getD []

/-- An INSERT of the first column, an UPDATE of it and a third column. -/
def shapedCalls : List (UInt32 × Call) :=
  [(0, call (createTwo "t") none), (0, call (insertColumns ["a"] [.number "1"]) none),
    (0, call (update "5") none),
    (0, call (.alterTable "t" false [.addColumn ⟨name "c", .int, []⟩]) none)]

end Sample

/-- The row has all three columns. -/
theorem row_keys_after_add :
    letI := Externals.ofTexts [] []
    let w := runCallsOn Sample.shapedCalls ⟨.new [0], []⟩
    Sample.columnsAt w.kvs "t" 1 = ["a", "b", "c"] ∧ ∀ row, w.kvs.row ⟨0, "t", 1⟩ = some row →
      ∃ schema, w.kvs.getSchema 0 "t" = some schema ∧ row.keys = schema.columns.keys := by
  let _ := Externals.ofTexts [] []
  refine ⟨by decide, fun row hrow => row_keys_along_run [0] Sample.shapedCalls
    (by decide) ⟨trivial, forall_candidateRows (by decide),
      Statement.fits_update (by decide), fun _ _ => Or.inr ⟨trivial, trivial⟩, trivial⟩ hrow⟩

/-- An INSERT that names the columns the other way round stores them so. -/
theorem row_keys_in_insert_order :
    letI := Externals.ofTexts [] []
    let w := runCallsOn [(0, Sample.call (Sample.createTwo "t") none),
      (0, Sample.call (Sample.insertColumns ["b", "a"] [.number "1", .number "2"]) none),
      (0, Sample.call (Sample.insertColumns ["a", "b"] [.number "3", .number "4"]) none)]
      ⟨.new [0], []⟩
    (w.kvs.getSchema 0 "t").map (fun schema => schema.columns.keys) = some ["a", "b"] ∧
      Sample.columnsAt w.kvs "t" 1 = ["b", "a"] ∧ Sample.columnsAt w.kvs "t" 2 = ["a", "b"] := by
  decide

end Skvs
