import Skvs.Rollback

/-!
# One row change, with everything kept in sync

INSERT, UPDATE, DELETE and each arm of the undo replay all do the same thing to the state: they set a
row, take the index and full-text entries of some copy of the old row out, and put those of the new
row in. They differ in which copy they use.
-/

namespace Skvs

/-- Where a row is stored. -/
structure Key where
  dbId : UInt32
  table : String
  rowid : RowId
  deriving DecidableEq

def KvsState.row (s : KvsState) (k : Key) : Option Row := s.rowAt k.dbId k.table k.rowid

def Write.key (x : Write) : Key := ⟨x.dbId, x.table, x.rowid⟩

def KvsState.hasStore (s : KvsState) (dbId : UInt32) (table : String) : Bool :=
  (s.getTableStore dbId table).isSome

/-! ### Rows -/

section Store

variable {s : KvsState} {dbId : UInt32} {table : String} {store : Store}
  (hstore : s.getTableStore dbId table = some store)
include hstore

theorem KvsState.row_of_store (rowid : RowId) : s.row ⟨dbId, table, rowid⟩ = store.get rowid := by
  rw [row, rowAt, hstore]
  rfl

theorem mem_store_iff {rowid : RowId} {row : Row} :
    (rowid, row) ∈ store.entries ↔ s.row ⟨dbId, table, rowid⟩ = some row := by
  rw [IndexMap.mem_entries_iff_get, KvsState.row_of_store hstore]

end Store

section Rows

variable (s : KvsState) (dbId : UInt32) (table : String) (f : Store → Store)

theorem getTableStore_modifyStore (dbId' : UInt32) (table' : String) :
    (s.modifyStore dbId table f).getTableStore dbId' table' =
      if dbId' = dbId ∧ table' = table then (s.getTableStore dbId' table').map f
      else s.getTableStore dbId' table' := by
  simp only [KvsState.getTableStore, KvsState.modifyStore, IndexMap.get_modify]
  by_cases hdb : dbId' = dbId
  · by_cases ht : table' = table <;> cases s.dbs.get dbId' <;> simp [hdb, ht]
  · simp [hdb]

theorem hasStore_modifyStore (dbId' : UInt32) (table' : String) :
    (s.modifyStore dbId table f).hasStore dbId' table' = s.hasStore dbId' table' := by
  rw [KvsState.hasStore, KvsState.hasStore, getTableStore_modifyStore]
  split_ifs
  · rw [Option.isSome_map]
  · rfl

theorem get_setRow (after : Option Row) (rowid : RowId) (store : Store) (r : RowId) :
    (setRow after rowid store).get r = if r = rowid then after else store.get r := by
  cases after with
  | some row => exact IndexMap.get_insert store rowid row r
  | none => exact IndexMap.get_erase store rowid r

theorem row_setRow (after : Option Row) (rowid : RowId) (h : s.hasStore dbId table = true)
    (k : Key) :
    (s.modifyStore dbId table (setRow after rowid)).row k =
      if k = ⟨dbId, table, rowid⟩ then after else s.row k := by
  obtain ⟨db, t, r⟩ := k
  obtain ⟨store, hstore⟩ := Option.isSome_iff_exists.mp h
  simp only [KvsState.row, KvsState.rowAt, getTableStore_modifyStore, Key.mk.injEq]
  by_cases hdt : db = dbId ∧ t = table
  · obtain ⟨rfl, rfl⟩ := hdt
    simp only [and_self, if_true, hstore, Option.map_some, Option.bind_some, get_setRow, true_and]
  · rw [if_neg hdt, if_neg fun hk => hdt ⟨hk.1, hk.2.1⟩]

end Rows

/-! ### Index entries -/

/-- Take the entry of one row version out of an index and put that of another in. -/
def indexStep (dbId : UInt32) (table : String) (rowid : RowId) (copy after : Option Row)
    (s : KvsState) (idx : IndexDef) : KvsState :=
  let s := match copy with
    | some old => removeFromIndex s dbId table idx old rowid
    | none => s
  match after with
  | some row => addToIndex s dbId table idx row rowid
  | none => s

def indexChange (s : KvsState) (dbId : UInt32) (table : String) (rowid : RowId)
    (copy after : Option Row) : KvsState :=
  match s.getSchema dbId table with
  | none => s
  | some schema => schema.indices.foldl (indexStep dbId table rowid copy after) s

/-- The value an index files a row under. -/
def filed (idx : IndexDef) (row : Option Row) : Option Value := row.bind (indexValue idx)

def removeFiled (rowid : RowId) (v : Option Value) (store : IndexStore) : IndexStore :=
  match v with
  | some v => removeId v rowid store
  | none => store

def addFiled (rowid : RowId) (v : Option Value) (store : IndexStore) : IndexStore :=
  match v with
  | some v => addId v rowid store
  | none => store

/-- What a change does to the entries of one index. -/
def changeEntries (rowid : RowId) (idx : IndexDef) (copy after : Option Row) (store : IndexStore) :
    IndexStore :=
  addFiled rowid (filed idx after) (removeFiled rowid (filed idx copy) store)

section IndexChange

variable (s : KvsState) (dbId : UInt32) (table : String) (rowid : RowId) (copy after : Option Row)

theorem updateIndexes_update (oldRow row : Row) :
    updateIndexes s dbId table row rowid (.update oldRow) =
      indexChange s dbId table rowid (some oldRow) (some row) := rfl

/-- The row an undone update replaces may be gone; its entries are then those of an empty row. -/
theorem updateIndexes_update_empty (row : Row) :
    updateIndexes s dbId table row rowid (.update ∅) =
      indexChange s dbId table rowid none (some row) := by
  rw [updateIndexes_update, indexChange, indexChange]
  cases s.getSchema dbId table with
  | none => rfl
  | some schema =>
      refine congrArg (fun f => schema.indices.foldl f s) (funext₂ fun s idx => ?_)
      have hempty : removeFromIndex s dbId table idx ∅ rowid = s := by
        rw [removeFromIndex, indexValue]
        cases idx.columns.head? <;> rfl
      simp only [indexStep, hempty]

theorem indexStore_modifyIndexStore (n : String) (f : IndexStore → IndexStore) (dbId' : UInt32)
    (table' n' : String) :
    (s.modifyIndexStore dbId table n f).indexStore dbId' table' n' =
      if dbId' = dbId ∧ table' = table ∧ n' = n then f (s.indexStore dbId' table' n')
      else s.indexStore dbId' table' n' := by
  simp only [KvsState.indexStore, KvsState.modifyIndexStore, IndexMap.getD, IndexMap.get_insert]
  by_cases hdb : dbId' = dbId
  · subst hdb
    by_cases htn : table' = table ∧ n' = n
    · obtain ⟨rfl, rfl⟩ := htn
      simp
    · simp [htn]
  · simp [hdb]

theorem indexStore_indexStep (idx : IndexDef) (dbId' : UInt32) (table' n : String) :
    (indexStep dbId table rowid copy after s idx).indexStore dbId' table' n =
      if dbId' = dbId ∧ table' = table ∧ n = idx.name then
        changeEntries rowid idx copy after (s.indexStore dbId' table' n)
      else s.indexStore dbId' table' n := by
  have hremove : ∀ old, (removeFromIndex s dbId table idx old rowid).indexStore dbId' table' n =
      if dbId' = dbId ∧ table' = table ∧ n = idx.name then
        removeFiled rowid (indexValue idx old) (s.indexStore dbId' table' n)
      else s.indexStore dbId' table' n := by
    intro old
    rw [removeFromIndex]
    cases indexValue idx old with
    | none => simp [removeFiled]
    | some v => exact indexStore_modifyIndexStore ..
  have hadd : ∀ (s : KvsState) row, (addToIndex s dbId table idx row rowid).indexStore dbId' table' n =
      if dbId' = dbId ∧ table' = table ∧ n = idx.name then
        addFiled rowid (indexValue idx row) (s.indexStore dbId' table' n)
      else s.indexStore dbId' table' n := by
    intro s row
    rw [addToIndex]
    cases indexValue idx row with
    | none => simp [addFiled]
    | some v => exact indexStore_modifyIndexStore ..
  cases copy <;> cases after <;>
    simp only [indexStep, changeEntries, filed, Option.bind_none, Option.bind_some, hadd, hremove,
      removeFiled, addFiled] <;> split_ifs <;> rfl

/-- An index that the fold does not name keeps its entries. -/
theorem indexStore_foldl_of_ne {indices : List IndexDef} {dbId' : UInt32} {table' n : String}
    (h : ¬(dbId' = dbId ∧ table' = table ∧ n ∈ indices.map IndexDef.name)) :
    (indices.foldl (indexStep dbId table rowid copy after) s).indexStore dbId' table' n =
      s.indexStore dbId' table' n := by
  induction indices generalizing s with
  | nil => rfl
  | cons idx indices ih =>
      rw [List.foldl_cons, ih _ fun hin => h ⟨hin.1, hin.2.1, List.mem_cons_of_mem _ hin.2.2⟩,
        indexStore_indexStep, if_neg]
      rintro ⟨hdb, ht, rfl⟩
      exact h ⟨hdb, ht, List.mem_cons_self⟩

/-- With distinct names, each index takes its own change and no other. -/
theorem indexStore_foldl {indices : List IndexDef} {idx : IndexDef}
    (hnames : (indices.map IndexDef.name).Nodup) (hidx : idx ∈ indices) :
    (indices.foldl (indexStep dbId table rowid copy after) s).indexStore dbId table idx.name =
      changeEntries rowid idx copy after (s.indexStore dbId table idx.name) := by
  induction indices generalizing s with
  | nil => exact absurd hidx List.not_mem_nil
  | cons idx' indices ih =>
      rw [List.map_cons, List.nodup_cons] at hnames
      rw [List.foldl_cons]
      rcases List.mem_cons.mp hidx with rfl | hin
      · rw [indexStore_foldl_of_ne _ _ _ _ _ _ fun hmem => hnames.1 hmem.2.2,
          indexStore_indexStep, if_pos ⟨rfl, rfl, rfl⟩]
      · have hne : idx.name ≠ idx'.name := fun heq =>
          hnames.1 (heq ▸ List.mem_map_of_mem hin)
        rw [ih _ hnames.2 hin, indexStore_indexStep, if_neg fun h => hne h.2.2]

theorem indexStep_frame (idx : IndexDef) :
    ∃ indexes, indexStep dbId table rowid copy after s idx = { s with indexes } := by
  cases copy with
  | none =>
      cases after with
      | none => exact ⟨_, rfl⟩
      | some row =>
          simp only [indexStep, addToIndex]
          cases indexValue idx row <;> exact ⟨_, rfl⟩
  | some old =>
      cases after with
      | none =>
          simp only [indexStep, removeFromIndex]
          cases indexValue idx old <;> exact ⟨_, rfl⟩
      | some row =>
          simp only [indexStep, addToIndex, removeFromIndex]
          cases indexValue idx old <;> cases indexValue idx row <;> exact ⟨_, rfl⟩

/-- Keeping the indexes in sync touches nothing but them. -/
theorem indexChange_frame :
    ∃ indexes, indexChange s dbId table rowid copy after = { s with indexes } := by
  rw [indexChange]
  cases s.getSchema dbId table with
  | none => exact ⟨_, rfl⟩
  | some schema =>
      simp only
      generalize schema.indices = indices
      induction indices generalizing s with
      | nil => exact ⟨_, rfl⟩
      | cons idx indices ih =>
          obtain ⟨indexes, hstep⟩ := indexStep_frame s dbId table rowid copy after idx
          rw [List.foldl_cons, hstep]
          exact ih { s with indexes }

end IndexChange

/-! ### The whole change -/

section Change

variable (s : KvsState) (k : Key) (copy after : Option Row)

/-- Set a row, and move its index entries from `copy` to the new version. -/
def setIndexed : KvsState :=
  indexChange (s.modifyStore k.dbId k.table (setRow after k.rowid)) k.dbId k.table k.rowid copy after

/-- `s'` is `s` with a row set and its index entries moved from `copy`; the full-text indexes may
have changed too. -/
def Sets (s' : KvsState) : Prop :=
  ∃ ftsTables, s' = { setIndexed s k copy after with ftsTables }

theorem setIndexed_frame :
    ∃ indexes, setIndexed s k copy after =
      { s.modifyStore k.dbId k.table (setRow after k.rowid) with indexes } :=
  indexChange_frame ..

end Change

namespace Sets

variable {s s' : KvsState} {k : Key} {copy after : Option Row} (h : Sets s k copy after s')
include h

theorem frame :
    ∃ indexes ftsTables, s' =
      { s.modifyStore k.dbId k.table (setRow after k.rowid) with indexes, ftsTables } := by
  obtain ⟨ftsTables, rfl⟩ := h
  obtain ⟨indexes, hidx⟩ := setIndexed_frame s k copy after
  exact ⟨indexes, ftsTables, by rw [hidx]⟩

theorem schemas : s'.schemas = s.schemas := by
  obtain ⟨_, _, rfl⟩ := h.frame
  rfl

theorem triggers : s'.triggers = s.triggers := by
  obtain ⟨_, _, rfl⟩ := h.frame
  rfl

theorem txns : s'.txns = s.txns := by
  obtain ⟨_, _, rfl⟩ := h.frame
  rfl

theorem hasStore (dbId : UInt32) (table : String) : s'.hasStore dbId table = s.hasStore dbId table := by
  obtain ⟨_, _, rfl⟩ := h.frame
  exact hasStore_modifyStore s k.dbId k.table _ dbId table

theorem row (hstore : s.hasStore k.dbId k.table = true) (k' : Key) :
    s'.row k' = if k' = k then after else s.row k' := by
  obtain ⟨_, _, rfl⟩ := h.frame
  exact row_setRow s k.dbId k.table after k.rowid hstore k'

theorem indexStore {schema : TableSchema} {idx : IndexDef}
    (hschema : s.getSchema k.dbId k.table = some schema)
    (hnames : (schema.indices.map IndexDef.name).Nodup) (hidx : idx ∈ schema.indices) :
    s'.indexStore k.dbId k.table idx.name =
      changeEntries k.rowid idx copy after (s.indexStore k.dbId k.table idx.name) := by
  obtain ⟨_, rfl⟩ := h
  have hschema' : (s.modifyStore k.dbId k.table (setRow after k.rowid)).getSchema k.dbId k.table =
      some schema := hschema
  change (setIndexed s k copy after).indexStore _ _ _ = _
  rw [setIndexed, indexChange, hschema']
  exact indexStore_foldl _ _ _ _ _ _ hnames hidx

theorem indexStore_of_ne {dbId : UInt32} {table : String}
    (hne : ¬(dbId = k.dbId ∧ table = k.table)) (n : String) :
    s'.indexStore dbId table n = s.indexStore dbId table n := by
  obtain ⟨_, rfl⟩ := h
  change (setIndexed s k copy after).indexStore _ _ _ = _
  rw [setIndexed, indexChange]
  split
  · rfl
  · exact indexStore_foldl_of_ne _ _ _ _ _ _ fun hin => hne ⟨hin.1, hin.2.1⟩

end Sets

section Synced

variable [Externals] (s : KvsState)

theorem syncFtsIndex_frame (dbId : UInt32) (table : String) (rowid : RowId) (row : Option Row)
    (isDelete : Bool) :
    ∃ ftsTables, syncFtsIndex s dbId table rowid row isDelete = { s with ftsTables } := by
  rw [syncFtsIndex]
  split
  · exact ⟨_, rfl⟩
  · split <;> exact ⟨_, rfl⟩

theorem syncFtsIndexChange_frame (dbId : UInt32) (table : String) (rowid : RowId)
    (oldRow newRow : Option Row) :
    ∃ ftsTables, syncFtsIndexChange s dbId table rowid oldRow newRow = { s with ftsTables } := by
  cases oldRow with
  | none =>
      cases newRow with
      | none => exact ⟨_, rfl⟩
      | some row => exact syncFtsIndex_frame ..
  | some old =>
      obtain ⟨fts, hfts⟩ := syncFtsIndex_frame s dbId table rowid (some old) true
      cases newRow with
      | none => exact ⟨fts, hfts⟩
      | some row =>
          simp only [syncFtsIndexChange, Option.isSome_some, if_true, hfts]
          exact syncFtsIndex_frame { s with ftsTables := fts } ..

variable (k : Key) (copy after : Option Row)

/-- Set a row, and move its index and full-text entries from `copy` to the new version. -/
def setSynced : KvsState :=
  syncFtsIndexChange (setIndexed s k copy after) k.dbId k.table k.rowid copy after

omit [Externals] in
theorem sets_setIndexed : Sets s k copy after (setIndexed s k copy after) := ⟨_, rfl⟩

theorem sets_setSynced : Sets s k copy after (setSynced s k copy after) :=
  syncFtsIndexChange_frame ..

end Synced

end Skvs
