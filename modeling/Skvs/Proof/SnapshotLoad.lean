import Skvs.Proof.Restore
import Skvs.Proof.RawMap
import Skvs.Lib.KeyedFold
import Skvs.Snapshot

/-!
# What a restart makes of the files

Loading goes through the databases, and in each through the tables, one at a time. A table that is
restored is seen as its dump says: its schema, its rows, a rowid counter above them, and indexes
made from them. Nothing else of the state is touched meanwhile.
-/

namespace Skvs

variable [Externals]

/-- The index that the rows of a table yield. -/
def rebuilt (idx : IndexDef) (rows : Store) : IndexStore :=
  (hashOrder rows.entries).foldl (fun store entry =>
    match indexValue idx entry.2 with
    | some val => store.upsert Value.compare val [] fun ids => ids ++ [entry.1]
    | none => store) ∅

/-- The indexes of a table by their names; of two with one name, the later one stays. -/
def rebuiltAll (indices : List IndexDef) (rows : Store) (index : String → IndexStore) :
    String → IndexStore :=
  indices.foldl (fun index idx => Function.update index idx.name (rebuilt idx rows)) index

/-- What the SQL side has for one table. -/
structure TableView where
  schema : Option TableSchema
  store : Option Store
  counter : UInt64
  index : String → IndexStore

def KvsState.tableView (s : KvsState) (dbId : UInt32) (table : String) : TableView where
  schema := s.getSchema dbId table
  store := s.getTableStore dbId table
  counter := s.rowidCounter dbId table
  index := s.indexStore dbId table

/-- What a table is seen as once it is restored. -/
def restoredView (t : Option TableSchema × List (RowId × Row)) (v : TableView) : TableView :=
  let schema := t.1.or v.schema
  let rows := t.2.foldl (fun store r => store.insert r.1 r.2) (v.store.getD ∅)
  { schema
    store := some rows
    counter := max v.counter (KvsState.maxRowid t.2 + 1)
    index := schema.elim v.index fun schema => rebuiltAll schema.indices rows v.index }

namespace KvsState

variable (s : KvsState) (dbId : UInt32)

/-! ### Rebuilding the indexes of a table -/

theorem rebuildIndex_eq {table : String} {rows : Store} (h : s.getTableStore dbId table = some rows)
    (idx : IndexDef) :
    rebuildIndex s dbId table idx = s.modifyIndexStore dbId table idx.name fun _ => rebuilt idx rows := by
  unfold rebuildIndex
  rw [h]
  rfl

theorem foldl_rebuildIndex {table : String} {rows : Store} (indices : List IndexDef)
    (h : s.getTableStore dbId table = some rows) :
    ∃ indexes,
      indices.foldl (fun s idx => rebuildIndex s dbId table idx) s = { s with indexes } ∧
        ∀ table' n, ({ s with indexes } : KvsState).indexStore dbId table' n =
          if table' = table then rebuiltAll indices rows (s.indexStore dbId table) n
          else s.indexStore dbId table' n := by
  induction indices generalizing s with
  | nil =>
      refine ⟨s.indexes, rfl, fun table' n => ?_⟩
      split_ifs with ht
      · rw [ht]
        rfl
      · rfl
  | cons idx indices ih =>
      have hstep := rebuildIndex_eq s dbId h idx
      obtain ⟨indexes, hfold, hindex⟩ :=
        ih (s.modifyIndexStore dbId table idx.name fun _ => rebuilt idx rows) h
      refine ⟨indexes, by rw [List.foldl_cons, hstep, hfold]; rfl, fun table' n => ?_⟩
      rw [show ({ s with indexes } : KvsState) =
        { s.modifyIndexStore dbId table idx.name fun _ => rebuilt idx rows with indexes } from rfl,
        hindex]
      have hupdate :
          (s.modifyIndexStore dbId table idx.name fun _ => rebuilt idx rows).indexStore dbId table =
            Function.update (s.indexStore dbId table) idx.name (rebuilt idx rows) := by
        funext n'
        rw [indexStore_modifyIndexStore, Function.update_apply]
        simp
      split_ifs with ht
      · rw [hupdate]
        rfl
      · rw [indexStore_modifyIndexStore, if_neg fun h => ht h.2.1]

theorem rebuildIndexes_eq {table : String} {rows : Store}
    (h : s.getTableStore dbId table = some rows) :
    ∃ indexes, s.rebuildIndexes dbId table = { s with indexes } ∧
      ∀ table' n, ({ s with indexes } : KvsState).indexStore dbId table' n =
        if table' = table then
          (s.getSchema dbId table).elim (s.indexStore dbId table)
            (fun schema => rebuiltAll schema.indices rows (s.indexStore dbId table)) n
        else s.indexStore dbId table' n := by
  unfold rebuildIndexes
  cases s.getSchema dbId table with
  | none =>
      refine ⟨s.indexes, rfl, fun table' n => ?_⟩
      split_ifs with ht
      · rw [ht]
        rfl
      · rfl
  | some schema => exact foldl_rebuildIndex s dbId schema.indices h

/-! ### One table -/

/-- A table restored up to its indexes. -/
def prepareTable (t : String × Option TableSchema × List (RowId × Row)) : KvsState :=
  let s :=
    match t.2.1 with
    | some schema => s.setSchema dbId t.1 schema
    | none => s
  let s := s.ensureStore dbId t.1
  let s := s.modifyStore dbId t.1 fun store => t.2.2.foldl (fun store r => store.insert r.1 r.2) store
  s.setMinNextRowid dbId t.1 (maxRowid t.2.2 + 1)

variable (t : String × Option TableSchema × List (RowId × Row))

omit [Externals] in
theorem prepareTable_frame :
    ∃ dbs schemas rowidGenerators,
      s.prepareTable dbId t = { s with dbs, schemas, rowidGenerators } := by
  obtain ⟨name, schema, rows⟩ := t
  cases schema <;> exact ⟨_, _, _, rfl⟩

omit [Externals] in
theorem getSchema_prepareTable (table : String) :
    (s.prepareTable dbId t).getSchema dbId table =
      if table = t.1 then t.2.1.or (s.getSchema dbId table) else s.getSchema dbId table := by
  obtain ⟨name, schema, rows⟩ := t
  cases schema with
  | none => exact (ite_self _).symm
  | some schema =>
      change (s.setSchema dbId name schema).getSchema dbId table = _
      simp only [getSchema, setSchema, IndexMap.get_insert, if_true, Option.bind_some, IndexMap.getD]
      split_ifs
      · rfl
      · cases s.schemas.get dbId <;> rfl

omit [Externals] in
theorem getTableStore_prepareTable (hdb : (s.dbs.get dbId).isSome) (table : String) :
    (s.prepareTable dbId t).getTableStore dbId table =
      if table = t.1 then
        some (t.2.2.foldl (fun store r => store.insert r.1 r.2)
          ((s.getTableStore dbId table).getD ∅))
      else s.getTableStore dbId table := by
  obtain ⟨db, hdb⟩ := Option.isSome_iff_exists.mp hdb
  have hdbs : (s.prepareTable dbId t).dbs =
      ((s.ensureStore dbId t.1).modifyStore dbId t.1 fun store =>
        t.2.2.foldl (fun store r => store.insert r.1 r.2) store).dbs := by
    obtain ⟨name, schema, rows⟩ := t
    cases schema <;> rfl
  unfold getTableStore
  rw [hdbs]
  simp only [modifyStore, ensureStore, IndexMap.get_modify, if_true, hdb, Option.map_some,
    Option.bind_some, IndexMap.get_insertIfNew, IndexMap.getD]
  split_ifs with ht
  · rw [Option.map_some, ht]
  · rfl

omit [Externals] in
theorem rowidCounter_prepareTable (table : String) :
    (s.prepareTable dbId t).rowidCounter dbId table =
      if table = t.1 then max (s.rowidCounter dbId table) (maxRowid t.2.2 + 1)
      else s.rowidCounter dbId table := by
  have hgens : (s.prepareTable dbId t).rowidGenerators =
      (s.setMinNextRowid dbId t.1 (maxRowid t.2.2 + 1)).rowidGenerators := by
    obtain ⟨name, schema, rows⟩ := t
    cases schema <;> rfl
  unfold rowidCounter
  rw [hgens]
  simp only [setMinNextRowid, rowidCounter, IndexMap.getD, IndexMap.get_insert, if_true,
    Option.getD_some]
  split_ifs with ht
  · rw [ht]
    rfl
  · rfl

theorem restoreTable_eq :
    s.restoreTable dbId t = (s.prepareTable dbId t).rebuildIndexes dbId t.1 := rfl

section

variable (hdb : (s.dbs.get dbId).isSome)
include hdb

/-- Restoring a table touches the rows, schemas, counters and indexes only. -/
theorem restoreTable_frame :
    ∃ dbs schemas rowidGenerators indexes,
      s.restoreTable dbId t = { s with dbs, schemas, rowidGenerators, indexes } := by
  have hstore := (getTableStore_prepareTable s dbId t hdb t.1).trans (if_pos rfl)
  obtain ⟨dbs, schemas, gens, hprepared⟩ := prepareTable_frame s dbId t
  obtain ⟨indexes, hrebuilt, -⟩ := rebuildIndexes_eq (s.prepareTable dbId t) dbId hstore
  refine ⟨dbs, schemas, gens, indexes, ?_⟩
  rw [restoreTable_eq, hrebuilt, hprepared]

theorem tableView_restoreTable (table : String) :
    (s.restoreTable dbId t).tableView dbId table =
      if table = t.1 then restoredView t.2 (s.tableView dbId table)
      else s.tableView dbId table := by
  have hstore := getTableStore_prepareTable s dbId t hdb
  have hschema := getSchema_prepareTable s dbId t
  have hcounter := rowidCounter_prepareTable s dbId t
  have hindex : (s.prepareTable dbId t).indexStore dbId = s.indexStore dbId := by
    obtain ⟨_, _, _, hframe⟩ := prepareTable_frame s dbId t
    rw [hframe]
    rfl
  rw [restoreTable_eq]
  generalize s.prepareTable dbId t = s₁ at *
  obtain ⟨indexes, hrebuilt, hindexes⟩ :=
    rebuildIndexes_eq s₁ dbId ((hstore t.1).trans (if_pos rfl))
  rw [hrebuilt]
  have hview : ({ s₁ with indexes } : KvsState).tableView dbId table =
      { s₁.tableView dbId table with
        index := ({ s₁ with indexes } : KvsState).indexStore dbId table } := rfl
  rw [hview, funext (hindexes table)]
  unfold tableView
  rw [hstore, hschema, hcounter, hindex]
  by_cases ht : table = t.1
  · subst ht
    simp only [if_true, hschema, restoredView]
  · simp only [if_neg ht]

theorem dbs_restoreTable : ((s.restoreTable dbId t).dbs.get dbId).isSome := by
  have hstore := (getTableStore_prepareTable s dbId t hdb t.1).trans (if_pos rfl)
  obtain ⟨indexes, hrebuilt, -⟩ := rebuildIndexes_eq (s.prepareTable dbId t) dbId hstore
  rw [restoreTable_eq, hrebuilt]
  obtain ⟨db, hget, -⟩ := Option.bind_eq_some_iff.mp hstore
  exact Option.isSome_iff_exists.mpr ⟨db, hget⟩

end

/-! ### All tables of a database -/

theorem restoreTables_eq {dump : SnapshotFile.Dump .tables} (hdb : (s.dbs.get dbId).isSome)
    (hnodup : (dump.map Prod.fst).Nodup) (table : String) :
    (s.restoreTables dbId dump).tableView dbId table =
      (dump.lookup table).elim (s.tableView dbId table)
        fun t => restoredView t (s.tableView dbId table) := by
  have hstart : ({ s with schemas := s.schemas.insertIfNew dbId ∅ } : KvsState).tableView dbId =
      s.tableView dbId := by
    funext table
    have hschema : ({ s with schemas := s.schemas.insertIfNew dbId ∅ } : KvsState).getSchema dbId
        table = s.getSchema dbId table := by
      simp only [getSchema, IndexMap.get_insertIfNew, if_true, Option.bind_some, IndexMap.getD]
      cases s.schemas.get dbId <;> rfl
    unfold tableView
    rw [hschema]
    rfl
  have hfold := (foldl_keyed (fun s t => restoreTable s dbId t) (fun s => s.tableView dbId)
    (fun _ t v => restoredView t v) (fun s => (s.dbs.get dbId).isSome)
    (fun s t hs => dbs_restoreTable s dbId t hs)
    (fun s t table hs => tableView_restoreTable s dbId t hs table) hnodup
    (s := { s with schemas := s.schemas.insertIfNew dbId ∅ }) hdb table).2
  rw [hstart] at hfold
  exact hfold

theorem restoreTables_frame (dump : SnapshotFile.Dump .tables) (hdb : (s.dbs.get dbId).isSome) :
    ∃ dbs schemas rowidGenerators indexes,
      s.restoreTables dbId dump = { s with dbs, schemas, rowidGenerators, indexes } := by
  have hfold : ∀ s : KvsState, (s.dbs.get dbId).isSome →
      ∃ dbs schemas rowidGenerators indexes,
        dump.foldl (fun s t => s.restoreTable dbId t) s =
          { s with dbs, schemas, rowidGenerators, indexes } := by
    intro s hdb
    induction dump generalizing s with
    | nil => exact ⟨_, _, _, _, rfl⟩
    | cons t dump ih =>
        obtain ⟨_, _, _, _, hstep⟩ := restoreTable_frame s dbId t hdb
        obtain ⟨_, _, _, _, hrest⟩ := ih (s.restoreTable dbId t) (dbs_restoreTable s dbId t hdb)
        rw [List.foldl_cons, hrest, hstep]
        exact ⟨_, _, _, _, rfl⟩
  obtain ⟨_, _, _, _, hrest⟩ := hfold { s with schemas := s.schemas.insertIfNew dbId ∅ } hdb
  exact ⟨_, _, _, _, hrest⟩

/-! ### Views, triggers and full-text indexes -/

omit [Externals] in
theorem restoreViews_frame (dump : SnapshotFile.Dump .views) :
    ∃ views, s.restoreViews dbId dump = { s with views } := by
  have hfold : ∀ s : KvsState, ∃ views,
      dump.foldl (fun s v => s.addView dbId v.1 v.2) s = { s with views } := by
    intro s
    induction dump generalizing s with
    | nil => exact ⟨_, rfl⟩
    | cons v dump ih => exact ih (s.addView dbId v.1 v.2)
  exact hfold { s with views := s.views.insertIfNew dbId ∅ }

omit [Externals] in
theorem getViewDefinition_restoreViews {dump : SnapshotFile.Dump .views}
    (hnodup : (dump.map Prod.fst).Nodup) (name : String) :
    (s.restoreViews dbId dump).getViewDefinition dbId name =
      (dump.lookup name).or (s.getViewDefinition dbId name) := by
  have hstart : ({ s with views := s.views.insertIfNew dbId ∅ } : KvsState).getViewDefinition dbId
      name = s.getViewDefinition dbId name := by
    simp only [getViewDefinition, IndexMap.get_insertIfNew, if_true, Option.bind_some, IndexMap.getD]
    cases s.views.get dbId <;> rfl
  have hstep : ∀ (s : KvsState) (v : String × String) name,
      (s.addView dbId v.1 v.2).getViewDefinition dbId name =
        if name = v.1 then some v.2 else s.getViewDefinition dbId name := by
    intro s v name
    simp only [getViewDefinition, addView, IndexMap.get_insert, if_true, Option.bind_some,
      IndexMap.getD]
    cases s.views.get dbId <;> rfl
  have hfold := (foldl_keyed (fun s v => addView s dbId v.1 v.2)
    (fun s => s.getViewDefinition dbId) (fun _ q _ => some q) (fun _ => True)
    (fun _ _ _ => trivial) (fun s v name _ => hstep s v name) hnodup
    (s := { s with views := s.views.insertIfNew dbId ∅ }) trivial name).2
  rw [hstart] at hfold
  refine hfold.trans ?_
  cases dump.lookup name <;> rfl

omit [Externals] in
theorem restoreTriggers_frame (dump : SnapshotFile.Dump .triggers) :
    ∃ triggers, s.restoreTriggers dbId dump = { s with triggers } := by
  have hfold : ∀ s : KvsState, ∃ triggers,
      dump.foldl (fun s t => s.setTriggers dbId t) s = { s with triggers } := by
    intro s
    induction dump generalizing s with
    | nil => exact ⟨_, rfl⟩
    | cons t dump ih => exact ih (s.setTriggers dbId t)
  exact hfold { s with triggers := s.triggers.insertIfNew dbId ∅ }

omit [Externals] in
theorem getTriggers_restoreTriggers {dump : SnapshotFile.Dump .triggers}
    (hnodup : (dump.map Prod.fst).Nodup) (table : String) :
    (s.restoreTriggers dbId dump).getTriggers dbId table =
      (dump.lookup table).getD (s.getTriggers dbId table) := by
  have hstart : ({ s with triggers := s.triggers.insertIfNew dbId ∅ } : KvsState).getTriggers dbId
      table = s.getTriggers dbId table := by
    simp only [getTriggers, IndexMap.get_insertIfNew, if_true, Option.bind_some, IndexMap.getD]
    cases s.triggers.get dbId <;> rfl
  have hstep : ∀ (s : KvsState) (t : String × List TriggerDef) table,
      (s.setTriggers dbId t).getTriggers dbId table =
        if table = t.1 then t.2 else s.getTriggers dbId table := by
    intro s t table
    simp only [getTriggers, setTriggers, IndexMap.get_insert, if_true, Option.bind_some,
      IndexMap.getD]
    split_ifs
    · rfl
    · cases s.triggers.get dbId <;> rfl
  have hfold := (foldl_keyed (fun s t => setTriggers s dbId t) (fun s => s.getTriggers dbId)
    (fun _ ts _ => ts) (fun _ => True) (fun _ _ _ => trivial) (fun s t table _ => hstep s t table)
    hnodup (s := { s with triggers := s.triggers.insertIfNew dbId ∅ }) trivial table).2
  rw [hstart] at hfold
  refine hfold.trans ?_
  cases dump.lookup table <;> rfl

/-- The full-text index of the texts in a column, taken up in the order of a dump. -/
def ftsOf (column : String) (store : Option Store) : FtsIndex :=
  (hashOrder (store.getD ∅).entries).foldl
    (fun index e => index.addText e.1 (contentOf column (some e.2))) .new

theorem exact_ftsOf (column : String) (store : Option Store) :
    (ftsOf column store).Exact fun rowid => contentOf column ((store.getD ∅).get rowid) := by
  have hperm := hashOrder_perm (store.getD ∅).entries
  have hnew : FtsIndex.new.Exact fun _ => none :=
    ⟨fun _ _ => by simp [FtsIndex.new, IndexMap.getD], fun _ _ h => (nomatch h), fun _ => rfl, rfl⟩
  have hexact := hnew.foldl_addText column
    ((hperm.map Prod.fst).nodup_iff.mpr (store.getD ∅).nodup) fun _ _ => rfl
  refine (congrArg (FtsIndex.Exact _) (funext fun rowid => ?_)).mp hexact
  rw [IndexMap.lookup_of_perm hperm]
  cases (store.getD ∅).get rowid <;> rfl

theorem addText_contentOf (column : String) (index : FtsIndex) (e : RowId × Row) :
    index.addText e.1 (contentOf column (some e.2)) =
      match e.2.get column with
      | some (.text content) => index.addDocument e.1 content
      | _ => index := by
  unfold contentOf
  rw [Option.bind_some]
  cases e.2.get column with
  | none => rfl
  | some v => cases v <;> rfl

theorem rebuildFts_frame (t : String × String) :
    ∃ ftsTables, s.rebuildFts dbId t = { s with ftsTables } := by
  unfold rebuildFts
  simp only
  split <;> exact ⟨_, rfl⟩

theorem getFtsTable_rebuildFts (t : String × String) (table : String) :
    (s.rebuildFts dbId t).getFtsTable dbId table =
      if table = t.1 then some ⟨t.1, ftsOf t.2 (s.getTableStore dbId t.1), t.2⟩
      else s.getFtsTable dbId table := by
  have hregister : (s.registerFtsTable dbId t.1 (.new t.1 t.2)).getFtsTable dbId table =
      if table = t.1 then some (.new t.1 t.2) else s.getFtsTable dbId table := by
    simp only [getFtsTable, registerFtsTable, IndexMap.get_insert, if_true, Option.bind_some,
      IndexMap.getD]
    cases s.ftsTables.get dbId <;> rfl
  have hmodify : ∀ (s : KvsState) f, (s.modifyFts dbId t.1 f).getFtsTable dbId table =
      if table = t.1 then (s.getFtsTable dbId table).map fun fts =>
        { fts with index := f fts.index }
      else s.getFtsTable dbId table := by
    intro s f
    simp only [getFtsTable, modifyFts, IndexMap.get_modify, if_true]
    cases s.ftsTables.get dbId with
    | none => simp
    | some map => exact IndexMap.get_modify map t.1 _ table
  have hstore : (s.registerFtsTable dbId t.1 (.new t.1 t.2)).getTableStore dbId t.1 =
      s.getTableStore dbId t.1 := rfl
  unfold rebuildFts
  simp only [hstore]
  cases s.getTableStore dbId t.1 with
  | none =>
      have hempty : hashOrder ([] : List (RowId × Row)) = [] := (hashOrder_perm []).eq_nil
      have hfts : ftsOf t.2 none = .new := by
        unfold ftsOf
        simp only [Option.getD_none, show (∅ : Store).entries = [] from rfl, hempty,
          List.foldl_nil]
      simp only [hfts]
      exact hregister
  | some store =>
      simp only
      rw [hmodify, hregister]
      split_ifs with ht
      · have hindex : ftsOf t.2 (some store) = (hashOrder store.entries).foldl (fun index e =>
            match e.2.get t.2 with
            | some (.text content) => index.addDocument e.1 content
            | _ => index) .new := by
          simp only [ftsOf, Option.getD_some, addText_contentOf]
        exact congrArg (fun index => some (FtsVirtualTable.mk t.1 index t.2)) hindex.symm
      · rfl

theorem foldl_rebuildFts {list : List (String × String)} (hnodup : (list.map Prod.fst).Nodup)
    (table : String) :
    (∃ ftsTables, list.foldl (fun s t => s.rebuildFts dbId t) s = { s with ftsTables }) ∧
      (list.foldl (fun s t => s.rebuildFts dbId t) s).getFtsTable dbId table =
        (list.lookup table).elim (s.getFtsTable dbId table) fun column =>
          some ⟨table, ftsOf column (s.getTableStore dbId table), column⟩ := by
  apply foldl_keyed (fun s t => rebuildFts s dbId t) (fun s => s.getFtsTable dbId)
    (fun table column _ => some ⟨table, ftsOf column (s.getTableStore dbId table), column⟩)
    (fun s' => ∃ ftsTables, s' = { s with ftsTables }) ?_ ?_ hnodup ⟨s.ftsTables, rfl⟩ table
  · rintro _ t ⟨ftsTables, rfl⟩
    obtain ⟨ftsTables', hframe⟩ := rebuildFts_frame { s with ftsTables } dbId t
    exact ⟨ftsTables', hframe⟩
  · rintro _ t table ⟨ftsTables, rfl⟩
    rw [getFtsTable_rebuildFts]
    split_ifs with ht
    · rw [ht]
      rfl
    · rfl

end KvsState

namespace RawState

omit [Externals] in
theorem restoreRaw_eq (s : RawState) (dbId : UInt32) {dump : SnapshotFile.Dump .raw}
    (hnodup : (dump.map Prod.fst).Nodup) (table : String) :
    (s.restoreRaw dbId dump).rawTable dbId table =
      (dump.lookup table).elim (s.rawTable dbId table) fun entries =>
        some (entries.foldl (fun t e => t.insert e.1 e.2) ((s.rawTable dbId table).getD ∅)) := by
  have hstart : ({ s with rawStores := s.rawStores.insertIfNew dbId ∅ } : RawState).rawTable dbId =
      s.rawTable dbId := by
    funext table
    simp only [rawTable, IndexMap.get_insertIfNew, if_true, Option.bind_some, IndexMap.getD]
    cases s.rawStores.get dbId <;> rfl
  have hfold := (foldl_keyed (fun s t => restoreRawTable s dbId t) (fun s => s.rawTable dbId)
    (fun _ entries t => some (entries.foldl (fun t e => t.insert e.1 e.2) (t.getD ∅)))
    (fun _ => True) (fun _ _ _ => trivial) (fun s t table _ => by
      unfold restoreRawTable
      rw [rawTable_modifyTable, rawTable_ensureTable]
      by_cases ht : table = t.1
      · rw [if_pos ⟨rfl, ht⟩, if_pos ⟨rfl, ht⟩, if_pos ht, Option.map_some]
      · rw [if_neg fun h => ht h.2, if_neg fun h => ht h.2, if_neg ht]) hnodup
    (s := { s with rawStores := s.rawStores.insertIfNew dbId ∅ }) trivial table).2
  rw [hstart] at hfold
  exact hfold

end RawState

end Skvs
