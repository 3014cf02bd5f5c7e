import Skvs.Proof.SnapshotLoad

/-!
# Loading one database after the other

What is restored into one database does not show in another, so that each database is seen after
the restart as if it had been loaded alone into an empty one.
-/

namespace Skvs

/-- What a state has for one database. -/
structure DbView where
  stores : Option (IndexMap String Store)
  schemas : Option (IndexMap String TableSchema)
  counters : Option (IndexMap String UInt64)
  indexes : Option (IndexMap (String × String) IndexStore)
  triggers : Option (IndexMap String (List TriggerDef))
  views : Option (IndexMap String String)
  fts : Option (IndexMap String FtsVirtualTable)

def KvsState.db (s : KvsState) (dbId : UInt32) : DbView where
  stores := s.dbs.get dbId
  schemas := s.schemas.get dbId
  counters := s.rowidGenerators.get dbId
  indexes := s.indexes.get dbId
  triggers := s.triggers.get dbId
  views := s.views.get dbId
  fts := s.ftsTables.get dbId

namespace KvsState

/-! ### Steps on one database seen from another -/

section Other

variable (s : KvsState) {dbId dbId' : UInt32} (h : dbId' ≠ dbId)
include h

theorem db_setSchema (table : String) (schema : TableSchema) :
    (s.setSchema dbId table schema).db dbId' = s.db dbId' := by
  simp [db, setSchema, IndexMap.get_insert, h]

theorem db_ensureStore (table : String) : (s.ensureStore dbId table).db dbId' = s.db dbId' := by
  simp [db, ensureStore, IndexMap.get_modify, h]

theorem db_modifyStore (table : String) (f : Store → Store) :
    (s.modifyStore dbId table f).db dbId' = s.db dbId' := by
  simp [db, modifyStore, IndexMap.get_modify, h]

theorem db_setMinNextRowid (table : String) (minNext : UInt64) :
    (s.setMinNextRowid dbId table minNext).db dbId' = s.db dbId' := by
  simp [db, setMinNextRowid, IndexMap.get_insert, h]

theorem db_modifyIndexStore (table n : String) (f : IndexStore → IndexStore) :
    (s.modifyIndexStore dbId table n f).db dbId' = s.db dbId' := by
  simp [db, modifyIndexStore, IndexMap.get_insert, h]

theorem db_addView (name query : String) : (s.addView dbId name query).db dbId' = s.db dbId' := by
  simp [db, addView, IndexMap.get_insert, h]

theorem db_setTriggers (t : String × List TriggerDef) :
    (s.setTriggers dbId t).db dbId' = s.db dbId' := by
  simp [db, setTriggers, IndexMap.get_insert, h]

theorem db_registerFtsTable (table : String) (fts : FtsVirtualTable) :
    (s.registerFtsTable dbId table fts).db dbId' = s.db dbId' := by
  simp [db, registerFtsTable, IndexMap.get_insert, h]

theorem db_modifyFts (table : String) (f : FtsIndex → FtsIndex) :
    (s.modifyFts dbId table f).db dbId' = s.db dbId' := by
  simp [db, modifyFts, IndexMap.get_modify, h]

omit h in
/-- A fold of steps that do not show elsewhere does not show elsewhere. -/
theorem db_foldl {α : Type} {step : KvsState → α → KvsState}
    (hstep : ∀ s a, (step s a).db dbId' = s.db dbId') (l : List α) :
    (l.foldl step s).db dbId' = s.db dbId' := by
  induction l generalizing s with
  | nil => rfl
  | cons a l ih => exact (ih (step s a)).trans (hstep s a)

variable [Externals]

theorem db_rebuildIndex (table : String) (idx : IndexDef) :
    (rebuildIndex s dbId table idx).db dbId' = s.db dbId' := by
  unfold rebuildIndex
  cases s.getTableStore dbId table with
  | none => rfl
  | some rows => exact db_modifyIndexStore s h table idx.name _

theorem db_restoreTable (t : String × Option TableSchema × List (RowId × Row)) :
    (s.restoreTable dbId t).db dbId' = s.db dbId' := by
  have hrebuild : ∀ s : KvsState, (s.rebuildIndexes dbId t.1).db dbId' = s.db dbId' := by
    intro s
    unfold rebuildIndexes
    cases s.getSchema dbId t.1 with
    | none => rfl
    | some schema => exact db_foldl s (fun s idx => db_rebuildIndex s h t.1 idx) schema.indices
  rw [restoreTable_eq, hrebuild, prepareTable, db_setMinNextRowid _ h, db_modifyStore _ h,
    db_ensureStore _ h]
  cases t.2.1 with
  | none => rfl
  | some schema => exact db_setSchema s h t.1 schema

theorem db_restoreTables (dump : SnapshotFile.Dump .tables) :
    (s.restoreTables dbId dump).db dbId' = s.db dbId' := by
  refine (db_foldl _ (fun s t => db_restoreTable s h t) dump).trans ?_
  simp [db, IndexMap.get_insertIfNew, h]

omit [Externals] in
theorem db_restoreViews (dump : SnapshotFile.Dump .views) :
    (s.restoreViews dbId dump).db dbId' = s.db dbId' := by
  refine (db_foldl _ (fun s v => db_addView s h v.1 v.2) dump).trans ?_
  simp [db, IndexMap.get_insertIfNew, h]

omit [Externals] in
theorem db_restoreTriggers (dump : SnapshotFile.Dump .triggers) :
    (s.restoreTriggers dbId dump).db dbId' = s.db dbId' := by
  refine (db_foldl _ (fun s t => db_setTriggers s h t) dump).trans ?_
  simp [db, IndexMap.get_insertIfNew, h]

theorem db_rebuildFts (t : String × String) : (s.rebuildFts dbId t).db dbId' = s.db dbId' := by
  unfold rebuildFts
  simp only
  split
  · exact db_registerFtsTable s h t.1 _
  · rw [db_modifyFts _ h, db_registerFtsTable s h]

end Other

end KvsState

theorem RawState.get_restoreRaw_of_ne (s : RawState) {dbId dbId' : UInt32} (h : dbId' ≠ dbId)
    (dump : SnapshotFile.Dump .raw) :
    (s.restoreRaw dbId dump).rawStores.get dbId' = s.rawStores.get dbId' := by
  have hfold : ∀ s : RawState, (dump.foldl (fun s t => s.restoreRawTable dbId t) s).rawStores.get
      dbId' = s.rawStores.get dbId' := by
    intro s
    induction dump generalizing s with
    | nil => rfl
    | cons t dump ih =>
        rw [List.foldl_cons, ih]
        simp [restoreRawTable, modifyTable, ensureTable, IndexMap.get_modify, IndexMap.get_insert, h]
  refine (hfold _).trans ?_
  simp [IndexMap.get_insertIfNew, h]

theorem RawState.restoreRaw_frame (s : RawState) (dbId : UInt32) (dump : SnapshotFile.Dump .raw) :
    ∃ rawStores, s.restoreRaw dbId dump = { s with rawStores } := by
  have hfold : ∀ s : RawState, ∃ rawStores,
      dump.foldl (fun s t => s.restoreRawTable dbId t) s = { s with rawStores } := by
    intro s
    induction dump generalizing s with
    | nil => exact ⟨_, rfl⟩
    | cons t dump ih => exact ih (s.restoreRawTable dbId t)
  exact hfold { s with rawStores := s.rawStores.insertIfNew dbId ∅ }

namespace Server

/-- What a server has for one database, its raw tables included. -/
def db (s : Server) (dbId : UInt32) : DbView × Option (IndexMap String RawTable) :=
  (s.kvs.db dbId, s.raw.rawStores.get dbId)

variable [Externals] (disk : Disk) (s : Server)

theorem db_loadDb {dbId dbId' : UInt32} (h : dbId' ≠ dbId) :
    (loadDb disk s dbId).db dbId' = s.db dbId' := by
  unfold loadDb
  cases disk.file dbId .tables with
  | none => rfl
  | some dump =>
      have hkvs : ∀ kvs : KvsState,
          ((KvsState.ftsToRebuild dump).foldl (fun kvs t => kvs.rebuildFts dbId t) kvs).db dbId' =
            kvs.db dbId' :=
        fun kvs => KvsState.db_foldl kvs (fun kvs t => kvs.db_rebuildFts h t) _
      unfold db
      simp only
      rw [hkvs]
      have hraw : ((disk.file dbId .raw).elim s.raw (s.raw.restoreRaw dbId)).rawStores.get dbId' =
          s.raw.rawStores.get dbId' := by
        cases disk.file dbId .raw with
        | none => rfl
        | some raw => exact s.raw.get_restoreRaw_of_ne h raw
      rw [hraw]
      cases disk.file dbId .views with
      | none =>
          cases disk.file dbId .triggers with
          | none => exact congrArg (·, _) (s.kvs.db_restoreTables h dump)
          | some triggers =>
              exact congrArg (·, _) ((KvsState.db_restoreTriggers _ h triggers).trans
                (s.kvs.db_restoreTables h dump))
      | some views =>
          have hviews := (KvsState.db_restoreViews _ h views).trans (s.kvs.db_restoreTables h dump)
          cases disk.file dbId .triggers with
          | none => exact congrArg (·, _) hviews
          | some triggers =>
              exact congrArg (·, _) ((KvsState.db_restoreTriggers _ h triggers).trans hviews)

theorem db_loadDbs (ids : List UInt32) (dbId : UInt32) (h : dbId ∉ ids) :
    (ids.foldl (loadDb disk) s).db dbId = s.db dbId := by
  induction ids generalizing s with
  | nil => rfl
  | cons id ids ih =>
      rw [List.mem_cons, not_or] at h
      rw [List.foldl_cons, ih _ h.2, db_loadDb disk s h.1]

/-- Nothing is loaded into a database that the state does not have. -/
theorem db_loadSqlSnapshot_of_none {dbId : UInt32} (h : s.kvs.dbs.get dbId = none) :
    (loadSqlSnapshot disk s).db dbId = s.db dbId := by
  apply db_loadDbs
  rw [(hashOrder_perm s.kvs.dbs.keys).mem_iff]
  exact (IndexMap.get_eq_none_iff ..).mp h

theorem raw_loadSqlSnapshot :
    ∃ rawStores, (loadSqlSnapshot disk s).raw = { s.raw with rawStores } := by
  have hstep : ∀ (s : Server) dbId, ∃ rawStores,
      (loadDb disk s dbId).raw = { s.raw with rawStores } := by
    intro s dbId
    unfold loadDb
    cases disk.file dbId .tables with
    | none => exact ⟨_, rfl⟩
    | some dump =>
        cases disk.file dbId .raw with
        | none => exact ⟨_, rfl⟩
        | some raw => exact s.raw.restoreRaw_frame dbId raw
  have hfold : ∀ (ids : List UInt32) (s : Server), ∃ rawStores,
      (ids.foldl (loadDb disk) s).raw = { s.raw with rawStores } := by
    intro ids
    induction ids with
    | nil => exact fun s => ⟨_, rfl⟩
    | cons id ids ih =>
        intro s
        obtain ⟨_, hone⟩ := hstep s id
        obtain ⟨_, hrest⟩ := ih (loadDb disk s id)
        rw [List.foldl_cons, hrest, hone]
        exact ⟨_, rfl⟩
  exact hfold _ s

/-- A database is loaded as it would be alone. -/
theorem db_loadSqlSnapshot {dbId : UInt32} (h : (s.kvs.dbs.get dbId).isSome) :
    ∃ s' : Server, s'.db dbId = s.db dbId ∧
      (loadSqlSnapshot disk s).db dbId = (loadDb disk s' dbId).db dbId := by
  have hperm := hashOrder_perm s.kvs.dbs.keys
  have hmem : dbId ∈ hashOrder s.kvs.dbs.keys := by
    rw [hperm.mem_iff, IndexMap.mem_keys_iff_get]
    exact Option.isSome_iff_exists.mp h
  have hnodup : (hashOrder s.kvs.dbs.keys).Nodup := hperm.nodup_iff.mpr (IndexMap.keys_nodup _)
  obtain ⟨before, after, hids⟩ := List.append_of_mem hmem
  rw [hids, List.nodup_append, List.nodup_cons] at hnodup
  obtain ⟨-, ⟨hafter, -⟩, hdisjoint⟩ := hnodup
  have hbefore : dbId ∉ before := fun hin => hdisjoint dbId hin dbId List.mem_cons_self rfl
  refine ⟨before.foldl (loadDb disk) s, db_loadDbs disk s before dbId hbefore, ?_⟩
  unfold loadSqlSnapshot
  rw [hids, List.foldl_append, List.foldl_cons, db_loadDbs disk _ after dbId hafter]

end Server

/-! ### Loading into an empty database -/

def DbView.empty : DbView where
  stores := some ∅
  schemas := some ∅
  counters := some ∅
  indexes := some ∅
  triggers := some ∅
  views := some ∅
  fts := some ∅

def TableView.empty : TableView where
  schema := none
  store := none
  counter := 1
  index := fun _ => ∅

section Congr

variable {s s' : KvsState} {dbId : UInt32} (h : s.db dbId = s'.db dbId)
include h

theorem KvsState.tableView_congr : s.tableView dbId = s'.tableView dbId := by
  obtain ⟨hstores, hschemas, hcounters, hindexes, -, -, -⟩ := DbView.mk.inj h
  funext table
  simp only [tableView, getSchema, getTableStore, rowidCounter, IndexMap.getD, hstores, hschemas,
    hcounters]
  congr 1
  funext n
  simp only [indexStore, IndexMap.getD, hindexes]

theorem KvsState.getViewDefinition_congr : s.getViewDefinition dbId = s'.getViewDefinition dbId := by
  obtain ⟨-, -, -, -, -, hviews, -⟩ := DbView.mk.inj h
  funext name
  rw [getViewDefinition, getViewDefinition, hviews]

theorem KvsState.getTriggers_congr : s.getTriggers dbId = s'.getTriggers dbId := by
  obtain ⟨-, -, -, -, htriggers, -, -⟩ := DbView.mk.inj h
  funext table
  rw [getTriggers, getTriggers, htriggers]

theorem KvsState.getFtsTable_congr : s.getFtsTable dbId = s'.getFtsTable dbId := by
  obtain ⟨-, -, -, -, -, -, hfts⟩ := DbView.mk.inj h
  funext table
  rw [getFtsTable, getFtsTable, hfts]

end Congr

theorem lookup_ftsToRebuild {dump : SnapshotFile.Dump .tables}
    (hnodup : (dump.map Prod.fst).Nodup) (table : String) :
    ((KvsState.ftsToRebuild dump).map Prod.fst).Nodup ∧
      (KvsState.ftsToRebuild dump).lookup table =
        (dump.lookup table).bind fun t => t.1.bind TableSchema.fts5ContentColumn := by
  have hsub : ∀ dump : SnapshotFile.Dump .tables,
      ((KvsState.ftsToRebuild dump).map Prod.fst).Sublist (dump.map Prod.fst) := by
    intro dump
    induction dump with
    | nil => exact .slnil
    | cons t dump ih =>
        unfold KvsState.ftsToRebuild
        rw [List.filterMap_cons]
        cases t.2.1.bind TableSchema.fts5ContentColumn with
        | none => exact ih.cons _
        | some column => exact ih.cons_cons _
  refine ⟨(hsub dump).nodup hnodup, ?_⟩
  induction dump with
  | nil => rfl
  | cons t dump ih =>
      rw [List.map_cons, List.nodup_cons] at hnodup
      have hrest := ih hnodup.2
      rw [IndexMap.lookup_cons_ite]
      unfold KvsState.ftsToRebuild at hrest ⊢
      rw [List.filterMap_cons]
      cases hcolumn : t.2.1.bind TableSchema.fts5ContentColumn with
      | none =>
          split_ifs with ht
          · have hnone : dump.lookup table = none := lookup_eq_none_of_not_mem (ht ▸ hnodup.1)
            rw [Option.map_none]
            refine hrest.trans ?_
            rw [hnone, Option.bind_some, hcolumn]
            rfl
          · exact hrest
      | some column =>
          rw [Option.map_some, IndexMap.lookup_cons_ite]
          split_ifs with ht
          · rw [Option.bind_some, hcolumn]
          · exact hrest

section LoadDb

variable [Externals] {disk : Disk} {s : Server} {dbId : UInt32}
  (hs : s.db dbId = (DbView.empty, some ∅)) {dump : SnapshotFile.Dump .tables}
  (hdump : disk.file dbId .tables = some dump) (hnodup : (dump.map Prod.fst).Nodup)
include hs hdump

theorem loadDb_raw (hraw : ∀ raw, disk.file dbId .raw = some raw → (raw.map Prod.fst).Nodup)
    (table : String) :
    (Server.loadDb disk s dbId).raw.rawTable dbId table =
      (disk.file dbId .raw).bind fun raw => (raw.lookup table).map fun entries =>
        entries.foldl (fun t e => t.insert e.1 e.2) ∅ := by
  have hempty : s.raw.rawTable dbId table = none := by
    have hget : s.raw.rawStores.get dbId = some ∅ := congrArg Prod.snd hs
    rw [RawState.rawTable, hget]
    rfl
  have hload : (Server.loadDb disk s dbId).raw =
      (disk.file dbId .raw).elim s.raw (s.raw.restoreRaw dbId) := by
    unfold Server.loadDb
    rw [hdump]
  rw [hload]
  cases hfile : disk.file dbId .raw with
  | none => exact hempty
  | some raw =>
      have heq := s.raw.restoreRaw_eq dbId (hraw raw hfile) table
      rw [hempty] at heq
      rw [Option.bind_some]
      refine heq.trans ?_
      cases raw.lookup table <;> rfl

include hnodup

/-- The SQL side: first the tables, then views and triggers, and last the full-text indexes. -/
theorem loadDb_kvs (hviews : ∀ views, disk.file dbId .views = some views →
      (views.map Prod.fst).Nodup)
    (htriggers : ∀ triggers, disk.file dbId .triggers = some triggers →
      (triggers.map Prod.fst).Nodup) (table : String) :
    let kvs := (Server.loadDb disk s dbId).kvs
    kvs.tableView dbId table =
        (dump.lookup table).elim .empty (fun t => restoredView t .empty) ∧
      kvs.getViewDefinition dbId table = (disk.file dbId .views).bind (·.lookup table) ∧
      kvs.getTriggers dbId table = ((disk.file dbId .triggers).bind (·.lookup table)).getD [] ∧
      kvs.getFtsTable dbId table =
        ((dump.lookup table).bind fun t => t.1.bind TableSchema.fts5ContentColumn).map fun column =>
          ⟨table, KvsState.ftsOf column (kvs.getTableStore dbId table), column⟩ := by
  have hdb : s.kvs.db dbId = DbView.empty := congrArg Prod.fst hs
  have hstores : s.kvs.dbs.get dbId = some ∅ := congrArg DbView.stores hdb
  have hkvs : (Server.loadDb disk s dbId).kvs =
      (KvsState.ftsToRebuild dump).foldl (fun kvs t => kvs.rebuildFts dbId t)
        ((disk.file dbId .triggers).elim
          ((disk.file dbId .views).elim (s.kvs.restoreTables dbId dump)
            ((s.kvs.restoreTables dbId dump).restoreViews dbId))
          (KvsState.restoreTriggers
            ((disk.file dbId .views).elim (s.kvs.restoreTables dbId dump)
              ((s.kvs.restoreTables dbId dump).restoreViews dbId)) dbId)) := by
    unfold Server.loadDb
    rw [hdump]
  have htables := s.kvs.restoreTables_eq dbId (Option.isSome_iff_exists.mpr ⟨_, hstores⟩) hnodup
    table
  obtain ⟨_, _, _, _, hframe⟩ := s.kvs.restoreTables_frame dbId dump
    (Option.isSome_iff_exists.mpr ⟨_, hstores⟩)
  obtain ⟨-, hschemas, hcounters, hindexes, htrigs, hvws, hfts⟩ := DbView.mk.inj hdb
  have hempty : s.kvs.tableView dbId table = .empty := by
    simp only [KvsState.tableView, KvsState.getSchema, KvsState.getTableStore,
      KvsState.rowidCounter, IndexMap.getD, hstores, hschemas, hcounters]
    congr 1
    funext n
    simp only [KvsState.indexStore, IndexMap.getD, hindexes]
    rfl
  have hnoViews : (s.kvs.restoreTables dbId dump).getViewDefinition dbId table = none := by
    simp only [hframe, KvsState.getViewDefinition, hvws]
    rfl
  have hnoTriggers : (s.kvs.restoreTables dbId dump).getTriggers dbId table = [] := by
    simp only [hframe, KvsState.getTriggers, htrigs]
    rfl
  have hnoFts : (s.kvs.restoreTables dbId dump).getFtsTable dbId table = none := by
    simp only [hframe, KvsState.getFtsTable, hfts]
    rfl
  rw [hempty] at htables
  clear hframe
  generalize s.kvs.restoreTables dbId dump = kvs₁ at *
  -- views
  have hkvs₂ : ∃ views, (disk.file dbId .views).elim kvs₁ (kvs₁.restoreViews dbId) =
      { kvs₁ with views } := by
    cases disk.file dbId .views with
    | none => exact ⟨_, rfl⟩
    | some views => exact kvs₁.restoreViews_frame dbId views
  have hgetViews : ((disk.file dbId .views).elim kvs₁ (kvs₁.restoreViews dbId)).getViewDefinition
      dbId table = (disk.file dbId .views).bind (·.lookup table) := by
    cases hfile : disk.file dbId .views with
    | none => exact hnoViews
    | some views =>
        have hget := kvs₁.getViewDefinition_restoreViews dbId (hviews views hfile) table
        rw [hnoViews, Option.or_none] at hget
        exact hget
  obtain ⟨views, hkvs₂⟩ := hkvs₂
  rw [hkvs₂] at hkvs hgetViews
  -- triggers
  have hkvs₃ : ∃ triggers, (disk.file dbId .triggers).elim { kvs₁ with views }
      (KvsState.restoreTriggers { kvs₁ with views } dbId) = { kvs₁ with views, triggers } := by
    cases disk.file dbId .triggers with
    | none => exact ⟨_, rfl⟩
    | some triggers => exact KvsState.restoreTriggers_frame _ dbId triggers
  have hgetTriggers : ((disk.file dbId .triggers).elim { kvs₁ with views }
      (KvsState.restoreTriggers { kvs₁ with views } dbId)).getTriggers dbId table =
        ((disk.file dbId .triggers).bind (·.lookup table)).getD [] := by
    cases hfile : disk.file dbId .triggers with
    | none => exact hnoTriggers
    | some triggers =>
        have hget := KvsState.getTriggers_restoreTriggers { kvs₁ with views } dbId
          (htriggers triggers hfile) table
        refine hget.trans ?_
        rw [Option.bind_some]
        exact congrArg _ hnoTriggers
  obtain ⟨triggers, hkvs₃⟩ := hkvs₃
  rw [hkvs₃] at hkvs hgetTriggers
  -- full-text indexes
  obtain ⟨hftsNodup, hlookup⟩ := lookup_ftsToRebuild hnodup table
  obtain ⟨⟨ftsTables, hkvs₄⟩, hgetFts⟩ :=
    KvsState.foldl_rebuildFts { kvs₁ with views, triggers } dbId hftsNodup table
  rw [hkvs₄] at hkvs hgetFts
  intro kvs
  have hfinal : kvs = { kvs₁ with views, triggers, ftsTables } := hkvs
  rw [hfinal]
  refine ⟨htables, hgetViews, hgetTriggers, hgetFts.trans ?_⟩
  rw [hlookup]
  cases (dump.lookup table).bind fun t => t.1.bind TableSchema.fts5ContentColumn with
  | none => exact hnoFts
  | some column => rfl

end LoadDb

end Skvs
