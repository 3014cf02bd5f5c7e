import Skvs.Proof.LoadDatabases
import Skvs.Proof.RebuiltIndex
import Skvs.Proof.SnapshotFiles
import Mathlib.Data.List.Induction

/-!
# What a restart makes of the files

Each file may be of a save of its own. The tables, the raw entries, the views and the triggers of a
database come back as they were at the save their file is of. The indexes and the rowid counters are
made from the rows.
-/

namespace Skvs

section Rebuilt

variable [Externals]

/-- Under a name there is the index of one of the definitions with that name. -/
theorem exists_rebuiltAll (indices : List IndexDef) (rows : Store) (index : String → IndexStore)
    {idx : IndexDef} (h : idx ∈ indices) :
    ∃ idx' ∈ indices, idx'.name = idx.name ∧
      rebuiltAll indices rows index idx.name = rebuilt idx' rows := by
  induction indices using List.reverseRecOn with
  | nil => exact nomatch h
  | append_singleton indices last ih =>
      have hstep : rebuiltAll (indices ++ [last]) rows index idx.name =
          if idx.name = last.name then rebuilt last rows
          else rebuiltAll indices rows index idx.name := by
        rw [rebuiltAll, List.foldl_append]
        exact Function.update_apply ..
      rw [hstep]
      by_cases hname : idx.name = last.name
      · exact ⟨last, List.mem_append_right _ List.mem_cons_self, hname.symm, if_pos hname⟩
      · have hin : idx ∈ indices := by
          rcases List.mem_append.mp h with hin | hlast
          · exact hin
          · exact absurd (congrArg IndexDef.name (List.mem_singleton.mp hlast)) hname
        obtain ⟨idx', hidx', heq, hrebuilt⟩ := ih hin
        exact ⟨idx', List.mem_append_left _ hidx', heq, (if_neg hname).trans hrebuilt⟩

end Rebuilt

/-! ### Rowid counters -/

theorem foldl_max (rows : List (RowId × Row)) (m : UInt64) :
    m.toNat ≤ (rows.foldl (fun m r => max m r.1) m).toNat ∧
      (∀ r ∈ rows, r.1.toNat ≤ (rows.foldl (fun m r => max m r.1) m).toNat) ∧
      (rows.foldl (fun m r => max m r.1) m = m ∨
        ∃ r ∈ rows, rows.foldl (fun m r => max m r.1) m = r.1) := by
  induction rows generalizing m with
  | nil => exact ⟨Nat.le_refl _, fun r hr => (nomatch hr), .inl rfl⟩
  | cons r rows ih =>
      obtain ⟨hstart, hall, hfrom⟩ := ih (max m r.1)
      rw [UInt64.toNat_max] at hstart
      rw [List.foldl_cons]
      refine ⟨by omega, fun r' hr' => ?_, ?_⟩
      · rcases List.mem_cons.mp hr' with rfl | hin
        · omega
        · exact hall r' hin
      · rcases hfrom with heq | ⟨r', hr', heq⟩
        · rw [heq]
          by_cases hm : m ≤ r.1
          · exact .inr ⟨r, List.mem_cons_self, if_pos hm⟩
          · exact .inl (if_neg hm)
        · exact .inr ⟨r', List.mem_cons_of_mem r hr', heq⟩

def lastRowid : RowId := 18446744073709551615

/-- The counter set by a restart is above every rowid, unless there is the greatest one of all. -/
theorem counter_above_iff (rows : List (RowId × Row)) :
    (∀ r ∈ rows, r.1 < max 1 (KvsState.maxRowid rows + 1)) ↔ ∀ r ∈ rows, r.1 ≠ lastRowid := by
  obtain ⟨-, hall, hfrom⟩ := foldl_max rows 0
  change ∀ r ∈ rows, r.1.toNat ≤ (KvsState.maxRowid rows).toNat at hall
  change KvsState.maxRowid rows = 0 ∨ ∃ r ∈ rows, KvsState.maxRowid rows = r.1 at hfrom
  generalize KvsState.maxRowid rows = m at hall hfrom
  have hlast : lastRowid.toNat = 18446744073709551615 := rfl
  have hlt := m.toNat_lt
  constructor
  · intro habove r hr heq
    have hle := hall r hr
    have htop : m = lastRowid := by
      apply UInt64.toNat_inj.mp
      rw [heq] at hle
      omega
    have hr' := habove r hr
    rw [heq, htop] at hr'
    exact absurd hr' (by decide)
  · intro hne r hr
    have hm : m.toNat ≠ lastRowid.toNat := by
      intro heq
      rw [UInt64.toNat_inj] at heq
      rcases hfrom with hzero | ⟨r', hr', hmax⟩
      · exact absurd (hzero.symm.trans heq) (by decide)
      · exact hne r' hr' (hmax.symm.trans heq)
    have hle := hall r hr
    rw [UInt64.lt_iff_toNat_lt, UInt64.toNat_max, UInt64.toNat_add]
    have hone : (1 : UInt64).toNat = 1 := rfl
    omega

variable [Externals]

/-! ### What the files of a save hold -/

theorem nodup_hashOrder {κ ν : Type} (m : IndexMap κ ν) :
    ((hashOrder m.entries).map Prod.fst).Nodup :=
  ((hashOrder_perm m.entries).map Prod.fst).nodup_iff.mpr m.nodup

theorem lookup_hashOrder {κ ν : Type} [DecidableEq κ] (m : IndexMap κ ν) (k : κ) :
    (hashOrder m.entries).lookup k = m.get k :=
  IndexMap.lookup_of_perm (hashOrder_perm m.entries) k

theorem nodup_tablesDump (s : Server) (dbId : UInt32) (tables : IndexMap String Store) :
    ((s.tablesDump dbId tables).map Prod.fst).Nodup := by
  unfold Server.tablesDump
  rw [List.map_map]
  exact nodup_hashOrder tables

theorem lookup_tablesDump (s : Server) (dbId : UInt32) (tables : IndexMap String Store)
    (table : String) :
    (s.tablesDump dbId tables).lookup table =
      (tables.get table).map fun store =>
        (s.kvs.getSchema dbId table, hashOrder store.entries) := by
  unfold Server.tablesDump
  rw [IndexMap.lookup_map _ fun table (store : Store) =>
    (s.kvs.getSchema dbId table, hashOrder store.entries), lookup_hashOrder]

omit [Externals] in
theorem db_fresh {databases : List UInt32} {dbId : UInt32} (h : dbId ∈ databases) (limit : Nat)
    (overflowDir : String) (workingDir : Path.Resolved) (files : IndexMap Path.Resolved Bytes) :
    (Server.fresh databases limit overflowDir workingDir files).db dbId =
      (DbView.empty, some ∅) := by
  simp only [Server.db, Server.fresh, KvsState.db, KvsState.new, RawState.new, DbView.empty,
    IndexMap.get_ofList_map_const, if_pos h]

section Reload

variable {databases : List UInt32} (disk : Disk) (limit : Nat) (overflowDir : String) (workingDir : Path.Resolved)
  (files : IndexMap Path.Resolved Bytes)

/-- The server after a restart that finds these files. -/
def reload (databases : List UInt32) (disk : Disk) (limit : Nat) (overflowDir : String)
    (workingDir : Path.Resolved) (files : IndexMap Path.Resolved Bytes) : Server :=
  Server.loadSqlSnapshot disk (Server.fresh databases limit overflowDir workingDir files)

theorem reload_db {dbId : UInt32} (h : dbId ∈ databases) :
    ∃ s' : Server, s'.db dbId = (DbView.empty, some ∅) ∧
      (reload databases disk limit overflowDir workingDir files).db dbId =
        (Server.loadDb disk s' dbId).db dbId := by
  have hfresh := db_fresh h limit overflowDir workingDir files
  have hsome : ((Server.fresh databases limit overflowDir workingDir files).kvs.dbs.get
      dbId).isSome := by
    have hget : (Server.fresh databases limit overflowDir workingDir files).kvs.dbs.get dbId =
        some ∅ := congrArg (fun v => v.1.stores) hfresh
    rw [hget]
    rfl
  obtain ⟨s', hs', hR⟩ := Server.db_loadSqlSnapshot disk _ hsome
  exact ⟨s', hs'.trans hfresh, hR⟩

section Saved

variable {disk} {dbId : UInt32} (h : dbId ∈ databases) {S : SnapshotFile → Server}
  (hfiles : ∀ f, disk.file dbId f = (S f).dump dbId f)
  (hdb : ((S .tables).kvs.dbs.get dbId).isSome)
include h hfiles hdb

/-- The SQL side after a restart. -/
theorem reload_kvs (table : String) :
    let kvs := (reload databases disk limit overflowDir workingDir files).kvs
    kvs.tableView dbId table =
        ((S .tables).kvs.getTableStore dbId table).elim .empty (fun store =>
          restoredView ((S .tables).kvs.getSchema dbId table, hashOrder store.entries) .empty) ∧
      kvs.getViewDefinition dbId table = (S .views).kvs.getViewDefinition dbId table ∧
      kvs.getTriggers dbId table = (S .triggers).kvs.getTriggers dbId table ∧
      kvs.getFtsTable dbId table =
        (((S .tables).kvs.getTableStore dbId table).bind fun _ =>
          ((S .tables).kvs.getSchema dbId table).bind TableSchema.fts5ContentColumn).map fun column =>
            ⟨table, KvsState.ftsOf column (kvs.getTableStore dbId table), column⟩ := by
  obtain ⟨s', hs', hR⟩ := reload_db disk limit overflowDir workingDir files h
  have hkvs := congrArg Prod.fst hR
  generalize reload databases disk limit overflowDir workingDir files = R at hkvs
  obtain ⟨tables, htables⟩ := Option.isSome_iff_exists.mp hdb
  have hdump : disk.file dbId .tables = some ((S .tables).tablesDump dbId tables) := by
    rw [hfiles, Server.dump, htables, Option.map_some]
  have hviewsDump : disk.file dbId .views =
      ((S .views).kvs.views.get dbId).map fun views => hashOrder views.entries := by
    rw [hfiles, Server.dump]
  have htriggersDump : disk.file dbId .triggers =
      ((S .triggers).kvs.triggers.get dbId).map fun triggers => hashOrder triggers.entries := by
    rw [hfiles, Server.dump]
  obtain ⟨hview, hdef, htrig, hfts⟩ := loadDb_kvs hs' hdump (nodup_tablesDump (S .tables) dbId tables)
    (fun dump hd => by
      obtain ⟨views, -, rfl⟩ := Option.map_eq_some_iff.mp (hviewsDump.symm.trans hd)
      exact nodup_hashOrder views)
    (fun dump hd => by
      obtain ⟨triggers, -, rfl⟩ := Option.map_eq_some_iff.mp (htriggersDump.symm.trans hd)
      exact nodup_hashOrder triggers) table
  have hstore : (S .tables).kvs.getTableStore dbId table = tables.get table := by
    rw [KvsState.getTableStore, htables, Option.bind_some]
  have hstoreR : R.kvs.getTableStore dbId table =
      (Server.loadDb disk s' dbId).kvs.getTableStore dbId table :=
    congrArg (fun v => TableView.store (v table)) (KvsState.tableView_congr hkvs)
  rw [lookup_tablesDump] at hview hfts
  simp only [hviewsDump, Option.bind_map, Function.comp_def, lookup_hashOrder] at hdef
  simp only [htriggersDump, Option.bind_map, Function.comp_def, lookup_hashOrder] at htrig
  intro kvs
  refine ⟨?_, ?_, ?_, ?_⟩
  · rw [show kvs.tableView dbId = _ from KvsState.tableView_congr hkvs, hview, hstore]
    cases tables.get table <;> rfl
  · exact (congrFun (KvsState.getViewDefinition_congr hkvs) table).trans hdef
  · exact (congrFun (KvsState.getTriggers_congr hkvs) table).trans htrig
  · rw [show kvs.getFtsTable dbId = _ from KvsState.getFtsTable_congr hkvs, hfts, hstore,
      show kvs.getTableStore dbId table = _ from hstoreR]
    cases tables.get table <;> rfl

theorem reload_raw (table : String) (key : Bytes) :
    (reload databases disk limit overflowDir workingDir files).raw.inMemory dbId table key =
      (S .raw).raw.inMemory dbId table key := by
  obtain ⟨s', hs', hR⟩ := reload_db disk limit overflowDir workingDir files h
  have hraw := congrArg Prod.snd hR
  obtain ⟨tables, htables⟩ := Option.isSome_iff_exists.mp hdb
  have hdump : disk.file dbId .tables = some ((S .tables).tablesDump dbId tables) := by
    rw [hfiles, Server.dump, htables, Option.map_some]
  have hrawDump : disk.file dbId .raw = ((S .raw).raw.rawStores.get dbId).map fun rawTables =>
      (hashOrder rawTables.entries).map fun t => (t.1, hashOrder t.2.entries) := by
    rw [hfiles, Server.dump]
  have hload := loadDb_raw hs' hdump (fun dump hd => by
    obtain ⟨rawTables, -, rfl⟩ := Option.map_eq_some_iff.mp (hrawDump.symm.trans hd)
    rw [List.map_map]
    exact nodup_hashOrder rawTables) table
  have htable : (reload databases disk limit overflowDir workingDir files).raw.rawTable dbId
      table = (Server.loadDb disk s' dbId).raw.rawTable dbId table := by
    rw [RawState.rawTable, RawState.rawTable]
    exact congrArg (fun m => Option.bind m _) hraw
  rw [RawState.inMemory, htable, hload, RawState.inMemory, RawState.rawTable, hrawDump]
  cases (S .raw).raw.rawStores.get dbId with
  | none => rfl
  | some rawTables =>
      rw [Option.map_some, Option.bind_some, Option.bind_some,
        IndexMap.lookup_map _ fun _ (t : RawTable) => hashOrder t.entries, lookup_hashOrder]
      cases rawTables.get table with
      | none => rfl
      | some t =>
          rw [Option.map_some, Option.map_some, Option.bind_some, Option.bind_some]
          exact (IndexMap.get_ofList_of_nodup (nodup_hashOrder t) key).trans (lookup_hashOrder t key)

omit h hfiles hdb in
theorem FtsIndex.Same.search_eq {idx idx' : FtsIndex} (h : idx.Same idx') (query : String) :
    idx.search query = idx'.search query := by
  unfold FtsIndex.search
  simp only [IndexMap.getD, h.inverted]

omit [Externals] h hfiles hdb in
theorem row_mk (s : KvsState) (dbId : UInt32) (table : String) (rowid : RowId) :
    s.row ⟨dbId, table, rowid⟩ = (s.getTableStore dbId table).bind fun rows => rows.get rowid := rfl

/-- What a restart gives back of every table of a configured database. -/
theorem reload_table (table : String) :
    let kvs := (reload databases disk limit overflowDir workingDir files).kvs
    kvs.hasStore dbId table = (S .tables).kvs.hasStore dbId table ∧
      (∀ rowid, kvs.row ⟨dbId, table, rowid⟩ = (S .tables).kvs.row ⟨dbId, table, rowid⟩) ∧
      kvs.getSchema dbId table =
        ((S .tables).kvs.getTableStore dbId table).bind fun _ => (S .tables).kvs.getSchema dbId table := by
  obtain ⟨hview, -, -, -⟩ := reload_kvs limit overflowDir workingDir files h hfiles hdb table
  intro kvs
  have hstore : kvs.getTableStore dbId table = (kvs.tableView dbId table).store := rfl
  have hschema : kvs.getSchema dbId table = (kvs.tableView dbId table).schema := rfl
  rw [hview] at hstore hschema
  simp only [KvsState.hasStore, row_mk, hstore, hschema]
  cases (S .tables).kvs.getTableStore dbId table with
  | none => exact ⟨rfl, fun _ => rfl, rfl⟩
  | some store =>
      refine ⟨rfl, fun rowid => ?_, Option.or_none⟩
      rw [Option.bind_some]
      exact (IndexMap.get_ofList_of_nodup (nodup_hashOrder store) rowid).trans
        (lookup_hashOrder store rowid)

/-- The counter of a table stands above its rowids, unless it has the greatest one of all. -/
theorem reload_counter (table : String) :
    let kvs := (reload databases disk limit overflowDir workingDir files).kvs
    (∀ rowid, (kvs.row ⟨dbId, table, rowid⟩).isSome → rowid < kvs.rowidCounter dbId table) ↔
      (S .tables).kvs.row ⟨dbId, table, lastRowid⟩ = none := by
  obtain ⟨hview, -, -, -⟩ := reload_kvs limit overflowDir workingDir files h hfiles hdb table
  obtain ⟨-, hrow, -⟩ := reload_table limit overflowDir workingDir files h hfiles hdb table
  intro kvs
  have hcounter : kvs.rowidCounter dbId table = (kvs.tableView dbId table).counter := rfl
  rw [hview] at hcounter
  simp only [show ∀ rowid, kvs.row ⟨dbId, table, rowid⟩ = _ from hrow, row_mk, hcounter]
  cases (S .tables).kvs.getTableStore dbId table with
  | none => exact ⟨fun _ => rfl, fun _ rowid hsome => by cases hsome⟩
  | some store =>
      have habove := counter_above_iff (hashOrder store.entries)
      have hmem : ∀ r, r ∈ hashOrder store.entries ↔ store.get r.1 = some r.2 := by
        intro r
        rw [(hashOrder_perm store.entries).mem_iff]
        exact IndexMap.mem_entries_iff_get store r.1 r.2
      simp only [Option.bind_some]
      constructor
      · intro hall
        by_contra hlast
        obtain ⟨row, hrow⟩ := Option.ne_none_iff_exists'.mp hlast
        refine habove.mp (fun r hr => hall r.1 ?_) (lastRowid, row) ((hmem _).mpr hrow) rfl
        rw [(hmem r).mp hr]
        rfl
      · intro hlast rowid hsome
        obtain ⟨row, hrow⟩ := Option.isSome_iff_exists.mp hsome
        refine habove.mpr (fun r hr heq => ?_) (rowid, row) ((hmem _).mpr hrow)
        have hr' := (hmem r).mp hr
        rw [heq, hlast] at hr'
        cases hr'

/-- The index under the name of a definition is made, from the rows, for a definition of that
name. -/
theorem reload_index (table : String) (hstore : (S .tables).kvs.hasStore dbId table = true)
    (hreal : ∀ rowid row, (S .tables).kvs.row ⟨dbId, table, rowid⟩ = some row → row.realFree) (rowid : RowId)
    (idx : IndexDef) (hidx : HasIndex (S .tables).kvs ⟨dbId, table, rowid⟩ idx) :
    ∃ idx', HasIndex (S .tables).kvs ⟨dbId, table, rowid⟩ idx' ∧ idx'.name = idx.name ∧
      ∀ v, v.isReal = false →
        (Entry (reload databases disk limit overflowDir workingDir files).kvs
            ⟨dbId, table, rowid⟩ idx v ↔
          filed idx' ((S .tables).kvs.row ⟨dbId, table, rowid⟩) = some v) := by
  obtain ⟨hview, -, -, -⟩ := reload_kvs limit overflowDir workingDir files h hfiles hdb table
  obtain ⟨-, hrow, -⟩ := reload_table limit overflowDir workingDir files h hfiles hdb table
  generalize (reload databases disk limit overflowDir workingDir files).kvs = kvs at hview hrow
  obtain ⟨schema, hschema, hin⟩ := hidx
  obtain ⟨store, hget⟩ := Option.isSome_iff_exists.mp hstore
  obtain ⟨idx', hin', hname, hrebuilt⟩ := exists_rebuiltAll schema.indices
    ((hashOrder store.entries).foldl (fun store r => store.insert r.1 r.2) ∅) (fun _ => ∅) hin
  refine ⟨idx', ⟨schema, hschema, hin'⟩, hname, fun v hv => ?_⟩
  have hindex : kvs.indexStore dbId table = (kvs.tableView dbId table).index := rfl
  rw [hview, hget, show (S .tables).kvs.getSchema dbId table = some schema from hschema] at hindex
  have hrows : ∀ r, ((hashOrder store.entries).foldl (fun store r => store.insert r.1 r.2)
      (∅ : Store)).get r = (S .tables).kvs.row ⟨dbId, table, r⟩ := by
    intro r
    rw [row_mk, hget]
    exact (IndexMap.get_ofList_of_nodup (nodup_hashOrder store) r).trans (lookup_hashOrder store r)
  have hmem := mem_bucket_rebuilt idx' (fun r row hr => hreal r row ((hrows r).symm.trans hr)) hv
    rowid
  rw [hrows] at hmem
  rw [Entry, hindex]
  exact (congrArg (fun index => rowid ∈ bucket index v) hrebuilt).to_iff.trans hmem

end Saved

end Reload

end Skvs
