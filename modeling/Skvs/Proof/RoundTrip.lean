import Skvs.Proof.Reload

/-!
# A save and a restart

What is saved of a database comes back, and so do the indexes that are exact for the rows saved. The
one thing that can go wrong is arithmetic: the counter of a table is set to one above its greatest
rowid, and there is nothing above the greatest rowid of all.
-/

namespace Skvs

/-! ### The state after a restart -/

variable [Externals]

/-- The maps of every configured database are there, and no other database has tables. -/
structure Configured (databases : List UInt32) (s : Server) : Prop where
  dbs : ∀ dbId, (s.kvs.dbs.get dbId).isSome ↔ dbId ∈ databases
  raw : ∀ dbId ∈ databases, (s.raw.rawStores.get dbId).isSome
  views : ∀ dbId ∈ databases, (s.kvs.views.get dbId).isSome
  triggers : ∀ dbId ∈ databases, (s.kvs.triggers.get dbId).isSome

/-- What a restart makes of a save of `S` is as `S` was. -/
structure RoundTrip (databases : List UInt32) (S R : Server) : Prop where
  tables : ∀ dbId ∈ databases, ∀ table,
    R.kvs.hasStore dbId table = S.kvs.hasStore dbId table
  rows : ∀ dbId ∈ databases, ∀ table rowid,
    R.kvs.row ⟨dbId, table, rowid⟩ = S.kvs.row ⟨dbId, table, rowid⟩
  schemas : ∀ dbId ∈ databases, ∀ table, R.kvs.getSchema dbId table = S.kvs.getSchema dbId table
  raw : ∀ dbId ∈ databases, ∀ table key,
    R.raw.inMemory dbId table key = S.raw.inMemory dbId table key
  views : ∀ dbId ∈ databases, ∀ name,
    R.kvs.getViewDefinition dbId name = S.kvs.getViewDefinition dbId name
  triggers : ∀ dbId ∈ databases, ∀ table, R.kvs.getTriggers dbId table = S.kvs.getTriggers dbId table
  indexes : ∀ dbId ∈ databases, ∀ table rowid idx v, HasIndex R.kvs ⟨dbId, table, rowid⟩ idx →
    v.isReal = false → (Entry R.kvs ⟨dbId, table, rowid⟩ idx v ↔
      filed idx (R.kvs.row ⟨dbId, table, rowid⟩) = some v)
  fts : ∀ dbId ∈ databases, ∀ table schema column, R.kvs.getSchema dbId table = some schema →
    schema.fts5ContentColumn = some column → ∃ fts, R.kvs.getFtsTable dbId table = some fts ∧
      ∀ query, fts.index.search query =
        (FtsIndex.ofStore column ((R.kvs.getTableStore dbId table).getD ∅)).search query
  rowids : ∀ dbId ∈ databases, ∀ table rowid, (R.kvs.row ⟨dbId, table, rowid⟩).isSome →
    rowid < R.kvs.rowidCounter dbId table

/-- A state whose save can be restored. The first two hold of every state that statements lead to. -/
structure Restorable (databases : List UInt32) (S : Server) : Prop where
  stores : ∀ dbId ∈ databases, ∀ table, (S.kvs.getSchema dbId table).isSome →
    S.kvs.hasStore dbId table = true
  names : ∀ dbId ∈ databases, ∀ table rowid idx idx', HasIndex S.kvs ⟨dbId, table, rowid⟩ idx →
    HasIndex S.kvs ⟨dbId, table, rowid⟩ idx' → idx.name = idx'.name →
      filed idx (S.kvs.row ⟨dbId, table, rowid⟩) = filed idx' (S.kvs.row ⟨dbId, table, rowid⟩)
  rowids : ∀ dbId ∈ databases, ∀ table, S.kvs.row ⟨dbId, table, lastRowid⟩ = none

section Restart

variable {databases : List UInt32} {S : Server} (hconf : Configured databases S) (disk : Disk)
  (limit : Nat) (overflowDir : String) (workingDir : Path.Resolved)
  (files : IndexMap Path.Resolved Bytes)

/-- The server after a save of `S` and a restart. -/
def restart (databases : List UInt32) (S : Server) (disk : Disk) (limit : Nat)
    (overflowDir : String) (workingDir : Path.Resolved) (files : IndexMap Path.Resolved Bytes) :
    Server :=
  reload databases (disk.run S.saveSqlSnapshot) limit overflowDir workingDir files

include hconf

theorem dump_isSome {dbId : UInt32} (h : dbId ∈ databases) (f : SnapshotFile) :
    (S.dump dbId f).isSome := by
  cases f with
  | tables => simpa [Server.dump] using (hconf.dbs dbId).mpr h
  | raw => simpa [Server.dump] using hconf.raw dbId h
  | views => simpa [Server.dump] using hconf.views dbId h
  | triggers => simpa [Server.dump] using hconf.triggers dbId h

theorem file_of_configured {dbId : UInt32} (h : dbId ∈ databases) (f : SnapshotFile) :
    (disk.run S.saveSqlSnapshot).file dbId f = S.dump dbId f := by
  rw [Server.file_saveSqlSnapshot, if_pos ((hconf.dbs dbId).mpr h),
    Option.or_of_isSome (dump_isSome hconf h f)]

/-- A save and a restart give back everything that is saved, with exact indexes, search results and
rowid counters above all rowids, exactly if no table has a row under the greatest rowid (and, as in
every state that statements lead to, schemas have stores and index names are not used twice). -/
theorem round_trip_iff (hreal : ∀ k row, S.kvs.row k = some row → row.realFree) :
    RoundTrip databases S (restart databases S disk limit overflowDir workingDir files) ↔
      Restorable databases S := by
  have hfiles := fun dbId (h : dbId ∈ databases) => file_of_configured hconf disk h
  have hdb := fun dbId (h : dbId ∈ databases) => (hconf.dbs dbId).mpr h
  unfold restart
  generalize disk.run S.saveSqlSnapshot = disk' at hfiles
  have htable := fun dbId (h : dbId ∈ databases) =>
    reload_table limit overflowDir workingDir files h (S := fun _ => S) (hfiles dbId h) (hdb dbId h)
  have hkvs := fun dbId (h : dbId ∈ databases) =>
    reload_kvs limit overflowDir workingDir files h (S := fun _ => S) (hfiles dbId h) (hdb dbId h)
  have hindex := fun dbId (h : dbId ∈ databases) table hstore hreal rowid idx =>
    reload_index limit overflowDir workingDir files h (S := fun _ => S) (hfiles dbId h) (hdb dbId h) table hstore hreal rowid
      idx
  have hcounter := fun dbId (h : dbId ∈ databases) =>
    reload_counter limit overflowDir workingDir files h (S := fun _ => S) (hfiles dbId h) (hdb dbId h)
  have hraw := fun dbId (h : dbId ∈ databases) =>
    reload_raw limit overflowDir workingDir files h (S := fun _ => S) (hfiles dbId h) (hdb dbId h)
  generalize reload databases disk' limit overflowDir workingDir files = R at *
  constructor
  · intro hR
    have hstores : ∀ dbId ∈ databases, ∀ table, (S.kvs.getSchema dbId table).isSome →
        S.kvs.hasStore dbId table = true := by
      intro dbId h table hsome
      have hschema := hR.schemas dbId h table
      rw [(htable dbId h table).2.2] at hschema
      cases hget : S.kvs.getTableStore dbId table with
      | none =>
          rw [hget, Option.bind_none] at hschema
          rw [← hschema] at hsome
          exact nomatch hsome
      | some store =>
          rw [KvsState.hasStore, hget]
          rfl
    refine ⟨hstores, ?_, fun dbId h table => (hcounter dbId h table).mp (hR.rowids dbId h table)⟩
    intro dbId h table rowid idx idx' hidx hidx' hname
    have hlift : ∀ idx, HasIndex S.kvs ⟨dbId, table, rowid⟩ idx →
        HasIndex R.kvs ⟨dbId, table, rowid⟩ idx := by
      rintro idx ⟨schema, hschema, hin⟩
      exact ⟨schema, (hR.schemas dbId h table).trans hschema, hin⟩
    have hsame : ∀ v, v.isReal = false →
        (filed idx (S.kvs.row ⟨dbId, table, rowid⟩) = some v ↔
          filed idx' (S.kvs.row ⟨dbId, table, rowid⟩) = some v) := by
      intro v hv
      rw [← (htable dbId h table).2.1 rowid,
        ← hR.indexes dbId h table rowid idx v (hlift idx hidx) hv,
        ← hR.indexes dbId h table rowid idx' v (hlift idx' hidx') hv, Entry, Entry, hname]
    have hnot : ∀ {idx v}, filed idx (S.kvs.row ⟨dbId, table, rowid⟩) = some v →
        v.isReal = false := fun hv => filed_not_real (hreal ⟨dbId, table, rowid⟩) hv
    apply Option.ext
    intro v
    exact ⟨fun hv => (hsame v (hnot hv)).mp hv, fun hv => (hsame v (hnot hv)).mpr hv⟩
  · intro hS
    have hschemas : ∀ dbId ∈ databases, ∀ table,
        R.kvs.getSchema dbId table = S.kvs.getSchema dbId table := by
      intro dbId h table
      rw [(htable dbId h table).2.2]
      cases hschema : S.kvs.getSchema dbId table with
      | none => exact Option.bind_fun_none _
      | some schema =>
          obtain ⟨store, hget⟩ := Option.isSome_iff_exists.mp
            (hS.stores dbId h table (by rw [hschema]; rfl))
          rw [hget]
          rfl
    refine ⟨fun dbId h table => (htable dbId h table).1,
      fun dbId h table => (htable dbId h table).2.1, hschemas, hraw,
      fun dbId h name => (hkvs dbId h name).2.1, fun dbId h table => (hkvs dbId h table).2.2.1,
      ?_, ?_, fun dbId h table => (hcounter dbId h table).mpr (hS.rowids dbId h table)⟩
    · rintro dbId h table rowid idx v ⟨schema, hschema, hin⟩ hv
      have hidx : HasIndex S.kvs ⟨dbId, table, rowid⟩ idx :=
        ⟨schema, (hschemas dbId h table).symm.trans hschema, hin⟩
      have hstore := hS.stores dbId h table
        (Option.isSome_iff_exists.mpr ⟨schema, (hschemas dbId h table).symm.trans hschema⟩)
      obtain ⟨idx', hidx', hname, hentry⟩ :=
        hindex dbId h table hstore (fun r => hreal ⟨dbId, table, r⟩) rowid idx hidx
      rw [hentry v hv, hS.names dbId h table rowid idx' idx hidx' hidx hname,
        (htable dbId h table).2.1]
    · intro dbId h table schema column hschema hcolumn
      have hschemaS := (hschemas dbId h table).symm.trans hschema
      obtain ⟨store, hget⟩ := Option.isSome_iff_exists.mp
        (hS.stores dbId h table (Option.isSome_iff_exists.mpr ⟨schema, hschemaS⟩))
      have hfts := (hkvs dbId h table).2.2.2
      rw [hget, hschemaS, Option.bind_some, Option.bind_some, hcolumn, Option.map_some] at hfts
      refine ⟨_, hfts, fun query => FtsIndex.Same.search_eq ?_ query⟩
      exact (KvsState.exact_ftsOf column _).same (FtsIndex.exact_ofStore column _)

end Restart

omit [Externals] in
theorem configured_of_keys {databases : List UInt32} {s : Server}
    (hkeys : s.kvs.dbs.keys = databases)
    (hmaps : ∀ dbId ∈ databases, (s.raw.rawStores.get dbId).isSome ∧
      (s.kvs.views.get dbId).isSome ∧ (s.kvs.triggers.get dbId).isSome) :
    Configured databases s where
  dbs dbId := by rw [← hkeys, IndexMap.mem_keys_iff_get, Option.isSome_iff_exists]
  raw dbId h := (hmaps dbId h).1
  views dbId h := (hmaps dbId h).2.1
  triggers dbId h := (hmaps dbId h).2.2

omit [Externals] in
/-- With exact indexes, and a store for every schema, only the rowids are in question. -/
theorem restorable_of_exact {databases : List UInt32} {s : Server} (hexact : IndexesExact s.kvs)
    (hstores : ∀ dbId ∈ databases, ∀ e ∈ (s.kvs.schemas.getD dbId ∅).entries,
      s.kvs.hasStore dbId e.1 = true)
    (hrowids : ∀ dbId ∈ databases, ∀ table, s.kvs.row ⟨dbId, table, lastRowid⟩ = none) :
    Restorable databases s where
  stores dbId h table hsome := by
    obtain ⟨schema, hschema⟩ := Option.isSome_iff_exists.mp hsome
    obtain ⟨db, hdb, hget⟩ := Option.bind_eq_some_iff.mp hschema
    refine hstores dbId h (table, schema) ?_
    rw [IndexMap.getD, hdb]
    exact (IndexMap.mem_entries_iff_get ..).mpr hget
  names dbId _ table rowid idx idx' hidx hidx' hname := by
    obtain ⟨schema, hschema, hin⟩ := hidx
    obtain ⟨schema', hschema', hin'⟩ := hidx'
    obtain rfl := Option.some.inj (hschema.symm.trans hschema')
    rw [List.inj_on_of_nodup_map ((hexact dbId table).names schema hschema) hin hin' hname]
  rowids := hrowids

namespace Sample

/-- One database with a table whose only row has the greatest rowid. -/
def lastRow : Server where
  kvs := { KvsState.new [0] with dbs := .ofList [(0, .ofList [("t", .ofList [(lastRowid, row 1)])])] }
  raw := raw

end Sample

omit [Externals] in
/-- The counter of the restored table is at 1. -/
theorem last_rowid_not_exceeded :
    letI := Externals.ofTexts [] []
    Configured [0] Sample.lastRow ∧ (∀ k row, Sample.lastRow.kvs.row k = some row → row.realFree) ∧
      ¬RoundTrip [0] Sample.lastRow
        (restart [0] Sample.lastRow .empty 1 "data/overflow" [] ∅) := by
  let _ := Externals.ofTexts [] []
  have hexact : IndexesExact Sample.lastRow.kvs := indexesExact_of_check (by decide)
  refine ⟨configured_of_keys (by decide) (List.forall_mem_singleton.mpr (by decide)),
    fun k => (hexact k.dbId k.table).realFree k.rowid, fun h => ?_⟩
  have habove := h.rowids 0 List.mem_cons_self "t" lastRowid (by decide)
  revert habove
  decide

namespace Sample

/-- A table with an index and two rows. -/
def indexedServer : Server where
  kvs :=
    letI := Externals.ofTexts [] []
    after [call (create []) none, call createIndex none,
      call (insert [.number "1", .number "2"]) none]
  raw := raw

end Sample

omit [Externals] in
/-- A table with an index and two rows comes back. -/
theorem indexed_table_restored :
    letI := Externals.ofTexts [] []
    RoundTrip [0] Sample.indexedServer
      (restart [0] Sample.indexedServer .empty 1 "data/overflow" [] ∅) := by
  let _ := Externals.ofTexts [] []
  have hexact : IndexesExact Sample.indexedServer.kvs := indexesExact_of_check (by decide)
  refine (round_trip_iff (configured_of_keys (by decide) (List.forall_mem_singleton.mpr (by decide))) _ _ _ _ _
    fun k => (hexact k.dbId k.table).realFree k.rowid).mpr
      (restorable_of_exact hexact (List.forall_mem_singleton.mpr (by decide)) fun dbId h table => ?_)
  obtain rfl := List.mem_singleton.mp h
  have hlast : ∀ e ∈ (Sample.indexedServer.kvs.dbs.getD 0 ∅).entries, e.2.get lastRowid = none := by
    decide
  rw [row_mk, KvsState.getTableStore]
  cases hdb : Sample.indexedServer.kvs.dbs.get 0 with
  | none => rfl
  | some db =>
      rw [Option.bind_some]
      cases hget : db.get table with
      | none => rfl
      | some store =>
          rw [IndexMap.getD, hdb] at hlast
          exact hlast (table, store) ((IndexMap.mem_entries_iff_get ..).mpr hget)

end Skvs
