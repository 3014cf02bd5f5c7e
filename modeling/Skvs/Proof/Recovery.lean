import Skvs.Lib.Durable
import Skvs.Lifecycle
import Skvs.Proof.Catalogued
import Skvs.Proof.CrashDuringSave
import Skvs.Proof.Databases
import Skvs.Proof.Durability
import Skvs.Proof.HttpSql

/-!
# Rows after crashes

Without a limit on raw tables, all of their entries are in memory and every save has all of them. To
a client such a server is a store that crashes: a row is answered with the last of the operations on
it that are not taken back, and an operation that some save has seen through is never taken back.
-/

namespace Skvs

open Prog

/-! ### Databases stay -/

section

variable [Externals] {dbId id : UInt32}

/-- The tables of a database are there, be they none. -/
def World.HasDb (id : UInt32) (w : World) : Prop := (w.kvs.dbs.get id).isSome

omit [Externals] in
theorem hasDb_sets {s s' : KvsState} {k : Key} {copy after : Option Row} (h : (s.dbs.get id).isSome)
    (hs' : Sets s k copy after s') : (s'.dbs.get id).isSome := by
  obtain ⟨_, _, rfl⟩ := hs'.frame
  exact (isSome_get_modify s.dbs id _).trans h

theorem keptOn_hasDb (dbId : UInt32) : KeptOn dbId (World.HasDb id) where
  store w txId k copy after _ hw := by
    have hrecorded : ((w.kvs.record txId (undoEntry k copy after)).dbs.get id).isSome := by
      obtain ⟨_, hframe⟩ := record_frame w.kvs txId (undoEntry k copy after)
      rw [hframe]
      exact hw
    exact hasDb_sets hrecorded (store_sets w txId k copy after)
  draw _ _ hw := hw
  maintain w s' hw hs' := by
    cases hs' with
    | ensureSchemas => exact hw
    | setSchema => exact hw
    | freshTable table => exact isSome_get_insert _ id _ hw
    | removeTable table => exact (isSome_get_modify w.kvs.dbs id _).trans hw
    | renameTable table newName => exact (isSome_get_modify w.kvs.dbs id _).trans hw
    | rewriteRows table f => exact (isSome_get_modify w.kvs.dbs id _).trans hw
    | rebuildIndex table idx =>
        change ((rebuildIndex w.kvs dbId table idx).dbs.get id).isSome
        unfold rebuildIndex
        cases w.kvs.getTableStore dbId table <;> exact hw
    | dropIndexStore => exact hw
    | registerFtsTable => exact hw
    | addView => exact hw
    | removeView _ name hremove =>
        unfold KvsState.removeView at hremove
        cases hviews : w.kvs.views.get dbId with
        | none => rw [hviews] at hremove; cases hremove
        | some views =>
            rw [hviews] at hremove
            cases hremove
            exact hw

theorem hasDb_ends {w : World} (txId : UInt32) (h : w.HasDb id) :
    (w.commit txId).HasDb id ∧ (w.rollback txId).HasDb id := by
  constructor
  · obtain ⟨_, hframe⟩ := commit_frame w txId
    rw [hframe]
    exact h
  · rw [rollback_eq]
    split
    · exact undoAll_keeps _ _ (P := fun s => (s.dbs.get id).isSome) h fun _ _ _ _ _ hs hsets =>
        hasDb_sets hs hsets
    · exact h

theorem hasDb_loadDb (disk : Disk) {s : Server} (h : (s.kvs.dbs.get dbId).isSome) :
    ((s.loadDb disk dbId).kvs.dbs.get dbId).isSome := by
  unfold Server.loadDb
  cases disk.file dbId .tables with
  | none => exact h
  | some dump =>
      have htables : ((s.kvs.restoreTables dbId dump).dbs.get dbId).isSome :=
        List.foldlRecOn dump _ (motive := fun s : KvsState => (s.dbs.get dbId).isSome) h
          fun s hs t _ => KvsState.dbs_restoreTable s dbId t hs
      dsimp only
      refine List.foldlRecOn (KvsState.ftsToRebuild dump) _
        (motive := fun s : KvsState => (s.dbs.get dbId).isSome) ?_ fun s hs t _ => ?_
      · generalize s.kvs.restoreTables dbId dump = kvs at htables
        cases disk.file dbId .views with
        | none =>
            cases disk.file dbId .triggers with
            | none => exact htables
            | some triggers =>
                obtain ⟨_, hframe⟩ := kvs.restoreTriggers_frame dbId triggers
                rw [Option.elim_some, Option.elim_none, hframe]
                exact htables
        | some views =>
            obtain ⟨_, hviews⟩ := kvs.restoreViews_frame dbId views
            rw [Option.elim_some, hviews]
            cases disk.file dbId .triggers with
            | none => exact htables
            | some triggers =>
                obtain ⟨_, hframe⟩ := KvsState.restoreTriggers_frame { kvs with views := _ } dbId
                  triggers
                rw [Option.elim_some, hframe]
                exact htables
      · obtain ⟨_, hframe⟩ := s.rebuildFts_frame dbId t
        rw [hframe]
        exact hs

theorem rawStores_loadDb (disk : Disk) {s : Server} (h : (s.raw.rawStores.get dbId).isSome) :
    ((s.loadDb disk dbId).raw.rawStores.get dbId).isSome := by
  unfold Server.loadDb
  cases disk.file dbId .tables with
  | none => exact h
  | some dump =>
      cases disk.file dbId .raw with
      | none => exact h
      | some raw =>
          refine List.foldlRecOn raw _
            (motive := fun s : RawState => (s.rawStores.get dbId).isSome) ?_ fun s hs t _ => ?_
          · rw [IndexMap.get_insertIfNew, if_pos rfl]
            rfl
          · refine (isSome_get_modify _ dbId _).trans ?_
            exact isSome_get_insert _ dbId _ hs

/-- A restart makes every configured database. -/
theorem reload_makes {databases : List UInt32} (h : dbId ∈ databases) (disk : Disk) (limit : Nat)
    (overflowDir : String) (workingDir : Path.Resolved) (files : IndexMap Path.Resolved Bytes) :
    let R := reload databases disk limit overflowDir workingDir files
    (R.kvs.dbs.get dbId).isSome ∧ (R.raw.rawStores.get dbId).isSome := by
  obtain ⟨s', hs', hR⟩ := reload_db disk limit overflowDir workingDir files h
  have hdbs := congrArg (fun v => v.1.stores) hs'
  have hraw := congrArg Prod.snd hs'
  have hdbsR := congrArg (fun v => v.1.stores) hR
  have hrawR := congrArg Prod.snd hR
  change s'.kvs.dbs.get dbId = some ∅ at hdbs
  change s'.raw.rawStores.get dbId = some ∅ at hraw
  change (reload databases disk limit overflowDir workingDir files).kvs.dbs.get dbId =
    (s'.loadDb disk dbId).kvs.dbs.get dbId at hdbsR
  change (reload databases disk limit overflowDir workingDir files).raw.rawStores.get dbId =
    (s'.loadDb disk dbId).raw.rawStores.get dbId at hrawR
  refine ⟨?_, ?_⟩
  · rw [hdbsR]
    exact hasDb_loadDb disk (by rw [hdbs]; rfl)
  · rw [hrawR]
    exact rawStores_loadDb disk (by rw [hraw]; rfl)

end

/-! ### Raw tables without a limit -/

/-- There is no limit, and no overflow file. -/
structure RawState.Unlimited (s : RawState) : Prop where
  limit : s.maxEntriesPerTable = 0
  files : s.files = ∅

namespace RawState.Unlimited

variable {s : RawState} (h : s.Unlimited) (dbId : UInt32) (table : String)
include h

theorem getRaw_eq (key : Bytes) : s.getRaw dbId table key = s.inMemory dbId table key := by
  rw [RawState.getRaw_eq, RawState.onDisk, h.files]
  exact Option.or_none

theorem putRaw_eq (key value : Bytes) (env : Surroundings) :
    s.putRaw dbId table key value env = s.insertRaw dbId table key value := by
  have hlimit : (s.insertRaw dbId table key value).maxEntriesPerTable = 0 := h.limit
  exact if_neg fun hover => by omega

theorem run (c : RawCall) : (c.run s).Unlimited := by
  obtain ⟨dbId, table, op⟩ := c
  cases op with
  | put key value env =>
      change (s.putRaw dbId table key value env).Unlimited
      rw [h.putRaw_eq]
      refine ⟨h.limit, ?_⟩
      change s.files.erase _ = ∅
      rw [h.files]
      rfl
  | remove key =>
      refine ⟨h.limit, ?_⟩
      change s.files.erase _ = ∅
      rw [h.files]
      rfl
  | get key => exact h

theorem inMemory_run (c : RawCall) : (c.run s).inMemory dbId table =
    if dbId = c.dbId ∧ table = c.table then c.op.apply (s.inMemory dbId table)
    else s.inMemory dbId table := by
  have hget : ∀ s' : RawState, s'.Unlimited → s'.inMemory dbId table = s'.getRaw dbId table :=
    fun s' h' => funext fun key => (h'.getRaw_eq dbId table key).symm
  split_ifs with hc
  · obtain ⟨rfl, rfl⟩ := hc
    rw [hget _ (h.run c), hget s h]
    obtain ⟨dbId, table, op⟩ := c
    funext key
    cases op with
    | put key' value env =>
        rw [RawOp.apply, Function.update_apply]
        exact s.getRaw_putRaw dbId table key' value env key
    | remove key' =>
        rw [RawOp.apply, Function.update_apply]
        exact s.getRaw_removeRaw dbId table key' key
    | get key' => rfl
  · have htable := (c.onlyTable s).rawTable dbId table hc
    funext key
    rw [RawState.inMemory, RawState.inMemory, htable]

theorem runRaw (calls : List RawCall) : (Skvs.runRaw calls s).Unlimited ∧
    (Skvs.runRaw calls s).inMemory dbId table =
      plainMap dbId table calls (s.inMemory dbId table) := by
  induction calls generalizing s with
  | nil => exact ⟨h, rfl⟩
  | cons c calls ih =>
      obtain ⟨hunlimited, hmemory⟩ := ih (h.run c)
      refine ⟨hunlimited, hmemory.trans ?_⟩
      rw [h.inMemory_run dbId table c, plainMap, plainMap, List.foldl_cons]

end RawState.Unlimited

/-! ### What the snapshot files have -/

section

variable [Externals] (dbId : UInt32)

omit [Externals] in
/-- The rows that operations lead to, from none. -/
def rowsOf (l : List Applied) (table : String) : Bytes → Option Bytes :=
  plainMap dbId table (l.map Applied.call) fun _ => none

omit [Externals] in
theorem rowsOf_append (l l' : List Applied) (table : String) :
    rowsOf dbId (l ++ l') table =
      plainMap dbId table (l'.map Applied.call) (rowsOf dbId l table) := by
  rw [rowsOf, rowsOf, List.map_append, plainMap, plainMap, List.foldl_append]
  rfl

/-- The files of a database, each of some save, have the rows that the operations lead to. -/
structure SavedAs (disk : Disk) (l : List Applied) : Prop where
  files : ∃ S : SnapshotFile → Server, (∀ f, disk.file dbId f = (S f).dump dbId f) ∧
    ∀ table, (S .raw).raw.inMemory dbId table = rowsOf dbId l table
  /-- The file of the tables is the first one there is. -/
  tables : (disk.file dbId .tables).isSome ∨ ∀ f, disk.file dbId f = none

variable {dbId} {disk : Disk} {l : List Applied}

theorem SavedAs.reload (h : SavedAs dbId disk l) {databases : List UInt32}
    (hdb : dbId ∈ databases) (limit : Nat) (overflowDir : String) (workingDir : Path.Resolved)
    (files : IndexMap Path.Resolved Bytes) (table : String) :
    (reload databases disk limit overflowDir workingDir files).raw.inMemory dbId table =
      rowsOf dbId l table := by
  obtain ⟨S, hfiles, hrows⟩ := h.files
  rcases h.tables with htables | hnone
  · rw [hfiles, Server.dump, Option.isSome_map] at htables
    rw [← hrows]
    funext key
    exact reload_raw limit overflowDir workingDir files hdb hfiles htables table key
  · have hsame := reload_same_fresh limit overflowDir workingDir files hdb hnone .raw
    have hempty : (S .raw).raw.inMemory dbId table = fun _ => none := by
      have hdump := (hfiles .raw).symm.trans (hnone .raw)
      rw [Server.dump, Option.map_eq_none_iff] at hdump
      funext key
      rw [RawState.inMemory, RawState.rawTable, hdump]
      rfl
    rw [← hrows, hempty]
    funext key
    refine (congrFun (congrFun hsame table) key).trans ?_
    simp only [RawState.inMemory, RawState.rawTable, Server.fresh, RawState.new,
      IndexMap.get_ofList_map_const, if_pos hdb]
    rfl

/-- The server has its maps for the database. -/
structure Server.Has (s : Server) (dbId : UInt32) : Prop where
  dbs : (s.kvs.dbs.get dbId).isSome
  raw : (s.raw.rawStores.get dbId).isSome

variable {s : Server} {l' : List Applied}

theorem rename_raw_mem (hs : s.Has dbId) : DiskStep.rename dbId .raw ∈ s.saveSqlSnapshot := by
  have hin : dbId ∈ hashOrder s.kvs.dbs.keys := by
    rw [(hashOrder_perm s.kvs.dbs.keys).mem_iff, IndexMap.mem_keys_iff_get]
    exact Option.isSome_iff_exists.mp hs.dbs
  obtain ⟨tables, htables⟩ := Option.isSome_iff_exists.mp hs.raw
  refine List.mem_flatMap.mpr ⟨dbId, hin, ?_⟩
  have hfile : DiskStep.rename dbId .raw ∈ s.saveFile dbId .raw := by
    rw [Server.saveFile, Server.dump, htables]
    exact List.mem_cons_of_mem _ List.mem_cons_self
  simp only [Server.saveDb, List.mem_append]
  exact .inl (.inl (.inr hfile))

/-- After some steps of a save the files have the rows of the server, or those they had before. -/
theorem SavedAs.save (h : SavedAs dbId disk l) (hs : s.Has dbId)
    (hmemory : ∀ table, s.raw.inMemory dbId table = rowsOf dbId l' table) (k : Nat) :
    let steps := s.saveSqlSnapshot.take k
    (DiskStep.rename dbId .raw ∈ steps → SavedAs dbId (disk.run steps) l') ∧
      (DiskStep.rename dbId .raw ∉ steps → SavedAs dbId (disk.run steps) l) := by
  classical
  intro steps
  have hfile := fun f => s.file_saveSqlSnapshot_take disk dbId k f
  obtain ⟨S, hfiles, hrows⟩ := h.files
  have hmixed : ∀ f, (disk.run steps).file dbId f =
      (if DiskStep.rename dbId f ∈ steps then s else S f).dump dbId f := by
    intro f
    split_ifs with hrenamed
    · exact (hfile f).1 hrenamed
    · exact ((hfile f).2 hrenamed).trans (hfiles f)
  have htables : ((disk.run steps).file dbId .tables).isSome ∨
      ∀ f, (disk.run steps).file dbId f = none := by
    by_cases hrenamed : DiskStep.rename dbId .tables ∈ steps
    · rw [(hfile .tables).1 hrenamed, Server.dump, Option.isSome_map]
      exact .inl hs.dbs
    · have hold : ∀ f, (disk.run steps).file dbId f = disk.file dbId f := by
        refine fun f => (hfile f).2 fun hin => hrenamed ?_
        refine s.rename_tables_mem_take dbId _ k (fun id hid => ?_) hin
        rw [(hashOrder_perm s.kvs.dbs.keys).mem_iff, IndexMap.mem_keys_iff_get] at hid
        exact Option.isSome_iff_exists.mpr hid
      simp only [hold]
      exact h.tables
  refine ⟨fun hrenamed => ⟨⟨_, hmixed, fun table => ?_⟩, htables⟩,
    fun hnot => ⟨⟨_, hmixed, fun table => ?_⟩, htables⟩⟩
  · rw [if_pos hrenamed]
    exact hmemory table
  · rw [if_neg hnot]
    exact hrows table

end

/-! ### Lives of a server -/

section

variable (platform : Platform) (config : Config)

def Config.dbNameToId : IndexMap String UInt32 := (DbNames.new config.databases).dbNameToId

/-- What an event does to the raw tables and to their copy on disk. -/
def HostEvent.shown (w : Host) : HostEvent → List (Durable.Event Applied)
  | .http e =>
    ((e.applied platform config.dbNameToId config.http).map Durable.Event.change).toList ++
      if e.saves w.server then [.save] else []
  | .crash => [.crash]
  | .crashInSave _ => [.maySave, .crash]

variable [Externals] (dbId : UInt32)

/-- The same of a run. A save shows where it comes to its end: at a tick, and where the writer task was
notified of a flush. -/
def shownInRun (workingDir : Path.Resolved) (fuel : Nat) (events : List HostEvent) (w : Host) :
    List (Durable.Event Applied) :=
  Durable.shownIn (HostEvent.step config workingDir platform fuel)
    (HostEvent.shown platform config) events w

/-- A server without a limit holds the rows that a history leads to, and its files those that are
durable in it. -/
structure Host.Keeps (h : Durable.History Applied) (w : Host) : Prop where
  unlimited : w.server.raw.Unlimited
  has : w.server.snapshot.Has dbId
  names : w.server.names.dbNameToId = config.dbNameToId
  memory : ∀ table, w.server.raw.inMemory dbId table = rowsOf dbId h.all table
  disk : SavedAs dbId w.disk h.saved

variable {config dbId} (workingDir : Path.Resolved) (fuel : Nat)
  (hlimit : config.memory.maxEntriesPerTable = 0) (hdb : dbId ∈ config.ids)

section Start

include hlimit hdb

theorem Host.keeps_init {disk : Disk} {l : List Applied} (hdisk : SavedAs dbId disk l)
    (walBin : UInt32 → Bytes) :
    Host.Keeps config dbId ⟨l, []⟩ ⟨.init config workingDir disk ∅ walBin, disk⟩ := by
  obtain ⟨hdbs, hraw⟩ := reload_makes hdb disk config.memory.maxEntriesPerTable
    s!"{config.storage.baseDir}/overflow" workingDir ∅
  obtain ⟨_, hframe⟩ := Server.raw_loadSqlSnapshot disk (Server.fresh config.ids
    config.memory.maxEntriesPerTable s!"{config.storage.baseDir}/overflow" workingDir ∅)
  refine ⟨⟨?_, ?_⟩, ⟨hdbs, hraw⟩, rfl, fun table => ?_, hdisk⟩
  · change (Server.loadSqlSnapshot disk _).raw.maxEntriesPerTable = 0
    rw [hframe]
    exact hlimit
  · change (Server.loadSqlSnapshot disk _).raw.files = ∅
    rw [hframe]
    rfl
  · rw [Durable.History.all_saved]
    exact hdisk.reload hdb config.memory.maxEntriesPerTable
      s!"{config.storage.baseDir}/overflow" workingDir ∅ table

theorem Host.keeps_first : Host.Keeps config dbId .empty (.first config workingDir) :=
  Host.keeps_init workingDir hlimit hdb
    ⟨⟨fun _ => .fresh [] 0 "" [] ∅, fun f => (by cases f <;> rfl), fun _ => rfl⟩,
      .inr fun _ => rfl⟩ _

theorem Host.Keeps.restart {h : Durable.History Applied} {w : Host}
    (hw : w.Keeps config dbId h) :
    (w.restart config workingDir).Keeps config dbId ⟨h.saved, []⟩ := by
  rw [Host.restart, hw.unlimited.files]
  exact Host.keeps_init workingDir hlimit hdb hw.disk _

end Start

variable {h : Durable.History Applied} {w : Host} (hw : w.Keeps config dbId h)
include hw

theorem Host.Keeps.http (e : HttpEvent) :
    ∃ h', Durable.Run
        ((e.applied platform config.dbNameToId config.http).map Durable.Event.change).toList h h' ∧
      Host.Keeps config dbId h'
        { w with server := e.step platform fuel config.http w.server } := by
  obtain ⟨hraw, -, hnames⟩ := step_http platform fuel config.http e w.server
  rw [hw.names] at hraw hnames
  have hcalls := fun table => hw.unlimited.runRaw dbId table
    ((e.applied platform config.dbNameToId config.http).map Applied.call).toList
  refine ⟨⟨h.saved, h.pending ++ (e.applied platform config.dbNameToId config.http).toList⟩, ?_,
    ⟨?_, ⟨?_, ?_⟩, hnames, fun table => ?_, hw.disk⟩⟩
  · cases e.applied platform config.dbNameToId config.http with
    | none =>
        rw [Option.toList_none, List.append_nil]
        exact .nil h
    | some a => exact .single (.change a h)
  · rw [hraw]
    exact (hcalls "").1
  · change World.HasDb dbId (e.step platform fuel config.http w.server).world
    rw [step_world]
    exact List.foldlRecOn _ _ hw.has.dbs fun world hworld r _ =>
      serve_keeps (fun c _ hc => c.run_kept (keptOn_hasDb r.1)
        (fun world txId hworld => hasDb_ends txId hworld) (by split_ifs <;> exact hc))
        (fun _ _ _ hc => hc) platform.base64Decode fuel r.2 world hworld
  · change ((e.step platform fuel config.http w.server).raw.rawStores.get dbId).isSome
    rw [hraw]
    exact isSome_runRaw _ hw.has.raw _
  · change _ = rowsOf dbId (h.saved ++ (h.pending ++ _)) table
    rw [hraw, (hcalls table).2, ← List.append_assoc, rowsOf_append, hw.memory table]
    cases e.applied platform config.dbNameToId config.http <;> rfl

/-- A save that comes to its end has all the rows. -/
theorem Host.Keeps.save :
    (w.save w.server.snapshot.saveSqlSnapshot).Keeps config dbId ⟨h.all, []⟩ := by
  have hdisk := (hw.disk.save hw.has hw.memory w.server.snapshot.saveSqlSnapshot.length).1
  rw [List.take_length] at hdisk
  refine ⟨hw.unlimited, hw.has, hw.names, fun table => ?_, hdisk (rename_raw_mem hw.has)⟩
  rw [Durable.History.all_saved]
  exact hw.memory table

/-- A save that does not has them all, or none that were not there. -/
theorem Host.Keeps.saveInPart (k : Nat) : ∃ h', Durable.Step .maySave h h' ∧
    (w.save (w.server.snapshot.saveSqlSnapshot.take k)).Keeps config dbId h' := by
  obtain ⟨hrenamed, hnot⟩ := hw.disk.save hw.has hw.memory k
  by_cases hin : DiskStep.rename dbId .raw ∈ w.server.snapshot.saveSqlSnapshot.take k
  · refine ⟨⟨h.all, []⟩, .saved h, hw.unlimited, hw.has, hw.names, fun table => ?_, hrenamed hin⟩
    rw [Durable.History.all_saved]
    exact hw.memory table
  · exact ⟨h, .unsaved h, hw.unlimited, hw.has, hw.names, hw.memory, hnot hin⟩

/-- Each event does what some history allows. -/
theorem Host.Keeps.step (hlimit : config.memory.maxEntriesPerTable = 0) (hdb : dbId ∈ config.ids)
    (e : HostEvent) : ∃ h', Durable.Run (e.shown platform config w) h h' ∧
      (e.step config workingDir platform fuel w).Keeps config dbId h' := by
  cases e with
  | http e =>
      obtain ⟨h₁, hrun, hkept⟩ := hw.http platform fuel e
      rw [HostEvent.shown, HostEvent.step]
      split_ifs
      · exact ⟨_, hrun.append (.single (.save h₁)), hkept.save⟩
      · exact ⟨h₁, by rw [List.append_nil]; exact hrun, hkept⟩
  | crash => exact ⟨_, .single (.crash h), hw.restart workingDir hlimit hdb⟩
  | crashInSave steps =>
      obtain ⟨h₁, hrun, hkept⟩ := hw.http platform fuel .tick
      obtain ⟨h₂, hstep, hkept₂⟩ := hkept.saveInPart steps
      exact ⟨_, hrun.append (.cons hstep (.single (.crash h₂))),
        hkept₂.restart workingDir hlimit hdb⟩

theorem Host.Keeps.run (hlimit : config.memory.maxEntriesPerTable = 0) (hdb : dbId ∈ config.ids)
    (events : List HostEvent) :
    ∃ h', Durable.Run (shownInRun platform config workingDir fuel events w) h h' ∧
      (runHost config workingDir platform fuel events w).Keeps config dbId h' :=
  Durable.refines (HostEvent.step config workingDir platform fuel) (HostEvent.shown platform config)
    (Host.Keeps config dbId) (fun e _ _ hw => hw.step platform workingDir fuel hlimit hdb e) events hw

/-- A row is answered with the last of the operations on it. -/
theorem Host.Keeps.getRow {r : HttpRequest} (haccepts : config.http.accepts platform r)
    {dbName tableName rowKey : String} (hroute : r.route = .getRow dbName tableName rowKey)
    (hname : config.dbNameToId.get dbName = some dbId) (env : Surroundings) :
    (w.server.handle platform fuel config.http env r).1 =
      some (.ofRow platform
        ((lastOn dbId tableName (utf8 rowKey) h.all).bind fun e => e.op.effect)) := by
  rw [handle_getRow fuel haccepts hroute, DbNames.getDbIdByName, hw.names, hname, Option.elim_some,
    hw.unlimited.getRaw_eq, hw.memory, rowsOf, plainMap_calls]
  cases lastOn dbId tableName (utf8 rowKey) h.all <;> rfl

end

section

variable {platform : Platform} {config : Config} {dbId : UInt32}

theorem lastOn_append_of_not {table : String} {key : Bytes} {l l' : List Applied}
    (h : ∀ a ∈ l', a.o.isOn dbId table key = false) :
    lastOn dbId table key (l ++ l') = lastOn dbId table key l := by
  have hnone : (l'.map Applied.entry).filter (fun e => e.op.isOn dbId table key) = [] := by
    rw [List.filter_eq_nil_iff]
    intro e he
    obtain ⟨a, ha, rfl⟩ := List.mem_map.mp he
    exact Bool.eq_false_iff.mp (h a ha)
  rw [lastOn, lastOn, Exchange.last, Exchange.last, Exchange.matching, Exchange.matching,
    List.map_append, List.filter_append, hnone, List.append_nil]

theorem changesIn_shownInRun [Externals] {workingDir : Path.Resolved} {fuel : Nat}
    {events : List HostEvent} {w : Host} {a : Applied}
    (ha : a ∈ Durable.changesIn (shownInRun platform config workingDir fuel events w)) :
    ∃ e, HostEvent.http e ∈ events ∧ e.applied platform config.dbNameToId config.http = some a := by
  obtain ⟨shown, hshown, hchanged⟩ := List.mem_filterMap.mp ha
  obtain ⟨e, he, w', hin⟩ := Durable.exists_of_mem_shownIn _ _ hshown
  cases shown with
  | change b =>
      cases hchanged
      cases e with
      | http e =>
          refine ⟨e, he, ?_⟩
          rcases List.mem_append.mp hin with happlied | hsaving
          · obtain ⟨b, hb, heq⟩ := Option.map_eq_some_iff.mp (Option.mem_toList.mp happlied)
            cases heq
            exact hb
          · split at hsaving <;> simp at hsaving
      | crash => simp [HostEvent.shown] at hin
      | crashInSave steps => simp [HostEvent.shown] at hin
  | save => cases hchanged
  | maySave => cases hchanged
  | crash => cases hchanged

variable (platform config dbId) [Externals] (workingDir : Path.Resolved) (fuel : Nat)
  (hlimit : config.memory.maxEntriesPerTable = 0) (hdb : dbId ∈ config.ids)
include hlimit hdb

/-- **Clients see a store that crashes.** -/
theorem getRow_after_crashes (events : List HostEvent) :
    ∃ h, Durable.Run (shownInRun platform config workingDir fuel events (.first config workingDir))
        .empty h ∧
      ∀ (r : HttpRequest) (dbName tableName rowKey : String) (env : Surroundings),
        config.http.accepts platform r → r.route = .getRow dbName tableName rowKey →
          config.dbNameToId.get dbName = some dbId →
            ((runHost config workingDir platform fuel events
                (.first config workingDir)).server.handle platform fuel config.http env r).1 =
              some (.ofRow platform
                ((lastOn dbId tableName (utf8 rowKey) h.all).bind fun e => e.op.effect)) := by
  obtain ⟨h, hrun, hkept⟩ := (Host.keeps_first workingDir hlimit hdb).run platform workingDir fuel
    hlimit hdb events
  exact ⟨h, hrun, fun _ _ _ _ env haccepts hroute hname =>
    hkept.getRow platform fuel haccepts hroute hname env⟩

/-- **What a save has seen of a row stays**, whatever happens to other rows and however often the
server dies. -/
theorem saved_rows_survive (before : List HostEvent) {e : HttpEvent}
    (hsaves : e.saves (runHost config workingDir platform fuel before
      (.first config workingDir)).server) {after : List HostEvent} {tableName rowKey : String}
    (hrow : ∀ e a, HostEvent.http e ∈ after →
      e.applied platform config.dbNameToId config.http = some a →
        a.o.isOn dbId tableName (utf8 rowKey) = false)
    {r : HttpRequest} (haccepts : config.http.accepts platform r) {dbName : String}
    (hroute : r.route = .getRow dbName tableName rowKey)
    (hname : config.dbNameToId.get dbName = some dbId) (env env' : Surroundings) :
    let saved := runHost config workingDir platform fuel (before ++ [.http e])
      (.first config workingDir)
    ((runHost config workingDir platform fuel after saved).server.handle platform fuel config.http
        env r).1 = (saved.server.handle platform fuel config.http env' r).1 := by
  intro saved
  obtain ⟨h, -, hbefore⟩ := (Host.keeps_first workingDir hlimit hdb).run platform workingDir fuel
    hlimit hdb before
  obtain ⟨h₁, -, hstepped⟩ := hbefore.http platform fuel e
  have hsaved : saved.Keeps config dbId ⟨h₁.all, []⟩ := by
    have hstep : saved = HostEvent.step config workingDir platform fuel (.http e)
        (runHost config workingDir platform fuel before (.first config workingDir)) := by
      simp only [saved, runHost, List.foldl_append, List.foldl_cons, List.foldl_nil]
    rw [hstep, HostEvent.step, if_pos hsaves]
    exact hstepped.save
  obtain ⟨h₂, hrun, hafter⟩ := hsaved.run platform workingDir fuel hlimit hdb after
  obtain ⟨kept, hall, hsub⟩ := hrun.kept
  have hnot : ∀ a ∈ kept, a.o.isOn dbId tableName (utf8 rowKey) = false := by
    intro a ha
    obtain ⟨e, he, happlied⟩ := changesIn_shownInRun (hsub.subset ha)
    exact hrow e a he happlied
  have hlast : lastOn dbId tableName (utf8 rowKey) h₂.all =
      lastOn dbId tableName (utf8 rowKey) (Durable.History.all ⟨h₁.all, []⟩) := by
    rw [hall, Durable.History.all_saved]
    exact lastOn_append_of_not hnot
  rw [hafter.getRow platform fuel haccepts hroute hname, hlast,
    hsaved.getRow platform fuel haccepts hroute hname]

end

/-! ### A life -/

namespace Sample

def config : Config where
  storage := ⟨"data"⟩
  wal := ⟨2⟩
  http := httpConfig
  databases := [⟨0, "default"⟩]
  memory := ⟨0⟩

def putA : HttpEvent :=
  .request (trusted (.putRow "default" "t" "a" (some (.string "AQ==")))) calm

def putB : HttpEvent :=
  .request (trusted (.putRow "default" "t" "b" (some (.string "Ag==")))) calm

/-- The first row is saved when the writer task notices the flush. -/
def savedEvents : List HostEvent := [.http putA, .http (.request (trusted .flush) calm)]

def laterEvents : List HostEvent := [.http putB, .crashInSave 2, .crash]

end Sample

theorem getRow_after_crashes_sample :
    letI := Externals.ofTexts [] []
    let events := Sample.savedEvents ++ [.http .notified] ++ Sample.laterEvents
    ∃ h, Durable.Run (shownInRun Sample.platform Sample.config [] 1 events (.first Sample.config []))
        .empty h ∧
      ((runHost Sample.config [] Sample.platform 1 events
          (.first Sample.config [])).server.handle Sample.platform 1 Sample.httpConfig Sample.calm
          (Sample.trusted (.getRow "default" "t" "a"))).1 =
        some (.ofRow Sample.platform
          ((lastOn 0 "t" (utf8 "a") h.all).bind fun e => e.op.effect)) := by
  let _ := Externals.ofTexts [] []
  intro events
  obtain ⟨h, hrun, hget⟩ := getRow_after_crashes Sample.platform Sample.config 0 [] 1 rfl
    (by decide) events
  exact ⟨h, hrun, hget _ _ _ _ Sample.calm rfl rfl rfl⟩

theorem saved_rows_survive_sample :
    letI := Externals.ofTexts [] []
    ((runHost Sample.config [] Sample.platform 1 Sample.laterEvents
        (runHost Sample.config [] Sample.platform 1 (Sample.savedEvents ++ [.http .notified])
          (.first Sample.config []))).server.handle Sample.platform 1 Sample.httpConfig Sample.calm
        (Sample.trusted (.getRow "default" "t" "a"))).1 = some ⟨200, .value "AQ=="⟩ := by
  let _ := Externals.ofTexts [] []
  refine (saved_rows_survive Sample.platform Sample.config 0 [] 1 rfl (by decide)
    Sample.savedEvents (e := .notified) rfl ?_ rfl rfl rfl Sample.calm Sample.calm).trans rfl
  intro e a he happlied
  simp only [Sample.laterEvents, List.mem_cons, HostEvent.http.injEq, reduceCtorEq,
    List.not_mem_nil, or_false] at he
  subst he
  cases happlied
  decide

end Skvs
