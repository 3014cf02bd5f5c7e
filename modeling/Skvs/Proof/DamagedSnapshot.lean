import Skvs.Proof.Reload
import Skvs.Proof.SnapshotFiles

/-!
# A restart that finds damaged files

Files that do not decode are as good as missing, so a restart is one from the files that do. Without
its file of tables nothing of a database is loaded, and the next save then overwrites its other files
with what is in memory.
-/

namespace Skvs

namespace SnapshotDir

/-- The files that decode. -/
def decoded (d : SnapshotDir) : Disk := ⟨fun dbId f => (d.file dbId f).decoded, d.temp⟩

theorem file_decoded (d : SnapshotDir) (dbId : UInt32) (f : SnapshotFile) :
    d.decoded.file dbId f = (d.file dbId f).decoded := rfl

theorem decoded_putFile (d : SnapshotDir) (dbId : UInt32) (f : SnapshotFile) (file : FileState f) :
    (d.putFile dbId f file).decoded =
      { d.decoded with file := Disk.put d.decoded.file dbId f file.decoded } := by
  have hfile : (d.putFile dbId f file).decoded.file =
      Disk.put d.decoded.file dbId f file.decoded := by
    funext dbId' f'
    rw [file_decoded, putFile]
    by_cases hsame : dbId' = dbId ∧ f' = f
    · obtain ⟨rfl, rfl⟩ := hsame
      rw [Disk.put_self]
      simp
    · rw [Disk.put_of_ne dbId dbId' _ _ hsame, file_decoded]
      by_cases hdb : dbId' = dbId
      · subst hdb
        simp only [Function.update_self, Function.update_of_ne fun hf => hsame ⟨rfl, hf⟩]
      · simp only [Function.update_of_ne hdb]
  rw [← hfile]
  rfl

theorem decoded_quarantine (d : SnapshotDir) {dbId : UInt32} (h : d.file dbId .tables = .damaged) :
    (d.quarantine dbId).decoded = d.decoded := by
  have hnone : d.decoded.file dbId .tables = none := by
    rw [file_decoded, h]
    rfl
  have hfile : Disk.put d.decoded.file dbId .tables none = d.decoded.file := by
    funext dbId' f'
    by_cases hsame : dbId' = dbId ∧ f' = .tables
    · obtain ⟨rfl, rfl⟩ := hsame
      rw [Disk.put_self, hnone]
    · rw [Disk.put_of_ne dbId dbId' _ _ hsame]
  rw [quarantine, decoded_putFile, show FileState.decoded .missing = none from rfl, hfile]

theorem decoded_step (d : SnapshotDir) (step : DiskStep) :
    (d.step step).decoded = d.decoded.step step := by
  cases step with
  | write dbId f dump => rfl
  | rename dbId f =>
      simp only [SnapshotDir.step, Disk.step, show d.decoded.temp dbId f = d.temp dbId f from rfl]
      cases d.temp dbId f with
      | none => rfl
      | some dump =>
          have hput := d.decoded_putFile dbId f (.intact dump)
          exact congrArg (fun disk : Disk => { disk with temp := Disk.put d.temp dbId f none }) hput

theorem decoded_run (d : SnapshotDir) (steps : List DiskStep) :
    (d.run steps).decoded = d.decoded.run steps := by
  induction steps generalizing d with
  | nil => rfl
  | cons step steps ih => exact (ih (d.step step)).trans (by rw [decoded_step]; rfl)

variable [Externals]

theorem loadDb_eq (d : SnapshotDir) (s : Server) (dbId : UInt32) :
    (loadDb (s, d) dbId).1 = Server.loadDb d.decoded s dbId ∧
      (loadDb (s, d) dbId).2.decoded = d.decoded := by
  unfold loadDb Server.loadDb
  simp only [file_decoded]
  cases htables : d.file dbId .tables with
  | missing => exact ⟨rfl, rfl⟩
  | damaged => exact ⟨rfl, d.decoded_quarantine htables⟩
  | intact dump =>
      refine ⟨?_, rfl⟩
      cases d.file dbId .raw <;> cases d.file dbId .views <;> cases d.file dbId .triggers <;> rfl

/-- The files that do not decode might as well be missing. -/
theorem loadSqlSnapshot_eq (d : SnapshotDir) (s : Server) :
    (d.loadSqlSnapshot s).1 = Server.loadSqlSnapshot d.decoded s ∧
      (d.loadSqlSnapshot s).2.decoded = d.decoded := by
  unfold loadSqlSnapshot Server.loadSqlSnapshot
  generalize hashOrder s.kvs.dbs.keys = ids
  induction ids generalizing s d with
  | nil => exact ⟨rfl, rfl⟩
  | cons id ids ih =>
      obtain ⟨hserver, hdir⟩ := loadDb_eq d s id
      obtain ⟨hserver', hdir'⟩ := ih (loadDb (s, d) id).2 (loadDb (s, d) id).1
      refine ⟨hserver'.trans ?_, hdir'.trans hdir⟩
      rw [hserver, hdir]
      rfl

end SnapshotDir

/-! ### What files hold -/

abbrev SnapshotFile.Content : SnapshotFile → Type
  | .tables => String → Option (Option TableSchema × (RowId → Option Row))
  | .raw => String → Bytes → Option Bytes
  | .views => String → Option String
  | .triggers => String → List TriggerDef

/-- What a file says of each table, raw key, view and trigger list; a missing one says nothing. -/
def SnapshotFile.content : (f : SnapshotFile) → Option f.Dump → f.Content
  | .tables, dump => fun table =>
    (dump.bind (·.lookup table)).map fun t => (t.1, fun rowid => t.2.lookup rowid)
  | .raw, dump => fun table key => (dump.bind (·.lookup table)).bind (·.lookup key)
  | .views, dump => fun name => dump.bind (·.lookup name)
  | .triggers, dump => fun table => (dump.bind (·.lookup table)).getD []

/-- What a server has in memory of the kind that a file is for. -/
def Server.content (s : Server) (dbId : UInt32) : (f : SnapshotFile) → f.Content
  | .tables => fun table => (s.kvs.getTableStore dbId table).map fun store =>
      (s.kvs.getSchema dbId table, store.get)
  | .raw => s.raw.inMemory dbId
  | .views => s.kvs.getViewDefinition dbId
  | .triggers => s.kvs.getTriggers dbId

theorem decoded_elim {f : SnapshotFile} (dump : Option f.Dump) :
    (dump.elim FileState.missing .intact).decoded = dump := by cases dump <;> rfl

/-- A table is seen as its store, its rows and its schema. -/
theorem content_tables_congr {s s' : Server} {dbId : UInt32} {table : String}
    (hstore : s.kvs.hasStore dbId table = s'.kvs.hasStore dbId table)
    (hrow : ∀ rowid, s.kvs.row ⟨dbId, table, rowid⟩ = s'.kvs.row ⟨dbId, table, rowid⟩)
    (hschema : s.kvs.getSchema dbId table =
      (s'.kvs.getTableStore dbId table).bind fun _ => s'.kvs.getSchema dbId table) :
    s.content dbId .tables table = s'.content dbId .tables table := by
  simp only [KvsState.hasStore] at hstore
  simp only [row_mk] at hrow
  simp only [Server.content, hschema]
  cases hs : s.kvs.getTableStore dbId table <;> cases hs' : s'.kvs.getTableStore dbId table <;>
    rw [hs, hs'] at hstore
  · rfl
  · cases hstore
  · cases hstore
  · rw [hs, hs'] at hrow
    simp only [Option.map_some, Option.bind_some, Option.some.injEq, Prod.mk.injEq, true_and]
    exact funext hrow

section

variable [Externals] (s : Server) (dbId : UInt32)

/-- A save writes what is in memory. -/
theorem content_dump (f : SnapshotFile) : f.content (s.dump dbId f) = s.content dbId f := by
  cases f with
  | tables =>
      funext table
      simp only [Server.dump, SnapshotFile.content, Server.content, KvsState.getTableStore]
      cases s.kvs.dbs.get dbId with
      | none => rfl
      | some tables =>
          rw [Option.map_some, Option.bind_some, Option.bind_some, lookup_tablesDump]
          cases tables.get table with
          | none => rfl
          | some store => simp only [Option.map_some, lookup_hashOrder]
  | raw =>
      funext table key
      simp only [Server.dump, SnapshotFile.content, Server.content, RawState.inMemory,
        RawState.rawTable]
      cases s.raw.rawStores.get dbId with
      | none => rfl
      | some tables =>
          rw [Option.map_some, Option.bind_some, Option.bind_some,
            IndexMap.lookup_map _ fun _ (t : RawTable) => hashOrder t.entries, lookup_hashOrder]
          cases tables.get table with
          | none => rfl
          | some t =>
              rw [Option.map_some, Option.bind_some, Option.bind_some]
              convert lookup_hashOrder t key
  | views =>
      funext name
      simp only [Server.dump, SnapshotFile.content, Server.content, KvsState.getViewDefinition]
      cases s.kvs.views.get dbId with
      | none => rfl
      | some views => exact lookup_hashOrder views name
  | triggers =>
      funext table
      simp only [Server.dump, SnapshotFile.content, Server.content, KvsState.getTriggers]
      cases s.kvs.triggers.get dbId with
      | none => rfl
      | some triggers => exact congrArg (·.getD []) (lookup_hashOrder triggers table)

end

/-! ### A restart and the next save -/

section

variable [Externals] {databases : List UInt32} {dir : SnapshotDir} {limit : Nat}
  {overflowDir : String} {workingDir : Path.Resolved} {files : IndexMap Path.Resolved Bytes}
  {dbId : UInt32}

/-- Every file of the database that decodes is one that a save left there. -/
def SavedUnlessDamaged (dir : SnapshotDir) (dbId : UInt32) (S : SnapshotFile → Server) : Prop :=
  ∀ f, dir.file dbId f ≠ .damaged → dir.file dbId f =
    ((S f).dump dbId f).elim .missing .intact

/-- The server after a restart that finds these files, and the files after it. -/
def restartFrom (databases : List UInt32) (dir : SnapshotDir) (limit : Nat) (overflowDir : String)
    (workingDir : Path.Resolved) (files : IndexMap Path.Resolved Bytes) : Server × SnapshotDir :=
  dir.loadSqlSnapshot (.fresh databases limit overflowDir workingDir files)

/-- A server that has nothing for any database. -/
def Server.blank : Server := .fresh [] 0 "" [] ∅

theorem dump_blank (dbId : UInt32) (f : SnapshotFile) : Server.blank.dump dbId f = none := by
  cases f <;> rfl

theorem restart_eq :
    (restartFrom databases dir limit overflowDir workingDir files).1 =
        reload databases dir.decoded limit overflowDir workingDir files ∧
      (restartFrom databases dir limit overflowDir workingDir files).2.decoded = dir.decoded :=
  dir.loadSqlSnapshot_eq _

/-- With its file of tables, what the intact files of a database hold is restored. -/
theorem content_restart (h : dbId ∈ databases) {S : SnapshotFile → Server}
    (hsaved : SavedUnlessDamaged dir dbId S) (htables : dir.file dbId .tables ≠ .damaged)
    (hexists : dir.file dbId .tables ≠ .missing) (f : SnapshotFile) :
    (restartFrom databases dir limit overflowDir workingDir files).1.content dbId f =
      f.content (dir.decoded.file dbId f) := by
  -- a damaged file is as good as one that was never saved
  have hfile : ∀ f, ∃ s : Server, dir.decoded.file dbId f = s.dump dbId f := by
    intro f
    by_cases hf : dir.file dbId f = .damaged
    · exact ⟨.blank, by rw [SnapshotDir.file_decoded, hf, dump_blank]; rfl⟩
    · exact ⟨S f, by rw [SnapshotDir.file_decoded, hsaved f hf, decoded_elim]⟩
  choose S' hS' using hfile
  have hdb : ((S' .tables).kvs.dbs.get dbId).isSome = true := by
    have htablesFile := hS' .tables
    rw [SnapshotDir.file_decoded] at htablesFile
    cases hstate : dir.file dbId .tables with
    | missing => exact absurd hstate hexists
    | damaged => exact absurd hstate htables
    | intact dump =>
        rw [hstate, Server.dump] at htablesFile
        obtain ⟨tables, hget, -⟩ := Option.map_eq_some_iff.mp htablesFile.symm
        rw [hget]
        rfl
  rw [restart_eq.1, hS' f, content_dump]
  cases f with
  | tables =>
      funext table
      obtain ⟨hstore, hrow, hschema⟩ := reload_table limit overflowDir workingDir files h hS' hdb table
      exact content_tables_congr hstore hrow hschema
  | raw => exact funext₂ fun table key => reload_raw limit overflowDir workingDir files h hS' hdb table key
  | views => exact funext fun name => (reload_kvs limit overflowDir workingDir files h hS' hdb name).2.1
  | triggers =>
      exact funext fun table => (reload_kvs limit overflowDir workingDir files h hS' hdb table).2.2.1

/-- Without it the database is empty. -/
theorem content_restart_of_damaged (h : dbId ∈ databases) (htables : dir.file dbId .tables = .damaged)
    (f : SnapshotFile) :
    (restartFrom databases dir limit overflowDir workingDir files).1.content dbId f = f.content none := by
  rw [restart_eq.1]
  obtain ⟨s', hs', hR⟩ := reload_db dir.decoded limit overflowDir workingDir files h
  have hload : Server.loadDb dir.decoded s' dbId = s' := by
    rw [Server.loadDb, SnapshotDir.file_decoded, htables]
    rfl
  rw [hload, hs'] at hR
  generalize reload databases dir.decoded limit overflowDir workingDir files = R at hR
  have hkvs := congrArg Prod.fst hR
  cases f with
  | tables =>
      funext table
      have hstores : R.kvs.dbs.get dbId = some ∅ := congrArg DbView.stores hkvs
      simp only [Server.content, KvsState.getTableStore, hstores]
      rfl
  | raw =>
      funext table key
      have hraw : R.raw.rawStores.get dbId = some ∅ := congrArg Prod.snd hR
      simp only [Server.content, RawState.inMemory, RawState.rawTable, hraw]
      rfl
  | views =>
      funext name
      have hviews : R.kvs.views.get dbId = some ∅ := congrArg DbView.views hkvs
      simp only [Server.content, KvsState.getViewDefinition, hviews]
      rfl
  | triggers =>
      funext table
      have htriggers : R.kvs.triggers.get dbId = some ∅ := congrArg DbView.triggers hkvs
      simp only [Server.content, KvsState.getTriggers, htriggers]
      rfl

/-- A restart gives back what the intact files of a database hold, and the next save writes all of it
back, exactly if the file of tables decodes or the other intact files hold nothing. -/
theorem restart_keeps_iff (h : dbId ∈ databases) {S : SnapshotFile → Server}
    (hsaved : SavedUnlessDamaged dir dbId S) (hexists : dir.file dbId .tables ≠ .missing) :
    let restarted := restartFrom databases dir limit overflowDir workingDir files
    (∀ f, dir.file dbId f ≠ .damaged →
      restarted.1.content dbId f = f.content (dir.file dbId f).decoded ∧
        f.content ((restarted.2.run restarted.1.saveSqlSnapshot).file dbId f).decoded =
          f.content (dir.file dbId f).decoded) ↔
    (dir.file dbId .tables ≠ .damaged ∨
      ∀ f, dir.file dbId f ≠ .damaged → f.content (dir.file dbId f).decoded = f.content none) := by
  intro restarted
  have hwritten : ∀ f, restarted.1.content dbId f = f.content (dir.file dbId f).decoded →
      f.content ((restarted.2.run restarted.1.saveSqlSnapshot).file dbId f).decoded =
        f.content (dir.file dbId f).decoded := by
    intro f hcontent
    have hafter := restarted.1.file_saveSqlSnapshot restarted.2.decoded dbId f
    rw [← SnapshotDir.decoded_run, SnapshotDir.file_decoded, restart_eq.2,
      SnapshotDir.file_decoded] at hafter
    rw [hafter]
    split_ifs
    · cases hdump : restarted.1.dump dbId f with
      | none => rfl
      | some dump => rw [Option.some_or, ← hcontent, ← content_dump, hdump]
    · rfl
  by_cases htables : dir.file dbId .tables = .damaged
  · have hempty : ∀ f, restarted.1.content dbId f = f.content none := content_restart_of_damaged h htables
    rw [or_iff_right (not_not.mpr htables)]
    refine forall₂_congr fun f hf => ⟨fun hkept => ?_, fun hnone => ?_⟩
    · exact hkept.1.symm.trans (hempty f)
    · have hcontent := (hempty f).trans hnone.symm
      exact ⟨hcontent, hwritten f hcontent⟩
  · refine iff_of_true (fun f _ => ?_) (.inl htables)
    have hcontent : restarted.1.content dbId f = _ := content_restart h hsaved htables hexists f
    rw [SnapshotDir.file_decoded] at hcontent
    exact ⟨hcontent, hwritten f hcontent⟩

end

namespace Sample

/-- A server whose only content is the view `v`. -/
def withView : Server where
  kvs := (KvsState.new [0]).addView 0 "v" "SELECT 1"
  raw := .new [0] 0 "" []

/-- The files of a save of it, all but one. -/
def damagedDir [Externals] (damaged : SnapshotFile) : SnapshotDir where
  file := fun _ f =>
    if f = damaged then .damaged else (withView.dump 0 f).elim .missing .intact
  temp := fun _ _ => none

end Sample

/-- The view is still there after a restart that finds a damaged file of raw tables. -/
theorem restart_keeps_view :
    letI := Externals.ofTexts [] []
    let restarted := restartFrom [0] (Sample.damagedDir .raw) 0 "" [] ∅
    restarted.1.kvs.getViewDefinition 0 "v" = some "SELECT 1" ∧
      SnapshotFile.views.content
        ((restarted.2.run restarted.1.saveSqlSnapshot).file 0 .views).decoded "v" = some "SELECT 1" :=
  let _ := Externals.ofTexts [] []
  have hsaved : SavedUnlessDamaged (Sample.damagedDir .raw) 0 fun _ => Sample.withView := fun f hf => by
    cases f <;> first | rfl | exact absurd rfl hf
  have hkept := (@restart_keeps_iff _ [0] _ 0 "" [] ∅ 0 (by decide) _ hsaved nofun).mpr (.inl nofun)
    .views nofun
  ⟨congrFun hkept.1 "v", congrFun hkept.2 "v"⟩

/-- A damaged file of tables hides the view, and the next save overwrites the file that has it. -/
theorem restart_loses_view :
    letI := Externals.ofTexts [] []
    let restarted := restartFrom [0] (Sample.damagedDir .tables) 0 "" [] ∅
    SnapshotFile.views.content ((Sample.damagedDir .tables).file 0 .views).decoded "v" =
        some "SELECT 1" ∧
      restarted.1.kvs.getViewDefinition 0 "v" = none ∧
      SnapshotFile.views.content
        ((restarted.2.run restarted.1.saveSqlSnapshot).file 0 .views).decoded "v" = none := by
  decide

end Skvs
