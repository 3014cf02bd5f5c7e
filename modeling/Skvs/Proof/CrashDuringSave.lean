import Skvs.Proof.RoundTrip

/-!
# A crash during a save

A file is replaced as a whole, by a rename, but the four files of a database are replaced one after
the other. After a crash between the first and the last rename, what is restored is partly of the
interrupted save and partly of the one before it.
-/

namespace Skvs

/-- A table as it is saved: its schema and its rows. -/
def Server.savedTable (s : Server) (dbId : UInt32) (table : String) :
    Option (Option TableSchema × (RowId → Option Row)) :=
  (s.kvs.getTableStore dbId table).map fun store => (s.kvs.getSchema dbId table, store.get)

/-- Two states agree in what is saved of a database in a file. -/
def SnapshotFile.Same (dbId : UInt32) (s s' : Server) : SnapshotFile → Prop
  | .tables => s.savedTable dbId = s'.savedTable dbId
  | .raw => s.raw.inMemory dbId = s'.raw.inMemory dbId
  | .views => s.kvs.getViewDefinition dbId = s'.kvs.getViewDefinition dbId
  | .triggers => s.kvs.getTriggers dbId = s'.kvs.getTriggers dbId

namespace SnapshotFile.Same

variable {dbId : UInt32} {s s' s'' : Server} {f : SnapshotFile}

theorem symm (h : f.Same dbId s s') : f.Same dbId s' s := by
  cases f <;> exact Eq.symm h

theorem trans (h : f.Same dbId s s') (h' : f.Same dbId s' s'') : f.Same dbId s s'' := by
  cases f <;> exact Eq.trans h h'

end SnapshotFile.Same

theorem savedTable_eq (s : Server) (dbId : UInt32) (table : String) :
    s.savedTable dbId table = (s.kvs.tableView dbId table).store.map fun store =>
      ((s.kvs.tableView dbId table).schema, store.get) := rfl

/-- Nothing but what a state has for the database matters. -/
theorem same_of_db {s s' : Server} {dbId : UInt32} (h : s.db dbId = s'.db dbId)
    (f : SnapshotFile) : f.Same dbId s s' := by
  have hkvs : s.kvs.db dbId = s'.kvs.db dbId := congrArg Prod.fst h
  have hraw : s.raw.rawStores.get dbId = s'.raw.rawStores.get dbId := congrArg Prod.snd h
  cases f with
  | tables =>
      funext table
      rw [savedTable_eq, savedTable_eq, KvsState.tableView_congr hkvs]
  | raw =>
      funext table key
      rw [RawState.inMemory, RawState.inMemory, RawState.rawTable, RawState.rawTable, hraw]
  | views => exact KvsState.getViewDefinition_congr hkvs
  | triggers => exact KvsState.getTriggers_congr hkvs

/-- A server at its start has nothing that would be saved, however many databases it has. -/
theorem same_fresh (databases : List UInt32) (limit : Nat) (overflowDir : String)
    (workingDir : Path.Resolved) (files : IndexMap Path.Resolved Bytes) (dbId : UInt32)
    (f : SnapshotFile) :
    f.Same dbId (.fresh [] limit overflowDir workingDir files)
      (.fresh databases limit overflowDir workingDir files) := by
  cases f with
  | tables =>
      funext table
      simp only [Server.savedTable, Server.fresh, KvsState.new, KvsState.getTableStore,
        IndexMap.get_ofList_map_const]
      split_ifs <;> rfl
  | raw =>
      funext table key
      simp only [RawState.inMemory, RawState.rawTable, Server.fresh, RawState.new,
        IndexMap.get_ofList_map_const]
      split_ifs <;> rfl
  | views =>
      funext name
      simp only [KvsState.getViewDefinition, Server.fresh, KvsState.new,
        IndexMap.get_ofList_map_const]
      split_ifs <;> rfl
  | triggers =>
      funext table
      simp only [KvsState.getTriggers, Server.fresh, KvsState.new, IndexMap.get_ofList_map_const]
      split_ifs <;> rfl

variable [Externals]

section Restored

variable {databases : List UInt32} (limit : Nat) (overflowDir : String)
  (workingDir : Path.Resolved) (files : IndexMap Path.Resolved Bytes) {dbId : UInt32}
  (h : dbId ∈ databases) {disk : Disk}
include h

/-- What is in a file comes back. -/
theorem reload_same {S : SnapshotFile → Server}
    (hfiles : ∀ f, disk.file dbId f = (S f).dump dbId f)
    (hdb : ((S .tables).kvs.dbs.get dbId).isSome) (f : SnapshotFile) :
    f.Same dbId (reload databases disk limit overflowDir workingDir files) (S f) := by
  have hkvs := reload_kvs limit overflowDir workingDir files h hfiles hdb
  cases f with
  | tables =>
      funext table
      rw [savedTable_eq, (hkvs table).1, Server.savedTable]
      cases (S .tables).kvs.getTableStore dbId table with
      | none => rfl
      | some store =>
          have hget : ((hashOrder store.entries).foldl (fun store r => store.insert r.1 r.2)
              (∅ : Store)).get = store.get := by
            funext rowid
            exact (IndexMap.get_ofList_of_nodup (nodup_hashOrder store) rowid).trans
              (lookup_hashOrder store rowid)
          simp only [Option.elim_some, restoredView, TableView.empty, Option.or_none,
            Option.getD_none, Option.map_some]
          rw [hget]
  | raw =>
      funext table key
      exact reload_raw limit overflowDir workingDir files h hfiles hdb table key
  | views =>
      funext name
      exact (hkvs name).2.1
  | triggers =>
      funext table
      exact (hkvs table).2.2.1

/-- Without any file a database comes back empty. -/
theorem reload_same_fresh (hfiles : ∀ f, disk.file dbId f = none) (f : SnapshotFile) :
    f.Same dbId (reload databases disk limit overflowDir workingDir files)
      (Server.fresh databases limit overflowDir workingDir files) := by
  obtain ⟨s', hs', hR⟩ := reload_db disk limit overflowDir workingDir files h
  have hload : Server.loadDb disk s' dbId = s' := by
    rw [Server.loadDb, hfiles]
  rw [hload, hs', ← db_fresh h limit overflowDir workingDir files] at hR
  exact same_of_db hR f

end Restored

section Crash

variable {databases : List UInt32} (saves : List Server) (S : Server) (k : Nat)

/-- The disk after complete saves of these states and the first steps of a save of `S`. -/
def crashedDisk : Disk :=
  (saves.foldl (fun (disk : Disk) s => disk.run s.saveSqlSnapshot) .empty).run (S.saveSqlSnapshot.take k)

/-- A state that a database may come from as a whole: one that was saved or, as long as there is no
complete save, the one the server started with. -/
def Source (started s : Server) : Prop := s = S ∨ s ∈ saves ∨ saves = [] ∧ s = started

omit [Externals] in
theorem source_last (started : Server) : Source saves S started (saves.getLastD started) := by
  by_cases hnil : saves = []
  · subst hnil
    exact .inr (.inr ⟨rfl, rfl⟩)
  · rw [List.getLastD_eq_getLast?, List.getLast?_eq_getLast_of_ne_nil hnil]
    exact .inr (.inl (List.getLast_mem hnil))

variable {saves S} (hconf : ∀ s ∈ saves, Configured databases s) {dbId : UInt32}
  (h : dbId ∈ databases)
include hconf h

theorem file_saves (f : SnapshotFile) :
    (saves.foldl (fun (disk : Disk) s => disk.run s.saveSqlSnapshot) .empty).file dbId f =
      saves.getLast?.bind fun s => s.dump dbId f := by
  induction saves using List.reverseRecOn with
  | nil => rfl
  | append_singleton saves s _ =>
      rw [List.foldl_append, List.getLast?_append]
      exact file_of_configured (hconf s (List.mem_append_right _ List.mem_cons_self)) _ h f

theorem crashedDisk_file (f : SnapshotFile) :
    (DiskStep.rename dbId f ∈ S.saveSqlSnapshot.take k →
        (crashedDisk saves S k).file dbId f = S.dump dbId f) ∧
      (DiskStep.rename dbId f ∉ S.saveSqlSnapshot.take k →
        (crashedDisk saves S k).file dbId f = saves.getLast?.bind fun s => s.dump dbId f) := by
  have htake := S.file_saveSqlSnapshot_take
    (saves.foldl (fun (disk : Disk) s => disk.run s.saveSqlSnapshot) .empty) dbId k f
  rw [file_saves hconf h f] at htake
  exact htake

/-- A kind is restored as it was at the interrupted save if the rename was reached, and else as at
the last complete one. -/
theorem restored_same (hS : Configured databases S) (limit : Nat) (overflowDir : String)
    (workingDir : Path.Resolved) (files : IndexMap Path.Resolved Bytes) (f : SnapshotFile) :
    let started := Server.fresh databases limit overflowDir workingDir files
    let R := reload databases (crashedDisk saves S k) limit overflowDir workingDir files
    (DiskStep.rename dbId f ∈ S.saveSqlSnapshot.take k → f.Same dbId R S) ∧
      (DiskStep.rename dbId f ∉ S.saveSqlSnapshot.take k →
        f.Same dbId R (saves.getLastD started)) := by
  classical
  intro started R
  have hfile := fun f => crashedDisk_file k hconf h f (S := S)
  -- what the files are of, and that tables are among them
  have hmixed : ∀ prev : Server, (∀ f, DiskStep.rename dbId f ∉ S.saveSqlSnapshot.take k →
        (crashedDisk saves S k).file dbId f = prev.dump dbId f) →
      (DiskStep.rename dbId .tables ∉ S.saveSqlSnapshot.take k →
        (prev.kvs.dbs.get dbId).isSome) →
      (DiskStep.rename dbId f ∈ S.saveSqlSnapshot.take k → f.Same dbId R S) ∧
        (DiskStep.rename dbId f ∉ S.saveSqlSnapshot.take k → f.Same dbId R prev) := by
    intro prev hprev hdb
    have hsame := reload_same limit overflowDir workingDir files h
      (S := fun f => if DiskStep.rename dbId f ∈ S.saveSqlSnapshot.take k then S else prev)
      (show ∀ f, (crashedDisk saves S k).file dbId f = _ from fun f => by
        split_ifs with hrenamed
        · exact (hfile f).1 hrenamed
        · exact hprev f hrenamed)
      (by
        split_ifs with hrenamed
        · exact (hS.dbs dbId).mpr h
        · exact hdb hrenamed) f
    exact ⟨fun hrenamed => by rwa [if_pos hrenamed] at hsame,
      fun hrenamed => by rwa [if_neg hrenamed] at hsame⟩
  rw [List.getLastD_eq_getLast?]
  cases hlast : saves.getLast? with
  | some s =>
      have hs : Configured databases s := hconf s (List.mem_of_getLast? hlast)
      refine hmixed s (fun f hnot => ?_) fun _ => (hs.dbs dbId).mpr h
      rw [(hfile f).2 hnot, hlast, Option.bind_some]
  | none =>
      have hnone : ∀ f, DiskStep.rename dbId f ∉ S.saveSqlSnapshot.take k →
          (crashedDisk saves S k).file dbId f = none := by
        intro f hnot
        rw [(hfile f).2 hnot, hlast, Option.bind_none]
      by_cases htables : DiskStep.rename dbId .tables ∈ S.saveSqlSnapshot.take k
      · have hempty := hmixed (.fresh [] limit overflowDir workingDir files)
          (fun f hnot => (hnone f hnot).trans (by cases f <;> rfl)) fun hnot => absurd htables hnot
        exact ⟨hempty.1, fun hnot => (hempty.2 hnot).trans
          (same_fresh databases limit overflowDir workingDir files dbId f)⟩
      · have hno : ∀ f, DiskStep.rename dbId f ∉ S.saveSqlSnapshot.take k := by
          intro f hin
          refine htables (S.rename_tables_mem_take dbId _ k (fun id hid => ?_) hin)
          exact Option.isSome_iff_exists.mpr
            ((IndexMap.mem_keys_iff_get ..).mp ((hashOrder_perm _).mem_iff.mp hid))
        exact ⟨fun hin => absurd hin (hno f),
          fun _ => reload_same_fresh limit overflowDir workingDir files h
            (fun f => hnone f (hno f)) f⟩

end Crash

/-- After a crash during a save, each database is restored from one and the same save exactly if
the crash came before its first or after its last rename, or else some save agrees with the
interrupted one in the files that were renamed and with the one before it in the others. -/
theorem restored_from_one_save_iff {databases : List UInt32} {saves : List Server} {S : Server}
    (hconf : ∀ s ∈ saves, Configured databases s) (hS : Configured databases S) (k limit : Nat)
    (overflowDir : String) (workingDir : Path.Resolved) (files : IndexMap Path.Resolved Bytes) :
    let started := Server.fresh databases limit overflowDir workingDir files
    let R := reload databases (crashedDisk saves S k) limit overflowDir workingDir files
    let renamed := fun dbId f => DiskStep.rename dbId f ∈ S.saveSqlSnapshot.take k
    (∀ dbId ∈ databases, ∃ s, Source saves S started s ∧ ∀ f : SnapshotFile, f.Same dbId R s) ↔
      ∀ dbId ∈ databases, (∀ f, ¬renamed dbId f) ∨ (∀ f, renamed dbId f) ∨
        ∃ s, Source saves S started s ∧ ∀ f : SnapshotFile,
          (renamed dbId f → f.Same dbId S s) ∧
            (¬renamed dbId f → f.Same dbId (saves.getLastD started) s) := by
  intro started R renamed
  have hsame := fun dbId (h : dbId ∈ databases) f =>
    restored_same k hconf h hS limit overflowDir workingDir files f
  refine forall_congr' fun dbId => forall_congr' fun h => ?_
  constructor
  · rintro ⟨s, hs, hR⟩
    refine .inr (.inr ⟨s, hs, fun f => ⟨fun hin => ?_, fun hnot => ?_⟩⟩)
    · exact ((hsame dbId h f).1 hin).symm.trans (hR f)
    · exact ((hsame dbId h f).2 hnot).symm.trans (hR f)
  · rintro (hnone | hall | ⟨s, hs, hagree⟩)
    · exact ⟨_, source_last saves S started, fun f => (hsame dbId h f).2 (hnone f)⟩
    · exact ⟨S, .inl rfl, fun f => (hsame dbId h f).1 (hall f)⟩
    · refine ⟨s, hs, fun f => ?_⟩
      by_cases hin : renamed dbId f
      · exact ((hsame dbId h f).1 hin).trans ((hagree f).1 hin)
      · exact ((hsame dbId h f).2 hin).trans ((hagree f).2 hin)

namespace Sample

/-- A table with a view on it. -/
def viewed : Server where
  kvs :=
    letI := Externals.ofTexts [] []
    (after [call (create []) none]).addView 0 "v" "SELECT a FROM t"
  raw := raw

def started : Server := .fresh [0] 1 "data/overflow" [] ∅

omit [Externals] in
theorem configured_started : Configured [0] started :=
  configured_of_keys (by decide) (List.forall_mem_singleton.mpr (by decide))

omit [Externals] in
theorem configured_viewed : Configured [0] viewed :=
  configured_of_keys (by decide) (List.forall_mem_singleton.mpr (by decide))

end Sample

omit [Externals] in
/-- The server crashes right after the rename of the tables: the table is there, the view is not. -/
theorem view_missing_after_crash :
    letI := Externals.ofTexts [] []
    Configured [0] Sample.started ∧ Configured [0] Sample.viewed ∧
      ¬∃ s, Source [Sample.started] Sample.viewed Sample.started s ∧ ∀ f : SnapshotFile,
        f.Same 0 (reload [0] (crashedDisk [Sample.started] Sample.viewed 2) 1 "data/overflow" [] ∅)
          s := by
  let _ := Externals.ofTexts [] []
  refine ⟨Sample.configured_started, Sample.configured_viewed, ?_⟩
  rintro ⟨s, hs, hsame⟩
  rcases hs with rfl | hs | ⟨hnil, -⟩
  · have hview := congrFun (hsame .views) "v"
    revert hview
    decide
  · obtain rfl := List.mem_singleton.mp hs
    have htable := congrArg Option.isSome (congrFun (hsame .tables) "t")
    revert htable
    decide
  · cases hnil

omit [Externals] in
/-- A crash that comes after the first temporary file is written does no harm. -/
theorem restored_from_first_save :
    letI := Externals.ofTexts [] []
    ∃ s, Source [Sample.started] Sample.viewed Sample.started s ∧ ∀ f : SnapshotFile,
      f.Same 0 (reload [0] (crashedDisk [Sample.started] Sample.viewed 1) 1 "data/overflow" [] ∅)
        s := by
  let _ := Externals.ofTexts [] []
  refine (restored_from_one_save_iff (fun s hs => ?_) Sample.configured_viewed 1 1 "data/overflow" []
    ∅).mpr (fun dbId _ => .inl fun f hin => ?_) 0 List.mem_cons_self
  · obtain rfl := List.mem_singleton.mp hs
    exact Sample.configured_started
  · cases List.mem_singleton.mp hin

end Skvs
