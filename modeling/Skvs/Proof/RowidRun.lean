import Skvs.Proof.RowidCounters
import Skvs.Proof.RoundTrip

/-!
# Rowid counters along a run

Statements of any kind, transactions, saves and restarts, from an empty server. The counters stay above
the rowids as long as no ROLLBACK puts a row back into a table whose counter it exceeds.
-/

namespace Skvs

open Prog

variable [Externals]

/-- The counters are above the rowids, no INSERT has overwritten a row, and there are no triggers. -/
structure RowidsKept (w : World) : Prop where
  counted : Counted w.kvs
  free : FreeInserts w.writes
  noTriggers : ∀ dbId, NoTriggers w.kvs dbId

section Calls

variable {dbId : UInt32} {w w' : World}

omit [Externals] in
theorem RowidsKept.withTxns (h : RowidsKept w) (txns : TxnManager) :
    RowidsKept { w with kvs := { w.kvs with txns } } :=
  ⟨h.counted.congr rfl rfl, h.free, h.noTriggers⟩

theorem RowidsKept.changes (h : RowidsKept w) {txId : Option UInt32}
    (hch : CountedChanges dbId txId w w') : RowidsKept w' := by
  induction hch with
  | refl => exact h
  | tail _ hstep ih =>
      exact ⟨ih.counted.change hstep, ih.free.countedChange hstep,
        fun db => (ih.noTriggers db).of_triggers hstep.triggers⟩

theorem JournalBelow.changes {txId : UInt32} (h : JournalBelow dbId txId w)
    (hch : CountedChanges dbId (some txId) w w') : JournalBelow dbId txId w' := by
  induction hch with
  | refl => exact h
  | tail _ hstep ih => exact ih.change hstep

omit [Externals] in
theorem RowidsKept.commit (h : RowidsKept w) (txId : UInt32) : RowidsKept (w.commit txId) := by
  obtain ⟨txns, hframe⟩ := commit_frame w txId
  rw [hframe]
  exact h.withTxns txns

theorem RowidsKept.rollback (h : RowidsKept w) {txId : UInt32}
    (hback : ∀ entry, w.kvs.txns.active.get txId = some entry →
      PutsBackBelow w.kvs entry.dbId entry.journal) : RowidsKept (w.rollback txId) := by
  refine ⟨?_, h.free, fun db => (h.noTriggers db).of_triggers (rollback_triggers w txId)⟩
  rw [rollback_eq]
  cases hentry : w.kvs.txns.active.get txId with
  | none => exact h.counted
  | some entry =>
      have hended : Counted (w.kvs.ended txId) := h.counted.congr rfl rfl
      exact (hended.undoAll_iff entry.journal).mpr (hback entry hentry)

omit [Externals] in
theorem NoTriggers.removeTable {s : KvsState} {db : UInt32} (h : NoTriggers s db) (table : String) :
    NoTriggers (s.removeTable dbId table) db := by
  intro x
  have hno := h x
  simp only [KvsState.getTriggers, KvsState.removeTable, IndexMap.get_modify] at hno ⊢
  split_ifs
  · cases hmap : s.triggers.get db with
    | none => rfl
    | some map =>
        rw [hmap] at hno
        rw [Option.map_some, Option.bind_some, IndexMap.get_erase]
        split_ifs
        · rfl
        · exact hno
  · exact hno

theorem NoTriggers.maintain {s s' : KvsState} {db : UInt32} (h : NoTriggers s db)
    (hs' : Maintenance dbId s s') : NoTriggers s' db := by
  cases hs' with
  | removeTable table => exact h.removeTable table
  | rebuildIndex table idx =>
      obtain ⟨indexes, hframe⟩ := rebuildIndex_frame dbId s table idx
      rw [hframe]
      exact h
  | removeView _ name hremove =>
      unfold KvsState.removeView at hremove
      split at hremove
      · obtain rfl := Except.ok.inj hremove
        exact h
      · exact nomatch hremove
  | _ => exact h

theorem maintainedOn_rowidsKept (dbId : UInt32) : MaintainedOn dbId RowidsKept where
  maintain _ _ h hs' := ⟨h.counted.maintain hs', h.free, fun db => (h.noTriggers db).maintain hs'⟩

/-- An INSERT draws a rowid for each of its rows, and the counter does not wrap. -/
def Statement.hasRoom (dbId : UInt32) (fuel : Nat) (params : List Value) (s : KvsState) :
    Statement → Prop
  | .insert table columns source => ∀ schema rows, s.getSchema dbId table = some schema →
      candidateRows s (fuel - 1) dbId schema columns source params = .ok rows →
        (s.rowidCounter dbId table).toNat + rows.length < 2 ^ 64
  | _ => True

theorem executeSingleStatement_counted (h : RowidsKept w) {stmt : Statement}
    (hwrite : stmt.isWrite = true) {fuel : Nat} {params : List Value} {txId : Option UInt32}
    (hroom : stmt.hasRoom dbId fuel params w.kvs) :
    Moves (CountedChanges dbId txId) (executeSingleStatement fuel dbId stmt params txId) w := by
  cases fuel with
  | zero => exact moves_fail _ w
  | succ fuel =>
      have hfire := fireTriggers_quiet dbId fun s => executeSingleStatement fuel dbId s [] txId
      cases stmt with
      | insert table columns source =>
          exact executeInsert_counted hfire (h.noTriggers dbId) h.counted hroom
      | update table assignments selection =>
          exact executeUpdate_counted hfire (h.noTriggers dbId) h.counted _ _ _ _
      | delete tables from_ selection =>
          exact executeDelete_counted hfire (h.noTriggers dbId) h.counted _ _ _ _
      | _ => exact nomatch hwrite

theorem executeSingleStatement_rowidsKept {stmt : Statement} (hwrite : stmt.isWrite = false)
    (fuel : Nat) (params : List Value) (txId : Option UInt32) :
    Keeps RowidsKept (executeSingleStatement fuel dbId stmt params txId) := by
  have hI := maintainedOn_rowidsKept dbId
  cases fuel with
  | zero => exact keeps_fail _
  | succ fuel =>
      cases stmt with
      | insert | update | delete => exact nomatch hwrite
      | query query => exact (keeps_read _).bind fun _ => keeps_ofExcept _
      | createTable name columns constraints ifNotExists =>
          exact createTable_keeps hI name columns constraints ifNotExists
      | alterTable name ifExists operations => exact alterTable_keeps hI name ifExists operations
      | createIndex name table columns unique ifNotExists =>
          exact createIndex_keeps hI name table columns unique ifNotExists
      | createView name query => exact createView_keeps hI name query
      | createVirtualTable name ifNotExists moduleName moduleArgs =>
          exact createVirtualTable_keeps hI name ifNotExists moduleName moduleArgs
      | drop object names ifExists =>
          cases object with
          | table => exact dropTable_keeps hI names ifExists
          | index => exact dropIndex_keeps hI names ifExists
          | view => exact dropView_keeps hI names ifExists
          | other debug => exact keeps_raise _
      | startTransaction | commit | rollback | other => exact keeps_raise _

/-- What an INSERT without a transaction fails to store is below the counter all the same. -/
theorem executeAtomically_rowidsKept (h : RowidsKept w) {stmt : Statement}
    (hwrite : stmt.isWrite = true) {fuel : Nat} {params : List Value}
    (hroom : stmt.hasRoom dbId fuel params (w.begin dbId).kvs) :
    RowidsKept (exec (executeAtomically fuel dbId stmt params) w).2 := by
  have hbegun : RowidsKept (w.begin dbId) := h.withTxns _
  have hmoves : CountedChanges dbId (some w.kvs.txns.nextId) _ _ :=
    executeSingleStatement_counted hbegun hwrite hroom
  have hjournal := (JournalBelow.begin w dbId).changes hmoves
  have hafter := hbegun.changes hmoves
  rcases executeAtomically_ends fuel dbId stmt params w with heq | heq | heq
  · exact heq ▸ hafter.commit _
  · exact heq ▸ hafter.rollback fun entry hentry => hjournal.putsBack hentry
  · exact heq ▸ hafter

/-- A ROLLBACK puts no row back whose rowid the counter has not passed. -/
def Call.putsBackBelow (c : Call) (w : World) : Prop :=
  c.stmt = .rollback → ∀ id entry, c.txId = some id → w.kvs.txns.active.get id = some entry →
    PutsBackBelow w.kvs entry.dbId entry.journal

def Call.hasRoom (dbId : UInt32) (c : Call) (w : World) : Prop :=
  c.stmt.hasRoom dbId c.fuel c.params (c.start dbId w).kvs

theorem RowidsKept.call (h : RowidsKept w) {c : Call} (hroom : c.hasRoom dbId w)
    (hback : c.putsBackBelow w) : RowidsKept (c.run dbId w) := by
  obtain ⟨stmt, params, txId, fuel⟩ := c
  cases stmt with
  | startTransaction => exact h.withTxns _
  | commit =>
      cases txId with
      | none => exact h
      | some id =>
          change RowidsKept (exec (Skvs.commit id >>= fun _ => pure QueryResult.empty) w).2
          rw [exec_bind_pure_snd, exec_commit]
          exact h.commit id
  | rollback =>
      cases txId with
      | none => exact h
      | some id =>
          change RowidsKept (exec (Skvs.rollback id >>= fun _ => pure QueryResult.empty) w).2
          rw [exec_bind_pure_snd, exec_rollback]
          exact h.rollback fun entry hentry => hback rfl id entry rfl hentry
  | insert | update | delete =>
      cases txId with
      | none => exact executeAtomically_rowidsKept h rfl hroom
      | some id => exact h.changes (executeSingleStatement_counted h rfl hroom)
  | _ => cases txId <;> exact executeSingleStatement_rowidsKept rfl fuel params _ w h

end Calls

/-! ### Restarts -/

/-- What a dump must not hold: the last of all rowids, and triggers. -/
def SnapshotFile.Fine : (f : SnapshotFile) → f.Dump → Prop
  | .tables, dump => ∀ t ∈ dump, ∀ r ∈ t.2.2, r.1 ≠ lastRowid
  | .raw, _ => True
  | .views, _ => True
  | .triggers, dump => ∀ t ∈ dump, t.2 = []

section Restore

variable {s : KvsState} {dbId : UInt32}

omit [Externals] in
theorem tableEntry_of_db {s s' : KvsState} (h : s'.db dbId = s.db dbId) :
    s'.tableEntry dbId = s.tableEntry dbId := by
  have hdbs : s'.dbs.get dbId = s.dbs.get dbId := congrArg DbView.stores h
  have hgens : s'.rowidGenerators.get dbId = s.rowidGenerators.get dbId :=
    congrArg DbView.counters h
  funext table
  simp only [KvsState.tableEntry, KvsState.getTableStore, IndexMap.getD, hdbs, hgens]

omit [Externals] in
theorem next_prepareTable (t : String × Option TableSchema × List (RowId × Row)) (table : String) :
    ((s.prepareTable dbId t).tableEntry dbId table).next =
      if table = t.1 then some (max (s.rowidCounter dbId t.1) (KvsState.maxRowid t.2.2 + 1))
      else (s.tableEntry dbId table).next := by
  have hgens : (s.prepareTable dbId t).rowidGenerators =
      (s.setMinNextRowid dbId t.1 (KvsState.maxRowid t.2.2 + 1)).rowidGenerators := by
    obtain ⟨name, schema, rows⟩ := t
    cases schema <;> rfl
  simp only [KvsState.tableEntry, hgens, KvsState.setMinNextRowid, IndexMap.getD,
    IndexMap.get_insert, if_true, Option.getD_some]

omit [Externals] in
theorem mem_of_get_foldl_insert {rows : List (RowId × Row)} {store : Store} {rowid : RowId} {row : Row}
    (h : (rows.foldl (fun store r => store.insert r.1 r.2) store).get rowid = some row) :
    store.get rowid = some row ∨ (rowid, row) ∈ rows := by
  induction rows generalizing store with
  | nil => exact Or.inl h
  | cons r rows ih =>
      rw [List.foldl_cons] at h
      rcases ih h with hstore | hrows
      · rw [IndexMap.get_insert] at hstore
        split_ifs at hstore with heq
        · exact Or.inr (by rw [heq, ← Option.some.inj hstore]; exact List.mem_cons_self)
        · exact Or.inl hstore
      · exact Or.inr (List.mem_cons_of_mem r hrows)

omit [Externals] in
theorem Counted.prepareTable (h : Counted s) (hdb : (s.dbs.get dbId).isSome)
    {t : String × Option TableSchema × List (RowId × Row)} (ht : ∀ r ∈ t.2.2, r.1 ≠ lastRowid) :
    Counted (s.prepareTable dbId t) := by
  intro dbId' table
  by_cases hsame : dbId' = dbId
  · subst hsame
    have hnext := @next_prepareTable s dbId' t table
    have hstore := KvsState.getTableStore_prepareTable s dbId' t hdb table
    change ((s.prepareTable dbId' t).tableEntry dbId' table).store = _ at hstore
    split_ifs at hnext hstore with htable
    · subst htable
      refine ⟨?_, fun store hget rowid row hrow => ?_, by rw [hnext, hstore]; rfl⟩
      · rw [hnext, Option.getD_some]
        have hpos : 0 < s.rowidCounter dbId' t.1 := (h dbId' t.1).pos
        rw [UInt64.lt_iff_toNat_lt] at hpos ⊢
        rw [UInt64.toNat_max]
        omega
      · rw [hnext, Option.getD_some]
        obtain rfl := Option.some.inj (hget.symm.trans hstore)
        rw [UInt64.lt_iff_toNat_lt, UInt64.toNat_max]
        rcases mem_of_get_foldl_insert hrow with hold | hnew
        · have hbelow : rowid < s.rowidCounter dbId' t.1 := by
            cases hst : s.getTableStore dbId' t.1 with
            | none =>
                rw [hst] at hold
                exact nomatch hold
            | some st =>
                rw [hst] at hold
                exact (h dbId' t.1).below st hst rowid row hold
          rw [UInt64.lt_iff_toNat_lt] at hbelow
          omega
        · have habove : rowid < _ := (counter_above_iff t.2.2).mpr ht _ hnew
          have hpos : 0 < s.rowidCounter dbId' t.1 := (h dbId' t.1).pos
          rw [UInt64.lt_iff_toNat_lt] at habove hpos
          rw [UInt64.toNat_max] at habove
          have hone : (1 : UInt64).toNat = 1 := rfl
          have hzero : (0 : UInt64).toNat = 0 := rfl
          omega
    · have hentry : (s.prepareTable dbId' t).tableEntry dbId' table = s.tableEntry dbId' table := by
        change TableEntry.mk _ _ = TableEntry.mk _ _
        rw [show (s.prepareTable dbId' t).getTableStore dbId' table = _ from hstore]
        exact congrArg _ hnext
      rw [hentry]
      exact h dbId' table
  · have hother : (s.prepareTable dbId t).tableEntry dbId' = s.tableEntry dbId' := by
      obtain ⟨name, schema, rows⟩ := t
      refine tableEntry_of_db ?_
      rw [KvsState.prepareTable, KvsState.db_setMinNextRowid _ hsame, KvsState.db_modifyStore _ hsame,
        KvsState.db_ensureStore _ hsame]
      cases schema with
      | none => rfl
      | some schema => exact KvsState.db_setSchema s hsame name schema
    rw [hother]
    exact h dbId' table

theorem Counted.restoreTables (h : Counted s) (hdb : (s.dbs.get dbId).isSome)
    {dump : SnapshotFile.Dump .tables} (hfine : SnapshotFile.Fine .tables dump) :
    Counted (s.restoreTables dbId dump) ∧ ((s.restoreTables dbId dump).dbs.get dbId).isSome := by
  have hfold : ∀ s : KvsState, Counted s → (s.dbs.get dbId).isSome →
      Counted (dump.foldl (fun s t => s.restoreTable dbId t) s) ∧
        ((dump.foldl (fun s t => s.restoreTable dbId t) s).dbs.get dbId).isSome := by
    intro s h hdb
    induction dump generalizing s with
    | nil => exact ⟨h, hdb⟩
    | cons t dump ih =>
        have hstore := (KvsState.getTableStore_prepareTable s dbId t hdb t.1).trans (if_pos rfl)
        obtain ⟨indexes, hrebuilt, -⟩ := KvsState.rebuildIndexes_eq (s.prepareTable dbId t) dbId hstore
        have hprepared := h.prepareTable hdb (hfine t List.mem_cons_self)
        refine ih (fun t' ht' => hfine t' (List.mem_cons_of_mem t ht')) (s.restoreTable dbId t) ?_
          (KvsState.dbs_restoreTable s dbId t hdb)
        rw [KvsState.restoreTable_eq, hrebuilt]
        exact hprepared.congr rfl rfl
  exact hfold { s with schemas := s.schemas.insertIfNew dbId ∅ } (h.congr rfl rfl) hdb

omit [Externals] in
theorem NoTriggers.restoreTriggers {db : UInt32} (h : NoTriggers s db)
    {dump : SnapshotFile.Dump .triggers} (hfine : SnapshotFile.Fine .triggers dump) :
    NoTriggers (s.restoreTriggers dbId dump) db := by
  have hstep : ∀ (s : KvsState) (t : String × List TriggerDef), t.2 = [] → NoTriggers s db →
      NoTriggers (s.setTriggers dbId t) db := by
    intro s t ht h x
    have hno := h x
    simp only [KvsState.getTriggers, KvsState.setTriggers, IndexMap.get_insert] at hno ⊢
    split_ifs with hdb
    · subst hdb
      rw [Option.bind_some, IndexMap.get_insert]
      split_ifs
      · exact ht
      · rw [getD_get]
        exact hno
    · exact hno
  have hfold : ∀ s : KvsState, NoTriggers s db →
      NoTriggers (dump.foldl (fun s t => s.setTriggers dbId t) s) db := by
    intro s h
    induction dump generalizing s with
    | nil => exact h
    | cons t dump ih =>
        exact ih (fun t' ht' => hfine t' (List.mem_cons_of_mem t ht')) _
          (hstep s t (hfine t List.mem_cons_self) h)
  refine hfold _ fun x => ?_
  have hno := h x
  simp only [KvsState.getTriggers, IndexMap.get_insertIfNew] at hno ⊢
  split_ifs with hdb
  · subst hdb
    rw [Option.bind_some, getD_get]
    exact hno
  · exact hno

end Restore

/-- The counters are above the rowids and there are no triggers, in a state that is being loaded. -/
structure Loading (s : KvsState) : Prop where
  counted : Counted s
  noTriggers : ∀ dbId, NoTriggers s dbId

/-- Neither the files in place nor the temporary ones hold the last rowid or a trigger. -/
def Disk.Fine (d : Disk) : Prop :=
  ∀ dbId f dump, d.file dbId f = some dump ∨ d.temp dbId f = some dump → SnapshotFile.Fine f dump

theorem Loading.loadDb {disk : Disk} (hdisk : disk.Fine) {s : Server} (h : Loading s.kvs)
    {dbId : UInt32} (hdb : (s.kvs.dbs.get dbId).isSome) :
    Loading (s.loadDb disk dbId).kvs ∧ ((s.loadDb disk dbId).kvs.dbs.get dbId).isSome := by
  unfold Server.loadDb
  cases hfile : disk.file dbId .tables with
  | none => exact ⟨h, hdb⟩
  | some dump =>
      obtain ⟨hcounted, hdbs⟩ := h.counted.restoreTables hdb (hdisk dbId .tables dump (.inl hfile))
      obtain ⟨_, _, _, _, hframe⟩ := s.kvs.restoreTables_frame dbId dump hdb
      have hno : ∀ db, NoTriggers (s.kvs.restoreTables dbId dump) db := by
        rw [hframe]
        exact h.noTriggers
      dsimp only
      generalize s.kvs.restoreTables dbId dump = kvs₁ at hcounted hdbs hno ⊢
      obtain ⟨views, hviews⟩ : ∃ views,
          (disk.file dbId .views).elim kvs₁ (kvs₁.restoreViews dbId) = { kvs₁ with views } := by
        cases disk.file dbId .views with
        | none => exact ⟨_, rfl⟩
        | some views => exact kvs₁.restoreViews_frame dbId views
      rw [hviews]
      have hloaded : ∃ kvs₂, (disk.file dbId .triggers).elim { kvs₁ with views }
            (KvsState.restoreTriggers { kvs₁ with views } dbId) = kvs₂ ∧
          kvs₂.dbs = kvs₁.dbs ∧ kvs₂.rowidGenerators = kvs₁.rowidGenerators ∧
            ∀ db, NoTriggers kvs₂ db := by
        cases htriggers : disk.file dbId .triggers with
        | none => exact ⟨_, rfl, rfl, rfl, hno⟩
        | some triggers =>
            have hnone : ∀ db, NoTriggers
                (({ kvs₁ with views } : KvsState).restoreTriggers dbId triggers) db := fun db =>
              NoTriggers.restoreTriggers (s := { kvs₁ with views }) (hno db)
                (hdisk dbId .triggers triggers (.inl htriggers))
            obtain ⟨_, hrestored⟩ :=
              KvsState.restoreTriggers_frame { kvs₁ with views } dbId triggers
            exact ⟨_, rfl, by rw [Option.elim_some, hrestored], by rw [Option.elim_some, hrestored],
              hnone⟩
      obtain ⟨kvs₂, heq, hdbs₂, hgens₂, hno₂⟩ := hloaded
      rw [heq]
      have hfts : ∀ (list : List (String × String)) (kvs : KvsState), ∃ ftsTables,
          list.foldl (fun kvs t => kvs.rebuildFts dbId t) kvs = { kvs with ftsTables } := by
        intro list
        induction list with
        | nil => exact fun kvs => ⟨_, rfl⟩
        | cons t list ih =>
            intro kvs
            obtain ⟨_, hstep⟩ := kvs.rebuildFts_frame dbId t
            obtain ⟨_, hrest⟩ := ih (kvs.rebuildFts dbId t)
            rw [List.foldl_cons, hrest, hstep]
            exact ⟨_, rfl⟩
      obtain ⟨_, hend⟩ := hfts (KvsState.ftsToRebuild dump) kvs₂
      rw [hend]
      exact ⟨⟨hcounted.congr hdbs₂ hgens₂, hno₂⟩, by rw [hdbs₂]; exact hdbs⟩

theorem Loading.loadSqlSnapshot {disk : Disk} (hdisk : disk.Fine) {s : Server} (h : Loading s.kvs) :
    Loading (Server.loadSqlSnapshot disk s).kvs := by
  have hfold : ∀ (ids : List UInt32) (s : Server), Loading s.kvs →
      (∀ id ∈ ids, (s.kvs.dbs.get id).isSome) → Loading (ids.foldl (Server.loadDb disk) s).kvs := by
    intro ids
    induction ids with
    | nil => exact fun s h _ => h
    | cons id ids ih =>
        intro s h hids
        obtain ⟨hloaded, hdb⟩ := h.loadDb hdisk (hids id List.mem_cons_self)
        refine ih _ hloaded fun id' hid' => ?_
        by_cases heq : id' = id
        · rw [heq]
          exact hdb
        · have hother := congrArg (fun v => v.1.stores) (s.db_loadDb disk heq)
          change (s.loadDb disk id).kvs.dbs.get id' = s.kvs.dbs.get id' at hother
          rw [hother]
          exact hids id' (List.mem_cons_of_mem id hid')
  refine hfold _ s h fun id hid => ?_
  rw [(hashOrder_perm s.kvs.dbs.keys).mem_iff, IndexMap.mem_keys_iff_get] at hid
  exact Option.isSome_iff_exists.mpr hid

omit [Externals] in
theorem Loading.fresh (databases : List UInt32) (limit : Nat) (overflowDir : String)
    (workingDir : Path.Resolved) (files : IndexMap Path.Resolved Bytes) :
    Loading (Server.fresh databases limit overflowDir workingDir files).kvs := by
  refine ⟨fun dbId table => ?_, noTriggers_new databases⟩
  have hentry : (Server.fresh databases limit overflowDir workingDir files).kvs.tableEntry dbId
      table = ⟨none, none⟩ := by
    simp only [KvsState.tableEntry, KvsState.getTableStore, Server.fresh, KvsState.new, getD_get,
      IndexMap.get_ofList_map_const]
    split_ifs <;> rfl
  rw [hentry]
  exact .none

/-! ### Saves -/

def DiskStep.Fine : DiskStep → Prop
  | .write _ f dump => SnapshotFile.Fine f dump
  | .rename .. => True

theorem dump_fine {s : Server} (h : Loading s.kvs) (dbId : UInt32) {f : SnapshotFile} {dump : f.Dump}
    (hdump : s.dump dbId f = some dump) : SnapshotFile.Fine f dump := by
  cases f with
  | tables =>
      obtain ⟨tables, htables, rfl⟩ := Option.map_eq_some_iff.mp hdump
      intro t ht r hr hlast
      obtain ⟨⟨table, store⟩, hin, rfl⟩ := List.mem_map.mp ht
      rw [(hashOrder_perm _).mem_iff, IndexMap.mem_entries_iff_get] at hin hr
      have hstore : s.kvs.getTableStore dbId table = some store :=
        Option.bind_eq_some_iff.mpr ⟨tables, htables, hin⟩
      have hbelow := (h.counted dbId table).below store hstore r.1 r.2 hr
      rw [hlast, UInt64.lt_iff_toNat_lt] at hbelow
      exact absurd (UInt64.toNat_lt _) (Nat.not_lt.mpr hbelow)
  | raw => trivial
  | views => trivial
  | triggers =>
      obtain ⟨triggers, htriggers, rfl⟩ := Option.map_eq_some_iff.mp hdump
      intro t ht
      rw [(hashOrder_perm _).mem_iff, IndexMap.mem_entries_iff_get] at ht
      have hno := h.noTriggers dbId t.1
      rw [KvsState.getTriggers, htriggers, Option.bind_some, ht] at hno
      exact hno

theorem saveSqlSnapshot_fine {s : Server} (h : Loading s.kvs) {step : DiskStep}
    (hstep : step ∈ s.saveSqlSnapshot) : step.Fine := by
  have hfile : ∀ dbId f, step ∈ s.saveFile dbId f → step.Fine := by
    intro dbId f hin
    unfold Server.saveFile at hin
    split at hin
    · next dump hdump =>
        rcases List.mem_cons.mp hin with rfl | hin
        · exact dump_fine h dbId hdump
        · rw [List.mem_singleton.mp hin]
          trivial
    · exact nomatch hin
  obtain ⟨dbId, -, hin⟩ := List.mem_flatMap.mp hstep
  simp only [Server.saveDb, List.mem_append, or_assoc] at hin
  rcases hin with hin | hin | hin | hin <;> exact hfile dbId _ hin

omit [Externals] in
theorem put_fine {files : UInt32 → (f : SnapshotFile) → Option f.Dump} {dbId : UInt32}
    {f : SnapshotFile} {put : Option f.Dump}
    (hfiles : ∀ dbId f dump, files dbId f = some dump → SnapshotFile.Fine f dump)
    (hput : ∀ dump, put = some dump → SnapshotFile.Fine f dump) (dbId' : UInt32) (f' : SnapshotFile)
    (dump : f'.Dump) (hget : Disk.put files dbId f put dbId' f' = some dump) :
    SnapshotFile.Fine f' dump := by
  by_cases hsame : dbId' = dbId ∧ f' = f
  · obtain ⟨rfl, rfl⟩ := hsame
    rw [Disk.put_self] at hget
    exact hput dump hget
  · rw [Disk.put_of_ne _ _ _ _ hsame] at hget
    exact hfiles dbId' f' dump hget

omit [Externals] in
theorem Disk.Fine.step {d : Disk} (h : d.Fine) {step : DiskStep} (hstep : step.Fine) :
    (d.step step).Fine := by
  have hfile := fun dbId f dump hget => h dbId f dump (.inl hget)
  have htemp := fun dbId f dump hget => h dbId f dump (.inr hget)
  cases step with
  | write dbId f dump =>
      rintro dbId' f' dump' (hget | hget)
      · exact hfile dbId' f' dump' hget
      · exact put_fine htemp (fun _ heq => Option.some.inj heq ▸ hstep) dbId' f' dump' hget
  | rename dbId f =>
      simp only [Disk.step]
      split
      · next dump hdump =>
          rintro dbId' f' dump' (hget | hget)
          · exact put_fine hfile (fun _ heq => htemp dbId f _ (hdump.trans heq)) dbId' f' dump' hget
          · refine put_fine htemp ?_ dbId' f' dump' hget
            intro _ heq
            cases heq
      · exact h

omit [Externals] in
theorem Disk.Fine.run {d : Disk} (h : d.Fine) {steps : List DiskStep}
    (hsteps : ∀ step ∈ steps, step.Fine) : (d.run steps).Fine := by
  induction steps generalizing d with
  | nil => exact h
  | cons step steps ih =>
      exact ih (h.step (hsteps step List.mem_cons_self)) fun s hs =>
        hsteps s (List.mem_cons_of_mem step hs)

/-! ### Runs -/

/-- How a server is started. -/
structure Setup where
  databases : List UInt32
  maxEntriesPerTable : Nat
  overflowDir : String
  workingDir : Path.Resolved

/-- A server and the disk that it saves to. -/
structure Machine where
  world : World
  raw : RawState
  disk : Disk

inductive Event where
  | call (dbId : UInt32) (c : Call)
  /-- The server saves, and may be cut off after some of the steps. -/
  | save (steps : Nat)
  | restart

section Runs

variable (setup : Setup)

omit [Externals] in
/-- A server without any files. -/
def Machine.start : Machine :=
  let s := Server.fresh setup.databases setup.maxEntriesPerTable setup.overflowDir setup.workingDir ∅
  ⟨⟨s.kvs, []⟩, s.raw, .empty⟩

def Machine.step (m : Machine) : Event → Machine
  | .call dbId c => { m with world := c.run dbId m.world }
  | .save steps =>
    { m with disk := m.disk.run ((Server.saveSqlSnapshot ⟨m.world.kvs, m.raw⟩).take steps) }
  | .restart =>
    let s := reload setup.databases m.disk setup.maxEntriesPerTable setup.overflowDir setup.workingDir
      m.raw.files
    ⟨⟨s.kvs, m.world.writes⟩, s.raw, m.disk⟩

def Machine.run (m : Machine) (events : List Event) : Machine :=
  events.foldl (Machine.step setup) m

/-- Every event of a run happens in a state in which it satisfies `P`. -/
def Machine.Along (P : Machine → Event → Prop) (m : Machine) : List Event → Prop
  | [] => True
  | e :: events =>
    P m e ∧ (m.step setup e).Along P events

/-- No INSERT draws so many rowids that the counter wraps. -/
def Event.hasRoom (m : Machine) : Event → Prop
  | .call dbId c => c.hasRoom dbId m.world
  | _ => True

/-- A ROLLBACK finds every table whose rows it puts back with a counter above their rowids. -/
def Event.putsBackBelow (m : Machine) : Event → Prop
  | .call _ c => c.putsBackBelow m.world
  | _ => True

/-- What holds of a server and its disk. -/
structure Machine.Kept (m : Machine) : Prop where
  world : RowidsKept m.world
  disk : m.disk.Fine

theorem Machine.Kept.step {m : Machine} (h : m.Kept) {e : Event} (hroom : e.hasRoom m)
    (hback : e.putsBackBelow m) : (m.step setup e).Kept := by
  have hloading : Loading m.world.kvs := ⟨h.world.counted, h.world.noTriggers⟩
  cases e with
  | call dbId c => exact ⟨h.world.call hroom hback, h.disk⟩
  | save steps =>
      exact ⟨h.world, h.disk.run fun step hstep =>
        saveSqlSnapshot_fine (s := ⟨m.world.kvs, m.raw⟩) hloading (List.mem_of_mem_take hstep)⟩
  | restart =>
      obtain ⟨hcounted, hno⟩ := Loading.loadSqlSnapshot h.disk
        (Loading.fresh setup.databases setup.maxEntriesPerTable setup.overflowDir setup.workingDir
          m.raw.files)
      exact ⟨⟨hcounted, h.world.free, hno⟩, h.disk⟩

theorem Machine.Kept.run {m : Machine} (h : m.Kept) {events : List Event}
    (hroom : m.Along setup (fun m e => e.hasRoom m) events)
    (hback : m.Along setup (fun m e => e.putsBackBelow m) events) :
    (m.run setup events).Kept := by
  induction events generalizing m with
  | nil => exact h
  | cons e events ih =>
      exact ih (h.step setup hroom.1 hback.1) hroom.2 hback.2

/-- Statements, transactions, saves and restarts keep every counter above the rowids of its table, and
no INSERT overwrites a row, if every ROLLBACK puts rows back only below the counter of the table that
has the name by then. -/
theorem rowids_below_counters (events : List Event)
    (hroom : (Machine.start setup).Along setup (fun m e => e.hasRoom m) events)
    (hback : (Machine.start setup).Along setup (fun m e => e.putsBackBelow m) events) :
    let m := (Machine.start setup).run setup events
    (∀ dbId table rowid, (m.world.kvs.row ⟨dbId, table, rowid⟩).isSome →
      rowid < m.world.kvs.rowidCounter dbId table) ∧ FreeInserts m.world.writes := by
  have hstart : (Machine.start setup).Kept := by
    obtain ⟨hcounted, hno⟩ := Loading.fresh setup.databases setup.maxEntriesPerTable setup.overflowDir
      setup.workingDir ∅
    refine ⟨⟨hcounted, nofun, hno⟩, fun dbId f dump hget => ?_⟩
    rcases hget with hget | hget <;> exact nomatch hget
  have hkept := hstart.run setup hroom hback
  refine ⟨fun dbId table rowid hsome => ?_, hkept.world.free⟩
  obtain ⟨row, hrow⟩ := Option.isSome_iff_exists.mp hsome
  exact hkept.world.counted.below hrow

end Runs

namespace Sample

def setup : Setup := ⟨[0], 1, "data/overflow", []⟩

/-- A row is updated and rolled back, the server saves and restarts, and a second row is inserted. -/
def savedAndRestarted : List Event :=
  [.call 0 (call (create []) none), .call 0 (call (insert [.number "1"]) none),
    .call 0 (call .startTransaction none), .call 0 (call (update "5") (some 2)),
    .call 0 (call .rollback (some 2)), .save 8, .restart, .call 0 (call (insert [.number "3"]) none)]

end Sample

omit [Externals] in
/-- The first row is as it was inserted, and the second one gets rowid 2. -/
theorem rowids_below_counters_after_restart :
    letI := Externals.ofTexts [] []
    let m := (Machine.start Sample.setup).run Sample.setup Sample.savedAndRestarted
    (m.world.kvs.row ⟨0, "t", 1⟩ = some (Sample.row 1) ∧
        m.world.kvs.row ⟨0, "t", 2⟩ = some (Sample.row 3)) ∧
      (∀ dbId table rowid, (m.world.kvs.row ⟨dbId, table, rowid⟩).isSome →
        rowid < m.world.kvs.rowidCounter dbId table) ∧ FreeInserts m.world.writes := by
  let _ := Externals.ofTexts [] []
  refine ⟨by decide, rowids_below_counters Sample.setup Sample.savedAndRestarted ?_ ?_⟩
  · exact ⟨trivial, forall_candidateRows (by decide), trivial, trivial, trivial, trivial, trivial,
      forall_candidateRows (by decide), trivial⟩
  · refine ⟨nofun, nofun, nofun, nofun, fun _ id entry hid hentry => ?_, trivial, trivial, nofun,
      trivial⟩
    obtain rfl := Option.some.inj hid
    obtain rfl := Option.some.inj ((show _ = some ⟨0, [.update "t" 1 (Sample.row 1)]⟩ by
      decide).symm.trans hentry)
    -- row 1 is put back into a table whose counter is at 2
    intro k op hfind _ _
    have hkey := List.find?_some hfind
    obtain rfl := List.mem_singleton.mp (List.mem_of_find?_eq_some hfind)
    obtain rfl := of_decide_eq_true hkey
    decide

omit [Externals] in
/-- Row 1, put back into a table made anew, is overwritten by the first INSERT into it. -/
theorem restored_row_overwritten :
    letI := Externals.ofTexts [] []
    let calls := Sample.restoredRow []
    let w := runCalls 0 calls ⟨.new [0], []⟩
    w.kvs.row ⟨0, "t", 1⟩ = some (Sample.row 1) ∧ w.kvs.rowidCounter 0 "t" = 1 ∧
      ((Sample.call (Sample.insert [.number "2"]) none).run 0 w).kvs.row ⟨0, "t", 1⟩ =
        some (Sample.row 2) := by
  decide

end Skvs
