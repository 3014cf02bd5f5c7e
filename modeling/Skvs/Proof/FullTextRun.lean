import Skvs.Proof.DroppedTable
import Skvs.Proof.FullText
import Skvs.Proof.InsertSelect
import Skvs.Proof.References
import Skvs.Proof.Restore

/-!
# The index of a full-text table along a run

A statement on a table without triggers knows every row that it replaces as it stands, whatever the
triggers of other tables do. In a serial run its index is therefore that of its texts, also after a
rollback, as long as no INSERT is given the rowid of one of its rows.
-/

namespace Skvs

variable [Externals]

/-! ### What a statement knows of the rows of a table -/

/-- One step of a statement under `txId`. A row of `table` that it replaces it knows as it stands. -/
inductive CurrentChange (dbId : UInt32) (table : String) (txId : Option UInt32) :
    World → World → Prop
  | draw (w : World) (table' : String) : CurrentChange dbId table txId w (w.draw dbId table')
  | store (w : World) (k : Key) (copy after : Option Row) (hdb : k.dbId = dbId)
      (hstore : w.kvs.hasStore k.dbId k.table = true) (hcopy : copy = none ∨ Held txId w k copy)
      (hcurrent : k.table = table → copy = none ∨ w.kvs.row k = copy) :
      CurrentChange dbId table txId w (w.store txId k copy after)

abbrev CurrentChanges (dbId : UInt32) (table : String) (txId : Option UInt32) :
    World → World → Prop :=
  Relation.ReflTransGen (CurrentChange dbId table txId)

instance (dbId : UInt32) (table : String) (txId : Option UInt32) :
    IsPreorder World (CurrentChanges dbId table txId) where
  refl _ := .refl
  trans _ _ _ := .trans

section Moves

variable {dbId : UInt32} {table : String} {txId : Option UInt32} {w w' : World}

theorem CurrentChange.change (h : CurrentChange dbId table txId w w') : Change dbId txId w w' := by
  cases h with
  | draw table' => exact .draw w table'
  | store k copy after hdb hstore hcopy => exact .store w k copy after hdb hstore hcopy

theorem QuietChange.current (h : QuietChange dbId txId w w') :
    CurrentChange dbId table txId w w' := by
  cases h with
  | draw table' => exact .draw w table'
  | store k copy after hdb hstore hcopy =>
      exact .store w k copy after hdb hstore (hcopy.imp id .inl) fun _ => hcopy

/-- The table has no triggers, and those of the other tables are plain. -/
def Untriggered (dbId : UInt32) (table : String) (w : World) : Prop :=
  PlainTriggers w.kvs dbId ∧ w.kvs.getTriggers dbId table = []

theorem Untriggered.of_triggers (h : Untriggered dbId table w)
    (heq : w'.kvs.triggers = w.kvs.triggers) : Untriggered dbId table w' := by
  refine ⟨h.1.of_triggers heq, ?_⟩
  rw [KvsState.getTriggers, heq]
  exact h.2

theorem advances_current : Advances dbId txId (Untriggered dbId table)
    (CurrentChanges dbId table txId) where
  changes w w' := Relation.ReflTransGen.mono (fun _ _ => CurrentChange.change) w w'
  plain _ h := h.1
  keeps _ _ heq h := h.of_triggers heq

theorem admits_current {table' : String} (hne : table' ≠ table) :
    Admits dbId txId table' (CurrentChanges dbId table txId) where
  draw w := .single (.draw w table')
  store w rowid copy after hstore hcopy :=
    .single (.store w ⟨dbId, table', rowid⟩ copy after rfl hstore hcopy fun heq => absurd heq hne)

/-- By induction on the fuel, as for the steps without regard to a table. -/
theorem executeSingleStatement_current (fuel : Nat) {stmt : Statement} (hstmt : stmt.isPlain = true)
    (params : List Value) (h : Untriggered dbId table w) :
    Prog.Moves (CurrentChanges dbId table txId)
      (executeSingleStatement fuel dbId stmt params txId) w := by
  induction fuel generalizing stmt params w with
  | zero => exact Prog.moves_fail _ w
  | succ fuel ih =>
      cases htarget : stmt.target with
      | none => exact Prog.moves_of_unchanged (executeSingleStatement_unchanged hstmt htarget _ params)
      | some table' =>
          by_cases htable : table' = table
          · subst htable
            refine (executeSingleStatement_in htarget h.2 (fuel + 1) params).mono fun v v' hch => ?_
            exact Relation.ReflTransGen.mono (fun _ _ hstep => hstep.1.current) v v' hch
          · have hR := @advances_current _ dbId table txId
            have hfire := fireTriggers_moves hR fun stmt hstmt w h => ih hstmt [] h
            have hadmits := @admits_current _ dbId table txId _ htable
            cases stmt with
            | insert _ columns source =>
                obtain rfl := Option.some.inj htarget
                exact executeInsert_moves hR hfire hadmits h fuel columns source params
            | update _ assignments selection =>
                exact executeUpdate_moves hR hfire hadmits h (Option.some.inj htarget) assignments
                  selection params
            | delete tables from_ selection =>
                exact executeDelete_moves hR hfire hadmits h htarget selection params
            | _ => exact nomatch htarget

theorem untriggered_move (dbId : UInt32) (table : String) :
    StatementsMove (CurrentChange dbId table) dbId (Untriggered dbId table) :=
  fun _ h _ hstmt fuel params _ => executeSingleStatement_current fuel hstmt params h

end Moves

/-! ### The index under a statement and under its undoing -/

/-- A table with a full-text index of the texts in one of its columns. -/
structure TextIndexed (s : KvsState) (dbId : UInt32) (table column : String) : Prop where
  store : s.hasStore dbId table = true
  content : (s.getFtsTable dbId table).map FtsVirtualTable.contentColumn = some column
  texts : FtsExactOf s dbId table

section TextIndexed

variable {s s' : KvsState} {dbId : UInt32} {table column : String} {k : Key}
  {copy after : Option Row} (h : TextIndexed s dbId table column)
include h

theorem TextIndexed.congr (hstore : s'.hasStore dbId table = s.hasStore dbId table)
    (hfts : s'.getFtsTable dbId table = s.getFtsTable dbId table)
    (hrow : ∀ rowid, s'.row ⟨dbId, table, rowid⟩ = s.row ⟨dbId, table, rowid⟩) :
    TextIndexed s' dbId table column := by
  refine ⟨hstore.trans h.store, hfts ▸ h.content, fun fts hget => ?_⟩
  simp only [hrow]
  exact h.texts fts (hfts.symm.trans hget)

theorem TextIndexed.setSynced (hstore : s.hasStore k.dbId k.table = true)
    (hcopy : k.dbId = dbId → k.table = table → copy = s.row k) :
    TextIndexed (Skvs.setSynced s k copy after) dbId table column where
  store := ((sets_setSynced s k copy after).hasStore dbId table).trans h.store
  content := (setSynced_content s k copy after dbId table).trans h.content
  texts := h.texts.set k after hstore hcopy

/-- Undoing an entry of another table. -/
theorem TextIndexed.undo_of_ne {op : UndoOp} (hne : (op.key dbId).table ≠ table) :
    TextIndexed (undoOp dbId s op) dbId table column := by
  have hdb : (op.key dbId).dbId = dbId := by cases op <;> rfl
  cases hstore : s.hasStore dbId (op.key dbId).table with
  | false =>
      rw [undoOp_of_no_store dbId s op hstore]
      exact h
  | true =>
      have hhas : s.hasStore (op.key dbId).dbId (op.key dbId).table = true := hdb.symm ▸ hstore
      rcases undoOp_eq dbId s op with heq | ⟨copy, after, heq⟩ | ⟨after, heq⟩
      · rw [heq]
        exact h
      · rw [heq]
        exact h.setSynced hhas fun _ ht => absurd ht hne
      · have hsets := sets_setIndexed s (op.key dbId) none after
        rw [heq]
        refine h.congr (hsets.hasStore dbId table) (by rw [setIndexed_content]) fun rowid => ?_
        rw [hsets.row hhas, if_neg]
        exact fun hk => hne (congrArg Key.table hk).symm

/-- Undoing a write of a row that stands as it was written. -/
theorem TextIndexed.undo (hdb : k.dbId = dbId) (hafter : k.table = table → s.row k = after) :
    TextIndexed (undoOp dbId s (undoEntry k copy after)) dbId table column := by
  subst hdb
  by_cases ht : k.table = table
  · obtain rfl := hafter ht
    have hstore : s.hasStore k.dbId k.table = true := ht ▸ h.store
    rcases undoOp_undoEntry k.dbId s rfl hstore copy with heq | ⟨heq, -⟩
    · rw [heq]
      exact h.setSynced hstore fun _ _ => rfl
    · rw [heq]
      exact h
  · exact h.undo_of_ne (by rwa [undoEntry_key])

end TextIndexed

/-- Undoing the transaction leaves the table indexed, from every such state with the rows that the
table has now. -/
def UndoneIndexed (dbId : UInt32) (table column : String) (id : UInt32) (w : World) : Prop :=
  ∃ journal, w.kvs.txns.active.get id = some ⟨dbId, journal⟩ ∧
    ∀ s, TextIndexed s dbId table column →
      (∀ rowid, s.row ⟨dbId, table, rowid⟩ = w.kvs.row ⟨dbId, table, rowid⟩) →
        TextIndexed (undoAll s dbId journal) dbId table column

section Steps

variable {dbId : UInt32} {table column : String} {w w' : World}

theorem row_eq_of_current {txId : Option UInt32} {k : Key} {copy after : Option Row}
    (hdb : k.dbId = dbId) (hcurrent : k.table = table → copy = none ∨ w.kvs.row k = copy)
    (hfree : FreeInsertsInto dbId table (w.store txId k copy after).writes)
    (ht : k.table = table) : w.kvs.row k = copy := by
  rcases hcurrent ht with rfl | hrow
  · exact hfree _ (List.mem_append_right _ List.mem_cons_self) hdb ht rfl
  · exact hrow

theorem TextIndexed.change {txId : Option UInt32} (h : TextIndexed w.kvs dbId table column)
    (hch : CurrentChange dbId table txId w w') (hfree : FreeInsertsInto dbId table w'.writes) :
    TextIndexed w'.kvs dbId table column := by
  cases hch with
  | draw table' => exact h.congr rfl rfl fun _ => rfl
  | store k copy after hdb hstore hcopy hcurrent =>
      obtain ⟨txns, hrec⟩ := record_frame w.kvs txId (undoEntry k copy after)
      have hrecorded : TextIndexed (w.kvs.record txId (undoEntry k copy after)) dbId table column := by
        rw [hrec]
        exact h.congr rfl rfl fun _ => rfl
      refine hrecorded.setSynced (by rwa [record_hasStore]) fun _ ht => ?_
      rw [record_row]
      exact (row_eq_of_current hdb hcurrent hfree ht).symm

/-- The newest entry is undone first, and leads back to the rows before its write. -/
theorem UndoneIndexed.change {id : UInt32} (h : UndoneIndexed dbId table column id w)
    (hch : CurrentChange dbId table (some id) w w') (hfree : FreeInsertsInto dbId table w'.writes) :
    UndoneIndexed dbId table column id w' := by
  obtain ⟨journal, hactive, hundo⟩ := h
  cases hch with
  | draw table' => exact ⟨journal, hactive, hundo⟩
  | store k copy after hdb hstore hcopy hcurrent =>
      subst hdb
      refine ⟨journal ++ [undoEntry k copy after], ?_, fun s hs hrows => ?_⟩
      · rw [store_active, if_pos rfl, hactive]
        rfl
      · rw [undoAll_append, undoAll_cons, undoAll_nil]
        refine hundo _ (hs.undo rfl fun ht => ?_) fun rowid => ?_
        · obtain ⟨db, t, rowid⟩ := k
          obtain rfl : t = table := ht
          rw [hrows, store_row _ _ _ _ hstore, if_pos rfl]
        · rw [undoOp_row _ _ _ _ fun hk => ?_, undoEntry_key, undoEntry_value, hrows,
            store_row _ _ _ _ hstore]
          · split_ifs with hk
            · rw [hk, row_eq_of_current rfl hcurrent hfree (congrArg Key.table hk).symm]
            · rfl
          · rw [undoEntry_key] at hk
            exact hk ▸ hs.store

theorem UndoneIndexed.rollback {id : UInt32} (h : TextIndexed w.kvs dbId table column)
    (hopen : UndoneIndexed dbId table column id w) :
    TextIndexed (w.rollback id).kvs dbId table column := by
  obtain ⟨journal, hactive, hundo⟩ := hopen
  rw [rollback_eq, hactive]
  exact hundo _ (h.congr rfl rfl fun _ => rfl) fun _ => rfl

variable (dbId table column) in
theorem keptSerially_textIndexed :
    KeptSerially dbId (CurrentChange dbId table) (Untriggered dbId table)
      (fun x => x.dbId = dbId → x.table = table → x.copy = none → x.before = none)
      (fun w => TextIndexed w.kvs dbId table column) (UndoneIndexed dbId table column) where
  moves := untriggered_move dbId table
  steps _ _ _ := CurrentChange.change
  plain _ h := h.1
  triggers _ _ heq h := h.of_triggers heq
  txns _ _ h := h.congr rfl rfl fun _ => rfl
  change _ _ _ hch hfree h := h.change hch hfree
  opened _ _ := ⟨[], IndexMap.get_insert_self .., fun _ hs _ => hs⟩
  openChange _ _ _ hch hfree _ hopen := hopen.change hch hfree
  rollback _ _ h hopen := hopen.rollback h
  createIndex w t schema idx _ _ h := by
    obtain ⟨indexes, hframe⟩ := rebuildIndex_frame dbId
      (w.kvs.setSchema dbId t { schema with indices := schema.indices ++ [idx] }) t idx
    rw [hframe]
    exact h.congr rfl rfl fun _ => rfl

end Steps

/-! ### From its creation -/

section Run

variable {dbId : UInt32} {table : String} {w : World} {create : Call} {ifNotExists : Bool}
  {moduleName : Ident} {moduleArgs : List Ident}
  (hcreate : create.stmt = .createVirtualTable table ifNotExists moduleName moduleArgs)
  (hnew : w.kvs.getSchema dbId table = none) (hmade : create.succeeds dbId w = true)
include hcreate hnew hmade

theorem Call.run_createVirtualTable :
    create.run dbId w = { w with
      kvs := w.kvs.withFresh dbId table (virtualSchema table moduleArgs)
        (some (.new table (contentColumn moduleArgs))) } := by
  obtain ⟨r, hok⟩ := exec_of_succeeds hmade
  have hsingle : executeStatement create.fuel dbId create.stmt create.params create.txId =
      executeSingleStatement create.fuel dbId
        (.createVirtualTable table ifNotExists moduleName moduleArgs) create.params create.txId := by
    rw [hcreate]
    cases create.txId <;> rfl
  rw [hsingle] at hok
  cases hfuel : create.fuel with
  | zero =>
      rw [hfuel] at hok
      exact nomatch (Prod.mk.inj hok).1
  | succ fuel =>
      rw [hfuel, executeSingleStatement] at hok
      have hmodule := module_of_exec_createVirtualTable hok
      rw [exec_createVirtualTable hmodule ifNotExists moduleArgs hnew] at hok
      exact (Prod.mk.inj hok).2.symm

theorem TextIndexed.created :
    TextIndexed (create.run dbId w).kvs dbId table (contentColumn moduleArgs) := by
  rw [Call.run_createVirtualTable hcreate hnew hmade]
  have hfts : (w.kvs.withFresh dbId table (virtualSchema table moduleArgs)
      (some (.new table (contentColumn moduleArgs)))).getFtsTable dbId table =
        some (.new table (contentColumn moduleArgs)) := by
    simp [KvsState.withFresh, KvsState.getFtsTable, KvsState.registerFtsTable]
  have hstore : (w.kvs.withFresh dbId table (virtualSchema table moduleArgs)
      (some (.new table (contentColumn moduleArgs)))).getTableStore dbId table = some ∅ := by
    simp [KvsState.withFresh, KvsState.getTableStore, KvsState.registerFtsTable,
      KvsState.freshTable]
  refine ⟨?_, ?_, fun fts hget => ?_⟩
  · rw [KvsState.hasStore, hstore]
    rfl
  · rw [hfts]
    rfl
  · obtain rfl := Option.some.inj (hfts.symm.trans hget)
    refine (congrArg (FtsIndex.Exact _) (funext fun rowid => ?_)).mp FtsIndex.exact_new
    rw [KvsState.row_of_store hstore]
    rfl

end Run

/-- The index of a full-text table is that of the texts in the column: it lists each word under just the
rows whose text has it, counts these rows, and a search finds the rows that have all the words. -/
structure FtsIndex.Serves (idx : FtsIndex) (column : String) (store : Store) : Prop where
  listed : ∀ token rowid, rowid ∈ idx.inverted.getD token ∅ ↔
    ∃ content, contentOf column (store.get rowid) = some content ∧ token ∈ tokenize content
  nonempty : ∀ token docs, idx.inverted.get token = some docs → docs ≠ ∅
  lengths : idx.docLengths.keys.length = (textRows column store).length
  total : (textRows column store).length < 2 ^ 64 →
    idx.totalDocs.toNat = (textRows column store).length
  found : ∀ query, tokenize query ≠ [] → ∀ rowid, rowid ∈ idx.search query ↔
    ∃ content, contentOf column (store.get rowid) = some content ∧
      ∀ t ∈ tokenize query, t ∈ tokenize content

theorem TextIndexed.serves {s : KvsState} {dbId : UInt32} {table column : String}
    (h : TextIndexed s dbId table column) :
    ∃ fts store, s.getFtsTable dbId table = some fts ∧ fts.contentColumn = column ∧
      s.getTableStore dbId table = some store ∧ fts.index.Serves column store := by
  obtain ⟨fts, hfts, rfl⟩ := Option.map_eq_some_iff.mp h.content
  obtain ⟨store, hstore⟩ := Option.isSome_iff_exists.mp h.store
  have hexact : fts.index.Exact fun rowid => contentOf fts.contentColumn (store.get rowid) := by
    refine (congrArg (FtsIndex.Exact _) (funext fun rowid => ?_)).mp (h.texts fts hfts)
    rw [KvsState.row_of_store hstore]
  refine ⟨fts, store, hfts, rfl, hstore, hexact.mem_iff, hexact.nonempty, hexact.length_docLengths,
    fun hfew => ?_, fun query hwords => hexact.mem_search hwords⟩
  rw [hexact.total, hexact.length_docLengths, UInt64.toNat_ofNat']
  exact Nat.mod_eq_of_lt hfew

/-- Whatever a serial run does to a full-text table without triggers, from its creation on, its index
serves it, as long as no INSERT is given the rowid of one of its rows. -/
theorem fts_serves_along_run {s : KvsState} {dbId : UInt32} {table : String} {create : Call}
    {ifNotExists : Bool} {moduleName : Ident} {moduleArgs : List Ident}
    (hcreate : create.stmt = .createVirtualTable table ifNotExists moduleName moduleArgs)
    (hnew : s.getSchema dbId table = none) (hmade : create.succeeds dbId ⟨s, []⟩ = true)
    (hno : s.getTriggers dbId table = []) (hplain : PlainTriggers s dbId) (calls : List Call)
    (hserial : serialCalls dbId none calls (create.run dbId ⟨s, []⟩) = true)
    (hfree : FreeInsertsInto dbId table (runCalls dbId (create :: calls) ⟨s, []⟩).writes) :
    ∃ fts store, (runCalls dbId (create :: calls) ⟨s, []⟩).kvs.getFtsTable dbId table = some fts ∧
      fts.contentColumn = contentColumn moduleArgs ∧
      (runCalls dbId (create :: calls) ⟨s, []⟩).kvs.getTableStore dbId table = some store ∧
      fts.index.Serves (contentColumn moduleArgs) store := by
  have hrun := Call.run_createVirtualTable (w := ⟨s, []⟩) hcreate hnew hmade
  have huntriggered : Untriggered dbId table (create.run dbId ⟨s, []⟩) := by
    rw [hrun]
    exact ⟨hplain, hno⟩
  have hindexed := TextIndexed.created (w := ⟨s, []⟩) hcreate hnew hmade
  have hclosed : ∀ id, none = some id →
      UndoneIndexed dbId table (contentColumn moduleArgs) id (create.run dbId ⟨s, []⟩) :=
    fun _ hid => nomatch hid
  exact ((keptSerially_textIndexed dbId table _).runCalls hindexed hclosed huntriggered calls hserial
    hfree).serves

/-! ### Sample runs -/

namespace Sample

/-- A text is changed in a transaction that is rolled back. -/
def changesOfText : List Call :=
  [call (insert [.singleQuotedString "red fox"]) none, call .startTransaction none,
    call (updateText "blue fox") (some 2), call .rollback (some 2)]

end Sample

omit [Externals] in
theorem fts_serves_after_rollback :
    letI := Externals.ofTexts [] []
    let w := runCalls 0 (Sample.call Sample.createFts none :: Sample.changesOfText) ⟨.new [0], []⟩
    ∃ fts store, w.kvs.getFtsTable 0 "t" = some fts ∧ fts.contentColumn = "a" ∧
      w.kvs.getTableStore 0 "t" = some store ∧ fts.index.Serves "a" store := by
  let _ := Externals.ofTexts [] []
  have hwrites : (runCalls 0 (Sample.call Sample.createFts none :: Sample.changesOfText)
      ⟨.new [0], []⟩).writes.all (fun x => x.copy.isSome || x.before.isNone) = true := by
    decide
  have hplain : PlainTriggers (.new [0]) 0 := (NoTriggers.of_empty (by decide)).plain
  have hmade : (Sample.call Sample.createFts none).succeeds 0 ⟨.new [0], []⟩ = true := by decide
  refine fts_serves_along_run rfl rfl hmade (by decide) hplain Sample.changesOfText (by decide)
    fun x hx _ _ hnone => ?_
  have hcheck := List.all_eq_true.mp hwrites x hx
  rw [hnone] at hcheck
  exact Option.isNone_iff_eq_none.mp hcheck

end Skvs
