import Skvs.Proof.SerialRun
import Skvs.Proof.Kept
import Skvs.Proof.Reversible

/-!
# Rowid counters

The counter of a table stands above the rowids of its rows, so that an INSERT never overwrites a row.
Every statement keeps it there. ROLLBACK may not: it puts a row back into whatever table has the name by
then.
-/

namespace Skvs

open Prog

/-- What a database has under the name of a table: the rows, and the counter if there is one. -/
structure TableEntry where
  store : Option Store
  next : Option UInt64

def KvsState.tableEntry (s : KvsState) (dbId : UInt32) (table : String) : TableEntry :=
  ⟨s.getTableStore dbId table, (s.rowidGenerators.getD dbId ∅).get table⟩

/-- The counter is above the rowids. A table has a counter of its own as soon as it is there. -/
structure TableEntry.Counted (e : TableEntry) : Prop where
  pos : 0 < e.next.getD 1
  below : ∀ store, e.store = some store → ∀ rowid row, store.get rowid = some row →
    rowid < e.next.getD 1
  made : e.next.isSome = e.store.isSome

/-- The counters of every table of every database are above its rowids. -/
def Counted (s : KvsState) : Prop := ∀ dbId table, (s.tableEntry dbId table).Counted

section

variable {s s' : KvsState} {dbId : UInt32} {table : String}

theorem TableEntry.Counted.none : TableEntry.Counted ⟨none, none⟩ :=
  ⟨by decide, nofun, rfl⟩

theorem TableEntry.Counted.empty : TableEntry.Counted ⟨some ∅, some 1⟩ := by
  refine ⟨by decide, fun store h rowid row hrow => ?_, rfl⟩
  obtain rfl := Option.some.inj h
  exact nomatch hrow

theorem tableEntry_congr (hdbs : s'.dbs = s.dbs) (hgens : s'.rowidGenerators = s.rowidGenerators) :
    s'.tableEntry = s.tableEntry := by
  funext dbId table
  simp only [KvsState.tableEntry, KvsState.getTableStore, hdbs, hgens]

theorem Counted.congr (h : Counted s) (hdbs : s'.dbs = s.dbs)
    (hgens : s'.rowidGenerators = s.rowidGenerators) : Counted s' := by
  rw [Counted, tableEntry_congr hdbs hgens]
  exact h

theorem Counted.below (h : Counted s) {k : Key} {row : Row} (hrow : s.row k = some row) :
    k.rowid < s.rowidCounter k.dbId k.table := by
  obtain ⟨store, hstore, hget⟩ := Option.bind_eq_some_iff.mp hrow
  exact (h k.dbId k.table).below store hstore k.rowid row hget

/-- The next rowid is free. -/
theorem Counted.row_next (h : Counted s) (dbId : UInt32) (table : String) :
    s.row ⟨dbId, table, s.rowidCounter dbId table⟩ = none := by
  cases hrow : s.row ⟨dbId, table, s.rowidCounter dbId table⟩ with
  | none => rfl
  | some row => exact absurd (h.below hrow) (UInt64.lt_irrefl _)

/-! ### An empty server -/

theorem row_new (databases : List UInt32) (k : Key) : (KvsState.new databases).row k = none := by
  simp only [KvsState.row, KvsState.rowAt, KvsState.getTableStore, KvsState.new,
    IndexMap.get_ofList_map_const]
  split_ifs <;> rfl

theorem noTriggers_new (databases : List UInt32) (dbId : UInt32) :
    NoTriggers (KvsState.new databases) dbId := by
  intro table
  simp only [KvsState.getTriggers, KvsState.new, IndexMap.get_ofList_map_const]
  split_ifs <;> rfl

/-! ### Drawing a rowid, storing a row -/

theorem tableEntry_draw (w : World) (dbId dbId' : UInt32) (table table' : String) :
    (w.draw dbId table).kvs.tableEntry dbId' table' =
      if dbId' = dbId ∧ table' = table then
        ⟨w.kvs.getTableStore dbId table, some (w.kvs.rowidCounter dbId table + 1)⟩
      else w.kvs.tableEntry dbId' table' := by
  have hstore : (w.draw dbId table).kvs.getTableStore dbId' table' = w.kvs.getTableStore dbId' table' :=
    rfl
  rw [KvsState.tableEntry, hstore]
  simp only [World.draw, KvsState.getNextRowid, KvsState.tableEntry, IndexMap.getD,
    IndexMap.get_insert]
  by_cases hdb : dbId' = dbId
  · subst hdb
    by_cases htable : table' = table
    · simp [htable]
    · simp [htable, IndexMap.get_insert]
  · simp [hdb]

theorem toNat_succ {c : UInt64} (h : c.toNat + 1 < 2 ^ 64) : (c + 1).toNat = c.toNat + 1 := by
  rw [UInt64.toNat_add]
  exact Nat.mod_eq_of_lt h

theorem Counted.draw {w : World} (h : Counted w.kvs) (hstore : w.kvs.hasStore dbId table = true)
    (hroom : (w.kvs.rowidCounter dbId table).toNat + 1 < 2 ^ 64) :
    Counted (w.draw dbId table).kvs := by
  intro dbId' table'
  rw [tableEntry_draw]
  split_ifs with hsame
  · refine ⟨?_, fun store hget rowid row hrow => ?_, hstore.symm⟩
    · rw [Option.getD_some, UInt64.lt_iff_toNat_lt, toNat_succ hroom]
      exact Nat.succ_pos _
    · have hbelow := (h dbId table).below store hget rowid row hrow
      change rowid < w.kvs.rowidCounter dbId table at hbelow
      rw [Option.getD_some]
      rw [UInt64.lt_iff_toNat_lt] at hbelow ⊢
      rw [toNat_succ hroom]
      exact Nat.lt_succ_of_lt hbelow
  · exact h dbId' table'

/-- Setting a row leaves the counters alone. -/
theorem Sets.next {k : Key} {copy after : Option Row} (h : Sets s k copy after s') (dbId : UInt32)
    (table : String) : (s'.tableEntry dbId table).next = (s.tableEntry dbId table).next := by
  obtain ⟨_, _, rfl⟩ := h.frame
  rfl

theorem Counted.sets {k : Key} {copy after : Option Row} (h : Counted s)
    (hsets : Sets s k copy after s') (hstore : s.hasStore k.dbId k.table = true)
    (hbelow : after ≠ none → k.rowid < s.rowidCounter k.dbId k.table) : Counted s' := by
  intro dbId table
  have hnext := hsets.next dbId table
  refine ⟨hnext ▸ (h dbId table).pos, fun store hget rowid row hrow => ?_, ?_⟩
  · have hrow' : s'.row ⟨dbId, table, rowid⟩ = some row := by
      rw [KvsState.row, KvsState.rowAt]
      exact Option.bind_eq_some_iff.mpr ⟨store, hget, hrow⟩
    rw [hsets.row hstore] at hrow'
    rw [hnext]
    split_ifs at hrow' with hk
    · subst hk
      exact hbelow (hrow' ▸ Option.some_ne_none row)
    · exact h.below hrow'
  · rw [hnext, (h dbId table).made]
    exact (hsets.hasStore dbId table).symm

/-! ### CREATE, ALTER and DROP -/

theorem tableEntry_freshTable (s : KvsState) (dbId dbId' : UInt32) (table table' : String) :
    (s.freshTable dbId table).tableEntry dbId' table' =
      if dbId' = dbId ∧ table' = table then ⟨some ∅, some 1⟩ else s.tableEntry dbId' table' := by
  simp only [KvsState.tableEntry, KvsState.freshTable, KvsState.getTableStore, IndexMap.getD,
    IndexMap.get_insert]
  by_cases hdb : dbId' = dbId
  · subst hdb
    by_cases htable : table' = table
    · simp [htable]
    · simp only [htable, and_false, if_true, if_false, Option.bind_some, Option.getD_some,
        IndexMap.get_insert]
      cases s.dbs.get dbId' <;> rfl
  · simp [hdb]

theorem tableEntry_removeTable (s : KvsState) (dbId dbId' : UInt32) (table table' : String) :
    (s.removeTable dbId table).tableEntry dbId' table' =
      if dbId' = dbId ∧ table' = table then ⟨none, none⟩ else s.tableEntry dbId' table' := by
  simp only [KvsState.tableEntry, KvsState.removeTable, KvsState.getTableStore, IndexMap.getD,
    IndexMap.get_modify]
  by_cases hdb : dbId' = dbId
  · subst hdb
    by_cases htable : table' = table
    · cases s.dbs.get dbId' <;> cases s.rowidGenerators.get dbId' <;>
        simp [htable, IndexMap.get_erase]
    · cases s.dbs.get dbId' <;> cases s.rowidGenerators.get dbId' <;>
        simp [htable, IndexMap.get_erase]
  · simp [hdb]

theorem lookup_renameIn {ν : Type} (dbId dbId' : UInt32) (table newName x : String)
    (m : IndexMap UInt32 (IndexMap String ν)) :
    ((KvsState.renameIn dbId table m newName).get dbId').bind (fun db => db.get x) =
      if dbId' = dbId ∧ ((m.get dbId).bind fun db => db.get table).isSome = true ∧
          (x = newName ∨ x = table) then
        if x = newName then (m.get dbId).bind fun db => db.get table else none
      else (m.get dbId').bind fun db => db.get x := by
  simp only [KvsState.renameIn, IndexMap.get_modify]
  by_cases hdb : dbId' = dbId
  · subst hdb
    cases m.get dbId' with
    | none => simp
    | some db =>
        simp only [if_true, Option.map_some, Option.bind_some, true_and]
        cases hget : db.get table with
        | none => simp
        | some v =>
            simp only [IndexMap.get_insert, IndexMap.get_erase, Option.isSome_some, true_and]
            by_cases hnew : x = newName
            · simp [hnew]
            · by_cases hold : x = table <;> simp [hnew, hold]
  · simp [hdb]

theorem getD_get {ν : Type} (m : IndexMap UInt32 (IndexMap String ν)) (dbId : UInt32) (x : String) :
    (m.getD dbId ∅).get x = (m.get dbId).bind fun db => db.get x := by
  rw [IndexMap.getD]
  cases m.get dbId <;> rfl

/-- The rows and the counter move together. -/
theorem tableEntry_renameTable (h : Counted s) (dbId' : UInt32) (newName table' : String) :
    (s.renameTable dbId table newName).tableEntry dbId' table' = s.tableEntry dbId' table' ∨
      (s.renameTable dbId table newName).tableEntry dbId' table' = ⟨none, none⟩ ∨
        (s.renameTable dbId table newName).tableEntry dbId' table' = s.tableEntry dbId table := by
  have hmade := (h dbId table).made
  simp only [KvsState.tableEntry, KvsState.renameTable, KvsState.getTableStore, getD_get,
    lookup_renameIn] at hmade ⊢
  rw [hmade]
  split_ifs
  · exact Or.inr (Or.inr rfl)
  · exact Or.inr (Or.inl rfl)
  · exact Or.inl rfl

theorem Counted.rewriteRows (h : Counted s) (f : RowId → Row → Row) :
    Counted (s.modifyStore dbId table fun store => store.mapValues f) := by
  intro dbId' table'
  have hstore : (s.modifyStore dbId table fun store => store.mapValues f).getTableStore dbId' table' =
      if dbId' = dbId ∧ table' = table then
        (s.getTableStore dbId' table').map fun store => store.mapValues f
      else s.getTableStore dbId' table' := getTableStore_modifyStore ..
  refine ⟨(h dbId' table').pos, fun store hget rowid row hrow => ?_, ?_⟩
  · change (s.modifyStore dbId table fun store => store.mapValues f).getTableStore dbId' table' =
      some store at hget
    rw [hstore] at hget
    split_ifs at hget
    · obtain ⟨old, hold, rfl⟩ := Option.map_eq_some_iff.mp hget
      rw [IndexMap.get_mapValues] at hrow
      obtain ⟨oldRow, hrow, -⟩ := Option.map_eq_some_iff.mp hrow
      exact (h dbId' table').below old hold rowid oldRow hrow
    · exact (h dbId' table').below store hget rowid row hrow
  · exact (h dbId' table').made.trans (hasStore_modifyStore s dbId table _ dbId' table').symm

theorem Counted.maintain [Externals] (h : Counted s) (hs' : Maintenance dbId s s') : Counted s' := by
  cases hs' with
  | freshTable table =>
      intro dbId' table'
      rw [tableEntry_freshTable]
      split_ifs
      · exact .empty
      · exact h dbId' table'
  | removeTable table =>
      intro dbId' table'
      rw [tableEntry_removeTable]
      split_ifs
      · exact .none
      · exact h dbId' table'
  | renameTable table newName =>
      intro dbId' table'
      rcases tableEntry_renameTable h dbId' newName table' with heq | heq | heq
      · exact heq ▸ h dbId' table'
      · exact heq ▸ .none
      · exact heq ▸ h dbId table
  | rewriteRows table f => exact h.rewriteRows f
  | rebuildIndex table idx =>
      obtain ⟨indexes, hframe⟩ := rebuildIndex_frame dbId s table idx
      rw [hframe]
      exact h.congr rfl rfl
  | removeView _ name hremove =>
      unfold KvsState.removeView at hremove
      split at hremove
      · obtain rfl := Except.ok.inj hremove
        exact h.congr rfl rfl
      · exact nomatch hremove
  | ensureSchemas | setSchema | dropIndexStore | registerFtsTable | addView => exact h.congr rfl rfl

end

/-! ### Undoing a journal -/

section Undo

variable [Externals] {s : KvsState} {dbId : UInt32}

theorem undoAll_rowidGenerators (s : KvsState) (dbId : UInt32) (ops : List UndoOp) :
    (undoAll s dbId ops).rowidGenerators = s.rowidGenerators := by
  refine undoAll_keeps dbId s (P := fun s' => s'.rowidGenerators = s.rowidGenerators) rfl
    fun _ _ _ _ _ h hsets => ?_
  obtain ⟨_, _, rfl⟩ := hsets.frame
  exact h

/-- The rows that undoing a journal puts back have rowids below the counter of the table that has the
name by then. -/
def PutsBackBelow (s : KvsState) (dbId : UInt32) (ops : List UndoOp) : Prop :=
  ∀ (k : Key) (op : UndoOp), ops.find? (fun op => op.key dbId = k) = some op → op.value ≠ none →
    s.hasStore k.dbId k.table = true → k.rowid < s.rowidCounter k.dbId k.table

theorem Counted.undoAll_iff (h : Counted s) (ops : List UndoOp) :
    Counted (undoAll s dbId ops) ↔ PutsBackBelow s dbId ops := by
  have hgens := undoAll_rowidGenerators s dbId ops
  have hcounter : (undoAll s dbId ops).rowidCounter = s.rowidCounter := by
    funext db table
    simp only [KvsState.rowidCounter, hgens]
  constructor
  · intro hafter k op hfind hvalue hstore
    obtain ⟨row, hrow⟩ := Option.ne_none_iff_exists'.mp hvalue
    have hput : (undoAll s dbId ops).row k = some row := by
      rw [undoAll_row_eq, hfind]
      simp only [hstore, if_true, hrow]
    rw [← hcounter]
    exact hafter.below hput
  · intro hbelow db table
    have hnext : ((undoAll s dbId ops).tableEntry db table).next = (s.tableEntry db table).next := by
      simp only [KvsState.tableEntry, hgens]
    refine ⟨hnext ▸ (h db table).pos, fun store hget rowid row hrow => ?_, ?_⟩
    · have hrow' : (undoAll s dbId ops).row ⟨db, table, rowid⟩ = some row :=
        Option.bind_eq_some_iff.mpr ⟨store, hget, hrow⟩
      rw [undoAll_row_eq] at hrow'
      rw [hnext]
      cases hfind : ops.find? fun op => op.key dbId = (⟨db, table, rowid⟩ : Key) with
      | none =>
          rw [hfind] at hrow'
          exact h.below hrow'
      | some op =>
          simp only [hfind] at hrow'
          split_ifs at hrow' with hstore
          exact hbelow _ op hfind (hrow' ▸ Option.some_ne_none row) hstore
    · rw [hnext, (h db table).made]
      exact (undoAll_hasStore dbId s ops db table).symm

end Undo

/-! ### INSERT, UPDATE and DELETE -/

section Statements

variable [Externals] {dbId : UInt32} {txId : Option UInt32} {w w' : World}

/-- One step of a statement where the counters are above the rowids. -/
inductive CountedChange (dbId : UInt32) (txId : Option UInt32) : World → World → Prop
  | draw (w : World) (table : String) (hstore : w.kvs.hasStore dbId table = true)
      (hroom : (w.kvs.rowidCounter dbId table).toNat + 1 < 2 ^ 64) :
      CountedChange dbId txId w (w.draw dbId table)
  | store (w : World) (k : Key) (copy after : Option Row) (hdb : k.dbId = dbId)
      (hstore : w.kvs.hasStore k.dbId k.table = true)
      (hbelow : k.rowid < w.kvs.rowidCounter k.dbId k.table)
      (hfree : copy = none → w.kvs.row k = none) :
      CountedChange dbId txId w (w.store txId k copy after)

abbrev CountedChanges (dbId : UInt32) (txId : Option UInt32) : World → World → Prop :=
  Relation.ReflTransGen (CountedChange dbId txId)

instance (dbId : UInt32) (txId : Option UInt32) : IsPreorder World (CountedChanges dbId txId) where
  refl _ := .refl
  trans _ _ _ := .trans

omit [Externals] in
theorem rowidCounter_draw (w : World) (dbId dbId' : UInt32) (table table' : String) :
    (w.draw dbId table).kvs.rowidCounter dbId' table' =
      if dbId' = dbId ∧ table' = table then w.kvs.rowidCounter dbId table + 1
      else w.kvs.rowidCounter dbId' table' := by
  have hentry := congrArg (fun e => TableEntry.next e |>.getD 1)
    (tableEntry_draw w dbId dbId' table table')
  refine hentry.trans ?_
  split_ifs <;> rfl

theorem rowidCounter_store (w : World) (txId : Option UInt32) (k : Key) (copy after : Option Row) :
    (w.store txId k copy after).kvs.rowidCounter = w.kvs.rowidCounter := by
  obtain ⟨_, hrecord⟩ := record_frame w.kvs txId (undoEntry k copy after)
  obtain ⟨_, _, hframe⟩ := (store_sets w txId k copy after).frame
  rw [hframe, hrecord]
  rfl

theorem Counted.store (h : Counted w.kvs) (txId : Option UInt32) {k : Key} (copy after : Option Row)
    (hstore : w.kvs.hasStore k.dbId k.table = true)
    (hbelow : k.rowid < w.kvs.rowidCounter k.dbId k.table) :
    Counted (w.store txId k copy after).kvs := by
  obtain ⟨_, hrecord⟩ := record_frame w.kvs txId (undoEntry k copy after)
  have hrecorded : Counted (w.kvs.record txId (undoEntry k copy after)) := by
    rw [hrecord]
    exact h.congr rfl rfl
  refine hrecorded.sets (store_sets w txId k copy after) ?_ fun _ => ?_
  · rw [record_hasStore]
    exact hstore
  · rw [hrecord]
    exact hbelow

theorem Counted.change (h : Counted w.kvs) (hch : CountedChange dbId txId w w') : Counted w'.kvs := by
  cases hch with
  | draw table hstore hroom => exact h.draw hstore hroom
  | store k copy after _ hstore hbelow _ => exact h.store txId copy after hstore hbelow

theorem CountedChange.triggers (h : CountedChange dbId txId w w') :
    w'.kvs.triggers = w.kvs.triggers := by
  cases h with
  | draw => rfl
  | store k copy after => exact store_triggers w txId k copy after

theorem FreeInserts.countedChange (h : FreeInserts w.writes) (hch : CountedChange dbId txId w w') :
    FreeInserts w'.writes := by
  cases hch with
  | draw => exact h
  | store k copy after _ _ _ hfree =>
      intro x hx hcopy
      rcases List.mem_append.mp hx with hx | hx
      · exact h x hx hcopy
      · obtain rfl := List.mem_singleton.mp hx
        exact hfree hcopy

/-- The transaction is active, and every row in its journal has a rowid below the counter. -/
def JournalBelow (dbId txId : UInt32) (w : World) : Prop :=
  ∃ ops, w.kvs.txns.active.get txId = some ⟨dbId, ops⟩ ∧ ∀ op : UndoOp, op ∈ ops →
    (op.key dbId).rowid < w.kvs.rowidCounter (op.key dbId).dbId (op.key dbId).table

omit [Externals] in
theorem JournalBelow.begin (w : World) (dbId : UInt32) :
    JournalBelow dbId w.kvs.txns.nextId (w.begin dbId) :=
  ⟨[], IndexMap.get_insert_self .., fun _ hop => nomatch hop⟩

theorem JournalBelow.change {txId : UInt32} (h : JournalBelow dbId txId w)
    (hch : CountedChange dbId (some txId) w w') : JournalBelow dbId txId w' := by
  obtain ⟨ops, hactive, hbelow⟩ := h
  cases hch with
  | draw table hstore hroom =>
      refine ⟨ops, hactive, fun op hop => ?_⟩
      have hop := hbelow op hop
      rw [rowidCounter_draw]
      split_ifs with hsame
      · rw [hsame.1, hsame.2, UInt64.lt_iff_toNat_lt] at hop
        rw [UInt64.lt_iff_toNat_lt, toNat_succ hroom]
        exact Nat.lt_succ_of_lt hop
      · exact hop
  | store k copy after hdb hstore hbelow' hfree =>
      refine ⟨ops ++ [undoEntry k copy after], ?_, fun op hop => ?_⟩
      · rw [store_active, if_pos rfl, hactive]
        rfl
      · rw [rowidCounter_store]
        rcases List.mem_append.mp hop with hop | hop
        · exact hbelow op hop
        · rw [List.mem_singleton.mp hop, ← hdb, undoEntry_key]
          exact hbelow'

omit [Externals] in
theorem JournalBelow.putsBack {txId : UInt32} (h : JournalBelow dbId txId w) {entry : TxnEntry}
    (hentry : w.kvs.txns.active.get txId = some entry) :
    PutsBackBelow w.kvs entry.dbId entry.journal := by
  obtain ⟨ops, hactive, hbelow⟩ := h
  obtain rfl := Option.some.inj (hactive.symm.trans hentry)
  intro k op hfind _ _
  have hkey : op.key dbId = k := by simpa using List.find?_some hfind
  rw [← hkey]
  exact hbelow op (List.mem_of_find?_eq_some hfind)

/-! Each statement moves by such steps. -/

variable {fire : Fire} (hfire : QuietFire dbId fire) (hno : NoTriggers w.kvs dbId)
include hfire hno

/-- What the rows of an INSERT that are still to come rely on. -/
structure Room (dbId : UInt32) (table : String) (rows : List Row) (w : World) : Prop where
  noTriggers : NoTriggers w.kvs dbId
  counted : Counted w.kvs
  store : w.kvs.hasStore dbId table = true
  room : (w.kvs.rowidCounter dbId table).toNat + rows.length < 2 ^ 64

omit hno in
theorem insertRow_counted {table : String} {schema : TableSchema} (affected : UInt64) {row : Row}
    {rows : List Row} (h : Room dbId table (row :: rows) w) :
    let w' := (exec (insertRow fire dbId table schema txId affected row) w).2
    CountedChanges dbId txId w w' ∧ Room dbId table rows w' := by
  have hroom := h.room
  rw [List.length_cons] at hroom
  have hfits : (w.kvs.rowidCounter dbId table).toNat + 1 < 2 ^ 64 := by omega
  have hdraw : CountedChange dbId txId w (w.draw dbId table) := .draw w table h.store hfits
  have hcounter : (w.draw dbId table).kvs.rowidCounter dbId table = w.kvs.rowidCounter dbId table + 1 := by
    rw [rowidCounter_draw, if_pos ⟨rfl, rfl⟩]
  have hdrawn : Room dbId table rows (w.draw dbId table) := by
    refine ⟨h.noTriggers, h.counted.change hdraw, h.store, ?_⟩
    rw [hcounter, toNat_succ hfits]
    omega
  rcases insertRow_cases (hfire table) (h.noTriggers table) schema affected row with heq | ⟨-, heq⟩
  · rw [heq]
    exact ⟨.single hdraw, hdrawn⟩
  · have hstore : CountedChange dbId txId (w.draw dbId table) ((w.draw dbId table).store txId
        ⟨dbId, table, w.kvs.rowidCounter dbId table⟩ none
          (some (withDefaults schema (w.kvs.rowidCounter dbId table) row))) := by
      refine .store _ _ _ _ rfl hdrawn.store ?_ fun _ => h.counted.row_next dbId table
      rw [hcounter, UInt64.lt_iff_toNat_lt, toNat_succ hfits]
      exact Nat.lt_succ_self _
    rw [heq]
    refine ⟨.tail (.single hdraw) hstore, hdrawn.noTriggers.of_triggers hstore.triggers,
      hdrawn.counted.change hstore, ?_, ?_⟩
    · rw [store_hasStore]
      exact hdrawn.store
    · rw [rowidCounter_store]
      exact hdrawn.room

theorem executeInsert_counted (hcounted : Counted w.kvs) {fuel : Nat} {table : String}
    {columns : List Ident} {source : Option Query} {params : List Value}
    (hroom : ∀ schema rows, w.kvs.getSchema dbId table = some schema →
      candidateRows w.kvs fuel dbId schema columns source params = .ok rows →
        (w.kvs.rowidCounter dbId table).toNat + rows.length < 2 ^ 64) :
    Moves (CountedChanges dbId txId)
      (executeInsert fire fuel dbId table columns source params txId) w :=
  moves_executeInsert fun schema rows hschema hstore hok =>
    moves_foldlM_of_pending (Room dbId table) _
      (fun affected _ _ _ hv => insertRow_counted hfire affected hv) _ _ _
      ⟨hno, hcounted, hstore, hroom schema rows hschema hok⟩

omit hfire hno in
/-- Storing over a collected row. -/
theorem counted_tail (hcounted : Counted w.kvs) {table : String} {schema : Option TableSchema}
    {e : RowId × Row} {entries : List (RowId × Row)}
    (h : Pending dbId table schema (e :: entries) w)
    (hw' : w' = w ∨ ∃ after, QuietChange dbId txId w w' ∧
      w' = w.store txId ⟨dbId, table, e.1⟩ (some e.2) after) :
    CountedChanges dbId txId w w' ∧ Pending dbId table schema entries w' ∧ Counted w'.kvs := by
  have hpending := (h.tail hw').2
  rcases hw' with rfl | ⟨after, -, rfl⟩
  · exact ⟨.refl, hpending, hcounted⟩
  · have hch : CountedChange dbId txId w (w.store txId ⟨dbId, table, e.1⟩ (some e.2) after) :=
      .store w _ _ _ rfl h.store (hcounted.below (h.rows e List.mem_cons_self)) nofun
    exact ⟨.single hch, hpending, hcounted.change hch⟩

theorem executeUpdate_counted (hcounted : Counted w.kvs) (relation : TableFactor)
    (assignments : List Assignment) (selection : Option Expr) (params : List Value) :
    Moves (CountedChanges dbId txId)
      (executeUpdate fire dbId relation assignments selection params txId) w := by
  refine moves_executeUpdate fun schema store hschema hstore => ?_
  refine moves_foldlM_of_pending
    (fun entries v => Pending dbId relation.name (some schema) entries v ∧ Counted v.kvs) _
    (fun affected entry entries v hv => ?_) _ _ _
    ⟨hschema ▸ Pending.of_matchingRows (hno relation.name) hstore selection params _, hcounted⟩
  exact counted_tail hv.2 hv.1 (updateRow_quiet (hfire _) hv.1.noTriggers hv.1.store hv.1.schema
    assignments params affected entry.1 entry.2 (hv.1.rows entry List.mem_cons_self))

theorem executeDelete_counted (hcounted : Counted w.kvs) (tables : List String)
    (from_ : List TableWithJoins) (selection : Option Expr) (params : List Value) :
    Moves (CountedChanges dbId txId)
      (executeDelete fire dbId tables from_ selection params txId) w := by
  refine moves_executeDelete fun table store _ hstore => ?_
  refine moves_foldlM_of_pending
    (fun entries v => Pending dbId table (w.kvs.getSchema dbId table) entries v ∧ Counted v.kvs) _
    (fun affected entry entries v hv => ?_) _ _ _
    ⟨Pending.of_matchingRows (hno table) hstore selection params _, hcounted⟩
  exact counted_tail hv.2 hv.1 (deleteRow_quiet (hfire table) hv.1.noTriggers hv.1.store affected entry.1
    entry.2 (hv.1.rows entry List.mem_cons_self))

end Statements

end Skvs
