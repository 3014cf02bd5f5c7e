import Skvs.Proof.CascadeEnds
import Skvs.Proof.FullText
import Skvs.Proof.SameDatabase

/-!
# What a trigger cascade leaves alone

A statement changes the rows of one table, and its triggers those of others. Which others can be read
off the triggers: a table that none of the statements of a run leads to is as it was after the run,
with its indexes and its rowid counter, however its transactions interleave and end.
-/

namespace Skvs

open Relation Prog

variable [Externals]

/-- The table whose rows a statement changes, with the event. -/
def Statement.event? : Statement → Option (String × TriggerEvent)
  | .insert table _ _ => some (table, .insert)
  | .update table _ _ => some (table.relation.name, .update)
  | .delete tables from_ _ => (deleteTarget tables from_).map fun table => (table, .delete)
  | _ => none

/-- A statement that the triggers for an event run, for some rows on which their condition holds. -/
def BodyStatement (s : KvsState) (dbId : UInt32) (event : String × TriggerEvent)
    (stmt : Statement) : Prop :=
  ∃ trigger ∈ s.getTriggers dbId event.1, trigger.event = event.2 ∧ trigger.timing ≠ .insteadOf ∧
    ∃ state oldRow newRow stmts, conditionHolds state dbId trigger oldRow newRow = .ok true ∧
      parseStatements (substituteTriggerVariables trigger.body oldRow newRow) = .ok stmts ∧
      stmt ∈ stmts

/-- The triggers for the one event lead to the other. -/
def SetsOff (s : KvsState) (dbId : UInt32) (event event' : String × TriggerEvent) : Prop :=
  ∃ stmt, BodyStatement s dbId event stmt ∧ stmt.event? = some event'

/-- The statement changes rows of the table, or its triggers do, through however many others. -/
def LeadsTo (s : KvsState) (dbId : UInt32) (table : String) (stmt : Statement) : Prop :=
  ∃ event event', stmt.event? = some event ∧ ReflTransGen (SetsOff s dbId) event event' ∧
    event'.1 = table

omit [Externals] in
/-- The table is the same in both states, with all that is kept of it. -/
structure TableSame (dbId : UInt32) (table : String) (s s' : KvsState) : Prop where
  store : s'.getTableStore dbId table = s.getTableStore dbId table
  counter : s'.rowidCounter dbId table = s.rowidCounter dbId table
  indexes : ∀ indexName, s'.indexStore dbId table indexName = s.indexStore dbId table indexName
  fts : s'.getFtsTable dbId table = s.getFtsTable dbId table
  schemas : s'.schemas = s.schemas
  triggers : s'.triggers = s.triggers

omit [Externals] in
/-- No active transaction of the database has written to the table. -/
def Unwritten (dbId : UInt32) (table : String) (s : KvsState) : Prop :=
  ∀ id entry, s.txns.active.get id = some entry → entry.dbId = dbId →
    ∀ op ∈ entry.journal, (op.key dbId).table ≠ table

/-- The table is as it was, and will be so after every rollback. -/
structure Spared (dbId : UInt32) (table : String) (s : KvsState) (w : World) : Prop where
  same : TableSame dbId table s w.kvs
  unwritten : Unwritten dbId table w.kvs

namespace TableSame

variable {dbId : UInt32} {table : String} {s s' s'' : KvsState}

omit [Externals] in
theorem refl (dbId : UInt32) (table : String) (s : KvsState) : TableSame dbId table s s :=
  ⟨rfl, rfl, fun _ => rfl, rfl, rfl, rfl⟩

omit [Externals] in
theorem trans (h : TableSame dbId table s s') (h' : TableSame dbId table s' s'') :
    TableSame dbId table s s'' :=
  ⟨h'.store.trans h.store, h'.counter.trans h.counter, fun n => (h'.indexes n).trans (h.indexes n),
    h'.fts.trans h.fts, h'.schemas.trans h.schemas, h'.triggers.trans h.triggers⟩

omit [Externals] in
theorem setIndexed {k : Key} (hk : k.table ≠ table) (s : KvsState) (copy after : Option Row) :
    TableSame dbId table s (setIndexed s k copy after) := by
  obtain ⟨indexes, hframe⟩ := setIndexed_frame s k copy after
  have hne : ¬(dbId = k.dbId ∧ table = k.table) := fun h => hk h.2.symm
  refine ⟨?_, ?_, (sets_setIndexed s k copy after).indexStore_of_ne hne, ?_, ?_, ?_⟩
  · rw [hframe]
    exact (getTableStore_modifyStore s k.dbId k.table _ dbId table).trans (if_neg hne)
  all_goals
    rw [hframe]
    rfl

theorem setSynced {k : Key} (hk : k.table ≠ table) (s : KvsState) (copy after : Option Row) :
    TableSame dbId table s (setSynced s k copy after) := by
  have hne : ¬(dbId = k.dbId ∧ table = k.table) := fun h => hk h.2.symm
  have hindexed : TableSame dbId table s (Skvs.setIndexed s k copy after) :=
    setIndexed hk s copy after
  obtain ⟨ftsTables, hsync⟩ := sets_setSynced s k copy after
  refine ⟨?_, ?_, (sets_setSynced s k copy after).indexStore_of_ne hne, ?_, ?_, ?_⟩
  · rw [hsync]
    exact hindexed.store
  · rw [hsync]
    exact hindexed.counter
  · rw [getFtsTable_setSynced, if_neg hne]
  · rw [hsync]
    exact hindexed.schemas
  · rw [hsync]
    exact hindexed.triggers

theorem undoAll {ops : List UndoOp} (hops : ∀ op ∈ ops, (op.key dbId).table ≠ table) (s : KvsState) :
    TableSame dbId table s (undoAll s dbId ops) := by
  induction ops with
  | nil => exact .refl dbId table s
  | cons op ops ih =>
      have hrest := ih fun op' hop' => hops op' (List.mem_cons_of_mem op hop')
      have hop := hops op List.mem_cons_self
      rw [undoAll_cons]
      rcases undoOp_eq dbId (Skvs.undoAll s dbId ops) op with heq | ⟨copy, after, heq⟩ | ⟨after, heq⟩
      · rw [heq]
        exact hrest
      · rw [heq]
        exact hrest.trans (setSynced hop _ copy after)
      · rw [heq]
        exact hrest.trans (setIndexed hop _ none after)

end TableSame

namespace Spared

variable {dbId : UInt32} {table : String} {s : KvsState} {w : World}

omit [Externals] in
theorem withTxns (h : Spared dbId table s w) {txns : TxnManager}
    (htxns : Unwritten dbId table { w.kvs with txns }) :
    Spared dbId table s { w with kvs := { w.kvs with txns } } :=
  ⟨⟨h.same.store, h.same.counter, h.same.indexes, h.same.fts, h.same.schemas, h.same.triggers⟩, htxns⟩

omit [Externals] in
theorem begin (h : Spared dbId table s w) : Spared dbId table s (w.begin dbId) := by
  refine h.withTxns fun id entry hentry hdb => ?_
  simp only [TxnManager.begin, IndexMap.get_insert] at hentry
  split_ifs at hentry
  · obtain rfl := Option.some.inj hentry
    exact fun _ hop => absurd hop List.not_mem_nil
  · exact h.unwritten id entry hentry hdb

omit [Externals] in
theorem ended (h : Spared dbId table s w) (txId : UInt32) :
    Spared dbId table s { w with kvs := w.kvs.ended txId } := by
  refine h.withTxns fun id entry hentry hdb => ?_
  simp only [IndexMap.get_erase] at hentry
  split_ifs at hentry
  exact h.unwritten id entry hentry hdb

omit [Externals] in
theorem commit (h : Spared dbId table s w) (txId : UInt32) :
    Spared dbId table s (w.commit txId) := by
  rw [commit_eq]
  cases w.kvs.txns.active.get txId with
  | none => exact h
  | some entry => exact h.ended txId

omit [Externals] in
theorem draw (h : Spared dbId table s w) {table' : String} (hne : table' ≠ table) :
    Spared dbId table s (w.draw dbId table') := by
  refine ⟨⟨h.same.store, ?_, h.same.indexes, h.same.fts, h.same.schemas, h.same.triggers⟩,
    h.unwritten⟩
  rw [← h.same.counter]
  simp only [KvsState.rowidCounter, World.draw, KvsState.getNextRowid, IndexMap.getD,
    IndexMap.get_insert_self, Option.getD_some, IndexMap.get_insert, if_neg hne.symm]

theorem store (h : Spared dbId table s w) {table' : String} (hne : table' ≠ table)
    (txId : Option UInt32) (rowid : RowId) (copy after : Option Row) :
    Spared dbId table s (w.store txId ⟨dbId, table', rowid⟩ copy after) := by
  set k : Key := ⟨dbId, table', rowid⟩ with hk
  have hrecord : TableSame dbId table w.kvs (w.kvs.record txId (undoEntry k copy after)) := by
    obtain ⟨txns, hframe⟩ := record_frame w.kvs txId (undoEntry k copy after)
    rw [hframe]
    exact ⟨rfl, rfl, fun _ => rfl, rfl, rfl, rfl⟩
  refine ⟨(h.same.trans hrecord).trans (.setSynced hne _ copy after), fun id entry hentry hdb => ?_⟩
  rw [(store_sets w txId k copy after).txns] at hentry
  cases txId with
  | none => exact h.unwritten id entry hentry hdb
  | some txId =>
      simp only [KvsState.record, TxnManager.record, IndexMap.get_modify] at hentry
      split_ifs at hentry
      · obtain ⟨entry', hentry', rfl⟩ := Option.map_eq_some_iff.mp hentry
        intro op hop
        rcases List.mem_append.mp hop with hop | hop
        · exact h.unwritten id entry' hentry' hdb op hop
        · obtain rfl := List.mem_singleton.mp hop
          have hkey : (undoEntry k copy after).key dbId = k := undoEntry_key k copy after
          rw [hkey]
          exact hne
      · exact h.unwritten id entry hentry hdb

/-- A transaction that was begun on another database is undone there. -/
theorem rollback (h : Spared dbId table s w) (txId : UInt32) :
    Spared dbId table s (w.rollback txId) := by
  have hundone : ∀ entry, w.kvs.txns.active.get txId = some entry →
      TableSame dbId table (w.kvs.ended txId)
        (Skvs.undoAll (w.kvs.ended txId) entry.dbId entry.journal) := by
    intro entry hentry
    by_cases hdb : entry.dbId = dbId
    · rw [hdb]
      exact .undoAll (h.unwritten txId entry hentry hdb) _
    · have hsame := SameDatabase.undoAll_other (Ne.symm hdb) (w.kvs.ended txId) entry.journal
      exact ⟨hsame.getTableStore table, hsame.rowidCounter table, hsame.indexStore table,
        hsame.getFtsTable table, undoAll_schemas .., undoAll_triggers ..⟩
  rw [rollback_eq]
  cases hget : w.kvs.txns.active.get txId with
  | none => exact h
  | some entry =>
      have hended := h.ended txId
      refine ⟨hended.same.trans (hundone entry hget), fun id entry' hentry' => ?_⟩
      rw [undoAll_txns] at hentry'
      exact hended.unwritten id entry' hentry'

end Spared

/-! ### Statements -/

section Statements

variable {dbId : UInt32} {table : String} {s : KvsState}

omit [Externals] in
theorem keptAt_spared {table' : String} (hne : table' ≠ table) (txId : Option UInt32) [Externals] :
    KeptAt dbId table' txId (Spared dbId table s) where
  store _ rowid copy after h := h.store hne txId rowid copy after
  draw _ h := h.draw hne

/-- The bodies of the triggers for an event, where none of their statements leads to the table. -/
theorem fireTriggers_spares (hplain : PlainTriggers s dbId) {run : Statement → Db QueryResult}
    (hrun : ∀ stmt, stmt.isPlain = true → ¬LeadsTo s dbId table stmt →
      Keeps (Spared dbId table s) (run stmt))
    {event : String × TriggerEvent}
    (haway : ∀ event', ReflTransGen (SetsOff s dbId) event event' → event'.1 ≠ table)
    {timing : TriggerTiming} (htiming : timing ≠ .insteadOf) (oldRow newRow : Option Row) :
    Keeps (Spared dbId table s) (fireTriggers run dbId event.1 event.2 timing oldRow newRow) := by
  intro w hw
  have htriggers : w.kvs.getTriggers dbId event.1 = s.getTriggers dbId event.1 := by
    rw [KvsState.getTriggers, KvsState.getTriggers, hw.same.triggers]
  rw [fireTriggers, exec_bind_ok (exec_read _ w), htriggers]
  refine moves_forM (R := Keeping (Spared dbId table s)) _ _ w (fun trigger htrigger w₁ _ hw₁ => ?_) hw
  obtain ⟨htrigger, hfor⟩ := List.mem_filter.mp htrigger
  obtain ⟨hevent, htime⟩ := Bool.and_eq_true_iff.mp hfor
  rw [runTrigger, exec_bind_ok (exec_read World.kvs w₁), exec_bind, exec_ofExcept]
  cases hcond : conditionHolds w₁.kvs dbId trigger oldRow newRow with
  | error e => exact hw₁
  | ok holds =>
      cases holds with
      | false => exact hw₁
      | true =>
          simp only [if_true]
          rw [exec_bind, exec_ofExcept]
          cases hparse : parseStatements
              (substituteTriggerVariables trigger.body oldRow newRow) with
          | error e => exact hw₁
          | ok stmts =>
              refine moves_forM (R := Keeping (Spared dbId table s)) _ _ w₁
                (fun stmt hstmt w₂ _ hw₂ => ?_) hw₁
              have hbody : BodyStatement s dbId event stmt :=
                ⟨trigger, htrigger, of_decide_eq_true hevent, of_decide_eq_true htime ▸ htiming,
                  w₁.kvs, oldRow, newRow, stmts, hcond, hparse, hstmt⟩
              have hleads : ¬LeadsTo s dbId table stmt := by
                rintro ⟨event₁, event₂, hevent₁, hreach, htable⟩
                exact haway event₂ (.head ⟨stmt, hbody, hevent₁⟩ hreach) htable
              rw [exec_bind_pure_snd]
              exact hrun stmt (hplain event.1 trigger htrigger oldRow newRow stmts hparse stmt hstmt)
                hleads w₂ hw₂

/-- By induction on the fuel, as triggers run through the same function. -/
theorem executeSingleStatement_spares (hplain : PlainTriggers s dbId) (fuel : Nat) {stmt : Statement}
    (hstmt : stmt.isPlain = true) (hleads : ¬LeadsTo s dbId table stmt) (params : List Value)
    (txId : Option UInt32) :
    Keeps (Spared dbId table s) (executeSingleStatement fuel dbId stmt params txId) := by
  induction fuel generalizing stmt params with
  | zero => exact keeps_fail _
  | succ fuel ih =>
      have haway : ∀ event, stmt.event? = some event → ∀ event',
          ReflTransGen (SetsOff s dbId) event event' → event'.1 ≠ table :=
        fun event hevent event' hreach htable => hleads ⟨event, event', hevent, hreach, htable⟩
      have hfire : ∀ event, stmt.event? = some event → ∀ timing oldRow newRow,
          timing ≠ .insteadOf → Keeps (Spared dbId table s)
            (fireTriggers (fun s => executeSingleStatement fuel dbId s [] txId) dbId event.1 event.2
              timing oldRow newRow) := fun event hevent timing oldRow newRow htiming =>
        fireTriggers_spares hplain (fun stmt hstmt hleads => ih hstmt hleads []) (haway event hevent)
          htiming oldRow newRow
      cases stmt with
      | query query => exact (keeps_read _).bind fun _ => keeps_ofExcept _
      | insert table' columns source =>
          exact executeInsert_keeps (keptAt_spared (haway _ rfl _ .refl) txId) (hfire _ rfl) fuel
            columns source params
      | update table' assignments selection =>
          exact executeUpdate_keeps (keptAt_spared (haway _ rfl _ .refl) txId) rfl (hfire _ rfl)
            assignments selection params
      | delete tables from_ selection =>
          have hevent : ∀ table', deleteTarget tables from_ = some table' →
              (Statement.delete tables from_ selection).event? = some (table', .delete) := by
            intro table' htarget
            rw [Statement.event?, htarget]
            rfl
          exact executeDelete_keeps
            (fun table' htarget => keptAt_spared (haway _ (hevent table' htarget) _ .refl) txId)
            (fun table' htarget => hfire _ (hevent table' htarget)) selection params
      | _ => exact absurd hstmt Bool.false_ne_true

/-! ### Runs -/

theorem Spared.call (hplain : PlainTriggers s dbId) {w : World} (h : Spared dbId table s w) {c : Call}
    (hdata : c.isData = true) (hleads : ¬LeadsTo s dbId table c.stmt) :
    Spared dbId table s (c.run dbId w) := by
  have hreached : ∀ (hstmt : c.stmt.isPlain = true) txId {v : World}, Spared dbId table s v →
      Spared dbId table s (c.reached dbId txId v) := fun hstmt txId v hv =>
    executeSingleStatement_spares hplain c.fuel hstmt hleads c.params txId v hv
  have hleads := c.run_leads dbId hdata w
  generalize c.run dbId w = w' at hleads
  cases hleads with
  | statement hstmt => exact hreached hstmt c.txId h
  | committed hstmt => exact (hreached hstmt _ h.begin).commit _
  | undone hstmt => exact (hreached hstmt _ h.begin).rollback _
  | stopped hstmt => exact hreached hstmt _ h.begin
  | begin => exact h.begin
  | commit => exact h.commit _
  | rollback => exact h.rollback _
  | nothing => exact h

/-- **A cascade stays within what the triggers lead to.** -/
theorem cascade_stays_within (hplain : PlainTriggers s dbId) (hunwritten : Unwritten dbId table s)
    (calls : List Call)
    (hcalls : ∀ c ∈ calls, c.isData = true ∧ ¬LeadsTo s dbId table c.stmt) :
    TableSame dbId table s (runCalls dbId calls ⟨s, []⟩).kvs := by
  have hrun : ∀ w, Spared dbId table s w → Spared dbId table s (runCalls dbId calls w) := by
    induction calls with
    | nil => exact fun w hw => hw
    | cons c calls ih =>
        intro w hw
        obtain ⟨hdata, hleads⟩ := hcalls c List.mem_cons_self
        exact ih (fun c' hc' => hcalls c' (List.mem_cons_of_mem c hc')) _ (hw.call hplain hdata hleads)
  exact (hrun ⟨s, []⟩ ⟨.refl dbId table s, hunwritten⟩).same

end Statements

/-! ### A run -/

/-- A table `t` with a trigger that inserts into `u`, and a table `v` with a row. -/
def Sample.besideCopy : KvsState :=
  (Sample.copyWorld.kvs.freshTable 0 "v").modifyStore 0 "v" (setRow (some (Sample.row 7)) 1)

omit [Externals] in
/-- An INSERT into `t` leads to `u` but not to `v`. -/
theorem cascade_stays_within_copy :
    letI := Sample.copyExternals
    TableSame 0 "v" Sample.besideCopy
      (runCalls 0 [Sample.insertInto "t" "1"] ⟨Sample.besideCopy, []⟩).kvs := by
  let _ := Sample.copyExternals
  have hbody : ∀ event stmt, BodyStatement Sample.besideCopy 0 event stmt →
      stmt = (Sample.insertInto "u" "1").stmt := by
    rintro event stmt ⟨trigger, htrigger, -, -, state, oldRow, newRow, stmts, -, hparse, hstmt⟩
    obtain rfl := parseStatements_ofTexts hparse
    exact List.mem_singleton.mp hstmt
  have hsets : ∀ event event', SetsOff Sample.besideCopy 0 event event' → event' = ("u", .insert) := by
    rintro event event' ⟨stmt, hstmt, hevent⟩
    rw [hbody event stmt hstmt] at hevent
    exact (Option.some.inj hevent).symm
  have hplain : PlainTriggers Sample.besideCopy 0 := by
    intro table trigger _ oldRow newRow stmts hparse stmt hstmt
    obtain rfl := parseStatements_ofTexts hparse
    rw [List.mem_singleton.mp hstmt]
    rfl
  refine cascade_stays_within hplain (fun id entry hentry => by cases hentry) _ fun c hc => ?_
  obtain rfl := List.mem_singleton.mp hc
  refine ⟨rfl, ?_⟩
  rintro ⟨event, event', hevent, hreach, htable⟩
  obtain rfl := Option.some.inj hevent
  rcases ReflTransGen.cases_tail hreach with heq | ⟨_, _, hlast⟩
  · rw [heq] at htable
    exact absurd htable (by decide)
  · rw [hsets _ _ hlast] at htable
    exact absurd htable (by decide)

end Skvs
