import Skvs.Proof.Run

/-!
# What every statement keeps

Whatever a statement is, with whatever triggers, it stores rows and otherwise changes the state by a
few operations on whole tables, indexes and views. An invariant that all of these keep is kept by
the statement.
-/

namespace Skvs

open Prog

variable [Externals]

/-- What CREATE, ALTER and DROP on `dbId` do to the state. -/
inductive Maintenance (dbId : UInt32) : KvsState → KvsState → Prop
  | ensureSchemas (s : KvsState) :
      Maintenance dbId s { s with schemas := s.schemas.insertIfNew dbId ∅ }
  | setSchema (s : KvsState) (table : String) (schema : TableSchema) :
      Maintenance dbId s (s.setSchema dbId table schema)
  | freshTable (s : KvsState) (table : String) : Maintenance dbId s (s.freshTable dbId table)
  | removeTable (s : KvsState) (table : String) : Maintenance dbId s (s.removeTable dbId table)
  | renameTable (s : KvsState) (table newName : String) :
      Maintenance dbId s (s.renameTable dbId table newName)
  | rewriteRows (s : KvsState) (table : String) (f : RowId → Row → Row) :
      Maintenance dbId s (s.modifyStore dbId table fun store => store.mapValues f)
  | rebuildIndex (s : KvsState) (table : String) (idx : IndexDef) :
      Maintenance dbId s (rebuildIndex s dbId table idx)
  | dropIndexStore (s : KvsState) (table indexName : String) :
      Maintenance dbId s (s.dropIndexStore dbId table indexName)
  | registerFtsTable (s : KvsState) (name : String) (fts : FtsVirtualTable) :
      Maintenance dbId s (s.registerFtsTable dbId name fts)
  | addView (s : KvsState) (name query : String) : Maintenance dbId s (s.addView dbId name query)
  | removeView (s s' : KvsState) (name : String) (h : s.removeView dbId name = .ok s') :
      Maintenance dbId s s'

/-- The invariant survives CREATE, ALTER and DROP on `dbId`. -/
structure MaintainedOn (dbId : UInt32) (I : World → Prop) : Prop where
  maintain : ∀ w s', I w → Maintenance dbId w.kvs s' → I { w with kvs := s' }

/-- The invariant survives every change that statements on `dbId` can make. -/
structure KeptOn (dbId : UInt32) (I : World → Prop) : Prop extends MaintainedOn dbId I where
  store : ∀ w txId k copy after, k.dbId = dbId → I w → I (w.store txId k copy after)
  draw : ∀ w table, I w → I (w.draw dbId table)

/-- The invariant survives every change that statements of one transaction on `dbId` can make. -/
structure KeptUnder (dbId : UInt32) (txId : Option UInt32) (I : World → Prop) : Prop
    extends MaintainedOn dbId I where
  store : ∀ w k copy after, k.dbId = dbId → I w → I (w.store txId k copy after)
  draw : ∀ w table, I w → I (w.draw dbId table)

/-- The invariant survives every row change of one table by statements of one transaction. -/
structure KeptAt (dbId : UInt32) (table : String) (txId : Option UInt32) (I : World → Prop) : Prop where
  store : ∀ w rowid copy after, I w → I (w.store txId ⟨dbId, table, rowid⟩ copy after)
  draw : ∀ w, I w → I (w.draw dbId table)

theorem KeptUnder.atTable {dbId : UInt32} {txId : Option UInt32} {I : World → Prop}
    (hI : KeptUnder dbId txId I) (table : String) : KeptAt dbId table txId I :=
  ⟨fun w _ copy after => hI.store w _ copy after rfl, fun w => hI.draw w table⟩

theorem KeptOn.under {dbId : UInt32} {I : World → Prop} (hI : KeptOn dbId I)
    (txId : Option UInt32) : KeptUnder dbId txId I :=
  ⟨hI.toMaintainedOn, fun w => hI.store w txId, hI.draw⟩

omit [Externals] in
theorem keeps_raise {α : Type} {I : World → Prop} (e : SkvsError) : Keeps I (raise e : Db α) :=
  keeps_fail _

omit [Externals] in
theorem keeps_orRaise {α : Type} {I : World → Prop} (o : Option α) (e : SkvsError) :
    Keeps I (orRaise o e) := by
  cases o
  · exact keeps_raise e
  · exact keeps_pure _

section Keeps

variable {dbId : UInt32} {I : World → Prop}

section Writes

variable {table : String} {txId : Option UInt32} (hI : KeptAt dbId table txId I)
include hI

theorem KeptAt.keeps_store (rowid : RowId) (copy after : Option Row) :
    Keeps I (Skvs.store txId ⟨dbId, table, rowid⟩ copy after) :=
  keeps_modify fun w hw => hI.store w rowid copy after hw

/-! ### INSERT, UPDATE, DELETE -/

variable {fire : Fire}

/-- A row change between its triggers. -/
theorem keeps_store_between {event : TriggerEvent}
    (hfire : ∀ timing oldRow newRow, timing ≠ .insteadOf →
      Keeps I (fire table event timing oldRow newRow))
    (rowid : RowId) (copy after oldRow newRow : Option Row) (affected : UInt64) :
    Keeps I (do
      fire table event .before oldRow newRow
      store txId ⟨dbId, table, rowid⟩ copy after
      fire table event .after oldRow newRow
      return affected) :=
  (hfire .before oldRow newRow (by simp)).bind fun _ => (hI.keeps_store rowid copy after).bind fun _ =>
    (hfire .after oldRow newRow (by simp)).bind fun _ => keeps_pure _

theorem executeInsert_keeps
    (hfire : ∀ timing oldRow newRow, timing ≠ .insteadOf →
      Keeps I (fire table .insert timing oldRow newRow))
    (fuel : Nat) (columns : List Ident) (source : Option Query) (params : List Value) :
    Keeps I (executeInsert fire fuel dbId table columns source params txId) := by
  refine (keeps_read _).bind fun state => (keeps_orRaise _ _).bind fun schema =>
    (keeps_orRaise _ _).bind fun _ => (keeps_ofExcept _).bind fun rows =>
      (keeps_foldlM (fun affected row => ?_) rows 0).bind fun _ => keeps_pure _
  have hdraw : Keeps I (nextRowid dbId table) := fun w hw => hI.draw w hw
  rw [insertRow_eq]
  exact hdraw.bind fun rowid => (keeps_read _).bind fun _ => (keeps_ofExcept _).bind fun _ =>
    keeps_store_between hI hfire _ _ _ _ _ _

theorem executeUpdate_keeps {relation : TableFactor} (hname : relation.name = table)
    (hfire : ∀ timing oldRow newRow, timing ≠ .insteadOf →
      Keeps I (fire table .update timing oldRow newRow))
    (assignments : List Assignment) (selection : Option Expr) (params : List Value) :
    Keeps I (executeUpdate fire dbId relation assignments selection params txId) := by
  subst hname
  refine (keeps_read _).bind fun state => (keeps_orRaise _ _).bind fun store =>
    (keeps_orRaise _ _).bind fun schema =>
      (keeps_foldlM (fun affected entry => ?_) _ 0).bind fun _ => keeps_pure _
  rw [updateRow_eq]
  exact (keeps_read _).bind fun _ => (keeps_ofExcept _).bind fun _ =>
    keeps_store_between hI hfire _ _ _ _ _ _

omit hI in
theorem executeDelete_keeps {tables : List String} {from_ : List TableWithJoins}
    (hI : ∀ table, deleteTarget tables from_ = some table → KeptAt dbId table txId I)
    (hfire : ∀ table, deleteTarget tables from_ = some table →
      ∀ timing oldRow newRow, timing ≠ .insteadOf →
        Keeps I (fire table .delete timing oldRow newRow))
    (selection : Option Expr) (params : List Value) :
    Keeps I (executeDelete fire dbId tables from_ selection params txId) := by
  rw [executeDelete]
  cases htarget : deleteTarget tables from_ with
  | none => exact fun w hw => hw
  | some table =>
      simp only [orRaise, pure_bind]
      refine (keeps_read _).bind fun state => (keeps_orRaise _ _).bind fun store =>
        (keeps_foldlM (fun affected entry => ?_) _ 0).bind fun _ => keeps_pure _
      rw [deleteRow_eq]
      exact keeps_store_between (hI table htarget) (hfire table htarget) _ _ _ _ _ _

end Writes

theorem fireTriggers_keeps {run : Statement → Db QueryResult}
    (hrun : ∀ stmt, Keeps I (run stmt)) (table : String)
    (event : TriggerEvent) (timing : TriggerTiming) (oldRow newRow : Option Row) :
    Keeps I (fireTriggers run dbId table event timing oldRow newRow) := by
  refine (keeps_read _).bind fun triggers => keeps_forM (fun trigger => ?_) _
  refine (keeps_read _).bind fun state => (keeps_ofExcept _).bind fun holds => ?_
  cases holds with
  | false => exact keeps_pure _
  | true =>
      exact (keeps_ofExcept _).bind fun stmts =>
        keeps_forM (fun stmt => (hrun stmt).bind fun _ => keeps_pure _) stmts

/-! ### CREATE, ALTER, DROP -/

section Catalogue

variable (hI : MaintainedOn dbId I)
include hI

theorem MaintainedOn.onState {f : KvsState → KvsState} (h : ∀ s, Maintenance dbId s (f s)) :
    Keeps I (onState f) :=
  keeps_modify fun w hw => hI.maintain w _ hw (h w.kvs)

theorem ensureSchemas_keeps : Keeps I (ensureSchemas dbId) := hI.onState .ensureSchemas

theorem keeps_setSchema (table : String) (schema : TableSchema) :
    Keeps I (onState fun s => s.setSchema dbId table schema) :=
  hI.onState fun s => .setSchema s table schema

theorem keeps_freshTable (table : String) (schema : TableSchema) :
    Keeps I (onState fun s => (s.setSchema dbId table schema).freshTable dbId table) :=
  keeps_modify fun w hw => hI.maintain { w with kvs := w.kvs.setSchema dbId table schema } _
    (hI.maintain w _ hw (.setSchema w.kvs table schema)) (.freshTable _ table)

theorem createTable_keeps (name : String) (columns : List SqlColumnDef)
    (constraints : List TableConstraint) (ifNotExists : Bool) :
    Keeps I (createTable dbId name columns constraints ifNotExists) := by
  have hcreate := (keeps_freshTable hI name (buildSchema name columns constraints)).bind fun _ =>
    keeps_pure QueryResult.empty
  exact (ensureSchemas_keeps hI).bind fun _ => (keeps_read _).bind fun state =>
    keeps_ite (keeps_ite (keeps_pure _) ((keeps_raise _).bind fun _ => hcreate)) hcreate

theorem createVirtualTable_keeps (name : String) (ifNotExists : Bool)
    (moduleName : Ident) (moduleArgs : List Ident) :
    Keeps I (createVirtualTable dbId name ifNotExists moduleName moduleArgs) := by
  have hcreate : ∀ schema fts, Keeps I (do
      onState fun s => (s.setSchema dbId name schema).freshTable dbId name
      onState fun s => s.registerFtsTable dbId name fts
      return QueryResult.empty) := fun schema fts =>
    (keeps_freshTable hI name schema).bind fun _ =>
      (hI.onState fun s => .registerFtsTable s name fts).bind fun _ => keeps_pure _
  refine keeps_ite ((keeps_raise _).bind fun _ => ?_) ?_
  all_goals
    exact (ensureSchemas_keeps hI).bind fun _ => (keeps_read _).bind fun state =>
      keeps_ite (keeps_ite (keeps_pure _) ((keeps_raise _).bind fun _ => hcreate _ _)) (hcreate _ _)

theorem dropTable_keeps (names : List String) (ifExists : Bool) :
    Keeps I (dropTable dbId names ifExists) := by
  refine (keeps_forM (fun table => ?_) names).bind fun _ => keeps_pure _
  have hremove : Keeps I (onState fun s => s.removeTable dbId table) :=
    hI.onState fun s => .removeTable s table
  exact (ensureSchemas_keeps hI).bind fun _ => (keeps_read _).bind fun state =>
    keeps_ite ((keeps_raise _).bind fun _ => hremove) hremove

theorem keeps_rewriteRows (table : String) (f : RowId → Row → Row) :
    Keeps I (onState fun s => s.modifyStore dbId table fun store => store.mapValues f) :=
  hI.onState fun s => .rewriteRows s table f

omit [Externals] hI in
/-- What follows needs a schema; without one the engine stops. -/
theorem keeps_schemaOrPanic {α : Type} (schema : Option TableSchema) {rest : TableSchema → Db α}
    (h : ∀ schema, Keeps I (rest schema)) :
    Keeps I (match schema with
      | some schema => do
        let schema ← pure schema
        rest schema
      | none => do
        let schema ← Prog.fail .panic
        rest schema) := by
  cases schema with
  | none => exact (keeps_fail _).bind h
  | some schema => exact (keeps_pure _).bind h

theorem alterOperation_keeps (table : String) (op : AlterTableOperation) :
    Keeps I (alterOperation dbId table op) := by
  refine (keeps_read _).bind fun state => ?_
  have hset : ∀ (f : RowId → Row → Row) (schema : TableSchema),
      Keeps I (do
        onState fun s => s.modifyStore dbId table fun store => store.mapValues f
        onState fun s => s.setSchema dbId table schema
        return table) := fun f schema =>
    (keeps_rewriteRows hI table f).bind fun _ =>
      (keeps_setSchema hI table schema).bind fun _ => keeps_pure _
  cases op with
  | addColumn columnDef =>
      exact keeps_schemaOrPanic _ fun schema =>
        keeps_ite ((keeps_raise _).bind fun _ => hset _ _) (hset _ _)
  | dropColumn columnName colIfExists =>
      exact keeps_schemaOrPanic _ fun schema =>
        keeps_ite ((keeps_raise _).bind fun _ => hset _ _) (hset _ _)
  | renameColumn oldColumnName newColumnName =>
      exact keeps_schemaOrPanic _ fun schema => (keeps_orRaise _ _).bind fun colDef =>
        keeps_ite ((keeps_fail _).bind fun _ => hset _ _) (hset _ _)
  | renameTable newTable =>
      exact (hI.onState fun s => .renameTable s table newTable).bind fun _ => keeps_pure _
  | other text => exact keeps_raise _

theorem alterTable_keeps (name : String) (ifExists : Bool) (operations : List AlterTableOperation) :
    Keeps I (alterTable dbId name ifExists operations) := by
  have hall : Keeps I (do
      let _ ← operations.foldlM (alterOperation dbId) name
      return QueryResult.empty) :=
    (keeps_foldlM (alterOperation_keeps hI) operations name).bind fun _ => keeps_pure _
  exact (keeps_read _).bind fun state => (keeps_orRaise _ _).bind fun schemas =>
    keeps_ite (keeps_ite (keeps_pure _) ((keeps_raise _).bind fun _ => hall)) hall

theorem createIndex_keeps (name : Option String) (table : String) (columns : List OrderByExpr)
    (unique ifNotExists : Bool) :
    Keeps I (createIndex dbId name table columns unique ifNotExists) := by
  refine (keeps_read _).bind fun state => (keeps_orRaise _ _).bind fun schemas =>
    (keeps_orRaise _ _).bind fun schema => ?_
  have hbuild : ∀ idx : IndexDef, Keeps I (do
      onState fun s => s.setSchema dbId table { schema with indices := schema.indices ++ [idx] }
      onState fun s => rebuildIndex s dbId table idx
      return QueryResult.empty) := fun idx =>
    (keeps_setSchema hI table _).bind fun _ =>
      (hI.onState fun s => .rebuildIndex s table idx).bind fun _ => keeps_pure _
  exact keeps_ite (keeps_ite (keeps_pure _) ((keeps_raise _).bind fun _ => hbuild _)) (hbuild _)

theorem dropIndex_keeps (names : List String) (ifExists : Bool) :
    Keeps I (dropIndex dbId names ifExists) := by
  refine (keeps_read _).bind fun state => (keeps_orRaise _ _).bind fun _ =>
    (keeps_forM (fun indexName => ?_) names).bind fun _ => keeps_pure _
  refine (keeps_read _).bind fun state => ?_
  simp only
  cases (hashOrder (state.schemas.getD dbId ∅).entries).find? fun e =>
      e.2.indices.any fun i => i.name = indexName with
  | none => exact keeps_ite (keeps_raise _) (keeps_pure _)
  | some e =>
      exact (keeps_setSchema hI e.1 _).bind fun _ => hI.onState fun s => .dropIndexStore s e.1 indexName

theorem createView_keeps (name : String) (query : Query) :
    Keeps I (createView dbId name query) := by
  refine (keeps_ofExcept _).bind fun stmts => ?_
  split
  · exact (hI.onState fun s => .addView s name _).bind fun _ => keeps_pure _
  · exact keeps_raise _
  · exact keeps_raise _

theorem dropView_keeps (names : List String) (ifExists : Bool) :
    Keeps I (dropView dbId names ifExists) := by
  refine (keeps_forM (fun name => ?_) names).bind fun _ => keeps_pure _
  intro w hw
  rw [exec_bind_ok (exec_read World.kvs w)]
  cases hremove : w.kvs.removeView dbId name with
  | error e => exact keeps_ite (keeps_raise e) (keeps_pure _) w hw
  | ok state' => exact hI.maintain w state' hw (.removeView w.kvs state' name hremove)

end Catalogue

/-! ### Any statement -/

/-- CREATE, ALTER and DROP. -/
def Statement.isCatalogue : Statement → Bool
  | .createTable .. | .alterTable .. | .createIndex .. | .createView .. => true
  | .createVirtualTable .. | .drop .. => true
  | _ => false

section Statements

/-- By induction on the fuel, as triggers run through the same function. -/
theorem executeSingleStatement_keeps_of {txId : Option UInt32}
    (hrows : ∀ table, KeptAt dbId table txId I)
    (hcatalogue : ∀ stmt : Statement, stmt.isCatalogue = true → ∀ fuel params,
      Keeps I (executeSingleStatement (fuel + 1) dbId stmt params txId))
    (fuel : Nat) (stmt : Statement) (params : List Value) :
    Keeps I (executeSingleStatement fuel dbId stmt params txId) := by
  induction fuel generalizing stmt params with
  | zero => exact keeps_fail _
  | succ fuel ih =>
      have hfire : ∀ table event timing oldRow newRow, Keeps I
          (fireTriggers (fun stmt => executeSingleStatement fuel dbId stmt [] txId) dbId table event
            timing oldRow newRow) :=
        fireTriggers_keeps fun stmt => ih stmt []
      cases stmt with
      | query query => exact (keeps_read _).bind fun _ => keeps_ofExcept _
      | insert table columns source =>
          exact executeInsert_keeps (hrows table) (fun t o n _ => hfire table .insert t o n) fuel
            columns source params
      | update table assignments selection =>
          exact executeUpdate_keeps (hrows _) rfl (fun t o n _ => hfire _ .update t o n)
            assignments selection params
      | delete tables from_ selection =>
          exact executeDelete_keeps (fun table _ => hrows table)
            (fun table _ t o n _ => hfire table .delete t o n) selection params
      | startTransaction => exact keeps_raise _
      | commit => exact keeps_raise _
      | rollback => exact keeps_raise _
      | other debug => exact keeps_raise _
      | _ => exact hcatalogue _ rfl fuel params

theorem executeSingleStatement_keeps {txId : Option UInt32} (hI : KeptUnder dbId txId I) (fuel : Nat)
    (stmt : Statement) (params : List Value) :
    Keeps I (executeSingleStatement fuel dbId stmt params txId) := by
  have hdb := hI.toMaintainedOn
  refine executeSingleStatement_keeps_of hI.atTable (fun stmt hstmt fuel params => ?_) fuel stmt params
  cases stmt with
  | createTable name columns constraints ifNotExists =>
      exact createTable_keeps hdb name columns constraints ifNotExists
  | alterTable name ifExists operations => exact alterTable_keeps hdb name ifExists operations
  | createIndex name table columns unique ifNotExists =>
      exact createIndex_keeps hdb name table columns unique ifNotExists
  | createView name query => exact createView_keeps hdb name query
  | createVirtualTable name ifNotExists moduleName moduleArgs =>
      exact createVirtualTable_keeps hdb name ifNotExists moduleName moduleArgs
  | drop object names ifExists =>
      cases object with
      | table => exact dropTable_keeps hdb names ifExists
      | index => exact dropIndex_keeps hdb names ifExists
      | view => exact dropView_keeps hdb names ifExists
      | other debug => exact keeps_raise _
  | _ => exact absurd hstmt Bool.false_ne_true

/-! ### Calls -/

/-- A call that begins a transaction goes on from the world in which it has begun. -/
theorem Call.run_kept_of
    (hstmt : ∀ fuel stmt params txId, Keeps I (executeSingleStatement fuel dbId stmt params txId))
    (hend : ∀ w txId, I w → I (w.commit txId) ∧ I (w.rollback txId)) (c : Call)
    {w : World} (h : I (if c.begins then w.begin dbId else w)) : I (c.run dbId w) := by
  obtain ⟨stmt, params, txId, fuel⟩ := c
  have hplain : I (if txId.isNone && stmt.isWrite then w.begin dbId else w) →
      I (exec (if txId.isNone && stmt.isWrite then executeAtomically fuel dbId stmt params
        else executeSingleStatement fuel dbId stmt params txId) w).2 := by
    intro hbegun
    cases hauto : txId.isNone && stmt.isWrite with
    | false =>
        rw [hauto] at hbegun
        exact hstmt fuel stmt params txId w hbegun
    | true =>
        rw [hauto] at hbegun
        have hrun := hstmt fuel stmt params (some w.kvs.txns.nextId) (w.begin dbId) hbegun
        rw [if_pos rfl, exec_executeAtomically]
        generalize exec (executeSingleStatement fuel dbId stmt params (some w.kvs.txns.nextId))
          (w.begin dbId) = out at hrun
        obtain ⟨outcome, w'⟩ := out
        match outcome with
        | .ok _ => exact (hend w' _ hrun).1
        | .error (.err _) => exact (hend w' _ hrun).2
        | .error .panic => exact hrun
        | .error .outOfFuel => exact hrun
  cases stmt with
  | startTransaction => exact h
  | commit =>
      cases txId with
      | none => exact h
      | some id =>
          change I (exec (Skvs.commit id >>= fun _ => pure QueryResult.empty) w).2
          rw [exec_bind_pure_snd, exec_commit]
          exact (hend w id h).1
  | rollback =>
      cases txId with
      | none => exact h
      | some id =>
          change I (exec (Skvs.rollback id >>= fun _ => pure QueryResult.empty) w).2
          rw [exec_bind_pure_snd, exec_rollback]
          exact (hend w id h).2
  | _ => exact hplain h

theorem Call.run_kept (hI : KeptOn dbId I)
    (hend : ∀ w txId, I w → I (w.commit txId) ∧ I (w.rollback txId)) (c : Call)
    {w : World} (h : I (if c.begins then w.begin dbId else w)) : I (c.run dbId w) :=
  Call.run_kept_of (fun fuel stmt params txId =>
    executeSingleStatement_keeps (hI.under txId) fuel stmt params) hend c h

end Statements

end Keeps

end Skvs
