import Skvs.Proof.Cascade
import Skvs.Proof.Kept
import Skvs.Proof.SerialRun
import Skvs.Proof.Views

/-!
# Triggers that do not repeat themselves

A row change runs the bodies of the triggers for it, and the statements of the bodies change rows in
their turn, with no bound on the depth. The run stays within a depth as long as no change has its
triggers run inside a run of them: statements other than CREATE TRIGGER add no triggers, so that the
changes with triggers are finitely many.
-/

namespace Skvs

open Links Prog

variable [Externals]

/-! ### Along the run -/

/-- The query is led to no view that leads back to itself. -/
def QueryEnds (s : KvsState) (dbId : UInt32) (query : Query) : Prop :=
  ∀ source, query.source? = some source → Straight (SelectsFrom s dbId) source

/-- As far as the fuel goes, no event has a statement of its triggers run inside such a run, and
every query that is run ends; `around` are the events whose triggers are being run. -/
def Unnested (dbId : UInt32) (txId : Option UInt32) :
    Nat → List (String × TriggerEvent) → Statement → List Value → World → Prop
  | 0, _, _, _, _ => True
  | fuel + 1, around, stmt, params, w =>
    let run := fun s => executeSingleStatement fuel dbId s [] txId
    let fire := fireTriggers run dbId
    let fires := RowMeets (fun _ _ _ _ _ => True) txId fire fun table event =>
      FiredMeet dbId run (fun s v => (table, event) ∉ around ∧
        Unnested dbId txId fuel ((table, event) :: around) s [] v) table event
    match stmt with
    | .query query => QueryEnds w.kvs dbId query
    | .insert table columns source => ∀ schema, w.kvs.getSchema dbId table = some schema →
        w.kvs.hasStore dbId table = true → (∀ query, source = some query → QueryEnds w.kvs dbId query) ∧
          ∀ rows, candidateRows w.kvs fuel dbId schema columns source params = .ok rows →
            AlongFold (insertRow fire dbId table schema txId) (fun _ row v =>
              let rowid := v.kvs.rowidCounter dbId table
              let row := withDefaults schema rowid row
              validateConstraints (v.draw dbId table).kvs dbId schema row rowid = .ok () →
                fires .insert ⟨dbId, table, rowid⟩ none (some row) (v.draw dbId table)) 0 rows w
    | .update table assignments selection => ∀ schema store,
        w.kvs.getSchema dbId table.relation.name = some schema →
          w.kvs.getTableStore dbId table.relation.name = some store →
            AlongFold (updateRow fire dbId table.relation.name schema txId assignments params)
              (fun _ entry v =>
                let row := updatedRow assignments params entry.2
                validateConstraints v.kvs dbId schema row entry.1 = .ok () →
                  fires .update ⟨dbId, table.relation.name, entry.1⟩ (some entry.2) (some row) v) 0
              (matchingRows w.kvs dbId store selection params (setParamCount assignments)) w
    | .delete tables from_ selection => ∀ table store, deleteTarget tables from_ = some table →
        w.kvs.getTableStore dbId table = some store →
          AlongFold (deleteRow fire dbId table txId)
            (fun _ entry v => fires .delete ⟨dbId, table, entry.1⟩ (some entry.2) none v) 0
            (matchingRows w.kvs dbId store selection params 0) w
    | _ => True

/-- With enough fuel the statement has an outcome, which more fuel does not change. -/
def StatementTerminates (dbId : UInt32) (w : World) (stmt : Statement) (params : List Value)
    (txId : Option UInt32) : Prop :=
  ∃ outcome w', outcome ≠ .error .outOfFuel ∧
    ∃ enough, ∀ fuel ≥ enough, exec (executeStatement fuel dbId stmt params txId) w = (outcome, w')

/-- The triggers of the second state are among those of the first. -/
def TriggersWithin (dbId : UInt32) (s s' : KvsState) : Prop :=
  ∀ table, ∀ trigger ∈ s'.getTriggers dbId table, trigger ∈ s.getTriggers dbId table

namespace TriggersWithin

variable {dbId : UInt32} {s s' : KvsState}

omit [Externals] in
theorem refl (dbId : UInt32) (s : KvsState) : TriggersWithin dbId s s := fun _ _ h => h

omit [Externals] in
theorem of_eq (h : TriggersWithin dbId s s') {s'' : KvsState}
    (htriggers : s''.triggers = s'.triggers) : TriggersWithin dbId s s'' := by
  intro table trigger htrigger
  rw [KvsState.getTriggers, htriggers] at htrigger
  exact h table trigger htrigger

omit [Externals] in
/-- Dropping a table drops its triggers. -/
theorem removeTable (h : TriggersWithin dbId s s') (table : String) :
    TriggersWithin dbId s (s'.removeTable dbId table) := by
  intro table' trigger htrigger
  refine h table' trigger ?_
  rw [KvsState.getTriggers, KvsState.removeTable, IndexMap.get_modify, if_pos rfl] at htrigger
  rw [KvsState.getTriggers]
  cases hmap : s'.triggers.get dbId with
  | none => rw [hmap] at htrigger; exact htrigger
  | some map =>
      rw [hmap, Option.map_some, Option.bind_some, IndexMap.get_erase] at htrigger
      split_ifs at htrigger
      · cases htrigger
      · exact htrigger

end TriggersWithin

/-! ### CREATE, ALTER and DROP -/

section Bodies

variable {dbId : UInt32} {s : KvsState}

/-- From every state with no triggers but those of `s` the program ends in one. -/
abbrev Finishes {α : Type} (dbId : UInt32) (s : KvsState) (p : Db α) : Prop :=
  Settles Fail.outOfFuel (fun w : World => TriggersWithin dbId s w.kvs) fun _ => p

omit [Externals] in
theorem finishes_raise {α : Type} (e : SkvsError) : Finishes dbId s (raise e : Db α) :=
  settles_fail fun h => nomatch h

omit [Externals] in
theorem finishes_panic {α : Type} : Finishes dbId s (Prog.fail .panic : Db α) :=
  settles_fail fun h => nomatch h

omit [Externals] in
theorem finishes_orRaise {α : Type} (o : Option α) (e : SkvsError) :
    Finishes dbId s (orRaise o e) := by
  cases o
  · exact finishes_raise e
  · exact settles_pure _

omit [Externals] in
theorem finishes_onState {f : KvsState → KvsState}
    (htriggers : ∀ s', (f s').triggers = s'.triggers) : Finishes dbId s (onState f) :=
  settles_modify fun w hw => hw.of_eq (htriggers w.kvs)

omit [Externals] in
theorem ensureSchemas_finishes : Finishes dbId s (ensureSchemas dbId) :=
  finishes_onState fun _ => rfl

omit [Externals] in
theorem finishes_setSchema (table : String) (schema : TableSchema) :
    Finishes dbId s (onState fun s => s.setSchema dbId table schema) :=
  finishes_onState fun _ => rfl

variable (dbId s) in
omit [Externals] in
theorem finishes_freshTable (table : String) (schema : TableSchema) :
    Finishes dbId s (onState fun s => (s.setSchema dbId table schema).freshTable dbId table) :=
  finishes_onState fun _ => rfl

theorem createTable_finishes (name : String) (columns : List SqlColumnDef)
    (constraints : List TableConstraint) (ifNotExists : Bool) :
    Finishes dbId s (createTable dbId name columns constraints ifNotExists) := by
  have hcreate := (finishes_freshTable dbId s name
    (buildSchema name columns constraints)).bind fun _ => settles_pure QueryResult.empty
  refine ensureSchemas_finishes.bind fun _ => settles_read_bind fun w hw => ?_
  exact settles_ite (settles_ite (settles_pure _) ((finishes_raise _).bind fun _ => hcreate))
    hcreate

theorem createVirtualTable_finishes (name : String) (ifNotExists : Bool) (moduleName : Ident)
    (moduleArgs : List Ident) :
    Finishes dbId s (createVirtualTable dbId name ifNotExists moduleName moduleArgs) := by
  have hregister : ∀ fts, Finishes dbId s (onState fun s => s.registerFtsTable dbId name fts) :=
    fun _ => finishes_onState fun _ => rfl
  have hcreate : ∀ schema fts, Finishes dbId s (do
      onState fun s => (s.setSchema dbId name schema).freshTable dbId name
      onState fun s => s.registerFtsTable dbId name fts
      return QueryResult.empty) := fun schema fts =>
    (finishes_freshTable dbId s name schema).bind fun _ =>
      (hregister fts).bind fun _ => settles_pure _
  unfold createVirtualTable
  refine settles_ite ((finishes_raise _).bind fun _ => ?_) ?_
  all_goals
    refine ensureSchemas_finishes.bind fun _ => settles_read_bind fun w hw => ?_
    exact settles_ite (settles_ite (settles_pure _) ((finishes_raise _).bind fun _ => hcreate _ _))
      (hcreate _ _)

omit [Externals] in
theorem dropTable_finishes (names : List String) (ifExists : Bool) :
    Finishes dbId s (dropTable dbId names ifExists) := by
  refine (settles_forM fun table _ => ?_).bind fun _ => settles_pure _
  have hremove : Finishes dbId s (onState fun s => s.removeTable dbId table) :=
    settles_modify fun w hw => hw.removeTable table
  refine ensureSchemas_finishes.bind fun _ => settles_read_bind fun w hw => ?_
  exact settles_ite ((finishes_raise _).bind fun _ => hremove) hremove

omit [Externals] in
/-- What follows needs a schema; without one the engine stops. -/
theorem finishes_schemaOrPanic {α : Type} (schema : Option TableSchema) {rest : TableSchema → Db α}
    (h : ∀ schema, Finishes dbId s (rest schema)) :
    Finishes dbId s (match schema with
      | some schema => do
        let schema ← pure schema
        rest schema
      | none => do
        let schema ← Prog.fail .panic
        rest schema) := by
  cases schema with
  | none => exact finishes_panic.bind h
  | some schema => exact (settles_pure _).bind h

theorem alterOperation_finishes (table : String) (op : AlterTableOperation) :
    Finishes dbId s (alterOperation dbId table op) := by
  have hset : ∀ (f : RowId → Row → Row) (schema : TableSchema), Finishes dbId s (do
      onState fun s => s.modifyStore dbId table fun store => store.mapValues f
      onState fun s => s.setSchema dbId table schema
      return table) := by
    intro f schema
    have hrows : Finishes dbId s
        (onState fun s => s.modifyStore dbId table fun store => store.mapValues f) :=
      finishes_onState fun _ => rfl
    exact hrows.bind fun _ => (finishes_setSchema table schema).bind fun _ => settles_pure _
  refine settles_read_bind fun w hw => ?_
  cases op with
  | addColumn columnDef =>
      exact finishes_schemaOrPanic _ fun schema =>
        settles_ite ((finishes_raise _).bind fun _ => hset _ _) (hset _ _)
  | dropColumn columnName colIfExists =>
      exact finishes_schemaOrPanic _ fun schema =>
        settles_ite ((finishes_raise _).bind fun _ => hset _ _) (hset _ _)
  | renameColumn oldColumnName newColumnName =>
      refine finishes_schemaOrPanic _ fun schema => (finishes_orRaise _ _).bind fun colDef => ?_
      exact settles_ite (finishes_panic.bind fun _ => hset _ _) (hset _ _)
  | renameTable newTable =>
      have hrename : Finishes dbId s (onState fun s => s.renameTable dbId table newTable) :=
        finishes_onState fun _ => rfl
      exact hrename.bind fun _ => settles_pure _
  | other text => exact finishes_raise _

theorem alterTable_finishes (name : String) (ifExists : Bool)
    (operations : List AlterTableOperation) :
    Finishes dbId s (alterTable dbId name ifExists operations) := by
  have hall : Finishes dbId s (do
      let _ ← operations.foldlM (alterOperation dbId) name
      return QueryResult.empty) :=
    (settles_foldlM (fun table op _ => alterOperation_finishes table op) name).bind fun _ =>
      settles_pure _
  refine settles_read_bind fun w hw => (finishes_orRaise _ _).bind fun schemas => ?_
  exact settles_ite (settles_ite (settles_pure _) ((finishes_raise _).bind fun _ => hall)) hall

theorem createIndex_finishes (name : Option String) (table : String) (columns : List OrderByExpr)
    (unique ifNotExists : Bool) :
    Finishes dbId s (createIndex dbId name table columns unique ifNotExists) := by
  have hrebuild : ∀ idx, Finishes dbId s (onState fun s => rebuildIndex s dbId table idx) := by
    refine fun idx => finishes_onState fun s' => ?_
    obtain ⟨_, hframe⟩ := rebuildIndex_frame dbId s' table idx
    rw [hframe]
  refine settles_read_bind fun w hw => (finishes_orRaise _ _).bind fun schemas =>
    (finishes_orRaise _ _).bind fun schema => ?_
  have hbuild : ∀ idx : IndexDef, Finishes dbId s (do
      onState fun s => s.setSchema dbId table { schema with indices := schema.indices ++ [idx] }
      onState fun s => rebuildIndex s dbId table idx
      return QueryResult.empty) := fun idx =>
    (finishes_setSchema table _).bind fun _ => (hrebuild idx).bind fun _ => settles_pure _
  exact settles_ite (settles_ite (settles_pure _) ((finishes_raise _).bind fun _ => hbuild _))
    (hbuild _)

theorem dropIndex_finishes (names : List String) (ifExists : Bool) :
    Finishes dbId s (dropIndex dbId names ifExists) := by
  refine settles_read_bind fun w hw => (finishes_orRaise _ _).bind fun _ =>
    (settles_forM fun indexName _ => settles_read_bind fun w hw => ?_).bind fun _ => settles_pure _
  simp only
  cases (hashOrder (w.kvs.schemas.getD dbId ∅).entries).find? fun e =>
      e.2.indices.any fun i => i.name = indexName with
  | none => exact settles_ite (finishes_raise _) (settles_pure _)
  | some e =>
      exact (finishes_setSchema e.1 _).bind fun _ => finishes_onState fun _ => rfl

omit [Externals] in
theorem finishes_ofExcept {α : Type} {r : Except Fail α} (h : r ≠ .error .outOfFuel) :
    Finishes dbId s (Prog.ofExcept r : Db α) :=
  settles_ofExcept (converges_of_const h)

theorem parseStatements_ne_outOfFuel (sql : String) : parseStatements sql ≠ .error .outOfFuel := by
  unfold parseStatements
  split <;> exact nofun

theorem createView_finishes (name : String) (query : Query) :
    Finishes dbId s (createView dbId name query) := by
  have hadd : Finishes dbId s (do
      onState fun s => s.addView dbId name (queryToString query)
      return QueryResult.empty) :=
    Settles.bind (finishes_onState fun _ => rfl) fun _ => settles_pure _
  refine (finishes_ofExcept (parseStatements_ne_outOfFuel _)).bind fun stmts => ?_
  split
  · exact hadd
  · exact finishes_raise _
  · exact finishes_raise _

omit [Externals] in
theorem dropView_finishes (names : List String) (ifExists : Bool) :
    Finishes dbId s (dropView dbId names ifExists) := by
  refine (settles_forM fun name _ => settles_read_bind fun w hw => ?_).bind fun _ => settles_pure _
  cases hremove : w.kvs.removeView dbId name with
  | error e => exact settles_ite (finishes_raise e) (settles_pure _)
  | ok state' =>
      refine settles_modify fun _ _ => hw.of_eq ?_
      rw [KvsState.removeView] at hremove
      cases hviews : w.kvs.views.get dbId with
      | none => rw [hviews] at hremove; cases hremove
      | some map =>
          rw [hviews] at hremove
          rw [← Except.ok.inj hremove]

end Bodies

end Skvs
