import Skvs.Lib.Simulation
import Skvs.Proof.ListedIndexes
import Skvs.Proof.SerialRun

/-!
# DROP TABLE and CREATE TABLE

DROP TABLE leaves the index stores of the table behind. The schema of the new table lists no index, and
CREATE INDEX fills an index from the rows before anything is looked up in it, so the new table does what
a table does in a database that has never had it.
-/

namespace Skvs

open Prog

/-! ### The two states -/

/-- The database without the table: nothing is kept under its name. -/
structure WithoutTable (s : KvsState) (dbId : UInt32) (table : String) (s₀ : KvsState) : Prop where
  dbs : s₀.dbs = s.dbs.modify dbId fun db => db.erase table
  schemas : s₀.schemas = s.schemas.modify dbId fun db => db.erase table
  rowidGenerators : s₀.rowidGenerators = s.rowidGenerators.modify dbId fun db => db.erase table
  triggers : s₀.triggers = s.triggers.modify dbId fun db => db.erase table
  ftsTables : s₀.ftsTables = s.ftsTables.modify dbId fun db => db.erase table
  views : s₀.views = s.views
  indexes : ∀ db t name, s₀.indexStore db t name =
    if db = dbId ∧ t = table then ∅ else s.indexStore db t name

/-- The states do the same for the table, which is there and has no triggers. -/
structure SameFor (dbId : UInt32) (table : String) (schema : TableSchema) (s s' : KvsState) : Prop
    extends SameListed s s' where
  named : schema.name = table
  schema : s.getSchema dbId table = some schema
  store : s.hasStore dbId table = true
  noTriggers : s.getTriggers dbId table = []

section SameFor

variable [Externals] {dbId : UInt32} {table : String} {schema : TableSchema} {s s' v v' : KvsState}

omit [Externals] in
theorem SameFor.of_listed (h : SameFor dbId table schema s s') (hlisted : SameListed v v')
    (htriggers : v.triggers = s.triggers) (hschemas : v.schemas = s.schemas)
    (hstore : v.hasStore dbId table = s.hasStore dbId table) : SameFor dbId table schema v v' where
  toSameListed := hlisted
  noTriggers := by rw [KvsState.getTriggers, htriggers]; exact h.noTriggers
  store := hstore.trans h.store
  schema := by rw [KvsState.getSchema, hschemas]; exact h.schema
  named := h.named

omit [Externals] in
theorem SameFor.noTriggers' (h : SameFor dbId table schema s s') : s'.getTriggers dbId table = [] := by
  obtain ⟨_, _, rfl⟩ := h.frame
  exact h.noTriggers

theorem SameFor.validateConstraints (h : SameFor dbId table schema s s') (row : Row) (rowid : RowId) :
    Skvs.validateConstraints s' dbId schema row rowid =
      Skvs.validateConstraints s dbId schema row rowid :=
  h.toSameListed.validateConstraints (by rw [h.named]; exact h.schema) row rowid

/-- A new index is listed, and filled from the rows in both states. -/
theorem SameFor.createIndex (h : SameFor dbId table schema s s') (idx : IndexDef) :
    let made := { schema with indices := schema.indices ++ [idx] }
    SameFor dbId table made (rebuildIndex (s.setSchema dbId table made) dbId table idx)
      (rebuildIndex (s'.setSchema dbId table made) dbId table idx) := by
  intro made
  obtain ⟨rows, hrows⟩ := Option.isSome_iff_exists.mp h.store
  have hmade := getSchema_setSchema dbId s table made
  rw [KvsState.rebuildIndex_eq (s.setSchema dbId table made) dbId hrows,
    KvsState.rebuildIndex_eq (s'.setSchema dbId table made) dbId ((h.getTableStore _ _).trans hrows)]
  refine ⟨⟨?_, fun db t schema' hschema' idx' hidx' => ?_⟩, h.named,
    (hmade table).trans (if_pos rfl), h.store, h.noTriggers⟩
  · obtain ⟨_, txns, rfl⟩ := h.frame
    exact ⟨_, txns, rfl⟩
  · rw [indexStore_modifyIndexStore, indexStore_modifyIndexStore]
    split_ifs with hsame
    · rfl
    · by_cases hdb : db = dbId
      · subst hdb
        by_cases ht : t = table
        · subst ht
          obtain rfl := Option.some.inj (((hmade t).trans (if_pos rfl)).symm.trans hschema')
          rcases List.mem_append.mp hidx' with hold | hnew
          · exact h.listed db t schema h.schema idx' hold
          · obtain rfl := List.mem_singleton.mp hnew
            exact absurd ⟨rfl, rfl, rfl⟩ hsame
        · exact h.listed db t schema' (((hmade t).trans (if_neg ht)).symm.trans hschema') idx' hidx'
      · have hget : (s.setSchema dbId table made).getSchema db t = s.getSchema db t := by
          simp only [KvsState.getSchema, KvsState.setSchema, IndexMap.get_insert, if_neg hdb]
        exact h.listed db t schema' (hget.symm.trans hschema') idx' hidx'

end SameFor

/-! ### Worlds -/

/-- The states do the same for the table, and the transactions of the two ids have the same journal. -/
structure SameUnder (dbId : UInt32) (table : String) (schema : TableSchema)
    (ids : Option (UInt32 × UInt32)) (w w' : World) : Prop where
  kvs : SameFor dbId table schema w.kvs w'.kvs
  journal : ∀ p, ids = some p → w'.kvs.txns.active.get p.2 = w.kvs.txns.active.get p.1

/-- The statement runs under the two ids, if there are two. -/
def RunsUnder (ids : Option (UInt32 × UInt32)) (txId txId' : Option UInt32) : Prop :=
  ∀ p, ids = some p → txId = some p.1 ∧ txId' = some p.2

section Worlds

variable [Externals] {dbId : UInt32} {table : String} {schema : TableSchema}
  {ids : Option (UInt32 × UInt32)} {txId txId' : Option UInt32} {w w' : World}

omit [Externals] in
theorem SameUnder.draw (h : SameUnder dbId table schema ids w w') :
    SameUnder dbId table schema ids (w.draw dbId table) (w'.draw dbId table) :=
  ⟨h.kvs.of_listed (h.kvs.getNextRowid dbId table) rfl rfl rfl, h.journal⟩

theorem SameUnder.store (h : SameUnder dbId table schema ids w w') (hids : RunsUnder ids txId txId')
    (k : Key) (copy after : Option Row) :
    SameUnder dbId table schema ids (w.store txId k copy after) (w'.store txId' k copy after) where
  kvs := h.kvs.of_listed ((h.kvs.record txId txId' (undoEntry k copy after)).setSynced k copy after)
    (store_triggers w txId k copy after) (store_schemas w txId k copy after)
    (store_hasStore w txId k copy after dbId table)
  journal p hp := by
    obtain ⟨rfl, rfl⟩ := hids p hp
    rw [(store_sets w _ k copy after).txns, (store_sets w' _ k copy after).txns]
    simp only [KvsState.record, TxnManager.record, IndexMap.get_modify, if_true, h.journal p hp]

omit [Externals] in
theorem SameUnder.begin (h : SameFor dbId table schema w.kvs w'.kvs) :
    SameUnder dbId table schema (some (w.kvs.txns.nextId, w'.kvs.txns.nextId)) (w.begin dbId)
      (w'.begin dbId) where
  kvs := h.of_listed (h.withTxns _ _) rfl rfl rfl
  journal p hp := by
    obtain rfl := Option.some.inj hp
    exact (IndexMap.get_insert_self ..).trans (IndexMap.get_insert_self ..).symm

omit [Externals] in
/-- The rows that a statement goes through are the same, one by one. -/
theorem SameUnder.rowLoop (h : SameUnder dbId table schema ids w w') {α : Type}
    {f f' : UInt64 → α → Db UInt64}
    (hf : ∀ n a v v', SameUnder dbId table schema ids v v' →
      Simulates Eq (SameUnder dbId table schema ids) Eq (f n a) (f' n a) v v') (l : List α) :
    Simulates Eq (SameUnder dbId table schema ids) Eq (do
      let affected ← l.foldlM f 0
      return QueryResult.affected affected) (do
      let affected ← l.foldlM f' 0
      return QueryResult.affected affected) w w' := by
  refine simulates_bind (simulates_foldlM (P := Eq) (A := Eq) ?_ (List.forall₂_refl l) rfl h)
    fun n _ w₁ w₁' hn h₁ => ?_
  · rintro n _ a _ v v' rfl rfl hv
    exact hf n a v v' hv
  · subst hn
    exact simulates_pure rfl h₁

variable {id id' : UInt32}

omit [Externals] in
theorem SameUnder.commit (h : SameUnder dbId table schema (some (id, id')) w w') :
    SameFor dbId table schema (w.commit id).kvs (w'.commit id').kvs := by
  rw [commit_eq, commit_eq, h.journal _ rfl]
  cases w.kvs.txns.active.get id with
  | none => exact h.kvs
  | some => exact h.kvs.of_listed (h.kvs.withTxns _ _) rfl rfl rfl

theorem SameUnder.rollback (h : SameUnder dbId table schema (some (id, id')) w w') :
    SameFor dbId table schema (w.rollback id).kvs (w'.rollback id').kvs := by
  have hlisted : SameListed (w.rollback id).kvs (w'.rollback id').kvs := by
    rw [rollback_eq, rollback_eq, h.journal _ rfl]
    cases w.kvs.txns.active.get id with
    | none => exact h.kvs.toSameListed
    | some entry => exact (h.kvs.withTxns _ _).undoAll entry.journal
  exact h.kvs.of_listed hlisted (rollback_triggers w id) (rollback_schemas w id)
    (rollback_hasStore w id dbId table)

end Worlds

/-! ### Statements -/

section Rows

variable [Externals] {dbId : UInt32} {table : String} {schema : TableSchema}
  {ids : Option (UInt32 × UInt32)} {txId txId' : Option UInt32} {w w' : World}
  (h : SameUnder dbId table schema ids w w') (hids : RunsUnder ids txId txId') {fire fire' : Fire}
  (hfire : TableQuiet dbId table fire) (hfire' : TableQuiet dbId table fire')
include h hids hfire hfire'

theorem storeBetween_same (rowid : RowId) (copy after : Option Row) (event : TriggerEvent)
    (oldRow newRow : Option Row) (affected : UInt64) :
    Simulates Eq (SameUnder dbId table schema ids) Eq (do
      fire table event .before oldRow newRow
      store txId ⟨dbId, table, rowid⟩ copy after
      fire table event .after oldRow newRow
      return affected) (do
      fire' table event .before oldRow newRow
      store txId' ⟨dbId, table, rowid⟩ copy after
      fire' table event .after oldRow newRow
      return affected) w w' := by
  have hquiet : ∀ {w w' : World} (timing : TriggerTiming), SameUnder dbId table schema ids w w' →
      Simulates Eq (SameUnder dbId table schema ids) Eq (fire table event timing oldRow newRow)
        (fire' table event timing oldRow newRow) w w' := by
    intro w w' timing h
    rw [Simulates, hfire _ _ _ _ _ h.kvs.noTriggers, hfire' _ _ _ _ _ h.kvs.noTriggers']
    exact ⟨.ok rfl, h⟩
  refine simulates_bind (hquiet .before h) fun _ _ w₁ w₁' _ h₁ => ?_
  refine simulates_bind (A := Eq) ⟨.ok rfl, h₁.store hids ⟨dbId, table, rowid⟩ copy after⟩
    fun _ _ w₂ w₂' _ h₂ => ?_
  exact simulates_bind (hquiet .after h₂) fun _ _ w₃ w₃' _ h₃ => simulates_pure rfl h₃

theorem checkedStore_same (row : Row) (rowid : RowId) (copy : Option Row) (event : TriggerEvent)
    (oldRow newRow : Option Row) (affected : UInt64) :
    Simulates Eq (SameUnder dbId table schema ids) Eq (do
      let state ← Prog.read World.kvs
      check (validateConstraints state dbId schema row rowid)
      fire table event .before oldRow newRow
      store txId ⟨dbId, table, rowid⟩ copy (some row)
      fire table event .after oldRow newRow
      return affected) (do
      let state ← Prog.read World.kvs
      check (validateConstraints state dbId schema row rowid)
      fire' table event .before oldRow newRow
      store txId' ⟨dbId, table, rowid⟩ copy (some row)
      fire' table event .after oldRow newRow
      return affected) w w' := by
  refine simulates_bind (A := fun s s' => s = w.kvs ∧ s' = w'.kvs)
    (simulates_read ⟨rfl, rfl⟩ h) fun s s' w₁ w₁' hs h₁ => ?_
  obtain ⟨rfl, rfl⟩ := hs
  rw [h.kvs.validateConstraints]
  exact simulates_bind (simulates_same _ h₁) fun _ _ w₂ w₂' _ h₂ =>
    storeBetween_same h₂ hids hfire hfire' rowid copy (some row) event oldRow newRow affected

theorem insertRow_same (row : Row) (affected : UInt64) :
    Simulates Eq (SameUnder dbId table schema ids) Eq
      (insertRow fire dbId table schema txId affected row)
      (insertRow fire' dbId table schema txId' affected row) w w' := by
  rw [insertRow_eq, insertRow_eq]
  have hcounter : w'.kvs.rowidCounter dbId table = w.kvs.rowidCounter dbId table := by
    obtain ⟨_, _, hframe⟩ := h.kvs.frame
    rw [hframe]
    rfl
  refine simulates_bind (A := Eq) ⟨.ok hcounter.symm, h.draw⟩ fun rowid _ w₁ w₁' hrowid h₁ => ?_
  subst hrowid
  exact checkedStore_same h₁ hids hfire hfire' _ rowid none _ _ _ _

theorem updateRow_same (assignments : List Assignment) (params : List Value) (affected : UInt64)
    (entry : RowId × Row) :
    Simulates Eq (SameUnder dbId table schema ids) Eq
      (updateRow fire dbId table schema txId assignments params affected entry)
      (updateRow fire' dbId table schema txId' assignments params affected entry) w w' := by
  obtain ⟨rowid, oldRow⟩ := entry
  rw [updateRow_eq, updateRow_eq]
  exact checkedStore_same h hids hfire hfire' _ rowid (some oldRow) _ _ _ _

theorem deleteRow_same (affected : UInt64) (entry : RowId × Row) :
    Simulates Eq (SameUnder dbId table schema ids) Eq
      (deleteRow fire dbId table txId affected entry)
      (deleteRow fire' dbId table txId' affected entry) w w' := by
  obtain ⟨rowid, row⟩ := entry
  rw [deleteRow_eq, deleteRow_eq]
  exact storeBetween_same h hids hfire hfire' rowid (some row) none _ _ _ _

theorem executeInsert_same (fuel : Nat) (columns : List Ident) (source : Option Query)
    (params : List Value) :
    Simulates Eq (SameUnder dbId table schema ids) Eq
      (executeInsert fire fuel dbId table columns source params txId)
      (executeInsert fire' fuel dbId table columns source params txId') w w' := by
  refine simulates_bind (A := fun s s' => s = w.kvs ∧ s' = w'.kvs)
    (simulates_read ⟨rfl, rfl⟩ h) fun s s' w₁ w₁' hs h₁ => ?_
  obtain ⟨rfl, rfl⟩ := hs
  obtain ⟨rows, hrows⟩ := Option.isSome_iff_exists.mp h.kvs.store
  simp only [h.kvs.getSchema, h.kvs.schema, h.kvs.getTableStore, hrows, h.kvs.candidateRows, orRaise,
    pure_bind]
  refine simulates_bind (simulates_same _ h₁) fun candidates _ w₂ w₂' hcandidates h₂ => ?_
  subst hcandidates
  exact h₂.rowLoop (fun n row v v' hv =>
    insertRow_same hv hids hfire hfire' row n) candidates

theorem executeUpdate_same {relation : TableFactor} (hname : relation.name = table)
    (assignments : List Assignment) (selection : Option Expr) (params : List Value) :
    Simulates Eq (SameUnder dbId table schema ids) Eq
      (executeUpdate fire dbId relation assignments selection params txId)
      (executeUpdate fire' dbId relation assignments selection params txId') w w' := by
  subst hname
  refine simulates_bind (A := fun s s' => s = w.kvs ∧ s' = w'.kvs)
    (simulates_read ⟨rfl, rfl⟩ h) fun s s' w₁ w₁' hs h₁ => ?_
  obtain ⟨rfl, rfl⟩ := hs
  obtain ⟨rows, hrows⟩ := Option.isSome_iff_exists.mp h.kvs.store
  simp only [h.kvs.getSchema, h.kvs.schema, h.kvs.getTableStore, hrows, h.kvs.matchingRows, orRaise,
    pure_bind]
  exact h₁.rowLoop (fun n entry v v' hv =>
    updateRow_same hv hids hfire hfire' assignments params n entry) _

theorem executeDelete_same {tables : List String} {from_ : List TableWithJoins}
    (htarget : deleteTarget tables from_ = some table) (selection : Option Expr)
    (params : List Value) :
    Simulates Eq (SameUnder dbId table schema ids) Eq
      (executeDelete fire dbId tables from_ selection params txId)
      (executeDelete fire' dbId tables from_ selection params txId') w w' := by
  rw [executeDelete, executeDelete, htarget, orRaise, pure_bind, pure_bind]
  refine simulates_bind (A := fun s s' => s = w.kvs ∧ s' = w'.kvs)
    (simulates_read ⟨rfl, rfl⟩ h) fun s s' w₁ w₁' hs h₁ => ?_
  obtain ⟨rfl, rfl⟩ := hs
  obtain ⟨rows, hrows⟩ := Option.isSome_iff_exists.mp h.kvs.store
  simp only [h.kvs.getTableStore, hrows, h.kvs.matchingRows, orRaise, pure_bind]
  exact h₁.rowLoop (fun n entry v v' hv =>
    deleteRow_same hv hids hfire hfire' n entry) _

end Rows

/-! ### CREATE INDEX and SELECT -/

section Statements

variable [Externals] {dbId : UInt32} {table : String} {schema : TableSchema} {w w' : World}

/-- CREATE INDEX on a table that is there. -/
theorem exec_createIndex (hschema : w.kvs.getSchema dbId table = some schema) (name : Option String)
    (columns : List OrderByExpr) (unique ifNotExists : Bool) :
    let indexName := name.getD s!"idx_{table}_{columns.length}"
    let idx : IndexDef :=
      ⟨indexName, columns.map fun c => exprToString c.expr, unique, none, false⟩
    exec (createIndex dbId name table columns unique ifNotExists) w =
      if schema.indices.any fun i => i.name = indexName then
        (if ifNotExists then .ok .empty
          else .error (.err (.schema s!"Index {indexName} already exists")), w)
      else (.ok .empty, { w with kvs := rebuildIndex (w.kvs.setSchema dbId table
        { schema with indices := schema.indices ++ [idx] }) dbId table idx }) := by
  intro indexName idx
  obtain ⟨schemas, hdb, hget⟩ := Option.bind_eq_some_iff.mp hschema
  rw [createIndex, exec_bind_ok (exec_read World.kvs w)]
  simp only [hdb, hget, orRaise, pure_bind]
  split
  · cases ifNotExists <;> rfl
  · rfl

theorem createIndex_same (h : SameFor dbId table schema w.kvs w'.kvs) (name : Option String)
    (columns : List OrderByExpr) (unique ifNotExists : Bool) :
    Simulates Eq (fun w w' => ∃ schema, SameFor dbId table schema w.kvs w'.kvs) Eq
      (createIndex dbId name table columns unique ifNotExists)
      (createIndex dbId name table columns unique ifNotExists) w w' := by
  have hschema' := (h.getSchema dbId table).trans h.schema
  rw [Simulates, exec_createIndex h.schema, exec_createIndex hschema']
  split
  · exact ⟨Except.Rel.refl _, schema, h⟩
  · exact ⟨Except.Rel.refl _, _, h.createIndex _⟩

/-- A SELECT, or CREATE INDEX, INSERT, UPDATE or DELETE on the table. -/
def Statement.onTable (table : String) : Statement → Bool
  | .query _ => true
  | .createIndex _ t _ _ _ => t = table
  | .insert t _ _ => t = table
  | .update t _ _ => t.relation.name = table
  | .delete tables from_ _ => deleteTarget tables from_ = some table
  | _ => false

/-- A write to the table. -/
theorem executeSingleStatement_same {ids : Option (UInt32 × UInt32)} {txId txId' : Option UInt32}
    (h : SameUnder dbId table schema ids w w') (hids : RunsUnder ids txId txId') {stmt : Statement}
    (hon : stmt.onTable table = true) (hwrite : stmt.isWrite = true) (fuel : Nat)
    (params : List Value) :
    Simulates Eq (SameUnder dbId table schema ids) Eq
      (executeSingleStatement fuel dbId stmt params txId)
      (executeSingleStatement fuel dbId stmt params txId') w w' := by
  cases fuel with
  | zero => exact ⟨.error rfl, h⟩
  | succ fuel =>
      have hfire : TableQuiet dbId table (fireTriggers _ dbId) :=
        fireTriggers_tableQuiet fun s => executeSingleStatement fuel dbId s [] txId
      have hfire' : TableQuiet dbId table (fireTriggers _ dbId) :=
        fireTriggers_tableQuiet fun s => executeSingleStatement fuel dbId s [] txId'
      cases stmt with
      | insert t columns source =>
          obtain rfl := of_decide_eq_true hon
          exact executeInsert_same h hids hfire hfire' fuel columns source params
      | update t assignments selection =>
          exact executeUpdate_same h hids hfire hfire' (of_decide_eq_true hon) assignments selection
            params
      | delete tables from_ selection =>
          exact executeDelete_same h hids hfire hfire' (of_decide_eq_true hon) selection params
      | _ => exact nomatch hwrite

theorem executeStatement_same (h : SameFor dbId table schema w.kvs w'.kvs) {stmt : Statement}
    (hon : stmt.onTable table = true) (fuel : Nat) (params : List Value) (txId : Option UInt32) :
    Simulates Eq (fun w w' => ∃ schema, SameFor dbId table schema w.kvs w'.kvs) Eq
      (executeStatement fuel dbId stmt params txId)
      (executeStatement fuel dbId stmt params txId) w w' := by
  cases hwrite : stmt.isWrite with
  | true =>
      rw [executeStatement_write hwrite]
      cases txId with
      | some id =>
          have hunder : SameUnder dbId table schema none w w' := ⟨h, fun _ hp => by cases hp⟩
          have hruns : RunsUnder none (some id) (some id) := fun _ hp => by cases hp
          have hsim := executeSingleStatement_same hunder hruns hon hwrite fuel params
          exact ⟨hsim.1, schema, hsim.2.kvs⟩
      | none =>
          have hids : RunsUnder (some (w.kvs.txns.nextId, w'.kvs.txns.nextId))
              (some w.kvs.txns.nextId) (some w'.kvs.txns.nextId) := by
            intro p hp
            obtain rfl := Option.some.inj hp
            exact ⟨rfl, rfl⟩
          have hsim := executeSingleStatement_same (SameUnder.begin h) hids hon hwrite fuel params
          simp only
          rw [Simulates] at hsim ⊢
          rw [exec_executeAtomically, exec_executeAtomically]
          generalize exec (executeSingleStatement fuel dbId stmt params (some w.kvs.txns.nextId))
            (w.begin dbId) = out at hsim ⊢
          generalize exec (executeSingleStatement fuel dbId stmt params (some w'.kvs.txns.nextId))
            (w'.begin dbId) = out' at hsim ⊢
          obtain ⟨outcome, w₁⟩ := out
          obtain ⟨outcome', w₁'⟩ := out'
          obtain ⟨houtcome, hw⟩ := hsim
          cases houtcome with
          | ok heq => exact ⟨.ok heq, schema, hw.commit⟩
          | @error e e' heq =>
              subst heq
              cases e with
              | err => exact ⟨.error rfl, schema, hw.rollback⟩
              | panic | outOfFuel => exact ⟨.error rfl, schema, hw.kvs⟩
  | false =>
      have hsingle : executeStatement fuel dbId stmt params txId =
          executeSingleStatement fuel dbId stmt params txId := by
        cases txId <;> cases stmt <;> first
          | rfl
          | exact absurd hon Bool.false_ne_true
          | exact absurd hwrite.symm Bool.false_ne_true
      rw [hsingle]
      cases fuel with
      | zero => exact ⟨.error rfl, schema, h⟩
      | succ fuel =>
          cases stmt with
          | query query =>
              have hquery : ∀ v : World,
                  exec (executeSingleStatement (fuel + 1) dbId (.query query) params txId) v =
                    (executeSelect v.kvs dbId fuel query params, v) := fun _ => rfl
              rw [Simulates, hquery, hquery, h.executeSelect]
              exact ⟨Except.Rel.refl _, schema, h⟩
          | createIndex name t columns unique ifNotExists =>
              obtain rfl := of_decide_eq_true hon
              exact createIndex_same h name columns unique ifNotExists
          | insert | update | delete => cases hwrite
          | _ => cases hon

end Statements

/-! ### Runs -/

section Runs

variable [Externals] {dbId : UInt32} {table : String} {w w' : World}

/-- What a call returns. -/
def Call.outcome (dbId : UInt32) (c : Call) (w : World) : Except Fail QueryResult :=
  (exec (executeStatement c.fuel dbId c.stmt c.params c.txId) w).1

/-- What the calls of a run return, one after the other. -/
def outcomes (dbId : UInt32) : List Call → World → List (Except Fail QueryResult)
  | [], _ => []
  | c :: calls, w => c.outcome dbId w :: outcomes dbId calls (c.run dbId w)

theorem SameFor.runCalls (calls : List Call) (hcalls : ∀ c ∈ calls, c.stmt.onTable table = true)
    (h : ∃ schema, SameFor dbId table schema w.kvs w'.kvs) :
    outcomes dbId calls w' = outcomes dbId calls w ∧
      ∃ schema, SameFor dbId table schema (runCalls dbId calls w).kvs (runCalls dbId calls w').kvs := by
  induction calls generalizing w w' with
  | nil => exact ⟨rfl, h⟩
  | cons c calls ih =>
      rw [List.forall_mem_cons] at hcalls
      obtain ⟨schema, h⟩ := h
      obtain ⟨houtcome, hrun⟩ := executeStatement_same h hcalls.1 c.fuel c.params c.txId
      obtain ⟨houtcomes, hruns⟩ := ih hcalls.2 hrun
      rw [outcomes, outcomes, Call.outcome, Call.outcome, Except.rel_eq_iff.mp houtcome]
      exact ⟨congrArg _ houtcomes, hruns⟩

end Runs

/-! ### DROP TABLE and CREATE TABLE -/

section Create

variable {dbId : UInt32} {table : String} {s s₀ : KvsState}

/-- The state with a map of schemas for the database. -/
def KvsState.ensured (s : KvsState) (dbId : UInt32) : KvsState :=
  { s with schemas := s.schemas.insertIfNew dbId ∅ }

/-- The state with a new table, which may be a virtual one. -/
def KvsState.withFresh (s : KvsState) (dbId : UInt32) (table : String) (schema : TableSchema)
    (fts : Option FtsVirtualTable) : KvsState :=
  let s := ((s.ensured dbId).setSchema dbId table schema).freshTable dbId table
  match fts with
  | some fts => s.registerFtsTable dbId table fts
  | none => s

theorem KvsState.getSchema_ensured_removeTable (s : KvsState) (dbId : UInt32) (table : String) :
    ((s.ensured dbId).removeTable dbId table).getSchema dbId table = none := by
  simp only [KvsState.getSchema, KvsState.removeTable, IndexMap.get_modify, if_true]
  cases (s.ensured dbId).schemas.get dbId <;> simp

theorem WithoutTable.getSchema (h : WithoutTable s dbId table s₀) : s₀.getSchema dbId table = none := by
  simp only [KvsState.getSchema, h.schemas, IndexMap.get_modify, if_true]
  cases s.schemas.get dbId <;> simp

/-- Dropping the table leaves what the database would be without it, but for entries of indexes. -/
theorem WithoutTable.ensured (h : WithoutTable s dbId table s₀)
    (hview : s.getViewDefinition dbId table = none) :
    s₀.ensured dbId = { ((s.ensured dbId).removeTable dbId table).ensured dbId with
      indexes := s₀.indexes, txns := s₀.txns } := by
  have hviews : s.views.modify dbId (fun db => db.erase table) = s.views :=
    IndexMap.modify_eq_self fun db hdb => IndexMap.erase_eq_self (by
      rwa [KvsState.getViewDefinition, hdb] at hview)
  obtain ⟨dbs, schemas, gens, indexes, triggers, views, fts, txns⟩ := s₀
  obtain ⟨rfl, rfl, rfl, rfl, rfl, rfl, -⟩ := h
  have hschemas := IndexMap.insertIfNew_modify_insertIfNew s.schemas dbId
    (d := (∅ : IndexMap String TableSchema)) (f := fun db => db.erase table) rfl
  simp only [KvsState.ensured, KvsState.removeTable, hschemas, hviews]

theorem WithoutTable.sameFor (h : WithoutTable s dbId table s₀)
    (hview : s.getViewDefinition dbId table = none) {schema : TableSchema} (hname : schema.name = table)
    (hindices : schema.indices = []) (fts : Option FtsVirtualTable) :
    SameFor dbId table schema
      (((s.ensured dbId).removeTable dbId table).withFresh dbId table schema fts)
      (s₀.withFresh dbId table schema fts) := by
  have hget : ((((s.ensured dbId).removeTable dbId table).withFresh dbId table schema fts).getSchema
      dbId table) = some schema := by
    have hset := getSchema_setSchema dbId (((s.ensured dbId).removeTable dbId table).ensured dbId)
      table schema table
    rw [if_pos rfl] at hset
    cases fts <;> exact hset
  refine ⟨⟨⟨s₀.indexes, s₀.txns, ?_⟩, fun db t schema' hschema' idx hidx => ?_⟩, hname, hget, ?_, ?_⟩
  · simp only [KvsState.withFresh, h.ensured hview]
    cases fts <;> rfl
  · by_cases htable : db = dbId ∧ t = table
    · obtain ⟨rfl, rfl⟩ := htable
      obtain rfl := Option.some.inj (hget.symm.trans hschema')
      rw [hindices] at hidx
      exact absurd hidx List.not_mem_nil
    · have hindexes := h.indexes db t idx.name
      rw [if_neg htable] at hindexes
      cases fts <;> exact hindexes
  · have hstore : (KvsState.freshTable ((((s.ensured dbId).removeTable dbId table).ensured
        dbId).setSchema dbId table schema) dbId table).hasStore dbId table = true := by
      simp [KvsState.hasStore, KvsState.getTableStore, KvsState.freshTable]
    cases fts <;> exact hstore
  · have hnone : ((s.ensured dbId).removeTable dbId table).getTriggers dbId table = [] := by
      simp only [KvsState.getTriggers, KvsState.removeTable, IndexMap.get_modify, if_true]
      cases (s.ensured dbId).triggers.get dbId <;> simp
    cases fts <;> exact hnone

variable [Externals] {w w' : World} {r : QueryResult}

omit [Externals] in
theorem exec_dropTable {ifExists : Bool}
    (hok : exec (dropTable dbId [table] ifExists) w = (.ok r, w')) :
    w' = { w with kvs := (w.kvs.ensured dbId).removeTable dbId table } := by
  rw [dropTable, List.forM_cons, List.forM_nil] at hok
  obtain ⟨_, w₁, hloop, hreturn⟩ := exec_bind_eq_ok_iff.mp hok
  obtain ⟨-, rfl⟩ := Prod.mk.inj hreturn
  obtain ⟨_, w₂, hone, hend⟩ := exec_bind_eq_ok_iff.mp hloop
  obtain ⟨-, rfl⟩ := Prod.mk.inj hend
  rw [ensureSchemas, exec_bind_ok (p := onState _) rfl, exec_bind_ok (exec_read ..)] at hone
  split at hone
  · cases (Prod.mk.inj hone).1
  · exact (Prod.mk.inj hone).2.symm

/-- CREATE TABLE or CREATE VIRTUAL TABLE of the table. -/
def Statement.creates (table : String) : Statement → Bool
  | .createTable name _ _ _ => name = table
  | .createVirtualTable name _ _ _ => name = table
  | _ => false

/-- The column that a virtual table indexes. -/
def contentColumn (moduleArgs : List Ident) : String :=
  (moduleArgs.map Ident.value).head?.getD "content"

def virtualSchema (name : String) (moduleArgs : List Ident) : TableSchema :=
  let textColumn (c : String) : ColumnDef := ⟨c, .text, false, false, false, none, false, none⟩
  { emptySchema name with
    columns := .ofList ((moduleArgs.map Ident.value).map fun c => (c, textColumn c))
    fts5ContentColumn := some (contentColumn moduleArgs) }

theorem exec_createVirtualTable {name : String} {moduleName : Ident}
    (hmodule : toLowercase moduleName.text = "fts5") (ifNotExists : Bool) (moduleArgs : List Ident)
    (hnone : w.kvs.getSchema dbId name = none) :
    exec (createVirtualTable dbId name ifNotExists moduleName moduleArgs) w =
      (.ok .empty, { w with
        kvs := w.kvs.withFresh dbId name (virtualSchema name moduleArgs)
          (some (.new name (contentColumn moduleArgs))) }) := by
  rw [createVirtualTable]
  simp only [hmodule, ne_eq, not_true_eq_false, if_false]
  rw [ensureSchemas, exec_bind_ok (p := onState _) rfl, exec_bind_ok (exec_read ..)]
  simp only [getSchema_ensureSchemas, hnone, Option.isSome_none, Bool.false_eq_true, if_false]
  rfl

/-- Only fts5 is there. -/
theorem module_of_exec_createVirtualTable {name : String} {ifNotExists : Bool} {moduleName : Ident}
    {moduleArgs : List Ident}
    (hok : exec (createVirtualTable dbId name ifNotExists moduleName moduleArgs) w = (.ok r, w')) :
    toLowercase moduleName.text = "fts5" := by
  by_contra hmodule
  rw [createVirtualTable] at hok
  simp only [ne_eq, hmodule, not_false_eq_true, if_true] at hok
  exact nomatch (Prod.mk.inj hok).1

/-- A statement that creates the table, and has done so once, makes the same table wherever there is
none. -/
theorem exec_creates {stmt : Statement} (hcreates : stmt.creates table = true) {fuel : Nat}
    {params : List Value} {txId : Option UInt32}
    (hok : exec (executeStatement fuel dbId stmt params txId) w = (.ok r, w')) :
    ∃ schema fts, schema.name = table ∧ schema.indices = [] ∧
      ∀ v : World, v.kvs.getSchema dbId table = none →
        exec (executeStatement fuel dbId stmt params txId) v =
          (.ok .empty, { v with kvs := v.kvs.withFresh dbId table schema fts }) := by
  have hsingle : executeStatement fuel dbId stmt params txId =
      executeSingleStatement fuel dbId stmt params txId := by
    cases txId <;> cases stmt <;> first | rfl | exact absurd hcreates Bool.false_ne_true
  rw [hsingle] at hok ⊢
  cases fuel with
  | zero => cases (Prod.mk.inj hok).1
  | succ fuel =>
      cases stmt with
      | createTable name columns constraints ifNotExists =>
          obtain rfl := of_decide_eq_true hcreates
          obtain ⟨hname, hindices⟩ := buildSchema_indices_name name columns constraints
          refine ⟨_, none, hname, hindices, fun v hnone => ?_⟩
          rw [executeSingleStatement, createTable, ensureSchemas, exec_bind_ok (p := onState _) rfl,
            exec_bind_ok (exec_read ..)]
          simp only [getSchema_ensureSchemas, hnone, Option.isSome_none, Bool.false_eq_true, if_false]
          rfl
      | createVirtualTable name ifNotExists moduleName moduleArgs =>
          obtain rfl := of_decide_eq_true hcreates
          rw [executeSingleStatement] at hok
          refine ⟨virtualSchema name moduleArgs, some (.new name (contentColumn moduleArgs)), rfl, rfl,
            fun v hnone => ?_⟩
          rw [executeSingleStatement]
          exact exec_createVirtualTable (module_of_exec_createVirtualTable hok) ifNotExists
            moduleArgs hnone
      | _ => cases hcreates

theorem exec_of_succeeds {c : Call} (h : c.succeeds dbId w = true) :
    ∃ r, exec (executeStatement c.fuel dbId c.stmt c.params c.txId) w = (.ok r, c.run dbId w) := by
  rw [Call.succeeds] at h
  rw [Call.run]
  rcases hexec : exec (executeStatement c.fuel dbId c.stmt c.params c.txId) w with ⟨e | r, v⟩
  · rw [hexec] at h
    exact absurd h Bool.false_ne_true
  · exact ⟨r, rfl⟩

/-- DROP TABLE and CREATE TABLE, virtual or not, leave no trace of the table there was: every later run
of CREATE INDEX, INSERT, UPDATE and DELETE on the table, and SELECT, returns the same and leaves the same
rows as in a database without that table, its indexes, its triggers and its full-text index. -/
theorem drop_leaves_no_trace {w w₀ : World} (hwithout : WithoutTable w.kvs dbId table w₀.kvs)
    (hview : w.kvs.getViewDefinition dbId table = none) {drop create : Call} {ifExists : Bool}
    (hdrop : drop.stmt = .drop .table [table] ifExists) (hdropped : drop.succeeds dbId w = true)
    (hcreate : create.stmt.creates table = true)
    (hcreated : create.succeeds dbId (drop.run dbId w) = true)
    (calls : List Call) (hcalls : ∀ c ∈ calls, c.stmt.onTable table = true) :
    outcomes dbId (create :: calls) w₀ = outcomes dbId (create :: calls) (drop.run dbId w) ∧
      ∀ k, (runCalls dbId (create :: calls) w₀).kvs.row k =
        (runCalls dbId (create :: calls) (drop.run dbId w)).kvs.row k := by
  obtain ⟨_, hdropped⟩ := exec_of_succeeds hdropped
  have hgone : drop.run dbId w = { w with kvs := (w.kvs.ensured dbId).removeTable dbId table } := by
    have hsingle : executeStatement drop.fuel dbId drop.stmt drop.params drop.txId =
        executeSingleStatement drop.fuel dbId (.drop .table [table] ifExists) drop.params
          drop.txId := by
      rw [hdrop]
      cases drop.txId <;> rfl
    rw [hsingle] at hdropped
    cases hfuel : drop.fuel with
    | zero =>
        rw [hfuel] at hdropped
        exact nomatch (Prod.mk.inj hdropped).1
    | succ fuel =>
        rw [hfuel] at hdropped
        exact exec_dropTable hdropped
  obtain ⟨_, hcreated⟩ := exec_of_succeeds hcreated
  obtain ⟨schema, fts, hname, hindices, hmade⟩ := exec_creates hcreate hcreated
  have hhere := hmade (drop.run dbId w) (by
    rw [hgone]
    exact w.kvs.getSchema_ensured_removeTable dbId table)
  have hthere := hmade w₀ hwithout.getSchema
  have hsame : SameFor dbId table schema (create.run dbId (drop.run dbId w)).kvs
      (create.run dbId w₀).kvs := by
    have hrun : ∀ v, create.run dbId v =
        (exec (executeStatement create.fuel dbId create.stmt create.params create.txId) v).2 :=
      fun _ => rfl
    rw [hrun, hrun, hhere, hthere, hgone]
    exact hwithout.sameFor hview hname hindices fts
  obtain ⟨houtcomes, _, hrun⟩ := SameFor.runCalls calls hcalls ⟨schema, hsame⟩
  refine ⟨?_, hrun.row⟩
  rw [outcomes, outcomes, houtcomes, Call.outcome, Call.outcome, hhere, hthere]

end Create

namespace Sample

/-- After `CREATE TABLE t (a INT)`, `CREATE INDEX i ON t (a)` and `INSERT INTO t VALUES (1)`. -/
def filledIndex : World :=
  letI := Externals.ofTexts [] []
  ⟨after [call (create []) none, call createIndex none, call (insert [.number "1"]) none], []⟩

/-- The index is made again, and 1 is inserted again. -/
def sameAgain : List Call := [call createIndex none, call (insert [.number "1"]) none]

end Sample

/-- The entries of the index are still there after the table is dropped, and the new table does without
them. -/
theorem drop_leaves_no_trace_of_index :
    letI := Externals.ofTexts [] []
    let dropped := (Sample.call Sample.drop none).run 0 Sample.filledIndex
    let calls := Sample.call (Sample.create []) none :: Sample.sameAgain
    dropped.kvs.indexStore 0 "t" "i" ≠ ∅ ∧
      outcomes 0 calls ⟨.new [0], []⟩ = outcomes 0 calls dropped := by
  let _ := Externals.ofTexts [] []
  intro dropped calls
  have hindexes : Sample.filledIndex.kvs.indexes =
      (IndexMap.empty.insert 0 (IndexMap.empty.insert ("t", "i")
        (Sample.filledIndex.kvs.indexStore 0 "t" "i"))) := by
    decide
  have hwithout : WithoutTable Sample.filledIndex.kvs 0 "t" (World.kvs ⟨.new [0], []⟩) := by
    refine ⟨by decide, by decide, by decide, by decide, by decide, by decide, fun db t name => ?_⟩
    have hnew : (KvsState.new [0]).indexes = IndexMap.empty.insert 0 ∅ := by decide
    rw [KvsState.indexStore, KvsState.indexStore, hnew, hindexes]
    simp only [IndexMap.getD, IndexMap.get_insert]
    by_cases hdb : db = 0
    · by_cases ht : t = "t"
      · simp [hdb, ht]
      · simp [hdb, ht]
        rfl
    · simp [hdb]
  refine ⟨by decide, ?_⟩
  have hcreated : (Sample.call (Sample.create []) none).succeeds 0 dropped = true := by decide
  exact (drop_leaves_no_trace hwithout (by decide) rfl (by decide) (by decide) hcreated
    Sample.sameAgain (by decide)).1

end Skvs
