import Skvs.Engine
import Skvs.Proof.Journal
import Mathlib.Logic.Relation

/-!
# What a statement does to the state

However deep its triggers go, a plain statement takes two kinds of steps only: it draws a rowid, or
it stores a row, journals the write and moves the row's entries. The rows that UPDATE and DELETE
collected before the first trigger ran may be out of date, but never for a row that the same
transaction has not yet written.
-/

namespace Skvs

variable [Externals]

def World.draw (w : World) (dbId : UInt32) (table : String) : World :=
  { w with kvs := (w.kvs.getNextRowid dbId table).2 }

/-- Journal a row change and carry it out. -/
def World.store (w : World) (txId : Option UInt32) (k : Key) (copy after : Option Row) : World where
  kvs := setSynced (w.kvs.record txId (undoEntry k copy after)) k copy after
  writes := w.writes ++ [⟨txId, k.dbId, k.table, k.rowid, w.kvs.row k, copy, after⟩]

/-- The copy is the row as it stands, or as it stood when the transaction wrote it. -/
def Held (txId : Option UInt32) (w : World) (k : Key) (copy : Option Row) : Prop :=
  w.kvs.row k = copy ∨ ∃ x ∈ w.writes, x.txId = txId ∧ x.key = k ∧ x.before = copy

/-- One step of a statement under `txId` on the database `dbId`. -/
inductive Change (dbId : UInt32) (txId : Option UInt32) : World → World → Prop
  | draw (w : World) (table : String) : Change dbId txId w (w.draw dbId table)
  | store (w : World) (k : Key) (copy after : Option Row) (hdb : k.dbId = dbId)
      (hstore : w.kvs.hasStore k.dbId k.table = true) (hcopy : copy = none ∨ Held txId w k copy) :
      Change dbId txId w (w.store txId k copy after)

abbrev Changes (dbId : UInt32) (txId : Option UInt32) : World → World → Prop :=
  Relation.ReflTransGen (Change dbId txId)

instance (dbId : UInt32) (txId : Option UInt32) : IsPreorder World (Changes dbId txId) where
  refl _ := .refl
  trans _ _ _ := .trans

/-! ### What a step leaves alone -/

section Frame

variable {dbId : UInt32} {txId : Option UInt32} {w w' : World}

omit [Externals] in
theorem record_frame (s : KvsState) (txId : Option UInt32) (op : UndoOp) :
    ∃ txns, s.record txId op = { s with txns } := by
  cases txId <;> exact ⟨_, rfl⟩

omit [Externals] in
theorem record_row (s : KvsState) (txId : Option UInt32) (op : UndoOp) (k : Key) :
    (s.record txId op).row k = s.row k := by
  obtain ⟨_, h⟩ := record_frame s txId op
  rw [h]
  rfl

omit [Externals] in
theorem record_hasStore (s : KvsState) (txId : Option UInt32) (op : UndoOp) (dbId : UInt32)
    (table : String) : (s.record txId op).hasStore dbId table = s.hasStore dbId table := by
  obtain ⟨_, h⟩ := record_frame s txId op
  rw [h]
  rfl

theorem store_sets (w : World) (txId : Option UInt32) (k : Key) (copy after : Option Row) :
    Sets (w.kvs.record txId (undoEntry k copy after)) k copy after
      (w.store txId k copy after).kvs :=
  sets_setSynced ..

theorem store_row (txId : Option UInt32) (k : Key) (copy after : Option Row)
    (h : w.kvs.hasStore k.dbId k.table = true) (k' : Key) :
    (w.store txId k copy after).kvs.row k' = if k' = k then after else w.kvs.row k' := by
  rw [(store_sets w txId k copy after).row (by rwa [record_hasStore]), record_row]

theorem store_hasStore (w : World) (txId : Option UInt32) (k : Key) (copy after : Option Row)
    (dbId : UInt32) (table : String) :
    (w.store txId k copy after).kvs.hasStore dbId table = w.kvs.hasStore dbId table := by
  rw [(store_sets w txId k copy after).hasStore, record_hasStore]

theorem store_schemas (w : World) (txId : Option UInt32) (k : Key) (copy after : Option Row) :
    (w.store txId k copy after).kvs.schemas = w.kvs.schemas := by
  obtain ⟨_, hrec⟩ := record_frame w.kvs txId (undoEntry k copy after)
  rw [(store_sets w txId k copy after).schemas, hrec]

theorem store_triggers (w : World) (txId : Option UInt32) (k : Key) (copy after : Option Row) :
    (w.store txId k copy after).kvs.triggers = w.kvs.triggers := by
  obtain ⟨_, hrec⟩ := record_frame w.kvs txId (undoEntry k copy after)
  rw [(store_sets w txId k copy after).triggers, hrec]

theorem getSchema_store (w : World) (txId : Option UInt32) (k : Key) (copy after : Option Row)
    (dbId : UInt32) (table : String) :
    (w.store txId k copy after).kvs.getSchema dbId table = w.kvs.getSchema dbId table := by
  rw [KvsState.getSchema, store_schemas]
  rfl

theorem getTriggers_store (w : World) (txId : Option UInt32) (k : Key) (copy after : Option Row)
    (dbId : UInt32) (table : String) :
    (w.store txId k copy after).kvs.getTriggers dbId table = w.kvs.getTriggers dbId table := by
  rw [KvsState.getTriggers, store_triggers]
  rfl

theorem Change.hasStore (h : Change dbId txId w w') (dbId' : UInt32) (table : String) :
    w'.kvs.hasStore dbId' table = w.kvs.hasStore dbId' table := by
  cases h with
  | draw => rfl
  | store k copy after => exact store_hasStore w txId k copy after dbId' table

theorem Change.schemas (h : Change dbId txId w w') : w'.kvs.schemas = w.kvs.schemas := by
  cases h with
  | draw => rfl
  | store k copy after => exact store_schemas w txId k copy after

theorem Change.triggers (h : Change dbId txId w w') : w'.kvs.triggers = w.kvs.triggers := by
  cases h with
  | draw => rfl
  | store k copy after => exact store_triggers w txId k copy after

/-- A copy stays held: a step that changes the row is a write of the same transaction. -/
theorem Held.step {k : Key} {copy : Option Row} (hheld : Held txId w k copy)
    (h : Change dbId txId w w') : Held txId w' k copy := by
  cases h with
  | draw => exact hheld
  | store k' copy' after' hdb hstore =>
      rcases hheld with hrow | ⟨x, hx, hxk⟩
      · by_cases hk : k = k'
        · subst hk
          exact Or.inr ⟨_, List.mem_append_right _ List.mem_cons_self, rfl, rfl, hrow⟩
        · left
          rw [store_row txId k' copy' after' hstore, if_neg hk, hrow]
      · exact Or.inr ⟨x, List.mem_append_left _ hx, hxk⟩

/-- What every step keeps holds after any number of them. -/
theorem Changes.keeps {P : World → Prop} (h : Changes dbId txId w w') (hw : P w)
    (hstep : ∀ w w', P w → Change dbId txId w w' → P w') : P w' := by
  induction h with
  | refl => exact hw
  | tail _ hstep' ih => exact hstep _ _ ih hstep'

theorem Changes.hasStore (h : Changes dbId txId w w') (dbId' : UInt32) (table : String) :
    w'.kvs.hasStore dbId' table = w.kvs.hasStore dbId' table :=
  h.keeps (P := fun v => v.kvs.hasStore dbId' table = w.kvs.hasStore dbId' table) rfl
    fun _ _ hv hstep => (hstep.hasStore dbId' table).trans hv

theorem Changes.schemas (h : Changes dbId txId w w') : w'.kvs.schemas = w.kvs.schemas :=
  h.keeps (P := fun v => v.kvs.schemas = w.kvs.schemas) rfl
    fun _ _ hv hstep => hstep.schemas.trans hv

theorem Changes.triggers (h : Changes dbId txId w w') : w'.kvs.triggers = w.kvs.triggers :=
  h.keeps (P := fun v => v.kvs.triggers = w.kvs.triggers) rfl
    fun _ _ hv hstep => hstep.triggers.trans hv

theorem Changes.held {k : Key} {copy : Option Row} (h : Changes dbId txId w w')
    (hheld : Held txId w k copy) : Held txId w' k copy :=
  h.keeps (P := fun v => Held txId v k copy) hheld fun _ _ hv hstep => hv.step hstep

end Frame

/-! ### The programs, with their row changes as single steps -/

def store (txId : Option UInt32) (k : Key) (copy after : Option Row) : Db Unit :=
  Prog.modify fun w => w.store txId k copy after

section Programs

variable (fire : Fire) (dbId : UInt32) (table : String) (schema : TableSchema)
  (txId : Option UInt32) (affected : UInt64)

theorem insertRow_eq (row : Row) :
    insertRow fire dbId table schema txId affected row = (do
      let rowid ← nextRowid dbId table
      let row := withDefaults schema rowid row
      let state ← Prog.read World.kvs
      check (validateConstraints state dbId schema row rowid)
      fire table .insert .before none (some row)
      store txId ⟨dbId, table, rowid⟩ none (some row)
      fire table .insert .after none (some row)
      return affected + 1) := by
  cases txId <;> rfl

theorem updateRow_eq (assignments : List Assignment) (params : List Value) (rowid : RowId)
    (oldRow : Row) :
    updateRow fire dbId table schema txId assignments params affected (rowid, oldRow) = (do
      let newRow := updatedRow assignments params oldRow
      let state ← Prog.read World.kvs
      check (validateConstraints state dbId schema newRow rowid)
      fire table .update .before (some oldRow) (some newRow)
      store txId ⟨dbId, table, rowid⟩ (some oldRow) (some newRow)
      fire table .update .after (some oldRow) (some newRow)
      return affected + 1) := by
  cases txId <;> rfl

theorem deleteRow_eq (rowid : RowId) (row : Row) :
    deleteRow fire dbId table txId affected (rowid, row) = (do
      fire table .delete .before (some row) none
      store txId ⟨dbId, table, rowid⟩ (some row) none
      fire table .delete .after (some row) none
      return affected + 1) := by
  cases txId <;> rfl

end Programs

/-! ### Every plain statement is a run of steps -/

/-- The trigger bodies of a database hold INSERT, UPDATE, DELETE and SELECT only, whatever values
are substituted into them. -/
def PlainTriggers (s : KvsState) (dbId : UInt32) : Prop :=
  ∀ table, ∀ trigger ∈ s.getTriggers dbId table, ∀ oldRow newRow stmts,
    parseStatements (substituteTriggerVariables trigger.body oldRow newRow) = .ok stmts →
      ∀ stmt ∈ stmts, stmt.isPlain = true

/-- No table of the database has a trigger. -/
def NoTriggers (s : KvsState) (dbId : UInt32) : Prop := ∀ table, s.getTriggers dbId table = []

omit [Externals] in
theorem NoTriggers.of_empty {s : KvsState} {dbId : UInt32} (h : s.triggers.getD dbId ∅ = ∅) :
    NoTriggers s dbId := by
  intro table
  rw [KvsState.getTriggers]
  rw [IndexMap.getD] at h
  cases hget : s.triggers.get dbId with
  | none => rfl
  | some map =>
      rw [hget, Option.getD_some] at h
      rw [h]
      rfl

theorem NoTriggers.plain {s : KvsState} {dbId : UInt32} (h : NoTriggers s dbId) :
    PlainTriggers s dbId := by
  intro table trigger htrigger
  rw [h table] at htrigger
  exact absurd htrigger List.not_mem_nil

theorem PlainTriggers.of_triggers {s s' : KvsState} {dbId : UInt32} (h : PlainTriggers s dbId)
    (heq : s'.triggers = s.triggers) : PlainTriggers s' dbId := by
  intro table trigger htrigger
  rw [KvsState.getTriggers, heq] at htrigger
  exact h table trigger htrigger

omit [Externals] in
theorem NoTriggers.of_triggers {s s' : KvsState} {dbId : UInt32} (h : NoTriggers s dbId)
    (heq : s'.triggers = s.triggers) : NoTriggers s' dbId := by
  intro table
  rw [KvsState.getTriggers, heq]
  exact h table

theorem PlainTriggers.changes {dbId : UInt32} {txId : Option UInt32} {w w' : World}
    (h : PlainTriggers w.kvs dbId) (hch : Changes dbId txId w w') : PlainTriggers w'.kvs dbId :=
  h.of_triggers hch.triggers

theorem NoTriggers.changes {dbId : UInt32} {txId : Option UInt32} {w w' : World}
    (h : NoTriggers w.kvs dbId) (hch : Changes dbId txId w w') : NoTriggers w'.kvs dbId :=
  h.of_triggers hch.triggers

/-- A table without triggers is left without. -/
theorem Changes.getTriggers_nil {dbId : UInt32} {txId : Option UInt32} {w w' : World}
    (hch : Changes dbId txId w w') {dbId' : UInt32} {table : String}
    (hno : w.kvs.getTriggers dbId' table = []) : w'.kvs.getTriggers dbId' table = [] := by
  rw [KvsState.getTriggers, hch.triggers]
  exact hno

section Moves

open Prog

variable {dbId : UInt32} {txId : Option UInt32}

omit [Externals] in
theorem orRaise_unchanged {α : Type} (o : Option α) (e : SkvsError) (w : World) :
    (exec (orRaise o e) w).2 = w := by
  cases o <;> rfl

omit [Externals] in
theorem orRaise_ok {α : Type} {o : Option α} {e : SkvsError} {w w' : World} {a : α}
    (h : exec (orRaise o e) w = (.ok a, w')) : o = some a ∧ w' = w := by
  cases o with
  | none => exact nomatch (Prod.mk.injEq _ _ _ _ ▸ h).1
  | some b =>
      obtain ⟨hb, hw⟩ := (Prod.mk.injEq _ _ _ _ ▸ h)
      exact ⟨congrArg some (Except.ok.inj hb), hw.symm⟩

omit [Externals] in
theorem read_ok {α : Type} {f : World → α} {w w' : World} {a : α}
    (h : exec (read f : Db α) w = (.ok a, w')) : f w = a ∧ w = w' := by
  rw [exec_read, Prod.mk.injEq, Except.ok.injEq] at h
  exact h

/-- The rows a statement collects are the stored ones. -/
theorem row_of_mem_matchingRows {s : KvsState} {table : String} {store : Store}
    (hstore : s.getTableStore dbId table = some store) {selection : Option Expr}
    {params : List Value} {paramIdx : Nat} {entry : RowId × Row}
    (h : entry ∈ matchingRows s dbId store selection params paramIdx) :
    s.row ⟨dbId, table, entry.1⟩ = some entry.2 := by
  have hmem : entry ∈ store.entries := (hashOrder_perm _).mem_iff.mp (List.mem_of_mem_filter h)
  exact (mem_store_iff hstore).mp hmem

theorem matchingRows_nodup (s : KvsState) (dbId : UInt32) (store : Store) (selection : Option Expr)
    (params : List Value) (paramIdx : Nat) :
    ((matchingRows s dbId store selection params paramIdx).map Prod.fst).Nodup := by
  have hperm := ((hashOrder_perm store.entries).map Prod.fst).nodup_iff.mpr store.nodup
  exact (List.filter_sublist.map Prod.fst).nodup hperm

/-- What holds of every row that an INSERT is asked to store, if it gets that far. -/
theorem forall_candidateRows {s : KvsState} {fuel : Nat} {table : String} {columns : List Ident}
    {source : Option Query} {params : List Value} {P : TableSchema → List Row → Prop}
    (h : ∀ schema ∈ s.getSchema dbId table,
      ∀ rows ∈ (candidateRows s fuel dbId schema columns source params).toOption, P schema rows)
    (schema : TableSchema) (rows : List Row) (hschema : s.getSchema dbId table = some schema)
    (hrows : candidateRows s fuel dbId schema columns source params = .ok rows) : P schema rows := by
  refine h schema hschema rows ?_
  rw [hrows]
  rfl

/-! What a statement does before its first row changes nothing, so it moves as its rows do. -/

section Rows

variable {R : World → World → Prop} [IsPreorder World R] {fire : Fire} {w : World}

theorem moves_executeInsert {fuel : Nat} {table : String} {columns : List Ident}
    {source : Option Query} {params : List Value}
    (hrows : ∀ schema rows, w.kvs.getSchema dbId table = some schema →
      w.kvs.hasStore dbId table = true →
        candidateRows w.kvs fuel dbId schema columns source params = .ok rows →
          Moves R (rows.foldlM (insertRow fire dbId table schema txId) 0) w) :
    Moves R (executeInsert fire fuel dbId table columns source params txId) w := by
  refine moves_bind (moves_read _ w) fun state w₁ hstate _ => ?_
  obtain ⟨rfl, rfl⟩ := read_ok hstate
  refine moves_bind (moves_of_unchanged (orRaise_unchanged _ _ w)) fun schema w₂ hschema _ => ?_
  obtain ⟨hschema, rfl⟩ := orRaise_ok hschema
  refine moves_bind (moves_of_unchanged (orRaise_unchanged _ _ w₂)) fun store w₃ hstore _ => ?_
  obtain ⟨hstore, rfl⟩ := orRaise_ok hstore
  have hhas : w₃.kvs.hasStore dbId table = true := by rw [KvsState.hasStore, hstore]; rfl
  refine moves_bind (moves_ofExcept _ w₃) fun rows w₄ hrows' _ => ?_
  obtain ⟨hok, rfl⟩ := Prod.mk.inj hrows'
  exact moves_bind (hrows schema rows hschema hhas hok) fun _ w₅ _ _ => moves_pure _ w₅

theorem moves_executeUpdate {relation : TableFactor} {assignments : List Assignment}
    {selection : Option Expr} {params : List Value}
    (hrows : ∀ schema store, w.kvs.getSchema dbId relation.name = some schema →
      w.kvs.getTableStore dbId relation.name = some store →
        Moves R ((matchingRows w.kvs dbId store selection params (setParamCount assignments)).foldlM
          (updateRow fire dbId relation.name schema txId assignments params) 0) w) :
    Moves R (executeUpdate fire dbId relation assignments selection params txId) w := by
  refine moves_bind (moves_read _ w) fun state w₁ hstate _ => ?_
  obtain ⟨rfl, rfl⟩ := read_ok hstate
  refine moves_bind (moves_of_unchanged (orRaise_unchanged _ _ w)) fun store w₂ hstore _ => ?_
  obtain ⟨hstore, rfl⟩ := orRaise_ok hstore
  refine moves_bind (moves_of_unchanged (orRaise_unchanged _ _ w₂)) fun schema w₃ hschema _ => ?_
  obtain ⟨hschema, rfl⟩ := orRaise_ok hschema
  exact moves_bind (hrows schema store hschema hstore) fun _ w₄ _ _ => moves_pure _ w₄

theorem moves_executeDelete {tables : List String} {from_ : List TableWithJoins}
    {selection : Option Expr} {params : List Value}
    (hrows : ∀ table store, deleteTarget tables from_ = some table →
      w.kvs.getTableStore dbId table = some store →
        Moves R ((matchingRows w.kvs dbId store selection params 0).foldlM
          (deleteRow fire dbId table txId) 0) w) :
    Moves R (executeDelete fire dbId tables from_ selection params txId) w := by
  refine moves_bind (moves_of_unchanged (orRaise_unchanged _ _ w)) fun table w₁ hraise _ => ?_
  obtain ⟨htable, rfl⟩ := orRaise_ok hraise
  refine moves_bind (moves_read _ w₁) fun state w₂ hstate _ => ?_
  obtain ⟨rfl, rfl⟩ := read_ok hstate
  refine moves_bind (moves_of_unchanged (orRaise_unchanged _ _ w₁)) fun store w₃ hstore _ => ?_
  obtain ⟨hstore, rfl⟩ := orRaise_ok hstore
  exact moves_bind (hrows table store htable hstore) fun _ w₄ _ _ => moves_pure _ w₄

end Rows

/-- `R` leads along steps of a statement, and keeps what is known of the triggers. -/
structure Advances (dbId : UInt32) (txId : Option UInt32) (J : World → Prop)
    (R : World → World → Prop) : Prop where
  changes : ∀ w w', R w w' → Changes dbId txId w w'
  plain : ∀ w, J w → PlainTriggers w.kvs dbId
  keeps : ∀ w w', w'.kvs.triggers = w.kvs.triggers → J w → J w'

/-- `R` allows the steps of a statement on `table`. -/
structure Admits (dbId : UInt32) (txId : Option UInt32) (table : String)
    (R : World → World → Prop) : Prop where
  draw : ∀ w, R w (w.draw dbId table)
  store : ∀ w rowid copy after, w.kvs.hasStore dbId table = true →
    copy = none ∨ Held txId w ⟨dbId, table, rowid⟩ copy →
      R w (w.store txId ⟨dbId, table, rowid⟩ copy after)

omit [Externals] in
theorem Held.of_row {w : World} {k : Key} {copy : Option Row} (h : w.kvs.row k = copy) :
    Held txId w k copy := Or.inl h

/-- The triggers move along `R` under `J`. -/
def FireMoves (J : World → Prop) (R : World → World → Prop) (fire : Fire) : Prop :=
  ∀ table event timing oldRow newRow w, J w →
    Moves R (fire table event timing oldRow newRow) w

section Advances

variable {J : World → Prop} {R : World → World → Prop} (hR : Advances dbId txId J R)
include hR

theorem Advances.step {w w' : World} (h : R w w') (hw : J w) : J w' :=
  hR.keeps w w' (hR.changes w w' h).triggers hw

theorem Advances.hasStore {w w' : World} (h : R w w') {table : String}
    (hstore : w.kvs.hasStore dbId table = true) : w'.kvs.hasStore dbId table = true := by
  rw [(hR.changes w w' h).hasStore]
  exact hstore

variable [IsPreorder World R] {fire : Fire} (hfire : FireMoves J R fire) {table : String}
  (htable : Admits dbId txId table R) {w : World} (hw : J w)
include hfire htable hw

/-- A row change between the triggers before it and the triggers after it. -/
theorem store_between_moves (hstore : w.kvs.hasStore dbId table = true) (rowid : RowId)
    (copy after : Option Row)
    (hcopy : copy = none ∨ Held txId w ⟨dbId, table, rowid⟩ copy) (event : TriggerEvent)
    (oldRow newRow : Option Row) (affected : UInt64) :
    Moves R (do
      fire table event .before oldRow newRow
      store txId ⟨dbId, table, rowid⟩ copy after
      fire table event .after oldRow newRow
      return affected) w := by
  refine moves_bind (hfire _ _ _ _ _ w hw) fun _ w₁ _ h₁ => ?_
  have hstep : R w₁ (w₁.store txId ⟨dbId, table, rowid⟩ copy after) :=
    htable.store w₁ rowid copy after (hR.hasStore h₁ hstore)
      (hcopy.imp id (hR.changes w w₁ h₁).held)
  refine moves_bind (moves_modify hstep) fun _ w₂ _ h₂ => ?_
  exact moves_bind (hfire _ _ _ _ _ w₂ (hR.step (trans_of R h₁ h₂) hw)) fun _ w₃ _ _ =>
    moves_pure _ w₃

theorem insertRow_moves (hstore : w.kvs.hasStore dbId table = true) (schema : TableSchema)
    (affected : UInt64) (row : Row) :
    Moves R (insertRow fire dbId table schema txId affected row) w := by
  have hdraw : Moves R (nextRowid dbId table) w := htable.draw w
  rw [insertRow_eq]
  refine moves_bind hdraw fun rowid w₁ _ h₁ => ?_
  refine moves_bind (moves_read _ w₁) fun state w₂ _ h₂ => ?_
  refine moves_bind (moves_ofExcept _ w₂) fun _ w₃ _ h₃ => ?_
  have h : R w w₃ := trans_of R (trans_of R h₁ h₂) h₃
  exact store_between_moves hR hfire htable (hR.step h hw) (hR.hasStore h hstore) rowid none _
    (Or.inl rfl) _ _ _ _

theorem updateRow_moves (hstore : w.kvs.hasStore dbId table = true) (schema : TableSchema)
    (assignments : List Assignment) (params : List Value) (affected : UInt64) (rowid : RowId)
    (oldRow : Row) (hcopy : Held txId w ⟨dbId, table, rowid⟩ (some oldRow)) :
    Moves R (updateRow fire dbId table schema txId assignments params affected (rowid, oldRow)) w := by
  rw [updateRow_eq]
  refine moves_bind (moves_read _ w) fun state w₁ _ h₁ => ?_
  refine moves_bind (moves_ofExcept _ w₁) fun _ w₂ _ h₂ => ?_
  have h : R w w₂ := trans_of R h₁ h₂
  exact store_between_moves hR hfire htable (hR.step h hw) (hR.hasStore h hstore) rowid _ _
    (Or.inr ((hR.changes w w₂ h).held hcopy)) _ _ _ _

theorem deleteRow_moves (hstore : w.kvs.hasStore dbId table = true) (affected : UInt64)
    (rowid : RowId) (row : Row) (hcopy : Held txId w ⟨dbId, table, rowid⟩ (some row)) :
    Moves R (deleteRow fire dbId table txId affected (rowid, row)) w := by
  rw [deleteRow_eq]
  exact store_between_moves hR hfire htable hw hstore rowid _ _ (Or.inr hcopy) _ _ _ _

theorem executeInsert_moves (fuel : Nat) (columns : List Ident) (source : Option Query)
    (params : List Value) :
    Moves R (executeInsert fire fuel dbId table columns source params txId) w := by
  refine moves_executeInsert fun schema rows _ hstore _ => ?_
  refine moves_foldlM _ _ _ _ fun affected row _ v hv => ?_
  exact insertRow_moves hR hfire htable (hR.step hv hw) (hR.hasStore hv hstore) schema affected row

theorem executeUpdate_moves {relation : TableFactor} (hrelation : relation.name = table)
    (assignments : List Assignment) (selection : Option Expr) (params : List Value) :
    Moves R (executeUpdate fire dbId relation assignments selection params txId) w := by
  subst hrelation
  refine moves_executeUpdate fun schema store _ hstore => ?_
  have hhas : w.kvs.hasStore dbId relation.name = true := by rw [KvsState.hasStore, hstore]; rfl
  refine moves_foldlM _ _ _ _ fun affected entry hentry v hv => ?_
  exact updateRow_moves hR hfire htable (hR.step hv hw) (hR.hasStore hv hhas) schema assignments
    params affected _ _ ((hR.changes w v hv).held (.of_row (row_of_mem_matchingRows hstore hentry)))

theorem executeDelete_moves {tables : List String} {from_ : List TableWithJoins}
    (htarget : deleteTarget tables from_ = some table) (selection : Option Expr)
    (params : List Value) :
    Moves R (executeDelete fire dbId tables from_ selection params txId) w := by
  refine moves_executeDelete fun table' store htable' hstore => ?_
  obtain rfl := Option.some.inj (htarget.symm.trans htable')
  have hhas : w.kvs.hasStore dbId table = true := by rw [KvsState.hasStore, hstore]; rfl
  refine moves_foldlM _ _ _ _ fun affected entry hentry v hv => ?_
  exact deleteRow_moves hR hfire htable (hR.step hv hw) (hR.hasStore hv hhas) affected _ _
    ((hR.changes w v hv).held (.of_row (row_of_mem_matchingRows hstore hentry)))

omit hfire htable hw in
theorem fireTriggers_moves {run : Statement → Db QueryResult}
    (hrun : ∀ stmt, stmt.isPlain = true → ∀ w, J w → Moves R (run stmt) w) :
    FireMoves J R (fireTriggers run dbId) := by
  intro table event timing oldRow newRow w hw
  refine moves_bind (moves_read _ w) fun triggers w₁ htriggers _ => ?_
  obtain ⟨rfl, rfl⟩ := read_ok htriggers
  refine moves_forM _ _ w fun trigger htrigger w₂ h₂ => ?_
  have hin := List.mem_of_mem_filter htrigger
  refine moves_bind (moves_read _ w₂) fun state w₃ _ h₃ => ?_
  refine moves_bind (moves_ofExcept _ w₃) fun holds w₄ _ h₄ => ?_
  cases holds with
  | false => exact moves_pure _ w₄
  | true =>
      refine moves_bind (moves_ofExcept _ w₄) fun stmts w₅ hstmts h₅ => ?_
      have hparse := congrArg Prod.fst hstmts
      refine moves_forM _ _ w₅ fun stmt hstmt w₆ h₆ => ?_
      have h : R w w₆ := trans_of R (trans_of R (trans_of R (trans_of R h₂ h₃) h₄) h₅) h₆
      exact moves_bind
        (hrun stmt (hR.plain w hw table trigger hin oldRow newRow stmts hparse stmt hstmt) w₆
          (hR.step h hw)) fun _ w₇ _ _ => moves_pure _ w₇

end Advances

theorem advances_changes (dbId : UInt32) (txId : Option UInt32) :
    Advances dbId txId (fun w => PlainTriggers w.kvs dbId) (Changes dbId txId) where
  changes _ _ h := h
  plain _ h := h
  keeps _ _ heq h := h.of_triggers heq

theorem admits_changes (dbId : UInt32) (txId : Option UInt32) (table : String) :
    Admits dbId txId table (Changes dbId txId) where
  draw w := .single (.draw w table)
  store w rowid copy after hstore hcopy :=
    .single (.store w ⟨dbId, table, rowid⟩ copy after rfl hstore hcopy)

end Moves

/-- By induction on the fuel: a trigger body runs with one unit less. -/
theorem executeSingleStatement_moves (fuel : Nat) (dbId : UInt32) (stmt : Statement)
    (hstmt : stmt.isPlain = true) (params : List Value) (txId : Option UInt32) (w : World)
    (hplain : PlainTriggers w.kvs dbId) :
    Prog.Moves (Changes dbId txId) (executeSingleStatement fuel dbId stmt params txId) w := by
  induction fuel generalizing stmt params w with
  | zero => exact Prog.moves_fail _ w
  | succ fuel ih =>
      have hR := advances_changes dbId txId
      have hfire : FireMoves (fun w => PlainTriggers w.kvs dbId) (Changes dbId txId)
          (fireTriggers (fun s => executeSingleStatement fuel dbId s [] txId) dbId) :=
        fireTriggers_moves hR fun stmt hstmt w hplain => ih stmt hstmt [] w hplain
      cases stmt with
      | query query =>
          exact Prog.moves_bind (Prog.moves_read _ w) fun _ w₁ _ _ => Prog.moves_ofExcept _ w₁
      | insert table columns source =>
          exact executeInsert_moves hR hfire (admits_changes ..) hplain fuel columns source params
      | update table assignments selection =>
          exact executeUpdate_moves hR hfire (admits_changes ..) hplain rfl assignments selection params
      | delete tables from_ selection =>
          cases htarget : deleteTarget tables from_ with
          | none =>
              exact moves_executeDelete fun _ _ htable _ => nomatch htarget.symm.trans htable
          | some table =>
              exact executeDelete_moves hR hfire (admits_changes ..) hplain htarget selection params
      | _ => exact nomatch hstmt

end Skvs
