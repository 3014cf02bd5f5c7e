import Skvs.Proof.Interleaving

/-!
# The writes of a statement and its triggers

A row is checked, then the BEFORE triggers run, then it is stored as it was checked, then the AFTER
triggers run. Each statement of a trigger body does the same for its rows. What holds of every single
write, with the state of its check and the state in which it is made, holds of the whole cascade.
-/

namespace Skvs

open Prog

variable [Externals]

/-- What is asked of a write: the world of the check, the world before the write, the key, the row
collected there and the row stored. -/
abbrev WriteRule := World → World → Key → Option Row → Option Row → Prop

section Writes

variable (rule : WriteRule) (dbId : UInt32) (txId : Option UInt32)

/-- Every statement of the bodies of the triggers for an event satisfies `body`, as it is reached. -/
def FiredMeet (run : Statement → Db QueryResult) (body : Statement → World → Prop) (table : String)
    (event : TriggerEvent) (timing : TriggerTiming) (oldRow newRow : Option Row) (w : World) : Prop :=
  AlongEach (runTrigger run dbId oldRow newRow)
    (fun trigger v => conditionHolds v.kvs dbId trigger oldRow newRow = .ok true →
      ∀ stmts, parseStatements (substituteTriggerVariables trigger.body oldRow newRow) = .ok stmts →
        AlongEach (fun stmt => do
          let _ ← run stmt) body stmts v)
    ((w.kvs.getTriggers dbId table).filter fun t => t.event = event && t.timing = timing) w

/-- A checked row, from its BEFORE triggers on. -/
def RowMeets (fire : Fire)
    (fired : String → TriggerEvent → TriggerTiming → Option Row → Option Row → World → Prop)
    (event : TriggerEvent) (k : Key) (copy new : Option Row) (v₁ : World) : Prop :=
  fired k.table event .before copy new v₁ ∧
    ∀ u v₂, exec (fire k.table event .before copy new) v₁ = (.ok u, v₂) →
      rule v₁ v₂ k copy new ∧ fired k.table event .after copy new (v₂.store txId k copy new)

/-- Every write of a statement and of the statements in the trigger bodies that it sets off meets the
rule. -/
def WritesMeet : Nat → Statement → List Value → World → Prop
  | 0, _, _, _ => True
  | fuel + 1, stmt, params, w =>
    let run := fun s => executeSingleStatement fuel dbId s [] txId
    let fire := fireTriggers run dbId
    let meets := RowMeets rule txId fire (FiredMeet dbId run fun s v => WritesMeet fuel s [] v)
    match stmt with
    | .insert table columns source => ∀ schema rows, w.kvs.getSchema dbId table = some schema →
        candidateRows w.kvs fuel dbId schema columns source params = .ok rows →
          AlongFold (insertRow fire dbId table schema txId) (fun _ row v =>
            let rowid := v.kvs.rowidCounter dbId table
            let row := withDefaults schema rowid row
            validateConstraints (v.draw dbId table).kvs dbId schema row rowid = .ok () →
              meets .insert ⟨dbId, table, rowid⟩ none (some row) (v.draw dbId table)) 0 rows w
    | .update table assignments selection => ∀ schema store,
        w.kvs.getSchema dbId table.relation.name = some schema →
          w.kvs.getTableStore dbId table.relation.name = some store →
            AlongFold (updateRow fire dbId table.relation.name schema txId assignments params)
              (fun _ entry v =>
                let row := updatedRow assignments params entry.2
                validateConstraints v.kvs dbId schema row entry.1 = .ok () →
                  meets .update ⟨dbId, table.relation.name, entry.1⟩ (some entry.2) (some row) v) 0
              (matchingRows w.kvs dbId store selection params (setParamCount assignments)) w
    | .delete tables from_ selection => ∀ table store, deleteTarget tables from_ = some table →
        w.kvs.getTableStore dbId table = some store →
          AlongFold (deleteRow fire dbId table txId)
            (fun _ entry v => meets .delete ⟨dbId, table, entry.1⟩ (some entry.2) none v) 0
            (matchingRows w.kvs dbId store selection params 0) w
    | _ => True

end Writes

section Fired

variable {run : Statement → Db QueryResult} {body : Statement → World → Prop} {dbId : UInt32}
  {table : String} {event : TriggerEvent} {timing : TriggerTiming} {oldRow newRow : Option Row} {w : World}

theorem firedMeet_nil (h : (w.kvs.getTriggers dbId table).filter
      (fun t => t.event = event && t.timing = timing) = []) :
    FiredMeet dbId run body table event timing oldRow newRow w := by
  rw [FiredMeet, h]
  trivial

theorem firedMeet_singleton {trigger : TriggerDef} {stmt : Statement}
    (h : (w.kvs.getTriggers dbId table).filter (fun t => t.event = event && t.timing = timing) = [trigger])
    (hparse : ∀ text stmts, parseStatements text = .ok stmts → [stmt] = stmts) (hbody : body stmt w) :
    FiredMeet dbId run body table event timing oldRow newRow w := by
  rw [FiredMeet, h]
  refine ⟨fun _ stmts hstmts => ?_, fun _ _ _ => trivial⟩
  obtain rfl := hparse _ _ hstmts
  exact ⟨hbody, fun _ _ _ => trivial⟩

/-- On a table without triggers only the write itself has to meet the rule. -/
theorem rowMeets_of_no_triggers {rule : WriteRule} {txId : Option UInt32} {k : Key}
    {body : String → TriggerEvent → Statement → World → Prop} {copy new : Option Row}
    (hno : w.kvs.getTriggers dbId k.table = []) (hrule : rule w w k copy new) :
    RowMeets rule txId (fireTriggers run dbId)
      (fun table event => FiredMeet dbId run (body table event) table event) event k copy new w := by
  refine ⟨firedMeet_nil (by rw [hno]; rfl), fun u v₂ hbefore => ?_⟩
  rw [fireTriggers_tableQuiet run event .before copy new w hno] at hbefore
  obtain ⟨-, rfl⟩ := Prod.mk.inj hbefore
  refine ⟨hrule, firedMeet_nil ?_⟩
  rw [getTriggers_store, hno]
  rfl

end Fired

/-- An INSERT of one row into a table without triggers. -/
theorem writesMeet_insert_one {rule : WriteRule} {dbId : UInt32} {txId : Option UInt32}
    {fuel : Nat} {table : String} {columns : List Ident} {source : Option Query} {params : List Value}
    {w : World} (schema : TableSchema) (row : Row) (hschema : w.kvs.getSchema dbId table = some schema)
    (hrows : candidateRows w.kvs fuel dbId schema columns source params = .ok [row])
    (hno : w.kvs.getTriggers dbId table = [])
    (hrule : let rowid := w.kvs.rowidCounter dbId table
      rule (w.draw dbId table) (w.draw dbId table) ⟨dbId, table, rowid⟩ none
        (some (withDefaults schema rowid row))) :
    WritesMeet rule dbId txId (fuel + 1) (.insert table columns source) params w := by
  intro schema' rows hschema' hrows'
  obtain rfl := Option.some.inj (hschema.symm.trans hschema')
  obtain rfl := Except.ok.inj (hrows.symm.trans hrows')
  exact ⟨fun _ => rowMeets_of_no_triggers hno hrule, fun _ _ _ => trivial⟩

/-! ### From single writes to the cascade -/

/-- Steps of a statement, along `R` as well. -/
def StepsAlong (dbId : UInt32) (txId : Option UInt32) (R : World → World → Prop) (w w' : World) : Prop :=
  Changes dbId txId w w' ∧ R w w'

instance (dbId : UInt32) (txId : Option UInt32) (R : World → World → Prop) [IsPreorder World R] :
    IsPreorder World (StepsAlong dbId txId R) where
  refl w := ⟨.refl, refl_of R w⟩
  trans _ _ _ h h' := ⟨h.1.trans h'.1, trans_of R h.2 h'.2⟩

/-- The copy of a row that a statement works on: none, or the row as it was before some of the changes
so far. -/
def Copied (dbId : UInt32) (txId : Option UInt32) (k : Key) (copy : Option Row) (v : World) : Prop :=
  copy = none ∨ ∃ u, Changes dbId txId u v ∧ u.kvs.row k = copy

theorem Copied.changes {dbId : UInt32} {txId : Option UInt32} {k : Key} {copy : Option Row}
    {v v' : World} (h : Copied dbId txId k copy v) (hch : Changes dbId txId v v') :
    Copied dbId txId k copy v' :=
  h.imp id fun ⟨u, hu, hrow⟩ => ⟨u, hu.trans hch, hrow⟩

theorem Copied.held {dbId : UInt32} {txId : Option UInt32} {k : Key} {copy : Option Row} {v : World}
    (h : Copied dbId txId k copy v) : copy = none ∨ Held txId v k copy :=
  h.imp id fun ⟨_, hu, hrow⟩ => hu.held (Or.inl hrow)

/-- Drawing a rowid goes along `R`, and so does every write that meets the rule, after its check. -/
structure WritesAlong (rule : WriteRule) (dbId : UInt32) (txId : Option UInt32)
    (R : World → World → Prop) : Prop where
  draw : ∀ w table, R w (w.draw dbId table)
  store : ∀ (v₁ v₂ : World) (k : Key) (copy new : Option Row), k.dbId = dbId →
    v₂.kvs.hasStore k.dbId k.table = true → Changes dbId txId v₁ v₂ → Copied dbId txId k copy v₂ →
      (∀ row, new = some row → Checked v₁.kvs k row) → rule v₁ v₂ k copy new →
        R v₂ (v₂.store txId k copy new)

section Cascade

variable {rule : WriteRule} {dbId : UInt32} {txId : Option UInt32} {R : World → World → Prop}
  [IsPreorder World R] (hrule : WritesAlong rule dbId txId R)

/-- The triggers move along `R` where what they fire satisfies `fired`. -/
def FireAlong (dbId : UInt32) (txId : Option UInt32) (R : World → World → Prop) (fire : Fire)
    (fired : String → TriggerEvent → TriggerTiming → Option Row → Option Row → World → Prop) : Prop :=
  ∀ table event timing oldRow newRow w, PlainTriggers w.kvs dbId →
    fired table event timing oldRow newRow w →
      Moves (StepsAlong dbId txId R) (fire table event timing oldRow newRow) w

section Rows

variable {fire : Fire}
  {fired : String → TriggerEvent → TriggerTiming → Option Row → Option Row → World → Prop}
  (hfire : FireAlong dbId txId R fire fired) {w : World} (hplain : PlainTriggers w.kvs dbId)
include hrule hfire hplain

theorem store_between_along {k : Key} (hdb : k.dbId = dbId)
    (hstore : w.kvs.hasStore k.dbId k.table = true) {copy new : Option Row}
    (hcopy : Copied dbId txId k copy w) (hchecked : ∀ row, new = some row → Checked w.kvs k row)
    {event : TriggerEvent} (hmeets : RowMeets rule txId fire fired event k copy new w)
    (affected : UInt64) :
    Moves (StepsAlong dbId txId R) (do
      fire k.table event .before copy new
      store txId k copy new
      fire k.table event .after copy new
      return affected) w := by
  obtain ⟨hbefore, hrest⟩ := hmeets
  refine moves_bind (hfire _ _ _ _ _ w hplain hbefore) fun u v₂ hok h₂ => ?_
  obtain ⟨hwrite, hafter⟩ := hrest u v₂ hok
  have hhas : v₂.kvs.hasStore k.dbId k.table = true := by rw [h₂.1.hasStore]; exact hstore
  have hstep : Change dbId txId v₂ (v₂.store txId k copy new) :=
    .store v₂ k copy new hdb hhas (hcopy.changes h₂.1).held
  refine moves_bind (moves_modify (R := StepsAlong dbId txId R)
    ⟨.single hstep, hrule.store w v₂ k copy new hdb hhas h₂.1 (hcopy.changes h₂.1)
      hchecked hwrite⟩) fun _ v₃ hset h₃ => ?_
  obtain ⟨-, rfl⟩ := Prod.mk.inj hset
  exact moves_bind (hfire _ _ _ _ _ _ (hplain.changes (h₂.1.trans h₃.1)) hafter) fun _ v₄ _ _ =>
    moves_pure _ v₄

omit [Externals] hrule hfire hplain in
theorem check_ok {r : Except SkvsError Unit} {w w' : World} {u : Unit}
    (h : exec (check r) w = (.ok u, w')) : r = .ok () ∧ w = w' := by
  cases r with
  | error e => exact nomatch (Prod.mk.inj h).1
  | ok _ => exact ⟨rfl, (Prod.mk.inj h).2⟩

theorem insertRow_along {table : String} {schema : TableSchema}
    (hstore : w.kvs.hasStore dbId table = true) (hschema : w.kvs.getSchema dbId table = some schema)
    (affected : UInt64) (row : Row)
    (hmeets : validateConstraints (w.draw dbId table).kvs dbId schema
        (withDefaults schema (w.kvs.rowidCounter dbId table) row) (w.kvs.rowidCounter dbId table) =
          .ok () →
      RowMeets rule txId fire fired .insert ⟨dbId, table, w.kvs.rowidCounter dbId table⟩ none
        (some (withDefaults schema (w.kvs.rowidCounter dbId table) row)) (w.draw dbId table)) :
    Moves (StepsAlong dbId txId R) (insertRow fire dbId table schema txId affected row) w := by
  have hdraw : StepsAlong dbId txId R w (w.draw dbId table) :=
    ⟨.single (.draw w table), hrule.draw w table⟩
  rw [insertRow_eq]
  refine moves_bind (p := nextRowid dbId table) hdraw fun rowid w₁ hdrawn _ => ?_
  obtain ⟨hrowid, rfl⟩ := Prod.mk.inj hdrawn
  obtain rfl := Except.ok.inj hrowid
  refine moves_bind (moves_read _ _) fun state w₂ hstate _ => ?_
  obtain ⟨rfl, rfl⟩ := read_ok hstate
  refine moves_bind (moves_ofExcept _ _) fun u w₃ hcheck _ => ?_
  obtain ⟨hok, rfl⟩ := check_ok hcheck
  refine store_between_along (k := ⟨dbId, table, w.kvs.rowidCounter dbId table⟩) hrule hfire
    (hplain.changes hdraw.1) rfl hstore (Or.inl rfl) (fun row' hrow' => ?_) (hmeets hok) _
  obtain rfl := Option.some.inj hrow'
  exact ⟨schema, hschema, hok⟩

theorem updateRow_along {table : String} {schema : TableSchema}
    (hstore : w.kvs.hasStore dbId table = true) (hschema : w.kvs.getSchema dbId table = some schema)
    (assignments : List Assignment) (params : List Value) (affected : UInt64) (entry : RowId × Row)
    (hcopy : Copied dbId txId ⟨dbId, table, entry.1⟩ (some entry.2) w)
    (hmeets : validateConstraints w.kvs dbId schema (updatedRow assignments params entry.2) entry.1 =
        .ok () →
      RowMeets rule txId fire fired .update ⟨dbId, table, entry.1⟩ (some entry.2)
        (some (updatedRow assignments params entry.2)) w) :
    Moves (StepsAlong dbId txId R)
      (updateRow fire dbId table schema txId assignments params affected entry) w := by
  obtain ⟨rowid, oldRow⟩ := entry
  rw [updateRow_eq]
  refine moves_bind (moves_read _ w) fun state w₁ hstate _ => ?_
  obtain ⟨rfl, rfl⟩ := read_ok hstate
  refine moves_bind (moves_ofExcept _ _) fun u w₂ hcheck _ => ?_
  obtain ⟨hok, rfl⟩ := check_ok hcheck
  refine store_between_along (k := ⟨dbId, table, rowid⟩) hrule hfire hplain rfl hstore hcopy
    (fun row' hrow' => ?_) (hmeets hok) _
  obtain rfl := Option.some.inj hrow'
  exact ⟨schema, hschema, hok⟩

theorem deleteRow_along {table : String} (hstore : w.kvs.hasStore dbId table = true)
    (affected : UInt64) (entry : RowId × Row)
    (hcopy : Copied dbId txId ⟨dbId, table, entry.1⟩ (some entry.2) w)
    (hmeets : RowMeets rule txId fire fired .delete ⟨dbId, table, entry.1⟩ (some entry.2) none w) :
    Moves (StepsAlong dbId txId R) (deleteRow fire dbId table txId affected entry) w := by
  obtain ⟨rowid, row⟩ := entry
  rw [deleteRow_eq]
  refine store_between_along (k := ⟨dbId, table, rowid⟩) hrule hfire hplain rfl hstore hcopy
    (fun row' hrow' => ?_) hmeets _
  exact nomatch hrow'

end Rows

theorem fireTriggers_along {f : Statement → Db QueryResult} {body : Statement → World → Prop}
    (hrun : ∀ stmt, stmt.isPlain = true → ∀ w, PlainTriggers w.kvs dbId → body stmt w →
      Moves (StepsAlong dbId txId R) (f stmt) w) :
    FireAlong dbId txId R (fireTriggers f dbId) (FiredMeet dbId f body) := by
  intro table event timing oldRow newRow w hplain hmeets
  refine moves_bind (moves_read _ w) fun triggers w₁ htriggers _ => ?_
  obtain ⟨rfl, rfl⟩ := read_ok htriggers
  refine moves_forM_of_along hmeets fun trigger htrigger w₂ h₂ hbody => ?_
  have hin := List.mem_of_mem_filter htrigger
  refine moves_bind (moves_read _ w₂) fun state w₃ hstate _ => ?_
  obtain ⟨rfl, rfl⟩ := read_ok hstate
  refine moves_bind (moves_ofExcept _ w₂) fun holds w₄ hcondition _ => ?_
  obtain ⟨hholds, rfl⟩ := Prod.mk.inj hcondition
  cases holds with
  | false => exact moves_pure _ _
  | true =>
      refine moves_bind (moves_ofExcept _ _) fun stmts w₅ hstmts _ => ?_
      obtain ⟨hparse, rfl⟩ := Prod.mk.inj hstmts
      refine moves_forM_of_along (hbody hholds stmts hparse) fun stmt hstmt w₆ h₆ hstep => ?_
      have hchanges : Changes dbId txId w w₆ := h₂.1.trans h₆.1
      exact moves_bind (hrun stmt (hplain table trigger hin oldRow newRow stmts hparse stmt hstmt) w₆
        (hplain.changes hchanges) hstep) fun _ w₇ _ _ => moves_pure _ w₇

include hrule

/-- If every write of the cascade meets the rule, the whole statement goes along `R`. -/
theorem executeSingleStatement_along (fuel : Nat) {stmt : Statement} (hstmt : stmt.isPlain = true)
    (params : List Value) {w : World} (hplain : PlainTriggers w.kvs dbId)
    (hmeets : WritesMeet rule dbId txId fuel stmt params w) :
    Moves (StepsAlong dbId txId R) (executeSingleStatement fuel dbId stmt params txId) w := by
  induction fuel generalizing stmt params w with
  | zero => exact moves_fail _ w
  | succ fuel ih =>
      have hfire := fireTriggers_along (f := fun s => executeSingleStatement fuel dbId s [] txId)
        fun s hs v hv hbody => ih hs [] hv hbody
      cases stmt with
      | query query => exact moves_of_unchanged rfl
      | insert table columns source =>
          refine moves_executeInsert fun schema rows hschema hstore hrows => ?_
          refine moves_foldlM_of_along (hmeets schema rows hschema hrows)
            fun affected row _ v hv hrow => ?_
          refine insertRow_along hrule hfire (hplain.changes hv.1) (by rw [hv.1.hasStore]; exact hstore)
            ?_ affected row hrow
          rw [KvsState.getSchema, hv.1.schemas]
          exact hschema
      | update table assignments selection =>
          refine moves_executeUpdate fun schema store hschema hstore => ?_
          have hhas : w.kvs.hasStore dbId table.relation.name = true := by
            rw [KvsState.hasStore, hstore]
            rfl
          refine moves_foldlM_of_along (hmeets schema store hschema hstore)
            fun affected entry hentry v hv hrow => ?_
          refine updateRow_along hrule hfire (hplain.changes hv.1) (by rw [hv.1.hasStore]; exact hhas)
            ?_ assignments params affected entry
            (Or.inr ⟨w, hv.1, row_of_mem_matchingRows hstore hentry⟩) hrow
          rw [KvsState.getSchema, hv.1.schemas]
          exact hschema
      | delete tables from_ selection =>
          refine moves_executeDelete fun table store htable hstore => ?_
          have hhas : w.kvs.hasStore dbId table = true := by
            rw [KvsState.hasStore, hstore]
            rfl
          refine moves_foldlM_of_along (hmeets table store htable hstore)
            fun affected entry hentry v hv hrow => ?_
          exact deleteRow_along hrule hfire (hplain.changes hv.1) (by rw [hv.1.hasStore]; exact hhas)
            affected entry (Or.inr ⟨w, hv.1, row_of_mem_matchingRows hstore hentry⟩) hrow
      | _ => cases hstmt

/-- The same of a statement that succeeds at the top level, in a transaction of its own if it is given
none. Its end leaves everything but the list of transactions alone. -/
theorem executeStatement_along {fuel : Nat} {stmt : Statement} (hwrite : stmt.isWrite = true)
    {params : List Value} {given : Option UInt32} {r : QueryResult} {w w' : World}
    (hok : exec (executeStatement fuel dbId stmt params given) w = (.ok r, w'))
    (hgiven : txId = some (given.getD w.kvs.txns.nextId)) (hplain : PlainTriggers w.kvs dbId)
    (hmeets : WritesMeet rule dbId txId fuel stmt params (if given.isNone then w.begin dbId else w)) :
    ∃ v txns, R (if given.isNone then w.begin dbId else w) v ∧
      w' = { v with kvs := { v.kvs with txns } } := by
  have hplain' : stmt.isPlain = true := Statement.isPlain_of_isWrite hwrite
  subst hgiven
  cases given with
  | some id =>
      rw [executeStatement_write hwrite] at hok
      have hsteps := (executeSingleStatement_along hrule fuel hplain' params hplain hmeets).2
      refine ⟨w', w'.kvs.txns, ?_, rfl⟩
      change R w (exec (executeSingleStatement fuel dbId stmt params (some id)) w).2 at hsteps
      have hok' : exec (executeSingleStatement fuel dbId stmt params (some id)) w = (.ok r, w') := hok
      rw [hok'] at hsteps
      exact hsteps
  | none =>
      rw [executeStatement_write hwrite] at hok
      have hbegun : PlainTriggers (w.begin dbId).kvs dbId := hplain
      have hsteps := (executeSingleStatement_along hrule fuel hplain' params hbegun hmeets).2
      change exec (executeAtomically fuel dbId stmt params) w = _ at hok
      rw [exec_executeAtomically] at hok
      rcases hrun : exec (executeSingleStatement fuel dbId stmt params (some w.kvs.txns.nextId))
        (w.begin dbId) with ⟨_ | result, v⟩
      · rw [hrun] at hok
        cases ‹Fail› <;> exact nomatch (Prod.mk.inj hok).1
      · rw [hrun] at hok
        obtain ⟨-, rfl⟩ := Prod.mk.inj hok
        obtain ⟨txns, hframe⟩ := commit_frame v w.kvs.txns.nextId
        refine ⟨v, txns, ?_, hframe⟩
        change R (w.begin dbId) (exec (executeSingleStatement fuel dbId stmt params
          (some w.kvs.txns.nextId)) (w.begin dbId)).2 at hsteps
        rw [hrun] at hsteps
        exact hsteps

end Cascade

/-! ### Rows that a rollback may leave -/

section FallsBack

variable {dbId id : UInt32} {s₀ : KvsState}

/-- A row that has changed under the transaction has an entry in its journal. -/
theorem Changes.entry_of_row_ne {u v : World} (h : Changes dbId (some id) u v) {journal : List UndoOp}
    (hactive : v.kvs.txns.active.get id = some ⟨dbId, journal⟩) {k : Key}
    (hne : v.kvs.row k ≠ u.kvs.row k) : ∃ op ∈ journal, op.key dbId = k := by
  induction h generalizing journal with
  | refl => exact absurd rfl hne
  | tail _ hstep ih =>
      cases hstep with
      | draw => exact ih hactive hne
      | store k' copy after hdb hstore =>
          rw [store_active, if_pos rfl, Option.map_eq_some_iff] at hactive
          obtain ⟨⟨db, before⟩, hbefore, hentry⟩ := hactive
          obtain ⟨rfl, rfl⟩ := TxnEntry.mk.inj hentry
          by_cases hk : k = k'
          · subst hk
            exact ⟨_, List.mem_append_right _ List.mem_cons_self, hdb ▸ undoEntry_key k copy after⟩
          · rw [store_row _ _ _ _ hstore, if_neg hk] at hne
            obtain ⟨op, hop, hkey⟩ := ih hbefore hne
            exact ⟨op, List.mem_append_left _ hop, hkey⟩

/-- Undoing the transaction would leave each row as it is in `s₀`, or take it out. -/
def FallsBack (dbId id : UInt32) (s₀ : KvsState) (v : World) : Prop :=
  ∃ journal, v.kvs.txns.active.get id = some ⟨dbId, journal⟩ ∧
    ∀ k, standing v.kvs dbId journal k = none ∨ standing v.kvs dbId journal k = s₀.row k

omit [Externals] in
theorem FallsBack.begin (w : World) :
    FallsBack dbId w.kvs.txns.nextId w.kvs (w.begin dbId) :=
  ⟨[], IndexMap.get_insert_self .., fun _ => Or.inr rfl⟩

/-- The first entry for a row has the row as it was, or none if it was inserted. -/
theorem writesAlong_fallsBack {rule : WriteRule} :
    WritesAlong rule dbId (some id) (Keeping (FallsBack dbId id s₀)) where
  draw _ _ h := h
  store _ v₂ k copy new hdb hstore _ hcopied _ _ h := by
    obtain ⟨journal, hactive, hstanding⟩ := h
    subst hdb
    refine ⟨journal ++ [undoEntry k copy new], ?_, fun k' => ?_⟩
    · rw [store_active, if_pos rfl, hactive]
      rfl
    · have hbefore := hstanding k'
      rw [standing] at hbefore ⊢
      rw [List.find?_append]
      cases hfind : journal.find? fun op => op.key k.dbId = k' with
      | some op =>
          rw [hfind] at hbefore
          exact hbefore
      | none =>
          rw [hfind] at hbefore
          rw [Option.none_or, List.find?_singleton, undoEntry_key, store_row _ _ _ _ hstore]
          by_cases hk : k = k'
          · subst hk
            rw [if_pos (by simp)]
            simp only [undoEntry_value]
            rcases hcopied with rfl | ⟨u, hu, rfl⟩
            · exact Or.inl rfl
            · -- no entry for the row, so it has not changed since it was copied
              have hsame : v₂.kvs.row k = u.kvs.row k := by
                by_contra hne
                obtain ⟨op, hop, hkey⟩ := hu.entry_of_row_ne hactive hne
                exact absurd (decide_eq_true hkey) (List.find?_eq_none.mp hfind op hop)
              rw [← hsame]
              exact hbefore
          · rw [if_neg (by simpa using hk), if_neg (Ne.symm hk)]
            exact hbefore

theorem FallsBack.rollback {v : World} (h : FallsBack dbId id s₀ v) (k : Key) :
    (v.rollback id).kvs.row k = none ∨ (v.rollback id).kvs.row k = s₀.row k := by
  obtain ⟨journal, hactive, hstanding⟩ := h
  have hk := hstanding k
  rw [rollback_eq, hactive]
  simp only
  rw [undoAll_row_eq]
  rw [standing] at hk
  cases hfind : journal.find? fun op => op.key dbId = k with
  | none =>
      rw [hfind] at hk
      exact hk
  | some op =>
      rw [hfind] at hk
      simp only
      split
      · exact hk
      · exact Or.inl rfl

end FallsBack

/-! ### Calls of INSERT, UPDATE and DELETE -/

section Calls

variable {dbId : UInt32}

/-- The id that a write runs under: the given one, or the next one. -/
def Call.under (c : Call) (w : World) : UInt32 := c.txId.getD w.kvs.txns.nextId

omit [Externals] in
theorem Call.begins_of_isWrite {c : Call} (h : c.stmt.isWrite = true) : c.begins = c.txId.isNone := by
  obtain ⟨stmt, params, txId, fuel⟩ := c
  cases stmt <;> first | exact Bool.and_true _ | exact nomatch h

def Call.writesMeet (rule : WriteRule) (dbId : UInt32) (c : Call) (w : World) : Prop :=
  WritesMeet rule dbId (some (c.under w)) c.fuel c.stmt c.params (c.start dbId w)

/-- Every write of every call meets the rule. -/
def CallsMeet (rule : WriteRule) (dbId : UInt32) : List Call → World → Prop
  | [], _ => True
  | c :: calls, w => c.writesMeet rule dbId w ∧ CallsMeet rule dbId calls (c.run dbId w)

theorem Call.reached_along {rule : WriteRule} {R : World → World → Prop} [IsPreorder World R] {c : Call}
    {w : World} (hrule : WritesAlong rule dbId (some (c.under w)) R) (hwrite : c.stmt.isWrite = true)
    (hplain : PlainTriggers w.kvs dbId) (hmeets : c.writesMeet rule dbId w) :
    R (c.start dbId w) (c.reached dbId (some (c.under w)) (c.start dbId w)) := by
  have hstart : PlainTriggers (c.start dbId w).kvs dbId := by
    rw [Call.start]
    split <;> exact hplain
  exact (executeSingleStatement_along hrule c.fuel (Statement.isPlain_of_isWrite hwrite) c.params
    hstart hmeets).2

omit [Externals] in
theorem Call.isData_of_isWrite {c : Call} (h : c.stmt.isWrite = true) : c.isData = true := by
  obtain ⟨stmt, params, txId, fuel⟩ := c
  cases stmt <;> first | rfl | exact nomatch h

/-- A write ends with its statement, or, in a transaction of its own, with a commit or a rollback. -/
theorem Call.run_ends {c : Call} {w : World} (hwrite : c.stmt.isWrite = true) :
    (∃ txns, c.run dbId w = { c.reached dbId (some (c.under w)) (c.start dbId w) with
      kvs := { (c.reached dbId (some (c.under w)) (c.start dbId w)).kvs with txns } }) ∨
      c.txId = none ∧
        c.run dbId w = (c.reached dbId (some (c.under w)) (c.start dbId w)).rollback (c.under w) := by
  have hbegins := Call.begins_of_isWrite hwrite
  obtain ⟨stmt, params, txId, fuel⟩ := c
  rw [Call.run, executeStatement_write hwrite, Call.start, hbegins]
  cases txId with
  | some id => exact Or.inl ⟨_, rfl⟩
  | none =>
      rcases executeAtomically_ends fuel dbId stmt params w with hend | hend | hend
      · obtain ⟨txns, hframe⟩ := commit_frame _ _
        exact Or.inl ⟨txns, hend.trans hframe⟩
      · exact Or.inr ⟨rfl, hend⟩
      · exact Or.inl ⟨_, hend⟩

/-- A property of the rows and the writes that every write which meets the rule keeps, and that is
still there when a statement has been undone. -/
structure KeptByWrites (rule : WriteRule) (dbId : UInt32) (P : World → Prop) : Prop where
  txns : ∀ w txns, P w → P { w with kvs := { w.kvs with txns } }
  writes : ∀ txId, WritesAlong rule dbId txId (Keeping P)
  undone : ∀ w v id, P w → P v → FallsBack dbId id w.kvs v → P (v.rollback id)

section Kept

variable {rule : WriteRule} {P : World → Prop} {w : World} (hkept : KeptByWrites rule dbId P)
include hkept

theorem KeptByWrites.run {c : Call} (h : P w) (hwrite : c.stmt.isWrite = true)
    (hplain : PlainTriggers w.kvs dbId) (hmeets : c.writesMeet rule dbId w) : P (c.run dbId w) := by
  have hstart : P (c.start dbId w) := by
    rw [Call.start]
    split
    · exact hkept.txns w _ h
    · exact h
  have hreached := Call.reached_along (hkept.writes _) hwrite hplain hmeets hstart
  rcases c.run_ends hwrite with ⟨txns, hend⟩ | ⟨hnone, hend⟩
  · rw [hend]
    exact hkept.txns _ txns hreached
  · have hbegin : FallsBack dbId (c.under w) w.kvs (c.start dbId w) := by
      rw [Call.under, Call.start, Call.begins_of_isWrite hwrite, hnone]
      exact FallsBack.begin w
    rw [hend]
    exact hkept.undone w _ _ h hreached
      (Call.reached_along writesAlong_fallsBack hwrite hplain hmeets hbegin)

theorem KeptByWrites.runCalls (calls : List Call) (hcalls : ∀ c ∈ calls, c.stmt.isWrite = true)
    (h : P w) (hplain : PlainTriggers w.kvs dbId) (hmeets : CallsMeet rule dbId calls w) :
    P (Skvs.runCalls dbId calls w) := by
  induction calls generalizing w with
  | nil => exact h
  | cons c calls ih =>
      have hwrite := hcalls c List.mem_cons_self
      have hdata : c.isData = true := Call.isData_of_isWrite hwrite
      exact ih (fun c' hc' => hcalls c' (List.mem_cons_of_mem c hc'))
        (hkept.run h hwrite hplain hmeets.1) (hplain.of_triggers (c.run_triggers hplain hdata))
        hmeets.2

end Kept

end Calls

end Skvs
