import Skvs.Proof.Run

/-!
# Statements on a database without triggers

Nothing comes between the check of a row and its store, and the copies that UPDATE and DELETE have
collected are the rows as they stand.
-/

namespace Skvs

variable [Externals]

/-- A row has passed the checks of its table. -/
def Checked (s : KvsState) (k : Key) (row : Row) : Prop :=
  ∃ schema, s.getSchema k.dbId k.table = some schema ∧
    validateConstraints s k.dbId schema row k.rowid = .ok ()

/-- One step of a statement under `txId`, on a database without triggers. -/
inductive QuietChange (dbId : UInt32) (txId : Option UInt32) : World → World → Prop
  | draw (w : World) (table : String) : QuietChange dbId txId w (w.draw dbId table)
  | store (w : World) (k : Key) (copy after : Option Row) (hdb : k.dbId = dbId)
      (hstore : w.kvs.hasStore k.dbId k.table = true) (hcopy : copy = none ∨ w.kvs.row k = copy)
      (hchecked : ∀ row, after = some row → Checked w.kvs k row) :
      QuietChange dbId txId w (w.store txId k copy after)

abbrev QuietChanges (dbId : UInt32) (txId : Option UInt32) : World → World → Prop :=
  Relation.ReflTransGen (QuietChange dbId txId)

instance (dbId : UInt32) (txId : Option UInt32) : IsPreorder World (QuietChanges dbId txId) where
  refl _ := .refl
  trans _ _ _ := .trans

variable {dbId : UInt32} {txId : Option UInt32} {w w' : World}

theorem QuietChange.change (h : QuietChange dbId txId w w') : Change dbId txId w w' := by
  cases h with
  | draw table => exact .draw w table
  | store k copy after hdb hstore hcopy => exact .store w k copy after hdb hstore (hcopy.imp id .inl)

theorem QuietChanges.changes (h : QuietChanges dbId txId w w') : Changes dbId txId w w' :=
  Relation.ReflTransGen.mono (fun _ _ => QuietChange.change) w w' h

/-- A step that leaves the rows of the other tables alone. -/
def QuietChangeIn (dbId : UInt32) (txId : Option UInt32) (table : String) (w w' : World) : Prop :=
  QuietChange dbId txId w w' ∧ ∀ k : Key, k.table ≠ table → w'.kvs.row k = w.kvs.row k

abbrev QuietChangesIn (dbId : UInt32) (txId : Option UInt32) (table : String) :
    World → World → Prop :=
  Relation.ReflTransGen (QuietChangeIn dbId txId table)

instance (dbId : UInt32) (txId : Option UInt32) (table : String) :
    IsPreorder World (QuietChangesIn dbId txId table) where
  refl _ := .refl
  trans _ _ _ := .trans

theorem QuietChangesIn.quiet {table : String} (h : QuietChangesIn dbId txId table w w') :
    QuietChanges dbId txId w w' :=
  Relation.ReflTransGen.mono (fun _ _ => And.left) w w' h

theorem QuietChange.in_table {k : Key} {copy after : Option Row}
    (h : QuietChange dbId txId w (w.store txId k copy after))
    (hstore : w.kvs.hasStore k.dbId k.table = true) :
    QuietChangeIn dbId txId k.table w (w.store txId k copy after) := by
  refine ⟨h, fun k' hne => ?_⟩
  rw [store_row txId k copy after hstore, if_neg fun hk => hne (congrArg Key.table hk)]

/-- A step of an INSERT: it replaces no row that it knows of. -/
def InsertChange (dbId : UInt32) (txId : Option UInt32) (table : String) (w w' : World) : Prop :=
  QuietChangeIn dbId txId table w w' ∧
    ∃ news, w'.writes = w.writes ++ news ∧ ∀ x ∈ news, x.copy = none

abbrev InsertChanges (dbId : UInt32) (txId : Option UInt32) (table : String) :
    World → World → Prop :=
  Relation.ReflTransGen (InsertChange dbId txId table)

instance (dbId : UInt32) (txId : Option UInt32) (table : String) :
    IsPreorder World (InsertChanges dbId txId table) where
  refl _ := .refl
  trans _ _ _ := .trans

theorem InsertChanges.quiet_in {table : String} (h : InsertChanges dbId txId table w w') :
    QuietChangesIn dbId txId table w w' :=
  Relation.ReflTransGen.mono (fun _ _ => And.left) w w' h

/-! ### Row by row -/

section Rows

open Prog

/-- The triggers of one table do nothing. -/
def TableQuiet (dbId : UInt32) (table : String) (fire : Fire) : Prop :=
  ∀ event timing oldRow newRow w, w.kvs.getTriggers dbId table = [] →
    exec (fire table event timing oldRow newRow) w = (.ok (), w)

/-- The triggers do nothing. -/
def QuietFire (dbId : UInt32) (fire : Fire) : Prop := ∀ table, TableQuiet dbId table fire

theorem fireTriggers_tableQuiet {table : String} (run : Statement → Db QueryResult) :
    TableQuiet dbId table (fireTriggers run dbId) := by
  intro event timing oldRow newRow w hno
  rw [fireTriggers, exec_bind_ok (exec_read _ w), hno]
  rfl

theorem fireTriggers_quiet (dbId : UInt32) (run : Statement → Db QueryResult) :
    QuietFire dbId (fireTriggers run dbId) := fun _ => fireTriggers_tableQuiet run

omit [Externals] in
theorem exec_check (r : Except SkvsError Unit) (w : World) :
    exec (check r) w = (r.mapError Fail.err, w) := rfl

theorem exec_store (txId : Option UInt32) (k : Key) (copy after : Option Row) (w : World) :
    exec (store txId k copy after) w = (.ok (), w.store txId k copy after) := rfl

omit [Externals] in
/-- The count of the rows gone through. -/
theorem counted_cons {α : Type} (affected : UInt64) (a : α) (l : List α) :
    affected + 1 + .ofNat l.length = affected + .ofNat (a :: l).length := by
  calc affected + 1 + .ofNat l.length = affected + (.ofNat l.length + 1) := by
        rw [UInt64.add_assoc, UInt64.add_comm 1]
    _ = affected + .ofNat (a :: l).length := by
        rw [List.length_cons, UInt64.ofNat_add]
        rfl

variable {fire : Fire} {table : String} (hfire : TableQuiet dbId table fire)
  (hno : w.kvs.getTriggers dbId table = [])
include hfire hno

theorem exec_store_between (txId : Option UInt32) (rowid : RowId) (copy after : Option Row) (event : TriggerEvent)
    (oldRow newRow : Option Row) (affected : UInt64) :
    exec (do
      fire table event .before oldRow newRow
      store txId ⟨dbId, table, rowid⟩ copy after
      fire table event .after oldRow newRow
      return affected) w = (.ok affected, w.store txId ⟨dbId, table, rowid⟩ copy after) := by
  have hno' : (w.store txId ⟨dbId, table, rowid⟩ copy after).kvs.getTriggers dbId table = [] :=
    (getTriggers_store ..).trans hno
  rw [exec_bind_ok (hfire _ _ _ _ w hno), exec_bind_ok (exec_store _ _ _ _ w),
    exec_bind_ok (hfire _ _ _ _ _ hno')]
  rfl

/-- A row is stored as it was checked, or the statement stops. -/
theorem exec_checked_store (txId : Option UInt32) (state : KvsState) (schema : TableSchema) (row : Row) (rowid : RowId)
    (copy : Option Row) (event : TriggerEvent) (oldRow newRow : Option Row) (affected : UInt64) :
    exec (do
      check (validateConstraints state dbId schema row rowid)
      fire table event .before oldRow newRow
      store txId ⟨dbId, table, rowid⟩ copy (some row)
      fire table event .after oldRow newRow
      return affected) w =
      match validateConstraints state dbId schema row rowid with
      | .ok () => (.ok affected, w.store txId ⟨dbId, table, rowid⟩ copy (some row))
      | .error err => (.error (.err err), w) := by
  cases hvalid : validateConstraints state dbId schema row rowid with
  | ok u =>
      rw [exec_bind_ok (by rw [exec_check]; rfl),
        exec_store_between hfire hno txId rowid copy (some row)]
  | error err => rw [exec_bind_error (by rw [exec_check]; rfl)]

/-- The row is stored with its defaults under the rowid drawn for it, or only the rowid is drawn. -/
theorem exec_insertRow (schema : TableSchema) (affected : UInt64) (row : Row) {next : RowId}
    (hnext : w.kvs.rowidCounter dbId table = next) :
    exec (insertRow fire dbId table schema txId affected row) w =
      match validateConstraints (w.draw dbId table).kvs dbId schema (withDefaults schema next row)
        next with
      | .ok () => (.ok (affected + 1), (w.draw dbId table).store txId ⟨dbId, table, next⟩ none
          (some (withDefaults schema next row)))
      | .error err => (.error (.err err), w.draw dbId table) := by
  subst hnext
  have hno' : (w.draw dbId table).kvs.getTriggers dbId table = [] := hno
  rw [insertRow_eq]
  exact exec_checked_store hfire hno' txId (w.draw dbId table).kvs schema
    (withDefaults schema (w.kvs.rowidCounter dbId table) row) (w.kvs.rowidCounter dbId table) none
    .insert none (some (withDefaults schema (w.kvs.rowidCounter dbId table) row)) (affected + 1)

theorem exec_updateRow (schema : TableSchema) (assignments : List Assignment) (params : List Value)
    (affected : UInt64) (e : RowId × Row) :
    exec (updateRow fire dbId table schema txId assignments params affected e) w =
      match validateConstraints w.kvs dbId schema (updatedRow assignments params e.2) e.1 with
      | .ok () => (.ok (affected + 1), w.store txId ⟨dbId, table, e.1⟩ (some e.2)
          (some (updatedRow assignments params e.2)))
      | .error err => (.error (.err err), w) := by
  rw [updateRow_eq]
  exact exec_checked_store hfire hno txId w.kvs schema (updatedRow assignments params e.2) e.1
    (some e.2) .update (some e.2) (some (updatedRow assignments params e.2)) (affected + 1)

theorem exec_deleteRow (affected : UInt64) (e : RowId × Row) :
    exec (deleteRow fire dbId table txId affected e) w =
      (.ok (affected + 1), w.store txId ⟨dbId, table, e.1⟩ (some e.2) none) := by
  rw [deleteRow_eq, exec_store_between hfire hno]

theorem insertRow_cases (schema : TableSchema) (affected : UInt64) (row : Row) :
    let rowid := w.kvs.rowidCounter dbId table
    let w' := (exec (insertRow fire dbId table schema txId affected row) w).2
    w' = w.draw dbId table ∨
      validateConstraints (w.draw dbId table).kvs dbId schema (withDefaults schema rowid row) rowid =
          .ok () ∧
        w' = (w.draw dbId table).store txId ⟨dbId, table, rowid⟩ none
          (some (withDefaults schema rowid row)) := by
  intro rowid w'
  have hw' : w' = _ := congrArg Prod.snd (exec_insertRow hfire hno schema affected row rfl)
  rw [hw']
  cases validateConstraints (w.draw dbId table).kvs dbId schema (withDefaults schema rowid row)
    rowid with
  | ok u => exact Or.inr ⟨rfl, rfl⟩
  | error err => exact Or.inl rfl

theorem updateRow_cases (schema : TableSchema) (assignments : List Assignment) (params : List Value)
    (affected : UInt64) (entry : RowId × Row) :
    let newRow := updatedRow assignments params entry.2
    let w' := (exec (updateRow fire dbId table schema txId assignments params affected entry) w).2
    w' = w ∨ validateConstraints w.kvs dbId schema newRow entry.1 = .ok () ∧
      w' = w.store txId ⟨dbId, table, entry.1⟩ (some entry.2) (some newRow) := by
  intro newRow w'
  have hw' : w' = _ :=
    congrArg Prod.snd (exec_updateRow hfire hno schema assignments params affected entry)
  rw [hw']
  cases validateConstraints w.kvs dbId schema newRow entry.1 with
  | ok u => exact Or.inr ⟨rfl, rfl⟩
  | error err => exact Or.inl rfl

/-- A row that the statement does not fail on is stored and counted. -/
theorem insertRow_ok {schema : TableSchema} {affected n : UInt64} {row : Row} {next : RowId}
    {w' : World} (hnext : w.kvs.rowidCounter dbId table = next)
    (hok : exec (insertRow fire dbId table schema txId affected row) w = (.ok n, w')) :
    n = affected + 1 ∧ w' = (w.draw dbId table).store txId ⟨dbId, table, next⟩ none
      (some (withDefaults schema next row)) := by
  rw [exec_insertRow hfire hno schema affected row hnext] at hok
  cases hvalid : validateConstraints (w.draw dbId table).kvs dbId schema (withDefaults schema next row)
    next with
  | ok u =>
      rw [hvalid] at hok
      obtain ⟨hn, hw⟩ := Prod.mk.inj hok
      exact ⟨(Except.ok.inj hn).symm, hw.symm⟩
  | error err =>
      rw [hvalid] at hok
      cases congrArg Prod.fst hok

theorem updateRow_ok {schema : TableSchema} {assignments : List Assignment} {params : List Value}
    {affected n : UInt64} {e : RowId × Row} {w' : World}
    (hok : exec (updateRow fire dbId table schema txId assignments params affected e) w =
      (.ok n, w')) :
    n = affected + 1 ∧
      w' = w.store txId ⟨dbId, table, e.1⟩ (some e.2) (some (updatedRow assignments params e.2)) := by
  rw [exec_updateRow hfire hno] at hok
  cases hvalid : validateConstraints w.kvs dbId schema (updatedRow assignments params e.2) e.1 with
  | ok u =>
      rw [hvalid] at hok
      obtain ⟨hn, hw⟩ := Prod.mk.inj hok
      exact ⟨(Except.ok.inj hn).symm, hw.symm⟩
  | error err =>
      rw [hvalid] at hok
      cases congrArg Prod.fst hok

theorem deleteRow_ok {affected n : UInt64} {e : RowId × Row} {w' : World}
    (hok : exec (deleteRow fire dbId table txId affected e) w = (.ok n, w')) :
    n = affected + 1 ∧ w' = w.store txId ⟨dbId, table, e.1⟩ (some e.2) none := by
  rw [exec_deleteRow hfire hno] at hok
  obtain ⟨hn, hw⟩ := Prod.mk.inj hok
  exact ⟨(Except.ok.inj hn).symm, hw.symm⟩

theorem insertRow_quiet (hstore : w.kvs.hasStore dbId table = true) {schema : TableSchema}
    (hschema : w.kvs.getSchema dbId table = some schema)
    (affected : UInt64) (row : Row) :
    Moves (InsertChanges dbId txId table) (insertRow fire dbId table schema txId affected row) w := by
  have hdraw : InsertChange dbId txId table w (w.draw dbId table) :=
    ⟨⟨.draw w table, fun _ _ => rfl⟩, [], (List.append_nil _).symm, fun _ hx => nomatch hx⟩
  rw [Moves]
  rcases insertRow_cases hfire hno schema affected row with hw | ⟨hok, hw⟩
  · rw [hw]
    exact .single hdraw
  · have hstore' : (w.draw dbId table).kvs.hasStore dbId table = true := hstore
    have hch : QuietChange dbId txId (w.draw dbId table) ((w.draw dbId table).store txId
        ⟨dbId, table, w.kvs.rowidCounter dbId table⟩ none
          (some (withDefaults schema (w.kvs.rowidCounter dbId table) row))) := by
      refine .store _ _ none _ rfl hstore' (Or.inl rfl) fun row' hrow' => ?_
      cases hrow'
      exact ⟨schema, hschema, hok⟩
    rw [hw]
    exact .tail (.single hdraw)
      ⟨hch.in_table hstore', _, rfl, fun x hx => List.mem_singleton.mp hx ▸ rfl⟩

theorem updateRow_quiet (hstore : w.kvs.hasStore dbId table = true) {schema : TableSchema}
    (hschema : w.kvs.getSchema dbId table = some schema) (assignments : List Assignment)
    (params : List Value) (affected : UInt64) (rowid : RowId) (oldRow : Row)
    (hrow : w.kvs.row ⟨dbId, table, rowid⟩ = some oldRow) :
    let w' := (exec (updateRow fire dbId table schema txId assignments params affected
      (rowid, oldRow)) w).2
    w' = w ∨ ∃ after, QuietChange dbId txId w w' ∧
      w' = w.store txId ⟨dbId, table, rowid⟩ (some oldRow) after := by
  rcases updateRow_cases hfire hno schema assignments params affected (rowid, oldRow) with
    hsame | ⟨hok, hw⟩
  · exact Or.inl hsame
  · refine Or.inr ⟨_, ?_, hw⟩
    rw [hw]
    refine .store w _ _ _ rfl hstore (Or.inr hrow) fun row' hrow' => ?_
    cases hrow'
    exact ⟨schema, hschema, hok⟩

theorem deleteRow_quiet (hstore : w.kvs.hasStore dbId table = true) (affected : UInt64)
    (rowid : RowId) (row : Row) (hrow : w.kvs.row ⟨dbId, table, rowid⟩ = some row) :
    let w' := (exec (deleteRow fire dbId table txId affected (rowid, row)) w).2
    w' = w ∨ ∃ after, QuietChange dbId txId w w' ∧
      w' = w.store txId ⟨dbId, table, rowid⟩ (some row) after := by
  rw [exec_deleteRow hfire hno]
  exact Or.inr ⟨none, .store w _ _ _ rfl hstore (Or.inr hrow) (fun _ h => nomatch h), rfl⟩

end Rows

/-! ### Statement by statement -/

section Statements

open Prog

/-- The collected rows still to come are distinct and stand as they were collected. -/
structure Pending (dbId : UInt32) (table : String) (schema : Option TableSchema)
    (entries : List (RowId × Row)) (w : World) : Prop where
  noTriggers : w.kvs.getTriggers dbId table = []
  store : w.kvs.hasStore dbId table = true
  schema : w.kvs.getSchema dbId table = schema
  nodup : (entries.map Prod.fst).Nodup
  rows : ∀ e ∈ entries, w.kvs.row ⟨dbId, table, e.1⟩ = some e.2

/-- Writing the first of the pending rows leaves the others pending. -/
theorem Pending.of_store {table : String} {schema : Option TableSchema} {e : RowId × Row}
    {entries : List (RowId × Row)} (h : Pending dbId table schema (e :: entries) w)
    (txId : Option UInt32) (copy after : Option Row) :
    Pending dbId table schema entries (w.store txId ⟨dbId, table, e.1⟩ copy after) := by
  have hnodup := h.nodup
  rw [List.map_cons, List.nodup_cons] at hnodup
  refine ⟨(getTriggers_store ..).trans h.noTriggers, (store_hasStore ..).trans h.store,
    (getSchema_store ..).trans h.schema, hnodup.2, fun e' he' => ?_⟩
  have hne : e'.1 ≠ e.1 := fun heq => hnodup.1 (heq ▸ List.mem_map_of_mem he')
  rw [store_row _ _ _ _ h.store, if_neg fun hk => hne (Key.mk.inj hk).2.2]
  exact h.rows e' (List.mem_cons_of_mem e he')

theorem Pending.tail {table : String} {schema : Option TableSchema} {e : RowId × Row}
    {entries : List (RowId × Row)} (h : Pending dbId table schema (e :: entries) w)
    (hw' : w' = w ∨ ∃ after, QuietChange dbId txId w w' ∧
      w' = w.store txId ⟨dbId, table, e.1⟩ (some e.2) after) :
    QuietChangesIn dbId txId table w w' ∧ Pending dbId table schema entries w' := by
  rcases hw' with rfl | ⟨after, hch, rfl⟩
  · exact ⟨.refl, h.noTriggers, h.store, h.schema, h.nodup.of_cons,
      fun e' he' => h.rows e' (List.mem_cons_of_mem e he')⟩
  · exact ⟨.single (hch.in_table h.store), h.of_store txId _ _⟩

theorem Pending.of_matchingRows {table : String} {store : Store}
    (hno : w.kvs.getTriggers dbId table = []) (hstore : w.kvs.getTableStore dbId table = some store)
    (selection : Option Expr) (params : List Value) (paramIdx : Nat) :
    Pending dbId table (w.kvs.getSchema dbId table)
      (matchingRows w.kvs dbId store selection params paramIdx) w where
  noTriggers := hno
  store := by
    rw [KvsState.hasStore, hstore]
    rfl
  schema := rfl
  nodup := matchingRows_nodup ..
  rows _ he := row_of_mem_matchingRows hstore he

variable {fire : Fire} {table : String} (hfire : TableQuiet dbId table fire)
  (hno : w.kvs.getTriggers dbId table = [])
include hfire hno

theorem executeInsert_quiet (fuel : Nat) (columns : List Ident) (source : Option Query)
    (params : List Value) :
    Moves (InsertChanges dbId txId table)
      (executeInsert fire fuel dbId table columns source params txId) w := by
  refine moves_executeInsert fun schema rows hschema hstore _ => ?_
  refine moves_foldlM _ _ _ _ fun affected row _ v hv => ?_
  have h : Changes dbId txId w v := (InsertChanges.quiet_in hv).quiet.changes
  refine insertRow_quiet hfire (h.getTriggers_nil hno) (by rw [h.hasStore]; exact hstore) ?_ affected row
  rw [KvsState.getSchema, h.schemas]
  exact hschema

theorem executeUpdate_quiet {relation : TableFactor} (htarget : relation.name = table)
    (assignments : List Assignment) (selection : Option Expr) (params : List Value) :
    Moves (QuietChangesIn dbId txId table)
      (executeUpdate fire dbId relation assignments selection params txId) w := by
  subst htarget
  refine moves_executeUpdate fun schema store hschema hstore => ?_
  refine moves_foldlM_of_pending (Pending dbId relation.name (some schema)) _
    (fun affected entry entries v hv => ?_) _ _ _
    (hschema ▸ Pending.of_matchingRows hno hstore selection params _)
  exact hv.tail (updateRow_quiet hfire hv.noTriggers hv.store hv.schema assignments params affected
    entry.1 entry.2 (hv.rows entry List.mem_cons_self))

theorem executeDelete_quiet {tables : List String} {from_ : List TableWithJoins}
    (htarget : deleteTarget tables from_ = some table) (selection : Option Expr)
    (params : List Value) :
    Moves (QuietChangesIn dbId txId table)
      (executeDelete fire dbId tables from_ selection params txId) w := by
  refine moves_executeDelete fun table' store htable hstore => ?_
  obtain rfl := Option.some.inj (htarget.symm.trans htable)
  refine moves_foldlM_of_pending (Pending dbId table (w.kvs.getSchema dbId table)) _
    (fun affected entry entries v hv => ?_) _ _ _
    (Pending.of_matchingRows hno hstore selection params _)
  exact hv.tail (deleteRow_quiet hfire hv.noTriggers hv.store affected entry.1 entry.2
    (hv.rows entry List.mem_cons_self))

end Statements

/-! ### The table of a statement -/

/-- The table whose rows a statement writes. -/
def Statement.target : Statement → Option String
  | .insert table _ _ => some table
  | .update table _ _ => some table.relation.name
  | .delete tables from_ _ => deleteTarget tables from_
  | _ => none

/-- A statement without a target changes nothing. -/
theorem executeSingleStatement_unchanged {stmt : Statement} (hstmt : stmt.isPlain = true)
    (htarget : stmt.target = none) (fuel : Nat) (params : List Value) :
    (Prog.exec (executeSingleStatement fuel dbId stmt params txId) w).2 = w := by
  cases fuel with
  | zero => rfl
  | succ fuel =>
      cases stmt with
      | query query => rfl
      | insert | update => exact nomatch htarget
      | delete tables from_ selection =>
          have hexec : ∀ fire, Prog.exec
              (executeDelete fire dbId tables from_ selection params txId) w =
                (.error (.err (.unsupported "DELETE without a target table")), w) := by
            intro fire
            rw [executeDelete, show deleteTarget tables from_ = none from htarget]
            rfl
          exact congrArg Prod.snd (hexec _)
      | _ => exact nomatch hstmt

/-- A statement changes the rows of its target only. -/
theorem executeSingleStatement_in {stmt : Statement} {table : String}
    (htarget : stmt.target = some table) (hno : w.kvs.getTriggers dbId table = []) (fuel : Nat)
    (params : List Value) :
    Prog.Moves (QuietChangesIn dbId txId table)
      (executeSingleStatement fuel dbId stmt params txId) w := by
  cases fuel with
  | zero => exact Prog.moves_fail _ w
  | succ fuel =>
      have hfire : TableQuiet dbId table (fireTriggers
          (fun s => executeSingleStatement fuel dbId s [] txId) dbId) := fireTriggers_tableQuiet _
      cases stmt with
      | insert table' columns source =>
          obtain rfl := Option.some.inj htarget
          exact (executeInsert_quiet hfire hno fuel columns source params).mono
            fun _ _ => InsertChanges.quiet_in
      | update table' assignments selection =>
          exact executeUpdate_quiet hfire hno (Option.some.inj htarget) assignments selection params
      | delete tables from_ selection =>
          exact executeDelete_quiet hfire hno htarget selection params
      | _ => exact nomatch htarget

theorem noTriggers_move (dbId : UInt32) :
    StatementsMove (QuietChange dbId) dbId fun w => NoTriggers w.kvs dbId := by
  intro w hno stmt hstmt fuel params txId
  cases htarget : stmt.target with
  | none => exact Prog.moves_of_unchanged (executeSingleStatement_unchanged hstmt htarget fuel params)
  | some table =>
      exact (executeSingleStatement_in htarget (hno table) fuel params).mono
        fun _ _ => QuietChangesIn.quiet

end Skvs
