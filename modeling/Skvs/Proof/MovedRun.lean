import Skvs.Proof.Cascade
import Skvs.Proof.MovedChange
import Skvs.Lib.Simulation

/-!
# Statements on a table under another name

Step by step, a statement under the new name does what the statement does under the old one, as long as
no check turns on the rows of the table.
-/

namespace Skvs

open Prog

variable [Externals] {τ : TableRenaming} {dbId : UInt32} {own txId : Option UInt32} {w w' : World}
  {x : String}

/-! ### Which statements are unhindered -/

/-- Every statement that the triggers around a row change run satisfies `body`. -/
abbrev FiresMeet (dbId : UInt32) (txId : Option UInt32) (run : Statement → Db QueryResult)
    (body : Statement → World → Prop) (event : TriggerEvent) (k : Key) (copy new : Option Row)
    (w : World) : Prop :=
  RowMeets (fun _ _ _ _ _ => True) txId (fireTriggers run dbId) (FiredMeet dbId run body) event k copy
    new w

section Unhindered

variable (τ : TableRenaming) (dbId : UInt32) (txId : Option UInt32)

/-- Every row that a statement checks is unhindered, and every row that is checked by the statements in
the trigger bodies that it sets off. -/
def ChecksUnhindered : Nat → Statement → List Value → World → Prop
  | 0, _, _, _ => True
  | fuel + 1, stmt, params, w =>
    let run := fun s => executeSingleStatement fuel dbId s [] txId
    let fire := fireTriggers run dbId
    let fires := FiresMeet dbId txId run fun s v => ChecksUnhindered fuel s [] v
    match stmt with
    | .insert table columns source => ∀ schema rows, w.kvs.getSchema dbId table = some schema →
        candidateRows w.kvs fuel dbId schema columns source params = .ok rows →
          AlongFold (insertRow fire dbId table schema txId) (fun _ row v =>
            let rowid := v.kvs.rowidCounter dbId table
            let row := withDefaults schema rowid row
            Unhindered τ dbId (v.draw dbId table).kvs schema row rowid ∧
              (validateConstraints (v.draw dbId table).kvs dbId schema row rowid = .ok () →
                fires .insert ⟨dbId, table, rowid⟩ none (some row) (v.draw dbId table))) 0 rows w
    | .update table assignments selection => ∀ schema store,
        w.kvs.getSchema dbId table.relation.name = some schema →
          w.kvs.getTableStore dbId table.relation.name = some store →
            AlongFold (updateRow fire dbId table.relation.name schema txId assignments params)
              (fun _ entry v =>
                let row := updatedRow assignments params entry.2
                Unhindered τ dbId v.kvs schema row entry.1 ∧
                  (validateConstraints v.kvs dbId schema row entry.1 = .ok () →
                    fires .update ⟨dbId, table.relation.name, entry.1⟩ (some entry.2) (some row) v)) 0
              (matchingRows w.kvs dbId store selection params (setParamCount assignments)) w
    | .delete tables from_ selection => ∀ table store, deleteTarget tables from_ = some table →
        w.kvs.getTableStore dbId table = some store →
          AlongFold (deleteRow fire dbId table txId)
            (fun _ entry v => fires .delete ⟨dbId, table, entry.1⟩ (some entry.2) none v) 0
            (matchingRows w.kvs dbId store selection params 0) w
    | _ => True

end Unhindered

/-! ### Worlds -/

/-- The table has moved, and the journal of the transaction `own` names it by its new name. -/
structure MovedUnder (τ : TableRenaming) (dbId : UInt32) (own : Option UInt32) (w w' : World) :
    Prop where
  kvs : Moved τ dbId w.kvs w'.kvs
  journal : ∀ id, own = some id →
    Option.Rel (fun e e' => (e.dbId = dbId ∧ e'.dbId = dbId) ∧
        (∀ op ∈ e.journal, (op.key dbId).table ≠ τ.new) ∧
          e'.journal = e.journal.map (UndoOp.renameTable τ))
      (w.kvs.txns.active.get id) (w'.kvs.txns.active.get id)

namespace MovedUnder

variable (h : MovedUnder τ dbId own w w') (hx : x ≠ τ.new)
include h hx

theorem draw : MovedUnder τ dbId own (w.draw dbId x) (w'.draw dbId (τ.name x)) :=
  ⟨h.kvs.getNextRowid hx, h.journal⟩

theorem store (hown : own = none ∨ own = txId) (rowid : RowId) (copy after : Option Row) :
    MovedUnder τ dbId own (w.store txId ⟨dbId, x, rowid⟩ copy after)
      (w'.store txId ⟨dbId, τ.name x, rowid⟩ copy after) where
  kvs := (h.kvs.record txId _ _).setSynced hx rowid copy after
  journal id hid := by
    rw [(store_sets w txId _ copy after).txns, (store_sets w' txId _ copy after).txns]
    have htx : txId = some id := by
      rcases hown with rfl | rfl
      · cases hid
      · exact hid
    subst htx
    have hjournal := h.journal id hid
    simp only [KvsState.record, TxnManager.record, IndexMap.get_modify, if_true]
    generalize w.kvs.txns.active.get id = e at hjournal ⊢
    generalize w'.kvs.txns.active.get id = e' at hjournal ⊢
    cases hjournal with
    | none => exact .none
    | some hentry =>
        obtain ⟨hdb, hops, hmap⟩ := hentry
        refine .some ⟨hdb, fun op hop => ?_, ?_⟩
        · rcases List.mem_append.mp hop with hop | hop
          · exact hops op hop
          · rw [List.mem_singleton.mp hop]
            cases copy <;> cases after <;> exact hx
        · simp only [hmap, List.map_append, List.map_cons, List.map_nil, undoEntry_renameTable]

end MovedUnder

theorem MovedUnder.begin (h : Moved τ dbId w.kvs w'.kvs) :
    MovedUnder τ dbId (some w.kvs.txns.nextId) (w.begin dbId) (w'.begin dbId) where
  kvs := h.withTxns (congrArg (· + 1) h.nextId)
  journal id hid := by
    obtain rfl := Option.some.inj hid
    simp only [World.begin, KvsState.begin, TxnManager.begin, h.nextId, IndexMap.get_insert, if_true]
    exact .some ⟨⟨rfl, rfl⟩, by simp, rfl⟩

theorem MovedUnder.commit {id : UInt32} (h : MovedUnder τ dbId (some id) w w') :
    Moved τ dbId (w.commit id).kvs (w'.commit id).kvs := by
  have hjournal := h.journal id rfl
  rw [commit_eq, commit_eq]
  generalize w.kvs.txns.active.get id = e at hjournal ⊢
  generalize w'.kvs.txns.active.get id = e' at hjournal ⊢
  cases hjournal with
  | none => exact h.kvs
  | some => exact h.kvs.withTxns h.kvs.nextId

theorem MovedUnder.rollback {id : UInt32} (h : MovedUnder τ dbId (some id) w w') :
    Moved τ dbId (w.rollback id).kvs (w'.rollback id).kvs := by
  have hjournal := h.journal id rfl
  rw [rollback_eq, rollback_eq]
  generalize w.kvs.txns.active.get id = e at hjournal ⊢
  generalize w'.kvs.txns.active.get id = e' at hjournal ⊢
  cases hjournal with
  | none => exact h.kvs
  | some hentry =>
      obtain ⟨⟨hdb, hdb'⟩, hops, hmap⟩ := hentry
      have hended : Moved τ dbId (w.kvs.ended id) (w'.kvs.ended id) := h.kvs.withTxns h.kvs.nextId
      simp only [hdb, hdb', hmap]
      exact hended.undoAll hops

/-! ### Triggers -/

theorem Moved.conditionHolds_eq {s s' : KvsState} (h : Moved τ dbId s s') (trigger : TriggerDef)
    (oldRow newRow : Option Row) :
    conditionHolds s' dbId trigger oldRow newRow = conditionHolds s dbId trigger oldRow newRow := by
  simp only [conditionHolds, h.whereHolds_eq]

/-- The triggers of the table are none under either name; those of other tables run the same bodies. -/
theorem fireTriggers_moved {run : Statement → Db QueryResult} {body : Statement → World → Prop}
    (hrun : ∀ stmt w w', stmt.isPlain = true → τ.old ∉ stmt.tables → τ.new ∉ stmt.tables →
      body stmt w → MovedUnder τ dbId own w w' →
        Simulates Eq (MovedUnder τ dbId own) Eq (run stmt) (run stmt) w w')
    {event : TriggerEvent} {timing : TriggerTiming} {oldRow newRow : Option Row}
    (h : MovedUnder τ dbId own w w') (hfired : FiredMeet dbId run body x event timing oldRow newRow w) :
    Simulates Eq (MovedUnder τ dbId own) Eq (fireTriggers run dbId x event timing oldRow newRow)
      (fireTriggers run dbId (τ.name x) event timing oldRow newRow) w w' := by
  refine simulates_bind_of_exec (A := fun l l' => l' = l)
    (simulates_read (h.kvs.getTriggers_eq x) h) fun l l' v v' hok hl hv => ?_
  obtain ⟨hread, rfl⟩ := Prod.mk.inj hok
  obtain rfl := Except.ok.inj hread
  obtain rfl := hl
  refine simulates_forM_of_along hfired (fun trigger htrigger t t' hmeets ht => ?_) hv
  have hbodies := h.kvs.movable.bodies x trigger (List.mem_of_mem_filter htrigger) oldRow newRow
  refine simulates_bind_of_exec (A := fun s s' => s = t.kvs ∧ s' = t'.kvs)
    (simulates_read ⟨rfl, rfl⟩ ht) fun s s' u u' hok hs hu => ?_
  obtain ⟨-, rfl⟩ := Prod.mk.inj hok
  obtain ⟨rfl, rfl⟩ := hs
  rw [ht.kvs.conditionHolds_eq]
  refine simulates_bind_of_exec (simulates_same _ hu) fun holds _ u u' hok hholds hu => ?_
  obtain ⟨hcond, rfl⟩ := Prod.mk.inj hok
  obtain rfl := hholds
  cases holds with
  | false => exact simulates_pure rfl hu
  | true =>
      refine simulates_bind_of_exec (simulates_same _ hu) fun stmts _ u u' hok hstmts hu => ?_
      obtain ⟨hparse, rfl⟩ := Prod.mk.inj hok
      obtain rfl := hstmts
      refine simulates_forM_of_along (hmeets hcond stmts hparse) (fun stmt hstmt v v' hbody hv => ?_) hu
      obtain ⟨hplain, hold, hnew⟩ := hbodies stmts hparse stmt hstmt
      exact simulates_bind (hrun stmt v v' hplain hold hnew hbody hv) fun _ _ _ _ _ hend =>
        simulates_pure rfl hend

/-! ### Row by row -/

section Rows

variable {run run' : Statement → Db QueryResult} {body : Statement → World → Prop}
  (hfire : ∀ {w w' : World} {event : TriggerEvent} {timing : TriggerTiming}
    {oldRow newRow : Option Row}, MovedUnder τ dbId own w w' →
      FiredMeet dbId run body x event timing oldRow newRow w →
        Simulates Eq (MovedUnder τ dbId own) Eq (fireTriggers run dbId x event timing oldRow newRow)
          (fireTriggers run' dbId (τ.name x) event timing oldRow newRow) w w')
  (h : MovedUnder τ dbId own w w') (hx : x ≠ τ.new) (hown : own = none ∨ own = txId)
include hfire h hx hown

theorem storeBetween_moved (rowid : RowId) {copy after : Option Row} {event : TriggerEvent}
    (hmeets : FiresMeet dbId txId run body event ⟨dbId, x, rowid⟩ copy after w) (affected : UInt64) :
    Simulates Eq (MovedUnder τ dbId own) Eq (do
      fireTriggers run dbId x event .before copy after
      Skvs.store txId ⟨dbId, x, rowid⟩ copy after
      fireTriggers run dbId x event .after copy after
      return affected) (do
      fireTriggers run' dbId (τ.name x) event .before copy after
      Skvs.store txId ⟨dbId, τ.name x, rowid⟩ copy after
      fireTriggers run' dbId (τ.name x) event .after copy after
      return affected) w w' := by
  refine simulates_bind_of_exec (hfire h hmeets.1) fun _ _ v v' hbefore _ hv => ?_
  have hafter := (hmeets.2 _ v hbefore).2
  refine simulates_bind_of_exec (A := Eq) ⟨.ok rfl, hv.store hx hown rowid copy after⟩
    fun _ _ u u' hstore _ hu => ?_
  obtain ⟨-, rfl⟩ := Prod.mk.inj hstore
  exact simulates_bind (hfire hu hafter) fun _ _ _ _ _ hend => simulates_pure rfl hend

variable {schema : TableSchema}
  (hfresh : schema.name ≠ τ.new ∧ ∀ fk ∈ schema.foreignKeys, fk.refTable ≠ τ.new)
include hfresh

/-- A row is checked, in the state that it finds, and stored. -/
theorem checkedStore_moved {row : Row} {rowid : RowId} {copy : Option Row} {event : TriggerEvent}
    (hun : Unhindered τ dbId w.kvs schema row rowid)
    (hmeets : validateConstraints w.kvs dbId schema row rowid = .ok () →
      FiresMeet dbId txId run body event ⟨dbId, x, rowid⟩ copy (some row) w) (affected : UInt64) :
    Simulates Eq (MovedUnder τ dbId own) Eq (do
      let state ← Prog.read World.kvs
      check (validateConstraints state dbId schema row rowid)
      fireTriggers run dbId x event .before copy (some row)
      Skvs.store txId ⟨dbId, x, rowid⟩ copy (some row)
      fireTriggers run dbId x event .after copy (some row)
      return affected) (do
      let state ← Prog.read World.kvs
      check (validateConstraints state dbId schema row rowid)
      fireTriggers run' dbId (τ.name x) event .before copy (some row)
      Skvs.store txId ⟨dbId, τ.name x, rowid⟩ copy (some row)
      fireTriggers run' dbId (τ.name x) event .after copy (some row)
      return affected) w w' := by
  refine simulates_bind_of_exec (A := fun s s' => s = w.kvs ∧ s' = w'.kvs)
    (simulates_read ⟨rfl, rfl⟩ h) fun s s' v v' hok hs hv => ?_
  obtain ⟨-, rfl⟩ := Prod.mk.inj hok
  obtain ⟨rfl, rfl⟩ := hs
  rw [h.kvs.validateConstraints_eq hfresh hun, check]
  refine simulates_bind_of_exec (simulates_same _ hv) fun _ _ u u' hok _ hu => ?_
  obtain ⟨hchecked, rfl⟩ := Prod.mk.inj hok
  refine storeBetween_moved hfire hu hx hown rowid (hmeets ?_) affected
  cases hvalid : validateConstraints w.kvs dbId schema row rowid with
  | ok => rfl
  | error e =>
      rw [hvalid] at hchecked
      cases hchecked

theorem insertRow_moved {row : Row}
    (hun : Unhindered τ dbId (w.draw dbId x).kvs schema
      (withDefaults schema (w.kvs.rowidCounter dbId x) row) (w.kvs.rowidCounter dbId x))
    (hmeets : validateConstraints (w.draw dbId x).kvs dbId schema
        (withDefaults schema (w.kvs.rowidCounter dbId x) row) (w.kvs.rowidCounter dbId x) = .ok () →
      FiresMeet dbId txId run body .insert ⟨dbId, x, w.kvs.rowidCounter dbId x⟩ none
        (some (withDefaults schema (w.kvs.rowidCounter dbId x) row)) (w.draw dbId x))
    (affected : UInt64) :
    Simulates Eq (MovedUnder τ dbId own) Eq
      (insertRow (fireTriggers run dbId) dbId x schema txId affected row)
      (insertRow (fireTriggers run' dbId) dbId (τ.name x) schema txId affected row) w w' := by
  rw [insertRow_eq, insertRow_eq]
  refine simulates_bind_of_exec (A := Eq) ⟨.ok (h.kvs.counters x hx).symm, h.draw hx⟩
    fun rowid _ v v' hok hrowid hv => ?_
  obtain ⟨hread, rfl⟩ := Prod.mk.inj hok
  obtain rfl := Except.ok.inj hread
  obtain rfl := hrowid
  exact checkedStore_moved hfire hv hx hown hfresh hun hmeets _

theorem updateRow_moved {assignments : List Assignment} {params : List Value} {rowid : RowId}
    {oldRow : Row}
    (hun : Unhindered τ dbId w.kvs schema (updatedRow assignments params oldRow) rowid)
    (hmeets : validateConstraints w.kvs dbId schema (updatedRow assignments params oldRow) rowid =
        .ok () →
      FiresMeet dbId txId run body .update ⟨dbId, x, rowid⟩ (some oldRow)
        (some (updatedRow assignments params oldRow)) w)
    (affected : UInt64) :
    Simulates Eq (MovedUnder τ dbId own) Eq
      (updateRow (fireTriggers run dbId) dbId x schema txId assignments params affected (rowid, oldRow))
      (updateRow (fireTriggers run' dbId) dbId (τ.name x) schema txId assignments params affected
        (rowid, oldRow)) w w' := by
  rw [updateRow_eq, updateRow_eq]
  exact checkedStore_moved hfire h hx hown hfresh hun hmeets _

omit hfresh in
theorem deleteRow_moved {rowid : RowId} {row : Row}
    (hmeets : FiresMeet dbId txId run body .delete ⟨dbId, x, rowid⟩ (some row) none w)
    (affected : UInt64) :
    Simulates Eq (MovedUnder τ dbId own) Eq
      (deleteRow (fireTriggers run dbId) dbId x txId affected (rowid, row))
      (deleteRow (fireTriggers run' dbId) dbId (τ.name x) txId affected (rowid, row)) w w' := by
  rw [deleteRow_eq, deleteRow_eq]
  exact storeBetween_moved hfire h hx hown rowid hmeets _

end Rows

/-! ### Statement by statement -/

omit [Externals] in
/-- What is looked up and not found is another table, whose name does not change. -/
theorem orRaise_moved {α : Type} {o : Option α} (e : String → SkvsError)
    (hfound : (∃ a, o = some a) ∨ τ.name x = x) : orRaise o (e (τ.name x)) = orRaise o (e x) := by
  rcases hfound with ⟨a, rfl⟩ | hname
  · rfl
  · rw [hname]

theorem Moved.schema_found {s s' : KvsState} (h : Moved τ dbId s s') (x : String) :
    (∃ schema, s.getSchema dbId x = some schema) ∨ τ.name x = x := by
  by_cases hold : x = τ.old
  · rw [hold]
    exact Or.inl (Option.isSome_iff_exists.mp h.movable.schema)
  · exact Or.inr (TableRenaming.name_of_ne hold)

omit [Externals] in
theorem simulates_orRaise_same {α : Type} {R : World → World → Prop} (o : Option α) (e : SkvsError)
    (hR : R w w') : Simulates Eq R Eq (orRaise o e) (orRaise o e) w w' := by
  cases o with
  | none => exact simulates_fail rfl hR
  | some a => exact simulates_pure rfl hR

section Statements

variable {fuel : Nat} (hrun : ∀ stmt w w', stmt.isPlain = true → τ.old ∉ stmt.tables →
    τ.new ∉ stmt.tables → ChecksUnhindered τ dbId txId fuel stmt [] w → MovedUnder τ dbId own w w' →
      Simulates Eq (MovedUnder τ dbId own) Eq (executeSingleStatement fuel dbId stmt [] txId)
        (executeSingleStatement fuel dbId stmt [] txId) w w')
  (h : MovedUnder τ dbId own w w') (hown : own = none ∨ own = txId)
include hrun h hown

theorem executeInsert_moved (hx : x ≠ τ.new) {columns : List Ident} {source : Option Query}
    (hsource : τ.new ∉ source.elim [] Query.tables) {params : List Value}
    (hun : ChecksUnhindered τ dbId txId (fuel + 1) (.insert x columns source) params w) :
    Simulates Eq (MovedUnder τ dbId own) Eq
      (executeSingleStatement (fuel + 1) dbId (.insert x columns source) params txId)
      (executeSingleStatement (fuel + 1) dbId
        (.insert (τ.name x) columns (source.map (Query.renameTable τ))) params txId) w w' := by
  rw [executeSingleStatement, executeSingleStatement]
  simp only [executeInsert]
  refine simulates_bind_of_exec (A := fun s s' => s = w.kvs ∧ s' = w'.kvs)
    (simulates_read ⟨rfl, rfl⟩ h) fun s s' v v' hok hs hv => ?_
  obtain ⟨-, rfl⟩ := Prod.mk.inj hok
  obtain ⟨rfl, rfl⟩ := hs
  rw [h.kvs.schemas x hx, orRaise_moved tableNotFound (h.kvs.schema_found x)]
  refine simulates_bind_of_exec (simulates_orRaise_same _ _ hv) fun schema _ u u' hok heq hu => ?_
  obtain ⟨hschema, rfl⟩ := orRaise_ok hok
  obtain rfl := heq
  rw [h.kvs.stores x hx, orRaise_moved (fun t => .schema s!"Store for {t} not found") (h.kvs.found hx)]
  refine simulates_bind_of_exec (simulates_orRaise_same _ _ hu) fun _ _ t t' hok _ ht => ?_
  obtain ⟨-, rfl⟩ := orRaise_ok hok
  rw [h.kvs.candidateRows_eq fuel schema columns hsource]
  refine simulates_bind_of_exec (simulates_same _ ht) fun rows _ r r' hok heq hr => ?_
  obtain ⟨hrows, rfl⟩ := Prod.mk.inj hok
  obtain rfl := heq
  have hfresh := h.kvs.movable.fresh.schemas x schema hschema
  have halong := hun schema rows hschema hrows
  refine simulates_bind (simulates_foldlM_of_along halong (fun affected row _ v v' hrow hv => ?_) hr)
    fun n _ _ _ hn hend => ?_
  · exact insertRow_moved (fireTriggers_moved hrun) hv hx hown hfresh hrow.1 hrow.2 affected
  · obtain rfl := hn
    exact simulates_pure rfl hend

theorem executeUpdate_moved {table : TableWithJoins} (hx : table.relation.name ≠ τ.new)
    {assignments : List Assignment} {selection : Option Expr} {params : List Value}
    (hun : ChecksUnhindered τ dbId txId (fuel + 1) (.update table assignments selection) params w) :
    Simulates Eq (MovedUnder τ dbId own) Eq
      (executeSingleStatement (fuel + 1) dbId (.update table assignments selection) params txId)
      (executeSingleStatement (fuel + 1) dbId
        (.update (table.renameTable τ) assignments selection) params txId) w w' := by
  have hname : (table.renameTable τ).relation.name = τ.name table.relation.name :=
    TableFactor.name_renameTable table.relation
  rw [executeSingleStatement, executeSingleStatement]
  simp only [executeUpdate, hname]
  refine simulates_bind_of_exec (A := fun s s' => s = w.kvs ∧ s' = w'.kvs)
    (simulates_read ⟨rfl, rfl⟩ h) fun s s' v v' hok hs hv => ?_
  obtain ⟨-, rfl⟩ := Prod.mk.inj hok
  obtain ⟨rfl, rfl⟩ := hs
  rw [h.kvs.stores _ hx, orRaise_moved tableNotFound (h.kvs.found hx)]
  refine simulates_bind_of_exec (simulates_orRaise_same _ _ hv) fun store _ u u' hok heq hu => ?_
  obtain ⟨hstore, rfl⟩ := orRaise_ok hok
  obtain rfl := heq
  rw [h.kvs.schemas _ hx,
    orRaise_moved (fun t => .schema s!"Schema for {t} not found") (h.kvs.schema_found _)]
  refine simulates_bind_of_exec (simulates_orRaise_same _ _ hu) fun schema _ t t' hok heq ht => ?_
  obtain ⟨hschema, rfl⟩ := orRaise_ok hok
  obtain rfl := heq
  rw [h.kvs.matchingRows_eq]
  have hfresh := h.kvs.movable.fresh.schemas _ schema hschema
  have halong := hun schema store hschema hstore
  refine simulates_bind (simulates_foldlM_of_along halong (fun affected entry _ v v' hrow hv => ?_) ht)
    fun n _ _ _ hn hend => ?_
  · exact updateRow_moved (fireTriggers_moved hrun) hv hx hown hfresh hrow.1 hrow.2 affected
  · obtain rfl := hn
    exact simulates_pure rfl hend

theorem executeDelete_moved {tables : List String} {from_ : List TableWithJoins}
    (hnew : τ.new ∉ tables ++ from_.flatMap TableWithJoins.tables) {selection : Option Expr}
    {params : List Value}
    (hun : ChecksUnhindered τ dbId txId (fuel + 1) (.delete tables from_ selection) params w) :
    Simulates Eq (MovedUnder τ dbId own) Eq
      (executeSingleStatement (fuel + 1) dbId (.delete tables from_ selection) params txId)
      (executeSingleStatement (fuel + 1) dbId (.delete (tables.map τ.name)
        (from_.map (TableWithJoins.renameTable τ)) selection) params txId) w w' := by
  rw [executeSingleStatement, executeSingleStatement]
  simp only [executeDelete, deleteTarget_renameTable]
  cases htarget : deleteTarget tables from_ with
  | none => exact simulates_fail rfl h
  | some x =>
      have hx : x ≠ τ.new := fun heq => hnew (heq ▸ deleteTarget_mem htarget)
      have hfound : ∀ (y : String) (e : SkvsError), (orRaise (some y) e : Db String) = pure y :=
        fun _ _ => rfl
      rw [Option.map_some, hfound, hfound, pure_bind, pure_bind]
      refine simulates_bind_of_exec (A := fun s s' => s = w.kvs ∧ s' = w'.kvs)
        (simulates_read ⟨rfl, rfl⟩ h) fun s s' v v' hok hs hv => ?_
      obtain ⟨-, rfl⟩ := Prod.mk.inj hok
      obtain ⟨rfl, rfl⟩ := hs
      rw [h.kvs.stores x hx, orRaise_moved tableNotFound (h.kvs.found hx)]
      refine simulates_bind_of_exec (simulates_orRaise_same _ _ hv) fun store _ u u' hok heq hu => ?_
      obtain ⟨hstore, rfl⟩ := orRaise_ok hok
      obtain rfl := heq
      rw [h.kvs.matchingRows_eq]
      have halong := hun x store htarget hstore
      refine simulates_bind
        (simulates_foldlM_of_along halong (fun affected entry _ v v' hrow hv => ?_) hu)
        fun n _ _ _ hn hend => ?_
      · exact deleteRow_moved (fireTriggers_moved hrun) hv hx hown hrow affected
      · obtain rfl := hn
        exact simulates_pure rfl hend

end Statements

/-- By induction on the fuel; the bodies of triggers stay as they are, as they do not name the table. -/
theorem executeSingleStatement_moved (h : MovedUnder τ dbId own w w') (hown : own = none ∨ own = txId)
    {fuel : Nat} {stmt : Statement} (hplain : stmt.isPlain = true) (hnew : τ.new ∉ stmt.tables)
    {params : List Value} (hun : ChecksUnhindered τ dbId txId fuel stmt params w) :
    Simulates Eq (MovedUnder τ dbId own) Eq (executeSingleStatement fuel dbId stmt params txId)
      (executeSingleStatement fuel dbId (stmt.renameTable τ) params txId) w w' := by
  induction fuel generalizing stmt params w w' with
  | zero => exact simulates_fail rfl h
  | succ fuel ih =>
      have hrun : ∀ stmt w w', stmt.isPlain = true → τ.old ∉ stmt.tables → τ.new ∉ stmt.tables →
          ChecksUnhindered τ dbId txId fuel stmt [] w → MovedUnder τ dbId own w w' →
            Simulates Eq (MovedUnder τ dbId own) Eq (executeSingleStatement fuel dbId stmt [] txId)
              (executeSingleStatement fuel dbId stmt [] txId) w w' := by
        intro stmt w w' hplain hold hnew hun h
        have hsim := ih h hplain hnew hun
        rwa [Statement.renameTable_of_notMem hold] at hsim
      cases stmt with
      | query q =>
          rw [Statement.renameTable, executeSingleStatement, executeSingleStatement]
          refine simulates_bind (A := fun s s' => s = w.kvs ∧ s' = w'.kvs)
            (simulates_read ⟨rfl, rfl⟩ h) fun s s' v v' hs hv => ?_
          obtain ⟨rfl, rfl⟩ := hs
          rw [h.kvs.executeSelect_eq fuel hnew]
          exact simulates_same _ hv
      | insert table columns source =>
          rw [Statement.tables, List.mem_cons, not_or] at hnew
          exact executeInsert_moved hrun h hown (Ne.symm hnew.1) hnew.2 hun
      | update table assignments selection =>
          rw [Statement.tables, TableWithJoins.tables, List.mem_cons, not_or] at hnew
          exact executeUpdate_moved hrun h hown (Ne.symm hnew.1) hun
      | delete tables from_ selection => exact executeDelete_moved hrun h hown hnew hun
      | _ => cases hplain

end Skvs
