import Skvs.Lib.KeyedFold
import Skvs.Proof.Constraints
import Skvs.Proof.Reversible

/-!
# Foreign keys along a run

A row of the child is stored only while a row of the parent has the value it refers to. Nothing looks
at the child when an UPDATE or a DELETE takes a value away from the parent.
-/

namespace Skvs

variable [Externals]

/-! ### What a statement makes of the rows -/

/-- Whether a WHERE clause selects a row. -/
def selects (s : KvsState) (dbId : UInt32) (selection : Option Expr) (params : List Value)
    (paramIdx : Nat) (row : Row) : Bool :=
  match selection with
  | some whereExpr => whereHolds s dbId row params whereExpr paramIdx
  | none => true

/-- What an UPDATE or DELETE leaves of a row of its table. -/
def Statement.leaves (s : KvsState) (dbId : UInt32) (params : List Value) (stmt : Statement)
    (row : Row) : Option Row :=
  match stmt with
  | .update _ assignments selection =>
    if selects s dbId selection params (setParamCount assignments) row then
      some (updatedRow assignments params row)
    else some row
  | .delete _ _ selection => if selects s dbId selection params 0 row then none else some row
  | _ => some row

section Where

variable {s s' : KvsState} {dbId : UInt32} (hfts : s'.ftsTables = s.ftsTables)
include hfts

/-- WHERE looks at the full-text tables only. -/
theorem evaluateWhereCtx_congr (row : Row) (params : List Value) (e : Expr) :
    evaluateWhereCtx s' dbId row params e = evaluateWhereCtx s dbId row params e := by
  have hmatch : ∀ args, ftsMatch s' dbId row args = ftsMatch s dbId row args := by
    intro args
    simp only [ftsMatch, KvsState.getFtsTable, hfts]
  induction e using evaluateWhereCtx.induct with
  | case1 left right ihl ihr => simp only [evaluateWhereCtx, ihl, ihr]
  | case2 left right ihl ihr => simp only [evaluateWhereCtx, ihl, ihr]
  | case3 inner ih => simp only [evaluateWhereCtx, ih]
  | case4 inner ih => simp only [evaluateWhereCtx, ih]
  | case5 name args distinct clausePlaceholders hcond =>
      simp only [evaluateWhereCtx, hmatch]
  | case6 name args distinct clausePlaceholders hcond =>
      simp only [evaluateWhereCtx, hmatch]
  | case7 e hand hor hnot hnested hfun =>
      rw [evaluateWhereCtx, evaluateWhereCtx] <;> assumption

theorem leaves_congr (params : List Value) (stmt : Statement) (row : Row) :
    stmt.leaves s' dbId params row = stmt.leaves s dbId params row := by
  have hselects : ∀ selection paramIdx, selects s' dbId selection params paramIdx row =
      selects s dbId selection params paramIdx row := by
    intro selection paramIdx
    cases selection with
    | none => rfl
    | some e => simp only [selects, whereHolds, evaluateWhereCtx_congr hfts]
  cases stmt <;> simp only [Statement.leaves, hselects]

end Where

section Success

open Prog

variable {dbId : UInt32} {txId : Option UInt32} {table : String} {w w' : World}

/-- Going through collected rows, each step stores what `g` makes of its row, or stops. -/
theorem foldlM_store_rows {f : UInt64 → RowId × Row → Db UInt64} (g : Row → Option Row)
    (hf : ∀ {b b' e w w'}, w.kvs.getTriggers dbId table = [] → exec (f b e) w = (.ok b', w') →
      w' = w.store txId ⟨dbId, table, e.1⟩ (some e.2) (g e.2))
    {es : List (RowId × Row)} (hnodup : (es.map Prod.fst).Nodup)
    (hno : w.kvs.getTriggers dbId table = []) (hstore : w.kvs.hasStore dbId table = true) {b b' : UInt64}
    (hok : exec (es.foldlM f b) w = (.ok b', w')) (rowid : RowId) :
    w'.kvs.row ⟨dbId, table, rowid⟩ =
      (es.lookup rowid).elim (w.kvs.row ⟨dbId, table, rowid⟩) g := by
  induction es generalizing w b with
  | nil =>
      obtain ⟨-, rfl⟩ := Prod.mk.inj hok
      rfl
  | cons e es ih =>
      rw [List.map_cons, List.nodup_cons] at hnodup
      rw [List.foldlM_cons, exec_bind] at hok
      rcases hfirst : exec (f b e) w with ⟨err | n, w₁⟩
      · rw [hfirst] at hok
        exact nomatch (Prod.mk.inj hok).1
      · rw [hfirst] at hok
        obtain rfl := hf hno hfirst
        have hno' := (getTriggers_store w txId ⟨dbId, table, e.1⟩ (some e.2) (g e.2) dbId table).trans hno
        have hstore' : (w.store txId ⟨dbId, table, e.1⟩ (some e.2) (g e.2)).kvs.hasStore dbId table =
            true := (store_hasStore w txId _ _ _ dbId table).trans hstore
        rw [ih hnodup.2 hno' hstore' hok, IndexMap.lookup_cons_ite, store_row _ _ _ _ hstore]
        by_cases hk : rowid = e.1
        · have hnone : es.lookup rowid = none := lookup_eq_none_of_not_mem (hk ▸ hnodup.1)
          rw [hnone, if_pos hk, if_pos (by rw [hk])]
          rfl
        · rw [if_neg hk, if_neg fun h => hk (Key.mk.inj h).2.2]

/-- The collected rows, looked up. -/
theorem lookup_matchingRows {s : KvsState} {store : Store}
    (hstore : s.getTableStore dbId table = some store) (selection : Option Expr)
    (params : List Value) (paramIdx : Nat) (rowid : RowId) :
    (matchingRows s dbId store selection params paramIdx).lookup rowid =
      (s.row ⟨dbId, table, rowid⟩).filter (selects s dbId selection params paramIdx) := by
  have hrow : s.row ⟨dbId, table, rowid⟩ = store.get rowid := KvsState.row_of_store hstore rowid
  have hnodup : ((matchingRows s dbId store selection params paramIdx).map Prod.fst).Nodup :=
    matchingRows_nodup s dbId store selection params paramIdx
  refine Option.ext fun row => ?_
  rw [show (matchingRows s dbId store selection params paramIdx).lookup rowid =
      (IndexMap.mk _ hnodup).get rowid from rfl, ← IndexMap.mem_entries_iff_get, hrow,
    Option.filter_eq_some_iff, ← IndexMap.mem_entries_iff_get]
  change (rowid, row) ∈ List.filter _ _ ↔ _
  rw [List.mem_filter, (hashOrder_perm store.entries).mem_iff]
  rfl

variable (txId) in
/-- A row the statement does not select stays, and each selected one becomes what `g` makes of it. -/
theorem foldlM_matchingRows {f : UInt64 → RowId × Row → Db UInt64} (g : Row → Option Row)
    (hf : ∀ {b b' e w w'}, w.kvs.getTriggers dbId table = [] → exec (f b e) w = (.ok b', w') →
      w' = w.store txId ⟨dbId, table, e.1⟩ (some e.2) (g e.2))
    {store : Store} (hstore : w.kvs.getTableStore dbId table = some store)
    (hno : w.kvs.getTriggers dbId table = []) {selection : Option Expr} {params : List Value} {paramIdx : Nat}
    {b n : UInt64}
    (hok : exec ((matchingRows w.kvs dbId store selection params paramIdx).foldlM f b) w =
      (.ok n, w')) (rowid : RowId) :
    w'.kvs.row ⟨dbId, table, rowid⟩ = (w.kvs.row ⟨dbId, table, rowid⟩).bind fun row =>
      if selects w.kvs dbId selection params paramIdx row then g row else some row := by
  have hpending := Pending.of_matchingRows hno hstore selection params paramIdx
  rw [foldlM_store_rows g hf hpending.nodup hno hpending.store hok, lookup_matchingRows hstore]
  cases w.kvs.row ⟨dbId, table, rowid⟩ with
  | none => rfl
  | some row =>
      rw [Option.bind_some, Option.filter_some]
      split_ifs <;> rfl

variable {fire : Fire} (hfire : QuietFire dbId fire)
include hfire

theorem executeUpdate_rows {relation : TableFactor}
    (hno : w.kvs.getTriggers dbId relation.name = []) {assignments : List Assignment} {selection : Option Expr} {params : List Value}
    {r : QueryResult}
    (hok : exec (executeUpdate fire dbId relation assignments selection params txId) w = (.ok r, w'))
    (rowid : RowId) :
    w'.kvs.row ⟨dbId, relation.name, rowid⟩ =
      (w.kvs.row ⟨dbId, relation.name, rowid⟩).bind fun row =>
        if selects w.kvs dbId selection params (setParamCount assignments) row then
          some (updatedRow assignments params row)
        else some row := by
  rw [executeUpdate, exec_bind_ok (exec_read World.kvs w)] at hok
  obtain ⟨store, w₁, hstore, hok⟩ := exec_bind_eq_ok_iff.mp hok
  obtain ⟨hstore, rfl⟩ := orRaise_ok hstore
  obtain ⟨schema, w₂, hschema, hok⟩ := exec_bind_eq_ok_iff.mp hok
  obtain ⟨-, rfl⟩ := orRaise_ok hschema
  obtain ⟨n, w₃, hfold, hok⟩ := exec_bind_eq_ok_iff.mp hok
  obtain ⟨-, rfl⟩ := Prod.mk.inj hok
  exact foldlM_matchingRows txId (fun row => some (updatedRow assignments params row))
    (fun hno hstep => (updateRow_ok (hfire _) hno hstep).2) hstore hno hfold rowid

theorem executeDelete_rows (hno : w.kvs.getTriggers dbId table = []) {tables : List String}
    {from_ : List TableWithJoins} (htarget : deleteTarget tables from_ = some table)
    {selection : Option Expr} {params : List Value} {r : QueryResult}
    (hok : exec (executeDelete fire dbId tables from_ selection params txId) w = (.ok r, w'))
    (rowid : RowId) :
    w'.kvs.row ⟨dbId, table, rowid⟩ = (w.kvs.row ⟨dbId, table, rowid⟩).bind fun row =>
      if selects w.kvs dbId selection params 0 row then none else some row := by
  obtain ⟨table', w₀, hraise, hok⟩ := exec_bind_eq_ok_iff.mp hok
  obtain ⟨htable, rfl⟩ := orRaise_ok hraise
  obtain rfl : table = table' := Option.some.inj (htarget.symm.trans htable)
  rw [exec_bind_ok (exec_read World.kvs w₀)] at hok
  obtain ⟨store, w₁, hstore, hok⟩ := exec_bind_eq_ok_iff.mp hok
  obtain ⟨hstore, rfl⟩ := orRaise_ok hstore
  obtain ⟨n, w₃, hfold, hok⟩ := exec_bind_eq_ok_iff.mp hok
  obtain ⟨-, rfl⟩ := Prod.mk.inj hok
  exact foldlM_matchingRows txId (fun _ => none)
    (fun hno hstep => (deleteRow_ok (hfire _) hno hstep).2) hstore hno hfold rowid

end Success

/-- An UPDATE or DELETE. -/
def Statement.rewrites : Statement → Bool
  | .update .. | .delete .. => true
  | _ => false

/-- What a successful UPDATE or DELETE makes of the rows of its table. -/
theorem executeSingleStatement_rows {dbId : UInt32} {txId : Option UInt32} {table : String}
    {w w' : World} (hno : NoTriggers w.kvs dbId) {stmt : Statement}
    (hrewrites : stmt.rewrites = true) (htarget : stmt.target = some table) {fuel : Nat}
    {params : List Value} {r : QueryResult}
    (hok : Prog.exec (executeSingleStatement fuel dbId stmt params txId) w = (.ok r, w'))
    (rowid : RowId) :
    w'.kvs.row ⟨dbId, table, rowid⟩ =
      (w.kvs.row ⟨dbId, table, rowid⟩).bind (stmt.leaves w.kvs dbId params) := by
  cases fuel with
  | zero => exact nomatch (Prod.mk.inj hok).1
  | succ fuel =>
      have hfire := fireTriggers_quiet dbId fun s => executeSingleStatement fuel dbId s [] txId
      cases stmt with
      | update relation assignments selection =>
          obtain rfl := Option.some.inj htarget
          exact executeUpdate_rows hfire (hno _) hok rowid
      | delete tables from_ selection => exact executeDelete_rows hfire (hno table) htarget hok rowid
      | _ => exact nomatch hrewrites

/-- An INSERT replaces no row that it knows of. -/
theorem executeSingleStatement_inserts {dbId : UInt32} {txId : Option UInt32} {table : String}
    {w : World} {stmt : Statement} (hrewrites : stmt.rewrites = false)
    (htarget : stmt.target = some table) (hno : NoTriggers w.kvs dbId) (fuel : Nat)
    (params : List Value) :
    Prog.Moves (InsertChanges dbId txId table)
      (executeSingleStatement fuel dbId stmt params txId) w := by
  cases fuel with
  | zero => exact Prog.moves_fail _ w
  | succ fuel =>
      cases stmt with
      | insert table' columns source =>
          obtain rfl := Option.some.inj htarget
          exact executeInsert_quiet (fireTriggers_tableQuiet _) (hno table') fuel columns source params
      | update | delete => exact nomatch hrewrites
      | _ => exact nomatch htarget

/-! ### References -/

/-- Every row of the child that refers to something finds a row of the parent with that value. -/
def References (fk : ForeignKeyDef) (child parent : RowId → Option Row) : Prop :=
  ∀ rowid row val, child rowid = some row → row.get fk.column = some val → val.isNull = false →
    ∃ rowid' row', parent rowid' = some row' ∧ Row.holds row' fk.refColumn val = true

def ReferencesHold (s : KvsState) (dbId : UInt32) (child : String) (fk : ForeignKeyDef) : Prop :=
  References fk (fun rowid => s.row ⟨dbId, child, rowid⟩) fun rowid => s.row ⟨dbId, fk.refTable, rowid⟩

/-- The child is declared with the foreign key, and the parent exists. -/
structure Declared (s : KvsState) (dbId : UInt32) (child : String) (fk : ForeignKeyDef) : Prop where
  listed : ∃ schema, s.getSchema dbId child = some schema ∧ fk ∈ schema.foreignKeys
  parent : s.hasStore dbId fk.refTable = true

section Steps

variable {dbId : UInt32} {txId : Option UInt32} {child : String} {fk : ForeignKeyDef} {w w' : World}

theorem Declared.changes (h : Declared w.kvs dbId child fk) (hch : Changes dbId txId w w') :
    Declared w'.kvs dbId child fk where
  listed := by
    rw [KvsState.getSchema, hch.schemas]
    exact h.listed
  parent := by
    rw [hch.hasStore]
    exact h.parent

/-- A checked row of the child finds its parent row. -/
theorem Checked.refers {s : KvsState} (h : Declared s dbId child fk) (hc : fk.column.isEmpty = false)
    {rowid : RowId} {row : Row} (hchecked : Checked s ⟨dbId, child, rowid⟩ row) {val : Value}
    (hval : row.get fk.column = some val) (hnull : val.isNull = false) :
    ∃ rowid' row', s.row ⟨dbId, fk.refTable, rowid'⟩ = some row' ∧
      Row.holds row' fk.refColumn val = true := by
  obtain ⟨schema, hschema, hvalid⟩ := hchecked
  obtain ⟨schema', hschema', hfk⟩ := h.listed
  obtain rfl := Option.some.inj (hschema.symm.trans hschema')
  obtain ⟨store, hstore⟩ := Option.isSome_iff_exists.mp h.parent
  have hkeys := (validateConstraints_ok hvalid).2.2
  rw [checkForeignKeys, Except.forM_eq_ok_iff] at hkeys
  obtain ⟨entry, hentry, hholds⟩ :=
    checkForeignKey_ok_iff.mp (hkeys fk hfk) hc val store hval hstore hnull
  exact ⟨entry.1, entry.2, (mem_store_iff hstore).mp hentry, hholds⟩

/-- A step that keeps the rows of the parent keeps the references. -/
theorem ReferencesHold.change (h : ReferencesHold w.kvs dbId child fk)
    (hdecl : Declared w.kvs dbId child fk) (hc : fk.column.isEmpty = false)
    (hch : QuietChange dbId txId w w')
    (hparent : ∀ rowid row, w.kvs.row ⟨dbId, fk.refTable, rowid⟩ = some row →
      w'.kvs.row ⟨dbId, fk.refTable, rowid⟩ = some row) :
    ReferencesHold w'.kvs dbId child fk := by
  intro rowid row val hrow hval hnull
  have hfound : ∃ rowid' row', w.kvs.row ⟨dbId, fk.refTable, rowid'⟩ = some row' ∧
      Row.holds row' fk.refColumn val = true := by
    cases hch with
    | draw => exact h rowid row val hrow hval hnull
    | store k copy after hdb hstore hcopy hchecked =>
        simp only [store_row txId k copy after hstore] at hrow
        split_ifs at hrow with hk
        · exact (hk ▸ hchecked row hrow).refers hdecl hc hval hnull
        · exact h rowid row val hrow hval hnull
  obtain ⟨rowid', row', hrow', hholds⟩ := hfound
  exact ⟨rowid', row', hparent rowid' row' hrow', hholds⟩

/-- No INSERT into the table is given the rowid of one of its rows. -/
def FreeInsertsInto (dbId : UInt32) (table : String) (writes : List Write) : Prop :=
  ∀ x ∈ writes, x.dbId = dbId → x.table = table → x.copy = none → x.before = none

theorem InsertChange.keeps_row {table : String} (h : InsertChange dbId txId table w w')
    (hfree : FreeInsertsInto dbId table w'.writes) {rowid : RowId} {row : Row}
    (hrow : w.kvs.row ⟨dbId, table, rowid⟩ = some row) :
    w'.kvs.row ⟨dbId, table, rowid⟩ = some row := by
  obtain ⟨⟨hch, -⟩, news, hnews, hcopies⟩ := h
  cases hch with
  | draw => exact hrow
  | store k copy after hdb hstore =>
      rw [store_row txId k copy after hstore, if_neg, hrow]
      rintro rfl
      have hin : (⟨txId, dbId, table, rowid, w.kvs.row ⟨dbId, table, rowid⟩, copy, after⟩ : Write) ∈
          (w.store txId ⟨dbId, table, rowid⟩ copy after).writes :=
        List.mem_append_right _ List.mem_cons_self
      have hnew := List.append_cancel_left hnews
      have hcopy := hcopies _ (hnew ▸ List.mem_cons_self)
      exact nomatch hrow.symm.trans (hfree _ hin rfl rfl hcopy)

theorem QuietChangesIn.row_of_ne {table : String} (h : QuietChangesIn dbId txId table w w') (k : Key)
    (hne : k.table ≠ table) : w'.kvs.row k = w.kvs.row k := by
  induction h with
  | refl => rfl
  | tail _ hstep ih => exact (hstep.2 k hne).trans ih

/-- A statement on another table keeps the references. -/
theorem ReferencesHold.changes_in (h : ReferencesHold w.kvs dbId child fk)
    (hdecl : Declared w.kvs dbId child fk) (hc : fk.column.isEmpty = false) {table : String}
    (hne : fk.refTable ≠ table) (hch : QuietChangesIn dbId txId table w w') :
    ReferencesHold w'.kvs dbId child fk := by
  induction hch with
  | refl => exact h
  | tail hpre hstep ih =>
      exact ih.change (hdecl.changes (QuietChangesIn.quiet hpre).changes) hc hstep.1
        fun rowid row hrow => (hstep.2 ⟨dbId, fk.refTable, rowid⟩ hne).trans hrow

/-- An INSERT into the parent keeps the references. -/
theorem ReferencesHold.insertChanges (h : ReferencesHold w.kvs dbId child fk)
    (hdecl : Declared w.kvs dbId child fk) (hc : fk.column.isEmpty = false)
    (hch : InsertChanges dbId txId fk.refTable w w')
    (hfree : FreeInsertsInto dbId fk.refTable w'.writes) :
    ReferencesHold w'.kvs dbId child fk := by
  induction hch with
  | refl => exact h
  | tail hpre hstep ih =>
      have hquiet := (InsertChanges.quiet_in hpre).quiet.changes
      refine (ih fun x hx => hfree x ?_).change (hdecl.changes hquiet) hc hstep.1.1
        fun _ _ => hstep.keeps_row hfree
      exact Changes.mem_writes (.single hstep.1.1.change) hx

end Steps

/-! ### Calls -/

/-- What an UPDATE or DELETE leaves of a row of `table`. -/
def Statement.leavesIn (s : KvsState) (dbId : UInt32) (params : List Value) (stmt : Statement)
    (table : String) : Row → Option Row :=
  if stmt.target = some table then stmt.leaves s dbId params else some

/-- An UPDATE or DELETE of the parent takes no value away that a row of the child refers to. -/
def Statement.keepsReferences (s : KvsState) (dbId : UInt32) (child : String) (fk : ForeignKeyDef)
    (params : List Value) (stmt : Statement) : Prop :=
  stmt.rewrites = true → stmt.target = some fk.refTable →
    References fk
      (fun rowid => (s.row ⟨dbId, child, rowid⟩).bind (stmt.leavesIn s dbId params child))
      fun rowid => (s.row ⟨dbId, fk.refTable, rowid⟩).bind (stmt.leaves s dbId params)

section Statements

variable {dbId : UInt32} {txId : Option UInt32} {child : String} {fk : ForeignKeyDef} {w w' : World}
  {stmt : Statement} {fuel : Nat} {params : List Value} {r : QueryResult}
  (hno : NoTriggers w.kvs dbId)
  (hok : Prog.exec (executeSingleStatement fuel dbId stmt params txId) w = (.ok r, w'))
include hno hok

/-- After an UPDATE or DELETE of the parent the references hold if and only if what it leaves of the
rows has them. -/
theorem referencesHold_rewrites_iff (hrewrites : stmt.rewrites = true)
    (htarget : stmt.target = some fk.refTable) :
    ReferencesHold w'.kvs dbId child fk ↔ stmt.keepsReferences w.kvs dbId child fk params := by
  have hmoves : Prog.Moves (QuietChangesIn dbId txId fk.refTable) _ w :=
    executeSingleStatement_in htarget (hno fk.refTable) fuel params
  rw [Prog.Moves, hok] at hmoves
  have hchild : ∀ rowid, w'.kvs.row ⟨dbId, child, rowid⟩ =
      (w.kvs.row ⟨dbId, child, rowid⟩).bind (stmt.leavesIn w.kvs dbId params child) := by
    intro rowid
    by_cases hself : stmt.target = some child
    · rw [Statement.leavesIn, if_pos hself]
      exact executeSingleStatement_rows hno hrewrites hself hok rowid
    · have hne : child ≠ fk.refTable := fun heq => hself (heq ▸ htarget)
      rw [Statement.leavesIn, if_neg hself, Option.bind_fun_some]
      exact hmoves.row_of_ne ⟨dbId, child, rowid⟩ hne
  simp only [ReferencesHold, Statement.keepsReferences, hchild,
    executeSingleStatement_rows hno hrewrites htarget hok, hrewrites, htarget, true_imp_iff]

/-- A statement that succeeds keeps the references, unless it takes a value away from the parent. -/
theorem ReferencesHold.statement (h : ReferencesHold w.kvs dbId child fk)
    (hdecl : Declared w.kvs dbId child fk) (hc : fk.column.isEmpty = false)
    (hstmt : stmt.isPlain = true) (hkeeps : stmt.keepsReferences w.kvs dbId child fk params)
    (hfree : FreeInsertsInto dbId fk.refTable w'.writes) : ReferencesHold w'.kvs dbId child fk := by
  cases htarget : stmt.target with
  | none =>
      have hsame : w' = w := by
        have hexec : (Prog.exec (executeSingleStatement fuel dbId stmt params txId) w).2 = w :=
          executeSingleStatement_unchanged hstmt htarget fuel params
        rwa [hok] at hexec
      exact hsame ▸ h
  | some table =>
      have hmoves : Prog.Moves (QuietChangesIn dbId txId table) _ w :=
        executeSingleStatement_in htarget (hno table) fuel params
      rw [Prog.Moves, hok] at hmoves
      by_cases hparent : fk.refTable = table
      · subst hparent
        cases hrewrites : stmt.rewrites with
        | true => exact (referencesHold_rewrites_iff hno hok hrewrites htarget).mpr hkeeps
        | false =>
            have hinsert : Prog.Moves (InsertChanges dbId txId fk.refTable) _ w :=
              executeSingleStatement_inserts hrewrites htarget hno fuel params
            rw [Prog.Moves, hok] at hinsert
            exact h.insertChanges hdecl hc hinsert hfree
      · exact h.changes_in hdecl hc hparent hmoves

end Statements

/-! ### Runs -/

/-- A call that returns without an error. -/
def Call.succeeds (dbId : UInt32) (c : Call) (w : World) : Bool :=
  (Prog.exec (executeStatement c.fuel dbId c.stmt c.params c.txId) w).1.isOk

def World.withTxns (w : World) (txns : TxnManager) : World := { w with kvs := { w.kvs with txns } }

section Run

variable {dbId : UInt32} {w : World} {c : Call} (hstmt : c.stmt.isPlain = true)
  (hok : c.succeeds dbId w = true)
include hstmt hok

/-- A call that succeeds runs its statement, within a transaction of its own or not. -/
theorem Call.run_of_succeeds :
    ∃ txId txns txns' r w', Prog.exec (executeSingleStatement c.fuel dbId c.stmt c.params txId)
        (w.withTxns txns) = (.ok r, w') ∧ c.run dbId w = w'.withTxns txns' := by
  have heq : executeStatement c.fuel dbId c.stmt c.params c.txId =
      if c.txId.isNone && c.stmt.isWrite then executeAtomically c.fuel dbId c.stmt c.params
      else executeSingleStatement c.fuel dbId c.stmt c.params c.txId := by
    obtain ⟨stmt, params, txId, fuel⟩ := c
    cases stmt <;> first | rfl | exact nomatch hstmt
  rw [Call.succeeds, heq] at hok
  rw [Call.run, heq]
  split_ifs at hok ⊢ with hauto
  · rw [exec_executeAtomically] at hok ⊢
    rcases hexec : Prog.exec (executeSingleStatement c.fuel dbId c.stmt c.params
      (some w.kvs.txns.nextId)) (w.begin dbId) with ⟨outcome, w'⟩
    rw [hexec] at hok
    match outcome with
    | .ok r =>
        obtain ⟨txns', hcommit⟩ := commit_frame w' w.kvs.txns.nextId
        exact ⟨_, _, txns', r, w', hexec, hcommit⟩
    | .error (.err _) => exact nomatch hok
    | .error .panic => exact nomatch hok
    | .error .outOfFuel => exact nomatch hok
  · rcases hexec : Prog.exec (executeSingleStatement c.fuel dbId c.stmt c.params c.txId) w with
      ⟨outcome, w'⟩
    rw [hexec] at hok
    match outcome with
    | .ok r => exact ⟨c.txId, w.kvs.txns, w'.kvs.txns, r, w', hexec, rfl⟩
    | .error _ => exact nomatch hok

/-- A call that succeeds keeps the references, unless it takes a value away from the parent. -/
theorem ReferencesHold.call {child : String} {fk : ForeignKeyDef}
    (h : ReferencesHold w.kvs dbId child fk) (hdecl : Declared w.kvs dbId child fk)
    (hc : fk.column.isEmpty = false) (hno : NoTriggers w.kvs dbId)
    (hkeeps : c.stmt.keepsReferences w.kvs dbId child fk c.params)
    (hfree : FreeInsertsInto dbId fk.refTable (c.run dbId w).writes) :
    ReferencesHold (c.run dbId w).kvs dbId child fk := by
  obtain ⟨txId, txns, txns', r, w', hexec, hrun⟩ := c.run_of_succeeds hstmt hok
  have hleaves : c.stmt.leaves (w.withTxns txns).kvs dbId c.params =
      c.stmt.leaves w.kvs dbId c.params :=
    funext fun row => leaves_congr (show (w.withTxns txns).kvs.ftsTables = w.kvs.ftsTables from rfl)
      c.params c.stmt row
  have hkeeps' : c.stmt.keepsReferences (w.withTxns txns).kvs dbId child fk c.params := by
    rw [Statement.keepsReferences, Statement.leavesIn, hleaves]
    exact hkeeps
  rw [hrun] at hfree ⊢
  have h' : ReferencesHold w'.kvs dbId child fk :=
    ReferencesHold.statement (w := w.withTxns txns) hno hexec h ⟨hdecl.listed, hdecl.parent⟩ hc hstmt
      hkeeps' hfree
  exact h'

theorem Declared.call {child : String} {fk : ForeignKeyDef} (h : Declared w.kvs dbId child fk)
    (hno : NoTriggers w.kvs dbId) : Declared (c.run dbId w).kvs dbId child fk := by
  obtain ⟨txId, txns, txns', r, w', hexec, hrun⟩ := c.run_of_succeeds hstmt hok
  have hmoves := noTriggers_move dbId (w.withTxns txns) hno c.stmt hstmt c.fuel c.params txId
  rw [Prog.Moves, hexec] at hmoves
  have h' := Declared.changes (w := w.withTxns txns) ⟨h.listed, h.parent⟩
    (QuietChanges.changes hmoves)
  rw [hrun]
  exact ⟨h'.listed, h'.parent⟩

end Run

/-- Every call succeeds, and none takes away a value that the child refers to. -/
def keepReferences (dbId : UInt32) (child : String) (fk : ForeignKeyDef) : List Call → World → Prop
  | [], _ => True
  | c :: calls, w => c.succeeds dbId w = true ∧
    c.stmt.keepsReferences w.kvs dbId child fk c.params ∧
    keepReferences dbId child fk calls (c.run dbId w)

variable {dbId : UInt32} {child : String} {fk : ForeignKeyDef}

theorem keepReferences.insert {c : Call} {calls : List Call} {w : World}
    (hok : c.succeeds dbId w = true) (hinsert : c.stmt.rewrites = false)
    (hrest : keepReferences dbId child fk calls (c.run dbId w)) :
    keepReferences dbId child fk (c :: calls) w :=
  .intro hok (.intro (fun hrewrites => nomatch hinsert.symm.trans hrewrites) hrest)

theorem ReferencesHold.calls (hc : fk.column.isEmpty = false) (calls : List Call)
    (hplain : ∀ c ∈ calls, c.stmt.isPlain = true) {w : World} (h : ReferencesHold w.kvs dbId child fk)
    (hdecl : Declared w.kvs dbId child fk) (hno : NoTriggers w.kvs dbId)
    (hkeep : keepReferences dbId child fk calls w)
    (hfree : FreeInsertsInto dbId fk.refTable (runCalls dbId calls w).writes) :
    ReferencesHold (runCalls dbId calls w).kvs dbId child fk := by
  induction calls generalizing w with
  | nil => exact h
  | cons c calls ih =>
      obtain ⟨hok, hkeeps, hrest⟩ := hkeep
      have hstmt := hplain c List.mem_cons_self
      have hplain' := fun c' hc' => hplain c' (List.mem_cons_of_mem c hc')
      have hno' : NoTriggers (c.run dbId w).kvs dbId :=
        hno.of_triggers (c.run_triggers hno.plain (Call.isData_of_isPlain hstmt))
      refine ih hplain' (h.call hstmt hok hdecl hc hno hkeeps fun x hx => hfree x ?_)
        (hdecl.call hstmt hok hno) hno' hrest hfree
      exact mem_writes_runCalls calls (fun c' hc' => Call.isData_of_isPlain (hplain' c' hc')) hno'.plain
        hx

/-- On a database without triggers, statements that succeed leave the references of a child that had
no rows as they should be, as long as no UPDATE or DELETE of the parent takes away a value that is
referred to, and no INSERT into it is given a rowid in use. -/
theorem references_hold_along_run {s : KvsState} (hdecl : Declared s dbId child fk)
    (hc : fk.column.isEmpty = false) (hempty : ∀ rowid, s.row ⟨dbId, child, rowid⟩ = none)
    (hno : NoTriggers s dbId) (calls : List Call) (hplain : ∀ c ∈ calls, c.stmt.isPlain = true)
    (hkeep : keepReferences dbId child fk calls ⟨s, []⟩)
    (hfree : FreeInsertsInto dbId fk.refTable (runCalls dbId calls ⟨s, []⟩).writes) :
    ReferencesHold (runCalls dbId calls ⟨s, []⟩).kvs dbId child fk := by
  have hstart : ReferencesHold s dbId child fk := fun rowid _ _ hrow _ _ =>
    nomatch (hempty rowid).symm.trans hrow
  exact hstart.calls hc calls hplain hdecl hno hkeep hfree

/-! ### A sample run -/

namespace Sample

/-- `FOREIGN KEY (c) REFERENCES p (d)`. -/
def reference : ForeignKeyDef := ⟨"c", "p", "d", .noAction, .noAction⟩

/-- `CREATE TABLE p (d INT)`, `CREATE TABLE c (c INT, FOREIGN KEY (c) REFERENCES p (d))`. -/
def twoTables : KvsState :=
  letI := Externals.ofTexts [] []
  after [call (.createTable "p" [⟨name "d", .int, []⟩] [] false) none,
    call (.createTable "c" [⟨name "c", .int, []⟩]
      [.foreignKey [name "c"] "p" [name "d"] none none] false) none]

/-- `INSERT INTO table VALUES (n)`. -/
def insertInto (table n : String) : Call :=
  call (.insert table [] (some ⟨.values [[.value (.number n)]], [], none, none⟩)) none

/-- `DELETE FROM p WHERE d = 2`. -/
def deleteTwo : Call :=
  call (.delete ["p"] [] (some (.binaryOp (.identifier (name "d")) .eq (.value (.number "2"))))) none

/-- `DELETE FROM p`. -/
def deleteParents : Call := call (.delete ["p"] [] none) none

/-- 1 and 2 are inserted into the parent, 1 into the child, and 2 is deleted. -/
def referredCalls : List Call :=
  [insertInto "p" "1", insertInto "p" "2", insertInto "c" "1", deleteTwo]

end Sample

omit [Externals] in
theorem references_hold_after_delete :
    letI := Externals.ofTexts [] []
    ReferencesHold (runCalls 0 Sample.referredCalls ⟨Sample.twoTables, []⟩).kvs 0 "c"
      Sample.reference := by
  let _ := Externals.ofTexts [] []
  have hempty : Sample.twoTables.getTableStore 0 "c" = some ∅ := by decide
  have hchild : ((Sample.insertInto "c" "1").run 0 ((Sample.insertInto "p" "2").run 0
      ((Sample.insertInto "p" "1").run 0 ⟨Sample.twoTables, []⟩))).kvs.getTableStore 0 "c" =
        some (IndexMap.ofList [(1, .ofList [("c", .integer 1)])]) := by
    decide
  -- row 1 of the parent stays, and the only row of the child refers to it
  have hdelete : Sample.deleteTwo.stmt.keepsReferences ((Sample.insertInto "c" "1").run 0
      ((Sample.insertInto "p" "2").run 0 ((Sample.insertInto "p" "1").run 0
        ⟨Sample.twoTables, []⟩))).kvs 0 "c" Sample.reference Sample.deleteTwo.params := by
    intro _ _ rowid row val hrow hval hnull
    rw [Statement.leavesIn, if_neg (by decide)] at hrow
    beta_reduce at hrow
    rw [Option.bind_fun_some, KvsState.row, KvsState.rowAt, hchild] at hrow
    obtain ⟨-, rfl⟩ := Prod.mk.inj
      (List.mem_singleton.mp ((IndexMap.mem_entries_iff_get ..).mpr hrow))
    obtain rfl := Option.some.inj hval
    exact ⟨1, .ofList [("d", .integer 1)], by decide, by decide⟩
  have hwrites : (runCalls 0 Sample.referredCalls ⟨Sample.twoTables, []⟩).writes.all
      (fun x => x.before.isNone || x.copy.isSome) = true := by
    decide
  refine references_hold_along_run
    ⟨⟨_, rfl, List.mem_singleton.mpr (by decide)⟩, by decide⟩ (by decide)
    (fun rowid => ?_) (NoTriggers.of_empty (by decide)) _ (by decide)
    (.insert (by decide) rfl (.insert (by decide) rfl
      (.insert (by decide) rfl ⟨by decide, hdelete, trivial⟩)))
    fun x hx _ _ hcopy => ?_
  · rw [KvsState.row, KvsState.rowAt, hempty]
    rfl
  · have hfree := List.all_eq_true.mp hwrites x hx
    rw [hcopy] at hfree
    simpa using hfree

omit [Externals] in
/-- The row of the parent goes, and the child goes on referring to it. -/
theorem delete_leaves_reference_dangling :
    letI := Externals.ofTexts [] []
    let w : World := ⟨Sample.twoTables, []⟩
    let w₁ := (Sample.insertInto "p" "1").run 0 w
    let w₂ := (Sample.insertInto "c" "1").run 0 w₁
    (∀ rowid, w.kvs.row ⟨0, "c", rowid⟩ = none) ∧ Declared w.kvs 0 "c" Sample.reference ∧
      NoTriggers w.kvs 0 ∧ (Sample.insertInto "p" "1").succeeds 0 w = true ∧
      (Sample.insertInto "c" "1").succeeds 0 w₁ = true ∧
      Sample.deleteParents.succeeds 0 w₂ = true ∧
      ¬ReferencesHold (Sample.deleteParents.run 0 w₂).kvs 0 "c" Sample.reference := by
  let _ := Externals.ofTexts [] []
  have hempty : Sample.twoTables.getTableStore 0 "c" = some ∅ := by decide
  have hparents : (Sample.deleteParents.run 0 ((Sample.insertInto "c" "1").run 0
      ((Sample.insertInto "p" "1").run 0 ⟨Sample.twoTables, []⟩))).kvs.getTableStore 0 "p" =
        some ∅ := by
    decide
  refine ⟨fun rowid => ?_, ⟨⟨_, rfl, List.mem_singleton.mpr (by decide)⟩,
    by decide⟩, NoTriggers.of_empty (by decide), by decide,
    by decide, by decide, fun h => ?_⟩
  · rw [KvsState.row, KvsState.rowAt, hempty]
    rfl
  · obtain ⟨rowid', row', hrow', -⟩ := h 1 (.ofList [("c", .integer 1)]) (.integer 1)
      (by decide) (by decide) (by decide)
    beta_reduce at hrow'
    rw [KvsState.row, KvsState.rowAt, Sample.reference, hparents] at hrow'
    cases hrow'

end Skvs
