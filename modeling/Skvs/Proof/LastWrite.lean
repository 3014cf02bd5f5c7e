import Skvs.Proof.Autocommit

/-!
# What a failed statement leaves behind

While nothing is rolled back, a row holds what the last write of it has stored. A statement that
fails under a transaction id is not rolled back: what it has written stays, and the journal of the
transaction, if it is active, has all of it.
-/

namespace Skvs

variable [Externals]

/-- The last write to a row. -/
def lastWrite (k : Key) (writes : List Write) : Option Write :=
  writes.reverse.find? fun x => x.key = k

omit [Externals] in
theorem lastWrite_append (k : Key) (writes : List Write) (x : Write) :
    lastWrite k (writes ++ [x]) = if x.key = k then some x else lastWrite k writes := by
  rw [lastWrite, List.reverse_append, List.reverse_singleton, List.singleton_append, List.find?_cons]
  by_cases hk : x.key = k <;> simp [hk, lastWrite]

/-- Since `s`, the rows are what the writes have made of them. -/
def RowsLogged (s : KvsState) (w : World) : Prop :=
  ∀ k, w.kvs.row k = (lastWrite k w.writes).elim (s.row k) Write.after

theorem RowsLogged.change {s : KvsState} {dbId : UInt32} {txId : Option UInt32} {w w' : World}
    (h : RowsLogged s w) (hstep : Change dbId txId w w') : RowsLogged s w' := by
  cases hstep with
  | draw => exact h
  | store k copy after _ hstore =>
      intro k'
      have hkey : (Write.mk txId k.dbId k.table k.rowid (w.kvs.row k) copy after).key = k := rfl
      rw [store_row txId k copy after hstore, World.store, lastWrite_append, hkey]
      by_cases hk : k' = k
      · rw [if_pos hk, if_pos hk.symm]
        rfl
      · rw [if_neg hk, if_neg (Ne.symm hk)]
        exact h k'

/-- The journal that an entry has grown to: the writes of the transaction have been added. -/
def TxnEntry.grown (entry : TxnEntry) (txId : UInt32) (w : World) : TxnEntry :=
  { entry with
    journal := entry.journal ++ (w.writes.filter fun x => x.txId = some txId).map Write.entry }

theorem active_grown_change {dbId txId : UInt32} {tx : Option UInt32} {entry : TxnEntry}
    {w w' : World} (h : w.kvs.txns.active.get txId = some (entry.grown txId w))
    (hstep : Change dbId tx w w') :
    w'.kvs.txns.active.get txId = some (entry.grown txId w') := by
  cases hstep with
  | draw => exact h
  | store k copy after =>
      rw [store_active, h]
      simp only [World.store, TxnEntry.grown, List.filter_append, List.map_append]
      by_cases htx : tx = some txId
      · rw [if_pos htx, List.filter_cons_of_pos (by simpa using htx), Option.map_some,
          ← List.append_assoc]
        rfl
      · rw [if_neg htx, List.filter_cons_of_neg (by simpa using htx)]
        simp

/-! ### One statement under a transaction id -/

/-- What holds along a statement of a transaction that has started from `s`. -/
structure Along (s : KvsState) (dbId txId : UInt32) (entry : TxnEntry) (w : World) : Prop where
  rows : RowsLogged s w
  active : w.kvs.txns.active.get txId = some (entry.grown txId w)
  first : FirstCopies txId w
  only : OnlyWriter s txId w
  writes : ∀ x ∈ w.writes, x.txId = some txId ∧ x.dbId = dbId
  stores : ∀ db table, w.kvs.hasStore db table = s.hasStore db table

section Along

variable {s : KvsState} {dbId txId : UInt32} {entry : TxnEntry} {w w' : World}

omit [Externals] in
theorem Along.start (hactive : s.txns.active.get txId = some entry) :
    Along s dbId txId entry ⟨s, []⟩ where
  rows _ := rfl
  active := hactive.trans (congrArg some (by rw [TxnEntry.grown]; simp))
  first _ _ hx := nomatch hx
  only := ⟨fun _ _ => rfl, fun _ _ hx => (nomatch hx), fun _ _ => rfl⟩
  writes _ hx := absurd hx List.not_mem_nil
  stores _ _ := rfl

theorem Along.change (h : Along s dbId txId entry w) (hstep : Change dbId (some txId) w w') :
    Along s dbId txId entry w' := by
  refine ⟨h.rows.change hstep, active_grown_change h.active hstep, h.first.change hstep,
    h.only.change hstep, ?_, fun db table => (hstep.hasStore db table).trans (h.stores db table)⟩
  cases hstep with
  | draw => exact h.writes
  | store k copy after hdb =>
      intro x hx
      rcases List.mem_append.mp hx with hx | hx
      · exact h.writes x hx
      · rw [List.mem_singleton.mp hx]
        exact ⟨rfl, hdb⟩

omit [Externals] in
/-- All writes are those of the transaction. -/
theorem Along.journal (h : Along s dbId txId entry w) :
    w.kvs.txns.active.get txId =
      some { entry with journal := entry.journal ++ w.writes.map Write.entry } := by
  rw [h.active, TxnEntry.grown, List.filter_eq_self.mpr fun x hx => decide_eq_true (h.writes x hx).1]

/-- Rolling back after the statement is rolling back before it, for a row that the statement has not
taken for a new one. -/
theorem Along.rollback_row (h : Along s dbId txId entry w)
    (hactive : s.txns.active.get txId = some entry) (hdb : entry.dbId = dbId) (k : Key)
    (hfree : ∀ x, firstWrite txId k w.writes = some x → x.copy = none → x.before = none) :
    (w.rollback txId).kvs.row k = (World.rollback ⟨s, []⟩ txId).kvs.row k := by
  subst hdb
  rw [rollback_eq, rollback_eq, h.active, hactive]
  simp only [TxnEntry.grown]
  rw [undoAll_row_eq, undoAll_row_eq, List.find?_append,
    find?_entries fun x hx _ => (h.writes x hx).2]
  have hstores : (w.kvs.ended txId).hasStore k.dbId k.table = s.hasStore k.dbId k.table := h.stores ..
  rw [hstores]
  cases entry.journal.find? fun op => op.key entry.dbId = k with
  | some op => rfl
  | none =>
      rw [Option.none_or]
      cases hx : firstWrite txId k w.writes with
      | none => exact h.only.untouched k hx
      | some x =>
          have hcopy : x.copy = s.row k := by
            rw [← h.only.touched k x hx]
            rcases h.first k x hx with hnone | hcopy
            · rw [hnone, hfree x hx hnone]
            · exact hcopy
          change (if s.hasStore k.dbId k.table then (undoEntry x.key x.copy x.after).value else none) =
            s.row k
          rw [undoEntry_value, hcopy]
          split_ifs with hstore
          · rfl
          · exact (KvsState.row_of_no_store (Bool.eq_false_iff.mpr hstore)).symm

end Along

/-- Under the id of an active transaction, a statement that fails, like one that succeeds, leaves every
row as its last write of it has stored it, and the others as they were. The journal has grown by the
writes, so that rolling the transaction back after the statement leaves the rows as rolling it back
before would have, but for a row that an INSERT has overwritten. -/
theorem statement_journaled (s : KvsState) (dbId : UInt32) (hplain : PlainTriggers s dbId)
    (fuel : Nat) (stmt : Statement) (hwrite : stmt.isWrite = true) (params : List Value)
    (txId : UInt32) (entry : TxnEntry) (hactive : s.txns.active.get txId = some entry) :
    let w' := (Prog.exec (executeStatement fuel dbId stmt params (some txId)) ⟨s, []⟩).2
    (∀ k, w'.kvs.row k = (lastWrite k w'.writes).elim (s.row k) Write.after) ∧
      w'.kvs.txns.active.get txId =
        some { entry with journal := entry.journal ++ w'.writes.map Write.entry } ∧
      (entry.dbId = dbId → ∀ k,
        (∀ x, firstWrite txId k w'.writes = some x → x.copy = none → x.before = none) →
        (Prog.exec (rollback txId) w').2.kvs.row k =
          (Prog.exec (rollback txId) ⟨s, []⟩).2.kvs.row k) := by
  intro w'
  have hmoves := executeSingleStatement_moves fuel dbId stmt (stmt.isPlain_of_isWrite hwrite) params
    (some txId) ⟨s, []⟩ hplain
  have hw' : Changes dbId (some txId) ⟨s, []⟩ w' := by
    change Changes dbId (some txId) ⟨s, []⟩
      (Prog.exec (executeStatement fuel dbId stmt params (some txId)) ⟨s, []⟩).2
    rw [executeStatement_write hwrite]
    exact hmoves
  have h : Along s dbId txId entry w' :=
    hw'.keeps (.start hactive) fun _ _ hv hstep => hv.change hstep
  refine ⟨h.rows, h.journal, fun hdb k hfree => ?_⟩
  rw [exec_rollback, exec_rollback]
  exact h.rollback_row hactive hdb k hfree

omit [Externals] in
/-- The second tuple is refused and the row of the first one stays, under an active id as under one
that was never issued. -/
theorem failed_statement_keeps_row :
    letI := Externals.ofTexts [] []
    let s := Sample.after [Sample.call (Sample.create [.notNull]) none,
      Sample.call .startTransaction none]
    let out := fun txId => Prog.exec
      (executeStatement 3 0 (Sample.insert [.number "2", .null]) [] (some txId)) ⟨s, []⟩
    s.txns.isActive 1 = true ∧ s.row ⟨0, "t", 1⟩ = none ∧
      ((out 1).1 = .error (.err (.constraintViolation "a cannot be NULL")) ∧
        (out 1).2.kvs.row ⟨0, "t", 1⟩ = some (Sample.row 2)) ∧
      (out 7).1 = .error (.err (.constraintViolation "a cannot be NULL")) ∧
        (out 7).2.kvs.row ⟨0, "t", 1⟩ = some (Sample.row 2) := by
  decide

omit [Externals] in
/-- Rolling the transaction back removes that row. -/
theorem statement_journaled_insert :
    letI := Externals.ofTexts [] []
    let s := Sample.after [Sample.call (Sample.create [.notNull]) none,
      Sample.call .startTransaction none]
    let w' := (Prog.exec
      (executeStatement 3 0 (Sample.insert [.number "2", .null]) [] (some 1)) ⟨s, []⟩).2
    w'.kvs.row ⟨0, "t", 1⟩ = some (Sample.row 2) ∧
      (Prog.exec (rollback 1) w').2.kvs.row ⟨0, "t", 1⟩ = none := by
  let _ := Externals.ofTexts [] []
  intro s w'
  have h := statement_journaled s 0 (NoTriggers.of_empty (by decide)).plain 3
    (Sample.insert [.number "2", .null]) rfl [] 1 ⟨0, []⟩ (by decide)
  refine ⟨by decide, (h.2.2 rfl ⟨0, "t", 1⟩ fun x hx _ => ?_).trans (by decide)⟩
  have hwrites : w'.writes = [⟨some 1, 0, "t", 1, none, none, some (Sample.row 2)⟩] := by
    decide
  rw [show (Prog.exec (executeStatement 3 0 (Sample.insert [.number "2", .null]) [] (some 1))
    ⟨s, []⟩).2.writes = _ from hwrites] at hx
  rw [List.mem_singleton.mp (List.mem_of_find?_eq_some hx)]

end Skvs
