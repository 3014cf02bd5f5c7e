import Skvs.Proof.SeesDatabase

/-!
# What the clients of one database can tell apart

Two worlds in which a database is the same, with the same next transaction id and the same active
transactions of the database: whatever statement is run on the database, the outcome is the same in
both, and the worlds it ends in cannot be told apart either.
-/

namespace Skvs

open Prog

/-- A transaction, if it is active and was begun on the database. -/
def KvsState.ownTxn (s : KvsState) (dbId : UInt32) (id : UInt32) : Option TxnEntry :=
  (s.txns.active.get id).filter fun entry => entry.dbId = dbId

/-- The clients of the database cannot tell the two worlds apart. -/
structure Indistinct (dbId : UInt32) (w w' : World) : Prop where
  kvs : SameDatabase dbId w.kvs w'.kvs
  nextId : w'.kvs.txns.nextId = w.kvs.txns.nextId
  own : ∀ id, w'.kvs.ownTxn dbId id = w.kvs.ownTxn dbId id

/-- The transaction, if it is active, was begun on the database exactly if `onIt` holds. -/
def SideOf (dbId : UInt32) (onIt : Prop) (id : UInt32) (w : World) : Prop :=
  ∀ entry, w.kvs.txns.active.get id = some entry → (entry.dbId = dbId ↔ onIt)

namespace Indistinct

variable {dbId : UInt32} {w w' w'' : World}

theorem refl (dbId : UInt32) (w : World) : Indistinct dbId w w := ⟨.refl dbId w.kvs, rfl, fun _ => rfl⟩

theorem symm (h : Indistinct dbId w w') : Indistinct dbId w' w :=
  ⟨h.kvs.symm, h.nextId.symm, fun id => (h.own id).symm⟩

theorem trans (h : Indistinct dbId w w') (h' : Indistinct dbId w' w'') : Indistinct dbId w w'' :=
  ⟨h.kvs.trans h'.kvs, h'.nextId.trans h.nextId, fun id => (h'.own id).trans (h.own id)⟩

/-! ### Changes of the database -/

/-- A change of the database that leaves the transactions alone. -/
theorem change (h : Indistinct dbId w w') {s s' : KvsState} (hsame : SameDatabase dbId s s')
    (htxns : s.txns = w.kvs.txns) (htxns' : s'.txns = w'.kvs.txns) :
    Indistinct dbId { w with kvs := s } { w' with kvs := s' } where
  kvs := hsame
  nextId := by rw [htxns, htxns', h.nextId]
  own id := by
    rw [KvsState.ownTxn, KvsState.ownTxn, htxns, htxns']
    exact h.own id

theorem begin (h : Indistinct dbId w w') : Indistinct dbId (w.begin dbId) (w'.begin dbId) where
  kvs := h.kvs.withTxns _ _
  nextId := congrArg (· + 1) h.nextId
  own id := by
    have hown := h.own id
    simp only [KvsState.ownTxn] at hown
    simp only [KvsState.ownTxn, World.begin, KvsState.begin, TxnManager.begin, IndexMap.get_insert,
      h.nextId]
    split_ifs
    · rfl
    · exact hown

theorem active_eq (h : Indistinct dbId w w') {id : UInt32} (hside : SideOf dbId True id w)
    (hside' : SideOf dbId True id w') :
    w'.kvs.txns.active.get id = w.kvs.txns.active.get id := by
  have hall : ∀ v : World, SideOf dbId True id v →
      v.kvs.ownTxn dbId id = v.kvs.txns.active.get id := by
    intro v hv
    rw [KvsState.ownTxn]
    cases hget : v.kvs.txns.active.get id with
    | none => rfl
    | some entry =>
        rw [Option.filter_some, if_pos (decide_eq_true ((hv entry hget).mpr trivial))]
  rw [← hall w hside, ← hall w' hside', h.own id]

theorem erase (h : Indistinct dbId w w') (id : UInt32) {s s' : KvsState}
    (hsame : SameDatabase dbId s s') (htxns : s.txns = (w.kvs.ended id).txns)
    (htxns' : s'.txns = (w'.kvs.ended id).txns) :
    Indistinct dbId { w with kvs := s } { w' with kvs := s' } where
  kvs := hsame
  nextId := by
    rw [htxns, htxns']
    exact h.nextId
  own id' := by
    have hown := h.own id'
    simp only [KvsState.ownTxn] at hown
    simp only [KvsState.ownTxn, htxns, htxns', KvsState.ended, IndexMap.get_erase]
    split_ifs
    · rfl
    · exact hown

theorem commit (h : Indistinct dbId w w') {id : UInt32} (hside : SideOf dbId True id w)
    (hside' : SideOf dbId True id w') : Indistinct dbId (w.commit id) (w'.commit id) := by
  rw [commit_eq, commit_eq, h.active_eq hside hside']
  cases w.kvs.txns.active.get id with
  | none => exact h
  | some entry => exact h.erase id (h.kvs.withTxns _ _) rfl rfl

variable [Externals]

theorem store (h : Indistinct dbId w w') (txId : Option UInt32) {k : Key} (hk : k.dbId = dbId)
    (copy after : Option Row) :
    Indistinct dbId (w.store txId k copy after) (w'.store txId k copy after) where
  kvs := by
    have hrecord : ∀ (s s' : KvsState) (op : UndoOp), SameDatabase dbId s s' →
        SameDatabase dbId (s.record txId op) (s'.record txId op) := by
      intro s s' op hs
      cases txId with
      | none => exact hs
      | some id => exact hs.withTxns _ _
    exact (hrecord _ _ _ h.kvs).setSynced hk copy after
  nextId := by
    rw [(store_sets w txId k copy after).txns, (store_sets w' txId k copy after).txns]
    cases txId <;> exact h.nextId
  own id := by
    have hown := h.own id
    simp only [KvsState.ownTxn, (store_sets w txId k copy after).txns,
      (store_sets w' txId k copy after).txns] at hown ⊢
    cases txId with
    | none => exact hown
    | some txId =>
        simp only [KvsState.record, TxnManager.record, IndexMap.get_modify]
        split_ifs
        · rw [Option.filter_map, Option.filter_map]
          exact congrArg (Option.map _) hown
        · exact hown

theorem rollback (h : Indistinct dbId w w') {id : UInt32} (hside : SideOf dbId True id w)
    (hside' : SideOf dbId True id w') : Indistinct dbId (w.rollback id) (w'.rollback id) := by
  rw [rollback_eq, rollback_eq, h.active_eq hside hside']
  cases hget : w.kvs.txns.active.get id with
  | none => exact h
  | some entry =>
      obtain rfl : entry.dbId = dbId := (hside entry hget).mpr trivial
      exact h.erase id ((h.kvs.withTxns _ _).undoAll entry.journal) (undoAll_txns ..)
        (undoAll_txns ..)

end Indistinct

/-! ### Statements on the database -/

theorem seesRows_indistinct [Externals] (dbId : UInt32) (txId : Option UInt32) :
    SeesRows dbId txId txId (Indistinct dbId) where
  same _ _ h := h.kvs
  change _ _ _ _ h hsame htxns htxns' := h.change hsame htxns htxns'
  store _ _ _ copy after h hk := h.store txId hk copy after

section Requests

variable [Externals] {dbId : UInt32}

/-! ### Transactions -/

omit [Externals] in
theorem sideOf_record {P : Prop} {id : UInt32} {w w' : World} {txId : Option UInt32} {op : UndoOp}
    (h : SideOf dbId P id w) (htxns : w'.kvs.txns = (w.kvs.record txId op).txns) :
    SideOf dbId P id w' := by
  intro entry hentry
  rw [htxns] at hentry
  cases txId with
  | none => exact h entry hentry
  | some txId =>
      simp only [KvsState.record, TxnManager.record, IndexMap.get_modify] at hentry
      split_ifs at hentry
      · obtain ⟨entry', hentry', rfl⟩ := Option.map_eq_some_iff.mp hentry
        exact h entry' hentry'
      · exact h entry hentry

/-- No statement moves a transaction to another database. -/
theorem keptOn_sideOf (other : UInt32) (P : Prop) (id : UInt32) :
    KeptOn other (SideOf dbId P id) where
  store w txId k copy after _ h := sideOf_record h (store_sets w txId k copy after).txns
  draw _ _ h := h
  maintain w s' h hs' := by
    intro entry hentry
    rw [hs'.txns] at hentry
    exact h entry hentry

omit [Externals] in
theorem sideOf_begin (w : World) : SideOf dbId True w.kvs.txns.nextId (w.begin dbId) := by
  intro entry hentry
  obtain rfl := Option.some.inj ((IndexMap.get_insert_self ..).symm.trans hentry)
  exact iff_of_true rfl trivial

theorem executeAtomically_uniform (fuel : Nat) (stmt : Statement) (params : List Value) :
    Uniform (Indistinct dbId) (executeAtomically fuel dbId stmt params) := by
  intro w w' h
  have hsim := executeSingleStatement_together
    (seesRows_indistinct dbId (some w.kvs.txns.nextId)) fuel stmt params _ _ h.begin
  have hside : ∀ v : World, SideOf dbId True v.kvs.txns.nextId
      (exec (executeSingleStatement fuel dbId stmt params (some v.kvs.txns.nextId))
        (v.begin dbId)).2 := fun v =>
    executeSingleStatement_keeps ((keptOn_sideOf dbId True v.kvs.txns.nextId).under _) fuel stmt params
      _ (sideOf_begin v)
  have hleft := hside w
  have hright := hside w'
  rw [h.nextId] at hright
  rw [Simulates] at hsim ⊢
  rw [exec_executeAtomically, exec_executeAtomically, h.nextId]
  generalize exec (executeSingleStatement fuel dbId stmt params (some w.kvs.txns.nextId))
    (w.begin dbId) = out at hsim hleft ⊢
  generalize exec (executeSingleStatement fuel dbId stmt params (some w.kvs.txns.nextId))
    (w'.begin dbId) = out' at hsim hright ⊢
  obtain ⟨outcome, v⟩ := out
  obtain ⟨outcome', v'⟩ := out'
  obtain ⟨houtcome, hv⟩ := hsim
  cases houtcome with
  | ok heq => exact ⟨.ok heq, hv.commit hleft hright⟩
  | @error e e' heq =>
      subst heq
      cases e with
      | err => exact ⟨.error rfl, hv.rollback hleft hright⟩
      | panic | outOfFuel => exact ⟨.error rfl, hv⟩

omit [Externals] in
theorem commit_indistinct {w w' : World} (h : Indistinct dbId w w') {id : UInt32}
    (hside : SideOf dbId True id w) (hside' : SideOf dbId True id w') :
    Simulates Eq (Indistinct dbId) Eq (commit id) (commit id) w w' := by
  rw [Simulates, exec_commit, exec_commit, commit, exec_tryOnState, exec_tryOnState]
  refine ⟨?_, h.commit hside hside'⟩
  simp only [KvsState.commit, TxnManager.commit, TxnManager.take, h.active_eq hside hside']
  cases w.kvs.txns.active.get id with
  | none => exact .error rfl
  | some entry => exact .ok rfl

theorem rollback_indistinct {w w' : World} (h : Indistinct dbId w w') {id : UInt32}
    (hside : SideOf dbId True id w) (hside' : SideOf dbId True id w') :
    Simulates Eq (Indistinct dbId) Eq (rollback id) (rollback id) w w' := by
  rw [Simulates, exec_rollback, exec_rollback, rollback, exec_tryOnState, exec_tryOnState]
  refine ⟨?_, h.rollback hside hside'⟩
  simp only [KvsState.rollback, TxnManager.take, h.active_eq hside hside']
  cases w.kvs.txns.active.get id with
  | none => exact .error rfl
  | some entry => exact .ok rfl

omit [Externals] in
theorem begin_indistinct {w w' : World} (h : Indistinct dbId w w') :
    Simulates Eq (Indistinct dbId) Eq (begin dbId) (begin dbId) w w' := by
  rw [Simulates, exec_begin, exec_begin, h.nextId]
  exact ⟨.ok rfl, h.begin⟩

theorem executeStatement_indistinct {w w' : World} (h : Indistinct dbId w w') {txId : Option UInt32}
    (hside : ∀ id, txId = some id → SideOf dbId True id w)
    (hside' : ∀ id, txId = some id → SideOf dbId True id w') (fuel : Nat) (stmt : Statement)
    (params : List Value) :
    Simulates Eq (Indistinct dbId) Eq (executeStatement fuel dbId stmt params txId)
      (executeStatement fuel dbId stmt params txId) w w' := by
  have hother := together_ite (c := (txId.isNone && stmt.isWrite) = true)
    (executeAtomically_uniform fuel stmt params)
    (executeSingleStatement_together (seesRows_indistinct dbId txId) fuel stmt params) w w' h
  cases stmt with
  | startTransaction =>
      refine simulates_bind (begin_indistinct h) fun newTx _ v v' heq hv => ?_
      rw [← heq]
      exact simulates_pure rfl hv
  | commit =>
      cases txId with
      | none => exact ⟨.error rfl, h⟩
      | some id =>
          change Simulates Eq (Indistinct dbId) Eq (commit id >>= fun _ => pure QueryResult.empty)
            (commit id >>= fun _ => pure QueryResult.empty) w w'
          exact simulates_bind (commit_indistinct h (hside id rfl) (hside' id rfl))
            fun _ _ _ _ _ hv => simulates_pure rfl hv
  | rollback =>
      cases txId with
      | none => exact ⟨.error rfl, h⟩
      | some id =>
          change Simulates Eq (Indistinct dbId) Eq (rollback id >>= fun _ => pure QueryResult.empty)
            (rollback id >>= fun _ => pure QueryResult.empty) w w'
          exact simulates_bind (rollback_indistinct h (hside id rfl) (hside' id rfl))
            fun _ _ _ _ _ hv => simulates_pure rfl hv
  | _ => exact hother

theorem execute_indistinct {w w' : World} (h : Indistinct dbId w w') {txId : Option UInt32}
    (hside : ∀ id, txId = some id → SideOf dbId True id w)
    (hside' : ∀ id, txId = some id → SideOf dbId True id w') (fuel : Nat) (sql : String)
    (params : List Value) :
    Simulates Eq (Indistinct dbId) Eq (execute fuel dbId sql params txId)
      (execute fuel dbId sql params txId) w w' := by
  rw [execute]
  split
  · exact createTrigger_uniform (seesRows_indistinct dbId none).toSeesDatabase sql w w' h
  · cases parseStatements sql with
    | error e => exact ⟨.error rfl, h⟩
    | ok stmts =>
        rcases stmts with _ | ⟨stmt, _ | ⟨_, _⟩⟩
        · exact ⟨.error rfl, h⟩
        · exact executeStatement_indistinct h hside hside' fuel stmt params
        · exact ⟨.error rfl, h⟩

end Requests

end Skvs
