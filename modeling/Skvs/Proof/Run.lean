import Skvs.Proof.Statement

/-!
# Runs of statements

A call is one statement with its parameters and its transaction id. A run interleaves the calls of
any number of transactions, statement by statement.
-/

namespace Skvs

variable [Externals]

structure Call where
  stmt : Statement
  params : List Value
  txId : Option UInt32
  fuel : Nat

/-- The world after a call, whatever its outcome. -/
def Call.run (dbId : UInt32) (c : Call) (w : World) : World :=
  (Prog.exec (executeStatement c.fuel dbId c.stmt c.params c.txId) w).2

def runCalls (dbId : UInt32) (calls : List Call) (w : World) : World :=
  calls.foldl (fun w c => c.run dbId w) w

theorem runCalls_append (dbId : UInt32) (calls calls' : List Call) (w : World) :
    runCalls dbId (calls ++ calls') w = runCalls dbId calls' (runCalls dbId calls w) :=
  List.foldl_append

/-- Calls on any databases, one after the other. -/
def runCallsOn (calls : List (UInt32 × Call)) (w : World) : World :=
  calls.foldl (fun w c => c.2.run c.1 w) w

theorem runCallsOn_append (calls calls' : List (UInt32 × Call)) (w : World) :
    runCallsOn (calls ++ calls') w = runCallsOn calls' (runCallsOn calls w) :=
  List.foldl_append

/-- The calls that start a transaction: BEGIN, and a write without a transaction. -/
def Call.begins (c : Call) : Bool :=
  match c.stmt with
  | .startTransaction => true
  | stmt => c.txId.isNone && stmt.isWrite

/-- A plain statement, BEGIN, COMMIT or ROLLBACK. -/
def Call.isData (c : Call) : Bool :=
  match c.stmt with
  | .startTransaction | .commit | .rollback => true
  | stmt => stmt.isPlain

/-- The transaction that a call commits or rolls back. -/
def Call.ends (c : Call) : Option UInt32 :=
  match c.stmt with
  | .commit | .rollback => c.txId
  | _ => none

omit [Externals] in
theorem Call.isData_of_isPlain {c : Call} (h : c.stmt.isPlain = true) : c.isData = true := by
  obtain ⟨stmt, params, txId, fuel⟩ := c
  cases stmt <;> first | rfl | exact nomatch h

omit [Externals] in
theorem Statement.isPlain_of_isWrite {stmt : Statement} (h : stmt.isWrite = true) :
    stmt.isPlain = true := by
  cases stmt <;> first | rfl | exact nomatch h

theorem executeStatement_write {stmt : Statement} (h : stmt.isWrite = true) (fuel : Nat)
    (dbId : UInt32) (params : List Value) (txId : Option UInt32) :
    executeStatement fuel dbId stmt params txId =
      match txId with
      | none => executeAtomically fuel dbId stmt params
      | some id => executeSingleStatement fuel dbId stmt params (some id) := by
  cases txId <;> cases stmt <;> first | rfl | exact nomatch h

/-! ### Starting and ending a transaction -/

def World.begin (w : World) (dbId : UInt32) : World := { w with kvs := w.kvs.begin dbId }

def World.commit (w : World) (txId : UInt32) : World :=
  { w with kvs := (w.kvs.commit txId).toOption.getD w.kvs }

def World.rollback (w : World) (txId : UInt32) : World :=
  { w with kvs := (w.kvs.rollback txId).toOption.getD w.kvs }

omit [Externals] in
theorem exec_begin (dbId : UInt32) (w : World) :
    Prog.exec (begin dbId) w = (.ok w.kvs.txns.nextId, w.begin dbId) := rfl

omit [Externals] in
theorem exec_tryOnState (f : KvsState → Except SkvsError KvsState) (w : World) :
    Prog.exec (tryOnState f) w =
      (((f w.kvs).mapError Fail.err).map fun _ => (), { w with kvs := (f w.kvs).toOption.getD w.kvs }) := by
  have hread : Prog.exec (tryOnState f) w =
      Prog.exec (do
        let state' ← Prog.ofExcept ((f w.kvs).mapError Fail.err)
        onState fun _ => state') w := rfl
  rw [hread]
  cases f w.kvs <;> rfl

omit [Externals] in
theorem exec_commit (txId : UInt32) (w : World) :
    (Prog.exec (commit txId) w).2 = w.commit txId := by
  rw [commit, exec_tryOnState]
  rfl

theorem exec_rollback (txId : UInt32) (w : World) :
    (Prog.exec (rollback txId) w).2 = w.rollback txId := by
  rw [rollback, exec_tryOnState]
  rfl

/-- The state with a transaction taken off the active ones. -/
def KvsState.ended (s : KvsState) (txId : UInt32) : KvsState :=
  { s with txns := { s.txns with active := s.txns.active.erase txId } }

omit [Externals] in
theorem commit_eq (w : World) (txId : UInt32) :
    w.commit txId = match w.kvs.txns.active.get txId with
      | some _ => { w with kvs := w.kvs.ended txId }
      | none => w := by
  simp only [World.commit, KvsState.commit, TxnManager.commit, TxnManager.take]
  cases w.kvs.txns.active.get txId <;> rfl

theorem rollback_eq (w : World) (txId : UInt32) :
    w.rollback txId = match w.kvs.txns.active.get txId with
      | some entry => { w with kvs := undoAll (w.kvs.ended txId) entry.dbId entry.journal }
      | none => w := by
  simp only [World.rollback, KvsState.rollback, TxnManager.take]
  cases w.kvs.txns.active.get txId <;> rfl

omit [Externals] in
theorem commit_active (w : World) (txId id : UInt32) :
    (w.commit txId).kvs.txns.active.get id =
      if id = txId then none else w.kvs.txns.active.get id := by
  rw [commit_eq]
  split
  · exact IndexMap.get_erase _ txId id
  · next hnone =>
      split_ifs with hid
      · rw [hid, hnone]
      · rfl

theorem rollback_active (w : World) (txId id : UInt32) :
    (w.rollback txId).kvs.txns.active.get id =
      if id = txId then none else w.kvs.txns.active.get id := by
  rw [rollback_eq]
  split
  · simp only [undoAll_txns]
    exact IndexMap.get_erase _ txId id
  · next hnone =>
      split_ifs with hid
      · rw [hid, hnone]
      · rfl

omit [Externals] in
theorem commit_nextId (w : World) (txId : UInt32) :
    (w.commit txId).kvs.txns.nextId = w.kvs.txns.nextId := by
  rw [commit_eq]
  split <;> rfl

theorem rollback_nextId (w : World) (txId : UInt32) :
    (w.rollback txId).kvs.txns.nextId = w.kvs.txns.nextId := by
  rw [rollback_eq]
  split
  · simp only [undoAll_txns]
    rfl
  · rfl

omit [Externals] in
theorem commit_frame (w : World) (txId : UInt32) :
    ∃ txns, w.commit txId = { w with kvs := { w.kvs with txns } } := by
  rw [commit_eq]
  split <;> exact ⟨_, rfl⟩

theorem rollback_triggers (w : World) (txId : UInt32) :
    (w.rollback txId).kvs.triggers = w.kvs.triggers := by
  rw [rollback_eq]
  split
  · exact undoAll_triggers _ _ _
  · rfl

theorem rollback_schemas (w : World) (txId : UInt32) :
    (w.rollback txId).kvs.schemas = w.kvs.schemas := by
  rw [rollback_eq]
  split
  · exact undoAll_schemas _ _ _
  · rfl

theorem rollback_hasStore (w : World) (txId dbId : UInt32) (table : String) :
    (w.rollback txId).kvs.hasStore dbId table = w.kvs.hasStore dbId table := by
  rw [rollback_eq]
  split
  · exact undoAll_hasStore _ _ _ _ _
  · rfl

/-- A write without a transaction: begun, run under the id drawn, then committed or rolled back. -/
theorem exec_executeAtomically (fuel : Nat) (dbId : UInt32) (stmt : Statement) (params : List Value)
    (w : World) :
    Prog.exec (executeAtomically fuel dbId stmt params) w =
      match Prog.exec (executeSingleStatement fuel dbId stmt params (some w.kvs.txns.nextId))
        (w.begin dbId) with
      | (.ok result, w') => (.ok result, w'.commit w.kvs.txns.nextId)
      | (.error (.err e), w') => (.error (.err e), w'.rollback w.kvs.txns.nextId)
      | (.error fail, w') => (.error fail, w') := by
  rw [executeAtomically, Prog.exec_bind_ok (exec_begin dbId w),
    Prog.exec_bind_ok (Prog.exec_attempt _ _)]
  rcases Prog.exec (executeSingleStatement fuel dbId stmt params (some w.kvs.txns.nextId))
    (w.begin dbId) with ⟨fail | result, w'⟩
  · cases fail with
    | err e =>
        simp only
        rw [Prog.exec_bind_ok (Prog.exec_attempt _ _), exec_rollback]
        rfl
    | _ => rfl
  · simp only
    rw [Prog.exec_bind_ok (Prog.exec_attempt _ _), exec_commit]
    rfl

/-- The world afterwards, whatever the outcome. -/
theorem executeAtomically_ends (fuel : Nat) (dbId : UInt32) (stmt : Statement) (params : List Value)
    (w : World) :
    let id := w.kvs.txns.nextId
    let w₁ := (Prog.exec (executeSingleStatement fuel dbId stmt params (some id)) (w.begin dbId)).2
    let w' := (Prog.exec (executeAtomically fuel dbId stmt params) w).2
    w' = w₁.commit id ∨ w' = w₁.rollback id ∨ w' = w₁ := by
  simp only [exec_executeAtomically]
  rcases Prog.exec (executeSingleStatement fuel dbId stmt params (some w.kvs.txns.nextId))
    (w.begin dbId) with ⟨fail | result, w₁⟩
  · cases fail with
    | err e => exact Or.inr (Or.inl rfl)
    | _ => exact Or.inr (Or.inr rfl)
  · exact Or.inl rfl

/-- The world that the statement of a call reaches under the id `txId`. -/
def Call.reached (dbId : UInt32) (c : Call) (txId : Option UInt32) (w : World) : World :=
  (Prog.exec (executeSingleStatement c.fuel dbId c.stmt c.params txId) w).2

/-- The world in which the statement of a call starts. -/
def Call.start (dbId : UInt32) (c : Call) (w : World) : World :=
  if c.begins then w.begin dbId else w

/-- Where a call leads: the statement runs under the given id, or under one drawn for it, which is
then committed, rolled back or, if the engine itself stops, left active. -/
inductive Leads (dbId : UInt32) (c : Call) (w : World) : World → Prop
  | statement (hstmt : c.stmt.isPlain = true) (hbegins : c.begins = false) :
      Leads dbId c w (c.reached dbId c.txId w)
  | committed (hstmt : c.stmt.isPlain = true) (hbegins : c.begins = true) :
      Leads dbId c w
        ((c.reached dbId (some w.kvs.txns.nextId) (w.begin dbId)).commit w.kvs.txns.nextId)
  | undone (hstmt : c.stmt.isPlain = true) (hbegins : c.begins = true) :
      Leads dbId c w
        ((c.reached dbId (some w.kvs.txns.nextId) (w.begin dbId)).rollback w.kvs.txns.nextId)
  | stopped (hstmt : c.stmt.isPlain = true) (hbegins : c.begins = true) :
      Leads dbId c w (c.reached dbId (some w.kvs.txns.nextId) (w.begin dbId))
  | begin (hbegins : c.begins = true) : Leads dbId c w (w.begin dbId)
  | commit {id : UInt32} (hid : c.ends = some id) (hbegins : c.begins = false) :
      Leads dbId c w (w.commit id)
  | rollback {id : UInt32} (hstmt : c.stmt = .rollback) (hid : c.ends = some id)
      (hbegins : c.begins = false) : Leads dbId c w (w.rollback id)
  | nothing (hbegins : c.begins = false) : Leads dbId c w w

theorem executeAtomically_leads (dbId : UInt32) (c : Call) (hstmt : c.stmt.isPlain = true)
    (hbegins : c.begins = true) (w : World) :
    Leads dbId c w (Prog.exec (executeAtomically c.fuel dbId c.stmt c.params) w).2 := by
  have hcommitted := @Leads.committed _ dbId c w hstmt hbegins
  have hundone := @Leads.undone _ dbId c w hstmt hbegins
  have hstopped := @Leads.stopped _ dbId c w hstmt hbegins
  rw [Call.reached] at hcommitted hundone hstopped
  rw [exec_executeAtomically]
  generalize Prog.exec (executeSingleStatement c.fuel dbId c.stmt c.params
    (some w.kvs.txns.nextId)) (w.begin dbId) = out at hcommitted hundone hstopped
  obtain ⟨outcome, w'⟩ := out
  match outcome with
  | .ok _ => exact hcommitted
  | .error (.err _) => exact hundone
  | .error .panic => exact hstopped
  | .error .outOfFuel => exact hstopped

theorem Call.run_leads (dbId : UInt32) (c : Call) (hdata : c.isData = true) (w : World) :
    Leads dbId c w (c.run dbId w) := by
  have hplain : c.stmt.isPlain = true → (c.begins = (c.txId.isNone && c.stmt.isWrite)) →
      Leads dbId c w (Prog.exec (if c.txId.isNone && c.stmt.isWrite
        then executeAtomically c.fuel dbId c.stmt c.params
        else executeSingleStatement c.fuel dbId c.stmt c.params c.txId) w).2 := by
    intro hstmt hbegins
    cases hauto : c.txId.isNone && c.stmt.isWrite with
    | true => exact executeAtomically_leads dbId c hstmt (hbegins.trans hauto) w
    | false => exact .statement hstmt (hbegins.trans hauto)
  obtain ⟨stmt, params, txId, fuel⟩ := c
  cases stmt with
  | startTransaction => exact .begin rfl
  | commit =>
      cases txId with
      | none => exact .nothing rfl
      | some id =>
          change Leads dbId _ w (Prog.exec (Skvs.commit id >>= fun _ => pure QueryResult.empty) w).2
          rw [Prog.exec_bind_pure_snd, exec_commit]
          exact .commit rfl rfl
  | rollback =>
      cases txId with
      | none => exact .nothing rfl
      | some id =>
          change Leads dbId _ w (Prog.exec (Skvs.rollback id >>= fun _ => pure QueryResult.empty) w).2
          rw [Prog.exec_bind_pure_snd, exec_rollback]
          exact .rollback rfl rfl rfl
  | query q => exact hplain rfl rfl
  | insert table columns source => exact hplain rfl rfl
  | update table assignments selection => exact hplain rfl rfl
  | delete tables from_ selection => exact hplain rfl rfl
  | _ => exact nomatch hdata

/-! ### The steps of a run

`R txId` is what a step of a statement under `txId` may do; `spared` are the ids of the transactions
that the run may start and end. -/

section Steps

variable (R : Option UInt32 → World → World → Prop) (dbId : UInt32) (spared : UInt32 → Prop)

inductive Step : World → World → Prop
  | change {txId : Option UInt32} {w w' : World} (h : R txId w w') : Step w w'
  | begin (w : World) (h : spared w.kvs.txns.nextId) : Step w (w.begin dbId)
  | commit (w : World) {txId : UInt32} (h : spared txId) : Step w (w.commit txId)
  | rollback (w : World) {txId : UInt32} (h : spared txId) : Step w (w.rollback txId)

abbrev Steps : World → World → Prop := Relation.ReflTransGen (Step R dbId spared)

variable {R dbId spared}

theorem Steps.of_changes {txId : Option UInt32} {w w' : World}
    (h : Relation.ReflTransGen (R txId) w w') : Steps R dbId spared w w' :=
  Relation.ReflTransGen.mono (fun _ _ hstep => Step.change hstep) w w' h

theorem Steps.keeps {P : World → Prop} {w w' : World} (h : Steps R dbId spared w w') (hw : P w)
    (hstep : ∀ w w', P w → Step R dbId spared w w' → P w') : P w' := by
  induction h with
  | refl => exact hw
  | tail _ hstep' ih => exact hstep _ _ ih hstep'

/-- Under the invariant `J`, a plain statement moves along the steps of its transaction. -/
def StatementsMove (R : Option UInt32 → World → World → Prop) (dbId : UInt32)
    (J : World → Prop) : Prop :=
  ∀ w, J w → ∀ stmt : Statement, stmt.isPlain = true → ∀ fuel params txId,
    Prog.Moves (Relation.ReflTransGen (R txId))
      (executeSingleStatement fuel dbId stmt params txId) w

variable {J : World → Prop} (hR : StatementsMove R dbId J)
  (hbegin : ∀ w, J w → J (w.begin dbId))
include hR hbegin

/-- A call takes steps that spare the ids it neither draws nor ends. -/
theorem Call.run_steps (c : Call) (hdata : c.isData = true) {w : World} (hJ : J w)
    (hbegins : c.begins = true → spared w.kvs.txns.nextId)
    (hends : ∀ id, c.ends = some id → spared id) : Steps R dbId spared w (c.run dbId w) := by
  have hreached : c.stmt.isPlain = true → c.begins = true →
      Steps R dbId spared w (c.reached dbId (some w.kvs.txns.nextId) (w.begin dbId)) :=
    fun hstmt hb => Relation.ReflTransGen.trans (.single (.begin w (hbegins hb)))
      (Steps.of_changes (hR _ (hbegin w hJ) c.stmt hstmt c.fuel c.params _))
  have h := c.run_leads dbId hdata w
  generalize c.run dbId w = w' at h ⊢
  cases h with
  | statement hstmt => exact Steps.of_changes (hR w hJ c.stmt hstmt c.fuel c.params c.txId)
  | committed hstmt hb => exact (hreached hstmt hb).tail (.commit _ (hbegins hb))
  | undone hstmt hb => exact (hreached hstmt hb).tail (.rollback _ (hbegins hb))
  | stopped hstmt hb => exact hreached hstmt hb
  | begin hb => exact .single (.begin w (hbegins hb))
  | commit hid => exact .single (.commit w (hends _ hid))
  | rollback _ hid => exact .single (.rollback w (hends _ hid))
  | nothing => exact .refl

end Steps

theorem Changes.nextId {dbId : UInt32} {txId : Option UInt32} {w w' : World}
    (h : Changes dbId txId w w') : w'.kvs.txns.nextId = w.kvs.txns.nextId := by
  refine h.keeps (P := fun v => v.kvs.txns.nextId = w.kvs.txns.nextId) rfl fun v v' hv hstep => ?_
  cases hstep with
  | draw => exact hv
  | store k copy after =>
      rw [(store_sets v txId k copy after).txns, ← hv]
      cases txId <;> rfl

theorem plainTriggers_move (dbId : UInt32) :
    StatementsMove (Change dbId) dbId fun w => PlainTriggers w.kvs dbId :=
  fun w hplain stmt hstmt fuel params txId =>
    executeSingleStatement_moves fuel dbId stmt hstmt params txId w hplain

/-- A plain statement of a transaction moves along the steps of that transaction. -/
theorem Call.run_changes {dbId txId : UInt32} {c : Call} (hstmt : c.stmt.isPlain = true)
    (htx : c.txId = some txId) {w : World} (hplain : PlainTriggers w.kvs dbId) :
    Changes dbId (some txId) w (c.run dbId w) := by
  have hrun : c.run dbId w = c.reached dbId (some txId) w := by
    obtain ⟨stmt, params, tx, fuel⟩ := c
    obtain rfl : tx = some txId := htx
    cases stmt <;> first | rfl | exact nomatch hstmt
  rw [hrun]
  exact executeSingleStatement_moves c.fuel dbId c.stmt hstmt c.params (some txId) w hplain

theorem Step.triggers {dbId : UInt32} {spared : UInt32 → Prop} {w w' : World}
    (h : Step (Change dbId) dbId spared w w') : w'.kvs.triggers = w.kvs.triggers := by
  cases h with
  | change hch => exact hch.triggers
  | begin => rfl
  | @commit _ id =>
      obtain ⟨_, hframe⟩ := commit_frame w id
      rw [hframe]
  | rollback => exact rollback_triggers ..

theorem PlainTriggers.step {dbId : UInt32} {spared : UInt32 → Prop} {w w' : World}
    (h : PlainTriggers w.kvs dbId) (hstep : Step (Change dbId) dbId spared w w') :
    PlainTriggers w'.kvs dbId :=
  h.of_triggers hstep.triggers

/-! ### Triggers and the log along a call -/

theorem Changes.mem_writes {dbId : UInt32} {txId : Option UInt32} {w w' : World}
    (h : Changes dbId txId w w') {x : Write} (hx : x ∈ w.writes) : x ∈ w'.writes := by
  refine h.keeps (P := fun v => x ∈ v.writes) hx fun v v' hv hstep => ?_
  cases hstep with
  | draw => exact hv
  | store => exact List.mem_append_left _ hv

section Call

variable {dbId : UInt32} {w : World} (hplain : PlainTriggers w.kvs dbId) (c : Call)
  (hdata : c.isData = true)
include hplain hdata

theorem Call.run_steps_all : Steps (Change dbId) dbId (fun _ => True) w (c.run dbId w) :=
  c.run_steps (plainTriggers_move dbId) (fun _ hJ => hJ) hdata hplain (fun _ => trivial)
    fun _ _ => trivial

theorem Call.run_triggers : (c.run dbId w).kvs.triggers = w.kvs.triggers :=
  Steps.keeps (c.run_steps_all hplain hdata) (P := fun v => v.kvs.triggers = w.kvs.triggers) rfl
    fun _ _ hv hstep => hstep.triggers.trans hv

theorem Call.run_mem_writes {x : Write} (hx : x ∈ w.writes) : x ∈ (c.run dbId w).writes := by
  refine Steps.keeps (c.run_steps_all hplain hdata) (P := fun v => x ∈ v.writes) hx
    fun v v' hv hstep => ?_
  cases hstep with
  | change hch => exact Changes.mem_writes (.single hch) hv
  | begin => exact hv
  | commit => exact hv
  | rollback => exact hv

end Call

theorem runCalls_triggers {dbId : UInt32} (calls : List Call)
    (hdata : ∀ c ∈ calls, c.isData = true) {w : World} (hplain : PlainTriggers w.kvs dbId) :
    (runCalls dbId calls w).kvs.triggers = w.kvs.triggers := by
  induction calls generalizing w with
  | nil => rfl
  | cons c calls ih =>
      have hc := c.run_triggers hplain (hdata c List.mem_cons_self)
      exact (ih (fun c' hc' => hdata c' (List.mem_cons_of_mem c hc')) (hplain.of_triggers hc)).trans hc

theorem mem_writes_runCalls {dbId : UInt32} (calls : List Call)
    (hdata : ∀ c ∈ calls, c.isData = true) {w : World} (hplain : PlainTriggers w.kvs dbId) {x : Write}
    (hx : x ∈ w.writes) : x ∈ (runCalls dbId calls w).writes := by
  induction calls generalizing w with
  | nil => exact hx
  | cons c calls ih =>
      have hc := hdata c List.mem_cons_self
      exact ih (fun c' hc' => hdata c' (List.mem_cons_of_mem c hc'))
        (hplain.of_triggers (c.run_triggers hplain hc)) (c.run_mem_writes hplain hc hx)

/-! ### The transaction counter along a call -/

/-- Every call that begins a transaction moves the counter on by one, and no other call moves it. -/
theorem Call.run_nextId {dbId : UInt32} (c : Call) (hdata : c.isData = true) {w : World}
    (hplain : PlainTriggers w.kvs dbId) :
    (c.run dbId w).kvs.txns.nextId = w.kvs.txns.nextId + if c.begins then 1 else 0 := by
  have hreached : ∀ txId w, PlainTriggers w.kvs dbId → c.stmt.isPlain = true →
      (c.reached dbId txId w).kvs.txns.nextId = w.kvs.txns.nextId := fun txId w hplain hstmt =>
    Changes.nextId
      (executeSingleStatement_moves c.fuel dbId c.stmt hstmt c.params txId w hplain)
  have hbegun : c.stmt.isPlain = true →
      (c.reached dbId (some w.kvs.txns.nextId) (w.begin dbId)).kvs.txns.nextId =
        w.kvs.txns.nextId + 1 := hreached _ (w.begin dbId) hplain
  have hzero : w.kvs.txns.nextId + 0 = w.kvs.txns.nextId := UInt32.add_zero _
  have h := c.run_leads dbId hdata w
  generalize c.run dbId w = w' at h ⊢
  cases h with
  | statement hstmt hb => rw [hreached _ w hplain hstmt, hb, if_neg Bool.false_ne_true, hzero]
  | committed hstmt hb => rw [commit_nextId, hbegun hstmt, hb, if_pos rfl]
  | undone hstmt hb => rw [rollback_nextId, hbegun hstmt, hb, if_pos rfl]
  | stopped hstmt hb => rw [hbegun hstmt, hb, if_pos rfl]
  | begin hb =>
      rw [hb, if_pos rfl]
      rfl
  | commit _ hb => rw [commit_nextId, hb, if_neg Bool.false_ne_true, hzero]
  | rollback _ _ hb => rw [rollback_nextId, hb, if_neg Bool.false_ne_true, hzero]
  | nothing hb => rw [hb, if_neg Bool.false_ne_true, hzero]

/-! ### Sample calls on a table `t` with one column `a` -/

omit [Externals] in
/-- Surroundings that can read one text only find the statements of this text in any text they can
read. -/
theorem parseStatements_ofTexts {known text : String} {stmts stmts' : List Statement}
    (h : @parseStatements (.ofTexts [(known, stmts)] []) text = .ok stmts') : stmts = stmts' := by
  unfold parseStatements at h
  have hparse : (Externals.ofTexts [(known, stmts)] []).parseSql text =
      ([(known, stmts)].lookup text).elim (.error "unknown text") .ok := rfl
  rw [hparse, List.lookup_cons] at h
  cases hknown : text == known with
  | true =>
      rw [hknown] at h
      exact Except.ok.inj h
  | false =>
      rw [hknown] at h
      cases h

namespace Sample

def call (stmt : Statement) (txId : Option UInt32) : Call := ⟨stmt, [], txId, 3⟩

def name (s : String) : Ident := ⟨s, s⟩

def create (options : List ColumnOption) : Statement :=
  .createTable "t" [⟨name "a", .int, options⟩] [] false

def drop : Statement := .drop .table ["t"] false

/-- `INSERT INTO t VALUES (v), …`. -/
def insert (values : List SqlValue) : Statement :=
  .insert "t" [] (some ⟨.values (values.map fun v => [.value v]), [], none, none⟩)

/-- `CREATE INDEX i ON t (a)`. -/
def createIndex : Statement :=
  .createIndex (some "i") "t" [⟨.identifier (name "a"), none⟩] false false

/-- `DELETE FROM t`. -/
def delete : Statement := .delete ["t"] [] none

/-- `UPDATE t SET a = n`. -/
def update (n : String) : Statement :=
  .update ⟨.table "t" none, []⟩ [⟨[name "a"], .value (.number n)⟩] none

/-- The transaction 2 updates a row, and 3 begins, inserts one and commits. -/
def writesInBetween : List Call :=
  [call (update "5") (some 2), call .startTransaction none, call (insert [.number "7"]) (some 3),
    call .commit (some 3)]

/-- A row of the table. -/
def row (n : Int64) : Row := .ofList [("a", .integer n)]

/-- The state that calls lead to from an empty database 0. -/
def after (calls : List Call) : KvsState := (runCalls 0 calls ⟨.new [0], []⟩).kvs

/-- A table with a row with 1. -/
def oneRow : KvsState :=
  letI := Externals.ofTexts [] []
  after [call (create []) none, call (insert [.number "1"]) none]

/-- ROLLBACK puts row 1 back into a table that was dropped and made anew in between, and whose
rowids start again at 1. -/
def restoredRow (options : List ColumnOption) : List Call :=
  [call (create options) none, call (insert [.number "1"]) none, call .startTransaction none,
    call delete (some 2), call drop none, call (create options) none, call .rollback (some 2)]

end Sample

end Skvs
