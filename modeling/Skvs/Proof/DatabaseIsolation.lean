import Skvs.Api
import Skvs.Proof.Indistinct
import Skvs.Proof.OtherDatabases

/-!
# Databases do not observe each other

A server has several databases, one counter of transaction ids, and one list of active transactions.
The clients of a database see of the requests on the others only how many ids these take: put any
other requests in their place that take as many, and every answer on the database is the same, BEGIN
and its ids included. For this each side must leave the transactions of the other alone.
-/

namespace Skvs

open Prog

/-! ### A statement on another database -/

section Other

variable {dbId other : UInt32} (hne : dbId ≠ other)
include hne

theorem Indistinct.begin_other {w w' : World} (h : Indistinct dbId w w') {other' : UInt32}
    (hne' : dbId ≠ other') : Indistinct dbId (w.begin other) (w'.begin other') where
  kvs := h.kvs.withTxns _ _
  nextId := congrArg (· + 1) h.nextId
  own id := by
    have hown := h.own id
    simp only [KvsState.ownTxn] at hown
    simp only [KvsState.ownTxn, World.begin, KvsState.begin, TxnManager.begin, IndexMap.get_insert,
      h.nextId]
    split_ifs
    · simp [Option.filter_some, hne.symm, hne'.symm]
    · exact hown

theorem ownTxn_begin_other (w : World) :
    (w.begin other).kvs.ownTxn dbId w.kvs.txns.nextId = none := by
  simp only [KvsState.ownTxn, World.begin, KvsState.begin, TxnManager.begin, IndexMap.get_insert_self,
    Option.filter_some, decide_eq_false hne.symm]
  rfl

omit hne in
/-- A transaction of another database ends. -/
theorem Indistinct.ended {w v : World} {id : UInt32} (hnone : w.kvs.ownTxn dbId id = none)
    (hkvs : SameDatabase dbId w.kvs v.kvs) (htxns : v.kvs.txns = (w.kvs.ended id).txns) :
    Indistinct dbId w v where
  kvs := hkvs
  nextId := by
    rw [htxns]
    rfl
  own id' := by
    rw [KvsState.ownTxn, htxns, KvsState.ended, IndexMap.get_erase]
    split_ifs with hid
    · rw [hid, hnone]
      rfl
    · rfl

omit hne in
theorem Indistinct.commit_other {w : World} {id : UInt32} (hnone : w.kvs.ownTxn dbId id = none) :
    Indistinct dbId w (w.commit id) := by
  rw [commit_eq]
  cases w.kvs.txns.active.get id with
  | none => exact .refl dbId w
  | some entry => exact .ended hnone ((SameDatabase.refl dbId w.kvs).withTxns _ _) rfl

variable [Externals]

omit hne in
theorem Indistinct.rollback_other {w : World} {id : UInt32} (hnone : w.kvs.ownTxn dbId id = none) :
    Indistinct dbId w (w.rollback id) := by
  rw [rollback_eq]
  cases hget : w.kvs.txns.active.get id with
  | none => exact .refl dbId w
  | some entry =>
      have hentry : dbId ≠ entry.dbId := by
        intro heq
        rw [KvsState.ownTxn, hget, Option.filter_some, if_pos (decide_eq_true heq.symm)] at hnone
        exact absurd hnone (Option.some_ne_none entry)
      exact .ended hnone (((SameDatabase.refl dbId w.kvs).withTxns w.kvs.txns _).trans
        (SameDatabase.undoAll_other hentry _ entry.journal)) (undoAll_txns ..)

/-- A statement on another database, in a transaction of another. -/
theorem keptUnder_indistinct {w : World} {txId : Option UInt32}
    (hnone : ∀ id, txId = some id → w.kvs.ownTxn dbId id = none) :
    KeptUnder other txId (Indistinct dbId w) where
  store v k copy after hk h := by
    have htxns := (store_sets v txId k copy after).txns
    have hrecord : SameDatabase dbId v.kvs (v.kvs.record txId (undoEntry k copy after)) := by
      cases txId with
      | none => exact .refl dbId v.kvs
      | some id => exact (SameDatabase.refl dbId v.kvs).withTxns v.kvs.txns _
    refine h.trans ⟨hrecord.trans (SameDatabase.setSynced_other hne _ hk copy after), ?_, fun id => ?_⟩
    · rw [htxns]
      cases txId <;> rfl
    · cases txId with
      | none =>
          rw [KvsState.ownTxn, htxns]
          rfl
      | some txId =>
          have hown := (h.own txId).trans (hnone txId rfl)
          rw [KvsState.ownTxn] at hown
          simp only [KvsState.ownTxn, htxns, KvsState.record, TxnManager.record, IndexMap.get_modify]
          split_ifs with hid
          · rw [hid, Option.filter_map, hown]
            exact congrArg (Option.map _) hown
          · rfl
  draw v table h := h.trans ⟨SameDatabase.getNextRowid_other hne _ table, rfl, fun _ => rfl⟩
  maintain v s' h hs' := by
    refine h.trans ⟨SameDatabase.maintenance_other hne hs', ?_, fun id => ?_⟩
    · rw [hs'.txns]
    · rw [KvsState.ownTxn, KvsState.ownTxn, hs'.txns]

theorem executeStatement_other (c : Call) {w : World}
    (hnone : ∀ id, c.txId = some id → w.kvs.ownTxn dbId id = none) :
    Indistinct dbId (if c.begins then w.begin other else w) (c.run other w) := by
  obtain ⟨stmt, params, txId, fuel⟩ := c
  have hplain : Indistinct dbId (if txId.isNone && stmt.isWrite then w.begin other else w)
      (exec (if txId.isNone && stmt.isWrite then executeAtomically fuel other stmt params
        else executeSingleStatement fuel other stmt params txId) w).2 := by
    cases hauto : txId.isNone && stmt.isWrite with
    | false =>
        exact executeSingleStatement_keeps (keptUnder_indistinct hne hnone) fuel stmt params w
          (.refl dbId w)
    | true =>
        have hshadow := ownTxn_begin_other hne w
        have hstmt : Indistinct dbId (w.begin other)
            (exec (executeSingleStatement fuel other stmt params (some w.kvs.txns.nextId))
              (w.begin other)).2 := by
          refine executeSingleStatement_keeps (keptUnder_indistinct hne fun id hid => ?_) fuel stmt
            params _ (.refl dbId _)
          rwa [← Option.some.inj hid]
        have hends := executeAtomically_ends fuel other stmt params w
        simp only [if_true]
        simp only at hends
        have hown := (hstmt.own w.kvs.txns.nextId).trans hshadow
        rcases hends with hend | hend | hend
        · rw [hend]
          exact hstmt.trans (.commit_other hown)
        · rw [hend]
          exact hstmt.trans (.rollback_other hown)
        · rw [hend]
          exact hstmt
  cases stmt with
  | startTransaction => exact .refl dbId _
  | commit =>
      cases txId with
      | none => exact .refl dbId w
      | some id =>
          change Indistinct dbId w (exec (Skvs.commit id >>= fun _ => pure QueryResult.empty) w).2
          rw [exec_bind_pure_snd, exec_commit]
          exact .commit_other (hnone id rfl)
  | rollback =>
      cases txId with
      | none => exact .refl dbId w
      | some id =>
          change Indistinct dbId w (exec (Skvs.rollback id >>= fun _ => pure QueryResult.empty) w).2
          rw [exec_bind_pure_snd, exec_rollback]
          exact .rollback_other (hnone id rfl)
  | _ => exact hplain

end Other

/-! ### Requests -/

section Requests

variable [Externals] {dbId other : UInt32}

def isCreateTrigger (sql : String) : Bool :=
  "CREATE TRIGGER".toList.isPrefixOf (toUppercase (String.ofList (Text.trimStart sql.toList))).toList

/-- Whether a text starts a transaction: BEGIN, or a write without a transaction. -/
def queryBegins (sql : String) (txId : Option UInt32) : Bool :=
  !isCreateTrigger sql &&
    match parseStatements sql with
    | .ok [stmt] => Call.begins ⟨stmt, [], txId, 0⟩
    | _ => false

def Request.begins : Request → Bool
  | .query sql _ txId => queryBegins sql txId
  | .beginTransaction => true
  | .commitTransaction _ | .rollbackTransaction _ => false

omit [Externals] in
/-- The transaction that a request is about. -/
def Request.carries : Request → Option UInt32
  | .query _ _ txId => txId
  | .beginTransaction => none
  | .commitTransaction txId | .rollbackTransaction txId => some txId

theorem execute_other (hne : dbId ≠ other) (fuel : Nat) (sql : String) (params : List Value)
    {txId : Option UInt32} {w : World}
    (hnone : ∀ id, txId = some id → w.kvs.ownTxn dbId id = none) :
    Indistinct dbId (if queryBegins sql txId then w.begin other else w)
      (exec (execute fuel other sql params txId) w).2 := by
  rw [execute, queryBegins, isCreateTrigger]
  cases "CREATE TRIGGER".toList.isPrefixOf
      (toUppercase (String.ofList (Text.trimStart sql.toList))).toList with
  | true =>
      simp only [Bool.not_true, Bool.false_and, if_true]
      rw [createTrigger, exec_bind, exec_ofExcept]
      cases parseTrigger sql with
      | error e => exact .refl dbId w
      | ok trigger =>
          exact ⟨SameDatabase.addTrigger_other hne _ _ _, rfl, fun _ => rfl⟩
  | false =>
      simp only [Bool.not_false, Bool.true_and, Bool.false_eq_true, if_false]
      rw [exec_bind, exec_ofExcept]
      cases parseStatements sql with
      | error e => exact .refl dbId w
      | ok stmts =>
          rcases stmts with _ | ⟨stmt, _ | ⟨_, _⟩⟩
          · exact .refl dbId w
          · exact executeStatement_other hne ⟨stmt, params, txId, fuel⟩ hnone
          · exact .refl dbId w

variable (base64Decode : String → Option (List UInt8)) (fuel : Nat)

theorem serve_other (hne : dbId ≠ other) (r : Request) {w : World}
    (hside : ∀ id, r.carries = some id → SideOf dbId False id w) :
    Indistinct dbId (if r.begins then w.begin other else w)
      (exec (r.serve base64Decode fuel other) w).2 := by
  have hnone : ∀ id, r.carries = some id → w.kvs.ownTxn dbId id = none := by
    intro id hid
    rw [KvsState.ownTxn]
    cases hget : w.kvs.txns.active.get id with
    | none => rfl
    | some entry =>
        rw [Option.filter_some, if_neg (mt of_decide_eq_true (hside id hid entry hget).mp)]
  cases r with
  | query sql params txId =>
      have hrun := execute_other hne fuel sql
        (params.map fun v => (Value.fromJson base64Decode v).getD .null) hnone
      rw [Request.serve, exec_bind_pure_snd, query, exec_bind_pure_snd]
      exact hrun
  | beginTransaction => exact .refl dbId _
  | commitTransaction txId =>
      rw [Request.serve, exec_bind_pure_snd, exec_commit]
      exact .commit_other (hnone txId rfl)
  | rollbackTransaction txId =>
      rw [Request.serve, exec_bind_pure_snd, exec_rollback]
      exact .rollback_other (hnone txId rfl)

theorem serve_indistinct {w w' : World} (h : Indistinct dbId w w') (r : Request)
    (hside : ∀ id, r.carries = some id → SideOf dbId True id w)
    (hside' : ∀ id, r.carries = some id → SideOf dbId True id w') :
    Simulates Eq (Indistinct dbId) Eq (r.serve base64Decode fuel dbId)
      (r.serve base64Decode fuel dbId) w w' := by
  cases r with
  | query sql params txId =>
      refine simulates_bind (simulates_bind (execute_indistinct h hside hside' fuel sql _)
        fun result _ _ _ heq hv => simulates_pure (A := Eq) ?_ hv) fun _ _ _ _ heq hv =>
          simulates_pure ?_ hv
      · rw [heq]
      · rw [heq]
  | beginTransaction =>
      refine simulates_bind (begin_indistinct h) fun _ _ _ _ heq hv => simulates_pure ?_ hv
      rw [heq]
  | commitTransaction txId =>
      exact simulates_bind (commit_indistinct h (hside txId rfl) (hside' txId rfl))
        fun _ _ _ _ _ hv => simulates_pure rfl hv
  | rollbackTransaction txId =>
      exact simulates_bind (rollback_indistinct h (hside txId rfl) (hside' txId rfl))
        fun _ _ _ _ _ hv => simulates_pure rfl hv

end Requests

/-! ### Runs -/

section Runs

variable [Externals] (base64Decode : String → Option (List UInt8)) (fuel : Nat) (dbId : UInt32)

def serveAll (requests : List (UInt32 × Request)) (w : World) : World :=
  requests.foldl (fun w r => (exec (r.2.serve base64Decode fuel r.1) w).2) w

/-- The replies to the requests on the database, in the order of the run. -/
def repliesOn : List (UInt32 × Request) → World → List (Except Fail Reply)
  | [], _ => []
  | r :: requests, w =>
    let served := exec (r.2.serve base64Decode fuel r.1) w
    if r.1 = dbId then served.1 :: repliesOn requests served.2 else repliesOn requests served.2

/-- Along the run no request on the database is about an active transaction of another one, and no
request on another one is about an active transaction of the database. -/
def KeepsApart : List (UInt32 × Request) → World → Prop
  | [], _ => True
  | r :: requests, w =>
    (∀ id, r.2.carries = some id → SideOf dbId (r.1 = dbId) id w) ∧
      KeepsApart requests (exec (r.2.serve base64Decode fuel r.1) w).2

/-- The same request on the database, or two on others that take as many ids. -/
inductive AlikeOn : UInt32 × Request → UInt32 × Request → Prop
  | onIt (r : Request) : AlikeOn (dbId, r) (dbId, r)
  | onOthers (other other' : UInt32) (r r' : Request) (hne : dbId ≠ other) (hne' : dbId ≠ other')
      (hbegins : r'.begins = r.begins) : AlikeOn (other, r) (other', r')

variable {dbId}

/-- **Databases do not observe each other.** -/
theorem others_not_observed {requests requests' : List (UInt32 × Request)}
    (halike : List.Forall₂ (AlikeOn dbId) requests requests') {w w' : World}
    (hsame : Indistinct dbId w w') (hapart : KeepsApart base64Decode fuel dbId requests w)
    (hapart' : KeepsApart base64Decode fuel dbId requests' w') :
    repliesOn base64Decode fuel dbId requests' w' = repliesOn base64Decode fuel dbId requests w ∧
      Indistinct dbId (serveAll base64Decode fuel requests w)
        (serveAll base64Decode fuel requests' w') := by
  induction halike generalizing w w' with
  | nil => exact ⟨rfl, hsame⟩
  | cons hr _ ih =>
      cases hr with
      | onIt r =>
          have hside : ∀ {v : World} {id : UInt32}, SideOf dbId (dbId = dbId) id v →
              SideOf dbId True id v := fun h entry hentry =>
            (h entry hentry).trans (iff_of_true rfl trivial)
          obtain ⟨hreply, hworld⟩ := serve_indistinct base64Decode fuel hsame r
            (fun id hid => hside (hapart.1 id hid)) fun id hid => hside (hapart'.1 id hid)
          obtain ⟨hrest, hend⟩ := ih hworld hapart.2 hapart'.2
          refine ⟨?_, hend⟩
          rw [repliesOn, repliesOn, if_pos rfl, if_pos rfl, hrest, Except.rel_eq_iff.mp hreply]
      | onOthers other other' r r' hne hne' hbegins =>
          have hside : ∀ {o : UInt32} {v : World} {id : UInt32}, dbId ≠ o →
              SideOf dbId (o = dbId) id v → SideOf dbId False id v := fun hne h entry hentry =>
            (h entry hentry).trans (iff_of_false (Ne.symm hne) id)
          have hleft := serve_other base64Decode fuel hne r fun id hid => hside hne (hapart.1 id hid)
          have hright := serve_other base64Decode fuel hne' r' fun id hid =>
            hside hne' (hapart'.1 id hid)
          have hstart : Indistinct dbId (if r.begins then w.begin other else w)
              (if r'.begins then w'.begin other' else w') := by
            rw [hbegins]
            split_ifs
            · exact hsame.begin_other hne hne'
            · exact hsame
          obtain ⟨hrest, hend⟩ := ih ((hleft.symm.trans hstart).trans hright) hapart.2 hapart'.2
          refine ⟨?_, hend⟩
          rw [repliesOn, repliesOn, if_neg (Ne.symm hne), if_neg (Ne.symm hne'), hrest]

end Runs

section Decidable

variable [Externals] (base64Decode : String → Option (List UInt8)) (fuel : Nat) (dbId : UInt32)

omit [Externals] in
theorem sideOf_iff {onIt : Prop} {id : UInt32} {w : World} :
    SideOf dbId onIt id w ↔ ∀ entry ∈ w.kvs.txns.active.get id, (entry.dbId = dbId ↔ onIt) := .rfl

instance (onIt : Prop) [Decidable onIt] (id : UInt32) (w : World) :
    Decidable (SideOf dbId onIt id w) :=
  decidable_of_iff' _ (sideOf_iff dbId)

instance decidableKeepsApart : ∀ (requests : List (UInt32 × Request)) (w : World),
    Decidable (KeepsApart base64Decode fuel dbId requests w)
  | [], _ => .isTrue trivial
  | r :: requests, w =>
    have : Decidable (∀ id ∈ r.2.carries, SideOf dbId (r.1 = dbId) id w) :=
      Option.decidableForallMem r.2.carries
    have := decidableKeepsApart requests (exec (r.2.serve base64Decode fuel r.1) w).2
    inferInstanceAs (Decidable (_ ∧ _))

end Decidable

/-! ### A run -/

/-- A client of database 0 inserts a row and takes it back, after another client has begun a
transaction in database 1, or has inserted a row there. -/
def Sample.interleaved (first : Request) : List (UInt32 × Request) :=
  [(1, first), (0, .beginTransaction), (0, .query "insert" [] (some 4)), (0, .rollbackTransaction 4)]

theorem others_not_observed_interleaved :
    letI := Externals.ofTexts [("insert", [Sample.insert [.number "5"]])] []
    let w : World := ⟨Sample.twoDatabases, []⟩
    repliesOn (fun _ => none) 3 0 (Sample.interleaved (.query "insert" [] none)) w =
      repliesOn (fun _ => none) 3 0 (Sample.interleaved .beginTransaction) w := by
  let _ := Externals.ofTexts [("insert", [Sample.insert [.number "5"]])] []
  intro w
  have halike : List.Forall₂ (AlikeOn 0) (Sample.interleaved .beginTransaction)
      (Sample.interleaved (.query "insert" [] none)) :=
    .cons (.onOthers 1 1 _ _ (by decide) (by decide) (by decide))
      (.cons (.onIt _) (.cons (.onIt _) (.cons (.onIt _) .nil)))
  exact (others_not_observed (fun _ => none) 3 halike (.refl 0 w) (by decide) (by decide)).1

end Skvs
