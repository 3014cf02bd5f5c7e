import Skvs.Proof.DroppedTable
import Skvs.Proof.SeesDatabase

/-!
# The boundaries of transactions

Statements of a transaction work on the tables themselves, and only a rollback looks at its journal.
Where no statement fails and nothing is rolled back, it shows neither in the answers nor in the
database which statements were put together in a transaction, under which ids, and when the
transactions were committed.
-/

namespace Skvs

open Prog

/-- BEGIN, COMMIT and ROLLBACK. -/
def Statement.isBoundary : Statement → Bool
  | .startTransaction | .commit | .rollback => true
  | _ => false

/-- The statements of a run, each on its own. -/
def withoutBoundaries (calls : List Call) : List Call :=
  (calls.filter fun c => !c.stmt.isBoundary).map fun c => { c with txId := none }

section

variable [Externals] {dbId : UInt32}

/-- What the statements of a run answer, those that begin or end transactions apart. -/
def answers (dbId : UInt32) : List Call → World → List (Except Fail QueryResult)
  | [], _ => []
  | c :: calls, w =>
    if c.stmt.isBoundary then answers dbId calls (c.run dbId w)
    else c.outcome dbId w :: answers dbId calls (c.run dbId w)

theorem seesRows_sameDatabase (dbId : UInt32) (txId txId' : Option UInt32) :
    SeesRows dbId txId txId' fun w w' => SameDatabase dbId w.kvs w'.kvs where
  same _ _ h := h
  change _ _ _ _ _ hsame _ _ := hsame
  store w w' k copy after h hk := by
    have hrecord : ∀ (s : KvsState) txId op, SameDatabase dbId s (s.record txId op) := by
      intro s txId op
      cases txId with
      | none => exact .refl dbId s
      | some id => exact (SameDatabase.refl dbId s).withTxns s.txns _
    exact (((hrecord w.kvs txId _).symm.trans h).trans (hrecord w'.kvs txId' _)).setSynced hk copy
      after

omit [Externals] in
theorem sameDatabase_begin (dbId dbId' : UInt32) (w : World) :
    SameDatabase dbId w.kvs (w.begin dbId').kvs :=
  (SameDatabase.refl dbId w.kvs).withTxns w.kvs.txns _

omit [Externals] in
theorem sameDatabase_commit (dbId txId : UInt32) (w : World) :
    SameDatabase dbId w.kvs (w.commit txId).kvs := by
  rw [commit_eq]
  cases w.kvs.txns.active.get txId with
  | none => exact .refl dbId w.kvs
  | some entry => exact (SameDatabase.refl dbId w.kvs).withTxns w.kvs.txns _

/-! ### One call -/

/-- BEGIN and COMMIT leave the database alone. -/
theorem Call.run_boundary {c : Call} (hboundary : c.stmt.isBoundary = true)
    (hno : c.stmt ≠ .rollback) (w : World) : SameDatabase dbId w.kvs (c.run dbId w).kvs := by
  obtain ⟨stmt, params, txId, fuel⟩ := c
  cases stmt with
  | startTransaction => exact sameDatabase_begin dbId dbId w
  | commit =>
      cases txId with
      | none => exact .refl dbId w.kvs
      | some id =>
          change SameDatabase dbId w.kvs
            (exec (Skvs.commit id >>= fun _ => pure QueryResult.empty) w).2.kvs
          rw [exec_bind_pure_snd, exec_commit]
          exact sameDatabase_commit dbId id w
  | rollback => exact absurd rfl hno
  | _ => exact absurd hboundary Bool.false_ne_true

/-- A call answers what its statement answers under some id or other. Where it succeeds, it also
leaves the database that the statement leaves. -/
theorem Call.run_alone (dbId : UInt32) {c : Call} (hboundary : c.stmt.isBoundary = false)
    (w : World) :
    ∃ txId v, SameDatabase dbId w.kvs v.kvs ∧
      c.outcome dbId w = (exec (executeSingleStatement c.fuel dbId c.stmt c.params txId) v).1 ∧
      ((c.outcome dbId w).isOk = true → SameDatabase dbId
        (exec (executeSingleStatement c.fuel dbId c.stmt c.params txId) v).2.kvs
          (c.run dbId w).kvs) := by
  obtain ⟨stmt, params, txId, fuel⟩ := c
  have hexec : executeStatement fuel dbId stmt params txId =
      if txId.isNone && stmt.isWrite then executeAtomically fuel dbId stmt params
      else executeSingleStatement fuel dbId stmt params txId := by
    cases stmt with
    | startTransaction | commit | rollback => exact absurd hboundary.symm Bool.false_ne_true
    | _ => rfl
  simp only [Call.outcome, Call.run, hexec]
  cases hauto : txId.isNone && stmt.isWrite with
  | false => exact ⟨txId, w, .refl dbId w.kvs, rfl, fun _ => .refl dbId _⟩
  | true =>
      refine ⟨some w.kvs.txns.nextId, w.begin dbId, sameDatabase_begin dbId dbId w, ?_⟩
      simp only [if_true, exec_executeAtomically]
      generalize exec (executeSingleStatement fuel dbId stmt params (some w.kvs.txns.nextId))
        (w.begin dbId) = out
      obtain ⟨outcome, v⟩ := out
      cases outcome with
      | ok result => exact ⟨rfl, fun _ => sameDatabase_commit dbId _ v⟩
      | error fail =>
          cases fail with
          | err | panic | outOfFuel => exact ⟨rfl, fun hok => absurd hok Bool.false_ne_true⟩

/-- Two calls with the same statement, in states with the same database. If one of them succeeds,
both answer the same and leave the same database. -/
theorem Call.run_regardless (c c' : Call) (hboundary : c.stmt.isBoundary = false)
    (hstmt : c'.stmt = c.stmt) (hparams : c'.params = c.params) (hfuel : c'.fuel = c.fuel)
    {w w' : World} (h : SameDatabase dbId w.kvs w'.kvs)
    (hok : (c.outcome dbId w).isOk = true ∨ (c'.outcome dbId w').isOk = true) :
    c'.outcome dbId w' = c.outcome dbId w ∧
      SameDatabase dbId (c.run dbId w).kvs (c'.run dbId w').kvs := by
  obtain ⟨txId, v, hv, hout, hrun⟩ := c.run_alone dbId hboundary w
  obtain ⟨txId', v', hv', hout', hrun'⟩ := c'.run_alone dbId (hstmt ▸ hboundary) w'
  rw [hstmt, hparams, hfuel] at hout' hrun'
  obtain ⟨houtcome, hleft⟩ := executeSingleStatement_together
    (seesRows_sameDatabase dbId txId txId') c.fuel c.stmt c.params v v'
    ((hv.symm.trans h).trans hv')
  rw [Except.rel_eq_iff, ← hout, ← hout'] at houtcome
  rw [← houtcome, or_self] at hok
  exact ⟨houtcome.symm, ((hrun hok).symm.trans hleft).trans (hrun' (houtcome ▸ hok))⟩

/-! ### A run -/

theorem run_withoutBoundaries {calls : List Call} (hno : ∀ c ∈ calls, c.stmt ≠ .rollback)
    {w w' : World} (h : SameDatabase dbId w.kvs w'.kvs)
    (hok : (∀ r ∈ answers dbId calls w, r.isOk = true) ∨
      ∀ r ∈ answers dbId (withoutBoundaries calls) w', r.isOk = true) :
    answers dbId (withoutBoundaries calls) w' = answers dbId calls w ∧
      SameDatabase dbId (runCalls dbId calls w).kvs
        (runCalls dbId (withoutBoundaries calls) w').kvs := by
  induction calls generalizing w w' with
  | nil => exact ⟨rfl, h⟩
  | cons c calls ih =>
      obtain ⟨hc, hno⟩ := List.forall_mem_cons.mp hno
      cases hboundary : c.stmt.isBoundary with
      | true =>
          have hwithout : withoutBoundaries (c :: calls) = withoutBoundaries calls := by
            rw [withoutBoundaries, List.filter_cons_of_neg (by rw [hboundary]; decide)]
            rfl
          have hanswers : answers dbId (c :: calls) w = answers dbId calls (c.run dbId w) := by
            rw [answers, if_pos hboundary]
          rw [hwithout, hanswers] at hok ⊢
          exact ih hno ((Call.run_boundary hboundary hc w).symm.trans h) hok
      | false =>
          have hwithout : withoutBoundaries (c :: calls) =
              { c with txId := none } :: withoutBoundaries calls := by
            rw [withoutBoundaries, List.filter_cons_of_pos (by rw [hboundary]; rfl)]
            rfl
          have hanswers : ∀ (c : Call) calls w, c.stmt.isBoundary = false →
              answers dbId (c :: calls) w =
                c.outcome dbId w :: answers dbId calls (c.run dbId w) := by
            intro c calls w hfalse
            rw [answers, if_neg (by rw [hfalse]; decide)]
          rw [hwithout, hanswers c calls w hboundary,
            hanswers { c with txId := none } (withoutBoundaries calls) w' hboundary] at hok ⊢
          simp only [List.forall_mem_cons] at hok
          obtain ⟨houtcome, hrun⟩ := c.run_regardless { c with txId := none } hboundary rfl rfl rfl h
            (hok.imp And.left And.left)
          obtain ⟨hrest, hend⟩ := ih hno hrun (hok.imp And.right And.right)
          exact ⟨by rw [houtcome, hrest], hend⟩

/-- **Boundaries of transactions do not show.** Two runs of the same statements on a database,
without ROLLBACK: if every statement succeeds in one of them, the statements answer the same in the
other and leave the same database, whichever ids they run under and wherever transactions begin and
commit. -/
theorem boundaries_unobserved {calls calls' : List Call} (hno : ∀ c ∈ calls, c.stmt ≠ .rollback)
    (hno' : ∀ c ∈ calls', c.stmt ≠ .rollback)
    (hsame : withoutBoundaries calls' = withoutBoundaries calls) {w w' : World}
    (h : SameDatabase dbId w.kvs w'.kvs) (hok : ∀ r ∈ answers dbId calls w, r.isOk = true) :
    answers dbId calls' w' = answers dbId calls w ∧
      SameDatabase dbId (runCalls dbId calls w).kvs (runCalls dbId calls' w').kvs := by
  obtain ⟨halone, hdb⟩ := run_withoutBoundaries hno h (.inl hok)
  rw [← hsame] at halone hdb
  obtain ⟨halone', hdb'⟩ := run_withoutBoundaries hno' (.refl dbId w'.kvs)
    (.inr fun r hr => hok r (halone ▸ hr))
  exact ⟨halone'.symm.trans halone, hdb.trans hdb'.symm⟩

end

namespace Sample

/-- Two inserts and an update in one transaction. -/
def together : List Call :=
  [call (create []) none, call .startTransaction none, call (insert [.number "1"]) (some 1),
    call (insert [.number "2"]) (some 1), call (update "5") (some 1), call .commit (some 1)]

/-- The same, each on its own. -/
def oneByOne : List Call :=
  [call (create []) none, call (insert [.number "1"]) none, call (insert [.number "2"]) none,
    call (update "5") none]

end Sample

theorem boundaries_unobserved_together :
    letI := Externals.ofTexts [] []
    answers 0 Sample.oneByOne ⟨.new [0], []⟩ = answers 0 Sample.together ⟨.new [0], []⟩ ∧
      (Sample.after Sample.together).rowAt 0 "t" 2 = some (Sample.row 5) ∧
      SameDatabase 0 (Sample.after Sample.together) (Sample.after Sample.oneByOne) := by
  let _ := Externals.ofTexts [] []
  have hno : ∀ c ∈ Sample.together ++ Sample.oneByOne, c.stmt ≠ .rollback := by
    simp [Sample.together, Sample.oneByOne, Sample.call, Sample.create, Sample.insert,
      Sample.update]
  have hboth : answers 0 Sample.oneByOne ⟨.new [0], []⟩ =
        answers 0 Sample.together ⟨.new [0], []⟩ ∧
      SameDatabase 0 (Sample.after Sample.together) (Sample.after Sample.oneByOne) :=
    boundaries_unobserved (fun c hc => hno c (List.mem_append_left _ hc))
      (fun c hc => hno c (List.mem_append_right _ hc)) rfl (.refl 0 (.new [0])) (by decide)
  exact ⟨hboth.1, by decide, hboth.2⟩

end Skvs
