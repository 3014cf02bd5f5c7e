import Skvs.Proof.WhereAgreement

/-!
# UPDATE on a table without triggers

Every row that the clause selects is replaced by the row with all SET expressions evaluated on it as
it was, whatever the order in which the store yields the rows.
-/

namespace Skvs

open Prog

variable [Externals] {dbId : UInt32} {txId : Option UInt32} {table : String} {w w' : World}

/-! ### The SET list -/

section Assignments

variable {assignments : List Assignment} (params : List Value) (oldRow : Row)

/-- The assignment that decides on a column: the last of those to it. -/
def lastAssignment (assignments : List Assignment) (c : String) : Option Assignment :=
  assignments.reverse.find? fun assignment => assignedColumn assignment = c

theorem applyAssignments_eq_foldl (hplain : setParamCount assignments = 0) (newRow : Row) :
    applyAssignments params oldRow assignments newRow 0 =
      (assignments.foldl (fun row assignment => row.insert (assignedColumn assignment)
        (evalFrom (.withRow oldRow) params assignment.value 0)) newRow, 0) := by
  induction assignments generalizing newRow with
  | nil => rfl
  | cons assignment assignments ih =>
      rw [setParamCount, List.map_cons, List.sum_cons, Nat.add_eq_zero_iff] at hplain
      obtain ⟨v, hv⟩ := eval_steady (.withRow oldRow) params assignment.value hplain.1
      have hval : evalFrom (.withRow oldRow) params assignment.value 0 = v :=
        congrArg Prod.fst (hv 0)
      rw [List.foldl_cons, hval, ← ih hplain.2]
      change applyAssignments params oldRow assignments
        (newRow.insert (assignedColumn assignment)
          (eval (.withRow oldRow) params assignment.value 0).1)
        (eval (.withRow oldRow) params assignment.value 0).2 = _
      rw [hv]

/-- Without placeholders every assigned column takes the value of its expression on the old row. -/
theorem get_updatedRow (hplain : setParamCount assignments = 0) (c : String) :
    (updatedRow assignments params oldRow).get c =
      (lastAssignment assignments c).elim (oldRow.get c) fun assignment =>
        some (evalFrom (.withRow oldRow) params assignment.value 0) := by
  rw [updatedRow, applyAssignments_eq_foldl params oldRow hplain, lastAssignment]
  simp only
  induction assignments using List.reverseRecOn with
  | nil => rfl
  | append_singleton assignments assignment ih =>
      have hplain' : setParamCount assignments = 0 := by
        rw [setParamCount, List.map_append, List.sum_append, Nat.add_eq_zero_iff] at hplain
        exact hplain.1
      rw [List.foldl_append, List.reverse_append, List.foldl_cons, List.foldl_nil,
        IndexMap.get_insert, List.reverse_singleton, List.singleton_append, List.find?_cons]
      by_cases hc : c = assignedColumn assignment
      · rw [if_pos hc, decide_eq_true hc.symm]
        rfl
      · rw [if_neg hc, decide_eq_false (Ne.symm hc)]
        exact ih hplain'

end Assignments

/-! ### The statement -/

section Run

variable {fire : Fire} (hfire : QuietFire dbId fire) (hno : w.kvs.getTriggers dbId table = [])
include hfire hno

/-- The rows that the statement has gone through are counted. -/
theorem foldlM_updateRow_affected {schema : TableSchema} {assignments : List Assignment}
    {params : List Value} {es : List (RowId × Row)} {affected n : UInt64}
    (hok : exec (es.foldlM (updateRow fire dbId table schema txId assignments params) affected) w =
      (.ok n, w')) : n = affected + .ofNat es.length := by
  induction es generalizing w affected with
  | nil =>
      obtain ⟨hn, -⟩ := Prod.mk.inj hok
      rw [← Except.ok.inj hn, List.length_nil]
      exact (UInt64.add_zero affected).symm
  | cons e es ih =>
      rw [List.foldlM_cons] at hok
      obtain ⟨m, w₁, hfirst, hok⟩ := exec_bind_eq_ok_iff.mp hok
      obtain ⟨rfl, rfl⟩ := updateRow_ok (hfire table) hno hfirst
      have hno' := (getTriggers_store w txId ⟨dbId, table, e.1⟩ (some e.2)
        (some (updatedRow assignments params e.2)) dbId table).trans hno
      calc n = affected + 1 + .ofNat es.length := ih hno' hok
        _ = affected + .ofNat (e :: es).length := counted_cons ..

end Run

/-- The table keeps its rowids; a row that the clause selects gets every assigned column at once, and
is counted. -/
theorem update_assigns {fuel : Nat} {target : TableWithJoins} {assignments : List Assignment}
    {selection : Option Expr} {params : List Value} {r : QueryResult}
    (hno : w.kvs.getTriggers dbId target.relation.name = []) (hplain : setParamCount assignments = 0)
    (hok : exec (executeSingleStatement fuel dbId (.update target assignments selection) params txId)
      w = (.ok r, w')) :
    (∃ store, w.kvs.getTableStore dbId target.relation.name = some store ∧ r = .affected (.ofNat
      (store.entries.countP fun e => selects w.kvs dbId selection params 0 e.2))) ∧
    (∀ rowid, w.kvs.row ⟨dbId, target.relation.name, rowid⟩ = none →
      w'.kvs.row ⟨dbId, target.relation.name, rowid⟩ = none) ∧
    ∀ rowid row, w.kvs.row ⟨dbId, target.relation.name, rowid⟩ = some row →
      ∃ row', w'.kvs.row ⟨dbId, target.relation.name, rowid⟩ = some row' ∧
        if selects w.kvs dbId selection params 0 row then
          ∀ c, row'.get c = (lastAssignment assignments c).elim (row.get c) fun assignment =>
            some (evalFrom (.withRow row) params assignment.value 0)
        else row' = row := by
  cases fuel with
  | zero => exact nomatch (Prod.mk.inj hok).1
  | succ fuel =>
      have hfire := fireTriggers_quiet dbId fun s => executeSingleStatement fuel dbId s [] txId
      have hrows := executeUpdate_rows hfire hno hok
      rw [hplain] at hrows
      refine ⟨?_, fun rowid hrow => ?_, fun rowid row hrow => ?_⟩
      · change exec (executeUpdate _ dbId target.relation assignments selection params txId) w = _ at hok
        rw [executeUpdate, exec_bind_ok (exec_read World.kvs w)] at hok
        obtain ⟨store, w₁, hstore, hok⟩ := exec_bind_eq_ok_iff.mp hok
        obtain ⟨hstore, rfl⟩ := orRaise_ok hstore
        obtain ⟨schema, w₂, hschema, hok⟩ := exec_bind_eq_ok_iff.mp hok
        obtain ⟨-, rfl⟩ := orRaise_ok hschema
        obtain ⟨n, w₃, hfold, hok⟩ := exec_bind_eq_ok_iff.mp hok
        obtain ⟨hr, rfl⟩ := Prod.mk.inj hok
        have hcount := foldlM_updateRow_affected hfire hno hfold
        rw [UInt64.zero_add, matchingRows, ← List.countP_eq_length_filter, hplain,
          (hashOrder_perm store.entries).countP_eq] at hcount
        exact ⟨store, hstore, (Except.ok.inj hr).symm.trans (congrArg QueryResult.affected hcount)⟩
      · rw [hrows rowid, hrow]
        rfl
      · rw [hrows rowid, hrow, Option.bind_some]
        split_ifs with hselects
        · exact ⟨_, rfl, get_updatedRow params row hplain⟩
        · exact ⟨row, rfl, rfl⟩

omit [Externals] in
/-- `UPDATE t SET a = 2` on a table with the row 1. -/
theorem update_assigns_two :
    letI := Externals.ofTexts [] []
    ∃ row', (exec (executeSingleStatement 3 0 (Sample.update "2") [] none)
      ⟨Sample.oneRow, []⟩).2.kvs.row ⟨0, "t", 1⟩ = some row' ∧
        row'.get "a" = some (.integer 2) := by
  let _ := Externals.ofTexts [] []
  let w : World := ⟨Sample.oneRow, []⟩
  have hok : exec (executeSingleStatement 3 0 (Sample.update "2") [] none) w =
      (.ok (.affected 1), (exec (executeSingleStatement 3 0 (Sample.update "2") [] none) w).2) := rfl
  obtain ⟨row', hrow', hset⟩ := (update_assigns rfl rfl hok).2.2 1 (Sample.row 1) rfl
  exact ⟨row', hrow', hset "a"⟩

end Skvs
