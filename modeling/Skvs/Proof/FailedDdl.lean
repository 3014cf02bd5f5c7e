import Skvs.Proof.DroppedTable
import Skvs.Proof.SerialRun

/-!
# Statements on the schema that fail

No journal covers CREATE, ALTER and DROP: what such a statement changed before it failed stays. It
fails in one place though, since every operation and every name of its list is checked before it
changes anything. A failed statement therefore leaves the state that the part of its list before the
failing element leaves.
-/

namespace Skvs

open Prog

/-- The statements that create, alter or drop a table or an index. -/
def Statement.isSchemaChange : Statement → Bool
  | .createTable .. | .alterTable .. | .createIndex .. | .createVirtualTable .. => true
  | .drop .table .. | .drop .index .. => true
  | _ => false

/-- How many elements a statement goes through one after the other. -/
def Statement.elements : Statement → Nat
  | .alterTable _ _ operations => operations.length
  | .drop _ names _ => names.length
  | _ => 0

/-- The statement with the first `n` elements of its list only. -/
def Statement.onlyFirst (n : Nat) : Statement → Statement
  | .alterTable name ifExists operations => .alterTable name ifExists (operations.take n)
  | .drop objectType names ifExists => .drop objectType (names.take n) ifExists
  | stmt => stmt

/-- Two states with the same contents: a database without tables may have a map of schemas or not. -/
structure SameContents (s s' : KvsState) : Prop where
  rest : s' = { s with schemas := s'.schemas }
  schema : ∀ dbId table, s'.getSchema dbId table = s.getSchema dbId table

theorem SameContents.refl (s : KvsState) : SameContents s s := ⟨rfl, fun _ _ => rfl⟩

theorem sameContents_ensured (s : KvsState) (dbId : UInt32) : SameContents s (s.ensured dbId) := by
  refine ⟨rfl, fun db table => ?_⟩
  simp only [KvsState.getSchema, KvsState.ensured, IndexMap.get_insertIfNew]
  split
  · next hdb =>
      subst hdb
      cases hget : s.schemas.get db <;> simp [IndexMap.getD, hget]
  · rfl

section

variable [Externals] {dbId : UInt32} {w w' : World} {e : SkvsError}

/-! ### One element -/

theorem exec_alterOperation_error {table : String} {op : AlterTableOperation}
    (h : exec (alterOperation dbId table op) w = (.error (.err e), w')) : w' = w := by
  rw [alterOperation, exec_bind, exec_read] at h
  cases op with
  | renameTable => cases (Prod.mk.inj h).1
  | other => exact (Prod.mk.inj h).2.symm
  | addColumn | dropColumn =>
      cases hschema : w.kvs.getSchema dbId table with
      | none =>
          simp only [hschema] at h
          cases (Prod.mk.inj h).1
      | some schema =>
          simp only [hschema, pure_bind] at h
          split at h
          · exact (Prod.mk.inj h).2.symm
          · cases (Prod.mk.inj h).1
  | renameColumn old new =>
      cases hschema : w.kvs.getSchema dbId table with
      | none =>
          simp only [hschema] at h
          cases (Prod.mk.inj h).1
      | some schema =>
          simp only [hschema, pure_bind] at h
          cases hcol : schema.columns.get old.value with
          | none =>
              simp only [hcol, orRaise] at h
              exact (Prod.mk.inj h).2.symm
          | some colDef =>
              simp only [hcol, orRaise, pure_bind] at h
              split at h <;> cases (Prod.mk.inj h).1

/-! ### The list of a statement -/

/-- A failed run left the state as it was, or it is the run of the elements up to one that changed
nothing: without that one the statement succeeds, and with it there is the same error. -/
def StopsAt (run : Nat → Db QueryResult) (elements : Nat) (e : SkvsError) (w w' : World) : Prop :=
  SameContents w.kvs w'.kvs ∨ ∃ n < elements, ∃ before, exec (run n) w = (.ok .empty, before) ∧
    exec (run (n + 1)) w = (.error (.err e), w') ∧ SameContents before.kvs w'.kvs

omit [Externals] in
theorem StopsAt.of_unchanged {run : Nat → Db QueryResult} {elements : Nat} (h : w' = w) :
    StopsAt run elements e w w' := .inl (h ▸ .refl _)

omit [Externals] in
/-- A loop over the elements of a list, between a start and an end that do not fail. -/
theorem StopsAt.of_loop {α β : Type} {f : β → α → Db β} {b : β} {l : List α}
    (hf : ∀ b x w w', exec (f b x) w = (.error (.err e), w') → SameContents w.kvs w'.kvs)
    (h : exec (l.foldlM f b >>= fun _ => pure QueryResult.empty) w = (.error (.err e), w')) :
    StopsAt (fun n => (l.take n).foldlM f b >>= fun _ => pure QueryResult.empty) l.length e w w' := by
  have hloop : exec (l.foldlM f b) w = (.error (.err e), w') := by
    rcases hrun : exec (l.foldlM f b) w with ⟨e' | b', w₁⟩
    · rw [exec_bind_error hrun] at h
      obtain ⟨he, rfl⟩ := Prod.mk.inj h
      rw [Except.error.inj he]
    · rw [exec_bind_ok hrun] at h
      exact nomatch (Prod.mk.inj h).1
  obtain ⟨done, x, rest, b', before, rfl, hdone, hx⟩ := exists_of_foldlM_error hloop
  refine .inr ⟨done.length, by simp, before, ?_, ?_, hf b' x before w' hx⟩
  · simp only [List.take_left]
    rw [exec_bind_ok hdone, exec_pure]
  · have htake : (done ++ x :: rest).take (done.length + 1) = done ++ [x] := by
      rw [List.append_cons, List.take_left' (by simp)]
    have hfirst : exec ((done ++ [x]).foldlM f b) w = (.error (.err e), w') := by
      rw [List.foldlM_append, exec_bind_ok hdone, List.foldlM_cons, exec_bind_error hx]
    simp only [htake]
    rw [exec_bind_error hfirst]

/-! ### The statements -/

theorem exec_createTable_error {name : String} {columns : List SqlColumnDef}
    {constraints : List TableConstraint} {ifNotExists : Bool}
    (h : exec (createTable dbId name columns constraints ifNotExists) w = (.error (.err e), w')) :
    SameContents w.kvs w'.kvs := by
  rw [createTable, ensureSchemas, exec_bind_ok (p := onState _) rfl, exec_bind_ok (exec_read ..)] at h
  split at h
  · split at h
    · cases (Prod.mk.inj h).1
    · obtain ⟨-, rfl⟩ := Prod.mk.inj h
      exact sameContents_ensured w.kvs dbId
  · cases (Prod.mk.inj h).1

theorem exec_createVirtualTable_error {name : String} {ifNotExists : Bool} {moduleName : Ident}
    {moduleArgs : List Ident}
    (h : exec (createVirtualTable dbId name ifNotExists moduleName moduleArgs) w =
      (.error (.err e), w')) : SameContents w.kvs w'.kvs := by
  rw [createVirtualTable] at h
  split at h
  · obtain ⟨-, rfl⟩ := Prod.mk.inj h
    exact .refl w.kvs
  · simp only [ensureSchemas] at h
    rw [exec_bind_ok (p := onState _) rfl, exec_bind_ok (exec_read ..)] at h
    split at h
    · split at h
      · cases (Prod.mk.inj h).1
      · obtain ⟨-, rfl⟩ := Prod.mk.inj h
        exact sameContents_ensured w.kvs dbId
    · cases (Prod.mk.inj h).1

theorem exec_createIndex_error {name : Option String} {table : String} {columns : List OrderByExpr}
    {unique ifNotExists : Bool}
    (h : exec (createIndex dbId name table columns unique ifNotExists) w = (.error (.err e), w')) :
    w' = w := by
  cases hschema : w.kvs.getSchema dbId table with
  | some schema =>
      rw [exec_createIndex hschema] at h
      split at h
      · exact (Prod.mk.inj h).2.symm
      · exact nomatch (Prod.mk.inj h).1
  | none =>
      have hcases := @createIndex_cases _ dbId name table columns unique ifNotExists w
      rcases hcases with hsame | ⟨schema, -, hget, -⟩
      · rwa [h] at hsame
      · exact nomatch hschema.symm.trans hget

/-- On a table that exists, ALTER TABLE is its loop. -/
theorem exec_alterTable_loop {name : String} {schema : TableSchema} (ifExists : Bool)
    (ops : List AlterTableOperation) (hschema : w.kvs.getSchema dbId name = some schema) :
    exec (alterTable dbId name ifExists ops) w =
      exec (ops.foldlM (alterOperation dbId) name >>= fun _ => pure QueryResult.empty) w := by
  obtain ⟨schemas, hdb, hget⟩ := Option.bind_eq_some_iff.mp hschema
  have hcontains : schemas.contains name = true := by
    rw [IndexMap.contains, hget, Option.isSome_some]
  rw [alterTable, exec_bind_ok (exec_read ..)]
  simp only [hdb, orRaise, pure_bind, hcontains, Bool.not_true, Bool.false_eq_true, if_false]

theorem exec_alterTable_missing {name : String} (ifExists : Bool) (ops : List AlterTableOperation)
    (hnone : w.kvs.getSchema dbId name = none) : (exec (alterTable dbId name ifExists ops) w).2 = w := by
  rw [alterTable, exec_bind_ok (exec_read ..)]
  cases hdb : w.kvs.schemas.get dbId with
  | none => simp only [orRaise]; rfl
  | some schemas =>
      have hcontains : schemas.contains name = false := by
        rw [KvsState.getSchema, hdb, Option.bind_some] at hnone
        rw [IndexMap.contains, hnone, Option.isSome_none]
      simp only [orRaise, pure_bind, hcontains, Bool.not_false, if_true]
      cases ifExists <;> rfl

theorem alterTable_stopsAt {name : String} {ifExists : Bool} {ops : List AlterTableOperation}
    (h : exec (alterTable dbId name ifExists ops) w = (.error (.err e), w')) :
    StopsAt (fun n => alterTable dbId name ifExists (ops.take n)) ops.length e w w' := by
  cases hschema : w.kvs.getSchema dbId name with
  | none =>
      have hsame := exec_alterTable_missing ifExists ops hschema
      rw [h] at hsame
      exact .of_unchanged hsame
  | some schema =>
      simp only [StopsAt, exec_alterTable_loop ifExists _ hschema] at h ⊢
      exact StopsAt.of_loop (fun _ _ w w' hop => exec_alterOperation_error hop ▸ .refl w.kvs) h

omit [Externals] in
theorem dropTable_stopsAt {names : List String} {ifExists : Bool}
    (h : exec (dropTable dbId names ifExists) w = (.error (.err e), w')) :
    StopsAt (fun n => dropTable dbId (names.take n) ifExists) names.length e w w' := by
  simp only [StopsAt, dropTable, forM_eq_foldlM] at h ⊢
  refine StopsAt.of_loop (fun _ table w w' hone => ?_) h
  rw [ensureSchemas, exec_bind_ok (p := onState _) rfl, exec_bind_ok (exec_read ..)] at hone
  split at hone
  · obtain ⟨-, rfl⟩ := Prod.mk.inj hone
    exact sameContents_ensured w.kvs dbId
  · cases (Prod.mk.inj hone).1

theorem dropIndex_stopsAt {names : List String} {ifExists : Bool}
    (h : exec (dropIndex dbId names ifExists) w = (.error (.err e), w')) :
    StopsAt (fun n => dropIndex dbId (names.take n) ifExists) names.length e w w' := by
  have hread {α : Type} (f : KvsState → Db α) : exec (Prog.read World.kvs >>= f) w = exec (f w.kvs) w :=
    rfl
  simp only [StopsAt, dropIndex, forM_eq_foldlM, hread] at h ⊢
  cases hdb : w.kvs.schemas.get dbId with
  | none =>
      simp only [hdb, orRaise] at h
      exact StopsAt.of_unchanged (Prod.mk.inj h).2.symm
  | some schemas =>
      simp only [hdb, orRaise, pure_bind] at h ⊢
      refine StopsAt.of_loop (fun _ indexName w w' hone => ?_) h
      rw [exec_bind_ok (exec_read ..)] at hone
      split at hone
      · cases (Prod.mk.inj hone).1
      · split at hone
        · exact (Prod.mk.inj hone).2 ▸ .refl w.kvs
        · cases (Prod.mk.inj hone).1

/-! ### The statement at the top level -/

theorem executeStatement_schemaChange {stmt : Statement} (hstmt : stmt.isSchemaChange = true)
    (fuel : Nat) (params : List Value) (txId : Option UInt32) :
    executeStatement fuel dbId stmt params txId = executeSingleStatement fuel dbId stmt params txId := by
  cases stmt with
  | createTable | alterTable | createIndex | createVirtualTable => cases txId <;> rfl
  | drop => cases txId <;> rfl
  | _ => exact nomatch hstmt

omit [Externals] in
theorem Statement.isSchemaChange_onlyFirst (n : Nat) {stmt : Statement}
    (hstmt : stmt.isSchemaChange = true) : (stmt.onlyFirst n).isSchemaChange = true := by
  cases stmt with
  | drop objectType => cases objectType <;> exact hstmt
  | _ => exact hstmt

/-- A statement on the schema that returns an error leaves the contents that were there before it, or
those that the same statement leaves when its list is cut before the element that fails. -/
theorem failedDdl_leaves_list_before {fuel : Nat} {stmt : Statement} {params : List Value}
    {txId : Option UInt32} (hstmt : stmt.isSchemaChange = true)
    (h : exec (executeStatement fuel dbId stmt params txId) w = (.error (.err e), w')) :
    SameContents w.kvs w'.kvs ∨ ∃ n < stmt.elements, ∃ before,
      exec (executeStatement fuel dbId (stmt.onlyFirst n) params txId) w = (.ok .empty, before) ∧
      exec (executeStatement fuel dbId (stmt.onlyFirst (n + 1)) params txId) w =
        (.error (.err e), w') ∧
      SameContents before.kvs w'.kvs := by
  rw [executeStatement_schemaChange hstmt] at h
  simp only [executeStatement_schemaChange (stmt.isSchemaChange_onlyFirst _ hstmt)]
  cases fuel with
  | zero => exact nomatch (Prod.mk.inj h).1
  | succ fuel =>
      cases stmt with
      | createTable => exact .inl (exec_createTable_error h)
      | createVirtualTable => exact .inl (exec_createVirtualTable_error h)
      | createIndex => exact .inl (exec_createIndex_error h ▸ .refl w.kvs)
      | alterTable => exact alterTable_stopsAt h
      | drop objectType =>
          cases objectType with
          | table => exact dropTable_stopsAt h
          | index => exact dropIndex_stopsAt h
          | view | other => exact nomatch hstmt
      | _ => exact nomatch hstmt

end

/-! ### What a failed statement can leave behind -/

namespace Sample

/-- `DROP TABLE t, u`. -/
def dropTAndU : Statement := .drop .table ["t", "u"] false

/-- `ALTER TABLE t ADD COLUMN b, DROP COLUMN c`. -/
def addBDropC : Statement :=
  .alterTable "t" false [.addColumn ⟨name "b", .int, []⟩, .dropColumn (name "c") false]

/-- The table `t` with its column `a`. -/
def withT : World :=
  letI := Externals.ofTexts [] []
  ⟨after [call (create []) none], []⟩

def afterOnT (stmt : Statement) : Except Fail QueryResult × World :=
  letI := Externals.ofTexts [] []
  exec (executeStatement 1 0 stmt [] none) withT

end Sample

/-- The table is gone although DROP TABLE fails, and its new column stays although ALTER TABLE does. -/
theorem not_failedDdl_unchanged :
    (Sample.afterOnT Sample.dropTAndU).1 = .error (.err (tableNotFound "u")) ∧
      Sample.withT.kvs.getSchema 0 "t" ≠ none ∧
      (Sample.afterOnT Sample.dropTAndU).2.kvs.getSchema 0 "t" = none ∧
    (Sample.afterOnT Sample.addBDropC).1 = .error (.err (columnNotFound "c")) ∧
      (Sample.withT.kvs.getSchema 0 "t").map (fun schema => schema.columns.keys) = some ["a"] ∧
      ((Sample.afterOnT Sample.addBDropC).2.kvs.getSchema 0 "t").map
        (fun schema => schema.columns.keys) = some ["a", "b"] := by
  decide

/-- DROP TABLE with the second table missing leaves what dropping the first one leaves. -/
theorem failedDdl_leaves_list_before_drop :
    SameContents Sample.withT.kvs (Sample.afterOnT Sample.dropTAndU).2.kvs ∨
      ∃ n < Sample.dropTAndU.elements, ∃ before,
        Sample.afterOnT (Sample.dropTAndU.onlyFirst n) = (.ok .empty, before) ∧
        Sample.afterOnT (Sample.dropTAndU.onlyFirst (n + 1)) =
          (.error (.err (tableNotFound "u")), (Sample.afterOnT Sample.dropTAndU).2) ∧
        SameContents before.kvs (Sample.afterOnT Sample.dropTAndU).2.kvs :=
  @failedDdl_leaves_list_before (Externals.ofTexts [] []) 0 Sample.withT _ _ 1 Sample.dropTAndU [] none
    rfl (Prod.ext (by decide) rfl)

end Skvs
