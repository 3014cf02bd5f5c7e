import Skvs.Proof.BeforeTriggers
import Skvs.Proof.SerialRun

/-!
# CREATE UNIQUE INDEX

The flag of a unique index is recorded with the index and read by nobody. What keeps the values of its
column apart is that no statement writes a value twice, or that the column is declared UNIQUE or
PRIMARY KEY as well.
-/

namespace Skvs

open Prog

/-! ### The column of the index -/

/-- No value in common in the column, NULL apart. -/
def ValuesApart (c : String) (row row' : Row) : Prop :=
  ∀ v, row.get c = some v → row'.get c = some v → v.isNull = true

/-- No two rows of the table have the same value in the column, NULL apart. -/
def NoDuplicates (s : KvsState) (dbId : UInt32) (table c : String) : Prop :=
  Admissible (fun _ => True) (ValuesApart c) fun rowid => s.row ⟨dbId, table, rowid⟩

section Column

variable {dbId : UInt32} {table c : String}

/-- The row at another rowid has the value in the column only if the check of the row looks for the
value, because the column is declared UNIQUE or PRIMARY KEY, and finds it. -/
def LookedFor (s : KvsState) (dbId : UInt32) (table c : String) (row : Row) (rowid : RowId)
    (row' : Row) : Prop :=
  ∀ v, row.get c = some v → row'.get c = some v → v.isNull = false →
    ∃ schema, s.getSchema dbId table = some schema ∧ KeyOf schema row [c] [v] ∧
      KeyTaken s dbId schema id [c] [v] rowid

/-- A row is written only where its value in the column is NULL or no other row's, or else is looked
for and found. -/
def writesUnique (dbId : UInt32) (table c : String) : WriteRule :=
  fun v₁ v₂ k _ new => k.table = table → ∀ row, new = some row → ∀ rowid' row', rowid' ≠ k.rowid →
    v₂.kvs.row ⟨dbId, table, rowid'⟩ = some row' → LookedFor v₁.kvs dbId table c row k.rowid row'

variable [Externals]

/-- A write keeps the column free of duplicates exactly if it meets the rule. -/
theorem noDuplicates_write_iff {v₁ v₂ v₃ : World} {k : Key} {copy new : Option Row}
    (h : NoDuplicates v₂.kvs dbId table c) (hdb : k.dbId = dbId)
    (hset : ∀ k', v₃.kvs.row k' = if k' = k then new else v₂.kvs.row k')
    (hchecked : ∀ row, new = some row → Checked v₁.kvs k row) :
    NoDuplicates v₃.kvs dbId table c ↔ writesUnique dbId table c v₁ v₂ k copy new := by
  obtain ⟨db, t, rowid⟩ := k
  subst hdb
  constructor
  · rintro hafter rfl row hnew rowid' row' hne hrow' v hv hv' hnull
    have hrow : v₃.kvs.row ⟨db, t, rowid⟩ = some row := (hset _).trans ((if_pos rfl).trans hnew)
    have hrow₃ : v₃.kvs.row ⟨db, t, rowid'⟩ = some row' := by
      rw [hset, if_neg fun heq => hne (Key.mk.inj heq).2.2]
      exact hrow'
    exact Bool.noConfusion (hnull.symm.trans
      (hafter.apart rowid rowid' row row' hne.symm hrow hrow₃ v hv hv'))
  · intro hmeets
    by_cases htable : t = table
    · subst htable
      refine h.set (fun _ _ hapart v hv hv' => hapart v hv' hv) (k := rowid) (n := new)
        (fun rowid' => ?_) (fun _ _ => trivial) fun row hnew rowid' row' hne hrow' v hv hv' => ?_
      · rw [hset]
        simp only [Key.mk.injEq, true_and]
      · by_contra hnull
        obtain ⟨schema, hschema, hkey, htaken⟩ :=
          hmeets rfl row hnew rowid' row' hne hrow' v hv hv' (by simpa using hnull)
        obtain ⟨schema', hschema', hok⟩ := hchecked row hnew
        obtain rfl := Option.some.inj (hschema.symm.trans hschema')
        exact (validateConstraints_iff.mp hok).free hkey (by simpa using hnull) htaken
    · refine h.sub fun rowid' => Or.inr ?_
      rw [hset, if_neg fun heq => htable (Key.mk.inj heq).2.1.symm]

theorem writesAlong_unique {txId : Option UInt32} : WritesAlong (writesUnique dbId table c) dbId txId
    (Keeping fun v => NoDuplicates v.kvs dbId table c) where
  draw _ _ h := h
  store _ _ k copy new hdb hstore _ _ hchecked hmeets h :=
    (noDuplicates_write_iff h hdb (store_row txId k copy new hstore) hchecked).mpr hmeets

theorem noDuplicates_kept :
    KeptByWrites (writesUnique dbId table c) dbId fun v => NoDuplicates v.kvs dbId table c where
  txns _ _ h := h
  writes _ := writesAlong_unique
  undone _ _ _ h _ hback := h.sub fun _ => hback.rollback _

/-- CREATE INDEX leaves the rows and the triggers alone. -/
theorem createIndex_rows (name : Option String) (columns : List OrderByExpr)
    (unique ifNotExists : Bool) (w : World) :
    let w' := (exec (createIndex dbId name table columns unique ifNotExists) w).2
    (∀ k, w'.kvs.row k = w.kvs.row k) ∧ w'.kvs.triggers = w.kvs.triggers := by
  intro w'
  rcases createIndex_cases name table columns unique ifNotExists w with hsame | hmade
  · rw [show w' = w from hsame]
    exact ⟨fun _ => rfl, rfl⟩
  · obtain ⟨schema, idx, -, -, hmade⟩ := hmade
    obtain ⟨indexes, hframe⟩ := rebuildIndex_frame dbId
      (w.kvs.setSchema dbId table { schema with indices := schema.indices ++ [idx] }) table idx
    rw [hframe] at hmade
    rw [show w' = _ from hmade]
    exact ⟨fun _ => rfl, rfl⟩

/-- After CREATE UNIQUE INDEX on a column without duplicates, the column stays without duplicates along
every run of INSERT, UPDATE and DELETE calls, in transactions or not, whose writes meet the rule. -/
theorem unique_index_along_run {fuel : Nat} {name : Option String} {column : OrderByExpr}
    {ifNotExists : Bool} {params : List Value} {given : Option UInt32} {r : QueryResult}
    {w w' : World}
    (hcreate : exec (executeStatement fuel dbId
      (.createIndex name table [column] true ifNotExists) params given) w = (.ok r, w'))
    (h : NoDuplicates w.kvs dbId table (exprToString column.expr)) (hplain : PlainTriggers w.kvs dbId)
    (calls : List Call) (hcalls : ∀ call ∈ calls, call.stmt.isWrite = true)
    (hmeets : CallsMeet (writesUnique dbId table (exprToString column.expr)) dbId calls w') :
    NoDuplicates (Skvs.runCalls dbId calls w').kvs dbId table (exprToString column.expr) := by
  obtain ⟨hrows, htriggers⟩ : (∀ k, w'.kvs.row k = w.kvs.row k) ∧ w'.kvs.triggers = w.kvs.triggers := by
    have hrun : exec (executeStatement fuel dbId (.createIndex name table [column] true ifNotExists)
        params given) w = exec (executeSingleStatement fuel dbId
          (.createIndex name table [column] true ifNotExists) params given) w := by
      cases given <;> rfl
    rw [hrun] at hcreate
    cases fuel with
    | zero => exact nomatch (Prod.mk.inj hcreate).1
    | succ fuel =>
        have hworld : (exec (createIndex dbId name table [column] true ifNotExists) w).2 = w' :=
          congrArg Prod.snd hcreate
        exact hworld ▸ createIndex_rows name [column] true ifNotExists w
  have hcreated : NoDuplicates w'.kvs dbId table _ := h.sub fun rowid => Or.inr (hrows _)
  exact noDuplicates_kept.runCalls calls hcalls hcreated (hplain.of_triggers htriggers) hmeets

end Column

/-! ### Two values, and one value twice -/

namespace Sample

/-- `CREATE UNIQUE INDEX i ON t (a)`. -/
def createUniqueIndex : Statement :=
  .createIndex (some "i") "t" [⟨.identifier (name "a"), none⟩] true false

/-- After `CREATE TABLE t (a INT)`. -/
def plainWorld : World :=
  letI := Externals.ofTexts [] []
  ⟨after [call (create []) none], []⟩

/-- After the index is made as well. -/
def uniqueIndexed : World :=
  letI := Externals.ofTexts [] []
  (exec (executeStatement 3 0 createUniqueIndex [] none) plainWorld).2

/-- The schema of the table with its index. -/
def indexedSchema : TableSchema :=
  letI := Externals.ofTexts [] []
  { buildSchema "t" [⟨name "a", .int, []⟩] [] with indices := [⟨"i", ["a"], true, none, false⟩] }

def insertOne : Call := call (insert [.number "1"]) none

def insertTwo : Call := call (insert [.number "2"]) none

end Sample

theorem noDuplicates_of_empty {s : KvsState} {dbId : UInt32} {table c : String}
    (hempty : s.getTableStore dbId table = some ∅) : NoDuplicates s dbId table c := by
  refine .of_empty fun rowid => ?_
  rw [KvsState.row, KvsState.rowAt, hempty]
  rfl

theorem unique_index_after_two_values :
    letI := Externals.ofTexts [] []
    NoDuplicates (runCalls 0 [Sample.insertOne, Sample.insertTwo] Sample.uniqueIndexed).kvs 0 "t" "a" := by
  let _ := Externals.ofTexts [] []
  have hcreated : (exec (executeStatement 3 0 Sample.createUniqueIndex [] none) Sample.plainWorld).1 =
      .ok .empty := by
    decide
  have hone : Sample.insertOne.writesMeet (writesUnique 0 "t" "a") 0 Sample.uniqueIndexed := by
    refine writesMeet_insert_one Sample.indexedSchema (Sample.row 1)
      (by decide) (by decide) (by decide) fun _ row _ rowid' row' _ hrow' => ?_
    have hempty : ((Sample.insertOne.start 0 Sample.uniqueIndexed).draw 0 "t").kvs.getTableStore 0 "t" =
        some ∅ := by
      decide
    rw [KvsState.row, KvsState.rowAt, hempty] at hrow'
    cases hrow'
  have htwo : Sample.insertTwo.writesMeet (writesUnique 0 "t" "a") 0
      (Sample.insertOne.run 0 Sample.uniqueIndexed) := by
    refine writesMeet_insert_one Sample.indexedSchema (Sample.row 2)
      (by decide) (by decide) (by decide) fun _ row hrow rowid' row' _ hrow' => ?_
    have hstore : ((Sample.insertTwo.start 0 (Sample.insertOne.run 0 Sample.uniqueIndexed)).draw 0
        "t").kvs.getTableStore 0 "t" = some (.ofList [(1, Sample.row 1)]) := by
      decide
    rw [KvsState.row_of_store hstore] at hrow'
    obtain ⟨-, rfl⟩ := Prod.mk.inj (List.mem_singleton.mp (IndexMap.mem_of_get_ofList _ hrow'))
    intro v hv hv'
    have htwo : row.get "a" = some (.integer 2) := by
      rw [← Option.some.inj hrow]
      decide
    cases (htwo.symm.trans hv).trans hv'.symm
  exact unique_index_along_run (Prod.fst_eq_iff.mp hcreated) (noDuplicates_of_empty (by decide))
    (NoTriggers.of_empty (by decide)).plain _ (by decide) ⟨hone, htwo, trivial⟩

/-- The index is there and unique, and the same value is inserted twice. -/
theorem unique_index_not_enforced :
    letI := Externals.ofTexts [] []
    (exec (executeStatement 3 0 Sample.createUniqueIndex [] none) Sample.plainWorld).1 = .ok .empty ∧
      NoDuplicates Sample.plainWorld.kvs 0 "t" "a" ∧
      (Sample.uniqueIndexed.kvs.getSchema 0 "t").map TableSchema.indices =
        some [⟨"i", ["a"], true, none, false⟩] ∧
      ¬NoDuplicates (runCalls 0 [Sample.insertOne, Sample.insertOne] Sample.uniqueIndexed).kvs
        0 "t" "a" := by
  let _ := Externals.ofTexts [] []
  refine ⟨by decide, noDuplicates_of_empty (by decide), by decide, fun h => ?_⟩
  have hone : (runCalls 0 [Sample.insertOne, Sample.insertOne] Sample.uniqueIndexed).kvs.row
      ⟨0, "t", 1⟩ = some (Sample.row 1) := by
    decide
  have htwo : (runCalls 0 [Sample.insertOne, Sample.insertOne] Sample.uniqueIndexed).kvs.row
      ⟨0, "t", 2⟩ = some (Sample.row 1) := by
    decide
  have hval : (Sample.row 1).get "a" = some (.integer 1) := by decide
  exact nomatch h.apart 1 2 _ _ (by decide) hone htwo _ hval hval

end Skvs
