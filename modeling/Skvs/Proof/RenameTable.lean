import Skvs.Proof.DroppedTable
import Skvs.Proof.MovedRun
import Skvs.Proof.RenameColumn
import Skvs.Proof.RowidCounters
import Skvs.Proof.UniqueIndex

/-!
# RENAME TO

ALTER TABLE ... RENAME TO moves the rows, the schema and the rowid counter of a table. The name in the
schema, the index stores, the triggers, the full-text table, the foreign keys and the views stay with
the old name. Where nothing of this is in use, later statements do under the new name what they would
have done under the old one.
-/

namespace Skvs

open Prog

variable [Externals] {τ : TableRenaming} {dbId : UInt32} {w w' : World}

/-! ### Call by call -/

/-- The call with the new name of the table in place of the old one. -/
def Call.renameTable (τ : TableRenaming) (c : Call) : Call := { c with stmt := c.stmt.renameTable τ }

/-- A statement on rows that does not use the new name, and whose checks are unhindered. -/
structure Call.Unhindered (τ : TableRenaming) (dbId : UInt32) (c : Call) (w : World) : Prop where
  plain : c.stmt.isPlain = true
  fresh : τ.new ∉ c.stmt.tables
  checks : ChecksUnhindered τ dbId (some (c.under w)) c.fuel c.stmt c.params (c.start dbId w)

theorem executeAtomically_moved (h : Moved τ dbId w.kvs w'.kvs) {fuel : Nat} {stmt : Statement}
    (hplain : stmt.isPlain = true) (hnew : τ.new ∉ stmt.tables) {params : List Value}
    (hun : ChecksUnhindered τ dbId (some w.kvs.txns.nextId) fuel stmt params (w.begin dbId)) :
    Simulates Eq (fun v v' => Moved τ dbId v.kvs v'.kvs) Eq (executeAtomically fuel dbId stmt params)
      (executeAtomically fuel dbId (stmt.renameTable τ) params) w w' := by
  have hsim := executeSingleStatement_moved (MovedUnder.begin h) (Or.inr rfl) hplain hnew hun
  rw [Simulates] at hsim ⊢
  rw [exec_executeAtomically, exec_executeAtomically, h.nextId]
  generalize exec (executeSingleStatement fuel dbId stmt params (some w.kvs.txns.nextId))
    (w.begin dbId) = out at hsim ⊢
  generalize exec (executeSingleStatement fuel dbId (stmt.renameTable τ) params
    (some w.kvs.txns.nextId)) (w'.begin dbId) = out' at hsim ⊢
  obtain ⟨outcome, v⟩ := out
  obtain ⟨outcome', v'⟩ := out'
  obtain ⟨houtcome, hv⟩ := hsim
  cases houtcome with
  | ok heq => exact ⟨.ok heq, hv.commit⟩
  | @error e e' heq =>
      obtain rfl := heq
      cases e with
      | err => exact ⟨.error rfl, hv.rollback⟩
      | panic | outOfFuel => exact ⟨.error rfl, hv.kvs⟩

theorem executeStatement_moved (h : Moved τ dbId w.kvs w'.kvs) {c : Call}
    (hc : c.Unhindered τ dbId w) :
    Simulates Eq (fun v v' => Moved τ dbId v.kvs v'.kvs) Eq
      (executeStatement c.fuel dbId c.stmt c.params c.txId)
      (executeStatement c.fuel dbId (c.stmt.renameTable τ) c.params c.txId) w w' := by
  obtain ⟨stmt, params, txId, fuel⟩ := c
  obtain ⟨hplain, hnew, hun⟩ := hc
  have hsingle : ∀ txId, ChecksUnhindered τ dbId txId fuel stmt params w →
      Simulates Eq (fun v v' => Moved τ dbId v.kvs v'.kvs) Eq
        (executeSingleStatement fuel dbId stmt params txId)
        (executeSingleStatement fuel dbId (stmt.renameTable τ) params txId) w w' := by
    intro txId hun
    have hunder : MovedUnder τ dbId none w w' := ⟨h, fun _ hid => by cases hid⟩
    have hsim := executeSingleStatement_moved hunder (Or.inl rfl) hplain hnew hun
    exact ⟨hsim.1, hsim.2.kvs⟩
  cases hwrite : stmt.isWrite with
  | true =>
      have hbegins := Call.begins_of_isWrite (c := ⟨stmt, params, txId, fuel⟩) hwrite
      rw [Call.start, hbegins] at hun
      rw [executeStatement_write hwrite, executeStatement_write ((stmt.isWrite_renameTable).trans hwrite)]
      cases txId with
      | some id => exact hsingle (some id) hun
      | none => exact executeAtomically_moved h hplain hnew hun
  | false =>
      cases stmt with
      | query q =>
          have hquery : ∀ q, executeStatement fuel dbId (.query q) params txId =
              executeSingleStatement fuel dbId (.query q) params txId := by
            intro q
            cases txId <;> rfl
          rw [Statement.renameTable, hquery, hquery]
          exact hsingle txId (by cases fuel <;> trivial)
      | insert | update | delete => cases hwrite
      | _ => cases hplain

/-! ### Run by run -/

/-- Every call of a run is unhindered where the run reaches it. -/
def CallsUnhindered (τ : TableRenaming) (dbId : UInt32) : List Call → World → Prop
  | [], _ => True
  | c :: calls, w => c.Unhindered τ dbId w ∧ CallsUnhindered τ dbId calls (c.run dbId w)

theorem Moved.runCalls {calls : List Call} (h : Moved τ dbId w.kvs w'.kvs)
    (hcalls : CallsUnhindered τ dbId calls w) :
    outcomes dbId (calls.map (Call.renameTable τ)) w' = outcomes dbId calls w ∧
      Moved τ dbId (Skvs.runCalls dbId calls w).kvs
        (Skvs.runCalls dbId (calls.map (Call.renameTable τ)) w').kvs := by
  induction calls generalizing w w' with
  | nil => exact ⟨rfl, h⟩
  | cons c calls ih =>
      obtain ⟨houtcome, hrun⟩ := executeStatement_moved h hcalls.1
      obtain ⟨houtcomes, hruns⟩ := ih hrun hcalls.2
      refine ⟨?_, hruns⟩
      rw [List.map_cons, outcomes, outcomes]
      exact congrArg₂ List.cons (Except.rel_eq_iff.mp houtcome).symm houtcomes

/-! ### The statement -/

/-- No rowid counter and no index entries are kept under the new name. -/
structure Unused (τ : TableRenaming) (dbId : UInt32) (s : KvsState) : Prop where
  counter : s.rowidCounter dbId τ.new = 1
  indexes : ∀ n, s.indexStore dbId τ.new n = ∅

omit [Externals] in
theorem rowidCounter_eq (s : KvsState) (dbId : UInt32) (x : String) :
    s.rowidCounter dbId x = ((s.rowidGenerators.get dbId).bind fun gens => gens.get x).getD 1 := by
  rw [KvsState.rowidCounter, IndexMap.getD, getD_get]

omit [Externals] in
/-- What is kept for a table that is there. -/
theorem lookup_moved {ν : Type} {m : IndexMap UInt32 (IndexMap String ν)}
    (hthere : ((m.get dbId).bind fun db => db.get τ.old).isSome = true) {x : String} (hx : x ≠ τ.new) :
    ((KvsState.renameIn dbId τ.old m τ.new).get dbId).bind (fun db => db.get (τ.name x)) =
      (m.get dbId).bind fun db => db.get x := by
  rw [lookup_renameIn]
  by_cases hold : x = τ.old
  · rw [hold, TableRenaming.name_old, if_pos ⟨rfl, hthere, Or.inl rfl⟩, if_pos rfl]
  · rw [TableRenaming.name_of_ne hold, if_neg]
    rintro ⟨-, -, hnew | hname⟩
    · exact hx hnew
    · exact hold hname

theorem Moved.of_renameTable {s : KvsState} (hmovable : Movable τ dbId s) (hunused : Unused τ dbId s)
    (hempty : ∀ schema, s.getSchema dbId τ.old = some schema → ∀ idx ∈ schema.indices,
      s.indexStore dbId τ.old idx.name = ∅) :
    Moved τ dbId s (s.renameTable dbId τ.old τ.new) where
  stores x hx := lookup_moved hmovable.store hx
  gone := by
    rw [KvsState.getTableStore, KvsState.renameTable, lookup_renameIn,
      if_pos ⟨rfl, hmovable.store, Or.inr rfl⟩, if_neg τ.ne]
  schemas x hx := lookup_moved hmovable.schema hx
  counters x hx := by
    rw [rowidCounter_eq, rowidCounter_eq, KvsState.renameTable]
    cases hgen : (s.rowidGenerators.get dbId).bind fun gens => gens.get τ.old with
    | some n => rw [lookup_moved (by rw [hgen]; rfl) hx]
    | none =>
        rw [lookup_renameIn, hgen, if_neg (by simp)]
        by_cases hold : x = τ.old
        · rw [hold, hgen, TableRenaming.name_old, ← rowidCounter_eq, hunused.counter]
          rfl
        · rw [TableRenaming.name_of_ne hold]
  indexes _ _ _ _ := rfl
  listed schema hschema idx hidx := (hunused.indexes _).trans (hempty schema hschema idx hidx).symm
  triggers := rfl
  views := rfl
  ftsTables := rfl
  nextId := rfl
  movable := hmovable

theorem exec_renameTable {fuel : Nat} {ifExists : Bool} {params : List Value} {txId : Option UInt32}
    {r : QueryResult} (hthere : (w.kvs.getSchema dbId τ.old).isSome = true)
    (h : exec (executeStatement fuel dbId (.alterTable τ.old ifExists [.renameTable τ.new]) params txId)
      w = (.ok r, w')) : w'.kvs = w.kvs.renameTable dbId τ.old τ.new := by
  obtain ⟨schema, hschema⟩ := Option.isSome_iff_exists.mp hthere
  obtain ⟨table', hop⟩ := exec_singleAlter hschema (exec_alterTable h)
  obtain ⟨-, rfl⟩ := Prod.mk.inj hop
  rfl

/-! ### Every run afterwards -/

/-- After RENAME TO a name that is not in use, a run of INSERT, UPDATE, DELETE and SELECT under the new
name returns what it would have returned under the old one, and leaves the same rows, as long as
nothing but the table goes by the old name, its indexes have no entries yet, and no check turns on its
rows. -/
theorem rename_table_simulated (hmovable : Movable τ dbId w.kvs) (hunused : Unused τ dbId w.kvs)
    (hempty : ∀ schema, w.kvs.getSchema dbId τ.old = some schema → ∀ idx ∈ schema.indices,
      w.kvs.indexStore dbId τ.old idx.name = ∅)
    {fuel : Nat} {ifExists : Bool} {params : List Value} {txId : Option UInt32} {r : QueryResult}
    (halter : exec (executeStatement fuel dbId (.alterTable τ.old ifExists [.renameTable τ.new])
      params txId) w = (.ok r, w')) (calls : List Call) (hcalls : CallsUnhindered τ dbId calls w) :
    let calls' := calls.map (Call.renameTable τ)
    outcomes dbId calls' w' = outcomes dbId calls w ∧
      ∀ x, x ≠ τ.new → (runCalls dbId calls' w').kvs.getTableStore dbId (τ.name x) =
        (runCalls dbId calls w).kvs.getTableStore dbId x := by
  intro calls'
  have hmoved : Moved τ dbId w.kvs w'.kvs := by
    rw [exec_renameTable hmovable.schema halter]
    exact .of_renameTable hmovable hunused hempty
  obtain ⟨houtcomes, hruns⟩ := hmoved.runCalls hcalls
  exact ⟨houtcomes, hruns.stores⟩

/-! ### A sample run, and where it fails -/

namespace Sample

/-- `ALTER TABLE t RENAME TO b`. -/
def renameTToB : TableRenaming := ⟨"t", "b", by decide⟩

def alterTable (τ : TableRenaming) : Call :=
  call (.alterTable τ.old false [.renameTable τ.new]) none

/-- `INSERT INTO t (a) VALUES (2)`, `SELECT * FROM t`. -/
def insertAndSelect : List Call := [call (insert [.number "2"]) none, call (.query (.allFrom "t")) none]

omit [Externals] in
theorem uniqueOne_noTriggers : NoTriggers uniqueOne.kvs 0 := NoTriggers.of_empty (by decide)

omit [Externals] in
theorem uniqueOne_getViewDefinition (view : String) :
    uniqueOne.kvs.getViewDefinition 0 view = none := by
  have hnone : uniqueOne.kvs.views.get 0 = some ∅ := by
    decide
  rw [KvsState.getViewDefinition, hnone]
  rfl

omit [Externals] in
theorem uniqueOne_fresh :
    letI := Externals.ofTexts [] []
    Fresh renameTToB 0 uniqueOne.kvs := by
  let _ := Externals.ofTexts [] []
  refine ⟨fun x schema hschema => ?_, by decide, by decide, uniqueOne_getViewDefinition _,
    fun view q hview => ?_⟩
  · rw [uniqueOne_getSchema] at hschema
    split_ifs at hschema
    obtain rfl := Option.some.inj hschema
    decide
  · rw [KvsState.viewQuery, uniqueOne_getViewDefinition] at hview
    cases hview

omit [Externals] in
theorem uniqueOne_unused : Unused renameTToB 0 uniqueOne.kvs := by
  refine ⟨by decide, fun n => ?_⟩
  have hindexes : uniqueOne.kvs.indexes.getD 0 ∅ = ∅ := by
    decide
  rw [KvsState.indexStore, hindexes]
  rfl

omit [Externals] in
theorem uniqueOne_movable :
    letI := Externals.ofTexts [] []
    Movable renameTToB 0 uniqueOne.kvs := by
  let _ := Externals.ofTexts [] []
  refine ⟨by decide, by decide, uniqueOne_fresh,
    ⟨by decide, by decide, uniqueOne_getViewDefinition _, fun view q hview => ?_⟩,
    fun x trigger htrigger => ?_⟩
  · rw [KvsState.viewQuery, uniqueOne_getViewDefinition] at hview
    cases hview
  · rw [uniqueOne_noTriggers x] at htrigger
    cases htrigger

omit [Externals] in
/-- The row 2 has another key than the row that is there. -/
theorem insertAndSelect_unhindered :
    letI := Externals.ofTexts [] []
    CallsUnhindered renameTToB 0 insertAndSelect uniqueOne := by
  let _ := Externals.ofTexts [] []
  refine ⟨⟨rfl, by decide, fun schema rows hschema hrows => ?_⟩, ⟨rfl, by decide, trivial⟩, trivial⟩
  have hget : ((call (insert [.number "2"]) none).start 0 uniqueOne).kvs.getSchema 0 "t" =
      some uniqueSchema := by
    decide
  obtain rfl := Option.some.inj (hget.symm.trans hschema)
  have hcandidates : candidateRows ((call (insert [.number "2"]) none).start 0 uniqueOne).kvs 2 0
      uniqueSchema [] (some ⟨.values [[.value (.number "2")]], [], none, none⟩) [] =
        .ok [row 2] := by
    decide
  obtain rfl := Except.ok.inj (hcandidates.symm.trans hrows)
  refine ⟨⟨⟨fun _ _ => ⟨?_, ?_⟩, fun _ _ => ?_⟩, fun _ => ?_⟩, fun _ _ _ => trivial⟩
  · decide
  · decide
  · decide
  · exact rowMeets_of_no_triggers (by decide) trivial

end Sample

omit [Externals] in
theorem unique_table_renamed :
    letI := Externals.ofTexts [] []
    let w := Sample.uniqueOne
    let w' := (Sample.alterTable Sample.renameTToB).run 0 w
    let calls' := Sample.insertAndSelect.map (Call.renameTable Sample.renameTToB)
    outcomes 0 calls' w' = outcomes 0 Sample.insertAndSelect w ∧
      ∀ x, x ≠ "b" → (runCalls 0 calls' w').kvs.getTableStore 0 (Sample.renameTToB.name x) =
        (runCalls 0 Sample.insertAndSelect w).kvs.getTableStore 0 x := by
  let _ := Externals.ofTexts [] []
  have hempty : ∀ schema, Sample.uniqueOne.kvs.getSchema 0 "t" = some schema →
      ∀ idx ∈ schema.indices, Sample.uniqueOne.kvs.indexStore 0 "t" idx.name = ∅ := by
    intro schema hschema
    rw [Sample.uniqueOne_getSchema, if_pos rfl] at hschema
    obtain rfl := Option.some.inj hschema
    decide
  have halter : exec (executeStatement 3 0 (.alterTable "t" false [.renameTable "b"]) [] none)
      Sample.uniqueOne = (.ok .empty, (Sample.alterTable Sample.renameTToB).run 0 Sample.uniqueOne) := by
    refine Prod.ext ?_ rfl
    decide
  exact rename_table_simulated Sample.uniqueOne_movable Sample.uniqueOne_unused hempty halter
    Sample.insertAndSelect Sample.insertAndSelect_unhindered

omit [Externals] in
/-- The schema goes on naming `t`, under which there are no rows any more: UNIQUE finds nothing. -/
theorem rename_table_drops_unique :
    letI := Externals.ofTexts [] []
    let τ := Sample.renameTToB
    let w := Sample.uniqueOne
    let w' := (Sample.alterTable τ).run 0 w
    let call := Sample.insertOne
    NoTriggers w.kvs 0 ∧ Fresh τ 0 w.kvs ∧ Unused τ 0 w.kvs ∧ τ.new ∉ call.stmt.tables ∧
      (Sample.alterTable τ).succeeds 0 w = true ∧ call.succeeds 0 w = false ∧
        (call.renameTable τ).succeeds 0 w' = true := by
  let _ := Externals.ofTexts [] []
  refine ⟨Sample.uniqueOne_noTriggers, Sample.uniqueOne_fresh, Sample.uniqueOne_unused, ?_, ?_, ?_, ?_⟩
    <;> decide

end Skvs
