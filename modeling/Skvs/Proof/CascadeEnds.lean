import Skvs.Proof.BeforeTriggers
import Skvs.Proof.CascadeLinks
import Mathlib.Data.Set.Card

/-!
# Where a trigger cascade ends

If along the run of a statement no change of a table has its triggers run inside a run of them, the
statement ends: each level of the recursion takes one of the changes with triggers, which are
finitely many. With a trigger that repeats its own event there is nothing to stop it.
-/

namespace Skvs

open Filter Prog

variable [Externals]

/-! ### INSERT, UPDATE and DELETE -/

/-- From the state `w` the program ends with enough fuel, in a state without other triggers than
those of `s`. -/
abbrev EndsFrom {α : Type} (dbId : UInt32) (s : KvsState) (p : Nat → Db α) (w : World) : Prop :=
  SettlesFrom Fail.outOfFuel (fun w : World => TriggersWithin dbId s w.kvs) p w

/-- Where what they fire satisfies `fired`, the triggers end. -/
def FireEnds (dbId : UInt32) (s : KvsState) (fire : Nat → Fire)
    (fired : Nat → String → TriggerEvent → TriggerTiming → Option Row → Option Row → World → Prop) :
    Prop :=
  ∀ table event timing oldRow newRow w, TriggersWithin dbId s w.kvs →
    (∀ᶠ fuel in atTop, fired fuel table event timing oldRow newRow w) →
      EndsFrom dbId s (fun fuel => fire fuel table event timing oldRow newRow) w

section Rows

variable {dbId : UInt32} {s : KvsState} {txId : Option UInt32} {fire : Nat → Fire}
  {fired : Nat → String → TriggerEvent → TriggerTiming → Option Row → Option Row → World → Prop}
  {w : World}

omit [Externals] in
theorem orRaise_ends {α β : Type} {o : Option α} {e : SkvsError} {q : Nat → α → Db β}
    (hw : TriggersWithin dbId s w.kvs)
    (hq : ∀ a, o = some a → EndsFrom dbId s (fun fuel => q fuel a) w) :
    EndsFrom dbId s (fun fuel => orRaise o e >>= q fuel) w := by
  cases o with
  | none => exact ⟨.error (.err e), w, nofun, hw, .of_forall fun _ => rfl⟩
  | some a => exact settlesFrom_bind_of_exec rfl (hq a rfl)

omit [Externals] in
theorem check_ends {β : Type} {r : Except SkvsError Unit} {q : Nat → Unit → Db β}
    (hw : TriggersWithin dbId s w.kvs)
    (hq : r = .ok () → EndsFrom dbId s (fun fuel => q fuel ()) w) :
    EndsFrom dbId s (fun fuel => check r >>= q fuel) w := by
  cases r with
  | error e => exact ⟨.error (.err e), w, nofun, hw, .of_forall fun _ => rfl⟩
  | ok u => exact settlesFrom_bind_of_exec rfl (hq rfl)

section Between

variable (hfire : FireEnds dbId s fire fired) (hw : TriggersWithin dbId s w.kvs)
include hfire hw

theorem between_ends {event : TriggerEvent} {k : Key} {copy new : Option Row}
    (hmeets : ∀ᶠ fuel in atTop,
      RowMeets (fun _ _ _ _ _ => True) txId (fire fuel) (fired fuel) event k copy new w)
    (affected : UInt64) :
    EndsFrom dbId s (fun fuel => do
      fire fuel k.table event .before copy new
      store txId k copy new
      fire fuel k.table event .after copy new
      return affected) w := by
  have hbefore := hfire k.table event .before copy new w hw (hmeets.mono fun _ h => h.1)
  refine hbefore.bind fun u v hv hrun => ?_
  have hstored : TriggersWithin dbId s (v.store txId k copy new).kvs :=
    hv.of_eq (store_triggers v txId k copy new)
  have hafter := hfire k.table event .after copy new _ hstored
    ((hmeets.and hrun).mono fun _ h => (h.1.2 u v h.2).2)
  exact settlesFrom_bind_of_exec rfl (hafter.bind fun _ v' hv' _ => settles_pure _ v' hv')

theorem insertRow_ends {table : String} {schema : TableSchema} {row : Row}
    (hmeets : ∀ᶠ fuel in atTop,
      let rowid := w.kvs.rowidCounter dbId table
      let row := withDefaults schema rowid row
      validateConstraints (w.draw dbId table).kvs dbId schema row rowid = .ok () →
        RowMeets (fun _ _ _ _ _ => True) txId (fire fuel) (fired fuel) .insert ⟨dbId, table, rowid⟩
          none (some row) (w.draw dbId table))
    (affected : UInt64) :
    EndsFrom dbId s (fun fuel => insertRow (fire fuel) dbId table schema txId affected row) w := by
  simp only [insertRow_eq]
  have hdrawn : TriggersWithin dbId s (w.draw dbId table).kvs := hw.of_eq rfl
  have hdraw : exec (nextRowid dbId table) w =
    (.ok (w.kvs.rowidCounter dbId table), w.draw dbId table) := rfl
  refine settlesFrom_bind_of_exec hdraw (check_ends hdrawn fun hok => ?_)
  exact between_ends (k := ⟨dbId, table, w.kvs.rowidCounter dbId table⟩) hfire hdrawn
    (hmeets.mono fun _ h => h hok) _

theorem updateRow_ends {table : String} {schema : TableSchema} {assignments : List Assignment}
    {params : List Value} {entry : RowId × Row}
    (hmeets : ∀ᶠ fuel in atTop,
      let row := updatedRow assignments params entry.2
      validateConstraints w.kvs dbId schema row entry.1 = .ok () →
        RowMeets (fun _ _ _ _ _ => True) txId (fire fuel) (fired fuel) .update
          ⟨dbId, table, entry.1⟩ (some entry.2) (some row) w)
    (affected : UInt64) :
    EndsFrom dbId s
      (fun fuel => updateRow (fire fuel) dbId table schema txId assignments params affected entry) w := by
  obtain ⟨rowid, oldRow⟩ := entry
  simp only [updateRow_eq]
  refine settlesFrom_bind_of_exec (exec_read World.kvs w) (check_ends hw fun hok => ?_)
  exact between_ends (k := ⟨dbId, table, rowid⟩) hfire hw (hmeets.mono fun _ h => h hok) _

theorem deleteRow_ends {table : String} {entry : RowId × Row}
    (hmeets : ∀ᶠ fuel in atTop,
      RowMeets (fun _ _ _ _ _ => True) txId (fire fuel) (fired fuel) .delete ⟨dbId, table, entry.1⟩
        (some entry.2) none w)
    (affected : UInt64) :
    EndsFrom dbId s (fun fuel => deleteRow (fire fuel) dbId table txId affected entry) w := by
  obtain ⟨rowid, row⟩ := entry
  simp only [deleteRow_eq]
  exact between_ends (k := ⟨dbId, table, rowid⟩) hfire hw hmeets _

end Between

/-! ### The whole statement -/

theorem candidateRows_converges {s : KvsState} (schema : TableSchema) (columns : List Ident)
    {source : Option Query} (hsource : ∀ query, source = some query → QueryEnds s dbId query)
    (params : List Value) :
    Converges .outOfFuel fun fuel => candidateRows s fuel dbId schema columns source params := by
  cases source with
  | none => exact converges_of_const (by simp)
  | some query =>
      cases hbody : query.body with
      | values rows =>
          simp only [candidateRows, hbody]
          exact converges_of_const (by simp)
      | other =>
          simp only [candidateRows, hbody]
          exact converges_of_const (by simp)
      | select select =>
          have hquery : SelectTerminates s dbId query params :=
            selectTerminates_iff.mpr (hsource query rfl)
          let colNames := if columns.isEmpty then schema.columns.keys else columns.map Ident.value
          let selected (inner : QueryResult) : List Row :=
            let rows := inner.rows.map (selectedRow colNames)
            if rows.isEmpty then [∅] else rows
          refine (hquery.map selected).congr fun fuel => ?_
          simp only [candidateRows, hbody]
          cases executeSelect s dbId fuel query params <;> rfl

variable (hfire : FireEnds dbId s fire fired) (hw : TriggersWithin dbId s w.kvs)
include hfire hw

theorem executeInsert_ends {table : String} {columns : List Ident} {source : Option Query}
    {params : List Value}
    (hrows : ∀ schema, w.kvs.getSchema dbId table = some schema →
      w.kvs.hasStore dbId table = true → (∀ query, source = some query → QueryEnds w.kvs dbId query) ∧
        ∀ᶠ fuel in atTop, ∀ rows,
          candidateRows w.kvs fuel dbId schema columns source params = .ok rows →
            AlongFold (insertRow (fire fuel) dbId table schema txId) (fun _ row v =>
              let rowid := v.kvs.rowidCounter dbId table
              let row := withDefaults schema rowid row
              validateConstraints (v.draw dbId table).kvs dbId schema row rowid = .ok () →
                RowMeets (fun _ _ _ _ _ => True) txId (fire fuel) (fired fuel) .insert
                  ⟨dbId, table, rowid⟩ none (some row) (v.draw dbId table)) 0 rows w) :
    EndsFrom dbId s
      (fun fuel => executeInsert (fire fuel) fuel dbId table columns source params txId) w := by
  refine settlesFrom_bind_of_exec (exec_read World.kvs w) (orRaise_ends hw fun schema hschema =>
    orRaise_ends hw fun store hstore => ?_)
  have hhas : w.kvs.hasStore dbId table = true := by
    rw [KvsState.hasStore, hstore]
    rfl
  obtain ⟨hsource, halong⟩ := hrows schema hschema hhas
  have hconverges := candidateRows_converges schema columns hsource params
  refine (settles_ofExcept hconverges w hw).bind fun rows v hv hrun => ?_
  -- the rows are the same from some fuel on, and reading them leaves the state
  have hv : v = w := by
    obtain ⟨fuel, hfuel⟩ := hrun.exists
    exact (Prod.mk.inj hfuel).2.symm
  subst hv
  have halong := (halong.and hrun).mono fun fuel h => h.1 rows (Prod.mk.inj h.2).1
  refine SettlesFrom.bind (settlesFrom_foldlM (fun affected row _ v hv hmeets => ?_) hw halong)
    fun affected v hv _ => settles_pure _ v hv
  exact insertRow_ends hfire hv hmeets affected

theorem executeUpdate_ends {relation : TableFactor} {assignments : List Assignment}
    {selection : Option Expr} {params : List Value}
    (hrows : ∀ schema store, w.kvs.getSchema dbId relation.name = some schema →
      w.kvs.getTableStore dbId relation.name = some store →
        ∀ᶠ fuel in atTop,
          AlongFold (updateRow (fire fuel) dbId relation.name schema txId assignments params)
            (fun _ entry v =>
              let row := updatedRow assignments params entry.2
              validateConstraints v.kvs dbId schema row entry.1 = .ok () →
                RowMeets (fun _ _ _ _ _ => True) txId (fire fuel) (fired fuel) .update
                  ⟨dbId, relation.name, entry.1⟩ (some entry.2) (some row) v) 0
            (matchingRows w.kvs dbId store selection params (setParamCount assignments)) w) :
    EndsFrom dbId s
      (fun fuel => executeUpdate (fire fuel) dbId relation assignments selection params txId) w := by
  refine settlesFrom_bind_of_exec (exec_read World.kvs w) (orRaise_ends hw fun store hstore =>
    orRaise_ends hw fun schema hschema => ?_)
  refine SettlesFrom.bind (settlesFrom_foldlM (fun affected entry _ v hv hmeets => ?_) hw
    (hrows schema store hschema hstore)) fun affected v hv _ => settles_pure _ v hv
  exact updateRow_ends hfire hv hmeets affected

theorem executeDelete_ends {tables : List String} {from_ : List TableWithJoins}
    {selection : Option Expr} {params : List Value}
    (hrows : ∀ table store, deleteTarget tables from_ = some table →
      w.kvs.getTableStore dbId table = some store →
        ∀ᶠ fuel in atTop, AlongFold (deleteRow (fire fuel) dbId table txId)
          (fun _ entry v => RowMeets (fun _ _ _ _ _ => True) txId (fire fuel) (fired fuel) .delete
            ⟨dbId, table, entry.1⟩ (some entry.2) none v) 0
          (matchingRows w.kvs dbId store selection params 0) w) :
    EndsFrom dbId s
      (fun fuel => executeDelete (fire fuel) dbId tables from_ selection params txId) w := by
  refine orRaise_ends hw fun table htable => ?_
  refine settlesFrom_bind_of_exec (exec_read World.kvs w) (orRaise_ends hw fun store hstore => ?_)
  refine SettlesFrom.bind (settlesFrom_foldlM (fun affected entry _ v hv hmeets => ?_) hw
    (hrows table store htable hstore)) fun affected v hv _ => settles_pure _ v hv
  exact deleteRow_ends hfire hv hmeets affected

end Rows

/-! ### Triggers -/

section Cascade

variable {dbId : UInt32} {s : KvsState} {txId : Option UInt32}

variable (dbId) in
theorem conditionHolds_ne_outOfFuel (state : KvsState) (trigger : TriggerDef)
    (oldRow newRow : Option Row) :
    conditionHolds state dbId trigger oldRow newRow ≠ .error .outOfFuel := by
  unfold conditionHolds
  split
  · exact nofun
  · split <;> exact nofun

/-- Triggers end if the statements of their bodies do. -/
theorem fireTriggers_ends {run : Nat → Statement → Db QueryResult}
    {body : Nat → String → TriggerEvent → Statement → World → Prop}
    (hrun : ∀ table event stmt w, s.getTriggers dbId table ≠ [] → TriggersWithin dbId s w.kvs →
      (∀ᶠ fuel in atTop, body fuel table event stmt w) →
        EndsFrom dbId s (fun fuel => run fuel stmt) w) :
    FireEnds dbId s (fun fuel => fireTriggers (run fuel) dbId) fun fuel table event =>
      FiredMeet dbId (run fuel) (body fuel table event) table event := by
  intro table event timing oldRow newRow w hw hfired
  refine settlesFrom_bind_of_exec (exec_read _ w) (settlesFrom_forM
    (fun trigger htrigger v hv hmeets => ?_) hw hfired)
  have hsome : s.getTriggers dbId table ≠ [] :=
    List.ne_nil_of_mem (hw table trigger (List.mem_of_mem_filter htrigger))
  refine settlesFrom_bind_of_exec (exec_read _ v) ?_
  have hcondition := conditionHolds_ne_outOfFuel dbId v.kvs trigger oldRow newRow
  refine (finishes_ofExcept hcondition v hv).bind fun holds v' hv' hheld => ?_
  obtain ⟨_, hheld⟩ := hheld.exists
  obtain ⟨hholds, rfl⟩ := Prod.mk.inj hheld
  cases holds with
  | false => exact settles_pure _ v hv
  | true =>
      have hparses := parseStatements_ne_outOfFuel
        (substituteTriggerVariables trigger.body oldRow newRow)
      refine (finishes_ofExcept hparses v hv).bind fun stmts v' hv' hparsed => ?_
      obtain ⟨_, hparsed⟩ := hparsed.exists
      obtain ⟨hparse, rfl⟩ := Prod.mk.inj hparsed
      refine settlesFrom_forM (fun stmt hstmt v' hv' hbody => ?_) hv
        (hmeets.mono fun _ h => h hholds stmts hparse)
      exact (hrun table event stmt v' hsome hv' hbody).bind fun _ v'' hv'' _ =>
        settles_pure _ v'' hv''

omit [Externals] in
/-- The tables with triggers are finitely many. -/
theorem finite_triggered (dbId : UInt32) (s : KvsState) :
    {event : String × TriggerEvent | s.getTriggers dbId event.1 ≠ []}.Finite := by
  have hevents : ({.insert, .update, .delete} : Set TriggerEvent).Finite := Set.toFinite _
  have htables := (((s.triggers.get dbId).elim [] IndexMap.keys).finite_toSet)
  refine (htables.prod hevents).subset ?_
  rintro ⟨table, event⟩ htriggers
  refine Set.mem_prod.mpr ⟨?_, by cases event <;> simp⟩
  obtain ⟨trigger, htrigger⟩ := List.exists_mem_of_ne_nil _ htriggers
  rw [KvsState.getTriggers] at htrigger
  cases hmap : s.triggers.get dbId with
  | none =>
      rw [hmap] at htrigger
      cases htrigger
  | some map =>
      rw [hmap, Option.bind_some] at htrigger
      cases hget : map.get table with
      | none =>
          rw [hget] at htrigger
          cases htrigger
      | some triggers => exact (map.mem_keys_iff_get table).mpr ⟨triggers, hget⟩

/-- The events with triggers that are not among those whose triggers are being run. -/
def idle (dbId : UInt32) (s : KvsState) (around : List (String × TriggerEvent)) :
    Set (String × TriggerEvent) :=
  {event | s.getTriggers dbId event.1 ≠ [] ∧ event ∉ around}

omit [Externals] in
/-- Running the triggers of an event takes it out. -/
theorem ncard_idle_lt {event : String × TriggerEvent} {around : List (String × TriggerEvent)}
    (htriggers : s.getTriggers dbId event.1 ≠ []) (hnot : event ∉ around) :
    (idle dbId s (event :: around)).ncard < (idle dbId s around).ncard := by
  refine Set.ncard_lt_ncard ⟨fun x hx => ⟨hx.1, fun h => hx.2 (List.mem_cons_of_mem _ h)⟩, ?_⟩
    ((finite_triggered dbId s).subset fun x hx => hx.1)
  exact fun h => (h ⟨htriggers, hnot⟩ : event ∈ idle dbId s (event :: around)).2 List.mem_cons_self

/-- By induction on the events whose triggers are not being run. -/
theorem executeSingleStatement_ends {around : List (String × TriggerEvent)} {stmt : Statement}
    {params : List Value} {w : World} (hw : TriggersWithin dbId s w.kvs)
    (h : ∀ᶠ fuel in atTop, Unnested dbId txId fuel around stmt params w) :
    EndsFrom dbId s (fun fuel => executeSingleStatement fuel dbId stmt params txId) w := by
  induction hidle : (idle dbId s around).ncard using Nat.strong_induction_on
    generalizing around stmt params w with
  | _ n ih =>
      subst hidle
      let run := fun fuel body => executeSingleStatement fuel dbId body [] txId
      have hfire : FireEnds dbId s (fun fuel => fireTriggers (run fuel) dbId) fun fuel table event =>
          FiredMeet dbId (run fuel) (fun body v => (table, event) ∉ around ∧
            Unnested dbId txId fuel ((table, event) :: around) body [] v) table event := by
        refine fireTriggers_ends fun table event body v htriggers hv hbody => ?_
        obtain ⟨_, hnot, -⟩ := hbody.exists
        exact ih _ (ncard_idle_lt htriggers hnot) hv (hbody.mono fun _ h => h.2) rfl
      have h := (tendsto_add_atTop_nat 1).eventually h
      refine SettlesFrom.of_succ ?_
      cases stmt with
      | query query =>
          obtain ⟨_, hends⟩ := h.exists
          exact settlesFrom_bind_of_exec (exec_read _ w)
            (settles_ofExcept (selectTerminates_iff.mpr hends) w hw)
      | insert table columns source =>
          refine executeInsert_ends hfire hw fun schema hschema hstore => ?_
          obtain ⟨_, hends⟩ := h.exists
          exact ⟨(hends schema hschema hstore).1, h.mono fun _ h => (h schema hschema hstore).2⟩
      | update table assignments selection =>
          exact executeUpdate_ends hfire hw fun schema store hschema hstore =>
            h.mono fun _ h => h schema store hschema hstore
      | delete tables from_ selection =>
          exact executeDelete_ends hfire hw fun table store htable hstore =>
            h.mono fun _ h => h table store htable hstore
      | createTable name columns constraints ifNotExists =>
          exact createTable_finishes name columns constraints ifNotExists w hw
      | alterTable name ifExists operations =>
          exact alterTable_finishes name ifExists operations w hw
      | createIndex name table columns unique ifNotExists =>
          exact createIndex_finishes name table columns unique ifNotExists w hw
      | createView name query => exact createView_finishes name query w hw
      | createVirtualTable name ifNotExists moduleName moduleArgs =>
          exact createVirtualTable_finishes name ifNotExists moduleName moduleArgs w hw
      | drop object names ifExists =>
          cases object with
          | table => exact dropTable_finishes names ifExists w hw
          | index => exact dropIndex_finishes names ifExists w hw
          | view => exact dropView_finishes names ifExists w hw
          | other debug => exact finishes_raise _ w hw
      | startTransaction | commit | rollback | other debug => exact finishes_raise _ w hw

/-- An INSERT, UPDATE or DELETE terminates if along its run no event has its triggers run inside a
run of them and every query ends; it has a transaction of its own if it is given none. -/
theorem cascade_terminates {w : World} {stmt : Statement} (hwrite : stmt.isWrite = true)
    (params : List Value) (txId : Option UInt32)
    (h : ∀ fuel, Unnested dbId (some (txId.getD w.kvs.txns.nextId)) fuel [] stmt params
      (if txId.isNone then w.begin dbId else w)) :
    StatementTerminates dbId w stmt params txId := by
  cases txId with
  | some id =>
      obtain ⟨r, w', hr, -, hrun⟩ := executeSingleStatement_ends (.refl dbId w.kvs) (.of_forall h)
      obtain ⟨enough, henough⟩ := eventually_atTop.mp hrun
      refine ⟨r, w', hr, enough, fun fuel hle => ?_⟩
      rw [executeStatement_write hwrite]
      exact henough fuel hle
  | none =>
      obtain ⟨r, w', hr, -, hrun⟩ :=
        executeSingleStatement_ends (.refl dbId (w.begin dbId).kvs) (.of_forall h)
      obtain ⟨enough, henough⟩ := eventually_atTop.mp hrun
      clear hrun
      have hstmt : ∀ fuel ≥ enough, exec (executeSingleStatement fuel dbId stmt params
          (some w.kvs.txns.nextId)) (w.begin dbId) = (r, w') := henough
      have hrun : ∀ fuel, executeStatement fuel dbId stmt params none =
          executeAtomically fuel dbId stmt params := fun fuel => executeStatement_write hwrite ..
      cases r with
      | ok result =>
          refine ⟨.ok result, w'.commit w.kvs.txns.nextId, nofun, enough, fun fuel hle => ?_⟩
          rw [hrun, exec_executeAtomically, hstmt fuel hle]
      | error fail =>
          cases fail with
          | err e =>
              refine ⟨.error (.err e), w'.rollback w.kvs.txns.nextId, nofun, enough,
                fun fuel hle => ?_⟩
              rw [hrun, exec_executeAtomically, hstmt fuel hle]
          | panic =>
              refine ⟨.error .panic, w', nofun, enough, fun fuel hle => ?_⟩
              rw [hrun, exec_executeAtomically, hstmt fuel hle]
          | outOfFuel => exact absurd rfl hr

end Cascade

/-! ### Where it does not -/

namespace Sample

@[reducible]
def repeatExternals : Externals :=
  .ofTexts [("INSERT INTO t VALUES (1)", [insert [.number "1"]])] []

def repeatText : String :=
  "CREATE TRIGGER r BEFORE INSERT ON t FOR EACH ROW BEGIN INSERT INTO t VALUES (1) END"

def repeatTrigger : TriggerDef :=
  { name := "r", timing := .before, event := .insert, table := "t", condition := none
    forEachRow := true, body := "INSERT INTO t VALUES (1)" }

/-- `CREATE TABLE t (a INT)`. -/
def repeatTable : KvsState :=
  letI := repeatExternals
  after [call (create []) none]

/-- Its schema. -/
def repeatSchema : TableSchema :=
  letI := repeatExternals
  buildSchema "t" [⟨name "a", .int, []⟩] []

end Sample

omit [Externals] in
/-- The trigger fails as its body does. -/
theorem repeat_fires (run : Statement → Db QueryResult) {w w' : World} {e : Fail}
    (htriggers : w.kvs.getTriggers 0 "t" = [Sample.repeatTrigger])
    (hbody : exec (run (Sample.insert [.number "1"])) w = (.error e, w')) :
    letI := Sample.repeatExternals
    exec (fireTriggers run 0 "t" .insert .before none (some (Sample.row 1))) w =
      (.error e, w') := by
  let _ := Sample.repeatExternals
  have hcond : conditionHolds w.kvs 0 Sample.repeatTrigger none (some (Sample.row 1)) =
      .ok true := rfl
  have htext : substituteTriggerVariables Sample.repeatTrigger.body none (some (Sample.row 1)) =
      "INSERT INTO t VALUES (1)" := by
    decide
  have hparse : parseStatements "INSERT INTO t VALUES (1)" =
      .ok [Sample.insert [.number "1"]] := rfl
  rw [fireTriggers, exec_bind_ok (exec_read _ _), htriggers]
  refine exec_bind_error (p := runTrigger run 0 none (some (Sample.row 1)) Sample.repeatTrigger) ?_
  rw [runTrigger, exec_bind_ok (exec_read _ _), hcond, exec_bind_ok (exec_ofExcept _ _), if_pos rfl,
    htext, hparse, exec_bind_ok (exec_ofExcept _ _)]
  exact exec_bind_error (exec_bind_error hbody)

omit [Externals] in
/-- Wherever the table and its trigger are as they were, the statement uses up its fuel. -/
theorem repeat_outOfFuel (fuel : Nat) {w : World} (txId : Option UInt32)
    (hschema : w.kvs.getSchema 0 "t" = some Sample.repeatSchema)
    (hstore : w.kvs.hasStore 0 "t" = true)
    (htriggers : w.kvs.getTriggers 0 "t" = [Sample.repeatTrigger]) :
    letI := Sample.repeatExternals
    ∃ w', exec (executeSingleStatement fuel 0 (Sample.insert [.number "1"]) [] txId) w =
      (.error .outOfFuel, w') := by
  let _ := Sample.repeatExternals
  induction fuel generalizing w with
  | zero => exact ⟨w, rfl⟩
  | succ fuel ih =>
      let run : Statement → Db QueryResult := fun body => executeSingleStatement fuel 0 body [] txId
      obtain ⟨store, hstore'⟩ := Option.isSome_iff_exists.mp hstore
      obtain ⟨w', hbody⟩ := ih (w := w.draw 0 "t") hschema hstore htriggers
      have hfire := repeat_fires run (w := w.draw 0 "t") htriggers hbody
      have hdraw : exec (nextRowid 0 "t") w = (.ok (w.kvs.rowidCounter 0 "t"), w.draw 0 "t") := rfl
      have hdefaults : withDefaults Sample.repeatSchema (w.kvs.rowidCounter 0 "t") (Sample.row 1) =
          Sample.row 1 := rfl
      have hvalid : exec (check (validateConstraints (w.draw 0 "t").kvs 0 Sample.repeatSchema
          (Sample.row 1) (w.kvs.rowidCounter 0 "t"))) (w.draw 0 "t") = (.ok (), w.draw 0 "t") := rfl
      have hinsert : exec (insertRow (fireTriggers run 0) 0 "t" Sample.repeatSchema txId 0
          (Sample.row 1)) w = (.error .outOfFuel, w') := by
        rw [insertRow_eq, exec_bind_ok hdraw, hdefaults, exec_bind_ok (exec_read _ _),
          exec_bind_ok hvalid]
        exact exec_bind_error hfire
      have hsource : exec (orRaise (w.kvs.getSchema 0 "t") (tableNotFound "t")) w =
          (.ok Sample.repeatSchema, w) := by
        rw [hschema]
        rfl
      have hheld : ∀ e, exec (orRaise (w.kvs.getTableStore 0 "t") e) w = (.ok store, w) := by
        intro e
        rw [hstore']
        rfl
      refine ⟨w', ?_⟩
      change exec (executeInsert (fireTriggers run 0) fuel 0 "t" [] _ [] txId) w = _
      rw [executeInsert, exec_bind_ok (exec_read _ _), exec_bind_ok hsource,
        exec_bind_ok (hheld _)]
      have hvalues : ∀ p : List Row → Db QueryResult,
          exec (Prog.ofExcept (.ok [Sample.row 1]) >>= p) w = exec (p [Sample.row 1]) w := fun _ => rfl
      refine (hvalues _).trans ?_
      exact exec_bind_error (exec_bind_error hinsert)

omit [Externals] in
theorem createTrigger_repeat :
    letI := Sample.repeatExternals
    (exec (createTrigger 0 Sample.repeatText) ⟨Sample.repeatTable, []⟩).2 =
      ⟨Sample.repeatTable.addTrigger 0 "t" Sample.repeatTrigger, []⟩ := by
  decide

omit [Externals] in
/-- `INSERT INTO t VALUES (1)` has a trigger insert another row before it, and so on. -/
theorem insert_repeats_for_ever :
    letI := Sample.repeatExternals
    let w := (exec (createTrigger 0 Sample.repeatText) ⟨Sample.repeatTable, []⟩).2
    ¬StatementTerminates 0 w (Sample.insert [.number "1"]) [] none := by
  let _ := Sample.repeatExternals
  intro w
  have hw : w = ⟨Sample.repeatTable.addTrigger 0 "t" Sample.repeatTrigger, []⟩ :=
    createTrigger_repeat
  rw [hw]
  rintro ⟨outcome, w', hne, enough, henough⟩
  obtain ⟨v, hv⟩ := repeat_outOfFuel enough
    (w := (⟨Sample.repeatTable.addTrigger 0 "t" Sample.repeatTrigger, []⟩ : World).begin 0)
    (some 1) (by decide) (by decide) (by decide)
  have hout := henough enough le_rfl
  rw [executeStatement_write rfl] at hout
  change exec (executeAtomically enough 0 (Sample.insert [.number "1"]) []) _ = _ at hout
  rw [exec_executeAtomically] at hout
  have hid : (Sample.repeatTable.addTrigger 0 "t" Sample.repeatTrigger).txns.nextId = 1 := rfl
  rw [hid, hv] at hout
  exact hne (Prod.mk.inj hout).1.symm

namespace Sample

@[reducible]
def copyExternals : Externals :=
  .ofTexts [("INSERT INTO u VALUES (1)", [(insertInto "u" "1").stmt])] []

def copyTrigger : TriggerDef :=
  { repeatTrigger with timing := .after, body := "INSERT INTO u VALUES (1)" }

/-- A trigger that has an INSERT into `t` insert into `u` as well, which has no trigger. -/
def copyWorld : World :=
  letI := copyExternals
  let s := after [call (create []) none, call (.createTable "u" [⟨name "a", .int, []⟩] [] false) none]
  ⟨s.addTrigger 0 "t" copyTrigger, []⟩

end Sample

omit [Externals] in
theorem insert_with_copy_terminates :
    letI := Sample.copyExternals
    StatementTerminates 0 Sample.copyWorld (Sample.insert [.number "1"]) [] none := by
  let _ := Sample.copyExternals
  refine cascade_terminates rfl [] none fun fuel => ?_
  obtain ⟨begun, hbegun⟩ : ∃ v, v = Sample.copyWorld.begin 0 := ⟨_, rfl⟩
  change Unnested 0 _ fuel [] (Sample.insert [.number "1"]) [] (Sample.copyWorld.begin 0)
  rw [← hbegun]
  have hfired (timing : TriggerTiming) : (begun.kvs.getTriggers 0 "t").filter
      (fun t => t.event = .insert && t.timing = timing) =
        [Sample.copyTrigger].filter fun t => t.timing = timing := by
    rw [hbegun]
    cases timing <;> decide
  have hno : begun.kvs.getTriggers 0 "u" = [] := by
    rw [hbegun]
    decide
  have hsource (s : KvsState) (query : Query)
      (hquery : some ⟨.values [[.value (.number "1")]], [], none, none⟩ = some query) :
      QueryEnds s 0 query := by
    obtain rfl := Option.some.inj hquery
    exact fun _ hsource => nomatch hsource
  rcases fuel with _ | fuel
  · trivial
  intro schema hschema hstore
  refine ⟨hsource begun.kvs, fun rows hrows => ?_⟩
  obtain ⟨row, rfl⟩ : ∃ row, rows = [row] := ⟨_, (Except.ok.inj hrows).symm⟩
  -- nothing is fired before the row is stored
  refine ⟨fun _ => ⟨firedMeet_nil (hfired .before), fun u v₂ hbefore => ⟨trivial, ?_⟩⟩,
    fun _ _ _ => trivial⟩
  obtain rfl : begun.draw 0 "t" = v₂ := by
    rw [fireTriggers, exec_bind_ok (exec_read _ _)] at hbefore
    change exec (forM ((begun.kvs.getTriggers 0 "t").filter _) _) _ = _ at hbefore
    rw [hfired .before] at hbefore
    exact (Prod.mk.inj hbefore).2
  refine firedMeet_singleton (by rw [getTriggers_store]; exact hfired .after)
    (fun _ _ => parseStatements_ofTexts) ⟨by simp, ?_⟩
  rcases fuel with _ | fuel
  · trivial
  intro schema hschema hstore
  refine ⟨hsource _, fun rows hrows => ?_⟩
  obtain ⟨row', rfl⟩ : ∃ row, rows = [row] := ⟨_, (Except.ok.inj hrows).symm⟩
  exact ⟨fun _ => rowMeets_of_no_triggers ((getTriggers_store ..).trans hno) trivial,
    fun _ _ _ => trivial⟩

end Skvs
