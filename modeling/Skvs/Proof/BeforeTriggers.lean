import Skvs.Proof.Cascade
import Skvs.Proof.AlterRules
import Skvs.Proof.KeysHold
import Skvs.Proof.References

/-!
# Constraints and BEFORE triggers

validate_constraints looks at the rows as they are before the BEFORE triggers run, and the row is stored
after them. What the triggers write in between is not looked at again, and a row that others refer to
may be changed or removed at any time.
-/

namespace Skvs

open Prog

/-- A key of a row: the value of a UNIQUE or PRIMARY KEY column, or the values of a group. -/
inductive KeyOf (schema : TableSchema) (row : Row) : List String → List Value → Prop
  | column (c : String) (colDef : ColumnDef) (v : Value) (hget : schema.columns.get c = some colDef)
      (hflag : colDef.flagged = true) (hval : row.get c = some v) : KeyOf schema row [c] [v]
  | group (group : UniqueGroup) (hin : group ∈ schema.uniqueGroups) :
      KeyOf schema row group.columns (groupValues group row)

/-- No NULL in a PRIMARY KEY. -/
def KeyFits (schema : TableSchema) (row : Row) : Prop :=
  ∀ group ∈ schema.uniqueGroups, group.isPrimary = true →
    (groupValues group row).any Value.isNull = false

/-- The UNIQUE, PRIMARY KEY and FOREIGN KEY constraints of a table are met by its rows. -/
structure ConstraintsHold (s : KvsState) (dbId : UInt32) (table : String) (schema : TableSchema) :
    Prop where
  keys : Admissible (KeyFits schema) (RowsApart schema) fun rowid => s.row ⟨dbId, table, rowid⟩
  references : ∀ fk ∈ schema.foreignKeys, ∀ rowid row, s.row ⟨dbId, table, rowid⟩ = some row →
    ReferenceFound s dbId id fk row

/-- The row at another rowid is one that the check of a row sees: if it has a key of the row, then the
key counts as taken. -/
structure Seen (s : KvsState) (dbId : UInt32) (table : String) (schema : TableSchema) (row : Row)
    (rowid rowid' : RowId) (row' : Row) : Prop where
  there : s.row ⟨dbId, table, rowid'⟩ = some row'
  taken : ∀ columns values, KeyOf schema row columns values →
    (∀ cv ∈ columns.zip values, row'.get cv.1 = some cv.2) →
      KeyTaken s dbId schema id columns values rowid

/-- What a write must not do to the constraints of a table, between the state of the check, the state
before the write and the state after it. -/
structure WriteKeeps (dbId : UInt32) (table : String) (schema : TableSchema) (checked before after : KvsState)
    (k : Key) (new : Option Row) : Prop where
  /-- Another row that shares a key with the row written was there when it was checked. -/
  keys : k.table = table → ∀ row, new = some row → ∀ rowid' row', rowid' ≠ k.rowid →
    before.row ⟨dbId, table, rowid'⟩ = some row' →
      Seen checked dbId table schema row k.rowid rowid' row' ∨ RowsApart schema row row'
  /-- What the row referred to when it was checked is there when it is stored. -/
  refers : k.table = table → ∀ row, new = some row → ∀ fk ∈ schema.foreignKeys,
    ReferenceFound checked dbId id fk row → ReferenceFound after dbId id fk row
  /-- No other row loses what it refers to. -/
  others : ∀ fk ∈ schema.foreignKeys, ∀ rowid' row', (⟨dbId, table, rowid'⟩ : Key) ≠ k →
    before.row ⟨dbId, table, rowid'⟩ = some row' →
      ReferenceFound before dbId id fk row' → ReferenceFound after dbId id fk row'

section Write

variable {s₁ s₂ s₃ : KvsState} {dbId : UInt32} {table : String} {schema : TableSchema} {k : Key}
  {new : Option Row}

/-- A row that passes has no key, NULLs apart, that the check finds taken. -/
theorem RowPasses.free [Externals] {row : Row} {rowid : RowId} {columns : List String}
    {values : List Value} (h : RowPasses s₁ dbId schema row rowid)
    (hkey : KeyOf schema row columns values) (hnull : values.any Value.isNull = false) :
    ¬KeyTaken s₁ dbId schema id columns values rowid := by
  cases hkey with
  | column c colDef v hget hflag hval => exact h.column c colDef hget hflag v hval (by simpa using hnull)
  | group group hin => exact (h.group group hin).2 hnull

/-- A row that the check has seen, and has let pass, shares no key with the row checked. -/
theorem RowPasses.apart [Externals] {row row' : Row} {rowid rowid' : RowId}
    (h : RowPasses s₁ dbId schema row rowid)
    (hseen : Seen s₁ dbId table schema row rowid rowid' row') : RowsApart schema row row' := by
  refine ⟨fun c colDef hget hflag v hv hv' => ?_, fun group hgroup heq => ?_⟩
  · by_contra hnull
    have hkey : KeyOf schema row [c] [v] := .column c colDef v hget hflag hv
    refine h.free hkey (by simpa using hnull) (hseen.taken _ _ hkey fun cv hcv => ?_)
    rw [List.mem_singleton.mp hcv]
    exact hv'
  · by_contra hnull
    have hnull' : (groupValues group row).any Value.isNull = false := by simpa using hnull
    have hkey : KeyOf schema row _ _ := KeyOf.group group hgroup
    exact h.free hkey hnull' (hseen.taken _ _ hkey (group_shared heq hnull'))

/-- A write keeps the constraints exactly if it does not do what `WriteKeeps` excludes. -/
theorem constraintsHold_write_iff [Externals] (h : ConstraintsHold s₂ dbId table schema)
    (hdb : k.dbId = dbId) (hset : ∀ k', s₃.row k' = if k' = k then new else s₂.row k')
    (hpass : k.table = table → ∀ row, new = some row → RowPasses s₁ dbId schema row k.rowid) :
    ConstraintsHold s₃ dbId table schema ↔ WriteKeeps dbId table schema s₁ s₂ s₃ k new := by
  obtain ⟨db, t, rowid⟩ := k
  subst hdb
  have hother : ∀ rowid' row', (⟨db, table, rowid'⟩ : Key) ≠ ⟨db, t, rowid⟩ →
      s₂.row ⟨db, table, rowid'⟩ = some row' → s₃.row ⟨db, table, rowid'⟩ = some row' := by
    intro rowid' row' hne hrow'
    rw [hset, if_neg hne]
    exact hrow'
  constructor
  · intro hafter
    refine ⟨fun htable row hnew rowid' row' hne hrow' => Or.inr ?_,
      fun htable row hnew fk hfk _ => ?_, fun fk hfk rowid' row' hne hrow' _ =>
        hafter.references fk hfk rowid' row' (hother rowid' row' hne hrow')⟩
    · obtain rfl : t = table := htable
      have hrow : s₃.row ⟨db, t, rowid⟩ = some row := (hset _).trans ((if_pos rfl).trans hnew)
      exact hafter.keys.apart rowid rowid' row row' (Ne.symm hne) hrow
        (hother rowid' row' (fun heq => hne (Key.mk.inj heq).2.2) hrow')
    · obtain rfl : t = table := htable
      exact hafter.references fk hfk rowid row ((hset _).trans ((if_pos rfl).trans hnew))
  · intro hkeeps
    refine ⟨?_, fun fk hfk rowid' row' hrow' => ?_⟩
    · by_cases htable : t = table
      · subst htable
        refine h.keys.set (fun _ _ => RowsApart.symm) (k := rowid) (n := new) (fun rowid' => ?_)
          (fun row hnew group hgroup => ((hpass rfl row hnew).group group hgroup).1)
          fun row hnew rowid' row' hne hrow' => ?_
        · rw [hset]
          simp only [Key.mk.injEq, true_and]
        · rcases hkeeps.keys rfl row hnew rowid' row' hne hrow' with hseen | hapart
          · exact (hpass rfl row hnew).apart hseen
          · exact hapart
      · refine h.keys.sub fun rowid' => Or.inr ?_
        rw [hset, if_neg fun heq => htable (Key.mk.inj heq).2.1.symm]
    · by_cases hk : (⟨db, table, rowid'⟩ : Key) = ⟨db, t, rowid⟩
      · obtain ⟨-, rfl, rfl⟩ := Key.mk.inj hk
        have hnew : new = some row' := by rw [hset, if_pos rfl] at hrow'; exact hrow'
        exact hkeeps.refers rfl row' hnew fk hfk ((hpass rfl row' hnew).reference fk hfk)
      · have hbefore : s₂.row ⟨db, table, rowid'⟩ = some row' := by
          rw [hset, if_neg hk] at hrow'
          exact hrow'
        exact hkeeps.others fk hfk rowid' row' hk hbefore (h.references fk hfk rowid' row' hbefore)

end Write

section Statement

variable [Externals] {dbId : UInt32} {txId : Option UInt32} {table : String} {schema : TableSchema}

/-- No write does what `WriteKeeps` excludes. -/
def keepsConstraints (dbId : UInt32) (txId : Option UInt32) (table : String) (schema : TableSchema) :
    WriteRule :=
  fun v₁ v₂ k copy new =>
    WriteKeeps dbId table schema v₁.kvs v₂.kvs (v₂.store txId k copy new).kvs k new

/-- The table has the schema, and its constraints hold. -/
structure Constrained (dbId : UInt32) (table : String) (schema : TableSchema) (w : World) : Prop where
  known : w.kvs.getSchema dbId table = some schema
  holds : ConstraintsHold w.kvs dbId table schema

theorem writesAlong_constraints : WritesAlong (keepsConstraints dbId txId table schema) dbId txId
    (Keeping (Constrained dbId table schema)) where
  draw w _ h := ⟨h.known, h.holds.keys, h.holds.references⟩
  store v₁ v₂ k copy new hdb hstore hchanges _ hchecked hkeeps h := by
    have hschema : v₁.kvs.getSchema dbId table = some schema := by
      rw [KvsState.getSchema, ← hchanges.schemas]
      exact h.known
    refine ⟨?_, (constraintsHold_write_iff h.holds hdb (store_row txId k copy new hstore)
      fun htable row hnew => ?_).mpr hkeeps⟩
    · exact (getSchema_store ..).trans h.known
    · obtain ⟨schema', hschema', hok⟩ := hchecked row hnew
      rw [hdb, htable, hschema, Option.some.injEq] at hschema'
      rw [hdb, ← hschema'] at hok
      exact validateConstraints_iff.mp hok

/-- The constraints of a table hold after any INSERT, UPDATE or DELETE that succeeds, whatever triggers
it fires, if each write of the statement and of the trigger bodies keeps them. -/
theorem constraints_hold_after_statement {fuel : Nat} {stmt : Statement} {params : List Value}
    {given : Option UInt32} {r : QueryResult} {w w' : World} (hwrite : stmt.isWrite = true)
    (hplain : PlainTriggers w.kvs dbId) (hschema : w.kvs.getSchema dbId table = some schema)
    (h : ConstraintsHold w.kvs dbId table schema)
    (hok : exec (executeStatement fuel dbId stmt params given) w = (.ok r, w'))
    (hkeeps : WritesMeet (keepsConstraints dbId (some (given.getD w.kvs.txns.nextId)) table schema) dbId
      (some (given.getD w.kvs.txns.nextId)) fuel stmt params
      (if given.isNone then w.begin dbId else w)) :
    w'.kvs.getSchema dbId table = some schema ∧ ConstraintsHold w'.kvs dbId table schema := by
  have hstart : Constrained dbId table schema (if given.isNone then w.begin dbId else w) := by
    split
    · exact ⟨hschema, h.keys, h.references⟩
    · exact ⟨hschema, h⟩
  obtain ⟨v, txns, hsteps, rfl⟩ :=
    executeStatement_along writesAlong_constraints hwrite hok rfl hplain hkeeps
  have hend := hsteps hstart
  exact ⟨hend.known, hend.holds.keys, hend.holds.references⟩

end Statement

/-! ### A trigger that breaks a key, and one that does not -/

theorem constraintsHold_of_single {s : KvsState} {dbId : UInt32} {table : String}
    {schema : TableSchema} {rowid : RowId} {row : Row}
    (hstore : s.getTableStore dbId table = some (.ofList [(rowid, row)]))
    (hgroups : schema.uniqueGroups = []) (hfks : schema.foreignKeys = []) :
    ConstraintsHold s dbId table schema := by
  have honly : ∀ rowid' row', s.row ⟨dbId, table, rowid'⟩ = some row' → rowid' = rowid := by
    intro rowid' row' hrow
    rw [KvsState.row_of_store hstore] at hrow
    have hmem := IndexMap.mem_of_get_ofList _ hrow
    exact (Prod.mk.inj (List.mem_singleton.mp hmem)).1
  refine ⟨⟨fun _ row _ group hgroup => ?_, fun k k' row row' hne hrow hrow' => ?_⟩, fun fk hfk => ?_⟩
  · rw [hgroups] at hgroup
    cases hgroup
  · exact absurd ((honly k row hrow).trans (honly k' row' hrow').symm) hne
  · rw [hfks] at hfk
    cases hfk

namespace Sample

@[reducible]
def keyExternals : Externals :=
  .ofTexts [("UPDATE t SET a = 1", [update "1"])] []

def keyTrigger : TriggerDef :=
  { name := "r", timing := .before, event := .insert, table := "t", condition := none
    forEachRow := true, body := "UPDATE t SET a = NEW.a" }

def keyState : KvsState :=
  letI := keyExternals
  let s := after [call (create [.unique false]) none,
    call (insert [.number "5"]) none]
  s.addTrigger 0 "t" keyTrigger

/-- The schema of `CREATE TABLE t (a INT UNIQUE)`. -/
def keySchema : TableSchema :=
  letI := keyExternals
  buildSchema "t" [⟨name "a", .int, [.unique false]⟩] []

/-- What `INSERT INTO t VALUES (1)` ends in. -/
def keyOutcome : Except Fail QueryResult × World :=
  letI := keyExternals
  exec (executeStatement 3 0 (insert [.number "1"]) [] none) ⟨keyState, []⟩

/-- The schema of `CREATE TABLE u (a INT)`. -/
def otherSchema : TableSchema :=
  letI := keyExternals
  buildSchema "u" [⟨name "a", .int, []⟩] []

@[reducible]
def loggedExternals : Externals :=
  .ofTexts [("INSERT INTO u VALUES (1)", [(insertInto "u" "1").stmt])] []

def loggedTrigger : TriggerDef :=
  { name := "r", timing := .before, event := .insert, table := "t", condition := none
    forEachRow := true, body := "INSERT INTO u VALUES (NEW.a)" }

def loggedWorld : World :=
  letI := loggedExternals
  let s := after [call (create [.unique false]) none,
    call (.createTable "u" [⟨name "a", .int, []⟩] [] false) none]
  ⟨s.addTrigger 0 "t" loggedTrigger, []⟩

end Sample

theorem constraints_hold_after_trigger :
    letI := Sample.loggedExternals
    let w := (exec (executeStatement 3 0 (Sample.insert [.number "1"]) [] none) Sample.loggedWorld).2
    w.kvs.getSchema 0 "t" = some Sample.keySchema ∧ ConstraintsHold w.kvs 0 "t" Sample.keySchema := by
  let _ := Sample.loggedExternals
  intro w
  have hresult : (exec (executeStatement 3 0 (Sample.insert [.number "1"]) [] none)
      Sample.loggedWorld).1 = .ok (.affected 1) := by
    decide
  have hschema : Sample.loggedWorld.kvs.getSchema 0 "t" = some Sample.keySchema := by decide
  have hempty : Sample.loggedWorld.kvs.getTableStore 0 "t" = some ∅ := by decide
  have hfks : Sample.keySchema.foreignKeys = [] := by decide
  have hholds : ConstraintsHold Sample.loggedWorld.kvs 0 "t" Sample.keySchema := by
    have hnone (rowid : RowId) : Sample.loggedWorld.kvs.row ⟨0, "t", rowid⟩ = none := by
      rw [KvsState.row, KvsState.rowAt, hempty]
      rfl
    refine ⟨⟨fun rowid row hrow => ?_, fun rowid rowid' row row' _ hrow => ?_⟩, fun fk hfk => ?_⟩
    · cases (hnone rowid).symm.trans hrow
    · cases (hnone rowid).symm.trans hrow
    · rw [hfks] at hfk
      cases hfk
  have hparse (text : String) (stmts : List Statement) (h : parseStatements text = .ok stmts) :
      [(Sample.insertInto "u" "1").stmt] = stmts :=
    parseStatements_ofTexts h
  have hplain : PlainTriggers Sample.loggedWorld.kvs 0 := by
    intro table trigger _ oldRow newRow stmts hstmts stmt hstmt
    obtain rfl := hparse _ _ hstmts
    rw [List.mem_singleton.mp hstmt]
    rfl
  refine constraints_hold_after_statement (by decide) hplain hschema hholds
    (Prod.fst_eq_iff.mp hresult) ?_
  obtain ⟨begun, hbegun⟩ : ∃ v, v = Sample.loggedWorld.begin 0 := ⟨_, rfl⟩
  change WritesMeet _ _ _ _ _ _ (Sample.loggedWorld.begin 0)
  rw [← hbegun]
  -- the row of u is none of the table's, and no row of t is there when the row of t is stored
  intro schema rows hknown hrows
  obtain rfl : Sample.keySchema = schema :=
    Option.some.inj (Eq.trans (by rw [hbegun]; decide) hknown)
  obtain rfl : [Sample.row 1] = rows :=
    Except.ok.inj (Eq.trans (by rw [hbegun]; decide) hrows)
  have hfired : (begun.kvs.getTriggers 0 "t").filter
      (fun t => t.event = .insert && t.timing = .before) = [Sample.loggedTrigger] := by
    rw [hbegun]
    decide
  refine ⟨fun _ => ⟨firedMeet_singleton hfired hparse ?_, fun u v₂ hbefore => ⟨?_, ?_⟩⟩,
    fun _ _ _ => trivial⟩
  · intro schema rows hknown hrows
    obtain rfl : Sample.otherSchema = schema :=
      Option.some.inj (Eq.trans (by rw [hbegun]; decide) hknown)
    obtain rfl : [Sample.row 1] = rows :=
      Except.ok.inj (Eq.trans (by rw [hbegun]; decide) hrows)
    have hne : ("u" : String) ≠ "t" := by decide
    refine ⟨fun _ => ⟨firedMeet_nil (by rw [hbegun]; decide), fun u v₂ hbefore =>
      ⟨⟨fun h => absurd h hne, fun h => absurd h hne, fun fk hfk => ?_⟩, ?_⟩⟩, fun _ _ _ => trivial⟩
    · rw [hfks] at hfk
      cases hfk
    · refine firedMeet_nil ?_
      rw [getTriggers_store]
      have heq := congrArg (fun p : Except Fail Unit × World => (p.2.kvs.getTriggers 0 "u").filter
        (fun t => t.event = .insert && t.timing = .after)) hbefore
      exact heq.symm.trans (by rw [hbegun]; decide)
  · refine ⟨fun _ row _ rowid' row' _ hrow' => ?_, fun _ _ _ fk hfk => ?_, fun fk hfk => ?_⟩
    · have hstill : v₂.kvs.getTableStore 0 "t" = some ∅ := by
        have heq := congrArg (fun p : Except Fail Unit × World => p.2.kvs.getTableStore 0 "t") hbefore
        exact heq.symm.trans (by rw [hbegun]; decide)
      rw [KvsState.row, KvsState.rowAt, hstill] at hrow'
      cases hrow'
    · rw [hfks] at hfk
      cases hfk
    · rw [hfks] at hfk
      cases hfk
  · refine firedMeet_nil ?_
    rw [getTriggers_store]
    have heq := congrArg (fun p : Except Fail Unit × World => (p.2.kvs.getTriggers 0 "t").filter
      (fun t => t.event = .insert && t.timing = .after)) hbefore
    exact heq.symm.trans (by rw [hbegun]; decide)

theorem keyOutcome_result : Sample.keyOutcome.1 = .ok (.affected 1) := by
  decide

theorem keyOutcome_rows : Sample.keyOutcome.2.kvs.getTableStore 0 "t" =
    some (.ofList [(1, Sample.row 1), (2, Sample.row 1)]) := by
  decide

/-- An UPDATE in a BEFORE INSERT trigger gives another row the key that the new row was checked for. -/
theorem trigger_breaks_unique :
    letI := Sample.keyExternals
    parseTrigger ("CREATE TRIGGER r BEFORE INSERT ON t FOR EACH ROW " ++
        "BEGIN UPDATE t SET a = NEW.a END") = .ok Sample.keyTrigger ∧
      exec (executeStatement 3 0 (Sample.insert [.number "1"]) [] none) ⟨Sample.keyState, []⟩ =
        Sample.keyOutcome ∧
      Sample.keyState.getSchema 0 "t" = some Sample.keySchema ∧
      ConstraintsHold Sample.keyState 0 "t" Sample.keySchema ∧
      Sample.keyOutcome.1 = .ok (.affected 1) ∧
      ¬ConstraintsHold Sample.keyOutcome.2.kvs 0 "t" Sample.keySchema := by
  let _ := Sample.keyExternals
  have hschema : Sample.keyState.getSchema 0 "t" = some Sample.keySchema := by decide
  have hstore : Sample.keyState.getTableStore 0 "t" = some (.ofList [(1, Sample.row 5)]) := by
    decide
  have hholds : ConstraintsHold Sample.keyState 0 "t" Sample.keySchema :=
    constraintsHold_of_single hstore (by decide) (by decide)
  refine ⟨by decide, rfl, hschema, hholds, keyOutcome_result, fun h => ?_⟩
  have hrow (rowid : RowId) : Sample.keyOutcome.2.kvs.row ⟨0, "t", rowid⟩ =
      IndexMap.get (.ofList [(1, Sample.row 1), (2, Sample.row 1)]) rowid := by
    rw [KvsState.row, KvsState.rowAt, keyOutcome_rows]
    rfl
  have hone : Sample.keyOutcome.2.kvs.row ⟨0, "t", 1⟩ = some (Sample.row 1) := hrow 1
  have htwo : Sample.keyOutcome.2.kvs.row ⟨0, "t", 2⟩ = some (Sample.row 1) := hrow 2
  have hflagged : (Sample.keySchema.columns.get "a").map ColumnDef.flagged = some true := by
    decide
  obtain ⟨colDef, hget, hflag⟩ := Option.map_eq_some_iff.mp hflagged
  have hval : (Sample.row 1).get "a" = some (.integer 1) := by decide
  cases (h.keys.apart 1 2 _ _ (by decide) hone htwo).1 "a" colDef hget hflag _ hval hval

end Skvs
