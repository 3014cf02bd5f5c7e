import Skvs.Proof.AlterRules
import Skvs.Proof.FailedDdl
import Skvs.Proof.RowidCounters
import Skvs.Proof.RowShape

/-!
# What CREATE, ALTER and DROP leave alone

A statement on one table leaves every other table and every view as it was, with two exceptions. DROP
TABLE also removes a view of the same name, and RENAME TO moves the table over another one that has the
new name already.
-/

namespace Skvs

open Prog

/-! ### Tables as data under names -/

/-- The part of a table that moves with its name. -/
structure TableData where
  schema : Option TableSchema
  entry : TableEntry

def KvsState.tableData (s : KvsState) (dbId : UInt32) (table : String) : TableData :=
  ⟨s.getSchema dbId table, s.tableEntry dbId table⟩

namespace TableData

/-- No table. -/
def none : TableData := ⟨Option.none, ⟨Option.none, Option.none⟩⟩

/-- A table that is moved to a name, where it replaces what it has itself. -/
def replacing (d old : TableData) : TableData :=
  ⟨d.schema.or old.schema, ⟨d.entry.store.or old.entry.store, d.entry.next.or old.entry.next⟩⟩

theorem replacing_none (d : TableData) : d.replacing none = d := by
  obtain ⟨schema, store, next⟩ := d
  simp [replacing, none]

theorem replacing_self (d : TableData) : d.replacing d = d := by
  obtain ⟨schema, store, next⟩ := d
  simp [replacing]

/-- An operation on a column. -/
def edit [Externals] (op : AlterTableOperation) (d : TableData) : TableData :=
  ⟨d.schema.map op.editSchema,
    ⟨d.entry.store.map fun store => store.mapValues fun _ row => op.editRow row, d.entry.next⟩⟩

end TableData

section

variable {s s' : KvsState} {dbId : UInt32}

theorem tableData_setSchema (s : KvsState) (dbId dbId' : UInt32) (table table' : String)
    (schema : TableSchema) : (s.setSchema dbId table schema).tableData dbId' table' =
      if dbId' = dbId ∧ table' = table then ⟨some schema, s.tableEntry dbId table⟩
      else s.tableData dbId' table' := by
  have hentry : (s.setSchema dbId table schema).tableEntry = s.tableEntry := tableEntry_congr rfl rfl
  rw [KvsState.tableData, getSchema_setSchema_on, hentry]
  split_ifs with hsame
  · rw [hsame.1, hsame.2]
  · rfl

theorem tableData_editTable [Externals] {table : String} {schema : TableSchema}
    (hschema : s.getSchema dbId table = some schema) (op : AlterTableOperation) (dbId' : UInt32)
    (table' : String) : (editTable s dbId table schema op).tableData dbId' table' =
      if dbId' = dbId ∧ table' = table then (s.tableData dbId table).edit op
      else s.tableData dbId' table' := by
  rw [editTable, tableData_setSchema]
  have hentry (db : UInt32) (t : String) : (s.modifyStore dbId table fun store =>
      store.mapValues fun _ row => op.editRow row).tableEntry db t =
      ⟨if db = dbId ∧ t = table then (s.getTableStore db t).map fun store =>
        store.mapValues fun _ row => op.editRow row else s.getTableStore db t,
        (s.tableEntry db t).next⟩ := by
    rw [KvsState.tableEntry, getTableStore_modifyStore]
    rfl
  split_ifs with hsame
  · rw [hentry, if_pos ⟨rfl, rfl⟩]
    simp only [TableData.edit, KvsState.tableData, hschema, Option.map_some, KvsState.tableEntry]
  · rw [KvsState.tableData, hentry, if_neg hsame]
    rfl

theorem tableData_renameTable (s : KvsState) (dbId dbId' : UInt32) (table newName x : String) :
    (s.renameTable dbId table newName).tableData dbId' x =
      if dbId' = dbId ∧ x = newName then (s.tableData dbId table).replacing (s.tableData dbId newName)
      else if dbId' = dbId ∧ x = table then .none
      else s.tableData dbId' x := by
  have hmoved {ν : Type} (m : IndexMap UInt32 (IndexMap String ν)) :
      ((KvsState.renameIn dbId table m newName).get dbId').bind (fun db => db.get x) =
        if dbId' = dbId ∧ x = newName then
          ((m.get dbId).bind fun db => db.get table).or ((m.get dbId).bind fun db => db.get newName)
        else if dbId' = dbId ∧ x = table then Option.none
        else (m.get dbId').bind fun db => db.get x := by
    rw [lookup_renameIn]
    by_cases hdb : dbId' = dbId
    · subst hdb
      cases htable : (m.get dbId').bind fun db => db.get table with
      | none =>
          by_cases hnew : x = newName
          · simp [hnew]
          · by_cases hold : x = table
            · subst hold
              simp [hnew, htable]
            · simp [hnew, hold]
      | some v =>
          by_cases hnew : x = newName
          · simp [hnew]
          · by_cases hold : x = table <;> simp [hnew, hold]
    · simp [hdb]
  simp only [KvsState.tableData, KvsState.getSchema, KvsState.tableEntry, KvsState.getTableStore,
    KvsState.renameTable, getD_get, hmoved]
  split_ifs <;> rfl

end

/-! ### A table on its way through ALTER TABLE -/

/-- A table that is being altered: its name by now, the names that it has had, and what it is by now. -/
structure Moving where
  name : String
  seen : List String
  data : TableData

namespace Moving

variable [Externals] (base : String → TableData)

/-- One operation. A name that the table has had before is free, the others are as in `base`. -/
def step (m : Moving) : AlterTableOperation → Moving
  | .renameTable newName =>
    ⟨newName, newName :: m.seen, if newName ∈ m.seen then m.data else m.data.replacing (base newName)⟩
  | op => { m with data := m.data.edit op }

/-- The table `a` after the operations. -/
def after (a : String) (ops : List AlterTableOperation) : Moving :=
  ops.foldl (step base) ⟨a, [a], base a⟩

/-- The tables of a database with the table on its way in it. -/
def overlay (m : Moving) (x : String) : TableData :=
  if x = m.name then m.data else if x ∈ m.seen then .none else base x

variable {base}

theorem step_onColumn {op : AlterTableOperation} (hop : op.onColumn = true) (m : Moving) :
    m.step base op = { m with data := m.data.edit op } := by
  cases op with
  | addColumn | dropColumn | renameColumn => rfl
  | renameTable | other => exact nomatch hop

theorem mem_seen_foldl {ops : List AlterTableOperation} {m : Moving} {c : String} :
    c ∈ (ops.foldl (step base) m).seen ↔ c ∈ m.seen ∨ .renameTable c ∈ ops := by
  induction ops generalizing m with
  | nil => simp
  | cons op ops ih =>
      rw [List.foldl_cons, ih, List.mem_cons]
      cases op with
      | renameTable newName =>
          rw [step, List.mem_cons, AlterTableOperation.renameTable.injEq]
          grind
      | _ => simp [step]

theorem name_mem_seen {m : Moving} (h : m.name ∈ m.seen) (op : AlterTableOperation) :
    (m.step base op).name ∈ (m.step base op).seen := by
  cases op with
  | renameTable => exact List.mem_cons_self
  | _ => exact h

theorem name_mem_seen_foldl {ops : List AlterTableOperation} {m : Moving} (h : m.name ∈ m.seen) :
    (ops.foldl (step base) m).name ∈ (ops.foldl (step base) m).seen := by
  induction ops generalizing m with
  | nil => exact h
  | cons op ops ih => exact ih (name_mem_seen h op)

/-- Another table is as before if the table on its way does not get to its name, or ends there as its
like. -/
theorem overlay_after_iff {a c : String} {ops : List AlterTableOperation} (hca : c ≠ a)
    (hc : base c ≠ .none) : (after base a ops).overlay base c = base c ↔
      (.renameTable c ∈ ops → c = (after base a ops).name ∧ base c = (after base a ops).data) := by
  have hseen : c ∈ (after base a ops).seen ↔ .renameTable c ∈ ops := by
    rw [after, mem_seen_foldl, List.mem_singleton]
    exact or_iff_right hca
  rw [overlay, ← hseen]
  by_cases hname : c = (after base a ops).name
  · have hmem : c ∈ (after base a ops).seen := hname ▸ name_mem_seen_foldl List.mem_cons_self
    rw [if_pos hname]
    exact ⟨fun h _ => ⟨hname, h.symm⟩, fun h => (h hmem).2.symm⟩
  · rw [if_neg hname]
    split_ifs with hmem
    · exact iff_of_false hc.symm fun h => hname (h hmem).1
    · exact iff_of_true rfl fun h => absurd h hmem

end Moving

section

variable [Externals] {dbId : UInt32} {w w' : World} {base : String → TableData}

/-- Outside the database nothing changes, and no view, trigger or full-text index does. -/
structure OnlyData (dbId : UInt32) (s s' : KvsState) : Prop where
  elsewhere : ∀ dbId' table, dbId' ≠ dbId → s'.tableData dbId' table = s.tableData dbId' table
  triggers : s'.triggers = s.triggers
  views : s'.views = s.views
  ftsTables : s'.ftsTables = s.ftsTables

omit [Externals] in
theorem OnlyData.trans {s s' s'' : KvsState} (h : OnlyData dbId s s') (h' : OnlyData dbId s' s'') :
    OnlyData dbId s s'' where
  elsewhere dbId' table hdb := (h'.elsewhere dbId' table hdb).trans (h.elsewhere dbId' table hdb)
  triggers := h'.triggers.trans h.triggers
  views := h'.views.trans h.views
  ftsTables := h'.ftsTables.trans h.ftsTables

/-- An operation on a column that returns has found the table, and keeps its name. -/
theorem alterOperation_onColumn {table name : String} {op : AlterTableOperation}
    (hop : op.onColumn = true) (h : exec (alterOperation dbId table op) w = (.ok name, w')) :
    name = table ∧ ∃ schema, w.kvs.getSchema dbId table = some schema := by
  rw [alterOperation, exec_bind, exec_read] at h
  cases hschema : w.kvs.getSchema dbId table with
  | none =>
      cases op with
      | addColumn | dropColumn | renameColumn =>
          simp only [hschema] at h
          cases (Prod.mk.inj h).1
      | renameTable | other => cases hop
  | some schema =>
      refine ⟨?_, schema, rfl⟩
      cases op with
      | addColumn | dropColumn =>
          simp only [hschema, pure_bind] at h
          split at h
          · cases (Prod.mk.inj h).1
          · exact (Except.ok.inj (Prod.mk.inj h).1).symm
      | renameColumn old new =>
          simp only [hschema, pure_bind] at h
          cases hcol : schema.columns.get old.value with
          | none =>
              simp only [hcol, orRaise] at h
              cases (Prod.mk.inj h).1
          | some colDef =>
              simp only [hcol, orRaise, pure_bind] at h
              split at h
              · cases (Prod.mk.inj h).1
              · exact (Except.ok.inj (Prod.mk.inj h).1).symm
      | renameTable | other => cases hop

/-- One operation moves the table one step, and leaves the rest of the database alone. -/
theorem alterOperation_overlay {m : Moving} {op : AlterTableOperation} {name : String}
    (hname : m.name ∈ m.seen) (hover : w.kvs.tableData dbId = m.overlay base)
    (h : exec (alterOperation dbId m.name op) w = (.ok name, w')) :
    name = (m.step base op).name ∧ OnlyData dbId w.kvs w'.kvs ∧
      w'.kvs.tableData dbId = (m.step base op).overlay base := by
  have hcurrent : w.kvs.tableData dbId m.name = m.data := by rw [hover, Moving.overlay, if_pos rfl]
  by_cases hop : op.onColumn = true
  · obtain ⟨rfl, schema, hschema⟩ := alterOperation_onColumn hop h
    obtain ⟨-, hw'⟩ := exec_alterOperation hop hschema h
    have hdata := tableData_editTable hschema op
    rw [← hw'] at hdata
    rw [Moving.step_onColumn hop]
    refine ⟨rfl, ⟨fun dbId' table hdb => ?_, hw' ▸ rfl, hw' ▸ rfl, hw' ▸ rfl⟩, funext fun x => ?_⟩
    · rw [hdata, if_neg fun hsame => hdb hsame.1]
    · simp only [hdata, true_and, hcurrent, hover, Moving.overlay]
      split_ifs <;> rfl
  · cases op with
    | renameTable newName =>
        rw [alterOperation, exec_bind, exec_read] at h
        obtain ⟨hnew, rfl⟩ := Prod.mk.inj h
        obtain rfl := Except.ok.inj hnew
        have hdata := tableData_renameTable w.kvs dbId
        refine ⟨rfl, ⟨fun dbId' table hdb => ?_, rfl, rfl, rfl⟩, funext fun x => ?_⟩
        · exact (hdata ..).trans (by simp only [hdb, false_and, if_false])
        · refine (hdata ..).trans ?_
          simp only [true_and, hcurrent, hover, Moving.overlay, Moving.step, List.mem_cons]
          by_cases hx : x = newName
          · by_cases hself : newName = m.name
            · simp only [hx, hself, hname, if_true, TableData.replacing_self]
            · by_cases hseen : newName ∈ m.seen <;>
                simp only [hx, hself, hseen, if_true, if_false, TableData.replacing_none]
          · by_cases hold : x = m.name
            · subst hold
              simp only [hx, hname, if_true, if_false, or_true]
            · simp only [hx, hold, if_false, false_or]
    | other => cases (Prod.mk.inj h).1
    | addColumn | dropColumn | renameColumn => exact absurd rfl hop

/-- The operations of a statement, one after the other. -/
theorem alterOperations_overlay {ops : List AlterTableOperation} {m : Moving} {name : String}
    (hname : m.name ∈ m.seen) (hover : w.kvs.tableData dbId = m.overlay base)
    (h : exec (ops.foldlM (alterOperation dbId) m.name) w = (.ok name, w')) :
    OnlyData dbId w.kvs w'.kvs ∧
      w'.kvs.tableData dbId = (ops.foldl (Moving.step base) m).overlay base := by
  induction ops generalizing w m with
  | nil =>
      obtain ⟨-, rfl⟩ := Prod.mk.inj h
      exact ⟨⟨fun _ _ _ => rfl, rfl, rfl, rfl⟩, hover⟩
  | cons op ops ih =>
      rw [List.foldlM_cons] at h
      obtain ⟨name₁, w₁, hop, hrest⟩ := exec_bind_eq_ok_iff.mp h
      obtain ⟨rfl, honly, hover₁⟩ := alterOperation_overlay hname hover hop
      obtain ⟨honly', hover'⟩ := ih (Moving.name_mem_seen hname op) hover₁ hrest
      exact ⟨honly.trans honly', hover'⟩

/-- After ALTER TABLE on a table that exists. -/
theorem alterTable_overlay {a : String} {ifExists : Bool} {ops : List AlterTableOperation}
    {r : QueryResult} (ha : (w.kvs.getSchema dbId a).isSome = true)
    (h : exec (alterTable dbId a ifExists ops) w = (.ok r, w')) :
    OnlyData dbId w.kvs w'.kvs ∧ w'.kvs.tableData dbId =
      (Moving.after (w.kvs.tableData dbId) a ops).overlay (w.kvs.tableData dbId) := by
  rcases alterTable_cases h with ⟨hnone, -⟩ | ⟨name, hrun⟩
  · rw [hnone] at ha
    exact nomatch ha
  · refine alterOperations_overlay List.mem_cons_self (funext fun x => ?_) hrun
    simp only [Moving.overlay, List.mem_singleton]
    split_ifs with hx
    · rw [hx]
    · rfl

/-! ### The frame of a statement -/

/-- Every table of every database but the table `a` of one is as before, and so is every view. -/
structure OthersKept (dbId : UInt32) (a : String) (s s' : KvsState) : Prop where
  data : ∀ dbId' t, (dbId', t) ≠ (dbId, a) → (s.getSchema dbId' t).isSome = true →
    s'.tableData dbId' t = s.tableData dbId' t
  triggers : ∀ dbId' t, (dbId', t) ≠ (dbId, a) → (s.getSchema dbId' t).isSome = true →
    s'.getTriggers dbId' t = s.getTriggers dbId' t
  fts : ∀ dbId' t, (dbId', t) ≠ (dbId, a) → (s.getSchema dbId' t).isSome = true →
    s'.getFtsTable dbId' t = s.getFtsTable dbId' t
  views : ∀ dbId' v, s'.getViewDefinition dbId' v = s.getViewDefinition dbId' v

/-- CREATE TABLE, ALTER TABLE or DROP TABLE of one table. -/
def Statement.soleTable : Statement → Option String
  | .createTable name .. => some name
  | .alterTable name .. => some name
  | .drop .table [name] _ => some name
  | _ => none

/-- DROP TABLE meets no view of the name. RENAME TO meets no table of the new name, unless the one
that it meets is, at the end, replaced by its like. -/
def Statement.LeavesOthers (s : KvsState) (dbId : UInt32) : Statement → Prop
  | .alterTable a _ ops =>
    (s.getSchema dbId a).isSome = true → ∀ c, c ≠ a → (s.getSchema dbId c).isSome = true →
      .renameTable c ∈ ops →
        let moved := Moving.after (s.tableData dbId) a ops
        c = moved.name ∧ s.tableData dbId c = moved.data
  | .drop .table [a] _ => s.getViewDefinition dbId a = none
  | _ => True

omit [Externals] in
theorem OthersKept.refl (dbId : UInt32) (a : String) (s : KvsState) : OthersKept dbId a s s :=
  ⟨fun _ _ _ _ => rfl, fun _ _ _ _ => rfl, fun _ _ _ _ => rfl, fun _ _ => rfl⟩

theorem alterTable_frame_iff {a : String} {ifExists : Bool} {ops : List AlterTableOperation}
    {r : QueryResult} (h : exec (alterTable dbId a ifExists ops) w = (.ok r, w')) :
    OthersKept dbId a w.kvs w'.kvs ↔
      (Statement.alterTable a ifExists ops).LeavesOthers w.kvs dbId := by
  cases hschema : w.kvs.getSchema dbId a with
  | none =>
      have hsame := exec_alterTable_missing ifExists ops hschema
      rw [h] at hsame
      refine iff_of_true (hsame ▸ .refl ..) fun ha => ?_
      rw [hschema] at ha
      exact nomatch ha
  | some schema =>
      have ha : (w.kvs.getSchema dbId a).isSome = true := by rw [hschema, Option.isSome_some]
      obtain ⟨honly, hover⟩ := alterTable_overlay ha h
      let base := w.kvs.tableData dbId
      have hother {c : String} (hca : c ≠ a) (hc : (w.kvs.getSchema dbId c).isSome = true) :
          (Moving.after base a ops).overlay base c = base c ↔ (.renameTable c ∈ ops →
            c = (Moving.after base a ops).name ∧ base c = (Moving.after base a ops).data) :=
        Moving.overlay_after_iff hca
          fun hnone => Option.isSome_iff_ne_none.mp hc (congrArg TableData.schema hnone)
      constructor
      · intro hkept _ c hca hc
        refine (hother hca hc).mp ?_
        rw [← hover]
        exact hkept.data dbId c (fun heq => hca (Prod.mk.inj heq).2) hc
      · intro hcond
        refine ⟨fun dbId' t hne ht => ?_, fun dbId' t _ _ => ?_, fun dbId' t _ _ => ?_,
          fun dbId' v => ?_⟩
        · by_cases hdb : dbId' = dbId
          · subst hdb
            have hta : t ≠ a := fun heq => hne (congrArg _ heq)
            rw [hover]
            exact (hother hta ht).mpr (hcond ha t hta ht)
          · exact honly.elsewhere dbId' t hdb
        · rw [KvsState.getTriggers, honly.triggers, KvsState.getTriggers]
        · rw [KvsState.getFtsTable, honly.ftsTables, KvsState.getFtsTable]
        · rw [KvsState.getViewDefinition, honly.views, KvsState.getViewDefinition]

omit [Externals] in
theorem lookup_eraseIn {ν : Type} (dbId dbId' : UInt32) (table x : String)
    (m : IndexMap UInt32 (IndexMap String ν)) :
    ((m.modify dbId fun db => db.erase table).get dbId').bind (fun db => db.get x) =
      if dbId' = dbId ∧ x = table then none else (m.get dbId').bind fun db => db.get x := by
  rw [IndexMap.get_modify]
  by_cases hdb : dbId' = dbId
  · subst hdb
    cases m.get dbId' with
    | none => simp
    | some db => by_cases hx : x = table <;> simp [hx, IndexMap.get_erase]
  · simp [hdb]

omit [Externals] in
theorem tableData_ensured (s : KvsState) (dbId : UInt32) :
    (s.ensured dbId).tableData = s.tableData := by
  funext dbId' table
  have hentry : (s.ensured dbId).tableEntry = s.tableEntry := tableEntry_congr rfl rfl
  rw [KvsState.tableData, (sameContents_ensured s dbId).schema, hentry, KvsState.tableData]

omit [Externals] in
theorem dropTable_frame_iff {a : String} {ifExists : Bool} {r : QueryResult}
    (h : exec (dropTable dbId [a] ifExists) w = (.ok r, w')) :
    OthersKept dbId a w.kvs w'.kvs ↔ w.kvs.getViewDefinition dbId a = none := by
  obtain rfl := exec_dropTable h
  have hview (dbId' : UInt32) (v : String) :
      ((w.kvs.ensured dbId).removeTable dbId a).getViewDefinition dbId' v =
        if dbId' = dbId ∧ v = a then none else w.kvs.getViewDefinition dbId' v := lookup_eraseIn ..
  constructor
  · intro hkept
    have hgone := hkept.views dbId a
    rw [hview, if_pos ⟨rfl, rfl⟩] at hgone
    exact hgone.symm
  · intro hnone
    have hne {dbId' : UInt32} {t : String} (hne : (dbId', t) ≠ (dbId, a)) :
        ¬(dbId' = dbId ∧ t = a) := fun hsame => hne (Prod.ext hsame.1 hsame.2)
    refine ⟨fun dbId' t ht _ => ?_, fun dbId' t ht _ => ?_, fun dbId' t ht _ => ?_, fun dbId' v => ?_⟩
    · have hschema := lookup_eraseIn dbId dbId' a t (w.kvs.ensured dbId).schemas
      rw [if_neg (hne ht)] at hschema
      rw [← tableData_ensured w.kvs dbId]
      simp only [KvsState.tableData, tableEntry_removeTable, if_neg (hne ht)]
      exact congrArg (TableData.mk · _) hschema
    · have htriggers := lookup_eraseIn dbId dbId' a t w.kvs.triggers
      rw [if_neg (hne ht)] at htriggers
      exact congrArg (Option.getD · []) htriggers
    · have hfts := lookup_eraseIn dbId dbId' a t w.kvs.ftsTables
      rw [if_neg (hne ht)] at hfts
      exact hfts
    · rw [hview]
      split_ifs with hsame
      · rw [hsame.1, hsame.2, hnone]
      · rfl

theorem createTable_frame {a : String} {columns : List SqlColumnDef}
    {constraints : List TableConstraint} {ifNotExists : Bool} {r : QueryResult}
    (h : exec (createTable dbId a columns constraints ifNotExists) w = (.ok r, w')) :
    OthersKept dbId a w.kvs w'.kvs := by
  rw [createTable, ensureSchemas, exec_bind_ok (p := onState _) rfl, exec_bind_ok (exec_read ..)] at h
  have hensured := tableData_ensured w.kvs dbId
  split at h
  · split at h
    · obtain ⟨-, rfl⟩ := Prod.mk.inj h
      exact ⟨fun _ _ _ _ => by rw [← hensured]; rfl, fun _ _ _ _ => rfl, fun _ _ _ _ => rfl,
        fun _ _ => rfl⟩
    · cases (Prod.mk.inj h).1
  · obtain ⟨-, rfl⟩ := Prod.mk.inj h
    refine ⟨fun dbId' t ht _ => ?_, fun _ _ _ _ => rfl, fun _ _ _ _ => rfl, fun _ _ => rfl⟩
    have hne : ¬(dbId' = dbId ∧ t = a) := fun hsame => ht (Prod.ext hsame.1 hsame.2)
    have hset := tableData_setSchema (w.kvs.ensured dbId) dbId dbId' a t
      (buildSchema a columns constraints)
    rw [if_neg hne, hensured] at hset
    rw [← hset]
    refine congrArg (TableData.mk _) ((tableEntry_freshTable ..).trans (if_neg hne))

/-- CREATE TABLE, ALTER TABLE and DROP TABLE leave the other tables and the views as they are unless
one of them has the name that a table is moved to or removed from. -/
theorem schemaChange_leaves_others_iff {fuel : Nat} {stmt : Statement} {a : String}
    {params : List Value} {txId : Option UInt32} {r : QueryResult} (hsole : stmt.soleTable = some a)
    (h : exec (executeStatement fuel dbId stmt params txId) w = (.ok r, w')) :
    OthersKept dbId a w.kvs w'.kvs ↔ stmt.LeavesOthers w.kvs dbId := by
  have hstmt : stmt.isSchemaChange = true := by
    unfold Statement.soleTable at hsole
    split at hsole <;> first | rfl | exact nomatch hsole
  rw [executeStatement_schemaChange hstmt] at h
  cases fuel with
  | zero => exact nomatch (Prod.mk.inj h).1
  | succ fuel =>
      unfold Statement.soleTable at hsole
      split at hsole
      next =>
        obtain rfl := Option.some.inj hsole
        exact iff_of_true (createTable_frame h) trivial
      next =>
        obtain rfl := Option.some.inj hsole
        exact alterTable_frame_iff h
      next =>
        obtain rfl := Option.some.inj hsole
        exact dropTable_frame_iff h
      next => exact nomatch hsole

end

namespace Sample

/-- The table `t` and the table `u`, each with the column `a`. -/
def withTAndU : World :=
  letI := Externals.ofTexts [] []
  let createU : Statement := .createTable "u" [⟨name "a", .int, []⟩] [] false
  ⟨after [call (create []) none, call createU none], []⟩

/-- `ALTER TABLE t RENAME TO newName`. -/
def renameT (newName : String) : Statement := .alterTable "t" false [.renameTable newName]

def afterRenaming (newName : String) : Except Fail QueryResult × World :=
  letI := Externals.ofTexts [] []
  exec (executeStatement 1 0 (renameT newName) [] none) withTAndU

/-- The view `v` and no table. -/
def onlyView : World := ⟨(KvsState.new [0]).addView 0 "v" "SELECT 1", []⟩

/-- `DROP TABLE IF EXISTS v`. -/
def afterDroppingV : Except Fail QueryResult × World :=
  letI := Externals.ofTexts [] []
  exec (executeStatement 1 0 (.drop .table ["v"] true) [] none) onlyView

end Sample

/-- ALTER TABLE moves `t` over the table `u`, and DROP TABLE removes the view `v`. -/
theorem not_schemaChange_leaves_others :
    (Sample.afterRenaming "u").1 = .ok .empty ∧
      ¬OthersKept 0 "t" Sample.withTAndU.kvs (Sample.afterRenaming "u").2.kvs ∧
    Sample.afterDroppingV.1 = .ok .empty ∧
      ¬OthersKept 0 "v" Sample.onlyView.kvs Sample.afterDroppingV.2.kvs := by
  refine ⟨by decide, fun hkept => ?_, by decide, fun hkept => ?_⟩
  · have hdata := hkept.data 0 "u" (by decide) (by decide)
    have hname := congrArg (fun d : TableData => d.schema.map TableSchema.name) hdata
    exact absurd hname (by decide)
  · exact absurd (hkept.views 0 "v") (by decide)

/-- A renaming to a name that no table has. -/
theorem schemaChange_leaves_others_rename :
    OthersKept 0 "t" Sample.withTAndU.kvs (Sample.afterRenaming "v").2.kvs := by
  let _ := Externals.ofTexts [] []
  have hrun : exec (executeStatement 1 0 (Sample.renameT "v") [] none) Sample.withTAndU =
      (.ok .empty, (Sample.afterRenaming "v").2) := Prod.ext (by decide) rfl
  refine (schemaChange_leaves_others_iff rfl hrun).mpr fun _ c _ hc hmem => ?_
  have hv : c = "v" := by simpa using hmem
  subst hv
  exact absurd hc (by decide)

end Skvs
