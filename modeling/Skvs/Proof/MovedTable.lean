import Skvs.Proof.FastPath
import Skvs.Proof.References
import Skvs.Proof.TableRenaming
import Skvs.Proof.Views

/-!
# A table under another name

A state in which a table has moved to another name, and what is read from it. The schema of the table,
the foreign keys and the views go by the old name still, and so do the full-text table and the triggers
that were kept under it.
-/

namespace Skvs

/-! ### The two states -/

section States

variable [Externals]

/-- Nothing goes by the new name. -/
structure Fresh (τ : TableRenaming) (dbId : UInt32) (s : KvsState) : Prop where
  schemas : ∀ x schema, s.getSchema dbId x = some schema →
    schema.name ≠ τ.new ∧ ∀ fk ∈ schema.foreignKeys, fk.refTable ≠ τ.new
  fullText : s.getFtsTable dbId τ.new = none
  triggers : s.getTriggers dbId τ.new = []
  view : s.getViewDefinition dbId τ.new = none
  viewTables : ∀ view q, s.viewQuery dbId view = some q → τ.new ∉ q.tables

/-- Nothing but the table goes by the old name: no full-text table, no trigger, and no view, and none
selects from it. -/
structure Detached (τ : TableRenaming) (dbId : UInt32) (s : KvsState) : Prop where
  fullText : s.getFtsTable dbId τ.old = none
  triggers : s.getTriggers dbId τ.old = []
  view : s.getViewDefinition dbId τ.old = none
  viewTables : ∀ view q, s.viewQuery dbId view = some q → τ.old ∉ q.tables

/-- The trigger bodies hold INSERT, UPDATE, DELETE and SELECT on other tables, whatever values are
substituted into them. -/
def BodiesAvoid (τ : TableRenaming) (dbId : UInt32) (s : KvsState) : Prop :=
  ∀ x, ∀ trigger ∈ s.getTriggers dbId x, ∀ oldRow newRow stmts,
    parseStatements (substituteTriggerVariables trigger.body oldRow newRow) = .ok stmts →
      ∀ stmt ∈ stmts, stmt.isPlain = true ∧ τ.old ∉ stmt.tables ∧ τ.new ∉ stmt.tables

/-- A table that can move: it is there, and nothing depends on what it is called. -/
structure Movable (τ : TableRenaming) (dbId : UInt32) (s : KvsState) : Prop where
  schema : (s.getSchema dbId τ.old).isSome = true
  store : s.hasStore dbId τ.old = true
  fresh : Fresh τ dbId s
  detached : Detached τ dbId s
  bodies : BodiesAvoid τ dbId s

/-- `s'` is `s` with the table moved to its new name in the database `dbId`. Of the indexes of the
table, those that it lists have moved with it. -/
structure Moved (τ : TableRenaming) (dbId : UInt32) (s s' : KvsState) : Prop where
  stores : ∀ x, x ≠ τ.new → s'.getTableStore dbId (τ.name x) = s.getTableStore dbId x
  gone : s'.getTableStore dbId τ.old = none
  schemas : ∀ x, x ≠ τ.new → s'.getSchema dbId (τ.name x) = s.getSchema dbId x
  counters : ∀ x, x ≠ τ.new → s'.rowidCounter dbId (τ.name x) = s.rowidCounter dbId x
  indexes : ∀ x n, x ≠ τ.old → x ≠ τ.new → s'.indexStore dbId x n = s.indexStore dbId x n
  listed : ∀ schema, s.getSchema dbId τ.old = some schema → ∀ idx ∈ schema.indices,
    s'.indexStore dbId τ.new idx.name = s.indexStore dbId τ.old idx.name
  triggers : s'.triggers = s.triggers
  views : s'.views = s.views
  ftsTables : s'.ftsTables = s.ftsTables
  nextId : s'.txns.nextId = s.txns.nextId
  movable : Movable τ dbId s

end States

/-! ### What is read -/

section Reads

variable [Externals] {τ : TableRenaming} {dbId : UInt32} {s s' : KvsState} (h : Moved τ dbId s s')
include h

theorem Moved.stores_of_ne {x : String} (hold : x ≠ τ.old) (hnew : x ≠ τ.new) :
    s'.getTableStore dbId x = s.getTableStore dbId x := by
  rw [← h.stores x hnew, TableRenaming.name_of_ne hold]

/-- The table is there, so that no error mentions either name. -/
theorem Moved.found {x : String} (hx : x ≠ τ.new) :
    (∃ st, s.getTableStore dbId x = some st) ∨ τ.name x = x := by
  by_cases hold : x = τ.old
  · subst hold
    exact Or.inl (Option.isSome_iff_exists.mp h.movable.store)
  · exact Or.inr (TableRenaming.name_of_ne hold)

theorem Moved.indexStore_of_listed {x : String} (hx : x ≠ τ.new) {schema : TableSchema}
    (hschema : s.getSchema dbId x = some schema) {idx : IndexDef} (hidx : idx ∈ schema.indices) :
    s'.indexStore dbId (τ.name x) idx.name = s.indexStore dbId x idx.name := by
  by_cases hold : x = τ.old
  · subst hold
    rw [TableRenaming.name_old]
    exact h.listed schema hschema idx hidx
  · rw [TableRenaming.name_of_ne hold]
    exact h.indexes x idx.name hold hx

theorem Moved.getTriggers_eq (x : String) :
    s'.getTriggers dbId (τ.name x) = s.getTriggers dbId x := by
  have hsame : ∀ y, s'.getTriggers dbId y = s.getTriggers dbId y := fun y => by
    rw [KvsState.getTriggers, KvsState.getTriggers, h.triggers]
  rw [hsame]
  by_cases hold : x = τ.old
  · rw [hold, TableRenaming.name_old, h.movable.fresh.triggers, h.movable.detached.triggers]
  · rw [TableRenaming.name_of_ne hold]

theorem Moved.getFtsTable_eq (x : String) :
    s'.getFtsTable dbId (τ.name x) = s.getFtsTable dbId x := by
  have hsame : ∀ y, s'.getFtsTable dbId y = s.getFtsTable dbId y := fun y => by
    rw [KvsState.getFtsTable, KvsState.getFtsTable, h.ftsTables]
  rw [hsame]
  by_cases hold : x = τ.old
  · rw [hold, TableRenaming.name_old, h.movable.fresh.fullText, h.movable.detached.fullText]
  · rw [TableRenaming.name_of_ne hold]

theorem Moved.getViewDefinition_eq (x : String) :
    s'.getViewDefinition dbId (τ.name x) = s.getViewDefinition dbId x := by
  have hsame : ∀ y, s'.getViewDefinition dbId y = s.getViewDefinition dbId y := fun y => by
    rw [KvsState.getViewDefinition, KvsState.getViewDefinition, h.views]
  rw [hsame]
  by_cases hold : x = τ.old
  · rw [hold, TableRenaming.name_old, h.movable.fresh.view, h.movable.detached.view]
  · rw [TableRenaming.name_of_ne hold]

theorem Moved.whereHolds_eq (row : Row) (params : List Value) (e : Expr) (paramIdx : Nat) :
    whereHolds s' dbId row params e paramIdx = whereHolds s dbId row params e paramIdx := by
  rw [whereHolds, whereHolds, evaluateWhereCtx_congr h.ftsTables]

theorem Moved.matchingRows_eq (store : Store) (selection : Option Expr) (params : List Value)
    (paramIdx : Nat) :
    matchingRows s' dbId store selection params paramIdx =
      matchingRows s dbId store selection params paramIdx := by
  simp only [matchingRows, h.whereHolds_eq]

/-! ### SELECT -/

theorem Moved.scanRows_eq {x : String} (hx : x ≠ τ.new) :
    scanRows s' dbId (τ.name x) = scanRows s dbId x := by
  rw [scanRows, scanRows, h.stores x hx]
  rcases h.found hx with ⟨st, hst⟩ | hname
  · rw [hst]
  · rw [hname]

theorem Moved.rowsFromIds_eq {x : String} (hx : x ≠ τ.new) (ids : List RowId) :
    rowsFromIds s' dbId (τ.name x) ids = rowsFromIds s dbId x ids := by
  rw [rowsFromIds, rowsFromIds, h.stores x hx]
  rcases h.found hx with ⟨st, hst⟩ | hname
  · rw [hst]
  · rw [hname]

/-- The path is taken over an index that the table lists. -/
theorem Moved.rowsForSimpleWhere_eq {x : String} (hx : x ≠ τ.new) (selection : Option Expr)
    (params : List Value) :
    rowsForSimpleWhere s' dbId (τ.name x) selection params =
      rowsForSimpleWhere s dbId x selection params := by
  cases selection with
  | none => exact h.scanRows_eq hx
  | some e =>
      have hpath : fastPath s' dbId (τ.name x) e params = fastPath s dbId x e params := by
        simp only [fastPath, h.schemas x hx]
      rw [Skvs.rowsForSimpleWhere_eq, Skvs.rowsForSimpleWhere_eq, hpath, h.scanRows_eq hx]
      cases hfast : fastPath s dbId x e params with
      | none => rfl
      | some found =>
          obtain ⟨idx, lookup⟩ := found
          obtain ⟨_, _, _, schema, hschema, hidx⟩ := fastPath_cases _ _ _ _ _ hfast
          simp only [h.rowsFromIds_eq hx, h.indexStore_of_listed hx hschema hidx]

theorem Moved.finishSelect_eq (query : Query) (select : Select) (params : List Value)
    (rows : List Row) :
    finishSelect s' dbId (query.renameTable τ) (select.renameTable τ) params rows =
      finishSelect s dbId query select params rows := by
  obtain ⟨horder, hlimit, hoffset⟩ : (query.renameTable τ).orderBy = query.orderBy ∧
      (query.renameTable τ).limit = query.limit ∧ (query.renameTable τ).offset = query.offset := by
    rw [Query.renameTable]
    split <;> exact ⟨rfl, rfl, rfl⟩
  simp only [finishSelect, h.whereHolds_eq, horder, hlimit, hoffset, Select.renameTable]

theorem Moved.joinConditionMatches_eq (combined : Row) (c : JoinConstraint) (params : List Value) :
    joinConditionMatches s' dbId combined c params = joinConditionMatches s dbId combined c params := by
  simp only [joinConditionMatches, h.whereHolds_eq]

theorem Moved.executeJoin_eq {join : Join} (hjoin : join.relation.name ≠ τ.new) (isFirst : Bool)
    (name1 : String) (result : List Row) (params : List Value) :
    executeJoin s' dbId isFirst name1 result (join.renameTable τ) params =
      executeJoin s dbId isFirst name1 result join params := by
  obtain ⟨relation, op⟩ := join
  have hstore := h.stores _ hjoin
  have hschema := h.schemas _ hjoin
  by_cases hold : relation.name = τ.old
  · rw [hold, TableRenaming.name_old] at hstore hschema
    obtain ⟨st, hst⟩ := Option.isSome_iff_exists.mp h.movable.store
    obtain ⟨alias_, hparse⟩ : ∃ alias_, parseTableFactor relation = (τ.old, alias_) :=
      ⟨_, Prod.ext ((parseTableFactor_fst relation).trans hold) rfl⟩
    have hparse' : ∀ name, parseTableFactor (.table τ.new name) = (τ.new, name) := fun _ => rfl
    rw [Join.renameTable, TableFactor.renameTable, if_pos hold, hold, hparse]
    simp only [executeJoin, hparse, hparse', tableRefName, Option.getD_some, hstore, hschema, hst,
      h.joinConditionMatches_eq]
  · rw [TableRenaming.name_of_ne hold] at hstore hschema
    rw [Join.renameTable, TableFactor.renameTable_of_ne hold]
    simp only [executeJoin]
    rw [← parseTableFactor_fst] at hstore hschema
    simp only [hstore, hschema, h.joinConditionMatches_eq]

theorem Moved.foldlM_executeJoin_eq {joins : List Join}
    (hjoins : τ.new ∉ joins.map fun join => join.relation.name) (name1 : String) (params : List Value)
    (k : Nat) (result : List Row) :
    ((joins.map (Join.renameTable τ)).zipIdx k).foldlM (fun result e =>
        executeJoin s' dbId (e.2 = 0) name1 result e.1 params) result =
      (joins.zipIdx k).foldlM (fun result e =>
        executeJoin s dbId (e.2 = 0) name1 result e.1 params) result := by
  induction joins generalizing k result with
  | nil => rfl
  | cons join joins ih =>
      rw [List.map_cons, List.mem_cons, not_or] at hjoins
      rw [List.map_cons, List.zipIdx_cons, List.zipIdx_cons, List.foldlM_cons, List.foldlM_cons]
      simp only [h.executeJoin_eq (Ne.symm hjoins.1)]
      exact bind_congr fun result' => ih hjoins.2 (k + 1) result'

theorem Moved.executeJoins_eq {from_ : List TableWithJoins}
    (hfrom : τ.new ∉ from_.flatMap TableWithJoins.tables) (params : List Value) :
    executeJoins s' dbId (from_.map (TableWithJoins.renameTable τ)) params =
      executeJoins s dbId from_ params := by
  cases from_ with
  | nil => rfl
  | cons first rest =>
      obtain ⟨relation, joins⟩ := first
      rw [List.flatMap_cons, List.mem_append, not_or, TableWithJoins.tables, List.mem_cons,
        not_or] at hfrom
      have hstore := h.stores _ (Ne.symm hfrom.1.1)
      have hjoins := h.foldlM_executeJoin_eq hfrom.1.2
      rw [List.map_cons, TableWithJoins.renameTable]
      by_cases hold : relation.name = τ.old
      · rw [hold, TableRenaming.name_old] at hstore
        obtain ⟨st, hst⟩ := Option.isSome_iff_exists.mp h.movable.store
        obtain ⟨alias_, hparse⟩ : ∃ alias_, parseTableFactor relation = (τ.old, alias_) :=
          ⟨_, Prod.ext ((parseTableFactor_fst relation).trans hold) rfl⟩
        have hparse' : ∀ name, parseTableFactor (.table τ.new name) = (τ.new, name) := fun _ => rfl
        rw [TableFactor.renameTable, if_pos hold, hold, hparse]
        simp only [executeJoins, hparse, hparse', tableRefName, Option.getD_some, hstore, hst]
        exact bind_congr fun store1 => hjoins _ _ 0 _
      · rw [TableRenaming.name_of_ne hold, ← parseTableFactor_fst] at hstore
        rw [TableFactor.renameTable_of_ne hold]
        simp only [executeJoins, hstore]
        cases s.getTableStore dbId (parseTableFactor relation).1 with
        | none => rfl
        | some store1 => exact hjoins _ _ 0 _

theorem Moved.finishedRows_eq {fuel : Nat} {query : Query} {select : Select}
    (hfrom : τ.new ∉ select.from_.flatMap TableWithJoins.tables) (params : List Value)
    (hviews : ∀ view q, s.viewQuery dbId view = some q →
      executeSelect s' dbId fuel q params = executeSelect s dbId fuel q params) :
    finishedRows s' dbId fuel (query.renameTable τ) (select.renameTable τ) params =
      finishedRows s dbId fuel query select params := by
  have hjoins := h.executeJoins_eq hfrom params
  have hrenamed : (select.renameTable τ).from_ = select.from_.map (TableWithJoins.renameTable τ) := rfl
  have hfinish := fun rows => h.finishSelect_eq query select params rows
  unfold finishedRows
  rw [hrenamed]
  rcases hcase : select.from_ with _ | ⟨⟨relation, joins⟩, rest⟩
  · rfl
  · rw [hcase, List.map_cons] at hjoins
    rw [hcase] at hfrom
    rcases joins with _ | ⟨join, joins⟩
    · rcases rest with _ | ⟨next, rest⟩
      · have hne : relation.name ≠ τ.new := fun heq => hfrom (heq ▸ List.mem_cons_self)
        have hrows := h.rowsForSimpleWhere_eq hne select.selection params
        have hschema := h.schemas _ hne
        have hview := h.getViewDefinition_eq relation.name
        have hselection : (select.renameTable τ).selection = select.selection := rfl
        rw [← TableFactor.name_renameTable] at hrows hschema hview
        simp only [List.map_cons, List.map_nil, TableWithJoins.renameTable, parseTableFactor_fst,
          hview, hfinish, hschema, hselection, hrows]
        cases hdef : s.getViewDefinition dbId relation.name with
        | none => rfl
        | some viewSql =>
            simp only
            cases hparse : parseStatements viewSql with
            | error => simp only [bind, Except.bind]
            | ok stmts =>
                rcases stmts with _ | ⟨stmt, stmts⟩
                · simp only [bind, Except.bind, List.head?_nil]
                · simp only [bind, Except.bind, List.head?_cons]
                  cases stmt with
                  | query q =>
                      have hinner := hviews relation.name q (by
                        rw [KvsState.viewQuery, hdef, Option.bind_some, readQuery, hparse])
                      simp only [hinner]
                  | _ => simp only
      · simp only [List.map_cons, TableWithJoins.renameTable, List.map_nil, hfinish, ← hjoins]
    · simp only [List.map_cons, TableWithJoins.renameTable, hfinish, ← hjoins]

/-- A SELECT gives the same. -/
theorem Moved.executeSelect_eq (fuel : Nat) {query : Query} (hquery : τ.new ∉ query.tables)
    (params : List Value) :
    executeSelect s' dbId fuel (query.renameTable τ) params =
      executeSelect s dbId fuel query params := by
  induction fuel generalizing query with
  | zero => rfl
  | succ fuel ih =>
      cases hbody : query.body with
      | select select =>
          rw [Query.tables, hbody] at hquery
          have hbody' : (query.renameTable τ).body = .select (select.renameTable τ) := by
            rw [Query.renameTable, hbody]
          rw [executeSelect_succ hbody, executeSelect_succ hbody',
            h.finishedRows_eq hquery params fun view q hview => ?_]
          · rfl
          · have hinner := ih (h.movable.fresh.viewTables view q hview)
            rwa [Query.renameTable_of_notMem (h.movable.detached.viewTables view q hview)] at hinner
      | values | other =>
          have hsame : query.renameTable τ = query := by rw [Query.renameTable, hbody]
          have hresult : ∀ s : KvsState, executeSelect s dbId (fuel + 1) query params =
              .error (.err (.unsupported "Only simple SELECT statements are supported")) := by
            intro s
            rw [executeSelect, hbody]
            rfl
          rw [hsame, hresult, hresult]

/-! ### Candidate rows -/

theorem Moved.candidateRows_eq (fuel : Nat) (schema : TableSchema) (columns : List Ident)
    {source : Option Query} (hsource : τ.new ∉ source.elim [] Query.tables) (params : List Value) :
    candidateRows s' fuel dbId schema columns (source.map (Query.renameTable τ)) params =
      candidateRows s fuel dbId schema columns source params := by
  cases source with
  | none => rfl
  | some q =>
      cases hbody : q.body with
      | select select =>
          have hbody' : (q.renameTable τ).body = .select (select.renameTable τ) := by
            rw [Query.renameTable, hbody]
          simp only [candidateRows, Option.map_some, hbody, hbody', h.executeSelect_eq fuel hsource]
      | values | other =>
          have hsame : q.renameTable τ = q := by rw [Query.renameTable, hbody]
          simp only [candidateRows, Option.map_some, hsame, hbody]

end Reads

end Skvs
