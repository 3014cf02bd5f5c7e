import Skvs.Proof.Constraints
import Skvs.Proof.MovedTable
import Skvs.Proof.Reversible

/-!
# Row changes in a table under another name

A row passes the same checks, unless it is a row of the table itself that they have to find: UNIQUE and
FOREIGN KEY look for it under the old name. Changing a row and undoing the change lead to states that
are alike again.
-/

namespace Skvs

variable [Externals] {τ : TableRenaming} {dbId : UInt32} {s s' : KvsState}

/-! ### The checks of a row -/

/-- No check of the row that is reached fails for what the table holds: its keys, if they are looked for
in the table, are not found there, and the rows of the table that it refers to are. -/
structure Unhindered (τ : TableRenaming) (dbId : UInt32) (s : KvsState) (schema : TableSchema)
    (row : Row) (rowid : RowId) : Prop where
  keys : schema.name = τ.old → checkNotNulls schema row = .ok () →
    (∀ e ∈ schema.columns.entries, checkColumnUnique s dbId schema row rowid e.1 e.2 = .ok ()) ∧
      ∀ group ∈ schema.uniqueGroups, (groupValues group row).any Value.isNull = false →
        valueExistsElsewhere s dbId schema group.columns (groupValues group row) rowid = false
  references : checkNotNulls schema row = .ok () →
    checkUniqueness s dbId schema row rowid = .ok () → ∀ fk ∈ schema.foreignKeys,
      fk.refTable = τ.old → checkForeignKey s dbId schema row fk = .ok ()

omit [Externals] in
theorem forM_congr_of_mem {ε α : Type} {f g : α → Except ε Unit} {l : List α}
    (h : ∀ a ∈ l, f a = g a) : l.forM f = l.forM g := by
  induction l with
  | nil => rfl
  | cons a l ih =>
      rw [List.forall_mem_cons] at h
      exact congrArg₂ (fun x (y : Except ε Unit) => x >>= fun _ => y) h.1 (ih h.2)

section Checks

variable (h : Moved τ dbId s s') {schema : TableSchema} {row : Row} {rowid : RowId}
include h

theorem Moved.valueExistsElsewhere_of_ne (hold : schema.name ≠ τ.old) (hnew : schema.name ≠ τ.new)
    (columns : List String) (values : List Value) :
    valueExistsElsewhere s' dbId schema columns values rowid =
      valueExistsElsewhere s dbId schema columns values rowid := by
  simp only [valueExistsElsewhere, h.stores_of_ne hold hnew, lookupIndex,
    h.indexes schema.name _ hold hnew]

theorem Moved.valueExistsElsewhere_of_old (hold : schema.name = τ.old) (columns : List String)
    (values : List Value) : valueExistsElsewhere s' dbId schema columns values rowid = false :=
  valueExistsElsewhere_none (hold ▸ h.gone) columns values

theorem Moved.checkUniqueness_eq (hnew : schema.name ≠ τ.new)
    (hun : Unhindered τ dbId s schema row rowid) (hnulls : checkNotNulls schema row = .ok ()) :
    checkUniqueness s' dbId schema row rowid = checkUniqueness s dbId schema row rowid := by
  by_cases hold : schema.name = τ.old
  · obtain ⟨hcolumns, hgroups⟩ := hun.keys hold hnulls
    have hcolumn : ∀ e ∈ schema.columns.entries, checkColumnUnique s' dbId schema row rowid e.1 e.2 =
        checkColumnUnique s dbId schema row rowid e.1 e.2 := by
      intro e he
      rw [hcolumns e he, checkColumnUnique_ok_iff]
      exact fun _ val _ _ => h.valueExistsElsewhere_of_old hold _ _
    have hgroup : ∀ group ∈ schema.uniqueGroups, checkUniqueGroup s' dbId schema row rowid group =
        checkUniqueGroup s dbId schema row rowid group := by
      intro group hin
      cases hnull : (groupValues group row).any Value.isNull with
      | true => simp only [checkUniqueGroup, hnull, Bool.and_true, if_true]
      | false =>
          simp only [checkUniqueGroup, h.valueExistsElsewhere_of_old hold, hgroups group hin hnull]
    rw [checkUniqueness, checkUniqueness, forM_congr_of_mem hcolumn, forM_congr_of_mem hgroup]
  · simp only [checkUniqueness, checkColumnUnique, checkUniqueGroup,
      h.valueExistsElsewhere_of_ne hold hnew]

theorem Moved.checkForeignKeys_eq (hnew : ∀ fk ∈ schema.foreignKeys, fk.refTable ≠ τ.new)
    (hun : Unhindered τ dbId s schema row rowid) (hnulls : checkNotNulls schema row = .ok ())
    (hunique : checkUniqueness s dbId schema row rowid = .ok ()) :
    checkForeignKeys s' dbId schema row = checkForeignKeys s dbId schema row := by
  refine forM_congr_of_mem fun fk hfk => ?_
  by_cases hold : fk.refTable = τ.old
  · rw [hun.references hnulls hunique fk hfk hold, checkForeignKey_ok_iff, hold, h.gone]
    intro _ _ _ _ hnone
    cases hnone
  · simp only [checkForeignKey, h.stores_of_ne hold (hnew fk hfk)]

theorem Moved.validateConstraints_eq
    (hfresh : schema.name ≠ τ.new ∧ ∀ fk ∈ schema.foreignKeys, fk.refTable ≠ τ.new)
    (hun : Unhindered τ dbId s schema row rowid) :
    validateConstraints s' dbId schema row rowid = validateConstraints s dbId schema row rowid := by
  obtain ⟨hname, hrefs⟩ := hfresh
  rw [Skvs.validateConstraints_eq, Skvs.validateConstraints_eq]
  cases hnulls : checkNotNulls schema row with
  | error => rfl
  | ok =>
      rw [h.checkUniqueness_eq hname hun hnulls]
      cases hunique : checkUniqueness s dbId schema row rowid with
      | error => rfl
      | ok => rw [h.checkForeignKeys_eq hrefs hun hnulls hunique]

end Checks

/-! ### Changes of the state -/

omit [Externals] in
theorem TableRenaming.name_ne_old (x : String) : τ.name x ≠ τ.old := by
  rw [name]
  split_ifs with hx
  · exact τ.ne.symm
  · exact hx

theorem Movable.frame (h : Movable τ dbId s) (hschemas : s'.schemas = s.schemas)
    (hstore : s'.hasStore dbId τ.old = s.hasStore dbId τ.old) (htriggers : s'.triggers = s.triggers)
    (hviews : s'.views = s.views)
    (hfts : ∀ x, s.getFtsTable dbId x = none → s'.getFtsTable dbId x = none) :
    Movable τ dbId s' := by
  have hschema : ∀ x, s'.getSchema dbId x = s.getSchema dbId x := fun x => by
    rw [KvsState.getSchema, KvsState.getSchema, hschemas]
  have htrigger : ∀ x, s'.getTriggers dbId x = s.getTriggers dbId x := fun x => by
    rw [KvsState.getTriggers, KvsState.getTriggers, htriggers]
  have hview : ∀ x, s'.getViewDefinition dbId x = s.getViewDefinition dbId x := fun x => by
    rw [KvsState.getViewDefinition, KvsState.getViewDefinition, hviews]
  obtain ⟨hthere, hheld, hfresh, hdetached, hbodies⟩ := h
  refine ⟨by rw [hschema]; exact hthere, hstore.trans hheld, ⟨?_, hfts _ hfresh.fullText, ?_, ?_, ?_⟩,
    ⟨hfts _ hdetached.fullText, ?_, ?_, ?_⟩, ?_⟩
  · simpa only [hschema] using hfresh.schemas
  · rw [htrigger, hfresh.triggers]
  · rw [hview, hfresh.view]
  · simpa only [KvsState.viewQuery, hview] using hfresh.viewTables
  · rw [htrigger, hdetached.triggers]
  · rw [hview, hdetached.view]
  · simpa only [KvsState.viewQuery, hview] using hdetached.viewTables
  · simpa only [BodiesAvoid, htrigger] using hbodies

namespace Moved

variable (h : Moved τ dbId s s')
include h

theorem hasStore_eq {x : String} (hx : x ≠ τ.new) :
    s'.hasStore dbId (τ.name x) = s.hasStore dbId x := by
  rw [KvsState.hasStore, KvsState.hasStore, h.stores x hx]

theorem row_eq {x : String} (hx : x ≠ τ.new) (rowid : RowId) :
    s'.row ⟨dbId, τ.name x, rowid⟩ = s.row ⟨dbId, x, rowid⟩ := by
  rw [KvsState.row, KvsState.row, KvsState.rowAt, KvsState.rowAt, h.stores x hx]

theorem withTxns {txns txns' : TxnManager} (hnext : txns'.nextId = txns.nextId) :
    Moved τ dbId { s with txns } { s' with txns := txns' } :=
  ⟨h.stores, h.gone, h.schemas, h.counters, h.indexes, h.listed, h.triggers, h.views, h.ftsTables,
    hnext, h.movable.frame rfl rfl rfl rfl fun _ hnone => hnone⟩

theorem record (txId : Option UInt32) (op op' : UndoOp) :
    Moved τ dbId (s.record txId op) (s'.record txId op') := by
  cases txId with
  | none => exact h
  | some id => exact h.withTxns h.nextId

theorem getNextRowid {x : String} (hx : x ≠ τ.new) :
    Moved τ dbId (s.getNextRowid dbId x).2 (s'.getNextRowid dbId (τ.name x)).2 where
  stores := h.stores
  gone := h.gone
  schemas := h.schemas
  counters y hy := by
    have hcount : ∀ (s : KvsState) (x y : String), ((s.getNextRowid dbId x).2).rowidCounter dbId y =
        if y = x then s.rowidCounter dbId x + 1 else s.rowidCounter dbId y := by
      intro s x y
      simp only [KvsState.rowidCounter, KvsState.getNextRowid, IndexMap.getD, IndexMap.get_insert,
        if_true, Option.getD_some]
      split_ifs <;> rfl
    simp only [hcount, TableRenaming.name_inj hx hy, h.counters x hx, h.counters y hy]
  indexes := h.indexes
  listed := h.listed
  triggers := h.triggers
  views := h.views
  ftsTables := h.ftsTables
  nextId := h.nextId
  movable := h.movable.frame rfl rfl rfl rfl fun _ hnone => hnone

theorem setRow {x : String} (hx : x ≠ τ.new) (after : Option Row) (rowid : RowId) :
    Moved τ dbId (s.modifyStore dbId x (Skvs.setRow after rowid))
      (s'.modifyStore dbId (τ.name x) (Skvs.setRow after rowid)) where
  stores y hy := by
    simp only [getTableStore_modifyStore, TableRenaming.name_inj hx hy, h.stores y hy]
  gone := by
    rw [getTableStore_modifyStore, if_neg fun hand => TableRenaming.name_ne_old x hand.2.symm, h.gone]
  schemas := h.schemas
  counters := h.counters
  indexes := h.indexes
  listed := h.listed
  triggers := h.triggers
  views := h.views
  ftsTables := h.ftsTables
  nextId := h.nextId
  movable := h.movable.frame rfl (hasStore_modifyStore ..) rfl rfl fun _ hnone => hnone

omit h in
omit [Externals] in
theorem indexStore_foldl_moved {x y n : String} (hx : x ≠ τ.new) (hy : y ≠ τ.new) (rowid : RowId)
    (copy after : Option Row) {indices : List IndexDef}
    (heq : s'.indexStore dbId (τ.name y) n = s.indexStore dbId y n) :
    (indices.foldl (indexStep dbId (τ.name x) rowid copy after) s').indexStore dbId (τ.name y) n =
      (indices.foldl (indexStep dbId x rowid copy after) s).indexStore dbId y n := by
  induction indices generalizing s s' with
  | nil => exact heq
  | cons idx indices ih =>
      refine ih ?_
      rw [indexStore_indexStep, indexStore_indexStep, heq]
      simp only [TableRenaming.name_inj hx hy]

theorem indexChange {x : String} (hx : x ≠ τ.new) (rowid : RowId) (copy after : Option Row) :
    Moved τ dbId (Skvs.indexChange s dbId x rowid copy after)
      (Skvs.indexChange s' dbId (τ.name x) rowid copy after) := by
  have hindexes : ∀ y n, y ≠ τ.new → s'.indexStore dbId (τ.name y) n = s.indexStore dbId y n →
      (Skvs.indexChange s' dbId (τ.name x) rowid copy after).indexStore dbId (τ.name y) n =
        (Skvs.indexChange s dbId x rowid copy after).indexStore dbId y n := by
    intro y n hy heq
    rw [Skvs.indexChange, Skvs.indexChange, h.schemas x hx]
    cases s.getSchema dbId x with
    | none => exact heq
    | some schema => exact indexStore_foldl_moved hx hy rowid copy after heq
  obtain ⟨indexes, heq⟩ := indexChange_frame s dbId x rowid copy after
  obtain ⟨indexes', heq'⟩ := indexChange_frame s' dbId (τ.name x) rowid copy after
  rw [heq, heq'] at hindexes ⊢
  refine ⟨h.stores, h.gone, h.schemas, h.counters, fun y n hold hnew => ?_,
    fun schema hschema idx hidx => ?_, h.triggers, h.views, h.ftsTables, h.nextId,
    h.movable.frame rfl rfl rfl rfl fun _ hnone => hnone⟩
  · have hmoved := hindexes y n hnew
    rw [TableRenaming.name_of_ne hold] at hmoved
    exact hmoved (h.indexes y n hold hnew)
  · have hmoved := hindexes τ.old idx.name τ.ne
    rw [TableRenaming.name_old] at hmoved
    exact hmoved (h.listed schema hschema idx hidx)

theorem modifyFts (x : String) (f : FtsIndex → FtsIndex) :
    Moved τ dbId (s.modifyFts dbId x f) (s'.modifyFts dbId x f) where
  stores := h.stores
  gone := h.gone
  schemas := h.schemas
  counters := h.counters
  indexes := h.indexes
  listed := h.listed
  triggers := h.triggers
  views := h.views
  ftsTables := by rw [KvsState.modifyFts, KvsState.modifyFts, h.ftsTables]
  nextId := h.nextId
  movable := by
    refine h.movable.frame rfl rfl rfl rfl fun y hnone => ?_
    rw [getFtsTable_modifyFts, hnone]
    split_ifs <;> rfl

theorem syncFtsIndex {x : String} (rowid : RowId) (row : Option Row) (isDelete : Bool) :
    Moved τ dbId (Skvs.syncFtsIndex s dbId x rowid row isDelete)
      (Skvs.syncFtsIndex s' dbId (τ.name x) rowid row isDelete) := by
  rw [Skvs.syncFtsIndex, Skvs.syncFtsIndex, h.getFtsTable_eq]
  cases hfts : s.getFtsTable dbId x with
  | none => exact h
  | some fts =>
      have hold : x ≠ τ.old := by
        rintro rfl
        rw [h.movable.detached.fullText] at hfts
        cases hfts
      rw [TableRenaming.name_of_ne hold]
      simp only
      split
      · exact h.modifyFts x _
      · exact h

theorem syncFtsIndexChange {x : String} (rowid : RowId) (copy after : Option Row) :
    Moved τ dbId (Skvs.syncFtsIndexChange s dbId x rowid copy after)
      (Skvs.syncFtsIndexChange s' dbId (τ.name x) rowid copy after) := by
  cases copy with
  | none =>
      cases after with
      | none => exact h
      | some row => exact h.syncFtsIndex rowid (some row) false
  | some old =>
      have h' := h.syncFtsIndex (x := x) rowid (some old) true
      cases after with
      | none => exact h'
      | some row => exact h'.syncFtsIndex rowid (some row) false

variable {x : String} (hx : x ≠ τ.new) (rowid : RowId) (copy after : Option Row)
include hx

theorem setIndexed :
    Moved τ dbId (Skvs.setIndexed s ⟨dbId, x, rowid⟩ copy after)
      (Skvs.setIndexed s' ⟨dbId, τ.name x, rowid⟩ copy after) :=
  (h.setRow hx after rowid).indexChange hx rowid copy after

theorem setSynced :
    Moved τ dbId (Skvs.setSynced s ⟨dbId, x, rowid⟩ copy after)
      (Skvs.setSynced s' ⟨dbId, τ.name x, rowid⟩ copy after) :=
  (h.setIndexed hx rowid copy after).syncFtsIndexChange rowid copy after

end Moved

/-! ### Undoing -/

/-- The same entry, for the table under its new name. -/
def UndoOp.renameTable (τ : TableRenaming) : UndoOp → UndoOp
  | .insert x rowid => .insert (τ.name x) rowid
  | .delete x rowid row => .delete (τ.name x) rowid row
  | .update x rowid row => .update (τ.name x) rowid row

omit [Externals] in
theorem undoEntry_renameTable (x : String) (rowid : RowId) (copy after : Option Row) :
    undoEntry ⟨dbId, τ.name x, rowid⟩ copy after =
      (undoEntry ⟨dbId, x, rowid⟩ copy after).renameTable τ := by
  cases copy <;> cases after <;> rfl

theorem Moved.undoOp (h : Moved τ dbId s s') {op : UndoOp} (hop : (op.key dbId).table ≠ τ.new) :
    Moved τ dbId (Skvs.undoOp dbId s op) (Skvs.undoOp dbId s' (op.renameTable τ)) := by
  have hkey : ((op.renameTable τ).key dbId).table = τ.name (op.key dbId).table := by cases op <;> rfl
  have hstores := h.hasStore_eq hop
  cases hstore : s.hasStore dbId (op.key dbId).table with
  | false =>
      rw [undoOp_of_no_store dbId s op hstore,
        undoOp_of_no_store dbId s' (op.renameTable τ) (by rw [hkey, hstores, hstore])]
      exact h
  | true =>
      rw [hstore] at hstores
      cases op with
      | insert x rowid =>
          have hrows := h.row_eq hop rowid
          cases hrow : s.row ⟨dbId, x, rowid⟩ with
          | none =>
              rw [undoOp_insert_of_none dbId s x rowid hrow, UndoOp.renameTable,
                undoOp_insert_of_none dbId s' (τ.name x) rowid (hrows.trans hrow)]
              exact h
          | some row =>
              rw [undoOp_insert dbId s x rowid hrow, UndoOp.renameTable,
                undoOp_insert dbId s' (τ.name x) rowid (hrows.trans hrow)]
              exact h.setSynced hop rowid (some row) none
      | delete x rowid row =>
          rw [undoOp_delete dbId s x rowid row hstore, UndoOp.renameTable,
            undoOp_delete dbId s' (τ.name x) rowid row hstores]
          exact h.setSynced hop rowid none (some row)
      | update x rowid oldRow =>
          have hrows := h.row_eq hop rowid
          cases hrow : s.row ⟨dbId, x, rowid⟩ with
          | none =>
              rw [undoOp_update_of_none dbId s x rowid oldRow hstore hrow, UndoOp.renameTable,
                undoOp_update_of_none dbId s' (τ.name x) rowid oldRow hstores (hrows.trans hrow)]
              exact h.setIndexed hop rowid none (some oldRow)
          | some row =>
              rw [undoOp_update dbId s x rowid oldRow hrow, UndoOp.renameTable,
                undoOp_update dbId s' (τ.name x) rowid oldRow (hrows.trans hrow)]
              exact h.setSynced hop rowid (some row) (some oldRow)

theorem Moved.undoAll (h : Moved τ dbId s s') {ops : List UndoOp}
    (hops : ∀ op ∈ ops, (op.key dbId).table ≠ τ.new) :
    Moved τ dbId (Skvs.undoAll s dbId ops) (Skvs.undoAll s' dbId (ops.map (UndoOp.renameTable τ))) := by
  rw [Skvs.undoAll, Skvs.undoAll, ← List.map_reverse]
  have hrev : ∀ op ∈ ops.reverse, (op.key dbId).table ≠ τ.new := fun op hop =>
    hops op (List.mem_reverse.mp hop)
  generalize ops.reverse = l at hrev ⊢
  induction l generalizing s s' with
  | nil => exact h
  | cons op l ih =>
      rw [List.forall_mem_cons] at hrev
      exact ih (h.undoOp hrev.1) hrev.2

end Skvs
