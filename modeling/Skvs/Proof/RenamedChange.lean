import Skvs.Proof.RenamedTable
import Skvs.Proof.Reversible

/-!
# Row changes with a column renamed

Changing a row and the renamed row keeps the two states alike, entries of indexes and full-text
indexes included; so does undoing the change.
-/

namespace Skvs

variable [Externals] {ρ : ColumnRenaming} {dbId : UInt32} {s s' : KvsState}

theorem Unbound.frame (h : Unbound ρ dbId s) (hschemas : s'.schemas = s.schemas)
    (hstore : ∀ x, s'.hasStore dbId x = s.hasStore dbId x)
    (hfts : ∀ fts', s'.getFtsTable dbId ρ.table = some fts' →
      ∃ fts, s.getFtsTable dbId ρ.table = some fts ∧ fts'.contentColumn = fts.contentColumn) :
    Unbound ρ dbId s' := by
  have hget : ∀ x, s'.getSchema dbId x = s.getSchema dbId x := fun x => by
    rw [KvsState.getSchema, KvsState.getSchema, hschemas]
  constructor
  · simpa only [hget] using h.groups
  · simpa only [hget, hstore] using h.foreignKeys
  · simpa only [hget] using h.references
  · simpa only [hget] using h.columnChecks
  · simpa only [hget] using h.tableChecks
  · simpa only [hget] using h.indices
  · intro fts' hfts'
    obtain ⟨fts, hget', heq⟩ := hfts fts' hfts'
    rw [heq]
    exact h.fullText fts hget'
  · simpa only [hget, hstore] using h.names

omit [Externals] in
/-- Indexes that file two rows alike change alike. -/
theorem indexStore_foldl_congr {x : String} (rowid : RowId) {copy copy' after after' : Option Row}
    {indices : List IndexDef} (hfiled : ∀ idx ∈ indices,
      filed idx copy' = filed idx copy ∧ filed idx after' = filed idx after)
    (heq : ∀ y n, s'.indexStore dbId y n = s.indexStore dbId y n) (y n : String) :
    (indices.foldl (indexStep dbId x rowid copy' after') s').indexStore dbId y n =
      (indices.foldl (indexStep dbId x rowid copy after) s).indexStore dbId y n := by
  induction indices generalizing s s' with
  | nil => exact heq y n
  | cons idx indices ih =>
      rw [List.forall_mem_cons] at hfiled
      refine ih hfiled.2 fun y n => ?_
      rw [indexStore_indexStep, indexStore_indexStep, heq, changeEntries, changeEntries,
        hfiled.1.1, hfiled.1.2]

namespace Renamed

variable (h : Renamed ρ dbId s s')
include h

theorem withTxns {txns txns' : TxnManager} (hnext : txns'.nextId = txns.nextId) :
    Renamed ρ dbId { s with txns } { s' with txns := txns' } :=
  ⟨h.stores, h.schemas, h.counters, h.indexes, h.ftsTables, hnext, h.triggers,
    h.unbound.frame rfl (fun _ => rfl) fun fts hfts => ⟨fts, hfts, rfl⟩⟩

theorem withIndexes {indexes indexes' : IndexMap UInt32 (IndexMap (String × String) IndexStore)}
    (heq : ∀ x n, ({ s' with indexes := indexes' } : KvsState).indexStore dbId x n =
      ({ s with indexes } : KvsState).indexStore dbId x n) :
    Renamed ρ dbId { s with indexes } { s' with indexes := indexes' } :=
  ⟨h.stores, h.schemas, h.counters, heq, h.ftsTables, h.nextId, h.triggers,
    h.unbound.frame rfl (fun _ => rfl) fun fts hfts => ⟨fts, hfts, rfl⟩⟩

theorem record (txId : Option UInt32) (op op' : UndoOp) :
    Renamed ρ dbId (s.record txId op) (s'.record txId op') := by
  cases txId with
  | none => exact h
  | some id => exact h.withTxns h.nextId

theorem getNextRowid (x : String) :
    Renamed ρ dbId (s.getNextRowid dbId x).2 (s'.getNextRowid dbId x).2 where
  stores := h.stores
  schemas := h.schemas
  counters y := by
    have hcount : ∀ (s : KvsState), ((s.getNextRowid dbId x).2).rowidCounter dbId y =
        if y = x then s.rowidCounter dbId x + 1 else s.rowidCounter dbId y := by
      intro s
      simp only [KvsState.rowidCounter, KvsState.getNextRowid, IndexMap.getD, IndexMap.get_insert,
        if_true, Option.getD_some]
      split_ifs <;> rfl
    rw [hcount, hcount, h.counters, h.counters]
  indexes := h.indexes
  ftsTables := h.ftsTables
  nextId := h.nextId
  triggers := h.triggers
  unbound := h.unbound.frame rfl (fun _ => rfl) fun fts hfts => ⟨fts, hfts, rfl⟩

variable {x : String} (rowid : RowId) {copy copy' after after' : Option Row}
  (hcopy : Option.Rel (RowRenamed ρ x) copy copy')
  (hafter : Option.Rel (RowRenamed ρ x) after after')

include hafter in
theorem setRow :
    Renamed ρ dbId (s.modifyStore dbId x (Skvs.setRow after rowid))
      (s'.modifyStore dbId x (Skvs.setRow after' rowid)) where
  stores y := by
    rw [getTableStore_modifyStore, getTableStore_modifyStore]
    split_ifs with hy
    · obtain ⟨-, rfl⟩ := hy
      have hstores := h.stores y
      generalize s'.getTableStore dbId y = st' at hstores ⊢
      generalize s.getTableStore dbId y = st at hstores ⊢
      cases hstores with
      | none => exact .none
      | some hsame =>
          cases hafter with
          | none => exact .some (hsame.erase rowid)
          | some hrow => exact .some (hsame.insert rowid hrow)
    · exact h.stores y
  schemas := h.schemas
  counters := h.counters
  indexes := h.indexes
  ftsTables := h.ftsTables
  nextId := h.nextId
  triggers := h.triggers
  unbound := h.unbound.frame rfl (fun y => hasStore_modifyStore ..) fun fts hfts =>
    ⟨fts, hfts, rfl⟩

theorem filed_eq {schema : TableSchema} (hschema : s.getSchema dbId x = some schema)
    {idx : IndexDef} (hidx : idx ∈ schema.indices) {row row' : Option Row}
    (hrow : Option.Rel (RowRenamed ρ x) row row') : filed idx row' = filed idx row := by
  have hunused : x = ρ.table → idx.columns.head? ≠ some ρ.old.value ∧
      idx.columns.head? ≠ some ρ.new.value := fun hx =>
    h.unbound.indices schema (hx ▸ hschema) idx hidx
  cases hrow with
  | none => rfl
  | some hrow =>
      simp only [filed, Option.bind_some, indexValue]
      cases hhead : idx.columns.head? with
      | none => rfl
      | some c =>
          rw [hhead] at hunused
          exact hrow.get_of_ne (fun hx heq => (hunused hx).1 (congrArg some heq))
            fun hx heq => (hunused hx).2 (congrArg some heq)

include hcopy hafter in
theorem indexChange :
    Renamed ρ dbId (Skvs.indexChange s dbId x rowid copy after)
      (Skvs.indexChange s' dbId x rowid copy' after') := by
  have hindexes : ∀ y n, (Skvs.indexChange s' dbId x rowid copy' after').indexStore dbId y n =
      (Skvs.indexChange s dbId x rowid copy after).indexStore dbId y n := by
    rw [Skvs.indexChange, Skvs.indexChange]
    have hschemas := h.schemas x
    generalize s'.getSchema dbId x = sch' at hschemas ⊢
    cases hschema : s.getSchema dbId x with
    | none =>
        rw [hschema] at hschemas
        cases hschemas
        exact h.indexes
    | some schema =>
        rw [hschema] at hschemas
        cases hschemas with
        | some hren =>
            simp only [hren.indices]
            exact indexStore_foldl_congr rowid (fun idx hidx =>
              ⟨h.filed_eq hschema hidx hcopy, h.filed_eq hschema hidx hafter⟩) h.indexes
  obtain ⟨indexes, heq⟩ := indexChange_frame s dbId x rowid copy after
  obtain ⟨indexes', heq'⟩ := indexChange_frame s' dbId x rowid copy' after'
  rw [heq, heq'] at hindexes ⊢
  exact h.withIndexes hindexes

omit hcopy hafter in
theorem modifyFts (x : String) (f : FtsIndex → FtsIndex) :
    Renamed ρ dbId (s.modifyFts dbId x f) (s'.modifyFts dbId x f) where
  stores := h.stores
  schemas := h.schemas
  counters := h.counters
  indexes := h.indexes
  ftsTables := by rw [KvsState.modifyFts, KvsState.modifyFts, h.ftsTables]
  nextId := h.nextId
  triggers := h.triggers
  unbound := by
    refine h.unbound.frame rfl (fun _ => rfl) fun fts' hfts' => ?_
    rw [getFtsTable_modifyFts] at hfts'
    split_ifs at hfts'
    · obtain ⟨fts, hfts, rfl⟩ := Option.map_eq_some_iff.mp hfts'
      exact ⟨fts, hfts, rfl⟩
    · exact ⟨fts', hfts', rfl⟩

include hcopy in
theorem syncFtsIndex (isDelete : Bool) :
    Renamed ρ dbId (Skvs.syncFtsIndex s dbId x rowid copy isDelete)
      (Skvs.syncFtsIndex s' dbId x rowid copy' isDelete) := by
  have hget : s'.getFtsTable dbId x = s.getFtsTable dbId x := by
    rw [KvsState.getFtsTable, KvsState.getFtsTable, h.ftsTables]
  rw [Skvs.syncFtsIndex, Skvs.syncFtsIndex, hget]
  cases hfts : s.getFtsTable dbId x with
  | none => exact h
  | some fts =>
      have hunused : x = ρ.table → fts.contentColumn ≠ ρ.old.value ∧
          fts.contentColumn ≠ ρ.new.value := fun hx => h.unbound.fullText fts (hx ▸ hfts)
      have hcontent : (copy'.bind fun r => r.get fts.contentColumn) =
          copy.bind fun r => r.get fts.contentColumn := by
        cases hcopy with
        | none => rfl
        | some hrow => exact hrow.get_of_ne (fun hx => (hunused hx).1) fun hx => (hunused hx).2
      simp only [hcontent]
      split
      · exact h.modifyFts x _
      · exact h

include hcopy hafter in
theorem syncFtsIndexChange :
    Renamed ρ dbId (Skvs.syncFtsIndexChange s dbId x rowid copy after)
      (Skvs.syncFtsIndexChange s' dbId x rowid copy' after') := by
  cases hcopy with
  | none =>
      cases hafter with
      | none => exact h
      | some hrow => exact h.syncFtsIndex rowid (.some hrow) false
  | some hold =>
      have h' := h.syncFtsIndex rowid (.some hold) true
      cases hafter with
      | none => exact h'
      | some hrow => exact h'.syncFtsIndex rowid (.some hrow) false

include hcopy hafter in
theorem setIndexed :
    Renamed ρ dbId (Skvs.setIndexed s ⟨dbId, x, rowid⟩ copy after)
      (Skvs.setIndexed s' ⟨dbId, x, rowid⟩ copy' after') :=
  (h.setRow rowid hafter).indexChange rowid hcopy hafter

include hcopy hafter in
theorem setSynced :
    Renamed ρ dbId (Skvs.setSynced s ⟨dbId, x, rowid⟩ copy after)
      (Skvs.setSynced s' ⟨dbId, x, rowid⟩ copy' after') :=
  (h.setIndexed rowid hcopy hafter).syncFtsIndexChange rowid hcopy hafter

omit hcopy hafter in
theorem row (x : String) (rowid : RowId) :
    Option.Rel (RowRenamed ρ x) (s.row ⟨dbId, x, rowid⟩) (s'.row ⟨dbId, x, rowid⟩) := by
  have hstores := h.stores x
  rw [KvsState.row, KvsState.row, KvsState.rowAt, KvsState.rowAt]
  generalize s'.getTableStore dbId x = st' at hstores ⊢
  generalize s.getTableStore dbId x = st at hstores ⊢
  cases hstores with
  | none => exact .none
  | some hsame => exact hsame.get rowid

omit hcopy hafter in
theorem hasStore_eq (x : String) : s'.hasStore dbId x = s.hasStore dbId x := by
  have hstores := h.stores x
  rw [KvsState.hasStore, KvsState.hasStore]
  generalize s'.getTableStore dbId x = st' at hstores ⊢
  generalize s.getTableStore dbId x = st at hstores ⊢
  cases hstores <;> rfl

end Renamed

/-! ### Undoing -/

/-- The same entry, with the row that it puts back renamed. -/
inductive UndoRenamed (ρ : ColumnRenaming) : UndoOp → UndoOp → Prop
  | insert (x : String) (rowid : RowId) : UndoRenamed ρ (.insert x rowid) (.insert x rowid)
  | delete (x : String) (rowid : RowId) {row row' : Row} (h : RowRenamed ρ x row row') :
      UndoRenamed ρ (.delete x rowid row) (.delete x rowid row')
  | update (x : String) (rowid : RowId) {row row' : Row} (h : RowRenamed ρ x row row') :
      UndoRenamed ρ (.update x rowid row) (.update x rowid row')

omit [Externals] in
theorem undoEntry_renamed {x : String} (rowid : RowId) {copy copy' after after' : Option Row}
    (hcopy : Option.Rel (RowRenamed ρ x) copy copy')
    (hafter : Option.Rel (RowRenamed ρ x) after after') :
    UndoRenamed ρ (undoEntry ⟨dbId, x, rowid⟩ copy after)
      (undoEntry ⟨dbId, x, rowid⟩ copy' after') := by
  cases hcopy with
  | none => exact .insert x rowid
  | some hrow =>
      cases hafter with
      | none => exact .delete x rowid hrow
      | some => exact .update x rowid hrow

theorem Renamed.undoOp (h : Renamed ρ dbId s s') {op op' : UndoOp} (hop : UndoRenamed ρ op op') :
    Renamed ρ dbId (Skvs.undoOp dbId s op) (Skvs.undoOp dbId s' op') := by
  have hnone : ∀ {x rowid}, s.row ⟨dbId, x, rowid⟩ = none → s'.row ⟨dbId, x, rowid⟩ = none := by
    intro x rowid hrow
    have hrows := h.row x rowid
    rw [hrow] at hrows
    generalize s'.row ⟨dbId, x, rowid⟩ = row' at hrows
    cases hrows
    rfl
  have hsome : ∀ {x rowid row}, s.row ⟨dbId, x, rowid⟩ = some row →
      ∃ row', s'.row ⟨dbId, x, rowid⟩ = some row' ∧ RowRenamed ρ x row row' := by
    intro x rowid row hrow
    have hrows := h.row x rowid
    rw [hrow] at hrows
    generalize s'.row ⟨dbId, x, rowid⟩ = row' at hrows
    cases hrows with
    | some hren => exact ⟨_, rfl, hren⟩
  cases hstore : s.hasStore dbId (op.key dbId).table with
  | false =>
      have hkey : (op'.key dbId).table = (op.key dbId).table := by cases hop <;> rfl
      rw [undoOp_of_no_store dbId s op hstore,
        undoOp_of_no_store dbId s' op' (by rw [hkey, h.hasStore_eq, hstore])]
      exact h
  | true =>
      cases hop with
      | insert x rowid =>
          cases hrow : s.row ⟨dbId, x, rowid⟩ with
          | none =>
              rw [undoOp_insert_of_none dbId s x rowid hrow,
                undoOp_insert_of_none dbId s' x rowid (hnone hrow)]
              exact h
          | some row =>
              obtain ⟨row', hrow', hren⟩ := hsome hrow
              rw [undoOp_insert dbId s x rowid hrow, undoOp_insert dbId s' x rowid hrow']
              exact h.setSynced rowid (.some hren) .none
      | delete x rowid hren =>
          rw [undoOp_delete dbId s x rowid _ hstore,
            undoOp_delete dbId s' x rowid _ ((h.hasStore_eq x).trans hstore)]
          exact h.setSynced rowid .none (.some hren)
      | update x rowid hren =>
          cases hrow : s.row ⟨dbId, x, rowid⟩ with
          | none =>
              rw [undoOp_update_of_none dbId s x rowid _ hstore hrow,
                undoOp_update_of_none dbId s' x rowid _ ((h.hasStore_eq x).trans hstore)
                  (hnone hrow)]
              exact h.setIndexed rowid .none (.some hren)
          | some row =>
              obtain ⟨row', hrow', hcopy⟩ := hsome hrow
              rw [undoOp_update dbId s x rowid _ hrow, undoOp_update dbId s' x rowid _ hrow']
              exact h.setSynced rowid (.some hcopy) (.some hren)

theorem Renamed.undoAll (h : Renamed ρ dbId s s') {ops ops' : List UndoOp}
    (hops : List.Forall₂ (UndoRenamed ρ) ops ops') :
    Renamed ρ dbId (Skvs.undoAll s dbId ops) (Skvs.undoAll s' dbId ops') := by
  rw [Skvs.undoAll, Skvs.undoAll]
  have hrev := List.rel_reverse hops
  generalize ops.reverse = l at hrev ⊢
  generalize ops'.reverse = l' at hrev ⊢
  induction hrev generalizing s s' with
  | nil => exact h
  | cons hop _ ih => exact ih (h.undoOp hop)

end Skvs
