import Skvs.Proof.Change

/-!
# What replaying a journal does

Each entry names a row and the version to put back. In the reverse replay the first entry for a row
is the last to be undone, so it is the one that counts.
-/

namespace Skvs

/-- The row an entry is about. -/
def UndoOp.key (dbId : UInt32) : UndoOp → Key
  | .insert table rowid | .delete table rowid _ | .update table rowid _ => ⟨dbId, table, rowid⟩

/-- What the row becomes when the entry is undone. -/
def UndoOp.value : UndoOp → Option Row
  | .insert _ _ => none
  | .delete _ _ row => some row
  | .update _ _ oldRow => some oldRow

/-- The entry that a write is journaled as. -/
def undoEntry (k : Key) (copy after : Option Row) : UndoOp :=
  match copy, after with
  | none, _ => .insert k.table k.rowid
  | some old, none => .delete k.table k.rowid old
  | some old, some _ => .update k.table k.rowid old

def Write.entry (x : Write) : UndoOp := undoEntry x.key x.copy x.after

@[simp]
theorem undoEntry_value (k : Key) (copy after : Option Row) :
    (undoEntry k copy after).value = copy := by
  cases copy <;> cases after <;> rfl

@[simp]
theorem undoEntry_key (k : Key) (copy after : Option Row) :
    (undoEntry k copy after).key k.dbId = k := by
  cases copy <;> cases after <;> rfl

theorem Write.entry_key (x : Write) {dbId : UInt32} (h : x.dbId = dbId) :
    x.entry.key dbId = x.key := by
  rw [← h]
  exact undoEntry_key x.key x.copy x.after

theorem KvsState.hasStore_of_row {s : KvsState} {k : Key} {row : Row} (h : s.row k = some row) :
    s.hasStore k.dbId k.table = true := by
  obtain ⟨store, hstore, -⟩ := Option.bind_eq_some_iff.mp
    (show (s.getTableStore k.dbId k.table).bind _ = some row from h)
  rw [KvsState.hasStore, hstore, Option.isSome_some]

variable [Externals] (dbId : UInt32) (s : KvsState)

/-! ### One entry -/

theorem undoOp_insert (table : String) (rowid : RowId) {row : Row}
    (h : s.row ⟨dbId, table, rowid⟩ = some row) :
    undoOp dbId s (.insert table rowid) = setSynced s ⟨dbId, table, rowid⟩ (some row) none := by
  have hrow : s.rowAt dbId table rowid = some row := h
  simp only [undoOp, hrow]
  rfl

theorem undoOp_insert_of_none (table : String) (rowid : RowId)
    (h : s.row ⟨dbId, table, rowid⟩ = none) : undoOp dbId s (.insert table rowid) = s := by
  have hrow : s.rowAt dbId table rowid = none := h
  simp only [undoOp, hrow]

theorem undoOp_delete (table : String) (rowid : RowId) (row : Row)
    (h : s.hasStore dbId table = true) :
    undoOp dbId s (.delete table rowid row) =
      setSynced s ⟨dbId, table, rowid⟩ none (some row) := by
  obtain ⟨store, hstore⟩ := Option.isSome_iff_exists.mp h
  simp only [undoOp, hstore]
  rfl

theorem undoOp_update (table : String) (rowid : RowId) (oldRow : Row) {row : Row}
    (h : s.row ⟨dbId, table, rowid⟩ = some row) :
    undoOp dbId s (.update table rowid oldRow) =
      setSynced s ⟨dbId, table, rowid⟩ (some row) (some oldRow) := by
  obtain ⟨store, hstore, hget⟩ := Option.bind_eq_some_iff.mp
    (show (s.getTableStore dbId table).bind _ = some row from h)
  simp only [undoOp, hstore, hget]
  rfl

/-- A row that is gone has left no full-text entry to move. -/
theorem undoOp_update_of_none (table : String) (rowid : RowId) (oldRow : Row)
    (hstore : s.hasStore dbId table = true) (h : s.row ⟨dbId, table, rowid⟩ = none) :
    undoOp dbId s (.update table rowid oldRow) =
      setIndexed s ⟨dbId, table, rowid⟩ none (some oldRow) := by
  obtain ⟨store, hget⟩ := Option.isSome_iff_exists.mp hstore
  have hnone : store.get rowid = none := by
    have hbind : (s.getTableStore dbId table).bind (fun m => m.get rowid) = none := h
    rwa [hget] at hbind
  simp only [undoOp, hget, hnone, Option.getD_none]
  exact updateIndexes_update_empty ..

theorem undoOp_of_no_store (op : UndoOp) (h : s.hasStore dbId (op.key dbId).table = false) :
    undoOp dbId s op = s := by
  have hstore : s.getTableStore dbId (op.key dbId).table = none := by
    rwa [KvsState.hasStore, Option.isSome_eq_false_iff, Option.isNone_iff_eq_none] at h
  cases op with
  | insert table rowid =>
      exact undoOp_insert_of_none dbId s table rowid (by
        rw [KvsState.row, KvsState.rowAt, show s.getTableStore dbId table = none from hstore]
        rfl)
  | delete table rowid row =>
      simp only [undoOp, show s.getTableStore dbId table = none from hstore]
  | update table rowid oldRow =>
      simp only [undoOp, show s.getTableStore dbId table = none from hstore]

/-- The three things that undoing an entry may do. -/
theorem undoOp_eq (op : UndoOp) :
    undoOp dbId s op = s ∨
      (∃ copy after, undoOp dbId s op = setSynced s (op.key dbId) copy after) ∨
      ∃ after, undoOp dbId s op = setIndexed s (op.key dbId) none after := by
  cases hstore : s.hasStore dbId (op.key dbId).table with
  | false => exact Or.inl (undoOp_of_no_store dbId s op hstore)
  | true =>
      cases op with
      | insert table rowid =>
          cases hrow : s.row ⟨dbId, table, rowid⟩ with
          | none => exact Or.inl (undoOp_insert_of_none dbId s table rowid hrow)
          | some row => exact Or.inr (Or.inl ⟨_, _, undoOp_insert dbId s table rowid hrow⟩)
      | delete table rowid row =>
          exact Or.inr (Or.inl ⟨_, _, undoOp_delete dbId s table rowid row hstore⟩)
      | update table rowid oldRow =>
          cases hrow : s.row ⟨dbId, table, rowid⟩ with
          | none =>
              exact Or.inr (Or.inr ⟨_, undoOp_update_of_none dbId s table rowid oldRow hstore hrow⟩)
          | some row => exact Or.inr (Or.inl ⟨_, _, undoOp_update dbId s table rowid oldRow hrow⟩)

def UndoOp.isDelete : UndoOp → Bool
  | .delete .. => true
  | _ => false

/-- Undoing an entry sets the row that the entry names, unless there is nothing to do. The index
entries it takes out are those of the row that stands there; where a deleted row is put back, none. -/
theorem undoOp_cases (op : UndoOp) (h : s.hasStore dbId (op.key dbId).table = true) :
    undoOp dbId s op = s ∧ s.row (op.key dbId) = op.value ∨
    ∃ copy, (copy = s.row (op.key dbId) ∨ copy = none ∧ op.isDelete = true) ∧
      Sets s (op.key dbId) copy op.value (undoOp dbId s op) := by
  cases op with
  | insert table rowid =>
      cases hrow : s.row ⟨dbId, table, rowid⟩ with
      | none => exact Or.inl ⟨undoOp_insert_of_none dbId s table rowid hrow, hrow⟩
      | some row =>
          rw [undoOp_insert dbId s table rowid hrow]
          exact Or.inr ⟨some row, Or.inl hrow.symm, sets_setSynced ..⟩
  | delete table rowid row =>
      rw [undoOp_delete dbId s table rowid row h]
      exact Or.inr ⟨none, Or.inr ⟨rfl, rfl⟩, sets_setSynced ..⟩
  | update table rowid oldRow =>
      cases hrow : s.row ⟨dbId, table, rowid⟩ with
      | none =>
          rw [undoOp_update_of_none dbId s table rowid oldRow h hrow]
          exact Or.inr ⟨none, Or.inl hrow.symm, sets_setIndexed ..⟩
      | some row =>
          rw [undoOp_update dbId s table rowid oldRow hrow]
          exact Or.inr ⟨some row, Or.inl hrow.symm, sets_setSynced ..⟩

/-- What survives every setting of the row that an entry names survives undoing it. -/
theorem undoOp_keeps {P : KvsState → Prop} {op : UndoOp} (h : P s)
    (hsets : ∀ copy s', Sets s (op.key dbId) copy op.value s' → P s') : P (undoOp dbId s op) := by
  cases hstore : s.hasStore dbId (op.key dbId).table with
  | false =>
      rw [undoOp_of_no_store dbId s op hstore]
      exact h
  | true =>
      rcases undoOp_cases dbId s op hstore with ⟨heq, -⟩ | ⟨copy, -, hcopy⟩
      · rw [heq]
        exact h
      · exact hsets copy _ hcopy

omit [Externals] in
theorem UndoOp.key_dbId (op : UndoOp) : (op.key dbId).dbId = dbId := by cases op <;> rfl

theorem undoOp_row (op : UndoOp) (k : Key)
    (h : k = op.key dbId → s.hasStore k.dbId k.table = true) :
    (undoOp dbId s op).row k = if k = op.key dbId then op.value else s.row k := by
  have hdb := op.key_dbId dbId
  cases hstore : s.hasStore dbId (op.key dbId).table with
  | false =>
      have hne : k ≠ op.key dbId := by
        rintro rfl
        rw [hdb, hstore] at h
        exact Bool.false_ne_true (h rfl)
      rw [undoOp_of_no_store dbId s op hstore, if_neg hne]
  | true =>
      rcases undoOp_cases dbId s op hstore with ⟨heq, hrow⟩ | ⟨copy, -, hsets⟩
      · rw [heq]
        split_ifs with hk
        · rw [hk, hrow]
        · rfl
      · exact hsets.row (hdb.symm ▸ hstore) k

/-- Undoing the newest write puts back its copy in place of what it had stored. -/
theorem undoOp_undoEntry {k : Key} (hdb : k.dbId = dbId)
    (hstore : s.hasStore k.dbId k.table = true) (copy : Option Row) :
    undoOp dbId s (undoEntry k copy (s.row k)) = setSynced s k (s.row k) copy ∨
      undoOp dbId s (undoEntry k copy (s.row k)) = s ∧ s.row k = copy := by
  obtain ⟨db, table, rowid⟩ := k
  obtain rfl : db = dbId := hdb
  cases hrow : s.row ⟨db, table, rowid⟩ with
  | none =>
      cases copy with
      | none => exact Or.inr ⟨undoOp_insert_of_none db s table rowid hrow, rfl⟩
      | some old => exact Or.inl (undoOp_delete db s table rowid old hstore)
  | some row =>
      cases copy with
      | none => exact Or.inl (undoOp_insert db s table rowid hrow)
      | some old => exact Or.inl (undoOp_update db s table rowid old hrow)

/-! ### The whole journal -/

theorem undoAll_nil : undoAll s dbId [] = s := rfl

theorem undoAll_cons (op : UndoOp) (ops : List UndoOp) :
    undoAll s dbId (op :: ops) = undoOp dbId (undoAll s dbId ops) op := by
  rw [undoAll, List.reverse_cons, List.foldl_append]
  rfl

theorem undoAll_keeps {P : KvsState → Prop} {ops : List UndoOp} (h : P s)
    (hsets : ∀ op ∈ ops, ∀ s copy s', P s → Sets s (op.key dbId) copy op.value s' → P s') :
    P (undoAll s dbId ops) := by
  induction ops with
  | nil => exact h
  | cons op ops ih =>
      have hops := ih fun op' hop' => hsets op' (List.mem_cons_of_mem op hop')
      rw [undoAll_cons]
      exact undoOp_keeps dbId _ hops fun copy s' => hsets op List.mem_cons_self _ copy s' hops

theorem undoAll_schemas (ops : List UndoOp) : (undoAll s dbId ops).schemas = s.schemas :=
  undoAll_keeps dbId s (P := fun s' => s'.schemas = s.schemas) rfl
    fun _ _ _ _ _ h hsets => hsets.schemas.trans h

theorem undoAll_triggers (ops : List UndoOp) : (undoAll s dbId ops).triggers = s.triggers :=
  undoAll_keeps dbId s (P := fun s' => s'.triggers = s.triggers) rfl
    fun _ _ _ _ _ h hsets => hsets.triggers.trans h

theorem undoAll_txns (ops : List UndoOp) : (undoAll s dbId ops).txns = s.txns :=
  undoAll_keeps dbId s (P := fun s' => s'.txns = s.txns) rfl
    fun _ _ _ _ _ h hsets => hsets.txns.trans h

theorem undoAll_hasStore (ops : List UndoOp) (dbId' : UInt32) (table : String) :
    (undoAll s dbId ops).hasStore dbId' table = s.hasStore dbId' table :=
  undoAll_keeps dbId s (P := fun s' => s'.hasStore dbId' table = s.hasStore dbId' table) rfl
    fun _ _ _ _ _ h hsets => (hsets.hasStore dbId' table).trans h

theorem undoAll_append (ops ops' : List UndoOp) :
    undoAll s dbId (ops ++ ops') = undoAll (undoAll s dbId ops') dbId ops := by
  rw [undoAll, List.reverse_append, List.foldl_append]
  rfl

/-- The first entry for a row decides what it becomes; the other rows keep what they hold. -/
theorem undoAll_row (ops : List UndoOp) (k : Key)
    (h : ∀ op ∈ ops, op.key dbId = k → s.hasStore k.dbId k.table = true) :
    (undoAll s dbId ops).row k =
      match ops.find? fun op => op.key dbId = k with
      | some op => op.value
      | none => s.row k := by
  induction ops with
  | nil => rfl
  | cons op ops ih =>
      have hstore : k = op.key dbId → (undoAll s dbId ops).hasStore k.dbId k.table = true := by
        intro hk
        rw [undoAll_hasStore]
        exact h op List.mem_cons_self hk.symm
      rw [undoAll_cons, undoOp_row dbId _ op k hstore, List.find?_cons,
        ih fun op' hop' => h op' (List.mem_cons_of_mem op hop')]
      by_cases hk : op.key dbId = k
      · simp [hk]
      · simp [hk, Ne.symm hk]

omit [Externals] in
theorem KvsState.row_of_no_store {s : KvsState} {k : Key} (h : s.hasStore k.dbId k.table = false) :
    s.row k = none := by
  cases hrow : s.row k with
  | none => rfl
  | some row => exact absurd (KvsState.hasStore_of_row hrow) (by simp [h])

/-- The same without regard to whether the table is there. -/
theorem undoAll_row_eq (ops : List UndoOp) (k : Key) :
    (undoAll s dbId ops).row k =
      match ops.find? fun op => op.key dbId = k with
      | some op => if s.hasStore k.dbId k.table then op.value else none
      | none => s.row k := by
  cases hstore : s.hasStore k.dbId k.table with
  | true =>
      rw [undoAll_row dbId s ops k fun _ _ _ => hstore]
      cases ops.find? fun op => op.key dbId = k <;> rfl
  | false =>
      rw [KvsState.row_of_no_store (s := undoAll s dbId ops) (by rw [undoAll_hasStore, hstore]),
        KvsState.row_of_no_store hstore]
      cases ops.find? fun op => op.key dbId = k <;> rfl

end Skvs
