import Skvs.Constraint
import Skvs.Lib.Program

/-!
# When a row passes its checks
-/

namespace Skvs

section

variable (state : KvsState) (dbId : UInt32) (schema : TableSchema) (row : Row) (rowid : RowId)

def checkNotNulls : Except SkvsError Unit :=
  schema.columns.entries.forM fun (colName, colDef) => checkNotNull row colName colDef

/-- The column flags first, then the groups. -/
def checkUniqueness : Except SkvsError Unit := do
  schema.columns.entries.forM fun (colName, colDef) =>
    checkColumnUnique state dbId schema row rowid colName colDef
  schema.uniqueGroups.forM fun group => checkUniqueGroup state dbId schema row rowid group

def checkForeignKeys : Except SkvsError Unit :=
  schema.foreignKeys.forM fun fk => checkForeignKey state dbId schema row fk

def checkChecks [Externals] : Except SkvsError Unit := do
  schema.columns.entries.forM fun (colName, colDef) => checkColumnCheck schema row colName colDef
  schema.tableChecks.forM fun checkSql => checkTableCheck schema row checkSql

variable {state dbId schema row rowid}

theorem checkNotNulls_ok_iff :
    checkNotNulls schema row = .ok () ↔
      ∀ e ∈ schema.columns.entries, e.2.notNull = true →
        ((row.get e.1).getD .null).isNull = false := by
  rw [checkNotNulls, Except.forM_eq_ok_iff]
  refine forall₂_congr fun e _ => ?_
  simp only [checkNotNull]
  cases e.2.notNull <;> cases ((row.get e.1).getD .null).isNull <;> simp

theorem checkColumnUnique_ok_iff {colName : String} {colDef : ColumnDef} :
    checkColumnUnique state dbId schema row rowid colName colDef = .ok () ↔
      ((colDef.unique || colDef.primaryKey) = true → ∀ val, row.get colName = some val →
        val.isNull = false →
          valueExistsElsewhere state dbId schema [colName] [val] rowid = false) := by
  rw [checkColumnUnique]
  cases colDef.unique || colDef.primaryKey with
  | false => simp
  | true =>
      rw [if_pos rfl]
      cases row.get colName with
      | none => simp
      | some val =>
          cases hnull : val.isNull <;>
            cases hdup : valueExistsElsewhere state dbId schema [colName] [val] rowid <;>
              simp [hnull, hdup]

theorem checkUniqueGroup_ok_iff {group : UniqueGroup} :
    checkUniqueGroup state dbId schema row rowid group = .ok () ↔
      (group.isPrimary = true → (groupValues group row).any Value.isNull = false) ∧
        ((groupValues group row).any Value.isNull = false →
          valueExistsElsewhere state dbId schema group.columns (groupValues group row) rowid =
            false) := by
  simp only [checkUniqueGroup]
  cases group.isPrimary <;> cases (groupValues group row).any Value.isNull <;>
    cases valueExistsElsewhere state dbId schema group.columns (groupValues group row) rowid <;> simp

theorem checkUniqueness_ok_iff :
    checkUniqueness state dbId schema row rowid = .ok () ↔
      (∀ e ∈ schema.columns.entries,
        checkColumnUnique state dbId schema row rowid e.1 e.2 = .ok ()) ∧
      (∀ group ∈ schema.uniqueGroups,
        checkUniqueGroup state dbId schema row rowid group = .ok ()) := by
  rw [checkUniqueness, Except.bind_eq_ok_iff, Except.forM_eq_ok_iff, Except.forM_eq_ok_iff]

theorem checkForeignKey_ok_iff {fk : ForeignKeyDef} :
    checkForeignKey state dbId schema row fk = .ok () ↔
      (fk.column.isEmpty = false → ∀ val refStore, row.get fk.column = some val →
        state.getTableStore dbId fk.refTable = some refStore → val.isNull = false →
          ∃ entry ∈ refStore.entries, Row.holds entry.2 fk.refColumn val = true) := by
  rw [checkForeignKey]
  cases fk.column.isEmpty with
  | true => simp
  | false =>
      rw [if_neg (by simp)]
      cases row.get fk.column with
      | none => simp
      | some val =>
          cases state.getTableStore dbId fk.refTable with
          | none => simp
          | some refStore =>
              cases hnull : val.isNull with
              | true => simp [hnull]
              | false => simp [hnull, List.any_eq_true]

theorem validateConstraints_eq [Externals] :
    validateConstraints state dbId schema row rowid = (do
      checkNotNulls schema row
      checkUniqueness state dbId schema row rowid
      checkForeignKeys state dbId schema row
      checkChecks schema row) := by
  simp only [validateConstraints, checkNotNulls, checkUniqueness, checkForeignKeys, checkChecks,
    bind_assoc]

theorem validateConstraints_ok [Externals]
    (h : validateConstraints state dbId schema row rowid = .ok ()) :
    checkNotNulls schema row = .ok () ∧ checkUniqueness state dbId schema row rowid = .ok () ∧
      checkForeignKeys state dbId schema row = .ok () := by
  rw [validateConstraints_eq, Except.bind_eq_ok_iff, Except.bind_eq_ok_iff,
    Except.bind_eq_ok_iff] at h
  exact ⟨h.1, h.2.1, h.2.2.1⟩

end

/-- The other rows of a store that agree with the values in the given columns. -/
def AgreesElsewhere (store : Store) (cols : List String) (vals : List Value) (rowid : RowId) :
    Prop :=
  ∃ entry ∈ store.entries, entry.1 ≠ rowid ∧
    ∀ cv ∈ cols.zip vals, Row.holds entry.2 cv.1 cv.2 = true

section Elsewhere

variable {state : KvsState} {dbId : UInt32} {schema : TableSchema} {store : Store} {rowid : RowId}

theorem valueExistsElsewhere_none (hnone : state.getTableStore dbId schema.name = none)
    (cols : List String) (vals : List Value) :
    valueExistsElsewhere state dbId schema cols vals rowid = false := by
  rw [valueExistsElsewhere, hnone]

variable (hstore : state.getTableStore dbId schema.name = some store)
include hstore

/-- Without a single-column index on the columns the lookup is a scan. -/
theorem valueExistsElsewhere_scan {cols : List String} {vals : List Value}
    (hnone : ∀ col, cols = [col] → findIndex schema col = none) :
    valueExistsElsewhere state dbId schema cols vals rowid = true ↔
      AgreesElsewhere store cols vals rowid := by
  have hscan : valueExistsElsewhere state dbId schema cols vals rowid =
      store.entries.any fun entry =>
        entry.1 ≠ rowid && (cols.zip vals).all fun cv => Row.holds entry.2 cv.1 cv.2 := by
    rw [valueExistsElsewhere, hstore]
    rcases cols with _ | ⟨col, _ | ⟨_, _⟩⟩
    · rfl
    · cases vals with
      | nil => rfl
      | cons => simp only [hnone col rfl]
    · rfl
  rw [hscan, List.any_eq_true]
  refine exists_congr fun entry => and_congr_right fun _ => ?_
  rw [Bool.and_eq_true, List.all_eq_true, decide_eq_true_iff]

/-- With one, the rows are those that it lists for the value. -/
theorem valueExistsElsewhere_lookup {col : String} {v : Value} {idx : IndexDef}
    (hindex : findIndex schema col = some idx) :
    valueExistsElsewhere state dbId schema [col] [v] rowid = true ↔
      ∃ id ∈ lookupIndex state dbId schema.name idx.name v, id ≠ rowid := by
  rw [valueExistsElsewhere, hstore]
  simp only [hindex, List.any_eq_true, decide_eq_true_eq]

end Elsewhere

end Skvs
