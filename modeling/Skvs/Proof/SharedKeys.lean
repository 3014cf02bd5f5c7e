import Skvs.Proof.HashJoin
import Skvs.Proof.KeysHold

/-!
# Rows that share a key

The uniqueness checks of a row look for another row with the same values in a key. Through exact
indexes as well as by scans they find the rows that share a key with it, and no others.
-/

namespace Skvs

/-- The other row holds the values that the row has in some key; NULLs are not shared. -/
def SharesKey (schema : TableSchema) (row other : Row) : Prop :=
  (∃ e ∈ schema.columns.entries, (e.2.unique || e.2.primaryKey) = true ∧
    ∃ v, row.get e.1 = some v ∧ v.isNull = false ∧ Row.holds other e.1 v = true) ∨
  ∃ group ∈ schema.uniqueGroups, (groupValues group row).any Value.isNull = false ∧
    ∀ cv ∈ group.columns.zip (groupValues group row), Row.holds other cv.1 cv.2 = true

theorem holds_iff {row : Row} {c : String} {v : Value} :
    Row.holds row c v = true ↔ ∃ w, row.get c = some w ∧ w.partialEq v = true := by
  rw [Row.holds]
  cases row.get c <;> simp

theorem Value.isNull_of_partialEq {v w : Value} (h : w.partialEq v = true) (hv : v.isNull = false) :
    w.isNull = false := by
  cases w <;> cases v <;> simp_all [Value.partialEq, Value.isNull]

/-- Where the other row holds a value of the row, the row holds the value of the other. -/
theorem holds_back {row other : Row} {c : String} {v : Value} (hrow : row.get c = some v)
    (hnull : v.isNull = false) (hother : Row.holds other c v = true) :
    ∃ w, other.get c = some w ∧ w.isNull = false ∧ Row.holds row c w = true := by
  obtain ⟨w, hw, heq⟩ := holds_iff.mp hother
  have heq' : v.partialEq w = true := by rwa [Value.partialEq_comm]
  exact ⟨w, hw, Value.isNull_of_partialEq heq hnull, holds_iff.mpr ⟨v, hrow, heq'⟩⟩

theorem get_of_groupValues {group : UniqueGroup} {row : Row}
    (hnull : (groupValues group row).any Value.isNull = false) {c : String} (hc : c ∈ group.columns) :
    ∃ v, row.get c = some v ∧ v.isNull = false := by
  have hval := List.any_eq_false.mp hnull _ (List.mem_map_of_mem hc)
  cases hget : row.get c with
  | none => simp [hget, Value.isNull] at hval
  | some v => exact ⟨v, rfl, by simpa [hget] using hval⟩

theorem SharesKey.symm {schema : TableSchema} {row other : Row} (h : SharesKey schema row other) :
    SharesKey schema other row := by
  rcases h with ⟨e, he, hkey, v, hv, hnull, hother⟩ | ⟨group, hgroup, hnull, hall⟩
  · obtain ⟨w, hw, hwnull, hrow⟩ := holds_back hv hnull hother
    exact .inl ⟨e, he, hkey, w, hw, hwnull, hrow⟩
  · have hback : ∀ c ∈ group.columns,
        ∃ w, other.get c = some w ∧ w.isNull = false ∧ Row.holds row c w = true := by
      intro c hc
      obtain ⟨v, hv, hvnull⟩ := get_of_groupValues hnull hc
      have hin : (c, v) ∈ group.columns.zip (groupValues group row) := by
        rw [groupValues, ← List.map_prod_left_eq_zip, List.mem_map]
        exact ⟨c, hc, by rw [hv]; rfl⟩
      exact holds_back hv hvnull (hall _ hin)
    refine .inr ⟨group, hgroup, List.any_eq_false.mpr fun w hw => ?_, fun cw hcw => ?_⟩
    · obtain ⟨c, hc, rfl⟩ := List.mem_map.mp hw
      obtain ⟨w, hget, hwnull, -⟩ := hback c hc
      rw [hget, Option.getD_some, hwnull]
      exact Bool.false_ne_true
    · obtain ⟨hc, hval⟩ := mem_zip_map hcw
      obtain ⟨w, hget, -, hrow⟩ := hback _ hc
      rw [hval, hget]
      exact hrow

/-! ### What the lookups find -/

/-- The columns of each key of the table. -/
def TableSchema.keyLists (schema : TableSchema) : List (List String) :=
  ((schema.columns.entries.filter fun e => e.2.unique || e.2.primaryKey).map fun e => [e.1]) ++
    schema.uniqueGroups.map UniqueGroup.columns

section Lookups

variable {s : KvsState} {dbId : UInt32} {schema : TableSchema} {row : Row} {rowid : RowId}

/-- Some other row of the table holds the values. -/
def HeldElsewhere (s : KvsState) (dbId : UInt32) (table : String) (cols : List String)
    (vals : List Value) (rowid : RowId) : Prop :=
  ∃ rowid' row', rowid' ≠ rowid ∧ s.row ⟨dbId, table, rowid'⟩ = some row' ∧
    ∀ cv ∈ cols.zip vals, Row.holds row' cv.1 cv.2 = true

/-- For values of the row in its keys, the lookup finds them exactly where another row holds them. -/
def FindsHolders (s : KvsState) (dbId : UInt32) (schema : TableSchema) (row : Row) (rowid : RowId) :
    Prop :=
  ∀ cols ∈ schema.keyLists, ∀ vals, (∀ v ∈ vals, ∃ c, row.get c = some v) →
    cols.length = vals.length →
      (valueExistsElsewhere s dbId schema cols vals rowid = true ↔
        HeldElsewhere s dbId schema.name cols vals rowid)

/-- Uniqueness is refused to a row with a NULL in a primary group, and to one that shares a key. -/
theorem checkUniqueness_iff_shares (hfinds : FindsHolders s dbId schema row rowid) :
    checkUniqueness s dbId schema row rowid = .ok () ↔
      (∀ group ∈ schema.uniqueGroups, group.isPrimary = true →
        (groupValues group row).any Value.isNull = false) ∧
      ∀ rowid' row', rowid' ≠ rowid → s.row ⟨dbId, schema.name, rowid'⟩ = some row' →
        ¬SharesKey schema row row' := by
  have hcolumn : ∀ e ∈ schema.columns.entries, (e.2.unique || e.2.primaryKey) = true →
      ∀ v, row.get e.1 = some v → (valueExistsElsewhere s dbId schema [e.1] [v] rowid = false ↔
        ¬HeldElsewhere s dbId schema.name [e.1] [v] rowid) := by
    intro e he hkey v hv
    have hlist : [e.1] ∈ schema.keyLists := List.mem_append_left _
      (List.mem_map.mpr ⟨e, List.mem_filter.mpr ⟨he, hkey⟩, rfl⟩)
    rw [← hfinds _ hlist [v] (List.forall_mem_singleton.mpr ⟨e.1, hv⟩) rfl, Bool.not_eq_true]
  have hgroups : ∀ group ∈ schema.uniqueGroups, (groupValues group row).any Value.isNull = false →
      (valueExistsElsewhere s dbId schema group.columns (groupValues group row) rowid = false ↔
        ¬HeldElsewhere s dbId schema.name group.columns (groupValues group row) rowid) := by
    intro group hgroup hnull
    have hlist : group.columns ∈ schema.keyLists :=
      List.mem_append_right _ (List.mem_map_of_mem hgroup)
    have hvals : ∀ v ∈ groupValues group row, ∃ c, row.get c = some v := by
      intro v hv
      obtain ⟨c, hc, rfl⟩ := List.mem_map.mp hv
      obtain ⟨w, hw, -⟩ := get_of_groupValues hnull hc
      exact ⟨c, by rw [hw]; rfl⟩
    rw [← hfinds _ hlist _ hvals (by rw [groupValues, List.length_map]), Bool.not_eq_true]
  rw [checkUniqueness_ok_iff]
  simp only [checkColumnUnique_ok_iff, checkUniqueGroup_ok_iff]
  constructor
  · rintro ⟨hcols, hgrps⟩
    refine ⟨fun group hgroup => (hgrps group hgroup).1, fun rowid' row' hne hrow' hshares => ?_⟩
    rcases hshares with ⟨e, he, hkey, v, hv, hnull, hother⟩ | ⟨group, hgroup, hnull, hall⟩
    · exact (hcolumn e he hkey v hv).mp (hcols e he hkey v hv hnull)
        ⟨rowid', row', hne, hrow', List.forall_mem_singleton.mpr hother⟩
    · exact (hgroups group hgroup hnull).mp ((hgrps group hgroup).2 hnull)
        ⟨rowid', row', hne, hrow', hall⟩
  · rintro ⟨hprimary, hapart⟩
    refine ⟨fun e he hkey v hv hnull => (hcolumn e he hkey v hv).mpr ?_,
      fun group hgroup => ⟨hprimary group hgroup, fun hnull => (hgroups group hgroup hnull).mpr ?_⟩⟩
    · rintro ⟨rowid', row', hne, hrow', hall⟩
      exact hapart rowid' row' hne hrow'
        (.inl ⟨e, he, hkey, v, hv, hnull, hall _ List.mem_cons_self⟩)
    · rintro ⟨rowid', row', hne, hrow', hall⟩
      exact hapart rowid' row' hne hrow' (.inr ⟨group, hgroup, hnull, hall⟩)

/-- Without a single-column index on the columns the lookup is a scan. -/
theorem valueExistsElsewhere_of_unindexed {store : Store} {cols : List String} {vals : List Value}
    (hstore : s.getTableStore dbId schema.name = some store)
    (hnone : ∀ col, cols = [col] → findIndex schema col = none) :
    valueExistsElsewhere s dbId schema cols vals rowid = true ↔
      HeldElsewhere s dbId schema.name cols vals rowid := by
  rw [valueExistsElsewhere_scan hstore hnone]
  simp only [AgreesElsewhere, HeldElsewhere, ← mem_store_iff hstore]
  constructor
  · rintro ⟨e, he, hne, hall⟩
    exact ⟨e.1, e.2, hne, he, hall⟩
  · rintro ⟨rowid', row', hne, he, hall⟩
    exact ⟨(rowid', row'), he, hne, hall⟩

/-- An exact index lists the rows that hold a value which is no REAL. -/
theorem valueExistsElsewhere_of_exact {idx : IndexDef} {col : String} {v : Value}
    (hexact : IndexExact s dbId schema.name) (hschema : s.getSchema dbId schema.name = some schema)
    (hstore : s.hasStore dbId schema.name = true) (hindex : findIndex schema col = some idx)
    (hv : v.isReal = false) :
    valueExistsElsewhere s dbId schema [col] [v] rowid = true ↔
      HeldElsewhere s dbId schema.name [col] [v] rowid := by
  obtain ⟨store, hget⟩ := Option.isSome_iff_exists.mp hstore
  have hcols : idx.columns = [col] := by simpa using List.find?_some hindex
  have hidx : ∀ rowid, HasIndex s ⟨dbId, schema.name, rowid⟩ idx := fun _ =>
    ⟨schema, hschema, List.mem_of_find?_eq_some hindex⟩
  have hlookup : valueExistsElsewhere s dbId schema [col] [v] rowid = true ↔
      ∃ rowid', Entry s ⟨dbId, schema.name, rowid'⟩ idx v ∧ rowid' ≠ rowid :=
    valueExistsElsewhere_lookup hget hindex
  rw [hlookup, HeldElsewhere]
  refine exists_congr fun rowid' => ?_
  rw [hexact.entry_iff rowid' idx v (hidx rowid') hv, filed, Option.bind_eq_some_iff]
  simp only [indexValue, hcols, List.head?_cons, Option.bind_some, List.zip_cons_cons,
    List.zip_nil_right, List.forall_mem_singleton, holds_iff]
  constructor
  · rintro ⟨⟨row', hrow', hval⟩, hne⟩
    exact ⟨row', hne, hrow', v, hval, Value.partialEq_self hv⟩
  · rintro ⟨row', hne, hrow', w, hw, heq⟩
    obtain rfl : w = v := by
      cases v with
      | real => cases hv
      | null | integer | text | blob => cases w <;> simp_all [Value.partialEq]
    exact ⟨⟨row', hrow', hw⟩, hne⟩

/-- No key of one column has an index, or the indexes are exact and the row is free of REALs. -/
def KeysLookedUp (s : KvsState) (dbId : UInt32) (schema : TableSchema) (rows : Row → Prop) : Prop :=
  (∀ col, [col] ∈ schema.keyLists → findIndex schema col = none) ∨
    IndexExact s dbId schema.name ∧ ∀ row, rows row → row.realFree

theorem KeysLookedUp.findsHolders {rows : Row → Prop} (h : KeysLookedUp s dbId schema rows)
    (hschema : s.getSchema dbId schema.name = some schema)
    (hstore : s.hasStore dbId schema.name = true) (hrow : rows row) :
    FindsHolders s dbId schema row rowid := by
  intro cols hcols vals hvals hlen
  obtain ⟨store, hget⟩ := Option.isSome_iff_exists.mp hstore
  rcases h with hnone | ⟨hexact, hreal⟩
  · exact valueExistsElsewhere_of_unindexed hget fun col hcol => hnone col (hcol ▸ hcols)
  · by_cases hindexed : ∃ col idx, cols = [col] ∧ findIndex schema col = some idx
    · obtain ⟨col, idx, rfl, hindex⟩ := hindexed
      obtain ⟨v, rfl⟩ := List.length_eq_one_iff.mp hlen.symm
      obtain ⟨c, hc⟩ := hvals v List.mem_cons_self
      exact valueExistsElsewhere_of_exact hexact hschema hstore hindex (hreal row hrow c v hc)
    · refine valueExistsElsewhere_of_unindexed hget fun col hcol => ?_
      rw [Option.eq_none_iff_forall_ne_some]
      exact fun idx hindex => hindexed ⟨col, idx, hcol, hindex⟩

end Lookups

end Skvs
