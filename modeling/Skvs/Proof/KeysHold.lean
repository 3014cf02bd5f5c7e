import Skvs.Lib.Admissible
import Skvs.Proof.Composite
import Skvs.Proof.IndexCovers

/-!
# NOT NULL, UNIQUE and PRIMARY KEY

A row is stored only after the checks of its table. They ask an index for rows with the same value
where there is one, so what they promise rests on the indexes missing no row, through every statement
and through the replay of every journal.
-/

namespace Skvs

/-! ### The rules -/

/-- No NULL where NOT NULL or a primary group forbids it. -/
def RowFits (schema : TableSchema) (row : Row) : Prop :=
  (∀ c colDef, schema.columns.get c = some colDef → colDef.notNull = true →
    ((row.get c).getD .null).isNull = false) ∧
  ∀ group ∈ schema.uniqueGroups, group.isPrimary = true →
    (groupValues group row).any Value.isNull = false

/-- No value in common in a column flagged unique or primary, and no agreement on a whole group,
NULLs apart. -/
def RowsApart (schema : TableSchema) (row row' : Row) : Prop :=
  (∀ c colDef, schema.columns.get c = some colDef → colDef.flagged = true →
    ∀ v, row.get c = some v → row'.get c = some v → v.isNull = true) ∧
  ∀ group ∈ schema.uniqueGroups, groupValues group row = groupValues group row' →
    (groupValues group row).any Value.isNull = true

theorem RowsApart.symm {schema : TableSchema} {row row' : Row} (h : RowsApart schema row row') :
    RowsApart schema row' row :=
  ⟨fun c colDef hcol hflag v hv hv' => h.1 c colDef hcol hflag v hv' hv,
    fun group hgroup heq => heq ▸ h.2 group hgroup heq.symm⟩

/-- The rows of a table keep the rules of its schema. -/
def KeysHold (s : KvsState) (dbId : UInt32) (table : String) : Prop :=
  ∀ schema, s.getSchema dbId table = some schema →
    Admissible (RowFits schema) (RowsApart schema) fun rowid => s.row ⟨dbId, table, rowid⟩

/-- The table is known to its schema by its own name, its indexes miss no row, and the rules hold. -/
structure Sound (s : KvsState) (dbId : UInt32) (table : String) : Prop
    extends IndexCovers s dbId table where
  store : s.hasStore dbId table = true
  named : ∀ schema, s.getSchema dbId table = some schema → schema.name = table
  keys : KeysHold s dbId table

/-! ### What the checks find -/

theorem mem_zip_map {α β : Type} {f : α → β} {l : List α} {x : α × β} (h : x ∈ l.zip (l.map f)) :
    x.1 ∈ l ∧ x.2 = f x.1 := by
  rw [← List.map_prod_left_eq_zip, List.mem_map] at h
  obtain ⟨a, ha, rfl⟩ := h
  exact ⟨ha, rfl⟩

theorem Value.partialEq_self {v : Value} (hv : v.isReal = false) : v.partialEq v = true := by
  cases v with
  | real => exact nomatch hv
  | null | integer | text | blob => simp [Value.partialEq]

/-- Two rows that agree on a group without NULL have its columns, with the same values. -/
theorem group_shared {group : UniqueGroup} {row row' : Row}
    (heq : groupValues group row = groupValues group row')
    (hnull : (groupValues group row).any Value.isNull = false) :
    ∀ cv ∈ group.columns.zip (groupValues group row), row'.get cv.1 = some cv.2 := by
  intro cv hcv
  rw [heq, groupValues] at hcv
  -- no value of the group is NULL, so the column is there
  obtain ⟨hc, hval⟩ := mem_zip_map hcv
  have hin : cv.2 ∈ groupValues group row' := hval ▸ List.mem_map_of_mem hc
  rw [heq, List.any_eq_false] at hnull
  have hcvNull := hnull cv.2 hin
  rw [hval] at hcvNull ⊢
  cases hget : row'.get cv.1 with
  | none => simp [hget, Value.isNull] at hcvNull
  | some v => rfl

section Checks

variable {s : KvsState} {dbId : UInt32} {table : String} {schema : TableSchema}
  (h : IndexCovers s dbId table) (hstore : s.hasStore dbId table = true)
  (hschema : s.getSchema dbId table = some schema) (hname : schema.name = table)
include h hstore hschema hname

/-- Where the checks find nobody, no other row holds the values. -/
theorem IndexCovers.nobody {cols : List String} {vals : List Value} {rowid : RowId}
    (hnone : valueExistsElsewhere s dbId schema cols vals rowid = false) {rowid' : RowId} {row' : Row}
    (hne : rowid' ≠ rowid) (hrow' : s.row ⟨dbId, table, rowid'⟩ = some row') :
    ¬∀ cv ∈ cols.zip vals, row'.get cv.1 = some cv.2 := by
  intro hall
  obtain ⟨store, hget⟩ := Option.isSome_iff_exists.mp hstore
  have hreal := h.realFree rowid' row' hrow'
  have hentry : (rowid', row') ∈ store.entries := by
    rw [IndexMap.mem_entries_iff_get]
    rw [KvsState.row, KvsState.rowAt, hget] at hrow'
    exact hrow'
  have hscan : store.entries.any (fun entry => decide (entry.1 ≠ rowid) &&
      (cols.zip vals).all fun cv => Row.holds entry.2 cv.1 cv.2) = true := by
    refine List.any_eq_true.mpr ⟨_, hentry, ?_⟩
    rw [Bool.and_eq_true, decide_eq_true_iff, List.all_eq_true]
    refine ⟨hne, fun cv hcv => ?_⟩
    have hv := hall cv hcv
    simp only [Row.holds, hv]
    exact Value.partialEq_self (hreal cv.1 cv.2 hv)
  have hnoScan : ∀ {b : Bool}, b = false → b = store.entries.any (fun entry =>
      decide (entry.1 ≠ rowid) && (cols.zip vals).all fun cv => Row.holds entry.2 cv.1 cv.2) →
      False := fun hb heq => Bool.false_ne_true (hb.symm.trans (heq.trans hscan))
  simp only [valueExistsElsewhere, hname, hget] at hnone
  split at hnone
  next col v vs =>
    split at hnone
    next idx hidx =>
      -- the index lists the row under its value
      have hcols : idx.columns = [col] := of_decide_eq_true
        (List.find?_some (p := fun i : IndexDef => decide (i.columns = [col])) hidx)
      have hin := List.mem_of_find?_eq_some hidx
      have hlisted := h.listed rowid' idx v ⟨schema, hschema, hin⟩ (by
        rw [hrow', filed, Option.bind_some, indexValue, hcols]
        exact hall (col, v) List.mem_cons_self)
      exact List.any_eq_false.mp hnone rowid' hlisted (by simpa using hne)
    next => exact hnoScan hnone rfl
  next => exact hnoScan hnone rfl

variable [Externals]

/-- A row that passes the checks fits, and is apart from every other row. -/
theorem IndexCovers.checked {row : Row} {rowid : RowId}
    (hok : validateConstraints s dbId schema row rowid = .ok ()) :
    RowFits schema row ∧ ∀ rowid' row', rowid' ≠ rowid →
      s.row ⟨dbId, table, rowid'⟩ = some row' → RowsApart schema row row' := by
  obtain ⟨hnulls, hunique, -⟩ := validateConstraints_ok hok
  obtain ⟨hcolumns, hgroups⟩ := checkUniqueness_ok_iff.mp hunique
  refine ⟨⟨fun c colDef hcol hnot => ?_, fun group hgroup => ?_⟩, fun rowid' row' hne hrow' =>
    ⟨fun c colDef hcol hflag v hv hv' => ?_, fun group hgroup heq => ?_⟩⟩
  · exact checkNotNulls_ok_iff.mp hnulls _ ((IndexMap.mem_entries_iff_get ..).mpr hcol) hnot
  · exact (checkUniqueGroup_ok_iff.mp (hgroups group hgroup)).1
  · by_contra hnull
    have hnone := checkColumnUnique_ok_iff.mp
      (hcolumns _ ((IndexMap.mem_entries_iff_get ..).mpr hcol)) hflag v hv (by simpa using hnull)
    refine h.nobody hstore hschema hname hnone hne hrow' fun cv hcv => ?_
    rw [List.mem_singleton.mp hcv]
    exact hv'
  · by_contra hnull
    have hnull' : (groupValues group row).any Value.isNull = false := by simpa using hnull
    have hnone := (checkUniqueGroup_ok_iff.mp (hgroups group hgroup)).2 hnull'
    exact h.nobody hstore hschema hname hnone hne hrow' (group_shared heq hnull')

end Checks

/-! ### Statements -/

/-- No REAL is written to the table. -/
def RealFreeIn (dbId : UInt32) (table : String) (writes : List Write) : Prop :=
  ∀ x ∈ writes, x.dbId = dbId → x.table = table → ∀ row, x.after = some row → row.realFree

namespace Sound

variable {s s' : KvsState} {dbId : UInt32} {table : String}

theorem frame (h : Sound s dbId table) (txns : TxnManager)
    (rowidGenerators : IndexMap UInt32 (IndexMap String UInt64)) :
    Sound { s with txns, rowidGenerators } dbId table :=
  ⟨h.toIndexCovers.frame txns rowidGenerators, h.store, h.named, h.keys⟩

variable [Externals]

/-- Setting a row that is checked, or taking one out. -/
theorem set (h : Sound s dbId table) {k : Key} {copy after : Option Row}
    (hs : Sets s k copy after s') (hstore : s.hasStore k.dbId k.table = true)
    (hcopy : k.dbId = dbId → k.table = table → ∀ r, copy = some r → r.realFree)
    (hafter : k.dbId = dbId → k.table = table → ∀ r, after = some r → r.realFree)
    (hchecked : ∀ row, after = some row → Checked s k row) : Sound s' dbId table where
  toIndexCovers := h.toIndexCovers.sets hs hstore hcopy hafter
  store := (hs.hasStore dbId table).trans h.store
  named schema hschema := h.named schema (hs.getSchema dbId table ▸ hschema)
  keys schema hschema := by
    rw [hs.getSchema] at hschema
    have hkeys := h.keys schema hschema
    by_cases hk : k.dbId = dbId ∧ k.table = table
    · obtain ⟨db, t, rowid⟩ := k
      obtain ⟨rfl, rfl⟩ := hk
      have hok : ∀ row, after = some row → validateConstraints s db schema row rowid = .ok () := by
        intro row hrow
        obtain ⟨schema', hschema', hok⟩ := hchecked row hrow
        rw [hschema, Option.some.injEq] at hschema'
        exact hschema' ▸ hok
      have hpass := fun row hrow => h.toIndexCovers.checked h.store hschema
        (h.named schema hschema) (hok row hrow)
      refine hkeys.set (k := rowid) (fun _ _ => RowsApart.symm) (fun rowid' => ?_)
        (fun row hrow => (hpass row hrow).1) fun row hrow rowid' row' hne hrow' =>
          (hpass row hrow).2 rowid' row' hne hrow'
      rw [hs.row hstore]
      simp only [Key.mk.injEq, true_and]
    · refine hkeys.sub fun rowid => Or.inr ?_
      rw [hs.row hstore, if_neg]
      rintro rfl
      exact hk ⟨rfl, rfl⟩

theorem change {txId : Option UInt32} {w w' : World} (h : Sound w.kvs dbId table)
    (hch : QuietChange dbId txId w w') (hreal : RealFreeIn dbId table w'.writes) :
    Sound w'.kvs dbId table := by
  cases hch with
  | draw table' => exact h.frame w.kvs.txns _
  | store k copy after hdb hstore hcopy hchecked =>
      obtain ⟨txns, hrec⟩ := record_frame w.kvs txId (undoEntry k copy after)
      have hsets := store_sets w txId k copy after
      rw [hrec] at hsets
      refine (h.frame txns w.kvs.rowidGenerators).set hsets hstore (fun _ htable row hrow => ?_)
        (fun hk htable => hreal _ (List.mem_append_right _ List.mem_cons_self) hk htable) hchecked
      rcases hcopy with rfl | hcopy
      · exact nomatch hrow
      · obtain ⟨db, t, rowid⟩ := k
        obtain ⟨rfl, rfl⟩ : db = dbId ∧ t = table := ⟨hdb, htable⟩
        exact h.realFree rowid row (hcopy.trans hrow)

end Sound

/-! ### Rollback -/

/-- What a rollback of the transaction would leave keeps the rules. -/
def Revertible (dbId : UInt32) (table : String) (txId : UInt32) (w : World) : Prop :=
  ∃ journal, w.kvs.txns.active.get txId = some ⟨dbId, journal⟩ ∧
    (∀ op ∈ journal, (op.key dbId).table = table → ∀ row, op.value = some row → row.realFree) ∧
    ∀ schema, w.kvs.getSchema dbId table = some schema →
      Admissible (RowFits schema) (RowsApart schema) fun rowid =>
        standing w.kvs dbId journal ⟨dbId, table, rowid⟩

section Revertible

variable [Externals] {dbId txId : UInt32} {table : String} {w w' : World}

omit [Externals] in
theorem Revertible.begin (h : Sound w.kvs dbId table) :
    Revertible dbId table w.kvs.txns.nextId (w.begin dbId) :=
  ⟨[], IndexMap.get_insert_self .., fun _ hop => absurd hop List.not_mem_nil, h.keys⟩

/-- The copy that a first write of a row records is the row that a rollback left standing so far, or
none. -/
theorem Revertible.change (h : Revertible dbId table txId w) (hsound : Sound w.kvs dbId table)
    (hch : QuietChange dbId (some txId) w w') : Revertible dbId table txId w' := by
  obtain ⟨journal, hactive, hreal, hkeys⟩ := h
  cases hch with
  | draw => exact ⟨journal, hactive, hreal, hkeys⟩
  | store k copy after hdb hstore hcopy =>
      subst hdb
      have hcopyReal : k.table = table → ∀ row, copy = some row → row.realFree := by
        rintro rfl row hrow
        rcases hcopy with rfl | hcopy
        · exact nomatch hrow
        · exact hsound.realFree k.rowid row (hcopy.trans hrow)
      refine ⟨journal ++ [undoEntry k copy after], ?_, fun op hop htable row hrow => ?_,
        fun schema hschema => ?_⟩
      · rw [store_active, if_pos rfl, hactive]
        rfl
      · rcases List.mem_append.mp hop with hop | hop
        · exact hreal op hop htable row hrow
        · rw [List.mem_singleton.mp hop, undoEntry_key] at htable
          rw [List.mem_singleton.mp hop, undoEntry_value] at hrow
          exact hcopyReal htable row hrow
      · rw [KvsState.getSchema, Change.schemas (.store w k copy after rfl hstore
          (hcopy.imp id .inl))] at hschema
        refine (hkeys schema hschema).sub fun rowid => ?_
        rw [standing, standing, List.find?_append]
        cases hfind : journal.find? fun op => op.key k.dbId = ⟨k.dbId, table, rowid⟩ with
        | some op => exact Or.inr rfl
        | none =>
            rw [Option.none_or, List.find?_singleton, undoEntry_key, store_row _ _ _ _ hstore]
            by_cases hk : k = ⟨k.dbId, table, rowid⟩
            · rw [if_pos (by simpa using hk)]
              simp only [undoEntry_value]
              rcases hcopy with rfl | hcopy
              · exact Or.inl rfl
              · exact Or.inr (by rw [← hcopy, ← hk])
            · rw [if_neg (by simpa using hk), if_neg (Ne.symm hk)]
              exact Or.inr rfl

theorem Revertible.rollback (h : Revertible dbId table txId w) (hsound : Sound w.kvs dbId table) :
    Sound (w.rollback txId).kvs dbId table := by
  obtain ⟨journal, hactive, hreal, hkeys⟩ := h
  rw [rollback_eq, hactive]
  have hended : Sound (w.kvs.ended txId) dbId table := hsound.frame _ w.kvs.rowidGenerators
  refine ⟨hended.toIndexCovers.undoAll hreal, ?_, fun schema hschema => ?_, fun schema hschema => ?_⟩
  · exact (undoAll_hasStore ..).trans hended.store
  · rw [KvsState.getSchema, undoAll_schemas] at hschema
    exact hended.named schema hschema
  · rw [KvsState.getSchema, undoAll_schemas] at hschema
    refine (hkeys schema hschema).sub fun rowid => Or.inr ?_
    exact undoAll_row dbId (w.kvs.ended txId) journal _ fun _ _ _ => hended.store

end Revertible

end Skvs
