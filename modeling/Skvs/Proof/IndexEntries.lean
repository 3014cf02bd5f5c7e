import Skvs.Proof.Journal

/-!
# What an index holds

An index is a relation between values and rowids. A row change takes one pair out of it, for the
copy, and puts one in, for the new row. Values are kept apart from REALs throughout: those do not
compare as a total order.
-/

namespace Skvs

theorem compare_reflects : BTreeMap.Reflects Value.compare fun v => v.isReal = false := by
  intro a b ha hb
  cases a <;> cases b <;> simp_all [Value.compare, Value.isReal, Value.typeRank]

/-- The rowids an index holds under a value. -/
def bucket (store : IndexStore) (v : Value) : List RowId := (store.get Value.compare v).getD []

/-- No REAL keys, no key twice, and no empty bucket. -/
structure Tidy (store : IndexStore) : Prop where
  keyed : BTreeMap.Keyed (fun v => v.isReal = false) store
  nonempty : ∀ v, v.isReal = false → ∀ ids, store.get Value.compare v = some ids → ids ≠ []

theorem Tidy.empty : Tidy ∅ := ⟨.empty, fun _ _ _ h => nomatch h⟩

section Store

variable {store : IndexStore} {v v' : Value} {rowid r : RowId}

theorem get_addId (h : Tidy store) (hv : v.isReal = false) (hv' : v'.isReal = false) :
    (addId v rowid store).get Value.compare v' =
      if v' = v then
        some (if rowid ∈ bucket store v then bucket store v else bucket store v ++ [rowid])
      else store.get Value.compare v' :=
  BTreeMap.get_upsert compare_reflects h.keyed hv hv'

theorem Tidy.addId (h : Tidy store) (hv : v.isReal = false) : Tidy (addId v rowid store) where
  keyed := h.keyed.upsert compare_reflects hv
  nonempty v' hv' ids hids := by
    rw [get_addId h hv hv'] at hids
    split_ifs at hids with heq hin
    · rw [← Option.some.inj hids]
      exact List.ne_nil_of_mem hin
    · rw [← Option.some.inj hids]
      exact List.append_ne_nil_of_right_ne_nil _ (List.cons_ne_nil _ _)
    · exact h.nonempty v' hv' ids hids

theorem mem_bucket_addId (h : Tidy store) (hv : v.isReal = false) (hv' : v'.isReal = false) :
    r ∈ bucket (addId v rowid store) v' ↔ (v' = v ∧ r = rowid) ∨ r ∈ bucket store v' := by
  rw [bucket, get_addId h hv hv']
  split_ifs with heq hin
  · subst heq
    rw [Option.getD_some]
    exact ⟨Or.inr, fun h => h.elim (fun hr => hr.2 ▸ hin) id⟩
  · subst heq
    rw [Option.getD_some, List.mem_append, List.mem_singleton, or_comm]
    simp
  · simp [heq, bucket]

theorem get_removeId (h : Tidy store) (hv : v.isReal = false) (hv' : v'.isReal = false) :
    (removeId v rowid store).get Value.compare v' =
      if v' = v then
        if (bucket store v).filter (fun r => r ≠ rowid) = [] then none
        else some ((bucket store v).filter fun r => r ≠ rowid)
      else store.get Value.compare v' := by
  rw [removeId, bucket]
  cases hget : store.get Value.compare v with
  | none =>
      simp only [Option.getD_none, List.filter_nil, if_true]
      split_ifs with heq
      · rw [heq, hget]
      · rfl
  | some ids =>
      simp only [Option.getD_some]
      split_ifs with hleft heq heq
      · rw [BTreeMap.get_remove compare_reflects h.keyed hv hv', if_pos heq]
      · rw [BTreeMap.get_remove compare_reflects h.keyed hv hv', if_neg heq]
      · rw [BTreeMap.get_upsert compare_reflects h.keyed hv hv', if_pos heq]
      · rw [BTreeMap.get_upsert compare_reflects h.keyed hv hv', if_neg heq]

theorem Tidy.removeId (h : Tidy store) (hv : v.isReal = false) :
    Tidy (removeId v rowid store) where
  keyed := by
    rw [Skvs.removeId]
    split
    · exact h.keyed
    · simp only
      split_ifs
      · exact h.keyed.remove
      · exact h.keyed.upsert compare_reflects hv
  nonempty v' hv' ids hids := by
    rw [get_removeId h hv hv'] at hids
    split_ifs at hids with heq hleft
    · rw [← Option.some.inj hids]
      exact hleft
    · exact h.nonempty v' hv' ids hids

theorem mem_bucket_removeId (h : Tidy store) (hv : v.isReal = false) (hv' : v'.isReal = false) :
    r ∈ bucket (removeId v rowid store) v' ↔ ¬(v' = v ∧ r = rowid) ∧ r ∈ bucket store v' := by
  have hmem : r ∈ (bucket store v).filter (fun r => r ≠ rowid) ↔ r ≠ rowid ∧ r ∈ bucket store v := by
    rw [List.mem_filter, decide_eq_true_iff, and_comm]
  rw [bucket, get_removeId h hv hv']
  split_ifs with heq hleft
  · subst heq
    rw [hleft] at hmem
    simpa using hmem
  · subst heq
    rw [Option.getD_some, hmem]
    simp
  · simp [heq, bucket]

end Store

/-! ### One row change -/

/-- A row holds no REAL. -/
def Row.realFree (row : Row) : Prop := ∀ c v, row.get c = some v → v.isReal = false

/-- No write puts a REAL into a row. -/
def RealFreeWrites (writes : List Write) : Prop :=
  ∀ x ∈ writes, ∀ row, x.after = some row → row.realFree

theorem filed_not_real {idx : IndexDef} {row : Option Row} (h : ∀ r, row = some r → r.realFree)
    {v : Value} (hv : filed idx row = some v) : v.isReal = false := by
  obtain ⟨r, rfl, hr⟩ := Option.bind_eq_some_iff.mp hv
  obtain ⟨c, -, hc⟩ := Option.bind_eq_some_iff.mp hr
  exact h r rfl c v hc

section ChangeEntries

variable {store : IndexStore} {rowid r : RowId} {u : Option Value}

theorem Tidy.addFiled (h : Tidy store) (hu : ∀ v, u = some v → v.isReal = false) :
    Tidy (addFiled rowid u store) := by
  cases u with
  | none => exact h
  | some v => exact h.addId (hu v rfl)

theorem Tidy.removeFiled (h : Tidy store) (hu : ∀ v, u = some v → v.isReal = false) :
    Tidy (removeFiled rowid u store) := by
  cases u with
  | none => exact h
  | some v => exact h.removeId (hu v rfl)

theorem mem_bucket_addFiled (h : Tidy store) (hu : ∀ v, u = some v → v.isReal = false) {v : Value}
    (hv : v.isReal = false) :
    r ∈ bucket (addFiled rowid u store) v ↔ (r = rowid ∧ u = some v) ∨ r ∈ bucket store v := by
  cases u with
  | none => simp [addFiled]
  | some w =>
      rw [addFiled, mem_bucket_addId h (hu w rfl) hv, Option.some.injEq, eq_comm,
        and_comm (a := w = v)]

theorem mem_bucket_removeFiled (h : Tidy store) (hu : ∀ v, u = some v → v.isReal = false)
    {v : Value} (hv : v.isReal = false) :
    r ∈ bucket (removeFiled rowid u store) v ↔ ¬(r = rowid ∧ u = some v) ∧ r ∈ bucket store v := by
  cases u with
  | none => simp [removeFiled]
  | some w =>
      rw [removeFiled, mem_bucket_removeId h (hu w rfl) hv, Option.some.injEq, eq_comm,
        and_comm (a := w = v)]

variable (h : Tidy store) {idx : IndexDef} {copy after : Option Row}
  (hcopy : ∀ r, copy = some r → r.realFree) (hafter : ∀ r, after = some r → r.realFree)
include h hcopy hafter

theorem Tidy.changeEntries : Tidy (changeEntries rowid idx copy after store) :=
  (h.removeFiled fun _ => filed_not_real hcopy).addFiled fun _ => filed_not_real hafter

/-- The pair of the copy goes, and that of the new row comes. -/
theorem mem_bucket_changeEntries {v : Value} (hv : v.isReal = false) :
    r ∈ bucket (changeEntries rowid idx copy after store) v ↔
      (r = rowid ∧ filed idx after = some v) ∨
        ¬(r = rowid ∧ filed idx copy = some v) ∧ r ∈ bucket store v := by
  rw [changeEntries, mem_bucket_addFiled (h.removeFiled fun _ => filed_not_real hcopy)
    (fun _ => filed_not_real hafter) hv, mem_bucket_removeFiled h (fun _ => filed_not_real hcopy) hv]

end ChangeEntries

/-! ### The indexes of a table -/

def HasIndex (s : KvsState) (k : Key) (idx : IndexDef) : Prop :=
  ∃ schema, s.getSchema k.dbId k.table = some schema ∧ idx ∈ schema.indices

/-- The index files the row under the value. -/
def Entry (s : KvsState) (k : Key) (idx : IndexDef) (v : Value) : Prop :=
  k.rowid ∈ bucket (s.indexStore k.dbId k.table idx.name) v

/-- A table whose indexes have names of their own, and which is free of REALs. -/
structure Indexed (s : KvsState) (dbId : UInt32) (table : String) : Prop where
  names : ∀ schema, s.getSchema dbId table = some schema →
    (schema.indices.map IndexDef.name).Nodup
  tidy : ∀ schema, s.getSchema dbId table = some schema →
    ∀ idx ∈ schema.indices, Tidy (s.indexStore dbId table idx.name)
  realFree : ∀ rowid row, s.row ⟨dbId, table, rowid⟩ = some row → row.realFree

/-- Every index of the table maps each value to the rowids whose row holds it, and to no others. -/
structure IndexExact (s : KvsState) (dbId : UInt32) (table : String) : Prop
    extends Indexed s dbId table where
  entry_iff : ∀ rowid idx v, HasIndex s ⟨dbId, table, rowid⟩ idx → v.isReal = false →
    (Entry s ⟨dbId, table, rowid⟩ idx v ↔ filed idx (s.row ⟨dbId, table, rowid⟩) = some v)

def IndexesExact (s : KvsState) : Prop := ∀ dbId table, IndexExact s dbId table

section Sets

variable {s s' : KvsState} {k : Key} {copy after : Option Row} (hs : Sets s k copy after s')
  (hstore : s.hasStore k.dbId k.table = true) {dbId : UInt32} {table : String}
  (hcopy : k.dbId = dbId → k.table = table → ∀ r, copy = some r → r.realFree)
  (hafter : k.dbId = dbId → k.table = table → ∀ r, after = some r → r.realFree)

include hs in
theorem Sets.getSchema (dbId : UInt32) (table : String) :
    s'.getSchema dbId table = s.getSchema dbId table := by
  rw [KvsState.getSchema, hs.schemas]
  rfl

include hs in
theorem Sets.hasIndex_iff {k' : Key} {idx : IndexDef} : HasIndex s' k' idx ↔ HasIndex s k' idx := by
  rw [HasIndex, hs.getSchema]
  rfl

include hs hstore hcopy hafter

theorem Indexed.sets (h : Indexed s dbId table) : Indexed s' dbId table where
  names schema hschema := h.names schema (hs.getSchema dbId table ▸ hschema)
  tidy schema hschema idx hidx := by
    rw [hs.getSchema] at hschema
    by_cases hk : dbId = k.dbId ∧ table = k.table
    · obtain ⟨rfl, rfl⟩ := hk
      rw [hs.indexStore hschema (h.names schema hschema) hidx]
      exact (h.tidy schema hschema idx hidx).changeEntries (hcopy rfl rfl) (hafter rfl rfl)
    · rw [hs.indexStore_of_ne hk]
      exact h.tidy schema hschema idx hidx
  realFree rowid row hrow := by
    rw [hs.row hstore] at hrow
    split_ifs at hrow with hk
    · subst hk
      exact hafter rfl rfl row hrow
    · exact h.realFree rowid row hrow

omit hstore in
/-- A row change takes out the entry of the copy and puts in that of the new row. -/
theorem Indexed.entry_sets (h : Indexed s dbId table) (rowid : RowId) {idx : IndexDef}
    (hidx : HasIndex s ⟨dbId, table, rowid⟩ idx) {v : Value} (hv : v.isReal = false) :
    Entry s' ⟨dbId, table, rowid⟩ idx v ↔
      (⟨dbId, table, rowid⟩ = k ∧ filed idx after = some v) ∨
        ¬(⟨dbId, table, rowid⟩ = k ∧ filed idx copy = some v) ∧ Entry s ⟨dbId, table, rowid⟩ idx v := by
  obtain ⟨schema, hschema, hin⟩ := hidx
  by_cases hk : dbId = k.dbId ∧ table = k.table
  · obtain ⟨rfl, rfl⟩ := hk
    have hkey : (⟨k.dbId, k.table, rowid⟩ : Key) = k ↔ rowid = k.rowid :=
      ⟨fun heq => congrArg Key.rowid heq, fun heq => by rw [heq]⟩
    rw [Entry, hs.indexStore hschema (h.names schema hschema) hin,
      mem_bucket_changeEntries (h.tidy schema hschema idx hin) (hcopy rfl rfl) (hafter rfl rfl) hv,
      hkey]
    rfl
  · have hkey : (⟨dbId, table, rowid⟩ : Key) ≠ k := fun heq => hk (heq ▸ ⟨rfl, rfl⟩)
    rw [Entry, hs.indexStore_of_ne hk]
    simp [hkey, Entry]

/-- An index stays exact as long as the change forgets no value of the row it replaces. -/
theorem IndexExact.sets (h : IndexExact s dbId table)
    (hkept : ∀ idx v, HasIndex s k idx → filed idx (s.row k) = some v →
      filed idx copy = some v ∨ filed idx after = some v) : IndexExact s' dbId table where
  toIndexed := h.toIndexed.sets hs hstore hcopy hafter
  entry_iff rowid idx v hidx hv := by
    rw [hs.hasIndex_iff] at hidx
    rw [h.toIndexed.entry_sets hs hcopy hafter rowid hidx hv, h.entry_iff rowid idx v hidx hv,
      hs.row hstore]
    by_cases hk : (⟨dbId, table, rowid⟩ : Key) = k
    · rw [if_pos hk]
      simp only [hk, true_and]
      exact ⟨fun hor => hor.elim id fun hand =>
          (hkept idx v (hk ▸ hidx) hand.2).elim (fun hc => absurd hc hand.1) id, Or.inl⟩
    · rw [if_neg hk]
      simp [hk]

end Sets

/-! ### Checking exactness -/

def Row.realFreeCheck (row : Row) : Bool := row.values.all fun v => !v.isReal

/-- The index lists no row under a value that is not its own, and lists every row. -/
def exactFor (idx : IndexDef) (index : IndexStore) (store : Store) : Bool :=
  decide (index.entries.map Prod.fst).Nodup &&
    (index.entries.all fun e => !e.1.isReal && !e.2.isEmpty &&
      e.2.all fun rowid => filed idx (store.get rowid) = some e.1) &&
    store.entries.all fun e => (indexValue idx e.2).all fun v => e.1 ∈ bucket index v

def KvsState.exactCheck (s : KvsState) : Bool :=
  (s.schemas.entries.all fun db => db.2.entries.all fun schema =>
    decide (schema.2.indices.map IndexDef.name).Nodup &&
      schema.2.indices.all fun idx =>
        exactFor idx (s.indexStore db.1 schema.1 idx.name)
          ((s.getTableStore db.1 schema.1).getD ∅)) &&
    s.dbs.entries.all fun db => db.2.entries.all fun store => store.2.values.all Row.realFreeCheck

theorem realFree_of_check {row : Row} (h : row.realFreeCheck = true) : row.realFree := by
  intro c v hv
  have hmem : v ∈ row.values := List.mem_map.mpr ⟨_, (IndexMap.mem_entries_iff_get ..).mpr hv, rfl⟩
  simpa using List.all_eq_true.mp h v hmem

section ExactFor

variable {idx : IndexDef} {index : IndexStore} {store : Store}
  (h : exactFor idx index store = true)
include h

theorem tidy_of_exactFor : Tidy index := by
  rw [exactFor, Bool.and_eq_true, Bool.and_eq_true, List.all_eq_true] at h
  have hentry : ∀ e ∈ index.entries, e.1.isReal = false ∧ e.2 ≠ [] := by
    intro e he
    have hboth := h.1.2 e he
    rw [Bool.and_eq_true, Bool.and_eq_true] at hboth
    exact ⟨by simpa using hboth.1.1, by simpa using hboth.1.2⟩
  have hkeyed : BTreeMap.Keyed (fun v => v.isReal = false) index :=
    ⟨fun e he => (hentry e he).1, of_decide_eq_true h.1.1⟩
  exact ⟨hkeyed, fun v hv ids hids =>
    (hentry _ ((BTreeMap.get_eq_some_iff compare_reflects hkeyed hv).mp hids)).2⟩

theorem mem_bucket_iff_of_exactFor {v : Value} (hv : v.isReal = false) {rowid : RowId} :
    rowid ∈ bucket index v ↔ filed idx (store.get rowid) = some v := by
  have htidy := tidy_of_exactFor h
  rw [exactFor, Bool.and_eq_true, Bool.and_eq_true, List.all_eq_true, List.all_eq_true] at h
  constructor
  · intro hmem
    rw [bucket] at hmem
    cases hget : index.get Value.compare v with
    | none => simp [hget] at hmem
    | some ids =>
        rw [hget, Option.getD_some] at hmem
        have he := h.1.2 _ ((BTreeMap.get_eq_some_iff compare_reflects htidy.keyed hv).mp hget)
        rw [Bool.and_eq_true, List.all_eq_true] at he
        exact of_decide_eq_true (he.2 rowid hmem)
  · intro hfiled
    obtain ⟨row, hrow, hvalue⟩ := Option.bind_eq_some_iff.mp hfiled
    have he := h.2 _ ((IndexMap.mem_entries_iff_get ..).mpr hrow)
    simp only [hvalue, Option.all_some] at he
    exact of_decide_eq_true he

end ExactFor

theorem indexesExact_of_check {s : KvsState} (h : s.exactCheck = true) : IndexesExact s := by
  rw [KvsState.exactCheck, Bool.and_eq_true] at h
  intro dbId table
  have hschemas : ∀ schema, s.getSchema dbId table = some schema →
      (schema.indices.map IndexDef.name).Nodup ∧ ∀ idx ∈ schema.indices,
        exactFor idx (s.indexStore dbId table idx.name) ((s.getTableStore dbId table).getD ∅) = true := by
    intro schema hschema
    obtain ⟨db, hdb, hget⟩ := Option.bind_eq_some_iff.mp hschema
    have hdbs := List.all_eq_true.mp h.1 _ ((IndexMap.mem_entries_iff_get ..).mpr hdb)
    have htable := List.all_eq_true.mp hdbs _ ((IndexMap.mem_entries_iff_get ..).mpr hget)
    rw [Bool.and_eq_true, List.all_eq_true] at htable
    exact ⟨of_decide_eq_true htable.1, htable.2⟩
  have hrow : ∀ rowid, s.row ⟨dbId, table, rowid⟩ =
      ((s.getTableStore dbId table).getD ∅).get rowid := by
    intro rowid
    rw [KvsState.row, KvsState.rowAt]
    cases s.getTableStore dbId table <;> rfl
  refine ⟨⟨fun schema hschema => (hschemas schema hschema).1,
    fun schema hschema idx hidx => tidy_of_exactFor ((hschemas schema hschema).2 idx hidx),
    fun rowid row hget => ?_⟩, ?_⟩
  · obtain ⟨store, hstore, hstoreRow⟩ := Option.bind_eq_some_iff.mp hget
    obtain ⟨db, hdb, hdbStore⟩ := Option.bind_eq_some_iff.mp hstore
    have hdbs := List.all_eq_true.mp h.2 _ ((IndexMap.mem_entries_iff_get ..).mpr hdb)
    have htable := List.all_eq_true.mp hdbs _ ((IndexMap.mem_entries_iff_get ..).mpr hdbStore)
    have hmem : row ∈ store.values :=
      List.mem_map.mpr ⟨_, (IndexMap.mem_entries_iff_get ..).mpr hstoreRow, rfl⟩
    exact realFree_of_check (List.all_eq_true.mp htable row hmem)
  · rintro rowid idx v ⟨schema, hschema, hidx⟩ hv
    rw [hrow]
    exact mem_bucket_iff_of_exactFor ((hschemas schema hschema).2 idx hidx) hv

end Skvs
