import Skvs.Proof.Quiet
import Skvs.Proof.Undo
import Skvs.Proof.IndexEntries

/-!
# Undoing a transaction that wrote alone

As long as nobody else writes and no INSERT overwrites a row, every write replaces what the undo of
the next one will find, so the replay walks back through the very states of the run. A property
that setting a row keeps, when its entries are moved from the row that stands there, therefore holds
all the way back.
-/

namespace Skvs

variable [Externals]

/-- The same schemas, rows and full-text tables; their indexes may differ. -/
structure SameTables (s s' : KvsState) : Prop where
  schemas : s.schemas = s'.schemas
  hasStore : ∀ dbId table, s.hasStore dbId table = s'.hasStore dbId table
  row : ∀ k, s.row k = s'.row k
  content : ∀ dbId table, (s.getFtsTable dbId table).map FtsVirtualTable.contentColumn =
    (s'.getFtsTable dbId table).map FtsVirtualTable.contentColumn

omit [Externals] in
theorem SameTables.refl (s : KvsState) : SameTables s s :=
  ⟨rfl, fun _ _ => rfl, fun _ => rfl, fun _ _ => rfl⟩

/-! ### Full-text tables keep their content column -/

section Content

variable (s : KvsState) (dbId : UInt32) (table : String)

omit [Externals] in
theorem getFtsTable_modifyFts (f : FtsIndex → FtsIndex) (dbId' : UInt32) (table' : String) :
    (s.modifyFts dbId table f).getFtsTable dbId' table' =
      if dbId' = dbId ∧ table' = table then
        (s.getFtsTable dbId' table').map fun fts => { fts with index := f fts.index }
      else s.getFtsTable dbId' table' := by
  simp only [KvsState.getFtsTable, KvsState.modifyFts, IndexMap.get_modify]
  by_cases hdb : dbId' = dbId
  · by_cases ht : table' = table <;> cases s.ftsTables.get dbId' <;> simp [hdb, ht]
  · simp [hdb]

theorem syncFtsIndex_content (rowid : RowId) (row : Option Row) (isDelete : Bool) (dbId' : UInt32)
    (table' : String) :
    ((syncFtsIndex s dbId table rowid row isDelete).getFtsTable dbId' table').map
        FtsVirtualTable.contentColumn =
      (s.getFtsTable dbId' table').map FtsVirtualTable.contentColumn := by
  rw [syncFtsIndex]
  split
  · rfl
  · split
    · rw [getFtsTable_modifyFts]
      by_cases hkey : dbId' = dbId ∧ table' = table
      · rw [if_pos hkey, Option.map_map]
        rfl
      · rw [if_neg hkey]
    · rfl

omit [Externals] in
theorem setIndexed_content (k : Key) (copy after : Option Row) :
    (setIndexed s k copy after).getFtsTable = s.getFtsTable := by
  obtain ⟨_, hframe⟩ := setIndexed_frame s k copy after
  rw [hframe]
  rfl

theorem setSynced_content (k : Key) (copy after : Option Row) (dbId' : UInt32) (table' : String) :
    ((setSynced s k copy after).getFtsTable dbId' table').map FtsVirtualTable.contentColumn =
      (s.getFtsTable dbId' table').map FtsVirtualTable.contentColumn := by
  rw [← setIndexed_content s k copy after, setSynced, syncFtsIndexChange]
  cases copy <;> cases after <;>
    simp only [Option.isSome_some, Option.isSome_none, if_true, if_false, Bool.false_eq_true,
      syncFtsIndex_content]

theorem undoOp_content (op : UndoOp) (dbId' : UInt32) (table' : String) :
    ((undoOp dbId s op).getFtsTable dbId' table').map FtsVirtualTable.contentColumn =
      (s.getFtsTable dbId' table').map FtsVirtualTable.contentColumn := by
  rcases undoOp_eq dbId s op with heq | ⟨copy, after, heq⟩ | ⟨after, heq⟩
  · rw [heq]
  · rw [heq, setSynced_content]
  · rw [heq, setIndexed_content]

end Content

/-! ### Properties that a synced change keeps -/

/-- Properties of the tables and their indexes that survive every row change that moves the entries
of the row that stands there. -/
structure Maintained (Good : KvsState → Prop) : Prop where
  frame : ∀ s txns rowidGenerators, Good s → Good { s with txns, rowidGenerators }
  realFree : ∀ s, Good s → ∀ k row, s.row k = some row → row.realFree
  set : ∀ s k new, s.hasStore k.dbId k.table = true → (∀ row, new = some row → row.realFree) →
    Good s → Good (setSynced s k (s.row k) new)

/-- No INSERT was given a rowid in use. -/
def FreeInserts (writes : List Write) : Prop := ∀ x ∈ writes, x.copy = none → x.before = none

section Change

variable {Good : KvsState → Prop} (hG : Maintained Good) {dbId : UInt32} {txId : Option UInt32}
  {w w' : World}

/-- Where no INSERT overwrites, every copy is the row as it stands. -/
theorem row_eq_copy {k : Key} {copy after : Option Row} (hcopy : copy = none ∨ w.kvs.row k = copy)
    (hfree : FreeInserts (w.store txId k copy after).writes) : w.kvs.row k = copy := by
  rcases hcopy with rfl | hrow
  · exact hfree _ (List.mem_append_right _ List.mem_cons_self) rfl
  · exact hrow

include hG

theorem Maintained.change (hch : QuietChange dbId txId w w') (hfree : FreeInserts w'.writes)
    (hreal : RealFreeWrites w'.writes) (h : Good w.kvs) : Good w'.kvs := by
  cases hch with
  | draw table => exact hG.frame w.kvs w.kvs.txns _ h
  | store k copy after hdb hstore hcopy =>
      obtain ⟨txns, hrec⟩ := record_frame w.kvs txId (undoEntry k copy after)
      obtain rfl := row_eq_copy hcopy hfree
      change Good (setSynced (w.kvs.record txId _) k _ after)
      rw [hrec]
      exact hG.set { w.kvs with txns } k after hstore
        (hreal _ (List.mem_append_right _ List.mem_cons_self)) (hG.frame _ _ _ h)

end Change

/-! ### Walking back -/

section Back

variable {dbId : UInt32} {txId : Option UInt32} {s : KvsState} {w : World} {k : Key}
  {copy after : Option Row} (hdb : k.dbId = dbId) (hstore : w.kvs.hasStore k.dbId k.table = true)
  (hsame : SameTables s (w.store txId k copy after).kvs)
include hdb hstore hsame

omit hdb in
theorem SameTables.hasStore_of_store : s.hasStore k.dbId k.table = true := by
  rw [hsame.hasStore, (store_sets w txId k copy after).hasStore, record_hasStore]
  exact hstore

/-- Undoing a write leads back to the tables before it. -/
theorem SameTables.undo (hrow : w.kvs.row k = copy) :
    SameTables (undoOp dbId s (undoEntry k copy after)) w.kvs := by
  subst hdb
  have hsets := store_sets w txId k copy after
  obtain ⟨txns, hrec⟩ := record_frame w.kvs txId (undoEntry k copy after)
  refine ⟨?_, fun db t => ?_, fun k' => ?_, fun db t => ?_⟩
  · have hschemas : (undoOp k.dbId s (undoEntry k copy after)).schemas = s.schemas :=
      undoOp_keeps k.dbId s (P := fun s' => s'.schemas = s.schemas) rfl fun _ _ h => h.schemas
    rw [hschemas, hsame.schemas, hsets.schemas, hrec]
  · have hstores : (undoOp k.dbId s (undoEntry k copy after)).hasStore db t = s.hasStore db t :=
      undoOp_keeps k.dbId s (P := fun s' => s'.hasStore db t = s.hasStore db t) rfl
        fun _ _ h => h.hasStore db t
    rw [hstores, hsame.hasStore, hsets.hasStore, record_hasStore]
  · have hstoreS := hsame.hasStore_of_store hstore
    rw [undoOp_row k.dbId s _ k' fun hk => by rw [hk, undoEntry_key]; exact hstoreS, undoEntry_key,
      undoEntry_value, hsame.row, store_row txId k copy after hstore]
    split_ifs with hk
    · rw [hk, hrow]
    · rfl
  · rw [undoOp_content, hsame.content]
    change ((setSynced (w.kvs.record txId _) k copy after).getFtsTable db t).map _ = _
    rw [setSynced_content, hrec]
    rfl

/-- Undoing a write keeps what is maintained. -/
theorem Maintained.undo {Good : KvsState → Prop} (hG : Maintained Good)
    (hcopy : ∀ row, copy = some row → row.realFree) (hs : Good s) :
    Good (undoOp dbId s (undoEntry k copy after)) := by
  have hstoreS := hsame.hasStore_of_store hstore
  have hafter : s.row k = after := by rw [hsame.row, store_row txId k copy after hstore, if_pos rfl]
  rcases undoOp_undoEntry dbId s hdb hstoreS copy with heq | ⟨heq, -⟩
  · rw [← hafter, heq]
    exact hG.set s k copy hstoreS hcopy hs
  · rw [← hafter, heq]
    exact hs

end Back

/-- From every state with the tables of `w`, replaying the journal leads back to the tables of `s₀`,
and the property holds there again. -/
def Reversible (Good : KvsState → Prop) (dbId : UInt32) (s₀ : KvsState) (txId : UInt32)
    (w : World) : Prop :=
  ∃ journal, w.kvs.txns.active.get txId = some ⟨dbId, journal⟩ ∧
    ∀ s, SameTables s w.kvs → Good s →
      SameTables (undoAll s dbId journal) s₀ ∧ Good (undoAll s dbId journal)

section Reversible

variable {Good : KvsState → Prop} {dbId txId : UInt32} {s₀ : KvsState} {w w' : World}

theorem Reversible.begin (w : World) :
    Reversible Good dbId w.kvs w.kvs.txns.nextId (w.begin dbId) :=
  ⟨[], IndexMap.get_insert_self .., fun _ hsame hgood =>
    ⟨⟨hsame.schemas, hsame.hasStore, hsame.row, hsame.content⟩, hgood⟩⟩

variable (hG : Maintained Good)
include hG

/-- The newest entry is undone first, and leads back to the tables before its write. -/
theorem Reversible.change (h : Reversible Good dbId s₀ txId w) (hgood : Good w.kvs)
    (hch : QuietChange dbId (some txId) w w') (hfree : FreeInserts w'.writes) :
    Reversible Good dbId s₀ txId w' := by
  obtain ⟨journal, hactive, hundo⟩ := h
  cases hch with
  | draw table =>
      exact ⟨journal, hactive, fun s hsame => hundo s
        ⟨hsame.schemas, hsame.hasStore, hsame.row, hsame.content⟩⟩
  | store k copy after hdb hstore hcopy =>
      have hrow := row_eq_copy hcopy hfree
      have hcopyReal : ∀ row, copy = some row → row.realFree := fun row hr =>
        hG.realFree w.kvs hgood k row (hrow.trans hr)
      refine ⟨journal ++ [undoEntry k copy after], ?_, fun s hsame hs => ?_⟩
      · rw [store_active, if_pos rfl, hactive]
        rfl
      · rw [undoAll_append, undoAll_cons, undoAll_nil]
        exact hundo _ (hsame.undo hdb hstore hrow) (hG.undo hdb hstore hsame hcopyReal hs)

theorem Reversible.changes (hch : QuietChanges dbId (some txId) w w')
    (hfree : FreeInserts w'.writes) (hreal : RealFreeWrites w'.writes)
    (h : Reversible Good dbId s₀ txId w) (hgood : Good w.kvs) :
    Reversible Good dbId s₀ txId w' ∧ Good w'.kvs := by
  induction hch with
  | refl => exact ⟨h, hgood⟩
  | @tail v v' hchanges hstep ih =>
      have hmem : ∀ x ∈ v.writes, x ∈ v'.writes := by
        cases hstep with
        | draw => exact fun x hx => hx
        | store => exact fun x hx => List.mem_append_left _ hx
      obtain ⟨hv, hgoodV⟩ := ih (fun x hx => hfree x (hmem x hx)) fun x hx => hreal x (hmem x hx)
      exact ⟨hv.change hG hgoodV hstep hfree, hG.change hstep hfree hreal hgoodV⟩

/-- Rolling the transaction back leads to the tables it started from. -/
theorem Reversible.rollback (h : Reversible Good dbId s₀ txId w) (hgood : Good w.kvs) :
    SameTables (w.rollback txId).kvs s₀ ∧ Good (w.rollback txId).kvs := by
  obtain ⟨journal, hactive, hundo⟩ := h
  rw [rollback_eq, hactive]
  exact hundo _ (SameTables.refl w.kvs |> fun h => ⟨h.schemas, h.hasStore, h.row, h.content⟩)
    (hG.frame w.kvs _ w.kvs.rowidGenerators hgood)

end Reversible

/-- Exact indexes are maintained. -/
theorem maintained_indexesExact : Maintained IndexesExact where
  frame _ _ _ h dbId table :=
    let h' := h dbId table
    ⟨⟨h'.names, h'.tidy, h'.realFree⟩, h'.entry_iff⟩
  realFree _ h k row hrow := (h k.dbId k.table).realFree k.rowid row hrow
  set s k new hstore hnew h dbId table :=
    (h dbId table).sets (sets_setSynced s k (s.row k) new) hstore
      (fun _ _ row hrow => (h k.dbId k.table).realFree k.rowid row hrow) (fun _ _ => hnew)
      fun _ _ _ hfiled => Or.inl hfiled

end Skvs
