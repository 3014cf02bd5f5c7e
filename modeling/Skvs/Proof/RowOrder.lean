import Skvs.Lib.KeyOrder
import Skvs.Lib.Simulation
import Skvs.Proof.FastPath
import Skvs.Proof.Joins
import Skvs.Proof.References
import Skvs.Proof.RowShape
import Skvs.Proof.SelectRows

/-!
# Candidate rows and the order of the tables

Tables are hash maps, and joins, scans and index lookups go through them in whatever order they
yield their rows. Two states with the same rows in another order yield the same candidate rows for
every FROM list, in another order, with the same columns.
-/

namespace Skvs

open IndexMap

section

variable [Externals]

omit [Externals] in
/-- The same key with the same rowids in its bucket, in another order. -/
def SameBucket (e e' : Value × List RowId) : Prop := e'.1 = e.1 ∧ e'.2.Perm e.2

/-- The same rows in each table, in another order, and the same in the buckets of the indexes. -/
structure Reordered (dbId : UInt32) (s s' : KvsState) : Prop where
  store : ∀ table, Option.Rel (fun store store' : Store => store'.entries.Perm store.entries)
    (s.getTableStore dbId table) (s'.getTableStore dbId table)
  index : ∀ table indexName, List.Forall₂ SameBucket
    (s.indexStore dbId table indexName).entries (s'.indexStore dbId table indexName).entries
  schemas : s'.schemas = s.schemas
  views : s'.views = s.views
  fts : s'.ftsTables = s.ftsTables

/-- All rows have the same columns, in the same order. -/
def SameColumns (rows : List Row) : Prop := ∃ keys, ∀ row ∈ rows, row.keys = keys

/-- The same rows in another order. -/
structure Shuffled (rows rows' : List Row) : Prop where
  perm : rows'.Perm rows
  columns : SameColumns rows

section Lists

variable {rows rows' : List Row}

omit [Externals]

theorem Shuffled.nil : Shuffled [] [] := ⟨.refl _, [], List.forall_mem_nil _⟩

theorem Shuffled.head_keys (h : Shuffled rows rows') :
    rows'.head?.map IndexMap.keys = rows.head?.map IndexMap.keys := by
  obtain ⟨keys, hkeys⟩ := h.columns
  cases rows with
  | nil => rw [h.perm.eq_nil]
  | cons row rows =>
      cases rows' with
      | nil => exact absurd h.perm.symm.eq_nil (List.cons_ne_nil row rows)
      | cons row' rows' =>
          change some row'.keys = some row.keys
          rw [hkeys row List.mem_cons_self, hkeys row' (h.perm.subset List.mem_cons_self)]

theorem Shuffled.keys_eq_head (h : Shuffled rows rows') :
    ∀ row ∈ rows, row.keys = (rows.head?.map IndexMap.keys).getD [] := by
  obtain ⟨keys, hkeys⟩ := h.columns
  intro row hrow
  cases rows with
  | nil => cases hrow
  | cons first rows => exact (hkeys row hrow).trans (hkeys first List.mem_cons_self).symm

theorem Shuffled.filter (h : Shuffled rows rows') (p : Row → Bool) :
    Shuffled (rows.filter p) (rows'.filter p) :=
  ⟨h.perm.filter p, h.columns.imp fun _ hkeys row hrow => hkeys row (List.mem_of_mem_filter hrow)⟩

/-- A map that makes of a row's columns the columns of the new row. -/
theorem Shuffled.map (h : Shuffled rows rows') {f : Row → Row} {g : List String → List String}
    (hf : ∀ row, (f row).keys = g row.keys) : Shuffled (rows.map f) (rows'.map f) := by
  obtain ⟨keys, hkeys⟩ := h.columns
  refine ⟨h.perm.map f, g keys, fun newRow hnew => ?_⟩
  obtain ⟨row, hrow, rfl⟩ := List.mem_map.mp hnew
  rw [hf, hkeys row hrow]

/-! ### The columns of a merged row -/

/-- The columns that a row brings into a merged row. -/
def broughtIn (name : String) (cols : List String) : List String :=
  cols.flatMap fun col => [qualifiedName name col, col]

theorem keys_insertRowQualified (combined : Row) (name : String) (row : Row) :
    (insertRowQualified combined name row).keys =
      (broughtIn name row.keys).foldl appendKey combined.keys := by
  have hfold : ∀ (es : List (String × Value)) (r : Row), (es.foldl (fun r e =>
      (r.insert (qualifiedName name e.1) e.2).insertIfNew e.1 e.2) r).keys =
        (broughtIn name (es.map Prod.fst)).foldl appendKey r.keys := by
    intro es
    induction es with
    | nil => exact fun r => rfl
    | cons e es ih =>
        intro r
        rw [List.foldl_cons, ih, keys_insertIfNew, keys_insert]
        rfl
  exact hfold row.entries combined

theorem keys_nullPadded (name : String) (schema2 : Option TableSchema) (sample : Option Row) :
    (nullPadded name schema2 sample).keys =
      (broughtIn name (paddedColumns schema2 sample)).foldl appendKey [] := by
  have hfold : ∀ (cols : List String) (r : Row), (cols.foldl (fun r col =>
      (r.insert (qualifiedName name col) .null).insertIfNew col .null) r).keys =
        (broughtIn name cols).foldl appendKey r.keys := by
    intro cols
    induction cols with
    | nil => exact fun r => rfl
    | cons col cols ih =>
        intro r
        rw [List.foldl_cons, ih, keys_insertIfNew, keys_insert]
        rfl
  exact hfold (paddedColumns schema2 sample) ∅

theorem keys_insertAll (target row : Row) :
    (insertAll target row).keys = row.keys.foldl appendKey target.keys :=
  keys_foldl_insert Prod.fst Prod.snd row.entries target

/-- Padding brings in the columns that a partner would. -/
theorem keys_insertAll_nullPadded (row1 : Row) (name : String) (schema2 : Option TableSchema)
    (sample : Option Row) :
    (insertAll row1 (nullPadded name schema2 sample)).keys =
      (broughtIn name (paddedColumns schema2 sample)).foldl appendKey row1.keys := by
  rw [keys_insertAll, keys_nullPadded, foldl_appendKey_foldl]
  rfl

theorem keys_rightPadded (name2 : String) (result : List Row) (row2 : Row) :
    (rightPadded name2 result row2).keys =
      (broughtIn name2 row2.keys).foldl appendKey ((result.head?.map IndexMap.keys).getD []) := by
  rw [rightPadded, keys_insertRowQualified, keys_foldl_insert, List.map_id']
  congr 1
  cases result with
  | nil => rfl
  | cons row result => exact foldl_appendKey_of_nodup row.keys_nodup

end Lists

/-! ### Joins -/

section Joins

variable {dbId : UInt32} {s s' : KvsState}

omit [Externals] in
theorem Reordered.getSchema (h : Reordered dbId s s') (table : String) :
    s'.getSchema dbId table = s.getSchema dbId table := by
  rw [KvsState.getSchema, h.schemas, KvsState.getSchema]

theorem Reordered.whereHolds (h : Reordered dbId s s') (row : Row) (params : List Value) (e : Expr)
    (paramIdx : Nat) :
    Skvs.whereHolds s' dbId row params e paramIdx =
      Skvs.whereHolds s dbId row params e paramIdx := by
  rw [Skvs.whereHolds, Skvs.whereHolds, evaluateWhereCtx_congr h.fts]

theorem Reordered.pairsUp (h : Reordered dbId s s') (isFirst : Bool) (name1 name2 : String)
    (c : JoinConstraint) (params : List Value) :
    Skvs.pairsUp s' dbId isFirst name1 name2 c params =
      Skvs.pairsUp s dbId isFirst name1 name2 c params := by
  funext row1 row2
  simp only [Skvs.pairsUp, joinConditionMatches, h.whereHolds]

omit [Externals] in
/-- A table is missing in both states, or there in both. -/
theorem Reordered.getTableStore (h : Reordered dbId s s') (table : String) :
    (s.getTableStore dbId table = none ∧ s'.getTableStore dbId table = none) ∨
      ∃ store store', s.getTableStore dbId table = some store ∧
        s'.getTableStore dbId table = some store' ∧ store'.entries.Perm store.entries := by
  have hrel := h.store table
  cases hstore : s.getTableStore dbId table with
  | none =>
      rw [hstore] at hrel
      cases hrel' : s'.getTableStore dbId table with
      | none => exact .inl ⟨rfl, rfl⟩
      | some store' => rw [hrel'] at hrel; cases hrel
  | some store =>
      rw [hstore] at hrel
      cases hrel' : s'.getTableStore dbId table with
      | none => rw [hrel'] at hrel; cases hrel
      | some store' =>
          rw [hrel'] at hrel
          cases hrel with
          | some hperm => exact .inr ⟨store, store', rfl, rfl, hperm⟩

omit [Externals] in
/-- States that have the same row under each rowid differ in the order of the rows only. -/
theorem Reordered.of_rows
    (hstores : ∀ table, s'.hasStore dbId table = s.hasStore dbId table)
    (hrows : ∀ table rowid, s'.row ⟨dbId, table, rowid⟩ = s.row ⟨dbId, table, rowid⟩)
    (hindexes : s'.indexes = s.indexes) (hschemas : s'.schemas = s.schemas)
    (hviews : s'.views = s.views) (hfts : s'.ftsTables = s.ftsTables) : Reordered dbId s s' where
  store := by
    intro table
    have hhas := hstores table
    have hget := hrows table
    simp only [KvsState.hasStore, KvsState.row, KvsState.rowAt] at hhas hget
    cases hstore : s.getTableStore dbId table with
    | none =>
        rw [hstore] at hhas
        rw [Option.isNone_iff_eq_none.mp (Option.isSome_eq_false_iff.mp hhas)]
        exact .none
    | some store =>
        rw [hstore, Option.isSome_some, Option.isSome_iff_exists] at hhas
        obtain ⟨store', hstore'⟩ := hhas
        rw [hstore, hstore'] at hget
        rw [hstore']
        exact .some (IndexMap.perm_of_get_eq hget)
  index := by
    intro table indexName
    rw [KvsState.indexStore, KvsState.indexStore, hindexes]
    exact List.forall₂_same.mpr fun e _ => ⟨rfl, .refl _⟩
  schemas := hschemas
  views := hviews
  fts := hfts

/-- The columns of the rows of a table. -/
def tableColumns (s : KvsState) (dbId : UInt32) (table : String) : List String :=
  ((s.getSchema dbId table).map fun schema => schema.columns.keys).getD []

variable (hshapes : RowShapes s)
include hshapes

omit [Externals] in
theorem RowShapes.keys_eq {table : String} {store : Store}
    (hstore : s.getTableStore dbId table = some store) {e : RowId × Row} (he : e ∈ store.entries) :
    e.2.keys = tableColumns s dbId table := by
  have hrow : s.row ⟨dbId, table, e.1⟩ = some e.2 := by
    rw [KvsState.row, KvsState.rowAt, hstore]
    exact (IndexMap.mem_entries_iff_get ..).mp he
  obtain ⟨schema, hschema, hkeys⟩ := hshapes ⟨dbId, table, e.1⟩ e.2 hrow
  rw [tableColumns, hschema]
  exact hkeys

theorem RowShapes.keys_joinedRows {table : String} {store : Store}
    (hstore : s.getTableStore dbId table = some store) :
    ∀ row ∈ joinedRows store, row.keys = tableColumns s dbId table := by
  intro row hrow
  obtain ⟨e, he, rfl⟩ := List.mem_map.mp hrow
  exact hshapes.keys_eq hstore ((hashOrder_perm store.entries).subset he)

theorem RowShapes.paddedColumns_eq {table : String} {store : Store}
    (hstore : s.getTableStore dbId table = some store) :
    paddedColumns (s.getSchema dbId table) (joinedRows store).head? =
      tableColumns s dbId table := by
  have hkeys := hshapes.keys_joinedRows hstore
  unfold tableColumns at hkeys ⊢
  cases hschema : s.getSchema dbId table with
  | some schema => rfl
  | none =>
      rw [hschema] at hkeys
      cases hrows : joinedRows store with
      | nil => rfl
      | cons row rows => exact hkeys row (by rw [hrows]; exact List.mem_cons_self)

theorem RowShapes.shuffled_joinedRows {table : String} {store store' : Store}
    (hstore : s.getTableStore dbId table = some store)
    (hperm : store'.entries.Perm store.entries) :
    Shuffled (joinedRows store) (joinedRows store') :=
  ⟨(((hashOrder_perm store'.entries).trans hperm).trans (hashOrder_perm store.entries).symm).map _,
    tableColumns s dbId table, hshapes.keys_joinedRows hstore⟩

end Joins

section JoinStep

variable {dbId : UInt32} {s s' : KvsState} {rows2 rows2' result result' : List Row}

/-- The columns after a join with a table that has the columns `cols`. -/
def joinedColumns (name2 : String) (cols : List String) (result : List Row) : List String :=
  (broughtIn name2 cols).foldl appendKey ((result.head?.map IndexMap.keys).getD [])

theorem perm_partners (isFirst : Bool) (name1 name2 : String) (c : JoinConstraint)
    (params : List Value) (h : Reordered dbId s s') (hrows2 : rows2'.Perm rows2) (row1 : Row) :
    (partners s' dbId isFirst name1 name2 c params rows2' row1).Perm
      (partners s dbId isFirst name1 name2 c params rows2 row1) := by
  rw [partners, partners, h.pairsUp]
  exact (hrows2.filter _).map _

theorem perm_partnersOf (name1 name2 : String) (c : JoinConstraint) (params : List Value)
    (h : Reordered dbId s s') (hresult : result'.Perm result) (row2 : Row) :
    (partnersOf s' dbId name1 name2 c params result' row2).Perm
      (partnersOf s dbId name1 name2 c params result row2) := by
  rw [partnersOf, partnersOf, h.pairsUp]
  exact (hresult.filter _).map _

omit [Externals] in
/-- A row has its partners, or one row in their place. -/
theorem perm_ifEmpty {found found' : List Row} (hperm : found'.Perm found) (row : Row) :
    (if found'.isEmpty then [row] else found').Perm (if found.isEmpty then [row] else found) := by
  rw [hperm.isEmpty_eq]
  split_ifs
  · exact .refl _
  · exact hperm

omit [Externals] in
theorem mem_ifEmpty {found : List Row} {row x : Row}
    (hx : x ∈ if found.isEmpty then [row] else found) : x = row ∨ x ∈ found := by
  split_ifs at hx
  · exact .inl (List.mem_singleton.mp hx)
  · exact .inr hx

section Columns

variable {name2 : String} {cols : List String} (hresult : Shuffled result result')
  (hcols : ∀ row2 ∈ rows2, row2.keys = cols)
include hresult hcols

omit [Externals] in
theorem keys_merged {row1 row2 : Row} (hrow1 : row1 ∈ result) (hrow2 : row2 ∈ rows2) :
    (insertRowQualified row1 name2 row2).keys = joinedColumns name2 cols result := by
  rw [keys_insertRowQualified, hcols row2 hrow2, hresult.keys_eq_head row1 hrow1, joinedColumns]

theorem keys_partners {isFirst : Bool} {name1 : String} {c : JoinConstraint} {params : List Value}
    {row1 row : Row} (hrow1 : row1 ∈ result)
    (hrow : row ∈ partners s dbId isFirst name1 name2 c params rows2 row1) :
    row.keys = joinedColumns name2 cols result := by
  obtain ⟨row2, hrow2, rfl⟩ := List.mem_map.mp hrow
  exact keys_merged hresult hcols hrow1 (List.mem_of_mem_filter hrow2)

theorem keys_partnersOf {name1 : String} {c : JoinConstraint} {params : List Value}
    {row2 row : Row} (hrow2 : row2 ∈ rows2)
    (hrow : row ∈ partnersOf s dbId name1 name2 c params result row2) :
    row.keys = joinedColumns name2 cols result := by
  obtain ⟨row1, hrow1, rfl⟩ := List.mem_map.mp hrow
  exact keys_merged hresult hcols (List.mem_of_mem_filter hrow1) hrow2

omit [Externals] hresult in
theorem keys_rightPadded_eq {row2 : Row} (hrow2 : row2 ∈ rows2) :
    (rightPadded name2 result row2).keys = joinedColumns name2 cols result := by
  rw [keys_rightPadded, hcols row2 hrow2, joinedColumns]

omit [Externals] hcols in
theorem keys_leftPadded {schema2 : Option TableSchema} {sample : Option Row}
    (hpadded : paddedColumns schema2 sample = cols) {row1 : Row} (hrow1 : row1 ∈ result) :
    (insertAll row1 (nullPadded name2 schema2 sample)).keys = joinedColumns name2 cols result := by
  rw [keys_insertAll_nullPadded, hpadded, hresult.keys_eq_head row1 hrow1, joinedColumns]

end Columns

variable (h : Reordered dbId s s') (hshapes : RowShapes s) (hresult : Shuffled result result')
include h hshapes hresult

theorem executeJoin_shuffled (isFirst : Bool) (name1 : String) (join : Join)
    (params : List Value) :
    Except.Rel Eq Shuffled (executeJoin s dbId isFirst name1 result join params)
      (executeJoin s' dbId isFirst name1 result' join params) := by
  obtain ⟨relation, op⟩ := join
  obtain ⟨hnone, hnone'⟩ | ⟨store2, store2', hstore, hstore', hperm⟩ :=
    h.getTableStore (parseTableFactor relation).1
  · simp only [executeJoin, hnone, hnone']
    exact .error rfl
  have hrows := hshapes.shuffled_joinedRows hstore hperm
  have hcols := hshapes.keys_joinedRows hstore
  have hpadded := hshapes.paddedColumns_eq hstore
  have hpadding : leftPadding s' dbId relation (joinedRows store2') =
      leftPadding s dbId relation (joinedRows store2) := by
    simp only [leftPadding, nullPadded, h.getSchema, hrows.head_keys]
  have hright : rightPadded (refName relation) result' = rightPadded (refName relation) result := by
    funext row2
    rw [rightPadded, rightPadded, hresult.head_keys]
  have hpartners := fun isFirst c row1 =>
    perm_partners isFirst name1 (refName relation) c params h hrows.perm row1
  have hjoined : ∀ {rows rows' : List Row}, rows'.Perm rows → (∀ row ∈ rows, row.keys =
      joinedColumns (refName relation) (tableColumns s dbId (parseTableFactor relation).1) result) →
        Except.Rel Eq Shuffled (.ok rows : Except Fail (List Row)) (.ok rows' : Except Fail _) :=
    fun hperm hkeys => .ok ⟨hperm, _, hkeys⟩
  cases op with
  | inner c =>
      rw [executeJoin_inner hstore, executeJoin_inner hstore']
      refine hjoined (hresult.perm.flatMap fun row1 _ => hpartners isFirst c row1)
        fun row hrow => ?_
      obtain ⟨row1, hrow1, hmem⟩ := List.mem_flatMap.mp hrow
      exact keys_partners hresult hcols hrow1 hmem
  | leftOuter c =>
      rw [executeJoin_leftOuter hstore, executeJoin_leftOuter hstore', hpadding]
      refine hjoined (hresult.perm.flatMap fun row1 _ => perm_ifEmpty (hpartners isFirst c row1) _)
        fun row hrow => ?_
      obtain ⟨row1, hrow1, hmem⟩ := List.mem_flatMap.mp hrow
      obtain rfl | hmem := mem_ifEmpty hmem
      · exact keys_leftPadded hresult hpadded hrow1
      · exact keys_partners hresult hcols hrow1 hmem
  | rightOuter c =>
      rw [executeJoin_rightOuter hstore, executeJoin_rightOuter hstore', hright]
      refine hjoined (hrows.perm.flatMap fun row2 _ => perm_ifEmpty
        (perm_partnersOf name1 (refName relation) c params h hresult.perm row2) _)
        fun row hrow => ?_
      obtain ⟨row2, hrow2, hmem⟩ := List.mem_flatMap.mp hrow
      obtain rfl | hmem := mem_ifEmpty hmem
      · exact keys_rightPadded_eq hcols hrow2
      · exact keys_partnersOf hresult hcols hrow2 hmem
  | fullOuter c =>
      rw [executeJoin_fullOuter hstore, executeJoin_fullOuter hstore', hpadding, hright]
      have hunmatched : (fun row2 => !result'.any fun row1 =>
          pairsUp s' dbId false name1 (refName relation) c params row1 row2) =
          fun row2 => !result.any fun row1 =>
            pairsUp s dbId false name1 (refName relation) c params row1 row2 := by
        funext row2
        rw [h.pairsUp, hresult.perm.any_eq]
      rw [hunmatched]
      refine hjoined ((hresult.perm.flatMap fun row1 _ =>
        perm_ifEmpty (hpartners false c row1) _).append ((hrows.perm.filter _).map _))
        fun row hrow => ?_
      obtain hleft | hunpaired := List.mem_append.mp hrow
      · obtain ⟨row1, hrow1, hmem⟩ := List.mem_flatMap.mp hleft
        obtain rfl | hmem := mem_ifEmpty hmem
        · exact keys_leftPadded hresult hpadded hrow1
        · exact keys_partners hresult hcols hrow1 hmem
      · obtain ⟨row2, hrow2, rfl⟩ := List.mem_map.mp hunpaired
        exact keys_rightPadded_eq hcols (List.mem_of_mem_filter hrow2)
  | crossJoin =>
      rw [executeJoin_crossJoin hstore, executeJoin_crossJoin hstore']
      refine hjoined (hresult.perm.flatMap fun row1 _ => hrows.perm.map _) fun row hrow => ?_
      obtain ⟨row1, hrow1, hmem⟩ := List.mem_flatMap.mp hrow
      obtain ⟨row2, hrow2, rfl⟩ := List.mem_map.mp hmem
      exact keys_merged hresult hcols hrow1 hrow2
  | other debug =>
      simp only [executeJoin, hstore, hstore']
      exact .error rfl

end JoinStep

omit [Externals] in
theorem sameBucket_filter {l l' : List (Value × List RowId)} (h : List.Forall₂ SameBucket l l')
    (p : Value → Bool) :
    List.Forall₂ SameBucket (l.filter fun e => p e.1) (l'.filter fun e => p e.1) := by
  refine List.rel_filter (fun e e' he => ?_) h
  change p e.1 = true ↔ p e'.1 = true
  rw [he.1]

omit [Externals] in
theorem sameBucket_find {l l' : List (Value × List RowId)} (h : List.Forall₂ SameBucket l l')
    (p : Value → Bool) : List.Forall₂ SameBucket (l.find? fun e => p e.1).toList
      (l'.find? fun e => p e.1).toList := by
  induction h with
  | nil => exact .nil
  | cons he _ ih =>
      rw [List.find?_cons, List.find?_cons, he.1]
      split
      · exact .cons he .nil
      · exact ih

omit [Externals] in
/-- A lookup reads the same rowids, in another order. -/
theorem perm_ids {index index' : IndexStore}
    (h : List.Forall₂ SameBucket index.entries index'.entries) (lookup : Lookup) :
    (lookup.ids index').Perm (lookup.ids index) := by
  have hhits : List.Forall₂ SameBucket (lookup.hits index) (lookup.hits index') := by
    cases lookup with
    | equal val => exact sameBucket_find h fun v => val.compare v == .eq
    | range lower upper => exact sameBucket_filter h fun v =>
        BTreeMap.aboveLower Value.compare lower v && BTreeMap.belowUpper Value.compare upper v
  rw [Lookup.ids, Lookup.ids]
  generalize lookup.hits index = hits at hhits
  generalize lookup.hits index' = hits' at hhits
  induction hhits with
  | nil => exact .refl _
  | cons he _ ih => exact he.2.append ih

section Selected

variable {dbId : UInt32} {s s' : KvsState} (h : Reordered dbId s s') (hshapes : RowShapes s)
include h hshapes

theorem executeJoins_shuffled (from_ : List TableWithJoins) (params : List Value) :
    Except.Rel Eq Shuffled (executeJoins s dbId from_ params)
      (executeJoins s' dbId from_ params) := by
  cases from_ with
  | nil => exact .ok .nil
  | cons first rest =>
      obtain ⟨relation, joins⟩ := first
      obtain ⟨hnone, hnone'⟩ | ⟨store, store', hstore, hstore', hperm⟩ :=
        h.getTableStore (parseTableFactor relation).1
      · simp only [executeJoins, hnone, hnone']
        exact .error rfl
      · rw [executeJoins_cons params hstore, executeJoins_cons params hstore']
        have hrows := hshapes.shuffled_joinedRows hstore hperm
        have hstart : Shuffled (startRows (refName relation) store)
            (startRows (refName relation) store') :=
          hrows.map (g := fun cols => (broughtIn (refName relation) cols).foldl appendKey [])
            fun row => keys_insertRowQualified ∅ (refName relation) row
        exact Except.Rel.foldlM (fun _ _ join hresult =>
          executeJoin_shuffled h hshapes hresult _ _ join.1 params) joins.zipIdx hstart

theorem scanRows_shuffled (table : String) :
    Except.Rel Eq Shuffled (scanRows s dbId table) (scanRows s' dbId table) := by
  obtain ⟨hnone, hnone'⟩ | ⟨store, store', hstore, hstore', hperm⟩ := h.getTableStore table
  · rw [scanRows, scanRows, hnone, hnone']
    exact .error rfl
  · rw [scanRows, scanRows, hstore, hstore']
    refine .ok ⟨(((hashOrder_perm store'.entries).trans hperm).trans
      (hashOrder_perm store.entries).symm).map _, appendKey (tableColumns s dbId table) "_rowid_",
      ?_⟩
    intro row hrow
    obtain ⟨e, he, rfl⟩ := List.mem_map.mp hrow
    rw [tagRow, keys_insert, hshapes.keys_eq hstore ((hashOrder_perm store.entries).subset he)]

omit [Externals] in
theorem rowsFromIds_shuffled (table : String) {ids ids' : List RowId} (hids : ids'.Perm ids) :
    Except.Rel Eq Shuffled (rowsFromIds s dbId table ids) (rowsFromIds s' dbId table ids') := by
  obtain ⟨hnone, hnone'⟩ | ⟨store, store', hstore, hstore', hperm⟩ := h.getTableStore table
  · rw [rowsFromIds, rowsFromIds, hnone, hnone']
    exact .error rfl
  · rw [rowsFromIds, rowsFromIds, hstore, hstore']
    have hget : ∀ rowid, store'.get rowid = store.get rowid := IndexMap.lookup_of_perm hperm
    simp only [hget]
    refine .ok ⟨hids.filterMap _, appendKey (tableColumns s dbId table) "_rowid_", ?_⟩
    intro row hrow
    obtain ⟨rowid, -, hrow⟩ := List.mem_filterMap.mp hrow
    obtain ⟨found, hfound, rfl⟩ := Option.map_eq_some_iff.mp hrow
    rw [tagRow, keys_insert]
    have hmem : (rowid, found) ∈ store.entries := (IndexMap.mem_entries_iff_get ..).mpr hfound
    rw [hshapes.keys_eq hstore hmem]

theorem rowsForSimpleWhere_shuffled (table : String) (selection : Option Expr)
    (params : List Value) :
    Except.Rel Eq Shuffled (rowsForSimpleWhere s dbId table selection params)
      (rowsForSimpleWhere s' dbId table selection params) := by
  cases selection with
  | none => exact scanRows_shuffled h hshapes table
  | some e =>
      have hpath : fastPath s' dbId table e params = fastPath s dbId table e params := by
        simp only [fastPath, h.getSchema]
      rw [rowsForSimpleWhere_eq, rowsForSimpleWhere_eq, hpath]
      cases fastPath s dbId table e params with
      | none => exact scanRows_shuffled h hshapes table
      | some found =>
          obtain ⟨idx, lookup⟩ := found
          dsimp only
          split_ifs with hallowed
          · exact rowsFromIds_shuffled h hshapes table
              (perm_ids (h.index table idx.name) lookup)
          · exact .error rfl

end Selected

end

end Skvs
