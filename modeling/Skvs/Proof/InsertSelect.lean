import Skvs.Proof.ProjectedNames
import Skvs.Proof.InsertValues
import Skvs.Proof.CommaJoin
import Skvs.Proof.RowidCounters

/-!
# INSERT … SELECT

The selected rows pass through maps keyed by the names of the items, and are read by position: the
column at a position gets what the last item has that is named like the name at that position among
the distinct names.
-/

namespace Skvs

open Prog

section

variable [Externals]

/-! ### What is read for a column -/

/-- The value of an item on a row. -/
def SelectItem.value (params : List Value) (row : Row) : SelectItem → Value
  | .unnamedExpr e | .exprWithAlias e _ => evalFrom (.withRow row) params e 0
  | .qualifiedWildcard | .wildcard => .null

/-- The row that a projection makes of a row. -/
def projectedRow (params : List Value) (projection : List SelectItem) (row : Row) : Row :=
  (projection.foldl (projectItem params row) ∅).erase "_rowid_"

/-- The distinct names of the items, without the internal rowid field. -/
def visibleNames (projection : List SelectItem) : List String :=
  (Distinct.firsts id [] (projection.map itemName)).erase "_rowid_"

def lastNamed (projection : List SelectItem) (name : String) : Option SelectItem :=
  projection.reverse.find? fun item => itemName item = name

/-- What a source row has for the target column at a position. -/
def valueAt (params : List Value) (projection : List SelectItem) (i : Nat) (row : Row) :
    Option Value :=
  ((visibleNames projection)[i]?.bind (lastNamed projection)).map (SelectItem.value params row)

section Projection

variable (params : List Value) {projection : List SelectItem}
  (hexplicit : isPureOrMixedWildcard projection = false) (row : Row)
include hexplicit

theorem projectItem_eq {item : SelectItem} (hitem : item ∈ projection) (newRow : Row) :
    projectItem params row newRow item = newRow.insert (itemName item) (item.value params row) := by
  rcases expr_of_explicit hexplicit hitem with ⟨e, rfl⟩ | ⟨e, alias_, rfl⟩
  · rfl
  · rfl

theorem keys_projectedRow :
    (projectedRow params projection row).keys = visibleNames projection := by
  have hkeys := IndexMap.keys_foldl (projectItem_insert hexplicit params row) ∅
  rw [projectedRow, IndexMap.keys_erase, hkeys]
  rfl

theorem get_foldl_projectItem (name : String) :
    (projection.foldl (projectItem params row) ∅).get name =
      (lastNamed projection name).map (SelectItem.value params row) := by
  have hgo : ∀ items ⊆ projection, (items.foldl (projectItem params row) ∅).get name =
      (lastNamed items name).map (SelectItem.value params row) := by
    intro items hitems
    induction items using List.reverseRecOn with
    | nil => rfl
    | append_singleton items item ih =>
        have hitem : item ∈ projection := hitems (by simp)
        have hrest : items ⊆ projection := fun x hx => hitems (List.mem_append_left _ hx)
        rw [List.foldl_append, List.foldl_cons, List.foldl_nil,
          projectItem_eq params hexplicit row hitem, IndexMap.get_insert, lastNamed,
          List.reverse_append, List.reverse_singleton, List.singleton_append, List.find?_cons]
        by_cases hname : name = itemName item
        · rw [if_pos hname, decide_eq_true hname.symm]
          rfl
        · rw [if_neg hname, decide_eq_false (Ne.symm hname)]
          exact ih hrest
  exact hgo projection (List.Subset.refl _)

theorem getElem?_values_projectedRow (i : Nat) :
    (projectedRow params projection row).values[i]? = valueAt params projection i row := by
  rw [IndexMap.getElem?_values, keys_projectedRow params hexplicit row, valueAt]
  cases hname : (visibleNames projection)[i]? with
  | none => rfl
  | some name =>
      have hmem : name ∈ visibleNames projection := List.mem_of_getElem? hname
      rw [← keys_projectedRow params hexplicit row, projectedRow, IndexMap.keys_erase,
        (IndexMap.keys_nodup _).mem_erase_iff] at hmem
      rw [Option.bind_some, Option.bind_some, projectedRow, IndexMap.get_erase, if_neg hmem.1,
        get_foldl_projectItem params hexplicit row name]

end Projection

/-! ### What is stored in a column -/

/-- The row that an INSERT makes of a source row, or of none, under a rowid. -/
def insertedRow (params : List Value) (schema : TableSchema) (cols : List String)
    (projection : List SelectItem) (rowid : RowId) (source : Option Row) : Row :=
  withDefaults schema rowid (source.elim ∅ fun row =>
    selectedRow cols (projectedRow params projection row))

/-- What an INSERT puts into the target column at a position: what the source row has for it, or the
column's default. -/
def insertedValue (params : List Value) (schema : TableSchema) (projection : List SelectItem)
    (i : Nat) (col : String) (rowid : RowId) (source : Option Row) : Option Value :=
  (source.bind (valueAt params projection i)).or
    ((schema.columns.get col).map fun colDef => defaultValue colDef rowid)

omit [Externals] in
theorem map_fst_zip_sublist (cols : List String) (vs : List Value) :
    ((cols.zip vs).map Prod.fst).Sublist cols := by
  induction cols generalizing vs with
  | nil => exact .refl []
  | cons col cols ih =>
      cases vs with
      | nil => exact List.nil_sublist _
      | cons v vs => exact (ih vs).cons_cons col

omit [Externals] in
theorem lookup_zip {cols : List String} (hnodup : cols.Nodup) (vs : List Value) {i : Nat}
    {c : String} (hc : cols[i]? = some c) : (cols.zip vs).lookup c = vs[i]? := by
  induction cols generalizing vs i with
  | nil => exact nomatch hc
  | cons col cols ih =>
      rw [List.nodup_cons] at hnodup
      cases vs with
      | nil => rfl
      | cons v vs =>
          rw [List.zip_cons_cons, IndexMap.lookup_cons_ite]
          cases i with
          | zero =>
              rw [if_pos (Option.some.inj hc).symm]
              rfl
          | succ i =>
              have hc' : cols[i]? = some c := hc
              have hne : c ≠ col := fun heq => hnodup.1 (heq ▸ List.mem_of_getElem? hc')
              rw [if_neg hne, ih hnodup.2 vs hc', List.getElem?_cons_succ]

theorem get_insertedRow {params : List Value} {schema : TableSchema} {cols : List String}
    (hcols : cols.Nodup) {projection : List SelectItem}
    (hexplicit : isPureOrMixedWildcard projection = false) (rowid : RowId) (source : Option Row)
    {i : Nat} {c : String} (hc : cols[i]? = some c) :
    (insertedRow params schema cols projection rowid source).get c =
      insertedValue params schema projection i c rowid source := by
  rw [insertedRow, get_withDefaults, insertedValue]
  cases source with
  | none => rfl
  | some row =>
      have hkeys : ((cols.zip (projectedRow params projection row).values).map Prod.fst).Nodup :=
        (map_fst_zip_sublist cols _).nodup hcols
      change (IndexMap.get (selectedRow cols (projectedRow params projection row)) c).or _ =
        (valueAt params projection i row).or _
      have hget := IndexMap.get_ofList_of_nodup hkeys c
      rw [lookup_zip hcols _ hc, getElem?_values_projectedRow params hexplicit row] at hget
      rw [← hget]
      rfl

/-- Items with distinct names, none of them hidden, are read at their own positions. -/
theorem valueAt_of_nodup {params : List Value} {projection : List SelectItem}
    (hapart : (projection.map itemName).Nodup) (hvisible : "_rowid_" ∉ projection.map itemName)
    {i : Nat} {item : SelectItem} (hitem : projection[i]? = some item) (row : Row) :
    valueAt params projection i row = some (item.value params row) := by
  have hnames : visibleNames projection = projection.map itemName := by
    have hfirsts : Distinct.firsts id [] (projection.map itemName) = projection.map itemName :=
      Distinct.firsts_eq_self_iff.mpr (by rwa [List.map_id])
    rw [visibleNames, hfirsts, List.erase_of_not_mem hvisible]
  have hmem : item ∈ projection := List.mem_of_getElem? hitem
  have hlast : lastNamed projection (itemName item) = some item := by
    rw [lastNamed]
    cases hfind : projection.reverse.find? fun x => itemName x = itemName item with
    | none =>
        have hnone := List.find?_eq_none.mp hfind item (List.mem_reverse.mpr hmem)
        exact absurd (decide_eq_true rfl) hnone
    | some other =>
        have hother : other ∈ projection := List.mem_reverse.mp (List.mem_of_find?_eq_some hfind)
        have hname : itemName other = itemName item := by simpa using List.find?_some hfind
        rw [List.inj_on_of_nodup_map hapart hother hmem hname]
  rw [valueAt, hnames, List.getElem?_map, hitem, Option.map_some, Option.bind_some, hlast,
    Option.map_some]

/-! ### Rows under consecutive rowids -/

section Numbered

variable {α : Type}

def numbered : RowId → List α → List (RowId × α)
  | _, [] => []
  | next, a :: l => (next, a) :: numbered (next + 1) l

omit [Externals]

theorem map_snd_numbered (next : RowId) (l : List α) : (numbered next l).map Prod.snd = l := by
  induction l generalizing next with
  | nil => rfl
  | cons a l ih => rw [numbered, List.map_cons, ih]

theorem numbered_map {β : Type} (f : α → β) (next : RowId) (l : List α) :
    numbered next (l.map f) = (numbered next l).map fun d => (d.1, f d.2) := by
  induction l generalizing next with
  | nil => rfl
  | cons a l ih => rw [List.map_cons, numbered, numbered, List.map_cons, ih]

theorem le_of_mem_numbered {next : RowId} {l : List α} (hroom : next.toNat + l.length < 2 ^ 64)
    {d : RowId × α} (hd : d ∈ numbered next l) : next ≤ d.1 := by
  induction l generalizing next with
  | nil => exact absurd hd List.not_mem_nil
  | cons a l ih =>
      rw [List.length_cons] at hroom
      have hnext : (next + 1).toNat = next.toNat + 1 := toNat_succ (by omega)
      rcases List.mem_cons.mp hd with rfl | hd
      · exact UInt64.le_refl _
      · have hle := UInt64.le_iff_toNat_le.mp (ih (by omega) hd)
        exact UInt64.le_iff_toNat_le.mpr (by omega)

theorem not_mem_numbered_succ {next : RowId} {l : List α}
    (hroom : next.toNat + 1 + l.length < 2 ^ 64) : next ∉ (numbered (next + 1) l).map Prod.fst := by
  intro hmem
  obtain ⟨d, hd, heq⟩ := List.mem_map.mp hmem
  have hnext : (next + 1).toNat = next.toNat + 1 := toNat_succ (by omega)
  have hle := UInt64.le_iff_toNat_le.mp (le_of_mem_numbered (by omega) hd)
  rw [heq] at hle
  omega

theorem nodup_numbered {next : RowId} {l : List α} (hroom : next.toNat + l.length < 2 ^ 64) :
    ((numbered next l).map Prod.fst).Nodup := by
  induction l generalizing next with
  | nil => exact List.nodup_nil
  | cons a l ih =>
      rw [List.length_cons] at hroom
      have hnext : (next + 1).toNat = next.toNat + 1 := toNat_succ (by omega)
      rw [numbered, List.map_cons, List.nodup_cons]
      exact ⟨not_mem_numbered_succ (by omega), ih (by omega)⟩

end Numbered

section Run

variable {dbId : UInt32} {txId : Option UInt32} {table : String} {fire : Fire}
  {schema : TableSchema} {w w' : World}

/-- The rows are stored under the rowids from the counter on. -/
theorem foldlM_insertRow_rows (hfire : TableQuiet dbId table fire)
    (hno : w.kvs.getTriggers dbId table = []) (hstore : w.kvs.hasStore dbId table = true)
    {rows : List Row} {next : RowId} (hnext : w.kvs.rowidCounter dbId table = next)
    (hroom : next.toNat + rows.length < 2 ^ 64) {affected n : UInt64}
    (hok : exec (rows.foldlM (insertRow fire dbId table schema txId) affected) w = (.ok n, w')) :
    n = affected + .ofNat rows.length ∧ ∀ rowid, w'.kvs.row ⟨dbId, table, rowid⟩ =
      ((numbered next rows).lookup rowid).elim (w.kvs.row ⟨dbId, table, rowid⟩) fun row =>
        some (withDefaults schema rowid row) := by
  induction rows generalizing w affected next with
  | nil =>
      obtain ⟨hn, rfl⟩ := Prod.mk.inj hok
      rw [← Except.ok.inj hn]
      exact ⟨(UInt64.add_zero affected).symm, fun _ => rfl⟩
  | cons row rows ih =>
      rw [List.length_cons] at hroom
      rw [List.foldlM_cons] at hok
      obtain ⟨m, w', hfirst, hok⟩ := exec_bind_eq_ok_iff.mp hok
      obtain ⟨rfl, rfl⟩ := insertRow_ok hfire hno hnext hfirst
      let w₁ := (w.draw dbId table).store txId ⟨dbId, table, next⟩ none
        (some (withDefaults schema next row))
      have hnext₁ : w₁.kvs.rowidCounter dbId table = next + 1 := by
        rw [rowidCounter_store, rowidCounter_draw, if_pos ⟨rfl, rfl⟩, hnext]
      have hsucc : (next + 1).toNat = next.toNat + 1 := toNat_succ (by omega)
      have hno₁ : w₁.kvs.getTriggers dbId table = [] := (getTriggers_store ..).trans hno
      have hdrawn : (w.draw dbId table).kvs.hasStore dbId table = true := hstore
      have hstore₁ : w₁.kvs.hasStore dbId table = true := by rwa [store_hasStore]
      obtain ⟨hn, hrows⟩ := ih hno₁ hstore₁ hnext₁ (by omega) hok
      constructor
      · calc n = affected + 1 + .ofNat rows.length := hn
          _ = affected + .ofNat (row :: rows).length := counted_cons ..
      · intro rowid
        have hrow₁ : w₁.kvs.row ⟨dbId, table, rowid⟩ =
            if rowid = next then some (withDefaults schema next row)
            else w.kvs.row ⟨dbId, table, rowid⟩ := by
          rw [store_row _ _ _ _ hdrawn]
          exact if_congr (by simp) rfl rfl
        rw [hrows rowid, numbered, IndexMap.lookup_cons_ite, hrow₁]
        split_ifs with hrowid
        · subst hrowid
          have hlater : (numbered (rowid + 1) rows).lookup rowid = none :=
            lookup_eq_none_of_not_mem (not_mem_numbered_succ (by omega))
          rw [hlater]
          rfl
        · rfl

end Run

/-! ### One row for each source row -/

/-- Under the rowid there is a row with the value of each item in the column at its position. -/
def HoldsItems (s : KvsState) (dbId : UInt32) (table : String) (params : List Value)
    (cols : List String) (projection : List SelectItem) (rowid : RowId) (source : Row) : Prop :=
  ∃ row, s.row ⟨dbId, table, rowid⟩ = some row ∧
    ∀ (i : Nat) c (item : SelectItem), cols[i]? = some c → projection[i]? = some item →
      row.get c = some (item.value params source)

/-- The table gains one row for each source row, under a rowid that was free, all of them are
counted, and no other row changes. -/
structure GainsRows (w w' : World) (dbId : UInt32) (table : String) (params : List Value)
    (cols : List String) (projection : List SelectItem) (sources : List Row)
    (result : QueryResult) : Prop where
  affected : result = .affected (.ofNat sources.length)
  gained : ∃ rowids : List RowId, rowids.Nodup ∧
    (∀ rowid ∈ rowids, w.kvs.row ⟨dbId, table, rowid⟩ = none) ∧
    (∀ rowid, rowid ∉ rowids → w'.kvs.row ⟨dbId, table, rowid⟩ = w.kvs.row ⟨dbId, table, rowid⟩) ∧
    List.Forall₂ (HoldsItems w'.kvs dbId table params cols projection) rowids sources

/-- What the statement puts into each column is the value of the item at its position. -/
def ReadsItems (params : List Value) (schema : TableSchema) (cols : List String)
    (projection : List SelectItem) (draw : RowId × Option Row) (source : Row) : Prop :=
  ∀ (i : Nat) c (item : SelectItem), cols[i]? = some c → projection[i]? = some item →
    insertedValue params schema projection i c draw.1 draw.2 = some (item.value params source)

section Gains

variable {dbId : UInt32} {table : String} {params : List Value} {schema : TableSchema}
  {cols : List String} {projection : List SelectItem} {w w' : World}
  {draws : List (RowId × Option Row)} {sources : List Row} {result : QueryResult}
  (hcols : cols.Nodup) (hexplicit : isPureOrMixedWildcard projection = false)
  (hnodup : (draws.map Prod.fst).Nodup)
  (hrows : ∀ rowid, w'.kvs.row ⟨dbId, table, rowid⟩ =
    (draws.lookup rowid).elim (w.kvs.row ⟨dbId, table, rowid⟩) fun source =>
      some (insertedRow params schema cols projection rowid source))
include hcols hexplicit hnodup hrows

theorem holdsItems_iff {draw : RowId × Option Row} (hdraw : draw ∈ draws) (source : Row) :
    HoldsItems w'.kvs dbId table params cols projection draw.1 source ↔
      ReadsItems params schema cols projection draw source := by
  have hlookup : draws.lookup draw.1 = some draw.2 :=
    (IndexMap.mem_entries_iff_get ⟨draws, hnodup⟩ draw.1 draw.2).mp hdraw
  have hrow := hrows draw.1
  rw [hlookup, Option.elim_some] at hrow
  constructor
  · rintro ⟨row, hstored, hvalues⟩ i c item hc hitem
    obtain rfl := Option.some.inj (hrow.symm.trans hstored)
    rw [← get_insertedRow hcols hexplicit draw.1 draw.2 hc]
    exact hvalues i c item hc hitem
  · intro hreads
    refine ⟨_, hrow, fun i c item hc hitem => ?_⟩
    rw [get_insertedRow hcols hexplicit draw.1 draw.2 hc]
    exact hreads i c item hc hitem

theorem gainsRows_iff (hfree : ∀ draw ∈ draws, w.kvs.row ⟨dbId, table, draw.1⟩ = none)
    (hresult : result = .affected (.ofNat draws.length)) :
    GainsRows w w' dbId table params cols projection sources result ↔
      ∃ order, order.Perm draws ∧
        List.Forall₂ (ReadsItems params schema cols projection) order sources := by
  constructor
  · rintro ⟨-, rowids, hrowids, hnew, hrest, hholds⟩
    have hstored : ∀ rowid ∈ rowids, (w'.kvs.row ⟨dbId, table, rowid⟩).isSome = true := by
      have hboth : List.Forall₂ (fun rowid source =>
          (w'.kvs.row ⟨dbId, table, rowid⟩).isSome = true ∧
            HoldsItems w'.kvs dbId table params cols projection rowid source) rowids sources :=
        hholds.imp fun rowid source h => ⟨by rw [h.choose_spec.1]; rfl, h⟩
      exact ((List.forall₂_and_left rowids sources).mp hboth).1
    -- the rowids are told by what was free before and is taken now
    have hsame : ∀ rowid, rowid ∈ rowids ↔ rowid ∈ draws.map Prod.fst := by
      intro rowid
      constructor
      · intro hmem
        by_contra hnot
        have hrow := hstored rowid hmem
        rw [hrows, lookup_eq_none_of_not_mem hnot, Option.elim_none, hnew rowid hmem] at hrow
        exact nomatch hrow
      · intro hmem
        obtain ⟨draw, hdraw, rfl⟩ := List.mem_map.mp hmem
        have hlookup : draws.lookup draw.1 = some draw.2 :=
          (IndexMap.mem_entries_iff_get ⟨draws, hnodup⟩ draw.1 draw.2).mp hdraw
        by_contra hnot
        have hrow := hrest draw.1 hnot
        rw [hrows, hlookup, Option.elim_some, hfree draw hdraw] at hrow
        exact nomatch hrow
    have hperm : rowids.Perm (draws.map Prod.fst) :=
      (List.perm_ext_iff_of_nodup hrowids hnodup).mpr hsame
    have hpairs : List.Forall₂ (fun (rowid : RowId) (draw : RowId × Option Row) => rowid = draw.1)
        (draws.map Prod.fst) draws :=
      List.forall₂_map_left_iff.mpr (List.forall₂_same.mpr fun _ _ => rfl)
    obtain ⟨order, horder, hdraws⟩ := List.perm_comp_forall₂ hperm hpairs
    have heq : rowids = order.map Prod.fst := by
      rw [← List.forall₂_eq_eq_eq]
      exact List.forall₂_map_right_iff.mpr horder
    refine ⟨order, hdraws, ?_⟩
    rw [heq, List.forall₂_map_left_iff] at hholds
    have hmem : ∀ draw ∈ order, draw ∈ draws := fun draw hdraw => hdraws.subset hdraw
    refine (List.forall₂_and_left order sources).mpr ⟨hmem, hholds⟩ |>.imp ?_
    rintro draw source ⟨hdraw, hholds⟩
    exact (holdsItems_iff hcols hexplicit hnodup hrows hdraw source).mp hholds
  · rintro ⟨order, hdraws, hreads⟩
    refine ⟨?_, order.map Prod.fst, ?_, ?_, ?_, ?_⟩
    · rw [hresult, ← hdraws.length_eq, hreads.length_eq]
    · exact (hdraws.map Prod.fst).nodup_iff.mpr hnodup
    · intro rowid hrowid
      obtain ⟨draw, hdraw, rfl⟩ := List.mem_map.mp hrowid
      exact hfree draw (hdraws.subset hdraw)
    · intro rowid hrowid
      have hnone : draws.lookup rowid = none := lookup_eq_none_of_not_mem fun hmem =>
        hrowid ((hdraws.map Prod.fst).mem_iff.mpr hmem)
      rw [hrows, hnone]
      rfl
    · rw [List.forall₂_map_left_iff]
      have hmem : ∀ draw ∈ order, draw ∈ draws := fun draw hdraw => hdraws.subset hdraw
      refine (List.forall₂_and_left order sources).mpr ⟨hmem, hreads⟩ |>.imp ?_
      rintro draw source ⟨hdraw, hreads⟩
      exact (holdsItems_iff hcols hexplicit hnodup hrows hdraw source).mpr hreads

end Gains

/-! ### The statement -/

/-- `SELECT projection FROM relation WHERE selection`. -/
def sourceSelect (projection : List SelectItem) (selection : Option Expr) (relation : TableFactor) :
    Select :=
  ⟨false, projection, [⟨relation, []⟩], selection, .expressions []⟩

/-- The rows that the statement reads: those selected, or nothing, once, where there are none. -/
def readRows (selected : List Row) : List (Option Row) :=
  if selected.isEmpty then [none] else selected.map some

section Statement

variable (state : KvsState) (dbId : UInt32) (params : List Value) {projection : List SelectItem}
  (selection : Option Expr) (relation : TableFactor) (fuel : Nat)
  (hexplicit : isPureOrMixedWildcard projection = false)
include hexplicit

omit hexplicit in
theorem whereRows_sublist (rows : List Row) :
    (whereRows state dbId params selection rows).Sublist rows := by
  cases selection with
  | none => exact .refl rows
  | some whereExpr => exact List.filter_sublist

theorem executeSelect_source : (executeSelect state dbId (fuel + 1)
    (plainSelect projection selection [⟨relation, []⟩]) params).map QueryResult.rows =
      (fromRows state dbId params fuel (sourceSelect projection selection relation)).map fun rows =>
        (whereRows state dbId params selection rows).map (projectedRow params projection) := by
  have hbody : (plainSelect projection selection [⟨relation, []⟩]).body =
      .select (sourceSelect projection selection relation) := rfl
  rw [executeSelect_rows state dbId params hbody fuel]
  refine congrArg (Except.map · _) (funext fun rows => ?_)
  change (applyProjection (whereRows state dbId params selection rows) projection params).map
    (fun row => row.erase "_rowid_") = _
  rw [applyProjection_eq hexplicit, List.map_map]
  rfl

theorem candidateRows_select (schema : TableSchema) {columns : List Ident} (hne : columns ≠ []) :
    candidateRows state (fuel + 1) dbId schema columns
        (some (plainSelect projection selection [⟨relation, []⟩])) params =
      (fromRows state dbId params fuel (sourceSelect projection selection relation)).map fun rows =>
        (readRows (whereRows state dbId params selection rows)).map fun source =>
          source.elim ∅ fun row =>
            selectedRow (columns.map Ident.value) (projectedRow params projection row) := by
  have hrows := executeSelect_source state dbId params selection relation fuel hexplicit
  have hcolumns : columns.isEmpty = false := by simpa using hne
  simp only [candidateRows, hcolumns, Bool.false_eq_true, if_false]
  change (do
    let inner ← executeSelect state dbId (fuel + 1)
      (plainSelect projection selection [⟨relation, []⟩]) params
    let rows ← Except.ok (inner.rows.map (selectedRow (columns.map Ident.value)))
    return if rows.isEmpty then [∅] else rows) = _
  cases hselect : executeSelect state dbId (fuel + 1)
      (plainSelect projection selection [⟨relation, []⟩]) params with
  | error e =>
      rw [hselect] at hrows
      cases hfrom : fromRows state dbId params fuel (sourceSelect projection selection relation) with
      | error e' =>
          rw [hfrom] at hrows
          exact congrArg Except.error (Except.error.inj hrows)
      | ok rows =>
          rw [hfrom] at hrows
          cases hrows
  | ok inner =>
      rw [hselect] at hrows
      cases hfrom : fromRows state dbId params fuel (sourceSelect projection selection relation) with
      | error e' =>
          rw [hfrom] at hrows
          cases hrows
      | ok rows =>
          rw [hfrom] at hrows
          have hinner : inner.rows = (whereRows state dbId params selection rows).map
              (projectedRow params projection) := Except.ok.inj hrows
          refine congrArg Except.ok ?_
          rw [hinner]
          simp only
          cases whereRows state dbId params selection rows with
          | nil => rfl
          | cons row rows =>
              simp only [readRows, List.map_cons, List.isEmpty_cons, Bool.false_eq_true, if_false,
                List.map_map]
              rfl

end Statement

variable {dbId : UInt32} {table : String} {txId : Option UInt32} {params : List Value}
  {projection : List SelectItem} {selection : Option Expr} {relation : TableFactor}

/-- Items with distinct names are read at their own positions of the rows selected. -/
theorem readsItems_of_nodup {schema : TableSchema} {cols : List String} {next : RowId}
    (hapart : (projection.map itemName).Nodup) (hvisible : "_rowid_" ∉ projection.map itemName)
    {selected : List Row} (hne : selected ≠ []) :
    List.Forall₂ (ReadsItems params schema cols projection) (numbered next (readRows selected))
      selected := by
  have hread : readRows selected = selected.map some := if_neg (by simpa using hne)
  rw [hread]
  clear hread hne
  induction selected generalizing next with
  | nil => exact .nil
  | cons row selected ih =>
      refine .cons (fun i c item _ hitem => ?_) ih
      rw [insertedValue, Option.bind_some, valueAt_of_nodup hapart hvisible hitem, Option.some_or]

/-- INSERT … SELECT stores one row for each row of the source that matches, with the value of each
item in the column at its position, just when the rows it reads can be paired with those rows so
that what it puts into each column is that value. Where there are matching rows, it is enough that
the names of the items are distinct and that the SELECT finds these rows. -/
theorem insert_select_iff {fuel : Nat} {columns : List Ident} {w w' : World} {result : QueryResult}
    (hno : w.kvs.getTriggers dbId table = [])
    (hfree : ∀ rowid, w.kvs.rowidCounter dbId table ≤ rowid →
      w.kvs.row ⟨dbId, table, rowid⟩ = none)
    (hexplicit : isPureOrMixedWildcard projection = false)
    (hcolumns : (columns.map Ident.value).Nodup) (hlength : columns.length = projection.length)
    {candidates all : List Row}
    (hcandidates : fromRows w.kvs dbId params fuel (sourceSelect projection selection relation) =
      .ok candidates)
    (hall : fromRows w.kvs dbId params fuel (sourceSelect projection none relation) = .ok all)
    (hroom : (w.kvs.rowidCounter dbId table).toNat + candidates.length + 1 < 2 ^ 64)
    (hok : exec (executeSingleStatement (fuel + 2) dbId (.insert table columns
      (some (plainSelect projection selection [⟨relation, []⟩]))) params txId) w =
        (.ok result, w')) :
    let selected := whereRows w.kvs dbId params selection candidates
    let matching := whereRows w.kvs dbId params selection all
    let cols := columns.map Ident.value
    ∃ schema, w.kvs.getSchema dbId table = some schema ∧
      (GainsRows w w' dbId table params cols projection matching result ↔ ∃ order,
        order.Perm (numbered (w.kvs.rowidCounter dbId table) (readRows selected)) ∧
          List.Forall₂ (ReadsItems params schema cols projection) order matching) ∧
      (matching ≠ [] → selected.Perm matching → (projection.map itemName).Nodup →
        "_rowid_" ∉ projection.map itemName →
          GainsRows w w' dbId table params cols projection matching result) := by
  intro selected matching cols
  have hne : columns ≠ [] := by
    rintro rfl
    rw [List.length_nil, eq_comm, List.length_eq_zero_iff] at hlength
    rw [hlength] at hexplicit
    exact nomatch hexplicit
  have hrun : exec (executeInsert
      (fireTriggers (fun s => executeSingleStatement (fuel + 1) dbId s [] txId) dbId) (fuel + 1) dbId
        table columns (some (plainSelect projection selection [⟨relation, []⟩])) params txId) w =
      (.ok result, w') := hok
  have hfire : TableQuiet dbId table (fireTriggers
      (fun s => executeSingleStatement (fuel + 1) dbId s [] txId) dbId) := fireTriggers_tableQuiet _
  rw [executeInsert, exec_bind_ok (exec_read World.kvs w)] at hrun
  obtain ⟨schema, w₁, hraise, hrun⟩ := exec_bind_eq_ok_iff.mp hrun
  obtain ⟨hschema, rfl⟩ := orRaise_ok hraise
  obtain ⟨store, w₂, hraise, hrun⟩ := exec_bind_eq_ok_iff.mp hrun
  obtain ⟨hstore, rfl⟩ := orRaise_ok hraise
  let inserted : Option Row → Row := fun source =>
    source.elim ∅ fun row => selectedRow cols (projectedRow params projection row)
  have hrows : candidateRows w₂.kvs (fuel + 1) dbId schema columns
      (some (plainSelect projection selection [⟨relation, []⟩])) params =
        .ok ((readRows selected).map inserted) := by
    rw [candidateRows_select w₂.kvs dbId params selection relation fuel hexplicit schema hne,
      hcandidates]
    rfl
  rw [hrows, exec_bind_ok (exec_ofExcept _ w₂)] at hrun
  obtain ⟨n, w₃, hfold, hrun⟩ := exec_bind_eq_ok_iff.mp hrun
  obtain ⟨hresult, rfl⟩ := Prod.mk.inj hrun
  have hsize : (readRows selected).length ≤ candidates.length + 1 := by
    have hselected : selected.length ≤ candidates.length :=
      (whereRows_sublist w₂.kvs dbId params selection candidates).length_le
    rw [readRows]
    split_ifs
    · exact Nat.le_add_left 1 _
    · rw [List.length_map]
      exact Nat.le_succ_of_le hselected
  have hstored : w₂.kvs.hasStore dbId table = true := by
    rw [KvsState.hasStore, hstore]
    rfl
  have hlist : ((readRows selected).map inserted).length = (readRows selected).length :=
    List.length_map _
  obtain ⟨hn, hstores⟩ := foldlM_insertRow_rows hfire hno hstored rfl (by omega) hfold
  refine ⟨schema, hschema, ?_⟩
  let draws := numbered (w₂.kvs.rowidCounter dbId table) (readRows selected)
  have hnodup : (draws.map Prod.fst).Nodup := nodup_numbered (by omega)
  have hfrees : ∀ draw ∈ draws, w₂.kvs.row ⟨dbId, table, draw.1⟩ = none := fun draw hdraw =>
    hfree draw.1 (le_of_mem_numbered (by omega) hdraw)
  have hcount : result = .affected (.ofNat draws.length) := by
    have hdraws : draws.length = (readRows selected).length := by
      rw [← List.length_map Prod.snd, map_snd_numbered]
    rw [← Except.ok.inj hresult, hn, UInt64.zero_add, hlist, hdraws]
  have hafter : ∀ rowid, w₃.kvs.row ⟨dbId, table, rowid⟩ =
      (draws.lookup rowid).elim (w₂.kvs.row ⟨dbId, table, rowid⟩) fun source =>
        some (insertedRow params schema cols projection rowid source) := by
    intro rowid
    rw [hstores rowid, numbered_map, IndexMap.lookup_map _ fun _ => inserted]
    change ((draws.lookup rowid).map inserted).elim _ _ = _
    cases draws.lookup rowid <;> rfl
  have hiff : GainsRows w₂ w₃ dbId table params cols projection matching result ↔ ∃ order,
      order.Perm draws ∧ List.Forall₂ (ReadsItems params schema cols projection) order matching :=
    gainsRows_iff hcolumns hexplicit hnodup hafter hfrees hcount
  refine ⟨hiff, fun hmatching hperm hapart hvisible => hiff.mpr ?_⟩
  have hselected : selected ≠ [] := fun hnil => hmatching (hnil ▸ hperm).nil_eq.symm
  have hreads : List.Forall₂ (flip (ReadsItems params schema cols projection)) selected draws :=
    (readsItems_of_nodup hapart hvisible hselected).flip
  obtain ⟨order, horder, hdraws⟩ := List.perm_comp_forall₂ hperm.symm hreads
  exact ⟨order, hdraws, horder.flip⟩

end

namespace Sample

/-- A table `t`, filled by calls, and an empty table `u` with two columns. -/
def besideEmpty (calls : List Call) : World :=
  letI := quoting
  ⟨after (call (create []) none :: calls ++
    [call (.createTable "u" [⟨name "a", .int, []⟩, ⟨name "b", .int, []⟩] [] false) none]), []⟩

/-- `INSERT INTO u (col, …) SELECT item, … FROM t`. -/
def insertSelect (cols : List String) (projection : List SelectItem) : Statement :=
  .insert "u" (cols.map name) (some (plainSelect projection none [⟨.table "t" none, []⟩]))

end Sample

theorem insert_select_row :
    letI := Sample.quoting
    let w := Sample.besideEmpty [Sample.call (Sample.insert [.number "1"]) none]
    let projection : List SelectItem := [.unnamedExpr (Sample.identifier "a")]
    let run := exec (executeSingleStatement 3 0 (Sample.insertSelect ["a"] projection) [] none) w
    ∃ result, run.1 = .ok result ∧ GainsRows w run.2 0 "u" [] ["a"] projection
      [.ofList [("a", .integer 1), ("_rowid_", .integer 1)]] result := by
  let _ := Sample.quoting
  intro w projection run
  have hok : run.1 = .ok (.affected 1) := by decide
  let rows : List Row := [.ofList [("a", .integer 1), ("_rowid_", .integer 1)]]
  have hrows : fromRows w.kvs 0 [] 1 (sourceSelect projection none (.table "t" none)) =
      .ok rows := by decide
  have hfree : ∀ rowid, w.kvs.rowidCounter 0 "u" ≤ rowid → w.kvs.row ⟨0, "u", rowid⟩ = none := by
    have hstore : w.kvs.getTableStore 0 "u" = some ∅ := by decide
    intro rowid _
    rw [KvsState.row_of_store hstore]
    rfl
  obtain ⟨schema, -, -, henough⟩ := insert_select_iff (by decide) hfree (by decide) (by decide) rfl
    hrows hrows (by decide) (Prod.ext hok rfl)
  exact ⟨_, hok, henough (List.cons_ne_nil _ _) (.refl _) (by decide) (by decide)⟩

/-- From an empty table a row of defaults is inserted, and of `SELECT a, a` the second value is not
stored. -/
theorem insert_select_other_rows :
    letI := Sample.quoting
    let projection : List SelectItem := [.unnamedExpr (Sample.identifier "a")]
    let empty := Sample.besideEmpty []
    let run := exec (executeSingleStatement 3 0 (Sample.insertSelect ["a"] projection) [] none)
      empty
    let filled := Sample.besideEmpty [Sample.call (Sample.insert [.number "1"]) none]
    let twice := exec (executeSingleStatement 3 0
      (Sample.insertSelect ["a", "b"] (projection ++ projection)) [] none) filled
    (fromRows empty.kvs 0 [] 1 (sourceSelect projection none (.table "t" none)) = .ok [] ∧
      run.1 = .ok (.affected 1) ∧
      ¬GainsRows empty run.2 0 "u" [] ["a"] projection [] (.affected 1)) ∧
    twice.1 = .ok (.affected 1) ∧
      twice.2.kvs.row ⟨0, "u", 1⟩ = some (.ofList [("a", .integer 1), ("b", .null)]) := by
  let _ := Sample.quoting
  intro projection empty run filled twice
  refine ⟨⟨by decide, by decide, fun hgains => ?_⟩, by decide, by decide⟩
  exact absurd hgains.affected (by decide)

end Skvs
