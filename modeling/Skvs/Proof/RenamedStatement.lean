import Skvs.Lib.Simulation
import Skvs.Proof.Quiet
import Skvs.Proof.RenamedChange

/-!
# Statements with a column renamed

INSERT, UPDATE and DELETE on the renamed table, with the new name in place of the old one, do what the
statements as they were do on the table as it was: the same rowids are drawn, the same rows are
selected, the same checks are passed.
-/

namespace Skvs

/-! ### Statements -/

section Rename

variable (ρ : ColumnRenaming) (x : String)

def Assignment.rename (assignment : Assignment) : Assignment :=
  ⟨ρ.qualified x assignment.id, assignment.value.rename (ρ.ref x)⟩

/-- The new name in a VALUES list; a SELECT is rewritten by `select`. -/
def Query.renameSource (select : Query → Query) (q : Query) : Query :=
  match q.body with
  | .values rows => { q with body := .values (rows.map fun row => row.map (Expr.rename (ρ.ref x))) }
  | .select _ => select q
  | .other => q

/-- The statement with the new name in place of the old one. -/
def Statement.rename (select : Query → Query) (stmt : Statement) : Statement :=
  match stmt with
  | .insert table columns source =>
    .insert table (columns.map (ρ.ident table)) (source.map (Query.renameSource ρ table select))
  | .update table assignments selection =>
    .update table (assignments.map (Assignment.rename ρ table.relation.name))
      (selection.map (Expr.rename (ρ.ref table.relation.name)))
  | .delete tables from_ selection =>
    .delete tables from_ (match deleteTarget tables from_ with
      | some table => selection.map (Expr.rename (ρ.ref table))
      | none => selection)
  | stmt => stmt

end Rename

/-! ### Statements in which the new name can take the place of the old one -/

section Clear

variable [Externals] (ρ : ColumnRenaming)

/-- An `fts_match` of the clause takes no name of the column for one of a table, and the rowid that
it looks up stays in its place. -/
def ClearWhere (rows : Row → Prop) (e : Expr) : Prop :=
  (∀ r ∈ e.references, ρ.Clear rows r) ∧ ∀ arg ∈ e.matchedTables,
    (ρ.old.value ≠ "_rowid_" ∧ ρ.new.value ≠ "_rowid_") ∧
      ∀ id, arg = some (.unnamed (.expr (.identifier id))) → id.value ≠ ρ.old.value

def ClearAssignment (rows : Row → Prop) (assignment : Assignment) : Prop :=
  (∃ p, assignment.id.getLast? = some p ∧ p.value ≠ ρ.new.value) ∧
    ∀ r ∈ assignment.value.references, ρ.Clear rows r

def Fail.isErr : Fail → Bool
  | .err _ => true
  | .panic | .outOfFuel => false

/-- Both failures are errors that are returned, or neither is. -/
def SameKind (e e' : Fail) : Prop := e'.isErr = e.isErr

/-- The SELECT of an INSERT gives the same values. -/
def SameSource (s s' : KvsState) (dbId : UInt32) (fuel : Nat) (params : List Value)
    (q q' : Query) : Prop :=
  (∃ sel, q'.body = .select sel) ∧
    Except.Rel SameKind (fun r r' => r'.rows.map IndexMap.values = r.rows.map IndexMap.values)
      (executeSelect s dbId fuel q params) (executeSelect s' dbId fuel q' params)

/-- A row of the table. -/
def KvsState.holdsRow (s : KvsState) (dbId : UInt32) (table : String) (row : Row) : Prop :=
  ∃ rowid, s.row ⟨dbId, table, rowid⟩ = some row

/-- The new name can take the place of the old one in the statement, which does not use it yet. -/
def Statement.ClearNames (select : Query → Query) (s s' : KvsState) (dbId : UInt32) (fuel : Nat)
    (params : List Value) : Statement → Prop
  | .insert table columns source =>
    (table = ρ.table → ∀ id ∈ columns, id.value ≠ ρ.new.value) ∧
      ∀ q sel, source = some q → q.body = .select sel →
        SameSource s s' dbId fuel params q (select q)
  | .update table assignments selection => table.relation.name = ρ.table →
    (∀ assignment ∈ assignments, ClearAssignment ρ (s.holdsRow dbId ρ.table) assignment) ∧
      ∀ e ∈ selection, ClearWhere ρ (s.holdsRow dbId ρ.table) e
  | .delete tables from_ selection => deleteTarget tables from_ = some ρ.table →
    ∀ e ∈ selection, ClearWhere ρ (s.holdsRow dbId ρ.table) e
  | _ => True

/-- The table of the statement has no triggers, and the names are clear. -/
structure Statement.Clear (select : Query → Query) (s s' : KvsState) (dbId : UInt32) (fuel : Nat)
    (params : List Value) (stmt : Statement) : Prop where
  noTriggers : ∀ x ∈ stmt.target, s.getTriggers dbId x = []
  names : stmt.ClearNames ρ select s s' dbId fuel params

end Clear

/-! ### Worlds -/

variable [Externals]

/-- Hash maps are iterated in an order that depends on their keys only. -/
def OrderedByKeys : Prop :=
  ∀ {α β : Type} (f : α → β) (l : List (RowId × α)),
    hashOrder (l.map (Prod.map id f)) = (hashOrder l).map (Prod.map id f)

/-- The states are alike, and the journal of the transaction `own` puts back rows that are. -/
structure RenamedUnder (ρ : ColumnRenaming) (dbId : UInt32) (own : Option UInt32) (w w' : World) :
    Prop where
  kvs : Renamed ρ dbId w.kvs w'.kvs
  journal : ∀ id, own = some id →
    Option.Rel (fun e e' => (e.dbId = dbId ∧ e'.dbId = dbId) ∧
        List.Forall₂ (UndoRenamed ρ) e.journal e'.journal)
      (w.kvs.txns.active.get id) (w'.kvs.txns.active.get id)

variable {ρ : ColumnRenaming} {dbId : UInt32} {own txId : Option UInt32} {w w' : World} {x : String}

theorem RenamedUnder.store (h : RenamedUnder ρ dbId own w w') (hown : own = none ∨ own = txId)
    (rowid : RowId) {copy copy' after after' : Option Row}
    (hcopy : Option.Rel (RowRenamed ρ x) copy copy')
    (hafter : Option.Rel (RowRenamed ρ x) after after') :
    RenamedUnder ρ dbId own (w.store txId ⟨dbId, x, rowid⟩ copy after)
      (w'.store txId ⟨dbId, x, rowid⟩ copy' after') where
  kvs := (h.kvs.record txId _ _).setSynced rowid hcopy hafter
  journal id hid := by
    rw [(store_sets w txId _ copy after).txns, (store_sets w' txId _ copy' after').txns]
    have htx : txId = some id := by
      rcases hown with rfl | rfl
      · exact nomatch hid
      · exact hid
    subst htx
    have hjournal := h.journal id hid
    simp only [KvsState.record, TxnManager.record, IndexMap.get_modify, if_true]
    generalize w.kvs.txns.active.get id = e at hjournal ⊢
    generalize w'.kvs.txns.active.get id = e' at hjournal ⊢
    cases hjournal with
    | none => exact .none
    | some hentry =>
        exact .some ⟨hentry.1, List.rel_append hentry.2
          (.cons (undoEntry_renamed rowid hcopy hafter) .nil)⟩

/-- Maps with the same keys are iterated in the same order. -/
theorem hashOrder_forall₂ (horder : OrderedByKeys) {α β : Type} {P : α → β → Prop}
    {l : List (RowId × α)} {l' : List (RowId × β)}
    (h : List.Forall₂ (fun e e' => e'.1 = e.1 ∧ P e.2 e'.2) l l') :
    List.Forall₂ (fun e e' => e'.1 = e.1 ∧ P e.2 e'.2) (hashOrder l) (hashOrder l') := by
  obtain ⟨z, rfl, rfl, hz⟩ : ∃ z : List (RowId × α × β), l = z.map (Prod.map id Prod.fst) ∧
      l' = z.map (Prod.map id Prod.snd) ∧ ∀ e ∈ z, P e.2.1 e.2.2 := by
    induction h with
    | nil => exact ⟨[], rfl, rfl, fun e he => nomatch he⟩
    | @cons e e' _ _ hhead _ ih =>
        obtain ⟨z, hl, hl', hz⟩ := ih
        refine ⟨(e.1, e.2, e'.2) :: z, ?_, ?_, List.forall_mem_cons.mpr ⟨hhead.2, hz⟩⟩
        · rw [List.map_cons, ← hl]
          rfl
        · rw [List.map_cons, ← hl', show e' = (e.1, e'.2) from Prod.ext hhead.1 rfl]
          rfl
  rw [horder, horder, List.forall₂_map_left_iff, List.forall₂_map_right_iff, List.forall₂_same]
  exact fun e he => ⟨rfl, hz e ((hashOrder_perm z).mem_iff.mp he)⟩

/-! ### Rows -/

section Rows

variable {row row' : Row}

theorem eval_noRow_rename (params : List Value) (e : Expr) (f : ColumnRef → ColumnRef) :
    eval .noRow params (e.rename f) = eval .noRow params e :=
  eval_rename params e fun r _ => by rw [ColumnRef.lookup_noRow, ColumnRef.lookup_noRow]

theorem valuesRow_renamed (params : List Value) {columns : List String}
    (hcolumns : ∀ c ∈ columns, ρ.Known x c) (es : List Expr) (h : RowRenamed ρ x row row')
    (i : Nat) : RowRenamed ρ x (valuesRow params columns es row i).1
      (valuesRow params (columns.map (ρ.name x)) (es.map (Expr.rename (ρ.ref x))) row' i).1 := by
  induction columns generalizing es row row' i with
  | nil => exact h
  | cons c columns ih =>
      rw [List.forall_mem_cons] at hcolumns
      cases es with
      | nil => exact h
      | cons e es =>
          rw [List.map_cons, List.map_cons, valuesRow, valuesRow, eval_noRow_rename]
          exact ih hcolumns.2 es (h.insert hcolumns.1 _) _

omit [Externals] in
theorem selectedRow_renamed {columns : List String} (hcolumns : ∀ c ∈ columns, ρ.Known x c)
    {srcRow srcRow' : Row} (hvalues : srcRow'.values = srcRow.values) :
    RowRenamed ρ x (selectedRow columns srcRow)
      (selectedRow (columns.map (ρ.name x)) srcRow') := by
  rw [selectedRow, selectedRow, hvalues]
  have hfold : ∀ (values : List Value) {row row' : Row}, RowRenamed ρ x row row' →
      RowRenamed ρ x ((columns.zip values).foldl (fun row cv => row.insert cv.1 cv.2) row)
        (((columns.map (ρ.name x)).zip values).foldl (fun row cv => row.insert cv.1 cv.2) row') := by
    induction columns with
    | nil => exact fun _ _ _ h => h
    | cons c columns ih =>
        rw [List.forall_mem_cons] at hcolumns
        intro values row row' h
        cases values with
        | nil => exact h
        | cons v values => exact ih hcolumns.2 values (h.insert hcolumns.1 v)
  exact hfold _ .empty

omit [Externals] in
theorem selectedRows_renamed {columns : List String} (hcolumns : ∀ c ∈ columns, ρ.Known x c)
    {rows rows' : List Row} (hvalues : rows'.map IndexMap.values = rows.map IndexMap.values) :
    List.Forall₂ (RowRenamed ρ x) (rows.map (selectedRow columns))
      (rows'.map (selectedRow (columns.map (ρ.name x)))) := by
  induction rows generalizing rows' with
  | nil =>
      rw [List.map_eq_nil_iff.mp hvalues]
      exact .nil
  | cons row rows ih =>
      obtain ⟨row', rows', rfl, hhead, htail⟩ := List.map_eq_cons_iff.mp hvalues
      exact .cons (selectedRow_renamed hcolumns hhead) (ih htail)

omit [Externals] in
theorem withDefaults_renamed {schema schema' : TableSchema} (hren : SchemaRenamed ρ x schema schema')
    (rowid : RowId) (h : RowRenamed ρ x row row') :
    RowRenamed ρ x (withDefaults schema rowid row) (withDefaults schema' rowid row') := by
  rw [withDefaults, withDefaults]
  have hcolumns := hren.columns
  generalize schema.columns.entries = es at hcolumns ⊢
  generalize schema'.columns.entries = es' at hcolumns ⊢
  induction hcolumns generalizing row row' with
  | nil => exact h
  | @cons e e' _ _ hhead _ ih =>
      obtain ⟨hknown, hname, hdef⟩ := hhead
      have hdefault : defaultValue e'.2 rowid = defaultValue e.2 rowid := by
        rw [hdef]
        rfl
      rw [List.foldl_cons, List.foldl_cons, hname, hdefault]
      exact ih (h.insertIfNew hknown _)

omit [Externals] in
theorem keys_renamed {schema schema' : TableSchema} (hren : SchemaRenamed ρ x schema schema') :
    schema'.columns.keys = schema.columns.keys.map (ρ.name x) ∧
      ∀ c ∈ schema.columns.keys, ρ.Known x c := by
  have hcolumns := hren.columns
  rw [IndexMap.keys, IndexMap.keys]
  generalize schema.columns.entries = es at hcolumns ⊢
  generalize schema'.columns.entries = es' at hcolumns ⊢
  induction hcolumns with
  | nil => exact ⟨rfl, by simp⟩
  | cons hhead _ ih =>
      rw [List.map_cons, List.map_cons, List.map_cons, ih.1, hhead.2.1, List.forall_mem_cons]
      exact ⟨rfl, hhead.1, ih.2⟩

theorem candidateRows_renamed {s s' : KvsState} {schema schema' : TableSchema}
    (hren : SchemaRenamed ρ x schema schema') {columns : List Ident}
    (hcolumns : x = ρ.table → ∀ id ∈ columns, id.value ≠ ρ.new.value) {source : Option Query}
    {select : Query → Query} {fuel : Nat} {params : List Value}
    (hsource : ∀ q sel, source = some q → q.body = .select sel →
      SameSource s s' dbId fuel params q (select q)) :
    Except.Rel SameKind (List.Forall₂ (RowRenamed ρ x))
      (candidateRows s fuel dbId schema columns source params)
      (candidateRows s' fuel dbId schema' (columns.map (ρ.ident x))
        (source.map (Query.renameSource ρ x select)) params) := by
  obtain ⟨names, hnames, hnames', hknown⟩ : ∃ names,
      (if columns.isEmpty then schema.columns.keys else columns.map Ident.value) = names ∧
      (if (columns.map (ρ.ident x)).isEmpty then schema'.columns.keys
        else (columns.map (ρ.ident x)).map Ident.value) = names.map (ρ.name x) ∧
      ∀ c ∈ names, ρ.Known x c := by
    refine ⟨_, rfl, ?_, ?_⟩
    · rw [List.isEmpty_map]
      split_ifs
      · exact (keys_renamed hren).1
      · rw [List.map_map, List.map_map]
        exact List.map_congr_left fun id _ => ColumnRenaming.value_ident id
    · split_ifs
      · exact (keys_renamed hren).2
      · exact List.forall_mem_map.mpr fun id hid hx => hcolumns hx id hid
  have hfill : ∀ {rows rows' : List Row}, List.Forall₂ (RowRenamed ρ x) rows rows' →
      List.Forall₂ (RowRenamed ρ x) (if rows.isEmpty then [∅] else rows)
        (if rows'.isEmpty then [∅] else rows') := by
    intro rows rows' h
    cases h with
    | nil => exact .cons .empty .nil
    | cons hhead htail => exact .cons hhead htail
  unfold candidateRows
  simp only [hnames, hnames']
  cases source with
  | none => exact .ok (hfill .nil)
  | some q =>
      cases hbody : q.body with
      | values rows =>
          simp only [Option.map_some, Query.renameSource, hbody]
          refine .ok (hfill ?_)
          rw [List.map_map, List.forall₂_map_left_iff, List.forall₂_map_right_iff,
            List.forall₂_same]
          exact fun row _ => valuesRow_renamed params hknown row .empty 0
      | select sel =>
          obtain ⟨⟨sel', hbody'⟩, hrel⟩ := hsource q sel rfl hbody
          simp only [Option.map_some, Query.renameSource, hbody, hbody']
          generalize executeSelect s dbId fuel q params = out at hrel ⊢
          generalize executeSelect s' dbId fuel (select q) params = out' at hrel ⊢
          cases hrel with
          | error hkind => exact .error hkind
          | ok hvalues => exact .ok (hfill (selectedRows_renamed hknown hvalues))
      | other =>
          simp only [Option.map_some, Query.renameSource, hbody]
          exact .error rfl

omit [Externals] in
theorem assignedColumn_rename {assignment : Assignment}
    (hclear : x = ρ.table → ∃ p, assignment.id.getLast? = some p ∧ p.value ≠ ρ.new.value) :
    assignedColumn (assignment.rename ρ x) = ρ.name x (assignedColumn assignment) ∧
      ρ.Known x (assignedColumn assignment) := by
  rw [assignedColumn, assignedColumn, Assignment.rename]
  cases hlast : assignment.id.getLast? with
  | none =>
      have hx : x ≠ ρ.table := fun hx => by
        obtain ⟨p, hp, -⟩ := hclear hx
        exact nomatch hlast.symm.trans hp
      rw [ColumnRenaming.qualified, hlast, ColumnRenaming.name_of_ne fun heq => absurd heq hx]
      simp only [hlast]
      exact ⟨trivial, fun heq => absurd heq hx⟩
  | some p =>
      rw [ColumnRenaming.getLast_qualified hlast]
      refine ⟨ColumnRenaming.value_ident p, fun hx => ?_⟩
      obtain ⟨p', hp', hnew⟩ := hclear hx
      obtain rfl := Option.some.inj (hlast.symm.trans hp')
      exact hnew

theorem applyAssignments_renamed (params : List Value) {oldRow oldRow' : Row} {rows : Row → Prop}
    (hold : RowRenamed ρ x oldRow oldRow') (hrow : rows oldRow) {assignments : List Assignment}
    (hclear : x = ρ.table → ∀ assignment ∈ assignments, ClearAssignment ρ rows assignment)
    (h : RowRenamed ρ x row row') (i : Nat) :
    RowRenamed ρ x (applyAssignments params oldRow assignments row i).1
      (applyAssignments params oldRow' (assignments.map (Assignment.rename ρ x)) row' i).1 := by
  induction assignments generalizing row row' i with
  | nil => exact h
  | cons assignment assignments ih =>
      have hhead : x = ρ.table → ClearAssignment ρ rows assignment := fun hx =>
        hclear hx assignment List.mem_cons_self
      have heval : eval (.withRow oldRow') params (assignment.value.rename (ρ.ref x)) =
          eval (.withRow oldRow) params assignment.value :=
        eval_rename params _ fun r hr => hold.lookup_ref (fun hx => (hhead hx).2 r hr) hrow
      obtain ⟨hcolumn, hknown⟩ := assignedColumn_rename fun hx => (hhead hx).1
      rw [List.map_cons, applyAssignments, applyAssignments, hcolumn]
      simp only [Assignment.rename, heval]
      exact ih (fun hx a ha => hclear hx a (List.mem_cons_of_mem _ ha)) (h.insert hknown _) _

end Rows

end Skvs
