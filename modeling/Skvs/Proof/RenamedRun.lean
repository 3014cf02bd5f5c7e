import Skvs.Proof.ListedIndexes
import Skvs.Proof.RenamedStatement

/-!
# Runs with a column renamed

Statement by statement, a run on the renamed table is accepted and stores rows exactly as the run on
the table does.
-/

namespace Skvs

open Prog

variable [Externals] {ρ : ColumnRenaming} {dbId : UInt32} {own txId : Option UInt32}
  {v v' w w' : World} {x : String}

/-! ### Row by row -/

/-- The states are alike, and the schemas and triggers are those of the start. -/
structure RenamedSince (ρ : ColumnRenaming) (dbId : UInt32) (own : Option UInt32)
    (v v' w w' : World) : Prop where
  under : RenamedUnder ρ dbId own w w'
  schemas : w.kvs.schemas = v.kvs.schemas
  schemas' : w'.kvs.schemas = v'.kvs.schemas
  triggers : w.kvs.triggers = v.kvs.triggers

theorem RenamedSince.getTriggers (h : RenamedSince ρ dbId own v v' w w')
    (hno : v.kvs.getTriggers dbId x = []) :
    w.kvs.getTriggers dbId x = [] ∧ w'.kvs.getTriggers dbId x = [] := by
  rw [KvsState.getTriggers, KvsState.getTriggers, h.under.kvs.triggers, h.triggers]
  exact ⟨hno, hno⟩

theorem RenamedSince.store (h : RenamedSince ρ dbId own v v' w w') (hown : own = none ∨ own = txId)
    (rowid : RowId) {copy copy' after after' : Option Row}
    (hcopy : Option.Rel (RowRenamed ρ x) copy copy')
    (hafter : Option.Rel (RowRenamed ρ x) after after') :
    RenamedSince ρ dbId own v v' (w.store txId ⟨dbId, x, rowid⟩ copy after)
      (w'.store txId ⟨dbId, x, rowid⟩ copy' after') where
  under := h.under.store hown rowid hcopy hafter
  schemas := (store_schemas w txId _ copy after).trans h.schemas
  schemas' := (store_schemas w' txId _ copy' after').trans h.schemas'
  triggers := (store_triggers w txId _ copy after).trans h.triggers

theorem RenamedSince.draw (h : RenamedSince ρ dbId own v v' w w') (x : String) :
    RenamedSince ρ dbId own v v' (w.draw dbId x) (w'.draw dbId x) :=
  ⟨⟨h.under.kvs.getNextRowid x, h.under.journal⟩, h.schemas, h.schemas', h.triggers⟩

omit [Externals] in
theorem simulates_orRaise {α α' : Type} {R : World → World → Prop} {A : α → α' → Prop} {o : Option α}
    {o' : Option α'} (h : Option.Rel A o o') (e e' : SkvsError) (hR : R w w') :
    Simulates SameKind R (fun a a' => A a a' ∧ o = some a ∧ o' = some a') (orRaise o e)
      (orRaise o' e') w w' := by
  cases h with
  | none => exact simulates_fail rfl hR
  | some hA => exact simulates_pure ⟨hA, rfl, rfl⟩ hR

omit [Externals] in
theorem simulates_check {R : World → World → Prop} {r r' : Except SkvsError Unit}
    (h : r' = .ok () ↔ r = .ok ()) (hR : R w w') :
    Simulates SameKind R Eq (check r) (check r') w w' := by
  refine simulates_ofExcept ?_ hR
  cases r with
  | ok =>
      rw [h.mpr rfl]
      exact .ok rfl
  | error e =>
      cases r' with
      | ok => exact nomatch h.mp rfl
      | error e' => exact .error rfl

section Rows

variable (h : RenamedSince ρ dbId own v v' w w') (hown : own = none ∨ own = txId)
  (hno : v.kvs.getTriggers dbId x = []) {fire fire' : Fire} (hfire : TableQuiet dbId x fire)
  (hfire' : TableQuiet dbId x fire')
include h hown hno hfire hfire'

theorem storeBetween_renamed (rowid : RowId) {copy copy' after after' : Option Row}
    (hcopy : Option.Rel (RowRenamed ρ x) copy copy')
    (hafter : Option.Rel (RowRenamed ρ x) after after') (event : TriggerEvent)
    (oldRow oldRow' newRow newRow' : Option Row) (affected : UInt64) :
    Simulates SameKind (RenamedSince ρ dbId own v v') Eq (do
      fire x event .before oldRow newRow
      store txId ⟨dbId, x, rowid⟩ copy after
      fire x event .after oldRow newRow
      return affected) (do
      fire' x event .before oldRow' newRow'
      store txId ⟨dbId, x, rowid⟩ copy' after'
      fire' x event .after oldRow' newRow'
      return affected) w w' := by
  have hquiet : ∀ {w w' : World} (timing : TriggerTiming), RenamedSince ρ dbId own v v' w w' →
      Simulates SameKind (RenamedSince ρ dbId own v v') Eq (fire x event timing oldRow newRow)
        (fire' x event timing oldRow' newRow') w w' := by
    intro w w' timing h
    rw [Simulates, hfire _ _ _ _ _ (h.getTriggers hno).1, hfire' _ _ _ _ _ (h.getTriggers hno).2]
    exact ⟨.ok rfl, h⟩
  refine simulates_bind (hquiet .before h) fun _ _ w₁ w₁' _ h₁ => ?_
  refine simulates_bind (A := Eq) ⟨.ok rfl, h₁.store hown rowid hcopy hafter⟩
    fun _ _ w₂ w₂' _ h₂ => ?_
  exact simulates_bind (hquiet .after h₂) fun _ _ w₃ w₃' _ h₃ => simulates_pure rfl h₃

variable {schema schema' : TableSchema} (hschema : v.kvs.getSchema dbId x = some schema)
  (hren : SchemaRenamed ρ x schema schema')
include hschema hren

/-- A row is checked and stored, in the state that it finds. -/
theorem checkedStore_renamed {row row' : Row} (hrow : RowRenamed ρ x row row') (rowid : RowId)
    {copy copy' : Option Row} (hcopy : Option.Rel (RowRenamed ρ x) copy copy') (event : TriggerEvent)
    (oldRow oldRow' newRow newRow' : Option Row) (affected : UInt64) :
    Simulates SameKind (RenamedSince ρ dbId own v v') Eq (do
      let state ← Prog.read World.kvs
      check (validateConstraints state dbId schema row rowid)
      fire x event .before oldRow newRow
      store txId ⟨dbId, x, rowid⟩ copy (some row)
      fire x event .after oldRow newRow
      return affected) (do
      let state ← Prog.read World.kvs
      check (validateConstraints state dbId schema' row' rowid)
      fire' x event .before oldRow' newRow'
      store txId ⟨dbId, x, rowid⟩ copy' (some row')
      fire' x event .after oldRow' newRow'
      return affected) w w' := by
  refine simulates_bind (A := fun s s' => s = w.kvs ∧ s' = w'.kvs)
    (simulates_read ⟨rfl, rfl⟩ h) fun s s' w₁ w₁' hs h₁ => ?_
  obtain ⟨rfl, rfl⟩ := hs
  have hget : w.kvs.getSchema dbId x = some schema := by
    rw [KvsState.getSchema, h.schemas]
    exact hschema
  refine simulates_bind
    (simulates_check (validateConstraints_renamed h.under.kvs hget hren hrow rowid) h₁)
    fun _ _ w₂ w₂' _ h₂ => ?_
  exact storeBetween_renamed h₂ hown hno hfire hfire' rowid hcopy (.some hrow) _ _ _ _ _ _

theorem insertRow_renamed {row row' : Row} (hrow : RowRenamed ρ x row row') (affected : UInt64) :
    Simulates SameKind (RenamedSince ρ dbId own v v') Eq
      (insertRow fire dbId x schema txId affected row)
      (insertRow fire' dbId x schema' txId affected row') w w' := by
  rw [insertRow_eq, insertRow_eq]
  refine simulates_bind (A := Eq) ⟨.ok (h.under.kvs.counters x).symm, h.draw x⟩
    fun rowid _ w₁ w₁' hrowid h₁ => ?_
  subst hrowid
  exact checkedStore_renamed h₁ hown hno hfire hfire' hschema hren
    (withDefaults_renamed hren rowid hrow) rowid .none _ _ _ _ _ _

theorem updateRow_renamed {oldRow oldRow' : Row} (hold : RowRenamed ρ x oldRow oldRow')
    {rows : Row → Prop} (hrow : rows oldRow) {assignments : List Assignment}
    (hclear : x = ρ.table → ∀ assignment ∈ assignments, ClearAssignment ρ rows assignment)
    (params : List Value) (affected : UInt64) (rowid : RowId) :
    Simulates SameKind (RenamedSince ρ dbId own v v') Eq
      (updateRow fire dbId x schema txId assignments params affected (rowid, oldRow))
      (updateRow fire' dbId x schema' txId (assignments.map (Assignment.rename ρ x)) params affected
        (rowid, oldRow')) w w' := by
  rw [updateRow_eq, updateRow_eq]
  exact checkedStore_renamed h hown hno hfire hfire' hschema hren
    (applyAssignments_renamed params hold hrow hclear hold 0) rowid (.some hold) _ _ _ _ _ _

omit hschema hren in
theorem deleteRow_renamed {row row' : Row} (hrow : RowRenamed ρ x row row') (affected : UInt64)
    (rowid : RowId) :
    Simulates SameKind (RenamedSince ρ dbId own v v') Eq
      (deleteRow fire dbId x txId affected (rowid, row))
      (deleteRow fire' dbId x txId affected (rowid, row')) w w' := by
  rw [deleteRow_eq, deleteRow_eq]
  exact storeBetween_renamed h hown hno hfire hfire' rowid (.some hrow) .none _ _ _ _ _ _

end Rows

/-! ### Statement by statement -/

/-- The rows that a WHERE clause selects are those that the clause with the new name selects. -/
theorem matchingRows_renamed (horder : OrderedByKeys) {s s' : KvsState} (h : Renamed ρ dbId s s')
    {st st' : Store} (hst : s.getTableStore dbId x = some st) (hren : StoreRenamed ρ x st st')
    {selection : Option Expr}
    (hclear : x = ρ.table → ∀ e ∈ selection, ClearWhere ρ (s.holdsRow dbId x) e)
    (params : List Value) (paramIdx : Nat) :
    List.Forall₂ (fun e e' => e'.1 = e.1 ∧ RowRenamed ρ x e.2 e'.2 ∧ s.holdsRow dbId x e.2)
      (matchingRows s dbId st selection params paramIdx)
      (matchingRows s' dbId st' (selection.map (Expr.rename (ρ.ref x))) params paramIdx) := by
  have hrows : List.Forall₂ (fun e e' => e'.1 = e.1 ∧ RowRenamed ρ x e.2 e'.2 ∧
      s.holdsRow dbId x e.2) st.entries st'.entries := by
    have hheld : ∀ e ∈ st.entries, s.holdsRow dbId x e.2 := by
      intro e he
      refine ⟨e.1, ?_⟩
      rw [KvsState.row, KvsState.rowAt, hst]
      exact (IndexMap.mem_entries_iff_get st e.1 e.2).mp he
    refine List.Forall₂.imp (fun e e' he => ?_) ((List.forall₂_and_left _ _).mpr ⟨hheld, hren⟩)
    exact ⟨he.2.1, he.2.2, he.1⟩
  have hselects : ∀ (_ : RowId) (row row' : Row), RowRenamed ρ x row row' ∧ s.holdsRow dbId x row →
      selects s' dbId (selection.map (Expr.rename (ρ.ref x))) params paramIdx row' =
        selects s dbId selection params paramIdx row := by
    intro _ row row' hrow
    cases selection with
    | none => rfl
    | some e =>
        have hclear' : x = ρ.table → ClearWhere ρ (s.holdsRow dbId x) e := fun hx => hclear hx e rfl
        have heq : evaluateWhereCtx s' dbId row' params (e.rename (ρ.ref x)) =
            evaluateWhereCtx s dbId row params e := by
          refine evaluateWhereCtx_rename h.ftsTables (fun parts => ⟨_, rfl⟩) params e
            (fun r hr => hrow.1.lookup_ref (fun hx => (hclear' hx).1 r hr) hrow.2) fun arg harg =>
              ⟨hrow.1.get_of_ne (fun hx => ((hclear' hx).2 arg harg).1.1.symm)
                fun hx => ((hclear' hx).2 arg harg).1.2.symm, fun id hid => ?_⟩
          rw [ColumnRenaming.ref, ColumnRenaming.ident,
            if_neg fun hand => ((hclear' hand.1).2 arg harg).2 id hid hand.2]
        simp only [Option.map_some, selects, whereHolds, heq]
  let P : Row → Row → Prop := fun row row' => RowRenamed ρ x row row' ∧ s.holdsRow dbId x row
  exact IndexMap.forall₂_filter (P := P) hselects (hashOrder_forall₂ horder (P := P) hrows)

section Statements

variable (h : RenamedUnder ρ dbId own w w') (hown : own = none ∨ own = txId)
  (hno : w.kvs.getTriggers dbId x = []) {fire fire' : Fire} (hfire : TableQuiet dbId x fire)
  (hfire' : TableQuiet dbId x fire')
include h hown hno hfire hfire'

theorem executeInsert_renamed {columns : List Ident}
    (hcolumns : x = ρ.table → ∀ id ∈ columns, id.value ≠ ρ.new.value) {source : Option Query}
    {select : Query → Query} {fuel : Nat} {params : List Value}
    (hsource : ∀ q sel, source = some q → q.body = .select sel →
      SameSource w.kvs w'.kvs dbId fuel params q (select q)) :
    Simulates SameKind (RenamedSince ρ dbId own w w') Eq
      (executeInsert fire fuel dbId x columns source params txId)
      (executeInsert fire' fuel dbId x (columns.map (ρ.ident x))
        (source.map (Query.renameSource ρ x select)) params txId) w w' := by
  have hstart : RenamedSince ρ dbId own w w' w w' := ⟨h, rfl, rfl, rfl⟩
  refine simulates_bind (A := fun s s' => s = w.kvs ∧ s' = w'.kvs)
    (simulates_read ⟨rfl, rfl⟩ hstart) fun s s' w₁ w₁' hs h₁ => ?_
  obtain ⟨rfl, rfl⟩ := hs
  refine simulates_bind (simulates_orRaise (h.kvs.schemas x) _ _ h₁)
    fun schema schema' w₂ w₂' hschema h₂ => ?_
  obtain ⟨hren, hschema, -⟩ := hschema
  refine simulates_bind (simulates_orRaise (h.kvs.stores x) _ _ h₂) fun _ _ w₃ w₃' _ h₃ => ?_
  refine simulates_bind (simulates_ofExcept (candidateRows_renamed hren hcolumns hsource) h₃)
    fun rows rows' w₄ w₄' hrows h₄ => ?_
  refine simulates_bind (simulates_foldlM ?_ hrows (A := Eq) rfl h₄) fun n _ w₅ w₅' hn h₅ => ?_
  · rintro n _ row row' v v' rfl hrow hv
    exact insertRow_renamed hv hown hno hfire hfire' hschema hren hrow n
  · subst hn
    exact simulates_pure rfl h₅

theorem executeUpdate_renamed (horder : OrderedByKeys) {relation : TableFactor}
    (hname : relation.name = x) {assignments : List Assignment} {selection : Option Expr}
    (hclear : x = ρ.table →
      (∀ assignment ∈ assignments, ClearAssignment ρ (w.kvs.holdsRow dbId x) assignment) ∧
        ∀ e ∈ selection, ClearWhere ρ (w.kvs.holdsRow dbId x) e) (params : List Value) :
    Simulates SameKind (RenamedSince ρ dbId own w w') Eq
      (executeUpdate fire dbId relation assignments selection params txId)
      (executeUpdate fire' dbId relation (assignments.map (Assignment.rename ρ x))
        (selection.map (Expr.rename (ρ.ref x))) params txId) w w' := by
  subst hname
  have hstart : RenamedSince ρ dbId own w w' w w' := ⟨h, rfl, rfl, rfl⟩
  have hcount : setParamCount (assignments.map (Assignment.rename ρ relation.name)) =
      setParamCount assignments := by
    rw [setParamCount, setParamCount, List.map_map]
    exact congrArg List.sum (List.map_congr_left fun _ _ => countPlaceholders_rename _ _)
  refine simulates_bind (A := fun s s' => s = w.kvs ∧ s' = w'.kvs)
    (simulates_read ⟨rfl, rfl⟩ hstart) fun s s' w₁ w₁' hs h₁ => ?_
  obtain ⟨rfl, rfl⟩ := hs
  refine simulates_bind (simulates_orRaise (h.kvs.stores relation.name) _ _ h₁)
    fun st st' w₂ w₂' hst h₂ => ?_
  refine simulates_bind (simulates_orRaise (h.kvs.schemas relation.name) _ _ h₂)
    fun schema schema' w₃ w₃' hschema h₃ => ?_
  obtain ⟨hren, hschema, -⟩ := hschema
  rw [hcount]
  have hrows := matchingRows_renamed horder h.kvs hst.2.1 hst.1 (fun hx => (hclear hx).2) params
    (setParamCount assignments)
  refine simulates_bind (simulates_foldlM ?_ hrows (A := Eq) rfl h₃) fun n _ w₅ w₅' hn h₅ => ?_
  · rintro n _ ⟨rowid, row⟩ ⟨_, row'⟩ v v' rfl ⟨rfl, hrow, hheld⟩ hv
    exact updateRow_renamed hv hown hno hfire hfire' hschema hren hrow hheld
      (fun hx => (hclear hx).1) params n _
  · subst hn
    exact simulates_pure rfl h₅

theorem executeDelete_renamed (horder : OrderedByKeys) {tables : List String}
    {from_ : List TableWithJoins} (htarget : deleteTarget tables from_ = some x)
    {selection : Option Expr}
    (hclear : x = ρ.table → ∀ e ∈ selection, ClearWhere ρ (w.kvs.holdsRow dbId x) e)
    (params : List Value) :
    Simulates SameKind (RenamedSince ρ dbId own w w') Eq
      (executeDelete fire dbId tables from_ selection params txId)
      (executeDelete fire' dbId tables from_ (selection.map (Expr.rename (ρ.ref x))) params txId)
      w w' := by
  have hstart : RenamedSince ρ dbId own w w' w w' := ⟨h, rfl, rfl, rfl⟩
  rw [executeDelete, executeDelete, htarget, orRaise, pure_bind, pure_bind]
  refine simulates_bind (A := fun s s' => s = w.kvs ∧ s' = w'.kvs)
    (simulates_read ⟨rfl, rfl⟩ hstart) fun s s' w₁ w₁' hs h₁ => ?_
  obtain ⟨rfl, rfl⟩ := hs
  refine simulates_bind (simulates_orRaise (h.kvs.stores x) _ _ h₁) fun st st' w₂ w₂' hst h₂ => ?_
  have hrows := matchingRows_renamed horder h.kvs hst.2.1 hst.1 hclear params 0
  refine simulates_bind (simulates_foldlM ?_ hrows (A := Eq) rfl h₂) fun n _ w₅ w₅' hn h₅ => ?_
  · rintro n _ ⟨rowid, row⟩ ⟨_, row'⟩ v v' rfl ⟨rfl, hrow, -⟩ hv
    exact deleteRow_renamed hv hown hno hfire hfire' hrow n _
  · subst hn
    exact simulates_pure rfl h₅

end Statements

/-- A statement and the statement with the new name have the same outcome, and keep the two states
alike. -/
theorem executeSingleStatement_renamed (horder : OrderedByKeys)
    (h : RenamedUnder ρ dbId own w w') (hown : own = none ∨ own = txId) {stmt : Statement}
    (hwrite : stmt.isWrite = true) {select : Query → Query} {fuel : Nat} {params : List Value}
    (hclear : stmt.Clear ρ select w.kvs w'.kvs dbId (fuel - 1) params) :
    Simulates SameKind (RenamedUnder ρ dbId own) Eq
      (executeSingleStatement fuel dbId stmt params txId)
      (executeSingleStatement fuel dbId (stmt.rename ρ select) params txId) w w' := by
  cases fuel with
  | zero => exact ⟨.error rfl, h⟩
  | succ fuel =>
      obtain ⟨hno, hnames⟩ := hclear
      cases stmt with
      | insert table columns source =>
          have hsim := executeInsert_renamed h hown (hno table rfl)
            (fireTriggers_tableQuiet fun s => executeSingleStatement fuel dbId s [] txId)
            (fireTriggers_tableQuiet fun s => executeSingleStatement fuel dbId s [] txId)
            hnames.1 hnames.2
          exact ⟨hsim.1, hsim.2.under⟩
      | update table assignments selection =>
          have hsim := executeUpdate_renamed h hown (hno _ rfl)
            (fireTriggers_tableQuiet fun s => executeSingleStatement fuel dbId s [] txId)
            (fireTriggers_tableQuiet fun s => executeSingleStatement fuel dbId s [] txId)
            horder rfl (fun hx => hx ▸ hnames hx) params
          exact ⟨hsim.1, hsim.2.under⟩
      | delete tables from_ selection =>
          cases htarget : deleteTarget tables from_ with
          | none =>
              have hexec : ∀ (selection : Option Expr) (w : World),
                  exec (executeSingleStatement (fuel + 1) dbId (.delete tables from_ selection)
                    params txId) w = (.error (.err (.unsupported "DELETE without a target table")), w) := by
                intro selection w
                rw [executeSingleStatement, executeDelete, htarget]
                rfl
              rw [Simulates, Statement.rename, hexec, hexec]
              exact ⟨.error rfl, h⟩
          | some x =>
              have hsim := executeDelete_renamed h hown (hno x htarget)
                (fireTriggers_tableQuiet fun s => executeSingleStatement fuel dbId s [] txId)
                (fireTriggers_tableQuiet fun s => executeSingleStatement fuel dbId s [] txId)
                horder htarget (fun hx => hx ▸ hnames (hx ▸ htarget)) params
              rw [Statement.rename, htarget]
              exact ⟨hsim.1, hsim.2.under⟩
      | _ => cases hwrite

/-! ### Transactions -/

section Txns

variable (s : KvsState) (txns : TxnManager) (dbId : UInt32)

/-- A SELECT does not look at the transactions. -/
theorem executeSelect_withTxns (fuel : Nat) (query : Query) (params : List Value) :
    executeSelect { s with txns } dbId fuel query params = executeSelect s dbId fuel query params :=
  (SameListed.of_txns s txns).executeSelect fuel query params

end Txns

theorem Statement.Clear.withTxns {s s' : KvsState} {select : Query → Query} {fuel : Nat}
    {params : List Value} {stmt : Statement}
    (h : stmt.Clear ρ select s s' dbId fuel params) (txns txns' : TxnManager) :
    stmt.Clear ρ select { s with txns } { s' with txns := txns' } dbId fuel params where
  noTriggers := h.noTriggers
  names := by
    obtain ⟨-, hnames⟩ := h
    cases stmt with
    | insert table columns source =>
        refine ⟨hnames.1, fun q sel hq hbody => ?_⟩
        rw [SameSource, executeSelect_withTxns s, executeSelect_withTxns s']
        exact hnames.2 q sel hq hbody
    | update | delete => exact hnames
    | _ => trivial

theorem RenamedUnder.begin (h : Renamed ρ dbId w.kvs w'.kvs) :
    RenamedUnder ρ dbId (some w.kvs.txns.nextId) (w.begin dbId) (w'.begin dbId) where
  kvs := h.withTxns (congrArg (· + 1) h.nextId)
  journal id hid := by
    obtain rfl := Option.some.inj hid
    simp only [World.begin, KvsState.begin, TxnManager.begin, h.nextId, IndexMap.get_insert, if_true]
    exact .some ⟨⟨rfl, rfl⟩, .nil⟩

theorem Renamed.ended {s s' : KvsState} (h : Renamed ρ dbId s s') (id : UInt32) :
    Renamed ρ dbId (s.ended id) (s'.ended id) := h.withTxns h.nextId

theorem RenamedUnder.commit {id : UInt32} (h : RenamedUnder ρ dbId (some id) w w') :
    Renamed ρ dbId (w.commit id).kvs (w'.commit id).kvs := by
  have hjournal := h.journal id rfl
  rw [commit_eq, commit_eq]
  generalize w.kvs.txns.active.get id = e at hjournal ⊢
  generalize w'.kvs.txns.active.get id = e' at hjournal ⊢
  cases hjournal with
  | none => exact h.kvs
  | some => exact h.kvs.ended id

theorem RenamedUnder.rollback {id : UInt32} (h : RenamedUnder ρ dbId (some id) w w') :
    Renamed ρ dbId (w.rollback id).kvs (w'.rollback id).kvs := by
  have hjournal := h.journal id rfl
  rw [rollback_eq, rollback_eq]
  generalize w.kvs.txns.active.get id = e at hjournal ⊢
  generalize w'.kvs.txns.active.get id = e' at hjournal ⊢
  cases hjournal with
  | none => exact h.kvs
  | some hentry =>
      obtain ⟨⟨hdb, hdb'⟩, hops⟩ := hentry
      simp only [hdb, hdb']
      exact (h.kvs.ended id).undoAll hops

/-! ### Call by call -/

/-- The call with the new name in place of the old one. -/
def Call.rename (ρ : ColumnRenaming) (select : Query → Query) (c : Call) : Call :=
  { c with stmt := c.stmt.rename ρ select }

omit [Externals] in
theorem Statement.isWrite_rename {stmt : Statement} (h : stmt.isWrite = true)
    (select : Query → Query) : (stmt.rename ρ select).isWrite = true := by
  cases stmt <;> first | rfl | exact nomatch h

theorem executeStatement_renamed (horder : OrderedByKeys) (h : Renamed ρ dbId w.kvs w'.kvs)
    {stmt : Statement} (hwrite : stmt.isWrite = true) {select : Query → Query} {fuel : Nat}
    {params : List Value} (hclear : stmt.Clear ρ select w.kvs w'.kvs dbId (fuel - 1) params)
    (txId : Option UInt32) :
    Simulates SameKind (fun w w' => Renamed ρ dbId w.kvs w'.kvs) Eq
      (executeStatement fuel dbId stmt params txId)
      (executeStatement fuel dbId (stmt.rename ρ select) params txId) w w' := by
  rw [executeStatement_write hwrite, executeStatement_write (Statement.isWrite_rename hwrite select)]
  cases txId with
  | some id =>
      have hunder : RenamedUnder ρ dbId none w w' := ⟨h, fun _ hid => nomatch hid⟩
      have hsim : Simulates _ _ Eq (executeSingleStatement fuel dbId stmt params (some id)) _ w w' :=
        executeSingleStatement_renamed horder hunder (Or.inl rfl) hwrite hclear
      exact ⟨hsim.1, hsim.2.kvs⟩
  | none =>
      have hsim := executeSingleStatement_renamed horder (RenamedUnder.begin h) (Or.inr rfl) hwrite
        (hclear.withTxns _ _)
      simp only
      rw [Simulates] at hsim ⊢
      rw [exec_executeAtomically, exec_executeAtomically, h.nextId]
      generalize exec (executeSingleStatement fuel dbId stmt params (some w.kvs.txns.nextId))
        (w.begin dbId) = out at hsim ⊢
      generalize exec (executeSingleStatement fuel dbId (stmt.rename ρ select) params
        (some w.kvs.txns.nextId)) (w'.begin dbId) = out' at hsim ⊢
      obtain ⟨outcome, w₁⟩ := out
      obtain ⟨outcome', w₁'⟩ := out'
      obtain ⟨houtcome, hw⟩ := hsim
      cases houtcome with
      | ok heq => exact ⟨.ok heq, hw.commit⟩
      | @error e e' hkind =>
          cases e with
          | err =>
              cases e' with
              | err => exact ⟨.error rfl, hw.rollback⟩
              | panic | outOfFuel => exact absurd hkind Bool.false_ne_true
          | panic | outOfFuel =>
              cases e' with
              | err => exact absurd hkind.symm Bool.false_ne_true
              | panic | outOfFuel => exact ⟨.error rfl, hw.kvs⟩

/-- A write, in which the new name can take the place of the old one. -/
structure Call.Clear (ρ : ColumnRenaming) (select : Query → Query) (dbId : UInt32) (c : Call)
    (w w' : World) : Prop where
  isWrite : c.stmt.isWrite = true
  clear : c.stmt.Clear ρ select w.kvs w'.kvs dbId (c.fuel - 1) c.params

theorem Call.renamed (horder : OrderedByKeys) (h : Renamed ρ dbId w.kvs w'.kvs) {c : Call}
    {select : Query → Query} (hclear : c.Clear ρ select dbId w w') :
    (c.rename ρ select).succeeds dbId w' = c.succeeds dbId w ∧
      Renamed ρ dbId (c.run dbId w).kvs ((c.rename ρ select).run dbId w').kvs := by
  have hsim := executeStatement_renamed horder h hclear.isWrite hclear.clear c.txId
  exact ⟨hsim.1.isOk_eq, hsim.2⟩

/-! ### Run by run -/

/-- Which calls of a run succeed. -/
def accepted (dbId : UInt32) : List Call → World → List Bool
  | [], _ => []
  | c :: calls, w => c.succeeds dbId w :: accepted dbId calls (c.run dbId w)

/-- Every call of the two runs is clear where they reach it. -/
def clearCalls (ρ : ColumnRenaming) (select : Query → Query) (dbId : UInt32) :
    List Call → World → World → Prop
  | [], _, _ => True
  | c :: calls, w, w' => c.Clear ρ select dbId w w' ∧
    clearCalls ρ select dbId calls (c.run dbId w) ((c.rename ρ select).run dbId w')

theorem Renamed.runCalls (horder : OrderedByKeys) {select : Query → Query} (calls : List Call)
    (h : Renamed ρ dbId w.kvs w'.kvs) (hclear : clearCalls ρ select dbId calls w w') :
    accepted dbId (calls.map (Call.rename ρ select)) w' = accepted dbId calls w ∧
      Renamed ρ dbId (runCalls dbId calls w).kvs
        (runCalls dbId (calls.map (Call.rename ρ select)) w').kvs := by
  induction calls generalizing w w' with
  | nil => exact ⟨rfl, h⟩
  | cons c calls ih =>
      obtain ⟨hsucceeds, hrun⟩ := Call.renamed horder h hclear.1
      obtain ⟨haccepted, hruns⟩ := ih hrun hclear.2
      rw [List.map_cons, accepted, accepted, hsucceeds, haccepted]
      exact ⟨rfl, hruns⟩

end Skvs
