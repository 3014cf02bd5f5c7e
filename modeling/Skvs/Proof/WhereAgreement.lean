import Skvs.Proof.SelectRows
import Skvs.Proof.AlterRules
import Skvs.Proof.FastPath

/-!
# WHERE in SELECT, UPDATE and DELETE

UPDATE and DELETE evaluate the clause on the rows as they are stored, and SELECT on the rows tagged
with their rowids. `fts_match` finds a row by its tag, so on a stored row it never holds.
-/

namespace Skvs

/-! ### Expressions without placeholders -/

/-- A computation whose result does not depend on the next parameter, and which reads none. -/
def Steady {α : Type} (m : StateM Nat α) : Prop := ∃ a, ∀ i, m i = (a, i)

namespace Steady

theorem pure {α : Type} (a : α) : Steady (Pure.pure a : StateM Nat α) := ⟨a, fun _ => rfl⟩

theorem bind {α β : Type} {m : StateM Nat α} (hm : Steady m) {f : α → StateM Nat β}
    (hf : ∀ a, Steady (f a)) : Steady (m >>= f) := by
  obtain ⟨a, ha⟩ := hm
  obtain ⟨b, hb⟩ := hf a
  refine ⟨b, fun i => ?_⟩
  change f (m i).1 (m i).2 = _
  rw [ha, hb]

theorem ite {α : Type} {c : Prop} [Decidable c] {m m' : StateM Nat α} (hm : Steady m)
    (hm' : Steady m') : Steady (if c then m else m') := by
  split_ifs
  · exact hm
  · exact hm'

theorem anyEqual (v : Value) {items : List Eval} (h : ∀ m ∈ items, Steady m) :
    Steady (anyEqual v items) := by
  induction items with
  | nil => exact .pure false
  | cons item items ih =>
      rw [List.forall_mem_cons] at h
      exact h.1.bind fun _ => .ite (.pure true) (ih h.2)

theorem collect {items : List Eval} (h : ∀ m ∈ items, Steady m) : Steady (collect items) := by
  induction items with
  | nil => exact .pure []
  | cons item items ih =>
      rw [List.forall_mem_cons] at h
      exact h.1.bind fun _ => (ih h.2).bind fun _ => .pure _

theorem caseMatches {operand : Option Eval} (hoperand : ∀ m ∈ operand, Steady m) {cond : Eval}
    (hcond : Steady cond) : Steady (caseMatches operand cond) := by
  cases operand with
  | none => exact hcond.bind fun _ => .pure _
  | some op => exact (hoperand op rfl).bind fun _ => hcond.bind fun _ => .pure _

theorem caseBranches {operand : Option Eval} (hoperand : ∀ m ∈ operand, Steady m) {elseResult : Eval}
    (helse : Steady elseResult) {conds results : List Eval} (hconds : ∀ m ∈ conds, Steady m)
    (hresults : ∀ m ∈ results, Steady m) :
    Steady (caseBranches operand elseResult conds results) := by
  induction conds generalizing results with
  | nil => exact helse
  | cons cond conds ih =>
      rw [List.forall_mem_cons] at hconds
      cases results with
      | nil => exact helse
      | cons result results =>
          rw [List.forall_mem_cons] at hresults
          exact (caseMatches hoperand hconds.1).bind fun _ =>
            .ite hresults.1 (ih hconds.2 hresults.2)

theorem evalBinaryOp {left right : Eval} (hl : Steady left) (hr : Steady right)
    (op : BinaryOperator) : Steady (evalBinaryOp left op right) := by
  cases op with
  | and => exact hl.bind fun _ => .ite (.pure _) (hr.bind fun _ => .pure _)
  | or => exact hl.bind fun _ => hr.bind fun _ => .ite (.pure _) (.pure _)
  | _ => exact hl.bind fun _ => hr.bind fun _ => .pure _

end Steady

section Eval

variable [Externals] (ctx : EvalCtx) (params : List Value)

mutual

theorem eval_steady (e : Expr) (h : countPlaceholders e = 0) : Steady (eval ctx params e) := by
  match e with
  | .identifier _ | .compoundIdentifier _ | .other _ _ => exact .pure _
  | .value (.placeholder _) => exact nomatch h
  | .value (.number _) | .value (.singleQuotedString _) | .value (.doubleQuotedString _)
  | .value .null | .value (.boolean _) | .value .other => exact .pure _
  | .nested inner => exact eval_steady inner h
  | .unaryOp _ inner | .isNull inner | .isNotNull inner =>
    exact (eval_steady inner h).bind fun _ => .pure _
  | .binaryOp left op right =>
    obtain ⟨hl, hr⟩ := Nat.add_eq_zero_iff.mp h
    exact (eval_steady left hl).evalBinaryOp (eval_steady right hr) op
  | .between expr _ low high =>
    obtain ⟨hfront, hhigh⟩ := Nat.add_eq_zero_iff.mp h
    obtain ⟨hexpr, hlow⟩ := Nat.add_eq_zero_iff.mp hfront
    exact (eval_steady expr hexpr).bind fun _ => (eval_steady low hlow).bind fun _ =>
      (eval_steady high hhigh).bind fun _ => .pure _
  | .inList expr list _ =>
    obtain ⟨hexpr, hlist⟩ := Nat.add_eq_zero_iff.mp h
    exact (eval_steady expr hexpr).bind fun v =>
      (Steady.anyEqual v (evalEach_steady list hlist)).bind fun _ => .pure _
  | .like _ expr pattern | .iLike _ expr pattern =>
    obtain ⟨hexpr, hpattern⟩ := Nat.add_eq_zero_iff.mp h
    exact (eval_steady expr hexpr).bind fun _ => (eval_steady pattern hpattern).bind fun _ => .pure _
  | .case operand conditions results elseResult =>
    obtain ⟨hfront, helse⟩ := Nat.add_eq_zero_iff.mp h
    obtain ⟨hfront, hresults⟩ := Nat.add_eq_zero_iff.mp hfront
    obtain ⟨hoperand, hconditions⟩ := Nat.add_eq_zero_iff.mp hfront
    refine Steady.caseBranches (evalOption_steady operand hoperand) ?_
      (evalEach_steady conditions hconditions) (evalEach_steady results hresults)
    have hsome := evalOption_steady elseResult helse
    cases hcase : evalOption ctx params elseResult with
    | none => exact .pure _
    | some m => exact hsome m (by rw [hcase]; rfl)
  | .function _ args _ _ => exact (Steady.collect (evalArgs_steady args h)).bind fun _ => .pure _

theorem evalEach_steady (es : List Expr) (h : (countEach es).sum = 0) :
    ∀ m ∈ evalEach ctx params es, Steady m := by
  match es with
  | [] => exact fun _ hm => absurd hm List.not_mem_nil
  | e :: es =>
    obtain ⟨he, hes⟩ := Nat.add_eq_zero_iff.mp h
    exact List.forall_mem_cons.mpr ⟨eval_steady e he, evalEach_steady es hes⟩

theorem evalOption_steady (e : Option Expr) (h : countOption e = 0) :
    ∀ m ∈ evalOption ctx params e, Steady m := by
  match e with
  | none => exact fun _ hm => absurd hm (by simp [evalOption])
  | some e =>
    intro m hm
    rw [evalOption, Option.mem_some_iff] at hm
    exact hm ▸ eval_steady e h

theorem evalArgs_steady (args : List FunctionArg) (h : (countArgs args).sum = 0) :
    ∀ m ∈ evalArgs ctx params args, Steady m := by
  match args with
  | [] => exact fun _ hm => absurd hm List.not_mem_nil
  | arg :: args =>
    obtain ⟨harg, hargs⟩ := Nat.add_eq_zero_iff.mp h
    exact List.forall_mem_cons.mpr ⟨evalArg_steady arg harg, evalArgs_steady args hargs⟩

theorem evalArg_steady (arg : FunctionArg) (h : countArg arg = 0) :
    Steady (evalArg ctx params arg) := by
  match arg with
  | .unnamed arg | .named _ arg => exact evalArgExpr_steady arg h

theorem evalArgExpr_steady (arg : FunctionArgExpr) (h : countArgExpr arg = 0) :
    Steady (evalArgExpr ctx params arg) := by
  match arg with
  | .expr e => exact eval_steady e h
  | .qualifiedWildcard | .wildcard => exact .pure _

end

variable (state : KvsState) (dbId : UInt32) (row : Row)

theorem evaluateWhereCtx_steady (e : Expr) (h : countPlaceholders e = 0) :
    Steady (evaluateWhereCtx state dbId row params e) := by
  induction e using evaluateWhereCtx.induct with
  | case1 left right ihl ihr =>
      obtain ⟨hl, hr⟩ := Nat.add_eq_zero_iff.mp h
      rw [evaluateWhereCtx]
      exact (ihl hl).bind fun _ => .ite (ihr hr) (.pure false)
  | case2 left right ihl ihr =>
      obtain ⟨hl, hr⟩ := Nat.add_eq_zero_iff.mp h
      rw [evaluateWhereCtx]
      exact (ihl hl).bind fun _ => .ite (.pure true) (ihr hr)
  | case3 inner ih =>
      rw [evaluateWhereCtx]
      exact (ih h).bind fun _ => .pure _
  | case4 inner ih =>
      rw [evaluateWhereCtx]
      exact ih h
  | case5 name args distinct clausePlaceholders hcond =>
      rw [evaluateWhereCtx, if_pos hcond]
      exact .pure _
  | case6 name args distinct clausePlaceholders hcond =>
      rw [evaluateWhereCtx, if_neg hcond]
      exact (eval_steady _ params _ h).bind fun _ => .pure _
  | case7 e hand hor hnot hnested hfun =>
      have heval := (eval_steady (.withRow row) params e h).bind fun v => .pure (truthy v)
      rw [evaluateWhereCtx] <;> assumption

/-- Without placeholders it does not matter which parameter is next. -/
theorem whereHolds_index {e : Expr} (h : countPlaceholders e = 0) (i : Nat) :
    whereHolds state dbId row params e i = whereHolds state dbId row params e 0 := by
  obtain ⟨b, hb⟩ := evaluateWhereCtx_steady params state dbId row e h
  rw [whereHolds, whereHolds, hb, hb]

end Eval

/-! ### What DELETE and UPDATE write -/

section Writes

open Prog

variable [Externals] {dbId : UInt32} {table : String} {txId : Option UInt32} {w w' : World}

/-- The log of a statement that goes through collected rows. -/
def writesOf (txId : Option UInt32) (dbId : UInt32) (table : String) (g : Row → Option Row)
    (entries : List (RowId × Row)) : List Write :=
  entries.map fun e => ⟨txId, dbId, table, e.1, some e.2, some e.2, g e.2⟩

theorem foldlM_writes {f : UInt64 → RowId × Row → Db UInt64} (g : Row → Option Row)
    (hf : ∀ {b b' e w w'}, w.kvs.getTriggers dbId table = [] → exec (f b e) w = (.ok b', w') →
      w' = w.store txId ⟨dbId, table, e.1⟩ (some e.2) (g e.2))
    {schema : Option TableSchema} {entries : List (RowId × Row)}
    (hpending : Pending dbId table schema entries w) {b b' : UInt64}
    (hok : exec (entries.foldlM f b) w = (.ok b', w')) :
    w'.writes = w.writes ++ writesOf txId dbId table g entries := by
  induction entries generalizing w b with
  | nil =>
      obtain ⟨-, rfl⟩ := Prod.mk.inj hok
      exact (List.append_nil _).symm
  | cons e entries ih =>
      rw [List.foldlM_cons] at hok
      obtain ⟨n, w₁, hfirst, hok⟩ := exec_bind_eq_ok_iff.mp hok
      obtain rfl := hf hpending.noTriggers hfirst
      have hbefore : w.kvs.row ⟨dbId, table, e.1⟩ = some e.2 := hpending.rows e List.mem_cons_self
      rw [ih (hpending.of_store txId _ _) hok, World.store, hbefore, List.append_assoc]
      rfl

variable {fire : Fire} (hfire : TableQuiet dbId table fire)
include hfire

variable (txId) in
theorem exec_deleteRows {schema : Option TableSchema} {entries : List (RowId × Row)}
    (hpending : Pending dbId table schema entries w) (affected : UInt64) :
    ∃ n w', exec (entries.foldlM (deleteRow fire dbId table txId) affected) w = (.ok n, w') ∧
      w'.writes = w.writes ++ writesOf txId dbId table (fun _ => none) entries := by
  have hruns : ∃ n w', exec (entries.foldlM (deleteRow fire dbId table txId) affected) w =
      (.ok n, w') := by
    induction entries generalizing w affected with
    | nil => exact ⟨affected, w, rfl⟩
    | cons e entries ih =>
        rw [List.foldlM_cons, exec_bind_ok (exec_deleteRow hfire hpending.noTriggers affected e)]
        exact ih (hpending.of_store txId _ _) _
  obtain ⟨n, w', hok⟩ := hruns
  refine ⟨n, w', hok, foldlM_writes (fun _ => none) (fun hno hstep => ?_) hpending hok⟩
  exact (deleteRow_ok hfire hno hstep).2

end Writes

/-! ### The three statements -/

section Statements

theorem exec_orRaise_some {α : Type} (a : α) (e : SkvsError) (w : World) :
    Prog.exec (orRaise (some a) e) w = (.ok a, w) := rfl

variable [Externals]

/-- The stored rows that SELECT finds. -/
def selectedEntries (state : KvsState) (dbId : UInt32) (store : Store) (e : Expr)
    (params : List Value) : List (RowId × Row) :=
  (hashOrder store.entries).filter fun entry =>
    whereHolds state dbId (tagRow entry.1 entry.2) params e 0

/-- `SELECT * FROM relation WHERE e`. -/
def selectStar (relation : TableFactor) (e : Expr) : Query :=
  ⟨.select ⟨false, [.wildcard], [⟨relation, []⟩], some e, .expressions []⟩, [], none, none⟩

variable {w : World} {dbId : UInt32} {table : String} {store : Store}
  (hstore : w.kvs.getTableStore dbId table = some store)

include hstore in
/-- Without indexes a SELECT goes through all rows. -/
theorem rows_of_selectStar {relation : TableFactor} (hrelation : (parseTableFactor relation).1 = table)
    (hview : w.kvs.getViewDefinition dbId table = none)
    (hindices : ∀ schema, w.kvs.getSchema dbId table = some schema → schema.indices = [])
    (e : Expr) (params : List Value) (fuel : Nat) :
    (executeSelect w.kvs dbId (fuel + 1) (selectStar relation e) params).map QueryResult.rows =
      .ok ((selectedEntries w.kvs dbId store e params).map fun x =>
        (tagRow x.1 x.2).erase "_rowid_") := by
  subst hrelation
  have hpath : fastPath w.kvs dbId (parseTableFactor relation).1 e params = none := by
    cases hcase : fastPath w.kvs dbId (parseTableFactor relation).1 e params with
    | none => rfl
    | some found =>
        obtain ⟨_, -, -, schema, hschema, hmem⟩ := fastPath_cases _ _ _ _ _ hcase
        rw [hindices schema hschema] at hmem
        exact absurd hmem List.not_mem_nil
  have hrows : fromRows w.kvs dbId params fuel
      ⟨false, [.wildcard], [⟨relation, []⟩], some e, .expressions []⟩ =
        .ok ((hashOrder store.entries).map fun entry => tagRow entry.1 entry.2) := by
    simp only [fromRows, hview, rowsForSimpleWhere_eq, hpath, scanRows, hstore]
  have hselect := executeSelect_rows w.kvs dbId params
    (show (selectStar relation e).body = .select _ from rfl) fuel
  rw [hrows] at hselect
  refine hselect.trans (congrArg Except.ok ?_)
  change List.map _ (List.filter _ (List.map _ _)) = _
  rw [List.filter_map, List.map_map]
  rfl

include hstore in
theorem writes_of_delete (hno : w.kvs.getTriggers dbId table = []) {tables : List String}
    {from_ : List TableWithJoins} (htarget : deleteTarget tables from_ = some table) (e : Expr)
    (params : List Value) (txId : Option UInt32) (fuel : Nat) :
    ∃ r w', Prog.exec (executeSingleStatement (fuel + 1) dbId (.delete tables from_ (some e)) params
        txId) w = (.ok r, w') ∧
      w'.writes = w.writes ++ writesOf txId dbId table (fun _ => none)
        (matchingRows w.kvs dbId store (some e) params 0) := by
  have hfire : TableQuiet dbId table (fireTriggers (fun s =>
      executeSingleStatement fuel dbId s [] txId) dbId) := fireTriggers_tableQuiet _
  obtain ⟨n, w', hfold, hwrites⟩ := exec_deleteRows txId hfire
    (Pending.of_matchingRows hno hstore (some e) params 0) 0
  refine ⟨.affected n, w', ?_, hwrites⟩
  change Prog.exec (executeDelete _ dbId tables from_ (some e) params txId) w = _
  rw [executeDelete, htarget, Prog.exec_bind_ok (exec_orRaise_some ..),
    Prog.exec_bind_ok (Prog.exec_read World.kvs w), hstore,
    Prog.exec_bind_ok (exec_orRaise_some ..), Prog.exec_bind_ok hfold]
  rfl

include hstore in
theorem writes_of_update (hno : w.kvs.getTriggers dbId table = []) {relation : TableFactor}
    (hrelation : relation.name = table) {e : Expr} (hfree : countPlaceholders e = 0)
    {params : List Value} {txId : Option UInt32} {fuel : Nat} {assignments : List Assignment}
    {r : QueryResult} {w' : World}
    (hok : Prog.exec (executeSingleStatement fuel dbId (.update ⟨relation, []⟩ assignments (some e))
      params txId) w = (.ok r, w')) :
    w'.writes = w.writes ++ writesOf txId dbId table
      (fun row => some (updatedRow assignments params row))
      (matchingRows w.kvs dbId store (some e) params 0) := by
  subst hrelation
  cases fuel with
  | zero => exact nomatch (Prod.mk.inj hok).1
  | succ fuel =>
      have hfire : TableQuiet dbId relation.name (fireTriggers (fun s =>
          executeSingleStatement fuel dbId s [] txId) dbId) := fireTriggers_tableQuiet _
      change Prog.exec (executeUpdate _ dbId relation assignments (some e) params txId) w = _ at hok
      rw [executeUpdate, Prog.exec_bind_ok (Prog.exec_read World.kvs w), hstore,
        Prog.exec_bind_ok (exec_orRaise_some ..)] at hok
      obtain ⟨schema, w₁, hschema, hok⟩ := Prog.exec_bind_eq_ok_iff.mp hok
      obtain ⟨-, rfl⟩ := orRaise_ok hschema
      obtain ⟨n, w₂, hfold, hok⟩ := Prog.exec_bind_eq_ok_iff.mp hok
      obtain ⟨-, rfl⟩ := Prod.mk.inj hok
      -- the parameters before those of the clause are none of its business
      have hsame : matchingRows w₁.kvs dbId store (some e) params (setParamCount assignments) =
          matchingRows w₁.kvs dbId store (some e) params 0 :=
        List.filter_congr fun x _ => whereHolds_index params w₁.kvs dbId x.2 hfree _
      rw [hsame] at hfold
      exact foldlM_writes (fun row => some (updatedRow assignments params row))
        (fun hno hstep => (updateRow_ok hfire hno hstep).2)
        (Pending.of_matchingRows hno hstore (some e) params 0) hfold

omit hstore in
/-- A clause that calls no `fts_match` and reads no `_rowid_` does not notice the tag. -/
theorem whereHolds_tagRow (state : KvsState) {e : Expr} (hmatch : e.matchedTables = [])
    (hreads : ∀ r ∈ e.references, ¬r.reads "_rowid_") (params : List Value) (rowid : RowId)
    (row : Row) :
    whereHolds state dbId (tagRow rowid row) params e 0 = whereHolds state dbId row params e 0 := by
  have hlookups : SameLookups id (.withRow row) (.withRow (tagRow rowid row)) e.references := by
    intro r hr
    refine ColumnRef.lookup_congr fun c hc => ?_
    have hne : c ≠ "_rowid_" := by
      rintro rfl
      exact hreads r hr hc
    exact (IndexMap.get_insert row _ _ c).trans (if_neg hne)
  have hrename : evaluateWhereCtx state dbId (tagRow rowid row) params (e.rename id) =
      evaluateWhereCtx state dbId row params e :=
    evaluateWhereCtx_rename rfl (fun parts => ⟨parts, rfl⟩) params e hlookups (by simp [hmatch])
  rw [Expr.rename_id] at hrename
  rw [whereHolds, whereHolds, hrename]

/-- SELECT, DELETE and UPDATE find the same rows just when the clause holds of each row with its tag
where it holds without, as it does if it calls no `fts_match` and reads no `_rowid_`. -/
theorem where_agreement_iff (hno : w.kvs.getTriggers dbId table = [])
    (hview : w.kvs.getViewDefinition dbId table = none)
    (hindices : ∀ schema, w.kvs.getSchema dbId table = some schema → schema.indices = [])
    (hstore : w.kvs.getTableStore dbId table = some store) {e : Expr}
    (hfree : countPlaceholders e = 0) (params : List Value) (txId : Option UInt32)
    {relation : TableFactor} (hrelation : (parseTableFactor relation).1 = table)
    {updated : TableFactor} (hupdated : updated.name = table) {tables : List String}
    {from_ : List TableWithJoins} (htarget : deleteTarget tables from_ = some table) :
    let selected := selectedEntries w.kvs dbId store e params
    let found := matchingRows w.kvs dbId store (some e) params 0
    (∀ fuel, (executeSelect w.kvs dbId (fuel + 1) (selectStar relation e) params).map
      QueryResult.rows = .ok (selected.map fun x => (tagRow x.1 x.2).erase "_rowid_")) ∧
    (∀ fuel, ∃ r w', Prog.exec (executeSingleStatement (fuel + 1) dbId
        (.delete tables from_ (some e)) params txId) w = (.ok r, w') ∧
      w'.writes = w.writes ++ writesOf txId dbId table (fun _ => none) found) ∧
    (∀ fuel assignments r w', Prog.exec (executeSingleStatement fuel dbId
        (.update ⟨updated, []⟩ assignments (some e)) params txId) w = (.ok r, w') →
      w'.writes = w.writes ++ writesOf txId dbId table
        (fun row => some (updatedRow assignments params row)) found) ∧
    (selected = found ↔ ∀ rowid row, store.get rowid = some row →
      whereHolds w.kvs dbId (tagRow rowid row) params e 0 = whereHolds w.kvs dbId row params e 0) ∧
    (e.matchedTables = [] → (∀ r ∈ e.references, ¬r.reads "_rowid_") → selected = found) := by
  refine ⟨rows_of_selectStar hstore hrelation hview hindices e params,
    writes_of_delete hstore hno htarget e params txId,
    fun fuel assignments r w' hok => writes_of_update hstore hno hupdated hfree hok, ?_,
    fun hmatch hreads => List.filter_congr fun entry _ =>
      whereHolds_tagRow w.kvs hmatch hreads params entry.1 entry.2⟩
  have hentries : ∀ entry, entry ∈ hashOrder store.entries ↔ store.get entry.1 = some entry.2 :=
    fun entry => (hashOrder_perm store.entries).mem_iff.trans
      (IndexMap.mem_entries_iff_get store entry.1 entry.2)
  constructor
  · intro hsame rowid row hrow
    have hmem := (hentries (rowid, row)).mpr hrow
    have hboth : (rowid, row) ∈ selectedEntries w.kvs dbId store e params ↔
        (rowid, row) ∈ matchingRows w.kvs dbId store (some e) params 0 := by rw [hsame]
    rw [selectedEntries, matchingRows, List.mem_filter, List.mem_filter, and_iff_right hmem,
      and_iff_right hmem] at hboth
    exact Bool.eq_iff_iff.mpr hboth
  · exact fun hsame => List.filter_congr fun entry hentry =>
      hsame entry.1 entry.2 ((hentries entry).mp hentry)

end Statements

namespace Sample

/-- `a = 1`. -/
def aIsOne : Expr := .binaryOp (.identifier (name "a")) .eq (.value (.number "1"))

/-- `NOT fts_match(t, 'fox')`. -/
def withoutFox : Expr :=
  .unaryOp .not (.function "fts_match" [.unnamed (.expr (.identifier (name "t"))),
    .unnamed (.expr (.value (.singleQuotedString "fox")))] false 0)

/-- A full-text table with the row `red fox`. -/
def oneText : KvsState :=
  letI := Externals.ofTexts [] []
  after [call createFts none, call (insert [.singleQuotedString "red fox"]) none]

end Sample

theorem where_agreement_on_one :
    letI := Externals.ofTexts [] []
    let store := (Sample.oneRow.getTableStore 0 "t").getD ∅
    selectedEntries Sample.oneRow 0 store Sample.aIsOne [] =
      matchingRows Sample.oneRow 0 store (some Sample.aIsOne) [] 0 := by
  let _ := Externals.ofTexts [] []
  intro store
  have hstore : Sample.oneRow.getTableStore 0 "t" = some store := by decide
  have hindices : ∀ schema, Sample.oneRow.getSchema 0 "t" = some schema → schema.indices = [] := by
    have hnone : (Sample.oneRow.getSchema 0 "t").map TableSchema.indices = some [] := by
      decide
    intro schema hschema
    rw [hschema, Option.map_some, Option.some.injEq] at hnone
    exact hnone
  have hrelation : (parseTableFactor (.table "t" none)).1 = "t" := rfl
  have hupdated : (TableFactor.table "t" none).name = "t" := rfl
  have htarget : deleteTarget ["t"] [] = some "t" := rfl
  have hno : (World.mk Sample.oneRow []).kvs.getTriggers 0 "t" = [] := by decide
  have hfree : countPlaceholders Sample.aIsOne = 0 := rfl
  exact (where_agreement_iff hno (by decide) hindices hstore hfree [] none hrelation hupdated
    htarget).2.2.2.2 rfl
      (List.forall_mem_singleton.mpr fun h : "a" = "_rowid_" => absurd h (by decide))

/-- `SELECT * FROM t WHERE NOT fts_match(t, 'fox')` returns nothing, and the DELETE with that clause
removes the row with the fox. -/
theorem delete_without_fox_deletes_fox :
    letI := Externals.ofTexts [] []
    let w := (Prog.exec (executeSingleStatement 1 0 (.delete ["t"] [] (some Sample.withoutFox)) []
      none) ⟨Sample.oneText, []⟩).2
    countPlaceholders Sample.withoutFox = 0 ∧
    (Sample.oneText.row ⟨0, "t", 1⟩).isSome = true ∧
    (executeSelect Sample.oneText 0 1 (selectStar (.table "t" none) Sample.withoutFox) []).map
      QueryResult.rows = .ok [] ∧
    w.writes.map (fun x => (x.rowid, x.after)) = [(1, none)] ∧ w.kvs.row ⟨0, "t", 1⟩ = none := by
  decide

end Skvs
