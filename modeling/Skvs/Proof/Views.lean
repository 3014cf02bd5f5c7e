import Skvs.Lib.Fuel
import Skvs.Lib.Links
import Skvs.Proof.SelectRows
import Skvs.Proof.Run

/-!
# Views over views

A view is expanded by recursion when it is selected from, and CREATE VIEW does not look at what its
query selects from. So a SELECT comes to an end exactly if no view that it is led to leads back to
itself, and a view that does is there as soon as a CREATE VIEW closes such a circle.
-/

namespace Skvs

open Relation Links

variable [Externals]

/-! ### What a query is led to -/

/-- The table or view that a query without joins selects from. -/
def Query.source? (query : Query) : Option String :=
  match query.body with
  | .select select =>
    match select.from_ with
    | [⟨relation, []⟩] => some (parseTableFactor relation).1
    | _ => none
  | _ => none

/-- `SELECT * FROM source`. -/
def Query.allFrom (source : String) : Query :=
  ⟨.select ⟨false, [.wildcard], [⟨.table source none, []⟩], none, .expressions []⟩, [], none, none⟩

/-- The query that the text of a view reads back as. -/
def readQuery (sql : String) : Option Query :=
  match parseStatements sql with
  | .ok (.query query :: _) => some query
  | _ => none

def KvsState.viewQuery (s : KvsState) (dbId : UInt32) (name : String) : Option Query :=
  (s.getViewDefinition dbId name).bind readQuery

/-- The one name is a view whose query selects from the other. -/
def SelectsFrom (s : KvsState) (dbId : UInt32) (view source : String) : Prop :=
  ∃ query, s.viewQuery dbId view = some query ∧ query.source? = some source

/-- With enough fuel the SELECT has a result, which more fuel does not change. -/
def SelectTerminates (s : KvsState) (dbId : UInt32) (query : Query) (params : List Value) : Prop :=
  Prog.Converges .outOfFuel fun fuel => executeSelect s dbId fuel query params

section

variable {state : KvsState} {dbId : UInt32} {params : List Value} {query : Query}

/-! ### What a table or a join returns -/

omit [Externals] in
theorem bind_ne_outOfFuel {α β : Type} {x : Except Fail α} {f : α → Except Fail β}
    (hx : x ≠ .error .outOfFuel) (hf : ∀ a, f a ≠ .error .outOfFuel) :
    x >>= f ≠ .error .outOfFuel := by
  cases x with
  | ok a => exact hf a
  | error e => exact fun h => hx (congrArg _ (Except.error.inj h))

omit [Externals] in
theorem foldlM_ne_outOfFuel {α β : Type} {f : β → α → Except Fail β}
    (hf : ∀ b a, f b a ≠ .error .outOfFuel) (l : List α) (b : β) :
    l.foldlM f b ≠ .error .outOfFuel := by
  induction l generalizing b with
  | nil => exact fun h => by cases h
  | cons a l ih => exact bind_ne_outOfFuel (hf b a) ih

theorem rowsForSimpleWhere_ne_outOfFuel (table : String) (selection : Option Expr) :
    rowsForSimpleWhere state dbId table selection params ≠ .error .outOfFuel := by
  have hscan : scanRows state dbId table ≠ .error .outOfFuel := by
    rw [scanRows]
    cases state.getTableStore dbId table <;> (intro h; cases h)
  have hids : ∀ ids, rowsFromIds state dbId table ids ≠ .error .outOfFuel := by
    intro ids
    rw [rowsFromIds]
    cases state.getTableStore dbId table <;> (intro h; cases h)
  have hrange : ∀ name lower upper,
      rangeLookup state dbId table name lower upper ≠ .error .outOfFuel := by
    intro name lower upper
    rw [rangeLookup]
    split_ifs <;> (intro h; cases h)
  unfold rowsForSimpleWhere
  split
  · exact hscan
  · simp only
    split
    · exact hids _
    · exact bind_ne_outOfFuel (hrange _ _ _) hids
    · exact hscan

theorem executeJoin_ne_outOfFuel (isFirst : Bool) (name1 : String) (rows : List Row) (join : Join) :
    executeJoin state dbId isFirst name1 rows join params ≠ .error .outOfFuel := by
  unfold executeJoin
  simp only
  cases state.getTableStore dbId (parseTableFactor join.relation).1 with
  | none => exact fun h => by cases h
  | some store2 =>
      refine bind_ne_outOfFuel (by simp) fun store2 => ?_
      cases join.joinOperator with
      | inner c | leftOuter c =>
          simp only
          split <;> (intro h; cases h)
      | _ => exact fun h => by cases h

theorem executeJoins_ne_outOfFuel (from_ : List TableWithJoins) :
    executeJoins state dbId from_ params ≠ .error .outOfFuel := by
  cases from_ with
  | nil => exact fun h => by cases h
  | cons first rest =>
      unfold executeJoins
      simp only
      cases state.getTableStore dbId (parseTableFactor first.relation).1 with
      | none => exact fun h => by cases h
      | some store1 =>
          refine bind_ne_outOfFuel (by simp) fun store1 => foldlM_ne_outOfFuel (fun rows join => ?_) _ _
          exact executeJoin_ne_outOfFuel _ _ _ _

/-! ### One step of the expansion -/

omit [Externals] in
theorem source_eq_some {name : String} (h : query.source? = some name) :
    ∃ select relation, query.body = .select select ∧ select.from_ = [⟨relation, []⟩] ∧
      (parseTableFactor relation).1 = name := by
  unfold Query.source? at h
  split at h
  · rename_i select hbody
    split at h
    · rename_i relation hfrom
      exact ⟨select, relation, hbody, hfrom, Option.some.inj h⟩
    · exact nomatch h
  · exact nomatch h

theorem readQuery_eq_some {sql : String} (h : readQuery sql = some query) :
    ∃ rest, parseStatements sql = .ok (.query query :: rest) := by
  unfold readQuery at h
  split at h
  · rename_i stmts hparse
    exact ⟨_, Option.some.inj h ▸ hparse⟩
  · exact nomatch h

/-- A view is run first; what follows does with its rows what it does with those of a table. -/
theorem executeSelect_view (params : List Value) {name : String}
    (hsource : query.source? = some name) {viewQuery : Query}
    (hview : state.viewQuery dbId name = some viewQuery) :
    ∃ finish : QueryResult → QueryResult, ∀ fuel,
      executeSelect state dbId (fuel + 1) query params =
        (executeSelect state dbId fuel viewQuery params).map finish := by
  obtain ⟨select, relation, hbody, hfrom, hname⟩ := source_eq_some hsource
  obtain ⟨sql, hsql, hread⟩ := Option.bind_eq_some_iff.mp hview
  obtain ⟨rest, hparse⟩ := readQuery_eq_some hread
  refine ⟨fun inner =>
    let rows := finishSelect state dbId query select params inner.rows
    let rows := if select.distinct then retainDistinct [] rows else rows
    let rows := rows.map fun row => row.erase "_rowid_"
    .ofRows rows (selectColumns select none rows), fun fuel => ?_⟩
  rw [executeSelect_succ hbody]
  simp only [finishedRows, hfrom, hname, hsql, hparse, bind, Except.bind, List.head?_cons]
  cases executeSelect state dbId fuel viewQuery params <;> rfl

theorem finishedRows_direct (params : List Value) {select : Select}
    (hbody : query.body = .select select)
    (hdirect : ∀ name, query.source? = some name → state.viewQuery dbId name = none) (fuel : Nat) :
    finishedRows state dbId fuel query select params =
        finishedRows state dbId 0 query select params ∧
      finishedRows state dbId fuel query select params ≠ .error .outOfFuel := by
  unfold finishedRows
  match hfrom : select.from_ with
  | [] => exact ⟨rfl, fun h => by cases h⟩
  | [⟨relation, []⟩] =>
      have hview := hdirect (parseTableFactor relation).1
        (by simp only [Query.source?, hbody, hfrom])
      simp only
      cases hsql : state.getViewDefinition dbId (parseTableFactor relation).1 with
      | none => exact ⟨rfl, bind_ne_outOfFuel (rowsForSimpleWhere_ne_outOfFuel _ _) fun _ h => by cases h⟩
      | some sql =>
          simp only
          cases hparse : parseStatements sql with
          | error e =>
              refine ⟨rfl, fun h => ?_⟩
              unfold parseStatements at hparse
              split at hparse
              · exact nomatch hparse
              · rw [← Except.error.inj hparse] at h
                exact nomatch h
          | ok stmts =>
              match stmts with
              | [] => exact ⟨rfl, fun h => by cases h⟩
              | .query viewQuery :: rest =>
                  rw [KvsState.viewQuery, hsql, Option.bind_some, readQuery, hparse] at hview
                  exact nomatch hview
              | .insert .. :: _ | .update .. :: _ | .delete .. :: _ | .createTable .. :: _
              | .alterTable .. :: _ | .createIndex .. :: _ | .createView .. :: _
              | .createVirtualTable .. :: _ | .drop .. :: _ | .startTransaction :: _ | .commit :: _
              | .rollback :: _ | .other _ :: _ => exact ⟨rfl, fun h => by cases h⟩
  | ⟨_, _ :: _⟩ :: _ | ⟨_, []⟩ :: _ :: _ =>
      exact ⟨rfl, bind_ne_outOfFuel (executeJoins_ne_outOfFuel _) fun _ h => by cases h⟩

/-- A query that no view stands behind has its result after one step. -/
theorem selectTerminates_direct
    (hdirect : ∀ name, query.source? = some name → state.viewQuery dbId name = none) :
    SelectTerminates state dbId query params := by
  refine Prog.Converges.of_succ ?_
  cases hbody : query.body with
  | select select =>
      have hrows := fun fuel => finishedRows_direct params hbody hdirect fuel
      refine ⟨executeSelect state dbId 1 query params, ?_, 0, fun fuel _ => ?_⟩
      · rw [executeSelect_succ hbody]
        exact bind_ne_outOfFuel (hrows 0).2 fun _ h => by cases h
      · change executeSelect state dbId (fuel + 1) query params = _
        rw [executeSelect_succ hbody, executeSelect_succ hbody, (hrows fuel).1]
  | values _ | other =>
      have hresult : ∀ fuel, executeSelect state dbId (fuel + 1) query params = .error (.err
          (.unsupported "Only simple SELECT statements are supported")) := by
        intro fuel
        rw [executeSelect, hbody]
        rfl
      simp only [hresult]
      exact Prog.converges_of_const (by simp)

/-! ### When a SELECT comes to an end -/

theorem ends_of_result {fuel : Nat}
    (h : executeSelect state dbId fuel query params ≠ .error .outOfFuel) {source : String}
    (hsource : query.source? = some source) : Ends (SelectsFrom state dbId) source := by
  induction fuel generalizing query source with
  | zero => exact absurd rfl h
  | succ fuel ih =>
      refine Acc.intro _ fun next hnext => ?_
      obtain ⟨viewQuery, hview, hnext⟩ := hnext
      obtain ⟨finish, hfinish⟩ := executeSelect_view params hsource hview
      rw [hfinish] at h
      exact ih (fun hout => h (by rw [hout]; rfl)) hnext

theorem terminates_of_ends {source : String} (h : Ends (SelectsFrom state dbId) source)
    (hsource : query.source? = some source) : SelectTerminates state dbId query params := by
  induction h generalizing query with
  | intro source _ ih =>
      cases hview : state.viewQuery dbId source with
      | none =>
          refine selectTerminates_direct fun name hname => ?_
          obtain rfl := Option.some.inj (hsource.symm.trans hname)
          exact hview
      | some viewQuery =>
          have hinner : SelectTerminates state dbId viewQuery params := by
            cases hnext : viewQuery.source? with
            | none => exact selectTerminates_direct fun name hname => nomatch hnext.symm.trans hname
            | some next => exact ih next ⟨viewQuery, hview, hnext⟩ hnext
          obtain ⟨finish, hfinish⟩ := executeSelect_view params hsource hview
          refine Prog.Converges.of_succ ?_
          simp only [hfinish]
          exact hinner.map finish

/-- The views of a database are finitely many. -/
theorem finite_selectsFrom : {view | ∃ source, SelectsFrom state dbId view source}.Finite := by
  refine (((state.views.get dbId).elim [] IndexMap.keys).finite_toSet).subset ?_
  rintro view ⟨source, viewQuery, hview, -⟩
  obtain ⟨sql, hsql, -⟩ := Option.bind_eq_some_iff.mp hview
  obtain ⟨views, hviews, hget⟩ := Option.bind_eq_some_iff.mp hsql
  rw [Set.mem_ofPred_eq, hviews]
  exact (views.mem_keys_iff_get view).mpr ⟨sql, hget⟩

theorem selectTerminates_iff : SelectTerminates state dbId query params ↔
    ∀ source, query.source? = some source → Straight (SelectsFrom state dbId) source := by
  constructor
  · rintro ⟨result, hresult, enough, henough⟩ source hsource
    exact (ends_of_result (henough enough le_rfl ▸ hresult) hsource).straight
  · intro h
    cases hsource : query.source? with
    | none => exact selectTerminates_direct fun name hname => nomatch hsource.symm.trans hname
    | some source => exact terminates_of_ends ((h source hsource).ends finite_selectsFrom) hsource

end

/-! ### CREATE VIEW -/

/-- A CREATE VIEW that is run. -/
def Call.createsView (c : Call) : Prop :=
  0 < c.fuel ∧ ∃ name query, c.stmt = .createView name query

/-- A CREATE VIEW whose query leads back to the view through the views there are. -/
def Call.ClosesCircle (dbId : UInt32) (s : KvsState) (c : Call) : Prop :=
  ∃ name query viewQuery source, c.stmt = .createView name query ∧
    parseStatements (queryToString query) = .ok [.query viewQuery] ∧
    viewQuery.source? = some source ∧ ReflTransGen (SelectsFrom s dbId) source name

section

variable {dbId : UInt32} {w : World} {c : Call} {name : String} {query : Query}

omit [Externals] in
theorem getViewDefinition_addView (s : KvsState) (sql name' : String) :
    (s.addView dbId name sql).getViewDefinition dbId name' =
      if name' = name then some sql else s.getViewDefinition dbId name' := by
  rw [KvsState.getViewDefinition, KvsState.addView, IndexMap.get_insert_self, Option.bind_some,
    IndexMap.get_insert, KvsState.getViewDefinition]
  cases hviews : s.views.get dbId with
  | none => rw [IndexMap.getD, hviews]; rfl
  | some views => rw [IndexMap.getD, hviews]; rfl

/-- A text that does not read back as one query leaves the views as they are. -/
theorem run_createView (dbId : UInt32) (w : World) (hfuel : 0 < c.fuel)
    (hstmt : c.stmt = .createView name query) :
    (∃ viewQuery, parseStatements (queryToString query) = .ok [.query viewQuery] ∧
      (c.run dbId w).kvs = w.kvs.addView dbId name (queryToString query)) ∨
    (∀ viewQuery, parseStatements (queryToString query) ≠ .ok [.query viewQuery]) ∧
      (c.run dbId w).kvs = w.kvs := by
  obtain ⟨fuel, hfuel⟩ := Nat.exists_eq_succ_of_ne_zero hfuel.ne'
  have hrun : c.run dbId w = (Prog.exec (createView dbId name query) w).2 := by
    rw [Call.run, hstmt, hfuel]
    rcases c.txId with _ | txId <;> rfl
  rw [hrun, createView, Prog.exec_bind, Prog.exec_ofExcept]
  cases hparse : parseStatements (queryToString query) with
  | error e => exact .inr ⟨by simp, rfl⟩
  | ok stmts =>
      match stmts with
      | [] => exact .inr ⟨by simp, rfl⟩
      | [stmt] =>
          cases stmt with
          | query viewQuery => exact .inl ⟨viewQuery, rfl, rfl⟩
          | _ => exact .inr ⟨by simp, rfl⟩
      | stmt :: _ :: _ => cases stmt <;> exact .inr ⟨by simp, rfl⟩

/-- A CREATE VIEW keeps the views free of circles unless it closes one. -/
theorem acyclic_run_iff (dbId : UInt32) (hc : c.createsView)
    (h : Acyclic (SelectsFrom w.kvs dbId)) :
    Acyclic (SelectsFrom (c.run dbId w).kvs dbId) ↔ ¬c.ClosesCircle dbId w.kvs := by
  obtain ⟨hfuel, name, query, hstmt⟩ := hc
  obtain ⟨viewQuery, hparse, hrun⟩ | ⟨hparse, hrun⟩ :=
    run_createView dbId w hfuel hstmt
  · have hview : ∀ name', (c.run dbId w).kvs.viewQuery dbId name' =
        if name' = name then some viewQuery else w.kvs.viewQuery dbId name' := by
      intro name'
      rw [KvsState.viewQuery, hrun, getViewDefinition_addView]
      split_ifs
      · rw [Option.bind_some, readQuery, hparse]
      · rfl
    have hsame : ∀ view, view ≠ name → ∀ source,
        SelectsFrom (c.run dbId w).kvs dbId view source ↔ SelectsFrom w.kvs dbId view source := by
      intro view hne source
      rw [SelectsFrom, SelectsFrom, hview, if_neg hne]
    have hnew : ∀ source, SelectsFrom (c.run dbId w).kvs dbId name source ↔
        viewQuery.source? = some source := by
      intro source
      rw [SelectsFrom, hview, if_pos rfl]
      exact ⟨fun ⟨_, heq, hsource⟩ => Option.some.inj heq ▸ hsource,
        fun hsource => ⟨_, rfl, hsource⟩⟩
    rw [acyclic_relink_iff hsame h]
    constructor
    · rintro hback ⟨name', query', viewQuery', source, hstmt', hparse', hsource, hreach⟩
      obtain ⟨rfl, rfl⟩ := Statement.createView.inj (hstmt.symm.trans hstmt')
      obtain rfl : viewQuery = viewQuery' := by
        have hlist := Except.ok.inj (hparse.symm.trans hparse')
        exact Statement.query.inj (List.cons.inj hlist).1
      exact hback source ((hnew source).mpr hsource) hreach
    · intro hopen source hsource hreach
      exact hopen ⟨name, query, viewQuery, source, hstmt, hparse, (hnew source).mp hsource, hreach⟩
  · refine iff_of_true (hrun ▸ h) ?_
    rintro ⟨name', query', viewQuery, source, hstmt', hparse', -⟩
    obtain ⟨rfl, rfl⟩ := Statement.createView.inj (hstmt.symm.trans hstmt')
    exact hparse viewQuery hparse'

end

/-! ### Runs -/

variable {dbId : UInt32} {w : World} {calls : List Call}

/-- The views stay free of circles along a run exactly if no step closes one. -/
theorem acyclic_along_run_iff (h : Acyclic (SelectsFrom w.kvs dbId))
    (hcalls : ∀ c ∈ calls, c.createsView) :
    (∀ i, Acyclic (SelectsFrom (runCalls dbId (calls.take i) w).kvs dbId)) ↔
      ∀ (i : Nat) (c : Call), calls[i]? = some c →
        ¬c.ClosesCircle dbId (runCalls dbId (calls.take i) w).kvs := by
  induction calls generalizing w with
  | nil =>
      refine iff_of_true (fun i => ?_) (by simp)
      rw [List.take_nil]
      exact h
  | cons c calls ih =>
      have hstep := acyclic_run_iff dbId (hcalls c List.mem_cons_self) h
      have htail := fun c' hc' => hcalls c' (List.mem_cons_of_mem c hc')
      constructor
      · intro hall
        have hnext : Acyclic (SelectsFrom (c.run dbId w).kvs dbId) := hall 1
        intro i c' hi
        cases i with
        | zero =>
            obtain rfl : c = c' := Option.some.inj hi
            exact hstep.mp hnext
        | succ i => exact (ih hnext htail).mp (fun j => hall (j + 1)) i c' hi
      · intro hopen i
        have hnext : Acyclic (SelectsFrom (c.run dbId w).kvs dbId) := hstep.mpr (hopen 0 c rfl)
        cases i with
        | zero => exact h
        | succ i => exact (ih hnext htail).mpr (fun j c' hj => hopen (j + 1) c' hj) i

theorem acyclic_iff_terminates {state : KvsState} : Acyclic (SelectsFrom state dbId) ↔
    ∀ query params, SelectTerminates state dbId query params := by
  constructor
  · intro h query params
    exact selectTerminates_iff.mpr fun source _ => acyclic_iff_straight.mp h source
  · intro h view hcycle
    exact (selectTerminates_iff.mp (h (.allFrom view) []) view rfl) view .refl hcycle

/-- Where CREATE VIEW made all the views there are, a SELECT comes to an end exactly if no view that
it is led to leads back to itself; and in a run of them every SELECT comes to an end at every step
exactly if no step closes a circle. -/
theorem views_terminate_iff (hnew : ∀ name, w.kvs.getViewDefinition dbId name = none)
    (hcalls : ∀ c ∈ calls, c.createsView) :
    (∀ query params, SelectTerminates (runCalls dbId calls w).kvs dbId query params ↔
      ∀ source, query.source? = some source →
        Straight (SelectsFrom (runCalls dbId calls w).kvs dbId) source) ∧
    ((∀ i query params, SelectTerminates (runCalls dbId (calls.take i) w).kvs dbId query params) ↔
      ∀ (i : Nat) (c : Call), calls[i]? = some c →
        ¬c.ClosesCircle dbId (runCalls dbId (calls.take i) w).kvs) := by
  have hstart : Acyclic (SelectsFrom w.kvs dbId) := by
    intro view hcycle
    obtain ⟨next, ⟨query, hview, -⟩, -⟩ := TransGen.head'_iff.mp hcycle
    rw [KvsState.viewQuery, hnew] at hview
    exact nomatch hview
  refine ⟨fun query params => selectTerminates_iff, ?_⟩
  rw [← acyclic_along_run_iff hstart hcalls]
  exact forall_congr' fun i => acyclic_iff_terminates.symm

namespace Sample

/-- `CREATE VIEW name AS SELECT * FROM source`. -/
def viewOf (name source : String) : Call := call (.createView name (.allFrom source)) none

def selectText (source : String) : String := "SELECT * FROM " ++ source

/-- Surroundings that print the queries on `a` and `b`, and read them back. -/
@[reducible]
def viewTexts : Externals where
  __ := Externals.ofTexts (["a", "b"].map fun s => (selectText s, [.query (.allFrom s)])) []
  queryToString query := selectText (query.source?.getD "")

end Sample

omit [Externals] in
/-- A view `b` over `a`, and no view `a`: selecting from it ends. -/
theorem views_terminate_b :
    letI := Sample.viewTexts
    SelectTerminates (Sample.after [Sample.viewOf "b" "a"]) 0 (.allFrom "b") [] := by
  let _ := Sample.viewTexts
  have hnew : ∀ name, (KvsState.new [0]).getViewDefinition 0 name = none := fun _ => rfl
  have hcreates : (Sample.viewOf "b" "a").createsView :=
    ⟨Nat.succ_pos 2, "b", Query.allFrom "a", rfl⟩
  -- nothing leads on from `a`, which is no view
  have hopen : ¬(Sample.viewOf "b" "a").ClosesCircle 0 (.new [0]) := by
    rintro ⟨name, query, viewQuery, source, hstmt, hparse, hsource, hreach⟩
    obtain ⟨rfl, rfl⟩ := Statement.createView.inj hstmt
    obtain rfl : Query.allFrom "a" = viewQuery :=
      Statement.query.inj (List.cons.inj (Except.ok.inj hparse)).1
    obtain rfl : "a" = source := Option.some.inj hsource
    obtain hab | ⟨next, ⟨query, hview, -⟩, -⟩ := hreach.cases_head
    · exact absurd hab (by decide)
    · exact nomatch hview
  have hsteps : ∀ (i : Nat) (c : Call), [Sample.viewOf "b" "a"][i]? = some c →
      ¬c.ClosesCircle 0 (runCalls 0 ([Sample.viewOf "b" "a"].take i) ⟨.new [0], []⟩).kvs := by
    intro i c hi
    cases i with
    | zero =>
        obtain rfl : Sample.viewOf "b" "a" = c := Option.some.inj hi
        exact hopen
    | succ i => exact nomatch hi
  exact (views_terminate_iff (w := ⟨.new [0], []⟩) hnew
    (List.forall_mem_singleton.mpr hcreates)).2.mpr hsteps 1 _ _

omit [Externals] in
/-- `CREATE VIEW a AS SELECT * FROM b` and `CREATE VIEW b AS SELECT * FROM a` are both accepted, and
`SELECT * FROM a` never ends. -/
theorem select_from_circle_never_ends :
    letI := Sample.viewTexts
    ¬SelectTerminates (Sample.after [Sample.viewOf "a" "b", Sample.viewOf "b" "a"]) 0
      (.allFrom "a") [] := by
  let _ := Sample.viewTexts
  intro h
  let state := Sample.after [Sample.viewOf "a" "b", Sample.viewOf "b" "a"]
  have hab : SelectsFrom state 0 "a" "b" := ⟨Query.allFrom "b", rfl, rfl⟩
  have hba : SelectsFrom state 0 "b" "a" := ⟨Query.allFrom "a", rfl, rfl⟩
  exact selectTerminates_iff.mp h "a" rfl "a" .refl (.head hab (.single hba))

end Skvs
