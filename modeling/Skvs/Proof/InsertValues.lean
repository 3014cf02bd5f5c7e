import Skvs.Proof.Quiet
import Skvs.Proof.Placeholders
import Skvs.Lib.KeyedFold

/-!
# The placeholders of a VALUES list

The parameter index starts over with every tuple, so a placeholder of a later tuple reads the
parameter of the one at the same place in the first.
-/

namespace Skvs

variable [Externals]

/-! ### Tuples -/

/-- The columns that the expressions of a tuple are for. -/
def insertColumns (schema : TableSchema) (columns : List Ident) : List String :=
  if columns.isEmpty then schema.columns.keys else columns.map Ident.value

/-- How many placeholders there are in some expressions. -/
def placeholders (es : List Expr) : Nat := (es.map countPlaceholders).sum

/-- The value of a literal, or the parameter that a placeholder stands for. -/
def boundValue (params : List Value) (k : Nat) : Expr → Value
  | .value (.placeholder _) => params.getD k .null
  | e => (eval .noRow [] e 0).1

/-- The values of a tuple whose first placeholder stands for the parameter `k`. -/
def boundValues (params : List Value) : Nat → List Expr → List Value
  | _, [] => []
  | k, e :: es => boundValue params k e :: boundValues params (k + countPlaceholders e) es

def tupleRow (cols : List String) (values : List Value) : Row :=
  (cols.zip values).foldl (fun row cv => row.insert cv.1 cv.2) ∅

/-- The rows of a VALUES list whose placeholders stand for the parameters in the order of the
text. -/
def boundRows (params : List Value) (cols : List String) : Nat → List (List Expr) → List Row
  | _, [] => []
  | k, tuple :: tuples =>
    tupleRow cols (boundValues params k tuple) ::
      boundRows params cols (k + placeholders tuple) tuples

theorem valuesRow_literals (params : List Value) (cols : List String) {es : List Expr}
    (hlit : ∀ e ∈ es, ∃ v, e = .value v) (row : Row) (k : Nat) :
    (valuesRow params cols es row k).1 =
      (cols.zip (boundValues params k es)).foldl (fun row cv => row.insert cv.1 cv.2) row := by
  induction cols generalizing es row k with
  | nil => rfl
  | cons col cols ih =>
      cases es with
      | nil => rfl
      | cons e es =>
          obtain ⟨v, rfl⟩ := hlit e List.mem_cons_self
          have hrest := ih (fun e he => hlit e (List.mem_cons_of_mem _ he))
            (row.insert col (boundValue params k (.value v))) (k + countPlaceholders (.value v))
          have heval : eval .noRow params (.value v) k =
              (boundValue params k (.value v), k + countPlaceholders (.value v)) := by
            cases v <;> rfl
          change (valuesRow params cols es
            (row.insert col (eval .noRow params (.value v) k).1)
            (eval .noRow params (.value v) k).2).1 = _
          rw [heval]
          exact hrest

theorem getElem?_boundValues (params : List Value) (es : List Expr) (k i : Nat) :
    (boundValues params k es)[i]? =
      (es[i]?).map fun e => boundValue params (k + placeholders (es.take i)) e := by
  induction es generalizing k i with
  | nil => rfl
  | cons e es ih =>
      cases i with
      | zero => simp [boundValues, placeholders]
      | succ i => simp [boundValues, placeholders, ih, Nat.add_assoc]

omit [Externals] in
/-- Two rows made of values for the same columns are the same as far as no later value is for the
same column. -/
theorem foldl_insert_get_iff (cols : List String) {vs vs' : List Value}
    (h : vs.length = cols.length) (h' : vs'.length = cols.length) (m m' : Row) :
    (∀ c, ((cols.zip vs).foldl (fun row cv => row.insert cv.1 cv.2) m).get c =
        ((cols.zip vs').foldl (fun row cv => row.insert cv.1 cv.2) m').get c) ↔
      (∀ i c, cols[i]? = some c → c ∉ cols.drop (i + 1) → vs[i]? = vs'[i]?) ∧
        ∀ c, c ∉ cols → m.get c = m'.get c := by
  induction cols generalizing vs vs' m m' with
  | nil => simp
  | cons col cols ih =>
      rcases vs with _ | ⟨v, vs⟩
      · cases h
      rcases vs' with _ | ⟨v', vs'⟩
      · cases h'
      have hrest := ih (Nat.succ.inj h) (Nat.succ.inj h') (m.insert col v) (m'.insert col v')
      refine hrest.trans ⟨?_, ?_⟩
      · rintro ⟨hvalues, hold⟩
        refine ⟨fun i c hi hc => ?_, fun c hc => ?_⟩
        · cases i with
          | zero =>
              obtain rfl := Option.some.inj hi
              have hcol := hold col hc
              rw [IndexMap.get_insert_self, IndexMap.get_insert_self] at hcol
              exact hcol
          | succ i => exact hvalues i c hi hc
        · rw [List.mem_cons, not_or] at hc
          have hget := hold c hc.2
          rwa [IndexMap.get_insert, IndexMap.get_insert, if_neg hc.1, if_neg hc.1] at hget
      · rintro ⟨hvalues, hold⟩
        refine ⟨fun i c hi hc => hvalues (i + 1) c hi hc, fun c hc => ?_⟩
        rw [IndexMap.get_insert, IndexMap.get_insert]
        split_ifs with hcol
        · subst hcol
          exact hvalues 0 c rfl hc
        · exact hold c fun hin => (List.mem_cons.mp hin).elim hcol hc

/-! ### Rows with their defaults -/

omit [Externals] in
theorem get_withDefaults (schema : TableSchema) (rowid : RowId) (row : Row) (col : String) :
    (withDefaults schema rowid row).get col =
      (row.get col).or ((schema.columns.get col).map fun colDef => defaultValue colDef rowid) := by
  have hfold := (foldl_keyed (fun (row : Row) (e : String × ColumnDef) =>
      row.insertIfNew e.1 (defaultValue e.2 rowid)) IndexMap.get
    (fun _ colDef v => v.or (some (defaultValue colDef rowid))) (fun _ => True)
    (fun _ _ _ => trivial) (fun row e c _ => ?_) schema.columns.nodup (s := row) trivial col).2
  · refine hfold.trans ?_
    rw [show schema.columns.entries.lookup col = schema.columns.get col from rfl]
    cases schema.columns.get col with
    | none => exact Option.or_none.symm
    | some colDef => rfl
  · rw [IndexMap.get_insertIfNew]
    split_ifs with hc
    · rw [hc, IndexMap.getD]
      cases row.get e.1 <;> rfl
    · rfl

/-! ### The writes of an INSERT -/

/-- From `w` to `w'` these rows, with their defaults, are written into a table one after the
other. -/
def Stores (dbId : UInt32) (table : String) (schema : TableSchema) (w w' : World)
    (rows : List Row) : Prop :=
  ∃ news, w'.writes = w.writes ++ news ∧ List.Forall₂ (fun (x : Write) row =>
    x.dbId = dbId ∧ x.table = table ∧
      ∃ stored, x.after = some stored ∧ stored.get = (withDefaults schema x.rowid row).get) news rows

section Writes

open Prog

variable {dbId : UInt32} {txId : Option UInt32} {table : String} {fire : Fire}

variable (hfire : TableQuiet dbId table fire)
include hfire

theorem insertRow_stores {w w' : World} (hno : w.kvs.getTriggers dbId table = []) {schema : TableSchema}
    {affected m : UInt64} {row : Row}
    (hok : exec (insertRow fire dbId table schema txId affected row) w = (.ok m, w')) :
    w'.kvs.getTriggers dbId table = [] ∧ Stores dbId table schema w w' [row] := by
  obtain ⟨-, rfl⟩ := insertRow_ok hfire hno rfl hok
  exact ⟨(getTriggers_store ..).trans hno, _, rfl, .cons ⟨rfl, rfl, _, rfl, rfl⟩ .nil⟩

theorem insertRows_stores {rows : List Row} {w w' : World}
    (hno : w.kvs.getTriggers dbId table = []) {schema : TableSchema} {affected m : UInt64}
    (hok : exec (rows.foldlM (insertRow fire dbId table schema txId) affected) w = (.ok m, w')) :
    Stores dbId table schema w w' rows := by
  induction rows generalizing w affected with
  | nil =>
      obtain rfl : w = w' := congrArg Prod.snd hok
      exact ⟨[], (List.append_nil _).symm, .nil⟩
  | cons row rows ih =>
      rw [List.foldlM_cons, exec_bind] at hok
      rcases hfirst : exec (insertRow fire dbId table schema txId affected row) w with ⟨e | n, w₁⟩
      · rw [hfirst] at hok
        cases congrArg Prod.fst hok
      · rw [hfirst] at hok
        obtain ⟨hno₁, first, hfirst, hrow⟩ := insertRow_stores hfire hno hfirst
        obtain ⟨news, hwrites, hall⟩ := ih hno₁ hok
        exact ⟨first ++ news, by rw [hwrites, hfirst, List.append_assoc],
          List.rel_append hrow hall⟩

theorem executeInsert_stores {w w' : World} (hno : w.kvs.getTriggers dbId table = [])
    {schema : TableSchema} (hschema : w.kvs.getSchema dbId table = some schema) {fuel : Nat}
    {columns : List Ident} {source : Query} {tuples : List (List Expr)}
    (hbody : source.body = .values tuples) (hne : tuples ≠ []) {params : List Value}
    {result : QueryResult}
    (hok : exec (executeInsert fire fuel dbId table columns (some source) params txId) w =
      (.ok result, w')) :
    Stores dbId table schema w w' (tuples.map fun tuple =>
      (valuesRow params (insertColumns schema columns) tuple ∅ 0).1) := by
  have hrows : candidateRows w.kvs fuel dbId schema columns (some source) params =
      .ok (tuples.map fun tuple =>
        (valuesRow params (insertColumns schema columns) tuple ∅ 0).1) := by
    obtain ⟨tuple, tuples, rfl⟩ := List.exists_cons_of_ne_nil hne
    simp only [candidateRows, hbody]
    rfl
  unfold executeInsert at hok
  rw [exec_bind_ok (exec_read World.kvs w), hschema] at hok
  rw [exec_bind_ok (show exec (orRaise (some schema) (tableNotFound table)) w = (.ok schema, w)
    from rfl)] at hok
  cases hstore : w.kvs.getTableStore dbId table with
  | none =>
      rw [hstore, exec_bind_error (show exec (orRaise (none : Option Store) _) w = (.error _, w)
        from rfl)] at hok
      cases congrArg Prod.fst hok
  | some store =>
      rw [hstore, exec_bind_ok (show exec (orRaise (some store) _) w = (.ok store, w) from rfl),
        hrows, exec_bind_ok (exec_ofExcept _ w), exec_bind] at hok
      rcases hfold : exec (List.foldlM (insertRow fire dbId table schema txId) 0
        (tuples.map fun tuple => (valuesRow params (insertColumns schema columns) tuple ∅ 0).1)) w
        with ⟨e | m, w₁⟩
      · rw [hfold] at hok
        cases congrArg Prod.fst hok
      · rw [hfold] at hok
        obtain rfl : w₁ = w' := congrArg Prod.snd hok
        exact insertRows_stores hfire hno hfold

end Writes

/-- An INSERT at the top level, under a transaction or under one of its own. -/
theorem executeStatement_insert_stores {fuel : Nat} {dbId : UInt32} {table : String}
    {columns : List Ident} {source : Query} {tuples : List (List Expr)}
    (hbody : source.body = .values tuples) (hne : tuples ≠ []) {params : List Value}
    {txId : Option UInt32} {w w' : World} (hno : w.kvs.getTriggers dbId table = [])
    {schema : TableSchema} (hschema : w.kvs.getSchema dbId table = some schema)
    {result : QueryResult}
    (hok : Prog.exec (executeStatement fuel dbId (.insert table columns (some source)) params txId) w =
      (.ok result, w')) :
    Stores dbId table schema w w' (tuples.map fun tuple =>
      (valuesRow params (insertColumns schema columns) tuple ∅ 0).1) := by
  have hsingle : ∀ {txId : Option UInt32} {w w' : World} {result : QueryResult},
      w.kvs.getTriggers dbId table = [] → w.kvs.getSchema dbId table = some schema →
      Prog.exec (executeSingleStatement fuel dbId (.insert table columns (some source)) params txId) w =
        (.ok result, w') →
      Stores dbId table schema w w' (tuples.map fun tuple =>
        (valuesRow params (insertColumns schema columns) tuple ∅ 0).1) := by
    intro txId w w' result hno hschema hok
    cases fuel with
    | zero => cases congrArg Prod.fst hok
    | succ fuel =>
        exact executeInsert_stores (fireTriggers_tableQuiet _) hno hschema hbody hne hok
  rw [executeStatement_write rfl] at hok
  cases txId with
  | some id => exact hsingle hno hschema hok
  | none =>
      simp only [exec_executeAtomically] at hok
      rcases hexec : Prog.exec (executeSingleStatement fuel dbId
        (.insert table columns (some source)) params (some w.kvs.txns.nextId)) (w.begin dbId)
        with ⟨outcome, w₁⟩
      rw [hexec] at hok
      cases outcome with
      | error e => cases e <;> cases congrArg Prod.fst hok
      | ok result' =>
          obtain ⟨news, hwrites, hall⟩ := hsingle (w := w.begin dbId) hno hschema hexec
          obtain ⟨_, hframe⟩ := commit_frame w₁ w.kvs.txns.nextId
          have hw' : w'.writes = w₁.writes := by
            rw [← show w₁.commit w.kvs.txns.nextId = w' from congrArg Prod.snd hok, hframe]
          exact ⟨news, hw'.trans hwrites, hall⟩

/-! ### Text order -/

/-- Each placeholder whose value is stored finds the same parameter counted from the start of the
tuple and counted from `o`. -/
def TupleAgrees (params : List Value) (cols : List String) (o : Nat) (tuple : List Expr) : Prop :=
  ∀ i col s, cols[i]? = some col → col ∉ cols.drop (i + 1) →
    tuple[i]? = some (.value (.placeholder s)) →
      params.getD (placeholders (tuple.take i)) .null =
        params.getD (o + placeholders (tuple.take i)) .null

theorem length_boundValues (params : List Value) (k : Nat) (es : List Expr) :
    (boundValues params k es).length = es.length := by
  induction es generalizing k with
  | nil => rfl
  | cons e es ih => exact congrArg Nat.succ (ih _)

omit [Externals] in
theorem isSome_get_foldl_insert (cols : List String) {vs : List Value}
    (h : vs.length = cols.length) (m : Row) (c : String) :
    (((cols.zip vs).foldl (fun row cv => row.insert cv.1 cv.2) m).get c).isSome ↔
      c ∈ cols ∨ (m.get c).isSome := by
  induction cols generalizing vs m with
  | nil => simp
  | cons col cols ih =>
      cases vs with
      | nil => cases h
      | cons v vs =>
          refine (ih (Nat.succ.inj h) (m.insert col v)).trans ?_
          rw [IndexMap.get_insert, List.mem_cons]
          split_ifs with hc <;> simp [hc]

theorem tupleRow_get_eq_iff (params : List Value) {cols : List String} {tuple : List Expr}
    (hlen : tuple.length = cols.length) (hlit : ∀ e ∈ tuple, ∃ v, e = .value v) (o : Nat) :
    (tupleRow cols (boundValues params 0 tuple)).get =
        (tupleRow cols (boundValues params o tuple)).get ↔ TupleAgrees params cols o tuple := by
  rw [funext_iff]
  refine (foldl_insert_get_iff cols ((length_boundValues ..).trans hlen)
    ((length_boundValues ..).trans hlen) ∅ ∅).trans ?_
  simp only [getElem?_boundValues, implies_true, and_true, Nat.zero_add]
  constructor
  · intro h i col s hcol hlast hs
    have hvalue := h i col hcol hlast
    rw [hs] at hvalue
    exact Option.some.inj hvalue
  · intro h i col hcol hlast
    cases he : tuple[i]? with
    | none => rfl
    | some e =>
        obtain ⟨v, rfl⟩ := hlit e (List.mem_of_getElem? he)
        cases v with
        | placeholder s => exact congrArg some (h i col s hcol hlast he)
        | _ => rfl

omit [Externals] in
/-- The rows that are stored are told apart by the rows that are asked for. -/
theorem stores_iff {dbId : UInt32} {table : String} {schema : TableSchema} {w w' : World}
    {rows rows' : List Row} (h : Stores dbId table schema w w' rows)
    (hcols : List.Forall₂ (fun (row row' : Row) => ∀ c, (row.get c).isSome = (row'.get c).isSome)
      rows rows') :
    Stores dbId table schema w w' rows' ↔
      List.Forall₂ (fun (row row' : Row) => row.get = row'.get) rows rows' := by
  obtain ⟨news, hwrites, hall⟩ := h
  have hsame : ∀ (rowid : RowId) {row row' : Row}, (∀ c, (row.get c).isSome = (row'.get c).isSome) →
      ((withDefaults schema rowid row).get = (withDefaults schema rowid row').get ↔
        row.get = row'.get) := by
    intro rowid row row' hdom
    simp only [funext_iff, get_withDefaults]
    refine forall_congr' fun c => ?_
    have hc := hdom c
    cases hrow : row.get c <;> cases hrow' : row'.get c <;> simp_all
  have hnews : Stores dbId table schema w w' rows' ↔ List.Forall₂ (fun (x : Write) row =>
      x.dbId = dbId ∧ x.table = table ∧
        ∃ stored, x.after = some stored ∧ stored.get = (withDefaults schema x.rowid row).get)
        news rows' := by
    constructor
    · rintro ⟨news', hwrites', hall'⟩
      rwa [List.append_cancel_left (hwrites.symm.trans hwrites')]
    · exact fun hall' => ⟨news, hwrites, hall'⟩
  rw [hnews]
  clear hnews hwrites
  induction hall generalizing rows' with
  | nil =>
      cases hcols
      exact ⟨fun _ => .nil, fun _ => .nil⟩
  | @cons x row news rows hx _ ih =>
      cases hcols with
      | @cons _ row' _ rows' hdom hcols =>
          obtain ⟨hdb, htable, stored, hafter, hget⟩ := hx
          rw [List.forall₂_cons, List.forall₂_cons]
          refine and_congr ?_ (ih hcols)
          rw [← hsame x.rowid hdom]
          constructor
          · rintro ⟨-, -, stored', hafter', hget'⟩
            obtain rfl := Option.some.inj (hafter.symm.trans hafter')
            exact hget.symm.trans hget'
          · intro heq
            exact ⟨hdb, htable, stored, hafter, hget.trans heq⟩

theorem isSome_get_tupleRow (params : List Value) {cols : List String} {tuple : List Expr}
    (hlen : tuple.length = cols.length) (k : Nat) (c : String) :
    ((tupleRow cols (boundValues params k tuple)).get c).isSome = decide (c ∈ cols) := by
  have h := isSome_get_foldl_insert cols ((length_boundValues params k tuple).trans hlen) ∅ c
  rw [Bool.eq_iff_iff, decide_eq_true_iff]
  refine h.trans ?_
  simp

/-- Whatever the parameters, a tuple has values for the same columns. -/
theorem boundRows_columns (params : List Value) {cols : List String} {tuples : List (List Expr)}
    (hlen : ∀ tuple ∈ tuples, tuple.length = cols.length) (k : Nat) :
    List.Forall₂ (fun (row row' : Row) => ∀ c, (row.get c).isSome = (row'.get c).isSome)
      (tuples.map fun tuple => tupleRow cols (boundValues params 0 tuple))
      (boundRows params cols k tuples) := by
  induction tuples generalizing k with
  | nil => exact .nil
  | cons tuple tuples ih =>
      refine .cons (fun c => ?_) (ih (fun t ht => hlen t (List.mem_cons_of_mem _ ht)) _)
      have hfirst := hlen tuple List.mem_cons_self
      rw [isSome_get_tupleRow params hfirst, isSome_get_tupleRow params hfirst]

/-- The rows of a VALUES list in text order are those that the tuples give one by one, exactly if
each tuple finds the parameters that it would find there. -/
theorem boundRows_get_eq_iff (params : List Value) {cols : List String} {tuples : List (List Expr)}
    (hlen : ∀ tuple ∈ tuples, tuple.length = cols.length)
    (hlit : ∀ tuple ∈ tuples, ∀ e ∈ tuple, ∃ v, e = .value v) (k : Nat) :
    List.Forall₂ (fun (row row' : Row) => row.get = row'.get)
        (tuples.map fun tuple => tupleRow cols (boundValues params 0 tuple))
        (boundRows params cols k tuples) ↔
      ∀ j tuple, tuples[j]? = some tuple →
        TupleAgrees params cols (k + ((tuples.take j).map placeholders).sum) tuple := by
  induction tuples generalizing k with
  | nil => simp [boundRows]
  | cons tuple tuples ih =>
      have hrest := ih (fun t ht => hlen t (List.mem_cons_of_mem _ ht))
        (fun t ht => hlit t (List.mem_cons_of_mem _ ht)) (k + placeholders tuple)
      have hfirst := tupleRow_get_eq_iff params (hlen tuple List.mem_cons_self)
        (hlit tuple List.mem_cons_self) k
      rw [List.map_cons, boundRows, List.forall₂_cons, hfirst, hrest]
      constructor
      · rintro ⟨hagrees, hall⟩ j t ht
        cases j with
        | zero => exact Option.some.inj ht ▸ hagrees
        | succ j =>
            have hj := hall j t ht
            rwa [Nat.add_assoc] at hj
      · intro h
        refine ⟨h 0 tuple rfl, fun j t ht => ?_⟩
        have hj := h (j + 1) t ht
        rwa [List.take_succ_cons, List.map_cons, List.sum_cons, ← Nat.add_assoc] at hj

/-- An INSERT that succeeds on a table without triggers stores its tuples with the `k`-th
placeholder of the text bound to the `k`-th parameter, exactly if each placeholder whose value is
stored finds the same parameter when the count starts over with its tuple. -/
theorem insert_binds_iff {fuel : Nat} {dbId : UInt32} {table : String} {columns : List Ident}
    {source : Query} {tuples : List (List Expr)} (hbody : source.body = .values tuples)
    (hne : tuples ≠ []) (params : List Value) {txId : Option UInt32} {w w' : World}
    (hno : w.kvs.getTriggers dbId table = []) {schema : TableSchema}
    (hschema : w.kvs.getSchema dbId table = some schema)
    (hlen : ∀ tuple ∈ tuples, tuple.length = (insertColumns schema columns).length)
    (hlit : ∀ tuple ∈ tuples, ∀ e ∈ tuple, ∃ v, e = .value v) {result : QueryResult}
    (hok : Prog.exec (executeStatement fuel dbId (.insert table columns (some source)) params txId) w =
      (.ok result, w')) :
    Stores dbId table schema w w' (boundRows params (insertColumns schema columns) 0 tuples) ↔
      ∀ j tuple, tuples[j]? = some tuple →
        TupleAgrees params (insertColumns schema columns)
          (((tuples.take j).map placeholders).sum) tuple := by
  have hstores := executeStatement_insert_stores hbody hne hno hschema hok
  have hrows : (tuples.map fun tuple =>
      (valuesRow params (insertColumns schema columns) tuple ∅ 0).1) =
        tuples.map fun tuple => tupleRow (insertColumns schema columns)
          (boundValues params 0 tuple) := by
    refine List.map_congr_left fun tuple htuple => ?_
    exact valuesRow_literals params _ (hlit tuple htuple) ∅ 0
  rw [hrows] at hstores
  have hagrees := boundRows_get_eq_iff params hlen hlit 0
  simp only [Nat.zero_add] at hagrees
  rw [stores_iff hstores (boundRows_columns params hlen 0), hagrees]

namespace Sample

/-- `INSERT INTO t (a) VALUES …`. -/
def insertTuples (tuples : List (List Expr)) : Statement :=
  .insert "t" [column "a"] (some ⟨.values tuples, [], none, none⟩)

def emptyTable : World :=
  letI := Externals.ofTexts [] []
  ⟨after [call (create []) none], []⟩

def tableSchema : TableSchema := (emptyTable.kvs.getSchema 0 "t").getD (emptySchema "t")

end Sample

omit [Externals] in
/-- `VALUES (?), (?)` with the parameters 1 and 2: both rows get the first parameter. -/
theorem second_tuple_misbound :
    letI := Externals.ofTexts [] []
    let tuples := [[questionMark], [questionMark]]
    let params := [Value.integer 1, .integer 2]
    let run := Prog.exec (executeStatement 3 0 (Sample.insertTuples tuples) params none)
      Sample.emptyTable
    Sample.emptyTable.kvs.getSchema 0 "t" = some Sample.tableSchema ∧
      run.1 = .ok (.affected 2) ∧
      ¬Stores 0 "t" Sample.tableSchema Sample.emptyTable run.2
        (boundRows params (insertColumns Sample.tableSchema [column "a"]) 0 tuples) := by
  let _ := Externals.ofTexts [] []
  intro tuples params run
  obtain ⟨hschema, hok, hwrites, hrows⟩ :
      Sample.emptyTable.kvs.getSchema 0 "t" = some Sample.tableSchema ∧
        run.1 = .ok (.affected 2) ∧
        run.2.writes = [⟨some 1, 0, "t", 1, none, none, some (Sample.row 1)⟩,
          ⟨some 1, 0, "t", 2, none, none, some (Sample.row 1)⟩] ∧
        boundRows params (insertColumns Sample.tableSchema [column "a"]) 0 tuples =
          [Sample.row 1, Sample.row 2] := by
    decide
  refine ⟨hschema, hok, ?_⟩
  rintro ⟨news, hnews, hall⟩
  obtain rfl := hwrites.symm.trans hnews
  rw [hrows] at hall
  obtain ⟨-, -, stored, hafter, hget⟩ := (List.forall₂_cons.mp (List.forall₂_cons.mp hall).2).1
  obtain rfl := Option.some.inj hafter
  exact absurd (congrFun hget "a") (by decide)

omit [Externals] in
/-- `VALUES (?), (7)` binds its placeholder. -/
theorem first_tuple_bound :
    letI := Externals.ofTexts [] []
    let tuples := [[questionMark], [.value (.number "7")]]
    let run := Prog.exec (executeStatement 3 0 (Sample.insertTuples tuples) [.integer 1] none)
      Sample.emptyTable
    Stores 0 "t" Sample.tableSchema Sample.emptyTable run.2
      (boundRows [.integer 1] (insertColumns Sample.tableSchema [column "a"]) 0 tuples) := by
  let _ := Externals.ofTexts [] []
  intro tuples run
  obtain ⟨hschema, hok, hno, hcols⟩ :
      Sample.emptyTable.kvs.getSchema 0 "t" = some Sample.tableSchema ∧
        run.1 = .ok (.affected 2) ∧ Sample.emptyTable.kvs.getTriggers 0 "t" = [] ∧
        insertColumns Sample.tableSchema [column "a"] = ["a"] := by
    decide
  refine (insert_binds_iff rfl (List.cons_ne_nil _ _) [.integer 1] hno hschema
    ?_ ?_ (Prod.ext hok rfl)).mpr ?_
  · rw [hcols]
    simp
  · simp [questionMark]
  · intro j tuple htuple i col s _ _ hs
    match j, htuple with
    | 0, _ => simp
    | 1, htuple =>
        obtain rfl := Option.some.inj htuple
        have hin := List.mem_of_getElem? hs
        simp at hin

end Skvs
