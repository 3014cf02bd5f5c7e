import Skvs.Proof.Joins
import Skvs.Proof.WhereAgreement

/-!
# The parameters of an UPDATE

The WHERE clause reads its parameters after as many as the SET list counts, and for every row that it
finds the SET list is read from the first parameter on. Both come out as the text has it where the
evaluation of the SET list reads each of its placeholders once.
-/

namespace Skvs

open Prog

/-! ### The SET list -/

section SetList

variable [Externals] (params : List Value)

/-- Each SET expression, started at its place in the text of the list, leaves nothing unread, reads
nothing again, and holds no placeholder that is never looked at. -/
def SetExact (oldRow : Row) : List Assignment → Nat → Prop
  | [], _ => True
  | assignment :: assignments, k =>
    hiddenPlaceholders assignment.value = 0 ∧
      tally (.withRow oldRow) params assignment.value k = 0 ∧
      SetExact oldRow assignments (k + countPlaceholders assignment.value)

/-- The placeholders in the text of a SET list. -/
def setText (assignments : List Assignment) : Nat :=
  (assignments.map fun assignment =>
    countPlaceholders assignment.value + hiddenPlaceholders assignment.value).sum

/-- The row a SET list asks for when its `k`-th placeholder is the `k`-th parameter. -/
def positionalRow (oldRow : Row) : List Assignment → Nat → Row → Row
  | [], _, newRow => newRow
  | assignment :: assignments, k, newRow =>
    positionalRow oldRow assignments
      (k + (countPlaceholders assignment.value + hiddenPlaceholders assignment.value))
      (newRow.insert (assignedColumn assignment)
        (positionalEval (.withRow oldRow) params assignment.value k))

theorem applyAssignments_positional {oldRow : Row} {assignments : List Assignment} {k : Nat}
    (h : SetExact params oldRow assignments k) (newRow : Row) :
    (applyAssignments params oldRow assignments newRow k).1 =
      positionalRow params oldRow assignments k newRow := by
  induction assignments generalizing k newRow with
  | nil => rfl
  | cons assignment assignments ih =>
      obtain ⟨hhidden, htally, hrest⟩ := h
      obtain ⟨hrun, hcount⟩ := reading_spec (.withRow oldRow) params assignment.value
      have hexact := (reading_lawful (.withRow oldRow) params assignment.value).exact k
        ((reading_hidden _ _ _).trans hhidden) htally
      change (applyAssignments params oldRow assignments
        (newRow.insert (assignedColumn assignment)
          (eval (.withRow oldRow) params assignment.value k).1)
        (eval (.withRow oldRow) params assignment.value k).2).1 = _
      rw [← hrun, hexact, hcount, positionalRow, hhidden, Nat.add_zero]
      exact ih hrest _

omit [Externals] in
theorem setParamCount_eq_iff (assignments : List Assignment) :
    setParamCount assignments = setText assignments ↔
      ∀ assignment ∈ assignments, hiddenPlaceholders assignment.value = 0 := by
  induction assignments with
  | nil => simp [setParamCount, setText]
  | cons assignment assignments ih =>
      have hle : ∀ l : List Assignment, setParamCount l ≤ setText l := fun l => by
        induction l with
        | nil => exact Nat.le_refl 0
        | cons x l ih =>
            simp only [setParamCount, setText, List.map_cons, List.sum_cons] at ih ⊢
            omega
      have htail := hle assignments
      rw [List.forall_mem_cons, ← ih]
      simp only [setParamCount, setText, List.map_cons, List.sum_cons] at htail ⊢
      omega

end SetList

/-! ### The statement -/

section Statement

variable [Externals] (fire : Fire) (dbId : UInt32)

/-- UPDATE of one row, whatever is made of it. -/
def updateRowTo (table : String) (schema : TableSchema) (txId : Option UInt32)
    (newRow : Row → Row) (affected : UInt64) (entry : RowId × Row) : Db UInt64 := do
  let (rowid, oldRow) := entry
  let newRow := newRow oldRow
  let state ← Prog.read World.kvs
  check (validateConstraints state dbId schema newRow rowid)
  fire table .update .before (some oldRow) (some newRow)
  writeRow txId dbId table rowid (some oldRow) (some newRow)
  journal txId (.update table rowid oldRow)
  onState fun s => updateIndexes s dbId table newRow rowid (.update oldRow)
  onState fun s => syncFtsIndexChange s dbId table rowid (some oldRow) (some newRow)
  fire table .update .after (some oldRow) (some newRow)
  return affected + 1

/-- UPDATE of the rows that the WHERE clause finds when it reads from a given parameter on. -/
def executeUpdateTo (relation : TableFactor) (newRow : Row → Row) (start : Nat)
    (selection : Option Expr) (params : List Value) (txId : Option UInt32) : Db QueryResult := do
  let table := relation.name
  let state ← Prog.read World.kvs
  let store ← orRaise (state.getTableStore dbId table) (tableNotFound table)
  let schema ← orRaise (state.getSchema dbId table) (.schema s!"Schema for {table} not found")
  let affected ← (matchingRows state dbId store selection params start).foldlM
    (updateRowTo fire dbId table schema txId newRow) 0
  return .affected affected

variable (relation : TableFactor) (assignments : List Assignment) (selection : Option Expr)
  (params : List Value) (txId : Option UInt32)

theorem executeUpdate_eq : executeUpdate fire dbId relation assignments selection params txId =
    executeUpdateTo fire dbId relation (updatedRow assignments params) (setParamCount assignments)
      selection params txId := rfl

/-- UPDATE as the text has it: the `k`-th placeholder of the SET list is the `k`-th parameter, and
those of the WHERE clause come after them. -/
def positionalUpdate : Db QueryResult :=
  executeUpdateTo fire dbId relation
    (fun oldRow => positionalRow params oldRow assignments 0 oldRow) (setText assignments) selection
    params txId

/-- Where the WHERE clause has placeholders and there is a row to read them for, the SET list has
none that are never looked at; and on each row that the statement gets to it reads each of its own
once. -/
structure UpdateExact (w : World) (store : Store) (schema : TableSchema) : Prop where
  start : store.entries ≠ [] → (∃ e, selection = some e ∧ countPlaceholders e ≠ 0) →
    ∀ assignment ∈ assignments, hiddenPlaceholders assignment.value = 0
  sets : AlongFold (updateRow fire dbId relation.name schema txId assignments params)
    (fun _ entry _ => SetExact params entry.2 assignments 0) 0
    (matchingRows w.kvs dbId store selection params (setParamCount assignments)) w

variable {fire dbId relation assignments selection params txId}

theorem UpdateExact.matchingRows_eq {w : World} {store : Store} {schema : TableSchema}
    (h : UpdateExact fire dbId relation assignments selection params txId w store schema) :
    matchingRows w.kvs dbId store selection params (setText assignments) =
      matchingRows w.kvs dbId store selection params (setParamCount assignments) := by
  refine List.filter_congr fun entry hentry => ?_
  cases selection with
  | none => rfl
  | some e =>
      by_cases hfree : countPlaceholders e = 0
      · simp only [whereHolds_index params w.kvs dbId entry.2 hfree (setParamCount assignments),
          whereHolds_index params w.kvs dbId entry.2 hfree (setText assignments)]
      · have hne : store.entries ≠ [] := List.ne_nil_of_mem ((hashOrder_perm _).subset hentry)
        rw [(setParamCount_eq_iff assignments).mpr (h.start hne ⟨e, rfl, hfree⟩)]

theorem exec_executeUpdate_positional {w : World}
    (h : ∀ store schema, w.kvs.getTableStore dbId relation.name = some store →
      w.kvs.getSchema dbId relation.name = some schema →
      UpdateExact fire dbId relation assignments selection params txId w store schema) :
    exec (executeUpdate fire dbId relation assignments selection params txId) w =
      exec (positionalUpdate fire dbId relation assignments selection params txId) w := by
  rw [executeUpdate_eq, positionalUpdate, executeUpdateTo, executeUpdateTo,
    exec_bind_ok (exec_read World.kvs w), exec_bind_ok (exec_read World.kvs w)]
  cases hstore : w.kvs.getTableStore dbId relation.name with
  | none => rfl
  | some store =>
    cases hschema : w.kvs.getSchema dbId relation.name with
    | none => rfl
    | some schema =>
      have hexact := h store schema hstore hschema
      have hrows : exec ((matchingRows w.kvs dbId store selection params
            (setParamCount assignments)).foldlM
          (updateRowTo fire dbId relation.name schema txId (updatedRow assignments params)) 0) w =
          exec ((matchingRows w.kvs dbId store selection params (setText assignments)).foldlM
            (updateRowTo fire dbId relation.name schema txId fun oldRow =>
              positionalRow params oldRow assignments 0 oldRow) 0) w := by
        rw [hexact.matchingRows_eq]
        refine exec_foldlM_congr hexact.sets fun affected entry w' hset => ?_
        have hrow : updatedRow assignments params entry.2 =
            positionalRow params entry.2 assignments 0 entry.2 :=
          applyAssignments_positional params hset entry.2
        rw [updateRowTo, updateRowTo, hrow]
      rw [exec_bind_ok (exec_orRaise_some ..), exec_bind_ok (exec_orRaise_some ..),
        exec_bind_ok (exec_orRaise_some ..), exec_bind_ok (exec_orRaise_some ..), exec_bind,
        exec_bind, hrows]

/-- `eval` advances its index by the placeholder count exactly when what it leaves unread is as much
as what it reads again; and where an UPDATE leaves nothing unread in its SET list and reads nothing
again, it is the UPDATE whose placeholders are bound in the order of the text, those of the WHERE
clause after those of the SET list. -/
theorem eval_advances_and_update_binds :
    (∀ ctx params e i, (eval ctx params e i).2 = i + countPlaceholders e ↔
      (tally ctx params e i).unread = (tally ctx params e i).reread) ∧
    (∀ fire dbId relation assignments selection params txId w,
      (∀ store schema, w.kvs.getTableStore dbId relation.name = some store →
        w.kvs.getSchema dbId relation.name = some schema →
        UpdateExact fire dbId relation assignments selection params txId w store schema) →
      exec (executeUpdate fire dbId relation assignments selection params txId) w =
        exec (positionalUpdate fire dbId relation assignments selection params txId) w) :=
  ⟨eval_advances_iff, fun _ _ _ _ _ _ _ _ => exec_executeUpdate_positional⟩

end Statement

namespace Sample

/-- `t (a, b, c)` with the row `(1, 2, 9)`. -/
def threeColumns : World :=
  letI := Externals.ofTexts [] []
  ⟨after (filled "t" ["a", "b", "c"] [[.number "1", .number "2", .number "9"]]), []⟩

def threeColumnsRow : Row := .ofList [("a", .integer 1), ("b", .integer 2), ("c", .integer 9)]

/-- `UPDATE t SET assignments WHERE c = ?`. -/
def updateWhereC (assignments : List (String × Expr)) : Statement :=
  .update ⟨.table "t" none, []⟩ (assignments.map fun x => ⟨[column x.1], x.2⟩)
    (some (.binaryOp (.identifier (column "c")) .eq questionMark))

end Sample

/-- `? AND ?` with a false first parameter reads one of its two placeholders, so in
`UPDATE t SET a = ? AND ?, b = ? WHERE c = ?` the column `b` gets the second parameter instead of
the third. -/
theorem and_shifts_update :
    letI := Externals.ofTexts [] []
    let conj := Expr.binaryOp questionMark .and questionMark
    let params := [.integer 0, .integer 7, .integer 5, .integer 9]
    let w := (exec (executeSingleStatement 3 0
      (Sample.updateWhereC [("a", conj), ("b", questionMark)]) params none) Sample.threeColumns).2
    (eval .noRow params conj 0).2 ≠ 0 + countPlaceholders conj ∧
      (w.kvs.row ⟨0, "t", 1⟩).bind (·.get "b") = some (.integer 7) := by
  decide

/-- `UPDATE t SET a = ?, b = a WHERE c = ?`. -/
theorem update_binds_two :
    letI := Externals.ofTexts [] []
    let fire := fireTriggers (fun s => executeSingleStatement 2 0 s [] none) 0
    let assignments : List Assignment :=
      [⟨[column "a"], questionMark⟩, ⟨[column "b"], .identifier (column "a")⟩]
    let selection := some (.binaryOp (.identifier (column "c")) .eq questionMark)
    let params := [.integer 5, .integer 9]
    exec (executeUpdate fire 0 (.table "t" none) assignments selection params none)
        Sample.threeColumns =
      exec (positionalUpdate fire 0 (.table "t" none) assignments selection params none)
        Sample.threeColumns := by
  let _ := Externals.ofTexts [] []
  have hmatch : matchingRows Sample.threeColumns.kvs 0 (.ofList [(1, Sample.threeColumnsRow)])
      (some (.binaryOp (.identifier (column "c")) .eq questionMark)) [.integer 5, .integer 9] 1 =
        [(1, Sample.threeColumnsRow)] := rfl
  refine eval_advances_and_update_binds.2 _ _ _ _ _ _ _ _ fun store schema hstore hschema => ?_
  obtain rfl : IndexMap.ofList [(1, Sample.threeColumnsRow)] = store := Option.some.inj hstore
  refine ⟨fun _ _ => by simp [questionMark, hiddenPlaceholders], ?_⟩
  change AlongFold _ _ 0 (matchingRows _ 0 _ _ _ 1) _
  rw [hmatch]
  exact ⟨⟨rfl, rfl, rfl, rfl, trivial⟩, fun _ _ _ => trivial⟩

end Skvs
