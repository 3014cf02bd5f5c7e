import Skvs.Proof.MergedRow
import Skvs.Proof.Run
import Skvs.Lib.Buckets

/-!
# The pairs of a join

Every kind of join goes through the pairs of a left row and a row of the next table. The hash join
finds the same pairs in buckets that the nested loop would find by comparing hash keys.
-/

namespace Skvs

/-- Whether two columns have the same hash key. A column that is not there has none. -/
def sameKey : Option Value → Option Value → Bool
  | some v, some w => valueToKeyString v = valueToKeyString w
  | _, _ => false

theorem hashByColumn_eq (rows2 : List Row) (col2 : String) :
    hashByColumn rows2 col2 =
      IndexMap.buckets (fun r : Row => (r.get col2).map valueToKeyString) rows2 := by
  rw [hashByColumn, IndexMap.buckets]
  congr 1
  funext map r
  rw [IndexMap.pushBucket]
  cases r.get col2 <;> rfl

/-- The bucket that a left row looks up holds the rows that have its hash key. -/
theorem hashMatches_eq (rows2 : List Row) (col2 q1 : String) (row1 : Row) :
    hashMatches (hashByColumn rows2 col2) q1 row1 =
      rows2.filter fun row2 => sameKey (row1.get q1) (row2.get col2) := by
  rw [hashMatches, hashByColumn_eq]
  cases row1.get q1 with
  | none => exact (List.filter_eq_nil_iff.mpr fun row2 _ => Bool.false_ne_true).symm
  | some v =>
      refine (IndexMap.getD_buckets _ rows2 (valueToKeyString v)).trans (List.filter_congr ?_)
      intro row2 _
      cases row2.get col2 with
      | none => rfl
      | some w => simp [sameKey, eq_comm]

variable [Externals]

section Pairs

variable (state : KvsState) (dbId : UInt32) (isFirst : Bool) (name1 name2 : String)
  (c : JoinConstraint) (params : List Value)

/-- The columns that a hash join is on; only the first join of a chain is one. -/
def equiColumns : Option (String × String) :=
  if isFirst then extractEquiJoin c name1 name2 else none

/-- Whether a join pairs two rows: by their hash keys where it is a hash join, and by the condition
on the merged row where it is not. -/
def pairsUp (row1 row2 : Row) : Bool :=
  match equiColumns isFirst name1 name2 c with
  | some (col1, col2) => sameKey (row1.get (qualifiedName name1 col1)) (row2.get col2)
  | none => joinConditionMatches state dbId (insertRowQualified row1 name2 row2) c params

/-- The merged rows of a left row and its partners. -/
def partners (rows2 : List Row) (row1 : Row) : List Row :=
  (rows2.filter (pairsUp state dbId isFirst name1 name2 c params row1)).map
    (insertRowQualified row1 name2)

variable {isFirst name1 name2 c}

theorem pairsUp_of_equi {col1 col2 : String}
    (h : equiColumns isFirst name1 name2 c = some (col1, col2)) (row1 row2 : Row) :
    pairsUp state dbId isFirst name1 name2 c params row1 row2 =
      sameKey (row1.get (qualifiedName name1 col1)) (row2.get col2) := by
  rw [pairsUp, h]

theorem pairsUp_of_scan (h : equiColumns isFirst name1 name2 c = none) (row1 row2 : Row) :
    pairsUp state dbId isFirst name1 name2 c params row1 row2 =
      joinConditionMatches state dbId (insertRowQualified row1 name2 row2) c params := by
  rw [pairsUp, h]

theorem partners_of_equi {col1 col2 : String}
    (h : equiColumns isFirst name1 name2 c = some (col1, col2)) (rows2 : List Row) :
    partners state dbId isFirst name1 name2 c params rows2 = fun row1 =>
      (hashMatches (hashByColumn rows2 col2) (qualifiedName name1 col1) row1).map
        (insertRowQualified row1 name2) := by
  funext row1
  rw [partners, hashMatches_eq]
  exact congrArg _ (List.filter_congr fun row2 _ => pairsUp_of_equi state dbId params h row1 row2)

theorem partners_of_scan (h : equiColumns isFirst name1 name2 c = none) (rows2 : List Row) :
    partners state dbId isFirst name1 name2 c params rows2 = fun row1 =>
      (rows2.map (insertRowQualified row1 name2)).filter fun combined =>
        joinConditionMatches state dbId combined c params := by
  funext row1
  rw [partners, List.filter_map]
  exact congrArg _ (List.filter_congr fun row2 _ => pairsUp_of_scan state dbId params h row1 row2)

end Pairs

section Steps

variable {state : KvsState} {dbId : UInt32} {relation : TableFactor} {store2 : Store}
  (hstore : state.getTableStore dbId (parseTableFactor relation).1 = some store2)
  (isFirst : Bool) (name1 : String) (result : List Row) (c : JoinConstraint) (params : List Value)

/-- The rows of a table in the order in which a join goes through them. -/
def joinedRows (store : Store) : List Row := (hashOrder store.entries).map Prod.snd

/-- The name that qualifies the columns of a table of the FROM list. -/
def refName (relation : TableFactor) : String :=
  tableRefName (parseTableFactor relation).1 (parseTableFactor relation).2

/-- What an unmatched left row is padded with. -/
def leftPadding (state : KvsState) (dbId : UInt32) (relation : TableFactor) (rows2 : List Row) :
    Row :=
  nullPadded (refName relation) (state.getSchema dbId (parseTableFactor relation).1) rows2.head?

/-- A row of the next table that no row so far pairs up with. -/
def rightPadded (name2 : String) (result : List Row) (row2 : Row) : Row :=
  insertRowQualified
    (((result.head?.map IndexMap.keys).getD []).foldl (fun r k => r.insert k .null) ∅) name2 row2

include hstore

theorem executeJoin_inner :
    executeJoin state dbId isFirst name1 result ⟨relation, .inner c⟩ params =
      .ok (result.flatMap
        (partners state dbId isFirst name1 (refName relation) c params (joinedRows store2))) := by
  cases hequi : equiColumns isFirst name1 (refName relation) c with
  | none =>
      rw [partners_of_scan state dbId params hequi]
      rw [equiColumns, refName] at hequi
      simp only [executeJoin, hstore, hequi]
      rfl
  | some cols =>
      rw [partners_of_equi state dbId params hequi]
      rw [equiColumns, refName] at hequi
      simp only [executeJoin, hstore, hequi]
      rfl

theorem executeJoin_leftOuter :
    executeJoin state dbId isFirst name1 result ⟨relation, .leftOuter c⟩ params =
      .ok (result.flatMap fun row1 => padded row1
        (partners state dbId isFirst name1 (refName relation) c params (joinedRows store2) row1)
        (leftPadding state dbId relation (joinedRows store2))) := by
  cases hequi : equiColumns isFirst name1 (refName relation) c with
  | none =>
      rw [partners_of_scan state dbId params hequi]
      rw [equiColumns, refName] at hequi
      simp only [executeJoin, hstore, hequi]
      rfl
  | some cols =>
      rw [partners_of_equi state dbId params hequi]
      rw [equiColumns, refName] at hequi
      simp only [executeJoin, hstore, hequi]
      rfl

/-- The merged rows of a row of the next table and its partners. -/
def partnersOf (state : KvsState) (dbId : UInt32) (name1 name2 : String) (c : JoinConstraint)
    (params : List Value) (result : List Row) (row2 : Row) : List Row :=
  (result.filter fun row1 => pairsUp state dbId false name1 name2 c params row1 row2).map
    fun row1 => insertRowQualified row1 name2 row2

theorem executeJoin_rightOuter :
    executeJoin state dbId isFirst name1 result ⟨relation, .rightOuter c⟩ params =
      .ok ((joinedRows store2).flatMap fun row2 =>
        if (partnersOf state dbId name1 (refName relation) c params result row2).isEmpty then
          [rightPadded (refName relation) result row2]
        else partnersOf state dbId name1 (refName relation) c params result row2) := by
  have hpairs : partnersOf state dbId name1 (refName relation) c params result = fun row2 =>
      (result.map fun row1 => insertRowQualified row1 (refName relation) row2).filter
        fun combined => joinConditionMatches state dbId combined c params := by
    funext row2
    rw [partnersOf, List.filter_map]
    rfl
  simp only [hpairs, executeJoin, hstore]
  rfl

theorem executeJoin_fullOuter :
    executeJoin state dbId isFirst name1 result ⟨relation, .fullOuter c⟩ params =
      .ok ((result.flatMap fun row1 => padded row1
          (partners state dbId false name1 (refName relation) c params (joinedRows store2) row1)
          (leftPadding state dbId relation (joinedRows store2))) ++
        ((joinedRows store2).filter fun row2 => !result.any fun row1 =>
          pairsUp state dbId false name1 (refName relation) c params row1 row2).map
            (rightPadded (refName relation) result)) := by
  rw [partners_of_scan state dbId params rfl]
  simp only [executeJoin, hstore]
  rfl

theorem executeJoin_crossJoin :
    executeJoin state dbId isFirst name1 result ⟨relation, .crossJoin⟩ params =
      .ok (result.flatMap fun row1 =>
        (joinedRows store2).map (insertRowQualified row1 (refName relation))) := by
  simp only [executeJoin, hstore]
  rfl

omit hstore

/-- The rows that a chain of joins starts with. -/
def startRows (name1 : String) (store1 : Store) : List Row :=
  (joinedRows store1).map (insertRowQualified ∅ name1)

theorem mem_joinedRows {store : Store} {row : Row} :
    row ∈ joinedRows store ↔ ∃ rowid, store.get rowid = some row := by
  simp only [joinedRows, List.mem_map, Prod.exists, exists_eq_right]
  refine exists_congr fun rowid => ?_
  rw [(hashOrder_perm store.entries).mem_iff, IndexMap.mem_entries_iff_get]

omit [Externals] in
theorem rows_of_entries {store : Store} {entries : List (RowId × Row)}
    (hentries : store.entries = entries) {P : Row → Prop} (h : ∀ e ∈ entries, P e.2) (rowid : RowId)
    (row : Row) (hget : store.get rowid = some row) : P row :=
  h (rowid, row) (hentries ▸ (IndexMap.mem_entries_iff_get ..).mpr hget)

theorem executeJoins_cons {relation1 : TableFactor} {store1 : Store}
    (hstore1 : state.getTableStore dbId (parseTableFactor relation1).1 = some store1)
    (joins : List Join) (rest : List TableWithJoins) :
    executeJoins state dbId (⟨relation1, joins⟩ :: rest) params =
      joins.zipIdx.foldlM (fun result (join, joinIdx) =>
        executeJoin state dbId (joinIdx = 0) (refName relation1) result join params)
        (startRows (refName relation1) store1) := by
  have hstart : startRows (refName relation1) store1 =
      (hashOrder store1.entries).map fun e => insertRowQualified ∅ (refName relation1) e.2 :=
    List.map_map ..
  simp only [executeJoins, hstore1, hstart]
  rfl

theorem executeJoins_pair {relation1 : TableFactor} {store1 : Store}
    (hstore1 : state.getTableStore dbId (parseTableFactor relation1).1 = some store1)
    (join : Join) :
    executeJoins state dbId [⟨relation1, [join]⟩] params =
      executeJoin state dbId true (refName relation1) (startRows (refName relation1) store1) join
        params := by
  rw [executeJoins_cons _ hstore1]
  exact bind_pure _

end Steps

/-- The table, of the two joined, and the column that one side of an ON condition names. -/
def joinSide (name1 name2 : String) : Expr → Option (Bool × String)
  | .compoundIdentifier [table, col] =>
    if table.value = name1 then some (true, col.value)
    else if table.value = name2 then some (false, col.value)
    else none
  | _ => none

omit [Externals] in
theorem extractEquiJoin_on (left right : Expr) (name1 name2 : String) :
    extractEquiJoin (.on (.binaryOp left .eq right)) name1 name2 =
      match joinSide name1 name2 left, joinSide name1 name2 right with
      | some (true, c1), some (false, c2) => some (c1, c2)
      | some (false, c2), some (true, c1) => some (c1, c2)
      | _, _ => none := rfl

namespace Sample

/-- `CREATE TABLE table (columns INT)`. -/
def created (table : String) (columns : List String) : Call :=
  call (.createTable table (columns.map fun c => ⟨name c, .int, []⟩) [] false) none

/-- `CREATE TABLE table (columns INT)` and `INSERT INTO table VALUES rows`. -/
def filled (table : String) (columns : List String) (rows : List (List SqlValue)) : List Call :=
  [created table columns,
    call (.insert table [] (some ⟨.values (rows.map fun vs => vs.map .value), [], none, none⟩)) none]

/-- `a op b`, as a FROM list. -/
def aJoins (op : JoinOperator) : List TableWithJoins := [⟨.table "a" none, [⟨.table "b" none, op⟩]⟩]

/-- `a (id)` with 2 and `b (column)` with 1. -/
def unpaired (column : String) : KvsState :=
  letI := Externals.ofTexts [] []
  after (filled "a" ["id"] [[.number "2"]] ++ filled "b" [column] [[.number "1"]])

/-- `a (id)` without rows and `b (id)` with 1. -/
def leftEmpty : KvsState :=
  letI := Externals.ofTexts [] []
  after (created "a" ["id"] :: filled "b" ["id"] [[.number "1"]])

/-- The row of `a` before it is joined. -/
def leftRow : Row := .ofList [("a.id", .integer 2), ("id", .integer 2)]

/-- `ON a.id = b.column`. -/
def onId (column : String) : JoinConstraint :=
  .on (.binaryOp (columnOf "a" "id") .eq (columnOf "b" column))

end Sample

end Skvs
