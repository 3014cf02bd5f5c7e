import Skvs.Lib.Float64Int
import Skvs.Proof.FastPath
import Skvs.Proof.SerialRun

/-!
# Looking a unique value up in an index

An index finds the values that compare equal to the one looked for, a scan those that are equal to
it: an INTEGER and a REAL can compare equal and never are.
-/

namespace Skvs

/-- The values among which comparing equal is transitive. Where it is not, a REAL is the double of
two INTEGERs, or not a number. -/
def TiesTransitive (vs : List Value) : Prop :=
  ∀ a ∈ vs, ∀ b ∈ vs, ∀ c ∈ vs, a.compare b = .eq → b.compare c = .eq → a.compare c = .eq

theorem TiesTransitive.ties {vs : List Value} (h : TiesTransitive vs) :
    BTreeMap.Ties Value.compare (· ∈ vs) where
  refl _ := Value.compare_self _
  symm _ _ heq := by rw [Value.compare_swap, heq]; rfl
  trans ha hb hc := h _ ha _ hb _ hc

/-! ### What the index lists -/

section Listed

variable {idx : IndexDef} {vs : List Value} (hties : TiesTransitive vs)
include hties

/-- The row is filed under a value that ties with `v`. -/
def tiesWith (idx : IndexDef) (v : Value) (row : Row) : Bool :=
  (indexValue idx row).any fun w => v.compare w == .eq

omit hties in
theorem fileRow_keys {store : IndexStore} {e : RowId × Row}
    (he : ∀ v ∈ indexValue idx e.2, v ∈ vs) (hkeys : ∀ k ∈ store.entries, k.1 ∈ vs) :
    ∀ k ∈ (fileRow idx store e).entries, k.1 ∈ vs := by
  rw [fileRow]
  cases hval : indexValue idx e.2 with
  | none => exact hkeys
  | some val => exact BTreeMap.upsert_keys hkeys (he val hval)

theorem bucket_fileRow {store : IndexStore} {e : RowId × Row} {v : Value}
    (he : ∀ v ∈ indexValue idx e.2, v ∈ vs) (hkeys : ∀ k ∈ store.entries, k.1 ∈ vs) (hv : v ∈ vs) :
    bucket (fileRow idx store e) v =
      bucket store v ++ if tiesWith idx v e.2 then [e.1] else [] := by
  rw [fileRow, tiesWith]
  cases hval : indexValue idx e.2 with
  | none => exact (List.append_nil _).symm
  | some val =>
      have hval' := he val hval
      simp only [Option.any_some, beq_iff_eq, bucket]
      rw [BTreeMap.get_upsert_of_ties hties.ties hkeys hval' hv]
      split_ifs with htie
      · rw [Option.getD_some, BTreeMap.get_of_tie hties.ties hkeys hval' hv htie]
      · rw [List.append_nil]

/-- The index lists the rows whose values tie with the one looked for. -/
theorem bucket_foldl_fileRow {es : List (RowId × Row)} {store : IndexStore} {v : Value}
    (hes : ∀ e ∈ es, ∀ v ∈ indexValue idx e.2, v ∈ vs) (hkeys : ∀ k ∈ store.entries, k.1 ∈ vs)
    (hv : v ∈ vs) :
    bucket (es.foldl (fileRow idx) store) v =
      bucket store v ++ (es.filter fun e => tiesWith idx v e.2).map Prod.fst := by
  induction es generalizing store with
  | nil => exact (List.append_nil _).symm
  | cons e es ih =>
      obtain ⟨he, hes⟩ := List.forall_mem_cons.mp hes
      rw [List.foldl_cons, ih hes (fileRow_keys he hkeys), bucket_fileRow hties he hkeys hv,
        List.append_assoc, List.filter_cons]
      split_ifs <;> rfl

end Listed

/-! ### The two answers -/

/-- The table without the single-column indexes on the column. -/
def TableSchema.withoutIndexOn (schema : TableSchema) (col : String) : TableSchema :=
  { schema with indices := schema.indices.filter fun i => i.columns ≠ [col] }

theorem findIndex_withoutIndexOn (schema : TableSchema) (col : String) :
    findIndex (schema.withoutIndexOn col) col = none := by
  rw [findIndex, TableSchema.withoutIndexOn, List.find?_eq_none]
  intro idx hidx
  simpa using (List.mem_filter.mp hidx).2

/-- Some row other than the excluded one has a value in the column that is as `P` says. -/
def ValueElsewhere (store : Store) (col : String) (excludeRowid : RowId) (P : Value → Prop) : Prop :=
  ∃ e ∈ store.entries, e.1 ≠ excludeRowid ∧ ∃ w, e.2.get col = some w ∧ P w

section Answers

variable {state : KvsState} {dbId : UInt32} {schema : TableSchema} {col : String} {v : Value}
  {excludeRowid : RowId} {store : Store} (hstore : state.getTableStore dbId schema.name = some store)
include hstore

theorem valueExistsElsewhere_unindexed (hnone : findIndex schema col = none) :
    valueExistsElsewhere state dbId schema [col] [v] excludeRowid = true ↔
      ValueElsewhere store col excludeRowid fun w => w.partialEq v = true := by
  rw [valueExistsElsewhere_scan hstore fun c hc => List.head_eq_of_cons_eq hc ▸ hnone]
  refine exists_congr fun e => and_congr_right fun _ => and_congr_right fun _ => ?_
  rw [List.zip_cons_cons, List.zip_nil_right, List.forall_mem_singleton]
  rw [Row.holds]
  cases e.2.get col <;> simp

variable [Externals]

theorem valueExistsElsewhere_indexed {idx : IndexDef} (hindex : findIndex schema col = some idx)
    (hrebuilt : state.indexStore dbId schema.name idx.name = rebuilt idx store)
    (hties : TiesTransitive (v :: store.values.filterMap fun row => row.get col)) :
    valueExistsElsewhere state dbId schema [col] [v] excludeRowid = true ↔
      ValueElsewhere store col excludeRowid fun w => v.compare w = .eq := by
  have hcol : idx.columns = [col] := by
    simpa using List.find?_some hindex
  have hvalue : ∀ row, indexValue idx row = row.get col := by
    intro row
    rw [indexValue, hcol]
    rfl
  have hbucket : lookupIndex state dbId schema.name idx.name v =
      ((hashOrder store.entries).filter fun e => tiesWith idx v e.2).map Prod.fst := by
    have hes : ∀ e ∈ hashOrder store.entries, ∀ w ∈ indexValue idx e.2,
        w ∈ v :: store.values.filterMap fun row => row.get col := by
      intro e he w hw
      rw [hvalue] at hw
      have hrow : e.2 ∈ store.values := List.mem_map_of_mem ((hashOrder_perm _).mem_iff.mp he)
      exact List.mem_cons_of_mem v (List.mem_filterMap.mpr ⟨e.2, hrow, hw⟩)
    have hempty : ∀ k ∈ (∅ : IndexStore).entries,
        k.1 ∈ v :: store.values.filterMap fun row => row.get col :=
      fun k hk => absurd hk List.not_mem_nil
    rw [lookupIndex, hrebuilt, rebuilt_eq]
    exact bucket_foldl_fileRow hties hes hempty List.mem_cons_self
  rw [valueExistsElsewhere_lookup hstore hindex, hbucket]
  simp only [List.mem_map, List.mem_filter, (hashOrder_perm store.entries).mem_iff, tiesWith, hvalue,
    ValueElsewhere]
  constructor
  · rintro ⟨-, ⟨e, ⟨he, htie⟩, rfl⟩, hne⟩
    obtain ⟨w, hw, htie⟩ := (Option.any_eq_true ..).mp htie
    exact ⟨e, he, hne, w, hw, beq_iff_eq.mp htie⟩
  · rintro ⟨e, he, hne, w, hw, htie⟩
    exact ⟨e.1, ⟨e, ⟨he, (Option.any_eq_true ..).mpr ⟨w, hw, beq_iff_eq.mpr htie⟩⟩, rfl⟩, hne⟩

/-- With an index on the column and without one the answers agree if and only if a value that compares
equal to the candidate comes with one that is equal to it. -/
theorem valueExistsElsewhere_index_iff {idx : IndexDef} (hindex : findIndex schema col = some idx)
    (hrebuilt : state.indexStore dbId schema.name idx.name =
      (rebuildIndex state dbId schema.name idx).indexStore dbId schema.name idx.name)
    (hties : TiesTransitive (v :: store.values.filterMap fun row => row.get col)) :
    valueExistsElsewhere state dbId schema [col] [v] excludeRowid =
      valueExistsElsewhere state dbId (schema.withoutIndexOn col) [col] [v] excludeRowid ↔
    ((ValueElsewhere store col excludeRowid fun w => v.compare w = .eq) →
      ValueElsewhere store col excludeRowid fun w => w.partialEq v = true) := by
  rw [indexStore_rebuildIndex_self state hstore] at hrebuilt
  have hstore' : state.getTableStore dbId (schema.withoutIndexOn col).name = some store := hstore
  rw [Bool.eq_iff_iff, valueExistsElsewhere_indexed hstore hindex hrebuilt hties,
    valueExistsElsewhere_unindexed hstore' (findIndex_withoutIndexOn schema col)]
  -- equal values always compare equal
  have hequal : (ValueElsewhere store col excludeRowid fun w => w.partialEq v = true) →
      ValueElsewhere store col excludeRowid fun w => v.compare w = .eq := by
    rintro ⟨e, he, hne, w, hw, heq⟩
    have htie : v.compare w = .eq := by rw [← Value.compare_congr heq, Value.compare_self]
    exact ⟨e, he, hne, w, hw, htie⟩
  exact ⟨Iff.mp, fun h => ⟨h, hequal⟩⟩

end Answers

namespace Sample

/-- A UNIQUE column with an index on it, and a row with the value `v`. -/
def numberIndexed (v : Value) : KvsState :=
  letI := Externals.ofTexts [] []
  after [call (create [.unique false]) none, call createIndex none,
    ⟨insert [.placeholder "?"], [v], none, 3⟩]

def keyIndex : IndexDef := ⟨"i", ["a"], false, none, false⟩

def keyIndexSchema : TableSchema :=
  letI := Externals.ofTexts [] []
  { buildSchema "t" [⟨name "a", .int, [.unique false]⟩] [] with indices := [keyIndex] }

end Sample

/-- Looking for 2 in a table with 1. -/
theorem valueExistsElsewhere_index_two :
    letI := Externals.ofTexts [] []
    valueExistsElsewhere (Sample.numberIndexed (.integer 1)) 0 Sample.keyIndexSchema ["a"]
        [.integer 2] 2 =
      valueExistsElsewhere (Sample.numberIndexed (.integer 1)) 0
        (Sample.keyIndexSchema.withoutIndexOn "a") ["a"] [.integer 2] 2 := by
  let _ := Externals.ofTexts [] []
  have hstore : (Sample.numberIndexed (.integer 1)).getTableStore 0 Sample.keyIndexSchema.name =
      some (.ofList [(1, Sample.row 1)]) := rfl
  have hindex : findIndex Sample.keyIndexSchema "a" = some Sample.keyIndex := rfl
  have hrebuilt : (Sample.numberIndexed (.integer 1)).indexStore 0 "t" "i" =
      (rebuildIndex (Sample.numberIndexed (.integer 1)) 0 "t" Sample.keyIndex).indexStore 0 "t" "i" :=
    rfl
  refine (valueExistsElsewhere_index_iff hstore hindex hrebuilt ?_).mpr ?_
  · change TiesTransitive [.integer 2, .integer 1]
    unfold TiesTransitive
    decide
  · rintro ⟨e, he, -, w, hw, htie⟩
    obtain rfl := List.mem_singleton.mp he
    obtain rfl : Value.integer 1 = w := Option.some.inj hw
    exact nomatch htie

/-- A UNIQUE column with the REAL 1.0 takes the INTEGER 1, unless it has an index. -/
theorem integer_taken_by_real :
    letI := Externals.ofTexts [] []
    let s := Sample.numberIndexed (.real (.fin 1))
    s.getSchema 0 "t" = some Sample.keyIndexSchema ∧
    s.indexStore 0 "t" "i" = (rebuildIndex s 0 "t" Sample.keyIndex).indexStore 0 "t" "i" ∧
    valueExistsElsewhere s 0 Sample.keyIndexSchema ["a"] [.integer 1] 2 = true ∧
    valueExistsElsewhere s 0 (Sample.keyIndexSchema.withoutIndexOn "a") ["a"] [.integer 1] 2 =
      false := by
  let _ := Externals.ofTexts [] []
  let s := Sample.numberIndexed (.real (.fin 1))
  have htie : (Value.integer 1).compare (.real (.fin 1)) = .eq := by
    have hone : F64.ofInt (1 : Int64).toInt = .fin 1 := F64.ofInt_eq (i := 1) (by decide)
    rw [Value.compare, hone]
    decide
  have htie' : (Value.real (.fin 1)).compare (.integer 1) = .eq := by
    rw [Value.compare_swap, htie]
    rfl
  have hstore : s.getTableStore 0 Sample.keyIndexSchema.name =
      some (.ofList [(1, .ofList [("a", .real (.fin 1))])]) := rfl
  have hindex : findIndex Sample.keyIndexSchema "a" = some Sample.keyIndex := rfl
  have hties : TiesTransitive [.integer 1, .real (.fin 1)] := by
    simp [TiesTransitive, htie, htie', Value.compare_self]
  exact ⟨rfl, rfl, (valueExistsElsewhere_indexed hstore hindex rfl hties).mpr
    ⟨_, List.mem_singleton_self _, by decide, _, rfl, htie⟩, rfl⟩

end Skvs
