import Skvs.Proof.Joins

/-!
# JOIN ... USING

USING asks whether the merged row has the shared columns, which it always does.
-/

namespace Skvs

section Pairs

variable {α β γ : Type} {l : List α} {r : List β} (f : α → β → γ)

theorem pairs_sublist (p : α → β → Bool) :
    (l.flatMap fun a => (r.filter (p a)).map (f a)).Sublist (l.flatMap fun a => r.map (f a)) := by
  induction l with
  | nil => exact .slnil
  | cons a l ih =>
      rw [List.flatMap_cons, List.flatMap_cons]
      exact (List.filter_sublist.map (f a)).append ih

/-- All pairs are the pairs that meet a relation, only if each of them meets it. -/
theorem all_pairs_eq_iff (p : α → β → Bool) :
    (l.flatMap fun a => r.map (f a)) = (l.flatMap fun a => (r.filter (p a)).map (f a)) ↔
      ∀ a ∈ l, ∀ b ∈ r, p a b = true := by
  constructor
  · intro h
    induction l with
    | nil => exact nofun
    | cons a l ih =>
        rw [List.flatMap_cons, List.flatMap_cons] at h
        have hlength := congrArg List.length h
        have hrest := (pairs_sublist (l := l) (r := r) f p).length_le
        have hle := List.length_filter_le (p a) r
        simp only [List.length_append, List.length_map] at hlength
        -- neither part can be shorter
        have hfilter : (r.filter (p a)).length = r.length := by omega
        obtain ⟨-, htail⟩ := List.append_inj h (by simp only [List.length_map, hfilter])
        rw [List.forall_mem_cons]
        exact ⟨List.length_filter_eq_length_iff.mp hfilter, ih htail⟩
  · intro h
    refine List.flatMap_congr fun a ha => ?_
    rw [List.filter_eq_self.mpr (h a ha)]

end Pairs

variable [Externals]

/-- Whether two rows agree on the given columns. -/
def agreeOn (cols : List Ident) (row1 row2 : Row) : Bool :=
  cols.all fun c => ((row1.get c.value).getD .null).partialEq ((row2.get c.value).getD .null)

/-- `name1.c = name2.c AND …`. -/
def equalOn (name1 name2 : String) : List Ident → Expr
  | [] => .value (.boolean true)
  | [c] => .binaryOp (columnOf name1 c.value) .eq (columnOf name2 c.value)
  | c :: cols => .binaryOp (.binaryOp (columnOf name1 c.value) .eq (columnOf name2 c.value)) .and
      (equalOn name1 name2 cols)

/-- The pairs of the rows of two tables that meet a relation, merged. -/
def mergedPairs (name1 name2 : String) (store1 store2 : Store) (p : Row → Row → Bool) : List Row :=
  (joinedRows store1).flatMap fun row1 => ((joinedRows store2).filter (p row1)).map
    (insertRowQualified (insertRowQualified ∅ name1 row1) name2)

section Using

variable {state : KvsState} {dbId : UInt32} {relation1 relation2 : TableFactor}
  {store1 store2 : Store}
  (hstore1 : state.getTableStore dbId (parseTableFactor relation1).1 = some store1)
  (hstore2 : state.getTableStore dbId (parseTableFactor relation2).1 = some store2)

include hstore1 hstore2

theorem innerJoin_eq_mergedPairs (c : JoinConstraint) (params : List Value) :
    executeJoins state dbId [⟨relation1, [⟨relation2, .inner c⟩]⟩] params =
      .ok (mergedPairs (refName relation1) (refName relation2) store1 store2 fun row1 =>
        pairsUp state dbId true (refName relation1) (refName relation2) c params
          (insertRowQualified ∅ (refName relation1) row1)) := by
  rw [executeJoins_pair params hstore1, executeJoin_inner hstore2, startRows, List.flatMap_map]
  rfl

variable {cols : List Ident}
  (hcols : ∀ rowid row, store1.get rowid = some row → ∀ c ∈ cols, c.value ∈ row.keys)

include hcols

/-- USING pairs every row with every row. -/
theorem usingJoin_eq_all (params : List Value) :
    executeJoins state dbId [⟨relation1, [⟨relation2, .inner (.using cols)⟩]⟩] params =
      .ok (mergedPairs (refName relation1) (refName relation2) store1 store2 fun _ _ => true) := by
  rw [innerJoin_eq_mergedPairs hstore1 hstore2]
  refine congrArg _ (List.flatMap_congr fun row1 hrow1 => ?_)
  refine congrArg _ (List.filter_congr fun row2 _ => ?_)
  obtain ⟨rowid, hget⟩ := mem_joinedRows.mp hrow1
  have hscan : equiColumns true (refName relation1) (refName relation2) (.using cols) = none := rfl
  refine (pairsUp_of_scan state dbId params hscan _ row2).trans (List.all_eq_true.mpr fun c hc => ?_)
  obtain ⟨v, hv⟩ := (IndexMap.mem_keys_iff_get ..).mp (hcols rowid row1 hget c hc)
  rw [get_insertRowQualified, get_insertRowQualified, hv]
  simp

/-- `JOIN ... USING (c1, ..., cn)` returns the pairs that agree on the shared columns just when all
pairs do, and the pairs of the spelled-out condition just when that one takes all pairs. -/
theorem using_join_iff_all_agree (params : List Value) :
    let join := fun c => executeJoins state dbId [⟨relation1, [⟨relation2, .inner c⟩]⟩] params
    let on := .on (equalOn (refName relation1) (refName relation2) cols)
    (join (.using cols) =
        .ok (mergedPairs (refName relation1) (refName relation2) store1 store2 (agreeOn cols)) ↔
      ∀ row1 ∈ joinedRows store1, ∀ row2 ∈ joinedRows store2, agreeOn cols row1 row2 = true) ∧
    (join (.using cols) = join on ↔
      ∀ row1 ∈ joinedRows store1, ∀ row2 ∈ joinedRows store2,
        pairsUp state dbId true (refName relation1) (refName relation2) on params
          (insertRowQualified ∅ (refName relation1) row1) row2 = true) := by
  intro join on
  have hiff : ∀ p : Row → Row → Bool, join (.using cols) =
      .ok (mergedPairs (refName relation1) (refName relation2) store1 store2 p) ↔
        ∀ row1 ∈ joinedRows store1, ∀ row2 ∈ joinedRows store2, p row1 row2 = true := by
    intro p
    have hall := usingJoin_eq_all hstore1 hstore2 hcols params
    simp only [join, hall, Except.ok.injEq, mergedPairs, List.filter_true]
    exact all_pairs_eq_iff _ p
  refine ⟨hiff _, ?_⟩
  rw [show join on = _ from innerJoin_eq_mergedPairs hstore1 hstore2 on params]
  exact hiff _

end Using

namespace Sample

/-- `a (id)` and `b (id)` with 1. -/
def paired : KvsState :=
  letI := Externals.ofTexts [] []
  after (filled "a" ["id"] [[.number "1"]] ++ filled "b" ["id"] [[.number "1"]])

/-- `USING (id)`. -/
def usingId : JoinConstraint := .using [name "id"]

end Sample

omit [Externals] in
/-- `a JOIN b USING (id)` with one row on either side, which agree. -/
theorem using_join_of_equal_ids :
    letI := Externals.ofTexts [] []
    let s := Sample.paired
    executeJoins s 0 (Sample.aJoins (.inner Sample.usingId)) [] =
      .ok (mergedPairs "a" "b" ((s.getTableStore 0 "a").getD ∅) ((s.getTableStore 0 "b").getD ∅)
        (agreeOn [Sample.name "id"])) := by
  let _ := Externals.ofTexts [] []
  intro s
  have hentries : ((s.getTableStore 0 "a").getD ∅).entries = [(1, .ofList [("id", .integer 1)])] := by
    decide
  have hstore1 : s.getTableStore 0 (parseTableFactor (.table "a" none)).1 =
      some ((s.getTableStore 0 "a").getD ∅) := by
    decide
  have hstore2 : s.getTableStore 0 (parseTableFactor (.table "b" none)).1 =
      some ((s.getTableStore 0 "b").getD ∅) := by
    decide
  have hcols := rows_of_entries hentries (P := fun row => ∀ c ∈ [Sample.name "id"], c.value ∈ row.keys)
    (List.forall_mem_singleton.mpr (List.forall_mem_singleton.mpr (by decide)))
  refine (using_join_iff_all_agree hstore1 hstore2 hcols []).1.mpr ?_
  have hl : joinedRows ((s.getTableStore 0 "a").getD ∅) = [.ofList [("id", .integer 1)]] ∧
      joinedRows ((s.getTableStore 0 "b").getD ∅) = [.ofList [("id", .integer 1)]] := by
    decide
  rw [hl.1, hl.2, List.forall_mem_singleton, List.forall_mem_singleton]
  decide

omit [Externals] in
/-- 2 in `a` and 1 in `b`: `a JOIN b USING (id)` pairs them, and `ON a.id = b.id` does not. -/
theorem using_join_pairs_different_ids :
    letI := Externals.ofTexts [] []
    let s := Sample.unpaired "id"
    executeJoins s 0 (Sample.aJoins (.inner Sample.usingId)) [] =
        .ok [.ofList [("a.id", .integer 2), ("id", .integer 2), ("b.id", .integer 1)]] ∧
      mergedPairs "a" "b" ((s.getTableStore 0 "a").getD ∅) ((s.getTableStore 0 "b").getD ∅)
        (agreeOn [Sample.name "id"]) = [] ∧
      executeJoins s 0 (Sample.aJoins (.inner (.on (equalOn "a" "b" [Sample.name "id"])))) [] =
        .ok [] := by
  let _ := Externals.ofTexts [] []
  exact ⟨by decide, by decide, by decide⟩

end Skvs
