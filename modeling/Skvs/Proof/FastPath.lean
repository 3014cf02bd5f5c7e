import Skvs.Proof.IndexEntries
import Skvs.Proof.Run

/-!
# The index fast path of SELECT

An exact index lists every row that has a value in its column once, under that value. What a lookup
returns is therefore part of a full scan, and filtering both by the WHERE clause gives the same rows
exactly when the lookup misses no row on which the clause holds.
-/

namespace Skvs

/-- What an index is asked for. -/
inductive Lookup where
  | equal (val : Value)
  | range (lower upper : Bound Value)

namespace Lookup

/-- Bounds that cross are a panic. -/
def allowed : Lookup → Bool
  | .equal _ => true
  | .range lower upper => BTreeMap.rangeOk Value.compare lower upper

/-- The entries that a lookup reads. -/
def hits (index : IndexStore) : Lookup → List (Value × List RowId)
  | .equal val => (index.entries.find? fun e => val.compare e.1 == .eq).toList
  | .range lower upper => index.range Value.compare lower upper

def ids (index : IndexStore) (lookup : Lookup) : List RowId := (lookup.hits index).flatMap Prod.snd

/-- The keys that a lookup finds. -/
def keys (index : IndexStore) (lookup : Lookup) : List Value := (lookup.hits index).map Prod.fst

theorem hits_sublist (index : IndexStore) (lookup : Lookup) :
    (lookup.hits index).Sublist index.entries := by
  cases lookup with
  | equal val =>
      rw [hits]
      cases hfind : index.entries.find? fun e => val.compare e.1 == .eq with
      | none => exact List.nil_sublist _
      | some e => exact List.singleton_sublist.mpr (List.mem_of_find?_eq_some hfind)
  | range => exact List.filter_sublist

end Lookup

/-- The index maps each value to precisely the rowids whose row holds it. -/
structure MapExact (s : KvsState) (dbId : UInt32) (table : String) (idx : IndexDef) : Prop where
  ascending : (s.indexStore dbId table idx.name).entries.Pairwise fun e e' =>
    e.1.compare e'.1 = .lt
  nodup : ∀ e ∈ (s.indexStore dbId table idx.name).entries, e.2.Nodup
  lists_iff : ∀ v rowid, (∃ ids, (v, ids) ∈ (s.indexStore dbId table idx.name).entries ∧
    rowid ∈ ids) ↔ filed idx (s.row ⟨dbId, table, rowid⟩) = some v

/-! ### The order of values -/

theorem Value.compare_swap (a b : Value) : b.compare a = (a.compare b).swap := by
  have hreal : ∀ f g : F64, (F64.partialCmp g f).getD .eq = ((F64.partialCmp f g).getD .eq).swap := by
    intro f g
    rw [F64.partialCmp_swap f g]
    cases F64.partialCmp f g <;> rfl
  cases a <;> cases b <;> first | rfl | exact hreal .. | exact Std.OrientedOrd.eq_swap

theorem Value.compare_self (v : Value) : v.compare v = .eq := by
  have h := Value.compare_swap v v
  cases hv : v.compare v <;> rw [hv] at h <;> first | rfl | exact nomatch h

/-- Equal values compare alike. -/
theorem Value.compare_congr {a b : Value} (h : a.partialEq b = true) (c : Value) :
    a.compare c = b.compare c := by
  have hsame : a = b ∨ ∃ f g, a = .real f ∧ b = .real g ∧ f.ieeeEq g = true := by
    cases a <;> cases b <;> simp_all [Value.partialEq]
  rcases hsame with rfl | ⟨f, g, rfl, rfl, heq⟩
  · rfl
  · cases c <;> first | rfl | simp only [Value.compare, F64.partialCmp_congr heq]

section Lookup

variable {s : KvsState} {dbId : UInt32} {table : String} {idx : IndexDef}
  (h : MapExact s dbId table idx) (lookup : Lookup)
include h

theorem MapExact.keys_nodup :
    ((s.indexStore dbId table idx.name).entries.map Prod.fst).Nodup := by
  refine List.pairwise_map.mpr (h.ascending.imp fun hlt heq => ?_)
  rw [heq, Value.compare_self] at hlt
  exact nomatch hlt

theorem MapExact.eq_of_compare {e e' : Value × List RowId}
    (he : e ∈ (s.indexStore dbId table idx.name).entries)
    (he' : e' ∈ (s.indexStore dbId table idx.name).entries) (heq : e.1.compare e'.1 = .eq) :
    e.1 = e'.1 := by
  refine List.Pairwise.forall_of_forall_of_flip
    (R := fun e e' : Value × List RowId => e.1.compare e'.1 = .eq → e.1 = e'.1)
    (fun _ _ _ => rfl) (h.ascending.imp fun hlt heq => ?_) (h.ascending.imp fun hlt heq => ?_)
    he he' heq
  · exact nomatch hlt.symm.trans heq
  · rw [Value.compare_swap, hlt] at heq
    exact nomatch heq

/-- A lookup returns the rows that are filed under the keys it finds. -/
theorem MapExact.mem_ids_iff (rowid : RowId) :
    rowid ∈ lookup.ids (s.indexStore dbId table idx.name) ↔
      ∃ v, filed idx (s.row ⟨dbId, table, rowid⟩) = some v ∧
        v ∈ lookup.keys (s.indexStore dbId table idx.name) := by
  have hsub := lookup.hits_sublist (s.indexStore dbId table idx.name)
  simp only [Lookup.ids, Lookup.keys, List.mem_flatMap, List.mem_map]
  constructor
  · rintro ⟨e, he, hr⟩
    exact ⟨e.1, (h.lists_iff e.1 rowid).mp ⟨e.2, hsub.mem he, hr⟩, e, he, rfl⟩
  · rintro ⟨_, hfiled, e, he, rfl⟩
    obtain ⟨ids, hids, hr⟩ := (h.lists_iff e.1 rowid).mpr hfiled
    have heq : (e.1, ids) = e := List.inj_on_of_nodup_map h.keys_nodup hids (hsub.mem he) rfl
    exact ⟨e, he, by rw [← heq]; exact hr⟩

/-- A row has one value, so no two buckets list it. -/
theorem MapExact.ids_nodup : (lookup.ids (s.indexStore dbId table idx.name)).Nodup := by
  have hsub := lookup.hits_sublist (s.indexStore dbId table idx.name)
  refine List.nodup_flatMap.mpr ⟨fun e he => h.nodup e (hsub.mem he), ?_⟩
  refine (List.Pairwise.sublist (hsub.map Prod.fst) h.keys_nodup |> List.pairwise_map.mp).imp_of_mem
    fun {e e'} he he' hne => ?_
  refine List.disjoint_left.mpr fun rowid hr hr' => hne ?_
  have hv := (h.lists_iff e.1 rowid).mp ⟨e.2, hsub.mem he, hr⟩
  have hv' := (h.lists_iff e'.1 rowid).mp ⟨e'.2, hsub.mem he', hr'⟩
  exact Option.some.inj (hv.symm.trans hv')

end Lookup

variable [Externals]

/-! ### The rows fetched -/

section FastPath

variable (state : KvsState) (dbId : UInt32) (table : String) (e : Expr) (params : List Value)

/-- The index that the WHERE clause is looked up in, if any, and what is asked of it. -/
def fastPath : Option (IndexDef × Lookup) :=
  let indexOn (col : String) : Option IndexDef :=
    (state.getSchema dbId table).bind fun schema => findIndex schema col
  let byEquality := (simpleEquality e params).bind fun (col, val) =>
    (indexOn col).map fun idx => (idx, val)
  let byRange := (simpleRange e params).bind fun (col, lower, upper) =>
    (indexOn col).map fun idx => (idx, lower, upper)
  match byEquality, byRange with
  | some (idx, val), _ => some (idx, .equal val)
  | none, some (idx, lower, upper) => some (idx, .range lower upper)
  | none, none => none

theorem rowsForSimpleWhere_eq :
    rowsForSimpleWhere state dbId table (some e) params =
      match fastPath state dbId table e params with
      | none => scanRows state dbId table
      | some (idx, lookup) =>
        if lookup.allowed then
          rowsFromIds state dbId table (lookup.ids (state.indexStore dbId table idx.name))
        else .error .panic := by
  have hequal : ∀ (idx : IndexDef) val, lookupIndex state dbId table idx.name val =
      (Lookup.equal val).ids (state.indexStore dbId table idx.name) := by
    intro idx val
    rw [lookupIndex, BTreeMap.get, Lookup.ids, Lookup.hits]
    cases (state.indexStore dbId table idx.name).entries.find? fun e => val.compare e.1 == .eq <;>
      simp
  have hrange : ∀ (idx : IndexDef) lower upper, rangeLookup state dbId table idx.name lower upper =
      if (Lookup.range lower upper).allowed then
        .ok ((Lookup.range lower upper).ids (state.indexStore dbId table idx.name))
      else .error .panic := fun _ _ _ => rfl
  simp only [rowsForSimpleWhere, fastPath]
  generalize (simpleEquality e params).bind _ = byEquality
  generalize (simpleRange e params).bind _ = byRange
  rcases byEquality with _ | ⟨idx, val⟩
  · rcases byRange with _ | ⟨idx, lower, upper⟩
    · rfl
    · simp only [hrange]
      split_ifs <;> rfl
  · exact congrArg (rowsFromIds state dbId table) (hequal idx val)

/-- An index of the table on just the column of the clause, and the lookup that the clause asks for. -/
theorem fastPath_cases {idx : IndexDef} {lookup : Lookup}
    (h : fastPath state dbId table e params = some (idx, lookup)) :
    ∃ col, ((∃ val, simpleEquality e params = some (col, val) ∧ lookup = .equal val) ∨
        ∃ lower upper, simpleRange e params = some (col, lower, upper) ∧
          lookup = .range lower upper) ∧
      idx.columns = [col] ∧
        ∃ schema, state.getSchema dbId table = some schema ∧ idx ∈ schema.indices := by
  have hindex : ∀ {col : String} {idx : IndexDef},
      ((state.getSchema dbId table).bind fun schema => findIndex schema col) = some idx →
        idx.columns = [col] ∧
          ∃ schema, state.getSchema dbId table = some schema ∧ idx ∈ schema.indices := by
    intro col idx hfind
    obtain ⟨schema, hschema, hfind⟩ := Option.bind_eq_some_iff.mp hfind
    have hcols := List.find?_some hfind
    exact ⟨of_decide_eq_true hcols, schema, hschema, List.mem_of_find?_eq_some hfind⟩
  simp only [fastPath] at h
  generalize hequal : (simpleEquality e params).bind _ = byEquality at h
  generalize hrange : (simpleRange e params).bind _ = byRange at h
  rcases byEquality with _ | ⟨idx', val⟩
  · rcases byRange with _ | ⟨idx', lower, upper⟩
    · exact nomatch h
    · obtain ⟨c, hc, hmap⟩ := Option.bind_eq_some_iff.mp hrange
      obtain ⟨idx'', hidx, heq⟩ := Option.map_eq_some_iff.mp hmap
      cases heq
      cases h
      exact ⟨c.1, Or.inr ⟨_, _, hc, rfl⟩, hindex hidx⟩
  · obtain ⟨c, hc, hmap⟩ := Option.bind_eq_some_iff.mp hequal
    obtain ⟨idx'', hidx, heq⟩ := Option.map_eq_some_iff.mp hmap
    cases heq
    cases h
    exact ⟨c.1, Or.inl ⟨_, hc, rfl⟩, hindex hidx⟩

/-! ### What a clause asks of its column -/

/-- The column of a clause that is one equality or one range comparison on a column. -/
def comparedColumn : Expr → Option String
  | .binaryOp left op right =>
    if op ∈ [.eq, .gt, .lt, .gtEq, .ltEq] then (columnAndOther left right).map Prod.fst else none
  | .between (.identifier id) false _ _ => some id.value
  | _ => none

/-- Whether the clause asks for a value of its column, with the other operands read without a row
and each from the first parameter on. An equality asks for what compares equal. -/
def AsksFor (params : List Value) (v : Value) : Expr → Prop
  | .binaryOp left op right => ∀ c, columnAndOther left right = some c →
    let other := evalFrom .noRow params c.2.1 0
    if op = .eq then other.compare v = .eq
    else truthy (if c.2.2 then applyBinary op other v else applyBinary op v other) = true
  | .between _ _ low high =>
    truthy (applyBetween false v (evalFrom .noRow params low 0) (evalFrom .noRow params high 0)) =
      true
  | _ => True

/-- An equality stops at the first key that it asks for. -/
def isEquality : Expr → Bool
  | .binaryOp _ .eq _ => true
  | _ => false

/-- The index that a comparison on the column would use. -/
def indexOn (col : String) : Option IndexDef :=
  (state.getSchema dbId table).bind fun schema => findIndex schema col

omit [Externals] in
theorem indexOn_columns {col : String} {idx : IndexDef}
    (h : indexOn state dbId table col = some idx) :
    idx.columns = [col] ∧ ∃ schema, state.getSchema dbId table = some schema ∧
      idx ∈ schema.indices := by
  obtain ⟨schema, hschema, hfind⟩ := Option.bind_eq_some_iff.mp h
  have hcols := List.find?_some hfind
  exact ⟨of_decide_eq_true hcols, schema, hschema, List.mem_of_find?_eq_some hfind⟩

/-- The lookup that a clause on one column asks for. -/
def askedLookup : Option (String × Lookup) :=
  match simpleEquality e params, simpleRange e params with
  | some (col, val), _ => some (col, .equal val)
  | none, some (col, lower, upper) => some (col, .range lower upper)
  | none, none => none

/-- No clause is both an equality and a range comparison. -/
theorem simpleRange_of_equality {c : String × Value} (h : simpleEquality e params = some c) :
    simpleRange e params = none := by
  unfold simpleEquality at h
  split at h
  · next left right =>
      rw [simpleRange]
      cases columnAndOther left right with
      | none => rfl
      | some c =>
          obtain ⟨col, other, flipped⟩ := c
          cases flipped <;> rfl
  · exact nomatch h

theorem fastPath_eq : fastPath state dbId table e params = (askedLookup e params).bind fun asked =>
    (indexOn state dbId table asked.1).map fun idx => (idx, asked.2) := by
  unfold fastPath askedLookup
  cases hequal : simpleEquality e params with
  | some c =>
      rw [simpleRange_of_equality e params hequal]
      obtain ⟨col, val⟩ := c
      simp only [Option.bind_some, Option.bind_none, indexOn]
      cases (state.getSchema dbId table).bind fun schema => findIndex schema col <;> rfl
  | none =>
      cases simpleRange e params with
      | none => rfl
      | some c =>
          obtain ⟨col, lower, upper⟩ := c
          simp only [Option.bind_some, Option.bind_none, indexOn]
          cases (state.getSchema dbId table).bind fun schema => findIndex schema col <;> rfl

theorem askedLookup_fst : (askedLookup e params).map Prod.fst = comparedColumn e := by
  unfold askedLookup comparedColumn
  cases e with
  | binaryOp left op right =>
      cases hcol : columnAndOther left right with
      | none => cases op <;> simp [simpleEquality, simpleRange, hcol]
      | some c =>
          obtain ⟨col, other, flipped⟩ := c
          cases op <;> cases flipped <;>
            simp [simpleEquality, simpleRange, hcol, flipComparison]
  | between inner negated low high =>
      cases inner <;> cases negated <;> simp [simpleEquality, simpleRange]
  | _ => rfl

end FastPath

section Keys

variable {state : KvsState} {dbId : UInt32} {table : String} {idx : IndexDef}
  (hexact : MapExact state dbId table idx) {v : Value} {ids : List RowId}
  (hkey : (v, ids) ∈ (state.indexStore dbId table idx.name).entries)
include hexact hkey

omit [Externals] hexact in
theorem mem_keys_range (lower upper : Bound Value) :
    v ∈ (Lookup.range lower upper).keys (state.indexStore dbId table idx.name) ↔
      BTreeMap.aboveLower Value.compare lower v = true ∧
        BTreeMap.belowUpper Value.compare upper v = true := by
  rw [← Bool.and_eq_true, Lookup.keys, Lookup.hits, BTreeMap.range, List.mem_map]
  constructor
  · rintro ⟨e, he, rfl⟩
    exact (List.mem_filter.mp he).2
  · exact fun hin => ⟨(v, ids), List.mem_filter.mpr ⟨hkey, hin⟩, rfl⟩

omit [Externals] in
/-- The keys are in order, so the first that compares equal is the least. -/
theorem mem_keys_equal (x : Value) :
    v ∈ (Lookup.equal x).keys (state.indexStore dbId table idx.name) ↔ x.compare v = .eq ∧
      ∀ k ∈ (state.indexStore dbId table idx.name).entries, x.compare k.1 = .eq →
        k.1.compare v ≠ .lt := by
  have hascending := hexact.ascending
  rw [Lookup.keys, Lookup.hits]
  generalize (state.indexStore dbId table idx.name).entries = es at hkey hascending
  cases hfind : es.find? fun e => x.compare e.1 == .eq with
  | none =>
      refine iff_of_false List.not_mem_nil fun ⟨heq, _⟩ => ?_
      exact List.find?_eq_none.mp hfind (v, ids) hkey (beq_iff_eq.mpr heq)
  | some e =>
      obtain ⟨hfound, before, after, rfl, hbefore⟩ := List.find?_eq_some_iff_append.mp hfind
      rw [beq_iff_eq] at hfound
      obtain ⟨-, hafter, hacross⟩ := List.pairwise_append.mp hascending
      rw [Option.toList_some, List.map_singleton, List.mem_singleton]
      constructor
      · rintro rfl
        refine ⟨hfound, fun k hk heq hlt => ?_⟩
        rcases List.mem_append.mp hk with hin | hin
        · exact absurd heq (by simpa using hbefore k hin)
        rcases List.mem_cons.mp hin with rfl | hin
        · rw [Value.compare_self] at hlt
          cases hlt
        · rw [Value.compare_swap, List.rel_of_pairwise_cons hafter hin] at hlt
          cases hlt
      · rintro ⟨heq, hleast⟩
        rcases List.mem_append.mp hkey with hin | hin
        · exact absurd heq (by simpa using hbefore _ hin)
        rcases List.mem_cons.mp hin with rfl | hin
        · rfl
        · exact absurd (List.rel_of_pairwise_cons hafter hin)
            (hleast e (List.mem_append_right _ List.mem_cons_self) hfound)

/-- Of the keys of an index, a lookup finds those that the clause asks for, and an equality the
first of them only. -/
theorem mem_keys_iff {e : Expr} {params : List Value} {col : String} {lookup : Lookup}
    (hasked : askedLookup e params = some (col, lookup)) :
    v ∈ lookup.keys (state.indexStore dbId table idx.name) ↔ AsksFor params v e ∧
      (isEquality e = true → ∀ k ∈ (state.indexStore dbId table idx.name).entries,
        AsksFor params k.1 e → k.1.compare v ≠ .lt) := by
  cases e with
  | binaryOp left op right =>
      cases hcol : columnAndOther left right with
      | none => cases op <;> simp [askedLookup, simpleEquality, simpleRange, hcol] at hasked
      | some c =>
          obtain ⟨col', other, flipped⟩ := c
          have hswap := Value.compare_swap v (evalFrom .noRow params other 0)
          cases op <;> cases flipped <;>
            simp only [askedLookup, simpleEquality, simpleRange, hcol, flipComparison,
              Bool.false_eq_true, if_false, if_true, Option.some.injEq, Prod.mk.injEq,
              reduceCtorEq] at hasked
          all_goals obtain ⟨-, rfl⟩ := hasked
          case eq.false | eq.true =>
            rw [mem_keys_equal hexact hkey]
            simp [AsksFor, hcol, isEquality]
          all_goals
            rw [mem_keys_range hkey]
            simp [AsksFor, hcol, isEquality, applyBinary, truthy_boolVal, BTreeMap.aboveLower,
              BTreeMap.belowUpper, hswap]
  | between inner negated low high =>
      have hswap := Value.compare_swap v (evalFrom .noRow params low 0)
      cases inner <;> cases negated <;>
        simp only [askedLookup, simpleEquality, simpleRange, Option.some.injEq, Prod.mk.injEq,
          reduceCtorEq] at hasked
      obtain ⟨-, rfl⟩ := hasked
      rw [mem_keys_range hkey]
      simp [AsksFor, isEquality, applyBetween, truthy_boolVal, BTreeMap.aboveLower,
        BTreeMap.belowUpper, hswap]
  | _ => simp [askedLookup, simpleEquality, simpleRange] at hasked

end Keys

/-! ### The same rows -/

section Rows

variable {store : Store}

omit [Externals] in
theorem tagRow_inj {r r' : RowId} {row row' : Row} (h : tagRow r row = tagRow r' row') : r = r' := by
  have hget := congrArg (fun row => row.get "_rowid_") h
  simp only [tagRow, IndexMap.get_insert_self, Option.some.injEq, Value.integer.injEq] at hget
  exact (UInt64.toUInt64_toInt64 r).symm.trans
    ((congrArg Int64.toUInt64 hget).trans (UInt64.toUInt64_toInt64 r'))

omit [Externals] in
theorem nodup_fetched {ids : List RowId} (h : ids.Nodup) :
    (ids.filterMap fun r => (store.get r).map (tagRow r)).Nodup := by
  refine h.filterMap fun r r' x hr hr' => ?_
  obtain ⟨row, -, rfl⟩ := Option.map_eq_some_iff.mp hr
  obtain ⟨row', -, heq⟩ := Option.map_eq_some_iff.mp hr'
  exact (tagRow_inj heq).symm

omit [Externals] in
theorem mem_fetched {ids : List RowId} {x : Row} :
    x ∈ ids.filterMap (fun r => (store.get r).map (tagRow r)) ↔
      ∃ r row, r ∈ ids ∧ store.get r = some row ∧ tagRow r row = x := by
  simp only [List.mem_filterMap, Option.map_eq_some_iff]
  constructor
  · rintro ⟨r, hr, row, hrow⟩
    exact ⟨r, row, hr, hrow⟩
  · rintro ⟨r, row, hr, hrow⟩
    exact ⟨r, hr, row, hrow⟩

theorem nodup_scanned : ((hashOrder store.entries).map fun e => tagRow e.1 e.2).Nodup := by
  have hperm := hashOrder_perm store.entries
  refine List.Nodup.map_on (fun e he e' he' heq => ?_) (hperm.nodup_iff.mpr store.entries_nodup)
  exact List.inj_on_of_nodup_map store.nodup (hperm.mem_iff.mp he) (hperm.mem_iff.mp he')
    (tagRow_inj heq)

theorem mem_scanned {x : Row} :
    x ∈ (hashOrder store.entries).map (fun e => tagRow e.1 e.2) ↔
      ∃ r row, store.get r = some row ∧ tagRow r row = x := by
  simp only [List.mem_map, (hashOrder_perm store.entries).mem_iff, Prod.exists,
    IndexMap.mem_entries_iff_get]

/-- The rows fetched are among those scanned, so what is left to ask is whether any is missing. -/
theorem filter_fetched_perm_iff {ids : List RowId} (hids : ids.Nodup) (holds : Row → Bool) :
    ((ids.filterMap fun r => (store.get r).map (tagRow r)).filter holds).Perm
        (((hashOrder store.entries).map fun e => tagRow e.1 e.2).filter holds) ↔
      ∀ r row, store.get r = some row → holds (tagRow r row) = true → r ∈ ids := by
  rw [List.perm_ext_iff_of_nodup ((nodup_fetched hids).filter _) (nodup_scanned.filter _)]
  simp only [List.mem_filter, mem_fetched, mem_scanned]
  constructor
  · intro h r row hrow hholds
    obtain ⟨⟨r', _, hr', _, heq⟩, _⟩ := (h (tagRow r row)).mpr ⟨⟨r, row, hrow, rfl⟩, hholds⟩
    exact tagRow_inj heq ▸ hr'
  · intro h x
    refine and_congr_left fun hholds => ⟨?_, ?_⟩
    · rintro ⟨r, row, -, hrow⟩
      exact ⟨r, row, hrow⟩
    · rintro ⟨r, row, hrow, rfl⟩
      exact ⟨r, row, h r row hrow hholds, hrow, rfl⟩

end Rows

/-! ### Operands without columns -/

mutual

/-- Whether an expression names a column. -/
def readsColumn : Expr → Bool
  | .identifier _ | .compoundIdentifier _ => true
  | .value _ | .other _ _ => false
  | .nested e | .unaryOp _ e | .isNull e | .isNotNull e => readsColumn e
  | .binaryOp left _ right => readsColumn left || readsColumn right
  | .between e _ low high => readsColumn e || readsColumn low || readsColumn high
  | .inList e list _ => readsColumn e || readsColumnEach list
  | .like _ e pattern | .iLike _ e pattern => readsColumn e || readsColumn pattern
  | .case operand conditions results elseResult =>
    readsColumnOption operand || readsColumnEach conditions || readsColumnEach results
      || readsColumnOption elseResult
  | .function _ args _ _ => readsColumnArgs args

def readsColumnEach : List Expr → Bool
  | [] => false
  | e :: es => readsColumn e || readsColumnEach es

def readsColumnOption : Option Expr → Bool
  | none => false
  | some e => readsColumn e

def readsColumnArgs : List FunctionArg → Bool
  | [] => false
  | arg :: args => readsColumnArg arg || readsColumnArgs args

def readsColumnArg : FunctionArg → Bool
  | .unnamed arg | .named _ arg => readsColumnArgExpr arg

def readsColumnArgExpr : FunctionArgExpr → Bool
  | .expr e => readsColumn e
  | .qualifiedWildcard | .wildcard => false

end

section Constant

variable (ctx ctx' : EvalCtx) (params : List Value)

mutual

/-- Without a column there is nothing to take from the row. -/
theorem eval_ctx_irrel (e : Expr) (h : readsColumn e = false) :
    eval ctx params e = eval ctx' params e := by
  cases e with
  | identifier id => exact nomatch h
  | compoundIdentifier parts => exact nomatch h
  | value v => rfl
  | other text placeholders => rfl
  | nested e => simp only [eval, eval_ctx_irrel e h]
  | unaryOp op e => simp only [eval, eval_ctx_irrel e h]
  | isNull e => simp only [eval, eval_ctx_irrel e h]
  | isNotNull e => simp only [eval, eval_ctx_irrel e h]
  | binaryOp left op right =>
      rw [readsColumn, Bool.or_eq_false_iff] at h
      simp only [eval, eval_ctx_irrel left h.1, eval_ctx_irrel right h.2]
  | between e negated low high =>
      rw [readsColumn, Bool.or_eq_false_iff, Bool.or_eq_false_iff] at h
      simp only [eval, eval_ctx_irrel e h.1.1, eval_ctx_irrel low h.1.2, eval_ctx_irrel high h.2]
  | inList e list negated =>
      rw [readsColumn, Bool.or_eq_false_iff] at h
      simp only [eval, eval_ctx_irrel e h.1, evalEach_ctx_irrel list h.2]
  | like negated e pattern =>
      rw [readsColumn, Bool.or_eq_false_iff] at h
      simp only [eval, eval_ctx_irrel e h.1, eval_ctx_irrel pattern h.2]
  | iLike negated e pattern =>
      rw [readsColumn, Bool.or_eq_false_iff] at h
      simp only [eval, eval_ctx_irrel e h.1, eval_ctx_irrel pattern h.2]
  | case operand conditions results elseResult =>
      rw [readsColumn, Bool.or_eq_false_iff, Bool.or_eq_false_iff, Bool.or_eq_false_iff] at h
      simp only [eval, evalOption_ctx_irrel operand h.1.1.1, evalEach_ctx_irrel conditions h.1.1.2,
        evalEach_ctx_irrel results h.1.2, evalOption_ctx_irrel elseResult h.2]
  | function name args distinct clausePlaceholders =>
      simp only [eval, evalArgs_ctx_irrel args h]

theorem evalEach_ctx_irrel (es : List Expr) (h : readsColumnEach es = false) :
    evalEach ctx params es = evalEach ctx' params es := by
  cases es with
  | nil => rfl
  | cons e es =>
      rw [readsColumnEach, Bool.or_eq_false_iff] at h
      simp only [evalEach, eval_ctx_irrel e h.1, evalEach_ctx_irrel es h.2]

theorem evalOption_ctx_irrel (o : Option Expr) (h : readsColumnOption o = false) :
    evalOption ctx params o = evalOption ctx' params o := by
  cases o with
  | none => rfl
  | some e => simp only [evalOption, eval_ctx_irrel e h]

theorem evalArgs_ctx_irrel (args : List FunctionArg) (h : readsColumnArgs args = false) :
    evalArgs ctx params args = evalArgs ctx' params args := by
  cases args with
  | nil => rfl
  | cons arg args =>
      rw [readsColumnArgs, Bool.or_eq_false_iff] at h
      simp only [evalArgs, evalArg_ctx_irrel arg h.1, evalArgs_ctx_irrel args h.2]

theorem evalArg_ctx_irrel (arg : FunctionArg) (h : readsColumnArg arg = false) :
    evalArg ctx params arg = evalArg ctx' params arg := by
  cases arg with
  | unnamed arg => simp only [evalArg, evalArgExpr_ctx_irrel arg h]
  | named name arg => simp only [evalArg, evalArgExpr_ctx_irrel arg h]

theorem evalArgExpr_ctx_irrel (arg : FunctionArgExpr) (h : readsColumnArgExpr arg = false) :
    evalArgExpr ctx params arg = evalArgExpr ctx' params arg := by
  cases arg with
  | expr e => simp only [evalArgExpr, eval_ctx_irrel e h]
  | qualifiedWildcard => rfl
  | wildcard => rfl

end

end Constant

/-- The WHERE clauses whose operands need no row, and where the second bound of BETWEEN does not
depend on what the first has read. -/
def Pinned (params : List Value) : Expr → Prop
  | .binaryOp left _ right =>
    ∀ c, columnAndOther left right = some c → readsColumn c.2.1 = false
  | .between _ _ low high => readsColumn low = false ∧ readsColumn high = false ∧
    evalFrom .noRow params high (eval .noRow params low 0).2 = evalFrom .noRow params high 0
  | _ => True

omit [Externals] in
theorem columnAndOther_cases {left right other : Expr} {col : String} {flipped : Bool}
    (h : columnAndOther left right = some (col, other, flipped)) :
    ∃ id : Ident, id.value = col ∧ ((flipped = false ∧ left = .identifier id ∧ right = other) ∨
      (flipped = true ∧ right = .identifier id ∧ left = other)) := by
  unfold columnAndOther at h
  split at h
  · next other id =>
      split_ifs at h
      cases h
      exact ⟨id, rfl, Or.inl ⟨rfl, rfl, rfl⟩⟩
  · next other id _ =>
      split_ifs at h
      cases h
      exact ⟨id, rfl, Or.inr ⟨rfl, rfl, rfl⟩⟩
  · exact nomatch h

section Holds

variable (s : KvsState) (dbId : UInt32) {row : Row} (params : List Value) {col : String} {v : Value}
  (hv : row.get col = some v)
include hv

omit [Externals] in
theorem lookupColumn_withRow : lookupColumn (.withRow row) col = v := by
  rw [lookupColumn, EvalCtx.withRow, Option.bind_some, hv, Option.getD_some]

/-- A comparison with a constant compares the value in the row with it. -/
theorem whereHolds_comparison {left right other : Expr} {op : BinaryOperator} {flipped : Bool}
    (hand : op ≠ .and) (hor : op ≠ .or)
    (hcol : columnAndOther left right = some (col, other, flipped))
    (hother : readsColumn other = false) :
    whereHolds s dbId row params (.binaryOp left op right) 0 =
      let c := evalFrom .noRow params other 0
      truthy (if flipped then applyBinary op c v else applyBinary op v c) := by
  have heval : whereHolds s dbId row params (.binaryOp left op right) 0 =
      truthy (applyBinary op (eval (.withRow row) params left 0).1
        (eval (.withRow row) params right (eval (.withRow row) params left 0).2).1) := by
    cases op <;> first | rfl | contradiction
  obtain ⟨id, rfl, ⟨rfl, rfl, rfl⟩ | ⟨rfl, rfl, rfl⟩⟩ := columnAndOther_cases hcol
  · rw [heval, eval_ctx_irrel (.withRow row) .noRow params right hother, eval]
    change truthy (applyBinary op (lookupColumn _ _) _) = _
    rw [lookupColumn_withRow hv]
    rfl
  · rw [heval, eval_ctx_irrel (.withRow row) .noRow params left hother]
    simp only [eval]
    change truthy (applyBinary op _ (lookupColumn _ _)) = _
    rw [lookupColumn_withRow hv]
    rfl

theorem whereHolds_between {id : Ident} {low high : Expr} (hcol : id.value = col)
    (hpinned : Pinned params (.between (.identifier id) false low high)) :
    whereHolds s dbId row params (.between (.identifier id) false low high) 0 =
      truthy (applyBetween false v (evalFrom .noRow params low 0) (evalFrom .noRow params high 0)) := by
  obtain ⟨hlow, hhigh, hsame⟩ := hpinned
  have heval : whereHolds s dbId row params (.between (.identifier id) false low high) 0 =
      truthy (applyBetween false (lookupColumn (.withRow row) id.value)
        (eval (.withRow row) params low 0).1
        (eval (.withRow row) params high (eval (.withRow row) params low 0).2).1) := rfl
  rw [heval, hcol, lookupColumn_withRow hv, eval_ctx_irrel (.withRow row) .noRow params low hlow,
    eval_ctx_irrel (.withRow row) .noRow params high hhigh, ← evalFrom, ← evalFrom, hsame]

/-- Where an equality with a constant holds, the constant compares like the value in the row. -/
theorem compare_of_equality {e : Expr} {val : Value}
    (hsimple : simpleEquality e params = some (col, val)) (hpinned : Pinned params e)
    (hholds : whereHolds s dbId row params e 0 = true) (c : Value) : val.compare c = v.compare c := by
  unfold simpleEquality at hsimple
  split at hsimple
  · next left right =>
      split at hsimple
      · exact nomatch hsimple
      · next col' other flipped hcol =>
          obtain ⟨rfl, rfl⟩ := Prod.mk.inj (Option.some.inj hsimple)
          rw [whereHolds_comparison s dbId params hv (by decide : BinaryOperator.eq ≠ .and)
            (by decide) hcol (hpinned _ hcol)] at hholds
          cases flipped
          · simp only [Bool.false_eq_true, if_false, applyBinary, truthy_boolVal] at hholds
            exact (Value.compare_congr hholds c).symm
          · simp only [if_true, applyBinary, truthy_boolVal] at hholds
            exact Value.compare_congr hholds c
  · exact nomatch hsimple

/-- Where a range comparison with constants holds, the value in the row lies in the range. -/
theorem mem_range_of_comparison {e : Expr} {lower upper : Bound Value}
    (hsimple : simpleRange e params = some (col, lower, upper)) (hpinned : Pinned params e)
    (hholds : whereHolds s dbId row params e 0 = true) :
    BTreeMap.aboveLower Value.compare lower v = true ∧
      BTreeMap.belowUpper Value.compare upper v = true := by
  unfold simpleRange at hsimple
  split at hsimple
  · next left op right =>
      split at hsimple
      · exact nomatch hsimple
      · next col' other flipped hcol =>
          have hcmp : col' = col → op ≠ .and → op ≠ .or →
              whereHolds s dbId row params (.binaryOp left op right) 0 =
                let c := evalFrom .noRow params other 0
                truthy (if flipped then applyBinary op c v else applyBinary op v c) := by
            rintro rfl hand hor
            exact whereHolds_comparison s dbId params hv hand hor hcol (hpinned _ hcol)
          have hswap := Value.compare_swap v (evalFrom .noRow params other 0)
          cases flipped <;> cases op <;>
            simp only [Bool.false_eq_true, if_false, if_true, flipComparison, Option.some.injEq,
              Prod.mk.injEq, reduceCtorEq] at hsimple
          all_goals
            obtain ⟨hc, rfl, rfl⟩ := hsimple
            rw [hcmp hc (by decide) (by decide)] at hholds
            simp only [Bool.false_eq_true, if_false, if_true, applyBinary, truthy_boolVal, hswap,
              BTreeMap.aboveLower, BTreeMap.belowUpper, and_true, true_and] at hholds ⊢
            cases hvc : v.compare (evalFrom .noRow params other 0) <;> rw [hvc] at hholds <;>
              first | rfl | exact nomatch hholds
  · next inner low high =>
      split at hsimple
      · next id =>
          simp only [Option.some.injEq, Prod.mk.injEq] at hsimple
          obtain ⟨hc, rfl, rfl⟩ := hsimple
          rw [whereHolds_between s dbId params hv hc hpinned, applyBetween, truthy_boolVal,
            Bool.bne_false, Bool.and_eq_true] at hholds
          refine ⟨?_, hholds.2⟩
          rw [BTreeMap.aboveLower, Value.compare_swap v]
          cases hvc : v.compare (evalFrom .noRow params low 0) <;> rw [hvc] at hholds <;>
            first | rfl | exact nomatch hholds.1
      · exact nomatch hsimple
  · exact nomatch hsimple

end Holds

/-- A lookup whose constants are those of the clause finds every row on which the clause holds, as
long as the row has a value in the column. -/
theorem mem_keys_of_pinned {s : KvsState} {dbId : UInt32} {table : String} {idx : IndexDef}
    (hexact : MapExact s dbId table idx) {e : Expr} {params : List Value} {lookup : Lookup}
    (hpath : fastPath s dbId table e params = some (idx, lookup)) (hpinned : Pinned params e)
    (hcol : idx.columns ≠ ["_rowid_"]) {rowid : RowId} {row : Row}
    (hrow : s.row ⟨dbId, table, rowid⟩ = some row) {v : Value} (hv : indexValue idx row = some v)
    (hholds : whereHolds s dbId (tagRow rowid row) params e 0 = true) :
    v ∈ lookup.keys (s.indexStore dbId table idx.name) := by
  obtain ⟨col, hsimple, hcols, -⟩ := fastPath_cases s dbId table e params hpath
  obtain ⟨ids, hids, -⟩ := (hexact.lists_iff v rowid).mpr (by rw [hrow]; exact hv)
  have hget : (tagRow rowid row).get col = some v := by
    rw [indexValue, hcols] at hv
    rw [tagRow, IndexMap.get_insert, if_neg fun heq => hcol (by rw [hcols, heq])]
    exact hv
  rw [Lookup.keys, List.mem_map]
  rcases hsimple with ⟨val, hequal, rfl⟩ | ⟨lower, upper, hrange, rfl⟩
  · have hcompare := compare_of_equality s dbId params hget hequal hpinned hholds
    rw [Lookup.hits]
    cases hfind : (s.indexStore dbId table idx.name).entries.find? fun e =>
        val.compare e.1 == .eq with
    | none =>
        refine absurd ?_ (List.find?_eq_none.mp hfind _ hids)
        simp only [hcompare, Value.compare_self, beq_self_eq_true]
    | some e =>
        have he := List.find?_some hfind
        simp only [hcompare, beq_iff_eq] at he
        exact ⟨e, List.mem_singleton_self e,
          (hexact.eq_of_compare hids (List.mem_of_find?_eq_some hfind) he).symm⟩
  · have hin := mem_range_of_comparison s dbId params hget hrange hpinned hholds
    refine ⟨(v, ids), List.mem_filter.mpr ⟨hids, ?_⟩, rfl⟩
    rw [hin.1, hin.2, Bool.and_self]

section SameRows

variable (state : KvsState) (dbId : UInt32) (table : String) (e : Expr) (params : List Value)

/-- A stored row on which the clause holds. -/
def FoundRow (rowid : RowId) (row : Row) : Prop :=
  state.row ⟨dbId, table, rowid⟩ = some row ∧
    whereHolds state dbId (tagRow rowid row) params e 0 = true

/-- The clause asks for the value also with its operands read apart; for an equality the value is
the least key of the index that compares equal. -/
def AsksForKey (idx : IndexDef) (v : Value) : Prop :=
  AsksFor params v e ∧ (isEquality e = true →
    ∀ k ∈ (state.indexStore dbId table idx.name).entries, AsksFor params k.1 e →
      k.1.compare v ≠ .lt)

/-- On exact indexes, and where the lookup does not panic, the fast path gives the rows of a full
scan exactly when every row on which the clause holds has a value in the column that the clause asks
for with its operands read apart. That is so of every row with a value, when the operands name no
column and the upper bound of BETWEEN reads what it reads after the lower one. -/
theorem fast_path_same_rows_iff
    (hexact : ∀ schema, state.getSchema dbId table = some schema →
      ∀ idx ∈ schema.indices, MapExact state dbId table idx)
    (rows : List Row) (hok : rowsForSimpleWhere state dbId table (some e) params = .ok rows) :
    let holds (row : Row) := whereHolds state dbId row params e 0
    ∃ all, scanRows state dbId table = .ok all ∧
      ((rows.filter holds).Perm (all.filter holds) ↔
        ∀ col idx, comparedColumn e = some col → indexOn state dbId table col = some idx →
          ∀ rowid row, FoundRow state dbId table e params rowid row →
            ∃ v, row.get col = some v ∧ AsksForKey state dbId table e params idx v) ∧
      (Pinned params e → (∀ col idx, comparedColumn e = some col →
          indexOn state dbId table col = some idx → col ≠ "_rowid_" ∧
            ∀ rowid row, FoundRow state dbId table e params rowid row → (row.get col).isSome) →
        (rows.filter holds).Perm (all.filter holds)) := by
  intro holds
  rw [rowsForSimpleWhere_eq] at hok
  have hfst := askedLookup_fst e params
  cases hpath : fastPath state dbId table e params with
  | none =>
      rw [hpath] at hok
      refine ⟨rows, hok, iff_of_true (.refl _) fun col idx hcol hidx => ?_, fun _ _ => .refl _⟩
      rw [← hfst] at hcol
      obtain ⟨asked, hasked, rfl⟩ := Option.map_eq_some_iff.mp hcol
      rw [fastPath_eq, hasked, Option.bind_some, hidx] at hpath
      cases hpath
  | some path =>
      obtain ⟨idx, lookup⟩ := path
      rw [hpath] at hok
      have hpath' := hpath
      rw [fastPath_eq] at hpath'
      obtain ⟨⟨col, lookup'⟩, hasked, hmap⟩ := Option.bind_eq_some_iff.mp hpath'
      obtain ⟨idx', hon, heq⟩ := Option.map_eq_some_iff.mp hmap
      obtain ⟨hidx', hlookup⟩ : idx' = idx ∧ lookup' = lookup := Prod.mk.inj heq
      subst idx' lookup'
      rw [hasked, Option.map_some] at hfst
      obtain ⟨hcols, schema, hschema, hin⟩ := indexOn_columns state dbId table hon
      have hidx := hexact schema hschema idx hin
      simp only at hok
      split_ifs at hok
      rw [rowsFromIds] at hok
      cases hstore : state.getTableStore dbId table with
      | none =>
          rw [hstore] at hok
          cases hok
      | some store =>
          rw [hstore] at hok
          obtain rfl := Except.ok.inj hok
          have hrow : ∀ rowid, state.row ⟨dbId, table, rowid⟩ = store.get rowid := fun rowid => by
            rw [KvsState.row, KvsState.rowAt, hstore, Option.bind_some]
          have hvalue : ∀ row : Row, indexValue _ row = row.get col := fun row => by
            rw [indexValue, hcols, List.head?_cons, Option.bind_some]
          have hids : ∀ r row, store.get r = some row →
              (r ∈ lookup.ids (state.indexStore dbId table idx.name) ↔ ∃ v, row.get col = some v ∧
                v ∈ lookup.keys (state.indexStore dbId table idx.name)) :=
            fun r row hget => by
              rw [hidx.mem_ids_iff, hrow, hget]
              exact exists_congr fun v => and_congr_left' (by rw [filed, Option.bind_some, hvalue])
          refine ⟨_, by rw [scanRows, hstore], ?_⟩
          rw [filter_fetched_perm_iff (hidx.ids_nodup lookup)]
          constructor
          · constructor
            · intro h col' idx' hcol' hidx' r row hfound
              obtain rfl := Option.some.inj (hfst.trans hcol')
              obtain rfl := Option.some.inj (hon.symm.trans hidx')
              have hget := (hrow r).symm.trans hfound.1
              obtain ⟨v, hv, hkey⟩ := (hids r row hget).mp (h r row hget hfound.2)
              obtain ⟨ids, hlisted, -⟩ := (hidx.lists_iff v r).mpr (by
                rw [hfound.1, filed, Option.bind_some, hvalue, hv])
              exact ⟨v, hv, (mem_keys_iff hidx hlisted hasked).mp hkey⟩
            · intro h r row hget hholds
              have hstored := (hrow r).trans hget
              obtain ⟨v, hv, hasks⟩ := h col idx hfst.symm hon r row ⟨hstored, hholds⟩
              obtain ⟨ids, hlisted, -⟩ := (hidx.lists_iff v r).mpr (by
                rw [hstored, filed, Option.bind_some, hvalue, hv])
              exact (hids r row hget).mpr ⟨v, hv, (mem_keys_iff hidx hlisted hasked).mpr hasks⟩
          · intro hpinned h r row hget hholds
            obtain ⟨hne, hpresent⟩ := h col idx hfst.symm hon
            have hstored := (hrow r).trans hget
            obtain ⟨v, hv⟩ := Option.isSome_iff_exists.mp (hpresent r row ⟨hstored, hholds⟩)
            refine (hids r row hget).mpr ⟨v, hv, ?_⟩
            refine mem_keys_of_pinned hidx hpath hpinned (fun heq => hne ?_) hstored
              ((hvalue row).trans hv) hholds
            rw [hcols] at heq
            exact List.singleton_inj.mp heq

end SameRows

/-! ### Where it fails -/

namespace Sample

/-- `CREATE TABLE t (a INT)` and `CREATE INDEX i ON t (a)`, with a row for each value. -/
def indexed (values : List SqlValue) : List Call :=
  [call (create []) none, call createIndex none, call (insert values) none]

/-- `a BETWEEN ? AND ?`. -/
def betweenParams : Expr :=
  .between (.identifier (name "a")) false (.value (.placeholder "?")) (.value (.placeholder "?"))

/-- `a > 1`. -/
def aboveOne : Expr := .binaryOp (.identifier (name "a")) .gt (.value (.number "1"))

end Sample

omit [Externals] in
theorem mapExact_of_check {s : KvsState} (h : s.exactCheck = true) {dbId : UInt32} {table : String}
    (hmaps : ∀ schema, s.getSchema dbId table = some schema → ∀ idx ∈ schema.indices,
      (s.indexStore dbId table idx.name).entries.Pairwise (fun e e' => e.1.compare e'.1 = .lt) ∧
        ∀ e ∈ (s.indexStore dbId table idx.name).entries, e.2.Nodup) :
    ∀ schema, s.getSchema dbId table = some schema →
      ∀ idx ∈ schema.indices, MapExact s dbId table idx := by
  intro schema hschema idx hin
  have hexact := indexesExact_of_check h dbId table
  have htidy := hexact.tidy schema hschema idx hin
  obtain ⟨hascending, hnodup⟩ := hmaps schema hschema idx hin
  refine ⟨hascending, hnodup, fun v rowid => ⟨fun ⟨ids, hids, hr⟩ => ?_, fun hfiled => ?_⟩⟩
  · have hv := htidy.keyed.mem _ hids
    refine (hexact.entry_iff rowid idx v ⟨schema, hschema, hin⟩ hv).mp ?_
    rw [Entry, bucket, (BTreeMap.get_eq_some_iff compare_reflects htidy.keyed hv).mpr hids]
    exact hr
  · have hv := filed_not_real (hexact.realFree rowid) hfiled
    have hentry := (hexact.entry_iff rowid idx v ⟨schema, hschema, hin⟩ hv).mpr hfiled
    rw [Entry, bucket] at hentry
    cases hget : (s.indexStore dbId table idx.name).get Value.compare v with
    | none => simp [hget] at hentry
    | some ids =>
        rw [hget] at hentry
        exact ⟨ids, (BTreeMap.get_eq_some_iff compare_reflects htidy.keyed hv).mp hget, hentry⟩

omit [Externals] in
/-- `a BETWEEN ? AND ?` with 1 and 3 reads both bounds of the lookup from the first parameter, so
the rows with 2 and 3 are not fetched. -/
theorem between_misses_rows :
    letI := Externals.ofTexts [] []
    let s := Sample.after (Sample.indexed [.number "1", .number "2", .number "3"])
    let params := [.integer 1, .integer 3]
    let holds (row : Row) := whereHolds s 0 row params Sample.betweenParams 0
    (∀ schema, s.getSchema 0 "t" = some schema →
      ∀ idx ∈ schema.indices, MapExact s 0 "t" idx) ∧
    ∃ rows all, rowsForSimpleWhere s 0 "t" (some Sample.betweenParams) params = .ok rows ∧
      scanRows s 0 "t" = .ok all ∧ ¬(rows.filter holds).Perm (all.filter holds) := by
  let _ := Externals.ofTexts [] []
  intro s params holds
  obtain ⟨hcheck, hindices, hentries, hrows, hall, hlength, hlength'⟩ : s.exactCheck = true ∧
      (s.getSchema 0 "t").map TableSchema.indices = some [⟨"i", ["a"], false, none, false⟩] ∧
      (s.indexStore 0 "t" "i").entries =
        [(.integer 1, [1]), (.integer 2, [2]), (.integer 3, [3])] ∧
      rowsForSimpleWhere s 0 "t" (some Sample.betweenParams) params =
        .ok [tagRow 1 (Sample.row 1)] ∧
      scanRows s 0 "t" =
        .ok [tagRow 1 (Sample.row 1), tagRow 2 (Sample.row 2), tagRow 3 (Sample.row 3)] ∧
      ([tagRow 1 (Sample.row 1)].filter holds).length = 1 ∧
      ([tagRow 1 (Sample.row 1), tagRow 2 (Sample.row 2),
        tagRow 3 (Sample.row 3)].filter holds).length = 3 := by
    decide
  refine ⟨mapExact_of_check hcheck fun schema hschema idx hin => ?_, _, _, hrows, hall,
    fun hperm => ?_⟩
  · rw [hschema, Option.map_some, Option.some.injEq] at hindices
    rw [hindices, List.mem_singleton] at hin
    rw [hin, hentries]
    decide
  · have heq := hperm.length_eq
    rw [hlength, hlength'] at heq
    exact nomatch heq

omit [Externals] in
/-- `a > 1` fetches the rows with 2 and 3. -/
theorem above_one_same_rows :
    letI := Externals.ofTexts [] []
    let s := Sample.after (Sample.indexed [.number "1", .number "2", .number "3"])
    let holds (row : Row) := whereHolds s 0 row [] Sample.aboveOne 0
    ∃ all, scanRows s 0 "t" = .ok all ∧
      ([tagRow 2 (Sample.row 2), tagRow 3 (Sample.row 3)].filter holds).Perm (all.filter holds) := by
  let _ := Externals.ofTexts [] []
  intro s holds
  obtain ⟨hcheck, hindices, hentries, hrows, hsimple⟩ : s.exactCheck = true ∧
      (s.getSchema 0 "t").map TableSchema.indices = some [⟨"i", ["a"], false, none, false⟩] ∧
      (s.indexStore 0 "t" "i").entries =
        [(.integer 1, [1]), (.integer 2, [2]), (.integer 3, [3])] ∧
      rowsForSimpleWhere s 0 "t" (some Sample.aboveOne) [] =
        .ok [tagRow 2 (Sample.row 2), tagRow 3 (Sample.row 3)] ∧
      (s.getTableStore 0 "t").map IndexMap.values =
        some [Sample.row 1, Sample.row 2, Sample.row 3] := by
    decide
  have hexact := mapExact_of_check hcheck fun schema hschema idx hin => by
    rw [hschema, Option.map_some, Option.some.injEq] at hindices
    rw [hindices, List.mem_singleton] at hin
    rw [hin, hentries]
    decide
  clear_value s
  obtain ⟨all, hall, -, hsame⟩ :=
    fast_path_same_rows_iff s 0 "t" Sample.aboveOne [] hexact _ hrows
  refine ⟨all, hall, hsame (fun c hc => ?_) fun col idx hcol _ => ?_⟩
  · rw [← Option.some.inj hc]
    rfl
  · obtain rfl : "a" = col := Option.some.inj hcol
    refine ⟨by decide, fun rowid row hfound => ?_⟩
    obtain ⟨store, hstore, hget⟩ := Option.bind_eq_some_iff.mp hfound.1
    rw [hstore, Option.map_some, Option.some.injEq] at hsimple
    have hmem : row ∈ store.values :=
      List.mem_map.mpr ⟨_, (IndexMap.mem_entries_iff_get ..).mpr hget, rfl⟩
    rw [hsimple] at hmem
    simp only [List.mem_cons, List.not_mem_nil, or_false] at hmem
    rcases hmem with rfl | rfl | rfl <;> rfl

end Skvs
