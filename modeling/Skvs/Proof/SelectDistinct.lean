import Skvs.Proof.ProjectedNames
import Skvs.Proof.DistinctKey
import Skvs.Lib.Distinct

/-!
# SELECT DISTINCT

DISTINCT compares the rows by keys in which the internal rowid field takes part, and it comes last,
after LIMIT.
-/

namespace Skvs

open Distinct

section

variable [Externals]

theorem retainDistinct_eq (seen : List String) (rows : List Row) :
    retainDistinct seen rows = firsts distinctKey seen rows := by
  induction rows generalizing seen with
  | nil => rfl
  | cons row rows ih => rw [retainDistinct, firsts, ih, ih]

/-- Equal as maps. -/
def SameRow (row row' : Row) : Prop := ∀ k, row.get k = row'.get k

/-- Equal but for the internal rowid field. -/
def SameVisibly (row row' : Row) : Prop := ∀ k, k ≠ "_rowid_" → row.get k = row'.get k

omit [Externals] in
theorem sameRow_erase_iff (row row' : Row) :
    SameRow (row.erase "_rowid_") (row'.erase "_rowid_") ↔ SameVisibly row row' := by
  refine forall_congr' fun k => ?_
  rw [IndexMap.get_erase, IndexMap.get_erase]
  split_ifs with hk
  · exact iff_of_true rfl fun hne => absurd hk hne
  · exact ⟨fun h _ => h, fun h => h hk⟩

/-- Rows have the same key just when they are equal but for the internal rowid field. -/
def KeysTell (rows : List Row) : Prop :=
  ∀ row ∈ rows, ∀ row' ∈ rows, distinctKey row = distinctKey row' ↔ SameVisibly row row'

theorem represents_of_keysTell {rows : List Row} (htell : KeysTell rows) :
    Represents SameRow ((retainDistinct [] rows).map fun row => row.erase "_rowid_")
      (rows.map fun row => row.erase "_rowid_") := by
  rw [represents_map_iff, retainDistinct_eq]
  simp only [sameRow_erase_iff]
  exact firsts_represents (fun _ _ _ => rfl) htell

theorem keysTell_of_represents (hquotes : QuotesEnd) {rows : List Row}
    (hreal : ∀ row ∈ rows, ∀ v ∈ row.values, v.isReal = false)
    (htold : ∀ row ∈ rows, ∀ row' ∈ rows, NamesTold row row')
    (h : Represents SameRow ((retainDistinct [] rows).map fun row => row.erase "_rowid_")
      (rows.map fun row => row.erase "_rowid_")) : KeysTell rows := by
  rw [represents_map_iff, retainDistinct_eq] at h
  simp only [sameRow_erase_iff] at h
  have hkey : ∀ row ∈ rows, ∀ row' ∈ rows, distinctKey row = distinctKey row' → row = row' :=
    fun row hrow row' hrow' =>
      (distinctKey_eq_iff hquotes (hreal row hrow) (htold row hrow row' hrow')).mp
  intro row hrow row' hrow'
  constructor
  · intro hkeys
    exact hkey row hrow row' hrow' hkeys ▸ fun _ _ => rfl
  · intro hsame
    exact congrArg distinctKey
      (eq_of_represents (fun _ _ hr k hk => (hr k hk).symm) hkey h hrow hrow' hsame)

variable (state : KvsState) (dbId : UInt32) (params : List Value)

/-- The rows of an explicit projection have the same keys, those of the items. -/
theorem keys_explicit {query : Query} {select : Select}
    (hexplicit : isPureOrMixedWildcard select.projection = false) {rows : List Row} {row row' : Row}
    (hrow : row ∈ finishSelect state dbId query select params rows)
    (hrow' : row' ∈ finishSelect state dbId query select params rows) :
    row.keys = row'.keys ∧ row.keys ⊆ select.projection.map (rowName select) := by
  obtain ⟨step, rfl, hstep⟩ := mem_explicit_finishSelect state dbId params hexplicit hrow
  obtain ⟨step', rfl, hstep'⟩ := mem_explicit_finishSelect state dbId params hexplicit hrow'
  refine ⟨IndexMap.keys_foldl_congr hstep hstep' rfl, ?_⟩
  rw [IndexMap.keys_foldl hstep]
  exact (firsts_sublist [] _).subset

/-- No item of an explicit projection is hidden, so its keys tell its rows apart. -/
theorem keysTell_of_explicit (hquotes : QuotesEnd) {query : Query} {select : Select}
    (hexplicit : isPureOrMixedWildcard select.projection = false)
    (hvisible : "_rowid_" ∉ select.projection.map (rowName select)) {rows : List Row}
    (hreal : ∀ row ∈ finishSelect state dbId query select params rows,
      ∀ v ∈ row.values, v.isReal = false) :
    KeysTell (finishSelect state dbId query select params rows) := by
  intro row hrow row' hrow'
  obtain ⟨hkeys, hsub⟩ := keys_explicit state dbId params hexplicit hrow hrow'
  rw [distinctKey_eq_iff hquotes (hreal row hrow) (.inl hkeys)]
  refine ⟨fun h => h ▸ fun _ _ => rfl, fun hsame => IndexMap.ext_keys_get hkeys fun k => ?_⟩
  by_cases hk : k = "_rowid_"
  · have hnone : k ∉ row.keys := fun hmem => hvisible (hk ▸ hsub hmem)
    rw [(IndexMap.get_eq_none_iff row k).mpr hnone,
      (IndexMap.get_eq_none_iff row' k).mpr (hkeys ▸ hnone)]
  · exact hsame k hk

/-- DISTINCT returns one row for all that are equal just when the keys of the rows it goes through
are equal just for rows that are equal but for the internal rowid field. Such are the keys of an
explicit projection without that field. -/
theorem select_distinct_iff (hquotes : QuotesEnd) {query : Query} {select : Select}
    (hbody : query.body = .select select) (hdistinct : select.distinct = true) {fuel : Nat}
    {rows : List Row} (hrows : fromRows state dbId params fuel select = .ok rows)
    (hreal : ∀ row ∈ finishSelect state dbId query select params rows,
      ∀ v ∈ row.values, v.isReal = false) :
    let made := finishSelect state dbId query select params rows
    let plain : Query := { query with body := .select { select with distinct := false } }
    ∃ result all, executeSelect state dbId (fuel + 1) query params = .ok result ∧
      executeSelect state dbId (fuel + 1) plain params = .ok all ∧
      (KeysTell made → Represents SameRow result.rows all.rows) ∧
      ((∀ row ∈ made, ∀ row' ∈ made, NamesTold row row') →
        Represents SameRow result.rows all.rows → KeysTell made) ∧
      (isPureOrMixedWildcard select.projection = false →
        "_rowid_" ∉ select.projection.map (rowName select) → KeysTell made) := by
  intro made plain
  have hresult := executeSelect_rows state dbId params hbody fuel
  have hbodyPlain : plain.body = .select { select with distinct := false } := rfl
  have hall := executeSelect_rows state dbId params hbodyPlain fuel
  have hplain : fromRows state dbId params fuel { select with distinct := false } = .ok rows := hrows
  simp only [hrows, hdistinct, if_true] at hresult
  simp only [hplain, Bool.false_eq_true, if_false] at hall
  obtain ⟨result, hok, hresultRows⟩ := Except.map_eq_ok_iff.mp hresult
  obtain ⟨all, hokAll, hallRows⟩ := Except.map_eq_ok_iff.mp hall
  refine ⟨result, all, hok, hokAll, ?_, ?_, ?_⟩
  · intro htell
    rw [hresultRows, hallRows]
    exact represents_of_keysTell htell
  · intro htold hrepresents
    rw [hresultRows, hallRows] at hrepresents
    exact keysTell_of_represents hquotes hreal htold hrepresents
  · intro hexplicit hvisible
    exact keysTell_of_explicit state dbId params hquotes hexplicit hvisible hreal

/-! ### LIMIT -/

theorem orderedRows_limit {query : Query} {limitExpr : Expr} (hlimit : query.limit = some limitExpr)
    {n m : Nat} (hn : exprToUsize limitExpr = some n)
    (hm : query.offset.elim (some 0) exprToUsize = some m) (rows : List Row) :
    orderedRows query rows =
      ((orderedRows { query with limit := none, offset := none } rows).drop m).take n := by
  have hoffset : (query.offset.bind exprToUsize).getD 0 = m := by
    cases hcase : query.offset with
    | none =>
        rw [hcase] at hm
        exact Option.some.inj hm
    | some offset =>
        rw [hcase] at hm
        exact congrArg (Option.getD · 0) hm
  simp only [orderedRows, hlimit, applyLimit, hn, hoffset, Option.getD_some]

/-- LIMIT takes its window of the rows before they are projected, which for an explicit projection
comes to the same as after. -/
theorem finishSelect_limit {query : Query} {select : Select}
    (hexplicit : isPureOrMixedWildcard select.projection = false) {limitExpr : Expr}
    (hlimit : query.limit = some limitExpr) {n m : Nat} (hn : exprToUsize limitExpr = some n)
    (hm : query.offset.elim (some 0) exprToUsize = some m) (rows : List Row) :
    finishSelect state dbId query select params rows =
      ((finishSelect state dbId { query with limit := none, offset := none } select params
        rows).drop m).take n := by
  rw [finishSelect_eq, finishSelect_eq]
  simp only [orderedRows_limit hlimit hn hm, applyProjection_eq hexplicit, List.map_take,
    List.map_drop, apply_ite (List.take n), apply_ite (List.drop m)]

/-- There is nothing to remove from rows without an item named like the internal rowid field. -/
theorem map_erase_explicit {query : Query} {select : Select}
    (hexplicit : isPureOrMixedWildcard select.projection = false)
    (hvisible : "_rowid_" ∉ select.projection.map (rowName select)) {rows l : List Row}
    (hl : l ⊆ finishSelect state dbId query select params rows) :
    l.map (fun row => row.erase "_rowid_") = l := by
  refine (List.map_congr_left fun row hrow => ?_).trans (List.map_id l)
  have hkeys := (keys_explicit state dbId params hexplicit (hl hrow) (hl hrow)).2
  exact IndexMap.ext_entries (IndexMap.filter_ne_self fun hmem => hvisible (hkeys hmem))

/-- DISTINCT with LIMIT returns the window of the distinct rows where the window of all rows does not
cut between rows of one key, and, without an item named like the internal rowid field, only there. -/
theorem distinct_limit_iff {query : Query} {select : Select} (hbody : query.body = .select select)
    (hdistinct : select.distinct = true)
    (hexplicit : isPureOrMixedWildcard select.projection = false) {limitExpr : Expr}
    (hlimit : query.limit = some limitExpr) {n m : Nat} (hn : exprToUsize limitExpr = some n)
    (hm : query.offset.elim (some 0) exprToUsize = some m) (fuel : Nat) :
    let unlimited : Query := { query with limit := none, offset := none }
    let windowOfDistinct : Prop :=
      (executeSelect state dbId (fuel + 1) query params).map QueryResult.rows =
        (executeSelect state dbId (fuel + 1) unlimited params).map fun full =>
          (full.rows.drop m).take n
    let windowsApart : Prop := ∀ rows, fromRows state dbId params fuel select = .ok rows →
      WindowDistinct distinctKey m n (finishSelect state dbId unlimited select params rows)
    (windowsApart → windowOfDistinct) ∧
      ("_rowid_" ∉ select.projection.map (rowName select) → windowOfDistinct → windowsApart) := by
  intro unlimited windowOfDistinct windowsApart
  have hresult := executeSelect_rows state dbId params hbody fuel
  have hbodyUnlimited : unlimited.body = .select select := hbody
  have hfull := executeSelect_rows state dbId params hbodyUnlimited fuel
  simp only [hdistinct, if_true, retainDistinct_eq] at hresult hfull
  -- the two runs start from the same rows, and the internal field is removed from both in the end
  have hwindow : windowOfDistinct ↔ ∀ rows, fromRows state dbId params fuel select = .ok rows →
      let made := finishSelect state dbId unlimited select params rows
      (firsts distinctKey [] ((made.drop m).take n)).map (fun row => row.erase "_rowid_") =
        (((firsts distinctKey [] made).drop m).take n).map fun row => row.erase "_rowid_" := by
    have hcompose : (executeSelect state dbId (fuel + 1) unlimited params).map
        (fun full => (full.rows.drop m).take n) =
        ((executeSelect state dbId (fuel + 1) unlimited params).map QueryResult.rows).map
          fun rows => (rows.drop m).take n := by
      cases executeSelect state dbId (fuel + 1) unlimited params <;> rfl
    simp only [windowOfDistinct]
    rw [hcompose, hresult, hfull]
    cases fromRows state dbId params fuel select with
    | error e => exact iff_of_true rfl (by simp)
    | ok rows =>
        simp only [Except.map, Except.ok.injEq, forall_eq', List.map_take, List.map_drop,
          finishSelect_limit state dbId params hexplicit hlimit hn hm]
        rfl
  rw [hwindow]
  constructor
  · intro hapart rows hrows
    exact congrArg _ (firsts_window_iff.mpr (hapart rows hrows))
  · intro hvisible h rows hrows
    have hlists := h rows hrows
    simp only at hlists
    rw [map_erase_explicit state dbId params hexplicit hvisible,
      map_erase_explicit state dbId params hexplicit hvisible] at hlists
    · exact firsts_window_iff.mp hlists
    · exact List.Subset.trans (List.take_subset _ _)
        (List.Subset.trans (List.drop_subset _ _) (firsts_sublist _ _).subset)
    · exact List.Subset.trans (firsts_sublist _ _).subset
        (List.Subset.trans (List.take_subset _ _) (List.drop_subset _ _))

end

namespace Sample

/-- Rows of the values 1, 1 and 2. -/
def repeatedRows : KvsState :=
  letI := Externals.ofTexts [] []
  after [call (create []) none, call (insert [.number "1"]) none, call (insert [.number "1"]) none,
    call (insert [.number "2"]) none]

/-- `SELECT DISTINCT item, ... FROM t`. -/
def selectDistinct (projection : List SelectItem) : Select :=
  { selectItems projection with distinct := true }

/-- `SELECT DISTINCT a FROM t LIMIT n`. -/
def distinctLimit (n : String) : Query :=
  ⟨.select (selectDistinct [.unnamedExpr (identifier "a")]), [], some (.value (.number n)), none⟩

end Sample

theorem select_distinct_repeated :
    letI := Sample.quoting
    let select := Sample.selectDistinct [.unnamedExpr (Sample.identifier "a")]
    ∃ result all,
      executeSelect Sample.repeatedRows 0 1 (Sample.selectQuery select) [] = .ok result ∧
      executeSelect Sample.repeatedRows 0 1
        (Sample.selectQuery { select with distinct := false }) [] = .ok all ∧
      Represents SameRow result.rows all.rows := by
  let _ := Sample.quoting
  intro select
  let rows : List Row := [.ofList [("a", .integer 1), ("_rowid_", .integer 1)],
    .ofList [("a", .integer 1), ("_rowid_", .integer 2)],
    .ofList [("a", .integer 2), ("_rowid_", .integer 3)]]
  have hrows : fromRows Sample.repeatedRows 0 [] 0 select = .ok rows := by decide
  have hreal : ∀ row ∈ finishSelect Sample.repeatedRows 0 (Sample.selectQuery select) select [] rows,
      ∀ v ∈ row.values, v.isReal = false := by decide
  have hbody : (Sample.selectQuery select).body = .select select := rfl
  obtain ⟨result, all, hresult, hall, hrepresents, -, hexplicit⟩ :=
    select_distinct_iff Sample.repeatedRows 0 [] Sample.quotesEnd_quoting hbody rfl hrows hreal
  exact ⟨result, all, hresult, hall, hrepresents (hexplicit (by decide) (by decide))⟩

/-- `SELECT DISTINCT * FROM t` returns the row of the value 1 twice. -/
theorem distinct_wildcard_repeats :
    letI := Sample.quoting
    ∃ result, executeSelect Sample.repeatedRows 0 1
        (Sample.selectQuery (Sample.selectDistinct [.wildcard])) [] = .ok result ∧
      ¬result.rows.Pairwise fun row row' => ¬SameRow row row' := by
  let _ := Sample.quoting
  have hresult : executeSelect Sample.repeatedRows 0 1
      (Sample.selectQuery (Sample.selectDistinct [.wildcard])) [] = .ok (.ofRows
        [.ofList [("a", .integer 1)], .ofList [("a", .integer 1)], .ofList [("a", .integer 2)]]
        ["a"]) := by decide
  refine ⟨_, hresult, fun hapart => ?_⟩
  exact (List.pairwise_cons.mp hapart).1 _ List.mem_cons_self fun _ => rfl

theorem distinct_limit_one :
    letI := Sample.quoting
    let full : Query := { Sample.distinctLimit "1" with limit := none, offset := none }
    (executeSelect Sample.repeatedRows 0 1 (Sample.distinctLimit "1") []).map QueryResult.rows =
      (executeSelect Sample.repeatedRows 0 1 full []).map fun result =>
        (result.rows.drop 0).take 1 := by
  let _ := Sample.quoting
  intro full
  have hbody : (Sample.distinctLimit "1").body =
      .select (Sample.selectDistinct [.unnamedExpr (Sample.identifier "a")]) := rfl
  have hlimit : (Sample.distinctLimit "1").limit = some (.value (.number "1")) := rfl
  refine (distinct_limit_iff Sample.repeatedRows 0 [] hbody rfl (by decide) hlimit (by decide)
    rfl 0).1 fun rows hrows => ?_
  refine .inr (.inr (.inl ?_))
  generalize finishSelect Sample.repeatedRows 0 _ _ [] rows = made
  cases made <;> simp

/-- `SELECT DISTINCT a FROM t LIMIT 2` returns one row, and without LIMIT there are two. -/
theorem distinct_limit_too_few :
    letI := Sample.quoting
    let full : Query := { Sample.distinctLimit "2" with limit := none, offset := none }
    let one : Row := .ofList [("a", .integer 1)]
    let two : Row := .ofList [("a", .integer 2)]
    executeSelect Sample.repeatedRows 0 1 full [] = .ok (.ofRows [one, two] ["a"]) ∧
      executeSelect Sample.repeatedRows 0 1 (Sample.distinctLimit "2") [] =
        .ok (.ofRows [one] ["a"]) := by
  decide

end Skvs
