import Skvs.Lib.Schedule
import Skvs.Proof.SharedKeys
import Skvs.Proof.Updates

/-!
# UPDATE and the order of the rows

Every new row is checked against a table in which the rows before it are new and those behind it still
old, and the order of the rows is that of a hash map.
-/

namespace Skvs

open Prog Schedule

variable [Externals]

/-- `executeUpdate` with the rows of the store in the given order. -/
def executeUpdateIn (order : List (RowId × Row)) (fire : Fire) (dbId : UInt32) (relation : TableFactor)
    (assignments : List Assignment) (selection : Option Expr) (params : List Value)
    (txId : Option UInt32) : Db QueryResult := do
  let table := relation.name
  let state ← Prog.read World.kvs
  let _ ← orRaise (state.getTableStore dbId table) (tableNotFound table)
  let schema ← orRaise (state.getSchema dbId table) (.schema s!"Schema for {table} not found")
  let rowsToUpdate := order.filter fun entry =>
    selects state dbId selection params (setParamCount assignments) entry.2
  let affected ← rowsToUpdate.foldlM
    (updateRow fire dbId table schema txId assignments params) 0
  return .affected affected

theorem executeUpdate_eq_in {fire : Fire} {dbId : UInt32} {relation : TableFactor}
    {assignments : List Assignment} {selection : Option Expr} {params : List Value}
    {txId : Option UInt32} {w : World} {store : Store}
    (hstore : w.kvs.getTableStore dbId relation.name = some store) :
    exec (executeUpdate fire dbId relation assignments selection params txId) w =
      exec (executeUpdateIn (hashOrder store.entries) fire dbId relation assignments selection params
        txId) w := by
  rw [executeUpdate, executeUpdateIn, exec_bind_ok (exec_read World.kvs w),
    exec_bind_ok (exec_read World.kvs w), hstore]
  rfl

/-- Both runs fail, or both succeed with the same rows in the table. -/
def SameOutcome (dbId : UInt32) (table : String) :
    Except Fail QueryResult × World → Except Fail QueryResult × World → Prop
  | (.error _, _), (.error _, _) => True
  | (.ok _, w), (.ok _, w') =>
    ∀ rowid, w.kvs.row ⟨dbId, table, rowid⟩ = w'.kvs.row ⟨dbId, table, rowid⟩
  | _, _ => False

/-! ### Halfway through the statement -/

omit [Externals] in
theorem checkForeignKeys_iff_rows {s : KvsState} {dbId : UInt32} {schema : TableSchema} {row : Row} :
    checkForeignKeys s dbId schema row = .ok () ↔
      ∀ fk ∈ schema.foreignKeys, fk.column.isEmpty = false → ∀ v, row.get fk.column = some v →
        v.isNull = false → s.hasStore dbId fk.refTable = true →
          ∃ rowid' row', s.row ⟨dbId, fk.refTable, rowid'⟩ = some row' ∧
            Row.holds row' fk.refColumn v = true := by
  rw [checkForeignKeys, Except.forM_eq_ok_iff]
  refine forall₂_congr fun fk _ => ?_
  rw [checkForeignKey_ok_iff]
  refine forall_congr' fun _ => forall_congr' fun v => ?_
  constructor
  · intro h hv hnull hstore
    obtain ⟨store, hget⟩ := Option.isSome_iff_exists.mp hstore
    obtain ⟨e, he, hholds⟩ := h store hv hget hnull
    refine ⟨e.1, e.2, ?_, hholds⟩
    rw [KvsState.row, KvsState.rowAt, hget]
    exact (IndexMap.mem_entries_iff_get ..).mp he
  · intro h store hv hget hnull
    have hstore : s.hasStore dbId fk.refTable = true := by
      rw [KvsState.hasStore, hget]
      rfl
    obtain ⟨rowid', row', hrow', hholds⟩ := h hv hnull hstore
    rw [KvsState.row, KvsState.rowAt, hget] at hrow'
    exact ⟨(rowid', row'), (IndexMap.mem_entries_iff_get ..).mpr hrow', hholds⟩

theorem validateConstraints_ok_iff {s : KvsState} {dbId : UInt32} {schema : TableSchema} {row : Row}
    {rowid : RowId} :
    validateConstraints s dbId schema row rowid = .ok () ↔
      checkNotNulls schema row = .ok () ∧ checkUniqueness s dbId schema row rowid = .ok () ∧
        checkForeignKeys s dbId schema row = .ok () ∧ checkChecks schema row = .ok () := by
  rw [validateConstraints_eq, Except.bind_eq_ok_iff, Except.bind_eq_ok_iff, Except.bind_eq_ok_iff]

section Midway

variable (dbId : UInt32) (schema : TableSchema) (newRow : Row → Row) (w₀ : World)
  (selected : List (RowId × Row))

/-- The rows that the statement replaces, of those in the table. -/
structure Selected (sel : Row → Bool) : Prop where
  mem_iff : ∀ e, e ∈ selected ↔ w₀.kvs.row ⟨dbId, schema.name, e.1⟩ = some e.2 ∧ sel e.2 = true
  nodup : (selected.map Prod.fst).Nodup

/-- The table with some rows replaced; all else is as it was. -/
structure Midway (done : List (RowId × Row)) (w : World) : Prop where
  rows : ∀ rowid, w.kvs.row ⟨dbId, schema.name, rowid⟩ =
    if rowid ∈ done.map Prod.fst then (w₀.kvs.row ⟨dbId, schema.name, rowid⟩).map newRow
    else w₀.kvs.row ⟨dbId, schema.name, rowid⟩
  others : ∀ k : Key, k.table ≠ schema.name → w.kvs.row k = w₀.kvs.row k
  hasStore : ∀ table, w.kvs.hasStore dbId table = w₀.kvs.hasStore dbId table
  schemas : w.kvs.schemas = w₀.kvs.schemas
  triggers : w.kvs.triggers = w₀.kvs.triggers
  keys : KeysLookedUp w.kvs dbId schema fun row => ∃ e ∈ selected, row = newRow e.2

/-- A reference of a new row to its own table is met, or is not, whichever rows are replaced. -/
def SettledReferences (sel : Row → Bool) : Prop :=
  ∀ fk ∈ schema.foreignKeys, fk.refTable = schema.name → fk.column.isEmpty = false →
    ∀ e ∈ selected, ∀ v, (newRow e.2).get fk.column = some v → v.isNull = false →
      (Row.holds e.2 fk.refColumn v = true ∨ ∃ rowid row,
        w₀.kvs.row ⟨dbId, schema.name, rowid⟩ = some row ∧ Row.holds row fk.refColumn v = true ∧
          (sel row = true → Row.holds (newRow row) fk.refColumn v = true)) ∨
      ∀ rowid row, w₀.kvs.row ⟨dbId, schema.name, rowid⟩ = some row →
        Row.holds row fk.refColumn v = false ∧
          (rowid ≠ e.1 → sel row = true → Row.holds (newRow row) fk.refColumn v = false)

/-- What a new row must meet: the checks that look at no other replaced row, and the keys. -/
def updateRules (sel : Row → Bool) : Rules (RowId × Row) where
  sound e := checkNotNulls schema (newRow e.2) = .ok () ∧
    (∀ group ∈ schema.uniqueGroups, group.isPrimary = true →
      (groupValues group (newRow e.2)).any Value.isNull = false) ∧
    checkForeignKeys w₀.kvs dbId schema (newRow e.2) = .ok () ∧
    checkChecks schema (newRow e.2) = .ok () ∧
    ∀ rowid row, w₀.kvs.row ⟨dbId, schema.name, rowid⟩ = some row → sel row = false →
      ¬SharesKey schema (newRow e.2) row
  clashesNew e d := SharesKey schema (newRow e.2) (newRow d.2)
  clashesOld e d := SharesKey schema (newRow e.2) d.2
  symm := SharesKey.symm

end Midway

section Steps

variable {dbId : UInt32} {schema : TableSchema} {newRow : Row → Row} {w₀ w : World}
  {selected done rest : List (RowId × Row)} {sel : Row → Bool} {e : RowId × Row}
  {txId : Option UInt32}

omit [Externals] in
theorem Midway.start
    (hkeys : KeysLookedUp w₀.kvs dbId schema fun row => ∃ e ∈ selected, row = newRow e.2) :
    Midway dbId schema newRow w₀ selected [] w₀ :=
  ⟨fun _ => rfl, fun _ _ => rfl, fun _ => rfl, rfl, rfl, hkeys⟩

theorem Midway.replace (h : Midway dbId schema newRow w₀ selected done w)
    (hstore : w₀.kvs.hasStore dbId schema.name = true)
    (hselected : Selected dbId schema w₀ selected sel) (he : e ∈ selected)
    (hnew : e.1 ∉ done.map Prod.fst) :
    Midway dbId schema newRow w₀ selected (e :: done)
      (w.store txId ⟨dbId, schema.name, e.1⟩ (some e.2) (some (newRow e.2))) := by
  have hstore' : w.kvs.hasStore dbId schema.name = true := (h.hasStore schema.name).trans hstore
  have hold : w₀.kvs.row ⟨dbId, schema.name, e.1⟩ = some e.2 := ((hselected.mem_iff e).mp he).1
  have hcopy : w.kvs.row ⟨dbId, schema.name, e.1⟩ = some e.2 := by rw [h.rows, if_neg hnew, hold]
  constructor
  case rows =>
    intro rowid
    rw [store_row _ _ _ _ hstore', List.map_cons]
    by_cases hk : rowid = e.1
    · subst hk
      rw [if_pos rfl, if_pos List.mem_cons_self, hold]
      rfl
    · have hmem : rowid ∈ e.1 :: done.map Prod.fst ↔ rowid ∈ done.map Prod.fst := by
        simp [hk]
      rw [if_neg fun heq => hk (Key.mk.inj heq).2.2, h.rows]
      simp only [hmem]
  case others =>
    intro k hk
    rw [store_row _ _ _ _ hstore', if_neg fun heq => hk (congrArg Key.table heq),
      h.others k hk]
  case hasStore => exact fun table => (store_hasStore ..).trans (h.hasStore table)
  case schemas => exact (store_schemas ..).trans h.schemas
  case triggers => exact (store_triggers ..).trans h.triggers
  case keys =>
    rcases h.keys with hnone | ⟨hexact, hreal⟩
    · exact .inl hnone
    · refine .inr ⟨?_, hreal⟩
      let op := undoEntry ⟨dbId, schema.name, e.1⟩ (some e.2) (some (newRow e.2))
      have hrecorded : IndexExact (w.kvs.record txId op) dbId schema.name := by
        obtain ⟨_, hrec⟩ := record_frame w.kvs txId op
        rw [hrec]
        exact ⟨⟨hexact.names, hexact.tidy, hexact.realFree⟩, hexact.entry_iff⟩
      refine hrecorded.sets (store_sets w txId _ _ _) ((record_hasStore ..).trans hstore') ?_ ?_ ?_
      · rintro - - r ⟨⟩
        exact hexact.realFree e.1 e.2 hcopy
      · rintro - - r ⟨⟩
        exact hreal _ ⟨e, he, rfl⟩
      · intro idx v _ hv
        rw [record_row, hcopy] at hv
        exact .inl hv

section Halfway

variable (h : Midway dbId schema newRow w₀ selected done w)
  (hselected : Selected dbId schema w₀ selected sel) (hperm : selected.Perm (done ++ e :: rest))
include hselected hperm

omit [Externals] in
theorem Selected.apart :
    e ∈ selected ∧ (∀ d ∈ done, d ∈ selected ∧ d.1 ≠ e.1) ∧
      ∀ r ∈ rest, r ∈ selected ∧ r.1 ≠ e.1 ∧ r.1 ∉ done.map Prod.fst := by
  have hids : ((done ++ e :: rest).map Prod.fst).Nodup :=
    (hperm.map Prod.fst).nodup_iff.mp hselected.nodup
  rw [List.map_append, List.map_cons, List.nodup_append, List.nodup_cons] at hids
  obtain ⟨-, ⟨hnot, -⟩, happart⟩ := hids
  refine ⟨hperm.mem_iff.mpr (List.mem_append_right _ List.mem_cons_self), fun d hd => ⟨?_, ?_⟩,
    fun r hr => ⟨?_, fun heq => ?_, fun hdone => ?_⟩⟩
  · exact hperm.mem_iff.mpr (List.mem_append_left _ hd)
  · exact happart _ (List.mem_map_of_mem hd) _ List.mem_cons_self
  · exact hperm.mem_iff.mpr (List.mem_append_right _ (List.mem_cons_of_mem e hr))
  · exact hnot (heq ▸ List.mem_map_of_mem hr)
  · exact happart _ hdone _ (List.mem_cons_of_mem _ (List.mem_map_of_mem hr)) rfl

include h

omit [Externals] in
theorem Midway.row_self : w.kvs.row ⟨dbId, schema.name, e.1⟩ = some e.2 := by
  obtain ⟨he, hdone, -⟩ := hselected.apart hperm
  have hnot : e.1 ∉ done.map Prod.fst := by
    intro hin
    obtain ⟨d, hd, heq⟩ := List.mem_map.mp hin
    exact (hdone d hd).2 heq
  rw [h.rows, if_neg hnot, ((hselected.mem_iff e).mp he).1]

omit [Externals] in
theorem Midway.row_done {d : RowId × Row} (hd : d ∈ done) :
    w.kvs.row ⟨dbId, schema.name, d.1⟩ = some (newRow d.2) := by
  obtain ⟨-, hdone, -⟩ := hselected.apart hperm
  rw [h.rows, if_pos (List.mem_map_of_mem hd), ((hselected.mem_iff d).mp (hdone d hd).1).1]
  rfl

omit [Externals] in
theorem Midway.row_rest {r : RowId × Row} (hr : r ∈ rest) :
    w.kvs.row ⟨dbId, schema.name, r.1⟩ = some r.2 := by
  obtain ⟨-, -, hrest⟩ := hselected.apart hperm
  obtain ⟨hin, -, hnot⟩ := hrest r hr
  rw [h.rows, if_neg hnot, ((hselected.mem_iff r).mp hin).1]

omit [Externals] in
theorem Midway.row_unselected {rowid : RowId} {row : Row}
    (hrow : w₀.kvs.row ⟨dbId, schema.name, rowid⟩ = some row) (hsel : sel row = false) :
    w.kvs.row ⟨dbId, schema.name, rowid⟩ = some row := by
  obtain ⟨-, hdone, -⟩ := hselected.apart hperm
  have hnot : rowid ∉ done.map Prod.fst := by
    intro hin
    obtain ⟨d, hd, rfl⟩ := List.mem_map.mp hin
    obtain ⟨hold, htrue⟩ := (hselected.mem_iff d).mp (hdone d hd).1
    rw [hold] at hrow
    rw [← Option.some.inj hrow, htrue] at hsel
    exact nomatch hsel
  rw [h.rows, if_neg hnot, hrow]

omit [Externals] in
/-- A replaced row is new, any other one as it was. -/
theorem Midway.row_cases {rowid : RowId} {row : Row}
    (hrow : w.kvs.row ⟨dbId, schema.name, rowid⟩ = some row) (hne : rowid ≠ e.1) :
    (∃ d ∈ done, d.1 = rowid ∧ row = newRow d.2) ∨ (rowid, row) ∈ rest ∨
      w₀.kvs.row ⟨dbId, schema.name, rowid⟩ = some row ∧ sel row = false := by
  by_cases hdone : rowid ∈ done.map Prod.fst
  · obtain ⟨d, hd, rfl⟩ := List.mem_map.mp hdone
    rw [h.row_done hselected hperm hd] at hrow
    exact .inl ⟨d, hd, rfl, (Option.some.inj hrow).symm⟩
  · rw [h.rows, if_neg hdone] at hrow
    cases hsel : sel row with
    | false => exact .inr (.inr ⟨hrow, rfl⟩)
    | true =>
        have hin := hperm.mem_iff.mp ((hselected.mem_iff (rowid, row)).mpr ⟨hrow, hsel⟩)
        rcases List.mem_append.mp hin with hin | hin
        · exact absurd (List.mem_map_of_mem hin) hdone
        · rcases List.mem_cons.mp hin with heq | hin
          · exact absurd (congrArg Prod.fst heq) hne
          · exact .inr (.inl hin)

variable (hrefs : SettledReferences dbId schema newRow w₀ selected sel)
include hrefs

omit [Externals] in
/-- The references of a row that is still to be replaced are met as before the statement. -/
theorem Midway.foreignKeys_iff :
    checkForeignKeys w.kvs dbId schema (newRow e.2) = .ok () ↔
      checkForeignKeys w₀.kvs dbId schema (newRow e.2) = .ok () := by
  obtain ⟨he, hdone, hrest⟩ := hselected.apart hperm
  have hself := h.row_self hselected hperm
  have hold := ((hselected.mem_iff e).mp he).1
  rw [checkForeignKeys_iff_rows, checkForeignKeys_iff_rows]
  refine forall₂_congr fun fk hfk => ?_
  refine forall_congr' fun hcolumn => forall₃_congr fun v hv hnull => ?_
  rw [h.hasStore]
  refine imp_congr_right fun _ => ?_
  by_cases hother : fk.refTable = schema.name
  · rw [hother]
    rcases hrefs fk hfk hother hcolumn e he v hv hnull with (hholds | hkept) | habsent
    · exact iff_of_true ⟨e.1, e.2, hself, hholds⟩ ⟨e.1, e.2, hold, hholds⟩
    · obtain ⟨rowid, row, hrow, hholds, hnew⟩ := hkept
      refine iff_of_true ?_ ⟨rowid, row, hrow, hholds⟩
      by_cases hin : rowid ∈ done.map Prod.fst
      · obtain ⟨d, hd, rfl⟩ := List.mem_map.mp hin
        obtain ⟨hd₀, hsel⟩ := (hselected.mem_iff d).mp (hdone d hd).1
        rw [hd₀] at hrow
        obtain rfl := Option.some.inj hrow
        exact ⟨d.1, _, h.row_done hselected hperm hd, hnew hsel⟩
      · exact ⟨rowid, row, by rw [h.rows, if_neg hin, hrow], hholds⟩
    · refine iff_of_false ?_ ?_
      · rintro ⟨rowid, row, hrow, hholds⟩
        by_cases hne : rowid = e.1
        · subst hne
          rw [hself] at hrow
          rw [← Option.some.inj hrow, (habsent _ _ hold).1] at hholds
          exact nomatch hholds
        · rcases h.row_cases hselected hperm hrow hne with ⟨d, hd, rfl, rfl⟩ | hr | ⟨hrow, -⟩
          · obtain ⟨hd₀, hsel⟩ := (hselected.mem_iff d).mp (hdone d hd).1
            rw [(habsent _ _ hd₀).2 hne hsel] at hholds
            exact nomatch hholds
          · have hr₀ := ((hselected.mem_iff _).mp (hrest _ hr).1).1
            rw [(habsent _ _ hr₀).1] at hholds
            exact nomatch hholds
          · rw [(habsent _ _ hrow).1] at hholds
            exact nomatch hholds
      · rintro ⟨rowid, row, hrow, hholds⟩
        rw [(habsent _ _ hrow).1] at hholds
        exact nomatch hholds
  · simp only [h.others ⟨dbId, fk.refTable, _⟩ hother]

/-- A new row passes the checks exactly if it is let through. -/
theorem Midway.validate_iff (hstore : w₀.kvs.hasStore dbId schema.name = true)
    (hschema : w₀.kvs.getSchema dbId schema.name = some schema) :
    validateConstraints w.kvs dbId schema (newRow e.2) e.1 = .ok () ↔
      (updateRules dbId schema newRow w₀ sel).LetThrough done rest e := by
  obtain ⟨he, hdone, hrest⟩ := hselected.apart hperm
  have hfinds : FindsHolders w.kvs dbId schema (newRow e.2) e.1 := by
    refine h.keys.findsHolders ?_ ((h.hasStore schema.name).trans hstore) ⟨e, he, rfl⟩
    rw [KvsState.getSchema, h.schemas]
    exact hschema
  rw [validateConstraints_ok_iff, checkUniqueness_iff_shares hfinds,
    h.foreignKeys_iff hselected hperm hrefs]
  constructor
  · rintro ⟨hnulls, ⟨hprimary, hapart⟩, hkeys, hchecks⟩
    refine ⟨⟨hnulls, hprimary, hkeys, hchecks, fun rowid row hrow hsel => ?_⟩, fun d hd => ?_,
      fun r hr => ?_⟩
    · have hne : rowid ≠ e.1 := by
        rintro rfl
        obtain ⟨hold, htrue⟩ := (hselected.mem_iff e).mp he
        rw [hold] at hrow
        rw [← Option.some.inj hrow, htrue] at hsel
        cases hsel
      exact hapart rowid row hne (h.row_unselected hselected hperm hrow hsel)
    · exact hapart d.1 _ (hdone d hd).2 (h.row_done hselected hperm hd)
    · exact hapart r.1 _ (hrest r hr).2.1 (h.row_rest hselected hperm hr)
  · rintro ⟨⟨hnulls, hprimary, hkeys, hchecks, hunselected⟩, hnew, hold⟩
    refine ⟨hnulls, ⟨hprimary, fun rowid row hne hrow => ?_⟩, hkeys, hchecks⟩
    rcases h.row_cases hselected hperm hrow hne with ⟨d, hd, -, rfl⟩ | hr | ⟨hrow, hsel⟩
    · exact hnew d hd
    · exact hold _ hr
    · exact hunselected rowid row hrow hsel

end Halfway

variable (txId) in
/-- The rows still to come are all let through, and the table ends with every selected row replaced; or
the statement stops. -/
theorem Midway.run (run : Statement → Db QueryResult) {assignments : List Assignment}
    {params : List Value} {es : List (RowId × Row)}
    (h : Midway dbId schema (updatedRow assignments params) w₀ selected done w)
    (hselected : Selected dbId schema w₀ selected sel)
    (hrefs : SettledReferences dbId schema (updatedRow assignments params) w₀ selected sel)
    (hno : w₀.kvs.getTriggers dbId schema.name = [])
    (hstore : w₀.kvs.hasStore dbId schema.name = true)
    (hschema : w₀.kvs.getSchema dbId schema.name = some schema)
    (hperm : selected.Perm (done ++ es)) (affected : UInt64) :
    let rules := updateRules dbId schema (updatedRow assignments params) w₀ sel
    let p := es.foldlM
      (updateRow (fireTriggers run dbId) dbId schema.name schema txId assignments params) affected
    (rules.Passes done es ∧ ∃ n w' done', exec p w = (.ok n, w') ∧ selected.Perm done' ∧
      Midway dbId schema (updatedRow assignments params) w₀ selected done' w') ∨
    ¬rules.Passes done es ∧ ∃ err w', exec p w = (.error err, w') := by
  induction es generalizing done w affected with
  | nil => exact .inl ⟨trivial, affected, w, done, rfl, by simpa using hperm, h⟩
  | cons e es ih =>
      have hno' : w.kvs.getTriggers dbId schema.name = [] := by
        rw [KvsState.getTriggers, h.triggers]
        exact hno
      have hvalid := h.validate_iff hselected hperm hrefs hstore hschema
      simp only [List.foldlM_cons, Rules.Passes]
      rw [exec_bind, exec_updateRow (fireTriggers_tableQuiet run) hno']
      cases hchecked : validateConstraints w.kvs dbId schema (updatedRow assignments params e.2) e.1 with
      | error err =>
          rw [hchecked] at hvalid
          refine .inr ⟨fun hpasses => ?_, _, _, rfl⟩
          cases hvalid.mpr hpasses.1
      | ok u =>
          rw [hchecked] at hvalid
          have hthrough := hvalid.mp rfl
          obtain ⟨he, hdone, -⟩ := hselected.apart hperm
          have hnew : e.1 ∉ done.map Prod.fst := by
            intro hin
            obtain ⟨d, hd, heq⟩ := List.mem_map.mp hin
            exact (hdone d hd).2 heq
          have hperm' : selected.Perm (e :: done ++ es) := hperm.trans List.perm_middle
          have hnext : Midway dbId schema (updatedRow assignments params) w₀ selected (e :: done)
              (w.store txId ⟨dbId, schema.name, e.1⟩ (some e.2)
                (some (updatedRow assignments params e.2))) :=
            h.replace hstore hselected he hnew
          simpa only [hthrough, true_and] using ih hnext hperm' (affected + 1)

end Steps

/-! ### The statement -/

section Order

variable {dbId : UInt32} {schema : TableSchema} {w : World} {store : Store} {sel : Row → Bool}

omit [Externals] in
theorem Selected.of_filter (hstore : w.kvs.getTableStore dbId schema.name = some store) :
    Selected dbId schema w (store.entries.filter fun e => sel e.2) sel where
  mem_iff e := by
    rw [List.mem_filter, mem_store_iff hstore]
  nodup := (List.filter_sublist.map Prod.fst).nodup store.nodup

omit [Externals] in
/-- Every order of the selected rows comes from an order of all rows. -/
theorem exists_order_of_selected {es : List (RowId × Row)} {l : List (RowId × Row)}
    {p : RowId × Row → Bool} (hes : es.Perm (l.filter p)) :
    ∃ order : List (RowId × Row), order.Perm l ∧ order.filter p = es := by
  refine ⟨es ++ l.filter fun a => !p a, (hes.append_right _).trans (List.filter_append_perm p l), ?_⟩
  have hall : es.filter p = es :=
    List.filter_eq_self.mpr fun a ha => List.of_mem_filter (hes.subset ha)
  rw [List.filter_append, hall, List.filter_filter]
  simp

/-- Whether an UPDATE succeeds, and with which rows, is the same for all orders of the rows if and only
if it is refused in all of them or no new row takes over a key of another selected row. -/
theorem update_order_independent_iff {run : Statement → Db QueryResult} {txId : Option UInt32}
    {relation : TableFactor} {assignments : List Assignment} {selection : Option Expr}
    {params : List Value} (hstore : w.kvs.getTableStore dbId relation.name = some store)
    (hschema : w.kvs.getSchema dbId relation.name = some schema)
    (hname : schema.name = relation.name) (hno : w.kvs.getTriggers dbId relation.name = [])
    (hkeys : KeysLookedUp w.kvs dbId schema fun row => ∃ e ∈ store.entries.filter fun e =>
      selects w.kvs dbId selection params (setParamCount assignments) e.2,
        row = updatedRow assignments params e.2) :
    let sel := selects w.kvs dbId selection params (setParamCount assignments)
    let selected := store.entries.filter fun e => sel e.2
    let newRow := updatedRow assignments params
    let rules := updateRules dbId schema newRow w sel
    let update := fun order => exec (executeUpdateIn order (fireTriggers run dbId) dbId relation
      assignments selection params txId) w
    SettledReferences dbId schema newRow w selected sel →
    exec (executeUpdate (fireTriggers run dbId) dbId relation assignments selection params txId) w =
      update (hashOrder store.entries) ∧
    ((∀ order order', order.Perm store.entries → order'.Perm store.entries →
        SameOutcome dbId relation.name (update order) (update order')) ↔
      rules.Refused selected ∨ ∀ e d, ¬rules.TakesOver selected e d) := by
  intro sel selected newRow rules update hrefs
  have hlooked : KeysLookedUp w.kvs dbId schema fun row => ∃ e ∈ selected, row = newRow e.2 := hkeys
  refine ⟨executeUpdate_eq_in hstore, ?_⟩
  rw [← hname] at hstore hno
  have hselected : Selected dbId schema w selected sel := .of_filter hstore
  have hhas : w.kvs.hasStore dbId schema.name = true := by
    rw [KvsState.hasStore, hstore]
    rfl
  have hschema' : w.kvs.getSchema dbId schema.name = some schema := hname ▸ hschema
  -- what a run in one of the orders comes to
  have houtcome : ∀ order, order.Perm store.entries →
      (rules.Passes [] (order.filter fun e => sel e.2) ∧ ∃ r w', update order = (.ok r, w') ∧
        ∀ rowid, w'.kvs.row ⟨dbId, schema.name, rowid⟩ =
          if rowid ∈ selected.map Prod.fst then (w.kvs.row ⟨dbId, schema.name, rowid⟩).map newRow
          else w.kvs.row ⟨dbId, schema.name, rowid⟩) ∨
      ¬rules.Passes [] (order.filter fun e => sel e.2) ∧ ∃ err w', update order = (.error err, w') := by
    intro order horder
    have hperm : selected.Perm ([] ++ order.filter fun e => sel e.2) := (horder.symm.filter _)
    have hupdate : update order = exec ((order.filter fun e => sel e.2).foldlM (updateRow
        (fireTriggers run dbId) dbId schema.name schema txId assignments params) 0 >>= fun n =>
          return .affected n) w := by
      change exec (executeUpdateIn order _ dbId relation assignments selection params txId) w = _
      rw [hname] at hstore
      rw [executeUpdateIn, exec_bind_ok (exec_read World.kvs w), hstore, hschema, hname]
      rfl
    rw [hupdate]
    rcases (Midway.start hlooked).run txId run hselected hrefs hno hhas hschema' hperm 0 with
      ⟨hpasses, n, w', done', hok, hdone', hend⟩ | ⟨hstuck, err, w', herr⟩
    · refine .inl ⟨hpasses, .affected n, w', by rw [exec_bind_ok hok]; rfl, fun rowid => ?_⟩
      rw [hend.rows]
      simp only [(hdone'.map Prod.fst).mem_iff]
      rfl
    · exact .inr ⟨hstuck, err, w', by rw [exec_bind_error herr]⟩
  have hsame : ∀ order order', order.Perm store.entries → order'.Perm store.entries →
      (SameOutcome dbId relation.name (update order) (update order') ↔
        (rules.Passes [] (order.filter fun e => sel e.2) ↔
          rules.Passes [] (order'.filter fun e => sel e.2))) := by
    intro order order' horder horder'
    rcases houtcome order horder with ⟨hpass, r, w', hok, hrows⟩ | ⟨hstuck, err, w', herr⟩ <;>
      rcases houtcome order' horder' with ⟨hpass', r', w'', hok', hrows'⟩ | ⟨hstuck', err', w'', herr'⟩
    · rw [hok, hok']
      exact iff_of_true (fun rowid => by rw [← hname, hrows, hrows']) (iff_of_true hpass hpass')
    · rw [hok, herr']
      exact iff_of_false id fun h => hstuck' (h.mp hpass)
    · rw [herr, hok']
      exact iff_of_false id fun h => hstuck (h.mpr hpass')
    · rw [herr, herr']
      exact iff_of_true trivial (iff_of_false hstuck hstuck')
  have hnodup : selected.Nodup := .of_map _ hselected.nodup
  rw [← passes_independent_iff hnodup]
  constructor
  · intro h es es' hes hes'
    obtain ⟨order, horder, rfl⟩ := exists_order_of_selected hes
    obtain ⟨order', horder', rfl⟩ := exists_order_of_selected hes'
    exact (hsame order order' horder horder').mp (h order order' horder horder')
  · intro h order order' horder horder'
    exact (hsame order order' horder horder').mpr (h _ _ (horder.filter _) (horder'.filter _))

end Order

namespace Sample

def rowAB (a b : Int64) : Row := .ofList [("a", .integer a), ("b", .integer b)]

/-- `CREATE TABLE t (a INT UNIQUE, b INT)` with the rows `(1, b)` and `(2, b')`. -/
def uniqueRows (b b' : String) : World :=
  letI := Externals.ofTexts [] []
  let number (n : String) : Expr := .value (.number n)
  ⟨after [
    call (.createTable "t" [⟨name "a", .int, [.unique false]⟩, ⟨name "b", .int, []⟩] [] false) none,
    call (.insert "t" [] (some ⟨.values [[number "1", number b], [number "2", number b']],
      [], none, none⟩)) none], []⟩

def setAToB : List Assignment := [⟨[name "a"], .identifier (name "b")⟩]

/-- `UPDATE t SET a = b`, with the rows in the given order. -/
def updateAToB (w : World) (order : List (RowId × Row)) : Except Fail QueryResult × World :=
  letI := Externals.ofTexts [] []
  exec (executeUpdateIn order (fireTriggers (fun _ => raise (.schema "")) 0) 0 (.table "t" none)
    setAToB none [] none) w

end Sample

omit [Externals] in
/-- Neither row takes over the key of the other: 7 and 8 are new in either order. -/
theorem update_order_independent_two :
    let w := Sample.uniqueRows "7" "8"
    let forth := [(1, Sample.rowAB 1 7), (2, Sample.rowAB 2 8)]
    w.kvs.getTableStore 0 "t" = some (.ofList forth) ∧
      SameOutcome 0 "t" (Sample.updateAToB w forth) (Sample.updateAToB w forth.reverse) := by
  let _ := Externals.ofTexts [] []
  intro w forth
  let schema := buildSchema "t"
    [⟨Sample.name "a", .int, [.unique false]⟩, ⟨Sample.name "b", .int, []⟩] []
  have hstore : w.kvs.getTableStore 0 "t" = some (.ofList forth) := by decide
  have hschema : w.kvs.getSchema 0 (TableFactor.table "t" none).name = some schema := by decide
  refine ⟨hstore, ?_⟩
  have hno : w.kvs.getTriggers 0 (TableFactor.table "t" none).name = [] := by decide
  have hfks : schema.foreignKeys = [] := rfl
  have hunindexed : ∀ col, findIndex schema col = none := fun _ => rfl
  -- the new key of a row is its `b`, which no row has for a key
  have happart : ∀ e ∈ forth, ∀ d ∈ forth,
      ¬SharesKey schema (updatedRow Sample.setAToB [] e.2) d.2 := by
    have hfree : ∀ e ∈ forth, ∀ d ∈ forth, ∀ c ∈ schema.columns.entries,
        (c.2.unique || c.2.primaryKey) = true →
          ((updatedRow Sample.setAToB [] e.2).get c.1).all (Row.holds d.2 c.1 ·) = false := by
      decide
    rintro e he d hd (⟨c, hc, hkey, v, hv, -, hholds⟩ | ⟨group, hgroup, -⟩)
    · have hnone := hfree e he d hd c hc hkey
      rw [hv, Option.all_some, hholds] at hnone
      cases hnone
    · exact absurd hgroup List.not_mem_nil
  refine (update_order_independent_iff hstore hschema rfl hno (.inl fun col _ => hunindexed col)
    ?_).2.mpr (.inr fun e d htakes => ?_) _ _ (.refl _) (List.reverse_perm _)
  · rw [SettledReferences, hfks]
    exact fun fk hfk => absurd hfk List.not_mem_nil
  · obtain ⟨he, hd, -, hclash⟩ := htakes
    exact happart e (List.mem_of_mem_filter he) d (List.mem_of_mem_filter hd) hclash

omit [Externals] in
/-- The 2 that the first row is to have is taken as long as the second row has not been replaced. -/
theorem setAToB_depends_on_order :
    let w := Sample.uniqueRows "2" "3"
    w.kvs.getTableStore 0 "t" = some (.ofList [(1, Sample.rowAB 1 2), (2, Sample.rowAB 2 3)]) ∧
    (Sample.updateAToB w [(1, Sample.rowAB 1 2), (2, Sample.rowAB 2 3)]).1 =
      .error (.err (.constraintViolation "UNIQUE constraint failed: t.a")) ∧
    (Sample.updateAToB w [(2, Sample.rowAB 2 3), (1, Sample.rowAB 1 2)]).1 = .ok (.affected 2) := by
  decide

end Skvs
