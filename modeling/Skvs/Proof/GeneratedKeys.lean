import Skvs.Proof.Catalogue
import Skvs.Proof.InsertValues
import Skvs.Proof.SharedKeys
import Skvs.Proof.UniqueIndex

/-!
# Generated keys

An INSERT that omits an INTEGER PRIMARY KEY takes the rowid for it. The counter of the rowids does
not look at the keys that statements write, so it is the writers who have to stay below it.
-/

namespace Skvs

open Prog

/-! ### Keys below a rowid -/

/-- The key of the row, where it is an INTEGER, is a number below `next`. -/
def KeyBelow (key : String) (next : RowId) (row : Row) : Prop :=
  ∀ n : Int64, row.get key = some (.integer n) → n.toInt < next.toNat

theorem KeyBelow.mono {key : String} {next last : RowId} {row : Row} (h : KeyBelow key next row)
    (hle : next ≤ last) : KeyBelow key last row := by
  intro n hn
  have hlt := h n hn
  have hle := UInt64.le_iff_toNat_le.mp hle
  omega

theorem toInt_toInt64 (rowid : RowId) :
    rowid.toInt64.toInt = (rowid.toNat : Int).bmod (2 ^ 64) := by
  rw [← Int64.toInt_toBitVec, UInt64.toBitVec_toInt64, BitVec.toInt_eq_toNat_bmod,
    UInt64.toNat_toBitVec]

theorem toInt_toInt64_lt {rowid next : RowId} (h : rowid < next) :
    rowid.toInt64.toInt < next.toNat := by
  have hlt := UInt64.lt_iff_toNat_lt.mp h
  rw [toInt_toInt64, Int.bmod_def]
  omega

theorem toInt_toInt64_of_lt {rowid : RowId} (h : rowid.toNat < 2 ^ 63) :
    rowid.toInt64.toInt = rowid.toNat := by
  rw [toInt_toInt64, Int.bmod_def]
  omega

/-! ### What a write does to the keys -/

section Run

variable {dbId : UInt32} {table key : String} {last : RowId}

/-- The key of the row is neither the rowid of the row nor the key that it had. -/
def KeyGiven (key : String) (rowid : RowId) (copy : Option Row) (row : Row) : Prop :=
  row.get key ≠ some (.integer rowid.toInt64) ∧ ∀ old, copy = some old → row.get key ≠ old.get key

/-- A row is written only where the key it is given is below the counter. The counter does not wrap:
it is above the rowids and reaches `last` in the end. -/
def writesKeyBelow (dbId : UInt32) (table key : String) (last : RowId) : WriteRule :=
  fun _ v k copy new => k.table = table → ∀ row, new = some row →
    (k.rowid < v.kvs.rowidCounter dbId table ∧ v.kvs.rowidCounter dbId table ≤ last) ∧
      (KeyGiven key k.rowid copy row → KeyBelow key (v.kvs.rowidCounter dbId table) row)

/-- The keys of the rows that are stored, and of those that a write has replaced, are below `last`. -/
structure KeysBelow (dbId : UInt32) (table key : String) (last : RowId) (w : World) : Prop where
  stored : ∀ rowid row, w.kvs.row ⟨dbId, table, rowid⟩ = some row → KeyBelow key last row
  replaced : ∀ x ∈ w.writes, x.dbId = dbId → x.table = table → ∀ row, x.before = some row →
    KeyBelow key last row

theorem KeysBelow.start {s : KvsState} {next : RowId} (hle : next ≤ last)
    (h : ∀ rowid row, s.row ⟨dbId, table, rowid⟩ = some row → KeyBelow key next row) :
    KeysBelow dbId table key last ⟨s, []⟩ :=
  ⟨fun rowid row hrow => (h rowid row hrow).mono hle, fun _ hx => absurd hx List.not_mem_nil⟩

variable [Externals]

/-- The key of a row to be written is the rowid, or that of a row that was stored, or given. -/
theorem KeysBelow.written {txId : Option UInt32} {v₁ v : World} {k : Key} {copy new : Option Row}
    (h : KeysBelow dbId table key last v) (hdb : k.dbId = dbId) (htable : k.table = table)
    (hcopied : Copied dbId txId k copy v)
    (hmeets : writesKeyBelow dbId table key last v₁ v k copy new) {row : Row}
    (hnew : new = some row) : KeyBelow key last row := by
  obtain ⟨⟨hrowid, hle⟩, hgiven⟩ := hmeets htable row hnew
  intro n hn
  by_cases hown : row.get key = some (.integer k.rowid.toInt64)
  · obtain rfl := Value.integer.inj (Option.some.inj (hn.symm.trans hown))
    have hlt := toInt_toInt64_lt hrowid
    have hle := UInt64.le_iff_toNat_le.mp hle
    omega
  by_cases hkept : ∃ old, copy = some old ∧ row.get key = old.get key
  · obtain ⟨old, rfl, hsame⟩ := hkept
    rw [hsame] at hn
    subst hdb htable
    rcases hcopied.held with hnone | hrow | ⟨x, hx, -, hkey, hbefore⟩
    · exact nomatch hnone
    · exact h.stored k.rowid old hrow n hn
    · rw [Write.key] at hkey
      exact h.replaced x hx (congrArg Key.dbId hkey) (congrArg Key.table hkey) old hbefore n hn
  · have hbelow := hgiven ⟨hown, fun old hold hsame => hkept ⟨old, hold, hsame⟩⟩
    exact hbelow.mono hle n hn

theorem writesAlong_keysBelow {txId : Option UInt32} :
    WritesAlong (writesKeyBelow dbId table key last) dbId txId
      (Keeping (KeysBelow dbId table key last)) where
  draw _ _ h := ⟨h.stored, h.replaced⟩
  store v₁ v k copy new hdb hstore _ hcopied _ hmeets h := by
    refine ⟨fun rowid row hrow => ?_, fun x hx hxdb hxtable row hbefore => ?_⟩
    · rw [store_row _ _ _ _ hstore] at hrow
      split_ifs at hrow with hk
      · obtain rfl : (⟨dbId, table, rowid⟩ : Key) = k := hk
        exact h.written rfl rfl hcopied hmeets hrow
      · exact h.stored rowid row hrow
    · rcases List.mem_append.mp hx with hx | hx
      · exact h.replaced x hx hxdb hxtable row hbefore
      · obtain rfl := List.mem_singleton.mp hx
        subst hxdb hxtable
        exact h.stored k.rowid row hbefore

theorem keysBelow_kept :
    KeptByWrites (writesKeyBelow dbId table key last) dbId (KeysBelow dbId table key last) where
  txns _ _ h := ⟨h.stored, h.replaced⟩
  writes _ := writesAlong_keysBelow
  undone w v id h hreached hback := by
    refine ⟨fun rowid row hrow => ?_, hreached.replaced⟩
    rcases hback.rollback ⟨dbId, table, rowid⟩ with hgone | hsame
    · exact nomatch hgone.symm.trans hrow
    · exact h.stored rowid row (hsame.symm.trans hrow)

/-- The calls leave the catalogue as it is, whatever they are given to run under. -/
theorem runCalls_writes_sameCatalogue (calls : List Call)
    (hcalls : ∀ call ∈ calls, call.stmt.isWrite = true) {w : World}
    (hplain : PlainTriggers w.kvs dbId) :
    SameCatalogue dbId w.kvs (Skvs.runCalls dbId calls w).kvs := by
  induction calls generalizing w with
  | nil => exact .refl
  | cons call calls ih =>
      have hdata : call.isData = true := Call.isData_of_isWrite (hcalls call List.mem_cons_self)
      have hcall : SameCatalogue dbId w.kvs (call.run dbId w).kvs := by
        refine Steps.keeps (call.run_steps_all hplain hdata)
          (P := fun v => SameCatalogue dbId w.kvs v.kvs) .refl fun v v' hv hstep => hv.trans ?_
        cases hstep with
        | change hch => exact Changes.sameCatalogue (.single hch)
        | begin => exact ⟨fun _ => rfl, fun _ => rfl, fun _ => rfl, fun _ => rfl⟩
        | @commit _ id =>
            obtain ⟨_, hframe⟩ := commit_frame v id
            rw [hframe]
            exact ⟨fun _ => rfl, fun _ => rfl, fun _ => rfl, fun _ => rfl⟩
        | rollback => exact rollback_sameCatalogue ..
      exact hcall.trans (ih (fun c' hc' => hcalls c' (List.mem_cons_of_mem call hc'))
        (hplain.of_triggers (call.run_triggers hplain hdata)))

end Run

/-! ### The checks of the key -/

/-- The PRIMARY KEY of the table is one INTEGER column. -/
structure IntegerKey (schema : TableSchema) (table key : String) : Prop where
  name : schema.name = table
  column : ∃ colDef, schema.columns.get key = some colDef ∧ colDef.primaryKey = true ∧
    colDef.dataType = .integer
  only : ∀ e ∈ schema.columns.entries, e.2.primaryKey = true → e.1 = key
  groups : ∀ group ∈ schema.uniqueGroups, group.isPrimary = true → group.columns = [key]

/-- No check of a PRIMARY KEY refuses the row. -/
structure PrimaryKeyPasses (s : KvsState) (dbId : UInt32) (schema : TableSchema) (row : Row)
    (rowid : RowId) : Prop where
  columns : ∀ e ∈ schema.columns.entries, e.2.primaryKey = true →
    checkColumnUnique s dbId schema row rowid e.1 e.2 = .ok ()
  groups : ∀ group ∈ schema.uniqueGroups, group.isPrimary = true →
    checkUniqueGroup s dbId schema row rowid group = .ok ()

section Passes

variable {s : KvsState} {dbId : UInt32} {schema : TableSchema} {table key : String} {rowid : RowId}
  {row : Row} {n : Int64} (hkey : IntegerKey schema table key)
  (hschema : s.getSchema dbId table = some schema)
  (hindex : findIndex schema key = none ∨ IndexExact s dbId table)
include hkey hschema hindex

/-- A number that is no stored row's key is not found. -/
theorem IntegerKey.not_found (hunused : ∀ rowid' row', s.row ⟨dbId, table, rowid'⟩ = some row' →
      row'.get key ≠ some (.integer n)) :
    valueExistsElsewhere s dbId schema [key] [.integer n] rowid = false := by
  obtain rfl := hkey.name
  rw [Bool.eq_false_iff]
  intro hfound
  have hheld : HeldElsewhere s dbId schema.name [key] [.integer n] rowid := by
    cases hstore : s.getTableStore dbId schema.name with
    | none =>
        rw [valueExistsElsewhere_none hstore] at hfound
        cases hfound
    | some store =>
        have hhas : s.hasStore dbId schema.name = true := by
          rw [KvsState.hasStore, hstore]
          rfl
        cases hidx : findIndex schema key with
        | none =>
            refine (valueExistsElsewhere_of_unindexed hstore fun col hcol => ?_).mp hfound
            rw [← List.head_eq_of_cons_eq hcol]
            exact hidx
        | some idx =>
            have hsome : findIndex schema key ≠ none := by simp [hidx]
            have hexact := hindex.resolve_left hsome
            exact (valueExistsElsewhere_of_exact hexact hschema hhas hidx rfl).mp hfound
  obtain ⟨rowid', row', -, hrow', hholds⟩ := hheld
  obtain ⟨v, hv, heq⟩ := holds_iff.mp (hholds (key, .integer n) List.mem_cons_self)
  obtain rfl : v = .integer n := by
    cases v <;> simp_all [Value.partialEq]
  exact hunused rowid' row' hrow' hv

theorem IntegerKey.passes (hrow : row.get key = some (.integer n))
    (hunused : ∀ rowid' row', s.row ⟨dbId, table, rowid'⟩ = some row' →
      row'.get key ≠ some (.integer n)) : PrimaryKeyPasses s dbId schema row rowid := by
  have hnot : ∀ rowid, valueExistsElsewhere s dbId schema [key] [.integer n] rowid = false :=
    fun rowid => hkey.not_found hschema hindex hunused
  refine ⟨fun e he hprimary => ?_, fun group hgroup hprimary => ?_⟩
  · rw [checkColumnUnique_ok_iff, hkey.only e he hprimary]
    intro _ val hval _
    obtain rfl := Option.some.inj (hrow.symm.trans hval)
    exact hnot rowid
  · have hvals : groupValues group row = [.integer n] := by
      rw [groupValues, hkey.groups group hgroup hprimary, List.map_singleton, hrow]
      rfl
    rw [checkUniqueGroup_ok_iff, hvals, hkey.groups group hgroup hprimary]
    exact ⟨fun _ => rfl, fun _ => hnot rowid⟩

end Passes

/-! ### The generated key -/

section Generated

variable [Externals] {dbId : UInt32} {table key : String} {schema : TableSchema}

omit [Externals] in
/-- An omitted key is the rowid drawn for the row. -/
theorem IntegerKey.generated (hkey : IntegerKey schema table key) (rowid : RowId) {row : Row}
    (homitted : row.get key = none) :
    (withDefaults schema rowid row).get key = some (.integer rowid.toInt64) := by
  obtain ⟨colDef, hcol, hprimary, htype⟩ := hkey.column
  rw [get_withDefaults, homitted, hcol, Option.none_or, Option.map_some, defaultValue, hprimary,
    htype]
  rfl

/-- After any run of INSERT, UPDATE and DELETE calls that write keys only below the counter, an
INSERT that omits the key generates one that no stored row has. The checks of the key let it
through, unless an index on the key lists rows that do not have it. -/
theorem generated_key_unused {s : KvsState} (hplain : PlainTriggers s dbId)
    (hschema : s.getSchema dbId table = some schema) (hkey : IntegerKey schema table key)
    (hstored : ∀ rowid row, s.row ⟨dbId, table, rowid⟩ = some row →
      KeyBelow key (s.rowidCounter dbId table) row)
    (calls : List Call) (hcalls : ∀ call ∈ calls, call.stmt.isWrite = true) :
    let w := runCalls dbId calls ⟨s, []⟩
    let rowid := w.kvs.rowidCounter dbId table
    s.rowidCounter dbId table ≤ rowid → rowid.toNat < 2 ^ 63 →
    CallsMeet (writesKeyBelow dbId table key rowid) dbId calls ⟨s, []⟩ →
    ∀ row : Row, row.get key = none →
      let generated := withDefaults schema rowid row
      generated.get key = some (.integer rowid.toInt64) ∧
      (∀ rowid' row', w.kvs.row ⟨dbId, table, rowid'⟩ = some row' →
        row'.get key ≠ some (.integer rowid.toInt64)) ∧
      (findIndex schema key = none ∨ IndexExact w.kvs dbId table →
        PrimaryKeyPasses (w.draw dbId table).kvs dbId schema generated rowid) := by
  intro w rowid hle hroom hmeets row homitted generated
  have hkeys : KeysBelow dbId table key rowid w :=
    keysBelow_kept.runCalls calls hcalls (.start hle hstored) hplain hmeets
  have hunused : ∀ rowid' row', w.kvs.row ⟨dbId, table, rowid'⟩ = some row' →
      row'.get key ≠ some (.integer rowid.toInt64) := by
    intro rowid' row' hrow' hused
    have hlt := hkeys.stored rowid' row' hrow' _ hused
    rw [toInt_toInt64_of_lt hroom] at hlt
    exact lt_irrefl _ hlt
  have hgenerated := hkey.generated rowid homitted
  have hsame : SameCatalogue dbId s w.kvs :=
    runCalls_writes_sameCatalogue calls hcalls (w := ⟨s, []⟩) hplain
  refine ⟨hgenerated, hunused, fun hindex => ?_⟩
  have hschema' : w.kvs.getSchema dbId table = some schema := (hsame.schemas table).trans hschema
  -- drawing the rowid changes nothing that the checks read
  have hpasses : PrimaryKeyPasses w.kvs dbId schema generated rowid :=
    hkey.passes hschema' hindex hgenerated hunused
  exact ⟨hpasses.columns, hpasses.groups⟩

end Generated

namespace Sample

/-- `CREATE TABLE t (a INT PRIMARY KEY)`. -/
def primaryTable : KvsState :=
  letI := Externals.ofTexts [] []
  after [call (create [.unique true]) none]

def primarySchema : TableSchema :=
  letI := Externals.ofTexts [] []
  buildSchema "t" [⟨name "a", .int, [.unique true]⟩] []

/-- `INSERT INTO t DEFAULT VALUES`. -/
def insertDefault : Call := call (.insert "t" [] none) none

def insertZero : Call := call (insert [.number "0"]) none

end Sample

/-- After the keys 1, generated, and 0 comes the key 3. -/
theorem generated_key_unused_three :
    letI := Externals.ofTexts [] []
    let w := runCalls 0 [Sample.insertDefault, Sample.insertZero] ⟨Sample.primaryTable, []⟩
    w.kvs.rowidCounter 0 "t" = 3 ∧ ∀ rowid row, w.kvs.row ⟨0, "t", rowid⟩ = some row →
      row.get "a" ≠ some (.integer 3) := by
  let _ := Externals.ofTexts [] []
  intro w
  have hlast : w.kvs.rowidCounter 0 "t" = 3 := by decide
  have hkey : IntegerKey Sample.primarySchema "t" "a" :=
    ⟨by decide, ⟨_, rfl, by decide, by decide⟩, by decide, by decide⟩
  have hempty : ∀ rowid row, Sample.primaryTable.row ⟨0, "t", rowid⟩ = some row →
      KeyBelow "a" (Sample.primaryTable.rowidCounter 0 "t") row := by
    have hstore : Sample.primaryTable.getTableStore 0 "t" = some ∅ := by decide
    intro rowid row hrow
    rw [KvsState.row_of_store hstore] at hrow
    cases hrow
  have hone : Sample.insertDefault.writesMeet (writesKeyBelow 0 "t" "a" 3) 0
      ⟨Sample.primaryTable, []⟩ := by
    refine writesMeet_insert_one Sample.primarySchema ∅ (by decide) (by decide) (by decide) ?_
    intro rowid _ row hrow
    have hown : row.get "a" = some (.integer rowid.toInt64) := by
      rw [← Option.some.inj hrow]
      decide
    exact ⟨by decide, fun hgiven => absurd hown hgiven.1⟩
  have htwo : Sample.insertZero.writesMeet (writesKeyBelow 0 "t" "a" 3) 0
      (Sample.insertDefault.run 0 ⟨Sample.primaryTable, []⟩) := by
    refine writesMeet_insert_one Sample.primarySchema (Sample.row 0) (by decide) (by decide)
      (by decide) ?_
    intro rowid _ row hrow
    refine ⟨by decide, fun _ n hn => ?_⟩
    have hzero : row.get "a" = some (.integer 0) := by
      rw [← Option.some.inj hrow]
      decide
    obtain rfl := Value.integer.inj (Option.some.inj (hzero.symm.trans hn))
    decide
  have hmeets : CallsMeet (writesKeyBelow 0 "t" "a" (w.kvs.rowidCounter 0 "t")) 0
      [Sample.insertDefault, Sample.insertZero] ⟨Sample.primaryTable, []⟩ := by
    rw [hlast]
    exact ⟨hone, htwo, trivial⟩
  obtain ⟨-, hunused, -⟩ := generated_key_unused (NoTriggers.of_empty (by decide)).plain
    (by decide) hkey hempty _ (by decide) (by decide) (by decide) hmeets ∅ rfl
  refine ⟨hlast, fun rowid row hrow => ?_⟩
  have hnot := hunused rowid row hrow
  rw [hlast] at hnot
  exact hnot

/-- The key 2, written under rowid 1, is generated for rowid 2 again. -/
theorem generated_key_taken :
    letI := Externals.ofTexts [] []
    let w := (Sample.call (Sample.insert [.number "2"]) none).run 0 ⟨Sample.primaryTable, []⟩
    IntegerKey Sample.primarySchema "t" "a" ∧
      Sample.primaryTable.getSchema 0 "t" = some Sample.primarySchema ∧
      w.kvs.row ⟨0, "t", 1⟩ = some (Sample.row 2) ∧
      withDefaults Sample.primarySchema (w.kvs.rowidCounter 0 "t") ∅ = Sample.row 2 ∧
      (exec (executeStatement 3 0 Sample.insertDefault.stmt [] none) w).1 =
        .error (.err (.constraintViolation "PRIMARY KEY constraint failed: t.a")) := by
  let _ := Externals.ofTexts [] []
  exact ⟨⟨by decide, ⟨_, rfl, by decide, by decide⟩, by decide, by decide⟩, by decide, by decide,
    by decide, by decide⟩

end Skvs
