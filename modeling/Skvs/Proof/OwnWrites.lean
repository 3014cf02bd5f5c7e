import Skvs.Proof.Updates

/-!
# The writes of a statement whose triggers write to its table

UPDATE and DELETE go through copies of the rows, collected before the first trigger has run, and store
what they make of the copies. What the triggers have done to a row in the meantime is lost, unless it
is to a column that the statement assigns.
-/

namespace Skvs

open Prog

section

variable [Externals]

/-! ### A loop over collected rows -/

/-- A statement that goes through collected rows: what comes before its own write of a row, what it
stores in place of the copy, and what comes after. -/
structure RowLoop where
  dbId : UInt32
  table : String
  txId : Option UInt32
  reach : RowId × Row → Db Unit
  after : Row → Option Row
  finish : RowId × Row → Db Unit

namespace RowLoop

variable (loop : RowLoop)

def key (entry : RowId × Row) : Key := ⟨loop.dbId, loop.table, entry.1⟩

def step (affected : UInt64) (entry : RowId × Row) : Db UInt64 := do
  loop.reach entry
  store loop.txId (loop.key entry) (some entry.2) (loop.after entry.2)
  loop.finish entry
  return affected + 1

/-- What the statement's own write of a row makes of a state. -/
def written (entry : RowId × Row) (v : World) : World :=
  v.store loop.txId (loop.key entry) (some entry.2) (loop.after entry.2)

/-- The rows that the statement itself writes, each with the state that it writes the row in. -/
def steps : List (RowId × Row) → World → List ((RowId × Row) × World)
  | [], _ => []
  | entry :: entries, w =>
    match exec (loop.reach entry) w with
    | (.error _, _) => []
    | (.ok _, v) =>
      (entry, v) :: match exec (loop.finish entry) (loop.written entry v) with
        | (.error _, _) => []
        | (.ok _, w') => steps entries w'

/-- The writes keep what is stored in the columns that are not assigned, they bring no row back, and
each of them, being counted, is of a row that is there. -/
structure NoLostUpdate (assigned : List String) (steps : List ((RowId × Row) × World)) : Prop where
  kept : ∀ x ∈ steps, ∀ stored row, x.2.kvs.row (loop.key x.1) = some stored →
    (loop.written x.1 x.2).kvs.row (loop.key x.1) = some row →
      ∀ c ∉ assigned, row.get c = stored.get c
  notRecreated : ∀ x ∈ steps, x.2.kvs.row (loop.key x.1) = none →
    (loop.written x.1 x.2).kvs.row (loop.key x.1) = none
  counted : ∀ x ∈ steps, (x.2.kvs.row (loop.key x.1)).isSome = true

variable {loop}

/-- A statement that gets through counts its own writes. -/
theorem foldlM_step_affected {entries : List (RowId × Row)} {affected n : UInt64} {w w' : World}
    (hok : exec (entries.foldlM loop.step affected) w = (.ok n, w')) :
    n = affected + .ofNat (loop.steps entries w).length := by
  induction entries generalizing affected w with
  | nil =>
      obtain ⟨hn, -⟩ := Prod.mk.inj hok
      rw [← Except.ok.inj hn]
      exact (UInt64.add_zero affected).symm
  | cons entry entries ih =>
      rw [List.foldlM_cons] at hok
      obtain ⟨m, w₁, hstep, hrest⟩ := exec_bind_eq_ok_iff.mp hok
      obtain ⟨_, v, hreach, hstep⟩ := exec_bind_eq_ok_iff.mp hstep
      rw [exec_bind_ok (exec_store ..)] at hstep
      obtain ⟨_, w₂, hfinish, hcount⟩ := exec_bind_eq_ok_iff.mp hstep
      obtain ⟨hm, rfl⟩ := Prod.mk.inj hcount
      have hm : affected + 1 = m := Except.ok.inj hm
      have hfinish' : exec (loop.finish entry) (loop.written entry v) = (.ok _, w₂) := hfinish
      rw [steps, hreach]
      simp only
      rw [hfinish']
      calc n = m + .ofNat (loop.steps entries w₂).length := ih hrest
        _ = affected + 1 + .ofNat (loop.steps entries w₂).length := by rw [hm]
        _ = affected + .ofNat ((entry, v) :: loop.steps entries w₂).length := counted_cons ..

theorem noLostUpdate_iff {assigned : List String} {steps : List ((RowId × Row) × World)} :
    loop.NoLostUpdate assigned steps ↔ ∀ x ∈ steps, ∃ stored,
      x.2.kvs.row (loop.key x.1) = some stored ∧
        ∀ row, loop.after x.1.2 = some row → ∀ c ∉ assigned, row.get c = stored.get c := by
  have hwritten : ∀ x : (RowId × Row) × World, ∀ stored,
      x.2.kvs.row (loop.key x.1) = some stored →
        (loop.written x.1 x.2).kvs.row (loop.key x.1) = loop.after x.1.2 := by
    intro x stored hstored
    rw [written, store_row _ _ _ _ (KvsState.hasStore_of_row hstored), if_pos rfl]
  constructor
  · intro h x hx
    obtain ⟨stored, hstored⟩ := Option.isSome_iff_exists.mp (h.counted x hx)
    refine ⟨stored, hstored, fun row hrow => h.kept x hx stored row hstored ?_⟩
    rw [hwritten x stored hstored, hrow]
  · intro h
    constructor
    · intro x hx stored row hstored hrow
      obtain ⟨stored', hstored', hkept⟩ := h x hx
      obtain rfl := Option.some.inj (hstored.symm.trans hstored')
      rw [hwritten x stored hstored] at hrow
      exact hkept row hrow
    · intro x hx hnone
      obtain ⟨stored, hstored, -⟩ := h x hx
      exact nomatch hnone.symm.trans hstored
    · intro x hx
      obtain ⟨stored, hstored, -⟩ := h x hx
      rw [hstored]
      rfl

/-- Rows that nothing but the statement itself writes are as they were collected when their turn
comes. -/
theorem row_of_mem_steps {entries : List (RowId × Row)} {w : World}
    (hreach : ∀ entry w v, exec (loop.reach entry) w = (.ok (), v) →
      ∀ e, v.kvs.row (loop.key e) = w.kvs.row (loop.key e))
    (hfinish : ∀ entry w v, exec (loop.finish entry) w = (.ok (), v) →
      ∀ e, v.kvs.row (loop.key e) = w.kvs.row (loop.key e))
    (hnodup : (entries.map Prod.fst).Nodup)
    (hrows : ∀ e ∈ entries, w.kvs.row (loop.key e) = some e.2) :
    ∀ x ∈ loop.steps entries w, x.2.kvs.row (loop.key x.1) = some x.1.2 := by
  induction entries generalizing w with
  | nil => exact fun x hx => absurd hx List.not_mem_nil
  | cons entry entries ih =>
      rw [List.map_cons, List.nodup_cons] at hnodup
      rw [List.forall_mem_cons] at hrows
      intro x hx
      rw [steps] at hx
      rcases hexec : exec (loop.reach entry) w with ⟨_ | u, v⟩
      · rw [hexec] at hx
        exact absurd hx List.not_mem_nil
      · rw [hexec] at hx
        have hv := hreach entry w v hexec
        have hstored : v.kvs.row (loop.key entry) = some entry.2 := (hv entry).trans hrows.1
        rcases List.mem_cons.mp hx with rfl | hx
        · exact hstored
        · rcases hlast : exec (loop.finish entry) (loop.written entry v) with ⟨_ | u', w'⟩
          · rw [hlast] at hx
            exact absurd hx List.not_mem_nil
          · rw [hlast] at hx
            refine ih hnodup.2 (fun e he => ?_) x hx
            have hne : loop.key e ≠ loop.key entry := fun hkey =>
              hnodup.1 ((Key.mk.inj hkey).2.2 ▸ List.mem_map_of_mem he)
            calc w'.kvs.row (loop.key e)
                = (loop.written entry v).kvs.row (loop.key e) := hfinish entry _ w' hlast e
              _ = v.kvs.row (loop.key e) := by
                  rw [written, store_row _ _ _ _ (KvsState.hasStore_of_row hstored), if_neg hne]
              _ = some e.2 := (hv e).trans (hrows.2 e he)

end RowLoop

/-! ### UPDATE and DELETE -/

section Statements

variable (fire : Fire) (dbId : UInt32) (txId : Option UInt32)

def updateLoop (table : String) (schema : TableSchema) (assignments : List Assignment)
    (params : List Value) : RowLoop where
  dbId := dbId
  table := table
  txId := txId
  reach entry := do
    let state ← Prog.read World.kvs
    check (validateConstraints state dbId schema (updatedRow assignments params entry.2) entry.1)
    fire table .update .before (some entry.2) (some (updatedRow assignments params entry.2))
  after oldRow := some (updatedRow assignments params oldRow)
  finish entry :=
    fire table .update .after (some entry.2) (some (updatedRow assignments params entry.2))

def deleteLoop (table : String) : RowLoop where
  dbId := dbId
  table := table
  txId := txId
  reach entry := fire table .delete .before (some entry.2) none
  after _ := none
  finish entry := fire table .delete .after (some entry.2) none

theorem updateRow_eq_step (table : String) (schema : TableSchema) (assignments : List Assignment)
    (params : List Value) :
    updateRow fire dbId table schema txId assignments params =
      (updateLoop fire dbId txId table schema assignments params).step := by
  funext affected entry
  rw [updateRow_eq]
  simp only [RowLoop.step, updateLoop, RowLoop.key, bind_assoc]

theorem deleteRow_eq_step (table : String) :
    deleteRow fire dbId table txId = (deleteLoop fire dbId txId table).step := by
  funext affected entry
  rw [deleteRow_eq]
  rfl

/-- A column that the SET list does not assign is taken over. -/
theorem get_updatedRow_of_not_assigned {assignments : List Assignment} (params : List Value)
    (oldRow : Row) {c : String} (hc : c ∉ assignments.map assignedColumn) :
    (updatedRow assignments params oldRow).get c = oldRow.get c := by
  have hgo : ∀ newRow paramIdx,
      (applyAssignments params oldRow assignments newRow paramIdx).1.get c = newRow.get c := by
    induction assignments with
    | nil => exact fun _ _ => rfl
    | cons assignment assignments ih =>
        rw [List.map_cons, List.mem_cons, not_or] at hc
        intro newRow paramIdx
        refine (ih hc.2 _ _).trans ?_
        rw [IndexMap.get_insert, if_neg hc.1]
  exact hgo oldRow 0

/-- No trigger of the table writes a row of it. -/
def LeavesRows (table : String) : Prop :=
  ∀ event timing oldRow newRow w w', exec (fire table event timing oldRow newRow) w = (.ok (), w') →
    ∀ rowid, w'.kvs.row ⟨dbId, table, rowid⟩ = w.kvs.row ⟨dbId, table, rowid⟩

variable {fire dbId txId} {w w' : World} {result : QueryResult}

theorem executeUpdate_noLostUpdate_iff {relation : TableFactor} {assignments : List Assignment}
    {selection : Option Expr} {params : List Value}
    (hok : exec (executeUpdate fire dbId relation assignments selection params txId) w =
      (.ok result, w')) :
    ∃ store schema, w.kvs.getTableStore dbId relation.name = some store ∧
      w.kvs.getSchema dbId relation.name = some schema ∧
      let loop := updateLoop fire dbId txId relation.name schema assignments params
      let steps := loop.steps (matchingRows w.kvs dbId store selection params
        (setParamCount assignments)) w
      let assigned := assignments.map assignedColumn
      result = .affected (.ofNat steps.length) ∧
      (loop.NoLostUpdate assigned steps ↔ ∀ x ∈ steps, ∃ stored,
        x.2.kvs.row (loop.key x.1) = some stored ∧ ∀ c ∉ assigned, stored.get c = x.1.2.get c) ∧
      (LeavesRows fire dbId relation.name → loop.NoLostUpdate assigned steps) := by
  rw [executeUpdate, exec_bind_ok (exec_read World.kvs w)] at hok
  obtain ⟨store, w₁, hstore, hok⟩ := exec_bind_eq_ok_iff.mp hok
  obtain ⟨hstore, rfl⟩ := orRaise_ok hstore
  obtain ⟨schema, w₂, hschema, hok⟩ := exec_bind_eq_ok_iff.mp hok
  obtain ⟨hschema, rfl⟩ := orRaise_ok hschema
  obtain ⟨n, w₃, hfold, hok⟩ := exec_bind_eq_ok_iff.mp hok
  obtain ⟨hresult, rfl⟩ := Prod.mk.inj hok
  refine ⟨store, schema, hstore, hschema, ?_⟩
  intro loop steps assigned
  rw [updateRow_eq_step] at hfold
  have hn := RowLoop.foldlM_step_affected hfold
  rw [UInt64.zero_add] at hn
  have hiff : loop.NoLostUpdate assigned steps ↔ ∀ x ∈ steps, ∃ stored,
      x.2.kvs.row (loop.key x.1) = some stored ∧ ∀ c ∉ assigned, stored.get c = x.1.2.get c := by
    rw [RowLoop.noLostUpdate_iff]
    refine forall₂_congr fun x _ => exists_congr fun stored => and_congr_right fun _ => ?_
    constructor
    · intro h c hc
      rw [← h _ rfl c hc, get_updatedRow_of_not_assigned params x.1.2 hc]
    · intro h row hrow c hc
      obtain rfl := Option.some.inj hrow
      rw [h c hc, get_updatedRow_of_not_assigned params x.1.2 hc]
  refine ⟨hn ▸ (Except.ok.inj hresult).symm, hiff, fun hleaves => hiff.mpr fun x hx => ?_⟩
  refine ⟨x.1.2, RowLoop.row_of_mem_steps (fun entry u v hreach e => ?_)
    (fun entry u v hfinish e => ?_) (matchingRows_nodup ..)
    (fun e he => row_of_mem_matchingRows hstore he) x hx, fun _ _ => rfl⟩
  · obtain ⟨_, u₁, hread, hreach⟩ := exec_bind_eq_ok_iff.mp hreach
    obtain ⟨_, u₂, hcheck, hfire⟩ := exec_bind_eq_ok_iff.mp hreach
    obtain ⟨-, rfl⟩ := Prod.mk.inj hread
    obtain ⟨-, rfl⟩ := Prod.mk.inj hcheck
    exact hleaves _ _ _ _ u v hfire e.1
  · exact hleaves _ _ _ _ u v hfinish e.1

theorem executeDelete_noLostUpdate_iff {tables : List String} {from_ : List TableWithJoins}
    {selection : Option Expr} {params : List Value}
    (hok : exec (executeDelete fire dbId tables from_ selection params txId) w = (.ok result, w')) :
    ∃ table store, deleteTarget tables from_ = some table ∧
      w.kvs.getTableStore dbId table = some store ∧
      let loop := deleteLoop fire dbId txId table
      let steps := loop.steps (matchingRows w.kvs dbId store selection params 0) w
      result = .affected (.ofNat steps.length) ∧
      (loop.NoLostUpdate [] steps ↔ ∀ x ∈ steps, ∃ stored,
        x.2.kvs.row (loop.key x.1) = some stored) ∧
      (LeavesRows fire dbId table → loop.NoLostUpdate [] steps) := by
  obtain ⟨table, w₀, hraise, hrun⟩ := exec_bind_eq_ok_iff.mp hok
  obtain ⟨htarget, rfl⟩ := orRaise_ok hraise
  rw [exec_bind_ok (exec_read World.kvs w₀)] at hrun
  obtain ⟨store, w₁, hraise, hrun⟩ := exec_bind_eq_ok_iff.mp hrun
  obtain ⟨hstore, rfl⟩ := orRaise_ok hraise
  obtain ⟨n, w₃, hfold, hrun⟩ := exec_bind_eq_ok_iff.mp hrun
  obtain ⟨hresult, rfl⟩ := Prod.mk.inj hrun
  refine ⟨table, store, htarget, hstore, ?_⟩
  intro loop steps
  rw [deleteRow_eq_step] at hfold
  have hn := RowLoop.foldlM_step_affected hfold
  rw [UInt64.zero_add] at hn
  have hiff : loop.NoLostUpdate [] steps ↔ ∀ x ∈ steps, ∃ stored,
      x.2.kvs.row (loop.key x.1) = some stored := by
    rw [RowLoop.noLostUpdate_iff]
    refine forall₂_congr fun x _ => exists_congr fun stored => ?_
    exact and_iff_left fun row hrow => nomatch hrow
  refine ⟨hn ▸ (Except.ok.inj hresult).symm, hiff, fun hleaves => hiff.mpr fun x hx => ?_⟩
  have hreach : ∀ entry u v, exec (loop.reach entry) u = (.ok (), v) →
      ∀ e, v.kvs.row (loop.key e) = u.kvs.row (loop.key e) :=
    fun entry u v hexec e => hleaves _ _ _ _ u v hexec e.1
  have hfinish : ∀ entry u v, exec (loop.finish entry) u = (.ok (), v) →
      ∀ e, v.kvs.row (loop.key e) = u.kvs.row (loop.key e) :=
    fun entry u v hexec e => hleaves _ _ _ _ u v hexec e.1
  exact ⟨x.1.2, RowLoop.row_of_mem_steps hreach hfinish (matchingRows_nodup ..)
    (fun e he => row_of_mem_matchingRows hstore he) x hx⟩

/-- An UPDATE or DELETE that gets through counts its own writes, and it loses and revives nothing just
when each of them finds its row stored, and an UPDATE finds it as it was collected but for the columns
that it assigns. Triggers that write no row of the table leave it so. -/
theorem no_lost_update_iff (fire : Fire) (dbId : UInt32) (txId : Option UInt32) (w w' : World)
    (result : QueryResult) (selection : Option Expr) (params : List Value) :
    (∀ relation assignments, exec (executeUpdate fire dbId relation assignments selection params txId)
        w = (.ok result, w') →
      ∃ store schema, w.kvs.getTableStore dbId relation.name = some store ∧
        w.kvs.getSchema dbId relation.name = some schema ∧
        let loop := updateLoop fire dbId txId relation.name schema assignments params
        let steps := loop.steps (matchingRows w.kvs dbId store selection params
          (setParamCount assignments)) w
        let assigned := assignments.map assignedColumn
        result = .affected (.ofNat steps.length) ∧
        (loop.NoLostUpdate assigned steps ↔ ∀ x ∈ steps, ∃ stored,
          x.2.kvs.row (loop.key x.1) = some stored ∧ ∀ c ∉ assigned, stored.get c = x.1.2.get c) ∧
        (LeavesRows fire dbId relation.name → loop.NoLostUpdate assigned steps)) ∧
    ∀ tables from_, exec (executeDelete fire dbId tables from_ selection params txId) w =
        (.ok result, w') →
      ∃ table store, deleteTarget tables from_ = some table ∧
        w.kvs.getTableStore dbId table = some store ∧
        let loop := deleteLoop fire dbId txId table
        let steps := loop.steps (matchingRows w.kvs dbId store selection params 0) w
        result = .affected (.ofNat steps.length) ∧
        (loop.NoLostUpdate [] steps ↔ ∀ x ∈ steps, ∃ stored,
          x.2.kvs.row (loop.key x.1) = some stored) ∧
        (LeavesRows fire dbId table → loop.NoLostUpdate [] steps) :=
  ⟨fun _ _ => executeUpdate_noLostUpdate_iff, fun _ _ => executeDelete_noLostUpdate_iff⟩

end Statements

end

namespace Sample

@[reducible]
def strikeExternals : Externals :=
  .ofTexts [("DELETE FROM t WHERE a = 2", [.delete ["t"] []
    (some (.binaryOp (.identifier (name "a")) .eq (.value (.number "2"))))])] []

def strikeTrigger : TriggerDef :=
  { name := "r", timing := .before, event := .update, table := "t", condition := none
    forEachRow := true, body := "DELETE FROM t WHERE a = 2" }

/-- Rows of the values 1 and 2. -/
def strikeState : KvsState :=
  letI := strikeExternals
  after [call (create []) none, call (insert [.number "1"]) none, call (insert [.number "2"]) none]

def strikeStore : Store := .ofList [(1, row 1), (2, row 2)]

def strikeSchema : TableSchema :=
  letI := strikeExternals
  buildSchema "t" [⟨name "a", .int, []⟩] []

/-- The second row is deleted before any UPDATE. -/
def strikeWorld : World := ⟨strikeState.addTrigger 0 "t" strikeTrigger, []⟩

def strikeFire : Fire :=
  letI := strikeExternals
  fireTriggers (fun stmt => executeSingleStatement 2 0 stmt [] none) 0

end Sample

theorem delete_and_update_two_rows :
    letI := Sample.strikeExternals
    let assignments : List Assignment := [⟨[Sample.name "a"], .value (.number "3")⟩]
    let update := updateLoop Sample.strikeFire 0 none "t" Sample.strikeSchema assignments []
    let delete := deleteLoop Sample.strikeFire 0 none "t"
    let rows := Sample.strikeStore.entries
    update.NoLostUpdate ["a"] (update.steps rows ⟨Sample.strikeState, []⟩) ∧
      delete.NoLostUpdate [] (delete.steps rows Sample.strikeWorld) := by
  let _ := Sample.strikeExternals
  intro assignments update delete rows
  have hupdate : (exec (executeUpdate Sample.strikeFire 0 (.table "t" none) assignments none [] none)
      ⟨Sample.strikeState, []⟩).1 = .ok (.affected 2) := by decide
  have hdelete : (exec (executeDelete Sample.strikeFire 0 ["t"] [] none [] none)
      Sample.strikeWorld).1 = .ok (.affected 2) := by decide
  have hstore : Sample.strikeState.getTableStore 0 "t" = some Sample.strikeStore := by decide
  have hstore' : Sample.strikeWorld.kvs.getTableStore 0 "t" = some Sample.strikeStore := by decide
  have hschema : Sample.strikeState.getSchema 0 "t" = some Sample.strikeSchema := by decide
  constructor
  · obtain ⟨store, schema, hstored, hbuilt, -, hiff, -⟩ :=
      (no_lost_update_iff Sample.strikeFire 0 none ⟨Sample.strikeState, []⟩ _ _ none []).1
        (.table "t" none) assignments (Prod.ext hupdate rfl)
    obtain rfl := Option.some.inj (hstored.symm.trans hstore)
    obtain rfl := Option.some.inj (hbuilt.symm.trans hschema)
    have hsame : ∀ x ∈ update.steps rows ⟨Sample.strikeState, []⟩,
        x.2.kvs.row (update.key x.1) = some x.1.2 := by decide
    exact hiff.mpr fun x hx => ⟨x.1.2, hsame x hx, fun _ _ => rfl⟩
  · obtain ⟨table, store, htarget, hstored, -, hiff, -⟩ :=
      (no_lost_update_iff Sample.strikeFire 0 none Sample.strikeWorld _ _ none []).2
        ["t"] [] (Prod.ext hdelete rfl)
    obtain rfl := Option.some.inj htarget
    obtain rfl := Option.some.inj (hstored.symm.trans hstore')
    have hsame : ∀ x ∈ delete.steps rows Sample.strikeWorld,
        x.2.kvs.row (delete.key x.1) = some x.1.2 := by decide
    exact hiff.mpr fun x hx => ⟨x.1.2, hsame x hx⟩

/-- `UPDATE t SET a = 3` brings back the row that the trigger deletes, and counts it. -/
theorem update_recreates_row :
    letI := Sample.strikeExternals
    let assignments : List Assignment := [⟨[Sample.name "a"], .value (.number "3")⟩]
    let loop := updateLoop Sample.strikeFire 0 none "t" Sample.strikeSchema assignments []
    let outcome := exec (executeUpdate Sample.strikeFire 0 (.table "t" none) assignments none [] none)
      Sample.strikeWorld
    outcome.1 = .ok (.affected 2) ∧ outcome.2.kvs.row ⟨0, "t", 2⟩ = some (Sample.row 3) ∧
      ¬loop.NoLostUpdate ["a"] (loop.steps Sample.strikeStore.entries Sample.strikeWorld) := by
  let _ := Sample.strikeExternals
  intro assignments loop outcome
  refine ⟨by decide, by decide, fun h => ?_⟩
  have hgone : ∃ x ∈ loop.steps Sample.strikeStore.entries Sample.strikeWorld,
      x.2.kvs.row (loop.key x.1) = none := by decide
  obtain ⟨x, hx, hnone⟩ := hgone
  have hcounted := h.counted x hx
  rw [hnone] at hcounted
  exact nomatch hcounted

end Skvs
