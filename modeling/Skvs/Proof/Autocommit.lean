import Skvs.Proof.Undo

/-!
# A write without a transaction

The statement runs under an id of its own, so the journal of that id covers every write its triggers
make, and the rollback after an error undoes them all.
-/

namespace Skvs

variable [Externals]

/-- Since `s`, nobody but the transaction has written: a row it has not written is as in `s`, and
its first write to a row found it as in `s`. -/
structure OnlyWriter (s : KvsState) (txId : UInt32) (w : World) : Prop where
  untouched : ∀ k, firstWrite txId k w.writes = none → w.kvs.row k = s.row k
  touched : ∀ k x, firstWrite txId k w.writes = some x → x.before = s.row k
  others : ∀ id, id ≠ txId → w.kvs.txns.active.get id = s.txns.active.get id

theorem OnlyWriter.change {s : KvsState} {txId dbId : UInt32} {w w' : World}
    (h : OnlyWriter s txId w) (hstep : Change dbId (some txId) w w') : OnlyWriter s txId w' := by
  cases hstep with
  | draw => exact ⟨h.untouched, h.touched, h.others⟩
  | store k copy after _ hstore =>
      have hfirst : ∀ k', firstWrite txId k' (w.store (some txId) k copy after).writes =
          (firstWrite txId k' w.writes).or
            (if k = k' then some ⟨some txId, k.dbId, k.table, k.rowid, w.kvs.row k, copy, after⟩
              else none) := by
        intro k'
        rw [World.store, firstWrite_append]
        simp [Write.key]
      refine ⟨fun k' hk' => ?_, fun k' x hx => ?_, fun id hid => ?_⟩
      · rw [hfirst, Option.or_eq_none_iff] at hk'
        have hne : k' ≠ k := fun heq => by simp [heq] at hk'
        rw [store_row _ k copy after hstore, if_neg hne, h.untouched k' hk'.1]
      · rw [hfirst] at hx
        cases hold : firstWrite txId k' w.writes with
        | some y =>
            rw [hold, Option.some_or] at hx
            exact Option.some.inj hx ▸ h.touched k' y hold
        | none =>
            rw [hold, Option.none_or] at hx
            split_ifs at hx with hk
            rw [← Option.some.inj hx, hk]
            exact h.untouched k' hold
      · rw [store_active, if_neg fun heq => hid (Option.some.inj heq).symm]
        exact h.others id hid

omit [Externals] in
theorem OnlyWriter.begin (s : KvsState) (dbId : UInt32) :
    OnlyWriter s s.txns.nextId (World.begin ⟨s, []⟩ dbId) where
  untouched _ _ := rfl
  touched _ _ hx := nomatch hx
  others id hid := by
    change (s.txns.active.insert s.txns.nextId _).get id = _
    rw [IndexMap.get_insert, if_neg hid]

section Rollback

variable {s : KvsState} {dbId txId : UInt32} {w : World} (hj : Journaled dbId txId w)
  (ho : OnlyWriter s txId w)
include ho

include hj in
/-- Rolling back restores all rows exactly when no INSERT was the first to write a row in use. -/
theorem OnlyWriter.rows_restored_iff :
    (∀ k, (w.rollback txId).kvs.row k = s.row k) ↔
      ∀ k x, firstWrite txId k w.writes = some x → x.copy = none → x.before = none := by
  refine ⟨fun h k x hx hnone => ?_, fun h k => ?_⟩
  · have hrow := hj.rollback_row_of_first hx
    rw [if_pos hnone, h k, ← ho.touched k x hx] at hrow
    exact hrow
  · cases hk : firstWrite txId k w.writes with
    | none => rw [hj.rollback_row, hk, ← ho.untouched k hk]
    | some x =>
        rw [hj.rollback_row_of_first hk, ← ho.touched k x hk]
        split_ifs with hnone
        · exact (h k x hk hnone).symm
        · rfl

/-- Rolling back restores the active transactions exactly when the id was not one of theirs. -/
theorem OnlyWriter.active_restored_iff :
    (∀ id, (w.rollback txId).kvs.txns.active.get id = s.txns.active.get id) ↔
      s.txns.isActive txId = false := by
  rw [TxnManager.isActive, IndexMap.contains, Option.isSome_eq_false_iff, Option.isNone_iff_eq_none]
  refine ⟨fun h => ?_, fun h id => ?_⟩
  · rw [← h, rollback_active, if_pos rfl]
  · rw [rollback_active]
    split_ifs with hid
    · rw [hid, h]
    · exact ho.others id hid

end Rollback

/-- A failing statement leaves the rows and the active transactions as they were exactly when the id
it drew was not that of an active transaction, and none of its INSERTs was the first to write a
rowid that was already in use. -/
theorem autocommit_error_restores_iff (s : KvsState) (dbId : UInt32) (hplain : PlainTriggers s dbId)
    (fuel : Nat) (stmt : Statement) (hwrite : stmt.isWrite = true) (params : List Value)
    (e : SkvsError)
    (hfail : (Prog.exec (executeStatement fuel dbId stmt params none) ⟨s, []⟩).1 =
      .error (.err e)) :
    let w' := (Prog.exec (executeStatement fuel dbId stmt params none) ⟨s, []⟩).2
    ((∀ k, w'.kvs.row k = s.row k) ∧ ∀ id, w'.kvs.txns.active.get id = s.txns.active.get id) ↔
      s.txns.isActive s.txns.nextId = false ∧
        ∀ k x, firstWrite s.txns.nextId k w'.writes = some x → x.copy = none → x.before = none := by
  rw [executeStatement_write hwrite] at hfail ⊢
  simp only [exec_executeAtomically] at hfail ⊢
  have hmoves := executeSingleStatement_moves fuel dbId stmt (stmt.isPlain_of_isWrite hwrite) params (some s.txns.nextId)
    (World.begin ⟨s, []⟩ dbId) hplain
  rw [Prog.Moves] at hmoves
  generalize Prog.exec (executeSingleStatement fuel dbId stmt params (some s.txns.nextId))
    (World.begin ⟨s, []⟩ dbId) = out at hfail hmoves ⊢
  obtain ⟨outcome, w⟩ := out
  obtain rfl : outcome = .error (.err e) := by
    rcases outcome with (_ | _ | _) | _ <;> exact hfail
  have hj : Journaled dbId s.txns.nextId w := (Journaled.begin s dbId).changes hmoves
  have ho : OnlyWriter s s.txns.nextId w :=
    Changes.keeps hmoves (OnlyWriter.begin s dbId) fun _ _ hv hstep => hv.change hstep
  exact (and_congr (ho.rows_restored_iff hj) ho.active_restored_iff).trans and_comm

/-! ### Where it fails -/

omit [Externals] in
/-- The first tuple overwrites row 1, whose rowid the counter gives out again; the second is refused,
and the rollback removes row 1 instead of putting back what it held. -/
theorem autocommit_error_loses_row :
    letI := Externals.ofTexts [] []
    let s := Sample.after (Sample.restoredRow [.notNull])
    let out := Prog.exec (executeStatement 3 0 (Sample.insert [.number "2", .null]) [] none) ⟨s, []⟩
    out.1 = .error (.err (.constraintViolation "a cannot be NULL")) ∧
      s.row ⟨0, "t", 1⟩ = some (Sample.row 1) ∧ out.2.kvs.row ⟨0, "t", 1⟩ = none := by
  decide +kernel

omit [Externals] in
/-- On a table whose rowids are fresh the failing INSERT leaves no trace. -/
theorem autocommit_error_restores_fresh :
    letI := Externals.ofTexts [] []
    let s := Sample.after [Sample.call (Sample.create [.notNull]) none]
    let out := Prog.exec (executeStatement 3 0 (Sample.insert [.number "2", .null]) [] none) ⟨s, []⟩
    ∀ k, out.2.kvs.row k = s.row k := by
  let _ := Externals.ofTexts [] []
  intro s out
  have hwrites : out.2.writes = [⟨some 1, 0, "t", 1, none, none, some (Sample.row 2)⟩] := by
    decide
  refine ((autocommit_error_restores_iff s 0 (NoTriggers.of_empty (by decide)).plain 3
    (Sample.insert [.number "2", .null]) rfl [] (.constraintViolation "a cannot be NULL")
    (by decide)).mpr ⟨by decide, fun k x hx _ => ?_⟩).1
  rw [show (Prog.exec (executeStatement 3 0 (Sample.insert [.number "2", .null]) [] none)
    ⟨s, []⟩).2.writes = _ from hwrites] at hx
  rw [List.mem_singleton.mp (List.mem_of_find?_eq_some hx)]

end Skvs
