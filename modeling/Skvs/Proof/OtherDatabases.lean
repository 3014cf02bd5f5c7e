import Skvs.Proof.LastWrite

/-!
# A transaction on several databases

A transaction belongs to the database it was begun on, while each of its statements names one of its
own. The journal has the table and the rowid of a write but not the database, so the rollback takes
back every write in the database of the transaction, wherever it was made.
-/

namespace Skvs

variable [Externals]

/-- The first write to a table and rowid of whatever database. -/
def firstNamed (table : String) (rowid : RowId) (writes : List Write) : Option Write :=
  writes.find? fun x => x.table = table ∧ x.rowid = rowid

omit [Externals] in
theorem mem_of_firstNamed {table : String} {rowid : RowId} {writes : List Write} {x : Write}
    (h : firstNamed table rowid writes = some x) :
    x ∈ writes ∧ x.table = table ∧ x.rowid = rowid := by
  have hkey := List.find?_some (p := fun x : Write => decide (x.table = table ∧ x.rowid = rowid)) h
  exact ⟨List.mem_of_find?_eq_some h, of_decide_eq_true hkey⟩

/-- The transaction is active on the database `home`, all writes are its own, and they are journaled. -/
structure JournaledAt (home txId : UInt32) (w : World) : Prop where
  active : w.kvs.txns.active.get txId = some ⟨home, w.writes.map Write.entry⟩
  writes : ∀ x ∈ w.writes, x.txId = some txId ∧ w.kvs.hasStore x.dbId x.table = true

/-- What the rollback is to do is what it does. Every row written in another database has come back
to what it was by itself; and in its own database the first write to a table and rowid, wherever it
was made, has replaced the version that the row there is to have. -/
structure InLane (home txId : UInt32) (w : World) : Prop where
  elsewhere : ∀ k x, k.dbId ≠ home → firstWrite txId k w.writes = some x → w.kvs.row k = x.before
  home : ∀ k y, k.dbId = home → w.kvs.hasStore home k.table = true →
    firstNamed k.table k.rowid w.writes = some y →
    y.copy = (firstWrite txId k w.writes).elim (w.kvs.row k) Write.before

section Rollback

variable {home txId : UInt32} {w : World}

theorem JournaledAt.change {dbId : UInt32} {w' : World} (h : JournaledAt home txId w)
    (hstep : Change dbId (some txId) w w') : JournaledAt home txId w' := by
  have hstores := hstep.hasStore
  cases hstep with
  | draw => exact ⟨h.active, h.writes⟩
  | store k copy after _ hstore =>
      refine ⟨?_, fun x hx => ?_⟩
      · rw [store_active, if_pos rfl, h.active, World.store, List.map_append]
        rfl
      · rw [hstores]
        rcases List.mem_append.mp hx with hx | hx
        · exact h.writes x hx
        · rw [List.mem_singleton.mp hx]
          exact ⟨rfl, hstore⟩

omit [Externals] in
theorem find?_key (writes : List Write) (k : Key) (hk : k.dbId = home) :
    (writes.map Write.entry).find? (fun op => op.key home = k) =
      (firstNamed k.table k.rowid writes).map Write.entry := by
  rw [List.find?_map, firstNamed]
  refine congrArg (Option.map Write.entry) (congrArg (fun p => writes.find? p) (funext fun x => ?_))
  have hkey : x.entry.key home = ⟨home, x.table, x.rowid⟩ := by
    rw [Write.entry]
    cases x.copy <;> cases x.after <;> rfl
  obtain ⟨db, table, rowid⟩ := k
  obtain rfl : db = home := hk
  simp [hkey]

/-- A row of the database of the transaction becomes the copy of the first write to its table and
rowid in any database; the rows of the other databases stay. -/
theorem JournaledAt.rollback_row (h : JournaledAt home txId w) (k : Key) :
    (w.rollback txId).kvs.row k =
      if k.dbId = home then
        match firstNamed k.table k.rowid w.writes with
        | some y => if w.kvs.hasStore k.dbId k.table then y.copy else none
        | none => w.kvs.row k
      else w.kvs.row k := by
  rw [rollback_eq, h.active]
  simp only
  rw [undoAll_row_eq]
  by_cases hk : k.dbId = home
  · rw [if_pos hk, find?_key w.writes k hk]
    cases firstNamed k.table k.rowid w.writes with
    | none => rfl
    | some y =>
        change (if w.kvs.hasStore k.dbId k.table then (undoEntry y.key y.copy y.after).value else none)
          = _
        rw [undoEntry_value]
  · have hnone : (w.writes.map Write.entry).find? (fun op => op.key home = k) = none := by
      refine List.find?_eq_none.mpr fun op _ => ?_
      rw [decide_eq_true_eq]
      rintro rfl
      exact hk (op.key_dbId home)
    rw [if_neg hk, hnone]
    rfl

omit [Externals] in
theorem exists_firstNamed {k : Key} {x : Write} (hx : firstWrite txId k w.writes = some x) :
    ∃ y, firstNamed k.table k.rowid w.writes = some y := by
  obtain ⟨hmem, -, hkey⟩ := mem_of_firstWrite hx
  refine Option.isSome_iff_exists.mp (List.find?_isSome.mpr ⟨x, hmem, ?_⟩)
  rw [← hkey]
  exact decide_eq_true ⟨rfl, rfl⟩

theorem JournaledAt.restored_iff (h : JournaledAt home txId w) :
    Restored txId w (w.rollback txId) ↔ InLane home txId w := by
  have hfirst : ∀ k x, firstWrite txId k w.writes = some x →
      w.kvs.hasStore k.dbId k.table = true := by
    intro k x hx
    obtain ⟨hmem, -, hkey⟩ := mem_of_firstWrite hx
    rw [← hkey]
    exact (h.writes x hmem).2
  constructor
  · intro hrest
    refine ⟨fun k x hk hx => ?_, fun k y hk hstore hy => ?_⟩
    · have hrow := hrest.touched k x hx
      rwa [h.rollback_row, if_neg hk] at hrow
    · have hrow := h.rollback_row k
      rw [if_pos hk, hy] at hrow
      simp only [hk, hstore, if_true] at hrow
      cases hx : firstWrite txId k w.writes with
      | none => exact hrow.symm.trans (hrest.untouched k hx)
      | some x => exact hrow.symm.trans (hrest.touched k x hx)
  · intro hlane
    refine ⟨rollback_ended txId w, fun k hx => ?_, fun k x hx => ?_⟩
    · rw [h.rollback_row]
      by_cases hk : k.dbId = home
      · rw [if_pos hk]
        cases hy : firstNamed k.table k.rowid w.writes with
        | none => rfl
        | some y =>
            simp only
            split_ifs with hstore
            · have hcopy := hlane.home k y hk (hk ▸ hstore) hy
              rwa [hx] at hcopy
            · exact (KvsState.row_of_no_store (Bool.eq_false_iff.mpr hstore)).symm
      · rw [if_neg hk]
    · rw [h.rollback_row]
      by_cases hk : k.dbId = home
      · obtain ⟨y, hy⟩ := exists_firstNamed hx
        have hstore := hfirst k x hx
        have hcopy := hlane.home k y hk (hk ▸ hstore) hy
        rw [hx] at hcopy
        rw [if_pos hk, hy]
        simp only [hstore, if_true]
        exact hcopy
      · rw [if_neg hk]
        exact hlane.elsewhere k x hk hx

end Rollback

theorem runCallsOn_journaledAt {home txId : UInt32} (calls : List (UInt32 × Call))
    (hcalls : ∀ c ∈ calls, c.2.txId = some txId ∧ c.2.stmt.isPlain = true) {w : World}
    (h : JournaledAt home txId w) (hplain : ∀ dbId, PlainTriggers w.kvs dbId) :
    JournaledAt home txId (runCallsOn calls w) := by
  induction calls generalizing w with
  | nil => exact h
  | cons c calls ih =>
      obtain ⟨htx, hstmt⟩ := hcalls c List.mem_cons_self
      have hch := Call.run_changes hstmt htx (hplain c.1)
      exact ih (fun c' hc' => hcalls c' (List.mem_cons_of_mem c hc'))
        (hch.keeps h fun _ _ hv hstep => hv.change hstep) fun dbId => (hplain dbId).of_triggers hch.triggers

/-- Whatever databases the statements of a transaction name, its rollback restores the rows they have
touched and leaves the others alone exactly if it stays in its lane. -/
theorem rollback_across_databases (s : KvsState) (home : UInt32)
    (hplain : ∀ dbId, PlainTriggers s dbId) (calls : List (UInt32 × Call))
    (hcalls : ∀ c ∈ calls, c.2.txId = some s.txns.nextId ∧ c.2.stmt.isPlain = true) :
    let txId := s.txns.nextId
    let w := runCallsOn calls ⟨s.begin home, []⟩
    let w' := (Prog.exec (rollback txId) w).2
    Restored txId w w' ↔ InLane home txId w := by
  intro txId w w'
  have hbegin : JournaledAt home txId ⟨s.begin home, []⟩ :=
    ⟨IndexMap.get_insert_self .., fun _ hx => absurd hx List.not_mem_nil⟩
  have h : JournaledAt home txId w :=
    runCallsOn_journaledAt calls hcalls hbegin fun dbId => hplain dbId
  have hw' : w' = w.rollback txId := exec_rollback txId w
  rw [hw']
  exact h.restored_iff

/-! ### Where it fails -/

/-- Two databases with a table `t` each, which holds one row. -/
def Sample.twoDatabases : KvsState :=
  (runCallsOn [(0, Sample.call (Sample.create []) none), (1, Sample.call (Sample.create []) none),
    (0, Sample.call (Sample.insert [.number "1"]) none),
    (1, Sample.call (Sample.insert [.number "2"]) none)] ⟨.new [0, 1], []⟩).kvs

omit [Externals] in
/-- A transaction of database 0 updates row 1 in database 1. Its rollback leaves that row changed, and
puts its old version over row 1 of database 0. -/
theorem rollback_in_wrong_database :
    letI := Externals.ofTexts [] []
    let w := runCallsOn [(1, Sample.call (Sample.update "5") (some 3))]
      ⟨Sample.twoDatabases.begin 0, []⟩
    let w' := (Prog.exec (rollback 3) w).2
    Sample.twoDatabases.txns.nextId = 3 ∧
      (Sample.twoDatabases.row ⟨1, "t", 1⟩ = some (Sample.row 2) ∧
        w'.kvs.row ⟨1, "t", 1⟩ = some (Sample.row 5)) ∧
      (w.kvs.row ⟨0, "t", 1⟩ = some (Sample.row 1) ∧
        w'.kvs.row ⟨0, "t", 1⟩ = some (Sample.row 2)) ∧ ¬Restored 3 w w' := by
  let _ := Externals.ofTexts [] []
  intro w w'
  refine ⟨by decide, ⟨by decide, by decide⟩,
    ⟨by decide, by decide⟩, fun h => ?_⟩
  have hrow := h.untouched ⟨0, "t", 1⟩ (by decide)
  exact absurd hrow (by decide)

omit [Externals] in
theorem NoTriggers.of_all_empty {s : KvsState} (h : ∀ m ∈ s.triggers.values, m = ∅)
    (dbId : UInt32) : NoTriggers s dbId := by
  refine NoTriggers.of_empty ?_
  rw [IndexMap.getD]
  cases hget : s.triggers.get dbId with
  | none => rfl
  | some m =>
      exact h m (List.mem_map_of_mem ((IndexMap.mem_entries_iff_get s.triggers dbId m).mpr hget))

/-- Row 1 is updated in the database of the transaction, and in the other one there and back. -/
def Sample.thereAndBack : List (UInt32 × Call) :=
  [(0, call (update "5") (some 3)), (1, call (update "5") (some 3)), (1, call (update "2") (some 3))]

omit [Externals] in
/-- The rollback restores the row at home, and has nothing left to restore in the other database. -/
theorem rollback_across_databases_home :
    letI := Externals.ofTexts [] []
    let w := runCallsOn Sample.thereAndBack ⟨Sample.twoDatabases.begin 0, []⟩
    (w.writes.map fun x => (x.dbId, x.before, x.after)) =
        [(0, some (Sample.row 1), some (Sample.row 5)), (1, some (Sample.row 2), some (Sample.row 5)),
          (1, some (Sample.row 5), some (Sample.row 2))] ∧
      Restored 3 w (Prog.exec (rollback 3) w).2 := by
  let _ := Externals.ofTexts [] []
  intro w
  have hid : Sample.twoDatabases.txns.nextId = 3 := by decide
  have h := @rollback_across_databases (Externals.ofTexts [] []) Sample.twoDatabases 0
    (fun dbId => (NoTriggers.of_all_empty (by decide) dbId).plain) Sample.thereAndBack (by decide)
  rw [hid] at h
  have hwrites : w.writes = [
      ⟨some 3, 0, "t", 1, some (Sample.row 1), some (Sample.row 1), some (Sample.row 5)⟩,
      ⟨some 3, 1, "t", 1, some (Sample.row 2), some (Sample.row 2), some (Sample.row 5)⟩,
      ⟨some 3, 1, "t", 1, some (Sample.row 5), some (Sample.row 5), some (Sample.row 2)⟩] := by
    decide
  have hback : w.kvs.row ⟨1, "t", 1⟩ = some (Sample.row 2) := by decide
  have hlane : InLane 0 3 w := by
    refine ⟨fun k x hk hx => ?_, fun k y hk _ hy => ?_⟩
    · obtain ⟨hmem, -, rfl⟩ := mem_of_firstWrite hx
      rw [hwrites] at hmem hx
      simp only [List.mem_cons, List.not_mem_nil, or_false] at hmem
      rcases hmem with rfl | rfl | rfl
      · exact absurd rfl hk
      · exact hback
      · exact absurd hx (by decide)
    · obtain ⟨hmem, htable, hrowid⟩ := mem_of_firstNamed hy
      rw [hwrites] at hmem hy
      have hk' : k = ⟨0, "t", 1⟩ := by
        simp only [List.mem_cons, List.not_mem_nil, or_false] at hmem
        rw [← hk]
        rcases hmem with rfl | rfl | rfl <;> exact congrArg₂ (Key.mk k.dbId) htable.symm hrowid.symm
      subst hk'
      obtain rfl := Option.some.inj hy
      rw [hwrites]
      decide
  have hrest := h.mpr hlane
  refine ⟨by rw [hwrites]; rfl, ?_⟩
  simp only [w]
  exact hrest

end Skvs
