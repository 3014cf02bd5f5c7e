import Skvs.Proof.Run

/-!
# Rolling back a transaction

The journal of an active transaction is the list of its writes so far. The first write of a row
journals what the row was before, whatever the later ones hold, so the reverse replay ends with it.
-/

namespace Skvs

variable [Externals]

/-- The first write of a transaction to a row. -/
def firstWrite (txId : UInt32) (k : Key) (writes : List Write) : Option Write :=
  writes.find? fun x => x.txId = some txId ∧ x.key = k

omit [Externals] in
theorem mem_of_firstWrite {txId : UInt32} {k : Key} {writes : List Write} {x : Write}
    (h : firstWrite txId k writes = some x) : x ∈ writes ∧ x.txId = some txId ∧ x.key = k := by
  have hkey := List.find?_some (p := fun x : Write => decide (x.txId = some txId ∧ x.key = k)) h
  exact ⟨List.mem_of_find?_eq_some h, of_decide_eq_true hkey⟩

omit [Externals] in
theorem firstWrite_append (txId : UInt32) (k : Key) (writes : List Write) (x : Write) :
    firstWrite txId k (writes ++ [x]) =
      (firstWrite txId k writes).or (if x.txId = some txId ∧ x.key = k then some x else none) := by
  rw [firstWrite, firstWrite, List.find?_append, List.find?_singleton]
  simp only [decide_eq_true_eq]

/-- The first write of a transaction to a row has the row as its copy, or none if it inserts. -/
def FirstCopies (txId : UInt32) (w : World) : Prop :=
  ∀ k x, firstWrite txId k w.writes = some x → x.copy = none ∨ x.copy = x.before

theorem FirstCopies.change {dbId txId : UInt32} {tx : Option UInt32} {w w' : World}
    (h : FirstCopies txId w) (hstep : Change dbId tx w w') : FirstCopies txId w' := by
  cases hstep with
  | draw => exact h
  | store k copy after _ _ hcopy =>
      intro k' x hx
      rw [World.store, firstWrite_append] at hx
      cases hfirst : firstWrite txId k' w.writes with
      | some y =>
          rw [hfirst, Option.some_or] at hx
          exact Option.some.inj hx ▸ h k' y hfirst
      | none =>
          rw [hfirst, Option.none_or] at hx
          split_ifs at hx with hmatch
          obtain rfl := Option.some.inj hx
          obtain ⟨htx, hk⟩ := hmatch
          -- no earlier write of the transaction has touched the row, so the copy is the row
          refine hcopy.imp id fun hheld => ?_
          rcases hheld with hrow | ⟨y, hy, hytx, hyk, -⟩
          · exact hrow.symm
          · exact absurd (decide_eq_true ⟨hytx.trans htx, hyk.trans hk⟩)
              (List.find?_eq_none.mp hfirst y hy)

/-- The transaction is active on the database, and its journal holds its writes. -/
structure Journaled (dbId txId : UInt32) (w : World) : Prop where
  active : w.kvs.txns.active.get txId =
    some ⟨dbId, (w.writes.filter fun x => x.txId = some txId).map Write.entry⟩
  stores : ∀ x ∈ w.writes, x.txId = some txId →
    x.dbId = dbId ∧ w.kvs.hasStore x.dbId x.table = true
  first : ∀ k x, firstWrite txId k w.writes = some x → x.copy = none ∨ x.copy = x.before

/-! ### The journal along a run -/

section Journaled

variable {dbId txId : UInt32} {w w' : World}

omit [Externals] in
theorem Journaled.begin (s : KvsState) (dbId : UInt32) :
    Journaled dbId s.txns.nextId ⟨s.begin dbId, []⟩ where
  active := IndexMap.get_insert_self ..
  stores _ hx := absurd hx List.not_mem_nil
  first _ _ hx := nomatch hx

theorem store_active (tx : Option UInt32) (k : Key) (copy after : Option Row) :
    (w.store tx k copy after).kvs.txns.active.get txId =
      if tx = some txId then
        (w.kvs.txns.active.get txId).map fun e =>
          { e with journal := e.journal ++ [undoEntry k copy after] }
      else w.kvs.txns.active.get txId := by
  rw [(store_sets w tx k copy after).txns]
  cases tx with
  | none => rfl
  | some id =>
      change ((w.kvs.txns.active.modify id _).get txId) = _
      rw [IndexMap.get_modify]
      exact if_congr (by rw [Option.some.injEq, eq_comm]) rfl rfl

theorem Journaled.change (h : Journaled dbId txId w) {tx : Option UInt32}
    (hstep : Change dbId tx w w') : Journaled dbId txId w' := by
  have hstores := hstep.hasStore
  have hfirst := FirstCopies.change h.first hstep
  cases hstep with
  | draw => exact ⟨h.active, h.stores, h.first⟩
  | store k copy after hdb hstore hcopy =>
      refine ⟨?_, fun x hx htx => ?_, fun k' x hx => ?_⟩
      · rw [store_active, h.active]
        simp only [World.store, List.filter_append, List.map_append]
        by_cases htx : tx = some txId
        · rw [if_pos htx, List.filter_cons_of_pos (by simpa using htx)]
          rfl
        · rw [if_neg htx, List.filter_cons_of_neg (by simpa using htx)]
          simp
      · rw [hstores]
        rcases List.mem_append.mp hx with hx | hx
        · exact h.stores x hx htx
        · rw [List.mem_singleton.mp hx]
          exact ⟨hdb, hstore⟩
      · exact hfirst k' x hx

theorem Journaled.changes (h : Journaled dbId txId w) {tx : Option UInt32}
    (hch : Changes dbId tx w w') : Journaled dbId txId w' :=
  hch.keeps h fun _ _ hv hstep => hv.change hstep

/-- Steps that neither re-issue the id nor end the transaction leave its journal in order. -/
theorem Journaled.step (h : Journaled dbId txId w)
    (hstep : Step (Change dbId) dbId (· ≠ txId) w w') : Journaled dbId txId w' := by
  cases hstep with
  | change hch => exact h.change hch
  | begin _ hne =>
      refine ⟨?_, h.stores, h.first⟩
      change (w.kvs.txns.active.insert w.kvs.txns.nextId _).get txId = _
      rw [IndexMap.get_insert, if_neg hne.symm, h.active]
      rfl
  | @commit _ id hne =>
      have hactive := commit_active w id txId
      rw [if_neg hne.symm, h.active] at hactive
      obtain ⟨txns, hframe⟩ := commit_frame w id
      rw [hframe] at hactive ⊢
      exact ⟨hactive, h.stores, h.first⟩
  | @rollback _ id hne =>
      have hactive := rollback_active w id txId
      rw [if_neg hne.symm, h.active] at hactive
      refine ⟨hactive, fun x hx htx => ?_, h.first⟩
      rw [rollback_hasStore]
      exact h.stores x hx htx

end Journaled

/-! ### The replay -/

omit [Externals] in
theorem find?_entries {dbId txId : UInt32} {writes : List Write}
    (hdb : ∀ x ∈ writes, x.txId = some txId → x.dbId = dbId) (k : Key) :
    (((writes.filter fun x => x.txId = some txId).map Write.entry).find?
      fun op => op.key dbId = k) = (firstWrite txId k writes).map Write.entry := by
  rw [List.find?_map, List.find?_filter, firstWrite]
  refine congrArg (Option.map Write.entry) ?_
  induction writes with
  | nil => rfl
  | cons x writes ih =>
      have hx : decide (decide (x.txId = some txId) = true ∧
          ((fun op : UndoOp => decide (op.key dbId = k)) ∘ Write.entry) x = true) =
          decide (x.txId = some txId ∧ x.key = k) := by
        by_cases htx : x.txId = some txId
        · simp [htx, x.entry_key (hdb x List.mem_cons_self htx)]
        · simp [htx]
      rw [List.find?_cons, List.find?_cons, hx, ih fun y hy => hdb y (List.mem_cons_of_mem x hy)]

section Rollback

variable {dbId txId : UInt32} {w : World} (h : Journaled dbId txId w)
include h

/-- A row that the transaction wrote becomes the copy of the first write; the others stay. -/
theorem Journaled.rollback_row (k : Key) :
    (w.rollback txId).kvs.row k =
      match firstWrite txId k w.writes with
      | some x => x.copy
      | none => w.kvs.row k := by
  have hops : ∀ op ∈ (w.writes.filter fun x => x.txId = some txId).map Write.entry,
      op.key dbId = k → (w.kvs.ended txId).hasStore k.dbId k.table = true := by
    rintro op hop rfl
    obtain ⟨x, hx, rfl⟩ := List.mem_map.mp hop
    obtain ⟨hx, htx⟩ := List.mem_filter.mp hx
    obtain ⟨hdb, hstore⟩ := h.stores x hx (of_decide_eq_true htx)
    rw [x.entry_key hdb]
    exact hstore
  rw [rollback_eq, h.active]
  simp only
  rw [undoAll_row dbId _ _ k hops, find?_entries fun x hx htx => (h.stores x hx htx).1]
  cases firstWrite txId k w.writes with
  | none => rfl
  | some x => exact undoEntry_value x.key x.copy x.after

end Rollback

/-! ### Interleaved transactions -/

/-- What a rollback owes: the transaction is over, each row it wrote is back to what it was before
the first of its writes, and no other row has changed. -/
structure Restored (txId : UInt32) (w w' : World) : Prop where
  ended : w'.kvs.txns.isActive txId = false
  untouched : ∀ k, firstWrite txId k w.writes = none → w'.kvs.row k = w.kvs.row k
  touched : ∀ k x, firstWrite txId k w.writes = some x → w'.kvs.row k = x.before

theorem rollback_ended (txId : UInt32) (w : World) :
    (w.rollback txId).kvs.txns.isActive txId = false := by
  rw [TxnManager.isActive, IndexMap.contains, rollback_active, if_pos rfl]
  rfl

/-- The copy of an INSERT is no row at all; every other first copy is the row as it was. -/
theorem Journaled.rollback_row_of_first {dbId txId : UInt32} {w : World}
    (h : Journaled dbId txId w) {k : Key} {x : Write}
    (hx : firstWrite txId k w.writes = some x) :
    (w.rollback txId).kvs.row k = if x.copy = none then none else x.before := by
  rw [h.rollback_row, hx]
  split_ifs with hnone
  · exact hnone
  · exact (h.first k x hx).resolve_left hnone

theorem Journaled.restored_iff {dbId txId : UInt32} {w : World} (h : Journaled dbId txId w) :
    Restored txId w (w.rollback txId) ↔
      ∀ k x, firstWrite txId k w.writes = some x → x.copy = none → x.before = none := by
  constructor
  · intro hrest k x hx hnone
    have hrow := h.rollback_row_of_first hx
    rw [if_pos hnone, hrest.touched k x hx] at hrow
    exact hrow
  · refine fun hfree => ⟨rollback_ended txId w, fun k hk => ?_, fun k x hx => ?_⟩
    · rw [h.rollback_row, hk]
    · rw [h.rollback_row_of_first hx]
      split_ifs with hnone
      · exact (hfree k x hx hnone).symm
      · rfl

omit [Externals] in
/-- The counter comes back to an id only after `2 ^ 32` further transactions. -/
theorem nextId_ne {nextId txId : UInt32} {m : Nat}
    (hnext : nextId.toNat = (txId.toNat + 1 + m) % 2 ^ 32) (hm : m + 1 < 2 ^ 32) :
    nextId ≠ txId := by
  rintro rfl
  have := nextId.toNat_lt
  omega

/-- Calls that end other transactions only, and begin fewer than `2 ^ 32`, keep the journal. -/
theorem Journaled.runCalls {dbId txId : UInt32} (calls : List Call)
    (hdata : ∀ c ∈ calls, c.isData = true) (hends : ∀ c ∈ calls, c.ends ≠ some txId) {w : World}
    (h : Journaled dbId txId w) (hplain : PlainTriggers w.kvs dbId) {m : Nat}
    (hnext : w.kvs.txns.nextId.toNat = (txId.toNat + 1 + m) % 2 ^ 32)
    (hm : m + (calls.filter Call.begins).length < 2 ^ 32) :
    Journaled dbId txId (Skvs.runCalls dbId calls w) := by
  induction calls generalizing w m with
  | nil => exact h
  | cons c calls ih =>
      have hc := hdata c List.mem_cons_self
      have hsteps : Steps (Change dbId) dbId (· ≠ txId) w (c.run dbId w) := by
        refine c.run_steps (plainTriggers_move dbId) (fun _ hJ => hJ) hc hplain (fun hb => ?_)
          fun id hid hne => hends c List.mem_cons_self (hid.trans (congrArg some hne))
        rw [List.filter_cons_of_pos hb, List.length_cons] at hm
        exact nextId_ne hnext (by omega)
      have hinv : Journaled dbId txId (c.run dbId w) ∧ PlainTriggers (c.run dbId w).kvs dbId := by
        refine Steps.keeps hsteps (P := fun v => Journaled dbId txId v ∧ PlainTriggers v.kvs dbId)
          ⟨h, hplain⟩ fun v v' hv hstep => ⟨hv.1.step hstep, ?_⟩
        exact hv.2.step hstep
      have hrun := c.run_nextId hc hplain
      refine ih (fun c' hc' => hdata c' (List.mem_cons_of_mem c hc'))
        (fun c' hc' => hends c' (List.mem_cons_of_mem c hc')) hinv.1 hinv.2
        (m := m + if c.begins then 1 else 0) ?_ ?_
      · rw [hrun, UInt32.toNat_add, hnext]
        cases c.begins <;> simp
        omega
      · rw [List.filter_cons] at hm
        cases hb : c.begins <;> simp [hb] at hm ⊢ <;> omega

/-- Rolling back a transaction in any interleaving with others, as long as its id is not issued a
second time. Only an INSERT that overwrites a row is not undone to the row that was there. -/
theorem rollback_in_interleaving (s : KvsState) (dbId : UInt32) (hplain : PlainTriggers s dbId)
    (calls : List Call) (hdata : ∀ c ∈ calls, c.isData = true)
    (hends : ∀ c ∈ calls, c.ends ≠ some s.txns.nextId)
    (hbegins : (calls.filter Call.begins).length < 2 ^ 32) :
    let txId := s.txns.nextId
    let w := runCalls dbId calls ⟨s.begin dbId, []⟩
    let w' := (Prog.exec (rollback txId) w).2
    (w'.kvs.txns.isActive txId = false ∧
      ∀ k, w'.kvs.row k = match firstWrite txId k w.writes with
        | some x => if x.copy = none then none else x.before
        | none => w.kvs.row k) ∧
    (Restored txId w w' ↔
      ∀ k x, firstWrite txId k w.writes = some x → x.copy = none → x.before = none) := by
  intro txId w w'
  have hnext : (s.begin dbId).txns.nextId.toNat = (txId.toNat + 1 + 0) % 2 ^ 32 :=
    UInt32.toNat_add s.txns.nextId 1
  have h : Journaled dbId txId w :=
    (Journaled.begin s dbId).runCalls calls hdata hends hplain hnext (by omega)
  have hw' : w' = w.rollback txId := exec_rollback txId w
  rw [hw']
  refine ⟨⟨rollback_ended txId w, fun k => ?_⟩, h.restored_iff⟩
  cases hk : firstWrite txId k w.writes with
  | none => rw [h.rollback_row, hk]
  | some x => exact h.rollback_row_of_first hk

/-! ### Where it fails -/

/-- A transaction that is begun and at once committed. -/
def beginCommit (txId : UInt32) : List Call :=
  [Sample.call .startTransaction none, Sample.call .commit (some txId)]

theorem runCalls_beginCommit (dbId : UInt32) (w : World)
    (h : w.kvs.txns.active.get w.kvs.txns.nextId = none) :
    runCalls dbId (beginCommit w.kvs.txns.nextId) w =
      { w with kvs := { w.kvs with txns := ⟨w.kvs.txns.nextId + 1, w.kvs.txns.active⟩ } } := by
  have hstep : runCalls dbId (beginCommit w.kvs.txns.nextId) w =
      (w.begin dbId).commit w.kvs.txns.nextId := by
    change (Prog.exec (commit w.kvs.txns.nextId >>= fun _ => pure QueryResult.empty)
      (w.begin dbId)).2 = _
    rw [Prog.exec_bind_pure_snd, exec_commit]
  have hactive : (w.begin dbId).kvs.txns.active.get w.kvs.txns.nextId = some ⟨dbId, []⟩ :=
    IndexMap.get_insert_self ..
  rw [hstep, commit_eq, hactive]
  simp only [World.begin, KvsState.begin, TxnManager.begin, KvsState.ended,
    IndexMap.erase_insert_of_get_eq_none _ h]

/-- Transactions begun and committed one after the other, the first of them with the id `first`. -/
def beginCommits (first : UInt32) (n : Nat) : List Call :=
  (List.range n).flatMap fun i => beginCommit (first + UInt32.ofNat i)

theorem runCalls_beginCommits (dbId : UInt32) (w : World) (n : Nat)
    (h : ∀ i < n, w.kvs.txns.active.get (w.kvs.txns.nextId + UInt32.ofNat i) = none) :
    runCalls dbId (beginCommits w.kvs.txns.nextId n) w =
      { w with kvs := { w.kvs with
        txns := ⟨w.kvs.txns.nextId + UInt32.ofNat n, w.kvs.txns.active⟩ } } := by
  induction n with
  | zero =>
      have hzero : w.kvs.txns.nextId + UInt32.ofNat 0 = w.kvs.txns.nextId := UInt32.add_zero _
      rw [hzero]
      rfl
  | succ n ih =>
      have hsucc : w.kvs.txns.nextId + UInt32.ofNat (n + 1) =
          w.kvs.txns.nextId + UInt32.ofNat n + 1 := by
        rw [UInt32.ofNat_add, UInt32.add_assoc]
        rfl
      have happend : beginCommits w.kvs.txns.nextId (n + 1) = beginCommits w.kvs.txns.nextId n ++
          beginCommit (w.kvs.txns.nextId + UInt32.ofNat n) := by
        rw [beginCommits, List.range_succ, List.flatMap_append, List.flatMap_singleton]
        rfl
      rw [happend, runCalls_append, ih fun i hi => h i (Nat.lt_succ_of_lt hi), hsucc]
      exact runCalls_beginCommit dbId
        { w with kvs := { w.kvs with
          txns := ⟨w.kvs.txns.nextId + UInt32.ofNat n, w.kvs.txns.active⟩ } } (h n (Nat.lt_succ_self n))

/-- Once the counter has come round to an active id, BEGIN issues it again, and rolling it back
undoes nothing. -/
theorem rollback_reissued (dbId : UInt32) (w : World) (n : Nat) (txId : UInt32)
    (h : ∀ i < n, w.kvs.txns.active.get (w.kvs.txns.nextId + UInt32.ofNat i) = none)
    (hround : w.kvs.txns.nextId + UInt32.ofNat n = txId) :
    let w' := runCalls dbId
      (beginCommits w.kvs.txns.nextId n ++ [Sample.call .startTransaction none]) w
    w'.writes = w.writes ∧ ∀ k, (w'.rollback txId).kvs.row k = w.kvs.row k := by
  intro w'
  have hw' : w' = World.begin { w with kvs := { w.kvs with txns := ⟨txId, w.kvs.txns.active⟩ } }
      dbId := by
    rw [← hround, ← runCalls_beginCommits dbId w n h]
    exact runCalls_append ..
  have hactive : w'.kvs.txns.active.get txId = some ⟨dbId, []⟩ := by
    rw [hw']
    exact IndexMap.get_insert_self ..
  rw [rollback_eq, hactive, hw']
  exact ⟨rfl, fun _ => rfl⟩

omit [Externals] in
/-- Two ways to lose a row's old contents. An INSERT that is given a rowid already in use journals
that there was no row. And after `2 ^ 32 - 1` further transactions an id is issued again while it is
still active, which empties its journal. -/
theorem rollback_not_restoring :
    letI := Externals.ofTexts [] []
    let s := Sample.after (Sample.restoredRow [])
    let w := runCalls 0 [Sample.call (Sample.insert [.number "2"]) (some 3)] ⟨s.begin 0, []⟩
    let s₁ := Sample.after [Sample.call (Sample.create []) none]
    let w₁ := runCalls 0 ([Sample.call (Sample.insert [.number "1"]) (some 1)] ++
      (beginCommits 2 (2 ^ 32 - 1) ++ [Sample.call .startTransaction none])) ⟨s₁.begin 0, []⟩
    (s.txns.nextId = 3 ∧ ¬Restored 3 w (Prog.exec (rollback 3) w).2) ∧
      (s₁.txns.nextId = 1 ∧ ¬Restored 1 w₁ (Prog.exec (rollback 1) w₁).2) := by
  let _ := Externals.ofTexts [] []
  intro s w s₁ w₁
  refine ⟨⟨by decide, fun h => ?_⟩, ⟨by decide, fun h => ?_⟩⟩
  · have hrow := h.touched ⟨0, "t", 1⟩
      ⟨some 3, 0, "t", 1, some (Sample.row 1), none, some (Sample.row 2)⟩ (by decide)
    exact absurd hrow (by decide)
  · have hw₁ : w₁ = runCalls 0
        (beginCommits 2 (2 ^ 32 - 1) ++ [Sample.call .startTransaction none])
        (runCalls 0 [Sample.call (Sample.insert [.number "1"]) (some 1)] ⟨s₁.begin 0, []⟩) :=
      runCalls_append ..
    clear_value w₁
    obtain ⟨v, hv⟩ : ∃ v, v = runCalls 0 [Sample.call (Sample.insert [.number "1"]) (some 1)]
        ⟨s₁.begin 0, []⟩ := ⟨_, rfl⟩
    have hnext : v.kvs.txns.nextId = 2 := by
      rw [hv]
      decide
    have hkeys : v.kvs.txns.active.keys = [1] := by
      rw [hv]
      decide
    have hfirst : firstWrite 1 ⟨0, "t", 1⟩ v.writes =
        some ⟨some 1, 0, "t", 1, none, none, some (Sample.row 1)⟩ := by
      rw [hv]
      decide
    have hrow : v.kvs.row ⟨0, "t", 1⟩ = some (Sample.row 1) := by
      rw [hv]
      decide
    have hactive : ∀ i < 2 ^ 32 - 1,
        v.kvs.txns.active.get (v.kvs.txns.nextId + UInt32.ofNat i) = none := by
      intro i hi
      rw [IndexMap.get_eq_none_iff, hkeys, List.mem_singleton, hnext, ← UInt32.toNat_inj,
        UInt32.toNat_add, UInt32.toNat_ofNat']
      change (2 + i % 2 ^ 32) % 2 ^ 32 ≠ 1
      omega
    obtain ⟨hwrites, hrows⟩ := rollback_reissued 0 v (2 ^ 32 - 1) 1 hactive
      (by rw [hnext]; decide)
    rw [← hv] at hw₁
    rw [hnext, ← hw₁] at hwrites hrows
    rw [← hwrites] at hfirst
    have hkept := h.touched ⟨0, "t", 1⟩ _ hfirst
    rw [exec_rollback, hrows, hrow] at hkept
    exact nomatch hkept

omit [Externals] in
/-- The update is undone, and the row that the other transaction has inserted stays. -/
theorem rollback_in_interleaving_update :
    letI := Externals.ofTexts [] []
    let s := Sample.after [Sample.call (Sample.create []) none, Sample.call (Sample.insert [.number "1"]) none]
    let w := runCalls 0 Sample.writesInBetween ⟨s.begin 0, []⟩
    w.kvs.row ⟨0, "t", 1⟩ = some (Sample.row 5) ∧
      (Prog.exec (rollback 2) w).2.kvs.row ⟨0, "t", 1⟩ = some (Sample.row 1) ∧
      (Prog.exec (rollback 2) w).2.kvs.row ⟨0, "t", 2⟩ = some (Sample.row 7) := by
  let _ := Externals.ofTexts [] []
  intro s w
  have h := (rollback_in_interleaving s 0 (NoTriggers.of_empty (by decide)).plain
    Sample.writesInBetween (by decide) (by decide) (by decide)).1.2
  have hid : s.txns.nextId = 2 := by decide
  have hw : w = runCalls 0 Sample.writesInBetween ⟨s.begin 0, []⟩ := rfl
  clear_value w
  rw [hid, ← hw] at h
  refine ⟨by rw [hw]; decide, (h ⟨0, "t", 1⟩).trans ?_, (h ⟨0, "t", 2⟩).trans ?_⟩
  · rw [hw]
    decide
  · rw [hw]
    decide

end Skvs
