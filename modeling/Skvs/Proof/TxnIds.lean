import Skvs.Lib.Tickets
import Skvs.Proof.Kept
import Skvs.Proof.Undo

/-!
# The ids of transactions

Ids come from a counter of 32 bits that every transaction moves on by one, those of single writes
included. BEGIN looks at no other transaction, so an id is given out again `2 ^ 32` transactions
later, whether or not its first owner is still active.
-/

namespace Skvs

variable [Externals]

/-- Whether the transactions are as they were, but for those that have ended and for journals. -/
structure TxnsWithin (m : TxnManager) (w : World) : Prop where
  nextId : w.kvs.txns.nextId = m.nextId
  active : ∀ id, w.kvs.txns.isActive id = true → m.isActive id = true

omit [Externals] in
theorem record_isActive (m : TxnManager) (txId id : UInt32) (op : UndoOp) :
    (m.record txId op).isActive id = m.isActive id :=
  IndexMap.contains_modify ..

theorem Maintenance.txns {dbId : UInt32} {s s' : KvsState} (h : Maintenance dbId s s') :
    s'.txns = s.txns := by
  cases h with
  | rebuildIndex table idx =>
      unfold Skvs.rebuildIndex
      cases s.getTableStore dbId table <;> rfl
  | removeView _ name h =>
      unfold KvsState.removeView at h
      cases hviews : s.views.get dbId with
      | none =>
          rw [hviews] at h
          exact nomatch h
      | some map =>
          rw [hviews] at h
          rw [← Except.ok.inj h]
  | _ => rfl

theorem keptOn_txnsWithin (dbId : UInt32) (m : TxnManager) : KeptOn dbId (TxnsWithin m) where
  store w txId k copy after _ h := by
    have htxns := (store_sets w txId k copy after).txns
    cases txId with
    | none => exact ⟨htxns ▸ h.nextId, fun id hid => h.active id (htxns ▸ hid)⟩
    | some txId =>
        refine ⟨htxns ▸ h.nextId, fun id hid => h.active id ?_⟩
        rw [htxns] at hid
        rwa [← record_isActive w.kvs.txns txId id]
  draw _ _ h := ⟨h.nextId, h.active⟩
  maintain w s' h hs' := by
    have htxns := hs'.txns
    exact ⟨htxns ▸ h.nextId, fun id hid => h.active id (htxns ▸ hid)⟩

/-! ### One call -/

omit [Externals] in
theorem begin_isActive (w : World) (dbId id : UInt32) :
    (w.begin dbId).kvs.txns.isActive id = (decide (id = w.kvs.txns.nextId) || w.kvs.txns.isActive id) := by
  change ((w.kvs.txns.active.insert w.kvs.txns.nextId _).get id).isSome = _
  rw [IndexMap.get_insert]
  by_cases hid : id = w.kvs.txns.nextId <;> simp [hid, TxnManager.isActive, IndexMap.contains]

/-- Whatever a call does: it moves the counter on if it begins a transaction, and no transaction but
this one becomes active. -/
theorem Call.run_txns (dbId : UInt32) (c : Call) (w : World) :
    TxnsWithin (if c.begins then w.begin dbId else w).kvs.txns (c.run dbId w) := by
  refine c.run_kept (keptOn_txnsWithin dbId _) (fun v txId hv => ⟨?_, ?_⟩) ⟨rfl, fun _ hid => hid⟩
  · refine ⟨(commit_nextId v txId).trans hv.nextId, fun id hid => hv.active id ?_⟩
    rw [TxnManager.isActive, IndexMap.contains, commit_active] at hid
    split_ifs at hid
    · exact absurd hid Bool.false_ne_true
    · exact hid
  · refine ⟨(rollback_nextId v txId).trans hv.nextId, fun id hid => hv.active id ?_⟩
    rw [TxnManager.isActive, IndexMap.contains, rollback_active] at hid
    split_ifs at hid
    · exact absurd hid Bool.false_ne_true
    · exact hid

/-! ### A run -/

def begun (calls : List (UInt32 × Call)) : Nat := (calls.filter fun c => c.2.begins).length

/-- Whether call `i` of a run begins a transaction. -/
def beginsAt (calls : List (UInt32 × Call)) (i : Nat) : Bool :=
  (calls[i]?).any fun c => c.2.begins

omit [Externals] in
theorem issued_beginsAt (calls : List (UInt32 × Call)) (i : Nat) :
    Tickets.issued (beginsAt calls) i = begun (calls.take i) := by
  induction i with
  | zero => rfl
  | succ i ih =>
      rw [Tickets.issued, ih, List.take_add_one, begun, begun, List.filter_append, List.length_append]
      congr 1
      rw [beginsAt]
      cases calls[i]? with
      | none => rfl
      | some c => cases hc : c.2.begins <;> simp [hc]

theorem runCallsOn_take_succ (calls : List (UInt32 × Call)) (w : World) {i : Nat}
    (hi : i < calls.length) :
    runCallsOn (calls.take (i + 1)) w =
      calls[i].2.run calls[i].1 (runCallsOn (calls.take i) w) := by
  rw [List.take_add_one, List.getElem?_eq_getElem hi, runCallsOn_append]
  rfl

section Run

variable (s : KvsState) (calls : List (UInt32 × Call))

/-- The world before call `i` of a run that starts without transactions. -/
def worldAt (i : Nat) : World := runCallsOn (calls.take i) ⟨{ s with txns := .new }, []⟩

theorem worldAt_succ {i : Nat} (hi : i < calls.length) :
    TxnsWithin (if beginsAt calls i then (worldAt s calls i).begin calls[i].1
      else worldAt s calls i).kvs.txns (worldAt s calls (i + 1)) := by
  have hbegins : beginsAt calls i = calls[i].2.begins := by
    rw [beginsAt, List.getElem?_eq_getElem hi]
    rfl
  have hsucc : worldAt s calls (i + 1) = calls[i].2.run calls[i].1 (worldAt s calls i) :=
    runCallsOn_take_succ calls _ hi
  rw [hsucc, hbegins]
  exact calls[i].2.run_txns _ _

theorem worldAt_nextId {i : Nat} (hi : i ≤ calls.length) :
    (worldAt s calls i).kvs.txns.nextId.toNat = (1 + begun (calls.take i)) % 2 ^ 32 := by
  induction i with
  | zero => rfl
  | succ i ih =>
      have hlt : i < calls.length := hi
      rw [(worldAt_succ s calls hlt).nextId, ← issued_beginsAt, Tickets.issued, issued_beginsAt]
      have hbefore := ih hlt.le
      cases beginsAt calls i with
      | false => simpa using hbefore
      | true =>
          rw [if_pos rfl, if_pos rfl]
          change ((worldAt s calls i).kvs.txns.nextId + 1).toNat = _
          rw [UInt32.toNat_add, hbefore, UInt32.toNat_one]
          omega

/-- The run as a run of the counter. -/
theorem worldAt_tickets : Tickets.Run (beginsAt calls) (2 ^ 32) 1 fun i t =>
    t < 2 ^ 32 ∧ (worldAt s calls i).kvs.txns.isActive (UInt32.ofNat t) = true where
  none_live t ht := absurd ht.2 Bool.false_ne_true
  issued_or_live i t ht := by
    obtain ⟨hlt, hactive⟩ := ht
    rcases Nat.lt_or_ge i calls.length with hi | hi
    · have hbefore := (worldAt_succ s calls hi).active _ hactive
      cases hbegins : beginsAt calls i with
      | false =>
          rw [hbegins] at hbefore
          exact Or.inl ⟨hlt, hbefore⟩
      | true =>
          rw [hbegins, if_pos rfl, begin_isActive, Bool.or_eq_true, decide_eq_true_eq] at hbefore
          rcases hbefore with hnext | hbefore
          · refine Or.inr ⟨rfl, ?_⟩
            rw [issued_beginsAt, ← worldAt_nextId s calls hi.le, ← hnext, UInt32.toNat_ofNat_of_lt' hlt]
          · exact Or.inl ⟨hlt, hbefore⟩
    · rw [worldAt, List.take_of_length_le (Nat.le_succ_of_le hi)] at hactive
      rw [worldAt, List.take_of_length_le hi]
      exact Or.inl ⟨hlt, hactive⟩

end Run

omit [Externals] in
/-- BEGIN leaves the journals of all active transactions alone, if its id is not one of theirs. -/
theorem begin_keeps_journals {w : World} (h : w.kvs.txns.isActive w.kvs.txns.nextId = false)
    {id : UInt32} {entry : TxnEntry} (hid : w.kvs.txns.active.get id = some entry)
    (dbId : UInt32) : (w.begin dbId).kvs.txns.active.get id = some entry := by
  have hne : id ≠ w.kvs.txns.nextId := by
    rintro rfl
    rw [TxnManager.isActive, IndexMap.contains, hid] at h
    exact Bool.false_ne_true h.symm
  change (w.kvs.txns.active.insert w.kvs.txns.nextId _).get id = _
  rw [IndexMap.get_insert, if_neg hne, hid]

/-- In a run of any statements on any databases, no transaction is given the id of an active one
exactly if each transaction has ended when the one that is `2 ^ 32` transactions later begins. -/
theorem begin_fresh_iff (s : KvsState) (calls : List (UInt32 × Call)) :
    (∀ i < calls.length, beginsAt calls i = true →
      let w := worldAt s calls i
      w.kvs.txns.isActive w.kvs.txns.nextId = false ∧
        ∀ id entry, w.kvs.txns.active.get id = some entry →
          ∀ dbId, (w.begin dbId).kvs.txns.active.get id = some entry) ↔
    ∀ i j, j < calls.length → beginsAt calls i = true → beginsAt calls j = true →
      begun (calls.take j) = begun (calls.take i) + 2 ^ 32 →
      ∃ m, i < m ∧ m ≤ j ∧
        (worldAt s calls m).kvs.txns.isActive (worldAt s calls i).kvs.txns.nextId = false := by
  have hfresh := (worldAt_tickets s calls).fresh_iff (by decide) calls.length
  have hlt : ∀ i, (1 + begun (calls.take i)) % 2 ^ 32 < 2 ^ 32 := fun i => Nat.mod_lt _ (by decide)
  have hid : ∀ i ≤ calls.length,
      UInt32.ofNat ((1 + begun (calls.take i)) % 2 ^ 32) = (worldAt s calls i).kvs.txns.nextId := by
    intro i hi
    rw [← worldAt_nextId s calls hi, UInt32.ofNat_toNat]
  simp only [issued_beginsAt, hlt, true_and, Bool.not_eq_true] at hfresh
  constructor
  · intro hrun i j hj hi hbegins hround
    have hle : i ≤ calls.length := by
      by_contra hgt
      rw [beginsAt, List.getElem?_eq_none (by omega)] at hi
      exact Bool.false_ne_true hi
    rw [← hid i hle]
    refine hfresh.mp (fun i' hi' hbegins' => ?_) i j hj hi hbegins hround
    rw [hid i' hi'.le]
    exact (hrun i' hi' hbegins').1
  · intro hshort i hi hbegins w
    have hnext : w.kvs.txns.isActive w.kvs.txns.nextId = false := by
      rw [← hid i hi.le]
      refine hfresh.mpr (fun i' j' hj' hi' hj'' hround => ?_) i hi hbegins
      have hle : i' ≤ calls.length := by
        by_contra hgt
        rw [beginsAt, List.getElem?_eq_none (by omega)] at hi'
        exact Bool.false_ne_true hi'
      rw [hid i' hle]
      exact hshort i' j' hj' hi' hj'' hround
    exact ⟨hnext, fun id entry hentry dbId => begin_keeps_journals hnext hentry dbId⟩

/-! ### Where it fails -/

theorem runCallsOn_map (dbId : UInt32) (calls : List Call) (w : World) :
    runCallsOn (calls.map fun c => (dbId, c)) w = runCalls dbId calls w :=
  List.foldl_map

omit [Externals] in
/-- Transaction 1 inserts a row and stays open while `2 ^ 32 - 1` others begin and commit. The next
BEGIN returns the id 1 and empties its journal. -/
theorem begin_reissues_active_id :
    letI := Externals.ofTexts [] []
    let s := Sample.after [Sample.call (Sample.create []) none]
    let calls := [Sample.call .startTransaction none, Sample.call (Sample.insert [.number "1"]) (some 1)] ++
      beginCommits 2 (2 ^ 32 - 1)
    let w := runCallsOn (calls.map fun c => (0, c)) ⟨s, []⟩
    let out := Prog.exec (executeStatement 3 0 .startTransaction [] none) w
    w.kvs.txns.active.get 1 = some ⟨0, [.insert "t" 1]⟩ ∧ out.1 = .ok (.began 1) ∧
      out.2.kvs.txns.active.get 1 = some ⟨0, []⟩ := by
  let _ := Externals.ofTexts [] []
  intro s calls w out
  obtain ⟨v, hv⟩ : ∃ v, v = runCalls 0 [Sample.call .startTransaction none,
      Sample.call (Sample.insert [.number "1"]) (some 1)] ⟨s, []⟩ := ⟨_, rfl⟩
  have hnext : v.kvs.txns.nextId = 2 := by
    rw [hv]
    decide
  have hkeys : v.kvs.txns.active.keys = [1] := by
    rw [hv]
    decide
  have hjournal : v.kvs.txns.active.get 1 = some ⟨0, [.insert "t" 1]⟩ := by
    rw [hv]
    decide
  have hactive : ∀ i < 2 ^ 32 - 1,
      v.kvs.txns.active.get (v.kvs.txns.nextId + UInt32.ofNat i) = none := by
    intro i hi
    rw [IndexMap.get_eq_none_iff, hkeys, List.mem_singleton, hnext, ← UInt32.toNat_inj,
      UInt32.toNat_add, UInt32.toNat_ofNat']
    change (2 + i % 2 ^ 32) % 2 ^ 32 ≠ 1
    omega
  have hw : w = { v with kvs := { v.kvs with txns := ⟨1, v.kvs.txns.active⟩ } } := by
    have hround := runCalls_beginCommits 0 v (2 ^ 32 - 1) hactive
    have hone : v.kvs.txns.nextId + UInt32.ofNat (2 ^ 32 - 1) = 1 := by
      rw [hnext]
      decide
    rw [hone, hnext, hv, ← runCalls_append, ← runCallsOn_map] at hround
    rw [hv]
    exact hround
  have hout : out = (.ok (.began w.kvs.txns.nextId), w.begin 0) := rfl
  rw [hout, hw]
  exact ⟨hjournal, rfl, IndexMap.get_insert_self ..⟩

end Skvs
