import Skvs.Proof.LastWrite

/-!
# Committed writes and the rollback of another transaction

Two transactions write to the same database. The rollback of the first puts back, for each row it has
written, the version its first write replaced, whether or not the second has written the row since
and committed.
-/

namespace Skvs

variable [Externals]

/-- What two transactions do, the second of which commits: plain statements under their ids, BEGIN,
and COMMIT of the second. -/
inductive OfTwo (first second : UInt32) (c : Call) : Prop
  | statement (hstmt : c.stmt.isPlain = true) (htx : c.txId = some first ∨ c.txId = some second)
  | begin (hstmt : c.stmt = .startTransaction)
  | commit (hstmt : c.stmt = .commit) (htx : c.txId = some second)

section Run

variable {dbId first second : UInt32} {w : World}

/-- Where such a call leads. -/
theorem OfTwo.run {c : Call} (h : OfTwo first second c) (hplain : PlainTriggers w.kvs dbId) :
    (∃ tx, (tx = first ∨ tx = second) ∧ Changes dbId (some tx) w (c.run dbId w)) ∨
      c.run dbId w = w.begin dbId ∨ c.run dbId w = w.commit second := by
  cases h with
  | statement hstmt htx =>
      rcases htx with htx | htx
      · exact Or.inl ⟨first, Or.inl rfl, Call.run_changes hstmt htx hplain⟩
      · exact Or.inl ⟨second, Or.inr rfl, Call.run_changes hstmt htx hplain⟩
  | begin hstmt =>
      obtain ⟨stmt, params, txId, fuel⟩ := c
      obtain rfl : stmt = .startTransaction := hstmt
      exact Or.inr (Or.inl rfl)
  | commit hstmt htx =>
      obtain ⟨stmt, params, txId, fuel⟩ := c
      obtain rfl : stmt = .commit := hstmt
      obtain rfl : txId = some second := htx
      refine Or.inr (Or.inr ?_)
      change (Prog.exec (Skvs.commit second >>= fun _ => pure QueryResult.empty) w).2 = _
      rw [Prog.exec_bind_pure_snd, exec_commit]

omit [Externals] in
theorem OfTwo.isData {c : Call} (h : OfTwo first second c) : c.isData = true := by
  obtain ⟨stmt, params, txId, fuel⟩ := c
  cases h with
  | statement hstmt => cases stmt <;> first | rfl | exact hstmt
  | begin hstmt =>
      obtain rfl : stmt = .startTransaction := hstmt
      rfl
  | commit hstmt =>
      obtain rfl : stmt = .commit := hstmt
      rfl

omit [Externals] in
theorem OfTwo.ends {c : Call} (h : OfTwo first second c) (hne : second ≠ first) :
    c.ends ≠ some first := by
  obtain ⟨stmt, params, txId, fuel⟩ := c
  cases h with
  | statement hstmt =>
      have hnone : Call.ends ⟨stmt, params, txId, fuel⟩ = none := by
        cases stmt <;> first | rfl | exact nomatch hstmt
      rw [hnone]
      exact nofun
  | begin hstmt =>
      obtain rfl : stmt = .startTransaction := hstmt
      exact nofun
  | commit hstmt htx =>
      obtain rfl : stmt = .commit := hstmt
      obtain rfl : txId = some second := htx
      exact fun heq => hne (Option.some.inj heq)

/-- The rows are what the writes have made of them, and all writes are of the two transactions. -/
structure LoggedBy (s : KvsState) (first second : UInt32) (w : World) : Prop where
  rows : RowsLogged s w
  writes : ∀ x ∈ w.writes, x.txId = some first ∨ x.txId = some second

theorem LoggedBy.change {s : KvsState} {tx : UInt32} {w' : World} (h : LoggedBy s first second w)
    (htx : tx = first ∨ tx = second) (hstep : Change dbId (some tx) w w') :
    LoggedBy s first second w' := by
  refine ⟨h.rows.change hstep, ?_⟩
  cases hstep with
  | draw => exact h.writes
  | store k copy after =>
      intro x hx
      rcases List.mem_append.mp hx with hx | hx
      · exact h.writes x hx
      · rw [List.mem_singleton.mp hx]
        exact htx.imp (congrArg some) (congrArg some)

theorem LoggedBy.run {s : KvsState} (h : LoggedBy s first second w) {c : Call}
    (hc : OfTwo first second c) (hplain : PlainTriggers w.kvs dbId) :
    LoggedBy s first second (c.run dbId w) := by
  rcases hc.run hplain with ⟨tx, htx, hch⟩ | hbegin | hcommit
  · exact hch.keeps h fun _ _ hv hstep => hv.change htx hstep
  · rw [hbegin]
    exact ⟨h.rows, h.writes⟩
  · rw [hcommit]
    obtain ⟨_, hframe⟩ := commit_frame w second
    rw [hframe]
    exact ⟨h.rows, h.writes⟩

theorem LoggedBy.runCalls {s : KvsState} (calls : List Call)
    (hcalls : ∀ c ∈ calls, OfTwo first second c) (h : LoggedBy s first second w)
    (hplain : PlainTriggers w.kvs dbId) : LoggedBy s first second (runCalls dbId calls w) := by
  induction calls generalizing w with
  | nil => exact h
  | cons c calls ih =>
      have hc := hcalls c List.mem_cons_self
      exact ih (fun c' hc' => hcalls c' (List.mem_cons_of_mem c hc')) (h.run hc hplain)
        (hplain.of_triggers (c.run_triggers hplain hc.isData))

omit [Externals] in
/-- BEGIN starts an empty journal, whatever the others have written before. -/
theorem Journaled.begin_of_unwritten (dbId : UInt32)
    (h : ∀ x ∈ w.writes, x.txId ≠ some w.kvs.txns.nextId) :
    Journaled dbId w.kvs.txns.nextId (w.begin dbId) where
  active := by
    have hnone : (w.writes.filter fun x => x.txId = some w.kvs.txns.nextId) = [] :=
      List.filter_eq_nil_iff.mpr fun x hx => by simpa using h x hx
    change (w.kvs.txns.active.insert w.kvs.txns.nextId _).get _ =
      some ⟨dbId, (w.writes.filter _).map _⟩
    rw [hnone]
    exact IndexMap.get_insert_self ..
  stores x hx htx := absurd htx (h x hx)
  first k x hx := absurd (mem_of_firstWrite hx).2.1 (h x (mem_of_firstWrite hx).1)

end Run

/-- In any interleaving of two transactions, the rollback of the first leaves all rows that the second
has been the last to write as the second has left them exactly if, for each of them that the first
has written before, the version its first write replaced is the one the second has left. -/
theorem committed_survives_iff (s : KvsState) (dbId : UInt32) (hplain : PlainTriggers s dbId)
    (first second : UInt32) (hne : second ≠ first) (before after : List Call)
    (hbefore : ∀ c ∈ before, OfTwo second second c)
    (hfirst : (runCalls dbId before ⟨s, []⟩).kvs.txns.nextId = first)
    (hafter : ∀ c ∈ after, OfTwo first second c)
    (hbegins : (after.filter Call.begins).length < 2 ^ 32) :
    let w := runCalls dbId after ((runCalls dbId before ⟨s, []⟩).begin dbId)
    let w' := (Prog.exec (rollback first) w).2
    (∀ k x, lastWrite k w.writes = some x → x.txId = some second → w'.kvs.row k = x.after) ↔
      ∀ k x y, lastWrite k w.writes = some x → x.txId = some second →
        firstWrite first k w.writes = some y → y.copy = x.after := by
  intro w w'
  subst hfirst
  obtain ⟨v, hv⟩ : ∃ v, v = runCalls dbId before ⟨s, []⟩ := ⟨_, rfl⟩
  have hlogged : LoggedBy s second second v := by
    rw [hv]
    exact LoggedBy.runCalls before hbefore ⟨fun _ => rfl, fun _ hx => absurd hx List.not_mem_nil⟩ hplain
  have hplainv : PlainTriggers v.kvs dbId := by
    rw [hv]
    exact hplain.of_triggers
      (runCalls_triggers before (fun c hc => (hbefore c hc).isData) (w := ⟨s, []⟩) hplain)
  rw [← hv] at hne hafter
  have hw : w = runCalls dbId after (v.begin dbId) := by rw [hv]
  have hw' : w' = w.rollback v.kvs.txns.nextId := by
    rw [hv]
    exact exec_rollback ..
  have hrows : RowsLogged s w := by
    rw [hw]
    exact (LoggedBy.runCalls after hafter (w := v.begin dbId)
      ⟨hlogged.rows, fun x hx => Or.inr ((hlogged.writes x hx).elim id id)⟩ hplainv).rows
  have hj : Journaled dbId v.kvs.txns.nextId w := by
    have hunwritten : ∀ x ∈ v.writes, x.txId ≠ some v.kvs.txns.nextId := by
      intro x hx heq
      have htx := (hlogged.writes x hx).elim id id
      exact hne (Option.some.inj (htx.symm.trans heq))
    rw [hw]
    exact (Journaled.begin_of_unwritten dbId hunwritten).runCalls after
      (fun c hc => (hafter c hc).isData) (fun c hc => (hafter c hc).ends hne) hplainv (m := 0)
      (UInt32.toNat_add v.kvs.txns.nextId 1) (by omega)
  rw [hw', ← hv]
  refine forall_congr' fun k => forall_congr' fun x => ?_
  rw [hj.rollback_row]
  constructor
  · intro h y hlast htx hy
    have hrow := h hlast htx
    rw [hy] at hrow
    exact hrow
  · intro h hlast htx
    cases hy : firstWrite v.kvs.txns.nextId k w.writes with
    | some y => exact h y hlast htx hy
    | none =>
        have hrow := hrows k
        rw [hlast] at hrow
        exact hrow

/-! ### Where it fails -/

omit [Externals] in
/-- Transactions 2 and 3 update row 1, one after the other; 3 commits, and the rollback of 2 puts back
the row that both have replaced. -/
theorem committed_write_lost :
    letI := Externals.ofTexts [] []
    let s := Sample.after [Sample.call (Sample.create []) none,
      Sample.call (Sample.insert [.number "1"]) none]
    let w := runCalls 0 [Sample.call .startTransaction none, Sample.call (Sample.update "5") (some 2),
      Sample.call (Sample.update "6") (some 3), Sample.call .commit (some 3)] (World.begin ⟨s, []⟩ 0)
    let w' := (Prog.exec (rollback 2) w).2
    lastWrite ⟨0, "t", 1⟩ w.writes = some ⟨some 3, 0, "t", 1, some (Sample.row 5),
        some (Sample.row 5), some (Sample.row 6)⟩ ∧
      w.kvs.row ⟨0, "t", 1⟩ = some (Sample.row 6) ∧
      w'.kvs.row ⟨0, "t", 1⟩ = some (Sample.row 1) := by
  decide

/-- The transaction 3 begins, updates row 1 and commits, while 2 inserts a row. -/
def Sample.updateBesideInsert : List Call :=
  [call .startTransaction none, call (update "6") (some 3), call (insert [.number "7"]) (some 2),
    call .commit (some 3)]

omit [Externals] in
/-- The rollback of 2 takes out its own row, and the other stays as 3 has committed it. -/
theorem committed_survives_update :
    letI := Externals.ofTexts [] []
    let s := Sample.after [Sample.call (Sample.create []) none,
      Sample.call (Sample.insert [.number "1"]) none]
    let w := runCalls 0 Sample.updateBesideInsert ((runCalls 0 [] ⟨s, []⟩).begin 0)
    let w' := (Prog.exec (rollback 2) w).2
    w'.kvs.row ⟨0, "t", 1⟩ = some (Sample.row 6) ∧
      w.kvs.row ⟨0, "t", 2⟩ = some (Sample.row 7) ∧ w'.kvs.row ⟨0, "t", 2⟩ = none := by
  let _ := Externals.ofTexts [] []
  intro s w w'
  have hafter : ∀ c ∈ Sample.updateBesideInsert, OfTwo 2 3 c := by
    simp only [Sample.updateBesideInsert, List.forall_mem_cons]
    exact ⟨.begin rfl, .statement rfl (Or.inr rfl), .statement rfl (Or.inl rfl), .commit rfl rfl,
      nofun⟩
  have h := @committed_survives_iff (Externals.ofTexts [] []) s 0
    (NoTriggers.of_empty (by decide)).plain 2 3 (by decide) [] _ nofun (by decide)
    hafter (by decide)
  have hwrites : w.writes = [⟨some 3, 0, "t", 1, some (Sample.row 1), some (Sample.row 1),
      some (Sample.row 6)⟩, ⟨some 2, 0, "t", 2, none, none, some (Sample.row 7)⟩] := by
    decide
  -- the row that 3 was the last to write is not the one that 2 has written
  have hapart : ∀ k x y, lastWrite k w.writes = some x → x.txId = some 3 →
      firstWrite 2 k w.writes = some y → y.copy = x.after := by
    intro k x y hx htx hy
    obtain ⟨hmem, hy, rfl⟩ := mem_of_firstWrite hy
    rw [hwrites] at hmem hx
    rcases List.mem_pair.mp hmem with rfl | rfl
    · exact absurd hy (by decide)
    · obtain rfl := Option.some.inj hx
      exact absurd htx (by decide)
  have hlast : lastWrite ⟨0, "t", 1⟩ w.writes = some ⟨some 3, 0, "t", 1, some (Sample.row 1),
      some (Sample.row 1), some (Sample.row 6)⟩ := by
    rw [hwrites]
    decide
  have hrow := h.mpr hapart _ _ hlast rfl
  refine ⟨?_, by decide, by decide⟩
  simp only [w', w]
  exact hrow

end Skvs
