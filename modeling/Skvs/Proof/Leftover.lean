import Skvs.Proof.Run
import Skvs.Proof.IndexEntries

/-!
# Index entries under triggers

UPDATE and DELETE take index entries out by the copy they collected. When a trigger has changed the
row in between, the entry of the version that really stood there is left over, unless a later write
of the same row happens to carry a copy with that value.
-/

namespace Skvs

def writesTo (k : Key) (writes : List Write) : List Write := writes.filter fun x => x.key = k

/-- Some write found the value in the row, and neither it nor a later write had it in its copy. -/
def Stale (idx : IndexDef) (v : Value) (writes : List Write) : Prop :=
  ∃ x post, x :: post <:+ writes ∧ filed idx x.before = some v ∧
    ∀ y ∈ x :: post, filed idx y.copy ≠ some v

theorem not_stale_nil (idx : IndexDef) (v : Value) : ¬Stale idx v [] := by
  rintro ⟨x, post, hsuffix, -⟩
  exact absurd (List.suffix_nil.mp hsuffix) (List.cons_ne_nil x post)

/-- One more write of the row: its copy takes a stale entry away, and what it found may be stale. -/
theorem stale_concat {idx : IndexDef} {v : Value} {writes : List Write} {y : Write} :
    Stale idx v (writes ++ [y]) ↔
      filed idx y.copy ≠ some v ∧ (filed idx y.before = some v ∨ Stale idx v writes) := by
  constructor
  · rintro ⟨x, post, hsuffix, hbefore, hcopies⟩
    rcases List.suffix_concat_iff.mp hsuffix with hnil | ⟨init, hinit, hinitSuffix⟩
    · exact absurd hnil (List.cons_ne_nil x post)
    · have hy : y ∈ x :: post := hinit ▸ List.mem_append_right init List.mem_cons_self
      refine ⟨hcopies y hy, ?_⟩
      cases init with
      | nil =>
          left
          rw [List.nil_append, List.cons.injEq] at hinit
          exact hinit.1 ▸ hbefore
      | cons x' init =>
          right
          rw [List.cons_append, List.cons.injEq] at hinit
          obtain ⟨rfl, rfl⟩ := hinit
          exact ⟨x, init, hinitSuffix, hbefore, fun z hz =>
            hcopies z (by simpa using List.mem_append_left [y] hz)⟩
  · rintro ⟨hcopy, hbefore | ⟨x, post, hsuffix, hbefore, hcopies⟩⟩
    · refine ⟨y, [], List.suffix_append writes [y], hbefore, fun z hz => ?_⟩
      rw [List.mem_singleton.mp hz]
      exact hcopy
    · refine ⟨x, post ++ [y], ?_, hbefore, fun z hz => ?_⟩
      · exact List.suffix_concat_iff.mpr (Or.inr ⟨x :: post, rfl, hsuffix⟩)
      · rw [← List.cons_append] at hz
        rcases List.mem_append.mp hz with hz | hz
        · exact hcopies z hz
        · rw [List.mem_singleton.mp hz]
          exact hcopy

/-- Each index entry is that of the row as it stands or a stale one. -/
structure Accounted (w : World) : Prop where
  indexed : ∀ dbId table, Indexed w.kvs dbId table
  before : ∀ x ∈ w.writes, ∀ row, x.before = some row → row.realFree
  entry_iff : ∀ k idx v, HasIndex w.kvs k idx → v.isReal = false →
    (Entry w.kvs k idx v ↔
      filed idx (w.kvs.row k) = some v ∨ Stale idx v (writesTo k w.writes))

theorem Accounted.start {s : KvsState} (h : IndexesExact s) : Accounted ⟨s, []⟩ where
  indexed dbId table := (h dbId table).toIndexed
  before _ hx := absurd hx List.not_mem_nil
  entry_iff k idx v hidx hv := by
    rw [(h k.dbId k.table).entry_iff k.rowid idx v hidx hv]
    exact ⟨Or.inl, fun hor => hor.resolve_right (not_stale_nil idx v)⟩

theorem Accounted.withTxns {w : World} (h : Accounted w) (txns : TxnManager) :
    Accounted { w with kvs := { w.kvs with txns } } where
  indexed dbId table :=
    let h' := h.indexed dbId table
    ⟨h'.names, h'.tidy, h'.realFree⟩
  before := h.before
  entry_iff := h.entry_iff

section Change

variable [Externals] {dbId : UInt32} {txId : Option UInt32} {w w' : World}

theorem Accounted.store (h : Accounted w) {k : Key} {copy after : Option Row}
    (hstore : w.kvs.hasStore k.dbId k.table = true) (hcopy : copy = none ∨ Held txId w k copy)
    (hafter : ∀ row, after = some row → row.realFree) : Accounted (w.store txId k copy after) := by
  have hcopyReal : ∀ row, copy = some row → row.realFree := by
    rintro row rfl
    rcases hcopy.resolve_left (Option.some_ne_none row) with hrow | ⟨x, hx, -, -, hbefore⟩
    · exact (h.indexed k.dbId k.table).realFree k.rowid row hrow
    · exact h.before x hx row hbefore
  have hsets := store_sets w txId k copy after
  have hstore' : (w.kvs.record txId (undoEntry k copy after)).hasStore k.dbId k.table = true := by
    rwa [record_hasStore]
  -- the journal entry is no part of what the indexes or the rows hold
  obtain ⟨txns, hrec⟩ := record_frame w.kvs txId (undoEntry k copy after)
  rw [hrec] at hsets hstore'
  have hindexed := (h.withTxns txns).indexed
  refine ⟨fun dbId table => (hindexed dbId table).sets hsets hstore' (fun _ _ => hcopyReal)
    fun _ _ => hafter, fun x hx => ?_, fun k' idx v hidx hv => ?_⟩
  · rcases List.mem_append.mp hx with hx | hx
    · exact h.before x hx
    · rw [List.mem_singleton.mp hx]
      exact (h.indexed k.dbId k.table).realFree k.rowid
  · have hidx' : HasIndex w.kvs k' idx := hsets.hasIndex_iff.mp hidx
    have hentry := (hindexed k'.dbId k'.table).entry_sets hsets (fun _ _ => hcopyReal)
      (fun _ _ => hafter) k'.rowid hidx' hv
    rw [hentry, store_row txId k copy after hstore]
    have hold : Entry { w.kvs with txns } k' idx v ↔ _ := h.entry_iff k' idx v hidx' hv
    by_cases hk : k' = k
    · subst hk
      have hwrites : writesTo k' (w.store txId k' copy after).writes = writesTo k' w.writes ++
          [⟨txId, k'.dbId, k'.table, k'.rowid, w.kvs.row k', copy, after⟩] := by
        simp [writesTo, World.store, List.filter_append, Write.key]
      rw [if_pos rfl, hwrites, stale_concat, hold]
      simp
    · have hwrites : writesTo k' (w.store txId k copy after).writes = writesTo k' w.writes := by
        simp [writesTo, World.store, List.filter_append, Write.key, Ne.symm hk]
      rw [if_neg hk, hwrites, hold]
      simp [hk]

theorem Accounted.changes (hch : Changes dbId txId w w') (h : Accounted w)
    (hreal : RealFreeWrites w'.writes) : Accounted w' := by
  refine hch.keeps (P := fun v => RealFreeWrites v.writes → Accounted v) (fun _ => h)
    (fun v v' hv hstep hreal => ?_) hreal
  cases hstep with
  | draw =>
      have h := hv hreal
      exact ⟨fun dbId table => let h' := h.indexed dbId table; ⟨h'.names, h'.tidy, h'.realFree⟩,
        h.before, h.entry_iff⟩
  | store k copy after hdb hstore hcopy =>
      refine (hv fun x hx => hreal x (List.mem_append_left _ hx)).store hstore hcopy ?_
      exact hreal _ (List.mem_append_right _ List.mem_cons_self)

end Change

theorem Accounted.exact_iff {w : World} (h : Accounted w) :
    IndexesExact w.kvs ↔ ∀ k idx v, HasIndex w.kvs k idx → Stale idx v (writesTo k w.writes) →
      filed idx (w.kvs.row k) = some v := by
  constructor
  · intro hexact k idx v hidx hstale
    have hv : v.isReal = false := by
      obtain ⟨x, post, hsuffix, hbefore, -⟩ := hstale
      have hx : x ∈ w.writes := List.mem_of_mem_filter (hsuffix.subset List.mem_cons_self)
      exact filed_not_real (h.before x hx) hbefore
    have hentry : Entry w.kvs k idx v := (h.entry_iff k idx v hidx hv).mpr (Or.inr hstale)
    exact ((hexact k.dbId k.table).entry_iff k.rowid idx v hidx hv).mp hentry
  · intro hstale dbId table
    refine ⟨h.indexed dbId table, fun rowid idx v hidx hv => ?_⟩
    rw [h.entry_iff _ idx v hidx hv]
    exact ⟨fun hor => hor.elim id (hstale _ idx v hidx), Or.inl⟩

/-- After a statement and its triggers have succeeded, the indexes are exact if and only if no entry
is left over: every indexed value that a write found in a row is the final value of the row, or that
of the copy this or a later write of the row carried. -/
theorem indexes_exact_after_iff [Externals] (s : KvsState) (hexact : IndexesExact s)
    (dbId : UInt32) (hplain : PlainTriggers s dbId) (fuel : Nat) (stmt : Statement)
    (hwrite : stmt.isWrite = true) (params : List Value) (txId : Option UInt32)
    (result : QueryResult)
    (hok : (Prog.exec (executeStatement fuel dbId stmt params txId) ⟨s, []⟩).1 = .ok result)
    (hreal : RealFreeWrites
      (Prog.exec (executeStatement fuel dbId stmt params txId) ⟨s, []⟩).2.writes) :
    let w' := (Prog.exec (executeStatement fuel dbId stmt params txId) ⟨s, []⟩).2
    IndexesExact w'.kvs ↔
      ∀ k idx v, HasIndex w'.kvs k idx → Stale idx v (writesTo k w'.writes) →
        filed idx (w'.kvs.row k) = some v := by
  have hstmt := stmt.isPlain_of_isWrite hwrite
  rw [executeStatement_write hwrite] at hok hreal ⊢
  refine Accounted.exact_iff ?_
  cases txId with
  | some id =>
      have hmoves := executeSingleStatement_moves fuel dbId stmt hstmt params (some id) ⟨s, []⟩ hplain
      exact (Accounted.start hexact).changes hmoves hreal
  | none =>
      simp only [exec_executeAtomically] at hok hreal ⊢
      have hmoves := executeSingleStatement_moves fuel dbId stmt hstmt params (some s.txns.nextId)
        (World.begin ⟨s, []⟩ dbId) hplain
      rw [Prog.Moves] at hmoves
      generalize Prog.exec (executeSingleStatement fuel dbId stmt params (some s.txns.nextId))
        (World.begin ⟨s, []⟩ dbId) = out at hok hreal hmoves ⊢
      obtain ⟨outcome, w⟩ := out
      cases outcome with
      | error e => cases e <;> cases hok
      | ok result' =>
          have hw : Accounted w := ((Accounted.start hexact).withTxns _).changes hmoves hreal
          obtain ⟨txns, hframe⟩ := commit_frame w s.txns.nextId
          change Accounted (w.commit s.txns.nextId)
          rw [hframe]
          exact hw.withTxns txns

/-! ### Where it fails -/

/-- Surroundings that can read the body of `rewriteTrigger`. -/
@[reducible]
def rewriteExternals : Externals :=
  .ofTexts [("UPDATE t SET a = 99", [Sample.update "99"])] []

/-- `CREATE TRIGGER r AFTER DELETE ON t FOR EACH ROW BEGIN UPDATE t SET a = 99 END`. -/
def rewriteTrigger : String :=
  "CREATE TRIGGER r AFTER DELETE ON t FOR EACH ROW BEGIN UPDATE t SET a = 99 END"

/-- The indexed table with the rows 1 and 2, and the trigger. -/
def rewriteState : KvsState :=
  letI := rewriteExternals
  let s := Sample.after [Sample.call (Sample.create []) none, Sample.call Sample.createIndex none,
    Sample.call (Sample.insert [.number "1", .number "2"]) none]
  (Prog.exec (createTrigger 0 rewriteTrigger) ⟨s, []⟩).2.kvs

/-- `DELETE FROM t` removes row 1, whose trigger changes row 2, and then row 2 by its old contents:
the index goes on holding row 2 under 99. -/
theorem trigger_leaves_index_entry :
    letI := rewriteExternals
    let out := Prog.exec (executeStatement 3 0 Sample.delete [] none) ⟨rewriteState, []⟩
    IndexesExact rewriteState ∧ out.1 = .ok (.affected 2) ∧
      (out.2.kvs.indexStore 0 "t" "i").entries = [(.integer 99, [2])] ∧
      out.2.kvs.row ⟨0, "t", 2⟩ = none ∧ ¬IndexesExact out.2.kvs := by
  let _ := rewriteExternals
  intro out
  obtain ⟨hcheck, hok, hentries, hrow, hindices⟩ : rewriteState.exactCheck = true ∧
      out.1 = .ok (.affected 2) ∧
      (out.2.kvs.indexStore 0 "t" "i").entries = [(.integer 99, [2])] ∧
      out.2.kvs.row ⟨0, "t", 2⟩ = none ∧
      (out.2.kvs.getSchema 0 "t").map TableSchema.indices =
        some [⟨"i", ["a"], false, none, false⟩] := by
    decide
  refine ⟨indexesExact_of_check hcheck, hok, hentries, hrow, fun h => ?_⟩
  obtain ⟨schema, hschema, hin⟩ := Option.map_eq_some_iff.mp hindices
  have hfiled := ((h 0 "t").entry_iff 2 ⟨"i", ["a"], false, none, false⟩ (.integer 99)
    ⟨schema, hschema, hin ▸ List.mem_cons_self⟩ rfl).mp (by
      rw [Entry, bucket, BTreeMap.get, hentries]
      decide)
  rw [hrow] at hfiled
  cases hfiled

/-- `DELETE FROM t WHERE a = 2`. -/
def deleteOfTwo : Statement :=
  .delete ["t"] [] (some (.binaryOp (.identifier (Sample.name "a")) .eq (.value (.number "2"))))

/-- `DELETE FROM t WHERE a = 2` takes row 2 out, and its trigger moves row 1 from 1 to 99. -/
theorem indexes_exact_after_cascade :
    letI := rewriteExternals
    let out := Prog.exec (executeStatement 3 0 deleteOfTwo [] none) ⟨rewriteState, []⟩
    out.1 = .ok (.affected 1) ∧
      (out.2.kvs.indexStore 0 "t" "i").entries = [(.integer 99, [1])] ∧ IndexesExact out.2.kvs := by
  let _ := rewriteExternals
  intro out
  obtain ⟨hcheck, hok, hentries, hwrites⟩ : rewriteState.exactCheck = true ∧
      out.1 = .ok (.affected 1) ∧
      (out.2.kvs.indexStore 0 "t" "i").entries = [(.integer 99, [1])] ∧
      out.2.writes = [⟨some 2, 0, "t", 2, some (Sample.row 2), some (Sample.row 2), none⟩,
        ⟨some 2, 0, "t", 1, some (Sample.row 1), some (Sample.row 1), some (Sample.row 99)⟩] := by
    decide
  have hplain : PlainTriggers rewriteState 0 := by
    intro table trigger _ oldRow newRow stmts hparse stmt hstmt
    obtain rfl := parseStatements_ofTexts hparse
    rw [List.mem_singleton.mp hstmt]
    rfl
  have hiff := indexes_exact_after_iff rewriteState (indexesExact_of_check hcheck) 0 hplain 3
    deleteOfTwo rfl [] none (.affected 1) hok
  generalize hrun : Prog.exec (executeStatement 3 0 deleteOfTwo [] none) ⟨rewriteState, []⟩ = run
    at hiff
  have hout : out = run := hrun
  clear_value out
  subst hout
  rw [hwrites] at hiff
  refine ⟨hok, hentries, (hiff ?_).mpr ?_⟩
  · intro x hx row hrow
    simp only [List.mem_cons, List.not_mem_nil, or_false] at hx
    rcases hx with rfl | rfl
    · cases hrow
    · rw [← Option.some.inj hrow]
      exact realFree_of_check (by decide)
  · -- both writes found in their row the copy they carried
    rintro k idx v - ⟨x, post, hsuffix, hbefore, hcopies⟩
    have hx := List.mem_of_mem_filter (hsuffix.subset List.mem_cons_self)
    rw [hwrites] at hx
    simp only [List.mem_cons, List.not_mem_nil, or_false] at hx
    rcases hx with rfl | rfl <;> exact absurd hbefore (hcopies _ List.mem_cons_self)

end Skvs
