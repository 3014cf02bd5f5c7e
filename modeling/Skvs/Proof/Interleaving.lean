import Skvs.Proof.Reversible

/-!
# Index entries under interleaved transactions

Without triggers a statement moves the entries of the rows that stand there. A replay does so too,
except where it puts a deleted row back: it takes no entry out, so another transaction's version of
the row must not stand there under a different value.
-/

namespace Skvs

variable [Externals]

/-- What stands at a row once the later entries of the journal are undone. -/
def standing (s : KvsState) (dbId : UInt32) (later : List UndoOp) (k : Key) : Option Row :=
  match later.find? fun op => op.key dbId = k with
  | some op => op.value
  | none => s.row k

/-- Every deleted row that the replay puts back finds its place empty, or taken by a row that no
index files under a different value. -/
def CleanRestore (s : KvsState) (dbId : UInt32) (journal : List UndoOp) : Prop :=
  ∀ earlier table rowid row later, journal = earlier ++ .delete table rowid row :: later →
    ∀ idx v, HasIndex s ⟨dbId, table, rowid⟩ idx →
      filed idx (standing s dbId later ⟨dbId, table, rowid⟩) = some v →
        indexValue idx row = some v

/-- A ROLLBACK whose replay is clean, or any other call. -/
def Call.clean (s : KvsState) (c : Call) : Prop :=
  c.stmt = .rollback → ∀ id entry, c.txId = some id → s.txns.active.get id = some entry →
    CleanRestore s entry.dbId entry.journal

/-- No journal holds a row with a REAL. -/
def RealFreeJournals (s : KvsState) : Prop :=
  ∀ id entry, s.txns.active.get id = some entry →
    ∀ op ∈ entry.journal, ∀ row, op.value = some row → row.realFree

/-! ### The replay -/

section Replay

variable {s : KvsState} {dbId : UInt32}

omit [Externals] in
theorem CleanRestore.tail {op : UndoOp} {journal : List UndoOp}
    (h : CleanRestore s dbId (op :: journal)) : CleanRestore s dbId journal :=
  fun earlier table rowid row later heq =>
    h (op :: earlier) table rowid row later (by rw [heq, List.cons_append])

omit [Externals] in
/-- A journal without deletions replays cleanly. -/
theorem CleanRestore.of_no_delete {journal : List UndoOp}
    (h : ∀ op ∈ journal, op.isDelete = false) : CleanRestore s dbId journal := by
  rintro earlier table rowid row later rfl
  exact nomatch h (.delete table rowid row) (List.mem_append_right _ List.mem_cons_self)

theorem undoOp_exact {op : UndoOp} (h : IndexesExact s)
    (hreal : ∀ row, op.value = some row → row.realFree)
    (hclean : op.isDelete = true → s.hasStore dbId (op.key dbId).table = true → ∀ idx v,
      HasIndex s (op.key dbId) idx → filed idx (s.row (op.key dbId)) = some v →
        filed idx op.value = some v) : IndexesExact (undoOp dbId s op) := by
  cases hstore : s.hasStore dbId (op.key dbId).table with
  | false =>
      rw [undoOp_of_no_store dbId s op hstore]
      exact h
  | true =>
      rcases undoOp_cases dbId s op hstore with ⟨heq, -⟩ | ⟨copy, hcopy, hsets⟩
      · rw [heq]
        exact h
      · have hstoreK : s.hasStore (op.key dbId).dbId (op.key dbId).table = true := by
          rw [op.key_dbId]
          exact hstore
        intro db table
        refine (h db table).sets hsets hstoreK (fun _ _ row hrow => ?_) (fun _ _ => hreal)
          fun idx v hidx hfiled => ?_
        · rcases hcopy with rfl | ⟨rfl, -⟩
          · exact (h _ _).realFree _ row hrow
          · exact nomatch hrow
        · rcases hcopy with rfl | ⟨rfl, hdelete⟩
          · exact Or.inl hfiled
          · exact Or.inr (hclean hdelete hstore idx v hidx hfiled)

/-- By induction on the journal: each entry is undone on the state that the later ones leave. -/
theorem undoAll_exact {journal : List UndoOp} (h : IndexesExact s)
    (hreal : ∀ op ∈ journal, ∀ row, op.value = some row → row.realFree)
    (hclean : CleanRestore s dbId journal) : IndexesExact (undoAll s dbId journal) := by
  induction journal with
  | nil => exact h
  | cons op journal ih =>
      rw [undoAll_cons]
      refine undoOp_exact (ih (fun op' hop' => hreal op' (List.mem_cons_of_mem op hop')) hclean.tail)
        (hreal op List.mem_cons_self) fun hdelete hstore idx v hidx hfiled => ?_
      cases op with
      | delete table rowid row =>
          rw [undoAll_hasStore] at hstore
          rw [undoAll_row dbId s journal _ fun _ _ _ => hstore] at hfiled
          obtain ⟨schema, hschema, hin⟩ := hidx
          rw [KvsState.getSchema, undoAll_schemas] at hschema
          exact hclean [] table rowid row journal rfl idx v ⟨schema, hschema, hin⟩ hfiled
      | insert => cases hdelete
      | update => cases hdelete

end Replay

/-! ### A whole run -/

/-- What every step of a run keeps. -/
structure RunInv (dbId : UInt32) (w : World) : Prop where
  exact : IndexesExact w.kvs
  journals : RealFreeJournals w.kvs
  noTriggers : NoTriggers w.kvs dbId

section Run

variable {dbId : UInt32} {txId : Option UInt32} {w w' : World}

omit [Externals] in
theorem RunInv.withTxns (h : RunInv dbId w) {txns : TxnManager}
    (htxns : ∀ id entry, txns.active.get id = some entry →
      entry.journal = [] ∨ w.kvs.txns.active.get id = some entry) :
    RunInv dbId { w with kvs := { w.kvs with txns } } where
  exact dbId table :=
    let h' := h.exact dbId table
    ⟨⟨h'.names, h'.tidy, h'.realFree⟩, h'.entry_iff⟩
  journals id entry hentry op hop := by
    rcases htxns id entry hentry with hnil | hold
    · rw [hnil] at hop
      exact absurd hop List.not_mem_nil
    · exact h.journals id entry hold op hop
  noTriggers := h.noTriggers

omit [Externals] in
theorem RunInv.begin (h : RunInv dbId w) : RunInv dbId (w.begin dbId) := by
  refine h.withTxns fun id entry hentry => ?_
  change (w.kvs.txns.active.insert w.kvs.txns.nextId ⟨dbId, []⟩).get id = some entry at hentry
  rw [IndexMap.get_insert] at hentry
  split_ifs at hentry
  · exact Or.inl (Option.some.inj hentry ▸ rfl)
  · exact Or.inr hentry

omit [Externals] in
theorem RunInv.commit (h : RunInv dbId w) (id : UInt32) : RunInv dbId (w.commit id) := by
  have hactive := commit_active w id
  obtain ⟨txns, hframe⟩ := commit_frame w id
  rw [hframe] at hactive ⊢
  refine h.withTxns fun id' entry hentry => Or.inr ?_
  have hget := hactive id'
  rw [show _ = some entry from hentry] at hget
  split_ifs at hget
  exact hget.symm

theorem RunInv.change (h : RunInv dbId w) (hch : QuietChange dbId txId w w')
    (hfree : FreeInserts w'.writes) (hreal : RealFreeWrites w'.writes) : RunInv dbId w' where
  exact := maintained_indexesExact.change hch hfree hreal h.exact
  journals := by
    cases hch with
    | draw => exact h.journals
    | store k copy after hdb hstore hcopy =>
        intro id entry hentry op hop
        rw [store_active] at hentry
        split_ifs at hentry
        · obtain ⟨old, hold, rfl⟩ := Option.map_eq_some_iff.mp hentry
          rcases List.mem_append.mp hop with hop | hop
          · exact h.journals id old hold op hop
          · rw [List.mem_singleton.mp hop, undoEntry_value, ← row_eq_copy hcopy hfree]
            exact (h.exact _ _).realFree _
        · exact h.journals id entry hentry op hop
  noTriggers := h.noTriggers.changes (.single hch.change)

theorem RunInv.changes (h : RunInv dbId w) (hch : QuietChanges dbId txId w w')
    (hfree : FreeInserts w'.writes) (hreal : RealFreeWrites w'.writes) : RunInv dbId w' := by
  induction hch with
  | refl => exact h
  | @tail v v' _ hstep ih =>
      have hmem : ∀ x ∈ v.writes, x ∈ v'.writes := fun x hx =>
        Changes.mem_writes (.single hstep.change) hx
      exact (ih (fun x hx => hfree x (hmem x hx)) fun x hx => hreal x (hmem x hx)).change hstep
        hfree hreal

/-- A rollback drops one journal and leaves the triggers alone. -/
theorem RunInv.rollback (h : RunInv dbId w) (id : UInt32)
    (hexact : IndexesExact (w.rollback id).kvs) : RunInv dbId (w.rollback id) where
  exact := hexact
  journals id' entry hentry := by
    rw [rollback_active] at hentry
    split_ifs at hentry
    exact h.journals id' entry hentry
  noTriggers := h.noTriggers.of_triggers (rollback_triggers w id)

theorem RunInv.run (h : RunInv dbId w) (c : Call) (hdata : c.isData = true)
    (hclean : c.clean w.kvs) (hfree : FreeInserts (c.run dbId w).writes)
    (hreal : RealFreeWrites (c.run dbId w).writes) : RunInv dbId (c.run dbId w) := by
  have hreached : ∀ txId w, RunInv dbId w → c.stmt.isPlain = true →
      QuietChanges dbId txId w (c.reached dbId txId w) := fun txId w hw hstmt =>
    noTriggers_move dbId w hw.noTriggers c.stmt hstmt c.fuel c.params txId
  have hleads := c.run_leads dbId hdata w
  generalize c.run dbId w = w' at hleads hfree hreal ⊢
  cases hleads with
  | statement hstmt => exact h.changes (hreached _ w h hstmt) hfree hreal
  | committed hstmt => exact (h.begin.changes (hreached _ _ h.begin hstmt) hfree hreal).commit _
  | undone hstmt =>
      -- the statement was the only writer since its own begin
      have hch := hreached (some w.kvs.txns.nextId) _ h.begin hstmt
      obtain ⟨hback, hexact⟩ := Reversible.changes maintained_indexesExact hch hfree hreal
        (Reversible.begin w) h.begin.exact
      exact (h.begin.changes hch hfree hreal).rollback _
        (hback.rollback maintained_indexesExact hexact).2
  | stopped hstmt => exact h.begin.changes (hreached _ _ h.begin hstmt) hfree hreal
  | begin => exact h.begin
  | commit => exact h.commit _
  | @rollback id hstmt hid =>
      have htx : c.txId = some id := by rw [← hid, Call.ends, hstmt]
      refine h.rollback id ?_
      rw [rollback_eq]
      split
      · next entry hentry =>
          refine undoAll_exact (s := w.kvs.ended id)
            (maintained_indexesExact.frame w.kvs _ w.kvs.rowidGenerators h.exact)
            (h.journals id entry hentry) ?_
          exact hclean hstmt id entry htx hentry
      · exact h.exact
  | nothing => exact h

/-- From exact indexes, every index is exact after each call of a run without triggers whose INSERTs
get fresh rowids and whose ROLLBACKs replay cleanly. -/
theorem indexes_exact_along_run (s : KvsState) (dbId : UInt32) (hexact : IndexesExact s)
    (hjournals : RealFreeJournals s) (hno : NoTriggers s dbId) (calls : List Call)
    (hdata : ∀ c ∈ calls, c.isData = true)
    (hclean : ∀ before c after, calls = before ++ c :: after →
      c.clean (runCalls dbId before ⟨s, []⟩).kvs)
    (hfree : FreeInserts (runCalls dbId calls ⟨s, []⟩).writes)
    (hreal : RealFreeWrites (runCalls dbId calls ⟨s, []⟩).writes) :
    IndexesExact (runCalls dbId calls ⟨s, []⟩).kvs := by
  suffices hinv : RunInv dbId (runCalls dbId calls ⟨s, []⟩) from hinv.exact
  induction calls using List.reverseRecOn with
  | nil => exact ⟨hexact, hjournals, hno⟩
  | append_singleton calls c ih =>
      have hlast : runCalls dbId (calls ++ [c]) ⟨s, []⟩ =
          c.run dbId (runCalls dbId calls ⟨s, []⟩) := runCalls_append ..
      rw [hlast] at hfree hreal ⊢
      have hc := hdata c (List.mem_append_right calls List.mem_cons_self)
      have hcalls : ∀ c ∈ calls, c.isData = true := fun c' hc' => hdata c' (List.mem_append_left _ hc')
      have hno' : NoTriggers (runCalls dbId calls ⟨s, []⟩).kvs dbId :=
        hno.of_triggers (runCalls_triggers calls hcalls hno.plain)
      have hmem : ∀ x ∈ (runCalls dbId calls ⟨s, []⟩).writes,
          x ∈ (c.run dbId (runCalls dbId calls ⟨s, []⟩)).writes :=
        fun x hx => c.run_mem_writes hno'.plain hc hx
      refine RunInv.run (ih hcalls (fun before c' after heq => ?_) (fun x hx => hfree x (hmem x hx))
        fun x hx => hreal x (hmem x hx)) c hc (hclean calls c [] rfl) hfree hreal
      exact hclean before c' (after ++ [c]) (by rw [heq, List.append_assoc, List.cons_append])

end Run

/-! ### Where it fails -/

omit [Externals] in
/-- Transaction 2 deletes a row that transaction 3 has set from 0 to 1. Rolling back 3 brings the
version 0 back, and rolling back 2 then overwrites it with the version 1 but leaves its entry. -/
theorem rollback_leaves_index_entry :
    letI := Externals.ofTexts [] []
    let s := Sample.after [Sample.call (Sample.create []) none, Sample.call Sample.createIndex none,
      Sample.call (Sample.insert [.number "0"]) none, Sample.call .startTransaction none,
      Sample.call .startTransaction none]
    let w := runCalls 0 [Sample.call (Sample.update "1") (some 3),
      Sample.call Sample.delete (some 2), Sample.call .rollback (some 3),
      Sample.call .rollback (some 2)] ⟨s, []⟩
    IndexesExact s ∧
      (w.kvs.indexStore 0 "t" "i").entries = [(.integer 0, [1]), (.integer 1, [1])] ∧
      w.kvs.row ⟨0, "t", 1⟩ = some (Sample.row 1) ∧ ¬IndexesExact w.kvs := by
  let _ := Externals.ofTexts [] []
  intro s w
  obtain ⟨hcheck, hentries, hrow, hindices⟩ : s.exactCheck = true ∧
      (w.kvs.indexStore 0 "t" "i").entries = [(.integer 0, [1]), (.integer 1, [1])] ∧
      w.kvs.row ⟨0, "t", 1⟩ = some (Sample.row 1) ∧
      (w.kvs.getSchema 0 "t").map TableSchema.indices =
        some [⟨"i", ["a"], false, none, false⟩] := by
    decide
  refine ⟨indexesExact_of_check hcheck, hentries, hrow, fun h => ?_⟩
  obtain ⟨schema, hschema, hin⟩ := Option.map_eq_some_iff.mp hindices
  have hfiled := ((h 0 "t").entry_iff 1 ⟨"i", ["a"], false, none, false⟩ (.integer 0)
    ⟨schema, hschema, hin ▸ List.mem_cons_self⟩ rfl).mp (by
      rw [Entry, bucket, BTreeMap.get, hentries]
      decide)
  rw [hrow] at hfiled
  exact absurd hfiled (by decide)

omit [Externals] in
/-- The ROLLBACK of the one after the COMMIT of the other leaves the index exact. -/
theorem indexes_exact_after_rollback :
    letI := Externals.ofTexts [] []
    let s := Sample.after [Sample.call (Sample.create []) none, Sample.call Sample.createIndex none,
      Sample.call (Sample.insert [.number "0"]) none, Sample.call .startTransaction none]
    let w := runCalls 0 (Sample.writesInBetween ++ [Sample.call .rollback (some 2)]) ⟨s, []⟩
    (w.kvs.indexStore 0 "t" "i").entries = [(.integer 0, [1]), (.integer 7, [2])] ∧
      IndexesExact w.kvs := by
  let _ := Externals.ofTexts [] []
  intro s w
  have hw : w = runCalls 0 (Sample.writesInBetween ++ [Sample.call .rollback (some 2)]) ⟨s, []⟩ := rfl
  clear_value w
  have hentries : (w.kvs.indexStore 0 "t" "i").entries = [(.integer 0, [1]), (.integer 7, [2])] := by
    rw [hw]
    decide +kernel
  have hwrites : w.writes =
      [⟨some 2, 0, "t", 1, some (Sample.row 0), some (Sample.row 0), some (Sample.row 5)⟩,
        ⟨some 3, 0, "t", 2, none, none, some (Sample.row 7)⟩] := by
    rw [hw]
    decide
  obtain ⟨hcheck, hactive, hjournal, htriggers⟩ :
      s.exactCheck = true ∧ s.txns.active.values = [⟨0, []⟩] ∧
      (runCalls 0 Sample.writesInBetween ⟨s, []⟩).kvs.txns.active.get 2 =
        some ⟨0, [.update "t" 1 (Sample.row 0)]⟩ ∧
      s.triggers.getD 0 ∅ = ∅ := by
    decide
  refine ⟨hentries, ?_⟩
  rw [hw] at hwrites ⊢
  refine indexes_exact_along_run s 0 (indexesExact_of_check hcheck) (fun id entry hentry op hop => ?_)
    (NoTriggers.of_empty htriggers) _ (by decide) (fun before c after heq hstmt id entry hid hentry => ?_)
    (fun x hx hnone => ?_) fun x hx row hrow => ?_
  · have hvalue : entry ∈ s.txns.active.values :=
      List.mem_map.mpr ⟨_, (IndexMap.mem_entries_iff_get ..).mpr hentry, rfl⟩
    rw [hactive, List.mem_singleton] at hvalue
    rw [hvalue] at hop
    exact absurd hop List.not_mem_nil
  · -- the last call is the only ROLLBACK
    rcases List.eq_nil_or_concat after with rfl | ⟨rest, last, rfl⟩
    · obtain ⟨rfl, hc⟩ := List.append_inj' heq rfl
      obtain rfl := List.singleton_inj.mp hc
      obtain rfl := Option.some.inj hid
      rw [hjournal] at hentry
      rw [← Option.some.inj hentry]
      exact .of_no_delete (by decide)
    · have hin : c ∈ Sample.writesInBetween := by
        rw [List.concat_eq_append, ← List.cons_append, ← List.append_assoc] at heq
        rw [(List.append_inj' heq rfl).1]
        simp
      simp only [Sample.writesInBetween, List.mem_cons, List.not_mem_nil, or_false] at hin
      rcases hin with rfl | rfl | rfl | rfl <;> exact nomatch hstmt
  · rw [hwrites, List.mem_pair] at hx
    rcases hx with rfl | rfl
    · exact nomatch hnone
    · rfl
  · rw [hwrites, List.mem_pair] at hx
    rcases hx with rfl | rfl <;> obtain rfl := Option.some.inj hrow
    · exact realFree_of_check (by decide)
    · exact realFree_of_check (by decide)

end Skvs
