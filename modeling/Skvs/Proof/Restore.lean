import Skvs.Proof.FullText

/-!
# Rolling back a transaction that wrote alone

The replay walks back to the tables at the start, and the indexes are exact there again. An exact
index is determined by the rows, so the maps are those of the start too.
-/

namespace Skvs

/-- The map of an index, each bucket taken as a set. -/
def buckets (store : IndexStore) : Set (Value × Finset RowId) :=
  {p | ∃ ids, (p.1, ids) ∈ store.entries ∧ ids.toFinset = p.2}

theorem Tidy.mem_buckets {store : IndexStore} (h : Tidy store) {v : Value} {ids : Finset RowId} :
    (v, ids) ∈ buckets store ↔
      v.isReal = false ∧ ids ≠ ∅ ∧ ∀ r, r ∈ ids ↔ r ∈ bucket store v := by
  constructor
  · rintro ⟨list, hlist, rfl⟩
    have hv : v.isReal = false := h.keyed.mem _ hlist
    have hget := (BTreeMap.get_eq_some_iff compare_reflects h.keyed hv).mpr hlist
    refine ⟨hv, fun hempty => h.nonempty v hv list hget (List.toFinset_eq_empty_iff _ |>.mp hempty),
      fun r => ?_⟩
    rw [List.mem_toFinset, bucket, hget, Option.getD_some]
  · rintro ⟨hv, hne, hmem⟩
    rw [bucket] at hmem
    cases hget : store.get Value.compare v with
    | none =>
        simp only [hget, Option.getD_none, List.not_mem_nil, iff_false] at hmem
        exact absurd (Finset.eq_empty_of_forall_notMem hmem) hne
    | some list =>
        simp only [hget, Option.getD_some] at hmem
        refine ⟨list, (BTreeMap.get_eq_some_iff compare_reflects h.keyed hv).mp hget, ?_⟩
        ext r
        rw [List.mem_toFinset, hmem]

/-- The same word lists, document lengths and document count. -/
structure FtsIndex.Same (idx idx' : FtsIndex) : Prop where
  inverted : ∀ token, idx.inverted.get token = idx'.inverted.get token
  docLengths : ∀ rowid, idx.docLengths.get rowid = idx'.docLengths.get rowid
  totalDocs : idx.totalDocs = idx'.totalDocs

/-- The same maps in every index, and the same full-text indexes. -/
structure SameIndexes (s s' : KvsState) : Prop where
  buckets : ∀ k idx, HasIndex s' k idx →
    buckets (s.indexStore k.dbId k.table idx.name) = buckets (s'.indexStore k.dbId k.table idx.name)
  fts : ∀ dbId table fts', s'.getFtsTable dbId table = some fts' →
    ∃ fts, s.getFtsTable dbId table = some fts ∧ fts.index.Same fts'.index

variable [Externals]

/-- The texts determine the index. -/
theorem FtsIndex.Exact.same {idx idx' : FtsIndex} {text : RowId → Option String}
    (h : idx.Exact text) (h' : idx'.Exact text) : idx.Same idx' := by
  have hlengths : ∀ rowid, idx.docLengths.get rowid = idx'.docLengths.get rowid := fun rowid => by
    rw [h.lengths, h'.lengths]
  refine ⟨fun token => ?_, hlengths, ?_⟩
  · have hmem : idx.inverted.getD token ∅ = idx'.inverted.getD token ∅ := by
      ext rowid
      rw [h.mem_iff, h'.mem_iff]
    simp only [IndexMap.getD] at hmem
    -- no list is empty, so an absent list is told apart from a present one
    cases hget : idx.inverted.get token <;> cases hget' : idx'.inverted.get token <;>
      rw [hget, hget'] at hmem
    · exact absurd hmem.symm (h'.nonempty token _ hget')
    · exact absurd hmem (h.nonempty token _ hget)
    · exact congrArg some hmem
  · rw [h.total, h'.total, IndexMap.length_keys_eq hlengths]

section Same

variable {s s' : KvsState} (hsame : SameTables s s')
include hsame

omit [Externals] in
theorem SameTables.hasIndex_iff (k : Key) (idx : IndexDef) : HasIndex s k idx ↔ HasIndex s' k idx := by
  rw [HasIndex, HasIndex, KvsState.getSchema, KvsState.getSchema, hsame.schemas]

omit [Externals] in
theorem SameTables.buckets_eq (hs : IndexesExact s) (hs' : IndexesExact s') {k : Key}
    {idx : IndexDef} (hidx : HasIndex s' k idx) :
    buckets (s.indexStore k.dbId k.table idx.name) =
      buckets (s'.indexStore k.dbId k.table idx.name) := by
  have hidx₀ := (hsame.hasIndex_iff k idx).mpr hidx
  have htidy : ∀ t, IndexesExact t → HasIndex t k idx →
      Tidy (t.indexStore k.dbId k.table idx.name) := fun t ht ⟨schema, hschema, hin⟩ =>
    (ht k.dbId k.table).tidy schema hschema idx hin
  ext ⟨v, ids⟩
  rw [(htidy s hs hidx₀).mem_buckets, (htidy s' hs' hidx).mem_buckets]
  refine and_congr_right fun hv => and_congr_right fun _ => forall_congr' fun r => ?_
  have hentry := (hs k.dbId k.table).entry_iff r idx v hidx₀ hv
  rw [hsame.row, ← (hs' k.dbId k.table).entry_iff r idx v hidx hv] at hentry
  exact iff_congr Iff.rfl hentry

/-- States with the same tables and exact indexes have the same indexes. -/
theorem SameTables.sameIndexes (hs : IndexesExact s ∧ FtsExact s)
    (hs' : IndexesExact s' ∧ FtsExact s') : SameIndexes s s' where
  buckets _ _ hidx := hsame.buckets_eq hs.1 hs'.1 hidx
  fts dbId table fts' hfts' := by
    have hcontent := hsame.content dbId table
    rw [hfts', Option.map_some] at hcontent
    obtain ⟨fts, hfts, hcolumn⟩ := Option.map_eq_some_iff.mp hcontent
    refine ⟨fts, hfts, (hs.2 dbId table fts hfts).same ?_⟩
    have hexact' := hs'.2 dbId table fts' hfts'
    simp only [← hsame.row, ← hcolumn] at hexact'
    exact hexact'

end Same

/-! ### Statements of one transaction -/

section Run

variable {dbId txId : UInt32} {s₀ : KvsState} {Good : KvsState → Prop} (hG : Maintained Good)
include hG

/-- A run under one transaction stays reversible. -/
theorem Reversible.calls (calls : List Call)
    (hcalls : ∀ c ∈ calls, c.stmt.isWrite = true ∧ c.txId = some txId) {w : World}
    (hno : NoTriggers w.kvs dbId) (hfree : FreeInserts (runCalls dbId calls w).writes)
    (hreal : RealFreeWrites (runCalls dbId calls w).writes)
    (h : Reversible Good dbId s₀ txId w) (hgood : Good w.kvs) :
    Reversible Good dbId s₀ txId (runCalls dbId calls w) ∧
      Good (runCalls dbId calls w).kvs := by
  induction calls using List.reverseRecOn with
  | nil => exact ⟨h, hgood⟩
  | append_singleton calls c ih =>
      have hlast : runCalls dbId (calls ++ [c]) w =
          c.run dbId (runCalls dbId calls w) := runCalls_append ..
      obtain ⟨hwrite, htx⟩ := hcalls c (List.mem_append_right calls List.mem_cons_self)
      have hcalls' : ∀ c ∈ calls, c.stmt.isWrite = true ∧ c.txId = some txId := fun c' hc' =>
        hcalls c' (List.mem_append_left _ hc')
      have hno' : NoTriggers (runCalls dbId calls w).kvs dbId := by
        refine hno.of_triggers (runCalls_triggers calls (fun c' hc' => ?_) hno.plain)
        have hwrite' := (hcalls' c' hc').1
        rw [Call.isData]
        cases hstmt : c'.stmt <;> rw [hstmt] at hwrite' <;> first | rfl | exact nomatch hwrite'
      have hrun : c.run dbId (runCalls dbId calls w) =
          c.reached dbId (some txId) (runCalls dbId calls w) := by
        rw [Call.run, Call.reached, executeStatement_write hwrite, htx]
      have hch : QuietChanges dbId (some txId) (runCalls dbId calls w)
          (c.reached dbId (some txId) (runCalls dbId calls w)) :=
        noTriggers_move dbId _ hno' c.stmt (Statement.isPlain_of_isWrite hwrite) c.fuel c.params
          (some txId)
      rw [hlast, hrun] at hfree hreal ⊢
      have hmem : ∀ x ∈ (runCalls dbId calls w).writes,
          x ∈ (c.reached dbId (some txId) (runCalls dbId calls w)).writes := fun x hx =>
        Changes.mem_writes
          (Relation.ReflTransGen.mono (fun _ _ hstep => QuietChange.change hstep) _ _ hch) hx
      obtain ⟨hback, hgood'⟩ := ih hcalls' (fun x hx => hfree x (hmem x hx))
        fun x hx => hreal x (hmem x hx)
      exact hback.changes hG hch hfree hreal hgood'

end Run

/-- After any run of writes under one transaction, ROLLBACK restores the rows and both kinds of
indexes, as long as no INSERT is given a rowid in use. -/
theorem rollback_restores_indexes (s : KvsState) (dbId : UInt32) (hexact : IndexesExact s)
    (hfts : FtsExact s) (hno : NoTriggers s dbId) (calls : List Call)
    (hcalls : ∀ c ∈ calls, c.stmt.isWrite = true ∧ c.txId = some s.txns.nextId)
    (hfree : FreeInserts (runCalls dbId calls ⟨s.begin dbId, []⟩).writes)
    (hreal : RealFreeWrites (runCalls dbId calls ⟨s.begin dbId, []⟩).writes) :
    let s' := (Prog.exec (rollback s.txns.nextId) (runCalls dbId calls ⟨s.begin dbId, []⟩)).2.kvs
    (∀ k, s'.row k = s.row k) ∧ SameIndexes s' s := by
  intro s'
  obtain ⟨hback, hgood⟩ := (Reversible.begin ⟨s, []⟩).calls maintained_exact calls hcalls hno
    hfree hreal (maintained_exact.frame s _ s.rowidGenerators ⟨hexact, hfts⟩)
  obtain ⟨hsame, hgood'⟩ := hback.rollback maintained_exact hgood
  rw [← exec_rollback] at hsame hgood'
  exact ⟨hsame.row, hsame.sameIndexes hgood' ⟨hexact, hfts⟩⟩

/-! ### Where it fails -/

omit [Externals] in
/-- An INSERT that is given the rowid of a row overwrites it, and ROLLBACK then deletes it. -/
theorem rollback_loses_row :
    letI := Externals.ofTexts [] []
    let s := Sample.after (Sample.restoredRow [])
    let w := runCalls 0 [Sample.call (Sample.insert [.number "2"]) (some 3)] ⟨s.begin 0, []⟩
    IndexesExact s ∧ FtsExact s ∧ NoTriggers s 0 ∧ s.txns.nextId = 3 ∧ RealFreeWrites w.writes ∧
      s.row ⟨0, "t", 1⟩ = some (Sample.row 1) ∧
      (Prog.exec (rollback 3) w).2.kvs.row ⟨0, "t", 1⟩ = none := by
  let _ := Externals.ofTexts [] []
  intro s w
  obtain ⟨hcheck, hfts, htriggers, hnext, hwrites, hrow, hlost⟩ : s.exactCheck = true ∧
      s.ftsTables.values = [∅] ∧ s.triggers.getD 0 ∅ = ∅ ∧ s.txns.nextId = 3 ∧
      w.writes = [⟨some 3, 0, "t", 1, some (Sample.row 1), none, some (Sample.row 2)⟩] ∧
      s.row ⟨0, "t", 1⟩ = some (Sample.row 1) ∧
      (Prog.exec (rollback 3) w).2.kvs.row ⟨0, "t", 1⟩ = none := by
    decide
  clear_value w
  clear_value s
  refine ⟨indexesExact_of_check hcheck, ftsExact_of_check (List.all_eq_true.mpr fun db hdb => ?_),
    NoTriggers.of_empty htriggers, hnext, fun x hx row hafter => ?_, hrow, hlost⟩
  · have hvalue : db.2 ∈ s.ftsTables.values := List.mem_map_of_mem hdb
    rw [hfts, List.mem_singleton] at hvalue
    rw [hvalue]
    rfl
  · rw [hwrites, List.mem_singleton] at hx
    rw [hx] at hafter
    rw [← Option.some.inj hafter]
    exact realFree_of_check (by decide)

namespace Sample

/-- `CREATE VIRTUAL TABLE t USING fts5(a)`. -/
def createFts : Statement := .createVirtualTable "t" false (name "fts5") [name "a"]

/-- `UPDATE t SET a = 'text'`. -/
def updateText (text : String) : Statement :=
  .update ⟨.table "t" none, []⟩ [⟨[name "a"], .value (.singleQuotedString text)⟩] none

end Sample

omit [Externals] in
/-- A transaction that changes a text and deletes it leaves nothing behind after ROLLBACK. -/
theorem rollback_restores_text :
    letI := Externals.ofTexts [] []
    let s := Sample.after [Sample.call Sample.createFts none, Sample.call Sample.createIndex none,
      Sample.call (Sample.insert [.singleQuotedString "red fox"]) none]
    let w := runCalls 0 [Sample.call (Sample.updateText "blue fox") (some 2),
      Sample.call Sample.delete (some 2)] ⟨s.begin 0, []⟩
    (w.kvs.indexStore 0 "t" "i").entries = [] ∧
      SameIndexes (Prog.exec (rollback 2) w).2.kvs s := by
  let _ := Externals.ofTexts [] []
  intro s w
  obtain ⟨hempty, hcheck, hfts, htriggers, hnext, hwrites⟩ :
      (w.kvs.indexStore 0 "t" "i").entries = [] ∧ s.exactCheck = true ∧
      (s.ftsTables.entries.all fun db => db.2.entries.all fun fts =>
        fts.2.index = FtsIndex.ofStore fts.2.contentColumn
          ((s.getTableStore db.1 fts.1).getD ∅)) = true ∧
      s.triggers.getD 0 ∅ = ∅ ∧ s.txns.nextId = 2 ∧
      w.writes.all (fun x => x.copy.isSome && x.after.all Row.realFreeCheck) = true := by
    decide
  have hw : w = runCalls 0 [Sample.call (Sample.updateText "blue fox") (some 2),
      Sample.call Sample.delete (some 2)] ⟨s.begin 0, []⟩ := rfl
  clear_value w
  clear_value s
  subst hw
  rw [List.all_eq_true] at hwrites
  have hsame := (rollback_restores_indexes s 0 (indexesExact_of_check hcheck)
    (ftsExact_of_check hfts) (NoTriggers.of_empty htriggers)
    [Sample.call (Sample.updateText "blue fox") (some 2), Sample.call Sample.delete (some 2)]
    (by rw [hnext]; decide) (fun x hx hnone => ?_) fun x hx row hafter => ?_).2
  · rw [hnext] at hsame
    exact ⟨hempty, hsame⟩
  · have hboth := hwrites x hx
    rw [hnone] at hboth
    exact nomatch hboth
  · have hboth := hwrites x hx
    rw [hafter, Bool.and_eq_true] at hboth
    exact realFree_of_check hboth.2

end Skvs
