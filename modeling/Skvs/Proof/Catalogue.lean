import Skvs.Proof.Run

/-!
# What a rollback leaves of CREATE, ALTER and DROP

The journal holds row changes only. A rollback takes back the rows and leaves the tables, schemas,
views and triggers as the statements of the transaction have left them.
-/

namespace Skvs

/-- The same tables with the same schemas, the same views and the same triggers. -/
structure SameCatalogue (dbId : UInt32) (s s' : KvsState) : Prop where
  tables : ∀ table, s'.hasStore dbId table = s.hasStore dbId table
  schemas : ∀ table, s'.getSchema dbId table = s.getSchema dbId table
  views : ∀ name, s'.getViewDefinition dbId name = s.getViewDefinition dbId name
  triggers : ∀ table, s'.getTriggers dbId table = s.getTriggers dbId table

namespace SameCatalogue

variable {dbId : UInt32} {s s' s'' : KvsState}

theorem refl : SameCatalogue dbId s s := ⟨fun _ => rfl, fun _ => rfl, fun _ => rfl, fun _ => rfl⟩

theorem symm (h : SameCatalogue dbId s s') : SameCatalogue dbId s' s :=
  ⟨fun t => (h.tables t).symm, fun t => (h.schemas t).symm, fun n => (h.views n).symm,
    fun t => (h.triggers t).symm⟩

theorem trans (h : SameCatalogue dbId s s') (h' : SameCatalogue dbId s' s'') :
    SameCatalogue dbId s s'' :=
  ⟨fun t => (h'.tables t).trans (h.tables t), fun t => (h'.schemas t).trans (h.schemas t),
    fun n => (h'.views n).trans (h.views n), fun t => (h'.triggers t).trans (h.triggers t)⟩

theorem sets (h : SameCatalogue dbId s s') {k : Key} {copy after : Option Row}
    (hsets : Sets s' k copy after s'') : SameCatalogue dbId s s'' := by
  refine h.trans ⟨fun t => hsets.hasStore dbId t, fun t => ?_, fun n => ?_, fun t => ?_⟩
  · rw [KvsState.getSchema, hsets.schemas]
    rfl
  · obtain ⟨_, _, rfl⟩ := hsets.frame
    rfl
  · rw [KvsState.getTriggers, hsets.triggers]
    rfl

end SameCatalogue

variable [Externals]

theorem rollback_sameCatalogue (dbId txId : UInt32) (w : World) :
    SameCatalogue dbId w.kvs (w.rollback txId).kvs := by
  rw [rollback_eq]
  split
  · exact undoAll_keeps _ _ (P := SameCatalogue dbId w.kvs)
      ⟨fun _ => rfl, fun _ => rfl, fun _ => rfl, fun _ => rfl⟩ fun _ _ _ _ _ h hsets => h.sets hsets
  · exact .refl

theorem Changes.sameCatalogue {dbId : UInt32} {txId : Option UInt32} {w w' : World}
    (h : Changes dbId txId w w') : SameCatalogue dbId w.kvs w'.kvs := by
  refine h.keeps (P := fun v => SameCatalogue dbId w.kvs v.kvs) .refl fun v v' hv hstep => ?_
  cases hstep with
  | draw => exact hv.trans ⟨fun _ => rfl, fun _ => rfl, fun _ => rfl, fun _ => rfl⟩
  | store k copy after =>
      obtain ⟨_, hframe⟩ := record_frame v.kvs txId (undoEntry k copy after)
      refine SameCatalogue.sets ?_ (store_sets v txId k copy after)
      rw [hframe]
      exact hv.trans ⟨fun _ => rfl, fun _ => rfl, fun _ => rfl, fun _ => rfl⟩

/-- INSERT, UPDATE, DELETE and SELECT, with triggers that hold nothing else. -/
theorem runCalls_sameCatalogue {dbId txId : UInt32} (calls : List Call)
    (hcalls : ∀ c ∈ calls, c.txId = some txId ∧ c.stmt.isPlain = true) {w : World}
    (hplain : PlainTriggers w.kvs dbId) :
    SameCatalogue dbId w.kvs (runCalls dbId calls w).kvs := by
  induction calls generalizing w with
  | nil => exact .refl
  | cons c calls ih =>
      obtain ⟨htx, hstmt⟩ := hcalls c List.mem_cons_self
      have hch : Changes dbId (some txId) w (c.run dbId w) := Call.run_changes hstmt htx hplain
      exact (Changes.sameCatalogue hch).trans
        (ih (fun c' hc' => hcalls c' (List.mem_cons_of_mem c hc')) (hplain.changes hch))

/-- Whatever statements run under a transaction, rolling it back leaves the catalogue as they have
left it. So it is what it was when the transaction began exactly if they have had no effect on it
in the end, as is the case for INSERT, UPDATE, DELETE and SELECT. -/
theorem rollback_leaves_catalogue (s : KvsState) (dbId : UInt32) (calls : List Call)
    (hcalls : ∀ c ∈ calls, c.txId = some s.txns.nextId) :
    let w := runCalls dbId calls ⟨s.begin dbId, []⟩
    let w' := (Prog.exec (rollback s.txns.nextId) w).2
    SameCatalogue dbId w.kvs w'.kvs ∧
      (SameCatalogue dbId s w'.kvs ↔ SameCatalogue dbId s w.kvs) ∧
      ((∀ c ∈ calls, c.stmt.isPlain = true) → PlainTriggers s dbId → SameCatalogue dbId s w'.kvs) := by
  intro w w'
  have hw' : w' = w.rollback s.txns.nextId := exec_rollback ..
  have hsame : SameCatalogue dbId w.kvs w'.kvs := by
    rw [hw']
    exact rollback_sameCatalogue ..
  refine ⟨hsame, ⟨fun h => h.trans hsame.symm, fun h => h.trans hsame⟩, fun hplain htriggers => ?_⟩
  have hrun : SameCatalogue dbId (s.begin dbId) w.kvs := runCalls_sameCatalogue calls
    (fun c hc => ⟨hcalls c hc, hplain c hc⟩) (w := ⟨s.begin dbId, []⟩) htriggers
  exact SameCatalogue.trans ⟨hrun.tables, hrun.schemas, hrun.views, hrun.triggers⟩ hsame

/-! ### Where it fails -/

omit [Externals] in
/-- A table dropped under a transaction stays dropped when the transaction is rolled back. -/
theorem rollback_not_restoring_table :
    letI := Externals.ofTexts [] []
    let s := Sample.after [Sample.call (Sample.create []) none]
    let w := runCalls 0 [Sample.call Sample.drop (some 1)] ⟨s.begin 0, []⟩
    let out := Prog.exec (rollback 1) w
    s.txns.nextId = 1 ∧ out.1 = .ok () ∧ ¬SameCatalogue 0 s out.2.kvs := by
  let _ := Externals.ofTexts [] []
  intro s w out
  refine ⟨by decide, by decide, fun h => ?_⟩
  exact absurd (h.tables "t") (by decide)

omit [Externals] in
/-- An UPDATE under a transaction leaves the catalogue as it was. -/
theorem rollback_leaves_catalogue_update :
    letI := Externals.ofTexts [] []
    let s := Sample.after [Sample.call (Sample.create []) none]
    let w := runCalls 0 [Sample.call (Sample.update "5") (some 1)] ⟨s.begin 0, []⟩
    SameCatalogue 0 s (Prog.exec (rollback 1) w).2.kvs := by
  let _ := Externals.ofTexts [] []
  exact (rollback_leaves_catalogue (Sample.after [Sample.call (Sample.create []) none]) 0
    [Sample.call (Sample.update "5") (some 1)] (List.forall_mem_singleton.mpr (by decide))).2.2
    (by decide) (NoTriggers.of_empty (by decide)).plain

end Skvs
