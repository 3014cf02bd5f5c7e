import Skvs.Proof.Kept

/-!
# The databases of a server

No statement adds a database to a server or takes one away, whatever it does to the tables in them.
-/

namespace Skvs



/-- The configured databases are there, with their maps of views and of triggers, and no others. -/
structure KvsState.HasDatabases (databases : List UInt32) (s : KvsState) : Prop where
  dbs : ∀ dbId, (s.dbs.get dbId).isSome ↔ dbId ∈ databases
  views : ∀ dbId ∈ databases, (s.views.get dbId).isSome
  triggers : ∀ dbId ∈ databases, (s.triggers.get dbId).isSome

variable {databases : List UInt32} {dbId : UInt32}

section Maps

variable {ν : Type} (m : IndexMap UInt32 ν) (id : UInt32)

theorem isSome_get_modify (f : ν → ν) : ((m.modify dbId f).get id).isSome = (m.get id).isSome := by
  rw [IndexMap.get_modify]
  split_ifs
  · exact Option.isSome_map
  · rfl

theorem isSome_get_insert (v : ν) (h : (m.get id).isSome) : ((m.insert dbId v).get id).isSome := by
  rw [IndexMap.get_insert]
  split_ifs
  · rfl
  · exact h

end Maps

/-! ### Changes of the state -/

namespace KvsState.HasDatabases

variable {s : KvsState} (h : s.HasDatabases databases) (table : String)
include h

theorem modifyStore (f : Store → Store) : (s.modifyStore dbId table f).HasDatabases databases where
  dbs id := by
    rw [KvsState.modifyStore, isSome_get_modify, h.dbs]
  views := h.views
  triggers := h.triggers

theorem freshTable (hdb : dbId ∈ databases) : (s.freshTable dbId table).HasDatabases databases where
  dbs id := by
    simp only [KvsState.freshTable, IndexMap.get_insert]
    split_ifs with hid
    · simp [hid, hdb]
    · exact h.dbs id
  views := h.views
  triggers := h.triggers

theorem removeTable : (s.removeTable dbId table).HasDatabases databases where
  dbs id := by rw [KvsState.removeTable, isSome_get_modify, h.dbs]
  views id hid := by
    rw [KvsState.removeTable, isSome_get_modify]
    exact h.views id hid
  triggers id hid := by
    rw [KvsState.removeTable, isSome_get_modify]
    exact h.triggers id hid

theorem renameTable (newName : String) :
    (s.renameTable dbId table newName).HasDatabases databases where
  dbs id := by rw [KvsState.renameTable, renameIn, isSome_get_modify, h.dbs]
  views := h.views
  triggers := h.triggers

theorem addView (name query : String) : (s.addView dbId name query).HasDatabases databases where
  dbs := h.dbs
  views id hid := isSome_get_insert _ id _ (h.views id hid)
  triggers := h.triggers

theorem removeView {name : String} {s' : KvsState} (hs' : s.removeView dbId name = .ok s') :
    s'.HasDatabases databases := by
  unfold KvsState.removeView at hs'
  cases hviews : s.views.get dbId with
  | none =>
      rw [hviews] at hs'
      exact nomatch hs'
  | some map =>
      rw [hviews] at hs'
      rw [← Except.ok.inj hs']
      exact ⟨h.dbs, fun id hid => isSome_get_insert _ id _ (h.views id hid), h.triggers⟩

theorem sets {k : Key} {copy after : Option Row} {s' : KvsState} (hs' : Sets s k copy after s') :
    s'.HasDatabases databases := by
  obtain ⟨_, _, rfl⟩ := hs'.frame
  have hstore : (s.modifyStore k.dbId k.table (setRow after k.rowid)).HasDatabases databases :=
    h.modifyStore k.table (setRow after k.rowid)
  exact ⟨hstore.dbs, hstore.views, hstore.triggers⟩

variable [Externals]

theorem rebuildIndex (idx : IndexDef) :
    (Skvs.rebuildIndex s dbId table idx).HasDatabases databases := by
  unfold Skvs.rebuildIndex
  cases s.getTableStore dbId table with
  | none => exact h
  | some rows => exact ⟨h.dbs, h.views, h.triggers⟩

end KvsState.HasDatabases

/-! ### Statements -/

/-- The invariant of the worlds. -/
def World.HasDatabases (databases : List UInt32) (w : World) : Prop := w.kvs.HasDatabases databases

variable [Externals]

theorem KvsState.HasDatabases.store {w : World} (hw : w.kvs.HasDatabases databases)
    (txId : Option UInt32) (k : Key) (copy after : Option Row) :
    (w.store txId k copy after).kvs.HasDatabases databases := by
  have hrecorded : (w.kvs.record txId (undoEntry k copy after)).HasDatabases databases := by
    obtain ⟨_, hframe⟩ := record_frame w.kvs txId (undoEntry k copy after)
    rw [hframe]
    exact ⟨hw.dbs, hw.views, hw.triggers⟩
  exact hrecorded.sets (store_sets w txId k copy after)

theorem KvsState.HasDatabases.maintain {s s' : KvsState} (h : s.HasDatabases databases)
    (hdb : dbId ∈ databases) (hs' : Maintenance dbId s s') : s'.HasDatabases databases := by
  cases hs' with
  | ensureSchemas => exact ⟨h.dbs, h.views, h.triggers⟩
  | setSchema => exact ⟨h.dbs, h.views, h.triggers⟩
  | freshTable table => exact h.freshTable table hdb
  | removeTable table => exact h.removeTable table
  | renameTable table newName => exact h.renameTable table newName
  | rewriteRows table f => exact h.modifyStore table _
  | rebuildIndex table idx => exact h.rebuildIndex table idx
  | dropIndexStore => exact ⟨h.dbs, h.views, h.triggers⟩
  | registerFtsTable => exact ⟨h.dbs, h.views, h.triggers⟩
  | addView name query => exact h.addView name query
  | removeView _ name hremove => exact h.removeView hremove

omit [Externals] in
theorem World.HasDatabases.commit {w : World} (h : w.HasDatabases databases) (txId : UInt32) :
    (w.commit txId).HasDatabases databases := by
  obtain ⟨_, hframe⟩ := commit_frame w txId
  rw [hframe]
  exact ⟨h.dbs, h.views, h.triggers⟩

theorem World.HasDatabases.rollback {w : World} (h : w.HasDatabases databases) (txId : UInt32) :
    (w.rollback txId).HasDatabases databases := by
  rw [rollback_eq]
  split
  · exact undoAll_keeps _ _ ⟨h.dbs, h.views, h.triggers⟩ fun _ _ _ _ _ hs hsets => hs.sets hsets
  · exact h

end Skvs
