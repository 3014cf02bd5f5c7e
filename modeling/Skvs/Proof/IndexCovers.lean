import Skvs.Proof.Interleaving
import Skvs.Proof.RebuiltIndex

/-!
# Indexes that miss no row

An index may list more than it should, and a lookup then finds a row that has gone. It lists every
row under the value the row holds, whichever copy the entries of earlier versions were taken out for:
the entry of the new version is put in last.
-/

namespace Skvs

/-- Every row is listed under the value it holds. -/
structure IndexCovers (s : KvsState) (dbId : UInt32) (table : String) : Prop
    extends Indexed s dbId table where
  listed : ∀ rowid idx v, HasIndex s ⟨dbId, table, rowid⟩ idx →
    filed idx (s.row ⟨dbId, table, rowid⟩) = some v → Entry s ⟨dbId, table, rowid⟩ idx v

namespace IndexCovers

variable {s s' : KvsState} {dbId : UInt32} {table : String}

theorem frame (h : IndexCovers s dbId table) (txns : TxnManager)
    (rowidGenerators : IndexMap UInt32 (IndexMap String UInt64)) :
    IndexCovers { s with txns, rowidGenerators } dbId table :=
  ⟨⟨h.names, h.tidy, h.realFree⟩, h.listed⟩

theorem sets (h : IndexCovers s dbId table) {k : Key} {copy after : Option Row}
    (hs : Sets s k copy after s') (hstore : s.hasStore k.dbId k.table = true)
    (hcopy : k.dbId = dbId → k.table = table → ∀ r, copy = some r → r.realFree)
    (hafter : k.dbId = dbId → k.table = table → ∀ r, after = some r → r.realFree) :
    IndexCovers s' dbId table where
  toIndexed := h.toIndexed.sets hs hstore hcopy hafter
  listed rowid idx v hidx hfiled := by
    have hv := filed_not_real ((h.toIndexed.sets hs hstore hcopy hafter).realFree rowid) hfiled
    rw [hs.hasIndex_iff] at hidx
    rw [h.toIndexed.entry_sets hs hcopy hafter rowid hidx hv]
    rw [hs.row hstore] at hfiled
    by_cases hk : (⟨dbId, table, rowid⟩ : Key) = k
    · rw [if_pos hk] at hfiled
      exact Or.inl ⟨hk, hfiled⟩
    · rw [if_neg hk] at hfiled
      exact Or.inr ⟨fun hand => hk hand.1, h.listed rowid idx v hidx hfiled⟩

variable [Externals]

theorem undoOp (h : IndexCovers s dbId table) {op : UndoOp}
    (hreal : (op.key dbId).table = table → ∀ row, op.value = some row → row.realFree) :
    IndexCovers (undoOp dbId s op) dbId table := by
  cases hstore : s.hasStore dbId (op.key dbId).table with
  | false =>
      rw [undoOp_of_no_store dbId s op hstore]
      exact h
  | true =>
      rcases undoOp_cases dbId s op hstore with ⟨heq, -⟩ | ⟨copy, hcopy, hsets⟩
      · rw [heq]
        exact h
      · have hdb := op.key_dbId dbId
        refine h.sets hsets (hdb.symm ▸ hstore) (fun _ htable row hrow => ?_)
          fun _ htable => hreal htable
        rcases hcopy with rfl | ⟨rfl, -⟩
        · have hkey : (⟨dbId, table, (op.key dbId).rowid⟩ : Key) = op.key dbId := by
            rw [← htable]
            exact congrArg (fun db => (⟨db, (op.key dbId).table, (op.key dbId).rowid⟩ : Key)) hdb.symm
          exact h.realFree (op.key dbId).rowid row (hkey ▸ hrow)
        · exact nomatch hrow

theorem undoAll (h : IndexCovers s dbId table) {journal : List UndoOp}
    (hreal : ∀ op ∈ journal, (op.key dbId).table = table →
      ∀ row, op.value = some row → row.realFree) :
    IndexCovers (undoAll s dbId journal) dbId table := by
  induction journal with
  | nil => exact h
  | cons op journal ih =>
      rw [undoAll_cons]
      exact (ih fun op' hop' => hreal op' (List.mem_cons_of_mem op hop')).undoOp
        (hreal op List.mem_cons_self)

end IndexCovers

end Skvs
