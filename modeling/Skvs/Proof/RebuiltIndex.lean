import Skvs.Proof.IndexEntries
import Skvs.Proof.SnapshotLoad

/-!
# An index made from the rows

The rows are gone through in any order, and each is filed once.
-/

namespace Skvs

/-- File a row that is not filed yet. -/
def fileRow (idx : IndexDef) (store : IndexStore) (entry : RowId × Row) : IndexStore :=
  match indexValue idx entry.2 with
  | some val => store.upsert Value.compare val [] fun ids => ids ++ [entry.1]
  | none => store

theorem indexValue_not_real {idx : IndexDef} {row : Row} (h : row.realFree) {v : Value}
    (hv : indexValue idx row = some v) : v.isReal = false := by
  obtain ⟨col, -, hcol⟩ := Option.bind_eq_some_iff.mp hv
  exact h col v hcol

section FileRow

variable {idx : IndexDef} {store : IndexStore} {entry : RowId × Row} (hreal : entry.2.realFree)
include hreal

theorem get_fileRow (h : Tidy store) {v : Value} (hv : v.isReal = false) :
    (fileRow idx store entry).get Value.compare v =
      if indexValue idx entry.2 = some v then some (bucket store v ++ [entry.1])
      else store.get Value.compare v := by
  rw [fileRow]
  cases hval : indexValue idx entry.2 with
  | none => simp
  | some val =>
      simp only [Option.some.injEq]
      rw [BTreeMap.get_upsert compare_reflects h.keyed (indexValue_not_real hreal hval) hv]
      by_cases heq : v = val
      · subst heq
        simp [bucket]
      · rw [if_neg heq, if_neg (Ne.symm heq)]

theorem Tidy.fileRow (h : Tidy store) : Tidy (fileRow idx store entry) where
  keyed := by
    rw [Skvs.fileRow]
    cases hval : indexValue idx entry.2 with
    | none => exact h.keyed
    | some val => exact h.keyed.upsert compare_reflects (indexValue_not_real hreal hval)
  nonempty v hv ids hids := by
    rw [get_fileRow hreal h hv] at hids
    split_ifs at hids
    · rw [← Option.some.inj hids]
      exact List.append_ne_nil_of_right_ne_nil _ (List.cons_ne_nil _ _)
    · exact h.nonempty v hv ids hids

theorem mem_bucket_fileRow (h : Tidy store) {v : Value} (hv : v.isReal = false) {rowid : RowId} :
    rowid ∈ bucket (fileRow idx store entry) v ↔
      (rowid = entry.1 ∧ indexValue idx entry.2 = some v) ∨ rowid ∈ bucket store v := by
  rw [bucket, get_fileRow hreal h hv]
  split_ifs with hval
  · rw [Option.getD_some, List.mem_append, List.mem_singleton, or_comm]
    simp [hval]
  · simp [hval, bucket]

end FileRow

theorem foldl_fileRow {idx : IndexDef} {es : List (RowId × Row)} (hreal : ∀ e ∈ es, e.2.realFree)
    {store : IndexStore} (h : Tidy store) :
    Tidy (es.foldl (fileRow idx) store) ∧ ∀ v, v.isReal = false → ∀ rowid,
      (rowid ∈ bucket (es.foldl (fileRow idx) store) v ↔
        (∃ e ∈ es, rowid = e.1 ∧ indexValue idx e.2 = some v) ∨ rowid ∈ bucket store v) := by
  induction es generalizing store with
  | nil => exact ⟨h, fun v _ rowid => by simp⟩
  | cons e es ih =>
      obtain ⟨he, hes⟩ := List.forall_mem_cons.mp hreal
      obtain ⟨htidy, hmem⟩ := ih hes (h.fileRow he)
      refine ⟨htidy, fun v hv rowid => ?_⟩
      rw [List.foldl_cons, hmem v hv, mem_bucket_fileRow he h hv]
      simp only [List.mem_cons, exists_eq_or_imp, or_assoc]
      exact or_left_comm

variable [Externals]

theorem rebuilt_eq (idx : IndexDef) (rows : Store) :
    rebuilt idx rows = (hashOrder rows.entries).foldl (fileRow idx) ∅ := rfl

section Rebuilt

variable (idx : IndexDef) {rows : Store} (hreal : ∀ rowid row, rows.get rowid = some row → row.realFree)
include hreal

theorem realFree_hashOrder : ∀ e ∈ hashOrder rows.entries, e.2.realFree := fun e he =>
  hreal e.1 e.2 ((IndexMap.mem_entries_iff_get ..).mp ((hashOrder_perm _).mem_iff.mp he))

theorem tidy_rebuilt : Tidy (rebuilt idx rows) := by
  rw [rebuilt_eq]
  exact (foldl_fileRow (realFree_hashOrder hreal) .empty).1

/-- An index made from scratch lists each row under the value it holds, and nothing else. -/
theorem mem_bucket_rebuilt {v : Value} (hv : v.isReal = false) (rowid : RowId) :
    rowid ∈ bucket (rebuilt idx rows) v ↔ filed idx (rows.get rowid) = some v := by
  rw [rebuilt_eq, (foldl_fileRow (realFree_hashOrder hreal) .empty).2 v hv]
  constructor
  · rintro (⟨e, he, rfl, hval⟩ | hempty)
    · rw [(IndexMap.mem_entries_iff_get ..).mp ((hashOrder_perm _).mem_iff.mp he)]
      exact hval
    · exact absurd hempty List.not_mem_nil
  · intro hfiled
    obtain ⟨row, hrow, hval⟩ := Option.bind_eq_some_iff.mp hfiled
    exact Or.inl ⟨(rowid, row), (hashOrder_perm _).mem_iff.mpr
      ((IndexMap.mem_entries_iff_get ..).mpr hrow), rfl, hval⟩

end Rebuilt

end Skvs
