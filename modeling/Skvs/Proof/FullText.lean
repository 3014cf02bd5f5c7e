import Skvs.Lib.KeyedFold
import Skvs.Proof.Reversible

/-!
# Full-text indexes

An index is exact for the texts of a table when it lists each word under just the rows whose text
has it, and counts those rows. Adding the text of a row that had none, and removing the text that a
row has, keep it exact.
-/

namespace Skvs

variable [Externals]

/-- The text a row contributes to a full-text index. -/
def contentOf (column : String) (row : Option Row) : Option String :=
  match row.bind fun r => r.get column with
  | some (.text content) => some content
  | _ => none

/-- The index is that of the given texts. -/
structure FtsIndex.Exact (idx : FtsIndex) (text : RowId → Option String) : Prop where
  mem_iff : ∀ token rowid, rowid ∈ idx.inverted.getD token ∅ ↔
    ∃ content, text rowid = some content ∧ token ∈ tokenize content
  nonempty : ∀ token docs, idx.inverted.get token = some docs → docs ≠ ∅
  lengths : ∀ rowid, idx.docLengths.get rowid =
    (text rowid).map fun content => (tokenize content).length
  total : idx.totalDocs = UInt64.ofNat idx.docLengths.keys.length

/-! ### Word lists -/

section Tokens

variable (rowid : RowId) {m : IndexMap String (Finset RowId)}

omit [Externals] in
theorem mem_foldl_addToken (tokens : List String) (t : String) (r : RowId) :
    r ∈ (tokens.foldl (FtsIndex.addToken rowid) m).getD t ∅ ↔
      r ∈ m.getD t ∅ ∨ (r = rowid ∧ t ∈ tokens) := by
  induction tokens generalizing m with
  | nil => simp
  | cons token tokens ih =>
      have hstep : r ∈ (FtsIndex.addToken rowid m token).getD t ∅ ↔
          r ∈ m.getD t ∅ ∨ (r = rowid ∧ t = token) := by
        rw [FtsIndex.addToken, IndexMap.getD, IndexMap.get_insert]
        by_cases ht : t = token
        · subst ht
          simp [IndexMap.getD, or_comm]
        · simp [ht, IndexMap.getD]
      rw [List.foldl_cons, ih, hstep, List.mem_cons]
      tauto

omit [Externals] in
theorem mem_foldl_removeToken (tokens : List String) (t : String) (r : RowId) :
    r ∈ (tokens.foldl (FtsIndex.removeToken rowid) m).getD t ∅ ↔
      r ∈ m.getD t ∅ ∧ ¬(r = rowid ∧ t ∈ tokens) := by
  induction tokens generalizing m with
  | nil => simp
  | cons token tokens ih =>
      have hstep : r ∈ (FtsIndex.removeToken rowid m token).getD t ∅ ↔
          r ∈ m.getD t ∅ ∧ ¬(r = rowid ∧ t = token) := by
        rw [FtsIndex.removeToken]
        by_cases ht : t = token
        · subst ht
          cases hget : m.get t with
          | none => simp [IndexMap.getD, hget]
          | some docs =>
              simp only [IndexMap.getD, hget, Option.getD_some, and_true]
              have hmem : r ∈ docs.erase rowid ↔ r ∈ docs ∧ ¬r = rowid := by
                rw [Finset.mem_erase, and_comm]
              rw [← hmem]
              split_ifs with hempty
              · simp [hempty]
              · simp
        · cases hget : m.get token with
          | none => simp [ht]
          | some docs =>
              simp only
              split_ifs <;> simp [IndexMap.getD, ht]
      rw [List.foldl_cons, ih, hstep, List.mem_cons]
      tauto

omit [Externals] in
theorem nonempty_foldl_addToken (tokens : List String)
    (h : ∀ t docs, m.get t = some docs → docs ≠ ∅) (t : String) (docs : Finset RowId)
    (hget : (tokens.foldl (FtsIndex.addToken rowid) m).get t = some docs) : docs ≠ ∅ := by
  induction tokens generalizing m with
  | nil => exact h t docs hget
  | cons token tokens ih =>
      refine ih (fun t' docs' hget' => ?_) hget
      rw [FtsIndex.addToken, IndexMap.get_insert] at hget'
      split_ifs at hget'
      · rw [← Option.some.inj hget']
        exact Finset.insert_ne_empty _ _
      · exact h t' docs' hget'

omit [Externals] in
theorem nonempty_foldl_removeToken (tokens : List String)
    (h : ∀ t docs, m.get t = some docs → docs ≠ ∅) (t : String) (docs : Finset RowId)
    (hget : (tokens.foldl (FtsIndex.removeToken rowid) m).get t = some docs) : docs ≠ ∅ := by
  induction tokens generalizing m with
  | nil => exact h t docs hget
  | cons token tokens ih =>
      refine ih (fun t' docs' hget' => ?_) hget
      rw [FtsIndex.removeToken] at hget'
      split at hget'
      · exact h t' docs' hget'
      · split_ifs at hget' with hempty
        · rw [IndexMap.get_erase] at hget'
          split_ifs at hget'
          exact h t' docs' hget'
        · rw [IndexMap.get_insert] at hget'
          split_ifs at hget'
          · exact Option.some.inj hget' ▸ hempty
          · exact h t' docs' hget'

end Tokens

/-! ### One text -/

section Document

variable {idx : FtsIndex} {text : RowId → Option String} (h : idx.Exact text) {rowid : RowId}
  {content : String}
include h

theorem FtsIndex.Exact.addDocument (hnone : text rowid = none) :
    (idx.addDocument rowid content).Exact (Function.update text rowid (some content)) where
  mem_iff token r := by
    rw [FtsIndex.addDocument, mem_foldl_addToken, h.mem_iff]
    by_cases hr : r = rowid
    · subst hr
      simp [hnone]
    · simp [hr]
  nonempty := nonempty_foldl_addToken rowid _ h.nonempty
  lengths r := by
    rw [FtsIndex.addDocument, IndexMap.get_insert, h.lengths]
    by_cases hr : r = rowid
    · subst hr
      simp
    · simp [hr]
  total := by
    have hget : idx.docLengths.get rowid = none := by rw [h.lengths, hnone]; rfl
    rw [FtsIndex.addDocument]
    simp only
    rw [IndexMap.length_keys_insert _ hget, h.total, UInt64.ofNat_add]
    rfl

theorem FtsIndex.Exact.removeDocument (hsome : text rowid = some content) :
    (idx.removeDocument rowid content).Exact (Function.update text rowid none) where
  mem_iff token r := by
    rw [FtsIndex.removeDocument, mem_foldl_removeToken, h.mem_iff]
    by_cases hr : r = rowid
    · subst hr
      simp [hsome]
    · simp [hr]
  nonempty := nonempty_foldl_removeToken rowid _ h.nonempty
  lengths r := by
    rw [FtsIndex.removeDocument, IndexMap.get_erase, h.lengths]
    by_cases hr : r = rowid
    · subst hr
      simp
    · simp [hr]
  total := by
    have hget : idx.docLengths.get rowid = some (tokenize content).length := by
      rw [h.lengths, hsome]
      rfl
    rw [FtsIndex.removeDocument]
    simp only
    rw [h.total, ← IndexMap.length_keys_erase hget, UInt64.ofNat_add]
    exact UInt64.add_sub_cancel _ _

end Document

/-! ### One row -/

def FtsIndex.removeText (rowid : RowId) (text : Option String) (idx : FtsIndex) : FtsIndex :=
  match text with
  | some content => idx.removeDocument rowid content
  | none => idx

def FtsIndex.addText (rowid : RowId) (text : Option String) (idx : FtsIndex) : FtsIndex :=
  match text with
  | some content => idx.addDocument rowid content
  | none => idx

section Text

variable {idx : FtsIndex} {text : RowId → Option String} (h : idx.Exact text) (rowid : RowId)
include h

theorem FtsIndex.Exact.removeText :
    (idx.removeText rowid (text rowid)).Exact (Function.update text rowid none) := by
  cases hold : text rowid with
  | some content => exact h.removeDocument hold
  | none =>
      rw [FtsIndex.removeText, ← hold, Function.update_eq_self]
      exact h

theorem FtsIndex.Exact.addText (hnone : text rowid = none) (newText : Option String) :
    (idx.addText rowid newText).Exact (Function.update text rowid newText) := by
  cases newText with
  | some content => exact h.addDocument hnone
  | none =>
      rw [FtsIndex.addText, ← hnone, Function.update_eq_self]
      exact h

/-- The old text of the row out and the new one in. -/
theorem FtsIndex.Exact.move (newText : Option String) :
    ((idx.removeText rowid (text rowid)).addText rowid newText).Exact
      (Function.update text rowid newText) := by
  have hmoved := (h.removeText rowid).addText rowid (Function.update_self rowid none text) newText
  rw [Function.update_idem] at hmoved
  exact hmoved

end Text

/-! ### What an exact index tells -/

omit [Externals] in
theorem mem_foldl_inter (f : String → Finset RowId) (tokens : List String) (init : Finset RowId)
    (r : RowId) :
    r ∈ tokens.foldl (fun results t => results ∩ f t) init ↔ r ∈ init ∧ ∀ t ∈ tokens, r ∈ f t := by
  induction tokens generalizing init with
  | nil => simp
  | cons token tokens ih =>
      rw [List.foldl_cons, ih, Finset.mem_inter, List.forall_mem_cons, and_assoc]

/-- The search finds the rows whose text has every word of the query. -/
theorem FtsIndex.Exact.mem_search {idx : FtsIndex} {text : RowId → Option String}
    (h : idx.Exact text) {query : String} (hwords : tokenize query ≠ []) (rowid : RowId) :
    rowid ∈ idx.search query ↔
      ∃ content, text rowid = some content ∧ ∀ t ∈ tokenize query, t ∈ tokenize content := by
  obtain ⟨token, tokens, htokens⟩ := List.exists_cons_of_ne_nil hwords
  rw [FtsIndex.search, htokens]
  simp only
  rw [mem_foldl_inter, ← List.forall_mem_cons (p := fun t => rowid ∈ idx.inverted.getD t ∅)]
  constructor
  · intro hall
    obtain ⟨content, htext, -⟩ := (h.mem_iff token rowid).mp (hall token List.mem_cons_self)
    refine ⟨content, htext, fun t ht => ?_⟩
    obtain ⟨content', htext', hmem⟩ := (h.mem_iff t rowid).mp (hall t ht)
    rwa [Option.some.inj (htext.symm.trans htext')]
  · rintro ⟨content, htext, hall⟩ t ht
    exact (h.mem_iff t rowid).mpr ⟨content, htext, hall t ht⟩

/-- The rows that have a text to index. -/
def textRows (column : String) (store : Store) : List (RowId × Row) :=
  store.entries.filter fun e => (contentOf column (some e.2)).isSome

theorem FtsIndex.Exact.length_docLengths {idx : FtsIndex} {column : String} {store : Store}
    (h : idx.Exact fun rowid => contentOf column (store.get rowid)) :
    idx.docLengths.keys.length = (textRows column store).length := by
  have hnodup : ((textRows column store).map Prod.fst).Nodup :=
    (List.filter_sublist.map Prod.fst).nodup store.nodup
  have hperm : idx.docLengths.keys.Perm ((textRows column store).map Prod.fst) := by
    refine (List.perm_ext_iff_of_nodup idx.docLengths.keys_nodup hnodup).mpr fun rowid => ?_
    rw [IndexMap.mem_keys_iff_get, h.lengths, List.mem_map]
    constructor
    · rintro ⟨n, hn⟩
      obtain ⟨content, hcontent, -⟩ := Option.map_eq_some_iff.mp hn
      cases hrow : store.get rowid with
      | none =>
          rw [hrow] at hcontent
          exact nomatch hcontent
      | some row =>
          refine ⟨(rowid, row), List.mem_filter.mpr ⟨?_, ?_⟩, rfl⟩
          · exact (IndexMap.mem_entries_iff_get ..).mpr hrow
          · rw [← hrow, hcontent]
            rfl
    · rintro ⟨⟨_, row⟩, hmem, rfl⟩
      obtain ⟨hentry, htext⟩ := List.mem_filter.mp hmem
      obtain ⟨content, hcontent⟩ := Option.isSome_iff_exists.mp htext
      rw [(IndexMap.mem_entries_iff_get ..).mp hentry, hcontent]
      exact ⟨_, rfl⟩
  rw [hperm.length_eq, List.length_map]

/-! ### Indexing a table from scratch -/

/-- The index that adding the text of each row yields. -/
def FtsIndex.ofStore (column : String) (store : Store) : FtsIndex :=
  store.entries.foldl (fun idx e => idx.addText e.1 (contentOf column (some e.2))) .new

theorem FtsIndex.Exact.foldl_addText (column : String) {entries : List (RowId × Row)}
    (hnodup : (entries.map Prod.fst).Nodup) {idx : FtsIndex} {text : RowId → Option String}
    (h : idx.Exact text) (hnone : ∀ e ∈ entries, text e.1 = none) :
    (entries.foldl (fun idx e => idx.addText e.1 (contentOf column (some e.2))) idx).Exact
      fun rowid => (entries.lookup rowid).elim (text rowid) fun row =>
        contentOf column (some row) := by
  induction entries generalizing idx text with
  | nil => exact h
  | cons e entries ih =>
      rw [List.map_cons, List.nodup_cons] at hnodup
      have hfresh : ∀ e' ∈ entries, e'.1 ≠ e.1 := fun e' he' heq =>
        hnodup.1 (List.mem_map.mpr ⟨e', he', heq⟩)
      have hadded := h.addText e.1 (hnone e List.mem_cons_self) (contentOf column (some e.2))
      rw [List.foldl_cons]
      refine (congrArg (FtsIndex.Exact _) (funext fun rowid => ?_)).mp
        (ih hnodup.2 hadded fun e' he' => ?_)
      · rw [IndexMap.lookup_cons_ite]
        split_ifs with hr
        · have hlookup : entries.lookup rowid = none :=
            lookup_eq_none_of_not_mem (hr ▸ hnodup.1)
          rw [hlookup, hr]
          exact Function.update_self ..
        · rw [Function.update_of_ne hr]
      · rw [Function.update_of_ne (hfresh e' he')]
        exact hnone e' (List.mem_cons_of_mem e he')

theorem FtsIndex.exact_new : FtsIndex.new.Exact fun _ => none :=
  ⟨fun _ _ => by simp [FtsIndex.new, IndexMap.getD], fun _ _ h => (nomatch h), fun _ => rfl, rfl⟩

theorem FtsIndex.exact_ofStore (column : String) (store : Store) :
    (FtsIndex.ofStore column store).Exact fun rowid => contentOf column (store.get rowid) := by
  refine (congrArg (FtsIndex.Exact _) (funext fun rowid => ?_)).mp
    (FtsIndex.exact_new.foldl_addText column store.nodup fun _ _ => rfl)
  rw [← IndexMap.get]
  cases store.get rowid <;> rfl

section Sync

variable (s : KvsState) (dbId : UInt32) (table : String) (rowid : RowId)

theorem getFtsTable_syncFtsIndex (row : Option Row) (isDelete : Bool) (dbId' : UInt32)
    (table' : String) :
    (syncFtsIndex s dbId table rowid row isDelete).getFtsTable dbId' table' =
      if dbId' = dbId ∧ table' = table then
        (s.getFtsTable dbId' table').map fun fts => { fts with
          index := if isDelete then fts.index.removeText rowid (contentOf fts.contentColumn row)
            else fts.index.addText rowid (contentOf fts.contentColumn row) }
      else s.getFtsTable dbId' table' := by
  by_cases hkey : dbId' = dbId ∧ table' = table
  · obtain ⟨rfl, rfl⟩ := hkey
    rw [if_pos ⟨rfl, rfl⟩, syncFtsIndex]
    cases hfts : s.getFtsTable dbId' table' with
    | none => exact hfts
    | some fts =>
        simp only [contentOf, Option.map_some]
        cases hval : row.bind fun r => r.get fts.contentColumn with
        | none =>
            simp only [hfts]
            cases isDelete <;> rfl
        | some value =>
            cases value <;>
              simp only [getFtsTable_modifyFts, and_self, if_true, hfts, Option.map_some] <;>
              cases isDelete <;> rfl
  · rw [if_neg hkey, syncFtsIndex]
    split
    · rfl
    · split
      · rw [getFtsTable_modifyFts, if_neg hkey]
      · rfl

/-- A change moves the text of the row in the full-text index of its table, and in no other. -/
theorem getFtsTable_setSynced (k : Key) (copy after : Option Row) (dbId' : UInt32)
    (table' : String) :
    (setSynced s k copy after).getFtsTable dbId' table' =
      if dbId' = k.dbId ∧ table' = k.table then
        (s.getFtsTable dbId' table').map fun fts => { fts with
          index := (fts.index.removeText k.rowid (contentOf fts.contentColumn copy)).addText k.rowid
            (contentOf fts.contentColumn after) }
      else s.getFtsTable dbId' table' := by
  rw [setSynced, syncFtsIndexChange]
  by_cases hkey : dbId' = k.dbId ∧ table' = k.table
  · cases copy <;> cases after <;>
      simp only [Option.isSome_some, Option.isSome_none, if_true, if_false, Bool.false_eq_true,
        getFtsTable_syncFtsIndex, setIndexed_content, if_pos hkey] <;>
      cases s.getFtsTable dbId' table' <;> rfl
  · cases copy <;> cases after <;>
      simp only [Option.isSome_some, Option.isSome_none, if_true, if_false, Bool.false_eq_true,
        getFtsTable_syncFtsIndex, setIndexed_content, if_neg hkey]

end Sync

/-- Every full-text index is that of the texts in its table. -/
def FtsExact (s : KvsState) : Prop :=
  ∀ dbId table fts, s.getFtsTable dbId table = some fts →
    fts.index.Exact fun rowid => contentOf fts.contentColumn (s.row ⟨dbId, table, rowid⟩)

/-- The full-text index of one table, if it has one, is that of its texts. -/
def FtsExactOf (s : KvsState) (dbId : UInt32) (table : String) : Prop :=
  ∀ fts, s.getFtsTable dbId table = some fts →
    fts.index.Exact fun rowid => contentOf fts.contentColumn (s.row ⟨dbId, table, rowid⟩)

theorem FtsExactOf.set {s : KvsState} {dbId : UInt32} {table : String} (h : FtsExactOf s dbId table)
    (k : Key) {copy : Option Row} (new : Option Row) (hstore : s.hasStore k.dbId k.table = true)
    (hcopy : k.dbId = dbId → k.table = table → copy = s.row k) :
    FtsExactOf (setSynced s k copy new) dbId table := by
  have hrow := (sets_setSynced s k copy new).row hstore
  intro fts hget
  rw [getFtsTable_setSynced] at hget
  split_ifs at hget with hkey
  · obtain ⟨rfl, rfl⟩ := hkey
    obtain rfl := hcopy rfl rfl
    obtain ⟨old, hold, rfl⟩ := Option.map_eq_some_iff.mp hget
    have hmoved := (h old hold).move k.rowid (contentOf old.contentColumn new)
    refine (congrArg (FtsIndex.Exact _) (funext fun rowid => ?_)).mp hmoved
    simp only [hrow]
    by_cases hr : rowid = k.rowid
    · subst hr
      rw [Function.update_self, if_pos rfl]
    · rw [Function.update_of_ne hr, if_neg fun heq => hr (congrArg Key.rowid heq)]
  · refine (congrArg (FtsIndex.Exact _) (funext fun rowid => ?_)).mp (h fts hget)
    rw [hrow, if_neg fun heq => hkey ⟨congrArg Key.dbId heq, congrArg Key.table heq⟩]

theorem FtsExact.set {s : KvsState} (h : FtsExact s) (k : Key) (new : Option Row)
    (hstore : s.hasStore k.dbId k.table = true) : FtsExact (setSynced s k (s.row k) new) :=
  fun dbId table => FtsExactOf.set (h dbId table) k new hstore fun _ _ => rfl

/-- A table whose index is the one made from scratch. -/
theorem ftsExact_of_check {s : KvsState}
    (h : (s.ftsTables.entries.all fun db => db.2.entries.all fun fts =>
      fts.2.index = FtsIndex.ofStore fts.2.contentColumn
        ((s.getTableStore db.1 fts.1).getD ∅)) = true) : FtsExact s := by
  intro dbId table fts hfts
  obtain ⟨db, hdb, hget⟩ := Option.bind_eq_some_iff.mp hfts
  have hdbs := List.all_eq_true.mp h _ ((IndexMap.mem_entries_iff_get ..).mpr hdb)
  have hindex := of_decide_eq_true
    (List.all_eq_true.mp hdbs _ ((IndexMap.mem_entries_iff_get ..).mpr hget))
  rw [hindex]
  refine (congrArg (FtsIndex.Exact _) (funext fun rowid => ?_)).mp (FtsIndex.exact_ofStore _ _)
  rw [KvsState.row, KvsState.rowAt]
  cases s.getTableStore dbId table <;> rfl

/-- Exact indexes of both kinds are maintained. -/
theorem maintained_exact : Maintained fun s => IndexesExact s ∧ FtsExact s where
  frame s txns gens h := ⟨maintained_indexesExact.frame s txns gens h.1, h.2⟩
  realFree s h := maintained_indexesExact.realFree s h.1
  set s k new hstore hnew h :=
    ⟨maintained_indexesExact.set s k new hstore hnew h.1, h.2.set k new hstore⟩

end Skvs
