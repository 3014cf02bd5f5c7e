import Skvs.Raw
import Mathlib.Logic.Function.Basic

/-!
# A raw table is a map

An entry lives in memory or in its overflow file, and never in both. Every operation keeps it so,
whatever is evicted and whichever writes fail, and reading a key finds its entry where it lives.
-/

namespace Skvs

theorem digitChar_inj : ∀ m < 16, ∀ n < 16, Nat.digitChar m = Nat.digitChar n → m = n := by
  decide

theorem digitChar_ne : ∀ n < 16, Nat.digitChar n ≠ '/' ∧ Nat.digitChar n ≠ '.' := by
  decide

theorem hexName_inj {key key' : Bytes} (h : hexName key = hexName key') : key = key' := by
  induction key generalizing key' with
  | nil =>
      cases key' with
      | nil => rfl
      | cons b key' => exact nomatch h
  | cons b key ih =>
      cases key' with
      | nil => exact nomatch h
      | cons b' key' =>
          simp only [hexName, List.flatMap_cons, List.cons_append, List.nil_append,
            List.cons.injEq] at h
          obtain ⟨hhigh, hlow, hrest⟩ := h
          have hb := b.toNat_lt
          have hb' := b'.toNat_lt
          have hdiv := digitChar_inj _ (by omega) _ (by omega) hhigh
          have hmod := digitChar_inj _ (by omega) _ (by omega) hlow
          have hbyte : b.toNat = b'.toNat := by omega
          rw [UInt8.toNat_inj.mp hbyte, ih hrest]

theorem hexName_isName {key : Bytes} (h : key ≠ []) : Path.IsName (hexName key) := by
  have hmem : ∀ c ∈ hexName key, c ≠ '/' ∧ c ≠ '.' := by
    intro c hc
    obtain ⟨b, -, hb⟩ := List.mem_flatMap.mp hc
    have hlt := b.toNat_lt
    simp only [List.mem_cons, List.not_mem_nil, or_false] at hb
    rcases hb with rfl | rfl <;> exact digitChar_ne _ (by omega)
  obtain ⟨b, rest, rfl⟩ := List.exists_cons_of_ne_nil h
  refine ⟨List.cons_ne_nil _ _, fun hslash => (hmem _ hslash).1 rfl, ?_, ?_⟩
  · intro hdot
    exact (hmem '.' (hdot ▸ List.mem_cons_self)).2 rfl
  · intro hdots
    exact (hmem '.' (hdots ▸ List.mem_cons_self)).2 rfl

namespace RawState

/-- The entry of a key in memory. -/
def inMemory (s : RawState) (dbId : UInt32) (table : String) (key : Bytes) : Option Bytes :=
  (s.rawTable dbId table).bind fun t => t.get key

/-- The overflow file of a key. -/
def onDisk (s : RawState) (dbId : UInt32) (table : String) (key : Bytes) : Option Bytes :=
  s.files.get (s.overflowPath dbId table key)

variable (s : RawState) (dbId : UInt32) (table : String)

theorem getRaw_eq (key : Bytes) :
    s.getRaw dbId table key = (s.inMemory dbId table key).or (s.onDisk dbId table key) := rfl

/-- Where the files of a table are. -/
def tableDir : Path.Resolved :=
  Path.resolve s.workingDir
    (Path.join (Path.join s.overflowDir.toList (toString dbId).toList) table.toList)

theorem overflowPath_eq (key : Bytes) :
    s.overflowPath dbId table key =
      if key = [] then s.tableDir dbId table else s.tableDir dbId table ++ [hexName key] := by
  unfold overflowPath tableDir
  split_ifs with h
  · rw [h]
    exact Path.resolve_join_nil
  · exact (hexName_isName h).resolve_join

theorem overflowPath_inj {key key' : Bytes}
    (h : s.overflowPath dbId table key = s.overflowPath dbId table key') : key = key' := by
  rw [overflowPath_eq, overflowPath_eq] at h
  split_ifs at h with hkey hkey' hkey'
  · rw [hkey, hkey']
  · exact absurd h.symm (by simp)
  · exact absurd h (by simp)
  · rw [List.append_cancel_left_eq, List.cons.injEq] at h
    exact hexName_inj h.1

/-! ### What the steps do -/

theorem rawTable_modifyTable (f : RawTable → RawTable) (dbId' : UInt32) (table' : String) :
    (s.modifyTable dbId table f).rawTable dbId' table' =
      if dbId' = dbId ∧ table' = table then (s.rawTable dbId' table').map f
      else s.rawTable dbId' table' := by
  simp only [rawTable, modifyTable, IndexMap.get_modify]
  by_cases hdb : dbId' = dbId
  · by_cases ht : table' = table <;> cases s.rawStores.get dbId' <;> simp [hdb, ht]
  · simp [hdb]

theorem rawTable_ensureTable (dbId' : UInt32) (table' : String) :
    (s.ensureTable dbId table).rawTable dbId' table' =
      if dbId' = dbId ∧ table' = table then some ((s.rawTable dbId' table').getD ∅)
      else s.rawTable dbId' table' := by
  simp only [rawTable, ensureTable, IndexMap.get_insert]
  by_cases hdb : dbId' = dbId
  · subst hdb
    simp only [if_true, true_and, Option.bind_some, IndexMap.get_insertIfNew, IndexMap.getD]
    by_cases ht : table' = table
    · subst ht
      cases s.rawStores.get dbId' <;> simp
    · cases s.rawStores.get dbId' <;> simp [ht]
  · simp [hdb]

/-- A step that touches one table only, its map and its files. -/
structure OnlyTable (s s' : RawState) : Prop where
  limit : s'.maxEntriesPerTable = s.maxEntriesPerTable
  path : s'.overflowPath = s.overflowPath
  rawTable : ∀ dbId' table', ¬(dbId' = dbId ∧ table' = table) →
    s'.rawTable dbId' table' = s.rawTable dbId' table'
  file : ∀ path, (∀ key, path ≠ s.overflowPath dbId table key) →
    s'.files.get path = s.files.get path

variable {s dbId table}

theorem OnlyTable.refl : OnlyTable dbId table s s :=
  ⟨rfl, rfl, fun _ _ _ => rfl, fun _ _ => rfl⟩

theorem OnlyTable.trans {s₁ s₂ : RawState} (h : OnlyTable dbId table s s₁)
    (h' : OnlyTable dbId table s₁ s₂) : OnlyTable dbId table s s₂ where
  limit := h'.limit.trans h.limit
  path := h'.path.trans h.path
  rawTable dbId' table' hne := (h'.rawTable dbId' table' hne).trans (h.rawTable dbId' table' hne)
  file path hpath :=
    (h'.file path (by rw [h.path]; exact hpath)).trans (h.file path hpath)

variable (s dbId table)

theorem onlyTable_modifyTable (f : RawTable → RawTable) :
    OnlyTable dbId table s (s.modifyTable dbId table f) := by
  refine ⟨rfl, rfl, ?_, fun _ _ => rfl⟩
  intro dbId' table' hne
  rw [rawTable_modifyTable, if_neg hne]

theorem onlyTable_ensureTable : OnlyTable dbId table s (s.ensureTable dbId table) := by
  refine ⟨rfl, rfl, ?_, fun _ _ => rfl⟩
  intro dbId' table' hne
  rw [rawTable_ensureTable, if_neg hne]

theorem onlyTable_writeOverflowFile (key value : Bytes) :
    OnlyTable dbId table s (s.writeOverflowFile dbId table key value) := by
  refine ⟨rfl, rfl, fun _ _ _ => rfl, ?_⟩
  intro path hpath
  rw [writeOverflowFile, IndexMap.get_insert, if_neg (hpath key)]

theorem onlyTable_removeOverflowFile (key : Bytes) :
    OnlyTable dbId table s (s.removeOverflowFile dbId table key) := by
  refine ⟨rfl, rfl, fun _ _ _ => rfl, ?_⟩
  intro path hpath
  rw [removeOverflowFile, IndexMap.get_erase, if_neg (hpath key)]

theorem onlyTable_spill (writeFails : Bytes → Bool) (key : Bytes) :
    OnlyTable dbId table s (spill dbId table writeFails s key) := by
  unfold spill
  cases (s.rawTable dbId table).bind fun t => t.get key with
  | none => exact .refl
  | some value =>
      have herase := onlyTable_modifyTable s dbId table fun t => t.erase key
      split_ifs
      · apply OnlyTable.trans (herase.trans (onlyTable_removeOverflowFile _ dbId table key))
        apply onlyTable_modifyTable
      · exact herase.trans (onlyTable_writeOverflowFile _ dbId table key value)

theorem onlyTable_spills (writeFails : Bytes → Bool) (keys : List Bytes) :
    OnlyTable dbId table s (keys.foldl (spill dbId table writeFails) s) := by
  induction keys generalizing s with
  | nil => exact .refl
  | cons key keys ih => exact (onlyTable_spill s dbId table writeFails key).trans (ih _)

theorem onlyTable_insertRaw (key value : Bytes) :
    OnlyTable dbId table s (s.insertRaw dbId table key value) := by
  unfold insertRaw
  apply OnlyTable.trans _ (onlyTable_modifyTable _ dbId table _)
  exact (onlyTable_ensureTable s dbId table).trans (onlyTable_removeOverflowFile _ dbId table key)

theorem onlyTable_putRaw (key value : Bytes) (env : Surroundings) :
    OnlyTable dbId table s (s.putRaw dbId table key value env) := by
  have hinsert := onlyTable_insertRaw s dbId table key value
  unfold putRaw
  simp only
  split_ifs
  · exact hinsert.trans (onlyTable_spills _ dbId table _ _)
  · exact hinsert

theorem onlyTable_removeRaw (key : Bytes) :
    OnlyTable dbId table s (s.removeRaw dbId table key) :=
  (onlyTable_modifyTable s dbId table _).trans (onlyTable_removeOverflowFile _ dbId table key)

/-! ### Where the entries of a table are -/

section View

variable {s dbId table}

/-- Steps on another table whose files are elsewhere change nothing here. -/
theorem OnlyTable.view {s' : RawState} {dbId' : UInt32} {table' : String}
    (h : OnlyTable dbId' table' s s') (hne : ¬(dbId = dbId' ∧ table = table'))
    (hfiles : ∀ key key', s.overflowPath dbId table key ≠ s.overflowPath dbId' table' key')
    (key : Bytes) :
    s'.inMemory dbId table key = s.inMemory dbId table key ∧
      s'.onDisk dbId table key = s.onDisk dbId table key := by
  constructor
  · rw [inMemory, inMemory, h.rawTable dbId table hne]
  · rw [onDisk, onDisk, h.path, h.file _ (hfiles key)]

end View

theorem inMemory_modifyTable (f : RawTable → RawTable) (key : Bytes) :
    (s.modifyTable dbId table f).inMemory dbId table key =
      (s.rawTable dbId table).bind fun t => (f t).get key := by
  rw [inMemory, rawTable_modifyTable, if_pos ⟨rfl, rfl⟩]
  cases s.rawTable dbId table <;> rfl

theorem onDisk_writeOverflowFile (key value key' : Bytes) :
    (s.writeOverflowFile dbId table key value).onDisk dbId table key' =
      if key' = key then some value else s.onDisk dbId table key' := by
  change (s.files.insert (s.overflowPath dbId table key) value).get
    (s.overflowPath dbId table key') = _
  rw [IndexMap.get_insert]
  by_cases hkey : key' = key
  · rw [if_pos (by rw [hkey]), if_pos hkey]
  · rw [if_neg fun h => hkey (s.overflowPath_inj dbId table h), if_neg hkey]
    rfl

theorem onDisk_removeOverflowFile (key key' : Bytes) :
    (s.removeOverflowFile dbId table key).onDisk dbId table key' =
      if key' = key then none else s.onDisk dbId table key' := by
  change (s.files.erase (s.overflowPath dbId table key)).get (s.overflowPath dbId table key') = _
  rw [IndexMap.get_erase]
  by_cases hkey : key' = key
  · rw [if_pos (by rw [hkey]), if_pos hkey]
  · rw [if_neg fun h => hkey (s.overflowPath_inj dbId table h), if_neg hkey]
    rfl

/-- A spilled entry moves to disk, or stays where it is and has no file. -/
theorem spill_view (writeFails : Bytes → Bool) (key key' : Bytes) :
    (spill dbId table writeFails s key).inMemory dbId table key' =
        (if key' = key ∧ writeFails key = false then none else s.inMemory dbId table key') ∧
      (spill dbId table writeFails s key).onDisk dbId table key' =
        if key' = key ∧ (s.inMemory dbId table key).isSome then
          if writeFails key then none else s.inMemory dbId table key
        else s.onDisk dbId table key' := by
  unfold spill
  rw [← inMemory]
  cases hvalue : s.inMemory dbId table key with
  | none =>
      simp only [Option.isSome_none, Bool.false_eq_true, and_false, if_false, and_true]
      split_ifs with h
      · rw [h.1, hvalue]
      · rfl
  | some value =>
      obtain ⟨t, ht, hget⟩ := Option.bind_eq_some_iff.mp hvalue
      have hmem : ∀ k, s.inMemory dbId table k = t.get k := fun k => by
        rw [inMemory, ht, Option.bind_some]
      simp only
      by_cases hfails : writeFails key = true
      · rw [if_pos hfails]
        constructor
        · rw [inMemory_modifyTable]
          change (((s.modifyTable dbId table fun t => t.erase key).rawTable dbId table).bind _) = _
          rw [rawTable_modifyTable, if_pos ⟨rfl, rfl⟩, ht, Option.map_some, Option.bind_some,
            IndexMap.get_insert, IndexMap.get_erase, hmem, hfails]
          by_cases hkey : key' = key
          · simp [hkey, hget]
          · simp [hkey]
        · change ((s.modifyTable dbId table _).removeOverflowFile dbId table key).onDisk
            dbId table key' = _
          rw [onDisk_removeOverflowFile, hfails]
          simp only [Option.isSome_some, and_true, if_true]
          rfl
      · rw [if_neg hfails]
        rw [Bool.not_eq_true] at hfails
        constructor
        · change (s.modifyTable dbId table _).inMemory dbId table key' = _
          rw [inMemory_modifyTable, ht, Option.bind_some, IndexMap.get_erase, hmem, hfails]
          simp
        · rw [onDisk_writeOverflowFile, hfails]
          simp only [Option.isSome_some, and_true, Bool.false_eq_true, if_false]
          rfl

/-! ### What is read -/

/-- Spilling an entry loses nothing. -/
theorem getRaw_spill (writeFails : Bytes → Bool) (key key' : Bytes) :
    (spill dbId table writeFails s key).getRaw dbId table key' = s.getRaw dbId table key' := by
  have hview := spill_view s dbId table writeFails key key'
  rw [getRaw_eq, getRaw_eq, hview.1, hview.2]
  by_cases hkey : key' = key
  · subst hkey
    cases writeFails key' <;> cases s.inMemory dbId table key' <;> simp
  · simp [hkey]

theorem getRaw_spills (writeFails : Bytes → Bool) (keys : List Bytes) (key' : Bytes) :
    (keys.foldl (spill dbId table writeFails) s).getRaw dbId table key' =
      s.getRaw dbId table key' := by
  induction keys generalizing s with
  | nil => rfl
  | cons key keys ih => exact (ih _).trans (getRaw_spill s dbId table writeFails key key')

theorem rawTable_insertRaw (key value : Bytes) :
    (s.insertRaw dbId table key value).rawTable dbId table =
      some (((s.rawTable dbId table).getD ∅).insert key value) := by
  unfold insertRaw
  rw [rawTable_modifyTable, if_pos ⟨rfl, rfl⟩]
  change ((s.ensureTable dbId table).rawTable dbId table).map _ = _
  rw [rawTable_ensureTable, if_pos ⟨rfl, rfl⟩, Option.map_some]

theorem inMemory_insertRaw (key value key' : Bytes) :
    (s.insertRaw dbId table key value).inMemory dbId table key' =
      if key' = key then some value else s.inMemory dbId table key' := by
  rw [inMemory, rawTable_insertRaw, Option.bind_some, IndexMap.get_insert, inMemory]
  cases s.rawTable dbId table <;> rfl

theorem onDisk_insertRaw (key value key' : Bytes) :
    (s.insertRaw dbId table key value).onDisk dbId table key' =
      if key' = key then none else s.onDisk dbId table key' := by
  change ((s.ensureTable dbId table).removeOverflowFile dbId table key).onDisk dbId table key' = _
  rw [onDisk_removeOverflowFile]
  rfl

theorem inMemory_removeRaw (key key' : Bytes) :
    (s.removeRaw dbId table key).inMemory dbId table key' =
      if key' = key then none else s.inMemory dbId table key' := by
  change (s.modifyTable dbId table _).inMemory dbId table key' = _
  rw [inMemory_modifyTable, inMemory]
  cases s.rawTable dbId table with
  | none => simp
  | some t => exact IndexMap.get_erase t key key'

theorem onDisk_removeRaw (key key' : Bytes) :
    (s.removeRaw dbId table key).onDisk dbId table key' =
      if key' = key then none else s.onDisk dbId table key' := by
  unfold removeRaw
  rw [onDisk_removeOverflowFile]
  rfl

theorem getRaw_insertRaw (key value key' : Bytes) :
    (s.insertRaw dbId table key value).getRaw dbId table key' =
      if key' = key then some value else s.getRaw dbId table key' := by
  rw [getRaw_eq, getRaw_eq, inMemory_insertRaw, onDisk_insertRaw]
  split_ifs <;> rfl

theorem getRaw_putRaw (key value : Bytes) (env : Surroundings) (key' : Bytes) :
    (s.putRaw dbId table key value env).getRaw dbId table key' =
      if key' = key then some value else s.getRaw dbId table key' := by
  rw [← getRaw_insertRaw]
  unfold putRaw
  simp only
  split_ifs
  · exact getRaw_spills _ dbId table env.writeFails _ key'
  · rfl

theorem getRaw_removeRaw (key key' : Bytes) :
    (s.removeRaw dbId table key).getRaw dbId table key' =
      if key' = key then none else s.getRaw dbId table key' := by
  rw [getRaw_eq, getRaw_eq, inMemory_removeRaw, onDisk_removeRaw]
  split_ifs <;> rfl

/-! ### The invariant -/

/-- No entry is both in memory and on disk. -/
def Split (s : RawState) (dbId : UInt32) (table : String) : Prop :=
  ∀ key, s.inMemory dbId table key = none ∨ s.onDisk dbId table key = none

section Split

variable {s dbId table} (h : s.Split dbId table)
include h

theorem Split.spill (writeFails : Bytes → Bool) (key : Bytes) :
    (RawState.spill dbId table writeFails s key).Split dbId table := by
  intro key'
  have hview := spill_view s dbId table writeFails key key'
  rw [hview.1, hview.2]
  by_cases hkey : key' = key
  · subst hkey
    cases hfails : writeFails key' <;> cases s.inMemory dbId table key' <;> simp
  · simpa [hkey] using h key'

theorem Split.spills (writeFails : Bytes → Bool) (keys : List Bytes) :
    (keys.foldl (RawState.spill dbId table writeFails) s).Split dbId table := by
  induction keys generalizing s with
  | nil => exact h
  | cons key keys ih => exact ih (h.spill writeFails key)

theorem Split.insertRaw (key value : Bytes) :
    (s.insertRaw dbId table key value).Split dbId table := by
  intro key'
  rw [inMemory_insertRaw, onDisk_insertRaw]
  by_cases hkey : key' = key
  · simp [hkey]
  · simpa [hkey] using h key'

theorem Split.putRaw (key value : Bytes) (env : Surroundings) :
    (s.putRaw dbId table key value env).Split dbId table := by
  unfold RawState.putRaw
  simp only
  split_ifs
  · exact (h.insertRaw key value).spills env.writeFails _
  · exact h.insertRaw key value

theorem Split.removeRaw (key : Bytes) : (s.removeRaw dbId table key).Split dbId table := by
  intro key'
  rw [inMemory_removeRaw, onDisk_removeRaw]
  by_cases hkey : key' = key
  · simp [hkey]
  · simpa [hkey] using h key'

end Split

/-! ### The limit -/

theorem inMemory_isSome_iff (key : Bytes) :
    (s.inMemory dbId table key).isSome ↔ key ∈ ((s.rawTable dbId table).getD ∅).keys := by
  rw [IndexMap.mem_keys_iff_get, Option.isSome_iff_exists, inMemory]
  cases s.rawTable dbId table <;> rfl

theorem rawLen_spill {writeFails : Bytes → Bool} {key : Bytes}
    (hmem : (s.inMemory dbId table key).isSome) (hfails : writeFails key = false) :
    (spill dbId table writeFails s key).rawLen dbId table + 1 = s.rawLen dbId table := by
  obtain ⟨value, hvalue⟩ := Option.isSome_iff_exists.mp hmem
  obtain ⟨t, ht, hget⟩ := Option.bind_eq_some_iff.mp hvalue
  unfold spill
  rw [← inMemory, hvalue]
  simp only [hfails, Bool.false_eq_true, if_false]
  have htable : ((s.modifyTable dbId table fun t => t.erase key).writeOverflowFile dbId table key
      value).rawTable dbId table = some (t.erase key) := by
    change (s.modifyTable dbId table _).rawTable dbId table = _
    rw [rawTable_modifyTable, if_pos ⟨rfl, rfl⟩, ht, Option.map_some]
  rw [rawLen, rawLen, htable, ht, Option.getD_some, Option.getD_some,
    IndexMap.length_keys_erase hget]

theorem rawLen_spills {writeFails : Bytes → Bool} {keys : List Bytes} (hnodup : keys.Nodup)
    (hmem : ∀ key ∈ keys, (s.inMemory dbId table key).isSome)
    (hfails : ∀ key ∈ keys, writeFails key = false) :
    (keys.foldl (spill dbId table writeFails) s).rawLen dbId table + keys.length =
      s.rawLen dbId table := by
  induction keys generalizing s with
  | nil => rfl
  | cons key keys ih =>
      rw [List.nodup_cons] at hnodup
      have hstep := rawLen_spill s dbId table (hmem key List.mem_cons_self)
        (hfails key List.mem_cons_self)
      have hrest := ih (spill dbId table writeFails s key) hnodup.2 (fun k hk => ?_)
        fun k hk => hfails k (List.mem_cons_of_mem key hk)
      · rw [List.foldl_cons, List.length_cons]
        omega
      · have hne : k ≠ key := fun heq => hnodup.1 (heq ▸ hk)
        rw [(spill_view s dbId table writeFails key k).1, if_neg fun heq => hne heq.1]
        exact hmem k (List.mem_cons_of_mem key hk)

/-- A put whose spills all succeed leaves no more entries in memory than the limit allows. -/
theorem rawLen_putRaw_le (key value : Bytes) (env : Surroundings)
    (hlimit : 0 < s.maxEntriesPerTable)
    (hfails : ∀ k ∈ (s.insertRaw dbId table key value).toEvict dbId table env.order,
      env.writeFails k = false) :
    (s.putRaw dbId table key value env).rawLen dbId table ≤ s.maxEntriesPerTable := by
  have hinsert := (onlyTable_insertRaw s dbId table key value).limit
  unfold putRaw
  simp only
  generalize s.insertRaw dbId table key value = s' at hinsert hfails
  split_ifs with hover
  · have hperm := env.order_perm ((s'.rawTable dbId table).getD ∅).keys
    have hsub : (s'.toEvict dbId table env.order).Sublist
        (env.order ((s'.rawTable dbId table).getD ∅).keys) := List.take_sublist _ _
    have hlen : (s'.toEvict dbId table env.order).length =
        s'.rawLen dbId table - s'.maxEntriesPerTable := by
      unfold toEvict rawLen
      rw [List.length_take, hperm.length_eq]
      omega
    have hsum := rawLen_spills s' dbId table
      (hsub.nodup (hperm.nodup_iff.mpr (IndexMap.keys_nodup _)))
      (fun k hk => (s'.inMemory_isSome_iff dbId table k).mpr (hperm.mem_iff.mp (hsub.mem hk)))
      hfails
    unfold evictToDisk
    omega
  · omega

end RawState

/-! ### Runs -/

inductive RawOp where
  | put (key value : Bytes) (env : Surroundings)
  | remove (key : Bytes)
  | get (key : Bytes)

/-- One operation on a table. -/
structure RawCall where
  dbId : UInt32
  table : String
  op : RawOp

def RawCall.run (c : RawCall) (s : RawState) : RawState :=
  match c.op with
  | .put key value env => s.putRaw c.dbId c.table key value env
  | .remove key => s.removeRaw c.dbId c.table key
  | .get _ => s

def runRaw (calls : List RawCall) (s : RawState) : RawState :=
  calls.foldl (fun s c => c.run s) s

/-- What the operation does to a plain map. -/
def RawOp.apply (op : RawOp) (m : Bytes → Option Bytes) : Bytes → Option Bytes :=
  match op with
  | .put key value _ => Function.update m key (some value)
  | .remove key => Function.update m key none
  | .get _ => m

/-- The map that the operations on one table lead to. -/
def plainMap (dbId : UInt32) (table : String) (calls : List RawCall) (m : Bytes → Option Bytes) :
    Bytes → Option Bytes :=
  calls.foldl (fun m c => if dbId = c.dbId ∧ table = c.table then c.op.apply m else m) m

theorem RawCall.onlyTable (c : RawCall) (s : RawState) :
    RawState.OnlyTable c.dbId c.table s (c.run s) := by
  obtain ⟨dbId, table, op⟩ := c
  cases op with
  | put key value env => exact s.onlyTable_putRaw dbId table key value env
  | remove key => exact s.onlyTable_removeRaw dbId table key
  | get key => exact .refl

/-- No other table of the run has an overflow file where this one has. -/
def OwnFiles (s : RawState) (dbId : UInt32) (table : String) (calls : List RawCall) : Prop :=
  ∀ c ∈ calls, ¬(dbId = c.dbId ∧ table = c.table) →
    ∀ key key', s.overflowPath dbId table key ≠ s.overflowPath c.dbId c.table key'

section Run

variable {s : RawState} {dbId : UInt32} {table : String} {m : Bytes → Option Bytes}

/-- One step: a call on the table does to it what it does to the map. -/
theorem RawCall.refines (c : RawCall) (hmap : ∀ key, s.getRaw dbId table key = m key)
    (hown : OwnFiles s dbId table [c]) (key : Bytes) :
    (c.run s).getRaw dbId table key =
      (if dbId = c.dbId ∧ table = c.table then c.op.apply m else m) key := by
  by_cases hc : dbId = c.dbId ∧ table = c.table
  · obtain ⟨rfl, rfl⟩ := hc
    rw [if_pos ⟨rfl, rfl⟩]
    obtain ⟨dbId, table, op⟩ := c
    cases op with
    | put key' value env =>
        rw [RawOp.apply, Function.update_apply, ← hmap]
        exact s.getRaw_putRaw dbId table key' value env key
    | remove key' =>
        rw [RawOp.apply, Function.update_apply, ← hmap]
        exact s.getRaw_removeRaw dbId table key' key
    | get key' => exact hmap key
  · rw [if_neg hc]
    have hview := (c.onlyTable s).view hc (hown c List.mem_cons_self hc) key
    rw [RawState.getRaw_eq, hview.1, hview.2]
    exact hmap key

theorem RawCall.split (c : RawCall) (hsplit : s.Split dbId table)
    (hown : OwnFiles s dbId table [c]) : (c.run s).Split dbId table := by
  by_cases hc : dbId = c.dbId ∧ table = c.table
  · obtain ⟨rfl, rfl⟩ := hc
    obtain ⟨dbId, table, op⟩ := c
    cases op with
    | put key value env => exact hsplit.putRaw key value env
    | remove key => exact hsplit.removeRaw key
    | get key => exact hsplit
  · intro key
    have hview := (c.onlyTable s).view hc (hown c List.mem_cons_self hc) key
    rw [hview.1, hview.2]
    exact hsplit key

theorem OwnFiles.head {c : RawCall} {calls : List RawCall}
    (h : OwnFiles s dbId table (c :: calls)) : OwnFiles s dbId table [c] := by
  intro c' hc'
  rw [List.mem_singleton.mp hc']
  exact h c List.mem_cons_self

theorem OwnFiles.tail {c : RawCall} {calls : List RawCall}
    (h : OwnFiles s dbId table (c :: calls)) : OwnFiles (c.run s) dbId table calls := by
  intro c' hc'
  rw [(c.onlyTable s).path]
  exact h c' (List.mem_cons_of_mem c hc')

/-- A run of calls. -/
theorem runRaw_refines (calls : List RawCall) (hmap : ∀ key, s.getRaw dbId table key = m key)
    (hown : OwnFiles s dbId table calls) (key : Bytes) :
    (runRaw calls s).getRaw dbId table key = plainMap dbId table calls m key := by
  induction calls generalizing s m with
  | nil => exact hmap key
  | cons c calls ih => exact ih (c.refines hmap hown.head) hown.tail

theorem runRaw_split (calls : List RawCall) (hsplit : s.Split dbId table)
    (hown : OwnFiles s dbId table calls) : (runRaw calls s).Split dbId table := by
  induction calls generalizing s with
  | nil => exact hsplit
  | cons c calls ih => exact ih (c.split hsplit hown.head) hown.tail

/-- Whatever is evicted and whichever writes fail, reading a raw table gives what a plain map would
give, no entry is both in memory and on disk, and a put whose writes succeed keeps to the limit. -/
theorem raw_table_refines_map (s : RawState) (dbId : UInt32) (table : String)
    (hnew : ∀ key, s.inMemory dbId table key = none ∧ s.onDisk dbId table key = none)
    (calls : List RawCall) (hown : OwnFiles s dbId table calls) :
    let s' := runRaw calls s
    (∀ key, s'.getRaw dbId table key = plainMap dbId table calls (fun _ => none) key) ∧
      (∀ key, s'.inMemory dbId table key = none ∨ s'.onDisk dbId table key = none) ∧
      ∀ key value env, 0 < s'.maxEntriesPerTable →
        (∀ k ∈ (s'.insertRaw dbId table key value).toEvict dbId table env.order,
          env.writeFails k = false) →
        (s'.putRaw dbId table key value env).rawLen dbId table ≤ s'.maxEntriesPerTable := by
  intro s'
  have hget : ∀ key, s.getRaw dbId table key = none := by
    intro key
    rw [RawState.getRaw_eq, (hnew key).1, (hnew key).2]
    rfl
  exact ⟨runRaw_refines calls hget hown, runRaw_split calls (fun key => Or.inl (hnew key).1) hown,
    fun key value env => s'.rawLen_putRaw_le dbId table key value env⟩

end Run

namespace Sample

/-- Maps are iterated in the order of insertion, and every write succeeds. -/
def calm : Surroundings := ⟨id, fun _ => .refl _, fun _ => false⟩

/-- One database with room for one entry in memory. -/
def raw : RawState := .new [0] 1 "data/overflow" []

def put (table : String) (key value : Bytes) : RawCall := ⟨0, table, .put key value calm⟩

end Sample

/-- The first entry is spilled by the second put and read back from its file. -/
theorem spilled_entry_read_back :
    let s := runRaw [Sample.put "t" [1] [10], Sample.put "t" [2] [20]] Sample.raw
    s.inMemory 0 "t" [1] = none ∧ s.getRaw 0 "t" [1] = some [10] := by
  have h := (raw_table_refines_map Sample.raw 0 "t" (fun _ => ⟨rfl, rfl⟩)
    [Sample.put "t" [1] [10], Sample.put "t" [2] [20]] (fun c hc hne => ?_)).1 [1]
  · refine ⟨by decide, h.trans ?_⟩
    rfl
  · simp only [List.mem_cons, List.not_mem_nil, or_false] at hc
    rcases hc with rfl | rfl <;> exact absurd ⟨rfl, rfl⟩ hne

end Skvs
