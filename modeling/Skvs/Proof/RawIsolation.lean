import Skvs.Proof.RawMap

/-!
# Raw tables and each other's files

The maps of two tables are apart, and their overflow files are where their names lead. Two tables
keep out of each other's way exactly if no file of one is a file of the other. Plain names lead to
different places; a name with `..` in it can lead into another table, or into another database.
-/

namespace Skvs

theorem dbName_isName (dbId : UInt32) : Path.IsName (toString dbId).toList := by
  have hdigits : (toString dbId).toList = Nat.toDigits 10 dbId.toNat := Nat.toList_repr
  have hdigit : ∀ c ∈ (toString dbId).toList, c.isDigit = true := by
    intro c hc
    rw [hdigits] at hc
    exact Nat.isDigit_of_mem_toDigits (by decide) (by decide) hc
  refine ⟨?_, fun hslash => ?_, fun hdot => ?_, fun hdots => ?_⟩
  · intro hnil
    exact Nat.repr_ne_empty (String.toList_eq_nil_iff.mp hnil)
  · exact absurd (hdigit _ hslash) (by decide)
  · exact absurd (hdigit '.' (hdot ▸ List.mem_cons_self)) (by decide)
  · exact absurd (hdigit '.' (hdots ▸ List.mem_cons_self)) (by decide)

theorem dbName_inj {dbId dbId' : UInt32}
    (h : (toString dbId).toList = (toString dbId').toList) : dbId = dbId' := by
  have hdigits : Nat.toDigits 10 dbId.toNat = Nat.toDigits 10 dbId'.toNat := by
    calc Nat.toDigits 10 dbId.toNat = (toString dbId).toList := Nat.toList_repr.symm
      _ = (toString dbId').toList := h
      _ = Nat.toDigits 10 dbId'.toNat := Nat.toList_repr
  have hnumber := congrArg (fun ds => Nat.ofDigitChars 10 ds 0) hdigits
  simp only [Nat.ofDigitChars_toDigits (by decide : 1 < 10) (by decide : 10 ≤ 10)] at hnumber
  exact UInt32.toNat_inj.mp hnumber

namespace RawState

variable (s : RawState)

theorem tableDir_of_isName (dbId : UInt32) {table : String} (h : Path.IsName table.toList) :
    s.tableDir dbId table =
      Path.resolve s.workingDir s.overflowDir.toList ++
        [(toString dbId).toList, table.toList] := by
  unfold tableDir
  rw [h.resolve_join, (dbName_isName dbId).resolve_join, List.append_assoc]
  rfl

/-- Tables with plain names have files of their own. -/
theorem overflowPath_ne_of_isName {dbId dbId' : UInt32} {table table' : String}
    (h : Path.IsName table.toList) (h' : Path.IsName table'.toList)
    (hne : ¬(dbId = dbId' ∧ table = table')) (key key' : Bytes) :
    s.overflowPath dbId table key ≠ s.overflowPath dbId' table' key' := by
  intro heq
  have hdirs : [(toString dbId).toList, table.toList] ≠ [(toString dbId').toList, table'.toList] := by
    intro heq
    simp only [List.cons.injEq, and_true] at heq
    exact hne ⟨dbName_inj heq.1, String.toList_injective heq.2⟩
  have hlen := congrArg List.length heq
  simp only [overflowPath_eq, tableDir_of_isName s _ h, tableDir_of_isName s _ h'] at heq hlen
  split_ifs at heq hlen
  · exact hdirs (List.append_cancel_left heq)
  · simp at hlen
  · simp at hlen
  · exact hdirs (List.append_cancel_left (List.append_inj_left' heq rfl))

end RawState

/-! ### Making a table spill a key -/

namespace RawState

theorem rawTable_new (databases : List UInt32) (limit : Nat) (overflowDir : String)
    (workingDir : Path.Resolved) (dbId : UInt32) (table : String) :
    (new databases limit overflowDir workingDir).rawTable dbId table = none := by
  unfold rawTable new
  cases hdb : (IndexMap.ofList (databases.map fun id => (id, (∅ : IndexMap String RawTable)))).get
      dbId with
  | none => rfl
  | some db =>
      obtain ⟨id, -, heq⟩ := List.mem_map.mp (IndexMap.mem_of_get_ofList _ hdb)
      rw [Option.bind_some, ← (Prod.mk.inj heq).2]
      rfl

variable (s : RawState) (dbId : UInt32) (table : String)

theorem rawLen_insertRaw {key : Bytes} (value : Bytes) (h : s.inMemory dbId table key = none) :
    (s.insertRaw dbId table key value).rawLen dbId table = s.rawLen dbId table + 1 := by
  unfold rawLen
  rw [rawTable_insertRaw, Option.getD_some]
  apply IndexMap.length_keys_insert
  unfold inMemory at h
  cases htable : s.rawTable dbId table with
  | none => rfl
  | some t => simpa [htable] using h

/-- A put into a table below the limit spills nothing. -/
theorem putRaw_of_lt {key : Bytes} (value : Bytes) (env : Surroundings)
    (h : s.inMemory dbId table key = none) (hlen : s.rawLen dbId table < s.maxEntriesPerTable) :
    s.putRaw dbId table key value env = s.insertRaw dbId table key value := by
  unfold putRaw
  have hlimit := (onlyTable_insertRaw s dbId table key value).limit
  simp only [rawLen_insertRaw s dbId table value h, hlimit]
  exact if_neg (by omega)

end RawState

theorem onlyTable_runRaw (s : RawState) {dbId : UInt32} {table : String} {calls : List RawCall}
    (h : ∀ c ∈ calls, c.dbId = dbId ∧ c.table = table) :
    RawState.OnlyTable dbId table s (runRaw calls s) := by
  induction calls generalizing s with
  | nil => exact .refl
  | cons c calls ih =>
      obtain ⟨rfl, rfl⟩ := h c List.mem_cons_self
      exact (c.onlyTable s).trans (ih (c.run s) fun c' hc' => h c' (List.mem_cons_of_mem c hc'))

theorem overflowPath_runRaw (calls : List RawCall) (s : RawState) :
    (runRaw calls s).overflowPath = s.overflowPath := by
  induction calls generalizing s with
  | nil => rfl
  | cons c calls ih => exact (ih (c.run s)).trans (c.onlyTable s).path

/-- The surroundings that evict a key before the others. -/
def evictFirst (key : Bytes) : Surroundings where
  order keys := if key ∈ keys then key :: keys.erase key else keys
  order_perm keys := by
    split_ifs with h
    · exact (List.perm_cons_erase h).symm
    · exact .refl _
  writeFails _ := false

/-- Keys longer than a given one. -/
def filler (key : Bytes) (i : Nat) : Bytes := List.replicate (key.length + 1 + i) 0

theorem filler_ne (key : Bytes) (i : Nat) : key ≠ filler key i := by
  intro h
  have hlen := congrArg List.length h
  rw [filler, List.length_replicate] at hlen
  omega

theorem filler_inj {key : Bytes} {i j : Nat} (h : filler key i = filler key j) : i = j := by
  have hlen := congrArg List.length h
  simp only [filler, List.length_replicate] at hlen
  omega

/-- Puts that fill a table up to the limit, and one more that has its own key spilled. -/
def fillCalls (dbId : UInt32) (table : String) (key : Bytes) (n : Nat) : List RawCall :=
  (List.range n).map fun i => ⟨dbId, table, .put (filler key i) [] (evictFirst key)⟩

theorem onlyTable_fillCalls (s : RawState) (dbId : UInt32) (table : String) (key : Bytes) (n : Nat) :
    RawState.OnlyTable dbId table s (runRaw (fillCalls dbId table key n) s) := by
  apply onlyTable_runRaw
  intro c hc
  obtain ⟨i, -, rfl⟩ := List.mem_map.mp hc
  exact ⟨rfl, rfl⟩

namespace RawState

variable {s : RawState} {dbId : UInt32} {table : String}

theorem runRaw_fillCalls (hempty : ∀ key, s.inMemory dbId table key = none)
    (hlen : s.rawLen dbId table = 0) (key : Bytes) {n : Nat} (hn : n ≤ s.maxEntriesPerTable) :
    let s' := runRaw (fillCalls dbId table key n) s
    s'.rawLen dbId table = n ∧ s'.inMemory dbId table key = none ∧
      ∀ i ≥ n, s'.inMemory dbId table (filler key i) = none := by
  induction n with
  | zero => exact ⟨hlen, hempty key, fun i _ => hempty _⟩
  | succ n ih =>
      obtain ⟨hcount, hkey, hfresh⟩ := ih (by omega)
      have hcalls : runRaw (fillCalls dbId table key (n + 1)) s =
          (runRaw (fillCalls dbId table key n) s).putRaw dbId table (filler key n) []
            (evictFirst key) := by
        rw [fillCalls, List.range_succ, List.map_append, runRaw, List.foldl_append]
        rfl
      have hlimit : (runRaw (fillCalls dbId table key n) s).maxEntriesPerTable =
          s.maxEntriesPerTable := (onlyTable_fillCalls s dbId table key n).limit
      intro s'
      have hs' : s' = (runRaw (fillCalls dbId table key n) s).insertRaw dbId table (filler key n) [] :=
        hcalls.trans (putRaw_of_lt _ dbId table [] _ (hfresh n (Nat.le_refl _)) (by omega))
      refine ⟨?_, ?_, fun i hi => ?_⟩
      · rw [hs', rawLen_insertRaw _ dbId table [] (hfresh n (Nat.le_refl _)), hcount]
      · rw [hs', inMemory_insertRaw, if_neg (filler_ne key n)]
        exact hkey
      · rw [hs', inMemory_insertRaw, if_neg fun h => ?_]
        · exact hfresh i (by omega)
        · have hin := filler_inj h
          omega

/-- A table can be made to spill any key it does not hold yet. -/
theorem exists_spilled (hempty : ∀ key, s.inMemory dbId table key = none)
    (hlen : s.rawLen dbId table = 0) (hlimit : 0 < s.maxEntriesPerTable) (key : Bytes) :
    ∃ calls : List RawCall, (∀ c ∈ calls, c.dbId = dbId ∧ c.table = table) ∧
      (runRaw calls s).onDisk dbId table key = some [] := by
  obtain ⟨hcount, hkey, -⟩ := runRaw_fillCalls hempty hlen key (Nat.le_refl _)
  have hframe := onlyTable_fillCalls s dbId table key s.maxEntriesPerTable
  refine ⟨fillCalls dbId table key s.maxEntriesPerTable ++
    [⟨dbId, table, .put key [] (evictFirst key)⟩], fun c hc => ?_, ?_⟩
  · rw [List.mem_append, List.mem_singleton] at hc
    rcases hc with hc | rfl
    · obtain ⟨i, -, rfl⟩ := List.mem_map.mp hc
      exact ⟨rfl, rfl⟩
    · exact ⟨rfl, rfl⟩
  · rw [runRaw, List.foldl_append]
    change ((runRaw (fillCalls dbId table key s.maxEntriesPerTable) s).putRaw dbId table key []
      (evictFirst key)).onDisk dbId table key = _
    generalize runRaw (fillCalls dbId table key s.maxEntriesPerTable) s = s' at *
    have hcount' := rawLen_insertRaw s' dbId table [] hkey
    have hlimit' := (onlyTable_insertRaw s' dbId table key []).limit
    have hget : (s'.insertRaw dbId table key []).inMemory dbId table key = some [] := by
      rw [inMemory_insertRaw, if_pos rfl]
    unfold putRaw
    generalize s'.insertRaw dbId table key [] = s₁ at *
    have hlimit₁ : s₁.maxEntriesPerTable = s.maxEntriesPerTable := hlimit'.trans hframe.limit
    simp only
    rw [if_pos ⟨by omega, by omega⟩]
    have hmem : key ∈ ((s₁.rawTable dbId table).getD ∅).keys :=
      (inMemory_isSome_iff s₁ dbId table key).mp (by rw [hget]; rfl)
    have hevict : s₁.toEvict dbId table (evictFirst key).order = [key] := by
      have hone : ((s₁.rawTable dbId table).getD ∅).keys.length - s₁.maxEntriesPerTable = 1 := by
        change s₁.rawLen dbId table - s₁.maxEntriesPerTable = 1
        omega
      unfold toEvict
      simp only [hone, evictFirst, if_pos hmem]
      rfl
    rw [evictToDisk, hevict, List.foldl_cons, List.foldl_nil, (spill_view s₁ dbId table _ key key).2,
      hget]
    simp [evictFirst]

end RawState

/-! ### Isolation -/

/-- Whatever has happened to a table, calls on another one change nothing that is read from it. -/
def Isolated (s : RawState) (dbId : UInt32) (table : String) (dbId' : UInt32) (table' : String) :
    Prop :=
  ∀ setup calls : List RawCall, (∀ c ∈ calls, c.dbId = dbId ∧ c.table = table) →
    ∀ key, (runRaw calls (runRaw setup s)).getRaw dbId' table' key =
      (runRaw setup s).getRaw dbId' table' key

/-- Of two tables of a server that spills entries, one leaves what is read from the other alone
exactly if no overflow file of it is one of the other. -/
theorem isolated_iff_files_apart (databases : List UInt32) (limit : Nat) (overflowDir : String)
    (workingDir : Path.Resolved) (hlimit : 0 < limit) (dbId dbId' : UInt32) (table table' : String)
    (hne : ¬(dbId = dbId' ∧ table = table')) :
    let s := RawState.new databases limit overflowDir workingDir
    Isolated s dbId table dbId' table' ↔
      ∀ key key', s.overflowPath dbId table key ≠ s.overflowPath dbId' table' key' := by
  intro s
  constructor
  · intro hiso key key' hpath
    have hempty : ∀ dbId table key, s.inMemory dbId table key = none := by
      intro dbId table key
      rw [RawState.inMemory, RawState.rawTable_new]
      rfl
    have hlen : s.rawLen dbId table = 0 := by
      rw [RawState.rawLen, RawState.rawTable_new]
      rfl
    obtain ⟨calls, hcalls, hdisk⟩ := RawState.exists_spilled (hempty dbId table) hlen hlimit key
    have hframe := onlyTable_runRaw s hcalls
    have hafter : (runRaw calls s).getRaw dbId' table' key' = some [] := by
      rw [RawState.getRaw_eq, RawState.inMemory, hframe.rawTable _ _ fun h => hne ⟨h.1.symm, h.2.symm⟩,
        ← RawState.inMemory, hempty, RawState.onDisk, hframe.path, ← hpath]
      rw [RawState.onDisk, hframe.path] at hdisk
      rw [hdisk]
      rfl
    have hbefore : s.getRaw dbId' table' key' = none := by
      rw [RawState.getRaw_eq, hempty]
      rfl
    have hsame := hiso [] calls hcalls key'
    cases hafter.symm.trans (hsame.trans hbefore)
  · intro hapart setup calls hcalls key
    have hpath : (runRaw setup s).overflowPath = s.overflowPath := overflowPath_runRaw setup s
    have hview := (onlyTable_runRaw (runRaw setup s) hcalls).view
      (fun h => hne ⟨h.1.symm, h.2.symm⟩) (fun k k' => by rw [hpath]; exact (hapart k' k).symm) key
    rw [RawState.getRaw_eq, RawState.getRaw_eq, hview.1, hview.2]

/-- Removing a key of a table named `../1/t` in database 0 removes it from table `t` of database 1.
Database 0 has spilled a key of its own, so that its directory is there to lead out of. -/
theorem other_table_loses_key :
    let s := RawState.new [0, 1] 1 "data/overflow" []
    0 < s.maxEntriesPerTable ∧ ¬((0 : UInt32) = 1 ∧ "../1/t" = "t") ∧
      ¬Isolated s 0 "../1/t" 1 "t" := by
  refine ⟨by decide, by decide, fun h => ?_⟩
  have hsame := h
    [Sample.put "t" [1] [1], Sample.put "t" [2] [2], ⟨1, "t", .put [1] [10] Sample.calm⟩,
      ⟨1, "t", .put [2] [20] Sample.calm⟩]
    [⟨0, "../1/t", .remove [1]⟩]
    (fun c hc => by rw [List.mem_singleton.mp hc]; exact ⟨rfl, rfl⟩) [1]
  revert hsame
  decide

theorem plain_names_isolated :
    Isolated (RawState.new [0, 1] 1 "data/overflow" []) 0 "t" 1 "t" := by
  apply (isolated_iff_files_apart [0, 1] 1 "data/overflow" [] (by decide) 0 1 "t" "t"
    (by decide)).mpr
  have hname : Path.IsName "t".toList := ⟨by decide, by decide, by decide, by decide⟩
  exact RawState.overflowPath_ne_of_isName _ hname hname (by decide)

end Skvs
