import Skvs.Proof.RoundTrip
import Skvs.Proof.RawIsolation
import Mathlib.Data.List.Induction

/-!
# Raw entries across a crash

An entry is durable in one of two ways: it was in memory when the last snapshot was taken, or it
has an overflow file when the server crashes. Which of the two it is depends on the last call on its
key, a put or a removal or a put of another key that spills it. A put of the key takes its file away
at once, while the entry it leaves in memory is durable only from the next snapshot on.
-/

namespace Skvs

/-! ### Calls and snapshots -/

inductive RawEvent where
  | call (c : RawCall)
  /-- A save that runs to its end. -/
  | snapshot

/-- The raw tables and the snapshot files. -/
structure RawRun where
  raw : RawState
  disk : Disk

def rawCalls (events : List RawEvent) : List RawCall :=
  events.filterMap fun e =>
    match e with
    | .call c => some c
    | .snapshot => none

section

variable [Externals]

/-- A server without SQL tables. -/
def RawRun.server (databases : List UInt32) (w : RawRun) : Server := ⟨.new databases, w.raw⟩

def RawEvent.step (databases : List UInt32) (w : RawRun) (e : RawEvent) : RawRun :=
  match e with
  | .call c => { w with raw := c.run w.raw }
  | .snapshot => { w with disk := w.disk.run (w.server databases).saveSqlSnapshot }

def runRawEvents (databases : List UInt32) (events : List RawEvent) (w : RawRun) : RawRun :=
  events.foldl (RawEvent.step databases) w

theorem raw_runRawEvents (databases : List UInt32) (events : List RawEvent) (w : RawRun) :
    (runRawEvents databases events w).raw = runRaw (rawCalls events) w.raw := by
  induction events generalizing w with
  | nil => rfl
  | cons e events ih =>
      change (runRawEvents databases events (RawEvent.step databases w e)).raw = _
      rw [ih]
      cases e <;> rfl

end

/-! ### Databases stay -/

section Stay

variable (s : RawState) (dbId : UInt32) (table : String) {id : UInt32}
  (h : (s.rawStores.get id).isSome)
include h

theorem RawState.isSome_modifyTable (f : RawTable → RawTable) :
    ((s.modifyTable dbId table f).rawStores.get id).isSome := by
  unfold modifyTable
  rw [IndexMap.get_modify]
  split_ifs
  · rw [Option.isSome_map]
    exact h
  · exact h

theorem RawState.isSome_spills (writeFails : Bytes → Bool) (keys : List Bytes) :
    ((keys.foldl (spill dbId table writeFails) s).rawStores.get id).isSome := by
  induction keys generalizing s with
  | nil => exact h
  | cons key keys ih =>
      apply ih
      unfold spill
      cases (s.rawTable dbId table).bind fun t => t.get key with
      | none => exact h
      | some value =>
          have herased := s.isSome_modifyTable dbId table h fun t => t.erase key
          simp only
          split_ifs
          · exact isSome_modifyTable _ dbId table (by exact herased) _
          · exact herased

theorem RawCall.isSome_run (c : RawCall) : ((c.run s).rawStores.get id).isSome := by
  obtain ⟨dbId, table, op⟩ := c
  cases op with
  | put key value env =>
      have hensured : ((s.ensureTable dbId table).rawStores.get id).isSome := by
        unfold RawState.ensureTable
        rw [IndexMap.get_insert]
        split_ifs
        · rfl
        · exact h
      have hinserted : ((s.insertRaw dbId table key value).rawStores.get id).isSome :=
        RawState.isSome_modifyTable _ dbId table (by exact hensured) _
      change ((s.putRaw dbId table key value env).rawStores.get id).isSome
      unfold RawState.putRaw
      simp only
      split_ifs
      · exact RawState.isSome_spills _ dbId table hinserted env.writeFails _
      · exact hinserted
  | remove key => exact s.isSome_modifyTable dbId table h _
  | get key => exact h

theorem isSome_runRaw (calls : List RawCall) : ((runRaw calls s).rawStores.get id).isSome := by
  induction calls generalizing s with
  | nil => exact h
  | cons c calls ih => exact ih (c.run s) (c.isSome_run s h)

end Stay

/-! ### The keys that a run leaves spilled -/

/-- The call spills the key: it puts the table over its limit, the key is among those that are given
up, and its file can be written. -/
def RawCall.Spills (c : RawCall) (s : RawState) (dbId : UInt32) (table : String) (key : Bytes) :
    Prop :=
  dbId = c.dbId ∧ table = c.table ∧ ∃ key' value env, c.op = .put key' value env ∧
    let s' := s.insertRaw dbId table key' value
    0 < s'.maxEntriesPerTable ∧ s'.maxEntriesPerTable < s'.rawLen dbId table ∧
      key ∈ s'.toEvict dbId table env.order ∧ env.writeFails key = false

/-- The call puts the key or removes it. -/
def RawCall.Touches (c : RawCall) (dbId : UInt32) (table : String) (key : Bytes) : Prop :=
  dbId = c.dbId ∧ table = c.table ∧ ((∃ value env, c.op = .put key value env) ∨ c.op = .remove key)

/-- Some call of the run spills the key, and none after it puts the key or removes it. -/
def LeftSpilled (s : RawState) (dbId : UInt32) (table : String) (key : Bytes)
    (calls : List RawCall) : Prop :=
  ∃ done c rest, calls = done ++ c :: rest ∧ c.Spills (runRaw done s) dbId table key ∧
    ∀ c' ∈ rest, ¬c'.Touches dbId table key

section Spilled

variable {s : RawState} {dbId : UInt32} {table : String} {key : Bytes}

theorem RawState.onDisk_spills {writeFails : Bytes → Bool} {keys : List Bytes}
    (hsplit : s.Split dbId table) (hnodup : keys.Nodup)
    (hmem : ∀ k ∈ keys, (s.inMemory dbId table k).isSome) :
    ((keys.foldl (spill dbId table writeFails) s).onDisk dbId table key).isSome ↔
      (key ∈ keys ∧ writeFails key = false) ∨ (s.onDisk dbId table key).isSome := by
  induction keys generalizing s with
  | nil => simp
  | cons k keys ih =>
      rw [List.nodup_cons] at hnodup
      have hk := hmem k List.mem_cons_self
      have hview := s.spill_view dbId table writeFails k
      have hrest := ih (hsplit.spill writeFails k) hnodup.2 fun k' hk' => by
        have hne : k' ≠ k := fun heq => hnodup.1 (heq ▸ hk')
        rw [(hview k').1, if_neg fun h => hne h.1]
        exact hmem k' (List.mem_cons_of_mem k hk')
      rw [List.foldl_cons, hrest, (hview key).2, List.mem_cons]
      by_cases hkey : key = k
      · subst hkey
        have hdisk : s.onDisk dbId table key = none :=
          (hsplit key).resolve_left fun hnone => by simp [hnone] at hk
        cases hfails : writeFails key <;> simp [hk, hnodup.1, hdisk]
      · simp [hkey]

theorem RawState.onDisk_putRaw (hsplit : s.Split dbId table) (key' value : Bytes)
    (env : Surroundings) :
    ((s.putRaw dbId table key' value env).onDisk dbId table key).isSome ↔
      RawCall.Spills ⟨dbId, table, .put key' value env⟩ s dbId table key ∨
        ((s.onDisk dbId table key).isSome ∧ key ≠ key') := by
  have hinsert : ((s.insertRaw dbId table key' value).onDisk dbId table key).isSome ↔
      (s.onDisk dbId table key).isSome ∧ key ≠ key' := by
    rw [onDisk_insertRaw]
    by_cases hkey : key = key' <;> simp [hkey]
  have hspills : RawCall.Spills ⟨dbId, table, .put key' value env⟩ s dbId table key ↔
      let s' := s.insertRaw dbId table key' value
      0 < s'.maxEntriesPerTable ∧ s'.maxEntriesPerTable < s'.rawLen dbId table ∧
        key ∈ s'.toEvict dbId table env.order ∧ env.writeFails key = false := by
    refine ⟨fun ⟨_, _, _, _, _, hop, h⟩ => ?_, fun h => ⟨rfl, rfl, _, _, _, rfl, h⟩⟩
    obtain ⟨rfl, rfl, rfl⟩ := RawOp.put.inj hop
    exact h
  have hsplit' := hsplit.insertRaw key' value
  rw [hspills, ← hinsert, putRaw]
  generalize s.insertRaw dbId table key' value = s' at hsplit'
  simp only
  split_ifs with hover
  · have hperm := env.order_perm ((s'.rawTable dbId table).getD ∅).keys
    have hsub : (s'.toEvict dbId table env.order).Sublist
        (env.order ((s'.rawTable dbId table).getD ∅).keys) := List.take_sublist _ _
    rw [evictToDisk, onDisk_spills hsplit' (hsub.nodup (hperm.nodup_iff.mpr (IndexMap.keys_nodup _)))
      fun k hk => (s'.inMemory_isSome_iff dbId table k).mpr (hperm.mem_iff.mp (hsub.mem hk))]
    simp [hover]
  · refine ⟨.inr, fun h => h.resolve_left fun h => hover ⟨h.1, h.2.1⟩⟩

/-- One call. -/
theorem RawCall.onDisk_run (c : RawCall) (hsplit : s.Split dbId table)
    (hown : OwnFiles s dbId table [c]) :
    ((c.run s).onDisk dbId table key).isSome ↔ c.Spills s dbId table key ∨
      ((s.onDisk dbId table key).isSome ∧ ¬c.Touches dbId table key) := by
  by_cases hc : dbId = c.dbId ∧ table = c.table
  · obtain ⟨rfl, rfl⟩ := hc
    obtain ⟨dbId, table, op⟩ := c
    cases op with
    | put key' value env =>
        refine (RawState.onDisk_putRaw hsplit key' value env).trans
          (or_congr_right (and_congr_right fun _ => not_congr ?_))
        constructor
        · rintro rfl
          exact ⟨rfl, rfl, .inl ⟨value, env, rfl⟩⟩
        · rintro ⟨-, -, ⟨_, _, hop⟩ | hop⟩
          · exact (RawOp.put.inj hop).1.symm
          · cases hop
    | remove key' =>
        change ((s.removeRaw dbId table key').onDisk dbId table key).isSome ↔ _
        rw [RawState.onDisk_removeRaw]
        by_cases hkey : key = key'
        · simp [Spills, Touches, hkey]
        · simp [Spills, Touches, hkey, Ne.symm hkey]
    | get key' => simp [Spills, Touches, run]
  · rw [((c.onlyTable s).view hc (hown c List.mem_cons_self hc) key).2]
    have hspills : ¬c.Spills s dbId table key := fun h => hc ⟨h.1, h.2.1⟩
    have htouches : ¬c.Touches dbId table key := fun h => hc ⟨h.1, h.2.1⟩
    simp [hspills, htouches]

/-- A run, from the last call on the key. -/
theorem onDisk_runRaw (calls : List RawCall) (hsplit : s.Split dbId table)
    (hnone : s.onDisk dbId table key = none) (hown : OwnFiles s dbId table calls) :
    ((runRaw calls s).onDisk dbId table key).isSome ↔ LeftSpilled s dbId table key calls := by
  induction calls using List.reverseRecOn with
  | nil => simp [runRaw, hnone, LeftSpilled]
  | append_singleton calls c ih =>
      have hownInit : OwnFiles s dbId table calls := fun c' hc' =>
        hown c' (List.mem_append_left _ hc')
      have hownLast : OwnFiles (runRaw calls s) dbId table [c] := fun c' hc' => by
        rw [overflowPath_runRaw]
        exact hown c' (List.mem_append_right _ hc')
      have hrun : runRaw (calls ++ [c]) s = c.run (runRaw calls s) := by
        rw [runRaw, List.foldl_append]
        rfl
      rw [hrun, c.onDisk_run (runRaw_split calls hsplit hownInit) hownLast, ih hownInit]
      constructor
      · rintro (hspills | ⟨⟨done, c', rest, rfl, hspills, hrest⟩, hlast⟩)
        · exact ⟨calls, c, [], rfl, hspills, fun _ h => absurd h List.not_mem_nil⟩
        · refine ⟨done, c', rest ++ [c], by simp, hspills, fun c'' hc'' => ?_⟩
          rcases List.mem_append.mp hc'' with hc'' | hc''
          · exact hrest c'' hc''
          · exact List.mem_singleton.mp hc'' ▸ hlast
      · rintro ⟨done, c', rest, heq, hspills, hrest⟩
        rcases List.eq_nil_or_concat rest with rfl | ⟨rest, last, rfl⟩
        · obtain ⟨rfl, hc'⟩ := List.append_inj' heq rfl
          obtain rfl := List.singleton_inj.mp hc'
          exact .inl hspills
        · rw [List.concat_eq_append, ← List.cons_append, ← List.append_assoc] at heq
          obtain ⟨rfl, hlast⟩ := List.append_inj' heq rfl
          obtain rfl := List.singleton_inj.mp hlast
          rw [List.concat_eq_append] at hrest
          exact .inr ⟨⟨done, c', rest, rfl, hspills, fun c'' hc'' =>
            hrest c'' (List.mem_append_left _ hc'')⟩,
              hrest c (List.mem_append_right _ List.mem_cons_self)⟩

end Spilled

/-! ### Reading after a restart -/

section

variable [Externals] {databases : List UInt32} {S : Server} (hconf : Configured databases S)
  (disk : Disk) (limit : Nat) (overflowDir : String) (workingDir : Path.Resolved)
  (files : IndexMap Path.Resolved Bytes) (dbId : UInt32) (table : String) (key : Bytes)
include hconf

/-- A restart finds an entry in the snapshot, or else in its overflow file. -/
theorem getRaw_restart :
    (restart databases S disk limit overflowDir workingDir files).raw.getRaw dbId table key =
      (if dbId ∈ databases then S.raw.inMemory dbId table key else none).or
        (files.get ((RawState.new databases limit overflowDir workingDir).overflowPath
          dbId table key)) := by
  have hmem : (restart databases S disk limit overflowDir workingDir files).raw.inMemory dbId table
      key = if dbId ∈ databases then S.raw.inMemory dbId table key else none := by
    split_ifs with h
    · exact reload_raw limit overflowDir workingDir files h (S := fun _ => S)
        (file_of_configured hconf disk h) ((hconf.dbs dbId).mpr h) table key
    · have hnone : (Server.fresh databases limit overflowDir workingDir files).kvs.dbs.get dbId =
          none := by
        simp only [Server.fresh, KvsState.new, IndexMap.get_ofList_map_const, if_neg h]
      have hdb := Server.db_loadSqlSnapshot_of_none (disk.run S.saveSqlSnapshot) _ hnone
      have hraw : (restart databases S disk limit overflowDir workingDir files).raw.rawStores.get
          dbId = none := by
        refine (congrArg Prod.snd hdb).trans ?_
        simp only [Server.db, Server.fresh, RawState.new, IndexMap.get_ofList_map_const, if_neg h]
      rw [RawState.inMemory, RawState.rawTable, hraw]
      rfl
  obtain ⟨_, hframe⟩ := Server.raw_loadSqlSnapshot (disk.run S.saveSqlSnapshot)
    (Server.fresh databases limit overflowDir workingDir files)
  rw [RawState.getRaw_eq, hmem, RawState.onDisk, restart, reload, hframe]
  rfl

end

/-- A key that is not removed keeps its value or gets one that is put. -/
theorem plainMap_of_not_removed {dbId : UInt32} {table : String} {key : Bytes}
    (calls : List RawCall)
    (hkept : ∀ c ∈ calls, dbId = c.dbId → table = c.table → c.op ≠ .remove key)
    {m : Bytes → Option Bytes} {value : Bytes} (hvalue : m key = some value) :
    ∃ value', plainMap dbId table calls m key = some value' ∧
      (value' = value ∨ ∃ c ∈ calls, ∃ env, dbId = c.dbId ∧ table = c.table ∧
        c.op = .put key value' env) := by
  induction calls using List.reverseRecOn with
  | nil => exact ⟨value, hvalue, .inl rfl⟩
  | append_singleton calls c ih =>
      obtain ⟨value', hget, hor⟩ := ih fun c' hc' => hkept c' (List.mem_append_left _ hc')
      have hstep : plainMap dbId table (calls ++ [c]) m key =
          (if dbId = c.dbId ∧ table = c.table then c.op.apply (plainMap dbId table calls m)
          else plainMap dbId table calls m) key := by
        rw [plainMap, List.foldl_append]
        rfl
      have hsame : plainMap dbId table (calls ++ [c]) m key = plainMap dbId table calls m key →
          ∃ value', plainMap dbId table (calls ++ [c]) m key = some value' ∧
            (value' = value ∨ ∃ c' ∈ calls ++ [c], ∃ env, dbId = c'.dbId ∧ table = c'.table ∧
              c'.op = .put key value' env) := by
        intro heq
        refine ⟨value', heq.trans hget, hor.imp_right ?_⟩
        rintro ⟨c', hc', hput⟩
        exact ⟨c', List.mem_append_left _ hc', hput⟩
      by_cases hc : dbId = c.dbId ∧ table = c.table
      · rw [if_pos hc] at hstep
        have hlast : c ∈ calls ++ [c] := List.mem_append_right _ List.mem_cons_self
        cases hcop : c.op with
        | put key' value₁ env =>
            rw [hcop, RawOp.apply, Function.update_apply] at hstep
            by_cases hkey : key = key'
            · rw [if_pos hkey] at hstep
              exact ⟨value₁, hstep, .inr ⟨c, hlast, env, hc.1, hc.2, by rw [hcop, hkey]⟩⟩
            · rw [if_neg hkey] at hstep
              exact hsame hstep
        | remove key' =>
            have hkey : key ≠ key' := fun heq => hkept c hlast hc.1 hc.2 (by rw [hcop, heq])
            rw [hcop, RawOp.apply, Function.update_apply, if_neg hkey] at hstep
            exact hsame hstep
        | get key' =>
            rw [hcop] at hstep
            exact hsame hstep
      · rw [if_neg hc] at hstep
        exact hsame hstep

theorem configured_runRaw [Externals] (databases : List UInt32) (limit : Nat) (overflowDir : String)
    (workingDir : Path.Resolved) (calls : List RawCall) :
    Configured databases
      ⟨.new databases, runRaw calls (RawState.new databases limit overflowDir workingDir)⟩ where
  dbs dbId := by
    simp only [KvsState.new, IndexMap.get_ofList_map_const]
    split_ifs with h <;> simp [h]
  raw dbId h := by
    apply isSome_runRaw
    simp only [RawState.new, IndexMap.get_ofList_map_const, if_pos h]
    rfl
  views dbId h := by
    simp only [KvsState.new, IndexMap.get_ofList_map_const, if_pos h]
    rfl
  triggers dbId h := by
    simp only [KvsState.new, IndexMap.get_ofList_map_const, if_pos h]
    rfl

/-- A run up to its last snapshot, then calls up to a crash, then a restart. A key with a value at
the snapshot that is not removed afterwards can still be read, with that value or one put later,
exactly if it was not left spilled at the snapshot, in a database of the server, or is left spilled
at the crash. -/
theorem value_survives_iff [Externals] (databases : List UInt32) (limit : Nat)
    (overflowDir : String) (workingDir : Path.Resolved) (before : List RawEvent)
    (after : List RawCall) (dbId : UInt32) (table : String) (key value : Bytes)
    (hown : OwnFiles (RawState.new databases limit overflowDir workingDir) dbId table
      (rawCalls before ++ after)) :
    let s := RawState.new databases limit overflowDir workingDir
    let w := runRawEvents databases before ⟨s, .empty⟩
    let crashed := runRaw after w.raw
    let restarted := (restart databases (w.server databases) w.disk limit overflowDir workingDir
      crashed.files).raw
    w.raw.getRaw dbId table key = some value →
    (∀ c ∈ after, dbId = c.dbId → table = c.table → c.op ≠ .remove key) →
      ((∃ value', restarted.getRaw dbId table key = some value' ∧
          (value' = value ∨ ∃ c ∈ after, ∃ env, dbId = c.dbId ∧ table = c.table ∧
            c.op = .put key value' env)) ↔
        (dbId ∈ databases ∧ ¬LeftSpilled s dbId table key (rawCalls before)) ∨
          LeftSpilled s dbId table key (rawCalls before ++ after)) := by
  intro s w crashed restarted hvalue hkept
  have hraw : w.raw = runRaw (rawCalls before) s := raw_runRawEvents databases before _
  have hall : crashed = runRaw (rawCalls before ++ after) s := by
    rw [runRaw, List.foldl_append]
    exact congrArg (runRaw after) hraw
  have hownBefore : OwnFiles s dbId table (rawCalls before) := fun c hc =>
    hown c (List.mem_append_left _ hc)
  have hownAfter : OwnFiles w.raw dbId table after := fun c hc => by
    rw [hraw, overflowPath_runRaw]
    exact hown c (List.mem_append_right _ hc)
  have hnew : s.Split dbId table := fun k => .inl (by
    rw [RawState.inMemory, RawState.rawTable_new]
    rfl)
  have hsplit : crashed.Split dbId table := hall ▸ runRaw_split _ hnew hown
  have hsplitSaved : w.raw.Split dbId table := hraw ▸ runRaw_split _ hnew hownBefore
  have hcrashed := runRaw_refines after (m := w.raw.getRaw dbId table) (fun _ => rfl) hownAfter key
  obtain ⟨value', hmap, hput⟩ := plainMap_of_not_removed after hkept hvalue
  rw [hmap, RawState.getRaw_eq] at hcrashed
  have hconf : Configured databases (w.server databases) := by
    rw [RawRun.server, hraw]
    exact configured_runRaw databases limit overflowDir workingDir (rawCalls before)
  have hread : restarted.getRaw dbId table key =
      (if dbId ∈ databases then w.raw.inMemory dbId table key else none).or
        (crashed.onDisk dbId table key) := by
    have hget := getRaw_restart hconf w.disk limit overflowDir workingDir crashed.files dbId table
      key
    rw [RawState.onDisk, hall, overflowPath_runRaw, ← hall]
    exact hget
  -- what the snapshot has is what is not on disk by then
  have hsaved : (w.raw.inMemory dbId table key).isSome ↔
      ¬LeftSpilled s dbId table key (rawCalls before) := by
    rw [← onDisk_runRaw _ hnew rfl hownBefore, ← hraw]
    rw [RawState.getRaw_eq] at hvalue
    rcases hsplitSaved key with hmem | hdisk
    · rw [hmem, Option.none_or] at hvalue
      simp [hmem, hvalue]
    · rw [hdisk, Option.or_none] at hvalue
      simp [hdisk, hvalue]
  rw [hread, ← hsaved, ← onDisk_runRaw _ hnew rfl hown, ← hall]
  by_cases hcase : dbId ∈ databases ∧ (w.raw.inMemory dbId table key).isSome
  · -- the snapshot has it
    obtain ⟨h, hsome⟩ := hcase
    obtain ⟨value₁, hmem⟩ := Option.isSome_iff_exists.mp hsome
    rw [RawState.getRaw_eq, hmem, Option.some_or] at hvalue
    rw [if_pos h, hmem, Option.some_or]
    exact ⟨fun _ => .inl ⟨h, rfl⟩, fun _ => ⟨value₁, rfl, .inl (Option.some.inj hvalue)⟩⟩
  · have hnone : (if dbId ∈ databases then w.raw.inMemory dbId table key else none) = none := by
      split_ifs with h
      · exact Option.not_isSome_iff_eq_none.mp fun hsome => hcase ⟨h, hsome⟩
      · rfl
    rw [hnone, Option.none_or]
    constructor
    · rintro ⟨value₁, hdisk, -⟩
      exact .inr (by rw [hdisk]; rfl)
    · intro hor
      have hdisk := hor.resolve_left hcase
      obtain ⟨value₁, hfile⟩ := Option.isSome_iff_exists.mp hdisk
      have hmem : crashed.inMemory dbId table key = none := by
        rcases hsplit key with hmem | hnot
        · exact hmem
        · cases hnot.symm.trans hfile
      rw [hmem, hfile, Option.none_or] at hcrashed
      exact ⟨value', hfile.trans hcrashed, hput⟩

/-- The entry of key 1 is spilled when the snapshot is taken. The other key is removed, so the table
is below its limit when key 1 is put once more; the put takes the file away, and the server
crashes. -/
theorem overwritten_entry_lost :
    letI := Externals.ofTexts [] []
    let before := [RawEvent.call (Sample.put "t" [1] [10]), .call (Sample.put "t" [2] [20])]
    let after := [⟨0, "t", .remove [2]⟩, Sample.put "t" [1] [11]]
    let w := runRawEvents [0] before ⟨Sample.raw, .empty⟩
    let crashed := runRaw after w.raw
    w.raw.getRaw 0 "t" [1] = some [10] ∧ crashed.getRaw 0 "t" [1] = some [11] ∧
      (restart [0] (w.server [0]) w.disk 1 "data/overflow" [] crashed.files).raw.getRaw 0 "t" [1] =
        none := by
  decide

/-- An entry that is spilled when the snapshot is taken, and stays so, survives. -/
theorem spilled_entry_survives :
    letI := Externals.ofTexts [] []
    let before := [RawEvent.call (Sample.put "t" [1] [10]), .call (Sample.put "t" [2] [20]), .snapshot]
    let after := [Sample.put "t" [2] [21]]
    let w := runRawEvents [0] before ⟨Sample.raw, .empty⟩
    ∃ value', (restart [0] (w.server [0]) w.disk 1 "data/overflow" []
        (runRaw after w.raw).files).raw.getRaw 0 "t" [1] = some value' ∧
      (value' = [10] ∨ ∃ c ∈ after, ∃ env, 0 = c.dbId ∧ "t" = c.table ∧
        c.op = .put [1] value' env) := by
  let _ := Externals.ofTexts [] []
  intro before after w
  apply (value_survives_iff [0] 1 "data/overflow" [] before after 0 "t" [1] [10]
    (fun c hc hne => ?_) (by decide) (fun c hc _ _ => ?_)).mpr
  · refine .inr ⟨[Sample.put "t" [1] [10]], Sample.put "t" [2] [20], after, rfl,
      ⟨rfl, rfl, [2], [20], Sample.calm, rfl, by decide⟩, fun c hc htouches => ?_⟩
    obtain rfl := List.mem_singleton.mp hc
    obtain ⟨-, -, ⟨value, env, hop⟩ | hop⟩ := htouches
    · cases hop
    · cases hop
  · have htable : ∀ c ∈ rawCalls before ++ after, c.dbId = 0 ∧ c.table = "t" := by
      decide
    obtain ⟨hdb, ht⟩ := htable c hc
    exact absurd ⟨hdb.symm, ht.symm⟩ hne
  · rw [List.mem_singleton.mp hc]
    intro h
    cases h

end Skvs
