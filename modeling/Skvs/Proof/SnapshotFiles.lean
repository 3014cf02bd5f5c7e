import Skvs.Snapshot

/-!
# What a save leaves on disk

A save that runs to its end replaces, for each database of the state, every file it has a dump for,
and touches no other file. One that is cut short has replaced those it has come to the rename of.
-/

namespace Skvs

namespace Disk

variable (d : Disk) (dbId dbId' : UInt32)

theorem run_append (steps steps' : List DiskStep) :
    d.run (steps ++ steps') = (d.run steps).run steps' :=
  List.foldl_append

theorem put_self (files : UInt32 → (f : SnapshotFile) → Option f.Dump) (f : SnapshotFile)
    (dump : Option f.Dump) : put files dbId f dump dbId f = dump := by
  rw [put, Function.update_self, Function.update_self]

theorem put_of_ne (files : UInt32 → (f : SnapshotFile) → Option f.Dump) {f f' : SnapshotFile}
    (dump : Option f.Dump) (h : ¬(dbId' = dbId ∧ f' = f)) :
    put files dbId f dump dbId' f' = files dbId' f' := by
  unfold put
  by_cases hdb : dbId' = dbId
  · subst hdb
    rw [Function.update_self, Function.update_of_ne fun hf => h ⟨rfl, hf⟩]
  · rw [Function.update_of_ne hdb]

theorem file_writeSnapshotFile (f : SnapshotFile) (dump : f.Dump) :
    (d.run (writeSnapshotFile dbId f dump)).file = put d.file dbId f (some dump) := by
  change (step { d with temp := put d.temp dbId f (some dump) } (.rename dbId f)).file = _
  unfold step
  simp only [put_self]

end Disk

namespace Server

variable [Externals] (s : Server) (d : Disk) (dbId dbId' : UInt32)

theorem file_saveFile (f : SnapshotFile) :
    (d.run (s.saveFile dbId f)).file =
      Disk.put d.file dbId f ((s.dump dbId f).or (d.file dbId f)) := by
  unfold saveFile
  cases s.dump dbId f with
  | some dump => exact d.file_writeSnapshotFile dbId f dump
  | none =>
      funext dbId' f'
      by_cases h : dbId' = dbId ∧ f' = f
      · obtain ⟨rfl, rfl⟩ := h
        rw [Disk.put_self]
        rfl
      · rw [Disk.put_of_ne dbId dbId' d.file _ h]
        rfl

theorem file_saveFile_self (f : SnapshotFile) :
    (d.run (s.saveFile dbId f)).file dbId f = (s.dump dbId f).or (d.file dbId f) := by
  rw [file_saveFile, Disk.put_self]

theorem file_saveFile_of_ne {f f' : SnapshotFile} (h : ¬(dbId' = dbId ∧ f' = f)) :
    (d.run (s.saveFile dbId f)).file dbId' f' = d.file dbId' f' := by
  rw [file_saveFile, Disk.put_of_ne dbId dbId' d.file _ h]

theorem file_saveDb (f : SnapshotFile) :
    (d.run (s.saveDb dbId)).file dbId f = (s.dump dbId f).or (d.file dbId f) := by
  unfold saveDb
  rw [Disk.run_append, Disk.run_append, Disk.run_append]
  cases f <;> simp [file_saveFile_self, file_saveFile_of_ne]

theorem file_saveDb_of_ne (f : SnapshotFile) (h : dbId' ≠ dbId) :
    (d.run (s.saveDb dbId)).file dbId' f = d.file dbId' f := by
  unfold saveDb
  rw [Disk.run_append, Disk.run_append, Disk.run_append]
  simp [file_saveFile_of_ne, h]

theorem file_saveDbs (ids : List UInt32) (f : SnapshotFile) :
    (d.run (ids.flatMap s.saveDb)).file dbId f =
      if dbId ∈ ids then (s.dump dbId f).or (d.file dbId f) else d.file dbId f := by
  induction ids generalizing d with
  | nil => rfl
  | cons id ids ih =>
      rw [List.flatMap_cons, Disk.run_append, ih]
      by_cases hid : dbId = id
      · subst hid
        rw [file_saveDb, if_pos List.mem_cons_self]
        split_ifs
        · cases s.dump dbId f <;> rfl
        · rfl
      · rw [file_saveDb_of_ne s d id dbId f hid]
        simp [hid]

/-- The files after a save that ran to its end. -/
theorem file_saveSqlSnapshot (f : SnapshotFile) :
    (d.run s.saveSqlSnapshot).file dbId f =
      if (s.kvs.dbs.get dbId).isSome then (s.dump dbId f).or (d.file dbId f)
      else d.file dbId f := by
  have hmem : dbId ∈ hashOrder s.kvs.dbs.keys ↔ (s.kvs.dbs.get dbId).isSome = true := by
    rw [(hashOrder_perm s.kvs.dbs.keys).mem_iff, IndexMap.mem_keys_iff_get,
      Option.isSome_iff_exists]
  unfold saveSqlSnapshot
  rw [file_saveDbs]
  exact if_congr hmem rfl rfl

/-! ### A save that is cut short -/

/-- Kind by kind, a file is as this save leaves it from the moment of its rename on. -/
theorem file_take (saved : List (UInt32 × SnapshotFile)) (k : Nat) (f : SnapshotFile) :
    let steps := (saved.flatMap fun p => s.saveFile p.1 p.2).take k
    (DiskStep.rename dbId f ∈ steps → (d.run steps).file dbId f = s.dump dbId f) ∧
      (DiskStep.rename dbId f ∉ steps → (d.run steps).file dbId f = d.file dbId f) := by
  induction saved generalizing d k with
  | nil => simp [Disk.run]
  | cons p saved ih =>
      obtain ⟨id, kind⟩ := p
      rw [List.flatMap_cons]
      cases hdump : s.dump id kind with
      | none =>
          have hnil : s.saveFile id kind = [] := by rw [saveFile, hdump]
          rw [hnil]
          exact ih d k
      | some dump =>
          have htwo : s.saveFile id kind = [.write id kind dump, .rename id kind] := by
            rw [saveFile, hdump]
            rfl
          have hput := s.file_saveFile d id kind
          rw [htwo, hdump, Option.some_or] at hput
          rw [htwo]
          match k with
          | 0 => simp [Disk.run]
          | 1 => simp [Disk.run, Disk.step]
          | k + 2 =>
              obtain ⟨hin, hout⟩ := ih (d.run [.write id kind dump, .rename id kind]) k
              have hrun : d.run ((([.write id kind dump, .rename id kind] : List DiskStep) ++
                  saved.flatMap fun p => s.saveFile p.1 p.2).take (k + 2)) =
                  (d.run [.write id kind dump, .rename id kind]).run
                    ((saved.flatMap fun p => s.saveFile p.1 p.2).take k) := rfl
              intro steps
              rw [hrun]
              by_cases hself : dbId = id ∧ f = kind
              · obtain ⟨rfl, rfl⟩ := hself
                rw [hput, Disk.put_self, ← hdump] at hout
                exact ⟨fun _ => (Classical.em _).elim hin hout,
                  fun hnot => absurd (by simp [steps]) hnot⟩
              · rw [hput, Disk.put_of_ne id dbId d.file _ hself] at hout
                have hmem : DiskStep.rename dbId f ∈ steps ↔
                    DiskStep.rename dbId f ∈
                      (saved.flatMap fun p => s.saveFile p.1 p.2).take k := by
                  simp [steps, hself]
                rw [hmem]
                exact ⟨hin, hout⟩

theorem of_rename_mem_saveFile {kind f : SnapshotFile} {id : UInt32}
    (h : DiskStep.rename dbId f ∈ s.saveFile id kind) : dbId = id ∧ f = kind := by
  unfold saveFile at h
  cases hdump : s.dump id kind with
  | none =>
      rw [hdump] at h
      exact nomatch h
  | some dump => simpa [hdump, writeSnapshotFile] using h

theorem saveSqlSnapshot_eq : s.saveSqlSnapshot =
    ((hashOrder s.kvs.dbs.keys).flatMap fun id =>
      [(id, .tables), (id, .raw), (id, .views), (id, .triggers)]).flatMap
        fun p => s.saveFile p.1 p.2 := by
  rw [List.flatMap_assoc, saveSqlSnapshot]
  congr 1
  funext id
  simp [saveDb]

/-- The files after the first steps of a save. -/
theorem file_saveSqlSnapshot_take (k : Nat) (f : SnapshotFile) :
    let steps := s.saveSqlSnapshot.take k
    (DiskStep.rename dbId f ∈ steps → (d.run steps).file dbId f = s.dump dbId f) ∧
      (DiskStep.rename dbId f ∉ steps → (d.run steps).file dbId f = d.file dbId f) := by
  rw [saveSqlSnapshot_eq]
  exact s.file_take d dbId _ k f

/-- The tables of a database are the first of its files. -/
theorem rename_tables_mem_take (ids : List UInt32) (k : Nat)
    (hids : ∀ id ∈ ids, (s.kvs.dbs.get id).isSome) {f : SnapshotFile}
    (h : DiskStep.rename dbId f ∈ (ids.flatMap s.saveDb).take k) :
    DiskStep.rename dbId .tables ∈ (ids.flatMap s.saveDb).take k := by
  induction ids generalizing k with
  | nil =>
      rw [List.flatMap_nil, List.take_nil] at h
      exact nomatch h
  | cons id ids ih =>
      rw [List.flatMap_cons, List.take_append, List.mem_append] at h ⊢
      rcases h with hfirst | hrest
      · left
        obtain ⟨tables, htables⟩ := Option.isSome_iff_exists.mp (hids id List.mem_cons_self)
        have htwo : s.saveFile id .tables =
            [.write id .tables (s.tablesDump id tables), .rename id .tables] := by
          rw [saveFile, dump, htables]
          rfl
        have hid : dbId = id := by
          have hin := List.mem_of_mem_take hfirst
          simp only [saveDb, List.mem_append] at hin
          rcases hin with ((hin | hin) | hin) | hin <;> exact (s.of_rename_mem_saveFile dbId hin).1
        subst hid
        unfold saveDb at hfirst ⊢
        rw [htwo] at hfirst ⊢
        -- one step only writes a temporary file
        match k with
        | 0 => exact nomatch hfirst
        | 1 => simp at hfirst
        | k + 2 => simp
      · exact .inr (ih _ (fun id hid => hids id (List.mem_cons_of_mem _ hid)) hrest)

end Server

end Skvs
