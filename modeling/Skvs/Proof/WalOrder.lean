import Skvs.Wal
import Skvs.Lib.KeyedFold

/-!
# What is in the write-ahead log

At every moment the logs, the batch and the channel hold what was sent, in this order. A flush
empties the batch and leaves the channel as it is, so what was sent before it but not yet received
is not in the logs when the flush is done.
-/

namespace Skvs

def onDb (dbId : UInt32) (ops : List Operation) : List Operation :=
  ops.filter fun op => op.dbId = dbId

theorem onDb_append (dbId : UInt32) (ops ops' : List Operation) :
    onDb dbId (ops ++ ops') = onDb dbId ops ++ onDb dbId ops' :=
  List.filter_append ..

theorem groupBatch_getD (dbId : UInt32) (batch : List Operation) :
    (groupBatch batch).getD dbId [] = onDb dbId batch := by
  have hfold : ∀ groups : IndexMap UInt32 (List Operation),
      (batch.foldl (fun groups op => groups.insert op.dbId (groups.getD op.dbId [] ++ [op]))
        groups).getD dbId [] = groups.getD dbId [] ++ onDb dbId batch := by
    induction batch with
    | nil => exact fun groups => (List.append_nil _).symm
    | cons op batch ih =>
        intro groups
        rw [List.foldl_cons, ih, IndexMap.getD, IndexMap.get_insert]
        by_cases hdb : dbId = op.dbId
        · simp [onDb, hdb]
        · simp [onDb, hdb, Ne.symm hdb, IndexMap.getD]
  exact hfold ∅

namespace WalWriter

variable [Externals] (serialize : Operation → Except String Bytes)

/-- In whatever order the groups are gone through, each log gets the operations of its database in
the order of the batch. -/
theorem writeBatch_apply (batch : List Operation) (walBin : UInt32 → Bytes) (dbId : UInt32) :
    writeBatch serialize batch walBin dbId =
      walBin dbId ++ (onDb dbId batch).flatMap (record serialize) := by
  have hperm := hashOrder_perm (groupBatch batch).entries
  have hnodup : ((hashOrder (groupBatch batch).entries).map Prod.fst).Nodup :=
    (hperm.map Prod.fst).nodup_iff.mpr (groupBatch batch).nodup
  have hfold := (foldl_keyed
    (fun (walBin : UInt32 → Bytes) (group : UInt32 × List Operation) =>
      Function.update walBin group.1 (walBin group.1 ++ group.2.flatMap (record serialize)))
    (fun walBin dbId => walBin dbId) (fun _ ops bytes => bytes ++ ops.flatMap (record serialize))
    (fun _ => True) (fun _ _ _ => trivial)
    (fun walBin group dbId _ => by
      by_cases hdb : dbId = group.1
      · rw [hdb, Function.update_self, if_pos rfl]
      · rw [Function.update_of_ne hdb, if_neg hdb]) hnodup (s := walBin) trivial dbId).2
  rw [IndexMap.lookup_of_perm hperm] at hfold
  rw [writeBatch, hfold, ← groupBatch_getD, IndexMap.getD]
  cases (groupBatch batch).get dbId with
  | none => exact (List.append_nil _).symm
  | some ops => rfl

/-- What was sent is, in this order, what the logs hold beyond `files`, the batch and the channel. -/
def Accounted (files : UInt32 → Bytes) (sent : List Operation) (w : WalWriter) : Prop :=
  ∃ written, written ++ w.batch ++ w.channel = sent ∧
    ∀ dbId, w.walBin dbId = files dbId ++ (onDb dbId written).flatMap (record serialize)

variable {serialize} {files : UInt32 → Bytes} {sent : List Operation} {w : WalWriter}

theorem Accounted.writeOut (h : Accounted serialize files sent w) :
    Accounted serialize files sent (w.writeOut serialize) := by
  obtain ⟨written, hsent, hfiles⟩ := h
  refine ⟨written ++ w.batch, ?_, fun dbId => ?_⟩
  · change written ++ w.batch ++ [] ++ w.channel = sent
    rw [List.append_nil, hsent]
  · change writeBatch serialize w.batch w.walBin dbId = _
    rw [writeBatch_apply, hfiles, onDb_append, List.flatMap_append, List.append_assoc]

theorem Accounted.writePending (h : Accounted serialize files sent w) :
    Accounted serialize files sent (w.writePending serialize) := by
  unfold WalWriter.writePending
  split_ifs
  · exact h
  · exact h.writeOut

theorem Accounted.receive (h : Accounted serialize files sent w) :
    Accounted serialize files sent (w.receive serialize) := by
  unfold WalWriter.receive
  cases hchannel : w.channel with
  | nil => exact h
  | cons op channel =>
      have htaken : Accounted serialize files sent
          { w with channel := channel, batch := w.batch ++ [op] } := by
        obtain ⟨written, hsent, hfiles⟩ := h
        refine ⟨written, ?_, hfiles⟩
        rw [hchannel] at hsent
        rw [← hsent]
        simp
      simp only
      split_ifs
      · exact htaken.writeOut
      · exact htaken

theorem Accounted.step (h : Accounted serialize files sent w) (e : WalEvent) :
    Accounted serialize files (sent ++ e.sent.toList) (w.step serialize e) := by
  have hquiet : e.sent = none → Accounted serialize files sent (w.step serialize e) →
      Accounted serialize files (sent ++ e.sent.toList) (w.step serialize e) := by
    intro hnone hstep
    rwa [hnone, Option.toList_none, List.append_nil]
  cases e with
  | sendOperation op =>
      obtain ⟨written, hsent, hfiles⟩ := h
      refine ⟨written, ?_, hfiles⟩
      change written ++ w.batch ++ (w.channel ++ [op]) = sent ++ [op]
      rw [← List.append_assoc, hsent]
  | flushNow => exact hquiet rfl h
  | tick => exact hquiet rfl h.writePending
  | notified =>
      refine hquiet rfl ?_
      rw [WalWriter.step]
      split_ifs
      · exact Accounted.writePending (w := { w with flushTrigger := false }) h
      · exact h
  | receive => exact hquiet rfl h.receive

omit [Externals] in
theorem sentBy_cons (e : WalEvent) (events : List WalEvent) :
    sentBy (e :: events) = e.sent.toList ++ sentBy events := by
  unfold sentBy
  cases h : e.sent <;> simp [h]

theorem Accounted.run (h : Accounted serialize files sent w) (events : List WalEvent) :
    Accounted serialize files (sent ++ sentBy events) (w.run serialize events) := by
  induction events generalizing sent w with
  | nil => rwa [sentBy, List.filterMap_nil, List.append_nil]
  | cons e events ih =>
      rw [sentBy_cons, ← List.append_assoc]
      exact ih (h.step e)

theorem accounted_run (batchSize : Nat) (events : List WalEvent) :
    Accounted serialize files (sentBy events) ((new batchSize files).run serialize events) :=
  have hnew : Accounted serialize files [] (new batchSize files) :=
    ⟨[], rfl, fun _ => (List.append_nil _).symm⟩
  hnew.run events

omit [Externals] in
/-- The records of a list of operations are what the serializer makes of them. -/
theorem flatMap_record {encode : Operation → Bytes} (hser : ∀ op, serialize op = .ok (encode op))
    (ops : List Operation) :
    ops.flatMap (record serialize) = Framing.frames (ops.map encode) := by
  rw [Framing.frames, List.flatMap_map]
  refine congrArg (fun f => ops.flatMap f) (funext fun op => ?_)
  rw [record, hser]

omit [Externals] in
/-- A log that was empty can be read back, as long as no encoding is `2 ^ 32` bytes long. -/
theorem unframe_walBin {encode : Operation → Bytes} (hser : ∀ op, serialize op = .ok (encode op))
    (h : Accounted serialize (fun _ => []) sent w)
    (hlength : ∀ op ∈ sent, (encode op).length < 2 ^ 32) (dbId : UInt32) :
    ∃ written, Framing.unframe (w.walBin dbId) = some (written.map encode) ∧
      written ++ onDb dbId w.batch ++ onDb dbId w.channel = onDb dbId sent := by
  obtain ⟨written, rfl, hfiles⟩ := h
  refine ⟨onDb dbId written, ?_, by rw [onDb_append, onDb_append]⟩
  rw [hfiles, List.nil_append, flatMap_record hser, Framing.unframe_frames]
  intro payload hpayload
  obtain ⟨op, hop, rfl⟩ := List.mem_map.mp hpayload
  have hwritten : op ∈ written := List.mem_of_mem_filter hop
  exact hlength op (by simp [hwritten])

end WalWriter

/-- How bincode writes bytes that are fewer than `2 ^ 32`. -/
def bincodeBytes (bytes : Bytes) : Bytes :=
  Framing.toLeBytes (UInt32.ofNat bytes.length) ++ Framing.toLeBytes 0 ++ bytes

/-- How bincode writes an operation on a table with an ASCII name. -/
def bincodeOperation (op : Operation) : Bytes :=
  Framing.toLeBytes op.dbId ++ bincodeBytes (op.table.toList.map fun c => UInt8.ofNat c.toNat) ++
    match op.op with
    | .put key value => Framing.toLeBytes 0 ++ bincodeBytes key ++ bincodeBytes value
    | .delete key => Framing.toLeBytes 1 ++ bincodeBytes key

open WalWriter

variable [Externals] (serialize : Operation → Except String Bytes) (encode : Operation → Bytes)
  (hser : ∀ op, serialize op = .ok (encode op))
include hser

/-- Of each database, what has been appended to its log, what is pending in the batch and what is
still in the channel are the operations that were sent, in the order they were sent. -/
theorem wal_order (files : UInt32 → Bytes) (batchSize : Nat) (events : List WalEvent)
    (dbId : UInt32) :
    let w := (WalWriter.new batchSize files).run serialize events
    ∃ written, w.walBin dbId = files dbId ++ Framing.frames (written.map encode) ∧
      written ++ onDb dbId w.batch ++ onDb dbId w.channel = onDb dbId (sentBy events) := by
  intro w
  obtain ⟨written, hsent, hfiles⟩ :=
    @accounted_run _ serialize files batchSize events
  refine ⟨onDb dbId written, ?_, ?_⟩
  · rw [hfiles, flatMap_record hser]
  · rw [← hsent, onDb_append, onDb_append]

omit [Externals] hser in
/-- Three operations on two databases, two of them received and written as one batch. -/
theorem wal_order_two_databases :
    letI := Externals.ofTexts [] []
    let op : UInt32 → UInt8 → Operation := fun dbId value => ⟨dbId, "t", .put [1] [value]⟩
    let w := (WalWriter.new 2 fun _ => []).run (fun op => .ok (bincodeOperation op))
      [.sendOperation (op 0 5), .sendOperation (op 1 6), .receive, .receive, .sendOperation (op 0 7)]
    ∃ written, w.walBin 0 = Framing.frames (written.map bincodeOperation) ∧
      written ++ onDb 0 w.batch ++ [op 0 7] = [op 0 5, op 0 7] := by
  let _ := Externals.ofTexts [] []
  exact wal_order (fun op => .ok (bincodeOperation op)) bincodeOperation (fun _ => rfl) (fun _ => [])
    2 _ 0

omit hser in
theorem run_append (events events' : List WalEvent) (w : WalWriter) :
    w.run serialize (events ++ events') = (w.run serialize events).run serialize events' :=
  List.foldl_append

omit hser in
theorem flushTrigger_writePending (w : WalWriter) :
    (w.writePending serialize).flushTrigger = w.flushTrigger := by
  unfold writePending
  split_ifs <;> rfl

omit hser in
theorem flushTrigger_step {w : WalWriter} (h : w.flushTrigger = true) {e : WalEvent}
    (he : e ≠ .notified) : (w.step serialize e).flushTrigger = true := by
  cases e with
  | sendOperation op => exact h
  | flushNow => rfl
  | tick => exact (flushTrigger_writePending serialize w).trans h
  | notified => exact absurd rfl he
  | receive =>
      rw [step, receive]
      cases w.channel with
      | nil => exact h
      | cons op channel =>
          simp only
          split_ifs <;> exact h

omit hser in
/-- A flush stays to be noticed until it is. -/
theorem flushTrigger_run {w : WalWriter} (h : w.flushTrigger = true) {events : List WalEvent}
    (hevents : WalEvent.notified ∉ events) : (w.run serialize events).flushTrigger = true := by
  induction events generalizing w with
  | nil => exact h
  | cons e events ih =>
      rw [List.mem_cons, not_or] at hevents
      exact ih (flushTrigger_step serialize h (Ne.symm hevents.1)) hevents.2

omit hser in
theorem batch_writePending (w : WalWriter) : (w.writePending serialize).batch = [] := by
  unfold writePending
  split_ifs with hempty
  · exact List.isEmpty_iff.mp hempty
  · rfl

omit [Externals] hser in
theorem sentBy_append (events events' : List WalEvent) :
    sentBy (events ++ events') = sentBy events ++ sentBy events' :=
  List.filterMap_append

/-- When a flush has been noticed, the logs hold what the writer task has received by then, and the
rest of what was sent is in the channel. So they hold what was sent before the flush exactly if the
channel holds no more than what was sent after it. -/
theorem flushed_of_received (files : UInt32 → Bytes) (batchSize : Nat)
    (before after : List WalEvent) (hafter : WalEvent.notified ∉ after) :
    let w := (WalWriter.new batchSize files).run serialize (before ++ .flushNow :: after)
    let w' := w.step serialize .notified
    w.flushTrigger = true ∧
      ∃ received, received ++ w'.channel = sentBy before ++ sentBy after ∧
        (∀ dbId, w'.walBin dbId =
          files dbId ++ Framing.frames ((onDb dbId received).map encode)) ∧
        (sentBy before <+: received ↔ w'.channel.length ≤ (sentBy after).length) := by
  intro w w'
  have htrigger : w.flushTrigger = true := by
    change ((WalWriter.new batchSize files).run serialize (before ++ .flushNow :: after)).flushTrigger
      = true
    rw [run_append]
    exact flushTrigger_run serialize (w := ((WalWriter.new batchSize files).run serialize
      before).step serialize .flushNow) rfl hafter
  have hsentBy : sentBy (before ++ .flushNow :: after) = sentBy before ++ sentBy after := by
    rw [sentBy_append, sentBy_cons]
    rfl
  have hw' : w' = { w with flushTrigger := false }.writePending serialize := if_pos htrigger
  have hbatch : w'.batch = [] := by rw [hw', batch_writePending]
  obtain ⟨received, hsent, hfiles⟩ := (@accounted_run _ serialize files batchSize
    (before ++ .flushNow :: after)).step .notified
  change received ++ w'.batch ++ w'.channel = _ ++ [] at hsent
  rw [hbatch, List.append_nil, List.append_nil, hsentBy] at hsent
  refine ⟨htrigger, received, hsent, fun dbId => ?_, ?_⟩
  · rw [hfiles, flatMap_record hser]
  · have hlength := congrArg List.length hsent
    rw [List.length_append, List.length_append] at hlength
    constructor
    · intro hprefix
      have hle := hprefix.length_le
      omega
    · intro hle
      refine List.prefix_of_prefix_length_le (List.prefix_append _ (sentBy after)) ?_ (by omega)
      rw [← hsent]
      exact List.prefix_append _ _

omit [Externals] hser in
/-- An operation is sent and `flush` is called before the writer task runs. It takes notice of the
flush first, with an empty batch, and no log is written. -/
theorem flush_not_complete :
    letI := Externals.ofTexts [] []
    let op : Operation := ⟨0, "t", .put [1] [5]⟩
    let w := (WalWriter.new 1000 fun _ => []).run (fun op => .ok (bincodeOperation op))
      [.sendOperation op, .flushNow]
    let w' := w.step (fun op => .ok (bincodeOperation op)) .notified
    w.flushTrigger = true ∧ w'.flushTrigger = false ∧
      ¬∃ written : List Operation,
        w'.walBin 0 = Framing.frames (written.map bincodeOperation) ∧ op ∈ written := by
  let _ := Externals.ofTexts [] []
  intro op w w'
  refine ⟨rfl, rfl, fun ⟨written, hfile, hop⟩ => ?_⟩
  have hempty : w'.walBin 0 = [] := rfl
  rw [hempty, Framing.frames, List.flatMap_map] at hfile
  have hframe := List.flatMap_eq_nil_iff.mp hfile.symm op hop
  exact absurd hframe (by decide)

omit [Externals] hser in
theorem flushed_of_received_one :
    letI := Externals.ofTexts [] []
    let op : UInt8 → Operation := fun value => ⟨0, "t", .put [1] [value]⟩
    let w := (WalWriter.new 1000 fun _ => []).run (fun op => .ok (bincodeOperation op))
      ([.sendOperation (op 5), .receive] ++ .flushNow :: [.sendOperation (op 6)])
    let w' := w.step (fun op => .ok (bincodeOperation op)) .notified
    w.flushTrigger = true ∧
      ∃ received, received ++ [op 6] = [op 5, op 6] ∧
        (∀ dbId, w'.walBin dbId =
          [] ++ Framing.frames ((onDb dbId received).map bincodeOperation)) ∧
        ([op 5] <+: received ↔ 1 ≤ 1) := by
  let _ := Externals.ofTexts [] []
  exact flushed_of_received (fun op => .ok (bincodeOperation op)) bincodeOperation (fun _ => rfl)
    (fun _ => []) 1000 [.sendOperation ⟨0, "t", .put [1] [5]⟩, .receive]
    [.sendOperation ⟨0, "t", .put [1] [6]⟩] (by decide)

end Skvs
