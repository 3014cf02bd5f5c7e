import Skvs.Externals
import Skvs.Replication
import Skvs.Lib.Framing

/-!
# The write-ahead log

A call on a raw table sends its operation to the writer task. The task collects a batch and appends
it to the logs, one file a database, when the timer ticks, when it notices that `flush` was called,
or when the batch is full. Only one of these happens at a time, in any order; file writes succeed.
-/

namespace Skvs

structure WalWriter where
  /-- Sent and not yet received by the writer task. -/
  channel : List Operation
  /-- Whether the writer task has been notified. It notices only once, however often it was. -/
  flushTrigger : Bool
  batch : List Operation
  batchSize : Nat
  /-- `db_<id>/wal.bin` of each database. -/
  walBin : UInt32 → Bytes

inductive WalEvent where
  | sendOperation (op : Operation)
  | flushNow
  | tick
  | notified
  | receive
  deriving DecidableEq

def WalEvent.sent : WalEvent → Option Operation
  | .sendOperation op => some op
  | _ => none

/-- The operations sent in a run, in the order they were sent. -/
def sentBy (events : List WalEvent) : List Operation := events.filterMap WalEvent.sent

def groupBatch (batch : List Operation) : IndexMap UInt32 (List Operation) :=
  batch.foldl (fun groups op => groups.insert op.dbId (groups.getD op.dbId [] ++ [op])) ∅

namespace WalWriter

def new (batchSize : Nat) (walBin : UInt32 → Bytes) : WalWriter := ⟨[], false, [], batchSize, walBin⟩

section

variable (serialize : Operation → Except String Bytes)

/-- An operation that cannot be serialized is left out. -/
def record (op : Operation) : Bytes :=
  match serialize op with
  | .ok encoded => Framing.frame encoded
  | .error _ => []

variable [Externals]

def writeBatch (batch : List Operation) (walBin : UInt32 → Bytes) : UInt32 → Bytes :=
  (hashOrder (groupBatch batch).entries).foldl
    (fun walBin group =>
      Function.update walBin group.1 (walBin group.1 ++ group.2.flatMap (record serialize)))
    walBin

variable (w : WalWriter)

def writeOut : WalWriter :=
  { w with walBin := writeBatch serialize w.batch w.walBin, batch := [] }

def writePending : WalWriter := if w.batch.isEmpty then w else w.writeOut serialize

def receive : WalWriter :=
  match w.channel with
  | [] => w
  | op :: channel =>
    let w := { w with channel := channel, batch := w.batch ++ [op] }
    if w.batchSize ≤ w.batch.length then w.writeOut serialize else w

def step (e : WalEvent) : WalWriter :=
  match e with
  | .sendOperation op => { w with channel := w.channel ++ [op] }
  | .flushNow => { w with flushTrigger := true }
  | .tick => w.writePending serialize
  | .notified =>
    if w.flushTrigger then { w with flushTrigger := false }.writePending serialize else w
  | .receive => w.receive serialize

def run (events : List WalEvent) : WalWriter := events.foldl (step serialize) w

end

end WalWriter

end Skvs
