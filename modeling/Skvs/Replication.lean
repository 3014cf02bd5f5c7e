import Skvs.Raw
import Skvs.Lib.Exchange

/-!
# Replication of raw tables

A server applies a call at once and queues it. The writer task takes the queue up into batches and
sends each batch to the peer, and the peer applies the operations of a batch one by one as it
arrives, with nothing that says which of two operations on a key is the newer one.
-/

namespace Skvs

inductive OpType where
  | put (key value : Bytes)
  | delete (key : Bytes)
  deriving DecidableEq

structure Operation where
  dbId : UInt32
  table : String
  op : OpType
  deriving DecidableEq

/-- What both `put` and `remove`, and the peer that is told of them, do to the raw tables. -/
def Operation.applyTo (o : Operation) (env : Surroundings) (s : RawState) : RawState :=
  match o.op with
  | .put key value => s.putRaw o.dbId o.table key value env
  | .delete key => s.removeRaw o.dbId o.table key

structure Replica where
  raw : RawState
  /-- Sent to the writer task and not yet received by it. -/
  channel : List Operation
  batch : List Operation
  batchSize : Nat
  /-- Batches that the peer has sent, the oldest first. -/
  arriving : List (List Operation)
  /-- What is left of the batch that is being applied. -/
  applying : List Operation

open Exchange (Side)

abbrev Replicas := Side → Replica

inductive ReplicaEvent where
  /-- `put` or `remove` is called at a server. -/
  | call (side : Side) (o : Operation) (env : Surroundings)
  /-- The writer task receives an operation from its channel. -/
  | receive (side : Side)
  /-- The timer ticks, or `flush` is called. -/
  | flush (side : Side)
  /-- The oldest batch arrives. -/
  | deliver (side : Side)
  | apply (side : Side) (env : Surroundings)

def sendBatch (side : Side) (w : Replicas) : Replicas :=
  let sent := Function.update w side.peer
    { w side.peer with arriving := (w side.peer).arriving ++ [(w side).batch] }
  Function.update sent side { sent side with batch := [] }

def callAt (side : Side) (o : Operation) (env : Surroundings) (w : Replicas) : Replicas :=
  Function.update w side
    { w side with raw := o.applyTo env (w side).raw, channel := (w side).channel ++ [o] }

def receiveAt (side : Side) (w : Replicas) : Replicas :=
  match (w side).channel with
  | [] => w
  | o :: channel =>
    let w := Function.update w side
      { w side with channel := channel, batch := (w side).batch ++ [o] }
    if (w side).batchSize ≤ (w side).batch.length then sendBatch side w else w

def flushAt (side : Side) (w : Replicas) : Replicas :=
  if (w side).batch.isEmpty then w else sendBatch side w

/-- A batch is applied to its end before the next one is received. -/
def deliverAt (side : Side) (w : Replicas) : Replicas :=
  match (w side).applying, (w side).arriving with
  | [], ops :: arriving =>
    Function.update w side { w side with arriving := arriving, applying := ops }
  | _, _ => w

def applyAt (side : Side) (env : Surroundings) (w : Replicas) : Replicas :=
  match (w side).applying with
  | [] => w
  | o :: ops =>
    Function.update w side { w side with raw := o.applyTo env (w side).raw, applying := ops }

def ReplicaEvent.step (e : ReplicaEvent) (w : Replicas) : Replicas :=
  match e with
  | .call side o env => callAt side o env w
  | .receive side => receiveAt side w
  | .flush side => flushAt side w
  | .deliver side => deliverAt side w
  | .apply side env => applyAt side env w

def runReplicas (events : List ReplicaEvent) (w : Replicas) : Replicas :=
  events.foldl (fun w e => e.step w) w

/-- No operation is pending or in flight. -/
def Quiescent (w : Replicas) : Prop :=
  ∀ side, (w side).channel = [] ∧ (w side).batch = [] ∧ (w side).arriving = [] ∧
    (w side).applying = []

end Skvs
