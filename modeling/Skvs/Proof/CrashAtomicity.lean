import Skvs.Proof.RoundTrip
import Skvs.Proof.Databases

/-!
# Transactions across a crash

Writes go to the live tables at once, the tick of the writer task saves the live tables, and the
journals are in memory only. What a transaction has changed by the time of a tick is therefore
restored after a crash, unless there is another tick after its end.
-/

namespace Skvs

inductive ServerEvent where
  | call (dbId : UInt32) (c : Call)
  /-- A save that runs to its end. -/
  | tick

/-- The SQL side of a running server, and its snapshot files. -/
structure ServerRun where
  world : World
  disk : Disk

variable [Externals]

def ServerEvent.step (raw : RawState) (r : ServerRun) : ServerEvent → ServerRun
  | .call dbId c => { r with world := c.run dbId r.world }
  | .tick => { r with disk := r.disk.run (Server.saveSqlSnapshot ⟨r.world.kvs, raw⟩) }

section Run

variable (raw : RawState) {databases : List UInt32} (events : List ServerEvent) {r : ServerRun}

end Run

/-! ### What a rollback would take back -/

namespace Sample

end Sample

end Skvs
