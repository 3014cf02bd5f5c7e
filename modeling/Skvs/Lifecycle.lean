import Skvs.Http
import Skvs.Snapshot

/-!
# The life of a server

A process starts from what is on disk, serves requests while its writer task saves at every tick,
and dies at any moment, also in the middle of a save. The snapshot files, the overflow files and the
logs outlive it, and the next process starts from them.
-/

namespace Skvs

structure StorageConfig where
  baseDir : String

structure WalConfig where
  batchSize : Nat

structure MemoryConfig where
  maxEntriesPerTable : Nat

structure Config where
  storage : StorageConfig
  wal : WalConfig
  http : HttpConfig
  databases : List DatabaseConfig
  memory : MemoryConfig

def Config.ids (config : Config) : List UInt32 := config.databases.map DatabaseConfig.id

/-- A process and the snapshot files. Overflow files and logs are with the parts that write them. -/
structure Host where
  server : HttpServer
  disk : Disk

/-- What a save saves. -/
def HttpServer.snapshot (s : HttpServer) : Server := ⟨s.world.kvs, s.raw⟩

section

variable [Externals] (config : Config) (workingDir : Path.Resolved)

def HttpServer.init (disk : Disk) (files : IndexMap Path.Resolved Bytes)
    (walBin : UInt32 → Bytes) : HttpServer :=
  let loaded := Server.loadSqlSnapshot disk (Server.fresh config.ids
    config.memory.maxEntriesPerTable s!"{config.storage.baseDir}/overflow" workingDir files)
  { world := ⟨loaded.kvs, []⟩
    raw := loaded.raw
    wal := .new config.wal.batchSize walBin
    names := .new config.databases }

namespace Host

/-- The first process, before there is anything on disk. -/
def first : Host := ⟨.init config workingDir .empty ∅ fun _ => [], .empty⟩

def save (w : Host) (steps : List DiskStep) : Host := { w with disk := w.disk.run steps }

/-- The process dies and another one is started. -/
def restart (w : Host) : Host :=
  { w with server := .init config workingDir w.disk w.server.raw.files w.server.wal.walBin }

end Host

inductive HostEvent where
  | http (e : HttpEvent)
  /-- The process dies, but not in a save. -/
  | crash
  /-- The process dies after so many steps of the save at a tick. -/
  | crashInSave (steps : Nat)

/-- Whether the writer task saves in this step. -/
def HttpEvent.saves (s : HttpServer) : HttpEvent → Bool
  | .tick => true
  | .notified => s.wal.flushTrigger
  | _ => false

variable (platform : Platform) (fuel : Nat)

def HostEvent.step (e : HostEvent) (w : Host) : Host :=
  match e with
  | .http e =>
    let server := e.step platform fuel config.http w.server
    if e.saves w.server then { w with server }.save server.snapshot.saveSqlSnapshot
    else { w with server }
  | .crash => w.restart config workingDir
  | .crashInSave steps =>
    let server := HttpEvent.tick.step platform fuel config.http w.server
    ({ w with server }.save (server.snapshot.saveSqlSnapshot.take steps)).restart config workingDir

def runHost (events : List HostEvent) (w : Host) : Host :=
  events.foldl (fun w e => e.step config workingDir platform fuel w) w

end

end Skvs
