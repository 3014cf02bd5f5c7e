import Skvs.Api
import Skvs.Wal

/-!
# The HTTP server

A request is turned away unless it comes from a trusted address and with the key. Routes name their
database; its id is looked up once and then remembered. SQL goes to the engine. A row of a raw table
is put or deleted at once and the operation is sent to the writer of the log; the peer's operations
are applied without being sent there.
-/

namespace Skvs

structure HttpConfig where
  trustedIps : Option (List String)
  secretKey : Option String

structure DatabaseConfig where
  id : UInt32
  name : String

/-- The names of the databases, and the part of them that has been looked up before. -/
structure DbNames where
  dbNameToId : IndexMap String UInt32
  dbNameCache : IndexMap String UInt32
  cached : ∀ name id, dbNameCache.get name = some id → dbNameToId.get name = some id

namespace DbNames

def new (databases : List DatabaseConfig) : DbNames where
  dbNameToId := .ofList (databases.map fun db => (db.name, db.id))
  dbNameCache := ∅
  cached _ _ h := nomatch h

variable (names : DbNames) (name : String)

def getDbIdByName : Option UInt32 := names.dbNameToId.get name

def remember (id : UInt32) (h : names.getDbIdByName name = some id) : DbNames where
  dbNameToId := names.dbNameToId
  dbNameCache := names.dbNameCache.insert name id
  cached name' id' h' := by
    rw [IndexMap.get_insert] at h'
    split_ifs at h' with heq
    · rw [heq, ← Option.some.inj h']
      exact h
    · exact names.cached name' id' h'

def getDbId : Option UInt32 × DbNames :=
  match names.dbNameCache.get name with
  | some id => (some id, names)
  | none =>
    match h : names.getDbIdByName name with
    | some id => (some id, names.remember name id h)
    | none => (none, names)

end DbNames

inductive Route where
  | query (dbName sql : String) (params : Option (List JsonValue)) (txId : Option UInt32)
  | beginTransaction (dbName : String)
  | commitTransaction (txId : UInt32)
  | rollbackTransaction (txId : UInt32)
  | putRow (dbName tableName rowKey : String) (value : Option JsonValue)
  | getRow (dbName tableName rowKey : String)
  | deleteRow (dbName tableName rowKey : String)
  | flush

structure HttpRequest where
  clientIp : String
  /-- The header `x-api-key`. -/
  apiKey : Option String
  route : Route

inductive HttpBody where
  | empty
  | error (message : String)
  | result (r : QueryResponse)
  | txId (id : UInt32)
  | value (base64 : String)

structure HttpResponse where
  status : Nat
  body : HttpBody

namespace HttpResponse

def noContent : HttpResponse := ⟨204, .empty⟩

def databaseNotFound : HttpResponse := ⟨404, .error "Database not found"⟩

/-- A reply of the engine. Where the engine stops without one, so does the server. -/
def ofReply (onError : SkvsError → HttpResponse) : Except Fail Reply → Option HttpResponse
  | .ok (.response r) => some ⟨200, .result r⟩
  | .ok (.txId id) => some ⟨200, .txId id⟩
  | .ok .done => some noContent
  | .error (.err e) => some (onError e)
  | .error _ => none

end HttpResponse

/-- The values that count as false in JavaScript. -/
def JsonValue.falsy : JsonValue → Bool
  | .null => true
  | .bool b => !b
  | .number n => n.asF64.isZero
  | .string s => s.isEmpty
  | .array _ => false
  | .object _ => false

namespace HttpConfig

variable (config : HttpConfig) (ipRangeCheck : String → String → Bool)

def checkIp (clientIp : String) : Bool :=
  let clientIp :=
    if "::ffff:".toList.isPrefixOf clientIp.toList then String.ofList (clientIp.toList.drop 7)
    else clientIp
  (config.trustedIps.getD ["127.0.0.1"]).any fun range => ipRangeCheck clientIp range

/-- An empty key in the configuration counts as none. -/
def checkApiKey : Option String → Bool
  | none => false
  | some key =>
    !key.isEmpty && key == ((config.secretKey.filter fun k => !k.isEmpty).getD "change-me")

end HttpConfig

/-- What the server is built on: address ranges, base64, and how an operation is serialized. -/
structure Platform where
  ipRangeCheck : String → String → Bool
  bufferFromBase64 : String → Bytes
  bufferToBase64 : Bytes → String
  base64Decode : String → Option Bytes
  serialize : Operation → Except String Bytes

structure HttpServer where
  world : World
  raw : RawState
  wal : WalWriter
  names : DbNames

namespace HttpServer

variable [Externals] (platform : Platform) (fuel : Nat) (s : HttpServer)

/-! ### The calls of the addon -/

def serve (dbId : UInt32) (r : Request) (onError : SkvsError → HttpResponse) :
    Option HttpResponse × HttpServer :=
  let (reply, world) := Prog.exec (r.serve platform.base64Decode fuel dbId) s.world
  (HttpResponse.ofReply onError reply, { s with world := world })

def put (env : Surroundings) (dbId : UInt32) (table : String) (key value : Bytes) : HttpServer :=
  { s with
    raw := s.raw.putRaw dbId table key value env
    wal := s.wal.step platform.serialize (.sendOperation ⟨dbId, table, .put key value⟩) }

def remove (dbId : UInt32) (table : String) (key : Bytes) : HttpServer :=
  { s with
    raw := s.raw.removeRaw dbId table key
    wal := s.wal.step platform.serialize (.sendOperation ⟨dbId, table, .delete key⟩) }

def flush : HttpServer := { s with wal := s.wal.step platform.serialize .flushNow }

/-! ### The routes -/

def withDb (dbName : String) (handler : HttpServer → UInt32 → Option HttpResponse × HttpServer) :
    Option HttpResponse × HttpServer :=
  let (dbId, names) := s.names.getDbId dbName
  let s := { s with names := names }
  match dbId with
  | some dbId => handler s dbId
  | none => (some .databaseNotFound, s)

def putRow (env : Surroundings) (dbName tableName rowKey : String) (value : Option JsonValue) :
    Option HttpResponse × HttpServer :=
  match value.filter fun v => !v.falsy with
  | none => (some ⟨400, .error "\"value\" field is required"⟩, s)
  | some value =>
    s.withDb dbName fun s dbId =>
      match value with
      | .string text =>
        (some .noContent,
          s.put platform env dbId tableName (utf8 rowKey) (platform.bufferFromBase64 text))
      | _ => (some ⟨400, .error "Unsupported value type"⟩, s)

def getRow (dbName tableName rowKey : String) : Option HttpResponse × HttpServer :=
  s.withDb dbName fun s dbId =>
    match s.raw.getRaw dbId tableName (utf8 rowKey) with
    | none => (some ⟨404, .error "Row not found"⟩, s)
    | some value => (some ⟨200, .value (platform.bufferToBase64 value)⟩, s)

def deleteRow (dbName tableName rowKey : String) : Option HttpResponse × HttpServer :=
  s.withDb dbName fun s dbId =>
    (some .noContent, s.remove platform dbId tableName (utf8 rowKey))

def badRequest (e : SkvsError) : HttpResponse := ⟨400, .error e.toString⟩

/-- COMMIT and ROLLBACK name no database: the id of the transaction is enough. -/
def route (env : Surroundings) : Route → Option HttpResponse × HttpServer
  | .query dbName sql params txId =>
    s.withDb dbName fun s dbId =>
      s.serve platform fuel dbId (.query sql (params.getD []) txId) badRequest
  | .beginTransaction dbName =>
    s.withDb dbName fun s dbId =>
      s.serve platform fuel dbId .beginTransaction fun _ => ⟨500, .error "Internal server error"⟩
  | .commitTransaction txId => s.serve platform fuel 0 (.commitTransaction txId) badRequest
  | .rollbackTransaction txId => s.serve platform fuel 0 (.rollbackTransaction txId) badRequest
  | .putRow dbName tableName rowKey value => s.putRow platform env dbName tableName rowKey value
  | .getRow dbName tableName rowKey => s.getRow platform dbName tableName rowKey
  | .deleteRow dbName tableName rowKey => s.deleteRow platform dbName tableName rowKey
  | .flush => (some .noContent, s.flush platform)

variable (config : HttpConfig)

def handle (env : Surroundings) (r : HttpRequest) : Option HttpResponse × HttpServer :=
  if !config.checkIp platform.ipRangeCheck r.clientIp then
    (some ⟨403, .error "Access denied: IP not allowed"⟩, s)
  else if !config.checkApiKey r.apiKey then
    (some ⟨403, .error "Access denied: invalid API key"⟩, s)
  else s.route platform fuel env r.route

end HttpServer

/-! ### Runs -/

inductive HttpEvent where
  | request (r : HttpRequest) (env : Surroundings)
  /-- The timer of the writer task ticks. -/
  | tick
  /-- The writer task notices that it was notified. -/
  | notified
  /-- The writer task receives an operation. -/
  | receive
  /-- An operation of the peer arrives. -/
  | replicated (o : Operation) (env : Surroundings)

section

variable [Externals] (platform : Platform) (fuel : Nat) (config : HttpConfig)

def HttpEvent.step (e : HttpEvent) (s : HttpServer) : HttpServer :=
  match e with
  | .request r env => (s.handle platform fuel config env r).2
  | .tick => { s with wal := s.wal.step platform.serialize .tick }
  | .notified => { s with wal := s.wal.step platform.serialize .notified }
  | .receive => { s with wal := s.wal.step platform.serialize .receive }
  | .replicated o env => { s with raw := o.applyTo env s.raw }

def runHttp (events : List HttpEvent) (s : HttpServer) : HttpServer :=
  events.foldl (fun s e => e.step platform fuel config s) s

end

end Skvs
