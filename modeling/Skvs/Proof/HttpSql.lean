import Skvs.Proof.DatabaseIsolation
import Skvs.Proof.HttpRows

/-!
# SQL over HTTP

Between the engine and its clients there are the checks of address and key, the names of databases,
the raw tables, the log and the peer. SQL passes through unchanged: the engine serves the accepted
requests in their order and nothing else, and a client is answered what it would be told by the
engine.
-/

namespace Skvs

open Prog

section

variable (dbNameToId : IndexMap String UInt32)

/-- The request that the engine gets for a route. -/
def Route.request : Route → Option (UInt32 × Request)
  | .query dbName sql params txId =>
    (dbNameToId.get dbName).map fun dbId => (dbId, .query sql (params.getD []) txId)
  | .beginTransaction dbName => (dbNameToId.get dbName).map fun dbId => (dbId, .beginTransaction)
  | .commitTransaction txId => some (0, .commitTransaction txId)
  | .rollbackTransaction txId => some (0, .rollbackTransaction txId)
  | _ => none

/-- How an error of the engine is told. -/
def Route.onError : Route → SkvsError → HttpResponse
  | .beginTransaction _ => fun _ => ⟨500, .error "Internal server error"⟩
  | _ => HttpServer.badRequest

variable (platform : Platform) (config : HttpConfig)

def HttpRequest.request (r : HttpRequest) : Option (UInt32 × Request) :=
  if config.accepts platform r then r.route.request dbNameToId else none

def HttpEvent.served : HttpEvent → Option (UInt32 × Request)
  | .request r _ => r.request dbNameToId platform config
  | _ => none

def requestsIn (events : List HttpEvent) : List (UInt32 × Request) :=
  events.filterMap (HttpEvent.served dbNameToId platform config)

end

section

variable [Externals] {platform : Platform} {fuel : Nat} {env : Surroundings}

/-- A route answers what the engine answers to its request, and the engine has served that request
alone. -/
structure Passed (platform : Platform) (fuel : Nat) (r : Option (UInt32 × Request))
    (onError : SkvsError → HttpResponse) (s : HttpServer)
    (out : Option HttpResponse × HttpServer) : Prop where
  world : out.2.world = serveAll platform.base64Decode fuel r.toList s.world
  response : ∀ q, r = some q → out.1 = HttpResponse.ofReply onError
    (exec (q.2.serve platform.base64Decode fuel q.1) s.world).1

theorem passed_none {onError : SkvsError → HttpResponse} {s : HttpServer}
    {out : Option HttpResponse × HttpServer} (h : out.2.world = s.world) :
    Passed platform fuel none onError s out := ⟨h, fun _ hnone => by cases hnone⟩

theorem passed_serve (dbId : UInt32) (r : Request) (onError : SkvsError → HttpResponse)
    (s : HttpServer) :
    Passed platform fuel (some (dbId, r)) onError s (s.serve platform fuel dbId r onError) := by
  refine ⟨rfl, fun q hq => ?_⟩
  obtain rfl := Option.some.inj hq
  rfl

theorem passed_withDb (dbName : String) (request : Request) (onError : SkvsError → HttpResponse)
    (s : HttpServer) :
    Passed platform fuel ((s.names.getDbIdByName dbName).map fun dbId => (dbId, request)) onError s
      (s.withDb dbName fun s dbId => s.serve platform fuel dbId request onError) := by
  unfold HttpServer.withDb
  rw [← s.names.getDbId_fst dbName]
  cases hfound : (s.names.getDbId dbName).1 with
  | none =>
      simp only [hfound]
      exact passed_none rfl
  | some dbId =>
      simp only [hfound]
      exact ⟨rfl, fun q hq => by rw [← Option.some.inj hq]; rfl⟩

omit [Externals] in
theorem world_withDb {dbName : String} {s : HttpServer}
    {handler : HttpServer → UInt32 → Option HttpResponse × HttpServer}
    (h : ∀ s dbId, (handler s dbId).2.world = s.world) :
    (s.withDb dbName handler).2.world = s.world := by
  unfold HttpServer.withDb
  cases hfound : (s.names.getDbId dbName).1 with
  | none => simp only [hfound]
  | some dbId =>
      simp only [hfound]
      exact h { s with names := (s.names.getDbId dbName).2 } dbId

theorem passed_route (r : Route) (s : HttpServer) :
    Passed platform fuel (r.request s.names.dbNameToId) r.onError s
      (s.route platform fuel env r) := by
  cases r with
  | query dbName sql params txId =>
      exact passed_withDb dbName _ _ s
  | beginTransaction dbName => exact passed_withDb dbName _ _ s
  | commitTransaction txId => exact passed_serve 0 _ _ s
  | rollbackTransaction txId => exact passed_serve 0 _ _ s
  | putRow dbName tableName rowKey value =>
      refine passed_none ?_
      rw [HttpServer.route, HttpServer.putRow]
      cases value.filter fun v => !v.falsy with
      | none => rfl
      | some value =>
          refine world_withDb fun s dbId => ?_
          cases value <;> rfl
  | getRow dbName tableName rowKey =>
      refine passed_none (world_withDb fun s dbId => ?_)
      split <;> rfl
  | deleteRow dbName tableName rowKey => exact passed_none (world_withDb fun _ _ => rfl)
  | flush => exact passed_none rfl

variable (config : HttpConfig)

/-- A request that is turned away is none. -/
theorem passed_handle (r : HttpRequest) (s : HttpServer) :
    Passed platform fuel (r.request s.names.dbNameToId platform config) r.route.onError s
      (s.handle platform fuel config env r) := by
  rw [HttpRequest.request]
  cases haccepts : config.accepts platform r with
  | true =>
      rw [handle_of_accepts config fuel haccepts]
      exact passed_route r.route s
  | false => exact passed_none (by rw [handle_of_not_accepts config fuel haccepts])

theorem step_world (e : HttpEvent) (s : HttpServer) :
    (e.step platform fuel config s).world = serveAll platform.base64Decode fuel
      (e.served s.names.dbNameToId platform config).toList s.world := by
  cases e with
  | request r env => exact (passed_handle config r s).world
  | tick | notified | receive | replicated => rfl

/-- **SQL over HTTP is SQL.** After any run of requests, steps of the writer loop and operations of
the peer, the engine is where the accepted SQL requests of the run lead it, served one after the
other; and the next accepted one is answered what the engine answers there. -/
theorem http_serves_sql (events : List HttpEvent) (s : HttpServer) :
    let dbNameToId := s.names.dbNameToId
    let s' := runHttp platform fuel config events s
    s'.world = serveAll platform.base64Decode fuel (requestsIn dbNameToId platform config events)
        s.world ∧
      ∀ (r : HttpRequest) (env : Surroundings) (dbId : UInt32) (request : Request),
        r.request dbNameToId platform config = some (dbId, request) →
          (s'.handle platform fuel config env r).1 = HttpResponse.ofReply r.route.onError
            (exec (request.serve platform.base64Decode fuel dbId) s'.world).1 := by
  intro dbNameToId s'
  have hnames : s'.names.dbNameToId = dbNameToId :=
    (run_http platform fuel config events s).2.2
  refine ⟨?_, fun r env dbId request hrequest => ?_⟩
  · clear hnames
    change (runHttp platform fuel config events s).world = _
    induction events generalizing s with
    | nil => rfl
    | cons e events ih =>
        have hstep := (step_http platform fuel config e s).2.2
        have hrest := ih (e.step platform fuel config s)
        rw [hstep, step_world] at hrest
        refine hrest.trans ?_
        rw [requestsIn, requestsIn, List.filterMap_cons]
        cases e.served dbNameToId platform config <;> rfl
  · rw [← hnames] at hrequest
    exact (passed_handle config r s').response (dbId, request) hrequest

end

/-- A table is created and gets a row. The client without the key inserts nothing. -/
def Sample.sqlEvents : List HttpEvent :=
  [.request (trusted (.query "default" "create" none none)) calm,
    .request ⟨"127.0.0.1", none, .query "default" "insert" none none⟩ calm,
    .request (trusted (.putRow "default" "t" "a" (some (.string "AQ==")))) calm, .receive,
    .request (trusted (.query "default" "insert" none none)) calm]

theorem http_serves_sql_insert :
    letI := Externals.ofTexts [("create", [Sample.create []]),
      ("insert", [Sample.insert [.number "1"]])] []
    let s' := runHttp Sample.platform 3 Sample.httpConfig Sample.sqlEvents Sample.httpServer
    s'.world.kvs.rowAt 0 "t" 1 = some (Sample.row 1) ∧ s'.world.kvs.rowAt 0 "t" 2 = none ∧
      (s'.handle Sample.platform 3 Sample.httpConfig Sample.calm
        (Sample.trusted (.query "default" "insert" none none))).1 =
          HttpResponse.ofReply HttpServer.badRequest
            (exec (Request.serve (fun _ => none) 3 0 (.query "insert" [] none)) s'.world).1 := by
  let _ := Externals.ofTexts [("create", [Sample.create []]),
    ("insert", [Sample.insert [.number "1"]])] []
  exact ⟨by decide, by decide,
    (http_serves_sql Sample.httpConfig Sample.sqlEvents Sample.httpServer).2 _ Sample.calm 0 _ rfl⟩

end Skvs
