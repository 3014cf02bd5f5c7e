import Skvs.Http
import Skvs.Proof.Convergence
import Skvs.Proof.RawIsolation
import Skvs.Proof.WalOrder

/-!
# Rows over HTTP

To a client the raw tables are maps from rows to values. A row is answered with what the last
accepted PUT left there, whichever databases were looked up before, whatever was spilled to disk and
whatever SQL ran in between. The log of a database, with what the writer task has yet to write,
tells the same.
-/

namespace Skvs

open WalWriter

namespace DbNames

variable (names : DbNames) (name : String)

/-- What is remembered is what would be looked up. -/
theorem getDbId_fst : (names.getDbId name).1 = names.getDbIdByName name := by
  unfold getDbId
  cases hcache : names.dbNameCache.get name with
  | some id => exact (names.cached name id hcache).symm
  | none =>
      dsimp only
      split
      · next id h => exact h.symm
      · next h => exact h.symm

theorem getDbId_snd : (names.getDbId name).2.dbNameToId = names.dbNameToId := by
  unfold getDbId
  cases names.dbNameCache.get name with
  | some id => rfl
  | none =>
      dsimp only
      split <;> rfl

end DbNames

/-! ### What a request asks of the raw tables -/

section

variable (platform : Platform) (dbNameToId : IndexMap String UInt32)

def Route.operation : Route → Option Operation
  | .putRow dbName tableName rowKey (some (.string text)) =>
    if text.isEmpty then none
    else (dbNameToId.get dbName).map fun dbId =>
      ⟨dbId, tableName, .put (utf8 rowKey) (platform.bufferFromBase64 text)⟩
  | .deleteRow dbName tableName rowKey =>
    (dbNameToId.get dbName).map fun dbId => ⟨dbId, tableName, .delete (utf8 rowKey)⟩
  | _ => none

variable (config : HttpConfig)

def HttpConfig.accepts (r : HttpRequest) : Bool :=
  config.checkIp platform.ipRangeCheck r.clientIp && config.checkApiKey r.apiKey

/-- The operation that a client has the server carry out and log. -/
def HttpRequest.operation (r : HttpRequest) : Option Operation :=
  if config.accepts platform r then r.route.operation platform dbNameToId else none

def HttpEvent.operation : HttpEvent → Option Operation
  | .request r _ => r.operation platform dbNameToId config
  | _ => none

/-- What the server does to its raw tables. -/
def HttpEvent.applied : HttpEvent → Option Applied
  | .request r env => (r.operation platform dbNameToId config).map fun o => ⟨true, o, env⟩
  | .replicated o env => some ⟨false, o, env⟩
  | _ => none

variable [Externals]

/-- A request has done to the server's rows and to its log what was asked. -/
structure Asked (o : Option Operation) (env : Surroundings) (s s' : HttpServer) : Prop where
  raw : s'.raw = runRaw (o.map fun o => o.call env).toList s.raw
  log : ∃ events, s'.wal = s.wal.run platform.serialize events ∧ sentBy events = o.toList
  dbNames : s'.names.dbNameToId = s.names.dbNameToId

end

section Handlers

variable [Externals] {platform : Platform} {s s' : HttpServer} {env : Surroundings}

theorem Asked.refl : Asked platform none env s s := ⟨rfl, ⟨[], rfl, rfl⟩, rfl⟩

theorem asked_serve (fuel : Nat) (dbId : UInt32) (r : Request)
    (onError : SkvsError → HttpResponse) :
    Asked platform none env s (s.serve platform fuel dbId r onError).2 :=
  ⟨rfl, ⟨[], rfl, rfl⟩, rfl⟩

theorem asked_put (dbId : UInt32) (table : String) (key value : Bytes) :
    Asked platform (some ⟨dbId, table, .put key value⟩) env s
      (s.put platform env dbId table key value) :=
  ⟨rfl, ⟨[.sendOperation ⟨dbId, table, .put key value⟩], rfl, rfl⟩, rfl⟩

theorem asked_remove (dbId : UInt32) (table : String) (key : Bytes) :
    Asked platform (some ⟨dbId, table, .delete key⟩) env s (s.remove platform dbId table key) :=
  ⟨rfl, ⟨[.sendOperation ⟨dbId, table, .delete key⟩], rfl, rfl⟩, rfl⟩

theorem asked_flush : Asked platform none env s (s.flush platform) :=
  ⟨rfl, ⟨[.flushNow], rfl, rfl⟩, rfl⟩

theorem asked_withDb {dbName : String}
    {handler : HttpServer → UInt32 → Option HttpResponse × HttpServer}
    {operation : UInt32 → Option Operation}
    (h : ∀ s dbId, Asked platform (operation dbId) env s (handler s dbId).2) :
    Asked platform ((s.names.getDbIdByName dbName).bind operation) env s
      (s.withDb dbName handler).2 := by
  unfold HttpServer.withDb
  rw [← s.names.getDbId_fst dbName]
  have hsnd := s.names.getDbId_snd dbName
  cases hfound : (s.names.getDbId dbName).1 with
  | none =>
      simp only [hfound]
      exact ⟨rfl, ⟨[], rfl, rfl⟩, hsnd⟩
  | some dbId =>
      simp only [hfound]
      obtain ⟨hraw, hlog, hnames⟩ := h { s with names := (s.names.getDbId dbName).2 } dbId
      exact ⟨hraw, hlog, hnames.trans hsnd⟩

theorem asked_withDb_none {dbName : String}
    {handler : HttpServer → UInt32 → Option HttpResponse × HttpServer}
    (h : ∀ s dbId, Asked platform none env s (handler s dbId).2) :
    Asked platform none env s (s.withDb dbName handler).2 := by
  rw [← Option.bind_fun_none (s.names.getDbIdByName dbName)]
  exact asked_withDb h

theorem asked_putRow (dbName tableName rowKey : String) (value : Option JsonValue) :
    Asked platform
      (Route.operation platform s.names.dbNameToId (.putRow dbName tableName rowKey value)) env s
      (s.putRow platform env dbName tableName rowKey value).2 := by
  unfold HttpServer.putRow
  cases value with
  | none => exact .refl
  | some value =>
      cases hfalsy : value.falsy with
      | true =>
          rw [Option.filter_some, if_neg (by rw [hfalsy]; decide)]
          cases value with
          | string text =>
              have hempty : text.isEmpty = true := hfalsy
              rw [Route.operation, if_pos hempty]
              exact .refl
          | _ => exact .refl
      | false =>
          rw [Option.filter_some, if_pos (by rw [hfalsy]; rfl)]
          cases value with
          | string text =>
              have hempty : text.isEmpty = false := hfalsy
              rw [Route.operation, if_neg (by rw [hempty]; decide), Option.map_eq_bind]
              exact asked_withDb fun _ dbId => asked_put dbId tableName _ _
          | _ => exact asked_withDb_none fun _ _ => .refl

theorem asked_route (fuel : Nat) (r : Route) :
    Asked platform (r.operation platform s.names.dbNameToId) env s
      (s.route platform fuel env r).2 := by
  cases r with
  | query dbName sql params txId => exact asked_withDb_none fun _ dbId => asked_serve fuel dbId _ _
  | beginTransaction dbName => exact asked_withDb_none fun _ dbId => asked_serve fuel dbId _ _
  | commitTransaction txId => exact asked_serve fuel 0 _ _
  | rollbackTransaction txId => exact asked_serve fuel 0 _ _
  | putRow dbName tableName rowKey value => exact asked_putRow dbName tableName rowKey value
  | getRow dbName tableName rowKey =>
      refine asked_withDb_none fun s dbId => ?_
      split <;> exact .refl
  | deleteRow dbName tableName rowKey =>
      rw [Route.operation, Option.map_eq_bind]
      exact asked_withDb fun _ dbId => asked_remove dbId tableName _
  | flush => exact asked_flush

variable (config : HttpConfig)

theorem handle_of_accepts (fuel : Nat) {r : HttpRequest} (h : config.accepts platform r = true) :
    s.handle platform fuel config env r = s.route platform fuel env r.route := by
  obtain ⟨hip, hkey⟩ := Bool.and_eq_true_iff.mp h
  rw [HttpServer.handle, hip, hkey]
  rfl

/-- A request that is turned away changes nothing. -/
theorem handle_of_not_accepts (fuel : Nat) {r : HttpRequest}
    (h : config.accepts platform r = false) :
    (s.handle platform fuel config env r).2 = s := by
  unfold HttpServer.handle
  rcases Bool.and_eq_false_iff.mp h with hip | hkey
  · rw [hip]
    rfl
  · rw [hkey]
    cases config.checkIp platform.ipRangeCheck r.clientIp <;> rfl

theorem asked_handle (fuel : Nat) (r : HttpRequest) :
    Asked platform (r.operation platform s.names.dbNameToId config) env s
      (s.handle platform fuel config env r).2 := by
  rw [HttpRequest.operation]
  cases haccepts : config.accepts platform r with
  | true =>
      rw [handle_of_accepts config fuel haccepts]
      exact asked_route fuel r.route
  | false =>
      rw [handle_of_not_accepts config fuel haccepts]
      exact .refl

end Handlers

/-! ### Runs -/

section Runs

variable [Externals] (platform : Platform) (fuel : Nat) (config : HttpConfig)

/-- What one event does to rows, log and names. -/
theorem step_http (e : HttpEvent) (s : HttpServer) :
    let s' := e.step platform fuel config s
    s'.raw = runRaw
        ((e.applied platform s.names.dbNameToId config).map Applied.call).toList s.raw ∧
      (∃ events, s'.wal = s.wal.run platform.serialize events ∧
        sentBy events = (e.operation platform s.names.dbNameToId config).toList) ∧
      s'.names.dbNameToId = s.names.dbNameToId := by
  intro s'
  cases e with
  | request r env =>
      have hasked : Asked platform (r.operation platform s.names.dbNameToId config) env s s' :=
        asked_handle config fuel r
      obtain ⟨hraw, hlog, hnames⟩ := hasked
      refine ⟨?_, hlog, hnames⟩
      rw [HttpEvent.applied, Option.map_map]
      exact hraw
  | tick => exact ⟨rfl, ⟨[.tick], rfl, rfl⟩, rfl⟩
  | notified => exact ⟨rfl, ⟨[.notified], rfl, rfl⟩, rfl⟩
  | receive => exact ⟨rfl, ⟨[.receive], rfl, rfl⟩, rfl⟩
  | replicated o env => exact ⟨(o.run_call env s.raw).symm, ⟨[], rfl, rfl⟩, rfl⟩

def appliedIn (dbNameToId : IndexMap String UInt32) (events : List HttpEvent) : List Applied :=
  events.filterMap (HttpEvent.applied platform dbNameToId config)

def operationsIn (dbNameToId : IndexMap String UInt32) (events : List HttpEvent) :
    List Operation :=
  events.filterMap (HttpEvent.operation platform dbNameToId config)

theorem run_http (events : List HttpEvent) (s : HttpServer) :
    let s' := runHttp platform fuel config events s
    s'.raw = runRaw ((appliedIn platform config s.names.dbNameToId events).map Applied.call) s.raw ∧
      (∃ walEvents, s'.wal = s.wal.run platform.serialize walEvents ∧
        sentBy walEvents = operationsIn platform config s.names.dbNameToId events) ∧
      s'.names.dbNameToId = s.names.dbNameToId := by
  induction events generalizing s with
  | nil => exact ⟨rfl, ⟨[], rfl, rfl⟩, rfl⟩
  | cons e events ih =>
      obtain ⟨hraw, ⟨walEvents, hwal, hsent⟩, hnames⟩ := step_http platform fuel config e s
      obtain ⟨hraws, ⟨rest, hwals, hsents⟩, hnames'⟩ := ih (e.step platform fuel config s)
      rw [hnames] at hraws hsents
      refine ⟨hraws.trans ?_, ⟨walEvents ++ rest, hwals.trans ?_, ?_⟩, hnames'.trans hnames⟩
      · rw [hraw, appliedIn, appliedIn, List.filterMap_cons]
        cases e.applied platform s.names.dbNameToId config <;> rfl
      · rw [hwal, WalWriter.run, WalWriter.run, WalWriter.run, List.foldl_append]
      · rw [sentBy_append, hsent, hsents, operationsIn, operationsIn, List.filterMap_cons]
        cases e.operation platform s.names.dbNameToId config <;> rfl

/-! ### What is read -/

/-- What a row that holds a value, or none, is answered with. -/
def HttpResponse.ofRow : Option Bytes → HttpResponse
  | none => ⟨404, .error "Row not found"⟩
  | some value => ⟨200, .value (platform.bufferToBase64 value)⟩

variable {platform config} in
theorem handle_getRow {s : HttpServer} {r : HttpRequest} (haccepts : config.accepts platform r)
    {dbName tableName rowKey : String} (hroute : r.route = .getRow dbName tableName rowKey)
    (env : Surroundings) :
    (s.handle platform fuel config env r).1 =
      some ((s.names.getDbIdByName dbName).elim .databaseNotFound fun dbId =>
        .ofRow platform (s.raw.getRaw dbId tableName (utf8 rowKey))) := by
  rw [handle_of_accepts config fuel haccepts, hroute]
  change (s.withDb dbName _).1 = _
  rw [← s.names.getDbId_fst dbName, HttpServer.withDb]
  cases hfound : (s.names.getDbId dbName).1 with
  | none => simp only [hfound, Option.elim_none]
  | some dbId =>
      simp only [hfound, Option.elim_some]
      cases s.raw.getRaw dbId tableName (utf8 rowKey) <;> rfl

omit [Externals] in
/-- Tables whose names are plain names keep out of each other's way. -/
theorem ownFiles_of_isName (raw : RawState) (dbId : UInt32) {table : String}
    (htable : Path.IsName table.toList) {l : List Applied}
    (hnames : ∀ a ∈ l, Path.IsName a.o.table.toList) :
    OwnFiles raw dbId table (l.map Applied.call) := by
  intro c hc hne
  obtain ⟨a, ha, rfl⟩ := List.mem_map.mp hc
  exact raw.overflowPath_ne_of_isName htable (hnames a ha) hne

/-- **A row is answered with what was last left there.** -/
theorem getRow_after_run {s : HttpServer} {events : List HttpEvent}
    (hnames : ∀ a ∈ appliedIn platform config s.names.dbNameToId events,
      Path.IsName a.o.table.toList)
    {r : HttpRequest} (haccepts : config.accepts platform r)
    {dbName tableName rowKey : String} (hroute : r.route = .getRow dbName tableName rowKey)
    (htable : Path.IsName tableName.toList) (env : Surroundings) :
    ((runHttp platform fuel config events s).handle platform fuel config env r).1 =
      some ((s.names.getDbIdByName dbName).elim .databaseNotFound fun dbId =>
        .ofRow platform
          ((lastOn dbId tableName (utf8 rowKey)
              (appliedIn platform config s.names.dbNameToId events)).elim
            (s.raw.getRaw dbId tableName (utf8 rowKey)) fun e => e.op.effect)) := by
  obtain ⟨hraw, -, hids⟩ := run_http platform fuel config events s
  rw [handle_getRow fuel haccepts hroute, DbNames.getDbIdByName, hids, DbNames.getDbIdByName]
  cases s.names.dbNameToId.get dbName with
  | none => rfl
  | some dbId =>
      rw [Option.elim_some, Option.elim_some, hraw,
        runRaw_refines _ (fun _ => rfl) (ownFiles_of_isName s.raw dbId htable hnames),
        plainMap_calls]
      cases lastOn dbId tableName (utf8 rowKey)
        (appliedIn platform config s.names.dbNameToId events) <;> rfl

/-! ### What the log tells -/

omit [Externals] in
theorem last_onDb (dbId : UInt32) (table : String) (key : Bytes) (ops : List Operation) :
    Exchange.last (Operation.isOn dbId table key) ((onDb dbId ops).map (Exchange.Entry.mk true)) =
      Exchange.last (Operation.isOn dbId table key) (ops.map (Exchange.Entry.mk true)) := by
  unfold Exchange.last Exchange.matching onDb
  rw [List.filter_map, List.filter_map, List.filter_filter]
  congr 3
  funext o
  change (o.isOn dbId table key && decide (o.dbId = dbId)) = o.isOn dbId table key
  unfold Operation.isOn
  by_cases hdb : dbId = o.dbId
  · rw [decide_eq_true hdb.symm, Bool.and_true]
  · rw [decide_eq_false fun h => hdb h.1]
    rfl

omit [Externals] in
/-- Without a peer the server applies what its clients ask for. -/
theorem entries_appliedIn {dbNameToId : IndexMap String UInt32} {events : List HttpEvent}
    (halone : ∀ o env, HttpEvent.replicated o env ∉ events) :
    (appliedIn platform config dbNameToId events).map Applied.entry =
      (operationsIn platform config dbNameToId events).map (Exchange.Entry.mk true) := by
  rw [appliedIn, operationsIn, List.map_filterMap, List.map_filterMap]
  refine List.filterMap_congr fun e he => ?_
  cases e with
  | request r env =>
      rw [HttpEvent.applied, Option.map_map]
      rfl
  | replicated o env => exact absurd he (halone o env)
  | _ => rfl

/-- **The log is complete.** -/
theorem log_tells_rows {encode : Operation → Bytes}
    (hser : ∀ op, platform.serialize op = .ok (encode op)) {s : HttpServer} {batchSize : Nat}
    (hwal : s.wal = WalWriter.new batchSize fun _ => []) {events : List HttpEvent}
    (halone : ∀ o env, HttpEvent.replicated o env ∉ events)
    (hnames : ∀ a ∈ appliedIn platform config s.names.dbNameToId events,
      Path.IsName a.o.table.toList)
    (hlength : ∀ op ∈ operationsIn platform config s.names.dbNameToId events,
      (encode op).length < 2 ^ 32) (dbId : UInt32) :
    let s' := runHttp platform fuel config events s
    ∃ written, Framing.unframe (s'.wal.walBin dbId) = some (written.map encode) ∧
      ∀ (replayed : RawState) (env : Surroundings) {table : String}, Path.IsName table.toList →
        ∀ key, replayed.getRaw dbId table key = s.raw.getRaw dbId table key →
          (runRaw ((written ++ onDb dbId s'.wal.batch ++ onDb dbId s'.wal.channel).map
            fun o => o.call env) replayed).getRaw dbId table key =
            s'.raw.getRaw dbId table key := by
  intro s'
  obtain ⟨hraw, ⟨walEvents, hlog, hsent⟩, -⟩ := run_http platform fuel config events s
  have haccounted : WalWriter.Accounted platform.serialize (fun _ => []) (sentBy walEvents)
      s'.wal := by
    rw [hlog, hwal]
    exact accounted_run batchSize walEvents
  rw [hsent] at haccounted
  obtain ⟨written, hfile, hpending⟩ := unframe_walBin hser haccounted hlength dbId
  refine ⟨written, hfile, fun replayed env table htable key hstart => ?_⟩
  rw [hpending, hraw]
  set ops := operationsIn platform config s.names.dbNameToId events with hops
  have hcalls : (onDb dbId ops).map (fun o => o.call env) =
      ((onDb dbId ops).map fun o => (⟨true, o, env⟩ : Applied)).map Applied.call := by
    rw [List.map_map]
    rfl
  have hentries : ((onDb dbId ops).map fun o => (⟨true, o, env⟩ : Applied)).map Applied.entry =
      (onDb dbId ops).map (Exchange.Entry.mk true) := by
    rw [List.map_map]
    rfl
  have hopNames : ∀ a ∈ (onDb dbId ops).map fun o => (⟨true, o, env⟩ : Applied),
      Path.IsName a.o.table.toList := by
    intro a ha
    obtain ⟨o, ho, rfl⟩ := List.mem_map.mp ha
    have hmem : (⟨true, o⟩ : Exchange.Entry Operation) ∈
        (appliedIn platform config s.names.dbNameToId events).map Applied.entry := by
      rw [entries_appliedIn platform config halone]
      exact List.mem_map_of_mem (List.mem_of_mem_filter ho)
    obtain ⟨a, ha, heq⟩ := List.mem_map.mp hmem
    have := hnames a ha
    rwa [show a.o = o from congrArg Exchange.Entry.op heq] at this
  rw [hcalls, runRaw_refines _ (fun _ => rfl) (ownFiles_of_isName replayed dbId htable hopNames),
    runRaw_refines _ (fun _ => rfl) (ownFiles_of_isName s.raw dbId htable hnames), plainMap_calls,
    plainMap_calls, hstart, lastOn, lastOn, hentries, last_onDb,
    entries_appliedIn platform config halone]

end Runs

/-! ### A run -/

namespace Sample

/-- The base64 of one byte that is 1, and of one that is 2. -/
def platform : Platform where
  ipRangeCheck ip range := ip == range
  bufferFromBase64 text := if text = "AQ==" then [1] else if text = "Ag==" then [2] else []
  bufferToBase64 bytes := if bytes = [1] then "AQ==" else if bytes = [2] then "Ag==" else ""
  base64Decode _ := none
  serialize op := .ok (bincodeOperation op)

def httpServer : HttpServer where
  world := ⟨.new [0], []⟩
  raw := raw
  wal := .new 2 fun _ => []
  names := .new [⟨0, "default"⟩]

def httpConfig : HttpConfig := ⟨none, none⟩

def trusted (route : Route) : HttpRequest := ⟨"127.0.0.1", some "change-me", route⟩

/-- Two rows are put, the first of them for nothing by a client without the key as well. -/
def httpEvents : List HttpEvent :=
  [.request (trusted (.putRow "default" "t" "a" (some (.string "AQ==")))) calm, .receive,
    .request ⟨"127.0.0.1", none, .deleteRow "default" "t" "a"⟩ calm,
    .request (trusted (.putRow "default" "t" "b" (some (.string "Ag==")))) calm, .tick]

end Sample

theorem Sample.isName_t : Path.IsName "t".toList :=
  ⟨by decide, by decide, by decide, by decide⟩

theorem Sample.isName_applied :
    ∀ a ∈ appliedIn platform httpConfig httpServer.names.dbNameToId httpEvents,
      Path.IsName a.o.table.toList := by
  have htable : ∀ a ∈ appliedIn platform httpConfig httpServer.names.dbNameToId httpEvents,
      a.o.table = "t" := by decide
  intro a ha
  rw [htable a ha]
  exact isName_t

/-- The first row is in its overflow file by then. -/
theorem getRow_spilled :
    letI := Externals.ofTexts [] []
    ((runHttp Sample.platform 1 Sample.httpConfig Sample.httpEvents Sample.httpServer).handle
      Sample.platform 1 Sample.httpConfig Sample.calm
      (Sample.trusted (.getRow "default" "t" "a"))).1 = some ⟨200, .value "AQ=="⟩ := by
  let _ := Externals.ofTexts [] []
  exact (getRow_after_run Sample.platform 1 Sample.httpConfig Sample.isName_applied rfl rfl
    Sample.isName_t Sample.calm).trans rfl

theorem log_tells_spilled :
    letI := Externals.ofTexts [] []
    let s' := runHttp Sample.platform 1 Sample.httpConfig Sample.httpEvents Sample.httpServer
    ∃ written, Framing.unframe (s'.wal.walBin 0) = some (written.map bincodeOperation) ∧
      (runRaw ((written ++ onDb 0 s'.wal.batch ++ onDb 0 s'.wal.channel).map
        fun o => o.call Sample.calm) Sample.raw).getRaw 0 "t" (utf8 "a") =
          s'.raw.getRaw 0 "t" (utf8 "a") := by
  let _ := Externals.ofTexts [] []
  intro s'
  have halone : ∀ o env, HttpEvent.replicated o env ∉ Sample.httpEvents := by
    intro o env h
    simp only [Sample.httpEvents, List.mem_cons, reduceCtorEq, List.not_mem_nil, or_self] at h
  obtain ⟨written, hfile, hreplay⟩ := log_tells_rows Sample.platform 1 Sample.httpConfig
    (fun _ => rfl) (s := Sample.httpServer) rfl halone Sample.isName_applied (by decide) 0
  exact ⟨written, hfile, hreplay Sample.raw Sample.calm Sample.isName_t _ rfl⟩

end Skvs
