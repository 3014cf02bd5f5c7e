import Skvs.Ddl
import Skvs.Rollback
import Skvs.Trigger

/-!
# Executing statements
-/

namespace Skvs

variable [Externals]

/-! ### CREATE TRIGGER

The statement is cut out of the text by hand. Offsets found in the upper-cased text are used to
slice the text itself; a slice that is out of range or inside a character is a panic. -/

def malformedTrigger : Fail := .err (.sqlParse "Malformed CREATE TRIGGER statement")

def orMalformed {α : Type} (o : Option α) : Except Fail α :=
  match o with
  | some a => .ok a
  | none => .error malformedTrigger

def orPanic {α : Type} (o : Option α) : Except Fail α :=
  match o with
  | some a => .ok a
  | none => .error .panic

def parseTiming (word : String) (words : List (List Char)) :
    Except Fail (TriggerTiming × List (List Char)) :=
  match toUppercase word with
  | "BEFORE" => .ok (.before, words)
  | "AFTER" => .ok (.after, words)
  | "INSTEAD" => .ok (.insteadOf, words.drop 1)
  | _ => .error malformedTrigger

def parseEvent (word : String) : Except Fail TriggerEvent :=
  match toUppercase word with
  | "INSERT" => .ok .insert
  | "UPDATE" => .ok .update
  | "DELETE" => .ok .delete
  | _ => .error malformedTrigger

def nextWord (words : List (List Char)) : Except Fail (String × List (List Char)) :=
  match words with
  | w :: ws => .ok (String.ofList w, ws)
  | [] => .error malformedTrigger

/-- The text between WHEN and BEGIN, if both are there. -/
def parseCondition (sql upper : List Char) : Except Fail (Option String) :=
  match Text.find " WHEN ".toList upper with
  | none => .ok none
  | some whenPos => do
    let fromWhen ← orPanic (Text.sliceFrom upper whenPos)
    match Text.find " BEGIN ".toList fromWhen with
    | none => .ok none
    | some p => do
      let cond ← orPanic (Text.slice sql (whenPos + 6) (whenPos + p))
      .ok (some (String.ofList (Text.trim cond)))

def parseTrigger (sql : String) : Except Fail TriggerDef := do
  let sql := Text.trim sql.toList
  let upper := (toUppercase (String.ofList sql)).toList
  let rest ← orMalformed (Text.stripPrefix "CREATE TRIGGER".toList upper)
  if Text.byteLength sql < Text.byteLength rest then throw .panic
  let restRaw ← orPanic (Text.sliceFrom sql (Text.byteLength sql - Text.byteLength rest))
  let (name, words) ← nextWord (Text.splitWhitespace restRaw)
  let (timingWord, words) ← nextWord words
  let (timing, words) ← parseTiming timingWord words
  let (eventWord, words) ← nextWord words
  let event ← parseEvent eventWord
  let (onWord, words) ← nextWord words
  if toUppercase onWord ≠ "ON" then throw malformedTrigger
  let (tableWord, _) ← nextWord words
  let table := String.ofList (Text.trimMatches (fun c => c = ',' || c = ';') tableWord.toList)
  let afterOn ← orPanic (Text.sliceFrom upper
    (((Text.find " ON ".toList upper).map fun i => i + 4).getD 0))
  let condition ← parseCondition sql upper
  let beginPos ← orMalformed (Text.find "BEGIN".toList upper)
  let endPos ← orMalformed (Text.rfind "END".toList upper)
  if endPos ≤ beginPos then throw malformedTrigger
  let body ← orPanic (Text.slice sql (beginPos + 5) endPos)
  return { name, timing, event, table, condition
           forEachRow := Text.contains "FOR EACH ROW".toList afterOn
           body := String.ofList (Text.trim body) }

def createTrigger (dbId : UInt32) (sql : String) : Db QueryResult := do
  let trigger ← Prog.ofExcept (parseTrigger sql)
  onState fun s => s.addTrigger dbId trigger.table trigger
  return .empty

/-! ### Statements -/

/-- Dispatch a statement. Triggers run their bodies through this same function, with one unit of
fuel less. -/
def executeSingleStatement : Nat → UInt32 → Statement → List Value → Option UInt32 → Db QueryResult
  | 0, _, _, _, _ => Prog.fail .outOfFuel
  | fuel + 1, dbId, stmt, params, txId => do
    let fire := fireTriggers (fun s => executeSingleStatement fuel dbId s [] txId) dbId
    match stmt with
    | .query query => do
      let state ← Prog.read World.kvs
      Prog.ofExcept (executeSelect state dbId fuel query params)
    | .insert table columns source => executeInsert fire fuel dbId table columns source params txId
    | .update table assignments selection =>
      executeUpdate fire dbId table.relation assignments selection params txId
    | .delete tables from_ selection => executeDelete fire dbId tables from_ selection params txId
    | .createTable name columns constraints ifNotExists =>
      createTable dbId name columns constraints ifNotExists
    | .alterTable name ifExists operations => alterTable dbId name ifExists operations
    | .createIndex name table columns unique ifNotExists =>
      createIndex dbId name table columns unique ifNotExists
    | .createView name query => createView dbId name query
    | .createVirtualTable name ifNotExists moduleName moduleArgs =>
      createVirtualTable dbId name ifNotExists moduleName moduleArgs
    | .drop .table names ifExists => dropTable dbId names ifExists
    | .drop .index names ifExists => dropIndex dbId names ifExists
    | .drop .view names ifExists => dropView dbId names ifExists
    | .drop (.other debug) _ _ => raise (.unsupported s!"DROP {debug} not implemented")
    | .startTransaction | .commit | .rollback =>
      raise (.unsupported ("BEGIN/COMMIT/ROLLBACK must go through SqlEngine::execute, " ++
        "not execute_single_statement"))
    | .other debug => raise (.unsupported s!"Statement not implemented: {debug}")

/-- Run a statement inside a short-lived transaction of its own: committed if the statement
succeeds, rolled back if it returns an error. -/
def executeAtomically (fuel : Nat) (dbId : UInt32) (stmt : Statement) (params : List Value) :
    Db QueryResult := do
  let shadow ← begin dbId
  match ← (executeSingleStatement fuel dbId stmt params (some shadow)).attempt with
  | .ok result => do
    let _ ← (commit shadow).attempt
    return result
  | .error (.err e) => do
    let _ ← (rollback shadow).attempt
    raise e
  | .error fail => Prog.fail fail

/-- A parsed statement at the top level: transaction control, a write without a transaction, or any
other statement. -/
def executeStatement (fuel : Nat) (dbId : UInt32) (stmt : Statement) (params : List Value)
    (txId : Option UInt32) : Db QueryResult :=
  match stmt with
  | .startTransaction => do
    let newTx ← begin dbId
    return .began newTx
  | .commit => do
    let id ← orRaise txId (.transaction "COMMIT with no active transaction id")
    commit id
    return .empty
  | .rollback => do
    let id ← orRaise txId (.transaction "ROLLBACK with no active transaction id")
    rollback id
    return .empty
  | stmt =>
    if txId.isNone && stmt.isWrite then executeAtomically fuel dbId stmt params
    else executeSingleStatement fuel dbId stmt params txId

/-- `SqlEngine::execute`. -/
def execute (fuel : Nat) (dbId : UInt32) (sql : String) (params : List Value)
    (txId : Option UInt32) : Db QueryResult := do
  let upper := (toUppercase (String.ofList (Text.trimStart sql.toList))).toList
  if "CREATE TRIGGER".toList.isPrefixOf upper then createTrigger dbId sql
  else
    match ← Prog.ofExcept (parseStatements sql) with
    | [stmt] => executeStatement fuel dbId stmt params txId
    | _ => raise (.unsupported "Multiple statements not supported")

end Skvs
