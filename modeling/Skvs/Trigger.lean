import Skvs.Dml

/-!
# Triggers
-/

namespace Skvs

def valueToSqlLiteral : Value → String
  | .null => "NULL"
  | .integer i => toString i
  | .real f => f.display
  | .text s => "'" ++ Text.replace s "'" "''" ++ "'"
  | .blob b => "X'" ++ Text.hexEncode b ++ "'"

/-- Replace the references to the columns of one row in a trigger body, column by column. -/
def substituteRow (tag : String) (row : Option Row) (body : String) : String :=
  match row with
  | none => body
  | some row => row.entries.foldl (fun result e =>
      Text.replace result (tag ++ e.1) (valueToSqlLiteral e.2)) body

/-- Substitute the OLD and NEW references in a trigger body. -/
def substituteTriggerVariables (body : String) (oldRow newRow : Option Row) : String :=
  substituteRow "NEW." newRow (substituteRow "OLD." oldRow body)

def qualifyRow (tag : String) (row : Option Row) (ctxRow : Row) : Row :=
  match row with
  | none => ctxRow
  | some row => row.entries.foldl (fun r e => r.insert (tag ++ e.1) e.2) ctxRow

/-- The row a trigger condition sees: the columns of OLD and NEW under their qualified names. -/
def conditionRow (oldRow newRow : Option Row) : Row :=
  qualifyRow "NEW." newRow (qualifyRow "OLD." oldRow ∅)

variable [Externals]

/-- Whether the condition of a trigger, if it has one, holds. -/
def conditionHolds (state : KvsState) (dbId : UInt32) (trigger : TriggerDef)
    (oldRow newRow : Option Row) : Except Fail Bool :=
  match trigger.condition with
  | none => .ok true
  | some cond =>
    match parseExpr cond with
    | .error e => .error (.err (.sqlParse e))
    | .ok condExpr => .ok (whereHolds state dbId (conditionRow oldRow newRow) [] condExpr 0)

/-- Run the body of a trigger, statement by statement. -/
def runTrigger (run : Statement → Db QueryResult) (dbId : UInt32) (oldRow newRow : Option Row)
    (trigger : TriggerDef) : Db Unit := do
  let state ← Prog.read World.kvs
  if ← Prog.ofExcept (conditionHolds state dbId trigger oldRow newRow) then
    let stmts ← Prog.ofExcept
      (parseStatements (substituteTriggerVariables trigger.body oldRow newRow))
    forM stmts fun stmt => do
      let _ ← run stmt

/-- Execute the triggers of a table for an event. -/
def fireTriggers (run : Statement → Db QueryResult) (dbId : UInt32) : Fire :=
  fun table event timing oldRow newRow => do
    let triggers ← Prog.read fun w => w.kvs.getTriggers dbId table
    forM (triggers.filter fun t => t.event = event && t.timing = timing)
      (runTrigger run dbId oldRow newRow)

end Skvs
