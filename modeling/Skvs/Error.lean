namespace Skvs

/-- The error type of every public operation, one constructor for each kind of message. -/
inductive SkvsError where
  | config (msg : String)
  | io (msg : String)
  | serialization (msg : String)
  | sqlParse (msg : String)
  | constraintViolation (msg : String)
  | unsupported (msg : String)
  | transaction (msg : String)
  | schema (msg : String)
  | storage (msg : String)
  | trigger (msg : String)
  | view (msg : String)
  | json (msg : String)
  | fts (msg : String)
  deriving DecidableEq

def SkvsError.toString : SkvsError → String
  | .config msg => s!"Config error: {msg}"
  | .io msg => s!"I/O error: {msg}"
  | .serialization msg => s!"Serialization error: {msg}"
  | .sqlParse msg => s!"SQL parse error: {msg}"
  | .constraintViolation msg => s!"Constraint violation: {msg}"
  | .unsupported msg => s!"Unsupported operation: {msg}"
  | .transaction msg => s!"Transaction error: {msg}"
  | .schema msg => s!"Schema error: {msg}"
  | .storage msg => s!"Storage error: {msg}"
  | .trigger msg => s!"Trigger error: {msg}"
  | .view msg => s!"View error: {msg}"
  | .json msg => s!"JSON error: {msg}"
  | .fts msg => s!"FTS error: {msg}"

/-- How a run of the engine stops early: it returns an error, it panics, or the recursion through
triggers and views goes deeper than the fuel allows. -/
inductive Fail where
  | err (e : SkvsError)
  | panic
  | outOfFuel
  deriving DecidableEq

end Skvs
