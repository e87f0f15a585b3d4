import TableQuery.Engine.Traced

/-! Dispatching statements: each in a transaction of its own, inside a span, with a log entry for its
end. -/

namespace TableQuery

/-- What the database answers: rows, a single value, or an error. -/
structure Answer where
  rows : List Value := []
  scalar : Value := .none
  failure : Option Fault := none

/-- Rows as mappings. -/
def Answer.records (answer : Answer) : Outcome (List Value) :=
  answer.rows.mapM fun row => Value.map <$> row.toEntries

/-- A recorder only notes what it is given; an engine runs it in the dialect of its database. -/
inductive Executor
  | recorder
  | engine (d : Dialect)
deriving DecidableEq, Repr

namespace Executor

def loggerName : String := "chainsql.engines.base"

/-- The most characters of a statement in a span. -/
def longestStatement : Nat := 4096

def ellipsis (cs : List Char) : List Char :=
  if longestStatement < cs.length then cs.take (longestStatement - 3) ++ ['.', '.', '.'] else cs

/-- The trimmed text of a statement, cut where it is too long; nothing for one without text. -/
def statementText (d : Dialect) (s : Statement) : Run (Option String) :=
  match s.folded d with
  | .ok text =>
    let cs := ellipsis (Text.trimChars text.toList)
    pure (if cs.isEmpty then none else some (String.ofList cs))
  | .error f => do
    Run.log { level := .debug, logger := loggerName,
              message := "statement rendering for telemetry failed: " ++ f.message }
    pure none

def telemetryKey (key : String) : String := "chainsql.telemetry." ++ key

def statementAttributes : Option String → List (String × Value)
  | some text => [("db.statement", .str text), ("db.statement.length", .int text.length)]
  | none => []

def tableAttribute (telemetry : Entries) : Entries :=
  match Value.lookup (.str "operation.object") telemetry with
  | some t => if t.isTruthy then [(.str "db.sql.table", t)] else []
  | none => []

/-- Entries of the telemetry as attributes; equal key texts share one. -/
def telemetryAttributes (telemetry : Value) : Outcome Entries :=
  match telemetry.isTruthy, telemetry.entries? with
  | true, some es =>
    .ok (Value.insertAll (es.map fun e => (.str (telemetryKey e.1.plain), e.2)) (tableAttribute es))
  | true, none => .error (.noMember telemetry.typeName "get")
  | false, _ => .ok []

/-- Attributes of a span around a statement. -/
def spanAttributes (d : Dialect) (s : Statement) (telemetry operation : Value) : Run Entries := do
  let text ← statementText d s
  let more ← Run.ofOutcome (telemetryAttributes telemetry)
  pure (Value.named ([("db.system", .str d.name), ("db.operation", operation)] ++
    statementAttributes text) ++ more)

/-- What a log entry says of a dispatch, apart from the time it took. -/
def payload (d : Dialect) (telemetry : Value) : Outcome Entries := do
  let es ← if telemetry.isTruthy then telemetry.toEntries else pure []
  let kept := es.filter fun e => !(Value.str "duration.seconds").same e.1
  if Value.hasKey (.str "db.platform") kept then pure kept
  else pure (Value.insert (.str "db.platform") (.str d.name) kept)

/-- A transaction around one statement: committed when what the database answers is read, rolled back
otherwise. -/
def transact {α : Type} (d : Dialect) (s : Statement) (answer : Answer) (read : Outcome α) :
    Run α := do
  Run.note .begin
  let result ← Run.attempt do
    Run.note (.execute (← Run.ofOutcome (s.render d)))
    match answer.failure with
    | some f => throw f
    | none => Run.ofOutcome read
  match result with
  | .ok a => do
    Run.note .commit
    pure a
  | .error f => do
    Run.note .rollback
    throw f

/-- A dispatch with its log entries. An entry that cannot be written ends it too. -/
def logged {α : Type} (failed : String) (extra : Entries) (call : Run α) : Run α := do
  match ← call.attempt with
  | .ok a => pure a
  | .error f => do
    Run.log { level := .error, logger := loggerName, message := failed,
              extra := Value.insert (.str "error") (.str f.message) extra, cause := some f }
    throw f

def engineRows (d : Dialect) (s : Statement) (telemetry : Value) (answer : Answer) :
    Run (List Value) := do
  let extra ← Run.ofOutcome (payload d telemetry)
  match ← (transact d s answer answer.records).attempt with
  | .error f => logged "Fetch all failed" extra (throw f)
  | .ok rows => do
    let counted := Value.insert (.str "row_count") (.str (toString rows.length)) extra
    logged "Fetch all failed" counted do
      Run.log { level := .info, logger := loggerName, message := "Results fetched", extra := counted }
      pure rows

def engineScalar (d : Dialect) (s : Statement) (telemetry : Value) (answer : Answer) :
    Run Value := do
  let extra ← Run.ofOutcome (payload d telemetry)
  logged "Scalar fetch failed" extra do
    let scalar ← transact d s answer (.ok answer.scalar)
    let isNull : Value := .str (Value.shown (.bool scalar.isNone))
    Run.log { level := .info, logger := loggerName, message := "Scalar fetched",
              extra := Value.insert (.str "value_is_null") isNull extra }
    pure scalar

def spanned {α : Type} (d : Dialect) (s : Statement) (telemetry : Value) (operation : String)
    (call : Run α) : Run α :=
  Traced.run loggerName ("chainsql.sql." ++ operation) "CLIENT" .none
    (Value.map <$> spanAttributes d s telemetry (.str operation)) call

def recorded (s : Statement) (scalar : Bool) (telemetry : Value) (answer : Answer) : Run Unit := do
  Run.note (.dispatched scalar (← Run.ofOutcome (s.render .postgresql)) telemetry)
  match answer.failure with
  | some f => throw f
  | none => pure ()

def fetchAll (e : Executor) (s : Statement) (telemetry : Value) (answer : Answer) :
    Run (List Value) :=
  match e with
  | .recorder => do
    recorded s false telemetry answer
    pure answer.rows
  | .engine d => spanned d s telemetry "fetch_all" (engineRows d s telemetry answer)

def fetchScalar (e : Executor) (s : Statement) (telemetry : Value) (answer : Answer) : Run Value :=
  match e with
  | .recorder => do
    recorded s true telemetry answer
    pure answer.scalar
  | .engine d => spanned d s telemetry "fetch_scalar" (engineScalar d s telemetry answer)

def dialect : Executor → Dialect
  | .recorder => .postgresql
  | .engine d => d

end Executor
end TableQuery
