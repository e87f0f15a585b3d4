import TableQuery.Engine.Executor
import TableQuery.Handle.Store
import TableQuery.Pagination
import TableQuery.Query.Build
import TableQuery.Schema.Validate
import TableQuery.Value.Integer

/-! Handles on tables. A chain call gives a new handle and leaves the old one as it was; a terminal
call builds one statement and dispatches it. -/

namespace TableQuery

/-- A query in the making. With a model, filters and payloads are checked against it first. -/
structure Handle where
  rules : Naming
  state : State
  model : Option Schema.Overlay := none

namespace Handle

def name (h : Handle) : String := h.state.table

/-- The state with what the caller has made of its own objects since. -/
def current (s : Store) (h : Handle) : Handle :=
  { h with state := { h.state with
      projection := h.state.projection.map fun ps => ps.map s.resolve
      filter := s.resolve h.state.filter
      order := h.state.order.map s.resolve } }

/-! Chain calls. -/

inductive Call
  | select (columns : Value)
  | filter (spec : Value)
  | order (spec : Value)
  | skip (count : Value)
  | take (count : Value)

/-- Data that passed its check, or all that is wrong with it. -/
def sound (subject : String) (r : Schema.Result) : Outcome Value :=
  if r.isOk then .ok r.data else reject (Rejection.schemaFindings subject r.findings)

def checkFilter (overlay : Option Schema.Overlay) (v : Value) : Outcome Unit :=
  match overlay with
  | none => .ok ()
  | some o => do
    let _ ← sound "where" (← Schema.validateFilter o.model v)
    pure ()

def apply (s : Store) (h : Handle) (c : Call) : Outcome Handle :=
  match c with
  | .select v => do
    let projection ← Freeze.projection s.look v
    pure { h with state := { h.state with projection } }
  | .filter v => do
    checkFilter h.model (s.resolve v)
    pure { h with state := { h.state with filter := Freeze.filter s.look v } }
  | .order v => do
    let order ← Freeze.order s.look v
    pure { h with state := { h.state with order } }
  | .skip v => do
    let skip ← Pagination.skip (s.resolve v)
    pure { h with state := { h.state with skip := skip.map .int } }
  | .take v => do
    let take ← Pagination.take (s.resolve v)
    pure { h with state := { h.state with take := take.map .int } }

/-! Terminal calls, on handles and data without shared cells. -/

inductive Terminal
  | findMany
  | findFirst
  | findUnique
  | count
  | create (data : Value)
  | createMany (data : Value)
  | update (data : Value)
  | delete

namespace Terminal

def kind : Terminal → StatementKind
  | findMany | findFirst | findUnique => .select
  | count => .count
  | create _ => .insert
  | createMany _ => .insertMany
  | update _ => .update
  | delete => .delete

/-- The bound that a call puts in place of the handle's own. -/
def cap : Terminal → Option Int
  | findFirst => some 1
  | findUnique => some 2
  | _ => none

end Terminal

/-- Payloads as the model reads them. -/
def data (overlay : Option Schema.Overlay) (t : Terminal) : Outcome Value :=
  match overlay, t with
  | none, .create v | none, .createMany v | none, .update v => .ok v
  | some o, .create v => Schema.validateRecord o [] v >>= sound "data"
  | some o, .createMany v => Schema.validateRecords o v >>= sound "data"
  | some o, .update v => Schema.validatePartial o.model v >>= sound "update data"
  | _, _ => .ok .none

def capped (h : Handle) (t : Terminal) : State :=
  { h.state with take := (t.cap.map .int).or h.state.take }

/-- The statement that a terminal call dispatches. -/
def statement (h : Handle) (t : Terminal) : Outcome Statement := do
  Query.build h.rules t.kind (h.capped t) (← data h.model t)

def telemetry (h : Handle) (k : StatementKind) : Entries :=
  Value.named [("operation.object", .str h.name), ("operation.type", .str k.text)]

def rows (e : Executor) (h : Handle) (t : Terminal) (answer : Answer) : Run (List Value) := do
  let s ← Run.ofOutcome (h.statement t)
  Run.log { level := .debug, logger := "chainsql.api.table", message := "Dispatching query",
            extra := h.telemetry t.kind }
  e.fetchAll s (.map (h.telemetry t.kind)) answer

/-- An answer as a whole number; one that counts as not given is zero. -/
def toCount (v : Value) : Outcome Int := if v.isTruthy then v.toInteger else .ok 0

def first (rows : List Value) : Value := rows.headD .none

/-- What a terminal call gives, with one dispatch or none. -/
def perform (e : Executor) (h : Handle) (t : Terminal) (answer : Answer) : Run Value := do
  match t with
  | .count =>
    let s ← Run.ofOutcome (h.statement .count)
    let v ← e.fetchScalar s (.map (h.telemetry .count)) answer
    pure (.int (← Run.ofOutcome (toCount v)))
  | .findFirst => return first (← rows e h t answer)
  | .findUnique =>
    let found ← rows e h t answer
    if 1 < found.length then Run.reject (.notUnique (.str h.name)) else pure (first found)
  | .create _ =>
    let stored ← rows e h t answer
    if stored.isEmpty then Run.reject (.insertReturnedEmpty (.str h.name)) else pure (first stored)
  | t => return .list (← rows e h t answer)

/-- The statement of a kind as it would be dispatched, in a dialect or the executor's own. -/
def preview (e : Executor) (h : Handle) (kind data : Value) (dialect : Option Dialect) :
    Outcome Rendered :=
  match Query.kind? kind with
  | none => .error (.unknownKind kind)
  | some k => do
    let s ← Query.build h.rules k h.state data
    s.render (dialect.getD e.dialect)

/-- A handle in one line. -/
def text (h : Handle) : Outcome String :=
  match h.model with
  | some o => .ok ("SchemaTable(" ++ Text.quoted h.name ++ ", model=" ++ o.model.name ++ ")")
  | none => do
    let parts ← h.state.fields.mapM fun f => f.2.tell (f.1 ++ "=" ++ f.2.shown)
    pure ("Table(" ++ Text.quoted h.name ++ ", state=QueryState(" ++ ", ".intercalate parts ++ "))")

end Handle

/-- Hands out handles that share one executor. -/
structure Client where
  executor : Executor
  rules : Naming

namespace Client

/-- A handle on a table, under the client's rules where no others are given. -/
def table (c : Client) (name : Value) (strict qualified : Option Bool)
    (model : Option (Outcome Schema.Overlay)) : Run Handle := do
  let rules : Naming :=
    { strict := strict.getD c.rules.strict, qualified := qualified.getD c.rules.qualified }
  match rules.name? name with
  | none => Run.reject (.invalidTableName name)
  | some trimmed =>
    Run.log { level := .debug, logger := "chainsql.api.client", message := "Created table handle",
              extra := Value.named [("table", .str trimmed), ("strict_names", .bool rules.strict)] }
    let model ← match model with
      | none => pure none
      | some m => some <$> Run.ofOutcome m
    pure { rules, state := { table := trimmed }, model }

end Client
end TableQuery
