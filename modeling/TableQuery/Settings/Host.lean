import TableQuery.Handle.Table
import TableQuery.Logging.Line
import TableQuery.Settings.Load
import TableQuery.Settings.Url

/-! What the host program keeps: its variables, the settings read from them once, and where log entries go. -/

namespace TableQuery

namespace Settings

/-- Options of an engine. Pools are for backends with connections of their own. -/
def engineOptions (s : Settings) (backend : String) : List (String × Value) :=
  ("echo", .bool s.echo) ::
    if backend == "sqlite" then []
    else
      [("pool_size", .int s.poolSize), ("max_overflow", .int s.maxOverflow),
       ("pool_timeout", .int s.poolTimeout), ("pool_pre_ping", .bool s.poolPrePing)]

/-- Sets up an engine at the configured address. -/
def connect (s : Settings) : Run Unit := do
  match s.databaseUrl.filter (!·.isEmpty) with
  | none => Run.reject (.configuration "No database URL configured" (some (.str "database_url")))
  | some address =>
    let url ← Run.ofOutcome (Url.parse address)
    Run.note (.connected url.text (s.engineOptions url.backend))
    let driver ← Run.ofOutcome url.driverName
    Run.log { level := .info, logger := Executor.loggerName, message := "Created SQL engine",
              extra := Value.named [("db.platform", .str url.backend), ("db.driver", .str driver)] }

/-- A client on an engine of its own. -/
def client (s : Settings) : Run Client := do
  s.connect
  let dialect : Dialect := if s.databaseUrl.any (·.startsWith "sqlite") then .sqlite else .postgresql
  pure { executor := .engine dialect, rules := { strict := s.strictNames, qualified := s.allowSchema } }

end Settings

/-- Settings that were read are numbered, so that it can be told whether two are the same object. -/
structure Host where
  environment : Settings.Variables := []
  file : Option String := none
  cached : Option (Nat × Settings) := none
  next : Nat := 0
  /-- The level number of the library's logger and its handler, once they are set up. -/
  level : Option Nat := none

namespace Host

/-- What a step changed before it failed stays changed. -/
abbrev Step := ExceptT Fault (StateM Host)

def sources (p : Host) (arguments : List (Value × Value)) : Settings.Sources :=
  { arguments, environment := p.environment,
    file := (p.file.map (Settings.EnvFile.read p.environment)).getD [] }

/-- New settings, with the arguments before everything else. -/
def construct (arguments : List (Value × Value)) : Step (Nat × Settings) := do
  let p ← get
  match Settings.load (p.sources arguments) with
  | .ok s =>
    set { p with next := p.next + 1 }
    pure (p.next, s)
  | .error issues => throw (.malformed issues)

/-- The settings of the host, read when they are first asked for. -/
def settings : Step (Nat × Settings) := do
  match (← get).cached with
  | some s => pure s
  | none =>
    let s ← construct []
    modify fun p => { p with cached := some s }
    pure s

/-- The settings of the host, read again. -/
def reload : Step (Nat × Settings) := do
  modify fun p => { p with cached := none }
  settings

/-- Numbers of levels by name. -/
def levelNumbers : List (String × Nat) :=
  [("CRITICAL", 50), ("FATAL", 50), ("ERROR", 40), ("WARN", 30), ("WARNING", 30), ("INFO", 20),
   ("DEBUG", 10), ("NOTSET", 0)]

def unconfigured : Fault := .badValue "Unable to configure handler 'console'"

/-- The level to set up, in any case; one that counts as not given is that of the settings. -/
def levelName (v : Value) : Step String := do
  if !v.isTruthy then return (← settings).2.logLevel
  match v with
  | .bytes _ => throw unconfigured
  | v => match v.text? with
    | some s => pure (Text.upper s)
    | none => throw (.noMember v.typeName "upper")

def setUpLogging (v : Value) : Step Nat := do
  match levelNumbers.lookup (← levelName v) with
  | some n =>
    modify fun p => { p with level := some n }
    pure n
  | none => throw unconfigured

def belongs (logger : String) : Bool :=
  logger == Logging.Context.libraryName || logger.startsWith (Logging.Context.libraryName ++ ".")

/-- The level from which the library's entries are made: the one set up, or that of a root logger if
it is zero. Before that it is up to the surroundings. -/
def threshold (p : Host) (surroundings : Logging.Level) : Logging.Level :=
  match p.level with
  | some n => (Logging.Level.ofNumber? n).getD .warning
  | none => surroundings

def isEnabled (p : Host) (surroundings : Logging.Level) (logger : String) (level : Logging.Level) :
    Bool :=
  let least := if belongs logger then p.threshold surroundings else .warning
  least.number ≤ level.number

/-- The record of a call of a logger, if it makes one. -/
def emit (p : Host) (surroundings level : Logging.Level) (r : Logging.Record) :
    Outcome (List Logging.Record) :=
  if p.isEnabled surroundings (Point.replaced r.logger) level then do return [← Logging.Record.make r] else .ok []

/-- The members of the lines for records; none before logging is set up, for another library's
loggers, and for what cannot be written. -/
def lines (p : Host) (rs : List Logging.Record) : List (List (List Point × Logging.Json)) :=
  if p.level.isSome then
    (rs.filter (belongs <| Point.replaced ·.logger)).filterMap fun r =>
      (r.inContext {} >>= Logging.Record.members).toOption
  else []

/-- Whether records reach whoever listened before logging was set up. -/
def isCaptured (p : Host) (r : Logging.Record) : Bool := p.level.isNone && belongs (Point.replaced r.logger)

end Host
end TableQuery
