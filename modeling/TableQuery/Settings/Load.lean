import TableQuery.Coerce
import TableQuery.Fault
import TableQuery.Logging.Entry
import TableQuery.Settings.Environment
import TableQuery.Text.Case
import TableQuery.Value.Equal

/-! Settings, from arguments, the environment, a file of variables, and defaults. -/

namespace TableQuery

structure Settings where
  databaseUrl : Option String := none
  echo : Bool := false
  poolSize : Int := 5
  maxOverflow : Int := 10
  poolTimeout : Int := 30
  poolPrePing : Bool := true
  strictNames : Bool := false
  allowSchema : Bool := false
  logLevel : String := "INFO"

namespace Settings

def isConfigured (s : Settings) : Bool := s.databaseUrl.any (!·.isEmpty)

def fields (s : Settings) : List (String × Value) :=
  [("database_url", s.databaseUrl.elim .none .str), ("echo", .bool s.echo),
   ("pool_size", .int s.poolSize), ("max_overflow", .int s.maxOverflow),
   ("pool_timeout", .int s.poolTimeout), ("pool_pre_ping", .bool s.poolPrePing),
   ("strict_names", .bool s.strictNames), ("allow_schema", .bool s.allowSchema),
   ("log_level", .str s.logLevel)]

/-- How variables are found: what their names begin with, whether case matters and empty values count,
and which text stands for no value. -/
structure Lookup where
  start : String := "CHAINSQL_"
  exact : Bool := false
  skipEmpty : Bool := false
  absence : Option String := none
  /-- Whether the file of variables is read. -/
  usesFile : Bool := true

/-- Where values come from: what stands first counts. -/
structure Sources where
  arguments : List (Value × Value) := []
  environment : Variables := []
  file : Entries := []

namespace Lookup

def option? (arguments : List (Value × Value)) (name : String) : Option Value :=
  (Value.lookup (.str name) arguments).filter (!·.isNone)

def isDefaultFile (v : Value) : Bool :=
  v.text?.any fun s => s == ".env" || s == "./.env"

/-- Arguments that begin with an underscore say how variables are found. -/
def ofArguments (arguments : List (Value × Value)) : Lookup :=
  { start := ((option? arguments "_env_prefix").bind Value.text?).getD "CHAINSQL_"
    exact := (option? arguments "_case_sensitive").any Value.isTruthy
    skipEmpty := (option? arguments "_env_ignore_empty").any Value.isTruthy
    absence := (option? arguments "_env_parse_none_str").bind Value.text?
    usesFile := match Value.lookup (.str "_env_file") arguments with
      | some v => isDefaultFile v || (v.items?.getD []).any isDefaultFile
      | none => true }

/-- The value of a variable. -/
def find? (l : Lookup) (vs : Entries) (name : String) : Option Value :=
  let counted := if l.skipEmpty then vs.filter (·.2 != some "") else vs
  ((Named.find? l.exact counted (l.start ++ name)).bind id).map fun s =>
    if l.absence = some s then .none else .str s

end Lookup

def Sources.given? (s : Sources) (name : String) : Option Value :=
  let l := Lookup.ofArguments s.arguments
  (l.find? (s.environment.map fun v => (v.1, some v.2)) name).or
    (if l.usesFile then l.find? s.file name else none)

def Sources.find? (s : Sources) (name : String) : Option Value :=
  (Value.lookup (.str name) s.arguments).or (s.given? name)

def read {α : Type} (s : Sources) (name : String) (absent : α) (reader : Value → Except Problem α) :
    Except Problem α :=
  match s.find? name with
  | some v => reader v
  | none => .ok absent

def url : Value → Except Problem (Option String)
  | .none => .ok none
  | v => some <$> Coerce.text false v

def atLeast (least : Int) (v : Value) : Except Problem Int := do
  let n ← (← Coerce.integer false v).toInt
  if n < least then .error (.greaterThanEqual least) else .ok n

def between (least most : Int) (v : Value) : Except Problem Int := do
  let n ← (← Coerce.integer false v).toInt
  if most < n then .error (.lessThanEqual most)
  else if n < least then .error (.greaterThanEqual least) else .ok n

/-- The name of a level, in any case and with blanks around it. -/
def level (v : Value) : Except Problem String := do
  let s ← Coerce.text false v
  let name := Text.upper (Text.trim s)
  if (Logging.Level.ofText? name).isSome then .ok name
  else .error (.refused ("Invalid log level '" ++ s ++
    "'. Expected one of DEBUG, INFO, WARNING, ERROR, CRITICAL."))

def issuesOf {α : Type} (name : String) : Except Problem α → List Issue
  | .ok _ => []
  | .error p => [⟨[.key name], p⟩]

/-- Settings from their sources, or everything that is wrong with them. -/
def load (s : Sources) : Except (List Issue) Settings :=
  let d : Settings := {}
  let databaseUrl := read s "database_url" d.databaseUrl url
  let echo := read s "echo" d.echo (Coerce.flag false)
  let poolSize := read s "pool_size" d.poolSize (between 1 100)
  let maxOverflow := read s "max_overflow" d.maxOverflow (between 0 100)
  let poolTimeout := read s "pool_timeout" d.poolTimeout (atLeast 1)
  let poolPrePing := read s "pool_pre_ping" d.poolPrePing (Coerce.flag false)
  let strictNames := read s "strict_names" d.strictNames (Coerce.flag false)
  let allowSchema := read s "allow_schema" d.allowSchema (Coerce.flag false)
  let logLevel := read s "log_level" d.logLevel level
  match databaseUrl, echo, poolSize, maxOverflow, poolTimeout, poolPrePing, strictNames, allowSchema,
      logLevel with
  | .ok databaseUrl, .ok echo, .ok poolSize, .ok maxOverflow, .ok poolTimeout, .ok poolPrePing,
      .ok strictNames, .ok allowSchema, .ok logLevel =>
    .ok { databaseUrl, echo, poolSize, maxOverflow, poolTimeout, poolPrePing, strictNames,
          allowSchema, logLevel }
  | _, _, _, _, _, _, _, _, _ =>
    .error (issuesOf "database_url" databaseUrl ++ issuesOf "echo" echo ++
      issuesOf "pool_size" poolSize ++ issuesOf "max_overflow" maxOverflow ++
      issuesOf "pool_timeout" poolTimeout ++ issuesOf "pool_pre_ping" poolPrePing ++
      issuesOf "strict_names" strictNames ++ issuesOf "allow_schema" allowSchema ++
      issuesOf "log_level" logLevel)

end Settings
end TableQuery
