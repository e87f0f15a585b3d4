import TableQuery.Value.Entries

/-! Log entries, and the attributes of a record that no entry may overwrite. -/

namespace TableQuery
namespace Logging

inductive Level
  | debug | info | warning | error | critical
deriving DecidableEq, Repr

namespace Level

def all : List Level := [.debug, .info, .warning, .error, .critical]

def text : Level → String
  | .debug => "DEBUG"
  | .info => "INFO"
  | .warning => "WARNING"
  | .error => "ERROR"
  | .critical => "CRITICAL"

def number : Level → Nat
  | .debug => 10
  | .info => 20
  | .warning => 30
  | .error => 40
  | .critical => 50

def ofText? (s : String) : Option Level := all.find? (·.text == s)

def ofNumber? (n : Nat) : Option Level := all.find? (·.number == n)

end Level

/-- What an event is reported as. -/
structure Entry where
  level : Level
  logger : String
  message : String
  extra : Entries := []
  cause : Option Fault := none

/-- Attributes that every record has. -/
def recordAttributes : List String :=
  ["name", "msg", "args", "levelname", "levelno", "pathname", "filename", "module", "exc_info",
   "exc_text", "stack_info", "lineno", "funcName", "created", "msecs", "relativeCreated", "thread",
   "threadName", "processName", "process"]

/-- Names that an entry cannot give to attributes of its own. -/
def isReserved (key : String) : Bool :=
  recordAttributes.contains key || key == "message" || key == "asctime"

/-- The first attribute that would overwrite one of the record's own. -/
def clash? (attributes : Entries) : Option String :=
  attributes.findSome? fun a => a.1.text?.filter isReserved

end Logging
end TableQuery
