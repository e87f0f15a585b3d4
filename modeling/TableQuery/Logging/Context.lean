import TableQuery.Logging.Datum
import TableQuery.Logging.Entry
import TableQuery.Engine.Traced

/-! What is added to every record: the request it belongs to, the library, and attributes of the
process. -/

namespace TableQuery
namespace Logging

structure Context where
  requestId : Value := .none
  userId : Value := .none
  fixed : Entries := []

namespace Context

/-- Replaces the attributes of the process; an environment given twice is the second one. -/
def setProcess (c : Context) (environment extra : Value) : Context × Outcome Unit :=
  let start := if environment.isNone then [] else Value.named [("environment", environment)]
  let (fixed, result) := if extra.isTruthy then Value.addEntries start extra else (start, .ok ())
  ({ c with fixed }, result)

/-- What is not given stays as it was. -/
def setRequest (c : Context) (requestId userId : Value) : Context :=
  { c with
    requestId := if requestId.isNone then c.requestId else requestId
    userId := if userId.isNone then c.userId else userId }

def clearRequest (c : Context) : Context := { c with requestId := .none, userId := .none }

def libraryName : String := "chainsql"

/-- Names that every record answers to beside its attributes. -/
def isTaken (name : String) : Bool :=
  recordAttributes.contains name || name == "getMessage" ||
    (name.startsWith "__" && name.endsWith "__" && objectNames.contains name)
where
  objectNames : List String :=
    ["__class__", "__delattr__", "__dict__", "__dir__", "__doc__", "__eq__", "__format__", "__ge__",
     "__getattribute__", "__getstate__", "__gt__", "__hash__", "__init__", "__init_subclass__",
     "__le__", "__lt__", "__module__", "__ne__", "__new__", "__reduce__", "__reduce_ex__",
     "__repr__", "__setattr__", "__sizeof__", "__str__", "__subclasshook__", "__weakref__"]

/-- A name that the record has already is left alone. -/
def addMissing (attributes : Attributes) (key v : Value) : Outcome Attributes :=
  match key.text? with
  | some name =>
    .ok (if isTaken name || attributes.has name then attributes
      else attributes ++ [(.value key, .value v)])
  | none => .error (.badCall ("attribute name must be string, not '" ++ key.typeName ++ "'"))

/-- Whom every record belongs to. -/
def identity (c : Context) : List (String × Value) :=
  [("request_id", c.requestId), ("user_id", c.userId), ("sdk_name", .str libraryName),
   ("sdk_version", .str Traced.version)]

def identified (c : Context) (attributes : Attributes) : Attributes :=
  c.identity.foldl (fun as i => as.set i.1 (.value i.2)) attributes

/-- The attributes of a record with those of the context. -/
def apply (c : Context) (attributes : Attributes) : Outcome Attributes :=
  c.fixed.foldlM (fun as e => addMissing as e.1 e.2) (c.identified attributes)

end Context
end Logging
end TableQuery
