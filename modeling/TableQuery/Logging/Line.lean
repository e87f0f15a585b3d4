import TableQuery.Logging.Context
import TableQuery.Logging.Json
import TableQuery.Logging.Template
import TableQuery.Logging.Timestamp

/-! Log records as lines of JSON. -/

namespace TableQuery
namespace Logging

/-- A record: what was logged, when, and within which span. An exception is the text that it is formatted
as, with its traceback and its causes. -/
structure Record where
  logger : List Point
  level : List Point
  template : Datum
  args : List Datum := []
  attributes : Attributes := []
  created : Binary64 := .zero false
  exception : Option (List Point) := none
  span : Option (Nat × Nat) := none

namespace Record

/-- A record with attributes of its own, none of which may be one that every record has. -/
def make (r : Record) : Outcome Record :=
  match r.attributes.findSome? fun a => a.1.string?.filter isReserved with
  | some key => .error (.overwritesRecord key)
  | none => .ok r

def ofEntry (e : Entry) : Record where
  logger := Point.ofText e.logger
  level := Point.ofText e.level.text
  template := .value (.str e.message)
  attributes := Datum.ofEntries e.extra

def inContext (r : Record) (c : Context) : Outcome Record := do
  return { r with attributes := ← c.apply r.attributes }

/-- A member whose name and value are texts of characters. -/
def texts (name value : String) : List Point × Json := (Point.ofText name, .str (Point.ofText value))

/-- Identifiers of a trace and a span have 128 and 64 bits, and are not zero. -/
def spanMembers (span : Option (Nat × Nat)) : List (List Point × Json) :=
  match span with
  | some (trace, id) =>
    if trace ≠ 0 ∧ trace < Nat.pow 2 128 ∧ id ≠ 0 ∧ id < Nat.pow 2 64 then
      [texts "trace_id" (String.ofList (Text.hex 32 trace)),
       texts "span_id" (String.ofList (Text.hex 16 id))]
    else []
  | none => []

/-- A member takes the place of an earlier one of its name. -/
def setMember (ms : List (List Point × Json)) (m : List Point × Json) : List (List Point × Json) :=
  if ms.any (·.1 == m.1) then ms.map fun x => if x.1 == m.1 then m else x else ms ++ [m]

def isShown (a : Datum × Datum) : Bool := !a.1.string?.any isReserved

def shownAttributes (r : Record) : Attributes := r.attributes.filter isShown

/-- What is always said of a record. -/
def own (r : Record) (timestamp : String) (message : List Point) : List (List Point × Json) :=
  [texts "timestamp" timestamp, (Point.ofText "level", .str r.level),
   (Point.ofText "logger", .str r.logger), (Point.ofText "message", .str message)] ++
  spanMembers r.span ++ (r.exception.map fun text => (Point.ofText "exception", Json.str text)).toList

/-- The record's attributes, and what is always said of it in the place of those of its names. -/
def members (r : Record) : Outcome (List (List Point × Json)) := do
  let timestamp ← Timestamp.text r.created
  let message ← match r.attributes.lookup "getMessage" with
    | some d => .error (.badCall ("'" ++ d.typeName ++ "' object is not callable"))
    | none => Template.message r.template r.args
  let attributes ← Json.ofMembers r.shownAttributes
  pure ((r.own timestamp message).foldl setMember attributes)

def line (r : Record) : Outcome String := do
  return (Json.obj (← r.members)).text

end Record
end Logging
end TableQuery
