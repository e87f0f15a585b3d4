import TableQuery.Engine.Journal

/-! Spans around calls. -/

namespace TableQuery
namespace Traced

def version : String := "0.1.0"

/-- Entries that hold something, an entry of the second list in place of one of the first. -/
def merge (fixed dynamic : Entries) : Entries :=
  Value.insertAll (dynamic.filter (!·.2.isNone)) (fixed.filter (!·.2.isNone))

/-- Attributes given as a mapping; a value that counts as not given holds none. -/
def read (v : Value) : Outcome Entries :=
  match v.entries? with
  | some es => .ok es
  | none => if v.isTruthy then .error (.noMember v.typeName "items") else .ok []

/-- The name of a span that is not given one. -/
def defaultName (space name : String) : String := space ++ "." ++ name

/-- Fixed attributes and those that a getter gives for a call. A failing getter gives none, and a
warning. -/
def collect (fixed : Value) (getter : Run Value) : Run Entries := do
  let fixed ← Run.ofOutcome (read fixed)
  match ← getter.attempt with
  | .ok v => return merge fixed (← Run.ofOutcome (read v))
  | .error f => do
    Run.log { level := .warning, logger := "chainsql.utils.decorators",
              message := "trace attribute getter failed: " ++ f.message }
    pure (merge fixed [])

/-- A call inside a span, which is told its attributes first. Without attributes to be read there is no
call; a fault of the call is recorded and goes on unchanged. -/
def run {α : Type} (tracer name kind : String) (fixed : Value) (getter : Run Value)
    (call : Run α) : Run α := do
  let span ← Run.openSpan { tracer, name, kind }
  let attributes ← collect fixed getter
  attributes.forM fun a => Run.tellSpan span fun s => { s with attributes := s.attributes ++ [a] }
  match ← call.attempt with
  | .ok a => pure a
  | .error f => do
    Run.tellSpan span fun s => { s with recorded := s.recorded ++ [f] }
    Run.tellSpan span fun s => { s with failure := some f.message }
    throw f

/-- The arguments of a call, by position and by name. -/
structure Arguments where
  positional : List Value := []
  named : Entries := []

/-- The function that is called, and what a span around its calls is like. A getter of attributes sees the
arguments that the function is called with. -/
structure Plan where
  space : String
  function : String
  name : Option String := none
  kind : String := "CLIENT"
  fixed : Value := .none
  getter : Option (Arguments → Run Value) := none

namespace Plan

/-- A name that is empty counts as not given. -/
def spanName (p : Plan) : String :=
  (p.name.filter (!·.isEmpty)).getD (defaultName p.space p.function)

/-- The attributes that a getter gives; without a getter there are none. -/
def asked (p : Plan) (a : Arguments) : Run Value :=
  match p.getter with
  | some g => g a
  | none => pure .none

/-- A function in whose place each call of it runs inside a span. -/
def wrap {α : Type} (p : Plan) (f : Arguments → Run α) (a : Arguments) : Run α :=
  run p.space p.spanName p.kind p.fixed (p.asked a) (f a)

end Plan
end Traced
end TableQuery
