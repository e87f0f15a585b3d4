import TableQuery.Fault

/-! Bounds of LIMIT and OFFSET. -/

namespace TableQuery
namespace Pagination

/-- A count of at least `least`; truth values are no counts. -/
def count? (least : Int) : Value → Option Int
  | .int n => if least ≤ n then some n else none
  | _ => none

def isAccepted (least : Int) (v : Value) : Bool := v.isNone || (count? least v).isSome

def take (v : Value) : Outcome (Option Int) :=
  if isAccepted 1 v then .ok (count? 1 v) else reject (.invalidTake v)

def skip (v : Value) : Outcome (Option Int) :=
  if isAccepted 0 v then .ok (count? 0 v) else reject (.invalidSkip v)

/-- Checks both bounds, LIMIT first. -/
def check (skipped taken : Value) : Outcome Unit := do
  let _ ← take taken
  let _ ← skip skipped
  pure ()

end Pagination
end TableQuery
