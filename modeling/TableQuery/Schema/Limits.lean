import TableQuery.Coerce
import TableQuery.Fault
import TableQuery.Number.Shortest
import TableQuery.Schema.Model
import TableQuery.Value.Equal

/-! Whether a value keeps to its limits. A limit that makes no sense for a value cannot be applied at
all. -/

namespace TableQuery
namespace Schema

namespace Limit

/-- What is wrong with a value of that order beside the bound. Beside a number that is none there is
no order, and every bound is broken. -/
def boundProblem? (order : Int → Option Ordering) : Limit → Option Problem
  | greaterThan n => if order n == some .gt then none else some (.greaterThan n)
  | greaterThanEqual n => if (order n).any (· != .lt) then none else some (.greaterThanEqual n)
  | lessThan n => if order n == some .lt then none else some (.lessThan n)
  | lessThanEqual n => if (order n).any (· != .gt) then none else some (.lessThanEqual n)
  | _ => none

/-- What is wrong with a text that is found to be too short, too long or of another form. -/
def textProblem? (s : String) : Limit → Option Problem
  | minLength n => if (s.length : Int) < n then some (.stringTooShort n) else none
  | maxLength n => if n < s.length then some (.stringTooLong n) else none
  | pattern p => if Text.Pattern.occurs p s then none else some (.patternMismatch p)
  | _ => none

/-- The bound as the number that is nearest to it. -/
def rounded (l : Limit) : Limit :=
  let near (n : Int) : Int := (Binary64.ofInt n).shortestInt?.getD n
  match l with
  | greaterThan n => greaterThan (near n)
  | greaterThanEqual n => greaterThanEqual (near n)
  | lessThan n => lessThan (near n)
  | lessThanEqual n => lessThanEqual (near n)
  | l => l

/-- The first problem in the order of the ranks. -/
def firstProblem (problem? : Limit → Option Problem) (limits : List Limit) : Option Problem :=
  (limits.mergeSort fun a b => a.rank ≤ b.rank).findSome? problem?

/-- A limit that makes no sense for a value. Of a value that cannot be written out, this itself cannot
be told, which counts as something wrong with the value. -/
def inapplicable {α : Type} (l : Limit) (v : Value) (behind : String) : Outcome (Except Problem α) :=
  if v.hasText then
    .error (.badCall ("Unable to apply constraint '" ++ l.name ++ "' to supplied value " ++ v.plain ++
      behind))
  else .ok (.error (.refused Numeral.tooManyDigits))

/-- The order of a value beside an integer, for values that have one. -/
def order? (v : Value) (n : Int) : Option (Option Ordering) :=
  v.number?.map fun
    | .inl m => some (compare m n)
    | .inr x => x.compareInt? n

/-- A value that is held against one limit, whatever its type: the value, which a pattern takes as
a text, or what is wrong. `type` is what it was read as. -/
def hold (type : String) (l : Limit) (v : Value) : Outcome (Except Problem Value) :=
  let verdict (p : Option Problem) : Outcome (Except Problem Value) :=
    .ok (p.elim (.ok v) .error)
  match l with
  | minLength n => match v.size? with
    | some k => verdict (if (k : Int) < n then some (.tooShort "Value" n k) else none)
    | none => inapplicable l v ""
  | maxLength n => match v.size? with
    | some k => verdict (if n < k then some (.tooLong "Value" n (some k)) else none)
    | none => inapplicable l v ""
  | pattern p => match Coerce.text false v with
    | .ok s => .ok (if Text.Pattern.occurs p s then .ok (.str s) else .error (.patternMismatch p))
    | .error .stringType => inapplicable l v (" for schema of type '" ++ type ++ "'")
    | .error e => .ok (.error e)
  | l => if (order? v 0).isSome then verdict (boundProblem? (fun n => (order? v n).getD none) l)
    else inapplicable l v ""

/-- A value held against one limit after the other, up to the first that it breaks. -/
def holdAll : (type : String) → List Limit → Value → Outcome (Except Problem Value)
  | _, [], v => .ok (.ok v)
  | type, l :: ls, v => do
    match ← hold type l v with
    | .ok v => holdAll "function-after" ls v
    | .error p => pure (.error p)

end Limit

end Schema
end TableQuery
