import TableQuery.Fault
import TableQuery.Value.Equal

/-! What a query keeps of a caller's arguments: copies of the outer layers, so that a later change to
them goes unnoticed. `look` opens a shared cell and leaves every other value as it is. -/

namespace TableQuery
namespace Freeze

def allColumns : String := "*"

def item (look : Value → Value) (v : Value) : Value :=
  match (look v).entries? with
  | some es => .frozen es
  | none => v

/-- A mapping becomes a frozen copy, a sequence a tuple of which the mappings are frozen copies. -/
def filter (look : Value → Value) (v : Value) : Value :=
  let v := look v
  match v.entries?, v.items? with
  | some es, _ => .frozen es
  | none, some xs => .tuple (xs.map (item look))
  | none, none => v

def iterate (v : Value) : Outcome (List Value) :=
  match v.iterate? with
  | some xs => .ok xs
  | none => .error (.notIterable v.typeName)

/-- One entry is a sort entry, a mapping, or a pair that begins with a text. -/
def isSingleEntry : Value → Bool
  | .sort .. | .map _ | .frozen _ => true
  | .tuple [c, _] => c.text?.isSome
  | _ => false

def orderItem (look : Value → Value) (v : Value) : Value :=
  match (look v).entries? with
  | some es => .map es
  | none => v

/-- The entries of a sort, as copies. -/
def order (look : Value → Value) (v : Value) : Outcome (List Value) :=
  let v := look v
  if v.isNone then .ok []
  else if isSingleEntry v then .ok [orderItem look v]
  else do
    let xs ← iterate v
    pure (xs.map (orderItem look))

/-- The named columns, or none for all of them. -/
def projection (look : Value → Value) (v : Value) : Outcome (Option (List Value)) :=
  let v := look v
  if v.isNone || Value.same v (.str allColumns) then .ok none
  else if v.text?.isSome then .ok (some [v])
  else do
    let xs ← iterate v
    pure (if Value.sameAll xs [.str allColumns] then none else some xs)

end Freeze
end TableQuery
