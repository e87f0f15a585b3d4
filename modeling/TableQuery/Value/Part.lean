import TableQuery.Fault
import TableQuery.Value.Equal

/-! Parts of a value by key or position: looked up, put in and taken out. -/

namespace TableQuery
namespace Value

/-- Values whose parts stand in a row. -/
inductive Row
  | list | tuple | string | octets

namespace Row

def wrongKey (type : String) : Row → String
  | list => "list indices must be integers or slices, not " ++ type
  | tuple => "tuple indices must be integers or slices, not " ++ type
  | string => "string indices must be integers, not '" ++ type ++ "'"
  | octets => "byte indices must be integers or slices, not " ++ type

def outside : Row → String
  | list => "list index out of range"
  | tuple => "tuple index out of range"
  | string => "string index out of range"
  | octets => "index out of range"

end Row

def row? : Value → Option (Row × List Value)
  | list xs => some (.list, xs)
  | tuple xs => some (.tuple, xs)
  | sort c d => some (.tuple, [c, d])
  | bytes b => some (.octets, b.map fun o => int o.toNat)
  | v => v.text?.map fun s => (.string, s.toList.map fun c => str (String.singleton c))

/-- Truth values count as positions. -/
def position? : Value → Option Int
  | int n => some n
  | bool b => some (if b then 1 else 0)
  | _ => .none

/-- Only what fits into 64 bits is a position at all. -/
def position (n : Int) : Outcome Int :=
  if -(Int.pow 2 63) ≤ n ∧ n < Int.pow 2 63 then .ok n
  else .error (.badIndex "cannot fit 'int' into an index-sized integer")

/-- A position counted from the front, or from the end if it is negative. -/
def place? (size : Nat) (n : Int) : Option Nat :=
  let k := if n < 0 then n + size else n
  if 0 ≤ k ∧ k < size then some k.toNat else .none

/-- Where a key points to among the parts in a row. -/
def place (r : Row) (outside : String) (size : Nat) (key : Value) : Outcome Nat :=
  match key.position? with
  | .none => .error (.badCall (r.wrongKey key.typeName))
  | some n => do match place? size (← position n) with
    | some k => return k
    | .none => throw (.badIndex outside)

def keyed (key : Value) : Outcome Value :=
  match key.unhashable? with
  | some t => .error (.unhashable t)
  | .none => .ok key

/-- The part under a key or at a position. -/
def part (v key : Value) : Outcome Value :=
  match v.row?, v.entries? with
  | some (r, xs), _ => do return xs.getD (← place r r.outside xs.length key) none
  | .none, some es => do match lookup (← keyed key) es with
    | some x => return x
    | .none => throw (.missingKey key)
  | .none, .none => .error (.badCall ("'" ++ v.typeName ++ "' object is not subscriptable"))

/-- Whether a value has positions, even if nothing stands at them. -/
def hasPositions : Value → Bool
  | none | bool _ | int _ | float _ => false
  | _ => true

/-- The fault of changing what cannot be changed. -/
def refuseChange {α : Type} (v key : Value) (atPosition elsewhere : String) : Outcome α := do
  let isPosition ← match v.hasPositions, key.position? with
    | true, some n => do
      let _ ← position n
      pure true
    | _, _ => pure false
  throw (.badCall ("'" ++ v.typeName ++ "' object " ++ (if isPosition then atPosition else elsewhere)))

/-- Adds a part at the end. -/
def append (v x : Value) : Outcome Value :=
  match v with
  | list xs => .ok (list (xs ++ [x]))
  | v => .error (.noMember v.typeName "append")

/-- Takes out the part under a key or at a position. -/
def erase (v key : Value) : Outcome Value :=
  match v with
  | list xs => do
    return list (xs.eraseIdx (← place .list "list assignment index out of range" xs.length key))
  | map es => do
    let key ← keyed key
    if hasKey key es then return map (es.filter fun e => !same key e.1) else throw (.missingKey key)
  | v => refuseChange v key "doesn't support item deletion" "does not support item deletion"

/-- Puts a part under a key or at a position. -/
def put (v key x : Value) : Outcome Value :=
  match v with
  | list xs => do
    return list (xs.set (← place .list "list assignment index out of range" xs.length key) x)
  | map es => do return map (insert (← keyed key) x es)
  | v => refuseChange v key "does not support item assignment" "does not support item assignment"

end Value
end TableQuery
