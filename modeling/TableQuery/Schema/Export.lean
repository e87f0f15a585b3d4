import TableQuery.Schema.Check
import TableQuery.Value.Entries

/-! Checked values as plain data. -/

namespace TableQuery
namespace Schema

/-- A value that serves as a key or as a member of a set. -/
def keyable (v : Value) : Outcome Value :=
  match v.unhashable? with
  | some type => .error (.unhashable type)
  | none => .ok v

mutual

/-- A value of no declared type as data: sort entries as pairs, conditions as their given parts. -/
def plainData : Value → Outcome Value
  | .list xs => return .list (← plainAll xs)
  | .tuple xs => return .tuple (← plainAll xs)
  | .set xs => return .set (← plainMembers xs)
  | .map es => return .map (← plainEntries es)
  | .sort c d => return .tuple [← plainData c, ← plainData d]
  | .condition c given => return .map (← plainParts given c)
  | v => .ok v

def plainAll : List Value → Outcome (List Value)
  | [] => .ok []
  | x :: xs => do
    let x ← plainData x
    let xs ← plainAll xs
    pure (x :: xs)

def plainMembers : List Value → Outcome (List Value)
  | [] => .ok []
  | x :: xs => do
    let x ← keyable (← plainData x)
    let xs ← plainMembers xs
    pure (x :: xs)

def plainEntries : List (Value × Value) → Outcome (List (Value × Value))
  | [] => .ok []
  | (k, v) :: es => do
    let k ← plainData k
    let v ← plainData v
    let k ← keyable k
    let es ← plainEntries es
    pure ((k, v) :: es)

def plainParts (given : Given) : Condition Value → Outcome (List (Value × Value))
  | .base f => .ok [(.str "field", .str f)]
  | .comparison f o v => do
    let v ← plainData v
    pure ([(.str "field", .str f), (.str "operator", .str o.text)] ++
      if given.value then [(.str "value", v)] else [])
  | .like f o v p => do
    let v ← plainData v
    pure ([(.str "field", .str f), (.str "operator", .str o.text)] ++
      (if given.value then [(.str "value", v)] else []) ++
      if given.pattern then
        [(.str "pattern", match p with | some m => .str m.text | none => .none)]
      else [])
  | .membership f v => do
    let v ← plainData v
    pure ([(.str "field", .str f), (.str "operator", .str "IN")] ++
      if given.value then [(.str "value", v)] else [])
  | .nullCheck f o v => do
    let v ← plainData v
    pure ([(.str "field", .str f), (.str "operator", .str o.text)] ++
      if given.value then [(.str "value", v)] else [])

end

def plainFields : List (String × Value) → Outcome (List (Value × Value))
  | [] => .ok []
  | (n, v) :: es => do
    let v ← plainData v
    let es ← plainFields es
    pure ((.str n, v) :: es)

mutual

/-- The value as plain data, with the given fields of each instance only. What an open model keeps
under the name of a field is data of that name too, in place of the field's own. -/
def Checked.given : Checked → Outcome Value
  | .value v => plainData v
  | .list xs => return .list (← Checked.givenAll xs)
  | .instance _ fs others => do
    let fields ← Checked.givenFields (others.map Prod.fst) fs
    return .map (Value.insertAll (← plainFields others) fields)

def Checked.givenAll : List Checked → Outcome (List Value)
  | [] => .ok []
  | x :: xs => do
    let x ← x.given
    let xs ← Checked.givenAll xs
    pure (x :: xs)

def Checked.givenFields (others : List String) :
    List (String × Bool × Checked) → Outcome (List (Value × Value))
  | [] => .ok []
  | (n, given, c) :: fs => do
    let isGiven := given || others.contains n
    let here ← if isGiven then (fun v => [(Value.str n, v)]) <$> c.given else pure []
    let rest ← Checked.givenFields others fs
    pure (here ++ rest)

end

end Schema
end TableQuery
