import TableQuery.Fault
import TableQuery.Value.Equal

/-! Entries under keys, from mappings and from sequences of pairs. -/

namespace TableQuery

/-- Entries in insertion order, no two under the same key. -/
abbrev Entries := List (Value × Value)

namespace Value

def named (fields : List (String × Value)) : Entries := fields.map fun f => (.str f.1, f.2)

/-- Arguments by name, whose keys are texts. -/
def keywords (es : Entries) : Outcome (List (String × Value)) :=
  es.mapM fun e => match e.1.text? with
    | some s => .ok (s, e.2)
    | .none => .error (.badCall "keywords must be strings")

def insertAll (news entries : Entries) : Entries :=
  news.foldl (fun es e => insert e.1 e.2 es) entries

/-- A member of a sequence as an entry: two parts, of which the first can be a key. -/
def toEntry (index : Nat) (member : Value) : Outcome (Value × Value) :=
  let place := "dictionary update sequence element #" ++ toString index
  match member.iterate? with
  | some [key, value] => match key.unhashable? with
    | some t => .error (.unhashable t)
    | .none => .ok (key, value)
  | some parts =>
    .error (.badValue (place ++ " has length " ++ toString parts.length ++ "; 2 is required"))
  | .none => .error (.badCall ("cannot convert " ++ place ++ " to a sequence"))

/-- Adds pairs one after another. Those before one that is no entry stay. -/
def addPairs : Entries → (index : Nat) → List Value → Entries × Outcome Unit
  | es, _, [] => (es, .ok ())
  | es, index, x :: xs => match toEntry index x with
    | .ok (k, v) => addPairs (insert k v es) (index + 1) xs
    | .error f => (es, .error f)

/-- Adds what a mapping holds, or the pairs of a sequence. -/
def addEntries (es : Entries) (v : Value) : Entries × Outcome Unit :=
  match v.entries?, v.iterate? with
  | some news, _ => (insertAll news es, .ok ())
  | .none, some pairs => addPairs es 0 pairs
  | .none, .none => (es, .error (.notIterable v.typeName))

def toEntries (v : Value) : Outcome Entries :=
  match addEntries [] v with
  | (es, .ok ()) => .ok es
  | (_, .error f) => .error f

end Value
end TableQuery
