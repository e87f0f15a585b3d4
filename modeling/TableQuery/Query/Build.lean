import TableQuery.Query.Filter
import TableQuery.Query.Freeze
import TableQuery.Query.State
import TableQuery.Value.Integer

/-! Statements from query states. -/

namespace TableQuery

namespace Sorting

/-- The column and direction of an entry: a sort entry, a mapping, or a pair. -/
def entry (v : Value) : Outcome (Value × Value) :=
  match v with
  | .sort c d | .tuple [c, d] => .ok (c, d)
  | v => if v.isMapping then .ok (v.get "column", v.get "direction") else reject (.invalidSort v)

/-- A direction in capitals, by name or as a member. -/
def direction? (v : Value) : Option Direction := v.text?.bind Direction.ofText?

def clause (rules : Naming) (v : Value) : Outcome (String × Direction) := do
  let (c, d) ← entry v
  match direction? d with
  | none => reject (.invalidSort d)
  | some d => match rules.column.name? c with
    | some name => .ok (name, d)
    | none => reject (.invalidColumns [c])

def ofItems (rules : Naming) (items : List Value) : Outcome (List (String × Direction)) :=
  items.mapM (clause rules)

/-- A value that counts as not given sorts nothing. -/
def ofValue (rules : Naming) (v : Value) : Outcome (List (String × Direction)) :=
  if v.isTruthy then do ofItems rules (← Freeze.iterate v) else .ok []

end Sorting

namespace Projection

/-- A column name, which is not the star. -/
def name? (rules : Naming) (v : Value) : Option String :=
  (rules.column.name? v).filter (· != Freeze.allColumns)

/-- The second and later occurrences, in order. -/
def repeats : (seen : List String) → List String → List String
  | _, [] => []
  | seen, n :: ns => if seen.contains n then n :: repeats seen ns else repeats (n :: seen) ns

def ofItems (rules : Naming) (items : List Value) : Outcome Columns :=
  if items.isEmpty then .ok .all
  else
    let invalid := items.filter fun v => (name? rules v).isNone
    let names := items.filterMap (name? rules)
    if !invalid.isEmpty then reject (.invalidColumns invalid)
    else if !(repeats [] names).isEmpty then
      reject (.invalidColumns ((repeats [] names).map .str))
    else .ok (.named names)

def ofValue (rules : Naming) (v : Value) : Outcome Columns :=
  if v.isTruthy then do ofItems rules (← Freeze.iterate v) else .ok .all

end Projection

namespace Query

def target (rules : Naming) (name : Value) : Outcome Target :=
  match rules.name? name with
  | some trimmed => .ok (.ofName rules.qualified trimmed)
  | none => reject (.invalidTableName name)

/-- The entries of a record that holds any. -/
def record? (v : Value) : Option (List (Value × Value)) := v.entries?.filter (!·.isEmpty)

def isRecord (v : Value) : Bool := (record? v).isSome

/-- Entries under their trimmed names, of which no two may be the same. -/
def distinct : (seen : List String) → List (String × Value) → Outcome Unit
  | _, [] => .ok ()
  | seen, (n, _) :: rest =>
    if seen.contains n then reject (.invalidColumns [.str n]) else distinct (n :: seen) rest

def payload (rules : Naming) (entries : List (Value × Value)) : Outcome (List (String × Value)) := do
  let invalid := (entries.map Prod.fst).filter fun k => !rules.column.isValid k
  if !invalid.isEmpty then reject (.invalidColumns invalid)
  else
    let named := entries.filterMap fun e => (rules.column.name? e.1).map fun n => (n, e.2)
    distinct [] named
    pure named

/-- Records of a batch; the first value that is none is reported by its position. -/
def records : (index : Nat) → List Value → Outcome (List (List (Value × Value)))
  | _, [] => .ok []
  | index, v :: vs =>
    match record? v with
    | none => reject (.invalidInsertData (.int index))
    | some entries => do
      let rest ← records (index + 1) vs
      pure (entries :: rest)

/-- Each record has to have the keys of the first one. -/
def consistent (expected : List Value) : (index : Nat) → List (List (Value × Value)) → Outcome Unit
  | _, [] => .ok ()
  | index, r :: rs =>
    if Value.sameKeys (r.map Prod.fst) expected then consistent expected (index + 1) rs
    else reject (.inconsistentColumns (.int index) expected (r.map Prod.fst))

def returning (rules : Naming) (s : State) : Outcome Columns :=
  Projection.ofItems rules (s.projection.getD [])

def bound? : Option Coerce.Whole → Outcome (Option Int)
  | some n => some <$> n.toValue.toInteger
  | none => .ok none

def select (rules : Naming) (s : State) : Outcome Statement := do
  let columns ← returning rules s
  let t ← target rules (.str s.table)
  let f ← Filter.ofValue rules s.filter
  let order ← Sorting.ofItems rules s.order
  let take ← bound? s.take
  let skip ← bound? s.skip
  pure (.select columns t f order take skip)

def count (rules : Naming) (s : State) : Outcome Statement := do
  let t ← target rules (.str s.table)
  let f ← Filter.ofValue rules s.filter
  pure (.count t f)

def insert (rules : Naming) (s : State) (data : Value) : Outcome Statement :=
  match record? data with
  | none => reject (.invalidInsertData .none)
  | some entries => do
    let row ← payload rules entries
    let t ← target rules (.str s.table)
    let columns ← returning rules s
    pure (.insert t (row.map Prod.fst) (row.map Prod.snd) columns)

def insertMany (rules : Naming) (s : State) (data : Value) : Outcome Statement :=
  match data.items? with
  | none | some [] => reject (.invalidInsertData .none)
  | some items => do
    let batch ← records 0 items
    consistent ((batch.headD []).map Prod.fst) 1 batch.tail
    let rows ← batch.mapM (payload rules)
    let t ← target rules (.str s.table)
    let names := (rows.headD []).map Prod.fst
    let columns ← returning rules s
    pure (.insertMany t names (rows.map fun r => names.map fun n => (r.lookup n).getD .none) columns)

def update (rules : Naming) (s : State) (data : Value) : Outcome Statement :=
  if !Filter.isPresent s.filter then reject (.missingWhere (.str "update"))
  else match record? data with
    | none => reject .invalidUpdateData
    | some entries => do
      let assignments ← payload rules entries
      let t ← target rules (.str s.table)
      let f ← Filter.ofValue rules s.filter
      let columns ← returning rules s
      pure (.update t assignments f columns)

def delete (rules : Naming) (s : State) : Outcome Statement :=
  if !Filter.isPresent s.filter then reject (.missingWhere (.str "delete"))
  else do
    let t ← target rules (.str s.table)
    let f ← Filter.ofValue rules s.filter
    let columns ← returning rules s
    pure (.delete t f columns)

def build (rules : Naming) (kind : StatementKind) (s : State) (data : Value) : Outcome Statement :=
  match kind with
  | .select => select rules s
  | .count => count rules s
  | .insert => insert rules s data
  | .insertMany => insertMany rules s data
  | .update => update rules s data
  | .delete => delete rules s

/-- The kind that a value stands for. -/
def kind? (v : Value) : Option StatementKind :=
  v.text?.bind fun s => StatementKind.all.find? (·.text == s)

/-- The statement of a kind that is given as a value. -/
def buildValue (rules : Naming) (kind : Value) (s : State) (data : Value) : Outcome Statement :=
  match kind.unhashable? with
  | some type => .error (.unhashable type)
  | none => match kind? kind with
    | some k => build rules k s data
    | none => do throw (← kind.tell (.unsupportedKind kind))

end Query
end TableQuery
