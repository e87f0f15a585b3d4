import TableQuery.Coerce
import TableQuery.Fault
import TableQuery.Value.Equal

/-! What a query has accumulated before it becomes a statement. -/

namespace TableQuery

structure State where
  table : String
  projection : Option (List Value) := none
  filter : Value := .none
  order : List Value := []
  skip : Option Coerce.Whole := none
  take : Option Coerce.Whole := none

namespace State

def optionalWhole : Option Coerce.Whole → Value
  | some n => n.toValue
  | none => .none

def fields (s : State) : List (String × Value) :=
  [("table_name", .str s.table),
   ("projection", match s.projection with | some ps => .tuple ps | none => .none),
   ("where", s.filter),
   ("order_by", .tuple s.order),
   ("skip", optionalWhole s.skip),
   ("take", optionalWhole s.take)]

def fieldNames : List String := ["table_name", "projection", "where", "order_by", "skip", "take"]

def readTable (v : Value) : Except Problem String := do
  let s ← Coerce.text false v
  if s.isEmpty then .error (.stringTooShort 1) else .ok s

/-- Lists, tuples, sets and whatever else is gone through one by one, texts and mappings apart. -/
def readSequence (v : Value) : Except Problem (List Value) :=
  match v with
  | .bytes _ => .error .tupleType
  | v =>
    if v.isMapping || v.text?.isSome then .error .tupleType
    else match v.iterate? with
      | some xs => .ok xs
      | none => .error .tupleType

def optional {α : Type} (read : Value → Except Problem α) : Value → Except Problem (Option α)
  | .none => .ok none
  | v => some <$> read v

def part {α : Type} (entries : List (Value × Value)) (name : String) (absent : Except Problem α)
    (read : Value → Except Problem α) : Except Problem α :=
  match Value.lookup (.str name) entries with
  | some v => read v
  | none => absent

def partIssues {α : Type} (name : String) : Except Problem α → List Issue
  | .ok _ => []
  | .error p => [⟨[.key name], p⟩]

/-- A state from its named parts, or everything that is wrong with them; other parts are ignored. -/
def ofEntries (entries : List (Value × Value)) : Except (List Issue) State :=
  let table := part entries "table_name" (.error .missing) readTable
  let projection := part entries "projection" (.ok none) (optional readSequence)
  let filter := (Value.lookup (.str "where") entries).getD .none
  let order := part entries "order_by" (.ok []) readSequence
  let skip := part entries "skip" (.ok none) (optional (Coerce.integer false))
  let take := part entries "take" (.ok none) (optional (Coerce.integer false))
  match table, projection, order, skip, take with
  | .ok table, .ok projection, .ok order, .ok skip, .ok take =>
    .ok { table, projection, filter, order, skip, take }
  | _, _, _, _, _ =>
    .error (partIssues "table_name" table ++ partIssues "projection" projection ++
      partIssues "order_by" order ++ partIssues "skip" skip ++ partIssues "take" take)

/-- The fields with some replaced, unchecked; a name that is no field is refused. -/
def patched (s : State) (patch : List (String × Value)) : Outcome (List (String × Value)) :=
  let unknown := (patch.map Prod.fst).filter fun n => !fieldNames.contains n
  if (patch.lookup "state").isSome then
    .error (.badCall "with_state() got multiple values for argument 'state'")
  else if unknown.isEmpty then
    .ok (s.fields.map fun f => (f.1, (patch.lookup f.1).getD f.2))
  else .error (.unknownStateFields (unknown.mergeSort fun a b => decide (a ≤ b)))

end State
end TableQuery
