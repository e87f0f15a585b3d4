import TableQuery.Condition
import TableQuery.Like
import TableQuery.Naming
import TableQuery.Sql.Statement

/-! Filters from equality maps and lists of conditions. -/

namespace TableQuery
namespace Filter

/-- Whether a value holds anything to filter by: a mapping or a sequence of any type that is not
empty. -/
def isPresent : Value → Bool
  | .map es | .frozen es => !es.isEmpty
  | .list xs | .tuple xs | .sequence _ xs => !xs.isEmpty
  | .sort .. => true
  | _ => false

def column (rules : Naming) (field : Value) : Outcome String :=
  match rules.column.name? field with
  | some name => .ok name
  | none => reject (.invalidField field)

/-- A truth value has no order. -/
def comparison (column : String) (operator : Comparison) (v : Value) : Outcome Predicate :=
  match v, operator with
  | .bool b, .eq => .ok (.isFlag column false b)
  | .bool b, .ne => .ok (.isFlag column true b)
  | .bool _, _ => .error .unorderedBoolean
  | v, o => .ok (.compare column o v)

def equality (rules : Naming) (field value : Value) : Outcome Predicate := do
  let c ← column rules field
  if value.isNone then pure (.isNull c) else comparison c .eq value

def isComparable : Value → Bool
  | .none | .list _ | .tuple _ | .sort .. | .set _ | .map _ | .frozen _ | .shared _ => false
  | _ => true

/-- The value is checked before the column. -/
def condition (rules : Naming) (c : Condition Value) : Outcome Predicate :=
  match c with
  | .base f => reject (.unsupportedOperator (.str f) .none)
  | .comparison f o v =>
    if isComparable v then do
      let c ← column rules (.str f)
      comparison c o v
    else reject (.invalidComparison (.str f) (.str o.text))
  | .like f o v p =>
    match v.text? with
    | some s => do
      let c ← column rules (.str f)
      pure (.like c o (Like.pattern p s))
    | none => reject (.invalidLike (.str f) (.str o.text))
  | .membership f v =>
    match v.items? with
    | some (x :: xs) => do
      let c ← column rules (.str f)
      pure (.oneOf c (x :: xs))
    | _ => reject (.invalidIn (.str f))
  | .nullCheck f o v =>
    if v.isNone then do
      let c ← column rules (.str f)
      pure (match o with | .isNull => .isNull c | .isNotNull => .isNotNull c)
    else reject (.invalidNullCheck (.str f) (.str o.text))

def item (rules : Naming) (v : Value) : Outcome Predicate := do
  condition rules (← Condition.ofValue v)

/-- One predicate for each entry of a mapping or each item of a sequence, in their order. -/
def ofValue (rules : Naming) (v : Value) : Outcome Filter :=
  if v.isNone then .ok []
  else match v.entries?, v.items? with
    | some es, _ => es.mapM fun e => equality rules e.1 e.2
    | none, some xs => xs.mapM (item rules)
    | none, none =>
      reject (.invalidCondition v (.str "expected a mapping or a list of conditions"))

end Filter
end TableQuery
