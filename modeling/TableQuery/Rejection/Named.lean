import TableQuery.Query.Freeze

/-! Causes built by name, from arguments in order and arguments by name. -/

namespace TableQuery

/-- What a constructor takes: parameters with their defaults, and further named arguments if it is
open. A method counts its receiver among the arguments. -/
structure Signature where
  name : String
  method : Bool := false
  parameters : List (String × Option Value)
  further : Bool := false

namespace Signature

def quotedList (names : List String) : String :=
  match names.map Text.quoted with
  | [a] => a
  | [a, b] => a ++ " and " ++ b
  | qs => ", ".intercalate qs.dropLast ++ ", and " ++ qs.getLastD ""

def plural (n : Nat) (noun : String) : String := noun ++ (if n = 1 then "" else "s")

def tooMany (s : Signature) (given : Nat) : String :=
  let self := if s.method then 1 else 0
  let most := s.parameters.length + self
  let least := (s.parameters.filter (·.2.isNone)).length + self
  let range := if least = most then toString most ++ " positional " ++ plural most "argument"
    else "from " ++ toString least ++ " to " ++ toString most ++ " positional arguments"
  s.name ++ "() takes " ++ range ++ " but " ++
    toString (given + self) ++ (if given + self = 1 then " was" else " were") ++ " given"

/-- The value of each parameter, and the further arguments. -/
def bind (s : Signature) (args : List Value) (named : List (String × Value)) :
    Outcome (List Value × List (String × Value)) := do
  let names := s.parameters.map Prod.fst
  let filled := names.take args.length
  for (n, _) in named do
    if filled.contains n || (s.method && n == "self") then
      throw (.badCall (s.name ++ "() got multiple values for argument " ++ Text.quoted n))
    if !names.contains n && !s.further then
      throw (.badCall (s.name ++ "() got an unexpected keyword argument " ++ Text.quoted n))
  if names.length < args.length then throw (.badCall (s.tooMany args.length))
  let rest := s.parameters.drop args.length
  let missing := (rest.filter fun p => p.2.isNone && (named.lookup p.1).isNone).map Prod.fst
  if !missing.isEmpty then
    throw (.badCall (s.name ++ "() missing " ++ toString missing.length ++ " required positional " ++
      plural missing.length "argument" ++ ": " ++ quotedList missing))
  let values := rest.map fun p => (named.lookup p.1).getD (p.2.getD .none)
  pure (args ++ values, named.filter fun n => !names.contains n.1)

end Signature

namespace Rejection

/-- The text of an issue given as a mapping with a path and a message. -/
def issueText (v : Value) : Outcome String :=
  match v.entries? with
  | some es =>
    match Value.lookup (.str "path") es, Value.lookup (.str "message") es with
    | some p, some m => do
      let path ← p.tell p.plain
      m.tell (path ++ ": " ++ m.plain)
    | none, _ => .error (.missingKey (.str "path"))
    | _, none => .error (.missingKey (.str "message"))
  | none =>
    let wrong (kind : String) := kind ++ " indices must be integers or slices, not str"
    .error (.badCall (match v, v.text? with
      | _, some _ => "string indices must be integers, not 'str'"
      | .list _, _ => wrong "list"
      | .tuple _, _ | .sort .., _ => wrong "tuple"
      | .bytes _, _ => wrong "byte"
      | v, _ => "'" ++ v.typeName ++ "' object is not subscriptable"))

/-- Issues in one line. -/
def issuesText (v : Value) : Outcome String := do
  let parts ← (← Freeze.iterate v).mapM issueText
  pure ("; ".intercalate parts)

def textOf (v : Value) : Outcome String :=
  match v.text? with
  | some s => .ok s
  | none => .error (.badCall ("__str__ returned non-string (type " ++ v.typeName ++ ")"))

/-- A code has a value and a name; a condition that compares has a value alone. -/
def codeOf (v : Value) : Outcome Token :=
  match v with
  | .token t => .ok t
  | .condition c _ => .error (.noMember v.typeName (if c.value?.isSome then "name" else "value"))
  | v => .error (.noMember v.typeName "value")

/-- Details by the texts of their keys. -/
def detailsOf (v : Value) : Outcome (List (String × Value)) :=
  match v.entries? with
  | some es => .ok (es.map fun e => (e.1.plain, e.2))
  | none => if v.isTruthy then .error (.noMember v.typeName "items") else .ok []

/-- Details that issues are added to. -/
def openDetails (v : Value) : Outcome (List (String × Value)) :=
  match v with
  | .map _ => detailsOf v
  | .list (_ :: _) => .error (.badCall "list indices must be integers or slices, not str")
  | v =>
    if v.isTruthy then
      .error (.badCall ("'" ++ v.typeName ++ "' object does not support item assignment"))
    else .ok []

def generalSignature (further : Bool) : Signature :=
  if further then
    { name := "SchemaValidationError.__init__", method := true, further,
      parameters := [("message", none), ("issues", none)] }
  else
    { name := "ChainSQLError.__init__", method := true,
      parameters := [("message", none), ("error_code", some (.token (.code .configError))),
        ("details", some .none)] }

/-- Named arguments that the cause of a schema error hands on. -/
def refuseFurther (named : List (String × Value)) : Outcome Unit :=
  let init := "ChainSQLError.__init__() got "
  let unknown := (named.map Prod.fst).filter (· != "details")
  if unknown.contains "error_code" then
    .error (.badCall ("chainsql.common.exceptions." ++ init ++
      "multiple values for keyword argument 'error_code'"))
  else match unknown with
    | [] => .ok ()
    | n :: _ => .error (.badCall (init ++ "an unexpected keyword argument " ++ Text.quoted n))

def general? (area : Area) (args : List Value) (named : List (String × Value)) :
    Outcome Rejection := do
  match area with
  | .schema =>
    match ← (generalSignature true).bind args named with
    | ([message, issues], further) =>
      let issues ← Freeze.iterate issues
      let details ← openDetails ((further.lookup "details").getD .none)
      refuseFurther further
      pure (.invalidSchema (← textOf message) details issues)
    | _ => throw (.badCall "")
  | area =>
    match (← (generalSignature false).bind args named).1 with
    | [message, code, details] =>
      let code ← codeOf code
      pure (.general area (← textOf message) code (← detailsOf details))
    | _ => throw (.badCall "")

/-- Parameters of the causes that have a name of their own. -/
def parameters : String → Option (List (String × Option Value))
  | "configuration_error" => some [("message", none), ("config_key", some .none)]
  | "invalid_table_name_error" => some [("name", none)]
  | "invalid_columns_error" => some [("columns", none)]
  | "invalid_take_error" | "invalid_skip_error" => some [("value", none)]
  | "invalid_field_error" | "invalid_in_error" => some [("field", none)]
  | "invalid_like_error" => some [("field", none), ("operator", some (.str "LIKE"))]
  | "invalid_comparison_error" | "invalid_null_check_error" | "unsupported_operator_error" =>
    some [("field", none), ("operator", none)]
  | "invalid_condition_error" => some [("condition", none), ("reason", none)]
  | "invalid_sort_error" => some [("direction", none)]
  | "invalid_insert_data_error" => some [("index", some .none)]
  | "inconsistent_columns_error" => some [("index", none), ("expected", none), ("actual", none)]
  | "insert_returned_empty_error" | "not_unique_error" => some [("table", none)]
  | "invalid_update_data_error" => some []
  | "missing_where_error" => some [("operation", none)]
  | "schema_validation_error" => some [("context", none), ("issues", none)]
  | _ => none

def ofArguments (name : String) (values : List Value) : Outcome Rejection :=
  match name, values with
  | "configuration_error", [m, k] => do
    pure (.configuration (← textOf m) (if k.isTruthy then some k else none))
  | "invalid_table_name_error", [v] => .ok (.invalidTableName v)
  | "invalid_columns_error", [v] => do pure (.invalidColumns (← Freeze.iterate v))
  | "invalid_take_error", [v] => .ok (.invalidTake v)
  | "invalid_skip_error", [v] => .ok (.invalidSkip v)
  | "invalid_field_error", [v] => .ok (.invalidField v)
  | "invalid_in_error", [v] => .ok (.invalidIn v)
  | "invalid_like_error", [f, o] => .ok (.invalidLike f o)
  | "invalid_comparison_error", [f, o] => .ok (.invalidComparison f o)
  | "invalid_null_check_error", [f, o] => .ok (.invalidNullCheck f o)
  | "unsupported_operator_error", [f, o] => .ok (.unsupportedOperator f o)
  | "invalid_condition_error", [c, r] => .ok (.invalidCondition c r)
  | "invalid_sort_error", [d] => .ok (.invalidSort d)
  | "invalid_insert_data_error", [i] => .ok (.invalidInsertData i)
  | "inconsistent_columns_error", [i, e, a] => do
    let e ← Freeze.iterate e
    pure (.inconsistentColumns i e (← Freeze.iterate a))
  | "insert_returned_empty_error", [t] => .ok (.insertReturnedEmpty t)
  | "not_unique_error", [t] => .ok (.notUnique t)
  | "invalid_update_data_error", [] => .ok .invalidUpdateData
  | "missing_where_error", [o] => .ok (.missingWhere o)
  | "schema_validation_error", [c, is] => do
    let text ← issuesText is
    let issues ← Freeze.iterate is
    c.tell (.invalidSchema ("Invalid " ++ c.plain ++ ": " ++ text) [("context", c)] issues)
  | _, _ => .error (.badCall name)

/-- The areas that have general causes of their own. -/
def area? : String → Option Area
  | "ChainSQLError" => some .general
  | "TableError" => some .table
  | "QueryError" => some .query
  | "SchemaValidationError" => some .schema
  | _ => none

def named (name : String) (args : List Value) (keywords : List (String × Value)) :
    Outcome Rejection :=
  match area? name, parameters name with
  | some area, _ => general? area args keywords
  | none, some parameters => do
    let (values, _) ← Signature.bind { name, parameters } args keywords
    let c ← ofArguments name values
    if c.hasText then pure c else throw c.raised
  | none, none => .error (.raised "AttributeError"
      ("module 'chainsql.common.exceptions' has no attribute " ++ Text.quoted name))

end Rejection
end TableQuery
