import TableQuery.Value.Display

/-! Why the library refuses a query: the cause, and the code, message and details that report it. -/

namespace TableQuery

/-- A place in a checked value, and what is wrong there. -/
structure Finding where
  path : String
  message : String
deriving DecidableEq, Repr

def Finding.toValue (f : Finding) : Value :=
  .map [(.str "path", .str f.path), (.str "message", .str f.message)]

/-- Errors of set-up, of queries, of checked values, and those of no particular part. -/
inductive Area
  | general | table | query | schema
deriving DecidableEq, Repr

inductive Rejection
  | general (area : Area) (message : String) (code : Token) (details : List (String × Value))
  | configuration (message : String) (key : Option Value)
  | invalidTableName (name : Value)
  | invalidColumns (names : List Value)
  | invalidTake (value : Value)
  | invalidSkip (value : Value)
  | invalidField (field : Value)
  | invalidIn (field : Value)
  | invalidLike (field operator : Value)
  | invalidComparison (field operator : Value)
  | invalidNullCheck (field operator : Value)
  | unsupportedOperator (field operator : Value)
  | invalidCondition (condition : Value) (reason : Value)
  | invalidSort (direction : Value)
  | invalidInsertData (index : Value)
  | inconsistentColumns (index : Value) (expected actual : List Value)
  | insertReturnedEmpty (table : Value)
  | invalidUpdateData
  | missingWhere (operation : Value)
  | notUnique (table : Value)
  | invalidSchema (message : String) (details : List (String × Value)) (issues : List Value)

namespace Rejection

def area : Rejection → Area
  | general a .. => a
  | configuration .. | invalidTableName _ => .table
  | invalidSchema .. => .schema
  | _ => .query

/-- The code of a cause with a name of its own. -/
def ownCode : Rejection → ErrorCode
  | general .. | configuration .. => .configError
  | invalidTableName _ => .invalidTableName
  | invalidColumns _ => .invalidColumns
  | invalidTake _ => .invalidTake
  | invalidSkip _ => .invalidSkip
  | invalidField _ => .invalidField
  | invalidIn _ => .invalidIn
  | invalidLike .. => .invalidLike
  | invalidComparison .. => .invalidComparison
  | invalidNullCheck .. => .invalidNullCheck
  | unsupportedOperator .. => .unsupportedOperator
  | invalidCondition .. => .invalidCondition
  | invalidSort _ => .invalidSort
  | invalidInsertData _ => .insertInvalidData
  | inconsistentColumns .. => .insertInconsistentColumns
  | insertReturnedEmpty _ => .insertReturnedEmpty
  | invalidUpdateData => .updateInvalidData
  | missingWhere operation =>
    if operation.text? = some "delete" then .deleteNoConditions else .updateNoConditions
  | notUnique _ => .notUnique
  | invalidSchema .. => .validationError

/-- A general cause can carry a member of any vocabulary. -/
def code : Rejection → Token
  | general _ _ t _ => t
  | c => .code c.ownCode

def message : Rejection → String
  | general _ m _ _ => m
  | configuration m _ => m
  | invalidTableName _ => "Invalid table name"
  | invalidColumns names => "Invalid columns: " ++ ", ".intercalate (names.map Value.plain)
  | invalidTake _ => "Take must be > 0"
  | invalidSkip _ => "Skip must be >= 0"
  | invalidField f => "Invalid field: " ++ f.plain
  | invalidIn f => "Invalid IN values: " ++ f.plain
  | invalidLike f _ => "LIKE/ILIKE requires string: " ++ f.plain
  | invalidComparison f o => "Invalid value for " ++ o.plain ++ ": " ++ f.plain
  | invalidNullCheck f o => o.plain ++ " does not take a value: " ++ f.plain
  | unsupportedOperator f o => "Unsupported operator " ++ o.plain ++ ": " ++ f.plain
  | invalidCondition _ reason => "Invalid condition: " ++ reason.plain
  | invalidSort _ => "Sort must be ASC/DESC"
  | invalidInsertData _ => "Invalid data to insert"
  | inconsistentColumns .. => "Inconsistent columns across records"
  | insertReturnedEmpty _ => "Insert returned no row"
  | invalidUpdateData => "Invalid data to update"
  | missingWhere _ => "WHERE clause required"
  | notUnique _ => "Query returned more than one row"
  | invalidSchema m .. => m

/-- An entry replaces an earlier one of the same name in its place. -/
def withDetail (details : List (String × Value)) (name : String) (v : Value) :
    List (String × Value) :=
  if details.any (·.1 == name) then details.map fun d => if d.1 == name then (name, v) else d
  else details ++ [(name, v)]

def details : Rejection → List (String × Value)
  | general _ _ _ d => d
  | configuration _ key => match key with
    | some k => [("config_key", k)]
    | none => []
  | invalidTableName n => [("table", .str n.plain)]
  | invalidColumns names => [("columns", .list (names.map fun n => .str n.plain))]
  | invalidTake v | invalidSkip v => [("value", .str v.shown)]
  | invalidField f => [("field", .str f.plain)]
  | invalidIn f => [("field", f), ("operator", .str "IN")]
  | invalidLike f o | invalidComparison f o | invalidNullCheck f o => [("field", f), ("operator", o)]
  | unsupportedOperator f o => [("field", .str f.plain), ("operator", .str o.plain)]
  | invalidCondition c _ => [("condition", .str c.shown)]
  | invalidSort d => [("direction", .str d.shown)]
  | invalidInsertData index => if index.isNone then [] else [("index", index)]
  | inconsistentColumns index expected actual =>
    [("index", index), ("expected", .list expected), ("actual", .list actual)]
  | insertReturnedEmpty t => [("table", t)]
  | invalidUpdateData => []
  | missingWhere operation => [("operation", operation)]
  | notUnique t => [("table", t)]
  | invalidSchema _ d issues => withDetail d "issues" (.list issues)

/-- The values that the message or the details of a cause write out. -/
def cited : Rejection → List Value
  | invalidTableName v | invalidTake v | invalidSkip v | invalidField v | invalidIn v
  | invalidSort v => [v]
  | invalidColumns names => names
  | invalidLike f _ => [f]
  | invalidComparison f o | invalidNullCheck f o | unsupportedOperator f o => [f, o]
  | invalidCondition c reason => [c, reason]
  | _ => []

/-- Whether a cause can be reported. -/
def hasText (c : Rejection) : Bool := c.cited.all Value.hasText

/-- Findings in one line. -/
def summary (findings : List Finding) : String :=
  "; ".intercalate (findings.map fun f => f.path ++ ": " ++ f.message)

/-- All that is wrong with a filter or payload, as one cause. -/
def schemaFindings (subject : String) (findings : List Finding) : Rejection :=
  .invalidSchema ("Invalid " ++ subject ++ ": " ++ summary findings) [("context", .str subject)]
    (findings.map Finding.toValue)

end Rejection
end TableQuery
