/-! The closed vocabularies: statement kinds, operators, LIKE modes, sort directions, error codes.
Each member has a name in its vocabulary and a text that stands for it. -/

namespace TableQuery

inductive StatementKind
  | select | count | insert | insertMany | update | delete
deriving DecidableEq, Repr

namespace StatementKind

def all : List StatementKind := [.select, .count, .insert, .insertMany, .update, .delete]

def text : StatementKind → String
  | .select => "SELECT"
  | .count => "COUNT"
  | .insert => "INSERT"
  | .insertMany => "INSERT_MANY"
  | .update => "UPDATE"
  | .delete => "DELETE"

end StatementKind

inductive Comparison
  | eq | ne | gt | lt | ge | le
deriving DecidableEq, Repr

namespace Comparison

def all : List Comparison := [.eq, .ne, .gt, .lt, .ge, .le]

def text : Comparison → String
  | .eq => "="
  | .ne => "!="
  | .gt => ">"
  | .lt => "<"
  | .ge => ">="
  | .le => "<="

def name : Comparison → String
  | .eq => "EQ"
  | .ne => "NE"
  | .gt => "GT"
  | .lt => "LT"
  | .ge => "GE"
  | .le => "LE"

end Comparison

inductive LikeOperator
  | like | ilike
deriving DecidableEq, Repr

def LikeOperator.text : LikeOperator → String
  | .like => "LIKE"
  | .ilike => "ILIKE"

inductive NullCheck
  | isNull | isNotNull
deriving DecidableEq, Repr

def NullCheck.text : NullCheck → String
  | .isNull => "IS NULL"
  | .isNotNull => "IS NOT NULL"

def NullCheck.name : NullCheck → String
  | .isNull => "IS_NULL"
  | .isNotNull => "IS_NOT_NULL"

/-- An operator of a condition, by family. -/
inductive Operator
  | comparison (c : Comparison)
  | like (l : LikeOperator)
  | membership
  | nullCheck (n : NullCheck)
deriving DecidableEq, Repr

namespace Operator

def all : List Operator :=
  Comparison.all.map .comparison ++
    [.like .like, .like .ilike, .membership, .nullCheck .isNull, .nullCheck .isNotNull]

def text : Operator → String
  | .comparison c => c.text
  | .like l => l.text
  | .membership => "IN"
  | .nullCheck n => n.text

def name : Operator → String
  | .comparison c => c.name
  | .like l => l.text
  | .membership => "IN"
  | .nullCheck n => n.name

def ofText? (s : String) : Option Operator := all.find? (·.text == s)

end Operator

/-- Where a LIKE pattern has its wildcards. -/
inductive LikeMode
  | startsWith | endsWith | contains | exact
deriving DecidableEq, Repr

namespace LikeMode

def all : List LikeMode := [.startsWith, .endsWith, .contains, .exact]

def text : LikeMode → String
  | .startsWith => "startsWith"
  | .endsWith => "endsWith"
  | .contains => "contains"
  | .exact => "exact"

def name : LikeMode → String
  | .startsWith => "STARTS_WITH"
  | .endsWith => "ENDS_WITH"
  | .contains => "CONTAINS"
  | .exact => "EXACT"

def ofText? (s : String) : Option LikeMode := all.find? (·.text == s)

end LikeMode

inductive Direction
  | asc | desc
deriving DecidableEq, Repr

namespace Direction

def all : List Direction := [.asc, .desc]

def text : Direction → String
  | .asc => "ASC"
  | .desc => "DESC"

def ofText? (s : String) : Option Direction := all.find? (·.text == s)

end Direction

/-- What is wrong with a query, by the part of it that is refused. -/
inductive ErrorCode
  | configError | invalidTableName
  | invalidColumns | invalidTake | invalidSkip
  | invalidField | invalidIn | invalidLike | invalidComparison | invalidNullCheck | invalidSort
  | unsupportedOperator | invalidCondition
  | insertInvalidData | insertInconsistentColumns | insertReturnedEmpty
  | updateInvalidData | updateNoConditions
  | deleteNoConditions
  | notUnique
  | validationError
deriving DecidableEq, Repr

namespace ErrorCode

def all : List ErrorCode :=
  [.configError, .invalidTableName, .invalidColumns, .invalidTake, .invalidSkip, .invalidField,
   .invalidIn, .invalidLike, .invalidComparison, .invalidNullCheck, .invalidSort,
   .unsupportedOperator, .invalidCondition, .insertInvalidData, .insertInconsistentColumns,
   .insertReturnedEmpty, .updateInvalidData, .updateNoConditions, .deleteNoConditions, .notUnique,
   .validationError]

def text : ErrorCode → String
  | .configError => "CONFIG_001"
  | .invalidTableName => "CONFIG_002"
  | .invalidColumns => "SELECT_001"
  | .invalidTake => "SELECT_002"
  | .invalidSkip => "SELECT_003"
  | .invalidField => "WHERE_001"
  | .invalidIn => "WHERE_002"
  | .invalidLike => "WHERE_003"
  | .invalidComparison => "WHERE_004"
  | .invalidNullCheck => "WHERE_005"
  | .invalidSort => "WHERE_006"
  | .unsupportedOperator => "WHERE_007"
  | .invalidCondition => "WHERE_008"
  | .insertInvalidData => "INSERT_001"
  | .insertInconsistentColumns => "INSERT_002"
  | .insertReturnedEmpty => "INSERT_003"
  | .updateInvalidData => "UPDATE_001"
  | .updateNoConditions => "UPDATE_002"
  | .deleteNoConditions => "DELETE_001"
  | .notUnique => "QUERY_001"
  | .validationError => "VALIDATION_001"

def name : ErrorCode → String
  | .configError => "CONFIG_ERROR"
  | .invalidTableName => "INVALID_TABLE_NAME"
  | .invalidColumns => "INVALID_COLUMNS"
  | .invalidTake => "INVALID_TAKE"
  | .invalidSkip => "INVALID_SKIP"
  | .invalidField => "INVALID_FIELD"
  | .invalidIn => "INVALID_IN"
  | .invalidLike => "INVALID_LIKE"
  | .invalidComparison => "INVALID_COMPARISON"
  | .invalidNullCheck => "INVALID_NULL_CHECK"
  | .invalidSort => "INVALID_SORT"
  | .unsupportedOperator => "UNSUPPORTED_OPERATOR"
  | .invalidCondition => "INVALID_CONDITION"
  | .insertInvalidData => "INSERT_INVALID_DATA"
  | .insertInconsistentColumns => "INSERT_INCONSISTENT_COLUMNS"
  | .insertReturnedEmpty => "INSERT_RETURNED_EMPTY"
  | .updateInvalidData => "UPDATE_INVALID_DATA"
  | .updateNoConditions => "UPDATE_NO_CONDITIONS"
  | .deleteNoConditions => "DELETE_NO_CONDITIONS"
  | .notUnique => "NOT_UNIQUE"
  | .validationError => "VALIDATION_ERROR"

end ErrorCode

/-- A member of one of the vocabularies, as a value. -/
inductive Token
  | kind (k : StatementKind)
  | operator (o : Operator)
  | mode (m : LikeMode)
  | direction (d : Direction)
  | code (c : ErrorCode)
deriving DecidableEq, Repr

namespace Token

def vocabulary : Token → String
  | .kind _ => "QueryType"
  | .operator _ => "SqlOperator"
  | .mode _ => "LikePattern"
  | .direction _ => "SortDirection"
  | .code _ => "ErrorCode"

def name : Token → String
  | .kind k => k.text
  | .operator o => o.name
  | .mode m => m.name
  | .direction d => d.text
  | .code c => c.name

def text : Token → String
  | .kind k => k.text
  | .operator o => o.text
  | .mode m => m.text
  | .direction d => d.text
  | .code c => c.text

/-- Error codes are no texts; the members of all other vocabularies are. -/
def isText : Token → Bool
  | .code _ => false
  | _ => true

def label (t : Token) : String := t.vocabulary ++ "." ++ t.name

def all : List Token :=
  StatementKind.all.map .kind ++ Operator.all.map .operator ++ LikeMode.all.map .mode ++
    Direction.all.map .direction ++ ErrorCode.all.map .code

def ofLabel? (s : String) : Option Token := all.find? (·.label == s)

end Token
end TableQuery
