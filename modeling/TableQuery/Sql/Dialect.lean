import TableQuery.Value

/-! The dialects in which a statement can be written. -/

namespace TableQuery

inductive Dialect
  | postgresql | sqlite
deriving DecidableEq, Repr

namespace Dialect

def name : Dialect → String
  | .postgresql => "postgresql"
  | .sqlite => "sqlite"

/-- Parameters are written by name, so that a percent sign has to be doubled elsewhere. -/
def named : Dialect → Bool
  | .postgresql => true
  | .sqlite => false

/-- The longest parameter name that is not cut. -/
def longestName : Dialect → Nat
  | .postgresql => 57
  | .sqlite => 9993

end Dialect

/-- A type that a parameter is marked with where the dialect needs one. -/
inductive Cast
  | integer | bigint | varchar
deriving DecidableEq, Repr

namespace Cast

def text : Cast → String
  | .integer => "INTEGER"
  | .bigint => "BIGINT"
  | .varchar => "VARCHAR"

/-- Integers of fewer than 32 bits, other integers, and plain texts. -/
def ofValue? : Value → Option Cast
  | .int n => some (if n.natAbs < Nat.pow 2 31 then .integer else .bigint)
  | .str _ => some .varchar
  | _ => none

end Cast
end TableQuery
