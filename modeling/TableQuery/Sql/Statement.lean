import TableQuery.Sql.Identifier

/-! Statements: what is asked for, apart from how it is written. -/

namespace TableQuery

/-- Columns that a statement gives back. -/
inductive Columns
  | all
  | named (names : List String)
deriving DecidableEq, Repr

/-- One conjunct of a filter. A comparison with a truth value has it as a keyword, all other operands
are parameters. -/
inductive Predicate
  | isNull (column : String)
  | isNotNull (column : String)
  | isFlag (column : String) (negated flag : Bool)
  | compare (column : String) (operator : Comparison) (operand : Value)
  | like (column : String) (operator : LikeOperator) (pattern : String)
  | oneOf (column : String) (members : List Value)

/-- A filter is the conjunction of its predicates; without any there is no filter. -/
abbrev Filter := List Predicate

inductive Statement
  | select (columns : Columns) (target : Target) (filter : Filter)
      (order : List (String × Direction)) (take skip : Option Int)
  | count (target : Target) (filter : Filter)
  | insert (target : Target) (names : List String) (row : List Value) (returning : Columns)
  | insertMany (target : Target) (names : List String) (rows : List (List Value))
      (returning : Columns)
  | update (target : Target) (assignments : List (String × Value)) (filter : Filter)
      (returning : Columns)
  | delete (target : Target) (filter : Filter) (returning : Columns)

namespace Predicate

def column : Predicate → String
  | isNull c | isNotNull c | isFlag c .. | compare c .. | like c .. | oneOf c _ => c

end Predicate

namespace Statement

def target : Statement → Target
  | select _ t .. | count t _ | insert t .. | insertMany t .. | update t .. | delete t .. => t

def filter : Statement → Filter
  | select _ _ f .. | count _ f | update _ _ f _ | delete _ f _ => f
  | insert .. | insertMany .. => []

end Statement
end TableQuery
