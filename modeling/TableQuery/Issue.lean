import TableQuery.Text.Quoted

/-! What can be wrong with a value that has to fit a type, and where. -/

namespace TableQuery

inductive Problem
  | missing
  | extraForbidden
  | invalidKey
  | stringType
  | stringUnicode
  | stringTooShort (least : Int)
  | stringTooLong (most : Int)
  | patternMismatch (pattern : String)
  | intType
  | intParsing
  | intTooLarge
  | intFromFloat
  | finiteNumber
  | floatType
  | floatParsing
  | boolType
  | boolParsing
  | literal (options : List String)
  | member (options : List String)
  | listType
  | tupleType
  | tooShort (noun : String) (least : Int) (actual : Nat)
  | tooLong (noun : String) (most : Int) (actual : Option Nat)
  | modelType (model : String)
  | greaterThan (bound : Int)
  | greaterThanEqual (bound : Int)
  | lessThan (bound : Int)
  | lessThanEqual (bound : Int)
  | refused (reason : String)
deriving DecidableEq, Repr

namespace Problem

/-- Options as a phrase, with `or` before the last. -/
def phrase : List String → String
  | [] => ""
  | [a] => a
  | options => ", ".intercalate options.dropLast ++ " or " ++ options.getLastD ""

def plural (n : Int) (noun : String) : String :=
  toString n ++ " " ++ noun ++ (if n = 1 then "" else "s")

def message : Problem → String
  | missing => "Field required"
  | extraForbidden => "Extra inputs are not permitted"
  | invalidKey => "Keys should be strings"
  | stringType => "Input should be a valid string"
  | stringUnicode => "Input should be a valid string, unable to parse raw data as a unicode string"
  | stringTooShort n => "String should have at least " ++ plural n "character"
  | stringTooLong n => "String should have at most " ++ plural n "character"
  | patternMismatch p => "String should match pattern '" ++ p ++ "'"
  | intType => "Input should be a valid integer"
  | intParsing => "Input should be a valid integer, unable to parse string as an integer"
  | intTooLarge => "Unable to parse input string as an integer, exceeded maximum size"
  | intFromFloat => "Input should be a valid integer, got a number with a fractional part"
  | finiteNumber => "Input should be a finite number"
  | floatType => "Input should be a valid number"
  | floatParsing => "Input should be a valid number, unable to parse string as a number"
  | boolType => "Input should be a valid boolean"
  | boolParsing => "Input should be a valid boolean, unable to interpret input"
  | literal options | member options => "Input should be " ++ phrase options
  | listType => "Input should be a valid list"
  | tupleType => "Input should be a valid tuple"
  | tooShort noun n k =>
    noun ++ " should have at least " ++ plural n "item" ++ " after validation, not " ++ toString k
  | tooLong noun n k =>
    noun ++ " should have at most " ++ plural n "item" ++ " after validation, not " ++
      k.elim "more" toString
  | modelType m => "Input should be a valid dictionary or instance of " ++ m
  | greaterThan n => "Input should be greater than " ++ toString n
  | greaterThanEqual n => "Input should be greater than or equal to " ++ toString n
  | lessThan n => "Input should be less than " ++ toString n
  | lessThanEqual n => "Input should be less than or equal to " ++ toString n
  | refused reason => "Value error, " ++ reason

def kind : Problem → String
  | missing => "missing"
  | extraForbidden => "extra_forbidden"
  | invalidKey => "invalid_key"
  | stringType => "string_type"
  | stringUnicode => "string_unicode"
  | stringTooShort _ => "string_too_short"
  | stringTooLong _ => "string_too_long"
  | patternMismatch _ => "string_pattern_mismatch"
  | intType => "int_type"
  | intParsing => "int_parsing"
  | intTooLarge => "int_parsing_size"
  | intFromFloat => "int_from_float"
  | finiteNumber => "finite_number"
  | floatType => "float_type"
  | floatParsing => "float_parsing"
  | boolType => "bool_type"
  | boolParsing => "bool_parsing"
  | literal _ => "literal_error"
  | member _ => "enum"
  | listType => "list_type"
  | tupleType => "tuple_type"
  | tooShort .. => "too_short"
  | tooLong .. => "too_long"
  | modelType _ => "model_type"
  | greaterThan _ => "greater_than"
  | greaterThanEqual _ => "greater_than_equal"
  | lessThan _ => "less_than"
  | lessThanEqual _ => "less_than_equal"
  | refused _ => "value_error"

end Problem

/-- A step from a value to one of its parts. -/
inductive Step
  | key (name : String)
  | index (n : Int)
deriving DecidableEq, Repr

def Step.text : Step → String
  | key s => s
  | index n => toString n

structure Issue where
  path : List Step
  problem : Problem
deriving DecidableEq, Repr

namespace Issue

def within (s : Step) (i : Issue) : Issue := { i with path := s :: i.path }

def message (i : Issue) : String := i.problem.message

end Issue
end TableQuery
