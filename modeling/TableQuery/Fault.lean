import TableQuery.Issue
import TableQuery.Rejection

/-! Everything a call can fail with. -/

namespace TableQuery

inductive Fault
  | rejected (cause : Rejection)
  /-- Values that do not fit the parts of a condition, a query state or the settings. -/
  | malformed (issues : List Issue)
  /-- A statement kind that the builder does not know. -/
  | unsupportedKind (kind : Value)
  /-- A text that is no statement kind. -/
  | unknownKind (kind : Value)
  /-- An ordering operator beside a truth value. -/
  | unorderedBoolean
  /-- A parameter of the filter with the name of an assigned column. -/
  | parameterClash (name : String)
  /-- A member of a tuple list that is shorter than the first one. -/
  | rowTooShort
  | notIterable (type : String)
  | unhashable (type : String)
  | notText (type : String)
  | octetsForText
  | unknownStateFields (names : List String)
  | notAModel (value : Value)
  /-- A field whose name is for private use, and a name to use instead. -/
  | privateField (instead name : String)
  /-- A literal type without options. -/
  | noOptions
  /-- A type that cannot be read strictly. -/
  | neverStrict (type : String)
  /-- A field whose checks cannot be made. -/
  | unbuildable (reason : String)
  | missingKey (key : Value)
  | unknownHandle (name : String)
  /-- A position that a row does not have. -/
  | badIndex (reason : String)
  /-- A method that a value does not have. -/
  | noMember (type name : String)
  /-- A call with the wrong number or names of arguments, or with arguments of the wrong type. -/
  | badCall (reason : String)
  | badValue (reason : String)
  | overflow (reason : String)
  /-- A point in time whose year the system cannot write. -/
  | yearTooLarge
  | outOfMemory
  | overwritesRecord (key : String)
  | badUrl
  | unknownBackend (name : String)
  /-- An error of the database driver or of a wrapped function. -/
  | raised (kind message : String)

namespace Fault

def message : Fault → String
  | rejected c => c.message
  | malformed issues => toString issues.length
  | unsupportedKind k => "Query type " ++ k.plain ++ " not supported by BaseQueryBuilder"
  | unknownKind k =>
    if k.hasText then k.shown ++ " is not a valid QueryType" else Numeral.tooManyDigits
  | unorderedBoolean =>
    "Only '=', '!=', 'is_()', 'is_not()', 'is_distinct_from()', 'is_not_distinct_from()' " ++
      "operators can be used with None/True/False"
  | parameterClash name =>
    "Bind parameter '" ++ name ++ "' conflicts with unique bind parameter of the same name"
  | rowTooShort => "list index out of range"
  | notIterable t => "'" ++ t ++ "' object is not iterable"
  | unhashable t => "unhashable type: '" ++ t ++ "'"
  | notText t => "expected string or bytes-like object, got '" ++ t ++ "'"
  | octetsForText => "cannot use a string pattern on a bytes-like object"
  | unknownStateFields names => "Unknown query state fields: " ++ ", ".intercalate names
  | notAModel v => "Schema must be a pydantic model class, got " ++ v.shown
  | privateField instead name =>
    "Fields must not use names with leading underscores; e.g., use " ++ Text.quoted instead ++
      " instead of " ++ Text.quoted name ++ "."
  | noOptions => "literal \"expected\" cannot be empty, obj=typing.Literal[()]"
  | neverStrict t => "Unable to apply constraint 'strict' to schema of type '" ++ t ++ "'"
  | unbuildable reason => reason
  | missingKey k => k.shown
  | unknownHandle n => "no handle " ++ n
  | noMember t a => "'" ++ t ++ "' object has no attribute '" ++ a ++ "'"
  | badIndex reason | badCall reason | badValue reason | overflow reason => reason
  | yearTooLarge => "[Errno 75] Value too large for defined data type"
  | outOfMemory => ""
  | overwritesRecord key => Text.quoted ("Attempt to overwrite " ++ Text.quoted key ++ " in LogRecord")
  | badUrl => "Could not parse SQLAlchemy URL from given URL string"
  | unknownBackend n => "Can't load plugin: sqlalchemy.dialects:" ++ n
  | raised _ m => m

/-- What writing out a value without a text fails with. -/
def tooManyDigits : Fault := .badValue Numeral.tooManyDigits

end Fault

abbrev Outcome := Except Fault

/-- Something that is told of a value, which has to be written out for it. -/
def Value.tell {α : Type} (v : Value) (told : α) : Outcome α :=
  if v.hasText then .ok told else .error .tooManyDigits

/-- What a call fails with for a cause: one that cannot be reported fails in its report. -/
def Rejection.raised (c : Rejection) : Fault := if c.hasText then .rejected c else .tooManyDigits

def reject {α : Type} (cause : Rejection) : Outcome α := .error cause.raised

end TableQuery
