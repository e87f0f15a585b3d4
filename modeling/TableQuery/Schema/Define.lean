import TableQuery.Fault
import TableQuery.Number.Binary64
import TableQuery.Schema.Model
import TableQuery.Value.Equal

/-! Descriptions of models that hold together. -/

namespace TableQuery
namespace Schema

def Rule.of (strict : Bool) (greaterThan greaterThanEqual lessThan lessThanEqual minLength
    maxLength : Option Int) (pattern : Option String) : Rule :=
  { strict, limits := (greaterThan.map Limit.greaterThan).toList ++
      (greaterThanEqual.map .greaterThanEqual).toList ++ (lessThan.map .lessThan).toList ++
      (lessThanEqual.map .lessThanEqual).toList ++ (minLength.map .minLength).toList ++
      (maxLength.map .maxLength).toList ++ (pattern.map .pattern).toList }

/-- Options without those that occur before, of the same type and value. Options of which one is no
key are all kept. -/
def distinctOptions (options : List Value) : List Value :=
  if options.any (·.unhashable?.isSome) then options
  else options.foldl (fun kept o =>
    if kept.any fun k => k.typeName == o.typeName && Value.same k o then kept else kept ++ [o]) []

/-- Fields under the names that occur first, with what is said of them last. -/
def distinctFields (fields : List Field) : List Field :=
  fields.foldl (fun kept f =>
    if kept.any (·.name == f.name) then kept.map fun k => if k.name == f.name then f else k
    else kept ++ [f]) []

/-- A name that begins with an underscore, and one to use instead. -/
def privateName? (f : Field) : Option (String × String) :=
  match f.name.toList with
  | '_' :: rest =>
    let bare := rest.dropWhile (· == '_')
    some (if bare.isEmpty then "my_field" else String.ofList bare, f.name)
  | _ => none

def checkNames : List Field → Outcome Unit
  | [] => .ok ()
  | f :: fs => match privateName? f with
    | some (instead, name) => .error (.privateField instead name)
    | none => checkNames fs

/-- Whether some literal type has no options. -/
def FieldType.isVoid : FieldType → Bool
  | .literal [] => true
  | .listOf t | .optional t => t.isVoid
  | _ => false

/-- A type whose values are read as asked. -/
def checkType (f : Field) : Outcome Unit :=
  if f.type.isVoid then .error .noOptions
  else if f.rule.strict && !f.type.core.canBeStrict then .error (.neverStrict f.type.core.name)
  else .ok ()

/-- Why a limit that is part of a type cannot be held. -/
def Limit.flaw? (type : FieldType) : Limit → Option String
  | .minLength n | .maxLength n =>
    if n < 0 then some "OverflowError: can't convert negative int to unsigned"
    else if Int.pow 2 64 ≤ n then some "OverflowError: int too big to convert" else none
  | .pattern p => (Text.Pattern.flaw? p).map ("SchemaError: " ++ ·)
  | .greaterThan n | .greaterThanEqual n | .lessThan n | .lessThanEqual n =>
    match type with
    | .number =>
      if (Binary64.ofInt n).isFinite then none
      else some "OverflowError: int too large to convert to float"
    | _ => none

/-- A flaw within the layers of a field, outermost first. -/
def within (layers : List String) (flaw : String) : String :=
  layers.foldr (fun layer inner => "Error building \"" ++ layer ++ "\" validator:\n  " ++
    (if inner == flaw then flaw else "SchemaError: " ++ inner)) flaw

/-- The layers down to a literal type with an option that cannot be written out. -/
def FieldType.unwritten? : FieldType → Option (List String)
  | .literal options => if options.all Value.hasText then none else some ["literal"]
  | .listOf t => t.unwritten?.map ("list" :: ·)
  | .optional t => t.unwritten?.map ("nullable" :: ·)
  | _ => none

/-- What keeps the checks of a field from being made. -/
def fieldFlaw? (f : Field) : Option String :=
  let type := f.type.core
  let later := f.rule.later type
  let isPattern (l : Limit) : Bool := !l.isBound && !l.isLength
  let outer := (if f.default.isSome then ["default"] else []) ++
    (match f.type with
    | .optional _ => ["nullable"]
    | _ => []) ++ (if later.any isPattern then ["chain"] else [])
  let after := later.filterMap fun l => if isPattern l then none else some "function-after"
  let ownFlaw := (f.rule.own type).findSome? (Limit.flaw? type)
  let laterFlaw := (later.filter isPattern).findSome? (Limit.flaw? type)
  let unwritten := type.unwritten?.map fun layers =>
    within (outer ++ after ++ layers) ("ValueError: " ++ Numeral.tooManyDigits)
  (unwritten.or (ownFlaw.map (within (outer ++ after ++ [type.name])))).or
    (laterFlaw.map (within (outer ++ ["function-wrap", "str"])))

def checkFlaws : List Field → Outcome Unit
  | [] => .ok ()
  | f :: fs => match fieldFlaw? f with
    | some flaw => .error (.unbuildable
        ("Error building \"model\" validator:\n  SchemaError: Error building \"model-fields\" " ++
          "validator:\n  SchemaError: Field \"" ++ f.name ++ "\":\n  SchemaError: " ++ flaw))
    | none => checkFlaws fs

/-- Refuses a value that describes no model. -/
def refuseModel {α : Type} (v : Value) : Outcome α := do throw (← v.tell (.notAModel v))

/-- A model, unless its names, its types or its limits do not hold together. -/
def define (name : String) (extra : Extra) (fields : List Field) : Outcome Model := do
  let fields := distinctFields fields
  checkNames fields
  fields.forM checkType
  checkFlaws fields
  pure { name, extra, fields }

end Schema
end TableQuery
