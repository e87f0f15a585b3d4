import TableQuery.Sql.Dialect
import TableQuery.Text.Blank

/-! Names as they stand in a statement. -/

namespace TableQuery
namespace Identifier

def quoteChar (d : Dialect) (c : Char) : List Char :=
  if c = '"' then ['"', '"'] else if c = '%' ∧ d.named then ['%', '%'] else [c]

def quoteChars (d : Dialect) (cs : List Char) : List Char :=
  '"' :: cs.flatMap (quoteChar d) ++ ['"']

def quote (d : Dialect) (name : String) : String := String.ofList (quoteChars d name.toList)

end Identifier

/-- What a statement works on. -/
structure Target where
  schema : Option String := none
  table : String
deriving DecidableEq, Repr

namespace Target

/-- A name with a dot is cut at the first one, where qualified names are taken; a schema that is
empty to begin with is left out. -/
def ofName (qualified : Bool) (name : String) : Target :=
  let cs := name.toList
  match qualified, cs.dropWhile (· != '.') with
  | true, _ :: table =>
    let schema := cs.takeWhile (· != '.')
    ⟨if schema.isEmpty then none else some (String.ofList (Text.trimChars schema)),
      String.ofList (Text.trimChars table)⟩
  | _, _ => ⟨none, name⟩

end Target
end TableQuery
