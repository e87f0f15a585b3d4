import TableQuery.Handle.Table

/-! Calls of a handle by name. -/

namespace TableQuery
namespace Handle

inductive Request
  | chain (c : Call)
  | terminal (t : Terminal)

/-- What a handle of this kind is called. -/
def kindName (h : Handle) : String := if h.model.isSome then "SchemaTable" else "Table"

/-- What the argument of a call is called, where there has to be one. -/
def parameter? : String → Option String
  | "where" => some "conditions"
  | "order_by" => some "spec"
  | "skip" | "take" => some "count"
  | "create" | "update" => some "data"
  | "create_many" => some "records"
  | _ => none

def request? (name : String) (v : Value) : Option Request :=
  match name with
  | "select" => some (.chain (.select v))
  | "where" => some (.chain (.filter v))
  | "order_by" => some (.chain (.order v))
  | "skip" => some (.chain (.skip v))
  | "take" => some (.chain (.take v))
  | "find_many" => some (.terminal .findMany)
  | "find_first" => some (.terminal .findFirst)
  | "find_unique" => some (.terminal .findUnique)
  | "count" => some (.terminal .count)
  | "create" => some (.terminal (.create v))
  | "create_many" => some (.terminal (.createMany v))
  | "update" => some (.terminal (.update v))
  | "delete" => some (.terminal .delete)
  | _ => none

/-- The call of a name, if there is one. -/
def request (h : Handle) (name : String) (arg : Option Value) : Outcome (Option Request) :=
  match parameter? name, arg with
  | some p, none =>
    .error (.badCall (h.kindName ++ "." ++ name ++ "() missing 1 required positional argument: " ++
      Text.quoted p))
  | _, arg => .ok (request? name (arg.getD .none))

end Handle
end TableQuery
