import TableQuery.Proofs.Schema.Data
import TableQuery.Proofs.Schema.Plain

/-! What is stored of a value: a full record stores it as plain data, and a part of a record as it was read.
The two are the same where the value is plain as it is. -/

namespace TableQuery
namespace Schema
open Outcome

variable {m : Model} {f : Field} {k v : Value} {es₁ es₂ : List (Value × Value)}
  {before : List String}

end Schema
end TableQuery
