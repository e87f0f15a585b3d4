import TableQuery.Proofs.Logging.Context
import TableQuery.Proofs.Logging.Members
import TableQuery.Proofs.Logging.ReadBack

/-! Records in a context, and their lines. -/

namespace TableQuery
namespace Logging

namespace Json
open Decoded (isNumeral numeral_digits)

end Json

namespace Record
open Context Outcome

variable {c : Context} {r : Record} {calls : List Setting}

/-- What a line shows of a record: its time, level, logger and message, and whom it belongs to. -/
structure Shows (r : Record) (as : Attributes) (ms : List (List Point × Json)) : Prop where
  timestamp : ∃ timestamp, Timestamp.text r.created = .ok timestamp ∧
    Only ms (Point.ofText "timestamp") (.str (Point.ofText timestamp))
  level : Only ms (Point.ofText "level") (.str r.level)
  logger : Only ms (Point.ofText "logger") (.str r.logger)
  message : ∃ message, Template.message r.template r.args = .ok message ∧
    Only ms (Point.ofText "message") (.str message)
  identity : ∀ k ∈ identityNames, ∃ v j, as.lookup k = some (.value v) ∧ Json.ofValue v = .ok j ∧
    Only ms (Point.ofText k) j

end Record
end Logging
end TableQuery
