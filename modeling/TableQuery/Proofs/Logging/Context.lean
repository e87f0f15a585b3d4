import TableQuery.Proofs.Engine.Attributes
import TableQuery.Logging.Line
import TableQuery.Proofs.Logging.Attributes

/-! Context on records: the request and the library as they are, and attributes of the process where the record
has none of the name. -/

namespace TableQuery
namespace Logging
namespace Context
open Outcome

/-- Entries under distinct texts. -/
structure Named (es : Entries) : Prop where
  keys : ∀ e ∈ es, ∃ s, e.1.text? = some s
  distinct : Value.Distinct es

/-- Calls that set the context. -/
inductive Setting
  | process (environment extra : Value)
  | request (requestId userId : Value)
  | clear

namespace Setting

def requestId : Setting → Value
  | request requestId _ => requestId
  | _ => .none

def userId : Setting → Value
  | request _ userId => userId
  | _ => .none

end Setting

def set (c : Context) : Setting → Context
  | .process environment extra => (c.setProcess environment extra).1
  | .request requestId userId => c.setRequest requestId userId
  | .clear => c.clearRequest

def after (calls : List Setting) : Context := calls.foldl set {}

section Request

variable {pick : Setting → Value} {field : Context → Value} {calls later : List Setting} {v : Value}

/-- Nothing is cleared and nothing given. -/
def Quiet (pick : Setting → Value) (calls : List Setting) : Prop :=
  ∀ s ∈ calls, s ≠ .clear ∧ (pick s).isNone = true

/-- A field of the context that calls clear, keep or replace. -/
structure Follows (pick : Setting → Value) (field : Context → Value) : Prop where
  start : field {} = .none
  clear : ∀ c, field (set c .clear) = .none
  step : ∀ c s, s ≠ .clear → field (set c s) = if (pick s).isNone then field c else pick s
  given : ∀ s, (pick s).isNone = false → s ≠ .clear

theorem Follows.quiet (hf : Follows pick field) (h : Quiet pick later) (c : Context) :
    field (later.foldl set c) = field c := by
  induction later generalizing c with
  | nil => rfl
  | cons s later ih =>
    obtain ⟨⟨hs, hp⟩, hlater⟩ := List.forall_mem_cons.mp h
    rw [List.foldl_cons, ih hlater, hf.step c s hs, hp, if_pos rfl]

end Request

section Process

variable {calls : List Setting} {es : Entries} {environment extra : Value}

end Process

section Identity

variable {as : Attributes} {a : Datum × Datum} {name : String}

/-- Names under which every record says whom it belongs to. -/
def identityNames : List String := ["request_id", "user_id", "sdk_name", "sdk_version"]

end Identity

section Filtering

variable {as : Attributes} {a : Datum × Datum} {fixed : Entries} {c : Context} {name : String}

/-- A name that the record does not answer to. -/
def isMissing (as : Attributes) (a : Datum × Datum) : Bool :=
  a.1.string?.all fun name => !isTaken name && !as.has name

/-- The attributes of a record in a context. -/
def shown (c : Context) (as : Attributes) : Attributes :=
  c.identified as ++ (Datum.ofEntries c.fixed).filter (isMissing (c.identified as))

end Filtering

end Context
end Logging
end TableQuery
