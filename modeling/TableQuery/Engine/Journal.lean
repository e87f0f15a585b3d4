import TableQuery.Logging.Entry
import TableQuery.Sql.Render

/-! What a run leaves behind: calls of the database, spans, log entries. -/

namespace TableQuery

/-- A recorder notes a whole dispatch at once, an engine each step of its transaction; and an engine
is set up with an address and options. -/
inductive Event
  | connected (url : String) (options : List (String × Value))
  | dispatched (scalar : Bool) (statement : Rendered) (telemetry : Value)
  | begin
  | execute (statement : Rendered)
  | commit
  | rollback

/-- A span with what it was told, in this order: attributes, faults, and the text of its failure. -/
structure Span where
  tracer : String
  name : String
  kind : String
  attributes : Entries := []
  recorded : List Fault := []
  failure : Option String := none

/-- Events, spans and entries in their order. -/
structure Journal where
  events : List Event := []
  spans : List Span := []
  entries : List Logging.Entry := []

/-- A run under a log level: it ends in a value or a fault, and the journal keeps what happened
before either. -/
abbrev Run := ReaderT Logging.Level (ExceptT Fault (StateM Journal))

namespace Run

def start {α : Type} (threshold : Logging.Level) (r : Run α) : Outcome α × Journal := r threshold {}

def note (e : Event) : Run Unit := modify fun j => { j with events := j.events ++ [e] }

/-- Opens a span, and gives its place among all of them. -/
def openSpan (s : Span) : Run Nat := fun _ j => (.ok j.spans.length, { j with spans := j.spans ++ [s] })

def tellSpan (place : Nat) (more : Span → Span) : Run Unit :=
  modify fun j => { j with spans := j.spans.modify place more }

/-- Entries below the threshold are dropped unseen; a seen one must not overwrite its record. -/
def log (e : Logging.Entry) : Run Unit := do
  if (← read).number ≤ e.level.number then
    match Logging.clash? e.extra with
    | some key => throw (.overwritesRecord key)
    | none => modify fun j => { j with entries := j.entries ++ [e] }

def rejectionEntry (c : Rejection) : Logging.Entry :=
  { level := .debug, logger := "chainsql.common.exceptions", message := c.message,
    extra := Value.named [("error_code", .str c.code.text),
      ("details", .map (Value.named c.details))] }

/-- An outcome as a run: a refusal is logged when it arises. -/
def ofOutcome {α : Type} : Outcome α → Run α
  | .ok a => pure a
  | .error (.rejected c) => do
    log (rejectionEntry c)
    throw (.rejected c)
  | .error f => throw f

def reject {α : Type} (c : Rejection) : Run α := ofOutcome (TableQuery.reject c)

/-- A run as a value: what it ends in, without ending the run around it. -/
def attempt {α : Type} (r : Run α) : Run (Outcome α) := fun level j =>
  match r level j with
  | (o, j) => (.ok o, j)

end Run
end TableQuery
