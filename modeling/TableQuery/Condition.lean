import TableQuery.Coerce
import TableQuery.Fault
import TableQuery.Value.Equal

/-! Conditions from their parts: each family of operators has its own shape. -/

namespace TableQuery

/-- The families of conditions, and what each is called. -/
inductive Family
  | base | comparison | like | membership | nullCheck
deriving DecidableEq, Repr

namespace Family

def all : List Family := [.base, .comparison, .like, .membership, .nullCheck]

def name : Family → String
  | .base => "BaseCondition"
  | .comparison => "ComparisonCondition"
  | .like => "LikeCondition"
  | .membership => "InCondition"
  | .nullCheck => "NullCondition"

def ofName? (s : String) : Option Family := all.find? (·.name == s)

def ofOperator : Operator → Family
  | .comparison _ => .comparison
  | .like _ => .like
  | .membership => .membership
  | .nullCheck _ => .nullCheck

def operators (f : Family) : List Operator := Operator.all.filter (ofOperator · == f)

def parts : Family → List String
  | .base => ["field"]
  | .like => ["field", "operator", "value", "pattern"]
  | _ => ["field", "operator", "value"]

end Family

namespace Condition

abbrev Entries := List (Value × Value)

def issue (name : String) (p : Problem) : Issue := ⟨[.key name], p⟩

/-- A part that has to be given. -/
def required {α : Type} (entries : Entries) (name : String) (read : Value → Except Problem α) :
    Except Problem α :=
  match Value.lookup (.str name) entries with
  | some v => read v
  | none => .error .missing

def readOperator (f : Family) (v : Value) : Except Problem Operator :=
  match v.text?.bind fun s => f.operators.find? (·.text == s) with
  | some o => .ok o
  | none => .error (.literal (f.operators.map fun o => Text.quoted o.text))

/-- A LIKE mode by name or as a member; without one there are no wildcards. -/
def readPattern (v : Value) : Except Problem (Option LikeMode) :=
  match v with
  | .none => .ok none
  | v =>
    let found := match Coerce.text false v with
      | .ok s => LikeMode.ofText? s
      | .error _ => none
    match found with
    | some m => .ok (some m)
    | none => .error (.member (LikeMode.all.map fun m => Text.quoted m.text))

/-- A key as a step: a text or an integer of 64 bits as it is, and anything else by what it looks
like, if it can be written out. -/
def keyStep (key : Value) : Step :=
  match key, key.text? with
  | _, some s => .key s
  | .bool b, _ => .index (if b then 1 else 0)
  | .int n, _ => if -(Int.pow 2 63) ≤ n ∧ n < Int.pow 2 63 then .index n else .key key.safelyShown
  | _, none => .key key.safelyShown

/-- Why an entry has no place beside the parts that were found. Keys are read as texts. -/
def extraIssue (found : List String) (forbidden : Bool) (key : Value) : Option Issue :=
  match Coerce.text false key with
  | .ok s =>
    if forbidden && !found.contains s then some ⟨[keyStep key], .extraForbidden⟩ else none
  | .error _ => some ⟨[keyStep key], .invalidKey⟩

/-- Issues of the parts that the family does not have. -/
def extraIssues (f : Family) (entries : Entries) : List Issue :=
  let found := f.parts.filter fun n => Value.hasKey (.str n) entries
  entries.filterMap fun e => extraIssue found true e.1

def partIssue {α : Type} (name : String) : Except Problem α → List Issue
  | .ok _ => []
  | .error p => [issue name p]

/-- A condition of a family, or everything that is wrong with its parts. -/
def ofEntries (f : Family) (entries : Entries) : Except (List Issue) (Condition Value) :=
  let field := required entries "field" (Coerce.text false)
  let operator := required entries "operator" (readOperator f)
  let pattern := match Value.lookup (.str "pattern") entries with
    | some v => readPattern v
    | none => .ok none
  let value := (Value.lookup (.str "value") entries).getD .none
  let issues := partIssue "field" field ++
    (if f = .base then [] else partIssue "operator" operator) ++
    (if f = .like then partIssue "pattern" pattern else []) ++ extraIssues f entries
  match field, issues with
  | .ok field, [] =>
    match f, operator with
    | .base, _ => .ok (.base field)
    | _, .ok (.comparison o) => .ok (.comparison field o value)
    | _, .ok (.like o) => .ok (.like field o value (pattern.toOption.bind id))
    | _, .ok .membership => .ok (.membership field value)
    | _, .ok (.nullCheck o) => .ok (.nullCheck field o value)
    | _, .error p => .error [issue "operator" p]
  | _, issues => .error issues

/-- Which parts the entries give. -/
def givenBy (entries : Entries) : Given :=
  { value := Value.hasKey (.str "value") entries, pattern := Value.hasKey (.str "pattern") entries }

/-- One line for each thing that is wrong. -/
def reasons (issues : List Issue) : String :=
  ", ".intercalate (issues.map fun i =>
    let place := ".".intercalate (i.path.map Step.text)
    (if place.isEmpty then "condition" else place) ++ ": " ++ i.message)

/-- A value as a condition: a condition itself, or a mapping of its parts. -/
def ofValue (v : Value) : Outcome (Condition Value) :=
  match v with
  | .condition c _ => .ok c
  | v =>
    match v.entries? with
    | none => reject (.invalidCondition v (.str "expected a mapping with field and operator"))
    | some entries =>
      match (v.get "operator").text?.bind Operator.ofText? with
      | none => reject (.unsupportedOperator (v.get "field") (v.get "operator"))
      | some o =>
        match ofEntries (.ofOperator o) entries with
        | .ok c => .ok c
        | .error issues =>
          if issues.any (fun i => i.path.getLast? == some (.key "field")) then
            reject (.invalidField (v.get "field"))
          else reject (.invalidCondition v (.str (reasons issues)))

end Condition
end TableQuery
