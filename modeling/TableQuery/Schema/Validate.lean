import TableQuery.Schema.Export

/-! Filters and payloads checked against a model. Nothing is refused here: what is wrong is found and
listed. -/

namespace TableQuery
namespace Schema

/-- The checked data and everything found wrong; without findings the data is sound. -/
structure Result where
  data : Value := .none
  findings : List Finding := []

def Result.isOk (r : Result) : Bool := r.findings.isEmpty

def rootPath : String := "(root)"

def finding (path : String) (message : String) : Finding :=
  ⟨if path.isEmpty then rootPath else path, message⟩

/-- A finding at a value that serves as a path. -/
def findingAt (path : Value) (message : String) : Finding :=
  match path with
  | .none => finding "" message
  | v => finding v.plain message

/-- Issues as findings, below the given steps. -/
def findings (before : List String) (issues : List Issue) : List Finding :=
  issues.map fun i => finding (".".intercalate (before ++ i.path.map Step.text)) i.message

namespace ModelOf

def fieldNames (m : Model) : List String := m.fields.map (·.name)

def field? (m : Model) (name : Value) : Option Field :=
  name.text?.bind fun s => m.fields.find? (·.name == s)

def hasField (m : Model) (name : Value) : Bool := (field? m name).isSome

end ModelOf

def checkAs (f : Field) (path : Value) (v : Value) : Outcome (List Finding) := do
  return (← f.type.check f.rule v).issues.map fun i => findingAt path i.message

/-- A value for a known field; a path that counts as not given is the name of the field. -/
def checkValue (m : Model) (name : Value) (v : Value) (path : Value) : Outcome (List Finding) :=
  match ModelOf.field? m name with
  | some f => do
    let path := if path.isTruthy then path else name
    let found ← checkAs f path v
    if found.isEmpty then pure [] else path.tell found
  | none => .error (.missingKey name)

def checkEntry (m : Model) (name v : Value) : Outcome (List Finding) :=
  match ModelOf.field? m name with
  | none => name.tell [findingAt name "Unknown field"]
  | some f => if v.isNone then .ok [] else checkAs f name v

def checkEntries (m : Model) (entries : List (Value × Value)) : Outcome (List Finding) := do
  return (← entries.mapM fun e => checkEntry m e.1 e.2).flatten

def checkMembers (f : Field) (path : String) : (index : Nat) → List Value → Outcome (List Finding)
  | _, [] => .ok []
  | index, v :: vs => do
    let here ← checkAs f (.str (path ++ "." ++ toString index)) v
    let rest ← checkMembers f path (index + 1) vs
    pure (here ++ rest)

/-- A condition by its field, operator and value. -/
def checkParts (m : Model) (index : Nat) (name operator v : Value) : Outcome (List Finding) :=
  let position := toString index
  match ModelOf.field? m name with
  | none => name.tell [finding (position ++ ".field") ("Unknown field: " ++ name.plain)]
  | some f =>
    let path := position ++ "." ++ name.plain
    match operator.text?.bind Operator.ofText? with
    | some (.nullCheck o) =>
      .ok (if v.isNone then [] else [finding path (o.text ++ " does not take a value")])
    | some .membership =>
      match v.items? with
      | some (x :: xs) => checkMembers f path 0 (x :: xs)
      | _ => .ok [finding path "IN requires a non-empty list"]
    | some (.like o) =>
      .ok (if v.text?.isSome then [] else [finding path (o.text ++ " requires a string")])
    | some (.comparison o) =>
      if v.isNone then .ok [finding path (o.text ++ " requires a value")] else checkAs f (.str path) v
    | none =>
      operator.tell [finding (position ++ ".operator") ("Unsupported operator: " ++ operator.plain)]

def checkCondition (m : Model) (index : Nat) (v : Value) : Outcome (List Finding) :=
  match v with
  | .condition c _ =>
    match c.operator?, c.value? with
    | some o, some w => checkParts m index (.str c.field) (.str o.text) w
    | _, _ => .error (.noMember c.family "operator")
  | v =>
    if v.isMapping then checkParts m index (v.get "field") (v.get "operator") (v.get "value")
    else .ok [findingAt (.int index) "Expected a condition"]

def checkConditions (m : Model) : (index : Nat) → List Value → Outcome (List Finding)
  | _, [] => .ok []
  | index, v :: vs => do
    let here ← checkCondition m index v
    let rest ← checkConditions m (index + 1) vs
    pure (here ++ rest)

/-- A filter: an equality map or a list of conditions. -/
def validateFilter (m : Model) (v : Value) : Outcome Result :=
  if v.isNone then .ok {}
  else match v.entries?, v.items? with
    | some es, _ => do
      let found ← checkEntries m es
      pure ⟨v, found⟩
    | none, some xs => do
      let found ← checkConditions m 0 xs
      pure ⟨v, found⟩
    | none, none => .ok ⟨v, [finding rootPath "Expected a mapping or a list of conditions"]⟩

/-- The keys of a record that are no fields. -/
def unknownKeys (m : Model) (v : Value) : List Value :=
  ((v.entries?.getD []).map Prod.fst).filter fun k => !ModelOf.hasField m k

def unknownFindings (m : Model) (before : List String) (v : Value) : Outcome (List Finding) :=
  (unknownKeys m v).mapM fun k =>
    k.tell (finding (".".intercalate (before ++ [k.plain])) "Unknown field")

/-- An instance with values for some of the fields. -/
def ModelOf.instanceOf (m : Model) (values : List (Option Checked)) : Checked :=
  .instance m.name
    (((fieldNames m).zip values).map fun (n, c) => (n, c.isSome, c.getD (.value .none))) []

/-- A whole record as an instance, or what is wrong with it. -/
def Overlay.check (o : Overlay) (v : Value) : Outcome Verdict :=
  match o.whole with
  | none => checkModel o.model v
  | some read => ((read v).map (ModelOf.instanceOf o.model)).outcome

/-- A full record: the entries given, as the model reads them. -/
def validateRecord (o : Overlay) (before : List String) (v : Value) : Outcome Result := do
  let unknown ← unknownFindings o.model before v
  let verdict ← o.check v
  let found := unknown ++ findings before verdict.issues
  match verdict, found with
  | .ok c, [] => return ⟨← c.given, []⟩
  | _, found => return ⟨.none, found⟩

def validateEach (o : Overlay) : (index : Nat) → List Value → Outcome (List Result)
  | _, [] => .ok []
  | index, r :: rs => do
    let first ← validateRecord o [toString index] r
    let rest ← validateEach o (index + 1) rs
    pure (first :: rest)

/-- A batch of full records, with the findings of all of them. -/
def validateRecords (o : Overlay) (v : Value) : Outcome Result :=
  match v.items? with
  | none => .ok ⟨.none, [finding rootPath "Expected a list of records"]⟩
  | some records => do
    let results ← validateEach o 0 records
    let found := results.flatMap (·.findings)
    return if found.isEmpty then ⟨.list (results.map (·.data)), []⟩ else ⟨.none, found⟩

def partialEntry (m : Model) (name v : Value) :
    Outcome (Except (List Finding) (Value × Value)) :=
  match ModelOf.field? m name with
  | none => name.tell (.error [findingAt name "Unknown field"])
  | some f => do
    match ← f.type.check f.rule v with
    | .ok c => pure (.ok (name, c.toValue))
    | .error issues => pure (.error (issues.map fun i => findingAt name i.message))

/-- Part of a record: any of the fields, each sound. -/
def validatePartial (m : Model) (v : Value) : Outcome Result :=
  match v.entries? with
  | none => .ok ⟨.none, [finding rootPath "Expected a mapping"]⟩
  | some es => do
    let entries ← es.mapM fun e => partialEntry m e.1 e.2
    let found := entries.flatMap fun
      | .ok _ => []
      | .error found => found
    return if found.isEmpty then ⟨.map (entries.filterMap (·.toOption)), []⟩ else ⟨.none, found⟩

end Schema
end TableQuery
