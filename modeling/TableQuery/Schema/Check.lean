import TableQuery.Condition
import TableQuery.Schema.Limits

/-! Values checked against types. -/

namespace TableQuery
namespace Schema

def fail (p : Problem) : Verdict := .error [⟨[], p⟩]

/-- A read value, unless it breaks a rule. -/
def ruled {α : Type} (read : Except Problem α) (wrap : α → Value) (broken : α → Option Problem) :
    Verdict :=
  match read with
  | .error p => fail p
  | .ok x => match broken x with
    | some p => fail p
    | none => .ok (.value (wrap x))

/-- An integer; one that was let through unread can be compared with nothing. -/
def checkInteger (strict : Bool) (limits : List Limit) (v : Value) : Verdict :=
  match Coerce.integer strict v with
  | .error p => fail p
  | .ok n =>
    if limits.isEmpty then .ok (.value n.toValue)
    else ruled n.toInt .int fun n =>
        Limit.firstProblem (Limit.boundProblem? fun m => some (compare n m)) limits

/-- The members of a list; lax reading takes whatever is gone through one by one, texts and mappings
apart. -/
def readItems (strict : Bool) (v : Value) : Except Problem (List Value) :=
  match v with
  | .list xs => .ok xs
  | .bytes _ => .error .listType
  | v =>
    if strict || v.isMapping || v.text?.isSome then .error .listType
    else match v.iterate? with
      | some xs => .ok xs
      | none => .error .listType

/-- Items with their issues at their positions. -/
def gather (verdicts : List Verdict) : Except (List Issue) (List Checked) :=
  let issues := (verdicts.mapIdx fun i v => v.issues.map (·.within (.index i))).flatten
  if issues.isEmpty then .ok (verdicts.filterMap fun v => v.toOption) else .error issues

/-- Checks one item after the other, but none beyond the first that is too many. -/
def visit (check : Value → Outcome Verdict) (most : Option Int) :
    (seen : Nat) → List Value → Outcome (Option (List Verdict))
  | _, [] => .ok (some [])
  | seen, x :: xs => do
    let first ← check x
    if most.any fun n => n < (seen : Int) + 1 then pure none
    else
      let rest ← visit check most (seen + 1) xs
      pure (rest.map (first :: ·))

def least? (limits : List Limit) : Option Int :=
  limits.findSome? fun
    | .minLength n => some n
    | _ => none

def most? (limits : List Limit) : Option Int :=
  limits.findSome? fun
    | .maxLength n => some n
    | _ => none

/-- Too many items are reported alone; too few only where each is sound. Of a list whose items may be
anything, only the length is looked at. -/
def checkItems (check : Value → Outcome Verdict) (free : Bool) (limits : List Limit) (v : Value)
    (items : List Value) : Outcome Verdict := do
  let short (n : Nat) : Option Verdict := (least? limits).bind fun least =>
    if (n : Int) < least then some (fail (.tooShort "List" least n)) else none
  match v, free, short items.length with
  | .list _, true, some short => pure short
  | _, _, _ =>
    match ← visit check (most? limits) 0 items with
    | none => pure (fail (.tooLong "List" ((most? limits).getD 0) v.size?))
    | some verdicts => match gather verdicts with
      | .error issues => pure (.error issues)
      | .ok items => pure ((short items.length).getD (.ok (.list items)))

/-- A truth value among options that hold one stands for itself, an integer of 64 bits for an integer,
and anything else for the last option that it is the same as. -/
def option? (options : List Value) (v : Value) : Except Problem (Option Value) :=
  let isFlag : Value → Bool := fun | .bool _ => true | _ => false
  let isShort : Value → Bool := fun | .int n => -(Int.pow 2 63) ≤ n && n < Int.pow 2 63 | _ => false
  let isInt : Value → Bool := fun | .int _ => true | _ => false
  let isWord : Value → Bool := fun | .str _ => true | _ => false
  let among (p : Value → Bool) : Option Value := (options.filter p).find? (Value.same v)
  let others := (among fun o => !isFlag o && !isShort o && !isWord o).or
    (options.reverse.find? (Value.same v))
  if isFlag v then .ok ((among isFlag).or others)
  else if isInt v && options.any isShort then
    if isShort v then .ok ((among isShort).or others) else .error .intTooLarge
  else if isWord v then .ok ((among isWord).or others)
  else .ok others

def literalProblem (options : List Value) : Problem := .literal (options.map Value.shown)

/-- What a record says of one field. -/
structure FieldVerdict where
  name : String
  key : String
  given : Bool
  verdict : Verdict

/-- The issues of entries whose keys stand for none of the fields that were found. -/
def extraIssues (extra : Extra) (found : List String) (entries : List (Value × Value)) : List Issue :=
  match extra with
  | .ignore => []
  | extra => entries.filterMap fun e => Condition.extraIssue found (extra = .forbid) e.1

/-- The entries that an open model keeps beside its fields. -/
def extraFields (extra : Extra) (found : List String) (entries : List (Value × Value)) :
    List (String × Value) :=
  match extra with
  | .allow =>
    let others := entries.filterMap fun e => match Coerce.text false e.1 with
      | .ok s => if found.contains s then none else some (.str s, e.2)
      | .error _ => none
    (Value.ofEntries others).filterMap fun e => e.1.text?.map fun s => (s, e.2)
  | _ => []

/-- An instance, or the issues of its fields and then those of its other entries. -/
def assemble (model : String) (extra : Extra) (entries : List (Value × Value))
    (fields : List FieldVerdict) : Verdict :=
  let found := (fields.filter (·.given)).map (·.key)
  let issues := (fields.flatMap fun f => f.verdict.issues.map (·.within (.key f.key))) ++
    extraIssues extra found entries
  if issues.isEmpty then
    .ok (.instance model
      (fields.filterMap fun f => f.verdict.toOption.map fun c => (f.name, f.given, c))
      (extraFields extra found entries))
  else .error issues

/-- A verdict with the limits that are no part of the type. -/
def finish (type : FieldType) (limits : List Limit) (v : Verdict) : Outcome Verdict :=
  match v, limits with
  | .ok c, l :: ls => do
    match ← Limit.holdAll type.name (l :: ls) c.toValue with
    | .error p => pure (fail p)
    | .ok w => pure (if (l :: ls).any (fun l => l.name == "pattern") then .ok (.value w) else .ok c)
  | v, _ => .ok v

mutual

def FieldType.check (r : Rule) : FieldType → Value → Outcome Verdict
  | .text, v =>
    finish .text (r.later .text)
      (ruled (Coerce.text r.strict v) .str fun s =>
        Limit.firstProblem (Limit.textProblem? s) (r.own .text))
  | .integer, v =>
    finish .integer (r.later .integer) (checkInteger r.strict (r.own .integer) v)
  | .number, v =>
    finish .number (r.later .number)
      (ruled (Coerce.number r.strict v) .float fun x =>
        Limit.firstProblem (Limit.boundProblem? x.compareInt?) ((r.own .number).map Limit.rounded))
  | .flag, v => finish .flag (r.later .flag) (ruled (Coerce.flag r.strict v) .bool fun _ => none)
  | .any, v => finish .any (r.later .any) (.ok (.value v))
  | .literal options, v =>
    finish (.literal options) (r.later (.literal options))
      (match option? options v with
      | .ok (some o) => .ok (.value o)
      | .ok none => fail (literalProblem options)
      | .error p => fail p)
  | .listOf item, v => do
    let verdict ← match readItems r.strict v with
      | .error p => pure (fail p)
      | .ok xs =>
        checkItems (fun x => item.check {} x) (item matches .any) (r.own (.listOf item)) v xs
    finish (.listOf item) (r.later (.listOf item)) verdict
  | .optional type, v => if v.isNone then .ok (.ok (.value .none)) else type.check r v
  | .model m, v => do
    let verdict ← if r.strict then pure (fail (.modelType m.name)) else checkModel m v
    finish (.model m) (r.later (.model m)) verdict
  | .given read, v => (read v).outcome

def checkModel : ModelOf FieldType → Value → Outcome Verdict
  | ⟨name, extra, fields⟩, v =>
    match v.entries? with
    | none => .ok (fail (.modelType name))
    | some entries => do return assemble name extra entries (← checkFields fields entries)

def checkFields : List (FieldOf FieldType) → List (Value × Value) → Outcome (List FieldVerdict)
  | [], _ => .ok []
  | f :: fs, entries => do
    let first ← checkField f entries
    let rest ← checkFields fs entries
    pure (first :: rest)

def checkField : FieldOf FieldType → List (Value × Value) → Outcome FieldVerdict
  | ⟨name, type, rule, default, label⟩, entries => do
    let key := label.getD name
    match Value.lookup (.str key) entries with
    | some v => return ⟨name, key, true, ← type.check rule v⟩
    | none => return ⟨name, key, false, match default with
      | some d => .ok (.value d)
      | none => fail .missing⟩

end

end Schema
end TableQuery
