import TableQuery.Number.Binary64
import TableQuery.Vocabulary

/-! The values that callers pass in and that queries carry. -/

namespace TableQuery

/-- A condition of a filter, in the family of its operator. -/
inductive Condition (α : Type)
  | base (field : String)
  | comparison (field : String) (operator : Comparison) (value : α)
  | like (field : String) (operator : LikeOperator) (value : α) (pattern : Option LikeMode)
  | membership (field : String) (value : α)
  | nullCheck (field : String) (operator : NullCheck) (value : α)

/-- Which of the parts that may be left out were given when a condition was made. -/
structure Given where
  value : Bool := true
  pattern : Bool := false
deriving DecidableEq, Repr

/-- Mappings keep their entries in insertion order. A frozen mapping cannot be changed by anyone; a
shared one, like a shared list, is a numbered cell that its owner may still change. A sequence of
another type, such as a range, is neither a list nor a tuple. A record may hold others than its
fields. -/
inductive Value
  | none
  | bool (b : Bool)
  | int (n : Int)
  | float (x : Binary64)
  | str (s : String)
  | bytes (octets : List UInt8)
  | list (items : List Value)
  | tuple (items : List Value)
  | sequence (type : String) (items : List Value)
  | set (items : List Value)
  | map (entries : List (Value × Value))
  | frozen (entries : List (Value × Value))
  | token (t : Token)
  | sort (column direction : Value)
  | condition (c : Condition Value) (given : Given)
  | record (model : String) (fields others : List (String × Value))
  | shared (cell : Nat)

instance : Inhabited Value := ⟨.none⟩

namespace Condition

variable {α β : Type}

def field : Condition α → String
  | base f | comparison f .. | like f .. | membership f _ | nullCheck f .. => f

def operator? : Condition α → Option Operator
  | base _ => none
  | comparison _ o _ => some (.comparison o)
  | like _ o _ _ => some (.like o)
  | membership .. => some .membership
  | nullCheck _ o _ => some (.nullCheck o)

def value? : Condition α → Option α
  | base _ => none
  | comparison _ _ v | like _ _ v _ | membership _ v | nullCheck _ _ v => some v

def map (f : α → β) : Condition α → Condition β
  | base c => .base c
  | comparison c o v => .comparison c o (f v)
  | like c o v p => .like c o (f v) p
  | membership c v => .membership c (f v)
  | nullCheck c o v => .nullCheck c o (f v)

def family : Condition α → String
  | base _ => "BaseCondition"
  | comparison .. => "ComparisonCondition"
  | like .. => "LikeCondition"
  | membership .. => "InCondition"
  | nullCheck .. => "NullCondition"

/-- The parts of a condition by name, in their order. -/
def parts (text : String → α) (absent : α) : Condition α → List (String × α)
  | base f => [("field", text f)]
  | comparison f o v => [("field", text f), ("operator", text o.text), ("value", v)]
  | like f o v p =>
    [("field", text f), ("operator", text o.text), ("value", v),
     ("pattern", match p with | some m => text m.text | none => absent)]
  | membership f v => [("field", text f), ("operator", text "IN"), ("value", v)]
  | nullCheck f o v => [("field", text f), ("operator", text o.text), ("value", v)]

end Condition

namespace Value

/-- Texts are strings and the members of the textual vocabularies. -/
def text? : Value → Option String
  | str s => some s
  | token t => if t.isText then some t.text else .none
  | _ => .none

def entries? : Value → Option (List (Value × Value))
  | map es | frozen es => some es
  | _ => .none

def isMapping (v : Value) : Bool := v.entries?.isSome

/-- The members of a list or tuple; a sort entry is a pair. -/
def items? : Value → Option (List Value)
  | list xs | tuple xs => some xs
  | sort c d => some [c, d]
  | _ => .none

def isNone : Value → Bool
  | none => true
  | _ => false

/-- Whether a value counts as given: not absent, zero or empty. -/
def isTruthy : Value → Bool
  | none => false
  | bool b => b
  | int n => n != 0
  | float x => !x.isZero
  | str s => !s.isEmpty
  | bytes b => !b.isEmpty
  | list xs | tuple xs | sequence _ xs | set xs => !xs.isEmpty
  | map es | frozen es => !es.isEmpty
  | _ => true

def typeName : Value → String
  | none => "NoneType"
  | bool _ => "bool"
  | int _ => "int"
  | float _ => "float"
  | str _ => "str"
  | bytes _ => "bytes"
  | list _ | shared _ => "list"
  | tuple _ => "tuple"
  | sequence t _ => t
  | set _ => "set"
  | map _ => "dict"
  | frozen _ => "mappingproxy"
  | token t => t.vocabulary
  | sort .. => "SortSpec"
  | condition c _ => c.family
  | record m .. => m

/-- What going through a value one by one gives: members, keys, characters, octets, or parts. -/
def iterate? (v : Value) : Option (List Value) :=
  match v with
  | list xs | tuple xs | sequence _ xs | set xs => some xs
  | sort c d => some [c, d]
  | map es | frozen es => some (es.map Prod.fst)
  | bytes b => some (b.map fun o => int o.toNat)
  | condition c _ => some ((c.parts str none).map fun p => tuple [str p.1, p.2])
  | record _ fs gs => some ((fs ++ gs).map fun p => tuple [str p.1, p.2])
  | v => v.text?.map fun s => s.toList.map fun c => str (String.singleton c)

/-- How many parts a value has. -/
def size? : Value → Option Nat
  | list xs | tuple xs | sequence _ xs | set xs => some xs.length
  | sort .. => some 2
  | map es | frozen es => some es.length
  | bytes b => some b.length
  | v => v.text?.map String.length

mutual

/-- The type of the part of a value that keeps it from being a key. -/
def unhashable? : Value → Option String
  | tuple xs => unhashableItem? xs
  | sort c d => (unhashable? c).or (unhashable? d)
  | condition (.comparison _ _ v) _ | condition (.like _ _ v _) _ | condition (.membership _ v) _
  | condition (.nullCheck _ _ v) _ => unhashable? v
  | list _ | shared _ => some "list"
  | set _ => some "set"
  | map _ => some "dict"
  | frozen _ => some "mappingproxy"
  | record m .. => some m
  | _ => .none

def unhashableItem? : List Value → Option String
  | [] => .none
  | x :: xs => (unhashable? x).or (unhashableItem? xs)

end

end Value
end TableQuery
