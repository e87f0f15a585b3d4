import TableQuery.Value

/-! When two values count as the same, and looking up by key. -/

namespace TableQuery
namespace Value

/-- A truth value counts as the number 0 or 1. -/
def number? : Value → Option (Int ⊕ Binary64)
  | bool b => some (.inl (if b then 1 else 0))
  | int n => some (.inl n)
  | float x => some (.inr x)
  | _ => .none

def sameNumber : Int ⊕ Binary64 → Int ⊕ Binary64 → Bool
  | .inl a, .inl b => a == b
  | .inl a, .inr y => y.sameInt a
  | .inr x, .inl b => x.sameInt b
  | .inr (.nan a), .inr (.nan b) => a == b
  | .inr x, .inr y => x.same y

mutual

/-- Numbers by value, texts by characters, mappings and sets whatever their order. What is no number is
the same as itself, as an object, wherever values are looked up or held against each other. -/
def same : Value → Value → Bool
  | none, none => true
  | list xs, list ys => sameAll xs ys
  | tuple xs, tuple ys => sameAll xs ys
  | tuple xs, sort c d => sameAll xs [c, d]
  | sort c d, tuple [a, b] => same c a && same d b
  | sort c d, sort a b => same c a && same d b
  | sequence t xs, sequence u ys => t == u && sameAll xs ys
  | set xs, set ys => xs.length == ys.length && sameMembers xs ys
  | map es, map gs | map es, frozen gs | frozen es, map gs | frozen es, frozen gs =>
    es.length == gs.length && sameEntries es gs
  | bytes a, bytes b => a == b
  | token t, token u => t == u || (t.isText && u.isText && t.text == u.text)
  | token t, str s => t.isText && t.text == s
  | str s, token t => t.isText && s == t.text
  | str s, str t => s == t
  | condition c _, condition d _ => sameCondition c d
  | record m fs es, record n gs hs =>
    m == n && fs.length == gs.length && es.length == hs.length && sameFields fs gs &&
      sameFields es hs
  | shared a, shared b => a == b
  | a, b =>
    match a.number?, b.number? with
    | some x, some y => sameNumber x y
    | _, _ => false

def sameAll : List Value → List Value → Bool
  | [], [] => true
  | x :: xs, y :: ys => same x y && sameAll xs ys
  | _, _ => false

def sameMembers : List Value → List Value → Bool
  | [], _ => true
  | x :: xs, ys => ys.any (same x) && sameMembers xs ys

def sameEntries : List (Value × Value) → List (Value × Value) → Bool
  | [], _ => true
  | (k, v) :: es, gs => gs.any (fun g => same k g.1 && same v g.2) && sameEntries es gs

def sameFields : List (String × Value) → List (String × Value) → Bool
  | [], _ => true
  | (k, v) :: es, gs => gs.any (fun g => k == g.1 && same v g.2) && sameFields es gs

def sameCondition : Condition Value → Condition Value → Bool
  | .base f, .base g => f == g
  | .comparison f o v, .comparison g p w => f == g && o == p && same v w
  | .like f o v m, .like g p w n => f == g && o == p && m == n && same v w
  | .membership f v, .membership g w => f == g && same v w
  | .nullCheck f o v, .nullCheck g p w => f == g && o == p && same v w
  | _, _ => false

end

/-- The value under a key. -/
def lookup (key : Value) (entries : List (Value × Value)) : Option Value :=
  (entries.find? fun e => same key e.1).map Prod.snd

def hasKey (key : Value) (entries : List (Value × Value)) : Bool :=
  entries.any fun e => same key e.1

/-- Replaces the value under a key in its place, or adds the entry at the end. -/
def insert (key value : Value) (entries : List (Value × Value)) : List (Value × Value) :=
  if hasKey key entries then
    entries.map fun e => if same key e.1 then (e.1, value) else e
  else entries ++ [(key, value)]

def ofEntries (entries : List (Value × Value)) : List (Value × Value) :=
  entries.foldl (fun es e => insert e.1 e.2 es) []

/-- The value under a key of a mapping, and nothing elsewhere. -/
def get (v : Value) (key : String) : Value :=
  ((v.entries?.bind (lookup (str key))).getD none)

/-- Whether two key lists name the same keys. -/
def sameKeys (a b : List Value) : Bool :=
  a.all (fun k => b.any (same k)) && b.all (fun k => a.any (same k))

end Value
end TableQuery
