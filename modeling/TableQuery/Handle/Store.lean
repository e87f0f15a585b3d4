import TableQuery.Value.Part

/-! Objects that a caller holds and may change: each list and mapping is a cell, and whoever holds the
cell sees the change. -/

namespace TableQuery

namespace Value

mutual

/-- The value with each shared cell replaced by what `content` gives for it. -/
def fill (content : Nat → Value) : Value → Value
  | list xs => .list (fillAll content xs)
  | tuple xs => .tuple (fillAll content xs)
  | sequence t xs => .sequence t (fillAll content xs)
  | set xs => .set (fillAll content xs)
  | map es => .map (fillEntries content es)
  | frozen es => .frozen (fillEntries content es)
  | sort c d => .sort (fill content c) (fill content d)
  | condition c g => .condition (fillCondition content c) g
  | record m fs gs => .record m (fillFields content fs) (fillFields content gs)
  | shared n => content n
  | v => v

def fillAll (content : Nat → Value) : List Value → List Value
  | [] => []
  | x :: xs => fill content x :: fillAll content xs

def fillEntries (content : Nat → Value) : List (Value × Value) → List (Value × Value)
  | [] => []
  | (k, v) :: es => (fill content k, fill content v) :: fillEntries content es

def fillFields (content : Nat → Value) : List (String × Value) → List (String × Value)
  | [] => []
  | (k, v) :: es => (k, fill content v) :: fillFields content es

def fillCondition (content : Nat → Value) : Condition Value → Condition Value
  | .base f => .base f
  | .comparison f o v => .comparison f o (fill content v)
  | .like f o v p => .like f o (fill content v) p
  | .membership f v => .membership f (fill content v)
  | .nullCheck f o v => .nullCheck f o (fill content v)

end

end Value

/-- The content of each cell, in which the lists and mappings are cells again. -/
structure Store where
  cells : List Value := []

namespace Store

def cell (s : Store) (n : Nat) : Value := s.cells.getD n .none

/-- One layer of a value. -/
def look (s : Store) : Value → Value
  | .shared n => s.cell n
  | v => v

/-- A cell with everything below it, as deep as `depth` cells. -/
def content (s : Store) : (depth : Nat) → Nat → Value
  | 0, _ => .none
  | depth + 1, n => (s.cell n).fill (s.content depth)

/-- All layers of a value. No chain of cells that does not repeat is longer than the store. -/
def resolve (s : Store) (v : Value) : Value := v.fill (s.content s.cells.length)

def alloc (s : Store) (v : Value) : Value × Store :=
  (.shared s.cells.length, ⟨s.cells ++ [v]⟩)

mutual

/-- The value with a new cell for each of its lists and mappings. -/
def adopt (s : Store) : Value → Value × Store
  | .list xs =>
    let (xs, s) := adoptAll s xs
    s.alloc (.list xs)
  | .map es =>
    let (es, s) := adoptEntries s es
    s.alloc (.map es)
  | .tuple xs =>
    let (xs, s) := adoptAll s xs
    (.tuple xs, s)
  | .sort c d =>
    let (c, s) := adopt s c
    let (d, s) := adopt s d
    (.sort c d, s)
  | .condition c g =>
    let (c, s) := adoptCondition s c
    (.condition c g, s)
  | v => (v, s)

def adoptAll (s : Store) : List Value → List Value × Store
  | [] => ([], s)
  | x :: xs =>
    let (x, s) := adopt s x
    let (xs, s) := adoptAll s xs
    (x :: xs, s)

def adoptEntries (s : Store) : List (Value × Value) → List (Value × Value) × Store
  | [] => ([], s)
  | (k, v) :: es =>
    let (v, s) := adopt s v
    let (es, s) := adoptEntries s es
    ((k, v) :: es, s)

def adoptCondition (s : Store) : Condition Value → Condition Value × Store
  | .base f => (.base f, s)
  | .comparison f o v =>
    let (v, s) := adopt s v
    (.comparison f o v, s)
  | .like f o v p =>
    let (v, s) := adopt s v
    (.like f o v p, s)
  | .membership f v =>
    let (v, s) := adopt s v
    (.membership f v, s)
  | .nullCheck f o v =>
    let (v, s) := adopt s v
    (.nullCheck f o v, s)

end

def walk (s : Store) (v : Value) : (path : List Value) → Outcome Value
  | [] => .ok v
  | key :: path => do walk s (← (s.look v).part key) path

/-- What a caller can do to an object of its own. -/
inductive Change
  | append (v : Value)
  | erase (key : Value)
  | put (key v : Value)

def Change.on (v : Value) : Change → Outcome Value
  | append x => v.append x
  | erase key => v.erase key
  | put key x => v.put key x

/-- A change of which the new part is the caller's own too. Keys have nothing in them that changes. -/
def adoptChange (s : Store) : Change → Change × Store
  | .append x => let (x, s) := s.adopt x; (.append x, s)
  | .put key x => let (x, s) := s.adopt x; (.put (s.resolve key) x, s)
  | .erase key => (.erase (s.resolve key), s)

/-- Changes the object at the end of a path. -/
def change (s : Store) (v : Value) (path : List Value) (c : Change) : Outcome Store := do
  let target ← s.walk v (path.map s.resolve)
  let (c, s) := s.adoptChange c
  let content ← c.on (s.look target)
  match target with
  | .shared n => return ⟨s.cells.set n content⟩
  | _ => return s

end Store
end TableQuery
