import Mathlib.Data.List.Chain
import TableQuery.Sql.Layout

/-! What the layouts of statements have in common: their words are plain, and no two names touch. -/

namespace TableQuery

/-- The characters that a name or a place is known by. -/
def signs : List Char := ['%', '_', '"', '?']

def isFixed (s : String) : Bool := s != "" && s.toList.all fun c => !signs.contains c

namespace Piece

def isQuoted : Piece → Bool
  | quoted _ => true
  | _ => false

def isText : Piece → Bool
  | text _ => true
  | _ => false

def Regular : Piece → Prop
  | text s => isFixed s
  | slot (.cell key _) => key ≠ ""
  | _ => True

end Piece

namespace Layout

structure Regular (l : Layout) : Prop where
  pieces : ∀ p ∈ l, p.Regular
  apart : l.IsChain fun p q => p.isQuoted → q.isText

/-- Words come first, if anything does. -/
def StartsPlain (l : Layout) : Prop := ∀ p ∈ l.head?, p.isText

theorem Regular.nil : Regular [] := ⟨by simp, .nil⟩

theorem Regular.singleton {p : Piece} (h : p.Regular) : Regular [p] := ⟨by simpa using h, .singleton p⟩

theorem Regular.text {s : String} {l : Layout} (hs : isFixed s) (hl : Regular l) :
    Regular (.text s :: l) := by
  refine ⟨?_, List.isChain_cons.mpr ⟨by simp [Piece.isQuoted], hl.apart⟩⟩
  intro p hp
  rcases List.mem_cons.mp hp with rfl | hp
  · exact hs
  · exact hl.pieces p hp

theorem Regular.append {l m : Layout} (hl : Regular l) (hm : Regular m) (hs : StartsPlain m) :
    Regular (l ++ m) := by
  refine ⟨?_, List.isChain_append.mpr ⟨hl.apart, hm.apart, fun p _ q hq _ => hs q hq⟩⟩
  intro p hp
  rcases List.mem_append.mp hp with hp | hp
  · exact hl.pieces p hp
  · exact hm.pieces p hp

theorem Regular.quoted {n : String} {l : Layout} (hl : Regular l) (hs : StartsPlain l) :
    Regular (.quoted n :: l) :=
  Regular.append (l := [.quoted n]) (.singleton trivial) hl hs

theorem startsPlain_text (s : String) (l : Layout) : StartsPlain (.text s :: l) := by
  simp [StartsPlain, Piece.isText]

theorem startsPlain_nil : StartsPlain [] := by simp [StartsPlain]

theorem join_cons_cons (separator : String) (l m : Layout) (ls : List Layout) :
    join separator (l :: m :: ls) = l ++ .text separator :: join separator (m :: ls) := by
  simp [join, List.intercalate]

theorem regular_join {separator : String} {ls : List Layout} (hs : isFixed separator)
    (h : ∀ l ∈ ls, Regular l) : Regular (join separator ls) := by
  induction ls with
  | nil => exact .nil
  | cons l ls ih =>
    cases ls with
    | nil => simpa [join, List.intercalate] using h l
    | cons m ls =>
      rw [join_cons_cons]
      exact (h l (List.mem_cons_self ..)).append
        (.text hs (ih fun k hk => h k (List.mem_cons_of_mem l hk))) (startsPlain_text _ _)

theorem startsPlain_join (separator s : String) (l : Layout) (ls : List Layout) :
    StartsPlain (join separator ((.text s :: l) :: ls)) := by
  cases ls with
  | nil => simpa [join, List.intercalate] using startsPlain_text s l
  | cons m ls =>
    rw [join_cons_cons]
    exact startsPlain_text s _

theorem regular_predicate (d : Dialect) (p : Predicate) : Regular (predicate d p) := by
  have htext : ∀ {n s : String} {l : Layout}, isFixed s → Regular l →
      Regular (.quoted n :: .text s :: l) :=
    fun hs hl => (Regular.text hs hl).quoted (startsPlain_text _ _)
  have hplace : ∀ {s : Slot} {t : String} {l : Layout}, (Piece.slot s).Regular → isFixed t →
      Regular l → Regular (.slot s :: .text t :: l) :=
    fun hp ht hl => (Regular.singleton hp).append (.text ht hl) (startsPlain_text _ _)
  cases p with
  | isNull c => exact htext (by decide) .nil
  | isNotNull c => exact htext (by decide) .nil
  | isFlag c negated flag => cases d <;> cases negated <;> cases flag <;> exact htext (by decide) .nil
  | compare c o v => cases o <;> exact htext (by decide) (.singleton trivial)
  | like c o s =>
    cases d <;> cases o
    case sqlite.ilike =>
      exact .text (by decide) (htext (by decide) (hplace trivial (by decide) .nil))
    all_goals exact htext (by decide) (hplace trivial (by decide) .nil)
  | oneOf c vs => exact htext (by decide) (hplace trivial (by decide) .nil)

theorem regular_filter {d : Dialect} {before : String} (f : Filter) (hs : isFixed before) :
    Regular (filter d before f) ∧ StartsPlain (filter d before f) := by
  unfold filter
  split
  · exact ⟨.nil, startsPlain_nil⟩
  · refine ⟨.text hs (regular_join (by decide) fun l hl => ?_), startsPlain_text _ _⟩
    obtain ⟨p, -, rfl⟩ := List.mem_map.mp hl
    exact regular_predicate d p

theorem regular_names (ns : List String) : Regular (names ns) := by
  refine regular_join (by decide) fun l hl => ?_
  obtain ⟨n, -, rfl⟩ := List.mem_map.mp hl
  exact .singleton trivial

theorem regular_columns (c : Columns) : Regular (columns c) := by
  cases c with
  | all => exact .text (by decide) .nil
  | named ns => exact regular_names ns

theorem regular_target (t : Target) : Regular (target t) := by
  obtain ⟨schema, table⟩ := t
  have ht : Regular [.quoted table] := .singleton trivial
  cases schema with
  | none => exact ht
  | some s => exact (Regular.text (by decide) ht).quoted (startsPlain_text _ _)

theorem regular_order (items : List (String × Direction)) :
    Regular (order items) ∧ StartsPlain (order items) := by
  unfold order
  split
  · exact ⟨.nil, startsPlain_nil⟩
  · refine ⟨.text (by decide) (regular_join (by decide) fun l hl => ?_), startsPlain_text _ _⟩
    obtain ⟨⟨c, direction⟩, -, rfl⟩ := List.mem_map.mp hl
    have hs : isFixed (" " ++ direction.text) := by cases direction <;> decide
    exact (Regular.text hs .nil).quoted (startsPlain_text _ _)

theorem regular_pagination (d : Dialect) (take skip : Option Int) :
    Regular (pagination d take skip) ∧ StartsPlain (pagination d take skip) := by
  have hone : ∀ n, Regular [bound n] := fun n => .singleton (show (bound n).Regular from trivial)
  have htwo : ∀ {s : String} (k n : Int), isFixed s → Regular [bound k, .text s, bound n] :=
    fun k n hs => (hone k).append (.text hs (hone n)) (startsPlain_text _ _)
  unfold pagination
  split
  · exact ⟨.nil, startsPlain_nil⟩
  all_goals refine ⟨.text (by decide) ?_, startsPlain_text _ _⟩
  · exact htwo _ _ (by decide)
  · exact hone _
  · exact htwo _ _ (by decide)
  · exact hone _

theorem regular_row {cells : List (String × Value)} (h : ∀ c ∈ cells, c.1 ≠ "") :
    Regular (row cells) := by
  refine .text (by decide) ((regular_join (by decide) fun l hl => ?_).append
    (.text (by decide) .nil) (startsPlain_text _ _))
  obtain ⟨c, hc, rfl⟩ := List.mem_map.mp hl
  exact .singleton (h c hc)

theorem regular_returning (c : Columns) : Regular (returning c) :=
  .text (by decide) (regular_columns c)

theorem regular_insertInto (t : Target) (ns : List String) : Regular (insertInto t ns) := by
  refine Regular.append (Regular.append (.text (by decide) (regular_target t))
    (.text (by decide) (regular_names ns)) (startsPlain_text _ _)) (.text (by decide) .nil)
    (startsPlain_text _ _)

theorem regular_assignment {n : String} (hn : n ≠ "") (v : Value) : Regular (assignment n v) :=
  (Regular.text (by decide) (.singleton (show (Piece.slot (.cell n v)).Regular from hn))).quoted
    (startsPlain_text _ _)

theorem numbered_ne_empty (i : Nat) (n : String) : numbered i n ≠ "" := by
  intro h
  have := congrArg String.toList h
  simp [numbered] at this

end Layout

/-- The names that values go under. -/
def Statement.cellNames : Statement → List String
  | insert _ ns .. => ns
  | update _ assignments .. => assignments.map Prod.fst
  | _ => []

open Layout in
theorem Layout.regular_ofStatement {s : Statement} (d : Dialect) (h : "" ∉ s.cellNames) :
    Regular (ofStatement d s) := by
  cases s with
  | select c t f o take skip =>
    obtain ⟨hf, hf'⟩ := regular_filter (d := d) f (by decide : isFixed " \nWHERE ")
    obtain ⟨ho, ho'⟩ := regular_order o
    obtain ⟨hp, hp'⟩ := regular_pagination d take skip
    exact ((((Regular.text (by decide) (regular_columns c)).append
      (.text (by decide) (regular_target t)) (startsPlain_text _ _)).append hf hf').append
      ho ho').append hp hp'
  | count t f =>
    obtain ⟨hf, hf'⟩ := regular_filter (d := d) f (by decide : isFixed " \nWHERE ")
    exact Regular.append (.text (by decide) (regular_target t)) hf hf'
  | insert t ns values c =>
    refine ((regular_insertInto t ns).append (regular_row fun cell hc => ?_)
      (startsPlain_text _ _)).append (regular_returning c) (startsPlain_text _ _)
    rintro he
    exact h (he ▸ (List.of_mem_zip hc).1)
  | insertMany t ns rows c =>
    refine ((regular_insertInto t ns).append (regular_join (by decide) fun l hl => ?_) ?_).append
      (regular_returning c) (startsPlain_text _ _)
    · obtain ⟨i, hi, rfl⟩ := List.mem_mapIdx.mp hl
      refine regular_row fun cell hc => ?_
      obtain ⟨n, -, hn⟩ := List.mem_map.mp (List.of_mem_zip hc).1
      exact hn ▸ numbered_ne_empty i n
    · cases rows with
      | nil => exact startsPlain_nil
      | cons r rows =>
        rw [List.mapIdx_cons]
        exact startsPlain_join _ _ _ _
  | update t assignments f c =>
    obtain ⟨hf, hf'⟩ := regular_filter (d := d) f (by decide : isFixed " WHERE ")
    refine (((Regular.text (by decide) (regular_target t)).append
      (.text (by decide) (regular_join (by decide) fun l hl => ?_)) (startsPlain_text _ _)).append
      hf hf').append (regular_returning c) (startsPlain_text _ _)
    obtain ⟨a, ha, rfl⟩ := List.mem_map.mp hl
    exact regular_assignment (fun he => h (he ▸ List.mem_map_of_mem ha)) a.2
  | delete t f c =>
    obtain ⟨hf, hf'⟩ := regular_filter (d := d) f (by decide : isFixed " WHERE ")
    exact (Regular.append (.text (by decide) (regular_target t)) hf hf').append
      (regular_returning c) (startsPlain_text _ _)

end TableQuery
